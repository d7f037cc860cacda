import SlimStreamer.Proto.CommandRequest

/-!
# Octets that belong to no supported message

A player may send messages the server has no handler for.  `onRequest` then removes one octet
from the ring and ends; the loop goes on only after a message was handled.  What happens to a
stream of messages with such octets between them therefore depends on how it is cut.

* `Item`, `Mixed` — a stream of messages and octets to skip;
* `scan`, `scans` — what one call and what successive calls do to it, in lengths only;
* `receive_scans` — the calls of `onRequest` are these scans;
* `resynchronisation` — when the way of cutting makes no difference, and when the ring is left
  with nothing that could be processed.
-/

namespace SlimStreamer

namespace CommandSession

/-- An octet that no supported message starts with, or a message. -/
inductive Item where
  | skipped (octet : UInt8)
  | message (message : SupportedMessage)

def Item.octets : Item → List UInt8
  | .skipped octet => [octet]
  | .message m => m.octets

def stream (items : List Item) : List UInt8 := items.flatMap Item.octets

/-- No supported label starts at an octet to skip. -/
def Mixed : List Item → Prop
  | [] => True
  | .skipped octet :: items =>
    CommandLabel.find ((octet :: stream items).take 4) = none ∧ Mixed items
  | .message _ :: items => Mixed items

/-! ### Scanning -/

/-- What a call has handled, whether it failed, and what is left: the items, and how many of
their octets are in the ring. -/
structure Scan where
  handled : List ClientCommand
  failed : Bool
  received : ℕ
  pending : List Item

/-- One call: messages are handled up to the first octet to skip. -/
def scan : ℕ → List Item → Scan
  | n, [] => ⟨[], false, n, []⟩
  | n, .skipped octet :: items =>
    if 4 ≤ n then ⟨[], false, n - 1, items⟩ else ⟨[], false, n, .skipped octet :: items⟩
  | n, .message m :: items =>
    if m.octets.length ≤ n then
      if dividesByZero m.command then ⟨[], true, n, .message m :: items⟩
      else
        let later := scan (n - m.octets.length) items
        { later with handled := m.command :: later.handled }
    else ⟨[], false, n, .message m :: items⟩

/-- Successive calls with segments of the given lengths, up to the first that fails. -/
def scans : List ℕ → ℕ → List Item → Scan
  | [], n, items => ⟨[], false, n, items⟩
  | k :: ks, n, items =>
    let first := scan (n + k) items
    if first.failed then first
    else
      let others := scans ks first.received first.pending
      { others with handled := first.handled ++ others.handled }

/-! ### What the ring holds -/

/-- The ring holds the first octets of the items. -/
structure Holds (n : ℕ) (items : List Item) (ring : Ring UInt8) : Prop where
  mixed : Mixed items
  contents : ring.contents = (stream items).take n
  le_length : n ≤ (stream items).length

/-- What is pending starts with nothing that another turn would remove. -/
def Settled : ℕ → List Item → Prop
  | _, [] => True
  | n, .skipped _ :: _ => n < 4
  | n, .message m :: _ => n < m.octets.length

theorem Holds.size {n : ℕ} {items : List Item} {ring : Ring UInt8} (h : Holds n items ring) :
    ring.getSize = n := by
  rw [Ring.getSize_eq, h.contents, List.length_take]
  exact Nat.min_eq_left h.le_length

theorem Holds.label {n : ℕ} {items : List Item} {ring : Ring UInt8} (h : Holds n items ring)
    (h4 : 4 ≤ n) : (List.range 4).map ring.get = (stream items).take 4 := by
  have hsize : 4 ≤ ring.size := by
    have hring := h.size
    rw [Ring.getSize] at hring
    omega
  rw [label_octets hsize, h.contents, field_take (by omega)]
  rfl

theorem Holds.find_skipped {n : ℕ} {octet : UInt8} {items : List Item} {ring : Ring UInt8}
    (h : Holds n (.skipped octet :: items) ring) (h4 : 4 ≤ n) :
    CommandLabel.find ((List.range 4).map ring.get) = none := by
  rw [h.label h4]
  exact h.mixed.1

theorem Holds.find_message {n : ℕ} {m : SupportedMessage} {items : List Item} {ring : Ring UInt8}
    (h : Holds n (.message m :: items) ring) (h4 : 4 ≤ n) :
    CommandLabel.find ((List.range 4).map ring.get) = some m.label := by
  have hlen := m.eight_le_length
  have hfour : 4 ≤ m.octets.length := by omega
  have hfield : (stream (.message m :: items)).take 4 = field m.octets 0 4 :=
    List.take_append_of_le_length hfour
  rw [h.label h4, hfield, m.labelled, CommandLabel.find_LABEL]

theorem Holds.isEnoughData {n : ℕ} {m : SupportedMessage} {items : List Item} {ring : Ring UInt8}
    (h : Holds n (.message m :: items) ring) :
    InboundCommand.isEnoughData ring = true ↔ m.octets.length ≤ n := by
  have hlen := m.eight_le_length
  have hannounced := m.announced_size
  have hsize : ring.size = n := h.size
  rw [InboundCommand.isEnoughData_iff, hsize]
  by_cases h8 : 8 ≤ n
  · have hfield : announced ring.contents = announced m.octets := by
      have hheader : 4 + 4 ≤ m.octets.length := hlen
      rw [announced, announced, h.contents, field_take (by omega)]
      exact congrArg Octets.bigEndian (field_append hheader)
    rw [hfield]
    omega
  · omega

/-- The ring is at rest when what is pending is settled. -/
theorem Holds.atRest_iff {n : ℕ} {items : List Item} {ring : Ring UInt8} (h : Holds n items ring) :
    AtRest ring ↔ Settled n items := by
  rw [AtRest, h.size]
  cases items with
  | nil =>
    have hle := h.le_length
    exact ⟨fun _ => trivial, fun _ h4 => absurd (le_trans h4 hle) (by decide)⟩
  | cons item items =>
    cases item with
    | skipped octet =>
      show _ ↔ n < 4
      refine ⟨?_, fun hlt h4 => absurd h4 (by omega)⟩
      intro hrest
      by_contra hge
      have hfind := h.find_skipped (by omega)
      have hsome := (hrest (by omega)).1
      rw [hfind] at hsome
      exact Bool.noConfusion hsome
    | message m =>
      show _ ↔ n < m.octets.length
      have hlen := m.eight_le_length
      constructor
      · intro hrest
        by_contra hge
        have henough := h.isEnoughData.mpr (by omega)
        rw [(hrest (by omega)).2] at henough
        exact Bool.noConfusion henough
      · intro hlt h4
        rw [h.find_message h4, ← Bool.not_eq_true, h.isEnoughData]
        exact ⟨rfl, by omega⟩

/-! ### One call and successive calls -/

/-- A skipped octet leaves the ring. -/
theorem Holds.pop {n : ℕ} {octet : UInt8} {items : List Item} {ring : Ring UInt8}
    (h : Holds n (.skipped octet :: items) ring) (hn : 0 < n) :
    Holds (n - 1) items ring.pop := by
  have hle : n ≤ (stream items).length + 1 := h.le_length
  refine ⟨h.mixed.2, ?_, by omega⟩
  obtain ⟨k, rfl⟩ : ∃ k, n = k + 1 := ⟨n - 1, by omega⟩
  rw [Ring.contents_pop, h.contents]
  rfl

/-- A handled message leaves the ring. -/
theorem Holds.popN {n : ℕ} {m : SupportedMessage} {items : List Item} {ring : Ring UInt8}
    (h : Holds n (.message m :: items) ring) (hn : m.octets.length ≤ n) :
    Holds (n - m.octets.length) items (ring.popN m.octets.length) := by
  have hle := h.le_length
  have hstream : stream (.message m :: items) = m.octets ++ stream items := rfl
  rw [hstream, List.length_append] at hle
  refine ⟨h.mixed, ?_, by omega⟩
  rw [Ring.contents_popN, h.contents, hstream, List.take_append, List.take_of_length_le hn,
    List.drop_left]

/-- What a call of the source did, next to what the scan says it does. -/
structure ScannedBy (capacity : ℕ) (expected : Scan) (result : RequestResult) : Prop where
  handled : result.handled = expected.handled
  failure : result.failure = if expected.failed then some .divisionByZero else none
  holds : Holds expected.received expected.pending result.session.commandRingBuffer
  capacity : result.session.commandRingBuffer.getCapacity = capacity

theorem requestLoop_scan (timestamp : Timestamp) {capacity : ℕ} (items : List Item) :
    ∀ (n fuel : ℕ) (contexts : ℕ → Context) (s : CommandSession), n < fuel →
      Holds n items s.commandRingBuffer → s.commandRingBuffer.getCapacity = capacity →
      ScannedBy capacity (scan n items) (requestLoop timestamp fuel contexts s) := by
  induction items with
  | nil =>
    intro n fuel contexts s hfuel h hcap
    obtain ⟨fuel, rfl⟩ : ∃ k, fuel = k + 1 := ⟨fuel - 1, by omega⟩
    rw [requestLoop, requestTurn_rest _ _ (h.atRest_iff.mpr trivial)]
    exact ⟨rfl, rfl, h, hcap⟩
  | cons item items ih =>
    intro n fuel contexts s hfuel h hcap
    obtain ⟨fuel, rfl⟩ : ∃ k, fuel = k + 1 := ⟨fuel - 1, by omega⟩
    rw [requestLoop]
    cases item with
    | skipped octet =>
      rw [scan]
      split
      · rename_i h4
        rw [requestTurn_skip _ _ (h.size.ge.trans' h4) (h.find_skipped h4)]
        exact ⟨rfl, rfl, h.pop (by omega), (Ring.storage_length_pop _).trans hcap⟩
      · rename_i h4
        rw [requestTurn_rest _ _ (h.atRest_iff.mpr (Nat.lt_of_not_le h4))]
        exact ⟨rfl, rfl, h, hcap⟩
    | message m =>
      rw [scan]
      split
      · rename_i hlen
        have hcontents : s.commandRingBuffer.contents =
            m.octets ++ (stream items).take (n - m.octets.length) := by
          rw [h.contents]
          show (m.octets ++ stream items).take n = _
          rw [List.take_append, List.take_of_length_le hlen]
        obtain ⟨s', hring, hturn⟩ := requestTurn_supported (contexts 0) timestamp m hcontents
        rw [hturn]
        split
        · exact ⟨rfl, rfl, h, hcap⟩
        · have height := m.eight_le_length
          have hlater := ih (n - m.octets.length) fuel (fun k => contexts (k + 1)) s' (by omega)
            (by rw [hring]; exact h.popN hlen)
            (by rw [hring]; exact (Ring.storage_length_popN _ _).trans hcap)
          exact ⟨congrArg (m.command :: ·) hlater.handled, hlater.failure, hlater.holds,
            hlater.capacity⟩
      · rename_i hlen
        rw [requestTurn_rest _ _ (h.atRest_iff.mpr (Nat.lt_of_not_le hlen))]
        exact ⟨rfl, rfl, h, hcap⟩

/-- The octets after those received are the same before and after a scan. -/
theorem scan_later (items : List Item) :
    ∀ n ≤ (stream items).length, (stream (scan n items).pending).drop (scan n items).received =
      (stream items).drop n := by
  induction items with
  | nil => intro n _; rfl
  | cons item items ih =>
    intro n hn
    cases item with
    | skipped octet =>
      rw [scan]
      split
      · obtain ⟨k, rfl⟩ : ∃ k, n = k + 1 := ⟨n - 1, by omega⟩
        rfl
      · rfl
    | message m =>
      have hstream : stream (.message m :: items) = m.octets ++ stream items := rfl
      rw [hstream, List.length_append] at hn
      rw [scan]
      split
      · rename_i hlen
        split
        · rfl
        · refine (ih (n - m.octets.length) (by omega)).trans ?_
          rw [hstream, List.drop_append, List.drop_eq_nil_of_le hlen, List.nil_append]
      · rfl

theorem scan_length (items : List Item) :
    ∀ n, (stream (scan n items).pending).length ≤ (stream items).length := by
  induction items with
  | nil => intro n; exact le_refl _
  | cons item items ih =>
    intro n
    cases item with
    | skipped octet =>
      rw [scan]
      split
      · exact Nat.le_succ _
      · exact le_refl _
    | message m =>
      have hstream : stream (.message m :: items) = m.octets ++ stream items := rfl
      rw [scan, hstream, List.length_append]
      split
      · split
        · exact List.length_append.le
        · exact (ih _).trans (Nat.le_add_left _ _)
      · exact List.length_append.le

theorem onRequest_scan {n : ℕ} {items : List Item} {s : CommandSession} {later : List UInt8}
    (receipt : Receipt) (h : Holds n items s.commandRingBuffer)
    (hlater : (stream items).drop n = receipt.buffer ++ later)
    (hcap : (stream items).length ≤ s.commandRingBuffer.getCapacity) :
    ScannedBy s.commandRingBuffer.getCapacity (scan (n + receipt.buffer.length) items)
      (s.onRequest receipt) := by
  have htotal : (stream items).length = n + receipt.buffer.length + later.length := by
    have hlength := congrArg List.length hlater
    have hle := h.le_length
    rw [List.length_drop, List.length_append] at hlength
    omega
  have hsize : s.commandRingBuffer.size = n := h.size
  rw [Ring.getCapacity] at hcap
  have hpushed : Holds (n + receipt.buffer.length) items
      (s.commandRingBuffer.pushAll receipt.buffer) := by
    refine ⟨h.mixed, ?_, by omega⟩
    rw [Ring.contents_pushAll _ _ (by omega), h.contents, List.take_add, hlater, List.take_left]
  have hpushedCap : (s.commandRingBuffer.pushAll receipt.buffer).getCapacity =
      s.commandRingBuffer.getCapacity := Ring.storage_length_pushAll _ _
  have hloop := requestLoop_scan receipt.timestamp items (n + receipt.buffer.length)
    ((s.commandRingBuffer.pushAll receipt.buffer).getSize + 1) receipt.contexts
    { s with commandRingBuffer := s.commandRingBuffer.pushAll receipt.buffer }
    (by rw [hpushed.size]; exact Nat.lt_succ_self _) hpushed hpushedCap
  have hkept : ∀ result : RequestResult,
      (result.failure = none ∨ result.failure = some .divisionByZero) →
      onException result = result := by
    intro result hresult
    rw [onException]
    rcases hresult with hnone | hdivision
    · rw [hnone]
    · rw [hdivision]
  rw [onRequest, hkept]
  · exact hloop
  · rw [hloop.failure]
    split
    · exact Or.inr rfl
    · exact Or.inl rfl

/-- **Successive calls of `onRequest` are scans** of the lengths of their segments. -/
theorem receive_scans (receipts : List Receipt) :
    ∀ {n : ℕ} {items : List Item} {s : CommandSession} {later : List UInt8},
      Holds n items s.commandRingBuffer →
      (stream items).drop n = receipts.flatMap Receipt.buffer ++ later →
      (stream items).length ≤ s.commandRingBuffer.getCapacity →
      ScannedBy s.commandRingBuffer.getCapacity
        (scans (receipts.map fun r => r.buffer.length) n items) (receive receipts s) := by
  induction receipts with
  | nil => intro n items s later h _ _; exact ⟨rfl, rfl, h, rfl⟩
  | cons receipt receipts ih =>
    intro n items s later h hlater hcap
    rw [List.flatMap_cons, List.append_assoc] at hlater
    have hfirst := onRequest_scan receipt h hlater hcap
    rw [List.map_cons, scans, receive]
    dsimp only
    rw [hfirst.failure]
    cases hfailed : (scan (n + receipt.buffer.length) items).failed with
    | true => exact hfirst
    | false =>
      have hle : n + receipt.buffer.length ≤ (stream items).length := by
        have hlength := congrArg List.length hlater
        have hn := h.le_length
        rw [List.length_drop, List.length_append] at hlength
        omega
      have hrest : (stream (scan (n + receipt.buffer.length) items).pending).drop
          (scan (n + receipt.buffer.length) items).received =
            receipts.flatMap Receipt.buffer ++ later := by
        rw [scan_later items _ hle, ← List.drop_drop, hlater, List.drop_left]
      have hothers := ih hfirst.holds hrest
        (by rw [hfirst.capacity]; exact (scan_length items _).trans hcap)
      rw [hfirst.capacity] at hothers
      refine ⟨?_, hothers.failure, hothers.holds, hothers.capacity⟩
      show (s.onRequest receipt).handled ++ _ = _ ++ _
      rw [hfirst.handled, hothers.handled]

/-! ### What a stream leads to -/

/-- The commands of the messages up to the first whose handler divides by zero, and whether
there is one. -/
def outcome : List Item → List ClientCommand × Bool
  | [] => ([], false)
  | .skipped _ :: items => outcome items
  | .message m :: items =>
    if dividesByZero m.command then ([], true)
    else (m.command :: (outcome items).1, (outcome items).2)

def AllSkipped (items : List Item) : Prop := ∀ item ∈ items, ∃ octet, item = .skipped octet

/-- No octet is skipped before a message that is reached. -/
def SkipsLast : List Item → Prop
  | [] => True
  | .skipped _ :: items => AllSkipped items
  | .message m :: items => dividesByZero m.command = true ∨ SkipsLast items

/-- Nothing follows the messages that are reached but at most four octets to skip. -/
def SkipsFew : List Item → Prop
  | [] => True
  | .skipped _ :: items => AllSkipped items ∧ items.length ≤ 3
  | .message m :: items => dividesByZero m.command = true ∨ SkipsFew items

theorem AllSkipped.tail {item : Item} {items : List Item} (h : AllSkipped (item :: items)) :
    AllSkipped items := fun other hother => h other (List.mem_cons_of_mem item hother)

theorem AllSkipped.outcome {items : List Item} (h : AllSkipped items) :
    outcome items = ([], false) := by
  induction items with
  | nil => rfl
  | cons item items ih =>
    obtain ⟨octet, rfl⟩ := h item List.mem_cons_self
    exact ih h.tail

theorem allSkipped_of_outcome {items : List Item} (h : outcome items = ([], false)) :
    AllSkipped items := by
  induction items with
  | nil => exact List.forall_mem_nil _
  | cons item items ih =>
    cases item with
    | skipped octet => exact List.forall_mem_cons.mpr ⟨⟨octet, rfl⟩, ih h⟩
    | message m =>
      rw [outcome] at h
      split at h <;> simp at h

/-- A stream shorter than a header has no message. -/
theorem allSkipped_of_length {items : List Item} (h : (stream items).length < 8) :
    AllSkipped items ∧ items.length = (stream items).length := by
  induction items with
  | nil => exact ⟨List.forall_mem_nil _, rfl⟩
  | cons item items ih =>
    cases item with
    | skipped octet =>
      have hlength : (stream (.skipped octet :: items)).length = (stream items).length + 1 := rfl
      obtain ⟨hall, hitems⟩ := ih (by omega)
      refine ⟨List.forall_mem_cons.mpr ⟨⟨octet, rfl⟩, hall⟩, ?_⟩
      rw [hlength, List.length_cons, hitems]
    | message m =>
      have hlength : (stream (.message m :: items)).length =
          m.octets.length + (stream items).length := List.length_append
      have height := m.eight_le_length
      omega

theorem scan_zero (items : List Item) : scan 0 items = ⟨[], false, 0, items⟩ := by
  cases items with
  | nil => rfl
  | cons item items =>
    cases item with
    | skipped octet => rfl
    | message m =>
      have height := m.eight_le_length
      rw [scan, if_neg (by omega)]

theorem settled_zero (items : List Item) : Settled 0 items := by
  cases items with
  | nil => trivial
  | cons item items =>
    cases item with
    | skipped octet => exact Nat.zero_lt_succ 3
    | message m => exact lt_of_lt_of_le (by decide) m.eight_le_length

/-- A scan takes from the outcome what it handles. -/
theorem scan_outcome (items : List Item) :
    ∀ n, outcome items = ((scan n items).handled ++ (outcome (scan n items).pending).1,
        (outcome (scan n items).pending).2) ∧
      ((scan n items).failed = true → outcome (scan n items).pending = ([], true)) := by
  induction items with
  | nil => intro n; exact ⟨rfl, Bool.noConfusion⟩
  | cons item items ih =>
    intro n
    cases item with
    | skipped octet =>
      rw [scan]
      split
      · exact ⟨rfl, fun h => Bool.noConfusion h⟩
      · exact ⟨rfl, fun h => Bool.noConfusion h⟩
    | message m =>
      rw [scan]
      split
      · split
        · rename_i hdivides
          exact ⟨rfl, fun _ => by rw [outcome, if_pos hdivides]⟩
        · rename_i hdivides
          obtain ⟨houtcome, hfailed⟩ := ih (n - m.octets.length)
          refine ⟨?_, hfailed⟩
          rw [outcome, if_neg hdivides, houtcome]
          rfl
      · exact ⟨rfl, fun h => Bool.noConfusion h⟩

theorem scans_outcome (ks : List ℕ) :
    ∀ n items, outcome items = ((scans ks n items).handled ++ (outcome (scans ks n items).pending).1,
        (outcome (scans ks n items).pending).2) ∧
      ((scans ks n items).failed = true → outcome (scans ks n items).pending = ([], true)) := by
  induction ks with
  | nil => intro n items; exact ⟨rfl, fun h => Bool.noConfusion h⟩
  | cons k ks ih =>
    intro n items
    obtain ⟨houtcome, hfailed⟩ := scan_outcome items (n + k)
    rw [scans]
    dsimp only
    split
    · exact ⟨houtcome, hfailed⟩
    · obtain ⟨hothers, hothersFailed⟩ :=
        ih (scan (n + k) items).received (scan (n + k) items).pending
      refine ⟨?_, hothersFailed⟩
      rw [houtcome, hothers, List.append_assoc]

/-- A run of scans that ends with a failure or without a message left has the whole outcome. -/
theorem scans_complete {ks : List ℕ} {n : ℕ} {items : List Item}
    (h : (scans ks n items).failed = false →
      outcome (scans ks n items).pending = ([], false)) :
    ((scans ks n items).handled, (scans ks n items).failed) = outcome items := by
  obtain ⟨houtcome, hfailed⟩ := scans_outcome ks n items
  cases hf : (scans ks n items).failed with
  | true => rw [houtcome, hfailed hf, List.append_nil]
  | false => rw [houtcome, h hf, List.append_nil]

theorem scan_le (items : List Item) :
    ∀ n ≤ (stream items).length,
      (scan n items).received ≤ (stream (scan n items).pending).length := by
  induction items with
  | nil => intro n hn; exact hn
  | cons item items ih =>
    intro n hn
    cases item with
    | skipped octet =>
      have hlength : (stream (.skipped octet :: items)).length = (stream items).length + 1 := rfl
      rw [scan]
      split
      · show n - 1 ≤ (stream items).length
        omega
      · exact hn
    | message m =>
      have hlength : (stream (.message m :: items)).length =
          m.octets.length + (stream items).length := List.length_append
      rw [scan]
      split
      · split
        · exact hn
        · exact ih _ (by omega)
      · exact hn

/-- What is still to be received, before and after a scan. -/
theorem scan_remaining {items : List Item} {n : ℕ} (hn : n ≤ (stream items).length) :
    (scan n items).received ≤ (stream (scan n items).pending).length ∧
      (stream (scan n items).pending).length - (scan n items).received =
        (stream items).length - n := by
  have hlater := congrArg List.length (scan_later items n hn)
  rw [List.length_drop, List.length_drop] at hlater
  exact ⟨scan_le items n hn, hlater⟩

/-- **The run rule.**  What each scan that does not fail keeps, the run keeps. -/
theorem scans_invariant {P : ℕ → List Item → Prop} (ks : List ℕ)
    (hstep : ∀ k ∈ ks, ∀ n items, P n items → n + k ≤ (stream items).length →
      (scan (n + k) items).failed = false →
      P (scan (n + k) items).received (scan (n + k) items).pending) :
    ∀ n items, P n items → n + ks.sum ≤ (stream items).length →
      (scans ks n items).failed = false →
      P (scans ks n items).received (scans ks n items).pending ∧
        (scans ks n items).received ≤ (stream (scans ks n items).pending).length ∧
        (stream (scans ks n items).pending).length - (scans ks n items).received =
          (stream items).length - (n + ks.sum) := by
  induction ks with
  | nil => intro n items hP hn _; exact ⟨hP, hn, rfl⟩
  | cons k ks ih =>
    intro n items hP hn hfailed
    rw [List.sum_cons] at hn
    rw [List.sum_cons]
    rw [scans] at hfailed ⊢
    dsimp only at hfailed ⊢
    have hle : n + k ≤ (stream items).length := by omega
    cases hfirst : (scan (n + k) items).failed with
    | true =>
      rw [hfirst, if_pos rfl, hfirst] at hfailed
      exact Bool.noConfusion hfailed
    | false =>
      rw [hfirst] at hfailed
      obtain ⟨hreceived, hremaining⟩ := scan_remaining hle
      obtain ⟨hend, hreceived', hremaining'⟩ :=
        ih (fun k' hk => hstep k' (List.mem_cons_of_mem k hk)) _ _
          (hstep k List.mem_cons_self n items hP hle hfirst) (by omega) hfailed
      refine ⟨hend, hreceived', hremaining'.trans ?_⟩
      omega

/-- A single octet that arrives leaves the ring settled again. -/
theorem settled_scan_succ {n : ℕ} {items : List Item} (h : Settled n items)
    (hle : n + 1 ≤ (stream items).length) (hfailed : (scan (n + 1) items).failed = false) :
    Settled (scan (n + 1) items).received (scan (n + 1) items).pending := by
  cases items with
  | nil => trivial
  | cons item items =>
    cases item with
    | skipped octet =>
      have hn : n < 4 := h
      rw [scan]
      split
      · rename_i h4
        obtain rfl : n = 3 := by omega
        show Settled 3 items
        cases items with
        | nil => trivial
        | cons next items =>
          cases next with
          | skipped octet' => exact Nat.lt_succ_self 3
          | message m => exact lt_of_lt_of_le (by decide) m.eight_le_length
      · rename_i h4
        exact Nat.lt_of_not_le h4
    | message m =>
      have hn : n < m.octets.length := h
      rw [scan] at hfailed ⊢
      split
      · rename_i hlen
        rw [if_pos hlen] at hfailed
        obtain hexact : n + 1 - m.octets.length = 0 := by omega
        split
        · rename_i hdivides
          rw [if_pos hdivides] at hfailed
          exact Bool.noConfusion hfailed
        · dsimp only
          rw [hexact, scan_zero]
          exact settled_zero items
      · rename_i hlen
        exact Nat.lt_of_not_le hlen

/-- When the whole stream is in the ring and nothing can be done, no message is left. -/
theorem outcome_of_settled {items : List Item} (h : Settled (stream items).length items) :
    outcome items = ([], false) := by
  cases items with
  | nil => rfl
  | cons item items =>
    cases item with
    | skipped octet =>
      have hlt : (stream (.skipped octet :: items)).length < 4 := h
      exact (allSkipped_of_length (by omega)).1.outcome
    | message m =>
      have hlt : (stream (.message m :: items)).length < m.octets.length := h
      have hlength : (stream (.message m :: items)).length =
          m.octets.length + (stream items).length := List.length_append
      omega

/-- **Octet by octet the whole stream is handled**, whatever is to be skipped. -/
theorem scans_octets (items : List Item) :
    ((scans (List.replicate (stream items).length 1) 0 items).handled,
        (scans (List.replicate (stream items).length 1) 0 items).failed) = outcome items := by
  apply scans_complete
  intro hfailed
  have hsum : (List.replicate (stream items).length 1).sum = (stream items).length := by
    simp
  obtain ⟨hsettled, hreceived, hremaining⟩ := scans_invariant (P := Settled) _
    (fun k hk n items hn hle => by
      obtain rfl := List.eq_of_mem_replicate hk
      exact settled_scan_succ hn hle) 0 items (settled_zero items) (by omega) hfailed
  apply outcome_of_settled
  rw [hsum] at hremaining
  have hall : (scans (List.replicate (stream items).length 1) 0 items).received =
      (stream (scans (List.replicate (stream items).length 1) 0 items).pending).length := by omega
  rw [← hall]
  exact hsettled

/-! ### When nothing is skipped before a message -/

/-- The message that is pending is not complete. -/
def NotComplete (n : ℕ) (items : List Item) : Prop :=
  ∀ m rest, items = .message m :: rest → n < m.octets.length

theorem AllSkipped.notComplete {items : List Item} (h : AllSkipped items) (n : ℕ) :
    NotComplete n items := by
  rintro m rest rfl
  obtain ⟨octet, hoctet⟩ := h (.message m) List.mem_cons_self
  exact absurd hoctet (by simp)

theorem AllSkipped.skipsLast {items : List Item} (h : AllSkipped items) : SkipsLast items := by
  cases items with
  | nil => trivial
  | cons item items =>
    obtain ⟨octet, rfl⟩ := h item List.mem_cons_self
    exact h.tail

theorem skipsLast_scan (items : List Item) :
    ∀ n, SkipsLast items → (scan n items).failed = false →
      SkipsLast (scan n items).pending ∧
        NotComplete (scan n items).received (scan n items).pending := by
  induction items with
  | nil => intro n _ _; exact ⟨trivial, fun m rest heq => absurd heq (by simp [scan])⟩
  | cons item items ih =>
    intro n h hfailed
    cases item with
    | skipped octet =>
      have hall : AllSkipped items := h
      have hcons : AllSkipped (.skipped octet :: items) :=
        List.forall_mem_cons.mpr ⟨⟨octet, rfl⟩, hall⟩
      rw [scan]
      split
      · exact ⟨hall.skipsLast, hall.notComplete _⟩
      · exact ⟨hcons.skipsLast, hcons.notComplete _⟩
    | message m =>
      rw [scan] at hfailed ⊢
      split
      · rename_i hlen
        rw [if_pos hlen] at hfailed
        split
        · rename_i hdivides
          rw [if_pos hdivides] at hfailed
          exact Bool.noConfusion hfailed
        · rename_i hdivides
          rw [if_neg hdivides] at hfailed
          exact ih _ (h.resolve_left hdivides) hfailed
      · rename_i hlen
        refine ⟨h, ?_⟩
        rintro m' rest heq
        injection heq with hitem _
        injection hitem with hm
        rw [← hm]
        exact Nat.lt_of_not_le hlen

theorem outcome_of_skipsLast {items : List Item} (h : SkipsLast items)
    (hcomplete : NotComplete (stream items).length items) : outcome items = ([], false) := by
  cases items with
  | nil => rfl
  | cons item items =>
    cases item with
    | skipped octet =>
      have hall : AllSkipped items := h
      exact hall.outcome
    | message m =>
      have hlt := hcomplete m items rfl
      have hlength : (stream (.message m :: items)).length =
          m.octets.length + (stream items).length := List.length_append
      omega

theorem scans_skipsLast {items : List Item} (h : SkipsLast items) (ks : List ℕ)
    (hsum : ks.sum = (stream items).length) :
    ((scans ks 0 items).handled, (scans ks 0 items).failed) = outcome items := by
  apply scans_complete
  intro hfailed
  have hstart : NotComplete 0 items := by
    rintro m rest rfl
    exact lt_of_lt_of_le (by decide) m.eight_le_length
  obtain ⟨⟨hlast, hcomplete⟩, hreceived, hremaining⟩ :=
    scans_invariant (P := fun n items => SkipsLast items ∧ NotComplete n items) ks
      (fun k _ n items hn _ => skipsLast_scan items (n + k) hn.1) 0 items ⟨h, hstart⟩ (by omega)
      hfailed
  apply outcome_of_skipsLast hlast
  have hall : (scans ks 0 items).received = (stream (scans ks 0 items).pending).length := by omega
  rw [← hall]
  exact hcomplete

/-- In one segment the stream is handled up to the first octet to skip. -/
theorem skipsLast_of_scan (items : List Item) :
    ((scan (stream items).length items).handled, (scan (stream items).length items).failed) =
        outcome items → SkipsLast items := by
  induction items with
  | nil => intro _; trivial
  | cons item items ih =>
    cases item with
    | skipped octet =>
      intro h
      rw [scan] at h
      have hnone : outcome items = ([], false) := by
        split at h <;> exact h.symm
      exact allSkipped_of_outcome hnone
    | message m =>
      have hlength : (stream (.message m :: items)).length =
          m.octets.length + (stream items).length := List.length_append
      intro h
      by_cases hdivides : dividesByZero m.command = true
      · exact Or.inl hdivides
      · refine Or.inr (ih ?_)
        rw [hlength, scan, if_pos (Nat.le_add_right _ _), if_neg hdivides, outcome,
          if_neg hdivides, Nat.add_sub_cancel_left] at h
        injection h with hhandled hfailed
        exact Prod.ext (List.cons.inj hhandled).2 hfailed

/-! ### When nothing is left to process -/

theorem skipsFew_of_allSkipped {items : List Item} (h : AllSkipped items)
    (hlength : items.length ≤ 4) : SkipsFew items := by
  cases items with
  | nil => trivial
  | cons item items =>
    obtain ⟨octet, rfl⟩ := h item List.mem_cons_self
    exact ⟨h.tail, Nat.le_of_succ_le_succ hlength⟩

theorem AllSkipped.length {items : List Item} (h : AllSkipped items) :
    (stream items).length = items.length := by
  induction items with
  | nil => rfl
  | cons item items ih =>
    obtain ⟨octet, rfl⟩ := h item List.mem_cons_self
    have hlength : (stream (.skipped octet :: items)).length = (stream items).length + 1 := rfl
    rw [hlength, ih h.tail, List.length_cons]

theorem skipsFew_scan (items : List Item) :
    ∀ n ≤ (stream items).length, SkipsFew items → (scan n items).failed = false →
      SkipsFew (scan n items).pending ∧ Settled (scan n items).received (scan n items).pending := by
  induction items with
  | nil => intro n _ _ _; exact ⟨trivial, trivial⟩
  | cons item items ih =>
    intro n hn h hfailed
    cases item with
    | skipped octet =>
      obtain ⟨hall, hfew⟩ := h
      have hlength : (stream (.skipped octet :: items)).length = (stream items).length + 1 := rfl
      rw [hlength, hall.length] at hn
      rw [scan]
      split
      · show SkipsFew items ∧ Settled (n - 1) items
        refine ⟨skipsFew_of_allSkipped hall (by omega), ?_⟩
        cases items with
        | nil => trivial
        | cons next items =>
          obtain ⟨octet', rfl⟩ := hall next List.mem_cons_self
          show n - 1 < 4
          omega
      · rename_i h4
        exact ⟨⟨hall, hfew⟩, Nat.lt_of_not_le h4⟩
    | message m =>
      have hlength : (stream (.message m :: items)).length =
          m.octets.length + (stream items).length := List.length_append
      rw [scan] at hfailed ⊢
      split
      · rename_i hlen
        rw [if_pos hlen] at hfailed
        split
        · rename_i hdivides
          rw [if_pos hdivides] at hfailed
          exact Bool.noConfusion hfailed
        · rename_i hdivides
          rw [if_neg hdivides] at hfailed
          exact ih _ (by omega) (h.resolve_left hdivides) hfailed
      · rename_i hlen
        exact ⟨h, Nat.lt_of_not_le hlen⟩

/-- One segment tells whether the ring is always left at rest. -/
theorem skipsFew_of_scan (items : List Item) :
    ((scan (stream items).length items).failed = false →
      Settled (scan (stream items).length items).received
        (scan (stream items).length items).pending) → SkipsFew items := by
  induction items with
  | nil => intro _; trivial
  | cons item items ih =>
    cases item with
    | skipped octet =>
      have hlength : (stream (.skipped octet :: items)).length = (stream items).length + 1 := rfl
      intro h
      have hshort : (stream items).length ≤ 3 := by
        rw [hlength, scan] at h
        by_contra hlong
        rw [if_pos (by omega)] at h
        have hsettled : Settled (stream items).length items := h rfl
        cases items with
        | nil => exact hlong (Nat.zero_le 3)
        | cons next items =>
          cases next with
          | skipped octet' =>
            have hlt : (stream (.skipped octet' :: items)).length < 4 := hsettled
            omega
          | message m =>
            have hlt : (stream (.message m :: items)).length < m.octets.length := hsettled
            have hsum : (stream (.message m :: items)).length =
                m.octets.length + (stream items).length := List.length_append
            omega
      have hheader : (stream items).length < 8 := by omega
      obtain ⟨hall, hitems⟩ := allSkipped_of_length hheader
      exact ⟨hall, by omega⟩
    | message m =>
      have hlength : (stream (.message m :: items)).length =
          m.octets.length + (stream items).length := List.length_append
      intro h
      by_cases hdivides : dividesByZero m.command = true
      · exact Or.inl hdivides
      · refine Or.inr (ih ?_)
        rw [hlength, scan, if_pos (Nat.le_add_right _ _), if_neg hdivides,
          Nat.add_sub_cancel_left] at h
        exact h

/-! ### Any two ways of cutting -/

/-- The octets one by one, all at the same time. -/
def octetReceipts (context : Context) (octets : List UInt8) : List Receipt :=
  octets.map fun octet => ⟨[octet], ⟨0⟩, fun _ => context⟩

theorem octetReceipts_buffer (context : Context) (octets : List UInt8) :
    (octetReceipts context octets).flatMap Receipt.buffer = octets := by
  induction octets with
  | nil => rfl
  | cons octet octets ih => exact congrArg (octet :: ·) ih

theorem octetReceipts_length (context : Context) (octets : List UInt8) :
    (octetReceipts context octets).map (fun r => r.buffer.length) =
      List.replicate octets.length 1 := by
  induction octets with
  | nil => rfl
  | cons octet octets ih => exact congrArg (1 :: ·) ih

/-- What successive calls are given is the stream, cut somehow. -/
def Cuts (items : List Item) (receipts : List Receipt) : Prop :=
  receipts.flatMap Receipt.buffer = stream items

/-- The same commands are handled for any two ways of cutting the stream. -/
def IndependentOfCuts (items : List Item) (s : CommandSession) : Prop :=
  ∀ receipts receipts', Cuts items receipts → Cuts items receipts' →
    (receive receipts s).handled = (receive receipts' s).handled ∧
      (receive receipts s).failure = (receive receipts' s).failure

/-- After each call that returns the ring holds nothing that could be removed. -/
def AlwaysAtRest (items : List Item) (s : CommandSession) : Prop :=
  ∀ earlier later, Cuts items (earlier ++ later) → (receive earlier s).failure = none →
    AtRest (receive earlier s).session.commandRingBuffer

section Cut

variable {items : List Item} {s : CommandSession}

theorem cuts_length {receipts : List Receipt} (h : Cuts items receipts) :
    (receipts.map fun r => r.buffer.length).sum = (stream items).length := by
  rw [← h, List.length_flatMap]

theorem scans_single (k : ℕ) (items : List Item) : scans [k] 0 items = scan k items := by
  rw [scans, Nat.zero_add]
  dsimp only
  cases hfailed : (scan k items).failed with
  | true => rw [if_pos rfl]
  | false =>
    rw [if_neg Bool.false_ne_true, scans, List.append_nil, ← hfailed]

/-- The failure tells whether the scan failed. -/
theorem failed_inj {b c : Bool}
    (h : (if b then some Failure.divisionByZero else none) =
      if c then some Failure.divisionByZero else none) : b = c := by
  cases b <;> cases c <;> simp at h ⊢

theorem failed_of_failure {b : Bool}
    (h : (if b then some Failure.divisionByZero else none) = none) : b = false := by
  cases b <;> simp at h ⊢

theorem independentOfCuts_iff (hholds : Holds 0 items s.commandRingBuffer)
    (hlen : (stream items).length ≤ s.commandRingBuffer.getCapacity) :
    IndependentOfCuts items s ↔ SkipsLast items := by
  have hscans (receipts : List Receipt) (h : Cuts items receipts) :
      ScannedBy s.commandRingBuffer.getCapacity
        (scans (receipts.map fun r => r.buffer.length) 0 items) (receive receipts s) :=
    receive_scans receipts hholds (by rw [List.append_nil, h, List.drop_zero]) hlen
  constructor
  · intro h
    let context : Context := ⟨⟨44100, false, ⟨0⟩⟩, fun _ => ⟨0⟩, ProbeSort.merge⟩
    have hwhole : Cuts items [⟨stream items, ⟨0⟩, fun _ => context⟩] := List.append_nil _
    have hoctets : Cuts items (octetReceipts context (stream items)) := octetReceipts_buffer _ _
    obtain ⟨hhandled, hfailure⟩ := h _ _ hwhole hoctets
    have hsegment := hscans _ hwhole
    have hsegments := hscans _ hoctets
    rw [octetReceipts_length] at hsegments
    rw [List.map_cons, List.map_nil, scans_single] at hsegment
    have houtcome := scans_octets items
    apply skipsLast_of_scan
    rw [← houtcome]
    refine Prod.ext ?_ (failed_inj ?_)
    · exact hsegment.handled.symm.trans (hhandled.trans hsegments.handled)
    · exact hsegment.failure.symm.trans (hfailure.trans hsegments.failure)
  · intro h receipts receipts' hcut hcut'
    have hfirst := scans_skipsLast h _ (cuts_length hcut)
    have hsecond := scans_skipsLast h _ (cuts_length hcut')
    obtain ⟨hhandled, hfailed⟩ := Prod.mk.inj (hfirst.trans hsecond.symm)
    rw [(hscans _ hcut).handled, (hscans _ hcut').handled, (hscans _ hcut).failure,
      (hscans _ hcut').failure, hhandled, hfailed]
    exact ⟨rfl, rfl⟩

theorem alwaysAtRest_iff (hholds : Holds 0 items s.commandRingBuffer)
    (hlen : (stream items).length ≤ s.commandRingBuffer.getCapacity) :
    AlwaysAtRest items s ↔ SkipsFew items := by
  have hscans {earlier later : List Receipt} (h : Cuts items (earlier ++ later)) :
      ScannedBy s.commandRingBuffer.getCapacity
        (scans (earlier.map fun r => r.buffer.length) 0 items) (receive earlier s) := by
    have hlater : (stream items).drop 0 =
        earlier.flatMap Receipt.buffer ++ later.flatMap Receipt.buffer := by
      rw [List.drop_zero, ← h, List.flatMap_append]
    exact receive_scans earlier hholds hlater hlen
  constructor
  · intro h
    let context : Context := ⟨⟨44100, false, ⟨0⟩⟩, fun _ => ⟨0⟩, ProbeSort.merge⟩
    have hwhole : Cuts items ([⟨stream items, ⟨0⟩, fun _ => context⟩] ++ []) := List.append_nil _
    have hsegment := hscans hwhole
    rw [List.map_cons, List.map_nil, scans_single] at hsegment
    apply skipsFew_of_scan
    intro hfailed
    rw [← hsegment.holds.atRest_iff]
    refine h _ _ hwhole ?_
    rw [hsegment.failure, if_neg]
    exact fun hf => Bool.noConfusion (hfailed.symm.trans hf)
  · intro h earlier later hcut hnone
    have hearlier := hscans hcut
    rw [hearlier.failure] at hnone
    have hsum : (earlier.map fun r => r.buffer.length).sum ≤ (stream items).length := by
      have htotal := cuts_length hcut
      rw [List.map_append, List.sum_append] at htotal
      omega
    obtain ⟨⟨_, hsettled⟩, _⟩ :=
      scans_invariant (P := fun n items => SkipsFew items ∧ Settled n items)
        (earlier.map fun r => r.buffer.length)
        (fun k _ n items hn hle => skipsFew_scan items (n + k) hle hn.1) 0 items
        ⟨h, settled_zero items⟩ (by omega) (failed_of_failure hnone)
    exact hearlier.holds.atRest_iff.mpr hsettled

end Cut

/-- **Resynchronisation.**  For a stream that fits into the ring, the commands handled are the
same for any two ways of cutting it exactly when no octet is skipped before a message that is
reached; and the ring is always left with nothing to remove exactly when nothing but at most four
such octets follow the messages that are reached. -/
theorem resynchronisation (items : List Item) (hmixed : Mixed items)
    (hlen : (stream items).length ≤ 2048) (s : CommandSession)
    (hempty : s.commandRingBuffer.isEmpty = true)
    (hcap : s.commandRingBuffer.getCapacity = 2048) :
    (IndependentOfCuts items s ↔ SkipsLast items) ∧ (AlwaysAtRest items s ↔ SkipsFew items) := by
  have hnil : s.commandRingBuffer.contents = [] := by
    apply List.eq_nil_of_length_eq_zero
    rw [Ring.contents_length]
    exact beq_iff_eq.mp hempty
  have hholds : Holds 0 items s.commandRingBuffer := ⟨hmixed, hnil, Nat.zero_le _⟩
  rw [← hcap] at hlen
  exact ⟨independentOfCuts_iff hholds hlen, alwaysAtRest_iff hholds hlen⟩

/-- A `DSCO` message. -/
def disconnect : SupportedMessage where
  label := .DSCO
  octets := octets ['D', 'S', 'C', 'O'] ++ [0, 0, 0, 1, 4]
  labelled := by decide
  fixed_size := by decide
  announced_size := by decide

theorem resynchronisation_disconnect :
    (IndependentOfCuts [.message disconnect, .skipped 0] (create 0 [49] 9001 .FLAC none ⟨0⟩) ↔
      SkipsLast [.message disconnect, .skipped 0]) ∧
    (AlwaysAtRest [.message disconnect, .skipped 0] (create 0 [49] 9001 .FLAC none ⟨0⟩) ↔
      SkipsFew [.message disconnect, .skipped 0]) :=
  resynchronisation [.message disconnect, .skipped 0] ⟨rfl, trivial⟩ (by decide)
    (create 0 [49] 9001 .FLAC none ⟨0⟩) rfl List.length_replicate

def skippedFirst : List Item := [.skipped 0, .message disconnect]

/-- The two in one segment. -/
def wholeReceipt : Receipt :=
  ⟨stream skippedFirst, ⟨0⟩, fun _ => ⟨⟨44100, false, ⟨0⟩⟩, fun _ => ⟨0⟩, ProbeSort.merge⟩⟩

theorem skippedFirst_holds :
    Holds 0 skippedFirst (create 0 [49] 9001 .FLAC none ⟨0⟩).commandRingBuffer :=
  ⟨⟨rfl, trivial⟩, rfl, Nat.zero_le _⟩

theorem skippedFirst_fits : (stream skippedFirst).length ≤
    (create 0 [49] 9001 .FLAC none ⟨0⟩).commandRingBuffer.getCapacity := by
  show _ ≤ (List.replicate 2048 _).length
  rw [List.length_replicate]
  decide

/-- **One octet before a message**: in one segment the message stays in the ring; octet by octet
it is handled. -/
theorem skipped_before_message :
    Mixed skippedFirst ∧ Cuts skippedFirst [wholeReceipt] ∧
      Cuts skippedFirst (octetReceipts (wholeReceipt.contexts 0) (stream skippedFirst)) ∧
      (receive [wholeReceipt] (create 0 [49] 9001 .FLAC none ⟨0⟩)).handled = [] ∧
      (receive [wholeReceipt] (create 0 [49] 9001 .FLAC none ⟨0⟩)).failure = none ∧
      ¬ AtRest (receive [wholeReceipt]
        (create 0 [49] 9001 .FLAC none ⟨0⟩)).session.commandRingBuffer ∧
      (receive (octetReceipts (wholeReceipt.contexts 0) (stream skippedFirst))
        (create 0 [49] 9001 .FLAC none ⟨0⟩)).handled = [disconnect.command] := by
  have hcut : Cuts skippedFirst [wholeReceipt] := List.append_nil _
  have hwhole := receive_scans [wholeReceipt] skippedFirst_holds
    (hcut.symm.trans (List.append_nil _).symm) skippedFirst_fits
  have hoctets := receive_scans
    (octetReceipts (wholeReceipt.contexts 0) (stream skippedFirst)) skippedFirst_holds
    ((octetReceipts_buffer _ _).symm.trans (List.append_nil _).symm) skippedFirst_fits
  have hscan : scans ([wholeReceipt].map fun r => r.buffer.length) 0 skippedFirst =
      ⟨[], false, 9, [.message disconnect]⟩ := rfl
  have hscans : (scans (List.replicate 10 1) 0 skippedFirst).handled = [disconnect.command] := rfl
  rw [hscan] at hwhole
  rw [octetReceipts_length] at hoctets
  refine ⟨⟨rfl, trivial⟩, hcut, octetReceipts_buffer _ _, hwhole.handled,
    hwhole.failure, ?_, hoctets.handled.trans hscans⟩
  rw [hwhole.holds.atRest_iff]
  show ¬ 9 < disconnect.octets.length
  decide

end CommandSession

end SlimStreamer
