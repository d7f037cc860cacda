import Mathlib.Data.List.Nodup
import Mathlib.Data.List.Range
import SlimStreamer.Lib.Execution

/-!
# Broadcast with one sequence number per subscriber

A broadcaster presents one item after another to a changing set of subscribers, each of which
may refuse an item.  It keeps a counter of the completed items and, for every subscriber, a
sequence number: an item is offered to the subscribers whose number is not past the counter,
and a number is increased when the item is accepted.  The item is completed when nobody it
was offered to refused; otherwise it is presented again.  A reset begins a new epoch.

The `Log` records what happened to the items of the current epoch.  `Delivered` relates the
two: each subscriber has accepted a contiguous run of items, from the one that was current
when it joined, and its number says where the run ends.

* `delivered_step`, `delivered_exec` — the invariant, for one call and for a run;
* `Delivered.accepted_nodup` — nobody accepts an item twice.
-/

namespace SequencedBroadcast

open GuardedExecution

variable {κ ι : Type*}

/-! ### The counters -/

structure Counters (κ : Type*) where
  completed : ℕ
  entries : List (κ × ℕ)

namespace Counters

/-- The subscribers the next item is offered to, with their answers. -/
def offered (c : Counters κ) (answers : κ → Bool) : List (κ × Bool) :=
  (c.entries.filter fun e => decide (e.2 ≤ c.completed)).map fun e => (e.1, answers e.1)

/-- Nobody the item is offered to refuses it. -/
def succeeds (c : Counters κ) (answers : κ → Bool) : Bool :=
  c.entries.all fun e => decide (c.completed < e.2) || answers e.1

def advance (completed : ℕ) (answers : κ → Bool) (e : κ × ℕ) : κ × ℕ :=
  if e.2 ≤ completed ∧ answers e.1 = true then (e.1, e.2 + 1) else e

def present (c : Counters κ) (answers : κ → Bool) : Counters κ where
  completed := if c.succeeds answers then c.completed + 1 else c.completed
  entries := c.entries.map (advance c.completed answers)

def join (c : Counters κ) (k : κ) : Counters κ where
  completed := c.completed
  entries := c.entries ++ [(k, c.completed)]

def leave [DecidableEq κ] (c : Counters κ) (k : κ) : Counters κ where
  completed := c.completed
  entries := c.entries.filter fun e => e.1 != k

def reset (c : Counters κ) : Counters κ where
  completed := 0
  entries := c.entries.map fun e => (e.1, 0)

/-- Every number is at the counter or one ahead of it. -/
def Current (c : Counters κ) : Prop :=
  ∀ e ∈ c.entries, e.2 = c.completed ∨ e.2 = c.completed + 1

@[simp] theorem advance_fst (completed : ℕ) (answers : κ → Bool) (e : κ × ℕ) :
    (advance completed answers e).1 = e.1 := by
  rw [advance]
  split <;> rfl

theorem present_keys (c : Counters κ) (answers : κ → Bool) :
    (c.present answers).entries.map Prod.fst = c.entries.map Prod.fst := by
  rw [present, List.map_map]
  exact List.map_congr_left fun e _ => advance_fst c.completed answers e

theorem advance_le {completed : ℕ} {e : κ × ℕ} (he : e.2 ≤ completed + 1) (answers : κ → Bool) :
    (advance completed answers e).2 ≤ completed + 1 := by
  rw [advance]
  split
  · rename_i hdue
    exact Nat.succ_le_succ hdue.1
  · exact he

theorem le_advance (completed : ℕ) (answers : κ → Bool) (e : κ × ℕ) :
    e.2 ≤ (advance completed answers e).2 := by
  rw [advance]
  split
  · exact Nat.le_succ e.2
  · exact le_rfl

/-- When nobody refuses, everybody is one ahead. -/
theorem advance_of_succeeds {c : Counters κ} (hc : c.Current) {answers : κ → Bool}
    (hs : c.succeeds answers = true) {e : κ × ℕ} (he : e ∈ c.entries) :
    (advance c.completed answers e).2 = c.completed + 1 := by
  have hcur := hc e he
  have hall := List.all_eq_true.mp hs e he
  rw [Bool.or_eq_true, decide_eq_true_eq] at hall
  rw [advance]
  split
  · show e.2 + 1 = c.completed + 1
    omega
  · rename_i hno
    rcases hcur with hn | hn
    · rcases hall with hlt | haccept
      · omega
      · exact absurd ⟨hn.le, haccept⟩ hno
    · exact hn

theorem current_present {c : Counters κ} (hc : c.Current) (answers : κ → Bool) :
    (c.present answers).Current := by
  intro e' he'
  obtain ⟨e, he, rfl⟩ := List.mem_map.mp he'
  have hcur := hc e he
  have hle := le_advance c.completed answers e
  have hlt := advance_le (show e.2 ≤ c.completed + 1 by omega) answers
  cases hs : c.succeeds answers with
  | true =>
    rw [present, hs, advance_of_succeeds hc hs he]
    exact Or.inl rfl
  | false =>
    rw [present, hs]
    show (advance c.completed answers e).2 = c.completed ∨
      (advance c.completed answers e).2 = c.completed + 1
    omega

theorem current_join {c : Counters κ} (hc : c.Current) (k : κ) : (c.join k).Current := by
  intro e he
  rcases List.mem_append.mp he with he | he
  · exact hc e he
  · rw [List.mem_singleton.mp he]
    exact Or.inl rfl

theorem current_leave [DecidableEq κ] {c : Counters κ} (hc : c.Current) (k : κ) : (c.leave k).Current :=
  fun e he => hc e (List.mem_of_mem_filter he)

theorem current_reset (c : Counters κ) : c.reset.Current := by
  intro e' he'
  obtain ⟨e, _, rfl⟩ := List.mem_map.mp he'
  exact Or.inl rfl

end Counters

/-! ### The log of an epoch -/

structure Offer (κ ι : Type*) where
  key : κ
  item : ι
  accepted : Bool

structure Log (κ ι : Type*) where
  /-- The completed items of the epoch, in order. -/
  items : List ι
  /-- The item that was presented and is not completed. -/
  pending : Option ι
  /-- How many items were completed when a subscriber joined. -/
  joined : κ → ℕ
  /-- How many items were completed when a subscriber left. -/
  left : κ → Option ℕ
  /-- The offers of the epoch, in order. -/
  offers : List (Offer κ ι)
  /-- The items presented so far, in any epoch. -/
  presented : List ι
  /-- The subscribers that joined so far. -/
  known : List κ

namespace Log

def empty : Log κ ι := ⟨[], none, fun _ => 0, fun _ => none, [], [], []⟩

/-- The items of the epoch, including the one that is not completed. -/
def history (l : Log κ ι) : List ι := l.items ++ l.pending.toList

/-- What a subscriber accepted in this epoch, in order. -/
def acceptedBy [DecidableEq κ] (l : Log κ ι) (k : κ) : List ι :=
  l.offers.filterMap fun o => if o.key = k ∧ o.accepted = true then some o.item else none

/-- An item was presented: the offers that were made, and whether it is completed. -/
def present (l : Log κ ι) (item : ι) (offered : List (κ × Bool)) (result : Bool) : Log κ ι :=
  { l with
    items := if result then l.items ++ [item] else l.items
    pending := if result then none else some item
    offers := l.offers ++ offered.map fun o => ⟨o.1, item, o.2⟩
    presented := item :: l.presented }

def join [DecidableEq κ] (l : Log κ ι) (k : κ) : Log κ ι :=
  { l with
    joined := fun k' => if k' = k then l.items.length else l.joined k'
    known := k :: l.known }

def leave [DecidableEq κ] (l : Log κ ι) (k : κ) : Log κ ι :=
  { l with left := fun k' => if k' = k then some l.items.length else l.left k' }

/-- A new epoch, which those who are gone have left before its first item. -/
def reset (l : Log κ ι) : Log κ ι :=
  { l with
    items := []
    pending := none
    joined := fun _ => 0
    left := fun k => (l.left k).map fun _ => 0
    offers := [] }

/-- The run of a subscriber that left ends with the last item that was completed by then, or
with the one that was presented at the time. -/
def Left [DecidableEq κ] (l : Log κ ι) (k : κ) : Prop :=
  ∃ m n, l.left k = some m ∧ (n = m ∨ n = m + 1) ∧ n ≤ l.history.length ∧
    l.acceptedBy k = (l.history.take n).drop (l.joined k)

/-- An item that is not completed is presented next; otherwise a new one is. -/
def MayPresent (l : Log κ ι) (item : ι) : Prop :=
  l.pending = some item ∨ l.pending = none ∧ item ∉ l.presented

instance [DecidableEq ι] (l : Log κ ι) (item : ι) : Decidable (l.MayPresent item) :=
  inferInstanceAs (Decidable (_ ∨ _))

theorem history_present (l : Log κ ι) (item : ι) (offered : List (κ × Bool)) (result : Bool) :
    (l.present item offered result).history = l.items ++ [item] := by
  cases result
  · rfl
  · exact List.append_nil _

/-- The history before: everything that is completed, and the item if it is not new. -/
theorem history_of_mayPresent {l : Log κ ι} {item : ι} (h : l.MayPresent item) :
    l.pending = some item ∧ l.history = l.items ++ [item] ∨
      l.pending = none ∧ l.history = l.items ∧ item ∉ l.presented := by
  rcases h with h | ⟨h, hnew⟩
  · exact Or.inl ⟨h, by rw [history, h]; rfl⟩
  · exact Or.inr ⟨h, by rw [history, h]; exact List.append_nil _, hnew⟩

theorem acceptedBy_present [DecidableEq κ] (l : Log κ ι) (item : ι) (offered : List (κ × Bool))
    (result : Bool) (k : κ) :
    (l.present item offered result).acceptedBy k = l.acceptedBy k ++
      offered.filterMap fun o => if o.1 = k ∧ o.2 = true then some item else none := by
  rw [acceptedBy, present, List.filterMap_append, List.filterMap_map]
  rfl

end Log

/-! ### The system -/

variable [DecidableEq κ]

structure Run (κ ι : Type*) where
  counters : Counters κ
  log : Log κ ι

inductive Call (κ ι : Type*) where
  | present (item : ι) (answers : κ → Bool)
  | join (k : κ)
  | leave (k : κ)
  | reset

def enabled (r : Run κ ι) : Call κ ι → Prop
  | .present item _ => r.log.MayPresent item
  | .join k => k ∉ r.log.known
  | .leave k => k ∈ r.counters.entries.map Prod.fst
  | .reset => True

def step (r : Run κ ι) : Call κ ι → Run κ ι
  | .present item answers =>
    ⟨r.counters.present answers, r.log.present item (r.counters.offered answers)
      (r.counters.succeeds answers)⟩
  | .join k => ⟨r.counters.join k, r.log.join k⟩
  | .leave k => ⟨r.counters.leave k, r.log.leave k⟩
  | .reset => ⟨r.counters.reset, r.log.reset⟩

def system (κ ι : Type*) [DecidableEq κ] : System (Run κ ι) (Call κ ι) where
  enabled := enabled
  step := step

/-! ### The invariant -/

structure Delivered (r : Run κ ι) : Prop where
  completed : r.counters.completed = r.log.items.length
  /-- The number of a subscriber, and the run of items it has accepted. -/
  current : ∀ e ∈ r.counters.entries, e.2 = r.log.items.length ∨
    e.2 = r.log.items.length + 1 ∧ r.log.pending.isSome = true
  joined : ∀ e ∈ r.counters.entries, r.log.joined e.1 ≤ r.log.items.length
  run : ∀ e ∈ r.counters.entries,
    r.log.acceptedBy e.1 = (r.log.history.take e.2).drop (r.log.joined e.1)
  /-- Who joined is a subscriber, or has left with a run that ends where it left. -/
  known_run : ∀ k ∈ r.log.known, k ∈ r.counters.entries.map Prod.fst ∨ r.log.Left k
  keys_nodup : (r.counters.entries.map Prod.fst).Nodup
  keys_known : ∀ e ∈ r.counters.entries, e.1 ∈ r.log.known
  offers_known : ∀ o ∈ r.log.offers, o.key ∈ r.log.known
  distinct : r.log.history.Nodup
  presented : ∀ i ∈ r.log.history, i ∈ r.log.presented
  /-- After its acceptance an item is never offered again. -/
  once : r.log.offers.Pairwise fun a b => a.key = b.key → a.item = b.item → a.accepted = false

theorem delivered_empty : Delivered (⟨⟨0, []⟩, Log.empty⟩ : Run κ ι) where
  completed := rfl
  current := List.forall_mem_nil _
  joined := List.forall_mem_nil _
  run := List.forall_mem_nil _
  known_run := List.forall_mem_nil _
  keys_nodup := List.nodup_nil
  keys_known := List.forall_mem_nil _
  offers_known := List.forall_mem_nil _
  distinct := List.nodup_nil
  presented := List.forall_mem_nil _
  once := List.Pairwise.nil

/-! ### Presenting an item -/

/-- Nobody but the subscribers is offered anything. -/
theorem filterMap_offered_of_not_mem {c : Counters κ} {k : κ}
    (hk : k ∉ c.entries.map Prod.fst) (answers : κ → Bool) (item : ι) :
    ((c.offered answers).filterMap fun o =>
      if o.1 = k ∧ o.2 = true then some item else none) = [] := by
  rw [List.filterMap_eq_nil_iff]
  intro o ho
  obtain ⟨e, he, rfl⟩ := List.mem_map.mp ho
  rw [if_neg]
  rintro ⟨rfl, _⟩
  exact hk (List.mem_map.mpr ⟨e, List.mem_of_mem_filter he, rfl⟩)

/-- A subscriber is offered the item at most once in a round. -/
theorem filterMap_offered {completed : ℕ} {entries : List (κ × ℕ)}
    (hn : (entries.map Prod.fst).Nodup) {e : κ × ℕ} (he : e ∈ entries) (answers : κ → Bool)
    (item : ι) :
    (((⟨completed, entries⟩ : Counters κ).offered answers).filterMap fun o =>
      if o.1 = e.1 ∧ o.2 = true then some item else none) =
      if e.2 ≤ completed ∧ answers e.1 = true then [item] else [] := by
  induction entries with
  | nil => cases he
  | cons d entries ih =>
    rw [List.map_cons, List.nodup_cons] at hn
    rcases List.mem_cons.mp he with rfl | he
    · have hothers := filterMap_offered_of_not_mem (c := ⟨completed, entries⟩) hn.1 answers item
      rw [Counters.offered] at hothers ⊢
      by_cases hd : e.2 ≤ completed
      · simp only [List.filter_cons, hd, decide_true, if_true, List.map_cons, List.filterMap_cons,
          true_and, hothers]
        cases answers e.1 <;> rfl
      · simp only [List.filter_cons, hd, decide_false, Bool.false_eq_true, if_false, false_and,
          hothers]
    · have hne : d.1 ≠ e.1 := fun h => hn.1 (List.mem_map.mpr ⟨e, he, h.symm⟩)
      have hothers := ih hn.2 he
      rw [Counters.offered] at hothers ⊢
      by_cases hd : d.2 ≤ completed
      · simp only [List.filter_cons, hd, decide_true, if_true, List.map_cons, List.filterMap_cons,
          hne, false_and, if_false, hothers]
      · simp only [List.filter_cons, hd, decide_false, Bool.false_eq_true, if_false, hothers]

/-- An item that may be presented is not a completed one. -/
theorem Delivered.not_mem_items {r : Run κ ι} (hr : Delivered r) {item : ι}
    (h : r.log.MayPresent item) : item ∉ r.log.items := by
  have hdistinct := hr.distinct
  rcases Log.history_of_mayPresent h with ⟨_, hh⟩ | ⟨_, hh, hnew⟩
  · rw [hh, List.nodup_append] at hdistinct
    intro hmem
    exact hdistinct.2.2 item hmem item List.mem_cons_self rfl
  · intro hmem
    exact hnew (hr.presented item (hh ▸ hmem))

omit [DecidableEq κ] in
/-- The history, once the item is presented, begins with what it was before. -/
theorem history_prefix {l : Log κ ι} {item : ι} (h : l.MayPresent item) :
    l.history <+: l.items ++ [item] := by
  rcases Log.history_of_mayPresent h with ⟨_, hh⟩ | ⟨_, hh, _⟩
  · exact hh ▸ List.prefix_rfl
  · exact hh ▸ List.prefix_append _ _

theorem take_of_prefix {xs ys : List ι} (h : xs <+: ys) {n : ℕ} (hn : n ≤ xs.length) :
    ys.take n = xs.take n := by
  obtain ⟨zs, rfl⟩ := h
  exact List.take_append_of_le_length hn

/-- What a subscriber has accepted after the round. -/
theorem Delivered.run_present {r : Run κ ι} (hr : Delivered r) {item : ι}
    (h : r.log.MayPresent item) (answers : κ → Bool) {e : κ × ℕ} (he : e ∈ r.counters.entries) :
    (r.log.present item (r.counters.offered answers) (r.counters.succeeds answers)).acceptedBy e.1 =
      ((r.log.items ++ [item]).take (Counters.advance r.counters.completed answers e).2).drop
        (r.log.joined e.1) := by
  have hjoined := hr.joined e he
  rw [Log.acceptedBy_present, filterMap_offered hr.keys_nodup he, hr.run e he,
    Counters.advance, hr.completed]
  rcases hr.current e he with hn | ⟨hn, hpending⟩
  · -- the item is due
    have htake : r.log.history.take e.2 = r.log.items := by
      rw [hn, Log.history, List.take_left]
    rw [htake]
    cases answers e.1 with
    | true =>
      rw [if_pos ⟨hn.le, rfl⟩, if_pos ⟨hn.le, rfl⟩, List.take_of_length_le (by simp [hn]),
        List.drop_append_of_le_length hjoined]
    | false =>
      rw [if_neg (fun h => Bool.false_ne_true h.2), if_neg (fun h => Bool.false_ne_true h.2), hn,
        List.take_left, List.append_nil]
  · -- it has been accepted before
    rw [if_neg (by omega), if_neg (by omega), List.append_nil]
    rcases Log.history_of_mayPresent h with ⟨_, hh⟩ | ⟨hnone, _, _⟩
    · rw [hh]
    · rw [hnone] at hpending
      cases hpending

/-- A new offer does not repeat an acceptance. -/
theorem Delivered.not_accepted {r : Run κ ι} (hr : Delivered r) {item : ι}
    (h : r.log.MayPresent item) {e : κ × ℕ} (he : e ∈ r.counters.entries)
    (hdue : e.2 ≤ r.counters.completed) {o : Offer κ ι} (ho : o ∈ r.log.offers)
    (hkey : o.key = e.1) (hitem : o.item = item) : o.accepted = false := by
  rw [← Bool.not_eq_true]
  intro haccepted
  have hmem : item ∈ r.log.acceptedBy e.1 := by
    refine List.mem_filterMap.mpr ⟨o, ho, ?_⟩
    rw [if_pos ⟨hkey, haccepted⟩, hitem]
  rw [hr.completed] at hdue
  have hn : e.2 = r.log.items.length := by
    rcases hr.current e he with hn | ⟨hn, _⟩ <;> omega
  rw [hr.run e he, hn, Log.history, List.take_left] at hmem
  exact hr.not_mem_items h (List.mem_of_mem_drop hmem)

theorem Delivered.counters_current {r : Run κ ι} (hr : Delivered r) : r.counters.Current := by
  intro e he
  rw [hr.completed]
  rcases hr.current e he with hn | ⟨hn, _⟩
  · exact Or.inl hn
  · exact Or.inr hn

omit [DecidableEq κ] in
/-- The offers of a round go to different subscribers. -/
theorem offered_pairwise {c : Counters κ} (hn : (c.entries.map Prod.fst).Nodup)
    (answers : κ → Bool) : (c.offered answers).Pairwise fun a b => a.1 ≠ b.1 := by
  rw [Counters.offered, List.pairwise_map]
  exact (List.pairwise_map.mp hn).filter _

theorem history_step_present (r : Run κ ι) (item : ι) (answers : κ → Bool) :
    (step r (.present item answers)).log.history = r.log.items ++ [item] :=
  r.log.history_present item _ _

/-- A completed item is one more; otherwise the item is pending. -/
theorem completed_or_pending (r : Run κ ι) (item : ι) (answers : κ → Bool) :
    r.counters.succeeds answers = true ∧
        (r.counters.present answers).completed = r.counters.completed + 1 ∧
        (step r (.present item answers)).log.items = r.log.items ++ [item] ∨
      r.counters.succeeds answers = false ∧
        (r.counters.present answers).completed = r.counters.completed ∧
        (step r (.present item answers)).log.items = r.log.items ∧
        (step r (.present item answers)).log.pending = some item := by
  rw [step, Counters.present, Log.present]
  cases hs : r.counters.succeeds answers with
  | true => exact Or.inl ⟨rfl, rfl, rfl⟩
  | false => exact Or.inr ⟨rfl, rfl, rfl, rfl⟩

/-- The numbers after the round. -/
theorem Delivered.current_present {r : Run κ ι} (hr : Delivered r) (item : ι)
    (answers : κ → Bool) {e : κ × ℕ} (he : e ∈ (r.counters.present answers).entries) :
    e.2 = (step r (.present item answers)).log.items.length ∨
      e.2 = (step r (.present item answers)).log.items.length + 1 ∧
        (step r (.present item answers)).log.pending.isSome = true := by
  rcases completed_or_pending r item answers with
    ⟨hs, _, hitems⟩ | ⟨_, hcompleted, hitems, hpending⟩
  · left
    obtain ⟨d, hd, rfl⟩ := List.mem_map.mp he
    rw [Counters.advance_of_succeeds hr.counters_current hs hd, hr.completed, hitems,
      List.length_append, List.length_singleton]
  · have hcurrent := Counters.current_present hr.counters_current answers e he
    rw [hcompleted, hr.completed, ← hitems] at hcurrent
    rw [hpending]
    exact hcurrent.imp_right fun hn => ⟨hn, rfl⟩

/-- Who left before the round keeps the run it had. -/
theorem Delivered.left_present {r : Run κ ι} {item : ι} (h : r.log.MayPresent item)
    (answers : κ → Bool) {k : κ} (hentry : k ∉ r.counters.entries.map Prod.fst)
    (hleft : r.log.Left k) : (step r (.present item answers)).log.Left k := by
  obtain ⟨m, n, hm, hnm, hn, hrun⟩ := hleft
  have hprefix := history_prefix h
  refine ⟨m, n, hm, hnm, ?_, ?_⟩
  · rw [history_step_present]
    exact le_trans hn hprefix.length_le
  · rw [history_step_present, take_of_prefix hprefix hn]
    show (r.log.present item _ _).acceptedBy k = _
    rw [Log.acceptedBy_present, filterMap_offered_of_not_mem hentry, List.append_nil]
    exact hrun

/-- The offers of the round repeat no acceptance. -/
theorem Delivered.once_present {r : Run κ ι} (hr : Delivered r) {item : ι}
    (h : r.log.MayPresent item) (answers : κ → Bool) :
    (step r (.present item answers)).log.offers.Pairwise
      fun a b => a.key = b.key → a.item = b.item → a.accepted = false := by
  refine List.pairwise_append.mpr ⟨hr.once, ?_, ?_⟩
  · rw [List.pairwise_map]
    exact (offered_pairwise hr.keys_nodup answers).imp fun hne hkey => absurd hkey hne
  · intro o ho b hb hkey hitem
    obtain ⟨a, ha, rfl⟩ := List.mem_map.mp hb
    obtain ⟨e, he, rfl⟩ := List.mem_map.mp ha
    have hdue : e.2 ≤ r.counters.completed := by simpa using (List.mem_filter.mp he).2
    exact hr.not_accepted h (List.mem_of_mem_filter he) hdue ho hkey hitem

/-- **Presenting an item keeps the invariant.** -/
theorem delivered_present {r : Run κ ι} (hr : Delivered r) {item : ι}
    (h : r.log.MayPresent item) (answers : κ → Bool) :
    Delivered (step r (.present item answers)) := by
  have hkeys := Counters.present_keys r.counters answers
  have hmem : ∀ e' ∈ (step r (.present item answers)).counters.entries,
      ∃ e ∈ r.counters.entries, Counters.advance r.counters.completed answers e = e' :=
    fun e' he' => List.mem_map.mp he'
  refine
    { completed := ?_, current := fun _ he => hr.current_present item answers he, joined := ?_,
      run := ?_, known_run := ?_, keys_nodup := ?_, keys_known := ?_, offers_known := ?_,
      distinct := ?_, presented := ?_, once := hr.once_present h answers }
  · show (r.counters.present answers).completed = _
    rcases completed_or_pending r item answers with
      ⟨_, hcompleted, hitems⟩ | ⟨_, hcompleted, hitems, _⟩
    · rw [hcompleted, hitems, hr.completed, List.length_append, List.length_singleton]
    · rw [hcompleted, hitems, hr.completed]
  · intro e' he'
    obtain ⟨e, he, rfl⟩ := hmem e' he'
    rw [Counters.advance_fst]
    refine le_trans (hr.joined e he) ?_
    rcases completed_or_pending r item answers with ⟨_, _, hitems⟩ | ⟨_, _, hitems, _⟩
    · rw [hitems, List.length_append]
      exact Nat.le_add_right _ _
    · rw [hitems]
  · intro e' he'
    obtain ⟨e, he, rfl⟩ := hmem e' he'
    rw [history_step_present, Counters.advance_fst]
    exact hr.run_present h answers he
  · intro k hk
    show k ∈ (r.counters.present answers).entries.map Prod.fst ∨ _
    rw [hkeys]
    by_cases hentry : k ∈ r.counters.entries.map Prod.fst
    · exact Or.inl hentry
    · exact Or.inr (Delivered.left_present h answers hentry
        ((hr.known_run k hk).resolve_left hentry))
  · show ((r.counters.present answers).entries.map Prod.fst).Nodup
    rw [hkeys]
    exact hr.keys_nodup
  · intro e' he'
    obtain ⟨e, he, rfl⟩ := hmem e' he'
    rw [Counters.advance_fst]
    exact hr.keys_known e he
  · intro o ho
    rcases List.mem_append.mp ho with ho | ho
    · exact hr.offers_known o ho
    · obtain ⟨a, ha, rfl⟩ := List.mem_map.mp ho
      obtain ⟨e, he, rfl⟩ := List.mem_map.mp ha
      exact hr.keys_known e (List.mem_of_mem_filter he)
  · rw [history_step_present, ← List.concat_eq_append]
    exact List.Nodup.concat (hr.not_mem_items h) (hr.distinct.sublist (List.sublist_append_left _ _))
  · rw [history_step_present]
    intro i hi
    rcases List.mem_append.mp hi with hi | hi
    · exact List.mem_cons_of_mem item (hr.presented i (List.mem_append_left _ hi))
    · rw [List.mem_singleton.mp hi]
      exact List.mem_cons_self

/-! ### Joining, leaving, and a new epoch -/

theorem acceptedBy_eq_nil {l : Log κ ι} {k : κ} (hk : ∀ o ∈ l.offers, o.key ≠ k) :
    l.acceptedBy k = [] := by
  rw [Log.acceptedBy, List.filterMap_eq_nil_iff]
  intro o ho
  rw [if_neg fun h => hk o ho h.1]

theorem delivered_join {r : Run κ ι} (hr : Delivered r) {k : κ} (hk : k ∉ r.log.known) :
    Delivered (step r (.join k)) := by
  have hnone : r.log.acceptedBy k = [] :=
    acceptedBy_eq_nil fun o ho h => hk (h ▸ hr.offers_known o ho)
  have hkey : ∀ e ∈ r.counters.entries, e.1 ≠ k := fun e he h => hk (h ▸ hr.keys_known e he)
  have hjoined : ∀ k', k' ≠ k → (step r (.join k)).log.joined k' = r.log.joined k' :=
    fun k' h => if_neg h
  have hjoined' : (step r (.join k)).log.joined k = r.log.items.length := if_pos rfl
  have hmem : ∀ e ∈ (step r (.join k)).counters.entries, e ∈ r.counters.entries ∨
      e = (k, r.counters.completed) := by
    intro e he
    rcases List.mem_append.mp he with he | he
    · exact Or.inl he
    · exact Or.inr (List.mem_singleton.mp he)
  refine
    { completed := hr.completed, current := ?_, joined := ?_, run := ?_, known_run := ?_,
      keys_nodup := ?_, keys_known := ?_, offers_known := ?_, distinct := hr.distinct,
      presented := hr.presented, once := hr.once }
  · intro e he
    rcases hmem e he with he | rfl
    · exact hr.current e he
    · exact Or.inl hr.completed
  · intro e he
    rcases hmem e he with he | rfl
    · rw [hjoined e.1 (hkey e he)]
      exact hr.joined e he
    · exact hjoined'.le
  · intro e he
    rcases hmem e he with he | rfl
    · rw [hjoined e.1 (hkey e he)]
      exact hr.run e he
    · show r.log.acceptedBy k = _
      rw [hnone, hjoined', hr.completed]
      exact (List.drop_eq_nil_of_le (List.length_take_le _ _)).symm
  · intro k' hk'
    show k' ∈ (r.counters.entries ++ [(k, r.counters.completed)]).map Prod.fst ∨ _
    rw [List.map_append, List.mem_append]
    rcases List.mem_cons.mp hk' with rfl | hk'
    · exact Or.inl (Or.inr List.mem_cons_self)
    · refine (hr.known_run k' hk').imp Or.inl ?_
      rintro ⟨m, n, hm, hnm, hn, hrun⟩
      refine ⟨m, n, hm, hnm, hn, ?_⟩
      rw [hjoined k' fun h => hk (h ▸ hk')]
      exact hrun
  · show ((r.counters.entries ++ [(k, r.counters.completed)]).map Prod.fst).Nodup
    rw [List.map_append, List.map_singleton, ← List.concat_eq_append]
    refine List.Nodup.concat (fun h => ?_) hr.keys_nodup
    obtain ⟨e, he, h⟩ := List.mem_map.mp h
    exact hkey e he h
  · intro e he
    rcases hmem e he with he | rfl
    · exact List.mem_cons_of_mem k (hr.keys_known e he)
    · exact List.mem_cons_self
  · intro o ho
    exact List.mem_cons_of_mem k (hr.offers_known o ho)

/-- The number of a subscriber is at most the number of items there have been. -/
theorem Delivered.entry_le {r : Run κ ι} (hr : Delivered r) {e : κ × ℕ}
    (he : e ∈ r.counters.entries) : e.2 ≤ r.log.history.length := by
  rw [Log.history, List.length_append]
  rcases hr.current e he with hn | ⟨hn, hpending⟩
  · omega
  · rw [Option.length_toList, hpending]
    exact hn.le

theorem delivered_leave {r : Run κ ι} (hr : Delivered r) {k : κ}
    (hk : k ∈ r.counters.entries.map Prod.fst) : Delivered (step r (.leave k)) where
  completed := hr.completed
  current := fun e he => hr.current e (List.mem_of_mem_filter he)
  joined := fun e he => hr.joined e (List.mem_of_mem_filter he)
  run := fun e he => hr.run e (List.mem_of_mem_filter he)
  known_run := fun k' hk' => by
    by_cases hkk : k' = k
    · right
      obtain ⟨e, he, rfl⟩ := List.mem_map.mp hk
      subst hkk
      exact ⟨r.log.items.length, e.2, if_pos rfl, (hr.current e he).imp_right And.left,
        hr.entry_le he, hr.run e he⟩
    · refine (hr.known_run k' hk').imp (fun hentry => ?_) ?_
      · obtain ⟨e, he, rfl⟩ := List.mem_map.mp hentry
        exact List.mem_map.mpr ⟨e, List.mem_filter.mpr ⟨he, bne_iff_ne.mpr hkk⟩, rfl⟩
      · rintro ⟨m, n, hm, hrun⟩
        exact ⟨m, n, (if_neg hkk).trans hm, hrun⟩
  keys_nodup := hr.keys_nodup.sublist (List.filter_sublist.map Prod.fst)
  keys_known := fun e he => hr.keys_known e (List.mem_of_mem_filter he)
  offers_known := hr.offers_known
  distinct := hr.distinct
  presented := hr.presented
  once := hr.once

theorem delivered_reset {r : Run κ ι} (hr : Delivered r) : Delivered (step r .reset) where
  completed := rfl
  current := fun e' he' => by
    obtain ⟨e, _, rfl⟩ := List.mem_map.mp he'
    exact Or.inl rfl
  joined := fun _ _ => le_rfl
  run := fun e' he' => by
    obtain ⟨e, _, rfl⟩ := List.mem_map.mp he'
    rfl
  known_run := fun k hk => by
    refine (hr.known_run k hk).imp (fun hentry => ?_) ?_
    · obtain ⟨e, he, rfl⟩ := List.mem_map.mp hentry
      exact List.mem_map.mpr ⟨(e.1, 0), List.mem_map.mpr ⟨e, he, rfl⟩, rfl⟩
    · rintro ⟨m, _, hm, _⟩
      refine ⟨0, 0, ?_, Or.inl rfl, le_rfl, rfl⟩
      show (r.log.left k).map _ = _
      rw [hm]
      rfl
  keys_nodup := by
    show ((r.counters.entries.map fun e => (e.1, 0)).map Prod.fst).Nodup
    rw [List.map_map]
    exact hr.keys_nodup
  keys_known := fun e' he' => by
    obtain ⟨e, he, rfl⟩ := List.mem_map.mp he'
    exact hr.keys_known e he
  offers_known := List.forall_mem_nil _
  distinct := List.nodup_nil
  presented := List.forall_mem_nil _
  once := List.Pairwise.nil

/-! ### Runs -/

/-- **The step lemma.** -/
theorem delivered_step {r : Run κ ι} {call : Call κ ι} (hr : Delivered r)
    (hcall : enabled r call) : Delivered (step r call) := by
  cases call with
  | present item answers => exact delivered_present hr hcall answers
  | join k => exact delivered_join hr hcall
  | leave k => exact delivered_leave hr hcall
  | reset => exact delivered_reset hr

/-- **Exactly once, in order**: the invariant holds after any run. -/
theorem delivered_exec {r : Run κ ι} (hr : Delivered r) (calls : List (Call κ ι))
    (hcalls : (system κ ι).Admits r calls) : Delivered ((system κ ι).exec r calls) :=
  (system κ ι).exec_invariant Delivered (fun _ _ => delivered_step) calls r hr hcalls

/-- Nobody accepts an item twice. -/
theorem Delivered.accepted_nodup {r : Run κ ι} (hr : Delivered r) {k : κ}
    (hk : k ∈ r.log.known) : (r.log.acceptedBy k).Nodup := by
  have hrun : ∃ n, r.log.acceptedBy k = (r.log.history.take n).drop (r.log.joined k) := by
    rcases hr.known_run k hk with hentry | ⟨_, n, _, _, _, hrun⟩
    · obtain ⟨e, he, rfl⟩ := List.mem_map.mp hentry
      exact ⟨e.2, hr.run e he⟩
    · exact ⟨n, hrun⟩
  obtain ⟨n, hrun⟩ := hrun
  rw [hrun]
  exact hr.distinct.sublist ((List.drop_sublist _ _).trans (List.take_sublist _ _))

end SequencedBroadcast
