import SlimStreamer.Proto.RequestOctets

/-!
# What becomes of the octets received

Every octet a player sends is pushed into the command ring, and leaves it as part of a message, or
skipped as the first one of an unsupported label, or discarded by an exception.  The ring holds 2048
octets, and a push into a full ring drops the oldest one.  No message of more octets than the ring
is refused, and of octets with no handler a call skips only one, so the ring may fill up.

* `requestEntries`, `Ledger` — what the calls do with the octets;
* `requestLoop_entries` — the loop accounts for all that is in the ring;
* `accounted_iff` — the runs in which all octets received are accounted for;
* `not_accounted_longMessage` — a message that is too long.
-/

namespace SlimStreamer

open GuardedExecution

namespace CommandSession

/-- What became of some octets. -/
inductive LedgerEntry where
  /-- They were dispatched as a message. -/
  | message (octets : List UInt8)
  /-- The first octet of an unsupported label was skipped. -/
  | skipped (octet : UInt8)
  /-- An exception removed them. -/
  | discarded (octets : List UInt8)
  deriving DecidableEq, Repr

def LedgerEntry.octets : LedgerEntry → List UInt8
  | message octets => octets
  | skipped octet => [octet]
  | discarded octets => octets

/-- What the turns of a call do with the octets in the ring, for at most the given number of
turns. -/
def requestEntries (timestamp : Timestamp) :
    ℕ → (ℕ → Context) → CommandSession → List LedgerEntry
  | 0, _, _ => []
  | fuel + 1, contexts, s =>
    match s.requestTurn (contexts 0) timestamp with
    | .idle s' =>
      if s'.commandRingBuffer.size < s.commandRingBuffer.size then
        [.skipped (s.commandRingBuffer.get 0)]
      else []
    | .failed (.exception _) s' => [.discarded s'.commandRingBuffer.contents]
    | .failed .divisionByZero _ => []
    | .processed command s' =>
      .message (s.commandRingBuffer.contents.take (InboundCommand.getSize command)) ::
        requestEntries timestamp fuel (fun n => contexts (n + 1)) s'

def onRequestEntries (receipt : Receipt) (s : CommandSession) : List LedgerEntry :=
  let s := { s with commandRingBuffer := s.commandRingBuffer.pushAll receipt.buffer }
  requestEntries receipt.timestamp (s.commandRingBuffer.getSize + 1) receipt.contexts s

end CommandSession

open CommandSession

/-- A session, all the octets it has received, and what became of them. -/
structure Ledger where
  session : CommandSession
  received : List UInt8
  entries : List LedgerEntry

namespace Ledger

def step (l : Ledger) : RequestEvent → Ledger
  | .request receipt =>
    { session := (l.session.onRequest receipt).session
      received := l.received ++ receipt.buffer
      entries := l.entries ++ onRequestEntries receipt l.session }
  | .other c => { l with session := l.session.call c }

def system : System Ledger RequestEvent where
  enabled l := requestSystem.enabled l.session
  step := step

/-- A session that has received nothing. -/
def opened (address : ℕ) (clientID : List UInt8) (streamingPort : ℕ)
    (formatSelection : FormatSelection) (gain : Option ℕ) (now : Timestamp) (context : Context) :
    Ledger where
  session := (create address clientID streamingPort formatSelection gain now).start context
  received := []
  entries := []

/-- **Every octet received is accounted for**, in order, or still in the ring. -/
def Accounted (l : Ledger) : Prop :=
  l.entries.flatMap LedgerEntry.octets ++ l.session.commandRingBuffer.contents = l.received

/-- The octets that arrive have room behind those left from earlier calls. -/
def Fits (l : Ledger) : RequestEvent → Prop
  | .request receipt => l.session.commandRingBuffer.size + receipt.buffer.length ≤ 2048
  | .other _ => True

instance (l : Ledger) : DecidablePred (Fits l)
  | .request receipt =>
    inferInstanceAs (Decidable (l.session.commandRingBuffer.size + receipt.buffer.length ≤ 2048))
  | .other _ => isTrue trivial

/-! ### The entries of a call -/

/-- Only the ring of the session matters here, and whether there was an exception. -/
theorem onException_session (result : RequestResult) (handled : List ClientCommand) :
    (onException { result with handled := handled }).session = (onException result).session := by
  obtain ⟨session, handled', failure⟩ := result
  cases failure with
  | none => rfl
  | some failure => cases failure <;> rfl

/-- The octet that leaves the ring is its first. -/
theorem pop_front {ring : Ring UInt8} (h : 4 ≤ ring.size) :
    ring.pop.size < ring.size ∧ ring.get 0 :: ring.pop.contents = ring.contents := by
  have hsize : ring.pop.size = ring.size - 1 := by
    rw [← Ring.contents_length, Ring.contents_pop, List.length_tail, Ring.contents_length]
  have hzero : 0 < ring.contents.length := by
    rw [Ring.contents_length]
    omega
  refine ⟨by omega, ?_⟩
  rw [Ring.contents_pop, ← Ring.contents_getElem ring hzero, ← List.drop_one]
  exact List.getElem_cons_drop hzero

/-- **The loop accounts for all that is in the ring.** -/
theorem requestLoop_entries (timestamp : Timestamp) (fuel : ℕ) :
    ∀ (contexts : ℕ → Context) (s : CommandSession),
      (requestEntries timestamp fuel contexts s).flatMap LedgerEntry.octets ++
          (onException (requestLoop timestamp fuel contexts s)).session.commandRingBuffer.contents =
        s.commandRingBuffer.contents ∧
      (onException (requestLoop timestamp fuel contexts s)).session.commandRingBuffer.getCapacity =
        s.commandRingBuffer.getCapacity := by
  induction fuel with
  | zero => intro contexts s; exact ⟨rfl, rfl⟩
  | succ fuel ih =>
    intro contexts s
    rw [requestLoop, requestEntries]
    cases hfront : front s.commandRingBuffer.contents with
    | waiting =>
      rw [requestTurn_waiting _ _ hfront]
      simp [onException]
    | unsupported =>
      rw [requestTurn_unsupported _ _ hfront]
      obtain ⟨hfour, -⟩ := front_eq_unsupported hfront
      have hfour' : 4 ≤ s.commandRingBuffer.size := by simpa using hfour
      obtain ⟨hsize, hhead⟩ := pop_front hfour'
      simp only [hsize, if_true]
      exact ⟨hhead, Ring.storage_length_pop _⟩
    | tooShort =>
      obtain ⟨e, s', hturn, hring⟩ := requestTurn_tooShort (contexts 0) timestamp hfront
      rw [hturn]
      simp [onException, LedgerEntry.octets, hring, Ring.getCapacity]
    | message command =>
      obtain ⟨s', hring, hturn⟩ := requestTurn_message (contexts 0) timestamp hfront
      rw [hturn]
      cases hdivides : dividesByZero command with
      | true => simp [onException]
      | false =>
        obtain ⟨hentries, hcapacity⟩ := ih (fun n => contexts (n + 1)) s'
        simp only [Bool.false_eq_true, if_false]
        rw [onException_session, List.flatMap_cons, List.append_assoc, hentries, hcapacity, hring,
          Ring.contents_popN]
        refine ⟨List.take_append_drop _ _, ?_⟩
        exact Ring.storage_length_popN _ _

/-- The octets of a call and those left from earlier ones are accounted for, if they fit. -/
theorem onRequest_entries (receipt : Receipt) (s : CommandSession) :
    (onRequestEntries receipt s).flatMap LedgerEntry.octets ++
        (s.onRequest receipt).session.commandRingBuffer.contents =
      (s.commandRingBuffer.pushAll receipt.buffer).contents ∧
    (s.onRequest receipt).session.commandRingBuffer.getCapacity =
      s.commandRingBuffer.getCapacity := by
  obtain ⟨hentries, hcapacity⟩ := requestLoop_entries receipt.timestamp
    ((s.commandRingBuffer.pushAll receipt.buffer).getSize + 1) receipt.contexts
    { s with commandRingBuffer := s.commandRingBuffer.pushAll receipt.buffer }
  exact ⟨hentries, hcapacity.trans (Ring.storage_length_pushAll _ _)⟩

/-! ### Runs -/

/-- The invariant of the runs whose octets fit. -/
structure Balanced (l : Ledger) : Prop where
  accounted : Accounted l
  capacity : l.session.commandRingBuffer.getCapacity = 2048

variable {l : Ledger}

theorem step_balanced (hl : Balanced l) {event : RequestEvent} (he : system.enabled l event)
    (hfits : Fits l event) : Balanced (l.step event) := by
  cases event with
  | request receipt =>
    obtain ⟨hentries, hcapacity⟩ := onRequest_entries receipt l.session
    have haccounted : l.entries.flatMap LedgerEntry.octets ++
        l.session.commandRingBuffer.contents = l.received := hl.accounted
    have hroom : l.session.commandRingBuffer.size + receipt.buffer.length ≤
        l.session.commandRingBuffer.getCapacity := by
      rw [hl.capacity]
      exact hfits
    refine ⟨?_, hcapacity.trans hl.capacity⟩
    show (l.entries ++ onRequestEntries receipt l.session).flatMap LedgerEntry.octets ++
      (l.session.onRequest receipt).session.commandRingBuffer.contents =
        l.received ++ receipt.buffer
    rw [List.flatMap_append, List.append_assoc, hentries, Ring.contents_pushAll _ _ hroom,
      ← haccounted, List.append_assoc]
  | other c =>
    have hring : (l.session.call c).commandRingBuffer = l.session.commandRingBuffer :=
      call_ring he l.session
    refine ⟨?_, ?_⟩
    · show _ ++ (l.session.call c).commandRingBuffer.contents = l.received
      rw [hring]
      exact hl.accounted
    · show (l.session.call c).commandRingBuffer.getCapacity = 2048
      rw [hring]
      exact hl.capacity

/-- A full ring drops octets, which are then not accounted for. -/
theorem step_not_accounted (hl : Balanced l) {event : RequestEvent} (hfits : ¬ Fits l event) :
    ¬ Accounted (l.step event) := by
  cases event with
  | request receipt =>
    have hover : 2048 < l.session.commandRingBuffer.size + receipt.buffer.length :=
      not_le.mp hfits
    obtain ⟨hentries, -⟩ := onRequest_entries receipt l.session
    have hbefore := congrArg List.length hl.accounted
    have hring : (l.session.commandRingBuffer.pushAll receipt.buffer).contents.length ≤ 2048 := by
      have hbound := (l.session.commandRingBuffer.pushAll receipt.buffer).size_bound
      have hcapacity := hl.capacity
      rw [Ring.getCapacity] at hcapacity
      rw [Ring.storage_length_pushAll, hcapacity] at hbound
      rwa [Ring.contents_length]
    intro haccounted
    have hafter : (l.entries ++ onRequestEntries receipt l.session).flatMap LedgerEntry.octets ++
        (l.session.onRequest receipt).session.commandRingBuffer.contents =
          l.received ++ receipt.buffer := haccounted
    rw [List.flatMap_append, List.append_assoc, hentries] at hafter
    have hlength := congrArg List.length hafter
    simp only [List.length_append, Ring.contents_length] at hlength hbefore hring
    omega
  | other c => exact absurd trivial hfits

theorem opened_balanced (address : ℕ) (clientID : List UInt8) (streamingPort : ℕ)
    (formatSelection : FormatSelection) (gain : Option ℕ) (now : Timestamp) (context : Context) :
    Balanced (opened address clientID streamingPort formatSelection gain now context) := by
  have hring : (opened address clientID streamingPort formatSelection gain now
      context).session.commandRingBuffer = Ring.ofStorage (List.replicate 2048 0) := by
    show (CommandSession.start context _).commandRingBuffer = _
    rw [CommandSession.start, processEvent_start]
    split <;> rfl
  refine ⟨?_, ?_⟩
  · rw [Accounted, hring, Ring.contents_ofStorage]
    rfl
  · rw [hring]
    exact List.length_replicate

/-- **All octets received are accounted for**, at every point of a run, if and only if the octets
of each call have room in the ring behind those left from the calls before. -/
theorem accounted_iff (address : ℕ) (clientID : List UInt8) (streamingPort : ℕ)
    (formatSelection : FormatSelection) (gain : Option ℕ) (now : Timestamp) (context : Context)
    (events : List RequestEvent)
    (hevents : system.Admits
      (opened address clientID streamingPort formatSelection gain now context) events) :
    system.Always Accounted
        (opened address clientID streamingPort formatSelection gain now context) events ↔
      (system.restrict Fits).Admits
        (opened address clientID streamingPort formatSelection gain now context) events :=
  system.always_iff_admits_restrict Balanced Accounted Fits (fun _ hl => hl.accounted)
    (fun _ _ hl he hfits => step_balanced hl he hfits)
    (fun _ _ hl _ hfits => step_not_accounted hl hfits) events _
    (opened_balanced address clientID streamingPort formatSelection gain now context) hevents

/-! ### A message that is too long -/

/-- What a handler reads at the epoch. -/
def idleContext : Context := ⟨⟨44100, false, ⟨0⟩⟩, fun _ => ⟨0⟩, ProbeSort.merge⟩

/-- A call with these octets. -/
def segment (octets : List UInt8) : Receipt := ⟨octets, ⟨0⟩, fun _ => idleContext⟩

def newLedger : Ledger := opened 0 [49] 9001 .FLAC none ⟨0⟩ idleContext

/-- A `DSCO` whose label comes in one segment, and the rest of it in the next. -/
def splitMessage : List RequestEvent :=
  [.request (segment CommandLabel.DSCO.LABEL),
    .request (segment (Octets.toBigEndian 4 1 ++ [4]))]

theorem accounted_iff_splitMessage :
    system.Always Accounted newLedger splitMessage ∧
      (system.exec newLedger splitMessage).entries =
        [.message (CommandLabel.DSCO.LABEL ++ Octets.toBigEndian 4 1 ++ [4])] := by
  refine ⟨?_, by decide +kernel⟩
  refine (accounted_iff 0 [49] 9001 .FLAC none ⟨0⟩ idleContext splitMessage
    ⟨trivial, trivial, trivial⟩).mpr ?_
  exact ⟨⟨trivial, by decide +kernel⟩, ⟨trivial, by decide +kernel⟩, trivial⟩

/-- The beginning of a message stays in the ring. -/
theorem step_waiting (hl : Balanced l) {before : List UInt8} (octets : List UInt8)
    (hring : l.session.commandRingBuffer.contents = before)
    (hfits : before.length + octets.length ≤ 2048) (hwaiting : front (before ++ octets) = .waiting) :
    Balanced (l.step (.request (segment octets))) ∧
      (l.step (.request (segment octets))).session.commandRingBuffer.contents =
        before ++ octets := by
  have hsize : l.session.commandRingBuffer.size = before.length := by
    rw [← hring, Ring.contents_length]
  have hroom : Fits l (.request (segment octets)) := by
    show l.session.commandRingBuffer.size + octets.length ≤ 2048
    omega
  obtain ⟨hentries, -⟩ := onRequest_entries (segment octets) l.session
  have hpushed : (l.session.commandRingBuffer.pushAll octets).contents = before ++ octets := by
    have hcapacity := hl.capacity
    rw [Ring.getCapacity] at hcapacity
    rw [← hring]
    exact Ring.contents_pushAll octets l.session.commandRingBuffer (by omega)
  have hnone : onRequestEntries (segment octets) l.session = [] := by
    rw [onRequestEntries, requestEntries, requestTurn_waiting]
    · simp
    · rw [← hwaiting, ← hpushed]
      rfl
  rw [hnone] at hentries
  exact ⟨step_balanced hl trivial hroom, hentries.trans hpushed⟩

/-- The header of a `DSCO` that announces five thousand octets. -/
def longHeader : List UInt8 := CommandLabel.DSCO.LABEL ++ Octets.toBigEndian 4 5000

theorem longHeader_waiting {octets : List UInt8} (h : octets.length ≤ 2040) :
    front (longHeader ++ octets) = .waiting := by
  have hannounced : announced (longHeader ++ octets) = 5000 := by
    rw [announced_append (by decide)]
    decide
  have hfind : CommandLabel.find ((longHeader ++ octets).take 4) = some .DSCO := rfl
  have hlength : (longHeader ++ octets).length < 8 + announced (longHeader ++ octets) := by
    have hheader : longHeader.length = 8 := by decide
    rw [hannounced, List.length_append, hheader]
    omega
  rw [front, hfind]
  split
  · rfl
  · simp only [hlength, or_true, if_true]

/-- Once the first octet is gone, there is no label. -/
theorem longHeader_tail_unsupported (octets : List UInt8) :
    front (longHeader.tail ++ octets) = .unsupported := by
  have hfind : CommandLabel.find ((longHeader.tail ++ octets).take 4) = none := rfl
  rw [front, if_neg, hfind]
  have htail : longHeader.tail.length = 7 := by decide
  rw [List.length_append, htail]
  omega

/-- The first two segments of such a message. -/
def filling (a b : List UInt8) : List RequestEvent :=
  [.request (segment (longHeader ++ a)), .request (segment b)]

theorem filling_contents {a b : List UInt8} (hlength : a.length + b.length = 2040) :
    Balanced (system.exec newLedger (filling a b)) ∧
      (system.exec newLedger (filling a b)).session.commandRingBuffer.contents =
        longHeader ++ (a ++ b) := by
  have hheader : longHeader.length = 8 := by decide
  have hnew : Balanced newLedger := opened_balanced 0 [49] 9001 .FLAC none ⟨0⟩ idleContext
  have hempty : newLedger.session.commandRingBuffer.contents = [] := rfl
  obtain ⟨hfirst, hone⟩ := step_waiting hnew (longHeader ++ a) hempty
    (by rw [List.length_nil, List.length_append]; omega) (longHeader_waiting (by omega))
  obtain ⟨hsecond, htwo⟩ := step_waiting hfirst b hone
    (by rw [List.nil_append, List.length_append]; omega)
    (by
      rw [List.nil_append, List.append_assoc]
      exact longHeader_waiting (by rw [List.length_append]; omega))
  refine ⟨hsecond, htwo.trans ?_⟩
  rw [List.nil_append, List.append_assoc]

/-- One more octet overwrites the first, and the call does not fail. -/
theorem filling_overwrites {a b : List UInt8} (hlength : a.length + b.length = 2040)
    (octet : UInt8) :
    ((system.exec newLedger (filling a b)).session.onRequest (segment [octet])).failure = none ∧
      ¬ Accounted ((system.exec newLedger (filling a b)).step (.request (segment [octet]))) := by
  obtain ⟨hbalanced, hcontents⟩ := filling_contents hlength
  generalize system.exec newLedger (filling a b) = l at hbalanced hcontents
  have hheader : longHeader.length = 8 := by decide
  have hsize : l.session.commandRingBuffer.size = 2048 := by
    rw [← Ring.contents_length, hcontents, List.length_append, List.length_append]
    omega
  have hcapacity := hbalanced.capacity
  rw [Ring.getCapacity] at hcapacity
  have hpushed : (l.session.commandRingBuffer.pushAll [octet]).contents =
      longHeader.tail ++ (a ++ b ++ [octet]) := by
    show (l.session.commandRingBuffer.push octet).contents = _
    rw [Ring.contents_push_of_full _ _ (by omega) (by omega), hcontents]
    rfl
  constructor
  · rw [onRequest, requestLoop, requestTurn_unsupported]
    · rfl
    · rw [← longHeader_tail_unsupported (a ++ b ++ [octet]), ← hpushed]
      rfl
  · refine step_not_accounted hbalanced ?_
    show ¬ l.session.commandRingBuffer.size + [octet].length ≤ 2048
    rw [hsize]
    exact Nat.not_succ_le_self 2048

/-- Two segments that fill the ring. -/
def longMessage : List RequestEvent := filling (List.replicate 1016 0) (List.replicate 1024 0)

/-- **The first octet of a message that is too long is overwritten**, and no call fails. -/
theorem not_accounted_longMessage :
    system.Admits newLedger (longMessage ++ [.request (segment [0])]) ∧
      ((system.exec newLedger longMessage).session.onRequest (segment [0])).failure = none ∧
      ¬ system.Always Accounted newLedger (longMessage ++ [.request (segment [0])]) := by
  have hlength : (List.replicate 1016 (0 : UInt8)).length +
      (List.replicate 1024 (0 : UInt8)).length = 2040 := by
    rw [List.length_replicate, List.length_replicate]
  obtain ⟨hfailure, hlost⟩ := filling_overwrites hlength 0
  refine ⟨⟨trivial, trivial, trivial, trivial⟩, hfailure, ?_⟩
  intro halways
  have hlast := halways _ List.prefix_rfl
  rw [system.exec_concat] at hlast
  exact hlost hlast

end Ledger

end SlimStreamer
