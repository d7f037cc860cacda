import SlimStreamer.Proto.PingChain

/-!
# Where the probes are accessed

The elements of the vector of the probes that the handlers access, by their indices and the size of
the vector at that time.  The index in an answer comes from the player, and is compared with the
capacity; the index of a posted ping is from the time it was posted at, and the vector may have been
cleared since.

* `accesses` — the accesses of a call;
* `SafeCall` — the answers that keep to the size, and end a round only with no ping posted;
* `accesses_inRange_iff` — the runs in which all accesses are in range;
* `access_outOfRange` — one that is not.
-/

namespace SlimStreamer

open GuardedExecution

/-- An access to an element of the vector, with the size of the vector at that time. -/
structure ProbeAccess where
  index : ℕ
  size : ℕ
  deriving DecidableEq, Repr

def ProbeAccess.InRange (a : ProbeAccess) : Prop := a.index < a.size

namespace CommandSession

open PingedSession

/-! ### The accesses of the handlers -/

/-- The elements the loop of `getAccurateDurationIndex` reads, from index `i` downwards. -/
def searchReads (p : Probes) : ℕ → List ℕ
  | i + 2 =>
    if (p.get (i + 1)).clientDuration ≠ 0 ∧ (p.get i).clientDuration ≠ 0 ∧
        (p.get (i + 1)).clientDuration ≠ (p.get i).clientDuration then [i + 1, i]
    else (i + 1) :: i :: searchReads p (i + 1)
  | _ => []

/-- What `getLatencyMeanProbe` reads. -/
def meanProbeReads (p : Probes) : List ℕ := List.range' 3 (p.capacity - 3)

/-- What `onSTMt` accesses once an answer is stored that was not interfered with. -/
def evaluationReads (s : CommandSession) : List ℕ :=
  (if s.probes.size = s.probes.capacity ∧ s.state = .playing then
    searchReads s.probes s.probes.capacity else []) ++
  (if s.CompletesRound then
    meanProbeReads s.probes ++
      -- the probe with the accurate duration
      (if 3 ≤ s.accurateDurationIndex.getD 0 then [s.accurateDurationIndex.getD 0] else [])
  else [])

def onSTMtAccesses (timestamp : Timestamp) (d : STAT) (s : CommandSession) : List ProbeAccess :=
  if d.serverTimestamp = 0 ∨ s.probes.capacity < d.serverTimestamp then []
  else
    let index := d.serverTimestamp - 1
    let s := s.recordAnswer timestamp d index
    (index :: if s.measuringLatency then s.evaluationReads else []).map
      fun i => ⟨i, s.probes.size⟩

/-- The accesses of a call. -/
def accesses (s : CommandSession) : SessionCall → List ProbeAccess
  | .message _ timestamp (.STAT d) =>
    if StatEvent.find d.event = some .STMt then s.onSTMtAccesses timestamp d else []
  -- the element pinged for was added before
  | .pingTimer _ => [⟨s.probes.size, s.probes.size + 1⟩]
  | .pingHandler _ => s.pingHandlers.head?.toList.map fun index => ⟨index, s.probes.size⟩
  | _ => []

theorem searchReads_lt (p : Probes) (n : ℕ) : ∀ i ∈ searchReads p n, i < n := by
  induction n with
  | zero => simp [searchReads]
  | succ n ih =>
    cases n with
    | zero => simp [searchReads]
    | succ n =>
      intro i hi
      rw [searchReads] at hi
      split at hi
      · simp at hi
        omega
      · simp only [List.mem_cons] at hi
        rcases hi with rfl | rfl | hi
        · omega
        · omega
        · have hlt := ih i hi
          omega

theorem accurateDurationFrom_lt {p : Probes} {n i : ℕ} (h : accurateDurationFrom p n = some i) :
    i < n := by
  induction n with
  | zero => simp [accurateDurationFrom] at h
  | succ n ih =>
    cases n with
    | zero => simp [accurateDurationFrom] at h
    | succ n =>
      rw [accurateDurationFrom] at h
      split at h
      · simp at h
        omega
      · have hlt := ih h
        omega

/-- The reads of an evaluation are in range: the vector is full. -/
theorem evaluationReads_lt (s : CommandSession) : ∀ i ∈ s.evaluationReads, i < s.probes.size := by
  intro i hi
  rw [evaluationReads, List.mem_append] at hi
  rcases hi with hi | hi
  · split at hi
    · rename_i hfull
      rw [hfull.1]
      exact searchReads_lt s.probes _ i hi
    · cases hi
  · split at hi
    · rename_i hround
      rw [hround.full]
      rcases List.mem_append.mp hi with hi | hi
      · rw [meanProbeReads, List.mem_range'_1] at hi
        omega
      · split at hi
        · rename_i hthree
          obtain rfl := List.mem_singleton.mp hi
          cases hindex : s.accurateDurationIndex with
          | none => simp [hindex] at hthree
          | some index =>
            rw [accurateDurationIndex] at hindex
            split at hindex
            · exact accurateDurationFrom_lt hindex
            · cases hindex
        · cases hi
    · cases hi

/-- **The accesses of a message** are in range if the index in it is. -/
theorem message_inRange_iff (s : CommandSession) (context : Context) (timestamp : Timestamp)
    (command : ClientCommand) :
    (∀ a ∈ s.accesses (.message context timestamp command), a.InRange) ↔
      ∀ index ∈ answeredIndex command, s.probes.capacity ≤ index ∨ index < s.probes.size := by
  cases command with
  | STAT d =>
    rw [accesses, answeredIndex]
    by_cases hevent : StatEvent.find d.event = some .STMt
    · by_cases hzero : d.serverTimestamp = 0
      · simp [hevent, hzero, onSTMtAccesses]
      · rw [if_pos hevent, if_pos ⟨hevent, hzero⟩, onSTMtAccesses]
        by_cases hguard : s.probes.capacity < d.serverTimestamp
        · rw [if_pos (Or.inr hguard)]
          simp
          omega
        · rw [if_neg (by omega)]
          simp only [List.forall_mem_map, List.forall_mem_cons, ProbeAccess.InRange, Option.mem_some_iff,
            forall_eq']
          constructor
          · intro h
            exact Or.inr h.1
          · intro h
            refine ⟨by show _ < s.probes.size; omega, ?_⟩
            intro i hi
            split at hi
            · exact evaluationReads_lt _ i hi
            · cases hi
    · simp [hevent]
  | _ => simp [accesses, answeredIndex]

/-! ### Safe calls -/

/-- The pings of the posted handlers are in range. -/
def PostedInRange (s : CommandSession) : Prop := ∀ index ∈ s.pingHandlers, index < s.probes.size

/-- An answer is ignored or for an element in use, and if it ends a round, no ping is posted. -/
def SafeCall (s : CommandSession) (c : SessionCall) : Prop :=
  (∀ index ∈ answeredBy c, s.probes.capacity ≤ index ∨ index < s.probes.size) ∧
    ∀ a ∈ accepted s c, a.1.CompletesRound → s.pingHandlers = []

/-- The accesses of a call are in range, and so are those of a ping handler that runs next. -/
def NextInRange (s : CommandSession) (c : SessionCall) : Prop :=
  (∀ a ∈ s.accesses c, a.InRange) ∧
    ∀ context, ∀ a ∈ (s.call c).accesses (.pingHandler context), a.InRange

variable {s : CommandSession} {c : SessionCall}

theorem PostedInRange.of_same (hs : PostedInRange s) {s' : CommandSession}
    (hprobes : s'.probes = s.probes) (hhandlers : s'.pingHandlers = s.pingHandlers) :
    PostedInRange s' := by
  rw [PostedInRange, hprobes, hhandlers]
  exact hs

/-- An answer with too large an index is ignored. -/
theorem call_ignored {index : ℕ} (hanswer : answeredBy c = some index)
    (hindex : s.probes.capacity ≤ index) : s.call c = s := by
  cases c with
  | message context timestamp command =>
    obtain ⟨d, rfl, hevent, hd⟩ := answeredIndex_eq_some hanswer
    show s.deliver context timestamp (.STAT d) = s
    rw [deliver_answer context timestamp hevent, onSTMt, if_pos (Or.inr (by omega))]
  | _ => cases hanswer

/-- A safe answer posts a ping for an element in use, or ends a round with none posted. -/
theorem answer_postedInRange (hs : PostedInRange s) (hsafe : SafeCall s c) {index : ℕ}
    (hanswer : answeredBy c = some index) : PostedInRange (s.call c) := by
  by_cases hguard : s.probes.capacity ≤ index
  · rw [call_ignored hanswer hguard]
    exact hs
  · have hindex : index < s.probes.size := (hsafe.1 index hanswer).resolve_left hguard
    have hanswered := answered hanswer (not_le.mp hguard)
    generalize s.call c = s' at hanswered
    cases hanswered with
    | interfered haccepted =>
      show ∀ i ∈ s.pingHandlers ++ [index], i < s.probes.size
      exact List.forall_mem_append.mpr ⟨hs, List.forall_mem_singleton.mpr hindex⟩
    | continued haccepted hround =>
      intro i hi
      show i < ((s.probes.set index _).pushBack _).size
      rw [Probes.pushBack_size, Probes.set_size]
      rcases List.mem_append.mp hi with hi | hi
      · have hlt := hs i hi
        omega
      · obtain rfl := List.mem_singleton.mp hi
        omega
    | evaluated haccepted hround =>
      show ∀ i ∈ s.pingHandlers, i < 0
      rw [hsafe.2 _ haccepted hround]
      exact List.forall_mem_nil _

theorem pingTimer_postedInRange (hs : PostedInRange s) (context : Context) :
    PostedInRange (s.call (.pingTimer context)) := by
  intro i hi
  show i < (s.probes.pushBack _).size
  rw [Probes.pushBack_size]
  have hlt := hs i hi
  omega

theorem pingHandler_postedInRange (hs : PostedInRange s) (context : Context) :
    PostedInRange (s.call (.pingHandler context)) := by
  show PostedInRange (s.onPingHandler context)
  rw [onPingHandler]
  split
  · exact hs
  · rename_i index rest hhandlers
    intro i hi
    have hmem : i ∈ s.pingHandlers := by
      rw [hhandlers]
      exact List.mem_cons_of_mem index hi
    exact hs i hmem

/-- **A safe call keeps the posted pings in range.** -/
theorem call_postedInRange (hs : PostedInRange s) (hsafe : SafeCall s c) :
    PostedInRange (s.call c) := by
  cases hanswer : answeredBy c with
  | some index => exact answer_postedInRange hs hsafe hanswer
  | none =>
    cases hping : pingOf s c with
    | none =>
      rcases call_measurement s hping hanswer with h | h
      · exact hs.of_same h.probes h.pingHandlers
      · exact hs.of_same h.probes h.pingHandlers
    | some ping =>
      cases c with
      | pingTimer context => exact pingTimer_postedInRange hs context
      | pingHandler context => exact pingHandler_postedInRange hs context
      | _ => cases hping

theorem pingHandler_inRange (hs : PostedInRange s) (context : Context) :
    ∀ a ∈ s.accesses (.pingHandler context), a.InRange := by
  intro a ha
  obtain ⟨index, hindex, rfl⟩ := List.mem_map.mp ha
  exact hs index (List.mem_of_head? (Option.mem_toList.mp hindex))

theorem accesses_inRange_of_safe (hs : PostedInRange s) (hsafe : SafeCall s c) :
    ∀ a ∈ s.accesses c, a.InRange := by
  cases c with
  | message context timestamp command =>
    exact (message_inRange_iff s context timestamp command).mpr hsafe.1
  | pingTimer context => simp [accesses, ProbeAccess.InRange]
  | pingHandler context => exact pingHandler_inRange hs context
  | _ => exact List.forall_mem_nil _

theorem accepted_lt {index : ℕ} (hanswer : answeredBy c = some index)
    {a : CommandSession × ProbeValues} (h : accepted s c = some a) : index < s.probes.capacity := by
  cases c with
  | message context timestamp command =>
    obtain ⟨d, rfl, hevent, hd⟩ := answeredIndex_eq_some hanswer
    rw [accepted] at h
    split at h
    · rename_i haccepted
      omega
    · cases h
  | _ => cases hanswer

/-- After a round that ends with a ping posted, the vector is empty and the ping is to come. -/
theorem safe_of_nextInRange (hnext : NextInRange s c) : SafeCall s c := by
  cases hanswer : answeredBy c with
  | none =>
    refine ⟨by simp [hanswer], ?_⟩
    intro a ha
    rw [accepted_of_not_answered hanswer] at ha
    cases ha
  | some index =>
    have hindex : s.probes.capacity ≤ index ∨ index < s.probes.size := by
      cases c with
      | message context timestamp command =>
        exact (message_inRange_iff s context timestamp command).mp hnext.1 index hanswer
      | _ => cases hanswer
    refine ⟨by simpa [hanswer] using hindex, ?_⟩
    intro a ha hround
    by_contra hposted
    have hanswered := answered hanswer (accepted_lt hanswer ha)
    have hafter := hnext.2 (contextAt 0)
    generalize s.call c = s' at hanswered hafter
    cases hanswered with
    | interfered hnone =>
      rw [hnone] at ha
      cases ha
    | continued hsome hmore =>
      rw [hsome] at ha
      cases ha
      exact hmore hround
    | evaluated hsome =>
      obtain ⟨posted, rest, hhandlers⟩ := List.exists_cons_of_ne_nil hposted
      have hhead : (⟨posted, 0⟩ : ProbeAccess).InRange := by
        refine hafter ⟨posted, 0⟩ ?_
        show _ ∈ s.pingHandlers.head?.toList.map fun i => (⟨i, 0⟩ : ProbeAccess)
        simp [hhandlers]
      exact Nat.not_lt_zero posted hhead

/-- **The accesses are in range as long as the calls are safe**, and no longer. -/
theorem safeCall_iff (hs : PostedInRange s) : SafeCall s c ↔ NextInRange s c := by
  constructor
  · intro hsafe
    refine ⟨accesses_inRange_of_safe hs hsafe, ?_⟩
    intro context
    exact pingHandler_inRange (call_postedInRange hs hsafe) context
  · exact safe_of_nextInRange

/-- **All accesses of a run are in range**, and those of the ping handlers that may run next, if and
only if all its calls are safe. -/
theorem accesses_inRange_iff (address : ℕ) (clientID : List UInt8) (streamingPort : ℕ)
    (formatSelection : FormatSelection) (gain : Option ℕ) (now : Timestamp) (context : Context)
    (calls : List SessionCall) :
    (sessionSystem.restrict SafeCall).Admits
        ((create address clientID streamingPort formatSelection gain now).start context) calls ↔
      (sessionSystem.restrict NextInRange).Admits
        ((create address clientID streamingPort formatSelection gain now).start context) calls := by
  have hsame := start_sameMeasurement context
    (create address clientID streamingPort formatSelection gain now)
  refine sessionSystem.admits_restrict_congr PostedInRange SafeCall NextInRange ?_ ?_ calls _ ?_
  · intro s c hs _ hsafe
    exact call_postedInRange hs hsafe
  · intro s c hs _
    exact safeCall_iff hs
  · rw [PostedInRange, hsame.pingHandlers]
    exact List.forall_mem_nil _

/-! ### An access out of range -/

/-- A session that has sent its first ping: fourteen of twenty-six elements are in use. -/
def pinged : CommandSession := (PingedSession.system.exec newPlayer firstPing).session

/-- A report that no ping asked for. -/
def unsolicited (serverTimestamp : ℕ) : SessionCall :=
  .message (contextAt 2000000000) ⟨2000000000⟩ (.STAT
    ⟨53, StatEvent.key .STMt, 0, 0, 0, 1048576, 0, 0, 0, 0, 0, 0, 0, 0, 0, 0, serverTimestamp, 0⟩)

/-- **An access out of range**: the index in a report is compared with the capacity. -/
theorem access_outOfRange : PingedSession.system.Admits newPlayer firstPing ∧
    ⟨19, 14⟩ ∈ pinged.accesses (unsolicited 20) ∧ ¬ ProbeAccess.InRange ⟨19, 14⟩ :=
  ⟨by decide, by decide +kernel, by unfold ProbeAccess.InRange; decide⟩

end CommandSession

end SlimStreamer
