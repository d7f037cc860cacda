import SlimStreamer.Proto.PingChain

/-!
# The rounds of probes

The probes of a round are the elements of a vector, and what counts as a sample is told from the
position: all elements but the first three, once the vector is full.  The constructor makes thirteen
elements, so the probes of the first round are behind them.  The vector is full when the round is
evaluated, unless the session is playing and finds no accurate duration: then the vector grows.

* `Stores` — the memory of the vector starts with the probes of the round;
* `Rounds`, `Reached.rounds` — the invariant of the runs;
* `Evaluates.session_eq`, `Evaluates.storage_eq` — the end of a round;
* `slowStart_excluded_iff` — when the slow-start probes of a round are left out;
* `slowStart_included` — a first round whose slow-start probes are not.
-/

namespace SlimStreamer

open GuardedExecution CommandSession

namespace Probes

/-! ### The memory of the vector -/

theorem pushBack_capacity_of_lt {p : Probes} (h : p.size < p.capacity) (v : ProbeValues) :
    (p.pushBack v).capacity = p.capacity := by
  have hlt : p.size < p.storage.length := h
  simp [pushBack, capacity, hlt]

/-- A full vector doubles its capacity. -/
theorem pushBack_capacity_of_full {p : Probes} (h : p.size = p.capacity) (hpos : 0 < p.capacity)
    (v : ProbeValues) : (p.pushBack v).capacity = 2 * p.capacity := by
  have hsize : p.size = p.storage.length := h
  have hlength : 0 < p.storage.length := hpos
  simp [pushBack, capacity, hsize]
  omega

theorem prefix_set {l : List ProbeValues} {p : Probes} (h : l <+: p.storage) {i : ℕ}
    (hi : l.length ≤ i) (v : ProbeValues) : l <+: (p.set i v).storage := by
  show l <+: p.storage.set i v
  obtain ⟨rest, hrest⟩ := h
  rw [← hrest, List.set_append_right _ _ hi]
  exact List.prefix_append l _

theorem prefix_pushBack {l : List ProbeValues} {p : Probes} (h : l <+: p.storage)
    (hl : l.length ≤ p.size) (v : ProbeValues) : l <+: (p.pushBack v).storage := by
  rw [pushBack]
  split
  · exact prefix_set h hl v
  · exact h.trans (List.prefix_append _ _)

/-- Writing the element behind a beginning of the memory. -/
theorem concat_prefix_set {l : List ProbeValues} {p : Probes} (h : l <+: p.storage)
    (hl : l.length < p.capacity) (v : ProbeValues) :
    l ++ [v] <+: (p.set l.length v).storage := by
  show l ++ [v] <+: p.storage.set l.length v
  obtain ⟨rest, hrest⟩ := h
  have hlength : l.length < p.storage.length := hl
  rw [← hrest, List.length_append] at hlength
  obtain ⟨a, tail, rfl⟩ := List.exists_cons_of_ne_nil
    (List.ne_nil_of_length_pos (l := rest) (by omega))
  rw [← hrest, List.set_append_right _ _ le_rfl, Nat.sub_self, List.set_cons_zero]
  exact ⟨tail, by simp⟩

/-- The memory starts with the probes of a round, behind the elements of the constructor if it is
the first round, and `pending` more elements are in use. -/
def Stores (p : Probes) (later : Bool) (round : List ProbeValues) (pending : ℕ) : Prop :=
  ∃ initial : List ProbeValues, initial.length = (if later then 0 else 13) ∧
    (∀ v ∈ initial, v.latency = 0) ∧ initial ++ round <+: p.storage ∧
    p.size = (initial ++ round).length + pending

section Stores

variable {p : Probes} {later : Bool} {round : List ProbeValues} {pending : ℕ}

theorem Stores.pushBack (h : p.Stores later round pending) (v : ProbeValues) :
    (p.pushBack v).Stores later round (pending + 1) := by
  obtain ⟨initial, hlength, hzero, hprefix, hsize⟩ := h
  refine ⟨initial, hlength, hzero, prefix_pushBack hprefix (by omega) v, ?_⟩
  rw [pushBack_size]
  omega

/-- Writing the last element, which is not of the round yet. -/
theorem Stores.set (h : p.Stores later round 1) {i : ℕ} (hi : i + 1 = p.size) (v : ProbeValues) :
    (p.set i v).Stores later round 1 := by
  obtain ⟨initial, hlength, hzero, hprefix, hsize⟩ := h
  exact ⟨initial, hlength, hzero, prefix_set hprefix (by omega) v, hsize⟩

/-- The last element becomes one of the round. -/
theorem Stores.accept (h : p.Stores later round 1) {i : ℕ} (hi : i + 1 = p.size)
    (v : ProbeValues) : (p.set i v).Stores later (round ++ [v]) 0 := by
  obtain ⟨initial, hlength, hzero, hprefix, hsize⟩ := h
  obtain rfl : i = (initial ++ round).length := by omega
  have hcapacity := p.size_le_capacity
  refine ⟨initial, hlength, hzero, ?_, ?_⟩
  · rw [← List.append_assoc]
    exact concat_prefix_set hprefix (by omega) v
  · rw [set_size, hsize, ← List.append_assoc, @List.length_append _ _ [v]]
    rfl

theorem clear_stores (p : Probes) : p.clear.Stores true [] 0 :=
  ⟨[], rfl, List.forall_mem_nil _, List.nil_prefix, rfl⟩

/-- A full vector holds nothing else. -/
theorem Stores.storage_eq (h : p.Stores later round 0) (hfull : p.size = p.capacity) :
    ∃ initial : List ProbeValues, initial.length = (if later then 0 else 13) ∧
      (∀ v ∈ initial, v.latency = 0) ∧ p.storage = initial ++ round := by
  obtain ⟨initial, hlength, hzero, hbefore, hsize⟩ := h
  refine ⟨initial, hlength, hzero, ?_⟩
  have hstorage : p.storage.length = (initial ++ round).length := by
    rw [show p.storage.length = p.capacity from rfl, ← hfull, hsize, Nat.add_zero]
  exact (hbefore.eq_of_length hstorage.symm).symm

end Stores

end Probes

namespace PingedSession

/-! ### The invariant -/

/-- The pings under way: their handlers are posted, or they are unanswered. -/
def pending (x : PingedSession) : ℕ := x.session.pingHandlers.length + x.unanswered.length

/-- **The invariant of the rounds**: the first round starts with a vector that is full, and from
then on the vector has room for a round. -/
structure Rounds (x : PingedSession) : Prop where
  chained : Chained x
  begun : x.pending = 0 → x.round = []
  grown : (x.pending = 0 ∧ x.session.timeOffset = none ∧ x.session.probes.capacity = 13) ∨
    26 ≤ x.session.probes.capacity
  stores : x.session.probes.Stores x.session.timeOffset.isSome x.round x.pending

variable {x : PingedSession}

theorem Rounds.of_same (hx : Rounds x) {y : PingedSession} (hchained : Chained y)
    (hprobes : y.session.probes = x.session.probes)
    (htimeOffset : y.session.timeOffset = x.session.timeOffset)
    (hround : y.round = x.round) (hpending : y.pending = x.pending) : Rounds y where
  chained := hchained
  begun := by
    rw [hpending, hround]
    exact hx.begun
  grown := by
    rw [hpending, htimeOffset, hprobes]
    exact hx.grown
  stores := by
    rw [hprobes, htimeOffset, hround, hpending]
    exact hx.stores

/-- With the timer armed, no round has begun. -/
theorem Rounds.of_timer (hx : Rounds x) (htimer : x.session.pingTimer.isSome = true) :
    x.pending = 0 ∧ x.round = [] := by
  obtain ⟨hhandlers, hunanswered, -⟩ := hx.chained.timer_alone htimer
  have hpending : x.pending = 0 := by simp [pending, hhandlers, hunanswered]
  exact ⟨hpending, hx.begun hpending⟩

/-- Once the timer has run, the vector has room for a round. -/
theorem Rounds.grown_pushBack (hx : Rounds x) (v : ProbeValues) :
    26 ≤ (x.session.probes.pushBack v).capacity := by
  rcases hx.grown with ⟨hpending, hfirst, hcapacity⟩ | hcapacity
  · obtain ⟨initial, hlength, -, hprefix, hsize⟩ := hx.stores
    rw [hfirst] at hlength
    have hfull : x.session.probes.size = x.session.probes.capacity := by
      have hlt := x.session.probes.size_le_capacity
      simp at hlength
      rw [List.length_append] at hsize
      omega
    rw [Probes.pushBack_capacity_of_full hfull (by omega)]
    omega
  · exact le_trans hcapacity (Probes.capacity_le_pushBack _ v)

theorem Rounds.grown_pending (hx : Rounds x) (h : 0 < x.pending) :
    26 ≤ x.session.probes.capacity := by
  rcases hx.grown with ⟨hpending, -⟩ | hcapacity
  · omega
  · exact hcapacity

/-! ### The calls -/

theorem pingTimer_rounds (hx : Rounds x) (context : Context)
    (htimer : x.session.pingTimer.isSome = true) : Rounds (x.step (.pingTimer context)) := by
  obtain ⟨hpending, hround⟩ := hx.of_timer htimer
  obtain ⟨hhandlers, hunanswered, -⟩ := hx.chained.timer_alone htimer
  have hstores := hx.stores
  rw [hpending] at hstores
  have hpushed := hstores.pushBack (ProbeValues.fresh context.clock)
  have hpending' : (x.step (.pingTimer context)).pending = 1 := by
    simp [pending, step, pingOf, hunanswered, call, onPingTimer, ping, send, hhandlers]
  refine ⟨pingTimer_chained hx.chained context htimer, ?_, Or.inr ?_, ?_⟩
  · intro hzero
    omega
  · show 26 ≤ ((x.session.probes.pushBack _).set _ _).capacity
    rw [Probes.set_capacity]
    exact hx.grown_pushBack _
  · rw [hpending']
    exact hpushed.set (by simp) _

theorem pingHandler_rounds (hx : Rounds x) (context : Context)
    (hposted : x.session.pingHandlers ≠ []) : Rounds (x.step (.pingHandler context)) := by
  obtain ⟨index, rest, hhandlers⟩ := List.exists_cons_of_ne_nil hposted
  obtain ⟨rfl, hunanswered, -⟩ := hx.chained.posted_alone hhandlers
  have hindex := hx.chained.posted index (by simp [hhandlers])
  have hpending : x.pending = 1 := by simp [pending, hhandlers, hunanswered]
  have hstores := hx.stores
  rw [hpending] at hstores
  have hsession : (x.step (.pingHandler context)).session =
      { x.session with pingHandlers := [] }.ping (context.clock 0) index := by
    simp [step, call, onPingHandler, hhandlers]
  have hpending' : (x.step (.pingHandler context)).pending = 1 := by
    rw [pending, hsession]
    simp [step, pingOf, hunanswered, hhandlers, ping, send]
  refine ⟨pingHandler_chained hx.chained context hposted, ?_, Or.inr ?_, ?_⟩
  · intro hzero
    omega
  · rw [hsession]
    show 26 ≤ (x.session.probes.set index _).capacity
    rw [Probes.set_capacity]
    exact hx.grown_pending (by omega)
  · rw [hpending', hsession]
    exact hstores.set hindex _

/-- From the first `HELO` on, with no timer armed, there is one ping under way. -/
theorem pending_eq_one (hx : Chained x) (htimer : x.session.pingTimer = none)
    (hhello : x.session.commandHELO.isSome = true) : x.pending = 1 := by
  have hone := hx.one
  rw [chains, htimer, hhello, if_pos rfl] at hone
  simpa [pending] using hone

theorem answer_rounds (hx : Rounds x) {c : SessionCall} {index : ℕ}
    (hanswer : answeredBy c = some index) (he : enabled x c) : Rounds (x.step c) := by
  obtain ⟨hhandlers, htimer, hhello, hindex, hunanswered⟩ := hx.chained.answered hanswer he
  have hchained := answer_chained hx.chained hanswer he
  have hpending := pending_eq_one hx.chained htimer hhello
  have hgrown := hx.grown_pending (by omega)
  have hstores := hx.stores
  rw [hpending] at hstores
  have hsession := hx.chained.step_answered hanswer he
  have hround : (x.step c).round = x.roundAfter c := rfl
  generalize x.step c = y at hsession hunanswered hround hchained ⊢
  obtain ⟨session, sent, unanswered, round⟩ := y
  obtain rfl : unanswered = [] := hunanswered
  obtain rfl : round = x.roundAfter c := hround
  cases hsession with
  | @interfered probe haccepted =>
    have hsame : x.roundAfter c = x.round := by rw [roundAfter, haccepted]
    refine ⟨hchained, ?_, Or.inr ?_, ?_⟩
    · simp [pending]
    · simpa [postPing] using hgrown
    · simpa [pending, postPing, hhandlers, hsame] using hstores.set hindex probe
  | @continued probe fresh haccepted hround =>
    have hmore : x.roundAfter c = x.round ++ [probe] := by
      rw [roundAfter, haccepted]
      exact if_neg hround
    refine ⟨hchained, ?_, Or.inr ?_, ?_⟩
    · simp [pending]
    · refine le_trans ?_ (Probes.capacity_le_pushBack _ fresh)
      simpa using hgrown
    · simpa [pending, postPing, hhandlers, hmore] using
        (hstores.accept hindex probe).pushBack fresh
  | @evaluated probe context haccepted hround =>
    have hnew : x.roundAfter c = [] := by
      rw [roundAfter, haccepted]
      exact if_pos hround
    refine ⟨hchained, fun _ => hnew, Or.inr ?_, ?_⟩
    · simpa [schedulePing, evaluateProbes] using hgrown
    · simpa [pending, schedulePing, evaluateProbes, hhandlers, hnew] using
        Probes.clear_stores (x.session.probes.set index probe)

/-- **Every call keeps the rounds.** -/
theorem step_rounds (hx : Rounds x) {c : SessionCall} (he : enabled x c) : Rounds (x.step c) := by
  cases hanswer : answeredBy c with
  | some index => exact answer_rounds hx hanswer he
  | none =>
    cases hping : pingOf x.session c with
    | none =>
      have hround : (x.step c).round = x.round := by
        show x.roundAfter c = x.round
        rw [roundAfter, accepted_of_not_answered hanswer]
      have hunanswered : (x.step c).unanswered = x.unanswered := by
        simp [step, hping, hanswer]
      have hchained := step_chained hx.chained he
      rcases call_measurement x.session hping hanswer with h | h
      · refine hx.of_same hchained h.probes h.timeOffset hround ?_
        rw [pending, hunanswered]
        exact congrArg (fun handlers : List ℕ => handlers.length + _) h.pingHandlers
      · refine hx.of_same hchained h.probes h.timeOffset hround ?_
        rw [pending, hunanswered]
        exact congrArg (fun handlers : List ℕ => handlers.length + _) h.pingHandlers
    | some ping =>
      cases c with
      | pingTimer context => exact pingTimer_rounds hx context he
      | pingHandler context => exact pingHandler_rounds hx context he
      | _ => cases hping

/-! ### Runs -/

/-- The states of a session and its player. -/
def Reached (x : PingedSession) : Prop :=
  ∃ (address : ℕ) (clientID : List UInt8) (streamingPort : ℕ) (formatSelection : FormatSelection)
    (gain : Option ℕ) (now : Timestamp) (context : Context) (calls : List SessionCall),
    system.Admits (opened address clientID streamingPort formatSelection gain now context) calls ∧
      x = system.exec (opened address clientID streamingPort formatSelection gain now context) calls

theorem opened_rounds (address : ℕ) (clientID : List UInt8) (streamingPort : ℕ)
    (formatSelection : FormatSelection) (gain : Option ℕ) (now : Timestamp) (context : Context) :
    Rounds (opened address clientID streamingPort formatSelection gain now context) := by
  have hsame := opened_measurement address clientID streamingPort formatSelection gain now context
  have hpending :
      (opened address clientID streamingPort formatSelection gain now context).pending = 0 := by
    rw [pending, hsame.pingHandlers]
    rfl
  refine ⟨opened_chained address clientID streamingPort formatSelection gain now context,
    fun _ => rfl, Or.inl ⟨hpending, hsame.timeOffset, ?_⟩, ?_⟩
  · rw [hsame.probes]
    exact List.length_replicate
  · rw [hpending, hsame.timeOffset, hsame.probes]
    refine ⟨List.replicate 13 (ProbeValues.fresh fun _ => now), rfl, ?_, ?_, rfl⟩
    · intro v hv
      rw [List.eq_of_mem_replicate hv]
      rfl
    · exact List.prefix_rfl

theorem Reached.rounds (hx : Reached x) : Rounds x := by
  obtain ⟨address, clientID, streamingPort, formatSelection, gain, now, context, calls, hcalls,
    rfl⟩ := hx
  exact system.exec_invariant Rounds (fun _ _ h he => step_rounds h he) calls _
    (opened_rounds address clientID streamingPort formatSelection gain now context) hcalls

/-! ### The samples of a round -/

/-- An answer that completes the round: the session, with the answer stored, is evaluated. -/
def Evaluates (x : PingedSession) (c : SessionCall) (recorded : CommandSession)
    (probe : ProbeValues) : Prop :=
  accepted x.session c = some (recorded, probe) ∧ recorded.CompletesRound

/-- Nothing else changes the time offset. -/
theorem evaluates_of_timeOffset (hx : Chained x) {c : SessionCall} (he : enabled x c)
    (h : (x.step c).session.timeOffset ≠ x.session.timeOffset) :
    ∃ recorded probe, x.Evaluates c recorded probe := by
  cases hanswer : answeredBy c with
  | none =>
    exfalso
    cases c with
    | pingTimer context => exact h rfl
    | pingHandler context =>
      refine h ?_
      show (x.session.onPingHandler context).timeOffset = _
      rw [onPingHandler]
      split <;> rfl
    | _ =>
      rcases call_measurement x.session rfl hanswer with hsame | hstarts
      · exact h hsame.timeOffset
      · exact h hstarts.timeOffset
  | some index =>
    have hsession := hx.step_answered hanswer he
    generalize (x.step c).session = session at hsession h
    cases hsession with
    | evaluated haccepted hround => exact ⟨_, _, haccepted, hround⟩
    | _ => exact absurd rfl h

/-- The samples of a round: all but the first three, if they have a latency. -/
def roundSamples (round : List ProbeValues) : List ProbeValues :=
  (round.drop 3).filter fun p => p.latency ≠ 0

/-- Filtering leaves nothing of the first three. -/
theorem roundSamples_eq_iff (round : List ProbeValues) :
    (round.filter fun p => p.latency ≠ 0) = roundSamples round ↔
      ∀ p ∈ round.take 3, p.latency = 0 := by
  have hsplit : (round.filter fun p => p.latency ≠ 0) =
      ((round.take 3).filter fun p => p.latency ≠ 0) ++ roundSamples round := by
    rw [roundSamples, ← List.filter_append, List.take_append_drop]
  rw [hsplit, List.append_left_eq_self, List.filter_eq_nil_iff]
  simp

/-- The answer that completes a round is stored behind the other probes of the round, and then they
are evaluated. -/
theorem Evaluates.session_eq (hx : Chained x) {c : SessionCall} (he : enabled x c)
    {recorded : CommandSession} {probe : ProbeValues} (h : x.Evaluates c recorded probe) :
    ∃ index context, index + 1 = x.session.probes.size ∧ x.pending = 1 ∧
      recorded = { x.session with probes := x.session.probes.set index probe } ∧
      (x.step c).session =
        (recorded.evaluateProbes context recorded.accurateDurationIndex).schedulePing 5 := by
  obtain ⟨haccepted, hround⟩ := h
  cases hanswer : answeredBy c with
  | none => rw [accepted_of_not_answered hanswer] at haccepted; cases haccepted
  | some index =>
    obtain ⟨-, htimer, hhello, hindex, -⟩ := hx.answered hanswer he
    have hanswered := hx.step_answered hanswer he
    generalize (x.step c).session = session at hanswered
    cases hanswered with
    | interfered hnone => rw [hnone] at haccepted; cases haccepted
    | continued hsome hmore =>
      rw [hsome] at haccepted
      cases haccepted
      exact absurd hround hmore
    | evaluated hsome =>
      rw [hsome] at haccepted
      cases haccepted
      exact ⟨index, _, hindex, pending_eq_one hx htimer hhello, rfl, rfl⟩

/-- At the end of a round the vector holds its probes, behind the elements of the constructor if it
is the first one. -/
theorem Evaluates.storage_eq (hx : Rounds x) {c : SessionCall} (he : enabled x c)
    {recorded : CommandSession} {probe : ProbeValues} (h : x.Evaluates c recorded probe) :
    ∃ initial : List ProbeValues,
      initial.length = (if x.session.timeOffset.isSome then 0 else 13) ∧
      (∀ v ∈ initial, v.latency = 0) ∧
      recorded.probes.storage = initial ++ (x.round ++ [probe]) ∧
      26 ≤ recorded.probes.storage.length := by
  obtain ⟨index, -, hindex, hpending, rfl, -⟩ := h.session_eq hx.chained he
  have hgrown := hx.grown_pending (by omega)
  have hfull : x.session.probes.size = x.session.probes.capacity := by
    simpa using h.2.full
  have hstores := hx.stores
  rw [hpending] at hstores
  obtain ⟨initial, hlength, hzero, hstorage⟩ :=
    (hstores.accept hindex probe).storage_eq (by simpa using hfull)
  refine ⟨initial, hlength, hzero, hstorage, ?_⟩
  show 26 ≤ (x.session.probes.set index probe).capacity
  simpa using hgrown

/-- **The mean probe is one of the round**, if the last probe has a latency. -/
theorem Evaluates.meanProbe_mem (hx : Rounds x) {c : SessionCall} (he : enabled x c)
    {recorded : CommandSession} {probe : ProbeValues} (h : x.Evaluates c recorded probe)
    (hlatency : probe.latency ≠ 0) (context : Context) :
    recorded.getLatencyMeanProbe context ∈ x.round ++ [probe] := by
  obtain ⟨initial, -, hzero, hstorage, hlength⟩ := h.storage_eq hx he
  have hsample : probe ∈ recorded.meanSamples := by
    rw [hstorage] at hlength
    rw [meanSamples, hstorage, ← List.append_assoc,
      List.drop_append_of_le_length (by simp at hlength ⊢; omega)]
    simp [hlatency]
  have hmean := getLatencyMeanProbe_mem context (List.ne_nil_of_mem hsample)
  obtain ⟨hmem, hnonzero⟩ := List.mem_filter.mp hmean
  have hstored := List.mem_of_mem_drop hmem
  rw [hstorage] at hstored
  refine (List.mem_append.mp hstored).resolve_left ?_
  intro hinitial
  simp [hzero _ hinitial] at hnonzero

/-- At the end of a round the mean probe adjusts the time offset. -/
theorem Evaluates.timeOffset_eq (hx : Chained x) {c : SessionCall} (he : enabled x c)
    {recorded : CommandSession} {probe : ProbeValues} (h : x.Evaluates c recorded probe) :
    ∃ context, (x.step c).session.timeOffset = some (smooth x.session.timeOffset
      ((recorded.getLatencyMeanProbe context).sendTimestamp.diff
        (recorded.getLatencyMeanProbe context).clientTimestamp)) := by
  obtain ⟨index, context, -, -, rfl, hsession⟩ := h.session_eq hx he
  refine ⟨context, ?_⟩
  rw [hsession]
  rfl

/-- **The slow-start probes of a round are left out** of the samples from the second round on.  In
the first round the elements of the constructor are, so the first three probes must have no
latency. -/
theorem slowStart_excluded_iff (hx : Reached x) {c : SessionCall} (he : enabled x c)
    {recorded : CommandSession} {probe : ProbeValues} (h : x.Evaluates c recorded probe) :
    recorded.meanSamples = roundSamples (x.round ++ [probe]) ↔
      x.session.timeOffset.isSome = true ∨ ∀ p ∈ x.round.take 3, p.latency = 0 := by
  obtain ⟨initial, hlength, hzero, hstorage, hgrown⟩ := h.storage_eq hx.rounds he
  have hthree : 3 ≤ x.round.length := by
    rw [hstorage] at hgrown
    simp at hgrown
    split at hlength <;> omega
  have hsamples : recorded.meanSamples =
      ((initial ++ (x.round ++ [probe])).drop 3).filter fun p => p.latency ≠ 0 := by
    rw [meanSamples, hstorage]
  rw [hsamples]
  cases hlater : x.session.timeOffset.isSome with
  | true =>
    rw [hlater, if_pos rfl, List.length_eq_zero_iff] at hlength
    simp [hlength, roundSamples]
  | false =>
    rw [hlater, if_neg Bool.false_ne_true] at hlength
    have hnone : (initial.drop 3).filter (fun p => p.latency ≠ 0) = [] := by
      rw [List.filter_eq_nil_iff]
      intro p hp
      simp [hzero p (List.mem_of_mem_drop hp)]
    rw [List.drop_append_of_le_length (by omega), List.filter_append, hnone, List.nil_append,
      roundSamples_eq_iff, List.take_append_of_le_length hthree]
    simp

/-! ### A first round -/

/-- What a message of the player has in the fields the session reads. -/
def report (event : StatEvent) (serverTimestamp : ℕ) : STAT where
  size := 53
  event := event.key
  numberCRLF := 0
  initializedMAS := 0
  modeMAS := 0
  streamBufferSize := 1048576
  streamBufferFullness := 0
  bytesReceived1 := 0
  bytesReceived2 := 0
  signalStrength := 0
  jiffies := 0
  outputBufferSize := 0
  outputBufferFullness := 0
  elapsedSeconds := 0
  voltage := 0
  elapsedMilliseconds := 0
  serverTimestamp := serverTimestamp
  errorCode := 0

/-- The ping with an index is sent at that second. -/
def pingAt (index : ℕ) : SessionCall := .pingHandler (contextAt (index * 1000000000))

/-- It is answered two milliseconds later. -/
def answeredAt (index : ℕ) : Timestamp := ⟨index * 1000000000 + 2000000⟩

/-- The answer of a player that plays nothing. -/
def answerTo (index : ℕ) : SessionCall :=
  .message (contextAt (answeredAt index).ns) (answeredAt index) (.STAT (report .STMt (index + 1)))

theorem answeredBy_answerTo (index : ℕ) : answeredBy (answerTo index) = some index := by
  show answeredIndex (.STAT (report .STMt (index + 1))) = some index
  rw [answeredIndex, if_pos ⟨rfl, Nat.succ_ne_zero index⟩]
  rfl

theorem accepted_answerTo {s : CommandSession} {index : ℕ} (hindex : index < s.probes.capacity)
    (hmeasuring : s.measuringLatency = true) :
    accepted s (answerTo index) =
      some (s.recordAnswer (answeredAt index) (report .STMt (index + 1)) index,
        answeredProbe (answeredAt index) (report .STMt (index + 1))
          (s.probes.get index).sendTimestamp) := by
  have hsolicited : answeredIndex (.STAT (report .STMt (index + 1))) ≠ none := by
    have hanswered : answeredIndex (.STAT (report .STMt (index + 1))) = some index :=
      answeredBy_answerTo index
    simp [hanswered]
  rw [answerTo, accepted, if_pos ⟨hsolicited, hindex, hmeasuring⟩]
  rfl

/-- A first round, up to the last answer. -/
def firstRound : List SessionCall :=
  [.message (contextAt 0) ⟨0⟩ (.HELO ⟨36, 12, 0, [], [], 0, 0, 0, []⟩),
    .message (contextAt 0) ⟨0⟩ (.STAT (report .STMf 0)), .pingTimer (contextAt 13000000000)] ++
    (List.range 12).flatMap fun k : ℕ => [answerTo (13 + k), pingAt (14 + k)]

/-- The session before the last answer of its first round. -/
def firstAnswers : CommandSession := (system.exec newPlayer firstRound).session

theorem firstRound_reached : Reached (system.exec newPlayer firstRound) :=
  ⟨0, [49], 9001, .FLAC, none, ⟨0⟩, contextAt 0, firstRound, by decide +kernel, rfl⟩

theorem firstRound_evaluates : (system.exec newPlayer firstRound).Evaluates (answerTo 25)
    (firstAnswers.recordAnswer (answeredAt 25) (report .STMt 26) 25)
    (answeredProbe (answeredAt 25) (report .STMt 26)
      (firstAnswers.probes.get 25).sendTimestamp) :=
  ⟨accepted_answerTo (by decide +kernel) (by decide +kernel), by decide +kernel⟩

theorem slowStart_excluded_firstRound :
    (firstAnswers.recordAnswer (answeredAt 25) (report .STMt 26) 25).meanSamples =
      roundSamples ((system.exec newPlayer firstRound).round ++
        [answeredProbe (answeredAt 25) (report .STMt 26)
          (firstAnswers.probes.get 25).sendTimestamp]) ↔
      (system.exec newPlayer firstRound).session.timeOffset.isSome = true ∨
        ∀ p ∈ (system.exec newPlayer firstRound).round.take 3, p.latency = 0 :=
  slowStart_excluded_iff firstRound_reached (by decide +kernel) firstRound_evaluates

/-- **The slow-start probes of the first round are samples**: the player answers every ping after
two milliseconds, and all thirteen probes are considered. -/
theorem slowStart_included : Reached (system.exec newPlayer firstRound) ∧
    system.enabled (system.exec newPlayer firstRound) (answerTo 25) ∧
    ∃ recorded probe, (system.exec newPlayer firstRound).Evaluates (answerTo 25) recorded probe ∧
      recorded.meanSamples ≠ roundSamples ((system.exec newPlayer firstRound).round ++ [probe]) :=
  ⟨firstRound_reached, by decide +kernel, _, _, firstRound_evaluates, by decide +kernel⟩

end PingedSession

end SlimStreamer
