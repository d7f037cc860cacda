import SlimStreamer.Proto.ProbeRounds

/-!
# How many probes are stored

A round ends when the vector is full; with the first push the capacity is twice the thirteen
elements of the constructor.  While the session is playing a round only ends if two neighbouring
probes show that the player has moved on.  Otherwise one more probe makes a full vector grow, and
a player that reports the same elapsed time again and again makes it grow for ever.

* `ShowsProgress` — what the search for an accurate duration finds;
* `bounded_iff` — the runs in which twenty-six elements are enough;
* `unbounded` — no number of elements is enough for all runs.
-/

namespace SlimStreamer

open GuardedExecution CommandSession

namespace CommandSession

/-- Behind the first two probes there are two neighbours with different client durations. -/
def ShowsProgress (p : Probes) : Prop :=
  ∃ i, 2 ≤ i ∧ i + 1 < p.capacity ∧ (p.get (i + 1)).clientDuration ≠ 0 ∧
    (p.get i).clientDuration ≠ 0 ∧ (p.get (i + 1)).clientDuration ≠ (p.get i).clientDuration

/-- The search goes downwards, so what it finds is the last pair. -/
theorem accurateDurationFrom_iff (p : Probes) (n : ℕ) :
    3 ≤ (accurateDurationFrom p n).getD 0 ↔
      ∃ i, 2 ≤ i ∧ i + 1 < n ∧ (p.get (i + 1)).clientDuration ≠ 0 ∧
        (p.get i).clientDuration ≠ 0 ∧
        (p.get (i + 1)).clientDuration ≠ (p.get i).clientDuration := by
  induction n with
  | zero => simp [accurateDurationFrom]
  | succ n ih =>
    cases n with
    | zero => simp [accurateDurationFrom]
    | succ n =>
      rw [accurateDurationFrom]
      split
      · rename_i hpair
        rw [Option.getD_some]
        constructor
        · intro hthree
          exact ⟨n, by omega, by omega, hpair⟩
        · rintro ⟨i, htwo, hlt, -⟩
          omega
      · rename_i hpair
        rw [ih]
        constructor
        · rintro ⟨i, htwo, hlt, hi⟩
          exact ⟨i, htwo, by omega, hi⟩
        · rintro ⟨i, htwo, hlt, hi⟩
          have hne : i ≠ n := by
            rintro rfl
            exact hpair hi
          exact ⟨i, htwo, by omega, hi⟩

/-- **The end of a round**: the vector is full, and while playing the durations show progress. -/
theorem completesRound_iff (s : CommandSession) :
    s.CompletesRound ↔ s.probes.size = s.probes.capacity ∧
      (s.state = .playing → ShowsProgress s.probes) := by
  by_cases hplaying : s.state = .playing
  · rw [CompletesRound, accurateDurationIndex]
    by_cases hfull : s.probes.size = s.probes.capacity
    · rw [if_pos ⟨hfull, hplaying⟩, getAccurateDurationIndex, accurateDurationFrom_iff]
      simp [hplaying, hfull, ShowsProgress]
    · rw [if_neg fun h => hfull h.1]
      simp [hfull]
  · simp [CompletesRound, hplaying]

end CommandSession

namespace PingedSession

/-! ### Runs that need no more than twenty-six elements -/

/-- If the vector is full when an answer is accepted while playing, the probes show progress. -/
def KeepsPace (x : PingedSession) (c : SessionCall) : Prop :=
  ∀ a ∈ accepted x.session c, x.session.state = .playing →
    x.session.probes.size = x.session.probes.capacity → ShowsProgress a.1.probes

variable {x : PingedSession}

theorem pushBack_capacity_le (hx : Rounds x) (hcapacity : x.session.probes.capacity ≤ 26)
    (htimer : x.session.pingTimer.isSome = true) (v : ProbeValues) :
    (x.session.probes.pushBack v).capacity ≤ 26 := by
  obtain ⟨hpending, hround⟩ := hx.of_timer htimer
  by_cases hfull : x.session.probes.size = x.session.probes.capacity
  · -- only the first round starts with a full vector
    obtain ⟨initial, hlength, -, -, hsize⟩ := hx.stores
    rw [hpending, hround, List.append_nil, Nat.add_zero] at hsize
    have hinitial : initial.length ≤ 13 := by
      split at hlength <;> omega
    have hpos : 0 < x.session.probes.capacity := by
      rcases hx.grown with ⟨-, -, hthirteen⟩ | hgrown <;> omega
    rw [Probes.pushBack_capacity_of_full hfull hpos]
    omega
  · have hle := x.session.probes.size_le_capacity
    rw [Probes.pushBack_capacity_of_lt (by omega)]
    exact hcapacity

/-- **A call that keeps pace leaves the capacity at twenty-six.** -/
theorem step_capacity (hx : Rounds x) (hcapacity : x.session.probes.capacity ≤ 26)
    {c : SessionCall} (he : enabled x c) (hpace : KeepsPace x c) :
    (x.step c).session.probes.capacity ≤ 26 := by
  cases hanswer : answeredBy c with
  | some index =>
    obtain ⟨-, -, -, hindex, -⟩ := hx.chained.answered hanswer he
    have hsession := hx.chained.step_answered hanswer he
    generalize (x.step c).session = session at hsession
    cases hsession with
    | interfered haccepted => simpa [postPing] using hcapacity
    | continued haccepted hround =>
      have hnotFull : x.session.probes.size ≠ x.session.probes.capacity := by
        intro hfull
        refine hround ((completesRound_iff _).mpr ⟨by simpa using hfull, ?_⟩)
        intro hplaying
        exact hpace _ haccepted hplaying hfull
      have hle := x.session.probes.size_le_capacity
      show ((x.session.probes.set index _).pushBack _).capacity ≤ 26
      rw [Probes.pushBack_capacity_of_lt (by rw [Probes.set_size, Probes.set_capacity]; omega),
        Probes.set_capacity]
      exact hcapacity
    | evaluated haccepted hround => simpa [schedulePing, evaluateProbes] using hcapacity
  | none =>
    cases hping : pingOf x.session c with
    | none =>
      rcases call_measurement x.session hping hanswer with h | h
      · exact (congrArg Probes.capacity h.probes).trans_le hcapacity
      · exact (congrArg Probes.capacity h.probes).trans_le hcapacity
    | some ping =>
      cases c with
      | pingTimer context =>
        show ((x.session.probes.pushBack _).set _ _).capacity ≤ 26
        rw [Probes.set_capacity]
        exact pushBack_capacity_le hx hcapacity he _
      | pingHandler context =>
        show (x.session.onPingHandler context).probes.capacity ≤ 26
        rw [onPingHandler]
        split
        · exact hcapacity
        · show (x.session.probes.set _ _).capacity ≤ 26
          rw [Probes.set_capacity]
          exact hcapacity
      | _ => cases hping

/-- An answer that does not keep pace makes the vector grow. -/
theorem step_size_of_not_keepsPace {c : SessionCall} (hx : Rounds x) (he : enabled x c)
    (hpace : ¬ KeepsPace x c) : 26 < (x.step c).session.probes.size := by
  simp only [KeepsPace, not_forall] at hpace
  obtain ⟨⟨recorded, probe⟩, haccepted, hplaying, hfull, hprogress⟩ := hpace
  cases hanswer : answeredBy c with
  | none =>
    rw [accepted_of_not_answered hanswer] at haccepted
    cases haccepted
  | some index =>
    obtain ⟨-, htimer, hhello, hindex, -⟩ := hx.chained.answered hanswer he
    have hgrown := hx.grown_pending (by rw [pending_eq_one hx.chained htimer hhello]; omega)
    have hsession := hx.chained.step_answered hanswer he
    generalize (x.step c).session = session at hsession
    cases hsession with
    | interfered hnone => rw [hnone] at haccepted; cases haccepted
    | continued hsome =>
      show 26 < ((x.session.probes.set index _).pushBack _).size
      rw [Probes.pushBack_size, Probes.set_size]
      omega
    | evaluated hsome hround =>
      rw [hsome] at haccepted
      cases haccepted
      exact absurd (((completesRound_iff _).mp hround).2 hplaying) hprogress

/-- The vector has no more than twenty-six elements. -/
def Bounded (x : PingedSession) : Prop := x.session.probes.size ≤ 26

/-- **Twenty-six elements are enough for a run** if and only if every call keeps pace: whenever an
answer is accepted while playing and the vector is full, the probes show progress. -/
theorem bounded_iff (address : ℕ) (clientID : List UInt8) (streamingPort : ℕ)
    (formatSelection : FormatSelection) (gain : Option ℕ) (now : Timestamp) (context : Context)
    (calls : List SessionCall)
    (hcalls : system.Admits
      (opened address clientID streamingPort formatSelection gain now context) calls) :
    system.Always Bounded
        (opened address clientID streamingPort formatSelection gain now context) calls ↔
      (system.restrict KeepsPace).Admits
        (opened address clientID streamingPort formatSelection gain now context) calls := by
  refine system.always_iff_admits_restrict
    (fun x => Rounds x ∧ x.session.probes.capacity ≤ 26) Bounded KeepsPace ?_ ?_ ?_ calls _
    ⟨?_, ?_⟩ hcalls
  · intro x hx
    exact le_trans x.session.probes.size_le_capacity hx.2
  · intro x c hx he hpace
    exact ⟨step_rounds hx.1 he, step_capacity hx.1 hx.2 he hpace⟩
  · intro x c hx he hpace
    exact not_le.mpr (step_size_of_not_keepsPace hx.1 he hpace)
  · exact opened_rounds address clientID streamingPort formatSelection gain now context
  · have hsame :=
      opened_measurement address clientID streamingPort formatSelection gain now context
    rw [hsame.probes]
    show (List.replicate 13 _).length ≤ 26
    rw [List.length_replicate]
    omega

theorem bounded_iff_firstRound : system.Always Bounded newPlayer firstRound ↔
    (system.restrict KeepsPace).Admits newPlayer firstRound :=
  bounded_iff 0 [49] 9001 .FLAC none ⟨0⟩ (contextAt 0) firstRound (by decide +kernel)

/-! ### A player that does not move on -/

/-- A ping is unanswered while playing, and no probe has a client duration. -/
structure Stalled (x : PingedSession) : Prop where
  playing : x.session.state = .playing
  measuring : x.session.measuringLatency = true
  handlers : x.session.pingHandlers = []
  unanswered : x.unanswered.map Prod.fst = [x.session.probes.size - 1]
  nonempty : 0 < x.session.probes.size
  durations : ∀ i, (x.session.probes.get i).clientDuration = 0

/-- The answer to the ping and the next ping. -/
def oneMore (x : PingedSession) : List SessionCall :=
  [answerTo (x.session.probes.size - 1), pingAt x.session.probes.size]

theorem report_duration (timestamp : Timestamp) (serverTimestamp : ℕ) (sent : Timestamp) :
    (answeredProbe timestamp (report .STMt serverTimestamp) sent).clientDuration = 0 := by
  simp [answeredProbe, report]

/-- Without a duration no round ends while playing. -/
theorem Stalled.continues (hx : Stalled x) {index : ℕ} (hindex : index < x.session.probes.capacity)
    (timestamp : Timestamp) (serverTimestamp : ℕ) : ¬ (x.session.recordAnswer timestamp
      (report .STMt serverTimestamp) index).CompletesRound := by
  intro h
  obtain ⟨i, -, -, hduration, -⟩ := ((completesRound_iff _).mp h).2 hx.playing
  refine hduration ?_
  show ((x.session.probes.set index _).get (i + 1)).clientDuration = 0
  rw [Probes.get_set _ hindex]
  split
  · exact report_duration timestamp serverTimestamp _
  · exact hx.durations (i + 1)

/-- The answer to the last ping asks for one more probe. -/
theorem Stalled.answer (hx : Stalled x) {index : ℕ} (hindex : index + 1 = x.session.probes.size) :
    ∃ probe fresh : ProbeValues, probe.clientDuration = 0 ∧ fresh.clientDuration = 0 ∧
      x.session.call (answerTo index) =
        { x.session with probes := (x.session.probes.set index probe).pushBack fresh }.postPing
          x.session.probes.size := by
  have hle := x.session.probes.size_le_capacity
  have hlt : index < x.session.probes.capacity := by omega
  refine ⟨answeredProbe (answeredAt index) (report .STMt (index + 1))
    (x.session.probes.get index).sendTimestamp,
    ProbeValues.fresh (contextAt (answeredAt index).ns).clock, report_duration _ _ _, rfl, ?_⟩
  show x.session.deliver _ _ (.STAT _) = _
  rw [deliver_answer _ _ rfl, onSTMt_accepted _ _ rfl hlt hx.measuring]
  dsimp only
  rw [if_neg (hx.continues hlt _ _)]
  rfl

/-- The ping for the last probe is posted. -/
structure Posted (y : PingedSession) (index : ℕ) : Prop where
  playing : y.session.state = .playing
  handlers : y.session.pingHandlers = [index]
  unanswered : y.unanswered = []
  last : index + 1 = y.session.probes.size
  durations : ∀ i, (y.session.probes.get i).clientDuration = 0

/-- The posted handler pings for it. -/
theorem Posted.stalled {y : PingedSession} {index : ℕ} (hy : Posted y index) (context : Context) :
    Stalled (y.step (.pingHandler context)) ∧
      (y.step (.pingHandler context)).session.probes.size = index + 1 := by
  have hsession : (y.step (.pingHandler context)).session =
      { y.session with pingHandlers := [] }.ping (context.clock 0) index := by
    simp [step, call, onPingHandler, hy.handlers]
  have hsent : (y.step (.pingHandler context)).unanswered = [(index, context.clock 0)] := by
    simp [step, pingOf, hy.unanswered, hy.handlers]
  have hsize : (y.step (.pingHandler context)).session.probes.size = index + 1 := by
    rw [hsession, hy.last]
    rfl
  refine ⟨⟨?_, ?_, ?_, ?_, by omega, ?_⟩, hsize⟩
  · rw [hsession]
    exact hy.playing
  · rw [hsession]
    rfl
  · rw [hsession]
    rfl
  · rw [hsent, hsize]
    rfl
  · intro i
    rw [hsession]
    show ((y.session.probes.set index _).get i).clientDuration = 0
    rw [Probes.get_set _ (Probes.lt_capacity hy.last)]
    split
    · exact hy.durations index
    · exact hy.durations i

/-- The answer to the ping leaves the next one posted. -/
theorem Stalled.posted (hx : Stalled x) {index : ℕ} (hindex : index + 1 = x.session.probes.size) :
    enabled x (answerTo index) ∧ Posted (x.step (answerTo index)) x.session.probes.size := by
  have hlt : index < x.session.probes.capacity := Probes.lt_capacity hindex
  obtain ⟨probe, fresh, hprobe, hfresh, hcall⟩ := hx.answer hindex
  have hpending := hx.unanswered
  rw [← hindex, Nat.add_sub_cancel, List.map_eq_singleton_iff] at hpending
  obtain ⟨ping, hping, hfirst⟩ := hpending
  have hprobes : (x.step (answerTo index)).session.probes =
      (x.session.probes.set index probe).pushBack fresh := by
    show (x.session.call (answerTo index)).probes = _
    rw [hcall]
    rfl
  refine ⟨?_, ?_, ?_, ?_, ?_, ?_⟩
  · show ∀ i ∈ answeredBy (answerTo index), i ∈ x.unanswered.map Prod.fst
    rw [answeredBy_answerTo, hping]
    simp [hfirst]
  · show (x.session.call (answerTo index)).state = .playing
    rw [hcall]
    exact hx.playing
  · show (x.session.call (answerTo index)).pingHandlers = _
    rw [hcall]
    show x.session.pingHandlers ++ [_] = [_]
    rw [hx.handlers, List.nil_append]
  · show x.unanswered.eraseP _ ++ (none : Option (ℕ × Timestamp)).toList = []
    rw [answeredBy_answerTo, hping]
    simp [hfirst]
  · rw [hprobes, Probes.pushBack_size, Probes.set_size]
  · intro i
    rw [hprobes, Probes.get_pushBack]
    split
    · exact hfresh
    · rw [Probes.get_set _ hlt]
      split
      · exact hprobe
      · exact hx.durations i

theorem stalled_oneMore (hx : Stalled x) : system.Admits x x.oneMore ∧
    Stalled (system.exec x x.oneMore) ∧
    (system.exec x x.oneMore).session.probes.size = x.session.probes.size + 1 := by
  have hpos := hx.nonempty
  have hlast : x.session.probes.size - 1 + 1 = x.session.probes.size := by omega
  obtain ⟨henabled, hposted⟩ := hx.posted hlast
  obtain ⟨hstalled, hsize⟩ := hposted.stalled (contextAt (x.session.probes.size * 1000000000))
  refine ⟨⟨henabled, ?_, trivial⟩, hstalled, hsize⟩
  show (x.step (answerTo (x.session.probes.size - 1))).session.pingHandlers ≠ []
  simp [hposted.handlers]

theorem stalled_grows (hx : Stalled x) (n : ℕ) : ∃ calls, system.Admits x calls ∧
    Stalled (system.exec x calls) ∧
    (system.exec x calls).session.probes.size = x.session.probes.size + n := by
  induction n with
  | zero => exact ⟨[], trivial, hx, rfl⟩
  | succ n ih =>
    obtain ⟨calls, hadmits, hstalled, hsize⟩ := ih
    obtain ⟨hmore, hstalled', hsize'⟩ := stalled_oneMore hstalled
    refine ⟨calls ++ oneMore (system.exec x calls), ?_, ?_, ?_⟩
    · exact (system.admits_append x calls _).mpr ⟨hadmits, hmore⟩
    · rw [system.exec_append]
      exact hstalled'
    · rw [system.exec_append, hsize', hsize]
      omega

/-- What a handler reads while the Streamer is playing. -/
def whilePlaying (ns : ℤ) : Context := { contextAt ns with streamer := ⟨44100, true, ⟨0⟩⟩ }

/-- The player starts to play after its first round, and is pinged again. -/
def untilStalled : List SessionCall :=
  firstRound ++
    [answerTo 25, .prepare (whilePlaying 26000000000) 44100, .setStreamingSession (some 1),
      .message (whilePlaying 27000000000) ⟨27000000000⟩ (.STAT (report .STMl 0)),
      .consumeChunk (whilePlaying 28000000000) true
        ⟨false, 44100, 2, 4, List.replicate 8 0, 1, 1, ⟨0⟩⟩,
      .pingTimer (whilePlaying 30000000000)]

theorem untilStalled_stalled : Stalled (system.exec newPlayer untilStalled) where
  playing := by decide +kernel
  measuring := by decide +kernel
  handlers := by decide +kernel
  unanswered := by decide +kernel
  nonempty := by decide +kernel
  durations := by
    have hall : ∀ v ∈ (system.exec newPlayer untilStalled).session.probes.storage,
        v.clientDuration = 0 := by decide +kernel
    intro i
    rw [Probes.get, List.getD_eq_getElem?_getD]
    cases hget : (system.exec newPlayer untilStalled).session.probes.storage[i]? with
    | none => rfl
    | some v => exact hall v (List.mem_of_getElem? hget)

/-- **No number of elements is enough for all runs.** -/
theorem unbounded : ¬ ∃ bound, ∀ calls, system.Admits newPlayer calls →
    (system.exec newPlayer calls).session.probes.size ≤ bound := by
  rintro ⟨bound, hbound⟩
  obtain ⟨calls, hadmits, -, hsize⟩ := stalled_grows untilStalled_stalled bound
  have hstart : system.Admits newPlayer untilStalled := by decide +kernel
  have hle := hbound (untilStalled ++ calls) ((system.admits_append _ _ _).mpr ⟨hstart, hadmits⟩)
  rw [system.exec_append, hsize] at hle
  have hpos := untilStalled_stalled.nonempty
  omega

end PingedSession

end SlimStreamer
