import SlimStreamer.Proto.CommandRequest

/-!
# The latency measurement of a session

What the operations of a session do to its measurement: the vector of the probes, the time
offset, the ping timer and the posted ping handlers.

* `Probes.get_set`, `Probes.get_pushBack` — the elements of the vector, also past its size;
* `SameMeasurement` — what all operations but the handshake, the pings and their answers leave
  alone;
* `deliver`, `handle_flagged` — a message once it is taken out of the ring;
* `getLatencyMeanProbe_mem` — the mean probe is one of the samples, if there are any.
-/

namespace SlimStreamer

/-! ### The vector of the probes -/

namespace Probes

@[simp] theorem set_size (p : Probes) (i : ℕ) (v : ProbeValues) : (p.set i v).size = p.size := rfl

@[simp] theorem set_capacity (p : Probes) (i : ℕ) (v : ProbeValues) :
    (p.set i v).capacity = p.capacity :=
  List.length_set

theorem get_set (p : Probes) {i : ℕ} (hi : i < p.capacity) (v : ProbeValues) (j : ℕ) :
    (p.set i v).get j = if i = j then v else p.get j := by
  show (p.storage.set i v).getD j _ = _
  rw [List.getD_eq_getElem?_getD, List.getElem?_set]
  by_cases hij : i = j
  · subst hij
    have hi' : i < p.storage.length := hi
    rw [if_pos rfl, if_pos rfl, if_pos hi', Option.getD_some]
  · rw [if_neg hij, if_neg hij, get, List.getD_eq_getElem?_getD]

theorem get_of_capacity_le (p : Probes) {i : ℕ} (hi : p.capacity ≤ i) :
    p.get i = ProbeValues.unset := by
  rw [get, List.getD_eq_getElem?_getD, List.getElem?_eq_none hi, Option.getD_none]

@[simp] theorem pushBack_size (p : Probes) (v : ProbeValues) :
    (p.pushBack v).size = p.size + 1 := by
  rw [pushBack]
  split <;> rfl

theorem capacity_le_pushBack (p : Probes) (v : ProbeValues) :
    p.capacity ≤ (p.pushBack v).capacity := by
  rw [pushBack]
  split
  · exact (List.length_set).ge
  · show _ ≤ (p.storage ++ _).length
    rw [List.length_append]
    exact Nat.le_add_right _ _

theorem size_le_capacity (p : Probes) : p.size ≤ p.capacity := p.size_bound

/-- The memory of the vector has its last element. -/
theorem lt_capacity {p : Probes} {i : ℕ} (h : i + 1 = p.size) : i < p.capacity := by
  have hsize := p.size_le_capacity
  omega

/-- Growing does not change an element, nor the memory past the new one. -/
theorem get_pushBack (p : Probes) (v : ProbeValues) (i : ℕ) :
    (p.pushBack v).get i = if p.size = i then v else p.get i := by
  rw [pushBack]
  split
  · rename_i h
    exact get_set p h v i
  · rename_i h
    have hsize : p.size = p.storage.length := le_antisymm p.size_bound (not_lt.mp h)
    show (p.storage ++ v :: List.replicate (p.storage.length - 1) _).getD i _ = _
    rw [List.getD_eq_getElem?_getD, List.getElem?_append, hsize]
    by_cases hlt : i < p.storage.length
    · rw [if_pos hlt, if_neg (by omega), get, List.getD_eq_getElem?_getD]
    · rw [if_neg hlt]
      by_cases heq : p.storage.length = i
      · rw [if_pos heq, heq, Nat.sub_self]
        rfl
      · obtain ⟨k, hk⟩ : ∃ k, i - p.storage.length = k + 1 := ⟨i - p.storage.length - 1, by omega⟩
        rw [if_neg heq, get_of_capacity_le p (not_lt.mp hlt), hk, List.getElem?_cons_succ,
          List.getElem?_replicate]
        split <;> rfl

@[simp] theorem clear_capacity (p : Probes) : p.clear.capacity = p.capacity := rfl

/-- The elements are the values of the storage. -/
theorem get_of_mem {p : Probes} {v : ProbeValues} (h : v ∈ p.storage) : ∃ i, p.get i = v := by
  obtain ⟨i, hi, rfl⟩ := List.getElem_of_mem h
  refine ⟨i, ?_⟩
  rw [get, List.getD_eq_getElem?_getD, List.getElem?_eq_getElem hi, Option.getD_some]

theorem get_mem_drop {p : Probes} {i n : ℕ} (hn : n ≤ i) (hi : i < p.capacity) :
    p.get i ∈ p.storage.drop n := by
  have hi' : i < p.storage.length := hi
  rw [get, List.getD_eq_getElem?_getD, List.getElem?_eq_getElem hi', Option.getD_some,
    List.mem_drop_iff_getElem]
  exact ⟨i - n, by omega, by congr 1; omega⟩

end Probes

namespace CommandSession

/-! ### The mean probe -/

/-- **The mean probe is one of the samples**, if there are any. -/
theorem getLatencyMeanProbe_mem (context : Context) {s : CommandSession} (h : s.meanSamples ≠ []) :
    s.getLatencyMeanProbe context ∈ s.meanSamples := by
  have hlength : 0 < s.meanSamples.length := List.length_pos_of_ne_nil h
  rw [getLatencyMeanProbe]
  split
  · have hperm := context.sorting.perm s.meanSamples
    rw [List.getD_eq_getElem?_getD, hperm.length_eq,
      List.getElem?_eq_getElem (by rw [hperm.length_eq]; omega), Option.getD_some]
    exact hperm.mem_iff.mp (List.getElem_mem _)
  · rw [List.getD_eq_getElem?_getD, List.getElem?_eq_getElem (by omega), Option.getD_some]
    exact List.getElem_mem _

/-! ### What leaves the measurement alone -/

/-- The measurement is the same. -/
structure SameMeasurement (s s' : CommandSession) : Prop where
  probes : s'.probes = s.probes
  timeOffset : s'.timeOffset = s.timeOffset
  pingTimer : s'.pingTimer = s.pingTimer
  pingHandlers : s'.pingHandlers = s.pingHandlers
  commandHELO : s'.commandHELO = s.commandHELO

theorem SameMeasurement.refl (s : CommandSession) : SameMeasurement s s :=
  ⟨rfl, rfl, rfl, rfl, rfl⟩

theorem SameMeasurement.trans {s s' s'' : CommandSession} (h : SameMeasurement s s')
    (h' : SameMeasurement s' s'') : SameMeasurement s s'' :=
  ⟨h'.probes.trans h.probes, h'.timeOffset.trans h.timeOffset, h'.pingTimer.trans h.pingTimer,
    h'.pingHandlers.trans h.pingHandlers, h'.commandHELO.trans h.commandHELO⟩

theorem Change.sameMeasurement {s s' : CommandSession} (h : Change s s') :
    SameMeasurement s s' := by
  cases h with
  | stopped hs => split <;> exact ⟨rfl, rfl, rfl, rfl, rfl⟩
  | _ => exact ⟨rfl, rfl, rfl, rfl, rfl⟩

/-- What the Streamer calls leaves the measurement alone. -/
theorem Changes.sameMeasurement {s s' : CommandSession} (h : Changes s s') : SameMeasurement s s' :=
  h.keeps SameMeasurement.refl SameMeasurement.trans Change.sameMeasurement

variable (context : Context)

/-- No action of the state machine touches the measurement. -/
theorem transitions_sameMeasurement :
    ∀ transition ∈ transitions context, ∀ s, SameMeasurement s (transition.action s) := by
  intro transition h s
  rcases transitions_action h with haction | ⟨_, haction⟩ | ⟨_, haction⟩ | ⟨_, haction⟩
  all_goals
    rw [haction]
    exact ⟨rfl, rfl, rfl, rfl, rfl⟩

theorem processEvent_sameMeasurement (event : Event) {errorHandler : CommandSession → CommandSession}
    (herror : ∀ s, SameMeasurement s (errorHandler s)) (s : CommandSession) :
    SameMeasurement s (s.processEvent context event errorHandler).2 := by
  rcases (stateMachine context).processEvent_cases event errorHandler s with
    ⟨transition, hmem, _, _, _, hfire⟩ | hsame | hsame
  · rw [processEvent, hfire]
    exact (transitions_sameMeasurement context transition hmem s).trans ⟨rfl, rfl, rfl, rfl, rfl⟩
  · rw [processEvent, hsame]
    exact SameMeasurement.refl s
  · rw [processEvent, hsame]
    exact herror s

theorem stopConnection_sameMeasurement (s : CommandSession) :
    SameMeasurement s s.stopConnection := ⟨rfl, rfl, rfl, rfl, rfl⟩

theorem start_sameMeasurement (s : CommandSession) : SameMeasurement s (s.start context) :=
  processEvent_sameMeasurement context .start stopConnection_sameMeasurement s

theorem foldl_send_sameMeasurement (commands : List ServerCommand) (s : CommandSession) :
    SameMeasurement s (commands.foldl (fun s command => s.send command) s) := by
  induction commands generalizing s with
  | nil => exact SameMeasurement.refl s
  | cons command commands ih =>
    have hsend : SameMeasurement s (s.send command) := ⟨rfl, rfl, rfl, rfl, rfl⟩
    exact hsend.trans (ih (s.send command))

/-- A round is complete when it is evaluated. -/
theorem evaluated_complete {s : CommandSession}
    (h : (s.state ≠ .playing ∧ s.probes.size = s.probes.capacity) ∨
      (s.state = .playing ∧ 3 ≤ s.accurateDurationIndex.getD 0)) :
    s.probes.size = s.probes.capacity := by
  rcases h with h | ⟨_, h⟩
  · exact h.2
  · by_contra hne
    rw [accurateDurationIndex, if_neg (fun hboth => hne hboth.1)] at h
    simp at h

/-! ### Messages -/

/-- A message once it is taken out of the ring: anything but `STAT` ends a measurement. -/
def deliver (timestamp : Timestamp) (command : ClientCommand) (s : CommandSession) :
    CommandSession :=
  match command with
  | .STAT d => (s.onSTAT context timestamp d).1
  | command => ({ s with measuringLatency := false }.handle context timestamp command).1

theorem construct_isSTAT {label : CommandLabel} {ring : Ring UInt8} {command : ClientCommand}
    (h : InboundCommand.construct label ring = .ok command) :
    label = .STAT ↔ ∃ d, command = .STAT d := by
  rw [InboundCommand.construct] at h
  split at h
  · cases h
  split at h
  · cases h
  dsimp only at h
  split at h
  · cases h
  split at h
  · cases h
  rw [← Except.ok.inj h]
  cases label <;> simp [ClientCommand.convert]

/-- The handler of a message that was read, with the flag of the measurement set before. -/
theorem handle_flagged (timestamp : Timestamp) {label : CommandLabel} {ring : Ring UInt8}
    {command : ClientCommand} (h : InboundCommand.construct label ring = .ok command)
    (s : CommandSession) :
    ((s.interfere label).handle context timestamp command).1 =
      s.deliver context timestamp command := by
  rw [interfere]
  by_cases hlabel : label = .STAT
  · obtain ⟨d, rfl⟩ := (construct_isSTAT h).mp hlabel
    rw [if_pos hlabel]
    rfl
  · have hother := (construct_isSTAT h).not.mp hlabel
    rw [if_neg hlabel]
    cases command with
    | STAT d => exact absurd ⟨d, rfl⟩ hother
    | _ => rfl

/-- The message answers no ping. -/
def isUnsolicited : ClientCommand → Bool
  | .STAT d => StatEvent.find d.event != some .STMt || d.serverTimestamp == 0
  | _ => true

/-- The first `HELO` starts the measurement. -/
structure StartsMeasurement (s s' : CommandSession) : Prop where
  first : s.commandHELO = none
  probes : s'.probes = s.probes
  timeOffset : s'.timeOffset = s.timeOffset
  pingTimer : s'.pingTimer = some (s.pingTimer.getD 1)
  pingHandlers : s'.pingHandlers = s.pingHandlers
  commandHELO : s'.commandHELO.isSome = true

theorem onHELO_measurement (h : HELO) (s : CommandSession) :
    SameMeasurement s (s.onHELO context h) ∨ StartsMeasurement s (s.onHELO context h) := by
  rw [onHELO]
  split
  · exact Or.inl (SameMeasurement.refl s)
  · rename_i hsome
    right
    have hfirst : s.commandHELO = none := by simpa using hsome
    have hsend := foldl_send_sameMeasurement (handshakeCommands s.gain)
      { s with commandHELO := some h }
    have hevent := processEvent_sameMeasurement context .handshake stopConnection_sameMeasurement
      (s.sendHandshake h)
    refine ⟨hfirst, hevent.probes.trans hsend.probes, hevent.timeOffset.trans hsend.timeOffset, ?_,
      hevent.pingHandlers.trans hsend.pingHandlers, ?_⟩
    · rw [hevent.pingTimer]
      exact congrArg (fun timer => some (Option.getD timer 1)) hsend.pingTimer
    · rw [hevent.commandHELO]
      exact congrArg Option.isSome hsend.commandHELO

theorem onSTAT_unsolicited {d : STAT} (h : isUnsolicited (.STAT d) = true)
    (timestamp : Timestamp) (s : CommandSession) :
    SameMeasurement s (s.onSTAT context timestamp d).1 := by
  rw [isUnsolicited, Bool.or_eq_true, bne_iff_ne, beq_iff_eq] at h
  rw [onSTAT]
  cases he : StatEvent.find d.event with
  | none => exact SameMeasurement.refl s
  | some event =>
    cases event with
    | STMf =>
      have hevent := processEvent_sameMeasurement context .flushed
        (fun s => SameMeasurement.refl s) { s with measuringLatency := false }
      exact ⟨hevent.probes, hevent.timeOffset, hevent.pingTimer, hevent.pingHandlers,
        hevent.commandHELO⟩
    | STMt =>
      have hzero : d.serverTimestamp = 0 := h.resolve_left (by rw [he]; exact not_not.mpr rfl)
      show SameMeasurement s (s.onSTMt context timestamp d)
      rw [onSTMt, if_pos (Or.inl hzero)]
      exact SameMeasurement.refl s
    | STMu =>
      show SameMeasurement s ({ s with measuringLatency := false }.onSTMu)
      rw [onSTMu]
      split <;> exact ⟨rfl, rfl, rfl, rfl, rfl⟩
    | _ => exact ⟨rfl, rfl, rfl, rfl, rfl⟩

/-- **What a message that answers no ping does to the measurement**: it is the first `HELO`,
or it does nothing. -/
theorem deliver_measurement {command : ClientCommand} (h : isUnsolicited command = true)
    (timestamp : Timestamp) (s : CommandSession) :
    SameMeasurement s (s.deliver context timestamp command) ∨
      StartsMeasurement s (s.deliver context timestamp command) := by
  cases command with
  | STAT d => exact Or.inl (onSTAT_unsolicited context h timestamp s)
  | HELO helo =>
    refine (onHELO_measurement context helo { s with measuringLatency := false }).imp ?_ ?_
    · intro hsame
      exact ⟨hsame.probes, hsame.timeOffset, hsame.pingTimer, hsame.pingHandlers,
        hsame.commandHELO⟩
    · intro hstart
      exact ⟨hstart.first, hstart.probes, hstart.timeOffset, hstart.pingTimer,
        hstart.pingHandlers, hstart.commandHELO⟩
  | _ => exact Or.inl ⟨rfl, rfl, rfl, rfl, rfl⟩

end CommandSession

end SlimStreamer
