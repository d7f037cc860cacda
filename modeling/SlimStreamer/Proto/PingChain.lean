import SlimStreamer.Lib.Execution
import SlimStreamer.Proto.SentCommands
import SlimStreamer.Proto.SessionRuns

/-!
# The chain of pings

A player answers each ping once and may send other messages in between.  Its session pings it
from three places: the timer that the first `HELO` arms, the handler that an answer posts, and the
timer that the end of a round arms.  These follow one another: there is always one of an armed
timer, a posted ping handler and an unanswered ping, and the ping is for the last probe.

* `PingedSession`, `system` — a session, its pings and the answers of the player;
* `recorded_exec` — the pings recorded in a run are those the session writes;
* `onSTMt_accepted`, `onSTMt_interfered` — what the answer to a ping does;
* `Chained` — the invariant; `chained_exec`;
* `one_ping_chain` — what it says of a session that has had its first `HELO`.
-/

namespace SlimStreamer

open GuardedExecution CommandSession

namespace CommandSession

/-! ### Answers -/

/-- The index of the ping that a message answers. -/
def answeredIndex : ClientCommand → Option ℕ
  | .STAT d =>
    if StatEvent.find d.event = some .STMt ∧ d.serverTimestamp ≠ 0 then some (d.serverTimestamp - 1)
    else none
  | _ => none

theorem isUnsolicited_iff (command : ClientCommand) :
    isUnsolicited command = true ↔ answeredIndex command = none := by
  cases command with
  | STAT d => simp [isUnsolicited, answeredIndex, imp_iff_not_or]
  | _ => simp [isUnsolicited, answeredIndex]

theorem answeredIndex_eq_some {command : ClientCommand} {index : ℕ}
    (h : answeredIndex command = some index) : ∃ d, command = .STAT d ∧
      StatEvent.find d.event = some .STMt ∧ d.serverTimestamp = index + 1 := by
  cases command with
  | STAT d =>
    rw [answeredIndex] at h
    split at h
    · rename_i hanswer
      refine ⟨d, rfl, hanswer.1, ?_⟩
      have hindex := Option.some.inj h
      omega
    · cases h
  | _ => cases h

/-- With the last answer recorded, the round of probes is complete. -/
def CompletesRound (s : CommandSession) : Prop :=
  (s.state ≠ .playing ∧ s.probes.size = s.probes.capacity) ∨
    (s.state = .playing ∧ 3 ≤ s.accurateDurationIndex.getD 0)

instance (s : CommandSession) : Decidable s.CompletesRound :=
  inferInstanceAs (Decidable ((s.state ≠ .playing ∧ s.probes.size = s.probes.capacity) ∨
    (s.state = .playing ∧ 3 ≤ s.accurateDurationIndex.getD 0)))

theorem CompletesRound.full {s : CommandSession} (h : s.CompletesRound) :
    s.probes.size = s.probes.capacity :=
  evaluated_complete h

section Answer

variable (context : Context) (timestamp : Timestamp) {d : STAT} {index : ℕ} {s : CommandSession}

theorem deliver_answer (hd : StatEvent.find d.event = some .STMt) :
    s.deliver context timestamp (.STAT d) = s.onSTMt context timestamp d := by
  show (s.onSTAT context timestamp d).1 = _
  rw [onSTAT, hd]
  rfl

/-- An answer that was not interfered with ends the round, or asks for one more probe. -/
theorem onSTMt_accepted (hd : d.serverTimestamp = index + 1) (hindex : index < s.probes.capacity)
    (hmeasuring : s.measuringLatency = true) :
    s.onSTMt context timestamp d =
      let recorded := s.recordAnswer timestamp d index
      if recorded.CompletesRound then
        (recorded.evaluateProbes context recorded.accurateDurationIndex).schedulePing 5
      else
        let pushed := { recorded with
          probes := recorded.probes.pushBack (ProbeValues.fresh context.clock) }
        pushed.postPing recorded.probes.size := by
  have hflag : (s.recordAnswer timestamp d index).measuringLatency = true := hmeasuring
  rw [onSTMt, if_neg (by omega), hd, Nat.add_sub_cancel]
  dsimp only
  rw [hflag, if_pos rfl, Probes.pushBack_size, Nat.add_sub_cancel]
  rfl

/-- An answer that was interfered with asks for the same probe again. -/
theorem onSTMt_interfered (hd : d.serverTimestamp = index + 1) (hindex : index < s.probes.capacity)
    (hmeasuring : s.measuringLatency = false) :
    s.onSTMt context timestamp d = (s.recordAnswer timestamp d index).postPing index := by
  have hflag : (s.recordAnswer timestamp d index).measuringLatency = false := hmeasuring
  rw [onSTMt, if_neg (by omega), hd, Nat.add_sub_cancel]
  dsimp only
  rw [hflag, if_neg Bool.false_ne_true]

end Answer

end CommandSession

/-- A session, and what its player knows of the pings. -/
structure PingedSession where
  session : CommandSession
  /-- The pings sent so far: their indices and the times stored with them. -/
  sent : List (ℕ × Timestamp)
  /-- Those the player has not answered. -/
  unanswered : List (ℕ × Timestamp)
  /-- The probes accepted since the first `HELO`, or since the last evaluation. -/
  round : List ProbeValues

namespace PingedSession

/-- The ping a call sends. -/
def pingOf (s : CommandSession) : SessionCall → Option (ℕ × Timestamp)
  | .pingTimer context => some (s.probes.size, context.clock 2)
  | .pingHandler context => s.pingHandlers.head?.map fun index => (index, context.clock 0)
  | _ => none

/-- The ping a call answers. -/
def answeredBy : SessionCall → Option ℕ
  | .message _ _ command => answeredIndex command
  | _ => none

/-- The session with an answer recorded that was not interfered with. -/
def accepted (s : CommandSession) : SessionCall → Option (CommandSession × ProbeValues)
  | .message _ timestamp (.STAT d) =>
    if answeredIndex (.STAT d) ≠ none ∧ d.serverTimestamp ≤ s.probes.capacity ∧
        s.measuringLatency = true then
      some (s.recordAnswer timestamp d (d.serverTimestamp - 1),
        answeredProbe timestamp d (s.probes.get (d.serverTimestamp - 1)).sendTimestamp)
    else none
  | _ => none

/-- The probes of the round after a call: an evaluation clears them. -/
def roundAfter (x : PingedSession) (c : SessionCall) : List ProbeValues :=
  match accepted x.session c with
  | none => x.round
  | some (recorded, probe) => if recorded.CompletesRound then [] else x.round ++ [probe]

/-- A timer runs out when it is armed, a handler runs when it is posted, and the player answers
only pings that it has not answered. -/
def enabled (x : PingedSession) : SessionCall → Prop
  | .message _ _ command => ∀ index ∈ answeredIndex command, index ∈ x.unanswered.map Prod.fst
  | .pingTimer _ => x.session.pingTimer.isSome = true
  | .pingHandler _ => x.session.pingHandlers ≠ []
  | _ => True

instance (x : PingedSession) : DecidablePred (enabled x)
  | .message _ _ command =>
    inferInstanceAs (Decidable (∀ index ∈ answeredIndex command,
      index ∈ x.unanswered.map Prod.fst))
  | .pingTimer _ => inferInstanceAs (Decidable (x.session.pingTimer.isSome = true))
  | .pingHandler _ => inferInstanceAs (Decidable (x.session.pingHandlers ≠ []))
  | .buffered _ | .unreadable | .prepare _ _ | .setStreamingSession _ | .consumeChunk _ _ _
  | .stop _ => isTrue trivial

def step (x : PingedSession) (c : SessionCall) : PingedSession where
  session := x.session.call c
  sent := x.sent ++ (pingOf x.session c).toList
  unanswered := x.unanswered.eraseP (fun ping => answeredBy c == some ping.1) ++
    (pingOf x.session c).toList
  round := x.roundAfter c

def system : System PingedSession SessionCall where
  enabled := enabled
  step := step

instance (x : PingedSession) (c : SessionCall) : Decidable (system.enabled x c) :=
  inferInstanceAs (Decidable (enabled x c))

/-- The session of a player that has just connected. -/
def opened (address : ℕ) (clientID : List UInt8) (streamingPort : ℕ)
    (formatSelection : FormatSelection) (gain : Option ℕ) (now : Timestamp) (context : Context) :
    PingedSession where
  session := (CommandSession.create address clientID streamingPort formatSelection gain now).start
    context
  sent := []
  unanswered := []
  round := []

/-! ### What is written -/

/-- **The ping of a call is the one it writes.** -/
theorem call_timesWritten (s : CommandSession) (c : SessionCall) :
    (s.call c).timesWritten = s.timesWritten ++ (pingOf s c).toList.map fun ping => ping.1 + 1 := by
  have hplain (h : (s.call c).timesWritten = s.timesWritten) (hping : pingOf s c = none) :
      (s.call c).timesWritten =
        s.timesWritten ++ (pingOf s c).toList.map fun ping => ping.1 + 1 := by
    rw [h, hping, Option.toList_none, List.map_nil, List.append_nil]
  cases c with
  | buffered ring => exact hplain rfl rfl
  | message context timestamp command =>
    exact hplain (deliver_sends context timestamp command s).timesWritten rfl
  | unreadable => exact hplain rfl rfl
  | pingTimer context => exact onPingTimer_timesWritten context s
  | pingHandler context =>
    refine (onPingHandler_timesWritten context s).trans ?_
    cases hhandlers : s.pingHandlers <;> simp [pingOf, hhandlers]
  | prepare context rate => exact hplain (prepare_sends context rate s).timesWritten rfl
  | setStreamingSession reference => exact hplain rfl rfl
  | consumeChunk context answer chunk =>
    exact hplain (consumeChunk_timesWritten context answer chunk s) rfl
  | stop context => exact hplain (stop_sends context s).timesWritten rfl

/-- The pings recorded are those written, in order. -/
def Recorded (x : PingedSession) : Prop :=
  x.session.timesWritten = x.sent.map fun ping => ping.1 + 1

theorem step_recorded {x : PingedSession} (hx : Recorded x) (c : SessionCall) :
    Recorded (x.step c) := by
  show (x.session.call c).timesWritten = (x.sent ++ (pingOf x.session c).toList).map _
  rw [call_timesWritten, hx, List.map_append]

theorem opened_recorded (address : ℕ) (clientID : List UInt8) (streamingPort : ℕ)
    (formatSelection : FormatSelection) (gain : Option ℕ) (now : Timestamp) (context : Context) :
    Recorded (opened address clientID streamingPort formatSelection gain now context) :=
  (start_sends context
    (create address clientID streamingPort formatSelection gain now)).timesWritten

/-! ### The invariant -/

/-- How many of these there are: an armed timer, posted ping handlers, unanswered pings. -/
def chains (x : PingedSession) : ℕ :=
  (if x.session.pingTimer.isSome then 1 else 0) + x.session.pingHandlers.length +
    x.unanswered.length

/-- **The invariant of the pings**: there is one chain of them from the first `HELO` on, and it is
at the last probe. -/
structure Chained (x : PingedSession) : Prop where
  one : x.chains = if x.session.commandHELO.isSome then 1 else 0
  posted : ∀ index ∈ x.session.pingHandlers, index + 1 = x.session.probes.size
  pending : ∀ ping ∈ x.unanswered, ping.1 + 1 = x.session.probes.size ∧
    x.sent.getLast? = some ping ∧ (x.session.probes.get ping.1).sendTimestamp = ping.2

variable {x : PingedSession}

theorem Chained.le_one (hx : Chained x) : x.chains ≤ 1 := by
  rw [hx.one]
  split <;> omega

theorem Chained.hello (hx : Chained x) (h : 0 < x.chains) :
    x.session.commandHELO.isSome = true := by
  by_contra hnone
  rw [hx.one, if_neg hnone] at h
  exact absurd h (Nat.lt_irrefl 0)

/-- With the timer armed, no handler is posted and no ping unanswered. -/
theorem Chained.timer_alone (hx : Chained x) (h : x.session.pingTimer.isSome = true) :
    x.session.pingHandlers = [] ∧ x.unanswered = [] ∧ x.session.commandHELO.isSome = true := by
  have hchains : x.chains = 1 + x.session.pingHandlers.length + x.unanswered.length := by
    rw [chains, if_pos h]
  have hone := hx.le_one
  exact ⟨List.length_eq_zero_iff.mp (by omega), List.length_eq_zero_iff.mp (by omega),
    hx.hello (by omega)⟩

theorem Chained.timer_none (hx : Chained x)
    (h : 0 < x.session.pingHandlers.length + x.unanswered.length) :
    x.session.pingTimer = none := by
  by_contra hsome
  obtain ⟨hhandlers, hunanswered, -⟩ := hx.timer_alone (Option.isSome_iff_ne_none.mpr hsome)
  rw [hhandlers, hunanswered] at h
  exact absurd h (Nat.lt_irrefl 0)

theorem Chained.posted_alone (hx : Chained x) {index : ℕ} {rest : List ℕ}
    (h : x.session.pingHandlers = index :: rest) :
    rest = [] ∧ x.unanswered = [] ∧ x.session.pingTimer = none ∧
      x.session.commandHELO.isSome = true := by
  have hlength : x.session.pingHandlers.length = rest.length + 1 := by simp [h]
  have hone := hx.le_one
  rw [chains] at hone
  exact ⟨List.length_eq_zero_iff.mp (by omega), List.length_eq_zero_iff.mp (by omega),
    hx.timer_none (by omega), hx.hello (by rw [chains]; omega)⟩

theorem Chained.pending_alone (hx : Chained x) {ping : ℕ × Timestamp} (h : ping ∈ x.unanswered) :
    x.unanswered = [ping] ∧ x.session.pingHandlers = [] ∧ x.session.pingTimer = none ∧
      x.session.commandHELO.isSome = true := by
  have hpos := List.length_pos_of_mem h
  have hone := hx.le_one
  rw [chains] at hone
  obtain ⟨only, honly⟩ := List.length_eq_one_iff.mp (show x.unanswered.length = 1 by omega)
  refine ⟨?_, List.length_eq_zero_iff.mp (by omega), hx.timer_none (by omega),
    hx.hello (by rw [chains]; omega)⟩
  rw [honly, List.mem_singleton] at h
  rw [honly, h]

theorem Chained.of_timer (htimer : x.session.pingTimer.isSome = true)
    (hhandlers : x.session.pingHandlers = []) (hunanswered : x.unanswered = [])
    (hhello : x.session.commandHELO.isSome = true) : Chained x where
  one := by simp [chains, htimer, hhandlers, hunanswered, hhello]
  posted := by simp [hhandlers]
  pending := by simp [hunanswered]

theorem Chained.of_posted {index : ℕ} (htimer : x.session.pingTimer = none)
    (hhandlers : x.session.pingHandlers = [index]) (hunanswered : x.unanswered = [])
    (hhello : x.session.commandHELO.isSome = true) (hindex : index + 1 = x.session.probes.size) :
    Chained x where
  one := by simp [chains, htimer, hhandlers, hunanswered, hhello]
  posted := by simp [hhandlers, hindex]
  pending := by simp [hunanswered]

theorem Chained.of_same (hx : Chained x) {y : PingedSession}
    (h : SameMeasurement x.session y.session) (hsent : y.sent = x.sent)
    (hunanswered : y.unanswered = x.unanswered) : Chained y where
  one := by
    rw [chains, h.pingTimer, h.pingHandlers, hunanswered, h.commandHELO]
    exact hx.one
  posted := by
    rw [h.pingHandlers, h.probes]
    exact hx.posted
  pending := by
    rw [h.probes, hunanswered, hsent]
    exact hx.pending

/-- The first `HELO` arms the timer: there was no ping before it. -/
theorem Chained.of_starts (hx : Chained x) {y : PingedSession}
    (h : StartsMeasurement x.session y.session) (hunanswered : y.unanswered = x.unanswered) :
    Chained y := by
  have hnone := hx.one
  rw [chains, h.first, Option.isSome_none, if_neg Bool.false_ne_true] at hnone
  refine Chained.of_timer ?_ ?_ ?_ h.commandHELO
  · rw [h.pingTimer]
    rfl
  · rw [h.pingHandlers]
    exact List.length_eq_zero_iff.mp (by omega)
  · rw [hunanswered]
    exact List.length_eq_zero_iff.mp (by omega)

/-! ### The calls -/

/-- **The calls that neither ping nor answer**: they leave the measurement alone, but for the
first `HELO`. -/
theorem call_measurement {c : SessionCall} (s : CommandSession) (hping : pingOf s c = none)
    (hanswer : answeredBy c = none) :
    SameMeasurement s (s.call c) ∨ StartsMeasurement s (s.call c) := by
  cases c with
  | message context timestamp command =>
    exact deliver_measurement context ((isUnsolicited_iff command).mpr hanswer) timestamp s
  | pingTimer context => cases hping
  | pingHandler context =>
    left
    have hnil : s.pingHandlers = [] := by simpa [pingOf] using hping
    show SameMeasurement s (s.onPingHandler context)
    rw [onPingHandler, hnil]
    exact SameMeasurement.refl s
  | prepare context rate => exact Or.inl (prepare_changes context rate s).sameMeasurement
  | consumeChunk context answer chunk =>
    exact Or.inl (consumeChunk_changes context answer chunk s).sameMeasurement
  | stop context => exact Or.inl (stop_changes context s).sameMeasurement
  | _ => exact Or.inl ⟨rfl, rfl, rfl, rfl, rfl⟩

theorem accepted_of_not_answered {s : CommandSession} {c : SessionCall}
    (hanswer : answeredBy c = none) : accepted s c = none := by
  cases c with
  | message context timestamp command =>
    cases command with
    | STAT d => rw [accepted, if_neg fun h => h.1 hanswer]
    | _ => rfl
  | _ => rfl

/-- What the answer to a ping does: it is stored, and the ping is repeated, or one more probe is
pinged for, or the round is evaluated. -/
inductive Answered (s : CommandSession) (index : ℕ) (c : SessionCall) : CommandSession → Prop
  | interfered {probe : ProbeValues} (haccepted : accepted s c = none) :
    Answered s index c ({ s with probes := s.probes.set index probe }.postPing index)
  | continued {probe fresh : ProbeValues}
    (haccepted : accepted s c = some ({ s with probes := s.probes.set index probe }, probe))
    (hround : ¬ { s with probes := s.probes.set index probe }.CompletesRound) :
    Answered s index c ({ s with
      probes := (s.probes.set index probe).pushBack fresh }.postPing s.probes.size)
  | evaluated {probe : ProbeValues} {context : Context}
    (haccepted : accepted s c = some ({ s with probes := s.probes.set index probe }, probe))
    (hround : { s with probes := s.probes.set index probe }.CompletesRound) :
    Answered s index c (({ s with probes := s.probes.set index probe }.evaluateProbes context
      { s with probes := s.probes.set index probe }.accurateDurationIndex).schedulePing 5)

/-- **The answer to a ping**, by whether it was interfered with and completes the round. -/
theorem answered {s : CommandSession} {c : SessionCall} {index : ℕ}
    (hanswer : answeredBy c = some index) (hindex : index < s.probes.capacity) :
    Answered s index c (s.call c) := by
  cases c with
  | message context timestamp command =>
    obtain ⟨d, rfl, hevent, hd⟩ := answeredIndex_eq_some hanswer
    have hsolicited : answeredIndex (.STAT d) ≠ none := by
      rw [show answeredIndex (.STAT d) = some index from hanswer]
      exact Option.some_ne_none index
    have hcall : s.call (.message context timestamp (.STAT d)) = s.onSTMt context timestamp d :=
      deliver_answer context timestamp hevent
    cases hmeasuring : s.measuringLatency with
    | true =>
      have haccepted : accepted s (.message context timestamp (.STAT d)) =
          some (s.recordAnswer timestamp d index,
            answeredProbe timestamp d (s.probes.get index).sendTimestamp) := by
        rw [accepted, if_pos ⟨hsolicited, by omega, hmeasuring⟩, hd, Nat.add_sub_cancel]
      rw [hcall, onSTMt_accepted context timestamp hd hindex hmeasuring]
      dsimp only
      split
      · rename_i hround
        exact .evaluated haccepted hround
      · rename_i hround
        exact .continued haccepted hround
    | false =>
      have haccepted : accepted s (.message context timestamp (.STAT d)) = none := by
        rw [accepted, if_neg (fun h => Bool.false_ne_true (hmeasuring.symm.trans h.2.2))]
      rw [hcall, onSTMt_interfered context timestamp hd hindex hmeasuring]
      exact .interfered haccepted
  | _ => cases hanswer

/-- The last probe is pinged for, and nothing else is under way. -/
theorem Chained.of_ping {s : CommandSession} {index : ℕ} (now : Timestamp)
    (sent : List (ℕ × Timestamp)) (round : List ProbeValues) (htimer : s.pingTimer = none)
    (hhandlers : s.pingHandlers = []) (hhello : s.commandHELO.isSome = true)
    (hindex : index + 1 = s.probes.size) :
    Chained ⟨s.ping now index, sent ++ [(index, now)], [(index, now)], round⟩ := by
  have hlt : index < s.probes.capacity := Probes.lt_capacity hindex
  have htimer' : (s.ping now index).pingTimer = none := htimer
  have hhandlers' : (s.ping now index).pingHandlers = [] := hhandlers
  have hhello' : (s.ping now index).commandHELO.isSome = true := hhello
  refine ⟨by simp [chains, htimer', hhandlers', hhello'], by simp [hhandlers'], ?_⟩
  intro ping hping
  obtain rfl : ping = (index, now) := List.mem_singleton.mp hping
  refine ⟨hindex, List.getLast?_concat, ?_⟩
  show ((s.probes.set index _).get index).sendTimestamp = now
  rw [Probes.get_set _ hlt, if_pos rfl]

theorem pingTimer_chained (hx : Chained x) (context : Context)
    (htimer : x.session.pingTimer.isSome = true) : Chained (x.step (.pingTimer context)) := by
  obtain ⟨hhandlers, hunanswered, hhello⟩ := hx.timer_alone htimer
  have hstep : x.step (.pingTimer context) = ⟨({ x.session with
      pingTimer := none
      probes := x.session.probes.pushBack (ProbeValues.fresh context.clock) }).ping
        (context.clock 2) x.session.probes.size,
      x.sent ++ [(x.session.probes.size, context.clock 2)],
      [(x.session.probes.size, context.clock 2)], x.round⟩ := by
    simp [step, pingOf, hunanswered, call, onPingTimer, roundAfter, accepted]
  rw [hstep]
  exact Chained.of_ping _ _ _ rfl hhandlers hhello (Probes.pushBack_size _ _).symm

theorem pingHandler_chained (hx : Chained x) (context : Context)
    (hposted : x.session.pingHandlers ≠ []) : Chained (x.step (.pingHandler context)) := by
  obtain ⟨index, rest, hhandlers⟩ := List.exists_cons_of_ne_nil hposted
  obtain ⟨rfl, hunanswered, htimer, hhello⟩ := hx.posted_alone hhandlers
  have hindex := hx.posted index (by simp [hhandlers])
  have hstep : x.step (.pingHandler context) =
      ⟨({ x.session with pingHandlers := [] }).ping (context.clock 0) index,
        x.sent ++ [(index, context.clock 0)], [(index, context.clock 0)], x.round⟩ := by
    simp [step, pingOf, hunanswered, hhandlers, call, onPingHandler, roundAfter, accepted]
  rw [hstep]
  exact Chained.of_ping _ _ _ htimer rfl hhello hindex

/-- The answered ping was the only one, and for the last probe. -/
theorem Chained.answered (hx : Chained x) {c : SessionCall} {index : ℕ}
    (hanswer : answeredBy c = some index) (he : enabled x c) :
    x.session.pingHandlers = [] ∧ x.session.pingTimer = none ∧
      x.session.commandHELO.isSome = true ∧ index + 1 = x.session.probes.size ∧
      (x.step c).unanswered = [] := by
  cases c with
  | message context timestamp command =>
    have hsolicited : index ∈ x.unanswered.map Prod.fst := he index hanswer
    obtain ⟨ping, hping, rfl⟩ := List.mem_map.mp hsolicited
    obtain ⟨honly, hhandlers, htimer, hhello⟩ := hx.pending_alone hping
    refine ⟨hhandlers, htimer, hhello, (hx.pending ping hping).1, ?_⟩
    simp [step, honly, hanswer, pingOf]
  | _ => cases hanswer

/-- The answer is stored in the last probe. -/
theorem Chained.step_answered (hx : Chained x) {c : SessionCall} {index : ℕ}
    (hanswer : answeredBy c = some index) (he : enabled x c) :
    Answered x.session index c (x.step c).session := by
  obtain ⟨-, -, -, hindex, -⟩ := hx.answered hanswer he
  exact PingedSession.answered hanswer (Probes.lt_capacity hindex)

theorem answer_chained (hx : Chained x) {c : SessionCall} {index : ℕ}
    (hanswer : answeredBy c = some index) (he : enabled x c) : Chained (x.step c) := by
  obtain ⟨hhandlers, htimer, hhello, hindex, hunanswered⟩ := hx.answered hanswer he
  have hsession := hx.step_answered hanswer he
  generalize x.step c = y at hsession hunanswered ⊢
  obtain ⟨session, sent, unanswered, round⟩ := y
  cases hsession with
  | interfered haccepted =>
    have hposted : x.session.pingHandlers ++ [index] = [index] := by
      rw [hhandlers, List.nil_append]
    exact Chained.of_posted htimer hposted hunanswered hhello hindex
  | continued haccepted hround =>
    have hposted : x.session.pingHandlers ++ [x.session.probes.size] = [x.session.probes.size] := by
      rw [hhandlers, List.nil_append]
    refine Chained.of_posted htimer hposted hunanswered hhello ?_
    show _ = (Probes.pushBack _ _).size
    rw [Probes.pushBack_size, Probes.set_size]
  | evaluated haccepted hround =>
    -- the timer starts the next round
    exact Chained.of_timer rfl hhandlers hunanswered hhello

/-- **Every call keeps the chain.** -/
theorem step_chained (hx : Chained x) {c : SessionCall} (he : enabled x c) :
    Chained (x.step c) := by
  cases hanswer : answeredBy c with
  | some index => exact answer_chained hx hanswer he
  | none =>
    cases hping : pingOf x.session c with
    | none =>
      have hsent : (x.step c).sent = x.sent := by simp [step, hping]
      have hunanswered : (x.step c).unanswered = x.unanswered := by
        simp [step, hping, hanswer]
      rcases call_measurement x.session hping hanswer with hsame | hstarts
      · exact hx.of_same hsame hsent hunanswered
      · exact hx.of_starts hstarts hunanswered
    | some ping =>
      cases c with
      | pingTimer context => exact pingTimer_chained hx context he
      | pingHandler context => exact pingHandler_chained hx context he
      | _ => cases hping

/-! ### Runs -/

section Runs

variable (address : ℕ) (clientID : List UInt8) (streamingPort : ℕ)
  (formatSelection : FormatSelection) (gain : Option ℕ) (now : Timestamp) (context : Context)

/-- Starting a new session leaves its measurement as the constructor made it. -/
theorem opened_measurement : SameMeasurement
    (CommandSession.create address clientID streamingPort formatSelection gain now)
    (opened address clientID streamingPort formatSelection gain now context).session :=
  start_sameMeasurement context _

theorem opened_chained :
    Chained (opened address clientID streamingPort formatSelection gain now context) := by
  have hcreated : Chained
      ⟨CommandSession.create address clientID streamingPort formatSelection gain now, [], [], []⟩ :=
    ⟨rfl, List.forall_mem_nil _, List.forall_mem_nil _⟩
  exact hcreated.of_same
    (opened_measurement address clientID streamingPort formatSelection gain now context) rfl rfl

theorem chained_exec {calls : List SessionCall}
    (hcalls : system.Admits
      (opened address clientID streamingPort formatSelection gain now context) calls) :
    Chained (system.exec
      (opened address clientID streamingPort formatSelection gain now context) calls) :=
  system.exec_invariant Chained (fun _ _ hx he => step_chained hx he) calls _
    (opened_chained address clientID streamingPort formatSelection gain now context) hcalls

/-- **The pings recorded in a run are those the session writes.** -/
theorem recorded_exec {calls : List SessionCall}
    (hcalls : system.Admits
      (opened address clientID streamingPort formatSelection gain now context) calls) :
    Recorded (system.exec
      (opened address clientID streamingPort formatSelection gain now context) calls) :=
  system.exec_invariant Recorded (fun _ c hx _ => step_recorded hx c) calls _
    (opened_recorded address clientID streamingPort formatSelection gain now context) hcalls

end Runs

/-- There is one chain of pings: the probe that is pinged for, and that the answer is stored in, is
the last one, and it holds the time of the latest ping. -/
structure OneChain (x : PingedSession) : Prop where
  one : x.chains = 1
  posted : ∀ index ∈ x.session.pingHandlers, index + 1 = x.session.probes.size
  pending : ∀ ping ∈ x.unanswered, ping.1 + 1 = x.session.probes.size ∧
    x.sent.getLast? = some ping ∧ (x.session.probes.get ping.1).sendTimestamp = ping.2

/-- **One chain of pings for each player**, from the first `HELO` on. -/
theorem one_ping_chain (address : ℕ) (clientID : List UInt8) (streamingPort : ℕ)
    (formatSelection : FormatSelection) (gain : Option ℕ) (now : Timestamp) (context : Context)
    (calls : List SessionCall)
    (hcalls : system.Admits
      (opened address clientID streamingPort formatSelection gain now context) calls)
    (hhello : (system.exec (opened address clientID streamingPort formatSelection gain now context)
      calls).session.commandHELO.isSome = true) :
    OneChain (system.exec (opened address clientID streamingPort formatSelection gain now context)
      calls) := by
  have hx := chained_exec address clientID streamingPort formatSelection gain now context hcalls
  exact ⟨by rw [hx.one, if_pos hhello], hx.posted, hx.pending⟩

/-- What a handler reads at a time in nanoseconds. -/
def contextAt (ns : ℤ) : Context := ⟨⟨44100, false, ⟨0⟩⟩, fun _ => ⟨ns⟩, ProbeSort.merge⟩

def newPlayer : PingedSession := opened 0 [49] 9001 .FLAC none ⟨0⟩ (contextAt 0)

/-- A `HELO` and the first ping. -/
def firstPing : List SessionCall :=
  [.message (contextAt 0) ⟨0⟩ (.HELO ⟨36, 12, 0, [], [], 0, 0, 0, []⟩),
    .pingTimer (contextAt 1000000000)]

theorem one_ping_chain_firstPing : OneChain (system.exec newPlayer firstPing) :=
  one_ping_chain 0 [49] 9001 .FLAC none ⟨0⟩ (contextAt 0) firstPing (by decide) rfl

end PingedSession

end SlimStreamer
