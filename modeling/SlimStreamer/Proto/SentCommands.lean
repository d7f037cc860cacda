import SlimStreamer.Proto.LatencyMeasurement

/-!
# The commands a session sends

What the operations of a session append to the commands it has written.

* `Sends` — all that is appended has a property; operations compose;
* `SendsPlain` — what everything but a ping and the start of the playback does;
* `timesWritten` — the pings among the commands written;
* `consumeChunk_unpause` — the `STRM` Unpause of a delivered chunk carries the start of the
  playback, moved to the player's clock by the estimated offset.
-/

namespace SlimStreamer

/-- `STRM` with `CommandSelection::Start`. -/
def ServerCommand.isStart : ServerCommand → Bool
  | .start _ _ _ _ => true
  | _ => false

/-- `STRM` with `CommandSelection::Unpause`. -/
def ServerCommand.isUnpause : ServerCommand → Bool
  | .unpause _ => true
  | _ => false

/-- The value in an `STRM` with `CommandSelection::Time`. -/
def ServerCommand.timeIndex : ServerCommand → Option ℕ
  | .time replayGain => some replayGain
  | _ => none

/-- Neither a ping nor the start of a playback. -/
def ServerCommand.isPlain (command : ServerCommand) : Bool :=
  !command.isUnpause && command.timeIndex.isNone

namespace CommandSession

/-- All the commands sent between two states of a session have the property. -/
def Sends (p : ServerCommand → Prop) (s s' : CommandSession) : Prop :=
  ∃ commands, s'.written = s.written ++ commands ∧ ∀ command ∈ commands, p command

section Sends

variable {p : ServerCommand → Prop} {s s' s'' : CommandSession}

theorem Sends.of_written (h : s'.written = s.written) : Sends p s s' := by
  refine ⟨[], ?_, List.forall_mem_nil _⟩
  rw [h, List.append_nil]

theorem Sends.trans (h : Sends p s s') (h' : Sends p s' s'') : Sends p s s'' := by
  obtain ⟨commands, hwritten, hp⟩ := h
  obtain ⟨commands', hwritten', hp'⟩ := h'
  refine ⟨commands ++ commands', ?_, ?_⟩
  · rw [hwritten', hwritten, List.append_assoc]
  · intro command hc
    rcases List.mem_append.mp hc with hc | hc
    · exact hp command hc
    · exact hp' command hc

theorem Sends.send {command : ServerCommand} (h : p command) (s : CommandSession) :
    Sends p s (s.send command) := by
  refine ⟨[command], rfl, ?_⟩
  intro c hc
  rw [List.mem_singleton.mp hc]
  exact h

theorem Sends.foldl {commands : List ServerCommand} (h : ∀ command ∈ commands, p command)
    (s : CommandSession) : Sends p s (commands.foldl (fun s command => s.send command) s) := by
  induction commands generalizing s with
  | nil => exact Sends.of_written rfl
  | cons command commands ih =>
    exact (Sends.send (h command List.mem_cons_self) s).trans
      (ih (fun c hc => h c (List.mem_cons_of_mem _ hc)) (s.send command))

theorem Sends.imp {q : ServerCommand → Prop} (hpq : ∀ command, p command → q command)
    (h : Sends p s s') : Sends q s s' := by
  obtain ⟨commands, hwritten, hp⟩ := h
  exact ⟨commands, hwritten, fun command hc => hpq command (hp command hc)⟩

/-- The commands sent are those past the ones sent before. -/
theorem Sends.mem_drop (h : Sends p s s') {command : ServerCommand}
    (hc : command ∈ s'.written.drop s.written.length) : p command := by
  obtain ⟨commands, hwritten, hp⟩ := h
  rw [hwritten, List.drop_left] at hc
  exact hp command hc

end Sends

/-! ### Pings -/

/-- The values in the pings written, in order. -/
def timesWritten (s : CommandSession) : List ℕ := s.written.filterMap ServerCommand.timeIndex

theorem Sends.timesWritten {s s' : CommandSession}
    (h : Sends (fun command => command.timeIndex = none) s s') :
    s'.timesWritten = s.timesWritten := by
  obtain ⟨commands, hwritten, hnone⟩ := h
  rw [CommandSession.timesWritten, hwritten, List.filterMap_append,
    List.filterMap_eq_nil_iff.mpr hnone, List.append_nil]
  rfl

theorem ping_timesWritten (now : Timestamp) (index : ℕ) (s : CommandSession) :
    (s.ping now index).timesWritten = s.timesWritten ++ [index + 1] := by
  have hwritten : (s.ping now index).written = s.written ++ [.time (index + 1)] := rfl
  rw [timesWritten, hwritten, List.filterMap_append]
  rfl

theorem onPingTimer_timesWritten (context : Context) (s : CommandSession) :
    (s.onPingTimer context).timesWritten = s.timesWritten ++ [s.probes.size + 1] := by
  have hindex : (s.probes.pushBack (ProbeValues.fresh context.clock)).size - 1 =
      s.probes.size := by
    rw [Probes.pushBack_size, Nat.add_sub_cancel]
  rw [onPingTimer, ping_timesWritten, hindex]
  rfl

theorem onPingHandler_timesWritten (context : Context) (s : CommandSession) :
    (s.onPingHandler context).timesWritten =
      s.timesWritten ++ s.pingHandlers.head?.toList.map fun index => index + 1 := by
  rw [onPingHandler]
  cases s.pingHandlers with
  | nil => exact (List.append_nil _).symm
  | cons index rest => exact ping_timesWritten _ _ _

/-! ### All but the pings and the start of the playback -/

def SendsPlain : CommandSession → CommandSession → Prop :=
  Sends fun command => command.isPlain = true

theorem SendsPlain.of_written {s s' : CommandSession} (h : s'.written = s.written) :
    SendsPlain s s' :=
  Sends.of_written h

theorem SendsPlain.trans {s s' s'' : CommandSession} (h : SendsPlain s s')
    (h' : SendsPlain s' s'') : SendsPlain s s'' :=
  Sends.trans h h'

theorem send_sends {command : ServerCommand} (h : command.isPlain = true)
    (s : CommandSession) : SendsPlain s (s.send command) :=
  Sends.send h s

theorem timeIndex_of_plain {command : ServerCommand} (h : command.isPlain = true) :
    command.timeIndex = none := by
  simp only [ServerCommand.isPlain, Bool.and_eq_true, Option.isNone_iff_eq_none] at h
  exact h.2

theorem SendsPlain.timesWritten {s s' : CommandSession} (h : SendsPlain s s') :
    s'.timesWritten = s.timesWritten :=
  Sends.timesWritten (Sends.imp (fun _ => timeIndex_of_plain) h)

theorem stopConnection_written (s : CommandSession) : s.stopConnection.written = s.written := rfl

variable (context : Context)

/-- Only the transition to Playing unpauses. -/
theorem transitions_sends :
    ∀ transition ∈ transitions context, transition.event ≠ .play →
      ∀ s, SendsPlain s (transition.action s) := by
  intro transition h hevent s
  rcases transitions_action h with haction | ⟨_, haction⟩ | ⟨hplay, _⟩ | ⟨_, haction⟩
  · rw [haction]
    exact SendsPlain.of_written rfl
  · rw [haction]
    exact send_sends rfl s
  · exact absurd hplay hevent
  · rw [haction]
    exact SendsPlain.of_written rfl

theorem processEvent_sends (event : Event) (hevent : event ≠ .play)
    {errorHandler : CommandSession → CommandSession}
    (herror : ∀ s, (errorHandler s).written = s.written) (s : CommandSession) :
    SendsPlain s (s.processEvent context event errorHandler).2 := by
  rcases (stateMachine context).processEvent_cases event errorHandler s with
    ⟨transition, hmem, _, hfired, _, hfire⟩ | hsame | hsame
  · rw [processEvent, hfire]
    exact (transitions_sends context transition hmem (hfired ▸ hevent) s).trans
      (SendsPlain.of_written rfl)
  · rw [processEvent, hsame]
    exact SendsPlain.of_written rfl
  · rw [processEvent, hsame]
    exact SendsPlain.of_written (herror s)

theorem start_sends (s : CommandSession) : SendsPlain s (s.start context) :=
  processEvent_sends context .start (by decide) stopConnection_written s

theorem stop_sends (s : CommandSession) : SendsPlain s (s.stop context) := by
  rw [stop_eq]
  split
  · exact SendsPlain.of_written rfl
  · split
    · exact SendsPlain.of_written rfl
    · exact (send_sends rfl s).trans (SendsPlain.of_written rfl)

theorem prepare_sends (rate : ℕ) (s : CommandSession) :
    SendsPlain s (s.prepare context rate) := by
  rw [prepare_eq]
  split
  · exact (SendsPlain.of_written rfl).trans ((send_sends rfl _).trans (SendsPlain.of_written rfl))
  · split <;> exact SendsPlain.of_written rfl

theorem joinStream_sends (s : CommandSession) : SendsPlain s (s.joinStream context) := by
  rw [joinStream]
  split
  · exact prepare_sends context _ s
  · exact SendsPlain.of_written rfl

theorem tryBuffering_sends (s : CommandSession) : SendsPlain s (s.tryBuffering context) := by
  rw [tryBuffering]
  split
  · exact processEvent_sends context .buffer (by decide) stopConnection_written s
  · exact SendsPlain.of_written rfl

theorem chunkConsumed_sends (chunk : Chunk) (s : CommandSession) :
    SendsPlain s (s.chunkConsumed context chunk) := by
  rw [chunkConsumed]
  split
  · have hdrain := processEvent_sends context .drain (by decide) stopConnection_written s
    exact hdrain.trans (SendsPlain.of_written rfl)
  · exact SendsPlain.of_written rfl

theorem onSTMt_sends (receiveTimestamp : Timestamp) (d : STAT) (s : CommandSession) :
    SendsPlain s (s.onSTMt context receiveTimestamp d) := by
  obtain ⟨_, _, _, _, _, _, h⟩ := onSTMt_eq context receiveTimestamp d s
  rw [h]
  exact SendsPlain.of_written rfl

theorem onSTAT_sends (timestamp : Timestamp) (d : STAT) (s : CommandSession) :
    SendsPlain s (s.onSTAT context timestamp d).1 := by
  have hreset : SendsPlain s { s with measuringLatency := false } := SendsPlain.of_written rfl
  rw [onSTAT]
  cases StatEvent.find d.event with
  | none => exact SendsPlain.of_written rfl
  | some event =>
    cases event with
    | STMf => exact hreset.trans (processEvent_sends context .flushed (by decide) (fun _ => rfl) _)
    | STMt => exact onSTMt_sends context timestamp d s
    | STMu =>
      refine hreset.trans ?_
      show SendsPlain _ (onSTMu { s with measuringLatency := false })
      rw [onSTMu]
      split
      · exact send_sends rfl _
      · exact SendsPlain.of_written rfl
    | _ => exact SendsPlain.of_written rfl

theorem onHELO_sends (h : HELO) (s : CommandSession) : SendsPlain s (s.onHELO context h) := by
  have hcommands : ∀ command ∈ handshakeCommands s.gain, command.isPlain = true := by
    simp [handshakeCommands, ServerCommand.isPlain, ServerCommand.isUnpause,
      ServerCommand.timeIndex]
  rw [onHELO]
  split
  · exact SendsPlain.of_written rfl
  · have hfold : SendsPlain { s with commandHELO := some h } _ :=
      Sends.foldl hcommands { s with commandHELO := some h }
    have hsent : SendsPlain s (s.sendHandshake h) :=
      (SendsPlain.of_written rfl).trans
        (hfold.trans ((SendsPlain.of_written rfl).trans (send_sends rfl _)))
    exact hsent.trans (processEvent_sends context .handshake (by decide) stopConnection_written _)

theorem deliver_sends (timestamp : Timestamp) (command : ClientCommand) (s : CommandSession) :
    SendsPlain s (s.deliver context timestamp command) := by
  have hreset : SendsPlain s { s with measuringLatency := false } := SendsPlain.of_written rfl
  cases command with
  | STAT d => exact onSTAT_sends context timestamp d s
  | HELO helo => exact hreset.trans (onHELO_sends context helo _)
  | _ => exact hreset

/-! ### The start of the playback -/

/-- The start time in an `STRM` Unpause is on the player's clock, by the estimated offset. -/
theorem tryPlaying_sends (s : CommandSession) :
    Sends (fun command => ∃ estimate ∈ s.timeOffset,
      command = .unpauseAt (context.streamer.playbackStartTime.minus estimate)) s
        (s.tryPlaying context) := by
  rcases tryPlaying_cases context s with ⟨-, hready, h⟩ | h
  · rw [h]
    rw [isReadyToPlay] at hready
    simp only [Bool.and_eq_true] at hready
    obtain ⟨estimate, hestimate⟩ := Option.isSome_iff_exists.mp hready.1.2
    refine Sends.trans ?_ (Sends.of_written rfl)
    rw [stateChangeToPlaying]
    refine Sends.send ⟨estimate, hestimate, ?_⟩ s
    rw [hestimate, Option.getD_some]
  · rw [h]
    exact Sends.of_written rfl

/-- **What the delivery of a chunk sends.** -/
theorem consumeChunk_sends (answer : Bool) (chunk : Chunk) (s : CommandSession) :
    Sends (fun command => command.isPlain = true ∨ ∃ estimate ∈ s.timeOffset,
      command = .unpauseAt (context.streamer.playbackStartTime.minus estimate)) s
        (s.consumeChunk context answer chunk).2 := by
  let allowed : ServerCommand → Prop := fun command => command.isPlain = true ∨
    ∃ estimate ∈ s.timeOffset,
      command = .unpauseAt (context.streamer.playbackStartTime.minus estimate)
  have hleft : ∀ command : ServerCommand, command.isPlain = true → allowed command :=
    fun _ hc => Or.inl hc
  have hready : Sends allowed s ((s.joinStream context).tryBuffering context) :=
    Sends.imp hleft ((joinStream_sends context s).trans (tryBuffering_sends context _))
  have hsame := Changes.sameMeasurement ((joinStream_changes context s).trans
    (tryBuffering_changes context _))
  have hplaying := tryPlaying_sends context ((s.joinStream context).tryBuffering context)
  rw [hsame.timeOffset] at hplaying
  have hplaying' : Sends allowed s
      (((s.joinStream context).tryBuffering context).tryPlaying context) :=
    hready.trans (hplaying.imp fun _ hc => Or.inr hc)
  rw [consumeChunk_eq]
  dsimp only
  split
  · split
    · exact hplaying'
    · exact hplaying'.trans ((chunkConsumed_sends context chunk _).imp hleft)
  · exact hready

theorem consumeChunk_timesWritten (answer : Bool) (chunk : Chunk) (s : CommandSession) :
    (s.consumeChunk context answer chunk).2.timesWritten = s.timesWritten := by
  refine Sends.timesWritten ((consumeChunk_sends context answer chunk s).imp ?_)
  rintro command (hplain | ⟨estimate, -, rfl⟩)
  · exact timeIndex_of_plain hplain
  · rfl

/-- **The Unpause of a delivered chunk.** -/
theorem consumeChunk_unpause (answer : Bool) (chunk : Chunk) (s : CommandSession) {v : ℕ}
    (hv : .unpause v ∈ (s.consumeChunk context answer chunk).2.written.drop s.written.length) :
    ∃ estimate ∈ s.timeOffset,
      v = toUInt32 (context.streamer.playbackStartTime.minus estimate).milliseconds := by
  rcases (consumeChunk_sends context answer chunk s).mem_drop hv with
    hfalse | ⟨estimate, hestimate, heq⟩
  · cases hfalse
  · exact ⟨estimate, hestimate, by injection heq⟩

end CommandSession

end SlimStreamer
