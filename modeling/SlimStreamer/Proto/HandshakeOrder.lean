import SlimStreamer.Proto.SentCommands
import SlimStreamer.Proto.StreamReference

/-!
# The handshake and the first stream

A session is registered when its connection opens, before the player says `HELO`.  A chunk that
reaches it first makes it prepare: the player is sent `STRM` Start, and its `HELO` finds the
session in Preparing, where the Handshake event has no transition and closes the connection.

* `Greets` — the session waits in Started for the first `HELO`, or has had it;
* `reachesSessions` — the chunks that prepare sessions or are handed to them;
* `hello_accepted` — as long as these wait for the `HELO` of every session, each is accepted.
-/

namespace SlimStreamer

namespace CommandSession

/-- Whoever has not said `HELO` was not started and is in Started; the connection stays. -/
structure Greets (s : CommandSession) : Prop where
  connected : s.stopRequested = false
  state : s.commandHELO = none → s.state = .started
  notStarted : s.commandHELO = none → ∀ command ∈ s.written, command.isStart = false

/-! ### What keeps a session waiting -/

/-- Neither the handshake nor a stop of the connection happens. -/
structure SameHello (s s' : CommandSession) : Prop where
  commandHELO : s'.commandHELO = s.commandHELO
  stopRequested : s'.stopRequested = s.stopRequested

theorem SameHello.refl (s : CommandSession) : SameHello s s := ⟨rfl, rfl⟩

theorem SameHello.trans {s s' s'' : CommandSession} (h : SameHello s s') (h' : SameHello s' s'') :
    SameHello s s'' :=
  ⟨h'.commandHELO.trans h.commandHELO, h'.stopRequested.trans h.stopRequested⟩

theorem Change.sameHello {s s' : CommandSession} (h : Change s s') : SameHello s s' := by
  cases h with
  | stopped => split <;> exact ⟨rfl, rfl⟩
  | _ => exact ⟨rfl, rfl⟩

theorem Changes.sameHello {s s' : CommandSession} (h : Changes s s') : SameHello s s' :=
  h.keeps SameHello.refl SameHello.trans Change.sameHello

/-- A started session stays started, and is sent no `STRM` Start. -/
structure KeepsWaiting (s s' : CommandSession) : Prop extends SameHello s s' where
  state : s.state = .started → s'.state = .started
  sends : Sends (fun command => command.isStart = false) s s'

theorem KeepsWaiting.greets {s s' : CommandSession} (h : KeepsWaiting s s') (hs : Greets s) :
    Greets s' where
  connected := h.stopRequested.trans hs.connected
  state hnone := h.state (hs.state (h.commandHELO ▸ hnone))
  notStarted hnone := by
    obtain ⟨commands, hwritten, hp⟩ := h.sends
    rw [hwritten]
    intro command hc
    rcases List.mem_append.mp hc with hc | hc
    · exact hs.notStarted (h.commandHELO ▸ hnone) command hc
    · exact hp command hc

/-- Nothing of what matters for the handshake changes. -/
theorem KeepsWaiting.of_same {s s' : CommandSession} (hhello : s'.commandHELO = s.commandHELO)
    (hstop : s'.stopRequested = s.stopRequested) (hstate : s'.state = s.state)
    (hwritten : s'.written = s.written) : KeepsWaiting s s' :=
  ⟨⟨hhello, hstop⟩, fun h => hstate.trans h, Sends.of_written hwritten⟩

/-- One command is sent, and it is not a start. -/
theorem KeepsWaiting.of_sent {s s' : CommandSession} (command : ServerCommand)
    (hcommand : command.isStart = false) (hhello : s'.commandHELO = s.commandHELO)
    (hstop : s'.stopRequested = s.stopRequested) (hstate : s'.state = s.state)
    (hwritten : s'.written = s.written ++ [command]) : KeepsWaiting s s' :=
  ⟨⟨hhello, hstop⟩, fun h => hstate.trans h, [command], hwritten,
    List.forall_mem_singleton.mpr hcommand⟩

variable (context : Context)

theorem onSTAT_waiting (timestamp : Timestamp) (d : STAT) (s : CommandSession) :
    KeepsWaiting s (s.onSTAT context timestamp d).1 := by
  rw [onSTAT]
  cases StatEvent.find d.event with
  | none => exact .of_same rfl rfl rfl rfl
  | some event =>
    cases event with
    | STMf =>
      show KeepsWaiting s (({ s with measuringLatency := false }).onSTMf context)
      rw [onSTMf, processEvent_flushed]
      by_cases hd : s.state = .draining
      · rw [if_pos hd]
        exact ⟨⟨rfl, rfl⟩, fun _ => rfl, Sends.of_written rfl⟩
      · rw [if_neg hd]
        split <;> exact .of_same rfl rfl rfl rfl
    | STMt =>
      obtain ⟨_, _, _, _, _, _, h⟩ := onSTMt_eq context timestamp d s
      show KeepsWaiting s (s.onSTMt context timestamp d)
      rw [h]
      exact .of_same rfl rfl rfl rfl
    | STMu =>
      show KeepsWaiting s (onSTMu { s with measuringLatency := false })
      rw [onSTMu]
      split
      · exact .of_sent .stop rfl rfl rfl rfl rfl
      · exact .of_same rfl rfl rfl rfl
    | _ => exact .of_same rfl rfl rfl rfl

theorem ping_waiting (now : Timestamp) (index : ℕ) (s : CommandSession) :
    KeepsWaiting s (s.ping now index) :=
  .of_sent (.time (index + 1)) rfl rfl rfl rfl rfl

theorem onPingTimer_waiting (s : CommandSession) : KeepsWaiting s (s.onPingTimer context) := by
  rw [onPingTimer, ping]
  exact .of_sent _ rfl rfl rfl rfl rfl

theorem onPingHandler_waiting (s : CommandSession) : KeepsWaiting s (s.onPingHandler context) := by
  rw [onPingHandler]
  split
  · exact .of_same rfl rfl rfl rfl
  · rename_i index rest _
    obtain ⟨hhello, hstate, hsends⟩ :=
      ping_waiting (context.clock 0) index { s with pingHandlers := rest }
    exact ⟨⟨hhello.commandHELO, hhello.stopRequested⟩, hstate, hsends⟩

theorem sendHandshake_same (helo : HELO) (s : CommandSession) :
    (s.sendHandshake helo).state = s.state ∧
      (s.sendHandshake helo).stopRequested = s.stopRequested ∧
      (s.sendHandshake helo).commandHELO = some helo := by
  simp [sendHandshake, handshakeCommands, schedulePing, send]

/-- **The first `HELO` is accepted in Started.** -/
theorem onHELO_started {s : CommandSession} (helo : HELO) (hnone : s.commandHELO = none)
    (hstate : s.state = .started) :
    s.onHELO context helo = (s.sendHandshake helo).setState .draining := by
  have hsent : (s.sendHandshake helo).state = .started := (sendHandshake_same helo s).1.trans hstate
  rw [onHELO, hnone, if_neg (by simp), processEvent_handshake, if_pos hsent]

theorem onHELO_greets (helo : HELO) {s : CommandSession} (hs : Greets s) :
    Greets (s.onHELO context helo) := by
  cases hhello : s.commandHELO with
  | some first =>
    rw [onHELO, hhello, if_pos (by simp)]
    exact hs
  | none =>
    obtain ⟨_, hstop, hgreeted⟩ := sendHandshake_same helo s
    rw [onHELO_started context helo hhello (hs.state hhello)]
    have hsome : ((s.sendHandshake helo).setState .draining).commandHELO ≠ none := by
      rw [setState, hgreeted]
      simp
    exact ⟨hstop.trans hs.connected, fun h => absurd h hsome, fun h => absurd h hsome⟩

theorem deliver_greets (timestamp : Timestamp) (command : ClientCommand) {s : CommandSession}
    (hs : Greets s) : Greets (s.deliver context timestamp command) := by
  have hreset : KeepsWaiting s { s with measuringLatency := false } := .of_same rfl rfl rfl rfl
  cases command with
  | STAT d => exact (onSTAT_waiting context timestamp d s).greets hs
  | HELO helo => exact onHELO_greets context helo (hreset.greets hs)
  | _ => exact hreset.greets hs

/-! ### The calls -/

/-- **Whatever a player sends**, it can say `HELO` later. -/
theorem received_greets (s : CommandSession) (c : SessionCall) (hc : c.isReceived = true)
    (hs : Greets s) : Greets (s.call c) := by
  cases c with
  | buffered ring =>
    have hcall : KeepsWaiting s (s.call (.buffered ring)) := .of_same rfl rfl rfl rfl
    exact hcall.greets hs
  | message context timestamp command => exact deliver_greets context timestamp command hs
  | unreadable =>
    have hcall : KeepsWaiting s (s.call .unreadable) := .of_same rfl rfl rfl rfl
    exact hcall.greets hs
  | pingTimer context => exact (onPingTimer_waiting context s).greets hs
  | pingHandler context => exact (onPingHandler_waiting context s).greets hs
  | _ => exact Bool.noConfusion hc

theorem attachment_greets (s : CommandSession) (c : SessionCall) (hc : c.isAttachment = true)
    (hs : Greets s) : Greets (s.call c) := by
  cases c with
  | setStreamingSession reference =>
    have hcall : KeepsWaiting s (s.call (.setStreamingSession reference)) :=
      .of_same rfl rfl rfl rfl
    exact hcall.greets hs
  | _ => exact Bool.noConfusion hc

/-- The player has said `HELO`, and the connection stays. -/
structure Greeted (s : CommandSession) : Prop where
  connected : s.stopRequested = false
  greeted : s.commandHELO.isSome = true

theorem Greeted.greets {s : CommandSession} (h : Greeted s) : Greets s := by
  have hsome : s.commandHELO ≠ none := Option.isSome_iff_ne_none.mp h.greeted
  exact ⟨h.connected, fun hnone => absurd hnone hsome, fun hnone => absurd hnone hsome⟩

theorem SameHello.greeted {s s' : CommandSession} (h : SameHello s s') (hs : Greeted s) :
    Greeted s' := by
  refine ⟨h.stopRequested.trans hs.connected, ?_⟩
  rw [h.commandHELO]
  exact hs.greeted

/-- After the first `HELO` no call makes the session close the connection. -/
theorem call_greeted (s : CommandSession) (c : SessionCall) (hc : c.isDetached = true)
    (hs : Greeted s) : Greeted (s.call c) := by
  cases c with
  | buffered ring =>
    have hcall : SameHello s (s.call (.buffered ring)) := ⟨rfl, rfl⟩
    exact hcall.greeted hs
  | message context timestamp command =>
    have hreset : Greeted { s with measuringLatency := false } := ⟨hs.connected, hs.greeted⟩
    cases command with
    | STAT d => exact (onSTAT_waiting context timestamp d s).toSameHello.greeted hs
    | HELO helo =>
      show Greeted (({ s with measuringLatency := false }).onHELO context helo)
      rw [onHELO, if_pos hreset.greeted]
      exact hreset
    | _ => exact hreset
  | unreadable =>
    have hcall : SameHello s (s.call .unreadable) := ⟨rfl, rfl⟩
    exact hcall.greeted hs
  | pingTimer context => exact (onPingTimer_waiting context s).toSameHello.greeted hs
  | pingHandler context => exact (onPingHandler_waiting context s).toSameHello.greeted hs
  | prepare context rate => exact (prepare_changes context rate s).sameHello.greeted hs
  | setStreamingSession reference => exact Bool.noConfusion hc
  | consumeChunk context answer chunk =>
    exact (consumeChunk_changes context answer chunk s).sameHello.greeted hs
  | stop context => exact (stop_changes context s).sameHello.greeted hs

end CommandSession

namespace Streamer

open GuardedExecution
open CommandSession hiding stopConnection

/-! ### The chunks that reach the sessions -/

/-- The chunk makes the Streamer prepare its sessions, or is distributed to them. -/
def reachesSessions (environment : Environment) (chunk : Chunk) (t : Streamer) : Bool :=
  (t.state == .started && chunk.samplingRate != 0) ||
    ((t.isStreaming || (t.state == .preparing && t.isReadyToBuffer (environment.clock 1))) &&
      t.samplingRate == chunk.samplingRate)

/-- A chunk that does not start the preparation at most makes the Streamer buffer. -/
theorem beforeStreaming_eq (environment : Environment) {chunk : Chunk} {t : Streamer}
    (h : ¬ (t.state = .started ∧ chunk.samplingRate ≠ 0)) :
    (t.beforeStreaming environment chunk).2 =
      if t.state = .preparing ∧ t.isReadyToBuffer (environment.clock 1) = true then
        (t.stateChangeToBuffering environment).setState .buffering
      else t := by
  have hstarted : (consumeStarted environment chunk (false, t)).2 = t := by
    rw [consumeStarted]
    split
    · rename_i hstate
      rw [if_neg fun hrate => h ⟨hstate, hrate⟩]
    · rfl
  rw [beforeStreaming, consumePreparing, hstarted]
  by_cases hstate : t.state = .preparing
  · rw [if_pos hstate, processEvent_buffer environment hstate]
    by_cases hready : t.isReadyToBuffer (environment.clock 1) = true
    · rw [if_pos hready, if_pos ⟨hstate, hready⟩]
    · rw [if_neg hready, if_neg fun hc => hready hc.2]
  · rw [if_neg hstate, if_neg fun hc => hstate hc.1, hstarted]

/-- **The other chunks leave every session alone.** -/
theorem consumeChunk_unreached (environment : Environment) (answers : ℕ → Bool) {chunk : Chunk}
    {t : Streamer} (ht : Registered t) (h : t.reachesSessions environment chunk = false) :
    (t.consumeChunk environment answers chunk).2.commandSessions = t.commandSessions := by
  rw [reachesSessions, Bool.or_eq_false_iff] at h
  obtain ⟨hprepare, hdistribute⟩ := h
  have hnot : ¬ (t.state = .started ∧ chunk.samplingRate ≠ 0) := by
    intro hc
    simp [hc.1, hc.2] at hprepare
  have hbefore := beforeStreaming_eq environment hnot
  have hsessions : (t.beforeStreaming environment chunk).2.commandSessions = t.commandSessions := by
    rw [hbefore]
    split <;> rfl
  have hunstreamed : ¬ ((t.beforeStreaming environment chunk).2.isStreaming = true ∧
      (t.beforeStreaming environment chunk).2.samplingRate = chunk.samplingRate) := by
    rw [hbefore]
    intro hc
    split at hc
    · rename_i hready
      have hrate : t.samplingRate = chunk.samplingRate := hc.2
      simp [hready.1, hready.2, hrate] at hdistribute
    · simp [hc.1, hc.2] at hdistribute
  rw [consumeChunk_sessions environment answers chunk ht]
  dsimp only
  rw [if_neg hunstreamed, hsessions]

/-! ### Runs -/

/-- Every registered player has said `HELO`. -/
def allGreeted (t : Streamer) : Bool := t.commandSessions.all fun e => e.2.commandHELO.isSome

/-- Chunks reach the sessions, and the Streamer stops, once every player has said `HELO`. -/
def awaitsHello (t : Streamer) : Stimulus → Prop
  | .chunk environment _ chunk => t.reachesSessions environment chunk = true → t.allGreeted = true
  | .stop _ => t.isRunning = true → t.allGreeted = true
  | _ => True

instance (t : Streamer) : DecidablePred (awaitsHello t)
  | .chunk environment _ chunk => inferInstanceAs (Decidable
      (t.reachesSessions environment chunk = true → t.allGreeted = true))
  | .stop _ => inferInstanceAs (Decidable (t.isRunning = true → t.allGreeted = true))
  | .start _ | .slimProtoOpen _ _ | .slimProtoClose _ | .slimProtoData _ _ _ _ | .pingTimer _ _
  | .pingHandler _ _ | .httpData _ _ | .httpClose _ | .httpRemoved _ => isTrue trivial

/-- What holds between two events. -/
structure Greeting (t : Streamer) : Prop extends Registered t where
  greets : ∀ e ∈ t.commandSessions, Greets e.2

variable {t : Streamer}

/-- Calls of a kind that lets every session wait. -/
theorem Greeting.evolve {kind : SessionCall → Bool} {t' : Streamer} (ht : Greeting t)
    (hkind : ∀ s c, kind c = true → Greets s → Greets (s.call c))
    (h : SessionsEvolve kind t t') : ∀ e ∈ t'.commandSessions, Greets e.2 := by
  intro e he
  obtain ⟨d, hd, _, hevolves⟩ := h.mem he
  exact hevolves.keeps hkind (ht.greets d hd)

/-- Once every player has said `HELO`, all calls are safe. -/
theorem Greeting.evolve_greeted {t' : Streamer} (ht : Greeting t) (hall : t.allGreeted = true)
    (h : SessionsEvolve SessionCall.isDetached t t') : ∀ e ∈ t'.commandSessions, Greets e.2 := by
  intro e he
  obtain ⟨d, hd, _, hevolves⟩ := h.mem he
  have hgreeted : Greeted d.2 :=
    ⟨(ht.greets d hd).connected, List.all_eq_true.mp hall d hd⟩
  exact (hevolves.keeps call_greeted hgreeted).greets

/-- A session waits for the `HELO` from the moment its connection opens. -/
theorem greets_open (ht : Greeting t) {connection : ℕ} {environment : Environment}
    (hopen : enabled t (.slimProtoOpen connection environment)) :
    ∀ e ∈ (t.onSlimProtoOpen connection environment).commandSessions, Greets e.2 := by
  intro e he
  rw [onSlimProtoOpen, addSession, lookup_none hopen, if_neg Bool.false_ne_true] at he
  rcases List.mem_append.mp he with he | he
  · exact ht.greets e he
  · obtain rfl := List.mem_singleton.mp he
    rw [CommandSession.start, CommandSession.processEvent_start]
    exact ⟨rfl, fun _ => rfl, fun _ => List.forall_mem_nil _⟩

/-- **Every call that awaits the `HELO`s lets the sessions wait.** -/
theorem greeting_step {e : Stimulus} (ht : Greeting t) (he : enabled t e)
    (hawaits : awaitsHello t e) : Greeting (step t e) := by
  refine ⟨registered_step ht.toRegistered he, ?_⟩
  by_cases hreceived : isReceived e = true
  · exact ht.evolve received_greets (received_evolves t hreceived).1
  by_cases hhttp : isHTTP e = true
  · exact ht.evolve attachment_greets (http_evolves t hhttp)
  cases e with
  | start environment =>
    show ∀ e ∈ (t.processEvent environment .start).2.commandSessions, Greets e.2
    rw [processEvent_start]
    split <;> exact ht.greets
  | stop environment =>
    by_cases hrunning : t.isRunning = true
    · exact ht.evolve_greeted (hawaits hrunning)
        (step_evolves (e := .stop environment) ht.toRegistered rfl).1
    · have hstopped : t.state = .stopped := by simpa [isRunning] using hrunning
      show ∀ e ∈ (t.processEvent environment .stop).2.commandSessions, Greets e.2
      rw [processEvent_stop, if_pos hstopped]
      exact ht.greets
  | slimProtoOpen connection environment => exact greets_open ht he
  | slimProtoClose connection => exact fun d hd => ht.greets d (mem_onSlimProtoClose hd)
  | chunk environment answers chunk =>
    by_cases hreaches : t.reachesSessions environment chunk = true
    · exact ht.evolve_greeted (hawaits hreaches)
        (chunk_evolves environment answers chunk ht.toRegistered)
    · rw [Bool.not_eq_true] at hreaches
      show ∀ e ∈ (t.consumeChunk environment answers chunk).2.commandSessions, Greets e.2
      rw [consumeChunk_unreached environment answers ht.toRegistered hreaches]
      exact ht.greets
  | slimProtoData _ _ _ _ | pingTimer _ _ | pingHandler _ _ => exact absurd rfl hreceived
  | httpData _ _ | httpClose _ | httpRemoved _ => exact absurd rfl hhttp

theorem greeting_create (streamingPort : ℕ) (format : FormatSelection) (gain : Option ℕ)
    (now : Timestamp) : Greeting (create streamingPort format gain now) :=
  ⟨registered_create streamingPort format gain now, List.forall_mem_nil _⟩

theorem greeting_exec (ht : Greeting t) (es : List Stimulus)
    (hes : (system.restrict awaitsHello).Admits t es) : Greeting (system.exec t es) := by
  rw [← System.restrict_exec system awaitsHello]
  exact (system.restrict awaitsHello).exec_invariant Greeting
    (fun _ _ ht he => greeting_step ht he.1 he.2) es t ht hes

/-- The session has not closed its connection; until the first `HELO` it has sent no `STRM`
Start, and the Handshake event of that `HELO` finds its transition. -/
structure AcceptsHello (s : CommandSession) : Prop where
  connected : s.stopRequested = false
  notStarted : s.commandHELO = none → ∀ command ∈ s.written, command.isStart = false
  accepts : s.commandHELO = none → ∀ context helo,
    ((s.sendHandshake helo).processEvent context .handshake CommandSession.stopConnection).1 = true ∧
      (s.onHELO context helo).stopRequested = false

theorem acceptsHello_of_greets {s : CommandSession} (hs : Greets s) : AcceptsHello s where
  connected := hs.connected
  notStarted := hs.notStarted
  accepts hnone context helo := by
    have hsent := (sendHandshake_same helo s).1.trans (hs.state hnone)
    refine ⟨?_, (onHELO_greets context helo hs).connected⟩
    rw [CommandSession.processEvent_handshake, if_pos hsent]

/-- **The handshake is accepted, and comes before the stream**, in every run in which chunks reach
the sessions only once every registered player has said `HELO`. -/
theorem hello_accepted (streamingPort : ℕ) (format : FormatSelection) (gain : Option ℕ)
    (now : Timestamp) (es : List Stimulus)
    (hes : (system.restrict awaitsHello).Admits (create streamingPort format gain now) es) :
    ∀ e ∈ (system.exec (create streamingPort format gain now) es).commandSessions,
      AcceptsHello e.2 := by
  intro e he
  have ht := greeting_exec (greeting_create streamingPort format gain now) es hes
  exact acceptsHello_of_greets (ht.greets e he)

/-- One player says `HELO` before the chunks, another opens its connection between two streams. -/
theorem hello_accepted_onePlayer :
    (system.exec (create 9001 .FLAC none ⟨0⟩)
      (onePlayer ++ [endOfStream true, .slimProtoOpen 3 quiet])).commandSessions.length = 2 ∧
    ∀ e ∈ (system.exec (create 9001 .FLAC none ⟨0⟩)
      (onePlayer ++ [endOfStream true, .slimProtoOpen 3 quiet])).commandSessions,
      AcceptsHello e.2 :=
  ⟨by decide +kernel, hello_accepted 9001 .FLAC none ⟨0⟩
    (onePlayer ++ [endOfStream true, .slimProtoOpen 3 quiet]) (by decide +kernel)⟩

/-- **A chunk between the connection and the `HELO`**: the player is started first, and its `HELO`
closes the connection. -/
theorem hello_rejected :
    let before := [.start quiet, .slimProtoOpen 1 quiet, .chunk quiet (fun _ => true) audio]
    let hello := .slimProtoData 1 (playerOctets ['H', 'E', 'L', 'O'] 36 []) ⟨0⟩ fun _ => quiet
    system.Admits (create 9001 .FLAC none ⟨0⟩) (before ++ [hello]) ∧
      (system.exec (create 9001 .FLAC none ⟨0⟩) before).commandSessions.any (fun e =>
        e.2.commandHELO.isNone && e.2.written.any ServerCommand.isStart) = true ∧
      (system.exec (create 9001 .FLAC none ⟨0⟩) (before ++ [hello])).commandSessions.any (fun e =>
        e.2.commandHELO.isSome && e.2.stopRequested) = true := by
  decide +kernel

end Streamer

end SlimStreamer
