import SlimStreamer.Proto.LatencyMeasurement
import SlimStreamer.Proto.StreamerSystem

/-!
# Runs of one SlimProto session

What happens to a `CommandSession` between its start and its end, as calls: the messages taken
out of the ring, the pings, and what the Streamer calls.  Whatever a run of the Streamer does to
a registered session is such calls, so that what holds for all of them holds for every session
of the Streamer.

* `SessionCall`, `sessionSystem` — the calls, in any order;
* `Evolves` — calls of one kind; `onRequest_evolves`;
* `received_evolves`, `step_evolves`, `http_evolves` — what the calls to the Streamer do to its
  sessions.
-/

namespace SlimStreamer

namespace CommandSession

/-- A call to a session, or what the octets received make of it. -/
inductive SessionCall where
  /-- Octets entered or left the ring. -/
  | buffered (ring : Ring UInt8)
  | message (context : Context) (timestamp : Timestamp) (command : ClientCommand)
  /-- A message that could not be read ends a measurement, too. -/
  | unreadable
  | pingTimer (context : Context)
  | pingHandler (context : Context)
  | prepare (context : Context) (rate : ℕ)
  | setStreamingSession (streamingSession : Option ℕ)
  | consumeChunk (context : Context) (answer : Bool) (chunk : Chunk)
  | stop (context : Context)

def call (s : CommandSession) : SessionCall → CommandSession
  | .buffered ring => { s with commandRingBuffer := ring }
  | .message context timestamp command => s.deliver context timestamp command
  | .unreadable => { s with measuringLatency := false }
  | .pingTimer context => s.onPingTimer context
  | .pingHandler context => s.onPingHandler context
  | .prepare context rate => s.prepare context rate
  | .setStreamingSession streamingSession => s.setStreamingSession streamingSession
  | .consumeChunk context answer chunk => (s.consumeChunk context answer chunk).2
  | .stop context => s.stop context

def sessionSystem : GuardedExecution.System CommandSession SessionCall where
  enabled _ _ := True
  step := call

/-- What the octets of the player and the pings make of the session. -/
def SessionCall.isReceived : SessionCall → Bool
  | .buffered _ | .message _ _ _ | .unreadable | .pingTimer _ | .pingHandler _ => true
  | _ => false

/-- The calls that set the HTTP session. -/
def SessionCall.isAttachment : SessionCall → Bool
  | .setStreamingSession _ => true
  | _ => false

/-- All the others. -/
def SessionCall.isDetached (c : SessionCall) : Bool := !c.isAttachment

theorem SessionCall.detached_of_received {c : SessionCall} (h : c.isReceived = true) :
    c.isDetached = true := by
  cases c with
  | setStreamingSession _ => exact Bool.noConfusion h
  | _ => rfl

/-- Calls of one kind lead from one state of a session to another. -/
def Evolves (kind : SessionCall → Bool) (s s' : CommandSession) : Prop :=
  ∃ calls : List SessionCall, (∀ c ∈ calls, kind c = true) ∧ s' = sessionSystem.exec s calls

section Evolves

variable {kind : SessionCall → Bool} {s s' s'' : CommandSession}

theorem Evolves.refl (s : CommandSession) : Evolves kind s s := ⟨[], List.forall_mem_nil _, rfl⟩

theorem Evolves.of_call {c : SessionCall} (h : kind c = true) (s : CommandSession) :
    Evolves kind s (s.call c) :=
  ⟨[c], List.forall_mem_singleton.mpr h, rfl⟩

theorem Evolves.trans (h : Evolves kind s s') (h' : Evolves kind s' s'') :
    Evolves kind s s'' := by
  obtain ⟨calls, hcalls, rfl⟩ := h
  obtain ⟨calls', hcalls', rfl⟩ := h'
  refine ⟨calls ++ calls', List.forall_mem_append.mpr ⟨hcalls, hcalls'⟩, ?_⟩
  rw [GuardedExecution.System.exec_append]

theorem Evolves.mono {kind' : SessionCall → Bool} (hkind : ∀ c, kind c = true → kind' c = true)
    (h : Evolves kind s s') : Evolves kind' s s' := by
  obtain ⟨calls, hcalls, rfl⟩ := h
  exact ⟨calls, fun c hc => hkind c (hcalls c hc), rfl⟩

/-- **The rule for evolving sessions**: what each call keeps, holds in the end. -/
theorem Evolves.keeps {P : CommandSession → Prop}
    (hcall : ∀ s c, kind c = true → P s → P (s.call c)) (h : Evolves kind s s') (hs : P s) :
    P s' := by
  obtain ⟨calls, hcalls, rfl⟩ := h
  induction calls generalizing s with
  | nil => exact hs
  | cons c calls ih =>
    rw [List.forall_mem_cons] at hcalls
    exact ih (hcall s c hcalls.1 hs) hcalls.2

end Evolves

/-! ### Received octets -/

theorem requestTurn_evolves (context : Context) (timestamp : Timestamp) (s : CommandSession) :
    Evolves SessionCall.isReceived s (s.requestTurn context timestamp).session := by
  have hmessage (command : ClientCommand) : Evolves SessionCall.isReceived s
      (s.deliver context timestamp command) :=
    Evolves.of_call (c := .message context timestamp command) rfl s
  have hturn := requestTurn_turned context timestamp s
  generalize s.requestTurn context timestamp = turn at hturn
  cases hturn with
  | rest hrest => exact Evolves.refl s
  | skipped h4 hfind => exact Evolves.of_call (c := .buffered s.commandRingBuffer.pop) rfl s
  | @unreadable label e hconstruct =>
    show Evolves SessionCall.isReceived s (s.interfere label)
    rw [interfere]
    by_cases hlabel : label = .STAT
    · rw [if_pos hlabel]
      exact Evolves.refl s
    · rw [if_neg hlabel]
      exact Evolves.of_call (c := .unreadable) rfl s
  | @divided label command hconstruct =>
    rw [handle_flagged context timestamp hconstruct]
    exact hmessage command
  | @processed label command hmessage' hconstruct =>
    rw [handle_flagged context timestamp hconstruct]
    exact (hmessage command).trans (Evolves.of_call (c := .buffered _) rfl _)

/-- **A call of `onRequest` is the messages it takes out of the ring.** -/
theorem onRequest_evolves (receipt : Receipt) (s : CommandSession) :
    Evolves SessionCall.isReceived s (s.onRequest receipt).session :=
  onRequest_rule (R := Evolves SessionCall.isReceived) Evolves.refl Evolves.trans
    (fun context s => requestTurn_evolves context receipt.timestamp s)
    (fun s ring => Evolves.of_call (c := .buffered ring) rfl s) rfl s

end CommandSession

namespace Streamer

open CommandSession (Evolves SessionCall)

/-! ### What a chunk does to the sessions -/

section Chunk

variable (environment : Environment) (answers : ℕ → Bool) (chunk : Chunk)

/-- The sessions once a chunk has passed the branches before the distribution: all of them were
prepared, or none. -/
theorem beforeStreaming_sessions (t : Streamer) :
    (t.beforeStreaming environment chunk).2.commandSessions =
      if t.state = .started ∧ chunk.samplingRate ≠ 0 then
        t.commandSessions.map fun e =>
          (e.1, e.2.prepare ((t.setSamplingRate chunk.samplingRate).context environment)
            chunk.samplingRate)
      else t.commandSessions := by
  rw [beforeStreaming, (consumePreparing_stream environment _).commandSessions]
  by_cases h : t.state = .started
  · by_cases hrate : chunk.samplingRate = 0
    · rw [consumeStarted, if_pos h, if_neg (not_not.mpr hrate), if_neg (fun hc => hc.2 hrate)]
    · rw [consumeStarted_of_started environment chunk (r := (false, t)) h hrate, if_pos ⟨h, hrate⟩]
      rfl
  · rw [consumeStarted, if_neg h, if_neg (fun hc => h hc.1)]

/-- **The sessions after a chunk**: those it is due for were offered it, if it is distributed. -/
theorem consumeChunk_sessions {t : Streamer} (ht : Registered t) :
    (t.consumeChunk environment answers chunk).2.commandSessions =
      let before := (t.beforeStreaming environment chunk).2
      if before.isStreaming = true ∧ before.samplingRate = chunk.samplingRate then
        before.commandSessions.map (offered ((before.tryPlaying environment).context environment)
          answers chunk before.streamedChunks before.sessionToChunkSequenceMap)
      else before.commandSessions := by
  have hbefore := ht.of_same (beforeStreaming_registry environment chunk t)
  rw [consumeChunk, (consumeDraining_stream environment _).commandSessions]
  dsimp only
  generalize t.beforeStreaming environment chunk = r at hbefore
  cases h : r.2.isStreaming with
  | false =>
    rw [consumeStreaming_of_not environment answers chunk h,
      if_neg fun hc => Bool.false_ne_true hc.1]
  | true =>
    have hplay := tryPlaying_stream environment r.2
    have hround := streamChunk_commandSessions environment answers chunk
      (hbefore.of_same hplay.registry)
    rw [hplay.commandSessions, hplay.streamedChunks, hplay.entries] at hround
    rw [consumeStreaming_eq environment answers chunk h]
    dsimp only
    rw [hplay.samplingRate]
    by_cases hrate : r.2.samplingRate = chunk.samplingRate
    · have hboth : true = true ∧ r.2.samplingRate = chunk.samplingRate := ⟨rfl, hrate⟩
      rw [if_pos hrate, if_pos hboth, ← hround]
      split <;> rfl
    · have hnot : ¬ (true = true ∧ r.2.samplingRate = chunk.samplingRate) := fun hc => hrate hc.2
      rw [if_neg hrate, if_neg hnot]
      exact hplay.commandSessions

end Chunk

/-! ### What the calls do to the HTTP sessions -/

/-- The HTTP sessions, and those of them that are to be removed, are the same. -/
structure SameHTTP (t t' : Streamer) : Prop where
  streamingSessions : t'.streamingSessions = t.streamingSessions
  removals : t'.removals = t.removals

theorem SameHTTP.trans {t t' t'' : Streamer} (h : SameHTTP t t') (h' : SameHTTP t' t'') :
    SameHTTP t t'' :=
  ⟨h'.streamingSessions.trans h.streamingSessions, h'.removals.trans h.removals⟩

/-- No action of the Streamer's state machine touches them. -/
theorem transitions_http (environment : Environment) :
    ∀ transition ∈ transitions environment, ∀ t : Streamer, SameHTTP t (transition.action t) := by
  intro transition h t
  rcases transitions_action h with haction | ⟨_, haction⟩ | ⟨_, haction⟩ | ⟨_, haction⟩ |
    ⟨_, haction⟩
  all_goals
    rw [haction]
    exact ⟨rfl, rfl⟩

theorem processEvent_http (environment : Environment) (event : Event) (t : Streamer) :
    SameHTTP t (t.processEvent environment event).2 := by
  rcases (stateMachine environment).processEvent_cases event id t with
    ⟨transition, hmem, _, _, _, hfire⟩ | hsame | hsame
  · rw [processEvent, hfire]
    exact (transitions_http environment transition hmem t).trans ⟨rfl, rfl⟩
  · rw [processEvent, hsame]
    exact ⟨rfl, rfl⟩
  · rw [processEvent, hsame]
    exact ⟨rfl, rfl⟩

theorem consumeChunk_http (environment : Environment) (answers : ℕ → Bool) (chunk : Chunk)
    (t : Streamer) : SameHTTP t (t.consumeChunk environment answers chunk).2 := by
  have hstarted : SameHTTP t (consumeStarted environment chunk (false, t)).2 := by
    rw [consumeStarted]
    split
    · split
      · have hset : SameHTTP t (t.setSamplingRate chunk.samplingRate) := ⟨rfl, rfl⟩
        exact hset.trans (processEvent_http environment _ _)
      · exact ⟨rfl, rfl⟩
    · exact ⟨rfl, rfl⟩
  have hpreparing (r : Bool × Streamer) : SameHTTP r.2 (consumePreparing environment r).2 := by
    rw [consumePreparing]
    split
    · exact processEvent_http environment _ _
    · exact ⟨rfl, rfl⟩
  have hplaying (t : Streamer) : SameHTTP t (t.tryPlaying environment) := by
    rw [tryPlaying]
    split
    · exact processEvent_http environment _ _
    · exact ⟨rfl, rfl⟩
  have hround (t : Streamer) : SameHTTP t (t.streamChunk environment answers chunk).2 := by
    rw [streamChunk]
    split <;> exact ⟨rfl, rfl⟩
  have hstreaming (r : Bool × Streamer) :
      SameHTTP r.2 (consumeStreaming environment answers chunk r).2 := by
    cases h : r.2.isStreaming with
    | false =>
      rw [consumeStreaming_of_not environment answers chunk h]
      exact ⟨rfl, rfl⟩
    | true =>
      have hstreamed := (hplaying r.2).trans (hround _)
      rw [consumeStreaming_eq environment answers chunk h]
      dsimp only
      split
      · split
        · exact hstreamed.trans ⟨rfl, rfl⟩
        · exact hstreamed
      · exact (hplaying r.2).trans ⟨rfl, rfl⟩
  have hdraining (r : Bool × Streamer) : SameHTTP r.2 (consumeDraining environment r).2 := by
    rw [consumeDraining]
    split
    · exact processEvent_http environment _ _
    · exact ⟨rfl, rfl⟩
  exact ((hstarted.trans (hpreparing _)).trans (hstreaming _)).trans (hdraining _)

/-! ### What the calls do to the registered sessions -/

/-- Every registered session stays registered, and evolves. -/
def SessionsEvolve (kind : SessionCall → Bool) (t t' : Streamer) : Prop :=
  ∃ f : ℕ × CommandSession → ℕ × CommandSession, t'.commandSessions = t.commandSessions.map f ∧
    ∀ e, (f e).1 = e.1 ∧ Evolves kind e.2 (f e).2

section SessionsEvolve

variable {kind : SessionCall → Bool} {t t' t'' : Streamer}

theorem SessionsEvolve.of_same (h : t'.commandSessions = t.commandSessions) :
    SessionsEvolve kind t t' :=
  ⟨id, by rw [h, List.map_id], fun e => ⟨rfl, Evolves.refl e.2⟩⟩

theorem SessionsEvolve.trans (h : SessionsEvolve kind t t') (h' : SessionsEvolve kind t' t'') :
    SessionsEvolve kind t t'' := by
  obtain ⟨f, hf, hevolves⟩ := h
  obtain ⟨g, hg, hevolves'⟩ := h'
  refine ⟨g ∘ f, by rw [hg, hf, List.map_map], fun e => ⟨?_, ?_⟩⟩
  · exact (hevolves' (f e)).1.trans (hevolves e).1
  · exact (hevolves e).2.trans (hevolves' (f e)).2

theorem SessionsEvolve.mono {kind' : SessionCall → Bool}
    (hkind : ∀ c, kind c = true → kind' c = true) (h : SessionsEvolve kind t t') :
    SessionsEvolve kind' t t' := by
  obtain ⟨f, hf, hevolves⟩ := h
  exact ⟨f, hf, fun e => ⟨(hevolves e).1, (hevolves e).2.mono hkind⟩⟩

theorem SessionsEvolve.apply (connection : ℕ) {fn : CommandSession → CommandSession}
    (hfn : ∀ s, Evolves kind s (fn s)) (t : Streamer) :
    SessionsEvolve kind t (t.applyToCommandSession connection fn) := by
  refine ⟨_, rfl, fun e => ?_⟩
  split
  · exact ⟨rfl, hfn e.2⟩
  · exact ⟨rfl, Evolves.refl e.2⟩

/-- A registered session comes from a registered one. -/
theorem SessionsEvolve.mem (h : SessionsEvolve kind t t') {e : ℕ × CommandSession}
    (he : e ∈ t'.commandSessions) :
    ∃ d ∈ t.commandSessions, d.1 = e.1 ∧ Evolves kind d.2 e.2 := by
  obtain ⟨f, hf, hevolves⟩ := h
  rw [hf] at he
  obtain ⟨d, hd, rfl⟩ := List.mem_map.mp he
  exact ⟨d, hd, (hevolves d).1.symm, (hevolves d).2⟩

end SessionsEvolve

theorem chunk_evolves (environment : Environment) (answers : ℕ → Bool) (chunk : Chunk)
    {t : Streamer} (ht : Registered t) :
    SessionsEvolve SessionCall.isDetached t (t.consumeChunk environment answers chunk).2 := by
  have hbefore :
      SessionsEvolve SessionCall.isDetached t (t.beforeStreaming environment chunk).2 := by
    have hsessions := beforeStreaming_sessions environment chunk t
    split at hsessions
    · refine ⟨_, hsessions, fun e => ⟨rfl, ?_⟩⟩
      exact Evolves.of_call (c := .prepare _ _) rfl e.2
    · exact SessionsEvolve.of_same hsessions
  refine hbefore.trans ?_
  have hsessions := consumeChunk_sessions environment answers chunk ht
  dsimp only at hsessions
  split at hsessions
  · refine ⟨_, hsessions, fun e => ?_⟩
    rw [offered]
    split
    · exact ⟨rfl, Evolves.of_call (c := .consumeChunk _ _ _) rfl e.2⟩
    · exact ⟨rfl, Evolves.refl e.2⟩
  · exact SessionsEvolve.of_same hsessions

/-- The calls made by the octets of a player and by the pings. -/
def isReceived : Stimulus → Bool
  | .slimProtoData _ _ _ _ | .pingTimer _ _ | .pingHandler _ _ => true
  | _ => false

theorem received_evolves (t : Streamer) {e : Stimulus} (he : isReceived e = true) :
    SessionsEvolve SessionCall.isReceived t (step t e) ∧ SameHTTP t (step t e) := by
  cases e with
  | slimProtoData connection buffer timestamp environments =>
    show SessionsEvolve SessionCall.isReceived t
      (t.onSlimProtoData connection buffer timestamp environments) ∧
      SameHTTP t (t.onSlimProtoData connection buffer timestamp environments)
    have happly := SessionsEvolve.apply connection
      (CommandSession.onRequest_evolves ⟨buffer, timestamp, fun n => t.context (environments n)⟩) t
    rw [onSlimProtoData]
    split
    · exact ⟨SessionsEvolve.of_same rfl, rfl, rfl⟩
    · dsimp only
      split
      · exact ⟨happly.trans (SessionsEvolve.of_same rfl), rfl, rfl⟩
      · exact ⟨happly, rfl, rfl⟩
  | pingTimer connection environment =>
    exact ⟨SessionsEvolve.apply connection
      (fun s => Evolves.of_call (c := .pingTimer (t.context environment)) rfl s) t, rfl, rfl⟩
  | pingHandler connection environment =>
    exact ⟨SessionsEvolve.apply connection
      (fun s => Evolves.of_call (c := .pingHandler (t.context environment)) rfl s) t, rfl, rfl⟩
  | _ => exact Bool.noConfusion he

/-- The calls that neither open or close a SlimProto connection nor concern an HTTP connection. -/
def isInternal : Stimulus → Bool
  | .slimProtoOpen _ _ | .slimProtoClose _ | .httpData _ _ | .httpClose _ | .httpRemoved _ => false
  | _ => true

/-- **What the other calls do**: the sessions evolve, and the HTTP sessions stay. -/
theorem step_evolves {t : Streamer} (ht : Registered t) {e : Stimulus} (he : isInternal e = true) :
    SessionsEvolve SessionCall.isDetached t (step t e) ∧ SameHTTP t (step t e) := by
  by_cases hreceived : isReceived e = true
  · obtain ⟨hsessions, hhttp⟩ := received_evolves t hreceived
    exact ⟨hsessions.mono fun _ => SessionCall.detached_of_received, hhttp⟩
  cases e with
  | start environment =>
    refine ⟨SessionsEvolve.of_same ?_, processEvent_http environment _ t⟩
    show (t.processEvent environment .start).2.commandSessions = _
    rw [processEvent_start]
    split <;> rfl
  | stop environment =>
    refine ⟨?_, processEvent_http environment _ t⟩
    show SessionsEvolve SessionCall.isDetached t (t.processEvent environment .stop).2
    rw [processEvent_stop]
    split
    · exact SessionsEvolve.of_same rfl
    · exact ⟨_, rfl, fun e => ⟨rfl, Evolves.of_call (c := .stop _) rfl e.2⟩⟩
  | chunk environment answers chunk =>
    exact ⟨chunk_evolves environment answers chunk ht,
      consumeChunk_http environment answers chunk t⟩
  | slimProtoData _ _ _ _ | pingTimer _ _ | pingHandler _ _ => exact absurd rfl hreceived
  | _ => exact Bool.noConfusion he

theorem setStreamingSession_evolves (connection : ℕ) (reference : Option ℕ) (t : Streamer) :
    SessionsEvolve SessionCall.isAttachment t (t.setStreamingSession connection reference) :=
  SessionsEvolve.apply connection
    (fun s => Evolves.of_call (c := .setStreamingSession reference) rfl s) t

/-- The calls made by the HTTP connections. -/
def isHTTP : Stimulus → Bool
  | .httpData _ _ | .httpClose _ | .httpRemoved _ => true
  | _ => false

/-- **What the HTTP connections do** to the SlimProto sessions: they set references. -/
theorem http_evolves (t : Streamer) {e : Stimulus} (he : isHTTP e = true) :
    SessionsEvolve SessionCall.isAttachment t (step t e) := by
  cases e with
  | httpData connection buffer =>
    show SessionsEvolve SessionCall.isAttachment t (t.onHTTPData connection buffer).1
    rw [onHTTPData]
    split
    · exact SessionsEvolve.of_same rfl
    · split
      · exact SessionsEvolve.of_same rfl
      · split
        · exact SessionsEvolve.of_same rfl
        · exact setStreamingSession_evolves _ _ t
  | httpClose connection =>
    show SessionsEvolve SessionCall.isAttachment t (t.onHTTPClose connection)
    rw [onHTTPClose]
    split
    · exact SessionsEvolve.of_same rfl
    · dsimp only
      split
      · exact SessionsEvolve.of_same rfl
      · exact setStreamingSession_evolves _ _ t
  | httpRemoved connection => exact SessionsEvolve.of_same rfl
  | _ => exact Bool.noConfusion he

end Streamer

end SlimStreamer
