import SlimStreamer.Lib.Execution
import SlimStreamer.Proto.Streamer

/-!
# Runs of the Streamer

The calls a Streamer gets from the scheduler, from its connections and from the event loop, in
any order, as a guarded system.  `Registered` is what every run keeps: the two maps over the
SlimProto sessions speak of the same sessions, and no two of these share a connection or an
address.

* `Stimulus`, `system` — the calls and their guards;
* `reachable_exec` — the maps agree in every reachable state, and no sequence number is more
  than one ahead;
* `round_eq` — one round of `streamChunk` there, session by session.
-/

namespace SlimStreamer

namespace Streamer

open GuardedExecution SequencedBroadcast

/-- A call to the Streamer, or to one of its SlimProto sessions. -/
inductive Stimulus where
  | start (environment : Environment)
  | stop (environment : Environment)
  | slimProtoOpen (connection : ℕ) (environment : Environment)
  | slimProtoClose (connection : ℕ)
  | slimProtoData (connection : ℕ) (buffer : List UInt8) (timestamp : Timestamp)
      (environments : ℕ → Environment)
  | pingTimer (connection : ℕ) (environment : Environment)
  | pingHandler (connection : ℕ) (environment : Environment)
  | httpData (connection : ℕ) (buffer : List UInt8)
  | httpClose (connection : ℕ)
  | httpRemoved (connection : ℕ)
  | chunk (environment : Environment) (answers : ℕ → Bool) (chunk : Chunk)

/-- A connection opens once before it closes, a timer has to be armed, a handler has to be
posted. -/
def enabled (t : Streamer) : Stimulus → Prop
  | .slimProtoOpen connection _ => connection ∉ t.commandSessions.map Prod.fst
  | .pingTimer connection _ =>
    (t.commandSessions.lookup connection).any (fun s => s.pingTimer.isSome) = true
  | .pingHandler connection _ =>
    (t.commandSessions.lookup connection).any (fun s => !s.pingHandlers.isEmpty) = true
  | .httpRemoved connection => connection ∈ t.removals
  | _ => True

instance (t : Streamer) : DecidablePred (enabled t)
  | .start _ => isTrue trivial
  | .stop _ => isTrue trivial
  | .slimProtoOpen connection _ =>
    inferInstanceAs (Decidable (connection ∉ t.commandSessions.map Prod.fst))
  | .slimProtoClose _ => isTrue trivial
  | .slimProtoData _ _ _ _ => isTrue trivial
  | .pingTimer connection _ =>
    inferInstanceAs (Decidable
      ((t.commandSessions.lookup connection).any (fun s => s.pingTimer.isSome) = true))
  | .pingHandler connection _ =>
    inferInstanceAs (Decidable
      ((t.commandSessions.lookup connection).any (fun s => !s.pingHandlers.isEmpty) = true))
  | .httpData _ _ => isTrue trivial
  | .httpClose _ => isTrue trivial
  | .httpRemoved connection => inferInstanceAs (Decidable (connection ∈ t.removals))
  | .chunk _ _ _ => isTrue trivial

def step (t : Streamer) : Stimulus → Streamer
  | .start environment => t.start environment
  | .stop environment => t.stop environment
  | .slimProtoOpen connection environment => t.onSlimProtoOpen connection environment
  | .slimProtoClose connection => t.onSlimProtoClose connection
  | .slimProtoData connection buffer timestamp environments =>
    t.onSlimProtoData connection buffer timestamp environments
  | .pingTimer connection environment => t.onPingTimer connection environment
  | .pingHandler connection environment => t.onPingHandler connection environment
  | .httpData connection buffer => (t.onHTTPData connection buffer).1
  | .httpClose connection => t.onHTTPClose connection
  | .httpRemoved connection => t.onHTTPRemoved connection
  | .chunk environment answers chunk => (t.consumeChunk environment answers chunk).2

def system : System Streamer Stimulus where
  enabled := enabled
  step := step

instance (t : Streamer) (e : Stimulus) : Decidable (system.enabled t e) :=
  inferInstanceAs (Decidable (enabled t e))

/-! ### Whose maps agree -/

structure Registered (t : Streamer) : Prop where
  same_sessions : t.sessionToChunkSequenceMap.map Prod.fst = addresses t.commandSessions
  connections : (t.commandSessions.map Prod.fst).Nodup
  addresses : (addresses t.commandSessions).Nodup
  fresh : ∀ address ∈ Streamer.addresses t.commandSessions, address ≤ t.nextID

/-- The same sessions are registered, under the same connections. -/
structure SameRegistry (t t' : Streamer) : Prop where
  entries : t'.sessionToChunkSequenceMap.map Prod.fst = t.sessionToChunkSequenceMap.map Prod.fst
  connections : t'.commandSessions.map Prod.fst = t.commandSessions.map Prod.fst
  addresses : addresses t'.commandSessions = addresses t.commandSessions
  nextID : t'.nextID = t.nextID

theorem SameRegistry.refl (t : Streamer) : SameRegistry t t := ⟨rfl, rfl, rfl, rfl⟩

theorem SameRegistry.trans {t t' t'' : Streamer} (h : SameRegistry t t')
    (h' : SameRegistry t' t'') : SameRegistry t t'' where
  entries := h'.entries.trans h.entries
  connections := h'.connections.trans h.connections
  addresses := h'.addresses.trans h.addresses
  nextID := h'.nextID.trans h.nextID

theorem Registered.of_same {t t' : Streamer} (ht : Registered t) (h : SameRegistry t t') :
    Registered t' where
  same_sessions := by rw [h.entries, h.addresses, ht.same_sessions]
  connections := by rw [h.connections]; exact ht.connections
  addresses := by rw [h.addresses]; exact ht.addresses
  fresh := by
    rw [h.addresses, h.nextID]
    exact ht.fresh

/-- Changing sessions in place, but not their addresses. -/
theorem map_sessions {f : ℕ × CommandSession → ℕ × CommandSession}
    (hf : ∀ e, (f e).1 = e.1 ∧ (f e).2.address = e.2.address)
    (sessions : List (ℕ × CommandSession)) :
    (sessions.map f).map Prod.fst = sessions.map Prod.fst ∧
      addresses (sessions.map f) = addresses sessions := by
  rw [addresses, addresses, List.map_map, List.map_map]
  exact ⟨List.map_congr_left fun e _ => (hf e).1, List.map_congr_left fun e _ => (hf e).2⟩

/-! ### What the calls for one session do -/

/-- **Everything a call for one session can do**: sessions change in place, without entering or
leaving a stream; what chunks are distributed by stays the same. -/
structure SessionsStep (t t' : Streamer) : Prop where
  state : t'.state = t.state
  nextID : t'.nextID = t.nextID
  streamedChunks : t'.streamedChunks = t.streamedChunks
  streamedFrames : t'.streamedFrames = t.streamedFrames
  entries : t'.sessionToChunkSequenceMap = t.sessionToChunkSequenceMap
  sessions : ∃ f : ℕ × CommandSession → ℕ × CommandSession,
    t'.commandSessions = t.commandSessions.map f ∧
      ∀ e, (f e).1 = e.1 ∧ (f e).2.address = e.2.address ∧ (f e).2.isInStream = e.2.isInStream

/-- No session changes. -/
theorem SessionsStep.of_same {t t' : Streamer} (hstate : t'.state = t.state)
    (hnext : t'.nextID = t.nextID) (hchunks : t'.streamedChunks = t.streamedChunks)
    (hframes : t'.streamedFrames = t.streamedFrames)
    (hentries : t'.sessionToChunkSequenceMap = t.sessionToChunkSequenceMap)
    (hsessions : t'.commandSessions = t.commandSessions) : SessionsStep t t' :=
  ⟨hstate, hnext, hchunks, hframes, hentries, id, by rw [hsessions, List.map_id],
    fun _ => ⟨rfl, rfl, rfl⟩⟩

/-- The session of one connection changes. -/
theorem SessionsStep.apply (connection : ℕ) (fn : CommandSession → CommandSession)
    (hfn : ∀ s, (fn s).address = s.address ∧ (fn s).isInStream = s.isInStream) (t : Streamer) :
    SessionsStep t (t.applyToCommandSession connection fn) := by
  refine ⟨rfl, rfl, rfl, rfl, rfl, _, rfl, fun e => ?_⟩
  split
  · exact ⟨rfl, hfn e.2⟩
  · exact ⟨rfl, rfl, rfl⟩

theorem SessionsStep.setStreamingSession (connection : ℕ) (streamingSession : Option ℕ)
    (t : Streamer) : SessionsStep t (t.setStreamingSession connection streamingSession) :=
  SessionsStep.apply connection (CommandSession.setStreamingSession streamingSession)
    (fun _ => ⟨rfl, rfl⟩) t

theorem SessionsStep.registry {t t' : Streamer} (h : SessionsStep t t') : SameRegistry t t' := by
  obtain ⟨f, hsessions, hf⟩ := h.sessions
  have hmap := map_sessions (fun e => ⟨(hf e).1, (hf e).2.1⟩) t.commandSessions
  rw [← hsessions] at hmap
  exact ⟨by rw [h.entries], hmap.1, hmap.2, h.nextID⟩

/-- The calls for one session, by the event loop or by a connection. -/
def isForSession : Stimulus → Bool
  | .slimProtoData _ _ _ _ | .pingTimer _ _ | .pingHandler _ _ | .httpData _ _ | .httpClose _
  | .httpRemoved _ => true
  | _ => false

theorem step_forSession {e : Stimulus} (he : isForSession e = true) (t : Streamer) :
    SessionsStep t (step t e) := by
  cases e with
  | slimProtoData connection buffer timestamp environments =>
    show SessionsStep t (t.onSlimProtoData connection buffer timestamp environments)
    rw [onSlimProtoData]
    split
    · exact .of_same rfl rfl rfl rfl rfl rfl
    · have happly := SessionsStep.apply connection _ (fun s =>
        have hrequest := CommandSession.onRequest_step
          ⟨buffer, timestamp, fun n => t.context (environments n)⟩ s
        ⟨hrequest.address, hrequest.isInStream⟩) t
      dsimp only
      split
      · obtain ⟨hstate, hnext, hchunks, hframes, hentries, hsessions⟩ := happly
        exact ⟨hstate, hnext, hchunks, hframes, hentries, hsessions⟩
      · exact happly
  | pingTimer connection environment =>
    refine SessionsStep.apply connection _ (fun s => ?_) t
    have hping := CommandSession.onPingTimer_step (t.context environment) s
    exact ⟨hping.address, hping.toRequestStep.isInStream⟩
  | pingHandler connection environment =>
    refine SessionsStep.apply connection _ (fun s => ?_) t
    have hping := CommandSession.onPingHandler_step (t.context environment) s
    exact ⟨hping.address, hping.toRequestStep.isInStream⟩
  | httpData connection buffer =>
    show SessionsStep t (t.onHTTPData connection buffer).1
    rw [onHTTPData]
    split
    · exact .of_same rfl rfl rfl rfl rfl rfl
    · split
      · exact .of_same rfl rfl rfl rfl rfl rfl
      · split
        · exact .of_same rfl rfl rfl rfl rfl rfl
        · rename_i session _
          obtain ⟨hstate, hnext, hchunks, hframes, hentries, hsessions⟩ :=
            SessionsStep.setStreamingSession session (some connection) t
          exact ⟨hstate, hnext, hchunks, hframes, hentries, hsessions⟩
  | httpClose connection =>
    show SessionsStep t (t.onHTTPClose connection)
    rw [onHTTPClose]
    split
    · exact .of_same rfl rfl rfl rfl rfl rfl
    · dsimp only
      split
      · exact .of_same rfl rfl rfl rfl rfl rfl
      · rename_i session _
        obtain ⟨hstate, hnext, hchunks, hframes, hentries, hsessions⟩ :=
          SessionsStep.setStreamingSession session none t
        exact ⟨hstate, hnext, hchunks, hframes, hentries, hsessions⟩
  | httpRemoved connection => exact .of_same rfl rfl rfl rfl rfl rfl
  | _ => cases he

/-! ### The round of a registered streamer -/

section Round

variable (environment : Environment) (answers : ℕ → Bool) (chunk : Chunk)

/-- Whether the chunk is due for the session at an address. -/
def due (t : Streamer) (address : ℕ) : Bool :=
  isDue t.streamedChunks t.sessionToChunkSequenceMap address

/-- Whether the session at an address accepts the chunk. -/
def accepted (t : Streamer) (address : ℕ) : Bool :=
  accepts (t.context environment) answers chunk t.commandSessions address

/-- The sequence numbers, as those of a broadcast. -/
def counters (t : Streamer) : Counters ℕ where
  completed := t.streamedChunks
  entries := t.sessionToChunkSequenceMap

/-- **One round of `streamChunk`** is a round of the broadcast, with the answers of the
sessions. -/
theorem round_eq {t : Streamer} (ht : Registered t) :
    t.round environment answers chunk =
      { result := t.counters.succeeds (t.accepted environment answers chunk)
        entries := (t.counters.present (t.accepted environment answers chunk)).entries
        sessions := t.commandSessions.map (offered (t.context environment) answers chunk
          t.streamedChunks t.sessionToChunkSequenceMap)
        offers := t.counters.offered (t.accepted environment answers chunk) } := by
  rw [round]
  refine streamEntries_eq (t.context environment) answers chunk t.streamedChunks
    (t.accepted environment answers chunk) t.sessionToChunkSequenceMap t.commandSessions
    ?_ ht.addresses ?_ fun e _ => rfl
  · rw [ht.same_sessions]
    exact ht.addresses
  · intro e he
    rw [← ht.same_sessions]
    exact List.mem_map.mpr ⟨e, he, rfl⟩

theorem streamChunk_fst {t : Streamer} (ht : Registered t) :
    (t.streamChunk environment answers chunk).1 =
      t.counters.succeeds (t.accepted environment answers chunk) := by
  rw [streamChunk, round_eq environment answers chunk ht]
  cases t.counters.succeeds (t.accepted environment answers chunk) <;> rfl

theorem streamChunk_counters {t : Streamer} (ht : Registered t) :
    (t.streamChunk environment answers chunk).2.counters =
      t.counters.present (t.accepted environment answers chunk) := by
  rw [streamChunk, round_eq environment answers chunk ht, Counters.present]
  cases t.counters.succeeds (t.accepted environment answers chunk) <;> rfl

theorem streamChunk_commandSessions {t : Streamer} (ht : Registered t) :
    (t.streamChunk environment answers chunk).2.commandSessions =
      t.commandSessions.map (offered (t.context environment) answers chunk
        t.streamedChunks t.sessionToChunkSequenceMap) := by
  rw [streamChunk, round_eq environment answers chunk ht]
  split <;> rfl

theorem offered_address (context : Context) (streamedChunks : ℕ) (entries : List (ℕ × ℕ))
    (e : ℕ × CommandSession) :
    (offered context answers chunk streamedChunks entries e).1 = e.1 ∧
      (offered context answers chunk streamedChunks entries e).2.address = e.2.address := by
  rw [offered]
  split
  · exact ⟨rfl, CommandSession.consumeChunk_address context _ chunk e.2⟩
  · exact ⟨rfl, rfl⟩

theorem streamChunk_registry {t : Streamer} (ht : Registered t) :
    SameRegistry t (t.streamChunk environment answers chunk).2 := by
  have hsessions := map_sessions (offered_address answers chunk (t.context environment)
    t.streamedChunks t.sessionToChunkSequenceMap) t.commandSessions
  have hcounters := streamChunk_counters environment answers chunk ht
  have hkeys : ((t.streamChunk environment answers chunk).2.counters.entries).map Prod.fst =
      t.sessionToChunkSequenceMap.map Prod.fst := by
    rw [hcounters, Counters.present_keys]
    rfl
  rw [← streamChunk_commandSessions environment answers chunk ht] at hsessions
  refine ⟨hkeys, hsessions.1, hsessions.2, ?_⟩
  rw [streamChunk]
  split <;> rfl

end Round

/-! ### The branches of `consumeChunk` -/

section Branches

variable (environment : Environment) (answers : ℕ → Bool) (chunk : Chunk)

/-- What a chunk is distributed by. -/
structure SameStream (t t' : Streamer) : Prop where
  commandSessions : t'.commandSessions = t.commandSessions
  entries : t'.sessionToChunkSequenceMap = t.sessionToChunkSequenceMap
  nextID : t'.nextID = t.nextID
  samplingRate : t'.samplingRate = t.samplingRate
  streamedChunks : t'.streamedChunks = t.streamedChunks
  streamedFrames : t'.streamedFrames = t.streamedFrames

theorem SameStream.registry {t t' : Streamer} (h : SameStream t t') : SameRegistry t t' :=
  ⟨by rw [h.entries], by rw [h.commandSessions], by rw [h.commandSessions], h.nextID⟩

theorem SameStream.counters {t t' : Streamer} (h : SameStream t t') :
    t'.counters = t.counters := by
  rw [Streamer.counters, Streamer.counters, h.streamedChunks, h.entries]

theorem SessionsStep.counters {t t' : Streamer} (h : SessionsStep t t') :
    t'.counters = t.counters := by
  rw [Streamer.counters, Streamer.counters, h.streamedChunks, h.entries]

theorem isStreaming_iff (t : Streamer) :
    t.isStreaming = true ↔ t.state = .buffering ∨ t.state = .playing := by
  rw [isStreaming, Bool.or_eq_true, beq_iff_eq, beq_iff_eq]

/-- Starting to play does not touch what a chunk is distributed by. -/
theorem tryPlaying_stream (t : Streamer) : SameStream t (t.tryPlaying environment) := by
  rw [tryPlaying]
  split
  · rename_i h
    rw [processEvent_play environment h]
    split <;> exact ⟨rfl, rfl, rfl, rfl, rfl, rfl⟩
  · exact ⟨rfl, rfl, rfl, rfl, rfl, rfl⟩

theorem tryPlaying_state {t : Streamer} (h : t.isStreaming = true) :
    (t.tryPlaying environment).state = .buffering ∨ (t.tryPlaying environment).state = .playing := by
  rw [isStreaming_iff] at h
  rw [tryPlaying]
  split
  · rename_i hb
    rw [processEvent_play environment hb]
    split
    · exact Or.inr rfl
    · exact h
  · exact h

theorem streamChunk_state (t : Streamer) :
    (t.streamChunk environment answers chunk).2.state = t.state := by
  rw [streamChunk]
  split <;> rfl

/-- **The streaming branch**: a chunk of the current rate is distributed, and the end of the
stream, or another rate, makes the streamer drain. -/
theorem consumeStreaming_eq {r : Bool × Streamer} (h : r.2.isStreaming = true) :
    consumeStreaming environment answers chunk r =
      let t := r.2.tryPlaying environment
      if t.samplingRate = chunk.samplingRate then
        if chunk.endOfStream then
          (false, (t.streamChunk environment answers chunk).2.setState .draining)
        else t.streamChunk environment answers chunk
      else (false, t.setState .draining) := by
  have hstate := tryPlaying_state environment h
  have hstreamed : ((r.2.tryPlaying environment).streamChunk environment answers chunk).2.state =
      .buffering ∨
      ((r.2.tryPlaying environment).streamChunk environment answers chunk).2.state = .playing := by
    rw [streamChunk_state]
    exact hstate
  rw [consumeStreaming, if_pos h]
  by_cases hrate : (r.2.tryPlaying environment).samplingRate = chunk.samplingRate
  · cases hend : chunk.endOfStream
    · simp only [hrate, if_true, ne_eq, not_true_eq_false, Bool.false_eq_true, or_self, if_false]
    · simp only [hrate, if_true, or_true, processEvent_drain environment hstreamed]
  · simp only [hrate, if_false, ne_eq, not_false_eq_true, true_or, if_true,
      processEvent_drain environment hstate]

theorem consumeStreaming_of_not {r : Bool × Streamer} (h : r.2.isStreaming = false) :
    consumeStreaming environment answers chunk r = r := by
  rw [consumeStreaming, if_neg (by rw [h]; exact Bool.false_ne_true)]

theorem stateChangeToPreparing_registry (t : Streamer) :
    SameRegistry t (t.stateChangeToPreparing environment) := by
  have hsessions := map_sessions
    (f := fun e => (e.1, e.2.prepare (t.context environment) t.samplingRate))
    (fun e => ⟨rfl, CommandSession.prepare_address (t.context environment) _ e.2⟩)
    t.commandSessions
  refine ⟨?_, hsessions.1, hsessions.2, rfl⟩
  show (t.sessionToChunkSequenceMap.map fun e => (e.1, 0)).map Prod.fst = _
  rw [List.map_map]
  rfl

theorem consumeStarted_of_started {r : Bool × Streamer} (h : r.2.state = .started)
    (hrate : chunk.samplingRate ≠ 0) :
    consumeStarted environment chunk r =
      (false, ((r.2.setSamplingRate chunk.samplingRate).stateChangeToPreparing
        environment).setState .preparing) := by
  rw [consumeStarted, if_pos h, if_pos hrate,
    processEvent_prepare environment (t := r.2.setSamplingRate chunk.samplingRate) h]

theorem consumeStarted_registry (r : Bool × Streamer) :
    SameRegistry r.2 (consumeStarted environment chunk r).2 := by
  by_cases h : r.2.state = .started
  · by_cases hrate : chunk.samplingRate = 0
    · rw [consumeStarted, if_pos h, if_neg (not_not.mpr hrate)]
      exact SameRegistry.refl r.2
    · rw [consumeStarted_of_started environment chunk h hrate]
      have hprepare := stateChangeToPreparing_registry environment
        (r.2.setSamplingRate chunk.samplingRate)
      exact ⟨hprepare.entries, hprepare.connections, hprepare.addresses, hprepare.nextID⟩
  · rw [consumeStarted, if_neg h]
    exact SameRegistry.refl r.2

theorem consumeStarted_current {r : Bool × Streamer} (hr : r.2.counters.Current) :
    (consumeStarted environment chunk r).2.counters.Current := by
  by_cases h : r.2.state = .started
  · by_cases hrate : chunk.samplingRate = 0
    · rw [consumeStarted, if_pos h, if_neg (not_not.mpr hrate)]
      exact hr
    · rw [consumeStarted_of_started environment chunk h hrate]
      exact Counters.current_reset r.2.counters
  · rw [consumeStarted, if_neg h]
    exact hr

theorem consumePreparing_stream (r : Bool × Streamer) :
    SameStream r.2 (consumePreparing environment r).2 := by
  rw [consumePreparing]
  split
  · rename_i h
    rw [processEvent_buffer environment h]
    split <;> exact ⟨rfl, rfl, rfl, rfl, rfl, rfl⟩
  · exact ⟨rfl, rfl, rfl, rfl, rfl, rfl⟩

theorem consumeDraining_stream (r : Bool × Streamer) :
    SameStream r.2 (consumeDraining environment r).2 := by
  rw [consumeDraining]
  split
  · rename_i h
    rw [processEvent_flushed environment h]
    split <;> exact ⟨rfl, rfl, rfl, rfl, rfl, rfl⟩
  · exact ⟨rfl, rfl, rfl, rfl, rfl, rfl⟩

theorem consumeStreaming_registry {r : Bool × Streamer} (hr : Registered r.2) :
    SameRegistry r.2 (consumeStreaming environment answers chunk r).2 := by
  cases h : r.2.isStreaming with
  | false =>
    rw [consumeStreaming_of_not environment answers chunk h]
    exact SameRegistry.refl r.2
  | true =>
    have hplay := (tryPlaying_stream environment r.2).registry
    have hchunk := hplay.trans
      (streamChunk_registry environment answers chunk (hr.of_same hplay))
    rw [consumeStreaming_eq environment answers chunk h]
    dsimp only
    split
    · split
      · exact hchunk.trans ⟨rfl, rfl, rfl, rfl⟩
      · exact hchunk
    · exact hplay.trans ⟨rfl, rfl, rfl, rfl⟩

theorem consumeStreaming_current {r : Bool × Streamer} (hr : Registered r.2)
    (hc : r.2.counters.Current) :
    (consumeStreaming environment answers chunk r).2.counters.Current := by
  cases h : r.2.isStreaming with
  | false =>
    rw [consumeStreaming_of_not environment answers chunk h]
    exact hc
  | true =>
    have hplay := tryPlaying_stream environment r.2
    have hchunk := streamChunk_counters environment answers chunk (hr.of_same hplay.registry)
    have hc : (r.2.tryPlaying environment).counters.Current := by rwa [hplay.counters]
    have hround : ((r.2.tryPlaying environment).streamChunk environment answers
        chunk).2.counters.Current := by
      rw [hchunk]
      exact Counters.current_present hc _
    rw [consumeStreaming_eq environment answers chunk h]
    dsimp only
    split
    · split
      · exact hround
      · exact hround
    · exact hc

theorem beforeStreaming_current {t : Streamer} (hc : t.counters.Current) :
    (t.beforeStreaming environment chunk).2.counters.Current := by
  rw [beforeStreaming, (consumePreparing_stream environment _).counters]
  exact consumeStarted_current environment chunk hc

theorem beforeStreaming_registry (t : Streamer) :
    SameRegistry t (t.beforeStreaming environment chunk).2 :=
  (consumeStarted_registry environment chunk (false, t)).trans
    (consumePreparing_stream environment _).registry

theorem consumeChunk_registry {t : Streamer} (ht : Registered t) :
    SameRegistry t (t.consumeChunk environment answers chunk).2 := by
  have hbefore := beforeStreaming_registry environment chunk t
  exact (hbefore.trans (consumeStreaming_registry environment answers chunk
    (ht.of_same hbefore))).trans (consumeDraining_stream environment _).registry

theorem consumeChunk_current {t : Streamer} (ht : Registered t) (hc : t.counters.Current) :
    (t.consumeChunk environment answers chunk).2.counters.Current := by
  rw [consumeChunk, (consumeDraining_stream environment _).counters]
  exact consumeStreaming_current environment answers chunk
    (ht.of_same (beforeStreaming_registry environment chunk t))
    (beforeStreaming_current environment chunk hc)

end Branches

/-! ### Every call keeps the maps in agreement -/

theorem lookup_none {β : Type} {sessions : List (ℕ × β)} {connection : ℕ}
    (h : connection ∉ sessions.map Prod.fst) :
    (sessions.any fun entry => entry.1 == connection) = false := by
  rw [List.any_eq_false]
  intro e he heq
  exact h (List.mem_map.mpr ⟨e, he, beq_iff_eq.mp heq⟩)

theorem mem_of_lookup {β : Type} {sessions : List (ℕ × β)} {connection : ℕ} {session : β}
    (h : sessions.lookup connection = some session) : (connection, session) ∈ sessions := by
  obtain ⟨l₁, l₂, heq, _⟩ := List.lookup_eq_some_iff.mp h
  rw [heq]
  exact List.mem_append_right l₁ List.mem_cons_self

/-- Erasing a session by its connection erases its address. -/
theorem addresses_eraseSession {sessions : List (ℕ × CommandSession)}
    (hc : (sessions.map Prod.fst).Nodup) (ha : (addresses sessions).Nodup)
    {connection : ℕ} {session : CommandSession} (hs : (connection, session) ∈ sessions) :
    addresses (eraseSession sessions connection) =
      (addresses sessions).filter fun address => address != session.address := by
  rw [addresses, addresses, eraseSession, List.filter_map]
  congr 1
  refine List.filter_congr fun e he => ?_
  rw [Function.comp_apply, Bool.eq_iff_iff, bne_iff_ne, bne_iff_ne, not_iff_not]
  constructor
  · intro h
    have heq : e = (connection, session) :=
      List.inj_on_of_nodup_map hc he hs h
    rw [heq]
  · intro h
    have heq : e = (connection, session) :=
      List.inj_on_of_nodup_map ha he hs h
    rw [heq]

theorem registered_open {t : Streamer} (ht : Registered t) {connection : ℕ}
    (hc : connection ∉ t.commandSessions.map Prod.fst) (environment : Environment) :
    Registered (t.onSlimProtoOpen connection environment) := by
  have hfree : t.nextID + 1 ∉ addresses t.commandSessions := by
    intro h
    have hle := ht.fresh _ h
    omega
  have hstart (s : CommandSession) := CommandSession.start_address (t.context environment) s
  rw [onSlimProtoOpen]
  rw [addSession, lookup_none hc, hstart, if_neg Bool.false_ne_true]
  refine ⟨?_, ?_, ?_, ?_⟩
  · show (t.sessionToChunkSequenceMap ++ [_]).map Prod.fst = addresses (t.commandSessions ++ [_])
    rw [addresses, List.map_append, List.map_append, ht.same_sessions, List.map_singleton,
      List.map_singleton, hstart]
    rfl
  · show ((t.commandSessions ++ [_]).map Prod.fst).Nodup
    rw [List.map_append, List.map_singleton, ← List.concat_eq_append]
    exact List.Nodup.concat hc ht.connections
  · show (addresses (t.commandSessions ++ [_])).Nodup
    rw [addresses, List.map_append, List.map_singleton, hstart, ← List.concat_eq_append]
    exact List.Nodup.concat hfree ht.addresses
  · show ∀ address ∈ addresses (t.commandSessions ++ [_]), address ≤ t.nextID + 1
    intro address ha
    rw [addresses, List.map_append, List.map_singleton, hstart, List.mem_append,
      List.mem_singleton] at ha
    rcases ha with ha | rfl
    · exact Nat.le_succ_of_le (ht.fresh address ha)
    · exact le_rfl

theorem registered_close {t : Streamer} (ht : Registered t) (connection : ℕ) :
    Registered (t.onSlimProtoClose connection) := by
  rw [onSlimProtoClose]
  split
  · exact ht
  · rename_i session hs
    have hmem := mem_of_lookup hs
    have haddr := addresses_eraseSession ht.connections ht.addresses hmem
    refine ⟨?_, ?_, ?_, ?_⟩
    · show (eraseSession t.sessionToChunkSequenceMap session.address).map Prod.fst = _
      rw [haddr, ← ht.same_sessions, eraseSession, List.filter_map]
      rfl
    · exact ht.connections.sublist (List.filter_sublist.map Prod.fst)
    · show (addresses (eraseSession t.commandSessions connection)).Nodup
      rw [haddr]
      exact ht.addresses.filter _
    · show ∀ address ∈ addresses (eraseSession t.commandSessions connection), address ≤ t.nextID
      rw [haddr]
      intro address ha
      exact ht.fresh address (List.mem_of_mem_filter ha)

theorem start_registry (environment : Environment) (t : Streamer) :
    SameRegistry t (t.start environment) := by
  rw [start, processEvent_start]
  split <;> exact ⟨rfl, rfl, rfl, rfl⟩

theorem stop_registry (environment : Environment) (t : Streamer) :
    SameRegistry t (t.stop environment) := by
  rw [stop, processEvent_stop]
  split
  · exact SameRegistry.refl t
  · have hsessions := map_sessions (f := fun e => (e.1, e.2.stop (t.context environment)))
      (fun e => ⟨rfl, CommandSession.stop_address (t.context environment) e.2⟩) t.commandSessions
    exact ⟨rfl, hsessions.1, hsessions.2, rfl⟩

/-- **Every call keeps the maps in agreement.** -/
theorem registered_step {t : Streamer} {e : Stimulus} (ht : Registered t) (he : enabled t e) :
    Registered (step t e) := by
  cases e with
  | start environment => exact ht.of_same (start_registry environment t)
  | stop environment => exact ht.of_same (stop_registry environment t)
  | slimProtoOpen connection environment => exact registered_open ht he environment
  | slimProtoClose connection => exact registered_close ht connection
  | chunk environment answers chunk =>
    exact ht.of_same (consumeChunk_registry environment answers chunk ht)
  | _ => exact ht.of_same (step_forSession rfl t).registry

theorem registered_create (streamingPort : ℕ) (format : FormatSelection) (gain : Option ℕ)
    (now : Timestamp) : Registered (create streamingPort format gain now) :=
  ⟨rfl, List.nodup_nil, List.nodup_nil, List.forall_mem_nil _⟩

/-- **Every call keeps the sequence numbers at the counter or one ahead of it.** -/
theorem current_step {t : Streamer} {e : Stimulus} (ht : Registered t) (hc : t.counters.Current) :
    (step t e).counters.Current := by
  cases e with
  | start environment =>
    show (t.processEvent environment .start).2.counters.Current
    rw [processEvent_start]
    split <;> exact hc
  | stop environment =>
    show (t.processEvent environment .stop).2.counters.Current
    rw [processEvent_stop]
    split <;> exact hc
  | slimProtoOpen connection environment => exact Counters.current_join hc _
  | slimProtoClose connection =>
    show (t.onSlimProtoClose connection).counters.Current
    rw [onSlimProtoClose]
    split
    · exact hc
    · exact Counters.current_leave hc _
  | chunk environment answers chunk => exact consumeChunk_current environment answers chunk ht hc
  | _ =>
    rw [(step_forSession rfl t).counters]
    exact hc

/-- What holds in every reachable state. -/
structure Reachable (t : Streamer) : Prop extends Registered t where
  current : t.counters.Current

theorem reachable_create (streamingPort : ℕ) (format : FormatSelection) (gain : Option ℕ)
    (now : Timestamp) : Reachable (create streamingPort format gain now) :=
  ⟨registered_create streamingPort format gain now, List.forall_mem_nil _⟩

theorem reachable_step {t : Streamer} {e : Stimulus} (ht : Reachable t) (he : enabled t e) :
    Reachable (step t e) :=
  ⟨registered_step ht.toRegistered he, current_step ht.toRegistered ht.current⟩

theorem reachable_exec {t : Streamer} (ht : Reachable t) (es : List Stimulus)
    (hes : system.Admits t es) : Reachable (system.exec t es) :=
  system.exec_invariant Reachable (fun _ _ => reachable_step) es t ht hes

end Streamer

end SlimStreamer
