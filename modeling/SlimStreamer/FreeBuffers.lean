import SlimStreamer.PlaybackIntegrity
import SlimStreamer.Proto.ChunkEnqueueing

/-!
# Ten free buffers

An HTTP session accepts a chunk as long as ten of its buffers are free.  This is enough for chunks
of at most 40960 octets, the tenth of a second at up to 48000 frames: then nothing of a chunk that
is provided to the session is lost, as long as the encoder runs whenever one is.

* `Encodes` — the encoder of an HTTP session runs as long as its session takes part in a stream;
* `Sized` — no chunk is larger than the buffer it was allocated with;
* `createProducers` — the devices of the program: a chunk of one fits if its rate is at most 48000;
* `Calm` — a run without disturbances: no session is in a stream when the next one is prepared, the
  requests of the players are GET requests, no write to them fails and no flush drops anything;
* `ten_buffers_suffice` — then each chunk provided fits, and the octets a player gets are octets of
  one device.
-/

namespace SlimStreamer

open GuardedExecution SequencedBroadcast

/-! ### The chunks of a source -/

namespace Source

/-- The chunks with data are not larger than the buffer they were allocated with. -/
def Sized (s : Source) : Prop :=
  ∀ chunk ∈ s.capturing.enqueued, chunk.endOfStream = false →
    chunk.payload.length ≤ s.parameters.bufferSize

theorem FramesStep.sized {frames : List (List UInt8)} {s s' : Source} (hs : s.Sized)
    (hparameters : s'.parameters = s.parameters) (h : FramesStep frames s s') : s'.Sized := by
  have hconcat : ∀ chunk, Enqueues s s' chunk →
      (chunk.endOfStream = false → chunk.payload.length ≤ s.parameters.bufferSize) →
        s'.Sized := by
    intro chunk henqueues hsize c hc hdata
    rw [hparameters]
    simp only [henqueues.enqueued, List.mem_append, List.mem_singleton] at hc
    rcases hc with hc | rfl
    · exact hs c hc hdata
    · exact hsize hdata
  cases h with
  | idle kept outside result =>
    subst result
    exact hs
  | endOfStream chunk kept inside enqueues isEnd =>
    exact hconcat chunk enqueues fun hdata => absurd (hdata.symm.trans isEnd.1) Bool.noConfusion
  | data chunk kept enqueues holds =>
    apply hconcat chunk enqueues
    intro _
    rw [← holds.buffer]
    exact List.length_take_le' _ _
  | overflow contents enqueued =>
    intro c hc
    simp only [enqueued] at hc
    rw [hparameters]
    exact hs c hc

end Source

/-! ### The encoder -/

namespace StreamingSession

/-- The call makes a running session stop its encoder. -/
def stopsEncoder (s : StreamingSession) : Stimulus → Bool
  | .consumeChunk chunk _ _ => s.running && decide (10 ≤ s.bufferPool.getAvailableSize) &&
    (decide (chunk.samplingRate ≠ s.encoder.samplingRate) || chunk.endOfStream)
  | .onRequest data _ => s.running && decide (data.take 3 ≠ get)
  | .stop _ _ => s.running
  | _ => false

/-- If the call is a request, it begins with `GET`. -/
def isGet : Stimulus → Bool
  | .onRequest data _ => decide (data.take 3 = get)
  | _ => true

/-- The encoder runs on after any other call. -/
theorem step_encoder {s : StreamingSession} {e : Stimulus} (h : stopsEncoder s e = false) :
    (step s e).encoder = s.encoder := by
  cases e with
  | consumeChunk chunk output finish =>
    have hchunk := (encodeChunk_idles chunk output s).encoder
    rw [step, consumeChunk]
    by_cases hr : s.running = true
    · by_cases ha : s.bufferPool.getAvailableSize < 10
      · simp [hr, ha]
      · have hroom : 10 ≤ s.bufferPool.getAvailableSize := by omega
        simp [stopsEncoder, hr, hroom] at h
        simp [hr, ha, h, hchunk]
    · simp [hr]
  | onRequest data finish =>
    rw [step, onRequest]
    by_cases hr : s.running = true
    · simp [stopsEncoder, hr] at h
      simp [hr, h]
    · simp [hr]
  | stop callback finish =>
    simp [stopsEncoder] at h
    simp [step, stop, h]
  | _ =>
    exact (event_idles s (fun _ _ _ => Stimulus.noConfusion) (fun _ _ => Stimulus.noConfusion)
      fun _ _ => Stimulus.noConfusion).encoder

end StreamingSession

/-- **The encoder runs** as long as the session that refers to the HTTP session takes part in a
stream of the same rate. -/
structure Encodes (rate : ℕ) (r : Listening) (s : CommandSession) : Prop where
  fresh : s.state = .preparing → r.session.encoder.running = true
  playing : s.state = .buffering ∨ s.state = .playing → r.session.running = true →
    r.session.encoder.running = true ∨ r.session.encoder.samplingRate ≠ rate

namespace Encodes

variable {rate : ℕ} {r : Listening} {s s' : CommandSession}

theorem of_running (h : r.session.encoder.running = true) (rate : ℕ) (s : CommandSession) :
    Encodes rate r s :=
  ⟨fun _ => h, fun _ _ => Or.inl h⟩

/-- The SlimProto session takes part in no stream. -/
theorem of_out (hs : s.isInStream = false) (rate : ℕ) (r : Listening) : Encodes rate r s := by
  constructor
  · intro hp
    simp [CommandSession.isInStream, hp] at hs
  · rintro (hp | hp) <;> simp [CommandSession.isInStream, hp] at hs

/-- It leaves the stream, or stays where it is. -/
theorem of_state (h : Encodes rate r s) (hs : s'.state = s.state ∨ s'.isInStream = false) :
    Encodes rate r s' := by
  rcases hs with hs | hs
  · exact ⟨fun hp => h.fresh (hs ▸ hp), fun hp => h.playing (hs ▸ hp)⟩
  · exact of_out hs rate r

/-- A call that does not stop the encoder. -/
theorem of_call (h : Encodes rate r s) {e : StreamingSession.Stimulus}
    (he : StreamingSession.stopsEncoder r.session e = false) : Encodes rate (r.step e) s := by
  have hencoder : (r.step e).session.encoder = r.session.encoder :=
    StreamingSession.step_encoder he
  constructor
  · rw [hencoder]
    exact h.fresh
  · intro hp hr
    rw [hencoder]
    exact h.playing hp ((r.step_ages e).running hr)

/-- While the session streams, the encoder runs if the rate is the right one. -/
theorem streaming (h : Encodes rate r s) (hs : s.isStreaming = true)
    (hr : r.session.running = true) :
    r.session.encoder.running = true ∨ r.session.encoder.samplingRate ≠ rate := by
  by_cases hp : s.state = .preparing
  · exact Or.inl (h.fresh hp)
  · apply h.playing _ hr
    simpa [CommandSession.isStreaming, hp] using hs

/-- **The session hands the chunk over.** -/
theorem consumeChunk (h : Encodes rate r s) (hs : s.isStreaming = true) (context : Context)
    (chunk : Chunk) (hrate : chunk.samplingRate = rate) (output finish : List (List UInt8))
    {answer : Bool} (hanswer : answer = (r.session.consumeChunk chunk output finish).1) :
    Encodes rate (r.step (.consumeChunk chunk output finish))
      (s.consumeChunk context answer chunk).2 := by
  have hages := r.step_ages (.consumeChunk chunk output finish)
  rcases CommandSession.consumeChunk_state context answer chunk hs with
    ⟨hconsumed, hplaying⟩ | ⟨-, -, hdraining⟩
  · constructor
    · intro hp
      rcases hplaying with hplaying | hplaying <;> simp [hplaying] at hp
    · intro _ hr
      have hrunning := hages.running hr
      rw [hages.samplingRate]
      cases hstops : StreamingSession.stopsEncoder r.session
          (.consumeChunk chunk output finish) with
      | false =>
        rw [show (r.step (.consumeChunk chunk output finish)).session.encoder =
          r.session.encoder from StreamingSession.step_encoder hstops]
        exact h.streaming hs hrunning
      | true =>
        -- the chunk was provided, so it is not the end of the stream
        right
        simp only [StreamingSession.stopsEncoder, Bool.and_eq_true, Bool.or_eq_true,
          decide_eq_true_iff] at hstops
        obtain ⟨⟨-, hroom⟩, hdiffer | hend⟩ := hstops
        · rw [← hrate]
          exact hdiffer.symm
        · have hyes : answer = true := by
            simp [hanswer, HTTPSessions.consumeChunk_fst, hroom]
          simp [hyes, hend, CommandSession.refuses] at hconsumed
  · exact ⟨fun hp => by simp [hdraining] at hp, fun hp => by simp [hdraining] at hp⟩

/-- The session does not stream, and refers to the HTTP session still. -/
theorem ignored (h : Encodes rate r s) (hs : s.isStreaming = false) (context : Context)
    (answer : Bool) (chunk : Chunk)
    (hreference : (s.consumeChunk context answer chunk).2.streamingSession.isSome = true) :
    Encodes rate r (s.consumeChunk context answer chunk).2 := by
  rcases CommandSession.consumeChunk_of_not context answer chunk hs with hstate | hnone
  · exact h.of_state (Or.inl hstate)
  · simp [hnone] at hreference

/-- A stream is prepared, while the session is not in the last one any more. -/
theorem prepared (h : Encodes rate r s) (hs : ¬ (s.state = .buffering ∨ s.state = .playing))
    (context : Context) (rate' : ℕ)
    (hreference : (s.prepare context rate').streamingSession.isSome = true) :
    Encodes rate' r (s.prepare context rate') := by
  rcases CommandSession.prepare_reference context rate' s with hstate | hnone
  · exact ⟨fun hp => h.fresh (hstate ▸ hp), fun hp => absurd (hstate ▸ hp) hs⟩
  · simp [hnone] at hreference

end Encodes

namespace Streamer

open HTTPSessions

/-- The encoders run that the sessions need, of the HTTP sessions that are watched. -/
def Encoded (watched : ℕ → ℕ → Prop) (rate : ℕ) (sessions : List (ℕ × CommandSession))
    (streams : HTTPSessions) : Prop :=
  ∀ e ∈ sessions, ∀ entry ∈ streams, Playback.Watched watched entry →
    e.2.streamingSession = some entry.1 → Encodes rate entry.2 e.2

variable {watched : ℕ → ℕ → Prop} {t : Streamer}

/-- **A round keeps it.** -/
theorem Exclusive.round_encoded (ht : Exclusive t) {streams : HTTPSessions}
    (hn : (streams.map Prod.fst).Nodup) (environment : Environment) (outputs : Outputs)
    {answers : ℕ → Bool}
    (hanswers : ∀ e ∈ t.commandSessions, ∀ c, e.2.streamingSession = some c →
      answers e.2.address = streams.replies c) (chunk : Chunk)
    (h : Encoded watched chunk.samplingRate t.commandSessions streams) :
    Encoded watched chunk.samplingRate
      (t.commandSessions.map (offered (t.context environment) answers chunk t.streamedChunks
        t.sessionToChunkSequenceMap))
      (consumeAll outputs chunk
        (asked t.streamedChunks t.sessionToChunkSequenceMap t.commandSessions) streams) := by
  rintro e' he' ⟨c, r'⟩ hentry hwatched hreference
  obtain ⟨e, he, r, hr, -, hc, hstep⟩ := ht.offerStep he' hentry hreference
  have hencodes : Playback.Watched watched (c, r) → Encodes chunk.samplingRate r e.2 :=
    fun hwatched => h e he (c, r) hr hwatched hc
  dsimp only at hstep hreference ⊢
  generalize e'.2 = s' at hstep hreference
  cases hstep with
  | asks due streaming =>
    exact (hencodes (hwatched.of_step rfl)).consumeChunk streaming _ chunk rfl _ _
      ((hanswers e he _ hc).trans (RoundBegins.replies_eq hn hr outputs chunk))
  | ignores due streaming =>
    exact (hencodes hwatched).ignored streaming _ _ chunk (by simp [hreference])
  | skips due => exact hencodes hwatched

/-- A stream that is prepared has the rate of its first chunk. -/
theorem beforeStreaming_samplingRate (environment : Environment) (chunk : Chunk) (t : Streamer) :
    (t.beforeStreaming environment chunk).2.samplingRate =
      if t.state = .started ∧ chunk.samplingRate ≠ 0 then chunk.samplingRate
      else t.samplingRate := by
  rw [beforeStreaming, (consumePreparing_stream environment _).samplingRate]
  by_cases h : t.state = .started
  · by_cases hrate : chunk.samplingRate = 0
    · simp [consumeStarted, h, hrate]
    · rw [consumeStarted_of_started environment chunk (r := (false, t)) h hrate, if_pos ⟨h, hrate⟩]
      rfl
  · simp [consumeStarted, h]

/-- The rest does not change the rate. -/
theorem consumeChunk_samplingRate (environment : Environment) (answers : ℕ → Bool) (chunk : Chunk)
    (t : Streamer) : (t.consumeChunk environment answers chunk).2.samplingRate =
      (t.beforeStreaming environment chunk).2.samplingRate := by
  rw [consumeChunk, (consumeDraining_stream environment _).samplingRate]
  generalize t.beforeStreaming environment chunk = r
  have hround (t : Streamer) :
      (t.streamChunk environment answers chunk).2.samplingRate = t.samplingRate := by
    rw [streamChunk]
    split <;> rfl
  cases h : r.2.isStreaming with
  | false => rw [consumeStreaming_of_not environment answers chunk h]
  | true =>
    have hplay := (tryPlaying_stream environment r.2).samplingRate
    rw [consumeStreaming_eq environment answers chunk h]
    dsimp only
    split
    · split
      · exact (hround _).trans hplay
      · exact (hround _).trans hplay
    · exact hplay

end Streamer

namespace Playback

variable {watched : ℕ → ℕ → Prop} {x : Playback}

/-- What the players send begins with `GET`, on the connections that are watched. -/
def OnlyGets (watched : ℕ → ℕ → Prop) : Playback → Stimulus → Prop :=
  EachCall watched fun _ call => StreamingSession.isGet call = true

/-- **The invariant**: the encoders run that the sessions need, and ten buffers are enough for a
chunk of a source whose rate is watched. -/
structure Capable (watched : ℕ → ℕ → Prop) (x : Playback) : Prop extends Tied x where
  encoded : Streamer.Encoded watched x.streamer.samplingRate x.streamer.commandSessions x.streams
  sized : ∀ i s, x.application.pipeline.source? i = some s → s.Sized ∧
    ∀ c, watched c s.parameters.samplingRate →
      s.parameters.bufferSize ≤ 10 * StreamingSession.bufferSize

/-- **A call in any other step** stops an encoder that no session needs. -/
theorem calls_encoder (hx : x.Tied) {e : Stimulus} (he : x.enabled e)
    (hnot : ∀ environment outputs, e ≠ .produceChunk environment outputs) {c : ℕ}
    {call : StreamingSession.Stimulus} (h : (c, call) ∈ x.calls e)
    (hget : StreamingSession.isGet call = true) (s : StreamingSession) {d : ℕ × CommandSession}
    (hd : d ∈ (x.step e).streamer.commandSessions) (hc : d.2.streamingSession = some c) :
    StreamingSession.stopsEncoder s call = false ∨ d.2.isInStream = false := by
  cases e with
  | read source frames stale timestamp => cases h
  | produceChunk environment outputs => exact absurd rfl (hnot environment outputs)
  | other e outputs =>
    rw [calls, otherCalls.eq_def] at h
    split at h
    · -- all sessions stop
      rename_i environment
      split at h
      · cases h
      · rename_i hrunning
        right
        change d ∈ (x.streamer.stop environment).commandSessions at hd
        rw [Streamer.stop, Streamer.processEvent_stop, if_neg hrunning] at hd
        obtain ⟨d, -, rfl⟩ := List.mem_map.mp hd
        simp [CommandSession.isInStream, CommandSession.stop_state]
    · rename_i connection buffer
      obtain ⟨rfl, rfl⟩ := Prod.mk.inj (List.mem_singleton.mp h)
      simp only [StreamingSession.isGet, decide_eq_true_iff] at hget
      simp [StreamingSession.stopsEncoder, hget]
    · -- the session that refers to the connection loses its reference
      rename_i connection
      obtain ⟨rfl, rfl⟩ := Prod.mk.inj (List.mem_singleton.mp h)
      have hreferred := (step_tied hx he).referred.reference d hd _ hc
      exact absurd List.mem_cons_self hreferred.2
    · cases h
  | session connection e =>
    obtain ⟨rfl, rfl⟩ := Prod.mk.inj (List.mem_singleton.mp h)
    change sessionEnabled x.streams c call at he
    rw [sessionEnabled] at he
    split at he
    · exact he.elim
    · left
      have hevent := he.1
      cases call <;> first | rfl | cases hevent

/-- The encoder of a new HTTP session runs. -/
theorem opened_encodes {outputs : Outputs} {e : Streamer.Stimulus} {entry : ℕ × Listening}
    (h : entry ∈ x.opened outputs e) : entry.2.session.encoder.running = true := by
  obtain ⟨-, clientID, hstarted⟩ := mem_opened h
  rw [hstarted]
  cases x.streamer.format <;> rfl

/-- The sources keep their chunks in bounds. -/
theorem step_sized (hx : x.Capable watched) {e : Stimulus} (he : x.enabled e) {i : ℕ}
    {s' : Source} (hs' : (x.step e).application.pipeline.source? i = some s') :
    s'.Sized ∧ ∀ c, watched c s'.parameters.samplingRate →
      s'.parameters.bufferSize ≤ 10 * StreamingSession.bufferSize := by
  have hstep := step_source hx.toTied e i
  rw [hs'] at hstep
  cases hs : x.application.pipeline.source? i with
  | none =>
    rw [hs] at hstep
    cases hstep
  | some s =>
    obtain ⟨hsized, hbound⟩ := hx.sized i s hs
    have hordered := hx.reachable.linked.serialised.ordered i s hs
    rw [hs] at hstep
    cases hstep with
    | some hturn =>
      cases hturn with
      | read _ frames stale timestamp =>
        obtain ⟨hne, hmax, hsizes⟩ := he s hs
        obtain ⟨hread, -⟩ := Source.onFrames_step hordered.valid hordered.allocated
          (Source.holds_flatten hsizes stale) hmax timestamp
        have hparameters := Source.onFrames_parameters timestamp (frames.flatten ++ stale)
          frames.length s
        rw [Source.step_read hne]
        refine ⟨hread.sized hsized hparameters, ?_⟩
        rw [hparameters]
        exact hbound
      | keeps _ capturing parameters =>
        rw [Source.Sized, capturing, parameters]
        exact ⟨hsized, hbound⟩

/-- **Every other step keeps it.** -/
theorem silent_capable (hx : x.Capable watched) {e : Stimulus} (he : x.enabled e)
    (hgets : x.OnlyGets watched e)
    (hnot : ∀ environment outputs, e ≠ .produceChunk environment outputs) :
    (x.step e).Capable watched where
  toTied := step_tied hx.toTied he
  sized i s hs := step_sized hx he hs
  encoded d hd entry hentry hwatched hc := by
    have hrate : (x.step e).streamer.samplingRate = x.streamer.samplingRate := by
      cases e with
      | other e outputs => exact Streamer.step_samplingRate x.streamer he.1.1
      | produceChunk environment outputs => exact absurd rfl (hnot environment outputs)
      | _ => rfl
    obtain ⟨r, hr, hcalled⟩ := mem_step hx.exclusive hx.distinct hentry
    have hbefore : Watched watched (entry.1, r) →
        Encodes (x.step e).streamer.samplingRate r d.2 := by
      intro hwatched
      rcases (step_references hx.toTied he hnot).2 d hd entry.1 hc with
        ⟨d', hd', -, hstate, hreference⟩ | hnew
      · have hold : (entry.1, r) ∈ x.streams → Encodes (x.step e).streamer.samplingRate r d.2 := by
          intro hr
          rw [hrate]
          exact (hx.encoded d' hd' (entry.1, r) hr hwatched hreference).of_state hstate
        cases e with
        | other e outputs =>
          rcases List.mem_append.mp hr with hr | hr
          · exact hold hr
          · exact .of_running (opened_encodes hr) _ _
        | _ => exact hold hr
      · cases e with
        | other e outputs =>
          rcases List.mem_append.mp hr with hr | hr
          · exact absurd (List.mem_map_of_mem (f := Prod.fst) hr) hnew
          · exact .of_running (opened_encodes hr) _ _
        | _ => exact absurd (List.mem_map_of_mem (f := Prod.fst) hr) hnew
    rcases hcalled with ⟨-, hsame⟩ | ⟨call, hcall, hstep⟩
    · rw [hsame]
      exact hbefore (hsame ▸ hwatched)
    · have hwatchedBefore := hwatched.of_step hstep
      have hget := hgets (entry.1, call) hcall (entry.1, r) hr rfl hwatchedBefore
      rw [hstep]
      rcases calls_encoder hx.toTied he hnot hcall hget r.session hd hc with hkeeps | hout
      · exact (hbefore hwatchedBefore).of_call hkeeps
      · exact .of_out hout _ _

/-- The encoders when a chunk is about to be offered to the sessions. -/
theorem before_encoded (hx : x.Capable watched) (environment : Environment) (outputs : Outputs)
    (hrested : x.Rested (.produceChunk environment outputs)) (chunk : Chunk) :
    Streamer.Encoded watched (x.streamer.beforeStreaming environment chunk).2.samplingRate
      (x.streamer.beforeStreaming environment chunk).2.commandSessions x.streams := by
  intro e he entry hentry hwatched hc
  rw [Streamer.beforeStreaming_samplingRate]
  rw [Streamer.beforeStreaming_sessions] at he
  split at he
  · rename_i hprepared
    obtain ⟨d, hd, rfl⟩ := List.mem_map.mp he
    have hkeeps := (CommandSession.prepare_changes
      ((x.streamer.setSamplingRate chunk.samplingRate).context environment) chunk.samplingRate
        d.2).toKeeps
    rw [if_pos hprepared]
    have hencodes := hx.encoded d hd entry hentry hwatched
      (Streamer.Keeps.reference_eq hkeeps hc)
    exact hencodes.prepared (hrested hprepared.1 d hd) _ _ (by rw [hc]; rfl)
  · rename_i hnot
    rw [if_neg hnot]
    exact hx.encoded e he entry hentry hwatched hc

/-- **A call by the scheduler keeps it.** -/
theorem produceChunk_capable (hx : x.Capable watched) (environment : Environment)
    (outputs : Outputs) (hrested : x.Rested (.produceChunk environment outputs)) :
    (x.step (.produceChunk environment outputs)).Capable watched := by
  have htied := step_tied hx.toTied (e := .produceChunk environment outputs) trivial
  refine ⟨htied, ?_, fun i s hs =>
    step_sized hx (e := .produceChunk environment outputs) trivial hs⟩
  have hconsumer := consumer_eq hx.exclusive environment outputs
  rw [step, produceChunk_eq hx.exclusive, chunkCalls, hconsumer]
  rcases x.application.produceChunk_cases hx.reachable.linked environment x.served.answers with
    ⟨heq, -, hnone⟩ | ⟨chunk, -, heq, hone⟩
  · rw [heq, hnone]
    exact hx.encoded
  rw [heq, hone, List.flatMap_singleton]
  have hbefore := before_encoded hx environment outputs hrested chunk
  show Streamer.Encoded watched
    (x.streamer.consumeChunk environment x.served.answers chunk).2.samplingRate
    (x.streamer.consumeChunk environment x.served.answers chunk).2.commandSessions
    (x.streams.consumeAll outputs chunk (x.served.asked environment chunk))
  rw [Streamer.consumeChunk_samplingRate]
  by_cases hs : x.isOffered environment chunk
  · rw [sessions_of_offered hx.toTied hs, asked_of_offered hs, hs.2]
    apply (offering_exclusive hx.toTied environment chunk).round_encoded hx.distinct environment
      outputs (offering_answers hx.toTied environment chunk) chunk
    rw [(offering_stream environment chunk x).commandSessions, ← hs.2]
    exact hbefore
  · rw [sessions_of_not_offered hx.toTied hs, asked_of_not_offered hs]
    exact hbefore

/-- **An HTTP session that is offered a chunk of its rate** runs its encoder. -/
theorem asked_encoder (hx : x.Capable watched) {environment : Environment} {outputs : Outputs}
    (hrested : x.Rested (.produceChunk environment outputs)) {chunk : Chunk} {c : ℕ}
    (hasked : c ∈ x.served.asked environment chunk) {r : Listening} (hentry : (c, r) ∈ x.streams)
    (hwatched : Watched watched (c, r)) (hr : r.session.running = true)
    (hrate : chunk.samplingRate = r.session.encoder.samplingRate) :
    r.session.encoder.running = true := by
  have hs : x.isOffered environment chunk := by
    by_contra hs
    rw [asked_of_not_offered hs] at hasked
    cases hasked
  rw [asked_of_offered hs] at hasked
  -- the session that calls the HTTP session streams
  obtain ⟨entry, -, hat⟩ := List.mem_filterMap.mp hasked
  obtain ⟨s, hsession, -, hasks⟩ := Streamer.askedAt_some hat
  have hreference := CommandSession.asks_reference hasks
  have hstreaming := (((offering_exclusive hx.toTied environment chunk).mem_asked_iff hsession
    hreference).mp hasked).2
  rw [(offering_stream environment chunk x).commandSessions] at hsession
  have hencodes := before_encoded hx environment outputs hrested chunk s hsession (c, r) hentry
    hwatched hreference
  rcases hencodes.streaming hstreaming hr with hencoder | hdiffer
  · exact hencoder
  · exact absurd (hrate.symm.trans hs.2.symm) hdiffer

/-- **Each chunk provided fits**: the encoder runs, and ten buffers are free. -/
theorem capable_fits (hx : x.Capable watched) {e : Stimulus} (he : x.enabled e)
    (hrested : x.Rested e) : x.Fits watched e := by
  intro call hcall entry hentry hc hwatched chunk hchunk
  obtain ⟨c, call⟩ := call
  by_cases hnot : ∀ environment outputs, e ≠ .produceChunk environment outputs
  · rw [calls_silent he hnot hcall] at hchunk
    cases hchunk
  push Not at hnot
  obtain ⟨environment, outputs, rfl⟩ := hnot
  rw [calls, chunkCalls, consumer_eq hx.exclusive environment outputs] at hcall
  rcases x.application.produceChunk_cases hx.reachable.linked environment x.served.answers with
    ⟨-, -, hnone⟩ | ⟨offered, hoffers, -, hone⟩
  · simp [hnone] at hcall
  simp only [hone, List.flatMap_singleton] at hcall
  obtain ⟨d, hd, heq⟩ := List.mem_map.mp hcall
  obtain ⟨rfl, rfl⟩ := Prod.mk.inj heq
  obtain ⟨c, r⟩ := entry
  obtain rfl : c = d := hc
  rcases r.provided_consumeChunk offered (outputs.output c) (outputs.finish c) with
    ⟨hnone, -⟩ | ⟨honly, hrate, hdata, haccepted, hrunning⟩
  · exact absurd (hnone ▸ hchunk) List.not_mem_nil
  obtain rfl : chunk = offered := List.mem_singleton.mp (honly ▸ hchunk)
  have hr : r.session.running = true := (r.step_ages _).running hrunning
  right
  constructor
  · exact asked_encoder hx hrested hd hentry hwatched hr hrate
  · have hroom : 10 ≤ r.session.bufferPool.getAvailableSize := by
      simpa [HTTPSessions.consumeChunk_fst, hr] using haccepted
    obtain ⟨s, rest, hsource, hcontents⟩ := hoffers.first
    obtain ⟨hsized, hbound⟩ := hx.sized _ s hsource
    have hmem := (hx.reachable.linked.serialised.ordered _ s hsource).mem_enqueued hcontents
    have hsource_rate : r.session.encoder.samplingRate = s.parameters.samplingRate :=
      hrate.symm.trans ((hx.reachable.linked.rated _ s hsource).2 chunk hmem)
    calc chunk.payload.length ≤ s.parameters.bufferSize := hsized chunk hmem hdata
      _ ≤ 10 * StreamingSession.bufferSize := hbound c (hsource_rate ▸ hwatched.2)
      _ ≤ _ := Nat.mul_le_mul_right _ hroom

/-- **Every step keeps it.** -/
theorem step_capable (hx : x.Capable watched) {e : Stimulus} (he : x.enabled e)
    (hrested : x.Rested e) (hgets : x.OnlyGets watched e) : (x.step e).Capable watched := by
  cases e with
  | produceChunk environment outputs => exact produceChunk_capable hx environment outputs hrested
  | read source frames stale timestamp =>
    exact silent_capable hx he hgets fun _ _ => Stimulus.noConfusion
  | other e outputs => exact silent_capable hx he hgets fun _ _ => Stimulus.noConfusion
  | session connection e => exact silent_capable hx he hgets fun _ _ => Stimulus.noConfusion

theorem create_capable {sources : List Source} (hne : sources ≠ [])
    (hsources : ∀ s ∈ sources,
      ∃ p now, p.Valid ∧ p.samplingRate ≠ 0 ∧ s = Source.create p now)
    (hsizes : ∀ s ∈ sources, ∀ c, watched c s.parameters.samplingRate →
      s.parameters.bufferSize ≤ 10 * StreamingSession.bufferSize)
    (streamingPort : ℕ) (format : FormatSelection) (gain : Option ℕ) (now : Timestamp)
    (version : String) :
    Capable watched (create sources streamingPort format gain now version) where
  toTied := create_tied hne hsources streamingPort format gain now version
  encoded _ _ _ hentry := by cases hentry
  sized i s hs := by
    have hmem := List.mem_of_getElem? hs
    refine ⟨?_, hsizes s hmem⟩
    obtain ⟨p, now, -, -, rfl⟩ := hsources s hmem
    exact List.forall_mem_nil _

/-- The condition of a run without disturbances. -/
def Calm (watched : ℕ → ℕ → Prop) (x : Playback) (e : Stimulus) : Prop :=
  x.Rested e ∧ x.OnlyGets watched e ∧ x.Undisturbed watched e

instance [∀ connection rate, Decidable (watched connection rate)] (x : Playback) (e : Stimulus) :
    Decidable (Calm watched x e) :=
  have : Decidable (OnlyGets watched x e) := inferInstanceAs (Decidable (EachCall _ _ _ _))
  inferInstanceAs (Decidable (_ ∧ _ ∧ _))

/-- A run without disturbances is one without losses. -/
theorem exec_capable (hx : x.Capable watched) {es : List Stimulus}
    (hes : (system.restrict (Calm watched)).Admits x es) :
    (system.restrict (Faithful watched)).Admits x es ∧ (system.exec x es).Capable watched := by
  induction es using List.reverseRecOn with
  | nil => exact ⟨trivial, hx⟩
  | append_singleton es e ih =>
    rw [System.admits_concat, System.restrict_exec] at hes
    obtain ⟨hrun, he, hrested, hgets, hundisturbed⟩ := hes
    obtain ⟨hfaithful, hcapable⟩ := ih hrun
    rw [System.admits_concat, System.restrict_exec, System.exec_concat]
    have hfits := capable_fits hcapable he hrested
    exact ⟨⟨hfaithful, he, hrested, hundisturbed, hfits⟩, step_capable hcapable he hrested hgets⟩

/-! ### The devices of the program -/

/-- The template: three channels of 32 bits, a queue of 128 chunks. -/
def parameters (rate : ℕ) : Alsa.Parameters where
  totalChannels := 3
  bitsPerSample := 32
  samplingRate := rate
  queueExponent := 7
  queueExponent_lt := by decide
  framesPerChunk := StreamingSession.framesPerChunk rate

/-- One producer for each device. -/
def createProducers (now : Timestamp) : List Source :=
  StreamingSession.rates.map fun entry => Source.create (parameters entry.1) now

theorem createProducers_rated (now : Timestamp) : ∀ s ∈ createProducers now,
    ∃ p now, p.Valid ∧ p.samplingRate ≠ 0 ∧ s = Source.create p now := by
  intro s hs
  have hrates : ∀ entry ∈ StreamingSession.rates, entry.1 ≠ 0 := by decide
  obtain ⟨entry, hentry, rfl⟩ := List.mem_map.mp hs
  refine ⟨parameters entry.1, now, ⟨by simp [parameters], ?_⟩, hrates entry hentry, rfl⟩
  simp [Alsa.Parameters.bytesPerSample, parameters]

/-- A chunk of a device needs ten buffers at most if its rate is 48000 or less. -/
theorem createProducers_sizes (now : Timestamp) : ∀ s ∈ createProducers now,
    s.parameters.bufferSize ≤ 10 * StreamingSession.bufferSize ↔
      s.parameters.samplingRate ≤ 48000 := by
  intro s hs
  have hrates : ∀ entry ∈ StreamingSession.rates,
      (parameters entry.1).bufferSize ≤ 10 * StreamingSession.bufferSize ↔
        (parameters entry.1).samplingRate ≤ 48000 := by decide
  obtain ⟨entry, hentry, rfl⟩ := List.mem_map.mp hs
  exact hrates entry hentry

/-- A player connects while a device is captured, and is sent the frame with data. -/
def oneDevice : List Stimulus :=
  Streamer.helloPlayer.map (fun e => .other e silent) ++
    [.read 1 [[0, 0, 0, 0, 0, 0, 0, 0, 0, 0, 0, 1], [1, 2, 3, 4, 5, 6, 7, 8, 0, 0, 0, 3]] [] ⟨0⟩,
      .produceChunk Streamer.quiet silent, .produceChunk Streamer.quiet silent,
      .other Streamer.playerRequest silent, .produceChunk Streamer.quiet silent,
      .session 2 (.transferTask none), .session 2 (.completion ⟨false, 8⟩)]

/-- **Ten free buffers suffice** for chunks of 40960 octets at most: in every calm run each chunk
provided to a watched HTTP session fits, and the octets its player gets are octets of one device. -/
theorem ten_buffers_suffice (watched : ℕ → ℕ → Prop) {sources : List Source}
    (hne : sources ≠ [])
    (hsources : ∀ s ∈ sources,
      ∃ p now, p.Valid ∧ p.samplingRate ≠ 0 ∧ s = Source.create p now)
    (hsizes : ∀ s ∈ sources, ∀ c, watched c s.parameters.samplingRate →
      s.parameters.bufferSize ≤ 10 * StreamingSession.bufferSize)
    (streamingPort : ℕ) (format : FormatSelection) (gain : Option ℕ) (now : Timestamp)
    (version : String) {es : List Stimulus}
    (hes : (system.restrict (Calm watched)).Admits
      (create sources streamingPort format gain now version) es) :
    (system.restrict (Faithful watched)).Admits
        (create sources streamingPort format gain now version) es ∧
      ∀ entry ∈ (system.exec (create sources streamingPort format gain now version) es).streams,
        Watched watched entry →
          PlaysDevice es (system.exec (create sources streamingPort format gain now version) es)
            entry.2 := by
  have hfaithful := (exec_capable
    (create_capable hne hsources hsizes streamingPort format gain now version) hes).1
  have hplayed := exec_played
    (create_played hne hsources streamingPort format gain now version) hfaithful
  refine ⟨hfaithful, ?_⟩
  intro entry hentry hwatched
  exact hplayed.playsDevice hentry hwatched

theorem ten_buffers_suffice_oneDevice :
    ((system.restrict (Faithful fun _ rate => rate ≤ 48000)).Admits
        (create (createProducers ⟨0⟩) 9001 .PCM none ⟨0⟩ "1") oneDevice ∧
      ∀ entry ∈ (system.exec (create (createProducers ⟨0⟩) 9001 .PCM none ⟨0⟩ "1")
          oneDevice).streams, Watched (fun _ rate => rate ≤ 48000) entry →
        PlaysDevice oneDevice
          (system.exec (create (createProducers ⟨0⟩) 9001 .PCM none ⟨0⟩ "1") oneDevice) entry.2) ∧
      (system.exec (create (createProducers ⟨0⟩) 9001 .PCM none ⟨0⟩ "1") oneDevice).streams.map
        (fun entry => (entry.1, entry.2.octets)) = [(2, [1, 2, 3, 4, 5, 6, 7, 8])] :=
  ⟨ten_buffers_suffice (fun _ rate => rate ≤ 48000) (by decide) (createProducers_rated ⟨0⟩)
    (fun s hs _ => (createProducers_sizes ⟨0⟩ s hs).mpr) 9001 .PCM none ⟨0⟩ "1"
    (by decide +kernel), by decide +kernel⟩

end Playback

end SlimStreamer
