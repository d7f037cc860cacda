import SlimStreamer.Proto.ChunkDelivery

/-!
# What `consumeChunk` does, call by call

A presentation of a chunk is a few calls of the delivery: the sampling rate may be set and the
stream prepared, events are taken by the state machine, and the chunk may be offered to the
sessions.  Which calls these are depends on the state the Streamer is in.

* `chunkCalls`, `exec_chunkCalls` — the calls, and that they are what `consumeChunk` does;
* `ChunkStep`, `consumeChunk_step` — everything a presentation can do.
-/

namespace SlimStreamer

namespace Streamer

open GuardedExecution SequencedBroadcast

/-! ### The calls -/

section Calls

variable (environment : Environment) (answers : ℕ → Bool)

def startedCalls (chunk : Chunk) (t : Streamer) : List DeliveryCall :=
  if t.state = .started ∧ chunk.samplingRate ≠ 0 then
    [.setSamplingRate chunk.samplingRate, .processEvent environment .prepare]
  else []

def preparingCalls (t : Streamer) : List DeliveryCall :=
  if t.state = .preparing then [.processEvent environment .buffer] else []

def streamingCalls (item : Item) (t : Streamer) : List DeliveryCall :=
  if t.isStreaming = true then
    (if t.state = .buffering then [.processEvent environment .play] else []) ++
    (if t.samplingRate = item.2.samplingRate then [.streamChunk item environment answers]
      else []) ++
    (if t.samplingRate ≠ item.2.samplingRate ∨ item.2.endOfStream = true then
      [.processEvent environment .drain] else [])
  else []

def drainingCalls (t : Streamer) : List DeliveryCall :=
  if t.state = .draining then [.processEvent environment .flushed] else []

/-- The calls of a presentation, branch by branch. -/
def chunkCalls (item : Item) (t : Streamer) : List DeliveryCall :=
  let started := consumeStarted environment item.2 (false, t)
  let before := t.beforeStreaming environment item.2
  let streamed := consumeStreaming environment answers item.2 before
  startedCalls environment item.2 t ++ preparingCalls environment started.2 ++
    streamingCalls environment answers item before.2 ++ drainingCalls environment streamed.2

end Calls

/-- The log once the stream was prepared, if it was. -/
def Delivery.logBefore (d : Delivery) : Log ℕ Item :=
  if d.streamer.state = .started then d.log.reset else d.log

/-- The log once the chunk was offered to the sessions, if it was. -/
def Delivery.logAfter (environment : Environment) (answers : ℕ → Bool) (item : Item)
    (d : Delivery) : Log ℕ Item :=
  let before := (d.streamer.beforeStreaming environment item.2).2
  if before.isStreaming = true ∧ before.samplingRate = item.2.samplingRate then
    let round := (before.tryPlaying environment).round environment answers item.2
    d.logBefore.present item round.offers round.result
  else d.logBefore

/-- Whether the chunk was offered to the sessions and nobody has refused it. -/
def Delivery.completes (environment : Environment) (answers : ℕ → Bool) (chunk : Chunk)
    (d : Delivery) : Bool :=
  let before := (d.streamer.beforeStreaming environment chunk).2
  decide (before.isStreaming = true ∧ before.samplingRate = chunk.samplingRate) &&
    ((before.tryPlaying environment).round environment answers chunk).result

variable {environment : Environment} {answers : ℕ → Bool}

/-- An event that does not prepare a stream. -/
theorem exec_processEvent {event : Event} (h : event ≠ .prepare) (t : Streamer)
    (log : Log ℕ Item) :
    deliverySystem.exec ⟨t, log⟩ [.processEvent environment event] =
      ⟨(t.processEvent environment event).2, log⟩ := by
  have hnot : prepares t event = false := by
    rw [prepares, beq_eq_false_iff_ne.mpr h]
    rfl
  show (⟨_, if prepares t event = true then log.reset else log⟩ : Delivery) = _
  rw [hnot]
  rfl

theorem exec_startedCalls {chunk : Chunk} (hrate : chunk.samplingRate ≠ 0) (d : Delivery) :
    deliverySystem.exec d (startedCalls environment chunk d.streamer) =
      ⟨(consumeStarted environment chunk (false, d.streamer)).2, d.logBefore⟩ := by
  by_cases h : d.streamer.state = .started
  · have hprepares : prepares (d.streamer.setSamplingRate chunk.samplingRate) .prepare = true := by
      rw [prepares, setSamplingRate_state, h]
      rfl
    rw [startedCalls, if_pos ⟨h, hrate⟩, consumeStarted, if_pos h, if_pos hrate, Delivery.logBefore,
      if_pos h]
    exact congrArg (Delivery.mk _) (if_pos hprepares)
  · rw [startedCalls, if_neg fun hs => h hs.1, consumeStarted, if_neg h, Delivery.logBefore,
      if_neg h]
    rfl

theorem exec_preparingCalls (r : Bool × Streamer) (log : Log ℕ Item) :
    deliverySystem.exec ⟨r.2, log⟩ (preparingCalls environment r.2) =
      ⟨(consumePreparing environment r).2, log⟩ := by
  rw [preparingCalls, consumePreparing]
  split
  · exact exec_processEvent Event.noConfusion r.2 log
  · rfl

theorem exec_drainingCalls (r : Bool × Streamer) (log : Log ℕ Item) :
    deliverySystem.exec ⟨r.2, log⟩ (drainingCalls environment r.2) =
      ⟨(consumeDraining environment r).2, log⟩ := by
  rw [drainingCalls, consumeDraining]
  split
  · exact exec_processEvent Event.noConfusion r.2 log
  · rfl

theorem exec_tryPlaying (t : Streamer) (log : Log ℕ Item) :
    deliverySystem.exec ⟨t, log⟩
        (if t.state = .buffering then [.processEvent environment .play] else []) =
      ⟨t.tryPlaying environment, log⟩ := by
  rw [tryPlaying]
  split
  · exact exec_processEvent Event.noConfusion t log
  · rfl

/-- The streaming branch: the chunk is offered if it has the current rate. -/
theorem exec_streamingCalls (item : Item) (r : Bool × Streamer) (log : Log ℕ Item) :
    deliverySystem.exec ⟨r.2, log⟩ (streamingCalls environment answers item r.2) =
      ⟨(consumeStreaming environment answers item.2 r).2,
        if r.2.isStreaming = true ∧ r.2.samplingRate = item.2.samplingRate then
          log.present item ((r.2.tryPlaying environment).round environment answers item.2).offers
            ((r.2.tryPlaying environment).round environment answers item.2).result
        else log⟩ := by
  by_cases h : r.2.isStreaming = true
  · have hrate := (tryPlaying_stream environment r.2).samplingRate
    rw [streamingCalls, if_pos h, System.exec_append, System.exec_append, exec_tryPlaying,
      consumeStreaming, if_pos h]
    dsimp only
    rw [hrate]
    by_cases hsame : r.2.samplingRate = item.2.samplingRate
    · have hboth : r.2.isStreaming = true ∧ r.2.samplingRate = item.2.samplingRate := ⟨h, hsame⟩
      rw [if_pos hsame, if_pos hsame, if_pos hboth]
      by_cases hend : r.2.samplingRate ≠ item.2.samplingRate ∨ item.2.endOfStream = true
      · rw [if_pos hend, if_pos hend]
        exact exec_processEvent Event.noConfusion _ _
      · rw [if_neg hend, if_neg hend]
        rfl
    · have hboth : ¬ (r.2.isStreaming = true ∧ r.2.samplingRate = item.2.samplingRate) :=
        fun hs => hsame hs.2
      have hdrains : r.2.samplingRate ≠ item.2.samplingRate ∨ item.2.endOfStream = true :=
        Or.inl hsame
      rw [if_neg hsame, if_neg hsame, if_neg hboth, if_pos hdrains, if_pos hdrains]
      exact exec_processEvent Event.noConfusion _ _
  · have hnot : r.2.isStreaming = false := Bool.eq_false_iff.mpr h
    rw [streamingCalls, if_neg h, consumeStreaming_of_not environment answers item.2 hnot,
      if_neg fun hs => h hs.1]
    rfl

/-- **A presentation is a few calls of the delivery**, and they do what `consumeChunk` does. -/
theorem exec_chunkCalls (item : Item) (hrate : item.2.samplingRate ≠ 0) (d : Delivery) :
    deliverySystem.exec d (chunkCalls environment answers item d.streamer) =
      ⟨(d.streamer.consumeChunk environment answers item.2).2,
        d.logAfter environment answers item⟩ := by
  rw [chunkCalls, System.exec_append, System.exec_append, System.exec_append,
    exec_startedCalls hrate, exec_preparingCalls, ← beforeStreaming, exec_streamingCalls,
    exec_drainingCalls]
  rfl

/-- The calls are admitted when the chunk may be offered where it is. -/
theorem admits_chunkCalls {item : Item} (hrate : item.2.samplingRate ≠ 0) {d : Delivery}
    (hmay : (d.streamer.beforeStreaming environment item.2).2.isStreaming = true →
      d.logBefore.MayPresent item) :
    deliverySystem.Admits d (chunkCalls environment answers item d.streamer) := by
  have hevent : ∀ (c : Prop) [Decidable c] (d : Delivery) (event : Event),
      deliverySystem.Admits d (if c then [.processEvent environment event] else []) := by
    intro c _ d event
    split
    · exact ⟨trivial, trivial⟩
    · exact trivial
  have hstarted : deliverySystem.Admits d (startedCalls environment item.2 d.streamer) := by
    rw [startedCalls]
    split
    · exact ⟨trivial, trivial, trivial⟩
    · exact trivial
  have hstreaming : deliverySystem.Admits
      ⟨(d.streamer.beforeStreaming environment item.2).2, d.logBefore⟩
      (streamingCalls environment answers item
        (d.streamer.beforeStreaming environment item.2).2) := by
    rw [streamingCalls]
    split
    · rename_i hs
      rw [System.admits_append, System.admits_append, exec_tryPlaying]
      refine ⟨⟨hevent _ _ _, ?_⟩, hevent _ _ _⟩
      split
      · exact ⟨hmay hs, trivial⟩
      · exact trivial
    · exact trivial
  rw [chunkCalls, System.admits_append, System.admits_append, System.admits_append,
    System.exec_append, exec_startedCalls hrate, exec_preparingCalls, ← beforeStreaming]
  exact ⟨⟨⟨hstarted, hevent _ _ _⟩, hstreaming⟩, hevent _ _ _⟩

/-! ### Everything a presentation can do -/

/-- The state in which a stream is prepared or goes on. -/
def inStream (t : Streamer) : Prop :=
  t.state = .preparing ∨ t.state = .buffering ∨ t.state = .playing

/-- The sessions are only reached when a stream begins or goes on. -/
theorem inStream_of_streaming {chunk : Chunk} {t : Streamer}
    (h : (t.beforeStreaming environment chunk).2.isStreaming = true) :
    t.state = .started ∨ t.inStream := by
  cases hstate : t.state with
  | started => exact Or.inl rfl
  | preparing => exact Or.inr (Or.inl hstate)
  | buffering => exact Or.inr (Or.inr (Or.inl hstate))
  | playing => exact Or.inr (Or.inr (Or.inr hstate))
  | _ =>
    rw [beforeStreaming, consumeStarted, if_neg (by rw [hstate]; decide), consumePreparing,
      if_neg (by rw [hstate]; decide), isStreaming, hstate] at h
    cases h

/-- **Everything the presentation of a chunk can do**, when a stream that is there has the rate
of the chunk: whether the chunk was offered and nobody has refused it, and the result. -/
inductive ChunkStep (item : Item) (d d' : Delivery) : Bool → Bool → Prop where
  | stopped (before : d.streamer.state = .stopped) (same : d' = d) : ChunkStep item d d' false false
  /-- The sessions are not ready. -/
  | prepares (before : d.streamer.state = .started ∨ d.streamer.state = .preparing)
    (after : d'.streamer.state = .preparing) (log : d'.log = d.logBefore)
    (rate : d'.streamer.samplingRate = item.2.samplingRate) : ChunkStep item d d' false false
  /-- The chunk is offered to the sessions. -/
  | streams (before : d.streamer.state = .started ∨ d.streamer.inStream)
    (isData : item.2.endOfStream = false)
    (after : d'.streamer.state = .buffering ∨ d'.streamer.state = .playing)
    (offers : List (ℕ × Bool)) (result : Bool)
    (log : d'.log = d.logBefore.present item offers result)
    (rate : d'.streamer.samplingRate = item.2.samplingRate) : ChunkStep item d d' result result
  /-- The end of the stream is offered to the sessions. -/
  | ends (before : d.streamer.state = .started ∨ d.streamer.inStream)
    (isEnd : item.2.endOfStream = true)
    (offers : List (ℕ × Bool)) (completed result : Bool)
    (after : d'.streamer.state = if result then .started else .draining)
    (log : d'.log = d.logBefore.present item offers completed) :
    ChunkStep item d d' completed result
  /-- The sessions have yet to finish. -/
  | drains (before : d.streamer.state = .draining) (result : Bool)
    (after : d'.streamer.state = if result then .started else .draining)
    (log : d'.log = d.log) : ChunkStep item d d' false result

/-- What the Flushed event answers. -/
theorem consumeDraining_of_draining {r : Bool × Streamer} (h : r.2.state = .draining) :
    (consumeDraining environment r).2.state =
      if (consumeDraining environment r).1 then .started else .draining := by
  rw [consumeDraining, if_pos h, processEvent_flushed environment h]
  split
  · exact h
  · rfl

theorem consumeDraining_of_not {r : Bool × Streamer} (h : r.2.state ≠ .draining) :
    consumeDraining environment r = r := by
  rw [consumeDraining, if_neg h]

/-- Once the sessions are reached, with a chunk of the current rate. -/
theorem chunkStep_of_streaming {item : Item} {d : Delivery}
    (hbefore : d.streamer.state = .started ∨ d.streamer.inStream)
    (hs : (d.streamer.beforeStreaming environment item.2).2.isStreaming = true)
    (hsame : (d.streamer.beforeStreaming environment item.2).2.samplingRate =
      item.2.samplingRate) :
    ChunkStep item d ⟨(d.streamer.consumeChunk environment answers item.2).2,
      d.logAfter environment answers item⟩ (d.completes environment answers item.2)
        (d.streamer.consumeChunk environment answers item.2).1 := by
  have hcompletes : d.completes environment answers item.2 =
      (((d.streamer.beforeStreaming environment item.2).2.tryPlaying environment).round
        environment answers item.2).result := by
    rw [Delivery.completes, decide_eq_true ⟨hs, hsame⟩, Bool.true_and]
  have hplay := tryPlaying_stream environment (d.streamer.beforeStreaming environment item.2).2
  have hplaying := tryPlaying_state environment hs
  have hrate := hplay.samplingRate.trans hsame
  have hlog : d.logAfter environment answers item = d.logBefore.present item _ _ :=
    if_pos ⟨hs, hsame⟩
  rw [hlog, hcompletes, consumeChunk, consumeStreaming_eq environment answers item.2 hs]
  dsimp only
  rw [if_pos hrate]
  cases hend : item.2.endOfStream with
  | true =>
    rw [if_pos rfl]
    exact .ends hbefore hend _ _ _ (consumeDraining_of_draining rfl) rfl
  | false =>
    rw [if_neg Bool.false_ne_true]
    have hstate := streamChunk_state environment answers item.2
      ((d.streamer.beforeStreaming environment item.2).2.tryPlaying environment)
    rw [← hstate] at hplaying
    rw [consumeDraining_of_not (by rcases hplaying with h | h <;> rw [h] <;> decide)]
    have hresult : (((d.streamer.beforeStreaming environment item.2).2.tryPlaying
        environment).streamChunk environment answers item.2).1 =
          (((d.streamer.beforeStreaming environment item.2).2.tryPlaying environment).round
            environment answers item.2).result := by
      rw [streamChunk]
      cases (((d.streamer.beforeStreaming environment item.2).2.tryPlaying environment).round
        environment answers item.2).result <;> rfl
    rw [hresult]
    refine .streams hbefore hend hplaying _ _ rfl ?_
    rw [streamChunk]
    dsimp only
    split <;> exact hrate

/-- **What a presentation does.** -/
theorem consumeChunk_step (item : Item) (hrate : item.2.samplingRate ≠ 0) {d : Delivery}
    (hsame : d.streamer.inStream → d.streamer.samplingRate = item.2.samplingRate) :
    ChunkStep item d ⟨(d.streamer.consumeChunk environment answers item.2).2,
      d.logAfter environment answers item⟩ (d.completes environment answers item.2)
        (d.streamer.consumeChunk environment answers item.2).1 := by
  obtain ⟨before, hdef⟩ : ∃ before, d.streamer.beforeStreaming environment item.2 = before :=
    ⟨_, rfl⟩
  have hnotStreaming : before.2.isStreaming = false →
      d.streamer.consumeChunk environment answers item.2 = consumeDraining environment before ∧
        d.logAfter environment answers item = d.logBefore ∧
        d.completes environment answers item.2 = false := by
    intro hnot
    refine ⟨?_, ?_, ?_⟩
    · rw [consumeChunk, hdef, consumeStreaming_of_not environment answers item.2 hnot]
    · rw [Delivery.logAfter, hdef, if_neg (by simp [hnot])]
    · rw [Delivery.completes, hdef]
      simp [hnot]
  -- a stream that is being prepared
  have hpreparing : ∀ t : Streamer, t.state = .preparing → t.samplingRate = item.2.samplingRate →
      before = consumePreparing environment (false, t) →
      d.streamer.state = .started ∨ d.streamer.state = .preparing →
      ChunkStep item d ⟨(d.streamer.consumeChunk environment answers item.2).2,
        d.logAfter environment answers item⟩ (d.completes environment answers item.2)
          (d.streamer.consumeChunk environment answers item.2).1 := by
    intro t ht htrate hb hstate
    have hbrate : before.2.samplingRate = item.2.samplingRate := by
      rw [hb, (consumePreparing_stream environment (false, t)).samplingRate]
      exact htrate
    rw [consumePreparing, if_pos ht, processEvent_buffer environment ht] at hb
    split at hb
    · have hbuffering : before.2.isStreaming = true := by rw [hb]; rfl
      rw [← hdef] at hbuffering hbrate
      exact chunkStep_of_streaming (hstate.imp_right Or.inl) hbuffering hbrate
    · have hbstate : before.2.state = .preparing := by rw [hb]; exact ht
      obtain ⟨hconsume, hlog, hcompletes⟩ := hnotStreaming (by rw [isStreaming, hbstate]; rfl)
      rw [hconsume, hlog, hcompletes, consumeDraining_of_not (by rw [hbstate]; decide), hb]
      exact .prepares hstate ht rfl htrate
  cases hstate : d.streamer.state with
  | started =>
    refine hpreparing (((d.streamer.setSamplingRate item.2.samplingRate).stateChangeToPreparing
      environment).setState .preparing) rfl rfl ?_ (Or.inl hstate)
    rw [← hdef, beforeStreaming,
      consumeStarted_of_started environment item.2 (r := (false, d.streamer)) hstate hrate]
  | preparing =>
    refine hpreparing d.streamer hstate (hsame (Or.inl hstate)) ?_ (Or.inr hstate)
    rw [← hdef, beforeStreaming, consumeStarted, if_neg (by rw [hstate]; decide)]
  | buffering =>
    have hin : d.streamer.inStream := Or.inr (Or.inl hstate)
    have hb : d.streamer.beforeStreaming environment item.2 = (false, d.streamer) := by
      rw [beforeStreaming, consumeStarted, if_neg (by rw [hstate]; decide), consumePreparing,
        if_neg (by rw [hstate]; decide)]
    refine chunkStep_of_streaming (Or.inr hin) ?_ ?_
    · rw [hb, isStreaming_iff]
      exact Or.inl hstate
    · rw [hb]
      exact hsame hin
  | playing =>
    have hin : d.streamer.inStream := Or.inr (Or.inr hstate)
    have hb : d.streamer.beforeStreaming environment item.2 = (false, d.streamer) := by
      rw [beforeStreaming, consumeStarted, if_neg (by rw [hstate]; decide), consumePreparing,
        if_neg (by rw [hstate]; decide)]
    refine chunkStep_of_streaming (Or.inr hin) ?_ ?_
    · rw [hb, isStreaming_iff]
      exact Or.inr hstate
    · rw [hb]
      exact hsame hin
  | draining =>
    have hb : before = (false, d.streamer) := by
      rw [← hdef, beforeStreaming, consumeStarted, if_neg (by rw [hstate]; decide),
        consumePreparing, if_neg (by rw [hstate]; decide)]
    obtain ⟨hconsume, hlog, hcompletes⟩ := hnotStreaming (by rw [hb, isStreaming, hstate]; rfl)
    rw [hconsume, hlog, hcompletes, hb, Delivery.logBefore, if_neg (by rw [hstate]; decide)]
    exact .drains hstate _ (consumeDraining_of_draining hstate) rfl
  | stopped =>
    have hb : before = (false, d.streamer) := by
      rw [← hdef, beforeStreaming, consumeStarted, if_neg (by rw [hstate]; decide),
        consumePreparing, if_neg (by rw [hstate]; decide)]
    obtain ⟨hconsume, hlog, hcompletes⟩ := hnotStreaming (by rw [hb, isStreaming, hstate]; rfl)
    rw [hconsume, hlog, hcompletes, hb, Delivery.logBefore, if_neg (by rw [hstate]; decide),
      consumeDraining_of_not (by rw [hstate]; decide)]
    exact .stopped hstate rfl

end Streamer

end SlimStreamer
