import SlimStreamer.Proto.StreamTransfer

/-!
# Whether an accepted chunk is queued completely

`consumeChunk` accepts a chunk when ten buffers of the pool are free, and the encoded callback
takes as many buffers as the chunk needs, or as there are.  A chunk of a tenth of a second at
a rate of 88200 Hz or more needs up to 38.

* `enqueued_completely_iff` — exactly when what `consumeChunk` answers is right;
* `truncated_chunk` — a reachable session that accepts a chunk and drops the end of it.
-/

namespace SlimStreamer

namespace StreamingSession

open GuardedExecution

/-! ### The chunks of the producers -/

/-- The sampling rates of the producers, with their devices. -/
def rates : List (ℕ × String) :=
  [(8000, "hw:1,1,1"), (11025, "hw:1,1,2"), (12000, "hw:1,1,3"), (16000, "hw:1,1,4"),
    (22500, "hw:1,1,5"), (24000, "hw:1,1,6"), (32000, "hw:1,1,7"), (44100, "hw:2,1,1"),
    (48000, "hw:2,1,2"), (88200, "hw:2,1,3"), (96000, "hw:2,1,4"), (176400, "hw:2,1,5"),
    (192000, "hw:2,1,6")]

/-- `chunkDurationMilliSecond`. -/
def chunkDuration : ℕ := 100

def framesPerChunk (rate : ℕ) : ℕ := rate * chunkDuration / 1000

/-- A chunk with data that a producer of `createProducers` can emit. -/
structure Produced (chunk : Chunk) : Prop where
  rate : chunk.samplingRate ∈ rates.map Prod.fst
  notEmpty : 1 ≤ chunk.frames
  frames : chunk.frames ≤ framesPerChunk chunk.samplingRate
  channels : chunk.channels = 2
  bytesPerSample : chunk.bytesPerSample = 4
  endOfStream : chunk.endOfStream = false
  buffer : chunk.payloadSize ≤ chunk.buffer.length

theorem Produced.length_payload {chunk : Chunk} (h : Produced chunk) :
    chunk.payload.length = chunk.payloadSize := by
  rw [Chunk.payload, List.length_take, Nat.min_eq_left h.buffer]

theorem Produced.payloadSize_pos {chunk : Chunk} (h : Produced chunk) : 0 < chunk.payloadSize := by
  rw [Chunk.payloadSize, h.channels, h.bytesPerSample]
  have hframes := h.notEmpty
  omega

/-! ### A long chunk -/

/-- A tenth of a second at 192000 Hz: 37 and a half buffers. -/
def longChunk : Chunk := ⟨false, 192000, 2, 4, List.replicate 153600 0, 19200, 19200, ⟨0⟩⟩

theorem length_longChunk : longChunk.payload.length = 153600 := by
  show ((List.replicate 153600 0).take (19200 * 4 * 2)).length = 153600
  rw [List.length_take, List.length_replicate]
  decide

theorem produced_longChunk : Produced longChunk := by
  refine ⟨by decide, by decide, by decide, rfl, rfl, rfl, ?_⟩
  show 19200 * 4 * 2 ≤ (List.replicate 153600 0).length
  rw [List.length_replicate]

def longSession : StreamingSession := started [49] .wave 192000 "audio/x-wave" "1" []

theorem getAvailableSize_longSession : longSession.bufferPool.getAvailableSize = 64 := by
  show (List.replicate poolSize _).countP _ = 64
  rw [List.countP_replicate]
  rfl

/-! ### When the answer is right -/

/-- An accepted chunk is appended to the queue, all of it; a chunk that is not accepted
changes neither the queue nor the pool. -/
def EnqueuedCompletely (s : StreamingSession) (chunk : Chunk)
    (output finish : List (List UInt8)) : Prop :=
  let s' := (s.consumeChunk chunk output finish).2
  if (s.consumeChunk chunk output finish).1 then
    ∃ chunks, s'.transferBufferQueue = s.transferBufferQueue ++ chunks ∧
      chunks.flatMap (contents s'.bufferPool) = chunk.payload
  else s'.transferBufferQueue = s.transferBufferQueue ∧ s'.bufferPool = s.bufferPool

/-- What `consumeChunk` does when it accepts a chunk of the session's rate. -/
theorem consumeChunk_of_accepted {s : StreamingSession} {chunk : Chunk} (hr : s.running = true)
    (ha : 10 ≤ s.bufferPool.getAvailableSize) (hrate : chunk.samplingRate = s.encoder.samplingRate)
    (hend : chunk.endOfStream = false) (output finish : List (List UInt8)) :
    s.consumeChunk chunk output finish = (true, s.encodeChunk chunk output) := by
  rw [consumeChunk, if_pos hr, if_neg (by omega), if_neg (by rw [hrate]; exact not_not.mpr rfl),
    hend, if_neg Bool.false_ne_true]

theorem consumeChunk_of_refused {s : StreamingSession} {chunk : Chunk} (hr : s.running = true)
    (ha : s.bufferPool.getAvailableSize < 10) (output finish : List (List UInt8)) :
    s.consumeChunk chunk output finish = (false, s) := by
  rw [consumeChunk, if_pos hr, if_pos ha]

/-- **What an accepted chunk is queued as**, by the wave encoder. -/
theorem encodeChunk_wave (chunk : Chunk) {s : StreamingSession} (hk : s.encoder.kind = .wave)
    (he : s.encoder.running = true) (output : List (List UInt8)) :
    ∃ chunks, (s.encodeChunk chunk output).transferBufferQueue =
        s.transferBufferQueue ++ chunks ∧
      chunks.flatMap (contents (s.encodeChunk chunk output).bufferPool) =
        chunk.payload.take (s.bufferPool.getAvailableSize * bufferSize) := by
  obtain ⟨chunks, h⟩ := encoded_spec chunk.payload s
  have hencode : s.encode chunk.payload output = s.encoded chunk.payload := by
    rw [encode, if_pos he, hk]
  have hqueue : (s.encodeChunk chunk output).transferBufferQueue =
      (s.encoded chunk.payload).transferBufferQueue := by
    rw [encodeChunk, hencode]
  have hpool : (s.encodeChunk chunk output).bufferPool = (s.encoded chunk.payload).bufferPool := by
    rw [encodeChunk, hencode]
  refine ⟨chunks, ?_, ?_⟩
  · rw [hqueue, h.rest]
    rfl
  · rw [hpool]
    exact h.contents

theorem encodeChunk_same (chunk : Chunk) {s : StreamingSession} (hk : s.encoder.kind = .wave)
    (he : s.encoder.running = true) (output : List (List UInt8)) :
    (s.encodeChunk chunk output).running = s.running ∧
      (s.encodeChunk chunk output).encoder = s.encoder ∧
      (s.encodeChunk chunk output).bufferPool = (s.encoded chunk.payload).bufferPool := by
  obtain ⟨chunks, h⟩ := encoded_spec chunk.payload s
  have hencode : s.encode chunk.payload output = s.encoded chunk.payload := by
    rw [encode, if_pos he, hk]
  rw [encodeChunk, hencode]
  refine ⟨?_, ?_, rfl⟩
  · show (s.encoded chunk.payload).running = s.running
    rw [h.rest]
    rfl
  · show (s.encoded chunk.payload).encoder = s.encoder
    rw [h.rest]
    rfl

/-- The encoder that runs no longer drops the chunk. -/
theorem not_enqueued_of_stopped {s : StreamingSession} {chunk : Chunk} (hr : s.running = true)
    (ha : 10 ≤ s.bufferPool.getAvailableSize) (hrate : chunk.samplingRate = s.encoder.samplingRate)
    (hc : Produced chunk) (he : s.encoder.running = false) (output finish : List (List UInt8)) :
    ¬ EnqueuedCompletely s chunk output finish := by
  have hlength := hc.length_payload
  have hpos := hc.payloadSize_pos
  have hsame : (s.encodeChunk chunk output).transferBufferQueue = s.transferBufferQueue := by
    rw [encodeChunk, encode, he, if_neg Bool.false_ne_true]
  rw [EnqueuedCompletely, consumeChunk_of_accepted hr ha hrate hc.endOfStream]
  dsimp only
  rw [if_pos rfl, hsame]
  rintro ⟨chunks, hqueue, hcontents⟩
  rw [List.self_eq_append_right.mp hqueue] at hcontents
  rw [← hcontents] at hlength
  exact absurd hlength (Nat.ne_of_lt hpos)

/-- While the encoder runs, the chunk is queued completely exactly when it fits. -/
theorem enqueued_iff_of_running {s : StreamingSession} {chunk : Chunk}
    (hk : s.encoder.kind = .wave) (hr : s.running = true)
    (ha : 10 ≤ s.bufferPool.getAvailableSize) (hrate : chunk.samplingRate = s.encoder.samplingRate)
    (hc : Produced chunk) (he : s.encoder.running = true) (output finish : List (List UInt8)) :
    EnqueuedCompletely s chunk output finish ↔
      chunk.payloadSize ≤ s.bufferPool.getAvailableSize * bufferSize := by
  obtain ⟨chunks, hqueue, hcontents⟩ := encodeChunk_wave chunk hk he output
  rw [EnqueuedCompletely, consumeChunk_of_accepted hr ha hrate hc.endOfStream]
  dsimp only
  rw [if_pos rfl, hqueue, ← hc.length_payload]
  constructor
  · rintro ⟨chunks', hqueue', hcontents'⟩
    rw [List.append_cancel_left hqueue', hcontents'] at hcontents
    rw [hcontents]
    exact List.length_take_le _ _
  · intro hfits
    exact ⟨chunks, rfl, hcontents.trans (List.take_of_length_le hfits)⟩

/-- **An accepted chunk is queued completely exactly when** the encoder still runs and the
free buffers hold the chunk, in every state of a running session. -/
theorem enqueued_completely_iff {s : StreamingSession} (hk : s.encoder.kind = .wave)
    (hr : s.running = true) {chunk : Chunk} (hc : Produced chunk)
    (hrate : chunk.samplingRate = s.encoder.samplingRate) (output finish : List (List UInt8)) :
    EnqueuedCompletely s chunk output finish ↔
      s.bufferPool.getAvailableSize < 10 ∨ (s.encoder.running = true ∧
        chunk.payloadSize ≤ s.bufferPool.getAvailableSize * bufferSize) := by
  by_cases ha : s.bufferPool.getAvailableSize < 10
  · rw [EnqueuedCompletely, consumeChunk_of_refused hr ha]
    exact ⟨fun _ => Or.inl ha, fun _ => ⟨rfl, rfl⟩⟩
  · rw [or_iff_right ha]
    cases he : s.encoder.running with
    | false =>
      have hnot := not_enqueued_of_stopped hr (not_lt.mp ha) hrate hc he output finish
      exact ⟨fun h => absurd h hnot, fun h => absurd h.1 Bool.false_ne_true⟩
    | true =>
      rw [and_iff_right rfl]
      exact enqueued_iff_of_running hk hr (not_lt.mp ha) hrate hc he output finish

/-- A new session queues a long chunk completely. -/
theorem enqueued_completely_longChunk : EnqueuedCompletely longSession longChunk [] [] :=
  (enqueued_completely_iff rfl rfl produced_longChunk rfl [] []).mpr
    (Or.inr ⟨rfl, by rw [getAvailableSize_longSession]; decide⟩)

/-! ### The second of two long chunks -/

/-- How many octets the chunks of a call can hold. -/
theorem Enqueued.length_le {s s' : StreamingSession} {chunks : List TransferDataChunk}
    {octets : List UInt8} (h : Enqueued s s' chunks octets) :
    octets.length ≤ chunks.length * bufferSize := by
  have hsizes := h.sizes
  rw [← h.contents]
  clear h
  induction chunks with
  | nil => exact Nat.zero_le _
  | cons chunk chunks ih =>
    have hfirst : (StreamingSession.contents s'.bufferPool chunk).length ≤ bufferSize :=
      le_trans (List.length_take_le _ _) (hsizes chunk List.mem_cons_self).2.2
    have hrest := ih fun c hc => hsizes c (List.mem_cons_of_mem chunk hc)
    rw [List.flatMap_cons, List.length_append, List.length_cons, Nat.succ_mul]
    omega

/-- The first chunk takes 38 of the 64 buffers. -/
theorem getAvailableSize_afterLongChunk :
    (longSession.encoded longChunk.payload).bufferPool.getAvailableSize = 26 := by
  obtain ⟨chunks, h, hcount⟩ := encodedLoop_spec _ longChunk.payload longSession le_rfl
  have havailable := h.available
  have hle := h.length_le
  rw [getAvailableSize_longSession] at havailable hle
  rw [List.length_take, length_longChunk, bufferSize] at hle
  rw [length_longChunk, bufferSize] at hcount
  rw [encoded]
  omega

/-- **The second of two long chunks is accepted, and the end of it is dropped**: 26 buffers
are free, which is enough for `consumeChunk`, and not for the chunk. -/
theorem truncated_chunk :
    system.Admits longSession [.consumeChunk longChunk [] []] ∧
      Produced longChunk ∧
      (system.exec longSession [.consumeChunk longChunk [] []]).running = true ∧
      longChunk.samplingRate =
        (system.exec longSession [.consumeChunk longChunk [] []]).encoder.samplingRate ∧
      ¬ EnqueuedCompletely (system.exec longSession [.consumeChunk longChunk [] []]) longChunk
        [] [] := by
  have hstep : system.exec longSession [.consumeChunk longChunk [] []] =
      longSession.encodeChunk longChunk [] := by
    show (longSession.consumeChunk longChunk [] []).2 = _
    rw [consumeChunk_of_accepted rfl (by rw [getAvailableSize_longSession]; decide) rfl rfl]
  obtain ⟨hrunning, hencoder, hpool⟩ :=
    encodeChunk_same longChunk (s := longSession) rfl rfl []
  rw [hstep]
  refine ⟨⟨trivial, trivial⟩, produced_longChunk, hrunning, by rw [hencoder]; rfl, ?_⟩
  have hsize : longChunk.payloadSize = 153600 := rfl
  rw [enqueued_iff_of_running (by rw [hencoder]; rfl) hrunning
    (by rw [hpool, getAvailableSize_afterLongChunk]; decide) (by rw [hencoder]; rfl)
    produced_longChunk (by rw [hencoder]; rfl) [] [], hpool, getAvailableSize_afterLongChunk,
    hsize, bufferSize]
  omega

end StreamingSession

end SlimStreamer
