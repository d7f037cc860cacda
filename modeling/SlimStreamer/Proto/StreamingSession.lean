import SlimStreamer.Chunk
import SlimStreamer.Util.BufferPool

/-!
# The HTTP session of a player

`proto::StreamingSession`: the encoder hands its output to a callback, which copies it piece
by piece into buffers of a pool and queues these for transfer; `transferTask` writes the front
of the queue to the connection and runs again once that write is completed.

The handlers the session has posted to the event loop are counted here, and so are the flush
timers that run and the writes the connection has not completed.  A queued buffer is an index
of the pool, and a write points into it: what is transferred is what the memory of the buffer
holds when the write completes.

The wave encoder hands on what it is given.  The FLAC encoder is a library: its output, for a
start, a chunk or a stop, is an argument of the call.

* `Enqueued` — all that the encoded callback changes;
* `encoded_spec` — how much of the encoder's output it queues.
-/

namespace SlimStreamer

inductive EncoderKind where
  | wave | flac
  deriving DecidableEq, Repr

structure Encoder where
  kind : EncoderKind
  samplingRate : ℕ
  mime : String
  running : Bool
  deriving DecidableEq

/-- A callback that was given to `stop`; the empty one has no number. -/
abbrev Callback : Type := Option ℕ

structure TransferDataChunk where
  buffer : ℕ
  size : ℕ
  offset : ℕ
  deriving DecidableEq

/-- A `writeAsync` that is not completed: a part of a buffer. -/
structure Write where
  buffer : ℕ
  offset : ℕ
  size : ℕ
  deriving DecidableEq

/-- What the connection reports for a write. -/
structure Completion where
  error : Bool
  sizeTransferred : ℕ
  deriving DecidableEq

/-- The connection, as the session sees it. -/
structure StreamConnection where
  /-- `nativeSocket.is_open()`. -/
  isOpen : Bool
  /-- What was written synchronously. -/
  responses : List String
  writes : List Write
  /-- The octets reported transferred so far. -/
  transferred : List UInt8
  deriving DecidableEq

namespace StreamingSession

/-- The number of buffers of the pool. -/
def poolSize : ℕ := 64

/-- The size of each of them. -/
def bufferSize : ℕ := 4096

end StreamingSession

structure StreamingSession where
  clientID : List UInt8
  encoder : Encoder
  connection : StreamConnection
  running : Bool
  transferring : Bool
  bufferPool : BufferPool UInt8 StreamingSession.bufferSize
  transferBufferQueue : List TransferDataChunk
  framesProvided : ℕ
  /-- The octets pushed to `transferBufferQueue` so far. -/
  submitted : List UInt8
  /-- The posted `transferTask` handlers. -/
  transferTasks : ℕ
  /-- The flush timers that run, with the callbacks they carry. -/
  flushTimers : List Callback
  /-- The posted callbacks of `stop`. -/
  postedCallbacks : List Callback
  /-- The callbacks that have run. -/
  finishedCallbacks : List Callback

namespace StreamingSession

/-- The octets of a queued buffer: the first `size` of it. -/
def contents (pool : BufferPool UInt8 bufferSize) (chunk : TransferDataChunk) : List UInt8 :=
  (pool.getData chunk.buffer).take chunk.size

/-! ### The encoded callback -/

/-- Copying a piece to an allocated buffer and submitting it for transfer. -/
def submit (buffer : ℕ) (piece : { data : List UInt8 // data.length ≤ bufferSize })
    (s : StreamingSession) : StreamingSession :=
  { s with
    bufferPool := (s.bufferPool.setFree buffer false).copy buffer piece
    transferBufferQueue := s.transferBufferQueue ++ [⟨buffer, piece.1.length, 0⟩]
    submitted := s.submitted ++ piece.1
    transferTasks := s.transferTasks + 1 }

/-- The loop of the encoded callback; a round takes at least one octet, so that there are
never more rounds than octets. -/
def encodedLoop : ℕ → List UInt8 → StreamingSession → StreamingSession
  | 0, _, s => s
  | rounds + 1, data, s =>
    if data = [] then s
    else
      match s.bufferPool.allocate.1 with
      | none => s  -- transfer buffer is full - skipping encoded chunk
      | some buffer =>
        encodedLoop rounds (data.drop bufferSize)
          (s.submit buffer ⟨data.take bufferSize, List.length_take_le _ _⟩)

def encoded (data : List UInt8) (s : StreamingSession) : StreamingSession :=
  encodedLoop data.length data s

/-- The encoded callback for one piece of the encoder's output after the other. -/
def encodedAll (output : List (List UInt8)) (s : StreamingSession) : StreamingSession :=
  output.foldl (fun s data => s.encoded data) s

/-! ### The encoder -/

def setEncoderRunning (running : Bool) (s : StreamingSession) : StreamingSession :=
  { s with encoder := { s.encoder with running := running } }

/-- `encoderPtr->start()`: initializing the FLAC encoder writes the header of its stream.  It does
not fail here, as it does at a sampling rate of 0. -/
def encoderStart (output : List (List UInt8)) (s : StreamingSession) : StreamingSession :=
  match s.encoder.kind with
  | .wave => s.setEncoderRunning true
  | .flac => if s.encoder.running then s else (s.encodedAll output).setEncoderRunning true

/-- `encoderPtr->encode(data, size)`. -/
def encode (data : List UInt8) (output : List (List UInt8)) (s : StreamingSession) :
    StreamingSession :=
  if s.encoder.running then
    match s.encoder.kind with
    | .wave => s.encoded data
    | .flac => s.encodedAll output
  else s

/-- What `encoderPtr->stop()` does before it calls back: the FLAC encoder finishes its
stream. -/
def encoderStop (output : List (List UInt8)) (s : StreamingSession) : StreamingSession :=
  match s.encoder.kind with
  | .wave => s.setEncoderRunning false
  | .flac => if s.encoder.running then (s.encodedAll output).setEncoderRunning false else s

/-! ### Starting and stopping -/

def create (clientID : List UInt8) (kind : EncoderKind) (samplingRate : ℕ) (mime : String) :
    StreamingSession where
  clientID := clientID
  encoder := ⟨kind, samplingRate, mime, false⟩
  connection := ⟨true, [], [], []⟩
  running := false
  transferring := false
  bufferPool := BufferPool.create poolSize bufferSize 0
  transferBufferQueue := []
  framesProvided := 0
  submitted := []
  transferTasks := 0
  flushTimers := []
  postedCallbacks := []
  finishedCallbacks := []

/-- The response to a request. -/
def response (version mime : String) : String :=
  "HTTP/1.1 200 OK\r\n" ++ "Server: SlimStreamer (" ++ version ++ ")\r\n" ++
    "Connection: close\r\n" ++ "Content-Type: " ++ mime ++ "\r\n" ++ "\r\n"

def respond (text : String) (s : StreamingSession) : StreamingSession :=
  { s with connection := { s.connection with
      responses := if s.connection.isOpen then s.connection.responses ++ [text]
        else s.connection.responses } }

def start (version : String) (output : List (List UInt8)) (s : StreamingSession) :
    StreamingSession :=
  let s := s.encoderStart output
  let s := { s with running := true }
  s.respond (response version s.encoder.mime)

/-- Popping the whole queue, whose buffers go back to the pool. -/
def popAll (s : StreamingSession) : StreamingSession :=
  { s with
    bufferPool := s.transferBufferQueue.foldl (fun pool chunk => pool.release chunk.buffer)
      s.bufferPool
    transferBufferQueue := [] }

/-- The callback `stop` gives to `flush`. -/
def stopped (callback : Callback) (s : StreamingSession) : StreamingSession :=
  { s with
    running := false
    -- stopping connection will submit a onClose handler
    connection := { s.connection with isOpen := false }
    postedCallbacks := s.postedCallbacks ++ [callback] }

def flush (callback : Callback) (s : StreamingSession) : StreamingSession :=
  if s.transferring then
    -- waiting until data is transferred
    { s with flushTimers := s.flushTimers ++ [callback] }
  else s.popAll.stopped callback

def stop (callback : Callback) (output : List (List UInt8)) (s : StreamingSession) :
    StreamingSession :=
  if s.running then (s.encoderStop output).flush callback
  else { s with finishedCallbacks := s.finishedCallbacks ++ [callback] }

/-! ### Chunks and requests -/

/-- The end of `consumeChunk`; `output` is what the FLAC encoder makes of the chunk. -/
def encodeChunk (chunk : Chunk) (output : List (List UInt8)) (s : StreamingSession) :
    StreamingSession :=
  let s := s.encode chunk.payload output
  { s with framesProvided := s.framesProvided + chunk.frames }

/-- `finish` is what the FLAC encoder writes when it is stopped, if it is. -/
def consumeChunk (chunk : Chunk) (output finish : List (List UInt8)) (s : StreamingSession) :
    Bool × StreamingSession :=
  if s.running then
    -- streamer will redeliver this chunk
    if s.bufferPool.getAvailableSize < 10 then (false, s)
    else if chunk.samplingRate ≠ s.encoder.samplingRate then (true, s.stop none finish)
    else if chunk.endOfStream then (true, (s.stop none finish).encodeChunk chunk output)
    else (true, s.encodeChunk chunk output)
  else (true, s)

/-- The octets of `GET`. -/
def get : List UInt8 := [71, 69, 84]

/-- `data` is the receive buffer, whose first three octets are compared whatever was received. -/
def onRequest (data : List UInt8) (finish : List (List UInt8)) (s : StreamingSession) :
    StreamingSession :=
  if s.running then
    if data.take 3 ≠ get then s.stop none finish else s
  else s

/-! ### The transfer loop -/

/-- Popping the front of the queue, whose buffer goes back to the pool. -/
def pop (s : StreamingSession) : StreamingSession :=
  match s.transferBufferQueue with
  | [] => s
  | chunk :: rest =>
    { s with
      bufferPool := s.bufferPool.release chunk.buffer
      transferBufferQueue := rest }

/-- The RAII guard of the completion handler. -/
def onExit (releaseBuffer : Bool) (s : StreamingSession) : StreamingSession :=
  let s := if releaseBuffer then s.pop else s
  { s with
    transferring := false
    transferTasks := s.transferTasks + 1 }

/-- The completion handler: only the remainder of the front is to be transferred, or nothing
of it. -/
def onCompletion (completion : Completion) (s : StreamingSession) : StreamingSession :=
  if completion.error then s.onExit true
  else
    -- guarding against cases when queue has been flushed
    match s.transferBufferQueue with
    | [] => s.onExit true
    | chunk :: rest =>
      if completion.sizeTransferred < chunk.size - chunk.offset then
        { s with transferBufferQueue :=
            { chunk with offset := chunk.offset + completion.sizeTransferred } :: rest }.onExit
          false
      else s.onExit true

/-- The octets a write transfers. -/
def octetsOf (pool : BufferPool UInt8 bufferSize) (write : Write) (sizeTransferred : ℕ) :
    List UInt8 :=
  (((pool.getData write.buffer).drop write.offset).take write.size).take sizeTransferred

def transfer (octets : List UInt8) (s : StreamingSession) : StreamingSession :=
  { s with connection := { s.connection with
      transferred := s.connection.transferred ++ octets } }

/-- A write is completed. -/
def complete (write : Write) (completion : Completion) (s : StreamingSession) :
    StreamingSession :=
  (s.transfer (octetsOf s.bufferPool write completion.sizeTransferred)).onCompletion completion

/-- The write of what is left of the front. -/
def frontWrite (chunk : TransferDataChunk) : Write where
  buffer := chunk.buffer
  offset := chunk.offset
  size := chunk.size - chunk.offset

def setTransferring (transferring : Bool) (s : StreamingSession) : StreamingSession :=
  { s with transferring := transferring }

def setWrites (writes : List Write) (s : StreamingSession) : StreamingSession :=
  { s with connection := { s.connection with writes := writes } }

/-- `transferTask`; the connection may complete the write within the call. -/
def transferTask (reply : Option Completion) (s : StreamingSession) : StreamingSession :=
  match s.transferBufferQueue with
  | [] => s
  | chunk :: _ =>
    -- there is already an ongoing transfer
    if s.transferring then s
    else
      match reply with
      | some completion => (s.setTransferring true).complete (frontWrite chunk) completion
      | none => (s.setTransferring true).setWrites (s.connection.writes ++ [frontWrite chunk])

/-! ### What the encoded callback changes -/

/-- The state after chunks were submitted: the pool, the end of the queue, what was pushed
to it and the number of posted handlers. -/
def withChunks (pool : BufferPool UInt8 bufferSize) (chunks : List TransferDataChunk)
    (octets : List UInt8) (s : StreamingSession) : StreamingSession :=
  { s with
    bufferPool := pool
    transferBufferQueue := s.transferBufferQueue ++ chunks
    submitted := s.submitted ++ octets
    transferTasks := s.transferTasks + chunks.length }

/-- **All that the encoded callback changes**: `chunks` are appended to the queue, in buffers
that were free, and hold `octets`; no buffer that was in use is written to. -/
structure Enqueued (s s' : StreamingSession) (chunks : List TransferDataChunk)
    (octets : List UInt8) : Prop where
  rest : s' = s.withChunks s'.bufferPool chunks octets
  contents : chunks.flatMap (contents s'.bufferPool) = octets
  sizes : ∀ chunk ∈ chunks, chunk.offset = 0 ∧ 0 < chunk.size ∧ chunk.size ≤ bufferSize
  fresh : ∀ chunk ∈ chunks, s.bufferPool.inUse chunk.buffer = false
  nodup : (chunks.map TransferDataChunk.buffer).Nodup
  inUse : ∀ i, s'.bufferPool.inUse i = true ↔
    s.bufferPool.inUse i = true ∨ i ∈ chunks.map TransferDataChunk.buffer
  kept : ∀ i, s.bufferPool.inUse i = true → s'.bufferPool.getData i = s.bufferPool.getData i
  available : s'.bufferPool.getAvailableSize + chunks.length = s.bufferPool.getAvailableSize

theorem Enqueued.refl (s : StreamingSession) : Enqueued s s [] [] where
  rest := by rw [withChunks, List.append_nil, List.append_nil]; rfl
  contents := rfl
  sizes := List.forall_mem_nil _
  fresh := List.forall_mem_nil _
  nodup := List.nodup_nil
  inUse := fun i => by simp
  kept := fun _ _ => rfl
  available := rfl

theorem contents_congr {pool pool' : BufferPool UInt8 bufferSize} {chunks : List TransferDataChunk}
    (h : ∀ chunk ∈ chunks, pool'.getData chunk.buffer = pool.getData chunk.buffer) :
    chunks.flatMap (contents pool') = chunks.flatMap (contents pool) := by
  induction chunks with
  | nil => rfl
  | cons chunk chunks ih =>
    rw [List.flatMap_cons, List.flatMap_cons, contents, contents, h chunk List.mem_cons_self,
      ih fun c hc => h c (List.mem_cons_of_mem chunk hc)]

theorem Enqueued.trans {s s' s'' : StreamingSession} {chunks chunks' : List TransferDataChunk}
    {octets octets' : List UInt8} (h : Enqueued s s' chunks octets)
    (h' : Enqueued s' s'' chunks' octets') :
    Enqueued s s'' (chunks ++ chunks') (octets ++ octets') := by
  have hused : ∀ chunk ∈ chunks, s'.bufferPool.inUse chunk.buffer = true := fun chunk hc =>
    (h.inUse chunk.buffer).mpr (Or.inr (List.mem_map.mpr ⟨chunk, hc, rfl⟩))
  refine ⟨?_, ?_, ?_, ?_, ?_, ?_, ?_, ?_⟩
  · rw [h'.rest, h.rest]
    simp only [withChunks, List.append_assoc, List.length_append, Nat.add_assoc]
  · rw [List.flatMap_append, h'.contents,
      contents_congr fun chunk hc => h'.kept chunk.buffer (hused chunk hc), h.contents]
  · intro chunk hc
    exact (List.mem_append.mp hc).elim (h.sizes chunk) (h'.sizes chunk)
  · intro chunk hc
    rcases List.mem_append.mp hc with hc | hc
    · exact h.fresh chunk hc
    · rw [Bool.eq_false_iff]
      intro hu
      have hfree := h'.fresh chunk hc
      rw [(h.inUse chunk.buffer).mpr (Or.inl hu)] at hfree
      cases hfree
  · rw [List.map_append]
    refine List.Nodup.append h.nodup h'.nodup fun i hi hi' => ?_
    obtain ⟨chunk, hc, rfl⟩ := List.mem_map.mp hi
    obtain ⟨chunk', hc', heq⟩ := List.mem_map.mp hi'
    have hfree := h'.fresh chunk' hc'
    rw [heq, hused chunk hc] at hfree
    cases hfree
  · intro i
    rw [h'.inUse, h.inUse, List.map_append, List.mem_append, or_assoc]
  · intro i hi
    rw [h'.kept i ((h.inUse i).mpr (Or.inl hi)), h.kept i hi]
  · have ha := h.available
    have ha' := h'.available
    rw [List.length_append]
    omega

/-- One piece. -/
theorem submit_spec {s : StreamingSession} (h : 0 < s.bufferPool.getAvailableSize)
    (piece : { data : List UInt8 // data.length ≤ bufferSize }) (hp : piece.1 ≠ []) :
    ∃ buffer, s.bufferPool.allocate.1 = some buffer ∧
      Enqueued s (s.submit buffer piece) [⟨buffer, piece.1.length, 0⟩] piece.1 := by
  obtain ⟨buffer, hallocate, hlt, hfree, havailable⟩ := BufferPool.allocate_spec h
  have hne : ∀ i, s.bufferPool.inUse i = true → buffer ≠ i := by
    rintro i hi rfl
    rw [hfree] at hi
    cases hi
  refine ⟨buffer, by rw [hallocate], rfl, ?_, ?_, ?_, List.nodup_singleton _, ?_, ?_, ?_⟩
  · show (((s.bufferPool.setFree buffer false).copy buffer piece).getData buffer).take
      piece.1.length ++ [] = piece.1
    rw [List.append_nil]
    exact BufferPool.copy_getData_take _ (by rwa [BufferPool.getSize_setFree]) piece
  · intro chunk hc
    rw [List.mem_singleton.mp hc]
    exact ⟨rfl, List.length_pos_of_ne_nil hp, piece.2⟩
  · intro chunk hc
    rw [List.mem_singleton.mp hc]
    exact hfree
  · intro i
    show ((s.bufferPool.setFree buffer false).copy buffer piece).inUse i = true ↔
      s.bufferPool.inUse i = true ∨ i ∈ [buffer]
    rw [BufferPool.copy_inUse, BufferPool.setFree_inUse, List.mem_singleton]
    by_cases hi : buffer = i
    · subst hi
      rw [if_pos rfl, decide_eq_true hlt]
      simp
    · rw [if_neg hi]
      simp [Ne.symm hi]
  · intro i hi
    show ((s.bufferPool.setFree buffer false).copy buffer piece).getData i = _
    rw [BufferPool.copy_getData_ne _ (hne i hi), BufferPool.setFree_getData]
  · show ((s.bufferPool.setFree buffer false).copy buffer piece).getAvailableSize + 1 = _
    rw [BufferPool.copy_getAvailableSize]
    exact havailable

/-- One more chunk, for at most `size` more octets. -/
theorem count_succ {size length count : ℕ} (hlength : 0 < length)
    (h : count * size < length - size + size) : (1 + count) * size < length + size := by
  rw [Nat.add_mul, Nat.one_mul]
  rcases Nat.eq_zero_or_pos count with rfl | hpos
  · omega
  · have hle : size ≤ count * size := Nat.le_mul_of_pos_left size hpos
    omega

/-- The chunks hold the beginning of the data, and all of them but the last are full. -/
theorem encodedLoop_spec (rounds : ℕ) (data : List UInt8) (s : StreamingSession)
    (h : data.length ≤ rounds) :
    ∃ chunks, Enqueued s (encodedLoop rounds data s) chunks
        (data.take (s.bufferPool.getAvailableSize * bufferSize)) ∧
      chunks.length * bufferSize < data.length + bufferSize := by
  have hnone : ∀ data : List UInt8,
      ([] : List TransferDataChunk).length * bufferSize < data.length + bufferSize := by
    intro data
    rw [List.length_nil, bufferSize]
    omega
  induction rounds generalizing data s with
  | zero =>
    rw [List.length_eq_zero_iff.mp (Nat.le_zero.mp h), List.take_nil]
    exact ⟨[], Enqueued.refl s, hnone []⟩
  | succ rounds ih =>
    rw [encodedLoop]
    by_cases hd : data = []
    · rw [if_pos hd, hd, List.take_nil]
      exact ⟨[], Enqueued.refl s, hnone []⟩
    · rw [if_neg hd]
      rcases Nat.eq_zero_or_pos s.bufferPool.getAvailableSize with h0 | hpos
      · rw [BufferPool.allocate_eq_none h0, h0, Nat.zero_mul, List.take_zero]
        exact ⟨[], Enqueued.refl s, hnone data⟩
      · have hlen := List.length_pos_of_ne_nil hd
        have hpiece : data.take bufferSize ≠ [] := by
          rw [ne_eq, List.take_eq_nil_iff, not_or]
          exact ⟨by decide, hd⟩
        obtain ⟨buffer, hallocate, hsubmit⟩ :=
          submit_spec hpos ⟨data.take bufferSize, List.length_take_le _ _⟩ hpiece
        rw [hallocate]
        obtain ⟨chunks, hrest, hcount⟩ := ih (data.drop bufferSize)
          (s.submit buffer ⟨data.take bufferSize, List.length_take_le _ _⟩) (by
            rw [List.length_drop, bufferSize]
            omega)
        have havailable : (s.submit buffer
            ⟨data.take bufferSize, List.length_take_le _ _⟩).bufferPool.getAvailableSize + 1 =
              s.bufferPool.getAvailableSize := hsubmit.available
        have hall := hsubmit.trans hrest
        rw [← List.take_add, Nat.add_comm, ← Nat.succ_mul, Nat.succ_eq_add_one, havailable] at hall
        refine ⟨_, hall, ?_⟩
        rw [List.length_drop] at hcount
        rw [List.length_append, List.length_singleton]
        exact count_succ hlen hcount

/-- **The encoded callback queues as much as the free buffers hold**, from the beginning of
the data. -/
theorem encoded_spec (data : List UInt8) (s : StreamingSession) :
    ∃ chunks, Enqueued s (s.encoded data) chunks
      (data.take (s.bufferPool.getAvailableSize * bufferSize)) := by
  obtain ⟨chunks, h, _⟩ := encodedLoop_spec data.length data s le_rfl
  exact ⟨chunks, h⟩

theorem encodedAll_spec (output : List (List UInt8)) (s : StreamingSession) :
    ∃ chunks octets, Enqueued s (s.encodedAll output) chunks octets := by
  induction output generalizing s with
  | nil => exact ⟨[], [], Enqueued.refl s⟩
  | cons data output ih =>
    obtain ⟨chunks, hdata⟩ := encoded_spec data s
    obtain ⟨chunks', octets, hrest⟩ := ih (s.encoded data)
    exact ⟨_, _, hdata.trans hrest⟩

end StreamingSession

end SlimStreamer
