import SlimStreamer.Lib.Execution
import SlimStreamer.Proto.StreamingSession

/-!
# The transfer loop of an HTTP session

What the event loop can do to a session, in any order: the encoder hands over data, posted
`transferTask` handlers and flush timers run, writes complete, and the session is stopped.

`Transferring` is the invariant of the loop: at most one write is outstanding and it is the
rest of the front of the queue, no octet is lost or sent twice, the buffers of the queue are
the ones that are in use, and the loop does not stall.

* `transferring_step` — every call keeps it, unless a flush drops what is queued;
* `transfer_loop` — it holds in every run before `stop` is called, and a buffer is released
  exactly when its last octet was transferred;
* `graceful_stop` — in the runs in which no flush drops anything, everything is transferred
  before the connection is stopped.
-/

namespace SlimStreamer

namespace StreamingSession

open GuardedExecution

/-- A call to the session from the encoder, the Streamer, the event loop or the connection. -/
inductive Stimulus where
  /-- The encoder calls back. -/
  | encoded (data : List UInt8)
  | consumeChunk (chunk : Chunk) (output finish : List (List UInt8))
  | onRequest (data : List UInt8) (finish : List (List UInt8))
  | stop (callback : Callback) (finish : List (List UInt8))
  /-- A posted `transferTask` runs; `reply` completes its write at once. -/
  | transferTask (reply : Option Completion)
  | completion (completion : Completion)
  | flushTimer
  | postedCallback

/-- A `transferTask` that runs now calls `writeAsync`. -/
def issuesWrite (s : StreamingSession) : Bool :=
  !s.transferBufferQueue.isEmpty && !s.transferring

/-- A handler has to be posted, a write outstanding, a timer running; and a closed connection
completes a write at once, with an error. -/
def enabled (s : StreamingSession) : Stimulus → Prop
  | .encoded _ => s.encoder.running = true
  | .transferTask reply => 0 < s.transferTasks ∧
    (s.issuesWrite = true → s.connection.isOpen = false → reply = some ⟨true, 0⟩)
  | .completion _ => s.connection.writes ≠ []
  | .flushTimer => s.flushTimers ≠ []
  | .postedCallback => s.postedCallbacks ≠ []
  | _ => True

instance (s : StreamingSession) : DecidablePred (enabled s)
  | .encoded _ => inferInstanceAs (Decidable (s.encoder.running = true))
  | .transferTask reply => inferInstanceAs (Decidable (0 < s.transferTasks ∧
      (s.issuesWrite = true → s.connection.isOpen = false → reply = some ⟨true, 0⟩)))
  | .completion _ => inferInstanceAs (Decidable (s.connection.writes ≠ []))
  | .flushTimer => inferInstanceAs (Decidable (s.flushTimers ≠ []))
  | .postedCallback => inferInstanceAs (Decidable (s.postedCallbacks ≠ []))
  | .consumeChunk _ _ _ | .onRequest _ _ | .stop _ _ => isTrue trivial

/-- The handler is not posted any longer. -/
def takeTask (s : StreamingSession) : StreamingSession :=
  { s with transferTasks := s.transferTasks - 1 }

def onTransferTask (reply : Option Completion) (s : StreamingSession) : StreamingSession :=
  s.takeTask.transferTask reply

/-- The connection completes its first write. -/
def onWritten (completion : Completion) (s : StreamingSession) : StreamingSession :=
  match s.connection.writes with
  | [] => s
  | write :: rest => (s.setWrites rest).complete write completion

/-- The first flush timer runs out. -/
def onFlushTimer (s : StreamingSession) : StreamingSession :=
  match s.flushTimers with
  | [] => s
  | callback :: rest => { s with flushTimers := rest }.flush callback

def onPostedCallback (s : StreamingSession) : StreamingSession :=
  match s.postedCallbacks with
  | [] => s
  | callback :: rest =>
    { s with
      postedCallbacks := rest
      finishedCallbacks := s.finishedCallbacks ++ [callback] }

def step (s : StreamingSession) : Stimulus → StreamingSession
  | .encoded data => s.encoded data
  | .consumeChunk chunk output finish => (s.consumeChunk chunk output finish).2
  | .onRequest data finish => s.onRequest data finish
  | .stop callback finish => s.stop callback finish
  | .transferTask reply => s.onTransferTask reply
  | .completion completion => s.onWritten completion
  | .flushTimer => s.onFlushTimer
  | .postedCallback => s.onPostedCallback

def system : System StreamingSession Stimulus where
  enabled := enabled
  step := step

instance (s : StreamingSession) (e : Stimulus) : Decidable (system.enabled s e) :=
  inferInstanceAs (Decidable (enabled s e))

/-! ### The invariant -/

/-- What is left of a queued buffer. -/
def remaining (pool : BufferPool UInt8 bufferSize) (chunk : TransferDataChunk) : List UInt8 :=
  (contents pool chunk).drop chunk.offset

/-- What is left of the queue. -/
def remainder (s : StreamingSession) : List UInt8 :=
  s.transferBufferQueue.flatMap (remaining s.bufferPool)

/-- The indices of the queued buffers. -/
def buffers (s : StreamingSession) : List ℕ :=
  s.transferBufferQueue.map TransferDataChunk.buffer

/-- What holds whether or not a write is outstanding. -/
structure Queued (s : StreamingSession) : Prop where
  /-- No octet is lost, and none is sent twice. -/
  lossless : s.submitted = s.connection.transferred ++ s.remainder
  sizes : ∀ chunk ∈ s.transferBufferQueue, chunk.offset < chunk.size ∧ chunk.size ≤ bufferSize
  nodup : s.buffers.Nodup
  inUse : ∀ i, s.bufferPool.inUse i = true ↔ i ∈ s.buffers

/-- **The invariant of the transfer loop.** -/
structure Transferring (s : StreamingSession) : Prop extends Queued s where
  /-- Nothing is outstanding, or what is left of the front. -/
  outstanding : (s.transferring = false ∧ s.connection.writes = []) ∨
    ∃ chunk rest, s.transferBufferQueue = chunk :: rest ∧ s.transferring = true ∧
      s.connection.writes = [frontWrite chunk]
  /-- The loop does not stall. -/
  pending : s.transferBufferQueue ≠ [] → s.transferring = false → 0 < s.transferTasks

/-- The fields the invariant is about are the same. -/
structure SameTransfer (s s' : StreamingSession) : Prop where
  bufferPool : s'.bufferPool = s.bufferPool
  transferBufferQueue : s'.transferBufferQueue = s.transferBufferQueue
  submitted : s'.submitted = s.submitted
  transferred : s'.connection.transferred = s.connection.transferred
  writes : s'.connection.writes = s.connection.writes
  transferring : s'.transferring = s.transferring
  transferTasks : s'.transferTasks = s.transferTasks

theorem Queued.of_same {s s' : StreamingSession} (hs : Queued s) (h : SameTransfer s s') :
    Queued s' where
  lossless := by
    rw [remainder, h.submitted, h.transferred, h.transferBufferQueue, h.bufferPool]
    exact hs.lossless
  sizes := by
    rw [h.transferBufferQueue]
    exact hs.sizes
  nodup := by
    rw [buffers, h.transferBufferQueue]
    exact hs.nodup
  inUse := by
    rw [buffers, h.transferBufferQueue, h.bufferPool]
    exact hs.inUse

theorem Transferring.of_same {s s' : StreamingSession} (hs : Transferring s)
    (h : SameTransfer s s') : Transferring s' where
  toQueued := hs.toQueued.of_same h
  outstanding := by
    rw [h.transferring, h.writes, h.transferBufferQueue]
    exact hs.outstanding
  pending := by
    rw [h.transferring, h.transferTasks, h.transferBufferQueue]
    exact hs.pending

/-! ### The encoder hands over data -/

theorem remaining_length {s : StreamingSession} (hs : Queued s) {chunk : TransferDataChunk}
    (hc : chunk ∈ s.transferBufferQueue) :
    (remaining s.bufferPool chunk).length = chunk.size - chunk.offset := by
  have hused := (hs.inUse chunk.buffer).mpr (List.mem_map.mpr ⟨chunk, hc, rfl⟩)
  rw [remaining, contents, List.length_drop, List.length_take, BufferPool.length_getData hused,
    Nat.min_eq_left (hs.sizes chunk hc).2]

theorem remainder_congr {pool pool' : BufferPool UInt8 bufferSize}
    {chunks : List TransferDataChunk}
    (h : ∀ chunk ∈ chunks, pool'.getData chunk.buffer = pool.getData chunk.buffer) :
    chunks.flatMap (remaining pool') = chunks.flatMap (remaining pool) := by
  induction chunks with
  | nil => rfl
  | cons chunk chunks ih =>
    rw [List.flatMap_cons, List.flatMap_cons, remaining, remaining, contents, contents,
      h chunk List.mem_cons_self, ih fun c hc => h c (List.mem_cons_of_mem chunk hc)]

/-- Nothing of a new chunk is transferred. -/
theorem remainder_of_new {pool : BufferPool UInt8 bufferSize} {chunks : List TransferDataChunk}
    (h : ∀ chunk ∈ chunks, chunk.offset = 0) :
    chunks.flatMap (remaining pool) = chunks.flatMap (contents pool) := by
  induction chunks with
  | nil => rfl
  | cons chunk chunks ih =>
    rw [List.flatMap_cons, List.flatMap_cons, remaining, h chunk List.mem_cons_self,
      List.drop_zero, ih fun c hc => h c (List.mem_cons_of_mem chunk hc)]

theorem queued_enqueued {s s' : StreamingSession} {chunks : List TransferDataChunk}
    {octets : List UInt8} (hs : Queued s) (h : Enqueued s s' chunks octets) : Queued s' := by
  have hkept : ∀ chunk ∈ s.transferBufferQueue,
      s'.bufferPool.getData chunk.buffer = s.bufferPool.getData chunk.buffer := fun chunk hc =>
    h.kept chunk.buffer ((hs.inUse chunk.buffer).mpr (List.mem_map.mpr ⟨chunk, hc, rfl⟩))
  have hqueue : s'.transferBufferQueue = s.transferBufferQueue ++ chunks := by
    rw [h.rest]
    rfl
  have hbuffers : s'.buffers = s.buffers ++ chunks.map TransferDataChunk.buffer := by
    rw [buffers, hqueue, List.map_append]
    rfl
  refine ⟨?_, ?_, ?_, ?_⟩
  · have hsubmitted : s'.submitted = s.submitted ++ octets := by
      rw [h.rest]
      rfl
    have htransferred : s'.connection.transferred = s.connection.transferred := by
      rw [h.rest]
      rfl
    rw [hsubmitted, htransferred, remainder, hqueue, List.flatMap_append, remainder_congr hkept,
      remainder_of_new fun chunk hc => (h.sizes chunk hc).1, h.contents, hs.lossless,
      List.append_assoc]
    rfl
  · rw [hqueue]
    intro chunk hc
    rcases List.mem_append.mp hc with hc | hc
    · exact hs.sizes chunk hc
    · obtain ⟨hoffset, hpos, hle⟩ := h.sizes chunk hc
      rw [hoffset]
      exact ⟨hpos, hle⟩
  · rw [hbuffers]
    refine List.Nodup.append hs.nodup h.nodup fun i hi hi' => ?_
    obtain ⟨chunk, hc, rfl⟩ := List.mem_map.mp hi'
    have hfree := h.fresh chunk hc
    rw [(hs.inUse chunk.buffer).mpr hi] at hfree
    cases hfree
  · intro i
    rw [h.inUse, hs.inUse, hbuffers, List.mem_append]

theorem transferring_enqueued {s s' : StreamingSession} {chunks : List TransferDataChunk}
    {octets : List UInt8} (hs : Transferring s) (h : Enqueued s s' chunks octets) :
    Transferring s' := by
  refine ⟨queued_enqueued hs.toQueued h, ?_, ?_⟩
  · rw [h.rest]
    rcases hs.outstanding with hnone | ⟨chunk, rest, hqueue, htransferring, hwrites⟩
    · exact Or.inl hnone
    · refine Or.inr ⟨chunk, rest ++ chunks, ?_, htransferring, hwrites⟩
      show s.transferBufferQueue ++ chunks = _
      rw [hqueue]
      rfl
  · rw [h.rest]
    intro hne hidle
    show 0 < s.transferTasks + chunks.length
    cases chunks with
    | cons chunk chunks =>
      rw [List.length_cons]
      omega
    | nil =>
      have hpending := hs.pending (by rwa [withChunks, List.append_nil] at hne) hidle
      omega

/-! ### A write completes -/

section Completion

variable {s : StreamingSession} {chunk : TransferDataChunk} {rest : List TransferDataChunk}
  {completion : Completion}

/-- The write of the front transfers the beginning of what is left of it. -/
theorem octetsOf_frontWrite (pool : BufferPool UInt8 bufferSize) (chunk : TransferDataChunk)
    (n : ℕ) : octetsOf pool (frontWrite chunk) n = (remaining pool chunk).take n := by
  rw [octetsOf, remaining, contents, List.drop_take]
  rfl

/-- The front after a part of it was transferred. -/
def advance (n : ℕ) (chunk : TransferDataChunk) : TransferDataChunk :=
  { chunk with offset := chunk.offset + n }

/-- A write was completed, which leaves a pool and a queue. -/
def afterWrite (octets : List UInt8) (pool : BufferPool UInt8 bufferSize)
    (queue : List TransferDataChunk) (s : StreamingSession) : StreamingSession :=
  { s.transfer octets with
    bufferPool := pool
    transferBufferQueue := queue
    transferring := false
    transferTasks := s.transferTasks + 1 }

/-- An incomplete write: only the remainder is transferred next. -/
theorem complete_incomplete (hq : s.transferBufferQueue = chunk :: rest)
    (he : completion.error = false)
    (hn : completion.sizeTransferred < chunk.size - chunk.offset) :
    s.complete (frontWrite chunk) completion =
      s.afterWrite ((remaining s.bufferPool chunk).take completion.sizeTransferred) s.bufferPool
        (advance completion.sizeTransferred chunk :: rest) := by
  have hqueue : ∀ octets, (s.transfer octets).transferBufferQueue = chunk :: rest := fun _ => hq
  rw [complete, octetsOf_frontWrite, onCompletion, he, if_neg Bool.false_ne_true, hqueue]
  dsimp only
  rw [if_pos hn]
  rfl

/-- A complete write: the front is popped. -/
theorem complete_all (hq : s.transferBufferQueue = chunk :: rest) (he : completion.error = false)
    (hn : completion.sizeTransferred = chunk.size - chunk.offset) :
    s.complete (frontWrite chunk) completion =
      s.afterWrite ((remaining s.bufferPool chunk).take completion.sizeTransferred)
        (s.bufferPool.release chunk.buffer) rest := by
  have hqueue : ∀ octets, (s.transfer octets).transferBufferQueue = chunk :: rest := fun _ => hq
  rw [complete, octetsOf_frontWrite, onCompletion, he, if_neg Bool.false_ne_true, hqueue]
  dsimp only
  rw [if_neg (by omega), onExit, if_pos rfl, pop, hqueue]
  rfl

theorem transferring_incomplete (hs : Queued s) (hw : s.connection.writes = [])
    (hq : s.transferBufferQueue = chunk :: rest) {n : ℕ} (hn : n < chunk.size - chunk.offset) :
    Transferring (s.afterWrite ((remaining s.bufferPool chunk).take n) s.bufferPool
      (advance n chunk :: rest)) := by
  have hbuffers : s.buffers = chunk.buffer :: rest.map TransferDataChunk.buffer := by
    rw [buffers, hq]
    rfl
  refine ⟨⟨?_, ?_, ?_, ?_⟩, Or.inl ⟨rfl, hw⟩, fun _ _ => Nat.succ_pos _⟩
  · show s.submitted = (s.connection.transferred ++ (remaining s.bufferPool chunk).take n) ++
      ((contents s.bufferPool chunk).drop (chunk.offset + n) ++
        rest.flatMap (remaining s.bufferPool))
    rw [← List.drop_drop, List.append_assoc, ← List.append_assoc (List.take n _)]
    show _ = _ ++ (((remaining s.bufferPool chunk).take n ++
      (remaining s.bufferPool chunk).drop n) ++ _)
    rw [List.take_append_drop, hs.lossless, remainder, hq, List.flatMap_cons]
  · intro c hc
    have hsizes := hs.sizes
    rw [hq] at hsizes
    rcases List.mem_cons.mp hc with rfl | hc
    · obtain ⟨hlt, hle⟩ := hsizes chunk List.mem_cons_self
      refine ⟨?_, hle⟩
      show chunk.offset + n < chunk.size
      omega
    · exact hsizes c (List.mem_cons_of_mem chunk hc)
  · show (chunk.buffer :: rest.map TransferDataChunk.buffer).Nodup
    rw [← hbuffers]
    exact hs.nodup
  · intro i
    show _ ↔ i ∈ chunk.buffer :: rest.map TransferDataChunk.buffer
    rw [← hbuffers]
    exact hs.inUse i

/-- The pool once the buffer of the front was released. -/
theorem release_inUse (hs : Queued s) (hq : s.transferBufferQueue = chunk :: rest) (i : ℕ) :
    (s.bufferPool.release chunk.buffer).inUse i = true ↔
      i ∈ rest.map TransferDataChunk.buffer := by
  have hbuffers : s.buffers = chunk.buffer :: rest.map TransferDataChunk.buffer := by
    rw [buffers, hq]
    rfl
  have hnodup := hs.nodup
  rw [hbuffers, List.nodup_cons] at hnodup
  rw [BufferPool.release, BufferPool.setFree_inUse]
  by_cases hi : chunk.buffer = i
  · subst hi
    rw [if_pos rfl]
    simp [hnodup.1]
  · rw [if_neg hi, hs.inUse, hbuffers, List.mem_cons, or_iff_right (Ne.symm hi)]

theorem transferring_all (hs : Queued s) (hw : s.connection.writes = [])
    (hq : s.transferBufferQueue = chunk :: rest) {n : ℕ} (hn : n = chunk.size - chunk.offset) :
    Transferring (s.afterWrite ((remaining s.bufferPool chunk).take n)
      (s.bufferPool.release chunk.buffer) rest) := by
  have hsizes := hs.sizes
  have hnodup := hs.nodup
  rw [buffers] at hnodup
  rw [hq] at hsizes hnodup
  have hlength := remaining_length hs (hq ▸ List.mem_cons_self)
  refine ⟨⟨?_, ?_, ?_, ?_⟩, Or.inl ⟨rfl, hw⟩, fun _ _ => Nat.succ_pos _⟩
  · show s.submitted = (s.connection.transferred ++ (remaining s.bufferPool chunk).take n) ++
      rest.flatMap (remaining (s.bufferPool.release chunk.buffer))
    rw [BufferPool.release,
      remainder_congr fun c _ => BufferPool.setFree_getData s.bufferPool chunk.buffer true _,
      List.take_of_length_le (by omega), List.append_assoc, hs.lossless, remainder, hq,
      List.flatMap_cons]
  · exact fun c hc => hsizes c (List.mem_cons_of_mem chunk hc)
  · exact (List.nodup_cons.mp hnodup).2
  · exact release_inUse hs hq

/-- A write of the front that reports no error and no more than was asked for. -/
theorem transferring_complete (hs : Queued s) (hw : s.connection.writes = [])
    (hq : s.transferBufferQueue = chunk :: rest) (he : completion.error = false)
    (hn : completion.sizeTransferred ≤ chunk.size - chunk.offset) :
    Transferring (s.complete (frontWrite chunk) completion) := by
  rcases Nat.lt_or_eq_of_le hn with hlt | heq
  · rw [complete_incomplete hq he hlt]
    exact transferring_incomplete hs hw hq hlt
  · rw [complete_all hq he heq]
    exact transferring_all hs hw hq heq

/-- **A buffer is released exactly when the last octet of its front was transferred.** -/
theorem complete_releases (hs : Queued s) (hq : s.transferBufferQueue = chunk :: rest)
    (he : completion.error = false)
    (hn : completion.sizeTransferred ≤ chunk.size - chunk.offset) (i : ℕ) :
    (s.bufferPool.inUse i = true ∧
        (s.complete (frontWrite chunk) completion).bufferPool.inUse i = false) ↔
      chunk.buffer = i ∧ (s.complete (frontWrite chunk) completion).connection.transferred =
        s.connection.transferred ++ remaining s.bufferPool chunk := by
  have hlength := remaining_length hs (hq ▸ List.mem_cons_self)
  have hbuffers : s.buffers = chunk.buffer :: rest.map TransferDataChunk.buffer := by
    rw [buffers, hq]
    rfl
  rcases Nat.lt_or_eq_of_le hn with hlt | heq
  · rw [complete_incomplete hq he hlt]
    constructor
    · rintro ⟨hused, hfree⟩
      rw [show (s.afterWrite _ s.bufferPool _).bufferPool = s.bufferPool from rfl, hused] at hfree
      cases hfree
    · rintro ⟨_, hall⟩
      have htake := congrArg List.length (List.append_cancel_left hall)
      rw [List.length_take] at htake
      omega
  · rw [complete_all hq he heq]
    have hafter := release_inUse hs hq i
    have hnodup := hs.nodup
    rw [hbuffers, List.nodup_cons] at hnodup
    show (_ ∧ (s.bufferPool.release chunk.buffer).inUse i = false) ↔ chunk.buffer = i ∧
      s.connection.transferred ++ (remaining s.bufferPool chunk).take completion.sizeTransferred =
        _
    rw [List.take_of_length_le (by omega), and_iff_left rfl, hs.inUse, hbuffers, List.mem_cons,
      Bool.eq_false_iff, ne_eq, hafter]
    constructor
    · rintro ⟨hi | hi, hnot⟩
      · exact hi.symm
      · exact absurd hi hnot
    · rintro rfl
      exact ⟨Or.inl rfl, hnodup.1⟩

end Completion

/-! ### The handlers -/

/-- No write fails, and none reports more than it was asked for. -/
def Honest (s : StreamingSession) : Stimulus → Prop
  | .transferTask reply => s.issuesWrite = true → ∀ completion ∈ reply, completion.error = false ∧
    ∀ chunk ∈ s.transferBufferQueue.head?, completion.sizeTransferred ≤ chunk.size - chunk.offset
  | .completion completion => completion.error = false ∧
    ∀ write ∈ s.connection.writes.head?, completion.sizeTransferred ≤ write.size
  | _ => True

instance (s : StreamingSession) : DecidablePred (Honest s)
  | .transferTask reply => inferInstanceAs (Decidable (s.issuesWrite = true →
      ∀ completion ∈ reply, completion.error = false ∧ ∀ chunk ∈ s.transferBufferQueue.head?,
        completion.sizeTransferred ≤ chunk.size - chunk.offset))
  | .completion completion => inferInstanceAs (Decidable (completion.error = false ∧
      ∀ write ∈ s.connection.writes.head?, completion.sizeTransferred ≤ write.size))
  | .encoded _ | .consumeChunk _ _ _ | .onRequest _ _ | .stop _ _ | .flushTimer
  | .postedCallback => isTrue trivial

theorem transferTask_of_nil {s : StreamingSession} (hq : s.transferBufferQueue = [])
    (reply : Option Completion) : s.transferTask reply = s := by
  rw [transferTask, hq]

theorem transferTask_of_transferring {s : StreamingSession} (ht : s.transferring = true)
    (reply : Option Completion) : s.transferTask reply = s := by
  rw [transferTask]
  split
  · rfl
  · rw [if_pos ht]

theorem transferTask_of_cons {s : StreamingSession} {chunk : TransferDataChunk}
    {rest : List TransferDataChunk} (hq : s.transferBufferQueue = chunk :: rest)
    (ht : s.transferring = false) (reply : Option Completion) :
    s.transferTask reply =
      match reply with
      | some completion => (s.setTransferring true).complete (frontWrite chunk) completion
      | none => (s.setTransferring true).setWrites (s.connection.writes ++ [frontWrite chunk]) := by
  cases reply <;> simp only [transferTask, hq, ht, Bool.false_eq_true, if_false]

theorem queued_takeTask {s : StreamingSession} (hs : Queued s) : Queued s.takeTask :=
  ⟨hs.lossless, hs.sizes, hs.nodup, hs.inUse⟩

theorem queued_setTransferring {s : StreamingSession} (hs : Queued s) :
    Queued (s.setTransferring true) :=
  ⟨hs.lossless, hs.sizes, hs.nodup, hs.inUse⟩

theorem queued_setWrites {s : StreamingSession} (hs : Queued s) (rest : List Write) :
    Queued (s.setWrites rest) :=
  ⟨hs.lossless, hs.sizes, hs.nodup, hs.inUse⟩

theorem transferring_onTransferTask {s : StreamingSession} (hs : Transferring s)
    {reply : Option Completion} (hh : Honest s (.transferTask reply)) :
    Transferring (s.onTransferTask reply) := by
  rw [onTransferTask]
  cases hq : s.transferBufferQueue with
  | nil =>
    rw [transferTask_of_nil (s := s.takeTask) hq]
    exact ⟨queued_takeTask hs.toQueued, hs.outstanding, fun hne => absurd hq hne⟩
  | cons chunk rest =>
    rcases hs.outstanding with ⟨hidle, hwrites⟩ | ⟨_, _, _, hbusy, _⟩
    · rw [transferTask_of_cons (s := s.takeTask) hq hidle]
      have hqueued := queued_setTransferring (queued_takeTask hs.toQueued)
      cases reply with
      | none =>
        refine ⟨queued_setWrites hqueued _, Or.inr ⟨chunk, rest, hq, rfl, ?_⟩,
          fun _ h => Bool.noConfusion h⟩
        show s.connection.writes ++ [frontWrite chunk] = _
        rw [hwrites]
        rfl
      | some completion =>
        have hissues : s.issuesWrite = true := by
          rw [issuesWrite, hq, hidle]
          rfl
        obtain ⟨herror, hsize⟩ := hh hissues completion rfl
        rw [hq] at hsize
        exact transferring_complete hqueued hwrites hq herror (hsize chunk rfl)
    · rw [transferTask_of_transferring (s := s.takeTask) hbusy]
      exact ⟨queued_takeTask hs.toQueued, hs.outstanding,
        fun _ hidle => absurd (hidle.symm.trans hbusy) Bool.false_ne_true⟩

/-- The write the connection completes is the one of the front. -/
theorem onWritten_eq {s : StreamingSession} (hs : Transferring s)
    (hne : s.connection.writes ≠ []) (completion : Completion) :
    ∃ chunk rest, s.transferBufferQueue = chunk :: rest ∧
      s.connection.writes = [frontWrite chunk] ∧
      s.onWritten completion = (s.setWrites []).complete (frontWrite chunk) completion := by
  rcases hs.outstanding with ⟨_, hnone⟩ | ⟨chunk, rest, hq, _, hwrites⟩
  · exact absurd hnone hne
  · exact ⟨chunk, rest, hq, hwrites, by rw [onWritten, hwrites]⟩

theorem transferring_onWritten {s : StreamingSession} (hs : Transferring s)
    {completion : Completion} (hne : s.connection.writes ≠ [])
    (hh : Honest s (.completion completion)) : Transferring (s.onWritten completion) := by
  obtain ⟨chunk, rest, hq, hwrites, heq⟩ := onWritten_eq hs hne completion
  obtain ⟨herror, hsize⟩ := hh
  rw [hwrites] at hsize
  rw [heq]
  exact transferring_complete (queued_setWrites hs.toQueued []) rfl hq herror
    (hsize (frontWrite chunk) rfl)

/-! ### Encoding and stopping -/

theorem encode_spec (data : List UInt8) (output : List (List UInt8)) (s : StreamingSession) :
    ∃ chunks octets, Enqueued s (s.encode data output) chunks octets := by
  rw [encode]
  split
  · cases s.encoder.kind with
    | wave =>
      obtain ⟨chunks, h⟩ := encoded_spec data s
      exact ⟨chunks, _, h⟩
    | flac => exact encodedAll_spec output s
  · exact ⟨[], [], Enqueued.refl s⟩

theorem transferring_encodeChunk {s : StreamingSession} (hs : Transferring s) (chunk : Chunk)
    (output : List (List UInt8)) : Transferring (s.encodeChunk chunk output) := by
  obtain ⟨chunks, octets, h⟩ := encode_spec chunk.payload output s
  exact (transferring_enqueued hs h).of_same ⟨rfl, rfl, rfl, rfl, rfl, rfl, rfl⟩

/-- Stopping the encoder writes nothing. -/
def FinishesSilently (s : StreamingSession) (finish : List (List UInt8)) : Prop :=
  s.encoder.kind = .flac → s.encoder.running = true → ∀ piece ∈ finish, piece = []

theorem encodedAll_of_empty {output : List (List UInt8)} (h : ∀ piece ∈ output, piece = [])
    (s : StreamingSession) : s.encodedAll output = s := by
  induction output with
  | nil => rfl
  | cons piece output ih =>
    rw [h piece List.mem_cons_self]
    exact ih fun p hp => h p (List.mem_cons_of_mem piece hp)

/-- **What stopping the encoder changes**: it runs no longer, and what it wrote is queued. -/
theorem encoderStop_spec (finish : List (List UInt8)) (s : StreamingSession) :
    ∃ chunks octets s', Enqueued s s' chunks octets ∧
      s.encoderStop finish = s'.setEncoderRunning false ∧ (FinishesSilently s finish → s' = s) := by
  rw [encoderStop]
  cases hk : s.encoder.kind with
  | wave => exact ⟨[], [], s, Enqueued.refl s, rfl, fun _ => rfl⟩
  | flac =>
    by_cases hr : s.encoder.running = true
    · obtain ⟨chunks, octets, h⟩ := encodedAll_spec finish s
      dsimp only
      rw [if_pos hr]
      exact ⟨chunks, octets, _, h, rfl, fun hsilent => encodedAll_of_empty (hsilent hk hr) s⟩
    · refine ⟨[], [], s, Enqueued.refl s, ?_, fun _ => rfl⟩
      dsimp only
      rw [if_neg hr, setEncoderRunning, ← Bool.eq_false_iff.mpr hr]

/-- What a flush finds when it runs: it waits, or there is nothing to drop. -/
def FlushesNothing (s : StreamingSession) : Prop :=
  s.transferring = true ∨ s.transferBufferQueue = []

theorem popAll_same {s : StreamingSession} (hq : s.transferBufferQueue = []) :
    SameTransfer s s.popAll := by
  refine ⟨?_, hq.symm, rfl, rfl, rfl, rfl, rfl⟩
  show s.transferBufferQueue.foldl _ _ = _
  rw [hq]
  rfl

theorem flush_of_transferring {s : StreamingSession} (ht : s.transferring = true)
    (callback : Callback) :
    s.flush callback = { s with flushTimers := s.flushTimers ++ [callback] } := by
  rw [flush, if_pos ht]

theorem flush_of_idle {s : StreamingSession} (ht : s.transferring = false)
    (callback : Callback) : s.flush callback = s.popAll.stopped callback := by
  rw [flush, ht, if_neg Bool.false_ne_true]

theorem transferring_flush {s : StreamingSession} (hs : Transferring s) (h : FlushesNothing s)
    (callback : Callback) : Transferring (s.flush callback) := by
  cases ht : s.transferring with
  | true =>
    rw [flush_of_transferring ht]
    exact hs.of_same ⟨rfl, rfl, rfl, rfl, rfl, rfl, rfl⟩
  | false =>
    have hq : s.transferBufferQueue = [] := h.resolve_left (by rw [ht]; exact Bool.false_ne_true)
    rw [flush_of_idle ht]
    exact (hs.of_same (popAll_same hq)).of_same ⟨rfl, rfl, rfl, rfl, rfl, rfl, rfl⟩

/-- A stop drops nothing: it has to wait, or nothing is queued and nothing is written. -/
def StopsGracefully (s : StreamingSession) (finish : List (List UInt8)) : Prop :=
  s.transferring = true ∨ s.transferBufferQueue = [] ∧ FinishesSilently s finish

theorem transferring_encoderStop {s : StreamingSession} (hs : Transferring s)
    {finish : List (List UInt8)} (h : StopsGracefully s finish) :
    Transferring (s.encoderStop finish) ∧ FlushesNothing (s.encoderStop finish) := by
  obtain ⟨chunks, octets, s', henqueued, heq, hsilent⟩ := encoderStop_spec finish s
  rw [heq]
  refine ⟨(transferring_enqueued hs henqueued).of_same ⟨rfl, rfl, rfl, rfl, rfl, rfl, rfl⟩, ?_⟩
  rcases h with ht | ⟨hq, hfinish⟩
  · left
    show s'.transferring = true
    rw [henqueued.rest]
    exact ht
  · right
    show s'.transferBufferQueue = []
    rw [hsilent hfinish]
    exact hq

/-- The call stops the running session: what the encoder writes then. -/
def stopOutput (s : StreamingSession) : Stimulus → Option (List (List UInt8))
  | .consumeChunk chunk _ finish =>
    if s.running = true ∧ 10 ≤ s.bufferPool.getAvailableSize ∧
        (chunk.samplingRate ≠ s.encoder.samplingRate ∨ chunk.endOfStream = true) then some finish
    else none
  | .onRequest data finish =>
    if s.running = true ∧ data.take 3 ≠ get then some finish else none
  | .stop _ finish => if s.running = true then some finish else none
  | _ => none

/-- A flush timer runs out. -/
def runsTimer : Stimulus → Bool
  | .flushTimer => true
  | _ => false

/-- **The condition of a graceful stop**, for one call: when it flushes, it waits for a
transfer or finds nothing to drop. -/
def Waits (s : StreamingSession) (e : Stimulus) : Prop :=
  (∀ finish ∈ stopOutput s e, StopsGracefully s finish) ∧
    (runsTimer e = true → FlushesNothing s)

theorem transferring_stop {s : StreamingSession} (hs : Transferring s) {callback : Callback}
    {finish : List (List UInt8)} (h : s.running = true → StopsGracefully s finish) :
    Transferring (s.stop callback finish) := by
  rw [stop]
  split
  · rename_i hr
    obtain ⟨hstopped, hflush⟩ := transferring_encoderStop hs (h hr)
    exact transferring_flush hstopped hflush callback
  · exact hs.of_same ⟨rfl, rfl, rfl, rfl, rfl, rfl, rfl⟩

/-- **The branches of `consumeChunk`**: the chunk is refused or ignored, it stops the session,
or it is encoded. -/
theorem consumeChunk_cases (chunk : Chunk) (output finish : List (List UInt8))
    (s : StreamingSession) :
    (stopOutput s (.consumeChunk chunk output finish) = none ∧
        ((s.consumeChunk chunk output finish).2 = s ∨
          (s.consumeChunk chunk output finish).2 = s.encodeChunk chunk output)) ∨
      (s.running = true ∧ stopOutput s (.consumeChunk chunk output finish) = some finish ∧
        ((s.consumeChunk chunk output finish).2 = s.stop none finish ∨
          (s.consumeChunk chunk output finish).2 =
            (s.stop none finish).encodeChunk chunk output)) := by
  rw [consumeChunk, stopOutput]
  by_cases hr : s.running = true
  · by_cases ha : s.bufferPool.getAvailableSize < 10
    · rw [if_pos hr, if_pos ha, if_neg (fun h => absurd h.2.1 (by omega))]
      exact Or.inl ⟨rfl, Or.inl rfl⟩
    · by_cases hrate : chunk.samplingRate ≠ s.encoder.samplingRate
      · rw [if_pos hr, if_neg ha, if_pos hrate, if_pos ⟨hr, by omega, Or.inl hrate⟩]
        exact Or.inr ⟨hr, rfl, Or.inl rfl⟩
      · by_cases hend : chunk.endOfStream = true
        · rw [if_pos hr, if_neg ha, if_neg hrate, if_pos hend,
            if_pos ⟨hr, by omega, Or.inr hend⟩]
          exact Or.inr ⟨hr, rfl, Or.inr rfl⟩
        · rw [if_pos hr, if_neg ha, if_neg hrate, if_neg hend,
            if_neg (fun h => h.2.2.elim hrate hend)]
          exact Or.inl ⟨rfl, Or.inr rfl⟩
  · rw [if_neg hr, if_neg (fun h => hr h.1)]
    exact Or.inl ⟨rfl, Or.inl rfl⟩

theorem onRequest_cases (data : List UInt8) (finish : List (List UInt8)) (s : StreamingSession) :
    (stopOutput s (.onRequest data finish) = none ∧ s.onRequest data finish = s) ∨
      (s.running = true ∧ stopOutput s (.onRequest data finish) = some finish ∧
        s.onRequest data finish = s.stop none finish) := by
  rw [onRequest, stopOutput]
  by_cases hr : s.running = true
  · by_cases hget : data.take 3 ≠ get
    · rw [if_pos hr, if_pos hget, if_pos ⟨hr, hget⟩]
      exact Or.inr ⟨hr, rfl, rfl⟩
    · rw [if_pos hr, if_neg hget, if_neg (fun h => hget h.2)]
      exact Or.inl ⟨rfl, rfl⟩
  · rw [if_neg hr, if_neg (fun h => hr h.1)]
    exact Or.inl ⟨rfl, rfl⟩

/-- **Every call keeps the invariant**, unless its flush drops something. -/
theorem transferring_step {s : StreamingSession} {e : Stimulus} (hs : Transferring s)
    (he : enabled s e) (hh : Honest s e) (hw : Waits s e) : Transferring (step s e) := by
  cases e with
  | encoded data =>
    obtain ⟨chunks, h⟩ := encoded_spec data s
    exact transferring_enqueued hs h
  | consumeChunk chunk output finish =>
    show Transferring (s.consumeChunk chunk output finish).2
    rcases consumeChunk_cases chunk output finish s with
      ⟨_, heq | heq⟩ | ⟨_, hstop, heq | heq⟩
    · rw [heq]
      exact hs
    · rw [heq]
      exact transferring_encodeChunk hs chunk output
    · rw [heq]
      exact transferring_stop hs fun _ => hw.1 finish hstop
    · rw [heq]
      exact transferring_encodeChunk (transferring_stop hs fun _ => hw.1 finish hstop) chunk output
  | onRequest data finish =>
    show Transferring (s.onRequest data finish)
    rcases onRequest_cases data finish s with ⟨_, heq⟩ | ⟨_, hstop, heq⟩
    · rw [heq]
      exact hs
    · rw [heq]
      exact transferring_stop hs fun _ => hw.1 finish hstop
  | stop callback finish => exact transferring_stop hs fun hr => hw.1 finish (if_pos hr)
  | transferTask reply => exact transferring_onTransferTask hs hh
  | completion completion => exact transferring_onWritten hs he hh
  | flushTimer =>
    show Transferring s.onFlushTimer
    rw [onFlushTimer]
    split
    · exact hs
    · rename_i callback rest _
      exact transferring_flush (s := { s with flushTimers := rest })
        (hs.of_same ⟨rfl, rfl, rfl, rfl, rfl, rfl, rfl⟩) (hw.2 rfl) callback
  | postedCallback =>
    show Transferring s.onPostedCallback
    rw [onPostedCallback]
    split
    · exact hs
    · exact hs.of_same ⟨rfl, rfl, rfl, rfl, rfl, rfl, rfl⟩

/-! ### Runs -/

/-- A session once it was created and started. -/
def started (clientID : List UInt8) (kind : EncoderKind) (samplingRate : ℕ)
    (mime version : String) (output : List (List UInt8)) : StreamingSession :=
  (create clientID kind samplingRate mime).start version output

theorem transferring_create (clientID : List UInt8) (kind : EncoderKind) (samplingRate : ℕ)
    (mime : String) : Transferring (create clientID kind samplingRate mime) := by
  refine ⟨⟨rfl, List.forall_mem_nil _, List.nodup_nil, fun i => ?_⟩, Or.inl ⟨rfl, rfl⟩,
    fun h => absurd rfl h⟩
  show ((List.replicate poolSize _)[i]?).any _ = true ↔ i ∈ ([] : List ℕ)
  rw [List.getElem?_replicate]
  split <;> simp

theorem transferring_started (clientID : List UInt8) (kind : EncoderKind) (samplingRate : ℕ)
    (mime version : String) (output : List (List UInt8)) :
    Transferring (started clientID kind samplingRate mime version output) := by
  have hcreate := transferring_create clientID kind samplingRate mime
  cases kind with
  | wave => exact hcreate.of_same ⟨rfl, rfl, rfl, rfl, rfl, rfl, rfl⟩
  | flac =>
    obtain ⟨chunks, octets, h⟩ := encodedAll_spec output (create clientID .flac samplingRate mime)
    exact (transferring_enqueued hcreate h).of_same ⟨rfl, rfl, rfl, rfl, rfl, rfl, rfl⟩

/-! ### Before the session is stopped -/

/-- The call is not a stop, and no write fails. -/
def BeforeStop (s : StreamingSession) (e : Stimulus) : Prop :=
  Honest s e ∧ stopOutput s e = none

instance (s : StreamingSession) (e : Stimulus) : Decidable (BeforeStop s e) :=
  inferInstanceAs (Decidable (Honest s e ∧ stopOutput s e = none))

/-- A buffer goes back to the pool. -/
def Releases (s s' : StreamingSession) (i : ℕ) : Prop :=
  s.bufferPool.inUse i = true ∧ s'.bufferPool.inUse i = false

/-- The buffer is the one of the front, and what was left of it is transferred. -/
def TransfersLast (s s' : StreamingSession) (i : ℕ) : Prop :=
  ∃ chunk rest, s.transferBufferQueue = chunk :: rest ∧ chunk.buffer = i ∧
    s'.connection.transferred = s.connection.transferred ++ remaining s.bufferPool chunk

/-- Nothing is transferred, and nothing is released. -/
theorem releases_of_steady {s s' : StreamingSession} (hs : Queued s)
    (ht : s'.connection.transferred = s.connection.transferred)
    (hu : ∀ i, s.bufferPool.inUse i = true → s'.bufferPool.inUse i = true) (i : ℕ) :
    Releases s s' i ↔ TransfersLast s s' i := by
  constructor
  · rintro ⟨hused, hfree⟩
    rw [hu i hused] at hfree
    cases hfree
  · rintro ⟨chunk, rest, hq, _, hall⟩
    have hmem : chunk ∈ s.transferBufferQueue := hq ▸ List.mem_cons_self
    have hlength := remaining_length hs hmem
    have hsize := (hs.sizes chunk hmem).1
    rw [ht, List.self_eq_append_right] at hall
    rw [hall, List.length_nil] at hlength
    omega

theorem releases_of_enqueued {s s' : StreamingSession} {chunks : List TransferDataChunk}
    {octets : List UInt8} (hs : Queued s) (h : Enqueued s s' chunks octets) (i : ℕ) :
    Releases s s' i ↔ TransfersLast s s' i := by
  refine releases_of_steady hs ?_ (fun i hi => (h.inUse i).mpr (Or.inl hi)) i
  rw [h.rest]
  rfl

theorem releases_onTransferTask {s : StreamingSession} (hs : Transferring s)
    {reply : Option Completion} (hh : Honest s (.transferTask reply)) (i : ℕ) :
    Releases s (s.onTransferTask reply) i ↔ TransfersLast s (s.onTransferTask reply) i := by
  rw [onTransferTask]
  cases hq : s.transferBufferQueue with
  | nil =>
    rw [transferTask_of_nil (s := s.takeTask) hq]
    exact releases_of_steady hs.toQueued rfl (fun _ h => h) i
  | cons chunk rest =>
    cases ht : s.transferring with
    | true =>
      rw [transferTask_of_transferring (s := s.takeTask) ht]
      exact releases_of_steady hs.toQueued rfl (fun _ h => h) i
    | false =>
      rw [transferTask_of_cons (s := s.takeTask) hq ht]
      cases reply with
      | none => exact releases_of_steady hs.toQueued rfl (fun _ h => h) i
      | some completion =>
        have hissues : s.issuesWrite = true := by
          rw [issuesWrite, hq, ht]
          rfl
        obtain ⟨herror, hsize⟩ := hh hissues completion rfl
        rw [hq] at hsize
        have hreleases := complete_releases (s := s.takeTask.setTransferring true)
          (queued_setTransferring (queued_takeTask hs.toQueued)) hq herror (hsize chunk rfl) i
        refine Iff.trans hreleases ⟨fun h => ⟨chunk, rest, hq, h⟩, ?_⟩
        rintro ⟨chunk', rest', hq', h⟩
        obtain ⟨rfl, rfl⟩ := List.cons.inj (hq.symm.trans hq')
        exact h

theorem releases_onWritten {s : StreamingSession} (hs : Transferring s)
    {completion : Completion} (hne : s.connection.writes ≠ [])
    (hh : Honest s (.completion completion)) (i : ℕ) :
    Releases s (s.onWritten completion) i ↔ TransfersLast s (s.onWritten completion) i := by
  obtain ⟨chunk, rest, hq, hwrites, heq⟩ := onWritten_eq hs hne completion
  obtain ⟨herror, hsize⟩ := hh
  rw [hwrites] at hsize
  rw [heq]
  have hreleases := complete_releases (s := s.setWrites []) (queued_setWrites hs.toQueued []) hq
    herror (hsize (frontWrite chunk) rfl) i
  refine Iff.trans hreleases ⟨fun h => ⟨chunk, rest, hq, h⟩, ?_⟩
  rintro ⟨chunk', rest', hq', h⟩
  obtain ⟨rfl, rfl⟩ := List.cons.inj (hq.symm.trans hq')
  exact h

/-- A stop of a session that does not run only calls back. -/
theorem stop_of_stopped {s : StreamingSession} {callback : Callback}
    {finish : List (List UInt8)} (h : stopOutput s (.stop callback finish) = none) :
    s.stop callback finish =
      { s with finishedCallbacks := s.finishedCallbacks ++ [callback] } := by
  rw [stop]
  split
  · rename_i hr
    rw [stopOutput, if_pos hr] at h
    cases h
  · rfl

/-- **A buffer is released exactly when its last octet was transferred**, whatever the call. -/
theorem step_releases {s : StreamingSession} {e : Stimulus} (hs : Transferring s)
    (htimers : s.flushTimers = []) (he : enabled s e) (hb : BeforeStop s e) (i : ℕ) :
    Releases s (step s e) i ↔ TransfersLast s (step s e) i := by
  obtain ⟨hh, hnone⟩ := hb
  cases e with
  | encoded data =>
    obtain ⟨chunks, h⟩ := encoded_spec data s
    exact releases_of_enqueued hs.toQueued h i
  | consumeChunk chunk output finish =>
    rcases consumeChunk_cases chunk output finish s with ⟨_, heq | heq⟩ | ⟨_, hstop, _⟩
    · rw [step, heq]
      exact releases_of_steady hs.toQueued rfl (fun _ h => h) i
    · obtain ⟨chunks, octets, h⟩ := encode_spec chunk.payload output s
      rw [step, heq]
      exact releases_of_enqueued hs.toQueued h i
    · rw [hnone] at hstop
      cases hstop
  | onRequest data finish =>
    rcases onRequest_cases data finish s with ⟨_, heq⟩ | ⟨_, hstop, _⟩
    · rw [step, heq]
      exact releases_of_steady hs.toQueued rfl (fun _ h => h) i
    · rw [hnone] at hstop
      cases hstop
  | stop callback finish =>
    rw [step, stop_of_stopped hnone]
    exact releases_of_steady hs.toQueued rfl (fun _ h => h) i
  | transferTask reply => exact releases_onTransferTask hs hh i
  | completion completion => exact releases_onWritten hs he hh i
  | flushTimer => exact absurd htimers he
  | postedCallback =>
    rw [step, onPostedCallback]
    split
    · exact releases_of_steady hs.toQueued rfl (fun _ h => h) i
    · exact releases_of_steady hs.toQueued rfl (fun _ h => h) i

theorem pop_flushTimers (s : StreamingSession) : s.pop.flushTimers = s.flushTimers := by
  rw [pop]
  split <;> rfl

theorem onExit_flushTimers (releaseBuffer : Bool) (s : StreamingSession) :
    (s.onExit releaseBuffer).flushTimers = s.flushTimers := by
  cases releaseBuffer with
  | false => rfl
  | true => exact pop_flushTimers s

theorem complete_flushTimers (write : Write) (completion : Completion) (s : StreamingSession) :
    (s.complete write completion).flushTimers = s.flushTimers := by
  rw [complete, onCompletion]
  split
  · exact onExit_flushTimers true _
  · split
    · exact onExit_flushTimers true _
    · split
      · rfl
      · exact onExit_flushTimers true _

theorem transferTask_flushTimers (reply : Option Completion) (s : StreamingSession) :
    (s.transferTask reply).flushTimers = s.flushTimers := by
  rw [transferTask]
  split
  · rfl
  · split
    · rfl
    · cases reply with
      | none => rfl
      | some completion => exact complete_flushTimers _ completion _

/-- There is no flush timer before a stop. -/
theorem step_flushTimers {s : StreamingSession} {e : Stimulus} (htimers : s.flushTimers = [])
    (he : enabled s e) (hnone : stopOutput s e = none) : (step s e).flushTimers = [] := by
  rw [← htimers]
  cases e with
  | encoded data =>
    obtain ⟨chunks, h⟩ := encoded_spec data s
    rw [step, h.rest]
    rfl
  | consumeChunk chunk output finish =>
    rcases consumeChunk_cases chunk output finish s with ⟨_, heq | heq⟩ | ⟨_, hstop, _⟩
    · rw [step, heq]
    · obtain ⟨chunks, octets, h⟩ := encode_spec chunk.payload output s
      rw [step, heq, encodeChunk, h.rest]
      rfl
    · rw [hnone] at hstop
      cases hstop
  | onRequest data finish =>
    rcases onRequest_cases data finish s with ⟨_, heq⟩ | ⟨_, hstop, _⟩
    · rw [step, heq]
    · rw [hnone] at hstop
      cases hstop
  | stop callback finish => rw [step, stop_of_stopped hnone]
  | transferTask reply => exact transferTask_flushTimers reply s.takeTask
  | completion completion =>
    rw [step, onWritten]
    split
    · rfl
    · exact complete_flushTimers _ completion _
  | flushTimer => exact absurd htimers he
  | postedCallback =>
    rw [step, onPostedCallback]
    split <;> rfl

theorem started_flushTimers (clientID : List UInt8) (kind : EncoderKind) (samplingRate : ℕ)
    (mime version : String) (output : List (List UInt8)) :
    (started clientID kind samplingRate mime version output).flushTimers = [] := by
  cases kind with
  | wave => rfl
  | flac =>
    obtain ⟨chunks, octets, h⟩ := encodedAll_spec output (create clientID .flac samplingRate mime)
    show ((create clientID .flac samplingRate mime).encodedAll output).flushTimers = []
    rw [h.rest]
    rfl

/-- Before a stop there is nothing to flush. -/
theorem waits_of_beforeStop {s : StreamingSession} {e : Stimulus} (htimers : s.flushTimers = [])
    (he : enabled s e) (hnone : stopOutput s e = none) : Waits s e := by
  refine ⟨fun finish h => ?_, fun htimer => ?_⟩
  · rw [hnone] at h
    cases h
  · cases e with
    | flushTimer => exact absurd htimers he
    | _ => cases htimer

/-- **The transfer loop loses nothing, repeats nothing and does not stall**, in every run
before the session is stopped, whatever the order of the handlers; and whatever happens next,
a buffer is released exactly when its last octet was transferred. -/
theorem transfer_loop (clientID : List UInt8) (kind : EncoderKind) (samplingRate : ℕ)
    (mime version : String) (output : List (List UInt8)) (es : List Stimulus)
    (hes : (system.restrict BeforeStop).Admits
      (started clientID kind samplingRate mime version output) es) :
    let s := system.exec (started clientID kind samplingRate mime version output) es
    Transferring s ∧ ∀ e, enabled s e → BeforeStop s e → ∀ i,
      Releases s (step s e) i ↔ TransfersLast s (step s e) i := by
  have hrun := (system.restrict BeforeStop).exec_invariant
    (fun s => Transferring s ∧ s.flushTimers = [])
    (fun s e hs he => ⟨transferring_step hs.1 he.1 he.2.1 (waits_of_beforeStop hs.2 he.1 he.2.2),
      step_flushTimers hs.2 he.1 he.2.2⟩) es _
    ⟨transferring_started clientID kind samplingRate mime version output,
      started_flushTimers clientID kind samplingRate mime version output⟩ hes
  rw [System.restrict_exec] at hrun
  exact ⟨hrun.1, fun e he hb i => step_releases hrun.1 hrun.2 he hb i⟩

/-- Two pieces, the first of which takes two writes; the connection completes the last write
at once. -/
def twoPieces : List Stimulus :=
  [.encoded [1, 2, 3], .transferTask none, .encoded [4], .completion ⟨false, 2⟩,
    .transferTask none, .completion ⟨false, 1⟩, .transferTask (some ⟨false, 1⟩)]

theorem transfer_loop_twoPieces :
    Transferring (system.exec (started [49] .wave 44100 "audio/x-wave" "1" []) twoPieces) :=
  (transfer_loop [49] .wave 44100 "audio/x-wave" "1" [] twoPieces (by decide +kernel)).1

/-- What was transferred by then. -/
example : (system.exec (started [49] .wave 44100 "audio/x-wave" "1" [])
    twoPieces).connection.transferred = [1, 2, 3, 4] := by
  decide +kernel

end StreamingSession

end SlimStreamer
