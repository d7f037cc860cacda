import SlimStreamer.Alsa.Source
import SlimStreamer.Lib.Execution
import SlimStreamer.Lib.Mealy

/-!
# Capturing bit by bit

The frames that belong to a stream are those a one-pass automaton selects: it starts selecting
at a marker for the beginning of a stream, stops at one for the end, and meanwhile keeps all but
the last channel of the frames marked as data.  A read of the device is scanned by two loops,
and each of them leaves the flag `producing` to the next.

* `markers` — the automaton;
* `containsDataFrom_spec`, `copyData_spec` — each pass is a part of its run;
* `FramesStep`, `onFrames_step` — everything a read can do;
* `produceLoop_exec` — the loop of the producer thread is a run of reads;
* `bit_perfect_capture` — the payloads of the data chunks are the output of the automaton.
-/

namespace SlimStreamer

namespace Alsa

open Mealy

namespace Parameters

/-- At least one channel besides the markers', and samples of whole octets. -/
structure Valid (p : Parameters) : Prop where
  channels : 2 ≤ p.totalChannels
  samples : 0 < p.bytesPerSample

def frameMarker (p : Parameters) (frame : List UInt8) : StreamMarker :=
  .ofOctet (frame.getD (p.bytesPerFrame - 1) 0)

/-- All but the last channel. -/
def framePayload (p : Parameters) (frame : List UInt8) : List UInt8 :=
  frame.take (p.bytesPerFrame - p.bytesPerSample)

/-- The flag after a frame with the given marker. -/
def nextProducing (producing : Bool) : StreamMarker → Bool
  | .beginningOfStream => true
  | .endOfStream => false
  | _ => producing

/-- **The automaton** that selects the frames of a stream. -/
def markers (p : Parameters) : Transducer Bool (List UInt8) (List UInt8) where
  next producing frame := nextProducing producing (p.frameMarker frame)
  emit producing frame :=
    if p.frameMarker frame = .data ∧ producing = true then [p.framePayload frame] else []

variable {p : Parameters}

theorem Valid.bytesPerFrame_pos (hp : p.Valid) : 0 < p.bytesPerFrame :=
  Nat.mul_pos (lt_of_lt_of_le Nat.two_pos hp.channels) hp.samples

/-- The octets that are kept of a frame. -/
theorem payload_size (p : Parameters) :
    p.bytesPerFrame - p.bytesPerSample = p.logicalChannels * p.bytesPerSample := by
  rw [bytesPerFrame, logicalChannels, Nat.sub_mul, Nat.one_mul]

theorem framePayload_length {frame : List UInt8}
    (hframe : frame.length = p.bytesPerFrame) :
    (p.framePayload frame).length = p.logicalChannels * p.bytesPerSample := by
  rw [framePayload, List.length_take, hframe, p.payload_size, bytesPerFrame, logicalChannels]
  exact Nat.min_eq_left (Nat.mul_le_mul_right _ (Nat.sub_le _ _))

/-- Of each frame all or nothing is kept. -/
theorem run_length_le (producing : Bool) (frames : List (List UInt8)) :
    (p.markers.run producing frames).length ≤ frames.length := by
  induction frames generalizing producing with
  | nil => rfl
  | cons frame frames ih =>
    have hemit : (p.markers.emit producing frame).length ≤ 1 := by
      show (if p.frameMarker frame = .data ∧ producing = true then [p.framePayload frame]
        else []).length ≤ 1
      split <;> simp
    have hrest := ih (p.markers.next producing frame)
    rw [Transducer.run_cons, List.length_append, List.length_cons]
    omega

theorem run_flatten_length {frames : List (List UInt8)}
    (hframes : ∀ frame ∈ frames, frame.length = p.bytesPerFrame) (producing : Bool) :
    (p.markers.run producing frames).flatten.length =
      (p.markers.run producing frames).length * (p.logicalChannels * p.bytesPerSample) := by
  induction frames generalizing producing with
  | nil => simp
  | cons frame frames ih =>
    have hrest := ih (fun f hf => hframes f (List.mem_cons_of_mem _ hf))
      (p.markers.next producing frame)
    have hemit : (p.markers.emit producing frame).flatten.length =
        (p.markers.emit producing frame).length * (p.logicalChannels * p.bytesPerSample) := by
      show (if p.frameMarker frame = .data ∧ producing = true then [p.framePayload frame]
        else []).flatten.length = (if p.frameMarker frame = .data ∧ producing = true then
          [p.framePayload frame] else []).length * _
      split
      · simp [framePayload_length (hframes frame List.mem_cons_self)]
      · simp
    rw [Transducer.run_cons, List.flatten_append, List.length_append, hemit, hrest,
      List.length_append, Nat.add_mul]

/-! ### The frames of a buffer -/

/-- From the frame with index `i` on the buffer holds the given frames. -/
structure Holds (p : Parameters) (buffer : List UInt8) (i : ℕ) (frames : List (List UInt8)) :
    Prop where
  octets : ∃ stale, buffer.drop (i * p.bytesPerFrame) = frames.flatten ++ stale
  sizes : ∀ frame ∈ frames, frame.length = p.bytesPerFrame

theorem Holds.tail {buffer : List UInt8} {i : ℕ} {frame : List UInt8}
    {frames : List (List UInt8)} (h : p.Holds buffer i (frame :: frames)) :
    p.Holds buffer (i + 1) frames := by
  obtain ⟨stale, hoctets⟩ := h.octets
  refine ⟨⟨stale, ?_⟩, fun f hf => h.sizes f (List.mem_cons_of_mem _ hf)⟩
  rw [Nat.succ_mul, ← List.drop_drop, hoctets, List.flatten_cons, List.append_assoc,
    ← h.sizes frame List.mem_cons_self, List.drop_left]

theorem Holds.append {buffer : List UInt8} {i : ℕ} {skipped frames : List (List UInt8)}
    (h : p.Holds buffer i (skipped ++ frames)) : p.Holds buffer (i + skipped.length) frames := by
  induction skipped generalizing i with
  | nil => exact h
  | cons frame skipped ih =>
    rw [List.length_cons, Nat.add_comm skipped.length 1, ← Nat.add_assoc]
    exact ih h.tail

/-- A pointer to a later frame. -/
theorem Holds.pointer {buffer : List UInt8} {i : ℕ} {frames : List (List UInt8)}
    (h : p.Holds buffer i frames) : p.Holds (buffer.drop (i * p.bytesPerFrame)) 0 frames := by
  refine ⟨?_, h.sizes⟩
  rw [Nat.zero_mul, List.drop_zero]
  exact h.octets

theorem Holds.getD {buffer : List UInt8} {i : ℕ} {frame : List UInt8}
    {frames : List (List UInt8)} (h : p.Holds buffer i (frame :: frames)) {j : ℕ}
    (hj : j < p.bytesPerFrame) : buffer.getD (i * p.bytesPerFrame + j) 0 = frame.getD j 0 := by
  obtain ⟨stale, hoctets⟩ := h.octets
  have hj : j < frame.length := by rwa [h.sizes frame List.mem_cons_self]
  have hdrop := congrArg (·[j]?) hoctets
  rw [List.getElem?_drop, List.flatten_cons, List.append_assoc, List.getElem?_append_left hj]
    at hdrop
  rw [List.getD_eq_getElem?_getD, List.getD_eq_getElem?_getD, hdrop]

theorem Holds.marker (hp : p.Valid) {buffer : List UInt8} {i : ℕ} {frame : List UInt8}
    {frames : List (List UInt8)} (h : p.Holds buffer i (frame :: frames)) :
    p.marker buffer i = p.frameMarker frame := by
  have hpos := hp.bytesPerFrame_pos
  have hindex : (i + 1) * p.bytesPerFrame - 1 =
      i * p.bytesPerFrame + (p.bytesPerFrame - 1) := by
    rw [Nat.succ_mul]
    omega
  rw [Parameters.marker, hindex, h.getD (by omega)]
  rfl

theorem Holds.payload {buffer : List UInt8} {i : ℕ} {frame : List UInt8}
    {frames : List (List UInt8)} (h : p.Holds buffer i (frame :: frames)) :
    ((List.range (p.bytesPerFrame - p.bytesPerSample)).map fun j =>
      buffer.getD (i * p.bytesPerFrame + j) 0) = p.framePayload frame := by
  have hsize := framePayload_length (h.sizes frame List.mem_cons_self)
  rw [← p.payload_size] at hsize
  apply List.ext_getElem
  · rw [List.length_map, List.length_range, hsize]
  · intro j hj _
    rw [List.length_map, List.length_range] at hj
    have hlt : j < frame.length := by
      rw [h.sizes frame List.mem_cons_self]
      omega
    rw [List.getElem_map, List.getElem_range, h.getD (by omega),
      List.getD_eq_getElem?_getD, List.getElem?_eq_getElem hlt, Option.getD_some]
    simp only [framePayload, List.getElem_take]

end Parameters

end Alsa

namespace Source

open Alsa Mealy Alsa.Parameters

/-! ### Writing to the buffer of a chunk -/

theorem overwrite_nil (dst : List UInt8) (position : ℕ) : overwrite dst position [] = dst := by
  rw [overwrite, List.append_nil, List.length_nil, Nat.add_zero, List.take_append_drop]

/-- Within the bounds a list keeps its length. -/
theorem overwrite_length {dst octets : List UInt8} {position : ℕ}
    (h : position + octets.length ≤ dst.length) :
    (overwrite dst position octets).length = dst.length := by
  simp only [overwrite, List.length_append, List.length_take, List.length_drop]
  omega

/-- Writing on from where one has stopped. -/
theorem overwrite_overwrite {dst : List UInt8} {position : ℕ} (h : position ≤ dst.length)
    (octets octets' : List UInt8) :
    overwrite (overwrite dst position octets) (position + octets.length) octets' =
      overwrite dst position (octets ++ octets') := by
  have hwritten : (dst.take position ++ octets).length = position + octets.length := by
    rw [List.length_append, List.length_take, Nat.min_eq_left h]
  simp only [overwrite]
  rw [List.take_left' hwritten, ← List.drop_drop, List.drop_left' hwritten, List.drop_drop,
    List.length_append, List.append_assoc (dst.take position), Nat.add_assoc]

theorem take_overwrite_zero (dst octets : List UInt8) :
    (overwrite dst 0 octets).take octets.length = octets := by
  rw [overwrite, List.take_zero, List.nil_append, List.take_left]

/-! ### The two passes -/

variable {p : Parameters}

theorem containsDataFrom_succ (buffer : List UInt8) (n i : ℕ) (producing : Bool) :
    containsDataFrom p buffer (n + 1) i producing =
      if p.marker buffer i = .data ∧ producing = true then (some i, producing)
      else containsDataFrom p buffer n (i + 1) (nextProducing producing (p.marker buffer i)) := by
  rw [containsDataFrom]
  cases p.marker buffer i <;> cases producing <;> rfl

/-- **The first pass** runs the automaton up to the first frame it selects. -/
theorem containsDataFrom_spec (hp : p.Valid) {buffer : List UInt8}
    {frames : List (List UInt8)} {i : ℕ} (h : p.Holds buffer i frames) (producing : Bool) :
    (containsDataFrom p buffer frames.length i producing =
        (none, p.markers.state producing frames) ∧ p.markers.run producing frames = []) ∨
      ∃ skipped frame rest, frames = skipped ++ frame :: rest ∧
        containsDataFrom p buffer frames.length i producing = (some (i + skipped.length), true) ∧
        p.markers.state producing skipped = true ∧ p.markers.run producing skipped = [] ∧
        p.frameMarker frame = .data := by
  induction frames generalizing i producing with
  | nil => exact Or.inl ⟨rfl, rfl⟩
  | cons frame frames ih =>
    rw [List.length_cons, containsDataFrom_succ, h.marker hp]
    by_cases hdata : p.frameMarker frame = .data ∧ producing = true
    · right
      obtain ⟨hmarker, rfl⟩ := hdata
      refine ⟨[], frame, frames, rfl, ?_, rfl, rfl, hmarker⟩
      rw [if_pos ⟨hmarker, rfl⟩]
      rfl
    · have hemit : p.markers.emit producing frame = [] := if_neg hdata
      rw [if_neg hdata]
      rcases ih h.tail (nextProducing producing (p.frameMarker frame)) with
        ⟨hscan, hrun⟩ | ⟨skipped, found, rest, hframes, hscan, hstate, hrun, hmarker⟩
      · left
        refine ⟨hscan, ?_⟩
        rw [Transducer.run_cons, hemit, List.nil_append]
        exact hrun
      · right
        refine ⟨frame :: skipped, found, rest, ?_, ?_, hstate, ?_, hmarker⟩
        · rw [hframes, List.cons_append]
        · rw [hscan, List.length_cons, Nat.add_assoc, Nat.add_comm 1]
        · rw [Transducer.run_cons, hemit, List.nil_append]
          exact hrun

theorem copyFrame_eq {srcBuffer : List UInt8} {i : ℕ} {frame : List UInt8}
    {frames : List (List UInt8)} (hp : p.Valid) (h : p.Holds srcBuffer i (frame :: frames))
    (c : Copying) :
    copyFrame p srcBuffer i c =
      { producing := p.markers.next c.producing frame
        dstBuffer := overwrite c.dstBuffer c.dstPosition (p.markers.emit c.producing frame).flatten
        dstPosition := c.dstPosition + (p.markers.emit c.producing frame).flatten.length
        framesCopied := c.framesCopied + (p.markers.emit c.producing frame).length } := by
  have hsize := framePayload_length (h.sizes frame List.mem_cons_self)
  rw [copyFrame, h.marker hp, h.payload]
  obtain ⟨producing, dstBuffer, dstPosition, framesCopied⟩ := c
  by_cases hdata : p.frameMarker frame = .data ∧ producing = true
  · have hemit : p.markers.emit producing frame = [p.framePayload frame] := if_pos hdata
    obtain ⟨hmarker, rfl⟩ := hdata
    have hnext : p.markers.next true frame = true := congrArg (nextProducing true) hmarker
    rw [hmarker]
    simp [hemit, hnext, hsize]
  · have hemit : p.markers.emit producing frame = [] := if_neg hdata
    have hnext : p.markers.next producing frame =
        nextProducing producing (p.frameMarker frame) := rfl
    simp only [hnext, hemit, List.flatten_nil, List.length_nil, Nat.add_zero, overwrite_nil]
    cases hm : p.frameMarker frame with
    | data =>
      have hproducing : producing = false := by simpa [hm] using hdata
      subst hproducing
      rfl
    | _ => rfl

/-- **The second pass** runs the automaton and writes what it selects. -/
theorem copyDataFrom_spec (hp : p.Valid) {srcBuffer : List UInt8} {frames : List (List UInt8)}
    {i : ℕ} (h : p.Holds srcBuffer i frames) {c : Copying}
    (hc : c.dstPosition ≤ c.dstBuffer.length) :
    copyDataFrom p srcBuffer frames.length i c =
      { producing := p.markers.state c.producing frames
        dstBuffer := overwrite c.dstBuffer c.dstPosition (p.markers.run c.producing frames).flatten
        dstPosition := c.dstPosition + (p.markers.run c.producing frames).flatten.length
        framesCopied := c.framesCopied + (p.markers.run c.producing frames).length } := by
  induction frames generalizing i c with
  | nil =>
    simp only [Transducer.run_nil, List.flatten_nil, overwrite_nil]
    rfl
  | cons frame frames ih =>
    have hposition : (copyFrame p srcBuffer i c).dstPosition ≤
        (copyFrame p srcBuffer i c).dstBuffer.length := by
      rw [copyFrame_eq hp h]
      simp only [overwrite, List.length_append, List.length_take, List.length_drop]
      omega
    rw [List.length_cons, copyDataFrom, ih h.tail hposition, copyFrame_eq hp h]
    simp only [Transducer.run_cons, Transducer.state_cons, List.flatten_append, List.length_append,
      overwrite_overwrite hc, Nat.add_assoc]

/-- **Both passes are one run of the automaton**: the second starts at the frame the first has
found. -/
theorem copyData_spec (hp : p.Valid) {srcBuffer : List UInt8} {frames : List (List UInt8)}
    (h : p.Holds srcBuffer 0 frames) {producing : Bool} {offset : ℕ}
    (hoffset : (containsData p srcBuffer frames.length producing).1 = some offset)
    (dstBuffer : List UInt8) :
    copyData p (srcBuffer.drop (offset * p.bytesPerFrame)) dstBuffer
        (frames.length - min offset frames.length)
        (containsData p srcBuffer frames.length producing).2 =
      { producing := p.markers.state producing frames
        dstBuffer := overwrite dstBuffer 0 (p.markers.run producing frames).flatten
        dstPosition := (p.markers.run producing frames).flatten.length
        framesCopied := (p.markers.run producing frames).length } ∧
      p.markers.run producing frames ≠ [] := by
  rw [containsData] at hoffset ⊢
  rcases containsDataFrom_spec hp h producing with
    ⟨hscan, _⟩ | ⟨skipped, frame, rest, hframes, hscan, hstate, hrun, hmarker⟩
  · rw [hscan] at hoffset
    cases hoffset
  · rw [hscan, Nat.zero_add, Option.some.injEq] at hoffset
    subst hframes hoffset
    have hsplit : p.markers.run producing (skipped ++ frame :: rest) =
        p.markers.run true (frame :: rest) := by
      rw [Transducer.run_append, hrun, hstate, List.nil_append]
    have hlast : p.markers.state producing (skipped ++ frame :: rest) =
        p.markers.state true (frame :: rest) := by
      rw [Transducer.state_append, hstate]
    have hemit : p.markers.emit true frame = [p.framePayload frame] := if_pos ⟨hmarker, rfl⟩
    have hcount : (skipped ++ frame :: rest).length -
        min skipped.length (skipped ++ frame :: rest).length = (frame :: rest).length := by
      rw [List.length_append]
      omega
    have hholds := h.append.pointer
    rw [Nat.zero_add] at hholds
    refine ⟨?_, ?_⟩
    · rw [hscan, copyData, hcount, copyDataFrom_spec hp hholds (Nat.zero_le _), hsplit, hlast]
      simp only [Nat.zero_add]
    · rw [hsplit, Transducer.run_cons, hemit]
      exact List.cons_ne_nil _ _

theorem containsData_none (hp : p.Valid) {srcBuffer : List UInt8} {frames : List (List UInt8)}
    (h : p.Holds srcBuffer 0 frames) {producing : Bool}
    (hnone : (containsData p srcBuffer frames.length producing).1 = none) :
    (containsData p srcBuffer frames.length producing).2 = p.markers.state producing frames ∧
      p.markers.run producing frames = [] := by
  rw [containsData] at hnone ⊢
  rcases containsDataFrom_spec hp h producing with
    ⟨hscan, hrun⟩ | ⟨skipped, frame, rest, _, hscan, _⟩
  · rw [hscan]
    exact ⟨rfl, hrun⟩
  · rw [hscan] at hnone
    cases hnone

/-! ### What a read does -/

/-- The buffers of all chunks in the queue have the size they were allocated with. -/
def Allocated (s : Source) : Prop :=
  s.queue.EachSlot fun chunk => chunk.buffer.length = s.parameters.bufferSize

/-- A chunk joins the queue. -/
structure Enqueues (s s' : Source) (chunk : Chunk) : Prop where
  contents : s'.queue.contents = s.queue.contents ++ [chunk]
  enqueued : s'.capturing.enqueued = s.capturing.enqueued ++ [chunk]
  overflows : s'.capturing.overflows = s.capturing.overflows

/-- A data chunk with the given frames of payload. -/
structure HoldsData (p : Parameters) (kept : List (List UInt8)) (chunk : Chunk) : Prop where
  endOfStream : chunk.endOfStream = false
  payload : chunk.payload = kept.flatten
  frames : chunk.frames = kept.length
  size : chunk.payloadSize = chunk.frames * p.logicalChannels * p.bytesPerSample
  bounds : chunk.payloadSize ≤ chunk.buffer.length
  buffer : chunk.buffer.length = p.bufferSize

/-- **Everything a read of some frames can do.** -/
inductive FramesStep (frames : List (List UInt8)) (s s' : Source) : Prop where
  /-- There is no stream, and there was none. -/
  | idle
    (kept : s.parameters.markers.run s.capturing.producing frames = [])
    (outside : s.capturing.isBeginningOfStream = true)
    (result : s' = s.setProducing (s.parameters.markers.state s.capturing.producing frames))
  /-- There is no stream any more. -/
  | endOfStream (chunk : Chunk)
    (kept : s.parameters.markers.run s.capturing.producing frames = [])
    (inside : s.capturing.isBeginningOfStream = false)
    (enqueues : Enqueues s s' chunk)
    (isEnd : chunk.endOfStream = true ∧ chunk.frames = 0)
    (producing : s'.capturing.producing =
      s.parameters.markers.state s.capturing.producing frames)
    (outside : s'.capturing.isBeginningOfStream = true)
    (capturedFrames : s'.capturing.capturedFrames = s.capturing.capturedFrames)
  /-- There is a stream. -/
  | data (chunk : Chunk)
    (kept : s.parameters.markers.run s.capturing.producing frames ≠ [])
    (enqueues : Enqueues s s' chunk)
    (holds : HoldsData s.parameters (s.parameters.markers.run s.capturing.producing frames) chunk)
    (producing : s'.capturing.producing =
      s.parameters.markers.state s.capturing.producing frames)
    (inside : s'.capturing.isBeginningOfStream = false)
    (capturedFrames : s'.capturing.capturedFrames = s.capturing.capturedFrames + chunk.frames)
    (total : chunk.capturedFrames = s'.capturing.capturedFrames)
  /-- The queue is full. -/
  | overflow
    (contents : s'.queue.contents = s.queue.contents)
    (enqueued : s'.capturing.enqueued = s.capturing.enqueued)
    (overflows : s'.capturing.overflows = s.capturing.overflows + 1)
    (isBeginningOfStream :
      s'.capturing.isBeginningOfStream = s.capturing.isBeginningOfStream)

variable {mover : Chunk → Capturing → Bool × Chunk × Capturing} {s : Source}

@[simp] theorem setProducing_parameters (producing : Bool) (s : Source) :
    (s.setProducing producing).parameters = s.parameters := rfl

/-- A chunk is enqueued, unless the queue is full. -/
theorem enqueue_cases (mover : Chunk → Capturing → Bool × Chunk × Capturing)
    (hmover : ∀ chunk c, (mover chunk c).1 = true) (hs : s.Allocated) :
    (s.enqueue mover).queue = s.queue ∧
        (s.enqueue mover).capturing = Source.overflow s.capturing ∨
      ∃ chunk, chunk.buffer.length = s.parameters.bufferSize ∧
        (s.enqueue mover).capturing = (mover chunk s.capturing).2.2 ∧
        (s.enqueue mover).queue.contents =
          s.queue.contents ++ [(mover chunk s.capturing).2.1] := by
  by_cases hfull : s.queue.contents.length + 1 = s.queue.size
  · left
    rw [enqueue, s.queue.enqueue_full mover Source.overflow s.capturing hfull]
    exact ⟨rfl, rfl⟩
  · right
    obtain ⟨i, hcapturing, hcontents⟩ :=
      s.queue.enqueue_contents mover Source.overflow s.capturing hfull
    rw [if_pos (hmover _ _)] at hcontents
    exact ⟨s.queue.slots i, hs i, hcapturing, hcontents⟩

theorem enqueue_allocated (hs : s.Allocated)
    (hmover : ∀ chunk, chunk.buffer.length = s.parameters.bufferSize →
      (mover chunk s.capturing).2.1.buffer.length = s.parameters.bufferSize) :
    (s.enqueue mover).Allocated :=
  RealTimeQueue.eachSlot_enqueue mover Source.overflow s.queue s.capturing hs hmover

/-- The frames that fit into a read fit into a chunk. -/
theorem kept_le_bufferSize (p : Parameters) {frames : List (List UInt8)}
    (hframes : ∀ frame ∈ frames, frame.length = p.bytesPerFrame)
    (hmax : frames.length ≤ p.framesPerChunk) (producing : Bool) :
    (p.markers.run producing frames).flatten.length ≤ p.bufferSize := by
  rw [run_flatten_length hframes, bufferSize, Nat.mul_assoc]
  exact Nat.mul_le_mul_right _ (le_trans (run_length_le producing frames) hmax)

/-- The chunk a data mover fills. -/
theorem moveData_holds (hp : p.Valid) {srcBuffer : List UInt8} {frames : List (List UInt8)}
    (h : p.Holds srcBuffer 0 frames) (hmax : frames.length ≤ p.framesPerChunk)
    {c : Capturing} {producing : Bool} {offset : ℕ}
    (hoffset : (containsData p srcBuffer frames.length producing).1 = some offset)
    (hc : c.producing = (containsData p srcBuffer frames.length producing).2)
    (timestamp : Timestamp) {chunk : Chunk} (hchunk : chunk.buffer.length = p.bufferSize) :
    HoldsData p (p.markers.run producing frames)
        (moveData p timestamp srcBuffer frames.length offset chunk c).2.1 ∧
      (moveData p timestamp srcBuffer frames.length offset chunk c).2.2.producing =
        p.markers.state producing frames := by
  have hcopy := (copyData_spec hp h hoffset chunk.buffer).1
  rw [← hc] at hcopy
  have hkept := kept_le_bufferSize p h.sizes hmax producing
  have hflat := run_flatten_length h.sizes producing
  have hsize : (p.markers.run producing frames).length * p.bytesPerSample * p.logicalChannels =
      (p.markers.run producing frames).flatten.length := by
    rw [hflat, Nat.mul_assoc, Nat.mul_comm p.bytesPerSample]
  have hbuffer : (overwrite chunk.buffer 0 (p.markers.run producing frames).flatten).length =
      p.bufferSize := by
    rw [overwrite_length, hchunk]
    rw [hchunk, Nat.zero_add]
    exact hkept
  rw [moveData, hcopy]
  refine ⟨⟨rfl, ?_, rfl, Nat.mul_right_comm _ _ _, ?_, hbuffer⟩, rfl⟩
  · show (overwrite chunk.buffer 0 _).take
      ((p.markers.run producing frames).length * p.bytesPerSample * p.logicalChannels) = _
    rw [hsize, take_overwrite_zero]
  · show (p.markers.run producing frames).length * p.bytesPerSample * p.logicalChannels ≤
      (overwrite chunk.buffer 0 _).length
    rw [hsize, hbuffer]
    exact hkept

/-- A read without data after one with data. -/
theorem enqueue_endOfStream_step (hs : s.Allocated) {frames : List (List UInt8)}
    (hrun : s.parameters.markers.run s.capturing.producing frames = [])
    (hinside : s.capturing.isBeginningOfStream = false) (timestamp : Timestamp) :
    FramesStep frames s ((s.setProducing (s.parameters.markers.state s.capturing.producing
      frames)).enqueue (moveEndOfStream s.parameters timestamp)) := by
  rcases enqueue_cases (moveEndOfStream s.parameters timestamp)
      (s := s.setProducing (s.parameters.markers.state s.capturing.producing frames))
      (fun _ _ => rfl) hs with ⟨hqueue, hcapturing⟩ | ⟨chunk, _, hcapturing, hcontents⟩
  · refine .overflow (congrArg RealTimeQueue.contents hqueue) ?_ ?_ ?_
    all_goals
      rw [hcapturing]
      rfl
  · refine .endOfStream _ hrun hinside ⟨hcontents, ?_, ?_⟩ ⟨rfl, rfl⟩ ?_ ?_ ?_
    all_goals
      rw [hcapturing]
      rfl

/-- A read with data. -/
theorem enqueue_data_step (hp : s.parameters.Valid) (hs : s.Allocated) {srcBuffer : List UInt8}
    {frames : List (List UInt8)} (h : s.parameters.Holds srcBuffer 0 frames)
    (hmax : frames.length ≤ s.parameters.framesPerChunk) {offset : ℕ}
    (hscan : (containsData s.parameters srcBuffer frames.length s.capturing.producing).1 =
      some offset) (timestamp : Timestamp) :
    FramesStep frames s ((s.setProducing (containsData s.parameters srcBuffer frames.length
      s.capturing.producing).2).enqueue
        (moveData s.parameters timestamp srcBuffer frames.length offset)) := by
  have hrun := (copyData_spec hp h hscan []).2
  rcases enqueue_cases (moveData s.parameters timestamp srcBuffer frames.length offset)
      (s := s.setProducing
        (containsData s.parameters srcBuffer frames.length s.capturing.producing).2)
      (fun _ _ => rfl) hs with ⟨hqueue, hcapturing⟩ | ⟨chunk, hchunk, hcapturing, hcontents⟩
  · refine .overflow (congrArg RealTimeQueue.contents hqueue) ?_ ?_ ?_
    all_goals
      rw [hcapturing]
      rfl
  · obtain ⟨hholds, hproducing⟩ := moveData_holds hp h hmax hscan rfl timestamp hchunk
      (c := (s.setProducing
        (containsData s.parameters srcBuffer frames.length s.capturing.producing).2).capturing)
    refine .data _ hrun ⟨hcontents, ?_, ?_⟩ hholds (hcapturing ▸ hproducing) ?_ ?_ ?_
    all_goals
      rw [hcapturing]
      rfl

/-- **What a read does**, and that the buffers of the chunks keep their size. -/
theorem onFrames_step (hp : s.parameters.Valid) (hs : s.Allocated) {srcBuffer : List UInt8}
    {frames : List (List UInt8)} (h : s.parameters.Holds srcBuffer 0 frames)
    (hmax : frames.length ≤ s.parameters.framesPerChunk) (timestamp : Timestamp) :
    FramesStep frames s (s.onFrames timestamp srcBuffer frames.length) ∧
      (s.onFrames timestamp srcBuffer frames.length).Allocated := by
  rw [onFrames]
  simp only [setProducing_parameters]
  cases hscan : (containsData s.parameters srcBuffer frames.length s.capturing.producing).1 with
  | none =>
    obtain ⟨hstate, hrun⟩ := containsData_none hp h hscan
    rw [hstate]
    dsimp only
    split
    · rename_i hinside
      exact ⟨enqueue_endOfStream_step hs hrun ((Bool.not_eq_true' _).mp hinside) timestamp,
        enqueue_allocated hs fun chunk hchunk => hchunk⟩
    · rename_i houtside
      rw [Bool.not_eq_true', Bool.not_eq_false] at houtside
      exact ⟨.idle hrun houtside rfl, hs⟩
  | some offset =>
    exact ⟨enqueue_data_step hp hs h hmax hscan timestamp, enqueue_allocated hs
      fun chunk hchunk => (moveData_holds hp h hmax hscan rfl timestamp hchunk).1.buffer⟩

/-! ### Runs -/

/-- A read of the device, or a call of the event loop. -/
inductive Stimulus where
  /-- The frames the device fills the buffer with, and what the buffer holds after them. -/
  | read (frames : List (List UInt8)) (stale : List UInt8) (timestamp : Timestamp)
  | produceChunk (consumer : Chunk → Bool)

def enabled (s : Source) : Stimulus → Prop
  | .read frames _ _ =>
    frames ≠ [] ∧ frames.length ≤ s.parameters.framesPerChunk ∧
      ∀ frame ∈ frames, frame.length = s.parameters.bytesPerFrame
  | .produceChunk _ => True

instance (s : Source) : (e : Stimulus) → Decidable (s.enabled e)
  | .read _ _ _ => inferInstanceAs (Decidable (_ ∧ _ ∧ _))
  | .produceChunk _ => instDecidableTrue

def step (s : Source) : Stimulus → Source
  | .read frames stale timestamp =>
    (s.onRead ⟨frames.length, frames.flatten ++ stale, timestamp⟩).2
  | .produceChunk consumer => (s.producer consumer).2

open GuardedExecution in
def system : System Source Stimulus where
  enabled := enabled
  step := step

instance (s : Source) (e : Stimulus) : Decidable (system.enabled s e) :=
  inferInstanceAs (Decidable (s.enabled e))

/-- The frames the device has delivered. -/
def framesRead (es : List Stimulus) : List (List UInt8) :=
  es.flatMap fun
    | .read frames _ _ => frames
    | .produceChunk _ => []

/-- A read of some frames is handled as such. -/
theorem step_read {frames : List (List UInt8)} (hframes : frames ≠ []) (stale : List UInt8)
    (timestamp : Timestamp) (s : Source) :
    s.step (.read frames stale timestamp) =
      s.onFrames timestamp (frames.flatten ++ stale) frames.length := by
  have hpos : (0 : ℤ) < frames.length := by
    have hlength := List.length_pos_of_ne_nil hframes
    omega
  rw [step, onRead, if_pos hpos]
  rfl

/-- An error ends the loop: none is recovered. -/
theorem produceLoop_error {read : PcmRead} (h : read.result < 0) (reads : List PcmRead)
    (s : Source) : produceLoop (read :: reads) s = s := by
  have hturn : s.onRead read = (read.result, s) := by
    rw [onRead, if_neg (by omega), if_neg]
    simp [restore, h]
  rw [produceLoop, hturn]
  exact if_neg (by omega)

/-- **The loop of the producer thread** is a run of reads, up to the first error. -/
theorem produceLoop_exec (reads : List (List (List UInt8) × List UInt8 × Timestamp))
    (hreads : ∀ read ∈ reads, read.1 ≠ []) {error : PcmRead} (herror : error.result < 0)
    (later : List PcmRead) (s : Source) :
    produceLoop (reads.map (fun read => ⟨read.1.length, read.1.flatten ++ read.2.1, read.2.2⟩) ++
        error :: later) s =
      system.exec s (reads.map fun read => .read read.1 read.2.1 read.2.2) := by
  induction reads generalizing s with
  | nil => exact produceLoop_error herror later s
  | cons read reads ih =>
    have hpos : (0 : ℤ) < read.1.length := by
      have hlength := List.length_pos_of_ne_nil (hreads read List.mem_cons_self)
      omega
    rw [List.map_cons, List.cons_append, produceLoop]
    have hcontinue : 0 ≤ (s.onRead ⟨read.1.length, read.1.flatten ++ read.2.1, read.2.2⟩).1 := by
      rw [onRead, if_pos hpos]
      exact hpos.le
    rw [if_pos hcontinue]
    exact ih (fun r hr => hreads r (List.mem_cons_of_mem _ hr)) _

theorem feed_chunk (consumer : Chunk → Bool) (chunk : Chunk) (d : Delivery) :
    (feed consumer chunk d).2.1 = chunk := by
  rw [feed]
  split
  · split <;> rfl
  · rfl

theorem producer_allocated {s : Source} (hs : s.Allocated) (consumer : Chunk → Bool) :
    (s.producer consumer).2.Allocated :=
  RealTimeQueue.eachSlot_dequeue _ _ _ _ hs fun chunk hchunk => by
    rw [feed_chunk]
    exact hchunk

/-- The data chunks among some chunks. -/
def dataChunks (chunks : List Chunk) : List Chunk := chunks.filter fun chunk => !chunk.endOfStream

/-- **The data chunks carry the frames the automaton selects**, and nothing else. -/
structure PerfectCapture (p : Parameters) (frames : List (List UInt8)) (chunks : List Chunk) :
    Prop where
  payloads : chunks.flatMap Chunk.payload = (p.markers.run false frames).flatten
  sizes : ∀ chunk ∈ chunks,
    chunk.payloadSize = chunk.frames * p.logicalChannels * p.bytesPerSample
  frameCounts : ∀ chunk ∈ chunks, 1 ≤ chunk.frames ∧ chunk.frames ≤ p.framesPerChunk
  bounds : ∀ chunk ∈ chunks,
    chunk.payloadSize ≤ chunk.buffer.length ∧ chunk.buffer.length = p.bufferSize
  total : (chunks.map Chunk.frames).sum = (p.markers.run false frames).length
  totals : ∀ before chunk after, chunks = before ++ chunk :: after →
    chunk.capturedFrames = ((before ++ [chunk]).map Chunk.frames).sum

theorem PerfectCapture.nil (p : Parameters) : PerfectCapture p [] [] where
  payloads := rfl
  sizes := List.forall_mem_nil _
  frameCounts := List.forall_mem_nil _
  bounds := List.forall_mem_nil _
  total := rfl
  totals before chunk after h := by
    have hlength := congrArg List.length h
    rw [List.length_append, List.length_cons, List.length_nil] at hlength
    omega

/-- Nothing is selected of some more frames. -/
theorem PerfectCapture.skip {p : Parameters} {frames more : List (List UInt8)}
    {chunks : List Chunk} (h : PerfectCapture p frames chunks)
    (hrun : p.markers.run (p.markers.state false frames) more = []) :
    PerfectCapture p (frames ++ more) chunks where
  payloads := by rw [Transducer.run_append, hrun, List.append_nil, h.payloads]
  sizes := h.sizes
  frameCounts := h.frameCounts
  bounds := h.bounds
  total := by rw [Transducer.run_append, hrun, List.append_nil, h.total]
  totals := h.totals

/-- A chunk with what is selected of some more frames. -/
theorem PerfectCapture.concat {p : Parameters} {frames more : List (List UInt8)}
    {chunks : List Chunk} (h : PerfectCapture p frames chunks) {chunk : Chunk}
    (hrun : p.markers.run (p.markers.state false frames) more ≠ [])
    (hholds : HoldsData p (p.markers.run (p.markers.state false frames) more) chunk)
    (hmax : more.length ≤ p.framesPerChunk)
    (htotal : chunk.capturedFrames = (p.markers.run false frames).length + chunk.frames) :
    PerfectCapture p (frames ++ more) (chunks ++ [chunk]) where
  payloads := by
    rw [Transducer.run_append, List.flatten_append, List.flatMap_append, h.payloads,
      List.flatMap_singleton, hholds.payload]
  sizes := by
    intro c hc
    rcases List.mem_append.mp hc with hc | hc
    · exact h.sizes c hc
    · rw [List.mem_singleton.mp hc]
      exact hholds.size
  frameCounts := by
    intro c hc
    rcases List.mem_append.mp hc with hc | hc
    · exact h.frameCounts c hc
    · rw [List.mem_singleton.mp hc, hholds.frames]
      exact ⟨List.length_pos_of_ne_nil hrun, le_trans (run_length_le _ more) hmax⟩
  bounds := by
    intro c hc
    rcases List.mem_append.mp hc with hc | hc
    · exact h.bounds c hc
    · rw [List.mem_singleton.mp hc]
      exact ⟨hholds.bounds, hholds.buffer⟩
  total := by
    rw [Transducer.run_append, List.length_append, List.map_append, List.sum_append, h.total,
      List.map_singleton, List.sum_singleton, hholds.frames]
  totals := by
    intro before c after hsplit
    rcases List.eq_nil_or_concat after with rfl | ⟨after, last, rfl⟩
    · obtain ⟨rfl, hc⟩ := List.append_inj' hsplit rfl
      obtain rfl := List.singleton_inj.mp hc
      rw [htotal, List.map_append, List.sum_append, h.total, List.map_singleton,
        List.sum_singleton]
      exact (Int.natCast_add _ _).symm
    · rw [List.concat_eq_append, ← List.cons_append, ← List.append_assoc] at hsplit
      exact h.totals before c after (List.append_inj' hsplit rfl).1

/-- **The invariant of the capture**, for as long as the queue has not been full. -/
structure Captures (frames : List (List UInt8)) (s : Source) : Prop where
  allocated : s.Allocated
  perfect : s.capturing.overflows = 0 →
    s.capturing.producing = s.parameters.markers.state false frames ∧
      s.capturing.capturedFrames = (s.parameters.markers.run false frames).length ∧
      PerfectCapture s.parameters frames (dataChunks s.capturing.enqueued)

theorem create_captures (parameters : Parameters) (now : Timestamp) :
    Captures [] (create parameters now) where
  allocated := fun _ => List.length_replicate
  perfect := fun _ => ⟨rfl, rfl, PerfectCapture.nil parameters⟩

theorem onFrames_parameters (timestamp : Timestamp) (srcBuffer : List UInt8) (result : ℕ)
    (s : Source) : (s.onFrames timestamp srcBuffer result).parameters = s.parameters := by
  rw [onFrames]
  split
  · rfl
  · split <;> rfl

theorem step_parameters (s : Source) (e : Stimulus) : (s.step e).parameters = s.parameters := by
  cases e with
  | read frames stale timestamp =>
    rw [step, onRead]
    split
    · exact onFrames_parameters _ _ _ s
    · split <;> rfl
  | produceChunk consumer => rfl

/-- The frames a buffer starts with. -/
theorem holds_flatten {p : Parameters} {frames : List (List UInt8)}
    (hframes : ∀ frame ∈ frames, frame.length = p.bytesPerFrame) (stale : List UInt8) :
    p.Holds (frames.flatten ++ stale) 0 frames :=
  ⟨⟨stale, by rw [Nat.zero_mul, List.drop_zero]⟩, hframes⟩

/-- **A read keeps the invariant.** -/
theorem FramesStep.captures {frames more : List (List UInt8)} {s s' : Source}
    (hs : Captures frames s) (hparameters : s'.parameters = s.parameters)
    (hallocated : s'.Allocated) (hmax : more.length ≤ s.parameters.framesPerChunk)
    (h : FramesStep more s s') : Captures (frames ++ more) s' := by
  refine ⟨hallocated, ?_⟩
  intro hfull
  rw [hparameters]
  cases h with
  | idle kept outside result =>
    subst result
    obtain ⟨hproducing, hcaptured, hperfect⟩ := hs.perfect hfull
    rw [hproducing] at kept
    refine ⟨?_, ?_, hperfect.skip kept⟩
    · rw [Transducer.state_append, ← hproducing]
      rfl
    · rw [Transducer.run_append, kept, List.append_nil]
      exact hcaptured
  | endOfStream chunk kept inside enqueues isEnd producing outside capturedFrames =>
    rw [enqueues.overflows] at hfull
    obtain ⟨hproducing, hcaptured, hperfect⟩ := hs.perfect hfull
    rw [hproducing] at kept producing
    have hdata : dataChunks s'.capturing.enqueued = dataChunks s.capturing.enqueued := by
      rw [dataChunks, enqueues.enqueued, List.filter_append, dataChunks]
      simp [isEnd.1]
    rw [hdata]
    refine ⟨?_, ?_, hperfect.skip kept⟩
    · rw [Transducer.state_append, producing]
    · rw [Transducer.run_append, kept, List.append_nil, capturedFrames]
      exact hcaptured
  | data chunk kept enqueues holds producing inside capturedFrames total =>
    rw [enqueues.overflows] at hfull
    obtain ⟨hproducing, hcaptured, hperfect⟩ := hs.perfect hfull
    rw [hproducing] at kept producing holds
    rw [hcaptured] at capturedFrames
    have hdata : dataChunks s'.capturing.enqueued = dataChunks s.capturing.enqueued ++ [chunk] := by
      rw [dataChunks, enqueues.enqueued, List.filter_append, dataChunks]
      simp [holds.endOfStream]
    rw [hdata]
    refine ⟨?_, ?_, hperfect.concat kept holds hmax (total.trans capturedFrames)⟩
    · rw [Transducer.state_append, producing]
    · rw [Transducer.run_append, List.length_append, capturedFrames, holds.frames]
      exact (Int.natCast_add _ _).symm
  | overflow contents enqueued overflows isBeginningOfStream =>
    rw [overflows] at hfull
    exact absurd hfull (Nat.succ_ne_zero _)

theorem step_captures {frames : List (List UInt8)} {s : Source} (hp : s.parameters.Valid)
    (hs : Captures frames s) {e : Stimulus} (he : s.enabled e) :
    Captures (frames ++ framesRead [e]) (s.step e) := by
  cases e with
  | read more stale timestamp =>
    obtain ⟨hne, hmax, hsizes⟩ := he
    obtain ⟨hstep, hallocated⟩ :=
      onFrames_step hp hs.allocated (holds_flatten hsizes stale) hmax timestamp
    rw [step_read hne]
    have hread : framesRead [.read more stale timestamp] = more := List.append_nil more
    rw [hread]
    exact hstep.captures hs (onFrames_parameters _ _ _ s) hallocated hmax
  | produceChunk consumer =>
    have hread : framesRead [.produceChunk consumer] = [] := rfl
    rw [hread, List.append_nil]
    exact ⟨producer_allocated hs.allocated consumer, hs.perfect⟩

/-- **Every run keeps the invariant.** -/
theorem run_captures (hp : Parameters.Valid p) (now : Timestamp) {es : List Stimulus}
    (hes : system.Admits (create p now) es) :
    (system.exec (create p now) es).parameters = p ∧
      Captures (framesRead es) (system.exec (create p now) es) := by
  induction es using List.reverseRecOn with
  | nil => exact ⟨rfl, create_captures p now⟩
  | append_singleton es e ih =>
    rw [GuardedExecution.System.admits_concat] at hes
    obtain ⟨hparameters, hcaptures⟩ := ih hes.1
    rw [GuardedExecution.System.exec_concat]
    have hread : framesRead (es ++ [e]) = framesRead es ++ framesRead [e] := List.flatMap_append
    rw [hread]
    exact ⟨(step_parameters _ e).trans hparameters,
      step_captures (by rw [hparameters]; exact hp) hcaptures hes.2⟩

/-- **Bit-perfect capture**: however the frames are cut into reads, and whatever the event loop
takes out meanwhile, the data chunks carry the frames the automaton selects, if the queue was
never full. -/
theorem bit_perfect_capture (hp : p.Valid) (now : Timestamp) {es : List Stimulus}
    (hes : system.Admits (create p now) es)
    (hfull : (system.exec (create p now) es).capturing.overflows = 0) :
    PerfectCapture p (framesRead es)
      (dataChunks (system.exec (create p now) es).capturing.enqueued) := by
  obtain ⟨hparameters, hcaptures⟩ := run_captures hp now hes
  have hperfect := (hcaptures.perfect hfull).2.2
  rwa [hparameters] at hperfect

/-- One channel of octets besides the markers', and at most two frames in a read. -/
def narrow : Parameters := ⟨2, 8, 44100, 2, by decide, 2⟩

/-- A stream of two frames that begins in one read and ends in the next, and a frame outside. -/
def twoReads : List Stimulus :=
  [.read [[0, 1], [7, 3]] [] ⟨0⟩, .produceChunk fun _ => true,
    .read [[8, 3], [0, 2]] [] ⟨1⟩, .read [[9, 3]] [0, 2] ⟨2⟩]

theorem bit_perfect_capture_twoReads :
    PerfectCapture narrow (framesRead twoReads)
        (dataChunks (system.exec (create narrow ⟨0⟩) twoReads).capturing.enqueued) ∧
      (narrow.markers.run false (framesRead twoReads)).flatten = [7, 8] :=
  ⟨bit_perfect_capture ⟨by decide, by decide⟩ ⟨0⟩ (by decide +kernel) (by decide +kernel),
    by decide⟩

end Source

end SlimStreamer
