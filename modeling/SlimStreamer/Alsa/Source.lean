import SlimStreamer.Chunk
import SlimStreamer.Util.RealTimeQueue

/-!
# The capture of PCM data

`alsa::Source`: the producer thread reads frames from the device, selects what belongs to a
stream by the marker in the last octet of each frame, and hands it over in the chunks of a
real-time queue; the event loop takes the chunks out and offers them to a consumer.

A read of the device is an argument, and so are the answers of the consumer.

* `containsData`, `copyData` — the two passes over the frames of a read;
* `onFrames`, `produce` — one turn of the loop of the producer thread, and the loop;
* `producer` — the delivery of one chunk.
-/

namespace SlimStreamer

namespace Alsa

/-- The meaning of the last octet of a frame. -/
inductive StreamMarker where
  | beginningOfStream | endOfStream | data
  /-- A value that stands for nothing. -/
  | other
  deriving DecidableEq, Repr

def StreamMarker.ofOctet (octet : UInt8) : StreamMarker :=
  if octet = 1 then .beginningOfStream
  else if octet = 2 then .endOfStream
  else if octet = 3 then .data
  else .other

structure Parameters where
  /-- All channels, with the one that holds the markers. -/
  totalChannels : ℕ
  bitsPerSample : ℕ
  samplingRate : ℕ
  /-- The size of the queue is this power of two. -/
  queueExponent : ℕ
  queueExponent_lt : queueExponent < 64
  framesPerChunk : ℕ

namespace Parameters

def logicalChannels (p : Parameters) : ℕ := p.totalChannels - 1

def bytesPerSample (p : Parameters) : ℕ := p.bitsPerSample >>> 3

def bytesPerFrame (p : Parameters) : ℕ := p.totalChannels * p.bytesPerSample

/-- The size of the buffer of a chunk. -/
def bufferSize (p : Parameters) : ℕ := p.framesPerChunk * p.logicalChannels * p.bytesPerSample

/-- The marker in the last octet of the frame with the given index. -/
def marker (p : Parameters) (buffer : List UInt8) (i : ℕ) : StreamMarker :=
  .ofOctet (buffer.getD ((i + 1) * p.bytesPerFrame - 1) 0)

end Parameters

/-- The state of the producer thread: what `produce` and the functions it calls change. -/
structure Capturing where
  producing : Bool
  isBeginningOfStream : Bool
  capturedFrames : ℤ
  /-- How often the overflow callback was called. -/
  overflows : ℕ
  /-- The chunks enqueued so far. -/
  enqueued : List Chunk

end Alsa

structure Source where
  parameters : Alsa.Parameters
  queue : RealTimeQueue Chunk
  capturing : Alsa.Capturing
  consuming : Bool

namespace Source

open Alsa

/-- The constructor; `now` is read for every slot. -/
def create (parameters : Parameters) (now : Timestamp) : Source where
  parameters := parameters
  queue := RealTimeQueue.create parameters.queueExponent parameters.queueExponent_lt
    (Chunk.allocated parameters.bufferSize now)
  capturing := ⟨false, true, 0, 0, []⟩
  consuming := false

/-! ### The producer thread -/

/-- The loop of `containsData`, for the given number of frames from index `i` on.  The offset is
absent where the source returns -1. -/
def containsDataFrom (p : Parameters) (buffer : List UInt8) : ℕ → ℕ → Bool → Option ℕ × Bool
  | 0, _, producing => (none, producing)
  | n + 1, i, producing =>
    match p.marker buffer i with
    | .beginningOfStream => containsDataFrom p buffer n (i + 1) true
    | .endOfStream => containsDataFrom p buffer n (i + 1) false
    | .data =>
      if producing then (some i, producing) else containsDataFrom p buffer n (i + 1) producing
    | .other => containsDataFrom p buffer n (i + 1) producing

def containsData (p : Parameters) (buffer : List UInt8) (frames : ℕ) (producing : Bool) :
    Option ℕ × Bool :=
  containsDataFrom p buffer frames 0 producing

/-- Writing octets at a position; a list that is too short grows. -/
def overwrite (dst : List UInt8) (position : ℕ) (octets : List UInt8) : List UInt8 :=
  dst.take position ++ octets ++ dst.drop (position + octets.length)

/-- The variables of `copyData`. -/
structure Copying where
  producing : Bool
  dstBuffer : List UInt8
  /-- Where the destination pointer points to. -/
  dstPosition : ℕ
  framesCopied : ℕ

/-- The body of the loop of `copyData`. -/
def copyFrame (p : Parameters) (srcBuffer : List UInt8) (i : ℕ) (c : Copying) : Copying :=
  match p.marker srcBuffer i with
  | .beginningOfStream => { c with producing := true }
  | .endOfStream => { c with producing := false }
  | .data =>
    if c.producing then
      -- copying byte-by-byte and skipping the last channel
      let octets := (List.range (p.bytesPerFrame - p.bytesPerSample)).map fun j =>
        srcBuffer.getD (i * p.bytesPerFrame + j) 0
      { c with
        dstBuffer := overwrite c.dstBuffer c.dstPosition octets
        dstPosition := c.dstPosition + p.logicalChannels * p.bytesPerSample
        framesCopied := c.framesCopied + 1 }
    else c
  | .other => c

def copyDataFrom (p : Parameters) (srcBuffer : List UInt8) : ℕ → ℕ → Copying → Copying
  | 0, _, c => c
  | n + 1, i, c => copyDataFrom p srcBuffer n (i + 1) (copyFrame p srcBuffer i c)

def copyData (p : Parameters) (srcBuffer dstBuffer : List UInt8) (frames : ℕ) (producing : Bool) :
    Copying :=
  copyDataFrom p srcBuffer frames 0 ⟨producing, dstBuffer, 0, 0⟩

/-- The chunk with its meta data. -/
def describe (p : Parameters) (timestamp : Timestamp) (endOfStream : Bool) (chunk : Chunk) :
    Chunk :=
  { chunk with
    timestamp := timestamp
    samplingRate := p.samplingRate
    channels := p.logicalChannels
    bytesPerSample := p.bytesPerSample
    endOfStream := endOfStream }

/-- The mover that fills a chunk with the frames from the given offset on. -/
def moveData (p : Parameters) (timestamp : Timestamp) (srcBuffer : List UInt8) (result offset : ℕ)
    (chunk : Chunk) (c : Capturing) : Bool × Chunk × Capturing :=
  let copied := copyData p (srcBuffer.drop (offset * p.bytesPerFrame)) chunk.buffer
    (result - min offset result) c.producing
  let capturedFrames := c.capturedFrames + copied.framesCopied
  let chunk := { describe p timestamp false chunk with
    buffer := copied.dstBuffer
    frames := copied.framesCopied
    capturedFrames := capturedFrames }
  (true, chunk, { c with
    producing := copied.producing
    capturedFrames := capturedFrames
    isBeginningOfStream := false
    enqueued := c.enqueued ++ [chunk] })

/-- The mover that makes an end-of-stream chunk. -/
def moveEndOfStream (p : Parameters) (timestamp : Timestamp) (chunk : Chunk) (c : Capturing) :
    Bool × Chunk × Capturing :=
  let chunk := { (describe p timestamp true chunk).clear with capturedFrames := c.capturedFrames }
  (true, chunk, { c with isBeginningOfStream := true, enqueued := c.enqueued ++ [chunk] })

def overflow (c : Capturing) : Capturing := { c with overflows := c.overflows + 1 }

/-- `queue.enqueue`, with the overflow callback. -/
def enqueue (mover : Chunk → Capturing → Bool × Chunk × Capturing) (s : Source) : Source :=
  let enqueued := s.queue.enqueue mover overflow s.capturing
  { s with queue := enqueued.1, capturing := enqueued.2 }

def setProducing (producing : Bool) (s : Source) : Source :=
  { s with capturing := { s.capturing with producing := producing } }

/-- What the loop does with the frames of a read. -/
def onFrames (timestamp : Timestamp) (srcBuffer : List UInt8) (result : ℕ) (s : Source) :
    Source :=
  let scanned := containsData s.parameters srcBuffer result s.capturing.producing
  let s := s.setProducing scanned.2
  match scanned.1 with
  | some offset => s.enqueue (moveData s.parameters timestamp srcBuffer result offset)
  | none =>
    if !s.capturing.isBeginningOfStream then s.enqueue (moveEndOfStream s.parameters timestamp)
    else s

/-- What one call of `snd_pcm_readi` returns, the buffer after it, and the time. -/
structure PcmRead where
  result : ℤ
  srcBuffer : List UInt8
  timestamp : Timestamp

def restore (error : ℤ) : Bool := !(error < 0)

/-- One turn of the loop; the first component decides whether there is another. -/
def onRead (read : PcmRead) (s : Source) : ℤ × Source :=
  if 0 < read.result then
    (read.result, s.onFrames read.timestamp read.srcBuffer read.result.toNat)
  -- error was recovered so keep processing
  else if read.result < 0 ∧ restore read.result = true then (0, s)
  else (read.result, s)

def produceLoop : List PcmRead → Source → Source
  | [], s => s
  | read :: reads, s =>
    let turn := s.onRead read
    if 0 ≤ turn.1 then produceLoop reads turn.2 else turn.2

/-- `produce`, for the given reads of the device. -/
def produce (reads : List PcmRead) (s : Source) : Source :=
  produceLoop reads { s with capturing := { s.capturing with isBeginningOfStream := true } }

/-! ### The event loop -/

/-- What `producer` returns and changes, and the chunk it offered. -/
structure Delivery where
  result : Option ℕ
  consuming : Bool
  offered : Option Chunk

/-- The mover that feeds the consumer. -/
def feed (consumer : Chunk → Bool) (chunk : Chunk) (d : Delivery) : Bool × Chunk × Delivery :=
  let d := { d with consuming := true, offered := some chunk }
  if consumer chunk then
    -- if chunk was consumed and it is the end of the stream
    if chunk.endOfStream then (true, chunk, { d with consuming := false })
    else (true, chunk, { d with result := some 0 })
  -- if consumer did not accept a chunk then deferring further processing
  else (false, chunk, { d with result := some 10 })

def underflow (d : Delivery) : Delivery := if d.consuming then { d with result := some 10 } else d

/-- `producer`, which is also `produceChunk`.  The result is the delay until the next chunk, in
milliseconds. -/
def producer (consumer : Chunk → Bool) (s : Source) : Delivery × Source :=
  let dequeued := s.queue.dequeue (feed consumer) underflow ⟨none, s.consuming, none⟩
  (dequeued.2, { s with queue := dequeued.1, consuming := dequeued.2.consuming })

end Source

end SlimStreamer
