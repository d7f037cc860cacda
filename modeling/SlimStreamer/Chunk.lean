import Mathlib.Data.UInt
import SlimStreamer.Util.Timestamp

/-!
# Chunks of captured PCM data
-/

namespace SlimStreamer

structure Chunk where
  endOfStream : Bool
  samplingRate : ℕ
  channels : ℕ
  bytesPerSample : ℕ
  buffer : List UInt8
  frames : ℕ
  capturedFrames : ℤ
  timestamp : Timestamp
  deriving DecidableEq, Repr

namespace Chunk

/-- The number of octets of the buffer that are payload. -/
def payloadSize (chunk : Chunk) : ℕ := chunk.frames * chunk.bytesPerSample * chunk.channels

/-- The payload: the part of the buffer that holds captured frames. -/
def payload (chunk : Chunk) : List UInt8 := chunk.buffer.take chunk.payloadSize

def clear (chunk : Chunk) : Chunk := { chunk with frames := 0, capturedFrames := 0 }

/-- A default chunk whose buffer was allocated with the given size. -/
def allocated (size : ℕ) (now : Timestamp) : Chunk where
  endOfStream := false
  samplingRate := 0
  channels := 0
  bytesPerSample := 0
  buffer := List.replicate size 0
  frames := 0
  capturedFrames := 0
  timestamp := now

end Chunk

end SlimStreamer
