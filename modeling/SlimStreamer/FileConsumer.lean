import SlimStreamer.Chunk
import SlimStreamer.Lib.Octets
import SlimStreamer.Util.StreamAsyncWriter

/-!
# Dumping PCM data to a file

`FileConsumer` with `wave::Encoder`: a header is written when the consumer is built and again
over it when the consumer is destroyed, and every chunk consumed goes to the encoder, which
hands it on to the writer while it is running.

Nothing starts the encoder: `start` of the consumer sets its own flag only.  The number the
header is rewritten with counts the first header too, and both size fields get it.

* `consumeChunk_running` — what a consumer would write if its encoder were started;
* `Tallied` — what every run of calls keeps;
* `fileLeft_eq` — the file is a header and nothing else.
-/

namespace SlimStreamer

namespace Wave

/-- `wave::Encoder`. -/
structure Encoder where
  channels : ℕ
  bitsPerSample : ℕ
  samplingRate : ℕ
  running : Bool
  deriving DecidableEq

namespace Encoder

/-- What `encode` gives to the encoded callback. -/
def encode (data : List UInt8) (e : Encoder) : Option (List UInt8) :=
  if e.running then some data else none

def start (e : Encoder) : Encoder := { e with running := true }

end Encoder

end Wave

/-- The parameters a consumer takes from an `EncoderBuilder` whose builder is the wave encoder's. -/
structure EncoderBuilder where
  channels : ℕ
  bitsPerSample : ℕ
  samplingRate : ℕ
  header : Bool
  deriving DecidableEq

namespace EncoderBuilder

def build (eb : EncoderBuilder) : Wave.Encoder :=
  ⟨eb.channels, eb.bitsPerSample, eb.samplingRate, false⟩

end EncoderBuilder

structure FileConsumer where
  writer : StreamAsyncWriter
  encoder : Wave.Encoder
  headerRequired : Bool
  samplingRate : ℕ
  running : Bool
  bytesWritten : ℕ
  deriving DecidableEq

namespace FileConsumer

open Octets

/-- `std::size_t`. -/
def sizeT (n : ℕ) : ℕ := n % 2 ^ 64

/-- `unsigned int`. -/
def unsignedInt (n : ℕ) : ℕ := n % 2 ^ 32

/-- The header string; the host is little-endian. -/
def headerString (size : ℕ) (encoder : Wave.Encoder) (samplingRate : ℕ) : List UInt8 :=
  let channels := encoder.channels
  let bitsPerSample := encoder.bitsPerSample
  let bytesPerFrame := unsignedInt (channels * (bitsPerSample >>> 3))
  let byteRate := unsignedInt (samplingRate * bytesPerFrame)
  [0x52, 0x49, 0x46, 0x46]                   -- chunkID
    ++ toLittleEndian 4 size
    ++ [0x57, 0x41, 0x56, 0x45]              -- format
    ++ [0x66, 0x6D, 0x74, 0x20]              -- subchunk1ID
    ++ [0x10, 0x00, 0x00, 0x00]              -- size1
    ++ [0x01, 0x00]                          -- format1: PCM data
    ++ toLittleEndian 2 channels
    ++ toLittleEndian 4 samplingRate
    ++ toLittleEndian 4 byteRate
    ++ toLittleEndian 2 bytesPerFrame
    ++ toLittleEndian 2 bitsPerSample
    ++ [0x64, 0x61, 0x74, 0x61]              -- subchunk2ID
    ++ toLittleEndian 4 size

/-- `writeHeader(s)`; its callback counts the header as written. -/
def writeHeader (s : ℕ) (c : FileConsumer) : FileConsumer :=
  let r := (c.writer.rewind 0).writeAsync
    (headerString (unsignedInt s) c.encoder c.samplingRate)
  { c with writer := r.1, bytesWritten := sizeT (c.bytesWritten + r.2) }

/-- The members as the constructor initializes them. -/
def initialized (eb : EncoderBuilder) : FileConsumer where
  writer := StreamAsyncWriter.opened
  encoder := eb.build
  headerRequired := eb.header
  samplingRate := eb.samplingRate
  running := false
  bytesWritten := 0

def construct (eb : EncoderBuilder) : FileConsumer :=
  if eb.header then (initialized eb).writeHeader 0 else initialized eb

/-- The destructor. -/
def destroy (c : FileConsumer) : FileConsumer :=
  if c.headerRequired then c.writeHeader c.bytesWritten else c

/-- The encoded callback. -/
def encoded (data : List UInt8) (c : FileConsumer) : FileConsumer :=
  { c with writer := (c.writer.writeAsync data).1 }

/-- `consumeChunk`, with what it returns. -/
def consumeChunk (chunk : Chunk) (c : FileConsumer) : FileConsumer × Bool :=
  let size := sizeT chunk.payloadSize
  let c := match c.encoder.encode (chunk.buffer.take size) with
    | some data => c.encoded data
    | none => c
  -- deferring chunk is irrelevant for a file
  ({ c with bytesWritten := sizeT (c.bytesWritten + size) }, true)

def start (c : FileConsumer) : FileConsumer := { c with running := true }

/-- `stop(callback)`, with the callbacks it invokes: none. -/
def stop {α : Type} (_callback : α) (c : FileConsumer) : FileConsumer × List α :=
  ({ c with running := false }, [])

/-! ### Runs -/

/-- What its owner calls. -/
inductive Call where
  | start
  | stop
  | consumeChunk (chunk : Chunk)
  deriving DecidableEq

def call (c : FileConsumer) : Call → FileConsumer
  | .start => c.start
  | .stop => (c.stop ()).1
  | .consumeChunk chunk => (c.consumeChunk chunk).1

/-- The file after the consumer was built, called and destroyed. -/
def fileLeft (eb : EncoderBuilder) (calls : List Call) : List UInt8 :=
  (calls.foldl call (construct eb)).destroy.writer.content

namespace Call

/-- The payload of the chunks consumed. -/
def payload : List Call → List UInt8
  | [] => []
  | .consumeChunk chunk :: calls => chunk.payload ++ payload calls
  | _ :: calls => payload calls

/-- The size that is added up for them. -/
def size : List Call → ℕ
  | [] => 0
  | .consumeChunk chunk :: calls => sizeT chunk.payloadSize + size calls
  | _ :: calls => size calls

end Call

/-- A header of 44 octets with its two size fields, and the PCM data after it. -/
structure IsWav (file payload : List UInt8) : Prop where
  length : file.length = 44 + payload.length
  data : file.drop 44 = payload
  riffSize : littleEndian ((file.drop 4).take 4) = payload.length + 36
  dataSize : littleEndian ((file.drop 40).take 4) = payload.length

/-! ### The header -/

@[simp] theorem headerString_length (size : ℕ) (encoder : Wave.Encoder) (samplingRate : ℕ) :
    (headerString size encoder samplingRate).length = 44 := by
  simp [headerString]

theorem headerString_riffSize (size : ℕ) (encoder : Wave.Encoder) (samplingRate : ℕ) :
    ((headerString size encoder samplingRate).drop 4).take 4 = toLittleEndian 4 size := by
  simp [headerString]

theorem headerString_dataSize (size : ℕ) (encoder : Wave.Encoder) (samplingRate : ℕ) :
    (headerString size encoder samplingRate).drop 40 = toLittleEndian 4 size := by
  rw [headerString]
  exact List.drop_left' (by simp)

/-- The header is written over the one that is there. -/
theorem writeHeader_content (s : ℕ) {c : FileConsumer} (h : c.writer.content.length ≤ 44) :
    (c.writeHeader s).writer.content =
      headerString (unsignedInt s) c.encoder c.samplingRate := by
  show (((c.writer.rewind 0).write _)).content = _
  rw [StreamAsyncWriter.rewind_write, headerString_length, List.drop_eq_nil_of_le h,
    List.append_nil]

/-- What a running encoder is given is appended to the file. -/
theorem consumeChunk_running {c : FileConsumer} (hend : c.writer.position = c.writer.content.length)
    {chunk : Chunk} (hsize : chunk.payloadSize < 2 ^ 64) :
    ({ c with encoder := c.encoder.start }.consumeChunk chunk).1.writer.content =
      c.writer.content ++ chunk.payload := by
  have hpayload : chunk.buffer.take (sizeT chunk.payloadSize) = chunk.payload := by
    rw [sizeT, Nat.mod_eq_of_lt hsize]
    rfl
  show (c.writer.write (chunk.buffer.take (sizeT chunk.payloadSize))).content = _
  rw [StreamAsyncWriter.write_end hend, hpayload]

/-! ### What a run keeps -/

/-- The octets of the header that is required. -/
def headerSize (eb : EncoderBuilder) : ℕ := if eb.header then 44 else 0

/-- The encoder is idle and its output has never reached the file; the count goes on. -/
structure Tallied (eb : EncoderBuilder) (total : ℕ) (c : FileConsumer) : Prop where
  encoder : c.encoder = eb.build
  headerRequired : c.headerRequired = eb.header
  samplingRate : c.samplingRate = eb.samplingRate
  content : c.writer.content.length = headerSize eb
  bytesWritten : c.bytesWritten = sizeT (headerSize eb + total)

theorem sizeT_add (m n : ℕ) : sizeT (sizeT m + n) = sizeT (m + n) := Nat.mod_add_mod m _ n

theorem construct_tallied (eb : EncoderBuilder) : Tallied eb 0 (construct eb) := by
  unfold construct
  split
  · rename_i hheader
    refine ⟨rfl, rfl, rfl, ?_, ?_⟩
    · have hempty : (initialized eb).writer.content.length ≤ 44 := Nat.zero_le 44
      rw [writeHeader_content 0 hempty, headerString_length, headerSize, if_pos hheader]
    · show sizeT (0 + (headerString _ _ _).length) = _
      rw [headerString_length, headerSize, if_pos hheader]
  · rename_i hheader
    refine ⟨rfl, rfl, rfl, ?_, ?_⟩
    · rw [headerSize, if_neg hheader]
      rfl
    · rw [headerSize, if_neg hheader]
      rfl

theorem Tallied.consumeChunk {eb : EncoderBuilder} {total : ℕ} {c : FileConsumer}
    (h : Tallied eb total c) (chunk : Chunk) :
    Tallied eb (total + sizeT chunk.payloadSize) (c.consumeChunk chunk).1 := by
  have hidle : c.encoder.encode (chunk.buffer.take (sizeT chunk.payloadSize)) = none := by
    rw [h.encoder]
    rfl
  have heq : (c.consumeChunk chunk).1 =
      { c with bytesWritten := sizeT (c.bytesWritten + sizeT chunk.payloadSize) } := by
    rw [FileConsumer.consumeChunk, hidle]
  rw [heq]
  refine ⟨h.encoder, h.headerRequired, h.samplingRate, h.content, ?_⟩
  show sizeT (c.bytesWritten + sizeT chunk.payloadSize) = _
  rw [h.bytesWritten, sizeT_add, Nat.add_assoc]

theorem Tallied.run {eb : EncoderBuilder} (calls : List Call) {total : ℕ} {c : FileConsumer}
    (h : Tallied eb total c) : Tallied eb (total + Call.size calls) (calls.foldl call c) := by
  induction calls generalizing total c with
  | nil => exact h
  | cons next calls ih =>
    rw [List.foldl_cons]
    cases next with
    | start => exact ih ⟨h.encoder, h.headerRequired, h.samplingRate, h.content, h.bytesWritten⟩
    | stop => exact ih ⟨h.encoder, h.headerRequired, h.samplingRate, h.content, h.bytesWritten⟩
    | consumeChunk chunk =>
      have hrun := ih (h.consumeChunk chunk)
      rwa [Nat.add_assoc] at hrun

/-! ### The file -/

/-- **A consumer leaves its header and nothing else.** -/
theorem fileLeft_eq (eb : EncoderBuilder) (calls : List Call) :
    fileLeft eb calls =
      if eb.header then
        headerString (unsignedInt (sizeT (44 + Call.size calls))) eb.build eb.samplingRate
      else [] := by
  have h := (construct_tallied eb).run calls
  rw [Nat.zero_add] at h
  have hsize := h.content
  have hbytes := h.bytesWritten
  unfold headerSize at hsize hbytes
  unfold fileLeft destroy
  rw [h.headerRequired]
  split
  · rename_i hheader
    rw [if_pos hheader] at hsize hbytes
    rw [writeHeader_content _ (by omega), hbytes, h.encoder, h.samplingRate]
  · rename_i hheader
    rw [if_neg hheader] at hsize
    exact List.length_eq_zero_iff.mp hsize

/-- **Both size fields hold the number of all octets**, those of the header included. -/
theorem fileLeft_sizes {eb : EncoderBuilder} (h : eb.header = true) (calls : List Call) :
    littleEndian (((fileLeft eb calls).drop 4).take 4) =
        unsignedInt (sizeT (44 + Call.size calls)) ∧
      littleEndian (((fileLeft eb calls).drop 40).take 4) =
        unsignedInt (sizeT (44 + Call.size calls)) := by
  have hlt : unsignedInt (sizeT (44 + Call.size calls)) < 256 ^ 4 := Nat.mod_lt _ (by decide)
  rw [fileLeft_eq, if_pos h, headerString_riffSize, headerString_dataSize,
    List.take_of_length_le (toLittleEndian_length 4 _).le,
    littleEndian_toLittleEndian 4 _ hlt]
  exact ⟨rfl, rfl⟩

/-- **A PCM dump is never the WAV file of what was consumed**: with a header, one number stands
for both sizes; without one, nothing is written. -/
theorem fileLeft_not_isWav (eb : EncoderBuilder) (calls : List Call) :
    ¬ IsWav (fileLeft eb calls) (Call.payload calls) := by
  intro hwav
  rcases hheader : eb.header with _ | _
  · have hlength := hwav.length
    rw [fileLeft_eq, if_neg (by rw [hheader]; exact Bool.false_ne_true), List.length_nil]
      at hlength
    omega
  · obtain ⟨hriff, hdata⟩ := fileLeft_sizes hheader calls
    rw [hwav.riffSize] at hriff
    rw [hwav.dataSize] at hdata
    omega

/-- One frame of stereo sound with 16 bits a sample. -/
def oneFrame : Chunk where
  endOfStream := false
  samplingRate := 44100
  channels := 2
  bytesPerSample := 2
  buffer := [1, 2, 3, 4]
  frames := 1
  capturedFrames := 1
  timestamp := ⟨0⟩

/-- Its file is as long as the header, and each size is 48. -/
theorem not_isWav_oneFrame :
    ¬ IsWav (fileLeft ⟨2, 16, 44100, true⟩ [.start, .consumeChunk oneFrame]) [1, 2, 3, 4] :=
  fun h => absurd h.length (by decide)

end FileConsumer

end SlimStreamer
