import SlimStreamer.Lib.Octets
import Mathlib.Data.List.GetD
import Mathlib.Tactic.Common
import Mathlib.Tactic.Ring

/-!
# The FLAC encoder

`flac::Encoder`: the conversion of captured samples of 32 bits to the values that libFLAC is given.
The lowest octet of each sample is zeroed in the buffer, which is shared by all sessions, and the
samples are read one octet further; the last frame is copied to an array of its own, so that nothing
is read past the buffer.  The replies of libFLAC are an argument of `start`.

* `encode_values` — the values passed: the samples shifted right, without their sign;
* `encode_idempotent` — encoding the buffer once more passes the same values;
* `encode_shifts_iff` — when these are the samples shifted right with their sign.
-/

namespace SlimStreamer

namespace Flac

open Octets

/-- What the calls in `start` return; the last one is the text of a failure. -/
structure Replies where
  setVerify : Bool
  setCompressionLevel : Bool
  setStreamableSubset : Bool
  setChannels : Bool
  setSampleRate : Bool
  setBitsPerSample : Bool
  init : Option String

structure Encoder where
  channels : ℕ
  bitsPerSample : ℕ
  bitsPerValue : ℕ
  samplingRate : ℕ
  running : Bool
  downScale : Bool
  deriving DecidableEq

namespace Encoder

def create (channels bitsPerSample bitsPerValue samplingRate : ℕ) : Encoder :=
  ⟨channels, bitsPerSample, bitsPerValue, samplingRate, false, false⟩

/-- The text of the exception that the calls before the scaling end with, if they do. -/
def refused (r : Replies) (e : Encoder) : Option String :=
  if !r.setVerify then some "Could not disable FLAC stream verification"
  else if !r.setCompressionLevel then some "Could not set compression level"
  else if !r.setStreamableSubset then some "Could not select streamable subset"
  else if !r.setChannels then some "Could not set amount of channels"
  else if !r.setSampleRate then some "Could not set sampling rate"
  -- only 32 bit per sample for input PCM is supported
  else if e.bitsPerSample ≠ 32 then some "Format with 32 bits per sample is only supported"
  else none

/-- Starting ends with the text of an exception, or without one. -/
def start (r : Replies) (e : Encoder) : Option String × Encoder :=
  if e.running then (none, e)
  else
    match e.refused r with
    | some text => (some text, e)
    | none =>
      -- the scaling stays switched on when one of the last two calls fails
      let e := { e with downScale := e.downScale || decide (24 < e.bitsPerValue) }
      if !r.setBitsPerSample then (some "Could not set bits per sample", e)
      else
        match r.init with
        | some status => (some status, e)
        | none => (none, { e with running := true })

/-- The four octets at an index, read as `FLAC__int32` on a little-endian host. -/
def readWord (data : List UInt8) (i : ℕ) : BitVec 32 :=
  BitVec.ofNat 32 (littleEndian
    [data.getD i 0, data.getD (i + 1) 0, data.getD (i + 2) 0, data.getD (i + 3) 0])

/-- What a call of `process_interleaved` reads from a pointer. -/
def readValues (data : List UInt8) (offset count : ℕ) : List ℤ :=
  (List.range count).map fun k => (readWord data (offset + 4 * k)).toInt

/-- Zeroing the octets at the multiples of the sample size. -/
def zeroLowest (sampleSize : ℕ) (data : List UInt8) : List UInt8 :=
  data.mapIdx fun i octet => if i % sampleSize = 0 then 0 else octet

/-- The last frame, moved by one octet. -/
def lastFrame (frameSize : ℕ) (data : List UInt8) : List UInt8 :=
  (data.drop (data.length - frameSize)).drop 1 ++ [0]

/-- The values passed by each call of `process_interleaved`, and the buffer afterwards. -/
def encode (e : Encoder) (data : List UInt8) : List (List ℤ) × List UInt8 :=
  if e.running then
    let sampleSize := e.bitsPerSample / 8
    let frameSize := sampleSize * e.channels
    let frames := data.length / frameSize
    -- downscaling to 24 bits, which is the maximum supported by FLAC
    let data := if e.downScale then zeroLowest sampleSize data else data
    ((if 1 < frames then [readValues data 1 ((frames - 1) * e.channels)] else []) ++
      (if 0 < frames then [readValues (lastFrame frameSize data) 0 e.channels] else []), data)
  else ([], data)

/-! ### Starting -/

/-- An encoder that is ready for samples of 32 bits to be scaled down. -/
structure Ready (channels : ℕ) (e : Encoder) : Prop where
  running : e.running = true
  downScale : e.downScale = true
  bitsPerSample : e.bitsPerSample = 32
  channels_eq : e.channels = channels

theorem start_ready {r : Replies} {channels samplingRate : ℕ} {e : Encoder}
    (h : (create channels 32 32 samplingRate).start r = (none, e)) : e.Ready channels := by
  rw [start, show (create channels 32 32 samplingRate).running = false by rfl,
    if_neg Bool.false_ne_true] at h
  cases hrefused : (create channels 32 32 samplingRate).refused r with
  | some text =>
    rw [hrefused] at h
    cases h
  | none =>
    rw [hrefused] at h
    cases hbits : r.setBitsPerSample with
    | false => simp [hbits] at h
    | true =>
      cases hinit : r.init with
      | some status => simp [hbits, hinit] at h
      | none =>
        simp only [hbits, hinit] at h
        cases h
        exact ⟨rfl, rfl, rfl, rfl⟩

/-! ### The values -/

theorem getD_zeroLowest (sampleSize : ℕ) (data : List UInt8) (i : ℕ) :
    (zeroLowest sampleSize data).getD i 0 = if i % sampleSize = 0 then 0 else data.getD i 0 := by
  simp only [zeroLowest, List.getD_eq_getElem?_getD, List.getElem?_mapIdx]
  cases data[i]? with
  | none => simp
  | some octet => rfl

@[simp] theorem length_zeroLowest (sampleSize : ℕ) (data : List UInt8) :
    (zeroLowest sampleSize data).length = data.length := List.length_mapIdx

/-- Zeroing twice zeroes nothing more. -/
theorem zeroLowest_zeroLowest (sampleSize : ℕ) (data : List UInt8) :
    zeroLowest sampleSize (zeroLowest sampleSize data) = zeroLowest sampleSize data := by
  simp only [zeroLowest, List.mapIdx_mapIdx]
  congr 1
  funext i octet
  simp only [Function.comp]
  split <;> rfl

theorem getD_lastFrame {frameSize : ℕ} {data : List UInt8} (hpos : 0 < frameSize)
    (hle : frameSize ≤ data.length) (i : ℕ) :
    (lastFrame frameSize data).getD i 0 =
      if i + 1 < frameSize then data.getD (data.length - frameSize + (i + 1)) 0 else 0 := by
  have hlength : ((data.drop (data.length - frameSize)).drop 1).length = frameSize - 1 := by
    simp only [List.length_drop]
    omega
  simp only [lastFrame, List.getD_eq_getElem?_getD]
  split
  · rename_i hi
    rw [List.getElem?_append_left (by omega), List.getElem?_drop, List.getElem?_drop]
    congr 2
    omega
  · rename_i hi
    rw [List.getElem?_append_right (by omega), hlength]
    cases i - (frameSize - 1) with
    | zero => rfl
    | succ n => rfl

/-- A sample without its lowest octet. -/
def shifted (x : BitVec 32) : ℤ := (x.toNat / 256 : ℕ)

theorem toNat_readWord (data : List UInt8) (i : ℕ) :
    (readWord data i).toNat = (data.getD i 0).toNat + 256 * ((data.getD (i + 1) 0).toNat +
      256 * ((data.getD (i + 2) 0).toNat + 256 * (data.getD (i + 3) 0).toNat)) := by
  have h0 := (data.getD i 0).toNat_lt
  have h1 := (data.getD (i + 1) 0).toNat_lt
  have h2 := (data.getD (i + 2) 0).toNat_lt
  have h3 := (data.getD (i + 3) 0).toNat_lt
  rw [readWord, BitVec.toNat_ofNat]
  simp only [littleEndian]
  omega

/-- A word whose octets are the upper ones of a sample and a zero. -/
theorem readWord_shifted {data frame : List UInt8} {i j : ℕ}
    (h0 : frame.getD j 0 = data.getD (i + 1) 0) (h1 : frame.getD (j + 1) 0 = data.getD (i + 2) 0)
    (h2 : frame.getD (j + 2) 0 = data.getD (i + 3) 0) (h3 : frame.getD (j + 3) 0 = 0) :
    (readWord frame j).toInt = shifted (readWord data i) := by
  have hx := (data.getD i 0).toNat_lt
  have hx1 := (data.getD (i + 1) 0).toNat_lt
  have hx2 := (data.getD (i + 2) 0).toNat_lt
  have hx3 := (data.getD (i + 3) 0).toNat_lt
  have hframe := toNat_readWord frame j
  have hdata := toNat_readWord data i
  rw [h0, h1, h2, h3] at hframe
  rw [BitVec.toInt_eq_toNat_cond, shifted, hframe, hdata]
  simp only [UInt8.toNat_zero]
  split <;> omega

/-- The samples of a buffer. -/
def samples (data : List UInt8) : List (BitVec 32) :=
  (List.range (data.length / 4)).map fun k => readWord data (4 * k)

/-- What the first call reads: the samples but those of the last frame. -/
theorem readValues_zeroLowest (data : List UInt8) (count : ℕ) :
    readValues (zeroLowest 4 data) 1 count =
      (List.range count).map fun k => shifted (readWord data (4 * k)) := by
  refine List.map_congr_left fun k _ => ?_
  have hkept : ∀ i, i % 4 ≠ 0 → (zeroLowest 4 data).getD i 0 = data.getD i 0 := by
    intro i hi
    rw [getD_zeroLowest, if_neg hi]
  rw [Nat.add_comm 1]
  refine readWord_shifted (hkept _ (by omega)) (hkept _ (by omega)) (hkept _ (by omega)) ?_
  rw [getD_zeroLowest, if_pos (by omega)]

/-- What the second call reads: the samples of the last frame, which begins with sample `m`. -/
theorem readValues_lastFrame {data : List UInt8} {m channels : ℕ} (hpos : 0 < channels)
    (hlength : data.length = 4 * m + 4 * channels) :
    readValues (lastFrame (4 * channels) (zeroLowest 4 data)) 0 channels =
      (List.range channels).map fun k => shifted (readWord data (4 * (m + k))) := by
  refine List.map_congr_left fun k hk => ?_
  have hk : k < channels := List.mem_range.mp hk
  have hframe : ∀ i, (lastFrame (4 * channels) (zeroLowest 4 data)).getD i 0 =
      if i + 1 < 4 * channels then (zeroLowest 4 data).getD (4 * m + (i + 1)) 0 else 0 := by
    intro i
    rw [getD_lastFrame (by omega) (by rw [length_zeroLowest]; omega), length_zeroLowest,
      show data.length - 4 * channels = 4 * m by omega]
  have hkept : ∀ i, i + 1 < 4 * channels → (i + 1) % 4 ≠ 0 →
      (lastFrame (4 * channels) (zeroLowest 4 data)).getD i 0 = data.getD (4 * m + (i + 1)) 0 := by
    intro i hi hmod
    rw [hframe, if_pos hi, getD_zeroLowest, if_neg (by omega)]
  rw [Nat.zero_add, Nat.mul_add]
  refine readWord_shifted (hkept _ (by omega) (by omega)) (hkept _ (by omega) (by omega))
    (hkept _ (by omega) (by omega)) ?_
  rw [hframe]
  split
  · rw [getD_zeroLowest, if_pos (by omega)]
  · rfl

/-- **The values passed** are all samples in their order, shifted right without their sign, and the
buffer keeps all but the lowest octets. -/
theorem encode_values {e : Encoder} {channels n : ℕ} (he : e.Ready channels) (hpos : 0 < channels)
    {data : List UInt8} (hdata : data.length = n * (4 * channels)) :
    (e.encode data).1.flatten = (samples data).map shifted ∧
      (e.encode data).2 = zeroLowest 4 data := by
  have hframes : data.length / (4 * channels) = n := by
    rw [hdata]
    exact Nat.mul_div_cancel n (by omega)
  simp only [encode, he.running, he.downScale, he.bitsPerSample, he.channels_eq, if_true]
  refine ⟨?_, trivial⟩
  rw [hframes]
  cases n with
  | zero =>
    rw [Nat.zero_mul] at hdata
    simp [samples, hdata]
  | succ n =>
    have hlength : data.length = 4 * (n * channels) + 4 * channels := by
      rw [hdata]
      ring
    have hsamples : data.length / 4 = n * channels + channels := by omega
    have hfirst : (if 1 < n + 1 then [readValues (zeroLowest 4 data) 1 (n * channels)]
        else []).flatten = (List.range (n * channels)).map
          fun k => shifted (readWord data (4 * k)) := by
      split
      · rw [List.flatten_singleton, readValues_zeroLowest]
      · rename_i hone
        have hzero : n = 0 := by omega
        rw [hzero, Nat.zero_mul]
        rfl
    rw [if_pos (Nat.succ_pos n), List.flatten_append, List.flatten_singleton,
      Nat.add_sub_cancel, hfirst, readValues_lastFrame hpos hlength, samples, hsamples,
      List.range_add, List.map_map, List.map_append, List.map_map]
    rfl

/-- **Encoding once more**, by any session: the buffer that was encoded has the same samples but for
their lowest octets, and these are zeroed again. -/
theorem encode_idempotent {e e' : Encoder} {channels : ℕ} (he : e.Ready channels)
    (he' : e'.Ready channels) (data : List UInt8) :
    e'.encode (e.encode data).2 = e.encode data := by
  simp only [encode, he.running, he.downScale, he.bitsPerSample, he.channels_eq, he'.running,
    he'.downScale, he'.bitsPerSample, he'.channels_eq, if_true, zeroLowest_zeroLowest,
    length_zeroLowest]

/-! ### The sign -/

/-- Shifting with the sign and without it differ for negative samples, and only for these. -/
theorem sshiftRight_eq_shifted_iff (x : BitVec 32) :
    shifted x = (x.sshiftRight 8).toInt ↔ 0 ≤ x.toInt := by
  have hx := x.isLt
  rw [BitVec.toInt_sshiftRight, Int.shiftRight_eq_div_pow, BitVec.toInt_eq_toNat_cond, shifted]
  split
  · exact iff_of_true (by omega) (by omega)
  · exact iff_of_false (by omega) (by omega)

theorem shifted_bounds {x : BitVec 32} (h : 0 ≤ x.toInt) : 0 ≤ shifted x ∧ shifted x < 2 ^ 23 := by
  have hx := x.isLt
  rw [BitVec.toInt_eq_toNat_cond] at h
  rw [shifted]
  split at h
  · constructor <;> omega
  · omega

/-- **The values are signed values of 24 bits** exactly when no sample is negative: as many as there
are samples, each the sample shifted right with its sign, and the same ones when another session
encodes the buffer again. -/
theorem encode_shifts_iff {channels n samplingRate samplingRate' : ℕ} {r r' : Replies}
    {e e' : Encoder} (hpos : 0 < channels)
    (he : (create channels 32 32 samplingRate).start r = (none, e))
    (he' : (create channels 32 32 samplingRate').start r' = (none, e'))
    {data : List UInt8} (hdata : data.length = n * (4 * channels)) :
    ((e.encode data).1.flatten.length = n * channels ∧
      (e.encode data).1.flatten = (samples data).map (fun x => (x.sshiftRight 8).toInt) ∧
      (∀ v ∈ (e.encode data).1.flatten, -2 ^ 23 ≤ v ∧ v < 2 ^ 23) ∧
      (e'.encode (e.encode data).2).1.flatten = (e.encode data).1.flatten) ↔
    ∀ x ∈ samples data, 0 ≤ x.toInt := by
  have hready := start_ready he
  obtain ⟨hvalues, _⟩ := encode_values hready hpos hdata
  rw [encode_idempotent hready (start_ready he'), hvalues, List.map_inj_left]
  constructor
  · rintro ⟨_, hshift, _, _⟩ x hx
    exact (sshiftRight_eq_shifted_iff x).mp (hshift x hx)
  · intro hsign
    refine ⟨?_, fun x hx => (sshiftRight_eq_shifted_iff x).mpr (hsign x hx), ?_, rfl⟩
    · have hcount : data.length / 4 = n * channels := by
        rw [hdata, Nat.mul_left_comm]
        omega
      rw [List.length_map, samples, List.length_map, List.length_range, hcount]
    · intro v hv
      obtain ⟨x, hx, rfl⟩ := List.mem_map.mp hv
      have hbounds := shifted_bounds (hsign x hx)
      omega

/-- libFLAC accepts everything. -/
def accepting : Replies := ⟨true, true, true, true, true, true, none⟩

/-- A started encoder for one channel. -/
def mono : Encoder := ((create 1 32 32 44100).start accepting).2

theorem mono_started : (create 1 32 32 44100).start accepting = (none, mono) := rfl

/-- Two frames, the second with the sample `-1`. -/
def minusOne : List UInt8 := [0x00, 0x01, 0x00, 0x00, 0xFF, 0xFF, 0xFF, 0xFF]

theorem minusOne_shifts_iff :
    ((mono.encode minusOne).1.flatten.length = 2 * 1 ∧
      (mono.encode minusOne).1.flatten =
        (samples minusOne).map (fun x => (x.sshiftRight 8).toInt) ∧
      (∀ v ∈ (mono.encode minusOne).1.flatten, -2 ^ 23 ≤ v ∧ v < 2 ^ 23) ∧
      (mono.encode (mono.encode minusOne).2).1.flatten = (mono.encode minusOne).1.flatten) ↔
    ∀ x ∈ samples minusOne, 0 ≤ x.toInt :=
  encode_shifts_iff Nat.one_pos mono_started mono_started rfl

/-- **The sign is lost**: for `-1` the encoder passes `16777215`. -/
theorem minusOne_sign_lost :
    (create 1 32 32 44100).start accepting = (none, mono) ∧ minusOne.length = 2 * (4 * 1) ∧
      (mono.encode minusOne).1 = [[1], [16777215]] ∧
      (samples minusOne).map (fun x => (x.sshiftRight 8).toInt) = [1, -1] ∧
      ¬ ∀ v ∈ (mono.encode minusOne).1.flatten, -2 ^ 23 ≤ v ∧ v < 2 ^ 23 := by
  decide

end Encoder

end Flac

end SlimStreamer
