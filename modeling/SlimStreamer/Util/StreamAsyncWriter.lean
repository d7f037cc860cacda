import Mathlib.Data.List.Basic
import Mathlib.Data.UInt

/-!
# Writing to an output stream

`util::StreamAsyncWriter` over a file opened for writing: `rewind` is `seekp`, `write` writes
all it is given where the stream stands, over what is there and past its end, and `writeAsync`
does so before it returns.  The stream is one whose writes succeed.
-/

namespace SlimStreamer

structure StreamAsyncWriter where
  /-- What the file holds. -/
  content : List UInt8
  position : ℕ
  deriving DecidableEq

namespace StreamAsyncWriter

/-- A file that was just opened. -/
def opened : StreamAsyncWriter := ⟨[], 0⟩

def rewind (position : ℕ) (w : StreamAsyncWriter) : StreamAsyncWriter :=
  { w with position := position }

/-- `write(data, size)`; a gap that a seek past the end has left reads as zeros. -/
def write (data : List UInt8) (w : StreamAsyncWriter) : StreamAsyncWriter where
  content := w.content.take w.position ++ List.replicate (w.position - w.content.length) 0
    ++ data ++ w.content.drop (w.position + data.length)
  position := w.position + data.length

/-- `writeAsync`, with the size its callback is given. -/
def writeAsync (data : List UInt8) (w : StreamAsyncWriter) : StreamAsyncWriter × ℕ :=
  (w.write data, data.length)

theorem write_end {w : StreamAsyncWriter} (h : w.position = w.content.length)
    (data : List UInt8) : (w.write data).content = w.content ++ data := by
  simp only [write, h, List.take_length, Nat.sub_self, List.replicate_zero, List.append_nil]
  rw [List.drop_eq_nil_of_le (by omega), List.append_nil]

/-- **What is written from the beginning replaces as many octets, and no others.** -/
theorem rewind_write (data : List UInt8) (w : StreamAsyncWriter) :
    ((w.rewind 0).write data).content = data ++ w.content.drop data.length := by
  simp only [write, rewind, List.take_zero, Nat.zero_sub, List.replicate_zero, List.nil_append,
    Nat.zero_add]

example : (((opened.write [1, 2, 3, 4]).rewind 1).write [9, 9]).content = [1, 9, 9, 4] := by
  decide

end StreamAsyncWriter

end SlimStreamer
