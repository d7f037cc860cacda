import Mathlib.Data.List.Basic
import Mathlib.Data.List.Count
import Mathlib.Data.List.Range

/-!
# A pool of buffers

`util::buffer::BufferPool`: a fixed number of buffers of one size, each with a flag that says
whether it is free.  `allocate` takes the first free one; the handle it returns gives the
buffer back when it is destroyed, which is `release` here.  A handle is the index of its
buffer, and the size of the buffers is part of the type.

* `allocate_eq_none`, `allocate_spec` — what an allocation finds, and all that it changes;
* `release_spec` — what giving a buffer back changes.
-/

namespace SlimStreamer

structure BufferWrapper (α : Type*) (bufferSize : ℕ) where
  buffer : { data : List α // data.length = bufferSize }
  free : Bool

structure BufferPool (α : Type*) (bufferSize : ℕ) where
  wrappers : List (BufferWrapper α bufferSize)

namespace BufferPool

variable {α : Type*} {bufferSize : ℕ}

/-- All buffers are free; `initial` stands for what their memory holds. -/
def create (poolSize bufferSize : ℕ) (initial : α) : BufferPool α bufferSize where
  wrappers := List.replicate poolSize ⟨⟨List.replicate bufferSize initial, List.length_replicate⟩, true⟩

def getSize (p : BufferPool α bufferSize) : ℕ := p.wrappers.length

def getAvailableSize (p : BufferPool α bufferSize) : ℕ := p.wrappers.countP fun w => w.free

def setFree (index : ℕ) (free : Bool) (p : BufferPool α bufferSize) : BufferPool α bufferSize :=
  ⟨p.wrappers.modify index fun w => { w with free := free }⟩

/-- The first free buffer, which is not free any longer. -/
def allocate (p : BufferPool α bufferSize) : Option ℕ × BufferPool α bufferSize :=
  match p.wrappers.findIdx? fun w => w.free with
  | none => (none, p)
  | some index => (some index, p.setFree index false)

/-- The handle of a buffer is destroyed. -/
def release (index : ℕ) (p : BufferPool α bufferSize) : BufferPool α bufferSize :=
  p.setFree index true

/-- The memory of a buffer. -/
def getData (p : BufferPool α bufferSize) (index : ℕ) : List α :=
  (p.wrappers[index]?).elim [] fun w => w.buffer.1

/-- Copying to the beginning of a buffer, which cannot write past its end. -/
def copy (index : ℕ) (data : { data : List α // data.length ≤ bufferSize })
    (p : BufferPool α bufferSize) : BufferPool α bufferSize :=
  ⟨p.wrappers.modify index fun w =>
    { w with buffer := ⟨data.1 ++ w.buffer.1.drop data.1.length, by
        rw [List.length_append, List.length_drop, w.buffer.2]
        have h := data.2
        omega⟩ }⟩

/-- There is such a buffer, and it is handed out. -/
def inUse (p : BufferPool α bufferSize) (index : ℕ) : Bool :=
  (p.wrappers[index]?).any fun w => !w.free

theorem length_getData {p : BufferPool α bufferSize} {index : ℕ} (h : p.inUse index = true) :
    (p.getData index).length = bufferSize := by
  rw [inUse] at h
  rw [getData]
  cases hget : p.wrappers[index]? with
  | none =>
    rw [hget] at h
    cases h
  | some w => exact w.buffer.2

theorem lt_of_inUse {p : BufferPool α bufferSize} {index : ℕ} (h : p.inUse index = true) :
    index < p.getSize := by
  by_contra hout
  rw [inUse, List.getElem?_eq_none (not_lt.mp hout)] at h
  cases h

/-! ### The flags -/

theorem setFree_inUse (p : BufferPool α bufferSize) (index : ℕ) (free : Bool) (i : ℕ) :
    (p.setFree index free).inUse i =
      if index = i then decide (i < p.getSize) && !free else p.inUse i := by
  show (((p.wrappers.modify index _)[i]?).any fun w => !w.free) = _
  rw [List.getElem?_modify]
  by_cases h : index = i
  · subst h
    rw [if_pos rfl]
    by_cases hi : index < p.wrappers.length
    · rw [List.getElem?_eq_getElem hi, getSize, decide_eq_true hi]
      simp
    · rw [List.getElem?_eq_none (not_lt.mp hi), getSize, decide_eq_false hi]
      rfl
  · rw [if_neg h, inUse]
    cases p.wrappers[i]? with
    | none => rfl
    | some w => simp [h]

theorem setFree_getData (p : BufferPool α bufferSize) (index : ℕ) (free : Bool) (i : ℕ) :
    (p.setFree index free).getData i = p.getData i := by
  show ((p.wrappers.modify index _)[i]?).elim [] _ = _
  rw [List.getElem?_modify, getData]
  cases p.wrappers[i]? with
  | none => rfl
  | some w =>
    show (if index = i then (_ : BufferWrapper α bufferSize) else w).buffer.1 = w.buffer.1
    split <;> rfl

@[simp] theorem getSize_setFree (p : BufferPool α bufferSize) (index : ℕ) (free : Bool) :
    (p.setFree index free).getSize = p.getSize :=
  List.length_modify _ _ _

/-- Changing one wrapper changes the count by what that wrapper counts. -/
theorem countP_modify {β : Type*} (q : β → Bool) (f : β → β) (l : List β) {i : ℕ} {b : β}
    (h : l[i]? = some b) :
    (l.modify i f).countP q + (if q b then 1 else 0) =
      l.countP q + (if q (f b) then 1 else 0) := by
  induction l generalizing i with
  | nil => cases h
  | cons c l ih =>
    cases i with
    | zero =>
      rw [List.getElem?_cons_zero, Option.some.injEq] at h
      subst h
      rw [List.modify_zero_cons, List.countP_cons, List.countP_cons]
      omega
    | succ i =>
      rw [List.getElem?_cons_succ] at h
      have hrest := ih h
      rw [List.modify_succ_cons, List.countP_cons, List.countP_cons]
      omega

@[simp] theorem getAvailableSize_create (poolSize bufferSize : ℕ) (initial : α) :
    (create poolSize bufferSize initial).getAvailableSize = poolSize := by
  simp [create, getAvailableSize, List.countP_replicate]

/-! ### Allocating -/

theorem allocate_eq_none {p : BufferPool α bufferSize} (h : p.getAvailableSize = 0) :
    p.allocate = (none, p) := by
  have hnone : p.wrappers.findIdx? (fun w => w.free) = none := by
    rw [List.findIdx?_eq_none_iff]
    intro w hw
    exact Bool.eq_false_iff.mpr (List.countP_eq_zero.mp h w hw)
  rw [allocate, hnone]

/-- **An allocation** hands out a buffer that was free, and changes nothing but its flag. -/
theorem allocate_spec {p : BufferPool α bufferSize} (h : 0 < p.getAvailableSize) :
    ∃ index, p.allocate = (some index, p.setFree index false) ∧ index < p.getSize ∧
      p.inUse index = false ∧
      (p.setFree index false).getAvailableSize + 1 = p.getAvailableSize := by
  obtain ⟨w, hw, hfree⟩ := List.countP_pos_iff.mp h
  cases hf : p.wrappers.findIdx? (fun w => w.free) with
  | none =>
    rw [List.findIdx?_eq_none_iff] at hf
    rw [hf w hw] at hfree
    cases hfree
  | some index =>
    obtain ⟨hlt, hfound, _⟩ := List.findIdx?_eq_some_iff_getElem.mp hf
    have hget : p.wrappers[index]? = some p.wrappers[index] := List.getElem?_eq_getElem hlt
    refine ⟨index, by rw [allocate, hf], hlt, ?_, ?_⟩
    · rw [inUse, hget]
      show (!p.wrappers[index].free) = false
      rw [hfound]
      rfl
    · have hcount := countP_modify (fun w : BufferWrapper α bufferSize => w.free)
        (fun w => { w with free := false }) p.wrappers hget
      rw [if_pos hfound, if_neg Bool.false_ne_true] at hcount
      exact hcount

/-- **Giving a buffer back** that was handed out makes one more available. -/
theorem release_spec {p : BufferPool α bufferSize} {index : ℕ} (h : p.inUse index = true) :
    (p.release index).getAvailableSize = p.getAvailableSize + 1 := by
  rw [inUse] at h
  cases hget : p.wrappers[index]? with
  | none =>
    rw [hget] at h
    cases h
  | some w =>
    rw [hget] at h
    have hused : w.free = false := by simpa using h
    have hcount := countP_modify (fun w : BufferWrapper α bufferSize => w.free)
      (fun w => { w with free := true }) p.wrappers hget
    rw [if_neg (by rw [hused]; exact Bool.false_ne_true), if_pos rfl] at hcount
    exact hcount

/-! ### Copying -/

theorem copy_inUse (p : BufferPool α bufferSize) (index : ℕ)
    (data : { data : List α // data.length ≤ bufferSize }) (i : ℕ) :
    (p.copy index data).inUse i = p.inUse i := by
  show (((p.wrappers.modify index _)[i]?).any fun w => !w.free) = _
  rw [List.getElem?_modify, inUse]
  cases p.wrappers[i]? with
  | none => rfl
  | some w =>
    show (!(if index = i then (_ : BufferWrapper α bufferSize) else w).free) = !w.free
    split <;> rfl

theorem copy_getAvailableSize (p : BufferPool α bufferSize) (index : ℕ)
    (data : { data : List α // data.length ≤ bufferSize }) :
    (p.copy index data).getAvailableSize = p.getAvailableSize := by
  show (p.wrappers.modify index _).countP _ = _
  cases hget : p.wrappers[index]? with
  | none => rw [List.modify_eq_self (List.getElem?_eq_none_iff.mp hget), getAvailableSize]
  | some w =>
    have hcount := countP_modify (fun w : BufferWrapper α bufferSize => w.free)
      (fun w => { w with buffer := ⟨data.1 ++ w.buffer.1.drop data.1.length, by
        rw [List.length_append, List.length_drop, w.buffer.2]
        have h := data.2
        omega⟩ }) p.wrappers hget
    exact Nat.add_right_cancel hcount

theorem copy_getData_ne (p : BufferPool α bufferSize) {index i : ℕ} (h : index ≠ i)
    (data : { data : List α // data.length ≤ bufferSize }) :
    (p.copy index data).getData i = p.getData i := by
  show ((p.wrappers.modify index _)[i]?).elim [] _ = _
  rw [List.getElem?_modify_ne _ _ h, getData]

/-- What was copied can be read. -/
theorem copy_getData_take (p : BufferPool α bufferSize) {index : ℕ} (h : index < p.getSize)
    (data : { data : List α // data.length ≤ bufferSize }) :
    ((p.copy index data).getData index).take data.1.length = data.1 := by
  show (((p.wrappers.modify index _)[index]?).elim [] _).take _ = _
  rw [List.getElem?_modify_eq, List.getElem?_eq_getElem h]
  exact List.take_left

end BufferPool

end SlimStreamer
