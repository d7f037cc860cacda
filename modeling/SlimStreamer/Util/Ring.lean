import Mathlib.Data.List.Basic
import Mathlib.Data.List.Range
import Mathlib.Tactic.Common

/-!
# The ring buffer

`util::buffer::Ring`: a fixed array with a head position and a fill level.  Indices are
wrapped by one comparison and one subtraction (`normalizeIndex`), never by a division, so
the head has to stay inside the array; the structure carries that bound, and the bound on
the fill level, as fields.

* `Ring.contents` — the elements from the oldest to the newest;
* `contents_push` — pushing onto a full ring drops the oldest element, otherwise the new
  element is appended (`pushBounded`);
* `contents_pop`, `contents_clear` — the other two operations on contents.
-/

namespace SlimStreamer

/-- The reference operation for `push`: a queue bounded by `capacity` that drops its oldest
element when it is full. -/
def pushBounded {α : Type} (capacity : ℕ) (xs : List α) (x : α) : List α :=
  if xs.length < capacity then xs ++ [x]
  else if capacity = 0 then xs
  else xs.tail ++ [x]

structure Ring (α : Type) where
  storage : List α
  head : ℕ
  size : ℕ
  head_bound : head < storage.length ∨ head = 0
  size_bound : size ≤ storage.length

namespace Ring

variable {α : Type}

def getCapacity (r : Ring α) : ℕ := r.storage.length

def getSize (r : Ring α) : ℕ := r.size

def isEmpty (r : Ring α) : Bool := r.size == 0

def isFull (r : Ring α) : Bool := r.size == r.storage.length

def normalizeIndex (r : Ring α) (i : ℕ) : ℕ :=
  if i < r.storage.length then i else i - r.storage.length

/-- The index computation depends on the capacity alone. -/
theorem normalizeIndex_congr {r s : Ring α} (h : r.storage.length = s.storage.length) (i : ℕ) :
    r.normalizeIndex i = s.normalizeIndex i := by
  unfold normalizeIndex
  rw [h]

theorem normalizeIndex_lt (r : Ring α) {i : ℕ} (h : i < r.storage.length) :
    r.normalizeIndex (r.head + i) < r.storage.length := by
  have hb := r.head_bound
  unfold normalizeIndex
  split <;> omega

/-- Two offsets of one revolution denote different slots. -/
theorem normalizeIndex_ne (r : Ring α) {i j : ℕ} (hij : i < j) (hj : j < r.storage.length) :
    r.normalizeIndex (r.head + i) ≠ r.normalizeIndex (r.head + j) := by
  have hb := r.head_bound
  unfold normalizeIndex
  split <;> split <;> omega

theorem normalizeIndex_succ (r : Ring α) {i : ℕ} (h : i + 1 < r.storage.length) :
    r.normalizeIndex (r.normalizeIndex (r.head + 1) + i) =
      r.normalizeIndex (r.head + (i + 1)) := by
  have hb := r.head_bound
  unfold normalizeIndex
  split <;> split <;> split <;> omega

/-- `operator[]`. -/
def get [Inhabited α] (r : Ring α) (i : ℕ) : α :=
  r.storage.getD (r.normalizeIndex (r.head + i)) default

/-- An empty ring over the given storage, which the constructor leaves as it finds it. -/
def ofStorage (storage : List α) : Ring α where
  storage := storage
  head := 0
  size := 0
  head_bound := Or.inr rfl
  size_bound := Nat.zero_le _

def clear (r : Ring α) : Ring α where
  storage := r.storage
  head := r.head
  size := 0
  head_bound := r.head_bound
  size_bound := Nat.zero_le _

def pop (r : Ring α) : Ring α :=
  if h : r.size = 0 then r
  else
    { storage := r.storage
      head := r.normalizeIndex (r.head + 1)
      size := r.size - 1
      head_bound := by
        have hb := r.head_bound
        have hs := r.size_bound
        unfold normalizeIndex
        split <;> omega
      size_bound := by
        have hs := r.size_bound
        omega }

def push (r : Ring α) (item : α) : Ring α :=
  if hf : r.size = r.storage.length then
    -- guarding against cases when size is 0
    if he : r.size = 0 then r
    else
      { storage := r.storage.set
          (r.normalizeIndex (r.normalizeIndex (r.head + 1) + r.size - 1)) item
        head := r.normalizeIndex (r.head + 1)
        size := r.size
        head_bound := by
          have hb := r.head_bound
          rw [List.length_set]
          unfold normalizeIndex
          split <;> omega
        size_bound := by
          rw [List.length_set]
          exact r.size_bound }
  else
    { storage := r.storage.set (r.normalizeIndex (r.head + (r.size + 1) - 1)) item
      head := r.head
      size := r.size + 1
      head_bound := by
        rw [List.length_set]
        exact r.head_bound
      size_bound := by
        have hs := r.size_bound
        rw [List.length_set]
        omega }

/-- The elements from the oldest to the newest. -/
def contents [Inhabited α] (r : Ring α) : List α := (List.range r.size).map r.get

@[simp] theorem contents_length [Inhabited α] (r : Ring α) : r.contents.length = r.size := by
  simp [contents]

theorem getSize_eq [Inhabited α] (r : Ring α) : r.getSize = r.contents.length := by
  simp [getSize]

theorem contents_getElem [Inhabited α] (r : Ring α) {i : ℕ} (h : i < r.contents.length) :
    r.contents[i] = r.get i := by
  simp [contents]

@[simp] theorem contents_ofStorage [Inhabited α] (storage : List α) :
    (ofStorage storage).contents = [] := rfl

@[simp] theorem contents_clear [Inhabited α] (r : Ring α) : r.clear.contents = [] := rfl

@[simp] theorem storage_length_clear (r : Ring α) :
    r.clear.storage.length = r.storage.length := rfl

@[simp] theorem storage_length_pop (r : Ring α) :
    r.pop.storage.length = r.storage.length := by
  unfold pop
  split <;> rfl

@[simp] theorem storage_length_push (r : Ring α) (item : α) :
    (r.push item).storage.length = r.storage.length := by
  unfold push
  split
  · split
    · rfl
    · exact List.length_set
  · exact List.length_set

theorem contents_pop [Inhabited α] (r : Ring α) : r.pop.contents = r.contents.tail := by
  unfold pop
  split
  · rename_i h
    simp [contents, h]
  · rename_i h
    have hs := r.size_bound
    have hsize : r.size = (r.size - 1) + 1 := by omega
    have hrange : r.contents = (List.range ((r.size - 1) + 1)).map r.get := by
      rw [contents, ← hsize]
    rw [hrange, List.range_succ_eq_map, List.map_cons, List.tail_cons, List.map_map]
    refine List.map_congr_left fun i hi => ?_
    have hi : i < r.size - 1 := List.mem_range.mp hi
    show r.storage.getD (r.normalizeIndex (r.normalizeIndex (r.head + 1) + i)) default =
      r.storage.getD (r.normalizeIndex (r.head + (i + 1))) default
    rw [normalizeIndex_succ r (by omega)]

/-- Reading a ring whose storage had one slot rewritten. -/
theorem get_of_set [Inhabited α] {r s : Ring α} {k : ℕ} {item : α}
    (hs : s.storage = r.storage.set k item) (hk : k < r.storage.length) (i : ℕ) :
    s.get i = if r.normalizeIndex (s.head + i) = k then item
      else r.storage.getD (r.normalizeIndex (s.head + i)) default := by
  have hlen : s.storage.length = r.storage.length := by rw [hs, List.length_set]
  simp only [get, normalizeIndex_congr hlen, hs, List.getD_eq_getElem?_getD]
  rw [List.getElem?_set]
  by_cases hj : r.normalizeIndex (s.head + i) = k
  · rw [if_pos hj.symm, if_pos hk, if_pos hj, Option.getD_some]
  · rw [if_neg (Ne.symm hj), if_neg hj]

theorem push_of_lt (r : Ring α) (item : α) (h : r.size < r.storage.length) :
    (r.push item).storage = r.storage.set (r.normalizeIndex (r.head + r.size)) item ∧
      (r.push item).head = r.head ∧ (r.push item).size = r.size + 1 := by
  unfold push
  rw [dif_neg (by omega)]
  exact ⟨rfl, rfl, rfl⟩

theorem push_of_full (r : Ring α) (item : α) (hf : r.size = r.storage.length)
    (he : r.size ≠ 0) :
    (r.push item).storage =
        r.storage.set (r.normalizeIndex (r.normalizeIndex (r.head + 1) + r.size - 1)) item ∧
      (r.push item).head = r.normalizeIndex (r.head + 1) ∧ (r.push item).size = r.size := by
  unfold push
  rw [dif_pos hf, dif_neg he]
  exact ⟨rfl, rfl, rfl⟩

theorem contents_push_of_lt [Inhabited α] (r : Ring α) (item : α)
    (h : r.size < r.storage.length) : (r.push item).contents = r.contents ++ [item] := by
  obtain ⟨hstore, hhead, hsize⟩ := push_of_lt r item h
  have hget : ∀ i, (r.push item).get i =
      if r.normalizeIndex (r.head + i) = r.normalizeIndex (r.head + r.size) then item
      else r.get i := by
    intro i
    rw [get_of_set hstore (normalizeIndex_lt r h), hhead]
    rfl
  rw [contents, contents, hsize, List.range_succ, List.map_append, List.map_cons, List.map_nil]
  congr 1
  · refine List.map_congr_left fun i hi => ?_
    rw [hget, if_neg (normalizeIndex_ne r (List.mem_range.mp hi) h)]
  · rw [hget, if_pos rfl]

theorem contents_push_of_full [Inhabited α] (r : Ring α) (item : α)
    (hf : r.size = r.storage.length) (he : r.size ≠ 0) :
    (r.push item).contents = r.contents.tail ++ [item] := by
  obtain ⟨n, hn⟩ : ∃ n, r.size = n + 1 := ⟨r.size - 1, by omega⟩
  obtain ⟨hstore, hhead, hsize⟩ := push_of_full r item hf he
  have hb := r.head_bound
  rw [show r.normalizeIndex (r.head + 1) + r.size - 1 = r.normalizeIndex (r.head + 1) + n by
    omega] at hstore
  have hlast : r.normalizeIndex (r.normalizeIndex (r.head + 1) + n) < r.storage.length := by
    unfold normalizeIndex
    split <;> split <;> omega
  have hget : ∀ i, i ≤ n → (r.push item).get i = if i = n then item else r.get (i + 1) := by
    intro i hi
    rw [get_of_set hstore hlast, hhead]
    by_cases hin : i = n
    · rw [hin, if_pos rfl, if_pos rfl]
    · rw [if_neg hin, if_neg, get, normalizeIndex_succ r (by omega)]
      unfold normalizeIndex
      split <;> split <;> split <;> omega
  have htail : r.contents.tail = (List.range n).map (r.get ∘ Nat.succ) := by
    rw [contents, hn, List.range_succ_eq_map, List.map_cons, List.tail_cons, List.map_map]
  rw [htail, contents, hsize, hn, List.range_succ, List.map_append, List.map_cons, List.map_nil]
  congr 1
  · refine List.map_congr_left fun i hi => ?_
    have hi : i < n := List.mem_range.mp hi
    rw [hget i (by omega), if_neg (by omega)]
    rfl
  · rw [hget n le_rfl, if_pos rfl]

/-- **`push` on contents.** -/
theorem contents_push [Inhabited α] (r : Ring α) (item : α) :
    (r.push item).contents = pushBounded r.getCapacity r.contents item := by
  have hs := r.size_bound
  unfold pushBounded
  rw [contents_length]
  split
  · rename_i h
    exact contents_push_of_lt r item h
  · rename_i h
    have hfull : r.size = r.storage.length := le_antisymm hs (not_lt.mp h)
    split
    · rename_i h0
      have hzero : r.size = 0 := hfull.trans h0
      unfold push
      rw [dif_pos hfull, dif_pos hzero]
    · rename_i h0
      exact contents_push_of_full r item hfull (by rw [hfull]; exact h0)

/-- Popping `n` elements, as the loops over `pop` do. -/
def popN (r : Ring α) : ℕ → Ring α
  | 0 => r
  | n + 1 => r.pop.popN n

theorem contents_popN [Inhabited α] (n : ℕ) :
    ∀ r : Ring α, (r.popN n).contents = r.contents.drop n := by
  induction n with
  | zero => intro r; rfl
  | succ n ih =>
    intro r
    rw [popN, ih, contents_pop, List.drop_tail]

@[simp] theorem storage_length_popN (n : ℕ) :
    ∀ r : Ring α, (r.popN n).storage.length = r.storage.length := by
  induction n with
  | zero => intro r; rfl
  | succ n ih =>
    intro r
    rw [popN, ih, storage_length_pop]

/-- Pushing a block of elements, oldest first. -/
def pushAll (r : Ring α) (items : List α) : Ring α := items.foldl push r

@[simp] theorem storage_length_pushAll (items : List α) :
    ∀ r : Ring α, (r.pushAll items).storage.length = r.storage.length := by
  induction items with
  | nil => intro r; rfl
  | cons x xs ih =>
    intro r
    show ((r.push x).pushAll xs).storage.length = r.storage.length
    rw [ih, storage_length_push]

/-- A block that fits is appended and nothing is dropped. -/
theorem contents_pushAll [Inhabited α] (items : List α) :
    ∀ r : Ring α, r.size + items.length ≤ r.storage.length →
      (r.pushAll items).contents = r.contents ++ items := by
  induction items with
  | nil => intro r _; simp [pushAll]
  | cons x xs ih =>
    intro r h
    rw [List.length_cons] at h
    have hpush := contents_push_of_lt r x (by omega)
    have hsize : (r.push x).size = r.size + 1 := by
      rw [← contents_length, hpush, List.length_append, contents_length]
      rfl
    show ((r.push x).pushAll xs).contents = r.contents ++ x :: xs
    rw [ih (r.push x) (by rw [hsize, storage_length_push]; omega), hpush, List.append_assoc,
      List.singleton_append]

end Ring

end SlimStreamer
