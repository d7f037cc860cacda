import Mathlib.Data.Nat.ModEq
import Mathlib.Logic.Function.Basic
import Mathlib.Tactic.Common

/-!
# The real-time queue

`util::RealTimeQueue`: an array of slots whose number is a power of two, and two counters of 64
bits that wrap.  One slot always stays empty.  Both operations hand the slot to a `mover`, which
changes it in place and says whether the counter is to advance; what the mover and the handler
do besides is a state that is passed through.

The operations are run one after the other here.

* `contents` — the queued elements, in order;
* `dequeue_nil`, `dequeue_cons` — what `dequeue` does, by the contents;
* `enqueue_full`, `enqueue_contents` — what `enqueue` does.
-/

namespace SlimStreamer

structure RealTimeQueue (α : Type) where
  /-- The number of slots is this power of two. -/
  exponent : ℕ
  exponent_lt : exponent < 64
  slots : Fin (2 ^ exponent) → α
  head : BitVec 64
  tail : BitVec 64
  bounded : (head - tail).toNat < 2 ^ exponent

namespace RealTimeQueue

variable {α σ : Type}

/-! ### The model -/

def size (q : RealTimeQueue α) : ℕ := 2 ^ q.exponent

def mask (q : RealTimeQueue α) : BitVec 64 := BitVec.ofNat 64 q.size - 1

/-- The constructor; the initializer has been applied to the slots. -/
def create (exponent : ℕ) (exponent_lt : exponent < 64) (slot : α) : RealTimeQueue α where
  exponent := exponent
  exponent_lt := exponent_lt
  slots := fun _ => slot
  head := 0
  tail := 0
  bounded := Nat.two_pow_pos exponent

theorem size_lt (q : RealTimeQueue α) : q.size < 2 ^ 64 :=
  Nat.pow_lt_pow_right (by decide) q.exponent_lt

theorem size_pos (q : RealTimeQueue α) : 0 < q.size := Nat.two_pow_pos q.exponent

/-- Masking is the remainder by the size. -/
theorem and_mask (q : RealTimeQueue α) (x : BitVec 64) :
    (x &&& q.mask).toNat = x.toNat % q.size := by
  have hlt := q.size_lt
  have hpos := q.size_pos
  have hmask : q.mask.toNat = 2 ^ q.exponent - 1 := by
    rw [mask, BitVec.toNat_sub, BitVec.toNat_ofNat, Nat.mod_eq_of_lt hlt]
    show (2 ^ 64 - 1 + q.size) % 2 ^ 64 = q.size - 1
    omega
  rw [BitVec.toNat_and, hmask, Nat.and_two_pow_sub_one_eq_mod]
  rfl

/-- The slot a counter refers to. -/
def slotIndex (q : RealTimeQueue α) (counter : BitVec 64) : Fin (2 ^ q.exponent) :=
  ⟨(counter &&& q.mask).toNat, by
    rw [and_mask]
    exact Nat.mod_lt _ q.size_pos⟩

def count (q : RealTimeQueue α) : ℕ := (q.head - q.tail).toNat

/-- There is an element to dequeue. -/
def hasElement (q : RealTimeQueue α) : Bool := 1 ≤ ((q.head - q.tail) &&& q.mask).toNat

/-- There is a slot to enqueue into. -/
def hasSpace (q : RealTimeQueue α) : Bool := 1 ≤ ((q.tail - (q.head + 1)) &&& q.mask).toNat

theorem hasElement_iff (q : RealTimeQueue α) : q.hasElement = true ↔ 0 < q.count := by
  have hbounded : (q.head - q.tail).toNat < q.size := q.bounded
  rw [hasElement, decide_eq_true_iff, and_mask, Nat.mod_eq_of_lt hbounded]
  rfl

theorem toNat_succ_sub (a b : BitVec 64) : (a + 1 - b).toNat = ((a - b).toNat + 1) % 2 ^ 64 := by
  bv_omega

theorem toNat_sub_succ {a b : BitVec 64} (h : 0 < (a - b).toNat) :
    (a - (b + 1)).toNat = (a - b).toNat - 1 := by
  bv_omega

/-- The free slots between two counters, but for the one that stays empty. -/
theorem toNat_free (a b : BitVec 64) : (b - (a + 1)).toNat = 2 ^ 64 - 1 - (a - b).toNat := by
  bv_omega

theorem sub_mod_of_dvd {n m k : ℕ} (hdvd : n ∣ m) (hk : k < n) (hm : 0 < m) :
    (m - 1 - k) % n = n - 1 - k := by
  obtain ⟨j, rfl⟩ := hdvd
  cases j with
  | zero => omega
  | succ j =>
    have hsplit : n * (j + 1) - 1 - k = n - 1 - k + n * j := by
      rw [Nat.mul_succ]
      omega
    rw [hsplit, Nat.add_mul_mod_self_left, Nat.mod_eq_of_lt (by omega)]

theorem hasSpace_iff (q : RealTimeQueue α) :
    q.hasSpace = true ↔ q.count + 1 < 2 ^ q.exponent := by
  have hlt := q.size_lt
  have hbounded : q.count < q.size := q.bounded
  have hfree : (q.tail - (q.head + 1)).toNat = 2 ^ 64 - 1 - q.count := toNat_free q.head q.tail
  have hdvd : q.size ∣ 2 ^ 64 := Nat.pow_dvd_pow 2 q.exponent_lt.le
  rw [hasSpace, decide_eq_true_iff, and_mask, hfree, sub_mod_of_dvd hdvd hbounded (by decide)]
  show 1 ≤ q.size - 1 - q.count ↔ q.count + 1 < q.size
  omega

def setSlot (q : RealTimeQueue α) (i : Fin (2 ^ q.exponent)) (x : α) : RealTimeQueue α :=
  { q with slots := Function.update q.slots i x }

theorem hasElement_setSlot {q : RealTimeQueue α} (h : q.hasElement = true)
    (i : Fin (2 ^ q.exponent)) (x : α) : (q.setSlot i x).hasElement = true := h

theorem hasSpace_setSlot {q : RealTimeQueue α} (h : q.hasSpace = true)
    (i : Fin (2 ^ q.exponent)) (x : α) : (q.setSlot i x).hasSpace = true := h

/-- `_head.store(head + 1)`. -/
def advanceHead (q : RealTimeQueue α) (h : q.hasSpace = true) : RealTimeQueue α :=
  { q with
    head := q.head + 1
    bounded := by
      have hspace := q.hasSpace_iff.mp h
      have hlt : 2 ^ q.exponent < 2 ^ 64 := q.size_lt
      rw [toNat_succ_sub, Nat.mod_eq_of_lt]
      · exact hspace
      · exact lt_trans hspace hlt }

/-- `_tail.store(tail + 1)`. -/
def advanceTail (q : RealTimeQueue α) (h : q.hasElement = true) : RealTimeQueue α :=
  { q with
    tail := q.tail + 1
    bounded := by
      rw [toNat_sub_succ (q.hasElement_iff.mp h)]
      exact lt_of_le_of_lt (Nat.sub_le _ _) q.bounded }

def dequeue (mover : α → σ → Bool × α × σ) (underflowHandler : σ → σ) (q : RealTimeQueue α)
    (s : σ) : RealTimeQueue α × σ :=
  if h : q.hasElement = true then
    let moved := mover (q.slots (q.slotIndex q.tail)) s
    let written := q.setSlot (q.slotIndex q.tail) moved.2.1
    (if moved.1 then written.advanceTail (hasElement_setSlot h _ _) else written, moved.2.2)
  else (q, underflowHandler s)

def enqueue (mover : α → σ → Bool × α × σ) (overflowHandler : σ → σ) (q : RealTimeQueue α)
    (s : σ) : RealTimeQueue α × σ :=
  if h : q.hasSpace = true then
    let moved := mover (q.slots (q.slotIndex q.head)) s
    let written := q.setSlot (q.slotIndex q.head) moved.2.1
    (if moved.1 then written.advanceHead (hasSpace_setSlot h _ _) else written, moved.2.2)
  else (q, overflowHandler s)

/-! ### The queued elements -/

/-- The slot of the element with the given position. -/
def slotAt (q : RealTimeQueue α) (i : ℕ) : Fin (2 ^ q.exponent) :=
  q.slotIndex (q.tail + BitVec.ofNat 64 i)

/-- The queued elements, the oldest first. -/
def contents (q : RealTimeQueue α) : List α :=
  (List.range q.count).map fun i => q.slots (q.slotAt i)

theorem count_lt (q : RealTimeQueue α) : q.count < q.size := q.bounded

@[simp] theorem contents_length (q : RealTimeQueue α) : q.contents.length = q.count := by
  simp [contents]

theorem contents_create (exponent : ℕ) (exponent_lt : exponent < 64) (slot : α) :
    (create exponent exponent_lt slot).contents = [] := by
  rw [← List.length_eq_zero_iff, contents_length, count]
  show ((0 : BitVec 64) - 0).toNat = 0
  decide

theorem slotAt_val (q : RealTimeQueue α) (i : ℕ) :
    (q.slotAt i).val = (q.tail.toNat + i) % q.size := by
  have hdvd : q.size ∣ 2 ^ 64 := Nat.pow_dvd_pow 2 q.exponent_lt.le
  show ((q.tail + BitVec.ofNat 64 i) &&& q.mask).toNat = _
  rw [and_mask, BitVec.toNat_add, BitVec.toNat_ofNat, Nat.add_mod_mod, Nat.mod_mod_of_dvd _ hdvd]

/-- The slots in use are different. -/
theorem slotAt_injective (q : RealTimeQueue α) {i j : ℕ} (hi : i < q.size) (hj : j < q.size)
    (h : q.slotAt i = q.slotAt j) : i = j := by
  have hmod : q.tail.toNat + i ≡ q.tail.toNat + j [MOD q.size] := by
    have hval := congrArg Fin.val h
    rwa [slotAt_val, slotAt_val] at hval
  have hcancel := Nat.ModEq.add_left_cancel' _ hmod
  rwa [Nat.ModEq, Nat.mod_eq_of_lt hi, Nat.mod_eq_of_lt hj] at hcancel

theorem slotAt_zero (q : RealTimeQueue α) : q.slotAt 0 = q.slotIndex q.tail := by
  rw [slotAt]
  congr 1
  exact BitVec.add_zero q.tail

theorem slotAt_count (q : RealTimeQueue α) : q.slotAt q.count = q.slotIndex q.head := by
  have hsum : q.tail + BitVec.ofNat 64 (q.head - q.tail).toNat = q.head := by
    rw [BitVec.ofNat_toNat, BitVec.setWidth_eq, BitVec.add_comm, BitVec.sub_add_cancel]
  rw [slotAt, count, hsum]

/-- Writing to the slot after the last element does not change the elements. -/
theorem contents_setSlot_head (q : RealTimeQueue α) (x : α) :
    (q.setSlot (q.slotIndex q.head) x).contents = q.contents := by
  apply List.map_congr_left
  intro i hi
  have hlt := List.mem_range.mp hi
  have hlt : i < q.count := hlt
  show Function.update q.slots (q.slotIndex q.head) x (q.slotAt i) = q.slots (q.slotAt i)
  rw [Function.update_of_ne]
  intro heq
  rw [← slotAt_count] at heq
  have hcount := q.count_lt
  exact absurd (q.slotAt_injective (lt_trans hlt hcount) hcount heq) (ne_of_lt hlt)

theorem contents_setSlot_tail (q : RealTimeQueue α) {x : α} {rest : List α}
    (h : q.contents = x :: rest) (y : α) :
    (q.setSlot (q.slotIndex q.tail) y).contents = y :: rest := by
  have hcount : q.count = rest.length + 1 := by
    rw [← contents_length, h, List.length_cons]
  have hrest : rest = (List.range rest.length).map fun i => q.slots (q.slotAt (i + 1)) := by
    rw [contents, hcount, List.range_succ_eq_map, List.map_cons, List.map_map] at h
    exact (List.cons.inj h).2.symm
  show (List.range q.count).map
    (fun i => Function.update q.slots (q.slotIndex q.tail) y (q.slotAt i)) = y :: rest
  rw [hcount, List.range_succ_eq_map, List.map_cons, List.map_map, slotAt_zero,
    Function.update_self]
  congr 1
  conv_rhs => rw [hrest]
  apply List.map_congr_left
  intro i hi
  have hlt := List.mem_range.mp hi
  have hbound := q.count_lt
  show Function.update q.slots (q.slotIndex q.tail) y (q.slotAt (i + 1)) = _
  rw [Function.update_of_ne]
  intro heq
  rw [← slotAt_zero] at heq
  exact absurd (q.slotAt_injective (by omega) (by omega) heq) (Nat.succ_ne_zero i)

theorem contents_advanceHead (q : RealTimeQueue α) (h : q.hasSpace = true) :
    (q.advanceHead h).contents = q.contents ++ [q.slots (q.slotIndex q.head)] := by
  have hcount : (q.advanceHead h).count = q.count + 1 := by
    have hspace := q.hasSpace_iff.mp h
    have hlt : 2 ^ q.exponent < 2 ^ 64 := q.size_lt
    show (q.head + 1 - q.tail).toNat = _
    rw [toNat_succ_sub, Nat.mod_eq_of_lt]
    · rfl
    · exact lt_trans hspace hlt
  rw [contents, hcount, List.range_succ, List.map_append, ← slotAt_count]
  rfl

theorem contents_advanceTail (q : RealTimeQueue α) (h : q.hasElement = true) :
    (q.advanceTail h).contents = q.contents.tail := by
  have hpos := q.hasElement_iff.mp h
  have hcount : (q.advanceTail h).count = q.count - 1 := toNat_sub_succ hpos
  obtain ⟨n, hn⟩ : ∃ n, q.count = n + 1 := ⟨q.count - 1, by omega⟩
  rw [contents, contents, hcount, hn, Nat.add_sub_cancel, List.range_succ_eq_map, List.map_cons,
    List.tail_cons, List.map_map]
  apply List.map_congr_left
  intro i _
  have hindex : (q.advanceTail h).slotAt i = q.slotAt (i + 1) := by
    show q.slotIndex (q.tail + 1 + BitVec.ofNat 64 i) = q.slotIndex (q.tail + BitVec.ofNat 64 (i + 1))
    congr 1
    bv_omega
  show q.slots ((q.advanceTail h).slotAt i) = q.slots (q.slotAt (i + 1))
  rw [hindex]

/-- All slots, in use or not, have a property. -/
def EachSlot (P : α → Prop) (q : RealTimeQueue α) : Prop := ∀ i, P (q.slots i)

theorem EachSlot.setSlot {P : α → Prop} {q : RealTimeQueue α} (hq : q.EachSlot P)
    {i : Fin (2 ^ q.exponent)} {x : α} (hx : P x) : (q.setSlot i x).EachSlot P :=
  (Function.forall_update_iff _ (p := fun _ y => P y)).mpr ⟨hx, fun j _ => hq j⟩

/-! ### The operations -/

section Operations

variable (mover : α → σ → Bool × α × σ) (handler : σ → σ) (q : RealTimeQueue α) (s : σ)

theorem hasElement_contents : q.hasElement = true ↔ q.contents ≠ [] := by
  rw [hasElement_iff, ← contents_length, List.length_pos_iff]

theorem hasSpace_contents : q.hasSpace = true ↔ q.contents.length + 1 < 2 ^ q.exponent := by
  rw [hasSpace_iff, contents_length]

/-- The oldest element is in the slot of the tail. -/
theorem slots_tail {x : α} {rest : List α} (h : q.contents = x :: rest) :
    q.slots (q.slotIndex q.tail) = x := by
  have hcount : q.count = rest.length + 1 := by
    rw [← contents_length, h, List.length_cons]
  rw [contents, hcount, List.range_succ_eq_map, List.map_cons] at h
  rw [← slotAt_zero]
  exact (List.cons.inj h).1

theorem dequeue_nil (h : q.contents = []) : q.dequeue mover handler s = (q, handler s) := by
  rw [dequeue, dif_neg (fun he => q.hasElement_contents.mp he h)]

/-- **What `dequeue` does**: the mover gets the oldest element, which leaves the queue if the
mover says so. -/
theorem dequeue_cons {x : α} {rest : List α} (h : q.contents = x :: rest) :
    (q.dequeue mover handler s).2 = (mover x s).2.2 ∧
      (q.dequeue mover handler s).1.contents =
        if (mover x s).1 then rest else (mover x s).2.1 :: rest := by
  have he : q.hasElement = true := q.hasElement_contents.mpr (by rw [h]; exact List.cons_ne_nil _ _)
  have hwritten := q.contents_setSlot_tail h (mover x s).2.1
  rw [dequeue, dif_pos he]
  dsimp only
  rw [slots_tail q h]
  refine ⟨rfl, ?_⟩
  split
  · refine (contents_advanceTail _ _).trans ?_
    rw [hwritten]
    rfl
  · exact hwritten

/-- **What `enqueue` does when every slot but one is in use.** -/
theorem enqueue_full (h : q.contents.length + 1 = q.size) :
    q.enqueue mover handler s = (q, handler s) := by
  rw [contents_length] at h
  rw [enqueue, dif_neg (fun hs => absurd (q.hasSpace_iff.mp hs) (by
    show ¬ q.count + 1 < q.size
    omega))]

/-- **What `enqueue` does otherwise**: the mover gets a slot, which joins the queue if the mover
says so. -/
theorem enqueue_contents (h : q.contents.length + 1 ≠ q.size) :
    ∃ i, (q.enqueue mover handler s).2 = (mover (q.slots i) s).2.2 ∧
      (q.enqueue mover handler s).1.contents =
        if (mover (q.slots i) s).1 then q.contents ++ [(mover (q.slots i) s).2.1]
        else q.contents := by
  have hspace : q.hasSpace = true := by
    have hlt := q.count_lt
    rw [contents_length] at h
    refine q.hasSpace_iff.mpr ?_
    show q.count + 1 < q.size
    omega
  refine ⟨q.slotIndex q.head, ?_⟩
  have hwritten := q.contents_setSlot_head (mover (q.slots (q.slotIndex q.head)) s).2.1
  rw [enqueue, dif_pos hspace]
  refine ⟨rfl, ?_⟩
  dsimp only
  split
  · refine (contents_advanceHead _ _).trans ?_
    rw [hwritten]
    congr 2
    exact Function.update_self ..
  · exact hwritten

/-- What the mover keeps of every slot, `dequeue` and `enqueue` keep. -/
theorem eachSlot_dequeue {P : α → Prop} (hq : q.EachSlot P)
    (hmover : ∀ x, P x → P (mover x s).2.1) : (q.dequeue mover handler s).1.EachSlot P := by
  rw [dequeue]
  split
  · have hwritten := hq.setSlot (hmover _ (hq (q.slotIndex q.tail)))
      (i := q.slotIndex q.tail)
    dsimp only
    split <;> exact hwritten
  · exact hq

theorem eachSlot_enqueue {P : α → Prop} (hq : q.EachSlot P)
    (hmover : ∀ x, P x → P (mover x s).2.1) : (q.enqueue mover handler s).1.EachSlot P := by
  rw [enqueue]
  split
  · have hwritten := hq.setSlot (hmover _ (hq (q.slotIndex q.head)))
      (i := q.slotIndex q.head)
    dsimp only
    split <;> exact hwritten
  · exact hq

end Operations

end RealTimeQueue

end SlimStreamer
