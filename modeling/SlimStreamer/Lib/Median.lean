import Mathlib.Data.List.Basic
import Mathlib.Data.List.Count
import Mathlib.Order.Lattice

/-!
# Medians of lists

An element of a list is a median with respect to a value of its elements if at least half of them
have no greater value and at least half no smaller one.

* `IsMedian.of_perm` — the order of the list does not matter;
* `isMedian_of_sorted` — the element in the middle of a sorted list;
* `isMedian_of_length_le_two` — any element of a list of at most two.

Nothing here depends on what the elements are.
-/

namespace ListMedian

variable {α β : Type*} [LinearOrder β]

/-- An element with at least half of the values on either side of its own. -/
structure IsMedian (f : α → β) (l : List α) (x : α) : Prop where
  mem : x ∈ l
  below : l.length ≤ 2 * l.countP fun y => f y ≤ f x
  above : l.length ≤ 2 * l.countP fun y => f x ≤ f y

theorem IsMedian.of_perm {f : α → β} {l l' : List α} {x : α} (hperm : l.Perm l')
    (h : IsMedian f l x) : IsMedian f l' x where
  mem := hperm.mem_iff.mp h.mem
  below := by
    rw [← hperm.length_eq, ← hperm.countP_eq]
    exact h.below
  above := by
    rw [← hperm.length_eq, ← hperm.countP_eq]
    exact h.above

/-- In a sorted list the elements up to an index have no greater values. -/
theorem countP_le_of_sorted {f : α → β} {l : List α} (hs : l.Pairwise fun a b => f a ≤ f b) {i : ℕ}
    (hi : i < l.length) : i + 1 ≤ l.countP fun y => f y ≤ f l[i] := by
  induction l generalizing i with
  | nil => exact absurd hi (Nat.not_lt_zero i)
  | cons a l ih =>
    obtain ⟨hfirst, hrest⟩ := List.pairwise_cons.mp hs
    cases i with
    | zero => simp
    | succ i =>
      have hi' : i < l.length := Nat.lt_of_succ_lt_succ hi
      have ha : f a ≤ f l[i] := hfirst _ (List.getElem_mem hi')
      have hcount := ih hrest hi'
      simp only [List.getElem_cons_succ, List.countP_cons, ha, decide_true, if_true]
      omega

/-- In a sorted list the elements from an index on have no smaller values. -/
theorem countP_ge_of_sorted {f : α → β} {l : List α} (hs : l.Pairwise fun a b => f a ≤ f b) {i : ℕ}
    (hi : i < l.length) : l.length - i ≤ l.countP fun y => f l[i] ≤ f y := by
  induction l generalizing i with
  | nil => exact absurd hi (Nat.not_lt_zero i)
  | cons a l ih =>
    obtain ⟨hfirst, hrest⟩ := List.pairwise_cons.mp hs
    cases i with
    | zero =>
      have hall : (a :: l).countP (fun y => f a ≤ f y) = (a :: l).length := by
        rw [List.countP_eq_length]
        intro y hy
        cases List.mem_cons.mp hy with
        | inl heq => simp [heq]
        | inr hmem => exact decide_eq_true (hfirst y hmem)
      exact Nat.le_of_eq hall.symm
    | succ i =>
      have hi' : i < l.length := Nat.lt_of_succ_lt_succ hi
      have hcount := ih hrest hi'
      simp only [List.getElem_cons_succ, List.countP_cons, List.length_cons]
      omega

/-- **The middle of a sorted list** is a median. -/
theorem isMedian_of_sorted {f : α → β} {l : List α} (hs : l.Pairwise fun a b => f a ≤ f b)
    (h : l.length / 2 < l.length) : IsMedian f l l[l.length / 2] where
  mem := List.getElem_mem h
  below := by
    have hcount := countP_le_of_sorted hs h
    omega
  above := by
    have hcount := countP_ge_of_sorted hs h
    omega

theorem isMedian_of_length_le_two {f : α → β} {l : List α} {x : α} (hx : x ∈ l)
    (h : l.length ≤ 2) : IsMedian f l x where
  mem := hx
  below := by
    have hcount : 0 < l.countP fun y => f y ≤ f x := List.countP_pos_iff.mpr ⟨x, hx, by simp⟩
    omega
  above := by
    have hcount : 0 < l.countP fun y => f x ≤ f y := List.countP_pos_iff.mpr ⟨x, hx, by simp⟩
    omega

end ListMedian
