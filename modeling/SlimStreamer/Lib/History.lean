import Mathlib.Data.List.Basic

/-!
# What happened before

Properties of a log that say what has to come before an entry.

* `Justified` — each entry is justified by the entries before it; `justified_append`;
* `since` — the entries after the last one of a kind; `since_append`, `since_eq_some`.

Nothing here depends on what the entries are.
-/

namespace History

variable {α : Type*}

/-! ### Justified entries -/

/-- Each entry is justified by the entries before it. -/
def Justified (P : List α → α → Prop) (l : List α) : Prop :=
  ∀ before x after, l = before ++ x :: after → P before x

theorem justified_nil (P : List α → α → Prop) : Justified P [] := by
  intro before x after h
  simp at h

/-- A longer log is justified if its new entries are. -/
theorem justified_append {P : List α → α → Prop} {l m : List α} :
    Justified P (l ++ m) ↔ Justified P l ∧ Justified (fun before x => P (l ++ before) x) m := by
  constructor
  · intro h
    refine ⟨fun before x after heq => h before x (after ++ m) ?_,
      fun before x after heq => h (l ++ before) x after ?_⟩
    · rw [heq, List.append_assoc, List.cons_append]
    · rw [heq, List.append_assoc]
  · rintro ⟨hl, hm⟩ before x after heq
    rcases List.append_eq_append_iff.mp heq with ⟨a, rfl, ha⟩ | ⟨b, rfl, hb⟩
    · exact hm a x after ha
    · cases b with
      | nil =>
        simpa using hm [] x after (by simpa using hb.symm)
      | cons y b =>
        obtain ⟨rfl, _⟩ := List.cons.inj hb
        exact hl before x b rfl

theorem justified_singleton {P : List α → α → Prop} {x : α} : Justified P [x] ↔ P [] x := by
  constructor
  · intro h
    exact h [] x [] rfl
  · intro h before y after heq
    cases before with
    | nil =>
      obtain ⟨rfl, _⟩ := List.cons.inj heq
      exact h
    | cons z before => simp at heq

/-! ### Since the last entry of a kind -/

/-- The entries after the last one of a kind, if there is one. -/
def since (p : α → Bool) : List α → Option (List α)
  | [] => none
  | x :: l => (since p l).or (if p x then some l else none)

@[simp] theorem since_nil (p : α → Bool) : since p [] = none := rfl

theorem since_eq_none {p : α → Bool} {l : List α} : since p l = none ↔ ∀ x ∈ l, p x = false := by
  induction l with
  | nil => simp
  | cons x l ih =>
    rw [since, Option.or_eq_none_iff, ih]
    simp [and_comm]

/-- **What `since` finds.** -/
theorem since_eq_some {p : α → Bool} {l b : List α} :
    since p l = some b ↔ ∃ a x, l = a ++ x :: b ∧ p x = true ∧ ∀ y ∈ b, p y = false := by
  induction l with
  | nil => simp
  | cons y l ih =>
    rw [since]
    cases h : since p l with
    | some c =>
      rw [Option.some_or, ← h, ih]
      constructor
      · rintro ⟨a, x, rfl, hx, hb⟩
        exact ⟨y :: a, x, rfl, hx, hb⟩
      · rintro ⟨a, x, heq, hx, hb⟩
        cases a with
        | nil =>
          obtain ⟨rfl, rfl⟩ := List.cons.inj heq
          rw [since_eq_none.mpr hb] at h
          cases h
        | cons z a =>
          obtain ⟨rfl, rfl⟩ := List.cons.inj heq
          exact ⟨a, x, rfl, hx, hb⟩
    | none =>
      have hnone := since_eq_none.mp h
      rw [Option.none_or]
      constructor
      · intro hy
        split at hy
        · rename_i hpy
          obtain rfl := Option.some.inj hy
          exact ⟨[], y, rfl, hpy, hnone⟩
        · cases hy
      · rintro ⟨a, x, heq, hx, hb⟩
        cases a with
        | nil =>
          obtain ⟨rfl, rfl⟩ := List.cons.inj heq
          rw [if_pos hx]
        | cons z a =>
          obtain ⟨rfl, rfl⟩ := List.cons.inj heq
          have hpx := hnone x (by simp)
          rw [hx] at hpx
          cases hpx

/-- A new entry of the kind starts over. -/
theorem since_concat {p : α → Bool} (l : List α) {x : α} (hx : p x = true) :
    since p (l ++ [x]) = some [] :=
  since_eq_some.mpr ⟨l, x, rfl, hx, List.forall_mem_nil _⟩

/-- Other entries are added to those since the last one. -/
theorem since_append {p : α → Bool} (l : List α) {m : List α} (hm : ∀ x ∈ m, p x = false) :
    since p (l ++ m) = (since p l).map (· ++ m) := by
  cases h : since p l with
  | some b =>
    obtain ⟨a, x, rfl, hx, hb⟩ := since_eq_some.mp h
    rw [Option.map_some, since_eq_some]
    refine ⟨a, x, by simp, hx, fun y hy => ?_⟩
    rcases List.mem_append.mp hy with hy | hy
    · exact hb y hy
    · exact hm y hy
  | none =>
    rw [Option.map_none, since_eq_none]
    intro y hy
    rcases List.mem_append.mp hy with hy | hy
    · exact since_eq_none.mp h y hy
    · exact hm y hy

/-- After an entry of the kind there is a last one, and it is not earlier. -/
theorem since_of_mem {p : α → Bool} (a : List α) {x : α} (hx : p x = true) (b : List α) :
    ∃ c, since p (a ++ x :: b) = some c ∧ ∀ y ∈ c, y ∈ b := by
  cases h : since p b with
  | some c =>
    obtain ⟨d, y, rfl, hy, hc⟩ := since_eq_some.mp h
    refine ⟨c, since_eq_some.mpr ⟨a ++ x :: d, y, by simp, hy, hc⟩, fun z hz => ?_⟩
    exact List.mem_append_right d (List.mem_cons_of_mem y hz)
  | none => exact ⟨b, since_eq_some.mpr ⟨a, x, rfl, hx, since_eq_none.mp h⟩, fun y hy => hy⟩

end History
