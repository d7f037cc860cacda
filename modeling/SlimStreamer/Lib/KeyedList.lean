import Mathlib.Data.List.Nodup

/-!
# Lists of records with a key

A table as a list whose records have pairwise different keys: finding, changing and removing
the record of a key.

* `find_eq_some` — what is found;
* `alter_split`, `discard_split` — the only record that is changed or removed;
* `countP_alter`, `countP_discard` — how a count changes.

Nothing here depends on what the records are.
-/

namespace KeyedList

variable {α κ : Type*} (key : α → κ)

/-! ### Distinct keys -/

/-- No two records share a key. -/
def Distinct (l : List α) : Prop := (l.map key).Nodup

variable {key}

theorem Distinct.eq_of_key {l : List α} (h : Distinct key l) {a b : α} (ha : a ∈ l) (hb : b ∈ l)
    (hkey : key a = key b) : a = b :=
  List.inj_on_of_nodup_map h ha hb hkey

/-- The record of a key and the records of other keys on both sides of it. -/
theorem Distinct.split {l : List α} (h : Distinct key l) {a : α} (ha : a ∈ l) :
    ∃ before after, l = before ++ a :: after ∧ (∀ b ∈ before, key b ≠ key a) ∧
      ∀ b ∈ after, key b ≠ key a := by
  obtain ⟨before, after, rfl⟩ := List.append_of_mem ha
  rw [Distinct, List.map_append, List.map_cons, List.nodup_append] at h
  obtain ⟨-, hafter, hdisjoint⟩ := h
  refine ⟨before, after, rfl, ?_, ?_⟩
  · intro b hb
    exact hdisjoint _ (List.mem_map_of_mem hb) _ List.mem_cons_self
  · intro b hb hkey
    exact (List.nodup_cons.mp hafter).1 (List.mem_map.mpr ⟨b, hb, hkey⟩)

/-- Appending a record with a new key. -/
theorem Distinct.concat {l : List α} (h : Distinct key l) {a : α} (ha : ∀ b ∈ l, key b ≠ key a) :
    Distinct key (l ++ [a]) := by
  rw [Distinct, List.map_append, List.map_singleton, List.nodup_append]
  refine ⟨h, List.nodup_singleton _, ?_⟩
  intro k hk k' hk'
  obtain ⟨b, hb, rfl⟩ := List.mem_map.mp hk
  rw [List.mem_singleton.mp hk']
  exact ha b hb

/-! ### The operations -/

variable (key) [DecidableEq κ]

def find (k : κ) (l : List α) : Option α := l.find? fun a => key a = k

/-- Changing the record of a key in place. -/
def alter (k : κ) (f : α → α) (l : List α) : List α :=
  l.map fun a => if key a = k then f a else a

/-- Removing the record of a key. -/
def discard (k : κ) (l : List α) : List α := l.filter fun a => key a ≠ k

variable {key}

/-! ### Finding -/

theorem mem_of_find {k : κ} {l : List α} {a : α} (h : find key k l = some a) :
    a ∈ l ∧ key a = k := by
  have hkey := List.find?_some h
  exact ⟨List.mem_of_find?_eq_some h, by simpa using hkey⟩

theorem find_eq_none {k : κ} {l : List α} : find key k l = none ↔ ∀ a ∈ l, key a ≠ k := by
  simp [find, List.find?_eq_none]

theorem find_eq_some {k : κ} {l : List α} (h : Distinct key l) {a : α} :
    find key k l = some a ↔ a ∈ l ∧ key a = k := by
  constructor
  · exact mem_of_find
  · rintro ⟨ha, rfl⟩
    cases hfind : find key (key a) l with
    | none => exact absurd rfl (find_eq_none.mp hfind a ha)
    | some b =>
      obtain ⟨hb, hkey⟩ := mem_of_find hfind
      rw [h.eq_of_key hb ha hkey]

/-! ### The only record that is changed or removed -/

theorem alter_of_ne {k : κ} {f : α → α} {l : List α} (h : ∀ b ∈ l, key b ≠ k) :
    alter key k f l = l := by
  have hid : ∀ b ∈ l, (if key b = k then f b else b) = b := by
    intro b hb
    rw [if_neg (h b hb)]
  rw [alter, List.map_congr_left hid, List.map_id']

theorem discard_of_ne {k : κ} {l : List α} (h : ∀ b ∈ l, key b ≠ k) : discard key k l = l := by
  refine List.filter_eq_self.mpr ?_
  intro b hb
  simpa using h b hb

theorem alter_split {a : α} {f : α → α} {before after : List α}
    (hbefore : ∀ b ∈ before, key b ≠ key a) (hafter : ∀ b ∈ after, key b ≠ key a) :
    alter key (key a) f (before ++ a :: after) = before ++ f a :: after := by
  have hleft := alter_of_ne (f := f) hbefore
  have hright := alter_of_ne (f := f) hafter
  rw [alter] at hleft hright ⊢
  rw [List.map_append, List.map_cons, if_pos rfl, hleft, hright]

theorem discard_split {a : α} {before after : List α} (hbefore : ∀ b ∈ before, key b ≠ key a)
    (hafter : ∀ b ∈ after, key b ≠ key a) :
    discard key (key a) (before ++ a :: after) = before ++ after := by
  have hleft := discard_of_ne hbefore
  have hright := discard_of_ne hafter
  rw [discard] at hleft hright ⊢
  rw [List.filter_append, List.filter_cons, hleft, hright]
  simp

/-! ### Members -/

theorem mem_alter {k : κ} {f : α → α} {l : List α} {b : α} :
    b ∈ alter key k f l ↔ (b ∈ l ∧ key b ≠ k) ∨ ∃ a ∈ l, key a = k ∧ b = f a := by
  rw [alter, List.mem_map]
  constructor
  · rintro ⟨a, ha, rfl⟩
    by_cases hkey : key a = k
    · rw [if_pos hkey]
      exact Or.inr ⟨a, ha, hkey, rfl⟩
    · rw [if_neg hkey]
      exact Or.inl ⟨ha, hkey⟩
  · rintro (⟨hb, hkey⟩ | ⟨a, ha, hkey, rfl⟩)
    · exact ⟨b, hb, if_neg hkey⟩
    · exact ⟨a, ha, if_pos hkey⟩

@[simp] theorem mem_discard {k : κ} {l : List α} {b : α} :
    b ∈ discard key k l ↔ b ∈ l ∧ key b ≠ k := by
  simp [discard]

/-- What a change does not touch stays the same. -/
theorem map_alter {β : Type*} {g : α → β} {k : κ} {f : α → α} (hf : ∀ a, g (f a) = g a)
    (l : List α) : (alter key k f l).map g = l.map g := by
  rw [alter, List.map_map]
  refine List.map_congr_left fun a _ => ?_
  by_cases hkey : key a = k
  · simp only [Function.comp_apply, hkey, if_true, hf]
  · simp only [Function.comp_apply, hkey, if_false]

theorem Distinct.alter {β : Type*} {g : α → β} {k : κ} {f : α → α} (hf : ∀ a, g (f a) = g a)
    {l : List α} (h : Distinct g l) : Distinct g (alter key k f l) := by
  rw [Distinct, map_alter hf]
  exact h

theorem Distinct.discard {β : Type*} {g : α → β} {k : κ} {l : List α} (h : Distinct g l) :
    Distinct g (discard key k l) :=
  h.sublist (List.filter_sublist.map g)

/-! ### Counting -/

/-- Only the record that is changed counts differently. -/
theorem countP_alter {l : List α} (h : Distinct key l) {a : α} (ha : a ∈ l) (f : α → α)
    (p : α → Bool) :
    (alter key (key a) f l).countP p + (p a).toNat = l.countP p + (p (f a)).toNat := by
  obtain ⟨before, after, rfl, hbefore, hafter⟩ := h.split ha
  rw [alter_split hbefore hafter]
  simp only [List.countP_append, List.countP_cons]
  cases p a <;> cases p (f a) <;>
    simp only [Bool.toNat_false, Bool.toNat_true, Bool.false_eq_true, if_false, if_true] <;> omega

/-- A change that does not matter to the count. -/
theorem countP_alter_of_eq {k : κ} {f : α → α} {p : α → Bool} (h : ∀ a, p (f a) = p a)
    (l : List α) : (alter key k f l).countP p = l.countP p := by
  rw [alter, List.countP_map]
  congr 1
  funext a
  by_cases hkey : key a = k
  · simp only [Function.comp_apply, hkey, if_true, h]
  · simp only [Function.comp_apply, hkey, if_false]

theorem countP_discard {l : List α} (h : Distinct key l) {a : α} (ha : a ∈ l) (p : α → Bool) :
    (discard key (key a) l).countP p + (p a).toNat = l.countP p := by
  obtain ⟨before, after, rfl, hbefore, hafter⟩ := h.split ha
  rw [discard_split hbefore hafter]
  simp only [List.countP_append, List.countP_cons]
  cases p a with
  | false => simp
  | true =>
    simp only [Bool.toNat_true, if_true]
    omega

end KeyedList
