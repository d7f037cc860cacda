import Mathlib.Data.List.Perm.Basic

/-!
# Tables of owners

Objects with a lifetime, each of which holds at most one resource, in the order they were created
in; an object that is destroyed leaves an empty place.  `held` lists the resources that are held.

* `held_set` — replacing an object exchanges what the two hold;
* `held_concat` — a new object;
* `held_move`, `held_assign` — moving a resource to a new object and to an existing one.

Nothing here depends on what the objects and the resources are.
-/

namespace OwnerTable

variable {σ ρ : Type*} (data : σ → Option ρ)

/-- The resources held by the objects of a table. -/
def held (t : List (Option σ)) : List ρ := t.filterMap fun o => o.bind data

theorem held_cons (o : Option σ) (t : List (Option σ)) :
    held data (o :: t) = (o.bind data).toList ++ held data t := by
  rw [held, List.filterMap_cons]
  cases o.bind data with
  | none => rfl
  | some r => rfl

theorem held_concat (t : List (Option σ)) (o : Option σ) :
    held data (t ++ [o]) = held data t ++ (o.bind data).toList := by
  have hlast : held data [o] = (o.bind data).toList := by
    rw [held_cons]
    exact List.append_nil _
  rw [← hlast]
  exact List.filterMap_append

/-- **Replacing an object** exchanges what it holds for what the new one does. -/
theorem held_set {t : List (Option σ)} {i : ℕ} {o : Option σ} (h : t[i]? = some o)
    (o' : Option σ) :
    ((o.bind data).toList ++ held data (t.set i o')).Perm
      ((o'.bind data).toList ++ held data t) := by
  obtain ⟨hi, rfl⟩ := List.getElem?_eq_some_iff.mp h
  have hset : (t[i] :: t.set i o').Perm (o' :: t) := by
    calc (t[i] :: t.set i o').Perm (t[i] :: o' :: t.eraseIdx i) :=
          (List.set_perm_cons_eraseIdx hi o').cons _
      _ |>.Perm (o' :: t[i] :: t.eraseIdx i) := List.Perm.swap _ _ _
      _ |>.Perm (o' :: t) := (List.getElem_cons_eraseIdx_perm hi).cons _
  have hheld := hset.filterMap fun o => o.bind data
  rw [← held, ← held, held_cons, held_cons] at hheld
  exact hheld

theorem mem_held {t : List (Option σ)} {i : ℕ} {o : Option σ} {r : ρ} (h : t[i]? = some o)
    (hr : o.bind data = some r) : r ∈ held data t :=
  List.mem_filterMap.mpr ⟨o, List.mem_of_getElem? h, hr⟩

/-- A new object gets what another one holds. -/
theorem held_move {t : List (Option σ)} {i : ℕ} {o : Option σ} (h : t[i]? = some o)
    {o' : Option σ} (ho' : o'.bind data = none) :
    (held data (t.set i o' ++ [o])).Perm (held data t) := by
  have hset := held_set data h o'
  rw [ho'] at hset
  rw [held_concat]
  exact List.perm_append_comm.trans hset

/-- **Assigning**: an object lets go of what it holds and gets what another one holds. -/
theorem held_assign {t : List (Option σ)} {i j : ℕ} {o p : Option σ} (hne : i ≠ j)
    (ho : t[i]? = some o) (hp : t[j]? = some p) {p' : Option σ} (hp' : p'.bind data = none) :
    ((o.bind data).toList ++ held data ((t.set i p).set j p')).Perm (held data t) := by
  have hget : (t.set i p)[j]? = some p := by
    rw [List.getElem?_set_ne hne]
    exact hp
  have hfirst := held_set data ho p
  have hsecond := held_set data hget p'
  rw [hp'] at hsecond
  rw [← List.perm_append_left_iff (p.bind data).toList]
  calc ((p.bind data).toList ++ ((o.bind data).toList ++ held data ((t.set i p).set j p'))).Perm
        ((o.bind data).toList ++ ((p.bind data).toList ++ held data ((t.set i p).set j p'))) := by
        rw [← List.append_assoc, ← List.append_assoc]
        exact List.perm_append_comm.append_right _
    _ |>.Perm ((o.bind data).toList ++ held data (t.set i p)) := hsecond.append_left _
    _ |>.Perm ((p.bind data).toList ++ held data t) := hfirst

end OwnerTable
