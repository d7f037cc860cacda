import Mathlib.Data.List.Basic
import Mathlib.Data.List.Induction
import Mathlib.Tactic.Common

/-!
# Blocks from several sources, one at a time

Entries come from several sources.  A source closes a block with a last entry, and a block has
at least one entry before that one.  `track` follows the entries and knows whose block is open;
it fails when a source interferes with the open block of another one, or closes a block it has
not begun.

* `track_append` — what is tracked can be cut;
* `track_source` — the entries of one source, by themselves;
* `blocks_of_track` — what is tracked is a concatenation of blocks and an unfinished one.
-/

namespace SerialBlocks

variable {ι α : Type*} [DecidableEq ι] (isLast : α → Bool)

/-- Whose block is open after an entry. -/
def advance : Option ι → ι × α → Option (Option ι)
  | none, (i, x) => if isLast x then none else some (some i)
  | some j, (i, x) => if i = j then some (if isLast x then none else some j) else none

/-- Whose block is open after some entries. -/
def track : Option ι → List (ι × α) → Option (Option ι)
  | o, [] => some o
  | o, e :: es => (advance isLast o e).bind fun o' => track o' es

theorem track_append (o : Option ι) (es fs : List (ι × α)) :
    track isLast o (es ++ fs) = (track isLast o es).bind fun o' => track isLast o' fs := by
  induction es generalizing o with
  | nil => rfl
  | cons e es ih =>
    rw [List.cons_append, track, track, Option.bind_assoc]
    congr 1
    funext o'
    exact ih o'

theorem track_concat (o : Option ι) (es : List (ι × α)) (e : ι × α) :
    track isLast o (es ++ [e]) = (track isLast o es).bind fun o' => advance isLast o' e := by
  rw [track_append]
  congr 1
  funext o'
  exact Option.bind_fun_some _

/-- The last entry of what is tracked. -/
theorem advance_of_track_concat {o o' : Option ι} {es : List (ι × α)} {e : ι × α}
    (h : track isLast o (es ++ [e]) = some o') :
    ∃ before, track isLast o es = some before ∧ advance isLast before e = some o' := by
  rw [track_concat] at h
  exact Option.bind_eq_some_iff.mp h

/-- **What an entry can do**: it begins a block, belongs to the open one, or closes it. -/
theorem advance_some {before after : Option ι} {i : ι} {x : α}
    (h : advance isLast before (i, x) = some after) :
    (before = none ∧ isLast x = false ∨ before = some i) ∧
      after = if isLast x then none else some i := by
  cases before with
  | none =>
    simp only [advance] at h
    split at h
    · cases h
    · rename_i hx
      rw [if_neg hx]
      exact ⟨Or.inl ⟨rfl, by simpa using hx⟩, (Option.some.inj h).symm⟩
  | some j =>
    simp only [advance] at h
    split at h
    · rename_i hij
      subst hij
      exact ⟨Or.inr rfl, (Option.some.inj h).symm⟩
    · cases h

/-! ### The entries of one source -/

/-- The entries of a source. -/
def fromSource (i : ι) (es : List (ι × α)) : List α :=
  (es.filter fun e => e.1 = i).map Prod.snd

theorem fromSource_concat_self (i : ι) (es : List (ι × α)) (x : α) :
    fromSource i (es ++ [(i, x)]) = fromSource i es ++ [x] := by
  simp [fromSource]

theorem fromSource_concat_of_ne {i j : ι} (h : j ≠ i) (es : List (ι × α)) (x : α) :
    fromSource i (es ++ [(j, x)]) = fromSource i es := by
  simp [fromSource, h]

/-- The block that is open, if it is one of the given source. -/
def openAt (i : ι) (o : Option ι) : Option ι := if o = some i then some i else none

theorem openAt_self {i : ι} {o : Option ι} (h : o = none ∨ o = some i) : openAt i o = o := by
  rcases h with rfl | rfl
  · rfl
  · exact if_pos rfl

theorem openAt_of_ne {i j : ι} (hij : j ≠ i) {o : Option ι} (h : o = none ∨ o = some j) :
    openAt i o = none := by
  rcases h with rfl | rfl
  · rfl
  · exact if_neg (fun heq => hij (Option.some.inj heq))

/-- **The entries of one source are tracked by themselves.** -/
theorem track_source {es : List (ι × α)} {o : Option ι} (h : track isLast none es = some o)
    (i : ι) :
    track isLast none ((fromSource i es).map (Prod.mk i)) = some (openAt i o) := by
  induction es using List.reverseRecOn generalizing o with
  | nil =>
    obtain rfl := Option.some.inj h
    rfl
  | append_singleton es e ih =>
    obtain ⟨before, hbefore, hadvance⟩ := advance_of_track_concat isLast h
    have hrest := ih hbefore
    obtain ⟨j, x⟩ := e
    obtain ⟨hopen, hafter⟩ := advance_some isLast hadvance
    have hbefore' : before = none ∨ before = some j := hopen.imp_left And.left
    have hafter' : o = none ∨ o = some j := by
      rw [hafter]
      split
      · exact Or.inl rfl
      · exact Or.inr rfl
    by_cases hij : j = i
    · subst hij
      rw [fromSource_concat_self, List.map_append, List.map_singleton, track_concat, hrest,
        Option.bind_some, openAt_self hbefore', hadvance, openAt_self hafter']
    · rw [fromSource_concat_of_ne hij, hrest, openAt_of_ne hij hbefore', openAt_of_ne hij hafter']

/-! ### Blocks -/

/-- At least one entry, and then a last one, all of one source. -/
def IsBlock (b : List (ι × α)) : Prop :=
  ∃ i body x, body ≠ [] ∧ (∀ y ∈ body, isLast y = false) ∧ isLast x = true ∧
    b = body.map (Prod.mk i) ++ [(i, x)]

/-- A block of the given source without its last entry. -/
def IsUnfinished (i : ι) (b : List (ι × α)) : Prop :=
  ∃ body, body ≠ [] ∧ (∀ y ∈ body, isLast y = false) ∧ b = body.map (Prod.mk i)

/-- What is left over after the blocks. -/
def Leftover : Option ι → List (ι × α) → Prop
  | none, rest => rest = []
  | some i, rest => IsUnfinished isLast i rest

/-- **What is tracked is a concatenation of blocks**, the last of which may be unfinished. -/
theorem blocks_of_track {es : List (ι × α)} {o : Option ι} (h : track isLast none es = some o) :
    ∃ (blocks : List (List (ι × α))) (rest : List (ι × α)),
      es = blocks.flatten ++ rest ∧ (∀ b ∈ blocks, IsBlock isLast b) ∧
      Leftover isLast o rest := by
  induction es using List.reverseRecOn generalizing o with
  | nil =>
    obtain rfl := Option.some.inj h
    exact ⟨[], [], rfl, List.forall_mem_nil _, rfl⟩
  | append_singleton es e ih =>
    obtain ⟨before, hbefore, hadvance⟩ := advance_of_track_concat isLast h
    obtain ⟨blocks, rest, hes, hblocks, hrest⟩ := ih hbefore
    obtain ⟨i, x⟩ := e
    obtain ⟨hopen, rfl⟩ := advance_some isLast hadvance
    rcases hopen with ⟨rfl, hx⟩ | rfl
    · obtain rfl : rest = [] := hrest
      rw [if_neg (by simpa using hx)]
      refine ⟨blocks, [(i, x)], ?_, hblocks, [x], List.cons_ne_nil _ _, ?_, rfl⟩
      · rw [hes, List.append_nil]
      · intro y hy
        rw [List.mem_singleton.mp hy]
        exact hx
    · obtain ⟨body, hbody, hdata, rfl⟩ := hrest
      by_cases hx : isLast x = true
      · rw [if_pos hx]
        refine ⟨blocks ++ [body.map (Prod.mk i) ++ [(i, x)]], [], ?_, ?_, rfl⟩
        · rw [hes, List.flatten_concat, List.append_nil, List.append_assoc]
        · intro b hb
          rcases List.mem_append.mp hb with hb | hb
          · exact hblocks b hb
          · rw [List.mem_singleton.mp hb]
            exact ⟨i, body, x, hbody, hdata, hx, rfl⟩
      · rw [if_neg hx]
        refine ⟨blocks, body.map (Prod.mk i) ++ [(i, x)], ?_, hblocks, body ++ [x], ?_, ?_, ?_⟩
        · rw [hes, List.append_assoc]
        · exact List.append_ne_nil_of_right_ne_nil _ (List.cons_ne_nil _ _)
        · intro y hy
          rcases List.mem_append.mp hy with hy | hy
          · exact hdata y hy
          · rw [List.mem_singleton.mp hy]
            simpa using hx
        · rw [List.map_append, List.map_singleton]

end SerialBlocks
