import Mathlib.Data.List.Infix
import Mathlib.Tactic.Common

/-!
# Cutting a stream of blocks

A stream that is the concatenation of non-empty blocks is received piece by piece.
`Partial bs r` says that `r` is the beginning of the first block of `bs` without being all of
it (or that nothing is left).  `flatten_cut` is the decomposition a reassembling receiver
relies on: whatever has been received is a number of whole blocks followed by such a partial
one, and what is still to come completes it.
-/

namespace BlockStream

variable {α : Type*}

/-- `r` is a proper beginning of the first block, or there is nothing left to receive. -/
def Partial : List (List α) → List α → Prop
  | [], r => r = []
  | b :: _, r => ∃ t, t ≠ [] ∧ b = r ++ t

theorem Partial.length_lt {b : List α} {bs : List (List α)} {r : List α}
    (h : Partial (b :: bs) r) : r.length < b.length := by
  obtain ⟨t, ht, rfl⟩ := h
  have := List.length_pos_iff.mpr ht
  rw [List.length_append]
  omega

theorem partial_nil {bs : List (List α)} (hne : ∀ b ∈ bs, b ≠ []) : Partial bs [] := by
  cases bs with
  | nil => rfl
  | cons b bs => exact ⟨b, hne b List.mem_cons_self, rfl⟩

/-- **Every cut of the stream falls after some whole blocks and inside (or at the start of)
the next one.** -/
theorem flatten_cut {bs : List (List α)} (hne : ∀ b ∈ bs, b ≠ []) :
    ∀ p q : List α, p ++ q = bs.flatten →
      ∃ done rest r, bs = done ++ rest ∧ p = done.flatten ++ r ∧ Partial rest r ∧
        r ++ q = rest.flatten := by
  induction bs with
  | nil =>
    intro p q h
    obtain ⟨rfl, rfl⟩ := List.append_eq_nil_iff.mp (h.trans List.flatten_nil)
    exact ⟨[], [], [], rfl, rfl, rfl, rfl⟩
  | cons b bs ih =>
    intro p q h
    rw [List.flatten_cons] at h
    rcases List.append_eq_append_iff.mp h with ⟨t, hb, hq⟩ | ⟨p', hp, hq⟩
    · by_cases ht : t = []
      · subst ht
        rw [List.append_nil] at hb
        refine ⟨[b], bs, [], rfl, ?_, partial_nil fun c hc => hne c (List.mem_cons_of_mem b hc), ?_⟩
        · simp [hb]
        · simpa using hq
      · exact ⟨[], b :: bs, p, rfl, rfl, ⟨t, ht, hb⟩, by rw [List.flatten_cons, hq, hb,
          List.append_assoc]⟩
    · obtain ⟨done, rest, r, hbs, hp', hpart, hrest⟩ :=
        ih (fun c hc => hne c (List.mem_cons_of_mem b hc)) p' q hq.symm
      refine ⟨b :: done, rest, r, by rw [hbs]; rfl, ?_, hpart, hrest⟩
      rw [hp, hp', List.flatten_cons, List.append_assoc]

/-- A receiver that has everything keeps nothing back. -/
theorem partial_of_all {bs : List (List α)} {r : List α} (h : Partial bs r)
    (hall : r = bs.flatten) : bs = [] := by
  cases bs with
  | nil => rfl
  | cons b bs =>
    have hlt := h.length_lt
    rw [hall, List.flatten_cons, List.length_append] at hlt
    omega

end BlockStream
