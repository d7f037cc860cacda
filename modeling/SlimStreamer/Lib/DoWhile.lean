import Mathlib.Data.Nat.Notation
import Mathlib.Tactic.Common

/-!
# Loops that run until their body is done

The body of a loop either goes on with a new state or ends with a result.  `Evaluates` is the loop
without a bound on its turns, and it keeps the states that the turns started in.

* `Evaluates.unique` — a loop has one result at most;
* `evaluates_of_measure` — it has one when each turn that goes on decreases a measure, which also
  bounds the number of turns.

Nothing here depends on what the states and the results are.
-/

namespace DoWhile

variable {σ ρ : Type*}

/-- The loop ends with a result, after turns in the given states. -/
inductive Evaluates (body : σ → σ ⊕ ρ) : σ → List σ → ρ → Prop
  | done {s : σ} {r : ρ} (h : body s = .inr r) : Evaluates body s [s] r
  | next {s s' : σ} {visited : List σ} {r : ρ} (h : body s = .inl s')
    (rest : Evaluates body s' visited r) : Evaluates body s (s :: visited) r

/-- **One result at most.** -/
theorem Evaluates.unique {body : σ → σ ⊕ ρ} {s : σ} {visited visited' : List σ} {r r' : ρ}
    (h : Evaluates body s visited r) (h' : Evaluates body s visited' r') :
    visited' = visited ∧ r' = r := by
  induction h generalizing visited' with
  | done hdone =>
    cases h' with
    | done hdone' =>
      rw [hdone, Sum.inr.injEq] at hdone'
      exact ⟨rfl, hdone'.symm⟩
    | next hnext' _ =>
      rw [hdone] at hnext'
      cases hnext'
  | next hnext _ ih =>
    cases h' with
    | done hdone' =>
      rw [hnext] at hdone'
      cases hdone'
    | next hnext' rest' =>
      rw [hnext, Sum.inl.injEq] at hnext'
      subst hnext'
      obtain ⟨hvisited, hresult⟩ := ih rest'
      exact ⟨by rw [hvisited], hresult⟩

/-- **Termination**: with a measure that each turn which goes on decreases. -/
theorem evaluates_of_measure {body : σ → σ ⊕ ρ} (μ : σ → ℕ)
    (hμ : ∀ s s', body s = .inl s' → μ s' < μ s) (s : σ) :
    ∃ visited r, Evaluates body s visited r ∧ visited.length ≤ μ s + 1 := by
  induction hn : μ s using Nat.strongRecOn generalizing s with
  | _ n ih =>
    cases hbody : body s with
    | inr r => exact ⟨[s], r, .done hbody, by simp⟩
    | inl s' =>
      have hless := hμ s s' hbody
      obtain ⟨visited, r, hrest, hlength⟩ := ih (μ s') (hn ▸ hless) s' rfl
      refine ⟨s :: visited, r, .next hbody hrest, ?_⟩
      rw [List.length_cons]
      omega

end DoWhile
