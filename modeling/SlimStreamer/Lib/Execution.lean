import Mathlib.Data.List.Basic

/-!
# Guarded executions of an event-driven system

A system has a state, a set of events, a guard saying which event may happen in which
state, and a total transition function.  A run is a list of events; `Admits` says that each
event of the run was allowed when it happened, `exec` computes the state the run ends in.

* `admits_append` / `exec_append` — runs compose;
* `exec_invariant` — an invariant of the steps is an invariant of the runs;
* `restrict` — the same system with a further condition on every step, for results of the
  form "in every run whose steps meet the condition";
* `admits_restrict_congr`, `always_iff_admits_restrict` — and when that condition is exact;
* `exec_simulation` — a step simulation lifts to runs.

Nothing here depends on what the states and the events are.
-/

namespace GuardedExecution

variable {σ ε τ δ : Type*}

/-- A system: when an event may happen, and what it does. -/
structure System (σ ε : Type*) where
  enabled : σ → ε → Prop
  step : σ → ε → σ

namespace System

/-- The state a run ends in. -/
def exec (S : System σ ε) (s : σ) : List ε → σ
  | [] => s
  | e :: es => S.exec (S.step s e) es

/-- Every event of the run is enabled when it happens. -/
def Admits (S : System σ ε) : σ → List ε → Prop
  | _, [] => True
  | s, e :: es => S.enabled s e ∧ S.Admits (S.step s e) es

instance decidableAdmits (S : System σ ε) [∀ s e, Decidable (S.enabled s e)] :
    ∀ s es, Decidable (S.Admits s es)
  | _, [] => isTrue trivial
  | s, e :: es =>
    haveI := decidableAdmits S (S.step s e) es
    inferInstanceAs (Decidable (S.enabled s e ∧ S.Admits (S.step s e) es))

theorem exec_append (S : System σ ε) (s : σ) (es fs : List ε) :
    S.exec s (es ++ fs) = S.exec (S.exec s es) fs := by
  induction es generalizing s with
  | nil => rfl
  | cons e es ih => exact ih (S.step s e)

theorem exec_concat (S : System σ ε) (s : σ) (es : List ε) (e : ε) :
    S.exec s (es ++ [e]) = S.step (S.exec s es) e := by
  rw [exec_append]
  rfl

theorem admits_append (S : System σ ε) (s : σ) (es fs : List ε) :
    S.Admits s (es ++ fs) ↔ S.Admits s es ∧ S.Admits (S.exec s es) fs := by
  induction es generalizing s with
  | nil => simp [Admits, exec]
  | cons e es ih => simp only [List.cons_append, Admits, exec, ih, and_assoc]

theorem admits_concat (S : System σ ε) (s : σ) (es : List ε) (e : ε) :
    S.Admits s (es ++ [e]) ↔ S.Admits s es ∧ S.enabled (S.exec s es) e := by
  rw [admits_append]
  simp [Admits]

/-- **The invariant rule.**  What the initial state satisfies and every enabled step keeps
holds in the state any admitted run ends in. -/
theorem exec_invariant (S : System σ ε) (Inv : σ → Prop)
    (hstep : ∀ s e, Inv s → S.enabled s e → Inv (S.step s e)) :
    ∀ es s, Inv s → S.Admits s es → Inv (S.exec s es) := by
  intro es
  induction es with
  | nil => intro s hs _; exact hs
  | cons e es ih => intro s hs hadm; exact ih _ (hstep s e hs hadm.1) hadm.2

/-- The same system with a further condition on every step. -/
def restrict (S : System σ ε) (cond : σ → ε → Prop) : System σ ε where
  enabled s e := S.enabled s e ∧ cond s e
  step := S.step

instance (S : System σ ε) (cond : σ → ε → Prop) (s : σ) (e : ε) [Decidable (S.enabled s e)]
    [Decidable (cond s e)] : Decidable ((S.restrict cond).enabled s e) :=
  inferInstanceAs (Decidable (S.enabled s e ∧ cond s e))

@[simp] theorem restrict_step (S : System σ ε) (cond : σ → ε → Prop) (s : σ) (e : ε) :
    (S.restrict cond).step s e = S.step s e := rfl

@[simp] theorem restrict_exec (S : System σ ε) (cond : σ → ε → Prop) (s : σ) (es : List ε) :
    (S.restrict cond).exec s es = S.exec s es := by
  induction es generalizing s with
  | nil => rfl
  | cons e es ih => exact ih (S.step s e)

/-- **The rule for two conditions** that are equivalent in the states of the invariant, which
steps under one of them keep. -/
theorem admits_restrict_congr (S : System σ ε) (Inv : σ → Prop) (cond cond' : σ → ε → Prop)
    (hkeep : ∀ s e, Inv s → S.enabled s e → cond s e → Inv (S.step s e))
    (hcond : ∀ s e, Inv s → S.enabled s e → (cond s e ↔ cond' s e)) :
    ∀ es s, Inv s → ((S.restrict cond).Admits s es ↔ (S.restrict cond').Admits s es) := by
  intro es
  induction es with
  | nil => intro s _; exact Iff.rfl
  | cons e es ih =>
    intro s hs
    constructor
    · rintro ⟨⟨he, hc⟩, hrest⟩
      exact ⟨⟨he, (hcond s e hs he).mp hc⟩, (ih _ (hkeep s e hs he hc)).mp hrest⟩
    · rintro ⟨⟨he, hc'⟩, hrest⟩
      have hc := (hcond s e hs he).mpr hc'
      exact ⟨⟨he, hc⟩, (ih _ (hkeep s e hs he hc)).mpr hrest⟩

/-- Every state a run passes through has a property. -/
def Always (S : System σ ε) (P : σ → Prop) (s : σ) (es : List ε) : Prop :=
  ∀ before, before <+: es → P (S.exec s before)

theorem always_nil (S : System σ ε) (P : σ → Prop) (s : σ) : S.Always P s [] ↔ P s := by
  simp [Always, exec]

theorem always_cons (S : System σ ε) (P : σ → Prop) (s : σ) (e : ε) (es : List ε) :
    S.Always P s (e :: es) ↔ P s ∧ S.Always P (S.step s e) es := by
  constructor
  · intro h
    refine ⟨h [] List.nil_prefix, ?_⟩
    intro before hbefore
    exact h (e :: before) (List.cons_prefix_cons.mpr ⟨rfl, hbefore⟩)
  · rintro ⟨hs, hrest⟩ before hbefore
    cases before with
    | nil => exact hs
    | cons e' before =>
      obtain ⟨rfl, hbefore'⟩ := List.cons_prefix_cons.mp hbefore
      exact hrest before hbefore'

/-- **The rule for an exact condition.**  The invariant gives the property.  A step that meets
the condition keeps the invariant, and one that does not breaks the property. -/
theorem always_iff_admits_restrict (S : System σ ε) (Inv P : σ → Prop) (cond : σ → ε → Prop)
    (hP : ∀ s, Inv s → P s)
    (hkeep : ∀ s e, Inv s → S.enabled s e → cond s e → Inv (S.step s e))
    (hbreak : ∀ s e, Inv s → S.enabled s e → ¬ cond s e → ¬ P (S.step s e)) :
    ∀ es s, Inv s → S.Admits s es → (S.Always P s es ↔ (S.restrict cond).Admits s es) := by
  intro es
  induction es with
  | nil =>
    intro s hs _
    rw [always_nil]
    exact iff_of_true (hP s hs) trivial
  | cons e es ih =>
    intro s hs hadm
    rw [always_cons]
    by_cases hcond : cond s e
    · have hrest := ih _ (hkeep s e hs hadm.1 hcond) hadm.2
      constructor
      · intro h
        exact ⟨⟨hadm.1, hcond⟩, hrest.mp h.2⟩
      · intro h
        exact ⟨hP s hs, hrest.mpr h.2⟩
    · refine iff_of_false ?_ fun h => hcond h.1.2
      intro h
      exact hbreak s e hs hadm.1 hcond (h.2 [] List.nil_prefix)

/-- **Simulation.**  When each enabled step of `S` is matched by a run of `T` from related
states, so is each admitted run. -/
theorem exec_simulation (S : System σ ε) (T : System τ δ) (R : σ → τ → Prop)
    (hstep : ∀ s t e, R s t → S.enabled s e →
      ∃ fs, T.Admits t fs ∧ R (S.step s e) (T.exec t fs)) :
    ∀ es s t, R s t → S.Admits s es →
      ∃ fs, T.Admits t fs ∧ R (S.exec s es) (T.exec t fs) := by
  intro es
  induction es with
  | nil => intro s t hR _; exact ⟨[], trivial, hR⟩
  | cons e es ih =>
    intro s t hR hadm
    obtain ⟨fs, hfs, hR₁⟩ := hstep s t e hR hadm.1
    obtain ⟨gs, hgs, hR₂⟩ := ih _ _ hR₁ hadm.2
    refine ⟨fs ++ gs, ?_, ?_⟩
    · rw [admits_append]
      exact ⟨hfs, hgs⟩
    · rw [exec_append]
      exact hR₂

end System

end GuardedExecution
