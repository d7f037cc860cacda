import Mathlib.Data.List.Basic
import Mathlib.Tactic.Common

/-!
# Table-driven state machines

`util::StateMachine`: a list of transitions, each with an event, a source state, a target
state, an action and a guard.  `processEvent` takes the first transition for the event and
the current state; the guard decides whether it fires, the action runs before the state
changes, and an event without any transition goes to the error handler.

The machine lives in its owner: actions and guards are functions of the owner, which also
holds the current state.
-/

namespace SlimStreamer

structure Transition (ε σ α : Type) where
  event : ε
  fromState : σ
  toState : σ
  action : α → α
  guard : α → Bool

/-- A transition without an action and with a guard that always holds. -/
def Transition.plain {ε σ α : Type} (event : ε) (fromState toState : σ) : Transition ε σ α where
  event := event
  fromState := fromState
  toState := toState
  action := id
  guard := fun _ => true

structure StateMachine (ε σ α : Type) where
  state : α → σ
  setState : σ → α → α
  transitions : List (Transition ε σ α)

namespace StateMachine

variable {ε σ α : Type} [DecidableEq ε] [DecidableEq σ]

/-- The transition the table has for an event in a state. -/
def lookup (m : StateMachine ε σ α) (event : ε) (state : σ) : Option (Transition ε σ α) :=
  m.transitions.find? fun t => t.fromState = state ∧ t.event = event

def processEvent (m : StateMachine ε σ α) (event : ε) (errorHandler : α → α) (owner : α) :
    Bool × α :=
  match m.lookup event (m.state owner) with
  | some t => if t.guard owner then (true, m.setState t.toState (t.action owner)) else (false, owner)
  | none => (false, errorHandler owner)

theorem lookup_some {m : StateMachine ε σ α} {event : ε} {state : σ} {t : Transition ε σ α}
    (h : m.lookup event state = some t) :
    t ∈ m.transitions ∧ t.fromState = state ∧ t.event = event := by
  refine ⟨List.mem_of_find?_eq_some h, ?_⟩
  simpa using List.find?_some h

/-- **What one event can do**: fire a transition of the table, be refused by its guard, or go
to the error handler. -/
theorem processEvent_cases (m : StateMachine ε σ α) (event : ε) (errorHandler : α → α)
    (owner : α) :
    (∃ t ∈ m.transitions, t.fromState = m.state owner ∧ t.event = event ∧ t.guard owner = true ∧
      m.processEvent event errorHandler owner =
        (true, m.setState t.toState (t.action owner))) ∨
    m.processEvent event errorHandler owner = (false, owner) ∨
    m.processEvent event errorHandler owner = (false, errorHandler owner) := by
  cases hl : m.lookup event (m.state owner) with
  | none => exact Or.inr (Or.inr (by simp only [processEvent, hl]))
  | some t =>
    obtain ⟨hmem, hfrom, hev⟩ := lookup_some hl
    cases hg : t.guard owner with
    | false => exact Or.inr (Or.inl (by simp only [processEvent, hl, hg]; rfl))
    | true =>
      exact Or.inl ⟨t, hmem, hfrom, hev, hg, by simp only [processEvent, hl, hg, if_true]⟩

end StateMachine

end SlimStreamer
