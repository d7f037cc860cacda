import Mathlib.Data.List.Count
import Mathlib.Tactic.Common

/-!
# A queue of posted handlers

A processor runs the handlers that were posted to it, the first one first.  A handler changes
the state and may post further ones; so may whatever else happens in between.  A handler that
nobody posts again runs as often as it was posted:

* `ran_front` — what is posted has run after as many turns, in the order it was posted;
* `ran_count` — and no more often than it was posted;
* `counter_turns` — so a counter of its runs tells how often it had been posted.
-/

namespace HandlerQueue

variable {σ : Type*} {η : Type*} {ε : Type*}

/-- The state, the handlers posted, and those that have run. -/
structure Queue (σ η : Type*) where
  state : σ
  posted : List η
  ran : List η

/-- The first posted handler runs, or something else happens. -/
inductive Turn (ε : Type*) where
  | handler
  | event (e : ε)

/-- What handlers and events do: each leaves a state and posts handlers. -/
structure Processor (σ η ε : Type*) where
  run : η → σ → σ × List η
  occur : ε → σ → σ × List η

def Turn.handlers : List (Turn ε) → ℕ
  | [] => 0
  | .handler :: turns => handlers turns + 1
  | .event _ :: turns => handlers turns

theorem Turn.handlers_replicate (n : ℕ) :
    Turn.handlers (List.replicate n (Turn.handler : Turn ε)) = n := by
  induction n with
  | zero => rfl
  | succ n ih => rw [List.replicate_succ, Turn.handlers, ih]

namespace Queue

def post (handlers : List η) (q : Queue σ η) : Queue σ η :=
  { q with posted := q.posted ++ handlers }

def turn (P : Processor σ η ε) (q : Queue σ η) : Turn ε → Queue σ η
  | .handler =>
    match q.posted with
    | [] => q
    | handler :: rest =>
      let r := P.run handler q.state
      { state := r.1
        posted := rest ++ r.2
        ran := q.ran ++ [handler] }
  | .event e =>
    let r := P.occur e q.state
    { q with
      state := r.1
      posted := q.posted ++ r.2 }

def turns (P : Processor σ η ε) (q : Queue σ η) (ts : List (Turn ε)) : Queue σ η :=
  ts.foldl (turn P) q

/-- All that was ever posted, in this order. -/
def history (q : Queue σ η) : List η := q.ran ++ q.posted

theorem turn_handler {P : Processor σ η ε} {q : Queue σ η} {handler : η} {rest : List η}
    (h : q.posted = handler :: rest) :
    q.turn P .handler = ⟨(P.run handler q.state).1, rest ++ (P.run handler q.state).2,
      q.ran ++ [handler]⟩ := by
  rw [turn, h]

theorem turn_idle {P : Processor σ η ε} {q : Queue σ η} (h : q.posted = []) :
    q.turn P .handler = q := by
  rw [turn, h]

/-- **What is posted runs, in its turn.** -/
theorem ran_front (P : Processor σ η ε) (ts : List (Turn ε)) (q : Queue σ η) {front : List η}
    (hfront : front <+: q.posted) (hturns : front.length ≤ Turn.handlers ts) :
    q.ran ++ front <+: (q.turns P ts).ran := by
  induction ts generalizing q front with
  | nil =>
    obtain rfl : front = [] := List.length_eq_zero_iff.mp (Nat.le_zero.mp hturns)
    rw [List.append_nil]
    exact List.prefix_refl _
  | cons t ts ih =>
    cases t with
    | event e =>
      exact ih (q.turn P (.event e)) (hfront.trans (List.prefix_append _ _)) hturns
    | handler =>
      cases hposted : q.posted with
      | nil =>
        rw [hposted] at hfront
        obtain rfl := List.prefix_nil.mp hfront
        show q.ran ++ [] <+: ((q.turn P .handler).turns P ts).ran
        rw [turn_idle hposted]
        exact ih q List.nil_prefix (Nat.zero_le _)
      | cons handler rest =>
        show q.ran ++ front <+: ((q.turn P .handler).turns P ts).ran
        rw [turn_handler hposted]
        rw [hposted] at hfront
        cases front with
        | nil =>
          have hrest := ih ⟨(P.run handler q.state).1, rest ++ (P.run handler q.state).2,
            q.ran ++ [handler]⟩ List.nil_prefix (Nat.zero_le _)
          rw [List.append_nil] at hrest ⊢
          exact (List.prefix_append _ _).trans hrest
        | cons first front =>
          obtain ⟨rfl, hrest⟩ := List.cons_prefix_cons.mp hfront
          have hposted' : front <+: rest ++ (P.run first q.state).2 :=
            hrest.trans (List.prefix_append _ _)
          have hran := ih ⟨(P.run first q.state).1, rest ++ (P.run first q.state).2,
            q.ran ++ [first]⟩ hposted' (Nat.le_of_succ_le_succ hturns)
          rwa [List.append_assoc, List.singleton_append] at hran

/-! ### A handler that nobody posts again -/

variable [DecidableEq η]

/-- Neither handlers nor events post this handler. -/
structure Unposted (P : Processor σ η ε) (handler : η) : Prop where
  run : ∀ h s, handler ∉ (P.run h s).2
  occur : ∀ e s, handler ∉ (P.occur e s).2

theorem history_count_turn {P : Processor σ η ε} {handler : η} (h : Unposted P handler)
    (q : Queue σ η) (t : Turn ε) :
    (q.turn P t).history.count handler = q.history.count handler := by
  cases t with
  | event e =>
    have hnone := List.count_eq_zero_of_not_mem (h.occur e q.state)
    simp only [history, turn, List.count_append, hnone, Nat.add_zero]
  | handler =>
    cases hposted : q.posted with
    | nil => rw [turn_idle hposted]
    | cons first rest =>
      have hnone := List.count_eq_zero_of_not_mem (h.run first q.state)
      rw [turn_handler hposted]
      simp only [history, hposted, List.count_append, List.count_cons, List.count_nil, hnone]
      omega

theorem history_count_turns {P : Processor σ η ε} {handler : η} (h : Unposted P handler)
    (ts : List (Turn ε)) (q : Queue σ η) :
    (q.turns P ts).history.count handler = q.history.count handler := by
  induction ts generalizing q with
  | nil => rfl
  | cons t ts ih => exact (ih (q.turn P t)).trans (history_count_turn h q t)

/-- **It runs as often as it was posted.** -/
theorem ran_count {P : Processor σ η ε} {handler : η} (h : Unposted P handler)
    {ts : List (Turn ε)} {q : Queue σ η} (hturns : q.posted.length ≤ Turn.handlers ts) :
    (q.turns P ts).ran.count handler = q.history.count handler := by
  have hle : q.history.count handler ≤ (q.turns P ts).ran.count handler :=
    (ran_front P ts q (List.prefix_refl _) hturns).sublist.count_le handler
  have hge := history_count_turns h ts q
  rw [history, List.count_append] at hge
  omega

/-- A quantity that counts the runs of a handler. -/
structure Counts (P : Processor σ η ε) (handler : η) (f : σ → ℕ) : Prop where
  run : ∀ h s, f (P.run h s).1 = f s + if h = handler then 1 else 0
  occur : ∀ e s, f (P.occur e s).1 = f s

theorem counter_turn {P : Processor σ η ε} {handler : η} {f : σ → ℕ} (hf : Counts P handler f)
    (q : Queue σ η) (t : Turn ε) :
    f (q.turn P t).state + q.ran.count handler =
      f q.state + (q.turn P t).ran.count handler := by
  cases t with
  | event e =>
    show f (P.occur e q.state).1 + _ = f q.state + q.ran.count handler
    rw [hf.occur]
  | handler =>
    cases hposted : q.posted with
    | nil => rw [turn_idle hposted]
    | cons first rest =>
      rw [turn_handler hposted]
      simp only [hf.run, List.count_append, List.count_singleton, beq_iff_eq]
      omega

/-- **Its counter goes up by the number of times it was posted.** -/
theorem counter_turns {P : Processor σ η ε} {handler : η} {f : σ → ℕ} (hf : Counts P handler f)
    (h : Unposted P handler) {ts : List (Turn ε)} {q : Queue σ η}
    (hturns : q.posted.length ≤ Turn.handlers ts) :
    f (q.turns P ts).state = f q.state + q.posted.count handler := by
  have hcounter : ∀ (ts : List (Turn ε)) (q : Queue σ η),
      f (q.turns P ts).state + q.ran.count handler =
        f q.state + (q.turns P ts).ran.count handler := by
    intro ts
    induction ts with
    | nil => intro q; rfl
    | cons t ts ih =>
      intro q
      have hturn := counter_turn hf q t
      have hrest := ih (q.turn P t)
      show f ((q.turn P t).turns P ts).state + _ = _ + ((q.turn P t).turns P ts).ran.count handler
      omega
  have hstate := hcounter ts q
  have hran := ran_count h hturns
  rw [history, List.count_append] at hran
  omega

end Queue

end HandlerQueue
