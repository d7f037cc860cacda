import Mathlib.Data.List.Basic

/-!
# One-pass transducers

A transducer reads symbols one by one, keeps a state, and emits any number of output symbols for
each.  Two runs in a row are one run over the concatenation, which is what makes the output
independent of how the input is cut.

* `run_append` — runs compose;
-/

namespace Mealy

variable {σ α β : Type*}

/-- A transducer: the next state, and what is emitted on the way. -/
structure Transducer (σ α β : Type*) where
  next : σ → α → σ
  emit : σ → α → List β

namespace Transducer

variable (T : Transducer σ α β)

/-- The state after some input. -/
def state (s : σ) (xs : List α) : σ := xs.foldl T.next s

/-- The output for some input. -/
def run : σ → List α → List β
  | _, [] => []
  | s, x :: xs => T.emit s x ++ run (T.next s x) xs

@[simp] theorem state_nil (s : σ) : T.state s [] = s := rfl

@[simp] theorem state_cons (s : σ) (x : α) (xs : List α) :
    T.state s (x :: xs) = T.state (T.next s x) xs := rfl

@[simp] theorem run_nil (s : σ) : T.run s [] = [] := rfl

@[simp] theorem run_cons (s : σ) (x : α) (xs : List α) :
    T.run s (x :: xs) = T.emit s x ++ T.run (T.next s x) xs := rfl

@[simp] theorem state_append (s : σ) (xs ys : List α) :
    T.state s (xs ++ ys) = T.state (T.state s xs) ys :=
  List.foldl_append

/-- **Runs compose.** -/
@[simp] theorem run_append (s : σ) (xs ys : List α) :
    T.run s (xs ++ ys) = T.run s xs ++ T.run (T.state s xs) ys := by
  induction xs generalizing s with
  | nil => rfl
  | cons x xs ih => simp only [List.cons_append, run_cons, state_cons, ih, List.append_assoc]

end Transducer

end Mealy
