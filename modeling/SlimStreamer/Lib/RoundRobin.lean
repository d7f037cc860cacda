import Mathlib.Data.List.Count
import Mathlib.Tactic.Common

/-!
# Taking turns in a circle

Whoever has the turn keeps it or passes it on to the next one in a circle.  How long somebody has
to wait is measured by the turns that were passed on, since a turn may be kept for any time.

* `distance` — how often the turn has to be passed on;
* `passes_le_one` — whoever waits is overtaken by everybody else once at most;
* `passed_lt` — and the turn is passed on less often than there are members of the circle;
* `all_asked` — so that many turns in a row which are all passed on are one of each member.
-/

namespace RoundRobin

/-- Whose turn it is, and whether it is kept. -/
structure Turn where
  who : ℕ
  keeps : Bool
  deriving DecidableEq, Repr

/-- The next one in a circle of `n`. -/
def next (n i : ℕ) : ℕ := if n ≤ i + 1 then 0 else i + 1

/-- Who has the turn after this one. -/
def Turn.after (n : ℕ) (t : Turn) : ℕ := if t.keeps then t.who else next n t.who

/-- The turns follow one another, and the first one is that of `i`. -/
def Follows (n : ℕ) : ℕ → List Turn → Prop
  | _, [] => True
  | i, t :: ts => t.who = i ∧ Follows n (t.after n) ts

/-- How often `j` has passed its turn on. -/
def passes (j : ℕ) (ts : List Turn) : ℕ := ts.countP fun t => t.who == j && !t.keeps

/-- How often a turn was passed on. -/
def passed (ts : List Turn) : ℕ := ts.countP fun t => !t.keeps

/-- How often the turn has to be passed on from `i` to `k`. -/
def distance (n i k : ℕ) : ℕ := if i ≤ k then k - i else n + k - i

section Circle

variable {n i k : ℕ}

theorem next_lt (hn : 0 < n) (i : ℕ) : next n i < n := by
  rw [next]
  split <;> omega

theorem distance_lt (hi : i < n) (hk : k < n) : distance n i k < n := by
  rw [distance]
  split <;> omega

/-- Passing on brings the turn closer to everybody but the one who had it. -/
theorem distance_next (hi : i < n) (hk : k < n) (hne : i ≠ k) :
    distance n (next n i) k + 1 = distance n i k := by
  rw [distance, distance, next]
  split <;> split <;> split <;> omega

end Circle

variable {n i k : ℕ} {ts : List Turn}

/-- Somebody has the turn at any point. -/
theorem Follows.of_append {us : List Turn} (hfollows : Follows n i (ts ++ us)) (hi : i < n) :
    ∃ k < n, Follows n k us := by
  induction ts generalizing i with
  | nil => exact ⟨i, hi, hfollows⟩
  | cons t ts ih =>
    obtain ⟨rfl, hrest⟩ := hfollows
    refine ih hrest ?_
    rw [Turn.after]
    split
    · exact hi
    · exact next_lt (Nat.zero_lt_of_lt hi) _

theorem Follows.append_left {us : List Turn} (hfollows : Follows n i (ts ++ us)) :
    Follows n i ts := by
  induction ts generalizing i with
  | nil => exact trivial
  | cons t ts ih => exact ⟨hfollows.1, ih hfollows.2⟩

/-! ### Waiting -/

/-- As long as `k` has not had its turn, whoever has passed it on was closer to `k`. -/
theorem passes_le (hfollows : Follows n i ts) (hi : i < n) (hk : k < n)
    (hnever : ∀ t ∈ ts, t.who ≠ k) (j : ℕ) :
    passes j ts ≤ if distance n j k ≤ distance n i k then 1 else 0 := by
  induction ts generalizing i with
  | nil => exact Nat.zero_le _
  | cons t ts ih =>
    obtain ⟨rfl, hrest⟩ := hfollows
    rw [List.forall_mem_cons] at hnever
    rw [passes, List.countP_cons, ← passes]
    cases hkeeps : t.keeps with
    | true =>
      rw [Turn.after, if_pos hkeeps] at hrest
      simpa using ih hrest hi hnever.2
    | false =>
      rw [Turn.after, if_neg (by simp [hkeeps])] at hrest
      have hcloser := distance_next hi hk hnever.1
      have hothers := ih hrest (next_lt (Nat.zero_lt_of_lt hi) t.who) hnever.2
      by_cases hwho : t.who = j
      · -- `j` is not closer any more
        rw [hwho] at hothers hcloser ⊢
        rw [if_neg (by omega)] at hothers
        simp only [beq_self_eq_true, Bool.not_false, Bool.and_self, if_true, Nat.le_refl]
        omega
      · simp only [beq_iff_eq, hwho, Bool.not_false, Bool.and_true, if_false, Nat.add_zero]
        split at hothers <;> split <;> omega

/-- **Whoever waits is overtaken once at most** by everybody else. -/
theorem passes_le_one (hfollows : Follows n i ts) (hi : i < n) (hk : k < n)
    (hnever : ∀ t ∈ ts, t.who ≠ k) (j : ℕ) : passes j ts ≤ 1 := by
  refine Nat.le_trans (passes_le hfollows hi hk hnever j) ?_
  split <;> omega

/-- The turn is passed on at most as often as it takes to get to whoever waits. -/
theorem passed_le (hfollows : Follows n i ts) (hi : i < n) (hk : k < n)
    (hnever : ∀ t ∈ ts, t.who ≠ k) : passed ts ≤ distance n i k := by
  induction ts generalizing i with
  | nil => exact Nat.zero_le _
  | cons t ts ih =>
    obtain ⟨rfl, hrest⟩ := hfollows
    rw [List.forall_mem_cons] at hnever
    rw [passed, List.countP_cons, ← passed]
    cases hkeeps : t.keeps with
    | true =>
      rw [Turn.after, if_pos hkeeps] at hrest
      simpa using ih hrest hi hnever.2
    | false =>
      rw [Turn.after, if_neg (by simp [hkeeps])] at hrest
      have hcloser := distance_next hi hk hnever.1
      have hothers := ih hrest (next_lt (Nat.zero_lt_of_lt hi) t.who) hnever.2
      simp only [Bool.not_false, if_true]
      omega

theorem passed_lt (hfollows : Follows n i ts) (hi : i < n) (hk : k < n)
    (hnever : ∀ t ∈ ts, t.who ≠ k) : passed ts < n :=
  Nat.lt_of_le_of_lt (passed_le hfollows hi hk hnever) (distance_lt hi hk)

/-- **As many turns in a row as there are members, all passed on, are one of each.** -/
theorem all_asked (hfollows : Follows n i ts) (hi : i < n)
    (hpassed : ∀ t ∈ ts, t.keeps = false) (hlength : n ≤ ts.length) (hk : k < n) :
    ∃ t ∈ ts, t.who = k := by
  by_contra hnot
  have hnever : ∀ t ∈ ts, t.who ≠ k := fun t ht hwho => hnot ⟨t, ht, hwho⟩
  have hlt := passed_lt hfollows hi hk hnever
  have hall : passed ts = ts.length := by
    rw [passed, List.countP_eq_length]
    intro t ht
    rw [hpassed t ht]
    rfl
  omega

end RoundRobin
