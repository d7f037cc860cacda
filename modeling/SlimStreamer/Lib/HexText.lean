import Mathlib.Data.List.Basic
import Mathlib.Tactic.IntervalCases

/-!
# Octets as hexadecimal text

Numbers written in hexadecimal digits, filled up with zeros to two characters, and octets read back
from a text of such pairs that are a blank apart.

* `readOctets_pairs` — reading what was written, whatever follows that is no digit;
* `length_pairs` — three characters for each octet;
* `flatMap_blocks` — a list is what its blocks of one width are.
-/

namespace HexText

/-- A number in hexadecimal digits, at least two of them. -/
def pair (n : ℕ) : List Char := (Nat.toDigits 16 n).leftpad 2 '0'

/-- Octets, each followed by a blank. -/
def pairs (bs : List UInt8) : List Char := bs.flatMap fun b => pair b.toNat ++ [' ']

def digitValue (c : Char) : Option ℕ := (List.range 16).find? fun d => Nat.digitChar d == c

/-- The octets at the beginning of a text. -/
def readOctets : List Char → List UInt8
  | c :: d :: _ :: rest =>
    match digitValue c, digitValue d with
    | some high, some low => UInt8.ofNat (16 * high + low) :: readOctets rest
    | _, _ => []
  | _ => []

theorem digitValue_digitChar {d : ℕ} (h : d < 16) : digitValue (Nat.digitChar d) = some d := by
  interval_cases d <;> rfl

/-- Below `256` two digits are enough. -/
theorem pair_eq {n : ℕ} (h : n < 256) :
    pair n = [Nat.digitChar (n / 16), Nat.digitChar (n % 16)] := by
  by_cases hn : n < 16
  · rw [pair, Nat.toDigits_of_lt_base hn, Nat.div_eq_of_lt hn, Nat.mod_eq_of_lt hn]
    rfl
  · rw [pair, Nat.toDigits_of_base_le (by decide) (by omega), Nat.toDigits_of_lt_base (by omega)]
    rfl

/-- A character that is no digit ends the reading. -/
theorem readOctets_of_not_digit {c : Char} (h : digitValue c = none) (rest : List Char) :
    readOctets (c :: rest) = [] := by
  cases rest with
  | nil => rfl
  | cons d rest =>
    cases rest with
    | nil => rfl
    | cons e rest => rw [readOctets, h]

@[simp] theorem pairs_cons (b : UInt8) (bs : List UInt8) :
    pairs (b :: bs) = pair b.toNat ++ [' '] ++ pairs bs := rfl

/-- **Reading back** what was written. -/
theorem readOctets_pairs (bs : List UInt8) (rest : List Char) :
    readOctets (pairs bs ++ rest) = bs ++ readOctets rest := by
  induction bs with
  | nil => rfl
  | cons b bs ih =>
    have hb : b.toNat < 256 := b.toNat_lt
    have hvalue : UInt8.ofNat (16 * (b.toNat / 16) + b.toNat % 16) = b := by
      rw [Nat.div_add_mod]
      exact UInt8.ofNat_toNat
    simp only [pairs_cons, pair_eq hb, List.cons_append, List.nil_append, readOctets,
      digitValue_digitChar (show b.toNat / 16 < 16 by omega),
      digitValue_digitChar (show b.toNat % 16 < 16 by omega), hvalue, ih]

@[simp] theorem length_pairs (bs : List UInt8) : (pairs bs).length = 3 * bs.length := by
  induction bs with
  | nil => rfl
  | cons b bs ih =>
    simp only [pairs_cons, pair_eq b.toNat_lt, List.length_append, List.length_cons, List.length_nil, ih]
    omega

/-- Neither digits nor blanks are among the separators of a text. -/
theorem digitChar_ne {c : Char} (h : digitValue c = none) {d : ℕ} (hd : d < 16) :
    Nat.digitChar d ≠ c := by
  rintro rfl
  rw [digitValue_digitChar hd] at h
  cases h

theorem not_mem_pair {c : Char} (h : digitValue c = none) {n : ℕ} (hn : n < 256) : c ∉ pair n := by
  rw [pair_eq hn]
  simp [(digitChar_ne h (show n / 16 < 16 by omega)).symm,
    (digitChar_ne h (show n % 16 < 16 by omega)).symm]

theorem not_mem_pairs {c : Char} (h : digitValue c = none) (hc : c ≠ ' ') (bs : List UInt8) :
    c ∉ pairs bs := by
  induction bs with
  | nil => simp [pairs]
  | cons b bs ih =>
    rw [pairs_cons, List.mem_append, List.mem_append]
    rintro ((hpair | hblank) | hrest)
    · exact not_mem_pair h b.toNat_lt hpair
    · exact hc (List.mem_singleton.mp hblank)
    · exact ih hrest

/-- The first blocks of a list, one after the other, are its beginning. -/
theorem flatMap_blocks {α : Type*} (width n : ℕ) (l : List α) :
    (List.range n).flatMap (fun r => (l.drop (width * r)).take width) = l.take (width * n) := by
  induction n with
  | zero => simp
  | succ n ih =>
    rw [List.range_succ, List.flatMap_append, ih, Nat.mul_succ, List.take_add]
    simp

end HexText
