import Mathlib.Data.List.Basic
import Mathlib.Data.UInt
import Mathlib.Tactic.Ring

/-!
# Numbers stored as octets

The value of an octet string in either byte order, the octet string of a number, and the
byte swap that turns the one order into the other.  A program on a little-endian host that
loads a field with the host order and swaps it reads the big-endian value
(`byteSwap_littleEndian`), whatever the width of the field is.
-/

namespace Octets

def littleEndian : List UInt8 → ℕ
  | [] => 0
  | b :: bs => b.toNat + 256 * littleEndian bs

def bigEndian (bs : List UInt8) : ℕ := littleEndian bs.reverse

/-- The `width` low octets of a number, least significant first. -/
def toLittleEndian : ℕ → ℕ → List UInt8
  | 0, _ => []
  | width + 1, n => UInt8.ofNat n :: toLittleEndian width (n / 256)

def toBigEndian (width n : ℕ) : List UInt8 := (toLittleEndian width n).reverse

/-- What `ntohs` and `ntohl` compute on a little-endian host. -/
def byteSwap (width n : ℕ) : ℕ := bigEndian (toLittleEndian width n)

@[simp] theorem toLittleEndian_length (width n : ℕ) :
    (toLittleEndian width n).length = width := by
  induction width generalizing n with
  | zero => rfl
  | succ width ih => simp only [toLittleEndian, List.length_cons, ih]

@[simp] theorem toBigEndian_length (width n : ℕ) : (toBigEndian width n).length = width := by
  rw [toBigEndian, List.length_reverse, toLittleEndian_length]

theorem littleEndian_lt (bs : List UInt8) : littleEndian bs < 256 ^ bs.length := by
  induction bs with
  | nil => decide
  | cons b bs ih =>
    have hb := b.toNat_lt
    rw [littleEndian, List.length_cons, pow_succ]
    omega

/-- The width of a number bounds what swapping it gives. -/
theorem byteSwap_lt (width n : ℕ) : byteSwap width n < 256 ^ width := by
  have h := littleEndian_lt (toLittleEndian width n).reverse
  rwa [List.length_reverse, toLittleEndian_length] at h

theorem littleEndian_toLittleEndian (width n : ℕ) (h : n < 256 ^ width) :
    littleEndian (toLittleEndian width n) = n := by
  induction width generalizing n with
  | zero =>
    rw [pow_zero] at h
    show 0 = n
    omega
  | succ width ih =>
    rw [pow_succ] at h
    have hdiv : n / 256 < 256 ^ width := Nat.div_lt_of_lt_mul (by rwa [Nat.mul_comm] at h)
    rw [toLittleEndian, littleEndian, ih (n / 256) hdiv, UInt8.toNat_ofNat']
    omega

theorem bigEndian_toBigEndian (width n : ℕ) (h : n < 256 ^ width) :
    bigEndian (toBigEndian width n) = n := by
  rw [bigEndian, toBigEndian, List.reverse_reverse, littleEndian_toLittleEndian width n h]

theorem toLittleEndian_littleEndian (bs : List UInt8) :
    toLittleEndian bs.length (littleEndian bs) = bs := by
  induction bs with
  | nil => rfl
  | cons b bs ih =>
    have hb := b.toNat_lt
    have hdiv : (b.toNat + 256 * littleEndian bs) / 256 = littleEndian bs := by omega
    have hmod : (b.toNat + 256 * littleEndian bs) % 2 ^ 8 = b.toNat := by omega
    rw [List.length_cons, toLittleEndian, littleEndian, hdiv, ih]
    congr 1
    apply UInt8.toNat_inj.mp
    rw [UInt8.toNat_ofNat', hmod]

/-- **Swapping and storing in host order stores the big-endian octets.** -/
theorem toLittleEndian_byteSwap (width n : ℕ) :
    toLittleEndian width (byteSwap width n) = toBigEndian width n := by
  have h := toLittleEndian_littleEndian (toLittleEndian width n).reverse
  rwa [List.length_reverse, toLittleEndian_length] at h

theorem byteSwap_byteSwap {width n : ℕ} (h : n < 256 ^ width) :
    byteSwap width (byteSwap width n) = n := by
  show bigEndian (toLittleEndian width (byteSwap width n)) = n
  rw [toLittleEndian_byteSwap, bigEndian_toBigEndian width n h]

/-- **Loading in host order and swapping reads the big-endian value.** -/
theorem byteSwap_littleEndian {width : ℕ} (bs : List UInt8) (h : bs.length = width) :
    byteSwap width (littleEndian bs) = bigEndian bs := by
  subst h
  rw [byteSwap, toLittleEndian_littleEndian]

end Octets
