import Mathlib.Algebra.Order.Group.Nat

/-!
Numbers as big-endian bytes of a fixed width. Among the numbers that fit, the bytes read back, and their
lexicographic order is the order of the numbers.
-/

namespace BigEndian

/-- The lowest `width` digits of `n` to the base 256, the most significant first. -/
def toBytes : Nat → Nat → List UInt8
  | 0, _ => []
  | width + 1, n => UInt8.ofNat (n / 256 ^ width) :: toBytes width (n % 256 ^ width)

def ofBytes : List UInt8 → Nat
  | [] => 0
  | b :: bs => b.toNat * 256 ^ bs.length + ofBytes bs

@[simp] theorem length_toBytes (width n : Nat) : (toBytes width n).length = width := by
  induction width generalizing n with
  | zero => rfl
  | succ width ih => simp [toBytes, ih]

theorem place_pos (width : Nat) : 0 < 256 ^ width := Nat.pow_pos (by decide)

theorem leading_lt {width n : Nat} (fits : n < 256 ^ (width + 1)) : n / 256 ^ width < 256 := by
  rw [pow_succ] at fits
  exact Nat.div_lt_of_lt_mul fits

theorem leading_toNat {width n : Nat} (fits : n < 256 ^ (width + 1)) :
    (UInt8.ofNat (n / 256 ^ width)).toNat = n / 256 ^ width :=
  UInt8.toNat_ofNat_of_lt' (leading_lt fits)

theorem ofBytes_toBytes {width n : Nat} (fits : n < 256 ^ width) : ofBytes (toBytes width n) = n := by
  induction width generalizing n with
  | zero =>
    obtain rfl : n = 0 := by simpa using fits
    rfl
  | succ width ih =>
    have rest : n % 256 ^ width < 256 ^ width := Nat.mod_lt _ (place_pos width)
    rw [toBytes, ofBytes, length_toBytes, leading_toNat fits, ih rest]
    exact Nat.div_add_mod' n (256 ^ width)

theorem toBytes_inj {width m n : Nat} (first : m < 256 ^ width) (second : n < 256 ^ width) :
    toBytes width m = toBytes width n ↔ m = n := by
  constructor
  · intro same
    rw [← ofBytes_toBytes first, same, ofBytes_toBytes second]
  · rintro rfl
    rfl

theorem lt_iff_div_mod {m n k : Nat} (positive : 0 < k) :
    m < n ↔ m / k < n / k ∨ m / k = n / k ∧ m % k < n % k := by
  have split_m := Nat.div_add_mod m k
  have split_n := Nat.div_add_mod n k
  have rest_m := Nat.mod_lt m positive
  have rest_n := Nat.mod_lt n positive
  rcases Nat.lt_trichotomy (m / k) (n / k) with less | same | more
  · have step : k * (m / k) + k ≤ k * (n / k) := by
      rw [← Nat.mul_succ]
      exact Nat.mul_le_mul_left k less
    simp only [less, true_or, iff_true]
    omega
  · rw [same] at split_m
    simp only [same, lt_irrefl, false_or, true_and]
    omega
  · have step : k * (n / k) + k ≤ k * (m / k) := by
      rw [← Nat.mul_succ]
      exact Nat.mul_le_mul_left k more
    simp only [more.not_gt, more.ne', false_and, or_self, iff_false]
    omega

/-- Bytes of one width compare like the numbers. -/
theorem toBytes_lt_iff {width m n : Nat} (first : m < 256 ^ width) (second : n < 256 ^ width) :
    toBytes width m < toBytes width n ↔ m < n := by
  induction width generalizing m n with
  | zero =>
    obtain rfl : m = 0 := by simpa using first
    obtain rfl : n = 0 := by simpa using second
    simp [toBytes]
  | succ width ih =>
    have positive := place_pos width
    rw [lt_iff_div_mod positive, toBytes, toBytes, List.cons_lt_cons_iff, UInt8.lt_iff_toNat_lt, ← UInt8.toNat_inj,
      leading_toNat first, leading_toNat second, ih (Nat.mod_lt _ positive) (Nat.mod_lt _ positive)]

end BigEndian
