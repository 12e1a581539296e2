import Mathlib.Tactic.Ring
import NftMarketplace.Lib.Outcome

/-! `Uint128`, `Decimal` and `Timestamp` of cosmwasm-std, with the points at which they abort. -/

namespace Cosmwasm

/-- The variants of `StdError` that the contract and the library calls it makes return. -/
inductive StdError where
  | genericErr (msg : String)
  | notFound (kind : String)
  | parseErr (targetType : String)
  | overflow (operation : String) (operand1 operand2 : Nat)
  deriving DecidableEq

@[ext] structure Uint128 where
  u128 : Nat
  lt : u128 < 2 ^ 128
  deriving DecidableEq

/-- A fixed-point number with eighteen fractional digits, `atomics / 10 ^ 18`. -/
@[ext] structure Decimal where
  atomics : Nat
  lt : atomics < 2 ^ 128
  deriving DecidableEq

def decimalFractional : Nat := 10 ^ 18

namespace Uint128

instance : LE Uint128 := ⟨fun a b => a.u128 ≤ b.u128⟩
instance : LT Uint128 := ⟨fun a b => a.u128 < b.u128⟩
instance (a b : Uint128) : Decidable (a ≤ b) := inferInstanceAs (Decidable (a.u128 ≤ b.u128))
instance (a b : Uint128) : Decidable (a < b) := inferInstanceAs (Decidable (a.u128 < b.u128))

theorem le_def {a b : Uint128} : a ≤ b ↔ a.u128 ≤ b.u128 := Iff.rfl

theorem lt_def {a b : Uint128} : a < b ↔ a.u128 < b.u128 := Iff.rfl

def zero : Uint128 := ⟨0, by decide⟩

@[simp] theorem zero_u128 : zero.u128 = 0 := rfl

def isZero (a : Uint128) : Prop := a.u128 = 0

instance (a : Uint128) : Decidable a.isZero := inferInstanceAs (Decidable (a.u128 = 0))

def narrow {ε : Type} (n : Nat) : Outcome ε Uint128 :=
  if h : n < 2 ^ 128 then .ok ⟨n, h⟩ else .error .panic

@[simp] theorem narrow_ok {ε : Type} {n : Nat} {a : Uint128} :
    (narrow n : Outcome ε Uint128) = .ok a ↔ a.u128 = n := by
  unfold narrow
  split
  · simp [Uint128.ext_iff, eq_comm]
  · next big => simp; intro same; exact big (same ▸ a.lt)

theorem narrow_succeeds {ε : Type} {n : Nat} (fits : n < 2 ^ 128) :
    ∃ a, (narrow n : Outcome ε Uint128) = .ok a ∧ a.u128 = n :=
  ⟨⟨n, fits⟩, narrow_ok.mpr rfl, rfl⟩

/-- `+` on `Uint128` aborts on overflow. -/
def add {ε : Type} (a b : Uint128) : Outcome ε Uint128 := narrow (a.u128 + b.u128)

def checkedAdd (a b : Uint128) : Except StdError Uint128 :=
  if h : a.u128 + b.u128 < 2 ^ 128 then .ok ⟨a.u128 + b.u128, h⟩
  else .error (.overflow "Add" a.u128 b.u128)

@[simp] theorem checkedAdd_ok {a b c : Uint128} : a.checkedAdd b = .ok c ↔ c.u128 = a.u128 + b.u128 := by
  unfold checkedAdd
  split
  · simp [Uint128.ext_iff, eq_comm]
  · next big => simp; intro same; exact big (same ▸ c.lt)

def checkedSub (a b : Uint128) : Except StdError Uint128 :=
  if b.u128 ≤ a.u128 then .ok ⟨a.u128 - b.u128, by have := a.lt; omega⟩
  else .error (.overflow "Sub" a.u128 b.u128)

@[simp] theorem checkedSub_ok {a b c : Uint128} : a.checkedSub b = .ok c ↔ c.u128 + b.u128 = a.u128 := by
  unfold checkedSub
  split
  · next le => simp only [Except.ok.injEq, Uint128.ext_iff]; omega
  · next gt => simp only [reduceCtorEq, false_iff]; omega

theorem checkedSub_succeeds (a b : Uint128) (le : b.u128 ≤ a.u128) :
    ∃ c, a.checkedSub b = .ok c ∧ c.u128 + b.u128 = a.u128 :=
  ⟨⟨a.u128 - b.u128, lt_of_le_of_lt (Nat.sub_le _ _) a.lt⟩, checkedSub_ok.mpr (Nat.sub_add_cancel le),
    Nat.sub_add_cancel le⟩

def multiplyRatio {ε : Type} (a : Uint128) (numerator denominator : Nat) : Outcome ε Uint128 :=
  if denominator = 0 then .error .panic else narrow (a.u128 * numerator / denominator)

@[simp] theorem multiplyRatio_ok {ε : Type} {a c : Uint128} {n d : Nat} :
    (a.multiplyRatio n d : Outcome ε Uint128) = .ok c ↔ d ≠ 0 ∧ c.u128 = a.u128 * n / d := by
  unfold multiplyRatio
  split <;> simp [*]

end Uint128

namespace Decimal

instance : LE Decimal := ⟨fun a b => a.atomics ≤ b.atomics⟩
instance : LT Decimal := ⟨fun a b => a.atomics < b.atomics⟩
instance (a b : Decimal) : Decidable (a ≤ b) := inferInstanceAs (Decidable (a.atomics ≤ b.atomics))
instance (a b : Decimal) : Decidable (a < b) := inferInstanceAs (Decidable (a.atomics < b.atomics))

theorem lt_def {a b : Decimal} : a < b ↔ a.atomics < b.atomics := Iff.rfl

def zero : Decimal := ⟨0, by decide⟩

def one : Decimal := ⟨10 ^ 18, by decide⟩

def isZero (a : Decimal) : Prop := a.atomics = 0

instance (a : Decimal) : Decidable a.isZero := inferInstanceAs (Decidable (a.atomics = 0))

def toString (a : Decimal) : String :=
  let whole := a.atomics / decimalFractional
  let fractional := a.atomics % decimalFractional
  if fractional = 0 then s!"{whole}"
  else
    let digits := (Nat.toDigits 10 fractional)
    let padded := List.replicate (18 - digits.length) '0' ++ digits
    s!"{whole}." ++ String.ofList (padded.reverse.dropWhile (· == '0')).reverse

end Decimal

/-- `floor (n * r)` for a decimal `r` given by its atomics. -/
def scale (n r : Nat) : Nat := n * r / decimalFractional

theorem scale_pos {n r : Nat} : 0 < scale n r ↔ decimalFractional ≤ n * r := by
  unfold scale
  rw [Nat.div_pos_iff]
  simp [decimalFractional]

theorem scale_mono {n m : Nat} (r : Nat) (le : n ≤ m) : scale n r ≤ scale m r :=
  Nat.div_le_div_right (Nat.mul_le_mul_right r le)

theorem scale_whole (n : Nat) : scale n decimalFractional = n :=
  Nat.mul_div_cancel _ (by decide)

theorem scale_le {n r : Nat} (rate : r ≤ decimalFractional) : scale n r ≤ n :=
  calc scale n r ≤ scale n decimalFractional := Nat.div_le_div_right (Nat.mul_le_mul_left n rate)
    _ = n := scale_whole n

/-- Two parts of an amount whose rates make up at most the whole. -/
theorem scale_add_le {n r r' : Nat} (rates : r + r' ≤ decimalFractional) : scale n r + scale n r' ≤ n :=
  calc scale n r + scale n r' ≤ scale n (r + r') := by
        unfold scale
        rw [Nat.mul_add]
        exact Nat.div_add_div_le_add_div
    _ ≤ n := scale_le rates

theorem scale_half (n : Nat) : scale n (5 * 10 ^ 17) = n / 2 := by
  unfold scale decimalFractional
  omega

theorem ten_scale_le {n r : Nat} (rate : 10 * r ≤ decimalFractional) : 10 * scale n r ≤ n := by
  refine Nat.le_of_mul_le_mul_right ?_ (show 0 < decimalFractional by decide)
  calc 10 * scale n r * decimalFractional = 10 * (scale n r * decimalFractional) := Nat.mul_assoc _ _ _
    _ ≤ 10 * (n * r) := Nat.mul_le_mul_left 10 (Nat.div_mul_le_self _ _)
    _ = n * (10 * r) := by ring
    _ ≤ n * decimalFractional := Nat.mul_le_mul_left n rate

namespace Uint128

def mul {ε : Type} (a : Uint128) (r : Decimal) : Outcome ε Uint128 :=
  a.multiplyRatio r.atomics decimalFractional

@[simp] theorem mul_ok {ε : Type} {a c : Uint128} {r : Decimal} :
    (a.mul r : Outcome ε Uint128) = .ok c ↔ c.u128 = scale a.u128 r.atomics := by
  simp [mul, scale, decimalFractional]

theorem mul_succeeds (ε : Type) (a : Uint128) (r : Decimal) (fits : scale a.u128 r.atomics < 2 ^ 128) :
    ∃ c, (a.mul r : Outcome ε Uint128) = .ok c ∧ c.u128 = scale a.u128 r.atomics :=
  ⟨⟨_, fits⟩, mul_ok.mpr rfl, rfl⟩

end Uint128

/-- Nanoseconds since the epoch, in a u64. -/
structure Timestamp where
  nanos : Nat
  fits : nanos < 2 ^ 64
  deriving DecidableEq

namespace Timestamp

/-- What a sum or a difference of u64 leaves in a build without overflow checks. -/
def wrapping (nanos : Nat) : Timestamp := ⟨nanos % 2 ^ 64, Nat.mod_lt _ (by decide)⟩

def seconds (t : Timestamp) : Nat := t.nanos / 10 ^ 9

def plusSeconds (t : Timestamp) (addition : Nat) : Timestamp := wrapping (addition * 10 ^ 9 + t.nanos)

def minusSeconds (t : Timestamp) (subtrahend : Nat) : Timestamp :=
  wrapping (2 ^ 64 - subtrahend * 10 ^ 9 % 2 ^ 64 + t.nanos)

theorem plusSeconds_seconds {t : Timestamp} {n : Nat} (room : t.nanos + n * 10 ^ 9 < 2 ^ 64) :
    (t.plusSeconds n).seconds = t.seconds + n := by
  simp only [seconds, plusSeconds, wrapping]
  omega

theorem minusSeconds_seconds {t : Timestamp} {n : Nat} (late : n ≤ t.seconds) :
    (t.minusSeconds n).seconds = t.seconds - n := by
  have bound := t.fits
  simp only [seconds, minusSeconds, wrapping] at late ⊢
  omega

theorem minusSeconds_wraps {t : Timestamp} {n : Nat} (early : t.seconds < n) (small : n * 10 ^ 9 < 2 ^ 64) :
    (t.minusSeconds n).seconds = (2 ^ 64 + t.nanos - n * 10 ^ 9) / 10 ^ 9 := by
  simp only [seconds, minusSeconds, wrapping] at early ⊢
  omega

end Timestamp

end Cosmwasm
