import Mathlib.Algebra.Order.Floor.Semifield
import Mathlib.Data.Rat.Floor
import Mathlib.Tactic.FieldSimp
import Mathlib.Tactic.Ring

/-!
Transfers under a proportional tax with a cap. A rate is a fixed-point number, `rate` over `unit`. Who
has the gross amount `a` and must pay the tax out of it sends `net unit rate cap a`, and the tax on
that is `levy unit rate cap` of it.
-/

namespace CappedTax
variable {unit rate cap a : ℕ}

def levy (unit rate cap n : ℕ) : ℕ := min (n * rate / unit) cap

/-- The gross amount over one plus the rate, rounded down. -/
def base (unit rate a : ℕ) : ℕ := a * unit / (unit + rate)

def net (unit rate cap a : ℕ) : ℕ := a - min (a - base unit rate a) cap

/-! ### The exact values -/

theorem base_eq_floor (positive : 0 < unit) : base unit rate a = ⌊(a : ℚ) / (1 + rate / unit)⌋₊ := by
  have nonzero : (unit : ℚ) ≠ 0 := Nat.cast_ne_zero.mpr positive.ne'
  have exact : (a : ℚ) / (1 + rate / unit) = (a * unit : ℕ) / (unit + rate : ℕ) := by
    push_cast
    field_simp
  rw [exact, Nat.floor_div_eq_div, base]

theorem levy_eq_floor (n : ℕ) : levy unit rate cap n = min ⌊(n : ℚ) * (rate / unit)⌋₊ cap := by
  have exact : (n : ℚ) * (rate / unit) = (n * rate : ℕ) / (unit : ℕ) := by
    push_cast
    ring
  rw [exact, Nat.floor_div_eq_div, levy]

/-! ### Without the cap -/

theorem base_le (unit rate a : ℕ) : base unit rate a ≤ a :=
  Nat.div_le_of_le_mul (Nat.mul_comm a unit ▸ Nat.mul_le_mul_right a (Nat.le_add_right unit rate))

theorem base_mono (unit rate : ℕ) : Monotone (base unit rate) := fun _ _ le =>
  Nat.div_le_div_right (Nat.mul_le_mul_right unit le)

theorem base_add_le (unit rate a : ℕ) : base unit rate a + base unit rate a * rate / unit ≤ a := by
  have below : base unit rate a * (unit + rate) ≤ a * unit := Nat.div_mul_le_self _ _
  have covered : base unit rate a * rate / unit ≤ a - base unit rate a := by
    apply Nat.div_le_of_le_mul
    rw [Nat.mul_comm, Nat.mul_sub, Nat.mul_comm unit a, Nat.mul_comm unit (base unit rate a), Nat.mul_comm rate]
    rw [Nat.mul_add] at below
    omega
  have le := base_le unit rate a
  omega

/-- Each of the two divisions loses less than one unit, and the tax on the first loss is less than one more. -/
theorem le_base_add (a : ℕ) (positive : 0 < unit) (small : rate ≤ unit) :
    a ≤ base unit rate a + base unit rate a * rate / unit + 2 := by
  have above : a * unit < (base unit rate a + 1) * (unit + rate) := by
    rw [Nat.mul_comm (base unit rate a + 1)]
    exact Nat.lt_mul_div_succ _ (by omega)
  have tax : base unit rate a * rate < unit * (base unit rate a * rate / unit + 1) := Nat.lt_mul_div_succ _ positive
  have short : a * unit < (base unit rate a + base unit rate a * rate / unit + 3) * unit := by
    calc a * unit < base unit rate a * unit + base unit rate a * rate + unit + rate := by
          convert above using 1
          ring
      _ ≤ base unit rate a * unit + unit * (base unit rate a * rate / unit + 1) + unit + unit := by omega
      _ = (base unit rate a + base unit rate a * rate / unit + 3) * unit := by ring
  have lt := Nat.lt_of_mul_lt_mul_right short
  omega

/-! ### With the cap -/

theorem net_of_uncapped (room : a - base unit rate a ≤ cap) :
    net unit rate cap a = base unit rate a := by
  have le := base_le unit rate a
  rw [net, Nat.min_eq_left room]
  omega

theorem net_of_capped (limited : cap < a - base unit rate a) : net unit rate cap a = a - cap := by
  rw [net, Nat.min_eq_right limited.le]

theorem net_eq_max : net unit rate cap a = max (base unit rate a) (a - min a cap) := by
  have le := base_le unit rate a
  unfold net
  omega

theorem net_mono : Monotone (net unit rate cap) := by
  intro a b le
  rw [net_eq_max, net_eq_max]
  have mono := base_mono unit rate le
  omega

/-- Where the cap limits what is held back, the tax is the cap as well. -/
theorem net_add_levy_of_capped (positive : 0 < unit) (limited : cap < a - base unit rate a) :
    net unit rate cap a + levy unit rate cap (net unit rate cap a) = a := by
  rw [net_of_capped limited]
  have above : a * unit < (a - cap) * (unit + rate) := by
    rw [← Nat.div_lt_iff_lt_mul (Nat.add_pos_left positive rate)]
    exact Nat.lt_sub_of_add_lt (Nat.add_comm cap _ ▸ Nat.add_lt_of_lt_sub limited)
  have reached : cap ≤ (a - cap) * rate / unit := by
    rw [Nat.le_div_iff_mul_le positive]
    have split : a * unit = (a - cap) * unit + cap * unit := by
      rw [← Nat.add_mul]
      congr 1
      omega
    rw [Nat.mul_add] at above
    omega
  rw [levy, Nat.min_eq_right reached]
  omega

theorem net_add_levy_le (positive : 0 < unit) : net unit rate cap a + levy unit rate cap (net unit rate cap a) ≤ a := by
  by_cases room : a - base unit rate a ≤ cap
  · have covered := base_add_le unit rate a
    rw [net_of_uncapped room, levy]
    omega
  · exact (net_add_levy_of_capped positive (Nat.lt_of_not_le room)).le

theorem le_net_add_levy (positive : 0 < unit) (small : rate ≤ unit) :
    a ≤ net unit rate cap a + levy unit rate cap (net unit rate cap a) + 2 := by
  by_cases room : a - base unit rate a ≤ cap
  · have tight := le_base_add a positive small
    rw [net_of_uncapped room, levy]
    omega
  · rw [net_add_levy_of_capped positive (Nat.lt_of_not_le room)]
    omega

end CappedTax
