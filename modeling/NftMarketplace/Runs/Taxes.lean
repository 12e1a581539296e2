import NftMarketplace.Lib.CappedTax
import NftMarketplace.Runs.Replay

/-!
What the deduction of the tax leaves of an amount: enough that the tax the chain charges can be paid
as well, and at most two units less than that.
-/

namespace Cosmwasm

def Decimal.value (r : Decimal) : ℚ := r.atomics / decimalFractional

end Cosmwasm

namespace NftMarketplace
open Cosmwasm CappedTax

/-- The tax that the chain charges on a transfer of `n`. -/
def chainTax (rate : Decimal) (cap : Uint128) (n : ℕ) : ℕ := min ⌊n * rate.value⌋₊ cap.u128

theorem chainTax_eq (rate : Decimal) (cap : Uint128) (n : ℕ) :
    chainTax rate cap n = levy decimalFractional rate.atomics cap.u128 n :=
  (levy_eq_floor n).symm

theorem netOf_eq (rate cap gross : ℕ) : netOf rate cap gross = net decimalFractional rate cap gross := rfl

section
variable {querier : Querier} {rate : Decimal} {cap : Uint128}

/-- The deduction succeeds, and with the chain's tax on what it leaves it neither exceeds the amount nor
falls short of it by more than two. -/
theorem deduct_tax_covers (coin : Coin) (rateRead : querier.taxRate = .ok rate) (small : rate ≤ Decimal.one)
    (capRead : querier.taxCap coin.denom = .ok cap) :
    ∃ n : Uint128, deductTax querier coin = .ok { coin with amount := n } ∧
      n.u128 = max ⌊coin.amount.u128 / (1 + rate.value)⌋₊ (coin.amount.u128 - min coin.amount.u128 cap.u128) ∧
      n.u128 + chainTax rate cap n.u128 ≤ coin.amount.u128 ∧
      coin.amount.u128 ≤ n.u128 + chainTax rate cap n.u128 + 2 ∧
      (cap.u128 < coin.amount.u128 - ⌊coin.amount.u128 / (1 + rate.value)⌋₊ →
        n.u128 + chainTax rate cap n.u128 = coin.amount.u128) ∧
      ∀ more net, more.denom = coin.denom → coin.amount ≤ more.amount → deductTax querier more = .ok net →
        n ≤ net.amount := by
  have positive : 0 < decimalFractional := by decide
  have answered {coin' net : Coin} (denom : coin'.denom = coin.denom) (taxed : deductTax querier coin' = .ok net) :
      net.denom = coin.denom ∧ net.amount.u128 =
        CappedTax.net decimalFractional rate.atomics cap.u128 coin'.amount.u128 := by
    obtain ⟨rate', cap', rateRead', capRead', same, amount⟩ := deductTax_ok taxed
    rw [denom, capRead] at capRead'
    obtain rfl := Except.ok.inj (rateRead.symm.trans rateRead')
    obtain rfl := Except.ok.inj capRead'
    exact ⟨same.trans denom, amount.trans (netOf_eq _ _ _)⟩
  obtain ⟨⟨denom, n⟩, taxed⟩ := deductTax_succeeds coin ⟨⟨rate, rateRead, small⟩, ⟨cap, capRead⟩⟩
  obtain ⟨same, amount⟩ := answered rfl taxed
  dsimp only at same amount
  have base : ⌊coin.amount.u128 / (1 + rate.value)⌋₊ = CappedTax.base decimalFractional rate.atomics coin.amount.u128 :=
    (base_eq_floor positive).symm
  refine ⟨n, same ▸ taxed, ?_⟩
  rw [chainTax_eq, base, amount]
  refine ⟨net_eq_max, net_add_levy_le positive, le_net_add_levy positive small, net_add_levy_of_capped positive, ?_⟩
  intro more net denom le taxed'
  obtain ⟨_, amount'⟩ := answered denom taxed'
  rw [Uint128.le_def, amount, amount']
  exact net_mono le

end

theorem deduct_tax_covers_thousand :
    ∃ n : Uint128, deductTax Demo.querier { denom := "uusd", amount := Demo.amount 1000 } =
        .ok { denom := "uusd", amount := n } ∧
      n.u128 + chainTax (Demo.percent 1) (Demo.amount 1000000) n.u128 ≤ 1000 ∧
      1000 ≤ n.u128 + chainTax (Demo.percent 1) (Demo.amount 1000000) n.u128 + 2 := by
  have rate : Demo.querier.taxRate = .ok (Demo.percent 1) := rfl
  have cap : Demo.querier.taxCap "uusd" = .ok (Demo.amount 1000000) := rfl
  obtain ⟨n, taxed, _, covered, tight, _⟩ :=
    deduct_tax_covers { denom := "uusd", amount := Demo.amount 1000 } rate (by decide) cap
  exact ⟨n, taxed, covered, tight⟩

end NftMarketplace
