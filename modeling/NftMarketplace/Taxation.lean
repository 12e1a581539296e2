import NftMarketplace.Msg

/-! The Terra tax: what the contract holds back of a transfer so that the chain can charge it. -/

namespace NftMarketplace
open Cosmwasm Outcome

def computeTax (querier : Querier) (coin : Coin) : Result Uint128 := do
  let taxRate ← std querier.taxRate
  let taxCap ← std (querier.taxCap coin.denom)
  let fraction : Uint128 := ⟨decimalFractional, by decide⟩
  let denominator ← (← fraction.mul taxRate).add fraction
  let net ← coin.amount.multiplyRatio decimalFractional denominator.u128
  let tax ← std (coin.amount.checkedSub net)
  return if tax ≤ taxCap then tax else taxCap

def deductTax (querier : Querier) (coin : Coin) : Result Coin := do
  let taxAmount ← computeTax querier coin
  let amount ← std (coin.amount.checkedSub taxAmount)
  return { coin with amount }

/-- The part of `gross` that is left for the recipient at tax rate `rate` and tax cap `cap`. -/
def netOf (rate cap gross : Nat) : Nat :=
  gross - min (gross - gross * decimalFractional / (decimalFractional + rate)) cap

end NftMarketplace
