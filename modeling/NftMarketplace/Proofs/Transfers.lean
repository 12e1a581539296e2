import NftMarketplace.Contract.Settlement

/-! Taxes, transfers of coins and mints: what they amount to, and when they succeed. -/

namespace NftMarketplace
open Cosmwasm Outcome

theorem deductTax_ok {querier : Querier} {coin net : Coin} (h : deductTax querier coin = .ok net) :
    ∃ rate cap, querier.taxRate = .ok rate ∧ querier.taxCap coin.denom = .ok cap ∧ net.denom = coin.denom ∧
      net.amount.u128 = netOf rate.atomics cap.u128 coin.amount.u128 := by
  unfold deductTax computeTax at h
  obtain ⟨tax, computed, h⟩ := bind_ok h
  obtain ⟨amount, kept, h⟩ := bind_ok h
  obtain rfl := pure_ok.mp h
  obtain ⟨rate, rateRead, computed⟩ := bind_ok computed
  obtain ⟨cap, capRead, computed⟩ := bind_ok computed
  obtain ⟨scaled, product, computed⟩ := bind_ok computed
  obtain ⟨denominator, sum, computed⟩ := bind_ok computed
  obtain ⟨after, ratio, computed⟩ := bind_ok computed
  obtain ⟨uncapped, difference, computed⟩ := bind_ok computed
  obtain rfl := pure_ok.mp computed
  simp only [std_ok, Uint128.checkedSub_ok, Uint128.multiplyRatio_ok, Uint128.mul_ok, Uint128.add,
    Uint128.narrow_ok, Uint128.le_def] at rateRead capRead product sum ratio difference kept
  refine ⟨rate, cap, rateRead, capRead, rfl, ?_⟩
  have scale : denominator.u128 = decimalFractional + rate.atomics := by
    rw [sum, product, scale, Nat.mul_div_cancel_left _ (by decide), Nat.add_comm]
  change amount.u128 = _
  rw [netOf, ← scale, ← ratio.2]
  split at kept <;> omega

/-- What a transfer in `denom` needs to be told: a tax rate of at most one, and a tax cap. -/
structure Answers (querier : Querier) (denom : String) : Prop where
  rate : ∃ rate, querier.taxRate = .ok rate ∧ rate ≤ Decimal.one
  cap : ∃ cap, querier.taxCap denom = .ok cap

theorem computeTax_succeeds {querier : Querier} {coin : Coin} (answers : Answers querier coin.denom) :
    ∃ tax, computeTax querier coin = .ok tax ∧ tax.u128 ≤ coin.amount.u128 := by
  obtain ⟨rate, rateRead, small⟩ := answers.rate
  obtain ⟨cap, capRead⟩ := answers.cap
  have small : rate.atomics ≤ decimalFractional := small
  have room : rate.atomics + decimalFractional < 2 ^ 128 := by
    unfold decimalFractional at *
    omega
  have below : coin.amount.u128 * decimalFractional / (rate.atomics + decimalFractional) ≤ coin.amount.u128 :=
    Nat.div_le_of_le_mul (by rw [Nat.mul_comm]; exact Nat.mul_le_mul_right _ (Nat.le_add_left _ _))
  let fraction : Uint128 := ⟨decimalFractional, by decide⟩
  obtain ⟨scaled, product, scaledIs⟩ : ∃ scaled : Uint128, (fraction.mul rate : Result Uint128) = .ok scaled ∧
      scaled.u128 = rate.atomics := by
    refine ⟨⟨rate.atomics, rate.lt⟩, ?_, rfl⟩
    rw [Uint128.mul_ok, scale, Nat.mul_div_cancel_left _ (by decide)]
  obtain ⟨denominator, sum, denominatorIs⟩ : ∃ denominator, (scaled.add fraction : Result Uint128) = .ok denominator ∧
      denominator.u128 = rate.atomics + decimalFractional :=
    Uint128.narrow_succeeds (scaledIs ▸ room) |>.imp fun _ h => ⟨h.1, by rw [h.2, scaledIs]⟩
  obtain ⟨net, ratio, netIs⟩ : ∃ net,
      (coin.amount.multiplyRatio decimalFractional denominator.u128 : Result Uint128) = .ok net ∧
      net.u128 ≤ coin.amount.u128 := by
    rw [← denominatorIs] at below
    refine ⟨⟨coin.amount.u128 * decimalFractional / denominator.u128, lt_of_le_of_lt below coin.amount.lt⟩, ?_, below⟩
    rw [Uint128.multiplyRatio_ok]
    refine ⟨?_, rfl⟩
    rw [denominatorIs, decimalFractional]
    omega
  obtain ⟨tax, difference⟩ : ∃ tax, coin.amount.checkedSub net = .ok tax :=
    ⟨⟨coin.amount.u128 - net.u128, lt_of_le_of_lt (Nat.sub_le _ _) coin.amount.lt⟩,
      Uint128.checkedSub_ok.mpr (Nat.sub_add_cancel netIs)⟩
  refine ⟨if tax ≤ cap then tax else cap, ?_, ?_⟩
  · refine bind_ok_iff.mpr ⟨rate, std_ok.mpr rateRead, bind_ok_iff.mpr ⟨cap, std_ok.mpr capRead, ?_⟩⟩
    refine bind_ok_iff.mpr ⟨scaled, product, bind_ok_iff.mpr ⟨denominator, sum, ?_⟩⟩
    exact bind_ok_iff.mpr ⟨net, ratio, bind_ok_iff.mpr ⟨tax, std_ok.mpr difference, rfl⟩⟩
  · rw [Uint128.checkedSub_ok] at difference
    split
    · omega
    · next high =>
      rw [Uint128.le_def] at high
      omega

theorem deductTax_succeeds {querier : Querier} (coin : Coin) (answers : Answers querier coin.denom) :
    ∃ net, deductTax querier coin = .ok net := by
  obtain ⟨tax, computed, covered⟩ := computeTax_succeeds answers
  refine bind_succeeds tax computed (bind_succeeds ⟨coin.amount.u128 - tax.u128, ?_⟩ (std_ok.mpr ?_) ⟨_, rfl⟩)
  · exact lt_of_le_of_lt (Nat.sub_le _ _) coin.amount.lt
  · rw [Uint128.checkedSub_ok]
    exact Nat.sub_add_cancel covered

/-- A transfer of `amount` to `dest`, less the tax asked of `querier`. -/
def TaxedSend (querier : Querier) (config : Config) (dest : String) (amount : Uint128) (msg : CosmosMsg) : Prop :=
  ∃ net rate cap, msg = .bankSend dest [{ denom := config.denom, amount := net }] amount ∧
    querier.taxRate = .ok rate ∧ querier.taxCap config.denom = .ok cap ∧
    net.u128 = netOf rate.atomics cap.u128 amount.u128

theorem TaxedSend.gross {querier : Querier} {config : Config} {dest : String} {amount : Uint128} {msg : CosmosMsg}
    (send : TaxedSend querier config dest amount msg) : msg.gross = amount.u128 := by
  obtain ⟨net, rate, cap, rfl, _⟩ := send
  rfl

theorem sendTo_ok {deps : Deps} {config : Config} {dest : String} {amount : Uint128} {msg : CosmosMsg}
    (h : sendTo deps config dest amount = .ok msg) : TaxedSend deps.querier config dest amount msg := by
  obtain ⟨coin, taxed, h⟩ := bind_ok h
  obtain rfl := pure_ok.mp h
  obtain ⟨rate, cap, rateRead, capRead, denom, net⟩ := deductTax_ok taxed
  cases coin with
  | mk denomination after =>
    obtain rfl : denomination = config.denom := denom
    exact ⟨after, rate, cap, rfl, rateRead, capRead, net⟩

theorem sendTo_succeeds {deps : Deps} {config : Config} (dest : String) (amount : Uint128)
    (answers : Answers deps.querier config.denom) : ∃ msg, sendTo deps config dest amount = .ok msg := by
  obtain ⟨net, taxed⟩ := deductTax_succeeds { denom := config.denom, amount } answers
  exact bind_succeeds net taxed ⟨_, rfl⟩

theorem sendToRaw_succeeds {deps : Deps} {config : Config} {dest : CanonicalAddr} {human : Addr} (amount : Uint128)
    (answers : Answers deps.querier config.denom) (read : deps.api.addrHumanize dest = .ok human) :
    ∃ msg, sendToRaw deps config dest amount = .ok msg :=
  bind_succeeds human (std_ok.mpr read) (sendTo_succeeds human amount answers)

theorem sendToRaw_ok {deps : Deps} {config : Config} {dest : CanonicalAddr} {amount : Uint128} {msg : CosmosMsg}
    (h : sendToRaw deps config dest amount = .ok msg) :
    ∃ human, deps.api.addrHumanize dest = .ok human ∧ TaxedSend deps.querier config human amount msg := by
  obtain ⟨human, read, h⟩ := bind_ok h
  exact ⟨human, std_ok.mp read, sendTo_ok h⟩

theorem TaxedSend.paid {querier : Querier} {config : Config} {dest : String} {amount : Uint128} {msg : CosmosMsg}
    (send : TaxedSend querier config dest amount msg) : msg.paid = some (dest, amount.u128) := by
  obtain ⟨net, rate, cap, rfl, _⟩ := send
  rfl

theorem TaxedSend.transfer {querier : Querier} {config : Config} {dest : String} {amount : Uint128} {msg : CosmosMsg}
    (send : TaxedSend querier config dest amount msg) : msg.Transfer := by
  obtain ⟨net, rate, cap, rfl, _⟩ := send
  trivial

theorem filterMap_transfers {α : Type} {f : CosmosMsg → Option α} {msgs : List CosmosMsg}
    (wasmOnly : ∀ dest coins gross, f (.bankSend dest coins gross) = none) (transfers : ∀ m ∈ msgs, m.Transfer) :
    msgs.filterMap f = [] := by
  apply List.filterMap_eq_nil_iff.mpr
  intro m member
  cases m with
  | bankSend dest coins gross => exact wasmOnly dest coins gross
  | wasm msg => exact (transfers _ member).elim

def grossOf (msgs : List CosmosMsg) : Nat := (msgs.map CosmosMsg.gross).sum

@[simp] theorem grossOf_nil : grossOf [] = 0 := rfl

@[simp] theorem grossOf_cons (m : CosmosMsg) (ms : List CosmosMsg) : grossOf (m :: ms) = m.gross + grossOf ms := rfl

@[simp] theorem grossOf_append (ms ns : List CosmosMsg) : grossOf (ms ++ ns) = grossOf ms + grossOf ns := by
  simp [grossOf]

theorem Response.gross_eq (r : Response) : r.gross = grossOf r.messages := rfl

theorem mintSity_ok {deps : Deps} {state : State} {recipient : String} {amount : Uint128} {msg : CosmosMsg}
    (h : mintSity deps state recipient amount = .ok msg) :
    ∃ cw20, deps.api.addrHumanize state.cw20Address = .ok cw20 ∧
      msg = .wasm (.executeCw20 cw20 (.mint recipient amount)) := by
  obtain ⟨cw20, read, h⟩ := bind_ok h
  exact ⟨cw20, std_ok.mp read, (pure_ok.mp h).symm⟩

theorem mintSityRaw_ok {deps : Deps} {state : State} {recipient : CanonicalAddr} {amount : Uint128} {msg : CosmosMsg}
    (h : mintSityRaw deps state recipient amount = .ok msg) :
    ∃ cw20 human, deps.api.addrHumanize state.cw20Address = .ok cw20 ∧ deps.api.addrHumanize recipient = .ok human ∧
      msg = .wasm (.executeCw20 cw20 (.mint human amount)) := by
  obtain ⟨cw20, read, h⟩ := bind_ok h
  obtain ⟨human, readRecipient, h⟩ := bind_ok h
  exact ⟨cw20, human, std_ok.mp read, std_ok.mp readRecipient, (pure_ok.mp h).symm⟩

end NftMarketplace
