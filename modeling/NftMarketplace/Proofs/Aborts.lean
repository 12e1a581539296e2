import NftMarketplace.Proofs.Listings
import NftMarketplace.Proofs.Settlements

/-!
Where the contract could abort: arithmetic that overflows, and values it takes for granted. With rates of
at most one and prices below half of what a `Uint128` holds none of it happens.
-/

namespace Cosmwasm
open Outcome

namespace Uint128
variable {ε : Type}

theorem mul_returns (a : Uint128) {r : Decimal} (rate : r ≤ Decimal.one) : Returns (a.mul r : Outcome ε Uint128) := by
  have small : scale a.u128 r.atomics ≤ a.u128 := scale_le rate
  obtain ⟨c, product, _⟩ := mul_succeeds ε a r (lt_of_le_of_lt small a.lt)
  exact returns_of_ok ⟨c, product⟩

theorem add_returns {a b : Uint128} (fits : a.u128 + b.u128 < 2 ^ 128) : Returns (a.add b : Outcome ε Uint128) := by
  obtain ⟨c, sum, _⟩ := narrow_succeeds (ε := ε) fits
  exact returns_of_ok ⟨c, sum⟩

theorem checkedAdd_succeeds {a b : Uint128} (fits : a.u128 + b.u128 < 2 ^ 128) : ∃ c, a.checkedAdd b = .ok c :=
  ⟨⟨_, fits⟩, checkedAdd_ok.mpr rfl⟩

end Uint128

end Cosmwasm

namespace NftMarketplace
open Cosmwasm Outcome

@[simp] theorem returns_std {α : Type} (x : Except StdError α) : Returns (std x) := by
  cases x <;> simp [std]

@[simp] theorem returns_update {K V : Type} [DecidableEq K] {m : FiniteMap K V} {k : K} {f : Option V → Result V} :
    Returns (m.update k f) ↔ Returns (f (m.mayLoad k)) := by
  unfold FiniteMap.update
  cases f (m.mayLoad k) <;> simp [Returns]

/-- Rates of at most one, and a platform that leaves room for the highest royalty. -/
structure Config.Modest (config : Config) : Prop where
  bidMargin : config.bidMargin ≤ Decimal.one
  lotaFee : config.lotaFee.atomics ≤ 9 * 10 ^ 17
  lotaFeeLow : config.lotaFeeLow.atomics ≤ 9 * 10 ^ 17
  sityFullRewards : config.sityFullRewards ≤ Decimal.one
  sityPartialRewards : config.sityPartialRewards ≤ Decimal.one
  sityFeeRegistration : config.sityFeeRegistration ≤ Decimal.one
  sityMinOpening : config.sityMinOpening.u128 < 2 ^ 127

theorem Config.Modest.platformRate {config : Config} (modest : config.Modest) (item : ItemInfo) :
    (platformRate config item).atomics ≤ 9 * 10 ^ 17 := by
  unfold NftMarketplace.platformRate
  split
  · exact modest.lotaFee
  · exact modest.lotaFeeLow

/-- The chain names no tax rate above one. -/
def Honest (querier : Querier) : Prop := ∀ rate, querier.taxRate = .ok rate → rate ≤ Decimal.one

section
variable {deps : Deps} {config : Config} {s : Storage} {env : Env} {info : MessageInfo} {item : ItemInfo} {i : Nat}

/-! ### Deposits -/

@[simp] theorem fundsSent_returns (config : Config) (info : MessageInfo) : Returns (fundsSent config info) := by
  unfold fundsSent
  split
  · simp
  · split <;> simp
  · simp

theorem quotedPrice_returns (modest : config.Modest) (item : ItemInfo) : Returns (quotedPrice config item) := by
  unfold quotedPrice
  cases item.highestBid with
  | none => simp
  | some highestBid => exact highestBid.mul_returns modest.sityFeeRegistration

theorem requireRegistered_returns (modest : config.Modest) (item : ItemInfo) (bid : Option BidInfo) :
    Returns (requireRegistered config item bid) := by
  unfold requireRegistered
  split
  · simp [quotedPrice_returns modest item]
  · simp

theorem minimumBid_returns (modest : config.Modest) (cheap : item.price < 2 ^ 127) : Returns (minimumBid config item) := by
  have margin : scale item.price config.bidMargin.atomics ≤ item.price := scale_le modest.bidMargin
  have raised : Returns (do
      let bidMargin ← (item.highestBid.getD .zero).mul config.bidMargin
      unwrap ((item.highestBid.getD .zero).checkedAdd bidMargin) : Result Uint128) := by
    rw [returns_bind]
    refine ⟨Uint128.mul_returns _ modest.bidMargin, fun bidMargin product => ?_⟩
    rw [Uint128.mul_ok, getD_highestBid] at product
    rw [returns_unwrap]
    exact Uint128.checkedAdd_succeeds (by rw [getD_highestBid, product]; omega)
  unfold minimumBid
  cases item.startPrice with
  | none => exact raised
  | some startPrice =>
    dsimp only
    split
    · simp
    · exact raised

theorem bidTotal_returns {bid : Option BidInfo} {sent : Uint128} (fits : depositOf bid + sent.u128 < 2 ^ 128) :
    Returns (bidTotal bid sent) := by
  cases bid with
  | none => simp [bidTotal]
  | some bid =>
    rw [bidTotal, returns_unwrap]
    exact Uint128.checkedAdd_succeeds fits

@[simp] theorem creditDeposit_returns (bids : FiniteMap (Nat × CanonicalAddr) BidInfo) (key : Nat × CanonicalAddr)
    (sent : Uint128) : Returns (creditDeposit bids key sent) := by
  unfold creditDeposit
  split <;> simp

@[simp] theorem belowInstantBuy_returns (item : ItemInfo) (total : Uint128) : Returns (belowInstantBuy item total) := by
  unfold belowInstantBuy
  split <;> simp

@[simp] theorem payInstantBuy_returns (item : ItemInfo) (total : Uint128) : Returns (payInstantBuy item total) := by
  unfold payInstantBuy
  split <;> simp

/-- No deposit of the sender's and the coins attached add up to more than a `Uint128` holds. -/
def Fits (deps : Deps) (s : Storage) (info : MessageInfo) (i : Nat) : Prop :=
  ∀ b sent, deps.api.addrCanonicalize info.sender = .ok b → info.funds = [{ denom := s.config.denom, amount := sent }] →
    (s.totalBid i b).u128 + sent.u128 < 2 ^ 128

theorem executePlaceBid_returns (modest : s.config.Modest) (fits : Fits deps s info i)
    (cheap : ∀ item, s.items.mayLoad i = some item → item.price < 2 ^ 127) :
    Returns (executePlaceBid deps s env info i) := by
  simp only [executePlaceBid, returns_bind, returns_std, returns_reject, returns_update, returns_unwrapSome,
    fundsSent_returns, belowInstantBuy_returns, creditDeposit_returns, returns_pure, true_and, implies_true, and_true,
    std_ok, FiniteMap.load_ok]
  intro b sender sent funds item found _ _ _ _ _ _
  refine ⟨requireRegistered_returns modest item _, fun _ _ => ⟨minimumBid_returns modest (cheap item found), ?_⟩⟩
  intro minBid _
  refine ⟨bidTotal_returns ?_, fun _ _ _ _ => by simp [found]⟩
  have room := fits b sent sender (fundsSent_ok.mp funds)
  rwa [← slice_totalBid] at room

theorem executeInstantBuy_returns (modest : s.config.Modest) : Returns (executeInstantBuy deps s env info i) := by
  unfold executeInstantBuy
  cases found : s.items.mayLoad i with
  | none => simp
  | some item =>
    simp only [returns_bind, returns_std, returns_reject, returns_update, returns_unwrapSome, fundsSent_returns,
      payInstantBuy_returns, creditDeposit_returns, returns_pure, true_and, implies_true, and_true]
    exact fun _ _ _ _ _ _ => ⟨requireRegistered_returns modest item _, by simp [found]⟩

/-! ### Payments -/

theorem computeTax_returns (honest : Honest deps.querier) (coin : Coin) : Returns (computeTax deps.querier coin) := by
  cases capRead : deps.querier.taxCap coin.denom with
  | ok cap =>
    cases rateRead : deps.querier.taxRate with
    | ok rate =>
      have answers : Answers deps.querier coin.denom := ⟨⟨rate, rateRead, honest rate rateRead⟩, ⟨cap, capRead⟩⟩
      obtain ⟨tax, computed, _⟩ := computeTax_succeeds answers
      exact returns_of_ok ⟨tax, computed⟩
    | error e =>
      rw [computeTax, rateRead]
      exact returns_err _
  | error e =>
    rw [computeTax, capRead, returns_bind]
    exact ⟨returns_std _, fun _ _ => returns_err _⟩

theorem sendTo_returns (honest : Honest deps.querier) (config : Config) (dest : String) (amount : Uint128) :
    Returns (sendTo deps config dest amount) := by
  simp [sendTo, deductTax, computeTax_returns honest]

theorem sendToRaw_returns (honest : Honest deps.querier) (config : Config) (dest : CanonicalAddr) (amount : Uint128) :
    Returns (sendToRaw deps config dest amount) := by
  simp [sendToRaw, sendTo_returns honest]

@[simp] theorem mintSity_returns (deps : Deps) (state : State) (recipient : String) (amount : Uint128) :
    Returns (mintSity deps state recipient amount) := by
  simp [mintSity]

@[simp] theorem mintSityRaw_returns (deps : Deps) (state : State) (recipient : CanonicalAddr) (amount : Uint128) :
    Returns (mintSityRaw deps state recipient amount) := by
  simp [mintSityRaw]

theorem partialReward_returns (modest : s.config.Modest) (bid : BidInfo) (due : Prop) [Decidable due] :
    Returns (partialReward deps s info bid due) := by
  unfold partialReward
  split
  · simp [Uint128.mul_returns _ modest.sityPartialRewards]
  · simp

theorem executeRetractBids_returns (modest : s.config.Modest) (honest : Honest deps.querier) (env : Env) :
    Returns (executeRetractBids deps s env info i) := by
  simp only [executeRetractBids, returns_bind, returns_std, returns_reject, returns_update, returns_unwrapSome,
    returns_pure, true_and, implies_true, and_true, std_ok, FiniteMap.load_ok, sendTo_returns honest,
    partialReward_returns modest]
  intro b _ item _ bid entry _ _ _ _ _ _ _ _
  simp [entry]

@[simp] theorem queryMinter_returns (deps : Deps) (nftContract : Addr) : Returns (queryMinter deps nftContract) := by
  unfold queryMinter
  dsimp only
  split
  · split
    · simp
    · split <;> simp
  · simp

theorem sendShare_returns (honest : Honest deps.querier) (config : Config) (dest : Option CanonicalAddr) (amount : Uint128) :
    Returns (sendShare deps config dest amount) := by
  unfold sendShare
  split
  · simp
  · split
    · simp
    · simp [sendToRaw_returns honest]

theorem fullRewards_returns (modest : s.config.Modest) (creator recipient : CanonicalAddr) (highestBid : Uint128) :
    Returns (fullRewards deps s creator recipient highestBid) := by
  unfold fullRewards
  split
  · simp
  · simp [Uint128.mul_returns _ modest.sityFullRewards]

theorem salePayouts_returns (modest : s.config.Modest) (honest : Honest deps.querier) (recipient : CanonicalAddr)
    (royalty : Option (CanonicalAddr × RoyaltyInfo)) (shares : Shares) :
    Returns (salePayouts deps s item recipient royalty shares) := by
  unfold salePayouts
  split
  · simp
  · simp [fullRewards_returns modest, sendShare_returns honest]

theorem executeWithdrawNft_returns (modest : s.config.Modest) (honest : Honest deps.querier)
    (splittable : ∀ item collection minter, s.items.mayLoad i = some item → queryMinter deps collection = .ok minter →
      Splittable s.config item (royaltyOf s minter)) : Returns (executeWithdrawNft deps s env info i) := by
  simp only [executeWithdrawNft, returns_bind, returns_std, returns_reject, returns_update, returns_unwrapSome,
    returns_pure, true_and, implies_true, and_true, std_ok, FiniteMap.load_ok, queryMinter_returns,
    salePayouts_returns modest honest]
  intro item found collection _ minter asked _ _ _ _
  exact ⟨returns_of_ok (splitBid_succeeds (splittable item collection minter found asked)), by simp [found]⟩

theorem cancellationFees_returns (fee : s.cancellation.cancellationFee ≤ Decimal.one) (honest : Honest deps.querier)
    (item : ItemInfo) : Returns (cancellationFees deps s info item) := by
  have half : splitAmount ≤ Decimal.one := by decide
  unfold cancellationFees
  split
  · simp
  · simp only [returns_bind, fundsSent_returns, Uint128.mul_returns _ fee, returns_reject, true_and]
    intro sent _ charge _ _ _
    split <;> simp [sendToRaw_returns honest, Uint128.mul_returns _ half]

theorem executeCancelAuction_returns (fee : s.cancellation.cancellationFee ≤ Decimal.one)
    (honest : Honest deps.querier) : Returns (executeCancelAuction deps s env info i) := by
  unfold executeCancelAuction
  cases found : s.items.mayLoad i with
  | none => simp
  | some item => simp [cancellationFees_returns fee honest, found]

/-! ### Listings, registrations and royalties -/

@[simp] theorem checkStartPrice_returns (args : CreateAuctionNft) : Returns (checkStartPrice args) := by
  unfold checkStartPrice
  split <;> simp

@[simp] theorem validCharity_returns (deps : Deps) (charity : Option CharityResponse) :
    Returns (validCharity deps charity) := by
  unfold validCharity
  split <;> simp

@[simp] theorem instantBuyPrice_returns (args : CreateAuctionNft) : Returns (instantBuyPrice args) := by
  unfold instantBuyPrice
  split <;> simp

theorem executeCreateAuction_returns (sender tokenId : String) {args : CreateAuctionNft}
    (fits : args.startTime.getD env.blockTime.seconds + MIN_TIME_AUCTION < 2 ^ 64) :
    Returns (executeCreateAuction deps s env info sender tokenId args) := by
  simp [executeCreateAuction]
  exact fun _ _ _ _ _ _ => fits

theorem registrationPrice_returns (modest : s.config.Modest) (cheap : item.price < 2 ^ 127) :
    Returns (registrationPrice s.config item) := by
  unfold registrationPrice
  cases bid : item.highestBid with
  | none => simp
  | some highestBid =>
    have price : item.price = highestBid.u128 := by simp [ItemInfo.price, bid]
    have share : scale highestBid.u128 s.config.sityFeeRegistration.atomics ≤ highestBid.u128 :=
      scale_le modest.sityFeeRegistration
    have opening := modest.sityMinOpening
    rw [returns_bind]
    refine ⟨Uint128.mul_returns _ modest.sityFeeRegistration, fun part product => Uint128.add_returns ?_⟩
    rw [Uint128.mul_ok] at product
    omega

theorem executeRegisterPrivateSale_returns (modest : s.config.Modest)
    (cheap : ∀ item, s.items.mayLoad i = some item → item.price < 2 ^ 127) (sender : String) (sent : Uint128) :
    Returns (executeRegisterPrivateSale deps s env info sender sent i) := by
  unfold executeRegisterPrivateSale
  simp only [returns_bind, returns_std, true_and]
  intro b _
  cases found : s.items.mayLoad i with
  | none => simp
  | some item =>
    have checked : Returns (checkRegistration s.config item sent) := by
      unfold checkRegistration
      split <;> simp [registrationPrice_returns modest (cheap item found)]
    simp [checked]

@[simp] theorem royaltyRecipient_returns (deps : Deps) (rawSender : CanonicalAddr) (recipient : Option String) :
    Returns (royaltyRecipient deps rawSender recipient) := by
  unfold royaltyRecipient
  split <;> simp

@[simp] theorem writeRoyalty_returns (royalty : FiniteMap CanonicalAddr RoyaltyInfo) (rawSender : CanonicalAddr)
    (fee : Decimal) (recipient : Option String) (setRecipient : CanonicalAddr) :
    Returns (writeRoyalty royalty rawSender fee recipient setRecipient) := by
  unfold writeRoyalty
  split
  · simp
  · next stored => simp [stored]

theorem executeUpdateRoyalty_returns (lawful : deps.api.Lawful) (env : Env) (fee : Decimal) (recipient : Option String) :
    Returns (executeUpdateRoyalty deps s env info fee recipient) := by
  simp only [executeUpdateRoyalty, returns_bind, returns_std, returns_reject, royaltyRecipient_returns,
    writeRoyalty_returns, returns_unwrap, returns_pure, true_and, implies_true, and_true, std_ok]
  intro rawSender sender _ _ setRecipient chosen _ _
  obtain ⟨_, known⟩ := royaltyRecipient_ok sender chosen
  exact lawful.humanize known

end

end NftMarketplace
