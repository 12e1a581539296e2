import NftMarketplace.Proofs.Deposits
import NftMarketplace.Proofs.Transfers

/-! What an accepted refund, settlement and cancellation check, write and send. -/

namespace NftMarketplace
open Cosmwasm Outcome

/-! ### Refunds -/

/-- The highest bidder of a met reserve. -/
def ItemInfo.Bound (item : ItemInfo) (b : CanonicalAddr) : Prop :=
  item.highestBidder = some b ∧ item.reserve ≤ item.price

/-- A refund earns the partial reward once, when somebody bid above the reserve. -/
def RewardDue (item : ItemInfo) (bid : BidInfo) : Prop := bid.resolved = false ∧ item.reserve < item.price

instance (item : ItemInfo) (bid : BidInfo) : Decidable (RewardDue item bid) := inferInstanceAs (Decidable (_ ∧ _))

structure Retracted (deps : Deps) (s : Storage) (info : MessageInfo) (x : Slice) (b : CanonicalAddr)
    (item : ItemInfo) (bid : BidInfo) (send : CosmosMsg) (rewards : List CosmosMsg) : Prop where
  sender : deps.api.addrCanonicalize info.sender = .ok b
  stored : x.item = some item
  entry : x.bid b = some bid
  free : ¬ item.Bound b
  positive : 0 < bid.totalBid.u128
  refund : TaxedSend deps.querier s.config info.sender bid.totalBid send
  unrewarded : ¬ RewardDue item bid → rewards = []
  rewarded : RewardDue item bid → ∃ cw20 amount, amount.u128 = scale bid.totalBid.u128 s.config.sityPartialRewards.atomics ∧
    deps.api.addrHumanize s.state.cw20Address = .ok cw20 ∧
    rewards = [.wasm (.executeCw20 cw20 (.mint info.sender amount))]

def BidInfo.refunded (bid : BidInfo) : BidInfo := { bid with totalBid := .zero, resolved := true }

theorem Retracted.gross {deps : Deps} {s : Storage} {info : MessageInfo} {x : Slice} {b : CanonicalAddr}
    {item : ItemInfo} {bid : BidInfo} {send : CosmosMsg} {rewards : List CosmosMsg}
    (h : Retracted deps s info x b item bid send rewards) : grossOf (send :: rewards) = bid.totalBid.u128 := by
  rw [grossOf_cons, h.refund.gross]
  by_cases due : RewardDue item bid
  · obtain ⟨_, _, _, _, rfl⟩ := h.rewarded due
    rfl
  · rw [h.unrewarded due]
    rfl

theorem Retracted.filterMap_rewards {α : Type} {f : CosmosMsg → Option α} {deps : Deps} {s : Storage}
    {info : MessageInfo} {x : Slice} {b : CanonicalAddr} {item : ItemInfo} {bid : BidInfo} {send : CosmosMsg}
    {rewards : List CosmosMsg} (h : Retracted deps s info x b item bid send rewards)
    (ignoresSend : ∀ dest coins gross, f (.bankSend dest coins gross) = none) :
    (send :: rewards).filterMap f = rewards.filterMap f := by
  have refund : [send].filterMap f = [] := filterMap_transfers ignoresSend (by simpa using h.refund.transfer)
  rw [← List.singleton_append, List.filterMap_append, refund, List.nil_append]

theorem Retracted.filterMap_nil {α : Type} {f : CosmosMsg → Option α} {deps : Deps} {s : Storage}
    {info : MessageInfo} {x : Slice} {b : CanonicalAddr} {item : ItemInfo} {bid : BidInfo} {send : CosmosMsg}
    {rewards : List CosmosMsg} (h : Retracted deps s info x b item bid send rewards)
    (ignoresSend : ∀ dest coins gross, f (.bankSend dest coins gross) = none)
    (ignoresMint : ∀ cw20 dest amount, f (.wasm (.executeCw20 cw20 (.mint dest amount))) = none) :
    (send :: rewards).filterMap f = [] := by
  rw [h.filterMap_rewards ignoresSend]
  by_cases due : RewardDue item bid
  · obtain ⟨_, _, _, _, rfl⟩ := h.rewarded due
    simp [ignoresMint]
  · rw [h.unrewarded due]
    rfl

theorem partialReward_ok {deps : Deps} {s : Storage} {info : MessageInfo} {bid : BidInfo} {due : Prop} [Decidable due]
    {rewards : List CosmosMsg} (h : partialReward deps s info bid due = .ok rewards) :
    (¬ due → rewards = []) ∧
      (due → ∃ cw20 amount, amount.u128 = scale bid.totalBid.u128 s.config.sityPartialRewards.atomics ∧
        deps.api.addrHumanize s.state.cw20Address = .ok cw20 ∧
        rewards = [.wasm (.executeCw20 cw20 (.mint info.sender amount))]) := by
  unfold partialReward at h
  split at h
  · next due =>
    refine ⟨fun absent => (absent due).elim, ?_⟩
    intro _
    obtain ⟨amount, product, h⟩ := bind_ok h
    obtain ⟨mint, minted, h⟩ := bind_ok h
    obtain rfl := pure_ok.mp h
    obtain ⟨cw20, read, rfl⟩ := mintSity_ok minted
    exact ⟨cw20, amount, Uint128.mul_ok.mp product, read, rfl⟩
  · next absent => exact ⟨fun _ => (Except.ok.inj h).symm, fun due => (absent due).elim⟩

theorem executeRetractBids_ok {deps : Deps} {s t : Storage} {env : Env} {info : MessageInfo} {i : Nat} {r : Response}
    (h : executeRetractBids deps s env info i = .ok (t, r)) :
    ∃ b item bid send rewards, Retracted deps s info (s.slice i) b item bid send rewards ∧
      t.slice i = (s.slice i).withBid b bid.refunded ∧ SameElsewhere i s t ∧ r.messages = send :: rewards := by
  unfold executeRetractBids at h
  obtain ⟨b, sender, h⟩ := bind_ok h
  obtain ⟨item, found, h⟩ := bind_ok h
  obtain ⟨bid, entry, h⟩ := bind_ok h
  obtain ⟨_, free, h⟩ := bind_ok h
  obtain ⟨_, positive, h⟩ := bind_ok h
  obtain ⟨send, refund, h⟩ := bind_ok h
  obtain ⟨rewards, rewarded, h⟩ := bind_ok h
  obtain ⟨bids, updated, h⟩ := bind_ok h
  obtain ⟨rfl, rfl⟩ := Prod.mk.inj (pure_ok.mp h)
  rw [std_ok, FiniteMap.load_ok] at found entry
  rw [FiniteMap.update_ok, entry] at updated
  obtain ⟨stored, updated, rfl⟩ := updated
  obtain rfl := pure_ok.mp updated
  rw [reject_ok] at free positive
  rw [Uint128.le_def, getD_highestBid, getD_reservePrice] at free
  have due : (bid.resolved = false ∧ item.reservePrice.getD .zero < item.highestBid.getD .zero) ↔ RewardDue item bid := by
    rw [Uint128.lt_def, getD_highestBid, getD_reservePrice, RewardDue]
  obtain ⟨unrewarded, minted⟩ := partialReward_ok rewarded
  rw [due] at unrewarded minted
  obtain ⟨slice, elsewhere⟩ := slice_bid s i b bid.refunded
  refine ⟨b, item, bid, send, rewards, ?_, slice, elsewhere, rfl⟩
  exact {
    sender := std_ok.mp sender
    stored := found
    entry
    free
    positive := Nat.pos_of_ne_zero positive
    refund := sendTo_ok refund
    unrewarded
    rewarded := minted }

/-- A bidder who is not bound gets a deposit back, when the tax is known and the reward fits. -/
theorem executeRetractBids_succeeds {deps : Deps} {s : Storage} (env : Env) {info : MessageInfo} {i : Nat}
    {b : CanonicalAddr} {item : ItemInfo} {bid : BidInfo} {cw20 : Addr}
    (sender : deps.api.addrCanonicalize info.sender = .ok b) (found : (s.slice i).item = some item)
    (entry : (s.slice i).bid b = some bid) (free : ¬ item.Bound b) (positive : 0 < bid.totalBid.u128)
    (answers : Answers deps.querier s.config.denom)
    (fits : RewardDue item bid → scale bid.totalBid.u128 s.config.sityPartialRewards.atomics < 2 ^ 128)
    (token : deps.api.addrHumanize s.state.cw20Address = .ok cw20) :
    ∃ p, executeRetractBids deps s env info i = .ok p := by
  obtain ⟨send, sent⟩ := sendTo_succeeds info.sender bid.totalBid answers
  have due : (bid.resolved = false ∧ item.reservePrice.getD .zero < item.highestBid.getD .zero) ↔ RewardDue item bid := by
    rw [Uint128.lt_def, getD_highestBid, getD_reservePrice, RewardDue]
  have rewards : ∃ rewards, partialReward deps s info bid
      (bid.resolved = false ∧ item.reservePrice.getD .zero < item.highestBid.getD .zero) = .ok rewards := by
    unfold partialReward
    split
    · next earned =>
      let amount : Uint128 := ⟨_, fits (due.mp earned)⟩
      have minted : mintSity deps s.state info.sender amount = .ok (.wasm (.executeCw20 cw20 (.mint info.sender amount))) :=
        bind_ok_iff.mpr ⟨cw20, std_ok.mpr token, rfl⟩
      exact ⟨[_], bind_ok_iff.mpr ⟨amount, Uint128.mul_ok.mpr rfl, bind_ok_iff.mpr ⟨_, minted, rfl⟩⟩⟩
    · exact ⟨[], rfl⟩
  obtain ⟨rewards, rewarded⟩ := rewards
  have stored : s.bids.mayLoad (i, b) = some bid := entry
  refine bind_succeeds b (std_ok.mpr sender) ?_
  refine bind_succeeds item (std_ok.mpr (FiniteMap.load_ok.mpr found)) ?_
  refine bind_succeeds bid (std_ok.mpr (FiniteMap.load_ok.mpr entry)) ?_
  refine bind_succeeds () (reject_ok.mpr ?_) ?_
  · rw [Uint128.le_def, getD_highestBid, getD_reservePrice]
    exact free
  refine bind_succeeds () (reject_ok.mpr positive.ne') ?_
  refine bind_succeeds send sent (bind_succeeds rewards rewarded ?_)
  refine bind_succeeds (s.bids.save (i, b) bid.refunded) (FiniteMap.update_ok.mpr ⟨bid.refunded, ?_, rfl⟩) ⟨_, rfl⟩
  rw [stored]
  rfl

/-! ### Settlements -/

def platformShare (config : Config) (item : ItemInfo) : Nat := scale item.price (platformRate config item).atomics

def royaltyAmount (item : ItemInfo) (royalty : Option (CanonicalAddr × RoyaltyInfo)) : Nat :=
  (royalty.map fun r => scale item.price r.2.fee.atomics).getD 0

def charityAmount (item : ItemInfo) (rest : Nat) : Nat :=
  (item.charity.map fun charity => scale rest charity.feePercentage.atomics).getD 0

structure SplitOf (config : Config) (item : ItemInfo) (royalty : Option (CanonicalAddr × RoyaltyInfo))
    (shares : Shares) : Prop where
  highestBid : shares.highestBid.u128 = item.price
  lota : shares.lota.u128 = platformShare config item
  royaltyShare : shares.royalty.u128 = royaltyAmount item royalty
  charity : shares.charity.u128 = charityAmount item (item.price - platformShare config item - royaltyAmount item royalty)
  whole : shares.net.u128 + shares.charity.u128 + shares.royalty.u128 + shares.lota.u128 = item.price
  charityAddress : item.highestBid.isSome → shares.charityAddress = item.charity.map CharityInfo.address

theorem royaltyShare_ok {royalty : Option (CanonicalAddr × RoyaltyInfo)} {highestBid share : Uint128}
    (h : royaltyShare royalty highestBid = .ok share) :
    share.u128 = (royalty.map fun r => scale highestBid.u128 r.2.fee.atomics).getD 0 := by
  cases royalty with
  | none => simp_all [royaltyShare, ← Except.ok.inj h]
  | some r => simpa [royaltyShare] using h

theorem splitBid_ok {config : Config} {item : ItemInfo} {royalty : Option (CanonicalAddr × RoyaltyInfo)}
    {shares : Shares} (h : splitBid config item royalty = .ok shares) : SplitOf config item royalty shares := by
  unfold splitBid at h
  split at h
  · next unsold =>
    have price : item.price = 0 := by simp [ItemInfo.price, unsold]
    obtain rfl := Except.ok.inj h
    constructor <;> simp [price, platformShare, royaltyAmount, charityAmount, scale, unsold] <;>
      cases royalty <;> cases item.charity <;> simp
  · next highestBid sold =>
    have price : item.price = highestBid.u128 := by simp [ItemInfo.price, sold]
    obtain ⟨royaltyFee, royaltyRead, h⟩ := bind_ok h
    obtain ⟨lotaFee, lotaRead, h⟩ := bind_ok h
    obtain ⟨afterLota, first, h⟩ := bind_ok h
    obtain ⟨afterRoyalty, second, h⟩ := bind_ok h
    have royaltyValue : royaltyFee.u128 = royaltyAmount item royalty := by
      rw [royaltyShare_ok royaltyRead, royaltyAmount, price]
    have lotaValue : lotaFee.u128 = platformShare config item := by
      rw [platformShare, price]
      exact Uint128.mul_ok.mp lotaRead
    rw [unwrap_ok, Uint128.checkedSub_ok] at first second
    have rest : item.price - platformShare config item - royaltyAmount item royalty = afterRoyalty.u128 := by omega
    split at h
    · next plain =>
      obtain rfl := pure_ok.mp h
      exact {
        highestBid := price.symm
        lota := lotaValue
        royaltyShare := royaltyValue
        charity := by simp [charityAmount, plain]
        whole := by simp only [Uint128.zero_u128]; omega
        charityAddress := by simp [plain] }
    · next charity given =>
      obtain ⟨gift, product, h⟩ := bind_ok h
      obtain ⟨net, third, h⟩ := bind_ok h
      obtain rfl := pure_ok.mp h
      rw [unwrap_ok, Uint128.checkedSub_ok] at third
      rw [Uint128.mul_ok] at product
      exact {
        highestBid := price.symm
        lota := lotaValue
        royaltyShare := royaltyValue
        charity := by simp [charityAmount, given, product, rest]
        whole := by simp only; omega
        charityAddress := by simp [given] }

theorem SplitOf.net {config : Config} {item : ItemInfo} {royalty : Option (CanonicalAddr × RoyaltyInfo)}
    {shares : Shares} (split : SplitOf config item royalty shares) :
    shares.net.u128 = item.price - platformShare config item - royaltyAmount item royalty -
      charityAmount item (item.price - platformShare config item - royaltyAmount item royalty) := by
  have whole := split.whole
  have lotaIs := split.lota
  have royalIs := split.royaltyShare
  have charityIs := split.charity
  omega

theorem SplitOf.known {config : Config} {item : ItemInfo} {royalty : Option (CanonicalAddr × RoyaltyInfo)}
    {shares : Shares} (split : SplitOf config item royalty shares) :
    (royalty.map Prod.fst = none → shares.royalty.u128 = 0) ∧
      (shares.charityAddress = none → shares.charity.u128 = 0) := by
  constructor
  · intro nobody
    rw [split.royaltyShare, royaltyAmount, Option.map_eq_none_iff.mp nobody]
    rfl
  · intro nobody
    cases bid : item.highestBid with
    | none =>
      have unsold : item.price = 0 := by simp [ItemInfo.price, bid]
      have whole := split.whole
      omega
    | some highestBid =>
      rw [split.charityAddress (by simp [bid])] at nobody
      rw [split.charity, charityAmount, Option.map_eq_none_iff.mp nobody]
      rfl

theorem sendShare_ok {deps : Deps} {config : Config} {dest : Option CanonicalAddr} {amount : Uint128}
    {msgs : List CosmosMsg} (h : sendShare deps config dest amount = .ok msgs) :
    (dest = none ∨ amount.u128 = 0) ∧ msgs = [] ∨
      ∃ raw human msg, dest = some raw ∧ 0 < amount.u128 ∧ deps.api.addrHumanize raw = .ok human ∧
        TaxedSend deps.querier config human amount msg ∧ msgs = [msg] := by
  unfold sendShare at h
  split at h
  · exact Or.inl ⟨Or.inl rfl, (Except.ok.inj h).symm⟩
  · next raw =>
    split at h
    · next zero => exact Or.inl ⟨Or.inr zero, (Except.ok.inj h).symm⟩
    · next positive =>
      obtain ⟨msg, sent, h⟩ := bind_ok h
      obtain ⟨human, read, taxed⟩ := sendToRaw_ok sent
      exact Or.inr ⟨raw, human, msg, rfl, Nat.pos_of_ne_zero positive, read, taxed, (pure_ok.mp h).symm⟩

theorem sendShare_gross {deps : Deps} {config : Config} {dest : Option CanonicalAddr} {amount : Uint128}
    {msgs : List CosmosMsg} (h : sendShare deps config dest amount = .ok msgs) (known : dest = none → amount.u128 = 0) :
    grossOf msgs = amount.u128 := by
  rcases sendShare_ok h with ⟨absent | zero, rfl⟩ | ⟨raw, human, msg, _, _, _, taxed, rfl⟩
  · simp [known absent]
  · simp [zero]
  · simp [taxed.gross]

theorem fullRewards_ok {deps : Deps} {s : Storage} {creator recipient : CanonicalAddr} {highestBid : Uint128}
    {msgs : List CosmosMsg} (h : fullRewards deps s creator recipient highestBid = .ok msgs) :
    highestBid.u128 = 0 ∧ msgs = [] ∨
      ∃ cw20 toCreator toRecipient amount, 0 < highestBid.u128 ∧
        amount.u128 = scale highestBid.u128 s.config.sityFullRewards.atomics ∧
        deps.api.addrHumanize s.state.cw20Address = .ok cw20 ∧
        deps.api.addrHumanize creator = .ok toCreator ∧ deps.api.addrHumanize recipient = .ok toRecipient ∧
        msgs = [.wasm (.executeCw20 cw20 (.mint toCreator amount)),
          .wasm (.executeCw20 cw20 (.mint toRecipient amount))] := by
  unfold fullRewards at h
  split at h
  · next zero => exact Or.inl ⟨zero, (Except.ok.inj h).symm⟩
  · next positive =>
    obtain ⟨amount, product, h⟩ := bind_ok h
    obtain ⟨first, mintCreator, h⟩ := bind_ok h
    obtain ⟨second, mintRecipient, h⟩ := bind_ok h
    obtain rfl := pure_ok.mp h
    obtain ⟨cw20, toCreator, read, readCreator, rfl⟩ := mintSityRaw_ok mintCreator
    obtain ⟨again, toRecipient, readAgain, readRecipient, rfl⟩ := mintSityRaw_ok mintRecipient
    obtain rfl := Except.ok.inj (read.symm.trans readAgain)
    exact Or.inr ⟨cw20, toCreator, toRecipient, amount, Nat.pos_of_ne_zero positive, Uint128.mul_ok.mp product,
      read, readCreator, readRecipient, rfl⟩

theorem filterMap_fullRewards {α : Type} {f : CosmosMsg → Option α} {deps : Deps} {s : Storage}
    {creator recipient : CanonicalAddr} {highestBid : Uint128} {msgs : List CosmosMsg}
    (ignoresMint : ∀ cw20 dest amount, f (.wasm (.executeCw20 cw20 (.mint dest amount))) = none)
    (h : fullRewards deps s creator recipient highestBid = .ok msgs) : msgs.filterMap f = [] := by
  rcases fullRewards_ok h with ⟨_, rfl⟩ | ⟨_, _, _, _, _, _, _, _, _, rfl⟩
  · rfl
  · simp [ignoresMint]

structure SalePayouts (deps : Deps) (s : Storage) (item : ItemInfo) (recipient : CanonicalAddr)
    (royalty : Option (CanonicalAddr × RoyaltyInfo)) (shares : Shares)
    (rewards payout royaltySend lotaSend charitySend : List CosmosMsg) : Prop where
  rewards : fullRewards deps s item.creator recipient shares.highestBid = .ok rewards
  payout : sendShare deps s.config (some item.creator) shares.net = .ok payout
  royaltySend : sendShare deps s.config (royalty.map Prod.fst) shares.royalty = .ok royaltySend
  lotaSend : sendShare deps s.config (some s.config.lotaContract) shares.lota = .ok lotaSend
  charitySend : sendShare deps s.config shares.charityAddress shares.charity = .ok charitySend

theorem salePayouts_ok {deps : Deps} {s : Storage} {item : ItemInfo} {recipient : CanonicalAddr}
    {royalty : Option (CanonicalAddr × RoyaltyInfo)} {shares : Shares} {msgs : List CosmosMsg}
    (h : salePayouts deps s item recipient royalty shares = .ok msgs) :
    recipient = item.creator ∧ msgs = [] ∨
      recipient ≠ item.creator ∧ ∃ rewards payout royaltySend lotaSend charitySend,
        SalePayouts deps s item recipient royalty shares rewards payout royaltySend lotaSend charitySend ∧
        msgs = rewards ++ payout ++ royaltySend ++ lotaSend ++ charitySend := by
  unfold salePayouts at h
  split at h
  · next back => exact Or.inl ⟨back, (Except.ok.inj h).symm⟩
  · next sold =>
    obtain ⟨rewards, h₁, h⟩ := bind_ok h
    obtain ⟨payout, h₂, h⟩ := bind_ok h
    obtain ⟨royaltySend, h₃, h⟩ := bind_ok h
    obtain ⟨lotaSend, h₄, h⟩ := bind_ok h
    obtain ⟨charitySend, h₅, h⟩ := bind_ok h
    exact Or.inr ⟨sold, rewards, payout, royaltySend, lotaSend, charitySend, ⟨h₁, h₂, h₃, h₄, h₅⟩,
      (pure_ok.mp h).symm⟩

structure Withdrawn (deps : Deps) (s : Storage) (env : Env) (x : Slice) (item : ItemInfo)
    (collection owner : Addr) (minter : Option CanonicalAddr) (shares : Shares) (payouts : List CosmosMsg) : Prop where
  stored : x.item = some item
  unresolved : item.resolved = false
  ended : item.endTime ≤ env.blockTime.seconds
  contract : deps.api.addrHumanize item.nftContract = .ok collection
  newOwner : deps.api.addrHumanize (saleRecipient item) = .ok owner
  asked : queryMinter deps collection = .ok minter
  split : SplitOf s.config item (royaltyOf s minter) shares
  paid : salePayouts deps s item (saleRecipient item) (royaltyOf s minter) shares = .ok payouts

/-- What a settlement takes out of the contract: the highest bid, unless the NFT goes back to its creator. -/
def ItemInfo.proceeds (item : ItemInfo) : Nat := if saleRecipient item = item.creator then 0 else item.price

def handOver (collection owner : Addr) (item : ItemInfo) : CosmosMsg :=
  .wasm (.executeCw721 collection (.transferNft owner item.nftId))

def ItemInfo.settled (item : ItemInfo) : ItemInfo := { item with resolved := true }

theorem SalePayouts.gross {deps : Deps} {s : Storage} {item : ItemInfo} {recipient : CanonicalAddr}
    {royalty : Option (CanonicalAddr × RoyaltyInfo)} {shares : Shares}
    {rewards payout royaltySend lotaSend charitySend : List CosmosMsg}
    (h : SalePayouts deps s item recipient royalty shares rewards payout royaltySend lotaSend charitySend)
    (split : SplitOf s.config item royalty shares) :
    grossOf (rewards ++ payout ++ royaltySend ++ lotaSend ++ charitySend) = item.price := by
  have noRewards : grossOf rewards = 0 := by
    rcases fullRewards_ok h.rewards with ⟨_, rfl⟩ | ⟨_, _, _, _, _, _, _, _, _, rfl⟩
    · rfl
    · simp [CosmosMsg.gross]
  have net := sendShare_gross h.payout (by simp)
  have royal := sendShare_gross h.royaltySend split.known.1
  have lota := sendShare_gross h.lotaSend (by simp)
  have charity := sendShare_gross h.charitySend split.known.2
  have whole := split.whole
  simp only [grossOf_append]
  omega

theorem Withdrawn.gross {deps : Deps} {s : Storage} {env : Env} {x : Slice} {item : ItemInfo}
    {collection owner : Addr} {minter : Option CanonicalAddr} {shares : Shares} {payouts : List CosmosMsg}
    (h : Withdrawn deps s env x item collection owner minter shares payouts) :
    grossOf (handOver collection owner item :: payouts) = item.proceeds := by
  rw [grossOf_cons, ItemInfo.proceeds]
  rcases salePayouts_ok h.paid with ⟨back, rfl⟩ | ⟨sold, _, _, _, _, _, parts, rfl⟩
  · rw [if_pos back]
    rfl
  · rw [if_neg sold, parts.gross h.split]
    exact Nat.zero_add _

theorem sendShare_transfers {deps : Deps} {config : Config} {dest : Option CanonicalAddr} {amount : Uint128}
    {msgs : List CosmosMsg} (h : sendShare deps config dest amount = .ok msgs) : ∀ m ∈ msgs, m.Transfer := by
  rcases sendShare_ok h with ⟨_, rfl⟩ | ⟨_, _, msg, _, _, _, send, rfl⟩
  · simp
  · simpa using send.transfer

theorem SalePayouts.transfers {deps : Deps} {s : Storage} {item : ItemInfo} {recipient : CanonicalAddr}
    {royalty : Option (CanonicalAddr × RoyaltyInfo)} {shares : Shares}
    {rewards payout royaltySend lotaSend charitySend : List CosmosMsg}
    (h : SalePayouts deps s item recipient royalty shares rewards payout royaltySend lotaSend charitySend) :
    ∀ m ∈ payout ++ royaltySend ++ lotaSend ++ charitySend, m.Transfer := by
  intro m member
  simp only [List.mem_append] at member
  rcases member with ((net | royal) | lota) | charity
  · exact sendShare_transfers h.payout m net
  · exact sendShare_transfers h.royaltySend m royal
  · exact sendShare_transfers h.lotaSend m lota
  · exact sendShare_transfers h.charitySend m charity

theorem SalePayouts.filterMap_rewards {α : Type} {f : CosmosMsg → Option α} {deps : Deps} {s : Storage} {item : ItemInfo} {recipient : CanonicalAddr}
    {royalty : Option (CanonicalAddr × RoyaltyInfo)} {shares : Shares}
    {rewards payout royaltySend lotaSend charitySend : List CosmosMsg}
    (h : SalePayouts deps s item recipient royalty shares rewards payout royaltySend lotaSend charitySend)
    (ignoresSend : ∀ dest coins gross, f (.bankSend dest coins gross) = none) :
    (rewards ++ payout ++ royaltySend ++ lotaSend ++ charitySend).filterMap f = rewards.filterMap f := by
  have sends := filterMap_transfers ignoresSend h.transfers
  simp only [List.append_assoc, List.filterMap_append] at sends ⊢
  rw [sends, List.append_nil]

theorem salePayouts_filterMap {α : Type} {f : CosmosMsg → Option α} {deps : Deps} {s : Storage} {item : ItemInfo}
    {recipient : CanonicalAddr} {royalty : Option (CanonicalAddr × RoyaltyInfo)} {shares : Shares} {msgs : List CosmosMsg}
    (h : salePayouts deps s item recipient royalty shares = .ok msgs)
    (ignoresSend : ∀ dest coins gross, f (.bankSend dest coins gross) = none)
    (ignoresMint : ∀ cw20 dest amount, f (.wasm (.executeCw20 cw20 (.mint dest amount))) = none) :
    msgs.filterMap f = [] := by
  rcases salePayouts_ok h with ⟨_, rfl⟩ | ⟨_, rewards, _, _, _, _, parts, rfl⟩
  · rfl
  · rw [parts.filterMap_rewards ignoresSend]
    exact filterMap_fullRewards ignoresMint parts.rewards

theorem executeWithdrawNft_ok {deps : Deps} {s t : Storage} {env : Env} {info : MessageInfo} {i : Nat} {r : Response}
    (h : executeWithdrawNft deps s env info i = .ok (t, r)) :
    ∃ item collection owner minter shares payouts,
      Withdrawn deps s env (s.slice i) item collection owner minter shares payouts ∧
      t.slice i = (s.slice i).withItem item.settled ∧ SameElsewhere i s t ∧
      r.messages = handOver collection owner item :: payouts := by
  unfold executeWithdrawNft at h
  obtain ⟨item, found, h⟩ := bind_ok h
  obtain ⟨collection, contract, h⟩ := bind_ok h
  obtain ⟨minter, asked, h⟩ := bind_ok h
  obtain ⟨_, unresolved, h⟩ := bind_ok h
  obtain ⟨_, ended, h⟩ := bind_ok h
  obtain ⟨shares, split, h⟩ := bind_ok h
  obtain ⟨items, updated, h⟩ := bind_ok h
  obtain ⟨owner, newOwner, h⟩ := bind_ok h
  obtain ⟨payouts, paid, h⟩ := bind_ok h
  obtain ⟨creator, _, h⟩ := bind_ok h
  obtain ⟨rfl, rfl⟩ := Prod.mk.inj (pure_ok.mp h)
  rw [std_ok, FiniteMap.load_ok] at found
  rw [FiniteMap.update_ok, found] at updated
  obtain ⟨stored, updated, rfl⟩ := updated
  obtain rfl := pure_ok.mp updated
  obtain ⟨slice, elsewhere⟩ := slice_item s i item.settled
  refine ⟨item, collection, owner, minter, shares, payouts, ?_, slice, elsewhere, rfl⟩
  exact {
    stored := found
    unresolved := by simpa using reject_ok.mp unresolved
    ended := Nat.le_of_not_lt (reject_ok.mp ended)
    contract := std_ok.mp contract
    newOwner := std_ok.mp newOwner
    asked
    split := splitBid_ok split
    paid }

/-! ### Cancellations -/

theorem cancellationFees_ok {deps : Deps} {s : Storage} {info : MessageInfo} {item : ItemInfo} {fee : Uint128}
    {msgs : List CosmosMsg} (h : cancellationFees deps s info item = .ok (fee, msgs)) :
    item.highestBid = none ∧ fee = .zero ∧ msgs = [] ∨
      item.highestBid.isSome ∧ info.funds = [{ denom := s.config.denom, amount := fee }] ∧
        fee.u128 = scale item.price s.cancellation.cancellationFee.atomics ∧
        ((∃ b half toBidder toLota first second, item.highestBidder = some b ∧ half.u128 = fee.u128 / 2 ∧
            deps.api.addrHumanize b = .ok toBidder ∧ deps.api.addrHumanize s.config.lotaContract = .ok toLota ∧
            TaxedSend deps.querier s.config toBidder half first ∧
            TaxedSend deps.querier s.config toLota half second ∧ msgs = [first, second]) ∨
          ∃ toLota only, item.highestBidder = none ∧ deps.api.addrHumanize s.config.lotaContract = .ok toLota ∧
            TaxedSend deps.querier s.config toLota fee only ∧ msgs = [only]) := by
  unfold cancellationFees at h
  split at h
  · next unsold =>
    obtain ⟨rfl, rfl⟩ := Prod.mk.inj (Except.ok.inj h)
    exact Or.inl ⟨unsold, rfl, rfl⟩
  · next highestBid bid =>
    have price : item.price = highestBid.u128 := by simp [ItemInfo.price, bid]
    obtain ⟨sent, funds, h⟩ := bind_ok h
    obtain ⟨charge, product, h⟩ := bind_ok h
    obtain ⟨_, exact, h⟩ := bind_ok h
    obtain rfl : sent = charge := not_not.mp (reject_ok.mp exact)
    rw [Uint128.mul_ok, ← price] at product
    right
    split at h
    · next b lead =>
      obtain ⟨half, halved, h⟩ := bind_ok h
      obtain ⟨first, toBidder, h⟩ := bind_ok h
      obtain ⟨second, toLota, h⟩ := bind_ok h
      obtain ⟨rfl, rfl⟩ := Prod.mk.inj (pure_ok.mp h)
      obtain ⟨bidder, bidderRead, firstSend⟩ := sendToRaw_ok toBidder
      obtain ⟨lota, lotaRead, secondSend⟩ := sendToRaw_ok toLota
      rw [Uint128.mul_ok, splitAmount, scale_half] at halved
      exact ⟨by simp [bid], fundsSent_ok.mp funds, product, Or.inl ⟨b, half, bidder, lota, first, second, lead,
        halved, bidderRead, lotaRead, firstSend, secondSend, rfl⟩⟩
    · next nobody =>
      obtain ⟨only, toLota, h⟩ := bind_ok h
      obtain ⟨rfl, rfl⟩ := Prod.mk.inj (pure_ok.mp h)
      obtain ⟨lota, lotaRead, send⟩ := sendToRaw_ok toLota
      exact ⟨by simp [bid], fundsSent_ok.mp funds, product, Or.inr ⟨lota, only, nobody, lotaRead, send, rfl⟩⟩

/-- What is left of a cancellation fee that is split in two halves. -/
def ItemInfo.remainder (item : ItemInfo) (fee : Nat) : Nat :=
  if item.highestBid.isSome ∧ item.highestBidder.isSome then fee % 2 else 0

theorem cancellationFees_gross {deps : Deps} {s : Storage} {info : MessageInfo} {item : ItemInfo} {fee : Uint128}
    {msgs : List CosmosMsg} (h : cancellationFees deps s info item = .ok (fee, msgs)) :
    grossOf msgs + item.remainder fee.u128 = fee.u128 := by
  unfold ItemInfo.remainder
  rcases cancellationFees_ok h with ⟨unbid, rfl, rfl⟩ | ⟨bid, _, _, h⟩
  · simp [unbid]
  rcases h with ⟨b, half, _, _, first, second, lead, halved, _, _, toBidder, toLota, rfl⟩ |
    ⟨_, only, nobody, _, toLota, rfl⟩
  · simp only [grossOf_cons, grossOf_nil, toBidder.gross, toLota.gross, halved, bid, lead, Option.isSome_some,
      and_self, if_true]
    omega
  · simp [toLota.gross, nobody]

theorem cancellationFees_transfers {deps : Deps} {s : Storage} {info : MessageInfo} {item : ItemInfo} {fee : Uint128}
    {msgs : List CosmosMsg} (h : cancellationFees deps s info item = .ok (fee, msgs)) : ∀ m ∈ msgs, m.Transfer := by
  rcases cancellationFees_ok h with ⟨_, _, rfl⟩ | ⟨_, _, _, h⟩
  · simp
  rcases h with ⟨_, _, _, _, _, _, _, _, _, _, first, second, rfl⟩ | ⟨_, _, _, _, only, rfl⟩
  · simp [first.transfer, second.transfer]
  · simpa using only.transfer

structure Cancelled (deps : Deps) (s : Storage) (env : Env) (info : MessageInfo) (x : Slice) (item : ItemInfo)
    (fee : Uint128) (msgs : List CosmosMsg) : Prop where
  stored : x.item = some item
  notEnded : env.blockTime.seconds ≤ item.endTime
  sender : deps.api.addrCanonicalize info.sender = .ok item.creator
  fees : cancellationFees deps s info item = .ok (fee, msgs)

def ItemInfo.cancelled (item : ItemInfo) (t : Timestamp) : ItemInfo :=
  { item with endTime := (t.minusSeconds MIN_TIME_AUCTION).seconds, highestBidder := none }

theorem executeCancelAuction_ok {deps : Deps} {s t : Storage} {env : Env} {info : MessageInfo} {i : Nat} {r : Response}
    (h : executeCancelAuction deps s env info i = .ok (t, r)) :
    ∃ item fee msgs, Cancelled deps s env info (s.slice i) item fee msgs ∧
      t.slice i = (s.slice i).withItem (item.cancelled env.blockTime) ∧ SameElsewhere i s t ∧ r.messages = msgs := by
  unfold executeCancelAuction at h
  cases found : s.items.mayLoad i with
  | none => simp [found] at h
  | some item =>
    simp only [found] at h
    obtain ⟨_, notEnded, h⟩ := bind_ok h
    obtain ⟨raw, sender, h⟩ := bind_ok h
    obtain ⟨_, creator, h⟩ := bind_ok h
    obtain ⟨⟨fee, msgs⟩, fees, h⟩ := bind_ok h
    obtain ⟨items, updated, h⟩ := bind_ok h
    obtain ⟨rfl, rfl⟩ := Prod.mk.inj (pure_ok.mp h)
    rw [FiniteMap.update_ok, found] at updated
    obtain ⟨stored, updated, rfl⟩ := updated
    obtain rfl := pure_ok.mp updated
    obtain rfl : raw = item.creator := not_not.mp (reject_ok.mp creator)
    obtain ⟨slice, elsewhere⟩ := slice_item s i (item.cancelled env.blockTime)
    exact ⟨item, fee, msgs, ⟨found, Nat.le_of_not_lt (reject_ok.mp notEnded), std_ok.mp sender, fees⟩, slice,
      elsewhere, rfl⟩

/-- Before the first bid a cancellation asks for nothing. -/
theorem executeCancelAuction_unbid {deps : Deps} {s : Storage} {env : Env} {info : MessageInfo} {i : Nat}
    {item : ItemInfo} (found : (s.slice i).item = some item) (notEnded : env.blockTime.seconds ≤ item.endTime)
    (sender : deps.api.addrCanonicalize info.sender = .ok item.creator) (unbid : item.highestBid = none) :
    ∃ p, executeCancelAuction deps s env info i = .ok p := by
  have stored : s.items.mayLoad i = some item := found
  unfold executeCancelAuction
  simp only [stored]
  refine bind_succeeds () (reject_ok.mpr (Nat.not_lt_of_le notEnded)) ?_
  refine bind_succeeds item.creator (std_ok.mpr sender) ?_
  refine bind_succeeds () (reject_ok.mpr (not_not.mpr rfl)) ?_
  refine bind_succeeds (.zero, []) (by rw [cancellationFees, unbid]) ?_
  refine bind_succeeds (s.items.save i (item.cancelled env.blockTime)) (FiniteMap.update_ok.mpr ⟨_, ?_, rfl⟩) ⟨_, rfl⟩
  rw [stored]
  rfl

end NftMarketplace
