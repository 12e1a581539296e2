import NftMarketplace.Contract.Bidding
import NftMarketplace.Taxation

/-! The three messages that pay out: refunds, the settlement of an auction and its cancellation. -/

namespace NftMarketplace
open Cosmwasm Outcome

/-- `BankMsg::Send` of `amount` less the tax, to an address given as a string. -/
def sendTo (deps : Deps) (config : Config) (toAddress : String) (amount : Uint128) : Result CosmosMsg := do
  let coin ← deductTax deps.querier { denom := config.denom, amount }
  return .bankSend toAddress [coin] amount

def sendToRaw (deps : Deps) (config : Config) (dest : CanonicalAddr) (amount : Uint128) : Result CosmosMsg := do
  let toAddress ← std (deps.api.addrHumanize dest)
  sendTo deps config toAddress amount

/-- `Cw20ExecuteMsg::Mint` on the SITY contract, to an address given as a string. -/
def mintSity (deps : Deps) (state : State) (recipient : String) (amount : Uint128) : Result CosmosMsg := do
  let cw20 ← std (deps.api.addrHumanize state.cw20Address)
  return .wasm (.executeCw20 cw20 (.mint recipient amount))

def mintSityRaw (deps : Deps) (state : State) (recipient : CanonicalAddr) (amount : Uint128) : Result CosmosMsg := do
  let cw20 ← std (deps.api.addrHumanize state.cw20Address)
  let recipient ← std (deps.api.addrHumanize recipient)
  return .wasm (.executeCw20 cw20 (.mint recipient amount))

def partialReward (deps : Deps) (s : Storage) (info : MessageInfo) (bid : BidInfo) (due : Prop)
    [Decidable due] : Result (List CosmosMsg) :=
  if due then do
    let amount ← bid.totalBid.mul s.config.sityPartialRewards
    let mint ← mintSity deps s.state info.sender amount
    return [mint]
  else .ok []

def executeRetractBids (deps : Deps) (s : Storage) (_env : Env) (info : MessageInfo) (auctionId : Nat) :
    Result (Storage × Response) := do
  let senderRaw ← std (deps.api.addrCanonicalize info.sender)
  let item ← std (s.items.load noItem auctionId)
  let reservePrice := item.reservePrice.getD Uint128.zero
  let highestBid := item.highestBid.getD Uint128.zero
  let bid ← std (s.bids.load noBid (auctionId, senderRaw))
  -- the highest bidder of a met reserve is the future owner
  reject (item.highestBidder = some senderRaw ∧ reservePrice ≤ highestBid) .unauthorized
  reject bid.totalBid.isZero .unauthorized
  let bankMsg ← sendTo deps s.config info.sender bid.totalBid
  let rewards ← partialReward deps s info bid (bid.resolved = false ∧ reservePrice < highestBid)
  let bids ← s.bids.update (auctionId, senderRaw) fun stored => do
    let updateBid ← unwrapSome stored
    return { updateBid with totalBid := Uint128.zero, resolved := true }
  return (
    { s with bids },
    { messages := bankMsg :: rewards
      attributes :=
        [("auction_id", toString auctionId), ("refund_amount", toString bid.totalBid.u128),
          ("recipient", info.sender)] })

/-- The minter of a collection: asked as a cw20-style minter first, as a Talis collection when that
gives nothing. -/
def queryMinter (deps : Deps) (nftContract : Addr) : Result (Option CanonicalAddr) := do
  let res := (deps.querier.minter nftContract).getD { minter := "talis", cap := none }
  if res.minter = "talis" then
    let res := (deps.querier.mintingInfo nftContract).getD { minter := some "undefined", maxSupply := none }
    match res.minter with
    | none => return none
    | some minter =>
      if minter = "undefined" then return none
      else
        let raw ← std (deps.api.addrCanonicalize minter)
        return some raw
  else
    let raw ← std (deps.api.addrCanonicalize res.minter)
    return some raw

def royaltyOf (s : Storage) (minter : Option CanonicalAddr) : Option (CanonicalAddr × RoyaltyInfo) :=
  minter.map fun minter =>
    let info := (s.royalty.mayLoad minter).getD
      { creator := minter, fee := defaultRoyaltyFee, recipient := none }
    (info.recipient.getD minter, info)

/-- `recipient_address_raw` of `execute_withdraw_nft`: the highest bidder where the reserve is met,
the creator otherwise. -/
def saleRecipient (item : ItemInfo) : CanonicalAddr :=
  match item.highestBidder with
  | none => item.creator
  | some address =>
    match item.reservePrice with
    | none => address
    | some reservePrice =>
      match item.highestBid with
      | none => item.creator
      | some highestBid => if highestBid < reservePrice then item.creator else address

/-- The amounts `execute_withdraw_nft` splits the highest bid into, all zero without one. -/
structure Shares where
  highestBid : Uint128
  net : Uint128
  royalty : Uint128
  lota : Uint128
  charity : Uint128
  charityAddress : Option CanonicalAddr

def royaltyShare (royalty : Option (CanonicalAddr × RoyaltyInfo)) (highestBid : Uint128) : Result Uint128 :=
  match royalty with
  | none => .ok .zero
  | some (_, info) => highestBid.mul info.fee

def platformRate (config : Config) (item : ItemInfo) : Decimal :=
  if item.privateSale = false then config.lotaFee else config.lotaFeeLow

def splitBid (config : Config) (item : ItemInfo) (royalty : Option (CanonicalAddr × RoyaltyInfo)) :
    Result Shares :=
  match item.highestBid with
  | none =>
    .ok { highestBid := .zero, net := .zero, royalty := .zero, lota := .zero, charity := .zero,
          charityAddress := none }
  | some highestBid => do
    let royaltyFee ← royaltyShare royalty highestBid
    let lotaFee ← highestBid.mul (platformRate config item)
    let net ← unwrap (highestBid.checkedSub lotaFee)
    let net ← unwrap (net.checkedSub royaltyFee)
    match item.charity with
    | none =>
      return { highestBid, net, royalty := royaltyFee, lota := lotaFee, charity := .zero, charityAddress := none }
    | some charity =>
      let charityAmount ← net.mul charity.feePercentage
      let net ← unwrap (net.checkedSub charityAmount)
      return { highestBid, net, royalty := royaltyFee, lota := lotaFee, charity := charityAmount,
               charityAddress := some charity.address }

def sendShare (deps : Deps) (config : Config) (dest : Option CanonicalAddr) (amount : Uint128) :
    Result (List CosmosMsg) :=
  match dest with
  | none => .ok []
  | some dest =>
    if amount.isZero then .ok []
    else do
      let send ← sendToRaw deps config dest amount
      return [send]

def fullRewards (deps : Deps) (s : Storage) (creator recipient : CanonicalAddr) (highestBid : Uint128) :
    Result (List CosmosMsg) :=
  if highestBid.isZero then .ok []
  else do
    let amount ← highestBid.mul s.config.sityFullRewards
    let creatorMint ← mintSityRaw deps s.state creator amount
    let recipientMint ← mintSityRaw deps s.state recipient amount
    return [creatorMint, recipientMint]

def salePayouts (deps : Deps) (s : Storage) (item : ItemInfo) (recipient : CanonicalAddr)
    (royalty : Option (CanonicalAddr × RoyaltyInfo)) (shares : Shares) : Result (List CosmosMsg) :=
  if recipient = item.creator then .ok []
  else do
    let rewards ← fullRewards deps s item.creator recipient shares.highestBid
    let payout ← sendShare deps s.config (some item.creator) shares.net
    let royaltySend ← sendShare deps s.config (royalty.map Prod.fst) shares.royalty
    let lotaSend ← sendShare deps s.config (some s.config.lotaContract) shares.lota
    let charitySend ← sendShare deps s.config shares.charityAddress shares.charity
    return rewards ++ payout ++ royaltySend ++ lotaSend ++ charitySend

def executeWithdrawNft (deps : Deps) (s : Storage) (env : Env) (info : MessageInfo) (auctionId : Nat) :
    Result (Storage × Response) := do
  let item ← std (s.items.load noItem auctionId)
  let contractAddress ← std (deps.api.addrHumanize item.nftContract)
  let minter ← queryMinter deps contractAddress
  let royalty := royaltyOf s minter
  reject (item.resolved = true) .unauthorized
  reject (env.blockTime.seconds < item.endTime) .unauthorized
  let recipient := saleRecipient item
  let shares ← splitBid s.config item royalty
  let items ← s.items.update auctionId fun stored => do
    let updateItem ← unwrapSome stored
    return { updateItem with resolved := true }
  let newOwner ← std (deps.api.addrHumanize recipient)
  let transfer : CosmosMsg :=
    .wasm (.executeCw721 contractAddress (.transferNft newOwner item.nftId))
  let payouts ← salePayouts deps s item recipient royalty shares
  let creator ← std (deps.api.addrHumanize item.creator)
  return (
    { s with items },
    { messages := transfer :: payouts
      attributes :=
        [("auction_type", "NFT"), ("auction_id", toString auctionId), ("sender", info.sender),
          ("creator", creator), ("recipient", newOwner)] })

def splitAmount : Decimal := ⟨5 * 10 ^ 17, by decide⟩

/-- The fee a cancellation charges and its transfers: half to the highest bidder and half to the
platform, or all to the platform when nobody leads. -/
def cancellationFees (deps : Deps) (s : Storage) (info : MessageInfo) (item : ItemInfo) :
    Result (Uint128 × List CosmosMsg) :=
  match item.highestBid with
  | none => .ok (.zero, [])
  | some highestBid => do
    let sent ← fundsSent s.config info
    let cancellationFee ← highestBid.mul s.cancellation.cancellationFee
    reject (sent ≠ cancellationFee) (.cancelAuctionFee (toString cancellationFee.u128) s.config.denom)
    match item.highestBidder with
    | some highestBidder =>
      let half ← cancellationFee.mul splitAmount
      let toBidder ← sendToRaw deps s.config highestBidder half
      let toLota ← sendToRaw deps s.config s.config.lotaContract half
      return (cancellationFee, [toBidder, toLota])
    | none =>
      let toLota ← sendToRaw deps s.config s.config.lotaContract cancellationFee
      return (cancellationFee, [toLota])

def executeCancelAuction (deps : Deps) (s : Storage) (env : Env) (info : MessageInfo) (auctionId : Nat) :
    Result (Storage × Response) := do
  match s.items.mayLoad auctionId with
  | none => .error (.err .unauthorized)
  | some item =>
    reject (item.endTime < env.blockTime.seconds) .endTimeExpired
    let rawSender ← std (deps.api.addrCanonicalize info.sender)
    reject (rawSender ≠ item.creator) .unauthorized
    let (feeIndicator, messages) ← cancellationFees deps s info item
    let items ← s.items.update auctionId fun stored => do
      let updatedItem ← unwrapSome stored
      return {
        updatedItem with
        endTime := (env.blockTime.minusSeconds MIN_TIME_AUCTION).seconds
        highestBidder := none }
    return (
      { s with items },
      { messages
        attributes :=
          [("action", "cancel_auction"), ("auction_id", toString auctionId),
            ("cancellation_fee", toString feeIndicator.u128)] })

end NftMarketplace
