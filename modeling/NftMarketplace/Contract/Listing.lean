import NftMarketplace.State
import NftMarketplace.Msg

/-! Setting the contract up, listing an NFT for auction and registering for a private sale. -/

namespace NftMarketplace
open Cosmwasm Outcome

def MIN_TIME_AUCTION : Nat := 600
def MAX_TIME_AUCTION : Nat := 15778800
def LAST_MINUTE_BID_EXTRA_TIME : Nat := 600

/-- `ROYALTY_MAX_FEE`, 10%. -/
def royaltyMaxFee : Decimal := ⟨10 ^ 17, by decide⟩

def defaultRoyaltyFee : Decimal := Decimal.zero

def noItem : StdError := .notFound "marketplace::state::ItemInfo"
def noBid : StdError := .notFound "marketplace::state::BidInfo"

/-- Every map is empty in a new contract and no NFT was listed. -/
def instantiate (deps : Deps) (env : Env) (info : MessageInfo) (msg : InstantiateMsg) :
    Result (Storage × Response) := do
  let lotaContract ← std (deps.api.addrCanonicalize msg.lotaContract)
  let config : Config :=
    { denom := msg.denom
      bidMargin := msg.bidMargin
      lotaFee := msg.lotaFee
      lotaFeeLow := msg.lotaFeeLow
      lotaContract
      sityFullRewards := msg.sityFullRewards
      sityPartialRewards := msg.sityPartialRewards
      sityFeeRegistration := msg.sityFeeRegistration
      sityMinOpening := msg.sityMinOpening }
  let cw20Address ← std (deps.api.addrCanonicalize env.contractAddress)
  let msgInit : Cw20InstantiateMsg :=
    { name := "curio", symbol := "SITY", decimals := 6, minter := env.contractAddress }
  return (
    { config
      state := { counterItems := 0, cw20Address }
      cancellation := { cancellationFee := Decimal.zero }
      items := .empty
      bids := .empty
      historiesBidder := .empty
      histories := .empty
      royalty := .empty },
    { messages := [.wasm (.instantiateCw20 env.contractAddress msg.cw20CodeId msgInit msg.cw20Label)]
      attributes := [("method", "instantiate"), ("owner", info.sender)] })

def cw20InstanceReply (deps : Deps) (s : Storage) (result : Except String (List ChainEvent)) :
    Result (Storage × Response) :=
  match result with
  | .error _ => .error (.err .unauthorized)
  | .ok events => do
    let event ← unwrapSome (events.find? (·.ty = "instantiate_contract"))
    let attr ← unwrapSome (event.attributes.find? (·.1 = "contract_address"))
    let cw20Address ← std (deps.api.addrCanonicalize attr.2)
    return (
      { s with state := { s.state with cw20Address } },
      { messages := []
        attributes := [("cw20-address", attr.2), ("action", "cw20-instantiate")] })

def reply (deps : Deps) (s : Storage) (_env : Env) (msg : Reply) : Result (Storage × Response) :=
  match msg.id with
  | 0 => cw20InstanceReply deps s msg.result
  | _ => .error (.err .unauthorized)

def checkStartPrice (args : CreateAuctionNft) : Result Unit :=
  match args.startPrice with
  | none => .ok ()
  | some startPrice => do
    reject (∃ instantBuy ∈ args.instantBuy, instantBuy ≤ startPrice) (.startPriceHigherThan "instant buy")
    reject (∃ reservePrice ∈ args.reservePrice, reservePrice < startPrice) (.startPriceHigherThan "reserve price")

def validCharity (deps : Deps) : Option CharityResponse → Result (Option CharityInfo)
  | none => .ok none
  | some info => do
    reject (info.feePercentage.isZero ∨ Decimal.one < info.feePercentage) .percentageFormat
    let addrValidate ← std (deps.api.addrValidate info.address)
    let addrRaw ← std (deps.api.addrCanonicalize addrValidate)
    return some { address := addrRaw, feePercentage := info.feePercentage }

def instantBuyPrice (args : CreateAuctionNft) : Result (Option Uint128) :=
  match args.instantBuy with
  | none => .ok none
  | some instantBuy => do
    reject instantBuy.isZero .zeroNotValid
    reject (∃ reservePrice ∈ args.reservePrice, instantBuy < reservePrice)
      (.instantBuyPriceLowerThan "reserve price")
    return some instantBuy

def executeCreateAuction (deps : Deps) (s : Storage) (env : Env) (info : MessageInfo)
    (sender tokenId : String) (args : CreateAuctionNft) : Result (Storage × Response) := do
  let senderRaw ← std (deps.api.addrCanonicalize sender)
  let contractRaw ← std (deps.api.addrCanonicalize info.sender)
  reject (args.endTime < (env.blockTime.plusSeconds MIN_TIME_AUCTION).seconds) .endTimeExpired
  reject ((env.blockTime.plusSeconds MAX_TIME_AUCTION).seconds < args.endTime) .auctionLimitReached
  let start := args.startTime.getD env.blockTime.seconds
  -- `start.checked_add(MIN_TIME_AUCTION).unwrap()` on a u64
  let earliest ← unwrapSome (if start + MIN_TIME_AUCTION < 2 ^ 64 then some (start + MIN_TIME_AUCTION) else none)
  reject (args.endTime ≤ earliest) .endTimeExpired
  checkStartPrice args
  let charity ← validCharity deps args.charity
  let instantBuy ← instantBuyPrice args
  let item : ItemInfo :=
    { creator := senderRaw
      startPrice := args.startPrice
      startTime := start
      endTime := args.endTime
      highestBid := none
      highestBidder := none
      nftContract := contractRaw
      nftId := tokenId
      totalBids := 0
      charity
      instantBuy
      reservePrice := args.reservePrice
      privateSale := args.privateSale
      resolved := false }
  return (
    { s with
      items := s.items.save s.state.counterItems item
      state := { s.state with counterItems := s.state.counterItems + 1 } },
    { messages := []
      attributes :=
        [("create_auction_type", "NFT"), ("token_id", tokenId), ("contract_minter", info.sender),
          ("creator", sender), ("new_temporal_owner", env.contractAddress),
          ("auction_id", toString s.state.counterItems), ("private_sale", toString args.privateSale)] })

def registrationPrice (config : Config) (item : ItemInfo) : Result Uint128 :=
  match item.highestBid with
  | none => .ok config.sityMinOpening
  | some highestBid => do
    let share ← highestBid.mul config.sityFeeRegistration
    config.sityMinOpening.add share

def checkRegistration (config : Config) (item : ItemInfo) (sent : Uint128) : Result Unit :=
  if item.privateSale then do
    let sityRequired ← registrationPrice config item
    reject (sityRequired ≠ sent) (.privateSaleRestriction sityRequired)
  else .error (.err .unauthorized)

def executeRegisterPrivateSale (deps : Deps) (s : Storage) (env : Env) (_info : MessageInfo)
    (sender : String) (sent : Uint128) (auctionId : Nat) : Result (Storage × Response) := do
  let senderRaw ← std (deps.api.addrCanonicalize sender)
  match s.items.mayLoad auctionId with
  | none => .error (.err .unauthorized)
  | some item =>
    reject (item.endTime < env.blockTime.seconds) .endTimeExpired
    reject (env.blockTime.seconds < item.startTime) .auctionNotStarted
    reject (item.creator = senderRaw) .unauthorized
    checkRegistration s.config item sent
    reject (s.bids.mayLoad (auctionId, senderRaw)).isSome .unauthorized
    let bid : BidInfo := { bidCounter := 0, totalBid := Uint128.zero, sityUsed := some sent, resolved := false }
    let cw20 ← std (deps.api.addrHumanize s.state.cw20Address)
    return (
      { s with bids := s.bids.save (auctionId, senderRaw) bid },
      { messages := [.wasm (.executeCw20 cw20 (.burn sent))]
        attributes :=
          [("register_auction", toString auctionId), ("sender", sender),
            ("amount_required", toString sent.u128)] })

end NftMarketplace
