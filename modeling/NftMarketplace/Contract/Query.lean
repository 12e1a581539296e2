import NftMarketplace.Contract.Listing
import NftMarketplace.Lib.BigEndian

/-!
The queries: one auction by its number, all of them page by page, the bids of an auction with what one
bidder has in it, the settings, and the royalty terms of a minter.
-/

namespace NftMarketplace
open Cosmwasm Outcome

structure AuctionResponse where
  creator : String
  startPrice : Option Uint128
  startTime : Nat
  endTime : Nat
  highestBid : Option Uint128
  highestBidder : Option String
  nftContract : String
  nftId : String
  totalBids : Nat
  charity : Option CharityResponse
  instantBuy : Option Uint128
  reservePrice : Option Uint128
  privateSale : Bool
  resolved : Bool
  deriving DecidableEq, Inhabited

structure BidResponse where
  bidCounter : Nat
  totalBid : Uint128
  sityUsed : Option Uint128
  deriving DecidableEq

structure ConfigResponse where
  denom : String
  bidMargin : Decimal
  lotaFee : Decimal
  lotaFeeLow : Decimal
  lotaContract : String
  sityFullRewards : Decimal
  sityPartialRewards : Decimal
  sityFeeRegistration : Decimal
  sityMinOpening : Uint128
  cancellationFee : Decimal
  deriving DecidableEq

structure StateResponse where
  counterItems : Nat
  cw20Address : String
  deriving DecidableEq

structure HistoryBidResponse where
  bidder : String
  amount : Uint128
  time : Nat
  instantBuy : Bool
  deriving DecidableEq

structure HistoryResponse where
  bids : List HistoryBidResponse
  deriving DecidableEq

structure AllAuctionsResponse where
  auctions : List (Nat × AuctionResponse)
  deriving DecidableEq

structure RoyaltyResponse where
  creator : String
  fee : Decimal
  recipient : Option String
  deriving DecidableEq

inductive QueryMsg where
  | auction (auctionId : Nat)
  | bidder (auctionId : Nat) (address : String)
  | historyBids (auctionId : Nat)
  | historyBidderBids (auctionId : Nat) (address : String)
  | config
  | state
  | allAuctions (startAfter limit : Option Nat)
  | royalty (address : String)
  deriving DecidableEq

/-- What `to_binary` is given: the response to one of the queries. -/
inductive QueryAnswer where
  | auction (r : AuctionResponse)
  | bidder (r : BidResponse)
  | history (r : HistoryResponse)
  | config (r : ConfigResponse)
  | state (r : StateResponse)
  | allAuctions (r : AllAuctionsResponse)
  | royalty (r : RoyaltyResponse)
  deriving DecidableEq

abbrev StdResult := Outcome StdError

def DEFAULT_LIMIT : Nat := 10
def MAX_LIMIT : Nat := 30

/-- `to_be_bytes` of a u64, the key of an auction in the store. -/
def toBeBytes (id : Nat) : List UInt8 := BigEndian.toBytes 8 id

/-- `u64::from_be_bytes(k.try_into().unwrap())` -/
def fromBeBytes (k : List UInt8) : StdResult Nat :=
  if k.length = 8 then .ok (BigEndian.ofBytes k) else .error .panic

/-- `range` of cw-storage-plus on `ITEMS` in ascending order, from an exclusive lower bound and without an
upper one. -/
abbrev ItemRange := FiniteMap Nat ItemInfo → Option (List UInt8) → List (List UInt8 × ItemInfo)

/-- A range visits each stored key above its bound once, in the lexicographic order of the bytes. -/
structure ItemRange.Lawful (range : ItemRange) : Prop where
  ascending : ∀ items start, (∀ id ∈ items.keys, id < 2 ^ 64) → ((range items start).map Prod.fst).Pairwise (· < ·)
  member : ∀ items start, (∀ id ∈ items.keys, id < 2 ^ 64) → ∀ key item,
    (key, item) ∈ range items start ↔
      (∃ id, key = toBeBytes id ∧ items.mayLoad id = some item) ∧ ∀ bound ∈ start, bound < key

/-- `highest_bidder` of a response, the same expression in both queries. -/
def humanBidder (deps : Deps) : Option CanonicalAddr → StdResult (Option String)
  | none => .ok none
  | some highestBidder => do
    let human ← propagate (deps.api.addrHumanize highestBidder)
    return some human

/-- `charity` of a response, the same expression in both queries. -/
def humanCharity (deps : Deps) : Option CharityInfo → StdResult (Option CharityResponse)
  | none => .ok none
  | some charity => do
    let address ← propagate (deps.api.addrHumanize charity.address)
    return some { address, feePercentage := charity.feePercentage }

/-- The closure that `query_all_auctions` maps over the range. -/
def auctionEntry (deps : Deps) : List UInt8 × ItemInfo → StdResult (Nat × AuctionResponse)
  | (k, item) => do
    let highestBidder ← humanBidder deps item.highestBidder
    let charity ← humanCharity deps item.charity
    let id ← fromBeBytes k
    let creator ← propagate (deps.api.addrHumanize item.creator)
    let nftContract ← propagate (deps.api.addrHumanize item.nftContract)
    return (
      id,
      { creator
        startPrice := item.startPrice
        startTime := item.startTime
        endTime := item.endTime
        highestBid := item.highestBid
        highestBidder
        nftContract
        nftId := item.nftId
        totalBids := item.totalBids
        charity
        instantBuy := item.instantBuy
        reservePrice := item.reservePrice
        privateSale := item.privateSale
        resolved := item.resolved })

def queryAllAuctions (range : ItemRange) (deps : Deps) (s : Storage) (startAfter limit : Option Nat) :
    StdResult AllAuctionsResponse := do
  let limit := min (limit.getD DEFAULT_LIMIT) MAX_LIMIT
  let start := startAfter.map toBeBytes
  let auctions ← ((range s.items start).take limit).mapM (auctionEntry deps)
  return { auctions }

def queryAuction (deps : Deps) (s : Storage) (_env : Env) (auctionId : Nat) : StdResult AuctionResponse := do
  let item ← propagate (s.items.load (.genericErr "Not found") auctionId)
  let highestBidder ← humanBidder deps item.highestBidder
  let charity ← humanCharity deps item.charity
  let creator ← propagate (deps.api.addrHumanize item.creator)
  let nftContract ← propagate (deps.api.addrHumanize item.nftContract)
  return {
    creator
    startPrice := item.startPrice
    startTime := item.startTime
    endTime := item.endTime
    highestBid := item.highestBid
    highestBidder
    nftContract
    nftId := item.nftId
    totalBids := item.totalBids
    charity
    instantBuy := item.instantBuy
    reservePrice := item.reservePrice
    privateSale := item.privateSale
    resolved := item.resolved }

/-- The closure that both history queries map over a log. -/
def historyBid (deps : Deps) (hist : HistoryBidInfo) : StdResult HistoryBidResponse := do
  let bidder ← unwrap (deps.api.addrHumanize hist.bidder)
  return { bidder, amount := hist.amount, time := hist.time, instantBuy := hist.instantBuy }

def historyBids (deps : Deps) : Option HistoryInfo → StdResult (List HistoryBidResponse)
  | none => return []
  | some history => history.bids.mapM (historyBid deps)

def queryBids (deps : Deps) (s : Storage) (_env : Env) (auctionId : Nat) : StdResult HistoryResponse := do
  let hist ← historyBids deps (s.histories.mayLoad auctionId)
  return { bids := hist }

def queryBidderBids (deps : Deps) (s : Storage) (_env : Env) (auctionId : Nat) (address : String) :
    StdResult HistoryResponse := do
  let addrRaw ← propagate (deps.api.addrCanonicalize address)
  let hist ← historyBids deps (s.historiesBidder.mayLoad (auctionId, addrRaw))
  return { bids := hist }

def queryConfig (deps : Deps) (s : Storage) (_env : Env) : StdResult ConfigResponse := do
  let lotaContract ← propagate (deps.api.addrHumanize s.config.lotaContract)
  return {
    denom := s.config.denom
    bidMargin := s.config.bidMargin
    lotaFee := s.config.lotaFee
    lotaFeeLow := s.config.lotaFeeLow
    lotaContract
    sityFullRewards := s.config.sityFullRewards
    sityPartialRewards := s.config.sityPartialRewards
    sityFeeRegistration := s.config.sityFeeRegistration
    sityMinOpening := s.config.sityMinOpening
    cancellationFee := s.cancellation.cancellationFee }

def queryState (deps : Deps) (s : Storage) (_env : Env) : StdResult StateResponse := do
  let cw20Address ← propagate (deps.api.addrHumanize s.state.cw20Address)
  return { counterItems := s.state.counterItems, cw20Address }

def queryBidder (deps : Deps) (s : Storage) (_env : Env) (auctionId : Nat) (address : String) :
    StdResult BidResponse := do
  let addrRaw ← propagate (deps.api.addrCanonicalize address)
  match s.bids.mayLoad (auctionId, addrRaw) with
  | none => return { bidCounter := 0, totalBid := Uint128.zero, sityUsed := none }
  | some bid => return { bidCounter := bid.bidCounter, totalBid := bid.totalBid, sityUsed := bid.sityUsed }

/-- `recipient` of `query_royalty`. -/
def humanRecipient (deps : Deps) : Option CanonicalAddr → StdResult (Option String)
  | none => .ok none
  | some rawRecipient => do
    let human ← propagate (deps.api.addrHumanize rawRecipient)
    return some human

def queryRoyalty (deps : Deps) (s : Storage) (_env : Env) (address : String) : StdResult RoyaltyResponse := do
  let rawAddress ← propagate (deps.api.addrCanonicalize address)
  let store := (s.royalty.mayLoad rawAddress).getD
    { creator := rawAddress, fee := defaultRoyaltyFee, recipient := none }
  let recipient ← humanRecipient deps store.recipient
  let creator ← propagate (deps.api.addrHumanize store.creator)
  return { creator, fee := store.fee, recipient }

/-- The entry point. The answer stands for its serialised form. -/
def query (range : ItemRange) (deps : Deps) (s : Storage) (env : Env) : QueryMsg → StdResult QueryAnswer
  | .auction auctionId => QueryAnswer.auction <$> queryAuction deps s env auctionId
  | .bidder auctionId address => QueryAnswer.bidder <$> queryBidder deps s env auctionId address
  | .config => QueryAnswer.config <$> queryConfig deps s env
  | .state => QueryAnswer.state <$> queryState deps s env
  | .historyBids auctionId => QueryAnswer.history <$> queryBids deps s env auctionId
  | .historyBidderBids auctionId address => QueryAnswer.history <$> queryBidderBids deps s env auctionId address
  | .allAuctions startAfter limit => QueryAnswer.allAuctions <$> queryAllAuctions range deps s startAfter limit
  | .royalty address => QueryAnswer.royalty <$> queryRoyalty deps s env address

end NftMarketplace
