import NftMarketplace.Contract.Listing

/-! Bids and instant purchases: the two messages that take deposits. -/

namespace NftMarketplace
open Cosmwasm Outcome

/-- Exactly one coin, of the contract's denomination. The three handlers that take money share
this text. -/
def fundsSent (config : Config) (info : MessageInfo) : Result Uint128 :=
  match info.funds with
  | [] => .error (.err .emptyFunds)
  | [coin] => if coin.denom ≠ config.denom then .error (.err .wrongDenom) else .ok coin.amount
  | _ => .error (.err .multipleDenoms)

/-- The registration price a bid or purchase without registration is refused with. After the first
bid it is the share of the highest bid alone. -/
def quotedPrice (config : Config) (item : ItemInfo) : Result Uint128 :=
  match item.highestBid with
  | none => .ok config.sityMinOpening
  | some highestBid => highestBid.mul config.sityFeeRegistration

def requireRegistered (config : Config) (item : ItemInfo) (bid : Option BidInfo) : Result Unit :=
  if item.privateSale then do
    let sityRequired ← quotedPrice config item
    reject (bid = none) (.privateSaleRestriction sityRequired)
  else .ok ()

/-- `min_bid` of `execute_place_bid`. -/
def minimumBid (config : Config) (item : ItemInfo) : Result Uint128 :=
  let currentBid := item.highestBid.getD Uint128.zero
  let raised : Result Uint128 := do
    let bidMargin ← currentBid.mul config.bidMargin
    unwrap (currentBid.checkedAdd bidMargin)
  match item.startPrice with
  | none => raised
  | some startPrice => if currentBid < startPrice then .ok startPrice else raised

/-- `bid_total_sent` of `execute_place_bid`. -/
def bidTotal (bid : Option BidInfo) (sent : Uint128) : Result Uint128 :=
  match bid with
  | none => .ok sent
  | some bid => unwrap (bid.totalBid.checkedAdd sent)

/-- Credit `sent` to the entry under `key`, creating it for a first deposit. Gives the new entries
and the compounded deposit, `history_sent`. -/
def creditDeposit (bids : FiniteMap (Nat × CanonicalAddr) BidInfo) (key : Nat × CanonicalAddr)
    (sent : Uint128) : Result (FiniteMap (Nat × CanonicalAddr) BidInfo × Uint128) :=
  match bids.mayLoad key with
  | none =>
    let bid : BidInfo := { bidCounter := 1, totalBid := sent, sityUsed := none, resolved := false }
    .ok (bids.save key bid, sent)
  | some bid => do
    let historySent ← std (bid.totalBid.checkedAdd sent)
    let totalBid ← std (bid.totalBid.checkedAdd sent)
    return (bids.save key { bid with bidCounter := bid.bidCounter + 1, totalBid }, historySent)

/-- Append to the log under `key`: `first` starts a log that does not exist, `next` extends one. -/
def appendHistory {K : Type} [DecidableEq K] (logs : FiniteMap K HistoryInfo) (key : K)
    (first next : HistoryBidInfo) : FiniteMap K HistoryInfo :=
  match logs.mayLoad key with
  | none => logs.save key { bids := [first] }
  | some log => logs.save key { bids := log.bids ++ [next] }

def belowInstantBuy (item : ItemInfo) (bidTotalSent : Uint128) : Result Unit :=
  match item.instantBuy with
  | none => .ok ()
  | some instantBuy =>
    reject (instantBuy ≤ bidTotalSent) (.std (.genericErr
      s!"Use instant buy price {instantBuy.u128}, you are trying to bid higher {bidTotalSent.u128}"))

def executePlaceBid (deps : Deps) (s : Storage) (env : Env) (info : MessageInfo) (auctionId : Nat) :
    Result (Storage × Response) := do
  let senderRaw ← std (deps.api.addrCanonicalize info.sender)
  let sent ← fundsSent s.config info
  let item ← std (s.items.load noItem auctionId)
  reject (item.endTime < env.blockTime.seconds) .endTimeExpired
  reject (env.blockTime.seconds < item.startTime) .auctionNotStarted
  reject (item.creator = senderRaw) .unauthorized
  requireRegistered s.config item (s.bids.mayLoad (auctionId, senderRaw))
  let minBid ← minimumBid s.config item
  let bidTotalSent ← bidTotal (s.bids.mayLoad (auctionId, senderRaw)) sent
  reject (bidTotalSent < minBid) (.minBid minBid bidTotalSent)
  let items ← s.items.update auctionId fun stored => do
    let updatedItem ← unwrapSome stored
    belowInstantBuy updatedItem bidTotalSent
    return {
      updatedItem with
      highestBid := some bidTotalSent
      highestBidder := some senderRaw
      totalBids := updatedItem.totalBids + 1
      -- a bid in the last ten minutes moves the end, by ten minutes from where it was
      endTime := if updatedItem.endTime < (env.blockTime.plusSeconds LAST_MINUTE_BID_EXTRA_TIME).seconds
        then updatedItem.endTime + LAST_MINUTE_BID_EXTRA_TIME else updatedItem.endTime }
  let (bids, historySent) ← creditDeposit s.bids (auctionId, senderRaw) sent
  let entry : HistoryBidInfo :=
    { bidder := senderRaw, amount := historySent, time := env.blockTime.seconds, instantBuy := false }
  return (
    { s with
      items
      bids
      historiesBidder := appendHistory s.historiesBidder (auctionId, senderRaw) entry entry
      histories := appendHistory s.histories auctionId entry entry },
    { messages := []
      attributes :=
        [("new_bid", toString historySent.u128), ("sender", info.sender), ("auction_id", toString auctionId)] })

/-- `instant_buy_amount` of `execute_instant_buy`: the compounded deposit must be the price exactly. -/
def payInstantBuy (item : ItemInfo) (historySent : Uint128) : Result Uint128 :=
  match item.instantBuy with
  | none => .error (.err .unauthorized)
  | some amount => do
    reject (amount ≠ historySent) (.inaccurateFunds amount historySent)
    return amount

def executeInstantBuy (deps : Deps) (s : Storage) (env : Env) (info : MessageInfo) (auctionId : Nat) :
    Result (Storage × Response) := do
  match s.items.mayLoad auctionId with
  | none => .error (.err .unauthorized)
  | some item =>
    reject (item.endTime < env.blockTime.seconds) .endTimeExpired
    let senderRaw ← std (deps.api.addrCanonicalize info.sender)
    reject (item.creator = senderRaw) .unauthorized
    requireRegistered s.config item (s.bids.mayLoad (auctionId, senderRaw))
    let sent ← fundsSent s.config info
    let (bids, historySent) ← creditDeposit s.bids (auctionId, senderRaw) sent
    let instantBuyAmount ← payInstantBuy item historySent
    let items ← s.items.update auctionId fun stored => do
      let updatedItem ← unwrapSome stored
      return {
        updatedItem with
        endTime := (env.blockTime.minusSeconds MIN_TIME_AUCTION).seconds
        highestBid := some instantBuyAmount
        highestBidder := some senderRaw
        totalBids := updatedItem.totalBids + 1 }
    let entry : HistoryBidInfo :=
      { bidder := senderRaw, amount := historySent, time := env.blockTime.seconds, instantBuy := true }
    return (
      { s with
        items
        bids
        historiesBidder := appendHistory s.historiesBidder (auctionId, senderRaw) entry entry
        -- a new log of the auction starts with `sent`, not with the compounded deposit
        histories := appendHistory s.histories auctionId { entry with amount := sent } entry },
      { messages := []
        attributes :=
          [("instant_buy", "NFT"), ("nft_id", item.nftId), ("auction_id", toString auctionId)] })

end NftMarketplace
