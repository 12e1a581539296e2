import NftMarketplace.Cosmwasm.Chain
import NftMarketplace.Lib.FiniteMap

/-! The contract's stored records and its storage. -/

namespace NftMarketplace
open Cosmwasm

structure Config where
  denom : String
  bidMargin : Decimal
  lotaFee : Decimal
  lotaFeeLow : Decimal
  lotaContract : CanonicalAddr
  sityFullRewards : Decimal
  sityPartialRewards : Decimal
  sityFeeRegistration : Decimal
  sityMinOpening : Uint128

structure State where
  counterItems : Nat
  cw20Address : CanonicalAddr

structure Cancellation where
  cancellationFee : Decimal

structure CharityInfo where
  address : CanonicalAddr
  feePercentage : Decimal
  deriving DecidableEq

structure ItemInfo where
  creator : CanonicalAddr
  startPrice : Option Uint128
  startTime : Nat
  endTime : Nat
  highestBid : Option Uint128
  highestBidder : Option CanonicalAddr
  nftContract : CanonicalAddr
  nftId : String
  totalBids : Nat
  charity : Option CharityInfo
  instantBuy : Option Uint128
  reservePrice : Option Uint128
  privateSale : Bool
  resolved : Bool
  deriving DecidableEq

structure BidInfo where
  bidCounter : Nat
  totalBid : Uint128
  sityUsed : Option Uint128
  resolved : Bool
  deriving DecidableEq

structure HistoryBidInfo where
  bidder : CanonicalAddr
  amount : Uint128
  time : Nat
  instantBuy : Bool
  deriving DecidableEq

structure HistoryInfo where
  bids : List HistoryBidInfo
  deriving DecidableEq

structure RoyaltyInfo where
  creator : CanonicalAddr
  fee : Decimal
  recipient : Option CanonicalAddr
  deriving DecidableEq

/-- The storage of an instantiated contract: `instantiate` writes the three single items and
nothing removes them. An auction's key is its number, big-endian bytes being injective. -/
structure Storage where
  config : Config
  state : State
  cancellation : Cancellation
  items : FiniteMap Nat ItemInfo
  bids : FiniteMap (Nat × CanonicalAddr) BidInfo
  historiesBidder : FiniteMap (Nat × CanonicalAddr) HistoryInfo
  histories : FiniteMap Nat HistoryInfo
  royalty : FiniteMap CanonicalAddr RoyaltyInfo

def Storage.totalBid (s : Storage) (i : Nat) (b : CanonicalAddr) : Uint128 :=
  ((s.bids.mayLoad (i, b)).map BidInfo.totalBid).getD Uint128.zero

end NftMarketplace
