import NftMarketplace.Cosmwasm.Chain

/-! Messages and errors of the contract. -/

namespace NftMarketplace
open Cosmwasm

structure InstantiateMsg where
  denom : String
  cw20CodeId : Nat
  cw20Label : String
  bidMargin : Decimal
  lotaFee : Decimal
  lotaFeeLow : Decimal
  lotaContract : String
  sityFullRewards : Decimal
  sityPartialRewards : Decimal
  sityFeeRegistration : Decimal
  sityMinOpening : Uint128

structure CharityResponse where
  address : String
  feePercentage : Decimal
  deriving DecidableEq

structure CreateAuctionNft where
  startPrice : Option Uint128
  startTime : Option Nat
  endTime : Nat
  charity : Option CharityResponse
  instantBuy : Option Uint128
  reservePrice : Option Uint128
  privateSale : Bool
  deriving DecidableEq

inductive ReceiveMsg where
  | createAuctionNft (args : CreateAuctionNft)
  | registerPrivateSale (auctionId : Nat)
  deriving DecidableEq

/-- A notification from a cw721 contract. `msg` is what `from_binary` makes of the payload. -/
structure Cw721ReceiveMsg where
  sender : String
  tokenId : String
  msg : Except StdError ReceiveMsg
  deriving DecidableEq

structure Cw20ReceiveMsg where
  sender : String
  amount : Uint128
  msg : Except StdError ReceiveMsg
  deriving DecidableEq

inductive ExecuteMsg where
  | placeBid (auctionId : Nat)
  | retractBids (auctionId : Nat)
  | withdrawNft (auctionId : Nat)
  | instantBuy (auctionId : Nat)
  | cancelAuction (auctionId : Nat)
  | updateRoyalty (fee : Decimal) (recipient : Option String)
  | receiveNft (wrapper : Cw721ReceiveMsg)
  | receive (wrapper : Cw20ReceiveMsg)
  deriving DecidableEq

/-- An event of a submessage, as far as `reply` reads it. -/
structure ChainEvent where
  ty : String
  attributes : List (String × String)

structure Reply where
  id : Nat
  result : Except String (List ChainEvent)

inductive ContractError where
  | std (e : StdError)
  | unauthorized
  | endTimeExpired
  | percentageFormat
  | zeroNotValid
  | emptyFunds
  | wrongDenom
  | multipleDenoms
  | auctionNotStarted
  | inaccurateFunds (price total : Uint128)
  | minBid (minBid total : Uint128)
  | privateSaleRestriction (sityRequired : Uint128)
  | useInstantBuy (price total : Uint128)
  | startPriceHigherThan (what : String)
  | instantBuyPriceLowerThan (what : String)
  | auctionLimitReached
  | maxRoyaltyReached
  | cancelAuctionFee (fee denom : String)
  deriving DecidableEq

abbrev Result := Outcome ContractError

def std {α : Type} : Except StdError α → Result α
  | .ok a => .ok a
  | .error e => .error (.err (.std e))

@[simp] theorem std_ok {α : Type} {x : Except StdError α} {a : α} : std x = .ok a ↔ x = .ok a := by
  cases x <;> simp [std]

end NftMarketplace
