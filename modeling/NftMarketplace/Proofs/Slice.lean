import NftMarketplace.Contract.Execute

/-!
One auction's part of the storage: its item, its bid entries and its logs. Every handler but
`execute_create_auction` works on one auction, and what it does there is a function of that part.
-/

namespace NftMarketplace
open Cosmwasm Outcome

@[ext] structure Slice where
  item : Option ItemInfo
  bid : CanonicalAddr → Option BidInfo
  log : Option HistoryInfo
  bidderLog : CanonicalAddr → Option HistoryInfo

def Slice.empty : Slice := ⟨none, fun _ => none, none, fun _ => none⟩

def Storage.slice (s : Storage) (i : Nat) : Slice where
  item := s.items.mayLoad i
  bid b := s.bids.mayLoad (i, b)
  log := s.histories.mayLoad i
  bidderLog b := s.historiesBidder.mayLoad (i, b)

def Slice.totalBid (x : Slice) (b : CanonicalAddr) : Nat :=
  ((x.bid b).map fun bid => bid.totalBid.u128).getD 0

theorem slice_totalBid (s : Storage) (i : Nat) (b : CanonicalAddr) :
    (s.slice i).totalBid b = (s.totalBid i b).u128 := by
  simp only [Slice.totalBid, Storage.slice, Storage.totalBid]
  cases s.bids.mayLoad (i, b) <;> rfl

/-- The highest bid as a number, zero when there is none. -/
def ItemInfo.price (item : ItemInfo) : Nat := (item.highestBid.map Uint128.u128).getD 0

def ItemInfo.reserve (item : ItemInfo) : Nat := (item.reservePrice.map Uint128.u128).getD 0

def Slice.highestBid (x : Slice) : Option Nat := x.item.bind fun item => item.highestBid.map Uint128.u128

def Slice.highestBidder (x : Slice) : Option CanonicalAddr := x.item.bind ItemInfo.highestBidder

def Slice.resolved (x : Slice) : Bool := (x.item.map ItemInfo.resolved).getD false

def BidInfo.credited (old : Option BidInfo) (total : Uint128) : BidInfo :=
  match old with
  | none => { bidCounter := 1, totalBid := total, sityUsed := none, resolved := false }
  | some bid => { bid with bidCounter := bid.bidCounter + 1, totalBid := total }

/-- A log after one more entry; a new log starts with `first`. -/
def HistoryInfo.push (log : Option HistoryInfo) (first next : HistoryBidInfo) : HistoryInfo :=
  match log with
  | none => { bids := [first] }
  | some log => { bids := log.bids ++ [next] }

theorem appendHistory_eq {K : Type} [DecidableEq K] (logs : FiniteMap K HistoryInfo) (k : K)
    (first next : HistoryBidInfo) :
    appendHistory logs k first next = logs.save k (.push (logs.mayLoad k) first next) := by
  unfold appendHistory HistoryInfo.push
  cases logs.mayLoad k <;> rfl

namespace Slice
variable (x : Slice)

def deposit (item : ItemInfo) (b : CanonicalAddr) (total : Uint128) (first entry : HistoryBidInfo) : Slice where
  item := some item
  bid := Function.update x.bid b (some (.credited (x.bid b) total))
  log := some (.push x.log first entry)
  bidderLog := Function.update x.bidderLog b (some (.push (x.bidderLog b) entry entry))

def withItem (item : ItemInfo) : Slice := { x with item := some item }

def withBid (b : CanonicalAddr) (bid : BidInfo) : Slice := { x with bid := Function.update x.bid b (some bid) }

@[simp] theorem deposit_item (item : ItemInfo) (b : CanonicalAddr) (total : Uint128) (first entry : HistoryBidInfo) :
    (x.deposit item b total first entry).item = some item := rfl

@[simp] theorem deposit_log (item : ItemInfo) (b : CanonicalAddr) (total : Uint128) (first entry : HistoryBidInfo) :
    (x.deposit item b total first entry).log = some (.push x.log first entry) := rfl

theorem deposit_bid (item : ItemInfo) (b c : CanonicalAddr) (total : Uint128) (first entry : HistoryBidInfo) :
    (x.deposit item b total first entry).bid c = if c = b then some (.credited (x.bid b) total) else x.bid c := by
  simp only [deposit, Function.update_apply]

theorem withBid_bid (b c : CanonicalAddr) (bid : BidInfo) :
    (x.withBid b bid).bid c = if c = b then some bid else x.bid c := by
  simp only [withBid, Function.update_apply]

@[simp] theorem withItem_item (item : ItemInfo) : (x.withItem item).item = some item := rfl

@[simp] theorem withItem_bid (item : ItemInfo) : (x.withItem item).bid = x.bid := rfl

@[simp] theorem withItem_log (item : ItemInfo) : (x.withItem item).log = x.log := rfl

@[simp] theorem withItem_bidderLog (item : ItemInfo) : (x.withItem item).bidderLog = x.bidderLog := rfl

@[simp] theorem withBid_item (b : CanonicalAddr) (bid : BidInfo) : (x.withBid b bid).item = x.item := rfl

@[simp] theorem withBid_log (b : CanonicalAddr) (bid : BidInfo) : (x.withBid b bid).log = x.log := rfl

@[simp] theorem withBid_bidderLog (b : CanonicalAddr) (bid : BidInfo) :
    (x.withBid b bid).bidderLog = x.bidderLog := rfl

@[simp] theorem withBid_highestBid (b : CanonicalAddr) (bid : BidInfo) :
    (x.withBid b bid).highestBid = x.highestBid := rfl

@[simp] theorem withBid_highestBidder (b : CanonicalAddr) (bid : BidInfo) :
    (x.withBid b bid).highestBidder = x.highestBidder := rfl

@[simp] theorem withBid_resolved (b : CanonicalAddr) (bid : BidInfo) :
    (x.withBid b bid).resolved = x.resolved := rfl

theorem highestBid_getD {item : ItemInfo} (stored : x.item = some item) : x.highestBid.getD 0 = item.price := by
  simp [highestBid, stored, ItemInfo.price]

@[simp] theorem withItem_totalBid (item : ItemInfo) (b : CanonicalAddr) :
    (x.withItem item).totalBid b = x.totalBid b := rfl

@[simp] theorem empty_totalBid (b : CanonicalAddr) : Slice.empty.totalBid b = 0 := rfl

theorem deposit_totalBid (item : ItemInfo) (b c : CanonicalAddr) (total : Uint128) (first entry : HistoryBidInfo) :
    (x.deposit item b total first entry).totalBid c = if c = b then total.u128 else x.totalBid c := by
  by_cases same : c = b
  · subst same
    simp only [totalBid, deposit, Function.update_self, BidInfo.credited]
    cases x.bid c <;> simp
  · simp [totalBid, deposit, same]

theorem withBid_totalBid (b c : CanonicalAddr) (bid : BidInfo) :
    (x.withBid b bid).totalBid c = if c = b then bid.totalBid.u128 else x.totalBid c := by
  by_cases same : c = b
  · subst same
    simp [totalBid, withBid]
  · simp [totalBid, withBid, same]

end Slice

/-- Two storages that differ at most in auction `i`. -/
structure SameElsewhere (i : Nat) (s t : Storage) : Prop where
  config : t.config = s.config
  state : t.state = s.state
  cancellation : t.cancellation = s.cancellation
  royalty : t.royalty = s.royalty
  slice : ∀ j, j ≠ i → t.slice j = s.slice j

section Writes
variable (s : Storage) (i : Nat)

theorem slice_deposit (item : ItemInfo) (b : CanonicalAddr) (total : Uint128) (first entry : HistoryBidInfo) :
    let t := { s with
      items := s.items.save i item
      bids := s.bids.save (i, b) (.credited (s.bids.mayLoad (i, b)) total)
      historiesBidder := appendHistory s.historiesBidder (i, b) entry entry
      histories := appendHistory s.histories i first entry }
    t.slice i = (s.slice i).deposit item b total first entry ∧ SameElsewhere i s t := by
  refine ⟨?_, rfl, rfl, rfl, rfl, ?_⟩
  · ext1
    · simp [Storage.slice]
    · funext c
      by_cases same : c = b <;> simp [Storage.slice, Slice.deposit, FiniteMap.mayLoad_save, Function.update, same]
    · simp [Storage.slice, appendHistory_eq]
    · funext c
      by_cases same : c = b <;>
        simp [Storage.slice, Slice.deposit, appendHistory_eq, FiniteMap.mayLoad_save, Function.update, same]
  · intro j other
    simp [Storage.slice, appendHistory_eq, FiniteMap.mayLoad_save, other]

theorem slice_item (item : ItemInfo) :
    let t := { s with items := s.items.save i item }
    t.slice i = (s.slice i).withItem item ∧ SameElsewhere i s t := by
  refine ⟨?_, rfl, rfl, rfl, rfl, ?_⟩
  · ext1 <;> simp [Storage.slice]
  · intro j other
    simp [Storage.slice, FiniteMap.mayLoad_save, other]

theorem slice_bid (b : CanonicalAddr) (bid : BidInfo) :
    let t := { s with bids := s.bids.save (i, b) bid }
    t.slice i = (s.slice i).withBid b bid ∧ SameElsewhere i s t := by
  refine ⟨?_, rfl, rfl, rfl, rfl, ?_⟩
  · ext1
    · rfl
    · funext c
      by_cases same : c = b <;> simp [Storage.slice, Slice.withBid, FiniteMap.mayLoad_save, Function.update, same]
    · rfl
    · rfl
  · intro j other
    simp [Storage.slice, FiniteMap.mayLoad_save, other]

end Writes

end NftMarketplace
