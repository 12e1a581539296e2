import NftMarketplace.Runs.Logs
import NftMarketplace.Runs.Sales

/-!
Who gets the NFT. The rule of the auction is about the messages alone: the last bid that was not called
off wins if it meets the reserve, and then it is the highest of all. A settlement follows the rule.
-/

namespace NftMarketplace
open Cosmwasm

section
variable {api : Api} {es : List (Accepted api)} {e : Accepted api} {s : Storage} {i : Nat} {item : ItemInfo}

/-- What a message says about the leader of auction `i`: a bid its own entry, a cancellation nobody. -/
def Accepted.call (e : Accepted api) (i : Nat) : Option (Option HistoryBidInfo) :=
  if e.msg = .cancelAuction i then some none else (e.entry i).map some

/-- The bid that stands after a run. -/
def standing (i : Nat) (es : List (Accepted api)) : Option HistoryBidInfo := (es.filterMap (·.call i)).getLast?.join

/-- The rule of the auction. -/
def verdict (reserve : Nat) (i : Nat) (es : List (Accepted api)) : Option HistoryBidInfo :=
  (standing i es).filter (reserve ≤ ·.amount.u128)

theorem standing_snoc : standing i (es ++ [e]) = (e.call i).getD (standing i es) := by
  unfold standing
  rw [List.filterMap_append]
  cases call : e.call i <;> simp [call]

theorem call_quiet (noBid : e.msg ≠ .placeBid i) (noPurchase : e.msg ≠ .instantBuy i)
    (noCancel : e.msg ≠ .cancelAuction i) : e.call i = none := by
  rw [Accepted.call, if_neg noCancel, entry_quiet noBid noPurchase, Option.map_none]

theorem call_entry {entry : HistoryBidInfo} (added : e.entry i = some entry) : e.call i = some (some entry) := by
  have bids : e.msg ≠ .cancelAuction i := by
    intro message
    rw [entry_quiet (by simp [message]) (by simp [message])] at added
    cases added
  rw [Accepted.call, if_neg bids, added, Option.map_some]

/-- The stored leader and price of an auction are those of the standing bid. -/
structure Led (i : Nat) (es : List (Accepted api)) (x : Slice) : Prop where
  leader : x.highestBidder = (standing i es).map HistoryBidInfo.bidder
  price : ∀ entry, standing i es = some entry → x.highestBid = some entry.amount.u128

theorem Led.quiet {x y : Slice} (led : Led i es x) (call : e.call i = none) (leader : y.highestBidder = x.highestBidder)
    (price : y.highestBid = x.highestBid) : Led i (es ++ [e]) y where
  leader := by rw [standing_snoc, call, Option.getD_none, leader, led.leader]
  price entry stands := by
    rw [standing_snoc, call, Option.getD_none] at stands
    rw [price, led.price entry stands]

theorem led_by {entry : HistoryBidInfo} {x : Slice} (added : e.entry i = some entry)
    (leader : x.highestBidder = some entry.bidder) (price : x.highestBid = some entry.amount.u128) :
    Led i (es ++ [e]) x where
  leader := by rw [standing_snoc, call_entry added, Option.getD_some, leader, Option.map_some]
  price entry' stands := by
    rw [standing_snoc, call_entry added, Option.getD_some] at stands
    rw [price, Option.some.inj stands]

theorem Effect.led (h : Effect e i) (wellFormed : WellFormed api e.before) (led : Led i es (e.before.slice i)) :
    Led i (es ++ [e]) (e.after.slice i) := by
  cases h with
  | away elsewhere same =>
    have other {msg : ExecuteMsg} (about : msg.auction e.before.state.counterItems = some i) : e.msg ≠ msg := by
      rintro rfl
      exact elsewhere about
    exact led.quiet (call_quiet (other rfl) (other rfl) (other rfl)) (by rw [same]) (by rw [same])
  | listed number listing after =>
    have new := wellFormed.unlisted i number.le
    refine led.quiet (call_quiet ?_ ?_ ?_) ?_ ?_ <;>
      simp [listing.message, after, new, Slice.highestBidder, Slice.highestBid, Slice.empty, listing.spec.unled,
        listing.spec.unbid]
  | registered message _ _ after =>
    refine led.quiet (call_quiet ?_ ?_ ?_) ?_ ?_ <;> simp [message, after]
  | placed message spec after =>
    refine led_by (entry_placed message spec after) ?_ ?_ <;> rw [after] <;> rfl
  | bought message spec after =>
    refine led_by (entry_bought message spec after) ?_ ?_ <;> rw [after] <;> rfl
  | retracted message _ after =>
    refine led.quiet (call_quiet ?_ ?_ ?_) ?_ ?_ <;> simp [message, after]
  | withdrawn message spec after =>
    refine led.quiet (call_quiet ?_ ?_ ?_) ?_ ?_ <;>
      simp [message, after, Slice.highestBidder, Slice.highestBid, ItemInfo.settled, spec.stored]
  | cancelled message spec after =>
    have call : e.call i = some none := if_pos message
    constructor
    · rw [standing_snoc, call, after]
      rfl
    · intro entry stands
      rw [standing_snoc, call] at stands
      cases stands

theorem Reached.led (reached : Reached api es s) (i : Nat) : Led i es (s.slice i) := by
  apply reached.induction (P := fun es s => Led i es (s.slice i))
  · intro s fresh
    rw [fresh.slice]
    exact ⟨rfl, fun _ stands => nomatch stands⟩
  · intro es e before _ ih
    exact (effect e i).led before.wellFormed ih

/-- The winner under the rule is the bidder whom the contract holds to the bid. -/
theorem Reached.verdict_bound (reached : Reached api es s) (found : s.items.mayLoad i = some item)
    {entry : HistoryBidInfo} (wins : verdict item.reserve i es = some entry) :
    item.Bound entry.bidder ∧ item.price = entry.amount.u128 := by
  obtain ⟨stands, met⟩ := Option.filter_eq_some_iff.mp wins
  have led := reached.led i
  have present : (s.slice i).item = some item := found
  have leader : item.highestBidder = some entry.bidder := by
    have same := led.leader
    rwa [stands, Slice.highestBidder, present] at same
  have price : item.price = entry.amount.u128 := by
    rw [← Slice.highestBid_getD _ present, led.price entry stands, Option.getD_some]
  exact ⟨⟨leader, price ▸ of_decide_eq_true met⟩, price⟩

theorem Reached.bound_verdict (reached : Reached api es s) (found : s.items.mayLoad i = some item) {b : CanonicalAddr}
    (bound : item.Bound b) : (verdict item.reserve i es).isSome := by
  have led := reached.led i
  have present : (s.slice i).item = some item := found
  have leader := led.leader
  rw [Slice.highestBidder, present, Option.bind_some, bound.1] at leader
  obtain ⟨entry, stands, _⟩ := Option.map_eq_some_iff.mp leader.symm
  have price : item.price = entry.amount.u128 := by
    rw [← Slice.highestBid_getD _ present, led.price entry stands, Option.getD_some]
  rw [verdict, stands, Option.filter_some, if_pos (decide_eq_true (price ▸ bound.2))]
  rfl

/-- A settlement follows the rule. The winner gets the NFT for its bid, which no other bid exceeds and which is
all that it has deposited; without a winner the NFT goes back to the creator and nothing is paid. -/
theorem sale_decided {w : Accepted api} (reached : Reached api es w.before) (message : w.msg = .withdrawNft i)
    (found : w.item i = some item) :
    (∀ entry, verdict item.reserve i es = some entry → (∃ payouts, w.HandsTo i entry.bidder payouts) ∧
        (w.paid.map Prod.snd).sum = entry.amount.u128 ∧ w.before.totalBid i entry.bidder = entry.amount ∧
        ∀ other ∈ es.filterMap (·.entry i), other.amount ≤ entry.amount) ∧
      (verdict item.reserve i es = none →
        (∃ payouts, w.HandsTo i item.creator payouts) ∧ w.paid = [] ∧ w.mints = []) := by
  obtain ⟨stored, collection, _, minter, _, _, spec, _⟩ := Accepted.withdrawn message
  obtain rfl : item = stored := Option.some.inj (found.symm.trans spec.stored)
  have delivered := reached.delivered spec.stored message spec.contract spec.asked
  have sound := reached.sound spec.stored
  constructor
  · intro entry wins
    obtain ⟨bound, price⟩ := reached.verdict_bound found wins
    obtain ⟨recipient, other⟩ := sound.bound_iff.mp bound
    refine ⟨recipient ▸ delivered.hands, ?_, ?_, ?_⟩
    · rw [delivered.whole (by rwa [recipient]), price]
    · have deposit := (reached.backed spec.stored).2 _ bound
      rw [slice_totalBid, price] at deposit
      exact Uint128.ext deposit
    · intro entry' logged
      rw [← reached.entries_eq i] at logged
      obtain ⟨h, bid, le⟩ := reached.entry_le logged
      have highest : item.price = h := by rw [← Slice.highestBid_getD _ spec.stored, bid, Option.getD_some]
      rw [Uint128.le_def]
      omega
  · intro none
    have back : saleRecipient item = item.creator := by
      by_contra sold
      have winner := reached.bound_verdict found (sound.bound_iff.mpr ⟨rfl, sold⟩)
      rw [none] at winner
      cases winner
    exact ⟨back ▸ delivered.hands, delivered.back back⟩

end

/-- `bob` outbid `alice` and gets the token for 200 coins. -/
theorem sale_decided_soldToBob :
    ∃ w ∈ Demo.soldToBob.log, w.msg = .withdrawNft 0 ∧ (∃ payouts, w.HandsTo 0 Demo.bob payouts) ∧
      (w.paid.map Prod.snd).sum = 200 := by
  let w := Demo.soldToBob.log.get ⟨3, by decide⟩
  have reached : Reached Demo.api (Demo.soldToBob.log.take 3) w.before := (Demo.soldToBob.reached_at 3 (by decide)).before.1
  have present : (w.item 0).isSome := by decide
  have found : w.item 0 = some ((w.item 0).get present) := (Option.some_get present).symm
  obtain ⟨sold, _⟩ := sale_decided reached (show w.msg = .withdrawNft 0 by decide) found
  have wins : verdict ((w.item 0).get (by decide)).reserve 0 (Demo.soldToBob.log.take 3) =
      some ⟨Demo.bob, Demo.amount 200, 1100, false⟩ := by decide
  obtain ⟨hands, paid, _⟩ := sold _ wins
  exact ⟨w, List.get_mem _ _, by decide, hands, paid⟩

end NftMarketplace
