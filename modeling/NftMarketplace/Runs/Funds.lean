import NftMarketplace.Runs.Replay
import NftMarketplace.Runs.Accounts

/-!
The coins attached to a message. Bids and purchases credit them, and a cancellation passes its fee
on; what any other message carries stays in the contract.
-/

namespace NftMarketplace
open Cosmwasm

namespace Accepted
variable {api : Api} (e : Accepted api)

/-- How much the message raises its sender's deposit in the auction it is about. -/
def credited : Nat :=
  match e.msg.auction e.before.state.counterItems, e.sender with
  | some i, some b => (e.after.totalBid i b).u128 - (e.before.totalBid i b).u128
  | _, _ => 0

/-- What the response sends on out of the attached coins, before tax. Refunds and settlements are
paid out of deposits. -/
def forwarded : Nat :=
  match e.msg with
  | .cancelAuction _ => e.response.gross
  | _ => 0

def Accounted : Prop :=
  ∀ coin ∈ e.info.funds, coin.denom = e.before.config.denom ∧ coin.amount.u128 = e.credited + e.forwarded

instance : Decidable e.Accounted := inferInstanceAs (Decidable (∀ coin ∈ e.info.funds, _ ∧ _))

/-- No coins, or coins of amount zero. -/
def Unpaid : Prop := ∀ coin ∈ e.info.funds, coin.denom = e.before.config.denom ∧ coin.amount.u128 = 0

/-- The handler has a use for the attached coins: a deposit, or a fee that divides without remainder. -/
def Payable : Prop :=
  match e.msg with
  | .placeBid _ | .instantBuy _ => True
  | .cancelAuction i =>
    ∃ item ∈ e.item i, item.highestBid.isSome ∧ (item.highestBidder.isSome → e.attached % 2 = 0)
  | _ => False

end Accepted

section
variable {api : Api} {e : Accepted api} {i : Nat}

theorem Effect.totalBid_le (h : Effect e i) (noBid : e.msg ≠ .placeBid i) (noPurchase : e.msg ≠ .instantBuy i)
    (c : CanonicalAddr) : (e.after.slice i).totalBid c ≤ (e.before.slice i).totalBid c := by
  cases h with
  | away _ same => rw [same]
  | listed _ _ after => rw [after, Slice.withItem_totalBid]
  | registered _ _ _ after =>
    rw [after, Slice.withBid_totalBid]
    split
    · exact Nat.zero_le _
    · exact le_rfl
  | placed message => exact (noBid message).elim
  | bought message => exact (noPurchase message).elim
  | retracted _ _ after =>
    rw [after, Slice.withBid_totalBid]
    split
    · exact Nat.zero_le _
    · exact le_rfl
  | withdrawn _ _ after => rw [after, Slice.withItem_totalBid]
  | cancelled _ _ after => rw [after, Slice.withItem_totalBid]

theorem credited_zero (noBid : ∀ i, e.msg ≠ .placeBid i) (noPurchase : ∀ i, e.msg ≠ .instantBuy i) :
    e.credited = 0 := by
  unfold Accepted.credited
  split
  · next i b _ _ =>
    rw [← slice_totalBid, ← slice_totalBid]
    exact Nat.sub_eq_zero_of_le ((effect e i).totalBid_le (noBid i) (noPurchase i) b)
  · rfl

theorem accounted_deposit {b : CanonicalAddr} {item : ItemInfo} {sent total : Uint128} {first entry : HistoryBidInfo}
    (about : e.msg.auction e.before.state.counterItems = some i) (sender : e.sender = some b)
    (funds : e.info.funds = [{ denom := e.before.config.denom, amount := sent }])
    (after : e.after.slice i = (e.before.slice i).deposit item b total first entry)
    (compounded : total.u128 = (e.before.slice i).totalBid b + sent.u128) (kept : e.forwarded = 0) :
    e.Accounted := by
  have credited : e.credited = sent.u128 := by
    unfold Accepted.credited
    rw [about, sender]
    dsimp only
    rw [← slice_totalBid, ← slice_totalBid, after, Slice.deposit_totalBid, if_pos rfl, compounded]
    exact Nat.add_sub_cancel_left _ _
  intro coin member
  rw [funds, List.mem_singleton] at member
  subst member
  rw [credited, kept]
  exact ⟨rfl, rfl⟩

theorem accounted_idle (noBid : ∀ i, e.msg ≠ .placeBid i) (noPurchase : ∀ i, e.msg ≠ .instantBuy i)
    (kept : e.forwarded = 0) : e.Accounted ↔ e.Unpaid := by
  rw [Accepted.Accounted, credited_zero noBid noPurchase, kept]
  exact Iff.rfl

theorem accounted_cancelled {item : ItemInfo} {fee : Uint128} {msgs : List CosmosMsg}
    (message : e.msg = .cancelAuction i)
    (spec : Cancelled e.deps e.before e.env e.info (e.before.slice i) item fee msgs)
    (sends : e.response.messages = msgs) : e.Accounted ↔ e.Payable ∨ e.Unpaid := by
  have found : e.item i = some item := spec.stored
  have uncredited : e.credited = 0 := credited_zero (by simp [message]) (by simp [message])
  have forwards : e.forwarded = grossOf msgs := by rw [Accepted.forwarded, message, ← sends]; rfl
  have payable : e.Payable ↔ item.highestBid.isSome ∧ (item.highestBidder.isSome → e.attached % 2 = 0) := by
    simp [Accepted.Payable, message, found]
  have gross := cancellationFees_gross spec.fees
  rcases cancellationFees_ok spec.fees with ⟨unbid, rfl, rfl⟩ | ⟨bid, funds, _, _⟩
  · rw [accounted_idle (by simp [message]) (by simp [message]) forwards, payable, unbid]
    simp
  · -- one coin, the fee: it is accounted for when the halves make it up
    have single : e.Accounted ↔ fee.u128 = grossOf msgs := by
      rw [Accepted.Accounted, funds, uncredited, forwards, Nat.zero_add]
      simp
    have nothing : e.Unpaid ↔ fee.u128 = 0 := by
      rw [Accepted.Unpaid, funds]
      simp
    rw [single, nothing, payable, attached_single funds]
    unfold ItemInfo.remainder at gross
    constructor
    · intro whole
      left
      refine ⟨bid, ?_⟩
      intro lead
      rw [if_pos ⟨bid, lead⟩] at gross
      omega
    · intro divides
      split at gross
      · next both =>
        rcases divides with ⟨_, even⟩ | zero
        · have halves := even both.2
          omega
        · omega
      · omega

/-- The coins of an accepted message are accounted for exactly when the message has a use for them, or
carries none. -/
theorem funds_accounted_iff (e : Accepted api) : e.Accounted ↔ e.Payable ∨ e.Unpaid := by
  cases message : e.msg with
  | placeBid i =>
    obtain ⟨b, item, sent, total, spec, after, _, _⟩ := Accepted.placed message
    have payable : e.Payable := by simp [Accepted.Payable, message]
    have accounted : e.Accounted := accounted_deposit (by rw [message]; rfl) (Accepted.sender_ok spec.sender) spec.funds
      after spec.compounded (by rw [Accepted.forwarded, message])
    exact ⟨fun _ => Or.inl payable, fun _ => accounted⟩
  | instantBuy i =>
    obtain ⟨b, item, sent, price, spec, after, _, _⟩ := Accepted.bought message
    have payable : e.Payable := by simp [Accepted.Payable, message]
    have accounted : e.Accounted := accounted_deposit (by rw [message]; rfl) (Accepted.sender_ok spec.sender) spec.funds
      after spec.compounded (by rw [Accepted.forwarded, message])
    exact ⟨fun _ => Or.inl payable, fun _ => accounted⟩
  | cancelAuction i =>
    obtain ⟨item, fee, msgs, spec, _, _, sends⟩ := Accepted.cancelled message
    exact accounted_cancelled message spec sends
  | _ =>
    have useless : ¬ e.Payable := by simp [Accepted.Payable, message]
    rw [or_iff_right useless]
    exact accounted_idle (by simp [message]) (by simp [message]) (by rw [Accepted.forwarded, message])

end

/-- `bob` outbids `alice`. -/
def Demo.outbid : Demo.Scenario where
  msg := instantiateMsg
  rate := Decimal.zero
  deliveries := [listing none none none false, deliver 1000 "alice" (coins 100) (.placeBid 0),
    deliver 1100 "bob" (coins 200) (.placeBid 0)]
  accepted := by decide
  order := by decide

/-- `alice` leaves and attaches 50 coins, which nobody ever gets. -/
theorem coins_swallowed :
    ∃ es, ∃ e : Accepted Demo.api, Reached Demo.api es e.before ∧ e.msg = .retractBids 0 ∧
      (∀ coin ∈ e.info.funds, 0 < coin.amount.u128) ∧ ¬ e.Accounted := by
  let e := Demo.outbid.next (Demo.deliver 1200 "alice" (Demo.coins 50) (.retractBids 0)) (by decide)
  have reached : Reached Demo.api Demo.outbid.log e.before := by
    rw [Demo.outbid.next_before]
    exact Demo.outbid.reached
  exact ⟨_, e, reached, by decide, by decide, by decide⟩

end NftMarketplace
