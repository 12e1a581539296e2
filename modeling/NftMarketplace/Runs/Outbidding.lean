import NftMarketplace.Runs.Accounts
import NftMarketplace.Runs.Logs

/-!
Bids that outbid. The margin over the highest bid is rounded down, to nothing for a small bid, and then
an equal total takes the lead; apart from that the amounts of a log increase strictly.
-/

namespace NftMarketplace
open Cosmwasm

section
variable {api : Api} {es : List (Accepted api)} {e : Accepted api} {s : Storage} {i : Nat}

/-- The message leaves a higher bid than it found. -/
def Accepted.Outbids (e : Accepted api) (i : Nat) : Prop :=
  ∀ h ∈ (e.before.slice i).highestBid, ∃ h' ∈ (e.after.slice i).highestBid, h < h'

/-- The coins bring the sender's deposit to the highest bid itself. -/
def Accepted.Matches (e : Accepted api) (i h : Nat) : Prop :=
  ∃ b ∈ e.sender, (e.before.totalBid i b).u128 + e.attached = h

instance (e : Accepted api) (i h : Nat) : Decidable (e.Matches i h) := inferInstanceAs (Decidable (∃ b ∈ _, _))

/-- The margin of a bid is not rounded to nothing, or the message does not match the highest bid. -/
def Accepted.Exceeds (e : Accepted api) (i : Nat) : Prop :=
  ∀ h ∈ (e.before.slice i).highestBid,
    (e.msg = .placeBid i ∧ 1 ≤ scale h e.before.config.bidMargin.atomics) ∨ ¬ e.Matches i h

instance (e : Accepted api) (i : Nat) : Decidable (e.Exceeds i) := inferInstanceAs (Decidable (∀ h ∈ _, _))

theorem matches_iff {b : CanonicalAddr} {sent total : Uint128} {h : Nat} (sender : e.sender = some b)
    (funds : e.info.funds = [{ denom := e.before.config.denom, amount := sent }])
    (compounded : total.u128 = (e.before.slice i).totalBid b + sent.u128) : e.Matches i h ↔ total.u128 = h := by
  rw [Accepted.Matches, compounded, slice_totalBid, attached_single funds]
  simp [sender]

theorem outbids_iff {item : ItemInfo} {total : Uint128} (stored : (e.before.slice i).item = some item)
    (new : (e.after.slice i).highestBid = some total.u128) (matching : ∀ h, e.Matches i h ↔ total.u128 = h)
    (atLeast : item.price ≤ total.u128)
    (raised : e.msg = .placeBid i → 1 ≤ scale item.price e.before.config.bidMargin.atomics → item.price < total.u128) :
    e.Outbids i ↔ e.Exceeds i := by
  have price {h : Nat} (bid : (e.before.slice i).highestBid = some h) : item.price = h := by
    rw [← Slice.highestBid_getD _ stored, bid, Option.getD_some]
  constructor
  · intro outbids h bid
    obtain ⟨h', found, higher⟩ := outbids h bid
    obtain rfl := Option.some.inj (new.symm.trans found)
    right
    rw [matching]
    omega
  · intro exceeds h bid
    refine ⟨total.u128, new, ?_⟩
    rcases exceeds h bid with ⟨message, margin⟩ | unmatched
    · rw [← price bid] at margin ⊢
      exact raised message margin
    · rw [matching] at unmatched
      have same := price bid
      omega

theorem placed_outbids_iff (message : e.msg = .placeBid i) : e.Outbids i ↔ e.Exceeds i := by
  obtain ⟨b, item, sent, total, spec, after, _, _⟩ := Accepted.placed message
  have least : item.price ≤ leastBid e.before.config item := price_le_leastBid _ _
  have enough := spec.enough
  refine outbids_iff spec.stored (by rw [after]; rfl) ?_ (by omega) ?_
  · intro h
    exact matches_iff (Accepted.sender_ok spec.sender) spec.funds spec.compounded
  · intro _ margin
    have raised : item.price < leastBid e.before.config item := price_lt_leastBid_iff.mpr (Or.inl margin)
    omega

theorem bought_outbids_iff (reached : Reached api es e.before) (message : e.msg = .instantBuy i) :
    e.Outbids i ↔ e.Exceeds i := by
  obtain ⟨b, item, sent, price, spec, after, _, _⟩ := Accepted.bought message
  refine outbids_iff spec.stored (by rw [after]; rfl) ?_ ((reached.sound spec.stored).capped price spec.instantBuy) ?_
  · intro h
    exact matches_iff (Accepted.sender_ok spec.sender) spec.funds spec.compounded
  · intro other
    simp [message] at other

/-! ### The amounts of a log -/

def Slice.amounts (x : Slice) : List Nat := x.entries.map fun entry => entry.amount.u128

/-- A message adds to an increasing log exactly by outbidding. -/
theorem increasing_step (reached : Reached api es e.before) :
    (e.after.slice i).amounts.Pairwise (· < ·) ↔
      (e.before.slice i).amounts.Pairwise (· < ·) ∧ (e.msg = .placeBid i ∨ e.msg = .instantBuy i → e.Outbids i) := by
  have entries := (effect e i).entries (reached.logsAgree i)
  cases logged : e.entry i with
  | none =>
    have same : (e.after.slice i).amounts = (e.before.slice i).amounts := by
      rw [Slice.amounts, entries, logged, Option.toList_none, List.append_nil, Slice.amounts]
    rw [same, iff_self_and]
    intro _ deposits
    exfalso
    rcases deposits with message | message
    · obtain ⟨_, _, _, _, spec, after, _, _⟩ := Accepted.placed message
      rw [entry_placed message spec after] at logged
      cases logged
    · obtain ⟨_, _, _, _, spec, after, _, _⟩ := Accepted.bought message
      rw [entry_bought message spec after] at logged
      cases logged
  | some entry =>
    have deposits : e.msg = .placeBid i ∨ e.msg = .instantBuy i := by
      rcases entry_cases logged with ⟨_, _, _, _, message, _⟩ | ⟨_, _, _, _, message, _⟩
      · exact Or.inl message
      · exact Or.inr message
    have amounts : (e.after.slice i).amounts = (e.before.slice i).amounts ++ [entry.amount.u128] := by
      rw [Slice.amounts, entries, logged, Option.toList_some, List.map_append]
      rfl
    have new := entry_amount logged
    rw [amounts, List.pairwise_append]
    constructor
    · intro increasing
      obtain ⟨before, _, above⟩ := increasing
      refine ⟨before, fun _ h bid => ⟨entry.amount.u128, new, ?_⟩⟩
      obtain ⟨old, member, rfl⟩ := reached.highestBid_logged bid
      exact above _ (List.mem_map_of_mem member) _ (List.mem_singleton_self _)
    · intro kept
      obtain ⟨before, outbids⟩ := kept
      refine ⟨before, List.pairwise_singleton _ _, ?_⟩
      intro amount member last here
      rw [List.mem_singleton] at here
      obtain ⟨old, logged, rfl⟩ := List.mem_map.mp member
      obtain ⟨h, bid, le⟩ := reached.entry_le logged
      obtain ⟨h', found, higher⟩ := outbids deposits h bid
      obtain rfl := Option.some.inj (new.symm.trans found)
      omega

/-- A bid outbids the one before it exactly when the margin counts or the totals differ, and a log is
strictly increasing exactly when all its bids and purchases outbid. -/
theorem bids_outbid_iff (reached : Reached api es s) (i : Nat) :
    (∀ e ∈ es, e.msg = .placeBid i → (e.Outbids i ↔ e.Exceeds i)) ∧
      (((s.history i).map fun entry => entry.amount.u128).Pairwise (· < ·) ↔
        ∀ e ∈ es, e.msg = .placeBid i ∨ e.msg = .instantBuy i → e.Exceeds i) := by
  refine ⟨fun e _ message => placed_outbids_iff message, ?_⟩
  show (s.slice i).amounts.Pairwise (· < ·) ↔ _
  apply reached.induction (P := fun es s => (s.slice i).amounts.Pairwise (· < ·) ↔
    ∀ e ∈ es, e.msg = .placeBid i ∨ e.msg = .instantBuy i → e.Exceeds i)
  · intro s fresh
    rw [fresh.slice]
    simp [Slice.amounts, Slice.entries, Slice.empty]
  · intro es e reached _ ih
    have exceeds (deposits : e.msg = .placeBid i ∨ e.msg = .instantBuy i) : e.Outbids i ↔ e.Exceeds i := by
      rcases deposits with message | message
      · exact placed_outbids_iff message
      · exact bought_outbids_iff reached message
    rw [increasing_step reached, ih, List.forall_mem_append]
    refine and_congr Iff.rfl ?_
    rw [List.forall_mem_singleton]
    exact forall_congr' exceeds

/-! ### Where rounding decides -/

/-- Where the margin of the highest bid counts, or the start price is above it, every accepted bid is higher. -/
theorem outbids_of_margin {item : ItemInfo} (found : s.items.mayLoad i = some item)
    (margin : 1 ≤ scale item.price s.config.bidMargin.atomics ∨ ∃ p, item.startPrice = some p ∧ item.price < p.u128)
    (before : e.before = s) (message : e.msg = .placeBid i) : e.Outbids i := by
  subst before
  obtain ⟨b, stored, sent, total, spec, after, _, _⟩ := Accepted.placed message
  obtain rfl := Option.some.inj (found.symm.trans spec.stored)
  have raised := price_lt_leastBid_iff.mpr margin
  intro h bid
  refine ⟨total.u128, by rw [after]; rfl, ?_⟩
  rw [← Option.getD_some (a := h) (b := 0), ← bid, Slice.highestBid_getD _ spec.stored]
  exact raised.trans_le spec.enough

theorem Run.price_le {t : Storage} {fs : List (Accepted api)} (run : Run s fs t) (reached : Reached api (es ++ fs) t) :
    (s.slice i).highestBid.getD 0 ≤ (t.slice i).highestBid.getD 0 := by
  induction run with
  | nil => exact le_rfl
  | snoc e _ ih =>
    rw [← List.append_assoc] at reached
    have before := reached.before.1
    exact (ih before).trans ((effect e i).price_le before.wellFormed fun _ => before.sound)

/-- Once the highest bid has a margin of a whole unit, no later bid of the run is an equal one. -/
theorem outbids_from_then_on {pre post : List (Accepted api)} (reached : Reached api (pre ++ e :: post) s) {h : Nat}
    (bid : (e.before.slice i).highestBid = some h) (unit : decimalFractional ≤ h * e.before.config.bidMargin.atomics) :
    ∀ e' ∈ e :: post, e'.msg = .placeBid i → e'.Outbids i := by
  intro e' member message
  obtain ⟨_, rest, _⟩ := reached.before
  have run : Run e.before (e :: post) s := (Transition.Steps.single e).append rest
  obtain ⟨early, late, same, between, _⟩ := run.mem_prefix member
  rw [same, ← List.append_assoc] at reached
  have config : e'.before.config = e.before.config :=
    between.invariant (P := fun t => t.config = e.before.config) rfl fun e'' kept => (frame e'').config.trans kept
  obtain ⟨_, item, _, _, spec, _⟩ := Accepted.placed message
  have risen : h ≤ item.price := by
    have le := Run.price_le (i := i) between reached.before.1
    rwa [bid, Option.getD_some, Slice.highestBid_getD _ spec.stored] at le
  refine outbids_of_margin spec.stored (Or.inl ?_) rfl message
  rw [config]
  exact scale_pos.mpr (unit.trans (Nat.mul_le_mul_right _ risen))

end

/-- At a margin of five percent `bob` takes the lead with the 9 coins that `alice` bid. -/
def Demo.equalBids : Demo.Scenario where
  msg := instantiateMsg
  rate := Decimal.zero
  deliveries := [listing none none none false, deliver 1000 "alice" (coins 9) (.placeBid 0),
    deliver 1100 "bob" (coins 9) (.placeBid 0)]
  accepted := by decide
  order := by decide

theorem equal_bid_takes_lead :
    ∃ pre e post s, Reached Demo.api (pre ++ e :: post) s ∧
      (∀ e' ∈ pre ++ e :: post, ∀ coin ∈ e'.info.funds, 0 < coin.amount.u128) ∧
      0 < s.config.bidMargin.atomics ∧ e.msg = .placeBid 0 ∧ (e.before.slice 0).highestBid = some 9 ∧
      (e.before.slice 0).highestBidder = some Demo.alice ∧ (e.after.slice 0).highestBid = some 9 ∧
      (e.after.slice 0).highestBidder = some Demo.bob ∧
      ¬ ((s.history 0).map fun entry => entry.amount.u128).Pairwise (· < ·) :=
  ⟨_, _, _, _, Demo.equalBids.reached_at 2 (by decide), by decide, by decide, by decide, by decide, by decide, by decide,
    by decide, by decide⟩

theorem bids_outbid_soldToBob :
    ((Demo.soldToBob.final.history 0).map fun entry => entry.amount.u128).Pairwise (· < ·) ∧
      ∀ e ∈ Demo.soldToBob.log, e.msg = .placeBid 0 → (e.Outbids 0 ↔ e.Exceeds 0) := by
  obtain ⟨bids, increasing⟩ := bids_outbid_iff Demo.soldToBob.reached 0
  refine ⟨increasing.mpr ?_, bids⟩
  decide

end NftMarketplace
