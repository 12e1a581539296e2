import Mathlib.Order.Lattice.Nat
import NftMarketplace.Runs.Accounts
import NftMarketplace.Runs.Replay

/-!
What a bid has to beat: the highest bid on record, raised by the margin. A refund does not lower it, so
the record can stand above every deposit that the auction still holds.
-/

namespace NftMarketplace
open Cosmwasm

section
variable {api : Api} {es : List (Accepted api)} {e : Accepted api} {s : Storage} {i : Nat} {item : ItemInfo}

/-- Once there is a bid, the price is at least the start price. -/
def StartCovered (item : ItemInfo) : Prop :=
  item.highestBid.isSome → ∀ p, item.startPrice = some p → p.u128 ≤ item.price

theorem startPrice_le_leastBid (config : Config) (item : ItemInfo) {p : Uint128} (start : item.startPrice = some p) :
    p.u128 ≤ leastBid config item := by
  rw [leastBid, start]
  dsimp only
  split <;> omega

theorem startCovered_invariant : ItemInvariant api fun item => Sound item ∧ StartCovered item where
  listed spec := by
    refine ⟨(sound_invariant api).listed spec, ?_⟩
    intro bid
    simp [spec.unbid] at bid
  placed spec h := by
    refine ⟨(sound_invariant api).placed spec h.1, ?_⟩
    intro _ p start
    refine le_trans (startPrice_le_leastBid _ _ ?_) spec.enough
    exact start
  bought spec h := by
    refine ⟨(sound_invariant api).bought spec h.1, ?_⟩
    intro _ p start
    exact (h.1.priced.startBelowInstant p _ start spec.instantBuy).le
  settled h := ⟨(sound_invariant api).settled h.1, h.2⟩
  cancelled h := ⟨(sound_invariant api).cancelled h.1, h.2⟩

theorem Reached.startCovered (reached : Reached api es s) (found : (s.slice i).item = some item) :
    StartCovered item := (reached.keeps startCovered_invariant found).2

/-- The largest deposit that auction `i` holds. -/
def Storage.largestDeposit (s : Storage) (i : Nat) : Nat := (s.bidders i).sup fun b => (s.totalBid i b).u128

/-- A sender who raises the largest deposit held by the margin, within the window and the prices of the
auction. -/
structure Eligible (api : Api) (s : Storage) (env : Env) (info : MessageInfo) (i : Nat) (b : CanonicalAddr)
    (item : ItemInfo) (sent total : Uint128) : Prop where
  sender : api.addrCanonicalize info.sender = .ok b
  funds : info.funds = [{ denom := s.config.denom, amount := sent }]
  positive : 0 < sent.u128
  started : item.startTime ≤ env.blockTime.seconds
  notEnded : env.blockTime.seconds ≤ item.endTime
  notCreator : item.creator ≠ b
  registered : item.privateSale = true → (s.bids.mayLoad (i, b)).isSome
  compounded : total.u128 = (s.totalBid i b).u128 + sent.u128
  aboveStart : ∀ p, item.startPrice = some p → p.u128 ≤ total.u128
  above : s.largestDeposit i < total.u128
  raises : s.largestDeposit i + scale (s.largestDeposit i) s.config.bidMargin.atomics ≤ total.u128
  belowInstantBuy : ∀ p, item.instantBuy = some p → total.u128 < p.u128

theorem leastBid_le_iff (config : Config) {item : ItemInfo} (covered : StartCovered item) {n : Nat}
    (aboveStart : ∀ p, item.startPrice = some p → p.u128 ≤ n) :
    leastBid config item ≤ n ↔ item.price + scale item.price config.bidMargin.atomics ≤ n := by
  unfold leastBid
  cases start : item.startPrice with
  | none => exact Iff.rfl
  | some p =>
    dsimp only
    split
    · next unmet =>
      -- a price below the start price is the zero of an auction without a bid
      have unbid : item.highestBid = none := by
        by_contra bid
        have met := covered (Option.isSome_iff_ne_none.mpr bid) p start
        omega
      have price : item.price = 0 := by simp [ItemInfo.price, unbid]
      have enough := aboveStart p start
      simp [price, scale, enough]
    · exact Iff.rfl

theorem Eligible.same {env : Env} {info : MessageInfo} {b c : CanonicalAddr} {stored : ItemInfo}
    {sent sent' total total' : Uint128} (eligible : Eligible api s env info i b item sent total)
    (spec : Placed api s.config env info (s.slice i) c stored sent' total') : c = b ∧ total' = total := by
  obtain rfl := Except.ok.inj (eligible.sender.symm.trans spec.sender)
  have coins : sent' = sent := by
    have funds := spec.funds.symm.trans eligible.funds
    simpa using funds
  have compounded := spec.compounded
  rw [coins, slice_totalBid, ← eligible.compounded] at compounded
  exact ⟨rfl, Uint128.ext compounded⟩

/-- An eligible bid is accepted, and leads, exactly when it also raises the highest bid on record by the
margin. That is so as long as the highest bid is not larger than every deposit held. -/
theorem raise_accepted_iff (reached : Reached api es s) (found : s.items.mayLoad i = some item) {querier : Querier}
    {env : Env} {info : MessageInfo} {b : CanonicalAddr} {sent total : Uint128}
    (eligible : Eligible api s env info i b item sent total) :
    ((∃ t r item', execute ⟨api, querier⟩ s env info (.placeBid i) = .ok (t, r) ∧ t.items.mayLoad i = some item' ∧
        item'.highestBidder = some b ∧ item'.highestBid = some total) ↔
      item.price + scale item.price s.config.bidMargin.atomics ≤ total.u128 ∧ Quotable s.config item) ∧
      (item.price ≤ s.largestDeposit i →
        item.price + scale item.price s.config.bidMargin.atomics ≤ total.u128) := by
  have covered : StartCovered item := reached.startCovered found
  have enough := leastBid_le_iff s.config covered eligible.aboveStart
  refine ⟨⟨?_, ?_⟩, ?_⟩
  · intro accepted
    obtain ⟨t, r, _, accepted, _, _, _⟩ := accepted
    change executePlaceBid ⟨api, querier⟩ s env info i = _ at accepted
    obtain ⟨_, stored, _, _, spec, _, _, _⟩ := executePlaceBid_ok accepted
    obtain rfl := Option.some.inj (found.symm.trans spec.stored)
    obtain ⟨rfl, rfl⟩ := eligible.same spec
    exact ⟨enough.mp spec.enough, executePlaceBid_quotable accepted found⟩
  · intro raised
    obtain ⟨raised, quotable⟩ := raised
    have spec : Placed api s.config env info (s.slice i) b item sent total := {
      sender := eligible.sender
      funds := eligible.funds
      stored := found
      notEnded := eligible.notEnded
      started := eligible.started
      notCreator := eligible.notCreator
      registered := eligible.registered
      compounded := by rw [slice_totalBid, eligible.compounded]
      enough := enough.mpr raised
      belowInstantBuy := eligible.belowInstantBuy }
    obtain ⟨⟨t, r⟩, accepted⟩ : ∃ p, executePlaceBid ⟨api, querier⟩ s env info i = .ok p :=
      executePlaceBid_succeeds spec quotable
    obtain ⟨_, stored, _, _, spec', after, _, _⟩ := executePlaceBid_ok accepted
    obtain ⟨rfl, rfl⟩ := eligible.same spec'
    exact ⟨t, r, _, accepted, congrArg Slice.item after, rfl, rfl⟩
  · intro held
    have margin := scale_mono s.config.bidMargin.atomics held
    have raises := eligible.raises
    omega

end

namespace Demo

/-- `alice` bids below the reserve and takes the bid back. -/
def lapsed : Scenario where
  msg := instantiateMsg
  rate := Decimal.zero
  deliveries := [listing none none (some (amount 1000)) false, deliver 1000 "alice" (coins 500) (.placeBid 0),
    deliver 1100 "alice" [] (.retractBids 0)]
  accepted := by decide
  order := by decide

theorem bob_eligible {sent : Uint128} (positive : 0 < sent.u128) :
    Eligible api lapsed.final (env 1200) ⟨"bob", [{ denom := "uusd", amount := sent }]⟩ 0 bob
      (lapsed.listed 0 (by decide)) sent sent := by
  have nothing : lapsed.final.largestDeposit 0 = 0 := by decide
  have new : (lapsed.final.totalBid 0 bob).u128 = 0 := by decide
  have unpriced : (lapsed.listed 0 (by decide)).startPrice = none := by decide
  have unlimited : (lapsed.listed 0 (by decide)).instantBuy = none := by decide
  exact {
    sender := show api.addrCanonicalize "bob" = .ok bob by decide
    funds := rfl
    positive
    started := by decide
    notEnded := by decide
    notCreator := by decide
    registered := by decide
    compounded := by rw [new, Nat.zero_add]
    aboveStart := fun p start => by simp [unpriced] at start
    above := by rw [nothing]; exact positive
    raises := by simp [nothing, scale]
    belowInstantBuy := fun p offered => by simp [unlimited] at offered }

end Demo

/-- The auction holds nothing, yet `bob` cannot bid 100 on it. -/
theorem bid_refused_for_retracted_price :
    ∃ es s item, Reached Demo.api es s ∧ s.items.mayLoad 0 = some item ∧ s.largestDeposit 0 = 0 ∧
      (∃ sent total, Eligible Demo.api s (Demo.env 1200) ⟨"bob", Demo.coins 100⟩ 0 Demo.bob item sent total) ∧
      ¬ ∃ p, execute ⟨Demo.api, Demo.querier⟩ s (Demo.env 1200) ⟨"bob", Demo.coins 100⟩ (.placeBid 0) = .ok p := by
  have found := Demo.lapsed.listed_found (i := 0) (by decide)
  have positive : 0 < (Demo.amount 100).u128 := by decide
  have eligible := Demo.bob_eligible positive
  refine ⟨_, _, _, Demo.lapsed.reached, found, by decide, ⟨_, _, eligible⟩, ?_⟩
  intro accepted
  obtain ⟨⟨t, r⟩, accepted⟩ := accepted
  change executePlaceBid _ _ _ _ 0 = _ at accepted
  obtain ⟨_, stored, _, _, spec, _, _, _⟩ := executePlaceBid_ok accepted
  obtain rfl := Option.some.inj (found.symm.trans spec.stored)
  obtain ⟨rfl, rfl⟩ := eligible.same spec
  exact absurd spec.enough (by decide)

theorem raise_accepted_lapsed :
    ∃ t r item', execute ⟨Demo.api, Demo.querier⟩ Demo.lapsed.final (Demo.env 1200) ⟨"bob", Demo.coins 600⟩
        (.placeBid 0) = .ok (t, r) ∧ t.items.mayLoad 0 = some item' ∧ item'.highestBidder = some Demo.bob ∧
      item'.highestBid = some (Demo.amount 600) := by
  have found := Demo.lapsed.listed_found (i := 0) (by decide)
  have positive : 0 < (Demo.amount 600).u128 := by decide
  have eligible := Demo.bob_eligible positive
  apply Iff.mpr (raise_accepted_iff Demo.lapsed.reached found eligible).1
  decide

end NftMarketplace
