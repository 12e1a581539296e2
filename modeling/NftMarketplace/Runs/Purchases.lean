import NftMarketplace.Runs.Escrow
import NftMarketplace.Runs.Logs

/-!
Instant purchases. Until the first one all deposits of an auction stay below its price, so what a buyer
has to add to the own deposit is positive, and it is the only amount accepted.
-/

namespace NftMarketplace
open Cosmwasm

section
variable {api : Api} {es : List (Accepted api)} {e : Accepted api} {s : Storage} {i : Nat} {item : ItemInfo}

theorem Reached.price_lt_instantBuy (reached : Reached api es s) (found : (s.slice i).item = some item) {p : Uint128}
    (offered : item.instantBuy = some p) (unbought : ∀ entry ∈ (s.slice i).entries, entry.instantBuy = false) :
    item.price < p.u128 := by
  cases bid : (s.slice i).highestBid with
  | none =>
    rw [← Slice.highestBid_getD _ found, bid]
    exact (reached.sound found).priced.instantPositive p offered
  | some h =>
    rw [← Slice.highestBid_getD _ found, bid, Option.getD_some]
    obtain ⟨entry, logged, rfl⟩ := reached.highestBid_logged bid
    have ordinary := unbought entry logged
    rw [reached.entries_eq, List.mem_filterMap] at logged
    obtain ⟨e, member, logged⟩ := logged
    rcases entry_cases logged with ⟨_, earlier, _, _, _, spec, _, rfl⟩ | ⟨_, _, _, _, _, _, _, rfl⟩
    · apply spec.belowInstantBuy
      rw [← instantBuy_of_terms (reached.terms_found found member spec.stored)]
      exact offered
    · cases ordinary

/-- A sender whom nothing but the coins keeps from buying. -/
structure Buyer (api : Api) (s : Storage) (env : Env) (i : Nat) (sender : String) (b : CanonicalAddr) (item : ItemInfo) :
    Prop where
  sender : api.addrCanonicalize sender = .ok b
  notEnded : env.blockTime.seconds ≤ item.endTime
  notCreator : item.creator ≠ b
  registered : item.privateSale = true → (s.bids.mayLoad (i, b)).isSome

theorem Buyer.accepted_iff {querier : Querier} {env : Env} {sender : String} {b : CanonicalAddr}
    (h : Buyer api s env i sender b item) (found : s.items.mayLoad i = some item) {p : Uint128}
    (offered : item.instantBuy = some p) (sent : Uint128) :
    (∃ r, execute ⟨api, querier⟩ s env ⟨sender, [{ denom := s.config.denom, amount := sent }]⟩ (.instantBuy i) = .ok r) ↔
      Quotable s.config item ∧ p.u128 = (s.totalBid i b).u128 + sent.u128 := by
  change (∃ r, executeInstantBuy ⟨api, querier⟩ s env _ i = .ok r) ↔ _
  constructor
  · intro accepted
    obtain ⟨⟨t, r⟩, accepted⟩ := accepted
    refine ⟨executeInstantBuy_quotable accepted found, ?_⟩
    obtain ⟨_, stored, coin, _, spec, _, _, _⟩ := executeInstantBuy_ok accepted
    obtain rfl := Option.some.inj (found.symm.trans spec.stored)
    obtain rfl := Option.some.inj (offered.symm.trans spec.instantBuy)
    obtain rfl := Except.ok.inj (h.sender.symm.trans spec.sender)
    have same : sent = coin := by simpa using spec.funds
    rw [spec.compounded, slice_totalBid, same]
  · intro due
    have spec : Bought api s.config env ⟨sender, [{ denom := s.config.denom, amount := sent }]⟩ (s.slice i) b item
        sent p := {
      sender := h.sender
      funds := rfl
      stored := found
      notEnded := h.notEnded
      notCreator := h.notCreator
      registered := h.registered
      instantBuy := offered
      compounded := by rw [slice_totalBid, due.2] }
    exact executeInstantBuy_succeeds spec due.1

theorem Buyer.bought {querier : Querier} {env : Env} {sender : String} {b : CanonicalAddr} {sent : Uint128} {t : Storage}
    {r : Response} (h : Buyer api s env i sender b item) (found : s.items.mayLoad i = some item) {p : Uint128}
    (offered : item.instantBuy = some p) (accepted : execute ⟨api, querier⟩ s env
      ⟨sender, [{ denom := s.config.denom, amount := sent }]⟩ (.instantBuy i) = .ok (t, r)) :
    (∃ after, t.items.mayLoad i = some after ∧ after.highestBid = some p) ∧ t.totalBid i b = p := by
  change executeInstantBuy ⟨api, querier⟩ s env _ i = _ at accepted
  obtain ⟨_, stored, _, _, spec, after, _, _⟩ := executeInstantBuy_ok accepted
  obtain rfl := Option.some.inj (found.symm.trans spec.stored)
  obtain rfl := Option.some.inj (offered.symm.trans spec.instantBuy)
  obtain rfl := Except.ok.inj (h.sender.symm.trans spec.sender)
  refine ⟨⟨_, congrArg Slice.item after, rfl⟩, ?_⟩
  apply Uint128.ext
  rw [← slice_totalBid, after, Slice.afterPurchase, Slice.deposit_totalBid, if_pos rfl]

/-- Before the first purchase every deposit is below the instant price, and a buyer is accepted for the
difference alone. A private sale has to be able to compute the price that it quotes to others. -/
theorem instant_buy_available (reached : Reached api es s) (found : s.items.mayLoad i = some item) {p : Uint128}
    (offered : item.instantBuy = some p) (unbought : ∀ entry ∈ s.history i, entry.instantBuy = false) :
    (∀ h, item.highestBid = some h → h < p) ∧ (∀ b, s.totalBid i b < p) ∧
      ∀ (querier : Querier) env sender b, Buyer api s env i sender b item →
        0 < p.u128 - (s.totalBid i b).u128 ∧
        ∀ sent, let info := { sender, funds := [{ denom := s.config.denom, amount := sent }] }
          ((∃ r, execute ⟨api, querier⟩ s env info (.instantBuy i) = .ok r) ↔
            Quotable s.config item ∧ sent.u128 = p.u128 - (s.totalBid i b).u128) ∧
          ∀ t r, execute ⟨api, querier⟩ s env info (.instantBuy i) = .ok (t, r) →
            (∃ after, t.items.mayLoad i = some after ∧ after.highestBid = some p) ∧ t.totalBid i b = p := by
  have below := reached.price_lt_instantBuy found offered unbought
  have deposits (b : CanonicalAddr) : (s.totalBid i b).u128 < p.u128 := by
    rw [← slice_totalBid]
    exact lt_of_le_of_lt ((reached.backed found).1 b) below
  refine ⟨?_, deposits, ?_⟩
  · intro h bid
    rw [Uint128.lt_def]
    simpa [ItemInfo.price, bid] using below
  · intro querier env sender b buyer
    have deposit := deposits b
    refine ⟨Nat.sub_pos_of_lt deposit, ?_⟩
    intro sent
    refine ⟨?_, fun t r accepted => buyer.bought found offered accepted⟩
    rw [buyer.accepted_iff found offered sent]
    exact and_congr_right fun _ => by omega

end

/-- A private sale whose registrations cost many times the highest bid, and a bid of `alice`. -/
def Demo.dearRegistration : Demo.Scenario where
  msg := { instantiateMsg with sityFeeRegistration := ⟨10 ^ 38, by decide⟩ }
  rate := Decimal.zero
  deliveries := [listing none (some (amount (10 ^ 20))) none true,
    deliver 1000 "sity" [] (.receive ⟨"alice", amount 1000000, .ok (.registerPrivateSale 0)⟩),
    deliver 1000 "alice" (coins (10 ^ 19)) (.placeBid 0)]
  accepted := by decide
  order := by decide

/-- The price quoted to others overflows, and `alice` can buy for no amount. -/
theorem purchase_blocked :
    ∃ es s item, Reached Demo.api es s ∧ s.items.mayLoad 0 = some item ∧
      item.instantBuy = some (Demo.amount (10 ^ 20)) ∧ (∀ entry ∈ s.history 0, entry.instantBuy = false) ∧
      MIN_TIME_AUCTION ≤ (Demo.env 1100).blockTime.seconds ∧
      Buyer Demo.api s (Demo.env 1100) 0 "alice" Demo.alice item ∧
      ∀ sent, ¬ ∃ r, execute ⟨Demo.api, Demo.querier⟩ s (Demo.env 1100)
        ⟨"alice", [{ denom := s.config.denom, amount := sent }]⟩ (.instantBuy 0) = .ok r := by
  have found := Demo.dearRegistration.listed_found (i := 0) (by decide)
  have offered : (Demo.dearRegistration.listed 0 (by decide)).instantBuy = some (Demo.amount (10 ^ 20)) := by decide
  have buyer : Buyer Demo.api Demo.dearRegistration.final (Demo.env 1100) 0 "alice" Demo.alice
      (Demo.dearRegistration.listed 0 (by decide)) := {
    sender := by decide
    notEnded := by decide
    notCreator := by decide
    registered := by decide }
  refine ⟨_, _, _, Demo.dearRegistration.reached, found, offered, by decide, by decide, buyer, ?_⟩
  intro sent
  rw [buyer.accepted_iff found offered sent]
  rintro ⟨quotable, _⟩
  exact absurd quotable (by decide)

/-- `alice` has bid 100 of the 1000 for which she can buy. -/
def Demo.partlyPaid : Demo.Scenario where
  msg := instantiateMsg
  rate := Decimal.zero
  deliveries := [listing none (some (amount 1000)) none false, deliver 1000 "alice" (coins 100) (.placeBid 0)]
  accepted := by decide
  order := by decide

theorem instant_buy_available_partlyPaid :
    (Demo.partlyPaid.final.totalBid 0 Demo.alice < Demo.amount 1000) ∧
      ∃ r, execute ⟨Demo.api, Demo.querier⟩ Demo.partlyPaid.final (Demo.env 1100)
        ⟨"alice", [{ denom := Demo.partlyPaid.final.config.denom, amount := Demo.amount 900 }]⟩ (.instantBuy 0) = .ok r := by
  have found := Demo.partlyPaid.listed_found (i := 0) (by decide)
  have offered : (Demo.partlyPaid.listed 0 (by decide)).instantBuy = some (Demo.amount 1000) := by decide
  have buyer : Buyer Demo.api Demo.partlyPaid.final (Demo.env 1100) 0 "alice" Demo.alice
      (Demo.partlyPaid.listed 0 (by decide)) := {
    sender := by decide
    notEnded := by decide
    notCreator := by decide
    registered := by decide }
  obtain ⟨_, deposits, available⟩ := instant_buy_available Demo.partlyPaid.reached found offered (by decide)
  obtain ⟨_, exact⟩ := available Demo.querier (Demo.env 1100) "alice" Demo.alice buyer
  exact ⟨deposits Demo.alice, (exact (Demo.amount 900)).1.mpr (by decide)⟩

end NftMarketplace
