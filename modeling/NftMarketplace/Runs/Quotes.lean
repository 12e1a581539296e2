import NftMarketplace.Runs.Replay

/-!
The price of a registration. A bid or a purchase without one is refused with a price; after the first
bid this price leaves out the opening fee, and a registration that pays it is refused as well.
-/

namespace NftMarketplace
open Cosmwasm Outcome

section
variable {api : Api} {querier : Querier} {s : Storage} {env : Env} {i : Nat} {sender : String} {b : CanonicalAddr}
  {item : ItemInfo}

/-- `sender` could register for the private sale `i` now. -/
structure Unregistered (api : Api) (s : Storage) (env : Env) (i : Nat) (sender : String) (b : CanonicalAddr)
    (item : ItemInfo) : Prop where
  sender : api.addrCanonicalize sender = .ok b
  found : s.items.mayLoad i = some item
  hidden : item.privateSale = true
  started : item.startTime ≤ env.blockTime.seconds
  notEnded : env.blockTime.seconds ≤ item.endTime
  notCreator : item.creator ≠ b
  new : s.bids.mayLoad (i, b) = none

theorem Unregistered.placeBid_quotes (h : Unregistered api s env i sender b item) (sent price : Uint128) :
    execute ⟨api, querier⟩ s env ⟨sender, [{ denom := s.config.denom, amount := sent }]⟩ (.placeBid i) =
        .error (.err (.privateSaleRestriction price)) ↔ quotedPrice s.config item = .ok price := by
  change executePlaceBid _ _ _ _ i = _ ↔ _
  have funds : fundsSent s.config ⟨sender, [{ denom := s.config.denom, amount := sent }]⟩ = .ok sent :=
    fundsSent_ok.mpr rfl
  rw [executePlaceBid, bind_of_ok (std_ok.mpr h.sender), bind_of_ok funds,
    bind_of_ok (std_ok.mpr (FiniteMap.load_ok.mpr h.found)), bind_of_ok (reject_passes (Nat.not_lt_of_le h.notEnded)),
    bind_of_ok (reject_passes (Nat.not_lt_of_le h.started)), bind_of_ok (reject_passes h.notCreator), h.new]
  exact requireRegistered_quotes h.hidden _ price

theorem Unregistered.instantBuy_quotes (h : Unregistered api s env i sender b item) (sent price : Uint128) :
    execute ⟨api, querier⟩ s env ⟨sender, [{ denom := s.config.denom, amount := sent }]⟩ (.instantBuy i) =
        .error (.err (.privateSaleRestriction price)) ↔ quotedPrice s.config item = .ok price := by
  change executeInstantBuy _ _ _ _ i = _ ↔ _
  unfold executeInstantBuy
  simp only [h.found]
  rw [bind_of_ok (reject_passes (Nat.not_lt_of_le h.notEnded)), bind_of_ok (std_ok.mpr h.sender),
    bind_of_ok (reject_passes h.notCreator), h.new]
  exact requireRegistered_quotes h.hidden _ price

theorem Unregistered.register_accepted_iff (h : Unregistered api s env i sender b item) {cw20 : Addr}
    (token : api.addrHumanize s.state.cw20Address = .ok cw20) (funds : List Coin) (price : Uint128) :
    (∃ p, execute ⟨api, querier⟩ s env ⟨cw20, funds⟩ (.receive ⟨sender, price, .ok (.registerPrivateSale i)⟩) = .ok p) ↔
      price.u128 = sityRequired s.config item := by
  change (∃ p, executeReceiveCw20 ⟨api, querier⟩ s env ⟨cw20, funds⟩ _ = .ok p) ↔ _
  rw [executeReceiveCw20, bind_of_ok (std_ok.mpr token), bind_of_ok (reject_passes (not_not.mpr rfl))]
  change (∃ p, executeRegisterPrivateSale ⟨api, querier⟩ s env ⟨cw20, funds⟩ sender price i = .ok p) ↔ _
  constructor
  · intro accepted
    obtain ⟨⟨t, r⟩, accepted⟩ := accepted
    obtain ⟨_, stored, _, spec, _⟩ := executeRegisterPrivateSale_ok accepted
    obtain rfl := Option.some.inj (h.found.symm.trans spec.stored)
    exact spec.price
  · intro paid
    have spec : Registered api s.config env (s.slice i) sender price b item := {
      sender := h.sender
      stored := h.found
      notEnded := h.notEnded
      started := h.started
      notCreator := h.notCreator
      hidden := h.hidden
      price := paid
      new := h.new }
    exact executeRegisterPrivateSale_succeeds _ spec token

/-- The price that a bid or a purchase is refused with buys a registration exactly when there is no bid
yet or no opening fee, or when the price is too large to be quoted at all. -/
theorem quote_accepted_iff (h : Unregistered api s env i sender b item) {cw20 : Addr}
    (token : api.addrHumanize s.state.cw20Address = .ok cw20) (funds : List Coin) (sent : Uint128) (msg : ExecuteMsg)
    (deposits : msg = .placeBid i ∨ msg = .instantBuy i) :
    (∀ x, execute ⟨api, querier⟩ s env ⟨sender, [{ denom := s.config.denom, amount := sent }]⟩ msg =
          .error (.err (.privateSaleRestriction x)) →
        ∃ p, execute ⟨api, querier⟩ s env ⟨cw20, funds⟩ (.receive ⟨sender, x, .ok (.registerPrivateSale i)⟩) = .ok p) ↔
      item.highestBid = none ∨ s.config.sityMinOpening.u128 = 0 ∨ ¬ Quotable s.config item := by
  have quotes (x : Uint128) : execute ⟨api, querier⟩ s env ⟨sender, [{ denom := s.config.denom, amount := sent }]⟩ msg =
      .error (.err (.privateSaleRestriction x)) ↔ quotedPrice s.config item = .ok x := by
    rcases deposits with rfl | rfl
    · exact h.placeBid_quotes sent x
    · exact h.instantBuy_quotes sent x
  simp only [quotes, h.register_accepted_iff token, sityRequired]
  cases bid : item.highestBid with
  | none => simp [quotedPrice, bid]
  | some highestBid =>
    have price : item.price = highestBid.u128 := by simp [ItemInfo.price, bid]
    have fits : Quotable s.config item ↔ scale highestBid.u128 s.config.sityFeeRegistration.atomics < 2 ^ 128 := by
      rw [Quotable, price]
      simp [h.hidden]
    simp only [quotedPrice, bid, Uint128.mul_ok, Option.map_some, Option.getD_some, reduceCtorEq, false_or, fits]
    constructor
    · intro accepted
      by_cases quoted : scale highestBid.u128 s.config.sityFeeRegistration.atomics < 2 ^ 128
      · have same := accepted ⟨_, quoted⟩ rfl
        dsimp only at same
        exact Or.inl (by omega)
      · exact Or.inr quoted
    · rintro (free | unquoted) x quoted
      · omega
      · exact (unquoted (quoted ▸ x.lt)).elim

end

namespace Demo

/-- `alice` registers for a private sale and bids. -/
def firstBid : Scenario where
  msg := instantiateMsg
  rate := Decimal.zero
  deliveries := [listing none none none true,
    deliver 1000 "sity" [] (.receive ⟨"alice", amount 1000000, .ok (.registerPrivateSale 0)⟩),
    deliver 1000 "alice" (coins 100) (.placeBid 0)]
  accepted := by decide
  order := by decide

theorem bob_unregistered :
    Unregistered api firstBid.final (env 1100) 0 "bob" bob (firstBid.listed 0 (by decide)) where
  sender := by decide
  found := firstBid.listed_found (by decide)
  hidden := by decide
  started := by decide
  notEnded := by decide
  notCreator := by decide
  new := by decide

end Demo

/-- `bob` is quoted a price of 2 and may not register at it. -/
theorem quoted_price_refused :
    ∃ es s item, Reached Demo.api es s ∧ Unregistered Demo.api s (Demo.env 1100) 0 "bob" Demo.bob item ∧
      execute ⟨Demo.api, Demo.querier⟩ s (Demo.env 1100) ⟨"bob", Demo.coins 200⟩ (.placeBid 0) =
        .error (.err (.privateSaleRestriction (Demo.amount 2))) ∧
      ¬ ∃ p, execute ⟨Demo.api, Demo.querier⟩ s (Demo.env 1100) ⟨"sity", []⟩
        (.receive ⟨"bob", Demo.amount 2, .ok (.registerPrivateSale 0)⟩) = .ok p := by
  refine ⟨_, _, _, Demo.firstBid.reached, Demo.bob_unregistered, ?_, ?_⟩
  · apply (Demo.bob_unregistered.placeBid_quotes (Demo.amount 200) (Demo.amount 2)).mpr
    decide
  · rw [Demo.bob_unregistered.register_accepted_iff (by decide)]
    decide

/-- A private sale without a bid. -/
def Demo.noBid : Demo.Scenario where
  msg := instantiateMsg
  rate := Decimal.zero
  deliveries := [listing none none none true]
  accepted := by decide
  order := by decide

theorem quote_accepted_noBid :
    ∃ p, execute ⟨Demo.api, Demo.querier⟩ Demo.noBid.final (Demo.env 1100) ⟨"sity", []⟩
      (.receive ⟨"bob", Demo.amount 1000000, .ok (.registerPrivateSale 0)⟩) = .ok p := by
  have unregistered : Unregistered Demo.api Demo.noBid.final (Demo.env 1100) 0 "bob" Demo.bob
      (Demo.noBid.listed 0 (by decide)) := {
    sender := by decide
    found := Demo.noBid.listed_found (by decide)
    hidden := by decide
    started := by decide
    notEnded := by decide
    notCreator := by decide
    new := by decide }
  have token : Demo.api.addrHumanize Demo.noBid.final.state.cw20Address = .ok "sity" := by decide
  apply (quote_accepted_iff unregistered token [] (Demo.amount 200) (.placeBid 0) (Or.inl rfl)).mpr (Or.inl (by decide))
  apply (unregistered.placeBid_quotes (Demo.amount 200) (Demo.amount 1000000)).mpr
  decide

end NftMarketplace
