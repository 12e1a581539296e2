import NftMarketplace.Runs.Purchases
import NftMarketplace.Runs.Raises

/-!
What a bidder is told. For a sender whom only the amount can keep from bidding, the compounded deposit
decides the answer, and the amounts that a refusal quotes are the ones to meet. So an auction that is open
can always be raised.
-/

namespace NftMarketplace
open Cosmwasm Outcome

section
variable {api : Api} {es : List (Accepted api)} {s : Storage} {i : Nat} {item : ItemInfo} {env : Env}
  {sender : String} {b : CanonicalAddr} {sent total least : Uint128}

/-- The message of a refused bid at the price of an instant purchase. -/
def useInstantBuy (price total : Uint128) : ContractError :=
  .std (.genericErr s!"Use instant buy price {price.u128}, you are trying to bid higher {total.u128}")

/-- A sender with one coin that passes every check but those of the amount. -/
structure Bidder (api : Api) (s : Storage) (env : Env) (i : Nat) (sender : String) (b : CanonicalAddr) (item : ItemInfo)
    (sent total least : Uint128) : Prop extends Buyer api s env i sender b item where
  found : s.items.mayLoad i = some item
  started : item.startTime ≤ env.blockTime.seconds
  quotable : Quotable s.config item
  compounded : total.u128 = (s.totalBid i b).u128 + sent.u128
  minimum : least.u128 = leastBid s.config item

/-- The coin is attached. -/
abbrev Paying (s : Storage) (sender : String) (sent : Uint128) : MessageInfo :=
  ⟨sender, [{ denom := s.config.denom, amount := sent }]⟩

/-- The two checks of the amount: against the least bid first, then against the price of a purchase. -/
theorem Bidder.checked (h : Bidder api s env i sender b item sent total least) (querier : Querier) :
    ∃ rest : Unit → Result (Storage × Response),
      executePlaceBid ⟨api, querier⟩ s env (Paying s sender sent) i =
        (reject (total < least) (.minBid least total) >>= rest) ∧
      ∀ p, item.instantBuy = some p → p ≤ total → rest () = .error (.err (useInstantBuy p total)) := by
  have deposit : total.u128 = depositOf (s.bids.mayLoad (i, b)) + sent.u128 := by
    rw [h.compounded, ← slice_totalBid]
    rfl
  obtain ⟨minBid, minimum⟩ := minimumBid_succeeds (h.minimum ▸ least.lt)
  obtain rfl : minBid = least := Uint128.ext ((minimumBid_ok minimum).trans h.minimum.symm)
  rw [executePlaceBid, bind_of_ok (std_ok.mpr h.sender), bind_of_ok (fundsSent_ok.mpr rfl),
    bind_of_ok (std_ok.mpr (FiniteMap.load_ok.mpr h.found)), bind_of_ok (reject_passes (Nat.not_lt_of_le h.notEnded)),
    bind_of_ok (reject_passes (Nat.not_lt_of_le h.started)), bind_of_ok (reject_passes h.notCreator),
    bind_of_ok (requireRegistered_succeeds h.registered h.quotable), bind_of_ok minimum,
    bind_of_ok (bidTotal_succeeds deposit)]
  refine ⟨_, rfl, fun p offered above => ?_⟩
  simp [FiniteMap.update, h.found, belowInstantBuy, offered, reject, above, useInstantBuy, unwrapSome, bind, Except.bind]

theorem Bidder.placed (h : Bidder api s env i sender b item sent total least) (querier : Querier) (enough : least ≤ total)
    (below : ∀ p, item.instantBuy = some p → total < p) :
    ∃ p, executePlaceBid ⟨api, querier⟩ s env (Paying s sender sent) i = .ok p := by
  have spec : Placed api s.config env (Paying s sender sent) (s.slice i) b item sent total := {
    sender := h.sender
    funds := rfl
    stored := h.found
    notEnded := h.notEnded
    started := h.started
    notCreator := h.notCreator
    registered := h.registered
    compounded := by rw [slice_totalBid, h.compounded]
    enough := h.minimum ▸ enough
    belowInstantBuy := below }
  exact executePlaceBid_succeeds spec h.quotable

/-- A bid is too low, or high enough to buy instead, or accepted. -/
theorem Bidder.bid_answers (h : Bidder api s env i sender b item sent total least) (querier : Querier) :
    let answer := execute ⟨api, querier⟩ s env (Paying s sender sent) (.placeBid i)
    (total < least → answer = .error (.err (.minBid least total))) ∧
      (¬ total < least → ∀ p, item.instantBuy = some p → p ≤ total → answer = .error (.err (useInstantBuy p total))) ∧
      (¬ total < least → (∀ p, item.instantBuy = some p → total < p) → ∃ r, answer = .ok r) := by
  intro answer
  obtain ⟨rest, checked, high⟩ := h.checked querier
  have decided : answer = (reject (total < least) (.minBid least total) >>= rest) := checked
  refine ⟨fun low => ?_, fun enough p offered above => ?_, fun enough below => ?_⟩
  · rw [decided, reject, if_pos low]
    rfl
  · rw [decided, bind_of_ok (reject_passes enough), high p offered above]
  · exact h.placed querier (Nat.le_of_not_lt enough) below

/-- A purchase is accepted for its price and for no other total. -/
theorem Bidder.purchase_answers (h : Bidder api s env i sender b item sent total least) (querier : Querier) {p : Uint128}
    (offered : item.instantBuy = some p) :
    let answer := execute ⟨api, querier⟩ s env (Paying s sender sent) (.instantBuy i)
    (total = p → ∃ r, answer = .ok r) ∧ (total ≠ p → answer = .error (.err (.inaccurateFunds p total))) := by
  intro answer
  constructor
  · rintro rfl
    exact (h.toBuyer.accepted_iff h.found offered sent).mpr ⟨h.quotable, h.compounded⟩
  · intro off
    have deposit : total.u128 = depositOf (s.bids.mayLoad (i, b)) + sent.u128 := by
      rw [h.compounded, ← slice_totalBid]
      rfl
    obtain ⟨⟨bids, credited⟩, credit⟩ := creditDeposit_succeeds s.bids (i, b) deposit
    obtain rfl : credited = total := Uint128.ext ((creditDeposit_ok credit).1.trans deposit.symm)
    have unpaid : payInstantBuy item credited = .error (.err (.inaccurateFunds p credited)) := by
      rw [payInstantBuy, offered]
      simp [reject, off.symm, bind, Except.bind]
    show executeInstantBuy ⟨api, querier⟩ s env (Paying s sender sent) i = _
    simp only [executeInstantBuy, h.found]
    rw [bind_of_ok (reject_passes (Nat.not_lt_of_le h.notEnded)), bind_of_ok (std_ok.mpr h.sender),
      bind_of_ok (reject_passes h.notCreator), bind_of_ok (requireRegistered_succeeds h.registered h.quotable),
      bind_of_ok (fundsSent_ok.mpr rfl), bind_of_ok credit, unpaid]
    rfl

/-- An accepted total is what its sender has in the auction, and the highest of all. -/
theorem Bidder.highest (h : Bidder api s env i sender b item sent total least) (reached : Reached api es s)
    {querier : Querier} {msg : ExecuteMsg} (bids : msg = .placeBid i ∨ msg = .instantBuy i) {t : Storage} {r : Response}
    (accepted : execute ⟨api, querier⟩ s env (Paying s sender sent) msg = .ok (t, r)) :
    t.totalBid i b = total ∧ ∀ c, t.totalBid i c ≤ total := by
  have present : (s.slice i).item = some item := h.found
  have deposits := (reached.backed present).1
  -- the coin is credited to the deposit of `b`, and everybody else's stays below the new price
  have credited {paid coin : Uint128}
      (after : ∀ c, (t.slice i).totalBid c = if c = b then paid.u128 else (s.slice i).totalBid c)
      (compounded : paid.u128 = (s.slice i).totalBid b + coin.u128) (same : coin = sent) (high : item.price ≤ paid.u128) :
      t.totalBid i b = total ∧ ∀ c, t.totalBid i c ≤ total := by
    obtain rfl : paid = total := Uint128.ext (by rw [compounded, slice_totalBid, same, h.compounded])
    refine ⟨Uint128.ext ?_, fun c => ?_⟩
    · rw [← slice_totalBid, after, if_pos rfl]
    · rw [Uint128.le_def, ← slice_totalBid, after]
      split
      · exact le_rfl
      · exact (deposits c).trans high
  let e : Accepted api := ⟨querier, env, Paying s sender sent, msg, s, t, r, accepted⟩
  rcases bids with rfl | rfl
  · obtain ⟨_, stored, coin, paid, spec, after, _, _⟩ := Accepted.placed (e := e) rfl
    obtain rfl := Option.some.inj (present.symm.trans spec.stored)
    obtain rfl := Except.ok.inj (h.sender.symm.trans spec.sender)
    have same : sent = coin := by simpa [e] using spec.funds
    refine credited (fun c => ?_) spec.compounded same.symm ((price_le_leastBid _ _).trans spec.enough)
    exact (congrArg (Slice.totalBid · c) after).trans (Slice.deposit_totalBid ..)
  · obtain ⟨_, stored, coin, paid, spec, after, _, _⟩ := Accepted.bought (e := e) rfl
    obtain rfl := Option.some.inj (present.symm.trans spec.stored)
    obtain rfl := Except.ok.inj (h.sender.symm.trans spec.sender)
    have same : sent = coin := by simpa [e] using spec.funds
    refine credited (fun c => ?_) spec.compounded same.symm ((reached.sound present).capped _ spec.instantBuy)
    exact (congrArg (Slice.totalBid · c) after).trans (Slice.deposit_totalBid ..)

/-- An accepted bid makes its sender the leader at the price of the whole deposit. -/
theorem Bidder.takes_lead (h : Bidder api s env i sender b item sent total least) (querier : Querier)
    (enough : least ≤ total) (below : ∀ p, item.instantBuy = some p → total < p) :
    ∃ t r item', execute ⟨api, querier⟩ s env (Paying s sender sent) (.placeBid i) = .ok (t, r) ∧
      t.items.mayLoad i = some item' ∧ item'.highestBidder = some b ∧ item'.price = total.u128 := by
  obtain ⟨⟨t, r⟩, placed⟩ := h.placed querier enough below
  obtain ⟨_, stored, coin, sum, spec, after, _, _⟩ := executePlaceBid_ok placed
  obtain rfl := Option.some.inj (h.found.symm.trans spec.stored)
  obtain rfl := Except.ok.inj (h.sender.symm.trans spec.sender)
  have same : sent = coin := by simpa using spec.funds
  refine ⟨t, r, _, placed, congrArg Slice.item after, rfl, ?_⟩
  show sum.u128 = total.u128
  rw [spec.compounded, slice_totalBid, h.compounded, same]

theorem Buyer.takes_lead {price : Uint128} (h : Buyer api s env i sender b item) (querier : Querier)
    (found : s.items.mayLoad i = some item) (quotable : Quotable s.config item) (offered : item.instantBuy = some price)
    (whole : price.u128 = (s.totalBid i b).u128 + sent.u128) :
    ∃ t r item', execute ⟨api, querier⟩ s env (Paying s sender sent) (.instantBuy i) = .ok (t, r) ∧
      t.items.mayLoad i = some item' ∧ item'.highestBidder = some b ∧ item'.price = price.u128 := by
  obtain ⟨⟨t, r⟩, bought⟩ : ∃ p, execute ⟨api, querier⟩ s env (Paying s sender sent) (.instantBuy i) = .ok p :=
    (h.accepted_iff found offered sent).mpr ⟨quotable, whole⟩
  have done : executeInstantBuy ⟨api, querier⟩ s env (Paying s sender sent) i = .ok (t, r) := bought
  obtain ⟨_, stored, _, paid, spec, after, _, _⟩ := executeInstantBuy_ok done
  obtain rfl := Option.some.inj (found.symm.trans spec.stored)
  obtain rfl := Option.some.inj (offered.symm.trans spec.instantBuy)
  obtain rfl := Except.ok.inj (h.sender.symm.trans spec.sender)
  exact ⟨t, r, _, bought, congrArg Slice.item after, rfl, rfl⟩

/-- While an auction is open, whoever may bid in it can take the lead at a higher price, by a bid or by the instant
purchase. Without an instant price the next bid has to fit into an amount. -/
theorem auction_progress (reached : Reached api es s) (found : s.items.mayLoad i = some item)
    (unbought : ∀ entry ∈ s.history i, entry.instantBuy = false) (buyer : Buyer api s env i sender b item)
    (started : item.startTime ≤ env.blockTime.seconds) (quotable : Quotable s.config item)
    (room : item.instantBuy = none → max (leastBid s.config item) (item.price + 1) < 2 ^ 128) (querier : Querier) :
    ∃ sent msg t r item', 0 < sent.u128 ∧ (msg = .placeBid i ∨ msg = .instantBuy i) ∧
      execute ⟨api, querier⟩ s env (Paying s sender sent) msg = .ok (t, r) ∧ t.items.mayLoad i = some item' ∧
      item'.highestBidder = some b ∧ item.price < item'.price := by
  have present : (s.slice i).item = some item := found
  have deposit : (s.totalBid i b).u128 ≤ item.price := by
    rw [← slice_totalBid]
    exact (reached.backed present).1 b
  by_cases buys : ∃ p, item.instantBuy = some p ∧ p.u128 ≤ max (leastBid s.config item) (item.price + 1)
  · -- no bid fits below the instant price any more, so the purchase is what is left
    obtain ⟨p, offered, _⟩ := buys
    have below := reached.price_lt_instantBuy present offered unbought
    let sent : Uint128 := ⟨p.u128 - (s.totalBid i b).u128, lt_of_le_of_lt (Nat.sub_le _ _) p.lt⟩
    have whole : p.u128 = (s.totalBid i b).u128 + sent.u128 := (Nat.add_sub_of_le (by omega)).symm
    obtain ⟨t, r, item', bought, stored, leads, price⟩ := buyer.takes_lead querier found quotable offered whole
    exact ⟨sent, _, t, r, item', Nat.sub_pos_of_lt (by omega), Or.inr rfl, bought, stored, leads, price ▸ below⟩
  · have dearer : ∀ p, item.instantBuy = some p → max (leastBid s.config item) (item.price + 1) < p.u128 :=
      fun p offered => Nat.lt_of_not_le fun low => buys ⟨p, offered, low⟩
    have fits : max (leastBid s.config item) (item.price + 1) < 2 ^ 128 := by
      cases offered : item.instantBuy with
      | none => exact room offered
      | some p => exact (dearer p offered).trans p.lt
    let total : Uint128 := ⟨max (leastBid s.config item) (item.price + 1), fits⟩
    have higher : item.price < total.u128 := lt_of_lt_of_le (Nat.lt_succ_self _) (le_max_right _ _)
    let sent : Uint128 := ⟨total.u128 - (s.totalBid i b).u128, lt_of_le_of_lt (Nat.sub_le _ _) total.lt⟩
    let least : Uint128 := ⟨leastBid s.config item, lt_of_le_of_lt (le_max_left _ _) fits⟩
    have bidder : Bidder api s env i sender b item sent total least := {
      buyer with
      found := found
      started := started
      quotable := quotable
      compounded := (Nat.add_sub_of_le (by omega)).symm
      minimum := rfl }
    have enough : leastBid s.config item ≤ total.u128 := le_max_left _ _
    obtain ⟨t, r, item', placed, stored, leads, price⟩ := bidder.takes_lead querier enough dearer
    exact ⟨sent, _, t, r, item', Nat.sub_pos_of_lt (by omega), Or.inl rfl, placed, stored, leads, price ▸ higher⟩

end

/-- `bob` asks for the token that `alice` has bid 100 for, on sale for 1000. -/
theorem auction_progress_partlyPaid :
    ∃ sent msg t r item', 0 < sent.u128 ∧ (msg = .placeBid 0 ∨ msg = .instantBuy 0) ∧
      execute ⟨Demo.api, Demo.querier⟩ Demo.partlyPaid.final (Demo.env 1100) (Paying Demo.partlyPaid.final "bob" sent) msg =
        .ok (t, r) ∧ t.items.mayLoad 0 = some item' ∧ item'.highestBidder = some Demo.bob ∧ 100 < item'.price := by
  have found := Demo.partlyPaid.listed_found (i := 0) (by decide)
  have buyer : Buyer Demo.api Demo.partlyPaid.final (Demo.env 1100) 0 "bob" Demo.bob
      (Demo.partlyPaid.listed 0 (by decide)) := {
    sender := by decide
    notEnded := by decide
    notCreator := by decide
    registered := by decide }
  exact auction_progress Demo.partlyPaid.reached found (by decide) buyer (by decide) (by decide) (by decide) Demo.querier

end NftMarketplace
