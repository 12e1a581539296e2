import NftMarketplace.Proofs.Slice

/-! What an accepted bid and an accepted instant purchase check and write. -/

namespace NftMarketplace
open Cosmwasm Outcome

theorem fundsSent_ok {config : Config} {info : MessageInfo} {sent : Uint128} :
    fundsSent config info = .ok sent ↔ info.funds = [{ denom := config.denom, amount := sent }] := by
  unfold fundsSent
  split
  · next none => simp [none]
  · next coin single =>
    rw [single]
    cases coin with
    | mk denom amount =>
      by_cases same : denom = config.denom <;> simp [same]
  · next none many =>
    constructor
    · intro h
      cases h
    · intro single
      exact (many _ single).elim

def depositOf (bid : Option BidInfo) : Nat := (bid.map fun bid => bid.totalBid.u128).getD 0

theorem creditDeposit_ok {bids bids' : FiniteMap (Nat × CanonicalAddr) BidInfo} {key : Nat × CanonicalAddr}
    {sent total : Uint128} (h : creditDeposit bids key sent = .ok (bids', total)) :
    total.u128 = depositOf (bids.mayLoad key) + sent.u128 ∧
      bids' = bids.save key (.credited (bids.mayLoad key) total) := by
  unfold creditDeposit at h
  split at h
  · next absent =>
    simp only [Except.ok.injEq, Prod.mk.injEq] at h
    obtain ⟨rfl, rfl⟩ := h
    simp [absent, depositOf, BidInfo.credited]
  · next bid present =>
    obtain ⟨compounded, first, h⟩ := bind_ok h
    obtain ⟨stored, second, h⟩ := bind_ok h
    obtain ⟨rfl, rfl⟩ := Prod.mk.inj (pure_ok.mp h)
    have same : stored = compounded := Except.ok.inj ((std_ok.mp second).symm.trans (std_ok.mp first))
    subst same
    simp only [std_ok, Uint128.checkedAdd_ok] at first
    simp [present, depositOf, first, BidInfo.credited]

theorem bidTotal_ok {bid : Option BidInfo} {sent total : Uint128} (h : bidTotal bid sent = .ok total) :
    total.u128 = depositOf bid + sent.u128 := by
  cases bid with
  | none => simp_all [bidTotal, depositOf]
  | some bid => simpa [bidTotal, depositOf] using h

def leastBid (config : Config) (item : ItemInfo) : Nat :=
  let raised := item.price + scale item.price config.bidMargin.atomics
  match item.startPrice with
  | none => raised
  | some startPrice => if item.price < startPrice.u128 then startPrice.u128 else raised

theorem price_le_leastBid (config : Config) (item : ItemInfo) : item.price ≤ leastBid config item := by
  unfold leastBid
  cases item.startPrice with
  | none => exact Nat.le_add_right _ _
  | some startPrice =>
    dsimp only
    split
    · omega
    · exact Nat.le_add_right _ _

/-- A bid has to be higher where the margin is not rounded to nothing, and below the start price. -/
theorem price_lt_leastBid_iff {config : Config} {item : ItemInfo} : item.price < leastBid config item ↔
    1 ≤ scale item.price config.bidMargin.atomics ∨ ∃ p, item.startPrice = some p ∧ item.price < p.u128 := by
  unfold leastBid
  cases item.startPrice with
  | none =>
    simp only [reduceCtorEq, false_and, exists_false, or_false]
    omega
  | some startPrice =>
    simp only [Option.some.injEq, exists_eq_left']
    split <;> omega

theorem getD_highestBid (item : ItemInfo) : (item.highestBid.getD .zero).u128 = item.price := by
  unfold ItemInfo.price
  cases item.highestBid <;> rfl

theorem getD_reservePrice (item : ItemInfo) : (item.reservePrice.getD .zero).u128 = item.reserve := by
  unfold ItemInfo.reserve
  cases item.reservePrice <;> rfl

theorem minimumBid_ok {config : Config} {item : ItemInfo} {minBid : Uint128}
    (h : minimumBid config item = .ok minBid) : minBid.u128 = leastBid config item := by
  have raised {m : Uint128} (r : (do
      let bidMargin ← (item.highestBid.getD .zero).mul config.bidMargin
      unwrap ((item.highestBid.getD .zero).checkedAdd bidMargin) : Result Uint128) = .ok m) :
      m.u128 = item.price + scale item.price config.bidMargin.atomics := by
    obtain ⟨margin, product, sum⟩ := bind_ok r
    rw [Uint128.mul_ok, getD_highestBid] at product
    rw [unwrap_ok, Uint128.checkedAdd_ok, getD_highestBid, product] at sum
    exact sum
  unfold minimumBid at h
  unfold leastBid
  cases start : item.startPrice with
  | none =>
    rw [start] at h
    exact raised h
  | some startPrice =>
    rw [start] at h
    dsimp only at h ⊢
    split at h
    · next above =>
      rw [Uint128.lt_def, getD_highestBid] at above
      rw [if_pos above, Except.ok.inj h]
    · next below =>
      rw [Uint128.lt_def, getD_highestBid] at below
      rw [if_neg below]
      exact raised h

theorem requireRegistered_ok {config : Config} {item : ItemInfo} {bid : Option BidInfo}
    (h : requireRegistered config item bid = .ok ()) (hidden : item.privateSale = true) : bid.isSome := by
  unfold requireRegistered at h
  rw [if_pos hidden] at h
  obtain ⟨quote, _, h⟩ := bind_ok h
  exact Option.isSome_iff_ne_none.mpr (reject_ok.mp h)

theorem belowInstantBuy_ok {item : ItemInfo} {total : Uint128} (h : belowInstantBuy item total = .ok ())
    (price : Uint128) (priced : item.instantBuy = some price) : total.u128 < price.u128 := by
  rw [belowInstantBuy, priced] at h
  exact Nat.lt_of_not_le (reject_ok.mp h)

theorem payInstantBuy_ok {item : ItemInfo} {total price : Uint128} (h : payInstantBuy item total = .ok price) :
    item.instantBuy = some price ∧ price = total := by
  unfold payInstantBuy at h
  split at h
  · cases h
  · next offered =>
    obtain ⟨_, exact, h⟩ := bind_ok h
    obtain rfl := pure_ok.mp h
    exact ⟨offered, not_not.mp (reject_ok.mp exact)⟩

/-- What is true when `execute_place_bid` accepts a bid by `b` of `sent` that makes its deposit
`total`. -/
structure Placed (api : Api) (config : Config) (env : Env) (info : MessageInfo) (x : Slice)
    (b : CanonicalAddr) (item : ItemInfo) (sent total : Uint128) : Prop where
  sender : api.addrCanonicalize info.sender = .ok b
  funds : info.funds = [{ denom := config.denom, amount := sent }]
  stored : x.item = some item
  notEnded : env.blockTime.seconds ≤ item.endTime
  started : item.startTime ≤ env.blockTime.seconds
  notCreator : item.creator ≠ b
  registered : item.privateSale = true → (x.bid b).isSome
  compounded : total.u128 = x.totalBid b + sent.u128
  enough : leastBid config item ≤ total.u128
  belowInstantBuy : ∀ price, item.instantBuy = some price → total.u128 < price.u128

def ItemInfo.afterBid (item : ItemInfo) (t : Timestamp) (b : CanonicalAddr) (total : Uint128) : ItemInfo :=
  { item with
    highestBid := some total
    highestBidder := some b
    totalBids := item.totalBids + 1
    endTime := if item.endTime < (t.plusSeconds LAST_MINUTE_BID_EXTRA_TIME).seconds
      then item.endTime + LAST_MINUTE_BID_EXTRA_TIME else item.endTime }

def bidEntry (env : Env) (b : CanonicalAddr) (amount : Uint128) (instantBuy : Bool) : HistoryBidInfo :=
  { bidder := b, amount, time := env.blockTime.seconds, instantBuy }

def Slice.afterBid (x : Slice) (env : Env) (b : CanonicalAddr) (item : ItemInfo) (total : Uint128) : Slice :=
  x.deposit (item.afterBid env.blockTime b total) b total (bidEntry env b total false)
    (bidEntry env b total false)

theorem executePlaceBid_ok {deps : Deps} {s t : Storage} {env : Env} {info : MessageInfo} {i : Nat} {r : Response}
    (h : executePlaceBid deps s env info i = .ok (t, r)) :
    ∃ b item sent total, Placed deps.api s.config env info (s.slice i) b item sent total ∧
      t.slice i = (s.slice i).afterBid env b item total ∧ SameElsewhere i s t ∧ r.messages = [] := by
  unfold executePlaceBid at h
  obtain ⟨b, sender, h⟩ := bind_ok h
  obtain ⟨sent, funds, h⟩ := bind_ok h
  obtain ⟨item, found, h⟩ := bind_ok h
  obtain ⟨_, notEnded, h⟩ := bind_ok h
  obtain ⟨_, started, h⟩ := bind_ok h
  obtain ⟨_, notCreator, h⟩ := bind_ok h
  obtain ⟨_, registered, h⟩ := bind_ok h
  obtain ⟨minBid, minimum, h⟩ := bind_ok h
  obtain ⟨total, totalSent, h⟩ := bind_ok h
  obtain ⟨_, enough, h⟩ := bind_ok h
  obtain ⟨items, updated, h⟩ := bind_ok h
  obtain ⟨⟨bids, compounded⟩, credited, h⟩ := bind_ok h
  obtain ⟨rfl, rfl⟩ := Prod.mk.inj (pure_ok.mp h)
  rw [std_ok, FiniteMap.load_ok] at found
  rw [FiniteMap.update_ok] at updated
  obtain ⟨stored, updated, rfl⟩ := updated
  obtain ⟨again, same, updated⟩ := bind_ok updated
  rw [found, unwrapSome_ok] at same
  obtain rfl := Option.some.inj same
  obtain ⟨_, below, updated⟩ := bind_ok updated
  obtain rfl := pure_ok.mp updated
  -- the total checked against the minimum and the compounded deposit are the same sum
  have sum := bidTotal_ok totalSent
  obtain ⟨compound, rfl⟩ := creditDeposit_ok credited
  obtain rfl : compounded = total := Uint128.ext (compound.trans sum.symm)
  obtain ⟨slice, elsewhere⟩ := slice_deposit s i
    (item.afterBid env.blockTime b compounded) b compounded (bidEntry env b compounded false)
    (bidEntry env b compounded false)
  refine ⟨b, item, sent, compounded, ?_, slice, elsewhere, rfl⟩
  exact {
    sender := std_ok.mp sender
    funds := fundsSent_ok.mp funds
    stored := found
    notEnded := Nat.le_of_not_lt (reject_ok.mp notEnded)
    started := Nat.le_of_not_lt (reject_ok.mp started)
    notCreator := reject_ok.mp notCreator
    registered := requireRegistered_ok registered
    compounded := sum
    enough := by
      rw [reject_ok, Uint128.lt_def, minimumBid_ok minimum] at enough
      exact Nat.le_of_not_lt enough
    belowInstantBuy := belowInstantBuy_ok below }

/-! ### When a bid succeeds -/

/-- A private sale computes the price it quotes to the unregistered for every bidder. -/
def Quotable (config : Config) (item : ItemInfo) : Prop :=
  item.privateSale = true → scale item.price config.sityFeeRegistration.atomics < 2 ^ 128

instance (config : Config) (item : ItemInfo) : Decidable (Quotable config item) :=
  inferInstanceAs (Decidable (_ → _))

theorem requireRegistered_quotable {config : Config} {item : ItemInfo} {bid : Option BidInfo}
    (h : requireRegistered config item bid = .ok ()) : Quotable config item := by
  intro hidden
  unfold requireRegistered at h
  rw [if_pos hidden] at h
  obtain ⟨quote, quoted, _⟩ := bind_ok h
  unfold quotedPrice at quoted
  split at quoted
  · next unbid => simp [ItemInfo.price, unbid, scale]
  · next highestBid present =>
    rw [Uint128.mul_ok] at quoted
    have price : item.price = highestBid.u128 := by simp [ItemInfo.price, present]
    rw [price, ← quoted]
    exact quote.lt

theorem requireRegistered_succeeds {config : Config} {item : ItemInfo} {bid : Option BidInfo}
    (registered : item.privateSale = true → bid.isSome) (quotable : Quotable config item) :
    requireRegistered config item bid = .ok () := by
  unfold requireRegistered
  split
  · next hidden =>
    have quoted : ∃ quote, quotedPrice config item = .ok quote := by
      unfold quotedPrice
      split
      · exact ⟨_, rfl⟩
      · next highestBid present =>
        have price : item.price = highestBid.u128 := by simp [ItemInfo.price, present]
        obtain ⟨quote, product, _⟩ := Uint128.mul_succeeds ContractError highestBid
          config.sityFeeRegistration (price ▸ quotable hidden)
        exact ⟨quote, product⟩
    obtain ⟨quote, quoted⟩ := quoted
    exact bind_ok_iff.mpr ⟨quote, quoted, reject_ok.mpr (Option.isSome_iff_ne_none.mp (registered hidden))⟩
  · rfl

theorem quotedPrice_error {config : Config} {item : ItemInfo} {fault : Fault ContractError}
    (h : quotedPrice config item = .error fault) : fault = .panic := by
  unfold quotedPrice at h
  split at h
  · cases h
  · unfold Uint128.mul Uint128.multiplyRatio Uint128.narrow at h
    split_ifs at h <;> exact (Except.error.inj h).symm

/-- Without an entry a bidder of a private sale is refused with the quoted price, if there is one. -/
theorem requireRegistered_quotes {α : Type} {config : Config} {item : ItemInfo} (hidden : item.privateSale = true)
    (rest : Unit → Result α) (price : Uint128) :
    requireRegistered config item none >>= rest = .error (.err (.privateSaleRestriction price)) ↔
      quotedPrice config item = .ok price := by
  rw [requireRegistered, if_pos hidden]
  cases quoted : quotedPrice config item with
  | ok quote => constructor <;> rintro ⟨⟩ <;> rfl
  | error fault =>
    obtain rfl := quotedPrice_error quoted
    constructor <;> rintro ⟨⟩

theorem minimumBid_succeeds {config : Config} {item : ItemInfo} (fits : leastBid config item < 2 ^ 128) :
    ∃ minBid, minimumBid config item = .ok minBid := by
  have raised (small : item.price + scale item.price config.bidMargin.atomics < 2 ^ 128) : ∃ m, (do
      let bidMargin ← (item.highestBid.getD .zero).mul config.bidMargin
      unwrap ((item.highestBid.getD .zero).checkedAdd bidMargin) : Result Uint128) = .ok m := by
    obtain ⟨margin, product, marginIs⟩ := Uint128.mul_succeeds ContractError (item.highestBid.getD .zero)
      config.bidMargin (by rw [getD_highestBid]; omega)
    refine bind_succeeds margin product ⟨⟨_, small⟩, ?_⟩
    rw [unwrap_ok, Uint128.checkedAdd_ok, marginIs, getD_highestBid]
  unfold leastBid at fits
  unfold minimumBid
  cases start : item.startPrice with
  | none =>
    rw [start] at fits
    exact raised fits
  | some startPrice =>
    rw [start] at fits
    dsimp only at fits ⊢
    split
    · exact ⟨startPrice, rfl⟩
    · next below =>
      rw [Uint128.lt_def, getD_highestBid] at below
      rw [if_neg below] at fits
      exact raised fits

theorem bidTotal_succeeds {bid : Option BidInfo} {sent total : Uint128} (compounded : total.u128 = depositOf bid + sent.u128) :
    bidTotal bid sent = .ok total := by
  cases bid with
  | none =>
    have same : sent = total := Uint128.ext (by simpa [depositOf] using compounded.symm)
    rw [bidTotal, same]
  | some bid => simpa [bidTotal, depositOf] using compounded

theorem creditDeposit_succeeds (bids : FiniteMap (Nat × CanonicalAddr) BidInfo) (key : Nat × CanonicalAddr)
    {sent total : Uint128} (compounded : total.u128 = depositOf (bids.mayLoad key) + sent.u128) :
    ∃ p, creditDeposit bids key sent = .ok p := by
  unfold creditDeposit
  split
  · exact ⟨_, rfl⟩
  · next bid present =>
    have sum : bid.totalBid.checkedAdd sent = .ok total := by
      simpa [present, depositOf] using compounded
    exact bind_succeeds total (std_ok.mpr sum) (bind_succeeds total (std_ok.mpr sum) ⟨_, rfl⟩)

theorem belowInstantBuy_succeeds {item : ItemInfo} {total : Uint128}
    (below : ∀ price, item.instantBuy = some price → total.u128 < price.u128) : belowInstantBuy item total = .ok () := by
  unfold belowInstantBuy
  split
  · rfl
  · next price offered => exact reject_ok.mpr (Nat.not_le_of_lt (below price offered))

theorem executePlaceBid_succeeds {deps : Deps} {s : Storage} {env : Env} {info : MessageInfo} {i : Nat}
    {b : CanonicalAddr} {item : ItemInfo} {sent total : Uint128}
    (spec : Placed deps.api s.config env info (s.slice i) b item sent total) (quotable : Quotable s.config item) :
    ∃ p, executePlaceBid deps s env info i = .ok p := by
  have found : s.items.mayLoad i = some item := spec.stored
  obtain ⟨minBid, minimum⟩ := minimumBid_succeeds (lt_of_le_of_lt spec.enough total.lt)
  have enough : ¬ total < minBid := by
    rw [Uint128.lt_def, minimumBid_ok minimum]
    exact Nat.not_lt_of_le spec.enough
  obtain ⟨credited, credit⟩ := creditDeposit_succeeds s.bids (i, b) spec.compounded
  refine bind_succeeds b (std_ok.mpr spec.sender) (bind_succeeds sent (fundsSent_ok.mpr spec.funds) ?_)
  refine bind_succeeds item (std_ok.mpr (FiniteMap.load_ok.mpr found)) ?_
  refine bind_succeeds () (reject_ok.mpr (Nat.not_lt_of_le spec.notEnded)) ?_
  refine bind_succeeds () (reject_ok.mpr (Nat.not_lt_of_le spec.started)) ?_
  refine bind_succeeds () (reject_ok.mpr spec.notCreator) ?_
  refine bind_succeeds () (requireRegistered_succeeds spec.registered quotable) ?_
  refine bind_succeeds minBid minimum (bind_succeeds total (bidTotal_succeeds spec.compounded) ?_)
  refine bind_succeeds () (reject_ok.mpr enough) ?_
  refine bind_succeeds (s.items.save i (item.afterBid env.blockTime b total)) (FiniteMap.update_ok.mpr ⟨_, ?_, rfl⟩) ?_
  · rw [found]
    exact bind_ok_iff.mpr ⟨item, rfl, bind_ok_iff.mpr ⟨(), belowInstantBuy_succeeds spec.belowInstantBuy, rfl⟩⟩
  · exact bind_succeeds credited credit ⟨_, rfl⟩

theorem executePlaceBid_quotable {deps : Deps} {s : Storage} {env : Env} {info : MessageInfo} {i : Nat} {item : ItemInfo}
    {p : Storage × Response} (h : executePlaceBid deps s env info i = .ok p) (found : (s.slice i).item = some item) :
    Quotable s.config item := by
  unfold executePlaceBid at h
  obtain ⟨b, _, h⟩ := bind_ok h
  obtain ⟨sent, _, h⟩ := bind_ok h
  obtain ⟨stored, present, h⟩ := bind_ok h
  obtain ⟨_, _, h⟩ := bind_ok h
  obtain ⟨_, _, h⟩ := bind_ok h
  obtain ⟨_, _, h⟩ := bind_ok h
  obtain ⟨_, registered, _⟩ := bind_ok h
  obtain rfl := Option.some.inj (found.symm.trans (FiniteMap.load_ok.mp (std_ok.mp present)))
  exact requireRegistered_quotable registered

/-! ### Instant purchases -/

structure Bought (api : Api) (config : Config) (env : Env) (info : MessageInfo) (x : Slice)
    (b : CanonicalAddr) (item : ItemInfo) (sent price : Uint128) : Prop where
  sender : api.addrCanonicalize info.sender = .ok b
  funds : info.funds = [{ denom := config.denom, amount := sent }]
  stored : x.item = some item
  notEnded : env.blockTime.seconds ≤ item.endTime
  notCreator : item.creator ≠ b
  registered : item.privateSale = true → (x.bid b).isSome
  instantBuy : item.instantBuy = some price
  compounded : price.u128 = x.totalBid b + sent.u128

/-- Without a deposit from before, the coins sent are the whole price. -/
theorem Bought.whole {api : Api} {config : Config} {env : Env} {info : MessageInfo} {x : Slice} {b : CanonicalAddr}
    {item : ItemInfo} {sent price : Uint128} (spec : Bought api config env info x b item sent price)
    (nothing : x.totalBid b = 0) : sent = price := by
  have compounded := spec.compounded
  apply Uint128.ext
  omega

def ItemInfo.afterPurchase (item : ItemInfo) (t : Timestamp) (b : CanonicalAddr) (price : Uint128) : ItemInfo :=
  { item with
    endTime := (t.minusSeconds MIN_TIME_AUCTION).seconds
    highestBid := some price
    highestBidder := some b
    totalBids := item.totalBids + 1 }

/-- Auction `i` after an instant purchase. A new log of the auction starts with the coins sent. -/
def Slice.afterPurchase (x : Slice) (env : Env) (b : CanonicalAddr) (item : ItemInfo) (sent price : Uint128) : Slice :=
  x.deposit (item.afterPurchase env.blockTime b price) b price (bidEntry env b sent true)
    (bidEntry env b price true)

theorem executeInstantBuy_ok {deps : Deps} {s t : Storage} {env : Env} {info : MessageInfo} {i : Nat} {r : Response}
    (h : executeInstantBuy deps s env info i = .ok (t, r)) :
    ∃ b item sent price, Bought deps.api s.config env info (s.slice i) b item sent price ∧
      t.slice i = (s.slice i).afterPurchase env b item sent price ∧ SameElsewhere i s t ∧ r.messages = [] := by
  unfold executeInstantBuy at h
  cases found : s.items.mayLoad i with
  | none => simp [found] at h
  | some item =>
    simp only [found] at h
    obtain ⟨_, notEnded, h⟩ := bind_ok h
    obtain ⟨b, sender, h⟩ := bind_ok h
    obtain ⟨_, notCreator, h⟩ := bind_ok h
    obtain ⟨_, registered, h⟩ := bind_ok h
    obtain ⟨sent, funds, h⟩ := bind_ok h
    obtain ⟨⟨bids, compounded⟩, credited, h⟩ := bind_ok h
    obtain ⟨price, paid, h⟩ := bind_ok h
    obtain ⟨items, updated, h⟩ := bind_ok h
    obtain ⟨rfl, rfl⟩ := Prod.mk.inj (pure_ok.mp h)
    rw [FiniteMap.update_ok, found] at updated
    obtain ⟨stored, updated, rfl⟩ := updated
    obtain rfl := pure_ok.mp updated
    obtain ⟨compound, rfl⟩ := creditDeposit_ok credited
    obtain ⟨offered, rfl⟩ := payInstantBuy_ok paid
    obtain ⟨slice, elsewhere⟩ := slice_deposit s i (item.afterPurchase env.blockTime b price) b price
      (bidEntry env b sent true) (bidEntry env b price true)
    refine ⟨b, item, sent, price, ?_, slice, elsewhere, rfl⟩
    exact {
      sender := std_ok.mp sender
      funds := fundsSent_ok.mp funds
      stored := found
      notEnded := Nat.le_of_not_lt (reject_ok.mp notEnded)
      notCreator := reject_ok.mp notCreator
      registered := requireRegistered_ok registered
      instantBuy := offered
      compounded := compound }

theorem executeInstantBuy_succeeds {deps : Deps} {s : Storage} {env : Env} {info : MessageInfo} {i : Nat}
    {b : CanonicalAddr} {item : ItemInfo} {sent price : Uint128}
    (spec : Bought deps.api s.config env info (s.slice i) b item sent price) (quotable : Quotable s.config item) :
    ∃ p, executeInstantBuy deps s env info i = .ok p := by
  have found : s.items.mayLoad i = some item := spec.stored
  obtain ⟨⟨bids, total⟩, credit⟩ := creditDeposit_succeeds s.bids (i, b) spec.compounded
  obtain rfl : total = price := Uint128.ext ((creditDeposit_ok credit).1.trans spec.compounded.symm)
  have paid : payInstantBuy item total = .ok total := by
    rw [payInstantBuy, spec.instantBuy]
    exact bind_ok_iff.mpr ⟨(), reject_ok.mpr (not_not.mpr rfl), rfl⟩
  unfold executeInstantBuy
  simp only [found]
  refine bind_succeeds () (reject_ok.mpr (Nat.not_lt_of_le spec.notEnded)) (bind_succeeds b (std_ok.mpr spec.sender) ?_)
  refine bind_succeeds () (reject_ok.mpr spec.notCreator) ?_
  refine bind_succeeds () (requireRegistered_succeeds spec.registered quotable) ?_
  refine bind_succeeds sent (fundsSent_ok.mpr spec.funds) (bind_succeeds (bids, total) credit ?_)
  refine bind_succeeds total paid ?_
  refine bind_succeeds (s.items.save i (item.afterPurchase env.blockTime b total)) (FiniteMap.update_ok.mpr ⟨_, ?_, rfl⟩) ?_
  · rw [found]
    rfl
  · exact ⟨_, rfl⟩

theorem executeInstantBuy_quotable {deps : Deps} {s : Storage} {env : Env} {info : MessageInfo} {i : Nat} {item : ItemInfo}
    {p : Storage × Response} (h : executeInstantBuy deps s env info i = .ok p) (found : (s.slice i).item = some item) :
    Quotable s.config item := by
  have stored : s.items.mayLoad i = some item := found
  unfold executeInstantBuy at h
  simp only [stored] at h
  obtain ⟨_, _, h⟩ := bind_ok h
  obtain ⟨b, _, h⟩ := bind_ok h
  obtain ⟨_, _, h⟩ := bind_ok h
  obtain ⟨_, registered, _⟩ := bind_ok h
  exact requireRegistered_quotable registered

end NftMarketplace
