import NftMarketplace.Runs.Escrow

/-!
An auction whose end lies in the past. Nobody enters it any more, and a run changes nothing of its
item but the mark of its settlement. A settlement, an instant purchase and a cancellation lead there.
-/

namespace NftMarketplace
open Cosmwasm Outcome

/-- The messages that enter auction `i`: a bid, an instant purchase, a cancellation or a registration. -/
def ExecuteMsg.Enters (i : Nat) : ExecuteMsg → Prop
  | .placeBid j | .instantBuy j | .cancelAuction j => j = i
  | .receive wrapper => wrapper.msg = .ok (.registerPrivateSale i)
  | _ => False

instance (i : Nat) (msg : ExecuteMsg) : Decidable (msg.Enters i) := by
  cases msg <;> unfold ExecuteMsg.Enters <;> infer_instance

section
variable {api : Api} {es pre post : List (Accepted api)} {e w : Accepted api} {s t : Storage} {i : Nat}
  {item : ItemInfo}

/-! ### After the end -/

/-- After its end an auction is entered by nobody and its item can only be settled. -/
theorem Effect.closed (h : Effect e i) (wellFormed : WellFormed api e.before)
    (found : (e.before.slice i).item = some item) (ended : item.endTime < e.now) :
    ¬ e.msg.Enters i ∧ ∃ item', (e.after.slice i).item = some item' ∧ item'.settled = item.settled := by
  have passed (stored : ItemInfo) (present : (e.before.slice i).item = some stored) : ¬ e.now ≤ stored.endTime := by
    obtain rfl := Option.some.inj (found.symm.trans present)
    omega
  cases h with
  | away elsewhere same =>
    refine ⟨fun enters => elsewhere ?_, item, by rw [same, found], rfl⟩
    cases message : e.msg <;> simp_all [ExecuteMsg.Enters, ExecuteMsg.auction]
  | listed number => exact (ListedBy.new wellFormed number found).elim
  | registered _ _ spec => exact (passed _ spec.stored spec.notEnded).elim
  | placed _ spec => exact (passed _ spec.stored spec.notEnded).elim
  | bought _ spec => exact (passed _ spec.stored spec.notEnded).elim
  | retracted message _ after =>
    exact ⟨by simp [message, ExecuteMsg.Enters], item, by rw [after]; exact found, rfl⟩
  | withdrawn message spec after =>
    obtain rfl := Option.some.inj (found.symm.trans spec.stored)
    exact ⟨by simp [message, ExecuteMsg.Enters], item.settled, congrArg Slice.item after, rfl⟩
  | cancelled _ spec => exact (passed _ spec.stored spec.notEnded).elim

theorem Run.closed (run : Run s es t) (wellFormed : WellFormed api s) (found : (s.slice i).item = some item)
    (ended : ∀ e ∈ es, item.endTime < e.now) :
    (∀ e ∈ es, ¬ e.msg.Enters i) ∧ ∃ item', (t.slice i).item = some item' ∧ item'.settled = item.settled := by
  induction run with
  | nil => exact ⟨by simp, item, found, rfl⟩
  | @snoc es e before ih =>
    obtain ⟨early, item₁, found₁, same₁⟩ := ih fun e' member => ended e' (by simp [member])
    have endTime : item₁.endTime = item.endTime := (congrArg ItemInfo.endTime same₁ :)
    obtain ⟨last, item₂, found₂, same₂⟩ := (effect e i).closed (Run.wellFormed before wellFormed) found₁
      (endTime ▸ ended e (by simp))
    refine ⟨?_, item₂, found₂, same₂.trans same₁⟩
    intro e' member
    rcases List.mem_append.mp member with old | new
    · exact early e' old
    · obtain rfl := List.mem_singleton.mp new
      exact last

theorem Run.finds (run : Run s es t) (wellFormed : WellFormed api s) (found : (s.slice i).item = some item)
    (ended : ∀ e ∈ es, item.endTime < e.now) (member : e ∈ es) :
    ∃ item', (e.before.slice i).item = some item' ∧ item'.settled = item.settled := by
  obtain ⟨early, late, rfl, before, _⟩ := Transition.Steps.mem_prefix run member
  exact (Run.closed before wellFormed found fun e' member => ended e' (by simp [member])).2

theorem bound_of_settled {other : ItemInfo} (same : item.settled = other.settled) (b : CanonicalAddr) :
    item.Bound b ↔ other.Bound b := by
  have bid : item.highestBid = other.highestBid := (congrArg ItemInfo.highestBid same :)
  have bidder : item.highestBidder = other.highestBidder := (congrArg ItemInfo.highestBidder same :)
  have reserve : item.reservePrice = other.reservePrice := (congrArg ItemInfo.reservePrice same :)
  simp [ItemInfo.Bound, ItemInfo.reserve, ItemInfo.price, bid, bidder, reserve]

theorem saleRecipient_of_settled {other : ItemInfo} (same : item.settled = other.settled) :
    saleRecipient item = saleRecipient other := by
  have bid : item.highestBid = other.highestBid := (congrArg ItemInfo.highestBid same :)
  have bidder : item.highestBidder = other.highestBidder := (congrArg ItemInfo.highestBidder same :)
  have reserve : item.reservePrice = other.reservePrice := (congrArg ItemInfo.reservePrice same :)
  have creator : item.creator = other.creator := (congrArg ItemInfo.creator same :)
  simp [saleRecipient, bid, bidder, reserve, creator]

/-! ### Settlements -/

def Accepted.SoldTo (w : Accepted api) (i : Nat) (b : CanonicalAddr) : Prop :=
  w.msg = .withdrawNft i ∧ ∃ item ∈ w.item i, saleRecipient item = b ∧ b ≠ item.creator

instance (w : Accepted api) (i : Nat) (b : CanonicalAddr) : Decidable (w.SoldTo i b) :=
  inferInstanceAs (Decidable (_ ∧ _))

/-- The settlement comes after the end, not in the auction's last second. -/
def Accepted.Late (w : Accepted api) (i : Nat) : Prop := ∀ item ∈ w.item i, item.endTime < w.now

instance (w : Accepted api) (i : Nat) : Decidable (w.Late i) :=
  inferInstanceAs (Decidable (∀ item ∈ w.item i, item.endTime < w.now))

theorem settlement_terminal (reached : Reached api (pre ++ w :: post) s) (message : w.msg = .withdrawNft i)
    (late : w.Late i) :
    (∀ e ∈ post, ¬ e.msg.Enters i) ∧
      ∀ b, w.SoldTo i b → ∀ e ∈ post, ¬ (e.msg = .retractBids i ∧ e.sender = some b) := by
  obtain ⟨before, run, _, after, _⟩ := reached.before
  obtain ⟨item, _, _, _, _, _, spec, stored, _, _⟩ := Accepted.withdrawn message
  have wellFormed := wellFormed_step w before.wellFormed
  have found : (w.after.slice i).item = some item.settled := congrArg Slice.item stored
  have ended : ∀ e ∈ post, item.settled.endTime < e.now := fun e member =>
    lt_of_lt_of_le (late item spec.stored) (now_le_of_time (after e member))
  refine ⟨(Run.closed run wellFormed found ended).1, ?_⟩
  rintro b ⟨_, item', found', recipient, other⟩ e member ⟨retracts, sender⟩
  obtain rfl := Option.some.inj (spec.stored.symm.trans found')
  have bound : item.Bound b := (before.sound spec.stored).bound_iff.mpr ⟨recipient, other⟩
  obtain ⟨item'', found'', same⟩ := Run.finds run wellFormed found ended member
  obtain ⟨c, _, _, _, _, refund, _⟩ := Accepted.retracted retracts
  obtain rfl := Option.some.inj ((Accepted.sender_ok refund.sender).symm.trans sender)
  obtain rfl := Option.some.inj (found''.symm.trans refund.stored)
  exact refund.free ((bound_of_settled same c).mpr bound)

theorem settlement_terminal_soldToBob :
    (∀ e ∈ Demo.soldToBob.log.drop 4, ¬ e.msg.Enters 0) ∧
      ∀ e ∈ Demo.soldToBob.log.drop 4, ¬ (e.msg = .retractBids 0 ∧ e.sender = some Demo.bob) :=
  have terminal := settlement_terminal (i := 0) (Demo.soldToBob.reached_at 3 (by decide)) (by decide) (by decide)
  ⟨terminal.1, terminal.2 Demo.bob (by decide)⟩

/-- `alice` is sold the NFT in the last second of the auction; `bob` outbids her within that second,
and she leaves with her deposit. -/
def Demo.soldThenOutbid : Demo.Scenario where
  msg := instantiateMsg
  rate := Decimal.zero
  deliveries := [listing none none none false, deliver 1000 "alice" (coins 100) (.placeBid 0),
    deliver 2000 "alice" [] (.withdrawNft 0), deliver 2000 "bob" (coins 200) (.placeBid 0),
    deliver 2000 "alice" [] (.retractBids 0)]
  accepted := by decide
  order := by decide

theorem sold_then_outbid :
    ∃ pre w post s, Reached Demo.api (pre ++ w :: post) s ∧
      (∀ e ∈ pre ++ w :: post, ∀ coin ∈ e.info.funds, 0 < coin.amount.u128) ∧ w.SoldTo 0 Demo.alice ∧
      (∃ e ∈ post, e.msg = .placeBid 0) ∧ ∃ e ∈ post, e.msg = .retractBids 0 ∧ e.sender = some Demo.alice :=
  ⟨_, _, _, _, Demo.soldThenOutbid.reached_at 2 (by decide), by decide, by decide, by decide, by decide⟩

/-! ### Purchases and cancellations -/

def RewardFits (t : Storage) (i : Nat) (b : CanonicalAddr) : Prop :=
  ∀ item ∈ t.items.mayLoad i, ∀ bid ∈ t.bids.mayLoad (i, b), RewardDue item bid →
    scale bid.totalBid.u128 t.config.sityPartialRewards.atomics < 2 ^ 128

instance (t : Storage) (i : Nat) (b : CanonicalAddr) : Decidable (RewardFits t i b) :=
  inferInstanceAs (Decidable (∀ item ∈ _, ∀ bid ∈ _, _ → _))

/-- Whoever speaks for `b` gets its deposit back, at any time. -/
def CanRetract (api : Api) (t : Storage) (i : Nat) (b : CanonicalAddr) : Prop :=
  ∀ querier env info, api.addrCanonicalize info.sender = .ok b → Answers querier t.config.denom →
    ∃ p, execute ⟨api, querier⟩ t env info (.retractBids i) = .ok p

def Accepted.HandsTo (e : Accepted api) (i : Nat) (b : CanonicalAddr) (payouts : List CosmosMsg) : Prop :=
  ∃ item collection owner, e.item i = some item ∧ api.addrHumanize item.nftContract = .ok collection ∧
    api.addrHumanize b = .ok owner ∧ e.response.messages = handOver collection owner item :: payouts

theorem canRetract (lawful : api.Lawful) (wellFormed : WellFormed api t) (found : (t.slice i).item = some item)
    {b : CanonicalAddr} (free : ¬ item.Bound b) (positive : 0 < (t.totalBid i b).u128) (fits : RewardFits t i b) :
    CanRetract api t i b := by
  intro querier env info sender answers
  obtain ⟨_, canonical⟩ := wellFormed.cw20
  obtain ⟨cw20, token⟩ := lawful.humanize canonical
  cases entry : t.bids.mayLoad (i, b) with
  | none => simp [Storage.totalBid, entry] at positive
  | some bid =>
    have deposit : 0 < bid.totalBid.u128 := by simpa [Storage.totalBid, entry] using positive
    exact executeRetractBids_succeeds env sender found entry free deposit answers (fits item found bid entry) token

theorem settlement_hands (message : w.msg = .withdrawNft i) (found : (w.before.slice i).item = some item) :
    ∃ payouts, w.HandsTo i (saleRecipient item) payouts ∧ (saleRecipient item = item.creator → payouts = []) := by
  obtain ⟨stored, collection, owner, minter, shares, payouts, spec, _, _, sends⟩ := Accepted.withdrawn message
  obtain rfl := Option.some.inj (found.symm.trans spec.stored)
  refine ⟨payouts, ⟨item, collection, owner, found, spec.contract, spec.newOwner, sends⟩, ?_⟩
  intro back
  rcases salePayouts_ok spec.paid with ⟨_, none⟩ | ⟨sold, _⟩
  · exact none
  · exact (sold back).elim

theorem closed_after (reached : Reached api pre e.before) (found : (e.after.slice i).item = some item)
    (ended : item.endTime < e.now) (run : Run e.after post t) (after : ∀ e' ∈ post, e.now ≤ e'.now) :
    (∀ e' ∈ post, ¬ e'.msg.Enters i) ∧
      (∃ item', (t.slice i).item = some item' ∧ item'.settled = item.settled) ∧
      ∀ e' ∈ post, e'.msg = .withdrawNft i →
        ∃ payouts, e'.HandsTo i (saleRecipient item) payouts ∧ (saleRecipient item = item.creator → payouts = []) := by
  have wellFormed := wellFormed_step e reached.wellFormed
  have passed : ∀ e' ∈ post, item.endTime < e'.now := fun e' member => lt_of_lt_of_le ended (after e' member)
  obtain ⟨entered, kept⟩ := Run.closed run wellFormed found passed
  refine ⟨entered, kept, ?_⟩
  intro e' member message
  obtain ⟨item', found', same⟩ := Run.finds run wellFormed found passed member
  have creator : item'.creator = item.creator := (congrArg ItemInfo.creator same :)
  obtain ⟨payouts, hands, back⟩ := settlement_hands message found'
  rw [saleRecipient_of_settled same] at hands back
  exact ⟨payouts, hands, fun h => back (h.trans creator.symm)⟩

theorem ten_minutes_back {t : Timestamp} (late : 600 ≤ t.seconds) :
    (t.minusSeconds MIN_TIME_AUCTION).seconds < t.seconds := by
  rw [Timestamp.minusSeconds_seconds (show MIN_TIME_AUCTION ≤ t.seconds from late)]
  exact Nat.sub_lt_of_pos_le (by decide) late

/-- What a purchase leaves: the highest bid is the instant price, and it meets the reserve. -/
structure Bargain (item : ItemInfo) (price : Uint128) : Prop where
  offered : item.instantBuy = some price
  paid : item.highestBid = some price
  met : ∀ reserve, item.reservePrice = some reserve → reserve ≤ price

theorem purchase_bargain (reached : Reached api pre e.before) (message : e.msg = .instantBuy i) :
    ∃ item price, e.after.items.mayLoad i = some item ∧ Bargain item price := by
  obtain ⟨buyer, item, _, price, spec, stored, _⟩ := Accepted.bought message
  refine ⟨item.afterPurchase e.env.blockTime buyer price, price, congrArg Slice.item stored, spec.instantBuy, rfl, ?_⟩
  intro reserve kept
  have below := (reached.sound spec.stored).priced.reserveBelowInstant price spec.instantBuy
  have reserveIs : item.reservePrice = some reserve := kept
  rw [Uint128.le_def]
  simpa [ItemInfo.reserve, reserveIs] using below

theorem purchase_final (lawful : api.Lawful) (reached : Reached api pre e.before) (late : 600 ≤ e.now)
    (message : e.msg = .instantBuy i) {b : CanonicalAddr} (sender : e.sender = some b) (run : Run e.after post t)
    (after : ∀ e' ∈ post, e.now ≤ e'.now) :
    (∀ e' ∈ post, ¬ e'.msg.Enters i) ∧
      (∃ item item', (e.after.slice i).item = some item ∧ (t.slice i).item = some item' ∧
        item'.settled = item.settled) ∧
      (∀ e' ∈ post, e'.msg = .withdrawNft i → ∃ payouts, e'.HandsTo i b payouts) ∧
      ∀ c, c ≠ b → 0 < (t.totalBid i c).u128 → RewardFits t i c → CanRetract api t i c := by
  obtain ⟨buyer, item, sent, price, spec, stored, _⟩ := Accepted.bought message
  obtain rfl := Option.some.inj ((Accepted.sender_ok spec.sender).symm.trans sender)
  have found : (e.after.slice i).item = some (item.afterPurchase e.env.blockTime buyer price) :=
    congrArg Slice.item stored
  obtain ⟨entered, ⟨item', kept, same⟩, settled⟩ := closed_after reached found (ten_minutes_back late) run after
  have sound : Sound (item.afterPurchase e.env.blockTime buyer price) :=
    (sound_invariant api).bought spec (reached.sound spec.stored)
  have bound : (item.afterPurchase e.env.blockTime buyer price).Bound buyer :=
    ⟨rfl, (reached.sound spec.stored).priced.reserveBelowInstant price spec.instantBuy⟩
  obtain ⟨recipient, _⟩ := sound.bound_iff.mp bound
  rw [recipient] at settled
  refine ⟨entered, ⟨_, item', found, kept, same⟩, ?_, ?_⟩
  · intro e' member withdraws
    obtain ⟨payouts, hands, _⟩ := settled e' member withdraws
    exact ⟨payouts, hands⟩
  · intro c other positive fits
    apply canRetract lawful (Run.wellFormed run (wellFormed_step e reached.wellFormed)) kept _ positive fits
    rw [bound_of_settled same]
    intro bound
    exact other (Option.some.inj bound.1).symm

theorem cancellation_final (lawful : api.Lawful) (reached : Reached api pre e.before) (late : 600 ≤ e.now)
    (message : e.msg = .cancelAuction i) (run : Run e.after post t) (after : ∀ e' ∈ post, e.now ≤ e'.now) :
    (∀ e' ∈ post, ¬ e'.msg.Enters i) ∧
      (∃ item item', (e.after.slice i).item = some item ∧ (t.slice i).item = some item' ∧
        item'.settled = item.settled) ∧
      (∀ e' ∈ post, e'.msg = .withdrawNft i → ∃ item, e'.item i = some item ∧ e'.HandsTo i item.creator []) ∧
      ∀ c, 0 < (t.totalBid i c).u128 → RewardFits t i c → CanRetract api t i c := by
  obtain ⟨item, fee, msgs, spec, stored, _⟩ := Accepted.cancelled message
  have found : (e.after.slice i).item = some (item.cancelled e.env.blockTime) := congrArg Slice.item stored
  have wellFormed := wellFormed_step e reached.wellFormed
  obtain ⟨entered, ⟨item', kept, same⟩, settled⟩ := closed_after reached found (ten_minutes_back late) run after
  refine ⟨entered, ⟨_, item', found, kept, same⟩, ?_, ?_⟩
  · intro e' member withdraws
    obtain ⟨payouts, hands, back⟩ := settled e' member withdraws
    obtain rfl := back rfl
    obtain ⟨pre', post', rfl, before, _⟩ := Transition.Steps.mem_prefix run member
    obtain ⟨item'', found'', terms, _⟩ := Run.same_terms before wellFormed found
    refine ⟨item'', found'', ?_⟩
    rw [creator_of_terms terms]
    exact hands
  · intro c positive fits
    apply canRetract lawful (Run.wellFormed run wellFormed) kept _ positive fits
    rw [bound_of_settled same]
    intro bound
    exact nomatch bound.1

theorem closing_final (lawful : api.Lawful) (reached : Reached api pre e.before) (late : 600 ≤ e.now)
    (closes : e.msg = .instantBuy i ∨ e.msg = .cancelAuction i) (run : Run e.after post t)
    (after : ∀ e' ∈ post, e.now ≤ e'.now) :
    (∀ e' ∈ post, ¬ e'.msg.Enters i) ∧
      (∃ item item', e.after.items.mayLoad i = some item ∧ t.items.mayLoad i = some item' ∧
        item'.endTime = item.endTime ∧ item'.highestBid = item.highestBid ∧
        item'.highestBidder = item.highestBidder) ∧
      (∀ b, e.msg = .instantBuy i → e.sender = some b →
        (∃ item price, e.after.items.mayLoad i = some item ∧ Bargain item price) ∧
        (∀ e' ∈ post, e'.msg = .withdrawNft i → ∃ payouts, e'.HandsTo i b payouts) ∧
          ∀ c, c ≠ b → 0 < (t.totalBid i c).u128 → RewardFits t i c → CanRetract api t i c) ∧
      (e.msg = .cancelAuction i →
        (∀ e' ∈ post, e'.msg = .withdrawNft i → ∃ item, e'.item i = some item ∧ e'.HandsTo i item.creator []) ∧
          ∀ c, 0 < (t.totalBid i c).u128 → RewardFits t i c → CanRetract api t i c) := by
  have fields (kept : ∃ item item', (e.after.slice i).item = some item ∧ (t.slice i).item = some item' ∧
      item'.settled = item.settled) :
      ∃ item item', e.after.items.mayLoad i = some item ∧ t.items.mayLoad i = some item' ∧
        item'.endTime = item.endTime ∧ item'.highestBid = item.highestBid ∧
        item'.highestBidder = item.highestBidder := by
    obtain ⟨item, item', found, found', same⟩ := kept
    exact ⟨item, item', found, found', (congrArg ItemInfo.endTime same :), (congrArg ItemInfo.highestBid same :),
      (congrArg ItemInfo.highestBidder same :)⟩
  rcases closes with purchase | cancellation
  · obtain ⟨buyer, _, _, _, spec, _⟩ := Accepted.bought purchase
    have sender : e.sender = some buyer := Accepted.sender_ok spec.sender
    obtain ⟨entered, kept, hands, refunds⟩ := purchase_final lawful reached late purchase sender run after
    refine ⟨entered, fields kept, ?_, ?_⟩
    · intro b _ sends
      obtain rfl := Option.some.inj (sender.symm.trans sends)
      exact ⟨purchase_bargain reached purchase, hands, refunds⟩
    · intro other
      simp [purchase] at other
  · obtain ⟨entered, kept, hands, refunds⟩ := cancellation_final lawful reached late cancellation run after
    refine ⟨entered, fields kept, ?_, fun _ => ⟨hands, refunds⟩⟩
    intro b other
    simp [cancellation] at other

def Demo.boughtOut : Demo.Scenario where
  msg := instantiateMsg
  rate := Decimal.zero
  deliveries := [listing none (some (amount 500)) none false,
    deliver 1000 "alice" (coins 100) (.placeBid 0),
    deliver 1100 "bob" (coins 500) (.instantBuy 0), deliver 1100 "bob" [] (.withdrawNft 0)]
  accepted := by decide
  order := by decide

theorem closing_final_boughtOut :
    (∀ e' ∈ Demo.boughtOut.log.drop 3, ¬ e'.msg.Enters 0) ∧
      (∃ item price, (Demo.boughtOut.log.get ⟨2, by decide⟩).after.items.mayLoad 0 = some item ∧ Bargain item price) ∧
      (∀ e' ∈ Demo.boughtOut.log.drop 3, e'.msg = .withdrawNft 0 → ∃ payouts, e'.HandsTo 0 Demo.bob payouts) ∧
      CanRetract Demo.api Demo.boughtOut.final 0 Demo.alice := by
  have reached := Demo.boughtOut.reached_at 2 (by decide)
  obtain ⟨before, run, _⟩ := reached.before
  have purchase : (Demo.boughtOut.log.get ⟨2, by decide⟩).msg = .instantBuy 0 := by decide
  obtain ⟨entered, _, bought, _⟩ := closing_final Demo.lawful before (by decide) (Or.inl purchase) run (by decide)
  obtain ⟨bargain, hands, refunds⟩ := bought Demo.bob (by decide) (by decide)
  exact ⟨entered, bargain, hands, refunds Demo.alice (by decide) (by decide) (by decide)⟩

def Demo.lavish : InstantiateMsg := { Demo.instantiateMsg with sityPartialRewards := ⟨2 ^ 128 - 1, by decide⟩ }

def Demo.boughtLavish : Demo.Scenario where
  msg := lavish
  rate := Decimal.zero
  deliveries := [listing none (some (amount (4 * 10 ^ 18))) none false,
    deliver 1000 "alice" (coins (2 * 10 ^ 18)) (.placeBid 0),
    deliver 1500 "bob" (coins (4 * 10 ^ 18)) (.instantBuy 0)]
  accepted := by decide
  order := by decide

/-- A deposit stays behind when the reward for taking it back does not fit. -/
theorem bought_then_stuck :
    ∃ pre e s, Reached Demo.api (pre ++ [e]) s ∧ (∀ e' ∈ pre ++ [e], ∀ coin ∈ e'.info.funds, 0 < coin.amount.u128) ∧
      s.cancellation.cancellationFee = Decimal.zero ∧ e.msg = .instantBuy 0 ∧ 600 ≤ e.now ∧
      e.sender ≠ some Demo.alice ∧ 0 < (s.totalBid 0 Demo.alice).u128 ∧ ¬ CanRetract Demo.api s 0 Demo.alice := by
  refine ⟨_, _, _, Demo.boughtLavish.reached_at 2 (by decide), by decide, by decide, by decide, by decide, by decide,
    by decide, ?_⟩
  intro can
  obtain ⟨p, accepted⟩ := can Demo.querier (Demo.env 1500) ⟨"alice", []⟩ (by decide) Demo.answers
  have refused : (execute ⟨Demo.api, Demo.querier⟩ Demo.boughtLavish.final (Demo.env 1500) ⟨"alice", []⟩
    (.retractBids 0)).toOption.isNone := by decide
  rw [accepted] at refused
  cases refused

end

end NftMarketplace
