import NftMarketplace.Runs.Escrow

/-!
The SITY that an auction issues. A settlement rewards the two sides of a sale once; a refund rewards
its bidder once, and the `resolved` mark of the bid entry, which no later bid takes away, says so.
-/

namespace NftMarketplace
open Cosmwasm Transition

namespace Accepted
variable {api : Api} (e : Accepted api) (i : Nat)

def mints : List (String × Uint128) := e.response.messages.filterMap CosmosMsg.minted

/-- What a message about auction `i` mints. -/
def issued : Nat :=
  if e.msg.auction e.before.state.counterItems = some i then (e.mints.map fun mint => mint.2.u128).sum else 0

def partialRewards (b : CanonicalAddr) : Nat :=
  if e.msg = .retractBids i ∧ e.sender = some b then e.mints.length else 0

end Accepted

section
variable {api : Api} {es : List (Accepted api)} {e : Accepted api} {s : Storage} {i : Nat}

/-! ### One message -/

theorem retracted_mints {b : CanonicalAddr} {item : ItemInfo} {bid : BidInfo} {send : CosmosMsg}
    {rewards : List CosmosMsg} (spec : Retracted e.deps e.before e.info (e.before.slice i) b item bid send rewards)
    (sends : e.response.messages = send :: rewards) :
    (¬ RewardDue item bid → e.mints = []) ∧ (RewardDue item bid → ∃ amount : Uint128,
      amount.u128 = scale bid.totalBid.u128 e.before.config.sityPartialRewards.atomics ∧
        e.mints = [(e.info.sender, amount)]) := by
  rw [Accepted.mints, sends, spec.filterMap_rewards fun _ _ _ => rfl]
  constructor
  · intro undue
    rw [spec.unrewarded undue]
    rfl
  · intro due
    obtain ⟨cw20, amount, amountIs, _, rfl⟩ := spec.rewarded due
    exact ⟨amount, amountIs, rfl⟩

/-- A settlement mints nothing, or the full reward for each side of the sale. -/
theorem withdrawn_mints {item : ItemInfo} {collection owner : Addr} {minter : Option CanonicalAddr} {shares : Shares}
    {payouts : List CosmosMsg}
    (spec : Withdrawn e.deps e.before e.env (e.before.slice i) item collection owner minter shares payouts)
    (sends : e.response.messages = handOver collection owner item :: payouts) :
    e.mints = [] ∨ ∃ toCreator toRecipient amount,
      amount.u128 = scale item.price e.before.config.sityFullRewards.atomics ∧
        e.mints = [(toCreator, amount), (toRecipient, amount)] := by
  have only : e.mints = payouts.filterMap CosmosMsg.minted := by rw [Accepted.mints, sends]; rfl
  rw [only]
  rcases salePayouts_ok spec.paid with ⟨_, rfl⟩ | ⟨_, rewards, _, _, _, _, parts, rfl⟩
  · exact Or.inl rfl
  · rw [parts.filterMap_rewards fun _ _ _ => rfl, ← spec.split.highestBid]
    rcases fullRewards_ok parts.rewards with ⟨_, rfl⟩ | ⟨_, toCreator, toRecipient, amount, _, amountIs, _, _, _, rfl⟩
    · exact Or.inl rfl
    · exact Or.inr ⟨toCreator, toRecipient, amount, amountIs, rfl⟩

theorem mints_nil (e : Accepted api) (noRefund : ∀ i, e.msg ≠ .retractBids i) (noSettlement : ∀ i, e.msg ≠ .withdrawNft i) :
    e.mints = [] := by
  unfold Accepted.mints
  cases message : e.msg with
  | placeBid _ | instantBuy _ | updateRoyalty _ _ | receiveNft _ =>
    rw [Accepted.silent (e := e) (by rw [message]; trivial)]
    rfl
  | retractBids i => exact (noRefund i message).elim
  | withdrawNft i => exact (noSettlement i message).elim
  | cancelAuction i =>
    obtain ⟨_, _, msgs, spec, _, _, sends⟩ := Accepted.cancelled message
    rw [sends]
    exact filterMap_transfers (fun _ _ _ => rfl) (cancellationFees_transfers spec.fees)
  | receive wrapper =>
    obtain ⟨_, _, _, _, _, _, _, _, burns⟩ := Accepted.registered message
    rw [burns]
    rfl

/-! ### The mark of a refund -/

/-- Nothing takes the mark from a bid entry. -/
theorem Effect.keeps_mark (h : Effect e i) {b : CanonicalAddr} {bid : BidInfo}
    (entry : (e.before.slice i).bid b = some bid) (marked : bid.resolved = true) :
    ∃ bid', (e.after.slice i).bid b = some bid' ∧ bid'.resolved = true := by
  have credited (item : ItemInfo) (c : CanonicalAddr) (total : Uint128) (first next : HistoryBidInfo) :
      ∃ bid', ((e.before.slice i).deposit item c total first next).bid b = some bid' ∧ bid'.resolved = true := by
    rw [Slice.deposit_bid]
    split
    · next here =>
      subst here
      rw [entry]
      exact ⟨_, rfl, marked⟩
    · exact ⟨bid, entry, marked⟩
  cases h with
  | away _ same => exact ⟨bid, by rw [same, entry], marked⟩
  | listed _ _ after => exact ⟨bid, by rw [after]; exact entry, marked⟩
  | registered _ _ spec after =>
    refine ⟨bid, ?_, marked⟩
    rw [after, Slice.withBid_bid, if_neg, entry]
    rintro rfl
    simp [spec.new] at entry
  | placed _ _ after =>
    rw [after]
    exact credited _ _ _ _ _
  | bought _ _ after =>
    rw [after]
    exact credited _ _ _ _ _
  | retracted _ _ after =>
    rw [after, Slice.withBid_bid]
    split
    · exact ⟨_, rfl, rfl⟩
    · exact ⟨bid, entry, marked⟩
  | withdrawn _ _ after => exact ⟨bid, by rw [after]; exact entry, marked⟩
  | cancelled _ _ after => exact ⟨bid, by rw [after]; exact entry, marked⟩

/-- The bidders who took a deposit back from auction `i`. -/
def retractors (i : Nat) (es : List (Accepted api)) : Finset CanonicalAddr :=
  (es.filterMap fun e => if e.msg = .retractBids i then e.sender else none).toFinset

@[simp] theorem retractors_nil : retractors i ([] : List (Accepted api)) = ∅ := rfl

theorem retractors_other (other : e.msg ≠ .retractBids i) : retractors i (es ++ [e]) = retractors i es := by
  simp [retractors, other]

theorem retractors_retracted {b : CanonicalAddr} (message : e.msg = .retractBids i) (sender : e.sender = some b) :
    retractors i (es ++ [e]) = insert b (retractors i es) := by
  ext c
  simp [retractors, message, sender]

def Marked (i : Nat) (es : List (Accepted api)) (x : Slice) : Prop :=
  ∀ b ∈ retractors i es, ∃ bid, x.bid b = some bid ∧ bid.resolved = true

theorem Effect.marked (h : Effect e i) (before : Marked i es (e.before.slice i)) :
    Marked i (es ++ [e]) (e.after.slice i) := by
  intro b member
  by_cases old : b ∈ retractors i es
  · obtain ⟨bid, entry, marked⟩ := before b old
    exact h.keeps_mark entry marked
  · by_cases message : e.msg = .retractBids i
    · obtain ⟨c, _, bid, _, _, spec, after, _⟩ := Accepted.retracted message
      rw [retractors_retracted message (Accepted.sender_ok spec.sender), Finset.mem_insert] at member
      obtain rfl := member.resolve_right old
      exact ⟨bid.refunded, by rw [after, Slice.withBid_bid, if_pos rfl], rfl⟩
    · rw [retractors_other message] at member
      exact (old member).elim

theorem Reached.marked (reached : Reached api es s) (i : Nat) : Marked i es (s.slice i) := by
  apply reached.induction (P := fun es s => Marked i es (s.slice i))
  · intro s _ b member
    simp at member
  · intro es e _ _ ih
    exact (effect e i).marked ih

/-- A refund to somebody who took a deposit back before earns nothing. -/
theorem Reached.unrewarded (reached : Reached api es e.before) (message : e.msg = .retractBids i) {b : CanonicalAddr}
    (sender : e.sender = some b) (old : b ∈ retractors i es) : e.mints = [] := by
  obtain ⟨c, item, bid, _, _, spec, _, _, sends⟩ := Accepted.retracted message
  obtain rfl := Option.some.inj ((Accepted.sender_ok spec.sender).symm.trans sender)
  obtain ⟨bid', entry, marked⟩ := reached.marked i c old
  obtain rfl := Option.some.inj (spec.entry.symm.trans entry)
  apply (retracted_mints spec sends).1
  rintro ⟨unmarked, _⟩
  simp [marked] at unmarked

/-! ### Runs -/

theorem partialRewards_le (reached : Reached api es s) (i : Nat) (b : CanonicalAddr) :
    total (Accepted.partialRewards · i b) es ≤ if b ∈ retractors i es then 1 else 0 := by
  apply reached.induction (P := fun es _ =>
    total (Accepted.partialRewards · i b) es ≤ if b ∈ retractors i es then 1 else 0)
  · intro s _
    exact Nat.zero_le _
  · intro es e before _ ih
    rw [total_append, total_singleton]
    by_cases message : e.msg = .retractBids i
    · obtain ⟨c, item, bid, _, _, spec, _, _, sends⟩ := Accepted.retracted message
      have sender : e.sender = some c := Accepted.sender_ok spec.sender
      rw [retractors_retracted message sender, Accepted.partialRewards, sender]
      by_cases here : c = b
      · subst here
        rw [if_pos ⟨message, rfl⟩, if_pos (Finset.mem_insert_self _ _)]
        by_cases old : c ∈ retractors i es
        · rw [if_pos old] at ih
          rw [before.unrewarded message sender old]
          exact ih
        · have one : e.mints.length ≤ 1 := by
            obtain ⟨undue, due⟩ := retracted_mints spec sends
            by_cases earned : RewardDue item bid
            · obtain ⟨amount, _, single⟩ := due earned
              simp [single]
            · simp [undue earned]
          rw [if_neg old] at ih
          omega
      · rw [if_neg (by simp [here])]
        simpa [Ne.symm here] using ih
    · rw [retractors_other message, Accepted.partialRewards, if_neg (by simp [message])]
      exact ih

theorem settlements_eq (reached : Reached api es s) (i : Nat) :
    es.countP (·.msg = .withdrawNft i) = if (s.slice i).resolved then 1 else 0 := by
  apply reached.induction (P := fun es s =>
    es.countP (·.msg = .withdrawNft i) = if (s.slice i).resolved then 1 else 0)
  · intro s fresh
    simp [fresh.slice, Slice.resolved, Slice.empty]
  · intro es e before _ ih
    rw [List.countP_append, List.countP_singleton, ih]
    rcases (effect e i).resolved before.wellFormed with ⟨message, unresolved, settled⟩ | ⟨other, same⟩
    · simp [message, unresolved, settled]
    · simp [other, same]

theorem issued_about (message : e.msg.auction e.before.state.counterItems = some i) :
    e.issued i = (e.mints.map fun mint => mint.2.u128).sum := if_pos message

theorem issued_other (noRefund : e.msg ≠ .retractBids i) (noSettlement : e.msg ≠ .withdrawNft i) : e.issued i = 0 := by
  unfold Accepted.issued
  split
  · next about =>
    rw [mints_nil e]
    · rfl
    · intro j message
      rw [message] at about noRefund
      exact noRefund (by rw [Option.some.inj about])
    · intro j message
      rw [message] at about noSettlement
      exact noSettlement (by rw [Option.some.inj about])
  · rfl

/-- The largest issuance of an auction with highest bid `h` and `n` bidders who took a deposit back. -/
def issuanceBound (config : Config) (x : Slice) (h n : Nat) : Nat :=
  (if x.resolved then 2 * scale h config.sityFullRewards.atomics else 0) +
    n * scale h config.sityPartialRewards.atomics

theorem issuanceBound_mono {config : Config} {x y : Slice} {h h' n : Nat} (le : h ≤ h')
    (same : y.resolved = x.resolved) : issuanceBound config x h n ≤ issuanceBound config y h' n := by
  have full := scale_mono config.sityFullRewards.atomics le
  have part := Nat.mul_le_mul_left n (scale_mono config.sityPartialRewards.atomics le)
  unfold issuanceBound
  rw [same]
  split <;> omega

theorem issued_step (reached : Reached api es e.before)
    (before : total (Accepted.issued · i) es ≤
      issuanceBound e.before.config (e.before.slice i) ((e.before.slice i).highestBid.getD 0) (retractors i es).card) :
    total (Accepted.issued · i) (es ++ [e]) ≤ issuanceBound e.after.config (e.after.slice i)
      ((e.after.slice i).highestBid.getD 0) (retractors i (es ++ [e])).card := by
  have rises := (effect e i).price_le reached.wellFormed fun _ => reached.sound
  rw [total_append, total_singleton, (frame e).config]
  rcases (effect e i).resolved reached.wellFormed with ⟨message, unresolved, settled⟩ | ⟨unsettled, same⟩
  · obtain ⟨item, collection, owner, minter, shares, payouts, spec, after, _, sends⟩ := Accepted.withdrawn message
    have settledItem : (e.after.slice i).item = some item.settled := congrArg Slice.item after
    have price : (e.after.slice i).highestBid.getD 0 = item.price := (Slice.highestBid_getD _ settledItem).trans rfl
    have full : e.issued i ≤ 2 * scale item.price e.before.config.sityFullRewards.atomics := by
      rw [issued_about (by rw [message]; rfl)]
      rcases withdrawn_mints spec sends with none | ⟨_, _, amount, amountIs, both⟩
      · simp [none]
      · simp [both, amountIs, two_mul]
    rw [Slice.highestBid_getD _ spec.stored] at before
    rw [retractors_other (by simp [message]), price]
    simp only [issuanceBound, unresolved, settled, Bool.false_eq_true, if_true, if_false] at before ⊢
    omega
  · by_cases message : e.msg = .retractBids i
    · obtain ⟨b, item, bid, _, _, spec, after, _, sends⟩ := Accepted.retracted message
      have sender : e.sender = some b := Accepted.sender_ok spec.sender
      have kept : (e.after.slice i).highestBid = (e.before.slice i).highestBid := by
        rw [after, Slice.withBid_highestBid]
      rw [issued_about (by rw [message]; rfl), retractors_retracted message sender, kept]
      by_cases old : b ∈ retractors i es
      · rw [reached.unrewarded message sender old, Finset.insert_eq_of_mem old]
        exact before.trans (issuanceBound_mono le_rfl same)
      · -- the reward is a share of a deposit, and no deposit exceeds the highest bid
        have part : (e.mints.map fun mint => mint.2.u128).sum ≤
            scale ((e.before.slice i).highestBid.getD 0) e.before.config.sityPartialRewards.atomics := by
          obtain ⟨undue, due⟩ := retracted_mints spec sends
          by_cases earned : RewardDue item bid
          · obtain ⟨amount, amountIs, single⟩ := due earned
            have deposit : bid.totalBid.u128 ≤ item.price := by
              have most := (reached.backed spec.stored).1 b
              simpa [Slice.totalBid, spec.entry] using most
            rw [Slice.highestBid_getD _ spec.stored]
            simpa [single, amountIs] using scale_mono _ deposit
          · simp [undue earned]
        rw [Finset.card_insert_of_notMem old]
        unfold issuanceBound at before ⊢
        rw [same, Nat.add_one_mul (retractors i es).card, ← Nat.add_assoc]
        exact Nat.add_le_add before part
    · rw [issued_other message unsettled, retractors_other message, Nat.add_zero]
      exact before.trans (issuanceBound_mono rises same)

theorem issued_le (reached : Reached api es s) (i : Nat) :
    total (Accepted.issued · i) es ≤
      issuanceBound s.config (s.slice i) ((s.slice i).highestBid.getD 0) (retractors i es).card := by
  apply reached.induction (P := fun es s => total (Accepted.issued · i) es ≤
    issuanceBound s.config (s.slice i) ((s.slice i).highestBid.getD 0) (retractors i es).card)
  · intro s _
    exact Nat.zero_le _
  · intro es e before _ ih
    exact issued_step before ih

/-- `highest_bid` of auction `i`, zero when there is none. -/
def Storage.highestBid (s : Storage) (i : Nat) : Nat := ((s.items.mayLoad i).map ItemInfo.price).getD 0

theorem highestBid_eq (s : Storage) (i : Nat) : (s.slice i).highestBid.getD 0 = s.highestBid i := by
  unfold Storage.highestBid
  cases found : s.items.mayLoad i with
  | none =>
    have absent : (s.slice i).item = none := found
    simp [Slice.highestBid, absent]
  | some item => exact Slice.highestBid_getD _ found

theorem issuance_bounded (reached : Reached api es s) (i : Nat) :
    (∀ b, total (Accepted.partialRewards · i b) es ≤ 1) ∧
      es.countP (·.msg = .withdrawNft i) ≤ 1 ∧
      (∀ e ∈ es, e.msg.auction e.before.state.counterItems = some i → e.mints ≠ [] →
        e.msg = .retractBids i ∧ (∃ amount, e.mints = [(e.info.sender, amount)]) ∨
          e.msg = .withdrawNft i ∧ ∃ x y amount, e.mints = [(x, amount), (y, amount)]) ∧
      total (Accepted.issued · i) es ≤ 2 * scale (s.highestBid i) s.config.sityFullRewards.atomics +
        (retractors i es).card * scale (s.highestBid i) s.config.sityPartialRewards.atomics := by
  refine ⟨?_, ?_, ?_, ?_⟩
  · intro b
    have once := partialRewards_le reached i b
    split at once <;> omega
  · rw [settlements_eq reached i]
    split <;> omega
  · intro e _ about minted
    by_cases refund : ∃ j, e.msg = .retractBids j
    · obtain ⟨j, message⟩ := refund
      obtain ⟨b, item, bid, _, _, spec, _, _, sends⟩ := Accepted.retracted message
      rw [message] at about
      obtain rfl : j = i := Option.some.inj about
      obtain ⟨undue, due⟩ := retracted_mints spec sends
      by_cases earned : RewardDue item bid
      · obtain ⟨amount, _, single⟩ := due earned
        exact Or.inl ⟨message, amount, single⟩
      · exact (minted (undue earned)).elim
    · by_cases settlement : ∃ j, e.msg = .withdrawNft j
      · obtain ⟨j, message⟩ := settlement
        obtain ⟨_, _, _, _, _, _, spec, _, _, sends⟩ := Accepted.withdrawn message
        rw [message] at about
        obtain rfl : j = i := Option.some.inj about
        rcases withdrawn_mints spec sends with none | ⟨x, y, amount, _, both⟩
        · exact (minted none).elim
        · exact Or.inr ⟨message, x, y, amount, both⟩
      · exact (minted (mints_nil e (fun j h => refund ⟨j, h⟩) fun j h => settlement ⟨j, h⟩)).elim
  · have bound := issued_le reached i
    rw [highestBid_eq] at bound
    unfold issuanceBound at bound
    split at bound <;> omega

theorem issuance_bounded_soldToBob :
    total (Accepted.partialRewards · 0 Demo.alice) Demo.soldToBob.log ≤ 1 ∧
      total (Accepted.issued · 0) Demo.soldToBob.log ≤
        2 * scale (Demo.soldToBob.final.highestBid 0) Demo.soldToBob.final.config.sityFullRewards.atomics +
          (retractors 0 Demo.soldToBob.log).card *
            scale (Demo.soldToBob.final.highestBid 0) Demo.soldToBob.final.config.sityPartialRewards.atomics ∧
      total (Accepted.issued · 0) Demo.soldToBob.log = 41 := by
  obtain ⟨once, _, _, bounded⟩ := issuance_bounded Demo.soldToBob.reached 0
  exact ⟨once Demo.alice, bounded, by decide⟩

end

end NftMarketplace
