import NftMarketplace.Runs.Items
import NftMarketplace.Runs.Replay

/-!
Whether the messages of a response can be executed. The bank refuses to send nothing, and the SITY
token refuses to mint or burn nothing. Amounts are rounded down on the way, so small ones vanish.
-/

namespace NftMarketplace
open Cosmwasm

/-! ### Transfers -/

def Pays : CosmosMsg → Prop
  | .bankSend _ coins _ => ∀ coin ∈ coins, 0 < coin.amount.u128
  | .wasm _ => True

instance (msg : CosmosMsg) : Decidable (Pays msg) := by
  cases msg <;> unfold Pays <;> infer_instance

/-- The amount `a` is positive, and it exceeds the tax cap or reaches one coin and the tax on it. -/
def Survives (rate cap a : Nat) : Prop := 0 < a ∧ (cap < a ∨ decimalFractional + rate ≤ a * decimalFractional)

theorem netOf_pos (rate cap a : Nat) : 0 < netOf rate cap a ↔ Survives rate cap a := by
  have positive : 0 < decimalFractional := by decide
  have share : 0 < a * decimalFractional / (decimalFractional + rate) ↔
      decimalFractional + rate ≤ a * decimalFractional := by
    rw [Nat.div_pos_iff]
    exact and_iff_right (Nat.add_pos_left positive rate)
  unfold netOf Survives
  rw [← share]
  omega

/-- Under a tax of at most the amount itself, a single coin is lost and two are enough. -/
theorem survives_taxed {rate cap a : Nat} (taxed : 0 < rate) (small : rate ≤ decimalFractional) :
    Survives rate cap a ↔ 0 < a ∧ (cap < a ∨ 2 ≤ a) := by
  have two : decimalFractional + rate ≤ a * decimalFractional ↔ 2 ≤ a := by
    unfold decimalFractional at *
    omega
  rw [Survives, two]

theorem survives_untaxed {cap a : Nat} : Survives 0 cap a ↔ 0 < a := by
  have one : decimalFractional + 0 ≤ a * decimalFractional ↔ 1 ≤ a := by
    unfold decimalFractional
    omega
  rw [Survives, one]
  omega

def Reaches (querier : Querier) (denom : String) (a : Nat) : Prop :=
  ∃ rate cap, querier.taxRate = .ok rate ∧ querier.taxCap denom = .ok cap ∧ Survives rate.atomics cap.u128 a

theorem TaxedSend.pays_iff {querier : Querier} {config : Config} {dest : String} {amount : Uint128} {msg : CosmosMsg}
    (send : TaxedSend querier config dest amount msg) : Pays msg ↔ Reaches querier config.denom amount.u128 := by
  obtain ⟨net, rate, cap, rfl, rateRead, capRead, after⟩ := send
  simp only [Pays, List.mem_singleton, forall_eq, after, netOf_pos]
  constructor
  · intro survives
    exact ⟨rate, cap, rateRead, capRead, survives⟩
  · rintro ⟨rate', cap', rateRead', capRead', survives⟩
    obtain rfl := Except.ok.inj (rateRead.symm.trans rateRead')
    obtain rfl := Except.ok.inj (capRead.symm.trans capRead')
    exact survives

theorem sendShare_pays {deps : Deps} {config : Config} {dest : Option CanonicalAddr} {amount : Uint128}
    {msgs : List CosmosMsg} (h : sendShare deps config dest amount = .ok msgs) (known : dest = none → amount.u128 = 0) :
    (∀ m ∈ msgs, Pays m) ↔ (amount.u128 ≠ 0 → Reaches deps.querier config.denom amount.u128) := by
  rcases sendShare_ok h with ⟨none, rfl⟩ | ⟨_, _, msg, _, positive, _, send, rfl⟩
  · have zero : amount.u128 = 0 := none.elim known id
    simp [zero]
  · simp [send.pays_iff, positive.ne']

def shareAmounts (config : Config) (item : ItemInfo) (royalty : Option (CanonicalAddr × RoyaltyInfo)) : List Nat :=
  let lota := platformShare config item
  let royal := royaltyAmount item royalty
  let charity := charityAmount item (item.price - lota - royal)
  [item.price - lota - royal - charity, royal, lota, charity]

theorem SalePayouts.pays_iff {deps : Deps} {s : Storage} {item : ItemInfo} {recipient : CanonicalAddr}
    {royalty : Option (CanonicalAddr × RoyaltyInfo)} {shares : Shares}
    {rewards payout royaltySend lotaSend charitySend : List CosmosMsg}
    (h : SalePayouts deps s item recipient royalty shares rewards payout royaltySend lotaSend charitySend)
    (split : SplitOf s.config item royalty shares) :
    (∀ m ∈ rewards ++ payout ++ royaltySend ++ lotaSend ++ charitySend, Pays m) ↔
      ∀ a ∈ shareAmounts s.config item royalty, a ≠ 0 → Reaches deps.querier s.config.denom a := by
  have mints : ∀ m ∈ rewards, Pays m := by
    rcases fullRewards_ok h.rewards with ⟨_, rfl⟩ | ⟨_, _, _, _, _, _, _, _, _, rfl⟩ <;> simp [Pays]
  have net := sendShare_pays h.payout (by simp)
  have royal := sendShare_pays h.royaltySend split.known.1
  have lota := sendShare_pays h.lotaSend (by simp)
  have charity := sendShare_pays h.charitySend split.known.2
  rw [split.net] at net
  rw [split.royaltyShare] at royal
  rw [split.lota] at lota
  rw [split.charity] at charity
  simp only [List.mem_append, or_imp, forall_and, shareAmounts, List.forall_mem_cons, List.not_mem_nil,
    false_imp_iff, implies_true, and_true, net, royal, lota, charity]
  exact ⟨fun h => ⟨h.1.1.1.2, h.1.1.2, h.1.2, h.2⟩, fun h => ⟨⟨⟨⟨mints, h.1⟩, h.2.1⟩, h.2.2.1⟩, h.2.2.2⟩⟩

section
variable {api : Api} {e : Accepted api}

/-- The amount before tax of every transfer that the message causes reaches its recipient: the deposit
taken back, the shares of a sale that are not zero, the cancellation fee or its half. -/
def Accepted.TransfersReach (e : Accepted api) : Prop :=
  let reaches := Reaches e.querier e.before.config.denom
  match e.msg with
  | .retractBids i => ∀ b ∈ e.sender, reaches (e.before.totalBid i b).u128
  | .withdrawNft i =>
    ∀ item ∈ e.item i, saleRecipient item ≠ item.creator →
      ∀ collection minter, api.addrHumanize item.nftContract = .ok collection →
        queryMinter e.deps collection = .ok minter →
        ∀ a ∈ shareAmounts e.before.config item (royaltyOf e.before minter), a ≠ 0 → reaches a
  | .cancelAuction i =>
    ∀ item ∈ e.item i, item.highestBid.isSome →
      let fee := scale item.price e.before.cancellation.cancellationFee.atomics
      reaches (if item.highestBidder.isSome then fee / 2 else fee)
  | _ => True

theorem cancellationFees_pays {deps : Deps} {s : Storage} {info : MessageInfo} {item : ItemInfo} {fee : Uint128}
    {msgs : List CosmosMsg} (h : cancellationFees deps s info item = .ok (fee, msgs)) :
    (∀ m ∈ msgs, Pays m) ↔ (item.highestBid.isSome →
      let fee := scale item.price s.cancellation.cancellationFee.atomics
      Reaches deps.querier s.config.denom (if item.highestBidder.isSome then fee / 2 else fee)) := by
  rcases cancellationFees_ok h with ⟨unbid, _, rfl⟩ | ⟨bid, _, feeIs, h⟩
  · simp [unbid]
  rcases h with ⟨b, half, _, _, first, second, lead, halved, _, _, toBidder, toLota, rfl⟩ |
    ⟨_, only, nobody, _, toLota, rfl⟩
  · simp [bid, lead, toBidder.pays_iff, toLota.pays_iff, halved, feeIs]
  · simp [bid, nobody, toLota.pays_iff, feeIs]

/-- Exactly when every bank transfer of an accepted message can be executed. -/
theorem transfers_execute_iff (e : Accepted api) : (∀ m ∈ e.response.messages, Pays m) ↔ e.TransfersReach := by
  unfold Accepted.TransfersReach
  cases message : e.msg with
  | placeBid _ | instantBuy _ | updateRoyalty _ _ | receiveNft _ =>
    simp [Accepted.silent (e := e) (by rw [message]; trivial)]
  | retractBids i =>
    obtain ⟨b, item, bid, send, rewards, spec, _, _, sends⟩ := Accepted.retracted message
    have mints : ∀ m ∈ rewards, Pays m := by
      by_cases due : RewardDue item bid
      · obtain ⟨_, _, _, _, rfl⟩ := spec.rewarded due
        simp [Pays]
      · simp [spec.unrewarded due]
    have deposit : (e.before.totalBid i b).u128 = bid.totalBid.u128 := by
      rw [← slice_totalBid, Slice.totalBid, spec.entry]
      rfl
    have paid : Pays send ↔ Reaches e.querier e.before.config.denom bid.totalBid.u128 := spec.refund.pays_iff
    have sender : e.sender = some b := Accepted.sender_ok spec.sender
    rw [sends, List.forall_mem_cons, and_iff_left mints, paid]
    simp [sender, deposit]
  | withdrawNft i =>
    obtain ⟨item, collection, owner, minter, shares, payouts, spec, _, _, sends⟩ := Accepted.withdrawn message
    have found : e.item i = some item := spec.stored
    have only : (∀ m ∈ payouts, Pays m) ↔ (saleRecipient item ≠ item.creator →
        ∀ a ∈ shareAmounts e.before.config item (royaltyOf e.before minter), a ≠ 0 →
          Reaches e.querier e.before.config.denom a) := by
      rcases salePayouts_ok spec.paid with ⟨back, rfl⟩ | ⟨sold, _, _, _, _, _, parts, rfl⟩
      · simp [back]
      · rw [parts.pays_iff spec.split]
        exact ⟨fun h _ => h, fun h => h sold⟩
    rw [sends, List.forall_mem_cons, and_iff_right (show Pays (handOver collection owner item) from trivial), only]
    simp only [found, Option.mem_def, Option.some.injEq, forall_eq']
    constructor
    · intro h sold collection' minter' contract asked
      obtain rfl := Except.ok.inj (spec.contract.symm.trans contract)
      obtain rfl := Except.ok.inj (spec.asked.symm.trans asked)
      exact h sold
    · intro h sold
      exact h sold collection minter spec.contract spec.asked
  | cancelAuction i =>
    obtain ⟨item, fee, msgs, spec, _, _, sends⟩ := Accepted.cancelled message
    have found : e.item i = some item := spec.stored
    rw [sends, cancellationFees_pays spec.fees]
    simp only [found, Option.mem_def, Option.some.injEq, forall_eq']
    rfl
  | receive wrapper =>
    obtain ⟨_, _, _, _, _, _, _, _, burns⟩ := Accepted.registered message
    simp [burns, Pays]

end

def Demo.smallBids : Demo.Scenario where
  msg := instantiateMsg
  rate := Decimal.zero
  deliveries := [listing none none none false, deliver 1000 "alice" (coins 1) (.placeBid 0),
    deliver 1100 "bob" (coins 9) (.placeBid 0), deliver 1200 "alice" [] (.retractBids 0),
    deliver 2001 "seller" [] (.withdrawNft 0)]
  accepted := by decide
  order := by decide

theorem refund_of_one_sends_nothing :
    ∃ pre e post s, Reached Demo.api (pre ++ e :: post) s ∧
      (∀ e' ∈ pre ++ e :: post, ∀ coin ∈ e'.info.funds, 0 < coin.amount.u128) ∧ e.msg = .retractBids 0 ∧
      ∃ m ∈ e.response.messages, ¬ Pays m :=
  ⟨_, _, _, _, Demo.smallBids.reached_at 3 (by decide), by decide, by decide, by decide⟩

section
variable {api : Api} {e : Accepted api}

/-! ### Mints and burns -/

def Issues : CosmosMsg → Prop
  | .wasm (.executeCw20 _ (.mint _ amount)) | .wasm (.executeCw20 _ (.burn amount)) => 0 < amount.u128
  | _ => True

instance (msg : CosmosMsg) : Decidable (Issues msg) := by
  unfold Issues
  split <;> infer_instance

theorem issues_transfer {msg : CosmosMsg} (transfer : msg.Transfer) : Issues msg := by
  cases msg with
  | bankSend _ _ _ => trivial
  | wasm _ => exact transfer.elim

/-- The reward that the message causes is at least one unit of SITY. -/
def Accepted.RewardsCount (e : Accepted api) : Prop :=
  match e.msg with
  | .retractBids i =>
    ∀ b ∈ e.sender, ∀ item ∈ e.item i, ∀ bid ∈ e.before.bids.mayLoad (i, b), RewardDue item bid →
      decimalFractional ≤ bid.totalBid.u128 * e.before.config.sityPartialRewards.atomics
  | .withdrawNft i =>
    ∀ item ∈ e.item i, saleRecipient item ≠ item.creator → item.price ≠ 0 →
      decimalFractional ≤ item.price * e.before.config.sityFullRewards.atomics
  | _ => True

instance (e : Accepted api) : Decidable e.RewardsCount := by
  unfold Accepted.RewardsCount
  split <;> infer_instance

theorem SalePayouts.issues_iff {deps : Deps} {s : Storage} {item : ItemInfo} {recipient : CanonicalAddr}
    {royalty : Option (CanonicalAddr × RoyaltyInfo)} {shares : Shares}
    {rewards payout royaltySend lotaSend charitySend : List CosmosMsg}
    (h : SalePayouts deps s item recipient royalty shares rewards payout royaltySend lotaSend charitySend)
    (split : SplitOf s.config item royalty shares) :
    (∀ m ∈ rewards ++ payout ++ royaltySend ++ lotaSend ++ charitySend, Issues m) ↔
      (item.price ≠ 0 → decimalFractional ≤ item.price * s.config.sityFullRewards.atomics) := by
  have minted : (∀ m ∈ rewards, Issues m) ↔
      (item.price ≠ 0 → decimalFractional ≤ item.price * s.config.sityFullRewards.atomics) := by
    rw [← split.highestBid]
    rcases fullRewards_ok h.rewards with ⟨zero, rfl⟩ | ⟨_, _, _, amount, positive, amountIs, _, _, _, rfl⟩
    · simp [zero]
    · simp [Issues, amountIs, scale_pos, positive.ne']
  rw [← minted]
  constructor
  · intro all m member
    exact all m (by simp [member])
  · intro all m member
    have sends := h.transfers m
    simp only [List.append_assoc, List.mem_append] at member sends
    rcases member with reward | rest
    · exact all m reward
    · exact issues_transfer (sends rest)

theorem rewards_execute_iff (e : Accepted api) (opening : 0 < e.before.config.sityMinOpening.u128) :
    (∀ m ∈ e.response.messages, Issues m) ↔ e.RewardsCount := by
  unfold Accepted.RewardsCount
  cases message : e.msg with
  | placeBid _ | instantBuy _ | updateRoyalty _ _ | receiveNft _ =>
    simp [Accepted.silent (e := e) (by rw [message]; trivial)]
  | retractBids i =>
    obtain ⟨b, item, bid, send, rewards, spec, _, _, sends⟩ := Accepted.retracted message
    have found : e.item i = some item := spec.stored
    have entry : e.before.bids.mayLoad (i, b) = some bid := spec.entry
    have sender : e.sender = some b := Accepted.sender_ok spec.sender
    rw [sends, List.forall_mem_cons, and_iff_right (issues_transfer spec.refund.transfer)]
    simp only [sender, found, entry, Option.mem_def, Option.some.injEq, forall_eq']
    by_cases due : RewardDue item bid
    · obtain ⟨_, amount, amountIs, _, rfl⟩ := spec.rewarded due
      simp [Issues, amountIs, scale_pos, due]
    · simp [spec.unrewarded due, due]
  | withdrawNft i =>
    obtain ⟨item, collection, owner, minter, shares, payouts, spec, _, _, sends⟩ := Accepted.withdrawn message
    have found : e.item i = some item := spec.stored
    rw [sends, List.forall_mem_cons, and_iff_right (show Issues (handOver collection owner item) from trivial)]
    simp only [found, Option.mem_def, Option.some.injEq, forall_eq']
    rcases salePayouts_ok spec.paid with ⟨back, rfl⟩ | ⟨sold, _, _, _, _, _, parts, rfl⟩
    · simp [back]
    · rw [parts.issues_iff spec.split]
      exact ⟨fun h _ => h, fun h => h sold⟩
  | cancelAuction i =>
    obtain ⟨_, _, _, spec, _, _, sends⟩ := Accepted.cancelled message
    rw [sends]
    exact iff_true_intro fun m member => issues_transfer (cancellationFees_transfers spec.fees m member)
  | receive wrapper =>
    obtain ⟨_, _, item, _, _, spec, _, _, burns⟩ := Accepted.registered message
    have positive : 0 < wrapper.amount.u128 := by
      rw [spec.price, sityRequired]
      exact Nat.add_pos_left opening _
    simp [burns, Issues, positive]

end

theorem rewards_execute_soldToBob :
    (Demo.soldToBob.log.get ⟨3, by decide⟩).msg = .withdrawNft 0 ∧
      ∀ m ∈ (Demo.soldToBob.log.get ⟨3, by decide⟩).response.messages, Issues m :=
  ⟨by decide, (rewards_execute_iff _ (by decide)).mpr (by decide)⟩

theorem sale_for_nine_mints_nothing :
    ∃ pre e post s, Reached Demo.api (pre ++ e :: post) s ∧
      (∀ e' ∈ pre ++ e :: post, ∀ coin ∈ e'.info.funds, 0 < coin.amount.u128) ∧
      (0 < s.config.sityMinOpening.u128 ∧ 0 < s.config.sityFullRewards.atomics ∧
        0 < s.config.sityPartialRewards.atomics ∧ 0 < s.config.sityFeeRegistration.atomics) ∧
      e.msg = .withdrawNft 0 ∧ ∃ m ∈ e.response.messages, ¬ Issues m :=
  ⟨_, _, _, _, Demo.smallBids.reached_at 4 (by decide), by decide, by decide, by decide, by decide⟩

end NftMarketplace
