import NftMarketplace.Proofs.Settlements
import NftMarketplace.Runs.Closing
import NftMarketplace.Runs.Issuance

/-!
A settlement delivers against payment. The stored rates leave room for each other in the highest bid,
so its four parts always come out, and a sale sends each of them to its recipient.
-/

namespace NftMarketplace
open Cosmwasm

section
variable {api : Api} {es : List (Accepted api)} {e : Accepted api} {s : Storage} {i : Nat} {item : ItemInfo}

/-! ### What is stored -/

/-- The addresses of an item are canonical forms, and its charity takes a part of the payout. -/
structure Payee (api : Api) (item : ItemInfo) : Prop where
  creator : ∃ a, api.addrCanonicalize a = .ok item.creator
  leader : ∀ b, item.highestBidder = some b → ∃ a, api.addrCanonicalize a = .ok b
  charity : ∀ c, item.charity = some c → 0 < c.feePercentage.atomics ∧ c.feePercentage.atomics ≤ decimalFractional ∧
    ∃ a, api.addrCanonicalize a = .ok c.address

theorem payee_invariant : ItemInvariant api (Payee api) where
  listed spec := ⟨⟨_, spec.creator⟩, fun b lead => by simp [spec.unled] at lead, spec.charity⟩
  placed spec payee := ⟨payee.creator, fun b lead => Option.some.inj lead ▸ ⟨_, spec.sender⟩, payee.charity⟩
  bought spec payee := ⟨payee.creator, fun b lead => Option.some.inj lead ▸ ⟨_, spec.sender⟩, payee.charity⟩
  settled payee := ⟨payee.creator, payee.leader, payee.charity⟩
  cancelled payee := ⟨payee.creator, fun b lead => by simp [ItemInfo.cancelled] at lead, payee.charity⟩

/-- No stored royalty exceeds the maximum, and its recipient, if one is set, is a canonical form. -/
def RoyaltiesCapped (api : Api) (royalty : FiniteMap CanonicalAddr RoyaltyInfo) : Prop :=
  ∀ minter terms, royalty.mayLoad minter = some terms → terms.fee.atomics ≤ royaltyMaxFee.atomics ∧
    ∀ raw, terms.recipient = some raw → ∃ a, api.addrCanonicalize a = .ok raw

theorem royalty_kept (other : ∀ fee recipient, e.msg ≠ .updateRoyalty fee recipient) :
    e.after.royalty = e.before.royalty := by
  cases message : e.msg with
  | placeBid i =>
    obtain ⟨_, _, _, _, _, _, same, _⟩ := Accepted.placed message
    exact same.royalty
  | retractBids i =>
    obtain ⟨_, _, _, _, _, _, _, same, _⟩ := Accepted.retracted message
    exact same.royalty
  | withdrawNft i =>
    obtain ⟨_, _, _, _, _, _, _, _, same, _⟩ := Accepted.withdrawn message
    exact same.royalty
  | instantBuy i =>
    obtain ⟨_, _, _, _, _, _, same, _⟩ := Accepted.bought message
    exact same.royalty
  | cancelAuction i =>
    obtain ⟨_, _, _, _, _, same, _⟩ := Accepted.cancelled message
    exact same.royalty
  | updateRoyalty fee recipient => exact (other fee recipient message).elim
  | receiveNft wrapper =>
    obtain ⟨_, _, listing⟩ := Accepted.listedBy message
    exact listing.written.royalty
  | receive wrapper =>
    obtain ⟨_, _, _, _, _, _, _, same, _⟩ := Accepted.registered message
    exact same.royalty

theorem royaltiesCapped_step (e : Accepted api) (before : RoyaltiesCapped api e.before.royalty) :
    RoyaltiesCapped api e.after.royalty := by
  by_cases updates : ∃ fee recipient, e.msg = .updateRoyalty fee recipient
  · obtain ⟨fee, recipient, message⟩ := updates
    obtain ⟨minter, terms, spec, after, _⟩ := Accepted.royalty message
    rw [after]
    intro m stored found
    dsimp only at found
    rw [FiniteMap.mayLoad_save] at found
    split at found
    · obtain rfl := Option.some.inj found
      refine ⟨?_, ?_⟩
      · rw [spec.rate]
        exact Nat.le_of_not_lt spec.capped
      · intro raw given
        rcases spec.recipient raw given with known | ⟨old, present, same⟩
        · exact known
        · exact (before minter old present).2 raw same
    · exact before m stored found
  · rw [royalty_kept fun fee recipient message => updates ⟨fee, recipient, message⟩]
    exact before

theorem Reached.royaltiesCapped (reached : Reached api es s) : RoyaltiesCapped api s.royalty := by
  apply reached.induction (P := fun _ s => RoyaltiesCapped api s.royalty)
  · intro s fresh minter terms found
    rw [fresh.royalty] at found
    cases found
  · intro es e _ _ before
    exact royaltiesCapped_step e before

theorem royaltyOf_capped (capped : RoyaltiesCapped api s.royalty) {minter : Option CanonicalAddr}
    (known : ∀ m, minter = some m → ∃ a, api.addrCanonicalize a = .ok m) {r : CanonicalAddr × RoyaltyInfo}
    (due : royaltyOf s minter = some r) :
    r.2.fee.atomics ≤ royaltyMaxFee.atomics ∧ ∃ a, api.addrCanonicalize a = .ok r.1 := by
  obtain ⟨m, rfl, rfl⟩ := Option.map_eq_some_iff.mp due
  cases found : s.royalty.mayLoad m with
  | none =>
    rw [Option.getD_none]
    exact ⟨Nat.zero_le _, known m rfl⟩
  | some terms =>
    rw [Option.getD_some]
    refine ⟨(capped m terms found).1, ?_⟩
    show ∃ a, api.addrCanonicalize a = .ok (terms.recipient.getD m)
    cases given : terms.recipient with
    | none => exact known m rfl
    | some raw => exact (capped m terms found).2 raw given

/-! ### Settlements -/

theorem WellFormed.addressed (wellFormed : WellFormed api s) (lawful : api.Lawful) (payee : Payee api item)
    (capped : RoyaltiesCapped api s.royalty) {minter : Option CanonicalAddr}
    (known : ∀ m, minter = some m → ∃ a, api.addrCanonicalize a = .ok m) : Addressed api s item (royaltyOf s minter) := by
  have human {raw : CanonicalAddr} (known : ∃ a, api.addrCanonicalize a = .ok raw) :
      ∃ a, api.addrHumanize raw = .ok a := by
    obtain ⟨_, read⟩ := known
    exact lawful.humanize read
  have recipient : ∃ a, api.addrCanonicalize a = .ok (saleRecipient item) := by
    unfold saleRecipient
    cases lead : item.highestBidder with
    | none => exact payee.creator
    | some b =>
      have leader := payee.leader b lead
      cases item.reservePrice with
      | none => exact leader
      | some reserve =>
        cases item.highestBid with
        | none => exact payee.creator
        | some highestBid =>
          dsimp only
          split
          · exact payee.creator
          · exact leader
  exact {
    cw20 := human wellFormed.cw20
    lota := human wellFormed.lota
    creator := human payee.creator
    recipient := human recipient
    royalty := fun r due => human (royaltyOf_capped capped known due).2
    charity := fun c given => human (payee.charity c given).2.2 }

theorem Sound.sold (sound : Sound item) (sold : saleRecipient item ≠ item.creator) : item.highestBid.isSome := by
  have bound : item.Bound (saleRecipient item) := sound.bound_iff.mpr ⟨rfl, sold⟩
  exact sound.led (by rw [bound.1]; rfl)

def Accepted.paid (e : Accepted api) : List (String × Nat) := e.response.messages.filterMap CosmosMsg.paid

/-- A settlement that pays every part of the highest bid to its recipient, or nothing when the NFT goes
back. -/
structure Delivered (e : Accepted api) (i : Nat) (item : ItemInfo) (royalty : Option (CanonicalAddr × RoyaltyInfo)) :
    Prop where
  hands : ∃ payouts, e.HandsTo i (saleRecipient item) payouts
  back : saleRecipient item = item.creator → e.paid = [] ∧ e.mints = []
  shares : saleRecipient item ≠ item.creator →
    List.Forall₂ (Settles api) ((dues e.before.config item royalty).filter (0 < ·.2)) e.paid
  whole : saleRecipient item ≠ item.creator → (e.paid.map Prod.snd).sum = item.price

theorem Reached.delivered (reached : Reached api es e.before) (found : (e.before.slice i).item = some item)
    (message : e.msg = .withdrawNft i) {collection : Addr} (contract : api.addrHumanize item.nftContract = .ok collection)
    {minter : Option CanonicalAddr} (asked : queryMinter e.deps collection = .ok minter) :
    Delivered e i item (royaltyOf e.before minter) := by
  obtain ⟨stored, collection', owner, minter', shares, payouts, spec, _, _, sends⟩ := Accepted.withdrawn message
  obtain rfl := Option.some.inj (found.symm.trans spec.stored)
  obtain rfl := Except.ok.inj (contract.symm.trans spec.contract)
  obtain rfl := Except.ok.inj (asked.symm.trans spec.asked)
  have transfers : e.paid = payouts.filterMap CosmosMsg.paid := by rw [Accepted.paid, sends]; rfl
  have mints : e.mints = payouts.filterMap CosmosMsg.minted := by rw [Accepted.mints, sends]; rfl
  have hands : e.HandsTo i (saleRecipient item) payouts :=
    ⟨item, collection, owner, found, spec.contract, spec.newOwner, sends⟩
  rcases salePayouts_ok spec.paid with ⟨back, rfl⟩ | ⟨sold, _, _, _, _, _, parts, rfl⟩
  · exact {
      hands := ⟨_, hands⟩
      back := fun _ => ⟨transfers, mints⟩
      shares := fun sold => (sold back).elim
      whole := fun sold => (sold back).elim }
  · exact {
      hands := ⟨_, hands⟩
      back := fun back => (sold back).elim
      shares := fun _ => by
        rw [transfers]
        exact parts.paid spec.split ((reached.sound found).sold sold)
      whole := fun _ => by rw [transfers, sum_paid, parts.gross spec.split] }

/-- Where the platform takes at most nine tenths, a settlement whose other checks pass goes through, and
it delivers against payment. -/
theorem delivery_versus_payment (lawful : api.Lawful) (reached : Reached api es s)
    (found : s.items.mayLoad i = some item) (unresolved : item.resolved = false) {env : Env}
    (ended : item.endTime ≤ env.blockTime.seconds) {querier : Querier} {collection : Addr} {minter : Option CanonicalAddr}
    (contract : api.addrHumanize item.nftContract = .ok collection)
    (asked : queryMinter ⟨api, querier⟩ collection = .ok minter)
    (rate : (platformRate s.config item).atomics ≤ 9 * 10 ^ 17) :
    ((∀ m terms, s.royalty.mayLoad m = some terms → terms.fee.atomics ≤ 10 ^ 17) ∧
        (∀ c, item.charity = some c → 0 < c.feePercentage.atomics ∧ c.feePercentage.atomics ≤ 10 ^ 18) ∧
        10 * royaltyAmount item (royaltyOf s minter) ≤ item.price) ∧
      ((∃ shares, splitBid s.config item (royaltyOf s minter) = .ok shares) ∧
        ∀ info, Answers querier s.config.denom →
          (saleRecipient item ≠ item.creator → scale item.price s.config.sityFullRewards.atomics < 2 ^ 128) →
          ∃ p, execute ⟨api, querier⟩ s env info (.withdrawNft i) = .ok p) ∧
      ∀ e : Accepted api, e.before = s → e.querier = querier → e.msg = .withdrawNft i →
        Delivered e i item (royaltyOf s minter) := by
  have payee : Payee api item := reached.keeps payee_invariant found
  have capped := reached.royaltiesCapped
  have known : ∀ m, minter = some m → ∃ a, api.addrCanonicalize a = .ok m := fun m named =>
    queryMinter_ok (asked.trans (congrArg Except.ok named))
  have charity : ∀ c, item.charity = some c → 0 < c.feePercentage.atomics ∧ c.feePercentage.atomics ≤ 10 ^ 18 :=
    fun c given => ⟨(payee.charity c given).1, (payee.charity c given).2.1⟩
  have splittable : Splittable s.config item (royaltyOf s minter) := {
    rates := fun r due => by
      have fee : r.2.fee.atomics ≤ 10 ^ 17 := (royaltyOf_capped capped known due).1
      unfold decimalFractional
      omega
    platform := by
      unfold decimalFractional
      omega
    charity := fun c given => (charity c given).2 }
  obtain ⟨shares, split⟩ := splitBid_succeeds splittable
  refine ⟨⟨fun m terms stored => (capped m terms stored).1, charity, ?_⟩, ⟨⟨shares, split⟩, ?_⟩, ?_⟩
  · cases due : royaltyOf s minter with
    | none => exact Nat.zero_le _
    | some r =>
      have fee : r.2.fee.atomics ≤ 10 ^ 17 := (royaltyOf_capped capped known due).1
      exact ten_scale_le (by unfold decimalFractional; omega)
  · intro info answers fits
    have addressed := reached.wellFormed.addressed lawful payee capped known
    exact executeWithdrawNft_succeeds info found unresolved ended contract asked split addressed
      (salePayouts_succeeds addressed answers (splitBid_ok split) (reached.sound found).sold fits)
  · intro e before answered message
    subst before answered
    exact reached.delivered found message contract asked

end

/-- Answers that name `alice` as the minter of every collection. -/
def Demo.minting : Querier := { querier with minter := fun _ => some { minter := "alice", cap := none } }

/-- `bob` wins an auction whose seller gives half of the payout to charity and owes `alice` a royalty. -/
def Demo.shared : Demo.Scenario where
  msg := instantiateMsg
  rate := Decimal.zero
  deliveries := [deliver 1000 "alice" [] (.updateRoyalty (percent 10) none),
    deliver 1000 "market" [] (.receiveNft
      { sender := "seller"
        tokenId := "token"
        msg := .ok (.createAuctionNft
          { startPrice := none
            startTime := none
            endTime := 2000
            charity := some { address := "market", feePercentage := percent 50 }
            instantBuy := none
            reservePrice := none
            privateSale := false }) }),
    deliver 1100 "bob" (coins 1000) (.placeBid 0)]
  accepted := by decide
  order := by decide

theorem delivery_versus_payment_shared :
    ∃ item, Demo.shared.final.items.mayLoad 0 = some item ∧ ∃ e : Accepted Demo.api,
      e.before = Demo.shared.final ∧ e.msg = .withdrawNft 0 ∧
      Delivered e 0 item (royaltyOf Demo.shared.final (some Demo.alice)) ∧
      e.paid = [("seller", 425), ("alice", 100), ("platform", 50), ("market", 425)] := by
  have found := Demo.shared.listed_found (i := 0) (by decide)
  let e := Demo.shared.next { Demo.deliver 2001 "seller" [] (.withdrawNft 0) with querier := Demo.minting } (by decide)
  have final : e.before = Demo.shared.final := Demo.shared.next_before _ _
  have contract : Demo.api.addrHumanize (Demo.shared.listed 0 (by decide)).nftContract = .ok "market" := by decide
  have asked : queryMinter ⟨Demo.api, Demo.minting⟩ "market" = .ok (some Demo.alice) := by decide
  have ended : (Demo.shared.listed 0 (by decide)).endTime ≤ (Demo.env 2001).blockTime.seconds := by decide
  obtain ⟨_, _, delivered⟩ := delivery_versus_payment Demo.lawful Demo.shared.reached found (by decide) ended contract
    asked (by decide)
  exact ⟨_, found, e, final, by decide, delivered e final rfl (by decide), by decide⟩

end NftMarketplace
