import NftMarketplace.Runs.Closing
import NftMarketplace.Runs.Issuance

/-!
Three places decide whether the reserve of an auction is met: the refusal to refund the highest
bidder, the recipient of a settlement, and the reward of a refund. The first two ask whether the
highest bid is at least the reserve, the third whether it is above.
-/

namespace NftMarketplace
open Cosmwasm

section
variable {api : Api} {es : List (Accepted api)} {s : Storage} {i : Nat} {item : ItemInfo} {h o : CanonicalAddr}

theorem refused_iff (lawful : api.Lawful) (reached : Reached api es s) (found : (s.slice i).item = some item)
    (lead : item.highestBidder = some h) (deposit : 0 < (s.totalBid i h).u128) {querier : Querier} {env : Env}
    {info : MessageInfo} (sender : api.addrCanonicalize info.sender = .ok h) (answers : Answers querier s.config.denom) :
    (¬ ∃ p, execute ⟨api, querier⟩ s env info (.retractBids i) = .ok p) ↔ item.reserve ≤ item.price := by
  constructor
  · intro refused
    by_contra unmet
    apply refused
    have free : ¬ item.Bound h := fun bound => unmet bound.2
    have fits : RewardFits s i h := by
      intro stored known bid _ due
      obtain rfl := Option.some.inj (found.symm.trans known)
      have above : item.reserve < item.price := due.2
      omega
    exact canRetract lawful reached.wellFormed found free deposit fits querier env info sender answers
  · intro met accepted
    obtain ⟨⟨t, r⟩, accepted⟩ := accepted
    change executeRetractBids _ s env info i = _ at accepted
    obtain ⟨b, stored, _, _, _, spec, _⟩ := executeRetractBids_ok accepted
    obtain rfl := Except.ok.inj (sender.symm.trans spec.sender)
    obtain rfl := Option.some.inj (found.symm.trans spec.stored)
    exact spec.free ⟨lead, met⟩

theorem handsTo_iff (lawful : api.Lawful) {w : Accepted api} (reached : Reached api es w.before)
    (found : (w.before.slice i).item = some item) (lead : item.highestBidder = some h)
    (message : w.msg = .withdrawNft i) : (∃ payouts, w.HandsTo i h payouts) ↔ item.reserve ≤ item.price := by
  have sound : Sound item := reached.sound found
  obtain ⟨payouts, hands, _⟩ := settlement_hands message found
  constructor
  · intro toLeader
    obtain ⟨_, stored, collection, owner, present, contract, named, sends⟩ := toLeader
    obtain ⟨stored', collection', owner', present', contract', named', sends'⟩ := hands
    obtain rfl := Option.some.inj (present.symm.trans present')
    -- both ways to name the new owner stand in the same message
    have same := (List.cons.inj (sends.symm.trans sends')).1
    have owners : owner = owner' := by
      unfold handOver at same
      simp only [CosmosMsg.wasm.injEq, WasmMsg.executeCw721.injEq, Cw721ExecuteMsg.transferNft.injEq] at same
      exact same.2.1
    subst owners
    have recipient : saleRecipient item = h :=
      Except.ok.inj ((lawful.canonicalize named').symm.trans (lawful.canonicalize named))
    have bound : item.Bound h := sound.bound_iff.mpr ⟨recipient, sound.outside h lead⟩
    exact bound.2
  · intro met
    have bound : item.Bound h := ⟨lead, met⟩
    obtain ⟨recipient, _⟩ := sound.bound_iff.mp bound
    rw [recipient] at hands
    exact ⟨payouts, hands⟩

theorem mints_iff {r : Accepted api} (found : (r.before.slice i).item = some item) (message : r.msg = .retractBids i)
    (sender : r.sender = some o) {bid : BidInfo} (entry : (r.before.slice i).bid o = some bid)
    (unrewarded : bid.resolved = false) : r.mints ≠ [] ↔ item.reserve < item.price := by
  obtain ⟨b, stored, bid', _, _, spec, _, _, sends⟩ := Accepted.retracted message
  obtain rfl := Option.some.inj ((Accepted.sender_ok spec.sender).symm.trans sender)
  obtain rfl := Option.some.inj (found.symm.trans spec.stored)
  obtain rfl := Option.some.inj (entry.symm.trans spec.entry)
  obtain ⟨undue, due⟩ := retracted_mints spec sends
  constructor
  · intro minted
    by_contra low
    apply minted
    apply undue
    intro earned
    exact low earned.2
  · intro above
    obtain ⟨amount, _, single⟩ := due ⟨unrewarded, above⟩
    simp [single]

/-- The three decisions agree exactly when the highest bid is not the reserve itself. -/
theorem reserve_decisions_agree_iff (lawful : api.Lawful) (reached : Reached api es s)
    (found : s.items.mayLoad i = some item) (lead : item.highestBidder = some h)
    (deposit : 0 < (s.totalBid i h).u128) {querier : Querier} {env : Env} {info : MessageInfo}
    (sender : api.addrCanonicalize info.sender = .ok h) (answers : Answers querier s.config.denom)
    {w r : Accepted api} (settles : w.before = s ∧ w.msg = .withdrawNft i)
    (retracts : r.before = s ∧ r.msg = .retractBids i ∧ r.sender = some o) {bid : BidInfo}
    (entry : s.bids.mayLoad (i, o) = some bid) (unrewarded : bid.resolved = false) :
    (((¬ ∃ p, execute ⟨api, querier⟩ s env info (.retractBids i) = .ok p) ↔ ∃ payouts, w.HandsTo i h payouts) ∧
      ((∃ payouts, w.HandsTo i h payouts) ↔ r.mints ≠ [])) ↔ item.price ≠ item.reserve := by
  obtain ⟨rfl, settles⟩ := settles
  obtain ⟨same, retracts, leaver⟩ := retracts
  have refused : (¬ ∃ p, execute ⟨api, querier⟩ w.before env info (.retractBids i) = .ok p) ↔
      item.reserve ≤ item.price := refused_iff lawful reached found lead deposit sender answers
  have hands := handsTo_iff lawful reached found lead settles
  have mints : r.mints ≠ [] ↔ item.reserve < item.price :=
    mints_iff (by rw [same]; exact found) retracts leaver (by rw [same]; exact entry) unrewarded
  rw [refused, hands, mints]
  constructor
  · intro agree equal
    have above := agree.2.mp equal.ge
    omega
  · intro different
    constructor
    · exact Iff.rfl
    · constructor <;> intro _ <;> omega

end

/-- `bob` bids the reserve itself, above `alice`. -/
def Demo.atReserve : Demo.Scenario where
  msg := instantiateMsg
  rate := Decimal.zero
  deliveries := [listing none none (some (amount 1000)) false, deliver 1000 "alice" (coins 500) (.placeBid 0),
    deliver 1100 "bob" (coins 1000) (.placeBid 0)]
  accepted := by decide
  order := by decide

def Demo.settlement : Delivery := deliver 2001 "seller" [] (.withdrawNft 0)

def Demo.leaving : Delivery := deliver 1200 "alice" [] (.retractBids 0)

/-- Bound to the auction, `bob` is sold the NFT, yet `alice` leaves as if the reserve had not been met. -/
theorem loser_at_reserve_unrewarded :
    ∃ es s item, Reached Demo.api es s ∧ (∀ e ∈ es, ∀ coin ∈ e.info.funds, 0 < coin.amount.u128) ∧
      s.items.mayLoad 0 = some item ∧ item.resolved = false ∧ item.highestBidder = some Demo.bob ∧
      0 < (s.totalBid 0 Demo.bob).u128 ∧ 0 < (s.totalBid 0 Demo.alice).u128 ∧
      (∃ bid, s.bids.mayLoad (0, Demo.alice) = some bid ∧ bid.resolved = false) ∧
      (¬ ∃ p, execute ⟨Demo.api, Demo.querier⟩ s (Demo.env 1200) ⟨"bob", []⟩ (.retractBids 0) = .ok p) ∧
      (∃ w : Accepted Demo.api, w.before = s ∧ w.msg = .withdrawNft 0 ∧ ∃ payouts, w.HandsTo 0 Demo.bob payouts) ∧
      ∃ r : Accepted Demo.api, r.before = s ∧ r.msg = .retractBids 0 ∧ r.sender = some Demo.alice ∧ r.mints = [] := by
  have found := Demo.atReserve.listed_found (i := 0) (by decide)
  have stored : (Demo.atReserve.final.slice 0).item = some (Demo.atReserve.listed 0 (by decide)) := found
  have lead : (Demo.atReserve.listed 0 (by decide)).highestBidder = some Demo.bob := by decide
  let w := Demo.atReserve.next Demo.settlement (by decide)
  let r := Demo.atReserve.next Demo.leaving (by decide)
  have from_final : w.before = Demo.atReserve.final := Demo.atReserve.next_before _ _
  refine ⟨_, _, _, Demo.atReserve.reached, by decide, found, by decide, lead, by decide, by decide,
    ⟨(Demo.atReserve.final.bids.mayLoad (0, Demo.alice)).get (by decide), by decide, by decide⟩, ?_,
    ⟨w, from_final, by decide, ?_⟩, ⟨r, Demo.atReserve.next_before _ _, by decide, by decide, by decide⟩⟩
  · apply Iff.mpr (refused_iff Demo.lawful Demo.atReserve.reached stored lead (by decide) (by decide) Demo.answers)
    decide
  · have reached : Reached Demo.api Demo.atReserve.log w.before := by
      rw [from_final]
      exact Demo.atReserve.reached
    have sold : (w.before.slice 0).item = some (Demo.atReserve.listed 0 (by decide)) := by
      rw [from_final]
      exact found
    apply (handsTo_iff Demo.lawful reached sold lead (by decide)).mpr
    decide

def Demo.aboveReserve : Demo.Scenario where
  msg := instantiateMsg
  rate := Decimal.zero
  deliveries := [listing none none (some (amount 900)) false, deliver 1000 "alice" (coins 500) (.placeBid 0),
    deliver 1100 "bob" (coins 1000) (.placeBid 0)]
  accepted := by decide
  order := by decide

theorem reserve_decisions_agree_aboveReserve :
    ∃ w r : Accepted Demo.api, (((¬ ∃ p, execute ⟨Demo.api, Demo.querier⟩ Demo.aboveReserve.final (Demo.env 1200)
        ⟨"bob", []⟩ (.retractBids 0) = .ok p) ↔ ∃ payouts, w.HandsTo 0 Demo.bob payouts) ∧
      ((∃ payouts, w.HandsTo 0 Demo.bob payouts) ↔ r.mints ≠ [])) ∧ r.mints ≠ [] := by
  have found := Demo.aboveReserve.listed_found (i := 0) (by decide)
  have entry : Demo.aboveReserve.final.bids.mayLoad (0, Demo.alice) =
      some ((Demo.aboveReserve.final.bids.mayLoad (0, Demo.alice)).get (by decide)) := by decide
  let w := Demo.aboveReserve.next Demo.settlement (by decide)
  let r := Demo.aboveReserve.next Demo.leaving (by decide)
  have settles : w.before = Demo.aboveReserve.final ∧ w.msg = .withdrawNft 0 :=
    ⟨Demo.aboveReserve.next_before _ _, by decide⟩
  have retracts : r.before = Demo.aboveReserve.final ∧ r.msg = .retractBids 0 ∧ r.sender = some Demo.alice :=
    ⟨Demo.aboveReserve.next_before _ _, by decide, by decide⟩
  refine ⟨w, r, ?_, by decide⟩
  apply Iff.mpr (reserve_decisions_agree_iff Demo.lawful Demo.aboveReserve.reached found (by decide) (by decide)
    (by decide) Demo.answers settles retracts entry (by decide))
  decide

end NftMarketplace
