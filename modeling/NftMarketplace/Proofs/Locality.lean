import NftMarketplace.Lib.Isolation
import NftMarketplace.Proofs.Listings
import NftMarketplace.Proofs.Payouts

/-!
What a message about auction `i` reads: the records that all auctions share, and the part of the
storage that is auction `i`. Two storages that agree there give the same answer, error or not, and
the same auction `i` afterwards.
-/

namespace NftMarketplace
open Cosmwasm Outcome

/-- The two storages agree on what all auctions share and on auction `i`. -/
structure AgreeOn (i : Nat) (s t : Storage) : Prop where
  config : s.config = t.config
  state : s.state = t.state
  cancellation : s.cancellation = t.cancellation
  royalty : s.royalty = t.royalty
  slice : s.slice i = t.slice i

section
variable {i : Nat} {s t : Storage}

namespace AgreeOn
variable (h : AgreeOn i s t)
include h

theorem item : s.items.mayLoad i = t.items.mayLoad i := congrArg Slice.item h.slice

theorem bid (b : CanonicalAddr) : s.bids.mayLoad (i, b) = t.bids.mayLoad (i, b) :=
  congrFun (congrArg Slice.bid h.slice) b

theorem log : s.histories.mayLoad i = t.histories.mayLoad i := congrArg Slice.log h.slice

theorem bidderLog (b : CanonicalAddr) : s.historiesBidder.mayLoad (i, b) = t.historiesBidder.mayLoad (i, b) :=
  congrFun (congrArg Slice.bidderLog h.slice) b

end AgreeOn

/-- Both messages fail with the same fault, or both succeed with the same response and leave the same
auction `i`. -/
def Alike (i : Nat) : Result (Storage × Response) → Result (Storage × Response) → Prop :=
  Same fun p q => p.1.slice i = q.1.slice i ∧ p.2 = q.2

theorem creditDeposit_same {m n : FiniteMap (Nat × CanonicalAddr) BidInfo} {key : Nat × CanonicalAddr}
    (same : m.mayLoad key = n.mayLoad key) (sent : Uint128) :
    Same (fun p q : FiniteMap (Nat × CanonicalAddr) BidInfo × Uint128 =>
        (∃ bid, p.1 = m.save key bid ∧ q.1 = n.save key bid) ∧ p.2 = q.2)
      (creditDeposit m key sent) (creditDeposit n key sent) := by
  unfold creditDeposit
  rw [same]
  cases n.mayLoad key with
  | none => exact ⟨⟨_, rfl, rfl⟩, rfl⟩
  | some bid =>
    apply Same.after
    intro historySent
    apply Same.after
    intro totalBid
    exact ⟨⟨_, rfl, rfl⟩, rfl⟩

/-- The same deposit written to both storages. -/
theorem AgreeOn.deposit (h : AgreeOn i s t) (item : ItemInfo) (b : CanonicalAddr) (bid : BidInfo)
    (first entry : HistoryBidInfo) :
    ({ s with
        items := s.items.save i item
        bids := s.bids.save (i, b) bid
        historiesBidder := appendHistory s.historiesBidder (i, b) entry entry
        histories := appendHistory s.histories i first entry } : Storage).slice i =
      ({ t with
        items := t.items.save i item
        bids := t.bids.save (i, b) bid
        historiesBidder := appendHistory t.historiesBidder (i, b) entry entry
        histories := appendHistory t.histories i first entry } : Storage).slice i := by
  ext1
  · simp [Storage.slice]
  · funext c
    simp [Storage.slice, FiniteMap.mayLoad_save, h.bid]
  · simp [Storage.slice, appendHistory_eq, h.log]
  · funext c
    simp [Storage.slice, appendHistory_eq, FiniteMap.mayLoad_save, h.bidderLog]

theorem AgreeOn.withItem (h : AgreeOn i s t) (item : ItemInfo) :
    ({ s with items := s.items.save i item } : Storage).slice i =
      ({ t with items := t.items.save i item } : Storage).slice i := by
  rw [(slice_item s i item).1, (slice_item t i item).1, h.slice]

theorem AgreeOn.withBid (h : AgreeOn i s t) (b : CanonicalAddr) (bid : BidInfo) :
    ({ s with bids := s.bids.save (i, b) bid } : Storage).slice i =
      ({ t with bids := t.bids.save (i, b) bid } : Storage).slice i := by
  rw [(slice_bid s i b bid).1, (slice_bid t i b bid).1, h.slice]

theorem executePlaceBid_alike (h : AgreeOn i s t) (deps : Deps) (env : Env) (info : MessageInfo) :
    Alike i (executePlaceBid deps s env info i) (executePlaceBid deps t env info i) := by
  unfold executePlaceBid Alike
  simp only [h.config, h.bid, FiniteMap.load_congr h.item]
  refine Same.after _ fun b => Same.after _ fun sent => Same.after _ fun item => Same.after _ fun _ => ?_
  refine Same.after _ fun _ => Same.after _ fun _ => Same.after _ fun _ => Same.after _ fun minBid => ?_
  refine Same.after _ fun total => Same.after _ fun _ => ?_
  apply Same.bind (FiniteMap.update_same h.item _)
  rintro _ _ ⟨stored, rfl, rfl⟩
  apply Same.bind (creditDeposit_same (h.bid b) sent)
  rintro ⟨_, _⟩ ⟨_, compounded⟩ ⟨⟨bid, rfl, rfl⟩, rfl⟩
  exact ⟨h.deposit stored b bid _ _, rfl⟩

theorem executeInstantBuy_alike (h : AgreeOn i s t) (deps : Deps) (env : Env) (info : MessageInfo) :
    Alike i (executeInstantBuy deps s env info i) (executeInstantBuy deps t env info i) := by
  unfold executeInstantBuy Alike
  simp only [h.config, h.bid]
  rw [h.item]
  cases t.items.mayLoad i with
  | none => rfl
  | some item =>
    refine Same.after _ fun _ => Same.after _ fun b => Same.after _ fun _ => Same.after _ fun _ => ?_
    refine Same.after _ fun sent => ?_
    apply Same.bind (creditDeposit_same (h.bid b) sent)
    rintro ⟨_, _⟩ ⟨_, compounded⟩ ⟨⟨bid, rfl, rfl⟩, rfl⟩
    apply Same.after
    intro price
    apply Same.bind (FiniteMap.update_same h.item _)
    rintro _ _ ⟨stored, rfl, rfl⟩
    exact ⟨h.deposit stored b bid _ _, rfl⟩

theorem executeRetractBids_alike (h : AgreeOn i s t) (deps : Deps) (env : Env) (info : MessageInfo) :
    Alike i (executeRetractBids deps s env info i) (executeRetractBids deps t env info i) := by
  unfold executeRetractBids partialReward Alike
  simp only [h.config, h.state, FiniteMap.load_congr h.item, FiniteMap.load_congr (h.bid _)]
  refine Same.after _ fun b => Same.after _ fun item => Same.after _ fun bid => Same.after _ fun _ => ?_
  refine Same.after _ fun _ => Same.after _ fun send => Same.after _ fun rewards => ?_
  apply Same.bind (FiniteMap.update_same (h.bid b) _)
  rintro _ _ ⟨stored, rfl, rfl⟩
  exact ⟨h.withBid b stored, rfl⟩

theorem executeWithdrawNft_alike (h : AgreeOn i s t) (deps : Deps) (env : Env) (info : MessageInfo) :
    Alike i (executeWithdrawNft deps s env info i) (executeWithdrawNft deps t env info i) := by
  unfold executeWithdrawNft salePayouts fullRewards royaltyOf Alike
  simp only [h.config, h.state, h.royalty, FiniteMap.load_congr h.item]
  refine Same.after _ fun item => Same.after _ fun collection => Same.after _ fun minter => ?_
  refine Same.after _ fun _ => Same.after _ fun _ => Same.after _ fun shares => ?_
  apply Same.bind (FiniteMap.update_same h.item _)
  rintro _ _ ⟨stored, rfl, rfl⟩
  refine Same.after _ fun owner => Same.after _ fun payouts => Same.after _ fun creator => ?_
  exact ⟨h.withItem stored, rfl⟩

theorem executeCancelAuction_alike (h : AgreeOn i s t) (deps : Deps) (env : Env) (info : MessageInfo) :
    Alike i (executeCancelAuction deps s env info i) (executeCancelAuction deps t env info i) := by
  unfold executeCancelAuction cancellationFees Alike
  simp only [h.config, h.cancellation]
  rw [h.item]
  cases t.items.mayLoad i with
  | none => rfl
  | some item =>
    refine Same.after _ fun _ => Same.after _ fun raw => Same.after _ fun _ => ?_
    apply Same.after
    rintro ⟨fee, msgs⟩
    apply Same.bind (FiniteMap.update_same h.item _)
    rintro _ _ ⟨stored, rfl, rfl⟩
    exact ⟨h.withItem stored, rfl⟩

theorem executeRegisterPrivateSale_alike (h : AgreeOn i s t) (deps : Deps) (env : Env) (info : MessageInfo)
    (sender : String) (sent : Uint128) :
    Alike i (executeRegisterPrivateSale deps s env info sender sent i)
      (executeRegisterPrivateSale deps t env info sender sent i) := by
  unfold executeRegisterPrivateSale Alike
  simp only [h.config, h.state, h.bid]
  apply Same.after
  intro b
  rw [h.item]
  cases t.items.mayLoad i with
  | none => rfl
  | some item =>
    refine Same.after _ fun _ => Same.after _ fun _ => Same.after _ fun _ => Same.after _ fun _ => ?_
    refine Same.after _ fun _ => Same.after _ fun cw20 => ?_
    exact ⟨h.withBid b _, rfl⟩

end

end NftMarketplace
