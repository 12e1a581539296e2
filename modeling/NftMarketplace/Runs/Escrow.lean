import NftMarketplace.Runs.Accounts
import NftMarketplace.Runs.Replay

/-!
What the account of an auction says about its money: every coin is a deposit, was refunded or was
paid out; the winning bid is a deposit that nobody's deposit exceeds; and, unless an auction is
cancelled after its sale, what is held covers everything that can still be claimed.
-/

namespace NftMarketplace
open Cosmwasm Transition

section
variable {api : Api} {es : List (Accepted api)} {e : Accepted api} {s : Storage} {i : Nat}

/-- What auction `i` took in and did not send out. -/
def escrow (i : Nat) (es : List (Accepted api)) : ℤ :=
  (total (Accepted.received · i) es : ℕ) - (total (Accepted.sent · i) es : ℕ)

/-! ### The ledger of deposits -/

theorem held_eq (s : Storage) (i : Nat) :
    (auction i es s).held = ∑ b ∈ s.bidders i, (s.totalBid i b).u128 := by
  simp only [EnglishAuction.State.held, auction, Storage.deposits]
  rw [Finsupp.onFinset_sum _ fun _ => rfl]
  exact Finset.sum_congr rfl fun b _ => slice_totalBid s i b

theorem sale_eq (reached : Reached api es s) : (auction i es s).sale.getD 0 = total (Accepted.sale · i) es := by
  simp only [auction]
  split
  · rfl
  · next unresolved => rw [reached.unsold (by simpa using unresolved)]; rfl

theorem reserve_known (s : Storage) (i : Nat) :
    ∃ reserve, ∀ item, (s.slice i).item = some item → item.reserve = reserve := by
  cases found : (s.slice i).item with
  | none => exact ⟨0, fun _ h => nomatch h⟩
  | some item => exact ⟨item.reserve, fun other h => by rw [Option.some.inj h]⟩

theorem Effect.ledger (h : Effect e i) (b : CanonicalAddr) :
    (e.after.slice i).totalBid b + e.refundTo i b = (e.before.slice i).totalBid b + e.depositBy i b := by
  have still (deposit : e.deposit i = 0) (refund : e.refund i = 0)
      (same : (e.after.slice i).totalBid b = (e.before.slice i).totalBid b) :
      (e.after.slice i).totalBid b + e.refundTo i b = (e.before.slice i).totalBid b + e.depositBy i b := by
    simp [Accepted.refundTo, Accepted.depositBy, deposit, refund, same]
  have credited {c : CanonicalAddr} {sent new : Nat} (sender : e.sender = some c) (deposit : e.deposit i = sent)
      (refund : e.refund i = 0) (compounded : new = (e.before.slice i).totalBid c + sent)
      (after : (e.after.slice i).totalBid b = if b = c then new else (e.before.slice i).totalBid b) :
      (e.after.slice i).totalBid b + e.refundTo i b = (e.before.slice i).totalBid b + e.depositBy i b := by
    rw [after, Accepted.refundTo, Accepted.depositBy, sender, deposit, refund]
    by_cases here : b = c
    · subst here
      simp [compounded]
    · simp [here, Ne.symm here]
  cases h with
  | away elsewhere same =>
    have moves := moves_away elsewhere
    have received := moves.received
    have sent := moves.sent
    unfold Accepted.received at received
    unfold Accepted.sent at sent
    exact still (by omega) (by omega) (by rw [same])
  | listed _ listing after =>
    exact still (by simp [Accepted.deposit, listing.message]) (by simp [Accepted.refund, listing.message])
      (by rw [after]; rfl)
  | @registered _ c _ _ message _ spec after =>
    refine still (by simp [Accepted.deposit, message]) (by simp [Accepted.refund, message]) ?_
    rw [after, Slice.withBid_totalBid]
    split
    · next here =>
      subst here
      simp [BidInfo.registered, Slice.totalBid, spec.new]
    · rfl
  | @placed c item sent amount message spec after =>
    refine credited (Accepted.sender_ok spec.sender) ?_ (by simp [Accepted.refund, message]) spec.compounded
      (by rw [after, Slice.afterBid, Slice.deposit_totalBid])
    simp [Accepted.deposit, message, attached_single spec.funds]
  | @bought c item sent price message spec after =>
    refine credited (Accepted.sender_ok spec.sender) ?_ (by simp [Accepted.refund, message]) spec.compounded
      (by rw [after, Slice.afterPurchase, Slice.deposit_totalBid])
    simp [Accepted.deposit, message, attached_single spec.funds]
  | @retracted c item bid send rewards message spec after sends =>
    have sender : e.sender = some c := Accepted.sender_ok spec.sender
    have deposit : e.deposit i = 0 := by simp [Accepted.deposit, message]
    have refund : e.refund i = (e.before.slice i).totalBid c := by
      simp [Accepted.refund, message, Response.gross_eq, sends, spec.gross, Slice.totalBid, spec.entry]
    rw [after, Slice.withBid_totalBid, Accepted.refundTo, Accepted.depositBy, sender, deposit, refund]
    by_cases here : b = c
    · subst here
      simp [BidInfo.refunded]
    · simp [here, Ne.symm here]
  | withdrawn message _ after =>
    exact still (by simp [Accepted.deposit, message]) (by simp [Accepted.refund, message]) (by rw [after]; rfl)
  | cancelled message _ after =>
    exact still (by simp [Accepted.deposit, message]) (by simp [Accepted.refund, message]) (by rw [after]; rfl)

theorem deposit_ledger (reached : Reached api es s) (i : Nat) :
    (∀ b, total (Accepted.depositBy · i b) es = (s.totalBid i b).u128 + total (Accepted.refundTo · i b) es) ∧
      escrow i es = ((∑ b ∈ s.bidders i, (s.totalBid i b).u128 : ℕ) : ℤ) -
        (total (Accepted.sale · i) es : ℕ) + (total (Accepted.dust · i) es : ℕ) := by
  constructor
  · intro b
    rw [← slice_totalBid]
    apply reached.induction (P := fun es s => total (Accepted.depositBy · i b) es =
      (s.slice i).totalBid b + total (Accepted.refundTo · i b) es)
    · intro s fresh
      simp [fresh.slice]
    · intro es e _ _ ih
      have step := (effect e i).ledger b
      simp only [total_append, total_singleton]
      omega
  · obtain ⟨reserve, kept⟩ := reserve_known s i
    have run : EnglishAuction.Reachable reserve False (auction i es s) := reached.simulates kept False.elim
    have balance := EnglishAuction.balanced run
    rw [EnglishAuction.Balanced, held_eq, sale_eq reached] at balance
    have received : (auction i es s).received = total (Accepted.received · i) es := rfl
    have sent : (auction i es s).sent = total (Accepted.sent · i) es := rfl
    have dust : (auction i es s).dust = total (Accepted.dust · i) es := rfl
    rw [received, sent, dust] at balance
    unfold escrow
    omega

theorem deposit_ledger_soldToBob :
    total (Accepted.depositBy · 0 Demo.alice) Demo.soldToBob.log =
        (Demo.soldToBob.final.totalBid 0 Demo.alice).u128 + total (Accepted.refundTo · 0 Demo.alice) Demo.soldToBob.log ∧
      total (Accepted.refundTo · 0 Demo.alice) Demo.soldToBob.log = 100 ∧
      escrow 0 Demo.soldToBob.log =
        ((∑ b ∈ Demo.soldToBob.final.bidders 0, (Demo.soldToBob.final.totalBid 0 b).u128 : ℕ) : ℤ) -
          (total (Accepted.sale · 0) Demo.soldToBob.log : ℕ) + (total (Accepted.dust · 0) Demo.soldToBob.log : ℕ) :=
  have ledger := deposit_ledger Demo.soldToBob.reached 0
  ⟨ledger.1 Demo.alice, by decide, ledger.2⟩

/-! ### The winning bid -/

theorem bound_iff {item : ItemInfo} (found : (s.slice i).item = some item) (b : CanonicalAddr) :
    (auction i es s).Bound item.reserve b ↔ item.Bound b := by
  have price : (auction i es s).price.getD 0 = item.price := Slice.highestBid_getD _ found
  have leader : (auction i es s).leader = item.highestBidder := by simp [auction, Slice.highestBidder, found]
  rw [EnglishAuction.State.Bound, price, leader, ItemInfo.Bound]

theorem Reached.backed (reached : Reached api es s) {item : ItemInfo} (found : (s.slice i).item = some item) :
    (∀ b, (s.slice i).totalBid b ≤ item.price) ∧ ∀ b, item.Bound b → (s.slice i).totalBid b = item.price := by
  have run : EnglishAuction.Reachable item.reserve False (auction i es s) :=
    reached.simulates (fun other h => by rw [Option.some.inj (h.symm.trans found)]) False.elim
  have backed := EnglishAuction.backed run
  have price : (auction i es s).price.getD 0 = item.price := Slice.highestBid_getD _ found
  constructor
  · intro b
    rw [← price]
    exact backed.maximal b
  · intro b bound
    rw [← price]
    exact backed.bound b ((bound_iff found b).mpr bound)

theorem proceeds_bound {item : ItemInfo} (sound : Sound item) (paid : item.proceeds ≠ 0) :
    ∃ b, item.Bound b ∧ item.proceeds = item.price := by
  have sold : saleRecipient item ≠ item.creator := fun back => paid (if_pos back)
  exact ⟨saleRecipient item, sound.bound_iff.mpr ⟨rfl, sold⟩, if_neg sold⟩

theorem payout_eq {item : ItemInfo} (message : e.msg = .withdrawNft i) (found : (e.before.slice i).item = some item) :
    e.response.gross = item.proceeds := by
  obtain ⟨_, _, _, _, _, _, spec, _, _, sends⟩ := Accepted.withdrawn message
  obtain rfl := Option.some.inj (found.symm.trans spec.stored)
  rw [Response.gross_eq, sends, spec.gross]

theorem winning_bid_backed (reached : Reached api es s) {item : ItemInfo} (found : s.items.mayLoad i = some item) :
    (∀ b, (s.totalBid i b).u128 ≤ item.price) ∧
      (∀ h, item.highestBidder = some h → item.reserve ≤ item.price → (s.totalBid i h).u128 = item.price) ∧
      (∀ h, item.highestBidder = some h → item.highestBid.isSome ∧ h ≠ item.creator) ∧
      ∀ e : Accepted api, e.before = s → e.msg = .withdrawNft i → e.response.gross ≠ 0 →
        ∃ h, item.highestBidder = some h ∧ e.response.gross = (s.totalBid i h).u128 ∧
          ∀ b, (s.totalBid i b).u128 ≤ e.response.gross := by
  have sound : Sound item := reached.sound found
  obtain ⟨maximal, bound⟩ := reached.backed found
  simp only [← slice_totalBid]
  refine ⟨maximal, fun h lead met => bound h ⟨lead, met⟩, fun h lead => ⟨sound.led (by simp [lead]), sound.outside h lead⟩, ?_⟩
  rintro e rfl message paid
  have gross := payout_eq message found
  rw [gross] at paid ⊢
  obtain ⟨h, isBound, proceeds⟩ := proceeds_bound sound paid
  exact ⟨h, isBound.1, by rw [proceeds, bound h isBound], fun b => proceeds ▸ maximal b⟩

theorem winning_bid_backed_soldToBob :
    ∃ item, Demo.soldToBob.final.items.mayLoad 0 = some item ∧ item.price = 200 ∧
      (Demo.soldToBob.final.totalBid 0 Demo.bob).u128 = item.price := by
  have found := Demo.soldToBob.listed_found (i := 0) (by decide)
  have leader : (Demo.soldToBob.listed 0 (by decide)).highestBidder = some Demo.bob := by decide
  have met : (Demo.soldToBob.listed 0 (by decide)).reserve ≤ (Demo.soldToBob.listed 0 (by decide)).price := by decide
  obtain ⟨_, bound, _⟩ := winning_bid_backed Demo.soldToBob.reached found
  exact ⟨_, found, by decide, bound Demo.bob leader met⟩

/-! ### Solvency -/

/-- Somebody's `RetractBids` on behalf of `b` would be accepted. -/
def Retractable (api : Api) (s : Storage) (i : Nat) (b : CanonicalAddr) : Prop :=
  ∃ querier env info r, api.addrCanonicalize info.sender = .ok b ∧
    ∃ t, execute ⟨api, querier⟩ s env info (.retractBids i) = .ok (t, r)

open Classical in
noncomputable def refundable (api : Api) (s : Storage) (i : Nat) : Finset CanonicalAddr :=
  (s.bidders i).filter (Retractable api s i)

/-- What a settlement would pay out of the current winner's bid, while the auction is unresolved. -/
def Storage.pendingPayout (s : Storage) (i : Nat) : Nat :=
  match s.items.mayLoad i with
  | none => 0
  | some item => if item.resolved then 0 else item.proceeds

theorem payout_pending (message : e.msg = .withdrawNft i) : e.response.gross = e.before.pendingPayout i := by
  obtain ⟨item, _, _, _, _, _, spec, _⟩ := Accepted.withdrawn message
  have found : e.before.items.mayLoad i = some item := spec.stored
  rw [payout_eq message spec.stored, Storage.pendingPayout, found]
  simp [spec.unresolved]

def Solvent (api : Api) (i : Nat) (es : List (Accepted api)) (s : Storage) : Prop :=
  ((∑ b ∈ refundable api s i, (s.totalBid i b).u128 + s.pendingPayout i : ℕ) : ℤ) ≤ escrow i es

theorem retractable_of (querier : Querier) (env : Env) (info : MessageInfo) {b : CanonicalAddr}
    (sender : api.addrCanonicalize info.sender = .ok b)
    (accepted : (execute ⟨api, querier⟩ s env info (.retractBids i)).toOption.isSome) : Retractable api s i b := by
  cases done : execute ⟨api, querier⟩ s env info (.retractBids i) with
  | error _ => simp [done, Except.toOption] at accepted
  | ok p => exact ⟨querier, env, info, p.2, sender, p.1, done⟩

theorem Retractable.free {b : CanonicalAddr} (h : Retractable api s i b) :
    ∃ item, (s.slice i).item = some item ∧ ¬ item.Bound b := by
  obtain ⟨querier, env, info, r, sender, t, accepted⟩ := h
  change executeRetractBids ⟨api, querier⟩ s env info i = _ at accepted
  obtain ⟨c, item, bid, send, rewards, spec, _⟩ := executeRetractBids_ok accepted
  obtain rfl := Except.ok.inj (sender.symm.trans spec.sender)
  exact ⟨item, spec.stored, spec.free⟩

theorem escrow_solvent (reached : Reached api es s) (order : Orderly i es) : Solvent api i es s := by
  obtain ⟨reserve, kept⟩ := reserve_known s i
  have run : EnglishAuction.Reachable reserve True (auction i es s) := reached.simulates kept fun _ => order
  have away : ∀ b ∈ refundable api s i, ¬ (auction i es s).Bound reserve b := by
    classical
    intro b member
    obtain ⟨item, found, free⟩ := Retractable.free (Finset.mem_filter.mp member).2
    rw [← kept item found, bound_iff found]
    exact free
  have covers := EnglishAuction.solvent run away
  have pending : (auction i es s).pending reserve = s.pendingPayout i := by
    unfold EnglishAuction.State.pending Storage.pendingPayout
    cases found : s.items.mayLoad i with
    | none =>
      have absent : (s.slice i).item = none := found
      simp [auction, EnglishAuction.State.proceeds, Slice.highestBidder, absent]
    | some item =>
      have present : (s.slice i).item = some item := found
      have proceeds : (auction i es s).proceeds item.reserve = item.proceeds :=
        proceeds_eq (reached.sound present) (by simp [auction, Slice.highestBidder, present])
          (Slice.highestBid_getD _ present)
      rw [← kept item present, proceeds]
      cases settled : item.resolved <;> simp [auction, Slice.resolved, present, settled]
  have sums : ∑ b ∈ refundable api s i, (auction i es s).deposit b = ∑ b ∈ refundable api s i, (s.totalBid i b).u128 :=
    Finset.sum_congr rfl fun b _ => slice_totalBid s i b
  have received : (auction i es s).received = total (Accepted.received · i) es := rfl
  have sent : (auction i es s).sent = total (Accepted.sent · i) es := rfl
  rw [pending, sums, received, sent] at covers
  unfold Solvent escrow
  omega

end

def Demo.soldThenCancelled : Demo.Scenario where
  msg := instantiateMsg
  rate := percent 10
  deliveries := [listing none none none false, deliver 1000 "alice" (coins 100) (.placeBid 0),
    deliver 2000 "alice" [] (.withdrawNft 0), deliver 2000 "seller" (coins 10) (.cancelAuction 0)]
  accepted := by decide
  order := by decide

/-- A creator who cancels within the second in which the auction was settled frees the buyer, whose
deposit is no longer there. -/
theorem sold_then_cancelled_insolvent :
    ∃ es s, Reached Demo.api es s ∧ (∀ e ∈ es, ∀ coin ∈ e.info.funds, 0 < coin.amount.u128) ∧
      s.cancellation.cancellationFee = Demo.percent 10 ∧ ¬ Solvent Demo.api 0 es s := by
  refine ⟨Demo.soldThenCancelled.log, Demo.soldThenCancelled.final, Demo.soldThenCancelled.reached, by decide, by decide, ?_⟩
  have spent : escrow 0 Demo.soldThenCancelled.log = 0 := by decide
  have deposit : (Demo.soldThenCancelled.final.totalBid 0 Demo.alice).u128 = 100 := by decide
  have freed : Retractable Demo.api Demo.soldThenCancelled.final 0 Demo.alice :=
    retractable_of Demo.querier (Demo.env 2000) ⟨"alice", []⟩ (by decide) (by decide)
  have member : Demo.alice ∈ refundable Demo.api Demo.soldThenCancelled.final 0 := by
    classical
    exact Finset.mem_filter.mpr ⟨by decide, freed⟩
  have part := Finset.single_le_sum (f := fun b => (Demo.soldThenCancelled.final.totalBid 0 b).u128)
    (fun _ _ => Nat.zero_le _) member
  intro solvent
  rw [Solvent, spent] at solvent
  simp only [deposit] at part
  omega

theorem escrow_solvent_soldToBob : Solvent Demo.api 0 Demo.soldToBob.log Demo.soldToBob.final :=
  escrow_solvent Demo.soldToBob.reached (by decide)

end NftMarketplace
