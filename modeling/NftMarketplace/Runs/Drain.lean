import NftMarketplace.Runs.Bank
import NftMarketplace.Runs.Custody
import NftMarketplace.Runs.Funds

/-!
Nothing stays stuck. Once an auction has ended, a settlement followed by one refund for each bidder who
is still owed a deposit empties its account, up to the odd coins of split cancellation fees.
-/

namespace NftMarketplace
open Cosmwasm Transition

section
variable {api : Api} {es : List (Accepted api)} {e : Accepted api} {s : Storage} {i : Nat} {item : ItemInfo}

/-! ### Whom the keys belong to -/

/-- Whoever has an entry is the canonical form of an address. -/
def Slice.KnownBidders (api : Api) (x : Slice) : Prop :=
  ∀ b, (x.bid b).isSome → ∃ a, api.addrCanonicalize a = .ok b

theorem Effect.knownBidders (h : Effect e i) (before : (e.before.slice i).KnownBidders api) :
    (e.after.slice i).KnownBidders api := by
  have wrote {b : CanonicalAddr} (read : ∃ a, api.addrCanonicalize a = .ok b)
      (others : ∀ c, c ≠ b → (e.after.slice i).bid c = (e.before.slice i).bid c) :
      (e.after.slice i).KnownBidders api := by
    intro c present
    by_cases here : c = b
    · exact here ▸ read
    · exact before c (others c here ▸ present)
  cases h with
  | away _ same => rwa [same]
  | listed _ _ after => rw [after]; exact before
  | registered _ _ spec after =>
    exact wrote ⟨_, spec.sender⟩ fun c other => by rw [after, Slice.withBid_bid, if_neg other]
  | placed _ spec after =>
    exact wrote ⟨_, spec.sender⟩ fun c other => by rw [after, Slice.afterBid, Slice.deposit_bid, if_neg other]
  | bought _ spec after =>
    exact wrote ⟨_, spec.sender⟩ fun c other => by rw [after, Slice.afterPurchase, Slice.deposit_bid, if_neg other]
  | retracted _ spec after =>
    exact wrote ⟨_, spec.sender⟩ fun c other => by rw [after, Slice.withBid_bid, if_neg other]
  | withdrawn _ _ after => rw [after]; exact before
  | cancelled _ _ after => rw [after]; exact before

theorem Reached.knownBidders (reached : Reached api es s) (i : Nat) : (s.slice i).KnownBidders api := by
  apply reached.induction (P := fun _ s => (s.slice i).KnownBidders api)
  · intro s fresh b present
    simp [fresh.slice, Slice.empty] at present
  · intro es e _ _ before
    exact (effect e i).knownBidders before

/-! ### One refund -/

/-- The bidders who have a deposit to take back. -/
def Storage.claimants (s : Storage) (i : Nat) : Finset CanonicalAddr :=
  match s.items.mayLoad i with
  | none => ∅
  | some item => (s.bidders i).filter fun b => ¬ item.Bound b ∧ 0 < (s.totalBid i b).u128

theorem mem_claimants (found : s.items.mayLoad i = some item) {b : CanonicalAddr} :
    b ∈ s.claimants i ↔ ¬ item.Bound b ∧ 0 < (s.totalBid i b).u128 := by
  unfold Storage.claimants
  rw [found]
  simp only [Finset.mem_filter, and_iff_right_iff_imp]
  rintro ⟨_, positive⟩
  by_contra absent
  rw [← slice_totalBid, totalBid_of_not_bidder absent] at positive
  exact positive.ne' rfl

/-- What it takes for everybody to be paid: the tax is known and the rewards for the price fit. -/
structure Payouts (querier : Querier) (s : Storage) (item : ItemInfo) : Prop where
  answers : Answers querier s.config.denom
  partialFits : scale item.price s.config.sityPartialRewards.atomics < 2 ^ 128
  fullFits : scale item.price s.config.sityFullRewards.atomics < 2 ^ 128

theorem Reached.refund (lawful : api.Lawful) (reached : Reached api es s) (found : s.items.mayLoad i = some item)
    {querier : Querier} (payouts : Payouts querier s item) (env : Env) {b : CanonicalAddr} (claims : b ∈ s.claimants i) :
    ∃ e : Accepted api, e.before = s ∧ e.querier = querier ∧ e.env = env ∧ e.info.funds = [] ∧ e.msg = .retractBids i ∧
      ∃ bid, e.after.slice i = (s.slice i).withBid b (BidInfo.refunded bid) := by
  obtain ⟨free, positive⟩ := (mem_claimants found).mp claims
  cases entry : s.bids.mayLoad (i, b) with
  | none => simp [Storage.totalBid, entry] at positive
  | some bid =>
    have deposit : 0 < bid.totalBid.u128 := by simpa [Storage.totalBid, entry] using positive
    have most : bid.totalBid.u128 ≤ item.price := by
      have below := (reached.backed found).1 b
      rwa [slice_totalBid, Storage.totalBid, entry] at below
    obtain ⟨_, known⟩ := reached.knownBidders i b (by simp [Storage.slice, entry])
    obtain ⟨address, human⟩ := lawful.humanize known
    obtain ⟨_, canonical⟩ := reached.wellFormed.cw20
    obtain ⟨_, token⟩ := lawful.humanize canonical
    have fits : scale bid.totalBid.u128 s.config.sityPartialRewards.atomics < 2 ^ 128 :=
      lt_of_le_of_lt (scale_mono _ most) payouts.partialFits
    let info : MessageInfo := ⟨address, []⟩
    have sender : api.addrCanonicalize info.sender = .ok b := lawful.canonicalize human
    obtain ⟨⟨t, r⟩, done⟩ : ∃ p, executeRetractBids ⟨api, querier⟩ s env info i = .ok p :=
      executeRetractBids_succeeds env sender found entry free deposit payouts.answers (fun _ => fits) token
    refine ⟨⟨querier, env, info, .retractBids i, s, t, r, done⟩, rfl, rfl, rfl, rfl, rfl, ?_⟩
    obtain ⟨c, _, stored, _, _, spec, after, _⟩ := executeRetractBids_ok done
    obtain rfl := Except.ok.inj (sender.symm.trans spec.sender)
    exact ⟨stored, after⟩

theorem claimants_refunded {t : Storage} {b : CanonicalAddr} {bid : BidInfo} (found : s.items.mayLoad i = some item)
    (after : t.slice i = (s.slice i).withBid b bid.refunded) (claims : b ∈ s.claimants i) :
    t.items.mayLoad i = some item ∧ (t.claimants i).card < (s.claimants i).card := by
  have stored : t.items.mayLoad i = some item := by
    have kept : (t.slice i).item = (s.slice i).item := by rw [after, Slice.withBid_item]
    exact kept.trans found
  have deposit (c : CanonicalAddr) : (t.totalBid i c).u128 = if c = b then 0 else (s.totalBid i c).u128 := by
    rw [← slice_totalBid, after, Slice.withBid_totalBid, slice_totalBid]
    rfl
  refine ⟨stored, Finset.card_lt_card ((Finset.ssubset_iff_of_subset ?_).mpr ⟨b, claims, ?_⟩)⟩
  · intro c remains
    rw [mem_claimants stored, deposit] at remains
    rw [mem_claimants found]
    by_cases here : c = b
    · rw [if_pos here] at remains
      exact (Nat.lt_irrefl 0 remains.2).elim
    · rwa [if_neg here] at remains
  · rw [mem_claimants stored, deposit, if_pos rfl]
    exact fun h => Nat.lt_irrefl 0 h.2

/-! ### All refunds -/

/-- Messages without coins, all at one time and with the same answers. -/
def Accepted.Free (e : Accepted api) (querier : Querier) (env : Env) : Prop :=
  e.querier = querier ∧ e.env = env ∧ e.info.funds = []

theorem Reached.refundAll (lawful : api.Lawful) (reached : Reached api es s) (found : s.items.mayLoad i = some item)
    {querier : Querier} (payouts : Payouts querier s item) {env : Env}
    (later : ∀ e ∈ es, e.time ≤ env.blockTime.nanos) :
    ∃ post t, Reached api (es ++ post) t ∧ (∀ e ∈ post, e.msg = .retractBids i ∧ e.Free querier env) ∧
      t.items.mayLoad i = some item ∧ t.claimants i = ∅ ∧ post.length ≤ (s.claimants i).card := by
  let Kept (post : List (Accepted api)) (t : Storage) : Prop := Reached api (es ++ post) t ∧
    (∀ e ∈ post, e.msg = .retractBids i ∧ e.Free querier env) ∧ t.items.mayLoad i = some item ∧ t.config = s.config
  have lower : ∀ post t, Kept post t → (t.claimants i).card ≠ 0 → ∃ e : Accepted api, e.before = t ∧
      (e.after.claimants i).card < (t.claimants i).card ∧ Kept (post ++ [e]) e.after := by
    rintro post t ⟨reached, free, stored, config⟩ remain
    obtain ⟨b, claims⟩ := Finset.card_ne_zero.mp remain
    have payouts' : Payouts querier t item := by
      constructor <;> rw [config]
      · exact payouts.answers
      · exact payouts.partialFits
      · exact payouts.fullFits
    obtain ⟨e, rfl, answered, timed, unpaid, message, bid, after⟩ := reached.refund lawful stored payouts' env claims
    obtain ⟨stored', fewer⟩ := claimants_refunded stored after claims
    have time : e.time = env.blockTime.nanos := by rw [Accepted.time, timed]
    have next : Reached api ((es ++ post) ++ [e]) e.after := by
      apply reached.snoc
      intro e' member
      rcases List.mem_append.mp member with early | late
      · exact time ▸ later e' early
      · rw [time, Accepted.time, (free e' late).2.2.1]
    refine ⟨e, rfl, fewer, List.append_assoc es post [e] ▸ next, ?_, stored', (frame e).config.trans config⟩
    intro e' member
    rcases List.mem_append.mp member with early | late
    · exact free e' early
    · obtain rfl := List.mem_singleton.mp late
      exact ⟨message, answered, timed, unpaid⟩
  have start : Kept [] s := ⟨by rwa [List.append_nil], by simp, found, rfl⟩
  obtain ⟨post, t, _, ⟨reached', free, stored, _⟩, none, short⟩ :=
    Steps.exhaust (fun t => (t.claimants i).card) lower start
  rw [List.nil_append] at reached' free
  exact ⟨post, t, reached', free, stored, Finset.card_eq_zero.mp none, short⟩

/-! ### The settlement -/

theorem Reached.collection (lawful : api.Lawful) (reached : Reached api es s) (found : s.items.mayLoad i = some item) :
    ∃ collection, api.addrHumanize item.nftContract = .ok collection := by
  obtain ⟨_, _, _, _, _, _, listing, terms⟩ := listed_by reached found
  rw [nftContract_of_terms terms]
  exact lawful.humanize listing.spec.contract

/-- What a settlement needs besides: a platform fee of at most nine tenths, and an answer to the question for
the minter of the collection. -/
structure Settleable (api : Api) (querier : Querier) (s : Storage) (item : ItemInfo) : Prop extends
    Payouts querier s item where
  rate : (platformRate s.config item).atomics ≤ 9 * 10 ^ 17
  asked : ∀ collection, api.addrHumanize item.nftContract = .ok collection →
    ∃ minter, queryMinter ⟨api, querier⟩ collection = .ok minter

theorem Reached.settle (lawful : api.Lawful) (reached : Reached api es s) (found : s.items.mayLoad i = some item)
    (unresolved : item.resolved = false) {querier : Querier} (settleable : Settleable api querier s item) {env : Env}
    (ended : item.endTime ≤ env.blockTime.seconds) (sender : Addr) :
    ∃ w : Accepted api, w.before = s ∧ w.msg = .withdrawNft i ∧ w.Free querier env ∧
      w.after.slice i = (s.slice i).withItem item.settled := by
  obtain ⟨collection, contract⟩ := reached.collection lawful found
  obtain ⟨minter, asked⟩ := settleable.asked collection contract
  have payee : Payee api item := reached.keeps payee_invariant found
  have capped := reached.royaltiesCapped
  have known : ∀ m, minter = some m → ∃ a, api.addrCanonicalize a = .ok m := fun m named =>
    queryMinter_ok (asked.trans (congrArg Except.ok named))
  have rate := settleable.rate
  have splittable : Splittable s.config item (royaltyOf s minter) := {
    rates := fun r due => by
      have fee : r.2.fee.atomics ≤ 10 ^ 17 := (royaltyOf_capped capped known due).1
      unfold decimalFractional
      omega
    platform := by
      unfold decimalFractional
      omega
    charity := fun c given => (payee.charity c given).2.1 }
  obtain ⟨shares, split⟩ := splitBid_succeeds splittable
  have addressed := reached.wellFormed.addressed lawful payee capped known
  have paid : ∃ payouts, salePayouts ⟨api, querier⟩ s item (saleRecipient item) (royaltyOf s minter) shares = .ok payouts :=
    salePayouts_succeeds addressed settleable.answers (splitBid_ok split) (reached.sound found).sold
      fun _ => settleable.fullFits
  obtain ⟨⟨t, r⟩, done⟩ : ∃ p, executeWithdrawNft ⟨api, querier⟩ s env ⟨sender, []⟩ i = .ok p :=
    executeWithdrawNft_succeeds ⟨sender, []⟩ found unresolved ended contract asked split addressed paid
  refine ⟨⟨querier, env, ⟨sender, []⟩, .withdrawNft i, s, t, r, done⟩, rfl, rfl, ⟨rfl, rfl, rfl⟩, ?_⟩
  obtain ⟨stored, _, _, _, _, _, spec, after, _⟩ := executeWithdrawNft_ok done
  obtain rfl := Option.some.inj ((show (s.slice i).item = some item from found).symm.trans spec.stored)
  exact after

/-! ### What remains -/

/-- With nobody left to refund, the deposits are the buyer's, and they are what the sale paid out. -/
theorem Reached.held_of_drained (reached : Reached api es s) (found : s.items.mayLoad i = some item)
    (drained : s.claimants i = ∅) :
    (∀ b, ¬ item.Bound b → (s.totalBid i b).u128 = 0) ∧
      ∑ b ∈ s.bidders i, (s.totalBid i b).u128 = item.proceeds := by
  have empty : ∀ b, ¬ item.Bound b → (s.totalBid i b).u128 = 0 := by
    intro b free
    by_contra positive
    have claims := (mem_claimants found).mpr ⟨free, Nat.pos_of_ne_zero positive⟩
    simp [drained] at claims
  refine ⟨empty, ?_⟩
  have sound : Sound item := reached.sound found
  by_cases back : saleRecipient item = item.creator
  · rw [ItemInfo.proceeds, if_pos back]
    refine Finset.sum_eq_zero fun b _ => empty b fun bound => ?_
    obtain ⟨rfl, outside⟩ := sound.bound_iff.mp bound
    exact outside back
  · have bound : item.Bound (saleRecipient item) := sound.bound_iff.mpr ⟨rfl, back⟩
    have backs := (reached.backed found).2 _ bound
    rw [slice_totalBid] at backs
    rw [ItemInfo.proceeds, if_neg back, ← backs]
    refine Finset.sum_eq_single _ (fun b _ other => empty b fun bound' => ?_) fun absent => ?_
    · exact other (Option.some.inj (bound'.1.symm.trans bound.1))
    · rw [← slice_totalBid, totalBid_of_not_bidder absent]

theorem Reached.escrow_eq (reached : Reached api es s) (i : Nat) :
    escrow i es = ((∑ b ∈ s.bidders i, (s.totalBid i b).u128 : ℕ) : ℤ) -
      (total (Accepted.sale · i) es : ℕ) + (total (Accepted.dust · i) es : ℕ) := by
  obtain ⟨reserve, kept⟩ := reserve_known s i
  have run : EnglishAuction.Reachable reserve False (auction i es s) := reached.simulates kept False.elim
  have balance := EnglishAuction.balanced run
  rw [EnglishAuction.Balanced, held_eq, sale_eq reached] at balance
  have received : (auction i es s).received = total (Accepted.received · i) es := rfl
  have sent : (auction i es s).sent = total (Accepted.sent · i) es := rfl
  have dust : (auction i es s).dust = total (Accepted.dust · i) es := rfl
  rw [received, sent, dust] at balance
  unfold escrow
  omega

/-- From every state in which an auction has ended unsettled, one settlement and one refund for each claimant,
all of which are accepted, pay out all that the auction ever took in but the odd coins of split fees. -/
theorem auction_drains (lawful : api.Lawful) (reached : Reached api es s) (found : s.items.mayLoad i = some item)
    (unresolved : item.resolved = false) {querier : Querier} (settleable : Settleable api querier s item) {env : Env}
    (ended : item.endTime ≤ env.blockTime.seconds) (later : ∀ e ∈ es, e.time ≤ env.blockTime.nanos) (sender : Addr) :
    ∃ w post t, Reached api (es ++ w :: post) t ∧ w.before = s ∧ w.msg = .withdrawNft i ∧
      (∀ e ∈ post, e.msg = .retractBids i) ∧ (∀ e ∈ w :: post, e.Free querier env) ∧
      post.length ≤ (s.claimants i).card ∧ (∀ b, ¬ item.Bound b → (t.totalBid i b).u128 = 0) ∧
      escrow i (es ++ w :: post) = (total (Accepted.dust · i) (es ++ w :: post) : ℕ) := by
  obtain ⟨w, rfl, message, free, after⟩ := reached.settle lawful found unresolved settleable ended sender
  have handled : Reached api (es ++ [w]) w.after := reached.snoc fun e member => by
    rw [show w.time = env.blockTime.nanos from congrArg (fun e => e.blockTime.nanos) free.2.1]
    exact later e member
  have settled : w.after.items.mayLoad i = some item.settled := congrArg Slice.item after
  have claimants : w.after.claimants i = w.before.claimants i := by
    ext b
    rw [mem_claimants settled, mem_claimants found, ← slice_totalBid, after, Slice.withItem_totalBid, slice_totalBid]
    exact Iff.rfl
  have payouts : Payouts querier w.after item.settled := by
    constructor <;> rw [(frame w).config]
    · exact settleable.answers
    · exact settleable.partialFits
    · exact settleable.fullFits
  have stillLater : ∀ e ∈ es ++ [w], e.time ≤ env.blockTime.nanos := by
    intro e member
    rcases List.mem_append.mp member with early | last
    · exact later e early
    · obtain rfl := List.mem_singleton.mp last
      exact (congrArg (fun e => e.blockTime.nanos) free.2.1).le
  obtain ⟨post, t, last, refunds, stored, drained, short⟩ := handled.refundAll lawful settled payouts stillLater
  obtain ⟨empty, held⟩ := last.held_of_drained stored drained
  have sold : total (Accepted.sale · i) (es ++ [w] ++ post) = item.proceeds := by
    have before : total (Accepted.sale · i) es = 0 := reached.unsold (by
      have stored : (w.before.slice i).item = some item := found
      simp [Slice.resolved, stored, unresolved])
    have after : total (Accepted.sale · i) post = 0 :=
      total_eq_zero _ fun e member => sale_of_ne (by simp [(refunds e member).1])
    have here : w.sale i = item.proceeds := (moves_payout message found).sale
    rw [total_append, total_append, total_singleton, before, after, here]
    omega
  have left := last.escrow_eq i
  rw [held, sold, show item.settled.proceeds = item.proceeds from rfl] at left
  rw [List.append_assoc, List.singleton_append] at last left
  refine ⟨w, post, t, last, rfl, message, fun e member => (refunds e member).1, ?_, claimants ▸ short, empty, by omega⟩
  rw [List.forall_mem_cons]
  exact ⟨free, fun e member => (refunds e member).2⟩

end

/-- `bob` has outbid `alice`. The seller settles, and she leaves. -/
theorem auction_drains_outbid :
    ∃ w post t, Reached Demo.api (Demo.outbid.log ++ w :: post) t ∧ w.msg = .withdrawNft 0 ∧
      (∀ e ∈ post, e.msg = .retractBids 0) ∧ post.length ≤ 1 ∧ (t.totalBid 0 Demo.alice).u128 = 0 ∧
      escrow 0 (Demo.outbid.log ++ w :: post) = (total (Accepted.dust · 0) (Demo.outbid.log ++ w :: post) : ℕ) := by
  have found := Demo.outbid.listed_found (i := 0) (by decide)
  have settleable : Settleable Demo.api Demo.querier Demo.outbid.final (Demo.outbid.listed 0 (by decide)) := {
    answers := Demo.answers
    partialFits := by decide
    fullFits := by decide
    rate := by decide
    asked := fun _ _ => ⟨none, rfl⟩ }
  have ended : (Demo.outbid.listed 0 (by decide)).endTime ≤ (Demo.env 2001).blockTime.seconds := by decide
  obtain ⟨w, post, t, drained, _, message, refunds, _, short, empty, spent⟩ := auction_drains Demo.lawful
    Demo.outbid.reached found (by decide) settleable ended (by decide) "seller"
  exact ⟨w, post, t, drained, message, refunds, short.trans (by decide), empty Demo.alice (by decide), spent⟩

end NftMarketplace
