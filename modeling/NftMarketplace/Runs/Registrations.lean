import NftMarketplace.Runs.Accounts
import NftMarketplace.Runs.Replay

/-!
Registrations for private sales. A bid entry of a private sale was made by the one registration of
its bidder, before the bidder's first deposit; any other bid entry carries no SITY.
-/

namespace NftMarketplace
open Cosmwasm Transition

namespace Accepted
variable {api : Api} (e : Accepted api) (i : Nat)

/-- The SITY with which the message registers `b` for auction `i`. -/
def registrationOf (b : CanonicalAddr) : Option Uint128 :=
  match e.msg with
  | .receive wrapper =>
    if wrapper.msg = .ok (.registerPrivateSale i) ∧ api.addrCanonicalize wrapper.sender = .ok b then
      some wrapper.amount
    else none
  | _ => none

/-- The message is a bid or an instant purchase of `b` on auction `i`. -/
def Deposits (b : CanonicalAddr) : Prop := (e.msg = .placeBid i ∨ e.msg = .instantBuy i) ∧ e.sender = some b

def burns : List Uint128 := e.response.messages.filterMap CosmosMsg.burnt

/-- What a message about auction `i` burns. -/
def burned : Nat :=
  if e.msg.auction e.before.state.counterItems = some i then (e.burns.map Uint128.u128).sum else 0

end Accepted

section
variable {api : Api} {es : List (Accepted api)} {e : Accepted api} {s : Storage} {i : Nat} {b : CanonicalAddr}

/-! ### The gate -/

/-- The first thing `b` did on auction `i` is the registration with `amount`, at its price then. -/
def RegisteredFirst (i : Nat) (b : CanonicalAddr) (amount : Uint128) (es : List (Accepted api)) : Prop :=
  ∃ pre r post item, es = pre ++ r :: post ∧ r.registrationOf i b = some amount ∧ (∀ e ∈ pre, ¬ e.Deposits i b) ∧
    r.item i = some item ∧ amount.u128 = sityRequired r.before.config item

theorem RegisteredFirst.later {amount : Uint128} (h : RegisteredFirst i b amount es) :
    RegisteredFirst i b amount (es ++ [e]) := by
  obtain ⟨pre, r, post, item, rfl, rest⟩ := h
  exact ⟨pre, r, post ++ [e], item, by simp, rest⟩

structure Gate (i : Nat) (b : CanonicalAddr) (es : List (Accepted api)) (x : Slice) : Prop where
  absent : x.bid b = none → es.filterMap (·.registrationOf i b) = [] ∧ ∀ e ∈ es, ¬ e.Deposits i b
  present : ∀ bid, x.bid b = some bid → ∃ item, x.item = some item ∧ b ≠ item.creator ∧
    (bid.sityUsed.isSome ↔ item.privateSale = true) ∧
    es.filterMap (·.registrationOf i b) = bid.sityUsed.toList ∧
    ∀ amount, bid.sityUsed = some amount → RegisteredFirst i b amount es

theorem quiet_snoc (quiet : e.registrationOf i b = none) :
    (es ++ [e]).filterMap (·.registrationOf i b) = es.filterMap (·.registrationOf i b) := by
  simp [quiet]

theorem Gate.kept {x y : Slice} (h : Gate i b es x) (quiet : e.registrationOf i b = none)
    (entry : (y.bid b).map BidInfo.sityUsed = (x.bid b).map BidInfo.sityUsed)
    (outside : x.bid b = none → ¬ e.Deposits i b)
    (kept : ∀ item, x.item = some item →
      ∃ item', y.item = some item' ∧ item'.creator = item.creator ∧ item'.privateSale = item.privateSale) :
    Gate i b (es ++ [e]) y where
  absent gone := by
    have before : x.bid b = none := by simpa [gone, eq_comm] using entry
    obtain ⟨registrations, deposits⟩ := h.absent before
    refine ⟨(quiet_snoc quiet).trans registrations, ?_⟩
    intro e' member
    rcases List.mem_append.mp member with old | new
    · exact deposits e' old
    · obtain rfl := List.mem_singleton.mp new
      exact outside before
  present bid stored := by
    rw [stored] at entry
    obtain ⟨old, before, used⟩ := Option.map_eq_some_iff.mp entry.symm
    obtain ⟨item, found, notCreator, gated, once, first⟩ := h.present old before
    obtain ⟨item', found', creator, hidden⟩ := kept item found
    rw [← used]
    refine ⟨item', found', creator ▸ notCreator, hidden ▸ gated, (quiet_snoc quiet).trans once, ?_⟩
    intro amount paid
    exact (first amount paid).later

theorem quiet_of_msg (other : ∀ wrapper, e.msg ≠ .receive wrapper) : e.registrationOf i b = none := by
  unfold Accepted.registrationOf
  cases message : e.msg with
  | receive wrapper => exact (other wrapper message).elim
  | _ => rfl

theorem not_deposits (noBid : e.msg ≠ .placeBid i) (noPurchase : e.msg ≠ .instantBuy i) : ¬ e.Deposits i b := by
  rintro ⟨message | message, _⟩
  · exact noBid message
  · exact noPurchase message

/-- A deposit of `b` itself keeps the gate, and opens an entry without SITY only where the sale is
not private. -/
theorem Gate.deposit {x : Slice} {item item' : ItemInfo} {total : Uint128} {first next : HistoryBidInfo}
    (h : Gate i b es x) (quiet : e.registrationOf i b = none) (stored : x.item = some item)
    (creator : item'.creator = item.creator) (hidden : item'.privateSale = item.privateSale)
    (notCreator : item.creator ≠ b) (registered : item.privateSale = true → (x.bid b).isSome) :
    Gate i b (es ++ [e]) (x.deposit item' b total first next) := by
  cases entry : x.bid b with
  | some bid =>
    apply h.kept quiet
    · simp [Slice.deposit_bid, entry, BidInfo.credited]
    · intro absent
      simp [entry] at absent
    · intro other found
      obtain rfl := Option.some.inj (stored.symm.trans found)
      exact ⟨item', rfl, creator, hidden⟩
  | none =>
    have unhidden : item.privateSale = false := by simpa [entry] using registered
    constructor
    · intro absent
      simp [Slice.deposit_bid] at absent
    · intro bid stored'
      rw [Slice.deposit_bid, if_pos rfl, entry] at stored'
      obtain rfl := Option.some.inj stored'
      refine ⟨item', rfl, ?_, ?_, ?_, ?_⟩
      · rw [creator]
        exact notCreator.symm
      · simp [BidInfo.credited, hidden, unhidden]
      · rw [quiet_snoc quiet, (h.absent entry).1]
        rfl
      · intro amount paid
        simp [BidInfo.credited] at paid

/-- A deposit of anybody keeps the gate of `b`. -/
theorem Gate.deposited {x : Slice} {item item' : ItemInfo} {c : CanonicalAddr} {total : Uint128}
    {first next : HistoryBidInfo} (h : Gate i b es x) (quiet : e.registrationOf i b = none) (sender : e.sender = some c)
    (stored : x.item = some item) (creator : item'.creator = item.creator)
    (hidden : item'.privateSale = item.privateSale) (notCreator : item.creator ≠ c)
    (registered : item.privateSale = true → (x.bid c).isSome) :
    Gate i b (es ++ [e]) (x.deposit item' c total first next) := by
  by_cases here : b = c
  · subst here
    exact h.deposit quiet stored creator hidden notCreator registered
  · apply h.kept quiet
    · rw [Slice.deposit_bid, if_neg here]
    · rintro _ ⟨_, self⟩
      exact here (Option.some.inj (self.symm.trans sender))
    · intro other found
      obtain rfl := Option.some.inj (stored.symm.trans found)
      exact ⟨item', rfl, creator, hidden⟩

theorem registrationOf_other {wrapper : Cw20ReceiveMsg} {c : CanonicalAddr} (message : e.msg = .receive wrapper)
    (sender : api.addrCanonicalize wrapper.sender = .ok c) (other : b ≠ c) : e.registrationOf i b = none := by
  rw [Accepted.registrationOf, message]
  apply if_neg
  rintro ⟨_, read⟩
  exact other (Except.ok.inj (read.symm.trans sender))

theorem quiet_elsewhere (elsewhere : e.msg.auction e.before.state.counterItems ≠ some i) :
    e.registrationOf i b = none := by
  unfold Accepted.registrationOf
  cases message : e.msg with
  | receive wrapper =>
    apply if_neg
    rintro ⟨payload, _⟩
    rw [message, ExecuteMsg.auction, payload] at elsewhere
    exact elsewhere rfl
  | _ => rfl

theorem not_deposits_elsewhere (elsewhere : e.msg.auction e.before.state.counterItems ≠ some i) :
    ¬ e.Deposits i b := by
  apply not_deposits
  · intro message
    rw [message] at elsewhere
    exact elsewhere rfl
  · intro message
    rw [message] at elsewhere
    exact elsewhere rfl

/-- A registration of `b` itself opens its entry, and it is the first thing `b` does. -/
theorem Gate.registered {wrapper : Cw20ReceiveMsg} {item : ItemInfo} (h : Gate i b es (e.before.slice i))
    (message : e.msg = .receive wrapper) (payload : wrapper.msg = .ok (.registerPrivateSale i))
    (spec : Registered api e.before.config e.env (e.before.slice i) wrapper.sender wrapper.amount b item) :
    Gate i b (es ++ [e]) ((e.before.slice i).withBid b (.registered wrapper.amount)) := by
  have registration : e.registrationOf i b = some wrapper.amount := by
    rw [Accepted.registrationOf, message]
    exact if_pos ⟨payload, spec.sender⟩
  obtain ⟨registrations, deposits⟩ := h.absent spec.new
  constructor
  · intro absent
    simp [Slice.withBid_bid] at absent
  · intro bid stored
    rw [Slice.withBid_bid, if_pos rfl] at stored
    obtain rfl := Option.some.inj stored
    refine ⟨item, spec.stored, spec.notCreator.symm, by simp [BidInfo.registered, spec.hidden], ?_, ?_⟩
    · rw [List.filterMap_append, registrations]
      simp [registration, BidInfo.registered]
    · rintro amount ⟨⟩
      exact ⟨es, e, [], item, rfl, registration, deposits, spec.stored, spec.price⟩

theorem Effect.gate (h : Effect e i) (wellFormed : WellFormed api e.before) (b : CanonicalAddr)
    (before : Gate i b es (e.before.slice i)) : Gate i b (es ++ [e]) (e.after.slice i) := by
  have terms (item : ItemInfo) (found : (e.before.slice i).item = some item) :
      ∃ item', (e.after.slice i).item = some item' ∧ item'.creator = item.creator ∧
        item'.privateSale = item.privateSale := by
    obtain ⟨item', found', same, _⟩ := h.same_terms wellFormed found
    exact ⟨item', found', creator_of_terms same, privateSale_of_terms same⟩
  cases h with
  | away elsewhere same =>
    exact before.kept (quiet_elsewhere elsewhere) (by rw [same]) (fun _ => not_deposits_elsewhere elsewhere) terms
  | listed number listing after =>
    have new := wellFormed.unlisted i number.le
    apply before.kept (quiet_of_msg (by simp [listing.message])) (by rw [after]; rfl)
    · intro _
      exact not_deposits (by simp [listing.message]) (by simp [listing.message])
    · intro item found
      exact (ListedBy.new wellFormed number found).elim
  | @registered wrapper c item _ message payload spec after =>
    by_cases here : b = c
    · subst here
      rw [after]
      exact before.registered message payload spec
    · apply before.kept (registrationOf_other message spec.sender here)
      · rw [after, Slice.withBid_bid, if_neg here]
      · intro _
        exact not_deposits (by simp [message]) (by simp [message])
      · exact terms
  | placed message spec after =>
    rw [after]
    exact before.deposited (quiet_of_msg (by simp [message])) (Accepted.sender_ok spec.sender) spec.stored rfl rfl
      spec.notCreator spec.registered
  | bought message spec after =>
    rw [after]
    exact before.deposited (quiet_of_msg (by simp [message])) (Accepted.sender_ok spec.sender) spec.stored rfl rfl
      spec.notCreator spec.registered
  | @retracted c item bid _ _ message spec after =>
    apply before.kept (quiet_of_msg (by simp [message])) _ _ terms
    · rw [after, Slice.withBid_bid]
      split
      · next here =>
        subst here
        rw [spec.entry]
        rfl
      · rfl
    · intro _
      exact not_deposits (by simp [message]) (by simp [message])
  | withdrawn message spec after =>
    apply before.kept (quiet_of_msg (by simp [message])) (by rw [after]; rfl) _ terms
    intro _
    exact not_deposits (by simp [message]) (by simp [message])
  | cancelled message spec after =>
    apply before.kept (quiet_of_msg (by simp [message])) (by rw [after]; rfl) _ terms
    intro _
    exact not_deposits (by simp [message]) (by simp [message])

theorem Reached.gate (reached : Reached api es s) (i : Nat) (b : CanonicalAddr) : Gate i b es (s.slice i) := by
  apply reached.induction (P := fun es s => Gate i b es (s.slice i))
  · intro s fresh
    rw [fresh.slice]
    exact ⟨fun _ => ⟨rfl, by simp⟩, fun _ stored => nomatch stored⟩
  · intro es e before _ ih
    exact (effect e i).gate before.wellFormed b ih

/-! ### Burns -/

theorem burns_nil (e : Accepted api) (other : ∀ wrapper, e.msg ≠ .receive wrapper) : e.burns = [] := by
  unfold Accepted.burns
  cases message : e.msg with
  | placeBid _ | instantBuy _ | updateRoyalty _ _ | receiveNft _ =>
    rw [Accepted.silent (e := e) (by rw [message]; trivial)]
    rfl
  | retractBids i =>
    obtain ⟨_, _, _, _, _, spec, _, _, sends⟩ := Accepted.retracted message
    rw [sends]
    exact spec.filterMap_nil (fun _ _ _ => rfl) fun _ _ _ => rfl
  | withdrawNft i =>
    obtain ⟨item, collection, owner, _, _, payouts, spec, _, _, sends⟩ := Accepted.withdrawn message
    have given : (handOver collection owner item).burnt = none := rfl
    rw [sends, List.filterMap_cons_none given]
    exact salePayouts_filterMap spec.paid (fun _ _ _ => rfl) fun _ _ _ => rfl
  | cancelAuction i =>
    obtain ⟨_, _, msgs, spec, _, _, sends⟩ := Accepted.cancelled message
    rw [sends]
    exact filterMap_transfers (fun _ _ _ => rfl) (cancellationFees_transfers spec.fees)
  | receive wrapper => exact (other wrapper message).elim

theorem burned_zero (other : ∀ wrapper, e.msg ≠ .receive wrapper) : e.burned i = 0 := by
  rw [Accepted.burned, burns_nil e other]
  simp

/-- The SITY of the entry of `b`, zero without one. -/
def Slice.sityUsed (x : Slice) (b : CanonicalAddr) : Nat :=
  (((x.bid b).bind BidInfo.sityUsed).map Uint128.u128).getD 0

def Storage.sityUsed (s : Storage) (i : Nat) (b : CanonicalAddr) : Nat := (s.slice i).sityUsed b

theorem Slice.deposit_sityUsed (x : Slice) (item : ItemInfo) (b c : CanonicalAddr) (total : Uint128)
    (first next : HistoryBidInfo) : (x.deposit item b total first next).sityUsed c = x.sityUsed c := by
  rw [Slice.sityUsed, Slice.deposit_bid]
  split
  · next here =>
    subst here
    cases entry : x.bid c <;> simp [Slice.sityUsed, entry, BidInfo.credited]
  · rfl

theorem Slice.withBid_sityUsed (x : Slice) (b c : CanonicalAddr) (bid : BidInfo) :
    (x.withBid b bid).sityUsed c = if c = b then (bid.sityUsed.map Uint128.u128).getD 0 else x.sityUsed c := by
  rw [Slice.sityUsed, Slice.withBid_bid]
  split <;> rfl

/-- A message burns the SITY that it writes into a new entry. -/
theorem Effect.sityUsed (h : Effect e i) (wellFormed : WellFormed api e.before) :
    (∀ b, e.after.sityUsed i b = e.before.sityUsed i b) ∧ e.burned i = 0 ∨
      ∃ c ∈ e.after.bidders i, ∀ b, e.after.sityUsed i b =
        e.before.sityUsed i b + if b = c then e.burned i else 0 := by
  unfold Storage.sityUsed
  cases h with
  | away elsewhere same => exact Or.inl ⟨fun b => by rw [same], if_neg elsewhere⟩
  | listed number listing after =>
    refine Or.inl ⟨fun b => by rw [after, wellFormed.unlisted i number.le]; rfl, ?_⟩
    exact burned_zero (by simp [listing.message])
  | @registered wrapper c item cw20 message payload spec after burns =>
    right
    have amount : e.burned i = wrapper.amount.u128 := by
      have about : e.msg.auction e.before.state.counterItems = some i := by
        rw [message, ExecuteMsg.auction, payload]
      rw [Accepted.burned, if_pos about, Accepted.burns, burns]
      rfl
    refine ⟨c, ?_, ?_⟩
    · rw [mem_bidders, after, Slice.withBid_bid, if_pos rfl]
      rfl
    · intro b
      rw [after, Slice.withBid_sityUsed, amount]
      split
      · next here =>
        subst here
        simp [BidInfo.registered, Slice.sityUsed, spec.new]
      · rfl
  | placed message _ after =>
    exact Or.inl ⟨fun b => by rw [after]; exact Slice.deposit_sityUsed .., burned_zero (by simp [message])⟩
  | bought message _ after =>
    exact Or.inl ⟨fun b => by rw [after]; exact Slice.deposit_sityUsed .., burned_zero (by simp [message])⟩
  | @retracted c item bid _ _ message spec after =>
    refine Or.inl ⟨?_, burned_zero (by simp [message])⟩
    intro b
    rw [after, Slice.withBid_sityUsed]
    split
    · next here =>
      subst here
      simp [Slice.sityUsed, spec.entry, BidInfo.refunded]
    · rfl
  | withdrawn message _ after => exact Or.inl ⟨fun b => by rw [after]; rfl, burned_zero (by simp [message])⟩
  | cancelled message _ after => exact Or.inl ⟨fun b => by rw [after]; rfl, burned_zero (by simp [message])⟩

theorem sum_sityUsed {F : Finset CanonicalAddr} (covers : s.bidders i ⊆ F) :
    ∑ b ∈ s.bidders i, s.sityUsed i b = ∑ b ∈ F, s.sityUsed i b := by
  apply Finset.sum_subset covers
  intro b _ absent
  rw [mem_bidders, Option.not_isSome_iff_eq_none] at absent
  simp [Storage.sityUsed, Slice.sityUsed, absent]

theorem Reached.burned (reached : Reached api es s) (i : Nat) :
    total (Accepted.burned · i) es = ∑ b ∈ s.bidders i, s.sityUsed i b := by
  apply reached.induction (P := fun es s => total (Accepted.burned · i) es = ∑ b ∈ s.bidders i, s.sityUsed i b)
  · intro s fresh
    simp [Storage.sityUsed, Slice.sityUsed, fresh.slice, Slice.empty]
  · intro es e before _ ih
    have old : e.before.bidders i ⊆ e.before.bidders i ∪ e.after.bidders i := Finset.subset_union_left
    have new : e.after.bidders i ⊆ e.before.bidders i ∪ e.after.bidders i := Finset.subset_union_right
    rw [total_append, total_singleton, ih, sum_sityUsed old, sum_sityUsed new]
    rcases (effect e i).sityUsed before.wellFormed with ⟨same, none⟩ | ⟨c, member, step⟩
    · rw [none, Nat.add_zero]
      exact Finset.sum_congr rfl fun b _ => (same b).symm
    · rw [Finset.sum_congr rfl fun b _ => step b, Finset.sum_add_distrib, Finset.sum_ite_eq',
        if_pos (Finset.mem_union_right _ member)]

theorem private_sale_gate (reached : Reached api es s) (i : Nat) :
    (∀ b bid, s.bids.mayLoad (i, b) = some bid → ∃ item, s.items.mayLoad i = some item ∧ b ≠ item.creator ∧
      (bid.sityUsed.isSome ↔ item.privateSale = true) ∧
      ∀ amount, bid.sityUsed = some amount → es.filterMap (·.registrationOf i b) = [amount] ∧
        ∃ pre r post listed, es = pre ++ r :: post ∧ r.registrationOf i b = some amount ∧
          (∀ e ∈ pre, ¬ e.Deposits i b) ∧ r.before.items.mayLoad i = some listed ∧
          (listed.highestBid = none → amount = r.before.config.sityMinOpening) ∧
          ∀ h, listed.highestBid = some h → amount.u128 =
            r.before.config.sityMinOpening.u128 + scale h.u128 r.before.config.sityFeeRegistration.atomics) ∧
      total (Accepted.burned · i) es = ∑ b ∈ s.bidders i, s.sityUsed i b := by
  refine ⟨?_, reached.burned i⟩
  intro b bid stored
  obtain ⟨item, found, notCreator, gated, once, first⟩ := (reached.gate i b).present bid stored
  refine ⟨item, found, notCreator, gated, ?_⟩
  intro amount paid
  rw [paid] at once
  obtain ⟨pre, r, post, listed, split, registration, deposits, known, price⟩ := first amount paid
  refine ⟨once, pre, r, post, listed, split, registration, deposits, known, ?_, ?_⟩
  · intro unbid
    apply Uint128.ext
    simp [price, sityRequired, unbid]
  · intro h led
    simp [price, sityRequired, led]

end

/-- `alice` registers before there is a bid, `bob` after hers. -/
def Demo.privateSale : Demo.Scenario where
  msg := instantiateMsg
  rate := Decimal.zero
  deliveries := [listing none none none true,
    deliver 1000 "sity" [] (.receive ⟨"alice", amount 1000000, .ok (.registerPrivateSale 0)⟩),
    deliver 1000 "alice" (coins 100) (.placeBid 0),
    deliver 1100 "sity" [] (.receive ⟨"bob", amount 1000002, .ok (.registerPrivateSale 0)⟩),
    deliver 1100 "bob" (coins 200) (.placeBid 0), deliver 1200 "alice" [] (.retractBids 0)]
  accepted := by decide
  order := by decide

theorem private_sale_gate_privateSale :
    Demo.privateSale.log.filterMap (·.registrationOf 0 Demo.bob) = [Demo.amount 1000002] ∧
      total (Accepted.burned · 0) Demo.privateSale.log =
        ∑ b ∈ Demo.privateSale.final.bidders 0, Demo.privateSale.final.sityUsed 0 b := by
  obtain ⟨gate, burned⟩ := private_sale_gate Demo.privateSale.reached 0
  obtain ⟨bid, stored⟩ := Option.isSome_iff_exists.mp
    (show (Demo.privateSale.final.bids.mayLoad (0, Demo.bob)).isSome by decide)
  have used : (Demo.privateSale.final.bids.mayLoad (0, Demo.bob)).bind BidInfo.sityUsed =
      some (Demo.amount 1000002) := by decide
  rw [stored] at used
  obtain ⟨_, _, _, _, registered⟩ := gate Demo.bob bid stored
  exact ⟨(registered (Demo.amount 1000002) used).1, burned⟩

end NftMarketplace
