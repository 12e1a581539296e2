import NftMarketplace.Runs.Sales

/-!
Where royalties go. An update without an address announces its sender, and an older record keeps
the recipient it has; a sale pays the recipient of the record.
-/

namespace NftMarketplace
open Cosmwasm Outcome

/-- The recipient of the royalties of `m`: its own address until its record names one. -/
def Storage.royaltyTo (s : Storage) (m : CanonicalAddr) : CanonicalAddr :=
  ((s.royalty.mayLoad m).bind RoyaltyInfo.recipient).getD m

/-- The minter whose royalty a message sets. -/
def Accepted.royaltyMinter {api : Api} (e : Accepted api) : Option CanonicalAddr :=
  match e.msg with
  | .updateRoyalty _ _ => e.sender
  | _ => none

/-- The address that an update by `m` gives. -/
def Accepted.named {api : Api} (e : Accepted api) (m : CanonicalAddr) : Option CanonicalAddr :=
  match e.msg with
  | .updateRoyalty _ (some address) =>
    if e.sender = some m then (royaltyRecipient e.deps m (some address)).toOption else none
  | _ => none

/-- The last address that the updates by `m` gave, `m` itself where they gave none. -/
def lastNamed {api : Api} (m : CanonicalAddr) (es : List (Accepted api)) : CanonicalAddr :=
  (es.filterMap (Accepted.named · m)).getLast?.getD m

section
variable {api : Api} {es : List (Accepted api)} {e : Accepted api} {s : Storage} {m : CanonicalAddr} {i : Nat}
  {item : ItemInfo}

/-! ### The record of a minter -/

theorem lastNamed_snoc : lastNamed m (es ++ [e]) = (e.named m).getD (lastNamed m es) := by
  unfold lastNamed
  rw [List.filterMap_append]
  cases named : e.named m <;> simp [named]

theorem named_of_other (other : e.royaltyMinter ≠ some m) : e.named m = none := by
  unfold Accepted.named
  split
  · next message =>
    rw [Accepted.royaltyMinter, message] at other
    exact if_neg other
  · rfl

theorem record_kept (other : e.royaltyMinter ≠ some m) :
    e.after.royalty.mayLoad m = e.before.royalty.mayLoad m := by
  by_cases updates : ∃ fee recipient, e.msg = .updateRoyalty fee recipient
  · obtain ⟨fee, recipient, message⟩ := updates
    obtain ⟨minter, terms, spec, after, _⟩ := Accepted.royalty message
    rw [Accepted.royaltyMinter, message] at other
    have different : m ≠ minter := by
      rintro rfl
      exact other (Accepted.sender_ok spec.sender)
    rw [after]
    exact FiniteMap.mayLoad_save_other _ _ different
  · rw [royalty_kept fun fee recipient message => updates ⟨fee, recipient, message⟩]

/-- What an update by `m` announces. -/
structure Announces (u : Accepted api) (m : CanonicalAddr) (fee : Decimal) (recipient : Addr) : Prop where
  message : ∃ given, u.msg = .updateRoyalty fee given
  sender : u.sender = some m
  rate : ("royalty_fee", fee.toString) ∈ u.response.attributes
  recipient : ("recipient", recipient) ∈ u.response.attributes

theorem named_of_set {fee : Decimal} {recipient : Option String} {minter setRecipient : CanonicalAddr} {announced : Addr}
    {terms : RoyaltyInfo} (message : e.msg = .updateRoyalty fee recipient)
    (spec : RoyaltySet e.deps e.info e.before.royalty fee recipient minter setRecipient announced terms) :
    e.named minter = recipient.map fun _ => setRecipient := by
  rw [Accepted.named, message]
  cases recipient with
  | none => rfl
  | some address =>
    have sender : e.sender = some minter := Accepted.sender_ok spec.sender
    dsimp only
    rw [if_pos sender, spec.chosen]
    rfl

/-- An update by `m` writes the announced rate. It announces the address that it gives, or `m`; it writes
that address, or leaves the one that was there. -/
theorem Announces.written {fee : Decimal} {recipient : Addr} (h : Announces e m fee recipient) :
    (∃ terms, e.after.royalty.mayLoad m = some terms ∧ terms.fee = fee) ∧
      e.after.royaltyTo m = (e.named m).getD (e.before.royaltyTo m) ∧
      api.addrHumanize ((e.named m).getD m) = .ok recipient := by
  obtain ⟨given, message⟩ := h.message
  obtain ⟨minter, setRecipient, announced, terms, spec, after, response⟩ := Accepted.royaltySet message
  obtain rfl : minter = m := Option.some.inj ((Accepted.sender_ok spec.sender).symm.trans h.sender)
  have stored : e.after.royalty.mayLoad minter = some terms := by
    rw [after]
    exact FiniteMap.mayLoad_save_self _ _ _
  have recipientIs : recipient = announced := by
    have announces := h.recipient
    rw [response] at announces
    simpa using announces
  have named := named_of_set message spec
  refine ⟨⟨terms, stored, spec.rate⟩, ?_, ?_⟩
  · rw [Storage.royaltyTo, stored, named]
    exact spec.stores_named
  · rw [named, ← spec.announces_named, recipientIs]
    exact spec.announced

theorem announces_of_update (updates : e.royaltyMinter = some m) : ∃ fee recipient, Announces e m fee recipient := by
  unfold Accepted.royaltyMinter at updates
  split at updates
  · next fee given message =>
    obtain ⟨_, _, announced, _, _, _, response⟩ := Accepted.royaltySet message
    exact ⟨fee, announced, ⟨given, message⟩, updates, by simp [response], by simp [response]⟩
  · cases updates

theorem royaltyTo_step (e : Accepted api) (m : CanonicalAddr) :
    e.after.royaltyTo m = (e.named m).getD (e.before.royaltyTo m) := by
  by_cases updates : e.royaltyMinter = some m
  · obtain ⟨_, _, announces⟩ := announces_of_update updates
    exact announces.written.2.1
  · rw [named_of_other updates, Storage.royaltyTo, record_kept updates]
    rfl

theorem Reached.royaltyTo (reached : Reached api es s) (m : CanonicalAddr) : s.royaltyTo m = lastNamed m es := by
  apply reached.induction (P := fun es s => s.royaltyTo m = lastNamed m es)
  · intro s fresh
    rw [Storage.royaltyTo, fresh.royalty]
    rfl
  · intro es e _ _ before
    rw [royaltyTo_step, before, lastNamed_snoc]

theorem Reached.royaltyOf_eq (reached : Reached api es s) {terms : RoyaltyInfo} (found : s.royalty.mayLoad m = some terms) :
    royaltyOf s (some m) = some (lastNamed m es, terms) := by
  have recipient := reached.royaltyTo m
  rw [Storage.royaltyTo, found] at recipient
  rw [← recipient, royaltyOf, Option.map_some, found]
  rfl

theorem lastNamed_kept {mid : List (Accepted api)} (others : ∀ e ∈ mid, e.royaltyMinter ≠ some m) :
    lastNamed m (es ++ mid) = lastNamed m es := by
  have unnamed : mid.filterMap (Accepted.named · m) = [] :=
    List.filterMap_eq_nil_iff.mpr fun e member => named_of_other (others e member)
  rw [lastNamed, List.filterMap_append, unnamed, List.append_nil]
  rfl

theorem record_kept_run {a b : Storage} {mid : List (Accepted api)} (run : Run a mid b)
    (others : ∀ e ∈ mid, e.royaltyMinter ≠ some m) : b.royalty.mayLoad m = a.royalty.mayLoad m := by
  induction run with
  | nil => rfl
  | snoc e _ ih =>
    rw [record_kept (others e (by simp)), ih fun e' member => others e' (by simp [member])]

/-! ### The payment -/

/-- The transfers of `e` are those of a sale that owes `recipient` the royalty `floor (price * fee)`. -/
def Accepted.PaysRoyalty (e : Accepted api) (item : ItemInfo) (fee : Decimal) (recipient : Addr) : Prop :=
  ∃ raw, api.addrHumanize raw = .ok recipient ∧
    List.Forall₂ (Settles api) ((dues e.before.config item (some (raw, ⟨raw, fee, some raw⟩))).filter (0 < ·.2)) e.paid

theorem settles_unique (lawful : api.Lawful) : Relator.LeftUnique (Settles api) := by
  rintro ⟨raw, n⟩ ⟨raw', n'⟩ send ⟨read, amount⟩ ⟨read', amount'⟩
  obtain rfl : raw = raw' :=
    Except.ok.inj ((lawful.canonicalize read).symm.trans (lawful.canonicalize read'))
  obtain rfl : n = n' := amount.trans amount'.symm
  rfl

theorem Accepted.PaysRoyalty.sent {fee : Decimal} {recipient : Addr} (pays : e.PaysRoyalty item fee recipient)
    (due : 0 < scale item.price fee.atomics) : (recipient, scale item.price fee.atomics) ∈ e.paid := by
  obtain ⟨raw, read, paid⟩ := pays
  have owed : (raw, scale item.price fee.atomics) ∈
      (dues e.before.config item (some (raw, ⟨raw, fee, some raw⟩))).filter (0 < ·.2) := by
    simp [dues, royaltyAmount, due]
  obtain ⟨n, here, at_n⟩ := List.getElem_of_mem owed
  have there : n < e.paid.length := paid.length_eq ▸ here
  obtain ⟨read', amount⟩ := paid.get here there
  rw [List.get_eq_getElem, at_n] at read' amount
  have send : (recipient, scale item.price fee.atomics) = e.paid.get ⟨n, there⟩ :=
    Prod.ext (Except.ok.inj (read.symm.trans read')) amount
  rw [send]
  exact List.get_mem _ _

/-- Two recipients of one royalty are owed alike only where the royalty is zero. -/
theorem dues_same_iff (config : Config) {raw raw' : CanonicalAddr} (terms terms' : RoyaltyInfo)
    (rate : terms.fee = terms'.fee) :
    (dues config item (some (raw, terms))).filter (0 < ·.2) = (dues config item (some (raw', terms'))).filter (0 < ·.2) ↔
      raw = raw' ∨ scale item.price terms.fee.atomics = 0 := by
  simp only [dues, royaltyAmount, Option.map_some, Option.getD_some, ← rate, List.filter_append, List.append_assoc,
    List.append_cancel_left_eq, List.append_cancel_right_eq, Option.toList_some]
  by_cases zero : scale item.price terms.fee.atomics = 0
  · simp [zero]
  · simp [zero, Nat.pos_of_ne_zero zero]

/-- A sale after the last update of the minter owes the announced rate to the address last named. -/
theorem Reached.owes {pre mid : List (Accepted api)} {u w : Accepted api} {fee : Decimal} {recipient : Addr}
    (reached : Reached api (pre ++ u :: mid) w.before) (announces : Announces u m fee recipient)
    (last : ∀ e ∈ mid, e.royaltyMinter ≠ some m) :
    ∃ terms, terms.fee = fee ∧
      royaltyOf w.before (some m) = some ((u.named m).getD (lastNamed m pre), terms) := by
  obtain ⟨⟨terms, stored, rate⟩, _, _⟩ := announces.written
  have log : pre ++ u :: mid = (pre ++ [u]) ++ mid := by simp
  obtain ⟨s, _, run⟩ := reached.run
  have kept : w.before.royalty.mayLoad m = some terms := by
    rw [record_kept_run run.split_at.2 last, stored]
  refine ⟨terms, rate, ?_⟩
  rw [reached.royaltyOf_eq kept, log, lastNamed_kept last, lastNamed_snoc]

/-- A sale sends the announced royalty to the announced recipient exactly when the update gave an address,
when the minter never gave another one than its own before, or when no royalty is due. -/
theorem announced_royalty_paid_iff (lawful : api.Lawful) {pre mid : List (Accepted api)} {u w : Accepted api}
    {fee : Decimal} {recipient : Addr} (reached : Reached api (pre ++ u :: mid) w.before)
    (announces : Announces u m fee recipient) (last : ∀ e ∈ mid, e.royaltyMinter ≠ some m)
    (message : w.msg = .withdrawNft i) (found : w.item i = some item) (sold : saleRecipient item ≠ item.creator)
    {collection : Addr} (contract : api.addrHumanize item.nftContract = .ok collection)
    (minter : queryMinter w.deps collection = .ok (some m)) :
    w.PaysRoyalty item fee recipient ↔
      (u.named m).isSome ∨ lastNamed m pre = m ∨ item.price * fee.atomics < decimalFractional := by
  obtain ⟨terms, rate, owed⟩ := reached.owes announces last
  have shares := (reached.delivered found message contract minter).shares sold
  rw [owed] at shares
  have human := announces.written.2.2
  have pays : w.PaysRoyalty item fee recipient ↔
      (u.named m).getD m = (u.named m).getD (lastNamed m pre) ∨ scale item.price fee.atomics = 0 := by
    rw [← dues_same_iff w.before.config ⟨(u.named m).getD m, fee, some ((u.named m).getD m)⟩ terms rate.symm]
    constructor
    · intro paid
      obtain ⟨raw, read, paid⟩ := paid
      obtain rfl : raw = (u.named m).getD m :=
        Except.ok.inj ((lawful.canonicalize read).symm.trans (lawful.canonicalize human))
      exact List.left_unique_forall₂' (settles_unique lawful) paid shares
    · intro same
      exact ⟨_, human, same ▸ shares⟩
  have due : scale item.price fee.atomics = 0 ↔ item.price * fee.atomics < decimalFractional := by
    rw [← not_iff_not, ← ne_eq, ← Nat.pos_iff_ne_zero, scale_pos, not_lt]
  rw [pays, due]
  cases named : u.named m with
  | none => simp [eq_comm]
  | some raw => simp

end

namespace Demo

/-- `seller` lists a token and `bob` bids 1000, both after `alice` set royalties. -/
def soldAfter (updates : List Delivery) : List Delivery :=
  updates ++ [listing none none none false, deliver 1100 "bob" (coins 1000) (.placeBid 0)]

/-- `alice` names `market` first and gives no address the second time. -/
def renamed : Scenario where
  msg := instantiateMsg
  rate := Decimal.zero
  deliveries := soldAfter [deliver 1000 "alice" [] (.updateRoyalty (percent 10) (some "market")),
    deliver 1000 "alice" [] (.updateRoyalty (percent 10) none)]
  accepted := by decide
  order := by decide

def unnamed : Scenario where
  msg := instantiateMsg
  rate := Decimal.zero
  deliveries := soldAfter [deliver 1000 "alice" [] (.updateRoyalty (percent 10) none)]
  accepted := by decide
  order := by decide

def mintedSettlement : Delivery := { deliver 2001 "seller" [] (.withdrawNft 0) with querier := minting }

end Demo

/-- The second update announces `alice`, and the royalty of the sale goes to `market`. -/
theorem announced_royalty_diverted :
    ∃ (pre mid : List (Accepted Demo.api)) (u w : Accepted Demo.api) (item : ItemInfo),
      Reached Demo.api (pre ++ u :: mid) w.before ∧ Announces u Demo.alice (Demo.percent 10) "alice" ∧
      (∀ e ∈ mid, e.royaltyMinter ≠ some Demo.alice) ∧ w.msg = .withdrawNft 0 ∧ w.item 0 = some item ∧
      saleRecipient item ≠ item.creator ∧ Demo.api.addrHumanize item.nftContract = .ok "market" ∧
      queryMinter w.deps "market" = .ok (some Demo.alice) ∧
      w.paid = [("seller", 850), ("market", 100), ("platform", 50)] ∧
      ¬ w.PaysRoyalty item (Demo.percent 10) "alice" := by
  have found := Demo.renamed.listed_found (i := 0) (by decide)
  let w := Demo.renamed.next Demo.mintedSettlement (by decide)
  have final : w.before = Demo.renamed.final := Demo.renamed.next_before _ _
  have reached := Demo.renamed.reached_at 1 (by decide)
  have paid : w.paid = [("seller", 850), ("market", 100), ("platform", 50)] := by decide
  refine ⟨_, _, _, w, _, final ▸ reached, ⟨⟨none, by decide⟩, by decide, by decide, by decide⟩, by decide, by decide,
    (congrArg (fun s => s.items.mayLoad 0) final).trans found, by decide, by decide, by decide, paid, ?_⟩
  intro pays
  have sent := pays.sent (by decide)
  rw [paid] at sent
  revert sent
  decide

theorem announced_royalty_paid_unnamed :
    ∃ w : Accepted Demo.api, w.before = Demo.unnamed.final ∧ w.msg = .withdrawNft 0 ∧
      ∃ item, w.item 0 = some item ∧ w.PaysRoyalty item (Demo.percent 10) "alice" := by
  have found := Demo.unnamed.listed_found (i := 0) (by decide)
  let w := Demo.unnamed.next Demo.mintedSettlement (by decide)
  have final : w.before = Demo.unnamed.final := Demo.unnamed.next_before _ _
  have reached := Demo.unnamed.reached_at 0 (by decide)
  have listed : w.item 0 = some _ := (congrArg (fun s => s.items.mayLoad 0) final).trans found
  have announces : Announces (Demo.unnamed.log.get ⟨0, by decide⟩) Demo.alice (Demo.percent 10) "alice" :=
    ⟨⟨none, by decide⟩, by decide, by decide, by decide⟩
  have contract : Demo.api.addrHumanize (Demo.unnamed.listed 0 (by decide)).nftContract = .ok "market" := by decide
  have minter : queryMinter w.deps "market" = .ok (some Demo.alice) := by decide
  refine ⟨w, final, by decide, _, listed, ?_⟩
  apply (announced_royalty_paid_iff Demo.lawful (final ▸ reached) announces (by decide) (i := 0) (by decide) listed
    (by decide) contract minter).mpr
  exact Or.inr (Or.inl (by decide))

end NftMarketplace
