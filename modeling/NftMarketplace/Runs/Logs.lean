import NftMarketplace.Runs.Items
import NftMarketplace.Runs.Replay

/-!
The bid logs of an auction: its own, and one for each bidder. They hold the same entries, the
counters count them, and the last entry is the highest bid.
-/

namespace NftMarketplace
open Cosmwasm

namespace Slice
variable (x : Slice)

def entries : List HistoryBidInfo := (x.log.map HistoryInfo.bids).getD []

def entriesOf (b : CanonicalAddr) : List HistoryBidInfo := ((x.bidderLog b).map HistoryInfo.bids).getD []

def bidCounter (b : CanonicalAddr) : Nat := ((x.bid b).map BidInfo.bidCounter).getD 0

theorem push_bids (log : Option HistoryInfo) {first next : HistoryBidInfo} (same : log = none → first = next) :
    (HistoryInfo.push log first next).bids = (log.map HistoryInfo.bids).getD [] ++ [next] := by
  cases log with
  | none => simp [HistoryInfo.push, same rfl]
  | some log => rfl

theorem deposit_entries {item : ItemInfo} {b : CanonicalAddr} {total : Uint128} {first next : HistoryBidInfo}
    (same : x.log = none → first = next) : (x.deposit item b total first next).entries = x.entries ++ [next] := by
  simp [entries, push_bids x.log same]

theorem deposit_entries_length {item : ItemInfo} {b : CanonicalAddr} {total : Uint128} {first next : HistoryBidInfo} :
    (x.deposit item b total first next).entries.length = x.entries.length + 1 := by
  rw [entries, deposit_log, entries]
  cases x.log with
  | none => rfl
  | some log => simp [HistoryInfo.push]

theorem deposit_entriesOf {item : ItemInfo} {b : CanonicalAddr} {total : Uint128} {first next : HistoryBidInfo}
    (c : CanonicalAddr) : (x.deposit item b total first next).entriesOf c =
      if c = b then x.entriesOf b ++ [next] else x.entriesOf c := by
  by_cases here : c = b
  · subst here
    simp [entriesOf, deposit, push_bids (x.bidderLog c) fun _ => rfl]
  · simp [entriesOf, deposit, here]

theorem deposit_bidCounter {item : ItemInfo} {b : CanonicalAddr} {total : Uint128} {first next : HistoryBidInfo}
    (c : CanonicalAddr) : (x.deposit item b total first next).bidCounter c =
      if c = b then x.bidCounter b + 1 else x.bidCounter c := by
  by_cases here : c = b
  · subst here
    simp only [bidCounter, deposit, Function.update_self, BidInfo.credited]
    cases x.bid c <;> simp
  · simp [bidCounter, deposit, here]

@[simp] theorem withItem_entries (item : ItemInfo) : (x.withItem item).entries = x.entries := rfl

@[simp] theorem withItem_entriesOf (item : ItemInfo) (b : CanonicalAddr) :
    (x.withItem item).entriesOf b = x.entriesOf b := rfl

@[simp] theorem withItem_bidCounter (item : ItemInfo) (b : CanonicalAddr) :
    (x.withItem item).bidCounter b = x.bidCounter b := rfl

@[simp] theorem withBid_entries (b : CanonicalAddr) (bid : BidInfo) : (x.withBid b bid).entries = x.entries := rfl

@[simp] theorem withBid_entriesOf (b c : CanonicalAddr) (bid : BidInfo) :
    (x.withBid b bid).entriesOf c = x.entriesOf c := rfl

theorem withBid_bidCounter (b c : CanonicalAddr) (bid : BidInfo) :
    (x.withBid b bid).bidCounter c = if c = b then bid.bidCounter else x.bidCounter c := by
  by_cases here : c = b
  · subst here
    simp [bidCounter, withBid]
  · simp [bidCounter, withBid, here]

end Slice

section
variable {api : Api} {es : List (Accepted api)} {e : Accepted api} {s : Storage} {i : Nat}

/-! ### The logs agree -/

def WasCancelled (i : Nat) (es : List (Accepted api)) : Prop := ∃ e ∈ es, e.msg = .cancelAuction i

/-- The log, the bidders' logs, the counters and the highest bid of one auction belong together. -/
structure LogsAgree (i : Nat) (es : List (Accepted api)) (x : Slice) : Prop where
  perBidder : ∀ b, x.entries.filter (·.bidder = b) = x.entriesOf b
  counted : ∀ b, (x.entriesOf b).length = x.bidCounter b
  totalBids : ∀ item, x.item = some item → x.entries.length = item.totalBids
  last : ∀ item entry, x.item = some item → x.entries.getLast? = some entry →
    item.highestBid = some entry.amount ∧
      (item.highestBidder = some entry.bidder ∨ item.highestBidder = none ∧ WasCancelled i es)
  unbid : ∀ item, x.item = some item → (item.highestBid = none ↔ x.entries = [])
  /-- Nobody has a deposit in an auction that has no log yet. -/
  unlogged : x.log = none → ∀ b, x.totalBid b = 0

theorem logsAgree_empty : LogsAgree i es Slice.empty where
  perBidder _ := rfl
  counted _ := rfl
  totalBids _ h := nomatch h
  last _ _ h := nomatch h
  unbid _ h := nomatch h
  unlogged _ _ := rfl

theorem WasCancelled.snoc (h : WasCancelled i es) : WasCancelled i (es ++ [e]) := by
  obtain ⟨e', member, message⟩ := h
  exact ⟨e', by simp [member], message⟩

theorem LogsAgree.later {x : Slice} (h : LogsAgree i es x) : LogsAgree i (es ++ [e]) x :=
  { h with last := fun item entry found final =>
      (h.last item entry found final).imp_right (Or.imp_right (And.imp_right WasCancelled.snoc)) }

theorem LogsAgree.deposit {x : Slice} {item item' : ItemInfo} {b : CanonicalAddr} {total : Uint128}
    {first next : HistoryBidInfo} (h : LogsAgree i es x) (stored : x.item = some item)
    (same : x.log = none → first = next) (bidder : next.bidder = b) (amount : next.amount = total)
    (count : item'.totalBids = item.totalBids + 1) (bid : item'.highestBid = some total)
    (lead : item'.highestBidder = some b) : LogsAgree i es (x.deposit item' b total first next) where
  perBidder c := by
    rw [Slice.deposit_entries x same, Slice.deposit_entriesOf, List.filter_append, h.perBidder]
    by_cases here : c = b
    · subst here
      simp [bidder]
    · simp [bidder, here, Ne.symm here]
  counted c := by
    rw [Slice.deposit_entriesOf, Slice.deposit_bidCounter]
    split
    · rw [List.length_append, h.counted]
      rfl
    · exact h.counted c
  totalBids other found := by
    obtain rfl := Option.some.inj found
    rw [Slice.deposit_entries x same, List.length_append, h.totalBids item stored, count]
    rfl
  last other entry found final := by
    obtain rfl := Option.some.inj found
    rw [Slice.deposit_entries x same, List.getLast?_concat] at final
    obtain rfl := Option.some.inj final
    exact ⟨by rw [bid, amount], Or.inl (by rw [lead, bidder])⟩
  unbid other found := by
    obtain rfl := Option.some.inj found
    simp [bid, Slice.deposit_entries x same]
  unlogged absent := by simp at absent

theorem LogsAgree.withItem {x : Slice} {item item' : ItemInfo} (h : LogsAgree i es x) (stored : x.item = some item)
    (count : item'.totalBids = item.totalBids) (bid : item'.highestBid = item.highestBid)
    (lead : item'.highestBidder = item.highestBidder ∨ item'.highestBidder = none ∧ WasCancelled i es) :
    LogsAgree i es (x.withItem item') where
  perBidder := h.perBidder
  counted := h.counted
  totalBids other found := by
    obtain rfl := Option.some.inj found
    rw [count]
    exact h.totalBids item stored
  last other entry found final := by
    obtain rfl := Option.some.inj found
    obtain ⟨amount, bidder⟩ := h.last item entry stored final
    refine ⟨bid.trans amount, ?_⟩
    rcases lead with same | taken
    · rw [same]
      exact bidder
    · exact Or.inr taken
  unbid other found := by
    obtain rfl := Option.some.inj found
    rw [bid]
    exact h.unbid item stored
  unlogged := h.unlogged

theorem LogsAgree.withBid {x : Slice} {b : CanonicalAddr} {bid : BidInfo} (h : LogsAgree i es x)
    (count : bid.bidCounter = x.bidCounter b) (nothing : bid.totalBid.u128 = 0) :
    LogsAgree i es (x.withBid b bid) where
  perBidder := h.perBidder
  counted c := by
    rw [Slice.withBid_bidCounter]
    split
    · next here =>
      subst here
      rw [count]
      exact h.counted c
    · exact h.counted c
  totalBids := h.totalBids
  last := h.last
  unbid := h.unbid
  unlogged absent c := by
    rw [Slice.withBid_totalBid]
    split
    · exact nothing
    · exact h.unlogged absent c

theorem Effect.logsAgree (h : Effect e i) (wellFormed : WellFormed api e.before)
    (before : LogsAgree i es (e.before.slice i)) : LogsAgree i (es ++ [e]) (e.after.slice i) := by
  have before : LogsAgree i (es ++ [e]) (e.before.slice i) := before.later
  cases h with
  | away _ same => rwa [same]
  | listed number listing after =>
    rw [after, wellFormed.unlisted i number.le]
    have empty : LogsAgree i (es ++ [e]) Slice.empty := logsAgree_empty
    exact { empty with
      totalBids := fun item found => by
        obtain rfl := Option.some.inj found
        exact listing.spec.unlogged.symm
      last := fun _ _ _ final => nomatch final
      unbid := fun item found => by
        obtain rfl := Option.some.inj found
        exact ⟨fun _ => rfl, fun _ => listing.spec.unbid⟩ }
  | registered _ _ spec after =>
    rw [after]
    exact before.withBid (by simp [BidInfo.registered, Slice.bidCounter, spec.new]) rfl
  | placed _ spec after =>
    rw [after]
    exact before.deposit spec.stored (fun _ => rfl) rfl rfl rfl rfl rfl
  | @bought b item sent price _ spec after =>
    rw [after]
    refine before.deposit spec.stored ?_ rfl rfl rfl rfl rfl
    intro absent
    rw [spec.whole (before.unlogged absent b)]
  | retracted _ spec after =>
    rw [after]
    exact before.withBid (by simp [BidInfo.refunded, Slice.bidCounter, spec.entry]) rfl
  | withdrawn _ spec after =>
    rw [after]
    exact before.withItem spec.stored rfl rfl (Or.inl rfl)
  | cancelled message spec after =>
    rw [after]
    exact before.withItem spec.stored rfl rfl (Or.inr ⟨rfl, e, by simp, message⟩)

theorem Reached.logsAgree (reached : Reached api es s) (i : Nat) : LogsAgree i es (s.slice i) := by
  apply reached.induction (P := fun es s => LogsAgree i es (s.slice i))
  · intro s fresh
    rw [fresh.slice]
    exact logsAgree_empty
  · intro es e before _ ih
    exact (effect e i).logsAgree before.wellFormed ih

/-- `HISTORIES` of auction `i`, an absent log read as empty. -/
def Storage.history (s : Storage) (i : Nat) : List HistoryBidInfo :=
  ((s.histories.mayLoad i).map HistoryInfo.bids).getD []

def Storage.historyBidder (s : Storage) (i : Nat) (b : CanonicalAddr) : List HistoryBidInfo :=
  ((s.historiesBidder.mayLoad (i, b)).map HistoryInfo.bids).getD []

def Storage.bidCounter (s : Storage) (i : Nat) (b : CanonicalAddr) : Nat :=
  ((s.bids.mayLoad (i, b)).map BidInfo.bidCounter).getD 0

theorem logs_agree (reached : Reached api es s) (i : Nat) :
    (∀ b, (s.history i).filter (·.bidder = b) = s.historyBidder i b ∧
        (s.historyBidder i b).length = s.bidCounter i b) ∧
      ∀ item, s.items.mayLoad i = some item →
        (s.history i).length = item.totalBids ∧
        (∀ entry, (s.history i).getLast? = some entry → item.highestBid = some entry.amount ∧
          (item.highestBidder = some entry.bidder ∨ item.highestBidder = none ∧ WasCancelled i es)) ∧
        (item.highestBid = none ↔ s.history i = []) := by
  have agree := reached.logsAgree i
  exact ⟨fun b => ⟨agree.perBidder b, agree.counted b⟩, fun item found =>
    ⟨agree.totalBids item found, fun entry final => agree.last item entry found final, agree.unbid item found⟩⟩

theorem logs_agree_soldToBob :
    (Demo.soldToBob.final.history 0).filter (·.bidder = Demo.bob) = Demo.soldToBob.final.historyBidder 0 Demo.bob ∧
      (Demo.soldToBob.final.historyBidder 0 Demo.bob).length = Demo.soldToBob.final.bidCounter 0 Demo.bob ∧
      Demo.soldToBob.final.bidCounter 0 Demo.bob = 1 :=
  have bids := (logs_agree Demo.soldToBob.reached 0).1 Demo.bob
  ⟨bids.1, bids.2, by decide⟩

/-! ### The log as a record of the run -/

/-- The entry that a message adds to the log of auction `i`. -/
def Accepted.entry (e : Accepted api) (i : Nat) : Option HistoryBidInfo :=
  if e.msg = .placeBid i ∨ e.msg = .instantBuy i then do
    let bidder ← e.sender
    let item ← e.after.items.mayLoad i
    let amount ← item.highestBid
    return { bidder, amount, time := e.now, instantBuy := decide (e.msg = .instantBuy i) }
  else none

theorem entry_quiet (noBid : e.msg ≠ .placeBid i) (noPurchase : e.msg ≠ .instantBuy i) : e.entry i = none := by
  apply if_neg
  intro deposits
  rcases deposits with bids | buys
  · exact noBid bids
  · exact noPurchase buys

theorem entry_placed {b : CanonicalAddr} {item : ItemInfo} {sent total : Uint128} (message : e.msg = .placeBid i)
    (spec : Placed api e.before.config e.env e.info (e.before.slice i) b item sent total)
    (after : e.after.slice i = (e.before.slice i).afterBid e.env b item total) :
    e.entry i = some (bidEntry e.env b total false) := by
  have found : e.after.items.mayLoad i = some (item.afterBid e.env.blockTime b total) := congrArg Slice.item after
  simp only [Accepted.entry, message, true_or, if_true, Accepted.sender_ok spec.sender, found]
  rfl

theorem entry_bought {b : CanonicalAddr} {item : ItemInfo} {sent price : Uint128} (message : e.msg = .instantBuy i)
    (spec : Bought api e.before.config e.env e.info (e.before.slice i) b item sent price)
    (after : e.after.slice i = (e.before.slice i).afterPurchase e.env b item sent price) :
    e.entry i = some (bidEntry e.env b price true) := by
  have found : e.after.items.mayLoad i = some (item.afterPurchase e.env.blockTime b price) := congrArg Slice.item after
  simp only [Accepted.entry, message, or_true, if_true, Accepted.sender_ok spec.sender, found]
  simp [ItemInfo.afterPurchase, bidEntry, Accepted.now]

/-- An entry is the mark of an accepted bid or of an accepted instant purchase. -/
theorem entry_cases {entry : HistoryBidInfo} (logged : e.entry i = some entry) :
    (∃ b item sent total, e.msg = .placeBid i ∧
        Placed api e.before.config e.env e.info (e.before.slice i) b item sent total ∧
        e.after.slice i = (e.before.slice i).afterBid e.env b item total ∧ entry = bidEntry e.env b total false) ∨
      ∃ b item sent price, e.msg = .instantBuy i ∧
        Bought api e.before.config e.env e.info (e.before.slice i) b item sent price ∧
        e.after.slice i = (e.before.slice i).afterPurchase e.env b item sent price ∧
        entry = bidEntry e.env b price true := by
  by_cases bids : e.msg = .placeBid i
  · obtain ⟨b, item, sent, total, spec, after, _, _⟩ := Accepted.placed bids
    rw [entry_placed bids spec after] at logged
    exact Or.inl ⟨b, item, sent, total, bids, spec, after, (Option.some.inj logged).symm⟩
  by_cases buys : e.msg = .instantBuy i
  · obtain ⟨b, item, sent, price, spec, after, _, _⟩ := Accepted.bought buys
    rw [entry_bought buys spec after] at logged
    exact Or.inr ⟨b, item, sent, price, buys, spec, after, (Option.some.inj logged).symm⟩
  · rw [entry_quiet bids buys] at logged
    cases logged

/-- An entry is about the highest bid that its message leaves. -/
theorem entry_amount {entry : HistoryBidInfo} (logged : e.entry i = some entry) :
    (e.after.slice i).highestBid = some entry.amount.u128 := by
  rcases entry_cases logged with ⟨_, _, _, _, _, _, after, rfl⟩ | ⟨_, _, _, _, _, _, after, rfl⟩ <;>
    rw [after] <;> rfl

theorem Effect.entries (h : Effect e i) (agree : LogsAgree i es (e.before.slice i)) :
    (e.after.slice i).entries = (e.before.slice i).entries ++ (e.entry i).toList := by
  have quiet (noBid : e.msg ≠ .placeBid i) (noPurchase : e.msg ≠ .instantBuy i)
      (same : (e.after.slice i).entries = (e.before.slice i).entries) :
      (e.after.slice i).entries = (e.before.slice i).entries ++ (e.entry i).toList := by
    rw [entry_quiet noBid noPurchase, same, Option.toList_none, List.append_nil]
  cases h with
  | away elsewhere same =>
    apply quiet
    · intro message
      exact elsewhere (by rw [message]; rfl)
    · intro message
      exact elsewhere (by rw [message]; rfl)
    · rw [same]
  | listed _ listing after => exact quiet (by simp [listing.message]) (by simp [listing.message]) (by rw [after]; rfl)
  | registered message _ _ after => exact quiet (by simp [message]) (by simp [message]) (by rw [after]; rfl)
  | placed message spec after =>
    rw [entry_placed message spec after, after]
    exact Slice.deposit_entries _ fun _ => rfl
  | @bought b _ _ _ message spec after =>
    rw [entry_bought message spec after, after]
    apply Slice.deposit_entries
    intro absent
    rw [spec.whole (agree.unlogged absent b)]
  | retracted message _ after => exact quiet (by simp [message]) (by simp [message]) (by rw [after]; rfl)
  | withdrawn message _ after => exact quiet (by simp [message]) (by simp [message]) (by rw [after]; rfl)
  | cancelled message _ after => exact quiet (by simp [message]) (by simp [message]) (by rw [after]; rfl)

/-- The log of an auction is the record of the deposits of the run, in their order. -/
theorem Reached.entries_eq (reached : Reached api es s) (i : Nat) :
    (s.slice i).entries = es.filterMap (·.entry i) := by
  apply reached.induction (P := fun es s => (s.slice i).entries = es.filterMap (·.entry i))
  · intro s fresh
    rw [fresh.slice]
    rfl
  · intro es e before _ ih
    rw [(effect e i).entries (before.logsAgree i), ih, List.filterMap_append]
    cases added : e.entry i <;> simp [added]

theorem Reached.highestBid_logged (reached : Reached api es s) {h : Nat} (bid : (s.slice i).highestBid = some h) :
    ∃ entry ∈ (s.slice i).entries, entry.amount.u128 = h := by
  obtain ⟨item, found, price⟩ := Option.bind_eq_some_iff.mp bid
  obtain ⟨highestBid, present, rfl⟩ := Option.map_eq_some_iff.mp price
  have agree := reached.logsAgree i
  have logged : (s.slice i).entries ≠ [] := by
    intro empty
    rw [(agree.unbid item found).mpr empty] at present
    cases present
  have final := List.getLast?_eq_some_getLast logged
  obtain ⟨same, _⟩ := agree.last item _ found final
  rw [present] at same
  exact ⟨_, List.getLast_mem logged, congrArg Uint128.u128 (Option.some.inj same).symm⟩

/-- No entry of a log is above the highest bid. -/
theorem Reached.entry_le (reached : Reached api es s) {entry : HistoryBidInfo} (logged : entry ∈ (s.slice i).entries) :
    ∃ h, (s.slice i).highestBid = some h ∧ entry.amount.u128 ≤ h := by
  have below : ∀ entry ∈ (s.slice i).entries, entry.amount.u128 ≤ (s.slice i).highestBid.getD 0 := by
    apply reached.induction (P := fun _ s =>
      ∀ entry ∈ (s.slice i).entries, entry.amount.u128 ≤ (s.slice i).highestBid.getD 0)
    · intro s fresh entry member
      rw [fresh.slice] at member
      cases member
    · intro es e reached _ ih entry member
      have grows := (effect e i).price_le reached.wellFormed fun item found => reached.sound found
      rw [(effect e i).entries (reached.logsAgree i), List.mem_append] at member
      rcases member with old | new
      · exact (ih entry old).trans grows
      · rw [entry_amount (Option.mem_toList.mp new), Option.getD_some]
  cases bid : (s.slice i).highestBid with
  | some h =>
    have le := below entry logged
    rw [bid, Option.getD_some] at le
    exact ⟨h, rfl, le⟩
  | none =>
    exfalso
    by_cases listed : i < s.state.counterItems
    · obtain ⟨item, found⟩ := Option.isSome_iff_exists.mp (reached.wellFormed.listed i listed)
      have unbid : item.highestBid = none := by simpa [Slice.highestBid, found] using bid
      rw [((reached.logsAgree i).unbid item found).mp unbid] at logged
      cases logged
    · rw [reached.wellFormed.unlisted i (Nat.le_of_not_lt listed)] at logged
      cases logged

/-! ### The counters -/

theorem Effect.entries_le (h : Effect e i) :
    (e.after.slice i).entries.length ≤ (e.before.slice i).entries.length + 1 := by
  cases h with
  | away _ same => rw [same]; omega
  | listed _ _ after => rw [after, Slice.withItem_entries]; omega
  | registered _ _ _ after => rw [after, Slice.withBid_entries]; omega
  | placed _ _ after => rw [after, Slice.afterBid, Slice.deposit_entries_length]
  | bought _ _ after => rw [after, Slice.afterPurchase, Slice.deposit_entries_length]
  | retracted _ _ after => rw [after, Slice.withBid_entries]; omega
  | withdrawn _ _ after => rw [after, Slice.withItem_entries]; omega
  | cancelled _ _ after => rw [after, Slice.withItem_entries]; omega

theorem Reached.entries_le (reached : Reached api es s) (i : Nat) : (s.slice i).entries.length ≤ es.length := by
  apply reached.induction (P := fun es s => (s.slice i).entries.length ≤ es.length)
  · intro s fresh
    rw [fresh.slice]
    rfl
  · intro es e _ _ ih
    have step := (effect e i).entries_le
    rw [List.length_append, List.length_singleton]
    omega

/-- The counters are 64-bit numbers in the contract. None exceeds the number of accepted messages, so
none wraps in a run of fewer than `2 ^ 64` messages. -/
theorem counters_le (reached : Reached api es s) :
    s.state.counterItems ≤ es.length ∧
      ∀ i, (∀ item, s.items.mayLoad i = some item → item.totalBids ≤ es.length) ∧
        ∀ b, s.bidCounter i b ≤ es.length := by
  constructor
  · apply reached.induction (P := fun es s => s.state.counterItems ≤ es.length)
    · intro s fresh
      rw [fresh.counter]
      exact Nat.zero_le _
    · intro es e _ _ ih
      have step := (frame e).counter
      have atMost := listings_le_one e.msg
      rw [List.length_append, List.length_singleton]
      omega
  · intro i
    have agree := reached.logsAgree i
    have short := reached.entries_le i
    constructor
    · intro item found
      rw [← agree.totalBids item found]
      exact short
    · intro b
      show (s.slice i).bidCounter b ≤ es.length
      rw [← agree.counted, ← agree.perBidder]
      exact (List.length_filter_le _ _).trans short

end

end NftMarketplace
