import NftMarketplace.Runs.Authority
import NftMarketplace.Runs.Logs
import NftMarketplace.Runs.Queries

/-!
What the queries show of a run. The bids shown for an auction are the accepted bids and purchases in
their order, the queries about them agree with each other, and the terms shown for a minter are the
terms on which a sale pays.
-/

namespace NftMarketplace
open Cosmwasm Outcome

section
variable {api : Api} {es : List (Accepted api)} {e : Accepted api} {s : Storage} {querier : Querier} {env : Env}
  {i : Nat} {b : CanonicalAddr}

/-! ### The bids -/

/-- A bid as it is shown, under the readable form of its bidder. -/
structure Shows (api : Api) (entry : HistoryBidInfo) (r : HistoryBidResponse) : Prop where
  bidder : api.addrHumanize entry.bidder = .ok r.bidder
  amount : r.amount = entry.amount
  time : r.time = entry.time
  instantBuy : r.instantBuy = entry.instantBuy

theorem historyBid_of_shows {entry : HistoryBidInfo} {r : HistoryBidResponse} (shows : Shows api entry r) :
    historyBid ⟨api, querier⟩ entry = .ok r := by
  rw [historyBid, bind_of_ok (unwrap_ok.mpr shows.bidder), ← shows.amount, ← shows.time, ← shows.instantBuy]
  rfl

theorem historyBids_of_shown {log : Option HistoryInfo} {shown : List HistoryBidResponse}
    (each : List.Forall₂ (Shows api) ((log.map HistoryInfo.bids).getD []) shown) :
    historyBids ⟨api, querier⟩ log = .ok shown := by
  cases log with
  | none =>
    obtain rfl := List.forall₂_nil_left_iff.mp each
    rfl
  | some history => exact mapM_of_forall₂ (each.imp fun _ _ => historyBid_of_shows)

/-- Whoever is in a log sent a message. -/
theorem Reached.bidder_known (reached : Reached api es s) {entry : HistoryBidInfo} (logged : entry ∈ s.history i) :
    ∃ a, api.addrCanonicalize a = .ok entry.bidder := by
  rw [show s.history i = es.filterMap (·.entry i) from reached.entries_eq i, List.mem_filterMap] at logged
  obtain ⟨e, _, added⟩ := logged
  rcases entry_cases added with ⟨_, _, _, _, _, spec, _, rfl⟩ | ⟨_, _, _, _, _, spec, _, rfl⟩
  · exact ⟨_, spec.sender⟩
  · exact ⟨_, spec.sender⟩

theorem Reached.history_shown (reached : Reached api es s) (lawful : api.Lawful) (i : Nat) :
    ∃ shown, List.Forall₂ (Shows api) (s.history i) shown := by
  have each : ∀ entry ∈ s.history i, ∃ r, Shows api entry r := by
    intro entry logged
    obtain ⟨_, known⟩ := reached.bidder_known logged
    obtain ⟨bidder, read⟩ := lawful.humanize known
    exact ⟨⟨bidder, entry.amount, entry.time, entry.instantBuy⟩, read, rfl, rfl, rfl⟩
  generalize s.history i = log at each
  induction log with
  | nil => exact ⟨[], .nil⟩
  | cons entry log ih =>
    obtain ⟨r, shows⟩ := each entry List.mem_cons_self
    obtain ⟨shown, rest⟩ := ih fun entry' member => each entry' (List.mem_cons_of_mem entry member)
    exact ⟨r :: shown, .cons shows rest⟩

/-- The bids under an address that stands for `b`. -/
def bidsOf (api : Api) (b : CanonicalAddr) (shown : List HistoryBidResponse) : List HistoryBidResponse :=
  shown.filter fun r => api.addrCanonicalize r.bidder = .ok b

theorem shown_of_bidder (lawful : api.Lawful) {log : List HistoryBidInfo} {shown : List HistoryBidResponse}
    (each : List.Forall₂ (Shows api) log shown) (b : CanonicalAddr) :
    List.Forall₂ (Shows api) (log.filter (·.bidder = b)) (bidsOf api b shown) := by
  refine List.rel_filter ?_ each
  intro entry r shows
  have read := lawful.canonicalize shows.bidder
  simp only [decide_eq_true_eq, read, Except.ok.injEq]

theorem queryBids_of_shown {shown : List HistoryBidResponse} (each : List.Forall₂ (Shows api) (s.history i) shown) :
    queryBids ⟨api, querier⟩ s env i = .ok ⟨shown⟩ := by
  rw [queryBids, bind_of_ok (historyBids_of_shown each)]
  rfl

theorem queryBidderBids_of_shown {address : String} {shown : List HistoryBidResponse}
    (read : api.addrCanonicalize address = .ok b) (own : List.Forall₂ (Shows api) (s.historyBidder i b) shown) :
    queryBidderBids ⟨api, querier⟩ s env i address = .ok ⟨shown⟩ := by
  rw [queryBidderBids, bind_of_ok (propagate_ok.mpr read), bind_of_ok (historyBids_of_shown own)]
  rfl

theorem Reached.bidder_shown (reached : Reached api es s) (lawful : api.Lawful) {shown : List HistoryBidResponse}
    (each : List.Forall₂ (Shows api) (s.history i) shown) (b : CanonicalAddr) :
    List.Forall₂ (Shows api) (s.historyBidder i b) (bidsOf api b shown) := by
  have same : (s.history i).filter (·.bidder = b) = s.historyBidder i b := (reached.logsAgree i).perBidder b
  exact same ▸ shown_of_bidder lawful each b

theorem last_shown {log : List HistoryBidInfo} {shown : List HistoryBidResponse} {r : HistoryBidResponse}
    (each : List.Forall₂ (Shows api) log shown) (final : shown.getLast? = some r) :
    ∃ entry, log.getLast? = some entry ∧ Shows api entry r := by
  obtain ⟨init, rfl⟩ := List.getLast?_eq_some_iff.mp final
  rw [← List.forall₂_reverse_iff, List.reverse_append, List.reverse_singleton, List.singleton_append,
    List.forall₂_cons_right_iff] at each
  obtain ⟨entry, rest, shows, _, reversed⟩ := each
  refine ⟨entry, ?_, shows⟩
  rw [List.getLast?_eq_head?_reverse, reversed, List.head?_cons]

theorem queryBidder_eq {address : String} (read : api.addrCanonicalize address = .ok b) :
    ∃ bid, queryBidder ⟨api, querier⟩ s env i address = .ok bid ∧ bid.bidCounter = s.bidCounter i b ∧
      bid.totalBid = s.totalBid i b := by
  rw [queryBidder, bind_of_ok (propagate_ok.mpr read)]
  cases entry : s.bids.mayLoad (i, b) with
  | none => exact ⟨_, rfl, by simp [Storage.bidCounter, entry], by simp [Storage.totalBid, entry]⟩
  | some bid => exact ⟨_, rfl, by simp [Storage.bidCounter, entry], by simp [Storage.totalBid, entry]⟩

theorem queryAuction_ok {deps : Deps} {r : AuctionResponse} (shown : queryAuction deps s env i = .ok r) :
    ∃ item, s.items.mayLoad i = some item ∧ humanBidder deps item.highestBidder = .ok r.highestBidder ∧
      r.totalBids = item.totalBids ∧ r.highestBid = item.highestBid := by
  obtain ⟨item, stored, shown⟩ := bind_ok shown
  obtain ⟨highestBidder, bidder, shown⟩ := bind_ok shown
  obtain ⟨_, _, shown⟩ := bind_ok shown
  obtain ⟨_, _, shown⟩ := bind_ok shown
  obtain ⟨_, _, shown⟩ := bind_ok shown
  obtain rfl := pure_ok.mp shown
  exact ⟨item, FiniteMap.load_ok.mp (propagate_ok.mp stored), bidder, rfl, rfl⟩

/-- The leader is shown under the name of the last bid, or gone after a cancellation. -/
theorem leader_shown {entry : HistoryBidInfo} {final : HistoryBidResponse} {lead : Option CanonicalAddr}
    {name : Option String} (shows : Shows api entry final)
    (leads : lead = some entry.bidder ∨ lead = none ∧ WasCancelled i es)
    (read : humanBidder ⟨api, querier⟩ lead = .ok name) :
    name = some final.bidder ∨ name = none ∧ WasCancelled i es := by
  rcases leads with rfl | ⟨rfl, cancelled⟩
  · obtain ⟨human, same, rest⟩ := bind_ok read
    obtain rfl := Except.ok.inj (shows.bidder.symm.trans (propagate_ok.mp same))
    exact Or.inl (pure_ok.mp rest).symm
  · exact Or.inr ⟨(Except.ok.inj read).symm, cancelled⟩

/-- The queries about the bids of an auction agree. Its history is the accepted bids and purchases of the
run; a bidder's history, its counter and the counter of the auction belong to that history, whose last bid
is the highest; and what is shown as a bidder's total is what a refund pays. -/
theorem bid_queries_agree (lawful : api.Lawful) (reached : Reached api es s) (querier : Querier) (env : Env) (i : Nat) :
    ∃ shown, queryBids ⟨api, querier⟩ s env i = .ok ⟨shown⟩ ∧
      List.Forall₂ (Shows api) (es.filterMap (·.entry i)) shown ∧
      (∀ address b, api.addrCanonicalize address = .ok b →
        queryBidderBids ⟨api, querier⟩ s env i address = .ok ⟨bidsOf api b shown⟩ ∧
        ∃ bid, queryBidder ⟨api, querier⟩ s env i address = .ok bid ∧ bid.bidCounter = (bidsOf api b shown).length ∧
          ∀ e : Accepted api, e.before = s → e.msg = .retractBids i → e.sender = some b →
            e.response.gross = bid.totalBid.u128) ∧
      ∀ r, queryAuction ⟨api, querier⟩ s env i = .ok r →
        r.totalBids = shown.length ∧ (r.highestBid = none ↔ shown = []) ∧
          ∀ final, shown.getLast? = some final → r.highestBid = some final.amount ∧
            (r.highestBidder = some final.bidder ∨ r.highestBidder = none ∧ WasCancelled i es) := by
  obtain ⟨shown, each⟩ := reached.history_shown lawful i
  have agree := reached.logsAgree i
  have length := each.length_eq
  refine ⟨shown, queryBids_of_shown each, reached.entries_eq i ▸ each, ?_, ?_⟩
  · intro address b read
    have own := reached.bidder_shown lawful each b
    obtain ⟨bid, asked, counter, deposit⟩ := queryBidder_eq (s := s) (i := i) read
    refine ⟨queryBidderBids_of_shown read own, bid, asked, ?_, ?_⟩
    · rw [counter, ← own.length_eq]
      exact (agree.counted b).symm
    · rintro e rfl message sender
      rw [refund_gross message sender, deposit]
  · intro r asked
    obtain ⟨item, found, bidder, total, highest⟩ := queryAuction_ok asked
    refine ⟨?_, ?_, ?_⟩
    · rw [total, ← length]
      exact (agree.totalBids item found).symm
    · rw [highest, agree.unbid item found, ← List.length_eq_zero_iff, ← List.length_eq_zero_iff, ← length]
      rfl
    · intro final last
      obtain ⟨entry, logged, shows⟩ := last_shown each last
      obtain ⟨amount, leads⟩ := agree.last item entry found logged
      exact ⟨by rw [highest, amount, shows.amount], leader_shown shows leads bidder⟩

/-! ### Royalty terms -/

/-- The rate that an update by `m` sets. -/
def Accepted.rated (e : Accepted api) (m : CanonicalAddr) : Option Decimal :=
  match e.msg with
  | .updateRoyalty fee _ => if e.sender = some m then some fee else none
  | _ => none

/-- The last rate that `m` set, the default where it set none. -/
def lastRate (m : CanonicalAddr) (es : List (Accepted api)) : Decimal :=
  (es.filterMap (Accepted.rated · m)).getLast?.getD defaultRoyaltyFee

def Storage.royaltyRate (s : Storage) (m : CanonicalAddr) : Decimal :=
  ((s.royalty.mayLoad m).map RoyaltyInfo.fee).getD defaultRoyaltyFee

variable {m : CanonicalAddr}

theorem lastRate_snoc : lastRate m (es ++ [e]) = (e.rated m).getD (lastRate m es) := by
  unfold lastRate
  rw [List.filterMap_append]
  cases rated : e.rated m <;> simp [rated]

theorem royaltyRate_step (e : Accepted api) (m : CanonicalAddr) :
    e.after.royaltyRate m = (e.rated m).getD (e.before.royaltyRate m) := by
  by_cases updates : e.royaltyMinter = some m
  · obtain ⟨fee, _, announces⟩ := announces_of_update updates
    obtain ⟨given, message⟩ := announces.message
    obtain ⟨⟨terms, stored, rate⟩, _⟩ := announces.written
    have rated : e.rated m = some fee := by rw [Accepted.rated, message]; exact if_pos announces.sender
    rw [rated, Storage.royaltyRate, stored, ← rate]
    rfl
  · have unrated : e.rated m = none := by
      unfold Accepted.rated
      split
      · next message =>
        rw [Accepted.royaltyMinter, message] at updates
        exact if_neg updates
      · rfl
    rw [unrated, Storage.royaltyRate, record_kept updates]
    rfl

theorem Reached.royaltyRate (reached : Reached api es s) (m : CanonicalAddr) : s.royaltyRate m = lastRate m es := by
  apply reached.induction (P := fun es s => s.royaltyRate m = lastRate m es)
  · intro s fresh
    rw [Storage.royaltyRate, fresh.royalty]
    rfl
  · intro es e _ _ before
    rw [royaltyRate_step, before, lastRate_snoc]

/-- An entry belongs to the minter it is stored under. -/
def Owned (royalty : FiniteMap CanonicalAddr RoyaltyInfo) : Prop :=
  ∀ m terms, royalty.mayLoad m = some terms → terms.creator = m

theorem writeRoyalty_owned {royalty written : FiniteMap CanonicalAddr RoyaltyInfo} {fee : Decimal}
    {recipient : Option String} {setRecipient : CanonicalAddr} (owned : Owned royalty)
    (h : writeRoyalty royalty m fee recipient setRecipient = .ok written) : Owned written := by
  have saved {terms : RoyaltyInfo} (creator : terms.creator = m) : Owned (royalty.save m terms) := by
    intro m' terms' found
    rw [FiniteMap.mayLoad_save] at found
    split at found
    · next same => rw [same, ← creator, Option.some.inj found]
    · exact owned m' terms' found
  unfold writeRoyalty at h
  split at h
  · obtain rfl := Except.ok.inj h
    exact saved rfl
  · next terms found =>
    rw [FiniteMap.update_ok, found] at h
    obtain ⟨stored, updated, rfl⟩ := h
    obtain rfl := pure_ok.mp updated
    exact saved (owned m terms found)

theorem owned_step (e : Accepted api) (before : Owned e.before.royalty) : Owned e.after.royalty := by
  by_cases updates : ∃ fee recipient, e.msg = .updateRoyalty fee recipient
  · obtain ⟨fee, recipient, message⟩ := updates
    have accepted := e.accepted
    rw [message] at accepted
    change executeUpdateRoyalty e.deps e.before e.env e.info fee recipient = _ at accepted
    obtain ⟨_, _, accepted⟩ := bind_ok accepted
    obtain ⟨_, _, accepted⟩ := bind_ok accepted
    obtain ⟨_, _, accepted⟩ := bind_ok accepted
    obtain ⟨royalty, written, accepted⟩ := bind_ok accepted
    obtain ⟨_, _, accepted⟩ := bind_ok accepted
    rw [← (Prod.mk.inj (pure_ok.mp accepted)).1]
    exact writeRoyalty_owned before written
  · rwa [royalty_kept fun fee recipient message => updates ⟨fee, recipient, message⟩]

theorem Reached.owned (reached : Reached api es s) : Owned s.royalty := by
  apply reached.induction (P := fun _ s => Owned s.royalty)
  · intro s fresh m terms found
    rw [fresh.royalty] at found
    cases found
  · intro es e _ _ before
    exact owned_step e before

/-- The record that a sale and the query read alike, with the default for a minter without one. -/
theorem royaltyOf_terms (s : Storage) (m : CanonicalAddr) :
    ∃ terms, royaltyOf s (some m) = some (s.royaltyTo m, terms) ∧ terms.fee = s.royaltyRate m := by
  cases found : s.royalty.mayLoad m with
  | none => exact ⟨⟨m, defaultRoyaltyFee, none⟩, by simp [royaltyOf, Storage.royaltyTo, found],
      by simp [Storage.royaltyRate, found]⟩
  | some terms => exact ⟨terms, by simp [royaltyOf, Storage.royaltyTo, found], by simp [Storage.royaltyRate, found]⟩

theorem humanRecipient_succeeds (lawful : api.Lawful) (querier : Querier) (m : CanonicalAddr)
    {recipient : Option CanonicalAddr} (known : ∀ raw, recipient = some raw → ∃ a, api.addrCanonicalize a = .ok raw) :
    ∃ name, humanRecipient ⟨api, querier⟩ recipient = .ok name ∧
      ∀ creator, api.addrHumanize m = .ok creator → api.addrHumanize (recipient.getD m) = .ok (name.getD creator) := by
  cases recipient with
  | none => exact ⟨none, rfl, fun _ human => human⟩
  | some raw =>
    obtain ⟨_, canonical⟩ := known raw rfl
    obtain ⟨name, read⟩ := lawful.humanize canonical
    exact ⟨some name, bind_of_ok (propagate_ok.mpr read) _, fun _ _ => read⟩

theorem Reached.royalty_shown (reached : Reached api es s) (lawful : api.Lawful) {address : String}
    (read : api.addrCanonicalize address = .ok m) (querier : Querier) (env : Env) :
    ∃ r, queryRoyalty ⟨api, querier⟩ s env address = .ok r ∧ api.addrHumanize m = .ok r.creator ∧
      r.fee = s.royaltyRate m ∧ api.addrHumanize (s.royaltyTo m) = .ok (r.recipient.getD r.creator) := by
  obtain ⟨creator, human⟩ := lawful.humanize read
  have shown {terms : RoyaltyInfo} (record : (s.royalty.mayLoad m).getD ⟨m, defaultRoyaltyFee, none⟩ = terms)
      (owned : terms.creator = m) (rate : terms.fee = s.royaltyRate m) (named : terms.recipient.getD m = s.royaltyTo m)
      (known : ∀ raw, terms.recipient = some raw → ∃ a, api.addrCanonicalize a = .ok raw) :
      ∃ r, queryRoyalty ⟨api, querier⟩ s env address = .ok r ∧ api.addrHumanize m = .ok r.creator ∧
        r.fee = s.royaltyRate m ∧ api.addrHumanize (s.royaltyTo m) = .ok (r.recipient.getD r.creator) := by
    obtain ⟨name, recipient, names⟩ := humanRecipient_succeeds lawful querier m known
    refine ⟨⟨creator, terms.fee, name⟩, ?_, human, rate, named ▸ names creator human⟩
    rw [queryRoyalty, bind_of_ok (propagate_ok.mpr read), record, bind_of_ok recipient, owned]
    exact bind_of_ok (propagate_ok.mpr human) _
  cases found : s.royalty.mayLoad m with
  | none =>
    have record : (s.royalty.mayLoad m).getD ⟨m, defaultRoyaltyFee, none⟩ = ⟨m, defaultRoyaltyFee, none⟩ := by
      rw [found, Option.getD_none]
    exact shown record rfl (by simp [Storage.royaltyRate, found]) (by simp [Storage.royaltyTo, found])
      fun _ named => nomatch named
  | some terms =>
    have record : (s.royalty.mayLoad m).getD ⟨m, defaultRoyaltyFee, none⟩ = terms := by rw [found, Option.getD_some]
    exact shown record (reached.owned m terms found) (by simp [Storage.royaltyRate, found])
      (by simp [Storage.royaltyTo, found]) (reached.royaltiesCapped m terms found).2

/-- The terms shown for a minter are the rate it set last and the address it named last, and a sale of its
token pays on these terms. -/
theorem royalty_foretold (lawful : api.Lawful) (reached : Reached api es s) {address : String}
    (read : api.addrCanonicalize address = .ok m) (querier : Querier) (env : Env) :
    ∃ r, queryRoyalty ⟨api, querier⟩ s env address = .ok r ∧ api.addrHumanize m = .ok r.creator ∧
      r.fee = lastRate m es ∧ api.addrHumanize (lastNamed m es) = .ok (r.recipient.getD r.creator) ∧
      ∀ (w : Accepted api) i item collection, w.before = s → w.msg = .withdrawNft i → w.item i = some item →
        saleRecipient item ≠ item.creator → api.addrHumanize item.nftContract = .ok collection →
        queryMinter w.deps collection = .ok (some m) → w.PaysRoyalty item r.fee (r.recipient.getD r.creator) := by
  obtain ⟨r, asked, creator, fee, recipient⟩ := reached.royalty_shown lawful read querier env
  refine ⟨r, asked, creator, fee.trans (reached.royaltyRate m), reached.royaltyTo m ▸ recipient, ?_⟩
  rintro w i item collection rfl message found sold contract minter
  obtain ⟨terms, due, rate⟩ := royaltyOf_terms w.before m
  have shares := (reached.delivered found message contract minter).shares sold
  rw [due] at shares
  refine ⟨w.before.royaltyTo m, recipient, ?_⟩
  rwa [(dues_same_iff w.before.config _ terms (fee.trans rate.symm)).mpr (Or.inl rfl)]

/-! ### Every query -/

/-- The address that a query is about. -/
def QueryMsg.address : QueryMsg → Option String
  | .bidder _ address | .historyBidderBids _ address | .royalty address => some address
  | .auction _ | .historyBids _ | .config | .state | .allAuctions _ _ => none

theorem Reached.entry_shown (reached : Reached api es s) (lawful : api.Lawful) (env : Env) (small : s.state.counterItems < 2 ^ 64)
    {item : ItemInfo} (found : s.items.mayLoad i = some item) :
    ∃ auction, auctionEntry ⟨api, querier⟩ (toBeBytes i, item) = .ok auction := by
  have listed := reached.wellFormed.stored_iff.mp ⟨item, found⟩
  obtain ⟨r, shown⟩ := reached.shown lawful querier env listed
  exact ⟨(i, r), auctionEntry_of_queryAuction found (lt_trans listed small) shown⟩

theorem Reached.page_shown {range : ItemRange} (reached : Reached api es s) (lawful : api.Lawful) (visits : range.Lawful)
    (env : Env) (small : s.state.counterItems < 2 ^ 64) (startAfter limit : Option Nat) :
    ∃ r, queryAllAuctions range ⟨api, querier⟩ s startAfter limit = .ok r := by
  have each : ∀ pair ∈ (range s.items (startAfter.map toBeBytes)).take (min (limit.getD DEFAULT_LIMIT) MAX_LIMIT),
      ∃ auction, auctionEntry ⟨api, querier⟩ pair = .ok auction := by
    rintro ⟨key, item⟩ member
    have visited := (visits.member s.items _ (reached.wellFormed.keys_lt small.le) key item).mp
      (List.mem_of_mem_take member)
    obtain ⟨⟨i, rfl, found⟩, _⟩ := visited
    exact reached.entry_shown lawful env small found
  choose! entry read using each
  exact bind_succeeds _ (mapM_of_ok read) ⟨_, rfl⟩

/-- Every query of a reachable state has an answer, except that an auction which was never listed is not found and
an address which is none is refused with the reason that the chain gives. -/
theorem queries_answered {range : ItemRange} (lawful : api.Lawful) (visits : range.Lawful) (reached : Reached api es s)
    (small : s.state.counterItems < 2 ^ 64) (querier : Querier) (env : Env) (msg : QueryMsg) :
    (∃ r, query range ⟨api, querier⟩ s env msg = .ok r) ∨
      (∃ i, msg = .auction i ∧ s.state.counterItems ≤ i ∧
        query range ⟨api, querier⟩ s env msg = .error (.err (.genericErr "Not found"))) ∨
      ∃ address reason, msg.address = some address ∧ api.addrCanonicalize address = .error reason ∧
        query range ⟨api, querier⟩ s env msg = .error (.err reason) := by
  have human {raw : CanonicalAddr} (known : ∃ a, api.addrCanonicalize a = .ok raw) :
      ∃ a, propagate (api.addrHumanize raw) = .ok a := by
    obtain ⟨_, read⟩ := known
    obtain ⟨a, read⟩ := lawful.humanize read
    exact ⟨a, propagate_ok.mpr read⟩
  cases msg with
  | auction i =>
    by_cases listed : i < s.state.counterItems
    · exact Or.inl (map_succeeds (reached.shown lawful querier env listed) _)
    · refine Or.inr (Or.inl ⟨i, rfl, Nat.le_of_not_lt listed, ?_⟩)
      have absent : s.items.mayLoad i = none :=
        congrArg Slice.item (reached.wellFormed.unlisted i (Nat.le_of_not_lt listed))
      rw [query, queryAuction, FiniteMap.load, absent]
      rfl
  | bidder i address =>
    cases read : api.addrCanonicalize address with
    | ok b =>
      obtain ⟨bid, asked, _⟩ := queryBidder_eq read
      exact Or.inl (map_succeeds ⟨bid, asked⟩ _)
    | error reason =>
      refine Or.inr (Or.inr ⟨address, reason, rfl, read, ?_⟩)
      rw [query, queryBidder, read]
      rfl
  | historyBids i =>
    obtain ⟨shown, each⟩ := reached.history_shown lawful i
    exact Or.inl (map_succeeds ⟨_, queryBids_of_shown each⟩ _)
  | historyBidderBids i address =>
    cases read : api.addrCanonicalize address with
    | ok b =>
      obtain ⟨shown, each⟩ := reached.history_shown lawful i
      exact Or.inl (map_succeeds ⟨_, queryBidderBids_of_shown read (reached.bidder_shown lawful each b)⟩ _)
    | error reason =>
      refine Or.inr (Or.inr ⟨address, reason, rfl, read, ?_⟩)
      rw [query, queryBidderBids, read]
      rfl
  | config =>
    obtain ⟨lotaContract, read⟩ := human reached.wellFormed.lota
    have shown : ∃ r, queryConfig ⟨api, querier⟩ s env = .ok r := bind_succeeds lotaContract read ⟨_, rfl⟩
    exact Or.inl (map_succeeds shown _)
  | state =>
    obtain ⟨cw20Address, read⟩ := human reached.wellFormed.cw20
    have shown : ∃ r, queryState ⟨api, querier⟩ s env = .ok r := bind_succeeds cw20Address read ⟨_, rfl⟩
    exact Or.inl (map_succeeds shown _)
  | allAuctions startAfter limit =>
    exact Or.inl (map_succeeds (reached.page_shown lawful visits env small startAfter limit) _)
  | royalty address =>
    cases read : api.addrCanonicalize address with
    | ok m =>
      obtain ⟨r, asked, _⟩ := reached.royalty_shown lawful read querier env
      exact Or.inl (map_succeeds ⟨r, asked⟩ _)
    | error reason =>
      refine Or.inr (Or.inr ⟨address, reason, rfl, read, ?_⟩)
      rw [query, queryRoyalty, read]
      rfl

end

theorem bid_queries_agree_soldToBob :
    ∃ shown bid, queryBids ⟨Demo.api, Demo.querier⟩ Demo.soldToBob.final (Demo.env 2001) 0 = .ok ⟨shown⟩ ∧
      queryBidder ⟨Demo.api, Demo.querier⟩ Demo.soldToBob.final (Demo.env 2001) 0 "alice" = .ok bid ∧
      shown.length = 2 ∧ bid.bidCounter = (bidsOf Demo.api Demo.alice shown).length := by
  obtain ⟨shown, asked, each, bidders, _⟩ :=
    bid_queries_agree Demo.lawful Demo.soldToBob.reached Demo.querier (Demo.env 2001) 0
  obtain ⟨_, bid, deposit, counter, _⟩ := bidders "alice" Demo.alice (by decide)
  exact ⟨shown, bid, asked, deposit, each.length_eq.symm.trans (by decide), counter⟩

/-- The update that names nobody leaves `market` in the record, which is what the query shows. -/
theorem royalty_foretold_renamed :
    ∃ r, queryRoyalty ⟨Demo.api, Demo.querier⟩ Demo.renamed.final (Demo.env 2001) "alice" = .ok r ∧
      r.fee = Demo.percent 10 ∧ Demo.api.addrHumanize ⟨[2]⟩ = .ok (r.recipient.getD r.creator) ∧
      ∃ w : Accepted Demo.api, w.before = Demo.renamed.final ∧ ∃ item, w.item 0 = some item ∧
        w.PaysRoyalty item r.fee (r.recipient.getD r.creator) := by
  have found := Demo.renamed.listed_found (i := 0) (by decide)
  let w := Demo.renamed.next Demo.mintedSettlement (by decide)
  have final : w.before = Demo.renamed.final := Demo.renamed.next_before _ _
  have listed : w.item 0 = some _ := (congrArg (fun s => s.items.mayLoad 0) final).trans found
  have contract : Demo.api.addrHumanize (Demo.renamed.listed 0 (by decide)).nftContract = .ok "market" := by decide
  have minter : queryMinter w.deps "market" = .ok (some Demo.alice) := by decide
  obtain ⟨r, asked, _, fee, recipient, pays⟩ := royalty_foretold Demo.lawful Demo.renamed.reached
    (show Demo.api.addrCanonicalize "alice" = .ok Demo.alice by decide) Demo.querier (Demo.env 2001)
  exact ⟨r, asked, fee.trans (by decide), recipient, w, final, _, listed,
    pays w 0 _ "market" final (by decide) listed (by decide) contract minter⟩

theorem queries_answered_three :
    ∃ r, query Demo.itemRange ⟨Demo.api, Demo.querier⟩ Demo.threeListings.final (Demo.env 1000)
      (.allAuctions (some 0) (some 2)) = .ok r := by
  rcases queries_answered Demo.lawful Demo.itemRange_lawful Demo.threeListings.reached (by decide) Demo.querier
    (Demo.env 1000) (.allAuctions (some 0) (some 2)) with answered | ⟨_, other, _⟩ | ⟨_, _, none, _⟩
  · exact answered
  · cases other
  · cases none

end NftMarketplace
