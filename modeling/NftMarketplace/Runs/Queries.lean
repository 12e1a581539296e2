import Mathlib.Data.Finset.Sort
import NftMarketplace.Contract.Query
import NftMarketplace.Lib.Paging
import NftMarketplace.Runs.Sales

/-!
Reading all auctions page by page. The keys of the store order like the numbers of the auctions, so the
pages put together are the auctions in order, each as it is shown alone.
-/

namespace NftMarketplace
open Cosmwasm Outcome

/-! ### Keys -/

theorem fromBeBytes_toBeBytes {id : Nat} (small : id < 2 ^ 64) : fromBeBytes (toBeBytes id) = .ok id := by
  rw [fromBeBytes, toBeBytes, if_pos (BigEndian.length_toBytes 8 id), BigEndian.ofBytes_toBytes (by omega)]

theorem toBeBytes_lt_iff {id id' : Nat} (small : id < 2 ^ 64) (small' : id' < 2 ^ 64) :
    toBeBytes id < toBeBytes id' ↔ id < id' :=
  BigEndian.toBytes_lt_iff (by omega) (by omega)

/-- Auctions have keys of their own, so that a store by numbers stands for the one by bytes. -/
theorem toBeBytes_inj {id id' : Nat} (small : id < 2 ^ 64) (small' : id' < 2 ^ 64) :
    toBeBytes id = toBeBytes id' ↔ id = id' :=
  BigEndian.toBytes_inj (by omega) (by omega)

section
variable {api : Api} {deps : Deps} {es : List (Accepted api)} {s : Storage} {env : Env} {i : Nat} {item : ItemInfo}

/-! ### One auction -/

/-- The page shows an auction as the query for the auction alone does. -/
theorem auctionEntry_of_queryAuction {r : AuctionResponse} (found : s.items.mayLoad i = some item) (small : i < 2 ^ 64)
    (shown : queryAuction deps s env i = .ok r) : auctionEntry deps (toBeBytes i, item) = .ok (i, r) := by
  have stored : propagate (s.items.load (StdError.genericErr "Not found") i) = .ok item :=
    propagate_ok.mpr (FiniteMap.load_ok.mpr found)
  rw [queryAuction, bind_of_ok stored] at shown
  obtain ⟨highestBidder, bidder, shown⟩ := bind_ok shown
  obtain ⟨charity, gift, shown⟩ := bind_ok shown
  obtain ⟨creator, seller, shown⟩ := bind_ok shown
  obtain ⟨nftContract, contract, shown⟩ := bind_ok shown
  obtain rfl := pure_ok.mp shown
  rw [auctionEntry, bind_of_ok bidder, bind_of_ok gift, bind_of_ok (fromBeBytes_toBeBytes small), bind_of_ok seller,
    bind_of_ok contract]
  rfl

theorem contract_invariant : ItemInvariant api fun item => ∃ a, api.addrCanonicalize a = .ok item.nftContract where
  listed spec := ⟨_, spec.contract⟩
  placed _ known := known
  bought _ known := known
  settled known := known
  cancelled known := known

theorem Reached.shown (reached : Reached api es s) (lawful : api.Lawful) (querier : Querier) (env : Env)
    (listed : i < s.state.counterItems) : ∃ r, queryAuction ⟨api, querier⟩ s env i = .ok r := by
  obtain ⟨item, found⟩ := Option.isSome_iff_exists.mp (reached.wellFormed.listed i listed)
  have payee : Payee api item := reached.keeps payee_invariant found
  have human {raw : CanonicalAddr} (known : ∃ a, api.addrCanonicalize a = .ok raw) :
      ∃ a, propagate (api.addrHumanize raw) = .ok a := by
    obtain ⟨_, read⟩ := known
    obtain ⟨a, read⟩ := lawful.humanize read
    exact ⟨a, propagate_ok.mpr read⟩
  have bidder : ∃ name, humanBidder ⟨api, querier⟩ item.highestBidder = .ok name := by
    cases lead : item.highestBidder with
    | none => exact ⟨none, rfl⟩
    | some b =>
      obtain ⟨name, read⟩ := human (payee.leader b lead)
      exact bind_succeeds name read ⟨_, rfl⟩
  have gift : ∃ shown, humanCharity ⟨api, querier⟩ item.charity = .ok shown := by
    cases given : item.charity with
    | none => exact ⟨none, rfl⟩
    | some c =>
      obtain ⟨address, read⟩ := human (payee.charity c given).2.2
      exact bind_succeeds address read ⟨_, rfl⟩
  obtain ⟨name, bidder⟩ := bidder
  obtain ⟨shown, gift⟩ := gift
  obtain ⟨creator, seller⟩ := human payee.creator
  obtain ⟨nftContract, contract⟩ := human (reached.keeps contract_invariant found)
  refine bind_succeeds item (propagate_ok.mpr (FiniteMap.load_ok.mpr found)) ?_
  refine bind_succeeds name bidder (bind_succeeds shown gift ?_)
  exact bind_succeeds creator seller (bind_succeeds nftContract contract ⟨_, rfl⟩)

theorem Reached.responses (reached : Reached api es s) (lawful : api.Lawful) (querier : Querier) (env : Env) :
    ∃ response : Nat → AuctionResponse, ∀ i, i < s.state.counterItems →
      queryAuction ⟨api, querier⟩ s env i = .ok (response i) := by
  have shown : ∀ i, ∃ r, i < s.state.counterItems → queryAuction ⟨api, querier⟩ s env i = .ok r := by
    intro i
    by_cases listed : i < s.state.counterItems
    · obtain ⟨r, shown⟩ := reached.shown lawful querier env listed
      exact ⟨r, fun _ => shown⟩
    · exact ⟨default, fun listed' => (listed listed').elim⟩
  choose response shown using shown
  exact ⟨response, shown⟩

/-! ### All auctions -/

theorem WellFormed.stored_iff (wellFormed : WellFormed api s) :
    (∃ item, s.items.mayLoad i = some item) ↔ i < s.state.counterItems := by
  constructor
  · intro stored
    obtain ⟨item, found⟩ := stored
    by_contra unlisted
    have empty := wellFormed.unlisted i (Nat.le_of_not_lt unlisted)
    have absent : (s.slice i).item = none := by rw [empty]; rfl
    exact Option.some_ne_none item (found.symm.trans absent)
  · exact fun listed => Option.isSome_iff_exists.mp (wellFormed.listed i listed)

theorem WellFormed.keys_lt (wellFormed : WellFormed api s) {bound : Nat} (small : s.state.counterItems ≤ bound) :
    ∀ id ∈ s.items.keys, id < bound := by
  intro id member
  rw [FiniteMap.mem_keys, Option.isSome_iff_exists] at member
  exact lt_of_lt_of_le (wellFormed.stored_iff.mp member) small

/-- The auctions of `s` in order, each with its response. -/
def auctionsOf (s : Storage) (response : Nat → AuctionResponse) : List (Nat × AuctionResponse) :=
  (List.range s.state.counterItems).map fun i => (i, response i)

@[simp] theorem auctionsOf_ids (response : Nat → AuctionResponse) :
    (auctionsOf s response).map Prod.fst = List.range s.state.counterItems := by
  simp [auctionsOf, Function.comp_def]

theorem mem_auctionsOf {response : Nat → AuctionResponse} {auction : Nat × AuctionResponse} :
    auction ∈ auctionsOf s response ↔ auction.1 < s.state.counterItems ∧ response auction.1 = auction.2 := by
  obtain ⟨i, r⟩ := auction
  simp [auctionsOf]

theorem auctionsOf_ascending (response : Nat → AuctionResponse) : Paging.Ascending Prod.fst (auctionsOf s response) :=
  List.pairwise_map.mpr List.pairwise_lt_range

section Range
variable {range : ItemRange} {response : Nat → AuctionResponse} {start : Option Nat}

/-- What the range visits beyond a number: the auctions with greater numbers. -/
theorem WellFormed.mem_range (wellFormed : WellFormed api s) (lawful : range.Lawful)
    (small : s.state.counterItems < 2 ^ 64) (known : ∀ k ∈ start, k < s.state.counterItems) {pair : List UInt8 × ItemInfo} :
    pair ∈ range s.items (start.map toBeBytes) ↔
      ∃ i, pair.1 = toBeBytes i ∧ s.items.mayLoad i = some pair.2 ∧ ∀ k ∈ start, k < i := by
  obtain ⟨key, item⟩ := pair
  rw [lawful.member s.items _ (wellFormed.keys_lt small.le)]
  constructor
  · rintro ⟨⟨i, rfl, found⟩, beyond⟩
    refine ⟨i, rfl, found, ?_⟩
    intro k given
    have listed := wellFormed.stored_iff.mp ⟨item, found⟩
    have below := known k given
    exact (toBeBytes_lt_iff (by omega) (by omega)).mp (beyond _ (Option.mem_map_of_mem _ given))
  · rintro ⟨i, rfl, found, beyond⟩
    refine ⟨⟨i, rfl, found⟩, ?_⟩
    intro bound asked
    obtain ⟨k, given, rfl⟩ := Option.mem_map.mp asked
    have listed := wellFormed.stored_iff.mp ⟨item, found⟩
    have below := known k given
    exact (toBeBytes_lt_iff (by omega) (by omega)).mpr (beyond k given)

/-- The entry of a page for a stored pair. -/
def pageEntry (response : Nat → AuctionResponse) (pair : List UInt8 × ItemInfo) : Nat × AuctionResponse :=
  (BigEndian.ofBytes pair.1, response (BigEndian.ofBytes pair.1))

theorem pageEntry_of_key {pair : List UInt8 × ItemInfo} (key : pair.1 = toBeBytes i) (small : i < 2 ^ 64) :
    pageEntry response pair = (i, response i) := by
  rw [pageEntry, key, toBeBytes, BigEndian.ofBytes_toBytes (by omega)]

theorem WellFormed.range_entries (wellFormed : WellFormed api s) (lawful : range.Lawful)
    (small : s.state.counterItems < 2 ^ 64) (known : ∀ k ∈ start, k < s.state.counterItems) :
    (range s.items (start.map toBeBytes)).map (pageEntry response) =
      Paging.after Prod.fst start (auctionsOf s response) := by
  have visited {pair : List UInt8 × ItemInfo} (member : pair ∈ range s.items (start.map toBeBytes)) :
      ∃ i, i < s.state.counterItems ∧ pair.1 = toBeBytes i ∧ ∀ k ∈ start, k < i := by
    obtain ⟨i, key, found, beyond⟩ := (wellFormed.mem_range lawful small known).mp member
    exact ⟨i, wellFormed.stored_iff.mp ⟨_, found⟩, key, beyond⟩
  apply Paging.Ascending.ext _ ((auctionsOf_ascending response).after start)
  · rintro ⟨i, r⟩
    rw [Paging.mem_after, mem_auctionsOf, List.mem_map]
    constructor
    · intro entered
      obtain ⟨pair, member, same⟩ := entered
      obtain ⟨i', listed, key, beyond⟩ := visited member
      obtain ⟨rfl, rfl⟩ := Prod.mk.inj ((pageEntry_of_key key (by omega)).symm.trans same)
      exact ⟨⟨listed, rfl⟩, beyond⟩
    · rintro ⟨⟨listed, same⟩, beyond⟩
      obtain ⟨item, found⟩ := wellFormed.stored_iff.mpr listed
      refine ⟨(toBeBytes i, item), (wellFormed.mem_range lawful small known).mpr ⟨i, rfl, found, beyond⟩, ?_⟩
      have entry : pageEntry response (toBeBytes i, item) = (i, response i) :=
        pageEntry_of_key rfl (lt_trans listed small)
      exact entry.trans (Prod.ext rfl same)
  · have ordered := List.pairwise_map.mp (lawful.ascending s.items (start.map toBeBytes) (wellFormed.keys_lt small.le))
    refine List.pairwise_map.mpr (ordered.imp_of_mem ?_)
    intro pair pair' member member' less
    obtain ⟨i, listed, key, _⟩ := visited member
    obtain ⟨i', listed', key', _⟩ := visited member'
    rw [key, key', toBeBytes_lt_iff (by omega) (by omega)] at less
    rw [pageEntry_of_key key (by omega), pageEntry_of_key key' (by omega)]
    exact less

/-- A page: the first auctions beyond the number given, as many as the limit allows. -/
theorem WellFormed.page (wellFormed : WellFormed api s) (lawful : range.Lawful) (small : s.state.counterItems < 2 ^ 64)
    (shown : ∀ i, i < s.state.counterItems → queryAuction deps s env i = .ok (response i))
    (known : ∀ k ∈ start, k < s.state.counterItems) (limit : Option Nat) :
    queryAllAuctions range deps s start limit =
      .ok ⟨(Paging.after Prod.fst start (auctionsOf s response)).take (min (limit.getD DEFAULT_LIMIT) MAX_LIMIT)⟩ := by
  have mapped : ((range s.items (start.map toBeBytes)).take (min (limit.getD DEFAULT_LIMIT) MAX_LIMIT)).mapM
      (auctionEntry deps) = .ok (((range s.items (start.map toBeBytes)).take
        (min (limit.getD DEFAULT_LIMIT) MAX_LIMIT)).map (pageEntry response)) := by
    apply mapM_of_ok
    intro pair member
    obtain ⟨i, key, found, _⟩ := (wellFormed.mem_range lawful small known).mp (List.mem_of_mem_take member)
    have listed := wellFormed.stored_iff.mp ⟨_, found⟩
    rw [pageEntry_of_key key (by omega), ← auctionEntry_of_queryAuction found (by omega) (shown i listed), ← key]
  rw [List.map_take, wellFormed.range_entries lawful small known] at mapped
  exact bind_of_ok mapped _

/-- `page` is the answer to the query for all auctions after `start`. -/
def Served (range : ItemRange) (deps : Deps) (s : Storage) (limit start : Option Nat)
    (page : List (Nat × AuctionResponse)) : Prop :=
  queryAllAuctions range deps s start limit = .ok ⟨page⟩

theorem served_unique {limit start : Option Nat} {page page' : List (Nat × AuctionResponse)}
    (first : Served range deps s limit start page) (second : Served range deps s limit start page') : page = page' :=
  AllAuctionsResponse.mk.inj (Except.ok.inj (first.symm.trans second))

/-- A reader that asks for the auctions page by page, each time after the last one seen, gets to an empty
page. By then it has seen every auction once, in the order of their numbers, as each is shown alone. -/
theorem all_auctions_complete (lawful : api.Lawful) (visits : range.Lawful) (reached : Reached api es s)
    (small : s.state.counterItems < 2 ^ 64) (querier : Querier) (env : Env) (limit : Option Nat)
    (positive : limit ≠ some 0) :
    ∃ pages : List (List (Nat × AuctionResponse)),
      (∀ pages', Paging.Walk Prod.fst (Served range ⟨api, querier⟩ s limit) none pages' ↔ pages' = pages) ∧
      pages.flatten.map Prod.fst = List.range s.state.counterItems ∧
      (∀ page ∈ pages, page.length ≤ min (limit.getD 10) 30) ∧
      ∀ auction ∈ pages.flatten, queryAuction ⟨api, querier⟩ s env auction.1 = .ok auction.2 := by
  obtain ⟨response, shown⟩ := reached.responses lawful querier env
  have room : 0 < min (limit.getD 10) 30 := by
    cases limit with
    | none => decide
    | some l =>
      have nonzero : l ≠ 0 := fun zero => positive (congrArg some zero)
      simp only [Option.getD_some]
      omega
  have serving : ∀ start, (∀ k ∈ start, k ∈ (auctionsOf s response).map Prod.fst) →
      Served range ⟨api, querier⟩ s limit start
        ((Paging.after Prod.fst start (auctionsOf s response)).take (min (limit.getD 10) 30)) := by
    intro start known
    simp only [auctionsOf_ids, List.mem_range] at known
    exact reached.wellFormed.page visits small shown known limit
  obtain ⟨pages, walk, whole, lengths⟩ :=
    Paging.walk_complete room (auctionsOf_ascending response) serving none (by simp)
  rw [Paging.after_none] at whole
  have functional : ∀ start page page', Served range ⟨api, querier⟩ s limit start page →
      Served range ⟨api, querier⟩ s limit start page' → page = page' := fun _ _ _ => served_unique
  refine ⟨pages, fun pages' => ⟨walk.unique functional, fun same => same ▸ walk⟩, ?_, lengths, ?_⟩
  · rw [whole, auctionsOf_ids]
  · intro auction member
    rw [whole, mem_auctionsOf] at member
    rw [shown _ member.1, member.2]

end Range

end

namespace Demo

/-- The stored pairs in the order of their numbers. -/
def itemRange : ItemRange := fun items start =>
  (items.keys.sort.filterMap fun id => (items.mayLoad id).map (toBeBytes id, ·)).filter
    fun pair => ∀ bound ∈ start, bound < pair.1

theorem itemRange_lawful : itemRange.Lawful where
  ascending items start small := by
    refine List.pairwise_map.mpr (List.Pairwise.filter _ (List.pairwise_filterMap.mpr ?_))
    refine (Finset.sortedLT_sort items.keys).pairwise.imp_of_mem ?_
    intro id id' member member' less pair first pair' second
    obtain ⟨item, _, rfl⟩ := Option.map_eq_some_iff.mp first
    obtain ⟨item', _, rfl⟩ := Option.map_eq_some_iff.mp second
    rw [Finset.mem_sort] at member member'
    exact (toBeBytes_lt_iff (small id member) (small id' member')).mpr less
  member items start small key item := by
    simp only [itemRange, List.mem_filter, List.mem_filterMap, Finset.mem_sort, FiniteMap.mem_keys, decide_eq_true_eq]
    apply and_congr_left
    intro _
    constructor
    · rintro ⟨id, _, found⟩
      obtain ⟨item', stored, same⟩ := Option.map_eq_some_iff.mp found
      obtain ⟨rfl, rfl⟩ := Prod.mk.inj same
      exact ⟨id, rfl, stored⟩
    · rintro ⟨id, rfl, stored⟩
      exact ⟨id, by simp [stored], by simp [stored]⟩

def threeListings : Scenario where
  msg := instantiateMsg
  rate := Decimal.zero
  deliveries := [listing none none none false, listing none none none true, listing none none none false]
  accepted := by decide
  order := by decide

end Demo

theorem all_auctions_complete_three :
    ∃ pages, Paging.Walk Prod.fst
        (Served Demo.itemRange ⟨Demo.api, Demo.querier⟩ Demo.threeListings.final (some 2)) none pages ∧
      pages.flatten.map Prod.fst = [0, 1, 2] ∧ ∀ page ∈ pages, page.length ≤ 2 := by
  obtain ⟨pages, walks, ids, lengths, _⟩ := all_auctions_complete Demo.lawful Demo.itemRange_lawful
    Demo.threeListings.reached (by decide) Demo.querier (Demo.env 1000) (some 2) (by decide)
  have listed : List.range Demo.threeListings.final.state.counterItems = [0, 1, 2] := by decide
  exact ⟨pages, (walks pages).mpr rfl, ids.trans listed, lengths⟩

end NftMarketplace
