import NftMarketplace.Runs.Items
import NftMarketplace.Runs.Replay

/-!
Custody of the NFTs. Every auction is listed once, by a notification from its collection, and hands
its NFT over at most once. So a collection is never asked for a token more often than it gave it.
-/

namespace NftMarketplace
open Cosmwasm Transition

namespace Accepted
variable {api : Api} (e : Accepted api)

def Lists (i : Nat) : Prop := e.msg.listings = 1 ∧ e.before.state.counterItems = i

instance (i : Nat) : Decidable (e.Lists i) := inferInstanceAs (Decidable (_ ∧ _))

def nfts : List (Addr × String) := e.response.messages.filterMap CosmosMsg.nft

def handedOver (i : Nat) : Nat := if e.msg = .withdrawNft i then e.nfts.length else 0

/-- How often the message notifies the contract of token `k` of the collection `c`. -/
def notified (c : Addr) (k : String) : Nat :=
  match e.msg with
  | .receiveNft wrapper => if e.info.sender = c ∧ wrapper.tokenId = k then 1 else 0
  | _ => 0

end Accepted

section
variable {api : Api} {es : List (Accepted api)} {e : Accepted api} {s : Storage} {i : Nat}

/-! ### Listings -/

theorem listed_iff (reached : Reached api es s) (i : Nat) :
    (s.items.mayLoad i).isSome ↔ i < s.state.counterItems := by
  constructor
  · intro present
    by_contra above
    have empty := reached.wellFormed.unlisted i (Nat.le_of_not_lt above)
    have absent : s.items.mayLoad i = none := congrArg Slice.item empty
    simp [absent] at present
  · exact reached.wellFormed.listed i

/-- Every number below the counter was listed once, and no other. -/
theorem countP_lists (reached : Reached api es s) (i : Nat) :
    es.countP (·.Lists i) = if i < s.state.counterItems then 1 else 0 := by
  apply reached.induction (P := fun es s => es.countP (·.Lists i) = if i < s.state.counterItems then 1 else 0)
  · intro s fresh
    simp [fresh.counter]
  · intro es e _ _ ih
    have atMost := listings_le_one e.msg
    rw [List.countP_append, List.countP_singleton, ih, (frame e).counter]
    by_cases lists : e.Lists i
    · obtain ⟨one, number⟩ := lists
      simp [Accepted.Lists, one, number]
    · have others : i < e.before.state.counterItems + e.msg.listings ↔ i < e.before.state.counterItems := by
        simp only [Accepted.Lists] at lists
        omega
      simp [lists, others]

theorem Accepted.Lists.listedBy (lists : e.Lists i) :
    ∃ wrapper args item, ListedBy e wrapper args item ∧ (e.after.slice i).item = some item := by
  obtain ⟨one, number⟩ := lists
  cases message : e.msg with
  | receiveNft wrapper =>
    obtain ⟨args, item, listing⟩ := Accepted.listedBy message
    exact ⟨wrapper, args, item, listing, by rw [← number, listing.written.slice]; rfl⟩
  | _ => simp [message, ExecuteMsg.listings] at one

theorem lists_of_new (wellFormed : WellFormed api e.before) (absent : (e.before.slice i).item = none)
    (present : (e.after.slice i).item.isSome) : e.Lists i := by
  have above : e.before.state.counterItems ≤ i := by
    by_contra below
    have listed := wellFormed.listed i (Nat.lt_of_not_le below)
    simp [absent] at listed
  rcases (effect e i).of_empty (wellFormed.unlisted i above) with empty | ⟨number, one⟩
  · simp [empty, Slice.empty] at present
  · exact ⟨one, number⟩

/-- The item of an auction has the terms of its listing. -/
theorem listed_by (reached : Reached api es s) {item : ItemInfo} (found : s.items.mayLoad i = some item) :
    ∃ e ∈ es, e.Lists i ∧ ∃ wrapper args listed, ListedBy e wrapper args listed ∧ item.terms = listed.terms := by
  refine reached.induction (P := fun es s => ∀ item, (s.slice i).item = some item → ∃ e ∈ es, e.Lists i ∧
    ∃ wrapper args listed, ListedBy e wrapper args listed ∧ item.terms = listed.terms) ?_ ?_ item found
  · intro s fresh item found
    simp [fresh.slice, Slice.empty] at found
  · intro es e before _ ih item found
    cases present : (e.before.slice i).item with
    | some old =>
      obtain ⟨e', member, lists, wrapper, args, listed, listing, terms⟩ := ih old present
      obtain ⟨item', found', same, _⟩ := (effect e i).same_terms before.wellFormed present
      obtain rfl := Option.some.inj (found.symm.trans found')
      exact ⟨e', by simp [member], lists, wrapper, args, listed, listing, same.trans terms⟩
    | none =>
      have lists := lists_of_new before.wellFormed present (by rw [found]; rfl)
      obtain ⟨wrapper, args, listed, listing, after⟩ := lists.listedBy
      obtain rfl := Option.some.inj (found.symm.trans after)
      exact ⟨e, by simp, lists, wrapper, args, item, listing, rfl⟩

/-! ### Transfers -/

theorem nfts_eq (e : Accepted api) :
    (∀ i, e.msg ≠ .withdrawNft i) ∧ e.nfts = [] ∨
      ∃ i item collection, e.msg = .withdrawNft i ∧ (e.before.slice i).item = some item ∧ item.resolved = false ∧
        api.addrHumanize item.nftContract = .ok collection ∧ e.nfts = [(collection, item.nftId)] := by
  unfold Accepted.nfts
  cases message : e.msg with
  | placeBid _ | instantBuy _ | updateRoyalty _ _ | receiveNft _ =>
    exact Or.inl ⟨by simp, by simp [Accepted.silent (e := e) (by rw [message]; trivial)]⟩
  | retractBids i =>
    obtain ⟨_, _, _, _, _, spec, _, _, sends⟩ := Accepted.retracted message
    refine Or.inl ⟨by simp, ?_⟩
    rw [sends]
    exact spec.filterMap_nil (fun _ _ _ => rfl) fun _ _ _ => rfl
  | withdrawNft i =>
    obtain ⟨item, collection, owner, _, _, payouts, spec, _, _, sends⟩ := Accepted.withdrawn message
    refine Or.inr ⟨i, item, collection, rfl, spec.stored, spec.unresolved, spec.contract, ?_⟩
    have given : (handOver collection owner item).nft = some (collection, item.nftId) := rfl
    rw [sends, List.filterMap_cons_some given, salePayouts_filterMap spec.paid (fun _ _ _ => rfl) fun _ _ _ => rfl]
  | cancelAuction i =>
    obtain ⟨_, _, msgs, spec, _, _, sends⟩ := Accepted.cancelled message
    refine Or.inl ⟨by simp, ?_⟩
    rw [sends, filterMap_transfers (fun _ _ _ => rfl) (cancellationFees_transfers spec.fees)]
  | receive wrapper =>
    obtain ⟨_, _, _, _, _, _, _, _, burns⟩ := Accepted.registered message
    exact Or.inl ⟨by simp, by simp [burns, CosmosMsg.nft]⟩

theorem handedOver_le (reached : Reached api es s) (i : Nat) :
    total (Accepted.handedOver · i) es ≤ if (s.slice i).resolved then 1 else 0 := by
  refine reached.induction (P := fun es s => total (Accepted.handedOver · i) es ≤ if (s.slice i).resolved then 1 else 0)
    (fun _ _ => Nat.zero_le _) ?_
  intro es e before _ ih
  rw [total_append, total_singleton]
  rcases (effect e i).resolved before.wellFormed with ⟨message, unresolved, settled⟩ | ⟨other, same⟩
  · rw [unresolved] at ih
    have one : e.handedOver i ≤ 1 := by
      rw [Accepted.handedOver, if_pos message]
      rcases nfts_eq e with ⟨_, none⟩ | ⟨_, _, _, _, _, _, _, single⟩
      · simp [none]
      · simp [single]
    rw [settled, if_pos rfl]
    simp only [Bool.false_eq_true, if_false] at ih
    omega
  · rw [Accepted.handedOver, if_neg other, same, Nat.add_zero]
    exact ih

/-! ### Collections -/

/-- `addr_humanize` gives back the senders of the run. -/
def Normal (es : List (Accepted api)) : Prop :=
  ∀ e ∈ es, ∀ raw, api.addrCanonicalize e.info.sender = .ok raw → api.addrHumanize raw = .ok e.info.sender

def Slice.Holds (api : Api) (x : Slice) (c : Addr) (k : String) : Prop :=
  x.resolved = false ∧ ∃ item ∈ x.item, api.addrHumanize item.nftContract = .ok c ∧ item.nftId = k

instance (x : Slice) (c : Addr) (k : String) : Decidable (x.Holds api c k) := inferInstanceAs (Decidable (_ ∧ _))

def Storage.holding (api : Api) (s : Storage) (c : Addr) (k : String) : Finset ℕ :=
  (Finset.range s.state.counterItems).filter fun i => (s.slice i).Holds api c k

theorem mem_holding (wellFormed : WellFormed api s) {c : Addr} {k : String} :
    i ∈ s.holding api c k ↔ (s.slice i).Holds api c k := by
  rw [Storage.holding, Finset.mem_filter, Finset.mem_range, and_iff_right_iff_imp]
  rintro ⟨_, item, found, _⟩
  by_contra above
  rw [wellFormed.unlisted i (Nat.le_of_not_lt above)] at found
  cases found

theorem holds_same (wellFormed : WellFormed api e.before) (listed : ¬ e.Lists i) (settled : e.msg ≠ .withdrawNft i)
    (c : Addr) (k : String) : (e.after.slice i).Holds api c k ↔ (e.before.slice i).Holds api c k := by
  have resolved : (e.after.slice i).resolved = (e.before.slice i).resolved := by
    rcases (effect e i).resolved wellFormed with ⟨message, _⟩ | ⟨_, same⟩
    · exact (settled message).elim
    · exact same
  cases present : (e.before.slice i).item with
  | some old =>
    obtain ⟨item, found, terms, _⟩ := (effect e i).same_terms wellFormed present
    simp [Slice.Holds, resolved, present, found, nftContract_of_terms terms, nftId_of_terms terms]
  | none =>
    have absent : (e.after.slice i).item = none := by
      by_contra new
      exact listed (lists_of_new wellFormed present (Option.isSome_iff_ne_none.mpr new))
    simp [Slice.Holds, present, absent]

/-- A listing holds at most the token it was notified of in addition. -/
theorem holding_listed (wellFormed : WellFormed api e.before) (unsettled : ∀ i, e.msg ≠ .withdrawNft i)
    (lists : e.Lists e.before.state.counterItems) (c : Addr) (k : String)
    (normal : ∀ raw, api.addrCanonicalize e.info.sender = .ok raw → api.addrHumanize raw = .ok e.info.sender) :
    (e.after.holding api c k).card ≤ e.notified c k + (e.before.holding api c k).card := by
  have wellFormed' := wellFormed_step e wellFormed
  obtain ⟨wrapper, args, item, listing, found⟩ := lists.listedBy
  have others : e.after.holding api c k ⊆ insert e.before.state.counterItems (e.before.holding api c k) := by
    intro j member
    rw [mem_holding wellFormed'] at member
    rw [Finset.mem_insert]
    by_cases here : j = e.before.state.counterItems
    · exact Or.inl here
    · rw [mem_holding wellFormed, ← holds_same wellFormed (fun h => here h.2.symm) (unsettled j)]
      exact Or.inr member
  by_cases held : (e.after.slice e.before.state.counterItems).Holds api c k
  · obtain ⟨_, stored, present, contract, token⟩ := held
    obtain rfl := Option.some.inj (found.symm.trans present)
    have sender : e.info.sender = c :=
      Except.ok.inj ((normal _ listing.spec.contract).symm.trans contract)
    have one : e.notified c k = 1 := by
      rw [Accepted.notified, listing.message]
      exact if_pos ⟨sender, listing.spec.token.symm.trans token⟩
    have card := (Finset.card_le_card others).trans (Finset.card_insert_le _ _)
    omega
  · have subset : e.after.holding api c k ⊆ e.before.holding api c k := by
      intro j member
      rcases Finset.mem_insert.mp (others member) with rfl | old
      · exact (held ((mem_holding wellFormed').mp member)).elim
      · exact old
    have card := Finset.card_le_card subset
    omega

/-- A settlement lets go of the token it hands over, and of no other. -/
theorem holding_settled (wellFormed : WellFormed api e.before) {item : ItemInfo} {collection : Addr}
    (message : e.msg = .withdrawNft i) (found : (e.before.slice i).item = some item) (unresolved : item.resolved = false)
    (contract : api.addrHumanize item.nftContract = .ok collection) (c : Addr) (k : String) :
    [(collection, item.nftId)].count (c, k) + (e.after.holding api c k).card ≤ (e.before.holding api c k).card := by
  have wellFormed' := wellFormed_step e wellFormed
  have unlisted : ∀ j, ¬ e.Lists j := fun j h => by simp [Accepted.Lists, message, ExecuteMsg.listings] at h
  have settled : ¬ (e.after.slice i).Holds api c k := by
    rintro ⟨still, _⟩
    rcases (effect e i).resolved wellFormed with ⟨_, _, resolved⟩ | ⟨other, _⟩
    · rw [still] at resolved
      cases resolved
    · exact other message
  have others : e.after.holding api c k = (e.before.holding api c k).erase i := by
    ext j
    rw [Finset.mem_erase, mem_holding wellFormed', mem_holding wellFormed]
    by_cases here : j = i
    · subst here
      simp [settled]
    · rw [holds_same wellFormed (unlisted j) (by rw [message]; simpa using Ne.symm here)]
      simp [here]
  rw [List.count_singleton, others]
  split
  · next same =>
    -- the token handed over was held
    obtain ⟨rfl, rfl⟩ : collection = c ∧ item.nftId = k := by simpa using same
    have held : i ∈ e.before.holding api collection item.nftId := by
      rw [mem_holding wellFormed]
      exact ⟨by simp [Slice.resolved, found, unresolved], item, found, contract, rfl⟩
    have positive := Finset.card_pos.mpr ⟨i, held⟩
    rw [Finset.card_erase_of_mem held]
    omega
  · have card := Finset.card_le_card (Finset.erase_subset i (e.before.holding api c k))
    omega

theorem holding_step (wellFormed : WellFormed api e.before) (c : Addr) (k : String)
    (normal : ∀ raw, api.addrCanonicalize e.info.sender = .ok raw → api.addrHumanize raw = .ok e.info.sender) :
    e.nfts.count (c, k) + (e.after.holding api c k).card ≤ e.notified c k + (e.before.holding api c k).card := by
  rcases nfts_eq e with ⟨unsettled, none⟩ | ⟨i, item, collection, message, found, unresolved, contract, single⟩
  · rw [none, List.count_nil, Nat.zero_add]
    by_cases lists : e.Lists e.before.state.counterItems
    · exact holding_listed wellFormed unsettled lists c k normal
    · have same : e.after.holding api c k = e.before.holding api c k := by
        ext j
        rw [mem_holding (wellFormed_step e wellFormed), mem_holding wellFormed]
        exact holds_same wellFormed (fun h => lists ⟨h.1, rfl⟩) (unsettled j) c k
      rw [same]
      exact Nat.le_add_left _ _
  · rw [single]
    exact (holding_settled wellFormed message found unresolved contract c k).trans (Nat.le_add_left _ _)

theorem transfers_le (reached : Reached api es s) (normal : Normal es) (c : Addr) (k : String) :
    total (fun e => e.nfts.count (c, k)) es + (s.holding api c k).card ≤ total (Accepted.notified · c k) es := by
  refine reached.induction (P := fun es s => Normal es → total (fun e => e.nfts.count (c, k)) es +
    (s.holding api c k).card ≤ total (Accepted.notified · c k) es) ?_ ?_ normal
  · intro s fresh _
    simp [Storage.holding, fresh.counter]
  · intro es e before _ ih normal
    have earlier := ih fun e' member => normal e' (by simp [member])
    have step := holding_step before.wellFormed c k (normal e (by simp))
    simp only [total_append, total_singleton]
    omega

theorem nft_custody (reached : Reached api es s) (normal : Normal es) :
    (∀ i, (s.items.mayLoad i).isSome ↔ i < s.state.counterItems) ∧
      (∀ i, es.countP (·.Lists i) = if i < s.state.counterItems then 1 else 0) ∧
      (∀ i item, s.items.mayLoad i = some item → ∃ e ∈ es, e.Lists i ∧
        ∃ wrapper args listed, ListedBy e wrapper args listed ∧ item.terms = listed.terms) ∧
      (∀ i, total (Accepted.handedOver · i) es ≤ 1) ∧
      (∀ e ∈ es, ∀ nft ∈ e.nfts, ∃ i, e.msg = .withdrawNft i ∧ ∃ e₀ ∈ es, e₀.Lists i ∧
        ∃ wrapper, e₀.msg = .receiveNft wrapper ∧ nft = (e₀.info.sender, wrapper.tokenId)) ∧
      ∀ c k, total (fun e => e.nfts.count (c, k)) es ≤ total (Accepted.notified · c k) es := by
  refine ⟨listed_iff reached, countP_lists reached, fun i item found => listed_by reached found, ?_, ?_, ?_⟩
  · intro i
    have atMost := handedOver_le reached i
    split at atMost <;> omega
  · intro e member nft given
    obtain ⟨pre, post, rfl⟩ := List.append_of_mem member
    obtain ⟨before, _⟩ := reached.before
    rcases nfts_eq e with ⟨_, none⟩ | ⟨i, item, collection, message, found, _, contract, single⟩
    · simp [none] at given
    · obtain rfl : nft = (collection, item.nftId) := by simpa [single] using given
      obtain ⟨e₀, early, lists, wrapper, args, listed, listing, terms⟩ := listed_by before found
      have known : e₀ ∈ pre ++ e :: post := by simp [early]
      refine ⟨i, message, e₀, known, lists, wrapper, listing.message, ?_⟩
      have sender := normal e₀ known _ listing.spec.contract
      rw [nftContract_of_terms terms] at contract
      rw [Except.ok.inj (contract.symm.trans sender), nftId_of_terms terms, listing.spec.token]
  · intro c k
    have held := transfers_le reached normal c k
    omega

theorem nft_custody_soldToBob :
    total (fun e => e.nfts.count ("market", "token")) Demo.soldToBob.log ≤
        total (Accepted.notified · "market" "token") Demo.soldToBob.log ∧
      total (fun e => e.nfts.count ("market", "token")) Demo.soldToBob.log = 1 := by
  obtain ⟨_, _, _, _, _, counts⟩ :=
    nft_custody Demo.soldToBob.reached fun _ _ _ read => Demo.humanize_canonicalize read
  exact ⟨counts "market" "token", by decide⟩

end

end NftMarketplace
