import NftMarketplace.Runs.Isolation

/-!
Schedules of messages. What a schedule leaves in the storage and what it answers depends, for each
auction, only on the order of that auction's messages among themselves and among the messages that belong
to no auction. Within one auction, the settlement and the refunds and registrations of different bidders do not
notice each other either.
-/

namespace NftMarketplace
open Cosmwasm Isolation Outcome

/-- The auction whose record a message works on. Listings and royalties belong to no auction. -/
def ExecuteMsg.subject : ExecuteMsg → Option Nat
  | .placeBid i | .retractBids i | .withdrawNft i | .instantBuy i | .cancelAuction i => some i
  | .receive wrapper =>
    match wrapper.msg with
    | .ok (.registerPrivateSale i) => some i
    | _ => none
  | .updateRoyalty _ _ | .receiveNft _ => none

theorem on_of_subject {msg : ExecuteMsg} {i : Nat} (h : msg.subject = some i) : msg.On i := by
  cases msg with
  | receive wrapper =>
    simp only [ExecuteMsg.subject] at h
    split at h
    · next j payload => exact Option.some.inj h ▸ payload
    · cases h
  | updateRoyalty | receiveNft => cases h
  | _ => exact Option.some.inj h

/-- Two schedules in which every auction sees the same messages in the same order leave the same storage,
and every auction's messages get the same answers, whether they are accepted or refused. -/
theorem interleavings_agree (api : Api) {first second : List Delivery}
    (same : ∀ i, view (fun d : Delivery => d.msg.subject) i first = view (fun d => d.msg.subject) i second)
    (s : Storage) :
    played (fun d => d.handle api) s first = played (fun d => d.handle api) s second ∧
      ∀ i, answersTo (fun d => d.handle api) (fun d => d.msg.subject) i s first =
        answersTo (fun d => d.handle api) (fun d => d.msg.subject) i s second :=
  schedules_agree (F := Storage.auctions) (fun _ _ about => handle_local (on_of_subject about)) same s

/-! ### The claims on one auction -/

/-- What a party claims of an auction: the deposit in its entry, or the settlement, which marks the auction. -/
inductive Claim where
  | entry (i : Nat) (b : CanonicalAddr)
  | mark (i : Nat)
  deriving DecidableEq

def ItemInfo.unmarked (item : ItemInfo) : ItemInfo := { item with resolved := false }

theorem marked_of_unmarked {x y : ItemInfo} (same : x.unmarked = y.unmarked) : ∃ r, y = { x with resolved := r } :=
  ⟨y.resolved, by cases x; cases y; simp_all [ItemInfo.unmarked]⟩

theorem same_item {x y : Option ItemInfo} (same : x.map ItemInfo.unmarked = y.map ItemInfo.unmarked)
    (mark : x.map ItemInfo.resolved = y.map ItemInfo.resolved) : x = y := by
  cases x with
  | none => exact (Option.map_eq_none_iff.mp same.symm).symm
  | some item =>
    obtain ⟨other, rfl, unmarked⟩ := Option.map_eq_some_iff.mp same.symm
    obtain ⟨r, rfl⟩ := marked_of_unmarked unmarked.symm
    obtain rfl : item.resolved = r := Option.some.inj mark
    rfl

/-- The storage as a family of bid entries and marks. -/
def Storage.claims : Family Storage (Config × State × Cancellation × (Nat → Option ItemInfo) ×
    FiniteMap (Nat × CanonicalAddr) HistoryInfo × FiniteMap Nat HistoryInfo × FiniteMap CanonicalAddr RoyaltyInfo)
    Claim (Option BidInfo × Option Bool) where
  shared s := (s.config, s.state, s.cancellation, fun i => (s.items.mayLoad i).map ItemInfo.unmarked, s.historiesBidder,
    s.histories, s.royalty)
  component s
    | .entry i b => (s.bids.mayLoad (i, b), none)
    | .mark i => (none, (s.items.mayLoad i).map ItemInfo.resolved)
  ext := by
    intro s t shared same
    have bids : s.bids = t.bids := FiniteMap.ext_mayLoad fun key => congrArg Prod.fst (same (.entry key.1 key.2))
    have items : s.items = t.items := by
      refine FiniteMap.ext_mayLoad fun i => same_item ?_ (congrArg Prod.snd (same (.mark i)))
      exact congrFun (congrArg (fun x => x.2.2.2.1) shared) i
    cases s
    cases t
    simp_all

/-- The claim that a refund, a registration or a settlement works on. -/
def Delivery.claim (api : Api) (d : Delivery) : Option Claim :=
  match d.msg with
  | .retractBids i => (api.addrCanonicalize d.info.sender).toOption.map (.entry i ·)
  | .withdrawNft i => some (.mark i)
  | .receive wrapper =>
    match wrapper.msg with
    | .ok (.registerPrivateSale i) => (api.addrCanonicalize wrapper.sender).toOption.map (.entry i ·)
    | _ => none
  | _ => none

section
variable {api : Api} {d : Delivery} {i : Nat} {b : CanonicalAddr} {s t : Storage}

theorem claim_entry (h : d.claim api = some (.entry i b)) :
    d.msg = .retractBids i ∧ api.addrCanonicalize d.info.sender = .ok b ∨
      ∃ wrapper, d.msg = .receive wrapper ∧ wrapper.msg = .ok (.registerPrivateSale i) ∧
        api.addrCanonicalize wrapper.sender = .ok b := by
  have named {j : Nat} {address : String}
      (h : (api.addrCanonicalize address).toOption.map (Claim.entry j ·) = some (.entry i b)) :
      j = i ∧ api.addrCanonicalize address = .ok b := by
    obtain ⟨c, read, claim⟩ := Option.map_eq_some_iff.mp h
    obtain ⟨rfl, rfl⟩ := Claim.entry.inj claim
    exact ⟨rfl, toOption_ok read⟩
  unfold Delivery.claim at h
  split at h
  · next j message =>
    obtain ⟨rfl, read⟩ := named h
    exact Or.inl ⟨message, read⟩
  · cases h
  · next wrapper message =>
    split at h
    · next j payload =>
      obtain ⟨rfl, read⟩ := named h
      exact Or.inr ⟨wrapper, message, payload, read⟩
    · cases h
  · cases h

theorem claim_mark (h : d.claim api = some (.mark i)) : d.msg = .withdrawNft i := by
  unfold Delivery.claim at h
  split at h
  · obtain ⟨_, _, claim⟩ := Option.map_eq_some_iff.mp h
    cases claim
  · next message =>
    obtain rfl := Claim.mark.inj (Option.some.inj h)
    exact message
  · split at h
    · obtain ⟨_, _, claim⟩ := Option.map_eq_some_iff.mp h
      cases claim
    · cases h
  · cases h

/-! What is read -/

theorem found_alike (shared : Storage.claims.shared s = Storage.claims.shared t) (i : Nat) :
    s.items.mayLoad i = none ∧ t.items.mayLoad i = none ∨
      ∃ item r, s.items.mayLoad i = some item ∧ t.items.mayLoad i = some { item with resolved := r } := by
  have unmarked : (s.items.mayLoad i).map ItemInfo.unmarked = (t.items.mayLoad i).map ItemInfo.unmarked :=
    congrFun (congrArg (fun x => x.2.2.2.1) shared) i
  cases found : s.items.mayLoad i with
  | none =>
    rw [found] at unmarked
    exact Or.inl ⟨rfl, Option.map_eq_none_iff.mp unmarked.symm⟩
  | some item =>
    rw [found] at unmarked
    obtain ⟨other, found', same⟩ := Option.map_eq_some_iff.mp unmarked.symm
    obtain ⟨r, rfl⟩ := marked_of_unmarked same.symm
    exact Or.inr ⟨item, r, rfl, found'⟩

/-- Two results that write the same entry over storages that agree elsewhere. -/
theorem same_entry (i : Nat) (b : CanonicalAddr) (bid : BidInfo) (r : Response) :
    Storage.claims.component { s with bids := s.bids.save (i, b) bid } (.entry i b) =
        Storage.claims.component { t with bids := t.bids.save (i, b) bid } (.entry i b) ∧ r = r := by
  simp [Storage.claims]

theorem executeRetractBids_entry (deps : Deps) (env : Env) (info : MessageInfo)
    (sender : deps.api.addrCanonicalize info.sender = .ok b)
    (shared : Storage.claims.shared s = Storage.claims.shared t)
    (here : Storage.claims.component s (.entry i b) = Storage.claims.component t (.entry i b)) :
    Same (fun p q => Storage.claims.component p.1 (.entry i b) = Storage.claims.component q.1 (.entry i b) ∧ p.2 = q.2)
      (executeRetractBids deps s env info i) (executeRetractBids deps t env info i) := by
  obtain ⟨config, state, -, -, -, -, -⟩ := by
    simpa [Storage.claims] using shared
  have entry : s.bids.mayLoad (i, b) = t.bids.mayLoad (i, b) := congrArg Prod.fst here
  unfold executeRetractBids partialReward
  rw [bind_of_ok (std_ok.mpr sender), bind_of_ok (std_ok.mpr sender)]
  rcases found_alike shared i with ⟨absent, absent'⟩ | ⟨item, r, found, found'⟩
  · simp only [FiniteMap.load, absent, absent']
    rfl
  · rw [bind_of_ok (std_ok.mpr (FiniteMap.load_ok.mpr found)), bind_of_ok (std_ok.mpr (FiniteMap.load_ok.mpr found'))]
    simp only [config, state, FiniteMap.load_congr entry]
    refine Same.after _ fun bid => Same.after _ fun _ => Same.after _ fun _ => ?_
    refine Same.after _ fun send => Same.after _ fun rewards => ?_
    apply Same.bind (FiniteMap.update_same entry _)
    rintro _ _ ⟨stored, rfl, rfl⟩
    exact same_entry i b stored _

theorem executeRegisterPrivateSale_entry (deps : Deps) (env : Env) (info : MessageInfo) (sender : String) (sent : Uint128)
    (read : deps.api.addrCanonicalize sender = .ok b)
    (shared : Storage.claims.shared s = Storage.claims.shared t)
    (here : Storage.claims.component s (.entry i b) = Storage.claims.component t (.entry i b)) :
    Same (fun p q => Storage.claims.component p.1 (.entry i b) = Storage.claims.component q.1 (.entry i b) ∧ p.2 = q.2)
      (executeRegisterPrivateSale deps s env info sender sent i)
      (executeRegisterPrivateSale deps t env info sender sent i) := by
  obtain ⟨config, state, -, -, -, -, -⟩ := by
    simpa [Storage.claims] using shared
  have entry : s.bids.mayLoad (i, b) = t.bids.mayLoad (i, b) := congrArg Prod.fst here
  unfold executeRegisterPrivateSale
  rw [bind_of_ok (std_ok.mpr read), bind_of_ok (std_ok.mpr read)]
  simp only [config, state, entry]
  rcases found_alike shared i with ⟨absent, absent'⟩ | ⟨item, r, found, found'⟩
  · simp only [absent, absent']
    rfl
  · simp only [found, found']
    refine Same.after _ fun _ => Same.after _ fun _ => Same.after _ fun _ => Same.after _ fun _ => ?_
    refine Same.after _ fun _ => Same.after _ fun cw20 => ?_
    exact same_entry i b _ _

theorem executeWithdrawNft_mark (deps : Deps) (env : Env) (info : MessageInfo)
    (shared : Storage.claims.shared s = Storage.claims.shared t)
    (here : Storage.claims.component s (.mark i) = Storage.claims.component t (.mark i)) :
    Same (fun p q => Storage.claims.component p.1 (.mark i) = Storage.claims.component q.1 (.mark i) ∧ p.2 = q.2)
      (executeWithdrawNft deps s env info i) (executeWithdrawNft deps t env info i) := by
  have same : s.items.mayLoad i = t.items.mayLoad i :=
    same_item (congrFun (congrArg (fun x => x.2.2.2.1) shared) i) (congrArg Prod.snd here)
  obtain ⟨config, state, -, -, -, -, royalty⟩ := by
    simpa [Storage.claims] using shared
  unfold executeWithdrawNft salePayouts fullRewards royaltyOf
  simp only [config, state, royalty, FiniteMap.load_congr same]
  refine Same.after _ fun item => Same.after _ fun collection => Same.after _ fun minter => ?_
  refine Same.after _ fun _ => Same.after _ fun _ => Same.after _ fun shares => ?_
  apply Same.bind (FiniteMap.update_same same _)
  rintro _ _ ⟨stored, rfl, rfl⟩
  refine Same.after _ fun owner => Same.after _ fun payouts => Same.after _ fun creator => ?_
  exact ⟨by simp [Storage.claims], rfl⟩

/-! What is written -/

/-- A message that leaves the terms and the logs of its auction leaves what all claims share. -/
theorem shared_kept (elsewhere : SameElsewhere i s t)
    (item : (t.slice i).item.map ItemInfo.unmarked = (s.slice i).item.map ItemInfo.unmarked)
    (log : (t.slice i).log = (s.slice i).log) (bidderLog : (t.slice i).bidderLog = (s.slice i).bidderLog) :
    Storage.claims.shared t = Storage.claims.shared s := by
  have each {α : Type} (f : Slice → α) (here : f (t.slice i) = f (s.slice i)) (j : Nat) : f (t.slice j) = f (s.slice j) := by
    by_cases same : j = i
    · rw [same, here]
    · rw [elsewhere.slice j same]
  have items : (fun j => (t.items.mayLoad j).map ItemInfo.unmarked) = fun j => (s.items.mayLoad j).map ItemInfo.unmarked :=
    funext (each (fun x => x.item.map ItemInfo.unmarked) item)
  have histories : t.histories = s.histories := FiniteMap.ext_mayLoad (each Slice.log log)
  have historiesBidder : t.historiesBidder = s.historiesBidder :=
    FiniteMap.ext_mayLoad fun key => congrFun (each Slice.bidderLog bidderLog key.1) key.2
  simp only [Storage.claims, elsewhere.config, elsewhere.state, elsewhere.cancellation, elsewhere.royalty, items, histories,
    historiesBidder]

theorem entry_written {bid : BidInfo} (elsewhere : SameElsewhere i s t) (after : t.slice i = (s.slice i).withBid b bid) :
    Storage.claims.shared t = Storage.claims.shared s ∧
      ∀ claim, claim ≠ .entry i b → Storage.claims.component t claim = Storage.claims.component s claim := by
  refine ⟨shared_kept elsewhere (by rw [after]; rfl) (by rw [after]; rfl) (by rw [after]; rfl), ?_⟩
  intro claim other
  cases claim with
  | entry j c =>
    have bids : (t.slice j).bid c = (s.slice j).bid c := by
      by_cases here : j = i
      · subst here
        have different : c ≠ b := fun same => other (same ▸ rfl)
        rw [after, Slice.withBid_bid, if_neg different]
      · rw [elsewhere.slice j here]
    exact congrArg (·, none) bids
  | mark j =>
    have items : (t.slice j).item = (s.slice j).item := by
      by_cases here : j = i
      · rw [here, after, Slice.withBid_item]
      · rw [elsewhere.slice j here]
    exact congrArg (fun x : Option ItemInfo => (none, x.map ItemInfo.resolved)) items

theorem mark_written {item : ItemInfo} (elsewhere : SameElsewhere i s t) (stored : (s.slice i).item = some item)
    (after : t.slice i = (s.slice i).withItem item.settled) :
    Storage.claims.shared t = Storage.claims.shared s ∧
      ∀ claim, claim ≠ .mark i → Storage.claims.component t claim = Storage.claims.component s claim := by
  refine ⟨shared_kept elsewhere (by rw [after, stored]; rfl) (by rw [after]; rfl) (by rw [after]; rfl), ?_⟩
  intro claim other
  cases claim with
  | entry j c =>
    have bids : (t.slice j).bid c = (s.slice j).bid c := by
      by_cases here : j = i
      · rw [here, after, Slice.withItem_bid]
      · rw [elsewhere.slice j here]
    exact congrArg (·, none) bids
  | mark j =>
    have different : j ≠ i := fun same => other (same ▸ rfl)
    have items : (t.slice j).item = (s.slice j).item := by rw [elsewhere.slice j different]
    exact congrArg (fun x : Option ItemInfo => (none, x.map ItemInfo.resolved)) items

theorem claim_writes {claim : Claim} {r : Response} (claims : d.claim api = some claim) (done : d.handle api s = .ok (t, r)) :
    Storage.claims.shared t = Storage.claims.shared s ∧
      ∀ other, other ≠ claim → Storage.claims.component t other = Storage.claims.component s other := by
  unfold Delivery.handle at done
  cases claim with
  | entry i b =>
    rcases claim_entry claims with ⟨message, read⟩ | ⟨wrapper, message, payload, read⟩
    · rw [message] at done
      change executeRetractBids _ s d.env d.info i = _ at done
      obtain ⟨c, _, bid, _, _, spec, after, elsewhere, _⟩ := executeRetractBids_ok done
      obtain rfl := Except.ok.inj (read.symm.trans spec.sender)
      exact entry_written elsewhere after
    · rw [message] at done
      obtain ⟨_, _, done⟩ := bind_ok done
      obtain ⟨_, _, done⟩ := bind_ok done
      obtain ⟨sent, given, done⟩ := bind_ok done
      obtain rfl : sent = .registerPrivateSale i := Except.ok.inj ((std_ok.mp given).symm.trans payload)
      obtain ⟨c, _, _, spec, after, elsewhere, _⟩ := executeRegisterPrivateSale_ok done
      obtain rfl := Except.ok.inj (read.symm.trans spec.sender)
      exact entry_written elsewhere after
  | mark i =>
    rw [claim_mark claims] at done
    change executeWithdrawNft _ s d.env d.info i = _ at done
    obtain ⟨_, _, _, _, _, _, spec, after, elsewhere, _⟩ := executeWithdrawNft_ok done
    exact mark_written elsewhere spec.stored after

theorem claim_local {claim : Claim} (claims : d.claim api = some claim) : Local Storage.claims claim (d.handle api) where
  shared done := (claim_writes claims done).1
  elsewhere other done := (claim_writes claims done).2 _ other
  determined := by
    intro s t shared here
    unfold Delivery.handle
    cases claim with
    | entry i b =>
      rcases claim_entry claims with ⟨message, read⟩ | ⟨wrapper, message, payload, read⟩
      · rw [message]
        exact executeRetractBids_entry _ d.env d.info read shared here
      · have state : s.state = t.state := (congrArg (fun x => x.2.1) shared :)
        rw [message]
        simp only [execute, executeReceiveCw20, state, payload]
        refine Same.after _ fun _ => Same.after _ fun _ => ?_
        exact executeRegisterPrivateSale_entry _ d.env d.info wrapper.sender wrapper.amount read shared here
    | mark i =>
      rw [claim_mark claims]
      exact executeWithdrawNft_mark _ d.env d.info shared here

/-- Refunds, registrations and settlements can be put in any order that keeps each bidder's own messages in order
and the settlements of each auction. The other messages of the schedule stay where they are. -/
theorem claims_unordered (api : Api) {first second : List Delivery}
    (same : ∀ claim, view (fun d : Delivery => d.claim api) claim first = view (fun d => d.claim api) claim second)
    (s : Storage) :
    played (fun d => d.handle api) s first = played (fun d => d.handle api) s second ∧
      ∀ claim, answersTo (fun d => d.handle api) (fun d => d.claim api) claim s first =
        answersTo (fun d => d.handle api) (fun d => d.claim api) claim s second :=
  haveI : Nonempty Claim := ⟨.mark 0⟩
  schedules_agree (F := Storage.claims) (fun _ _ claims => claim_local claims) same s

end

/-! ### Examples -/

/-- A royalty is set between the bids on the two auctions. -/
def Demo.royaltyBetween : Delivery := deliver 1000 "alice" [] (.updateRoyalty (percent 10) none)

theorem interleavings_agree_twoAuctions :
    played (fun d => d.handle Demo.api) Demo.twoAuctions.final
        [Demo.low, Demo.enough, Demo.royaltyBetween, Demo.enough, Demo.low] =
      played (fun d => d.handle Demo.api) Demo.twoAuctions.final
        [Demo.enough, Demo.low, Demo.royaltyBetween, Demo.low, Demo.enough] := by
  have low : Demo.low.msg.subject = some 0 := rfl
  have enough : Demo.enough.msg.subject = some 1 := rfl
  have royalty : Demo.royaltyBetween.msg.subject = none := rfl
  refine (interleavings_agree Demo.api (fun i => ?_) Demo.twoAuctions.final).1
  by_cases first : 0 = i
  · simp [view, Seen, low, enough, royalty, ← first]
  · simp [view, Seen, List.filter_cons, low, enough, royalty, first]

def Demo.refundTo (bidder : Addr) : Delivery := deliver 2002 bidder [] (.retractBids 0)

def Demo.handBack : Delivery := deliver 2002 "seller" [] (.withdrawNft 0)

/-- Both lose to the reserve and leave, before or after the token goes back. -/
def Demo.belowReserve : Demo.Scenario where
  msg := instantiateMsg
  rate := percent 10
  deliveries := [listing none none (some (amount 1000)) false, deliver 1000 "alice" (coins 100) (.placeBid 0),
    deliver 1100 "bob" (coins 200) (.placeBid 0)]
  accepted := by decide
  order := by decide

theorem claims_unordered_belowReserve :
    played (fun d => d.handle Demo.api) Demo.belowReserve.final
        [Demo.refundTo "alice", Demo.handBack, Demo.refundTo "bob"] =
      played (fun d => d.handle Demo.api) Demo.belowReserve.final
        [Demo.handBack, Demo.refundTo "bob", Demo.refundTo "alice"] ∧
      ((answers (fun d => d.handle Demo.api) Demo.belowReserve.final
        [Demo.refundTo "alice", Demo.handBack, Demo.refundTo "bob"]).map fun given => given.2.toOption.isSome) =
          [true, true, true] := by
  have alice : (Demo.refundTo "alice").claim Demo.api = some (.entry 0 Demo.alice) := rfl
  have bob : (Demo.refundTo "bob").claim Demo.api = some (.entry 0 Demo.bob) := rfl
  have settlement : Demo.handBack.claim Demo.api = some (.mark 0) := rfl
  have different : ¬ Demo.alice = Demo.bob := by decide
  refine ⟨(claims_unordered Demo.api (fun claim => ?_) Demo.belowReserve.final).1, by decide⟩
  cases claim with
  | mark i => simp [view, Seen, List.filter_cons, alice, bob, settlement]
  | entry i b =>
    by_cases first : b = Demo.alice
    · have other : ¬ Demo.bob = b := fun same => different (first.symm.trans same.symm)
      simp [view, Seen, List.filter_cons, alice, bob, settlement, other]
    · have other : ¬ Demo.alice = b := fun same => first same.symm
      simp [view, Seen, List.filter_cons, alice, bob, settlement, other]

end NftMarketplace
