import NftMarketplace.Runs.History

/-!
Runs from lists of messages: `replay` hands messages to the contract one after the other and logs
what was accepted. The small chain below is the one that examples run on.
-/

namespace NftMarketplace
open Cosmwasm

/-- A message on its way to the contract, with the answers other modules give meanwhile. -/
structure Delivery where
  querier : Querier
  env : Env
  info : MessageInfo
  msg : ExecuteMsg

def Delivery.accept (api : Api) (s : Storage) (d : Delivery) : Option (Accepted api) :=
  match h : execute ⟨api, d.querier⟩ s d.env d.info d.msg with
  | .ok (t, r) => some ⟨d.querier, d.env, d.info, d.msg, s, t, r, h⟩
  | .error _ => none

def replay (api : Api) (s : Storage) : List Delivery → Option (List (Accepted api) × Storage)
  | [] => some ([], s)
  | d :: ds =>
    match d.accept api s with
    | none => none
    | some e =>
      match replay api e.after ds with
      | none => none
      | some (es, t) => some (e :: es, t)

section
variable {api : Api}

theorem accept_ok {s : Storage} {d : Delivery} {e : Accepted api} (h : d.accept api s = some e) :
    e.before = s ∧ e.env = d.env := by
  unfold Delivery.accept at h
  split at h
  · obtain rfl := Option.some.inj h
    exact ⟨rfl, rfl⟩
  · cases h

theorem replay_run {s t : Storage} {ds : List Delivery} {es : List (Accepted api)}
    (h : replay api s ds = some (es, t)) :
    Run s es t ∧ es.map Accepted.time = ds.map fun d => d.env.blockTime.nanos := by
  induction ds generalizing s es with
  | nil =>
    obtain ⟨rfl, rfl⟩ := Prod.mk.inj (Option.some.inj h)
    exact ⟨.nil _, rfl⟩
  | cons d ds ih =>
    unfold replay at h
    split at h
    · cases h
    · next e accepted =>
      split at h
      · cases h
      · next es' t' rest =>
        obtain ⟨rfl, rfl⟩ := Prod.mk.inj (Option.some.inj h)
        obtain ⟨rfl, env⟩ := accept_ok accepted
        obtain ⟨run, times⟩ := ih rest
        refine ⟨Transition.Steps.append (Transition.Steps.single e) run, ?_⟩
        simp [times, Accepted.time, env]

theorem replay_reached {s t : Storage} {ds : List Delivery} {es : List (Accepted api)} (start : Start api s)
    (h : replay api s ds = some (es, t)) (order : (ds.map fun d => d.env.blockTime.nanos).Pairwise (· ≤ ·)) :
    Reached api es t := by
  obtain ⟨run, times⟩ := replay_run h
  refine ⟨⟨s, start, run⟩, ?_⟩
  rw [← times, List.pairwise_map] at order
  exact order

end

/-! ### A small chain -/

namespace Demo

def book : List (Addr × CanonicalAddr) :=
  [("contract", ⟨[1]⟩), ("market", ⟨[2]⟩), ("seller", ⟨[3]⟩), ("alice", ⟨[4]⟩), ("bob", ⟨[5]⟩), ("platform", ⟨[6]⟩),
    ("sity", ⟨[7]⟩)]

def seller : CanonicalAddr := ⟨[3]⟩

def alice : CanonicalAddr := ⟨[4]⟩

def bob : CanonicalAddr := ⟨[5]⟩

def unknown {α : Type} : Except StdError α := .error (.genericErr "unknown address")

def api : Api where
  addrValidate address := if book.any (·.1 = address) then .ok address else unknown
  addrCanonicalize address :=
    match book.find? (·.1 = address) with
    | some entry => .ok entry.2
    | none => unknown
  addrHumanize canonical :=
    match book.find? (·.2 = canonical) with
    | some entry => .ok entry.1
    | none => unknown

theorem book_inverse : ∀ entry ∈ book,
    api.addrCanonicalize entry.1 = .ok entry.2 ∧ api.addrHumanize entry.2 = .ok entry.1 := by decide

theorem humanize_canonicalize {a : Addr} {c : CanonicalAddr} (h : api.addrCanonicalize a = .ok c) :
    api.addrHumanize c = .ok a := by
  unfold api at h
  dsimp only at h
  split at h
  · next entry found =>
    obtain rfl := Except.ok.inj h
    have same : entry.1 = a := by simpa using List.find?_some found
    rw [← same]
    exact (book_inverse entry (List.mem_of_find?_eq_some found)).2
  · cases h

theorem lawful : api.Lawful where
  humanize {a c} h := ⟨a, humanize_canonicalize h⟩
  canonicalize {c h} read := by
    unfold api at read
    dsimp only at read
    split at read
    · next entry found =>
      obtain rfl := Except.ok.inj read
      have same : entry.2 = c := by simpa using List.find?_some found
      rw [← same]
      exact (book_inverse entry (List.mem_of_find?_eq_some found)).1
    · cases read

def amount (n : Nat) : Uint128 := ⟨n % 2 ^ 128, Nat.mod_lt _ (by decide)⟩

def percent (n : Nat) : Decimal := ⟨n % 101 * 10 ^ 16, by omega⟩

/-- A tax of one percent, at most 1000000 coins. No collection names a minter. -/
def querier : Querier where
  taxRate := .ok (percent 1)
  taxCap _ := .ok (amount 1000000)
  minter _ := none
  mintingInfo _ := none

def instantiateMsg : InstantiateMsg where
  denom := "uusd"
  cw20CodeId := 9
  cw20Label := "cw20"
  bidMargin := percent 5
  lotaFee := percent 5
  lotaFeeLow := ⟨175 * 10 ^ 14, by decide⟩
  lotaContract := "platform"
  sityFullRewards := percent 10
  sityPartialRewards := percent 1
  sityFeeRegistration := percent 2
  sityMinOpening := amount 1000000

def env (seconds : Nat) : Env := { blockTime := .wrapping (seconds * 10 ^ 9), contractAddress := "contract" }

def coins (n : Nat) : List Coin := [{ denom := "uusd", amount := amount n }]

/-- The answer to the instantiation of the SITY token, which is at `sity`. -/
def sityReply : Reply := { id := 0, result := .ok [⟨"instantiate_contract", [("contract_address", "sity")]⟩] }

def history (msg : InstantiateMsg) (rate : Decimal) (ds : List Delivery) : Option (List (Accepted api) × Storage) :=
  match instantiate ⟨api, querier⟩ (env 1000) ⟨"seller", []⟩ msg with
  | .error _ => none
  | .ok (s, _) =>
    match reply ⟨api, querier⟩ s (env 1000) sityReply with
    | .error _ => none
    | .ok (t, _) => replay api { t with cancellation := { cancellationFee := rate } } ds

theorem history_reached {msg : InstantiateMsg} {rate : Decimal} {ds : List Delivery} {es : List (Accepted api)}
    {s : Storage} (h : history msg rate ds = some (es, s))
    (order : (ds.map fun d => d.env.blockTime.nanos).Pairwise (· ≤ ·)) : Reached api es s := by
  unfold history at h
  split at h
  · cases h
  · next done =>
    split at h
    · cases h
    · next deployed _ answered => exact replay_reached ⟨deployed, rate, .replied (.instantiated done) answered, rfl⟩ h order

structure Scenario where
  msg : InstantiateMsg
  rate : Decimal
  deliveries : List Delivery
  accepted : (history msg rate deliveries).isSome
  order : (deliveries.map fun d => d.env.blockTime.nanos).Pairwise (· ≤ ·)

def Scenario.log (run : Scenario) : List (Accepted api) :=
  ((history run.msg run.rate run.deliveries).get run.accepted).1

def Scenario.final (run : Scenario) : Storage := ((history run.msg run.rate run.deliveries).get run.accepted).2

theorem Scenario.reached (run : Scenario) : Reached api run.log run.final :=
  history_reached (Option.some_get run.accepted).symm run.order

theorem Scenario.reached_at (run : Scenario) (n : Nat) (here : n < run.log.length) :
    Reached api (run.log.take n ++ run.log[n] :: run.log.drop (n + 1)) run.final := by
  rw [List.getElem_cons_drop, List.take_append_drop]
  exact run.reached

def Scenario.listed (run : Scenario) (i : Nat) (present : (run.final.items.mayLoad i).isSome) : ItemInfo :=
  (run.final.items.mayLoad i).get present

theorem Scenario.listed_found (run : Scenario) {i : Nat} (present : (run.final.items.mayLoad i).isSome) :
    run.final.items.mayLoad i = some (run.listed i present) :=
  (Option.some_get present).symm

/-- A message that would be accepted after the run. -/
def Scenario.next (run : Scenario) (d : Delivery) (accepted : (d.accept api run.final).isSome) : Accepted api :=
  (d.accept api run.final).get accepted

theorem Scenario.next_before (run : Scenario) (d : Delivery) (accepted : (d.accept api run.final).isSome) :
    (run.next d accepted).before = run.final :=
  (accept_ok (Option.some_get accepted).symm).1

theorem answers : Answers querier "uusd" where
  rate := ⟨_, rfl, by decide⟩
  cap := ⟨_, rfl⟩

def deliver (seconds : Nat) (sender : Addr) (funds : List Coin) (msg : ExecuteMsg) : Delivery where
  querier := querier
  env := env seconds
  info := ⟨sender, funds⟩
  msg := msg

/-- `seller` lists a token of the collection `market` at time 1000, to be auctioned until 2000. -/
def listing (startPrice instantBuy reservePrice : Option Uint128) (privateSale : Bool) : Delivery :=
  deliver 1000 "market" [] (.receiveNft
    { sender := "seller"
      tokenId := "token"
      msg := .ok (.createAuctionNft
        { startPrice, startTime := none, endTime := 2000, charity := none, instantBuy, reservePrice, privateSale }) })

/-- `bob` outbids `alice` and wins; `alice` leaves afterwards. -/
def soldToBob : Scenario where
  msg := instantiateMsg
  rate := percent 10
  deliveries := [listing none none none false, deliver 1000 "alice" (coins 100) (.placeBid 0),
    deliver 1100 "bob" (coins 200) (.placeBid 0), deliver 2001 "seller" [] (.withdrawNft 0),
    deliver 2002 "alice" [] (.retractBids 0)]
  accepted := by decide
  order := by decide

end Demo

end NftMarketplace
