import NftMarketplace.Lib.Run
import NftMarketplace.Proofs.Listings
import NftMarketplace.Proofs.Payouts

/-!
Runs of the contract. A run is a chain of accepted messages, each with the storage it found and the
storage it left. What a message does to one auction is said once, in `Effect`; every invariant of
an auction is an induction over a run with `Effect` as its step.
-/

namespace NftMarketplace
open Cosmwasm Outcome

/-- A message that `execute` accepted. Other modules may answer every message differently; the
address functions are the chain's. -/
structure Accepted (api : Api) where
  querier : Querier
  env : Env
  info : MessageInfo
  msg : ExecuteMsg
  before : Storage
  after : Storage
  response : Response
  accepted : execute ⟨api, querier⟩ before env info msg = .ok (after, response)

namespace Accepted
variable {api : Api} (e : Accepted api)

def deps : Deps := ⟨api, e.querier⟩

def time : Nat := e.env.blockTime.nanos

def now : Nat := e.env.blockTime.seconds

def sender : Option CanonicalAddr := (api.addrCanonicalize e.info.sender).toOption

def attached : Nat := (e.info.funds.map fun coin => coin.amount.u128).sum

def item (i : Nat) : Option ItemInfo := e.before.items.mayLoad i

end Accepted

/-- The auction a message is about. A listing is about the next free number. -/
def ExecuteMsg.auction (counter : Nat) : ExecuteMsg → Option Nat
  | .placeBid i | .retractBids i | .withdrawNft i | .instantBuy i | .cancelAuction i => some i
  | .updateRoyalty _ _ => none
  | .receiveNft _ => some counter
  | .receive wrapper =>
    match wrapper.msg with
    | .ok (.registerPrivateSale i) => some i
    | _ => none

def ExecuteMsg.listings : ExecuteMsg → Nat
  | .receiveNft _ => 1
  | _ => 0

theorem listings_le_one (msg : ExecuteMsg) : msg.listings ≤ 1 := by
  cases msg <;> simp [ExecuteMsg.listings]

def ExecuteMsg.Silent : ExecuteMsg → Prop
  | .placeBid _ | .instantBuy _ | .updateRoyalty _ _ | .receiveNft _ => True
  | _ => False

section Messages
variable {api : Api}

structure ListedBy (e : Accepted api) (wrapper : Cw721ReceiveMsg) (args : CreateAuctionNft) (item : ItemInfo) :
    Prop where
  message : e.msg = .receiveNft wrapper
  payload : wrapper.msg = .ok (.createAuctionNft args)
  spec : Listed api e.env e.info wrapper.sender wrapper.tokenId args item
  written : ListedIn e.before e.after item
  quiet : e.response.messages = []

/-- What an accepted message does to auction `i`, with what it checked. -/
inductive Effect (e : Accepted api) (i : Nat) : Prop where
  | away (elsewhere : e.msg.auction e.before.state.counterItems ≠ some i)
      (same : e.after.slice i = e.before.slice i)
  | listed {wrapper : Cw721ReceiveMsg} {args : CreateAuctionNft} {item : ItemInfo}
      (number : e.before.state.counterItems = i) (listing : ListedBy e wrapper args item)
      (after : e.after.slice i = (e.before.slice i).withItem item)
  | registered {wrapper : Cw20ReceiveMsg} {b : CanonicalAddr} {item : ItemInfo} {cw20 : Addr}
      (message : e.msg = .receive wrapper) (payload : wrapper.msg = .ok (.registerPrivateSale i))
      (spec : Registered api e.before.config e.env (e.before.slice i) wrapper.sender wrapper.amount b item)
      (after : e.after.slice i = (e.before.slice i).withBid b (.registered wrapper.amount))
      (burns : e.response.messages = [.wasm (.executeCw20 cw20 (.burn wrapper.amount))])
  | placed {b : CanonicalAddr} {item : ItemInfo} {sent total : Uint128}
      (message : e.msg = .placeBid i)
      (spec : Placed api e.before.config e.env e.info (e.before.slice i) b item sent total)
      (after : e.after.slice i = (e.before.slice i).afterBid e.env b item total)
      (quiet : e.response.messages = [])
  | bought {b : CanonicalAddr} {item : ItemInfo} {sent price : Uint128}
      (message : e.msg = .instantBuy i)
      (spec : Bought api e.before.config e.env e.info (e.before.slice i) b item sent price)
      (after : e.after.slice i = (e.before.slice i).afterPurchase e.env b item sent price)
      (quiet : e.response.messages = [])
  | retracted {b : CanonicalAddr} {item : ItemInfo} {bid : BidInfo} {send : CosmosMsg} {rewards : List CosmosMsg}
      (message : e.msg = .retractBids i)
      (spec : Retracted e.deps e.before e.info (e.before.slice i) b item bid send rewards)
      (after : e.after.slice i = (e.before.slice i).withBid b bid.refunded)
      (sends : e.response.messages = send :: rewards)
  | withdrawn {item : ItemInfo} {collection owner : Addr} {minter : Option CanonicalAddr} {shares : Shares}
      {payouts : List CosmosMsg} (message : e.msg = .withdrawNft i)
      (spec : Withdrawn e.deps e.before e.env (e.before.slice i) item collection owner minter shares payouts)
      (after : e.after.slice i = (e.before.slice i).withItem item.settled)
      (sends : e.response.messages = handOver collection owner item :: payouts)
  | cancelled {item : ItemInfo} {fee : Uint128} {msgs : List CosmosMsg}
      (message : e.msg = .cancelAuction i)
      (spec : Cancelled e.deps e.before e.env e.info (e.before.slice i) item fee msgs)
      (after : e.after.slice i = (e.before.slice i).withItem (item.cancelled e.env.blockTime))
      (sends : e.response.messages = msgs)

structure Frame (e : Accepted api) : Prop where
  config : e.after.config = e.before.config
  cancellation : e.after.cancellation = e.before.cancellation
  cw20Address : e.after.state.cw20Address = e.before.state.cw20Address
  counter : e.after.state.counterItems = e.before.state.counterItems + e.msg.listings

theorem SameElsewhere.frame {e : Accepted api} {i : Nat} (same : SameElsewhere i e.before e.after)
    (unlisted : e.msg.listings = 0) : Frame e where
  config := same.config
  cancellation := same.cancellation
  cw20Address := by rw [same.state]
  counter := by rw [same.state, unlisted, Nat.add_zero]

theorem SameElsewhere.effect {e : Accepted api} {i j : Nat} (same : SameElsewhere j e.before e.after)
    (about : e.msg.auction e.before.state.counterItems = some j) (here : i = j → Effect e i) : Effect e i := by
  by_cases itself : i = j
  · exact here itself
  · refine .away ?_ (same.slice i itself)
    rw [about]
    intro h
    exact itself (Option.some.inj h).symm

section Handlers
variable {e : Accepted api} {i : Nat}

theorem Accepted.placed (message : e.msg = .placeBid i) :
    ∃ b item sent total, Placed api e.before.config e.env e.info (e.before.slice i) b item sent total ∧
      e.after.slice i = (e.before.slice i).afterBid e.env b item total ∧ SameElsewhere i e.before e.after ∧
      e.response.messages = [] := by
  have accepted := e.accepted
  rw [message] at accepted
  exact executePlaceBid_ok accepted

theorem Accepted.bought (message : e.msg = .instantBuy i) :
    ∃ b item sent price, Bought api e.before.config e.env e.info (e.before.slice i) b item sent price ∧
      e.after.slice i = (e.before.slice i).afterPurchase e.env b item sent price ∧
      SameElsewhere i e.before e.after ∧ e.response.messages = [] := by
  have accepted := e.accepted
  rw [message] at accepted
  exact executeInstantBuy_ok accepted

theorem Accepted.retracted (message : e.msg = .retractBids i) :
    ∃ b item bid send rewards, Retracted e.deps e.before e.info (e.before.slice i) b item bid send rewards ∧
      e.after.slice i = (e.before.slice i).withBid b bid.refunded ∧ SameElsewhere i e.before e.after ∧
      e.response.messages = send :: rewards := by
  have accepted := e.accepted
  rw [message] at accepted
  change executeRetractBids e.deps e.before e.env e.info i = _ at accepted
  exact executeRetractBids_ok accepted

theorem Accepted.withdrawn (message : e.msg = .withdrawNft i) :
    ∃ item collection owner minter shares payouts,
      Withdrawn e.deps e.before e.env (e.before.slice i) item collection owner minter shares payouts ∧
      e.after.slice i = (e.before.slice i).withItem item.settled ∧ SameElsewhere i e.before e.after ∧
      e.response.messages = handOver collection owner item :: payouts := by
  have accepted := e.accepted
  rw [message] at accepted
  exact executeWithdrawNft_ok accepted

theorem Accepted.cancelled (message : e.msg = .cancelAuction i) :
    ∃ item fee msgs, Cancelled e.deps e.before e.env e.info (e.before.slice i) item fee msgs ∧
      e.after.slice i = (e.before.slice i).withItem (item.cancelled e.env.blockTime) ∧
      SameElsewhere i e.before e.after ∧ e.response.messages = msgs := by
  have accepted := e.accepted
  rw [message] at accepted
  exact executeCancelAuction_ok accepted

theorem Accepted.listedBy {wrapper : Cw721ReceiveMsg} (message : e.msg = .receiveNft wrapper) :
    ∃ args item, ListedBy e wrapper args item := by
  have accepted := e.accepted
  rw [message] at accepted
  obtain ⟨payload, read, accepted⟩ := bind_ok accepted
  rw [std_ok] at read
  cases payload with
  | registerPrivateSale j => cases accepted
  | createAuctionNft args =>
    obtain ⟨item, spec, written, quiet⟩ := executeCreateAuction_ok accepted
    exact ⟨args, item, message, read, spec, written, quiet⟩

theorem Accepted.registered {wrapper : Cw20ReceiveMsg} (message : e.msg = .receive wrapper) :
    ∃ j b item cw20, wrapper.msg = .ok (.registerPrivateSale j) ∧
      Registered api e.before.config e.env (e.before.slice j) wrapper.sender wrapper.amount b item ∧
      e.after.slice j = (e.before.slice j).withBid b (.registered wrapper.amount) ∧
      SameElsewhere j e.before e.after ∧
      e.response.messages = [.wasm (.executeCw20 cw20 (.burn wrapper.amount))] := by
  have accepted := e.accepted
  rw [message] at accepted
  obtain ⟨cw20, _, accepted⟩ := bind_ok accepted
  obtain ⟨_, _, accepted⟩ := bind_ok accepted
  obtain ⟨payload, read, accepted⟩ := bind_ok accepted
  rw [std_ok] at read
  cases payload with
  | createAuctionNft args => cases accepted
  | registerPrivateSale j =>
    obtain ⟨b, item, cw20, spec, after, same, _, burns⟩ := executeRegisterPrivateSale_ok accepted
    exact ⟨j, b, item, cw20, read, spec, after, same, burns⟩

theorem Accepted.royaltySet {fee : Decimal} {recipient : Option String} (message : e.msg = .updateRoyalty fee recipient) :
    ∃ minter setRecipient announced terms,
      RoyaltySet e.deps e.info e.before.royalty fee recipient minter setRecipient announced terms ∧
      e.after = { e.before with royalty := e.before.royalty.save minter terms } ∧
      e.response =
        { messages := []
          attributes :=
            [("update_royalty", e.info.sender), ("royalty_fee", fee.toString), ("recipient", announced)] } := by
  have accepted := e.accepted
  rw [message] at accepted
  change executeUpdateRoyalty e.deps e.before e.env e.info fee recipient = _ at accepted
  exact executeUpdateRoyalty_set accepted

theorem Accepted.royalty {fee : Decimal} {recipient : Option String} (message : e.msg = .updateRoyalty fee recipient) :
    ∃ minter terms, Rated api e.info e.before.royalty fee minter terms ∧
      e.after = { e.before with royalty := e.before.royalty.save minter terms } ∧ e.response.messages = [] := by
  obtain ⟨minter, _, _, terms, spec, after, response⟩ := Accepted.royaltySet message
  exact ⟨minter, terms, spec.rated, after, by rw [response]⟩

theorem Accepted.silent (silent : e.msg.Silent) : e.response.messages = [] := by
  cases message : e.msg with
  | placeBid i =>
    obtain ⟨_, _, _, _, _, _, _, quiet⟩ := Accepted.placed message
    exact quiet
  | instantBuy i =>
    obtain ⟨_, _, _, _, _, _, _, quiet⟩ := Accepted.bought message
    exact quiet
  | updateRoyalty fee recipient =>
    obtain ⟨_, _, _, _, quiet⟩ := Accepted.royalty message
    exact quiet
  | receiveNft wrapper =>
    obtain ⟨_, _, listing⟩ := Accepted.listedBy message
    exact listing.quiet
  | _ => simp [message, ExecuteMsg.Silent] at silent

end Handlers

theorem accepted_ok (e : Accepted api) : Frame e ∧ ∀ i, Effect e i := by
  cases message : e.msg with
  | placeBid j =>
    obtain ⟨b, item, sent, total, spec, after, same, quiet⟩ := Accepted.placed message
    refine ⟨same.frame (by rw [message]; rfl), fun i => same.effect (by rw [message]; rfl) ?_⟩
    rintro rfl
    exact .placed message spec after quiet
  | retractBids j =>
    obtain ⟨b, item, bid, send, rewards, spec, after, same, sends⟩ := Accepted.retracted message
    refine ⟨same.frame (by rw [message]; rfl), fun i => same.effect (by rw [message]; rfl) ?_⟩
    rintro rfl
    exact .retracted message spec after sends
  | withdrawNft j =>
    obtain ⟨item, collection, owner, minter, shares, payouts, spec, after, same, sends⟩ := Accepted.withdrawn message
    refine ⟨same.frame (by rw [message]; rfl), fun i => same.effect (by rw [message]; rfl) ?_⟩
    rintro rfl
    exact .withdrawn message spec after sends
  | instantBuy j =>
    obtain ⟨b, item, sent, price, spec, after, same, quiet⟩ := Accepted.bought message
    refine ⟨same.frame (by rw [message]; rfl), fun i => same.effect (by rw [message]; rfl) ?_⟩
    rintro rfl
    exact .bought message spec after quiet
  | cancelAuction j =>
    obtain ⟨item, fee, msgs, spec, after, same, sends⟩ := Accepted.cancelled message
    refine ⟨same.frame (by rw [message]; rfl), fun i => same.effect (by rw [message]; rfl) ?_⟩
    rintro rfl
    exact .cancelled message spec after sends
  | updateRoyalty fee recipient =>
    obtain ⟨minter, terms, _, after, _⟩ := Accepted.royalty message
    refine ⟨?_, fun i => .away (by rw [message]; simp [ExecuteMsg.auction]) (by rw [after]; rfl)⟩
    constructor <;> rw [after]
    rw [message]
    rfl
  | receiveNft wrapper =>
    obtain ⟨args, item, listing⟩ := Accepted.listedBy message
    have written := listing.written
    constructor
    · exact {
        config := written.config
        cancellation := written.cancellation
        cw20Address := by rw [written.counter]
        counter := by rw [written.counter, message]; rfl }
    · intro i
      by_cases number : e.before.state.counterItems = i
      · refine .listed number listing ?_
        rw [← number]
        exact written.slice
      · refine .away ?_ (written.others i fun h => number h.symm)
        rw [message]
        intro h
        exact number (Option.some.inj h)
  | receive wrapper =>
    obtain ⟨j, b, item, cw20, payload, spec, after, same, burns⟩ := Accepted.registered message
    have about : e.msg.auction e.before.state.counterItems = some j := by
      rw [message, ExecuteMsg.auction, payload]
    refine ⟨same.frame (by rw [message]; rfl), fun i => same.effect about ?_⟩
    rintro rfl
    exact .registered message payload spec after burns

theorem frame (e : Accepted api) : Frame e := (accepted_ok e).1

theorem effect (e : Accepted api) (i : Nat) : Effect e i := (accepted_ok e).2 i

theorem toOption_ok {α : Type} {x : Except StdError α} {a : α} (h : x.toOption = some a) : x = .ok a := by
  cases x with
  | ok _ => exact congrArg Except.ok (Option.some.inj h)
  | error _ => cases h

theorem Accepted.sender_ok {e : Accepted api} {b : CanonicalAddr} (read : api.addrCanonicalize e.info.sender = .ok b) :
    e.sender = some b := by
  rw [Accepted.sender, read]
  rfl

end Messages

/-! ### Runs -/

section Runs
variable {api : Api}

/-- `Run s es t`: the messages `es` were accepted one after the other and led from `s` to `t`. -/
abbrev Run (s : Storage) (es : List (Accepted api)) (t : Storage) : Prop :=
  Transition.Steps Accepted.before Accepted.after s es t

abbrev Timed (es : List (Accepted api)) : Prop := Transition.Timed Accepted.time es

/-- What deployment leaves: `instantiate`, and the answer that carries the SITY token's address. -/
inductive Deployed (api : Api) : Storage → Prop where
  | instantiated {querier : Querier} {env : Env} {info : MessageInfo} {msg : InstantiateMsg} {s : Storage}
      {r : Response} (h : instantiate ⟨api, querier⟩ env info msg = .ok (s, r)) : Deployed api s
  | replied {querier : Querier} {env : Env} {msg : Reply} {s t : Storage} {r : Response} (deployed : Deployed api s)
      (h : reply ⟨api, querier⟩ s env msg = .ok (t, r)) : Deployed api t

/-- A contract before its first message. `instantiate` writes a cancellation fee of zero; any other
rate is put in its place by hand. -/
def Start (api : Api) (s : Storage) : Prop :=
  ∃ deployed rate, Deployed api deployed ∧ s = { deployed with cancellation := { cancellationFee := rate } }

structure Reached (api : Api) (es : List (Accepted api)) (s : Storage) : Prop where
  run : ∃ start, Start api start ∧ Run start es s
  timed : Timed es

theorem Deployed.fresh {s : Storage} (deployed : Deployed api s) : Fresh api s := by
  induction deployed with
  | instantiated h => exact (instantiate_ok h).1
  | replied _ h ih => exact reply_fresh ih h

theorem Start.fresh {s : Storage} (start : Start api s) : Fresh api s := by
  obtain ⟨deployed, rate, h, rfl⟩ := start
  exact ⟨h.fresh.slice, h.fresh.royalty, h.fresh.counter, h.fresh.cw20, h.fresh.lota⟩

/-- Auctions are numbered without gaps, and the numbers not given out have no data. -/
structure WellFormed (api : Api) (s : Storage) : Prop where
  unlisted : ∀ i, s.state.counterItems ≤ i → s.slice i = Slice.empty
  listed : ∀ i, i < s.state.counterItems → (s.slice i).item.isSome
  cw20 : ∃ a, api.addrCanonicalize a = .ok s.state.cw20Address
  lota : ∃ a, api.addrCanonicalize a = .ok s.config.lotaContract

theorem Fresh.wellFormed {s : Storage} (fresh : Fresh api s) : WellFormed api s where
  unlisted i _ := fresh.slice i
  listed i below := by simp [fresh.counter] at below
  cw20 := fresh.cw20
  lota := fresh.lota

/-- Only a listing touches a number that was not given out. -/
theorem Effect.of_empty {e : Accepted api} {i : Nat} (h : Effect e i) (empty : e.before.slice i = Slice.empty) :
    e.after.slice i = Slice.empty ∨ e.before.state.counterItems = i ∧ e.msg.listings = 1 := by
  have nothing {item : ItemInfo} : (e.before.slice i).item ≠ some item := by simp [empty, Slice.empty]
  cases h with
  | away _ same => exact Or.inl (same.trans empty)
  | listed number listing => exact Or.inr ⟨number, by rw [listing.message]; rfl⟩
  | registered _ _ spec => exact (nothing spec.stored).elim
  | placed _ spec => exact (nothing spec.stored).elim
  | bought _ spec => exact (nothing spec.stored).elim
  | retracted _ spec => exact (nothing spec.stored).elim
  | withdrawn _ spec => exact (nothing spec.stored).elim
  | cancelled _ spec => exact (nothing spec.stored).elim

theorem Effect.keeps_item {e : Accepted api} {i : Nat} (h : Effect e i) (present : (e.before.slice i).item.isSome) :
    (e.after.slice i).item.isSome := by
  cases h with
  | away _ same => rwa [same]
  | listed _ _ after => simp [after]
  | registered _ _ _ after => rwa [after]
  | placed _ _ after => simp [after, Slice.afterBid]
  | bought _ _ after => simp [after, Slice.afterPurchase]
  | retracted _ _ after => rwa [after]
  | withdrawn _ _ after => simp [after]
  | cancelled _ _ after => simp [after]

theorem wellFormed_step (e : Accepted api) (h : WellFormed api e.before) : WellFormed api e.after where
  unlisted i above := by
    rw [(frame e).counter] at above
    rcases (effect e i).of_empty (h.unlisted i (by omega)) with empty | ⟨number, lists⟩
    · exact empty
    · omega
  listed i below := by
    rw [(frame e).counter] at below
    by_cases old : i < e.before.state.counterItems
    · exact (effect e i).keeps_item (h.listed i old)
    · have lists : e.msg.listings ≠ 0 := by omega
      cases message : e.msg with
      | receiveNft wrapper =>
        have number : e.before.state.counterItems = i := by
          rw [message] at below
          simp only [ExecuteMsg.listings] at below
          omega
        cases effect e i with
        | away elsewhere =>
          rw [message, number] at elsewhere
          exact (elsewhere rfl).elim
        | listed _ _ after => simp [after]
        | _ => simp_all
      | _ => simp [message, ExecuteMsg.listings] at lists
  cw20 := by rw [(frame e).cw20Address]; exact h.cw20
  lota := by rw [(frame e).config]; exact h.lota

theorem Run.wellFormed {s t : Storage} {es : List (Accepted api)} (run : Run s es t) (start : WellFormed api s) :
    WellFormed api t :=
  Transition.Steps.invariant run start wellFormed_step

theorem Reached.wellFormed {s : Storage} {es : List (Accepted api)} (reached : Reached api es s) :
    WellFormed api s := by
  obtain ⟨start, deployed, run⟩ := reached.run
  exact run.wellFormed deployed.fresh.wellFormed

theorem Reached.induction {P : List (Accepted api) → Storage → Prop} {s : Storage} {es : List (Accepted api)}
    (reached : Reached api es s) (start : ∀ s, Fresh api s → P [] s)
    (step : ∀ es e, Reached api es e.before → (∀ e' ∈ es, e'.time ≤ e.time) → P es e.before → P (es ++ [e]) e.after) :
    P es s := by
  obtain ⟨first, deployed, run⟩ := reached.run
  refine Transition.Steps.timed_induction (P := fun es s => Timed es → P es s) run reached.timed
    (fun _ => start first deployed.fresh) ?_ reached.timed
  intro es e before later ih timed
  have earlier : Timed es := (Transition.timed_snoc.mp timed).1
  exact step es e ⟨⟨first, deployed, before⟩, earlier⟩ later (ih earlier)

theorem Reached.before {s : Storage} {pre post : List (Accepted api)} {e : Accepted api}
    (reached : Reached api (pre ++ e :: post) s) :
    Reached api pre e.before ∧ Run e.after post s ∧ (∀ e' ∈ pre, e'.time ≤ e.time) ∧
      (∀ e' ∈ post, e.time ≤ e'.time) ∧ Timed post := by
  obtain ⟨first, deployed, run⟩ := reached.run
  obtain ⟨before, rest⟩ := run.split_at
  obtain ⟨early, late, across⟩ := Transition.timed_append.mp reached.timed
  have tail := List.pairwise_cons.mp late
  exact ⟨⟨⟨first, deployed, before⟩, early⟩, rest, fun e' member => across e' member e List.mem_cons_self, tail.1,
    tail.2⟩

theorem Reached.snoc {es : List (Accepted api)} {e : Accepted api} (reached : Reached api es e.before)
    (later : ∀ e' ∈ es, e'.time ≤ e.time) : Reached api (es ++ [e]) e.after := by
  obtain ⟨first, deployed, run⟩ := reached.run
  exact ⟨⟨first, deployed, .snoc e run⟩, Transition.timed_snoc.mpr ⟨reached.timed, later⟩⟩

theorem now_le_of_time {e e' : Accepted api} (h : e.time ≤ e'.time) : e.now ≤ e'.now :=
  Nat.div_le_div_right h

/-- The contract next to another one, which was in one of the states `first` when this one was deployed. -/
structure Beside {τ : Type} (n : Transition.Neighbour (Accepted api) τ) (first : Storage → τ → Prop)
    (es : List (Accepted api)) (s : Storage) (x : τ) : Prop where
  joint : ∃ start y, Start api start ∧ first start y ∧
    Transition.Joint Accepted.before Accepted.after n start y es s x
  timed : Timed es

section
variable {τ : Type} {n : Transition.Neighbour (Accepted api) τ} {first : Storage → τ → Prop} {es : List (Accepted api)}
  {s : Storage} {x : τ}

theorem Beside.reached (beside : Beside n first es s x) : Reached api es s := by
  obtain ⟨start, _, deployed, _, joint⟩ := beside.joint
  exact ⟨⟨start, deployed, joint.steps⟩, beside.timed⟩

theorem Beside.induction {P : List (Accepted api) → Storage → τ → Prop} (beside : Beside n first es s x)
    (start : ∀ s y, Fresh api s → first s y → P [] s y)
    (others : ∀ es t y z, Reached api es t → P es t y → n.others y z → P es t z)
    (step : ∀ es e y z, Reached api es e.before → P es e.before y → n.reacts e y z → P (es ++ [e]) e.after z) :
    P es s x := by
  obtain ⟨s₀, x₀, deployed, here, joint⟩ := beside.joint
  refine joint.timed_induction beside.timed (start s₀ x₀ deployed.fresh here) ?_ ?_
  · intro es t y z run timed kept moves
    exact others es t y z ⟨⟨s₀, deployed, run⟩, timed⟩ kept moves
  · intro es e y z run timed _ kept reacts
    exact step es e y z ⟨⟨s₀, deployed, run⟩, timed⟩ kept reacts

end

end Runs

end NftMarketplace
