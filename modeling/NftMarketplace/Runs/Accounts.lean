import NftMarketplace.Lib.EnglishAuction
import NftMarketplace.Runs.Items

/-!
The account of one auction over a run, and the run seen as a run of an English auction: bids and
instant purchases raise the price, refunds leave, a settlement pays the price out, a cancellation
takes the lead away.
-/

namespace NftMarketplace
open Cosmwasm Transition

namespace Accepted
variable {api : Api} (e : Accepted api) (i : Nat)

def deposit : Nat := if e.msg = .placeBid i ∨ e.msg = .instantBuy i then e.attached else 0

/-- The fee that a cancellation of auction `i` charges: its coins, once there is a bid. -/
def fee : Nat :=
  if e.msg = .cancelAuction i ∧ ((e.item i).bind ItemInfo.highestBid).isSome then e.attached else 0

def received : Nat := e.deposit i + e.fee i

def refund : Nat := if e.msg = .retractBids i then e.response.gross else 0

def payout : Nat := if e.msg = .withdrawNft i then e.response.gross else 0

def cancelPayout : Nat := if e.msg = .cancelAuction i then e.response.gross else 0

def sent : Nat := e.refund i + e.payout i + e.cancelPayout i

/-- The highest bid at a settlement that sells the NFT. -/
def sale : Nat := if e.msg = .withdrawNft i then ((e.item i).map ItemInfo.proceeds).getD 0 else 0

/-- The odd coin of a cancellation fee that is split between the highest bidder and the platform. -/
def dust : Nat :=
  if e.msg = .cancelAuction i then ((e.item i).map fun item => item.remainder e.attached).getD 0 else 0

def depositBy (b : CanonicalAddr) : Nat := if e.sender = some b then e.deposit i else 0

def refundTo (b : CanonicalAddr) : Nat := if e.sender = some b then e.refund i else 0

end Accepted

section Movements
variable {api : Api} {e : Accepted api} {i : Nat}

theorem attached_single {denom : String} {amount : Uint128} (funds : e.info.funds = [{ denom, amount }]) :
    e.attached = amount.u128 := by
  simp [Accepted.attached, funds]

structure Moves (e : Accepted api) (i received sent sale dust : Nat) : Prop where
  received : e.received i = received
  sent : e.sent i = sent
  sale : e.sale i = sale
  dust : e.dust i = dust

theorem moves_away (elsewhere : e.msg.auction e.before.state.counterItems ≠ some i) : Moves e i 0 0 0 0 := by
  constructor <;> simp only [Accepted.received, Accepted.sent, Accepted.deposit, Accepted.fee, Accepted.refund,
    Accepted.payout, Accepted.cancelPayout, Accepted.sale, Accepted.dust] <;>
    cases message : e.msg <;> simp_all [ExecuteMsg.auction]

theorem moves_listed {wrapper : Cw721ReceiveMsg} (message : e.msg = .receiveNft wrapper) : Moves e i 0 0 0 0 := by
  constructor <;> simp [Accepted.received, Accepted.sent, Accepted.deposit, Accepted.fee, Accepted.refund,
    Accepted.payout, Accepted.cancelPayout, Accepted.sale, Accepted.dust, message]

theorem moves_registered {wrapper : Cw20ReceiveMsg} (message : e.msg = .receive wrapper) : Moves e i 0 0 0 0 := by
  constructor <;> simp [Accepted.received, Accepted.sent, Accepted.deposit, Accepted.fee, Accepted.refund,
    Accepted.payout, Accepted.cancelPayout, Accepted.sale, Accepted.dust, message]

theorem moves_deposit (message : e.msg = .placeBid i ∨ e.msg = .instantBuy i) : Moves e i e.attached 0 0 0 := by
  rcases message with message | message <;> constructor <;>
    simp [Accepted.received, Accepted.sent, Accepted.deposit, Accepted.fee, Accepted.refund, Accepted.payout,
      Accepted.cancelPayout, Accepted.sale, Accepted.dust, message]

theorem moves_refund (message : e.msg = .retractBids i) : Moves e i 0 e.response.gross 0 0 := by
  constructor <;> simp [Accepted.received, Accepted.sent, Accepted.deposit, Accepted.fee, Accepted.refund,
    Accepted.payout, Accepted.cancelPayout, Accepted.sale, Accepted.dust, message]

theorem moves_payout {item : ItemInfo} (message : e.msg = .withdrawNft i) (found : (e.before.slice i).item = some item) :
    Moves e i 0 e.response.gross item.proceeds 0 := by
  have found : e.item i = some item := found
  constructor <;> simp [Accepted.received, Accepted.sent, Accepted.deposit, Accepted.fee, Accepted.refund,
    Accepted.payout, Accepted.cancelPayout, Accepted.sale, Accepted.dust, message, found]

theorem moves_cancel {item : ItemInfo} (message : e.msg = .cancelAuction i)
    (found : (e.before.slice i).item = some item) :
    Moves e i (if item.highestBid.isSome then e.attached else 0) e.response.gross 0 (item.remainder e.attached) := by
  have found : e.item i = some item := found
  constructor <;> simp [Accepted.received, Accepted.sent, Accepted.deposit, Accepted.fee, Accepted.refund,
    Accepted.payout, Accepted.cancelPayout, Accepted.sale, Accepted.dust, message, found]

end Movements

def Storage.bidders (s : Storage) (i : Nat) : Finset CanonicalAddr :=
  (s.bids.keys.filter fun key => key.1 = i).image Prod.snd

theorem mem_bidders {s : Storage} {i : Nat} {b : CanonicalAddr} :
    b ∈ s.bidders i ↔ ((s.slice i).bid b).isSome := by
  simp [Storage.bidders, FiniteMap.mem_keys, Storage.slice]

theorem totalBid_of_not_bidder {s : Storage} {i : Nat} {b : CanonicalAddr} (absent : b ∉ s.bidders i) :
    (s.slice i).totalBid b = 0 := by
  rw [mem_bidders, Option.not_isSome_iff_eq_none] at absent
  simp [Slice.totalBid, absent]

noncomputable def Storage.deposits (s : Storage) (i : Nat) : CanonicalAddr →₀ ℕ :=
  Finsupp.onFinset (s.bidders i) (s.slice i).totalBid fun _ nonzero =>
    not_not.mp fun absent => nonzero (totalBid_of_not_bidder absent)

@[simp] theorem deposits_apply (s : Storage) (i : Nat) (b : CanonicalAddr) :
    s.deposits i b = (s.slice i).totalBid b := rfl

theorem deposits_same {s t : Storage} {i : Nat} (same : ∀ c, (t.slice i).totalBid c = (s.slice i).totalBid c) :
    t.deposits i = s.deposits i := by
  ext c
  exact same c

theorem deposits_update {s t : Storage} {i n : Nat} {b : CanonicalAddr}
    (update : ∀ c, (t.slice i).totalBid c = if c = b then n else (s.slice i).totalBid c) :
    t.deposits i = (s.deposits i).update b n := by
  classical
  ext c
  rw [deposits_apply, update, Finsupp.update_apply, deposits_apply]

/-- Auction `i` of a run as an English auction. -/
noncomputable def auction {api : Api} (i : Nat) (es : List (Accepted api)) (s : Storage) :
    EnglishAuction.State CanonicalAddr where
  deposit := s.deposits i
  price := (s.slice i).highestBid
  leader := (s.slice i).highestBidder
  sale := if (s.slice i).resolved then some (total (Accepted.sale · i) es) else none
  received := total (Accepted.received · i) es
  sent := total (Accepted.sent · i) es
  dust := total (Accepted.dust · i) es

theorem proceeds_eq {item : ItemInfo} (sound : Sound item) {σ : EnglishAuction.State CanonicalAddr}
    (leader : σ.leader = item.highestBidder) (price : σ.price.getD 0 = item.price) :
    σ.proceeds item.reserve = item.proceeds := by
  unfold EnglishAuction.State.proceeds ItemInfo.proceeds
  rw [leader, price]
  by_cases back : saleRecipient item = item.creator
  · rw [if_pos back, if_neg]
    rintro ⟨led, met⟩
    obtain ⟨b, lead⟩ := Option.isSome_iff_exists.mp led
    obtain ⟨rfl, outside⟩ := sound.bound_iff.mp ⟨lead, met⟩
    exact outside back
  · obtain ⟨lead, met⟩ := sound.bound_iff.mpr ⟨rfl, back⟩
    rw [if_neg back, if_pos ⟨by rw [lead]; rfl, met⟩]

section Simulation
variable {api : Api} {es : List (Accepted api)} {e : Accepted api} {s : Storage} {i reserve : Nat} {orderly : Prop}

theorem sale_of_ne (other : e.msg ≠ .withdrawNft i) : e.sale i = 0 := if_neg other

theorem Reached.unsold (reached : Reached api es s) (unresolved : (s.slice i).resolved = false) :
    total (Accepted.sale · i) es = 0 := by
  refine reached.induction (P := fun es s => (s.slice i).resolved = false → total (Accepted.sale · i) es = 0)
    (fun _ _ _ => rfl) ?_ unresolved
  intro es e before _ ih unresolved
  rw [total_append, total_singleton]
  rcases (effect e i).resolved before.wellFormed with ⟨_, _, settled⟩ | ⟨other, same⟩
  · rw [unresolved] at settled
    cases settled
  · rw [ih (same ▸ unresolved), sale_of_ne other]

theorem auction_snoc {received sent sale dust : Nat} (moves : Moves e i received sent sale dust) (t : Storage) :
    auction i (es ++ [e]) t =
      { deposit := t.deposits i
        price := (t.slice i).highestBid
        leader := (t.slice i).highestBidder
        sale := if (t.slice i).resolved then some (total (Accepted.sale · i) es + sale) else none
        received := (auction i es s).received + received
        sent := (auction i es s).sent + sent
        dust := (auction i es s).dust + dust } := by
  simp [auction, moves.received, moves.sent, moves.sale, moves.dust]

theorem auction_same {t : Storage} (moves : Moves e i 0 0 0 0)
    (deposits : ∀ c, (t.slice i).totalBid c = (s.slice i).totalBid c)
    (price : (t.slice i).highestBid = (s.slice i).highestBid)
    (leader : (t.slice i).highestBidder = (s.slice i).highestBidder)
    (resolved : (t.slice i).resolved = (s.slice i).resolved) : auction i (es ++ [e]) t = auction i es s := by
  rw [auction_snoc (s := s) moves, deposits_same deposits, price, leader, resolved]
  rfl

theorem auction_placed {b : CanonicalAddr} {item : ItemInfo} {sent amount : Uint128}
    (message : e.msg = .placeBid i)
    (spec : Placed api e.before.config e.env e.info (e.before.slice i) b item sent amount)
    (after : e.after.slice i = (e.before.slice i).afterBid e.env b item amount) :
    auction i (es ++ [e]) e.after = (auction i es e.before).bid b sent.u128 := by
  have update : e.after.deposits i = (e.before.deposits i).update b amount.u128 :=
    deposits_update fun c => by rw [after, Slice.afterBid, Slice.deposit_totalBid]
  rw [auction_snoc (s := e.before) (moves_deposit (Or.inl message)), update, attached_single spec.funds]
  simp [after, EnglishAuction.State.bid, auction, Slice.highestBid, Slice.highestBidder, Slice.resolved,
    Slice.afterBid, ItemInfo.afterBid, spec.stored, spec.compounded]

theorem auction_bought {b : CanonicalAddr} {item : ItemInfo} {sent price : Uint128}
    (message : e.msg = .instantBuy i)
    (spec : Bought api e.before.config e.env e.info (e.before.slice i) b item sent price)
    (after : e.after.slice i = (e.before.slice i).afterPurchase e.env b item sent price) :
    auction i (es ++ [e]) e.after = (auction i es e.before).bid b sent.u128 := by
  have update : e.after.deposits i = (e.before.deposits i).update b price.u128 :=
    deposits_update fun c => by rw [after, Slice.afterPurchase, Slice.deposit_totalBid]
  rw [auction_snoc (s := e.before) (moves_deposit (Or.inr message)), update, attached_single spec.funds]
  simp [after, EnglishAuction.State.bid, auction, Slice.highestBid, Slice.highestBidder, Slice.resolved,
    Slice.afterPurchase, ItemInfo.afterPurchase, spec.stored, spec.compounded]

theorem auction_retracted {b : CanonicalAddr} {item : ItemInfo} {bid : BidInfo} {send : CosmosMsg}
    {rewards : List CosmosMsg} (message : e.msg = .retractBids i)
    (spec : Retracted e.deps e.before e.info (e.before.slice i) b item bid send rewards)
    (after : e.after.slice i = (e.before.slice i).withBid b bid.refunded)
    (sends : e.response.messages = send :: rewards) :
    auction i (es ++ [e]) e.after = (auction i es e.before).refund b := by
  have update : e.after.deposits i = (e.before.deposits i).update b 0 :=
    deposits_update fun c => by rw [after, Slice.withBid_totalBid]; rfl
  have gross : e.response.gross = (e.before.slice i).totalBid b := by
    rw [Response.gross_eq, sends, spec.gross]
    simp [Slice.totalBid, spec.entry]
  rw [auction_snoc (s := e.before) (moves_refund message), update, gross]
  simp [after, EnglishAuction.State.refund, auction]

theorem auction_withdrawn {item : ItemInfo} {collection owner : Addr} {minter : Option CanonicalAddr}
    {shares : Shares} {payouts : List CosmosMsg} (reached : Reached api es e.before) (message : e.msg = .withdrawNft i)
    (spec : Withdrawn e.deps e.before e.env (e.before.slice i) item collection owner minter shares payouts)
    (after : e.after.slice i = (e.before.slice i).withItem item.settled)
    (sends : e.response.messages = handOver collection owner item :: payouts) :
    auction i (es ++ [e]) e.after = (auction i es e.before).settle item.reserve := by
  have unresolved : (e.before.slice i).resolved = false := by simp [Slice.resolved, spec.stored, spec.unresolved]
  have proceeds : (auction i es e.before).proceeds item.reserve = item.proceeds :=
    proceeds_eq (reached.sound spec.stored) (by simp [auction, Slice.highestBidder, spec.stored])
      (Slice.highestBid_getD _ spec.stored)
  have gross : e.response.gross = item.proceeds := by rw [Response.gross_eq, sends, spec.gross]
  have same : e.after.deposits i = e.before.deposits i := deposits_same fun c => by rw [after]; rfl
  rw [auction_snoc (s := e.before) (moves_payout message spec.stored), same, gross,
    reached.unsold unresolved, EnglishAuction.State.settle, proceeds]
  simp [after, auction, Slice.highestBid, Slice.highestBidder, Slice.resolved, ItemInfo.settled, spec.stored]

theorem auction_cancelled {item : ItemInfo} {fee : Uint128} {msgs : List CosmosMsg}
    (message : e.msg = .cancelAuction i)
    (spec : Cancelled e.deps e.before e.env e.info (e.before.slice i) item fee msgs)
    (after : e.after.slice i = (e.before.slice i).withItem (item.cancelled e.env.blockTime))
    (sends : e.response.messages = msgs) :
    grossOf msgs ≤ fee.u128 ∧
      auction i (es ++ [e]) e.after = (auction i es e.before).cancel fee.u128 (grossOf msgs) := by
  have gross := cancellationFees_gross spec.fees
  have charged : (if item.highestBid.isSome then e.attached else 0) = fee.u128 ∧
      item.remainder e.attached = fee.u128 - grossOf msgs := by
    rcases cancellationFees_ok spec.fees with ⟨unbid, rfl, rfl⟩ | ⟨bid, funds, _, _⟩
    · simp [unbid, ItemInfo.remainder]
    · rw [if_pos bid, attached_single funds]
      exact ⟨rfl, by omega⟩
  refine ⟨by omega, ?_⟩
  have same : e.after.deposits i = e.before.deposits i := deposits_same fun c => by rw [after]; rfl
  rw [auction_snoc (s := e.before) (moves_cancel message spec.stored), same,
    Response.gross_eq, sends, charged.1, charged.2]
  simp [after, EnglishAuction.State.cancel, auction, Slice.highestBid, Slice.highestBidder, Slice.resolved,
    ItemInfo.cancelled, spec.stored]

/-- No cancellation comes after a settlement that sold the NFT. -/
def Orderly (i : Nat) (es : List (Accepted api)) : Prop :=
  es.Pairwise fun w e => e.msg = .cancelAuction i → w.sale i = 0

instance (i : Nat) (es : List (Accepted api)) : Decidable (Orderly i es) :=
  inferInstanceAs (Decidable (es.Pairwise _))

theorem orderly_snoc (order : Orderly i (es ++ [e])) :
    Orderly i es ∧ (e.msg = .cancelAuction i → total (Accepted.sale · i) es = 0) := by
  obtain ⟨earlier, _, last⟩ := List.pairwise_append.mp order
  exact ⟨earlier, fun message => total_eq_zero _ fun w member => last w member e (by simp) message⟩

theorem Effect.simulated (h : Effect e i) (reached : Reached api es e.before)
    (kept : ∀ item, (e.before.slice i).item = some item → item.reserve = reserve)
    (order : orderly → e.msg = .cancelAuction i → total (Accepted.sale · i) es = 0) :
    auction i (es ++ [e]) e.after = auction i es e.before ∨
      EnglishAuction.Step reserve orderly (auction i es e.before) (auction i (es ++ [e]) e.after) := by
  cases h with
  | away elsewhere same =>
    left
    apply auction_same (moves_away elsewhere) <;> simp [same]
  | listed number listing after =>
    have new := reached.wellFormed.unlisted i number.le
    refine Or.inl (auction_same (moves_listed listing.message) (fun c => by rw [after]; rfl) ?_ ?_ ?_) <;>
      simp [after, new, Slice.highestBid, Slice.highestBidder, Slice.resolved, Slice.empty, listing.spec.unbid,
        listing.spec.unled, listing.spec.unresolved]
  | @registered _ b _ _ message _ spec after =>
    left
    apply auction_same (moves_registered message)
    · intro c
      rw [after, Slice.withBid_totalBid]
      split
      · next here =>
        subst here
        simp [BidInfo.registered, Slice.totalBid, spec.new]
      · rfl
    all_goals rw [after]; rfl
  | @placed b item sent amount message spec after =>
    rw [auction_placed message spec after]
    refine Or.inr (.bid b sent.u128 ?_)
    calc (e.before.slice i).highestBid.getD 0 = item.price := Slice.highestBid_getD _ spec.stored
      _ ≤ leastBid e.before.config item := price_le_leastBid _ _
      _ ≤ amount.u128 := spec.enough
      _ = (e.before.slice i).totalBid b + sent.u128 := spec.compounded
  | @bought b item sent price message spec after =>
    rw [auction_bought message spec after]
    refine Or.inr (.bid b sent.u128 ?_)
    calc (e.before.slice i).highestBid.getD 0 = item.price := Slice.highestBid_getD _ spec.stored
      _ ≤ price.u128 := (reached.sound spec.stored).capped price spec.instantBuy
      _ = (e.before.slice i).totalBid b + sent.u128 := spec.compounded
  | @retracted b item bid send rewards message spec after sends =>
    rw [auction_retracted message spec after sends]
    right
    apply EnglishAuction.Step.refund b
    intro bound
    apply spec.free
    have lead : (e.before.slice i).highestBidder = some b := bound.1
    have met : reserve ≤ (e.before.slice i).highestBid.getD 0 := bound.2
    rw [Slice.highestBid_getD _ spec.stored, ← kept item spec.stored] at met
    rw [Slice.highestBidder, spec.stored] at lead
    exact ⟨lead, met⟩
  | @withdrawn item _ _ _ _ _ message spec after sends =>
    rw [auction_withdrawn reached message spec after sends, kept item spec.stored]
    exact Or.inr (.settle (by simp [auction, Slice.resolved, spec.stored, spec.unresolved]))
  | cancelled message spec after sends =>
    obtain ⟨covered, cancel⟩ := auction_cancelled message spec after sends
    rw [cancel]
    right
    apply EnglishAuction.Step.cancel _ _ covered
    intro strict
    have unsold : total (Accepted.sale · i) es = 0 := order strict message
    simp only [auction, unsold]
    split <;> rfl

/-- A run of the contract, seen from one auction, is a run of an English auction with its reserve. -/
theorem Reached.simulates (reached : Reached api es s)
    (kept : ∀ item, (s.slice i).item = some item → item.reserve = reserve) (order : orderly → Orderly i es) :
    EnglishAuction.Reachable reserve orderly (auction i es s) := by
  refine reached.induction (P := fun es s => (∀ item, (s.slice i).item = some item → item.reserve = reserve) →
    (orderly → Orderly i es) → EnglishAuction.Reachable reserve orderly (auction i es s)) ?_ ?_ kept order
  · intro s fresh _ _
    have initial : auction i ([] : List (Accepted api)) s = EnglishAuction.State.initial := by
      refine EnglishAuction.State.ext ?_ ?_ ?_ ?_ rfl rfl rfl
      · ext b
        simp [auction, EnglishAuction.State.initial, fresh.slice]
      all_goals simp [auction, EnglishAuction.State.initial, fresh.slice, Slice.highestBid, Slice.highestBidder,
        Slice.resolved, Slice.empty]
    rw [initial]
    exact .refl
  · intro es e before _ ih kept order
    have earlier : ∀ item, (e.before.slice i).item = some item → item.reserve = reserve := fun item found => by
      obtain ⟨item', found', terms, _⟩ := (effect e i).same_terms before.wellFormed found
      rw [← reserve_of_terms terms]
      exact kept item' found'
    have reachable := ih earlier fun strict => (orderly_snoc (order strict)).1
    rcases (effect e i).simulated before earlier fun strict => (orderly_snoc (order strict)).2 with same | step
    · rw [same]
      exact reachable
    · exact reachable.tail step

end Simulation

end NftMarketplace
