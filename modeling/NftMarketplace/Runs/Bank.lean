import NftMarketplace.Runs.Emissions
import NftMarketplace.Runs.Escrow
import NftMarketplace.Runs.Taxes

/-!
The contract's balance at the bank, against the accounts of the auctions. The bank takes the chain's tax
from the sender on top of a transfer; the contract deducts it from what it transfers, so the accounts are
covered. What the deduction holds back too much, and what no auction took in, stays in the contract.
-/

namespace Cosmwasm
open CappedTax

/-- What a transfer of `coin` takes from the balance: the coin and the tax on it. That the chain charges it so, with the
rate and the cap it answers with, is the convention of `deduct_tax`. -/
def Querier.charge (querier : Querier) (coin : Coin) : Nat :=
  match querier.taxRate, querier.taxCap coin.denom with
  | .ok rate, .ok cap => coin.amount.u128 + levy decimalFractional rate.atomics cap.u128 coin.amount.u128
  | _, _ => coin.amount.u128

def amountOf (denom : String) (coins : List Coin) (value : Coin → Nat) : Nat :=
  ((coins.filter (·.denom = denom)).map value).sum

def CosmosMsg.debit (querier : Querier) (denom : String) : CosmosMsg → Nat
  | .bankSend _ coins _ => amountOf denom coins querier.charge
  | .wasm _ => 0

end Cosmwasm

namespace NftMarketplace
open Cosmwasm CappedTax Transition

namespace Accepted
variable {api : Api} (e : Accepted api)

def credit (denom : String) : Nat := amountOf denom e.info.funds fun coin => coin.amount.u128

def debit (denom : String) : Nat := (e.response.messages.map (CosmosMsg.debit e.querier denom)).sum

def transfers : Nat := (e.response.messages.filterMap CosmosMsg.paid).length

/-- Coins of the contract's denomination that no auction takes in. -/
def idle : Nat :=
  match e.msg with
  | .placeBid _ | .instantBuy _ => 0
  | .cancelAuction i => if ((e.item i).bind ItemInfo.highestBid).isSome then 0 else e.credit e.before.config.denom
  | _ => e.credit e.before.config.denom

end Accepted

/-- What the bank has of the contract's coins after the messages `es`. -/
def balance {api : Api} (denom : String) (es : List (Accepted api)) : ℤ :=
  (total (Accepted.credit · denom) es : ℕ) - (total (Accepted.debit · denom) es : ℕ)

section
variable {api : Api} {e : Accepted api} {es : List (Accepted api)} {s : Storage} {i : Nat} {denom : String}

/-! ### One transfer -/

theorem TaxedSend.debit {querier : Querier} {config : Config} {dest : String} {amount : Uint128} {m : CosmosMsg}
    (send : TaxedSend querier config dest amount m) :
    m.debit querier config.denom ≤ m.gross ∧
      ((∀ rate, querier.taxRate = .ok rate → rate ≤ Decimal.one) → m.gross ≤ m.debit querier config.denom + 2) := by
  obtain ⟨n, rate, cap, rfl, rateRead, capRead, after⟩ := send
  have positive : 0 < decimalFractional := by decide
  have debit : (CosmosMsg.bankSend dest [{ denom := config.denom, amount := n }] amount).debit querier config.denom =
      n.u128 + levy decimalFractional rate.atomics cap.u128 n.u128 := by
    simp [CosmosMsg.debit, amountOf, Querier.charge, rateRead, capRead]
  rw [debit, after, netOf_eq]
  exact ⟨net_add_levy_le positive, fun small => le_net_add_levy positive (small rate rateRead)⟩

theorem TaxedSend.debit_other {querier : Querier} {config : Config} {dest : String} {amount : Uint128} {m : CosmosMsg}
    (send : TaxedSend querier config dest amount m) (other : denom ≠ config.denom) : m.debit querier denom = 0 := by
  obtain ⟨n, rate, cap, rfl, _⟩ := send
  simp [CosmosMsg.debit, amountOf, Ne.symm other]

/-- A message is a transfer of the contract, or moves no coins. -/
theorem Emits.moves {m : CosmosMsg} (emitted : Emits e m) :
    (∃ dest amount, TaxedSend e.querier e.before.config dest amount m) ∨ ∃ call, m = .wasm call := by
  cases emitted with
  | refund _ _ _ send | share _ _ _ _ send | fee _ _ _ _ _ send => exact Or.inl ⟨_, _, send⟩
  | partialReward | fullReward | burn | nft => exact Or.inr ⟨_, rfl⟩

/-! ### One response -/

theorem debits_le {querier : Querier} {config : Config} {msgs : List CosmosMsg}
    (moves : ∀ m ∈ msgs, (∃ dest amount, TaxedSend querier config dest amount m) ∨ ∃ call, m = .wasm call) :
    (msgs.map (CosmosMsg.debit querier config.denom)).sum ≤ grossOf msgs ∧
      ((∀ rate, querier.taxRate = .ok rate → rate ≤ Decimal.one) →
        grossOf msgs ≤ (msgs.map (CosmosMsg.debit querier config.denom)).sum + 2 * (msgs.filterMap CosmosMsg.paid).length) := by
  induction msgs with
  | nil => exact ⟨le_rfl, fun _ => le_rfl⟩
  | cons m msgs ih =>
    obtain ⟨below, above⟩ := ih fun m' member => moves m' (List.mem_cons_of_mem m member)
    rw [List.map_cons, List.sum_cons, grossOf_cons]
    rcases moves m List.mem_cons_self with ⟨dest, amount, send⟩ | ⟨call, rfl⟩
    · obtain ⟨le, ge⟩ := send.debit
      rw [List.filterMap_cons_some send.paid, List.length_cons]
      refine ⟨Nat.add_le_add le below, fun small => ?_⟩
      have first := ge small
      have rest := above small
      omega
    · have nothing : (CosmosMsg.wasm call).paid = none := rfl
      have zero : (CosmosMsg.wasm call).debit querier config.denom = 0 := rfl
      have gross : (CosmosMsg.wasm call).gross = 0 := rfl
      rw [List.filterMap_cons_none nothing, zero, gross]
      exact ⟨by omega, fun small => by have rest := above small; omega⟩

theorem Reached.debit (reached : Reached api es e.before) :
    e.debit e.before.config.denom ≤ e.response.gross ∧
      ((∀ rate, e.querier.taxRate = .ok rate → rate ≤ Decimal.one) →
        e.response.gross ≤ e.debit e.before.config.denom + 2 * e.transfers) :=
  debits_le fun m sent => (reached.emits m sent).moves

theorem Reached.debit_other (reached : Reached api es e.before) (other : denom ≠ e.before.config.denom) :
    e.debit denom = 0 := by
  apply List.sum_eq_zero
  rw [List.forall_mem_map]
  intro m sent
  rcases (reached.emits m sent).moves with ⟨dest, amount, send⟩ | ⟨call, rfl⟩
  · exact send.debit_other other
  · rfl

/-! ### One message, on the accounts of all auctions -/

theorem about_lt (e : Accepted api) (wellFormed : WellFormed api e.before)
    (about : e.msg.auction e.before.state.counterItems = some i) : i < e.after.state.counterItems := by
  have present : (e.after.slice i).item.isSome := by
    cases effect e i with
    | away elsewhere => exact (elsewhere about).elim
    | listed _ _ after => simp [after]
    | registered _ _ spec after => rw [after]; simp [spec.stored]
    | placed _ _ after => simp [after, Slice.afterBid]
    | bought _ _ after => simp [after, Slice.afterPurchase]
    | retracted _ spec after => rw [after]; simp [spec.stored]
    | withdrawn _ _ after => simp [after]
    | cancelled _ _ after => simp [after]
  by_contra above
  rw [(wellFormed_step e wellFormed).unlisted i (Nat.le_of_not_lt above)] at present
  cases present

/-- The sum of an account's movements over the auctions is the movement at the auction the message is about. -/
theorem sum_about {f : Nat → Nat} {n : Nat} (wellFormed : WellFormed api e.before) (enough : e.after.state.counterItems ≤ n)
    (away : ∀ i, e.msg.auction e.before.state.counterItems ≠ some i → f i = 0) :
    ∑ i ∈ Finset.range n, f i = ((e.msg.auction e.before.state.counterItems).map f).getD 0 := by
  cases about : e.msg.auction e.before.state.counterItems with
  | none => exact Finset.sum_eq_zero fun i _ => away i (by simp [about])
  | some j =>
    refine Finset.sum_eq_single j (fun i _ other => away i (by simp [about, Ne.symm other])) fun outside => ?_
    have below := about_lt e wellFormed about
    exact (outside (Finset.mem_range.mpr (by omega))).elim

theorem credit_single {amount : Uint128} (funds : e.info.funds = [{ denom, amount }]) :
    e.credit denom = amount.u128 := by
  simp [Accepted.credit, amountOf, funds]

theorem received_about (e : Accepted api) :
    ((e.msg.auction e.before.state.counterItems).map e.received).getD 0 + e.idle = e.credit e.before.config.denom := by
  cases message : e.msg with
  | placeBid j =>
    obtain ⟨_, _, _, _, spec, _⟩ := Accepted.placed message
    simp [ExecuteMsg.auction, (moves_deposit (Or.inl message)).received, Accepted.idle, message,
      attached_single spec.funds, credit_single spec.funds]
  | instantBuy j =>
    obtain ⟨_, _, _, _, spec, _⟩ := Accepted.bought message
    simp [ExecuteMsg.auction, (moves_deposit (Or.inr message)).received, Accepted.idle, message,
      attached_single spec.funds, credit_single spec.funds]
  | cancelAuction j =>
    obtain ⟨item, fee, _, spec, _⟩ := Accepted.cancelled message
    have found : e.item j = some item := spec.stored
    simp only [ExecuteMsg.auction, Option.map_some, Option.getD_some, (moves_cancel message spec.stored).received,
      Accepted.idle, message, found, Option.bind_some]
    rcases cancellationFees_ok spec.fees with ⟨unbid, _⟩ | ⟨bid, funds, _⟩
    · simp [unbid]
    · rw [if_pos bid, if_pos bid, attached_single funds, credit_single funds]
      rfl
  | receive wrapper =>
    obtain ⟨j, _, _, _, payload, _⟩ := Accepted.registered message
    simp [ExecuteMsg.auction, payload, (moves_registered message).received, Accepted.idle, message]
  | retractBids j => simp [ExecuteMsg.auction, (moves_refund message).received, Accepted.idle, message]
  | withdrawNft j =>
    obtain ⟨_, _, _, _, _, _, spec, _⟩ := Accepted.withdrawn message
    simp [ExecuteMsg.auction, (moves_payout message spec.stored).received, Accepted.idle, message]
  | receiveNft wrapper => simp [ExecuteMsg.auction, (moves_listed message).received, Accepted.idle, message]
  | updateRoyalty => simp [ExecuteMsg.auction, Accepted.idle, message]

theorem sent_about (e : Accepted api) :
    ((e.msg.auction e.before.state.counterItems).map e.sent).getD 0 = e.response.gross := by
  have silent (quiet : e.msg.Silent) : e.response.gross = 0 := by
    rw [Response.gross_eq, Accepted.silent quiet]
    rfl
  cases message : e.msg with
  | placeBid j => simp [ExecuteMsg.auction, (moves_deposit (Or.inl message)).sent, silent (message ▸ trivial)]
  | instantBuy j => simp [ExecuteMsg.auction, (moves_deposit (Or.inr message)).sent, silent (message ▸ trivial)]
  | receiveNft wrapper => simp [ExecuteMsg.auction, (moves_listed message).sent, silent (message ▸ trivial)]
  | updateRoyalty => simp [ExecuteMsg.auction, silent (message ▸ trivial)]
  | retractBids j => simp [ExecuteMsg.auction, (moves_refund message).sent]
  | withdrawNft j =>
    obtain ⟨_, _, _, _, _, _, spec, _⟩ := Accepted.withdrawn message
    simp [ExecuteMsg.auction, (moves_payout message spec.stored).sent]
  | cancelAuction j =>
    obtain ⟨_, _, _, spec, _⟩ := Accepted.cancelled message
    simp [ExecuteMsg.auction, (moves_cancel message spec.stored).sent]
  | receive wrapper =>
    obtain ⟨j, _, _, _, payload, _⟩ := Accepted.registered message
    obtain ⟨_, _, _, burns⟩ := Accepted.burn_of_receive message
    simp [ExecuteMsg.auction, payload, (moves_registered message).sent, Response.gross_eq, burns, CosmosMsg.gross]

theorem received_away (away : e.msg.auction e.before.state.counterItems ≠ some i) : e.received i = 0 :=
  (moves_away away).received

theorem sent_away (away : e.msg.auction e.before.state.counterItems ≠ some i) : e.sent i = 0 := (moves_away away).sent

/-! ### Runs -/

theorem Reached.accounts (reached : Reached api es s) {n : Nat} (enough : s.state.counterItems ≤ n) :
    ∑ i ∈ Finset.range n, total (Accepted.received · i) es + total Accepted.idle es =
        total (Accepted.credit · s.config.denom) es ∧
      ∑ i ∈ Finset.range n, total (Accepted.sent · i) es = total (fun e => e.response.gross) es := by
  refine reached.induction (P := fun es s => s.state.counterItems ≤ n →
    ∑ i ∈ Finset.range n, total (Accepted.received · i) es + total Accepted.idle es =
        total (Accepted.credit · s.config.denom) es ∧
      ∑ i ∈ Finset.range n, total (Accepted.sent · i) es = total (fun e => e.response.gross) es) ?_ ?_ enough
  · intro s _ _
    simp
  · intro es e before _ ih enough
    have counted := (frame e).counter
    obtain ⟨credits, sends⟩ := ih (by omega)
    have received := sum_about (f := e.received) before.wellFormed enough fun _ => received_away
    have sent := sum_about (f := e.sent) before.wellFormed enough fun _ => sent_away
    have credited := received_about e
    rw [sent_about] at sent
    rw [(frame e).config]
    simp only [total_append, total_singleton, Finset.sum_add_distrib]
    constructor <;> omega

/-- No rate that the chain names exceeds one. -/
def Taxed (es : List (Accepted api)) : Prop := ∀ e ∈ es, ∀ rate, e.querier.taxRate = .ok rate → rate ≤ Decimal.one

theorem Reached.debits (reached : Reached api es s) :
    total (Accepted.debit · s.config.denom) es ≤ total (fun e => e.response.gross) es ∧
      (Taxed es → total (fun e => e.response.gross) es ≤
        total (Accepted.debit · s.config.denom) es + 2 * total Accepted.transfers es) := by
  apply reached.induction (P := fun es s =>
    total (Accepted.debit · s.config.denom) es ≤ total (fun e => e.response.gross) es ∧
      (Taxed es → total (fun e => e.response.gross) es ≤
        total (Accepted.debit · s.config.denom) es + 2 * total Accepted.transfers es))
  · intro s _
    exact ⟨le_rfl, fun _ => le_rfl⟩
  · intro es e before _ ⟨below, above⟩
    obtain ⟨le, ge⟩ := before.debit
    rw [(frame e).config]
    simp only [total_append, total_singleton]
    refine ⟨Nat.add_le_add below le, fun taxed => ?_⟩
    have earlier := above fun e' member => taxed e' (by simp [member])
    have last := ge (taxed e (by simp))
    omega

theorem Reached.debits_other (reached : Reached api es s) (other : denom ≠ s.config.denom) :
    total (Accepted.debit · denom) es = 0 := by
  apply total_eq_zero
  intro e member
  have setup := reached.setup_at member
  obtain ⟨pre, post, rfl⟩ := List.append_of_mem member
  exact reached.before.1.debit_other (by rwa [setup.config])

theorem sum_escrow (n : Nat) (es : List (Accepted api)) :
    ∑ i ∈ Finset.range n, escrow i es =
      (∑ i ∈ Finset.range n, total (Accepted.received · i) es : ℕ) -
        (∑ i ∈ Finset.range n, total (Accepted.sent · i) es : ℕ) := by
  simp [escrow, Finset.sum_sub_distrib]

/-- The balance is what the accounts of the auctions hold, and the coins that no auction took in. Each transfer
can leave up to two units more behind. Coins of other denominations never leave. -/
theorem bank_balance (reached : Reached api es s) :
    ∑ i ∈ Finset.range s.state.counterItems, escrow i es + (total Accepted.idle es : ℕ) ≤ balance s.config.denom es ∧
      (Taxed es → balance s.config.denom es ≤
        ∑ i ∈ Finset.range s.state.counterItems, escrow i es + (total Accepted.idle es : ℕ) +
          2 * (total Accepted.transfers es : ℕ)) ∧
      ∀ denom, denom ≠ s.config.denom → balance denom es = (total (Accepted.credit · denom) es : ℕ) := by
  obtain ⟨credits, sends⟩ := reached.accounts le_rfl
  obtain ⟨below, above⟩ := reached.debits
  rw [sum_escrow, balance]
  refine ⟨by omega, fun taxed => ?_, fun denom other => ?_⟩
  · have slack := above taxed
    omega
  · rw [balance, reached.debits_other other]
    simp

/-! ### What is owed -/

instance (item : ItemInfo) (b : CanonicalAddr) : Decidable (item.Bound b) := inferInstanceAs (Decidable (_ ∧ _))

/-- What auction `i` can still be asked for: the deposits of all who are not bound, and the payout of a
settlement that did not take place yet. -/
def Storage.owed (s : Storage) (i : Nat) : Nat :=
  match s.items.mayLoad i with
  | none => 0
  | some item => ∑ b ∈ (s.bidders i).filter (¬ item.Bound ·), (s.totalBid i b).u128 + s.pendingPayout i

theorem Reached.owed_le (reached : Reached api es s) (order : Orderly i es) : (s.owed i : ℤ) ≤ escrow i es := by
  unfold Storage.owed
  cases found : s.items.mayLoad i with
  | none =>
    have balance : (auction i es s).sent ≤ (auction i es s).received := by
      have run : EnglishAuction.Reachable 0 True (auction i es s) :=
        reached.simulates (fun _ h => nomatch h.symm.trans (show (s.slice i).item = none from found)) fun _ => order
      have away : ∀ c ∈ (∅ : Finset CanonicalAddr), ¬ (auction i es s).Bound 0 c := by simp
      have covers := EnglishAuction.solvent run away
      omega
    have received : (auction i es s).received = total (Accepted.received · i) es := rfl
    have sent : (auction i es s).sent = total (Accepted.sent · i) es := rfl
    unfold escrow
    push_cast
    omega
  | some item =>
    have present : (s.slice i).item = some item := found
    have run : EnglishAuction.Reachable item.reserve True (auction i es s) :=
      reached.simulates (fun other h => by rw [Option.some.inj (h.symm.trans present)]) fun _ => order
    have away : ∀ b ∈ (s.bidders i).filter (¬ item.Bound ·), ¬ (auction i es s).Bound item.reserve b := by
      intro b member
      rw [bound_iff present]
      exact (Finset.mem_filter.mp member).2
    have covers := EnglishAuction.solvent run away
    have sums : ∑ b ∈ (s.bidders i).filter (¬ item.Bound ·), (auction i es s).deposit b =
        ∑ b ∈ (s.bidders i).filter (¬ item.Bound ·), (s.totalBid i b).u128 :=
      Finset.sum_congr rfl fun b _ => slice_totalBid s i b
    have proceeds : (auction i es s).proceeds item.reserve = item.proceeds :=
      proceeds_eq (reached.sound present) (by simp [auction, Slice.highestBidder, present])
        (Slice.highestBid_getD _ present)
    have pending : (auction i es s).pending item.reserve = s.pendingPayout i := by
      rw [EnglishAuction.State.pending, proceeds, Storage.pendingPayout, found]
      cases settled : item.resolved <;> simp [auction, Slice.resolved, present, settled]
    have received : (auction i es s).received = total (Accepted.received · i) es := rfl
    have sent : (auction i es s).sent = total (Accepted.sent · i) es := rfl
    dsimp only
    rw [pending, sums, received, sent] at covers
    unfold escrow
    omega

theorem balance_snoc (denom : String) (es : List (Accepted api)) (e : Accepted api) :
    balance denom (es ++ [e]) = balance denom es + (e.credit denom : ℕ) - (e.debit denom : ℕ) := by
  simp only [balance, total_append, total_singleton]
  omega

theorem Reached.owed_le_balance (reached : Reached api es s) (order : ∀ i, Orderly i es) :
    ((∑ i ∈ Finset.range s.state.counterItems, s.owed i : ℕ) : ℤ) ≤ balance s.config.denom es := by
  obtain ⟨credits, sends⟩ := reached.accounts le_rfl
  have below := reached.debits.1
  have owed : ((∑ i ∈ Finset.range s.state.counterItems, s.owed i : ℕ) : ℤ) ≤
      ∑ i ∈ Finset.range s.state.counterItems, escrow i es := by
    push_cast
    exact Finset.sum_le_sum fun i _ => reached.owed_le (order i)
  rw [sum_escrow] at owed
  unfold balance
  omega

/-- When nothing is cancelled after its sale, the bank can pay all that the auctions owe together, and it could
pay for every message when it was handled. -/
theorem bank_covers (reached : Reached api es s) (order : ∀ i, Orderly i es) :
    ((∑ i ∈ Finset.range s.state.counterItems, s.owed i : ℕ) : ℤ) ≤ balance s.config.denom es ∧
      ∀ pre e post, es = pre ++ e :: post →
        (e.debit s.config.denom : ℤ) ≤ balance s.config.denom pre + (e.credit s.config.denom : ℕ) := by
  refine ⟨reached.owed_le_balance order, ?_⟩
  rintro pre e post rfl
  have setup := reached.setup_at (e := e) (by simp)
  obtain ⟨before, _, earlier, _⟩ := reached.before
  have handled : Reached api (pre ++ [e]) e.after := before.snoc earlier
  have covered := handled.owed_le_balance fun i => (order i).sublist (by simp)
  rw [(frame e).config, setup.config, balance_snoc] at covered
  omega

end

/-- Between the sale and the refund `alice` is owed 100 coins, and the bank has two more. -/
theorem bank_covers_soldToBob :
    (Demo.soldToBob.log.get ⟨4, by decide⟩).before.owed 0 = 100 ∧
      balance "uusd" (Demo.soldToBob.log.take 4) = 102 ∧
      ((∑ i ∈ Finset.range 1, (Demo.soldToBob.log.get ⟨4, by decide⟩).before.owed i : ℕ) : ℤ) ≤
        balance "uusd" (Demo.soldToBob.log.take 4) := by
  have about : ∀ e ∈ Demo.soldToBob.log.take 4, e.msg.auction e.before.state.counterItems = some 0 := by decide
  have uncancelled : ∀ e ∈ Demo.soldToBob.log.take 4, e.msg ≠ .cancelAuction 0 := by decide
  have order : ∀ i, Orderly i (Demo.soldToBob.log.take 4) := by
    intro i
    refine List.pairwise_of_forall_mem_list fun w _ e member message => ?_
    have subject := about e member
    rw [message] at subject
    obtain rfl := Option.some.inj subject
    exact (uncancelled e member message).elim
  refine ⟨by decide, by decide, ?_⟩
  exact (bank_covers (Demo.soldToBob.reached_at 4 (by decide)).before.1 order).1

theorem bank_balance_soldToBob :
    escrow 0 Demo.soldToBob.log = 0 ∧ total Accepted.idle Demo.soldToBob.log = 0 ∧
      total Accepted.transfers Demo.soldToBob.log = 3 ∧ balance "uusd" Demo.soldToBob.log = 3 ∧
      balance "uusd" Demo.soldToBob.log ≤
        ∑ i ∈ Finset.range 1, escrow i Demo.soldToBob.log + (total Accepted.idle Demo.soldToBob.log : ℕ) +
          2 * (total Accepted.transfers Demo.soldToBob.log : ℕ) := by
  have rates : ∀ e ∈ Demo.soldToBob.log, e.querier.taxRate.toOption = some (Demo.percent 1) := by decide
  have taxed : Taxed Demo.soldToBob.log := by
    intro e member rate read
    have one := rates e member
    rw [read] at one
    rw [Option.some.inj one]
    decide
  exact ⟨by decide, by decide, by decide, by decide, (bank_balance Demo.soldToBob.reached).2.1 taxed⟩

end NftMarketplace
