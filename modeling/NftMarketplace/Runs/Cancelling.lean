import NftMarketplace.Runs.Items
import NftMarketplace.Runs.Replay

/-!
Cancellations under the rate that `instantiate` stores. It is zero and nothing changes it, so from
the first bid on a cancellation asks for one coin of amount zero, which the chain does not carry.
-/

namespace NftMarketplace
open Cosmwasm

section
variable {api : Api} {es : List (Accepted api)} {start s : Storage} {i : Nat} {item : ItemInfo}

theorem Deployed.free (deployed : Deployed api start) : start.cancellation.cancellationFee = Decimal.zero := by
  induction deployed with
  | instantiated h => exact (instantiate_ok h).2
  | replied _ h ih =>
    obtain ⟨_, _, _, rfl⟩ := reply_ok h
    exact ih

theorem Run.cancellation {t : Storage} (run : Run s es t) : t.cancellation = s.cancellation := by
  induction run with
  | nil => rfl
  | snoc e _ ih => exact (frame e).cancellation.trans ih

/-- A chain carries no coins of amount zero. -/
def Carried (funds : List Coin) : Prop := ∀ coin ∈ funds, 0 < coin.amount.u128

/-- `sender` can attach coins with which its cancellation is accepted. -/
def CanCancel (api : Api) (querier : Querier) (s : Storage) (env : Env) (sender : Addr) (i : Nat) : Prop :=
  ∃ funds, Carried funds ∧ ∃ p, execute ⟨api, querier⟩ s env ⟨sender, funds⟩ (.cancelAuction i) = .ok p

theorem cannot_cancel {querier : Querier} {env : Env} {sender : Addr}
    (free : s.cancellation.cancellationFee = Decimal.zero) (found : (s.slice i).item = some item)
    (bid : item.highestBid ≠ none) : ¬ CanCancel api querier s env sender i := by
  intro can
  obtain ⟨funds, carried, ⟨t, r⟩, accepted⟩ := can
  change executeCancelAuction ⟨api, querier⟩ s env ⟨sender, funds⟩ i = _ at accepted
  obtain ⟨stored, fee, msgs, spec, _, _, _⟩ := executeCancelAuction_ok accepted
  obtain rfl := Option.some.inj (found.symm.trans spec.stored)
  rcases cancellationFees_ok spec.fees with ⟨unbid, _, _⟩ | ⟨_, attached, feeIs, _⟩
  · exact bid unbid
  · have nothing : fee.u128 = 0 := by
      rw [feeIs, free]
      show item.price * 0 / decimalFractional = 0
      rw [Nat.mul_zero, Nat.zero_div]
    have funds_are : funds = [{ denom := s.config.denom, amount := fee }] := attached
    have positive : 0 < fee.u128 := carried _ (by rw [funds_are]; exact List.mem_singleton_self _)
    omega

/-- The creator of a live auction can cancel it exactly until the first bid. -/
theorem can_cancel_iff (deployed : Deployed api start) (run : Run start es s)
    (found : s.items.mayLoad i = some item) (querier : Querier) {env : Env}
    (live : env.blockTime.seconds ≤ item.endTime) {sender : Addr}
    (creator : api.addrCanonicalize sender = .ok item.creator) :
    CanCancel api querier s env sender i ↔ item.highestBid = none := by
  have free : s.cancellation.cancellationFee = Decimal.zero := by
    rw [run.cancellation]
    exact deployed.free
  constructor
  · intro can
    by_contra bid
    exact cannot_cancel free found bid can
  · intro unbid
    refine ⟨[], ?_, ?_⟩
    · intro coin member
      cases member
    · exact executeCancelAuction_unbid found live creator unbid

end

namespace Demo

theorem history_run {msg : InstantiateMsg} {rate : Decimal} {ds : List Delivery} {es : List (Accepted api)}
    {s : Storage} (h : history msg rate ds = some (es, s)) (untouched : rate = Decimal.zero) :
    ∃ start, Deployed api start ∧ Run start es s := by
  unfold history at h
  split at h
  · cases h
  · next done =>
    split at h
    · cases h
    · next start _ answered =>
      have deployed : Deployed api start := .replied (.instantiated done) answered
      have same : { start with cancellation := { cancellationFee := rate } } = start := by
        rw [untouched, ← deployed.free]
      rw [same] at h
      exact ⟨start, deployed, (replay_run h).1⟩

theorem Scenario.deployed_run (run : Scenario) (untouched : run.rate = Decimal.zero) :
    ∃ start, Deployed api start ∧ Run start run.log run.final :=
  history_run (Option.some_get run.accepted).symm untouched

/-- `alice` bids on an auction without a reserve. -/
def bidByAlice : Scenario where
  msg := instantiateMsg
  rate := Decimal.zero
  deliveries := [listing none none none false, deliver 1000 "alice" (coins 100) (.placeBid 0)]
  accepted := by decide
  order := by decide

def justListed : Scenario where
  msg := instantiateMsg
  rate := Decimal.zero
  deliveries := [listing none none none false]
  accepted := by decide
  order := by decide

end Demo

/-- Once `alice` has bid, `seller` cannot cancel any more. -/
theorem seller_cannot_cancel :
    ∃ (start : Storage) (es : List (Accepted Demo.api)) (s : Storage) (item : ItemInfo),
      Deployed Demo.api start ∧ Run start es s ∧ s.items.mayLoad 0 = some item ∧ item.resolved = false ∧
      600 ≤ (Demo.env 1500).blockTime.seconds ∧ (Demo.env 1500).blockTime.seconds ≤ item.endTime ∧
      Demo.api.addrCanonicalize "seller" = .ok item.creator ∧ ¬ CanCancel Demo.api Demo.querier s (Demo.env 1500) "seller" 0 := by
  obtain ⟨start, deployed, run⟩ := Demo.bidByAlice.deployed_run rfl
  have found := Demo.bidByAlice.listed_found (i := 0) (by decide)
  have free : Demo.bidByAlice.final.cancellation.cancellationFee = Decimal.zero := by decide
  refine ⟨start, _, _, _, deployed, run, found, by decide, by decide, by decide, by decide, ?_⟩
  exact cannot_cancel free found (by decide)

theorem can_cancel_justListed :
    CanCancel Demo.api Demo.querier Demo.justListed.final (Demo.env 1500) "seller" 0 := by
  obtain ⟨start, deployed, run⟩ := Demo.justListed.deployed_run rfl
  have found := Demo.justListed.listed_found (i := 0) (by decide)
  apply (can_cancel_iff deployed run found Demo.querier (by decide) (by decide)).mpr
  decide

end NftMarketplace
