import NftMarketplace.Proofs.Aborts
import NftMarketplace.Runs.Funds
import NftMarketplace.Runs.Sales

/-!
A contract with modest rates never aborts: while deposits stay below half of what a `Uint128` holds, every
message it is sent, in every state it can reach, is either accepted or refused with an error.
-/

namespace NftMarketplace
open Cosmwasm Outcome

/-- No deposit of the run reached `n`. -/
def DepositsBelow {api : Api} (n : Nat) (es : List (Accepted api)) : Prop :=
  ∀ e ∈ es, ∀ i b, (e.after.totalBid i b).u128 < n

section
variable {api : Api} {es : List (Accepted api)} {e : Accepted api} {s : Storage} {i n : Nat}

theorem Effect.price_lt (h : Effect e i) (before : (e.before.slice i).highestBid.getD 0 < n)
    (deposits : ∀ b, (e.after.slice i).totalBid b < n) : (e.after.slice i).highestBid.getD 0 < n := by
  cases h with
  | away _ same => rwa [same]
  | listed _ listing after =>
    rw [Slice.highestBid_getD _ (congrArg Slice.item after), ItemInfo.price, listing.spec.unbid]
    exact Nat.zero_lt_of_lt before
  | registered _ _ _ after => rwa [after, Slice.withBid_highestBid]
  | @placed b _ _ total _ _ after =>
    have deposit := deposits b
    rw [after, Slice.afterBid, Slice.deposit_totalBid, if_pos rfl] at deposit
    rwa [Slice.highestBid_getD _ (congrArg Slice.item after)]
  | @bought b _ _ price _ _ after =>
    have deposit := deposits b
    rw [after, Slice.afterPurchase, Slice.deposit_totalBid, if_pos rfl] at deposit
    rwa [Slice.highestBid_getD _ (congrArg Slice.item after)]
  | retracted _ _ after => rwa [after, Slice.withBid_highestBid]
  | withdrawn _ spec after =>
    rw [Slice.highestBid_getD _ spec.stored] at before
    rwa [Slice.highestBid_getD _ (congrArg Slice.item after)]
  | cancelled _ spec after =>
    rw [Slice.highestBid_getD _ spec.stored] at before
    rwa [Slice.highestBid_getD _ (congrArg Slice.item after)]

/-- The highest bid was somebody's deposit once. -/
theorem Reached.price_lt (reached : Reached api es s) (positive : 0 < n) (below : DepositsBelow n es) (i : Nat) :
    (s.slice i).highestBid.getD 0 < n := by
  refine reached.induction (P := fun es s => DepositsBelow n es → (s.slice i).highestBid.getD 0 < n) ?_ ?_ below
  · intro s fresh _
    simpa [fresh.slice, Slice.highestBid, Slice.empty] using positive
  · intro es e _ _ ih below
    refine (effect e i).price_lt (ih fun e' member => below e' (by simp [member])) fun b => ?_
    rw [slice_totalBid]
    exact below e (by simp) i b

theorem Config.Modest.splittable (reached : Reached api es s) (modest : s.config.Modest) {querier : Querier}
    {item : ItemInfo} {collection : Addr} {minter : Option CanonicalAddr} (found : s.items.mayLoad i = some item)
    (asked : queryMinter ⟨api, querier⟩ collection = .ok minter) : Splittable s.config item (royaltyOf s minter) where
  rates r due := by
    have known : ∀ m, minter = some m → ∃ a, api.addrCanonicalize a = .ok m := fun m named =>
      queryMinter_ok (asked.trans (congrArg Except.ok named))
    have fee : r.2.fee.atomics ≤ 10 ^ 17 := (royaltyOf_capped reached.royaltiesCapped known due).1
    have platform := modest.platformRate item
    unfold decimalFractional
    omega
  platform := by
    have platform := modest.platformRate item
    unfold decimalFractional
    omega
  charity c given := ((reached.keeps payee_invariant found).charity c given).2.1

theorem depositsBelow_of_keys (positive : 0 < n)
    (below : ∀ e ∈ es, ∀ key ∈ e.after.bids.keys, (e.after.totalBid key.1 key.2).u128 < n) : DepositsBelow n es := by
  intro e member i b
  by_cases known : (i, b) ∈ e.after.bids.keys
  · exact below e member (i, b) known
  · rw [FiniteMap.mem_keys, Option.not_isSome_iff_eq_none] at known
    simpa [Storage.totalBid, known] using positive

/-- A message asks for arithmetic that fits: the deposit it makes, and the first end of an auction it lists. -/
structure Reasonable (deps : Deps) (s : Storage) (env : Env) (info : MessageInfo) (msg : ExecuteMsg) : Prop where
  deposit : ∀ i, msg = .placeBid i → Fits deps s info i
  listing : ∀ wrapper args, msg = .receiveNft wrapper → wrapper.msg = .ok (.createAuctionNft args) →
    args.startTime.getD env.blockTime.seconds + MIN_TIME_AUCTION < 2 ^ 64

end

end NftMarketplace
