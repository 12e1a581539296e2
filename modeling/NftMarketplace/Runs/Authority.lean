import NftMarketplace.Runs.Closing
import NftMarketplace.Runs.Emissions
import NftMarketplace.Runs.Royalties

/-!
What belongs to an address. Its entries change only by messages that it sent itself, or that a token
contract passes on for it; and a deposit that is free stays free, whatever the others do.
-/

namespace NftMarketplace
open Cosmwasm

/-- On whose behalf a message acts: for a notification by a token contract, whoever sent the token. -/
def Accepted.actor {api : Api} (e : Accepted api) : Option CanonicalAddr :=
  match e.msg with
  | .receive wrapper => (api.addrCanonicalize wrapper.sender).toOption
  | .receiveNft wrapper => (api.addrCanonicalize wrapper.sender).toOption
  | _ => e.sender

section
variable {api : Api} {es fs : List (Accepted api)} {e : Accepted api} {s t : Storage} {i : Nat} {b : CanonicalAddr}
  {item : ItemInfo}

/-! ### One message -/

/-- What `b` has in an auction: its entry, its log, and whether it is held to its bid. -/
structure Untouched (b : CanonicalAddr) (x y : Slice) : Prop where
  bid : y.bid b = x.bid b
  bidderLog : y.bidderLog b = x.bidderLog b
  bound : ∀ item, y.item = some item → item.Bound b → ∃ old, x.item = some old ∧ old.Bound b

theorem Untouched.deposit {x : Slice} {item : ItemInfo} {c : CanonicalAddr} {total : Uint128}
    {first entry : HistoryBidInfo} (other : c ≠ b) (leads : item.highestBidder = some c) :
    Untouched b x (x.deposit item c total first entry) where
  bid := by rw [Slice.deposit_bid, if_neg other.symm]
  bidderLog := by simp [Slice.deposit, other.symm]
  bound := by
    rintro item' ⟨⟩ bound
    exact (other (Option.some.inj (leads.symm.trans bound.1))).elim

theorem Untouched.withBid {x : Slice} {bid : BidInfo} {c : CanonicalAddr} (other : c ≠ b) :
    Untouched b x (x.withBid c bid) where
  bid := by rw [Slice.withBid_bid, if_neg other.symm]
  bidderLog := rfl
  bound item found bound := ⟨item, found, bound⟩

theorem Effect.untouched (h : Effect e i) (other : e.actor ≠ some b) :
    Untouched b (e.before.slice i) (e.after.slice i) := by
  have notSender {c : CanonicalAddr} (acts : e.actor = e.sender) (sender : api.addrCanonicalize e.info.sender = .ok c) :
      c ≠ b := by
    rintro rfl
    exact other (acts.trans (Accepted.sender_ok sender))
  cases h with
  | away _ same =>
    rw [same]
    exact ⟨rfl, rfl, fun item found bound => ⟨item, found, bound⟩⟩
  | listed _ listing after =>
    rw [after]
    refine ⟨rfl, rfl, ?_⟩
    rintro item ⟨⟩ bound
    exact nomatch listing.spec.unled.symm.trans bound.1
  | @registered wrapper c _ _ message _ spec after =>
    rw [after]
    have acts : e.actor = (api.addrCanonicalize wrapper.sender).toOption := by rw [Accepted.actor, message]
    apply Untouched.withBid
    rintro rfl
    exact other (acts.trans (by rw [spec.sender]; rfl))
  | placed message spec after =>
    rw [after]
    exact .deposit (notSender (by rw [Accepted.actor, message]) spec.sender) rfl
  | bought message spec after =>
    rw [after]
    exact .deposit (notSender (by rw [Accepted.actor, message]) spec.sender) rfl
  | retracted message spec after =>
    rw [after]
    exact .withBid (notSender (by rw [Accepted.actor, message]) spec.sender)
  | withdrawn _ spec after =>
    rw [after]
    refine ⟨rfl, rfl, ?_⟩
    rintro item ⟨⟩ bound
    exact ⟨_, spec.stored, bound⟩
  | cancelled _ spec after =>
    rw [after]
    refine ⟨rfl, rfl, ?_⟩
    rintro item ⟨⟩ bound
    exact nomatch bound.1

theorem royaltyMinter_actor (other : e.actor ≠ some b) : e.royaltyMinter ≠ some b := by
  unfold Accepted.royaltyMinter
  split
  · next message => rwa [Accepted.actor, message] at other
  · nofun

/-- A refund pays the whole deposit, before tax. -/
theorem refund_gross (message : e.msg = .retractBids i) (sender : e.sender = some b) :
    e.response.gross = (e.before.totalBid i b).u128 := by
  obtain ⟨c, item, bid, send, rewards, spec, _, _, sends⟩ := Accepted.retracted message
  obtain rfl : c = b := Option.some.inj ((Accepted.sender_ok spec.sender).symm.trans sender)
  have entry : e.before.bids.mayLoad (i, c) = some bid := spec.entry
  rw [Response.gross_eq, sends, spec.gross, Storage.totalBid, entry]
  rfl

/-! ### Runs -/

theorem Run.untouched (run : Run s fs t) (others : ∀ e ∈ fs, e.actor ≠ some b) (i : Nat) :
    Untouched b (s.slice i) (t.slice i) := by
  induction run with
  | nil => exact ⟨rfl, rfl, fun item found bound => ⟨item, found, bound⟩⟩
  | snoc e _ ih =>
    have before := ih fun e' member => others e' (by simp [member])
    have last := (effect e i).untouched (others e (by simp))
    refine ⟨last.bid.trans before.bid, last.bidderLog.trans before.bidderLog, ?_⟩
    intro item found bound
    obtain ⟨old, present, earlier⟩ := last.bound item found bound
    exact before.bound old present earlier

/-- While nothing is done on behalf of `b`, nothing that is stored under `b` changes. -/
theorem own_messages_only (run : Run s fs t) (others : ∀ e ∈ fs, e.actor ≠ some b) :
    (∀ i, t.bids.mayLoad (i, b) = s.bids.mayLoad (i, b) ∧
        t.historiesBidder.mayLoad (i, b) = s.historiesBidder.mayLoad (i, b)) ∧
      t.royalty.mayLoad b = s.royalty.mayLoad b :=
  ⟨fun i => ⟨(run.untouched others i).bid, (run.untouched others i).bidderLog⟩,
    record_kept_run run fun e member => royaltyMinter_actor (others e member)⟩

/-- A deposit that `b` could take back can be taken back after anything that the others do, and in full. -/
theorem free_deposit_stays_free (lawful : api.Lawful) (reached : Reached api es s) (found : s.items.mayLoad i = some item)
    (free : ¬ item.Bound b) (positive : 0 < (s.totalBid i b).u128)
    (fits : scale (s.totalBid i b).u128 s.config.sityPartialRewards.atomics < 2 ^ 128) (run : Run s fs t)
    (others : ∀ e ∈ fs, e.actor ≠ some b) :
    CanRetract api t i b ∧
      ∀ e : Accepted api, e.before = t → e.msg = .retractBids i → e.sender = some b →
        e.response.gross = (s.totalBid i b).u128 := by
  have kept := run.untouched others i
  have deposit : t.totalBid i b = s.totalBid i b := by
    rw [Storage.totalBid, show t.bids.mayLoad (i, b) = s.bids.mayLoad (i, b) from kept.bid]
    rfl
  obtain ⟨item', found', _⟩ := Run.same_terms run reached.wellFormed found
  have free' : ¬ item'.Bound b := by
    intro bound
    obtain ⟨old, present, earlier⟩ := kept.bound item' found' bound
    obtain rfl := Option.some.inj (present.symm.trans found)
    exact free earlier
  have fits' : RewardFits t i b := by
    intro _ _ bid entry _
    rw [Storage.totalBid, Option.mem_def.mp entry, Option.map_some, Option.getD_some] at deposit
    rwa [deposit, run.setup.config]
  constructor
  · exact canRetract lawful (Run.wellFormed run reached.wellFormed) found' free' (deposit ▸ positive) fits'
  · rintro e rfl message sender
    rw [refund_gross message sender, deposit]

end

/-- `bob` outbids `alice` and is sold the token before she leaves. -/
def Demo.unclaimed : Demo.Scenario where
  msg := instantiateMsg
  rate := Decimal.zero
  deliveries := [listing none none none false, deliver 1000 "alice" (coins 100) (.placeBid 0),
    deliver 1100 "bob" (coins 200) (.placeBid 0), deliver 2001 "seller" [] (.withdrawNft 0)]
  accepted := by decide
  order := by decide

theorem own_messages_only_unclaimed :
    ∃ s : Storage, (s.totalBid 0 Demo.alice).u128 = 100 ∧
      Demo.unclaimed.final.bids.mayLoad (0, Demo.alice) = s.bids.mayLoad (0, Demo.alice) := by
  have run := (Demo.unclaimed.reached_at 1 (by decide)).before.2.1
  have others : ∀ e ∈ Demo.unclaimed.log.drop 2, e.actor ≠ some Demo.alice := by decide
  exact ⟨_, by decide, ((own_messages_only run others).1 0).1⟩

theorem free_deposit_stays_free_unclaimed : CanRetract Demo.api Demo.unclaimed.final 0 Demo.alice := by
  obtain ⟨before, run, earlier, _⟩ := (Demo.unclaimed.reached_at 2 (by decide)).before
  have found : ((Demo.unclaimed.log.get ⟨2, by decide⟩).after.items.mayLoad 0) =
      some (((Demo.unclaimed.log.get ⟨2, by decide⟩).after.items.mayLoad 0).get (by decide)) :=
    (Option.some_get _).symm
  have free : ¬ (((Demo.unclaimed.log.get ⟨2, by decide⟩).after.items.mayLoad 0).get (by decide)).Bound Demo.alice := by
    rintro ⟨leads, _⟩
    revert leads
    decide
  exact (free_deposit_stays_free Demo.lawful (before.snoc earlier) found free (by decide) (by decide) run (by decide)).1

end NftMarketplace
