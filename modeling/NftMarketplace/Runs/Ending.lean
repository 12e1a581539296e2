import NftMarketplace.Runs.Custody
import NftMarketplace.Runs.Window

/-!
When an auction ends. Only bids in the last ten minutes put the end off, each by ten minutes, so an auction
without bids comes to its end. A purchase and a cancellation bring the end forward.
-/

namespace NftMarketplace
open Cosmwasm

section
variable {api : Api} {es : List (Accepted api)} {e : Accepted api} {s : Storage} {i scheduled : Nat} {old new : ItemInfo}

/-- An accepted bid less than ten minutes before the end of its auction. -/
def Accepted.PutsOff (e : Accepted api) (i : Nat) : Prop :=
  e.msg = .placeBid i ∧ ∃ item ∈ e.item i, item.endTime < e.now + LAST_MINUTE_BID_EXTRA_TIME

instance (e : Accepted api) (i : Nat) : Decidable (e.PutsOff i) := inferInstanceAs (Decidable (_ ∧ _))

/-- Nobody has bought or called off auction `i`. -/
def Unclosed (i : Nat) (es : List (Accepted api)) : Prop := ∀ e ∈ es, e.msg ≠ .instantBuy i ∧ e.msg ≠ .cancelAuction i

instance (i : Nat) (es : List (Accepted api)) : Decidable (Unclosed i es) :=
  inferInstanceAs (Decidable (∀ e ∈ es, _ ∧ _))

/-- The end of `item`, which was listed to end at `scheduled`. -/
structure Ends (i : Nat) (es : List (Accepted api)) (scheduled : Nat) (item : ItemInfo) : Prop where
  bounded : item.endTime ≤ scheduled ∨
    ∃ bid ∈ es, bid.msg = .placeBid i ∧ item.endTime < bid.now + 2 * LAST_MINUTE_BID_EXTRA_TIME
  counted : Unclosed i es → item.endTime = scheduled + LAST_MINUTE_BID_EXTRA_TIME * es.countP (·.PutsOff i)

theorem Unclosed.of_snoc (unclosed : Unclosed i (es ++ [e])) :
    Unclosed i es ∧ e.msg ≠ .instantBuy i ∧ e.msg ≠ .cancelAuction i :=
  ⟨fun e' member => unclosed e' (by simp [member]), unclosed e (by simp)⟩

theorem Ends.earlier (ends : Ends i es scheduled old) (le : new.endTime ≤ old.endTime) :
    new.endTime ≤ scheduled ∨ ∃ bid ∈ es ++ [e], bid.msg = .placeBid i ∧
      new.endTime < bid.now + 2 * LAST_MINUTE_BID_EXTRA_TIME := by
  rcases ends.bounded with early | ⟨bid, member, message, late⟩
  · exact Or.inl (le.trans early)
  · exact Or.inr ⟨bid, by simp [member], message, le.trans_lt late⟩

theorem Ends.quiet (ends : Ends i es scheduled old) (noBid : e.msg ≠ .placeBid i) (same : new.endTime = old.endTime) :
    Ends i (es ++ [e]) scheduled new where
  bounded := ends.earlier same.le
  counted unclosed := by
    have onTime : ¬ e.PutsOff i := fun late => noBid late.1
    simp [same, ends.counted unclosed.of_snoc.1, onTime]

/-- A purchase or a cancellation sets the end to a time that is past. -/
theorem Ends.closed (ends : Ends i es scheduled old) (closes : e.msg = .instantBuy i ∨ e.msg = .cancelAuction i)
    (epoch : MIN_TIME_AUCTION ≤ e.now) (notEnded : e.now ≤ old.endTime)
    (past : new.endTime = (e.env.blockTime.minusSeconds MIN_TIME_AUCTION).seconds) : Ends i (es ++ [e]) scheduled new where
  bounded := by
    refine ends.earlier ?_
    rw [past, Timestamp.minusSeconds_seconds epoch]
    exact (Nat.sub_le _ _).trans notEnded
  counted unclosed := by
    obtain ⟨_, noPurchase, noCancel⟩ := unclosed.of_snoc
    exact (closes.elim noPurchase noCancel).elim

theorem Ends.bid (ends : Ends i es scheduled old) (message : e.msg = .placeBid i) (found : e.item i = some old)
    (room : e.time + LAST_MINUTE_BID_EXTRA_TIME * 10 ^ 9 < 2 ^ 64) {b : CanonicalAddr} {total : Uint128} :
    Ends i (es ++ [e]) scheduled (old.afterBid e.env.blockTime b total) := by
  have later := Accepted.tenMinutesLater room
  by_cases late : old.endTime < e.now + LAST_MINUTE_BID_EXTRA_TIME
  · have isLate : e.PutsOff i := ⟨message, old, found, late⟩
    have extended : (old.afterBid e.env.blockTime b total).endTime = old.endTime + LAST_MINUTE_BID_EXTRA_TIME :=
      if_pos (by rwa [later])
    have soon : (old.afterBid e.env.blockTime b total).endTime < e.now + 2 * LAST_MINUTE_BID_EXTRA_TIME := by
      rw [extended, Nat.two_mul, ← Nat.add_assoc]
      exact Nat.add_lt_add_right late _
    refine ⟨Or.inr ⟨e, by simp, message, soon⟩, fun unclosed => ?_⟩
    have before := ends.counted unclosed.of_snoc.1
    rw [extended, before, List.countP_append, List.countP_singleton, if_pos (decide_eq_true isLate), Nat.mul_add_one,
      Nat.add_assoc]
  · have onTime : ¬ e.PutsOff i := by
      rintro ⟨_, item, found', late'⟩
      obtain rfl := Option.some.inj (found.symm.trans found')
      exact late late'
    have kept : (old.afterBid e.env.blockTime b total).endTime = old.endTime := if_neg (by rwa [later])
    refine ⟨ends.earlier kept.le, fun unclosed => ?_⟩
    simp [kept, ends.counted unclosed.of_snoc.1, onTime]

theorem Effect.ends (h : Effect e i) (wellFormed : WellFormed api e.before) (epoch : MIN_TIME_AUCTION ≤ e.now)
    (room : e.time + LAST_MINUTE_BID_EXTRA_TIME * 10 ^ 9 < 2 ^ 64) (ends : Ends i es scheduled old)
    (found : (e.before.slice i).item = some old) (found' : (e.after.slice i).item = some new) :
    Ends i (es ++ [e]) scheduled new := by
  cases h with
  | away elsewhere same =>
    obtain rfl := Option.some.inj ((found.symm.trans (congrArg Slice.item same).symm).trans found')
    exact ends.quiet (fun message => elsewhere (by rw [message]; rfl)) rfl
  | listed number listing => exact (ListedBy.new wellFormed number found).elim
  | registered message _ _ after =>
    obtain rfl := Option.some.inj ((found.symm.trans (congrArg Slice.item after).symm).trans found')
    exact ends.quiet (by simp [message]) rfl
  | placed message spec after =>
    obtain rfl := Option.some.inj (found.symm.trans spec.stored)
    obtain rfl := Option.some.inj (found'.symm.trans (congrArg Slice.item after))
    exact ends.bid message found room
  | bought message spec after =>
    obtain rfl := Option.some.inj (found.symm.trans spec.stored)
    obtain rfl := Option.some.inj (found'.symm.trans (congrArg Slice.item after))
    exact ends.closed (Or.inl message) epoch spec.notEnded rfl
  | retracted message _ after =>
    obtain rfl := Option.some.inj ((found.symm.trans (congrArg Slice.item after).symm).trans found')
    exact ends.quiet (by simp [message]) rfl
  | withdrawn message spec after =>
    obtain rfl := Option.some.inj (found.symm.trans spec.stored)
    obtain rfl := Option.some.inj (found'.symm.trans (congrArg Slice.item after))
    exact ends.quiet (by simp [message]) rfl
  | cancelled message spec after =>
    obtain rfl := Option.some.inj (found.symm.trans spec.stored)
    obtain rfl := Option.some.inj (found'.symm.trans (congrArg Slice.item after))
    exact ends.closed (Or.inr message) epoch spec.notEnded rfl

/-- There is no bid in an auction that is not listed. -/
theorem Reached.unbid (reached : Reached api es s) (absent : (s.slice i).item = none) (member : e ∈ es) :
    e.msg ≠ .placeBid i := by
  intro message
  obtain ⟨pre, post, rfl⟩ := List.append_of_mem member
  obtain ⟨before, run, earlier, _⟩ := reached.before
  obtain ⟨_, _, _, _, _, after, _⟩ := Accepted.placed message
  obtain ⟨_, kept, _⟩ := Run.same_terms run (before.snoc earlier).wellFormed (congrArg Slice.item after)
  rw [absent] at kept
  cases kept

/-- An auction ends when it was listed to end, or less than twenty minutes after one of its bids, and not later. Until
it is bought or called off, its end is the scheduled one and ten minutes for each late bid. -/
theorem auction_ends (reached : Reached api es s) (epoch : ∀ e ∈ es, MIN_TIME_AUCTION ≤ e.now)
    (unwrapped : Unwrapped es) {item : ItemInfo} (found : s.items.mayLoad i = some item) :
    ∃ e ∈ es, e.Lists i ∧ ∃ wrapper args listed, ListedBy e wrapper args listed ∧
      (item.endTime ≤ args.endTime ∨ ∃ bid ∈ es, bid.msg = .placeBid i ∧
        item.endTime < bid.now + 2 * LAST_MINUTE_BID_EXTRA_TIME) ∧
      (Unclosed i es → item.endTime = args.endTime + LAST_MINUTE_BID_EXTRA_TIME * es.countP (·.PutsOff i)) := by
  have ends : ∃ e ∈ es, e.Lists i ∧ ∃ wrapper args listed, ListedBy e wrapper args listed ∧ Ends i es args.endTime item := by
    refine reached.induction (P := fun es s => (∀ e ∈ es, MIN_TIME_AUCTION ≤ e.now) → Unwrapped es →
      ∀ item, (s.slice i).item = some item →
        ∃ e ∈ es, e.Lists i ∧ ∃ wrapper args listed, ListedBy e wrapper args listed ∧ Ends i es args.endTime item)
      ?_ ?_ epoch unwrapped item found
    · intro s fresh _ _ item found
      simp [fresh.slice, Slice.empty] at found
    · intro es e before _ ih epoch unwrapped item found
      cases present : (e.before.slice i).item with
      | some old =>
        obtain ⟨first, member, lists, wrapper, args, listed, listing, earlier⟩ :=
          ih (fun e' member => epoch e' (by simp [member])) (fun e' member => unwrapped e' (by simp [member])) old present
        have ends := (effect e i).ends before.wellFormed (epoch e (by simp)) (unwrapped e (by simp)) earlier present found
        exact ⟨first, by simp [member], lists, wrapper, args, listed, listing, ends⟩
      | none =>
        have lists := lists_of_new before.wellFormed present (by rw [found]; rfl)
        obtain ⟨wrapper, args, listed, listing, after⟩ := lists.listedBy
        obtain rfl := Option.some.inj (found.symm.trans after)
        refine ⟨e, by simp, lists, wrapper, args, item, listing, Or.inl listing.spec.endTime.le, fun _ => ?_⟩
        have none : (es ++ [e]).countP (·.PutsOff i) = 0 := by
          rw [List.countP_eq_zero]
          intro e' member late
          have message := (of_decide_eq_true late).1
          rcases List.mem_append.mp member with earlier | last
          · exact before.unbid present earlier message
          · obtain rfl := List.mem_singleton.mp last
            simp [listing.message] at message
        rw [none, listing.spec.endTime, Nat.mul_zero, Nat.add_zero]
  obtain ⟨e, member, lists, wrapper, args, listed, listing, ends⟩ := ends
  exact ⟨e, member, lists, wrapper, args, listed, listing, ends.bounded, ends.counted⟩

end

/-- Both bids are late, and each puts the end off. -/
theorem auction_ends_extended :
    ∃ item, Demo.extended.final.items.mayLoad 0 = some item ∧ item.endTime = 3200 ∧
      ∃ e ∈ Demo.extended.log, ∃ wrapper args listed, ListedBy e wrapper args listed ∧
        item.endTime = args.endTime + LAST_MINUTE_BID_EXTRA_TIME * 2 := by
  have found := Demo.extended.listed_found (i := 0) (by decide)
  have late : Demo.extended.log.countP (·.PutsOff 0) = 2 := by decide
  obtain ⟨e, member, _, wrapper, args, listed, listing, _, counted⟩ :=
    auction_ends Demo.extended.reached (by decide) (by decide) found
  exact ⟨_, found, by decide, e, member, wrapper, args, listed, listing, late ▸ counted (by decide)⟩

end NftMarketplace
