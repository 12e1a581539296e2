import NftMarketplace.Runs.Logs

/-!
The last ten minutes of an auction. A bid there moves the end; an instant purchase and a
cancellation move it back. While somebody leads an auction without an instant purchase, every bid
lies at least ten minutes before the end.
-/

namespace NftMarketplace
open Cosmwasm

def Slice.ends (x : Slice) : Option Nat := x.item.map ItemInfo.endTime

theorem Slice.ends_eq {x : Slice} {item : ItemInfo} (stored : x.item = some item) : x.ends = some item.endTime := by
  rw [Slice.ends, stored]
  rfl

section
variable {api : Api} {es : List (Accepted api)} {e : Accepted api} {s : Storage} {i : Nat} {x y : Slice}

/-- Ten minutes after each block time are in the range of a timestamp. The chain's clock, a signed count of
nanoseconds, does not come near its end. -/
def Unwrapped (es : List (Accepted api)) : Prop := ∀ e ∈ es, e.time + LAST_MINUTE_BID_EXTRA_TIME * 10 ^ 9 < 2 ^ 64

instance (es : List (Accepted api)) : Decidable (Unwrapped es) := inferInstanceAs (Decidable (∀ e ∈ es, _ < _))

theorem Accepted.tenMinutesLater (room : e.time + LAST_MINUTE_BID_EXTRA_TIME * 10 ^ 9 < 2 ^ 64) :
    (e.env.blockTime.plusSeconds LAST_MINUTE_BID_EXTRA_TIME).seconds = e.now + LAST_MINUTE_BID_EXTRA_TIME :=
  Timestamp.plusSeconds_seconds room

/-! ### Ends set before the epoch -/

/-- In the first ten minutes after the epoch, an end set ten minutes back wraps around to a far future,
later than any end set before. -/
def BelowWrap (es : List (Accepted api)) (x : Slice) : Prop :=
  ∀ t : Timestamp, (∀ e ∈ es, e.time ≤ t.nanos) → t.seconds < MIN_TIME_AUCTION →
    ∀ n ∈ x.ends, n ≤ (t.minusSeconds MIN_TIME_AUCTION).seconds

theorem wrap_late {t : Timestamp} (early : t.seconds < MIN_TIME_AUCTION) :
    2 * MAX_TIME_AUCTION ≤ (t.minusSeconds MIN_TIME_AUCTION).seconds := by
  rw [Timestamp.minusSeconds_wraps early (by decide)]
  unfold MAX_TIME_AUCTION MIN_TIME_AUCTION
  omega

theorem wrap_mono {t t' : Timestamp} (le : t.nanos ≤ t'.nanos) (early : t'.seconds < MIN_TIME_AUCTION) :
    (t.minusSeconds MIN_TIME_AUCTION).seconds ≤ (t'.minusSeconds MIN_TIME_AUCTION).seconds := by
  have early' : t.seconds < MIN_TIME_AUCTION := lt_of_le_of_lt (Nat.div_le_div_right le) early
  rw [Timestamp.minusSeconds_wraps early (by decide), Timestamp.minusSeconds_wraps early' (by decide)]
  exact Nat.div_le_div_right (Nat.sub_le_sub_right (Nat.add_le_add_left le _) _)

theorem Effect.belowWrap (h : Effect e i) (before : BelowWrap es (e.before.slice i)) :
    BelowWrap (es ++ [e]) (e.after.slice i) := by
  intro t later early
  have now : e.env.blockTime.seconds ≤ t.seconds := Nat.div_le_div_right (later e (by simp))
  -- a sum with a block time so early does not wrap around
  have sum {n : Nat} (short : n ≤ MAX_TIME_AUCTION) :
      (e.env.blockTime.plusSeconds n).seconds = e.env.blockTime.seconds + n := by
    apply Timestamp.plusSeconds_seconds
    unfold Timestamp.seconds MIN_TIME_AUCTION MAX_TIME_AUCTION at *
    omega
  have wrapped := wrap_late early
  have earlier := before t (fun e' member => later e' (by simp [member])) early
  cases h with
  | away _ same => rwa [same]
  | listed _ listing after =>
    have notLong := listing.spec.notLong
    rw [sum le_rfl] at notLong
    rw [after]
    rintro n ⟨⟩
    unfold MIN_TIME_AUCTION MAX_TIME_AUCTION at *
    omega
  | registered _ _ _ after => rwa [after]
  | placed _ spec after =>
    have old := earlier _ (Slice.ends_eq spec.stored)
    rw [after]
    rintro n ⟨⟩
    simp only [ItemInfo.afterBid, sum (n := LAST_MINUTE_BID_EXTRA_TIME) (by decide)]
    split
    · unfold MIN_TIME_AUCTION MAX_TIME_AUCTION LAST_MINUTE_BID_EXTRA_TIME at *
      omega
    · exact old
  | bought _ _ after =>
    rw [after]
    rintro n ⟨⟩
    exact wrap_mono (later e (by simp)) early
  | retracted _ _ after => rwa [after]
  | withdrawn _ spec after =>
    have old := earlier _ (Slice.ends_eq spec.stored)
    rw [after]
    rintro n ⟨⟩
    exact old
  | cancelled _ _ after =>
    rw [after]
    rintro n ⟨⟩
    exact wrap_mono (later e (by simp)) early

/-! ### The window -/

def NeverBack (i : Nat) (es : List (Accepted api)) : Prop :=
  ∀ e ∈ es, ∀ n ∈ (e.before.slice i).ends, ∀ n' ∈ (e.after.slice i).ends, n ≤ n'

structure Guarded (i : Nat) (es : List (Accepted api)) (x : Slice) : Prop where
  neverBack : NeverBack i es
  window : ∀ n ∈ x.ends, ∀ entry ∈ x.entries, entry.time + LAST_MINUTE_BID_EXTRA_TIME ≤ n

def Shut (es : List (Accepted api)) (x : Slice) : Prop :=
  x.highestBidder = none ∧ ∃ n ∈ x.ends, ∃ e ∈ es, n < e.now

/-- Without an instant purchase in its log an auction is guarded until it is shut. -/
def WindowKept (i : Nat) (es : List (Accepted api)) (x : Slice) : Prop :=
  (∀ entry ∈ x.entries, entry.instantBuy = false) → Guarded i es x ∨ Shut es x

theorem neverBack_snoc (earlier : NeverBack i es)
    (last : ∀ n ∈ (e.before.slice i).ends, ∀ n' ∈ (e.after.slice i).ends, n ≤ n') : NeverBack i (es ++ [e]) := by
  intro e' member
  rcases List.mem_append.mp member with old | new
  · exact earlier e' old
  · obtain rfl := List.mem_singleton.mp new
    exact last

theorem Shut.not_entered {item : ItemInfo} (h : Shut es x) (later : ∀ e' ∈ es, e'.time ≤ e.time)
    (stored : x.item = some item) : ¬ e.now ≤ item.endTime := by
  obtain ⟨_, n, ends, e', member, passed⟩ := h
  rw [Slice.ends_eq stored] at ends
  cases ends
  have le : e'.now ≤ e.now := now_le_of_time (later e' member)
  omega

theorem WindowKept.guarded {item : ItemInfo} (h : WindowKept i es x) (later : ∀ e' ∈ es, e'.time ≤ e.time)
    (stored : x.item = some item) (notEnded : e.now ≤ item.endTime)
    (ordinary : ∀ entry ∈ x.entries, entry.instantBuy = false) : Guarded i es x := by
  rcases h ordinary with guarded | shut
  · exact guarded
  · exact (shut.not_entered later stored notEnded).elim

/-- A later end keeps the guard, when it lies ten minutes behind every new entry. -/
theorem Guarded.extended {item : ItemInfo} {n : Nat} (h : Guarded i es (e.before.slice i))
    (stored : (e.before.slice i).item = some item) (ends : (e.after.slice i).ends = some n) (up : item.endTime ≤ n)
    (entries : ∀ entry ∈ (e.after.slice i).entries,
      entry ∈ (e.before.slice i).entries ∨ entry.time + LAST_MINUTE_BID_EXTRA_TIME ≤ n) :
    Guarded i (es ++ [e]) (e.after.slice i) where
  neverBack := by
    apply neverBack_snoc h.neverBack
    rw [ends, Slice.ends_eq stored]
    rintro _ ⟨⟩ _ ⟨⟩
    exact up
  window := by
    rw [ends]
    rintro _ ⟨⟩ entry member
    rcases entries entry member with old | new
    · exact (h.window _ (Slice.ends_eq stored) entry old).trans up
    · exact new

theorem windowKept_same (h : WindowKept i es (e.before.slice i))
    (entries : (e.after.slice i).entries = (e.before.slice i).entries)
    (ends : (e.after.slice i).ends = (e.before.slice i).ends)
    (leader : (e.after.slice i).highestBidder = (e.before.slice i).highestBidder) :
    WindowKept i (es ++ [e]) (e.after.slice i) := by
  intro ordinary
  rw [entries] at ordinary
  rcases h ordinary with guarded | ⟨unled, n, last, e', member, passed⟩
  · refine Or.inl ⟨neverBack_snoc guarded.neverBack ?_, ?_⟩
    · rw [ends]
      intro n here n' there
      exact (Option.some.inj (here.symm.trans there)).le
    · rw [ends, entries]
      exact guarded.window
  · exact Or.inr ⟨leader.trans unled, n, ends ▸ last, e', by simp [member], passed⟩

theorem windowKept_placed {item : ItemInfo} {b : CanonicalAddr} {sent total : Uint128}
    (spec : Placed api e.before.config e.env e.info (e.before.slice i) b item sent total)
    (after : e.after.slice i = (e.before.slice i).afterBid e.env b item total)
    (room : e.time + LAST_MINUTE_BID_EXTRA_TIME * 10 ^ 9 < 2 ^ 64)
    (later : ∀ e' ∈ es, e'.time ≤ e.time) (before : WindowKept i es (e.before.slice i)) :
    WindowKept i (es ++ [e]) (e.after.slice i) := by
  have entries : (e.after.slice i).entries = (e.before.slice i).entries ++ [bidEntry e.env b total false] := by
    rw [after]
    exact Slice.deposit_entries _ fun _ => rfl
  have ends : (e.after.slice i).ends = some (item.afterBid e.env.blockTime b total).endTime := by
    rw [after]
    rfl
  have notEnded : e.now ≤ item.endTime := spec.notEnded
  have later_end : item.endTime ≤ (item.afterBid e.env.blockTime b total).endTime ∧
      e.now + LAST_MINUTE_BID_EXTRA_TIME ≤ (item.afterBid e.env.blockTime b total).endTime := by
    simp only [ItemInfo.afterBid, Accepted.tenMinutesLater room]
    split <;> omega
  intro ordinary
  rw [entries] at ordinary
  have guarded := before.guarded later spec.stored notEnded fun entry member => ordinary entry (by simp [member])
  refine Or.inl (guarded.extended spec.stored ends later_end.1 ?_)
  intro entry member
  rw [entries] at member
  rcases List.mem_append.mp member with old | new
  · exact Or.inl old
  · obtain rfl := List.mem_singleton.mp new
    exact Or.inr later_end.2

theorem windowKept_cancelled {item : ItemInfo} {fee : Uint128} {msgs : List CosmosMsg}
    (spec : Cancelled e.deps e.before e.env e.info (e.before.slice i) item fee msgs)
    (after : e.after.slice i = (e.before.slice i).withItem (item.cancelled e.env.blockTime))
    (later : ∀ e' ∈ es, e'.time ≤ e.time) (below : BelowWrap es (e.before.slice i))
    (before : WindowKept i es (e.before.slice i)) : WindowKept i (es ++ [e]) (e.after.slice i) := by
  have entries : (e.after.slice i).entries = (e.before.slice i).entries := by rw [after]; rfl
  have ends : (e.after.slice i).ends = some (e.env.blockTime.minusSeconds MIN_TIME_AUCTION).seconds := by
    rw [after]
    rfl
  have notEnded : e.now ≤ item.endTime := spec.notEnded
  by_cases late : MIN_TIME_AUCTION ≤ e.env.blockTime.seconds
  · -- the end moves into the past, and nobody leads any more
    refine fun _ => Or.inr ⟨by rw [after]; rfl, _, ends, e, by simp, ?_⟩
    rw [Timestamp.minusSeconds_seconds late]
    exact Nat.sub_lt_of_pos_le (by decide) late
  · -- the end wraps around into the future
    intro ordinary
    rw [entries] at ordinary
    have guarded := before.guarded later spec.stored notEnded ordinary
    have up : item.endTime ≤ (e.env.blockTime.minusSeconds MIN_TIME_AUCTION).seconds :=
      below e.env.blockTime later (Nat.lt_of_not_le late) _ (Slice.ends_eq spec.stored)
    refine Or.inl (guarded.extended spec.stored ends up ?_)
    intro entry member
    rw [entries] at member
    exact Or.inl member

theorem Effect.windowKept (h : Effect e i) (wellFormed : WellFormed api e.before)
    (room : e.time + LAST_MINUTE_BID_EXTRA_TIME * 10 ^ 9 < 2 ^ 64) (later : ∀ e' ∈ es, e'.time ≤ e.time)
    (below : BelowWrap es (e.before.slice i)) (before : WindowKept i es (e.before.slice i)) : WindowKept i (es ++ [e]) (e.after.slice i) := by
  cases h with
  | away _ same => exact windowKept_same before (by rw [same]) (by rw [same]) (by rw [same])
  | listed number listing after =>
    have new := wellFormed.unlisted i number.le
    intro _
    rcases before (by simp [new, Slice.entries, Slice.empty]) with guarded | ⟨_, n, ends, _⟩
    · refine Or.inl ⟨neverBack_snoc guarded.neverBack (by simp [new, Slice.ends, Slice.empty]), ?_⟩
      simp [after, new, Slice.entries, Slice.empty]
    · simp [new, Slice.ends, Slice.empty] at ends
  | registered _ _ _ after =>
    exact windowKept_same before (by rw [after]; rfl) (by rw [after]; rfl) (by rw [after]; rfl)
  | placed _ spec after => exact windowKept_placed spec after room later before
  | @bought b item sent price _ spec after =>
    intro ordinary
    have bought : ∃ entry ∈ (e.after.slice i).entries, entry.instantBuy = true := by
      rw [after, Slice.entries, Slice.afterPurchase, Slice.deposit_log]
      cases (e.before.slice i).log with
      | none => exact ⟨_, List.mem_singleton_self _, rfl⟩
      | some log => exact ⟨bidEntry e.env b price true, by simp [HistoryInfo.push], rfl⟩
    obtain ⟨entry, member, instant⟩ := bought
    rw [ordinary entry member] at instant
    cases instant
  | retracted _ _ after =>
    exact windowKept_same before (by rw [after]; rfl) (by rw [after]; rfl) (by rw [after]; rfl)
  | withdrawn _ spec after =>
    refine windowKept_same before (by rw [after]; rfl) ?_ ?_
    · rw [after, Slice.ends_eq spec.stored]
      rfl
    · simp [after, Slice.highestBidder, spec.stored, ItemInfo.settled]
  | cancelled _ spec after => exact windowKept_cancelled spec after later below before

theorem Reached.windowKept (reached : Reached api es s) (unwrapped : Unwrapped es) (i : Nat) :
    WindowKept i es (s.slice i) := by
  have both : BelowWrap es (s.slice i) ∧ (Unwrapped es → WindowKept i es (s.slice i)) := by
    apply reached.induction (P := fun es s => BelowWrap es (s.slice i) ∧ (Unwrapped es → WindowKept i es (s.slice i)))
    · intro s fresh
      rw [fresh.slice]
      exact ⟨fun _ _ _ _ h => (nomatch h), fun _ _ => Or.inl ⟨fun _ h => (nomatch h), fun _ h => (nomatch h)⟩⟩
    · intro es e before later ⟨below, kept⟩
      refine ⟨(effect e i).belowWrap below, fun unwrapped => ?_⟩
      have earlier := kept fun e' member => unwrapped e' (by simp [member])
      exact (effect e i).windowKept before.wellFormed (unwrapped e (by simp)) later below earlier
  exact both.2 unwrapped

theorem bids_before_window (reached : Reached api es s) (unwrapped : Unwrapped es) {item : ItemInfo}
    (found : s.items.mayLoad i = some item) (led : item.highestBidder.isSome)
    (ordinary : ∀ entry ∈ s.history i, entry.instantBuy = false) :
    (∀ entry ∈ s.history i, entry.time + LAST_MINUTE_BID_EXTRA_TIME ≤ item.endTime) ∧ NeverBack i es ∧
      ∀ e : Accepted api, e.before = s → e.msg = .withdrawNft i →
        ∀ entry ∈ s.history i, entry.time + LAST_MINUTE_BID_EXTRA_TIME ≤ e.now := by
  have stored : (s.slice i).item = some item := found
  rcases reached.windowKept unwrapped i ordinary with guarded | ⟨unled, _⟩
  · have window := guarded.window _ (Slice.ends_eq stored)
    refine ⟨window, guarded.neverBack, ?_⟩
    rintro e rfl message entry member
    obtain ⟨item', _, _, _, _, _, spec, _⟩ := Accepted.withdrawn message
    obtain rfl := Option.some.inj (stored.symm.trans spec.stored)
    exact (window entry member).trans spec.ended
  · rw [Slice.highestBidder, stored] at unled
    simp only [Option.bind_some] at unled
    simp [unled] at led

end

/-- Two bids in the last minutes, the second in time won by the first. -/
def Demo.extended : Demo.Scenario where
  msg := instantiateMsg
  rate := Decimal.zero
  deliveries := [listing none none none false, deliver 1990 "alice" (coins 100) (.placeBid 0),
    deliver 2599 "bob" (coins 200) (.placeBid 0)]
  accepted := by decide
  order := by decide

theorem bids_before_window_extended :
    ∃ item, Demo.extended.final.items.mayLoad 0 = some item ∧ (Demo.extended.final.history 0).length = 2 ∧
      ∀ entry ∈ Demo.extended.final.history 0, entry.time + LAST_MINUTE_BID_EXTRA_TIME ≤ item.endTime := by
  have found := Demo.extended.listed_found (i := 0) (by decide)
  have led : (Demo.extended.listed 0 (by decide)).highestBidder.isSome := by decide
  obtain ⟨window, _⟩ := bids_before_window Demo.extended.reached (by decide) found led (by decide)
  exact ⟨_, found, by decide, window⟩

end NftMarketplace
