import NftMarketplace.Runs.History

/-! What a run keeps of an auction's item: the terms of the listing, and the order of its prices. -/

namespace NftMarketplace
open Cosmwasm

/-- The part of an item that is fixed when it is listed. -/
def ItemInfo.terms (item : ItemInfo) : ItemInfo :=
  { item with endTime := 0, highestBid := none, highestBidder := none, totalBids := 0, resolved := false }

section Terms
variable {item other : ItemInfo}

theorem creator_of_terms (same : item.terms = other.terms) : item.creator = other.creator :=
  (congrArg ItemInfo.creator same :)

theorem nftContract_of_terms (same : item.terms = other.terms) : item.nftContract = other.nftContract :=
  (congrArg ItemInfo.nftContract same :)

theorem nftId_of_terms (same : item.terms = other.terms) : item.nftId = other.nftId :=
  (congrArg ItemInfo.nftId same :)

theorem privateSale_of_terms (same : item.terms = other.terms) : item.privateSale = other.privateSale :=
  (congrArg ItemInfo.privateSale same :)

theorem startTime_of_terms (same : item.terms = other.terms) : item.startTime = other.startTime :=
  (congrArg ItemInfo.startTime same :)

theorem instantBuy_of_terms (same : item.terms = other.terms) : item.instantBuy = other.instantBuy :=
  (congrArg ItemInfo.instantBuy same :)

theorem reserve_of_terms (same : item.terms = other.terms) : item.reserve = other.reserve :=
  (congrArg ItemInfo.reserve same :)

theorem Priced.of_terms (priced : Priced other) (same : item.terms = other.terms) : Priced item := by
  have start : item.startPrice = other.startPrice := (congrArg ItemInfo.startPrice same :)
  have instant := instantBuy_of_terms same
  have reserve : item.reservePrice = other.reservePrice := (congrArg ItemInfo.reservePrice same :)
  constructor
  · rw [start, instant]
    exact priced.startBelowInstant
  · rw [start, reserve]
    exact priced.startBelowReserve
  · rw [instant]
    exact priced.instantPositive
  · rw [instant, reserve_of_terms same]
    exact priced.reserveBelowInstant

end Terms

section Runs
variable {api : Api} {es : List (Accepted api)} {s : Storage} {i : Nat}

theorem ListedBy.new {e : Accepted api} {item : ItemInfo} (wellFormed : WellFormed api e.before)
    (number : e.before.state.counterItems = i) (found : (e.before.slice i).item = some item) : False := by
  rw [wellFormed.unlisted i number.le] at found
  cases found

theorem Effect.same_terms {e : Accepted api} {item : ItemInfo} (h : Effect e i) (wellFormed : WellFormed api e.before)
    (found : (e.before.slice i).item = some item) :
    ∃ item', (e.after.slice i).item = some item' ∧ item'.terms = item.terms ∧
      (item.resolved = true → item'.resolved = true) := by
  cases h with
  | away _ same => exact ⟨item, by rw [same, found], rfl, id⟩
  | listed number => exact (ListedBy.new wellFormed number found).elim
  | registered _ _ _ after => exact ⟨item, by rw [after]; exact found, rfl, id⟩
  | placed _ spec after =>
    obtain rfl := Option.some.inj (found.symm.trans spec.stored)
    exact ⟨_, congrArg Slice.item after, rfl, id⟩
  | bought _ spec after =>
    obtain rfl := Option.some.inj (found.symm.trans spec.stored)
    exact ⟨_, congrArg Slice.item after, rfl, id⟩
  | retracted _ _ after => exact ⟨item, by rw [after]; exact found, rfl, id⟩
  | withdrawn _ spec after =>
    obtain rfl := Option.some.inj (found.symm.trans spec.stored)
    exact ⟨_, congrArg Slice.item after, rfl, fun _ => rfl⟩
  | cancelled _ spec after =>
    obtain rfl := Option.some.inj (found.symm.trans spec.stored)
    exact ⟨_, congrArg Slice.item after, rfl, id⟩

theorem Run.same_terms {t : Storage} {item : ItemInfo} (run : Run s es t) (wellFormed : WellFormed api s)
    (found : (s.slice i).item = some item) :
    ∃ item', (t.slice i).item = some item' ∧ item'.terms = item.terms ∧
      (item.resolved = true → item'.resolved = true) := by
  induction run with
  | nil => exact ⟨item, found, rfl, id⟩
  | snoc e before ih =>
    obtain ⟨item₁, found₁, terms₁, resolved₁⟩ := ih
    obtain ⟨item₂, found₂, terms₂, resolved₂⟩ := (effect e i).same_terms (Run.wellFormed before wellFormed) found₁
    exact ⟨item₂, found₂, terms₂.trans terms₁, fun h => resolved₂ (resolved₁ h)⟩

/-- The item that a message of the run found is the one listed, up to the course of the auction. -/
theorem Reached.terms_found (reached : Reached api es s) {item earlier : ItemInfo} {e : Accepted api}
    (found : (s.slice i).item = some item) (member : e ∈ es) (stored : (e.before.slice i).item = some earlier) :
    item.terms = earlier.terms := by
  obtain ⟨pre, post, rfl⟩ := List.append_of_mem member
  obtain ⟨before, rest, _⟩ := reached.before
  obtain ⟨next, foundNext, terms, _⟩ := (effect e i).same_terms before.wellFormed stored
  obtain ⟨last, foundLast, terms', _⟩ := rest.same_terms (wellFormed_step e before.wellFormed) foundNext
  obtain rfl := Option.some.inj (found.symm.trans foundLast)
  exact terms'.trans terms

/-- Only a settlement resolves an auction, and only one that was not resolved. -/
theorem Effect.resolved {e : Accepted api} (h : Effect e i) (wellFormed : WellFormed api e.before) :
    e.msg = .withdrawNft i ∧ (e.before.slice i).resolved = false ∧ (e.after.slice i).resolved = true ∨
      e.msg ≠ .withdrawNft i ∧ (e.after.slice i).resolved = (e.before.slice i).resolved := by
  cases h with
  | away elsewhere same =>
    refine Or.inr ⟨fun message => elsewhere ?_, by rw [same]⟩
    rw [message]
    rfl
  | listed number listing after =>
    refine Or.inr ⟨by simp [listing.message], ?_⟩
    rw [after, wellFormed.unlisted i number.le]
    simp [Slice.resolved, listing.spec.unresolved, Slice.empty]
  | registered message _ _ after => exact Or.inr ⟨by simp [message], by rw [after]; rfl⟩
  | placed message spec after =>
    refine Or.inr ⟨by simp [message], ?_⟩
    simp [after, Slice.resolved, Slice.afterBid, ItemInfo.afterBid, spec.stored]
  | bought message spec after =>
    refine Or.inr ⟨by simp [message], ?_⟩
    simp [after, Slice.resolved, Slice.afterPurchase, ItemInfo.afterPurchase, spec.stored]
  | retracted message _ after => exact Or.inr ⟨by simp [message], by rw [after]; rfl⟩
  | withdrawn message spec after =>
    exact Or.inl ⟨message, by simp [Slice.resolved, spec.stored, spec.unresolved],
      by simp [after, Slice.resolved, ItemInfo.settled]⟩
  | cancelled message spec after =>
    refine Or.inr ⟨by simp [message], ?_⟩
    simp [after, Slice.resolved, ItemInfo.cancelled, spec.stored]

structure Sound (item : ItemInfo) : Prop where
  priced : Priced item
  outside : ∀ b, item.highestBidder = some b → b ≠ item.creator
  led : item.highestBidder.isSome → item.highestBid.isSome
  capped : ∀ p, item.instantBuy = some p → item.price ≤ p.u128

/-- The NFT goes to the highest bidder of a met reserve and to nobody else but the creator. -/
theorem Sound.bound_iff {item : ItemInfo} (sound : Sound item) {b : CanonicalAddr} :
    item.Bound b ↔ saleRecipient item = b ∧ b ≠ item.creator := by
  unfold saleRecipient ItemInfo.Bound
  cases lead : item.highestBidder with
  | none => simp only [reduceCtorEq, false_and, false_iff]; rintro ⟨rfl, other⟩; exact other rfl
  | some c =>
    have outside : c ≠ item.creator := sound.outside c lead
    obtain ⟨highestBid, bid⟩ := Option.isSome_iff_exists.mp (sound.led (by rw [lead]; rfl))
    cases kept : item.reservePrice with
    | none =>
      simp only [ItemInfo.reserve, kept, Option.some.injEq]
      constructor
      · rintro ⟨rfl, _⟩; exact ⟨rfl, outside⟩
      · rintro ⟨rfl, _⟩; exact ⟨rfl, Nat.zero_le _⟩
    | some reserve =>
      simp only [ItemInfo.reserve, ItemInfo.price, kept, bid, Option.map_some, Option.getD_some, Option.some.injEq]
      split
      · next low =>
        constructor
        · rintro ⟨_, met⟩; exact (Nat.not_le_of_lt low met).elim
        · rintro ⟨rfl, other⟩; exact (other rfl).elim
      · next high =>
        constructor
        · rintro ⟨rfl, _⟩; exact ⟨rfl, outside⟩
        · rintro ⟨rfl, _⟩; exact ⟨rfl, Nat.le_of_not_lt high⟩

/-- What every message that writes an item keeps of it. -/
structure ItemInvariant (api : Api) (P : ItemInfo → Prop) : Prop where
  listed : ∀ {env info sender tokenId args item}, Listed api env info sender tokenId args item → P item
  placed : ∀ {config env info x b item sent total}, Placed api config env info x b item sent total → P item →
    P (item.afterBid env.blockTime b total)
  bought : ∀ {config env info x b item sent price}, Bought api config env info x b item sent price → P item →
    P (item.afterPurchase env.blockTime b price)
  settled : ∀ {item : ItemInfo}, P item → P item.settled
  cancelled : ∀ {item : ItemInfo} {t : Timestamp}, P item → P (item.cancelled t)

theorem Effect.keeps {P : ItemInfo → Prop} (inv : ItemInvariant api P) {e : Accepted api} (h : Effect e i)
    (before : ∀ item, (e.before.slice i).item = some item → P item) {item : ItemInfo}
    (found : (e.after.slice i).item = some item) : P item := by
  cases h with
  | away _ same => exact before item (by rw [← same, found])
  | listed _ listing after =>
    rw [after] at found
    exact Option.some.inj found ▸ inv.listed listing.spec
  | registered _ _ _ after => exact before item (by rw [after] at found; exact found)
  | placed _ spec after =>
    rw [after] at found
    exact Option.some.inj found ▸ inv.placed spec (before _ spec.stored)
  | bought _ spec after =>
    rw [after] at found
    exact Option.some.inj found ▸ inv.bought spec (before _ spec.stored)
  | retracted _ _ after => exact before item (by rw [after] at found; exact found)
  | withdrawn _ spec after =>
    rw [after] at found
    exact Option.some.inj found ▸ inv.settled (before _ spec.stored)
  | cancelled _ spec after =>
    rw [after] at found
    exact Option.some.inj found ▸ inv.cancelled (before _ spec.stored)

theorem Reached.keeps {P : ItemInfo → Prop} (inv : ItemInvariant api P) (reached : Reached api es s) {item : ItemInfo}
    (found : (s.slice i).item = some item) : P item := by
  refine reached.induction (P := fun _ s => ∀ item, (s.slice i).item = some item → P item) ?_ ?_ item found
  · intro s fresh item found
    simp [fresh.slice, Slice.empty] at found
  · intro es e _ _ before item found
    exact (effect e i).keeps inv before found

theorem sound_invariant (api : Api) : ItemInvariant api Sound where
  listed spec := {
    priced := spec.priced
    outside := fun b lead => by simp [spec.unled] at lead
    led := fun lead => by simp [spec.unled] at lead
    capped := fun p _ => by simp [ItemInfo.price, spec.unbid] }
  placed spec sound := {
    priced := sound.priced.of_terms rfl
    outside := fun c lead => by
      obtain rfl := Option.some.inj lead
      intro same
      exact spec.notCreator same.symm
    led := fun _ => rfl
    capped := fun p offered => (spec.belowInstantBuy p offered).le }
  bought spec sound := {
    priced := sound.priced.of_terms rfl
    outside := fun c lead => by
      obtain rfl := Option.some.inj lead
      intro same
      exact spec.notCreator same.symm
    led := fun _ => rfl
    capped := fun p offered => by
      obtain rfl := Option.some.inj (spec.instantBuy.symm.trans offered)
      exact le_rfl }
  settled sound := ⟨sound.priced.of_terms rfl, sound.outside, sound.led, sound.capped⟩
  cancelled sound := {
    priced := sound.priced.of_terms rfl
    outside := fun b lead => by simp [ItemInfo.cancelled] at lead
    led := fun lead => by simp [ItemInfo.cancelled] at lead
    capped := sound.capped }

theorem Reached.sound (reached : Reached api es s) {item : ItemInfo} (found : (s.slice i).item = some item) :
    Sound item := reached.keeps (sound_invariant api) found

theorem Effect.price_le {e : Accepted api} (h : Effect e i) (wellFormed : WellFormed api e.before)
    (sound : ∀ item, (e.before.slice i).item = some item → Sound item) :
    (e.before.slice i).highestBid.getD 0 ≤ (e.after.slice i).highestBid.getD 0 := by
  cases h with
  | away _ same => rw [same]
  | listed number => simp [wellFormed.unlisted i number.le, Slice.highestBid, Slice.empty]
  | registered _ _ _ after => rw [after, Slice.withBid_highestBid]
  | placed _ spec after =>
    rw [Slice.highestBid_getD _ spec.stored, Slice.highestBid_getD _ (congrArg Slice.item after)]
    exact (price_le_leastBid _ _).trans spec.enough
  | bought _ spec after =>
    rw [Slice.highestBid_getD _ spec.stored, Slice.highestBid_getD _ (congrArg Slice.item after)]
    exact (sound _ spec.stored).capped _ spec.instantBuy
  | retracted _ _ after => rw [after, Slice.withBid_highestBid]
  | withdrawn _ spec after =>
    rw [Slice.highestBid_getD _ spec.stored, Slice.highestBid_getD _ (congrArg Slice.item after)]
    exact le_rfl
  | cancelled _ spec after =>
    rw [Slice.highestBid_getD _ spec.stored, Slice.highestBid_getD _ (congrArg Slice.item after)]
    exact le_rfl

end Runs

end NftMarketplace
