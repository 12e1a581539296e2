import NftMarketplace.Proofs.Locality
import NftMarketplace.Runs.Replay

/-!
Auctions do not notice one another. Every message about one auction is a local step of the storage,
read as a family of auctions, so messages about different auctions can be handled in either order.
-/

namespace NftMarketplace
open Cosmwasm Isolation

/-- The six messages that work on one auction that exists, or should. -/
def ExecuteMsg.On (i : Nat) : ExecuteMsg → Prop
  | .placeBid j | .retractBids j | .withdrawNft j | .instantBuy j | .cancelAuction j => j = i
  | .receive wrapper => wrapper.msg = .ok (.registerPrivateSale i)
  | _ => False

def Delivery.handle (d : Delivery) (api : Api) (s : Storage) : Result (Storage × Response) :=
  execute ⟨api, d.querier⟩ s d.env d.info d.msg

/-- The storage as a family of auctions. -/
def Storage.auctions : Family Storage (Config × State × Cancellation × FiniteMap CanonicalAddr RoyaltyInfo) Nat Slice where
  shared s := (s.config, s.state, s.cancellation, s.royalty)
  component := Storage.slice
  ext := by
    intro s t shared same
    obtain ⟨config, state, cancellation, royalty⟩ : s.config = t.config ∧ s.state = t.state ∧
        s.cancellation = t.cancellation ∧ s.royalty = t.royalty := by simpa using shared
    have items : s.items = t.items := FiniteMap.ext_mayLoad fun i => congrArg Slice.item (same i)
    have bids : s.bids = t.bids := FiniteMap.ext_mayLoad fun key => congrFun (congrArg Slice.bid (same key.1)) key.2
    have histories : s.histories = t.histories := FiniteMap.ext_mayLoad fun i => congrArg Slice.log (same i)
    have historiesBidder : s.historiesBidder = t.historiesBidder :=
      FiniteMap.ext_mayLoad fun key => congrFun (congrArg Slice.bidderLog (same key.1)) key.2
    cases s
    cases t
    simp_all

section
variable {api : Api} {d : Delivery} {i j : Nat} {s t : Storage}

theorem handle_elsewhere {r : Response} (on : d.msg.On i) (done : d.handle api s = .ok (t, r)) :
    SameElsewhere i s t := by
  unfold Delivery.handle at done
  cases message : d.msg with
  | placeBid j =>
    rw [message] at on done
    obtain rfl : j = i := on
    obtain ⟨_, _, _, _, _, _, elsewhere, _⟩ := executePlaceBid_ok done
    exact elsewhere
  | retractBids j =>
    rw [message] at on done
    obtain rfl : j = i := on
    change executeRetractBids _ s d.env d.info j = _ at done
    obtain ⟨_, _, _, _, _, _, _, elsewhere, _⟩ := executeRetractBids_ok done
    exact elsewhere
  | withdrawNft j =>
    rw [message] at on done
    obtain rfl : j = i := on
    obtain ⟨_, _, _, _, _, _, _, _, elsewhere, _⟩ := executeWithdrawNft_ok done
    exact elsewhere
  | instantBuy j =>
    rw [message] at on done
    obtain rfl : j = i := on
    obtain ⟨_, _, _, _, _, _, elsewhere, _⟩ := executeInstantBuy_ok done
    exact elsewhere
  | cancelAuction j =>
    rw [message] at on done
    obtain rfl : j = i := on
    obtain ⟨_, _, _, _, _, elsewhere, _⟩ := executeCancelAuction_ok done
    exact elsewhere
  | receive wrapper =>
    rw [message] at on done
    obtain ⟨_, _, done⟩ := Outcome.bind_ok done
    obtain ⟨_, _, done⟩ := Outcome.bind_ok done
    obtain ⟨payload, read, done⟩ := Outcome.bind_ok done
    obtain rfl : payload = .registerPrivateSale i := Except.ok.inj ((std_ok.mp read).symm.trans on)
    obtain ⟨_, _, _, _, _, elsewhere, _⟩ := executeRegisterPrivateSale_ok done
    exact elsewhere
  | _ =>
    rw [message] at on
    exact on.elim

theorem handle_alike (on : d.msg.On i) (agree : AgreeOn i s t) : Alike i (d.handle api s) (d.handle api t) := by
  unfold Delivery.handle
  cases message : d.msg with
  | placeBid j =>
    rw [message] at on
    obtain rfl : j = i := on
    exact executePlaceBid_alike agree _ _ _
  | retractBids j =>
    rw [message] at on
    obtain rfl : j = i := on
    exact executeRetractBids_alike agree _ d.env _
  | withdrawNft j =>
    rw [message] at on
    obtain rfl : j = i := on
    exact executeWithdrawNft_alike agree _ _ _
  | instantBuy j =>
    rw [message] at on
    obtain rfl : j = i := on
    exact executeInstantBuy_alike agree _ _ _
  | cancelAuction j =>
    rw [message] at on
    obtain rfl : j = i := on
    exact executeCancelAuction_alike agree _ _ _
  | receive wrapper =>
    rw [message] at on
    have payload : wrapper.msg = .ok (.registerPrivateSale i) := on
    simp only [execute, executeReceiveCw20, agree.state, payload]
    refine Outcome.Same.after _ fun _ => Outcome.Same.after _ fun _ => ?_
    exact executeRegisterPrivateSale_alike agree _ _ d.info _ _
  | _ =>
    rw [message] at on
    exact on.elim

theorem handle_local (on : d.msg.On i) : Local Storage.auctions i (d.handle api) where
  shared done := by
    have same := handle_elsewhere on done
    simp only [Storage.auctions, same.config, same.state, same.cancellation, same.royalty]
  elsewhere other done := (handle_elsewhere on done).slice _ other
  determined shared here := by
    obtain ⟨config, state, cancellation, royalty⟩ := by simpa [Storage.auctions] using shared
    exact handle_alike on ⟨config, state, cancellation, royalty, here⟩

/-- A message leaves every other auction alone, and two messages about different auctions leave the
same storage and get the same answers in either order. -/
theorem auctions_isolated (api : Api) {d₁ d₂ : Delivery} (first : d₁.msg.On i) (second : d₂.msg.On j)
    (different : i ≠ j) (s : Storage) :
    (∀ k, k ≠ i → (rolled (d₁.handle api) s).slice k = s.slice k) ∧
      (∀ k, k ≠ j → (rolled (d₂.handle api) s).slice k = s.slice k) ∧
      rolled (d₂.handle api) (rolled (d₁.handle api) s) = rolled (d₁.handle api) (rolled (d₂.handle api) s) ∧
      answer (d₁.handle api) (rolled (d₂.handle api) s) = answer (d₁.handle api) s ∧
      answer (d₂.handle api) (rolled (d₁.handle api) s) = answer (d₂.handle api) s := by
  have local₁ : Local Storage.auctions i (d₁.handle api) := handle_local first
  have local₂ : Local Storage.auctions j (d₂.handle api) := handle_local second
  refine ⟨fun k other => local₁.rolled_elsewhere s other, fun k other => local₂.rolled_elsewhere s other, ?_, ?_, ?_⟩
  · exact local₁.commute local₂ different s
  · exact local₁.answer_after local₂ different s
  · exact local₂.answer_after local₁ different.symm s

end

def Demo.twoAuctions : Demo.Scenario where
  msg := instantiateMsg
  rate := Decimal.zero
  deliveries := [listing none none none false, listing none none none false,
    deliver 1000 "bob" (coins 100) (.placeBid 0)]
  accepted := by decide
  order := by decide

/-- Too little for the first auction. -/
def Demo.low : Delivery := deliver 1000 "alice" (coins 100) (.placeBid 0)

def Demo.enough : Delivery := deliver 1000 "alice" (coins 100) (.placeBid 1)

theorem auctions_isolated_twoAuctions :
    rolled (Demo.enough.handle Demo.api) (rolled (Demo.low.handle Demo.api) Demo.twoAuctions.final) =
        rolled (Demo.low.handle Demo.api) (rolled (Demo.enough.handle Demo.api) Demo.twoAuctions.final) ∧
      (answer (Demo.low.handle Demo.api) Demo.twoAuctions.final).toOption.isNone ∧
      (answer (Demo.enough.handle Demo.api)
        (rolled (Demo.low.handle Demo.api) Demo.twoAuctions.final)).toOption.isSome := by
  have first : Demo.low.msg.On 0 := rfl
  have second : Demo.enough.msg.On 1 := rfl
  obtain ⟨_, _, orders, _, same⟩ := auctions_isolated Demo.api first second (by decide) Demo.twoAuctions.final
  refine ⟨orders, by decide, ?_⟩
  rw [same]
  decide

end NftMarketplace
