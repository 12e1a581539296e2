import NftMarketplace.Runs.Logs

/-!
The scheduled start of an auction. A bid has to wait for it, an instant purchase does not, so a log
respects the schedule exactly when the purchases did.
-/

namespace NftMarketplace
open Cosmwasm

section
variable {api : Api} {es : List (Accepted api)} {e : Accepted api} {s : Storage} {i : Nat} {item : ItemInfo}

/-- No entry of a log is older than the scheduled start exactly when no instant purchase was. -/
theorem history_after_start_iff (reached : Reached api es s) (found : s.items.mayLoad i = some item) :
    (∀ entry ∈ s.history i, item.startTime ≤ entry.time) ↔
      ∀ e ∈ es, e.msg = .instantBuy i → item.startTime ≤ e.now := by
  have record : s.history i = es.filterMap (·.entry i) := reached.entries_eq i
  constructor
  · intro kept e member buys
    obtain ⟨b, _, _, price, spec, after, _, _⟩ := Accepted.bought buys
    apply kept (bidEntry e.env b price true)
    rw [record, List.mem_filterMap]
    exact ⟨e, member, entry_bought buys spec after⟩
  · intro waited entry logged
    rw [record, List.mem_filterMap] at logged
    obtain ⟨e, member, logged⟩ := logged
    rcases entry_cases logged with ⟨_, earlier, _, _, _, spec, _, rfl⟩ | ⟨_, _, _, _, buys, _, _, rfl⟩
    · rw [startTime_of_terms (reached.terms_found found member spec.stored)]
      exact spec.started
    · exact waited e member buys

end

/-- `seller` schedules an auction for time 1500, and `alice` buys at 1100. -/
def Demo.boughtEarly : Demo.Scenario where
  msg := instantiateMsg
  rate := Decimal.zero
  deliveries := [deliver 1000 "market" [] (.receiveNft
      { sender := "seller"
        tokenId := "token"
        msg := .ok (.createAuctionNft
          { startPrice := none
            startTime := some 1500
            endTime := 3000
            charity := none
            instantBuy := some (amount 1000)
            reservePrice := none
            privateSale := false }) }),
    deliver 1100 "alice" (coins 1000) (.instantBuy 0)]
  accepted := by decide
  order := by decide

theorem bought_before_start :
    ∃ es s item, Reached Demo.api es s ∧ s.items.mayLoad 0 = some item ∧
      ¬ ∀ entry ∈ s.history 0, item.startTime ≤ entry.time :=
  ⟨_, _, _, Demo.boughtEarly.reached, Demo.boughtEarly.listed_found (by decide), by decide⟩

theorem history_after_start_soldToBob :
    ∃ item, Demo.soldToBob.final.items.mayLoad 0 = some item ∧
      ∀ entry ∈ Demo.soldToBob.final.history 0, item.startTime ≤ entry.time := by
  have found := Demo.soldToBob.listed_found (i := 0) (by decide)
  refine ⟨_, found, ?_⟩
  apply (history_after_start_iff Demo.soldToBob.reached found).mpr
  decide

end NftMarketplace
