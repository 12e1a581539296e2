import NftMarketplace.Proofs.Payouts

/-! When a settlement succeeds, and whom a sale pays how much. -/

namespace NftMarketplace
open Cosmwasm Outcome

/-! ### The split -/

/-- What makes the four parts of a bid fit into it. -/
structure Splittable (config : Config) (item : ItemInfo) (royalty : Option (CanonicalAddr × RoyaltyInfo)) : Prop where
  rates : ∀ r, royalty = some r → (platformRate config item).atomics + r.2.fee.atomics ≤ decimalFractional
  platform : (platformRate config item).atomics ≤ decimalFractional
  charity : ∀ c, item.charity = some c → c.feePercentage.atomics ≤ decimalFractional

theorem splitBid_succeeds {config : Config} {item : ItemInfo} {royalty : Option (CanonicalAddr × RoyaltyInfo)}
    (h : Splittable config item royalty) : ∃ shares, splitBid config item royalty = .ok shares := by
  unfold splitBid
  split
  · exact ⟨_, rfl⟩
  · next highestBid _ =>
    obtain ⟨royal, royalRead, covered⟩ : ∃ royal, royaltyShare royalty highestBid = .ok royal ∧
        scale highestBid.u128 (platformRate config item).atomics + royal.u128 ≤ highestBid.u128 := by
      cases royalty with
      | none => exact ⟨.zero, rfl, scale_le h.platform⟩
      | some r =>
        have parts := scale_add_le (n := highestBid.u128) (h.rates r rfl)
        obtain ⟨royal, product, royalIs⟩ := Uint128.mul_succeeds ContractError highestBid r.2.fee
          (by have := highestBid.lt; omega)
        exact ⟨royal, product, royalIs ▸ parts⟩
    have small := highestBid.lt
    obtain ⟨lota, product, lotaIs⟩ := Uint128.mul_succeeds ContractError highestBid
      (platformRate config item) (by omega)
    obtain ⟨afterLota, first, rest⟩ := Uint128.checkedSub_succeeds highestBid lota (by omega)
    obtain ⟨afterRoyalty, second, _⟩ := Uint128.checkedSub_succeeds afterLota royal (by omega)
    refine bind_succeeds royal royalRead (bind_succeeds lota product ?_)
    refine bind_succeeds afterLota (unwrap_ok.mpr first) (bind_succeeds afterRoyalty (unwrap_ok.mpr second) ?_)
    split
    · exact ⟨_, rfl⟩
    · next charity given =>
      have part : scale afterRoyalty.u128 charity.feePercentage.atomics ≤ afterRoyalty.u128 :=
        scale_le (h.charity charity given)
      obtain ⟨gift, product, giftIs⟩ := Uint128.mul_succeeds ContractError afterRoyalty
        charity.feePercentage (lt_of_le_of_lt part afterRoyalty.lt)
      obtain ⟨net, third, _⟩ := Uint128.checkedSub_succeeds afterRoyalty gift (by omega)
      exact bind_succeeds gift product (bind_succeeds net (unwrap_ok.mpr third) ⟨_, rfl⟩)

/-- A minter that the queries name is the canonical form of an address. -/
theorem queryMinter_ok {deps : Deps} {nftContract : Addr} {minter : CanonicalAddr}
    (h : queryMinter deps nftContract = .ok (some minter)) : ∃ a, deps.api.addrCanonicalize a = .ok minter := by
  have canonical {a : String} (h : (do
      let raw ← std (deps.api.addrCanonicalize a)
      return some raw : Result (Option CanonicalAddr)) = .ok (some minter)) :
      ∃ a, deps.api.addrCanonicalize a = .ok minter := by
    obtain ⟨raw, read, h⟩ := bind_ok h
    obtain rfl := Option.some.inj (pure_ok.mp h)
    exact ⟨a, std_ok.mp read⟩
  unfold queryMinter at h
  dsimp only at h
  split at h
  · split at h
    · cases h
    · split at h
      · cases h
      · exact canonical h
  · exact canonical h

/-! ### The payments -/

/-- The parts of the highest bid and their recipients, in the order in which they are sent. -/
def dues (config : Config) (item : ItemInfo) (royalty : Option (CanonicalAddr × RoyaltyInfo)) :
    List (CanonicalAddr × Nat) :=
  let lota := platformShare config item
  let royal := royaltyAmount item royalty
  let charity := charityAmount item (item.price - lota - royal)
  [(item.creator, item.price - lota - royal - charity)] ++ (royalty.map fun r => (r.1, royal)).toList ++
    [(config.lotaContract, lota)] ++ (item.charity.map fun c => (c.address, charity)).toList

/-- A transfer of a share to its recipient, by the recipient's human address. -/
def Settles (api : Api) (due : CanonicalAddr × Nat) (send : String × Nat) : Prop :=
  api.addrHumanize due.1 = .ok send.1 ∧ due.2 = send.2

theorem sendShare_paid {deps : Deps} {config : Config} {dest : Option CanonicalAddr} {amount : Uint128}
    {msgs : List CosmosMsg} (h : sendShare deps config dest amount = .ok msgs) :
    List.Forall₂ (Settles deps.api) ((dest.map fun raw => (raw, amount.u128)).toList.filter (0 < ·.2))
      (msgs.filterMap CosmosMsg.paid) := by
  rcases sendShare_ok h with ⟨absent | zero, rfl⟩ | ⟨raw, human, msg, rfl, positive, read, taxed, rfl⟩
  · simp [absent]
  · cases dest <;> simp [zero]
  · simp [positive, taxed.paid, Settles, read]

theorem SalePayouts.paid {deps : Deps} {s : Storage} {item : ItemInfo} {recipient : CanonicalAddr}
    {royalty : Option (CanonicalAddr × RoyaltyInfo)} {shares : Shares}
    {rewards payout royaltySend lotaSend charitySend : List CosmosMsg}
    (h : SalePayouts deps s item recipient royalty shares rewards payout royaltySend lotaSend charitySend)
    (split : SplitOf s.config item royalty shares) (bid : item.highestBid.isSome) :
    List.Forall₂ (Settles deps.api) ((dues s.config item royalty).filter (0 < ·.2))
      ((rewards ++ payout ++ royaltySend ++ lotaSend ++ charitySend).filterMap CosmosMsg.paid) := by
  have mints : rewards.filterMap CosmosMsg.paid = [] := filterMap_fullRewards (fun _ _ _ => rfl) h.rewards
  have net := sendShare_paid h.payout
  have royal := sendShare_paid h.royaltySend
  have lota := sendShare_paid h.lotaSend
  have charity := sendShare_paid h.charitySend
  rw [split.net] at net
  rw [split.royaltyShare, Option.map_map] at royal
  rw [split.lota] at lota
  rw [split.charity, split.charityAddress bid, Option.map_map] at charity
  simp only [dues, List.filter_append, List.filterMap_append, mints, List.nil_append]
  exact List.rel_append (List.rel_append (List.rel_append net royal) lota) charity

theorem sum_paid (msgs : List CosmosMsg) : ((msgs.filterMap CosmosMsg.paid).map Prod.snd).sum = grossOf msgs := by
  induction msgs with
  | nil => rfl
  | cons msg msgs ih =>
    cases msg with
    | bankSend dest coins gross =>
      have sends : (CosmosMsg.bankSend dest coins gross).paid = some (dest, gross.u128) := rfl
      rw [List.filterMap_cons_some sends, List.map_cons, List.sum_cons, ih, grossOf_cons]
      rfl
    | wasm msg =>
      have sends : (CosmosMsg.wasm msg).paid = none := rfl
      rw [List.filterMap_cons_none sends, ih, grossOf_cons]
      exact (Nat.zero_add _).symm

/-! ### Success -/

/-- The chain has a human form of every address that a settlement writes to. -/
structure Addressed (api : Api) (s : Storage) (item : ItemInfo) (royalty : Option (CanonicalAddr × RoyaltyInfo)) :
    Prop where
  cw20 : ∃ a, api.addrHumanize s.state.cw20Address = .ok a
  lota : ∃ a, api.addrHumanize s.config.lotaContract = .ok a
  creator : ∃ a, api.addrHumanize item.creator = .ok a
  recipient : ∃ a, api.addrHumanize (saleRecipient item) = .ok a
  royalty : ∀ r, royalty = some r → ∃ a, api.addrHumanize r.1 = .ok a
  charity : ∀ c, item.charity = some c → ∃ a, api.addrHumanize c.address = .ok a

theorem sendShare_succeeds {deps : Deps} {config : Config} (dest : Option CanonicalAddr) (amount : Uint128)
    (answers : Answers deps.querier config.denom) (read : ∀ raw, dest = some raw → ∃ a, deps.api.addrHumanize raw = .ok a) :
    ∃ msgs, sendShare deps config dest amount = .ok msgs := by
  unfold sendShare
  split
  · exact ⟨[], rfl⟩
  · next raw =>
    split
    · exact ⟨[], rfl⟩
    · obtain ⟨human, known⟩ := read raw rfl
      obtain ⟨send, sent⟩ := sendToRaw_succeeds amount answers known
      exact bind_succeeds send sent ⟨[send], rfl⟩

theorem mintSityRaw_succeeds {deps : Deps} {state : State} {recipient : CanonicalAddr} (amount : Uint128)
    (token : ∃ a, deps.api.addrHumanize state.cw20Address = .ok a) (known : ∃ a, deps.api.addrHumanize recipient = .ok a) :
    ∃ msg, mintSityRaw deps state recipient amount = .ok msg := by
  obtain ⟨cw20, token⟩ := token
  obtain ⟨human, known⟩ := known
  exact bind_succeeds cw20 (std_ok.mpr token) (bind_succeeds human (std_ok.mpr known) ⟨_, rfl⟩)

theorem fullRewards_succeeds {deps : Deps} {s : Storage} {creator recipient : CanonicalAddr} {highestBid : Uint128}
    (fits : scale highestBid.u128 s.config.sityFullRewards.atomics < 2 ^ 128)
    (token : ∃ a, deps.api.addrHumanize s.state.cw20Address = .ok a)
    (seller : ∃ a, deps.api.addrHumanize creator = .ok a) (buyer : ∃ a, deps.api.addrHumanize recipient = .ok a) :
    ∃ msgs, fullRewards deps s creator recipient highestBid = .ok msgs := by
  unfold fullRewards
  split
  · exact ⟨[], rfl⟩
  · obtain ⟨amount, product, _⟩ := Uint128.mul_succeeds ContractError _ _ fits
    obtain ⟨first, toCreator⟩ := mintSityRaw_succeeds amount token seller
    obtain ⟨second, toRecipient⟩ := mintSityRaw_succeeds amount token buyer
    exact bind_succeeds amount product (bind_succeeds first toCreator (bind_succeeds second toRecipient ⟨_, rfl⟩))

theorem salePayouts_succeeds {deps : Deps} {s : Storage} {item : ItemInfo}
    {royalty : Option (CanonicalAddr × RoyaltyInfo)} {shares : Shares} (addressed : Addressed deps.api s item royalty)
    (answers : Answers deps.querier s.config.denom) (split : SplitOf s.config item royalty shares)
    (bid : saleRecipient item ≠ item.creator → item.highestBid.isSome)
    (fits : saleRecipient item ≠ item.creator → scale item.price s.config.sityFullRewards.atomics < 2 ^ 128) :
    ∃ msgs, salePayouts deps s item (saleRecipient item) royalty shares = .ok msgs := by
  unfold salePayouts
  split_ifs with back
  · exact ⟨[], rfl⟩
  · have gifts : shares.charityAddress = item.charity.map CharityInfo.address := split.charityAddress (bid back)
    have fits : scale shares.highestBid.u128 s.config.sityFullRewards.atomics < 2 ^ 128 := by
      rw [split.highestBid]
      exact fits back
    obtain ⟨rewards, h₁⟩ := fullRewards_succeeds fits addressed.cw20 addressed.creator addressed.recipient
    obtain ⟨payout, h₂⟩ := sendShare_succeeds (some item.creator) shares.net answers
      (fun raw same => Option.some.inj same ▸ addressed.creator)
    obtain ⟨royaltySend, h₃⟩ := sendShare_succeeds (royalty.map Prod.fst) shares.royalty answers (by
      intro raw same
      obtain ⟨r, present, rfl⟩ := Option.map_eq_some_iff.mp same
      exact addressed.royalty r present)
    obtain ⟨lotaSend, h₄⟩ := sendShare_succeeds (some s.config.lotaContract) shares.lota answers
      (fun raw same => Option.some.inj same ▸ addressed.lota)
    obtain ⟨charitySend, h₅⟩ := sendShare_succeeds shares.charityAddress shares.charity answers (by
      intro raw same
      obtain ⟨c, given, rfl⟩ := Option.map_eq_some_iff.mp (gifts.symm.trans same)
      exact addressed.charity c given)
    refine bind_succeeds rewards h₁ (bind_succeeds payout h₂ (bind_succeeds royaltySend h₃ ?_))
    exact bind_succeeds lotaSend h₄ (bind_succeeds charitySend h₅ ⟨_, rfl⟩)

theorem executeWithdrawNft_succeeds {deps : Deps} {s : Storage} {env : Env} (info : MessageInfo) {i : Nat} {item : ItemInfo}
    {collection : Addr} {minter : Option CanonicalAddr} {shares : Shares} (found : (s.slice i).item = some item)
    (unresolved : item.resolved = false) (ended : item.endTime ≤ env.blockTime.seconds)
    (contract : deps.api.addrHumanize item.nftContract = .ok collection)
    (asked : queryMinter deps collection = .ok minter) (split : splitBid s.config item (royaltyOf s minter) = .ok shares)
    (addressed : Addressed deps.api s item (royaltyOf s minter))
    (paid : ∃ payouts, salePayouts deps s item (saleRecipient item) (royaltyOf s minter) shares = .ok payouts) :
    ∃ p, executeWithdrawNft deps s env info i = .ok p := by
  have stored : s.items.mayLoad i = some item := found
  obtain ⟨owner, newOwner⟩ := addressed.recipient
  obtain ⟨creator, seller⟩ := addressed.creator
  obtain ⟨payouts, paid⟩ := paid
  refine bind_succeeds item (std_ok.mpr (FiniteMap.load_ok.mpr stored)) ?_
  refine bind_succeeds collection (std_ok.mpr contract) (bind_succeeds minter asked ?_)
  refine bind_succeeds () (reject_ok.mpr (by simp [unresolved])) ?_
  refine bind_succeeds () (reject_ok.mpr (Nat.not_lt_of_le ended)) (bind_succeeds shares split ?_)
  refine bind_succeeds (s.items.save i item.settled) (FiniteMap.update_ok.mpr ⟨item.settled, ?_, rfl⟩) ?_
  · rw [stored]
    rfl
  refine bind_succeeds owner (std_ok.mpr newOwner) (bind_succeeds payouts paid ?_)
  exact bind_succeeds creator (std_ok.mpr seller) ⟨_, rfl⟩

end NftMarketplace
