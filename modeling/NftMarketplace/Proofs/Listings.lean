import NftMarketplace.Proofs.Slice

/-! What a new contract, an accepted listing and an accepted registration check and write. -/

namespace NftMarketplace
open Cosmwasm Outcome

/-- A contract before its first message: nothing is listed, and the two stored addresses are canonical
forms of addresses the chain knows. -/
structure Fresh (api : Api) (s : Storage) : Prop where
  slice : ∀ i, s.slice i = Slice.empty
  royalty : ∀ m, s.royalty.mayLoad m = none
  counter : s.state.counterItems = 0
  cw20 : ∃ a, api.addrCanonicalize a = .ok s.state.cw20Address
  lota : ∃ a, api.addrCanonicalize a = .ok s.config.lotaContract

theorem instantiate_ok {deps : Deps} {env : Env} {info : MessageInfo} {msg : InstantiateMsg} {s : Storage}
    {r : Response} (h : instantiate deps env info msg = .ok (s, r)) :
    Fresh deps.api s ∧ s.cancellation.cancellationFee = Decimal.zero := by
  unfold instantiate at h
  obtain ⟨lota, lotaRead, h⟩ := bind_ok h
  obtain ⟨cw20, cw20Read, h⟩ := bind_ok h
  obtain ⟨rfl, rfl⟩ := Prod.mk.inj (pure_ok.mp h)
  refine ⟨?_, rfl⟩
  exact {
    slice := fun i => by simp [Storage.slice, Slice.empty]
    royalty := fun m => by simp
    counter := rfl
    cw20 := ⟨_, std_ok.mp cw20Read⟩
    lota := ⟨_, std_ok.mp lotaRead⟩ }

theorem reply_ok {deps : Deps} {s t : Storage} {env : Env} {msg : Reply} {r : Response}
    (h : reply deps s env msg = .ok (t, r)) :
    ∃ a cw20, deps.api.addrCanonicalize a = .ok cw20 ∧ t = { s with state := { s.state with cw20Address := cw20 } } := by
  unfold reply at h
  split at h
  · unfold cw20InstanceReply at h
    split at h
    · cases h
    · obtain ⟨event, _, h⟩ := bind_ok h
      obtain ⟨attr, _, h⟩ := bind_ok h
      obtain ⟨cw20, read, h⟩ := bind_ok h
      obtain ⟨rfl, rfl⟩ := Prod.mk.inj (pure_ok.mp h)
      exact ⟨attr.2, cw20, std_ok.mp read, rfl⟩
  · cases h

theorem reply_fresh {deps : Deps} {s t : Storage} {env : Env} {msg : Reply} {r : Response}
    (fresh : Fresh deps.api s) (h : reply deps s env msg = .ok (t, r)) : Fresh deps.api t := by
  obtain ⟨a, cw20, read, rfl⟩ := reply_ok h
  exact ⟨fresh.slice, fresh.royalty, fresh.counter, ⟨a, read⟩, fresh.lota⟩

/-! ### Listings -/

structure Priced (item : ItemInfo) : Prop where
  startBelowInstant : ∀ p q, item.startPrice = some p → item.instantBuy = some q → p.u128 < q.u128
  startBelowReserve : ∀ p q, item.startPrice = some p → item.reservePrice = some q → p.u128 ≤ q.u128
  instantPositive : ∀ p, item.instantBuy = some p → 0 < p.u128
  reserveBelowInstant : ∀ p, item.instantBuy = some p → item.reserve ≤ p.u128

/-- An item as `execute_create_auction` stores it for a notification from the collection `info.sender`. -/
structure Listed (api : Api) (env : Env) (info : MessageInfo) (sender tokenId : String) (args : CreateAuctionNft)
    (item : ItemInfo) : Prop where
  creator : api.addrCanonicalize sender = .ok item.creator
  contract : api.addrCanonicalize info.sender = .ok item.nftContract
  token : item.nftId = tokenId
  startTime : item.startTime = args.startTime.getD env.blockTime.seconds
  endTime : item.endTime = args.endTime
  notShort : (env.blockTime.plusSeconds MIN_TIME_AUCTION).seconds ≤ item.endTime
  notLong : item.endTime ≤ (env.blockTime.plusSeconds MAX_TIME_AUCTION).seconds
  room : item.startTime + MIN_TIME_AUCTION < item.endTime
  unbid : item.highestBid = none
  unled : item.highestBidder = none
  unlogged : item.totalBids = 0
  unresolved : item.resolved = false
  startPrice : item.startPrice = args.startPrice
  instantBuy : item.instantBuy = args.instantBuy
  reservePrice : item.reservePrice = args.reservePrice
  privateSale : item.privateSale = args.privateSale
  priced : Priced item
  charity : ∀ c, item.charity = some c → 0 < c.feePercentage.atomics ∧ c.feePercentage.atomics ≤ decimalFractional ∧
    ∃ a, api.addrCanonicalize a = .ok c.address

theorem checkStartPrice_ok {args : CreateAuctionNft} (h : checkStartPrice args = .ok ()) {p : Uint128}
    (start : args.startPrice = some p) :
    (∀ q, args.instantBuy = some q → p.u128 < q.u128) ∧ ∀ q, args.reservePrice = some q → p.u128 ≤ q.u128 := by
  rw [checkStartPrice, start] at h
  obtain ⟨_, instant, reserve⟩ := bind_ok h
  rw [reject_ok] at instant reserve
  constructor
  · intro q offered
    exact Nat.lt_of_not_le fun high => instant ⟨q, offered, high⟩
  · intro q kept
    exact Nat.le_of_not_lt fun low => reserve ⟨q, kept, low⟩

theorem instantBuyPrice_ok {args : CreateAuctionNft} {price : Option Uint128} (h : instantBuyPrice args = .ok price) :
    price = args.instantBuy ∧ ∀ p, args.instantBuy = some p →
      0 < p.u128 ∧ ∀ q, args.reservePrice = some q → q.u128 ≤ p.u128 := by
  unfold instantBuyPrice at h
  split at h
  · next absent =>
    exact ⟨(Except.ok.inj h).symm.trans absent.symm, fun p offered => by simp [absent] at offered⟩
  · next p offered =>
    obtain ⟨_, positive, h⟩ := bind_ok h
    obtain ⟨_, reserve, h⟩ := bind_ok h
    obtain rfl := pure_ok.mp h
    refine ⟨offered.symm, ?_⟩
    intro q same
    obtain rfl := Option.some.inj (offered.symm.trans same)
    rw [reject_ok] at positive reserve
    refine ⟨Nat.pos_of_ne_zero positive, ?_⟩
    intro r kept
    apply Nat.le_of_not_lt
    intro low
    exact reserve ⟨r, kept, low⟩

theorem validCharity_ok {deps : Deps} {charity : Option CharityResponse} {stored : Option CharityInfo}
    (h : validCharity deps charity = .ok stored) {c : CharityInfo} (given : stored = some c) :
    0 < c.feePercentage.atomics ∧ c.feePercentage.atomics ≤ decimalFractional ∧
      ∃ a, deps.api.addrCanonicalize a = .ok c.address := by
  subst given
  unfold validCharity at h
  split at h
  · cases h
  · obtain ⟨_, rate, h⟩ := bind_ok h
    obtain ⟨valid, _, h⟩ := bind_ok h
    obtain ⟨raw, read, h⟩ := bind_ok h
    obtain rfl := Option.some.inj (pure_ok.mp h)
    rw [reject_ok, not_or] at rate
    exact ⟨Nat.pos_of_ne_zero rate.1, Nat.le_of_not_lt rate.2, valid, std_ok.mp read⟩

structure ListedIn (s t : Storage) (item : ItemInfo) : Prop where
  slice : t.slice s.state.counterItems = (s.slice s.state.counterItems).withItem item
  others : ∀ j, j ≠ s.state.counterItems → t.slice j = s.slice j
  counter : t.state = { s.state with counterItems := s.state.counterItems + 1 }
  config : t.config = s.config
  cancellation : t.cancellation = s.cancellation
  royalty : t.royalty = s.royalty

theorem executeCreateAuction_ok {deps : Deps} {s t : Storage} {env : Env} {info : MessageInfo}
    {sender tokenId : String} {args : CreateAuctionNft} {r : Response}
    (h : executeCreateAuction deps s env info sender tokenId args = .ok (t, r)) :
    ∃ item, Listed deps.api env info sender tokenId args item ∧ ListedIn s t item ∧ r.messages = [] := by
  unfold executeCreateAuction at h
  obtain ⟨creator, creatorRead, h⟩ := bind_ok h
  obtain ⟨contract, contractRead, h⟩ := bind_ok h
  obtain ⟨_, short, h⟩ := bind_ok h
  obtain ⟨_, long, h⟩ := bind_ok h
  obtain ⟨earliest, sum, h⟩ := bind_ok h
  obtain ⟨_, room, h⟩ := bind_ok h
  obtain ⟨_, start, h⟩ := bind_ok h
  obtain ⟨charity, charityRead, h⟩ := bind_ok h
  obtain ⟨instantBuy, instant, h⟩ := bind_ok h
  obtain ⟨rfl, rfl⟩ := Prod.mk.inj (pure_ok.mp h)
  obtain ⟨rfl, instantOk⟩ := instantBuyPrice_ok instant
  rw [reject_ok] at short long room
  have earliestIs : args.startTime.getD env.blockTime.seconds + MIN_TIME_AUCTION = earliest := by
    rw [unwrapSome_ok] at sum
    split at sum
    · exact Option.some.inj sum
    · cases sum
  let item : ItemInfo :=
    { creator
      startPrice := args.startPrice
      startTime := args.startTime.getD env.blockTime.seconds
      endTime := args.endTime
      highestBid := none
      highestBidder := none
      nftContract := contract
      nftId := tokenId
      totalBids := 0
      charity
      instantBuy := args.instantBuy
      reservePrice := args.reservePrice
      privateSale := args.privateSale
      resolved := false }
  refine ⟨item, ?_, ?_, rfl⟩
  · exact {
      creator := std_ok.mp creatorRead
      contract := std_ok.mp contractRead
      token := rfl
      startTime := rfl
      endTime := rfl
      notShort := Nat.le_of_not_lt short
      notLong := Nat.le_of_not_lt long
      room := by rw [earliestIs]; exact Nat.lt_of_not_le room
      unbid := rfl
      unled := rfl
      unlogged := rfl
      unresolved := rfl
      startPrice := rfl
      instantBuy := rfl
      reservePrice := rfl
      privateSale := rfl
      priced := {
        startBelowInstant := fun p q startIs offered => (checkStartPrice_ok start startIs).1 q offered
        startBelowReserve := fun p q startIs kept => (checkStartPrice_ok start startIs).2 q kept
        instantPositive := fun p offered => (instantOk p offered).1
        reserveBelowInstant := fun p offered => by
          change (args.reservePrice.map Uint128.u128).getD 0 ≤ p.u128
          cases kept : args.reservePrice with
          | none => exact Nat.zero_le _
          | some q => exact (instantOk p offered).2 q kept }
      charity := fun c given => validCharity_ok charityRead given }
  · refine ⟨?_, ?_, rfl, rfl, rfl, rfl⟩
    · ext1 <;> simp [Storage.slice, item]
    · intro j other
      simp [Storage.slice, FiniteMap.mayLoad_save, other]

/-! ### Registrations -/

def sityRequired (config : Config) (item : ItemInfo) : Nat :=
  config.sityMinOpening.u128 +
    (item.highestBid.map fun h => scale h.u128 config.sityFeeRegistration.atomics).getD 0

theorem registrationPrice_ok {config : Config} {item : ItemInfo} {price : Uint128}
    (h : registrationPrice config item = .ok price) : price.u128 = sityRequired config item := by
  unfold registrationPrice at h
  unfold sityRequired
  split at h
  · next unbid =>
    rw [unbid, ← Except.ok.inj h]
    rfl
  · next highestBid bid =>
    obtain ⟨share, product, sum⟩ := bind_ok h
    rw [Uint128.mul_ok] at product
    rw [Uint128.add, Uint128.narrow_ok, product] at sum
    rw [bid, sum]
    rfl

theorem registrationPrice_succeeds {config : Config} {item : ItemInfo} {price : Uint128}
    (required : price.u128 = sityRequired config item) : registrationPrice config item = .ok price := by
  unfold registrationPrice
  unfold sityRequired at required
  cases bid : item.highestBid with
  | none =>
    rw [bid] at required
    exact congrArg Except.ok (Uint128.ext required.symm)
  | some highestBid =>
    rw [bid, Option.map_some, Option.getD_some] at required
    obtain ⟨share, product, shareIs⟩ := Uint128.mul_succeeds ContractError highestBid config.sityFeeRegistration
      (by have := price.lt; omega)
    refine bind_ok_iff.mpr ⟨share, product, ?_⟩
    rw [Uint128.add, Uint128.narrow_ok, required, shareIs]

structure Registered (api : Api) (config : Config) (env : Env) (x : Slice) (sender : String) (sent : Uint128)
    (b : CanonicalAddr) (item : ItemInfo) : Prop where
  sender : api.addrCanonicalize sender = .ok b
  stored : x.item = some item
  notEnded : env.blockTime.seconds ≤ item.endTime
  started : item.startTime ≤ env.blockTime.seconds
  notCreator : item.creator ≠ b
  hidden : item.privateSale = true
  price : sent.u128 = sityRequired config item
  new : x.bid b = none

def BidInfo.registered (sent : Uint128) : BidInfo :=
  { bidCounter := 0, totalBid := .zero, sityUsed := some sent, resolved := false }

theorem executeRegisterPrivateSale_ok {deps : Deps} {s t : Storage} {env : Env} {info : MessageInfo} {sender : String}
    {sent : Uint128} {i : Nat} {r : Response}
    (h : executeRegisterPrivateSale deps s env info sender sent i = .ok (t, r)) :
    ∃ b item cw20, Registered deps.api s.config env (s.slice i) sender sent b item ∧
      t.slice i = (s.slice i).withBid b (.registered sent) ∧ SameElsewhere i s t ∧
      deps.api.addrHumanize s.state.cw20Address = .ok cw20 ∧
      r.messages = [.wasm (.executeCw20 cw20 (.burn sent))] := by
  unfold executeRegisterPrivateSale at h
  obtain ⟨b, senderRead, h⟩ := bind_ok h
  cases found : s.items.mayLoad i with
  | none => simp [found] at h
  | some item =>
    simp only [found] at h
    obtain ⟨_, notEnded, h⟩ := bind_ok h
    obtain ⟨_, started, h⟩ := bind_ok h
    obtain ⟨_, notCreator, h⟩ := bind_ok h
    obtain ⟨_, checked, h⟩ := bind_ok h
    obtain ⟨_, new, h⟩ := bind_ok h
    obtain ⟨cw20, read, h⟩ := bind_ok h
    obtain ⟨rfl, rfl⟩ := Prod.mk.inj (pure_ok.mp h)
    unfold checkRegistration at checked
    split at checked
    · next hidden =>
      obtain ⟨price, computed, checked⟩ := bind_ok checked
      obtain rfl : price = sent := not_not.mp (reject_ok.mp checked)
      obtain ⟨slice, elsewhere⟩ := slice_bid s i b (.registered price)
      refine ⟨b, item, cw20, ?_, slice, elsewhere, std_ok.mp read, rfl⟩
      exact {
        sender := std_ok.mp senderRead
        stored := found
        notEnded := Nat.le_of_not_lt (reject_ok.mp notEnded)
        started := Nat.le_of_not_lt (reject_ok.mp started)
        notCreator := reject_ok.mp notCreator
        hidden
        price := registrationPrice_ok computed
        new := by simpa [Storage.slice] using reject_ok.mp new }
    · cases checked

theorem executeRegisterPrivateSale_succeeds {deps : Deps} {s : Storage} {env : Env} (info : MessageInfo) {sender : String}
    {sent : Uint128} {i : Nat} {b : CanonicalAddr} {item : ItemInfo} {cw20 : Addr}
    (spec : Registered deps.api s.config env (s.slice i) sender sent b item)
    (token : deps.api.addrHumanize s.state.cw20Address = .ok cw20) :
    ∃ p, executeRegisterPrivateSale deps s env info sender sent i = .ok p := by
  have found : s.items.mayLoad i = some item := spec.stored
  have new : s.bids.mayLoad (i, b) = none := spec.new
  have checked : checkRegistration s.config item sent = .ok () := by
    rw [checkRegistration, if_pos spec.hidden]
    exact bind_ok_iff.mpr ⟨sent, registrationPrice_succeeds spec.price, reject_ok.mpr (not_not.mpr rfl)⟩
  refine bind_succeeds b (std_ok.mpr spec.sender) ?_
  simp only [found]
  refine bind_succeeds () (reject_ok.mpr (Nat.not_lt_of_le spec.notEnded)) ?_
  refine bind_succeeds () (reject_ok.mpr (Nat.not_lt_of_le spec.started)) ?_
  refine bind_succeeds () (reject_ok.mpr spec.notCreator) (bind_succeeds () checked ?_)
  refine bind_succeeds () (reject_ok.mpr (by simp [new])) ?_
  exact bind_succeeds cw20 (std_ok.mpr token) ⟨_, rfl⟩

/-! ### Royalties -/

/-- What `execute_update_royalty` stores for `minter`. Without an address in the message an entry keeps its
recipient. -/
structure Rated (api : Api) (info : MessageInfo) (royalty : FiniteMap CanonicalAddr RoyaltyInfo) (fee : Decimal)
    (minter : CanonicalAddr) (terms : RoyaltyInfo) : Prop where
  sender : api.addrCanonicalize info.sender = .ok minter
  rate : terms.fee = fee
  capped : ¬ royaltyMaxFee < fee
  recipient : ∀ raw, terms.recipient = some raw → (∃ a, api.addrCanonicalize a = .ok raw) ∨
    ∃ old, royalty.mayLoad minter = some old ∧ old.recipient = some raw

theorem royaltyRecipient_ok {deps : Deps} {info : MessageInfo} {minter raw : CanonicalAddr} {recipient : Option String}
    (sender : deps.api.addrCanonicalize info.sender = .ok minter)
    (h : royaltyRecipient deps minter recipient = .ok raw) : ∃ a, deps.api.addrCanonicalize a = .ok raw := by
  unfold royaltyRecipient at h
  split at h
  · exact ⟨info.sender, by rw [sender, Except.ok.inj h]⟩
  · obtain ⟨valid, _, read⟩ := bind_ok h
    exact ⟨valid, std_ok.mp read⟩

/-- An accepted update: what is stored for `minter` and what is announced. A missing address means the
sender for a new entry and the recipient already stored for an old one; the announcement says the sender
in both cases. -/
structure RoyaltySet (deps : Deps) (info : MessageInfo) (royalty : FiniteMap CanonicalAddr RoyaltyInfo) (fee : Decimal)
    (recipient : Option String) (minter setRecipient : CanonicalAddr) (announced : Addr) (terms : RoyaltyInfo) :
    Prop where
  sender : deps.api.addrCanonicalize info.sender = .ok minter
  capped : ¬ royaltyMaxFee < fee
  chosen : royaltyRecipient deps minter recipient = .ok setRecipient
  announced : deps.api.addrHumanize setRecipient = .ok announced
  rate : terms.fee = fee
  given : recipient.isSome → terms.recipient = some setRecipient
  new : recipient = none → royalty.mayLoad minter = none → terms.recipient = some setRecipient
  kept : recipient = none → ∀ old, royalty.mayLoad minter = some old → terms.recipient = old.recipient

theorem executeUpdateRoyalty_set {deps : Deps} {s t : Storage} {env : Env} {info : MessageInfo} {fee : Decimal}
    {recipient : Option String} {r : Response}
    (h : executeUpdateRoyalty deps s env info fee recipient = .ok (t, r)) :
    ∃ minter setRecipient announced terms,
      RoyaltySet deps info s.royalty fee recipient minter setRecipient announced terms ∧
      t = { s with royalty := s.royalty.save minter terms } ∧
      r = { messages := []
            attributes := [("update_royalty", info.sender), ("royalty_fee", fee.toString), ("recipient", announced)] } := by
  unfold executeUpdateRoyalty at h
  obtain ⟨minter, sender, h⟩ := bind_ok h
  obtain ⟨_, capped, h⟩ := bind_ok h
  obtain ⟨setRecipient, chosen, h⟩ := bind_ok h
  obtain ⟨royalty, written, h⟩ := bind_ok h
  obtain ⟨announced, human, h⟩ := bind_ok h
  obtain ⟨rfl, rfl⟩ := Prod.mk.inj (pure_ok.mp h)
  rw [std_ok] at sender
  rw [reject_ok] at capped
  rw [unwrap_ok] at human
  unfold writeRoyalty at written
  split at written
  · next absent =>
    refine ⟨minter, setRecipient, announced, _, ⟨sender, capped, chosen, human, rfl, ?_, ?_, ?_⟩,
      by rw [← Except.ok.inj written], rfl⟩
    · exact fun _ => rfl
    · exact fun _ _ => rfl
    · exact fun _ old found => by simp [absent] at found
  · next terms found =>
    rw [FiniteMap.update_ok, found] at written
    obtain ⟨stored, updated, rfl⟩ := written
    obtain rfl := pure_ok.mp updated
    refine ⟨minter, setRecipient, announced, _, ⟨sender, capped, chosen, human, rfl, ?_, ?_, ?_⟩, rfl, rfl⟩
    · exact fun given => if_pos given
    · exact fun _ absent => by simp [found] at absent
    · intro missing old same
      obtain rfl := Option.some.inj (found.symm.trans same)
      exact if_neg (by simp [missing])

section
variable {deps : Deps} {info : MessageInfo} {royalty : FiniteMap CanonicalAddr RoyaltyInfo} {fee : Decimal}
  {recipient : Option String} {minter setRecipient : CanonicalAddr} {announced : Addr} {terms : RoyaltyInfo}

theorem RoyaltySet.rated (h : RoyaltySet deps info royalty fee recipient minter setRecipient announced terms) :
    Rated deps.api info royalty fee minter terms := by
  have known := royaltyRecipient_ok h.sender h.chosen
  refine ⟨h.sender, h.rate, h.capped, ?_⟩
  intro raw same
  cases given : recipient with
  | some address => exact Or.inl (Option.some.inj ((h.given (by simp [given])).symm.trans same) ▸ known)
  | none =>
    cases found : royalty.mayLoad minter with
    | none => exact Or.inl (Option.some.inj ((h.new given found).symm.trans same) ▸ known)
    | some old => exact Or.inr ⟨old, rfl, (h.kept given old found).symm.trans same⟩

theorem RoyaltySet.announces_named
    (h : RoyaltySet deps info royalty fee recipient minter setRecipient announced terms) :
    setRecipient = (recipient.map fun _ => setRecipient).getD minter := by
  cases recipient with
  | none => exact (Except.ok.inj h.chosen).symm
  | some address => rfl

theorem RoyaltySet.stores_named
    (h : RoyaltySet deps info royalty fee recipient minter setRecipient announced terms) :
    terms.recipient.getD minter = (recipient.map fun _ => setRecipient).getD
      (((royalty.mayLoad minter).bind RoyaltyInfo.recipient).getD minter) := by
  cases given : recipient with
  | some address =>
    rw [h.given (by rw [given]; rfl)]
    rfl
  | none =>
    cases found : royalty.mayLoad minter with
    | none =>
      rw [h.new given found, h.announces_named, given]
      rfl
    | some old =>
      rw [h.kept given old found]
      rfl

end

end NftMarketplace
