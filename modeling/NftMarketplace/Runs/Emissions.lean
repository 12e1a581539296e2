import NftMarketplace.Runs.Sales

/-!
The messages that the contract sends. Coins go out as refunds to the sender, as the parts of a sale
and as the shares of a cancellation fee; tokens are minted and burnt at the one SITY contract, and an
NFT leaves through its own collection.
-/

namespace NftMarketplace
open Cosmwasm

section
variable {api : Api} {e : Accepted api} {es : List (Accepted api)} {s start : Storage} {i : Nat}

/-! ### One message -/

/-- Message `e` sells the token of auction `i`, and its collection names `minter`. -/
structure Sells (e : Accepted api) (i : Nat) (item : ItemInfo) (minter : Option CanonicalAddr) : Prop where
  message : e.msg = .withdrawNft i
  found : e.item i = some item
  asked : ∃ collection, api.addrHumanize item.nftContract = .ok collection ∧ queryMinter e.deps collection = .ok minter
  sold : saleRecipient item ≠ item.creator

/-- The parts of a cancellation fee and their recipients. -/
def feeDues (s : Storage) (item : ItemInfo) : List (CanonicalAddr × Nat) :=
  let fee := scale item.price s.cancellation.cancellationFee.atomics
  match item.highestBidder with
  | some b => [(b, fee / 2), (s.config.lotaContract, fee / 2)]
  | none => [(s.config.lotaContract, fee)]

/-- What a message of a response can be, with what it was sent for. -/
inductive Emits (e : Accepted api) : CosmosMsg → Prop where
  | refund {i : Nat} {b : CanonicalAddr} {amount : Uint128} {m : CosmosMsg} (message : e.msg = .retractBids i)
      (sender : e.sender = some b) (deposit : amount = e.before.totalBid i b)
      (send : TaxedSend e.querier e.before.config e.info.sender amount m) : Emits e m
  | partialReward {i : Nat} {b : CanonicalAddr} {item : ItemInfo} {bid : BidInfo} {cw20 : Addr} {amount : Uint128}
      (message : e.msg = .retractBids i) (sender : e.sender = some b) (found : e.item i = some item)
      (entry : e.before.bids.mayLoad (i, b) = some bid) (due : RewardDue item bid)
      (reward : amount.u128 = scale bid.totalBid.u128 e.before.config.sityPartialRewards.atomics)
      (token : api.addrHumanize e.before.state.cw20Address = .ok cw20) :
      Emits e (.wasm (.executeCw20 cw20 (.mint e.info.sender amount)))
  | share {i : Nat} {item : ItemInfo} {minter : Option CanonicalAddr} {raw : CanonicalAddr} {human : Addr}
      {amount : Uint128} {m : CosmosMsg} (sale : Sells e i item minter)
      (due : (raw, amount.u128) ∈ dues e.before.config item (royaltyOf e.before minter)) (positive : 0 < amount.u128)
      (read : api.addrHumanize raw = .ok human)
      (send : TaxedSend e.querier e.before.config human amount m) : Emits e m
  | fullReward {i : Nat} {item : ItemInfo} {minter : Option CanonicalAddr} {side : CanonicalAddr} {cw20 human : Addr}
      {amount : Uint128} (sale : Sells e i item minter) (party : side = item.creator ∨ side = saleRecipient item)
      (reward : amount.u128 = scale item.price e.before.config.sityFullRewards.atomics)
      (read : api.addrHumanize side = .ok human) (token : api.addrHumanize e.before.state.cw20Address = .ok cw20) :
      Emits e (.wasm (.executeCw20 cw20 (.mint human amount)))
  | fee {i : Nat} {item : ItemInfo} {raw : CanonicalAddr} {human : Addr} {amount : Uint128} {m : CosmosMsg}
      (message : e.msg = .cancelAuction i) (found : e.item i = some item) (bid : item.highestBid.isSome)
      (due : (raw, amount.u128) ∈ feeDues e.before item) (read : api.addrHumanize raw = .ok human)
      (send : TaxedSend e.querier e.before.config human amount m) : Emits e m
  | burn {cw20 : Addr} {wrapper : Cw20ReceiveMsg} (message : e.msg = .receive wrapper)
      (token : api.addrHumanize e.before.state.cw20Address = .ok cw20) :
      Emits e (.wasm (.executeCw20 cw20 (.burn wrapper.amount)))
  | nft {i : Nat} {item : ItemInfo} {collection owner : Addr} (message : e.msg = .withdrawNft i)
      (found : e.item i = some item) (contract : api.addrHumanize item.nftContract = .ok collection)
      (newOwner : api.addrHumanize (saleRecipient item) = .ok owner) :
      Emits e (handOver collection owner item)

section
variable {item : ItemInfo} {minter : Option CanonicalAddr}

theorem sendShare_emits (sale : Sells e i item minter) {dest : Option CanonicalAddr} {amount : Uint128}
    {msgs : List CosmosMsg} (sent : sendShare e.deps e.before.config dest amount = .ok msgs)
    (due : ∀ raw, dest = some raw → (raw, amount.u128) ∈ dues e.before.config item (royaltyOf e.before minter)) :
    ∀ m ∈ msgs, Emits e m := by
  rcases sendShare_ok sent with ⟨_, rfl⟩ | ⟨raw, human, m, known, positive, read, send, rfl⟩
  · simp
  · rw [List.forall_mem_singleton]
    exact .share sale (due raw known) positive read send

theorem fullRewards_emits (sale : Sells e i item minter) {highestBid : Uint128} (price : highestBid.u128 = item.price)
    {msgs : List CosmosMsg} (minted : fullRewards e.deps e.before item.creator (saleRecipient item) highestBid = .ok msgs) :
    ∀ m ∈ msgs, Emits e m := by
  rcases fullRewards_ok minted with ⟨_, rfl⟩ | ⟨cw20, _, _, _, _, reward, token, creator, recipient, rfl⟩
  · simp
  · rw [price] at reward
    rw [List.forall_mem_cons, List.forall_mem_singleton]
    exact ⟨.fullReward sale (Or.inl rfl) reward creator token, .fullReward sale (Or.inr rfl) reward recipient token⟩

theorem salePayouts_emits (sale : Sells e i item minter) {shares : Shares}
    {rewards payout royaltySend lotaSend charitySend : List CosmosMsg}
    (split : SplitOf e.before.config item (royaltyOf e.before minter) shares) (bid : item.highestBid.isSome)
    (parts : SalePayouts e.deps e.before item (saleRecipient item) (royaltyOf e.before minter) shares rewards payout
      royaltySend lotaSend charitySend) :
    ∀ m ∈ rewards ++ payout ++ royaltySend ++ lotaSend ++ charitySend, Emits e m := by
  intro m member
  simp only [List.mem_append] at member
  rcases member with (((minted | net) | royal) | lota) | charity
  · exact fullRewards_emits sale split.highestBid parts.rewards m minted
  · refine sendShare_emits sale parts.payout ?_ m net
    rintro raw ⟨⟩
    simp [dues, split.net]
  · refine sendShare_emits sale parts.royaltySend ?_ m royal
    intro raw known
    obtain ⟨r, due, rfl⟩ := Option.map_eq_some_iff.mp known
    simp [dues, split.royaltyShare, due]
  · refine sendShare_emits sale parts.lotaSend ?_ m lota
    rintro raw ⟨⟩
    simp [dues, split.lota]
  · refine sendShare_emits sale parts.charitySend ?_ m charity
    intro raw known
    rw [split.charityAddress bid] at known
    obtain ⟨c, given, rfl⟩ := Option.map_eq_some_iff.mp known
    simp [dues, split.charity, given]

theorem cancellationFees_emits {fee : Uint128} {msgs : List CosmosMsg}
    (message : e.msg = .cancelAuction i) (found : e.item i = some item)
    (fees : cancellationFees e.deps e.before e.info item = .ok (fee, msgs)) : ∀ m ∈ msgs, Emits e m := by
  rcases cancellationFees_ok fees with ⟨_, _, rfl⟩ | ⟨bid, _, charge, h⟩
  · simp
  rcases h with ⟨b, half, _, _, _, _, lead, halved, bidder, lota, first, second, rfl⟩ | ⟨_, _, nobody, lota, only, rfl⟩
  · rw [List.forall_mem_cons, List.forall_mem_singleton]
    exact ⟨.fee message found bid (by simp [feeDues, lead, halved, charge]) bidder first,
      .fee message found bid (by simp [feeDues, lead, halved, charge]) lota second⟩
  · rw [List.forall_mem_singleton]
    exact .fee message found bid (by simp [feeDues, nobody, charge]) lota only

end

theorem Accepted.burn_of_receive {wrapper : Cw20ReceiveMsg} (message : e.msg = .receive wrapper) :
    ∃ cw20, api.addrHumanize e.before.state.cw20Address = .ok cw20 ∧ e.info.sender = cw20 ∧
      e.response.messages = [.wasm (.executeCw20 cw20 (.burn wrapper.amount))] := by
  have accepted := e.accepted
  rw [message] at accepted
  obtain ⟨cw20, token, accepted⟩ := Outcome.bind_ok accepted
  obtain ⟨_, caller, accepted⟩ := Outcome.bind_ok accepted
  obtain ⟨payload, _, accepted⟩ := Outcome.bind_ok accepted
  cases payload with
  | createAuctionNft args => cases accepted
  | registerPrivateSale i =>
    obtain ⟨_, _, burner, _, _, _, read, burns⟩ := executeRegisterPrivateSale_ok accepted
    obtain rfl := Except.ok.inj ((std_ok.mp token).symm.trans read)
    exact ⟨cw20, read, not_not.mp (Outcome.reject_ok.mp caller), burns⟩

theorem Reached.emits (reached : Reached api es e.before) : ∀ m ∈ e.response.messages, Emits e m := by
  cases message : e.msg with
  | placeBid _ | instantBuy _ | updateRoyalty _ _ | receiveNft _ =>
    simp [Accepted.silent (e := e) (by rw [message]; trivial)]
  | retractBids i =>
    obtain ⟨b, item, bid, send, rewards, spec, _, _, sends⟩ := Accepted.retracted message
    have sender : e.sender = some b := Accepted.sender_ok spec.sender
    have entry : e.before.bids.mayLoad (i, b) = some bid := spec.entry
    have deposit : bid.totalBid = e.before.totalBid i b := by simp [Storage.totalBid, entry]
    rw [sends, List.forall_mem_cons]
    refine ⟨.refund message sender deposit spec.refund, ?_⟩
    by_cases due : RewardDue item bid
    · obtain ⟨cw20, _, reward, token, rfl⟩ := spec.rewarded due
      rw [List.forall_mem_singleton]
      exact .partialReward message sender spec.stored entry due reward token
    · simp [spec.unrewarded due]
  | withdrawNft i =>
    obtain ⟨item, collection, owner, minter, _, _, spec, _, _, sends⟩ := Accepted.withdrawn message
    have found : e.item i = some item := spec.stored
    rw [sends, List.forall_mem_cons]
    refine ⟨.nft message found spec.contract spec.newOwner, ?_⟩
    rcases salePayouts_ok spec.paid with ⟨_, rfl⟩ | ⟨sold, _, _, _, _, _, parts, rfl⟩
    · simp
    · have sale : Sells e i item minter := ⟨message, found, ⟨collection, spec.contract, spec.asked⟩, sold⟩
      exact salePayouts_emits sale spec.split ((reached.sound found).sold sold) parts
  | cancelAuction i =>
    obtain ⟨item, _, _, spec, _, _, sends⟩ := Accepted.cancelled message
    rw [sends]
    exact cancellationFees_emits message spec.stored spec.fees
  | receive wrapper =>
    obtain ⟨cw20, token, _, burns⟩ := Accepted.burn_of_receive message
    rw [burns, List.forall_mem_singleton]
    exact .burn message token

/-! ### Runs -/

structure SameSetup (s t : Storage) : Prop where
  config : t.config = s.config
  cancellation : t.cancellation = s.cancellation
  cw20Address : t.state.cw20Address = s.state.cw20Address

theorem Run.setup (run : Run start es s) : SameSetup start s := by
  induction run with
  | nil => exact ⟨rfl, rfl, rfl⟩
  | snoc e _ ih =>
    have kept := frame e
    exact ⟨kept.config.trans ih.config, kept.cancellation.trans ih.cancellation, kept.cw20Address.trans ih.cw20Address⟩

/-- The message of a run found the setup that the run ends with. -/
theorem Reached.setup_at (reached : Reached api es s) (member : e ∈ es) : SameSetup s e.before := by
  obtain ⟨pre, post, rfl⟩ := List.append_of_mem member
  obtain ⟨_, rest, _⟩ := reached.before
  have kept := frame e
  have later := rest.setup
  exact ⟨kept.config.symm.trans later.config.symm, kept.cancellation.symm.trans later.cancellation.symm,
    kept.cw20Address.symm.trans later.cw20Address.symm⟩

theorem TaxedSend.net_le {querier : Querier} {config : Config} {dest : String} {amount : Uint128} {m : CosmosMsg}
    (send : TaxedSend querier config dest amount m) :
    ∃ net, m = .bankSend dest [{ denom := config.denom, amount := net }] amount ∧ net ≤ amount := by
  obtain ⟨net, rate, cap, rfl, _, _, after⟩ := send
  refine ⟨net, rfl, ?_⟩
  rw [Uint128.le_def, after]
  exact Nat.sub_le _ _

/-- A transfer is one coin of the contract's denomination, a token message goes to the SITY contract, and
there is no third kind but the transfer of an auction's NFT. -/
def Confined (s : Storage) (e : Accepted api) (m : CosmosMsg) : Prop :=
  (∃ dest net gross, m = .bankSend dest [{ denom := s.config.denom, amount := net }] gross ∧ net ≤ gross) ∨
    (∃ cw20 call, m = .wasm (.executeCw20 cw20 call) ∧ api.addrHumanize s.state.cw20Address = .ok cw20) ∨
    ∃ i item collection owner, e.msg = .withdrawNft i ∧ e.item i = some item ∧
      api.addrHumanize item.nftContract = .ok collection ∧ m = handOver collection owner item

theorem Emits.confined {m : CosmosMsg} (emitted : Emits e m) (setup : SameSetup s e.before) : Confined s e m := by
  unfold Confined
  rw [← setup.config, ← setup.cw20Address]
  cases emitted with
  | refund _ _ _ send | share _ _ _ _ send | fee _ _ _ _ _ send =>
    obtain ⟨net, same, le⟩ := send.net_le
    exact Or.inl ⟨_, net, _, same, le⟩
  | partialReward _ _ _ _ _ _ token | fullReward _ _ _ _ token | burn _ token => exact Or.inr (Or.inl ⟨_, _, rfl, token⟩)
  | nft message found contract _ => exact Or.inr (Or.inr ⟨_, _, _, _, message, found, contract, rfl⟩)

/-- Every message of every response is one that the contract has a reason to send, for the amount and to the
recipient that the reason gives, and in the one denomination and the one token that the contract was set up with. -/
theorem emissions_confined (reached : Reached api es s) {m : CosmosMsg} (member : e ∈ es)
    (sent : m ∈ e.response.messages) : Emits e m ∧ Confined s e m := by
  have setup := reached.setup_at member
  obtain ⟨pre, post, rfl⟩ := List.append_of_mem member
  have emitted := reached.before.1.emits m sent
  exact ⟨emitted, emitted.confined setup⟩

theorem emissions_confined_soldToBob :
    (Demo.soldToBob.log.get ⟨3, by decide⟩).response.messages.length = 5 ∧
      ∀ m ∈ (Demo.soldToBob.log.get ⟨3, by decide⟩).response.messages,
        Emits (Demo.soldToBob.log.get ⟨3, by decide⟩) m ∧
          Confined Demo.soldToBob.final (Demo.soldToBob.log.get ⟨3, by decide⟩) m :=
  ⟨by decide, fun _ sent => emissions_confined Demo.soldToBob.reached (List.get_mem _ _) sent⟩

end

end NftMarketplace
