import NftMarketplace.Lib.Custody
import NftMarketplace.Runs.Custody

/-!
The contract next to one collection. The collection is a parameter: of cw721 the contract relies on the
transfer of a token by its owner, and on being notified only of a token that was moved to it. What the other
collections do makes no difference.
-/

namespace NftMarketplace
open Cosmwasm

/-- A collection as the contract meets it, with states `σ`: who owns a token, the messages that a sender executes
there, a `SendNft` of a token to the contract by a sender, and whatever else its users do. -/
structure Collection (σ : Type) where
  ownerOf : σ → String → Option CanonicalAddr
  execute : σ → CanonicalAddr → Cw721ExecuteMsg → Option σ
  sendNft : σ → CanonicalAddr → String → Option σ
  others : σ → σ → Prop

/-- What cw721 says of `TransferNft` and `SendNft`: the owner of a token can transfer it, that moves this token and no
other, and it takes the owner or somebody it approved. The contract at `keeper` approves nobody. -/
structure Collection.Lawful {σ : Type} (c : Collection σ) (api : Api) (keeper : CanonicalAddr) : Prop where
  honoured : ∀ {x p q recipient k}, c.ownerOf x k = some p → api.addrCanonicalize recipient = .ok q →
    ∃ y, c.execute x p (.transferNft recipient k) = some y
  transferred : ∀ {x y p q recipient k}, c.execute x p (.transferNft recipient k) = some y →
    api.addrCanonicalize recipient = .ok q → c.ownerOf y = Function.update (c.ownerOf x) k (some q)
  sent : ∀ {x y p k}, c.sendNft x p k = some y → p ≠ keeper →
    c.ownerOf x k ≠ some keeper ∧ c.ownerOf y = Function.update (c.ownerOf x) k (some keeper)
  others : ∀ {x y k}, c.others x y → c.ownerOf x k = some keeper → c.ownerOf y k = some keeper

def Accepted.requests {api : Api} (e : Accepted api) (collection : CanonicalAddr) : List Cw721ExecuteMsg :=
  e.response.messages.filterMap (CosmosMsg.cw721 api collection)

/-- The token with which a collection notifies the contract. -/
def Accepted.deposited {api : Api} (e : Accepted api) (collection : CanonicalAddr) : Option String :=
  match e.msg with
  | .receiveNft wrapper => if e.sender = some collection then some wrapper.tokenId else none
  | _ => none

/-- The collection at `collection`, next to the contract at `self`. It notifies the contract while a token is sent
there; any other message of the contract goes through where the collection honours all that the response asks for. -/
def Collection.neighbour {σ : Type} (c : Collection σ) (api : Api) (collection self : CanonicalAddr) :
    Transition.Neighbour (Accepted api) σ where
  others := c.others
  reacts e x y :=
    match e.deposited collection with
    | some k => ∃ p, p ≠ self ∧ c.sendNft x p k = some y
    | none => (e.requests collection).foldlM (fun x msg => c.execute x self msg) x = some y

section
variable {σ : Type} {c : Collection σ} {api : Api} {collection self : CanonicalAddr} {es : List (Accepted api)}
  {e : Accepted api} {s : Storage} {x : σ} {i j : Nat} {k : String}

/-- The auction is not settled and is about token `k` of the collection. -/
def Slice.Keeps (x : Slice) (collection : CanonicalAddr) (k : String) : Prop :=
  x.resolved = false ∧ ∃ item, x.item = some item ∧ item.nftContract = collection ∧ item.nftId = k

/-- An auction keeps what it kept, unless it is settled, and a new one the token it was listed for. -/
theorem keeps_step (wellFormed : WellFormed api e.before) (keeps : (e.after.slice j).Keeps collection k) :
    e.msg ≠ .withdrawNft j ∧ (e.before.slice j).Keeps collection k ∨
      e.before.state.counterItems = j ∧ e.deposited collection = some k := by
  obtain ⟨unresolved, item, found, contract, token⟩ := keeps
  cases present : (e.before.slice j).item with
  | some old =>
    obtain ⟨item', found', terms, _⟩ := (effect e j).same_terms wellFormed present
    obtain rfl := Option.some.inj (found.symm.trans found')
    rcases (effect e j).resolved wellFormed with ⟨_, _, resolved⟩ | ⟨other, same⟩
    · rw [unresolved] at resolved
      cases resolved
    · exact Or.inl ⟨other, same.symm.trans unresolved, old, present, (nftContract_of_terms terms).symm.trans contract,
        (nftId_of_terms terms).symm.trans token⟩
  | none =>
    have lists := lists_of_new wellFormed present (by rw [found]; rfl)
    obtain ⟨wrapper, args, listed, listing, after⟩ := lists.listedBy
    obtain rfl := Option.some.inj (found.symm.trans after)
    have sender : e.sender = some collection := contract ▸ Accepted.sender_ok listing.spec.contract
    refine Or.inr ⟨lists.2, ?_⟩
    rw [Accepted.deposited, listing.message, ← token, listing.spec.token]
    exact if_pos sender

theorem requests_nil (unsettled : ∀ i, e.msg ≠ .withdrawNft i) : e.requests collection = [] := by
  rcases nfts_eq e with ⟨_, none⟩ | ⟨i, _, _, message, _⟩
  · rw [Accepted.nfts, List.filterMap_eq_nil_iff] at none
    refine List.filterMap_eq_nil_iff.mpr fun m sent => ?_
    have other := none m sent
    match m with
    | .wasm (.executeCw721 _ (.transferNft _ _)) => cases other
    | .wasm (.executeCw20 _ _) | .wasm (.instantiateCw20 _ _ _ _) | .bankSend _ _ _ => rfl
  · exact (unsettled i message).elim

/-- A settlement asks the collection of its auction for one transfer, and no other collection for any. -/
theorem requests_settled (lawful : api.Lawful) (message : e.msg = .withdrawNft i) :
    ∃ item owner, e.item i = some item ∧ item.resolved = false ∧ api.addrCanonicalize owner = .ok (saleRecipient item) ∧
      e.requests collection = if item.nftContract = collection then [.transferNft owner item.nftId] else [] := by
  obtain ⟨item, contract, owner, _, _, payouts, spec, _, _, sends⟩ := Accepted.withdrawn message
  refine ⟨item, owner, spec.stored, spec.unresolved, lawful.canonicalize spec.newOwner, ?_⟩
  have paid : payouts.filterMap (CosmosMsg.cw721 api collection) = [] :=
    salePayouts_filterMap spec.paid (fun _ _ _ => rfl) fun _ _ _ => rfl
  have address : api.addrCanonicalize contract = .ok item.nftContract := lawful.canonicalize spec.contract
  rw [Accepted.requests, sends, List.filterMap_cons, paid, handOver, CosmosMsg.cw721, address]
  by_cases here : item.nftContract = collection <;> simp [here]

/-- Each auction keeps a token that the contract owns, and no two keep the same. -/
abbrev InCustody (c : Collection σ) (collection self : CanonicalAddr) (x : σ) (s : Storage) : Prop :=
  Custody.Kept (some self) (c.ownerOf x) fun i k => (s.slice i).Keeps collection k

/-- What `e` asks of the collection leads from `x` to `y`. The contract is left with the tokens of the other auctions,
and the token of a settled one goes to the recipient of the sale. -/
structure Honours (c : Collection σ) (collection keeper : CanonicalAddr) (e : Accepted api) (x y : σ) : Prop where
  asked : (e.requests collection).foldlM (fun x msg => c.execute x keeper msg) x = some y
  left : Custody.Kept (some keeper) (c.ownerOf y) fun i k => (e.before.slice i).Keeps collection k ∧ e.msg ≠ .withdrawNft i
  handed : ∀ i item, e.msg = .withdrawNft i → e.item i = some item → item.nftContract = collection →
    c.ownerOf y = Function.update (c.ownerOf x) item.nftId (some (saleRecipient item))

theorem InCustody.unasked (kept : InCustody c collection self x e.before) (nothing : e.requests collection = [])
    (elsewhere : ∀ i item, e.msg = .withdrawNft i → e.item i = some item → item.nftContract ≠ collection) :
    Honours c collection self e x x where
  asked := by rw [nothing]; rfl
  left := kept.fewer fun _ _ held => held.1
  handed i item message found here := (elsewhere i item message found here).elim

theorem InCustody.settled (kept : InCustody c collection self x e.before) (lawful : api.Lawful) (laws : c.Lawful api self)
    (message : e.msg = .withdrawNft i) : ∃ y, Honours c collection self e x y := by
  obtain ⟨item, recipient, found, unresolved, address, requests⟩ := requests_settled lawful message
  have itself {j : Nat} {item' : ItemInfo} (settles : e.msg = .withdrawNft j) (found' : e.item j = some item') :
      item' = item := by
    obtain rfl : i = j := ExecuteMsg.withdrawNft.inj (message.symm.trans settles)
    exact Option.some.inj (found'.symm.trans found)
  by_cases here : item.nftContract = collection
  · have present : (e.before.slice i).item = some item := found
    have held : (e.before.slice i).Keeps collection item.nftId :=
      ⟨by simp [Slice.resolved, present, unresolved], item, found, here, rfl⟩
    obtain ⟨y, moved⟩ := laws.honoured (kept.owned i _ held) address
    have owners := laws.transferred moved address
    refine ⟨y, ?_, ?_, ?_⟩
    · rw [requests, if_pos here]
      simp [moved]
    · rw [owners]
      refine kept.released held (fun j k others => ⟨others.1, ?_⟩) _
      rintro rfl
      exact others.2 message
    · intro j item' settles found' _
      rw [itself settles found', owners]
  · refine ⟨x, kept.unasked (by rw [requests, if_neg here]) ?_⟩
    intro j item' settles found'
    rwa [itself settles found']

/-- The collection honours what a message asks of it: nothing, or the token that the settled auction kept. -/
theorem InCustody.honoured (kept : InCustody c collection self x e.before) (lawful : api.Lawful) (laws : c.Lawful api self) :
    ∃ y, Honours c collection self e x y := by
  by_cases settles : ∃ i, e.msg = .withdrawNft i
  · obtain ⟨i, message⟩ := settles
    exact kept.settled lawful laws message
  · refine ⟨x, kept.unasked (requests_nil fun i message => settles ⟨i, message⟩) ?_⟩
    intro i _ message
    exact (settles ⟨i, message⟩).elim

theorem Beside.inCustody {first : Storage → σ → Prop} (beside : Beside (c.neighbour api collection self) first es s x)
    (lawful : api.Lawful) (laws : c.Lawful api self) : InCustody c collection self x s := by
  refine beside.induction (P := fun _ s x => InCustody c collection self x s) ?_ ?_ ?_
  · intro s x fresh _
    have nothing {i : Nat} {k : String} : ¬ (s.slice i).Keeps collection k := by
      rintro ⟨_, _, found, _⟩
      rw [fresh.slice] at found
      cases found
    exact ⟨fun _ _ held => (nothing held).elim, fun _ _ _ held => (nothing held).elim⟩
  · intro _ _ _ _ _ kept moves
    exact kept.undisturbed fun _ owned => laws.others moves owned
  · intro es e x y reached kept reacts
    have wellFormed := reached.wellFormed
    dsimp only [Collection.neighbour] at reacts
    cases notified : e.deposited collection with
    | some k =>
      simp only [notified] at reacts
      obtain ⟨p, other, sends⟩ := reacts
      obtain ⟨away, owners⟩ := laws.sent sends other
      show Custody.Kept _ _ _
      rw [owners]
      refine kept.deposited (i := e.before.state.counterItems) away fun j k' keeps => ?_
      rcases keeps_step wellFormed keeps with ⟨_, old⟩ | ⟨number, notified'⟩
      · exact Or.inl old
      · exact Or.inr ⟨number.symm, Option.some.inj (notified'.symm.trans notified)⟩
    | none =>
      simp only [notified] at reacts
      obtain ⟨_, honours⟩ := kept.honoured lawful laws
      obtain rfl := Option.some.inj (reacts.symm.trans honours.asked)
      refine honours.left.fewer fun j k keeps => ?_
      rcases keeps_step wellFormed keeps with ⟨other, old⟩ | ⟨_, notified'⟩
      · exact ⟨old, other⟩
      · rw [notified] at notified'
        cases notified'

/-- The contract owns the token of every auction that is not settled, no two such auctions are about the same
token, and the collection never refuses what the contract asks for: a settlement makes the recipient of the sale
the owner of the token. -/
theorem collection_served {first : Storage → σ → Prop} (lawful : api.Lawful) (laws : c.Lawful api self)
    (beside : Beside (c.neighbour api collection self) first es s x) :
    (∀ i item, s.items.mayLoad i = some item → item.nftContract = collection → item.resolved = false →
        c.ownerOf x item.nftId = some self) ∧
      (∀ i j item item', s.items.mayLoad i = some item → s.items.mayLoad j = some item' →
        item.nftContract = collection → item'.nftContract = collection → item.resolved = false →
        item'.resolved = false → item.nftId = item'.nftId → i = j) ∧
      ∀ e : Accepted api, e.before = s →
        ∃ y, (e.requests collection).foldlM (fun x msg => c.execute x self msg) x = some y ∧
          ∀ i item, e.msg = .withdrawNft i → e.item i = some item → item.nftContract = collection →
            c.ownerOf y = Function.update (c.ownerOf x) item.nftId (some (saleRecipient item)) := by
  have kept := beside.inCustody lawful laws
  have keeps {i : Nat} {item : ItemInfo} (found : s.items.mayLoad i = some item) (here : item.nftContract = collection)
      (unresolved : item.resolved = false) : (s.slice i).Keeps collection item.nftId := by
    have present : (s.slice i).item = some item := found
    exact ⟨by simp [Slice.resolved, present, unresolved], item, found, here, rfl⟩
  refine ⟨fun i item found here unresolved => kept.owned i _ (keeps found here unresolved), ?_, ?_⟩
  · intro i j item item' found found' here here' unresolved unresolved' same
    exact kept.apart i j _ (keeps found here unresolved) (same ▸ keeps found' here' unresolved')
  · rintro e rfl
    obtain ⟨y, honours⟩ := kept.honoured lawful laws
    exact ⟨y, honours.asked, honours.handed⟩

end

namespace Demo

/-- A collection that is its list of owners, and approves nobody. The contract is at `⟨[1]⟩`. -/
def registry : Collection (String → Option CanonicalAddr) where
  ownerOf owners k := owners k
  execute
    | owners, p, .transferNft recipient k =>
      match api.addrCanonicalize recipient with
      | .ok q => if owners k = some p then some (Function.update owners k (some q)) else none
      | .error _ => none
  sendNft owners p k := if owners k = some p then some (Function.update owners k (some ⟨[1]⟩)) else none
  others owners owners' := ∃ p k q, p ≠ ⟨[1]⟩ ∧ owners k = some p ∧ owners' = Function.update owners k q

theorem registry_lawful : registry.Lawful api ⟨[1]⟩ where
  honoured owns read := ⟨_, by simp only [registry, read]; exact if_pos owns⟩
  transferred moved read := by
    simp only [registry, read] at moved
    split at moved
    · exact (Option.some.inj moved).symm
    · cases moved
  sent sends other := by
    simp only [registry] at sends ⊢
    split at sends
    · next owns =>
      exact ⟨fun here => other (Option.some.inj (owns.symm.trans here)), (Option.some.inj sends).symm⟩
    · cases sends
  others := by
    rintro owners _ k ⟨p, k', q, other, owns, rfl⟩ here
    have away : k ≠ k' := by
      rintro rfl
      exact other (Option.some.inj (owns.symm.trans here))
    exact (Function.update_of_ne away _ _).trans here

/-- Only `seller` sends tokens to the contract. -/
def registered (e : Accepted api) (owners : String → Option CanonicalAddr) : Option (String → Option CanonicalAddr) :=
  match e.deposited ⟨[2]⟩ with
  | some k => registry.sendNft owners seller k
  | none => (e.requests ⟨[2]⟩).foldlM (fun owners msg => registry.execute owners ⟨[1]⟩ msg) owners

theorem registered_reacts (e : Accepted api) (owners owners' : String → Option CanonicalAddr)
    (moved : registered e owners = some owners') : (registry.neighbour api ⟨[2]⟩ ⟨[1]⟩).reacts e owners owners' := by
  unfold registered at moved
  dsimp only [Collection.neighbour]
  cases notified : e.deposited ⟨[2]⟩ with
  | some k =>
    rw [notified] at moved
    exact ⟨seller, by decide, moved⟩
  | none =>
    rw [notified] at moved
    exact moved

/-- `seller` owns every token of the collection `market` at first. -/
def owners : Option (String → Option CanonicalAddr) :=
  soldToBob.log.foldlM (fun owners e => registered e owners) fun _ => some seller

end Demo

theorem collection_served_soldToBob :
    ∃ owners, Demo.owners = some owners ∧ owners "token" = some Demo.bob ∧
      ∀ e : Accepted Demo.api, e.before = Demo.soldToBob.final → ∃ owners',
        (e.requests ⟨[2]⟩).foldlM (fun owners msg => Demo.registry.execute owners ⟨[1]⟩ msg) owners = some owners' := by
  obtain ⟨start, deployed, run⟩ := Demo.soldToBob.reached.run
  have bought : (Demo.owners.get (by decide)) "token" = some Demo.bob := by decide
  have moved : Demo.owners = some (Demo.owners.get (by decide)) := (Option.some_get _).symm
  have beside : Beside (Demo.registry.neighbour Demo.api ⟨[2]⟩ ⟨[1]⟩) (fun _ _ => True) Demo.soldToBob.log
      Demo.soldToBob.final (Demo.owners.get (by decide)) :=
    ⟨⟨start, _, deployed, trivial, .of_steps Demo.registered_reacts run moved⟩, Demo.soldToBob.reached.timed⟩
  refine ⟨_, moved, bought, fun e before => ?_⟩
  obtain ⟨owners', honoured, _⟩ := (collection_served Demo.lawful Demo.registry_lawful beside).2.2 e before
  exact ⟨owners', honoured⟩

end NftMarketplace
