import Mathlib.Data.Multiset.Replicate
import NftMarketplace.Runs.Bank
import NftMarketplace.Runs.Registrations

/-!
The contract next to the SITY token. The token is a parameter: of cw20 the contract relies on minting what it
alone may mint, on burning what it holds, and on being notified only of what was sent to it.
-/

namespace NftMarketplace
open Cosmwasm Transition

/-- A token as its minter meets it, with states `σ`: what everybody holds, the supply, the messages that a sender
executes there, a `Send` to the contract by a sender, and whatever else its users do. -/
structure Token (σ : Type) where
  balance : σ → CanonicalAddr → Uint128
  totalSupply : σ → Uint128
  execute : σ → CanonicalAddr → Cw20ExecuteMsg → Option σ
  send : σ → CanonicalAddr → Uint128 → Option σ
  others : σ → σ → Prop

/-- What cw20 says of a token with the only minter `keeper` and no cap but that of a `Uint128`. No amount is zero, a
mint is credited and a burn debited, and nobody but the holder, who approves nobody, spends what is held. -/
structure Token.Lawful {σ : Type} (token : Token σ) (api : Api) (keeper : CanonicalAddr) : Prop where
  mint_iff : ∀ {x recipient p n}, api.addrCanonicalize recipient = .ok p →
    ((∃ y, token.execute x keeper (.mint recipient n) = some y) ↔
      0 < n.u128 ∧ (token.totalSupply x).u128 + n.u128 < 2 ^ 128)
  minted : ∀ {x y recipient n}, token.execute x keeper (.mint recipient n) = some y →
    (token.totalSupply y).u128 = (token.totalSupply x).u128 + n.u128 ∧ token.balance x keeper ≤ token.balance y keeper
  burns : ∀ {x n}, 0 < n.u128 → n ≤ token.balance x keeper → ∃ y, token.execute x keeper (.burn n) = some y
  burnt : ∀ {x y n}, token.execute x keeper (.burn n) = some y →
    (token.totalSupply y).u128 + n.u128 = (token.totalSupply x).u128 ∧
      (token.balance y keeper).u128 + n.u128 = (token.balance x keeper).u128
  sent : ∀ {x y p n}, token.send x p n = some y → p ≠ keeper →
    0 < n.u128 ∧ token.totalSupply y = token.totalSupply x ∧
      (token.balance y keeper).u128 = (token.balance x keeper).u128 + n.u128
  others : ∀ {x y}, token.others x y →
    token.totalSupply y ≤ token.totalSupply x ∧ token.balance x keeper ≤ token.balance y keeper

/-- What the token at `cw20` makes of a response of the contract at `self`. Without it the whole message is undone. -/
def Token.book {σ : Type} (token : Token σ) {api : Api} (cw20 self : CanonicalAddr) (e : Accepted api) (x : σ) : Option σ :=
  (e.response.messages.filterMap (CosmosMsg.cw20 api cw20)).foldlM (fun x msg => token.execute x self msg) x

/-- The token at `cw20`, next to the contract at `self`. It notifies the contract of what it was sent. The states
count also what the holders have burnt. -/
def Token.neighbour {σ : Type} (token : Token σ) (api : Api) (cw20 self : CanonicalAddr) :
    Neighbour (Accepted api) (σ × ℕ) where
  others x y := token.others x.1 y.1 ∧
    (token.totalSupply y.1).u128 + y.2 = (token.totalSupply x.1).u128 + x.2
  reacts e x y := y.2 = x.2 ∧
    match e.msg with
    | .receive wrapper => ∃ payer paid, payer ≠ self ∧ token.send x.1 payer wrapper.amount = some paid ∧
        token.book cw20 self e paid = some y.1
    | _ => token.book cw20 self e x.1 = some y.1

/-- The token at its own instantiation, with nothing minted yet. -/
def Token.Unminted {σ : Type} (token : Token σ) (cw20 : CanonicalAddr) (s : Storage) (x : σ × ℕ) : Prop :=
  s.state.cw20Address = cw20 ∧ (token.totalSupply x.1).u128 = 0 ∧ x.2 = 0

namespace Accepted
variable {api : Api} (e : Accepted api)

def minted : Nat := (e.mints.map fun mint => mint.2.u128).sum

def burnt : Nat := (e.burns.map Uint128.u128).sum

end Accepted

section
variable {σ : Type} {token : Token σ} {api : Api} {cw20 self payer : CanonicalAddr} {es : List (Accepted api)}
  {e : Accepted api} {s : Storage} {x y : σ} {lost : Nat}

/-! ### Several mints -/

abbrev Token.mintAll (token : Token σ) (self : CanonicalAddr) (x : σ) (mints : List (String × Uint128)) : Option σ :=
  mints.foldlM (fun x mint => token.execute x self (.mint mint.1 mint.2)) x

theorem Token.Lawful.mintAll_iff (laws : token.Lawful api self) (mints : List (String × Uint128))
    (known : ∀ mint ∈ mints, ∃ p, api.addrCanonicalize mint.1 = .ok p) (x : σ) :
    (∃ y, token.mintAll self x mints = some y) ↔ (∀ mint ∈ mints, 0 < mint.2.u128) ∧
      (token.totalSupply x).u128 + (mints.map fun mint => mint.2.u128).sum < 2 ^ 128 := by
  induction mints generalizing x with
  | nil => simpa using (token.totalSupply x).lt
  | cons mint mints ih =>
    obtain ⟨⟨p, read⟩, rest⟩ := List.forall_mem_cons.mp known
    rw [List.forall_mem_cons, List.map_cons, List.sum_cons, ← Nat.add_assoc, and_assoc, Token.mintAll, List.foldlM_cons]
    cases first : token.execute x self (.mint mint.1 mint.2) with
    | some y =>
      have possible := (laws.mint_iff read).mp ⟨y, first⟩
      have later := ih rest y
      rw [(laws.minted first).1] at later
      simpa [possible.1] using later
    | none =>
      have impossible : ¬ (0 < mint.2.u128 ∧ (token.totalSupply x).u128 + mint.2.u128 < 2 ^ 128) := by
        rw [← laws.mint_iff read, first]
        simp
      refine iff_of_false (by simp) ?_
      rintro ⟨positive, _, room⟩
      exact impossible ⟨positive, by omega⟩

theorem Token.Lawful.mintedAll (laws : token.Lawful api self) (mints : List (String × Uint128)) {x y : σ}
    (minted : token.mintAll self x mints = some y) :
    (token.totalSupply y).u128 = (token.totalSupply x).u128 + (mints.map fun mint => mint.2.u128).sum ∧
      token.balance x self ≤ token.balance y self := by
  induction mints generalizing x with
  | nil =>
    obtain rfl := Option.some.inj minted
    exact ⟨rfl, Nat.le_refl _⟩
  | cons mint mints ih =>
    rw [Token.mintAll, List.foldlM_cons] at minted
    obtain ⟨z, first, rest⟩ := Option.bind_eq_some_iff.mp minted
    obtain ⟨supply, grows⟩ := laws.minted first
    obtain ⟨supply', grows'⟩ := ih rest
    refine ⟨?_, Nat.le_trans grows grows'⟩
    rw [supply', supply, List.map_cons, List.sum_cons, Nat.add_assoc]

/-! ### One message -/

/-- To the token, a message other than a registration sends its mints and nothing else. -/
theorem Emits.mints {m : CosmosMsg} (emitted : Emits e m) (lawful : api.Lawful) (address : e.before.state.cw20Address = cw20)
    (unpaid : ∀ wrapper, e.msg ≠ .receive wrapper) :
    m.cw20 api cw20 = m.minted.map (fun mint => .mint mint.1 mint.2) ∧
      ∀ mint ∈ m.minted, ∃ p, api.addrCanonicalize mint.1 = .ok p := by
  have here {contract : Addr} (token : api.addrHumanize e.before.state.cw20Address = .ok contract) (call : Cw20ExecuteMsg) :
      CosmosMsg.cw20 api cw20 (.wasm (.executeCw20 contract call)) = some call :=
    if_pos (address ▸ lawful.canonicalize token)
  cases emitted with
  | refund _ _ _ send | share _ _ _ _ send | fee _ _ _ _ _ send =>
    obtain ⟨_, _, _, rfl, _⟩ := send
    exact ⟨rfl, by simp [CosmosMsg.minted]⟩
  | @partialReward _ b _ _ _ _ _ sender _ _ _ _ token =>
    refine ⟨here token _, ?_⟩
    rintro mint ⟨⟩
    exact ⟨b, toOption_ok sender⟩
  | fullReward _ _ _ read token =>
    refine ⟨here token _, ?_⟩
    rintro mint ⟨⟩
    exact ⟨_, lawful.canonicalize read⟩
  | burn message => exact (unpaid _ message).elim
  | nft => exact ⟨rfl, by simp [handOver, CosmosMsg.minted]⟩

theorem Reached.book (reached : Reached api es e.before) (lawful : api.Lawful) (address : e.before.state.cw20Address = cw20)
    (unpaid : ∀ wrapper, e.msg ≠ .receive wrapper) (x : σ) :
    token.book cw20 self e x = token.mintAll self x e.mints ∧ ∀ mint ∈ e.mints, ∃ p, api.addrCanonicalize mint.1 = .ok p := by
  have each : ∀ m ∈ e.response.messages, _ := fun m sent => (reached.emits m sent).mints lawful address unpaid
  constructor
  · have calls : e.response.messages.filterMap (CosmosMsg.cw20 api cw20) = e.mints.map fun mint => .mint mint.1 mint.2 := by
      rw [Accepted.mints, List.map_filterMap]
      exact List.filterMap_congr fun m sent => (each m sent).1
    rw [Token.book, calls, List.foldlM_map]
  · intro mint minted
    obtain ⟨m, sent, this⟩ := List.mem_filterMap.mp minted
    exact (each m sent).2 mint this

theorem book_registration (lawful : api.Lawful) (address : e.before.state.cw20Address = cw20) {wrapper : Cw20ReceiveMsg}
    (message : e.msg = .receive wrapper) (x : σ) : token.book cw20 self e x = token.execute x self (.burn wrapper.amount) := by
  obtain ⟨contract, read, _, burns⟩ := Accepted.burn_of_receive message
  have here : CosmosMsg.cw20 api cw20 (.wasm (.executeCw20 contract (.burn wrapper.amount))) = some (.burn wrapper.amount) :=
    if_pos (address ▸ lawful.canonicalize read)
  simp [Token.book, burns, here]

/-- What was sent to register can be burnt, and nothing else that the contract holds is. -/
theorem registration_burns (lawful : api.Lawful) (laws : token.Lawful api self) (address : e.before.state.cw20Address = cw20)
    {wrapper : Cw20ReceiveMsg} (message : e.msg = .receive wrapper) (other : payer ≠ self)
    (paid : token.send x payer wrapper.amount = some y) :
    ∃ z, token.book cw20 self e y = some z ∧ (token.totalSupply z).u128 + wrapper.amount.u128 = (token.totalSupply x).u128 ∧
      token.balance z self = token.balance x self := by
  obtain ⟨positive, supply, received⟩ := laws.sent paid other
  obtain ⟨z, burnt⟩ := laws.burns positive (show wrapper.amount.u128 ≤ _ by rw [received]; exact Nat.le_add_left _ _)
  obtain ⟨less, left⟩ := laws.burnt burnt
  refine ⟨z, by rw [book_registration lawful address message, burnt], supply ▸ less, Uint128.ext ?_⟩
  omega

/-- The supply follows the mints and the burns, and what the contract holds of it does not leave. -/
theorem Reached.booked (reached : Reached api es e.before) (lawful : api.Lawful) (laws : token.Lawful api self)
    (address : e.before.state.cw20Address = cw20) {x y : σ × ℕ} (reacts : (token.neighbour api cw20 self).reacts e x y) :
    (token.totalSupply y.1).u128 + e.burnt = (token.totalSupply x.1).u128 + e.minted ∧
      token.balance x.1 self ≤ token.balance y.1 self := by
  obtain ⟨_, reacts⟩ := reacts
  by_cases payment : ∃ wrapper, e.msg = .receive wrapper
  · obtain ⟨wrapper, message⟩ := payment
    simp only [message] at reacts
    obtain ⟨payer, paid, other, sent, booked⟩ := reacts
    obtain ⟨z, burns, supply, kept⟩ := registration_burns lawful laws address message other sent
    obtain rfl := Option.some.inj (booked.symm.trans burns)
    obtain ⟨_, _, _, only⟩ := Accepted.burn_of_receive message
    have burnt : e.burnt = wrapper.amount.u128 := by
      simp [Accepted.burnt, Accepted.burns, only, CosmosMsg.burnt]
    have minted : e.minted = 0 := by
      have none := mints_nil e (fun i other => by simp [message] at other) fun i other => by simp [message] at other
      simp [Accepted.minted, none]
    exact ⟨by rw [burnt, minted, supply, Nat.add_zero], kept ▸ Nat.le_refl _⟩
  · have unpaid : ∀ wrapper, e.msg ≠ .receive wrapper := fun wrapper message => payment ⟨wrapper, message⟩
    have booked : token.book cw20 self e x.1 = some y.1 := by
      cases message : e.msg with
      | receive wrapper => exact (unpaid wrapper message).elim
      | _ =>
        simp only [message] at reacts
        exact reacts
    rw [(reached.book lawful address unpaid x.1).1] at booked
    obtain ⟨supply, grows⟩ := laws.mintedAll e.mints booked
    have burnt : e.burnt = 0 := by simp [Accepted.burnt, burns_nil e unpaid]
    exact ⟨by rw [burnt, supply]; rfl, grows⟩

theorem minted_about (e : Accepted api) :
    ((e.msg.auction e.before.state.counterItems).map e.issued).getD 0 = e.minted := by
  cases about : e.msg.auction e.before.state.counterItems with
  | some i => exact issued_about about
  | none =>
    have refund : ∀ i, e.msg ≠ .retractBids i := by rintro i message; simp [message, ExecuteMsg.auction] at about
    have settlement : ∀ i, e.msg ≠ .withdrawNft i := by rintro i message; simp [message, ExecuteMsg.auction] at about
    simp [Accepted.minted, mints_nil e refund settlement]

theorem burnt_about (e : Accepted api) :
    ((e.msg.auction e.before.state.counterItems).map e.burned).getD 0 = e.burnt := by
  cases about : e.msg.auction e.before.state.counterItems with
  | some i => exact if_pos about
  | none =>
    have unpaid : ∀ wrapper, e.msg ≠ .receive wrapper := by
      intro wrapper message
      obtain ⟨_, _, _, _, payload, _⟩ := Accepted.registered message
      simp [message, ExecuteMsg.auction, payload] at about
    simp [Accepted.burnt, burns_nil e unpaid]

/-! ### Runs -/

theorem Beside.address {x : σ × ℕ} (beside : Beside (token.neighbour api cw20 self) (token.Unminted cw20) es s x) :
    s.state.cw20Address = cw20 := by
  refine beside.induction (P := fun _ s _ => s.state.cw20Address = cw20) (fun _ _ _ first => first.1) ?_ ?_
  · intro _ _ _ _ _ same _
    exact same
  · intro _ e _ _ _ same _
    exact (frame e).cw20Address.trans same

theorem Beside.supply {x : σ × ℕ} (beside : Beside (token.neighbour api cw20 self) (token.Unminted cw20) es s x)
    (lawful : api.Lawful) (laws : token.Lawful api self) {n : Nat} (enough : s.state.counterItems ≤ n) :
    (token.totalSupply x.1).u128 + x.2 + ∑ i ∈ Finset.range n, total (Accepted.burned · i) es =
      ∑ i ∈ Finset.range n, total (Accepted.issued · i) es := by
  refine (beside.induction (P := fun es s x => s.state.cw20Address = cw20 ∧ (s.state.counterItems ≤ n →
    (token.totalSupply x.1).u128 + x.2 + ∑ i ∈ Finset.range n, total (Accepted.burned · i) es =
      ∑ i ∈ Finset.range n, total (Accepted.issued · i) es)) ?_ ?_ ?_).2 enough
  · rintro s x _ ⟨address, empty, none⟩
    exact ⟨address, fun _ => by simp [empty, none]⟩
  · intro es s x y _ ⟨address, earlier⟩ moves
    exact ⟨address, fun enough => by rw [moves.2]; exact earlier enough⟩
  · intro es e x y reached ⟨address, earlier⟩ reacts
    refine ⟨(frame e).cw20Address.trans address, fun enough => ?_⟩
    have counted := (frame e).counter
    have before := earlier (by omega)
    obtain ⟨supply, _⟩ := reached.booked lawful laws address reacts
    have lost : y.2 = x.2 := reacts.1
    have minted := sum_about (f := e.issued) reached.wellFormed enough fun i other => if_neg other
    have burnt := sum_about (f := e.burned) reached.wellFormed enough fun i other => if_neg other
    rw [minted_about] at minted
    rw [burnt_about] at burnt
    simp only [total_append, total_singleton, Finset.sum_add_distrib]
    omega

/-- The supply, what holders have burnt, and the SITY in the entries of all bidders are together what the auctions
have issued. What is sent for a registration can be burnt; the token refuses other messages only for a mint of zero or
one above its cap; and no SITY leaves the contract. -/
theorem sity_accounted {x : σ × ℕ} (lawful : api.Lawful) (laws : token.Lawful api self)
    (beside : Beside (token.neighbour api cw20 self) (token.Unminted cw20) es s x) :
    (token.totalSupply x.1).u128 + x.2 + ∑ i ∈ Finset.range s.state.counterItems, ∑ b ∈ s.bidders i, s.sityUsed i b =
        ∑ i ∈ Finset.range s.state.counterItems, total (Accepted.issued · i) es ∧
      ∀ e : Accepted api, e.before = s →
        (∀ wrapper, e.msg = .receive wrapper → ∀ payer paid, payer ≠ self →
          token.send x.1 payer wrapper.amount = some paid → ∃ y, token.book cw20 self e paid = some y ∧
            (token.totalSupply y).u128 + wrapper.amount.u128 = (token.totalSupply x.1).u128) ∧
        ((∀ wrapper, e.msg ≠ .receive wrapper) → ((∃ y, token.book cw20 self e x.1 = some y) ↔
          (∀ mint ∈ e.mints, 0 < mint.2.u128) ∧ (token.totalSupply x.1).u128 + e.minted < 2 ^ 128)) ∧
        ∀ y, (token.neighbour api cw20 self).reacts e x y → token.balance x.1 self ≤ token.balance y.1 self := by
  have address := beside.address
  refine ⟨?_, ?_⟩
  · rw [← beside.supply lawful laws le_rfl]
    simp only [beside.reached.burned]
  · rintro e rfl
    refine ⟨fun wrapper message payer paid other sent => ?_, fun unpaid => ?_, fun y reacts => ?_⟩
    · obtain ⟨y, burns, supply, _⟩ := registration_burns lawful laws address message other sent
      exact ⟨y, burns, supply⟩
    · obtain ⟨mints, known⟩ : token.book cw20 self e x.1 = token.mintAll self x.1 e.mints ∧ _ :=
        beside.reached.book lawful address unpaid x.1
      rw [mints]
      exact laws.mintAll_iff e.mints known x.1
    · exact (beside.reached.booked lawful laws address reacts).2

end

namespace Demo

/-- The units of a token, each by its holder. -/
abbrev Units := {units : Multiset CanonicalAddr // units.card < 2 ^ 128}

def Units.spent (x : Units) (p : CanonicalAddr) (n : Nat) : Multiset CanonicalAddr := x.1 - .replicate n p

theorem Units.spent_card {x : Units} {p : CanonicalAddr} {n : Nat} (enough : n ≤ x.1.count p) :
    (x.spent p n).card + n = x.1.card := by
  have le := Multiset.le_count_iff_replicate_le.mp enough
  have fewer := Multiset.card_le_card le
  rw [Multiset.card_replicate] at fewer
  rw [Units.spent, Multiset.card_sub le, Multiset.card_replicate]
  exact Nat.sub_add_cancel fewer

theorem Units.spent_count {x : Units} {p q : CanonicalAddr} {n : Nat} (other : p ≠ q) :
    (x.spent p n).count q = x.1.count q := by
  rw [Units.spent, Multiset.count_sub, Multiset.count_replicate, if_neg other, Nat.sub_zero]

/-- A token that is its units. The minter is at `⟨[1]⟩`. -/
def ledger : Token Units where
  balance x p := ⟨x.1.count p, (Multiset.count_le_card p x.1).trans_lt x.2⟩
  totalSupply x := ⟨x.1.card, x.2⟩
  execute
    | x, p, .mint recipient n =>
      match api.addrCanonicalize recipient with
      | .ok q =>
        if room : p = ⟨[1]⟩ ∧ 0 < n.u128 ∧ x.1.card + n.u128 < 2 ^ 128 then
          some ⟨x.1 + .replicate n.u128 q, by simpa using room.2.2⟩
        else none
      | .error _ => none
    | x, p, .burn n =>
      if enough : 0 < n.u128 ∧ n.u128 ≤ x.1.count p then
        some ⟨x.spent p n.u128, (Nat.le_add_right _ _).trans_lt (Units.spent_card enough.2 ▸ x.2)⟩
      else none
  send x p n :=
    if enough : 0 < n.u128 ∧ n.u128 ≤ x.1.count p then
      some ⟨x.spent p n.u128 + .replicate n.u128 ⟨[1]⟩, by
        rw [Multiset.card_add, Multiset.card_replicate, Units.spent_card enough.2]
        exact x.2⟩
    else none
  others x y := ∃ p n, p ≠ ⟨[1]⟩ ∧ n ≤ x.1.count p ∧
    (y.1 = x.spent p n ∨ ∃ q, y.1 = x.spent p n + .replicate n q)

theorem ledger_lawful : ledger.Lawful api ⟨[1]⟩ where
  mint_iff read := by
    simp only [ledger, read]
    split
    · next room => simpa using room.2
    · next refused => simpa using refused
  minted minted := by
    simp only [ledger] at minted
    split at minted
    · split at minted
      · obtain rfl := Option.some.inj minted
        simp [ledger, Uint128.le_def]
      · cases minted
    · cases minted
  burns positive enough := ⟨_, dif_pos ⟨positive, enough⟩⟩
  burnt {x y n} burnt := by
    simp only [ledger] at burnt
    split at burnt
    · next enough =>
      obtain rfl := Option.some.inj burnt
      refine ⟨Units.spent_card enough.2, ?_⟩
      simp only [ledger, Units.spent, Multiset.count_sub, Multiset.count_replicate_self]
      exact Nat.sub_add_cancel enough.2
    · cases burnt
  sent {x y p n} sent other := by
    simp only [ledger] at sent
    split at sent
    · next enough =>
      obtain rfl := Option.some.inj sent
      refine ⟨enough.1, Uint128.ext ?_, ?_⟩
      · simp [ledger, Units.spent_card enough.2]
      · simp [ledger, Units.spent_count other]
    · cases sent
  others {x y} := by
    rintro ⟨p, n, other, enough, moved⟩
    have left := Units.spent_card enough
    rw [Uint128.le_def, Uint128.le_def]
    simp only [ledger]
    rcases moved with burnt | ⟨q, moved⟩
    · rw [burnt, Units.spent_count other]
      exact ⟨by omega, le_rfl⟩
    · rw [moved, Multiset.card_add, Multiset.card_replicate, Multiset.count_add, Units.spent_count other]
      exact ⟨left.le, Nat.le_add_right _ _⟩

/-- `alice` buys a token for 100 and registers for the next auction with a part of her reward. -/
def rewardSpent : Scenario where
  msg := { instantiateMsg with sityMinOpening := amount 3 }
  rate := Decimal.zero
  deliveries := [listing none (some (amount 100)) none false, listing none none none true,
    deliver 1000 "alice" (coins 100) (.instantBuy 0), deliver 1000 "seller" [] (.withdrawNft 0),
    deliver 1000 "sity" [] (.receive ⟨"alice", amount 3, .ok (.registerPrivateSale 1)⟩)]
  accepted := by decide
  order := by decide

/-- `alice` pays for all registrations, and nobody hands on or burns a unit besides. -/
def issued (e : Accepted api) (x : Units × ℕ) : Option (Units × ℕ) :=
  match e.msg with
  | .receive wrapper =>
    ((ledger.send x.1 alice wrapper.amount).bind (ledger.book ⟨[7]⟩ ⟨[1]⟩ e)).map fun y => (y, x.2)
  | _ => (ledger.book ⟨[7]⟩ ⟨[1]⟩ e x.1).map fun y => (y, x.2)

theorem issued_reacts (e : Accepted api) (x y : Units × ℕ) (moved : issued e x = some y) :
    (ledger.neighbour api ⟨[7]⟩ ⟨[1]⟩).reacts e x y := by
  unfold issued at moved
  dsimp only [Token.neighbour]
  cases message : e.msg with
  | receive wrapper =>
    simp only [message] at moved
    obtain ⟨z, done, rfl⟩ := Option.map_eq_some_iff.mp moved
    obtain ⟨paid, sent, booked⟩ := Option.bind_eq_some_iff.mp done
    exact ⟨rfl, alice, paid, by decide, sent, booked⟩
  | _ =>
    simp only [message] at moved
    obtain ⟨z, booked, rfl⟩ := Option.map_eq_some_iff.mp moved
    exact ⟨rfl, booked⟩

def sity : Option (Units × ℕ) := rewardSpent.log.foldlM (fun x e => issued e x) (⟨0, by decide⟩, 0)

end Demo

theorem sity_accounted_rewardSpent :
    ∃ x, Demo.sity = some x ∧ Demo.ledger.balance x.1 Demo.alice = Demo.amount 7 ∧
      Demo.ledger.totalSupply x.1 = Demo.amount 17 ∧
      (Demo.ledger.totalSupply x.1).u128 + x.2 +
          ∑ i ∈ Finset.range 2, ∑ b ∈ Demo.rewardSpent.final.bidders i, Demo.rewardSpent.final.sityUsed i b =
        ∑ i ∈ Finset.range 2, total (Accepted.issued · i) Demo.rewardSpent.log := by
  obtain ⟨start, deployed, run⟩ := Demo.rewardSpent.reached.run
  have address : start.state.cw20Address = ⟨[7]⟩ := run.setup.cw20Address.symm.trans (by decide)
  have moved : Demo.sity = some (Demo.sity.get (by decide)) := (Option.some_get _).symm
  have beside : Beside (Demo.ledger.neighbour Demo.api ⟨[7]⟩ ⟨[1]⟩) (Demo.ledger.Unminted ⟨[7]⟩) Demo.rewardSpent.log
      Demo.rewardSpent.final (Demo.sity.get (by decide)) :=
    ⟨⟨start, _, deployed, ⟨address, rfl, rfl⟩, .of_steps Demo.issued_reacts run moved⟩, Demo.rewardSpent.reached.timed⟩
  exact ⟨_, moved, by decide, by decide, (sity_accounted Demo.lawful Demo.ledger_lawful beside).1⟩

end NftMarketplace
