import Mathlib.Algebra.BigOperators.Finsupp.Basic
import Mathlib.Data.Finsupp.Basic
import Mathlib.Algebra.Order.BigOperators.Group.Finset
import Mathlib.Logic.Relation

/-!
An English auction that holds its bidders' money. A bidder's deposit accumulates; the leader is
the last one to raise the price; a bidder who is not bound may take the deposit back; a settlement
pays the price out once. The account keeps what came in, what went out and what stuck.

`orderly` forbids a cancellation after the price was paid out. Solvency needs it, the balance of
the account does not.
-/

namespace EnglishAuction
variable {B : Type*} {reserve : ℕ} {orderly : Prop}

@[ext] structure State (B : Type*) where
  deposit : B →₀ ℕ
  price : Option ℕ
  leader : Option B
  /-- What the settlement paid out, once there was one. -/
  sale : Option ℕ
  received : ℕ
  sent : ℕ
  dust : ℕ

def State.initial : State B := ⟨0, none, none, none, 0, 0, 0⟩

namespace State
variable (σ : State B)

def held : ℕ := σ.deposit.sum fun _ n => n

/-- The leader of a met reserve must not leave. -/
def Bound (reserve : ℕ) (b : B) : Prop := σ.leader = some b ∧ reserve ≤ σ.price.getD 0

def proceeds (reserve : ℕ) : ℕ := if σ.leader.isSome ∧ reserve ≤ σ.price.getD 0 then σ.price.getD 0 else 0

def pending (reserve : ℕ) : ℕ := if σ.sale = none then σ.proceeds reserve else 0

noncomputable def bid (b : B) (x : ℕ) : State B :=
  { σ with
    deposit := σ.deposit.update b (σ.deposit b + x)
    price := some (σ.deposit b + x)
    leader := some b
    received := σ.received + x }

noncomputable def refund (b : B) : State B :=
  { σ with deposit := σ.deposit.update b 0, sent := σ.sent + σ.deposit b }

def settle (reserve : ℕ) : State B :=
  { σ with sale := some (σ.proceeds reserve), sent := σ.sent + σ.proceeds reserve }

def cancel (fee out : ℕ) : State B :=
  { σ with
    leader := none
    received := σ.received + fee
    sent := σ.sent + out
    dust := σ.dust + (fee - out) }

end State

inductive Step (reserve : ℕ) (orderly : Prop) : State B → State B → Prop where
  | bid {σ : State B} (b : B) (x : ℕ) (raises : σ.price.getD 0 ≤ σ.deposit b + x) :
      Step reserve orderly σ (σ.bid b x)
  | refund {σ : State B} (b : B) (free : ¬ σ.Bound reserve b) : Step reserve orderly σ (σ.refund b)
  | settle {σ : State B} (unsettled : σ.sale = none) : Step reserve orderly σ (σ.settle reserve)
  | cancel {σ : State B} (fee out : ℕ) (covered : out ≤ fee) (order : orderly → σ.sale.getD 0 = 0) :
      Step reserve orderly σ (σ.cancel fee out)

def Reachable (reserve : ℕ) (orderly : Prop) (σ : State B) : Prop :=
  Relation.ReflTransGen (Step reserve orderly) State.initial σ

theorem reachable_induction {P : State B → Prop} (start : P State.initial)
    (step : ∀ σ τ, P σ → Step reserve orderly σ τ → P τ) {σ : State B}
    (reachable : Reachable reserve orderly σ) : P σ := by
  induction reachable with
  | refl => exact start
  | tail _ taken ih => exact step _ _ ih taken

/-! ### The leader's deposit backs the price -/

structure Backed (reserve : ℕ) (σ : State B) : Prop where
  maximal : ∀ b, σ.deposit b ≤ σ.price.getD 0
  bound : ∀ b, σ.Bound reserve b → σ.deposit b = σ.price.getD 0
  priced : σ.leader.isSome → σ.price.isSome

theorem backed_initial : Backed reserve (State.initial : State B) where
  maximal b := by simp [State.initial]
  bound b h := by simp [State.Bound, State.initial] at h
  priced h := by simp [State.initial] at h

theorem backed_bid {σ : State B} {b : B} {x : ℕ} (h : Backed reserve σ)
    (raises : σ.price.getD 0 ≤ σ.deposit b + x) : Backed reserve (σ.bid b x) where
  maximal c := by
    classical
    simp only [State.bid, Finsupp.update_apply, Option.getD_some]
    split
    · exact le_rfl
    · exact (h.maximal c).trans raises
  bound c bound := by
    classical
    obtain ⟨lead, _⟩ := bound
    obtain rfl : b = c := by simpa [State.bid] using lead
    simp [State.bid]
  priced _ := rfl

theorem backed_refund {σ : State B} {b : B} (h : Backed reserve σ) (free : ¬ σ.Bound reserve b) :
    Backed reserve (σ.refund b) where
  maximal c := by
    classical
    simp only [State.refund, Finsupp.update_apply]
    split
    · exact Nat.zero_le _
    · exact h.maximal c
  bound c bound := by
    classical
    have different : c ≠ b := fun same => free (same ▸ bound)
    simpa [State.refund, Finsupp.update_apply, different] using h.bound c bound
  priced := h.priced

theorem backed_step {σ τ : State B} (h : Backed reserve σ) (step : Step reserve orderly σ τ) :
    Backed reserve τ := by
  cases step with
  | bid b x raises => exact backed_bid h raises
  | refund b free => exact backed_refund h free
  | settle _ => exact ⟨h.maximal, h.bound, h.priced⟩
  | cancel fee out _ _ =>
    exact ⟨h.maximal, fun c bound => by simp [State.Bound, State.cancel] at bound, by simp [State.cancel]⟩

theorem backed {σ : State B} (reachable : Reachable reserve orderly σ) : Backed reserve σ :=
  reachable_induction backed_initial (fun _ _ => backed_step) reachable

/-! ### The account balances -/

/-- What came in, with the sale counted as money still deposited, is what went out or is held. -/
def Balanced (σ : State B) : Prop := σ.received + σ.sale.getD 0 = σ.sent + σ.held + σ.dust

theorem held_update (d : B →₀ ℕ) (b : B) (n : ℕ) :
    ((d.update b n).sum fun _ n => n) + d b = (d.sum fun _ n => n) + n :=
  Finsupp.sum_update_add d b n (fun _ n => n) (fun _ => rfl) (fun _ _ _ => rfl)

theorem balanced_step {σ τ : State B} (h : Balanced σ) (step : Step reserve orderly σ τ) : Balanced τ := by
  unfold Balanced State.held at h ⊢
  cases step with
  | bid b x _ =>
    have update := held_update σ.deposit b (σ.deposit b + x)
    simp only [State.bid]
    omega
  | refund b _ =>
    have update := held_update σ.deposit b 0
    simp only [State.refund]
    omega
  | settle unsettled =>
    rw [unsettled, Option.getD_none] at h
    simp only [State.settle, Option.getD_some]
    omega
  | cancel fee out covered _ =>
    simp only [State.cancel]
    omega

theorem balanced {σ : State B} (reachable : Reachable reserve orderly σ) : Balanced σ :=
  reachable_induction (by simp [Balanced, State.initial, State.held]) (fun _ _ => balanced_step) reachable

/-! ### Solvency -/

/-- A paid out price is still covered by the deposit of somebody who cannot leave. -/
def Covered (reserve : ℕ) (σ : State B) : Prop :=
  σ.sale.getD 0 ≠ 0 → ∃ b, σ.Bound reserve b ∧ σ.sale.getD 0 ≤ σ.price.getD 0

theorem covered_step {σ τ : State B} (h : Covered reserve σ) (step : Step reserve True σ τ) : Covered reserve τ := by
  cases step with
  | bid b x raises =>
    intro paid
    obtain ⟨_, ⟨_, met⟩, covers⟩ := h paid
    refine ⟨b, ⟨rfl, ?_⟩, ?_⟩
    · exact (met.trans raises).trans (by simp [State.bid])
    · exact (covers.trans raises).trans (by simp [State.bid])
  | refund b free => exact h
  | settle unsettled =>
    intro paid
    simp only [State.settle, Option.getD_some, State.proceeds] at paid ⊢
    split at paid
    · next sold =>
      obtain ⟨b, lead⟩ := Option.isSome_iff_exists.mp sold.1
      exact ⟨b, ⟨lead, sold.2⟩, by rw [if_pos sold]⟩
    · exact (paid rfl).elim
  | cancel fee out covered order =>
    intro paid
    exact (paid (order trivial)).elim

theorem covered {σ : State B} (reachable : Reachable reserve True σ) : Covered reserve σ :=
  reachable_induction (fun paid => (paid rfl).elim) (fun _ _ => covered_step) reachable

theorem sum_le_held (σ : State B) (free : Finset B) : ∑ b ∈ free, σ.deposit b ≤ σ.held := by
  classical
  have extend : ∑ b ∈ free, σ.deposit b ≤ ∑ b ∈ free ∪ σ.deposit.support, σ.deposit b :=
    Finset.sum_le_sum_of_subset Finset.subset_union_left
  have whole : ∑ b ∈ free ∪ σ.deposit.support, σ.deposit b = σ.held :=
    (Finsupp.sum_of_support_subset σ.deposit Finset.subset_union_right (fun _ n => n) (fun _ _ => rfl)).symm
  omega

theorem sum_add_bound_le_held {σ : State B} {free : Finset B} {b : B}
    (away : ∀ c ∈ free, ¬ σ.Bound reserve c) (bound : σ.Bound reserve b) :
    ∑ c ∈ free, σ.deposit c + σ.deposit b ≤ σ.held := by
  classical
  have fresh : b ∉ free := fun member => away b member bound
  have all := sum_le_held σ (insert b free)
  rw [Finset.sum_insert fresh] at all
  omega

/-- In an orderly auction the account covers every deposit that can be taken back and the price a
settlement would still pay out. -/
theorem solvent {σ : State B} (reachable : Reachable reserve True σ) {free : Finset B}
    (away : ∀ c ∈ free, ¬ σ.Bound reserve c) :
    σ.sent + ∑ c ∈ free, σ.deposit c + σ.pending reserve ≤ σ.received := by
  have account : Balanced σ := balanced reachable
  have funded : Backed reserve σ := backed reachable
  unfold Balanced at account
  cases sale : σ.sale with
  | none =>
    rw [sale, Option.getD_none] at account
    simp only [State.pending, sale, if_true, State.proceeds]
    split
    · next sold =>
      obtain ⟨b, lead⟩ := Option.isSome_iff_exists.mp sold.1
      have bound : σ.Bound reserve b := ⟨lead, sold.2⟩
      have backs := funded.bound b bound
      have room := sum_add_bound_le_held away bound
      omega
    · have room := sum_le_held σ free
      omega
  | some p =>
    have paid : σ.pending reserve = 0 := by simp [State.pending, sale]
    rw [sale, Option.getD_some] at account
    by_cases zero : p = 0
    · have room := sum_le_held σ free
      omega
    · obtain ⟨b, bound, covers⟩ := covered reachable (by simpa [sale] using zero)
      rw [sale, Option.getD_some] at covers
      have backs := funded.bound b bound
      have room := sum_add_bound_le_held away bound
      omega

end EnglishAuction
