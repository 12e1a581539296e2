import Mathlib.Logic.Function.Basic

/-!
Custody of unique tokens. A keeper has claims on tokens, each from one deposit, and every claim is on a token of
its own that the keeper owns. What others do elsewhere, a deposit, and a token given up with its claim keep it so.
-/

namespace Custody
variable {K P I : Type}

/-- `claims i k`: the keeper holds token `k` for `i`. -/
structure Kept (keeper : P) (owner : K → P) (claims : I → K → Prop) : Prop where
  owned : ∀ i k, claims i k → owner k = keeper
  apart : ∀ i j k, claims i k → claims j k → i = j

section
variable {keeper : P} {owner owner' : K → P} {claims claims' : I → K → Prop} {i : I} {k : K}

theorem Kept.fewer (kept : Kept keeper owner claims) (old : ∀ j k, claims' j k → claims j k) : Kept keeper owner claims' where
  owned j k holds := kept.owned j k (old j k holds)
  apart j j' k holds holds' := kept.apart j j' k (old j k holds) (old j' k holds')

/-- Tokens that the keeper does not own change hands as they like. -/
theorem Kept.undisturbed (kept : Kept keeper owner claims) (still : ∀ k, owner k = keeper → owner' k = keeper) :
    Kept keeper owner' claims where
  owned j k holds := still k (kept.owned j k holds)
  apart := kept.apart

variable [DecidableEq K]

/-- A token that comes from another owner is claimed for one index only. -/
theorem Kept.deposited (kept : Kept keeper owner claims) (away : owner k ≠ keeper)
    (old : ∀ j k', claims' j k' → claims j k' ∨ j = i ∧ k' = k) : Kept keeper (Function.update owner k keeper) claims' where
  owned j k' holds := by
    by_cases here : k' = k
    · rw [here, Function.update_self]
    · rw [Function.update_of_ne here]
      rcases old j k' holds with earlier | ⟨_, same⟩
      · exact kept.owned j k' earlier
      · exact (here same).elim
  apart j j' k' holds holds' := by
    rcases old j k' holds with earlier | ⟨rfl, rfl⟩ <;> rcases old j' k' holds' with earlier' | ⟨rfl, same⟩
    · exact kept.apart j j' k' earlier earlier'
    · exact (away (same ▸ kept.owned j k' earlier)).elim
    · exact (away (kept.owned j' k' earlier')).elim
    · rfl

/-- A claim that is given up with its token leaves the others as they are. -/
theorem Kept.released (kept : Kept keeper owner claims) (held : claims i k)
    (old : ∀ j k', claims' j k' → claims j k' ∧ j ≠ i) (recipient : P) :
    Kept keeper (Function.update owner k recipient) claims' where
  owned j k' holds := by
    obtain ⟨earlier, other⟩ := old j k' holds
    rw [Function.update_of_ne]
    · exact kept.owned j k' earlier
    · rintro rfl
      exact other (kept.apart j i k' earlier held)
  apart := (kept.fewer fun j k' holds => (old j k' holds).1).apart

end

end Custody
