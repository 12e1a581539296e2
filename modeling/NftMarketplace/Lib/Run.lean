import Mathlib.Algebra.BigOperators.Group.List.Basic
import Mathlib.Data.List.Induction

/-!
Runs of a system whose steps carry their end points. `src e` and `tgt e` are the states before and
after the step `e`; a run is a chain of steps, logged in order. A clock reads a time off each step.
-/

namespace Transition
variable {σ ε : Type*} {src tgt : ε → σ}

/-- `Steps src tgt s es t`: the steps `es` lead from `s` to `t`. -/
inductive Steps (src tgt : ε → σ) : σ → List ε → σ → Prop where
  | nil (s : σ) : Steps src tgt s [] s
  | snoc {s : σ} {es : List ε} (e : ε) : Steps src tgt s es (src e) → Steps src tgt s (es ++ [e]) (tgt e)

def Timed (clock : ε → ℕ) (es : List ε) : Prop := es.Pairwise (fun e e' => clock e ≤ clock e')

theorem timed_append {clock : ε → ℕ} {es fs : List ε} :
    Timed clock (es ++ fs) ↔ Timed clock es ∧ Timed clock fs ∧ ∀ e ∈ es, ∀ e' ∈ fs, clock e ≤ clock e' :=
  List.pairwise_append

theorem timed_snoc {clock : ε → ℕ} {es : List ε} {e : ε} :
    Timed clock (es ++ [e]) ↔ Timed clock es ∧ ∀ e' ∈ es, clock e' ≤ clock e := by
  simp [Timed, List.pairwise_append]

namespace Steps

theorem append {a b c : σ} {es fs : List ε} (first : Steps src tgt a es b) (rest : Steps src tgt b fs c) :
    Steps src tgt a (es ++ fs) c := by
  induction rest with
  | nil => simpa using first
  | snoc e _ ih =>
    rw [← List.append_assoc]
    exact .snoc e ih

theorem single (e : ε) : Steps src tgt (src e) [e] (tgt e) := .snoc e (.nil _)

theorem of_snoc {a c : σ} {es : List ε} {e : ε} (run : Steps src tgt a (es ++ [e]) c) :
    Steps src tgt a es (src e) ∧ c = tgt e := by
  generalize same : es ++ [e] = log at run
  cases run with
  | nil => simp at same
  | snoc e' before =>
    obtain ⟨rfl, last⟩ := List.append_inj' same rfl
    cases last
    exact ⟨before, rfl⟩

theorem split {a c : σ} {es fs : List ε} (run : Steps src tgt a (es ++ fs) c) :
    ∃ b, Steps src tgt a es b ∧ Steps src tgt b fs c := by
  induction fs using List.reverseRecOn generalizing c with
  | nil => exact ⟨c, by simpa using run, .nil c⟩
  | append_singleton fs e ih =>
    rw [← List.append_assoc] at run
    obtain ⟨before, rfl⟩ := of_snoc run
    obtain ⟨b, first, rest⟩ := ih before
    exact ⟨b, first, .snoc e rest⟩

theorem split_at {a c : σ} {es fs : List ε} {e : ε} (run : Steps src tgt a (es ++ e :: fs) c) :
    Steps src tgt a es (src e) ∧ Steps src tgt (tgt e) fs c := by
  rw [← List.singleton_append, ← List.append_assoc] at run
  obtain ⟨b, first, rest⟩ := split run
  obtain ⟨before, rfl⟩ := of_snoc first
  exact ⟨before, rest⟩

/-- What holds at the start and is kept by every step holds at the end. -/
theorem invariant {P : σ → Prop} {s t : σ} {es : List ε} (run : Steps src tgt s es t) (start : P s)
    (step : ∀ e, P (src e) → P (tgt e)) : P t := by
  induction run with
  | nil => exact start
  | snoc e _ ih => exact step e ih

theorem timed_induction {clock : ε → ℕ} {P : List ε → σ → Prop} {s t : σ} {es : List ε}
    (run : Steps src tgt s es t) (timed : Timed clock es) (start : P [] s)
    (step : ∀ es e, Steps src tgt s es (src e) → (∀ e' ∈ es, clock e' ≤ clock e) → P es (src e) →
      P (es ++ [e]) (tgt e)) : P es t := by
  induction run with
  | nil => exact start
  | snoc e before ih =>
    obtain ⟨earlier, late⟩ := timed_snoc.mp timed
    exact step _ e before late (ih earlier)

/-- A property of the step before which it holds: every step of a run starts where a prefix ends. -/
theorem mem_prefix {s t : σ} {es : List ε} {e : ε} (run : Steps src tgt s es t) (member : e ∈ es) :
    ∃ pre post, es = pre ++ e :: post ∧ Steps src tgt s pre (src e) ∧ Steps src tgt (tgt e) post t := by
  obtain ⟨pre, post, rfl⟩ := List.append_of_mem member
  exact ⟨pre, post, rfl, split_at run⟩

/-- While a measure is positive some step lowers it, so a run of at most that many steps exhausts it. What every
such step keeps holds along the run. -/
theorem exhaust {P : List ε → σ → Prop} (measure : σ → ℕ)
    (lower : ∀ es s, P es s → measure s ≠ 0 → ∃ e, src e = s ∧ measure (tgt e) < measure s ∧ P (es ++ [e]) (tgt e))
    {es : List ε} {s : σ} (start : P es s) :
    ∃ fs t, Steps src tgt s fs t ∧ P (es ++ fs) t ∧ measure t = 0 ∧ fs.length ≤ measure s := by
  induction n : measure s using Nat.strongRecOn generalizing es s with
  | ind n ih =>
    by_cases done : measure s = 0
    · exact ⟨[], s, .nil s, by simpa using start, done, Nat.zero_le _⟩
    · obtain ⟨e, rfl, less, kept⟩ := lower es s start done
      obtain ⟨fs, t, rest, last, zero, short⟩ := ih _ (n ▸ less) kept rfl
      refine ⟨e :: fs, t, (single e).append rest, ?_, zero, ?_⟩
      · rwa [List.append_assoc] at last
      · rw [List.length_cons]
        omega

end Steps

/-! ### Next to another system -/

/-- Another system with states `τ`: what happens there by itself, and what becomes of it in a step of ours. -/
structure Neighbour (ε τ : Type*) where
  others : τ → τ → Prop
  reacts : ε → τ → τ → Prop

/-- The steps `es` lead from `s` to `t`, and the neighbour meanwhile from `x` to `y`. -/
inductive Joint {τ : Type*} (src tgt : ε → σ) (n : Neighbour ε τ) (s : σ) (x : τ) : List ε → σ → τ → Prop where
  | nil : Joint src tgt n s x [] s x
  | others {es : List ε} {t : σ} {y z : τ} : Joint src tgt n s x es t y → n.others y z → Joint src tgt n s x es t z
  | snoc {es : List ε} (e : ε) {y z : τ} : Joint src tgt n s x es (src e) y → n.reacts e y z →
      Joint src tgt n s x (es ++ [e]) (tgt e) z

namespace Joint
variable {τ : Type*} {n : Neighbour ε τ} {s t : σ} {x y : τ} {es : List ε}

theorem steps (joint : Joint src tgt n s x es t y) : Steps src tgt s es t := by
  induction joint with
  | nil => exact .nil s
  | others _ _ ih => exact ih
  | snoc e _ _ ih => exact .snoc e ih

theorem timed_induction {clock : ε → ℕ} {P : List ε → σ → τ → Prop} (joint : Joint src tgt n s x es t y)
    (timed : Timed clock es) (start : P [] s x)
    (others : ∀ es t y z, Steps src tgt s es t → Timed clock es → P es t y → n.others y z → P es t z)
    (step : ∀ es e y z, Steps src tgt s es (src e) → Timed clock es → (∀ e' ∈ es, clock e' ≤ clock e) →
      P es (src e) y → n.reacts e y z → P (es ++ [e]) (tgt e) z) : P es t y := by
  induction joint with
  | nil => exact start
  | others joint moves ih => exact others _ _ _ _ joint.steps timed (ih timed) moves
  | snoc e joint reacts ih =>
    obtain ⟨earlier, late⟩ := timed_snoc.mp timed
    exact step _ e _ _ joint.steps earlier late (ih earlier) reacts

/-- A run in which the neighbour only reacts, as `react` says. -/
theorem of_steps {react : ε → τ → Option τ} (sound : ∀ e y z, react e y = some z → n.reacts e y z)
    (run : Steps src tgt s es t) (moved : es.foldlM (fun y e => react e y) x = some y) : Joint src tgt n s x es t y := by
  induction run generalizing y with
  | nil =>
    obtain rfl := Option.some.inj moved
    exact .nil
  | snoc e _ ih =>
    rw [List.foldlM_append] at moved
    obtain ⟨between, before, last⟩ := Option.bind_eq_some_iff.mp moved
    exact .snoc e (ih before) (sound e _ _ (by simpa using last))

end Joint

def total {M : Type*} [AddCommMonoid M] (weight : ε → M) (es : List ε) : M := (es.map weight).sum

section
variable {M : Type*} [AddCommMonoid M] (weight : ε → M)

@[simp] theorem total_nil : total weight [] = 0 := rfl

@[simp] theorem total_append (es fs : List ε) : total weight (es ++ fs) = total weight es + total weight fs := by
  simp [total]

@[simp] theorem total_singleton (e : ε) : total weight [e] = weight e := by simp [total]

theorem total_eq_zero {es : List ε} (h : ∀ e ∈ es, weight e = 0) : total weight es = 0 :=
  List.sum_eq_zero (by simpa using h)

end

end Transition
