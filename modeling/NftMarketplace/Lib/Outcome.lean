import Mathlib.Data.List.Forall2

/-!
Results of code that can return an error or abort. A returned error and an abort both undo the
call, but only the first carries a value.
-/

/-- Why a call did not succeed. -/
inductive Fault (ε : Type) where
  | err (e : ε)
  | panic
  deriving DecidableEq

abbrev Outcome (ε α : Type) := Except (Fault ε) α

namespace Outcome
variable {ε δ α β : Type}

/-- `unwrap` aborts where the value is missing. -/
def unwrap : Except δ α → Outcome ε α
  | .ok a => .ok a
  | .error _ => .error .panic

def unwrapSome : Option α → Outcome ε α
  | some a => .ok a
  | none => .error .panic

/-- `?` where the errors are of one type. -/
def propagate : Except ε α → Outcome ε α
  | .ok a => .ok a
  | .error e => .error (.err e)

def reject (bad : Prop) [Decidable bad] (e : ε) : Outcome ε Unit :=
  if bad then .error (.err e) else .ok ()

theorem bind_ok {x : Outcome ε α} {f : α → Outcome ε β} {b : β} (h : x >>= f = .ok b) :
    ∃ a, x = .ok a ∧ f a = .ok b := by
  cases x with
  | error e => cases h
  | ok a => exact ⟨a, rfl, h⟩

theorem bind_ok_iff {x : Outcome ε α} {f : α → Outcome ε β} {b : β} :
    x >>= f = .ok b ↔ ∃ a, x = .ok a ∧ f a = .ok b :=
  ⟨bind_ok, by rintro ⟨a, rfl, h⟩; exact h⟩

theorem bind_succeeds {x : Outcome ε α} {f : α → Outcome ε β} (a : α) (first : x = .ok a)
    (rest : ∃ b, f a = .ok b) : ∃ b, x >>= f = .ok b := by
  obtain ⟨b, h⟩ := rest
  exact ⟨b, bind_ok_iff.mpr ⟨a, first, h⟩⟩

theorem bind_of_ok {x : Outcome ε α} {a : α} (first : x = .ok a) (f : α → Outcome ε β) : x >>= f = f a := by
  rw [first]
  rfl

@[simp] theorem pure_ok {a b : α} : (pure a : Outcome ε α) = .ok b ↔ a = b := by
  simp [pure, Except.pure]

@[simp] theorem unwrap_ok {x : Except δ α} {a : α} : (unwrap x : Outcome ε α) = .ok a ↔ x = .ok a := by
  cases x <;> simp [unwrap]

@[simp] theorem propagate_ok {x : Except ε α} {a : α} : propagate x = .ok a ↔ x = .ok a := by
  cases x <;> simp [propagate]

@[simp] theorem unwrapSome_ok {x : Option α} {a : α} :
    (unwrapSome x : Outcome ε α) = .ok a ↔ x = some a := by
  cases x <;> simp [unwrapSome]

@[simp] theorem reject_ok {bad : Prop} [Decidable bad] {e : ε} {u : Unit} :
    (reject bad e = .ok u) ↔ ¬ bad := by
  unfold reject
  split <;> simp [*]

theorem reject_passes {bad : Prop} [Decidable bad] {e : ε} (fine : ¬ bad) : reject bad e = .ok () :=
  reject_ok.mpr fine

/-- Two results that agree: the same fault, or values related by `R`. -/
def Same (R : α → β → Prop) : Except ε α → Except ε β → Prop
  | .ok a, .ok b => R a b
  | .error e, .error e' => e = e'
  | _, _ => False

section
variable {γ : Type} {R : α → β → Prop} {Q : γ → δ → Prop}

theorem Same.bind {x : Outcome ε α} {y : Outcome ε β} {f : α → Outcome ε γ} {g : β → Outcome ε δ}
    (first : Same R x y) (rest : ∀ a b, R a b → Same Q (f a) (g b)) : Same Q (x >>= f) (y >>= g) := by
  cases x <;> cases y
  · exact first
  · exact first.elim
  · exact first.elim
  · exact rest _ _ first

/-- Two computations that start with the same step. -/
theorem Same.after (x : Outcome ε α) {f : α → Outcome ε γ} {g : α → Outcome ε δ}
    (rest : ∀ a, Same Q (f a) (g a)) : Same Q (x >>= f) (x >>= g) := by
  cases x
  · rfl
  · exact rest _

end

theorem mapM_of_ok {f : α → Outcome ε β} {g : α → β} {xs : List α} (each : ∀ a ∈ xs, f a = .ok (g a)) :
    xs.mapM f = .ok (xs.map g) := by
  induction xs with
  | nil => rfl
  | cons a xs ih =>
    rw [List.mapM_cons, bind_of_ok (each a List.mem_cons_self),
      bind_of_ok (ih fun b member => each b (List.mem_cons_of_mem a member))]
    rfl

theorem mapM_of_forall₂ {f : α → Outcome ε β} {xs : List α} {ys : List β}
    (each : List.Forall₂ (fun a b => f a = .ok b) xs ys) : xs.mapM f = .ok ys := by
  induction each with
  | nil => rfl
  | cons first _ ih =>
    rw [List.mapM_cons, bind_of_ok first, bind_of_ok ih]
    rfl

theorem map_succeeds {x : Outcome ε α} (first : ∃ a, x = .ok a) (f : α → β) : ∃ b, f <$> x = .ok b := by
  obtain ⟨a, rfl⟩ := first
  exact ⟨f a, rfl⟩

/-! ### Computations that do not abort -/

/-- The computation ends with a value or with an error. -/
def Returns (x : Outcome ε α) : Prop := x ≠ .error .panic

@[simp] theorem returns_ok (a : α) : Returns (.ok a : Outcome ε α) := nofun

@[simp] theorem returns_pure (a : α) : Returns (pure a : Outcome ε α) := nofun

@[simp] theorem returns_err (e : ε) : Returns (.error (.err e) : Outcome ε α) := nofun

theorem returns_of_ok {x : Outcome ε α} (succeeds : ∃ a, x = .ok a) : Returns x := by
  obtain ⟨a, rfl⟩ := succeeds
  exact returns_ok a

/-- A sequence aborts where its first step does, or the rest with what that step gave. -/
@[simp] theorem returns_bind {x : Outcome ε α} {f : α → Outcome ε β} :
    Returns (x >>= f) ↔ Returns x ∧ ∀ a, x = .ok a → Returns (f a) := by
  cases x with
  | ok a => simp [Returns, bind, Except.bind]
  | error e => simp [Returns, bind, Except.bind]

@[simp] theorem returns_map {x : Outcome ε α} {f : α → β} : Returns (f <$> x) ↔ Returns x := by
  cases x <;> simp [Returns, Functor.map, Except.map]

@[simp] theorem returns_reject (bad : Prop) [Decidable bad] (e : ε) : Returns (reject bad e) := by
  unfold reject
  split <;> simp

@[simp] theorem returns_unwrap {x : Except δ α} : Returns (unwrap x : Outcome ε α) ↔ ∃ a, x = .ok a := by
  cases x <;> simp [unwrap, Returns]

@[simp] theorem returns_unwrapSome {x : Option α} : Returns (unwrapSome x : Outcome ε α) ↔ x.isSome := by
  cases x <;> simp [unwrapSome, Returns]

end Outcome
