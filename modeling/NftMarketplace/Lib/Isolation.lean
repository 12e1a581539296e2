import NftMarketplace.Lib.Outcome

/-!
Steps on a family of components. A state is determined by a shared part and by one component for
each index. A step that can fail is local to an index when it reads the shared part and the component
there, and writes that component only. Local steps at different indices commute, so what a schedule of
steps does is determined by what each index sees of it.
-/

namespace Isolation
open Outcome

/-- How to read a state as a shared part and a family of components. -/
structure Family (σ γ ι ν : Type) where
  shared : σ → γ
  component : σ → ι → ν
  ext : ∀ {s t : σ}, shared s = shared t → (∀ i, component s i = component t i) → s = t

variable {σ γ ι ν ε ρ δ τ : Type}

/-- The state after a step; a failed step is rolled back. -/
def rolled (f : σ → Except ε (σ × ρ)) (s : σ) : σ :=
  match f s with
  | .ok (t, _) => t
  | .error _ => s

/-- What a step answers: its response, or its fault. -/
def answer (f : σ → Except ε (σ × ρ)) (s : σ) : Except ε ρ := (f s).map Prod.snd

structure Local (F : Family σ γ ι ν) (i : ι) (f : σ → Except ε (σ × ρ)) : Prop where
  shared : ∀ {s t r}, f s = .ok (t, r) → F.shared t = F.shared s
  elsewhere : ∀ {s t r j}, j ≠ i → f s = .ok (t, r) → F.component t j = F.component s j
  determined : ∀ {s t}, F.shared s = F.shared t → F.component s i = F.component t i →
    Same (fun p q => F.component p.1 i = F.component q.1 i ∧ p.2 = q.2) (f s) (f t)

namespace Local
variable {F : Family σ γ ι ν} {i j : ι} {f : σ → Except ε (σ × ρ)} {g : σ → Except δ (σ × τ)} {s t : σ}

theorem rolled_shared (h : Local F i f) (s : σ) : F.shared (rolled f s) = F.shared s := by
  unfold rolled
  split
  · next done => exact h.shared done
  · rfl

theorem rolled_elsewhere (h : Local F i f) (s : σ) (other : j ≠ i) :
    F.component (rolled f s) j = F.component s j := by
  unfold rolled
  split
  · next done => exact h.elsewhere other done
  · rfl

theorem rolled_here (h : Local F i f) (shared : F.shared s = F.shared t)
    (here : F.component s i = F.component t i) : F.component (rolled f s) i = F.component (rolled f t) i := by
  have same := h.determined shared here
  unfold rolled
  cases first : f s <;> cases second : f t <;> rw [first, second] at same
  · exact here
  · exact same.elim
  · exact same.elim
  · exact same.1

theorem answer_same (h : Local F i f) (shared : F.shared s = F.shared t)
    (here : F.component s i = F.component t i) : answer f s = answer f t := by
  have same := h.determined shared here
  unfold answer
  cases first : f s <;> cases second : f t <;> rw [first, second] at same
  · exact congrArg Except.error same
  · exact same.elim
  · exact same.elim
  · exact congrArg Except.ok same.2

/-- Neither step notices the other. -/
theorem answer_after (hf : Local F i f) (hg : Local F j g) (different : i ≠ j) (s : σ) :
    answer f (rolled g s) = answer f s :=
  hf.answer_same (hg.rolled_shared s) (hg.rolled_elsewhere s different)

theorem commute (hf : Local F i f) (hg : Local F j g) (different : i ≠ j) (s : σ) :
    rolled g (rolled f s) = rolled f (rolled g s) := by
  apply F.ext
  · rw [hg.rolled_shared, hf.rolled_shared, hf.rolled_shared, hg.rolled_shared]
  · intro k
    by_cases first : k = i
    · subst first
      rw [hg.rolled_elsewhere _ different]
      exact hf.rolled_here (hg.rolled_shared s).symm (hg.rolled_elsewhere s different).symm
    · rw [hf.rolled_elsewhere _ first]
      by_cases second : k = j
      · subst second
        exact hg.rolled_here (hf.rolled_shared s) (hf.rolled_elsewhere s first)
      · rw [hg.rolled_elsewhere _ second, hg.rolled_elsewhere _ second, hf.rolled_elsewhere _ first]

end Local

/-! ### Schedules -/

section Schedules
variable {α : Type} (step : α → σ → Except ε (σ × ρ)) (label : α → Option ι) [DecidableEq ι]

/-- The state after a schedule of steps, each rolled back where it fails. -/
def played (s : σ) : List α → σ
  | [] => s
  | a :: rest => played (rolled (step a) s) rest

/-- The steps of a schedule with their answers. -/
def answers (s : σ) : List α → List (α × Except ε ρ)
  | [] => []
  | a :: rest => (a, answer (step a) s) :: answers (rolled (step a) s) rest

/-- The steps that index `i` can notice: its own, and those without a label, which may touch every component. -/
def Seen (i : ι) (a : α) : Prop := label a = none ∨ label a = some i

instance (i : ι) (a : α) : Decidable (Seen label i a) := inferInstanceAs (Decidable (_ ∨ _))

def view (i : ι) (schedule : List α) : List α := schedule.filter (Seen label i)

def answersTo (i : ι) (s : σ) (schedule : List α) : List (α × Except ε ρ) :=
  (answers step s schedule).filter fun given => Seen label i given.1

variable {step label} {F : Family σ γ ι ν}

/-- A local step can be taken before all steps at other indices that precede it. -/
theorem take_first (isLocal : ∀ a i, label a = some i → Local F i (step a)) {a : α} {i : ι} (here : label a = some i)
    {pre : List α} (elsewhere : ∀ b ∈ pre, ¬ Seen label i b) (post : List α) (s : σ) :
    played step s (pre ++ a :: post) = played step s (a :: (pre ++ post)) ∧
      ∀ k, answersTo step label k s (pre ++ a :: post) = answersTo step label k s (a :: (pre ++ post)) := by
  induction pre generalizing s with
  | nil => exact ⟨rfl, fun _ => rfl⟩
  | cons b pre ih =>
    obtain ⟨j, there⟩ : ∃ j, label b = some j :=
      Option.ne_none_iff_exists'.mp fun none => elsewhere b List.mem_cons_self (Or.inl none)
    have different : i ≠ j := fun same => elsewhere b List.mem_cons_self (Or.inr (same ▸ there))
    have first : Local F i (step a) := isLocal a i here
    have second : Local F j (step b) := isLocal b j there
    have swap := first.commute second different s
    obtain ⟨states, given⟩ := ih (fun c member => elsewhere c (List.mem_cons_of_mem b member)) (rolled (step b) s)
    constructor
    · simp only [List.cons_append, played] at states ⊢
      rw [states, swap]
    · intro k
      have rest := given k
      simp only [answersTo, List.cons_append, answers] at rest ⊢
      rw [List.filter_cons, rest, first.answer_after second different, List.filter_cons, List.filter_cons, List.filter_cons,
        second.answer_after first different.symm, swap]
      -- `a` and `b` have different labels, so nobody sees both
      by_cases seesA : Seen label k a <;> by_cases seesB : Seen label k b <;> simp only [seesA, seesB, decide_true,
        decide_false, if_true, if_false, Bool.false_eq_true]
      rcases seesA with none | same
      · simp [here] at none
      rcases seesB with none | same'
      · simp [there] at none
      · rw [here] at same
        rw [there] at same'
        exact (different (Option.some.inj (same.trans same'.symm))).elim

theorem view_cons_seen {a : α} {i : ι} (sees : Seen label i a) (rest : List α) :
    view label i (a :: rest) = a :: view label i rest := List.filter_cons_of_pos (by simpa using sees)

theorem view_cons_unseen {a : α} {i : ι} (unseen : ¬ Seen label i a) (rest : List α) :
    view label i (a :: rest) = view label i rest := List.filter_cons_of_neg (by simpa using unseen)

theorem view_append (i : ι) (pre post : List α) : view label i (pre ++ post) = view label i pre ++ view label i post :=
  List.filter_append _ _

theorem view_unseen {i : ι} {pre : List α} (unseen : ∀ b ∈ pre, ¬ Seen label i b) : view label i pre = [] :=
  List.filter_eq_nil_iff.mpr (by simpa using unseen)

/-- The first step that an index sees, with what comes before it and after it. -/
theorem view_cut {i : ι} {a : α} {rest schedule : List α} (h : view label i schedule = a :: rest) :
    ∃ pre post, schedule = pre ++ a :: post ∧ (∀ b ∈ pre, ¬ Seen label i b) ∧ Seen label i a ∧
      view label i post = rest := by
  induction schedule with
  | nil => cases h
  | cons b schedule ih =>
    by_cases sees : Seen label i b
    · rw [view_cons_seen sees] at h
      obtain ⟨rfl, rfl⟩ := List.cons.inj h
      exact ⟨[], schedule, rfl, by simp, sees, rfl⟩
    · rw [view_cons_unseen sees] at h
      obtain ⟨pre, post, rfl, before, seen, after⟩ := ih h
      refine ⟨b :: pre, post, rfl, ?_, seen, after⟩
      rw [List.forall_mem_cons]
      exact ⟨sees, before⟩

omit [DecidableEq ι] in
theorem seen_by [Nonempty ι] (label : α → Option ι) (a : α) : ∃ i, Seen label i a := by
  cases here : label a with
  | none => exact ‹Nonempty ι›.elim fun i => ⟨i, Or.inl here⟩
  | some i => exact ⟨i, Or.inr here⟩

theorem answersTo_cons {i : ι} {a : α} {s : σ} {first second : List α}
    (later : answersTo step label i (rolled (step a) s) first = answersTo step label i (rolled (step a) s) second) :
    answersTo step label i s (a :: first) = answersTo step label i s (a :: second) := by
  simp only [answersTo, answers, List.filter_cons] at later ⊢
  rw [later]

/-- A labelled step leads the view of its index, so the other schedule takes it after steps at other indices. -/
theorem view_cut_labelled {a : α} {i : ι} {first second : List α} (here : label a = some i)
    (same : ∀ k, view label k (a :: first) = view label k second) :
    ∃ pre post, second = pre ++ a :: post ∧ (∀ b ∈ pre, ¬ Seen label i b) ∧
      ∀ k, view label k first = view label k (pre ++ post) := by
  have cut := same i
  rw [view_cons_seen (Or.inr here)] at cut
  obtain ⟨pre, post, rfl, unseen, sees, rest⟩ := view_cut cut.symm
  refine ⟨pre, post, rfl, unseen, fun k => ?_⟩
  have both := same k
  rw [view_append] at both ⊢
  by_cases sees : Seen label k a
  · obtain rfl : k = i := by
      rcases sees with none | other
      · simp [here] at none
      · exact Option.some.inj (other.symm.trans here)
    rw [view_unseen unseen]
    exact rest.symm
  · rw [view_cons_unseen sees, view_cons_unseen sees] at both
    exact both

/-- A step without a label leads every view, so the other schedule takes it first as well. -/
theorem view_cut_unlabelled [Nonempty ι] {a : α} {first second : List α} (here : label a = none)
    (same : ∀ k, view label k (a :: first) = view label k second) :
    ∃ rest, second = a :: rest ∧ ∀ k, view label k first = view label k rest := by
  have leads : ∀ k, view label k second = a :: view label k first := fun k =>
    (same k).symm.trans (view_cons_seen (Or.inl here) first)
  cases second with
  | nil => exact ‹Nonempty ι›.elim fun i => nomatch leads i
  | cons b rest =>
    obtain ⟨i, sees⟩ := seen_by label b
    have head := leads i
    rw [view_cons_seen sees] at head
    obtain rfl : b = a := (List.cons.inj head).1
    refine ⟨rest, rfl, fun k => ?_⟩
    have both := leads k
    rw [view_cons_seen (Or.inl here)] at both
    exact (List.cons.inj both).2.symm

/-- Two schedules that every index sees alike leave the same state and answer every index alike. -/
theorem schedules_agree [Nonempty ι] (isLocal : ∀ a i, label a = some i → Local F i (step a)) {first second : List α}
    (same : ∀ i, view label i first = view label i second) (s : σ) :
    played step s first = played step s second ∧
      ∀ i, answersTo step label i s first = answersTo step label i s second := by
  induction first generalizing second s with
  | nil =>
    cases second with
    | nil => exact ⟨rfl, fun _ => rfl⟩
    | cons b second =>
      obtain ⟨i, sees⟩ := seen_by label b
      have nothing := same i
      rw [view_cons_seen sees] at nothing
      cases nothing
  | cons a first ih =>
    cases here : label a with
    | some i =>
      obtain ⟨pre, post, rfl, unseen, remaining⟩ := view_cut_labelled here same
      obtain ⟨states, given⟩ := take_first isLocal here unseen post s
      obtain ⟨after, told⟩ := ih remaining (rolled (step a) s)
      exact ⟨after.trans states.symm, fun k => (answersTo_cons (told k)).trans (given k).symm⟩
    | none =>
      obtain ⟨rest, rfl, remaining⟩ := view_cut_unlabelled here same
      obtain ⟨after, told⟩ := ih remaining (rolled (step a) s)
      exact ⟨after, fun k => answersTo_cons (told k)⟩

end Schedules

end Isolation
