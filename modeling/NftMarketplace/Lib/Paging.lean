import Mathlib.Data.List.Basic
import Mathlib.Order.Lattice

/-!
Reading a sorted list page by page, with the key of the last entry as the cursor of the next page. A walk
ends at the first empty page; it visits every entry once.
-/

namespace Paging
variable {α κ : Type*}

/-- `Walk key serves start pages`: a reader that begins at `start` is served `pages` and then an empty
page. `serves start page` says that `page` is served at `start`. -/
inductive Walk (key : α → κ) (serves : Option κ → List α → Prop) : Option κ → List (List α) → Prop where
  | done {start : Option κ} (empty : serves start []) : Walk key serves start []
  | next {start : Option κ} {page : List α} {last : α} {pages : List (List α)} (served : serves start page)
      (ends : page.getLast? = some last) (rest : Walk key serves (some (key last)) pages) :
      Walk key serves start (page :: pages)

theorem Walk.unique {key : α → κ} {serves : Option κ → List α → Prop} {start : Option κ}
    (functional : ∀ start page page', serves start page → serves start page' → page = page')
    {pages pages' : List (List α)} (walk : Walk key serves start pages) (walk' : Walk key serves start pages') :
    pages' = pages := by
  induction walk generalizing pages' with
  | done empty =>
    cases walk' with
    | done => rfl
    | next served ends =>
      obtain rfl := functional _ _ _ empty served
      cases ends
  | next served ends _ ih =>
    cases walk' with
    | done empty =>
      obtain rfl := functional _ _ _ empty served
      cases ends
    | next served' ends' rest' =>
      obtain rfl := functional _ _ _ served served'
      obtain rfl := Option.some.inj (ends.symm.trans ends')
      rw [ih rest']

variable [LinearOrder κ] (key : α → κ)

/-- The entries beyond a cursor, all of them without one. -/
def after (start : Option κ) (xs : List α) : List α := xs.filter fun a => ∀ k ∈ start, k < key a

def Ascending (xs : List α) : Prop := xs.Pairwise fun a b => key a < key b

variable {key} {serves : Option κ → List α → Prop} {start : Option κ} {xs : List α}

@[simp] theorem after_none : after key none xs = xs := by simp [after]

theorem mem_after {a : α} : a ∈ after key start xs ↔ a ∈ xs ∧ ∀ k ∈ start, k < key a := by
  simp [after]

theorem Ascending.after (sorted : Ascending key xs) (start : Option κ) : Ascending key (after key start xs) :=
  List.Pairwise.filter _ sorted

theorem after_after {k : κ} (beyond : ∀ k' ∈ start, k' < k) :
    after key (some k) (after key start xs) = after key (some k) xs := by
  unfold after
  rw [List.filter_filter]
  apply List.filter_congr
  intro a _
  simp only [Option.mem_def, Option.some.injEq, forall_eq', Bool.and_eq_left_iff_imp, decide_eq_true_eq]
  intro later k' same
  exact (beyond k' same).trans later

/-- Beyond the last entry of a page comes what the page left out. -/
theorem Ascending.after_last {l : Nat} {last : α} (sorted : Ascending key xs)
    (ends : (xs.take l).getLast? = some last) : Paging.after key (some (key last)) xs = xs.drop l := by
  obtain ⟨init, page⟩ := List.getLast?_eq_some_iff.mp ends
  have split : init ++ [last] ++ xs.drop l = xs := by rw [← page, List.take_append_drop]
  rw [Ascending, ← split, List.pairwise_append, List.pairwise_append] at sorted
  obtain ⟨⟨_, _, before⟩, _, beyond⟩ := sorted
  rw [Paging.after, ← split, List.filter_append, List.filter_append]
  have kept : (xs.drop l).filter (fun a => decide (∀ k ∈ some (key last), k < key a)) = xs.drop l := by
    apply List.filter_eq_self.mpr
    intro a member
    simpa using beyond last (by simp) a member
  have passed : init.filter (fun a => decide (∀ k ∈ some (key last), k < key a)) = [] := by
    apply List.filter_eq_nil_iff.mpr
    intro a member
    simpa using (before a member last (by simp)).le
  rw [split, kept, passed]
  simp

theorem Ascending.ext {ys : List α} (sorted : Ascending key xs) (sorted' : Ascending key ys)
    (same : ∀ a, a ∈ xs ↔ a ∈ ys) : xs = ys := by
  have nodup {zs : List α} (sorted : Ascending key zs) : zs.Nodup :=
    List.Pairwise.imp (fun less => ne_of_apply_ne key (ne_of_lt less)) sorted
  apply List.Perm.eq_of_pairwise _ sorted sorted' ((List.perm_ext_iff_of_nodup (nodup sorted) (nodup sorted')).mpr same)
  intro a b _ _ less more
  exact (lt_asymm less more).elim

/-- Where the first `l` entries beyond any cursor are served, a walk ends, and its pages put together are
the entries beyond its start. -/
theorem walk_complete {l : Nat} (positive : 0 < l) (sorted : Ascending key xs)
    (serving : ∀ start, (∀ k ∈ start, k ∈ xs.map key) → serves start ((after key start xs).take l))
    (start : Option κ) (known : ∀ k ∈ start, k ∈ xs.map key) :
    ∃ pages, Walk key serves start pages ∧ pages.flatten = after key start xs ∧ ∀ page ∈ pages, page.length ≤ l := by
  induction rest : (after key start xs).length using Nat.strongRecOn generalizing start with
  | ind n ih =>
    cases ends : ((after key start xs).take l).getLast? with
    | none =>
      have nothing : after key start xs = [] := by
        rcases List.take_eq_nil_iff.mp (List.getLast?_eq_none_iff.mp ends) with zero | nothing
        · omega
        · exact nothing
      refine ⟨[], .done ?_, by simp [nothing], by simp⟩
      simpa [nothing] using serving start known
    | some last =>
      have member : last ∈ after key start xs := List.mem_of_mem_take (List.mem_of_getLast? ends)
      have left : after key (some (key last)) xs = (after key start xs).drop l := by
        rw [← after_after (mem_after.mp member).2, (sorted.after start).after_last ends]
      have shorter : (after key (some (key last)) xs).length < n := by
        have present := List.length_pos_of_mem member
        rw [left, List.length_drop]
        omega
      have present : key last ∈ xs.map key := List.mem_map_of_mem (mem_after.mp member).1
      obtain ⟨pages, walk, whole, small⟩ := ih _ shorter _ (by simpa using present) rfl
      refine ⟨_ :: pages, .next (serving start known) ends walk, ?_, ?_⟩
      · rw [List.flatten_cons, whole, left, List.take_append_drop]
      · rintro page (_ | ⟨_, later⟩)
        · exact List.length_take_le _ _
        · exact small page later

end Paging
