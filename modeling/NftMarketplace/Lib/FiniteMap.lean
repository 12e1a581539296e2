import Mathlib.Data.Finmap
import NftMarketplace.Lib.Outcome

/-!
Finite maps in the words of a key-value store: `mayLoad`, `load`, `save` and `update`.
Keys are compared whole, so a two-part key is a pair.
-/

structure FiniteMap (K V : Type) where
  entries : Finmap (fun _ : K => V)

namespace FiniteMap
variable {K V : Type} [DecidableEq K]

def empty : FiniteMap K V := ⟨∅⟩

def mayLoad (m : FiniteMap K V) (k : K) : Option V := m.entries.lookup k

def save (m : FiniteMap K V) (k : K) (v : V) : FiniteMap K V := ⟨m.entries.insert k v⟩

def load {ε : Type} (missing : ε) (m : FiniteMap K V) (k : K) : Except ε V :=
  match m.mayLoad k with
  | none => .error missing
  | some v => .ok v

/-- Read-modify-write under one key: `f` sees what is stored and says what to store. -/
def update {ε : Type} (m : FiniteMap K V) (k : K) (f : Option V → Except ε V) : Except ε (FiniteMap K V) :=
  match f (m.mayLoad k) with
  | .error e => .error e
  | .ok v => .ok (m.save k v)

def keys (m : FiniteMap K V) : Finset K := m.entries.keys

@[simp] theorem mayLoad_empty (k : K) : (empty : FiniteMap K V).mayLoad k = none := Finmap.lookup_empty k

@[simp] theorem mayLoad_save_self (m : FiniteMap K V) (k : K) (v : V) : (m.save k v).mayLoad k = some v :=
  Finmap.lookup_insert _

theorem mayLoad_save_other (m : FiniteMap K V) {k k' : K} (v : V) (different : k' ≠ k) :
    (m.save k v).mayLoad k' = m.mayLoad k' :=
  Finmap.lookup_insert_of_ne _ different

theorem mayLoad_save (m : FiniteMap K V) (k k' : K) (v : V) :
    (m.save k v).mayLoad k' = if k' = k then some v else m.mayLoad k' := by
  split
  · next same => subst same; exact mayLoad_save_self _ _ _
  · next different => exact mayLoad_save_other _ _ different

theorem mem_keys {m : FiniteMap K V} {k : K} : k ∈ m.keys ↔ (m.mayLoad k).isSome := by
  rw [keys, Finmap.mem_keys, mayLoad, Finmap.lookup_isSome]

/-- A map is what it gives under each key. -/
theorem ext_mayLoad {m n : FiniteMap K V} (same : ∀ k, m.mayLoad k = n.mayLoad k) : m = n := by
  cases m
  cases n
  exact congrArg FiniteMap.mk (Finmap.ext_lookup same)

theorem load_congr {ε : Type} {missing : ε} {m n : FiniteMap K V} {k : K} (same : m.mayLoad k = n.mayLoad k) :
    m.load missing k = n.load missing k := by
  rw [load, load, same]

theorem load_ok {ε : Type} {missing : ε} {m : FiniteMap K V} {k : K} {v : V} :
    m.load missing k = .ok v ↔ m.mayLoad k = some v := by
  unfold load
  cases m.mayLoad k <;> simp

theorem update_ok {ε : Type} {m t : FiniteMap K V} {k : K} {f : Option V → Except ε V} :
    m.update k f = .ok t ↔ ∃ v, f (m.mayLoad k) = .ok v ∧ t = m.save k v := by
  unfold update
  cases f (m.mayLoad k) <;> simp [eq_comm]

/-- Updates of two maps that agree at the key write the same value, or fail alike. -/
theorem update_same {ε : Type} {m n : FiniteMap K V} {k : K} (same : m.mayLoad k = n.mayLoad k)
    (f : Option V → Except ε V) :
    Outcome.Same (fun a b => ∃ v, a = m.save k v ∧ b = n.save k v) (m.update k f) (n.update k f) := by
  rw [update, update, same]
  cases f (n.mayLoad k) with
  | error e => rfl
  | ok v => exact ⟨v, rfl, rfl⟩

end FiniteMap
