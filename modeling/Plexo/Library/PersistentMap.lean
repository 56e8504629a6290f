import Mathlib.Logic.Function.Basic

/-!
# Persistent maps

A persistent map is a finite-or-infinite partial function whose updates return
a new map and leave the old one alone.  Only lookups, insertions and deletions
are offered, so that every fact about an updated map reduces to a comparison
of keys.
-/

namespace PersistentMap

/-- A key is either absent or bound to exactly one value. -/
abbrev PMap (κ α : Type) := κ → Option α

namespace PMap

variable {κ α : Type}

def empty : PMap κ α := fun _ => none

@[simp] theorem empty_apply (key : κ) : (empty : PMap κ α) key = none := rfl

variable [DecidableEq κ]

/-- Bind `key` to `value`, replacing an earlier binding. -/
def set (map : PMap κ α) (key : κ) (value : α) : PMap κ α :=
  Function.update map key (some value)

/-- Remove the binding of `key`; removing an absent key changes nothing. -/
def discard (map : PMap κ α) (key : κ) : PMap κ α :=
  Function.update map key none

@[simp] theorem set_self (map : PMap κ α) (key : κ) (value : α) :
    map.set key value key = some value := by
  simp [set]

theorem set_of_ne (map : PMap κ α) {key other : κ} (value : α)
    (different : other ≠ key) : map.set key value other = map other := by
  simp [set, different]

theorem set_apply (map : PMap κ α) (key other : κ) (value : α) :
    map.set key value other = if other = key then some value else map other := by
  simp [set, Function.update_apply]

theorem discard_of_ne (map : PMap κ α) {key other : κ}
    (different : other ≠ key) : map.discard key other = map other := by
  simp [discard, different]

theorem discard_apply (map : PMap κ α) (key other : κ) :
    map.discard key other = if other = key then none else map other := by
  simp [discard, Function.update_apply]

theorem set_eq_some_iff (map : PMap κ α) (key other : κ) (value result : α) :
    map.set key value other = some result ↔
      (other = key ∧ value = result) ∨ (other ≠ key ∧ map other = some result) := by
  rw [set_apply]
  by_cases same : other = key
  · simp [same]
  · simp [same]

theorem discard_eq_some_iff (map : PMap κ α) (key other : κ) (result : α) :
    map.discard key other = some result ↔
      other ≠ key ∧ map other = some result := by
  rw [discard_apply]
  by_cases same : other = key
  · simp [same]
  · simp [same]

theorem isSome_set (map : PMap κ α) (key other : κ) (value : α) :
    (map.set key value other).isSome =
      (decide (key = other) || (map other).isSome) := by
  by_cases same : other = key
  · simp [same]
  · simp [set_apply, same, Ne.symm same]

theorem isSome_discard (map : PMap κ α) (key other : κ) :
    (map.discard key other).isSome =
      (!decide (key = other) && (map other).isSome) := by
  by_cases same : other = key
  · simp [discard_apply, same]
  · simp [discard_apply, same, Ne.symm same]

end PMap

end PersistentMap
