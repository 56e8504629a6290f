import Mathlib.Data.Set.Insert
import Mathlib.Logic.Relation
import Plexo.Library.PersistentMap

/-!
# Directories in which a name is entered once

A directory gives objects names.  Whoever has found the object of a name may
keep a handle to it under the name, and may attach items to it; much may happen
between the two.  No step replaces or removes an entry, so what was found once
stays the object of its name, and all that was ever attached for a name is
attached to one object.
-/

namespace Directories

open PersistentMap

/-- Names, objects, kinds of handles, and items. -/
structure Directory (κ ο χ ι : Type) where
  entries : PMap κ ο
  handles : χ → PMap κ ο
  /-- The items that are attached to an object. -/
  attached : Set (ο × ι)
  /-- What was found under a name. -/
  found : Set (κ × ο)
  /-- The items that were to be attached to the object of a name. -/
  registered : Set (κ × ι)

namespace Directory

variable {κ ο χ ι : Type}

def blank : Directory κ ο χ ι :=
  { entries := PMap.empty
    handles := fun _ => PMap.empty
    attached := ∅
    found := ∅
    registered := ∅ }

/-- One object for each name: it is what was found under the name, what the
handles of the name lead to, and what the items for the name are attached to. -/
structure Sound (directory : Directory κ ο χ ι) : Prop where
  injective : ∀ {name other object}, directory.entries name = some object →
    directory.entries other = some object → name = other
  found : ∀ {name object}, (name, object) ∈ directory.found →
    directory.entries name = some object
  handles : ∀ {kind name object}, directory.handles kind name = some object →
    directory.entries name = some object
  attached : ∀ {object item}, (object, item) ∈ directory.attached →
    ∃ name, directory.entries name = some object
  registered : ∀ {name item}, (name, item) ∈ directory.registered →
    ∃ object, directory.entries name = some object ∧
      (object, item) ∈ directory.attached

theorem blank_sound : (blank : Directory κ ο χ ι).Sound := by
  constructor <;> simp [blank]

/-- What no step takes back. -/
structure Grows (before after : Directory κ ο χ ι) : Prop where
  entries : ∀ {name object}, before.entries name = some object →
    after.entries name = some object
  found : before.found ⊆ after.found
  attached : before.attached ⊆ after.attached
  registered : before.registered ⊆ after.registered

theorem Grows.refl (directory : Directory κ ο χ ι) :
    directory.Grows directory :=
  ⟨id, subset_rfl, subset_rfl, subset_rfl⟩

theorem Grows.trans {first second third : Directory κ ο χ ι}
    (before : first.Grows second) (after : second.Grows third) :
    first.Grows third :=
  ⟨fun known => after.entries (before.entries known),
    before.found.trans after.found, before.attached.trans after.attached,
    before.registered.trans after.registered⟩

variable [DecidableEq κ] [DecidableEq χ]

def enter (directory : Directory κ ο χ ι) (name : κ) (object : ο) :
    Directory κ ο χ ι :=
  { directory with entries := directory.entries.set name object }

def find (directory : Directory κ ο χ ι) (name : κ) (object : ο) :
    Directory κ ο χ ι :=
  { directory with found := insert (name, object) directory.found }

def handle (directory : Directory κ ο χ ι) (kind : χ) (name : κ) (object : ο) :
    Directory κ ο χ ι :=
  { directory with
    handles := Function.update directory.handles kind
      ((directory.handles kind).set name object) }

def attach (directory : Directory κ ο χ ι) (name : κ) (object : ο)
    (items : Set ι) : Directory κ ο χ ι :=
  { directory with
    attached := directory.attached ∪ { pair | pair.1 = object ∧ pair.2 ∈ items }
    registered :=
      directory.registered ∪ { pair | pair.1 = name ∧ pair.2 ∈ items } }

/-- One step; a new object is not the object of another name. -/
inductive Step (before : Directory κ ο χ ι) : Directory κ ο χ ι → Prop where
  | enter {name : κ} {object : ο} :
      before.entries name = none →
      (∀ other, before.entries other ≠ some object) →
      Step before (before.enter name object)
  | find {name : κ} {object : ο} :
      before.entries name = some object →
      Step before (before.find name object)
  | handle {kind : χ} {name : κ} {object : ο} :
      (name, object) ∈ before.found →
      Step before (before.handle kind name object)
  | attach {name : κ} {object : ο} {items : Set ι} :
      (name, object) ∈ before.found →
      Step before (before.attach name object items)

abbrev Steps : Directory κ ο χ ι → Directory κ ο χ ι → Prop :=
  Relation.ReflTransGen Step

theorem Step.grows {before after : Directory κ ο χ ι} (step : Step before after) :
    before.Grows after := by
  cases step with
  | @enter name object absent fresh =>
      refine ⟨?_, subset_rfl, subset_rfl, subset_rfl⟩
      intro other target entered
      have different : other ≠ name := by
        rintro rfl
        simp [absent] at entered
      rw [show (before.enter name object).entries other = before.entries other
        from PMap.set_of_ne _ _ different]
      exact entered
  | find known =>
      exact ⟨id, Set.subset_insert _ _, subset_rfl, subset_rfl⟩
  | handle found => exact ⟨id, subset_rfl, subset_rfl, subset_rfl⟩
  | attach found =>
      exact ⟨id, subset_rfl, Set.subset_union_left, Set.subset_union_left⟩

theorem Step.sound {before after : Directory κ ο χ ι} (sound : before.Sound)
    (step : Step before after) : after.Sound := by
  have grows := step.grows
  cases step with
  | @enter name object absent fresh =>
      constructor
      · intro first second shared enteredFirst enteredSecond
        rcases (PMap.set_eq_some_iff ..).mp enteredFirst with
          ⟨rfl, rfl⟩ | ⟨_, oldFirst⟩
        · rcases (PMap.set_eq_some_iff ..).mp enteredSecond with
            ⟨rfl, _⟩ | ⟨_, oldSecond⟩
          · rfl
          · exact absurd oldSecond (fresh _)
        · rcases (PMap.set_eq_some_iff ..).mp enteredSecond with
            ⟨rfl, rfl⟩ | ⟨_, oldSecond⟩
          · exact absurd oldFirst (fresh _)
          · exact sound.injective oldFirst oldSecond
      · exact fun found => grows.entries (sound.found found)
      · exact fun handled => grows.entries (sound.handles handled)
      · intro other item attached
        obtain ⟨owner, entered⟩ := sound.attached attached
        exact ⟨owner, grows.entries entered⟩
      · intro other item registered
        obtain ⟨owner, entered, attached⟩ := sound.registered registered
        exact ⟨owner, grows.entries entered, attached⟩
  | @find name object known =>
      refine ⟨sound.injective, ?_, sound.handles, sound.attached,
        sound.registered⟩
      rintro other found (same | old)
      · cases same
        exact known
      · exact sound.found old
  | @handle kind name object found =>
      refine ⟨sound.injective, sound.found, ?_, sound.attached,
        sound.registered⟩
      intro other owner target handled
      by_cases same : other = kind
      · subst same
        simp only [Directory.handle, Function.update_self] at handled
        rcases (PMap.set_eq_some_iff ..).mp handled with ⟨rfl, rfl⟩ | ⟨_, old⟩
        · exact sound.found found
        · exact sound.handles old
      · simp only [Directory.handle, Function.update_of_ne same] at handled
        exact sound.handles handled
  | @attach name object items found =>
      have entered := sound.found found
      refine ⟨sound.injective, sound.found, sound.handles, ?_, ?_⟩
      · rintro target item (old | ⟨rfl, new⟩)
        · exact sound.attached old
        · exact ⟨name, entered⟩
      · rintro owner item (old | ⟨rfl, new⟩)
        · obtain ⟨target, known, attached⟩ := sound.registered old
          exact ⟨target, known, .inl attached⟩
        · exact ⟨object, entered, .inr ⟨rfl, new⟩⟩

theorem Steps.grows {before after : Directory κ ο χ ι}
    (steps : Steps before after) : before.Grows after := by
  induction steps with
  | refl => exact .refl before
  | tail _ step induction => exact induction.trans step.grows

theorem Steps.sound {before after : Directory κ ο χ ι} (sound : before.Sound)
    (steps : Steps before after) : after.Sound := by
  induction steps with
  | refl => exact sound
  | tail _ step induction => exact step.sound induction

end Directory

end Directories
