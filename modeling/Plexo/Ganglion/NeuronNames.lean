import Plexo.Ganglion.Messages
import Plexo.Library.Joining

/-!
# What the name of a neuron tells

The name of a neuron joins the parts of the namespace, the alias of the type and
the name of the codec with dots.  It does not tell a dot between two of them
from a dot within one, nor a namespace without parts from one whose only part is
empty.
-/

namespace Plexo

namespace Neuron

/-- What the name is joined from; a namespace without parts has the same path as
one with an empty part. -/
def components (neuron : Neuron) : List String :=
  (if neuron.namespace_.parts = [] then [""] else neuron.namespace_.parts) ++
    [neuron.typeNameAlias, neuron.codec.name]

/-- The components, split at the dots that they contain. -/
def pieces (neuron : Neuron) : List (List Char) :=
  Joining.pieces '.' (neuron.components.map String.toList)

/-- The namespace has a part, and no component contains a dot. -/
def IsPlain (neuron : Neuron) : Prop :=
  neuron.namespace_.parts ≠ [] ∧
    ∀ component ∈ neuron.components, '.' ∉ component.toList

instance (neuron : Neuron) : Decidable neuron.IsPlain :=
  inferInstanceAs (Decidable (_ ∧ _))

structure SameComponents (left right : Neuron) : Prop where
  parts : left.namespace_.parts = right.namespace_.parts
  typeNameAlias : left.typeNameAlias = right.typeNameAlias
  codecName : left.codec.name = right.codec.name

theorem name_eq {neuron : Neuron} (default : neuron.namespace_.delimiter = ".") :
    neuron.name = String.intercalate "." neuron.components := by
  unfold name Namespace.withSuffix Namespace.path components
  rw [default]
  by_cases none : neuron.namespace_.parts = []
  · simp [none]
  · rw [if_neg none, String.intercalate_append_of_ne_nil none (by simp)]
    simp [String.append_assoc]

theorem components_ne_nil (neuron : Neuron) : neuron.components ≠ [] := by
  simp [components]

/-- Names are equal exactly if they are joined from the same pieces. -/
theorem name_eq_iff_pieces {left right : Neuron}
    (leftDefault : left.namespace_.delimiter = ".")
    (rightDefault : right.namespace_.delimiter = ".") :
    left.name = right.name ↔ left.pieces = right.pieces := by
  rw [name_eq leftDefault, name_eq rightDefault, ← String.toList_inj,
    String.toList_intercalate, String.toList_intercalate]
  apply Joining.intercalate_eq_iff
  · simp [components_ne_nil]
  · simp [components_ne_nil]

theorem IsPlain.pieces {neuron : Neuron} (plain : neuron.IsPlain) :
    neuron.pieces = neuron.components.map String.toList := by
  apply Joining.pieces_of_not_mem
  intro word member
  obtain ⟨component, inside, rfl⟩ := List.mem_map.mp member
  exact plain.2 component inside

theorem IsPlain.components {neuron : Neuron} (plain : neuron.IsPlain) :
    neuron.components = neuron.namespace_.parts ++
      [neuron.typeNameAlias, neuron.codec.name] := by
  rw [Neuron.components, if_neg plain.1]

theorem IsPlain.sameComponents {left right : Neuron} (leftPlain : left.IsPlain)
    (rightPlain : right.IsPlain) (same : left.pieces = right.pieces) :
    left.SameComponents right := by
  rw [leftPlain.pieces, rightPlain.pieces] at same
  have components := (List.map_injective_iff.mpr
    fun _ _ => String.toList_inj.mp) same
  rw [leftPlain.components, rightPlain.components] at components
  obtain ⟨parts, others⟩ := List.append_inj' components rfl
  obtain ⟨typeNameAlias, codec⟩ := List.cons.inj others
  exact ⟨parts, typeNameAlias, (List.cons.inj codec).1⟩

theorem topicBytes_eq_iff {left right : Neuron} :
    left.topicBytes = right.topicBytes ↔ left.name = right.name := by
  unfold topicBytes
  rw [String.toUTF8_eq_toByteArray, String.toUTF8_eq_toByteArray]
  exact String.toByteArray_inj

/-- Names tell the pieces that they are joined from, and so all components where
these contain no dots.  Neurons that differ in one of them are neither equal nor
use the same topic. -/
theorem names_unambiguous {left right : Neuron}
    (leftDefault : left.namespace_.delimiter = ".")
    (rightDefault : right.namespace_.delimiter = ".") :
    (left.name = right.name ↔ left.pieces = right.pieces) ∧
      (left.topicBytes = right.topicBytes ↔ left.name = right.name) ∧
      (left.IsPlain → right.IsPlain → left.name = right.name →
        left.SameComponents right) := by
  refine ⟨name_eq_iff_pieces leftDefault rightDefault, topicBytes_eq_iff, ?_⟩
  intro leftPlain rightPlain same
  exact leftPlain.sameComponents rightPlain
    ((name_eq_iff_pieces leftDefault rightDefault).mp same)

/-- A neuron for the type `Foo` with a codec named `json`. -/
def foo (parts : List String) : Neuron :=
  .init "Foo" { parts } ⟨"JSONCodec", "json"⟩ none

theorem names_unambiguous_foo :
    (foo ["dev", "plexo"]).name ≠ (foo ["dev"]).name := by
  intro same
  have components := (names_unambiguous rfl rfl).2.2 (by decide) (by decide) same
  exact absurd components.parts (by decide)

/-- The namespaces `dev.plexo` in two parts and in one. -/
theorem not_names_unambiguous_dotted :
    ¬ ∀ left right : Neuron, left.namespace_.delimiter = "." →
      right.namespace_.delimiter = "." → left.name = right.name →
      left.SameComponents right := by
  intro unambiguous
  have components := unambiguous (foo ["dev", "plexo"]) (foo ["dev.plexo"]) rfl
    rfl (by decide)
  exact absurd components.parts (by decide)

end Neuron

end Plexo
