import Mathlib.Data.List.Basic

/-!
# Namespaces and neurons

A neuron names a type: its name joins the namespace path, the alias of the type
and the name of the codec.  Neurons are compared and hashed by that name alone,
so a map keyed by neurons is modelled as a map keyed by names.
-/

namespace Plexo

structure Namespace where
  parts : List String
  delimiter : String := "."
  deriving DecidableEq

def Namespace.path (namespace_ : Namespace) : String :=
  String.intercalate namespace_.delimiter namespace_.parts

def Namespace.withSuffix (namespace_ : Namespace) (suffix : List String) : String :=
  String.intercalate namespace_.delimiter (namespace_.path :: suffix)

/-- A codec object, as far as names and filters see it: the class that
`allowed_codecs` is compared with, and the property `name`. -/
structure Codec where
  type : String
  name : String
  deriving DecidableEq

structure Neuron where
  type : String
  namespace_ : Namespace
  codec : Codec
  typeNameAlias : String
  deriving DecidableEq

/-- `Neuron.__init__`: a missing or empty alias is replaced by the name of the
type. -/
def Neuron.init (type : String) (namespace_ : Namespace) (codec : Codec)
    (typeNameAlias : Option String) : Neuron :=
  { type, namespace_, codec
    typeNameAlias :=
      match typeNameAlias with
      | none => type
      | some chosen => if chosen = "" then type else chosen }

def Neuron.name (neuron : Neuron) : String :=
  neuron.namespace_.withSuffix [neuron.typeNameAlias, neuron.codec.name]

def plexoNamespace : Namespace := { parts := ["dev", "plexo"] }

/-- The six neurons of the multicast protocol. -/
inductive ProtocolNeuron where
  | heartbeat
  | preparation
  | promise
  | rejection
  | proposal
  | approval
  deriving DecidableEq

namespace ProtocolNeuron

/-- The name of the `capnp` struct that a protocol neuron carries. -/
def struct : ProtocolNeuron → String
  | .heartbeat => "PlexoHeartbeat"
  | .preparation => "PlexoPreparation"
  | .promise => "PlexoPromise"
  | .rejection => "PlexoRejection"
  | .proposal => "PlexoProposal"
  | .approval => "PlexoApproval"

def toNeuron (neuron : ProtocolNeuron) : Neuron :=
  .init neuron.struct plexoNamespace ⟨"CapnpyCodec", "capnp"⟩ none

def all : List ProtocolNeuron :=
  [.heartbeat, .preparation, .promise, .rejection, .proposal, .approval]

theorem mem_all (neuron : ProtocolNeuron) : neuron ∈ all := by
  cases neuron <;> decide

theorem name_injective {left right : ProtocolNeuron}
    (same : left.toNeuron.name = right.toNeuron.name) : left = right := by
  revert same
  cases left <;> cases right <;> decide

end ProtocolNeuron

end Plexo
