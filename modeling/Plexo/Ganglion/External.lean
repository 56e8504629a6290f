import Plexo.Exceptions
import Plexo.Library.PersistentMap
import Plexo.Neuron

/-!
# The registries of an external ganglion

`GanglionExternalBase` keeps the synapses, transmitters and neurons it knows
in four maps, and decides by three filters which neurons it is capable of.
Synapses are objects with state of their own, so the maps hold references and
the objects live with the ganglion that owns them.
-/

namespace Plexo

open PersistentMap

/-- The identity of a synapse object. -/
abbrev SynapseId := Nat

/-- The sets a ganglion filters neurons by. -/
structure Filters where
  relevantNeurons : List Neuron := []
  ignoredNeurons : List Neuron := []
  allowedCodecs : List String := []

/-- `neuron in neurons`, with the equality of `Neuron.__eq__`. -/
def Neuron.isIn (neuron : Neuron) (neurons : List Neuron) : Bool :=
  neurons.any (fun known => known.name = neuron.name)

/-- The body of `capable` in both base classes. -/
def Filters.capable (filters : Filters) (neuron : Neuron) : Bool :=
  if filters.relevantNeurons.length > 0 ∧
      ¬ neuron.isIn filters.relevantNeurons then
    false
  else if filters.ignoredNeurons.length > 0 ∧
      neuron.isIn filters.ignoredNeurons then
    false
  else if filters.allowedCodecs.length > 0 ∧
      neuron.codec.type ∉ filters.allowedCodecs then
    false
  else
    true

/-- A transmitter is bound to a synapse and, if it is one of an external ganglion,
to the `encode` of the neuron that it has been made for. -/
structure Transmitter where
  synapse : SynapseId
  encoder : Neuron
  deriving DecidableEq

structure GanglionExternalBase where
  synapses : PMap String SynapseId := PMap.empty
  transmitters : PMap String Transmitter := PMap.empty
  externalTransmitters : PMap String SynapseId := PMap.empty
  nameNeurons : PMap String Neuron := PMap.empty
  filters : Filters := {}

namespace GanglionExternalBase

def capable (base : GanglionExternalBase) (neuron : Neuron) : Bool :=
  base.filters.capable neuron

/-- `_update_name_neurons`: the first neuron of a name is kept. -/
def updateNameNeurons (base : GanglionExternalBase) (neuron : Neuron) :
    GanglionExternalBase :=
  match base.nameNeurons neuron.name with
  | some _ => base
  | none => { base with nameNeurons := base.nameNeurons.set neuron.name neuron }

/-- `_create_external_transmitter`: an existing transmitter is kept. -/
def createExternalTransmitterOnce (base : GanglionExternalBase)
    (neuron : Neuron) (synapse : SynapseId) : GanglionExternalBase :=
  match base.externalTransmitters neuron.name with
  | some _ => base
  | none =>
      { base with externalTransmitters :=
          base.externalTransmitters.set neuron.name synapse }

/-- `create_external_transmitter`, the only operation that also registers the
neuron under its name. -/
def createExternalTransmitter (base : GanglionExternalBase) (neuron : Neuron)
    (synapse : SynapseId) : GanglionExternalBase :=
  (base.createExternalTransmitterOnce neuron synapse).updateNameNeurons neuron

/-- `_create_transmitter`. -/
def createTransmitterOnce (base : GanglionExternalBase) (neuron : Neuron)
    (synapse : SynapseId) : GanglionExternalBase :=
  match base.transmitters neuron.name with
  | some _ => base
  | none =>
      { base with
        transmitters :=
          base.transmitters.set neuron.name ⟨synapse, neuron⟩ }

/-- The tail of `update_transmitter` once the synapse is there: the two private
helpers run, and neither registers the neuron under its name. -/
def updateTransmitter (base : GanglionExternalBase) (neuron : Neuron)
    (synapse : SynapseId) : GanglionExternalBase :=
  (base.createTransmitterOnce neuron synapse).createExternalTransmitterOnce
    neuron synapse

/-- `_get_neuron_by_name`. -/
def getNeuronByName (base : GanglionExternalBase) (name : String) :
    Except PlexoError Neuron :=
  match base.nameNeurons name with
  | none => .error (.neuronNotFound name)
  | some neuron => .ok neuron

/-- `_get_transmitter`. -/
def getTransmitter (base : GanglionExternalBase) (neuron : Neuron) :
    Except PlexoError Transmitter :=
  match base.transmitters neuron.name with
  | none => .error (.transmitterNotFound neuron.name)
  | some transmitter => .ok transmitter

/-- `_get_external_transmitter`. -/
def getExternalTransmitter (base : GanglionExternalBase) (neuron : Neuron) :
    Except PlexoError SynapseId :=
  match base.externalTransmitters neuron.name with
  | none => .error (.transmitterNotFound neuron.name)
  | some synapse => .ok synapse

@[simp] theorem createExternalTransmitterOnce_synapses
    (base : GanglionExternalBase) (neuron : Neuron) (synapse : SynapseId) :
    (base.createExternalTransmitterOnce neuron synapse).synapses =
      base.synapses := by
  unfold createExternalTransmitterOnce
  split <;> rfl

@[simp] theorem createExternalTransmitterOnce_nameNeurons
    (base : GanglionExternalBase) (neuron : Neuron) (synapse : SynapseId) :
    (base.createExternalTransmitterOnce neuron synapse).nameNeurons =
      base.nameNeurons := by
  unfold createExternalTransmitterOnce
  split <;> rfl

@[simp] theorem createExternalTransmitterOnce_filters
    (base : GanglionExternalBase) (neuron : Neuron) (synapse : SynapseId) :
    (base.createExternalTransmitterOnce neuron synapse).filters =
      base.filters := by
  unfold createExternalTransmitterOnce
  split <;> rfl

@[simp] theorem createTransmitterOnce_filters
    (base : GanglionExternalBase) (neuron : Neuron) (synapse : SynapseId) :
    (base.createTransmitterOnce neuron synapse).filters = base.filters := by
  unfold createTransmitterOnce
  split <;> rfl

@[simp] theorem createTransmitterOnce_synapses
    (base : GanglionExternalBase) (neuron : Neuron) (synapse : SynapseId) :
    (base.createTransmitterOnce neuron synapse).synapses = base.synapses := by
  unfold createTransmitterOnce
  split <;> rfl

@[simp] theorem createTransmitterOnce_nameNeurons
    (base : GanglionExternalBase) (neuron : Neuron) (synapse : SynapseId) :
    (base.createTransmitterOnce neuron synapse).nameNeurons =
      base.nameNeurons := by
  unfold createTransmitterOnce
  split <;> rfl

@[simp] theorem updateNameNeurons_synapses
    (base : GanglionExternalBase) (neuron : Neuron) :
    (base.updateNameNeurons neuron).synapses = base.synapses := by
  unfold updateNameNeurons
  split <;> rfl

@[simp] theorem updateNameNeurons_transmitters
    (base : GanglionExternalBase) (neuron : Neuron) :
    (base.updateNameNeurons neuron).transmitters = base.transmitters := by
  unfold updateNameNeurons
  split <;> rfl

@[simp] theorem updateNameNeurons_externalTransmitters
    (base : GanglionExternalBase) (neuron : Neuron) :
    (base.updateNameNeurons neuron).externalTransmitters =
      base.externalTransmitters := by
  unfold updateNameNeurons
  split <;> rfl

@[simp] theorem updateNameNeurons_filters
    (base : GanglionExternalBase) (neuron : Neuron) :
    (base.updateNameNeurons neuron).filters = base.filters := by
  unfold updateNameNeurons
  split <;> rfl

@[simp] theorem createTransmitterOnce_transmitters_isSome
    (base : GanglionExternalBase) (neuron : Neuron) (synapse : SynapseId)
    (name : String) :
    ((base.createTransmitterOnce neuron synapse).transmitters name).isSome =
      (decide (neuron.name = name) || (base.transmitters name).isSome) := by
  unfold createTransmitterOnce
  by_cases same : neuron.name = name
  · subst same
    split
    · next known => simp [known]
    · simp
  · split
    · simp [same]
    · simp [same, PMap.set_of_ne _ _ (Ne.symm same)]

@[simp] theorem createTransmitterOnce_externalTransmitters
    (base : GanglionExternalBase) (neuron : Neuron) (synapse : SynapseId) :
    (base.createTransmitterOnce neuron synapse).externalTransmitters =
      base.externalTransmitters := by
  unfold createTransmitterOnce
  split <;> rfl

@[simp] theorem createExternalTransmitterOnce_transmitters
    (base : GanglionExternalBase) (neuron : Neuron) (synapse : SynapseId) :
    (base.createExternalTransmitterOnce neuron synapse).transmitters =
      base.transmitters := by
  unfold createExternalTransmitterOnce
  split <;> rfl

@[simp] theorem createExternalTransmitterOnce_isSome
    (base : GanglionExternalBase) (neuron : Neuron) (synapse : SynapseId)
    (name : String) :
    ((base.createExternalTransmitterOnce neuron
        synapse).externalTransmitters name).isSome =
      (decide (neuron.name = name) ||
        (base.externalTransmitters name).isSome) := by
  unfold createExternalTransmitterOnce
  by_cases same : neuron.name = name
  · subst same
    split
    · next known => simp [known]
    · simp
  · split
    · simp [same]
    · simp [same, PMap.set_of_ne _ _ (Ne.symm same)]

@[simp] theorem updateTransmitter_synapses
    (base : GanglionExternalBase) (neuron : Neuron) (synapse : SynapseId) :
    (base.updateTransmitter neuron synapse).synapses = base.synapses := by
  simp [updateTransmitter]

@[simp] theorem updateTransmitter_filters
    (base : GanglionExternalBase) (neuron : Neuron) (synapse : SynapseId) :
    (base.updateTransmitter neuron synapse).filters = base.filters := by
  simp [updateTransmitter]

@[simp] theorem updateTransmitter_nameNeurons
    (base : GanglionExternalBase) (neuron : Neuron) (synapse : SynapseId) :
    (base.updateTransmitter neuron synapse).nameNeurons =
      base.nameNeurons := by
  simp [updateTransmitter]

@[simp] theorem createExternalTransmitter_nameNeurons_isSome
    (base : GanglionExternalBase) (neuron : Neuron) (synapse : SynapseId)
    (name : String) :
    ((base.createExternalTransmitter neuron synapse).nameNeurons name).isSome =
      (decide (neuron.name = name) || (base.nameNeurons name).isSome) := by
  unfold createExternalTransmitter updateNameNeurons
  rw [createExternalTransmitterOnce_nameNeurons]
  cases known : base.nameNeurons neuron.name with
  | some first =>
      by_cases same : neuron.name = name
      · simp [← same, known]
      · simp [same]
  | none =>
      by_cases same : neuron.name = name
      · simp [← same]
      · simp [same, PMap.set_of_ne _ _ (Ne.symm same)]

@[simp] theorem createExternalTransmitter_filters
    (base : GanglionExternalBase) (neuron : Neuron) (synapse : SynapseId) :
    (base.createExternalTransmitter neuron synapse).filters =
      base.filters := by
  unfold createExternalTransmitter updateNameNeurons
  split <;> simp

@[simp] theorem createExternalTransmitter_synapses
    (base : GanglionExternalBase) (neuron : Neuron) (synapse : SynapseId) :
    (base.createExternalTransmitter neuron synapse).synapses =
      base.synapses := by
  simp [createExternalTransmitter]

end GanglionExternalBase

end Plexo
