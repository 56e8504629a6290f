import Plexo.Ganglion.External
import Plexo.Synapse.Epgm

/-!
# Ganglia as objects

A ganglion with the dendrites of its synapses, for both base classes.
`GanglionInternalBase` keeps the same maps as `GanglionExternalBase`, except
that it has no external transmitters and registers the names of neurons when it
updates a transmitter.

Synapses are taken to be created without failure, as they are unless a socket
fails.
-/

namespace Plexo

open PersistentMap

/-- The identity of a ganglion: the one that a plexus makes for itself, or one
that it is given. -/
inductive GanglionId where
  | own
  | other (index : Nat)
  deriving DecidableEq

/-- The class of a ganglion: `GanglionInproc`, or one that derives from
`GanglionExternalBase`.  `isinstance(ganglion, GanglionExternal)` compares with
the classes that a class names as its bases, since `GanglionExternal` is not a
protocol itself; no class of the repository is `declared` in this sense. -/
inductive GanglionClass where
  | inproc
  | external (declared : Bool)
  deriving DecidableEq

/-- `isinstance(ganglion, GanglionExternal)`. -/
def GanglionClass.isGanglionExternal : GanglionClass → Bool
  | .external declared => declared
  | .inproc => false

/-- A reactant: one of a user, attached through a plexus or to one of the ganglia
that it is given, or a `partial` object that a plexus has made of one of its
reactions and a ganglion.  Two `partial` objects are never equal. -/
inductive Reactant where
  | user (reactant : ReactantId)
  | attached (reactant : ReactantId)
  | internalReaction (object : Nat) (current : GanglionId)
  | externalInternalReaction (object : Nat) (current : GanglionId)
  deriving DecidableEq

/-- A `partial` object of `_external_external_reaction`, the only raw reactants
there are behind a plexus. -/
structure RawReactant where
  object : Nat
  current : GanglionId
  deriving DecidableEq

/-- `DecoderDendrite`; a `Dendrite` is one without raw reactants. -/
structure DecoderDendrite where
  neuron : Neuron
  reactants : List Reactant := []
  rawReactants : List RawReactant := []

namespace DecoderDendrite

def addReactants (dendrite : DecoderDendrite) (reactants : List Reactant) :
    DecoderDendrite :=
  { dendrite with reactants := addReactantsTo dendrite.reactants reactants }

def addRawReactants (dendrite : DecoderDendrite)
    (rawReactants : List RawReactant) : DecoderDendrite :=
  { dendrite with
    rawReactants := addReactantsTo dendrite.rawReactants rawReactants }

end DecoderDendrite

/-- A synapse is registered under the name of its neuron, and transmitters
transmit on the synapse of their name and encode with a neuron of that name. -/
structure GanglionExternalBase.Connected (base : GanglionExternalBase)
    (objects : SynapseId → DecoderDendrite) (nextObject : SynapseId) :
    Prop where
  named : ∀ {name synapse}, base.synapses name = some synapse →
    synapse < nextObject ∧ (objects synapse).neuron.name = name
  transmitters : ∀ {name transmitter},
    base.transmitters name = some transmitter →
      base.synapses name = some transmitter.synapse
  encoders : ∀ {name transmitter},
    base.transmitters name = some transmitter →
      transmitter.encoder.name = name
  externalTransmitters : ∀ {name synapse},
    base.externalTransmitters name = some synapse →
      base.synapses name = some synapse

structure Ganglion where
  cls : GanglionClass
  base : GanglionExternalBase
  objects : SynapseId → DecoderDendrite
  nextObject : SynapseId
  connected : base.Connected objects nextObject

namespace GanglionExternalBase.Connected

variable {base : GanglionExternalBase} {objects : SynapseId → DecoderDendrite}
  {nextObject : SynapseId}

theorem create (connected : base.Connected objects nextObject) {neuron : Neuron}
    (absent : base.synapses neuron.name = none) :
    ({ base with synapses := base.synapses.set neuron.name nextObject } :
      GanglionExternalBase).Connected
        (Function.update objects nextObject { neuron }) (nextObject + 1) := by
  have stays : ∀ {name synapse}, base.synapses name = some synapse →
      base.synapses.set neuron.name nextObject name = some synapse := by
    intro name synapse known
    rw [PMap.set_of_ne _ _ (by rintro rfl; simp [absent] at known)]
    exact known
  constructor
  · intro name synapse found
    rcases (PMap.set_eq_some_iff ..).mp found with ⟨rfl, rfl⟩ | ⟨_, known⟩
    · exact ⟨Nat.lt_succ_self _, by simp⟩
    · obtain ⟨bound, named⟩ := connected.named known
      refine ⟨Nat.lt_succ_of_lt bound, ?_⟩
      rw [Function.update_of_ne (Nat.ne_of_lt bound)]
      exact named
  · exact fun found => stays (connected.transmitters found)
  · exact connected.encoders
  · exact fun found => stays (connected.externalTransmitters found)

theorem update (connected : base.Connected objects nextObject)
    (synapse : SynapseId) {dendrite : DecoderDendrite}
    (same : dendrite.neuron = (objects synapse).neuron) :
    base.Connected (Function.update objects synapse dendrite) nextObject := by
  constructor
  · intro name other found
    obtain ⟨bound, named⟩ := connected.named found
    refine ⟨bound, ?_⟩
    by_cases equal : other = synapse
    · subst equal
      rw [Function.update_self, same]
      exact named
    · rw [Function.update_of_ne equal]
      exact named
  · exact connected.transmitters
  · exact connected.encoders
  · exact connected.externalTransmitters

theorem createTransmitterOnce (connected : base.Connected objects nextObject)
    {neuron : Neuron} {synapse : SynapseId}
    (known : base.synapses neuron.name = some synapse) :
    (base.createTransmitterOnce neuron synapse).Connected objects
      nextObject := by
  unfold GanglionExternalBase.createTransmitterOnce
  split
  · exact connected
  · refine ⟨connected.named, ?_, ?_, connected.externalTransmitters⟩
    · intro name other found
      rcases (PMap.set_eq_some_iff ..).mp found with ⟨rfl, rfl⟩ | ⟨_, before⟩
      · exact known
      · exact connected.transmitters before
    · intro name other found
      rcases (PMap.set_eq_some_iff ..).mp found with ⟨rfl, rfl⟩ | ⟨_, before⟩
      · rfl
      · exact connected.encoders before

theorem createExternalTransmitterOnce
    (connected : base.Connected objects nextObject) {neuron : Neuron}
    {synapse : SynapseId} (known : base.synapses neuron.name = some synapse) :
    (base.createExternalTransmitterOnce neuron synapse).Connected objects
      nextObject := by
  unfold GanglionExternalBase.createExternalTransmitterOnce
  split
  · exact connected
  · refine ⟨connected.named, connected.transmitters, connected.encoders, ?_⟩
    intro name other found
    rcases (PMap.set_eq_some_iff ..).mp found with ⟨rfl, rfl⟩ | ⟨_, before⟩
    · exact known
    · exact connected.externalTransmitters before

theorem updateNameNeurons (connected : base.Connected objects nextObject)
    (neuron : Neuron) :
    (base.updateNameNeurons neuron).Connected objects nextObject := by
  unfold GanglionExternalBase.updateNameNeurons
  split
  · exact connected
  · exact ⟨connected.named, connected.transmitters, connected.encoders,
      connected.externalTransmitters⟩

end GanglionExternalBase.Connected

namespace Ganglion

def init (cls : GanglionClass) (filters : Filters) : Ganglion :=
  { cls
    base := { filters }
    objects := fun _ => { neuron := .init "" plexoNamespace ⟨"", ""⟩ none }
    nextObject := 0
    connected := by constructor <;> simp }

def capable (ganglion : Ganglion) (neuron : Neuron) : Bool :=
  ganglion.base.capable neuron

/-- `get_synapse`: a missing synapse is created. -/
def getSynapse (ganglion : Ganglion) (neuron : Neuron) : SynapseId × Ganglion :=
  match absent : ganglion.base.synapses neuron.name with
  | some synapse => (synapse, ganglion)
  | none =>
      (ganglion.nextObject,
        { ganglion with
          base := { ganglion.base with
            synapses :=
              ganglion.base.synapses.set neuron.name ganglion.nextObject }
          objects :=
            Function.update ganglion.objects ganglion.nextObject { neuron }
          nextObject := ganglion.nextObject + 1
          connected := ganglion.connected.create absent })

theorem getSynapse_known (ganglion : Ganglion) (neuron : Neuron) :
    (ganglion.getSynapse neuron).2.base.synapses neuron.name =
      some (ganglion.getSynapse neuron).1 := by
  unfold getSynapse
  split
  · assumption
  · simp

/-- `react`. -/
def react (ganglion : Ganglion) (neuron : Neuron) (reactants : List Reactant) :
    Ganglion :=
  let (synapse, ganglion) := ganglion.getSynapse neuron
  { ganglion with
    objects := Function.update ganglion.objects synapse
      ((ganglion.objects synapse).addReactants reactants)
    connected := ganglion.connected.update synapse rfl }

/-- `react_raw`. -/
def reactRaw (ganglion : Ganglion) (neuron : Neuron)
    (rawReactants : List RawReactant) : Ganglion :=
  let (synapse, ganglion) := ganglion.getSynapse neuron
  { ganglion with
    objects := Function.update ganglion.objects synapse
      ((ganglion.objects synapse).addRawReactants rawReactants)
    connected := ganglion.connected.update synapse rfl }

/-- `update_transmitter` of both base classes. -/
def updateTransmitter (ganglion : Ganglion) (neuron : Neuron) : Ganglion :=
  let synapse := (ganglion.getSynapse neuron).1
  let found := (ganglion.getSynapse neuron).2
  have known := ganglion.getSynapse_known neuron
  match found.cls with
  | .inproc =>
      { found with
        base :=
          (found.base.createTransmitterOnce neuron synapse).updateNameNeurons
            neuron
        connected := (found.connected.createTransmitterOnce
          known).updateNameNeurons neuron }
  | .external _ =>
      { found with
        base := found.base.updateTransmitter neuron synapse
        connected := (found.connected.createTransmitterOnce
          known).createExternalTransmitterOnce (by simpa using known) }

/-- `adapt` of both base classes; the internal one has no raw reactants. -/
def adapt (ganglion : Ganglion) (neuron : Neuron) (reactants : List Reactant)
    (rawReactants : List RawReactant) : Ganglion :=
  if ganglion.capable neuron = false then
    ganglion
  else
    let ganglion :=
      if reactants = [] then ganglion else ganglion.react neuron reactants
    let ganglion :=
      if rawReactants = [] then ganglion
      else ganglion.reactRaw neuron rawReactants
    ganglion.updateTransmitter neuron

/-- The part of `adapt` before an exception. -/
def adaptPartly (ganglion : Ganglion) (neuron : Neuron)
    (reactants : List Reactant) (rawReactants : List RawReactant)
    (attached attachedRaw : Bool) : Ganglion :=
  let ganglion :=
    if attached then ganglion.react neuron reactants else ganglion
  if attachedRaw then ganglion.reactRaw neuron rawReactants else ganglion

def dendrite? (ganglion : Ganglion) (name : String) : Option DecoderDendrite :=
  (ganglion.base.synapses name).map ganglion.objects

/-- The dendrite of a neuron, or the one that it would get. -/
def dendriteOf (ganglion : Ganglion) (neuron : Neuron) : DecoderDendrite :=
  (ganglion.dendrite? neuron.name).getD { neuron }

def hasTransmitter (ganglion : Ganglion) (name : String) : Bool :=
  (ganglion.base.transmitters name).isSome

def hasExternalTransmitter (ganglion : Ganglion) (name : String) : Bool :=
  (ganglion.base.externalTransmitters name).isSome

/-- An operation that changes no more than the dendrite of a neuron. -/
structure Changes (before after : Ganglion) (neuron : Neuron)
    (dendrite : DecoderDendrite) : Prop where
  cls : after.cls = before.cls
  filters : after.base.filters = before.base.filters
  dendrite? : ∀ name, after.dendrite? name =
    if name = neuron.name then some dendrite else before.dendrite? name

theorem dendrite?_update (ganglion : Ganglion) {name : String}
    {synapse : SynapseId} (known : ganglion.base.synapses name = some synapse)
    (dendrite : DecoderDendrite) (other : String) :
    (ganglion.base.synapses other).map
        (Function.update ganglion.objects synapse dendrite) =
      if other = name then some dendrite else ganglion.dendrite? other := by
  by_cases same : other = name
  · subst same
    simp [known]
  · rw [if_neg same, Ganglion.dendrite?]
    cases found : ganglion.base.synapses other with
    | none => rfl
    | some found_ =>
        have different : found_ ≠ synapse := by
          intro equal
          subst equal
          apply same
          rw [← (ganglion.connected.named found).2,
            (ganglion.connected.named known).2]
        simp [Function.update_of_ne different]

theorem getSynapse_changes (ganglion : Ganglion) (neuron : Neuron) :
    Changes ganglion (ganglion.getSynapse neuron).2 neuron
      (ganglion.dendriteOf neuron) := by
  unfold getSynapse
  split
  · next synapse known =>
      refine ⟨rfl, rfl, ?_⟩
      intro name
      by_cases same : name = neuron.name
      · subst same
        simp [dendriteOf, Ganglion.dendrite?, known]
      · rw [if_neg same]
  · next absent =>
      refine ⟨rfl, rfl, ?_⟩
      intro name
      by_cases same : name = neuron.name
      · subst same
        simp [dendriteOf, Ganglion.dendrite?, absent]
      · rw [if_neg same]
        simp only [Ganglion.dendrite?, PMap.set_of_ne _ _ same]
        cases found : ganglion.base.synapses name with
        | none => rfl
        | some synapse =>
            have different := Nat.ne_of_lt (ganglion.connected.named found).1
            simp [Function.update_of_ne different]

theorem getSynapse_object (ganglion : Ganglion) (neuron : Neuron) :
    (ganglion.getSynapse neuron).2.objects (ganglion.getSynapse neuron).1 =
      ganglion.dendriteOf neuron := by
  have changed := (ganglion.getSynapse_changes neuron).dendrite? neuron.name
  rw [if_pos rfl, Ganglion.dendrite?, getSynapse_known] at changed
  exact Option.some.inj changed

@[simp] theorem getSynapse_transmitters (ganglion : Ganglion)
    (neuron : Neuron) : (ganglion.getSynapse neuron).2.base.transmitters =
      ganglion.base.transmitters := by
  unfold getSynapse
  split <;> rfl

@[simp] theorem getSynapse_externalTransmitters (ganglion : Ganglion)
    (neuron : Neuron) :
    (ganglion.getSynapse neuron).2.base.externalTransmitters =
      ganglion.base.externalTransmitters := by
  unfold getSynapse
  split <;> rfl

theorem react_changes (ganglion : Ganglion) (neuron : Neuron)
    (reactants : List Reactant) :
    Changes ganglion (ganglion.react neuron reactants) neuron
      ((ganglion.dendriteOf neuron).addReactants reactants) := by
  have found := ganglion.getSynapse_changes neuron
  refine ⟨found.cls, found.filters, ?_⟩
  intro name
  rw [Ganglion.dendrite?, react, ← getSynapse_object]
  rw [dendrite?_update _ (ganglion.getSynapse_known neuron), found.dendrite?]
  split <;> rfl

theorem reactRaw_changes (ganglion : Ganglion) (neuron : Neuron)
    (rawReactants : List RawReactant) :
    Changes ganglion (ganglion.reactRaw neuron rawReactants) neuron
      ((ganglion.dendriteOf neuron).addRawReactants rawReactants) := by
  have found := ganglion.getSynapse_changes neuron
  refine ⟨found.cls, found.filters, ?_⟩
  intro name
  rw [Ganglion.dendrite?, reactRaw, ← getSynapse_object]
  rw [dendrite?_update _ (ganglion.getSynapse_known neuron), found.dendrite?]
  split <;> rfl

theorem updateTransmitter_changes (ganglion : Ganglion) (neuron : Neuron) :
    Changes ganglion (ganglion.updateTransmitter neuron) neuron
      (ganglion.dendriteOf neuron) := by
  have found := ganglion.getSynapse_changes neuron
  unfold updateTransmitter
  dsimp only
  split
  · refine ⟨found.cls, by simpa using found.filters, ?_⟩
    intro name
    rw [← found.dendrite?]
    simp [Ganglion.dendrite?]
  · refine ⟨found.cls, by simpa using found.filters, ?_⟩
    intro name
    rw [← found.dendrite?]
    simp [Ganglion.dendrite?]

theorem updateTransmitter_hasTransmitter (ganglion : Ganglion)
    (neuron : Neuron) (name : String) :
    (ganglion.updateTransmitter neuron).hasTransmitter name =
      (decide (neuron.name = name) || ganglion.hasTransmitter name) := by
  unfold updateTransmitter hasTransmitter
  dsimp only
  split
  · simp
  · simp [GanglionExternalBase.updateTransmitter]

theorem updateTransmitter_hasExternalTransmitter (ganglion : Ganglion)
    (neuron : Neuron) (name : String) :
    (ganglion.updateTransmitter neuron).hasExternalTransmitter name =
      ((decide (ganglion.cls ≠ .inproc) && decide (neuron.name = name)) ||
        ganglion.hasExternalTransmitter name) := by
  have sameClass := (ganglion.getSynapse_changes neuron).cls
  unfold updateTransmitter hasExternalTransmitter
  dsimp only
  split
  · next isInproc =>
      rw [sameClass] at isInproc
      simp [isInproc]
  · next isExternal =>
      rw [sameClass] at isExternal
      simp [isExternal, GanglionExternalBase.updateTransmitter]

@[simp] theorem react_transmitters (ganglion : Ganglion) (neuron : Neuron)
    (reactants : List Reactant) :
    (ganglion.react neuron reactants).base.transmitters =
      ganglion.base.transmitters := by
  simp [react]

@[simp] theorem react_externalTransmitters (ganglion : Ganglion)
    (neuron : Neuron) (reactants : List Reactant) :
    (ganglion.react neuron reactants).base.externalTransmitters =
      ganglion.base.externalTransmitters := by
  simp [react]

@[simp] theorem reactRaw_transmitters (ganglion : Ganglion) (neuron : Neuron)
    (rawReactants : List RawReactant) :
    (ganglion.reactRaw neuron rawReactants).base.transmitters =
      ganglion.base.transmitters := by
  simp [reactRaw]

@[simp] theorem reactRaw_externalTransmitters (ganglion : Ganglion)
    (neuron : Neuron) (rawReactants : List RawReactant) :
    (ganglion.reactRaw neuron rawReactants).base.externalTransmitters =
      ganglion.base.externalTransmitters := by
  simp [reactRaw]

theorem getSynapse_synapses {ganglion : Ganglion} (neuron : Neuron)
    {name : String} {synapse : SynapseId}
    (known : ganglion.base.synapses name = some synapse) :
    (ganglion.getSynapse neuron).2.base.synapses name = some synapse := by
  unfold getSynapse
  split
  · exact known
  · next absent =>
      have different : name ≠ neuron.name := by
        rintro rfl
        rw [absent] at known
        cases known
      exact (PersistentMap.PMap.set_of_ne _ _ different).trans known

theorem updateTransmitter_base_synapses (ganglion : Ganglion) (neuron : Neuron) :
    (ganglion.updateTransmitter neuron).base.synapses =
      (ganglion.getSynapse neuron).2.base.synapses := by
  unfold updateTransmitter
  dsimp only
  split
  · simp
  · simp

theorem updateTransmitter_synapses {ganglion : Ganglion} (neuron : Neuron)
    {name : String} {synapse : SynapseId}
    (known : ganglion.base.synapses name = some synapse) :
    (ganglion.updateTransmitter neuron).base.synapses name = some synapse := by
  rw [updateTransmitter_base_synapses]
  exact getSynapse_synapses neuron known

theorem adapt_synapses {ganglion : Ganglion} (neuron : Neuron)
    (reactants : List Reactant) (rawReactants : List RawReactant)
    {name : String} {synapse : SynapseId}
    (known : ganglion.base.synapses name = some synapse) :
    (ganglion.adapt neuron reactants rawReactants).base.synapses name =
      some synapse := by
  unfold adapt
  split
  · exact known
  · apply updateTransmitter_synapses
    split
    · split
      · exact known
      · exact getSynapse_synapses neuron known
    · apply getSynapse_synapses
      split
      · exact known
      · exact getSynapse_synapses neuron known

theorem adapt_known {ganglion : Ganglion} {neuron : Neuron}
    (capable : ganglion.capable neuron = true) (reactants : List Reactant)
    (rawReactants : List RawReactant) :
    ∃ synapse, (ganglion.adapt neuron reactants
      rawReactants).base.synapses neuron.name = some synapse := by
  simp only [adapt, capable, Bool.true_eq_false, if_false,
    updateTransmitter_base_synapses]
  exact ⟨_, getSynapse_known _ neuron⟩

theorem Changes.trans {first second third : Ganglion} {neuron : Neuron}
    {middle last : DecoderDendrite} (before : Changes first second neuron middle)
    (after : Changes second third neuron last) :
    Changes first third neuron last := by
  refine ⟨after.cls.trans before.cls, after.filters.trans before.filters, ?_⟩
  intro name
  rw [after.dendrite?, before.dendrite?]
  split <;> rfl

theorem Changes.dendriteOf {before after : Ganglion} {neuron : Neuron}
    {dendrite : DecoderDendrite}
    (changed : Changes before after neuron dendrite) :
    after.dendriteOf neuron = dendrite := by
  simp [Ganglion.dendriteOf, changed.dendrite?]

theorem adapt_of_not_capable {ganglion : Ganglion} {neuron : Neuron}
    (incapable : ganglion.capable neuron = false) (reactants : List Reactant)
    (rawReactants : List RawReactant) :
    ganglion.adapt neuron reactants rawReactants = ganglion := by
  simp [adapt, incapable]

theorem adapt_changes {ganglion : Ganglion} {neuron : Neuron}
    (capable : ganglion.capable neuron = true) (reactants : List Reactant)
    (rawReactants : List RawReactant) :
    Changes ganglion (ganglion.adapt neuron reactants rawReactants) neuron
      (((ganglion.dendriteOf neuron).addReactants reactants).addRawReactants
        rawReactants) := by
  simp only [adapt, capable, Bool.true_eq_false, if_false]
  by_cases none : reactants = []
  · subst none
    rw [if_pos rfl]
    by_cases noneRaw : rawReactants = []
    · subst noneRaw
      exact ganglion.updateTransmitter_changes neuron
    · rw [if_neg noneRaw]
      have raw := ganglion.reactRaw_changes neuron rawReactants
      have last := updateTransmitter_changes
        (ganglion.reactRaw neuron rawReactants) neuron
      rw [raw.dendriteOf] at last
      exact raw.trans last
  · rw [if_neg none]
    have decoded := ganglion.react_changes neuron reactants
    by_cases noneRaw : rawReactants = []
    · subst noneRaw
      have last := updateTransmitter_changes
        (ganglion.react neuron reactants) neuron
      rw [decoded.dendriteOf] at last
      exact decoded.trans last
    · rw [if_neg noneRaw]
      have raw := reactRaw_changes (ganglion.react neuron reactants) neuron
        rawReactants
      rw [decoded.dendriteOf] at raw
      have last := updateTransmitter_changes
        ((ganglion.react neuron reactants).reactRaw neuron rawReactants) neuron
      rw [raw.dendriteOf] at last
      exact decoded.trans (raw.trans last)

theorem adapt_keeps (ganglion : Ganglion) (neuron : Neuron)
    (reactants : List Reactant) (rawReactants : List RawReactant) :
    (ganglion.adapt neuron reactants rawReactants).cls = ganglion.cls ∧
      (ganglion.adapt neuron reactants rawReactants).base.filters =
        ganglion.base.filters := by
  cases capable : ganglion.capable neuron with
  | false =>
      rw [adapt_of_not_capable capable]
      exact ⟨rfl, rfl⟩
  | true =>
      have changed := adapt_changes capable reactants rawReactants
      exact ⟨changed.cls, changed.filters⟩

theorem adaptPartly_keeps (ganglion : Ganglion) (neuron : Neuron)
    (reactants : List Reactant) (rawReactants : List RawReactant)
    (attached attachedRaw : Bool) :
    (ganglion.adaptPartly neuron reactants rawReactants attached
        attachedRaw).cls = ganglion.cls ∧
      (ganglion.adaptPartly neuron reactants rawReactants attached
        attachedRaw).base.filters = ganglion.base.filters := by
  have decoded := ganglion.react_changes neuron reactants
  unfold adaptPartly
  cases attached <;> cases attachedRaw <;>
    simp [decoded.cls, decoded.filters, (reactRaw_changes ..).cls,
      (reactRaw_changes ..).filters]

theorem adapt_hasTransmitter {ganglion : Ganglion} {neuron : Neuron}
    (capable : ganglion.capable neuron = true) (reactants : List Reactant)
    (rawReactants : List RawReactant) (name : String) :
    (ganglion.adapt neuron reactants rawReactants).hasTransmitter name =
      (decide (neuron.name = name) || ganglion.hasTransmitter name) := by
  simp only [adapt, capable, Bool.true_eq_false, if_false,
    updateTransmitter_hasTransmitter]
  split <;> split <;> simp [hasTransmitter]

theorem adapt_hasExternalTransmitter {ganglion : Ganglion} {neuron : Neuron}
    (capable : ganglion.capable neuron = true) (reactants : List Reactant)
    (rawReactants : List RawReactant) (name : String) :
    (ganglion.adapt neuron reactants
        rawReactants).hasExternalTransmitter name =
      ((decide (ganglion.cls ≠ .inproc) && decide (neuron.name = name)) ||
        ganglion.hasExternalTransmitter name) := by
  simp only [adapt, capable, Bool.true_eq_false, if_false,
    updateTransmitter_hasExternalTransmitter]
  split <;> split <;>
    simp [hasExternalTransmitter, (react_changes ..).cls,
      (reactRaw_changes ..).cls]

end Ganglion

end Plexo
