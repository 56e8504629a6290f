import Mathlib.Data.List.Dedup
import Mathlib.Data.List.Pairwise
import Plexo.Ganglion.Object

/-!
# How a plexus wires its ganglia

A plexus adapts every ganglion to every neuron that it has been adapted to, with
one of its own reactions as the reactant, and keeps a set of the pairs for which
it has done so.
-/

namespace Plexo

structure Plexus where
  /-- The ganglion objects. -/
  ganglion : GanglionId → Ganglion
  internalGanglia : List GanglionId
  externalGanglia : List GanglionId
  neurons : List Neuron
  neuronGanglia : List (Neuron × GanglionId)
  filters : Filters
  /-- The next `partial` object. -/
  nextPartial : Nat

namespace Plexus

/-- `isinstance(ganglion, GanglionExternal)`. -/
def isGanglionExternal (plexus : Plexus) (ganglion : GanglionId) : Bool :=
  (plexus.ganglion ganglion).cls.isGanglionExternal

/-- `__init__`, for ganglia that have not been used yet.  `outside` are all
ganglia there are, of which the plexus is `given` some. -/
def init (outside : Nat → GanglionClass × Filters) (given : List Nat)
    (relevantNeurons ignoredNeurons : List Neuron) : Plexus :=
  let filters : Filters := { relevantNeurons, ignoredNeurons }
  let ganglia := (given.map GanglionId.other).dedup
  let ganglion : GanglionId → Ganglion
    | .own => .init .inproc filters
    | .other index => .init (outside index).1 (outside index).2
  { ganglion
    internalGanglia := .own ::
      ganglia.filter fun id => !(ganglion id).cls.isGanglionExternal
    externalGanglia :=
      ganglia.filter fun id => (ganglion id).cls.isGanglionExternal
    neurons := []
    neuronGanglia := []
    filters
    nextPartial := 0 }

/-- `itertools.chain(self._internal_ganglia, self._external_ganglia)`. -/
def ganglia (plexus : Plexus) : List GanglionId :=
  plexus.internalGanglia ++ plexus.externalGanglia

/-- `capable`: a plexus has no `allowed_codecs`. -/
def capable (plexus : Plexus) (neuron : Neuron) : Bool :=
  plexus.filters.capable neuron

/-- `pair in self._neuron_ganglia`. -/
def knows (plexus : Plexus) (pair : Neuron × GanglionId) : Bool :=
  plexus.neuronGanglia.any fun known =>
    known.1.name = pair.1.name && known.2 = pair.2

/-- The `partial` objects that a pair is adapted with. -/
def reactionsFor (plexus : Plexus) (id : GanglionId) :
    List Reactant × List RawReactant :=
  if plexus.isGanglionExternal id then
    ([.externalInternalReaction plexus.nextPartial id],
      [⟨plexus.nextPartial + 1, id⟩])
  else
    ([.internalReaction plexus.nextPartial id], [])

/-- `adapt` of the ganglion of a pair. -/
def adaptGanglion (plexus : Plexus) (pair : Neuron × GanglionId) : Plexus :=
  let (neuron, id) := pair
  let (reactants, rawReactants) := plexus.reactionsFor id
  { plexus with
    ganglion := Function.update plexus.ganglion id
      ((plexus.ganglion id).adapt neuron reactants rawReactants)
    nextPartial := plexus.nextPartial + 2 }

/-- What `adapt` of the ganglion of a pair leaves behind when it raises: it may
have attached its reactants before. -/
def failGanglion (plexus : Plexus) (pair : Neuron × GanglionId)
    (attached attachedRaw : Bool) : Plexus :=
  let (neuron, id) := pair
  let (reactants, rawReactants) := plexus.reactionsFor id
  { plexus with
    ganglion := Function.update plexus.ganglion id
      ((plexus.ganglion id).adaptPartly neuron reactants rawReactants attached
        attachedRaw)
    nextPartial := plexus.nextPartial + 2 }

/-- `itertools.product(self._neurons, all_ganglia)`. -/
def allNeuronGanglia (plexus : Plexus) : List (Neuron × GanglionId) :=
  plexus.neurons.flatMap fun neuron => plexus.ganglia.map fun id => (neuron, id)

/-- The critical section of `_update_neuron_ganglia`: the pairs that it has to
adapt now. -/
def updateNeuronGanglia (plexus : Plexus) :
    List (Neuron × GanglionId) × Plexus :=
  (plexus.allNeuronGanglia.filter fun pair => !plexus.knows pair,
    { plexus with neuronGanglia := plexus.allNeuronGanglia })

/-- `_update_neurons`: the set keeps the neuron that it knows. -/
def updateNeurons (plexus : Plexus) (neuron : Neuron) :
    List (Neuron × GanglionId) × Plexus :=
  updateNeuronGanglia
    { plexus with
      neurons := if neuron.isIn plexus.neurons then plexus.neurons
        else plexus.neurons ++ [neuron] }

def onGanglion (plexus : Plexus) (id : GanglionId)
    (operation : Ganglion → Ganglion) : Plexus :=
  { plexus with
    ganglion := Function.update plexus.ganglion id
      (operation (plexus.ganglion id)) }

/-- `react`. -/
def react (plexus : Plexus) (neuron : Neuron) (reactants : List ReactantId) :
    Plexus :=
  plexus.onGanglion .own (·.react neuron (reactants.map .user))

/-- `react` of a ganglion that the plexus is given. -/
def attach (plexus : Plexus) (index : Nat) (neuron : Neuron)
    (reactants : List ReactantId) : Plexus :=
  plexus.onGanglion (.other index) (·.react neuron (reactants.map .attached))

/-- `inproc_ganglion.update_transmitter`. -/
def updateInproc (plexus : Plexus) (neuron : Neuron) : Plexus :=
  plexus.onGanglion .own (·.updateTransmitter neuron)

/-- The first half of `infuse_ganglion`. -/
def addGanglion (plexus : Plexus) (ganglion : GanglionId) : Plexus :=
  if plexus.isGanglionExternal ganglion then
    { plexus with
      externalGanglia := plexus.externalGanglia.insert ganglion }
  else
    { plexus with
      internalGanglia := plexus.internalGanglia.insert ganglion }

/-- The neuron of a name that the plexus has adapted its ganglia to: the first
one it has met. -/
def registered (plexus : Plexus) (neuron : Neuron) : Option Neuron :=
  plexus.neurons.find? fun known => known.name = neuron.name

end Plexus

namespace Ganglion

def reactantsOf (ganglion : Ganglion) (name : String) : List Reactant :=
  ((ganglion.dendrite? name).map (·.reactants)).getD []

def rawReactantsOf (ganglion : Ganglion) (name : String) : List RawReactant :=
  ((ganglion.dendrite? name).map (·.rawReactants)).getD []

end Ganglion

def Reactant.isUser : Reactant → Bool
  | .user _ => true
  | .attached _ => true
  | _ => false

/-- A reactant that can be on the dendrites of a ganglion: one of a user, or the
reaction that the plexus forwards from there with. -/
def Reactant.belongs (ganglion : Ganglion) (id : GanglionId) :
    Reactant → Prop
  | .user _ => id = .own
  | .attached _ => id ≠ .own
  | .internalReaction _ current =>
      current = id ∧ ganglion.cls.isGanglionExternal = false
  | .externalInternalReaction _ current =>
      current = id ∧ ganglion.cls.isGanglionExternal = true

/-- What a plexus makes of a ganglion and a name: if it is `adapted`, there is
one reaction on the dendrite and a transmitter, else there are neither. -/
structure Station (ganglion : Ganglion) (id : GanglionId) (name : String)
    (adapted : Prop) : Prop where
  belongs : ∀ reactant ∈ ganglion.reactantsOf name,
    reactant.belongs ganglion id
  nodup : (ganglion.reactantsOf name).Nodup
  reactions : ((ganglion.reactantsOf name).countP (!·.isUser) = 1 ∧ adapted) ∨
    ((ganglion.reactantsOf name).countP (!·.isUser) = 0 ∧ ¬ adapted)
  rawReactants :
    (∃ object, ganglion.rawReactantsOf name = [⟨object, id⟩] ∧ adapted ∧
      ganglion.cls.isGanglionExternal = true) ∨
    (ganglion.rawReactantsOf name = [] ∧
      ¬ (adapted ∧ ganglion.cls.isGanglionExternal = true))
  transmitter : adapted → ganglion.hasTransmitter name = true
  noTransmitter : ¬ adapted → id ≠ .own → ganglion.hasTransmitter name = false
  externalTransmitter : ganglion.cls ≠ .inproc →
    ganglion.hasExternalTransmitter name = ganglion.hasTransmitter name

theorem Reactant.belongs_congr {before after : Ganglion}
    (cls : after.cls = before.cls) {id : GanglionId} (reactant : Reactant) :
    reactant.belongs after id ↔ reactant.belongs before id := by
  cases reactant <;> simp [belongs, cls]

namespace Station

theorem congr {before after : Ganglion} {id : GanglionId} {name : String}
    {adapted : Prop} (station : Station before id name adapted)
    (cls : after.cls = before.cls)
    (dendrite : after.dendrite? name = before.dendrite? name)
    (transmitter : after.hasTransmitter name = before.hasTransmitter name)
    (externalTransmitter : after.hasExternalTransmitter name =
      before.hasExternalTransmitter name) : Station after id name adapted := by
  have reactants : after.reactantsOf name = before.reactantsOf name := by
    rw [Ganglion.reactantsOf, dendrite, Ganglion.reactantsOf]
  have rawReactants : after.rawReactantsOf name =
      before.rawReactantsOf name := by
    rw [Ganglion.rawReactantsOf, dendrite, Ganglion.rawReactantsOf]
  constructor
  · intro reactant member
    rw [reactants] at member
    exact (reactant.belongs_congr cls).mpr (station.belongs reactant member)
  · rw [reactants]
    exact station.nodup
  · rw [reactants]
    exact station.reactions
  · rw [rawReactants, cls]
    exact station.rawReactants
  · rw [transmitter]
    exact station.transmitter
  · rw [transmitter]
    exact station.noTransmitter
  · rw [cls, transmitter, externalTransmitter]
    exact station.externalTransmitter

theorem iff {ganglion : Ganglion} {id : GanglionId} {name : String}
    {adapted other : Prop} (station : Station ganglion id name adapted)
    (same : adapted ↔ other) : Station ganglion id name other :=
  propext same ▸ station

theorem init (cls : GanglionClass) (filters : Filters) (id : GanglionId)
    (name : String) : Station (.init cls filters) id name False := by
  constructor <;>
    simp [Ganglion.reactantsOf, Ganglion.rawReactantsOf, Ganglion.dendrite?,
      Ganglion.init, Ganglion.hasTransmitter, Ganglion.hasExternalTransmitter]

end Station

theorem nodup_addReactantsTo {α : Type} [DecidableEq α] {known : List α}
    (nodup : known.Nodup) (reactants : List α) :
    (addReactantsTo known reactants).Nodup := by
  unfold addReactantsTo
  induction reactants generalizing known with
  | nil => exact nodup
  | cons first rest induction =>
      rw [List.foldl_cons]
      apply induction
      split
      · exact nodup
      · next outside =>
          exact List.nodup_append_comm.mp
            (by simpa using ⟨outside, nodup⟩)

theorem countP_addReactantsTo_user (known : List Reactant)
    {reactants : List Reactant}
    (users : ∀ reactant ∈ reactants, reactant.isUser = true) :
    (addReactantsTo known reactants).countP (!·.isUser) =
      known.countP (!·.isUser) := by
  unfold addReactantsTo
  induction reactants generalizing known with
  | nil => rfl
  | cons first rest induction =>
      have isUser := users first List.mem_cons_self
      rw [List.foldl_cons, induction _ fun reactant member =>
        users reactant (List.mem_cons_of_mem _ member)]
      split
      · rfl
      · simp [isUser]

theorem Ganglion.dendriteOf_reactants (ganglion : Ganglion) (neuron : Neuron) :
    (ganglion.dendriteOf neuron).reactants =
      ganglion.reactantsOf neuron.name := by
  unfold dendriteOf reactantsOf
  cases ganglion.dendrite? neuron.name <;> rfl

theorem Ganglion.dendriteOf_rawReactants (ganglion : Ganglion)
    (neuron : Neuron) : (ganglion.dendriteOf neuron).rawReactants =
      ganglion.rawReactantsOf neuron.name := by
  unfold dendriteOf rawReactantsOf
  cases ganglion.dendrite? neuron.name <;> rfl

namespace Station

variable {ganglion : Ganglion} {id : GanglionId} {name : String}
  {adapted : Prop} {neuron : Neuron}

theorem adapt (station : Station ganglion id neuron.name False)
    (capable : ganglion.capable neuron = true) {reactant : Reactant}
    (belongs : reactant.belongs ganglion id) (isReaction : reactant.isUser = false)
    {rawReactants : List RawReactant}
    (raw : (∃ object, rawReactants = [⟨object, id⟩] ∧
        ganglion.cls.isGanglionExternal = true) ∨
      (rawReactants = [] ∧ ganglion.cls.isGanglionExternal = false)) :
    Station (ganglion.adapt neuron [reactant] rawReactants) id neuron.name
      True := by
  have changed := Ganglion.adapt_changes capable [reactant] rawReactants
  have none : (ganglion.reactantsOf neuron.name).countP (!·.isUser) = 0 := by
    rcases station.reactions with ⟨_, impossible⟩ | ⟨none, _⟩
    · exact impossible.elim
    · exact none
  have noneRaw : ganglion.rawReactantsOf neuron.name = [] := by
    rcases station.rawReactants with ⟨_, _, impossible, _⟩ | ⟨none, _⟩
    · exact impossible.elim
    · exact none
  have absent : reactant ∉ ganglion.reactantsOf neuron.name := by
    intro member
    have isUser := List.countP_eq_zero.mp none reactant member
    simp [isReaction] at isUser
  have reactants : (ganglion.adapt neuron [reactant]
      rawReactants).reactantsOf neuron.name =
        ganglion.reactantsOf neuron.name ++ [reactant] := by
    rw [Ganglion.reactantsOf, changed.dendrite?, if_pos rfl]
    simp [DecoderDendrite.addRawReactants, DecoderDendrite.addReactants,
      Ganglion.dendriteOf_reactants, addReactantsTo, absent]
  have raws : (ganglion.adapt neuron [reactant]
      rawReactants).rawReactantsOf neuron.name =
        addReactantsTo [] rawReactants := by
    rw [Ganglion.rawReactantsOf, changed.dendrite?, if_pos rfl]
    simp [DecoderDendrite.addRawReactants, DecoderDendrite.addReactants,
      Ganglion.dendriteOf_rawReactants, noneRaw]
  constructor
  · intro other member
    have fits : other.belongs ganglion id := by
      rw [reactants] at member
      rcases List.mem_append.mp member with old | new
      · exact station.belongs other old
      · rw [List.mem_singleton.mp new]
        exact belongs
    exact (other.belongs_congr changed.cls).mpr fits
  · rw [reactants]
    exact List.nodup_append_comm.mp (by simpa using ⟨absent, station.nodup⟩)
  · rw [reactants, List.countP_append, none]
    simp [isReaction]
  · rw [raws, changed.cls]
    rcases raw with ⟨object, rfl, declared⟩ | ⟨rfl, undeclared⟩
    · exact .inl ⟨object, rfl, trivial, declared⟩
    · exact .inr ⟨rfl, by simp [undeclared]⟩
  · intro _
    simp [Ganglion.adapt_hasTransmitter capable]
  · exact fun impossible => absurd trivial impossible
  · intro external
    rw [changed.cls] at external
    simp [Ganglion.adapt_hasTransmitter capable,
      Ganglion.adapt_hasExternalTransmitter capable, external]

theorem adapt_other (station : Station ganglion id name adapted)
    (different : neuron.name ≠ name) (reactants : List Reactant)
    (rawReactants : List RawReactant) :
    Station (ganglion.adapt neuron reactants rawReactants) id name adapted := by
  cases capable : ganglion.capable neuron with
  | false =>
      rw [Ganglion.adapt_of_not_capable capable]
      exact station
  | true =>
      have changed := Ganglion.adapt_changes capable reactants rawReactants
      apply station.congr changed.cls
      · rw [changed.dendrite?, if_neg (Ne.symm different)]
      · simp [Ganglion.adapt_hasTransmitter capable, different]
      · simp [Ganglion.adapt_hasExternalTransmitter capable, different]

theorem react (station : Station ganglion id name adapted)
    {reactants : List Reactant}
    (users : ∀ reactant ∈ reactants, reactant.isUser = true)
    (belong : ∀ reactant ∈ reactants, reactant.belongs ganglion id) :
    Station (ganglion.react neuron reactants) id name adapted := by
  have changed := ganglion.react_changes neuron reactants
  by_cases same : name = neuron.name
  · subst same
    have decoded : (ganglion.react neuron reactants).reactantsOf neuron.name =
        addReactantsTo (ganglion.reactantsOf neuron.name) reactants := by
      rw [Ganglion.reactantsOf, changed.dendrite?, if_pos rfl]
      simp [DecoderDendrite.addReactants, Ganglion.dendriteOf_reactants]
    have raws : (ganglion.react neuron reactants).rawReactantsOf neuron.name =
        ganglion.rawReactantsOf neuron.name := by
      rw [Ganglion.rawReactantsOf, changed.dendrite?, if_pos rfl]
      simp [DecoderDendrite.addReactants, Ganglion.dendriteOf_rawReactants]
    constructor
    · intro other member
      rw [decoded] at member
      apply (other.belongs_congr changed.cls).mpr
      rcases mem_addReactantsTo.mp member with old | new
      · exact station.belongs other old
      · exact belong other new
    · rw [decoded]
      exact nodup_addReactantsTo station.nodup _
    · rw [decoded, countP_addReactantsTo_user _ users]
      exact station.reactions
    · rw [raws, changed.cls]
      exact station.rawReactants
    · simpa [Ganglion.hasTransmitter] using station.transmitter
    · simpa [Ganglion.hasTransmitter] using station.noTransmitter
    · rw [changed.cls]
      simpa [Ganglion.hasTransmitter, Ganglion.hasExternalTransmitter] using
        station.externalTransmitter
  · apply station.congr changed.cls
    · rw [changed.dendrite?, if_neg same]
    · simp [Ganglion.hasTransmitter]
    · simp [Ganglion.hasExternalTransmitter]

theorem updateTransmitter (station : Station ganglion .own name adapted)
    (inproc : ganglion.cls = .inproc) :
    Station (ganglion.updateTransmitter neuron) .own name adapted := by
  have changed := ganglion.updateTransmitter_changes neuron
  have reactants : (ganglion.updateTransmitter neuron).reactantsOf name =
      ganglion.reactantsOf name := by
    rw [Ganglion.reactantsOf, changed.dendrite?]
    split
    · next same =>
        subst same
        simp [Ganglion.dendriteOf_reactants]
    · rfl
  have raws : (ganglion.updateTransmitter neuron).rawReactantsOf name =
      ganglion.rawReactantsOf name := by
    rw [Ganglion.rawReactantsOf, changed.dendrite?]
    split
    · next same =>
        subst same
        simp [Ganglion.dendriteOf_rawReactants]
    · rfl
  constructor
  · intro other member
    rw [reactants] at member
    exact (other.belongs_congr changed.cls).mpr (station.belongs other member)
  · rw [reactants]
    exact station.nodup
  · rw [reactants]
    exact station.reactions
  · rw [raws, changed.cls]
    exact station.rawReactants
  · intro isAdapted
    simp [Ganglion.updateTransmitter_hasTransmitter,
      station.transmitter isAdapted]
  · exact fun _ other => absurd rfl other
  · rw [changed.cls]
    exact fun external => absurd inproc external

end Station

namespace Plexus

/-- One of the `pairs` has adapted the ganglion to the name. -/
def AdaptedBy (plexus : Plexus) (pairs : List (Neuron × GanglionId))
    (id : GanglionId) (name : String) : Prop :=
  ∃ neuron, (neuron, id) ∈ pairs ∧ neuron.name = name ∧
    (plexus.ganglion id).capable neuron = true

/-- The sets of a plexus are as its operations leave them. -/
structure Placed (plexus : Plexus) : Prop where
  own : .own ∈ plexus.internalGanglia
  ownClass : (plexus.ganglion .own).cls = .inproc
  ownFilters : (plexus.ganglion .own).base.filters = plexus.filters
  noCodecs : plexus.filters.allowedCodecs = []
  nodup : plexus.ganglia.Nodup
  internal : ∀ id ∈ plexus.internalGanglia,
    plexus.isGanglionExternal id = false
  external : ∀ id ∈ plexus.externalGanglia,
    plexus.isGanglionExternal id = true
  distinct : plexus.neurons.Pairwise fun left right => left.name ≠ right.name
  recorded : plexus.neuronGanglia = plexus.allNeuronGanglia

theorem Placed.not_inproc {plexus : Plexus} (placed : plexus.Placed)
    {id : GanglionId} (isExternal : id ∈ plexus.externalGanglia) :
    (plexus.ganglion id).cls ≠ .inproc := by
  intro inproc
  have declared := placed.external id isExternal
  rw [isGanglionExternal, inproc] at declared
  cases declared

theorem Placed.internal_of_inproc {plexus : Plexus} (placed : plexus.Placed)
    {id : GanglionId} (isGanglion : id ∈ plexus.ganglia)
    (inproc : (plexus.ganglion id).cls = .inproc) :
    id ∈ plexus.internalGanglia := by
  rcases List.mem_append.mp isGanglion with internal | isExternal
  · exact internal
  · exact absurd inproc (placed.not_inproc isExternal)

/-- The ganglia of the plexus have been adapted to `pairs`, and to no others. -/
def Wired (plexus : Plexus) (pairs : List (Neuron × GanglionId)) : Prop :=
  ∀ id name, Station (plexus.ganglion id) id name
    (plexus.AdaptedBy pairs id name)

/-- No other pair has the same neuron and the same ganglion. -/
def Apart (left right : Neuron × GanglionId) : Prop :=
  ¬ (left.1.name = right.1.name ∧ left.2 = right.2)

theorem adaptedBy_cons {plexus : Plexus} {pairs : List (Neuron × GanglionId)}
    {neuron : Neuron} {id other : GanglionId} {name : String} :
    plexus.AdaptedBy ((neuron, id) :: pairs) other name ↔
      (id = other ∧ neuron.name = name ∧
        (plexus.ganglion other).capable neuron = true) ∨
      plexus.AdaptedBy pairs other name := by
  constructor
  · intro adapted
    obtain ⟨known, member, named, capable⟩ := adapted
    rcases List.mem_cons.mp member with same | old
    · cases same
      exact .inl ⟨rfl, named, capable⟩
    · exact .inr ⟨known, old, named, capable⟩
  · intro adapted
    rcases adapted with ⟨rfl, named, capable⟩ | ⟨known, old, named, capable⟩
    · exact ⟨neuron, List.mem_cons_self, named, capable⟩
    · exact ⟨known, List.mem_cons_of_mem _ old, named, capable⟩

/-- The reactions of the plexus that it adapts a ganglion with. -/
theorem reactionsFor_eq (plexus : Plexus) (id : GanglionId) :
    ∃ (reactant : Reactant) (rawReactants : List RawReactant),
      plexus.reactionsFor id = ([reactant], rawReactants) ∧
      reactant.belongs (plexus.ganglion id) id ∧ reactant.isUser = false ∧
      ((∃ object, rawReactants = [⟨object, id⟩] ∧
          (plexus.ganglion id).cls.isGanglionExternal = true) ∨
        (rawReactants = [] ∧
          (plexus.ganglion id).cls.isGanglionExternal = false)) := by
  unfold reactionsFor
  cases declared : plexus.isGanglionExternal id with
  | true =>
      exact ⟨.externalInternalReaction plexus.nextPartial id, _, rfl,
        ⟨rfl, declared⟩, rfl, .inl ⟨_, rfl, declared⟩⟩
  | false =>
      exact ⟨.internalReaction plexus.nextPartial id, _, rfl,
        ⟨rfl, declared⟩, rfl, .inr ⟨rfl, declared⟩⟩

/-- The ganglia may change, but every one keeps its class and its filters. -/
structure SameKinds (before after : Plexus) : Prop where
  cls : ∀ id, (after.ganglion id).cls = (before.ganglion id).cls
  filters : ∀ id,
    (after.ganglion id).base.filters = (before.ganglion id).base.filters

theorem SameKinds.refl (plexus : Plexus) : SameKinds plexus plexus :=
  ⟨fun _ => rfl, fun _ => rfl⟩

theorem sameKinds_update {before after : Plexus} {id : GanglionId}
    {ganglion : Ganglion}
    (changed : after.ganglion = Function.update before.ganglion id ganglion)
    (cls : ganglion.cls = (before.ganglion id).cls)
    (filters : ganglion.base.filters = (before.ganglion id).base.filters) :
    SameKinds before after := by
  constructor
  · intro other
    rw [changed]
    by_cases same : other = id
    · rw [same, Function.update_self, cls]
    · rw [Function.update_of_ne same]
  · intro other
    rw [changed]
    by_cases same : other = id
    · rw [same, Function.update_self, filters]
    · rw [Function.update_of_ne same]

theorem adaptedBy_congr {before after : Plexus} (same : SameKinds before after)
    (pairs : List (Neuron × GanglionId)) (id : GanglionId) (name : String) :
    after.AdaptedBy pairs id name ↔ before.AdaptedBy pairs id name := by
  simp only [AdaptedBy, Ganglion.capable, GanglionExternalBase.capable,
    same.filters]

theorem Placed.congr {plexus : Plexus} (placed : plexus.Placed)
    {ganglion : GanglionId → Ganglion} {nextPartial : Nat}
    (same : SameKinds plexus { plexus with ganglion, nextPartial }) :
    { plexus with ganglion, nextPartial }.Placed := by
  constructor
  · exact placed.own
  · exact (same.cls .own).trans placed.ownClass
  · exact (same.filters .own).trans placed.ownFilters
  · exact placed.noCodecs
  · exact placed.nodup
  · intro id member
    rw [isGanglionExternal, same.cls]
    exact placed.internal id member
  · intro id member
    rw [isGanglionExternal, same.cls]
    exact placed.external id member
  · exact placed.distinct
  · exact placed.recorded

theorem adaptGanglion_sameKinds (plexus : Plexus)
    (pair : Neuron × GanglionId) :
    SameKinds plexus (plexus.adaptGanglion pair) := by
  apply sameKinds_update rfl
  · exact (Ganglion.adapt_keeps ..).1
  · exact (Ganglion.adapt_keeps ..).2

theorem failGanglion_sameKinds (plexus : Plexus) (pair : Neuron × GanglionId)
    (attached attachedRaw : Bool) :
    SameKinds plexus (plexus.failGanglion pair attached attachedRaw) := by
  apply sameKinds_update rfl
  · exact (Ganglion.adaptPartly_keeps ..).1
  · exact (Ganglion.adaptPartly_keeps ..).2

theorem Wired.adaptGanglion {plexus : Plexus}
    {pairs : List (Neuron × GanglionId)} (wired : plexus.Wired pairs)
    {neuron : Neuron} {id : GanglionId}
    (new : ∀ pair ∈ pairs, Apart pair (neuron, id)) :
    (plexus.adaptGanglion (neuron, id)).Wired ((neuron, id) :: pairs) := by
  obtain ⟨reactant, rawReactants, reactions, belongs, isReaction, raw⟩ :=
    plexus.reactionsFor_eq id
  have kinds := plexus.adaptGanglion_sameKinds (neuron, id)
  have changed : (plexus.adaptGanglion (neuron, id)).ganglion =
      Function.update plexus.ganglion id
        ((plexus.ganglion id).adapt neuron [reactant] rawReactants) := by
    simp only [Plexus.adaptGanglion, reactions]
  intro other name
  have station := wired other name
  have adaptedBefore := adaptedBy_congr kinds ((neuron, id) :: pairs) other
    name
  rw [changed]
  by_cases same : other = id
  · subst same
    rw [Function.update_self]
    by_cases named : neuron.name = name
    · subst named
      have blank : ¬ plexus.AdaptedBy pairs other neuron.name := by
        intro adapted
        obtain ⟨known, member, sameName, _⟩ := adapted
        exact new _ member ⟨sameName, rfl⟩
      have before := station.iff (iff_false_intro blank)
      cases capable : (plexus.ganglion other).capable neuron with
      | false =>
          rw [Ganglion.adapt_of_not_capable capable]
          apply before.iff
          rw [adaptedBefore, adaptedBy_cons]
          simp [capable, blank]
      | true =>
          apply (before.adapt capable belongs isReaction raw).iff
          rw [adaptedBefore, adaptedBy_cons]
          simp [capable]
    · apply (station.adapt_other named _ _).iff
      rw [adaptedBefore, adaptedBy_cons]
      simp [named]
  · rw [Function.update_of_ne same]
    apply station.iff
    rw [adaptedBefore, adaptedBy_cons]
    simp [Ne.symm same]

theorem Wired.congr {plexus : Plexus}
    {before after : List (Neuron × GanglionId)} (wired : plexus.Wired before)
    (same : ∀ pair, pair ∈ after ↔ pair ∈ before) : plexus.Wired after := by
  intro id name
  apply (wired id name).iff
  simp only [AdaptedBy, same]

theorem mem_allNeuronGanglia {plexus : Plexus} {pair : Neuron × GanglionId} :
    pair ∈ plexus.allNeuronGanglia ↔
      pair.1 ∈ plexus.neurons ∧ pair.2 ∈ plexus.ganglia := by
  obtain ⟨neuron, id⟩ := pair
  simp [allNeuronGanglia]

theorem pairwise_apart {plexus : Plexus} (nodup : plexus.ganglia.Nodup)
    (distinct : plexus.neurons.Pairwise
      fun left right => left.name ≠ right.name) :
    plexus.allNeuronGanglia.Pairwise Apart := by
  unfold allNeuronGanglia
  rw [List.pairwise_flatMap]
  constructor
  · intro neuron _
    rw [List.pairwise_map]
    exact nodup.imp fun different same => different same.2
  · apply distinct.imp
    intro left right different first inFirst second inSecond same
    obtain ⟨_, _, rfl⟩ := List.mem_map.mp inFirst
    obtain ⟨_, _, rfl⟩ := List.mem_map.mp inSecond
    exact different same.1

/-- Neurons of a plexus with the same name are the same. -/
theorem Placed.neuron_unique {plexus : Plexus} (placed : plexus.Placed)
    {left right : Neuron} (inLeft : left ∈ plexus.neurons)
    (inRight : right ∈ plexus.neurons) (same : left.name = right.name) :
    left = right := by
  by_contra different
  have : Std.Symm fun left right : Neuron => left.name ≠ right.name :=
    ⟨fun _ _ apart => Ne.symm apart⟩
  exact placed.distinct.forall inLeft inRight different same

section Operations

variable {plexus : Plexus} {pairs : List (Neuron × GanglionId)}

/-- The critical section of `_update_neuron_ganglia`, after neurons or ganglia
have been added. -/
theorem Placed.updateNeuronGanglia {before : Plexus} (placed : before.Placed)
    (ganglion : plexus.ganglion = before.ganglion)
    (filters : plexus.filters = before.filters)
    (own : .own ∈ plexus.internalGanglia) (nodup : plexus.ganglia.Nodup)
    (internal : ∀ id ∈ plexus.internalGanglia,
      plexus.isGanglionExternal id = false)
    (external : ∀ id ∈ plexus.externalGanglia,
      plexus.isGanglionExternal id = true)
    (distinct : plexus.neurons.Pairwise
      fun left right => left.name ≠ right.name) :
    plexus.updateNeuronGanglia.2.Placed where
  own := own
  ownClass := by
    change (plexus.ganglion .own).cls = .inproc
    rw [ganglion]
    exact placed.ownClass
  ownFilters := by
    change (plexus.ganglion .own).base.filters = plexus.filters
    rw [ganglion, filters]
    exact placed.ownFilters
  noCodecs := filters ▸ placed.noCodecs
  nodup := nodup
  internal := internal
  external := external
  distinct := distinct
  recorded := rfl

theorem Placed.updateNeurons (placed : plexus.Placed) (neuron : Neuron) :
    (plexus.updateNeurons neuron).2.Placed := by
  refine Placed.updateNeuronGanglia placed rfl rfl placed.own placed.nodup
    placed.internal placed.external ?_
  dsimp only
  split
  · exact placed.distinct
  · next unknown =>
      apply List.pairwise_append.mpr
      refine ⟨placed.distinct, List.pairwise_singleton .., ?_⟩
      intro known member new isNew same
      rw [List.mem_singleton.mp isNew] at same
      apply unknown
      exact List.any_eq_true.mpr ⟨known, member, by simpa using same⟩

theorem Placed.addGanglion (placed : plexus.Placed) (ganglion : GanglionId) :
    (plexus.addGanglion ganglion).updateNeuronGanglia.2.Placed := by
  unfold Plexus.addGanglion
  cases declared : plexus.isGanglionExternal ganglion with
  | true =>
      rw [if_pos rfl]
      apply Placed.updateNeuronGanglia placed
      · rfl
      · rfl
      · exact placed.own
      · by_cases member : ganglion ∈ plexus.externalGanglia
        · rw [Plexus.ganglia, List.insert_of_mem member]
          exact placed.nodup
        · have outside : ganglion ∉ plexus.internalGanglia := by
            intro inside
            simp [placed.internal ganglion inside] at declared
          rw [Plexus.ganglia, List.insert_of_not_mem member]
          apply List.nodup_middle.mpr
          apply List.nodup_cons.mpr
          exact ⟨by simp [outside, member], placed.nodup⟩
      · exact placed.internal
      · intro id member
        rcases List.mem_insert_iff.mp member with rfl | old
        · exact declared
        · exact placed.external id old
      · exact placed.distinct
  | false =>
      rw [if_neg Bool.false_ne_true]
      apply Placed.updateNeuronGanglia placed
      · rfl
      · rfl
      · exact List.mem_insert_of_mem placed.own
      · by_cases member : ganglion ∈ plexus.internalGanglia
        · rw [Plexus.ganglia, List.insert_of_mem member]
          exact placed.nodup
        · have outside : ganglion ∉ plexus.externalGanglia := by
            intro inside
            simp [placed.external ganglion inside] at declared
          rw [Plexus.ganglia, List.insert_of_not_mem member]
          apply List.nodup_cons.mpr
          exact ⟨by simp [outside, member], placed.nodup⟩
      · intro id member
        rcases List.mem_insert_iff.mp member with rfl | old
        · exact declared
        · exact placed.internal id old
      · exact placed.external
      · exact placed.distinct

/-- Neurons and ganglia are never forgotten. -/
structure Extends (before after : Plexus) : Prop where
  neurons : before.neurons ⊆ after.neurons
  ganglia : before.ganglia ⊆ after.ganglia

theorem Extends.of_eq {before after : Plexus}
    (neurons : after.neurons = before.neurons)
    (ganglia : after.ganglia = before.ganglia) : Extends before after := by
  constructor
  · rw [neurons]
    exact List.Subset.refl _
  · rw [ganglia]
    exact List.Subset.refl _

theorem Extends.trans {first second third : Plexus} (before : Extends first second)
    (after : Extends second third) : Extends first third :=
  ⟨fun _ member => after.neurons (before.neurons member),
    fun _ member => after.ganglia (before.ganglia member)⟩

theorem Extends.allNeuronGanglia {before after : Plexus}
    (extended : Extends before after) :
    before.allNeuronGanglia ⊆ after.allNeuronGanglia := by
  intro pair member
  obtain ⟨neuron, ganglion⟩ := mem_allNeuronGanglia.mp member
  exact mem_allNeuronGanglia.mpr ⟨extended.neurons neuron, extended.ganglia ganglion⟩

theorem extends_updateNeurons (plexus : Plexus) (neuron : Neuron) :
    Extends plexus (plexus.updateNeurons neuron).2 := by
  refine ⟨?_, List.Subset.refl _⟩
  intro known member
  simp only [Plexus.updateNeurons, updateNeuronGanglia]
  split
  · exact member
  · exact List.mem_append_left _ member

theorem extends_addGanglion (plexus : Plexus) (ganglion : GanglionId) :
    Extends plexus (plexus.addGanglion ganglion).updateNeuronGanglia.2 := by
  unfold Plexus.addGanglion
  split
  · refine ⟨List.Subset.refl _, ?_⟩
    intro id member
    rcases List.mem_append.mp member with internal | external
    · exact List.mem_append_left _ internal
    · exact List.mem_append_right _ (List.mem_insert_of_mem external)
  · refine ⟨List.Subset.refl _, ?_⟩
    intro id member
    rcases List.mem_append.mp member with internal | external
    · exact List.mem_append_left _ (List.mem_insert_of_mem internal)
    · exact List.mem_append_right _ external

theorem exists_updateNeurons (plexus : Plexus) (neuron : Neuron) :
    ∃ known ∈ (plexus.updateNeurons neuron).2.neurons,
      known.name = neuron.name := by
  simp only [Plexus.updateNeurons, updateNeuronGanglia]
  split
  · next found =>
      obtain ⟨known, member, same⟩ := List.any_eq_true.mp found
      exact ⟨known, member, by simpa using same⟩
  · exact ⟨neuron, List.mem_append_right _ (List.mem_singleton_self _), rfl⟩

theorem Wired.of_ganglion {before : Plexus} (wired : before.Wired pairs)
    (same : plexus.ganglion = before.ganglion) : plexus.Wired pairs := by
  intro id name
  have station := wired id name
  rw [same]
  apply station.iff
  simp only [AdaptedBy, same]

theorem Wired.onGanglion (wired : plexus.Wired pairs) {id : GanglionId}
    {operation : Ganglion → Ganglion}
    (kinds : SameKinds plexus (plexus.onGanglion id operation))
    (station : ∀ {name : String} {adapted : Prop},
      Station (plexus.ganglion id) id name adapted →
        Station (operation (plexus.ganglion id)) id name adapted) :
    (plexus.onGanglion id operation).Wired pairs := by
  intro other name
  have before := (wired other name).iff
    (adaptedBy_congr kinds pairs other name).symm
  simp only [Plexus.onGanglion] at before ⊢
  by_cases same : other = id
  · subst same
    rw [Function.update_self]
    exact station before
  · rw [Function.update_of_ne same]
    exact before

theorem react_sameKinds (plexus : Plexus) (id : GanglionId) (neuron : Neuron)
    (reactants : List Reactant) :
    SameKinds plexus (plexus.onGanglion id (·.react neuron reactants)) :=
  sameKinds_update rfl (Ganglion.react_changes ..).cls
    (Ganglion.react_changes ..).filters

theorem Wired.react (wired : plexus.Wired pairs) (neuron : Neuron)
    (reactants : List ReactantId) :
    (plexus.react neuron reactants).Wired pairs := by
  apply wired.onGanglion (react_sameKinds ..)
  intro name adapted station
  apply station.react
  · intro reactant member
    obtain ⟨user, _, rfl⟩ := List.mem_map.mp member
    rfl
  · intro reactant member
    obtain ⟨user, _, rfl⟩ := List.mem_map.mp member
    rfl

theorem Wired.attach (wired : plexus.Wired pairs) (index : Nat)
    (neuron : Neuron) (reactants : List ReactantId) :
    (plexus.attach index neuron reactants).Wired pairs := by
  apply wired.onGanglion (react_sameKinds ..)
  intro name adapted station
  apply station.react
  · intro reactant member
    obtain ⟨user, _, rfl⟩ := List.mem_map.mp member
    rfl
  · intro reactant member
    obtain ⟨user, _, rfl⟩ := List.mem_map.mp member
    simp [Reactant.belongs]

theorem updateInproc_sameKinds (plexus : Plexus) (neuron : Neuron) :
    SameKinds plexus (plexus.updateInproc neuron) :=
  sameKinds_update rfl (Ganglion.updateTransmitter_changes ..).cls
    (Ganglion.updateTransmitter_changes ..).filters

theorem Wired.updateInproc (wired : plexus.Wired pairs)
    (inproc : (plexus.ganglion .own).cls = .inproc) (neuron : Neuron) :
    (plexus.updateInproc neuron).Wired pairs :=
  wired.onGanglion (updateInproc_sameKinds ..)
    fun station => station.updateTransmitter inproc

theorem placed_init (outside : Nat → GanglionClass × Filters)
    (given : List Nat) (relevantNeurons ignoredNeurons : List Neuron) :
    (Plexus.init outside given relevantNeurons ignoredNeurons).Placed := by
  constructor
  · exact List.mem_cons_self
  · rfl
  · rfl
  · rfl
  · have ownOutside : ∀ (keep : GanglionId → Bool),
        GanglionId.own ∉ (given.map GanglionId.other).dedup.filter keep := by
      intro keep member
      simpa using List.mem_dedup.mp (List.mem_filter.mp member).1
    have nodup := List.nodup_dedup (given.map GanglionId.other)
    apply List.nodup_cons.mpr
    constructor
    · intro member
      rcases List.mem_append.mp member with internal | external
      · exact ownOutside _ internal
      · exact ownOutside _ external
    · apply List.nodup_append.mpr
      refine ⟨nodup.filter _, nodup.filter _, ?_⟩
      intro left inLeft right inRight same
      subst same
      have undeclared := (List.mem_filter.mp inLeft).2
      rw [(List.mem_filter.mp inRight).2] at undeclared
      cases undeclared
  · intro id member
    rcases List.mem_cons.mp member with rfl | given
    · rfl
    · exact (Bool.not_eq_true' _).mp (List.mem_filter.mp given).2
  · exact fun id member => (List.mem_filter.mp member).2
  · exact List.Pairwise.nil
  · rfl

theorem wired_init (outside : Nat → GanglionClass × Filters)
    (given : List Nat) (relevantNeurons ignoredNeurons : List Neuron) :
    (Plexus.init outside given relevantNeurons ignoredNeurons).Wired [] := by
  intro id name
  have blank : ¬ (Plexus.init outside given relevantNeurons
      ignoredNeurons).AdaptedBy [] id name := by
    intro adapted
    obtain ⟨_, member, _⟩ := adapted
    cases member
  cases id with
  | own => exact (Station.init ..).iff (iff_false_intro blank).symm
  | other index => exact (Station.init ..).iff (iff_false_intro blank).symm

end Operations

/-- Every ganglion of the plexus is adapted to every neuron of it. -/
structure Settled (plexus : Plexus) : Prop where
  placed : plexus.Placed
  wired : plexus.Wired plexus.neuronGanglia

theorem Settled.station {plexus : Plexus} (settled : plexus.Settled)
    {first : Neuron} (member : first ∈ plexus.neurons) {id : GanglionId}
    (inside : id ∈ plexus.ganglia) :
    Station (plexus.ganglion id) id first.name
      ((plexus.ganglion id).capable first = true) := by
  apply (settled.wired id first.name).iff
  rw [settled.placed.recorded]
  constructor
  · intro adapted
    obtain ⟨neuron, pair, named, capable⟩ := adapted
    rw [← settled.placed.neuron_unique (mem_allNeuronGanglia.mp pair).1 member
      named]
    exact capable
  · exact fun capable =>
      ⟨first, mem_allNeuronGanglia.mpr ⟨member, inside⟩, rfl, capable⟩

theorem mem_of_registered {plexus : Plexus} {neuron first : Neuron}
    (registered : plexus.registered neuron = some first) :
    first ∈ plexus.neurons ∧ first.name = neuron.name :=
  ⟨List.mem_of_find?_eq_some registered,
    by simpa using List.find?_some registered⟩

/-- The ganglion that the plexus has made filters as the plexus does. -/
theorem Settled.own_capable {plexus : Plexus} (settled : plexus.Settled)
    {neuron first : Neuron} (named : first.name = neuron.name) :
    (plexus.ganglion .own).capable first = plexus.capable neuron := by
  simp only [Ganglion.capable, GanglionExternalBase.capable,
    settled.placed.ownFilters, Plexus.capable, Filters.capable,
    settled.placed.noCodecs, Neuron.isIn, named]
  simp

end Plexus

end Plexo
