import Plexo.Ganglion.Object
import Plexo.Ganglion.SynapseCalls

/-!
# Creating a synapse in one piece

`_create_synapse_by_name` of `GanglionInproc`, `GanglionZmqTcpPair` and
`GanglionZmqTcpPubSub` runs without a suspension.  What the laws of these
classes rest on is shared with `GanglionPlexoMulticast`: a synapse that is not
in a registry yet has no reactants.
-/

namespace Plexo

open PersistentMap

/-- The synapses of a ganglion were given out in order, and one that was not
given out has no reactants yet. -/
structure Stocked {ρ ω : Type} (base : GanglionExternalBase)
    (nextObject : SynapseId) (reactants : SynapseId → List ρ)
    (rawReactants : SynapseId → List ω) : Prop where
  given : ∀ {name synapse}, base.synapses name = some synapse →
    synapse < nextObject
  blank : ∀ synapse, nextObject ≤ synapse →
    reactants synapse = [] ∧ rawReactants synapse = []

namespace Stocked

variable {ρ ω : Type} {base : GanglionExternalBase} {nextObject : SynapseId}
  {reactants : SynapseId → List ρ} {rawReactants : SynapseId → List ω}

theorem setBase (stocked : Stocked base nextObject reactants rawReactants)
    {after : GanglionExternalBase} (same : after.synapses = base.synapses) :
    Stocked after nextObject reactants rawReactants :=
  ⟨fun known => stocked.given (same ▸ known), stocked.blank⟩

theorem insert (stocked : Stocked base nextObject reactants rawReactants)
    (name : String) :
    Stocked { base with synapses := base.synapses.set name nextObject }
      (nextObject + 1) reactants rawReactants := by
  refine ⟨?_, fun synapse later =>
    stocked.blank synapse (Nat.le_of_succ_le later)⟩
  intro other synapse known
  rcases (PMap.set_eq_some_iff ..).mp known with ⟨_, rfl⟩ | ⟨_, old⟩
  · exact Nat.lt_succ_self _
  · exact Nat.lt_succ_of_lt (stocked.given old)

theorem fresh (stocked : Stocked base nextObject reactants rawReactants)
    (name : String) : base.synapses name ≠ some nextObject := by
  intro known
  exact lt_irrefl _ (stocked.given known)

theorem update (stocked : Stocked base nextObject reactants rawReactants)
    {name : String} {synapse : SynapseId}
    (known : base.synapses name = some synapse)
    {newReactants : SynapseId → List ρ} {newRawReactants : SynapseId → List ω}
    (elsewhere : ∀ other, other ≠ synapse →
      newReactants other = reactants other ∧
        newRawReactants other = rawReactants other) :
    Stocked base nextObject newReactants newRawReactants := by
  refine ⟨stocked.given, ?_⟩
  intro other later
  have different : other ≠ synapse := by
    rintro rfl
    exact absurd (stocked.given known) (Nat.not_lt.mpr later)
  rw [(elsewhere other different).1, (elsewhere other different).2]
  exact stocked.blank other later

end Stocked

theorem update_part {α β : Type} (part : α → β) (objects : SynapseId → α)
    {synapse : SynapseId} {object : α} (same : part object = part (objects synapse)) :
    (fun other => part (Function.update objects synapse object other)) =
      fun other => part (objects other) := by
  funext other
  rw [Function.apply_update (fun _ => part), same, Function.update_eq_self]

namespace GanglionMethods

variable {methods : GanglionMethods} {before after : methods.State}

theorem attached_eq
    (reactants : methods.reactants after = methods.reactants before)
    (rawReactants : methods.rawReactants after = methods.rawReactants before) :
    methods.attached after = methods.attached before := by
  simp only [attached, reactants, rawReactants]

theorem attached_empty
    (reactants : ∀ synapse, methods.reactants after synapse = [])
    (rawReactants : ∀ synapse, methods.rawReactants after synapse = []) :
    methods.attached after = ∅ := by
  ext ⟨synapse, reactant⟩
  cases reactant <;> simp [attached, reactants, rawReactants]

theorem attached_addReactants {synapse : SynapseId}
    {added : List methods.Reactant}
    (here : ∀ reactant, reactant ∈ methods.reactants after synapse ↔
      reactant ∈ methods.reactants before synapse ∨ reactant ∈ added)
    (elsewhere : ∀ other, other ≠ synapse →
      methods.reactants after other = methods.reactants before other)
    (rawReactants : methods.rawReactants after = methods.rawReactants before) :
    methods.attached after = methods.attached before ∪
      { pair | pair.1 = synapse ∧ ∃ reactant ∈ added, pair.2 = .inl reactant } := by
  ext ⟨other, reactant⟩
  cases reactant with
  | inl reactant =>
      by_cases same : other = synapse
      · subst same
        simp [attached, here]
      · simp [attached, elsewhere other same, same]
  | inr reactant => simp [attached, rawReactants]

theorem attached_addRawReactants {synapse : SynapseId}
    {added : List methods.RawReactant}
    (here : ∀ reactant, reactant ∈ methods.rawReactants after synapse ↔
      reactant ∈ methods.rawReactants before synapse ∨ reactant ∈ added)
    (elsewhere : ∀ other, other ≠ synapse →
      methods.rawReactants after other = methods.rawReactants before other)
    (reactants : methods.reactants after = methods.reactants before) :
    methods.attached after = methods.attached before ∪
      { pair | pair.1 = synapse ∧ ∃ reactant ∈ added, pair.2 = .inr reactant } := by
  ext ⟨other, reactant⟩
  cases reactant with
  | inl reactant => simp [attached, reactants]
  | inr reactant =>
      by_cases same : other = synapse
      · subst same
        simp [attached, here]
      · simp [attached, elsewhere other same, same]

end GanglionMethods

/-- A ganglion whose synapses share the sockets of the ganglion, or need
none. -/
structure SimpleGanglion where
  base : GanglionExternalBase
  objects : SynapseId → DecoderDendrite
  nextObject : SynapseId
  /-- Whether `_socket_pub` is there; only `GanglionZmqTcpPubSub` looks at it. -/
  socketPub : Bool

inductive SimpleClass where
  | ganglionInproc
  | ganglionZmqTcpPair
  | ganglionZmqTcpPubSub
  deriving DecidableEq

namespace SimpleGanglion

/-- `__init__`; `_create_socket_pub` is called at its end. -/
def init (filters : Filters) : SimpleGanglion :=
  { base := { filters }
    objects := fun _ => { neuron := .init "" plexoNamespace ⟨"", ""⟩ none }
    nextObject := 0
    socketPub := true }

def insertSynapse (ganglion : SimpleGanglion) (neuron : Neuron) (name : String) :
    SimpleGanglion :=
  { ganglion with
    base := { ganglion.base with
      synapses := ganglion.base.synapses.set name ganglion.nextObject }
    objects := Function.update ganglion.objects ganglion.nextObject { neuron }
    nextObject := ganglion.nextObject + 1 }

/-- `_create_synapse_by_name` of the three classes. -/
def createSynapseByName (ganglion : SimpleGanglion) (hasSocket : Bool)
    (neuron : Neuron) (name : String) :
    Except PlexoError (Option SynapseId) × SimpleGanglion :=
  match ganglion.base.synapses name with
  | some _ => (.error (.synapseExists name), ganglion)
  | none =>
      if hasSocket then
        (.ok (some ganglion.nextObject), ganglion.insertSynapse neuron name)
      else
        -- the method ends without a `return`
        (.ok none, ganglion)

def setObject (ganglion : SimpleGanglion) (synapse : SynapseId)
    (object : DecoderDendrite) : SimpleGanglion :=
  { ganglion with objects := Function.update ganglion.objects synapse object }

/-- `add_reactants` of a synapse. -/
def addReactants (ganglion : SimpleGanglion) (synapse : SynapseId)
    (reactants : List Reactant) : SimpleGanglion :=
  ganglion.setObject synapse
    ((ganglion.objects synapse).addReactants reactants)

/-- `add_raw_reactants` of a synapse. -/
def addRawReactants (ganglion : SimpleGanglion) (synapse : SynapseId)
    (rawReactants : List RawReactant) : SimpleGanglion :=
  ganglion.setObject synapse
    ((ganglion.objects synapse).addRawReactants rawReactants)

/-- The invariant of runs; `_socket_pub` stays as `__init__` leaves it. -/
structure Legal (ganglion : SimpleGanglion) : Prop where
  stocked : Stocked ganglion.base ganglion.nextObject
    (fun synapse => (ganglion.objects synapse).reactants)
    (fun synapse => (ganglion.objects synapse).rawReactants)
  socketPub : ganglion.socketPub = true

end SimpleGanglion

namespace GanglionInproc

def createSynapseByName (ganglion : SimpleGanglion) (neuron : Neuron)
    (name : String) : Except PlexoError (Option SynapseId) × SimpleGanglion :=
  ganglion.createSynapseByName true neuron name

end GanglionInproc

namespace GanglionZmqTcpPair

def createSynapseByName (ganglion : SimpleGanglion) (neuron : Neuron)
    (name : String) : Except PlexoError (Option SynapseId) × SimpleGanglion :=
  ganglion.createSynapseByName true neuron name

end GanglionZmqTcpPair

namespace GanglionZmqTcpPubSub

def createSynapseByName (ganglion : SimpleGanglion) (neuron : Neuron)
    (name : String) : Except PlexoError (Option SynapseId) × SimpleGanglion :=
  ganglion.createSynapseByName ganglion.socketPub neuron name

end GanglionZmqTcpPubSub

namespace SimpleClass

def createSynapseByName : SimpleClass → SimpleGanglion → Neuron → String →
    Except PlexoError (Option SynapseId) × SimpleGanglion
  | ganglionInproc => GanglionInproc.createSynapseByName
  | ganglionZmqTcpPair => GanglionZmqTcpPair.createSynapseByName
  | ganglionZmqTcpPubSub => GanglionZmqTcpPubSub.createSynapseByName

/-- The only event is `_update_name_neurons`, which nothing but a user of
`create_external_transmitter` calls for an external ganglion. -/
def methods (cls : SimpleClass) (filters : Filters) : GanglionMethods where
  State := SimpleGanglion
  Reactant := Reactant
  RawReactant := RawReactant
  Pending := Empty
  Choice := Unit
  Event := Neuron
  start := .init filters
  isInternal := cls = ganglionInproc
  base := SimpleGanglion.base
  setBase ganglion base := { ganglion with base }
  reactants ganglion synapse := (ganglion.objects synapse).reactants
  rawReactants ganglion synapse := (ganglion.objects synapse).rawReactants
  addReactants := SimpleGanglion.addReactants
  addRawReactants := SimpleGanglion.addRawReactants
  createSynapseByName ganglion neuron name pending _ :=
    match pending with
    | none =>
        let created := cls.createSynapseByName ganglion neuron name
        some (created.2, .ended created.1)
    | some pending => nomatch pending
  other ganglion neuron :=
    some { ganglion with base := ganglion.base.updateNameNeurons neuron }

theorem createSynapseByName_legal (cls : SimpleClass)
    {ganglion : SimpleGanglion} (legal : ganglion.Legal) :
    cls.createSynapseByName ganglion = ganglion.createSynapseByName true := by
  cases cls with
  | ganglionInproc => rfl
  | ganglionZmqTcpPair => rfl
  | ganglionZmqTcpPubSub =>
      funext neuron name
      rw [createSynapseByName, GanglionZmqTcpPubSub.createSynapseByName,
        legal.socketPub]

theorem insertSynapse_enters (cls : SimpleClass) (filters : Filters)
    {ganglion : SimpleGanglion} (legal : ganglion.Legal) (neuron : Neuron)
    {name : String} (absent : ganglion.base.synapses name = none) :
    (ganglion.insertSynapse neuron name).Legal ∧
      (cls.methods filters).Enters ganglion
        (ganglion.insertSynapse neuron name) name ganglion.nextObject := by
  have blank := legal.stocked.blank ganglion.nextObject le_rfl
  have reactants : (fun synapse =>
      ((ganglion.insertSynapse neuron name).objects synapse).reactants) =
      fun synapse => (ganglion.objects synapse).reactants :=
    update_part _ _ blank.1.symm
  have rawReactants : (fun synapse =>
      ((ganglion.insertSynapse neuron name).objects synapse).rawReactants) =
      fun synapse => (ganglion.objects synapse).rawReactants :=
    update_part _ _ blank.2.symm
  refine ⟨⟨?_, legal.socketPub⟩, ?_⟩
  · rw [reactants, rawReactants]
    exact legal.stocked.insert name
  · exact
      { absent
        fresh := legal.stocked.fresh
        synapses := rfl
        handles := rfl
        attached := GanglionMethods.attached_eq reactants rawReactants }

theorem createSynapseByName_creates (cls : SimpleClass) (filters : Filters)
    {ganglion : SimpleGanglion} (legal : ganglion.Legal) (neuron : Neuron)
    (name : String) :
    (cls.createSynapseByName ganglion neuron name).2.Legal ∧
      (cls.methods filters).Creates ganglion
        (cls.createSynapseByName ganglion neuron name).2 name
        (.ended (cls.createSynapseByName ganglion neuron name).1) := by
  rw [cls.createSynapseByName_legal legal]
  unfold SimpleGanglion.createSynapseByName
  cases known : ganglion.base.synapses name with
  | some synapse => exact ⟨legal, .refuse ⟨rfl, rfl, rfl⟩⟩
  | none =>
      obtain ⟨legalNext, enters⟩ :=
        cls.insertSynapse_enters filters legal neuron known
      exact ⟨legalNext, .enter enters⟩

end SimpleClass

namespace SimpleGanglion

theorem init_legal (filters : Filters) : (init filters).Legal := by
  refine ⟨⟨?_, fun _ _ => ⟨rfl, rfl⟩⟩, rfl⟩
  intro name synapse known
  simp [init] at known

theorem Legal.setObject {ganglion : SimpleGanglion} (legal : ganglion.Legal)
    {name : String} {synapse : SynapseId}
    (known : ganglion.base.synapses name = some synapse)
    (object : DecoderDendrite) : (ganglion.setObject synapse object).Legal := by
  refine ⟨legal.stocked.update known ?_, legal.socketPub⟩
  intro other different
  simp [SimpleGanglion.setObject, different]

theorem Legal.setBase {ganglion : SimpleGanglion} (legal : ganglion.Legal)
    {base : GanglionExternalBase}
    (same : base.synapses = ganglion.base.synapses) :
    Legal { ganglion with base } :=
  ⟨legal.stocked.setBase same, legal.socketPub⟩

@[simp] theorem setObject_self (ganglion : SimpleGanglion) (synapse : SynapseId)
    (object : DecoderDendrite) :
    (ganglion.setObject synapse object).objects synapse = object := by
  simp [setObject]

theorem setObject_of_ne (ganglion : SimpleGanglion) {synapse other : SynapseId}
    (object : DecoderDendrite) (different : other ≠ synapse) :
    (ganglion.setObject synapse object).objects other =
      ganglion.objects other := by
  simp [setObject, different]

theorem mem_addReactants {ganglion : SimpleGanglion} {synapse : SynapseId}
    {reactants : List Reactant} {reactant : Reactant} :
    reactant ∈ ((ganglion.addReactants synapse reactants).objects
        synapse).reactants ↔
      reactant ∈ (ganglion.objects synapse).reactants ∨
        reactant ∈ reactants := by
  rw [addReactants, setObject_self]
  exact mem_addReactantsTo

theorem mem_addRawReactants {ganglion : SimpleGanglion} {synapse : SynapseId}
    {rawReactants : List RawReactant} {reactant : RawReactant} :
    reactant ∈ ((ganglion.addRawReactants synapse rawReactants).objects
        synapse).rawReactants ↔
      reactant ∈ (ganglion.objects synapse).rawReactants ∨
        reactant ∈ rawReactants := by
  rw [addRawReactants, setObject_self]
  exact mem_addReactantsTo

end SimpleGanglion

namespace SimpleClass

theorem lawful (cls : SimpleClass) (filters : Filters) :
    (cls.methods filters).Lawful SimpleGanglion.Legal where
  start := SimpleGanglion.init_legal filters
  noSynapses := rfl
  noHandles := by
    funext kind
    cases kind <;> rfl
  noReactants :=
    GanglionMethods.attached_empty (fun _ => rfl) (fun _ => rfl)
  setBase := by
    intro ganglion base legal same
    exact ⟨legal.setBase same, rfl, rfl⟩
  addReactants := by
    rintro ganglion synapse reactants legal ⟨name, known⟩
    refine ⟨legal.setObject known _, rfl,
      GanglionMethods.attached_addReactants
        (fun _ => SimpleGanglion.mem_addReactants) ?_ ?_⟩
    · intro other different
      exact congrArg DecoderDendrite.reactants
        (SimpleGanglion.setObject_of_ne ganglion _ different)
    · exact update_part DecoderDendrite.rawReactants ganglion.objects rfl
  addRawReactants := by
    rintro ganglion synapse rawReactants legal ⟨name, known⟩
    refine ⟨legal.setObject known _, rfl,
      GanglionMethods.attached_addRawReactants
        (fun _ => SimpleGanglion.mem_addRawReactants) ?_ ?_⟩
    · intro other different
      exact congrArg DecoderDendrite.rawReactants
        (SimpleGanglion.setObject_of_ne ganglion _ different)
    · exact update_part DecoderDendrite.reactants ganglion.objects rfl
  createSynapseByName := by
    intro ganglion neuron name pending choice next creation legal created
    cases pending with
    | some pending => exact pending.elim
    | none =>
        obtain ⟨⟩ := Option.some.inj created
        exact cls.createSynapseByName_creates filters legal neuron name
  other := by
    intro ganglion neuron next legal moved
    obtain ⟨⟩ := Option.some.inj moved
    have same := GanglionExternalBase.updateNameNeurons_synapses
      ganglion.base neuron
    exact ⟨legal.setBase same, .inl ⟨same,
      GanglionExternalBase.updateNameNeurons_handles ganglion.base neuron, rfl⟩⟩

end SimpleClass

end Plexo
