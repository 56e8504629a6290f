import Plexo.Ganglion.External
import Plexo.Library.Directory
import Plexo.Library.Transition

/-!
# Calls that get a synapse

`get_synapse_by_name` looks a synapse up, and creates it if it is not there;
`_create_synapse_by_name` may be suspended in between.  `react`, `react_raw`,
`update_transmitter` and `adapt` get a synapse first and then use it.

The steps of a call are cut at the awaits that really suspend, and between two
methods.  The locks guard sections without an `await`, so they are never
contended, and a section is part of one step.  `wait_startup` only delays a
call; here a call can be delayed before any of its steps.
-/

namespace Plexo

open PersistentMap Transition Directories

/-- How `_create_synapse_by_name` goes on.  It can return without a synapse. -/
inductive Creation (π : Type) where
  | suspended (pending : π)
  | ended (result : Except PlexoError (Option SynapseId))

inductive TransmitterKind where
  | encoder
  | external
  deriving DecidableEq

namespace GanglionExternalBase

def handles (base : GanglionExternalBase) : TransmitterKind → PMap String SynapseId
  | .encoder => fun name => (base.transmitters name).map (·.synapse)
  | .external => base.externalTransmitters

/-- `_create_transmitter` and `_create_external_transmitter`. -/
def createOnce (base : GanglionExternalBase) (kind : TransmitterKind)
    (neuron : Neuron) (synapse : SynapseId) : GanglionExternalBase :=
  match kind with
  | .encoder => base.createTransmitterOnce neuron synapse
  | .external => base.createExternalTransmitterOnce neuron synapse

@[simp] theorem createOnce_synapses (base : GanglionExternalBase)
    (kind : TransmitterKind) (neuron : Neuron) (synapse : SynapseId) :
    (base.createOnce kind neuron synapse).synapses = base.synapses := by
  cases kind <;> simp [createOnce]

theorem createOnce_handles (base : GanglionExternalBase)
    (kind : TransmitterKind) (neuron : Neuron) (synapse : SynapseId) :
    (base.createOnce kind neuron synapse).handles = base.handles ∨
      (base.createOnce kind neuron synapse).handles =
        Function.update base.handles kind
          ((base.handles kind).set neuron.name synapse) := by
  cases kind with
  | encoder =>
      simp only [createOnce, createTransmitterOnce]
      split
      · exact .inl rfl
      · refine .inr (funext fun other => ?_)
        cases other with
        | encoder =>
            funext name
            simp only [handles, Function.update_self, PMap.set_apply]
            split <;> rfl
        | external => simp [handles]
  | external =>
      simp only [createOnce, createExternalTransmitterOnce]
      split
      · exact .inl rfl
      · refine .inr (funext fun other => ?_)
        cases other <;> simp [handles]

@[simp] theorem updateNameNeurons_handles (base : GanglionExternalBase)
    (neuron : Neuron) : (base.updateNameNeurons neuron).handles = base.handles := by
  funext kind
  cases kind <;> simp [handles]

end GanglionExternalBase

/-- A class of ganglia, as far as its synapses go.  What happens next to the
calls, such as the reactions to messages, are its events. -/
structure GanglionMethods where
  State : Type
  Reactant : Type
  RawReactant : Type
  /-- Where `_create_synapse_by_name` can be suspended. -/
  Pending : Type
  /-- What `_create_synapse_by_name` takes from outside, as a clock reading. -/
  Choice : Type
  Event : Type
  start : State
  /-- The class derives from `GanglionInternalBase`. -/
  isInternal : Bool
  base : State → GanglionExternalBase
  setBase : State → GanglionExternalBase → State
  reactants : State → SynapseId → List Reactant
  rawReactants : State → SynapseId → List RawReactant
  addReactants : State → SynapseId → List Reactant → State
  addRawReactants : State → SynapseId → List RawReactant → State
  /-- From the start, or from where it was suspended. -/
  createSynapseByName : State → Neuron → String → Option Pending → Choice →
    Option (State × Creation Pending)
  other : State → Event → Option State

/-- What a call does with the synapse of a name. -/
inductive Use (ρ ω : Type) where
  | give (name : String) (neuron : Option Neuron)
  | addReactants (neuron : Neuron) (reactants : List ρ)
  | addRawReactants (neuron : Neuron) (rawReactants : List ω)
  | updateTransmitter (neuron : Neuron)

namespace Use

variable {ρ ω : Type}

/-- The arguments of `get_synapse_by_name`. -/
def name : Use ρ ω → String
  | .give name _ => name
  | .addReactants neuron _ => neuron.name
  | .addRawReactants neuron _ => neuron.name
  | .updateTransmitter neuron => neuron.name

def neuron : Use ρ ω → Option Neuron
  | .give _ neuron => neuron
  | .addReactants neuron _ => some neuron
  | .addRawReactants neuron _ => some neuron
  | .updateTransmitter neuron => some neuron

end Use

/-- Where a call is. -/
inductive CallStage (π : Type) where
  /-- About to call `get_synapse_by_name`. -/
  | looking
  /-- In `_create_synapse_by_name`. -/
  | creating (neuron : Neuron) (pending : π)
  /-- `get_synapse_by_name` has returned. -/
  | holding (synapse : SynapseId)
  /-- In `asyncio.gather`, with the tasks that have not run yet. -/
  | gathering (synapse : SynapseId) (left : List TransmitterKind)

/-- The synapse that a call has got. -/
def CallStage.synapse? {π : Type} : CallStage π → Option SynapseId
  | .holding synapse => some synapse
  | .gathering synapse _ => some synapse
  | _ => none

/-- A call, with what is left to be done; the call is over if nothing is. -/
structure SynapseCall (methods : GanglionMethods) where
  uses : List (Use methods.Reactant methods.RawReactant)
  stage : CallStage methods.Pending

/-- A ganglion with the calls made so far. -/
structure SynapseCalls (methods : GanglionMethods) where
  ganglion : methods.State
  calls : List (SynapseCall methods)
  /-- What calls of `get_synapse_by_name` have returned, under the name they
  were called with. -/
  returned : List (String × Option SynapseId)
  /-- The reactants and raw reactants that were added for the neuron of a
  name. -/
  reacted : List (String × (methods.Reactant ⊕ methods.RawReactant))

namespace SynapseCalls

variable {methods : GanglionMethods}

inductive Action (methods : GanglionMethods) where
  | getSynapseByName (name : String) (neuron : Option Neuron)
  | react (neuron : Neuron) (reactants : List methods.Reactant)
  | reactRaw (neuron : Neuron) (rawReactants : List methods.RawReactant)
  | updateTransmitter (neuron : Neuron)
  | adapt (neuron : Neuron) (reactants : List methods.Reactant)
      (rawReactants : List methods.RawReactant)
  /-- A call takes its next step. -/
  | run (call : Nat) (choice : methods.Choice)
  /-- A task that a call has gathered runs. -/
  | runTransmitter (call : Nat) (kind : TransmitterKind)
  | other (event : methods.Event)

def init (methods : GanglionMethods) : SynapseCalls methods :=
  { ganglion := methods.start
    calls := []
    returned := []
    reacted := [] }

def base (state : SynapseCalls methods) : GanglionExternalBase :=
  methods.base state.ganglion

/-- What `adapt` of both base classes does. -/
def adaptUses (state : SynapseCalls methods) (neuron : Neuron)
    (reactants : List methods.Reactant)
    (rawReactants : List methods.RawReactant) :
    List (Use methods.Reactant methods.RawReactant) :=
  if state.base.capable neuron = false then
    []
  else
    (if reactants.isEmpty then [] else [.addReactants neuron reactants]) ++
      (if rawReactants.isEmpty then []
        else [.addRawReactants neuron rawReactants]) ++
      [.updateTransmitter neuron]

def call (state : SynapseCalls methods)
    (uses : List (Use methods.Reactant methods.RawReactant)) :
    SynapseCalls methods :=
  { state with calls := state.calls ++ [⟨uses, .looking⟩] }

def setCall (state : SynapseCalls methods) (index : Nat)
    (call : SynapseCall methods) : SynapseCalls methods :=
  { state with calls := state.calls.set index call }

/-- `get_synapse_by_name` returns.  A caller that gets no synapse fails on
it. -/
def giveBack (state : SynapseCalls methods) (index : Nat)
    (use : Use methods.Reactant methods.RawReactant)
    (rest : List (Use methods.Reactant methods.RawReactant))
    (result : Option SynapseId) : SynapseCalls methods :=
  { state.setCall index
      (match result with
        | some synapse => ⟨use :: rest, .holding synapse⟩
        | none => ⟨[], .looking⟩) with
    returned := (use.name, result) :: state.returned }

def fail (state : SynapseCalls methods) (index : Nat) : SynapseCalls methods :=
  state.setCall index ⟨[], .looking⟩

/-- `get_synapse_by_name` after a step of `_create_synapse_by_name`. -/
def goOn (state : SynapseCalls methods) (index : Nat)
    (use : Use methods.Reactant methods.RawReactant)
    (rest : List (Use methods.Reactant methods.RawReactant)) (neuron : Neuron) :
    Creation methods.Pending → SynapseCalls methods
  | .suspended pending =>
      state.setCall index ⟨use :: rest, .creating neuron pending⟩
  | .ended (.ok result) => state.giveBack index use rest result
  | .ended (.error (.synapseExists _)) =>
      match state.base.synapses use.name with
      | some synapse => state.giveBack index use rest (some synapse)
      | none => state.fail index
  | .ended (.error _) => state.fail index

/-- A step of `_create_synapse_by_name`. -/
def create (state : SynapseCalls methods) (index : Nat)
    (use : Use methods.Reactant methods.RawReactant)
    (rest : List (Use methods.Reactant methods.RawReactant)) (neuron : Neuron)
    (pending : Option methods.Pending) (choice : methods.Choice) :
    Option (SynapseCalls methods) :=
  (methods.createSynapseByName state.ganglion neuron use.name pending
    choice).map fun created =>
      goOn { state with ganglion := created.1 } index use rest neuron created.2

/-- `get_synapse_by_name` from its start. -/
def lookUp (state : SynapseCalls methods) (index : Nat)
    (use : Use methods.Reactant methods.RawReactant)
    (rest : List (Use methods.Reactant methods.RawReactant))
    (choice : methods.Choice) : Option (SynapseCalls methods) :=
  match state.base.synapses use.name with
  | some synapse => some (state.giveBack index use rest (some synapse))
  | none =>
      match use.neuron with
      | some neuron => state.create index use rest neuron none choice
      | none =>
          match state.base.getNeuronByName use.name with
          | .ok neuron => state.create index use rest neuron none choice
          | .error _ => some (state.fail index)

def useSynapse (state : SynapseCalls methods) (index : Nat)
    (use : Use methods.Reactant methods.RawReactant)
    (rest : List (Use methods.Reactant methods.RawReactant))
    (synapse : SynapseId) : SynapseCalls methods :=
  match use with
  | .give _ _ => state.setCall index ⟨rest, .looking⟩
  | .addReactants neuron reactants =>
      { state.setCall index ⟨rest, .looking⟩ with
        ganglion := methods.addReactants state.ganglion synapse reactants
        reacted := reactants.map (fun reactant => (neuron.name, .inl reactant)) ++
          state.reacted }
  | .addRawReactants neuron rawReactants =>
      { state.setCall index ⟨rest, .looking⟩ with
        ganglion := methods.addRawReactants state.ganglion synapse rawReactants
        reacted :=
          rawReactants.map (fun reactant => (neuron.name, .inr reactant)) ++
            state.reacted }
  | .updateTransmitter neuron =>
      if methods.isInternal then
        { state.setCall index ⟨rest, .looking⟩ with
          ganglion := methods.setBase state.ganglion
            ((state.base.createTransmitterOnce neuron
              synapse).updateNameNeurons neuron) }
      else
        state.setCall index
          ⟨use :: rest, .gathering synapse [.encoder, .external]⟩

/-- A task of `asyncio.gather` in `update_transmitter`. -/
def createTransmitter (state : SynapseCalls methods) (kind : TransmitterKind)
    (neuron : Neuron) (synapse : SynapseId) : methods.State :=
  methods.setBase state.ganglion (state.base.createOnce kind neuron synapse)

def step (state : SynapseCalls methods) :
    Action methods → Option (SynapseCalls methods)
  | .getSynapseByName name neuron => some (state.call [.give name neuron])
  | .react neuron reactants =>
      some (state.call [.addReactants neuron reactants])
  | .reactRaw neuron rawReactants =>
      if methods.isInternal then none
      else some (state.call [.addRawReactants neuron rawReactants])
  | .updateTransmitter neuron => some (state.call [.updateTransmitter neuron])
  | .adapt neuron reactants rawReactants =>
      if methods.isInternal ∧ rawReactants.isEmpty = false then none
      else some (state.call (state.adaptUses neuron reactants rawReactants))
  | .run index choice =>
      match state.calls[index]? with
      | some ⟨use :: rest, .looking⟩ => state.lookUp index use rest choice
      | some ⟨use :: rest, .creating neuron pending⟩ =>
          state.create index use rest neuron (some pending) choice
      | some ⟨use :: rest, .holding synapse⟩ =>
          some (state.useSynapse index use rest synapse)
      | some ⟨_ :: rest, .gathering _ []⟩ =>
          some (state.setCall index ⟨rest, .looking⟩)
      | _ => none
  | .runTransmitter index kind =>
      match state.calls[index]? with
      | some ⟨.updateTransmitter neuron :: rest, .gathering synapse left⟩ =>
          if kind ∈ left then
            some
              { state.setCall index ⟨.updateTransmitter neuron :: rest,
                  .gathering synapse (left.erase kind)⟩ with
                ganglion := state.createTransmitter kind neuron synapse }
          else
            none
      | _ => none
  | .other event =>
      (methods.other state.ganglion event).map fun ganglion =>
        { state with ganglion }

end SynapseCalls

namespace GanglionMethods

variable (methods : GanglionMethods)

def attached (state : methods.State) :
    Set (SynapseId × (methods.Reactant ⊕ methods.RawReactant)) :=
  { pair | pair.2.elim (· ∈ methods.reactants state pair.1)
    (· ∈ methods.rawReactants state pair.1) }

/-- Neither the registries nor the reactants change. -/
structure Alike (before after : methods.State) : Prop where
  synapses : (methods.base after).synapses = (methods.base before).synapses
  handles : (methods.base after).handles = (methods.base before).handles
  attached : methods.attached after = methods.attached before

/-- A new synapse is entered under a name. -/
structure Enters (before after : methods.State) (name : String)
    (synapse : SynapseId) : Prop where
  absent : (methods.base before).synapses name = none
  fresh : ∀ other, (methods.base before).synapses other ≠ some synapse
  synapses : (methods.base after).synapses =
    (methods.base before).synapses.set name synapse
  handles : (methods.base after).handles = (methods.base before).handles
  attached : methods.attached after = methods.attached before

/-- What a step of `_create_synapse_by_name` does. -/
inductive Creates (before after : methods.State) (name : String) :
    Creation methods.Pending → Prop where
  | suspend {pending : methods.Pending} :
      methods.Alike before after →
      Creates before after name (.suspended pending)
  | refuse {error : PlexoError} :
      methods.Alike before after →
      Creates before after name (.ended (.error error))
  | enter {synapse : SynapseId} :
      methods.Enters before after name synapse →
      Creates before after name (.ended (.ok (some synapse)))

/-- The laws of a class whose states are `legal`. -/
structure Lawful (legal : methods.State → Prop) : Prop where
  start : legal methods.start
  noSynapses : (methods.base methods.start).synapses = PMap.empty
  noHandles : (methods.base methods.start).handles = fun _ => PMap.empty
  noReactants : methods.attached methods.start = ∅
  setBase : ∀ state base, legal state →
    base.synapses = (methods.base state).synapses →
    legal (methods.setBase state base) ∧
      methods.base (methods.setBase state base) = base ∧
      methods.attached (methods.setBase state base) = methods.attached state
  addReactants : ∀ state synapse reactants, legal state →
    (∃ name, (methods.base state).synapses name = some synapse) →
    legal (methods.addReactants state synapse reactants) ∧
      methods.base (methods.addReactants state synapse reactants) =
        methods.base state ∧
      methods.attached (methods.addReactants state synapse reactants) =
        methods.attached state ∪
          { pair | pair.1 = synapse ∧ ∃ reactant ∈ reactants,
            pair.2 = .inl reactant }
  addRawReactants : ∀ state synapse rawReactants, legal state →
    (∃ name, (methods.base state).synapses name = some synapse) →
    legal (methods.addRawReactants state synapse rawReactants) ∧
      methods.base (methods.addRawReactants state synapse rawReactants) =
        methods.base state ∧
      methods.attached (methods.addRawReactants state synapse rawReactants) =
        methods.attached state ∪
          { pair | pair.1 = synapse ∧ ∃ reactant ∈ rawReactants,
            pair.2 = .inr reactant }
  createSynapseByName : ∀ state neuron name pending choice next creation,
    legal state →
    methods.createSynapseByName state neuron name pending choice =
      some (next, creation) →
    legal next ∧ methods.Creates state next name creation
  other : ∀ state event next, legal state →
    methods.other state event = some next →
    legal next ∧ (methods.Alike state next ∨
      ∃ name synapse, methods.Enters state next name synapse)

end GanglionMethods

namespace SynapseCalls

variable {methods : GanglionMethods}

/-- The synapses by their names, what the transmitters are bound to, and what
the calls have got and added. -/
def directory (state : SynapseCalls methods) :
    Directory String SynapseId TransmitterKind
      (methods.Reactant ⊕ methods.RawReactant) where
  entries := state.base.synapses
  handles := state.base.handles
  attached := methods.attached state.ganglion
  found := { pair | (pair.1, some pair.2) ∈ state.returned }
  registered := { pair | pair ∈ state.reacted }

/-- Each call holds a synapse that `get_synapse_by_name` has returned to it, and
that method never returned without one. -/
structure Held (state : SynapseCalls methods) : Prop where
  holding : ∀ call ∈ state.calls, ∀ use rest synapse, call.uses = use :: rest →
    call.stage.synapse? = some synapse →
    (use.name, some synapse) ∈ state.returned
  given : ∀ entry ∈ state.returned, entry.2.isSome = true

/-- The invariant of runs, with what a step does to the directory. -/
structure Advances (legal : methods.State → Prop)
    (before after : SynapseCalls methods) : Prop where
  legal : legal after.ganglion
  held : after.Held
  steps : Directory.Steps before.directory after.directory

theorem Held.setCall {state : SynapseCalls methods} (held : state.Held)
    {index : Nat} {call : SynapseCall methods}
    (holds : ∀ use rest synapse, call.uses = use :: rest →
      call.stage.synapse? = some synapse →
      (use.name, some synapse) ∈ state.returned) :
    (state.setCall index call).Held := by
  refine ⟨?_, held.given⟩
  intro other member
  rcases List.mem_or_eq_of_mem_set member with old | rfl
  · exact held.holding other old
  · exact holds

theorem Held.call {state : SynapseCalls methods} (held : state.Held)
    (uses : List (Use methods.Reactant methods.RawReactant)) :
    (state.call uses).Held := by
  refine ⟨?_, held.given⟩
  intro other member use rest synapse left holds
  rcases List.mem_append.mp member with old | new
  · exact held.holding other old use rest synapse left holds
  · rw [List.mem_singleton] at new
    subst new
    cases holds

theorem Held.toLooking {state : SynapseCalls methods} (held : state.Held)
    (index : Nat) (uses : List (Use methods.Reactant methods.RawReactant)) :
    (state.setCall index ⟨uses, .looking⟩).Held :=
  held.setCall fun _ _ _ _ holds => by cases holds

theorem Held.withGanglion {state : SynapseCalls methods} (held : state.Held)
    (ganglion : methods.State) :
    Held { state with ganglion } :=
  ⟨held.holding, held.given⟩

theorem directory_alike {state : SynapseCalls methods}
    {ganglion : methods.State}
    (alike : methods.Alike state.ganglion ganglion) :
    directory { state with ganglion } = state.directory := by
  simp only [directory, base, alike.synapses, alike.handles, alike.attached]

theorem directory_enters {state : SynapseCalls methods}
    {ganglion : methods.State} {name : String} {synapse : SynapseId}
    (enters : methods.Enters state.ganglion ganglion name synapse) :
    Directory.Step state.directory (directory { state with ganglion }) := by
  have entered : directory { state with ganglion } =
      state.directory.enter name synapse := by
    simp only [directory, base, Directory.enter, enters.synapses,
      enters.handles, enters.attached]
  rw [entered]
  exact .enter enters.absent enters.fresh

theorem giveBack_advances {legal : methods.State → Prop}
    {state : SynapseCalls methods} (legalNow : legal state.ganglion)
    (held : state.Held) (index : Nat)
    (use : Use methods.Reactant methods.RawReactant)
    (rest : List (Use methods.Reactant methods.RawReactant))
    {synapse : SynapseId}
    (known : state.base.synapses use.name = some synapse) :
    Advances legal state (state.giveBack index use rest (some synapse)) := by
  refine ⟨legalNow, ⟨?_, ?_⟩, .single ?_⟩
  · intro call member other others holder left holds
    rcases List.mem_or_eq_of_mem_set member with old | rfl
    · exact List.mem_cons_of_mem _
        (held.holding call old other others holder left holds)
    · cases left
      cases holds
      exact List.mem_cons_self
  · intro entry member
    rcases List.mem_cons.mp member with rfl | old
    · rfl
    · exact held.given entry old
  · have found : (state.giveBack index use rest (some synapse)).directory =
        state.directory.find use.name synapse := by
      simp only [directory, giveBack, setCall, base, Directory.find,
        List.mem_cons, Prod.mk.injEq, Option.some.injEq, Directory.mk.injEq,
        true_and, and_true]
      ext ⟨name, object⟩
      simp
    rw [found]
    exact .find known

variable {legal : methods.State → Prop}

theorem Advances.trans {first second third : SynapseCalls methods}
    (before : Advances legal first second)
    (after : Advances legal second third) : Advances legal first third :=
  ⟨after.legal, after.held, before.steps.trans after.steps⟩

theorem setCall_advances {state : SynapseCalls methods}
    (legalNow : legal state.ganglion) {index : Nat}
    {call : SynapseCall methods} (held : (state.setCall index call).Held) :
    Advances legal state (state.setCall index call) :=
  ⟨legalNow, held, .refl⟩

theorem ganglion_advances {state : SynapseCalls methods} (held : state.Held)
    {ganglion : methods.State} (legalNext : legal ganglion)
    (changes : methods.Alike state.ganglion ganglion ∨
      ∃ name synapse, methods.Enters state.ganglion ganglion name synapse) :
    Advances legal state { state with ganglion } := by
  refine ⟨legalNext, held.withGanglion ganglion, ?_⟩
  rcases changes with alike | ⟨name, synapse, enters⟩
  · rw [directory_alike alike]
  · exact .single (directory_enters enters)

theorem create_advances (lawful : methods.Lawful legal)
    {state next : SynapseCalls methods} (legalNow : legal state.ganglion)
    (held : state.Held) {index : Nat}
    {use : Use methods.Reactant methods.RawReactant}
    {rest : List (Use methods.Reactant methods.RawReactant)} {neuron : Neuron}
    {pending : Option methods.Pending} {choice : methods.Choice}
    (taken : state.create index use rest neuron pending choice = some next) :
    Advances legal state next := by
  obtain ⟨⟨ganglion, creation⟩, created, rfl⟩ := Option.map_eq_some_iff.mp taken
  obtain ⟨legalNext, creates⟩ := lawful.createSynapseByName _ _ _ _ _ _ _
    legalNow created
  have changes : methods.Alike state.ganglion ganglion ∨
      ∃ name synapse, methods.Enters state.ganglion ganglion name synapse := by
    cases creates with
    | suspend alike => exact .inl alike
    | refuse alike => exact .inl alike
    | enter enters => exact .inr ⟨_, _, enters⟩
  have moved := ganglion_advances held legalNext changes
  refine moved.trans ?_
  cases creates with
  | suspend alike =>
      exact setCall_advances legalNext
        (moved.held.setCall fun _ _ _ _ holds => by cases holds)
  | @refuse error alike =>
      have failed : Advances legal { state with ganglion }
          (fail { state with ganglion } index) :=
        setCall_advances legalNext (moved.held.toLooking index [])
      cases error with
      | synapseExists name =>
          simp only [goOn]
          split
          · next synapse known =>
              exact giveBack_advances legalNext moved.held index use rest known
          · exact failed
      | _ => exact failed
  | @enter synapse enters =>
      apply giveBack_advances legalNext moved.held
      simp [base, enters.synapses]

theorem lookUp_advances (lawful : methods.Lawful legal)
    {state next : SynapseCalls methods} (legalNow : legal state.ganglion)
    (held : state.Held) {index : Nat}
    {use : Use methods.Reactant methods.RawReactant}
    {rest : List (Use methods.Reactant methods.RawReactant)}
    {choice : methods.Choice}
    (taken : state.lookUp index use rest choice = some next) :
    Advances legal state next := by
  unfold lookUp at taken
  split at taken
  · next synapse known =>
      cases taken
      exact giveBack_advances legalNow held index use rest known
  · split at taken
    · exact create_advances lawful legalNow held taken
    · split at taken
      · exact create_advances lawful legalNow held taken
      · cases taken
        exact setCall_advances legalNow (held.toLooking index [])

theorem setBase_steps (lawful : methods.Lawful legal)
    {state : SynapseCalls methods} (legalNow : legal state.ganglion)
    {changed : GanglionExternalBase} (kind : TransmitterKind) {neuron : Neuron}
    {synapse : SynapseId}
    (found : (neuron.name, some synapse) ∈ state.returned)
    (synapses : changed.synapses = state.base.synapses)
    (handles : changed.handles =
      (state.base.createOnce kind neuron synapse).handles) :
    legal (methods.setBase state.ganglion changed) ∧
      Directory.Steps state.directory (directory { state with
        ganglion := methods.setBase state.ganglion changed }) := by
  obtain ⟨legalNext, sameBase, sameReactants⟩ :=
    lawful.setBase state.ganglion changed legalNow synapses
  refine ⟨legalNext, ?_⟩
  rcases state.base.createOnce_handles kind neuron synapse with kept | made
  · rw [kept] at handles
    have same : directory { state with
        ganglion := methods.setBase state.ganglion changed } =
          state.directory := by
      simp only [directory, base, sameBase, sameReactants, handles, synapses]
    rw [same]
  · rw [made] at handles
    have bound : directory { state with
        ganglion := methods.setBase state.ganglion changed } =
          state.directory.handle kind neuron.name synapse := by
      simp only [directory, base, sameBase, sameReactants, handles, synapses,
        Directory.handle]
    rw [bound]
    exact .single (.handle found)

theorem addReactants_steps {state : SynapseCalls methods} {use : String}
    {synapse : SynapseId} {ganglion : methods.State}
    {added : List (methods.Reactant ⊕ methods.RawReactant)}
    (found : (use, some synapse) ∈ state.returned)
    (sameBase : methods.base ganglion = state.base)
    (attached : methods.attached ganglion = methods.attached state.ganglion ∪
      { pair | pair.1 = synapse ∧ pair.2 ∈ added }) :
    Directory.Steps state.directory (directory { state with
      ganglion
      reacted := added.map (fun item => (use, item)) ++ state.reacted }) := by
  have grown : directory { state with
      ganglion
      reacted := added.map (fun item => (use, item)) ++ state.reacted } =
        state.directory.attach use synapse { item | item ∈ added } := by
    simp only [directory, base, Directory.attach, sameBase, attached,
      Directory.mk.injEq, true_and, Set.mem_ofPred_eq]
    ext ⟨name, item⟩
    simp only [List.mem_append, List.mem_map, Prod.mk.injEq, Set.mem_ofPred_eq,
      Set.mem_union]
    constructor
    · rintro (⟨item, new, rfl, rfl⟩ | old)
      · exact .inr ⟨rfl, new⟩
      · exact .inl old
    · rintro (old | ⟨rfl, new⟩)
      · exact .inr old
      · exact .inl ⟨item, new, rfl, rfl⟩
  rw [grown]
  exact .single (.attach found)

theorem useSynapse_advances (lawful : methods.Lawful legal)
    {state : SynapseCalls methods}
    (sound : ∀ {name synapse}, (name, some synapse) ∈ state.returned →
      state.base.synapses name = some synapse)
    (legalNow : legal state.ganglion)
    (held : state.Held) (index : Nat)
    (use : Use methods.Reactant methods.RawReactant)
    (rest : List (Use methods.Reactant methods.RawReactant))
    {synapse : SynapseId} (found : (use.name, some synapse) ∈ state.returned) :
    Advances legal state (state.useSynapse index use rest synapse) := by
  have idle := held.toLooking index rest
  cases use with
  | give name neuron => exact setCall_advances legalNow idle
  | addReactants neuron reactants =>
      obtain ⟨legalNext, sameBase, attached⟩ := lawful.addReactants
        state.ganglion synapse reactants legalNow ⟨_, sound found⟩
      refine ⟨legalNext, ⟨idle.holding, idle.given⟩, ?_⟩
      have steps := @addReactants_steps _ state neuron.name synapse _
        (reactants.map .inl) found sameBase (by simpa [eq_comm] using attached)
      rw [List.map_map] at steps
      exact steps
  | addRawReactants neuron rawReactants =>
      obtain ⟨legalNext, sameBase, attached⟩ := lawful.addRawReactants
        state.ganglion synapse rawReactants legalNow ⟨_, sound found⟩
      refine ⟨legalNext, ⟨idle.holding, idle.given⟩, ?_⟩
      have steps := @addReactants_steps _ state neuron.name synapse _
        (rawReactants.map .inr) found sameBase
        (by simpa [eq_comm] using attached)
      rw [List.map_map] at steps
      exact steps
  | updateTransmitter neuron =>
      simp only [useSynapse]
      split
      · obtain ⟨legalNext, steps⟩ := @setBase_steps _ _ lawful state
          legalNow ((state.base.createTransmitterOnce neuron
            synapse).updateNameNeurons neuron) .encoder neuron synapse found
          (by simp) (by simp [GanglionExternalBase.createOnce])
        exact ⟨legalNext, ⟨idle.holding, idle.given⟩, steps⟩
      · apply setCall_advances legalNow
        apply held.setCall
        intro other others holder left holds
        cases left
        cases holds
        exact found

theorem advances_of_step (lawful : methods.Lawful legal)
    {state next : SynapseCalls methods} {action : Action methods}
    (legalNow : legal state.ganglion) (held : state.Held)
    (sound : state.directory.Sound)
    (taken : state.step action = some next) : Advances legal state next := by
  cases action with
  | getSynapseByName name neuron =>
      cases taken
      exact ⟨legalNow, held.call _, .refl⟩
  | react neuron reactants =>
      cases taken
      exact ⟨legalNow, held.call _, .refl⟩
  | reactRaw neuron rawReactants =>
      simp only [step] at taken
      split at taken
      · cases taken
      · cases taken
        exact ⟨legalNow, held.call _, .refl⟩
  | updateTransmitter neuron =>
      cases taken
      exact ⟨legalNow, held.call _, .refl⟩
  | adapt neuron reactants rawReactants =>
      simp only [step] at taken
      split at taken
      · cases taken
      · cases taken
        exact ⟨legalNow, held.call _, .refl⟩
  | run index choice =>
      simp only [step] at taken
      split at taken
      · exact lookUp_advances lawful legalNow held taken
      · exact create_advances lawful legalNow held taken
      · next use rest synapse found =>
          cases taken
          have member := List.mem_of_getElem? found
          exact useSynapse_advances lawful (fun known => sound.found known)
            legalNow held index use rest
            (held.holding _ member use rest synapse rfl rfl)
      · cases taken
        exact setCall_advances legalNow (held.toLooking index _)
      · cases taken
  | runTransmitter index kind =>
      simp only [step] at taken
      split at taken
      · next neuron rest synapse left found =>
          split at taken
          · cases taken
            have member := List.mem_of_getElem? found
            have holds := held.holding _ member _ rest synapse rfl rfl
            obtain ⟨legalNext, steps⟩ := setBase_steps lawful legalNow kind
              holds (by simp) rfl
            have heldNext := @Held.setCall _ state held index
              ⟨.updateTransmitter neuron :: rest,
                .gathering synapse (left.erase kind)⟩ (by
                  intro use others holder same holds
                  cases same
                  cases holds
                  exact held.holding _ member _ rest synapse rfl rfl)
            exact ⟨legalNext, ⟨heldNext.holding, heldNext.given⟩, steps⟩
          · cases taken
      · cases taken
  | other event =>
      obtain ⟨ganglion, moved, rfl⟩ := Option.map_eq_some_iff.mp taken
      obtain ⟨legalNext, changes⟩ := lawful.other _ _ _ legalNow moved
      exact ganglion_advances held legalNext changes

/-- One synapse for each name: all calls of `get_synapse_by_name` return the one
in `_synapses`, the transmitters of a neuron are bound to it, and the reactants
added for a neuron are on it.  No other synapse has reactants. -/
structure OneSynapse (state : SynapseCalls methods) : Prop where
  returned : ∀ name result, (name, result) ∈ state.returned →
    ∃ synapse, result = some synapse ∧
      state.base.synapses name = some synapse
  transmitters : ∀ neuron : Neuron, ∀ transmitter,
    state.base.transmitters neuron.name = some transmitter →
    state.base.synapses neuron.name = some transmitter.synapse
  externalTransmitters : ∀ neuron : Neuron, ∀ synapse,
    state.base.externalTransmitters neuron.name = some synapse →
    state.base.synapses neuron.name = some synapse
  reacted : ∀ name reactant, (name, reactant) ∈ state.reacted →
    ∃ synapse, state.base.synapses name = some synapse ∧
      (synapse, reactant) ∈ methods.attached state.ganglion
  reachable : ∀ synapse reactant,
    (synapse, reactant) ∈ methods.attached state.ganglion →
    ∃ name, state.base.synapses name = some synapse

/-- The entries of `before` are those of `after`. -/
def Kept (before after : SynapseCalls methods) : Prop :=
  ∀ name synapse, before.base.synapses name = some synapse →
    after.base.synapses name = some synapse

/-- The invariant of runs. -/
structure Upheld (legal : methods.State → Prop)
    (state : SynapseCalls methods) : Prop where
  legal : legal state.ganglion
  held : state.Held
  sound : state.directory.Sound

theorem upheld_init (lawful : methods.Lawful legal) :
    Upheld legal (init methods) := by
  refine ⟨lawful.start, ?_, ?_⟩
  · constructor <;> simp [init]
  · have blank : (init methods).directory = Directory.blank := by
      simp [directory, init, base, Directory.blank, lawful.noSynapses,
        lawful.noHandles, lawful.noReactants]
    rw [blank]
    exact Directory.blank_sound

theorem Upheld.step (lawful : methods.Lawful legal)
    {state next : SynapseCalls methods} {action : Action methods}
    (upheld : Upheld legal state) (taken : state.step action = some next) :
    Upheld legal next := by
  have advances := advances_of_step lawful upheld.legal upheld.held upheld.sound
    taken
  exact ⟨advances.legal, advances.held, advances.steps.sound upheld.sound⟩

theorem Upheld.oneSynapse {state : SynapseCalls methods}
    (upheld : Upheld legal state) : state.OneSynapse := by
  have sound := upheld.sound
  constructor
  · intro name result member
    obtain ⟨synapse, rfl⟩ :=
      Option.isSome_iff_exists.mp (upheld.held.given _ member)
    exact ⟨synapse, rfl, sound.found member⟩
  · intro neuron transmitter bound
    exact @Directory.Sound.handles _ _ _ _ _ sound .encoder _ _
      (congrArg (Option.map Transmitter.synapse) bound)
  · intro neuron synapse bound
    exact @Directory.Sound.handles _ _ _ _ _ sound .external _ _ bound
  · exact fun name reactant added => sound.registered added
  · exact fun synapse reactant attached => sound.attached attached

/-- In every run of a lawful class there is one synapse for each name, and no
entry is ever replaced. -/
theorem oneSynapse_of_lawful (lawful : methods.Lawful legal)
    {steps : List (SynapseCalls methods × Action methods)}
    {finish : SynapseCalls methods} (path : Path step (init methods) steps finish) :
    finish.OneSynapse ∧ ∀ entry ∈ steps, entry.1.Kept finish := by
  have always : Upheld legal finish ∧
      ∀ entry ∈ steps, Directory.Steps entry.1.directory finish.directory := by
    induction path with
    | refl => exact ⟨upheld_init lawful, by simp⟩
    | snoc before taken induction =>
        obtain ⟨upheld, earlier⟩ := induction
        have advances := advances_of_step lawful upheld.legal upheld.held
          upheld.sound taken
        refine ⟨upheld.step lawful taken, ?_⟩
        intro entry member
        rcases List.mem_cons.mp member with rfl | old
        · exact advances.steps
        · exact (earlier entry old).trans advances.steps
  refine ⟨always.1.oneSynapse, ?_⟩
  intro entry member name synapse known
  exact (always.2 entry member).grows.entries known

end SynapseCalls

end Plexo
