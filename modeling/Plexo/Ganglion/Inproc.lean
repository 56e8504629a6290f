import Plexo.Library.Bus
import Plexo.Plexus.Wiring

/-!
# A ganglion within one process

`GanglionInproc` without filters, used by calls that overlap.  No call but
`transmit` suspends, so the others are single steps.  `transmit` looks up the
transmitter at once and gathers its call as a task, which runs the reactants of
the dendrite, as they are then, as further tasks.
-/

namespace Plexo

open Transition PubSub

/-- What has become of a call of `transmit`. -/
inductive TransmissionStatus where
  | raised (error : PlexoError)
  /-- The transmitter has not run yet. -/
  | gathered (synapse : SynapseId)
  /-- The dendrite has gathered its reactants, of which these have not run yet,
  for its neuron. -/
  | transduced (neuron : Neuron) (reactants : List Reactant)

def TransmissionStatus.progress : TransmissionStatus → Progress Reactant
  | .raised _ => .refused
  | .gathered _ => .accepted
  | .transduced _ reactants => .handedOut { reactant | reactant ∈ reactants }

/-- The call of `transmit` is over. -/
def TransmissionStatus.ended : TransmissionStatus → Bool
  | .raised _ => true
  | .gathered _ => false
  | .transduced _ reactants => reactants.isEmpty

structure Transmission (δ : Type) where
  data : δ
  neuron : Neuron
  status : TransmissionStatus

/-- A call of a reactant. -/
structure Invocation (δ : Type) where
  /-- The position of the call of `transmit`. -/
  transmission : Nat
  reactant : Reactant
  data : δ
  neuron : Neuron

structure GanglionInproc (δ : Type) where
  ganglion : Ganglion
  transmissions : List (Transmission δ)
  invocations : List (Invocation δ)

namespace GanglionInproc

inductive Action (δ : Type) where
  | adapt (neuron : Neuron) (reactants : List Reactant)
  | react (neuron : Neuron) (reactants : List Reactant)
  | updateTransmitter (neuron : Neuron)
  | transmit (data : δ) (neuron : Neuron)
  /-- The task of a transmitter runs. -/
  | transduce (transmission : Nat)
  /-- The task of a reactant runs. -/
  | invoke (transmission : Nat) (reactant : Reactant)

variable {δ : Type}

namespace Action

def Attaches (name : String) (reactant : Reactant) : Action δ → Prop
  | .adapt neuron reactants => neuron.name = name ∧ reactant ∈ reactants
  | .react neuron reactants => neuron.name = name ∧ reactant ∈ reactants
  | _ => False

def Opens (name : String) : Action δ → Prop
  | .adapt neuron _ => neuron.name = name
  | .updateTransmitter neuron => neuron.name = name
  | _ => False

def transmits (name : String) : Action δ → Bool
  | .transmit _ neuron => neuron.name = name
  | _ => false

end Action

def init : GanglionInproc δ := ⟨.init .inproc {}, [], []⟩

/-- `transmit` up to where it first suspends. -/
def startTransmit (inproc : GanglionInproc δ) (neuron : Neuron) :
    TransmissionStatus :=
  match inproc.ganglion.base.getTransmitter neuron with
  | .error error => .raised error
  | .ok transmitter => .gathered transmitter.synapse

def transmit (inproc : GanglionInproc δ) (data : δ) (neuron : Neuron) :
    GanglionInproc δ :=
  { inproc with
    transmissions := inproc.transmissions ++
      [⟨data, neuron, inproc.startTransmit neuron⟩] }

def setTransmission (inproc : GanglionInproc δ) (index : Nat)
    (transmission : Transmission δ) : GanglionInproc δ :=
  { inproc with transmissions := inproc.transmissions.set index transmission }

def step (inproc : GanglionInproc δ) : Action δ → Option (GanglionInproc δ)
  | .adapt neuron reactants =>
      some { inproc with ganglion := inproc.ganglion.adapt neuron reactants [] }
  | .react neuron reactants =>
      some { inproc with ganglion := inproc.ganglion.react neuron reactants }
  | .updateTransmitter neuron =>
      some { inproc with ganglion := inproc.ganglion.updateTransmitter neuron }
  | .transmit data neuron => some (inproc.transmit data neuron)
  | .transduce index =>
      match inproc.transmissions[index]? with
      | some ⟨data, neuron, .gathered synapse⟩ =>
          let dendrite := inproc.ganglion.objects synapse
          some (inproc.setTransmission index
            ⟨data, neuron, .transduced dendrite.neuron dendrite.reactants⟩)
      | _ => none
  | .invoke index reactant =>
      match inproc.transmissions[index]? with
      | some ⟨data, neuron, .transduced target reactants⟩ =>
          if reactant ∈ reactants then
            some
              { inproc.setTransmission index
                  ⟨data, neuron, .transduced target (reactants.erase reactant)⟩ with
                invocations :=
                  inproc.invocations ++ [⟨index, reactant, data, target⟩] }
          else
            none
      | _ => none

def Ended (inproc : GanglionInproc δ) (index : Nat) : Prop :=
  ∃ transmission, inproc.transmissions[index]? = some transmission ∧
    transmission.status.ended = true

/-- How often a call of `transmit` has called a reactant. -/
def invoked (inproc : GanglionInproc δ) (index : Nat) (reactant : Reactant) :
    Nat :=
  inproc.invocations.countP fun invocation =>
    invocation.transmission = index ∧ invocation.reactant = reactant

/-- How often the calls of `transmit` from `first` on have called a reactant for
the neuron of a name. -/
def invokedFrom (inproc : GanglionInproc δ) (first : Nat) (name : String)
    (reactant : Reactant) : Nat :=
  inproc.invocations.countP fun invocation =>
    first ≤ invocation.transmission ∧ invocation.neuron.name = name ∧
      invocation.reactant = reactant

def bus (inproc : GanglionInproc δ) : Bus String Reactant δ where
  subscribers := fun name =>
    { reactant | reactant ∈ inproc.ganglion.reactantsOf name }
  opened := { name | inproc.ganglion.hasTransmitter name = true }
  posts := inproc.transmissions.map fun transmission =>
    ⟨transmission.neuron.name, transmission.data,
      transmission.status.progress⟩
  receipts := inproc.invocations.map fun invocation =>
    ⟨invocation.transmission, invocation.neuron.name, invocation.reactant,
      invocation.data⟩

def event : Action δ → Event String Reactant δ
  | .adapt neuron reactants =>
      .register neuron.name { reactant | reactant ∈ reactants } true
  | .react neuron reactants =>
      .register neuron.name { reactant | reactant ∈ reactants } false
  | .updateTransmitter neuron => .register neuron.name ∅ true
  | .transmit data neuron => .publish neuron.name data
  | .transduce index => .handOut index
  | .invoke index reactant => .receive index reactant

end GanglionInproc

namespace Ganglion

/-- An operation that keeps filters and synapses, attaches reactants to one
name, and may create its transmitter. -/
structure Registers (before after : Ganglion) (name : String)
    (reactants : List Reactant) (opens : Bool) : Prop where
  filters : after.base.filters = before.base.filters
  synapses : ∀ {other synapse}, before.base.synapses other = some synapse →
    after.base.synapses other = some synapse
  attached : ∀ other reactant, reactant ∈ after.reactantsOf other ↔
    reactant ∈ before.reactantsOf other ∨ other = name ∧ reactant ∈ reactants
  nodup : ∀ {other}, (before.reactantsOf other).Nodup →
    (after.reactantsOf other).Nodup
  transmitter : ∀ other, after.hasTransmitter other = true ↔
    before.hasTransmitter other = true ∨ other = name ∧ opens = true

theorem react_registers (ganglion : Ganglion) (neuron : Neuron)
    (reactants : List Reactant) :
    Registers ganglion (ganglion.react neuron reactants) neuron.name reactants
      false := by
  have changed := ganglion.react_changes neuron reactants
  have reactantsOf : ∀ name,
      (ganglion.react neuron reactants).reactantsOf name =
        if name = neuron.name then
          addReactantsTo (ganglion.reactantsOf name) reactants
        else ganglion.reactantsOf name := by
    intro name
    rw [Ganglion.reactantsOf, changed.dendrite?]
    by_cases same : name = neuron.name
    · subst same
      rw [if_pos rfl, if_pos rfl, ← dendriteOf_reactants]
      rfl
    · rw [if_neg same, if_neg same]
      rfl
  refine ⟨changed.filters, getSynapse_synapses neuron, ?_, ?_, ?_⟩
  · intro name reactant
    rw [reactantsOf]
    split
    · next same => simp [mem_addReactantsTo, same]
    · next different => simp [different]
  · intro name nodup
    rw [reactantsOf]
    split
    · exact nodup_addReactantsTo nodup reactants
    · exact nodup
  · intro name
    simp [hasTransmitter]

theorem updateTransmitter_registers (ganglion : Ganglion) (neuron : Neuron) :
    Registers ganglion (ganglion.updateTransmitter neuron) neuron.name []
      true := by
  have changed := ganglion.updateTransmitter_changes neuron
  have reactantsOf : ∀ name,
      (ganglion.updateTransmitter neuron).reactantsOf name =
        ganglion.reactantsOf name := by
    intro name
    rw [Ganglion.reactantsOf, changed.dendrite?]
    by_cases same : name = neuron.name
    · subst same
      rw [if_pos rfl, ← dendriteOf_reactants]
      rfl
    · rw [if_neg same]
      rfl
  refine ⟨changed.filters, ?_, ?_, ?_, ?_⟩
  · exact updateTransmitter_synapses neuron
  · intro name reactant
    simp [reactantsOf]
  · intro name nodup
    rw [reactantsOf]
    exact nodup
  · intro name
    rw [updateTransmitter_hasTransmitter]
    simp only [Bool.or_eq_true, decide_eq_true_eq, and_true]
    rw [or_comm, @eq_comm _ name]

theorem Registers.trans {first second third : Ganglion} {name : String}
    {reactants : List Reactant}
    (attaches : Registers first second name reactants false)
    (opens : Registers second third name [] true) :
    Registers first third name reactants true := by
  refine ⟨opens.filters.trans attaches.filters,
    fun known => opens.synapses (attaches.synapses known), ?_,
    fun nodup => opens.nodup (attaches.nodup nodup), ?_⟩
  · intro other reactant
    rw [opens.attached, attaches.attached]
    simp
  · intro other
    rw [opens.transmitter, attaches.transmitter]
    simp

theorem adapt_registers {ganglion : Ganglion} {neuron : Neuron}
    (capable : ganglion.capable neuron = true) (reactants : List Reactant) :
    Registers ganglion (ganglion.adapt neuron reactants []) neuron.name
      reactants true := by
  simp only [adapt, capable, Bool.true_eq_false, if_false, if_true]
  by_cases none : reactants = []
  · subst none
    exact updateTransmitter_registers ganglion neuron
  · rw [if_neg none]
    exact (react_registers ganglion neuron reactants).trans
      (updateTransmitter_registers _ neuron)

end Ganglion

namespace GanglionInproc

variable {δ : Type}

structure Sound (inproc : GanglionInproc δ) : Prop where
  filters : inproc.ganglion.base.filters = {}
  nodup : ∀ name, (inproc.ganglion.reactantsOf name).Nodup
  gathered : ∀ {data neuron synapse},
    ⟨data, neuron, .gathered synapse⟩ ∈ inproc.transmissions →
      inproc.ganglion.base.synapses neuron.name = some synapse
  transduced : ∀ {data neuron target reactants},
    ⟨data, neuron, .transduced target reactants⟩ ∈ inproc.transmissions →
      target.name = neuron.name ∧ reactants.Nodup

theorem sound_init : (init : GanglionInproc δ).Sound where
  filters := rfl
  nodup := by
    intro name
    simp [init, Ganglion.init, Ganglion.reactantsOf, Ganglion.dendrite?]
  gathered := fun member => by cases member
  transduced := fun member => by cases member

theorem Sound.capable {inproc : GanglionInproc δ} (sound : inproc.Sound)
    (neuron : Neuron) : inproc.ganglion.capable neuron = true := by
  simp [Ganglion.capable, GanglionExternalBase.capable, sound.filters,
    Filters.capable]

theorem Sound.registers {inproc : GanglionInproc δ} (sound : inproc.Sound)
    {ganglion : Ganglion} {name : String} {reactants : List Reactant}
    {opens : Bool}
    (registers : Ganglion.Registers inproc.ganglion ganglion name reactants
      opens) : Sound { inproc with ganglion } where
  filters := registers.filters.trans sound.filters
  nodup := fun name => registers.nodup (sound.nodup name)
  gathered := fun member => registers.synapses (sound.gathered member)
  transduced := sound.transduced

theorem Sound.setTransmission {inproc : GanglionInproc δ} (sound : inproc.Sound)
    (index : Nat) {data : δ} {neuron target : Neuron}
    {reactants : List Reactant} (named : target.name = neuron.name)
    (nodup : reactants.Nodup) :
    (inproc.setTransmission index
      ⟨data, neuron, .transduced target reactants⟩).Sound := by
  refine ⟨sound.filters, sound.nodup, ?_, ?_⟩
  · intro other otherNeuron synapse member
    rcases List.mem_or_eq_of_mem_set member with old | new
    · exact sound.gathered old
    · cases new
  · intro other otherNeuron otherTarget others member
    rcases List.mem_or_eq_of_mem_set member with old | new
    · exact sound.transduced old
    · cases new
      exact ⟨named, nodup⟩

theorem Sound.dendrite {inproc : GanglionInproc δ} (sound : inproc.Sound)
    {data : δ} {neuron : Neuron} {synapse : SynapseId}
    (member : ⟨data, neuron, .gathered synapse⟩ ∈ inproc.transmissions) :
    (inproc.ganglion.objects synapse).neuron.name = neuron.name ∧
      (inproc.ganglion.objects synapse).reactants =
        inproc.ganglion.reactantsOf neuron.name := by
  have found := sound.gathered member
  refine ⟨(inproc.ganglion.connected.named found).2, ?_⟩
  simp [Ganglion.reactantsOf, Ganglion.dendrite?, found]

theorem Sound.step {inproc next : GanglionInproc δ} {action : Action δ}
    (sound : inproc.Sound) (taken : inproc.step action = some next) :
    next.Sound := by
  cases action with
  | adapt neuron reactants =>
      obtain ⟨⟩ := taken
      exact sound.registers
        (Ganglion.adapt_registers (sound.capable neuron) reactants)
  | react neuron reactants =>
      obtain ⟨⟩ := taken
      exact sound.registers (Ganglion.react_registers _ neuron reactants)
  | updateTransmitter neuron =>
      obtain ⟨⟩ := taken
      exact sound.registers (Ganglion.updateTransmitter_registers _ neuron)
  | transmit data neuron =>
      obtain ⟨⟩ := taken
      refine ⟨sound.filters, sound.nodup, ?_, ?_⟩
      · intro other otherNeuron synapse member
        rcases List.mem_append.mp member with old | new
        · exact sound.gathered old
        · have same := List.mem_singleton.mp new
          simp only [Transmission.mk.injEq, startTransmit] at same
          obtain ⟨_, rfl, status⟩ := same
          split at status
          · cases status
          · next found =>
              obtain ⟨⟩ := status
              simp only [GanglionExternalBase.getTransmitter] at found
              split at found
              · cases found
              · next known =>
                  obtain ⟨⟩ := found
                  exact inproc.ganglion.connected.transmitters known
      · intro other otherNeuron target reactants member
        rcases List.mem_append.mp member with old | new
        · exact sound.transduced old
        · have same := List.mem_singleton.mp new
          simp only [Transmission.mk.injEq, startTransmit] at same
          obtain ⟨_, _, status⟩ := same
          split at status
          · cases status
          · cases status
  | transduce index =>
      simp only [GanglionInproc.step] at taken
      split at taken
      · next data neuron synapse found =>
          obtain ⟨⟩ := taken
          obtain ⟨named, same⟩ := sound.dendrite (List.mem_of_getElem? found)
          apply sound.setTransmission index named
          rw [same]
          exact sound.nodup neuron.name
      · cases taken
  | invoke index reactant =>
      simp only [GanglionInproc.step] at taken
      split at taken
      · next data neuron target reactants found =>
          split at taken
          · obtain ⟨⟩ := taken
            obtain ⟨named, nodup⟩ :=
              sound.transduced (List.mem_of_getElem? found)
            have after := @Sound.setTransmission _ _ sound index data _ _ _
              named (nodup.erase reactant)
            exact ⟨after.filters, after.nodup, after.gathered,
              after.transduced⟩
          · cases taken
      · cases taken

theorem bus_registers {inproc : GanglionInproc δ} {ganglion : Ganglion}
    {name : String} {reactants : List Reactant} {opens : Bool}
    (registers : Ganglion.Registers inproc.ganglion ganglion name reactants
      opens) :
    inproc.bus.register name { reactant | reactant ∈ reactants } opens =
      bus { inproc with ganglion } := by
  simp only [Bus.register, bus, registers.attached, registers.transmitter]
  rfl

theorem bus_init : (init : GanglionInproc δ).bus = Bus.empty := by
  simp [bus, init, Bus.empty, Ganglion.init, Ganglion.reactantsOf,
    Ganglion.dendrite?, Ganglion.hasTransmitter]

theorem posts_of_transmission {inproc : GanglionInproc δ} {index : Nat}
    {transmission : Transmission δ}
    (found : inproc.transmissions[index]? = some transmission) :
    inproc.bus.posts[index]? =
      some ⟨transmission.neuron.name, transmission.data,
        transmission.status.progress⟩ := by
  simp [bus, found]

theorem progress_startTransmit (inproc : GanglionInproc δ) (neuron : Neuron) :
    (inproc.startTransmit neuron).progress =
      if inproc.ganglion.hasTransmitter neuron.name = true then .accepted
      else .refused := by
  unfold startTransmit GanglionExternalBase.getTransmitter
    Ganglion.hasTransmitter
  cases inproc.ganglion.base.transmitters neuron.name with
  | none => rfl
  | some transmitter => rfl

theorem bus_transmit (inproc : GanglionInproc δ) (data : δ) (neuron : Neuron) :
    (inproc.transmit data neuron).bus =
      inproc.bus.publish neuron.name data := by
  simp only [bus, transmit, Bus.publish, List.map_append, List.map_singleton,
    progress_startTransmit, Set.mem_ofPred_eq]
  congr

theorem bus_setTransmission (inproc : GanglionInproc δ) (index : Nat)
    (data : δ) (neuron target : Neuron) (reactants : List Reactant) :
    (inproc.setTransmission index
      ⟨data, neuron, .transduced target reactants⟩).bus =
      inproc.bus.setPost index neuron.name data
        { reactant | reactant ∈ reactants } := by
  simp [bus, setTransmission, Bus.setPost, List.map_set,
    TransmissionStatus.progress]

/-- Every step is one of the bus. -/
theorem step_refines {inproc next : GanglionInproc δ} {action : Action δ}
    (sound : inproc.Sound) (taken : inproc.step action = some next) :
    inproc.bus.step (event action) = some next.bus := by
  cases action with
  | adapt neuron reactants =>
      obtain ⟨⟩ := taken
      exact congrArg some (bus_registers
        (Ganglion.adapt_registers (sound.capable neuron) reactants))
  | react neuron reactants =>
      obtain ⟨⟩ := taken
      exact congrArg some
        (bus_registers (Ganglion.react_registers _ neuron reactants))
  | updateTransmitter neuron =>
      obtain ⟨⟩ := taken
      have same := bus_registers
        (Ganglion.updateTransmitter_registers inproc.ganglion neuron)
      simp only [List.not_mem_nil, Set.ofPred_false] at same
      exact congrArg some same
  | transmit data neuron =>
      obtain ⟨⟩ := taken
      exact congrArg some (bus_transmit inproc data neuron).symm
  | transduce index =>
      simp only [step] at taken
      split at taken
      · next data neuron synapse found =>
          obtain ⟨⟩ := taken
          obtain ⟨_, same⟩ := sound.dendrite (List.mem_of_getElem? found)
          simp only [Bus.step, event, posts_of_transmission found, same,
            bus_setTransmission]
          rfl
      · cases taken
  | invoke index reactant =>
      simp only [step] at taken
      split at taken
      · next data neuron target reactants found =>
          split at taken
          · next waits =>
              obtain ⟨⟩ := taken
              obtain ⟨named, nodup⟩ :=
                sound.transduced (List.mem_of_getElem? found)
              have erased : { other | other ∈ reactants.erase reactant } =
                  { other | other ∈ reactants } \ {reactant} := by
                ext other
                simp [nodup.mem_erase_iff, and_comm]
              have posted := bus_setTransmission inproc index data neuron
                target (reactants.erase reactant)
              simp only [Bus.step, event, posts_of_transmission found,
                TransmissionStatus.progress, Set.mem_ofPred_eq, if_pos waits]
              rw [← erased, ← posted]
              simp [bus, setTransmission, named]
          · cases taken
      · cases taken

variable {steps : List (GanglionInproc δ × Action δ)}
  {start finish : GanglionInproc δ}

theorem path_refines (sound : start.Sound)
    (path : Path step start steps finish) :
    Path Bus.step start.bus
      (steps.map fun entry => (entry.1.bus, event entry.2)) finish.bus := by
  apply path.refine bus event sound
  · intro inproc action next sound taken
    exact sound.step taken
  · intro inproc action next sound taken
    exact step_refines sound taken

theorem subscribes_event {action : Action δ} {name : String}
    {reactant : Reactant} :
    (event action).Subscribes name reactant ↔
      action.Attaches name reactant := by
  cases action <;> simp [event, Event.Subscribes, Action.Attaches]

theorem opens_event {action : Action δ} {name : String} :
    (event action).Opens name ↔ action.Opens name := by
  cases action <;> simp [event, Event.Opens, Action.Opens]

theorem publishes_event (action : Action δ) (name : String) :
    (event action).publishes name = action.transmits name := by
  cases action <;> rfl

/-- The reactants of a name are those that have been attached to it. -/
theorem mem_subscribers_iff (path : Path step init steps finish)
    {name : String} {reactant : Reactant} :
    reactant ∈ finish.bus.subscribers name ↔
      ∃ entry ∈ steps, entry.2.Attaches name reactant := by
  have attached := Bus.mem_subscribers_path (path_refines sound_init path) name
    reactant
  rw [attached, bus_init]
  simp [Bus.empty, subscribes_event]

theorem mem_opened_iff (path : Path step init steps finish) {name : String} :
    name ∈ finish.bus.opened ↔ ∃ entry ∈ steps, entry.2.Opens name := by
  have opened := Bus.mem_opened_path (path_refines sound_init path) name
  rw [opened, bus_init]
  simp [Bus.empty, opens_event]

theorem bus_received (inproc : GanglionInproc δ) (index : Nat)
    (reactant : Reactant) :
    inproc.bus.received index reactant = inproc.invoked index reactant := by
  simp only [Bus.received, bus, invoked, List.countP_map]
  rfl

theorem bus_receivedFrom (inproc : GanglionInproc δ) (first : Nat)
    (name : String) (reactant : Reactant) :
    inproc.bus.receivedFrom first name reactant =
      inproc.invokedFrom first name reactant := by
  simp only [Bus.receivedFrom, bus, invokedFrom, List.countP_map]
  rfl

theorem Ended.bus {inproc : GanglionInproc δ} {index : Nat}
    (ended : inproc.Ended index) : inproc.bus.Ended index := by
  obtain ⟨⟨data, neuron, status⟩, found, isEnded⟩ := ended
  have posted := posts_of_transmission found
  refine ⟨neuron.name, data, ?_⟩
  cases status with
  | raised error => exact .inl posted
  | gathered synapse => cases isEnded
  | transduced target reactants =>
      rw [List.isEmpty_iff.mp isEnded] at posted
      exact .inr (by simpa [TransmissionStatus.progress] using posted)

theorem exists_invoked {inproc : GanglionInproc δ} {index : Nat} {data : δ}
    {neuron target : Neuron} {reactants : List Reactant}
    (found : inproc.transmissions[index]? =
      some ⟨data, neuron, .transduced target reactants⟩) :
    ∃ steps finish, Path step inproc steps finish ∧ finish.Ended index := by
  induction reactants generalizing inproc with
  | nil => exact ⟨[], inproc, .refl, _, found, rfl⟩
  | cons reactant reactants induction =>
      have taken : inproc.step (.invoke index reactant) =
          some
            { inproc.setTransmission index
                ⟨data, neuron, .transduced target reactants⟩ with
              invocations :=
                inproc.invocations ++ [⟨index, reactant, data, target⟩] } := by
        simp [step, found]
      have bound := (List.getElem?_eq_some_iff.mp found).1
      obtain ⟨steps, finish, path, ended⟩ :=
        @induction { inproc.setTransmission index
            ⟨data, neuron, .transduced target reactants⟩ with
          invocations :=
            inproc.invocations ++ [⟨index, reactant, data, target⟩] }
          (List.getElem?_set_self bound)
      exact ⟨_, finish, (Transition.Path.refl.snoc taken).append path, ended⟩

theorem exists_ended {inproc : GanglionInproc δ} {index : Nat}
    {transmission : Transmission δ}
    (found : inproc.transmissions[index]? = some transmission) :
    ∃ steps finish, Path step inproc steps finish ∧ finish.Ended index := by
  obtain ⟨data, neuron, status⟩ := transmission
  cases status with
  | raised error => exact ⟨[], inproc, .refl, _, found, rfl⟩
  | gathered synapse =>
      have taken : inproc.step (.transduce index) =
          some (inproc.setTransmission index
            ⟨data, neuron, .transduced
              (inproc.ganglion.objects synapse).neuron
              (inproc.ganglion.objects synapse).reactants⟩) := by
        simp [step, found]
      have bound := (List.getElem?_eq_some_iff.mp found).1
      obtain ⟨steps, finish, path, ended⟩ :=
        @exists_invoked δ (inproc.setTransmission index
          ⟨data, neuron, .transduced (inproc.ganglion.objects synapse).neuron
            (inproc.ganglion.objects synapse).reactants⟩) index data neuron _ _
          (List.getElem?_set_self bound)
      exact ⟨_, finish, (Transition.Path.refl.snoc taken).append path, ended⟩
  | transduced target reactants => exact exists_invoked found

/-- `steps` came before the call, which is the one at `index`, and `rest` after
it. -/
structure Delivers (steps : List (GanglionInproc δ × Action δ)) (index : Nat)
    (data : δ) (neuron : Neuron) (rest : List (GanglionInproc δ × Action δ))
    (finish : GanglionInproc δ) : Prop where
  raised : finish.transmissions[index]? = some
      ⟨data, neuron, .raised (.transmitterNotFound neuron.name)⟩ ↔
    ¬ ∃ entry ∈ steps, entry.2.Opens neuron.name
  onlyRaised : ∀ other target error,
    finish.transmissions[index]? = some ⟨other, target, .raised error⟩ →
      other = data ∧ target = neuron ∧
        error = .transmitterNotFound neuron.name
  same : ∀ invocation ∈ finish.invocations, invocation.transmission = index →
    invocation.data = data ∧ invocation.neuron.name = neuron.name
  atMostOnce : ∀ reactant, finish.invoked index reactant ≤ 1
  registered : ∀ reactant, 0 < finish.invoked index reactant →
    ∃ entry ∈ rest ++ steps, entry.2.Attaches neuron.name reactant
  once : finish.Ended index →
    (∃ entry ∈ steps, entry.2.Opens neuron.name) →
      ∃ late state soon, rest = late ++ (state, .transduce index) :: soon ∧
        ∀ reactant,
          ((∃ entry ∈ soon ++ steps, entry.2.Attaches neuron.name reactant) →
            finish.invoked index reactant = 1) ∧
          (¬ (∃ entry ∈ soon ++ steps,
              entry.2.Attaches neuron.name reactant) →
            finish.invoked index reactant = 0)
  ends : ∃ more later, Path step finish more later ∧ later.Ended index

theorem transmission_set {inproc : GanglionInproc δ} {index other : Nat}
    {data value : δ} {neuron named target : Neuron}
    {status old : TransmissionStatus}
    (found : inproc.transmissions[index]? = some ⟨data, neuron, status⟩)
    (here : inproc.transmissions[other]? = some ⟨value, named, old⟩)
    (reactants : List Reactant) :
    ∃ after,
      (inproc.setTransmission other
        ⟨value, named, .transduced target reactants⟩).transmissions[index]? =
          some ⟨data, neuron, after⟩ ∧
      ∀ error, after = .raised error → status = .raised error := by
  by_cases same : other = index
  · subst same
    rw [here] at found
    obtain ⟨⟩ := found
    refine ⟨_, List.getElem?_set_self
      (List.getElem?_eq_some_iff.mp here).1, ?_⟩
    intro error raised
    cases raised
  · exact ⟨status, (List.getElem?_set_ne same).trans found, fun _ raised =>
      raised⟩

theorem transmission_step {inproc next : GanglionInproc δ} {action : Action δ}
    {index : Nat} {data : δ} {neuron : Neuron} {status : TransmissionStatus}
    (found : inproc.transmissions[index]? = some ⟨data, neuron, status⟩)
    (taken : inproc.step action = some next) :
    ∃ after, next.transmissions[index]? = some ⟨data, neuron, after⟩ ∧
      ∀ error, after = .raised error → status = .raised error := by
  have bound := (List.getElem?_eq_some_iff.mp found).1
  cases action with
  | adapt _ _ =>
      obtain ⟨⟩ := taken
      exact ⟨status, found, fun _ raised => raised⟩
  | react _ _ =>
      obtain ⟨⟩ := taken
      exact ⟨status, found, fun _ raised => raised⟩
  | updateTransmitter _ =>
      obtain ⟨⟩ := taken
      exact ⟨status, found, fun _ raised => raised⟩
  | transmit _ _ =>
      obtain ⟨⟩ := taken
      exact ⟨status, (List.getElem?_append_left bound).trans found,
        fun _ raised => raised⟩
  | transduce other =>
      simp only [step] at taken
      split at taken
      · next here =>
          obtain ⟨⟩ := taken
          exact transmission_set found here _
      · cases taken
  | invoke other reactant =>
      simp only [step] at taken
      split at taken
      · next here =>
          split at taken
          · obtain ⟨⟩ := taken
            exact transmission_set found here _
          · cases taken
      · cases taken

theorem startTransmit_raised {inproc : GanglionInproc δ} {neuron : Neuron}
    {error : PlexoError}
    (raised : inproc.startTransmit neuron = .raised error) :
    error = .transmitterNotFound neuron.name := by
  unfold startTransmit GanglionExternalBase.getTransmitter at raised
  split at raised
  · next found =>
      split at found
      · obtain ⟨⟩ := raised
        obtain ⟨⟩ := found
        rfl
      · cases found
  · cases raised

theorem transmission_path {before : GanglionInproc δ} {data : δ}
    {neuron : Neuron} {rest : List (GanglionInproc δ × Action δ)}
    (path : Path step (before.transmit data neuron) rest finish) :
    ∃ status,
      finish.transmissions[before.transmissions.length]? =
        some ⟨data, neuron, status⟩ ∧
      ∀ error, status = .raised error →
        error = .transmitterNotFound neuron.name := by
  apply path.always
  · exact ⟨_, List.getElem?_concat_length, fun _ => startTransmit_raised⟩
  · intro inproc action next known taken
    obtain ⟨status, found, onlyRaised⟩ := known
    obtain ⟨after, still, keeps⟩ := transmission_step found taken
    exact ⟨after, still, fun error raised =>
      onlyRaised error (keeps error raised)⟩

theorem posts_length (inproc : GanglionInproc δ) :
    inproc.bus.posts.length = inproc.transmissions.length :=
  List.length_map _

theorem exists_transduce {index : Nat}
    {late soon : List (Bus String Reactant δ × Event String Reactant δ)}
    {state : Bus String Reactant δ}
    (split : steps.map (fun entry => (entry.1.bus, event entry.2)) =
      late ++ (state, .handOut index) :: soon) :
    ∃ after inproc before,
      steps = after ++ (inproc, .transduce index) :: before ∧
      soon = before.map fun entry => (entry.1.bus, event entry.2) := by
  obtain ⟨after, rest, rfl, _, others⟩ := List.map_eq_append_iff.mp split
  obtain ⟨entry, before, rfl, same, earlier⟩ := List.map_eq_cons_iff.mp others
  obtain ⟨inproc, action⟩ := entry
  cases action with
  | transduce _ =>
      obtain ⟨⟩ := same
      exact ⟨after, inproc, before, rfl, earlier.symm⟩
  | adapt _ _ => cases same
  | react _ _ => cases same
  | updateTransmitter _ => cases same
  | transmit _ _ => cases same
  | invoke _ _ => cases same

theorem sound_path (path : Path step init steps finish) : finish.Sound := by
  apply path.always sound_init
  intro inproc action next sound taken
  exact sound.step taken

theorem refused_iff {inproc : GanglionInproc δ} {index : Nat} {data : δ}
    {neuron : Neuron} {status : TransmissionStatus}
    (found : inproc.transmissions[index]? = some ⟨data, neuron, status⟩) :
    inproc.bus.Refused index ↔ ∃ error, status = .raised error := by
  have posted := posts_of_transmission found
  constructor
  · intro refused
    obtain ⟨topic, value, same⟩ := refused
    rw [posted] at same
    cases status with
    | raised error => exact ⟨error, rfl⟩
    | gathered synapse => cases same
    | transduced target reactants => cases same
  · intro raised
    obtain ⟨error, rfl⟩ := raised
    exact ⟨neuron.name, data, posted⟩

theorem bounded_path (path : Path step init steps finish) :
    finish.bus.Bounded := by
  apply Bus.bounded_path (path_refines sound_init path)
  intro receipt member
  rw [bus_init] at member
  cases member

theorem delivers_of_path {before : GanglionInproc δ}
    {rest : List (GanglionInproc δ × Action δ)}
    (earlier : Path step init steps before) {data : δ} {neuron : Neuron}
    (path : Path step (before.transmit data neuron) rest finish) :
    Delivers steps before.transmissions.length data neuron rest finish := by
  have called : before.step (.transmit data neuron) =
      some (before.transmit data neuron) := rfl
  have refined := path_refines ((sound_path earlier).step called) path
  rw [bus_transmit] at refined
  have start := Bus.follows_publish (bounded_path earlier) neuron.name data
  rw [posts_length] at start
  have follows := start.path refined
  obtain ⟨status, found, onlyRaised⟩ := transmission_path path
  have raised : (∃ error, status = .raised error) ↔
      ¬ ∃ entry ∈ steps, entry.2.Opens neuron.name := by
    rw [← refused_iff found, follows.refused_iff, mem_opened_iff earlier]
  refine ⟨?_, ?_, ?_, ?_, ?_, ?_, exists_ended found⟩
  · rw [found, ← raised]
    constructor
    · intro same
      obtain ⟨⟩ := same
      exact ⟨_, rfl⟩
    · intro isRaised
      obtain ⟨error, rfl⟩ := isRaised
      rw [onlyRaised error rfl]
  · intro other target error same
    rw [found] at same
    obtain ⟨⟩ := same
    exact ⟨rfl, rfl, onlyRaised error rfl⟩
  · intro invocation member same
    have receipt := follows.same _ (List.mem_map_of_mem member) same
    exact ⟨receipt.2, receipt.1⟩
  · intro reactant
    rw [← bus_received]
    exact follows.received_le_one reactant
  · intro reactant invoked
    rw [← bus_received] at invoked
    have subscribed := follows.subscribed_of_received invoked
    have whole := (earlier.snoc called).append path
    obtain ⟨entry, member, attaches⟩ :=
      (mem_subscribers_iff whole).mp subscribed
    rcases List.mem_append.mp member with later | here
    · exact ⟨entry, List.mem_append_left _ later, attaches⟩
    · rcases List.mem_cons.mp here with rfl | sooner
      · cases attaches
      · exact ⟨entry, List.mem_append_right _ sooner, attaches⟩
  · intro ended opened
    have accepted : (before.bus.publish neuron.name data).posts[
        before.transmissions.length]? =
          some ⟨neuron.name, data, .accepted⟩ := by
      rw [← posts_length]
      refine List.getElem?_concat_length.trans ?_
      rw [if_pos ((mem_opened_iff earlier).mpr opened)]
    obtain ⟨late, state, soon, split, sooner, exactly⟩ :=
      Bus.received_exactly refined start accepted ended.bus
    obtain ⟨after, inproc, first, rfl, rfl⟩ := exists_transduce split
    refine ⟨after, inproc, first, rfl, ?_⟩
    intro reactant
    have attached : reactant ∈ state.subscribers neuron.name ↔
        ∃ entry ∈ first ++ steps, entry.2.Attaches neuron.name reactant := by
      rw [Bus.mem_subscribers_path sooner]
      have already := @mem_subscribers_iff _ _ _ earlier neuron.name reactant
      simp only [Bus.publish, already, List.mem_map, List.mem_append,
        or_and_right, exists_or, exists_exists_and_eq_and, subscribes_event]
      exact or_comm
    rw [← attached, ← bus_received]
    exact exactly reactant

/-- Delivery within a process, in every run from the start. -/
theorem delivery {before : GanglionInproc δ}
    (earlier : Path step init steps before) :
    Path Bus.step Bus.empty
        (steps.map fun entry => (entry.1.bus, event entry.2)) before.bus ∧
      (∀ data neuron rest finish,
        Path step (before.transmit data neuron) rest finish →
          Delivers steps before.transmissions.length data neuron rest
            finish) ∧
      ∀ name reactant rest finish, Path step before rest finish →
        (∃ entry ∈ steps, entry.2.Opens name) →
        (∃ entry ∈ steps, entry.2.Attaches name reactant) →
        (∀ index, before.transmissions.length ≤ index →
          index < finish.transmissions.length → finish.Ended index) →
        finish.invokedFrom before.transmissions.length name reactant =
          rest.countP fun entry => entry.2.transmits name := by
  refine ⟨?_, ?_, ?_⟩
  · rw [← bus_init]
    exact path_refines sound_init earlier
  · intro data neuron rest finish path
    exact delivers_of_path earlier path
  · intro name reactant rest finish path opened attached ended
    have balance := Bus.balance_path
      (path_refines (sound_path earlier) path) (bounded_path earlier)
      ((mem_subscribers_iff earlier).mpr attached)
      ((mem_opened_iff earlier).mpr opened)
    have none : finish.bus.owed before.bus.posts.length name reactant = 0 := by
      apply Bus.owed_eq_zero
      intro index late bound
      rw [posts_length] at late bound
      exact (ended index late bound).bus
    rw [none, Nat.add_zero, bus_receivedFrom, posts_length,
      List.countP_map] at balance
    simpa only [Function.comp_def, publishes_event] using balance

def sample : GanglionInproc Nat :=
  { init with
    ganglion := (Ganglion.init .inproc {}).adapt
      ProtocolNeuron.heartbeat.toNeuron [.user 0, .user 1, .user 0] [] }

/-- Two overlapping calls of `transmit`, after two reactants have been attached,
one of them twice. -/
theorem delivery_overlapping :
    ∃ finish : GanglionInproc Nat,
      (∀ reactant ∈ [Reactant.user 0, .user 1],
        finish.invokedFrom 0 ProtocolNeuron.heartbeat.toNeuron.name reactant =
          2) ∧
      finish.invoked 0 (.user 1) ≤ 1 := by
  have adapts : step init (.adapt ProtocolNeuron.heartbeat.toNeuron
      [.user 0, .user 1, .user 0]) = some sample := rfl
  obtain ⟨_, delivers, counts⟩ := delivery (Transition.Path.refl.snoc adapts)
  obtain ⟨finish, path, passed⟩ := @path_of_any _ _ step
    (sample.transmit 7 ProtocolNeuron.heartbeat.toNeuron)
    [.transmit 8 ProtocolNeuron.heartbeat.toNeuron, .transduce 0,
      .invoke 0 (.user 1), .invoke 0 (.user 0), .transduce 1,
      .invoke 1 (.user 0), .invoke 1 (.user 1)]
    (fun finish => finish.transmissions.length == 2 &&
      finish.transmissions.all (·.status.ended)) (by decide +kernel)
  simp only [Bool.and_eq_true, beq_iff_eq, List.all_eq_true] at passed
  refine ⟨finish, ?_, (delivers _ _ _ _ path).atMostOnce _⟩
  intro reactant member
  have transmits : step sample (.transmit 7
      ProtocolNeuron.heartbeat.toNeuron) =
        some (sample.transmit 7 ProtocolNeuron.heartbeat.toNeuron) := rfl
  refine (counts _ reactant _ finish ((Transition.Path.refl.snoc transmits).append path)
    ⟨_, List.mem_singleton_self _, rfl⟩
    ⟨_, List.mem_singleton_self _, rfl, by revert reactant; decide⟩
    ?_).trans (by decide +kernel)
  intro index _ bound
  exact ⟨_, List.getElem?_eq_getElem bound,
    passed.2 _ (List.getElem_mem bound)⟩

end GanglionInproc

end Plexo
