import Plexo.Library.Coroutine
import Plexo.Multicast.Bookkeeping

/-!
# Startup and the operations that ignore it

Most operations of `GanglionPlexoMulticast` override those of the base class
with a wait for the startup; the startup itself uses variants that call the
base class directly.  The base class calls back through `self`, so its methods
are given the methods of the object that they run on.

A coroutine may be suspended between any two steps of its task, and everything
else that runs in the meantime, calls of users included, is its environment.
-/

namespace Plexo

open PersistentMap Coroutines Transition

abbrev GanglionCoroutine := Coroutine GanglionPlexoMulticast PlexoError

/-- The methods that the base class calls through `self` and a subclass
overrides. -/
structure Methods where
  createSynapseByName : Neuron → GanglionCoroutine
  react : Neuron → List ReactantId → GanglionCoroutine
  reactRaw : Neuron → List ReactantId → GanglionCoroutine

namespace Base

/-- `get_synapse`, with what the caller goes on with. -/
def getSynapse (createSynapseByName : Neuron → GanglionCoroutine) (neuron : Neuron)
    (next : SynapseId → GanglionCoroutine) : GanglionCoroutine :=
  .step id fun ganglion =>
    match ganglion.registry.base.synapses neuron.name with
    | some synapse => next synapse
    | none =>
        let created := (createSynapseByName neuron).handle fun
          | .synapseExists _ => .done
          | error => .raise error
        created.andThen <| .step id fun ganglion =>
          match ganglion.registry.base.synapses neuron.name with
          | some synapse => next synapse
          | none => .raise .keyError

def onSynapse (synapse : SynapseId)
    (operation : SynapseZmqPlexoPubSubEPGM → SynapseZmqPlexoPubSubEPGM) :
    GanglionCoroutine :=
  .update fun ganglion =>
    { ganglion with
      registry := ganglion.registry.setObject synapse
        (operation (ganglion.registry.objects synapse)) }

def onBase (operation : GanglionExternalBase → GanglionExternalBase) :
    GanglionCoroutine :=
  .update fun ganglion =>
    { ganglion with
      registry := { ganglion.registry with
        base := operation ganglion.registry.base } }

def react (createSynapseByName : Neuron → GanglionCoroutine) (neuron : Neuron)
    (reactants : List ReactantId) : GanglionCoroutine :=
  getSynapse createSynapseByName neuron fun synapse =>
    onSynapse synapse (·.addReactants reactants)

def reactRaw (createSynapseByName : Neuron → GanglionCoroutine) (neuron : Neuron)
    (rawReactants : List ReactantId) : GanglionCoroutine :=
  getSynapse createSynapseByName neuron fun synapse =>
    onSynapse synapse (·.addRawReactants rawReactants)

/-- `update_transmitter`. -/
def updateTransmitter (createSynapseByName : Neuron → GanglionCoroutine)
    (neuron : Neuron) : GanglionCoroutine :=
  getSynapse createSynapseByName neuron fun synapse =>
    .gather
      [onBase (·.createTransmitterOnce neuron synapse),
        onBase (·.createExternalTransmitterOnce neuron synapse)]

/-- `transmit` of the synapse: topic and payload are sent one after the other. -/
def send (synapse : SynapseId) : GanglionCoroutine :=
  let part : GanglionCoroutine := .step id fun ganglion =>
    match (ganglion.registry.objects synapse).socketPub with
    | .closed => .raise .zmqError
    | _ => .done
  .step id fun ganglion =>
    match (ganglion.registry.objects synapse).socketPub with
    | .absent => .done
    | _ => part.andThen part

/-- `transmit`; `failure` is the exception of the encoder, if it raises one. -/
def transmit (neuron : Neuron) (failure : Option PlexoError) : GanglionCoroutine :=
  .step id fun ganglion =>
    match ganglion.registry.base.getTransmitter neuron with
    | .error error => .raise error
    | .ok transmitter =>
        .gather
          [match failure with
            | some error => .raise error
            | none => send transmitter.synapse]

/-- `transmit_encoded`. -/
def transmitEncoded (neuron : Neuron) : GanglionCoroutine :=
  .step id fun ganglion =>
    match ganglion.registry.base.getExternalTransmitter neuron with
    | .error error => .raise error
    | .ok synapse => .gather [send synapse]

/-- `adapt`. -/
def adapt (self : Methods) (neuron : Neuron)
    (reactants rawReactants : List ReactantId) : GanglionCoroutine :=
  .step id fun ganglion =>
    if ganglion.registry.base.capable neuron = false then
      .done
    else
      let reacted : GanglionCoroutine :=
        if reactants = [] then .done else self.react neuron reactants
      let reactedRaw : GanglionCoroutine :=
        if rawReactants = [] then .done else self.reactRaw neuron rawReactants
      (reacted.andThen reactedRaw).andThen
        (updateTransmitter self.createSynapseByName neuron)

end Base

namespace Multicast

/-- `wait_startup`. -/
def waitStartup : GanglionCoroutine :=
  .await (·.startupDone) .done

def transmit (neuron : Neuron) (failure : Option PlexoError) : GanglionCoroutine :=
  waitStartup.andThen (Base.transmit neuron failure)

/-- `_create_synapse_by_name`.  The first thing that the consensus on an address
does is to transmit its preparation; `consensus` is everything after that. -/
def createSynapseByName (consensus : Neuron → GanglionCoroutine) (neuron : Neuron) :
    GanglionCoroutine :=
  .step id fun ganglion =>
    match ganglion.registry.base.synapses neuron.name with
    | some _ => .raise (.synapseExists neuron.name)
    | none =>
        (transmit ProtocolNeuron.preparation.toNeuron none).andThen
          (consensus neuron)

variable (consensus : Neuron → GanglionCoroutine)

def react (neuron : Neuron) (reactants : List ReactantId) : GanglionCoroutine :=
  waitStartup.andThen
    (Base.react (createSynapseByName consensus) neuron reactants)

def reactRaw (neuron : Neuron) (rawReactants : List ReactantId) :
    GanglionCoroutine :=
  waitStartup.andThen
    (Base.reactRaw (createSynapseByName consensus) neuron rawReactants)

/-- The methods that the base class finds on an instance. -/
def self : Methods :=
  { createSynapseByName := createSynapseByName consensus
    react := react consensus
    reactRaw := reactRaw consensus }

/-- `create_synapse_with_reserved_address`. -/
def createReserved (host : Host) (neuron : ProtocolNeuron) : GanglionCoroutine :=
  .step
    (fun ganglion =>
      { ganglion with
        registry :=
          (ganglion.registry.createSynapseWithReservedAddress host neuron).2 })
    fun ganglion =>
      match (ganglion.registry.createSynapseWithReservedAddress host
          neuron).1 with
      | .error error => .raise error
      | .ok _ => .done

end Multicast

/-- The operations that do not wait for the startup, with their arguments. -/
inductive IgnoreStartup where
  | adapt (neuron : Neuron) (reactants rawReactants : List ReactantId)
  | react (neuron : Neuron) (reactants : List ReactantId)
  | reactRaw (neuron : Neuron) (rawReactants : List ReactantId)
  | transmit (neuron : Neuron) (failure : Option PlexoError)
  | transmitEncoded (neuron : Neuron)

namespace IgnoreStartup

def neuron : IgnoreStartup → Neuron
  | .adapt neuron _ _ => neuron
  | .react neuron _ => neuron
  | .reactRaw neuron _ => neuron
  | .transmit neuron _ => neuron
  | .transmitEncoded neuron => neuron

/-- `adapt_ignore_startup` and its siblings: calls of the base class. -/
def task (consensus : Neuron → GanglionCoroutine) :
    IgnoreStartup → GanglionCoroutine
  | .adapt neuron reactants rawReactants =>
      Base.adapt (Multicast.self consensus) neuron reactants rawReactants
  | .react neuron reactants =>
      Base.react (Multicast.createSynapseByName consensus) neuron reactants
  | .reactRaw neuron rawReactants =>
      Base.reactRaw (Multicast.createSynapseByName consensus) neuron
        rawReactants
  | .transmit neuron failure => Base.transmit neuron failure
  | .transmitEncoded neuron => Base.transmitEncoded neuron

/-- The operation attaches reactants through `adapt` to a neuron that the
ganglion is capable of. -/
def adaptsReactants (filters : Filters) : IgnoreStartup → Bool
  | .adapt neuron reactants rawReactants =>
      filters.capable neuron && (reactants ≠ [] || rawReactants ≠ [])
  | _ => false

end IgnoreStartup

namespace Multicast

/-- The protocol neurons that `startup` treats after the first one. -/
def others : List ProtocolNeuron :=
  [.preparation, .promise, .rejection, .proposal, .approval]

/-- `adapt_ignore_startup` as `startup` calls it: with the reaction for the
neuron. -/
def adaptReserved (consensus : Neuron → GanglionCoroutine)
    (neuron : ProtocolNeuron) : GanglionCoroutine :=
  IgnoreStartup.task consensus
    (.adapt neuron.toNeuron [neuron.reservedIndex] [])

/-- `startup`.  The heartbeat and peer-counting tasks that it starts are part of
its environment. -/
def startup (host : Host) (consensus : Neuron → GanglionCoroutine) :
    GanglionCoroutine :=
  let first := (createReserved host .heartbeat).andThen
    (adaptReserved consensus .heartbeat)
  let created : GanglionCoroutine := .gather (others.map (createReserved host))
  let adapted : GanglionCoroutine := .gather (others.map (adaptReserved consensus))
  let slept : GanglionCoroutine := .update id
  let finished : GanglionCoroutine :=
    .update fun ganglion => { ganglion with startupDone := true }
  (first.andThen (created.andThen (adapted.andThen
    (slept.andThen finished)))).handle fun
      | .zmqError => .done
      | error => .raise error

end Multicast

/-- What calls of users, reactions and other tasks of an instance do to it. -/
inductive Interference where
  | input (input : Input)
  | createSynapse (neuron : Neuron) (multicastAddress : IPAddress)
  | updateSynapse (name : String) (multicastAddress : IPAddress)

def GanglionPlexoMulticast.interfere (host : Host)
    (ganglion : GanglionPlexoMulticast) :
    Interference → Option GanglionPlexoMulticast
  | .input input => (ganglion.step host input).map (·.1)
  | .createSynapse neuron multicastAddress =>
      some { ganglion with
        registry := (ganglion.registry.createSynapseWithAddress host neuron
          neuron.name multicastAddress).2 }
  | .updateSynapse name multicastAddress =>
      some { ganglion with
        registry := (ganglion.registry.updateSynapseWithAddress host name
          multicastAddress).2 }

theorem GanglionPlexoMulticast.interfere_filters {host : Host}
    {ganglion next : GanglionPlexoMulticast} {interference : Interference}
    (taken : ganglion.interfere host interference = some next) :
    next.registry.base.filters = ganglion.registry.base.filters := by
  cases interference with
  | input input =>
      obtain ⟨result, resultTaken, rfl⟩ := Option.map_eq_some_iff.mp taken
      exact filters_step resultTaken
  | createSynapse neuron multicastAddress =>
      cases taken
      exact (Registry.follows_createSynapseWithAddress ..).filters
  | updateSynapse name multicastAddress =>
      cases taken
      exact (Registry.follows_updateSynapseWithAddress ..).filters

/-- Before the startup is done, with the synapse for a name in place. -/
def StartingWith (filters : Filters) (name : String)
    (ganglion : GanglionPlexoMulticast) : Prop :=
  ganglion.startupDone = false ∧ ganglion.registry.base.filters = filters ∧
    (ganglion.registry.base.synapses name).isSome = true

section Operations

open Coroutine

variable {filters : Filters} {create : Neuron → GanglionCoroutine} {neuron : Neuron}

theorem completes_onSynapse (synapse : SynapseId)
    (operation : SynapseZmqPlexoPubSubEPGM → SynapseZmqPlexoPubSubEPGM) :
    Completes (StartingWith filters neuron.name)
      (Base.onSynapse synapse operation) :=
  .update fun _ starting => starting

theorem completes_onBase
    {operation : GanglionExternalBase → GanglionExternalBase}
    (synapses : ∀ base, (operation base).synapses = base.synapses)
    (sameFilters : ∀ base, (operation base).filters = base.filters) :
    Completes (StartingWith filters neuron.name) (Base.onBase operation) := by
  apply Completes.update
  intro ganglion starting
  unfold StartingWith
  rw [synapses, sameFilters]
  exact starting

theorem completes_getSynapse {next : SynapseId → GanglionCoroutine}
    (completes : ∀ synapse,
      Completes (StartingWith filters neuron.name) (next synapse)) :
    Completes (StartingWith filters neuron.name)
      (Base.getSynapse create neuron next) := by
  apply Completes.step
  · exact fun _ starting => starting
  · intro ganglion starting
    obtain ⟨synapse, found⟩ := Option.isSome_iff_exists.mp starting.2.2
    rw [found]
    exact completes synapse

theorem completes_updateTransmitter :
    Completes (StartingWith filters neuron.name)
      (Base.updateTransmitter create neuron) := by
  apply completes_getSynapse
  intro synapse
  apply Completes.gather
  intro task member
  rcases List.mem_pair.mp member with same | same
  · subst same
    apply completes_onBase
    · simp
    · simp
  · subst same
    apply completes_onBase
    · simp
    · simp

theorem completes_send (synapse : SynapseId) :
    Completes (StartingWith filters neuron.name) (Base.send synapse) := by
  have part : Completes (StartingWith filters neuron.name)
      (.step id fun ganglion : GanglionPlexoMulticast =>
        match (ganglion.registry.objects synapse).socketPub with
        | .closed => .raise PlexoError.zmqError
        | _ => .done) := by
    apply Completes.step
    · exact fun _ starting => starting
    · intro ganglion _
      split
      · exact .raise _
      · exact .done
  apply Completes.step
  · exact fun _ starting => starting
  · intro ganglion _
    split
    · exact .done
    · exact part.andThen part

theorem completes_transmit (failure : Option PlexoError) :
    Completes (StartingWith filters neuron.name)
      (Base.transmit neuron failure) := by
  apply Completes.step
  · exact fun _ starting => starting
  · intro ganglion _
    split
    · exact .raise _
    · next transmitter _ =>
        apply Completes.gather
        intro task member
        obtain rfl := List.mem_singleton.mp member
        split
        · exact .raise _
        · exact completes_send transmitter.synapse

theorem completes_transmitEncoded :
    Completes (StartingWith filters neuron.name)
      (Base.transmitEncoded neuron) := by
  apply Completes.step
  · exact fun _ starting => starting
  · intro ganglion _
    split
    · exact .raise _
    · next synapse _ =>
        apply Completes.gather
        intro task member
        obtain rfl := List.mem_singleton.mp member
        exact completes_send synapse

theorem completes_adapt {self : Methods} {reactants rawReactants : List ReactantId}
    (silent : (filters.capable neuron && (decide (reactants ≠ []) ||
      decide (rawReactants ≠ []))) = false) :
    Completes (StartingWith filters neuron.name)
      (Base.adapt self neuron reactants rawReactants) := by
  apply Completes.step
  · exact fun _ starting => starting
  · intro ganglion starting
    dsimp only
    rw [GanglionExternalBase.capable, starting.2.1]
    split
    · exact .done
    · next capable =>
        have nothing : reactants = [] ∧ rawReactants = [] := by
          simpa [capable] using silent
        rw [if_pos nothing.1, if_pos nothing.2]
        exact completes_updateTransmitter

/-- With a reactant for a neuron that the ganglion is capable of, `adapt` calls
an overridden method, which waits. -/
theorem comesToWait_adapt {consensus : Neuron → GanglionCoroutine}
    {reactants rawReactants : List ReactantId}
    {ganglion : GanglionPlexoMulticast}
    (starting : ganglion.startupDone = false)
    (capable : ganglion.registry.base.capable neuron = true)
    (some : reactants ≠ [] ∨ rawReactants ≠ []) :
    ComesToWait ganglion
      (Base.adapt (Multicast.self consensus) neuron reactants rawReactants) := by
  have blocked (task : GanglionCoroutine) :
      ComesToWait ganglion (Multicast.waitStartup.andThen task) :=
    ⟨_, .refl, by simp [Multicast.waitStartup, andThen, waits, starting]⟩
  apply ComesToWait.step
  dsimp only [id]
  rw [if_neg (by simp [capable])]
  apply ComesToWait.andThen_left
  by_cases none : reactants = []
  · rw [if_pos none, if_neg (some.resolve_left (not_not_intro none))]
    exact .andThen (.done ganglion) (blocked _)
  · rw [if_neg none]
    exact (blocked _).andThen_left _

end Operations

/-- An operation that ignores the startup runs to its end without waiting for
it, unless it attaches reactants through `adapt` to a neuron that the ganglion
is capable of. -/
theorem IgnoreStartup.runsThrough_iff (consensus : Neuron → GanglionCoroutine)
    (filters : Filters) (operation : IgnoreStartup) :
    Coroutine.RunsThrough (StartingWith filters operation.neuron.name)
        (operation.task consensus) ↔
      operation.adaptsReactants filters = false := by
  constructor
  · intro runs
    cases operation with
    | adapt neuron reactants rawReactants =>
        cases adapts : (IgnoreStartup.adapt neuron reactants
            rawReactants).adaptsReactants filters with
        | false => rfl
        | true =>
            simp only [adaptsReactants, Bool.and_eq_true, Bool.or_eq_true,
              decide_eq_true_eq] at adapts
            let blank := GanglionPlexoMulticast.init .sample 0 filters
            let ganglion : GanglionPlexoMulticast :=
              { blank with
                registry := { blank.registry with
                  base := { blank.registry.base with
                    synapses := PMap.empty.set neuron.name 0 } } }
            have starting : StartingWith filters neuron.name ganglion := by
              refine ⟨rfl, rfl, ?_⟩
              simp [ganglion]
            have waits := @comesToWait_adapt neuron consensus reactants
              rawReactants ganglion rfl adapts.1 adapts.2
            exact absurd runs (waits.not_runsThrough starting)
    | _ => rfl
  · intro silent
    apply Coroutine.Completes.runsThrough
    cases operation with
    | adapt neuron reactants rawReactants => exact completes_adapt silent
    | react neuron reactants =>
        exact completes_getSynapse fun synapse => completes_onSynapse synapse _
    | reactRaw neuron rawReactants =>
        exact completes_getSynapse fun synapse => completes_onSynapse synapse _
    | transmit neuron failure => exact completes_transmit failure
    | transmitEncoded neuron => exact completes_transmitEncoded

section Startup

open Coroutine

variable {host : Host} {consensus : Neuron → GanglionCoroutine} {filters : Filters}

/-- The condition under which the startup adapts nothing. -/
def Filters.ignoresProtocol (filters : Filters) : Prop :=
  ∀ neuron : ProtocolNeuron, filters.capable neuron.toNeuron = false

instance (filters : Filters) : Decidable filters.ignoresProtocol :=
  decidable_of_iff
    (∀ neuron ∈ ProtocolNeuron.all, filters.capable neuron.toNeuron = false)
    ⟨fun all neuron => all neuron (ProtocolNeuron.mem_all neuron),
      fun all neuron _ => all neuron⟩

theorem completes_startup (ignores : filters.ignoresProtocol) :
    Completes (fun ganglion => ganglion.registry.base.filters = filters)
      (Multicast.startup host consensus) := by
  have created (neuron : ProtocolNeuron) :
      Completes (fun ganglion => ganglion.registry.base.filters = filters)
        (Multicast.createReserved host neuron) := by
    apply Completes.step
    · intro ganglion same
      exact (Registry.follows_createSynapseWithReservedAddress ..).filters.trans
        same
    · intro ganglion _
      split
      · exact .raise _
      · exact .done
  have adapted (neuron : ProtocolNeuron) :
      Completes (fun ganglion => ganglion.registry.base.filters = filters)
        (Multicast.adaptReserved consensus neuron) := by
    apply Completes.step
    · exact fun _ same => same
    · intro ganglion same
      have incapable :
          ganglion.registry.base.capable neuron.toNeuron = false := by
        rw [GanglionExternalBase.capable, same]
        exact ignores neuron
      dsimp only
      rw [if_pos incapable]
      exact .done
  apply Completes.handle
  · apply Completes.andThen
    · exact (created .heartbeat).andThen (adapted .heartbeat)
    · apply Completes.andThen
      · apply Completes.gather
        intro task member
        obtain ⟨neuron, _, rfl⟩ := List.mem_map.mp member
        exact created neuron
      · apply Completes.andThen
        · apply Completes.gather
          intro task member
          obtain ⟨neuron, _, rfl⟩ := List.mem_map.mp member
          exact adapted neuron
        · apply Completes.andThen
          · exact .update fun _ same => same
          · exact .update fun _ same => same
  · intro error
    split
    · exact .done
    · exact .raise _

theorem finishes_createOne {ganglion : GanglionPlexoMulticast}
    {neuron : ProtocolNeuron} {synapse : SynapseId} {registry : Registry}
    (created : ganglion.registry.createSynapseWithReservedAddress host neuron =
      (.ok synapse, registry)) :
    Finishes ganglion (Multicast.createReserved host neuron)
      { ganglion with registry } := by
  have finished : Finishes ganglion (Multicast.createReserved host neuron)
      { ganglion with
        registry := (ganglion.registry.createSynapseWithReservedAddress host
          neuron).2 } := by
    apply Finishes.step
    rw [created]
    exact .done _
  rw [created] at finished
  exact finished

theorem finishes_createReserved {ganglion : GanglionPlexoMulticast}
    {neurons : List ProtocolNeuron}
    (creatable : (ganglion.registry.createReserved host neurons).1 = .ok ()) :
    Finishes ganglion (.gather (neurons.map (Multicast.createReserved host)))
      { ganglion with
        registry := (ganglion.registry.createReserved host neurons).2 } := by
  induction neurons generalizing ganglion with
  | nil => exact .done ganglion
  | cons neuron neurons induction =>
      unfold Registry.createReserved at creatable ⊢
      cases created :
          ganglion.registry.createSynapseWithReservedAddress host neuron with
      | mk outcome registry =>
          rw [created] at creatable
          cases outcome with
          | error error => cases creatable
          | ok synapse =>
              have rest := @induction { ganglion with registry } creatable
              exact (finishes_createOne created).gather_cons rest

theorem comesToWait_startup {ganglion : GanglionPlexoMulticast}
    (starting : ganglion.startupDone = false)
    (creatable :
      (ganglion.registry.createReserved host ProtocolNeuron.all).1 = .ok ())
    (capable : ¬ ganglion.registry.base.filters.ignoresProtocol) :
    ComesToWait ganglion (Multicast.startup host consensus) := by
  change (ganglion.registry.createReserved host
    (.heartbeat :: Multicast.others)).1 = .ok () at creatable
  unfold Registry.createReserved at creatable
  cases created :
      ganglion.registry.createSynapseWithReservedAddress host .heartbeat with
  | mk outcome registry =>
      rw [created] at creatable
      cases outcome with
      | error error => cases creatable
      | ok synapse =>
          have sameFilters :=
            (ganglion.registry.follows_createSynapseWithReservedAddress host
              .heartbeat).filters
          rw [created] at sameFilters
          apply ComesToWait.handle
          by_cases first : registry.base.capable
              ProtocolNeuron.heartbeat.toNeuron = true
          · apply ComesToWait.andThen_left
            apply ComesToWait.andThen (finishes_createOne created)
            apply comesToWait_adapt
            · exact starting
            · exact first
            · simp
          · have skipped : Finishes { ganglion with registry }
                (Multicast.adaptReserved consensus .heartbeat)
                { ganglion with registry } := by
              apply Finishes.step
              dsimp only [id]
              rw [if_pos (by simpa using first)]
              exact .done _
            apply ComesToWait.andThen ((finishes_createOne created).andThen
              skipped)
            have rest := @finishes_createReserved host { ganglion with registry }
              Multicast.others creatable
            apply ComesToWait.andThen rest
            apply ComesToWait.andThen_left
            have laterFilters :=
              (registry.follows_createReserved host Multicast.others).filters
            obtain ⟨neuron, member, isCapable⟩ : ∃ neuron ∈ Multicast.others,
                ganglion.registry.base.filters.capable neuron.toNeuron = true := by
              by_contra none
              apply capable
              intro neuron
              have firstIncapable : ganglion.registry.base.filters.capable
                  ProtocolNeuron.heartbeat.toNeuron = false := by
                rw [← sameFilters]
                simpa [GanglionExternalBase.capable] using first
              by_contra isCapable
              rcases List.mem_cons.mp (ProtocolNeuron.mem_all neuron) with
                same | member
              · subst same
                exact isCapable firstIncapable
              · exact none ⟨neuron, member, by simpa using isCapable⟩
            apply ComesToWait.gather (List.mem_map_of_mem member)
            apply comesToWait_adapt
            · exact starting
            · rw [GanglionExternalBase.capable]
              dsimp only
              rw [laterFilters, sameFilters, isCapable]
            · simp

end Startup

/-- A startup whose synapses can be created never waits for itself, whatever
users do in the meantime, exactly if the filters of the instance reject all
protocol neurons; and an operation that ignores the startup runs to its end
without waiting for it exactly if it does not attach reactants through `adapt`
to a neuron that the filters accept. -/
theorem startup_runsThrough_iff {host : Host} {multicastCidr : IPNetwork}
    {instanceId : Nat} {filters : Filters} (consensus : Neuron → GanglionCoroutine)
    (creatable : ((GanglionPlexoMulticast.init multicastCidr instanceId
      filters).registry.createReserved host ProtocolNeuron.all).1 = .ok ()) :
    ((∀ steps finish, Path (Coroutine.besides (·.interfere host))
          (GanglionPlexoMulticast.init multicastCidr instanceId filters,
            Multicast.startup host consensus) steps finish →
        finish.2.waits finish.1 = false) ↔
      filters.ignoresProtocol) ∧
    ∀ operation : IgnoreStartup,
      Coroutine.RunsThrough (StartingWith filters operation.neuron.name)
          (operation.task consensus) ↔
        operation.adaptsReactants filters = false := by
  refine ⟨?_, IgnoreStartup.runsThrough_iff consensus filters⟩
  constructor
  · intro neverWaits
    by_contra capable
    have waits := @comesToWait_startup host consensus
      (.init multicastCidr instanceId filters) rfl creatable capable
    obtain ⟨steps, finish, path, waitsNow⟩ := waits.path (·.interfere host)
    rw [neverWaits steps finish path] at waitsNow
    cases waitsNow
  · intro ignores steps finish path
    have completes := Coroutine.Completes.besides
      (fun _ _ _ same taken =>
        (GanglionPlexoMulticast.interfere_filters taken).trans same)
      rfl (completes_startup ignores) path
    exact completes.2.not_waits finish.1

theorem startup_runsThrough_ignoredProtocol :
    Filters.ignoresProtocol
        { ignoredNeurons := ProtocolNeuron.all.map (·.toNeuron) } ∧
      ∀ steps finish, Path (Coroutine.besides (·.interfere .permissive))
          (GanglionPlexoMulticast.init .sample 10
              { ignoredNeurons := ProtocolNeuron.all.map (·.toNeuron) },
            Multicast.startup .permissive fun _ => .done) steps finish →
        finish.2.waits finish.1 = false := by
  have ignores : Filters.ignoresProtocol
      { ignoredNeurons := ProtocolNeuron.all.map (·.toNeuron) } := by
    decide +kernel
  refine ⟨ignores, ?_⟩
  exact (startup_runsThrough_iff (fun _ => .done)
    (by decide +kernel)).1.mpr ignores

theorem not_startup_runsThrough_unfiltered :
    ¬ ∀ (host : Host) (multicastCidr : IPNetwork) (instanceId : Nat)
      (filters : Filters) (consensus : Neuron → GanglionCoroutine),
      ((GanglionPlexoMulticast.init multicastCidr instanceId
        filters).registry.createReserved host ProtocolNeuron.all).1 = .ok () →
      ∀ steps finish, Path (Coroutine.besides (·.interfere host))
          (GanglionPlexoMulticast.init multicastCidr instanceId filters,
            Multicast.startup host consensus) steps finish →
        finish.2.waits finish.1 = false := by
  intro neverWaits
  obtain ⟨finish, path, waits⟩ := path_of_any
    (show (exec (Coroutine.besides (·.interfere .permissive))
      (GanglionPlexoMulticast.init .sample 10 {},
        Multicast.startup .permissive fun _ => .done)
      [.inl [], .inl []]).any (fun finish => finish.2.waits finish.1) = true by
        decide +kernel)
  rw [neverWaits .permissive .sample 10 {} (fun _ => .done) (by decide +kernel)
    _ finish path] at waits
  cases waits

end Plexo
