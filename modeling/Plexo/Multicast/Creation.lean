import Plexo.Ganglion.Creation
import Plexo.Multicast.Acquisition
import Plexo.Multicast.Bookkeeping

/-!
# Creating a synapse on an acquired address

`_create_synapse_by_name` of `GanglionPlexoMulticast` acquires an address first,
by one call of `_get_address_from_consensus` after the other.  Meanwhile the
reaction to an approval may create the synapse, or move it to another address.
-/

namespace Plexo

open PersistentMap

namespace SynapseZmqPlexoPubSubEPGM

structure SameReactants (before after : SynapseZmqPlexoPubSubEPGM) : Prop where
  reactants : after.reactants = before.reactants
  rawReactants : after.rawReactants = before.rawReactants

theorem startup_reactants (host : Host) (synapse : SynapseZmqPlexoPubSubEPGM)
    (multicastAddress : IPAddress) :
    synapse.SameReactants (synapse.startup host multicastAddress).2 := by
  unfold startup
  split
  · exact ⟨rfl, rfl⟩
  · split
    · exact ⟨rfl, rfl⟩
    · exact ⟨startRecvLoopIfNeeded_reactants _,
        startRecvLoopIfNeeded_rawReactants _⟩

theorem update_reactants (host : Host) (synapse : SynapseZmqPlexoPubSubEPGM)
    (multicastAddress : IPAddress) :
    synapse.SameReactants (synapse.update host multicastAddress).2 := by
  by_cases closable : synapse.Closable host
  · rw [update_of_closable closable]
    have started := synapse.closed.startup_reactants host multicastAddress
    exact ⟨started.reactants, started.rawReactants⟩
  · rw [update_of_not_closable closable]
    exact ⟨rfl, rfl⟩

theorem init_reactants {host : Host} {neuron : Neuron}
    {multicastAddress : IPAddress} {synapse : SynapseZmqPlexoPubSubEPGM}
    (made : init host neuron multicastAddress [] [] = .ok synapse) :
    synapse.reactants = [] ∧ synapse.rawReactants = [] := by
  unfold init at made
  dsimp only at made
  split at made
  · cases made
  · next result =>
      obtain ⟨⟩ := made
      have started := startup_reactants host
        { neuron, multicastAddress
          reactants := addReactantsTo [] []
          rawReactants := addReactantsTo [] [] } multicastAddress
      rw [result] at started
      exact ⟨started.reactants, started.rawReactants⟩

end SynapseZmqPlexoPubSubEPGM

namespace Registry

/-- An operation enters no synapse and adds no reactant. -/
structure Unmoved (before after : Registry) : Prop where
  base : after.base = before.base
  nextObject : after.nextObject = before.nextObject
  objects : ∀ synapse,
    (before.objects synapse).SameReactants (after.objects synapse)

/-- A new synapse without reactants is entered under a name. -/
structure Entered (before after : Registry) (name : String) : Prop where
  absent : before.base.synapses name = none
  base : after.base = { before.base with
    synapses := before.base.synapses.set name before.nextObject }
  nextObject : after.nextObject = before.nextObject + 1
  object : (after.objects before.nextObject).reactants = [] ∧
    (after.objects before.nextObject).rawReactants = []
  others : ∀ synapse, synapse ≠ before.nextObject →
    after.objects synapse = before.objects synapse

theorem Unmoved.refl (registry : Registry) : registry.Unmoved registry :=
  ⟨rfl, rfl, fun _ => ⟨rfl, rfl⟩⟩

theorem unmoved_lease (registry : Registry) (multicastAddress : IPAddress) :
    registry.Unmoved (registry.lease multicastAddress) :=
  ⟨rfl, rfl, fun _ => ⟨rfl, rfl⟩⟩

theorem unmoved_setObject (registry : Registry) {synapse : SynapseId}
    {object : SynapseZmqPlexoPubSubEPGM}
    (same : (registry.objects synapse).SameReactants object) :
    registry.Unmoved (registry.setObject synapse object) := by
  refine ⟨rfl, rfl, ?_⟩
  intro other
  by_cases here : other = synapse
  · subst here
    simpa [setObject] using same
  · simpa [setObject, here] using ⟨rfl, rfl⟩

theorem createSynapseWithAddress_entered (host : Host) (registry : Registry)
    (neuron : Neuron) (name : String) (multicastAddress : IPAddress) :
    (∃ error, (registry.createSynapseWithAddress host neuron name
        multicastAddress).1 = .error error ∧
      registry.Unmoved (registry.createSynapseWithAddress host neuron name
        multicastAddress).2) ∨
      (registry.createSynapseWithAddress host neuron name
        multicastAddress).1 = .ok registry.nextObject ∧
      registry.Entered (registry.createSynapseWithAddress host neuron name
        multicastAddress).2 name := by
  unfold createSynapseWithAddress
  cases absent : registry.base.synapses name with
  | some synapse => exact .inl ⟨_, rfl, .refl registry⟩
  | none =>
      dsimp only
      rcases registry.tryLeaseAddress_result multicastAddress with
        ⟨_, result⟩ | ⟨_, error, result⟩
      · rw [result]
        dsimp only
        cases made : SynapseZmqPlexoPubSubEPGM.init host neuron
            multicastAddress [] [] with
        | error error =>
            exact .inl ⟨_, rfl, registry.unmoved_lease multicastAddress⟩
        | ok synapse =>
            refine .inr ⟨rfl, absent, rfl, rfl, ?_, ?_⟩
            · simpa [insertSynapse, lease] using
                SynapseZmqPlexoPubSubEPGM.init_reactants made
            · intro other different
              simp [insertSynapse, lease, different]
      · rw [result]
        exact .inl ⟨_, rfl, .refl registry⟩

theorem updateSynapseWithAddress_unmoved (host : Host) (registry : Registry)
    (name : String) (multicastAddress : IPAddress) :
    registry.Unmoved
      (registry.updateSynapseWithAddress host name multicastAddress).2 := by
  unfold updateSynapseWithAddress
  cases registry.base.synapses name with
  | none => exact .refl registry
  | some synapse =>
      dsimp only
      split
      · exact .refl registry
      · rcases registry.tryLeaseAddress_result multicastAddress with
          ⟨_, result⟩ | ⟨_, error, result⟩
        · rw [result]
          have same := (registry.objects synapse).update_reactants host
            multicastAddress
          have moved := registry.unmoved_setObject same
          dsimp only [lease]
          split
          · next updated =>
              rw [updated] at moved
              exact ⟨rfl, rfl, moved.objects⟩
          · next updated =>
              rw [updated] at moved
              split
              · exact ⟨rfl, rfl, moved.objects⟩
              · exact ⟨rfl, rfl, moved.objects⟩
        · rw [result]
          exact .refl registry

/-- The commit of an approval enters a synapse, or leaves things as they are. -/
theorem createOrUpdate_entered (host : Host) (registry : Registry)
    (neuron : Neuron) (name : String) (multicastAddress : IPAddress) :
    registry.Unmoved (registry.createOrUpdateSynapseWithAddress host neuron name
        multicastAddress).2 ∨
      registry.Entered (registry.createOrUpdateSynapseWithAddress host neuron
        name multicastAddress).2 name := by
  unfold createOrUpdateSynapseWithAddress
  cases registry.base.synapses name with
  | some synapse =>
      exact .inl (registry.updateSynapseWithAddress_unmoved host name _)
  | none =>
      rcases registry.createSynapseWithAddress_entered host neuron name
          multicastAddress with ⟨_, _, unmoved⟩ | ⟨_, entered⟩
      · exact .inl unmoved
      · exact .inr entered

theorem createReserved_entered (host : Host) (registry : Registry)
    (neuron : ProtocolNeuron) :
    registry.Unmoved
        (registry.createSynapseWithReservedAddress host neuron).2 ∨
      registry.Entered (registry.createSynapseWithReservedAddress host neuron).2
        neuron.toNeuron.name := by
  unfold createSynapseWithReservedAddress
  split
  · exact .inl (.refl registry)
  · next multicastAddress _ =>
      rcases registry.createSynapseWithAddress_entered host neuron.toNeuron
          neuron.toNeuron.name multicastAddress with
        ⟨_, _, unmoved⟩ | ⟨_, entered⟩
      · exact .inl unmoved
      · exact .inr entered

end Registry

def Input.isOfCall : Input → Bool
  | .own (.prepare _ _ _) => true
  | .own (.createSynapse _ _) => true
  | .own (.addReactants _ _) => true
  | .own (.addRawReactants _ _) => true
  | .own (.updateTransmitter _) => true
  | .own (.createExternalTransmitter _ _) => true
  | _ => false

/-- What happens next to the calls. -/
inductive MulticastEvent where
  /-- A reaction to a message, a step of `_get_address_from_consensus`, or
  `_num_peers_loop`. -/
  | input (input : Input)
  /-- A part of `startup`. -/
  | createSynapseWithReservedAddress (neuron : ProtocolNeuron)
  /-- `_update_name_neurons`, called by a user of
  `create_external_transmitter`. -/
  | updateNameNeurons (neuron : Neuron)

namespace GanglionPlexoMulticast

/-- A turn of the loop in `acquire_address_for_type`, up to the suspension in a
new call of `_get_address_from_consensus`. -/
def acquireAddressForType (host : Host) (ganglion : GanglionPlexoMulticast)
    (name : String) (call : CallId) (newProposalId : Nat) :
    Option (GanglionPlexoMulticast × Creation CallId) :=
  if (ganglion.registry.base.synapses name).isSome then
    some (ganglion, .ended (.error (.synapseExists name)))
  else
    (ganglion.act host (.prepare call name newProposalId)).map fun result =>
      (result.1, .suspended call)

/-- `_create_synapse_by_name`, from its start or from the end of the call that
it awaits.  A new call gets an identity and a clock reading. -/
def createSynapseByName (host : Host) (ganglion : GanglionPlexoMulticast)
    (neuron : Neuron) (name : String) (awaited : Option CallId)
    (choice : CallId × Nat) :
    Option (GanglionPlexoMulticast × Creation CallId) :=
  match awaited with
  | none => ganglion.acquireAddressForType host name choice.1 choice.2
  | some call =>
      match ganglion.calls call with
      | some (.raised _ error) =>
          if error.isRetried then
            ganglion.acquireAddressForType host name choice.1 choice.2
          else
            some (ganglion, .ended (.error error))
      | some (.returned _ multicastAddress) =>
          let created := ganglion.registry.createSynapseWithAddress host neuron
            name multicastAddress
          some ({ ganglion with registry := created.2 },
            .ended (created.1.map some))
      | _ => none

def setRegistry (ganglion : GanglionPlexoMulticast) (registry : Registry) :
    GanglionPlexoMulticast :=
  { ganglion with registry }

def handle (host : Host) (ganglion : GanglionPlexoMulticast) :
    MulticastEvent → Option GanglionPlexoMulticast
  | .input input =>
      if input.isOfCall then none
      else (ganglion.step host input).map fun result => result.1
  | .createSynapseWithReservedAddress neuron =>
      some (ganglion.setRegistry
        (ganglion.registry.createSynapseWithReservedAddress host neuron).2)
  | .updateNameNeurons neuron =>
      some (ganglion.setRegistry
        { ganglion.registry with
          base := ganglion.registry.base.updateNameNeurons neuron })

/-- `GanglionPlexoMulticast` from its `__init__` on. -/
def methods (host : Host) (multicastCidr : IPNetwork) (instanceId : Nat)
    (filters : Filters) : GanglionMethods where
  State := GanglionPlexoMulticast
  Reactant := ReactantId
  RawReactant := ReactantId
  Pending := CallId
  Choice := CallId × Nat
  Event := MulticastEvent
  start := .init multicastCidr instanceId filters
  isInternal := false
  base ganglion := ganglion.registry.base
  setBase ganglion base := ganglion.setRegistry { ganglion.registry with base }
  reactants ganglion synapse := (ganglion.registry.objects synapse).reactants
  rawReactants ganglion synapse :=
    (ganglion.registry.objects synapse).rawReactants
  addReactants ganglion synapse reactants :=
    ganglion.setRegistry (ganglion.registry.setObject synapse
      ((ganglion.registry.objects synapse).addReactants reactants))
  addRawReactants ganglion synapse rawReactants :=
    ganglion.setRegistry (ganglion.registry.setObject synapse
      ((ganglion.registry.objects synapse).addRawReactants rawReactants))
  createSynapseByName := createSynapseByName host
  other := handle host

/-- The commit of an approval, and nothing else in its reaction, may enter a
synapse. -/
theorem approvalReaction_entered (host : Host)
    (ganglion : GanglionPlexoMulticast) (approval : PlexoApproval) :
    ganglion.registry.Unmoved
        (approvalReaction host ganglion approval).1.registry ∨
      ∃ name, ganglion.registry.Entered
        (approvalReaction host ganglion approval).1.registry name := by
  unfold approvalReaction
  dsimp only
  split
  · split
    · exact .inl (.refl _)
    · unfold commitApproval
      split
      · exact .inl (.refl _)
      · next neuron _ =>
          split
          · exact .inl (.refl _)
          · next multicastAddress _ =>
              have commits := ganglion.registry.createOrUpdate_entered host
                neuron approval.typeName multicastAddress
              dsimp only [countApproval]
              split
              · next result =>
                  rw [result] at commits
                  exact commits.imp_right fun entered => ⟨_, entered⟩
              · next result =>
                  rw [result] at commits
                  exact commits.imp_right fun entered => ⟨_, entered⟩
  · exact .inl (.refl _)

theorem checkPromises_unmoved (ganglion : GanglionPlexoMulticast) (call : CallId)
    (preparation : PlexoPreparation) (popped : IPAddress) :
    ganglion.registry.Unmoved
      (ganglion.checkPromises call preparation popped).1.registry := by
  have chosen : ganglion.registry.Unmoved
      (chooseAddress ganglion.registry
        (ganglion.collectedPromises preparation.typeName) popped).2 := by
    unfold chooseAddress
    split
    · split
      · exact .refl _
      · exact .refl _
    · exact ⟨rfl, rfl, fun _ => ⟨rfl, rfl⟩⟩
  unfold checkPromises
  dsimp only
  split
  · exact .refl _
  · split
    · next result =>
        rw [result] at chosen
        exact chosen
    · next result =>
        rw [result] at chosen
        exact chosen

theorem step_entered {host : Host} {ganglion : GanglionPlexoMulticast}
    {input : Input} {result : GanglionPlexoMulticast × List Output}
    (notOfCall : input.isOfCall = false)
    (taken : ganglion.step host input = some result) :
    ganglion.registry.Unmoved result.1.registry ∨
      ∃ name, ganglion.registry.Entered result.1.registry name := by
  cases counts : input.approval? with
  | some approval =>
      obtain ⟨approving, rfl⟩ := step_of_approval taken counts
      exact approvalReaction_entered host { ganglion with approving } approval
  | none =>
      cases input with
      | receive message =>
          cases Option.some.inj taken
          rw [react_registry host ganglion counts]
          exact .inl (.refl _)
      | own action =>
          cases ownStep_of_act taken with
          | startPreparationTimer found => exact .inl (.refl _)
          | checkPromises found canPop =>
              exact .inl (ganglion.checkPromises_unmoved _ _ _)
          | sendProposal found => exact .inl (.refl _)
          | startProposalTimer found => exact .inl (.refl _)
          | checkApprovals found =>
              unfold checkApprovals
              dsimp only
              split
              · exact .inl (.refl _)
              · exact .inl (.refl _)
          | approve pending => cases counts
          | countPeers => exact .inl (.refl _)
          | prepare fresh => cases notOfCall
          | createSynapse found same => cases notOfCall
          | addReactants found => cases notOfCall
          | addRawReactants found => cases notOfCall
          | updateTransmitter found => cases notOfCall
          | createExternalTransmitter => cases notOfCall

/-- The invariant of runs. -/
def Legal (ganglion : GanglionPlexoMulticast) : Prop :=
  Stocked ganglion.registry.base ganglion.registry.nextObject
    (fun synapse => (ganglion.registry.objects synapse).reactants)
    (fun synapse => (ganglion.registry.objects synapse).rawReactants)

section Laws

variable (host : Host) (multicastCidr : IPNetwork) (instanceId : Nat)
  (filters : Filters) {before after : GanglionPlexoMulticast}

theorem alike_of_unmoved (legal : before.Legal)
    (unmoved : before.registry.Unmoved after.registry) :
    after.Legal ∧
      (methods host multicastCidr instanceId filters).Alike before after := by
  have reactants : (fun synapse => (after.registry.objects synapse).reactants) =
      fun synapse => (before.registry.objects synapse).reactants :=
    funext fun synapse => (unmoved.objects synapse).reactants
  have rawReactants :
      (fun synapse => (after.registry.objects synapse).rawReactants) =
        fun synapse => (before.registry.objects synapse).rawReactants :=
    funext fun synapse => (unmoved.objects synapse).rawReactants
  refine ⟨?_, ?_⟩
  · unfold Legal
    rw [reactants, rawReactants, unmoved.base, unmoved.nextObject]
    exact legal
  · exact
      { synapses := congrArg GanglionExternalBase.synapses unmoved.base
        handles := congrArg GanglionExternalBase.handles unmoved.base
        attached := GanglionMethods.attached_eq reactants rawReactants }

theorem enters_of_entered (legal : before.Legal) {name : String}
    (entered : before.registry.Entered after.registry name) :
    after.Legal ∧
      (methods host multicastCidr instanceId filters).Enters before after name
        before.registry.nextObject := by
  have blank := legal.blank before.registry.nextObject le_rfl
  have reactants : (fun synapse => (after.registry.objects synapse).reactants) =
      fun synapse => (before.registry.objects synapse).reactants := by
    funext synapse
    by_cases new : synapse = before.registry.nextObject
    · rw [new, entered.object.1, blank.1]
    · rw [entered.others synapse new]
  have rawReactants :
      (fun synapse => (after.registry.objects synapse).rawReactants) =
        fun synapse => (before.registry.objects synapse).rawReactants := by
    funext synapse
    by_cases new : synapse = before.registry.nextObject
    · rw [new, entered.object.2, blank.2]
    · rw [entered.others synapse new]
  refine ⟨?_, ?_⟩
  · unfold Legal
    rw [reactants, rawReactants, entered.base, entered.nextObject]
    exact Stocked.insert legal name
  · exact
      { absent := entered.absent
        fresh := legal.fresh
        synapses := congrArg GanglionExternalBase.synapses entered.base
        handles :=
          (congrArg GanglionExternalBase.handles entered.base).trans rfl
        attached := GanglionMethods.attached_eq reactants rawReactants }

theorem creates_of_acquire (legal : before.Legal) {name : String} {call : CallId}
    {newProposalId : Nat} {creation : Creation CallId}
    (acquired : before.acquireAddressForType host name call newProposalId =
      some (after, creation)) :
    after.Legal ∧ (methods host multicastCidr instanceId filters).Creates before
      after name creation := by
  unfold acquireAddressForType at acquired
  split at acquired
  · obtain ⟨⟩ := acquired
    exact ⟨legal, .refuse ⟨rfl, rfl, rfl⟩⟩
  · obtain ⟨result, prepared, same⟩ := Option.map_eq_some_iff.mp acquired
    obtain ⟨⟩ := same
    cases ownStep_of_act prepared with
    | prepare fresh => exact ⟨legal, .suspend ⟨rfl, rfl, rfl⟩⟩

theorem creates_of_create (legal : before.Legal) {neuron : Neuron} {name : String}
    {awaited : Option CallId} {choice : CallId × Nat}
    {creation : Creation CallId}
    (created : createSynapseByName host before neuron name awaited choice =
      some (after, creation)) :
    after.Legal ∧ (methods host multicastCidr instanceId filters).Creates before
      after name creation := by
  unfold createSynapseByName at created
  split at created
  · exact creates_of_acquire _ _ _ _ legal created
  · split at created
    · split at created
      · exact creates_of_acquire _ _ _ _ legal created
      · obtain ⟨⟩ := created
        exact ⟨legal, .refuse ⟨rfl, rfl, rfl⟩⟩
    · next multicastAddress _ =>
        obtain ⟨rfl, rfl⟩ := Prod.mk.inj (Option.some.inj created)
        rcases before.registry.createSynapseWithAddress_entered host neuron name
            multicastAddress with ⟨error, failed, unmoved⟩ | ⟨made, entered⟩
        · obtain ⟨legalNext, alike⟩ := @alike_of_unmoved host multicastCidr
            instanceId filters before (before.setRegistry _) legal unmoved
          rw [failed]
          exact ⟨legalNext, .refuse alike⟩
        · obtain ⟨legalNext, enters⟩ := @enters_of_entered host multicastCidr
            instanceId filters before (before.setRegistry _) legal name entered
          rw [made]
          exact ⟨legalNext, .enter enters⟩
    · cases created

theorem handle_legal (legal : before.Legal) {event : MulticastEvent}
    (handled : before.handle host event = some after) :
    after.Legal ∧
      ((methods host multicastCidr instanceId filters).Alike before after ∨
        ∃ name synapse, (methods host multicastCidr instanceId filters).Enters
          before after name synapse) := by
  have either : (before.registry.Unmoved after.registry ∨
        ∃ name, before.registry.Entered after.registry name) →
      after.Legal ∧
        ((methods host multicastCidr instanceId filters).Alike before after ∨
          ∃ name synapse, (methods host multicastCidr instanceId filters).Enters
            before after name synapse) := by
    rintro (unmoved | ⟨name, entered⟩)
    · obtain ⟨legalNext, alike⟩ := alike_of_unmoved host multicastCidr
        instanceId filters legal unmoved
      exact ⟨legalNext, .inl alike⟩
    · obtain ⟨legalNext, enters⟩ := enters_of_entered host multicastCidr
        instanceId filters legal entered
      exact ⟨legalNext, .inr ⟨name, _, enters⟩⟩
  cases event with
  | input input =>
      simp only [handle] at handled
      split at handled
      · cases handled
      · next notOfCall =>
          obtain ⟨result, taken, rfl⟩ := Option.map_eq_some_iff.mp handled
          exact either (step_entered (by simpa using notOfCall) taken)
  | createSynapseWithReservedAddress neuron =>
      obtain ⟨⟩ := Option.some.inj handled
      exact either ((before.registry.createReserved_entered host neuron).imp_right
        fun entered => ⟨_, entered⟩)
  | updateNameNeurons neuron =>
      obtain ⟨⟩ := Option.some.inj handled
      have same := GanglionExternalBase.updateNameNeurons_synapses
        before.registry.base neuron
      exact ⟨Stocked.setBase legal same, .inl ⟨same,
        GanglionExternalBase.updateNameNeurons_handles _ neuron, rfl⟩⟩

theorem init_legal : (init multicastCidr instanceId filters).Legal := by
  refine ⟨?_, fun _ _ => ⟨rfl, rfl⟩⟩
  intro name synapse known
  simp [init, Registry.init] at known

theorem Legal.setObject (legal : before.Legal) {name : String}
    {synapse : SynapseId}
    (known : before.registry.base.synapses name = some synapse)
    (object : SynapseZmqPlexoPubSubEPGM) :
    (before.setRegistry (before.registry.setObject synapse object)).Legal := by
  refine Stocked.update legal known ?_
  intro other different
  simp [setRegistry, Registry.setObject, different]

theorem mem_addReactants {synapse : SynapseId} {reactants : List ReactantId}
    {reactant : ReactantId} :
    reactant ∈ ((before.registry.setObject synapse
        ((before.registry.objects synapse).addReactants reactants)).objects
          synapse).reactants ↔
      reactant ∈ (before.registry.objects synapse).reactants ∨
        reactant ∈ reactants := by
  simp only [Registry.setObject, Function.update_self,
    SynapseZmqPlexoPubSubEPGM.addReactants,
    SynapseZmqPlexoPubSubEPGM.startRecvLoopIfNeeded_reactants]
  exact mem_addReactantsTo

theorem mem_addRawReactants {synapse : SynapseId}
    {rawReactants : List ReactantId} {reactant : ReactantId} :
    reactant ∈ ((before.registry.setObject synapse
        ((before.registry.objects synapse).addRawReactants rawReactants)).objects
          synapse).rawReactants ↔
      reactant ∈ (before.registry.objects synapse).rawReactants ∨
        reactant ∈ rawReactants := by
  simp only [Registry.setObject, Function.update_self]
  exact mem_addReactantsTo

theorem lawful : (methods host multicastCidr instanceId filters).Lawful Legal where
  start := init_legal multicastCidr instanceId filters
  noSynapses := rfl
  noHandles := by
    funext kind
    cases kind <;> rfl
  noReactants :=
    GanglionMethods.attached_empty (fun _ => rfl) (fun _ => rfl)
  setBase := by
    intro ganglion base legal same
    exact ⟨Stocked.setBase legal same, rfl, rfl⟩
  addReactants := by
    rintro ganglion synapse reactants legal ⟨name, known⟩
    refine ⟨Legal.setObject legal known _, rfl,
      GanglionMethods.attached_addReactants (fun _ => mem_addReactants) ?_ ?_⟩
    · intro other different
      exact congrArg SynapseZmqPlexoPubSubEPGM.reactants
        (Function.update_of_ne different _ ganglion.registry.objects)
    · exact update_part SynapseZmqPlexoPubSubEPGM.rawReactants
        ganglion.registry.objects
        (SynapseZmqPlexoPubSubEPGM.startRecvLoopIfNeeded_rawReactants _)
  addRawReactants := by
    rintro ganglion synapse rawReactants legal ⟨name, known⟩
    refine ⟨Legal.setObject legal known _, rfl,
      GanglionMethods.attached_addRawReactants (fun _ => mem_addRawReactants)
        ?_ ?_⟩
    · intro other different
      exact congrArg SynapseZmqPlexoPubSubEPGM.rawReactants
        (Function.update_of_ne different _ ganglion.registry.objects)
    · exact update_part SynapseZmqPlexoPubSubEPGM.reactants
        ganglion.registry.objects rfl
  createSynapseByName := by
    intro ganglion neuron name awaited choice next creation legal created
    exact creates_of_create host multicastCidr instanceId filters legal created
  other := by
    intro ganglion event next legal handled
    exact handle_legal host multicastCidr instanceId filters legal handled

end Laws

end GanglionPlexoMulticast

end Plexo
