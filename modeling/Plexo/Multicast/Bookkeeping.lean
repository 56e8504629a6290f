import Plexo.Library.Transition
import Plexo.Multicast.Acceptor

/-!
# The registries over whole runs

Every operation of an instance reaches its lease manager through the four
methods of `IpLeaseManager`.  None of them changes which addresses belong to
the network, and none breaks the agreement between the lease flags and the set
of available addresses.  The filters stay as they are, and so do the names of
neurons except under `create_external_transmitter`.
-/

namespace Plexo

open PersistentMap Transition

namespace IpLeaseManager

/-- What any sequence of operations does to a lease manager. -/
structure Follows (before after : IpLeaseManager) : Prop where
  consistent : before.Consistent → after.Consistent
  sameNetwork : ∀ address,
    (after.ipLeaseMap address).isSome = (before.ipLeaseMap address).isSome

theorem Follows.refl (manager : IpLeaseManager) : manager.Follows manager :=
  ⟨id, fun _ => rfl⟩

theorem Follows.trans {before middle after : IpLeaseManager}
    (first : before.Follows middle) (second : middle.Follows after) :
    before.Follows after := by
  constructor
  · intro consistent
    exact second.consistent (first.consistent consistent)
  · intro address
    rw [second.sameNetwork, first.sameNetwork]

theorem follows_leaseAddress (manager : IpLeaseManager) (address : IPAddress) :
    manager.Follows (manager.leaseAddress address).2 := by
  constructor
  · intro consistent
    exact consistent.leaseAddress address
  · exact leaseAddress_isSome manager address

theorem follows_releaseAddress (manager : IpLeaseManager)
    (address : IPAddress) :
    manager.Follows (manager.releaseAddress address).2 := by
  constructor
  · intro consistent
    exact consistent.releaseAddress address
  · intro other
    cases flag : manager.ipLeaseMap address with
    | none => simp [releaseAddress, flag]
    | some leased =>
        cases leased with
        | false => simp [releaseAddress, flag]
        | true =>
            rw [releaseAddress_leased flag]
            dsimp only
            rw [PMap.set_apply]
            split
            · next same => rw [same, flag]; rfl
            · rfl

/-- The set of available addresses is popped before the flag is set, so the
two agree again only at the end of the method. -/
theorem follows_getAddress (manager : IpLeaseManager) (popped : IPAddress) :
    manager.Follows (manager.getAddress popped).2 := by
  unfold getAddress
  split
  · exact .refl manager
  · constructor
    · intro consistent other
      have here := consistent other
      have atPopped := consistent popped
      rw [leaseAddress_lookup]
      unfold leaseAddress
      cases flag : manager.ipLeaseMap popped with
      | none => grind
      | some leased => cases leased <;> grind
    · intro address
      exact leaseAddress_isSome _ popped address

theorem follows_leaseAll (manager : IpLeaseManager)
    (addresses : List IPAddress) :
    manager.Follows (manager.leaseAll addresses) := by
  unfold leaseAll
  induction addresses generalizing manager with
  | nil => exact .refl manager
  | cons address addresses induction =>
      exact (manager.follows_leaseAddress address).trans (induction _)

theorem init_isSome (multicastCidr : IPNetwork) (address : IPAddress) :
    ((init multicastCidr).ipLeaseMap address).isSome = true ↔
      address ∈ multicastCidr := by
  rw [IPNetwork.mem_def]
  unfold init
  dsimp only
  split <;> simp [*]

end IpLeaseManager

namespace Registry

/-- What any sequence of operations that registers no name does to the
registries. -/
structure Follows (before after : Registry) : Prop where
  leases : before.ipLeaseManager.Follows after.ipLeaseManager
  names : after.base.nameNeurons = before.base.nameNeurons
  filters : after.base.filters = before.base.filters

theorem Follows.refl (registry : Registry) : registry.Follows registry :=
  ⟨.refl _, rfl, rfl⟩

theorem Follows.trans {before middle after : Registry}
    (first : before.Follows middle) (second : middle.Follows after) :
    before.Follows after :=
  ⟨first.leases.trans second.leases, second.names.trans first.names,
    second.filters.trans first.filters⟩

theorem Follows.keep {before middle after : Registry}
    (first : before.Follows middle)
    (leases : after.ipLeaseManager = middle.ipLeaseManager)
    (names : after.base.nameNeurons = middle.base.nameNeurons)
    (filters : after.base.filters = middle.base.filters) :
    before.Follows after :=
  ⟨leases ▸ first.leases, names.trans first.names, filters.trans first.filters⟩

theorem follows_tryLeaseAddress (registry : Registry)
    (multicastAddress : IPAddress) :
    registry.Follows (registry.tryLeaseAddress multicastAddress).2 := by
  have leased :=
    registry.ipLeaseManager.follows_leaseAddress multicastAddress
  unfold tryLeaseAddress
  split
  · next manager result =>
      rw [result] at leased
      exact ⟨leased, rfl, rfl⟩
  · split
    · exact .refl _
    · exact .refl _
  · exact .refl _

theorem follows_createSynapseWithAddress (host : Host) (registry : Registry)
    (neuron : Neuron) (name : String) (multicastAddress : IPAddress) :
    registry.Follows (registry.createSynapseWithAddress host neuron name
      multicastAddress).2 := by
  have leased := registry.follows_tryLeaseAddress multicastAddress
  unfold createSynapseWithAddress
  split
  · exact .refl _
  · split
    · next result => simpa [result] using leased
    · next result =>
        rw [result] at leased
        split
        · exact leased
        · exact leased.keep rfl rfl rfl

theorem follows_updateSynapseWithAddress (host : Host) (registry : Registry)
    (name : String) (multicastAddress : IPAddress) :
    registry.Follows (registry.updateSynapseWithAddress host name
      multicastAddress).2 := by
  have tried := registry.follows_tryLeaseAddress multicastAddress
  unfold updateSynapseWithAddress
  split
  · exact .refl _
  · next synapse found =>
      dsimp only
      split
      · exact .refl _
      · split
        · next result => simpa [result] using tried
        · next leased result =>
            have before : registry.Follows leased := by
              simpa [result] using tried
            split
            · exact before.keep rfl rfl rfl
            · have released := leased.ipLeaseManager.follows_releaseAddress
                (registry.objects synapse).multicastAddress
              split
              · exact before.keep rfl rfl rfl
              · next manager freed =>
                  simp only [moveSynapse, setObject] at freed
                  rw [freed] at released
                  exact before.trans ⟨released, rfl, rfl⟩

theorem follows_createOrUpdateSynapseWithAddress (host : Host)
    (registry : Registry) (neuron : Neuron) (name : String)
    (multicastAddress : IPAddress) :
    registry.Follows (registry.createOrUpdateSynapseWithAddress host
      neuron name multicastAddress).2 := by
  unfold createOrUpdateSynapseWithAddress
  split
  · apply follows_updateSynapseWithAddress
  · apply follows_createSynapseWithAddress

theorem createReserved_keeps {host : Host} {holds : Registry → Prop}
    (created : ∀ before neuron multicastAddress, holds before →
      multicastAddress ∈ before.reservedAddresses →
        holds (before.createSynapseWithAddress host neuron neuron.name
          multicastAddress).2)
    {registry : Registry} (initial : holds registry)
    (neurons : List ProtocolNeuron) :
    holds (registry.createReserved host neurons).2 := by
  induction neurons generalizing registry with
  | nil => exact initial
  | cons neuron neurons induction =>
      have first :
          holds (registry.createSynapseWithReservedAddress host neuron).2 := by
        unfold createSynapseWithReservedAddress
        split
        · exact initial
        · next found =>
            exact created _ _ _ initial (List.mem_of_getElem? found)
      unfold createReserved
      split
      · next result => simpa [result] using first
      · next result =>
          rw [result] at first
          exact induction first

theorem startup_keeps {host : Host} {registry : Registry}
    (holds : Registry → Prop) (initial : holds registry)
    (created : ∀ before neuron multicastAddress, holds before →
      multicastAddress ∈ before.reservedAddresses →
        holds (before.createSynapseWithAddress host neuron neuron.name
          multicastAddress).2)
    (adapted : ∀ before neuron, holds before →
      holds (before.adaptProtocolNeuron neuron)) :
    holds (registry.startup host).2 := by
  have reserved := createReserved_keeps created initial ProtocolNeuron.all
  have adaptedAll : ∀ (neurons : List ProtocolNeuron) (before : Registry),
      holds before → holds (neurons.foldl adaptProtocolNeuron before) := by
    intro neurons
    induction neurons with
    | nil => exact fun _ start => start
    | cons neuron neurons induction =>
        intro before start
        exact induction _ (adapted before neuron start)
  unfold startup
  split
  · next result => simpa [result] using reserved
  · next result =>
      rw [result] at reserved
      exact adaptedAll _ _ reserved

theorem follows_createSynapseWithReservedAddress (host : Host)
    (registry : Registry) (neuron : ProtocolNeuron) :
    registry.Follows
      (registry.createSynapseWithReservedAddress host neuron).2 := by
  unfold createSynapseWithReservedAddress
  split
  · exact .refl _
  · apply follows_createSynapseWithAddress

theorem follows_createReserved (host : Host) (registry : Registry)
    (neurons : List ProtocolNeuron) :
    registry.Follows (registry.createReserved host neurons).2 := by
  apply @createReserved_keeps _ registry.Follows _ _ (.refl registry)
  intro before neuron multicastAddress start _
  exact start.trans (before.follows_createSynapseWithAddress ..)

theorem follows_adaptProtocolNeuron (registry : Registry)
    (neuron : ProtocolNeuron) :
    registry.Follows (registry.adaptProtocolNeuron neuron) := by
  unfold adaptProtocolNeuron
  split
  · exact .refl _
  · split
    · exact (Follows.refl _).keep rfl (by simp) (by simp)
    · exact .refl _

theorem follows_startup (host : Host) (registry : Registry) :
    registry.Follows (registry.startup host).2 := by
  apply startup_keeps registry.Follows (.refl registry)
  · intro before neuron multicastAddress start _
    exact start.trans (before.follows_createSynapseWithAddress ..)
  · intro before neuron start
    exact start.trans (before.follows_adaptProtocolNeuron neuron)

theorem leases_init (multicastCidr : IPNetwork) (filters : Filters) :
    (IpLeaseManager.init multicastCidr).Follows
      (init multicastCidr filters).ipLeaseManager :=
  IpLeaseManager.follows_leaseAll _ _

end Registry

/-- The approval that an input makes `_approval_reaction` count. -/
def Input.approval? : Input → Option PlexoApproval
  | .receive (.approval approval) => some approval
  | .own (.approve approval) => some approval
  | _ => none

namespace GanglionPlexoMulticast

theorem step_of_approval {host : Host} {ganglion : GanglionPlexoMulticast}
    {input : Input} {result : GanglionPlexoMulticast × List Output}
    {approval : PlexoApproval}
    (taken : ganglion.step host input = some result)
    (counts : input.approval? = some approval) :
    ∃ approving, result = approvalReaction host { ganglion with approving }
      approval := by
  cases input with
  | receive message =>
      cases message with
      | approval body =>
          cases counts
          exact ⟨ganglion.approving, (Option.some.inj taken).symm⟩
      | _ => simp [Input.approval?] at counts
  | own action =>
      cases action with
      | approve body =>
          cases counts
          have acted : ganglion.act host (.approve approval) = some result :=
            taken
          cases ownStep_of_act acted with
          | approve pending => exact ⟨_, rfl⟩
      | _ => simp [Input.approval?] at counts

/-- The approval is committed, and carries the address. -/
def Commits (ganglion : GanglionPlexoMulticast) (approval : PlexoApproval)
    (multicastAddress : IPAddress) : Prop :=
  ganglion.numPeers < 2 * ganglion.newApprovalsNum approval.key ∧
    approval.instanceId ≠ ganglion.instanceId ∧
    (ganglion.registry.base.nameNeurons approval.typeName).isSome ∧
    approval.multicastIp.bind ipAddress = some multicastAddress

/-- What a step does to the registry. -/
inductive RegistryMove (host : Host) (ganglion : GanglionPlexoMulticast) :
    Input → Registry → Prop where
  | keep {input : Input} :
      RegistryMove host ganglion input ganglion.registry
  | attach {input : Input} {synapse : SynapseId}
      {object : SynapseZmqPlexoPubSubEPGM} :
      object.multicastAddress =
        (ganglion.registry.objects synapse).multicastAddress →
      RegistryMove host ganglion input
        (ganglion.registry.setObject synapse object)
  | updateTransmitter {input : Input} {neuron : Neuron} {synapse : SynapseId} :
      RegistryMove host ganglion input
        { ganglion.registry with
          base := ganglion.registry.base.updateTransmitter neuron synapse }
  | register {neuron : Neuron} {synapse : SynapseId} :
      RegistryMove host ganglion
        (.own (.createExternalTransmitter neuron synapse))
        { ganglion.registry with
          base := ganglion.registry.base.createExternalTransmitter neuron
            synapse }
  | lease {call : CallId} {preparation : PlexoPreparation} {cancelled : Bool}
      {popped : IPAddress} :
      ganglion.calls call = some (.awaitingPromises preparation cancelled) →
      ganglion.CanPop popped →
      ganglion.preparationRejected preparation.typeName = false →
      newestPromise (ganglion.collectedPromises preparation.typeName) = none →
      RegistryMove host ganglion (.own (.checkPromises call popped))
        { ganglion.registry with
          ipLeaseManager :=
            (ganglion.registry.ipLeaseManager.getAddress popped).2 }
  | create {call : CallId} {neuron : Neuron} {proposal : PlexoProposal}
      {multicastAddress : IPAddress} :
      ganglion.calls call = some (.returned proposal multicastAddress) →
      RegistryMove host ganglion (.own (.createSynapse call neuron))
        (ganglion.registry.createSynapseWithAddress host neuron neuron.name
          multicastAddress).2
  | commit {input : Input} {approval : PlexoApproval} {neuron : Neuron}
      {multicastAddress : IPAddress} :
      input.approval? = some approval →
      ganglion.Commits approval multicastAddress →
      RegistryMove host ganglion input
        (ganglion.registry.createOrUpdateSynapseWithAddress host neuron
          approval.typeName multicastAddress).2

theorem registryMove_of_approval {host : Host}
    {ganglion : GanglionPlexoMulticast} {input : Input}
    {approval : PlexoApproval} (counts : input.approval? = some approval)
    (approving : List PlexoApproval) :
    RegistryMove host ganglion input
      (approvalReaction host { ganglion with approving } approval).1.registry := by
  unfold approvalReaction
  dsimp only
  split
  · next above =>
      split
      · exact .keep
      · next foreign =>
          unfold commitApproval GanglionExternalBase.getNeuronByName
          dsimp only [countApproval]
          cases known : ganglion.registry.base.nameNeurons
              approval.typeName with
          | none => exact .keep
          | some neuron =>
              dsimp only
              cases carried : approval.multicastIp.bind ipAddress with
              | none => exact .keep
              | some multicastAddress =>
                  have commits : ganglion.Commits approval multicastAddress :=
                    ⟨above, foreign, by simp [known], carried⟩
                  have moved := @RegistryMove.commit host ganglion input
                    approval neuron multicastAddress counts commits
                  dsimp only
                  split
                  · next result => simpa [result] using moved
                  · next result => simpa [result] using moved
  · exact .keep

theorem registryMove_of_checkPromises (host : Host)
    {ganglion : GanglionPlexoMulticast} {call : CallId}
    {preparation : PlexoPreparation} {cancelled : Bool} {popped : IPAddress}
    (found : ganglion.calls call =
      some (.awaitingPromises preparation cancelled))
    (canPop : ganglion.CanPop popped) :
    RegistryMove host ganglion (.own (.checkPromises call popped))
      (ganglion.checkPromises call preparation popped).1.registry := by
  unfold checkPromises
  dsimp only
  split
  · exact .keep
  · next passed =>
      have chosen : RegistryMove host ganglion (.own (.checkPromises call popped))
          (chooseAddress ganglion.registry
            (ganglion.collectedPromises preparation.typeName) popped).2 := by
        unfold chooseAddress
        cases selected : newestPromise
            (ganglion.collectedPromises preparation.typeName) with
        | some newest =>
            dsimp only
            split
            · exact .keep
            · exact .keep
        | none => exact .lease found canPop (by simpa using passed) selected
      split
      · next result => simpa [result, setCall] using chosen
      · next result => simpa [result, setCall] using chosen

theorem react_registry (host : Host) (ganglion : GanglionPlexoMulticast)
    {message : Message} (silent : (Input.receive message).approval? = none) :
    (ganglion.react host message).1.registry = ganglion.registry := by
  cases message with
  | heartbeat body => rfl
  | preparation body =>
      simp only [react, preparationReaction]
      split
      · rfl
      · split
        · rfl
        · rfl
  | promise body =>
      simp only [react, promiseReaction]
      split
      · rfl
      · rfl
  | rejection body =>
      simp only [react, rejectionReaction]
      split
      · rfl
      · rfl
  | proposal body =>
      simp only [react, proposalReaction]
      split
      · rfl
      · split
        · rfl
        · rfl
  | approval body => cases silent

theorem registryMove_of_step {host : Host} {ganglion : GanglionPlexoMulticast}
    {input : Input} {result : GanglionPlexoMulticast × List Output}
    (taken : ganglion.step host input = some result) :
    RegistryMove host ganglion input result.1.registry := by
  cases counts : input.approval? with
  | some approval =>
      obtain ⟨approving, rfl⟩ := step_of_approval taken counts
      exact registryMove_of_approval counts approving
  | none =>
      cases input with
      | receive message =>
          cases Option.some.inj taken
          rw [react_registry host ganglion counts]
          exact .keep
      | own action =>
          cases ownStep_of_act taken with
          | prepare fresh => exact .keep
          | startPreparationTimer found => exact .keep
          | checkPromises found canPop =>
              exact registryMove_of_checkPromises host found canPop
          | sendProposal found => exact .keep
          | startProposalTimer found => exact .keep
          | checkApprovals found =>
              unfold checkApprovals
              dsimp only
              split
              · exact .keep
              · exact .keep
          | approve pending => cases counts
          | countPeers => exact .keep
          | createSynapse found same => exact .create found
          | addReactants found => exact .attach (by simp)
          | addRawReactants found => exact .attach (by simp)
          | updateTransmitter found => exact .updateTransmitter
          | createExternalTransmitter => exact .register

abbrev Follows (before after : GanglionPlexoMulticast) : Prop :=
  before.registry.Follows after.registry

theorem RegistryMove.follows {host : Host} {ganglion : GanglionPlexoMulticast}
    {input : Input} {after : Registry}
    (moved : RegistryMove host ganglion input after)
    (unregistered : ∀ neuron synapse,
      input ≠ .own (.createExternalTransmitter neuron synapse)) :
    ganglion.registry.Follows after := by
  cases moved with
  | keep => exact .refl _
  | attach same => exact (Registry.Follows.refl _).keep rfl rfl rfl
  | updateTransmitter =>
      exact (Registry.Follows.refl _).keep rfl (by simp) (by simp)
  | register => exact absurd rfl (unregistered _ _)
  | lease _ _ _ _ =>
      exact ⟨IpLeaseManager.follows_getAddress _ _, rfl, rfl⟩
  | create _ => apply Registry.follows_createSynapseWithAddress
  | commit _ _ => apply Registry.follows_createOrUpdateSynapseWithAddress

/-- Any step either registers no name or is `create_external_transmitter`. -/
theorem follows_or_registers {host : Host} {ganglion : GanglionPlexoMulticast}
    {input : Input} {result : GanglionPlexoMulticast × List Output}
    (taken : ganglion.step host input = some result) :
    ganglion.Follows result.1 ∧ (∀ neuron synapse,
        input ≠ .own (.createExternalTransmitter neuron synapse)) ∨
      ∃ neuron synapse,
        input = .own (.createExternalTransmitter neuron synapse) ∧
        result.1.registry =
          { ganglion.registry with
            base := ganglion.registry.base.createExternalTransmitter neuron
              synapse } := by
  by_cases registers : ∃ neuron synapse,
      input = .own (.createExternalTransmitter neuron synapse)
  · obtain ⟨neuron, synapse, rfl⟩ := registers
    cases Option.some.inj taken
    exact .inr ⟨neuron, synapse, rfl, rfl⟩
  · have unregistered : ∀ neuron synapse,
        input ≠ .own (.createExternalTransmitter neuron synapse) := by
      intro neuron synapse same
      exact registers ⟨neuron, synapse, same⟩
    exact .inl ⟨(registryMove_of_step taken).follows unregistered, unregistered⟩

theorem leases_step {host : Host} {ganglion : GanglionPlexoMulticast}
    {input : Input} {result : GanglionPlexoMulticast × List Output}
    (taken : ganglion.step host input = some result) :
    ganglion.registry.ipLeaseManager.Follows
      result.1.registry.ipLeaseManager := by
  rcases follows_or_registers taken with
    ⟨follows, _⟩ | ⟨neuron, synapse, _, registered⟩
  · exact follows.leases
  · rw [registered]
    exact .refl _

theorem filters_step {host : Host} {ganglion : GanglionPlexoMulticast}
    {input : Input} {result : GanglionPlexoMulticast × List Output}
    (taken : ganglion.step host input = some result) :
    result.1.registry.base.filters = ganglion.registry.base.filters := by
  rcases follows_or_registers taken with
    ⟨follows, _⟩ | ⟨neuron, synapse, _, registered⟩
  · exact follows.filters
  · simp [registered]

theorem leases_started (host : Host) (multicastCidr : IPNetwork)
    (instanceId numPeers : Nat) (filters : Filters) :
    (IpLeaseManager.init multicastCidr).Follows
      (started host multicastCidr instanceId numPeers
        filters).registry.ipLeaseManager :=
  (Registry.leases_init multicastCidr filters).trans
    (Registry.follows_startup host _).leases

theorem started_nameNeurons (host : Host) (multicastCidr : IPNetwork)
    (instanceId numPeers : Nat) (filters : Filters) :
    (started host multicastCidr instanceId numPeers
      filters).registry.base.nameNeurons = PMap.empty :=
  (Registry.follows_startup host (.init multicastCidr filters)).names

end GanglionPlexoMulticast

/-- The lease manager of an instance follows the one it was created with, over
every run of the instance. -/
theorem Observed.leases_run {host : Host} {multicastCidr : IPNetwork}
    {instanceId numPeers : Nat} {filters : Filters}
    {steps : List (Observed × Input)} {observed : Observed}
    (path : Path (Observed.step host)
      ⟨.started host multicastCidr instanceId numPeers filters, []⟩ steps
      observed) :
    (IpLeaseManager.init multicastCidr).Follows
      observed.ganglion.registry.ipLeaseManager := by
  induction path with
  | refl => apply GanglionPlexoMulticast.leases_started
  | snoc _ taken induction =>
      obtain ⟨result, resultTaken, rfl⟩ := Observed.step_eq_some taken
      exact induction.trans (GanglionPlexoMulticast.leases_step resultTaken)

end Plexo
