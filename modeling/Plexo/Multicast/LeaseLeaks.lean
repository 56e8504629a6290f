import Plexo.Multicast.Acquisition

/-!
# Leases that nobody gives back

A lease is accounted for if its address is reserved, if a synapse is on it, or
if it was given to an acquisition in flight.  Taking a lease, creating a synapse
and moving one keep every lease accounted for, as long as they succeed.  Nothing
gives back what an acquisition leaves behind: an attempt that ends in
`ConsensusNotReached`, or that finds a synapse at its end, keeps its lease for
good.
-/

namespace Plexo

open PersistentMap Transition

namespace Registry

def IsLeased (registry : Registry) (multicastAddress : IPAddress) : Prop :=
  registry.ipLeaseManager.ipLeaseMap multicastAddress = some true

instance (registry : Registry) (multicastAddress : IPAddress) :
    Decidable (registry.IsLeased multicastAddress) :=
  inferInstanceAs (Decidable (_ = _))

/-- A lease on the address is accounted for. -/
def Covered (registry : Registry) (acquisitions : List Acquisition)
    (multicastAddress : IPAddress) : Prop :=
  multicastAddress ∈ registry.reservedAddresses ∨
    (registry.synapsesByAddress multicastAddress).isSome ∨
    ∃ acquisition ∈ acquisitions, multicastAddress ∈ acquisition.leases

instance (registry : Registry) (acquisitions : List Acquisition)
    (multicastAddress : IPAddress) :
    Decidable (registry.Covered acquisitions multicastAddress) :=
  inferInstanceAs (Decidable (_ ∨ _ ∨ _))

instance (registry : Registry) (multicastAddress : IPAddress) :
    Decidable (registry.Leasable multicastAddress) :=
  inferInstanceAs (Decidable (_ ∨ _))

theorem Covered.mono {before after : Registry}
    {few many : List Acquisition} {multicastAddress : IPAddress}
    (covered : before.Covered few multicastAddress)
    (reserved : after.reservedAddresses = before.reservedAddresses)
    (synapses : (before.synapsesByAddress multicastAddress).isSome →
      (after.synapsesByAddress multicastAddress).isSome)
    (acquisitions : ∀ acquisition ∈ few,
      multicastAddress ∈ acquisition.leases →
        ∃ other ∈ many, multicastAddress ∈ other.leases) :
    after.Covered many multicastAddress := by
  rcases covered with isReserved | known | ⟨acquisition, member, holds⟩
  · exact .inl (reserved ▸ isReserved)
  · exact .inr (.inl (synapses known))
  · exact .inr (.inr (acquisitions acquisition member holds))

/-- The structures are in step and every lease is accounted for. -/
structure Balanced (registry : Registry) (reserved : List IPAddress)
    (acquisitions : List Acquisition) : Prop where
  bookkept : registry.Bookkept
  block : registry.reservedAddresses = reserved
  reserved : ∀ multicastAddress ∈ reserved, registry.IsLeased multicastAddress
  covered : ∀ multicastAddress, registry.IsLeased multicastAddress →
    registry.Covered acquisitions multicastAddress

theorem leaseAll_lookup (manager : IpLeaseManager) (addresses : List IPAddress)
    (multicastAddress : IPAddress) :
    (manager.leaseAll addresses).ipLeaseMap multicastAddress = some true ↔
      manager.ipLeaseMap multicastAddress = some true ∨
        multicastAddress ∈ addresses ∧
          (manager.ipLeaseMap multicastAddress).isSome := by
  unfold IpLeaseManager.leaseAll
  induction addresses generalizing manager with
  | nil => simp
  | cons first addresses induction =>
      rw [List.foldl_cons, induction, IpLeaseManager.leaseAddress_isSome,
        IpLeaseManager.leaseAddress_lookup, List.mem_cons]
      by_cases same : multicastAddress = first
      · subst same
        by_cases known : (manager.ipLeaseMap multicastAddress).isSome
        · simp [known]
        · simp [known]
      · simp [same]

theorem balanced_init (multicastCidr : IPNetwork) (filters : Filters) :
    (init multicastCidr filters).Balanced (multicastCidr.addresses.take 32)
      [] := by
  have leased : ∀ multicastAddress,
      (init multicastCidr filters).IsLeased multicastAddress ↔
        multicastAddress ∈ multicastCidr.addresses.take 32 := by
    intro multicastAddress
    unfold IsLeased init
    rw [leaseAll_lookup, IpLeaseManager.init_isSome, IPNetwork.mem_def]
    constructor
    · intro both
      rcases both with already | ⟨reserved, _⟩
      · simp [IpLeaseManager.init] at already
      · exact reserved
    · intro reserved
      exact .inr ⟨reserved, List.mem_of_mem_take reserved⟩
  refine ⟨bookkept_init multicastCidr filters, rfl, ?_, ?_⟩
  · intro multicastAddress reserved
    exact (leased multicastAddress).mpr reserved
  · intro multicastAddress isLeased
    exact .inl ((leased multicastAddress).mp isLeased)

theorem lease_isLeased {registry : Registry}
    {multicastAddress other : IPAddress}
    (leased : (registry.lease multicastAddress).IsLeased other) :
    registry.IsLeased other ∨
      other = multicastAddress ∧
        registry.ipLeaseManager.ipLeaseMap other = some false := by
  unfold IsLeased lease at leased
  rw [IpLeaseManager.leaseAddress_lookup] at leased
  split at leased
  · next both =>
      obtain ⟨rfl, known⟩ := both
      cases flag : registry.ipLeaseManager.ipLeaseMap other with
      | none => simp [flag] at known
      | some isLeased =>
          cases isLeased with
          | true => exact .inl flag
          | false => exact .inr ⟨rfl, rfl⟩
  · exact .inl leased

variable {registry : Registry} {reserved : List IPAddress}
  {acquisitions : List Acquisition}

theorem Balanced.alike {after : Registry}
    (balanced : registry.Balanced reserved acquisitions)
    (alike : registry.Alike after) : after.Balanced reserved acquisitions := by
  refine ⟨balanced.bookkept.alike alike, alike.reserved.trans balanced.block,
    ?_, ?_⟩
  · intro multicastAddress isReserved
    unfold IsLeased
    rw [alike.leases]
    exact balanced.reserved multicastAddress isReserved
  · intro multicastAddress isLeased
    unfold IsLeased at isLeased
    rw [alike.leases] at isLeased
    apply (balanced.covered multicastAddress isLeased).mono alike.reserved
    · rw [alike.byAddress]
      exact id
    · exact fun acquisition member holds => ⟨acquisition, member, holds⟩

theorem Balanced.lease {multicastAddress : IPAddress}
    (balanced : registry.Balanced reserved acquisitions)
    (covered : registry.ipLeaseManager.ipLeaseMap multicastAddress =
      some false → registry.Covered acquisitions multicastAddress) :
    (registry.lease multicastAddress).Balanced reserved acquisitions := by
  refine ⟨balanced.bookkept.lease multicastAddress, balanced.block, ?_, ?_⟩
  · intro other isReserved
    exact keepsLeases_leaseAddress _ _ _ (balanced.reserved other isReserved)
  · intro other isLeased
    rcases lease_isLeased isLeased with before | ⟨rfl, free⟩
    · exact balanced.covered other before
    · exact covered free

def Creatable (host : Host) (registry : Registry) (name : String)
    (multicastAddress : IPAddress) : Prop :=
  registry.base.synapses name = none ∧ registry.Leasable multicastAddress ∧
    multicastAddress.isMulticast = true ∧ host.bind multicastAddress = true

instance (host : Host) (registry : Registry) (name : String)
    (multicastAddress : IPAddress) :
    Decidable (registry.Creatable host name multicastAddress) :=
  inferInstanceAs (Decidable (_ ∧ _ ∧ _ ∧ _))

/-- `create_synapse_with_address` takes no lease that it leaves to nobody. -/
def CreatesTidily (host : Host) (registry : Registry)
    (acquisitions : List Acquisition) (name : String)
    (multicastAddress : IPAddress) : Prop :=
  registry.base.synapses name = none →
  registry.ipLeaseManager.ipLeaseMap multicastAddress = some false →
    registry.Creatable host name multicastAddress ∨
      registry.Covered acquisitions multicastAddress

instance (host : Host) (registry : Registry)
    (acquisitions : List Acquisition) (name : String)
    (multicastAddress : IPAddress) :
    Decidable (registry.CreatesTidily host acquisitions name
      multicastAddress) :=
  inferInstanceAs (Decidable (_ → _ → _))

theorem CreateResult.reservedAddresses {host : Host} {name : String}
    {multicastAddress : IPAddress}
    {result : Except PlexoError SynapseId × Registry}
    (created : CreateResult host registry name multicastAddress result) :
    result.2.reservedAddresses = registry.reservedAddresses := by
  cases created with
  | refused _ => rfl
  | failed _ _ _ => rfl
  | created _ _ _ => rfl

theorem CreateResult.synapsesByAddress {host : Host} {name : String}
    {multicastAddress other : IPAddress}
    {result : Except PlexoError SynapseId × Registry}
    (created : CreateResult host registry name multicastAddress result)
    (known : (registry.synapsesByAddress other).isSome) :
    (result.2.synapsesByAddress other).isSome := by
  cases created with
  | refused _ => exact known
  | failed _ _ _ => exact known
  | created _ _ _ =>
      simp only [Registry.insertSynapse, PMap.set_apply]
      split
      · rfl
      · exact known

theorem CreateResult.covers {host : Host} {name : String}
    {multicastAddress : IPAddress}
    {result : Except PlexoError SynapseId × Registry}
    (created : CreateResult host registry name multicastAddress result)
    (creatable : registry.Creatable host name multicastAddress) :
    (result.2.synapsesByAddress multicastAddress).isSome := by
  obtain ⟨absent, leasable, multicast, bound⟩ := creatable
  cases created with
  | refused refused =>
      rcases refused with ⟨synapse, found⟩ | notLeasable
      · rw [absent] at found
        cases found
      · exact absurd leasable notLeasable
  | failed _ _ impossible => exact absurd ⟨multicast, bound⟩ impossible
  | created _ _ _ => simp [Registry.insertSynapse]

theorem CreateResult.isLeased {host : Host} {name : String}
    {multicastAddress other : IPAddress}
    {result : Except PlexoError SynapseId × Registry}
    (created : CreateResult host registry name multicastAddress result)
    (leased : result.2.IsLeased other) :
    registry.IsLeased other ∨
      other = multicastAddress ∧ registry.base.synapses name = none ∧
        registry.ipLeaseManager.ipLeaseMap other = some false := by
  cases created with
  | refused _ => exact .inl leased
  | failed absent _ _ =>
      rcases lease_isLeased leased with before | ⟨same, free⟩
      · exact .inl before
      · exact .inr ⟨same, absent, free⟩
  | created absent _ _ =>
      rcases lease_isLeased (show (registry.lease _).IsLeased other from leased)
        with before | ⟨same, free⟩
      · exact .inl before
      · exact .inr ⟨same, absent, free⟩

theorem CreateResult.keepsLeases {host : Host} {name : String}
    {multicastAddress : IPAddress}
    {result : Except PlexoError SynapseId × Registry}
    (created : CreateResult host registry name multicastAddress result) :
    KeepsLeases registry.ipLeaseManager result.2.ipLeaseManager := by
  cases created with
  | refused _ => exact fun _ leased => leased
  | failed _ _ _ => exact keepsLeases_leaseAddress _ _
  | created _ _ _ => exact keepsLeases_leaseAddress _ _

/-- After a creation that is tidy for the acquisitions that remain, what the
others cover and what the creation covers is covered. -/
theorem Balanced.create {host : Host} {name : String}
    {multicastAddress : IPAddress} {remaining : List Acquisition}
    {result : Except PlexoError SynapseId × Registry}
    (balanced : registry.Balanced reserved acquisitions)
    (created : CreateResult host registry name multicastAddress result)
    (tidy : registry.CreatesTidily host remaining name multicastAddress)
    (released : ∀ other, registry.IsLeased other →
      registry.Covered acquisitions other →
      other = multicastAddress ∧
          registry.Creatable host name multicastAddress ∨
        registry.Covered remaining other) :
    result.2.Balanced reserved remaining := by
  have grows : ∀ {other}, registry.Covered remaining other →
      result.2.Covered remaining other := by
    intro other covered
    apply covered.mono created.reservedAddresses created.synapsesByAddress
    exact fun acquisition member holds => ⟨acquisition, member, holds⟩
  refine ⟨balanced.bookkept.ofCreate created,
    created.reservedAddresses.trans balanced.block, ?_, ?_⟩
  · intro other isReserved
    exact created.keepsLeases other (balanced.reserved other isReserved)
  · intro other isLeased
    rcases created.isLeased isLeased with before | ⟨rfl, absent, free⟩
    · rcases released other before (balanced.covered other before) with
        ⟨rfl, creatable⟩ | covered
      · exact .inr (.inl (created.covers creatable))
      · exact grows covered
    · rcases tidy absent free with creatable | covered
      · exact .inr (.inl (created.covers creatable))
      · exact grows covered

/-- `update_synapse_with_address` takes no lease that it leaves to nobody, and
gives back no reserved address. -/
def MovesTidily (host : Host) (registry : Registry)
    (acquisitions : List Acquisition) (synapse : SynapseId)
    (multicastAddress : IPAddress) : Prop :=
  let object := registry.objects synapse
  object.multicastAddress ≠ multicastAddress →
  registry.Leasable multicastAddress →
    if object.Closable host ∧ multicastAddress.isMulticast = true then
      host.bind multicastAddress = true ∧
        object.multicastAddress ∉ registry.reservedAddresses
    else
      registry.ipLeaseManager.ipLeaseMap multicastAddress = some false →
        registry.Covered acquisitions multicastAddress

instance (host : Host) (registry : Registry)
    (acquisitions : List Acquisition) (synapse : SynapseId)
    (multicastAddress : IPAddress) :
    Decidable (registry.MovesTidily host acquisitions synapse
      multicastAddress) :=
  inferInstanceAs (Decidable (_ → _ → _))

theorem Balanced.moved {synapse : SynapseId}
    {object : SynapseZmqPlexoPubSubEPGM} {current multicastAddress : IPAddress}
    {manager : IpLeaseManager}
    (balanced : registry.Balanced reserved acquisitions)
    (different : current ≠ multicastAddress)
    (notReserved : current ∉ registry.reservedAddresses)
    (released : (registry.lease multicastAddress).ipLeaseManager.releaseAddress
      current = (.ok current, manager))
    (bookkept : Bookkept
      { ((registry.lease multicastAddress).setObject synapse
          object).moveSynapse synapse current multicastAddress with
        ipLeaseManager := manager }) :
    Balanced
      { ((registry.lease multicastAddress).setObject synapse
          object).moveSynapse synapse current multicastAddress with
        ipLeaseManager := manager } reserved acquisitions := by
  have flags := releaseAddress_isLeased released
  refine ⟨bookkept, balanced.block, ?_, ?_⟩
  · intro other isReserved
    apply (flags other).mpr
    refine ⟨?_, keepsLeases_leaseAddress _ _ _
      (balanced.reserved other isReserved)⟩
    rintro rfl
    exact notReserved (balanced.block.symm ▸ isReserved)
  · intro other isLeased
    obtain ⟨away, leased⟩ := (flags other).mp isLeased
    by_cases there : other = multicastAddress
    · subst there
      refine .inr (.inl ?_)
      simp [moveSynapse, setObject, PMap.discard_of_ne _ different.symm]
    · have before : registry.IsLeased other := by
        rcases lease_isLeased leased with before | ⟨same, _⟩
        · exact before
        · exact absurd same there
      apply (balanced.covered other before).mono
      · rfl
      · simp only [moveSynapse, setObject]
        rw [PMap.discard_of_ne _ away, PMap.set_of_ne _ _ there]
        exact id
      · exact fun acquisition member holds => ⟨acquisition, member, holds⟩

theorem Balanced.update {host : Host} {name : String} {synapse : SynapseId}
    {multicastAddress : IPAddress}
    {result : Except PlexoError SynapseId × Registry}
    (balanced : registry.Balanced reserved acquisitions)
    (found : registry.base.synapses name = some synapse)
    (updated : UpdateResult host registry name multicastAddress result)
    (tidy : registry.MovesTidily host acquisitions synapse multicastAddress) :
    result.2.Balanced reserved acquisitions := by
  have known : ∀ {other}, registry.base.synapses name = some other →
      other = synapse := by
    intro other also
    rw [found] at also
    exact (Option.some.inj also).symm
  cases updated with
  | refused => exact balanced
  | there => exact balanced
  | @failed other error object also different leasable failed =>
      obtain rfl := known also
      have possible := tidy different leasable
      have raises : ((registry.objects other).update host
          multicastAddress).1 ≠ .ok () := by
        rw [failed]
        simp
      obtain ⟨stuck, stays⟩ := SynapseZmqPlexoPubSubEPGM.update_failed raises
        (fun both => (if_pos both ▸ possible).1)
      rw [if_neg stuck] at possible
      rw [failed] at stays
      exact (balanced.lease possible).alike (alike_setObject _ stays)
  | moved also isCurrent different leasable moved released =>
      obtain rfl := known also
      subst isCurrent
      have both := (SynapseZmqPlexoPubSubEPGM.update_ok_iff ..).mp
        (congrArg Prod.fst moved)
      have possible := tidy different leasable
      rw [if_pos ⟨both.1, both.2.1⟩] at possible
      exact balanced.moved different possible.2 released
        (balanced.bookkept.ofUpdate (fun _ _ _ _ => possible.1)
          (.moved also rfl different leasable moved released))

/-- Committing an approval leaves no lease to nobody. -/
def CommitsTidily (host : Host) (registry : Registry)
    (acquisitions : List Acquisition) (name : String)
    (multicastAddress : IPAddress) : Prop :=
  match registry.base.synapses name with
  | none => registry.CreatesTidily host acquisitions name multicastAddress
  | some synapse =>
      registry.MovesTidily host acquisitions synapse multicastAddress

instance (host : Host) (registry : Registry)
    (acquisitions : List Acquisition) (name : String)
    (multicastAddress : IPAddress) :
    Decidable (registry.CommitsTidily host acquisitions name
      multicastAddress) := by
  unfold CommitsTidily
  cases registry.base.synapses name with
  | none => exact inferInstance
  | some synapse => exact inferInstance

theorem Balanced.createOrUpdate {host : Host} {name : String}
    {multicastAddress : IPAddress}
    (balanced : registry.Balanced reserved acquisitions) (neuron : Neuron)
    (tidy : registry.CommitsTidily host acquisitions name multicastAddress) :
    (registry.createOrUpdateSynapseWithAddress host neuron name
      multicastAddress).2.Balanced reserved acquisitions := by
  unfold createOrUpdateSynapseWithAddress
  cases found : registry.base.synapses name with
  | none =>
      simp only [CommitsTidily, found] at tidy
      apply balanced.create
        (createResult host registry neuron name multicastAddress) tidy
      exact fun _ _ covered => .inr covered
  | some synapse =>
      simp only [CommitsTidily, found] at tidy
      exact balanced.update found
        (balanced.bookkept.updateResult host name multicastAddress) tidy

theorem getAddress_isLeased {popped multicastAddress : IPAddress}
    {manager : IpLeaseManager}
    (leased : (manager.getAddress popped).2.ipLeaseMap multicastAddress =
      some true) :
    manager.ipLeaseMap multicastAddress = some true ∨
      manager.availableIps ≠ ∅ ∧ multicastAddress = popped := by
  unfold IpLeaseManager.getAddress at leased
  split at leased
  · exact .inl leased
  · next available =>
      rw [IpLeaseManager.leaseAddress_lookup] at leased
      split at leased
      · next both => exact .inr ⟨available, both.1⟩
      · exact .inl leased

theorem Balanced.getAddress {popped : IPAddress} {later : List Acquisition}
    (balanced : registry.Balanced reserved acquisitions)
    (keeps : ∀ multicastAddress, ∀ acquisition ∈ acquisitions,
      multicastAddress ∈ acquisition.leases →
        ∃ other ∈ later, multicastAddress ∈ other.leases)
    (given : registry.ipLeaseManager.availableIps ≠ ∅ →
      ∃ acquisition ∈ later, popped ∈ acquisition.leases) :
    Balanced
      { registry with
        ipLeaseManager := (registry.ipLeaseManager.getAddress popped).2 }
      reserved later := by
  have leases := keepsLeases_getAddress registry.ipLeaseManager popped
  refine ⟨balanced.bookkept.keep rfl rfl rfl (fun _ => rfl) leases,
    balanced.block, ?_, ?_⟩
  · intro multicastAddress isReserved
    exact leases _ (balanced.reserved multicastAddress isReserved)
  · intro multicastAddress isLeased
    rcases getAddress_isLeased isLeased with before | ⟨available, rfl⟩
    · exact (balanced.covered multicastAddress before).mono rfl id
        (keeps multicastAddress)
    · exact .inr (.inr (given available))

theorem balanced_startup (host : Host) (multicastCidr : IPNetwork)
    (filters : Filters) :
    ((init multicastCidr filters).startup host).2.Balanced
      (multicastCidr.addresses.take 32) [] := by
  apply startup_keeps
    (fun registry => registry.Balanced (multicastCidr.addresses.take 32) [])
    (balanced_init multicastCidr filters)
  · intro before neuron multicastAddress balanced isReserved
    apply balanced.create (createResult ..)
    · intro _ free
      have leased := balanced.reserved multicastAddress
        (balanced.block ▸ isReserved)
      rw [IsLeased, free] at leased
      cases leased
    · exact fun _ _ covered => .inr covered
  · intro before neuron balanced
    exact balanced.alike (before.alike_adaptProtocolNeuron neuron)

end Registry

namespace GanglionPlexoMulticast

instance (ganglion : GanglionPlexoMulticast) (approval : PlexoApproval)
    (multicastAddress : IPAddress) :
    Decidable (ganglion.Commits approval multicastAddress) :=
  inferInstanceAs (Decidable (_ ∧ _ ∧ _ ∧ _))

theorem gives_of_awaiting {ganglion : GanglionPlexoMulticast} {call : CallId}
    {preparation : PlexoPreparation} {cancelled : Bool} {popped : IPAddress}
    (found : ganglion.calls call =
      some (.awaitingPromises preparation cancelled))
    (passed : ganglion.preparationRejected preparation.typeName = false)
    (fresh : newestPromise
      (ganglion.collectedPromises preparation.typeName) = none)
    (available : ganglion.registry.ipLeaseManager.availableIps ≠ ∅) :
    ganglion.gives (.own (.checkPromises call popped)) =
      some (call, popped) := by
  simp [gives, found, passed, fresh, available]

theorem prepare_registry {host : Host} {ganglion : GanglionPlexoMulticast}
    {call : CallId} {name : String} {newProposalId : Nat}
    {result : GanglionPlexoMulticast × List Output}
    (taken : ganglion.step host (.own (.prepare call name newProposalId)) =
      some result) : result.1.registry = ganglion.registry := by
  have acted : ganglion.act host (.prepare call name newProposalId) =
      some result := taken
  cases ownStep_of_act acted with
  | prepare fresh => rfl

end GanglionPlexoMulticast

namespace Acquiring

def GivesUp (acquiring : Acquiring) (acquisition : Acquisition) : Prop :=
  (acquiring.ganglion.raised acquisition.call).any (!·.isRetried) = true ∨
    (acquiring.ganglion.registry.base.synapses acquisition.name).isSome

instance (acquiring : Acquiring) (acquisition : Acquisition) :
    Decidable (acquiring.GivesUp acquisition) :=
  inferInstanceAs (Decidable (_ ∨ _))

/-- The lease on an address is accounted for without the acquisition. -/
def CoveredWithout (acquiring : Acquiring) (acquisition : Acquisition)
    (multicastAddress : IPAddress) : Prop :=
  acquiring.ganglion.registry.Covered
    (acquiring.acquisitions.erase acquisition) multicastAddress

instance (acquiring : Acquiring) (acquisition : Acquisition)
    (multicastAddress : IPAddress) :
    Decidable (acquiring.CoveredWithout acquisition multicastAddress) :=
  inferInstanceAs (Decidable (Registry.Covered _ _ _))

/-- The step leaves no lease to nobody. -/
def Tidy (host : Host) (acquiring : Acquiring) : AcquiringAction → Prop
  | .acquire _ _ _ => True
  | .retry acquisition _ _ =>
      acquiring.GivesUp acquisition →
        ∀ multicastAddress ∈ acquisition.leases,
          acquiring.ganglion.registry.IsLeased multicastAddress →
            acquiring.CoveredWithout acquisition multicastAddress
  | .createSynapse acquisition neuron =>
      ∀ returned ∈ acquiring.ganglion.returned acquisition.call,
        acquiring.ganglion.registry.CreatesTidily host
            (acquiring.acquisitions.erase acquisition) neuron.name returned ∧
          ∀ multicastAddress ∈ acquisition.leases,
            acquiring.ganglion.registry.IsLeased multicastAddress →
              multicastAddress = returned ∧
                  acquiring.ganglion.registry.Creatable host neuron.name
                    returned ∨
                acquiring.CoveredWithout acquisition multicastAddress
  | .other input =>
      ∀ approval ∈ input.approval?,
        ∀ multicastAddress ∈ approval.multicastIp.bind ipAddress,
          acquiring.ganglion.Commits approval multicastAddress →
            acquiring.ganglion.registry.CommitsTidily host
              acquiring.acquisitions approval.typeName multicastAddress

instance (host : Host) (acquiring : Acquiring) (action : AcquiringAction) :
    Decidable (acquiring.Tidy host action) := by
  cases action with
  | acquire name call newProposalId => exact inferInstanceAs (Decidable True)
  | retry acquisition call newProposalId =>
      exact inferInstanceAs (Decidable (_ → _))
  | createSynapse acquisition neuron =>
      exact inferInstanceAs (Decidable
        (∀ returned ∈ acquiring.ganglion.returned acquisition.call, _))
  | other input => exact inferInstanceAs (Decidable (∀ approval ∈ _, _))

def Balanced (acquiring : Acquiring) (reserved : List IPAddress) : Prop :=
  acquiring.ganglion.registry.Balanced reserved acquiring.acquisitions

theorem covered_erase {registry : Registry} {acquisitions : List Acquisition}
    {multicastAddress : IPAddress}
    (covered : registry.Covered acquisitions multicastAddress)
    (acquisition : Acquisition) :
    multicastAddress ∈ acquisition.leases ∨
      registry.Covered (acquisitions.erase acquisition) multicastAddress := by
  rcases covered with reserved | known | ⟨other, member, holds⟩
  · exact .inr (.inl reserved)
  · exact .inr (.inr (.inl known))
  · by_cases same : other = acquisition
    · exact .inl (same ▸ holds)
    · exact .inr (.inr (.inr
        ⟨other, (List.mem_erase_of_ne same).mpr member, holds⟩))

theorem balanced_mono {registry : Registry} {reserved : List IPAddress}
    {acquisitions later : List Acquisition}
    (balanced : registry.Balanced reserved acquisitions)
    (covered : ∀ multicastAddress, registry.IsLeased multicastAddress →
      registry.Covered acquisitions multicastAddress →
        registry.Covered later multicastAddress) :
    registry.Balanced reserved later := by
  refine ⟨balanced.bookkept, balanced.block, balanced.reserved, ?_⟩
  intro multicastAddress isLeased
  exact covered multicastAddress isLeased
    (balanced.covered multicastAddress isLeased)

theorem Balanced.other {host : Host} {acquiring : Acquiring}
    {reserved : List IPAddress} {input : Input}
    {result : GanglionPlexoMulticast × List Output}
    (balanced : acquiring.Balanced reserved) (owned : acquiring.Owned)
    (tidy : acquiring.Tidy host (.other input))
    (notAcquisition : input.isAcquisition = false)
    (taken : acquiring.ganglion.step host input = some result) :
    Balanced
      ⟨result.1, acquiring.acquisitions.map
        (note (acquiring.ganglion.gives input))⟩ reserved := by
  have noted : ∀ multicastAddress, ∀ acquisition ∈ acquiring.acquisitions,
      multicastAddress ∈ acquisition.leases →
        ∃ other ∈ acquiring.acquisitions.map
          (note (acquiring.ganglion.gives input)),
          multicastAddress ∈ other.leases := by
    intro multicastAddress acquisition member holds
    refine ⟨_, List.mem_map_of_mem member, ?_⟩
    unfold note
    split
    · split
      · exact List.mem_cons_of_mem _ holds
      · exact holds
    · exact holds
  have grow : ∀ {after : Registry},
      after.Balanced reserved acquiring.acquisitions →
        after.Balanced reserved (acquiring.acquisitions.map
          (note (acquiring.ganglion.gives input))) := by
    intro after kept
    apply balanced_mono kept
    intro multicastAddress _ covered
    exact covered.mono rfl id (noted multicastAddress)
  have moved := GanglionPlexoMulticast.registryMove_of_step taken
  unfold Balanced
  generalize result.1.registry = after at moved ⊢
  cases moved with
  | keep => exact grow balanced
  | attach same =>
      exact grow (Registry.Balanced.alike balanced
        (Registry.alike_setObject _ same))
  | updateTransmitter =>
      exact grow (Registry.Balanced.alike balanced
        (Registry.alike_base _ (by simp)))
  | register =>
      exact grow (Registry.Balanced.alike balanced
        (Registry.alike_base _ (by simp)))
  | @lease call preparation cancelled popped found canPop passed fresh =>
      apply Registry.Balanced.getAddress balanced noted
      intro available
      obtain ⟨owner, member, owns⟩ := owned call ⟨_, found, rfl⟩
      refine ⟨_, List.mem_map_of_mem member, ?_⟩
      rw [GanglionPlexoMulticast.gives_of_awaiting found passed fresh available]
      simp [note, owns]
  | create _ => cases notAcquisition
  | commit counts commits =>
      apply grow
      apply Registry.Balanced.createOrUpdate balanced
      exact tidy _ counts _ commits.2.2.2 commits

theorem Balanced.step {host : Host} {acquiring next : Acquiring}
    {reserved : List IPAddress} {action : AcquiringAction}
    (balanced : acquiring.Balanced reserved) (owned : acquiring.Owned)
    (tidy : acquiring.Tidy host action)
    (taken : acquiring.step host action = some next) :
    next.Balanced reserved := by
  cases move_of_step taken with
  | refuse => exact balanced
  | acquire prepared =>
      unfold Balanced
      rw [GanglionPlexoMulticast.prepare_registry prepared]
      apply balanced_mono balanced
      intro multicastAddress _ covered
      exact covered.mono rfl id
        (fun other member holds => ⟨other, List.mem_cons_of_mem _ member, holds⟩)
  | @giveUp acquisition call newProposalId error member raised ends =>
      have givesUp : acquiring.GivesUp acquisition := by
        unfold GivesUp
        rw [raised]
        simpa using ends
      apply balanced_mono balanced
      intro multicastAddress isLeased covered
      rcases covered_erase covered acquisition with holds | without
      · exact tidy givesUp multicastAddress holds isLeased
      · exact without
  | @retry acquisition call newProposalId error result member raised prepared =>
      unfold Balanced
      rw [GanglionPlexoMulticast.prepare_registry prepared]
      apply balanced_mono balanced
      intro multicastAddress isLeased covered
      rcases covered_erase covered acquisition with holds | without
      · exact .inr (.inr ⟨_, List.mem_cons_self, holds⟩)
      · exact without.mono rfl id
          (fun other member holds =>
            ⟨other, List.mem_cons_of_mem _ member, holds⟩)
  | @create acquisition neuron result member same created =>
      obtain ⟨returned, isReturned, _, after⟩ :=
        GanglionPlexoMulticast.createSynapse_of_step created
      obtain ⟨creates, leases⟩ := tidy returned isReturned
      unfold Balanced
      rw [after]
      apply Registry.Balanced.create balanced (Registry.createResult ..) creates
      intro other isLeased covered
      rcases covered_erase covered acquisition with holds | without
      · exact leases other holds isLeased
      · exact .inr without
  | other notAcquisition stepped =>
      exact balanced.other owned tidy notAcquisition stepped

end Acquiring

/-- The leases are those of the reserved block and of the synapses, and all
other addresses of the network can be given out. -/
structure Registry.NoLeak (registry : Registry) (multicastCidr : IPNetwork) :
    Prop where
  leased : ∀ multicastAddress,
    registry.ipLeaseManager.addressIsLeased multicastAddress = .ok true ↔
      multicastAddress ∈ multicastCidr.addresses.take 32 ∨
        ∃ name, registry.IsOn name multicastAddress
  available : ∀ multicastAddress,
    multicastAddress ∈ registry.ipLeaseManager.availableIps ↔
      multicastAddress ∈ multicastCidr ∧
        ¬ (multicastAddress ∈ multicastCidr.addresses.take 32 ∨
          ∃ name, registry.IsOn name multicastAddress)

theorem Registry.addressIsLeased_iff (registry : Registry)
    (multicastAddress : IPAddress) :
    registry.ipLeaseManager.addressIsLeased multicastAddress = .ok true ↔
      registry.IsLeased multicastAddress := by
  unfold IpLeaseManager.addressIsLeased Registry.IsLeased
  cases registry.ipLeaseManager.ipLeaseMap multicastAddress with
  | none => simp
  | some leased => simp

/-- With no acquisition in flight, nobody but the reserved block and the
synapses accounts for a lease. -/
theorem Registry.Balanced.noLeak {registry : Registry}
    {multicastCidr : IPNetwork}
    (balanced : registry.Balanced (multicastCidr.addresses.take 32) [])
    (follows : (IpLeaseManager.init multicastCidr).Follows
      registry.ipLeaseManager) : registry.NoLeak multicastCidr := by
  have leased : ∀ multicastAddress, registry.IsLeased multicastAddress ↔
      multicastAddress ∈ multicastCidr.addresses.take 32 ∨
        ∃ name, registry.IsOn name multicastAddress := by
    intro multicastAddress
    constructor
    · intro isLeased
      rcases balanced.covered multicastAddress isLeased with
        reserved | known | ⟨_, member, _⟩
      · exact .inl (balanced.block ▸ reserved)
      · obtain ⟨synapse, isKnown⟩ := Option.isSome_iff_exists.mp known
        obtain ⟨⟨name, found⟩, there⟩ := balanced.bookkept.inverse.mp isKnown
        exact .inr ⟨name, synapse, found, there⟩
      · cases member
    · intro either
      rcases either with reserved | ⟨name, synapse, found, there⟩
      · exact balanced.reserved multicastAddress reserved
      · exact balanced.bookkept.leased
          (balanced.bookkept.inverse.mpr ⟨⟨name, found⟩, there⟩)
  constructor
  · intro multicastAddress
    rw [registry.addressIsLeased_iff, leased]
  · intro multicastAddress
    rw [follows.consistent (IpLeaseManager.consistent_init multicastCidr),
      ← IpLeaseManager.init_isSome, ← follows.sameNetwork, ← leased, IsLeased]
    cases registry.ipLeaseManager.ipLeaseMap multicastAddress with
    | none => simp
    | some isLeased => simp

section Runs

variable {host : Host} {multicastCidr : IPNetwork} {instanceId numPeers : Nat}
  {filters : Filters} {steps : List (Acquiring × AcquiringAction)}
  {acquiring : Acquiring}

theorem Acquiring.balanced_of_run
    (path : Path (Acquiring.step host)
      (.started host multicastCidr instanceId numPeers filters) steps acquiring)
    (tidy : Along (Acquiring.Tidy host) steps) :
    acquiring.Balanced (multicastCidr.addresses.take 32) ∧
      acquiring.Owned ∧
      (IpLeaseManager.init multicastCidr).Follows
        acquiring.ganglion.registry.ipLeaseManager := by
  induction path with
  | refl =>
      exact ⟨Registry.balanced_startup host multicastCidr filters,
        Acquiring.owned_started host multicastCidr instanceId numPeers filters,
        GanglionPlexoMulticast.leases_started ..⟩
  | snoc _ taken induction =>
      obtain ⟨here, earlier⟩ := along_cons.mp tidy
      obtain ⟨balanced, owned, follows⟩ := induction earlier
      refine ⟨balanced.step owned here taken, owned.step taken, ?_⟩
      rcases Acquiring.ganglion_of_step taken with
        same | ⟨input, result, stepped, same⟩
      · rw [same]
        exact follows
      · rw [same]
        exact follows.trans (GanglionPlexoMulticast.leases_step stepped)

theorem Acquiring.bookkept_of_run
    (binds : ∀ multicastAddress, host.bind multicastAddress = true)
    (path : Path (Acquiring.step host)
      (.started host multicastCidr instanceId numPeers filters) steps
      acquiring) : acquiring.ganglion.registry.Bookkept := by
  induction path with
  | refl => exact GanglionPlexoMulticast.bookkept_started ..
  | snoc _ taken induction =>
      rcases Acquiring.ganglion_of_step taken with
        same | ⟨input, result, stepped, same⟩
      · rw [same]
        exact induction
      · rw [same]
        exact (GanglionPlexoMulticast.registryMove_of_step stepped).bookkept
          induction binds

/-- In a run that leaves no lease to nobody, every state without an acquisition
in flight has leased the reserved block and the addresses of its synapses. -/
theorem no_lease_leak
    (path : Path (Acquiring.step host)
      (.started host multicastCidr instanceId numPeers filters) steps acquiring)
    (tidy : Along (Acquiring.Tidy host) steps)
    (quiet : acquiring.acquisitions = []) :
    acquiring.ganglion.registry.NoLeak multicastCidr := by
  obtain ⟨balanced, _, follows⟩ := Acquiring.balanced_of_run path tidy
  unfold Acquiring.Balanced at balanced
  rw [quiet] at balanced
  exact balanced.noLeak follows

end Runs

namespace Leak

def first : IPAddress := .v4 239 0 0 32

def second : IPAddress := .v4 239 0 0 33

/-- One call of `_get_address_from_consensus` of instance 10 with one peer: the
peer reports `accepted`, `popped` is available, and an approval arrives for
`approved`. -/
def attempt (call : CallId) (proposalId : Nat) (accepted : Option IPAddress)
    (popped : IPAddress) (approved : Option IPAddress) :
    List AcquiringAction :=
  let promise : PlexoPromise :=
    { multicastIp := accepted.map (·.packed)
      acceptedInstanceId := 10
      acceptedProposalId := 1
      instanceId := 10
      proposalId
      typeName := "dev.plexo.Foo.json" }
  let approvals : List Input :=
    match approved with
    | none => []
    | some multicastAddress =>
        [.receive (.approval
          { instanceId := 10
            proposalId
            typeName := "dev.plexo.Foo.json"
            multicastIp := some multicastAddress.packed })]
  let waits : List Input :=
    [.own (.startPreparationTimer call), .receive (.promise promise),
      .own (.checkPromises call popped), .own (.sendProposal call),
      .own (.startProposalTimer call)]
  (waits ++ approvals ++ [Input.own (.checkApprovals call)]).map .other

/-- The first attempt of an acquisition gets no approval and the second one
does.  The peer has accepted the first proposal or has not got it. -/
def run (accepted : Option IPAddress) (approved : IPAddress)
    (leases : List IPAddress) : List AcquiringAction :=
  [.acquire "dev.plexo.Foo.json" 0 1] ++ attempt 0 1 none first none ++
    [.retry ⟨"dev.plexo.Foo.json", 0, [first]⟩ 1 2] ++
    attempt 1 2 accepted second (some approved) ++
    [.createSynapse ⟨"dev.plexo.Foo.json", 1, leases⟩ Learner.neuron]

def start : Acquiring :=
  .started .permissive .sample 10 1 {}

end Leak

theorem no_lease_leak_acceptedRun :
    ∃ steps acquiring, Path (Acquiring.step .permissive) Leak.start steps
        acquiring ∧
      acquiring.ganglion.registry.base.synapses "dev.plexo.Foo.json" =
        some 6 ∧
      acquiring.ganglion.registry.NoLeak .sample := by
  obtain ⟨acquiring, path, facts⟩ := path_of_any
    (show (exec (Acquiring.step .permissive) Leak.start
      (Leak.run (some Leak.first) Leak.first [Leak.first])).any
        (fun acquiring => acquiring.acquisitions = [] ∧
          acquiring.ganglion.registry.base.synapses "dev.plexo.Foo.json" =
            some 6) = true by decide +kernel)
  simp only [decide_eq_true_eq] at facts
  exact ⟨_, acquiring, path, facts.2,
    no_lease_leak path (by decide +kernel) facts.1⟩

theorem not_no_lease_leak_lostRun :
    ¬ ∀ (host : Host) (multicastCidr : IPNetwork) (instanceId numPeers : Nat)
      (filters : Filters) (steps : List (Acquiring × AcquiringAction))
      (acquiring : Acquiring),
      Path (Acquiring.step host)
        (.started host multicastCidr instanceId numPeers filters) steps
        acquiring →
      acquiring.acquisitions = [] →
      acquiring.ganglion.registry.NoLeak multicastCidr := by
  intro holds
  obtain ⟨acquiring, path, facts⟩ := path_of_any
    (show (exec (Acquiring.step .permissive) Leak.start
      (Leak.run none Leak.second [Leak.second, Leak.first])).any
        (fun acquiring => acquiring.acquisitions = [] ∧
          acquiring.ganglion.registry.IsLeased Leak.first ∧
          acquiring.ganglion.registry.synapsesByAddress Leak.first = none) =
            true by decide +kernel)
  simp only [decide_eq_true_eq] at facts
  obtain ⟨quiet, leased, nobody⟩ := facts
  have noLeak := holds .permissive .sample 10 1 {} _ acquiring path quiet
  have bookkept := Acquiring.bookkept_of_run (fun _ => rfl) path
  rcases (noLeak.leased Leak.first).mp
    ((Registry.addressIsLeased_iff ..).mpr leased) with
    reserved | ⟨name, synapse, found, there⟩
  · revert reserved
    decide +kernel
  · have known := bookkept.inverse.mpr ⟨⟨name, found⟩, there⟩
    rw [nobody] at known
    cases known

end Plexo
