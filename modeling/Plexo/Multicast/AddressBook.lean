import Plexo.Multicast.Learner

/-!
# Which synapse is on which address

Three structures have to stay in step: the synapses by name, the synapses by
address, and the leases.  An address on which there is a synapse is leased, and
`try_lease_address` refuses an address that is leased only if there is a synapse
on it, so that no address gets a second one.  That leases are also held by calls
in flight does no harm: the lease that a move gives back is always there.
-/

namespace Plexo

open PersistentMap Transition

namespace SynapseZmqPlexoPubSubEPGM

/-- A synapse that does not get to an address that it could be bound to stays
where it is. -/
theorem update_failed {host : Host}
    {synapse : SynapseZmqPlexoPubSubEPGM} {multicastAddress : IPAddress}
    (failed : (synapse.update host multicastAddress).1 ≠ .ok ())
    (possible : synapse.Closable host ∧ multicastAddress.isMulticast = true →
      host.bind multicastAddress = true) :
    ¬ (synapse.Closable host ∧ multicastAddress.isMulticast = true) ∧
      (synapse.update host multicastAddress).2.multicastAddress =
        synapse.multicastAddress := by
  have stuck : ¬ (synapse.Closable host ∧
      multicastAddress.isMulticast = true) := by
    intro both
    exact failed ((update_ok_iff ..).mpr
      ⟨both.1, both.2, possible both⟩)
  refine ⟨stuck, ?_⟩
  by_cases closable : synapse.Closable host
  · have unicast : multicastAddress.isMulticast = false := by
      cases multicast : multicastAddress.isMulticast with
      | false => rfl
      | true => exact absurd ⟨closable, multicast⟩ stuck
    rw [update_of_closable closable, startup, if_pos unicast]
    rfl
  · rw [update_of_not_closable closable]
    rfl

theorem init_multicastAddress {host : Host} {neuron : Neuron}
    {multicastAddress : IPAddress} {reactants rawReactants : List ReactantId}
    {synapse : SynapseZmqPlexoPubSubEPGM}
    (created : init host neuron multicastAddress reactants rawReactants =
      .ok synapse) : synapse.multicastAddress = multicastAddress := by
  unfold init startup at created
  dsimp only at created
  split at created
  · cases created
  · next result =>
      split at result
      · cases result
      · split at result
        · cases result
        · obtain ⟨⟩ := created
          obtain ⟨⟩ := result
          simp

end SynapseZmqPlexoPubSubEPGM

namespace Registry

/-- The three structures are in step.  Synapse objects are named once, and those
to come are not named yet. -/
structure Bookkept (registry : Registry) : Prop where
  named : ∀ {name synapse}, registry.base.synapses name = some synapse →
    synapse < registry.nextObject
  injective : ∀ {left right synapse},
    registry.base.synapses left = some synapse →
    registry.base.synapses right = some synapse → left = right
  inverse : ∀ {multicastAddress synapse},
    registry.synapsesByAddress multicastAddress = some synapse ↔
      (∃ name, registry.base.synapses name = some synapse) ∧
        (registry.objects synapse).multicastAddress = multicastAddress
  leased : ∀ {multicastAddress synapse},
    registry.synapsesByAddress multicastAddress = some synapse →
      registry.ipLeaseManager.ipLeaseMap multicastAddress = some true

def KeepsLeases (before after : IpLeaseManager) : Prop :=
  ∀ multicastAddress, before.ipLeaseMap multicastAddress = some true →
    after.ipLeaseMap multicastAddress = some true

theorem keepsLeases_leaseAddress (manager : IpLeaseManager)
    (multicastAddress : IPAddress) :
    KeepsLeases manager (manager.leaseAddress multicastAddress).2 := by
  intro other leased
  rw [IpLeaseManager.leaseAddress_lookup]
  split
  · rfl
  · exact leased

theorem keepsLeases_getAddress (manager : IpLeaseManager) (popped : IPAddress) :
    KeepsLeases manager (manager.getAddress popped).2 := by
  unfold IpLeaseManager.getAddress
  split
  · exact fun _ leased => leased
  · exact keepsLeases_leaseAddress
      { manager with availableIps := manager.availableIps.erase popped } popped

theorem Bookkept.keep {before after : Registry} (bookkept : before.Bookkept)
    (synapses : after.base.synapses = before.base.synapses)
    (byAddress : after.synapsesByAddress = before.synapsesByAddress)
    (nextObject : after.nextObject = before.nextObject)
    (addresses : ∀ synapse, (after.objects synapse).multicastAddress =
      (before.objects synapse).multicastAddress)
    (leases : KeepsLeases before.ipLeaseManager after.ipLeaseManager) :
    after.Bookkept := by
  refine ⟨?_, ?_, ?_, ?_⟩
  · intro name synapse found
    rw [nextObject]
    exact bookkept.named (synapses ▸ found)
  · intro left right synapse first second
    exact bookkept.injective (synapses ▸ first) (synapses ▸ second)
  · intro multicastAddress synapse
    rw [byAddress, synapses, addresses]
    exact bookkept.inverse
  · intro multicastAddress synapse found
    exact leases _ (bookkept.leased (byAddress ▸ found))

/-- A change that no synapse, address or lease is affected by. -/
structure Alike (before after : Registry) : Prop where
  synapses : after.base.synapses = before.base.synapses
  byAddress : after.synapsesByAddress = before.synapsesByAddress
  nextObject : after.nextObject = before.nextObject
  addresses : ∀ synapse, (after.objects synapse).multicastAddress =
    (before.objects synapse).multicastAddress
  reserved : after.reservedAddresses = before.reservedAddresses
  leases : after.ipLeaseManager.ipLeaseMap = before.ipLeaseManager.ipLeaseMap

theorem Alike.refl (registry : Registry) : registry.Alike registry :=
  ⟨rfl, rfl, rfl, fun _ => rfl, rfl, rfl⟩

theorem Bookkept.alike {before after : Registry} (bookkept : before.Bookkept)
    (alike : before.Alike after) : after.Bookkept := by
  apply bookkept.keep alike.synapses alike.byAddress alike.nextObject
    alike.addresses
  intro multicastAddress leased
  rw [alike.leases]
  exact leased

theorem alike_base (registry : Registry) {base : GanglionExternalBase}
    (synapses : base.synapses = registry.base.synapses) :
    registry.Alike { registry with base } :=
  ⟨synapses, rfl, rfl, fun _ => rfl, rfl, rfl⟩

theorem alike_setObject (registry : Registry) {synapse : SynapseId}
    {object : SynapseZmqPlexoPubSubEPGM}
    (same : object.multicastAddress =
      (registry.objects synapse).multicastAddress) :
    registry.Alike (registry.setObject synapse object) := by
  refine ⟨rfl, rfl, rfl, ?_, rfl, rfl⟩
  intro other
  by_cases equal : other = synapse
  · subst equal
    simp [setObject, same]
  · simp [setObject, equal]

theorem Bookkept.setObject {registry : Registry} (bookkept : registry.Bookkept)
    {synapse : SynapseId} {object : SynapseZmqPlexoPubSubEPGM}
    (same : object.multicastAddress =
      (registry.objects synapse).multicastAddress) :
    (registry.setObject synapse object).Bookkept :=
  bookkept.alike (registry.alike_setObject same)

theorem bookkept_init (multicastCidr : IPNetwork) (filters : Filters) :
    (init multicastCidr filters).Bookkept := by
  refine ⟨?_, ?_, ?_, ?_⟩
  · intro name synapse found
    cases found
  · intro left right synapse found
    cases found
  · intro multicastAddress synapse
    simp [init]
  · intro multicastAddress synapse found
    cases found

/-- The effect of `lease_address`. -/
def lease (registry : Registry) (multicastAddress : IPAddress) : Registry :=
  { registry with
    ipLeaseManager :=
      (registry.ipLeaseManager.leaseAddress multicastAddress).2 }

/-- Whatever its outcome, `try_lease_address` does what `lease_address` does. -/
theorem tryLeaseAddress_registry (registry : Registry)
    (multicastAddress : IPAddress) :
    (registry.tryLeaseAddress multicastAddress).2 =
      registry.lease multicastAddress := by
  unfold tryLeaseAddress lease IpLeaseManager.leaseAddress
  cases registry.ipLeaseManager.ipLeaseMap multicastAddress with
  | none => rfl
  | some leased =>
      cases leased with
      | false => rfl
      | true =>
          dsimp only
          split <;> rfl

theorem tryLeaseAddress_result (registry : Registry)
    (multicastAddress : IPAddress) :
    (registry.Leasable multicastAddress ∧
        registry.tryLeaseAddress multicastAddress =
          (.ok (), registry.lease multicastAddress)) ∨
      ¬ registry.Leasable multicastAddress ∧
        ∃ error, registry.tryLeaseAddress multicastAddress =
          (.error error, registry) := by
  unfold tryLeaseAddress lease IpLeaseManager.leaseAddress Leasable
  cases flag : registry.ipLeaseManager.ipLeaseMap multicastAddress with
  | none => simp
  | some leased =>
      cases leased with
      | false => simp
      | true =>
          cases known : registry.synapsesByAddress multicastAddress with
          | none => simp
          | some synapse => simp

/-- There is no synapse on an address that can be leased. -/
theorem Bookkept.free {registry : Registry} (bookkept : registry.Bookkept)
    {multicastAddress : IPAddress}
    (leasable : registry.Leasable multicastAddress) :
    registry.synapsesByAddress multicastAddress = none := by
  rcases leasable with free | leased
  · cases known : registry.synapsesByAddress multicastAddress with
    | none => rfl
    | some synapse =>
        rw [bookkept.leased known] at free
        cases free
  · exact leased.2

theorem Leasable.leased {registry : Registry} {multicastAddress : IPAddress}
    (leasable : registry.Leasable multicastAddress) :
    (registry.lease multicastAddress).ipLeaseManager.ipLeaseMap
      multicastAddress = some true := by
  rw [lease, IpLeaseManager.leaseAddress_lookup]
  rcases leasable with free | leased
  · simp [free]
  · simp [leased.1]

theorem Bookkept.lease {registry : Registry}
    (bookkept : registry.Bookkept) (multicastAddress : IPAddress) :
    (registry.lease multicastAddress).Bookkept := by
  exact bookkept.keep rfl rfl rfl (fun _ => rfl)
    (keepsLeases_leaseAddress _ multicastAddress)

theorem Bookkept.insertSynapse {registry : Registry}
    (bookkept : registry.Bookkept) {name : String}
    {synapse : SynapseZmqPlexoPubSubEPGM}
    (absent : registry.base.synapses name = none)
    (free : registry.synapsesByAddress synapse.multicastAddress = none)
    (leased : registry.ipLeaseManager.ipLeaseMap synapse.multicastAddress =
      some true) :
    (registry.insertSynapse name synapse.multicastAddress synapse).Bookkept := by
  have old : ∀ {other known}, registry.base.synapses other = some known →
      other ≠ name ∧ known ≠ registry.nextObject := by
    intro other known found
    refine ⟨?_, Nat.ne_of_lt (bookkept.named found)⟩
    rintro rfl
    rw [absent] at found
    cases found
  have stays : ∀ {other known}, registry.base.synapses other = some known →
      registry.base.synapses.set name registry.nextObject other =
        some known := by
    intro other known found
    exact (PMap.set_of_ne _ _ (old found).1).trans found
  refine ⟨?_, ?_, ?_, ?_⟩
  · intro other known found
    rcases (PMap.set_eq_some_iff ..).mp found with ⟨_, rfl⟩ | ⟨_, before⟩
    · exact Nat.lt_succ_self _
    · exact Nat.lt_succ_of_lt (bookkept.named before)
  · intro left right known first second
    rcases (PMap.set_eq_some_iff ..).mp first with ⟨rfl, rfl⟩ | ⟨_, before⟩
    · rcases (PMap.set_eq_some_iff ..).mp second with ⟨rfl, _⟩ | ⟨_, after⟩
      · rfl
      · exact absurd rfl (old after).2
    · rcases (PMap.set_eq_some_iff ..).mp second with ⟨rfl, rfl⟩ | ⟨_, after⟩
      · exact absurd rfl (old before).2
      · exact bookkept.injective before after
  · intro multicastAddress known
    simp only [Registry.insertSynapse]
    constructor
    · intro found
      rcases (PMap.set_eq_some_iff ..).mp found with ⟨rfl, rfl⟩ | ⟨_, before⟩
      · exact ⟨⟨name, PMap.set_self _ _ _⟩, by simp⟩
      · obtain ⟨⟨other, isNamed⟩, there⟩ := bookkept.inverse.mp before
        refine ⟨⟨other, stays isNamed⟩, ?_⟩
        rw [Function.update_of_ne (old isNamed).2]
        exact there
    · intro both
      obtain ⟨⟨other, isNamed⟩, there⟩ := both
      rcases (PMap.set_eq_some_iff ..).mp isNamed with ⟨_, rfl⟩ | ⟨_, before⟩
      · rw [Function.update_self] at there
        rw [there]
        exact PMap.set_self _ _ _
      · rw [Function.update_of_ne (old before).2] at there
        have known := bookkept.inverse.mpr ⟨⟨other, before⟩, there⟩
        rw [PMap.set_of_ne]
        · exact known
        · rintro rfl
          rw [free] at known
          cases known
  · intro multicastAddress known found
    rcases (PMap.set_eq_some_iff ..).mp found with ⟨rfl, rfl⟩ | ⟨_, before⟩
    · exact leased
    · exact bookkept.leased before

theorem moveSynapse_eq_some_iff (registry : Registry)
    (synapse known : SynapseId) (current multicastAddress other : IPAddress) :
    (registry.moveSynapse synapse current
        multicastAddress).synapsesByAddress other = some known ↔
      other ≠ current ∧ (other = multicastAddress ∧ synapse = known ∨
        other ≠ multicastAddress ∧
          registry.synapsesByAddress other = some known) := by
  unfold Registry.moveSynapse
  rw [PMap.discard_eq_some_iff, PMap.set_eq_some_iff]

theorem releaseAddress_isLeased {manager after : IpLeaseManager}
    {multicastAddress : IPAddress}
    (released : manager.releaseAddress multicastAddress =
      (.ok multicastAddress, after)) (other : IPAddress) :
    after.ipLeaseMap other = some true ↔
      other ≠ multicastAddress ∧ manager.ipLeaseMap other = some true := by
  unfold IpLeaseManager.releaseAddress at released
  split at released
  · cases released
  · cases released
  · obtain ⟨⟩ := released
    dsimp only
    rw [PMap.set_apply]
    split
    · next same => simp [same]
    · next away => simp [away]

theorem Bookkept.moveSynapse {registry : Registry}
    (bookkept : registry.Bookkept) {name : String} {synapse : SynapseId}
    (found : registry.base.synapses name = some synapse)
    {object : SynapseZmqPlexoPubSubEPGM} {current : IPAddress}
    {manager : IpLeaseManager}
    (isCurrent : (registry.objects synapse).multicastAddress = current)
    (different : current ≠ object.multicastAddress)
    (free : registry.synapsesByAddress object.multicastAddress = none)
    (leased : registry.ipLeaseManager.ipLeaseMap object.multicastAddress =
      some true)
    (released : registry.ipLeaseManager.releaseAddress current =
      (.ok current, manager)) :
    Bookkept
      { (registry.setObject synapse object).moveSynapse synapse current
          object.multicastAddress with ipLeaseManager := manager } := by
  have here := bookkept.inverse.mpr ⟨⟨name, found⟩, isCurrent⟩
  refine ⟨bookkept.named, bookkept.injective, ?_, ?_⟩
  · intro multicastAddress known
    apply (moveSynapse_eq_some_iff ..).trans
    simp only [Registry.moveSynapse, Registry.setObject]
    by_cases isSynapse : known = synapse
    · subst isSynapse
      rw [Function.update_self]
      constructor
      · intro both
        obtain ⟨away, ⟨rfl, _⟩ | ⟨_, before⟩⟩ := both
        · exact ⟨⟨name, found⟩, rfl⟩
        · exact absurd (isCurrent.symm.trans (bookkept.inverse.mp before).2)
            away.symm
      · intro both
        obtain ⟨_, rfl⟩ := both
        exact ⟨different.symm, .inl ⟨rfl, rfl⟩⟩
    · rw [Function.update_of_ne isSynapse]
      constructor
      · intro both
        obtain ⟨_, ⟨_, same⟩ | ⟨_, before⟩⟩ := both
        · exact absurd same.symm isSynapse
        · exact bookkept.inverse.mp before
      · intro both
        have before := bookkept.inverse.mpr both
        refine ⟨?_, .inr ⟨?_, before⟩⟩
        · rintro rfl
          rw [here] at before
          exact isSynapse (Option.some.inj before).symm
        · rintro rfl
          rw [free] at before
          cases before
  · intro multicastAddress known there
    obtain ⟨away, either⟩ := (moveSynapse_eq_some_iff ..).mp there
    apply (releaseAddress_isLeased released multicastAddress).mpr
    refine ⟨away, ?_⟩
    obtain ⟨rfl, _⟩ | ⟨_, before⟩ := either
    · exact leased
    · exact bookkept.leased before

/-- What `create_synapse_with_address` can do. -/
inductive CreateResult (host : Host) (registry : Registry) (name : String)
    (multicastAddress : IPAddress) :
    Except PlexoError SynapseId × Registry → Prop where
  | refused {error : PlexoError} :
      (∃ synapse, registry.base.synapses name = some synapse) ∨
        ¬ registry.Leasable multicastAddress →
      CreateResult host registry name multicastAddress (.error error, registry)
  | failed {error : PlexoError} :
      registry.base.synapses name = none →
      registry.Leasable multicastAddress →
      ¬ (multicastAddress.isMulticast = true ∧
        host.bind multicastAddress = true) →
      CreateResult host registry name multicastAddress
        (.error error, registry.lease multicastAddress)
  | created {synapse : SynapseZmqPlexoPubSubEPGM} :
      registry.base.synapses name = none →
      registry.Leasable multicastAddress →
      synapse.multicastAddress = multicastAddress →
      CreateResult host registry name multicastAddress
        (.ok registry.nextObject,
          (registry.lease multicastAddress).insertSynapse name multicastAddress
            synapse)

theorem createResult (host : Host) (registry : Registry) (neuron : Neuron)
    (name : String) (multicastAddress : IPAddress) :
    CreateResult host registry name multicastAddress
      (registry.createSynapseWithAddress host neuron name
        multicastAddress) := by
  unfold createSynapseWithAddress
  cases found : registry.base.synapses name with
  | some synapse => exact .refused (.inl ⟨synapse, found⟩)
  | none =>
      dsimp only
      rcases registry.tryLeaseAddress_result multicastAddress with
        ⟨leasable, result⟩ | ⟨notLeasable, error, result⟩
      · rw [result]
        dsimp only
        cases created : SynapseZmqPlexoPubSubEPGM.init host neuron
            multicastAddress [] [] with
        | error error =>
            refine .failed found leasable ?_
            rintro ⟨multicast, bound⟩
            simp [SynapseZmqPlexoPubSubEPGM.init,
              SynapseZmqPlexoPubSubEPGM.startup, multicast, bound] at created
        | ok synapse =>
            exact .created found leasable
              (SynapseZmqPlexoPubSubEPGM.init_multicastAddress created)
      · rw [result]
        exact .refused (.inr notLeasable)

/-- What `update_synapse_with_address` can do to a registry that is in step. -/
inductive UpdateResult (host : Host) (registry : Registry) (name : String)
    (multicastAddress : IPAddress) :
    Except PlexoError SynapseId × Registry → Prop where
  | refused {error : PlexoError} :
      UpdateResult host registry name multicastAddress (.error error, registry)
  | there {synapse : SynapseId} :
      UpdateResult host registry name multicastAddress (.ok synapse, registry)
  | failed {synapse : SynapseId} {error : PlexoError}
      {object : SynapseZmqPlexoPubSubEPGM} :
      registry.base.synapses name = some synapse →
      (registry.objects synapse).multicastAddress ≠ multicastAddress →
      registry.Leasable multicastAddress →
      (registry.objects synapse).update host multicastAddress =
        (.error error, object) →
      UpdateResult host registry name multicastAddress
        (.error error,
          (registry.lease multicastAddress).setObject synapse object)
  | moved {synapse : SynapseId} {object : SynapseZmqPlexoPubSubEPGM}
      {current : IPAddress} {manager : IpLeaseManager} :
      registry.base.synapses name = some synapse →
      (registry.objects synapse).multicastAddress = current →
      current ≠ multicastAddress →
      registry.Leasable multicastAddress →
      (registry.objects synapse).update host multicastAddress =
        (.ok (), object) →
      (registry.lease multicastAddress).ipLeaseManager.releaseAddress current =
        (.ok current, manager) →
      UpdateResult host registry name multicastAddress
        (.ok synapse,
          { ((registry.lease multicastAddress).setObject synapse
              object).moveSynapse synapse current multicastAddress with
            ipLeaseManager := manager })

theorem Bookkept.released {registry : Registry} (bookkept : registry.Bookkept)
    {name : String} {synapse : SynapseId}
    (found : registry.base.synapses name = some synapse)
    (multicastAddress : IPAddress) :
    ((registry.lease multicastAddress).ipLeaseManager.releaseAddress
      (registry.objects synapse).multicastAddress).1 =
        .ok (registry.objects synapse).multicastAddress := by
  have known := (bookkept.lease multicastAddress).inverse.mpr
    ⟨⟨name, found⟩, rfl⟩
  have leased := (bookkept.lease multicastAddress).leased known
  exact congrArg Prod.fst (IpLeaseManager.releaseAddress_leased leased)

theorem Bookkept.updateResult {registry : Registry}
    (bookkept : registry.Bookkept) (host : Host) (name : String)
    (multicastAddress : IPAddress) :
    UpdateResult host registry name multicastAddress
      (registry.updateSynapseWithAddress host name multicastAddress) := by
  unfold updateSynapseWithAddress
  cases found : registry.base.synapses name with
  | none => exact .refused
  | some synapse =>
      dsimp only
      split
      · exact .there
      · next different =>
          rcases registry.tryLeaseAddress_result multicastAddress with
            ⟨leasable, result⟩ | ⟨_, error, result⟩
          · rw [result]
            dsimp only
            have released := bookkept.released found multicastAddress
            cases updated : (registry.objects synapse).update host
                multicastAddress with
            | mk outcome object =>
                cases outcome with
                | error error =>
                    have failed : ((registry.lease multicastAddress).objects
                        synapse).update host multicastAddress =
                          (.error error, object) := updated
                    rw [failed]
                    exact .failed found different leasable updated
                | ok _ =>
                    have moved : ((registry.lease multicastAddress).objects
                        synapse).update host multicastAddress =
                          (.ok (), object) := updated
                    rw [moved]
                    dsimp only
                    cases gave : (((registry.lease multicastAddress).setObject
                        synapse object).moveSynapse synapse
                          (registry.objects synapse).multicastAddress
                          multicastAddress).ipLeaseManager.releaseAddress
                            (registry.objects synapse).multicastAddress with
                    | mk outcome manager =>
                        obtain rfl : outcome = .ok
                            (registry.objects synapse).multicastAddress :=
                          (congrArg Prod.fst gave).symm.trans released
                        exact .moved found rfl different leasable updated gave
          · rw [result]
            exact .refused

theorem Bookkept.ofCreate {host : Host} {registry : Registry} {name : String}
    {multicastAddress : IPAddress}
    {result : Except PlexoError SynapseId × Registry}
    (bookkept : registry.Bookkept)
    (created : CreateResult host registry name multicastAddress result) :
    result.2.Bookkept := by
  cases created with
  | refused _ => exact bookkept
  | failed _ _ _ => exact bookkept.lease multicastAddress
  | created absent leasable there =>
      subst there
      exact (bookkept.lease _).insertSynapse absent (bookkept.free leasable)
        leasable.leased

theorem Bookkept.ofUpdate {host : Host} {registry : Registry} {name : String}
    {multicastAddress : IPAddress}
    {result : Except PlexoError SynapseId × Registry}
    (bookkept : registry.Bookkept)
    (bound : ∀ synapse, registry.base.synapses name = some synapse →
      registry.Leasable multicastAddress →
      (registry.objects synapse).Closable host ∧
          multicastAddress.isMulticast = true →
        host.bind multicastAddress = true)
    (updated : UpdateResult host registry name multicastAddress result) :
    result.2.Bookkept := by
  cases updated with
  | refused => exact bookkept
  | there => exact bookkept
  | failed found _ leasable updated =>
      apply (bookkept.lease multicastAddress).setObject
      have kept := SynapseZmqPlexoPubSubEPGM.update_failed
        (by simp [updated]) (bound _ found leasable)
      rw [updated] at kept
      exact kept.2
  | moved found isCurrent different leasable updated released =>
      have there := SynapseZmqPlexoPubSubEPGM.update_multicastAddress
        (congrArg Prod.fst updated)
      rw [updated] at there
      subst there
      exact (bookkept.lease _).moveSynapse found isCurrent different
        (bookkept.free leasable) leasable.leased released

theorem Bookkept.createOrUpdate {host : Host} {registry : Registry}
    (bookkept : registry.Bookkept) (neuron : Neuron) (name : String)
    {multicastAddress : IPAddress}
    (bound : ∀ synapse, registry.base.synapses name = some synapse →
      registry.Leasable multicastAddress →
      (registry.objects synapse).Closable host ∧
          multicastAddress.isMulticast = true →
        host.bind multicastAddress = true) :
    (registry.createOrUpdateSynapseWithAddress host neuron name
      multicastAddress).2.Bookkept := by
  unfold createOrUpdateSynapseWithAddress
  split
  · exact bookkept.ofUpdate bound
      (bookkept.updateResult host name multicastAddress)
  · exact bookkept.ofCreate
      (createResult host registry neuron name multicastAddress)

inductive Operation where
  | createSynapseWithAddress (neuron : Neuron) (name : String)
    (multicastAddress : IPAddress)
  | updateSynapseWithAddress (name : String) (multicastAddress : IPAddress)
  | createOrUpdateSynapseWithAddress (neuron : Neuron) (name : String)
    (multicastAddress : IPAddress)
  /-- `get_address` of a call of `_get_address_from_consensus`. -/
  | getAddress (popped : IPAddress)
  | addReactants (synapse : SynapseId) (reactants : List ReactantId)

def perform (host : Host) (registry : Registry) : Operation → Option Registry
  | .createSynapseWithAddress neuron name multicastAddress =>
      some (registry.createSynapseWithAddress host neuron name
        multicastAddress).2
  | .updateSynapseWithAddress name multicastAddress =>
      some (registry.updateSynapseWithAddress host name multicastAddress).2
  | .createOrUpdateSynapseWithAddress neuron name multicastAddress =>
      some (registry.createOrUpdateSynapseWithAddress host neuron name
        multicastAddress).2
  | .getAddress popped =>
      let manager := registry.ipLeaseManager
      if manager.availableIps = ∅ ∨ popped ∈ manager.availableIps then
        some { registry with ipLeaseManager := (manager.getAddress popped).2 }
      else
        none
  | .addReactants synapse reactants =>
      some (registry.setObject synapse
        ((registry.objects synapse).addReactants reactants))

theorem Bookkept.perform {host : Host} {registry next : Registry}
    {operation : Operation} (bookkept : registry.Bookkept)
    (binds : ∀ multicastAddress, host.bind multicastAddress = true)
    (taken : registry.perform host operation = some next) : next.Bookkept := by
  cases operation with
  | createSynapseWithAddress neuron name multicastAddress =>
      obtain ⟨⟩ := taken
      exact bookkept.ofCreate (createResult ..)
  | updateSynapseWithAddress name multicastAddress =>
      obtain ⟨⟩ := taken
      exact bookkept.ofUpdate (fun _ _ _ _ => binds _)
        (bookkept.updateResult host name multicastAddress)
  | createOrUpdateSynapseWithAddress neuron name multicastAddress =>
      obtain ⟨⟩ := taken
      exact bookkept.createOrUpdate neuron name (fun _ _ _ _ => binds _)
  | getAddress popped =>
      simp only [Registry.perform] at taken
      split at taken
      · obtain ⟨⟩ := taken
        exact bookkept.keep rfl rfl rfl (fun _ => rfl)
          (keepsLeases_getAddress _ popped)
      · cases taken
  | addReactants synapse reactants =>
      obtain ⟨⟩ := taken
      exact bookkept.setObject (by simp)

/-- What the bookkeeping of addresses is to guarantee. -/
structure AddressBook (registry : Registry) : Prop where
  apart : ∀ left right first second,
    registry.base.synapses left = some first →
    registry.base.synapses right = some second →
    (registry.objects first).multicastAddress =
      (registry.objects second).multicastAddress → left = right
  inverse : ∀ multicastAddress synapse,
    registry.synapsesByAddress multicastAddress = some synapse ↔
      (∃ name, registry.base.synapses name = some synapse) ∧
        (registry.objects synapse).multicastAddress = multicastAddress
  leased : ∀ multicastAddress synapse,
    registry.synapsesByAddress multicastAddress = some synapse →
      registry.ipLeaseManager.addressIsLeased multicastAddress = .ok true
  /-- The last call of `update_synapse_with_address`, if it gets there. -/
  releases : ∀ host name synapse multicastAddress leased object,
    registry.base.synapses name = some synapse →
    registry.tryLeaseAddress multicastAddress = (.ok (), leased) →
    (leased.objects synapse).update host multicastAddress =
      (.ok (), object) →
    let current := (registry.objects synapse).multicastAddress
    let moved := (leased.setObject synapse object).moveSynapse synapse current
      multicastAddress
    (moved.ipLeaseManager.releaseAddress current).1 = .ok current

theorem Bookkept.addressBook {registry : Registry}
    (bookkept : registry.Bookkept) : registry.AddressBook where
  apart := by
    intro left right first second leftFound rightFound same
    have one := bookkept.inverse.mpr ⟨⟨left, leftFound⟩, same⟩
    have other := bookkept.inverse.mpr ⟨⟨right, rightFound⟩, rfl⟩
    rw [one] at other
    obtain ⟨⟩ := other
    exact bookkept.injective leftFound rightFound
  inverse := fun _ _ => bookkept.inverse
  leased := by
    intro multicastAddress synapse found
    rw [IpLeaseManager.addressIsLeased, bookkept.leased found]
  releases := by
    intro host name synapse multicastAddress leased object found result _
    have same := registry.tryLeaseAddress_registry multicastAddress
    rw [result] at same
    obtain rfl : leased = registry.lease multicastAddress := same
    exact bookkept.released found multicastAddress

theorem alike_adaptProtocolNeuron (registry : Registry)
    (neuron : ProtocolNeuron) :
    registry.Alike (registry.adaptProtocolNeuron neuron) := by
  unfold adaptProtocolNeuron
  split
  · exact .refl _
  · next synapse _ =>
      split
      · have attached := registry.alike_setObject
          ((registry.objects synapse).addReactants_multicastAddress
            [neuron.reservedIndex])
        exact ⟨by simp, rfl, rfl, attached.addresses, rfl, rfl⟩
      · exact .refl _

theorem Bookkept.startup {registry : Registry} (bookkept : registry.Bookkept)
    (host : Host) : (registry.startup host).2.Bookkept := by
  apply startup_keeps Bookkept bookkept
  · intro before neuron multicastAddress start _
    exact start.ofCreate (createResult ..)
  · intro before neuron start
    exact start.alike (before.alike_adaptProtocolNeuron neuron)

end Registry

namespace GanglionPlexoMulticast

theorem RegistryMove.bookkept {host : Host} {ganglion : GanglionPlexoMulticast}
    {input : Input} {after : Registry}
    (bookkept : ganglion.registry.Bookkept)
    (moved : RegistryMove host ganglion input after)
    (binds : ∀ multicastAddress, host.bind multicastAddress = true) :
    after.Bookkept := by
  cases moved with
  | keep => exact bookkept
  | attach same => exact bookkept.setObject same
  | updateTransmitter =>
      exact bookkept.alike (ganglion.registry.alike_base (by simp))
  | register => exact bookkept.alike (ganglion.registry.alike_base (by simp))
  | lease _ _ _ _ =>
      exact bookkept.keep rfl rfl rfl (fun _ => rfl)
        (Registry.keepsLeases_getAddress _ _)
  | create _ => exact bookkept.ofCreate (Registry.createResult ..)
  | commit _ _ => exact bookkept.createOrUpdate _ _ (fun _ _ _ _ => binds _)

theorem bookkept_started (host : Host) (multicastCidr : IPNetwork)
    (instanceId numPeers : Nat) (filters : Filters) :
    (started host multicastCidr instanceId numPeers
      filters).registry.Bookkept :=
  (Registry.bookkept_init multicastCidr filters).startup host

theorem bookkept_path {host : Host}
    (binds : ∀ multicastAddress, host.bind multicastAddress = true)
    {multicastCidr : IPNetwork} {instanceId numPeers : Nat} {filters : Filters}
    {steps : List (Observed × Input)} {observed : Observed}
    (path : Path (Observed.step host)
      ⟨.started host multicastCidr instanceId numPeers filters, []⟩ steps
      observed) : observed.ganglion.registry.Bookkept := by
  induction path with
  | refl => exact bookkept_started ..
  | snoc _ taken induction =>
      obtain ⟨result, resultTaken, rfl⟩ := Observed.step_eq_some taken
      exact (registryMove_of_step resultTaken).bookkept induction binds

end GanglionPlexoMulticast

namespace Registry

/-- In every run of the operations on addresses, in any order, and in every run
of an instance, the bookkeeping is as it should be. -/
theorem address_bookkeeping {host : Host}
    (binds : ∀ multicastAddress, host.bind multicastAddress = true)
    (multicastCidr : IPNetwork) (filters : Filters) :
    (∀ steps registry,
      Path (perform host) (.init multicastCidr filters) steps registry →
        registry.AddressBook) ∧
      ∀ instanceId numPeers steps observed,
        Path (Observed.step host)
            ⟨.started host multicastCidr instanceId numPeers filters, []⟩ steps
            observed →
          observed.ganglion.registry.AddressBook := by
  constructor
  · intro steps registry path
    apply Bookkept.addressBook
    apply path.always (bookkept_init multicastCidr filters)
    intro before operation next bookkept taken
    exact bookkept.perform binds taken
  · intro instanceId numPeers steps observed path
    exact (GanglionPlexoMulticast.bookkept_path binds path).addressBook

/-- An address is leased for a call, taken by another name and given up for a
second one, and then taken again. -/
def Operation.overlapping : List Operation :=
  [.getAddress (.v4 239 0 0 32),
    .createSynapseWithAddress Learner.neuron "dev.plexo.Foo.json"
      (.v4 239 0 0 32),
    .createSynapseWithAddress Learner.neuron "dev.plexo.Bar.json"
      (.v4 239 0 0 32),
    .updateSynapseWithAddress "dev.plexo.Foo.json" (.v4 239 0 0 40),
    .createOrUpdateSynapseWithAddress Learner.neuron "dev.plexo.Bar.json"
      (.v4 239 0 0 32)]

theorem address_bookkeeping_overlapping :
    ∃ steps registry,
      Path (perform .permissive) (.init .sample {}) steps registry ∧
        registry.base.synapses "dev.plexo.Foo.json" = some 0 ∧
        registry.base.synapses "dev.plexo.Bar.json" = some 1 ∧
        registry.AddressBook := by
  obtain ⟨registry, path, facts⟩ := path_of_any
    (show (exec (perform .permissive) (.init .sample {})
      Operation.overlapping).any
        (fun registry =>
          registry.base.synapses "dev.plexo.Foo.json" = some 0 ∧
          registry.base.synapses "dev.plexo.Bar.json" = some 1) = true by
      decide +kernel)
  simp only [decide_eq_true_eq] at facts
  exact ⟨_, registry, path, facts.1, facts.2,
    (address_bookkeeping (fun _ => rfl) .sample {}).1 _ registry path⟩

end Registry

end Plexo
