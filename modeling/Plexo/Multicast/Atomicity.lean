import Plexo.Multicast.AddressBook

/-!
# What an operation on addresses leaves behind when it raises

Both operations lease the address first, and create or move the synapse
afterwards.  Neither gives the lease back when that raises, and a move has
closed the sockets of the synapse by then.  What is taken is kept, so that the
operations are atomic only where they raise before they have touched anything.
-/

namespace Plexo

open PersistentMap Transition

namespace SynapseZmqPlexoPubSubEPGM

/-- How `update` can end. -/
inductive Updated (host : Host) (synapse : SynapseZmqPlexoPubSubEPGM)
    (multicastAddress : IPAddress) :
    Except PlexoError Unit × SynapseZmqPlexoPubSubEPGM → Prop where
  | moved {object : SynapseZmqPlexoPubSubEPGM} :
      synapse.Closable host → multicastAddress.isMulticast = true →
      host.bind multicastAddress = true →
      object.multicastAddress = multicastAddress →
      Updated host synapse multicastAddress (.ok (), object)
  | unbound {error : PlexoError} {object : SynapseZmqPlexoPubSubEPGM} :
      synapse.Closable host → multicastAddress.isMulticast = true →
      host.bind multicastAddress = false →
      object.multicastAddress = multicastAddress →
      Updated host synapse multicastAddress (.error error, object)
  | closed {error : PlexoError} {object : SynapseZmqPlexoPubSubEPGM} :
      ¬ (synapse.Closable host ∧ multicastAddress.isMulticast = true) →
      object.multicastAddress = synapse.multicastAddress →
      object.socketPub = synapse.socketPub.close →
      object.socketSub = synapse.socketSub.close →
      Updated host synapse multicastAddress (.error error, object)

theorem updated_update (host : Host) (synapse : SynapseZmqPlexoPubSubEPGM)
    (multicastAddress : IPAddress) :
    Updated host synapse multicastAddress
      (synapse.update host multicastAddress) := by
  by_cases closable : synapse.Closable host
  · rw [update_of_closable closable, startup]
    cases multicast : multicastAddress.isMulticast with
    | false => exact .closed (by simp [multicast]) rfl rfl rfl
    | true =>
        cases bound : host.bind multicastAddress with
        | false => exact .unbound closable multicast bound rfl
        | true => exact .moved closable multicast bound (by simp)
  · rw [update_of_not_closable closable]
    exact .closed (fun both => closable both.1) rfl rfl rfl

def SocketsClosed (synapse : SynapseZmqPlexoPubSubEPGM) : Prop :=
  synapse.socketPub.close = synapse.socketPub ∧
    synapse.socketSub.close = synapse.socketSub

instance (synapse : SynapseZmqPlexoPubSubEPGM) :
    Decidable synapse.SocketsClosed :=
  inferInstanceAs (Decidable (_ ∧ _))

theorem init_ok_iff (host : Host) (neuron : Neuron)
    (multicastAddress : IPAddress) (reactants rawReactants : List ReactantId) :
    (∃ synapse, init host neuron multicastAddress reactants rawReactants =
        .ok synapse) ↔
      multicastAddress.isMulticast = true ∧
        host.bind multicastAddress = true := by
  unfold init startup
  cases multicastAddress.isMulticast with
  | false => simp
  | true =>
      cases host.bind multicastAddress with
      | false => simp
      | true => simp

end SynapseZmqPlexoPubSubEPGM

namespace Registry

/-- The synapses, the addresses, the leases and the synapse of the name are as
they were before. -/
structure Untouched (before after : Registry) (name : String) : Prop where
  synapses : after.base.synapses = before.base.synapses
  byAddress : after.synapsesByAddress = before.synapsesByAddress
  leases : after.ipLeaseManager = before.ipLeaseManager
  object : ∀ synapse, before.base.synapses name = some synapse →
    (after.objects synapse).multicastAddress =
        (before.objects synapse).multicastAddress ∧
      (after.objects synapse).socketPub = (before.objects synapse).socketPub ∧
      (after.objects synapse).socketSub = (before.objects synapse).socketSub

theorem Untouched.refl (registry : Registry) (name : String) :
    registry.Untouched registry name :=
  ⟨rfl, rfl, rfl, fun _ _ => ⟨rfl, rfl, rfl⟩⟩

/-- An operation for a name that raises leaves everything as it was. -/
def AtomicOnError (registry : Registry) (name : String)
    (result : Except PlexoError SynapseId × Registry) : Prop :=
  ∀ error, result.1 = .error error → registry.Untouched result.2 name

theorem atomicOnError_ok {registry after : Registry} {name : String}
    {synapse : SynapseId} :
    registry.AtomicOnError name (.ok synapse, after) := by
  intro error raised
  cases raised

theorem atomicOnError_error {registry after : Registry} {name : String}
    {error : PlexoError} :
    registry.AtomicOnError name (.error error, after) ↔
      registry.Untouched after name :=
  ⟨fun atomic => atomic error rfl, fun untouched _ _ => untouched⟩

/-- A free address is leased only for a synapse that can be created. -/
def CreatesSafely (host : Host) (registry : Registry) (name : String)
    (multicastAddress : IPAddress) : Prop :=
  registry.base.synapses name = none →
    registry.ipLeaseManager.ipLeaseMap multicastAddress = some false →
      multicastAddress.isMulticast = true ∧ host.bind multicastAddress = true

/-- A move to an address that is accepted either goes through, or it raises
before it has changed anything. -/
def MovesSafely (host : Host) (registry : Registry) (name : String)
    (multicastAddress : IPAddress) : Prop :=
  ∀ synapse, registry.base.synapses name = some synapse →
    let object := registry.objects synapse
    object.multicastAddress ≠ multicastAddress →
    registry.Leasable multicastAddress →
      if object.Closable host ∧ multicastAddress.isMulticast = true then
        host.bind multicastAddress = true ∧
          registry.ipLeaseManager.ipLeaseMap object.multicastAddress = some true
      else
        registry.ipLeaseManager.ipLeaseMap multicastAddress = some true ∧
          object.SocketsClosed

theorem lease_eq_iff (registry : Registry) (multicastAddress : IPAddress) :
    (registry.lease multicastAddress).ipLeaseManager =
        registry.ipLeaseManager ↔
      registry.ipLeaseManager.ipLeaseMap multicastAddress ≠ some false := by
  constructor
  · intro same free
    have leased : (registry.lease multicastAddress).ipLeaseManager.ipLeaseMap
        multicastAddress = some true := Leasable.leased (.inl free)
    rw [same, free] at leased
    cases leased
  · intro taken
    unfold lease IpLeaseManager.leaseAddress
    split
    · rfl
    · rfl
    · next free => exact absurd free taken

theorem createSynapseWithAddress_atomic_iff (host : Host) (registry : Registry)
    (neuron : Neuron) (name : String) (multicastAddress : IPAddress) :
    registry.AtomicOnError name
        (registry.createSynapseWithAddress host neuron name multicastAddress) ↔
      registry.CreatesSafely host name multicastAddress := by
  unfold createSynapseWithAddress CreatesSafely
  cases found : registry.base.synapses name with
  | some synapse => simp [atomicOnError_error, Untouched.refl]
  | none =>
      dsimp only
      rcases registry.tryLeaseAddress_result multicastAddress with
        ⟨leasable, result⟩ | ⟨refused, error, result⟩
      · rw [result]
        have possible := SynapseZmqPlexoPubSubEPGM.init_ok_iff host neuron
          multicastAddress [] []
        dsimp only
        cases created : SynapseZmqPlexoPubSubEPGM.init host neuron
            multicastAddress [] [] with
        | ok synapse => simp [atomicOnError_ok, possible.mp ⟨synapse, created⟩]
        | error error =>
            have impossible : ¬ (multicastAddress.isMulticast = true ∧
                host.bind multicastAddress = true) := by
              intro both
              obtain ⟨synapse, made⟩ := possible.mpr both
              rw [created] at made
              cases made
            dsimp only
            rw [atomicOnError_error]
            constructor
            · intro untouched _ free
              exact absurd free
                ((registry.lease_eq_iff multicastAddress).mp untouched.leases)
            · intro safe
              refine ⟨rfl, rfl, (registry.lease_eq_iff multicastAddress).mpr ?_,
                fun _ _ => ⟨rfl, rfl, rfl⟩⟩
              exact fun free => impossible (safe rfl free)
      · rw [result]
        dsimp only
        rw [atomicOnError_error]
        refine ⟨fun _ _ free => absurd (.inl free) refused,
          fun _ => .refl registry name⟩

theorem not_untouched_moved {registry after : Registry} {name : String}
    {synapse : SynapseId} {multicastAddress : IPAddress}
    (found : registry.base.synapses name = some synapse)
    (away : (registry.objects synapse).multicastAddress ≠ multicastAddress)
    (moved : (after.objects synapse).multicastAddress = multicastAddress) :
    ¬ registry.Untouched after name := by
  intro untouched
  exact away ((untouched.object synapse found).1.symm.trans moved)

theorem untouched_setObject_iff {registry : Registry} {name : String}
    {synapse : SynapseId} {object : SynapseZmqPlexoPubSubEPGM}
    {multicastAddress : IPAddress}
    (found : registry.base.synapses name = some synapse) :
    registry.Untouched ((registry.lease multicastAddress).setObject synapse
        object) name ↔
      registry.ipLeaseManager.ipLeaseMap multicastAddress ≠ some false ∧
        object.multicastAddress = (registry.objects synapse).multicastAddress ∧
        object.socketPub = (registry.objects synapse).socketPub ∧
        object.socketSub = (registry.objects synapse).socketSub := by
  constructor
  · intro untouched
    refine ⟨(registry.lease_eq_iff multicastAddress).mp untouched.leases, ?_⟩
    simpa [setObject] using untouched.object synapse found
  · rintro ⟨taken, same⟩
    refine ⟨rfl, rfl, (registry.lease_eq_iff multicastAddress).mpr taken, ?_⟩
    intro other known
    rw [found] at known
    obtain ⟨⟩ := known
    simpa [setObject] using same

theorem releaseAddress_lease {registry : Registry}
    {current multicastAddress : IPAddress} (away : current ≠ multicastAddress) :
    (registry.ipLeaseManager.ipLeaseMap current = some true ∧
        ∃ manager, (registry.lease multicastAddress).ipLeaseManager.releaseAddress
          current = (.ok current, manager)) ∨
      registry.ipLeaseManager.ipLeaseMap current ≠ some true ∧
        ∃ error manager, (registry.lease
          multicastAddress).ipLeaseManager.releaseAddress current =
            (.error error, manager) := by
  have same : (registry.lease multicastAddress).ipLeaseManager.ipLeaseMap
      current = registry.ipLeaseManager.ipLeaseMap current := by
    rw [lease, IpLeaseManager.leaseAddress_lookup, if_neg]
    exact fun both => away both.1
  unfold IpLeaseManager.releaseAddress
  rw [same]
  cases registry.ipLeaseManager.ipLeaseMap current with
  | none => exact .inr ⟨by simp, _, _, rfl⟩
  | some leased =>
      cases leased with
      | false => exact .inr ⟨by simp, _, _, rfl⟩
      | true => exact .inl ⟨rfl, _, rfl⟩

theorem updateSynapseWithAddress_atomic_iff (host : Host) (registry : Registry)
    (name : String) (multicastAddress : IPAddress) :
    registry.AtomicOnError name
        (registry.updateSynapseWithAddress host name multicastAddress) ↔
      registry.MovesSafely host name multicastAddress := by
  unfold updateSynapseWithAddress MovesSafely
  cases found : registry.base.synapses name with
  | none => simp [atomicOnError_error, Untouched.refl]
  | some synapse =>
      dsimp only
      simp only [Option.some.injEq, forall_eq']
      by_cases there : (registry.objects synapse).multicastAddress =
          multicastAddress
      · rw [if_pos there]
        exact ⟨fun _ away => absurd there away, fun _ => atomicOnError_ok⟩
      rw [if_neg there]
      rcases registry.tryLeaseAddress_result multicastAddress with
        ⟨leasable, result⟩ | ⟨refused, error, result⟩
      · rw [result]
        dsimp only
        have updated := SynapseZmqPlexoPubSubEPGM.updated_update host
          (registry.objects synapse) multicastAddress
        have sameObjects : (registry.lease multicastAddress).objects =
          registry.objects := rfl
        rw [sameObjects]
        revert updated
        cases (registry.objects synapse).update host multicastAddress with
        | mk outcome object =>
            intro updated
            cases updated with
            | moved closable multicast bound moved =>
                rcases releaseAddress_lease there with
                  ⟨leased, manager, released⟩ |
                    ⟨notLeased, error, manager, failed⟩
                · have given : (((registry.lease multicastAddress).setObject
                      synapse object).moveSynapse synapse
                      (registry.objects synapse).multicastAddress
                      multicastAddress).ipLeaseManager.releaseAddress
                      (registry.objects synapse).multicastAddress =
                        (.ok (registry.objects synapse).multicastAddress,
                          manager) := released
                  dsimp only
                  rw [given]
                  simp [atomicOnError_ok, closable, multicast, bound, leased]
                · have refused : (((registry.lease multicastAddress).setObject
                      synapse object).moveSynapse synapse
                      (registry.objects synapse).multicastAddress
                      multicastAddress).ipLeaseManager.releaseAddress
                      (registry.objects synapse).multicastAddress =
                        (.error error, manager) := failed
                  dsimp only
                  rw [refused]
                  dsimp only
                  rw [atomicOnError_error, if_pos ⟨closable, multicast⟩]
                  constructor
                  · intro untouched
                    refine absurd untouched (not_untouched_moved found there ?_)
                    simp [moveSynapse, setObject, moved]
                  · exact fun safe => absurd (safe there leasable).2 notLeased
            | unbound closable multicast bound moved =>
                dsimp only
                rw [atomicOnError_error, if_pos ⟨closable, multicast⟩]
                constructor
                · intro untouched
                  refine absurd untouched (not_untouched_moved found there ?_)
                  simp [setObject, moved]
                · intro safe
                  rw [(safe there leasable).1] at bound
                  cases bound
            | closed stuck same closedPub closedSub =>
                dsimp only
                rw [atomicOnError_error, if_neg stuck,
                  untouched_setObject_iff found, closedPub, closedSub]
                constructor
                · rintro ⟨taken, _, closed⟩ _ _
                  exact ⟨(leasable.resolve_left taken).1, closed⟩
                · intro safe
                  obtain ⟨leased, closed⟩ := safe there leasable
                  exact ⟨by simp [leased], same, closed⟩
      · rw [result]
        dsimp only
        rw [atomicOnError_error]
        exact ⟨fun _ _ leasable => absurd leasable refused,
          fun _ => .refl registry name⟩

theorem createOrUpdateSynapseWithAddress_atomic_iff (host : Host)
    (registry : Registry) (neuron : Neuron) (name : String)
    (multicastAddress : IPAddress) :
    registry.AtomicOnError name
        (registry.createOrUpdateSynapseWithAddress host neuron name
          multicastAddress) ↔
      registry.CreatesSafely host name multicastAddress ∧
        registry.MovesSafely host name multicastAddress := by
  unfold createOrUpdateSynapseWithAddress
  cases found : registry.base.synapses name with
  | none =>
      dsimp only
      rw [createSynapseWithAddress_atomic_iff]
      refine ⟨fun safe => ⟨safe, ?_⟩, fun both => both.1⟩
      intro synapse known
      rw [found] at known
      cases known
  | some synapse =>
      dsimp only
      rw [updateSynapseWithAddress_atomic_iff]
      refine ⟨fun safe => ⟨?_, safe⟩, fun both => both.2⟩
      intro absent
      rw [found] at absent
      cases absent

/-- In every state, each operation leaves everything as it was when it raises if
and only if it gets to raise before it has touched anything. -/
theorem atomic_on_error_iff (host : Host) (registry : Registry)
    (neuron : Neuron) (name : String) (multicastAddress : IPAddress) :
    (registry.AtomicOnError name (registry.createSynapseWithAddress host neuron
        name multicastAddress) ↔
      registry.CreatesSafely host name multicastAddress) ∧
    (registry.AtomicOnError name (registry.updateSynapseWithAddress host name
        multicastAddress) ↔
      registry.MovesSafely host name multicastAddress) ∧
    (registry.AtomicOnError name (registry.createOrUpdateSynapseWithAddress host
        neuron name multicastAddress) ↔
      registry.CreatesSafely host name multicastAddress ∧
        registry.MovesSafely host name multicastAddress) :=
  ⟨createSynapseWithAddress_atomic_iff host registry neuron name
      multicastAddress,
    updateSynapseWithAddress_atomic_iff host registry name multicastAddress,
    createOrUpdateSynapseWithAddress_atomic_iff host registry neuron name
      multicastAddress⟩

/-- The first synapse of a ganglion whose socket cannot be bound. -/
theorem not_atomic_on_error_unbound :
    ¬ ∀ (host : Host) (multicastCidr : IPNetwork) (filters : Filters)
      (steps : List (Registry × Operation)) (registry : Registry),
      Path (perform host) (.init multicastCidr filters) steps registry →
      ∀ neuron name multicastAddress, registry.AtomicOnError name
        (registry.createSynapseWithAddress host neuron name
          multicastAddress) := by
  intro atomic
  have safe := (createSynapseWithAddress_atomic_iff ..).mp
    (atomic ⟨fun _ => false, true⟩ .sample {} [] _ .refl Learner.neuron
      "dev.plexo.Foo.json" (.v4 239 0 0 40))
  have bound := (safe rfl (by decide +kernel)).2
  cases bound

end Registry

end Plexo
