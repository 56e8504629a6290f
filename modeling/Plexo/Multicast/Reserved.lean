import Plexo.Multicast.LeaseLeaks
import Plexo.Multicast.Provenance
import Plexo.Multicast.Rendezvous

/-!
# The reserved block

The first 32 addresses of the network are kept for the protocol itself.
`startup` puts the synapses of the protocol there, and nothing moves them: a call
begins only for a type that has no synapse, so the messages of a group name no
type of the protocol, and an update gives back only the address the synapse was
on.  Addresses for all other types come from the rest of the network, whatever
the instances believe about their peers and whatever is lost or reordered.
-/

namespace Plexo

open PersistentMap Transition

/-- The addresses that are not kept for the protocol. -/
def IPNetwork.unreserved (network : IPNetwork) : List IPAddress :=
  network.addresses.drop 32

theorem IPNetwork.mem_unreserved_iff (network : IPNetwork)
    (address : IPAddress) :
    address ∈ network.unreserved ↔
      address ∈ network ∧ address ∉ network.addresses.take 32 := by
  have parts : address ∈ network.addresses ↔
      address ∈ network.addresses.take 32 ∨ address ∈ network.unreserved := by
    rw [unreserved, ← List.mem_append, List.take_append_drop]
  have apart : address ∈ network.addresses.take 32 →
      address ∉ network.unreserved := by
    intro reserved user
    have nodup := network.nodup
    rw [← List.take_append_drop 32 network.addresses, List.nodup_append] at nodup
    exact nodup.2.2 address reserved address user rfl
  rw [mem_def, parts]
  constructor
  · intro user
    exact ⟨.inr user, fun reserved => apart reserved user⟩
  · rintro ⟨reserved | user, free⟩
    · exact absurd reserved free
    · exact user

namespace Registry

/-- The reserved block is in use by the protocol, and by nobody else. -/
structure Fenced (registry : Registry) (multicastCidr : IPNetwork) : Prop where
  distinct : registry.Distinct
  consistent : registry.ipLeaseManager.Consistent
  sameNetwork : ∀ multicastAddress,
    (registry.ipLeaseManager.ipLeaseMap multicastAddress).isSome = true ↔
      multicastAddress ∈ multicastCidr
  leased : ∀ multicastAddress ∈ multicastCidr.addresses.take 32,
    registry.IsLeased multicastAddress
  protocol : ∀ neuron : ProtocolNeuron, ∃ multicastAddress,
    (multicastCidr.addresses.take 32)[neuron.reservedIndex]? =
        some multicastAddress ∧
      registry.IsOn neuron.toNeuron.name multicastAddress
  users : ∀ name multicastAddress, IsUserType name →
    registry.IsOn name multicastAddress →
    multicastAddress ∈ multicastCidr.unreserved

theorem create_isOn {registry : Registry} (distinct : registry.Distinct)
    (host : Host) (neuron : Neuron) (name : String)
    (multicastAddress : IPAddress) {other : String} {address : IPAddress}
    (isOn : registry.IsOn other address) :
    (registry.createSynapseWithAddress host neuron name
      multicastAddress).2.IsOn other address := by
  by_cases same : other = name
  · subst same
    obtain ⟨synapse, found, _⟩ := id isOn
    unfold createSynapseWithAddress
    rw [found]
    exact isOn
  · exact ((relocation_create host registry neuron name
      multicastAddress).isOn_other distinct same address).mpr isOn

theorem isOn_of_create {host : Host} {registry after : Registry}
    {neuron : Neuron} {name : String} {multicastAddress : IPAddress}
    {synapse : SynapseId}
    (created : registry.createSynapseWithAddress host neuron name
      multicastAddress = (.ok synapse, after)) :
    after.IsOn name multicastAddress := by
  have result := createResult host registry neuron name multicastAddress
  rw [created] at result
  cases result with
  | created absent _ there =>
      refine ⟨registry.nextObject, by simp [insertSynapse, lease], ?_⟩
      simpa [insertSynapse, lease] using there

/-- If the creation of the block succeeds, each synapse is on its address. -/
theorem createReserved_isOn {host : Host} {registry : Registry}
    (distinct : registry.Distinct) {neurons : List ProtocolNeuron}
    (created : (registry.createReserved host neurons).1 = .ok ()) :
    ∀ neuron ∈ neurons, ∃ multicastAddress,
      registry.reservedAddresses[neuron.reservedIndex]? =
          some multicastAddress ∧
        (registry.createReserved host neurons).2.IsOn neuron.toNeuron.name
          multicastAddress := by
  induction neurons generalizing registry with
  | nil => simp
  | cons first neurons induction =>
      unfold createReserved at created ⊢
      unfold createSynapseWithReservedAddress at created ⊢
      cases reserved : registry.reservedAddresses[first.reservedIndex]? with
      | none => simp [reserved] at created
      | some multicastAddress =>
          rw [reserved] at created
          dsimp only at created ⊢
          have block := (createResult host registry first.toNeuron
            first.toNeuron.name multicastAddress).reservedAddresses
          have stays := (relocation_create host registry first.toNeuron
            first.toNeuron.name multicastAddress).distinct distinct
          cases result : registry.createSynapseWithAddress host first.toNeuron
              first.toNeuron.name multicastAddress with
          | mk outcome middle =>
              rw [result] at created block stays
              cases outcome with
              | error error => cases created
              | ok synapse =>
                  dsimp only at created block stays ⊢
                  intro neuron member
                  rcases List.mem_cons.mp member with rfl | later
                  · refine ⟨multicastAddress, reserved, ?_⟩
                    refine (@createReserved_keeps host (fun registry =>
                      registry.Distinct ∧ registry.IsOn neuron.toNeuron.name
                        multicastAddress) ?_ _
                      ⟨stays, isOn_of_create result⟩ neurons).2
                    rintro before other address ⟨apart, isOn⟩ _
                    exact ⟨(relocation_create ..).distinct apart,
                      create_isOn apart host _ _ address isOn⟩
                  · have rest := induction stays created neuron later
                    rwa [block] at rest

theorem fenced_startup {host : Host} {multicastCidr : IPNetwork}
    {filters : Filters}
    (created : ((init multicastCidr filters).startup host).1 = .ok ()) :
    ((init multicastCidr filters).startup host).2.Fenced multicastCidr := by
  have starts := starts_startup host multicastCidr filters
  have balanced := balanced_startup host multicastCidr filters
  have follows := (leases_init multicastCidr filters).trans
    (follows_startup host (init multicastCidr filters)).leases
  refine ⟨starts.distinct,
    follows.consistent (IpLeaseManager.consistent_init multicastCidr), ?_,
    balanced.reserved, ?_, ?_⟩
  · intro multicastAddress
    rw [follows.sameNetwork, IpLeaseManager.init_isSome]
  · intro neuron
    have adaptedAll : ∀ (neurons : List ProtocolNeuron) (before : Registry)
        (name : String) (multicastAddress : IPAddress),
        before.IsOn name multicastAddress →
        (neurons.foldl adaptProtocolNeuron before).IsOn name
          multicastAddress := by
      intro neurons
      induction neurons with
      | nil => exact fun _ _ _ isOn => isOn
      | cons first neurons induction =>
          intro before name multicastAddress isOn
          exact induction _ _ _
            (((before.still_adaptProtocolNeuron first).isOn_iff ..).mpr isOn)
    unfold startup at created ⊢
    cases result : (init multicastCidr filters).createReserved host
        ProtocolNeuron.all with
    | mk outcome block =>
        rw [result] at created
        cases outcome with
        | error error => cases created
        | ok created =>
            have all := createReserved_isOn
              (distinct_init multicastCidr filters)
              (congrArg Prod.fst result) neuron neuron.mem_all
            rw [result] at all
            obtain ⟨multicastAddress, reserved, isOn⟩ := all
            exact ⟨multicastAddress, reserved,
              adaptedAll _ _ _ _ isOn⟩
  · intro name multicastAddress isUser isOn
    obtain ⟨synapse, found, _⟩ := isOn
    obtain ⟨neuron, same⟩ := starts.protocol found
    exact absurd same (isUser neuron)

theorem releaseAddress_other {manager : IpLeaseManager}
    {multicastAddress other : IPAddress} (apart : other ≠ multicastAddress)
    (leased : manager.ipLeaseMap other = some true) :
    (manager.releaseAddress multicastAddress).2.ipLeaseMap other =
      some true := by
  unfold IpLeaseManager.releaseAddress
  split
  · exact leased
  · exact leased
  · dsimp only
    rw [PMap.set_of_ne _ _ apart]
    exact leased

theorem update_isLeased (host : Host) (registry : Registry) {name : String}
    (multicastAddress : IPAddress) {other : IPAddress}
    (leased : registry.IsLeased other) (away : ¬ registry.IsOn name other) :
    (registry.updateSynapseWithAddress host name multicastAddress).2.IsLeased
      other := by
  have kept : (registry.lease multicastAddress).IsLeased other :=
    keepsLeases_leaseAddress _ multicastAddress _ leased
  unfold updateSynapseWithAddress
  cases found : registry.base.synapses name with
  | none => exact leased
  | some synapse =>
      dsimp only
      have apart : other ≠ (registry.objects synapse).multicastAddress := by
        rintro rfl
        exact away ⟨synapse, found, rfl⟩
      split
      · exact leased
      · rcases registry.tryLeaseAddress_result multicastAddress with
          ⟨_, result⟩ | ⟨_, error, result⟩
        · rw [result]
          dsimp only
          split
          · exact kept
          · split
            · exact kept
            · next given =>
                have after := releaseAddress_other apart kept
                exact (congrArg (fun result => result.2.ipLeaseMap other)
                  given).symm.trans after
        · rw [result]
          exact leased

theorem createOrUpdate_isLeased (host : Host) (registry : Registry)
    (neuron : Neuron) {name : String} (multicastAddress : IPAddress)
    {other : IPAddress} (leased : registry.IsLeased other)
    (away : ¬ registry.IsOn name other) :
    (registry.createOrUpdateSynapseWithAddress host neuron name
      multicastAddress).2.IsLeased other := by
  unfold createOrUpdateSynapseWithAddress
  split
  · exact update_isLeased host registry multicastAddress leased away
  · exact (createResult host registry neuron name multicastAddress).keepsLeases
      other leased

end Registry

namespace GanglionPlexoMulticast

theorem isLeased_of_step {host : Host} {ganglion : GanglionPlexoMulticast}
    {input : Input} {result : GanglionPlexoMulticast × List Output}
    (taken : ganglion.step host input = some result)
    {multicastAddress : IPAddress}
    (leased : ganglion.registry.IsLeased multicastAddress)
    (away : ∀ name target, ganglion.Places input name target →
      ¬ ganglion.registry.IsOn name multicastAddress) :
    result.1.registry.IsLeased multicastAddress := by
  have moved := registryMove_of_step taken
  generalize result.1.registry = after at moved
  cases moved with
  | keep => exact leased
  | attach _ => exact leased
  | updateTransmitter => exact leased
  | register => exact leased
  | lease _ _ _ _ => exact Registry.keepsLeases_getAddress _ _ _ leased
  | create found =>
      exact (Registry.createResult ..).keepsLeases multicastAddress leased
  | commit counts commits =>
      exact Registry.createOrUpdate_isLeased host _ _ _ leased
        (away _ _ (.commit counts commits))

/-- What an instance does leaves the reserved block alone, as long as the
synapses it places are for users. -/
theorem fenced_of_step {host : Host} {ganglion : GanglionPlexoMulticast}
    {input : Input} {result : GanglionPlexoMulticast × List Output}
    {multicastCidr : IPNetwork}
    (fenced : ganglion.registry.Fenced multicastCidr)
    (taken : ganglion.step host input = some result)
    (placesUsers : ∀ name multicastAddress,
      ganglion.Places input name multicastAddress →
      IsUserType name ∧ multicastAddress ∈ multicastCidr.unreserved) :
    result.1.registry.Fenced multicastCidr := by
  have leases := leases_step taken
  refine ⟨distinct_of_step taken fenced.distinct,
    leases.consistent fenced.consistent, ?_, ?_, ?_, ?_⟩
  · intro multicastAddress
    rw [leases.sameNetwork, fenced.sameNetwork]
  · intro multicastAddress reserved
    apply isLeased_of_step taken (fenced.leased multicastAddress reserved)
    intro name target places isOn
    have user := fenced.users name multicastAddress (placesUsers _ _ places).1
      isOn
    exact ((multicastCidr.mem_unreserved_iff _).mp user).2 reserved
  · intro neuron
    obtain ⟨multicastAddress, reserved, isOn⟩ := fenced.protocol neuron
    refine ⟨multicastAddress, reserved, ?_⟩
    rcases relocation_of_step taken with
      still | ⟨name, target, places, relocation⟩
    · exact (still.isOn_iff ..).mpr isOn
    · have other : neuron.toNeuron.name ≠ name :=
        (placesUsers _ _ places).1 neuron
      exact (relocation.isOn_other fenced.distinct other _).mpr isOn
  · intro name multicastAddress isUser isOn
    rcases isOn_of_step taken fenced.distinct isOn with before | places
    · exact fenced.users name multicastAddress isUser before
    · exact (placesUsers _ _ places).2

end GanglionPlexoMulticast

namespace Network

variable {N : Nat}

/-- What `acquire_address_for_type` checks before it begins a call. -/
def checksSynapse (network : Network N) : NetworkAction N → Bool
  | .act instance_ (.prepare _ name _) =>
      ((network.ganglion instance_).registry.base.synapses name).isNone
  | _ => true

/-- A type of a user may have an address outside of the reserved block. -/
def allowsUsers (multicastCidr : IPNetwork) : Allowance :=
  fun name multicastIp => IsUserType name ∧
    ∃ multicastAddress ∈ multicastCidr.unreserved,
      multicastAddress.packed = multicastIp

theorem mem_of_allowsUsers {multicastCidr : IPNetwork} {name : String}
    {multicastAddress : IPAddress}
    (allowed : allowsUsers multicastCidr name multicastAddress.packed) :
    IsUserType name ∧ multicastAddress ∈ multicastCidr.unreserved := by
  obtain ⟨isUser, known, member, same⟩ := allowed
  exact ⟨isUser, packed_injective same ▸ member⟩

/-- The invariant of a group whose calls begin only for types that have no
synapse. -/
structure Reserving (network : Network N) (multicastCidr : IPNetwork) :
    Prop where
  carries : network.Carries (allowsUsers multicastCidr)
  fenced : ∀ instance_,
    (network.ganglion instance_).registry.Fenced multicastCidr
  users : ∀ instance_ call attempt name ballot,
    (network.ganglion instance_).calls call = some attempt →
    attempt.key? = some (name, ballot) → IsUserType name

section Step

variable {host : Fin N → Host} {network before next : Network N}
  {action : NetworkAction N} {instance_ : Fin N} {input : Input}
  {result : GanglionPlexoMulticast × List Output} {multicastCidr : IPNetwork}
  {decoding : Decoding}

theorem Reserving.takesAllowed (reserving : network.Reserving multicastCidr) :
    network.TakesAllowed (allowsUsers multicastCidr) action next := by
  intro proposer call popped preparation cancelled multicastAddress _ found
    canPop given _
  have fenced := reserving.fenced proposer
  obtain ⟨available, rfl⟩ := IpLeaseManager.getAddress_ok given
  have free := (fenced.consistent popped).mp (canPop.resolve_left available)
  refine ⟨reserving.users proposer call _ _ _ found rfl, popped, ?_, rfl⟩
  rw [IPNetwork.mem_unreserved_iff]
  constructor
  · exact (fenced.sameNetwork popped).mp (by simp [free])
  · intro reserved
    have leased := fenced.leased popped reserved
    rw [Registry.IsLeased, free] at leased
    cases leased

theorem Reserving.placesUsers (reserving : network.Reserving multicastCidr)
    (keeps : KeepsAddresses decoding)
    (ready : Readied decoding network action instance_ input before)
    (taken : (network.ganglion instance_).step (host instance_) input =
      some result) {name : String} {multicastAddress : IPAddress}
    (places : (network.ganglion instance_).Places input name
      multicastAddress) :
    IsUserType name ∧ multicastAddress ∈ multicastCidr.unreserved := by
  cases places with
  | create found =>
      exact mem_of_allowsUsers
        (reserving.carries.calls instance_ _ _ _ _ found rfl)
  | commit counts commits =>
      obtain ⟨_, _, _, carried⟩ := commits
      obtain ⟨bytes, carries, parsed⟩ := Option.bind_eq_some_iff.mp carried
      have allowed := reserving.carries.of_approval keeps ready taken counts carries
      rw [← packed_of_ipAddress parsed] at allowed
      exact mem_of_allowsUsers allowed

theorem Reserving.users_of_step (reserving : network.Reserving multicastCidr)
    (checks : network.checksSynapse action = true)
    (ready : Readied decoding network action instance_ input before)
    (taken : (network.ganglion instance_).step (host instance_) input =
      some result) {call : CallId} {attempt : Attempt} {name : String}
    {ballot : Ballot} (found : result.1.calls call = some attempt)
    (key : attempt.key? = some (name, ballot)) : IsUserType name := by
  cases GanglionPlexoMulticast.ballotMove_of_step taken with
  | keep continues _ _ =>
      obtain ⟨earlier, foundBefore, goesOn⟩ := continues call attempt found
      exact reserving.users instance_ call earlier name ballot foundBefore
        (goesOn.1 _ key)
  | @prepare other prepared newProposalId fresh calls _ =>
      rw [calls] at found
      rcases (PMap.set_eq_some_iff ..).mp found with ⟨_, rfl⟩ | ⟨_, earlier⟩
      · cases key
        cases ready with
        | own =>
            intro neuron same
            obtain ⟨_, _, synapse, isThere, _⟩ :=
              (reserving.fenced instance_).protocol neuron
            rw [same] at isThere
            simp [checksSynapse, isThere] at checks
      · exact reserving.users instance_ call attempt name ballot earlier key
  | @propose other preparation promises multicastAddress waiting calls _ =>
      rw [calls] at found
      rcases (PMap.set_eq_some_iff ..).mp found with ⟨_, rfl⟩ | ⟨_, earlier⟩
      · cases key
        exact reserving.users instance_ other _ _ _ waiting rfl
      · exact reserving.users instance_ call attempt name ballot earlier key

theorem Reserving.step (reserving : network.Reserving multicastCidr)
    (keeps : KeepsAddresses decoding)
    (checks : network.checksSynapse action = true)
    (taken : network.step decoding host action = some next) :
    next.Reserving multicastCidr := by
  have carries := reserving.carries.step keeps reserving.takesAllowed taken
  cases move_of_step taken with
  | lose chosen => exact ⟨carries, reserving.fenced, reserving.users⟩
  | @take instance_ input before result ready resultTaken =>
      refine ⟨carries, ?_, ?_⟩
      · intro other
        by_cases same : other = instance_
        · subst same
          rw [record_ganglion_self]
          exact GanglionPlexoMulticast.fenced_of_step (reserving.fenced other)
            resultTaken
            (fun _ _ => reserving.placesUsers keeps ready resultTaken)
        · rw [record_ganglion_other _ _ same, ready.ganglion_eq]
          exact reserving.fenced other
      · intro other call attempt name ballot found key
        by_cases same : other = instance_
        · subst same
          rw [record_ganglion_self] at found
          exact reserving.users_of_step checks ready resultTaken found key
        · rw [record_ganglion_other _ _ same, ready.ganglion_eq] at found
          exact reserving.users other call attempt name ballot found key

end Step

theorem reserving_started {host : Fin N → Host} {multicastCidr : IPNetwork}
    {instanceId : Fin N → Nat} {filters : Fin N → Filters}
    (created : ∀ instance_, ((Registry.init multicastCidr
      (filters instance_)).startup (host instance_)).1 = .ok ()) :
    (started host multicastCidr instanceId filters).Reserving
      multicastCidr := by
  refine ⟨carries_ofGanglia _ fun instance_ =>
      GanglionPlexoMulticast.started_idle .., ?_, ?_⟩
  · intro instance_
    exact Registry.fenced_startup (created instance_)
  · intro instance_ call attempt name ballot found
    cases found

end Network

/-- In every run, whatever is lost or reordered, whatever the instances believe
about their peers, and whichever reactions messages are handed to, the reserved
block stays with the protocol: its synapses stay on their addresses, the whole
block stays leased, and the synapses and calls of users have addresses of the
network outside of it. -/
theorem reserved_block {N : Nat} {decoding : Decoding} {host : Fin N → Host}
    {multicastCidr : IPNetwork} {instanceId : Fin N → Nat}
    {filters : Fin N → Filters}
    {steps : List (Network N × NetworkAction N)} {finish : Network N}
    (created : ∀ instance_, ((Registry.init multicastCidr
      (filters instance_)).startup (host instance_)).1 = .ok ())
    (keeps : KeepsAddresses decoding)
    (path : Path (Network.step decoding host)
      (.started host multicastCidr instanceId filters) steps finish)
    (checks : Along (fun network action =>
      network.checksSynapse action = true) steps) :
    (∀ instance_ (neuron : ProtocolNeuron), ∃ multicastAddress,
        (multicastCidr.addresses.take 32)[neuron.reservedIndex]? =
            some multicastAddress ∧
          (finish.ganglion instance_).registry.IsOn neuron.toNeuron.name
            multicastAddress) ∧
      (∀ instance_, ∀ multicastAddress ∈ multicastCidr.addresses.take 32,
        (finish.ganglion instance_).registry.IsLeased multicastAddress) ∧
      (∀ instance_ name multicastAddress, IsUserType name →
        (finish.ganglion instance_).registry.IsOn name multicastAddress →
          multicastAddress ∈ multicastCidr.unreserved) ∧
      ∀ name multicastAddress, (name, multicastAddress) ∈ finish.returns →
        IsUserType name ∧ multicastAddress ∈ multicastCidr.unreserved := by
  have reserving : finish.Reserving multicastCidr := by
    apply path.invariant checks (Network.reserving_started created)
    intro before action after reserving checked taken
    exact reserving.step keeps checked taken
  refine ⟨fun instance_ => (reserving.fenced instance_).protocol,
    fun instance_ => (reserving.fenced instance_).leased,
    fun instance_ => (reserving.fenced instance_).users, ?_⟩
  intro name multicastAddress returned
  exact Network.mem_of_allowsUsers (reserving.carries.returned _ returned)

def acquiresAlone : List (NetworkAction 3) :=
  [.act Trio.first (.countPeers 0),
    .act Trio.first (.prepare 0 "dev.plexo.Foo.json" 1),
    .act Trio.first (.startPreparationTimer 0),
    .deliver ⟨Trio.first, Trio.second, .preparation,
      .preparation Rendezvous.preparation⟩,
    .deliver ⟨Trio.second, Trio.first, .proposal,
      .promise (promiseFor none Rendezvous.preparation)⟩,
    .act Trio.first (.checkPromises 0 Rendezvous.address),
    .act Trio.first (.sendProposal 0), .act Trio.first (.startProposalTimer 0),
    .act Trio.first (.checkApprovals 0)]

/-- As `startup` wires the reactions. -/
theorem reserved_block_acquires :
    ∃ steps finish,
      Path (Network.step byNeuron fun _ => .permissive) (.sample 3) steps
        finish ∧
      ("dev.plexo.Foo.json", Rendezvous.address) ∈ finish.returns ∧
      Rendezvous.address ∈ IPNetwork.sample.unreserved := by
  obtain ⟨finish, path, returns⟩ := path_of_any
    (show (exec (Network.step byNeuron fun _ => .permissive) (.sample 3)
      acquiresAlone).any (fun finish =>
        decide (("dev.plexo.Foo.json", Rendezvous.address) ∈
          finish.returns)) = true by decide +kernel)
  have returned := of_decide_eq_true returns
  have block := reserved_block (by decide +kernel) keepsAddresses_byNeuron path
    (by decide +kernel)
  exact ⟨_, _, path, returned, (block.2.2.2 _ _ returned).2⟩

end Plexo
