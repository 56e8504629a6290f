import Plexo.Multicast.Atomicity

/-!
# Where a step puts a synapse

A synapse is put on an address in two ways: `_create_synapse_by_name` goes on
with the address that a call of `_get_address_from_consensus` returned, or an
approval is committed.  Whatever else an instance does, its synapses stay where
they are, and so do those for all other names.
-/

namespace Plexo

open PersistentMap Transition

namespace Registry

structure Distinct (registry : Registry) : Prop where
  named : ∀ {name synapse}, registry.base.synapses name = some synapse →
    synapse < registry.nextObject
  injective : ∀ {left right synapse},
    registry.base.synapses left = some synapse →
    registry.base.synapses right = some synapse → left = right

/-- No synapse is created or moved. -/
structure Still (before after : Registry) : Prop where
  synapses : after.base.synapses = before.base.synapses
  nextObject : after.nextObject = before.nextObject
  addresses : ∀ synapse, (after.objects synapse).multicastAddress =
    (before.objects synapse).multicastAddress

/-- At most the synapse for one name is created or moved. -/
inductive Relocation (name : String) (multicastAddress : IPAddress)
    (before after : Registry) : Prop where
  | stay : before.Still after → Relocation name multicastAddress before after
  | create {object : SynapseZmqPlexoPubSubEPGM} :
      before.base.synapses name = none →
      after.base.synapses =
        before.base.synapses.set name before.nextObject →
      after.nextObject = before.nextObject + 1 →
      after.objects =
        Function.update before.objects before.nextObject object →
      object.multicastAddress = multicastAddress →
      Relocation name multicastAddress before after
  | move {synapse : SynapseId} {object : SynapseZmqPlexoPubSubEPGM} :
      before.base.synapses name = some synapse →
      after.base.synapses = before.base.synapses →
      after.nextObject = before.nextObject →
      after.objects = Function.update before.objects synapse object →
      object.multicastAddress = multicastAddress →
      Relocation name multicastAddress before after

theorem Still.refl (registry : Registry) : registry.Still registry :=
  ⟨rfl, rfl, fun _ => rfl⟩

theorem Still.distinct {before after : Registry} (still : before.Still after)
    (distinct : before.Distinct) : after.Distinct := by
  constructor
  · intro name synapse found
    rw [still.nextObject]
    exact distinct.named (still.synapses ▸ found)
  · intro left right synapse first second
    exact distinct.injective (still.synapses ▸ first) (still.synapses ▸ second)

theorem Still.isOn_iff {before after : Registry} (still : before.Still after)
    (name : String) (multicastAddress : IPAddress) :
    after.IsOn name multicastAddress ↔ before.IsOn name multicastAddress := by
  unfold IsOn
  simp only [still.synapses, still.addresses]

section Relocation

variable {name : String} {multicastAddress : IPAddress}
  {before after : Registry}

theorem Relocation.distinct
    (relocation : Relocation name multicastAddress before after)
    (distinct : before.Distinct) : after.Distinct := by
  cases relocation with
  | stay still => exact still.distinct distinct
  | create absent synapses nextObject _ _ =>
      have old : ∀ {other known}, before.base.synapses other = some known →
          known ≠ before.nextObject := by
        intro other known found
        exact Nat.ne_of_lt (distinct.named found)
      constructor
      · intro other known found
        rw [nextObject]
        rw [synapses] at found
        rcases (PMap.set_eq_some_iff ..).mp found with ⟨_, rfl⟩ | ⟨_, earlier⟩
        · exact Nat.lt_succ_self _
        · exact Nat.lt_succ_of_lt (distinct.named earlier)
      · intro left right known first second
        rw [synapses] at first second
        rcases (PMap.set_eq_some_iff ..).mp first with
          ⟨rfl, rfl⟩ | ⟨_, earlier⟩
        · rcases (PMap.set_eq_some_iff ..).mp second with
            ⟨rfl, _⟩ | ⟨_, later⟩
          · rfl
          · exact absurd rfl (old later)
        · rcases (PMap.set_eq_some_iff ..).mp second with
            ⟨rfl, rfl⟩ | ⟨_, later⟩
          · exact absurd rfl (old earlier)
          · exact distinct.injective earlier later
  | move found synapses nextObject _ _ =>
      constructor
      · intro other known found
        rw [nextObject]
        exact distinct.named (synapses ▸ found)
      · intro left right known first second
        exact distinct.injective (synapses ▸ first) (synapses ▸ second)

theorem Relocation.isOn_other
    (relocation : Relocation name multicastAddress before after)
    (distinct : before.Distinct) {other : String} (different : other ≠ name)
    (address : IPAddress) :
    after.IsOn other address ↔ before.IsOn other address := by
  cases relocation with
  | stay still => exact still.isOn_iff other address
  | create absent synapses _ objects _ =>
      unfold IsOn
      rw [synapses, objects, PMap.set_of_ne _ _ different]
      apply exists_congr
      intro synapse
      apply and_congr_right
      intro found
      rw [Function.update_of_ne (Nat.ne_of_lt (distinct.named found))]
  | @move synapse object found synapses _ objects _ =>
      unfold IsOn
      rw [synapses, objects]
      apply exists_congr
      intro known
      apply and_congr_right
      intro foundOther
      have apart : known ≠ synapse := by
        rintro rfl
        exact different (distinct.injective foundOther found)
      rw [Function.update_of_ne apart]

theorem Relocation.isOn_self
    (relocation : Relocation name multicastAddress before after)
    {address : IPAddress} (isOn : after.IsOn name address) :
    before.IsOn name address ∨ address = multicastAddress := by
  cases relocation with
  | stay still => exact .inl ((still.isOn_iff name address).mp isOn)
  | create absent synapses _ objects there =>
      obtain ⟨synapse, found, rfl⟩ := isOn
      rw [synapses, PMap.set_self] at found
      obtain ⟨⟩ := found
      rw [objects, Function.update_self]
      exact .inr there
  | @move synapse object found synapses _ objects there =>
      obtain ⟨known, isKnown, rfl⟩ := isOn
      rw [synapses, found] at isKnown
      obtain ⟨⟩ := isKnown
      rw [objects, Function.update_self]
      exact .inr there

end Relocation

theorem still_lease (registry : Registry) (multicastAddress : IPAddress) :
    registry.Still (registry.lease multicastAddress) :=
  ⟨rfl, rfl, fun _ => rfl⟩

theorem still_setObject (registry : Registry) {synapse : SynapseId}
    {object : SynapseZmqPlexoPubSubEPGM}
    (same : object.multicastAddress =
      (registry.objects synapse).multicastAddress) :
    registry.Still (registry.setObject synapse object) :=
  have alike := registry.alike_setObject same
  ⟨alike.synapses, alike.nextObject, alike.addresses⟩

theorem relocation_create (host : Host) (registry : Registry)
    (neuron : Neuron) (name : String) (multicastAddress : IPAddress) :
    Relocation name multicastAddress registry
      (registry.createSynapseWithAddress host neuron name
        multicastAddress).2 := by
  have created := createResult host registry neuron name multicastAddress
  generalize registry.createSynapseWithAddress host neuron name
    multicastAddress = result at created
  cases created with
  | refused _ => exact .stay (.refl _)
  | failed _ _ _ => exact .stay (registry.still_lease multicastAddress)
  | created absent _ there => exact .create absent rfl rfl rfl there

/-- A synapse that is updated is on its old address or on the new one,
whether the update fails or not. -/
theorem relocation_update (host : Host) (registry : Registry)
    (name : String) (multicastAddress : IPAddress) :
    Relocation name multicastAddress registry
      (registry.updateSynapseWithAddress host name multicastAddress).2 := by
  unfold updateSynapseWithAddress
  cases found : registry.base.synapses name with
  | none => exact .stay (.refl _)
  | some synapse =>
      dsimp only
      split
      · exact .stay (.refl _)
      · rcases registry.tryLeaseAddress_result multicastAddress with
          ⟨_, result⟩ | ⟨_, error, result⟩
        · rw [result]
          dsimp only
          have updated := SynapseZmqPlexoPubSubEPGM.updated_update host
            ((registry.lease multicastAddress).objects synapse)
            multicastAddress
          generalize ((registry.lease multicastAddress).objects synapse).update
            host multicastAddress = outcome at updated
          cases updated with
          | moved _ _ _ there =>
              dsimp only
              split
              · exact .move found rfl rfl rfl there
              · exact .move found rfl rfl rfl there
          | unbound _ _ _ there => exact .move found rfl rfl rfl there
          | closed _ same _ _ =>
              have stays := (registry.lease multicastAddress).still_setObject
                same
              exact .stay ⟨stays.synapses, stays.nextObject, stays.addresses⟩
        · rw [result]
          exact .stay (.refl _)

theorem relocation_createOrUpdate (host : Host) (registry : Registry)
    (neuron : Neuron) (name : String) (multicastAddress : IPAddress) :
    Relocation name multicastAddress registry
      (registry.createOrUpdateSynapseWithAddress host neuron name
        multicastAddress).2 := by
  unfold createOrUpdateSynapseWithAddress
  split
  · exact relocation_update host registry name multicastAddress
  · exact relocation_create host registry neuron name multicastAddress

end Registry

namespace GanglionPlexoMulticast

/-- An input puts the synapse for a name on an address. -/
inductive Places (ganglion : GanglionPlexoMulticast) :
    Input → String → IPAddress → Prop where
  | create {call : CallId} {neuron : Neuron} {proposal : PlexoProposal}
      {multicastAddress : IPAddress} :
      ganglion.calls call = some (.returned proposal multicastAddress) →
      Places ganglion (.own (.createSynapse call neuron)) proposal.typeName
        multicastAddress
  | commit {input : Input} {approval : PlexoApproval}
      {multicastAddress : IPAddress} :
      input.approval? = some approval →
      ganglion.Commits approval multicastAddress →
      Places ganglion input approval.typeName multicastAddress

theorem relocation_of_step {host : Host} {ganglion : GanglionPlexoMulticast}
    {input : Input} {result : GanglionPlexoMulticast × List Output}
    (taken : ganglion.step host input = some result) :
    ganglion.registry.Still result.1.registry ∨
      ∃ name multicastAddress, ganglion.Places input name multicastAddress ∧
        Registry.Relocation name multicastAddress ganglion.registry
          result.1.registry := by
  have moved := registryMove_of_step taken
  generalize same : result.1.registry = after at moved
  cases moved with
  | keep => exact .inl (.refl _)
  | attach address => exact .inl (ganglion.registry.still_setObject address)
  | updateTransmitter => exact .inl ⟨by simp, rfl, fun _ => rfl⟩
  | register => exact .inl ⟨by simp, rfl, fun _ => rfl⟩
  | lease _ _ _ _ => exact .inl ⟨rfl, rfl, fun _ => rfl⟩
  | @create call neuron proposal multicastAddress found =>
      have acted : ganglion.act host (.createSynapse call neuron) =
          some result := taken
      cases ownStep_of_act acted with
      | @createSynapse _ _ other _ foundAgain sameName =>
          rw [found] at foundAgain
          obtain ⟨⟩ := foundAgain
          refine .inr ⟨_, _, .create found, ?_⟩
          rw [← sameName]
          exact Registry.relocation_create ..
  | commit counts commits =>
      exact .inr ⟨_, _, .commit counts commits,
        Registry.relocation_createOrUpdate ..⟩

theorem distinct_of_step {host : Host} {ganglion : GanglionPlexoMulticast}
    {input : Input} {result : GanglionPlexoMulticast × List Output}
    (taken : ganglion.step host input = some result)
    (distinct : ganglion.registry.Distinct) : result.1.registry.Distinct := by
  rcases relocation_of_step taken with still | ⟨name, address, _, relocation⟩
  · exact still.distinct distinct
  · exact relocation.distinct distinct

theorem isOn_of_step {host : Host} {ganglion : GanglionPlexoMulticast}
    {input : Input} {result : GanglionPlexoMulticast × List Output}
    (taken : ganglion.step host input = some result)
    (distinct : ganglion.registry.Distinct) {name : String}
    {multicastAddress : IPAddress}
    (isOn : result.1.registry.IsOn name multicastAddress) :
    ganglion.registry.IsOn name multicastAddress ∨
      ganglion.Places input name multicastAddress := by
  rcases relocation_of_step taken with still | ⟨other, address, places, moved⟩
  · exact .inl ((still.isOn_iff name multicastAddress).mp isOn)
  · by_cases same : name = other
    · subst same
      rcases moved.isOn_self isOn with before | rfl
      · exact .inl before
      · exact .inr places
    · exact .inl ((moved.isOn_other distinct same multicastAddress).mp isOn)

end GanglionPlexoMulticast

namespace Registry

theorem distinct_init (multicastCidr : IPNetwork) (filters : Filters) :
    (init multicastCidr filters).Distinct := by
  constructor
  · intro name synapse found
    cases found
  · intro left right synapse found
    cases found

theorem still_adaptProtocolNeuron (registry : Registry)
    (neuron : ProtocolNeuron) :
    registry.Still (registry.adaptProtocolNeuron neuron) :=
  have alike := registry.alike_adaptProtocolNeuron neuron
  ⟨alike.synapses, alike.nextObject, alike.addresses⟩

/-- The only synapses that there are after startup are those of the protocol. -/
structure Starts (registry : Registry) : Prop where
  distinct : registry.Distinct
  protocol : ∀ {name synapse}, registry.base.synapses name = some synapse →
    ∃ neuron : ProtocolNeuron, neuron.toNeuron.name = name

theorem Starts.adaptProtocolNeuron {registry : Registry}
    (starts : registry.Starts) (neuron : ProtocolNeuron) :
    (registry.adaptProtocolNeuron neuron).Starts := by
  have still := registry.still_adaptProtocolNeuron neuron
  refine ⟨still.distinct starts.distinct, ?_⟩
  intro name synapse found
  exact starts.protocol (still.synapses ▸ found)

theorem Starts.createReserved {registry : Registry} (starts : registry.Starts)
    (host : Host) (neurons : List ProtocolNeuron) :
    (registry.createReserved host neurons).2.Starts := by
  induction neurons generalizing registry with
  | nil => exact starts
  | cons neuron neurons induction =>
      have first : (registry.createSynapseWithReservedAddress host
          neuron).2.Starts := by
        unfold createSynapseWithReservedAddress
        split
        · exact starts
        · next multicastAddress _ =>
            have relocation := relocation_create host registry neuron.toNeuron
              neuron.toNeuron.name multicastAddress
            refine ⟨relocation.distinct starts.distinct, ?_⟩
            intro name synapse found
            by_cases same : name = neuron.toNeuron.name
            · exact ⟨neuron, same.symm⟩
            · have isOn := (relocation.isOn_other starts.distinct same _).mp
                ⟨synapse, found, rfl⟩
              obtain ⟨known, before, _⟩ := isOn
              exact starts.protocol before
      unfold Registry.createReserved
      split
      · next result => simpa [result] using first
      · next result =>
          rw [result] at first
          exact induction first

theorem starts_startup (host : Host) (multicastCidr : IPNetwork)
    (filters : Filters) :
    ((init multicastCidr filters).startup host).2.Starts := by
  have starts : (init multicastCidr filters).Starts := by
    refine ⟨distinct_init multicastCidr filters, ?_⟩
    intro name synapse found
    cases found
  have reserved := starts.createReserved host ProtocolNeuron.all
  have adaptedAll : ∀ (neurons : List ProtocolNeuron) (before : Registry),
      before.Starts → (neurons.foldl Registry.adaptProtocolNeuron
        before).Starts := by
    intro neurons
    induction neurons with
    | nil => exact fun _ before => before
    | cons neuron neurons induction =>
        intro before start
        exact induction _ (start.adaptProtocolNeuron neuron)
  unfold startup
  split
  · next result => simpa [result] using reserved
  · next result =>
      rw [result] at reserved
      exact adaptedAll _ _ reserved

end Registry

end Plexo
