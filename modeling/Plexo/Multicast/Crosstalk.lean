import Plexo.Multicast.Reserved

/-!
# No crosstalk

Two types on one multicast address would hear each other's messages.  The
addresses of the protocol lie in the reserved block, one for each neuron, and an
address outside of it is on its way from the call that has settled on it to the
synapse that is put on it.  So if no call settles on an address that is in use
for another type, synapses for different types are on different addresses, at
all instances and whether or not the instances of a type have met.
-/

namespace Plexo

open PersistentMap Transition

theorem isUserType_or (name : String) :
    IsUserType name ∨ ∃ neuron : ProtocolNeuron, neuron.toNeuron.name = name := by
  by_cases isUser : IsUserType name
  · exact .inl isUser
  · exact .inr (not_forall_not.mp isUser)

theorem ProtocolNeuron.eq_of_reservedIndex {left right : ProtocolNeuron}
    (same : left.reservedIndex = right.reservedIndex) : left = right := by
  cases left <;> cases right <;> first | rfl | cases same

theorem GanglionPlexoMulticast.choose_of_step {host : Host}
    {ganglion : GanglionPlexoMulticast} {input : Input}
    {result : GanglionPlexoMulticast × List Output}
    (taken : ganglion.step host input = some result) {output : Output}
    {claim : String × IPAddress} (member : output ∈ result.2)
    (chosen : output.chosen? = some claim) :
    ∃ call popped preparation cancelled,
      input = .own (.checkPromises call popped) ∧
      ganglion.calls call = some (.awaitingPromises preparation cancelled) ∧
      ganglion.CanPop popped ∧
      (chooseAddress ganglion.registry
        (ganglion.collectedPromises preparation.typeName) popped).1 =
          .ok claim.2 ∧
      preparation.typeName = claim.1 := by
  cases proposerMove_of_step taken with
  | idle _ reactions =>
      have reaction := reactions output member
      cases output with
      | choose => simp [Output.isReaction] at reaction
      | _ => cases chosen
  | @choose call preparation cancelled popped multicastAddress found canPop _
      address _ outputs =>
      rw [outputs] at member
      rcases List.mem_pair.mp member with rfl | rfl
      · cases chosen
      · cases chosen
        exact ⟨call, popped, preparation, cancelled, rfl, found, canPop,
          address, rfl⟩
  | prepare _ _ outputs =>
      simp only [outputs, List.mem_singleton] at member
      cases member
      cases chosen
  | startPreparationTimer _ _ outputs => simp [outputs] at member
  | reject _ _ _ outputs => simp [outputs] at member
  | exhaust _ _ _ _ outputs =>
      simp only [outputs, List.mem_singleton] at member
      cases member
      cases chosen
  | propose _ _ outputs =>
      rw [outputs] at member
      rcases List.mem_pair.mp member with rfl | rfl
      · cases chosen
      · cases chosen
  | startProposalTimer _ _ outputs => simp [outputs] at member
  | «return» _ _ _ outputs =>
      simp only [outputs, List.mem_singleton] at member
      cases member
      cases chosen
  | giveUp _ _ outputs => simp [outputs] at member

namespace Network

variable {N : Nat}

theorem Claimed.mem_claims {network : Network N} {name : String}
    {multicastAddress : IPAddress}
    (claimed : network.Claimed name multicastAddress.packed) :
    (name, multicastAddress) ∈ network.claims := by
  obtain ⟨known, member, same⟩ := claimed
  exact packed_injective same ▸ member

/-- All addresses that are used for types of users are ones that calls have
settled on for them, each for one type only. -/
structure Separating (network : Network N) (multicastCidr : IPNetwork) :
    Prop where
  carries : network.Carries network.Claimed
  reserving : network.Reserving multicastCidr
  placed : ∀ instance_ name multicastAddress, IsUserType name →
    (network.ganglion instance_).registry.IsOn name multicastAddress →
    (name, multicastAddress) ∈ network.claims
  apart : ∀ name other multicastAddress,
    (name, multicastAddress) ∈ network.claims →
    (other, multicastAddress) ∈ network.claims → name = other

section Step

variable {host : Fin N → Host} {network before next : Network N}
  {action : NetworkAction N} {instance_ : Fin N} {input : Input}
  {result : GanglionPlexoMulticast × List Output} {multicastCidr : IPNetwork}
  {decoding : Decoding}

theorem Separating.claimed_of_places
    (separating : network.Separating multicastCidr)
    (keeps : KeepsAddresses decoding)
    (ready : Readied decoding network action instance_ input before)
    (taken : (network.ganglion instance_).step (host instance_) input =
      some result) {name : String} {multicastAddress : IPAddress}
    (places : (network.ganglion instance_).Places input name
      multicastAddress) :
    (name, multicastAddress) ∈ network.claims := by
  cases places with
  | create found =>
      exact (separating.carries.calls instance_ _ _ _ _ found rfl).mem_claims
  | commit counts commits =>
      obtain ⟨_, _, _, carried⟩ := commits
      obtain ⟨bytes, carries, parsed⟩ := Option.bind_eq_some_iff.mp carried
      have claimed :=
        separating.carries.of_approval keeps ready taken counts carries
      rw [← packed_of_ipAddress parsed] at claimed
      exact claimed.mem_claims

/-- An address that a call settles on is not in use for another type. -/
theorem Separating.apart_of_choose
    (separating : network.Separating multicastCidr)
    (knows : network.knowsClaims action = true)
    (ready : Readied decoding network action instance_ input before)
    (taken : (network.ganglion instance_).step (host instance_) input =
      some result) {output : Output} {claim : String × IPAddress}
    (member : output ∈ result.2) (chosen : output.chosen? = some claim)
    {other : String} (claimed : (other, claim.2) ∈ network.claims) :
    claim.1 = other := by
  obtain ⟨call, popped, preparation, cancelled, rfl, found, canPop, address,
    sameName⟩ := GanglionPlexoMulticast.choose_of_step taken member chosen
  rw [← sameName]
  rcases GanglionPlexoMulticast.chooseAddress_ok address with
    ⟨newest, selected, promised⟩ | ⟨nothing, fresh⟩
  · -- The address of a promise has been claimed for the type before.
    have known := (separating.carries.collected instance_ _ _
      (newestPromise_some selected).1).2 _ promised
    exact separating.apart _ other _ known.mem_claims claimed
  · obtain ⟨available, samePopped⟩ := IpLeaseManager.getAddress_ok fresh
    have inPool := canPop.resolve_left available
    rw [samePopped] at inPool
    cases ready with
    | own =>
        simp only [knowsClaims, found, nothing, Option.isSome_none,
          Bool.false_or, List.all_eq_true, Bool.or_eq_true,
          decide_eq_true_eq] at knows
        exact ((knows _ claimed).resolve_right (not_not_intro inPool)).symm

theorem Separating.apart_record (separating : network.Separating multicastCidr)
    (knows : network.knowsClaims action = true)
    (ready : Readied decoding network action instance_ input before)
    (taken : (network.ganglion instance_).step (host instance_) input =
      some result) {name other : String} {multicastAddress : IPAddress}
    (first : (name, multicastAddress) ∈ (before.record instance_ result).claims)
    (second : (other, multicastAddress) ∈
      (before.record instance_ result).claims) : name = other := by
  have sameClaims : before.claims = network.claims := by
    unfold claims
    rw [ready.history_eq]
  rw [mem_claims_record, sameClaims] at first second
  rcases first with ⟨output, new, chosen⟩ | old
  · rcases second with ⟨another, newToo, chosenToo⟩ | oldToo
    · -- One call settles on one address in a step.
      obtain ⟨call, _, _, _, isCheck, found, _, _, sameName⟩ :=
        GanglionPlexoMulticast.choose_of_step taken new chosen
      obtain ⟨_, _, _, _, isCheckToo, foundToo, _, _, sameOther⟩ :=
        GanglionPlexoMulticast.choose_of_step taken newToo chosenToo
      cases isCheck.symm.trans isCheckToo
      cases found.symm.trans foundToo
      exact sameName.symm.trans sameOther
    · exact separating.apart_of_choose knows ready taken new chosen oldToo
  · rcases second with ⟨output, new, chosen⟩ | oldToo
    · have apart :=
        separating.apart_of_choose knows ready taken new chosen old
      exact apart.symm
    · exact separating.apart name other multicastAddress old oldToo

theorem Separating.record (separating : network.Separating multicastCidr)
    (keeps : KeepsAddresses decoding)
    (knows : network.knowsClaims action = true)
    (ready : Readied decoding network action instance_ input before)
    (taken : (network.ganglion instance_).step (host instance_) input =
      some result)
    (reserving : (before.record instance_ result).Reserving multicastCidr) :
    (before.record instance_ result).Separating multicastCidr := by
  have kept : ∀ claim ∈ network.claims,
      claim ∈ (before.record instance_ result).claims := by
    intro claim member
    apply mem_claims_record.mpr
    right
    unfold claims at member ⊢
    rwa [ready.history_eq]
  refine ⟨?_, reserving, ?_, ?_⟩
  · have carries := separating.carries.mono
      fun _ _ claimed => Claimed.mono claimed kept
    apply carries.record keeps _ ready taken
    intro proposer call popped preparation cancelled multicastAddress _ _ _ _
      claimed
    exact ⟨multicastAddress, claimed, rfl⟩
  · intro other name multicastAddress isUser isOn
    apply kept
    by_cases same : other = instance_
    · subst same
      rw [record_ganglion_self] at isOn
      rcases GanglionPlexoMulticast.isOn_of_step taken
          (separating.reserving.fenced other).distinct isOn with
        earlier | places
      · exact separating.placed other name _ isUser earlier
      · exact separating.claimed_of_places keeps ready taken places
    · rw [record_ganglion_other _ _ same, ready.ganglion_eq] at isOn
      exact separating.placed other name _ isUser isOn
  · intro name other multicastAddress first second
    exact separating.apart_record knows ready taken first second

theorem Separating.step (separating : network.Separating multicastCidr)
    (keeps : KeepsAddresses decoding)
    (checks : network.checksSynapse action = true)
    (knows : network.knowsClaims action = true)
    (taken : network.step decoding host action = some next) :
    next.Separating multicastCidr := by
  have reserving := separating.reserving.step keeps checks taken
  cases move_of_step taken with
  | lose chosen =>
      have carries := separating.carries
      exact ⟨⟨carries.conserved.step taken, carries.collected, carries.sent,
        carries.stored, carries.calls, carries.pending, carries.returned⟩,
        reserving, separating.placed, separating.apart⟩
  | take ready resultTaken =>
      exact separating.record keeps knows ready resultTaken reserving

end Step

theorem separating_started {host : Fin N → Host} {multicastCidr : IPNetwork}
    {instanceId : Fin N → Nat} {filters : Fin N → Filters}
    (created : ∀ instance_, ((Registry.init multicastCidr
      (filters instance_)).startup (host instance_)).1 = .ok ()) :
    (started host multicastCidr instanceId filters).Separating
      multicastCidr := by
  refine ⟨carries_ofGanglia _ fun instance_ =>
      GanglionPlexoMulticast.started_idle .., reserving_started created,
    ?_, by simp [started, ofGanglia, claims]⟩
  · intro instance_ name multicastAddress isUser isOn
    obtain ⟨synapse, found, _⟩ := isOn
    obtain ⟨neuron, same⟩ := (Registry.starts_startup (host instance_)
      multicastCidr (filters instance_)).protocol found
    exact absurd same (isUser neuron)

variable {network : Network N} {multicastCidr : IPNetwork}

theorem Reserving.reserved_of_isOn (reserving : network.Reserving multicastCidr)
    {instance_ : Fin N} {neuron : ProtocolNeuron}
    {multicastAddress : IPAddress}
    (isOn : (network.ganglion instance_).registry.IsOn neuron.toNeuron.name
      multicastAddress) :
    (multicastCidr.addresses.take 32)[neuron.reservedIndex]? =
      some multicastAddress := by
  obtain ⟨kept, reserved, synapse, found, there⟩ :=
    (reserving.fenced instance_).protocol neuron
  obtain ⟨known, isKnown, here⟩ := isOn
  obtain rfl : synapse = known := Option.some.inj (found.symm.trans isKnown)
  rw [reserved, ← there, here]

/-- The address of a user's synapse is none of those of the protocol. -/
theorem Reserving.not_shared (reserving : network.Reserving multicastCidr)
    {left right : Fin N} {neuron : ProtocolNeuron} {name : String}
    {multicastAddress : IPAddress} (isUser : IsUserType name)
    (ofProtocol : (network.ganglion left).registry.IsOn neuron.toNeuron.name
      multicastAddress)
    (ofUser : (network.ganglion right).registry.IsOn name
      multicastAddress) : False := by
  have reserved := List.mem_of_getElem? (reserving.reserved_of_isOn ofProtocol)
  have free := (reserving.fenced right).users name _ isUser ofUser
  exact ((IPNetwork.mem_unreserved_iff ..).mp free).2 reserved

theorem Separating.name_eq (separating : network.Separating multicastCidr)
    {left right : Fin N} {name other : String} {multicastAddress : IPAddress}
    (isOn : (network.ganglion left).registry.IsOn name multicastAddress)
    (otherIsOn : (network.ganglion right).registry.IsOn other
      multicastAddress) : name = other := by
  have reserving := separating.reserving
  rcases isUserType_or name with isUser | ⟨neuron, rfl⟩
  · rcases isUserType_or other with otherIsUser | ⟨neuron, rfl⟩
    · exact separating.apart name other multicastAddress
        (separating.placed left name _ isUser isOn)
        (separating.placed right other _ otherIsUser otherIsOn)
    · exact (reserving.not_shared isUser otherIsOn isOn).elim
  · rcases isUserType_or other with otherIsUser | ⟨another, rfl⟩
    · exact (reserving.not_shared otherIsUser isOn otherIsOn).elim
    · have first := reserving.reserved_of_isOn isOn
      have second := reserving.reserved_of_isOn otherIsOn
      have nodup : (multicastCidr.addresses.take 32).Nodup :=
        multicastCidr.nodup.sublist (List.take_sublist ..)
      have inside := (List.getElem?_eq_some_iff.mp first).1
      have same := (List.getElem?_inj inside nodup).mp
        (first.trans second.symm)
      rw [ProtocolNeuron.eq_of_reservedIndex same]

end Network

/-- In every run in which calls begin for types without a synapse, and settle on
no address that is in use for another type, two synapses of any two instances are
on one address only if they are for one type. -/
theorem no_crosstalk {N : Nat} {decoding : Decoding} {host : Fin N → Host}
    {multicastCidr : IPNetwork} {instanceId : Fin N → Nat}
    {filters : Fin N → Filters}
    {steps : List (Network N × NetworkAction N)} {finish : Network N}
    (created : ∀ instance_, ((Registry.init multicastCidr
      (filters instance_)).startup (host instance_)).1 = .ok ())
    (keeps : KeepsAddresses decoding)
    (path : Path (Network.step decoding host)
      (.started host multicastCidr instanceId filters) steps finish)
    (checks : Along (fun network action =>
      network.checksSynapse action = true) steps)
    (knows : Along (fun network action =>
      network.knowsClaims action = true) steps)
    {left right : Fin N} {name other : String} {multicastAddress : IPAddress}
    (isOn : (finish.ganglion left).registry.IsOn name multicastAddress)
    (otherIsOn : (finish.ganglion right).registry.IsOn other
      multicastAddress) : name = other := by
  have conditions : Along (fun network action =>
      network.checksSynapse action = true ∧
        network.knowsClaims action = true) steps :=
    fun entry member => ⟨checks entry member, knows entry member⟩
  have separating : finish.Separating multicastCidr := by
    apply path.invariant conditions (Network.separating_started created)
    intro before action after separating conditions taken
    exact separating.step keeps conditions.1 conditions.2 taken
  exact separating.name_eq isOn otherIsOn

namespace Crosstalk

def neuron : Neuron :=
  .init "Bar" plexoNamespace ⟨"JSONCodec", "json"⟩ none

/-- The instance that has learned the address of the first type gets one for
another type, and creates its synapse. -/
def acquires : List (NetworkAction 3) :=
  let preparation : PlexoPreparation := ⟨12, 2, "dev.plexo.Bar.json"⟩
  soloRound Trio.third Trio.second 0 preparation (promiseFor none preparation)
      (.v4 239 0 0 33) (.v4 239 0 0 33) ++
    [.act Trio.third (.createSynapse 0 neuron)]

end Crosstalk

theorem no_crosstalk_acquires :
    ∃ steps finish foo bar,
      Path (Network.step ownType fun _ => .permissive) (.sample 3) steps
        finish ∧
      (finish.ganglion Trio.first).registry.IsOn "dev.plexo.Foo.json" foo ∧
      (finish.ganglion Trio.third).registry.IsOn "dev.plexo.Bar.json" bar ∧
      foo ≠ bar := by
  obtain ⟨finish, path, placed⟩ := path_of_any
    (show (exec (Network.step ownType fun _ => .permissive) (.sample 3)
      (Rendezvous.acquires ++ Rendezvous.learns ++ Crosstalk.acquires)).any
        (fun finish =>
          ((finish.ganglion Trio.first).registry.base.synapses
            "dev.plexo.Foo.json").isSome &&
          ((finish.ganglion Trio.third).registry.base.synapses
            "dev.plexo.Bar.json").isSome) = true by decide +kernel)
  obtain ⟨first, third⟩ := Bool.and_eq_true_iff.mp placed
  obtain ⟨foo, fooFound⟩ := Option.isSome_iff_exists.mp first
  obtain ⟨bar, barFound⟩ := Option.isSome_iff_exists.mp third
  refine ⟨_, finish, _, _, path, ⟨foo, fooFound, rfl⟩, ⟨bar, barFound, rfl⟩, ?_⟩
  intro same
  have oneType := no_crosstalk (by decide +kernel) keepsAddresses_ownType path
    (by decide +kernel) (by decide +kernel) ⟨foo, fooFound, same⟩
    ⟨bar, barFound, rfl⟩
  exact absurd oneType (by decide)

end Plexo
