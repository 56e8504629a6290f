import Plexo.Multicast.Learning

/-!
# Rendezvous

What the whole protocol is for: the instances of a group that use a type meet on
one multicast address.  The synapse for a type gets its address from a call that
returned it or from an approval that was committed, and both have a majority
behind them.  As long as the steps of the group are safeguarded, the synapses for
a type are on one address, at all instances and from then on, and calls for the
type return that address.
-/

namespace Plexo

open PersistentMap Transition Voting

/-- The type is none of the protocol itself. -/
def IsUserType (name : String) : Prop :=
  ∀ neuron : ProtocolNeuron, neuron.toNeuron.name ≠ name

instance (name : String) : Decidable (IsUserType name) :=
  decidable_of_iff (∀ neuron ∈ ProtocolNeuron.all, neuron.toNeuron.name ≠ name)
    ⟨fun all neuron => all neuron neuron.mem_all, fun all neuron _ => all neuron⟩

namespace GanglionPlexoMulticast

theorem returned_of_step {host : Host} {ganglion : GanglionPlexoMulticast}
    {input : Input} {result : GanglionPlexoMulticast × List Output}
    (taken : ganglion.step host input = some result) {call : CallId}
    {proposal : PlexoProposal} {multicastAddress : IPAddress}
    (found : result.1.calls call =
      some (.returned proposal multicastAddress)) :
    ganglion.calls call = some (.returned proposal multicastAddress) ∨
      ∃ numPeers, Output.return proposal multicastAddress numPeers ∈
        result.2 := by
  have goesOn {other : CallId} {attempt : Attempt}
      (calls : result.1.calls = ganglion.calls.set other attempt)
      (runs : attempt ≠ .returned proposal multicastAddress) :
      ganglion.calls call = some (.returned proposal multicastAddress) := by
    rw [calls] at found
    rcases (PMap.set_eq_some_iff ..).mp found with ⟨_, same⟩ | ⟨_, before⟩
    · exact absurd same runs
    · exact before
  cases proposerMove_of_step taken with
  | idle same reactions =>
      obtain ⟨earlier, foundBefore, settled⟩ := same.earlier found
      cases earlier with
      | returned other address =>
          obtain ⟨rfl, rfl⟩ : other = proposal ∧ address = multicastAddress := by
            simpa [Attempt.settled] using settled
          exact .inl foundBefore
      | _ => simp [Attempt.settled] at settled
  | prepare none calls outputs => exact .inl (goesOn calls (by simp))
  | startPreparationTimer found calls outputs =>
      exact .inl (goesOn calls (by simp))
  | reject found rejected calls outputs => exact .inl (goesOn calls (by simp))
  | exhaust found passed failed calls outputs =>
      exact .inl (goesOn calls (by simp))
  | choose found canPop passed chosen calls outputs =>
      exact .inl (goesOn calls (by simp))
  | propose found calls outputs => exact .inl (goesOn calls (by simp))
  | startProposalTimer found calls outputs =>
      exact .inl (goesOn calls (by simp))
  | @«return» other returned address cancelled waiting enough calls outputs =>
      rw [calls] at found
      rcases (PMap.set_eq_some_iff ..).mp found with ⟨_, same⟩ | ⟨_, before⟩
      · obtain ⟨rfl, rfl⟩ : returned = proposal ∧
            address = multicastAddress := by
          simpa using same
        exact .inr ⟨ganglion.numPeers, by simp [outputs]⟩
      · exact .inl before
  | giveUp found calls outputs => exact .inl (goesOn calls (by simp))

end GanglionPlexoMulticast

namespace Network

variable {N : Nat}

/-- A majority is behind the address in some ballot of the type. -/
def Decided (network : Network N) (name : String)
    (multicastAddress : IPAddress) : Prop :=
  ∃ ballot, (network.votes name).ChosenIn ballot (some multicastAddress.packed)

theorem Agreeing.decided_unique {network : Network N}
    (agreeing : network.Agreeing) {name : String} {first second : IPAddress}
    (one : network.Decided name first) (other : network.Decided name second) :
    first = second := by
  obtain ⟨ballot, chosen⟩ := one
  obtain ⟨another, otherChosen⟩ := other
  have same := Votes.chosen_unique (agreeing.sound name) chosen otherChosen
  exact packed_injective (Option.some.inj same)

theorem Agreeing.decided_of_returns {network : Network N}
    (agreeing : network.Agreeing) {name : String} {multicastAddress : IPAddress}
    (returned : (name, multicastAddress) ∈ network.returns) :
    network.Decided name multicastAddress := by
  obtain ⟨entry, member, proposal, numPeers, isReturn, rfl⟩ :=
    mem_returns.mp returned
  exact ⟨proposal.ballot,
    agreeing.grounded.chosen entry member _ _ _ isReturn⟩

/-- The invariant of safeguarded runs, with the synapses. -/
structure Meeting (network : Network N) : Prop where
  agreeing : network.Agreeing
  tallied : network.Tallied
  distinct : ∀ instance_, (network.ganglion instance_).registry.Distinct
  returned : ∀ instance_ call proposal multicastAddress,
    (network.ganglion instance_).calls call =
      some (.returned proposal multicastAddress) →
    network.Decided proposal.typeName multicastAddress
  placed : ∀ instance_ name multicastAddress, IsUserType name →
    (network.ganglion instance_).registry.IsOn name multicastAddress →
    network.Decided name multicastAddress

section Step

variable {host : Fin N → Host} {network next : Network N}
  {action : NetworkAction N}

theorem Decided.step {name : String} {multicastAddress : IPAddress}
    (decided : network.Decided name multicastAddress)
    (conserved : network.Conserved)
    (keeps : network.keepsPromise action = true)
    (taken : network.step ownType host action = some next) :
    next.Decided name multicastAddress := by
  obtain ⟨ballot, chosen⟩ := decided
  exact ⟨ballot, chosen.extends (votes_extends conserved keeps taken name)⟩

theorem Meeting.decided_of_places (meeting : network.Meeting)
    (countsAll : network.CountsAll) {before : Network N} {instance_ : Fin N}
    {input : Input} {result : GanglionPlexoMulticast × List Output}
    (ready : Readied ownType network action instance_ input before)
    (taken : (network.ganglion instance_).step (host instance_) input =
      some result) {name : String} {multicastAddress : IPAddress}
    (places : (network.ganglion instance_).Places input name
      multicastAddress) :
    network.Decided name multicastAddress := by
  cases places with
  | create found => exact meeting.returned instance_ _ _ _ found
  | @commit _ approval _ counts commits =>
      obtain ⟨above, _, _, carried⟩ := commits
      have chosen := meeting.agreeing.chosen_of_commit meeting.tallied countsAll
        ready counts (GanglionPlexoMulticast.queued_of_step taken) above
      obtain ⟨bytes, carries, parsed⟩ := Option.bind_eq_some_iff.mp carried
      rw [carries, ← packed_of_ipAddress parsed] at chosen
      exact ⟨approval.ballot, chosen⟩

theorem Meeting.step (meeting : network.Meeting)
    (countsAll : network.CountsAll) (guarded : network.Safeguarded action)
    (taken : network.step ownType host action = some next) :
    next.Meeting := by
  have agreeing := meeting.agreeing.step countsAll guarded taken
  have still : ∀ {name multicastAddress},
      network.Decided name multicastAddress →
      next.Decided name multicastAddress := by
    intro name multicastAddress decided
    exact decided.step meeting.agreeing.accounted.conserved guarded.keeps taken
  have tallied := meeting.tallied.step taken
  cases move_of_step taken with
  | lose chosen =>
      refine ⟨agreeing, tallied, meeting.distinct, ?_, ?_⟩
      · intro instance_ call proposal multicastAddress found
        exact still (meeting.returned instance_ call _ _ found)
      · intro instance_ name multicastAddress isUser isOn
        exact still (meeting.placed instance_ name _ isUser isOn)
  | @take instance_ input before result ready resultTaken =>
      refine ⟨agreeing, tallied, ?_, ?_, ?_⟩
      · intro other
        by_cases same : other = instance_
        · subst same
          rw [record_ganglion_self]
          exact GanglionPlexoMulticast.distinct_of_step resultTaken
            (meeting.distinct other)
        · rw [record_ganglion_other _ _ same, ready.ganglion_eq]
          exact meeting.distinct other
      · intro other call proposal multicastAddress found
        by_cases same : other = instance_
        · subst same
          rw [record_ganglion_self] at found
          rcases GanglionPlexoMulticast.returned_of_step resultTaken found with
            before | ⟨numPeers, output⟩
          · exact still (meeting.returned other call _ _ before)
          · refine agreeing.decided_of_returns (mem_returns.mpr ?_)
            exact ⟨(other, .return proposal multicastAddress numPeers),
              mem_record_history.mpr (.inl ⟨rfl, output⟩), proposal, numPeers,
              rfl, rfl⟩
        · rw [record_ganglion_other _ _ same, ready.ganglion_eq] at found
          exact still (meeting.returned other call _ _ found)
      · intro other name multicastAddress isUser isOn
        by_cases same : other = instance_
        · subst same
          rw [record_ganglion_self] at isOn
          rcases GanglionPlexoMulticast.isOn_of_step resultTaken
              (meeting.distinct other) isOn with before | places
          · exact still (meeting.placed other name _ isUser before)
          · exact still (meeting.decided_of_places countsAll ready resultTaken
              places)
        · rw [record_ganglion_other _ _ same, ready.ganglion_eq] at isOn
          exact still (meeting.placed other name _ isUser isOn)

end Step

theorem meeting_ofGanglia {ganglion : Fin N → GanglionPlexoMulticast}
    (idle : ∀ instance_, (ganglion instance_).Idle)
    (starts : ∀ instance_, (ganglion instance_).registry.Starts) :
    (ofGanglia ganglion).Meeting := by
  refine ⟨agreeing_ofGanglia idle, tallied_ofGanglia idle,
    fun instance_ => (starts instance_).distinct, ?_, ?_⟩
  · intro instance_ call proposal multicastAddress found
    simp [ofGanglia, (idle instance_).calls] at found
  · intro instance_ name multicastAddress isUser isOn
    obtain ⟨synapse, found, _⟩ := isOn
    obtain ⟨neuron, same⟩ := (starts instance_).protocol found
    exact absurd same (isUser neuron)

theorem meeting_started (host : Fin N → Host) (multicastCidr : IPNetwork)
    (instanceId : Fin N → Nat) (filters : Fin N → Filters) :
    (started host multicastCidr instanceId filters).Meeting :=
  meeting_ofGanglia (fun _ => GanglionPlexoMulticast.started_idle ..)
    fun _ => Registry.starts_startup ..

theorem Meeting.path {host : Fin N → Host} {network finish : Network N}
    {steps : List (Network N × NetworkAction N)} (meeting : network.Meeting)
    (path : Path (Network.step ownType host) network steps finish)
    (countsAll : Along (fun network _ => network.CountsAll) steps)
    (guarded : Along Safeguarded steps) : finish.Meeting := by
  have conditions : Along (fun network action =>
      network.CountsAll ∧ network.Safeguarded action) steps :=
    fun entry member => ⟨countsAll entry member, guarded entry member⟩
  apply path.invariant conditions meeting
  intro before action after meeting conditions taken
  exact meeting.step conditions.1 conditions.2 taken

theorem Meeting.decided_path {host : Fin N → Host} {network finish : Network N}
    {steps : List (Network N × NetworkAction N)} (meeting : network.Meeting)
    (path : Path (Network.step ownType host) network steps finish)
    (countsAll : Along (fun network _ => network.CountsAll) steps)
    (guarded : Along Safeguarded steps) {name : String}
    {multicastAddress : IPAddress}
    (decided : network.Decided name multicastAddress) :
    finish.Decided name multicastAddress := by
  induction path with
  | refl => exact decided
  | snoc before taken induction =>
      obtain ⟨_, countsEarlier⟩ := along_cons.mp countsAll
      obtain ⟨guardedHere, guardedEarlier⟩ := along_cons.mp guarded
      have middle := meeting.path before countsEarlier guardedEarlier
      exact (induction countsEarlier guardedEarlier).step
        middle.agreeing.accounted.conserved guardedHere.keeps taken

end Network

/-- In every run whose steps are safeguarded, once an instance has a synapse for
a type of a user on an address, every synapse for the type is on that address,
at every instance and from then on, and so is every address that a call for the
type returns. -/
theorem rendezvous {N : Nat} {host : Fin N → Host} {multicastCidr : IPNetwork}
    {instanceId : Fin N → Nat} {filters : Fin N → Filters}
    {early late : List (Network N × NetworkAction N)}
    {middle finish : Network N}
    (before : Path (Network.step ownType host)
      (.started host multicastCidr instanceId filters) early middle)
    (after : Path (Network.step ownType host) middle late finish)
    (countsAll : Along (fun network _ => network.CountsAll) (late ++ early))
    (guarded : Along Network.Safeguarded (late ++ early))
    {name : String} (isUser : IsUserType name) {left : Fin N}
    {meetingPoint : IPAddress}
    (there : (middle.ganglion left).registry.IsOn name meetingPoint) :
    (∀ right multicastAddress,
        (finish.ganglion right).registry.IsOn name multicastAddress →
          multicastAddress = meetingPoint) ∧
      ∀ multicastAddress, (name, multicastAddress) ∈ finish.returns →
        multicastAddress = meetingPoint := by
  have countsEarly : Along (fun network _ => network.CountsAll) early :=
    fun entry member => countsAll entry (List.mem_append_right _ member)
  have countsLate : Along (fun network _ => network.CountsAll) late :=
    fun entry member => countsAll entry (List.mem_append_left _ member)
  have guardedEarly : Along Network.Safeguarded early :=
    fun entry member => guarded entry (List.mem_append_right _ member)
  have guardedLate : Along Network.Safeguarded late :=
    fun entry member => guarded entry (List.mem_append_left _ member)
  have first := (Network.meeting_started host multicastCidr instanceId
    filters).path before countsEarly guardedEarly
  have last := first.path after countsLate guardedLate
  have decided := first.decided_path after countsLate guardedLate
    (first.placed left name meetingPoint isUser there)
  constructor
  · intro right multicastAddress isOn
    exact last.agreeing.decided_unique
      (last.placed right name multicastAddress isUser isOn) decided
  · intro multicastAddress returned
    exact last.agreeing.decided_unique
      (last.agreeing.decided_of_returns returned) decided

namespace Rendezvous

def preparation : PlexoPreparation := ⟨10, 1, "dev.plexo.Foo.json"⟩

def address : IPAddress := .v4 239 0 0 32

def proposal : PlexoProposal := proposalFor preparation address

def acquires : List (NetworkAction 3) :=
  let promise := promiseFor none preparation
  [.act Trio.first (.prepare 0 "dev.plexo.Foo.json" 1),
    .act Trio.first (.startPreparationTimer 0),
    .deliver ⟨Trio.first, Trio.second, .preparation, .preparation preparation⟩,
    .deliver ⟨Trio.first, Trio.third, .preparation, .preparation preparation⟩,
    .deliver ⟨Trio.second, Trio.first, .proposal, .promise promise⟩,
    .deliver ⟨Trio.third, Trio.first, .proposal, .promise promise⟩,
    .act Trio.first (.checkPromises 0 address),
    .act Trio.first (.sendProposal 0),
    .act Trio.first (.startProposalTimer 0),
    .deliver ⟨Trio.first, Trio.second, .proposal, .proposal proposal⟩,
    .deliver ⟨Trio.first, Trio.third, .proposal, .proposal proposal⟩,
    .deliver ⟨Trio.second, Trio.first, .approval,
      .approval (approvalFor proposal)⟩,
    .act Trio.first (.checkApprovals 0),
    .act Trio.first (.createSynapse 0 Learner.neuron)]

/-- The third instance knows the name, counts its own approval and that of the
second one, and commits. -/
def learns : List (NetworkAction 3) :=
  [.act Trio.third (.createExternalTransmitter Learner.neuron 6),
    .act Trio.third (.approve (approvalFor proposal)),
    .deliver ⟨Trio.second, Trio.third, .approval,
      .approval (approvalFor proposal)⟩]

def met : Network 3 :=
  (exec (Network.step ownType fun _ => .permissive) (.sample 3)
    acquires).getD (.sample 3)

theorem exec_acquires :
    exec (Network.step ownType fun _ => .permissive) (.sample 3) acquires =
      some met :=
  exec_eq_getD (by decide +kernel)

end Rendezvous

theorem rendezvous_learner :
    ∃ early late finish,
      Path (Network.step ownType fun _ => .permissive) (.sample 3) early
        Rendezvous.met ∧
      Path (Network.step ownType fun _ => .permissive) Rendezvous.met late
        finish ∧
      (Rendezvous.met.ganglion Trio.first).registry.IsOn "dev.plexo.Foo.json"
        Rendezvous.address ∧
      (finish.ganglion Trio.third).registry.IsOn "dev.plexo.Foo.json"
        Rendezvous.address := by
  have before := path_of_exec Rendezvous.exec_acquires
  obtain ⟨finish, after, learned⟩ := path_of_any
    (show (exec (Network.step ownType fun _ => .permissive) Rendezvous.met
      Rendezvous.learns).any (fun finish =>
        ((finish.ganglion Trio.third).registry.base.synapses
          "dev.plexo.Foo.json").isSome) = true by decide +kernel)
  have there : (Rendezvous.met.ganglion Trio.first).registry.IsOn
      "dev.plexo.Foo.json" Rendezvous.address :=
    ⟨6, by decide +kernel, by decide +kernel⟩
  obtain ⟨synapse, found⟩ := Option.isSome_iff_exists.mp learned
  have same := (rendezvous before after (by decide +kernel) (by decide +kernel)
    (by decide +kernel) there).1 Trio.third _ ⟨synapse, found, rfl⟩
  exact ⟨_, _, finish, before, after, there, ⟨synapse, found, same⟩⟩

end Plexo
