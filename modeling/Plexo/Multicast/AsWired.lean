import Plexo.Multicast.CleanUp
import Plexo.Multicast.Dedicated
import Plexo.Multicast.Rendezvous

/-!
# The group as startup wires it

`_preparation_reaction` sends its promises on the neuron of proposals, and a
receiver decodes what arrives on a neuron with the schema of that neuron.  So no
promise ever reaches `_promise_reaction`, and what does reach
`_proposal_reaction` carries no address.  With a peer to wait for, no attempt
gets past its promise check, whoever prepares what and whatever is lost or
reordered.
-/

namespace Plexo

open PersistentMap Transition

/-- A message on a neuron that says nothing about addresses. -/
def Message.IsBlank (neuron : ProtocolNeuron) (message : Message) : Prop :=
  neuron ≠ .promise ∧ message.dumps.data = none

def Output.IsBlank : Output → Prop
  | .transmit neuron message => message.IsBlank neuron
  | .return _ _ _ => False
  | _ => True

/-- The input is none that `_promise_reaction` is for, and carries no address. -/
def Input.IsBlank : Input → Prop
  | .receive message => message.IsBlank message.neuron
  | .own _ => True

def Attempt.isPreparing : Attempt → Bool
  | .transmittingPreparation _ => true
  | .awaitingPromises _ _ => true
  | .raised _ _ => true
  | _ => false

theorem Attempt.isPreparing_settled (attempt : Attempt) :
    attempt.settled.isPreparing = attempt.isPreparing := by
  cases attempt <;> rfl

theorem loads_isBlank {neuron : ProtocolNeuron} {message : Message}
    (blank : message.IsBlank neuron) :
    (byNeuron neuron message).IsBlank (byNeuron neuron message).neuron := by
  obtain ⟨notPromise, noData⟩ := blank
  unfold byNeuron
  rw [loads_neuron]
  refine ⟨notPromise, ?_⟩
  cases neuron with
  | heartbeat => rfl
  | preparation => rfl
  | promise => exact absurd rfl notPromise
  | rejection => rfl
  | proposal => exact noData
  | approval => exact noData

namespace GanglionPlexoMulticast

/-- An instance that nothing has come to of what consensus is for. -/
structure Barren (ganglion : GanglionPlexoMulticast) : Prop where
  promises : ∀ name, ganglion.preparationPromises name = none
  stored : ∀ name entry, ganglion.proposals name = some entry →
    entry.multicastIp = none
  approving : ∀ approval ∈ ganglion.approving, approval.multicastIp = none
  calls : ∀ call attempt, ganglion.calls call = some attempt →
    attempt.isPreparing = true
  users : ∀ name, IsUserType name →
    ganglion.registry.base.synapses name = none

section Step

variable {host : Host} {ganglion : GanglionPlexoMulticast} {input : Input}
  {result : GanglionPlexoMulticast × List Output}

/-- With a peer to wait for, the promise check fails. -/
theorem Barren.preparationRejected (barren : ganglion.Barren)
    (hasPeers : 0 < ganglion.numPeers) (name : String) :
    ganglion.preparationRejected name = true := by
  simp [GanglionPlexoMulticast.preparationRejected, collectedPromises,
    barren.promises name, hasPeers]

theorem transmits_of_step (taken : ganglion.step host input = some result)
    {neuron : ProtocolNeuron} {message : Message}
    (sent : Output.transmit neuron message ∈ result.2) :
    neuron = message.neuron ∧ message.neuron ≠ .promise ∨
      neuron = .proposal ∧ message.neuron = .promise := by
  have ofApproval (before : GanglionPlexoMulticast) (approval : PlexoApproval)
      (sent : Output.transmit neuron message ∈
        (before.approvalReaction host approval).2) : False := by
    unfold approvalReaction commitApproval at sent
    dsimp only at sent
    split at sent
    · split at sent
      · simp at sent
      · split at sent
        · simp at sent
        · split at sent
          · simp at sent
          · split at sent <;> simp at sent
    · simp at sent
  cases input with
  | receive body =>
      obtain rfl := Option.some.inj taken
      cases body with
      | heartbeat body => simp [react] at sent
      | preparation body =>
          simp only [react, preparationReaction] at sent
          split at sent
          · simp at sent
          · split at sent
            · simp only [List.mem_singleton, Output.transmit.injEq] at sent
              obtain ⟨rfl, rfl⟩ := sent
              exact .inr ⟨rfl, rfl⟩
            · simp only [List.mem_singleton, Output.transmit.injEq] at sent
              obtain ⟨rfl, rfl⟩ := sent
              exact .inl ⟨rfl, by simp [Message.neuron]⟩
      | promise body =>
          simp only [react, promiseReaction] at sent
          split at sent <;> simp at sent
      | rejection body =>
          simp only [react, rejectionReaction] at sent
          split at sent <;> simp at sent
      | proposal body =>
          simp only [react, proposalReaction] at sent
          split at sent
          · simp at sent
          · split at sent
            · simp only [List.mem_cons, Output.transmit.injEq,
                List.not_mem_nil, or_false, reduceCtorEq, false_or] at sent
              obtain ⟨rfl, rfl⟩ := sent
              exact .inl ⟨rfl, by simp [Message.neuron]⟩
            · simp at sent
      | approval body => exact (ofApproval _ _ sent).elim
  | own action =>
      have acted : ganglion.act host action = some result := taken
      cases ownStep_of_act acted with
      | prepare _ =>
          simp only [sendPreparation, List.mem_singleton,
            Output.transmit.injEq] at sent
          obtain ⟨rfl, rfl⟩ := sent
          exact .inl ⟨rfl, by simp [Message.neuron]⟩
      | @checkPromises call preparation cancelled popped found canPop =>
          unfold checkPromises at sent
          dsimp only at sent
          split at sent
          · simp at sent
          · split at sent <;> simp at sent
      | sendProposal _ =>
          simp only [GanglionPlexoMulticast.sendProposal, List.mem_cons,
            Output.transmit.injEq, List.not_mem_nil, or_false, reduceCtorEq,
            false_or] at sent
          obtain ⟨rfl, rfl⟩ := sent
          exact .inl ⟨rfl, by simp [Message.neuron]⟩
      | @checkApprovals call proposal multicastAddress cancelled found =>
          unfold checkApprovals at sent
          dsimp only at sent
          split at sent <;> simp at sent
      | approve _ => exact (ofApproval _ _ sent).elim
      | createSynapse _ _ =>
          unfold raisedBy at sent
          split at sent <;> simp at sent
      | _ => simp at sent

theorem Barren.calls_of_step (barren : ganglion.Barren)
    (hasPeers : 0 < ganglion.numPeers)
    (taken : ganglion.step host input = some result) :
    (∀ call attempt, result.1.calls call = some attempt →
      attempt.isPreparing = true) ∧
      ∀ proposal multicastAddress numPeers,
        Output.return proposal multicastAddress numPeers ∉ result.2 := by
  have goesOn {other : CallId} {later : Attempt}
      (calls : result.1.calls = ganglion.calls.set other later)
      (prepares : later.isPreparing = true) :
      ∀ call attempt, result.1.calls call = some attempt →
        attempt.isPreparing = true := by
    intro call attempt found
    rw [calls] at found
    rcases (PMap.set_eq_some_iff ..).mp found with ⟨_, rfl⟩ | ⟨_, before⟩
    · exact prepares
    · exact barren.calls call attempt before
  cases proposerMove_of_step taken with
  | idle same reactions =>
      constructor
      · intro call attempt found
        obtain ⟨earlier, foundBefore, settled⟩ := same.earlier found
        have before := barren.calls call earlier foundBefore
        rwa [← earlier.isPreparing_settled, settled,
          attempt.isPreparing_settled] at before
      · intro proposal multicastAddress numPeers member
        have reaction := reactions _ member
        simp [Output.isReaction] at reaction
  | prepare none calls outputs => exact ⟨goesOn calls rfl, by simp [outputs]⟩
  | startPreparationTimer found calls outputs =>
      exact ⟨goesOn calls rfl, by simp [outputs]⟩
  | reject found rejected calls outputs =>
      exact ⟨goesOn calls rfl, by simp [outputs]⟩
  | exhaust found passed failed calls outputs =>
      rw [barren.preparationRejected hasPeers] at passed
      cases passed
  | choose found canPop passed chosen calls outputs =>
      rw [barren.preparationRejected hasPeers] at passed
      cases passed
  | propose found calls outputs => cases barren.calls _ _ found
  | startProposalTimer found calls outputs => cases barren.calls _ _ found
  | «return» found enough calls outputs => cases barren.calls _ _ found
  | giveUp found calls outputs => cases barren.calls _ _ found

/-- No address is stored, accepted or sent. -/
theorem Barren.acceptor_of_step (barren : ganglion.Barren)
    (blank : input.IsBlank)
    (taken : ganglion.step host input = some result) :
    (∀ name entry, result.1.proposals name = some entry →
      entry.multicastIp = none) ∧
      (∀ neuron message, Output.transmit neuron message ∈ result.2 →
        message.dumps.data = none) ∧
      ∀ proposal, Output.accept proposal ∈ result.2 →
        proposal.multicastIp = none := by
  have write {name : String} {written : PlexoProposal}
      (stores : result.1.proposals = ganglion.proposals.set name written)
      (noAddress : written.multicastIp = none) :
      ∀ other entry, result.1.proposals other = some entry →
        entry.multicastIp = none := by
    intro other entry found
    rw [stores] at found
    rcases (PMap.set_eq_some_iff ..).mp found with ⟨_, rfl⟩ | ⟨_, before⟩
    · exact noAddress
    · exact barren.stored other entry before
  cases acceptorMove_of_step taken with
  | idle unchanged quiet =>
      refine ⟨?_, ?_, ?_⟩
      · rw [unchanged]
        exact barren.stored
      · intro neuron message member
        have silent := quiet _ member
        cases message with
        | promise body => cases silent
        | proposal body => cases silent
        | approval body => cases silent
        | _ => rfl
      · intro proposal member
        have silent := quiet _ member
        cases silent
  | @promise preparation foreign newer stores outputs =>
      have current : (ganglion.proposals preparation.typeName).bind
          (·.multicastIp) = none := by
        cases found : ganglion.proposals preparation.typeName with
        | none => rfl
        | some entry => exact barren.stored _ entry found
      refine ⟨write stores current, ?_, by simp [outputs]⟩
      intro neuron message member
      rw [outputs, List.mem_singleton] at member
      cases member
      exact current
  | @accept proposal stored found same stores outputs =>
      have noAddress : proposal.multicastIp = none := blank.2
      refine ⟨write stores noAddress, ?_, ?_⟩
      · intro neuron message member
        have isApproval : neuron = .approval ∧
            message = .approval (approvalFor proposal) := by
          simpa [outputs] using member
        obtain ⟨rfl, rfl⟩ := isApproval
        exact noAddress
      · intro accepted member
        obtain rfl : accepted = proposal := by simpa [outputs] using member
        exact noAddress
  | propose found stores outputs => cases barren.calls _ _ found

theorem Barren.step (barren : ganglion.Barren) (hasPeers : 0 < ganglion.numPeers)
    (blank : input.IsBlank)
    (taken : ganglion.step host input = some result) :
    result.1.Barren ∧ ∀ output ∈ result.2, output.IsBlank := by
  obtain ⟨calls, returns⟩ := barren.calls_of_step hasPeers taken
  obtain ⟨stored, noData, accepts⟩ := barren.acceptor_of_step blank taken
  constructor
  · refine ⟨?_, stored, ?_, calls, ?_⟩
    · intro name
      have follows := (booksFollow_of_step name taken).preparationPromises
      have notCollected : ganglion.collectsPromise name input = false := by
        cases input with
        | own action => rfl
        | receive message =>
            cases message with
            | promise body => exact absurd rfl blank.1
            | _ => rfl
      rw [notCollected, barren.promises name] at follows
      simpa using follows
    · intro approval pending
      rcases approving_of_step taken pending with old | ⟨proposal, accepted, rfl⟩
      · exact barren.approving approval old
      · exact accepts proposal accepted
    · intro name isUser
      rcases relocation_of_step taken with
        still | ⟨_, multicastAddress, places, _⟩
      · rw [still.synapses]
        exact barren.users name isUser
      · cases places with
        | create found => cases barren.calls _ _ found
        | @commit _ approval _ counts commits =>
            obtain ⟨_, _, _, carried⟩ := commits
            have noAddress : approval.multicastIp = none := by
              cases input with
              | receive message =>
                  cases message with
                  | approval body =>
                      obtain rfl : body = approval := Option.some.inj counts
                      exact blank.2
                  | _ => cases counts
              | own action =>
                  cases action with
                  | approve body =>
                      obtain rfl : body = approval := Option.some.inj counts
                      have acted : ganglion.act host (.approve body) =
                          some result := taken
                      cases ownStep_of_act acted with
                      | approve pending => exact barren.approving body pending
                  | _ => cases counts
            simp [noAddress] at carried
  · intro output member
    cases output with
    | transmit neuron message =>
        refine ⟨?_, noData neuron message member⟩
        rcases transmits_of_step taken member with
          ⟨rfl, notPromise⟩ | ⟨rfl, _⟩
        · exact notPromise
        · simp
    | «return» proposal multicastAddress numPeers =>
        exact returns _ _ _ member
    | _ => trivial

end Step

end GanglionPlexoMulticast

namespace Network

variable {N : Nat}

/-- A group that nothing has come to of what consensus is for. -/
structure Barren (network : Network N) : Prop where
  ganglia : ∀ instance_, (network.ganglion instance_).Barren
  inFlight : ∀ envelope ∈ network.inFlight,
    envelope.message.IsBlank envelope.neuron
  returns : network.returns = []

def HavePeers (network : Network N) : Prop :=
  ∀ instance_, 0 < (network.ganglion instance_).numPeers

instance (network : Network N) : Decidable network.HavePeers :=
  inferInstanceAs (Decidable (∀ _, _))

theorem Barren.step {host : Fin N → Host} {network next : Network N}
    {action : NetworkAction N} (barren : network.Barren)
    (havePeers : network.HavePeers)
    (taken : network.step byNeuron host action = some next) :
    next.Barren := by
  cases move_of_step taken with
  | lose chosen =>
      exact ⟨barren.ganglia, fun envelope member =>
        barren.inFlight envelope (List.mem_of_mem_erase member),
        barren.returns⟩
  | @take instance_ input before result ready resultTaken =>
      have blank : input.IsBlank := by
        cases ready with
        | own => trivial
        | receive member => exact loads_isBlank (barren.inFlight _ member)
      have fewer : ∀ envelope ∈ before.inFlight,
          envelope ∈ network.inFlight := by
        cases ready with
        | own => exact fun _ member => member
        | receive _ => exact fun _ member => List.mem_of_mem_erase member
      obtain ⟨barrenAfter, outputs⟩ := (barren.ganglia instance_).step
        (havePeers instance_) blank resultTaken
      refine ⟨?_, ?_, ?_⟩
      · intro other
        by_cases same : other = instance_
        · subst same
          rw [record_ganglion_self]
          exact barrenAfter
        · rw [record_ganglion_other _ _ same, ready.ganglion_eq]
          exact barren.ganglia other
      · intro envelope member
        rcases List.mem_append.mp member with old | new
        · exact barren.inFlight envelope (fewer envelope old)
        · obtain ⟨output, isOutput, copy⟩ := List.mem_flatMap.mp new
          have blankOutput := outputs output isOutput
          cases output with
          | transmit neuron message =>
              obtain ⟨target, _, rfl⟩ := List.mem_map.mp copy
              exact blankOutput
          | _ => cases copy
      · rw [List.eq_nil_iff_forall_not_mem]
        intro claim member
        rcases mem_returns_record.mp member with ⟨output, new, returned⟩ | old
        · have blankOutput := outputs output new
          cases output with
          | «return» => exact blankOutput
          | _ => cases returned
        · have sameReturns : before.returns = network.returns := by
            unfold Network.returns
            rw [ready.history_eq]
          rw [sameReturns, barren.returns] at old
          cases old

theorem barren_started (host : Fin N → Host) (multicastCidr : IPNetwork)
    (instanceId : Fin N → Nat) (filters : Fin N → Filters) :
    (started host multicastCidr instanceId filters).Barren := by
  refine ⟨?_, by simp [started, ofGanglia],
    by simp [started, ofGanglia, returns]⟩
  intro instance_
  have idle := GanglionPlexoMulticast.started_idle (host instance_)
    multicastCidr (instanceId instance_) (N - 1) (filters instance_)
  have starts := Registry.starts_startup (host instance_) multicastCidr
    (filters instance_)
  refine ⟨fun name => congrFun idle.promises name, ?_, ?_, ?_, ?_⟩
  · intro name entry found
    cases found
  · intro approval pending
    cases pending
  · intro call attempt found
    cases found
  · intro name isUser
    rw [Option.eq_none_iff_forall_ne_some]
    intro synapse found
    obtain ⟨neuron, same⟩ := starts.protocol found
    exact isUser neuron same

end Network

/-- In every run of a group as startup wires it, as long as every instance
believes that it has a peer, no call returns an address, no instance has a
synapse for a type of a user, and every promise check ends the attempt with
`PreparationRejection`. -/
theorem as_wired_nobody_meets {N : Nat} {host : Fin N → Host}
    {multicastCidr : IPNetwork} {instanceId : Fin N → Nat}
    {filters : Fin N → Filters}
    {steps : List (Network N × NetworkAction N)} {finish : Network N}
    (path : Path (Network.step byNeuron host)
      (.started host multicastCidr instanceId filters) steps finish)
    (havePeers : Along (fun network _ => network.HavePeers) steps) :
    finish.returns = [] ∧
      (∀ instance_ name, IsUserType name →
        (finish.ganglion instance_).registry.base.synapses name = none) ∧
      ∀ instance_ call popped preparation cancelled next,
        0 < (finish.ganglion instance_).numPeers →
        (finish.ganglion instance_).calls call =
          some (.awaitingPromises preparation cancelled) →
        finish.step byNeuron host (.act instance_
          (.checkPromises call popped)) = some next →
        (next.ganglion instance_).calls call =
          some (.raised preparation.typeName
            (.preparationRejection preparation.typeName)) := by
  have barren : finish.Barren := by
    apply path.invariant havePeers
      (Network.barren_started host multicastCidr instanceId filters)
    intro network action next barren havePeers taken
    exact barren.step havePeers taken
  refine ⟨barren.returns, fun instance_ => (barren.ganglia instance_).users, ?_⟩
  intro instance_ call popped preparation cancelled next hasPeers found taken
  obtain ⟨result, acted, rfl⟩ := Option.map_eq_some_iff.mp
    (show ((finish.ganglion instance_).act (host instance_)
      (.checkPromises call popped)).map (finish.record instance_) =
        some next from taken)
  rw [Network.record_ganglion_self]
  cases GanglionPlexoMulticast.ownStep_of_act acted with
  | @checkPromises _ other _ _ foundAgain canPop =>
      rw [found] at foundAgain
      obtain ⟨⟩ := foundAgain
      have rejected := (barren.ganglia instance_).preparationRejected hasPeers
        preparation.typeName
      unfold GanglionPlexoMulticast.checkPromises
      dsimp only
      rw [if_pos rejected]
      exact PMap.set_self _ _ _

namespace AsWired

/-- Two instances prepare the same type; the third one answers both, and its
second promise reaches the first instance. -/
def prepares : List (NetworkAction 3) :=
  let preparation : PlexoPreparation := ⟨10, 1, "dev.plexo.Foo.json"⟩
  let later : PlexoPreparation := ⟨11, 2, "dev.plexo.Foo.json"⟩
  [.act Trio.first (.prepare 0 "dev.plexo.Foo.json" 1),
    .act Trio.first (.startPreparationTimer 0),
    .act Trio.second (.prepare 0 "dev.plexo.Foo.json" 2),
    .deliver ⟨Trio.first, Trio.third, .preparation, .preparation preparation⟩,
    .deliver ⟨Trio.second, Trio.third, .preparation, .preparation later⟩,
    .deliver ⟨Trio.third, Trio.first, .proposal,
      .promise (promiseFor none preparation)⟩]

def waiting : Network 3 :=
  (exec (Network.step byNeuron fun _ => .permissive) (.sample 3)
    prepares).getD (.sample 3)

theorem exec_prepares :
    exec (Network.step byNeuron fun _ => .permissive) (.sample 3) prepares =
      some waiting :=
  exec_eq_getD (by decide +kernel)

end AsWired

theorem as_wired_nobody_meets_prepares :
    ∃ steps next,
      Path (Network.step byNeuron fun _ => .permissive) (.sample 3) steps
        AsWired.waiting ∧
      AsWired.waiting.step byNeuron (fun _ => .permissive)
        (.act Trio.first (.checkPromises 0 Rendezvous.address)) = some next ∧
      (next.ganglion Trio.first).calls 0 =
        some (.raised "dev.plexo.Foo.json"
          (.preparationRejection "dev.plexo.Foo.json")) := by
  have path := path_of_exec AsWired.exec_prepares
  have checks : (AsWired.waiting.step byNeuron (fun _ => .permissive)
      (.act Trio.first (.checkPromises 0 Rendezvous.address))).isSome =
        true := by decide +kernel
  obtain ⟨next, taken⟩ := Option.isSome_iff_exists.mp checks
  have fails := (as_wired_nobody_meets path (by decide +kernel)).2.2 Trio.first
    0 Rendezvous.address ⟨10, 1, "dev.plexo.Foo.json"⟩ false next
    (by decide +kernel) (by decide +kernel) taken
  exact ⟨_, next, path, taken, fails⟩

end Plexo
