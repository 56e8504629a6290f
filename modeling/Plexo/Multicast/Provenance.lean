import Plexo.Multicast.Dedicated
import Plexo.Multicast.Learning

/-!
# Where addresses come from

Addresses travel from the instance that takes a fresh one from its lease manager
through proposals, approvals, stored entries and promises to the other instances
and to later ballots; nothing on the way makes one up.  So whatever is true of
every fresh address a call takes for its type is true of all addresses in the
system.
-/

namespace Plexo

open PersistentMap Transition

/-- Says of an address that it may be used for a type. -/
abbrev Allowance : Type := String → Packed → Prop

def PlexoApproval.address? (approval : PlexoApproval) :
    Option (String × Packed) :=
  approval.multicastIp.map (approval.typeName, ·)

/-- A receiver makes no address up. -/
def KeepsAddresses (decoding : Decoding) : Prop :=
  ∀ neuron message claim, (decoding neuron message).address? = some claim →
    message.address? = some claim

theorem keepsAddresses_ownType : KeepsAddresses ownType :=
  fun _ _ _ address => address

/-- The types and addresses of promises, proposals and approvals stand in the
same places of the encoded messages. -/
theorem keepsAddresses_byNeuron : KeepsAddresses byNeuron := by
  intro neuron message claim address
  cases neuron <;> cases message <;>
    simp_all [byNeuron, Message.dumps, CapnpStruct.loads, CapnpStruct.typeName,
      Message.address?]

namespace Network

variable {N : Nat}

/-- All addresses in the system may be used for the type they are used for. -/
structure Carries (allowed : Allowance) (network : Network N) : Prop where
  conserved : network.Conserved
  collected : ∀ proposer name,
    ∀ promise ∈ (network.ganglion proposer).collectedPromises name,
      promise.typeName = name ∧ ∀ multicastIp,
        promise.multicastIp = some multicastIp → allowed name multicastIp
  sent : ∀ source neuron message name multicastIp,
    (source, Output.transmit neuron message) ∈ network.history →
    message.address? = some (name, multicastIp) → allowed name multicastIp
  stored : ∀ acceptor name entry multicastIp,
    (network.ganglion acceptor).proposals name = some entry →
    entry.multicastIp = some multicastIp → allowed name multicastIp
  calls : ∀ proposer call attempt name multicastAddress,
    (network.ganglion proposer).calls call = some attempt →
    attempt.address? = some (name, multicastAddress) →
    allowed name multicastAddress.packed
  pending : ∀ acceptor, ∀ approval ∈ (network.ganglion acceptor).approving,
    ∀ name multicastIp, approval.address? = some (name, multicastIp) →
      allowed name multicastIp
  returned : ∀ claim ∈ network.returns, allowed claim.1 claim.2.packed

/-- Every fresh address that a call settles on in this step may be used for the
type of the call. -/
def TakesAllowed (allowed : Allowance) (network : Network N)
    (action : NetworkAction N) (next : Network N) : Prop :=
  ∀ proposer call popped preparation cancelled multicastAddress,
    action = .act proposer (.checkPromises call popped) →
    (network.ganglion proposer).calls call =
      some (.awaitingPromises preparation cancelled) →
    (network.ganglion proposer).CanPop popped →
    ((network.ganglion proposer).registry.ipLeaseManager.getAddress
      popped).1 = .ok multicastAddress →
    (preparation.typeName, multicastAddress) ∈ next.claims →
    allowed preparation.typeName multicastAddress.packed

theorem carries_ofGanglia {ganglion : Fin N → GanglionPlexoMulticast}
    (allowed : Allowance) (idle : ∀ instance_, (ganglion instance_).Idle) :
    (ofGanglia ganglion).Carries allowed := by
  refine ⟨(accounted_ofGanglia idle).conserved, ?_, by simp [ofGanglia],
    ?_, ?_, ?_, by simp [ofGanglia, returns]⟩
  · intro proposer name promise member
    simp [ofGanglia, GanglionPlexoMulticast.collectedPromises,
      (idle proposer).promises] at member
  · intro acceptor name entry multicastIp found
    simp [ofGanglia, (idle acceptor).proposals] at found
  · intro proposer call attempt name multicastAddress found
    simp [ofGanglia, (idle proposer).calls] at found
  · intro acceptor approval queued
    simp [ofGanglia, (idle acceptor).approving] at queued

theorem Carries.mono {allowed more : Allowance} {network : Network N}
    (carries : network.Carries allowed)
    (weaker : ∀ name multicastIp, allowed name multicastIp →
      more name multicastIp) : network.Carries more where
  conserved := carries.conserved
  collected proposer name promise member :=
    ⟨(carries.collected proposer name promise member).1, fun _ address =>
      weaker _ _
        ((carries.collected proposer name promise member).2 _ address)⟩
  sent source neuron message _ _ member address :=
    weaker _ _ (carries.sent source neuron message _ _ member address)
  stored acceptor _ entry _ found address :=
    weaker _ _ (carries.stored acceptor _ entry _ found address)
  calls proposer call attempt _ _ found address :=
    weaker _ _ (carries.calls proposer call attempt _ _ found address)
  pending acceptor approval queued _ _ address :=
    weaker _ _ (carries.pending acceptor approval queued _ _ address)
  returned claim member := weaker _ _ (carries.returned claim member)

section Step

variable {allowed : Allowance} {decoding : Decoding} {host : Fin N → Host}
  {network before next : Network N} {action : NetworkAction N}
  {instance_ : Fin N} {input : Input}
  {result : GanglionPlexoMulticast × List Output}

theorem Carries.of_receive (carries : network.Carries allowed)
    (keeps : KeepsAddresses decoding) {message : Message}
    (ready : Readied decoding network action instance_ (.receive message)
      before) {name : String} {multicastIp : Packed}
    (address : message.address? = some (name, multicastIp)) :
    allowed name multicastIp := by
  cases ready with
  | @receive envelope waiting =>
      have sentAs : Readied ownType network (.deliver envelope) envelope.target
          (.receive envelope.message) (network.handOver envelope) :=
        .receive waiting
      obtain ⟨source, neuron, _, sent⟩ :=
        sentAs.sent_of_receive carries.conserved
      exact carries.sent source neuron _ _ _ sent (keeps _ _ _ address)

theorem Carries.collect (carries : network.Carries allowed)
    (keeps : KeepsAddresses decoding)
    (ready : Readied decoding network action instance_ input before)
    (taken : (network.ganglion instance_).step (host instance_) input =
      some result) (name : String) :
    ∀ promise ∈ result.1.collectedPromises name,
      promise.typeName = name ∧ ∀ multicastIp,
        promise.multicastIp = some multicastIp → allowed name multicastIp := by
  intro promise member
  have either := (GanglionPlexoMulticast.collectedPromises_of_step taken
    name).subset (List.mem_reverse.mpr member)
  rcases List.mem_append.mp either with new | old
  · cases input with
    | own _ => cases new
    | receive message =>
        cases message with
        | promise body =>
            simp only [Input.promise?, Message.promise?] at new
            split at new
            · next sameName =>
                obtain rfl : promise = body := List.mem_singleton.mp new
                refine ⟨sameName, fun multicastIp address => ?_⟩
                exact carries.of_receive keeps ready
                  (by simp [Message.address?, address, sameName])
            · cases new
        | _ => cases new
  · exact carries.collected instance_ name promise (List.mem_reverse.mp old)

theorem Carries.write (carries : network.Carries allowed)
    {ganglion : GanglionPlexoMulticast} (written : PlexoProposal)
    (stores : ganglion.proposals = (network.ganglion instance_).proposals.set
      written.typeName written)
    (may : ∀ multicastIp, written.multicastIp = some multicastIp →
      allowed written.typeName multicastIp)
    (name : String) (entry : PlexoProposal) (multicastIp : Packed)
    (found : ganglion.proposals name = some entry)
    (address : entry.multicastIp = some multicastIp) :
    allowed name multicastIp := by
  rw [stores] at found
  rcases (PMap.set_eq_some_iff ..).mp found with ⟨rfl, rfl⟩ | ⟨_, old⟩
  · exact may multicastIp address
  · exact carries.stored instance_ name entry multicastIp old address

theorem Carries.current (carries : network.Carries allowed)
    {name : String} {multicastIp : Packed}
    (found : ((network.ganglion instance_).proposals name).bind
      (·.multicastIp) = some multicastIp) : allowed name multicastIp := by
  obtain ⟨entry, stored, address⟩ := Option.bind_eq_some_iff.mp found
  exact carries.stored instance_ _ entry multicastIp stored address

theorem Carries.acceptor (carries : network.Carries allowed)
    (keeps : KeepsAddresses decoding)
    (ready : Readied decoding network action instance_ input before)
    (taken : (network.ganglion instance_).step (host instance_) input =
      some result) :
    (∀ neuron message name multicastIp,
      Output.transmit neuron message ∈ result.2 →
      message.address? = some (name, multicastIp) →
      allowed name multicastIp) ∧
    (∀ proposal multicastIp, Output.accept proposal ∈ result.2 →
      proposal.multicastIp = some multicastIp →
      allowed proposal.typeName multicastIp) ∧
    ∀ name entry multicastIp, result.1.proposals name = some entry →
      entry.multicastIp = some multicastIp → allowed name multicastIp := by
  cases GanglionPlexoMulticast.acceptorMove_of_step taken with
  | idle unchanged quiet =>
      refine ⟨?_, ?_, ?_⟩
      · intro neuron message name multicastIp member address
        have silent := quiet _ member
        cases message <;>
          simp [Output.isQuiet, Message.address?] at silent address
      · intro proposal multicastIp member
        have silent := quiet _ member
        cases silent
      · rw [unchanged]
        exact carries.stored instance_
  | @promise preparation foreign newer stores outputs =>
      refine ⟨?_, by simp [outputs],
        carries.write (promisedProposal _ preparation) stores
          fun _ found => carries.current found⟩
      intro neuron message name multicastIp member address
      rw [outputs, List.mem_singleton] at member
      cases member
      obtain ⟨bytes, found, same⟩ := Option.map_eq_some_iff.mp address
      cases same
      exact carries.current found
  | @accept proposal stored found same stores outputs =>
      have may : ∀ multicastIp, proposal.multicastIp = some multicastIp →
          allowed proposal.typeName multicastIp := by
        intro multicastIp address
        exact carries.of_receive keeps ready
          (by simp [Message.address?, address])
      refine ⟨?_, ?_, carries.write _ stores may⟩
      · intro neuron message name multicastIp member address
        have isApproval : neuron = .approval ∧
            message = .approval (approvalFor proposal) := by
          simpa [outputs] using member
        obtain ⟨rfl, rfl⟩ := isApproval
        obtain ⟨bytes, found, same⟩ := Option.map_eq_some_iff.mp address
        cases same
        exact may _ found
      · intro accepted multicastIp member address
        obtain rfl : accepted = proposal := by simpa [outputs] using member
        exact may multicastIp address
  | @propose call preparation promises multicastAddress found stores outputs =>
      have may : ∀ multicastIp, (proposalFor preparation
          multicastAddress).multicastIp = some multicastIp →
          allowed preparation.typeName multicastIp := by
        intro multicastIp address
        cases address
        exact carries.calls instance_ call _ _ _ found rfl
      refine ⟨?_, ?_, carries.write _ stores may⟩
      · intro neuron message name multicastIp member address
        have isProposal : neuron = .proposal ∧
            message = .proposal (proposalFor preparation multicastAddress) := by
          simpa [outputs] using member
        obtain ⟨rfl, rfl⟩ := isProposal
        cases address
        exact may _ rfl
      · intro accepted multicastIp member address
        obtain rfl : accepted = proposalFor preparation multicastAddress := by
          simpa [outputs] using member
        exact may multicastIp address

theorem Carries.choose (carries : network.Carries allowed)
    (takes : network.TakesAllowed allowed action next) {call : CallId}
    {popped multicastAddress : IPAddress} {preparation : PlexoPreparation}
    {cancelled : Bool}
    (chosenAction : action = .act instance_ (.checkPromises call popped))
    (found : (network.ganglion instance_).calls call =
      some (.awaitingPromises preparation cancelled))
    (canPop : (network.ganglion instance_).CanPop popped)
    (chosen : (GanglionPlexoMulticast.chooseAddress
      (network.ganglion instance_).registry
      ((network.ganglion instance_).collectedPromises preparation.typeName)
      popped).1 = .ok multicastAddress)
    (claimed : (preparation.typeName, multicastAddress) ∈ next.claims) :
    allowed preparation.typeName multicastAddress.packed := by
  rcases GanglionPlexoMulticast.chooseAddress_ok chosen with
    ⟨newest, selected, address⟩ | ⟨_, fresh⟩
  · exact (carries.collected instance_ _ _
      (newestPromise_some selected).1).2 _ address
  · exact takes instance_ call popped preparation cancelled _ chosenAction found
      canPop fresh claimed

theorem Carries.goesOn (carries : network.Carries allowed)
    {ganglion : GanglionPlexoMulticast} {call : CallId} {later : Attempt}
    (calls : ganglion.calls =
      (network.ganglion instance_).calls.set call later)
    (may : ∀ name multicastAddress,
      later.address? = some (name, multicastAddress) →
      allowed name multicastAddress.packed)
    (other : CallId) (attempt : Attempt) (name : String)
    (multicastAddress : IPAddress)
    (found : ganglion.calls other = some attempt)
    (address : attempt.address? = some (name, multicastAddress)) :
    allowed name multicastAddress.packed := by
  rw [calls] at found
  rcases (PMap.set_eq_some_iff ..).mp found with ⟨_, rfl⟩ | ⟨_, before⟩
  · exact may name multicastAddress address
  · exact carries.calls instance_ other attempt name multicastAddress before
      address

theorem Carries.proposer (carries : network.Carries allowed)
    (takes : network.TakesAllowed allowed action
      (before.record instance_ result))
    (ready : Readied decoding network action instance_ input before)
    (taken : (network.ganglion instance_).step (host instance_) input =
      some result) :
    (∀ call attempt name multicastAddress,
      result.1.calls call = some attempt →
      attempt.address? = some (name, multicastAddress) →
      allowed name multicastAddress.packed) ∧
    ∀ output ∈ result.2, ∀ claim, output.returned? = some claim →
      allowed claim.1 claim.2.packed := by
  have old := carries.calls instance_
  cases GanglionPlexoMulticast.proposerMove_of_step taken with
  | idle same reactions =>
      constructor
      · intro call attempt name multicastAddress found address
        obtain ⟨earlier, foundBefore, settled⟩ := same.earlier found
        refine old call earlier name multicastAddress foundBefore ?_
        rw [← earlier.address?_settled, settled, attempt.address?_settled,
          address]
      · intro output member claim returned
        have reaction := reactions output member
        cases output with
        | «return» => simp [Output.isReaction] at reaction
        | _ => simp [Output.returned?] at returned
  | prepare none calls outputs =>
      exact ⟨carries.goesOn calls (by simp [Attempt.address?]),
        by simp [outputs, Output.returned?]⟩
  | startPreparationTimer found calls outputs =>
      exact ⟨carries.goesOn calls (by simp [Attempt.address?]),
        by simp [outputs]⟩
  | reject found rejected calls outputs =>
      exact ⟨carries.goesOn calls (by simp [Attempt.address?]),
        by simp [outputs]⟩
  | exhaust found passed failed calls outputs =>
      exact ⟨carries.goesOn calls (by simp [Attempt.address?]),
        by simp [outputs, Output.returned?]⟩
  | @choose call preparation cancelled popped multicastAddress found canPop
      passed chosen calls outputs =>
      refine ⟨carries.goesOn calls ?_, by simp [outputs, Output.returned?]⟩
      intro name address same
      cases same
      cases ready with
      | own =>
          refine carries.choose takes rfl found canPop chosen ?_
          exact mem_claims_record.mpr (.inl
            ⟨.choose preparation multicastAddress, by simp [outputs], rfl⟩)
  | propose found calls outputs =>
      exact ⟨carries.goesOn calls fun name address same =>
          old _ _ name address found same,
        by simp [outputs, Output.returned?]⟩
  | startProposalTimer found calls outputs =>
      exact ⟨carries.goesOn calls fun name address same =>
        old _ _ name address found same, by simp [outputs]⟩
  | «return» found enough calls outputs =>
      refine ⟨carries.goesOn calls fun name address same =>
        old _ _ name address found same, ?_⟩
      intro output member claim returned
      rw [outputs, List.mem_singleton] at member
      subst member
      cases returned
      exact old _ _ _ _ found rfl
  | giveUp found calls outputs =>
      exact ⟨carries.goesOn calls (by simp [Attempt.address?]),
        by simp [outputs]⟩

theorem Carries.record (carries : network.Carries allowed)
    (keeps : KeepsAddresses decoding)
    (takes : network.TakesAllowed allowed action
      (before.record instance_ result))
    (ready : Readied decoding network action instance_ input before)
    (taken : (network.ganglion instance_).step (host instance_) input =
      some result) :
    (before.record instance_ result).Carries allowed := by
  obtain ⟨sends, accepts, stores⟩ := carries.acceptor keeps ready taken
  obtain ⟨calls, returns⟩ := carries.proposer takes ready taken
  have sameReturns : before.returns = network.returns := by
    unfold Network.returns
    rw [ready.history_eq]
  refine ⟨(ready.conserved carries.conserved).record _ _, ?_, ?_, ?_, ?_, ?_,
    ?_⟩
  · intro proposer name promise member
    by_cases same : proposer = instance_
    · subst same
      rw [record_ganglion_self] at member
      exact carries.collect keeps ready taken name promise member
    · rw [record_ganglion_other _ _ same, ready.ganglion_eq] at member
      exact carries.collected proposer name promise member
  · intro source neuron message name multicastIp member address
    rcases mem_record_history.mp member with ⟨_, new⟩ | old
    · exact sends neuron message name multicastIp new address
    · rw [ready.history_eq] at old
      exact carries.sent source neuron message name multicastIp old address
  · intro acceptor name entry multicastIp found address
    by_cases same : acceptor = instance_
    · subst same
      rw [record_ganglion_self] at found
      exact stores name entry multicastIp found address
    · rw [record_ganglion_other _ _ same, ready.ganglion_eq] at found
      exact carries.stored acceptor name entry multicastIp found address
  · intro proposer call attempt name multicastAddress found address
    by_cases same : proposer = instance_
    · subst same
      rw [record_ganglion_self] at found
      exact calls call attempt name multicastAddress found address
    · rw [record_ganglion_other _ _ same, ready.ganglion_eq] at found
      exact carries.calls proposer call attempt name _ found address
  · intro acceptor approval queued name multicastIp address
    by_cases same : acceptor = instance_
    · subst same
      rw [record_ganglion_self] at queued
      rcases GanglionPlexoMulticast.approving_of_step taken queued with
        old | ⟨proposal, accepted, rfl⟩
      · exact carries.pending acceptor approval old name multicastIp address
      · obtain ⟨bytes, found, same⟩ := Option.map_eq_some_iff.mp address
        cases same
        exact accepts proposal _ accepted found
    · rw [record_ganglion_other _ _ same, ready.ganglion_eq] at queued
      exact carries.pending acceptor approval queued name multicastIp address
  · intro claim member
    rcases mem_returns_record.mp member with ⟨output, new, returned⟩ | old
    · exact returns output new claim returned
    · exact carries.returned claim (sameReturns ▸ old)

theorem Carries.step (carries : network.Carries allowed)
    (keeps : KeepsAddresses decoding)
    (takes : network.TakesAllowed allowed action next)
    (taken : network.step decoding host action = some next) :
    next.Carries allowed := by
  have conserved := carries.conserved.step taken
  cases move_of_step taken with
  | lose chosen =>
      exact ⟨conserved, carries.collected, carries.sent, carries.stored,
        carries.calls, carries.pending, carries.returned⟩
  | take ready resultTaken =>
      exact carries.record keeps takes ready resultTaken

theorem Carries.of_approval (carries : network.Carries allowed)
    (keeps : KeepsAddresses decoding)
    (ready : Readied decoding network action instance_ input before)
    (taken : (network.ganglion instance_).step (host instance_) input =
      some result) {approval : PlexoApproval} {multicastIp : Packed}
    (counts : input.approval? = some approval)
    (carried : approval.multicastIp = some multicastIp) :
    allowed approval.typeName multicastIp := by
  cases input with
  | receive message =>
      cases message with
      | approval body =>
          obtain rfl : body = approval := Option.some.inj counts
          exact carries.of_receive keeps ready
            (by simp [Message.address?, carried])
      | _ => cases counts
  | own own =>
      cases own with
      | approve body =>
          obtain rfl : body = approval := Option.some.inj counts
          exact carries.pending instance_ body
            (GanglionPlexoMulticast.queued_of_step taken body rfl) _ _
            (by simp [PlexoApproval.address?, carried])
      | _ => cases counts

end Step

end Network

end Plexo
