import Mathlib.Algebra.BigOperators.Group.Finset.Piecewise
import Mathlib.Algebra.Order.BigOperators.Group.Finset
import Plexo.Multicast.Acceptor
import Plexo.Multicast.Proposer

/-!
# Accounts of a group

What an instance collected is bounded by what was delivered to it, and what was
delivered to it by what the others sent.  Each account is one inequality that
every step of the group preserves; together they relate the counters of one
instance to distinct other instances.
-/

namespace Plexo

open PersistentMap Transition

def Message.promise? (name : String) : Message → Option PlexoPromise
  | .promise body => if body.typeName = name then some body else none
  | _ => none

def Input.promise? (name : String) : Input → Option PlexoPromise
  | .receive message => message.promise? name
  | .own _ => none

def Output.accepts (name : String) (ballot : Ballot) : Output → Bool
  | .accept proposal => proposal.typeName = name && proposal.ballot = ballot
  | _ => false

namespace GanglionPlexoMulticast

def approvalsOf (ganglion : GanglionPlexoMulticast) (name : String)
    (ballot : Ballot) : Nat :=
  (ganglion.proposalApprovals (name, ballot.proposalId, ballot.instanceId)).getD
    0

def approvingOf (ganglion : GanglionPlexoMulticast) (name : String)
    (ballot : Ballot) : Nat :=
  ganglion.approving.countP fun approval =>
    approval.typeName = name && approval.ballot = ballot

theorem commitApproval_accounts (host : Host)
    (ganglion : GanglionPlexoMulticast) (approval : PlexoApproval)
    (name : String) (ballot : Ballot) :
    (ganglion.commitApproval host approval).1.preparationPromises =
        ganglion.preparationPromises ∧
      (ganglion.commitApproval host approval).1.approving =
        ganglion.approving ∧
      (ganglion.commitApproval host approval).1.approvalsOf name ballot ≤
        ganglion.approvalsOf name ballot := by
  unfold commitApproval
  split
  · exact ⟨rfl, rfl, le_rfl⟩
  · split
    · exact ⟨rfl, rfl, le_rfl⟩
    · split
      · exact ⟨rfl, rfl, le_rfl⟩
      · refine ⟨rfl, rfl, ?_⟩
        simp only [approvalsOf, PMap.discard_apply]
        split <;> simp

theorem approvalsOf_countApproval (ganglion : GanglionPlexoMulticast)
    (approval : PlexoApproval) (name : String) (ballot : Ballot) :
    (ganglion.countApproval approval.key).approvalsOf name ballot ≤
      ganglion.approvalsOf name ballot +
        if (Message.approval approval).isFor .approval name ballot = true
        then 1 else 0 := by
  have sameKey : (name, ballot.proposalId, ballot.instanceId) = approval.key ↔
      approval.typeName = name ∧ approval.ballot = ballot := by
    constructor
    · intro same
      obtain ⟨proposalId, instanceId⟩ := ballot
      simp only [PlexoApproval.key, Prod.mk.injEq] at same
      simp [PlexoApproval.ballot, same]
    · rintro ⟨rfl, rfl⟩
      rfl
  simp only [approvalsOf, countApproval, PMap.set_apply, Message.isFor_approval,
    sameKey, true_and]
  split
  · next same =>
      rw [← sameKey.mpr same]
      simp [newApprovalsNum]
  · simp

theorem approvalReaction_accounts (host : Host)
    (ganglion : GanglionPlexoMulticast) (approval : PlexoApproval)
    (name : String) (ballot : Ballot) :
    (ganglion.approvalReaction host approval).1.preparationPromises =
        ganglion.preparationPromises ∧
      (ganglion.approvalReaction host approval).1.approving =
        ganglion.approving ∧
      (ganglion.approvalReaction host approval).1.approvalsOf name ballot ≤
        ganglion.approvalsOf name ballot +
          if (Message.approval approval).isFor .approval name ballot = true
          then 1 else 0 := by
  have counted := approvalsOf_countApproval ganglion approval name ballot
  unfold approvalReaction
  dsimp only
  split
  · split
    · exact ⟨rfl, rfl, counted⟩
    · obtain ⟨promises, approving, fewer⟩ := commitApproval_accounts host
        (ganglion.countApproval approval.key) approval name ballot
      exact ⟨promises, approving, le_trans fewer counted⟩
  · exact ⟨rfl, rfl, counted⟩

/-- The promises collected for a type are among those before the step and the
one received in it, in the order in which they were received. -/
theorem collectedPromises_of_step {host : Host}
    {ganglion : GanglionPlexoMulticast} {input : Input}
    {result : GanglionPlexoMulticast × List Output}
    (taken : ganglion.step host input = some result) (name : String) :
    List.Sublist (result.1.collectedPromises name).reverse
      ((input.promise? name).toList ++
        (ganglion.collectedPromises name).reverse) := by
  have unchanged (same : result.1.preparationPromises =
      ganglion.preparationPromises) :
      List.Sublist (result.1.collectedPromises name).reverse
        ((input.promise? name).toList ++
          (ganglion.collectedPromises name).reverse) := by
    simp only [collectedPromises, same]
    exact List.sublist_append_right _ _
  cases input with
  | own action =>
      cases ownStep_of_act taken with
      | @checkPromises call preparation cancelled popped found canPop =>
          have cleared : (ganglion.checkPromises call preparation
              popped).1.preparationPromises =
                ganglion.preparationPromises.discard preparation.typeName := by
            unfold checkPromises
            dsimp only
            split
            · rfl
            · split <;> rfl
          simp only [collectedPromises, cleared, PMap.discard_apply]
          split
          · simp
          · exact List.sublist_append_right _ _
      | @approve approval pending =>
          exact unchanged (approvalReaction_accounts host _ approval name
            ⟨0, 0⟩).1
      | checkApprovals found =>
          apply unchanged
          unfold checkApprovals
          dsimp only
          split <;> rfl
      | _ => exact unchanged rfl
  | receive message =>
      obtain rfl : ganglion.react host message = result := Option.some.inj taken
      cases message with
      | promise promise =>
          simp only [react, promiseReaction]
          split
          · exact List.sublist_append_right _ _
          · simp only [collectedPromises, PMap.set_apply]
            by_cases same : name = promise.typeName
            · subst same
              simp [Input.promise?, Message.promise?]
            · simp only [same, if_false]
              exact List.sublist_append_right _ _
      | approval approval =>
          exact unchanged (approvalReaction_accounts host _ approval name
            ⟨0, 0⟩).1
      | preparation preparation =>
          apply unchanged
          simp only [react, preparationReaction]
          split
          · rfl
          · split <;> rfl
      | rejection rejection =>
          apply unchanged
          simp only [react, rejectionReaction]
          split <;> rfl
      | proposal proposal =>
          apply unchanged
          simp only [react, proposalReaction]
          split
          · rfl
          · split <;> rfl
      | heartbeat body => exact unchanged rfl

/-- Approvals of a ballot are counted once for each one received and once for
each proposal of the ballot received. -/
theorem approvals_of_step {host : Host} {ganglion : GanglionPlexoMulticast}
    {input : Input} {result : GanglionPlexoMulticast × List Output}
    (taken : ganglion.step host input = some result) (name : String)
    (ballot : Ballot) :
    result.1.approvalsOf name ballot + result.1.approvingOf name ballot ≤
      ganglion.approvalsOf name ballot + ganglion.approvingOf name ballot +
        (if input.receives .approval name ballot = true then 1 else 0) +
        (if input.receives .proposal name ballot = true then 1 else 0) := by
  have unchanged (sameApprovals : result.1.proposalApprovals =
      ganglion.proposalApprovals)
      (sameApproving : result.1.approving = ganglion.approving) :
      result.1.approvalsOf name ballot + result.1.approvingOf name ballot ≤
        ganglion.approvalsOf name ballot + ganglion.approvingOf name ballot +
          (if input.receives .approval name ballot = true then 1 else 0) +
          (if input.receives .proposal name ballot = true then 1 else 0) := by
    simp only [approvalsOf, approvingOf, sameApprovals, sameApproving]
    omega
  cases input with
  | own action =>
      cases ownStep_of_act taken with
      | @checkPromises call preparation cancelled popped found canPop =>
          apply unchanged <;>
          · unfold checkPromises
            dsimp only
            split
            · rfl
            · split <;> rfl
      | @checkApprovals call proposal multicastAddress cancelled found =>
          apply unchanged <;>
          · unfold checkApprovals
            dsimp only
            split <;> rfl
      | @approve approval pending =>
          obtain ⟨_, approving, counted⟩ := approvalReaction_accounts host
            { ganglion with approving := ganglion.approving.erase approval }
            approval name ballot
          have erased := Network.countP_erase_add (fun approval : PlexoApproval =>
            approval.typeName = name && approval.ballot = ballot) pending
          simp only [approvingOf, approving]
          simp only [Message.isFor_approval, true_and] at counted
          simp only [approvalsOf] at counted ⊢
          simp only [Bool.and_eq_true, decide_eq_true_eq] at erased
          omega
      | _ => exact unchanged rfl rfl
  | receive message =>
      obtain rfl : ganglion.react host message = result := Option.some.inj taken
      cases message with
      | promise promise =>
          apply unchanged <;>
          · simp only [react, promiseReaction]
            split <;> rfl
      | approval approval =>
          obtain ⟨_, approving, counted⟩ := approvalReaction_accounts host
            ganglion approval name ballot
          simp only [react, approvingOf, approving]
          simp only [Input.receives, Message.isFor_approval] at counted ⊢
          omega
      | preparation preparation =>
          apply unchanged <;>
          · simp only [react, preparationReaction]
            split
            · rfl
            · split <;> rfl
      | rejection rejection =>
          apply unchanged <;>
          · simp only [react, rejectionReaction]
            split <;> rfl
      | proposal proposal =>
          simp only [react, proposalReaction, Input.receives,
            Message.isFor_proposal, true_and]
          split
          · simp
          · split
            · have sameName : (approvalFor proposal).typeName =
                  proposal.typeName := rfl
              by_cases both : proposal.typeName = name ∧
                  proposal.ballot = ballot
              · simp only [approvalsOf, approvingOf, List.countP_cons,
                  approvalFor_ballot, sameName, both, decide_true,
                  Bool.and_self, if_true, and_self]
                omega
              · simp only [not_and] at both
                simp +contextual [approvalsOf, approvingOf, sameName, both]
            · simp
      | heartbeat body => exact unchanged rfl rfl

theorem countP_sends_of_quiet {outputs : List Output} {kind : ProtocolNeuron}
    (quiet : ∀ output ∈ outputs, output.isQuiet = true)
    (loud : kind = .promise ∨ kind = .approval ∨ kind = .proposal)
    (name : String) (ballot : Ballot) :
    outputs.countP (Output.sends kind name ballot) = 0 := by
  rw [List.countP_eq_zero]
  intro output member sends
  have here := quiet output member
  cases output with
  | transmit neuron message =>
      cases message <;> simp [Output.isQuiet] at here <;>
        simp [Output.sends, Output.transmits] at sends <;>
        simp [sends.1] at loud
  | _ => simp [Output.sends, Output.transmits] at sends

theorem countP_promises_of_step {host : Host}
    {ganglion : GanglionPlexoMulticast} {input : Input}
    {result : GanglionPlexoMulticast × List Output}
    (taken : ganglion.step host input = some result) (name : String)
    (ballot : Ballot) :
    result.2.countP (Output.sends .promise name ballot) ≤
      if input.receives .preparation name ballot = true then 1 else 0 := by
  cases acceptorMove_of_step taken with
  | idle unchanged quiet =>
      rw [countP_sends_of_quiet quiet (by simp)]
      exact Nat.zero_le _
  | promise foreign newer stores outputs =>
      rw [outputs, List.countP_singleton]
      simp [Output.sends, Output.transmits, Input.receives, Message.isFor,
        Message.neuron, Message.typeName?, Message.ballot?, promiseFor,
        PlexoPromise.ballot]
  | accept found same stores outputs =>
      rw [outputs]
      simp [Output.sends, Output.transmits, Message.isFor, Message.neuron]
  | propose found stores outputs =>
      rw [outputs]
      simp [Output.sends, Output.transmits, Message.isFor, Message.neuron]

theorem countP_approvals_of_step {host : Host}
    {ganglion : GanglionPlexoMulticast} {input : Input}
    {result : GanglionPlexoMulticast × List Output}
    (taken : ganglion.step host input = some result) (name : String)
    (ballot : Ballot) :
    result.2.countP (Output.sends .approval name ballot) ≤
      if input.receives .proposal name ballot = true then 1 else 0 := by
  cases acceptorMove_of_step taken with
  | idle unchanged quiet =>
      rw [countP_sends_of_quiet quiet (by simp)]
      exact Nat.zero_le _
  | promise foreign newer stores outputs =>
      rw [outputs]
      simp [Output.sends, Output.transmits, Message.isFor, Message.neuron]
  | accept found same stores outputs =>
      rw [outputs]
      simp [Output.sends, Output.transmits, Input.receives, Message.isFor,
        Message.neuron, Message.typeName?, Message.ballot?, approvalFor,
        PlexoApproval.ballot, PlexoProposal.ballot, List.countP_cons]
  | propose found stores outputs =>
      rw [outputs]
      simp [Output.sends, Output.transmits, Message.isFor, Message.neuron]

/-- What is approved is accepted in the same step. -/
theorem accepts_of_approval {host : Host} {ganglion : GanglionPlexoMulticast}
    {input : Input} {result : GanglionPlexoMulticast × List Output}
    (taken : ganglion.step host input = some result) {name : String}
    {ballot : Ballot}
    (approves : ∃ output ∈ result.2,
      output.sends .approval name ballot = true) :
    ∃ output ∈ result.2, output.accepts name ballot = true := by
  obtain ⟨output, member, sends⟩ := approves
  cases acceptorMove_of_step taken with
  | idle unchanged quiet =>
      have none := countP_sends_of_quiet quiet
        (show ProtocolNeuron.approval = _ ∨ _ ∨ _ by simp) name ballot
      exact absurd sends (List.countP_eq_zero.mp none output member)
  | promise foreign newer stores outputs =>
      rw [outputs] at member
      simp only [List.mem_singleton] at member
      subst member
      simp [Output.sends, Output.transmits] at sends
  | @accept proposal current found same stores outputs =>
      refine ⟨.accept proposal, by simp [outputs], ?_⟩
      rw [outputs] at member
      rcases List.mem_pair.mp member with rfl | rfl
      · simp [Output.sends, Output.transmits] at sends
      · have sameName : (approvalFor proposal).typeName =
            proposal.typeName := rfl
        simpa [Output.sends, Output.transmits, Output.accepts, sameName]
          using sends
  | propose found stores outputs =>
      rw [outputs] at member
      rcases List.mem_pair.mp member with rfl | rfl
      · simp [Output.sends, Output.transmits] at sends
      · simp [Output.sends, Output.transmits] at sends

end GanglionPlexoMulticast

namespace Network

variable {N : Nat}

def received (network : Network N) (target : Fin N) (kind : ProtocolNeuron)
    (name : String) (ballot : Ballot) : Nat :=
  network.delivered.countP
    (·.carries target fun _ message => message.isFor kind name ballot)

def receivedPromises (network : Network N) (target : Fin N) (name : String) :
    List PlexoPromise :=
  network.delivered.filterMap fun envelope =>
    if envelope.target = target then envelope.message.promise? name else none

def sent (network : Network N) (source : Fin N) (kind : ProtocolNeuron)
    (name : String) (ballot : Ballot) : Nat :=
  network.history.countP fun entry =>
    entry.1 = source && entry.2.sends kind name ballot

def sentByAny (network : Network N) (kind : ProtocolNeuron) (name : String)
    (ballot : Ballot) : Nat :=
  network.history.countP (·.2.sends kind name ballot)

def acceptors (history : List (Fin N × Output)) (name : String)
    (ballot : Ballot) : Finset (Fin N) :=
  Finset.univ.filter fun acceptor => ∃ entry ∈ history,
    entry.1 = acceptor ∧ entry.2.accepts name ballot = true

/-- The instances other than `proposer` that sent a promise for a ballot. -/
def promisers (history : List (Fin N × Output)) (proposer : Fin N)
    (name : String) (ballot : Ballot) : Finset (Fin N) :=
  Finset.univ.filter fun acceptor => acceptor ≠ proposer ∧ ∃ entry ∈ history,
    entry.1 = acceptor ∧ entry.2.sends .promise name ballot = true

section Records

variable {decoding : Decoding} {network before : Network N}
  {action : NetworkAction N} {instance_ : Fin N} {input : Input}

theorem Readied.received
    (ready : Readied ownType network action instance_ input before)
    (target : Fin N) (kind : ProtocolNeuron) (name : String)
    (ballot : Ballot) :
    before.received target kind name ballot =
      network.received target kind name ballot +
        if instance_ = target ∧ input.receives kind name ballot = true then 1
        else 0 := by
  cases ready with
  | own => simp [Input.receives]
  | @receive envelope waiting =>
      simp only [Network.received, handOver, List.countP_cons]
      have same : (Input.receive (ownType envelope.neuron
          envelope.message)).receives kind name ballot =
            envelope.message.isFor kind name ballot := rfl
      rw [same]
      congr 1
      by_cases both : envelope.target = target ∧
          envelope.message.isFor kind name ballot = true
      · rw [if_pos (by simpa [Envelope.carries] using both), if_pos both]
      · rw [if_neg (by simpa [Envelope.carries] using both), if_neg both]

theorem Readied.receivedPromises_self
    (ready : Readied ownType network action instance_ input before)
    (name : String) :
    before.receivedPromises instance_ name =
      (input.promise? name).toList ++
        network.receivedPromises instance_ name := by
  cases ready with
  | own => rfl
  | @receive envelope waiting =>
      simp only [Network.receivedPromises, handOver, List.filterMap_cons,
        if_true, Input.promise?, ownType]
      cases envelope.message.promise? name <;> rfl

theorem Readied.receivedPromises_sublist
    (ready : Readied decoding network action instance_ input before)
    (target : Fin N) (name : String) :
    List.Sublist (network.receivedPromises target name)
      (before.receivedPromises target name) := by
  cases ready with
  | own => exact .refl _
  | receive waiting =>
      exact (List.sublist_cons_self _ _).filterMap _

theorem record_sent (network : Network N) (instance_ : Fin N)
    (result : GanglionPlexoMulticast × List Output) (source : Fin N)
    (kind : ProtocolNeuron) (name : String) (ballot : Ballot) :
    (network.record instance_ result).sent source kind name ballot =
      (if instance_ = source then
        result.2.countP (Output.sends kind name ballot) else 0) +
        network.sent source kind name ballot := by
  unfold sent
  rw [countP_record]
  by_cases same : instance_ = source
  · simp [same]
  · simp [same]

theorem record_sentByAny (network : Network N) (instance_ : Fin N)
    (result : GanglionPlexoMulticast × List Output) (kind : ProtocolNeuron)
    (name : String) (ballot : Ballot) :
    (network.record instance_ result).sentByAny kind name ballot =
      result.2.countP (Output.sends kind name ballot) +
        network.sentByAny kind name ballot := by
  unfold sentByAny
  rw [countP_record]

/-- An instance that answers each question at most once sends no more answers
than it received questions. -/
theorem Readied.sent_le_received
    (ready : Readied ownType network action instance_ input before)
    {result : GanglionPlexoMulticast × List Output} {source : Fin N}
    {question answer : ProtocolNeuron} {name : String} {ballot : Ballot}
    (answers : result.2.countP (Output.sends answer name ballot) ≤
      if input.receives question name ballot = true then 1 else 0)
    (account : network.sent source answer name ballot ≤
      network.received source question name ballot) :
    (before.record instance_ result).sent source answer name ballot ≤
      (before.record instance_ result).received source question name ballot := by
  have received := ready.received source question name ballot
  have unchanged : before.sent source answer name ballot =
      network.sent source answer name ballot := by
    simp only [Network.sent, ready.history_eq]
  show _ ≤ before.received source question name ballot
  rw [record_sent, unchanged, received]
  by_cases same : instance_ = source
  · simp only [same, true_and, if_true]
    omega
  · simp only [same, false_and, if_false]
    omega

end Records

/-- The accounts that hold in every run in which messages reach the reaction of
their own type. -/
structure Accounted (network : Network N) : Prop where
  conserved : network.Conserved
  promises : ∀ target name,
    List.Sublist ((network.ganglion target).collectedPromises name).reverse
      (network.receivedPromises target name)
  promised : ∀ source name ballot,
    network.sent source .promise name ballot ≤
      network.received source .preparation name ballot
  approvals : ∀ target name ballot,
    (network.ganglion target).approvalsOf name ballot +
        (network.ganglion target).approvingOf name ballot ≤
      network.received target .approval name ballot +
        network.received target .proposal name ballot
  approved : ∀ source name ballot,
    network.sent source .approval name ballot ≤
      network.received source .proposal name ballot
  accepted : ∀ entry ∈ network.history, ∀ name ballot,
    entry.2.sends .approval name ballot = true →
      entry.1 ∈ acceptors network.history name ballot

theorem mem_acceptors_record {network : Network N} {instance_ : Fin N}
    {result : GanglionPlexoMulticast × List Output} {name : String}
    {ballot : Ballot} {acceptor : Fin N} :
    acceptor ∈ acceptors (network.record instance_ result).history name ballot ↔
      (acceptor = instance_ ∧ ∃ output ∈ result.2,
        output.accepts name ballot = true) ∨
      acceptor ∈ acceptors network.history name ballot := by
  simp only [acceptors, Finset.mem_filter, Finset.mem_univ, true_and,
    mem_record_history]
  constructor
  · rintro ⟨entry, new | before, rfl, accepts⟩
    · exact .inl ⟨new.1, entry.2, new.2, accepts⟩
    · exact .inr ⟨entry, before, rfl, accepts⟩
  · rintro (⟨rfl, output, member, accepts⟩ | ⟨entry, before, rfl, accepts⟩)
    · exact ⟨(acceptor, output), .inl ⟨rfl, member⟩, rfl, accepts⟩
    · exact ⟨entry, .inr before, rfl, accepts⟩

theorem Accounted.step {host : Fin N → Host} {network next : Network N}
    {action : NetworkAction N} (accounted : network.Accounted)
    (taken : network.step ownType host action = some next) :
    next.Accounted := by
  have conserved := accounted.conserved.step taken
  cases move_of_step taken with
  | lose chosen =>
      exact ⟨conserved, accounted.promises, accounted.promised,
        accounted.approvals, accounted.approved, accounted.accepted⟩
  | @take instance_ input before result ready resultTaken =>
      refine ⟨conserved, ?_, ?_, ?_, ?_, ?_⟩
      · intro target name
        by_cases same : target = instance_
        · subst same
          rw [record_ganglion_self]
          refine (GanglionPlexoMulticast.collectedPromises_of_step resultTaken
            name).trans ?_
          have received := ready.receivedPromises_self name
          show List.Sublist _ (before.receivedPromises target name)
          rw [received]
          exact (List.Sublist.refl _).append (accounted.promises target name)
        · rw [record_ganglion_other _ _ same, ready.ganglion_eq]
          exact (accounted.promises target name).trans
            (ready.receivedPromises_sublist target name)
      · intro source name ballot
        exact ready.sent_le_received
          (GanglionPlexoMulticast.countP_promises_of_step resultTaken name
            ballot) (accounted.promised source name ballot)
      · intro target name ballot
        have account := accounted.approvals target name ballot
        have approvals := ready.received target .approval name ballot
        have proposals := ready.received target .proposal name ballot
        show _ ≤ before.received target .approval name ballot +
          before.received target .proposal name ballot
        rw [approvals, proposals]
        by_cases same : target = instance_
        · subst same
          rw [record_ganglion_self]
          simp only [true_and]
          have counted := GanglionPlexoMulticast.approvals_of_step resultTaken
            name ballot
          omega
        · rw [record_ganglion_other _ _ same, ready.ganglion_eq]
          omega
      · intro source name ballot
        exact ready.sent_le_received
          (GanglionPlexoMulticast.countP_approvals_of_step resultTaken name
            ballot) (accounted.approved source name ballot)
      · intro entry member name ballot sends
        rw [mem_acceptors_record]
        rcases mem_record_history.mp member with ⟨here, new⟩ | old
        · exact .inl ⟨here, GanglionPlexoMulticast.accepts_of_approval
            resultTaken ⟨entry.2, new, sends⟩⟩
        · rw [ready.history_eq] at old ⊢
          exact .inr (accounted.accepted entry old name ballot sends)

theorem accounted_ofGanglia {ganglion : Fin N → GanglionPlexoMulticast}
    (idle : ∀ instance_, (ganglion instance_).Idle) :
    (ofGanglia ganglion).Accounted := by
  constructor
  · intro target wanted
    simp [ofGanglia, addressedTo]
  · intro target name
    simp [ofGanglia, GanglionPlexoMulticast.collectedPromises,
      (idle target).promises]
  · simp [ofGanglia, sent]
  · intro target name ballot
    simp [ofGanglia, GanglionPlexoMulticast.approvalsOf,
      GanglionPlexoMulticast.approvingOf, (idle target).approvals,
      (idle target).approving]
  · simp [ofGanglia, sent]
  · simp [ofGanglia]

theorem sum_countP_source (target : Fin N) (wanted : Fin N → Message → Bool)
    (envelopes : List (Envelope N)) :
    ∑ source, envelopes.countP (·.carries target
        fun sender message => sender = source && wanted sender message) =
      envelopes.countP (·.carries target wanted) := by
  induction envelopes with
  | nil => simp
  | cons envelope envelopes induction =>
      simp only [List.countP_cons, Finset.sum_add_distrib, induction]
      congr 1
      by_cases carries : envelope.carries target wanted = true
      · have wantedHere : envelope.target = target ∧
            wanted envelope.source envelope.message = true := by
          simpa [Envelope.carries] using carries
        simp [Envelope.carries, wantedHere, Finset.sum_ite_eq]
      · have none : ∀ source, envelope.carries target (fun sender message =>
            sender = source && wanted sender message) = false := by
          intro source
          simp only [Envelope.carries] at carries ⊢
          grind
        simp [carries, none]

/-- If every instance sends a wanted message at most once, and only those in
`senders` do at all, then as many senders as messages were delivered are
distinct. -/
theorem Conserved.delivered_le_card {network : Network N}
    (conserved : network.Conserved) {target : Fin N}
    {wanted : Fin N → Message → Bool} {senders : Finset (Fin N)}
    (once : ∀ source, network.history.countP (fun entry =>
      entry.1 = source && entry.2.transmits (wanted source)) ≤ 1)
    (only : ∀ source, source ≠ target → ∀ output,
      (source, output) ∈ network.history →
      output.transmits (wanted source) = true → source ∈ senders) :
    network.delivered.countP (·.carries target wanted) ≤ senders.card := by
  have single : ∀ source, source ≠ target →
      network.history.countP (fun entry => entry.1 = source &&
        entry.2.transmits (wanted source)) ≤
          if source ∈ senders then 1 else 0 := by
    intro source different
    split
    · exact once source
    · next silent =>
        rw [Nat.le_zero, List.countP_eq_zero]
        rintro ⟨sender, output⟩ member sends
        simp only [Bool.and_eq_true, decide_eq_true_eq] at sends
        obtain ⟨rfl, sends⟩ := sends
        exact silent (only sender different output member sends)
  have each : ∀ source, network.delivered.countP (·.carries target
      fun sender message => sender = source && wanted sender message) ≤
        if source ∈ senders then 1 else 0 := by
    intro source
    have account := conserved target
      fun sender message => sender = source && wanted sender message
    have split : network.addressedTo target (fun sender message =>
        sender = source && wanted sender message) =
          network.inFlight.countP (·.carries target fun sender message =>
            sender = source && wanted sender message) +
          network.delivered.countP (·.carries target fun sender message =>
            sender = source && wanted sender message) :=
      List.countP_append
    have bounded : network.sentTo target (fun sender message =>
        sender = source && wanted sender message) ≤
          if source ∈ senders then 1 else 0 := by
      by_cases same : source = target
      · have nobody : network.sentTo target (fun sender message =>
            sender = source && wanted sender message) = 0 := by
          unfold sentTo
          rw [List.countP_eq_zero]
          rintro ⟨sender, output⟩ - transmitted
          simp only [Output.transmits_and, same, Bool.and_eq_true,
            decide_eq_true_eq] at transmitted
          exact transmitted.1 transmitted.2.1
        omega
      · refine le_trans (List.countP_mono_left ?_) (single source same)
        rintro ⟨sender, output⟩ - transmitted
        simp only [Output.transmits_and, Bool.and_eq_true,
          decide_eq_true_eq] at transmitted ⊢
        obtain ⟨_, rfl, transmitted⟩ := transmitted
        exact ⟨rfl, transmitted⟩
    omega
  calc network.delivered.countP (·.carries target wanted)
      = ∑ source, network.delivered.countP (·.carries target
          fun sender message => sender = source && wanted sender message) :=
        (sum_countP_source target wanted network.delivered).symm
    _ ≤ ∑ source, if source ∈ senders then 1 else 0 :=
        Finset.sum_le_sum fun source _ => each source
    _ = senders.card := by simp

end Network

end Plexo
