import Plexo.Multicast.Agreement
import Plexo.Multicast.Placement

/-!
# What learners learn

An instance that did not propose a ballot commits its address as soon as it has
counted more approvals than half of its peers.  It counts those of the others
once each, as they are delivered, and its own once; the proposer sends none.  So
a learner that commits has, together with the proposer, a majority behind the
address, and commits what every call for the type returns.
-/

namespace Plexo

open PersistentMap Transition Voting

namespace GanglionPlexoMulticast

theorem approvals_of_step_sent {host : Host} {ganglion : GanglionPlexoMulticast}
    {input : Input} {result : GanglionPlexoMulticast × List Output}
    (taken : ganglion.step host input = some result) (name : String)
    (ballot : Ballot) :
    result.1.approvalsOf name ballot + result.1.approvingOf name ballot ≤
      ganglion.approvalsOf name ballot + ganglion.approvingOf name ballot +
        (if input.receives .approval name ballot = true then 1 else 0) +
        result.2.countP (Output.sends .approval name ballot) := by
  have loosely := approvals_of_step taken name ballot
  by_cases proposed : input.receives .proposal name ballot = true
  · cases input with
    | own action => cases proposed
    | receive message =>
        obtain rfl : ganglion.react host message = result :=
          Option.some.inj taken
        cases message with
        | proposal proposal =>
            simp only [react, proposalReaction] at loosely ⊢
            split
            · exact (Nat.le_add_right _ _).trans (Nat.le_add_right _ _)
            · split
              · -- the approval is sent in the step that queues it
                next current found same =>
                  simp only [found, same, if_true] at loosely
                  have sends : [Output.accept proposal, .transmit .approval
                      (.approval (approvalFor proposal))].countP
                        (Output.sends .approval name ballot) = 1 := by
                    have isFor : proposal.typeName = name ∧
                        proposal.ballot = ballot := by
                      simpa [Input.receives] using proposed
                    have sameName : (approvalFor proposal).typeName =
                        proposal.typeName := rfl
                    simp [Output.sends, Output.transmits, isFor, sameName]
                  rw [sends]
                  rw [if_pos proposed] at loosely
                  exact loosely
              · exact (Nat.le_add_right _ _).trans (Nat.le_add_right _ _)
        | _ => simp [Input.receives, Message.isFor, Message.neuron] at proposed
  · rw [if_neg proposed] at loosely
    omega

/-- An approval is queued in the step that accepts its proposal. -/
theorem approving_of_step {host : Host} {ganglion : GanglionPlexoMulticast}
    {input : Input} {result : GanglionPlexoMulticast × List Output}
    (taken : ganglion.step host input = some result) {approval : PlexoApproval}
    (pending : approval ∈ result.1.approving) :
    approval ∈ ganglion.approving ∨ ∃ proposal,
      Output.accept proposal ∈ result.2 ∧ approval = approvalFor proposal := by
  have kept (same : result.1.approving = ganglion.approving) :
      approval ∈ ganglion.approving ∨ ∃ proposal,
        Output.accept proposal ∈ result.2 ∧
          approval = approvalFor proposal :=
    .inl (same ▸ pending)
  cases input with
  | own action =>
      cases ownStep_of_act taken with
      | checkPromises found canPop =>
          apply kept
          unfold checkPromises
          dsimp only
          split
          · rfl
          · split
            · rfl
            · rfl
      | checkApprovals found =>
          apply kept
          unfold checkApprovals
          dsimp only
          split
          · rfl
          · rfl
      | @approve counted queued =>
          have left := (approvalReaction_accounts host
            { ganglion with approving := ganglion.approving.erase counted }
            counted "" ⟨0, 0⟩).2.1
          rw [left] at pending
          exact .inl (List.mem_of_mem_erase pending)
      | _ => exact kept rfl
  | receive message =>
      obtain rfl : ganglion.react host message = result := Option.some.inj taken
      cases message with
      | heartbeat body => exact kept rfl
      | preparation body =>
          apply kept
          simp only [react, preparationReaction]
          split
          · rfl
          · split
            · rfl
            · rfl
      | promise body =>
          apply kept
          simp only [react, promiseReaction]
          split
          · rfl
          · rfl
      | rejection body =>
          apply kept
          simp only [react, rejectionReaction]
          split
          · rfl
          · rfl
      | proposal body =>
          have reacted : ganglion.proposalReaction body =
            ganglion.react host (.proposal body) := rfl
          rw [← reacted] at pending ⊢
          cases found : ganglion.proposals body.typeName with
          | none =>
              simp only [proposalReaction, found] at pending
              exact .inl pending
          | some current =>
              by_cases same :
                  proposalIsEqual current.ballot body.ballot = true
              · simp only [proposalReaction, found, same, if_true] at pending ⊢
                rcases List.mem_cons.mp pending with rfl | queued
                · exact .inr ⟨body, by simp, rfl⟩
                · exact .inl queued
              · rw [Bool.not_eq_true] at same
                simp only [proposalReaction, found, same] at pending
                exact .inl pending
      | approval body =>
          exact kept (approvalReaction_accounts host ganglion body "" ⟨0, 0⟩).2.1

theorem queued_of_step {host : Host} {ganglion : GanglionPlexoMulticast}
    {input : Input} {result : GanglionPlexoMulticast × List Output}
    (taken : ganglion.step host input = some result) :
    ∀ counted, input = .own (.approve counted) →
      counted ∈ ganglion.approving := by
  rintro counted rfl
  have acted : ganglion.act host (.approve counted) = some result := taken
  cases ownStep_of_act acted with
  | approve pending => exact pending

theorem accepts_of_transmit {host : Host} {ganglion : GanglionPlexoMulticast}
    {input : Input} {result : GanglionPlexoMulticast × List Output}
    (taken : ganglion.step host input = some result) {neuron : ProtocolNeuron}
    {approval : PlexoApproval}
    (sent : Output.transmit neuron (.approval approval) ∈ result.2) :
    ∃ proposal, Output.accept proposal ∈ result.2 ∧
      approval = approvalFor proposal := by
  cases acceptorMove_of_step taken with
  | idle unchanged quiet =>
      have loud := quiet _ sent
      cases loud
  | promise foreign newer stores outputs => simp [outputs] at sent
  | @accept proposal current found same stores outputs =>
      have isApproval : approval = approvalFor proposal := by
        have both : neuron = .approval ∧ approval = approvalFor proposal := by
          simpa [outputs] using sent
        exact both.2
      exact ⟨proposal, by simp [outputs], isApproval⟩
  | propose found stores outputs => simp [outputs] at sent

end GanglionPlexoMulticast

namespace Network

variable {N : Nat}

/-- Approvals are counted once for each one delivered and once for the one that
the instance sent itself, and they carry what their senders accepted. -/
structure Tallied (network : Network N) : Prop where
  counted : ∀ target name ballot,
    (network.ganglion target).approvalsOf name ballot +
        (network.ganglion target).approvingOf name ballot ≤
      network.received target .approval name ballot +
        network.sent target .approval name ballot
  sent : ∀ source neuron approval,
    (source, Output.transmit neuron (.approval approval)) ∈ network.history →
    ∃ proposal, network.Accepts source proposal ∧
      approval = approvalFor proposal
  pending : ∀ target, ∀ approval ∈ (network.ganglion target).approving,
    ∃ proposal, network.Accepts target proposal ∧
      approval = approvalFor proposal

theorem tallied_ofGanglia {ganglion : Fin N → GanglionPlexoMulticast}
    (idle : ∀ instance_, (ganglion instance_).Idle) :
    (ofGanglia ganglion).Tallied := by
  refine ⟨?_, by simp [ofGanglia], ?_⟩
  · intro target name ballot
    simp [ofGanglia, GanglionPlexoMulticast.approvalsOf,
      GanglionPlexoMulticast.approvingOf, (idle target).approvals,
      (idle target).approving]
  · intro target approval queued
    simp [ofGanglia, (idle target).approving] at queued

section Step

variable {host : Fin N → Host} {network next before : Network N}
  {action : NetworkAction N} {instance_ : Fin N} {input : Input}

theorem Tallied.record (tallied : network.Tallied)
    (ready : Readied ownType network action instance_ input before)
    {result : GanglionPlexoMulticast × List Output}
    (taken : (network.ganglion instance_).step (host instance_) input =
      some result) : (before.record instance_ result).Tallied := by
  have still : ∀ {acceptor proposal}, network.Accepts acceptor proposal →
      (before.record instance_ result).Accepts acceptor proposal := by
    intro acceptor proposal accepted
    refine accepts_record.mpr (.inr ?_)
    rw [Accepts, ready.history_eq]
    exact accepted
  refine ⟨?_, ?_, ?_⟩
  · intro target name ballot
    have account := tallied.counted target name ballot
    have received := ready.received target .approval name ballot
    have sent := ready.sent_eq target .approval name ballot
    show _ ≤ before.received target .approval name ballot + _
    rw [record_sent, sent, received]
    by_cases same : instance_ = target
    · subst same
      have here := GanglionPlexoMulticast.approvals_of_step_sent taken name
        ballot
      rw [record_ganglion_self]
      simp only [true_and, if_true]
      omega
    · rw [record_ganglion_other _ _ (Ne.symm same), ready.ganglion_eq]
      simp only [same, false_and, if_false]
      omega
  · intro source neuron approval sent
    rcases mem_record_history.mp sent with ⟨rfl, new⟩ | old
    · obtain ⟨proposal, accepted, same⟩ :=
        GanglionPlexoMulticast.accepts_of_transmit taken new
      exact ⟨proposal, accepts_record.mpr (.inl ⟨rfl, accepted⟩), same⟩
    · rw [ready.history_eq] at old
      obtain ⟨proposal, accepted, same⟩ := tallied.sent _ _ _ old
      exact ⟨proposal, still accepted, same⟩
  · intro target approval queued
    by_cases same : target = instance_
    · subst same
      rw [record_ganglion_self] at queued
      rcases GanglionPlexoMulticast.approving_of_step taken queued with
        old | ⟨proposal, accepted, same⟩
      · obtain ⟨proposal, accepted, same⟩ := tallied.pending _ _ old
        exact ⟨proposal, still accepted, same⟩
      · exact ⟨proposal, accepts_record.mpr (.inl ⟨rfl, accepted⟩), same⟩
    · rw [record_ganglion_other _ _ same, ready.ganglion_eq] at queued
      obtain ⟨proposal, accepted, same⟩ := tallied.pending _ _ queued
      exact ⟨proposal, still accepted, same⟩

theorem Tallied.step (tallied : network.Tallied)
    (taken : network.step ownType host action = some next) :
    next.Tallied := by
  cases move_of_step taken with
  | lose chosen => exact ⟨tallied.counted, tallied.sent, tallied.pending⟩
  | take ready resultTaken => exact tallied.record ready resultTaken

end Step

def approvers (history : List (Fin N × Output)) (name : String)
    (ballot : Ballot) : Finset (Fin N) :=
  Finset.univ.filter fun approver => ∃ entry ∈ history,
    entry.1 = approver ∧ entry.2.sends .approval name ballot = true

theorem mem_approvers {history : List (Fin N × Output)} {name : String}
    {ballot : Ballot} {approver : Fin N} :
    approver ∈ approvers history name ballot ↔
      ∃ neuron approval,
        (approver, Output.transmit neuron (.approval approval)) ∈ history ∧
          approval.typeName = name ∧ approval.ballot = ballot := by
  simp only [approvers, Finset.mem_filter, Finset.mem_univ, true_and]
  constructor
  · rintro ⟨⟨source, output⟩, member, rfl, sends⟩
    cases output with
    | transmit neuron message =>
        cases message with
        | approval approval =>
            have both : approval.typeName = name ∧
                approval.ballot = ballot := by
              simpa [Output.sends, Output.transmits] using sends
            exact ⟨neuron, approval, member, both⟩
        | _ => simp [Output.sends, Output.transmits, Message.isFor,
            Message.neuron] at sends
    | _ => simp [Output.sends, Output.transmits] at sends
  · rintro ⟨neuron, approval, member, rfl, rfl⟩
    exact ⟨_, member, rfl, by simp [Output.sends, Output.transmits]⟩

section Commit

variable {network before : Network N} {action : NetworkAction N}
  {instance_ : Fin N} {input : Input} {approval : PlexoApproval}

theorem Tallied.newApprovalsNum_le (tallied : network.Tallied)
    (accounted : network.Accounted) (owned : network.Owned)
    (ready : Readied ownType network action instance_ input before)
    (counts : input.approval? = some approval)
    (queued : ∀ counted, input = .own (.approve counted) →
      counted ∈ (network.ganglion instance_).approving) :
    (network.ganglion instance_).newApprovalsNum approval.key ≤
      (approvers network.history approval.typeName approval.ballot).card := by
  let name := approval.typeName
  let ballot := approval.ballot
  have account := tallied.counted instance_ name ballot
  have delivered : before.received instance_ .approval name ballot ≤
      ((approvers network.history name ballot).erase instance_).card := by
    apply (ready.conserved accounted.conserved).delivered_le_card
    · intro source
      rw [ready.history_eq]
      exact accounted.approved_once owned source name ballot
    · intro source different output member sends
      rw [ready.history_eq] at member
      simp only [approvers, Finset.mem_erase, Finset.mem_filter,
        Finset.mem_univ, true_and]
      exact ⟨different, _, member, rfl, sends⟩
  have here : (network.ganglion instance_).approvalsOf name ballot + 1 ≤
      before.received instance_ .approval name ballot +
        network.sent instance_ .approval name ballot := by
    have received := ready.received instance_ .approval name ballot
    cases input with
    | receive message =>
        cases message with
        | approval body =>
            obtain rfl : body = approval := Option.some.inj counts
            have isFor : (Input.receive (.approval body)).receives .approval
                name ballot = true := by
              simp [Input.receives, name, ballot]
            simp only [isFor, and_self, if_true] at received
            omega
        | _ => cases counts
    | own own =>
        cases own with
        | approve body =>
            obtain rfl : body = approval := Option.some.inj counts
            have positive : 0 < (network.ganglion instance_).approvingOf name
                ballot := by
              apply List.countP_pos_iff.mpr
              exact ⟨body, queued body rfl, by simp [name, ballot]⟩
            omega
        | _ => cases counts
  have own : network.sent instance_ .approval name ballot ≤
      if instance_ ∈ approvers network.history name ballot then 1 else 0 := by
    split
    · exact accounted.approved_once owned instance_ name ballot
    · next silent =>
        rw [Nat.le_zero]
        unfold Network.sent
        rw [List.countP_eq_zero]
        rintro ⟨source, output⟩ member sends
        simp only [Bool.and_eq_true, decide_eq_true_eq] at sends
        apply silent
        simp only [approvers, Finset.mem_filter, Finset.mem_univ, true_and]
        exact ⟨_, member, sends.1, sends.2⟩
  show (network.ganglion instance_).approvalsOf name ballot + 1 ≤
    (approvers network.history name ballot).card
  split at own
  · next member =>
      have whole := Finset.card_erase_add_one member
      omega
  · have fewer : ((approvers network.history name ballot).erase
        instance_).card ≤ (approvers network.history name ballot).card :=
      Finset.card_erase_le
    omega

theorem Readied.sent_or_queued (conserved : network.Conserved)
    (ready : Readied ownType network action instance_ input before)
    (counts : input.approval? = some approval)
    (queued : ∀ counted, input = .own (.approve counted) →
      counted ∈ (network.ganglion instance_).approving) :
    (∃ source neuron, (source, Output.transmit neuron (.approval approval)) ∈
        network.history) ∨
      approval ∈ (network.ganglion instance_).approving := by
  cases input with
  | receive message =>
      cases message with
      | approval body =>
          obtain rfl : body = approval := Option.some.inj counts
          obtain ⟨source, neuron, _, sent⟩ := ready.sent_of_receive conserved
          exact .inl ⟨source, neuron, sent⟩
      | _ => cases counts
  | own own =>
      cases own with
      | approve body =>
          obtain rfl : body = approval := Option.some.inj counts
          exact .inr (queued body rfl)
      | _ => cases counts

theorem Tallied.accepted (tallied : network.Tallied)
    (accounted : network.Accounted)
    (ready : Readied ownType network action instance_ input before)
    (counts : input.approval? = some approval)
    (queued : ∀ counted, input = .own (.approve counted) →
      counted ∈ (network.ganglion instance_).approving) :
    ∃ acceptor proposal, network.Accepts acceptor proposal ∧
      approval = approvalFor proposal := by
  rcases ready.sent_or_queued accounted.conserved counts queued with
    ⟨source, neuron, sent⟩ | pending
  · obtain ⟨proposal, accepted⟩ := tallied.sent source neuron approval sent
    exact ⟨source, proposal, accepted⟩
  · obtain ⟨proposal, accepted⟩ := tallied.pending instance_ approval pending
    exact ⟨instance_, proposal, accepted⟩

/-- A commit has a majority behind its address: the approvers and the proposer,
which approves nothing. -/
theorem Agreeing.chosen_of_commit (agreeing : network.Agreeing)
    (tallied : network.Tallied) (countsAll : network.CountsAll)
    (ready : Readied ownType network action instance_ input before)
    (counts : input.approval? = some approval)
    (queued : ∀ counted, input = .own (.approve counted) →
      counted ∈ (network.ganglion instance_).approving)
    (above : (network.ganglion instance_).numPeers <
      2 * (network.ganglion instance_).newApprovalsNum approval.key) :
    (network.votes approval.typeName).ChosenIn approval.ballot
      approval.multicastIp := by
  let name := approval.typeName
  let ballot := approval.ballot
  let others := approvers network.history name ballot
  have distinct : _ ≤ others.card := tallied.newApprovalsNum_le
    agreeing.accounted agreeing.owned ready counts queued
  obtain ⟨acceptor, accepted, accepts, same⟩ :=
    tallied.accepted agreeing.accounted ready counts queued
  have vote : (network.votes name).voted acceptor ballot approval.multicastIp :=
    ⟨accepted, accepts, by simp [name, same, approvalFor],
      by simp [ballot, same], by simp [same, approvalFor]⟩
  obtain ⟨proposer, proposes⟩ := agreeing.ledger.backed acceptor accepted accepts
  have ownVote : (network.votes name).voted proposer ballot
      approval.multicastIp :=
    ⟨accepted, (agreeing.ledger.proposed proposer accepted proposes).1,
      by simp [name, same, approvalFor], by simp [ballot, same],
      by simp [same, approvalFor]⟩
  have outside : proposer ∉ others := by
    intro member
    obtain ⟨neuron, sentApproval, sent, sameName, sameBallot⟩ :=
      mem_approvers.mp member
    have proposed : 0 < network.sent proposer .proposal name ballot := by
      obtain ⟨proposalNeuron, inside⟩ := proposes
      refine List.countP_pos_iff.mpr ⟨_, inside, ?_⟩
      simp [Output.sends, Output.transmits, name, ballot, same, approvalFor,
        PlexoApproval.ballot, PlexoProposal.ballot]
    have none := agreeing.accounted.owner_receives_no_proposal agreeing.owned
      (agreeing.owned.proposer proposer name ballot proposed)
    have answers := agreeing.accounted.approved proposer name ballot
    have sentOne : 0 < network.sent proposer .approval name ballot := by
      refine List.countP_pos_iff.mpr ⟨_, sent, ?_⟩
      simp [Output.sends, Output.transmits, sameName, sameBallot]
    omega
  refine ⟨insert proposer others, ?_, ?_⟩
  · have peers := countsAll instance_
    rw [Majority, Fintype.card_fin, Finset.card_insert_of_notMem outside]
    omega
  · intro voter member
    rcases Finset.mem_insert.mp member with rfl | approved
    · exact ownVote
    · obtain ⟨neuron, sentApproval, sent, sameName, sameBallot⟩ :=
        mem_approvers.mp approved
      obtain ⟨proposal, voterAccepts, rfl⟩ := tallied.sent voter neuron _ sent
      have voterVote : (network.votes name).voted voter ballot
          proposal.multicastIp :=
        ⟨proposal, voterAccepts, sameName, sameBallot, rfl⟩
      rw [(agreeing.sound name).oneValue _ _ _ _ _ vote voterVote]
      exact voterVote

end Commit

end Network

end Plexo
