import Mathlib.Order.WithBot
import Plexo.Library.Transition
import Plexo.Multicast.Consensus

/-!
# The acceptor side of an instance

Three code paths write `_proposals`: the preparation reaction, the proposal
reaction, and `_send_proposal` of the instance's own calls.  `AcceptorMove`
says once what a step can do to the stored proposals and which promises,
approvals and proposals it can send; the properties of runs are read off it.

The stored ballot plays two roles, the highest promised one and the last
accepted one.  A run in which both roles agree keeps the guarantees of an
acceptor; a step at which they come apart is where they are lost.
-/

namespace Plexo

open PersistentMap Transition

def Output.isQuiet : Output → Bool
  | .transmit _ (.promise _) => false
  | .transmit _ (.approval _) => false
  | .transmit _ (.proposal _) => false
  | .accept _ => false
  | _ => true

def Output.acceptedFor (name : String) : Output → Option PlexoProposal
  | .accept proposal => if proposal.typeName = name then some proposal else none
  | _ => none

namespace GanglionPlexoMulticast

/-- What one step does to the stored proposals. -/
inductive AcceptorMove (ganglion : GanglionPlexoMulticast)
    (result : GanglionPlexoMulticast × List Output) : Input → Prop where
  | idle {input : Input} :
      result.1.proposals = ganglion.proposals →
      (∀ output ∈ result.2, output.isQuiet = true) →
      AcceptorMove ganglion result input
  | promise {preparation : PlexoPreparation} :
      preparation.instanceId ≠ ganglion.instanceId →
      mayPromise (ganglion.proposals preparation.typeName)
        preparation.ballot = true →
      result.1.proposals = ganglion.proposals.set preparation.typeName
        (promisedProposal (ganglion.proposals preparation.typeName)
          preparation) →
      result.2 = [.transmit .proposal (.promise
        (promiseFor (ganglion.proposals preparation.typeName) preparation))] →
      AcceptorMove ganglion result (.receive (.preparation preparation))
  | accept {proposal current : PlexoProposal} :
      ganglion.proposals proposal.typeName = some current →
      current.ballot = proposal.ballot →
      result.1.proposals =
        ganglion.proposals.set proposal.typeName proposal →
      result.2 = [.accept proposal,
        .transmit .approval (.approval (approvalFor proposal))] →
      AcceptorMove ganglion result (.receive (.proposal proposal))
  | propose {call : CallId} {preparation : PlexoPreparation}
      {promises : List PlexoPromise} {multicastAddress : IPAddress} :
      ganglion.calls call =
        some (.proposing preparation promises multicastAddress) →
      result.1.proposals = ganglion.proposals.set preparation.typeName
        (proposalFor preparation multicastAddress) →
      result.2 = [.accept (proposalFor preparation multicastAddress),
        .transmit .proposal
          (.proposal (proposalFor preparation multicastAddress))] →
      AcceptorMove ganglion result (.own (.sendProposal call))

theorem commitApproval_proposals (host : Host)
    (ganglion : GanglionPlexoMulticast) (approval : PlexoApproval) :
    (ganglion.commitApproval host approval).1.proposals = ganglion.proposals ∧
      ∀ output ∈ (ganglion.commitApproval host approval).2,
        output.isQuiet = true := by
  unfold commitApproval
  split
  · simp [Output.isQuiet]
  · split
    · simp [Output.isQuiet]
    · split <;> simp [Output.isQuiet]

theorem approvalReaction_proposals (host : Host)
    (ganglion : GanglionPlexoMulticast) (approval : PlexoApproval) :
    (ganglion.approvalReaction host approval).1.proposals =
        ganglion.proposals ∧
      ∀ output ∈ (ganglion.approvalReaction host approval).2,
        output.isQuiet = true := by
  unfold approvalReaction
  dsimp only
  split
  · split
    · simp [countApproval]
    · simpa [countApproval] using
        commitApproval_proposals host (ganglion.countApproval approval.key)
          approval
  · simp [countApproval]

theorem checkPromises_proposals (ganglion : GanglionPlexoMulticast)
    (call : CallId) (preparation : PlexoPreparation) (popped : IPAddress) :
    (ganglion.checkPromises call preparation popped).1.proposals =
        ganglion.proposals ∧
      ∀ output ∈ (ganglion.checkPromises call preparation popped).2,
        output.isQuiet = true := by
  unfold checkPromises
  dsimp only
  split
  · simp [setCall, clearPreparation]
  · split <;> simp [setCall, clearPreparation, Output.isQuiet]

theorem checkApprovals_proposals (ganglion : GanglionPlexoMulticast)
    (call : CallId) (proposal : PlexoProposal) (multicastAddress : IPAddress) :
    (ganglion.checkApprovals call proposal multicastAddress).1.proposals =
        ganglion.proposals ∧
      ∀ output ∈ (ganglion.checkApprovals call proposal multicastAddress).2,
        output.isQuiet = true := by
  unfold checkApprovals
  dsimp only
  split <;> simp [setCall, Output.isQuiet]

theorem raisedBy_isQuiet {α : Type} (result : Except PlexoError α) :
    ∀ output ∈ raisedBy result, output.isQuiet = true := by
  cases result <;> simp [raisedBy, Output.isQuiet]

theorem acceptorMove_of_act {host : Host} {ganglion : GanglionPlexoMulticast}
    {action : OwnAction} {result : GanglionPlexoMulticast × List Output}
    (taken : ganglion.act host action = some result) :
    AcceptorMove ganglion result (.own action) := by
  cases ownStep_of_act taken with
  | prepare fresh => exact .idle rfl (by simp [sendPreparation, Output.isQuiet])
  | startPreparationTimer found => exact .idle rfl (by simp)
  | checkPromises found canPop =>
      exact .idle (checkPromises_proposals ..).1 (checkPromises_proposals ..).2
  | sendProposal found => exact .propose found rfl rfl
  | startProposalTimer found => exact .idle rfl (by simp)
  | checkApprovals found =>
      exact .idle (checkApprovals_proposals ..).1
        (checkApprovals_proposals ..).2
  | approve pending =>
      exact .idle (approvalReaction_proposals ..).1
        (approvalReaction_proposals ..).2
  | countPeers => exact .idle rfl (by simp)
  | createSynapse found same => exact .idle rfl (raisedBy_isQuiet _)
  | addReactants found => exact .idle rfl (by simp)
  | addRawReactants found => exact .idle rfl (by simp)
  | updateTransmitter found => exact .idle rfl (by simp)
  | createExternalTransmitter => exact .idle rfl (by simp)

theorem acceptorMove_of_react (host : Host) (ganglion : GanglionPlexoMulticast)
    (message : Message) :
    AcceptorMove ganglion (ganglion.react host message) (.receive message) := by
  cases message with
  | heartbeat body => exact .idle rfl (by simp [react])
  | preparation body =>
      simp only [react, preparationReaction]
      split
      · exact .idle rfl (by simp)
      · next foreign =>
          split
          · next newer => exact .promise foreign newer rfl rfl
          · exact .idle rfl (by simp [Output.isQuiet])
  | promise body =>
      simp only [react, promiseReaction]
      split <;> exact .idle rfl (by simp)
  | rejection body =>
      simp only [react, rejectionReaction]
      split <;> exact .idle rfl (by simp)
  | proposal body =>
      simp only [react, proposalReaction]
      split
      · exact .idle rfl (by simp [Output.isQuiet])
      · next current found =>
          split
          · next same =>
              exact .accept found (by simpa [proposalIsEqual] using same) rfl rfl
          · exact .idle rfl (by simp [Output.isQuiet])
  | approval body =>
      exact .idle (approvalReaction_proposals ..).1
        (approvalReaction_proposals ..).2

theorem acceptorMove_of_step {host : Host} {ganglion : GanglionPlexoMulticast}
    {input : Input} {result : GanglionPlexoMulticast × List Output}
    (taken : ganglion.step host input = some result) :
    AcceptorMove ganglion result input := by
  cases input with
  | own action => exact acceptorMove_of_act taken
  | receive message =>
      exact Option.some.inj taken ▸ acceptorMove_of_react host ganglion message

end GanglionPlexoMulticast

/-- The ballot of a stored proposal, below all ballots if nothing is stored. -/
def ballotOf (currentProposal : Option PlexoProposal) : WithBot Ballot :=
  currentProposal.elim ⊥ fun current => (current.ballot : WithBot Ballot)

@[simp] theorem ballotOf_none : ballotOf none = ⊥ := rfl

@[simp] theorem ballotOf_some (proposal : PlexoProposal) :
    ballotOf (some proposal) = (proposal.ballot : WithBot Ballot) := rfl

def GanglionPlexoMulticast.storedBallot (ganglion : GanglionPlexoMulticast)
    (name : String) : WithBot Ballot :=
  ballotOf (ganglion.proposals name)

theorem mayPromise_iff (currentProposal : Option PlexoProposal)
    (ballot : Ballot) :
    mayPromise currentProposal ballot = true ↔
      ballotOf currentProposal < (ballot : WithBot Ballot) := by
  cases currentProposal with
  | none => simp [mayPromise, WithBot.bot_lt_coe]
  | some current => simp [mayPromise, proposalIsNewer]

@[simp] theorem promisedProposal_ballot (currentProposal : Option PlexoProposal)
    (preparation : PlexoPreparation) :
    (promisedProposal currentProposal preparation).ballot =
      preparation.ballot := rfl

@[simp] theorem promiseFor_ballot (currentProposal : Option PlexoProposal)
    (preparation : PlexoPreparation) :
    (promiseFor currentProposal preparation).ballot = preparation.ballot := rfl

@[simp] theorem proposalFor_ballot (preparation : PlexoPreparation)
    (multicastAddress : IPAddress) :
    (proposalFor preparation multicastAddress).ballot =
      preparation.ballot := rfl

@[simp] theorem approvalFor_ballot (proposal : PlexoProposal) :
    (approvalFor proposal).ballot = proposal.ballot := rfl

/-- An instance with everything it has let an observer see, newest first. -/
structure Observed where
  ganglion : GanglionPlexoMulticast
  history : List Output

/-- One step of an instance that receives arbitrary messages. -/
def Observed.step (host : Host) (observed : Observed) (input : Input) :
    Option Observed :=
  (observed.ganglion.step host input).map fun result =>
    ⟨result.1, result.2.reverse ++ observed.history⟩

theorem Observed.step_eq_some {host : Host} {observed next : Observed}
    {input : Input} (taken : observed.step host input = some next) :
    ∃ result, observed.ganglion.step host input = some result ∧
      next = ⟨result.1, result.2.reverse ++ observed.history⟩ := by
  obtain ⟨result, resultTaken, same⟩ := Option.map_eq_some_iff.mp taken
  exact ⟨result, resultTaken, same.symm⟩

end Plexo
