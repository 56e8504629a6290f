import Plexo.Multicast.Network

/-!
# The proposer side of an instance

`ProposerMove` says once what a step can do to the calls of
`_get_address_from_consensus`, and what the calls let an observer see.  The
lemmas after it bound what the reactions collect for the calls: the promises
of a type, and the approvals of a ballot, by what the instance received.
-/

namespace Plexo

open PersistentMap

/-- Outputs that no call makes. -/
def Output.isReaction : Output → Bool
  | .transmit _ message =>
      message.neuron ≠ .preparation && message.neuron ≠ .proposal
  | .accept _ => true
  | .raise _ => true
  | _ => false

namespace Attempt

/-- The call without the flag that its timer was cancelled. -/
def settled : Attempt → Attempt
  | .awaitingPromises preparation _ => .awaitingPromises preparation false
  | .awaitingApprovals proposal multicastAddress _ =>
      .awaitingApprovals proposal multicastAddress false
  | attempt => attempt

@[simp] theorem settled_cancelPreparationTimer (attempt : Attempt) :
    attempt.cancelPreparationTimer.settled = attempt.settled := by
  cases attempt <;> rfl

@[simp] theorem settled_cancelProposalTimer (attempt : Attempt) :
    attempt.cancelProposalTimer.settled = attempt.settled := by
  cases attempt <;> rfl

end Attempt

/-- The same calls, up to cancelled timers. -/
def SameCalls (before after : PMap CallId Attempt) : Prop :=
  ∀ call, (after call).map Attempt.settled = (before call).map Attempt.settled

theorem SameCalls.rfl {calls : PMap CallId Attempt} : SameCalls calls calls :=
  fun _ => Eq.refl _

theorem SameCalls.earlier {before after : PMap CallId Attempt}
    (same : SameCalls before after) {call : CallId} {later : Attempt}
    (found : after call = some later) :
    ∃ earlier, before call = some earlier ∧
      earlier.settled = later.settled := by
  have sameHere := same call
  rw [found, Option.map_some, eq_comm, Option.map_eq_some_iff] at sameHere
  exact sameHere

theorem SameCalls.later {before after : PMap CallId Attempt}
    (same : SameCalls before after) {call : CallId} {earlier : Attempt}
    (found : before call = some earlier) :
    ∃ later, after call = some later ∧ later.settled = earlier.settled := by
  have sameHere := same call
  rw [found, Option.map_some, Option.map_eq_some_iff] at sameHere
  exact sameHere

theorem sameCalls_cancelTimer {cancel : Attempt → Attempt}
    (keeps : ∀ attempt, (cancel attempt).settled = attempt.settled)
    (timers : PMap String CallId) (name : String)
    (calls : PMap CallId Attempt) :
    SameCalls calls (cancelTimer cancel timers name calls) := by
  intro other
  unfold cancelTimer
  cases timers name with
  | none => rfl
  | some call =>
      by_cases same : other = call
      · subst same
        cases found : calls other with
        | none => simp [found]
        | some attempt => simp [found, keeps]
      · simp [same]

theorem foldl_newestAcceptedProposal (promises : List PlexoPromise)
    (first : PlexoPromise) :
    promises.foldl newestAcceptedProposal first ∈ first :: promises ∧
      ∀ promise ∈ first :: promises, promise.acceptedBallot ≤
        (promises.foldl newestAcceptedProposal first).acceptedBallot := by
  induction promises generalizing first with
  | nil => simp
  | cons second promises induction =>
      obtain ⟨member, newest⟩ := induction (newestAcceptedProposal first second)
      rw [List.foldl_cons]
      have picked : newestAcceptedProposal first second = first ∧
            second.acceptedBallot ≤ first.acceptedBallot ∨
          newestAcceptedProposal first second = second ∧
            first.acceptedBallot ≤ second.acceptedBallot := by
        unfold newestAcceptedProposal
        split
        · next older => exact .inl ⟨rfl, le_of_lt older⟩
        · next notOlder => exact .inr ⟨rfl, le_of_not_gt notOlder⟩
      have top := newest _ List.mem_cons_self
      constructor
      · grind
      · rintro promise here
        rcases picked with ⟨same, other⟩ | ⟨same, other⟩
        · grind
        · grind

theorem newestPromise_some {promises : List PlexoPromise}
    {newest : PlexoPromise} (selected : newestPromise promises = some newest) :
    newest ∈ promises ∧ newest.multicastIp.isSome = true ∧
      ∀ promise ∈ promises, promise.multicastIp.isSome = true →
        promise.acceptedBallot ≤ newest.acceptedBallot := by
  unfold newestPromise at selected
  split at selected
  · cases selected
  · next first others withData =>
      cases selected
      obtain ⟨member, top⟩ := foldl_newestAcceptedProposal others first
      rw [← withData] at member top
      obtain ⟨inside, hasData⟩ := List.mem_filter.mp member
      refine ⟨inside, hasData, ?_⟩
      intro promise promised promiseData
      exact top promise (List.mem_filter.mpr ⟨promised, promiseData⟩)

theorem newestPromise_none {promises : List PlexoPromise}
    (nothing : newestPromise promises = none) :
    ∀ promise ∈ promises, promise.multicastIp = none := by
  unfold newestPromise at nothing
  split at nothing
  · next withData =>
      intro promise member
      have filtered := List.filter_eq_nil_iff.mp withData promise member
      simpa using filtered
  · cases nothing

namespace GanglionPlexoMulticast

/-- The address that is settled on is the one reported by the newest promise
with data, or one that the lease manager gives out. -/
theorem chooseAddress_ok {registry : Registry} {promises : List PlexoPromise}
    {popped multicastAddress : IPAddress}
    (chosen : (chooseAddress registry promises popped).1 =
      .ok multicastAddress) :
    (∃ newest, newestPromise promises = some newest ∧
        newest.multicastIp = some multicastAddress.packed) ∨
      (newestPromise promises = none ∧
        (registry.ipLeaseManager.getAddress popped).1 =
          .ok multicastAddress) := by
  unfold chooseAddress at chosen
  split at chosen
  · next newest selected =>
      split at chosen
      · cases chosen
      · next address valid =>
          cases chosen
          obtain ⟨bytes, found, parsed⟩ := Option.bind_eq_some_iff.mp valid
          refine .inl ⟨newest, selected, ?_⟩
          rw [found, packed_of_ipAddress parsed]
  · next selected => exact .inr ⟨selected, chosen⟩

/-- What one step does to the calls. -/
inductive ProposerMove (ganglion : GanglionPlexoMulticast)
    (result : GanglionPlexoMulticast × List Output) : Input → Prop where
  | idle {input : Input} :
      SameCalls ganglion.calls result.1.calls →
      (∀ output ∈ result.2, output.isReaction = true) →
      ProposerMove ganglion result input
  | prepare {call : CallId} {name : String} {newProposalId : Nat} :
      ganglion.calls call = none →
      result.1.calls = ganglion.calls.set call
        (.transmittingPreparation ⟨ganglion.instanceId, newProposalId, name⟩) →
      result.2 = [.transmit .preparation
        (.preparation ⟨ganglion.instanceId, newProposalId, name⟩)] →
      ProposerMove ganglion result (.own (.prepare call name newProposalId))
  | startPreparationTimer {call : CallId} {preparation : PlexoPreparation} :
      ganglion.calls call = some (.transmittingPreparation preparation) →
      result.1.calls =
        ganglion.calls.set call (.awaitingPromises preparation false) →
      result.2 = [] →
      ProposerMove ganglion result (.own (.startPreparationTimer call))
  | reject {call : CallId} {preparation : PlexoPreparation} {cancelled : Bool}
      {popped : IPAddress} :
      ganglion.calls call = some (.awaitingPromises preparation cancelled) →
      ganglion.preparationRejected preparation.typeName = true →
      result.1.calls = ganglion.calls.set call (.raised preparation.typeName
        (.preparationRejection preparation.typeName)) →
      result.2 = [] →
      ProposerMove ganglion result (.own (.checkPromises call popped))
  | exhaust {call : CallId} {preparation : PlexoPreparation}
      {cancelled : Bool} {popped : IPAddress} {error : PlexoError} :
      ganglion.calls call = some (.awaitingPromises preparation cancelled) →
      ganglion.preparationRejected preparation.typeName = false →
      (chooseAddress ganglion.registry
        (ganglion.collectedPromises preparation.typeName) popped).1 =
          .error error →
      result.1.calls =
        ganglion.calls.set call (.raised preparation.typeName error) →
      result.2 = [.passCheck preparation
        (ganglion.collectedPromises preparation.typeName) ganglion.numPeers] →
      ProposerMove ganglion result (.own (.checkPromises call popped))
  | choose {call : CallId} {preparation : PlexoPreparation} {cancelled : Bool}
      {popped multicastAddress : IPAddress} :
      ganglion.calls call = some (.awaitingPromises preparation cancelled) →
      ganglion.CanPop popped →
      ganglion.preparationRejected preparation.typeName = false →
      (chooseAddress ganglion.registry
        (ganglion.collectedPromises preparation.typeName) popped).1 =
          .ok multicastAddress →
      result.1.calls = ganglion.calls.set call (.proposing preparation
        (ganglion.collectedPromises preparation.typeName) multicastAddress) →
      result.2 = [.passCheck preparation
          (ganglion.collectedPromises preparation.typeName) ganglion.numPeers,
        .choose preparation multicastAddress] →
      ProposerMove ganglion result (.own (.checkPromises call popped))
  | propose {call : CallId} {preparation : PlexoPreparation}
      {promises : List PlexoPromise} {multicastAddress : IPAddress} :
      ganglion.calls call =
        some (.proposing preparation promises multicastAddress) →
      result.1.calls = ganglion.calls.set call (.transmittingProposal
        (proposalFor preparation multicastAddress) multicastAddress) →
      result.2 = [.accept (proposalFor preparation multicastAddress),
        .transmit .proposal
          (.proposal (proposalFor preparation multicastAddress))] →
      ProposerMove ganglion result (.own (.sendProposal call))
  | startProposalTimer {call : CallId} {proposal : PlexoProposal}
      {multicastAddress : IPAddress} :
      ganglion.calls call =
        some (.transmittingProposal proposal multicastAddress) →
      result.1.calls = ganglion.calls.set call
        (.awaitingApprovals proposal multicastAddress false) →
      result.2 = [] →
      ProposerMove ganglion result (.own (.startProposalTimer call))
  | return {call : CallId} {proposal : PlexoProposal}
      {multicastAddress : IPAddress} {cancelled : Bool} :
      ganglion.calls call =
        some (.awaitingApprovals proposal multicastAddress cancelled) →
      ganglion.numPeers ≤ 2 * (ganglion.proposalApprovals proposal.key).getD 0 →
      result.1.calls =
        ganglion.calls.set call (.returned proposal multicastAddress) →
      result.2 = [.return proposal multicastAddress ganglion.numPeers] →
      ProposerMove ganglion result (.own (.checkApprovals call))
  | giveUp {call : CallId} {proposal : PlexoProposal}
      {multicastAddress : IPAddress} {cancelled : Bool} :
      ganglion.calls call =
        some (.awaitingApprovals proposal multicastAddress cancelled) →
      result.1.calls = ganglion.calls.set call
        (.raised proposal.typeName .consensusNotReached) →
      result.2 = [] →
      ProposerMove ganglion result (.own (.checkApprovals call))

theorem commitApproval_calls (host : Host) (ganglion : GanglionPlexoMulticast)
    (approval : PlexoApproval) :
    (ganglion.commitApproval host approval).1.calls = ganglion.calls ∧
      ∀ output ∈ (ganglion.commitApproval host approval).2,
        output.isReaction = true := by
  unfold commitApproval
  split
  · simp [Output.isReaction]
  · split
    · simp [Output.isReaction]
    · split <;> simp [Output.isReaction]

theorem approvalReaction_calls (host : Host)
    (ganglion : GanglionPlexoMulticast) (approval : PlexoApproval) :
    SameCalls ganglion.calls
        (ganglion.approvalReaction host approval).1.calls ∧
      ∀ output ∈ (ganglion.approvalReaction host approval).2,
        output.isReaction = true := by
  unfold approvalReaction
  dsimp only
  split
  · split
    · exact ⟨sameCalls_cancelTimer (by simp) _ _ _, by simp⟩
    · obtain ⟨calls, outputs⟩ :=
        commitApproval_calls host (ganglion.countApproval approval.key) approval
      exact ⟨by rw [calls]; exact .rfl, outputs⟩
  · exact ⟨.rfl, by simp⟩

theorem proposerMove_of_checkPromises {ganglion : GanglionPlexoMulticast}
    {call : CallId} {preparation : PlexoPreparation} {cancelled : Bool}
    {popped : IPAddress}
    (found : ganglion.calls call =
      some (.awaitingPromises preparation cancelled))
    (canPop : ganglion.CanPop popped) :
    ProposerMove ganglion (ganglion.checkPromises call preparation popped)
      (.own (.checkPromises call popped)) := by
  unfold checkPromises
  dsimp only
  split
  · next rejected => exact .reject found rejected rfl rfl
  · next passed =>
      have notRejected :
          ganglion.preparationRejected preparation.typeName = false := by
        simpa using passed
      split
      · next error registry chosen =>
          exact .exhaust found notRejected (by rw [chosen]) rfl rfl
      · next multicastAddress registry chosen =>
          exact .choose found canPop notRejected (by rw [chosen]) rfl rfl

theorem proposerMove_of_act {host : Host} {ganglion : GanglionPlexoMulticast}
    {action : OwnAction} {result : GanglionPlexoMulticast × List Output}
    (taken : ganglion.act host action = some result) :
    ProposerMove ganglion result (.own action) := by
  cases ownStep_of_act taken with
  | prepare fresh => exact .prepare fresh rfl rfl
  | startPreparationTimer found => exact .startPreparationTimer found rfl rfl
  | checkPromises found canPop =>
      exact proposerMove_of_checkPromises found canPop
  | sendProposal found => exact .propose found rfl rfl
  | startProposalTimer found => exact .startProposalTimer found rfl rfl
  | @checkApprovals call proposal multicastAddress cancelled found =>
      unfold checkApprovals
      dsimp only
      split
      · next enough => exact .return found enough rfl rfl
      · exact .giveUp found rfl rfl
  | approve pending =>
      exact .idle (approvalReaction_calls ..).1 (approvalReaction_calls ..).2
  | countPeers => exact .idle .rfl (by simp)
  | createSynapse found same =>
      refine .idle .rfl ?_
      unfold raisedBy
      split <;> simp [Output.isReaction]
  | addReactants found => exact .idle .rfl (by simp)
  | addRawReactants found => exact .idle .rfl (by simp)
  | updateTransmitter found => exact .idle .rfl (by simp)
  | createExternalTransmitter => exact .idle .rfl (by simp)

theorem proposerMove_of_react (host : Host) (ganglion : GanglionPlexoMulticast)
    (message : Message) :
    ProposerMove ganglion (ganglion.react host message) (.receive message) := by
  cases message with
  | heartbeat body => exact .idle .rfl (by simp [react])
  | preparation body =>
      simp only [react, preparationReaction]
      split
      · exact .idle .rfl (by simp)
      · split
        · exact .idle .rfl (by simp [Output.isReaction, Message.neuron])
        · exact .idle .rfl (by simp [Output.isReaction, Message.neuron])
  | promise body =>
      simp only [react, promiseReaction]
      split
      · exact .idle .rfl (by simp)
      · refine .idle ?_ (by simp)
        dsimp only
        split
        · exact sameCalls_cancelTimer (by simp) _ _ _
        · exact .rfl
  | rejection body =>
      simp only [react, rejectionReaction]
      split
      · exact .idle .rfl (by simp)
      · refine .idle ?_ (by simp)
        dsimp only
        split
        · exact sameCalls_cancelTimer (by simp) _ _ _
        · exact .rfl
  | proposal body =>
      simp only [react, proposalReaction]
      split
      · exact .idle .rfl (by simp [Output.isReaction])
      · split
        · exact .idle .rfl (by simp [Output.isReaction, Message.neuron])
        · exact .idle .rfl (by simp [Output.isReaction])
  | approval body =>
      exact .idle (approvalReaction_calls ..).1 (approvalReaction_calls ..).2

theorem proposerMove_of_step {host : Host} {ganglion : GanglionPlexoMulticast}
    {input : Input} {result : GanglionPlexoMulticast × List Output}
    (taken : ganglion.step host input = some result) :
    ProposerMove ganglion result input := by
  cases input with
  | own action => exact proposerMove_of_act taken
  | receive message =>
      exact Option.some.inj taken ▸ proposerMove_of_react host ganglion message

end GanglionPlexoMulticast

end Plexo
