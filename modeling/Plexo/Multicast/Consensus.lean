import Plexo.Multicast.Registry

/-!
# The consensus protocol of one ganglion

The five reactions of `GanglionPlexoMulticast` and the coroutine
`_get_address_from_consensus`, cut at the awaits that really suspend: handing
a message to the network, and waiting for a timer.  What stands between two
such awaits is one step.

`transmit` hands its message to the event loop before it suspends, so a
message counts as sent in the step that reaches the call.  Locks are left out:
the only lock held over a suspension is `_proposals_lock` in
`_preparation_reaction`, and it can only rule out orders that are allowed here.
-/

namespace Plexo

open PersistentMap

/-- The identity of one call of `_get_address_from_consensus`, and of the timer
the call is waiting for. -/
abbrev CallId := Nat

/-- Where a call of `_get_address_from_consensus` is suspended, with the local
variables that are still read. -/
inductive Attempt where
  /-- In `_send_preparation`, before the timer exists. -/
  | transmittingPreparation (preparation : PlexoPreparation)
  /-- In `preparation_timer.wait()`. -/
  | awaitingPromises (preparation : PlexoPreparation) (cancelled : Bool)
  /-- Past the promise check, about to enter `_send_proposal`. -/
  | proposing (preparation : PlexoPreparation) (promises : List PlexoPromise)
      (multicastAddress : IPAddress)
  /-- In `_send_proposal`, the proposal is stored and handed to the network. -/
  | transmittingProposal (proposal : PlexoProposal)
      (multicastAddress : IPAddress)
  /-- In `proposal_timer.wait()`. -/
  | awaitingApprovals (proposal : PlexoProposal) (multicastAddress : IPAddress)
      (cancelled : Bool)
  | returned (proposal : PlexoProposal) (multicastAddress : IPAddress)
  | raised (typeName : String) (error : PlexoError)
  deriving DecidableEq

structure GanglionPlexoMulticast where
  registry : Registry
  instanceId : Nat
  numPeers : Nat
  proposals : PMap String PlexoProposal
  preparationTimers : PMap String CallId
  preparationPromises : PMap String (List PlexoPromise)
  preparationRejections : PMap String Nat
  proposalTimers : PMap String CallId
  proposalApprovals : PMap (String × Nat × Nat) Nat
  startupDone : Bool
  /-- The calls of `_get_address_from_consensus` made so far. -/
  calls : PMap CallId Attempt
  /-- The proposal reactions that have handed their approval to the network
  and are about to count it themselves. -/
  approving : List PlexoApproval

/-- `__init__`. -/
def GanglionPlexoMulticast.init (multicastCidr : IPNetwork) (instanceId : Nat)
    (filters : Filters) : GanglionPlexoMulticast :=
  { registry := .init multicastCidr filters
    instanceId
    numPeers := 0
    proposals := PMap.empty
    preparationTimers := PMap.empty
    preparationPromises := PMap.empty
    preparationRejections := PMap.empty
    proposalTimers := PMap.empty
    proposalApprovals := PMap.empty
    startupDone := false
    calls := PMap.empty
    approving := [] }

/-- An instance past its startup. -/
def GanglionPlexoMulticast.started (host : Host) (multicastCidr : IPNetwork)
    (instanceId numPeers : Nat) (filters : Filters) : GanglionPlexoMulticast :=
  let blank := GanglionPlexoMulticast.init multicastCidr instanceId filters
  { blank with
    registry := (blank.registry.startup host).2
    numPeers
    startupDone := true }

/-- An instance past its startup on `239.0.0.0/26`, for concrete runs. -/
def GanglionPlexoMulticast.sample (instanceId numPeers : Nat) :
    GanglionPlexoMulticast :=
  .started .permissive .sample instanceId numPeers {}

/-- An instance that has not taken part in the protocol yet. -/
structure GanglionPlexoMulticast.Idle (ganglion : GanglionPlexoMulticast) :
    Prop where
  proposals : ganglion.proposals = PMap.empty
  promises : ganglion.preparationPromises = PMap.empty
  approvals : ganglion.proposalApprovals = PMap.empty
  approving : ganglion.approving = []
  calls : ganglion.calls = PMap.empty

theorem GanglionPlexoMulticast.started_idle (host : Host)
    (multicastCidr : IPNetwork) (instanceId numPeers : Nat)
    (filters : Filters) :
    (started host multicastCidr instanceId numPeers filters).Idle :=
  ⟨rfl, rfl, rfl, rfl, rfl⟩

/-- What a step lets an observer see.  `transmit` is the message traffic; the
other constructors mark the moments that properties of runs speak about. -/
inductive Output where
  | transmit (neuron : ProtocolNeuron) (message : Message)
  /-- A proposal was stored by `_proposal_reaction` or `_send_proposal`. -/
  | accept (proposal : PlexoProposal)
  /-- A call passed its promise check. -/
  | passCheck (preparation : PlexoPreparation) (promises : List PlexoPromise)
      (numPeers : Nat)
  /-- A call settled on the address to propose. -/
  | choose (preparation : PlexoPreparation) (multicastAddress : IPAddress)
  /-- A call passed its approval check and returned. -/
  | return (proposal : PlexoProposal) (multicastAddress : IPAddress)
      (numPeers : Nat)
  /-- A reaction ended with an exception. -/
  | raise (error : PlexoError)
  deriving DecidableEq

namespace Attempt

def cancelPreparationTimer : Attempt → Attempt
  | .awaitingPromises preparation _ => .awaitingPromises preparation true
  | attempt => attempt

def cancelProposalTimer : Attempt → Attempt
  | .awaitingApprovals proposal address _ =>
      .awaitingApprovals proposal address true
  | attempt => attempt

end Attempt

/-- `timers[name].cancel()` inside `try ... except KeyError`. -/
def cancelTimer (cancel : Attempt → Attempt) (timers : PMap String CallId)
    (name : String) (calls : PMap CallId Attempt) : PMap CallId Attempt :=
  match timers name with
  | none => calls
  | some call => fun other => if other = call then (calls call).map cancel
      else calls other

/-- `not current_proposal or proposal_is_newer(current_proposal, ballot)`. -/
def mayPromise (currentProposal : Option PlexoProposal) (ballot : Ballot) : Bool :=
  match currentProposal with
  | none => true
  | some current => proposalIsNewer current.ballot ballot

/-- The promise that answers a preparation; it reports the stored ballot. -/
def promiseFor (currentProposal : Option PlexoProposal)
    (preparation : PlexoPreparation) : PlexoPromise :=
  { multicastIp := currentProposal.bind (·.multicastIp)
    acceptedInstanceId := (currentProposal.map (·.instanceId)).getD 0
    acceptedProposalId := (currentProposal.map (·.proposalId)).getD 0
    instanceId := preparation.instanceId
    proposalId := preparation.proposalId
    typeName := preparation.typeName }

def promisedProposal (currentProposal : Option PlexoProposal)
    (preparation : PlexoPreparation) : PlexoProposal :=
  { instanceId := preparation.instanceId
    proposalId := preparation.proposalId
    typeName := preparation.typeName
    multicastIp := currentProposal.bind (·.multicastIp) }

def proposalFor (preparation : PlexoPreparation) (multicastAddress : IPAddress) :
    PlexoProposal :=
  { instanceId := preparation.instanceId
    proposalId := preparation.proposalId
    typeName := preparation.typeName
    multicastIp := some multicastAddress.packed }

def approvalFor (proposal : PlexoProposal) : PlexoApproval :=
  { instanceId := proposal.instanceId
    proposalId := proposal.proposalId
    typeName := proposal.typeName
    multicastIp := proposal.multicastIp }

def rejectionFor (preparation : PlexoPreparation) : PlexoRejection :=
  { instanceId := preparation.instanceId
    proposalId := preparation.proposalId
    typeName := preparation.typeName }

/-- The key of `_proposal_approvals`. -/
def PlexoApproval.key (approval : PlexoApproval) : String × Nat × Nat :=
  (approval.typeName, approval.proposalId, approval.instanceId)

def PlexoProposal.key (proposal : PlexoProposal) : String × Nat × Nat :=
  (proposal.typeName, proposal.proposalId, proposal.instanceId)

/-- `reduce(newest_accepted_proposal, promises_with_data)`, if there are any. -/
def newestPromise (promises : List PlexoPromise) : Option PlexoPromise :=
  match promises.filter (·.multicastIp.isSome) with
  | [] => none
  | first :: others => some (others.foldl newestAcceptedProposal first)

namespace GanglionPlexoMulticast

def preparationReaction (ganglion : GanglionPlexoMulticast)
    (preparation : PlexoPreparation) : GanglionPlexoMulticast × List Output :=
  if preparation.instanceId = ganglion.instanceId then
    (ganglion, [])
  else
    let currentProposal := ganglion.proposals preparation.typeName
    if mayPromise currentProposal preparation.ballot then
      -- the promise goes out on the neuron of proposals
      ({ ganglion with
          proposals := ganglion.proposals.set preparation.typeName
            (promisedProposal currentProposal preparation) },
        [.transmit .proposal (.promise (promiseFor currentProposal preparation))])
    else
      (ganglion, [.transmit .rejection (.rejection (rejectionFor preparation))])

def promiseReaction (ganglion : GanglionPlexoMulticast)
    (promise : PlexoPromise) : GanglionPlexoMulticast × List Output :=
  if promise.instanceId ≠ ganglion.instanceId then
    (ganglion, [])
  else
    let newPromises :=
      (ganglion.preparationPromises promise.typeName).getD [] ++ [promise]
    ({ ganglion with
        preparationPromises :=
          ganglion.preparationPromises.set promise.typeName newPromises
        calls :=
          if newPromises.length ≥ ganglion.numPeers then
            cancelTimer .cancelPreparationTimer ganglion.preparationTimers
              promise.typeName ganglion.calls
          else
            ganglion.calls },
      [])

def rejectionReaction (ganglion : GanglionPlexoMulticast)
    (rejection : PlexoRejection) : GanglionPlexoMulticast × List Output :=
  if rejection.instanceId ≠ ganglion.instanceId then
    (ganglion, [])
  else
    let newRejectionsNum :=
      (ganglion.preparationRejections rejection.typeName).getD 0 + 1
    ({ ganglion with
        preparationRejections :=
          ganglion.preparationRejections.set rejection.typeName newRejectionsNum
        calls :=
          if 2 * newRejectionsNum > ganglion.numPeers then
            cancelTimer .cancelPreparationTimer ganglion.preparationTimers
              rejection.typeName ganglion.calls
          else
            ganglion.calls },
      [])

def proposalReaction (ganglion : GanglionPlexoMulticast)
    (proposal : PlexoProposal) : GanglionPlexoMulticast × List Output :=
  match ganglion.proposals proposal.typeName with
  | none => (ganglion, [.raise .proposalPromiseNotMade])
  | some current =>
      if proposalIsEqual current.ballot proposal.ballot then
        ({ ganglion with
            proposals := ganglion.proposals.set proposal.typeName proposal
            approving := approvalFor proposal :: ganglion.approving },
          [.accept proposal,
            .transmit .approval (.approval (approvalFor proposal))])
      else
        (ganglion, [.raise .proposalNotLatest])

/-- The branch of `_approval_reaction` that commits the address of another
proposer. -/
def commitApproval (host : Host) (ganglion : GanglionPlexoMulticast)
    (approval : PlexoApproval) : GanglionPlexoMulticast × List Output :=
  match ganglion.registry.base.getNeuronByName approval.typeName with
  | .error error => (ganglion, [.raise error])
  | .ok neuron =>
      match approval.multicastIp.bind ipAddress with
      | none => (ganglion, [.raise .valueError])
      | some multicastAddress =>
          match ganglion.registry.createOrUpdateSynapseWithAddress host neuron
              approval.typeName multicastAddress with
          | (.error error, registry) =>
              ({ ganglion with registry }, [.raise error])
          | (.ok _, registry) =>
              ({ ganglion with
                  registry
                  proposalApprovals :=
                    ganglion.proposalApprovals.discard approval.key }, [])

def newApprovalsNum (ganglion : GanglionPlexoMulticast)
    (key : String × Nat × Nat) : Nat :=
  (ganglion.proposalApprovals key).getD 0 + 1

def countApproval (ganglion : GanglionPlexoMulticast)
    (key : String × Nat × Nat) : GanglionPlexoMulticast :=
  { ganglion with
    proposalApprovals :=
      ganglion.proposalApprovals.set key (ganglion.newApprovalsNum key) }

def approvalReaction (host : Host) (ganglion : GanglionPlexoMulticast)
    (approval : PlexoApproval) : GanglionPlexoMulticast × List Output :=
  let counted := ganglion.countApproval approval.key
  if 2 * ganglion.newApprovalsNum approval.key > ganglion.numPeers then
    if approval.instanceId = ganglion.instanceId then
      ({ counted with
          calls := cancelTimer .cancelProposalTimer counted.proposalTimers
            approval.typeName counted.calls }, [])
    else
      counted.commitApproval host approval
  else
    (counted, [])

/-- The reaction to a message by its type.  `_heartbeat_reaction` only feeds
the count of peers. -/
def react (host : Host) (ganglion : GanglionPlexoMulticast) :
    Message → GanglionPlexoMulticast × List Output
  | .heartbeat _ => (ganglion, [])
  | .preparation body => ganglion.preparationReaction body
  | .promise body => ganglion.promiseReaction body
  | .rejection body => ganglion.rejectionReaction body
  | .proposal body => ganglion.proposalReaction body
  | .approval body => ganglion.approvalReaction host body

def setCall (ganglion : GanglionPlexoMulticast) (call : CallId)
    (attempt : Attempt) : GanglionPlexoMulticast :=
  { ganglion with calls := ganglion.calls.set call attempt }

/-- `_send_preparation`, with the clock reading as an argument. -/
def sendPreparation (ganglion : GanglionPlexoMulticast) (call : CallId)
    (name : String) (newProposalId : Nat) :
    GanglionPlexoMulticast × List Output :=
  let preparation : PlexoPreparation :=
    { instanceId := ganglion.instanceId
      proposalId := newProposalId
      typeName := name }
  (ganglion.setCall call (.transmittingPreparation preparation),
    [.transmit .preparation (.preparation preparation)])

/-- The preparation timer is created, stored and waited for. -/
def startPreparationTimer (ganglion : GanglionPlexoMulticast) (call : CallId)
    (preparation : PlexoPreparation) : GanglionPlexoMulticast :=
  { ganglion.setCall call (.awaitingPromises preparation false) with
    preparationTimers :=
      ganglion.preparationTimers.set preparation.typeName call }

/-- The maps are cleared of the entries for the name after the wait. -/
def clearPreparation (ganglion : GanglionPlexoMulticast) (name : String) :
    GanglionPlexoMulticast :=
  { ganglion with
    preparationTimers := ganglion.preparationTimers.discard name
    preparationPromises := ganglion.preparationPromises.discard name
    preparationRejections := ganglion.preparationRejections.discard name }

def collectedPromises (ganglion : GanglionPlexoMulticast) (name : String) :
    List PlexoPromise :=
  (ganglion.preparationPromises name).getD []

def collectedRejections (ganglion : GanglionPlexoMulticast) (name : String) :
    Nat :=
  (ganglion.preparationRejections name).getD 0

/-- `len(promises) < half_num_peers or rejections_num > half_num_peers`. -/
def preparationRejected (ganglion : GanglionPlexoMulticast) (name : String) :
    Bool :=
  2 * (ganglion.collectedPromises name).length < ganglion.numPeers ||
    2 * ganglion.collectedRejections name > ganglion.numPeers

/-- The address to propose: that of the newest promise with data, or a fresh
one.  `popped` is the element that `set.pop` takes if a fresh one is needed. -/
def chooseAddress (registry : Registry) (promises : List PlexoPromise)
    (popped : IPAddress) : Except PlexoError IPAddress × Registry :=
  match newestPromise promises with
  | some promise =>
      match promise.multicastIp.bind ipAddress with
      | none => (.error .valueError, registry)
      | some multicastAddress => (.ok multicastAddress, registry)
  | none =>
      match registry.ipLeaseManager.getAddress popped with
      | (result, ipLeaseManager) => (result, { registry with ipLeaseManager })

/-- `set.pop` can take `popped`. -/
def CanPop (ganglion : GanglionPlexoMulticast) (popped : IPAddress) : Prop :=
  ganglion.registry.ipLeaseManager.availableIps = ∅ ∨
    popped ∈ ganglion.registry.ipLeaseManager.availableIps

instance (ganglion : GanglionPlexoMulticast) (popped : IPAddress) :
    Decidable (ganglion.CanPop popped) :=
  inferInstanceAs (Decidable (_ ∨ _))

/-- From the end of the first wait to the promise check and the choice of an
address. -/
def checkPromises (ganglion : GanglionPlexoMulticast) (call : CallId)
    (preparation : PlexoPreparation) (popped : IPAddress) :
    GanglionPlexoMulticast × List Output :=
  let name := preparation.typeName
  let promises := ganglion.collectedPromises name
  let cleared := ganglion.clearPreparation name
  if ganglion.preparationRejected name then
    (cleared.setCall call (.raised name (.preparationRejection name)), [])
  else
    match chooseAddress ganglion.registry promises popped with
    | (.error error, registry) =>
        ({ cleared with registry }.setCall call (.raised name error),
          [.passCheck preparation promises ganglion.numPeers])
    | (.ok multicastAddress, registry) =>
        ({ cleared with registry }.setCall call
            (.proposing preparation promises multicastAddress),
          [.passCheck preparation promises ganglion.numPeers,
            .choose preparation multicastAddress])

/-- `_send_proposal`: the proposal is stored without a look at what is there. -/
def sendProposal (ganglion : GanglionPlexoMulticast) (call : CallId)
    (preparation : PlexoPreparation) (multicastAddress : IPAddress) :
    GanglionPlexoMulticast × List Output :=
  let proposal := proposalFor preparation multicastAddress
  ({ ganglion.setCall call (.transmittingProposal proposal multicastAddress) with
      proposals := ganglion.proposals.set preparation.typeName proposal },
    [.accept proposal, .transmit .proposal (.proposal proposal)])

def startProposalTimer (ganglion : GanglionPlexoMulticast) (call : CallId)
    (proposal : PlexoProposal) (multicastAddress : IPAddress) :
    GanglionPlexoMulticast :=
  { ganglion.setCall call (.awaitingApprovals proposal multicastAddress false) with
    proposalTimers := ganglion.proposalTimers.set proposal.typeName call }

/-- From the end of the second wait to the approval check. -/
def checkApprovals (ganglion : GanglionPlexoMulticast) (call : CallId)
    (proposal : PlexoProposal) (multicastAddress : IPAddress) :
    GanglionPlexoMulticast × List Output :=
  let cleared :=
    { ganglion with
      proposalTimers := ganglion.proposalTimers.discard proposal.typeName }
  let approvalsNum := (ganglion.proposalApprovals proposal.key).getD 0
  -- only a missing entry is discarded, so nothing is removed here
  if 2 * approvalsNum ≥ ganglion.numPeers then
    (cleared.setCall call (.returned proposal multicastAddress),
      [.return proposal multicastAddress ganglion.numPeers])
  else
    (cleared.setCall call (.raised proposal.typeName .consensusNotReached), [])

end GanglionPlexoMulticast

/-- A step that an instance takes on its own. -/
inductive OwnAction where
  | prepare (call : CallId) (name : String) (newProposalId : Nat)
  | startPreparationTimer (call : CallId)
  | checkPromises (call : CallId) (popped : IPAddress)
  | sendProposal (call : CallId)
  | startProposalTimer (call : CallId)
  | checkApprovals (call : CallId)
  /-- A suspended `_proposal_reaction` counts its own approval. -/
  | approve (approval : PlexoApproval)
  /-- `_num_peers_loop` recomputes the number of peers. -/
  | countPeers (numPeers : Nat)
  /-- The rest of `_create_synapse_by_name` after a call has returned. -/
  | createSynapse (call : CallId) (neuron : Neuron)
  | addReactants (neuron : Neuron) (reactants : List ReactantId)
  | addRawReactants (neuron : Neuron) (rawReactants : List ReactantId)
  /-- The rest of `update_transmitter` once the synapse is there. -/
  | updateTransmitter (neuron : Neuron)
  /-- `create_external_transmitter` called by a user. -/
  | createExternalTransmitter (neuron : Neuron) (synapse : SynapseId)

inductive Input where
  | own (action : OwnAction)
  | receive (message : Message)

namespace GanglionPlexoMulticast

def raisedBy {α : Type} : Except PlexoError α → List Output
  | .error error => [.raise error]
  | .ok _ => []

def onSynapse (ganglion : GanglionPlexoMulticast) (neuron : Neuron)
    (operation : SynapseZmqPlexoPubSubEPGM → SynapseZmqPlexoPubSubEPGM) :
    Option (GanglionPlexoMulticast × List Output) :=
  match ganglion.registry.base.synapses neuron.name with
  | none => none
  | some synapse =>
      let object := operation (ganglion.registry.objects synapse)
      some
        ({ ganglion with registry := ganglion.registry.setObject synapse object },
          [])

/-- The own actions; an action that is not enabled has no result. -/
def act (host : Host) (ganglion : GanglionPlexoMulticast) :
    OwnAction → Option (GanglionPlexoMulticast × List Output)
  | .prepare call name newProposalId =>
      match ganglion.calls call with
      | none => some (ganglion.sendPreparation call name newProposalId)
      | _ => none
  | .startPreparationTimer call =>
      match ganglion.calls call with
      | some (.transmittingPreparation preparation) =>
          some (ganglion.startPreparationTimer call preparation, [])
      | _ => none
  | .checkPromises call popped =>
      match ganglion.calls call with
      | some (.awaitingPromises preparation _) =>
          if ganglion.CanPop popped then
            some (ganglion.checkPromises call preparation popped)
          else
            none
      | _ => none
  | .sendProposal call =>
      match ganglion.calls call with
      | some (.proposing preparation _ multicastAddress) =>
          some (ganglion.sendProposal call preparation multicastAddress)
      | _ => none
  | .startProposalTimer call =>
      match ganglion.calls call with
      | some (.transmittingProposal proposal multicastAddress) =>
          some (ganglion.startProposalTimer call proposal multicastAddress, [])
      | _ => none
  | .checkApprovals call =>
      match ganglion.calls call with
      | some (.awaitingApprovals proposal multicastAddress _) =>
          some (ganglion.checkApprovals call proposal multicastAddress)
      | _ => none
  | .approve approval =>
      if approval ∈ ganglion.approving then
        some (approvalReaction host
          { ganglion with approving := ganglion.approving.erase approval }
          approval)
      else
        none
  | .countPeers numPeers => some ({ ganglion with numPeers }, [])
  | .createSynapse call neuron =>
      match ganglion.calls call with
      | some (.returned proposal multicastAddress) =>
          if neuron.name = proposal.typeName then
            let created := ganglion.registry.createSynapseWithAddress host neuron
              neuron.name multicastAddress
            some ({ ganglion with registry := created.2 }, raisedBy created.1)
          else
            none
      | _ => none
  | .addReactants neuron reactants =>
      ganglion.onSynapse neuron (·.addReactants reactants)
  | .addRawReactants neuron rawReactants =>
      ganglion.onSynapse neuron (·.addRawReactants rawReactants)
  | .updateTransmitter neuron =>
      match ganglion.registry.base.synapses neuron.name with
      | none => none
      | some synapse =>
          some
            ({ ganglion with
                registry := { ganglion.registry with
                  base := ganglion.registry.base.updateTransmitter neuron
                    synapse } }, [])
  | .createExternalTransmitter neuron synapse =>
      some
        ({ ganglion with
            registry := { ganglion.registry with
              base := ganglion.registry.base.createExternalTransmitter neuron
                synapse } }, [])

/-- What each own action needs and does. -/
inductive OwnStep (host : Host) (ganglion : GanglionPlexoMulticast) :
    OwnAction → GanglionPlexoMulticast × List Output → Prop where
  | prepare {call : CallId} {name : String} {newProposalId : Nat} :
      ganglion.calls call = none →
      OwnStep host ganglion (.prepare call name newProposalId)
        (ganglion.sendPreparation call name newProposalId)
  | startPreparationTimer {call : CallId} {preparation : PlexoPreparation} :
      ganglion.calls call = some (.transmittingPreparation preparation) →
      OwnStep host ganglion (.startPreparationTimer call)
        (ganglion.startPreparationTimer call preparation, [])
  | checkPromises {call : CallId} {preparation : PlexoPreparation}
      {cancelled : Bool} {popped : IPAddress} :
      ganglion.calls call = some (.awaitingPromises preparation cancelled) →
      ganglion.CanPop popped →
      OwnStep host ganglion (.checkPromises call popped)
        (ganglion.checkPromises call preparation popped)
  | sendProposal {call : CallId} {preparation : PlexoPreparation}
      {promises : List PlexoPromise} {multicastAddress : IPAddress} :
      ganglion.calls call =
        some (.proposing preparation promises multicastAddress) →
      OwnStep host ganglion (.sendProposal call)
        (ganglion.sendProposal call preparation multicastAddress)
  | startProposalTimer {call : CallId} {proposal : PlexoProposal}
      {multicastAddress : IPAddress} :
      ganglion.calls call =
        some (.transmittingProposal proposal multicastAddress) →
      OwnStep host ganglion (.startProposalTimer call)
        (ganglion.startProposalTimer call proposal multicastAddress, [])
  | checkApprovals {call : CallId} {proposal : PlexoProposal}
      {multicastAddress : IPAddress} {cancelled : Bool} :
      ganglion.calls call =
        some (.awaitingApprovals proposal multicastAddress cancelled) →
      OwnStep host ganglion (.checkApprovals call)
        (ganglion.checkApprovals call proposal multicastAddress)
  | approve {approval : PlexoApproval} :
      approval ∈ ganglion.approving →
      OwnStep host ganglion (.approve approval)
        (approvalReaction host
          { ganglion with approving := ganglion.approving.erase approval }
          approval)
  | countPeers {numPeers : Nat} :
      OwnStep host ganglion (.countPeers numPeers)
        ({ ganglion with numPeers }, [])
  | createSynapse {call : CallId} {neuron : Neuron} {proposal : PlexoProposal}
      {multicastAddress : IPAddress} :
      ganglion.calls call = some (.returned proposal multicastAddress) →
      neuron.name = proposal.typeName →
      OwnStep host ganglion (.createSynapse call neuron)
        ({ ganglion with
            registry := (ganglion.registry.createSynapseWithAddress host neuron
              neuron.name multicastAddress).2 },
          raisedBy (ganglion.registry.createSynapseWithAddress host neuron
            neuron.name multicastAddress).1)
  | addReactants {neuron : Neuron} {reactants : List ReactantId}
      {synapse : SynapseId} :
      ganglion.registry.base.synapses neuron.name = some synapse →
      OwnStep host ganglion (.addReactants neuron reactants)
        ({ ganglion with
            registry := ganglion.registry.setObject synapse
              ((ganglion.registry.objects synapse).addReactants reactants) },
          [])
  | addRawReactants {neuron : Neuron} {rawReactants : List ReactantId}
      {synapse : SynapseId} :
      ganglion.registry.base.synapses neuron.name = some synapse →
      OwnStep host ganglion (.addRawReactants neuron rawReactants)
        ({ ganglion with
            registry := ganglion.registry.setObject synapse
              ((ganglion.registry.objects synapse).addRawReactants
                rawReactants) },
          [])
  | updateTransmitter {neuron : Neuron} {synapse : SynapseId} :
      ganglion.registry.base.synapses neuron.name = some synapse →
      OwnStep host ganglion (.updateTransmitter neuron)
        ({ ganglion with
            registry := { ganglion.registry with
              base := ganglion.registry.base.updateTransmitter neuron
                synapse } },
          [])
  | createExternalTransmitter {neuron : Neuron} {synapse : SynapseId} :
      OwnStep host ganglion (.createExternalTransmitter neuron synapse)
        ({ ganglion with
            registry := { ganglion.registry with
              base := ganglion.registry.base.createExternalTransmitter neuron
                synapse } },
          [])

theorem ownStep_of_act {host : Host} {ganglion : GanglionPlexoMulticast}
    {action : OwnAction} {result : GanglionPlexoMulticast × List Output}
    (taken : ganglion.act host action = some result) :
    OwnStep host ganglion action result := by
  cases action with
  | prepare call name newProposalId =>
      simp only [act] at taken
      split at taken
      · next fresh => exact Option.some.inj taken ▸ .prepare fresh
      · simp at taken
  | startPreparationTimer call =>
      simp only [act] at taken
      split at taken
      · next found => exact Option.some.inj taken ▸ .startPreparationTimer found
      · simp at taken
  | checkPromises call popped =>
      simp only [act] at taken
      split at taken
      · next found =>
          split at taken
          · next canPop =>
              exact Option.some.inj taken ▸ .checkPromises found canPop
          · simp at taken
      · simp at taken
  | sendProposal call =>
      simp only [act] at taken
      split at taken
      · next found => exact Option.some.inj taken ▸ .sendProposal found
      · simp at taken
  | startProposalTimer call =>
      simp only [act] at taken
      split at taken
      · next found => exact Option.some.inj taken ▸ .startProposalTimer found
      · simp at taken
  | checkApprovals call =>
      simp only [act] at taken
      split at taken
      · next found => exact Option.some.inj taken ▸ .checkApprovals found
      · simp at taken
  | approve approval =>
      simp only [act] at taken
      split at taken
      · next pending => exact Option.some.inj taken ▸ .approve pending
      · simp at taken
  | countPeers numPeers => exact Option.some.inj taken ▸ .countPeers
  | createSynapse call neuron =>
      simp only [act] at taken
      split at taken
      · next found =>
          split at taken
          · next same => exact Option.some.inj taken ▸ .createSynapse found same
          · simp at taken
      · simp at taken
  | addReactants neuron reactants =>
      simp only [act, onSynapse] at taken
      split at taken
      · simp at taken
      · next found => exact Option.some.inj taken ▸ .addReactants found
  | addRawReactants neuron rawReactants =>
      simp only [act, onSynapse] at taken
      split at taken
      · simp at taken
      · next found => exact Option.some.inj taken ▸ .addRawReactants found
  | updateTransmitter neuron =>
      simp only [act] at taken
      split at taken
      · simp at taken
      · next found => exact Option.some.inj taken ▸ .updateTransmitter found
  | createExternalTransmitter neuron synapse =>
      exact Option.some.inj taken ▸ .createExternalTransmitter

/-- One step of an instance. -/
def step (host : Host) (ganglion : GanglionPlexoMulticast) :
    Input → Option (GanglionPlexoMulticast × List Output)
  | .own action => ganglion.act host action
  | .receive message => some (ganglion.react host message)

end GanglionPlexoMulticast

end Plexo
