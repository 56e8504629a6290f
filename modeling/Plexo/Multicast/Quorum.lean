import Plexo.Multicast.Ownership

/-!
# Quorums behind the two checks

`_get_address_from_consensus` compares the number of promises collected for the
type, and later the number of approvals counted for its ballot, with half of
the number of peers.  The approvals are counted by ballot, so they stand for
distinct acceptors as long as no ballot is used twice.  The promises are
collected by type only: those of an earlier attempt that arrive late, or of a
concurrent one, count as well.
-/

namespace Plexo

open PersistentMap Transition

namespace GanglionPlexoMulticast

def ownPromises (ganglion : GanglionPlexoMulticast)
    (preparation : PlexoPreparation) : List PlexoPromise :=
  (ganglion.collectedPromises preparation.typeName).filter
    (·.ballot = preparation.ballot)

/-- The promise check of a call passes only if half of the peers promised the
ballot of the call itself. -/
def hasOwnQuorum (ganglion : GanglionPlexoMulticast) : OwnAction → Bool
  | .checkPromises call _ =>
      match ganglion.calls call with
      | some (.awaitingPromises preparation _) =>
          ganglion.preparationRejected preparation.typeName ||
            ganglion.numPeers ≤ 2 * (ganglion.ownPromises preparation).length
      | _ => true
  | _ => true

end GanglionPlexoMulticast

namespace Network

variable {N : Nat}

def hasOwnQuorum (network : Network N) : NetworkAction N → Bool
  | .act instance_ action => (network.ganglion instance_).hasOwnQuorum action
  | _ => true

/-- What has to be true of an entry of the history when it is made. -/
def QuorumBehind (entry : Fin N × Output) (older : List (Fin N × Output)) :
    Prop :=
  match entry.2 with
  | .passCheck preparation _ numPeers =>
      numPeers ≤ 2 * (promisers older entry.1 preparation.typeName
        preparation.ballot).card
  | .return proposal _ numPeers =>
      numPeers ≤ 2 * (acceptors older proposal.typeName proposal.ballot).card
  | _ => True

instance (entry : Fin N × Output) (older : List (Fin N × Output)) :
    Decidable (QuorumBehind entry older) :=
  match entry with
  | (proposer, .passCheck preparation _ numPeers) =>
      inferInstanceAs (Decidable (numPeers ≤ 2 * (promisers older proposer
        preparation.typeName preparation.ballot).card))
  | (_, .return proposal _ numPeers) =>
      inferInstanceAs (Decidable (numPeers ≤ 2 * (acceptors older
        proposal.typeName proposal.ballot).card))
  | (_, .transmit _ _) => isTrue trivial
  | (_, .accept _) => isTrue trivial
  | (_, .choose _ _) => isTrue trivial
  | (_, .raise _) => isTrue trivial

theorem Conserved.received_le {network : Network N}
    (conserved : network.Conserved) (target : Fin N) (kind : ProtocolNeuron)
    (name : String) (ballot : Ballot) :
    network.received target kind name ballot ≤
      network.sentTo target fun _ message => message.isFor kind name ballot := by
  have account := conserved target fun _ message => message.isFor kind name ballot
  rw [addressedTo, List.countP_append] at account
  unfold received
  omega

theorem Conserved.received_le_sentByAny {network : Network N}
    (conserved : network.Conserved) (target : Fin N) (kind : ProtocolNeuron)
    (name : String) (ballot : Ballot) :
    network.received target kind name ballot ≤
      network.sentByAny kind name ballot := by
  refine le_trans (conserved.received_le target kind name ballot) ?_
  apply List.countP_mono_left
  simp +contextual [Output.sends]

theorem Accounted.promised_once {network : Network N}
    (accounted : network.Accounted) (owned : network.Owned) (source : Fin N)
    (name : String) (ballot : Ballot) :
    network.sent source .promise name ballot ≤ 1 :=
  calc network.sent source .promise name ballot
      ≤ network.received source .preparation name ballot :=
        accounted.promised source name ballot
    _ ≤ network.sentByAny .preparation name ballot :=
        accounted.conserved.received_le_sentByAny source _ name ballot
    _ ≤ 1 := owned.once name ballot

theorem Accounted.approved_once {network : Network N}
    (accounted : network.Accounted) (owned : network.Owned) (source : Fin N)
    (name : String) (ballot : Ballot) :
    network.sent source .approval name ballot ≤ 1 :=
  calc network.sent source .approval name ballot
      ≤ network.received source .proposal name ballot :=
        accounted.approved source name ballot
    _ ≤ network.sentByAny .proposal name ballot :=
        accounted.conserved.received_le_sentByAny source _ name ballot
    _ ≤ 1 := owned.proposedOnce name ballot

theorem Accounted.owner_receives_no_proposal {network : Network N}
    (accounted : network.Accounted) (owned : network.Owned) {owner : Fin N}
    {name : String} {ballot : Ballot}
    (prepared : 0 < network.sent owner .preparation name ballot) :
    network.received owner .proposal name ballot = 0 := by
  have account := accounted.conserved.received_le owner .proposal name ballot
  have nobody : network.sentTo owner
      (fun _ message => message.isFor .proposal name ballot) = 0 := by
    rw [sentTo, List.countP_eq_zero]
    rintro ⟨source, output⟩ member transmitted
    simp only [Bool.and_eq_true, decide_eq_true_eq] at transmitted
    have sent : 0 < network.sent source .proposal name ballot := by
      refine List.countP_pos_iff.mpr ⟨_, member, ?_⟩
      simpa [Output.sends] using transmitted.2
    exact transmitted.1
      (owned.owner_unique (owned.proposer source name ballot sent) prepared)
  omega

theorem Accounted.collected_le {network : Network N}
    (accounted : network.Accounted) (target : Fin N) (name : String)
    (wanted : PlexoPromise → Bool) :
    ((network.ganglion target).collectedPromises name).countP wanted ≤
      network.delivered.countP (·.carries target
        fun _ message => (message.promise? name).any wanted) := by
  have sublist := accounted.promises target name
  calc ((network.ganglion target).collectedPromises name).countP wanted
      = ((network.ganglion target).collectedPromises name).reverse.countP
          wanted := List.countP_reverse.symm
    _ ≤ (network.receivedPromises target name).countP wanted :=
        sublist.countP_le
    _ = network.delivered.countP (·.carries target
          fun _ message => (message.promise? name).any wanted) := by
        rw [receivedPromises, List.countP_filterMap]
        apply List.countP_congr
        rintro envelope -
        by_cases here : envelope.target = target
        · simp only [here, if_true, Envelope.carries, decide_true,
            Bool.true_and]
          cases envelope.message.promise? name <;> simp
        · simp [here, Envelope.carries]

theorem promise?_any_ballot (message : Message) (name : String)
    (ballot : Ballot) :
    (message.promise? name).any (·.ballot = ballot) =
      message.isFor .promise name ballot := by
  rw [Bool.eq_iff_iff]
  cases message with
  | promise body =>
      by_cases same : body.typeName = name
      · simp [Message.promise?, same]
      · simp [Message.promise?, same]
  | _ => simp [Message.promise?]

/-- The promises for one ballot that an instance collected have distinct
senders. -/
theorem Accounted.ownPromises_le {network : Network N}
    (accounted : network.Accounted) (owned : network.Owned)
    (proposer : Fin N) (preparation : PlexoPreparation) :
    ((network.ganglion proposer).ownPromises preparation).length ≤
      (promisers network.history proposer preparation.typeName
        preparation.ballot).card := by
  rw [GanglionPlexoMulticast.ownPromises, ← List.countP_eq_length_filter]
  apply le_trans (accounted.collected_le proposer preparation.typeName _)
  simp only [promise?_any_ballot]
  apply accounted.conserved.delivered_le_card
  · intro source
    exact accounted.promised_once owned source _ _
  · intro source different output member sends
    simp only [promisers, Finset.mem_filter, Finset.mem_univ, true_and]
    exact ⟨different, _, member, rfl, sends⟩

/-- The approvals that the owner of a ballot counted have distinct senders other
than itself, which accepted the proposal. -/
theorem Accounted.approvals_le {network : Network N}
    (accounted : network.Accounted) (owned : network.Owned) {owner : Fin N}
    {name : String} {ballot : Ballot}
    (prepared : 0 < network.sent owner .preparation name ballot) :
    (network.ganglion owner).approvalsOf name ballot ≤
      ((acceptors network.history name ballot).erase owner).card := by
  have counted := accounted.approvals owner name ballot
  have none := accounted.owner_receives_no_proposal owned prepared
  have delivered : network.received owner .approval name ballot ≤
      ((acceptors network.history name ballot).erase owner).card := by
    apply accounted.conserved.delivered_le_card
    · intro source
      exact accounted.approved_once owned source _ _
    · intro source different output member sends
      exact Finset.mem_erase.mpr
        ⟨different, accounted.accepted _ member name ballot sends⟩
  omega

/-- The invariant of runs that keep ballots apart. -/
structure QuorumSound (network : Network N) : Prop where
  accounted : network.Accounted
  owned : network.Owned
  everywhere : Everywhere QuorumBehind network.history

theorem quorumBehind_of_reaction {output : Output}
    (reaction : output.isReaction = true) (instance_ : Fin N)
    (older : List (Fin N × Output)) :
    QuorumBehind (instance_, output) older := by
  cases output with
  | passCheck => simp [Output.isReaction] at reaction
  | «return» => simp [Output.isReaction] at reaction
  | _ => trivial

/-- A step of one instance, right after a message was handed over to it. -/
theorem QuorumSound.everywhere_record {host : Fin N → Host}
    {network before : Network N} {action : NetworkAction N}
    {instance_ : Fin N} {input : Input}
    {result : GanglionPlexoMulticast × List Output}
    (sound : network.QuorumSound)
    (quorum : network.hasOwnQuorum action = true)
    (ready : Readied ownType network action instance_ input before)
    (taken : (network.ganglion instance_).step (host instance_) input =
      some result) :
    Everywhere QuorumBehind (before.record instance_ result).history := by
  have everywhere : Everywhere QuorumBehind before.history := by
    rw [ready.history_eq]
    exact sound.everywhere
  have quiet (trivially : ∀ output ∈ result.2, ∀ older,
      QuorumBehind (instance_, output) older) :
      Everywhere QuorumBehind (before.record instance_ result).history := by
    refine everywhere_append ?_ everywhere
    intro entry member rest
    obtain ⟨output, reversed, rfl⟩ := List.mem_map.mp member
    exact trivially output (List.mem_reverse.mp reversed) rest
  have passed {call : CallId} {popped : IPAddress}
      {preparation : PlexoPreparation} {cancelled : Bool}
      (chosen : action = .act instance_ (.checkPromises call popped))
      (found : (network.ganglion instance_).calls call =
        some (.awaitingPromises preparation cancelled))
      (enough : (network.ganglion instance_).preparationRejected
        preparation.typeName = false) :
      (network.ganglion instance_).numPeers ≤
        2 * (promisers before.history instance_ preparation.typeName
          preparation.ballot).card := by
    subst chosen
    have own : (network.ganglion instance_).numPeers ≤
        2 * ((network.ganglion instance_).ownPromises preparation).length := by
      simpa [hasOwnQuorum, GanglionPlexoMulticast.hasOwnQuorum, found,
        enough] using quorum
    have distinct := sound.accounted.ownPromises_le sound.owned instance_
      preparation
    rw [ready.history_eq]
    omega
  cases GanglionPlexoMulticast.proposerMove_of_step taken with
  | idle same reactions =>
      exact quiet fun output member =>
        quorumBehind_of_reaction (reactions output member) instance_
  | prepare none calls outputs =>
      exact quiet (by simp [outputs, QuorumBehind])
  | startPreparationTimer found calls outputs =>
      exact quiet (by simp [outputs])
  | reject found rejected calls outputs => exact quiet (by simp [outputs])
  | exhaust found enough failed calls outputs =>
      cases ready with
      | own =>
          simp only [record, outputs]
          exact ⟨passed rfl found enough, everywhere⟩
  | choose found canPop enough chosen calls outputs =>
      cases ready with
      | own =>
          simp only [record, outputs]
          exact ⟨trivial, passed rfl found enough, everywhere⟩
  | propose found calls outputs =>
      exact quiet (by simp [outputs, QuorumBehind])
  | startProposalTimer found calls outputs => exact quiet (by simp [outputs])
  | @«return» call proposal multicastAddress cancelled found enough calls
      outputs =>
      simp only [record, outputs]
      refine ⟨?_, everywhere⟩
      have prepared := sound.owned.prepared instance_ call _ proposal.typeName
        proposal.ballot found rfl
      have distinct := le_trans
        (sound.accounted.approvals_le sound.owned prepared)
        Finset.card_erase_le
      have counted : (network.ganglion instance_).numPeers ≤
          2 * (network.ganglion instance_).approvalsOf proposal.typeName
            proposal.ballot := enough
      show _ ≤ 2 * (acceptors before.history _ _).card
      rw [ready.history_eq]
      omega
  | giveUp found calls outputs => exact quiet (by simp [outputs])

theorem QuorumSound.step {host : Fin N → Host} {network next : Network N}
    {action : NetworkAction N} (sound : network.QuorumSound)
    (fresh : network.freshBallot action = true)
    (quorum : network.hasOwnQuorum action = true)
    (taken : network.step ownType host action = some next) :
    next.QuorumSound := by
  refine ⟨sound.accounted.step taken, sound.owned.step fresh taken, ?_⟩
  cases move_of_step taken with
  | lose chosen => exact sound.everywhere
  | take ready resultTaken =>
      exact sound.everywhere_record quorum ready resultTaken

end Network

/-- In every run in which no ballot is prepared twice and no promise check is
passed on promises for other ballots, half of the peers stand behind every
passed promise check and every returned address. -/
theorem quorum_behind {N : Nat} {host : Fin N → Host}
    {ganglion : Fin N → GanglionPlexoMulticast}
    {steps : List (Network N × NetworkAction N)} {finish : Network N}
    (idle : ∀ instance_, (ganglion instance_).Idle)
    (path : Path (Network.step ownType host) (.ofGanglia ganglion) steps finish)
    (apart : Along (fun network action => network.freshBallot action = true ∧
      network.hasOwnQuorum action = true) steps) :
    Everywhere Network.QuorumBehind finish.history := by
  have sound : finish.QuorumSound := by
    apply path.invariant apart
    · exact ⟨Network.accounted_ofGanglia idle,
        Network.owned_ofGanglia fun owner => (idle owner).calls, trivial⟩
    · intro network action next sound conditions taken
      exact sound.step conditions.1 conditions.2 taken
  exact sound.everywhere

/-- The steps by which `proposer` gets an address with the help of one other
instance; `promise` is what the other one answers its preparation. -/
def soloRound {N : Nat} (proposer acceptor : Fin N) (call : CallId)
    (preparation : PlexoPreparation) (promise : PlexoPromise)
    (popped chosen : IPAddress) : List (NetworkAction N) :=
  let proposal := proposalFor preparation chosen
  [.act proposer (.prepare call preparation.typeName preparation.proposalId),
    .act proposer (.startPreparationTimer call),
    .deliver ⟨proposer, acceptor, .preparation, .preparation preparation⟩,
    .deliver ⟨acceptor, proposer, .proposal, .promise promise⟩,
    .act proposer (.checkPromises call popped),
    .act proposer (.sendProposal call),
    .act proposer (.startProposalTimer call),
    .deliver ⟨proposer, acceptor, .proposal, .proposal proposal⟩,
    .deliver ⟨acceptor, proposer, .approval,
      .approval (approvalFor proposal)⟩,
    .act proposer (.checkApprovals call)]

/-- The first instance gets one promise and one approval, and returns. -/
def answeredRun : List (NetworkAction 3) :=
  let preparation : PlexoPreparation := ⟨10, 1, "dev.plexo.Foo.json"⟩
  soloRound Trio.first Trio.second 0 preparation (promiseFor none preparation)
    (.v4 239 0 0 32) (.v4 239 0 0 32)

theorem quorum_behind_answeredRun :
    ∃ finish steps, Path (Network.step ownType fun _ => .permissive)
        (.sample 3) steps finish ∧
      (finish.history.any fun entry => entry.2 matches .return ..) = true ∧
      Everywhere Network.QuorumBehind finish.history := by
  obtain ⟨finish, path, returned⟩ := path_of_any
    (show (exec (Network.step ownType fun _ => .permissive) (.sample 3)
      answeredRun).any (fun finish => finish.history.any
        fun entry => entry.2 matches .return ..) = true by decide +kernel)
  exact ⟨finish, _, path, returned,
    quorum_behind (fun _ => GanglionPlexoMulticast.started_idle ..) path
      (by decide +kernel)⟩

/-- The promise for ballot 1 arrives when ballot 2 waits for promises, and
nobody has promised ballot 2. -/
def latePromiseRun : List (NetworkAction 3) :=
  let preparation : PlexoPreparation := ⟨10, 1, "dev.plexo.Foo.json"⟩
  [.act Trio.first (.prepare 0 "dev.plexo.Foo.json" 1),
    .act Trio.first (.startPreparationTimer 0),
    .deliver ⟨Trio.first, Trio.second, .preparation, .preparation preparation⟩,
    .act Trio.first (.checkPromises 0 (.v4 239 0 0 32)),
    .act Trio.first (.prepare 1 "dev.plexo.Foo.json" 2),
    .act Trio.first (.startPreparationTimer 1),
    .deliver ⟨Trio.second, Trio.first, .proposal,
      .promise (promiseFor none preparation)⟩,
    .act Trio.first (.checkPromises 1 (.v4 239 0 0 32))]

theorem not_quorum_behind_latePromiseRun :
    ¬ ∀ (N : Nat) (host : Fin N → Host) (multicastCidr : IPNetwork)
      (instanceId : Fin N → Nat) (filters : Fin N → Filters)
      (steps : List (Network N × NetworkAction N)) (finish : Network N),
      Function.Injective instanceId →
      Path (Network.step ownType host)
        (.started host multicastCidr instanceId filters) steps finish →
      Everywhere Network.QuorumBehind finish.history := by
  intro behind
  obtain ⟨finish, path, missing⟩ := path_of_any
    (show (exec (Network.step ownType fun _ => .permissive) (.sample 3)
      latePromiseRun).any (fun finish => ¬ Everywhere Network.QuorumBehind
        finish.history) = true by decide +kernel)
  have distinct : Function.Injective fun instance_ : Fin 3 =>
      10 + instance_.val := by decide
  simp only [decide_eq_true_eq] at missing
  exact missing (behind _ _ _ _ _ _ _ distinct path)

end Plexo
