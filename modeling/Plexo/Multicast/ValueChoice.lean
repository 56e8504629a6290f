import Plexo.Multicast.Agreement
import Plexo.Multicast.PromiseReports

/-!
# The address a call proposes

`reduce(newest_accepted_proposal, ..)` prefers the later one of two promises
that report the same ballot.  The order of arrival is therefore irrelevant if
promises that report the same ballot carry the same address.  They do where
they report what their senders accepted, because a ballot has one proposal; but
an instance reports the ballot that it promised last, and two instances can
have promised the same ballot after they accepted different addresses.
-/

namespace Plexo

open PersistentMap Transition

/-- Promises that carry an address and report the same ballot carry the same
address. -/
def SingleValued (promises : List PlexoPromise) : Prop :=
  ∀ promise ∈ promises, ∀ other ∈ promises,
    promise.multicastIp.isSome = true → other.multicastIp.isSome = true →
    promise.acceptedBallot = other.acceptedBallot →
    promise.multicastIp = other.multicastIp

/-- The promise carries an address, and no other promise that does reports a
newer ballot. -/
structure Newest (promises : List PlexoPromise) (newest : PlexoPromise) :
    Prop where
  member : newest ∈ promises
  carries : newest.multicastIp.isSome = true
  greatest : ∀ promise ∈ promises, promise.multicastIp.isSome = true →
    promise.acceptedBallot ≤ newest.acceptedBallot

theorem newest_of_newestPromise {promises : List PlexoPromise}
    {newest : PlexoPromise} (selected : newestPromise promises = some newest) :
    Newest promises newest := by
  obtain ⟨member, carries, greatest⟩ := newestPromise_some selected
  exact ⟨member, carries, greatest⟩

theorem Newest.perm {promises order : List PlexoPromise}
    {newest : PlexoPromise} (permuted : order.Perm promises)
    (top : Newest order newest) : Newest promises newest := by
  constructor
  · exact permuted.mem_iff.mp top.member
  · exact top.carries
  · intro promise member
    exact top.greatest promise (permuted.mem_iff.mpr member)

/-- Two newest promises carry the same address. -/
theorem SingleValued.newest_unique {promises : List PlexoPromise}
    (single : SingleValued promises) {newest other : PlexoPromise}
    (first : Newest promises newest) (second : Newest promises other) :
    newest.multicastIp = other.multicastIp := by
  apply single newest first.member other second.member first.carries
    second.carries
  apply le_antisymm
  · exact second.greatest newest first.member first.carries
  · exact first.greatest other second.member second.carries

theorem exists_newestPromise {promises : List PlexoPromise}
    (carried : ∃ promise ∈ promises, promise.multicastIp.isSome = true) :
    ∃ newest, newestPromise promises = some newest := by
  obtain ⟨promise, member, carries⟩ := carried
  cases selected : newestPromise promises with
  | some newest => exact ⟨newest, rfl⟩
  | none => simp [newestPromise_none selected promise member] at carries

namespace GanglionPlexoMulticast

theorem choose_mem_checkPromises {ganglion : GanglionPlexoMulticast}
    {preparation : PlexoPreparation} {newest : PlexoPromise}
    {multicastAddress : IPAddress} (call : CallId) (popped : IPAddress)
    (passed : ganglion.preparationRejected preparation.typeName = false)
    (selected : newestPromise
      (ganglion.collectedPromises preparation.typeName) = some newest)
    (address : newest.multicastIp = some multicastAddress.packed) :
    Output.choose preparation multicastAddress ∈
      (ganglion.checkPromises call preparation popped).2 := by
  have chosen : chooseAddress ganglion.registry
      (ganglion.collectedPromises preparation.typeName) popped =
        (.ok multicastAddress, ganglion.registry) := by
    simp [chooseAddress, selected, address]
  simp [checkPromises, passed, chosen]

def promisesFor (ganglion : GanglionPlexoMulticast)
    (preparation : PlexoPreparation) : Bool :=
  preparation.instanceId ≠ ganglion.instanceId &&
    mayPromise (ganglion.proposals preparation.typeName) preparation.ballot

end GanglionPlexoMulticast

theorem mem_of_lastAccepted {history : List Output} {name : String}
    {proposal : PlexoProposal}
    (found : lastAccepted history name = some proposal) :
    .accept proposal ∈ history ∧ proposal.typeName = name := by
  obtain ⟨output, member, accepted⟩ := List.exists_of_findSome?_eq_some found
  obtain ⟨rfl, sameName⟩ := Network.acceptedFor_eq_some.mp accepted
  exact ⟨member, sameName⟩

/-- An entry that was not overwritten since the last acceptance has its ballot
and its address. -/
theorem EntryReflects.of_address {stored accepted : Option PlexoProposal}
    (reflects : EntryReflects stored accepted false) {entry : PlexoProposal}
    (found : stored = some entry) (carries : entry.multicastIp.isSome = true) :
    ∃ proposal, accepted = some proposal ∧ entry.ballot = proposal.ballot ∧
      entry.multicastIp = proposal.multicastIp := by
  cases accepted with
  | none => simp [reflects entry found] at carries
  | some proposal =>
      obtain ⟨other, foundOther, sameAddress, sameBallot⟩ := reflects
      rw [found, Option.some.injEq] at foundOther
      subst foundOther
      exact ⟨proposal, rfl, by simpa using sameBallot, sameAddress⟩

namespace Network

variable {N : Nat}

/-- What an observer of one instance sees. -/
def observed (network : Network N) (instance_ : Fin N) : Observed :=
  { ganglion := network.ganglion instance_
    history := network.history.filterMap fun entry =>
      if entry.1 = instance_ then some entry.2 else none }

theorem mem_observed_history {network : Network N} {instance_ : Fin N}
    {output : Output} :
    output ∈ (network.observed instance_).history ↔
      (instance_, output) ∈ network.history := by
  unfold observed
  rw [List.mem_filterMap]
  constructor
  · rintro ⟨⟨source, sent⟩, member, found⟩
    obtain ⟨rfl, rfl⟩ : source = instance_ ∧ sent = output := by
      simpa using found
    exact member
  · intro member
    exact ⟨_, member, by simp⟩

theorem observed_record_self (network : Network N) (instance_ : Fin N)
    (result : GanglionPlexoMulticast × List Output) :
    (network.record instance_ result).observed instance_ =
      ⟨result.1, result.2.reverse ++ (network.observed instance_).history⟩ := by
  simp [observed, record, List.filterMap_map]

theorem observed_record_other (network : Network N) {instance_ other : Fin N}
    (result : GanglionPlexoMulticast × List Output)
    (different : other ≠ instance_) :
    (network.record instance_ result).observed other =
      network.observed other := by
  have elsewhere : instance_ ≠ other := fun same => different same.symm
  simp [observed, record, List.filterMap_map, different, elsewhere]

theorem Readied.observed_eq {decoding : Decoding} {network before : Network N}
    {action : NetworkAction N} {instance_ : Fin N} {input : Input}
    (ready : Readied decoding network action instance_ input before)
    (other : Fin N) : before.observed other = network.observed other := by
  cases ready <;> rfl

/-- An instance that answers a preparation with a promise has sent no other
promise for the type since it last accepted a proposal for it. -/
def reportsAcceptance (network : Network N) : NetworkAction N → Bool
  | .deliver ⟨_, target, _, .preparation preparation⟩ =>
      !(network.ganglion target).promisesFor preparation ||
        !promisedSinceAccepting (network.observed target).history
          preparation.typeName
  | _ => true

/-- The invariant: promises report what their senders accepted, and what was
accepted is a proposal with an address. -/
structure Truthful (network : Network N) : Prop where
  reporting : ∀ instance_, (network.observed instance_).Reporting
  backed : ∀ acceptor proposal, network.Accepts acceptor proposal →
    ∃ proposer, network.Proposes proposer proposal
  addressed : ∀ proposer proposal, network.Proposes proposer proposal →
    ∃ multicastAddress : IPAddress,
      proposal.multicastIp = some multicastAddress.packed
  reported : ∀ acceptor promise, network.Promises acceptor promise →
    promise.multicastIp.isSome = true →
    ∃ proposal, network.Accepts acceptor proposal ∧
      proposal.typeName = promise.typeName ∧
      promise.acceptedBallot = proposal.ballot ∧
      promise.multicastIp = proposal.multicastIp

theorem truthful_ofGanglia {ganglion : Fin N → GanglionPlexoMulticast}
    (nothingStored : ∀ owner, (ganglion owner).proposals = PMap.empty) :
    (ofGanglia ganglion).Truthful := by
  constructor
  · intro instance_
    refine ⟨?_, trivial⟩
    intro name
    simp [ofGanglia, observed, nothingStored, lastAccepted, EntryReflects]
  · simp [ofGanglia, Accepts]
  · simp [ofGanglia, Proposes]
  · simp [ofGanglia, Promises]

theorem Readied.reportsAcceptance {network before : Network N}
    {action : NetworkAction N} {instance_ : Fin N} {input : Input}
    {preparation : PlexoPreparation}
    (ready : Readied ownType network action instance_ input before)
    (received : input = .receive (.preparation preparation))
    (reports : network.reportsAcceptance action = true)
    (promises : (network.ganglion instance_).promisesFor preparation = true) :
    promisedSinceAccepting (network.observed instance_).history
      preparation.typeName = false := by
  cases ready with
  | own => cases received
  | @receive envelope waiting =>
      obtain ⟨source, target, neuron, message⟩ := envelope
      cases received
      simpa [Network.reportsAcceptance, promises] using reports

theorem Truthful.record {network : Network N} (truthful : network.Truthful)
    {instance_ : Fin N} {result : GanglionPlexoMulticast × List Output}
    (reporting : Observed.Reporting
      ⟨result.1, result.2.reverse ++ (network.observed instance_).history⟩)
    (accepts : ∀ proposal, Output.accept proposal ∈ result.2 →
      ∃ proposer, (network.record instance_ result).Proposes proposer proposal)
    (proposes : ∀ neuron proposal,
      Output.transmit neuron (.proposal proposal) ∈ result.2 →
      ∃ multicastAddress : IPAddress,
        proposal.multicastIp = some multicastAddress.packed)
    (promises : ∀ neuron promise,
      Output.transmit neuron (.promise promise) ∈ result.2 →
      promise.multicastIp.isSome = true →
      ∃ proposal, network.Accepts instance_ proposal ∧
        proposal.typeName = promise.typeName ∧
        promise.acceptedBallot = proposal.ballot ∧
        promise.multicastIp = proposal.multicastIp) :
    (network.record instance_ result).Truthful := by
  constructor
  · intro other
    by_cases same : other = instance_
    · subst same
      rwa [observed_record_self]
    · rw [observed_record_other _ _ same]
      exact truthful.reporting other
  · intro acceptor proposal accepted
    rcases accepts_record.mp accepted with ⟨rfl, new⟩ | old
    · exact accepts proposal new
    · obtain ⟨proposer, proposed⟩ := truthful.backed acceptor proposal old
      exact ⟨proposer, proposes_record.mpr (.inr proposed)⟩
  · intro proposer proposal proposed
    rcases proposes_record.mp proposed with ⟨rfl, neuron, new⟩ | old
    · exact proposes neuron proposal new
    · exact truthful.addressed proposer proposal old
  · intro acceptor promise promised carries
    rcases promises_record.mp promised with ⟨rfl, neuron, new⟩ | old
    · obtain ⟨proposal, accepted, facts⟩ := promises neuron promise new carries
      exact ⟨proposal, accepts_record.mpr (.inr accepted), facts⟩
    · obtain ⟨proposal, accepted, facts⟩ :=
        truthful.reported acceptor promise old carries
      exact ⟨proposal, accepts_record.mpr (.inr accepted), facts⟩

theorem Readied.truthful {decoding : Decoding} {network before : Network N}
    {action : NetworkAction N} {instance_ : Fin N} {input : Input}
    (ready : Readied decoding network action instance_ input before)
    (truthful : network.Truthful) : before.Truthful := by
  cases ready <;> exact ⟨truthful.reporting, truthful.backed,
    truthful.addressed, truthful.reported⟩

/-- A promise made from an entry that reflects the history reports an
acceptance of its sender. -/
theorem Truthful.reported_of_promise {network : Network N}
    (truthful : network.Truthful) {instance_ : Fin N}
    {preparation : PlexoPreparation}
    (unchanged : promisedSinceAccepting (network.observed instance_).history
      preparation.typeName = false)
    (carries : (promiseFor ((network.ganglion instance_).proposals
      preparation.typeName) preparation).multicastIp.isSome = true) :
    ∃ proposal, network.Accepts instance_ proposal ∧
      proposal.typeName = preparation.typeName ∧
      (promiseFor ((network.ganglion instance_).proposals
        preparation.typeName) preparation).acceptedBallot = proposal.ballot ∧
      (promiseFor ((network.ganglion instance_).proposals
        preparation.typeName) preparation).multicastIp =
          proposal.multicastIp := by
  have reflects := (truthful.reporting instance_).1 preparation.typeName
  rw [unchanged] at reflects
  cases stored : (network.ganglion instance_).proposals preparation.typeName with
  | none => simp [promiseFor, stored] at carries
  | some entry =>
      rw [stored] at carries
      obtain ⟨proposal, found, sameBallot, sameAddress⟩ :=
        reflects.of_address stored carries
      obtain ⟨accepted, sameName⟩ := mem_of_lastAccepted found
      exact ⟨proposal, mem_observed_history.mp accepted, sameName, sameBallot,
        sameAddress⟩

theorem Truthful.step {host : Fin N → Host} {network next : Network N}
    {action : NetworkAction N} (truthful : network.Truthful)
    (conserved : network.Conserved)
    (reports : network.reportsAcceptance action = true)
    (taken : network.step ownType host action = some next) :
    next.Truthful := by
  cases move_of_step taken with
  | lose chosen =>
      exact ⟨truthful.reporting, truthful.backed, truthful.addressed,
        truthful.reported⟩
  | @take instance_ input before result ready resultTaken =>
      have truthfulBefore := ready.truthful truthful
      have reporting : Observed.Reporting
          ⟨result.1, result.2.reverse ++
            (before.observed instance_).history⟩ := by
        rw [ready.observed_eq]
        apply @Observed.Reporting.step (host instance_) _ _ input
          (truthful.reporting instance_)
        simp [Observed.step, observed, resultTaken]
      have unchanged : ∀ preparation, input = .receive (.preparation preparation) →
          (before.ganglion instance_).promisesFor preparation = true →
          promisedSinceAccepting (before.observed instance_).history
            preparation.typeName = false := by
        intro preparation received promises
        rw [ready.ganglion_eq] at promises
        rw [ready.observed_eq]
        exact ready.reportsAcceptance received reports promises
      rw [← ready.ganglion_eq] at resultTaken
      cases GanglionPlexoMulticast.acceptorMove_of_step resultTaken with
      | idle _ quiet =>
          have silent : ∀ output ∈ result.2, output.isQuiet = false →
              False := by
            intro output member loud
            simp [quiet output member] at loud
          apply truthfulBefore.record reporting
          · exact fun proposal new => (silent _ new rfl).elim
          · exact fun neuron proposal new => (silent _ new rfl).elim
          · exact fun neuron promise new => (silent _ new rfl).elim
      | @promise preparation foreign newer stores outputs =>
          apply truthfulBefore.record reporting
          · simp [outputs]
          · simp [outputs]
          · intro neuron promise new carries
            rw [outputs, List.mem_singleton] at new
            cases new
            apply truthfulBefore.reported_of_promise ?_ carries
            apply unchanged preparation rfl
            simp [GanglionPlexoMulticast.promisesFor, foreign, newer]
      | @accept proposal current found same stores outputs =>
          obtain ⟨source, neuron, _, sent⟩ := ready.sent_of_receive conserved
          apply truthfulBefore.record reporting
          · intro accepted new
            obtain rfl : accepted = proposal := by simpa [outputs] using new
            refine ⟨source, proposes_record.mpr (.inr ⟨neuron, ?_⟩)⟩
            rwa [ready.history_eq]
          · simp [outputs]
          · simp [outputs]
      | @propose call preparation promises multicastAddress found stores
          outputs =>
          apply truthfulBefore.record reporting
          · intro accepted new
            obtain rfl : accepted = proposalFor preparation multicastAddress := by
              simpa [outputs] using new
            exact ⟨instance_, proposes_record.mpr
              (.inl ⟨rfl, .proposal, by simp [outputs]⟩)⟩
          · intro neuron proposal new
            obtain ⟨rfl, rfl⟩ : neuron = .proposal ∧
                proposal = proposalFor preparation multicastAddress := by
              simpa [outputs] using new
            exact ⟨multicastAddress, rfl⟩
          · simp [outputs]

/-- A collection of promises for the ballot of a preparation, all of which were
sent. -/
def Answers (network : Network N) (preparation : PlexoPreparation)
    (promises : List PlexoPromise) : Prop :=
  ∀ promise ∈ promises, (∃ acceptor, network.Promises acceptor promise) ∧
    promise.typeName = preparation.typeName ∧
    promise.ballot = preparation.ballot

/-- Every call that passes its check with these promises, whatever the order
they arrived in, settles on the address. -/
def ProposesInAnyOrder (preparation : PlexoPreparation)
    (promises : List PlexoPromise) (multicastAddress : IPAddress) : Prop :=
  ∀ (ganglion : GanglionPlexoMulticast) (call : CallId) (popped : IPAddress),
    (ganglion.collectedPromises preparation.typeName).Perm promises →
    ganglion.preparationRejected preparation.typeName = false →
    .choose preparation multicastAddress ∈
      (ganglion.checkPromises call preparation popped).2

/-- Whatever promises for one ballot were sent, with an address in one of them:
the proposed address does not depend on their order, and a newest promise that
carries an address carries it. -/
def OrderFree (network : Network N) : Prop :=
  ∀ preparation promises, network.Answers preparation promises →
    (∃ promise ∈ promises, promise.multicastIp.isSome = true) →
    ∃ multicastAddress, ProposesInAnyOrder preparation promises
        multicastAddress ∧
      ∃ newest, Newest promises newest ∧
        newest.multicastIp = some multicastAddress.packed

theorem Truthful.singleValued {network : Network N}
    (truthful : network.Truthful) (owned : network.Owned)
    {preparation : PlexoPreparation} {promises : List PlexoPromise}
    (answers : network.Answers preparation promises) :
    SingleValued promises := by
  intro promise member other otherMember carries otherCarries sameBallot
  obtain ⟨⟨acceptor, promised⟩, sameName, _⟩ := answers promise member
  obtain ⟨⟨another, otherPromised⟩, otherName, _⟩ := answers other otherMember
  obtain ⟨proposal, accepted, name, ballot, address⟩ :=
    truthful.reported acceptor promise promised carries
  obtain ⟨otherProposal, otherAccepted, nameOfOther, otherBallot, otherAddress⟩ :=
    truthful.reported another other otherPromised otherCarries
  obtain ⟨proposer, proposes⟩ := truthful.backed acceptor proposal accepted
  obtain ⟨otherProposer, otherProposes⟩ :=
    truthful.backed another otherProposal otherAccepted
  have same : proposal = otherProposal := by
    apply owned.proposal_unique proposes otherProposes
    · rw [name, sameName, nameOfOther, otherName]
    · rw [← ballot, sameBallot, otherBallot]
  rw [address, otherAddress, same]

theorem Truthful.orderFree {network : Network N} (truthful : network.Truthful)
    (owned : network.Owned) : network.OrderFree := by
  intro preparation promises answers carried
  have single := truthful.singleValued owned answers
  obtain ⟨newest, selected⟩ := exists_newestPromise carried
  have top := newest_of_newestPromise selected
  obtain ⟨⟨acceptor, promised⟩, _, _⟩ := answers newest top.member
  obtain ⟨proposal, accepted, _, _, address⟩ :=
    truthful.reported acceptor newest promised top.carries
  obtain ⟨proposer, proposes⟩ := truthful.backed acceptor proposal accepted
  obtain ⟨multicastAddress, packed⟩ :=
    truthful.addressed proposer proposal proposes
  rw [packed] at address
  refine ⟨multicastAddress, ?_, newest, top, address⟩
  intro ganglion call popped permuted passed
  obtain ⟨picked, selectedHere⟩ := @exists_newestPromise
    (ganglion.collectedPromises preparation.typeName)
    ⟨newest, permuted.mem_iff.mpr top.member, top.carries⟩
  have pickedTop := (newest_of_newestPromise selectedHere).perm permuted
  apply GanglionPlexoMulticast.choose_mem_checkPromises call popped passed
    selectedHere
  rw [single.newest_unique pickedTop top, address]

end Network

/-- In every run in which no clock reading is used twice and every promise that
is sent reports an acceptance, the proposed address does not depend on the order
of the promises, and a newest promise carries it. -/
theorem value_orderFree {N : Nat} {host : Fin N → Host}
    {ganglion : Fin N → GanglionPlexoMulticast}
    {steps : List (Network N × NetworkAction N)} {finish : Network N}
    (idle : ∀ instance_, (ganglion instance_).Idle)
    (path : Path (Network.step ownType host) (.ofGanglia ganglion) steps finish)
    (apart : Along (fun network action => network.freshBallot action = true ∧
      network.reportsAcceptance action = true) steps) : finish.OrderFree := by
  have kept : finish.Conserved ∧ finish.Owned ∧ finish.Truthful := by
    apply path.invariant apart
    · exact ⟨fun _ _ => le_rfl,
        Network.owned_ofGanglia fun owner => (idle owner).calls,
        Network.truthful_ofGanglia fun owner => (idle owner).proposals⟩
    · intro network action next kept conditions taken
      obtain ⟨conserved, owned, truthful⟩ := kept
      exact ⟨conserved.step taken, owned.step conditions.1 taken,
        truthful.step conserved conditions.2 taken⟩
  exact kept.2.2.orderFree kept.2.1

/-- The steps by which `proposer` settles on an address and stores it, with the
promise of one other instance; the proposal itself is still on its way. -/
def storedRound {N : Nat} (proposer acceptor : Fin N)
    (preparation : PlexoPreparation) (promise : PlexoPromise)
    (popped : IPAddress) : List (NetworkAction N) :=
  [.act proposer (.prepare 0 preparation.typeName preparation.proposalId),
    .act proposer (.startPreparationTimer 0),
    .deliver ⟨proposer, acceptor, .preparation, .preparation preparation⟩,
    .deliver ⟨acceptor, proposer, .proposal, .promise promise⟩,
    .act proposer (.checkPromises 0 popped),
    .act proposer (.sendProposal 0)]

namespace TiedBallots

def name : String := "dev.plexo.Foo.json"

def preparation (proposalId : Nat) : PlexoPreparation :=
  ⟨12, proposalId, name⟩

def asks (call : CallId) (proposalId : Nat) : List (NetworkAction 3) :=
  [.act Trio.third (.prepare call name proposalId),
    .deliver ⟨Trio.third, Trio.first, .preparation,
      .preparation (preparation proposalId)⟩,
    .deliver ⟨Trio.third, Trio.second, .preparation,
      .preparation (preparation proposalId)⟩]

/-- The first instance accepts `239.0.0.32` in ballot 1 and the second one
`239.0.0.33` in ballot 2; both promise ballot 3 to the third one. -/
def askedRun : List (NetworkAction 3) :=
  let first : PlexoPreparation := ⟨10, 1, name⟩
  let second : PlexoPreparation := ⟨11, 2, name⟩
  storedRound Trio.first Trio.third first (promiseFor none first)
      (.v4 239 0 0 32) ++
    storedRound Trio.second Trio.third second
      (promiseFor (some (promisedProposal none first)) second)
      (.v4 239 0 0 33) ++
    asks 0 3

def apart : List PlexoPromise :=
  [⟨12, 3, name, 10, 1, some [239, 0, 0, 32]⟩,
    ⟨12, 3, name, 11, 2, some [239, 0, 0, 33]⟩]

def tied : List PlexoPromise :=
  [⟨12, 4, name, 12, 3, some [239, 0, 0, 32]⟩,
    ⟨12, 4, name, 12, 3, some [239, 0, 0, 33]⟩]

def proposer (promises : List PlexoPromise) : GanglionPlexoMulticast :=
  { GanglionPlexoMulticast.sample 12 2 with
    preparationPromises := PMap.empty.set name promises }

end TiedBallots

theorem value_orderFree_askedRun :
    ∃ finish steps, Path (Network.step ownType fun _ => .permissive)
        (.sample 3) steps finish ∧
      (∀ promise ∈ TiedBallots.apart, ∃ acceptor,
        (acceptor, Output.transmit .proposal (.promise promise)) ∈
          finish.history) ∧
      finish.OrderFree := by
  obtain ⟨finish, path, sent⟩ := path_of_any
    (show (exec (Network.step ownType fun _ => .permissive) (.sample 3)
      TiedBallots.askedRun).any (fun finish => ∀ promise ∈ TiedBallots.apart,
        ∃ acceptor, (acceptor, Output.transmit .proposal (.promise promise)) ∈
          finish.history) = true by decide +kernel)
  exact ⟨finish, _, path, by simpa using sent,
    value_orderFree (fun _ => GanglionPlexoMulticast.started_idle ..) path
      (by decide +kernel)⟩

/-- The third instance asks once more after both have promised ballot 3. -/
theorem not_value_orderFree_tied :
    ¬ ∀ (N : Nat) (host : Fin N → Host) (multicastCidr : IPNetwork)
      (instanceId : Fin N → Nat) (filters : Fin N → Filters)
      (steps : List (Network N × NetworkAction N)) (finish : Network N),
      Function.Injective instanceId →
      Path (Network.step ownType host)
        (.started host multicastCidr instanceId filters) steps finish →
      finish.OrderFree := by
  intro orderFree
  obtain ⟨finish, path, sent⟩ := path_of_any
    (show (exec (Network.step ownType fun _ => .permissive) (.sample 3)
      (TiedBallots.askedRun ++ TiedBallots.asks 1 4)).any
      (fun finish => ∀ promise ∈ TiedBallots.tied, ∃ acceptor,
        (acceptor, Output.transmit .proposal (.promise promise)) ∈
          finish.history) = true by decide +kernel)
  simp only [decide_eq_true_eq] at sent
  have distinct : Function.Injective fun instance_ : Fin 3 =>
      10 + instance_.val := by decide
  have sameBallot : ∀ promise ∈ TiedBallots.tied,
      promise.typeName = TiedBallots.name ∧
        promise.ballot = (TiedBallots.preparation 4).ballot := by decide
  have answers : finish.Answers (TiedBallots.preparation 4)
      TiedBallots.tied := by
    intro promise member
    obtain ⟨acceptor, transmitted⟩ := sent promise member
    exact ⟨⟨acceptor, .proposal, transmitted⟩, sameBallot promise member⟩
  obtain ⟨multicastAddress, anyOrder, _⟩ :=
    orderFree _ _ _ _ _ _ _ distinct path _ _ answers (by decide)
  have inOrder := anyOrder (TiedBallots.proposer TiedBallots.tied) 1
    (.v4 239 0 0 34) (.refl _) (by decide +kernel)
  have inReverse := anyOrder (TiedBallots.proposer TiedBallots.tied.reverse) 1
    (.v4 239 0 0 34) (List.reverse_perm _) (by decide +kernel)
  have last : multicastAddress = .v4 239 0 0 33 := by
    have outputs : ((TiedBallots.proposer TiedBallots.tied).checkPromises 1
        (TiedBallots.preparation 4) (.v4 239 0 0 34)).2 =
          [.passCheck (TiedBallots.preparation 4) TiedBallots.tied 2,
            .choose (TiedBallots.preparation 4) (.v4 239 0 0 33)] := by
      decide +kernel
    rw [outputs] at inOrder
    simpa using inOrder
  have first : multicastAddress = .v4 239 0 0 32 := by
    have outputs : ((TiedBallots.proposer
        TiedBallots.tied.reverse).checkPromises 1
        (TiedBallots.preparation 4) (.v4 239 0 0 34)).2 =
          [.passCheck (TiedBallots.preparation 4) TiedBallots.tied.reverse 2,
            .choose (TiedBallots.preparation 4) (.v4 239 0 0 32)] := by
      decide +kernel
    rw [outputs] at inReverse
    simpa using inReverse
  simp [last] at first

end Plexo
