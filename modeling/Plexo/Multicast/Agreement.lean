import Plexo.Library.Voting
import Plexo.Multicast.Ledger
import Plexo.Multicast.Quorum

/-!
# Agreement

The acceptances of a type are votes, and the stored ballots are the bounds of
the voters.  A call that returns has a majority behind its proposal, so the
votes decide a single address if they are sound.  Whether they are is decided
where a call sends its proposal: the address has to be safe there.
-/

namespace Plexo

open PersistentMap Transition Voting

def Output.returned? : Output → Option (String × IPAddress)
  | .return proposal multicastAddress _ =>
      some (proposal.typeName, multicastAddress)
  | _ => none

namespace Network

variable {N : Nat}

def returns (network : Network N) : List (String × IPAddress) :=
  network.history.filterMap (·.2.returned?)

/-- All calls for a type return the same address. -/
def Agreement (network : Network N) : Prop :=
  ∀ first ∈ network.returns, ∀ second ∈ network.returns,
    first.1 = second.1 → first.2 = second.2

instance (network : Network N) : Decidable network.Agreement :=
  inferInstanceAs (Decidable (∀ first ∈ _, ∀ second ∈ _, _ → _))

def acceptedBy (network : Network N) (acceptor : Fin N) (name : String) :
    List PlexoProposal :=
  network.history.filterMap fun entry =>
    if entry.1 = acceptor then entry.2.acceptedFor name else none

def acceptedByAny (network : Network N) (name : String) : List PlexoProposal :=
  network.history.filterMap (·.2.acceptedFor name)

/-- The address a call is about to propose is one that no older ballot can have
decided against: the promise it was taken from reports an acceptance that took
place, and what the proposer itself accepted is reported to it by a promise, or
enough others promised for its own acceptances not to matter. -/
structure SelectsSafely (network : Network N) (proposer : Fin N)
    (preparation : PlexoPreparation) (promises : List PlexoPromise) : Prop where
  reportsTruth : ∀ newest ∈ (newestPromise promises).toList,
    ∃ proposal ∈ network.acceptedByAny preparation.typeName,
      proposal.ballot = newest.acceptedBallot ∧
        proposal.multicastIp = newest.multicastIp
  coversItself :
    N < 2 * (promises.filter (·.ballot = preparation.ballot)).length ∨
      ∀ proposal ∈ network.acceptedBy proposer preparation.typeName,
        ∃ promise ∈ promises, promise.multicastIp.isSome = true ∧
          proposal.ballot ≤ promise.acceptedBallot

instance (network : Network N) (proposer : Fin N)
    (preparation : PlexoPreparation) (promises : List PlexoPromise) :
    Decidable (network.SelectsSafely proposer preparation promises) :=
  decidable_of_iff
    ((∀ newest ∈ (newestPromise promises).toList,
        ∃ proposal ∈ network.acceptedByAny preparation.typeName,
          proposal.ballot = newest.acceptedBallot ∧
            proposal.multicastIp = newest.multicastIp) ∧
      (N < 2 * (promises.filter (·.ballot = preparation.ballot)).length ∨
        ∀ proposal ∈ network.acceptedBy proposer preparation.typeName,
          ∃ promise ∈ promises, promise.multicastIp.isSome = true ∧
            proposal.ballot ≤ promise.acceptedBallot))
    ⟨fun both => ⟨both.1, both.2⟩, fun both => ⟨both.1, both.2⟩⟩

def selectsSafely (network : Network N) : NetworkAction N → Bool
  | .act proposer (.sendProposal call) =>
      match (network.ganglion proposer).calls call with
      | some (.proposing preparation promises _) =>
          network.SelectsSafely proposer preparation promises
      | _ => true
  | _ => true

def CountsAll (network : Network N) : Prop :=
  ∀ instance_, (network.ganglion instance_).numPeers = N - 1

instance (network : Network N) : Decidable network.CountsAll :=
  inferInstanceAs (Decidable (∀ _, _))

/-- What a step has to meet for the group to stay in agreement. -/
structure Safeguarded (network : Network N) (action : NetworkAction N) :
    Prop where
  fresh : network.freshBallot action = true
  quorum : network.hasOwnQuorum action = true
  keeps : network.keepsPromise action = true
  selects : network.selectsSafely action = true

instance (network : Network N) (action : NetworkAction N) :
    Decidable (network.Safeguarded action) :=
  decidable_of_iff
    (network.freshBallot action = true ∧ network.hasOwnQuorum action = true ∧
      network.keepsPromise action = true ∧ network.selectsSafely action = true)
    ⟨fun all => ⟨all.1, all.2.1, all.2.2.1, all.2.2.2⟩,
      fun all => ⟨all.fresh, all.quorum, all.keeps, all.selects⟩⟩

/-- The acceptances of a type as votes. -/
def votes (network : Network N) (name : String) :
    Votes (Fin N) Ballot (Option Packed) where
  voted acceptor ballot value := ∃ proposal,
    network.Accepts acceptor proposal ∧ proposal.typeName = name ∧
      proposal.ballot = ballot ∧ proposal.multicastIp = value
  bound acceptor := (network.ganglion acceptor).storedBallot name

theorem acceptedFor_eq_some {output : Output} {name : String}
    {proposal : PlexoProposal} :
    output.acceptedFor name = some proposal ↔
      output = .accept proposal ∧ proposal.typeName = name := by
  cases output with
  | accept accepted =>
      simp only [Output.acceptedFor]
      split
      · next same =>
          constructor
          · intro found
            obtain ⟨⟩ := found
            exact ⟨rfl, same⟩
          · intro found
            obtain ⟨⟨⟩, _⟩ := found
            rfl
      · next different =>
          constructor
          · intro found
            cases found
          · intro found
            obtain ⟨⟨⟩, same⟩ := found
            exact absurd same different
  | _ => simp [Output.acceptedFor]

theorem mem_acceptedBy {network : Network N} {acceptor : Fin N} {name : String}
    {proposal : PlexoProposal} :
    proposal ∈ network.acceptedBy acceptor name ↔
      network.Accepts acceptor proposal ∧ proposal.typeName = name := by
  unfold acceptedBy Accepts
  rw [List.mem_filterMap]
  constructor
  · rintro ⟨⟨source, output⟩, member, found⟩
    split at found
    · next same =>
        obtain ⟨rfl, sameName⟩ := acceptedFor_eq_some.mp found
        exact ⟨same ▸ member, sameName⟩
    · cases found
  · rintro ⟨member, rfl⟩
    exact ⟨_, member, by simp [Output.acceptedFor]⟩

theorem mem_acceptedByAny {network : Network N} {name : String}
    {proposal : PlexoProposal} :
    proposal ∈ network.acceptedByAny name ↔
      ∃ acceptor, network.Accepts acceptor proposal ∧
        proposal.typeName = name := by
  unfold acceptedByAny Accepts
  rw [List.mem_filterMap]
  constructor
  · rintro ⟨⟨source, output⟩, member, found⟩
    obtain ⟨rfl, sameName⟩ := acceptedFor_eq_some.mp found
    exact ⟨source, member, sameName⟩
  · rintro ⟨acceptor, member, rfl⟩
    exact ⟨_, member, by simp [Output.acceptedFor]⟩

theorem eq_of_countP_le_one {α : Type} {wanted : α → Bool} {elements : List α}
    (single : elements.countP wanted ≤ 1) {first second : α}
    (firstMember : first ∈ elements) (secondMember : second ∈ elements)
    (firstWanted : wanted first = true) (secondWanted : wanted second = true) :
    first = second := by
  rw [List.countP_eq_length_filter] at single
  have firstInside := List.mem_filter.mpr ⟨firstMember, firstWanted⟩
  have secondInside := List.mem_filter.mpr ⟨secondMember, secondWanted⟩
  match filtered : elements.filter wanted with
  | [] => simp [filtered] at firstInside
  | [only] =>
      rw [filtered, List.mem_singleton] at firstInside secondInside
      rw [firstInside, secondInside]
  | _ :: _ :: _ => simp [filtered] at single

theorem Owned.proposal_unique {network : Network N} (owned : network.Owned)
    {proposer other : Fin N} {proposal another : PlexoProposal}
    (first : network.Proposes proposer proposal)
    (second : network.Proposes other another)
    (sameName : proposal.typeName = another.typeName)
    (sameBallot : proposal.ballot = another.ballot) : proposal = another := by
  obtain ⟨neuron, member⟩ := first
  obtain ⟨otherNeuron, otherMember⟩ := second
  have same := eq_of_countP_le_one
    (owned.proposedOnce another.typeName another.ballot) member otherMember
    (by simp [Output.sends, Output.transmits, sameName, sameBallot])
    (by simp [Output.sends, Output.transmits])
  cases same
  rfl

theorem oneValue {network : Network N} (owned : network.Owned)
    (ledger : network.Ledger) {name : String} {acceptor other : Fin N}
    {ballot : Ballot} {value another : Option Packed}
    (first : (network.votes name).voted acceptor ballot value)
    (second : (network.votes name).voted other ballot another) :
    value = another := by
  obtain ⟨proposal, accepted, rfl, rfl, rfl⟩ := first
  obtain ⟨otherProposal, otherAccepted, sameName, sameBallot, rfl⟩ := second
  obtain ⟨proposer, proposes⟩ := ledger.backed acceptor proposal accepted
  obtain ⟨otherProposer, otherProposes⟩ :=
    ledger.backed other otherProposal otherAccepted
  rw [owned.proposal_unique proposes otherProposes sameName.symm
    sameBallot.symm]

/-- How an acceptance in a history came about. -/
inductive VoteCast (network next : Network N) (action : NetworkAction N)
    (acceptor : Fin N) (proposal : PlexoProposal) : Prop where
  | old : network.Accepts acceptor proposal →
      VoteCast network next action acceptor proposal
  | follow {proposer : Fin N} : network.Proposes proposer proposal →
      (network.ganglion acceptor).storedBallot proposal.typeName ≤
        (proposal.ballot : WithBot Ballot) →
      (next.ganglion acceptor).storedBallot proposal.typeName =
        (proposal.ballot : WithBot Ballot) →
      VoteCast network next action acceptor proposal
  | lead {call : CallId} {preparation : PlexoPreparation}
      {promises : List PlexoPromise} {multicastAddress : IPAddress} :
      action = .act acceptor (.sendProposal call) →
      (network.ganglion acceptor).calls call =
        some (.proposing preparation promises multicastAddress) →
      proposal = proposalFor preparation multicastAddress →
      (network.ganglion acceptor).storedBallot proposal.typeName ≤
        (proposal.ballot : WithBot Ballot) →
      (next.ganglion acceptor).storedBallot proposal.typeName =
        (proposal.ballot : WithBot Ballot) →
      VoteCast network next action acceptor proposal

section Step

variable {host : Fin N → Host} {network next : Network N}
  {action : NetworkAction N}

theorem voteCast_of_step (conserved : network.Conserved)
    (keeps : network.keepsPromise action = true)
    (taken : network.step ownType host action = some next) {acceptor : Fin N}
    {proposal : PlexoProposal} (accepted : next.Accepts acceptor proposal) :
    VoteCast network next action acceptor proposal := by
  cases move_of_step taken with
  | lose chosen => exact .old accepted
  | @take instance_ input before result ready resultTaken =>
      have keepsHere := ready.keepsPromise keeps
      rcases accepts_record.mp accepted with ⟨rfl, new⟩ | old
      · cases GanglionPlexoMulticast.acceptorMove_of_step resultTaken with
        | idle unchanged quiet =>
            have loud := quiet _ new
            simp [Output.isQuiet] at loud
        | promise foreign newer stores outputs => simp [outputs] at new
        | @accept received current found same stores outputs =>
            have sameProposal : proposal = received := by
              simpa [outputs] using new
            subst sameProposal
            obtain ⟨source, neuron, _, sent⟩ := ready.sent_of_receive conserved
            refine .follow ⟨neuron, sent⟩ ?_ ?_
            · simp [GanglionPlexoMulticast.storedBallot, found, same]
            · rw [record_ganglion_self,
                GanglionPlexoMulticast.storedBallot_of_set stores, if_pos rfl]
        | @propose call preparation promises multicastAddress found stores
            outputs =>
            have sameProposal :
                proposal = proposalFor preparation multicastAddress := by
              simpa [outputs] using new
            subst sameProposal
            cases ready with
            | own =>
                refine .lead rfl found rfl
                  ((GanglionPlexoMulticast.keepsPromise_proposing found).mp
                    keepsHere) ?_
                rw [record_ganglion_self,
                  GanglionPlexoMulticast.storedBallot_of_set stores]
                exact if_pos rfl
      · rw [Accepts, ready.history_eq] at old
        exact .old old

theorem storedBallot_le_of_step
    (keeps : network.keepsPromise action = true)
    (taken : network.step ownType host action = some next) (acceptor : Fin N)
    (name : String) :
    (network.ganglion acceptor).storedBallot name ≤
      (next.ganglion acceptor).storedBallot name := by
  cases move_of_step taken with
  | lose chosen => exact le_rfl
  | @take instance_ input before result ready resultTaken =>
      by_cases same : acceptor = instance_
      · subst same
        rw [record_ganglion_self]
        exact (GanglionPlexoMulticast.storedBallot_le_iff resultTaken).mpr
          (ready.keepsPromise keeps) name
      · rw [record_ganglion_other _ _ same, ready.ganglion_eq]

theorem history_suffix
    (taken : network.step ownType host action = some next) :
    ∃ newer, next.history = newer ++ network.history := by
  cases move_of_step taken with
  | lose chosen => exact ⟨[], rfl⟩
  | take ready resultTaken => exact ⟨_, by rw [← ready.history_eq]; rfl⟩

theorem Accepts.step {acceptor : Fin N} {proposal : PlexoProposal}
    (accepted : network.Accepts acceptor proposal)
    (taken : network.step ownType host action = some next) :
    next.Accepts acceptor proposal := by
  obtain ⟨newer, longer⟩ := history_suffix taken
  rw [Accepts, longer]
  exact List.mem_append_right _ accepted

theorem Promises.step {acceptor : Fin N} {promise : PlexoPromise}
    (promised : network.Promises acceptor promise)
    (taken : network.step ownType host action = some next) :
    next.Promises acceptor promise := by
  obtain ⟨newer, longer⟩ := history_suffix taken
  obtain ⟨neuron, member⟩ := promised
  rw [Promises, longer]
  exact ⟨neuron, List.mem_append_right _ member⟩

theorem votes_extends (conserved : network.Conserved)
    (keeps : network.keepsPromise action = true)
    (taken : network.step ownType host action = some next) (name : String) :
    Votes.Extends (network.votes name) (next.votes name) := by
  constructor
  · rintro acceptor ballot value ⟨proposal, accepted, same⟩
    exact ⟨proposal, accepted.step taken, same⟩
  · intro acceptor
    exact storedBallot_le_of_step keeps taken acceptor name
  · rintro acceptor ballot value ⟨proposal, accepted, rfl, rfl, rfl⟩
    cases voteCast_of_step conserved keeps taken accepted with
    | old accepted => exact .inl ⟨proposal, accepted, rfl, rfl, rfl⟩
    | follow proposes below reached => exact .inr below
    | lead chosen found same below reached => exact .inr below

end Step

/-- The senders of the promises that a call holds for its own ballot. -/
structure Backed (network : Network N) (proposer : Fin N)
    (preparation : PlexoPreparation) (promises : List PlexoPromise)
    (senders : Finset (Fin N)) : Prop where
  foreign : proposer ∉ senders
  half : N - 1 ≤ 2 * senders.card
  all : (promises.filter (·.ballot = preparation.ballot)).length ≤ senders.card
  sent : ∀ sender ∈ senders, ∃ promise ∈ promises,
    promise.ballot = preparation.ballot ∧
      promise.typeName = preparation.typeName ∧ network.Promises sender promise

/-- What a call can rely on. -/
def Knows (network : Network N) (proposer : Fin N) : Attempt → Prop
  | .proposing preparation promises multicastAddress =>
      (∃ senders, network.Backed proposer preparation promises senders) ∧
        ∀ newest, newestPromise promises = some newest →
          newest.multicastIp = some multicastAddress.packed
  | .transmittingProposal proposal multicastAddress =>
      network.Accepts proposer proposal ∧
        proposal.multicastIp = some multicastAddress.packed
  | .awaitingApprovals proposal multicastAddress _ =>
      network.Accepts proposer proposal ∧
        proposal.multicastIp = some multicastAddress.packed
  | .returned proposal multicastAddress =>
      network.Accepts proposer proposal ∧
        proposal.multicastIp = some multicastAddress.packed
  | _ => True

structure Grounded (network : Network N) : Prop where
  knows : ∀ proposer call attempt,
    (network.ganglion proposer).calls call = some attempt →
    network.Knows proposer attempt
  chosen : ∀ entry ∈ network.history, ∀ proposal multicastAddress numPeers,
    entry.2 = .return proposal multicastAddress numPeers →
    (network.votes proposal.typeName).ChosenIn proposal.ballot
      (some multicastAddress.packed)

/-- The invariant of safeguarded runs. -/
structure Agreeing (network : Network N) : Prop where
  accounted : network.Accounted
  owned : network.Owned
  ledger : network.Ledger
  grounded : network.Grounded
  sound : ∀ name, (network.votes name).Sound

/-- The promises collected for the ballot of a call come from distinct
instances. -/
theorem backed_of_collected {network : Network N}
    (accounted : network.Accounted) (owned : network.Owned)
    {proposer : Fin N} {preparation : PlexoPreparation}
    (half : N - 1 ≤
      2 * ((network.ganglion proposer).ownPromises preparation).length) :
    ∃ senders, network.Backed proposer preparation
      ((network.ganglion proposer).collectedPromises preparation.typeName)
      senders := by
  let promises :=
    (network.ganglion proposer).collectedPromises preparation.typeName
  let held : Message → Bool := fun message =>
    (message.promise? preparation.typeName).any fun promise =>
      promise ∈ promises && promise.ballot = preparation.ballot
  let senders : Finset (Fin N) := Finset.univ.filter fun sender =>
    sender ≠ proposer ∧ ∃ entry ∈ network.history,
      entry.1 = sender ∧ entry.2.transmits held = true
  have isOwn : ∀ message, held message = true →
      message.isFor .promise preparation.typeName preparation.ballot =
        true := by
    intro message isHeld
    rw [← promise?_any_ballot]
    simp only [held, Option.any_eq_true] at isHeld ⊢
    obtain ⟨promise, found, same⟩ := isHeld
    simp only [Bool.and_eq_true] at same
    exact ⟨promise, found, same.2⟩
  have counted : (promises.filter (·.ballot = preparation.ballot)).length ≤
      senders.card := by
    have own : promises.countP (·.ballot = preparation.ballot) =
        promises.countP fun promise =>
          promise ∈ promises && promise.ballot = preparation.ballot := by
      apply List.countP_congr
      intro promise member
      simp [member]
    rw [← List.countP_eq_length_filter, own]
    apply le_trans (accounted.collected_le proposer preparation.typeName _)
    apply accounted.conserved.delivered_le_card
    · intro source
      refine le_trans (List.countP_mono_left ?_)
        (accounted.promised_once owned source preparation.typeName
          preparation.ballot)
      rintro ⟨sender, output⟩ - sends
      simp only [Bool.and_eq_true, decide_eq_true_eq] at sends ⊢
      refine ⟨sends.1, ?_⟩
      cases output with
      | transmit neuron message => exact isOwn message sends.2
      | _ => simp [Output.transmits] at sends
    · intro source different output member sends
      simp only [senders, Finset.mem_filter, Finset.mem_univ, true_and]
      exact ⟨different, _, member, rfl, sends⟩
  refine ⟨senders, by simp [senders], ?_, counted, ?_⟩
  · have own : ((network.ganglion proposer).ownPromises preparation).length =
        (promises.filter (·.ballot = preparation.ballot)).length := rfl
    omega
  · intro sender member
    simp only [senders, Finset.mem_filter, Finset.mem_univ, true_and] at member
    obtain ⟨_, ⟨source, output⟩, inside, rfl, sends⟩ := member
    cases output with
    | transmit neuron message =>
        have isHeld : held message = true := sends
        simp only [held, Option.any_eq_true, Bool.and_eq_true,
          decide_eq_true_eq] at isHeld
        obtain ⟨promise, found, collected, sameBallot⟩ := isHeld
        cases message with
        | promise body =>
            simp only [Message.promise?] at found
            split at found
            · next sameName =>
                cases found
                exact ⟨promise, collected, sameBallot, sameName, neuron, inside⟩
            · cases found
        | _ => simp [Message.promise?] at found
    | _ => simp [Output.transmits] at sends

theorem knows_settled (network : Network N) (proposer : Fin N)
    (attempt : Attempt) :
    network.Knows proposer attempt.settled ↔ network.Knows proposer attempt := by
  cases attempt <;> rfl

theorem Knows.mono {network next : Network N} {proposer : Fin N}
    {attempt : Attempt} (knows : network.Knows proposer attempt)
    (accepts : ∀ acceptor proposal, network.Accepts acceptor proposal →
      next.Accepts acceptor proposal)
    (promises : ∀ acceptor promise, network.Promises acceptor promise →
      next.Promises acceptor promise) : next.Knows proposer attempt := by
  cases attempt with
  | proposing preparation collected multicastAddress =>
      obtain ⟨⟨senders, backed⟩, selected⟩ := knows
      refine ⟨⟨senders, backed.foreign, backed.half, backed.all, ?_⟩, selected⟩
      intro sender member
      obtain ⟨promise, inside, sameBallot, sameName, promised⟩ :=
        backed.sent sender member
      exact ⟨promise, inside, sameBallot, sameName, promises _ _ promised⟩
  | transmittingProposal => exact ⟨accepts _ _ knows.1, knows.2⟩
  | awaitingApprovals => exact ⟨accepts _ _ knows.1, knows.2⟩
  | returned => exact ⟨accepts _ _ knows.1, knows.2⟩
  | _ => trivial

section Step

variable {host : Fin N → Host} {network next : Network N}
  {action : NetworkAction N}

/-- The address of a proposal is safe when it is sent. -/
theorem Agreeing.safeAt_lead (agreeing : network.Agreeing) {proposer : Fin N}
    {call : CallId} {preparation : PlexoPreparation}
    {promises : List PlexoPromise} {multicastAddress : IPAddress}
    (guarded : network.Safeguarded (.act proposer (.sendProposal call)))
    (taken : network.step ownType host (.act proposer (.sendProposal call)) =
      some next)
    (found : (network.ganglion proposer).calls call =
      some (.proposing preparation promises multicastAddress))
    (reached : (next.ganglion proposer).storedBallot preparation.typeName =
      (preparation.ballot : WithBot Ballot)) :
    (next.votes preparation.typeName).SafeAt preparation.ballot
      (some multicastAddress.packed) := by
  let name := preparation.typeName
  let raised : Votes (Fin N) Ballot (Option Packed) :=
    ⟨(network.votes name).voted, (next.votes name).bound⟩
  have toRaised : Votes.Extends (network.votes name) raised :=
    ⟨fun _ _ _ => id, fun acceptor =>
      storedBallot_le_of_step guarded.keeps taken acceptor name,
      fun _ _ _ => .inl⟩
  have fromRaised : Votes.Extends raised (next.votes name) := by
    have extension := votes_extends agreeing.accounted.conserved guarded.keeps
      taken name
    refine ⟨extension.kept, fun _ => le_rfl, ?_⟩
    rintro acceptor ballot value ⟨proposal, accepted, sameName, rfl, rfl⟩
    have stored (atBallot : (next.ganglion acceptor).storedBallot
        proposal.typeName = (proposal.ballot : WithBot Ballot)) :
        raised.bound acceptor ≤ (proposal.ballot : WithBot Ballot) := by
      rw [sameName] at atBallot
      exact le_of_eq atBallot
    cases voteCast_of_step agreeing.accounted.conserved guarded.keeps taken
      accepted with
    | old accepted => exact .inl ⟨proposal, accepted, sameName, rfl, rfl⟩
    | follow _ _ reached => exact .inr (stored reached)
    | lead _ _ _ _ reached => exact .inr (stored reached)
  have raisedSound : raised.Sound :=
    (agreeing.sound name).extends toRaised (agreeing.sound name).oneValue
      fun acceptor _ _ voted => .inl ⟨acceptor, voted⟩
  refine Votes.SafeAt.extends fromRaised ?_
  obtain ⟨⟨senders, backed⟩, selected⟩ :=
    agreeing.grounded.knows proposer call _ found
  have selects : network.SelectsSafely proposer preparation promises := by
    simpa [selectsSafely, found] using guarded.selects
  have promisedBound : ∀ sender ∈ senders,
      (preparation.ballot : WithBot Ballot) ≤ raised.bound sender := by
    intro sender member
    obtain ⟨promise, _, sameBallot, sameName, promised⟩ :=
      backed.sent sender member
    have stored := agreeing.ledger.promised sender promise promised
    rw [sameBallot, sameName] at stored
    exact le_trans stored (toRaised.raised sender)
  have promisedCover : ∀ sender ∈ senders, ∀ lower value,
      lower < preparation.ballot → raised.voted sender lower value →
      ∃ promise ∈ promises, promise.multicastIp.isSome = true ∧
        lower ≤ promise.acceptedBallot := by
    rintro sender member lower value below
      ⟨proposal, accepted, sameName, rfl, rfl⟩
    obtain ⟨promise, inside, sameBallot, promiseName, promised⟩ :=
      backed.sent sender member
    exact ⟨promise, inside, agreeing.ledger.covered sender promise proposal
      promised accepted (sameName.trans promiseName.symm)
      (sameBallot ▸ below)⟩
  obtain ⟨quorum, majority, bound, cover⟩ :
      ∃ quorum : Finset (Fin N), Majority quorum ∧
        (∀ acceptor ∈ quorum,
          (preparation.ballot : WithBot Ballot) ≤ raised.bound acceptor) ∧
        ∀ acceptor ∈ quorum, ∀ lower value, lower < preparation.ballot →
          raised.voted acceptor lower value →
          ∃ promise ∈ promises, promise.multicastIp.isSome = true ∧
            lower ≤ promise.acceptedBallot := by
    rcases selects.coversItself with many | covered
    · refine ⟨senders, ?_, promisedBound, promisedCover⟩
      have enough := backed.all
      rw [Majority, Fintype.card_fin]
      omega
    · refine ⟨insert proposer senders, ?_, ?_, ?_⟩
      · have half := backed.half
        rw [Majority, Fintype.card_fin,
          Finset.card_insert_of_notMem backed.foreign]
        omega
      · intro acceptor member
        rcases Finset.mem_insert.mp member with rfl | sender
        · exact le_of_eq reached.symm
        · exact promisedBound acceptor sender
      · intro acceptor member lower value below voted
        rcases Finset.mem_insert.mp member with rfl | sender
        · obtain ⟨proposal, accepted, sameName, rfl, _⟩ := voted
          exact covered proposal (mem_acceptedBy.mpr ⟨accepted, sameName⟩)
        · exact promisedCover acceptor sender lower value below voted
  cases newest : newestPromise promises with
  | none =>
      refine Votes.safeAt_of_silent_quorum majority bound ?_
      intro acceptor member lower value below voted
      obtain ⟨promise, inside, hasAddress, _⟩ :=
        cover acceptor member lower value below voted
      simp [newestPromise_none newest promise inside] at hasAddress
  | some newestOne =>
      obtain ⟨proposal, accepted, sameBallot, sameAddress⟩ :=
        selects.reportsTruth newestOne (by simp [newest])
      obtain ⟨voter, accepts, sameName⟩ := mem_acceptedByAny.mp accepted
      have newestVote : raised.voted voter newestOne.acceptedBallot
          (some multicastAddress.packed) :=
        ⟨proposal, accepts, sameName, sameBallot,
          sameAddress.trans (selected newestOne newest)⟩
      refine Votes.safeAt_of_newest_vote raisedSound majority bound newestVote ?_
      intro acceptor member lower value below voted
      obtain ⟨promise, inside, hasAddress, above⟩ :=
        cover acceptor member lower value below voted
      exact le_trans above
        ((newestPromise_some newest).2.2 promise inside hasAddress)

theorem Agreeing.sound_step (agreeing : network.Agreeing)
    (guarded : network.Safeguarded action)
    (taken : network.step ownType host action = some next)
    (owned : next.Owned) (ledger : next.Ledger) (name : String) :
    (next.votes name).Sound := by
  have extension := votes_extends agreeing.accounted.conserved guarded.keeps
    taken name
  refine (agreeing.sound name).extends extension
    (fun _ _ _ _ _ => oneValue owned ledger) ?_
  rintro acceptor ballot value ⟨proposal, accepted, rfl, rfl, rfl⟩
  cases voteCast_of_step agreeing.accounted.conserved guarded.keeps taken
    accepted with
  | old accepted => exact .inl ⟨acceptor, proposal, accepted, rfl, rfl, rfl⟩
  | @follow proposer proposes below reached =>
      obtain ⟨voted, _⟩ := agreeing.ledger.proposed proposer proposal proposes
      exact .inl ⟨proposer, proposal, voted, rfl, rfl, rfl⟩
  | lead chosen found same below reached =>
      subst chosen same
      exact .inr (agreeing.safeAt_lead guarded taken found reached)

/-- A returning call has a majority behind its proposal. -/
theorem Agreeing.chosen_of_return (agreeing : network.Agreeing)
    (countsAll : network.CountsAll) {proposer : Fin N} {call : CallId}
    {proposal : PlexoProposal} {multicastAddress : IPAddress}
    {cancelled : Bool}
    (found : (network.ganglion proposer).calls call =
      some (.awaitingApprovals proposal multicastAddress cancelled))
    (enough : (network.ganglion proposer).numPeers ≤
      2 * ((network.ganglion proposer).proposalApprovals proposal.key).getD 0) :
    (network.votes proposal.typeName).ChosenIn proposal.ballot
      (some multicastAddress.packed) := by
  let quorum := acceptors network.history proposal.typeName proposal.ballot
  obtain ⟨accepts, sameAddress⟩ :=
    agreeing.grounded.knows proposer call _ found
  have isAcceptor : proposer ∈ quorum := by
    simp only [quorum, acceptors, Finset.mem_filter, Finset.mem_univ, true_and]
    exact ⟨_, accepts, rfl, by simp [Output.accepts]⟩
  have prepared := agreeing.owned.prepared proposer call _ proposal.typeName
    proposal.ballot found rfl
  have others : (network.ganglion proposer).approvalsOf proposal.typeName
      proposal.ballot ≤ (quorum.erase proposer).card :=
    agreeing.accounted.approvals_le agreeing.owned prepared
  have counted : (network.ganglion proposer).numPeers ≤
      2 * (network.ganglion proposer).approvalsOf proposal.typeName
        proposal.ballot := enough
  refine ⟨quorum, ?_, ?_⟩
  · have split := Finset.card_erase_add_one isAcceptor
    have peers := countsAll proposer
    rw [Majority, Fintype.card_fin]
    omega
  · intro acceptor member
    simp only [quorum, acceptors, Finset.mem_filter, Finset.mem_univ,
      true_and] at member
    obtain ⟨⟨source, output⟩, inside, rfl, accepted⟩ := member
    cases output with
    | accept other =>
        have sameKey : other.typeName = proposal.typeName ∧
            other.ballot = proposal.ballot := by
          simpa [Output.accepts] using accepted
        have vote : (network.votes proposal.typeName).voted source
            proposal.ballot other.multicastIp :=
          ⟨other, inside, sameKey.1, sameKey.2, rfl⟩
        have ownVote : (network.votes proposal.typeName).voted proposer
            proposal.ballot (some multicastAddress.packed) :=
          ⟨proposal, accepts, rfl, rfl, sameAddress⟩
        rw [(agreeing.sound proposal.typeName).oneValue _ _ _ _ _ ownVote vote]
        exact vote
    | _ => simp [Output.accepts] at accepted

theorem knows_of_set {instance_ : Fin N} {call : CallId} {attempt : Attempt}
    {result : GanglionPlexoMulticast × List Output}
    (knows : ∀ proposer other found,
      (network.ganglion proposer).calls other = some found →
      (network.record instance_ result).Knows proposer found)
    (calls : result.1.calls =
      (network.ganglion instance_).calls.set call attempt)
    (here : (network.record instance_ result).Knows instance_ attempt) :
    ∀ proposer other found,
      ((network.record instance_ result).ganglion proposer).calls other =
        some found →
      (network.record instance_ result).Knows proposer found := by
  intro proposer other found foundAfter
  rcases calls_record_cases calls foundAfter with ⟨rfl, rfl, rfl⟩ | ⟨_, old⟩
  · exact here
  · exact knows proposer other found old

theorem Agreeing.knows_step (agreeing : network.Agreeing)
    (countsAll : network.CountsAll) (guarded : network.Safeguarded action)
    (taken : network.step ownType host action = some next) :
    ∀ proposer call attempt,
      (next.ganglion proposer).calls call = some attempt →
      next.Knows proposer attempt := by
  have still : ∀ proposer attempt, network.Knows proposer attempt →
      next.Knows proposer attempt := by
    intro proposer attempt knows
    exact knows.mono (fun _ _ accepted => accepted.step taken)
      fun _ _ promised => promised.step taken
  have knows : ∀ proposer call attempt,
      (network.ganglion proposer).calls call = some attempt →
      next.Knows proposer attempt :=
    fun proposer call attempt found =>
      still proposer attempt (agreeing.grounded.knows proposer call attempt found)
  cases move_of_step taken with
  | lose chosen => exact knows
  | @take instance_ input before result ready resultTaken =>
      rw [← ready.ganglion_eq] at knows resultTaken
      cases GanglionPlexoMulticast.proposerMove_of_step resultTaken with
      | idle same reactions =>
          intro proposer call attempt found
          by_cases here : proposer = instance_
          · subst here
            rw [record_ganglion_self] at found
            obtain ⟨earlier, foundBefore, settled⟩ := same.earlier found
            rw [← knows_settled, ← settled, knows_settled]
            exact knows proposer call earlier foundBefore
          · rw [record_ganglion_other _ _ here] at found
            exact knows proposer call attempt found
      | prepare none calls outputs => exact knows_of_set knows calls trivial
      | startPreparationTimer found calls outputs =>
          exact knows_of_set knows calls trivial
      | reject found rejected calls outputs =>
          exact knows_of_set knows calls trivial
      | exhaust found passed failed calls outputs =>
          exact knows_of_set knows calls trivial
      | @choose call preparation cancelled popped multicastAddress found canPop
          passed chosen calls outputs =>
          refine knows_of_set knows calls ?_
          rw [ready.ganglion_eq] at found passed chosen
          cases ready with
          | own =>
              apply still
              have own : (network.ganglion instance_).numPeers ≤ 2 *
                  ((network.ganglion instance_).ownPromises
                    preparation).length := by
                simpa [hasOwnQuorum, GanglionPlexoMulticast.hasOwnQuorum,
                  found, passed] using guarded.quorum
              refine ⟨backed_of_collected agreeing.accounted agreeing.owned
                (countsAll instance_ ▸ own), ?_⟩
              intro newest selected
              rcases GanglionPlexoMulticast.chooseAddress_ok chosen with
                ⟨newestOne, selectedOne, address⟩ | ⟨nothing, _⟩
              · rw [selected] at selectedOne
                cases selectedOne
                exact address
              · rw [selected] at nothing
                cases nothing
      | propose found calls outputs =>
          refine knows_of_set knows calls ⟨?_, rfl⟩
          exact accepts_record.mpr (.inl ⟨rfl, by simp [outputs]⟩)
      | startProposalTimer found calls outputs =>
          have known := knows instance_ _ _ found
          exact knows_of_set knows calls known
      | «return» found enough calls outputs =>
          have known := knows instance_ _ _ found
          exact knows_of_set knows calls known
      | giveUp found calls outputs => exact knows_of_set knows calls trivial

theorem Agreeing.chosen_step (agreeing : network.Agreeing)
    (countsAll : network.CountsAll) (guarded : network.Safeguarded action)
    (taken : network.step ownType host action = some next) :
    ∀ entry ∈ next.history, ∀ proposal multicastAddress numPeers,
      entry.2 = .return proposal multicastAddress numPeers →
      (next.votes proposal.typeName).ChosenIn proposal.ballot
        (some multicastAddress.packed) := by
  intro entry member proposal multicastAddress numPeers returned
  refine Votes.ChosenIn.extends (votes_extends agreeing.accounted.conserved
    guarded.keeps taken proposal.typeName) ?_
  have old (before : entry ∈ network.history) :
      (network.votes proposal.typeName).ChosenIn proposal.ballot
        (some multicastAddress.packed) :=
    agreeing.grounded.chosen entry before _ _ _ returned
  cases move_of_step taken with
  | lose chosen => exact old member
  | @take instance_ input before result ready resultTaken =>
      rcases mem_record_history.mp member with ⟨_, new⟩ | before
      · rw [returned] at new
        cases GanglionPlexoMulticast.proposerMove_of_step resultTaken with
        | idle same reactions =>
            have reaction := reactions _ new
            simp [Output.isReaction] at reaction
        | «return» found enough calls outputs =>
            rw [outputs, List.mem_singleton] at new
            cases new
            exact agreeing.chosen_of_return countsAll found enough
        | prepare none calls outputs => simp [outputs] at new
        | startPreparationTimer found calls outputs => simp [outputs] at new
        | reject found rejected calls outputs => simp [outputs] at new
        | exhaust found passed failed calls outputs => simp [outputs] at new
        | choose found canPop passed chosen calls outputs =>
            simp [outputs] at new
        | propose found calls outputs => simp [outputs] at new
        | startProposalTimer found calls outputs => simp [outputs] at new
        | giveUp found calls outputs => simp [outputs] at new
      · rw [ready.history_eq] at before
        exact old before

/-- The step lemma of safeguarded runs. -/
theorem Agreeing.step (agreeing : network.Agreeing)
    (countsAll : network.CountsAll) (guarded : network.Safeguarded action)
    (taken : network.step ownType host action = some next) :
    next.Agreeing := by
  have owned := agreeing.owned.step guarded.fresh taken
  have ledger := agreeing.ledger.step agreeing.accounted.conserved
    guarded.keeps taken
  exact ⟨agreeing.accounted.step taken, owned, ledger,
    ⟨agreeing.knows_step countsAll guarded taken,
      agreeing.chosen_step countsAll guarded taken⟩,
    agreeing.sound_step guarded taken owned ledger⟩

end Step

theorem agreeing_ofGanglia {ganglion : Fin N → GanglionPlexoMulticast}
    (idle : ∀ instance_, (ganglion instance_).Idle) :
    (ofGanglia ganglion).Agreeing := by
  refine ⟨accounted_ofGanglia idle,
    owned_ofGanglia fun owner => (idle owner).calls, ledger_ofGanglia ganglion,
    ⟨?_, by simp [ofGanglia]⟩, ?_⟩
  · intro proposer call attempt found
    simp [ofGanglia, (idle proposer).calls] at found
  · intro name
    constructor
    · rintro acceptor other ballot value another ⟨proposal, accepted, _⟩
      simp [ofGanglia, Accepts] at accepted
    · rintro acceptor ballot value ⟨proposal, accepted, _⟩
      simp [ofGanglia, Accepts] at accepted

theorem mem_returns {network : Network N} {name : String}
    {multicastAddress : IPAddress} :
    (name, multicastAddress) ∈ network.returns ↔
      ∃ entry ∈ network.history, ∃ proposal numPeers,
        entry.2 = .return proposal multicastAddress numPeers ∧
          proposal.typeName = name := by
  unfold returns
  rw [List.mem_filterMap]
  constructor
  · rintro ⟨entry, member, returned⟩
    refine ⟨entry, member, ?_⟩
    cases output : entry.2 with
    | «return» proposal address numPeers =>
        have same : proposal.typeName = name ∧ address = multicastAddress := by
          simpa [output, Output.returned?] using returned
        obtain ⟨rfl, rfl⟩ := same
        exact ⟨proposal, numPeers, rfl, rfl⟩
    | _ => simp [output, Output.returned?] at returned
  · rintro ⟨entry, member, proposal, numPeers, returned, rfl⟩
    exact ⟨entry, member, by simp [returned, Output.returned?]⟩

theorem Agreeing.agreement {network : Network N} (agreeing : network.Agreeing) :
    network.Agreement := by
  rintro ⟨name, multicastAddress⟩ first ⟨other, another⟩ second sameName
  obtain rfl : name = other := sameName
  obtain ⟨entry, member, proposal, numPeers, returned, rfl⟩ :=
    mem_returns.mp first
  obtain ⟨otherEntry, otherMember, otherProposal, otherPeers, otherReturned,
    otherName⟩ := mem_returns.mp second
  have chosen := agreeing.grounded.chosen entry member _ _ _ returned
  have otherChosen :=
    agreeing.grounded.chosen otherEntry otherMember _ _ _ otherReturned
  rw [otherName] at otherChosen
  have same := Votes.chosen_unique (agreeing.sound proposal.typeName) chosen
    otherChosen
  exact packed_injective (Option.some.inj same)

end Network

/-- In every run whose steps are safeguarded, all calls for a type that return
an address return the same one. -/
theorem agreement_of_safeguarded {N : Nat} {host : Fin N → Host}
    {ganglion : Fin N → GanglionPlexoMulticast}
    {steps : List (Network N × NetworkAction N)} {finish : Network N}
    (idle : ∀ instance_, (ganglion instance_).Idle)
    (path : Path (Network.step ownType host) (.ofGanglia ganglion) steps finish)
    (countsAll : Along (fun network _ => network.CountsAll) steps)
    (guarded : Along Network.Safeguarded steps) : finish.Agreement := by
  have conditions : Along (fun network action =>
      network.CountsAll ∧ network.Safeguarded action) steps :=
    fun entry member => ⟨countsAll entry member, guarded entry member⟩
  have agreeing : finish.Agreeing := by
    apply path.invariant conditions
    · exact Network.agreeing_ofGanglia idle
    · intro network action next agreeing conditions taken
      exact agreeing.step conditions.1 conditions.2 taken
  exact agreeing.agreement

/-- The first instance gets `239.0.0.32` with the help of the second; then the
second asks the first, which reports that address. -/
def adoptingRun : List (NetworkAction 3) :=
  let first : PlexoPreparation := ⟨10, 1, "dev.plexo.Foo.json"⟩
  let second : PlexoPreparation := ⟨11, 2, "dev.plexo.Foo.json"⟩
  let address : IPAddress := .v4 239 0 0 32
  soloRound Trio.first Trio.second 0 first (promiseFor none first) address
      address ++
    soloRound Trio.second Trio.first 0 second
      (promiseFor (some (proposalFor first address)) second) address address

theorem agreement_adoptingRun :
    ∃ finish steps, Path (Network.step ownType fun _ => .permissive)
        (.sample 3) steps finish ∧
      finish.returns.length = 2 ∧ finish.Agreement := by
  obtain ⟨finish, path, returned⟩ := path_of_any
    (show (exec (Network.step ownType fun _ => .permissive) (.sample 3)
      adoptingRun).any (·.returns.length = 2) = true by decide +kernel)
  refine ⟨finish, _, path, by simpa using returned, ?_⟩
  exact agreement_of_safeguarded
    (fun _ => GanglionPlexoMulticast.started_idle ..) path (by decide +kernel)
    (by decide +kernel)

/-- The first instance gets `239.0.0.32` with the help of the second; then the
second asks the third, which knows of nothing, and overrules what it accepted
itself. -/
def overrulingRun : List (NetworkAction 3) :=
  let first : PlexoPreparation := ⟨10, 1, "dev.plexo.Foo.json"⟩
  let second : PlexoPreparation := ⟨11, 2, "dev.plexo.Foo.json"⟩
  soloRound Trio.first Trio.second 0 first (promiseFor none first)
      (.v4 239 0 0 32) (.v4 239 0 0 32) ++
    soloRound Trio.second Trio.third 0 second (promiseFor none second)
      (.v4 239 0 0 33) (.v4 239 0 0 33)

theorem not_agreement_overrulingRun :
    ¬ ∀ (N : Nat) (host : Fin N → Host) (multicastCidr : IPNetwork)
      (instanceId : Fin N → Nat) (filters : Fin N → Filters)
      (steps : List (Network N × NetworkAction N)) (finish : Network N),
      2 ≤ N → Function.Injective instanceId →
      Path (Network.step ownType host)
        (.started host multicastCidr instanceId filters) steps finish →
      Along (fun network _ => network.CountsAll) steps →
      finish.Agreement := by
  intro agreement
  obtain ⟨finish, path, differ⟩ := path_of_any
    (show (exec (Network.step ownType fun _ => .permissive) (.sample 3)
      overrulingRun).any (fun finish => ¬ finish.Agreement) = true by
        decide +kernel)
  have distinct : Function.Injective fun instance_ : Fin 3 =>
      10 + instance_.val := by decide
  simp only [decide_eq_true_eq] at differ
  exact differ (agreement _ _ _ _ _ _ _ (by decide) distinct path
    (by decide +kernel))

end Plexo
