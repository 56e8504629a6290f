import Mathlib.Data.Fintype.Card
import Mathlib.Order.WithBot

/-!
# Voting in ballots

The abstract core of a ballot-based agreement protocol.  Acceptors vote for
values in totally ordered ballots and raise a personal bound below which they
never vote again.  A value is chosen when a majority voted for it in one
ballot.  Two laws make choices unique: a ballot carries at most one value, and
a value is voted for only where it is safe, that is, where no lower ballot has
chosen or can still choose another one.

Nothing here mentions messages or proposers; a protocol supplies the votes and
the bounds and shows the two laws.
-/

namespace Voting

variable {A B V : Type}

/-- Votes cast so far, and each acceptor's bound on its future votes. -/
structure Votes (A B V : Type) where
  voted : A → B → V → Prop
  bound : A → WithBot B

/-- A set of more than half of the acceptors. -/
def Majority [Fintype A] (quorum : Finset A) : Prop :=
  Fintype.card A < 2 * quorum.card

theorem Majority.meet [Fintype A] [DecidableEq A] {left right : Finset A}
    (leftMajority : Majority left) (rightMajority : Majority right) :
    ∃ acceptor, acceptor ∈ left ∧ acceptor ∈ right := by
  have larger : (Finset.univ : Finset A).card < left.card + right.card := by
    have leftHalf : Fintype.card A < 2 * left.card := leftMajority
    have rightHalf : Fintype.card A < 2 * right.card := rightMajority
    rw [Finset.card_univ]
    omega
  obtain ⟨acceptor, inside⟩ :=
    Finset.inter_nonempty_of_card_lt_card_add_card
      (Finset.subset_univ left) (Finset.subset_univ right) larger
  exact ⟨acceptor, Finset.mem_inter.mp inside⟩

theorem Majority.nonempty [Fintype A] {quorum : Finset A}
    (majority : Majority quorum) : quorum.Nonempty := by
  have half : Fintype.card A < 2 * quorum.card := majority
  exact Finset.card_pos.mp (by omega)

namespace Votes

section Safety

variable [LinearOrder B]

/-- The acceptor did not vote in `ballot` and its bound rules a vote out. -/
def ShutOut (votes : Votes A B V) (acceptor : A) (ballot : B) : Prop :=
  (ballot : WithBot B) < votes.bound acceptor ∧
    ∀ value, ¬ votes.voted acceptor ballot value

/-- `later` extends `earlier`: votes stay, bounds do not fall, and new votes
respect the earlier bounds. -/
structure Extends (earlier later : Votes A B V) : Prop where
  kept : ∀ acceptor ballot value,
    earlier.voted acceptor ballot value → later.voted acceptor ballot value
  raised : ∀ acceptor, earlier.bound acceptor ≤ later.bound acceptor
  respected : ∀ acceptor ballot value,
    later.voted acceptor ballot value →
      earlier.voted acceptor ballot value ∨
        earlier.bound acceptor ≤ (ballot : WithBot B)

theorem ShutOut.extends {earlier later : Votes A B V}
    (extension : Extends earlier later) {acceptor : A} {ballot : B}
    (shut : earlier.ShutOut acceptor ballot) : later.ShutOut acceptor ballot := by
  refine ⟨lt_of_lt_of_le shut.1 (extension.raised acceptor), ?_⟩
  intro value voted
  rcases extension.respected acceptor ballot value voted with before | above
  · exact shut.2 value before
  · exact absurd shut.1 (not_lt_of_ge above)

variable [Fintype A]

/-- No value but `value` has been chosen below `ballot`, nor can one be. -/
def SafeAt (votes : Votes A B V) (ballot : B) (value : V) : Prop :=
  ∀ lower, lower < ballot → ∃ quorum : Finset A, Majority quorum ∧
    ∀ acceptor ∈ quorum,
      votes.voted acceptor lower value ∨ votes.ShutOut acceptor lower

/-- A majority voted for `value` in `ballot`. -/
def ChosenIn (votes : Votes A B V) (ballot : B) (value : V) : Prop :=
  ∃ quorum : Finset A, Majority quorum ∧
    ∀ acceptor ∈ quorum, votes.voted acceptor ballot value

/-- The two laws of a sound vote. -/
structure Sound (votes : Votes A B V) : Prop where
  oneValue : ∀ acceptor other ballot value another,
    votes.voted acceptor ballot value → votes.voted other ballot another →
      value = another
  safe : ∀ acceptor ballot value,
    votes.voted acceptor ballot value → votes.SafeAt ballot value

/-- Safety is stable: later votes cannot undo it. -/
theorem SafeAt.extends {earlier later : Votes A B V}
    (extension : Extends earlier later) {ballot : B} {value : V}
    (safe : earlier.SafeAt ballot value) : later.SafeAt ballot value := by
  intro lower below
  obtain ⟨quorum, majority, covered⟩ := safe lower below
  refine ⟨quorum, majority, ?_⟩
  intro acceptor member
  rcases covered acceptor member with voted | shut
  · exact .inl (extension.kept acceptor lower value voted)
  · exact .inr (shut.extends extension)

theorem ChosenIn.extends {earlier later : Votes A B V}
    (extension : Extends earlier later) {ballot : B} {value : V}
    (chosen : earlier.ChosenIn ballot value) : later.ChosenIn ballot value := by
  obtain ⟨quorum, majority, voted⟩ := chosen
  exact ⟨quorum, majority, fun acceptor member =>
    extension.kept acceptor ballot value (voted acceptor member)⟩

/-- A majority that never voted below `ballot` and is bound not to: every
value is safe. -/
theorem safeAt_of_silent_quorum {votes : Votes A B V} {ballot : B} {value : V}
    {quorum : Finset A} (majority : Majority quorum)
    (promised : ∀ acceptor ∈ quorum, (ballot : WithBot B) ≤ votes.bound acceptor)
    (silent : ∀ acceptor ∈ quorum, ∀ lower other, lower < ballot →
      ¬ votes.voted acceptor lower other) :
    votes.SafeAt ballot value := by
  intro lower below
  refine ⟨quorum, majority, ?_⟩
  intro acceptor member
  refine .inr ⟨?_, fun other => silent acceptor member lower other below⟩
  exact lt_of_lt_of_le (WithBot.coe_lt_coe.mpr below) (promised acceptor member)

/-- The value selection rule.  A majority is bound not to vote below `ballot`
any more, and none of its votes below `ballot` is above `newest`, a ballot in
which some acceptor voted for `value`.  Then `value` is safe. -/
theorem safeAt_of_newest_vote {votes : Votes A B V} (sound : Sound votes)
    {ballot newest : B} {value : V} {voter : A} {quorum : Finset A}
    (majority : Majority quorum)
    (promised : ∀ acceptor ∈ quorum, (ballot : WithBot B) ≤ votes.bound acceptor)
    (newestVote : votes.voted voter newest value)
    (noneAbove : ∀ acceptor ∈ quorum, ∀ lower other, lower < ballot →
      votes.voted acceptor lower other → lower ≤ newest) :
    votes.SafeAt ballot value := by
  intro lower below
  rcases lt_trichotomy lower newest with before | same | after
  · exact sound.safe voter newest value newestVote lower before
  · subst same
    refine ⟨quorum, majority, ?_⟩
    intro acceptor member
    by_cases voted : ∃ other, votes.voted acceptor lower other
    · obtain ⟨other, vote⟩ := voted
      have equality :=
        sound.oneValue acceptor voter lower other value vote newestVote
      exact .inl (equality ▸ vote)
    · refine .inr ⟨?_, fun other vote => voted ⟨other, vote⟩⟩
      exact lt_of_lt_of_le (WithBot.coe_lt_coe.mpr below)
        (promised acceptor member)
  · refine ⟨quorum, majority, ?_⟩
    intro acceptor member
    refine .inr ⟨?_, ?_⟩
    · exact lt_of_lt_of_le (WithBot.coe_lt_coe.mpr below)
        (promised acceptor member)
    · intro other vote
      exact absurd (noneAbove acceptor member lower other below vote)
        (not_le_of_gt after)

/-- The two laws survive a step that votes for one value a ballot, and only
where it is safe. -/
theorem Sound.extends {earlier later : Votes A B V} (sound : Sound earlier)
    (extension : Extends earlier later)
    (oneValue : ∀ acceptor other ballot value another,
      later.voted acceptor ballot value → later.voted other ballot another →
        value = another)
    (safe : ∀ acceptor ballot value, later.voted acceptor ballot value →
      (∃ voter, earlier.voted voter ballot value) ∨ later.SafeAt ballot value) :
    Sound later := by
  refine ⟨oneValue, ?_⟩
  intro acceptor ballot value voted
  rcases safe acceptor ballot value voted with ⟨voter, before⟩ | safeNow
  · exact (sound.safe voter ballot value before).extends extension
  · exact safeNow

private theorem chosen_eq_of_lt [DecidableEq A] {votes : Votes A B V}
    (sound : Sound votes) {lower upper : B} {value other : V}
    (below : lower < upper)
    (first : votes.ChosenIn lower value) (second : votes.ChosenIn upper other) :
    value = other := by
  obtain ⟨firstQuorum, firstMajority, firstVotes⟩ := first
  obtain ⟨secondQuorum, secondMajority, secondVotes⟩ := second
  obtain ⟨voter, voterMember⟩ := secondMajority.nonempty
  have safe := sound.safe voter upper other (secondVotes voter voterMember)
  obtain ⟨quorum, majority, covered⟩ := safe lower below
  obtain ⟨acceptor, inFirst, inQuorum⟩ := firstMajority.meet majority
  have vote := firstVotes acceptor inFirst
  rcases covered acceptor inQuorum with voted | shut
  · exact sound.oneValue acceptor acceptor lower value other vote voted
  · exact absurd vote (shut.2 value)

/-- Agreement: sound votes choose at most one value, over all ballots. -/
theorem chosen_unique [DecidableEq A] {votes : Votes A B V}
    (sound : Sound votes) {ballot another : B} {value other : V}
    (first : votes.ChosenIn ballot value)
    (second : votes.ChosenIn another other) : value = other := by
  rcases lt_trichotomy ballot another with before | same | after
  · exact chosen_eq_of_lt sound before first second
  · subst same
    obtain ⟨firstQuorum, firstMajority, firstVotes⟩ := first
    obtain ⟨secondQuorum, secondMajority, secondVotes⟩ := second
    obtain ⟨voter, voterMember⟩ := firstMajority.nonempty
    obtain ⟨otherVoter, otherMember⟩ := secondMajority.nonempty
    exact sound.oneValue voter otherVoter ballot value other
      (firstVotes voter voterMember) (secondVotes otherVoter otherMember)
  · exact (chosen_eq_of_lt sound after second first).symm

end Safety

end Votes

end Voting
