import Plexo.Multicast.Accounting

/-!
# Who owns a ballot

A ballot of a type belongs to the call that sent a preparation with it.  As
long as no clock reading is used twice, that call is the only one that can ever
send a proposal for the ballot, and it does so at most once.
-/

namespace Plexo

open PersistentMap Transition

namespace Attempt

def key? : Attempt → Option (String × Ballot)
  | .transmittingPreparation preparation =>
      some (preparation.typeName, preparation.ballot)
  | .awaitingPromises preparation _ =>
      some (preparation.typeName, preparation.ballot)
  | .proposing preparation _ _ =>
      some (preparation.typeName, preparation.ballot)
  | .transmittingProposal proposal _ => some (proposal.typeName, proposal.ballot)
  | .awaitingApprovals proposal _ _ => some (proposal.typeName, proposal.ballot)
  | .returned proposal _ => some (proposal.typeName, proposal.ballot)
  | .raised _ _ => none

def maySend : Attempt → Bool
  | .transmittingPreparation _ => true
  | .awaitingPromises _ _ => true
  | .proposing _ _ _ => true
  | _ => false

theorem key?_settled (attempt : Attempt) : attempt.settled.key? = attempt.key? := by
  cases attempt <;> rfl

theorem maySend_settled (attempt : Attempt) :
    attempt.settled.maySend = attempt.maySend := by
  cases attempt <;> rfl

/-- `later` is a state of the call `earlier` after it. -/
def Continues (earlier later : Attempt) : Prop :=
  (∀ key, later.key? = some key → earlier.key? = some key) ∧
    (later.maySend = true → earlier.maySend = true)

theorem Continues.refl (attempt : Attempt) : attempt.Continues attempt :=
  ⟨fun _ same => same, fun same => same⟩

theorem Continues.raised (earlier : Attempt) (name : String)
    (error : PlexoError) : earlier.Continues (.raised name error) := by
  constructor
  · simp [key?]
  · simp [maySend]

end Attempt

theorem SameCalls.continues {before after : PMap CallId Attempt}
    (same : SameCalls before after) {call : CallId} {later : Attempt}
    (found : after call = some later) :
    ∃ earlier, before call = some earlier ∧ earlier.Continues later := by
  obtain ⟨earlier, foundBefore, settled⟩ := same.earlier found
  refine ⟨earlier, foundBefore, ?_⟩
  constructor
  · intro key
    rw [← later.key?_settled, ← earlier.key?_settled, settled]
    exact id
  · rw [← later.maySend_settled, ← earlier.maySend_settled, settled]
    exact id

theorem continues_set {calls : PMap CallId Attempt} {call other : CallId}
    {earlier later attempt : Attempt} (found : calls call = some earlier)
    (goesOn : earlier.Continues later)
    (foundAfter : calls.set call later other = some attempt) :
    ∃ before, calls other = some before ∧ before.Continues attempt := by
  rw [PMap.set_apply] at foundAfter
  split at foundAfter
  · next same =>
      subst same
      cases foundAfter
      exact ⟨earlier, found, goesOn⟩
  · exact ⟨attempt, foundAfter, .refl attempt⟩

namespace GanglionPlexoMulticast

/-- What a step does to the ownership of ballots. -/
inductive BallotMove (ganglion : GanglionPlexoMulticast)
    (result : GanglionPlexoMulticast × List Output) : Input → Prop where
  | keep {input : Input} :
      (∀ call later, result.1.calls call = some later →
        ∃ earlier, ganglion.calls call = some earlier ∧
          earlier.Continues later) →
      (∀ name ballot,
        result.2.countP (Output.sends .preparation name ballot) = 0) →
      (∀ name ballot,
        result.2.countP (Output.sends .proposal name ballot) = 0) →
      BallotMove ganglion result input
  | prepare {call : CallId} {name : String} {newProposalId : Nat} :
      ganglion.calls call = none →
      result.1.calls = ganglion.calls.set call
        (.transmittingPreparation ⟨ganglion.instanceId, newProposalId, name⟩) →
      result.2 = [.transmit .preparation
        (.preparation ⟨ganglion.instanceId, newProposalId, name⟩)] →
      BallotMove ganglion result (.own (.prepare call name newProposalId))
  | propose {call : CallId} {preparation : PlexoPreparation}
      {promises : List PlexoPromise} {multicastAddress : IPAddress} :
      ganglion.calls call =
        some (.proposing preparation promises multicastAddress) →
      result.1.calls = ganglion.calls.set call (.transmittingProposal
        (proposalFor preparation multicastAddress) multicastAddress) →
      result.2 = [.accept (proposalFor preparation multicastAddress),
        .transmit .proposal
          (.proposal (proposalFor preparation multicastAddress))] →
      BallotMove ganglion result (.own (.sendProposal call))

theorem countP_sends_of_reaction {outputs : List Output} {kind : ProtocolNeuron}
    (reactions : ∀ output ∈ outputs, output.isReaction = true)
    (ofCalls : kind = .preparation ∨ kind = .proposal) (name : String)
    (ballot : Ballot) : outputs.countP (Output.sends kind name ballot) = 0 := by
  rw [List.countP_eq_zero]
  intro output member sends
  have here := reactions output member
  cases output with
  | transmit neuron message =>
      simp only [Output.isReaction, ne_eq, Bool.and_eq_true,
        decide_eq_true_eq] at here
      simp only [Output.sends, Output.transmits, Message.isFor,
        decide_eq_true_eq] at sends
      rcases ofCalls with rfl | rfl
      · exact here.1 sends.1.symm
      · exact here.2 sends.1.symm
  | _ => simp [Output.sends, Output.transmits] at sends

theorem ballotMove_of_step {host : Host} {ganglion : GanglionPlexoMulticast}
    {input : Input} {result : GanglionPlexoMulticast × List Output}
    (taken : ganglion.step host input = some result) :
    BallotMove ganglion result input := by
  cases proposerMove_of_step taken with
  | idle same reactions =>
      exact .keep (fun _ _ => same.continues)
        (countP_sends_of_reaction reactions (.inl rfl))
        (countP_sends_of_reaction reactions (.inr rfl))
  | prepare fresh calls outputs => exact .prepare fresh calls outputs
  | propose found calls outputs => exact .propose found calls outputs
  | startPreparationTimer found calls outputs =>
      refine .keep ?_ (by simp [outputs]) (by simp [outputs])
      rw [calls]
      exact fun _ _ => continues_set found ⟨fun _ => id, fun _ => rfl⟩
  | reject found rejected calls outputs =>
      refine .keep ?_ (by simp [outputs]) (by simp [outputs])
      rw [calls]
      exact fun _ _ => continues_set found (.raised _ _ _)
  | exhaust found passed failed calls outputs =>
      refine .keep ?_ (by simp [outputs, Output.sends, Output.transmits])
        (by simp [outputs, Output.sends, Output.transmits])
      rw [calls]
      exact fun _ _ => continues_set found (.raised _ _ _)
  | choose found canPop passed chosen calls outputs =>
      refine .keep ?_ (by simp [outputs, Output.sends, Output.transmits])
        (by simp [outputs, Output.sends, Output.transmits])
      rw [calls]
      exact fun _ _ => continues_set found ⟨fun _ => id, fun _ => rfl⟩
  | startProposalTimer found calls outputs =>
      refine .keep ?_ (by simp [outputs]) (by simp [outputs])
      rw [calls]
      exact fun _ _ => continues_set found
        ⟨fun _ => id, by simp [Attempt.maySend]⟩
  | «return» found enough calls outputs =>
      refine .keep ?_ (by simp [outputs, Output.sends, Output.transmits])
        (by simp [outputs, Output.sends, Output.transmits])
      rw [calls]
      exact fun _ _ => continues_set found
        ⟨fun _ => id, by simp [Attempt.maySend]⟩
  | giveUp found calls outputs =>
      refine .keep ?_ (by simp [outputs]) (by simp [outputs])
      rw [calls]
      exact fun _ _ => continues_set found (.raised _ _ _)

end GanglionPlexoMulticast

namespace Network

variable {N : Nat}

/-- A call prepares a ballot that nobody prepared for the type before. -/
def freshBallot (network : Network N) : NetworkAction N → Bool
  | .act instance_ (.prepare _ name newProposalId) =>
      network.sentByAny .preparation name
        ⟨newProposalId, (network.ganglion instance_).instanceId⟩ = 0
  | _ => true

/-- The laws of ownership. -/
structure Owned (network : Network N) : Prop where
  prepared : ∀ owner call attempt name ballot,
    (network.ganglion owner).calls call = some attempt →
    attempt.key? = some (name, ballot) →
    0 < network.sent owner .preparation name ballot
  once : ∀ name ballot, network.sentByAny .preparation name ballot ≤ 1
  single : ∀ owner call other attempt another key,
    (network.ganglion owner).calls call = some attempt →
    (network.ganglion owner).calls other = some another →
    attempt.key? = some key → another.key? = some key → call = other
  unsent : ∀ owner call attempt name ballot,
    (network.ganglion owner).calls call = some attempt →
    attempt.key? = some (name, ballot) → attempt.maySend = true →
    network.sentByAny .proposal name ballot = 0
  proposedOnce : ∀ name ballot, network.sentByAny .proposal name ballot ≤ 1
  proposer : ∀ owner name ballot,
    0 < network.sent owner .proposal name ballot →
    0 < network.sent owner .preparation name ballot

theorem sent_le_sentByAny (network : Network N) (source : Fin N)
    (kind : ProtocolNeuron) (name : String) (ballot : Ballot) :
    network.sent source kind name ballot ≤
      network.sentByAny kind name ballot := by
  apply List.countP_mono_left
  simp +contextual

theorem sent_add_sent_le (network : Network N) {source other : Fin N}
    (different : source ≠ other) (kind : ProtocolNeuron) (name : String)
    (ballot : Ballot) :
    network.sent source kind name ballot + network.sent other kind name ballot ≤
      network.sentByAny kind name ballot := by
  unfold sent sentByAny
  induction network.history with
  | nil => simp
  | cons entry entries induction =>
      simp only [List.countP_cons, Bool.and_eq_true, decide_eq_true_eq]
      grind

/-- A ballot has one owner. -/
theorem Owned.owner_unique {network : Network N} (owned : network.Owned)
    {owner other : Fin N} {name : String} {ballot : Ballot}
    (first : 0 < network.sent owner .preparation name ballot)
    (second : 0 < network.sent other .preparation name ballot) :
    owner = other := by
  by_contra different
  have both := sent_add_sent_le network different .preparation name
    ballot
  have once := owned.once name ballot
  omega

theorem exists_sender {network : Network N} {kind : ProtocolNeuron}
    {name : String} {ballot : Ballot}
    (sent : 0 < network.sentByAny kind name ballot) :
    ∃ source, 0 < network.sent source kind name ballot := by
  obtain ⟨entry, member, sends⟩ := List.countP_pos_iff.mp sent
  refine ⟨entry.1, List.countP_pos_iff.mpr ⟨entry, member, ?_⟩⟩
  simpa using sends

theorem Readied.sentByAny_eq {decoding : Decoding} {network before : Network N}
    {action : NetworkAction N} {instance_ : Fin N} {input : Input}
    (ready : Readied decoding network action instance_ input before)
    (kind : ProtocolNeuron) (name : String) (ballot : Ballot) :
    before.sentByAny kind name ballot = network.sentByAny kind name ballot := by
  unfold sentByAny
  rw [ready.history_eq]

theorem Readied.sent_eq {decoding : Decoding} {network before : Network N}
    {action : NetworkAction N} {instance_ : Fin N} {input : Input}
    (ready : Readied decoding network action instance_ input before)
    (source : Fin N) (kind : ProtocolNeuron) (name : String)
    (ballot : Ballot) :
    before.sent source kind name ballot =
      network.sent source kind name ballot := by
  unfold sent
  rw [ready.history_eq]

section Step

variable {network next : Network N} {instance_ : Fin N}
  {result : GanglionPlexoMulticast × List Output}

theorem Owned.keep (owned : network.Owned)
    (calls : ∀ owner call later,
      (next.ganglion owner).calls call = some later →
      ∃ earlier, (network.ganglion owner).calls call = some earlier ∧
        earlier.Continues later)
    (sent : ∀ source kind name ballot,
      kind = .preparation ∨ kind = .proposal →
      next.sent source kind name ballot = network.sent source kind name ballot)
    (sentByAny : ∀ kind name ballot, kind = .preparation ∨ kind = .proposal →
      next.sentByAny kind name ballot = network.sentByAny kind name ballot) :
    next.Owned := by
  constructor
  · intro owner call attempt name ballot found key
    obtain ⟨earlier, foundBefore, goesOn⟩ := calls owner call attempt found
    rw [sent _ _ _ _ (.inl rfl)]
    exact owned.prepared owner call earlier name ballot foundBefore
      (goesOn.1 _ key)
  · intro name ballot
    rw [sentByAny _ _ _ (.inl rfl)]
    exact owned.once name ballot
  · intro owner call other attempt another key found foundOther same sameOther
    obtain ⟨earlier, foundBefore, goesOn⟩ := calls owner call attempt found
    obtain ⟨earlierOther, foundOtherBefore, otherGoesOn⟩ :=
      calls owner other another foundOther
    exact owned.single owner call other earlier earlierOther key foundBefore
      foundOtherBefore (goesOn.1 _ same) (otherGoesOn.1 _ sameOther)
  · intro owner call attempt name ballot found key maySend
    obtain ⟨earlier, foundBefore, goesOn⟩ := calls owner call attempt found
    rw [sentByAny _ _ _ (.inr rfl)]
    exact owned.unsent owner call earlier name ballot foundBefore
      (goesOn.1 _ key) (goesOn.2 maySend)
  · intro name ballot
    rw [sentByAny _ _ _ (.inr rfl)]
    exact owned.proposedOnce name ballot
  · intro owner name ballot
    rw [sent _ _ _ _ (.inl rfl), sent _ _ _ _ (.inr rfl)]
    exact owned.proposer owner name ballot

theorem Owned.prepare (owned : network.Owned) {call : CallId}
    {preparation : PlexoPreparation}
    (fresh : network.sentByAny .preparation preparation.typeName
      preparation.ballot = 0)
    (calls : result.1.calls = (network.ganglion instance_).calls.set call
      (.transmittingPreparation preparation))
    (outputs : result.2 = [.transmit .preparation (.preparation preparation)]) :
    (network.record instance_ result).Owned := by
  have unprepared : ∀ source, network.sent source .preparation
      preparation.typeName preparation.ballot = 0 := by
    intro source
    have bound := sent_le_sentByAny network source .preparation
      preparation.typeName preparation.ballot
    omega
  have preparations : ∀ name ballot,
      result.2.countP (Output.sends .preparation name ballot) =
        if preparation.typeName = name ∧ preparation.ballot = ballot then 1
        else 0 := by
    intro name ballot
    rw [outputs, List.countP_singleton]
    simp [Output.sends, Output.transmits]
  have proposals : ∀ name ballot,
      result.2.countP (Output.sends .proposal name ballot) = 0 := by
    intro name ballot
    simp [outputs, Output.sends, Output.transmits]
  have found : ∀ owner other attempt,
      ((network.record instance_ result).ganglion owner).calls other =
        some attempt →
      owner = instance_ ∧ other = call ∧
          attempt = .transmittingPreparation preparation ∨
        (network.ganglion owner).calls other = some attempt := by
    intro owner other attempt foundAfter
    exact (calls_record_cases calls foundAfter).imp_right And.right
  constructor
  · intro owner other attempt name ballot foundAfter key
    rw [record_sent, preparations]
    rcases found owner other attempt foundAfter with ⟨rfl, rfl, rfl⟩ | old
    · simp only [Attempt.key?, Option.some.injEq, Prod.mk.injEq] at key
      simp [key]
    · have before := owned.prepared owner other attempt name ballot old key
      omega
  · intro name ballot
    have once := owned.once name ballot
    rw [record_sentByAny, preparations]
    split
    · next same =>
        obtain ⟨rfl, rfl⟩ := same
        omega
    · omega
  · have noneBefore : ∀ owner other attempt,
        (network.ganglion owner).calls other = some attempt →
        attempt.key? ≠ some (preparation.typeName, preparation.ballot) := by
      intro owner other attempt old same
      have before := owned.prepared owner other attempt _ _ old same
      have none := unprepared owner
      omega
    intro owner first second attempt another key foundFirst foundSecond same
      sameOther
    rcases found owner first attempt foundFirst with ⟨rfl, rfl, rfl⟩ | old
    · rcases found owner second another foundSecond with ⟨_, rfl, rfl⟩ | oldOther
      · rfl
      · cases same
        exact absurd sameOther (noneBefore _ _ _ oldOther)
    · rcases found owner second another foundSecond with
        ⟨rfl, rfl, rfl⟩ | oldOther
      · cases sameOther
        exact absurd same (noneBefore _ _ _ old)
      · exact owned.single owner first second attempt another key old oldOther
          same sameOther
  · intro owner other attempt name ballot foundAfter key maySend
    rw [record_sentByAny, proposals, Nat.zero_add]
    rcases found owner other attempt foundAfter with ⟨rfl, rfl, rfl⟩ | old
    · cases key
      by_contra proposed
      obtain ⟨source, sent⟩ := exists_sender (Nat.pos_of_ne_zero proposed)
      have prepared := owned.proposer source _ _ sent
      have none := unprepared source
      omega
    · exact owned.unsent owner other attempt name ballot old key maySend
  · intro name ballot
    rw [record_sentByAny, proposals, Nat.zero_add]
    exact owned.proposedOnce name ballot
  · intro owner name ballot sent
    rw [record_sent, proposals] at sent
    rw [record_sent]
    have before := owned.proposer owner name ballot (by simpa using sent)
    omega

theorem Owned.propose (owned : network.Owned) {call : CallId}
    {preparation : PlexoPreparation} {promises : List PlexoPromise}
    {multicastAddress : IPAddress}
    (foundBefore : (network.ganglion instance_).calls call =
      some (.proposing preparation promises multicastAddress))
    (calls : result.1.calls = (network.ganglion instance_).calls.set call
      (.transmittingProposal (proposalFor preparation multicastAddress)
        multicastAddress))
    (outputs : result.2 = [.accept (proposalFor preparation multicastAddress),
      .transmit .proposal
        (.proposal (proposalFor preparation multicastAddress))]) :
    (network.record instance_ result).Owned := by
  have prepared := owned.prepared instance_ call _ preparation.typeName
    preparation.ballot foundBefore rfl
  have unsent := owned.unsent instance_ call _ preparation.typeName
    preparation.ballot foundBefore rfl rfl
  have preparations : ∀ name ballot,
      result.2.countP (Output.sends .preparation name ballot) = 0 := by
    intro name ballot
    simp [outputs, Output.sends, Output.transmits]
  have proposals : ∀ name ballot,
      result.2.countP (Output.sends .proposal name ballot) =
        if preparation.typeName = name ∧ preparation.ballot = ballot then 1
        else 0 := by
    intro name ballot
    have sameName : (proposalFor preparation multicastAddress).typeName =
        preparation.typeName := rfl
    rw [outputs, List.countP_cons, List.countP_singleton]
    simp [Output.sends, Output.transmits, sameName]
  have found : ∀ owner other attempt,
      ((network.record instance_ result).ganglion owner).calls other =
        some attempt →
      ∃ earlier, (network.ganglion owner).calls other = some earlier ∧
        earlier.Continues attempt ∧
        (owner = instance_ → other = call → attempt.maySend = false) := by
    intro owner other attempt foundAfter
    rcases calls_record_cases calls foundAfter with
      ⟨rfl, rfl, rfl⟩ | ⟨another, old⟩
    · exact ⟨_, foundBefore, ⟨fun _ => id, by simp [Attempt.maySend]⟩,
        fun _ _ => rfl⟩
    · exact ⟨attempt, old, .refl attempt,
        fun sameOwner sameCall => absurd ⟨sameOwner, sameCall⟩ another⟩
  constructor
  · intro owner other attempt name ballot foundAfter key
    obtain ⟨earlier, old, goesOn, _⟩ := found owner other attempt foundAfter
    rw [record_sent, preparations]
    have before := owned.prepared owner other earlier name ballot old
      (goesOn.1 _ key)
    omega
  · intro name ballot
    rw [record_sentByAny, preparations, Nat.zero_add]
    exact owned.once name ballot
  · intro owner first second attempt another key foundFirst foundSecond same
      sameOther
    obtain ⟨earlier, old, goesOn, _⟩ := found owner first attempt foundFirst
    obtain ⟨earlierOther, oldOther, otherGoesOn, _⟩ :=
      found owner second another foundSecond
    exact owned.single owner first second earlier earlierOther key old oldOther
      (goesOn.1 _ same) (otherGoesOn.1 _ sameOther)
  · intro owner other attempt name ballot foundAfter key maySend
    obtain ⟨earlier, old, goesOn, spent⟩ := found owner other attempt foundAfter
    rw [record_sentByAny, proposals]
    split
    · next same =>
        obtain ⟨rfl, rfl⟩ := same
        have preparedHere := owned.prepared owner other earlier _ _ old
          (goesOn.1 _ key)
        have sameOwner := owned.owner_unique preparedHere prepared
        subst sameOwner
        have sameCall := owned.single owner other call earlier _ _ old
          foundBefore (goesOn.1 _ key) rfl
        rw [spent rfl sameCall] at maySend
        cases maySend
    · rw [Nat.zero_add]
      exact owned.unsent owner other earlier name ballot old (goesOn.1 _ key)
        (goesOn.2 maySend)
  · intro name ballot
    have once := owned.proposedOnce name ballot
    rw [record_sentByAny, proposals]
    split
    · next same =>
        obtain ⟨rfl, rfl⟩ := same
        omega
    · omega
  · intro owner name ballot sent
    rw [record_sent, preparations]
    rw [record_sent, proposals] at sent
    by_cases here : instance_ = owner ∧
        preparation.typeName = name ∧ preparation.ballot = ballot
    · obtain ⟨rfl, rfl, rfl⟩ := here
      omega
    · have before : 0 < network.sent owner .proposal name ballot := by
        grind
      have preparedBefore := owned.proposer owner name ballot before
      omega

end Step

theorem Readied.owned {decoding : Decoding} {network before : Network N}
    {action : NetworkAction N} {instance_ : Fin N} {input : Input}
    (ready : Readied decoding network action instance_ input before)
    (owned : network.Owned) : before.Owned :=
  owned.keep
    (fun owner call later found =>
      ⟨later, by rwa [ready.ganglion_eq] at found, .refl later⟩)
    (fun source kind name ballot _ => ready.sent_eq source kind name ballot)
    (fun kind name ballot _ => ready.sentByAny_eq kind name ballot)

theorem Owned.step {decoding : Decoding} {host : Fin N → Host}
    {network next : Network N} {action : NetworkAction N}
    (owned : network.Owned)
    (fresh : network.freshBallot action = true)
    (taken : network.step decoding host action = some next) :
    next.Owned := by
  cases move_of_step taken with
  | lose chosen =>
      exact owned.keep (fun _ _ later found => ⟨later, found, .refl later⟩)
        (fun _ _ _ _ _ => rfl) (fun _ _ _ _ => rfl)
  | @take instance_ input before result ready resultTaken =>
      have ownedBefore := ready.owned owned
      rw [← ready.ganglion_eq] at resultTaken
      cases GanglionPlexoMulticast.ballotMove_of_step resultTaken with
      | keep calls preparations proposals =>
          have noSend : ∀ kind name ballot,
              kind = .preparation ∨ kind = .proposal →
              result.2.countP (Output.sends kind name ballot) = 0 := by
            rintro kind name ballot (rfl | rfl)
            · exact preparations name ballot
            · exact proposals name ballot
          refine ownedBefore.keep ?_ ?_ ?_
          · intro owner call later found
            by_cases same : owner = instance_
            · subst same
              rw [record_ganglion_self] at found
              exact calls call later found
            · rw [record_ganglion_other _ _ same] at found
              exact ⟨later, found, .refl later⟩
          · intro source kind name ballot chosen
            rw [record_sent, noSend kind name ballot chosen]
            simp
          · intro kind name ballot chosen
            rw [record_sentByAny, noSend kind name ballot chosen, Nat.zero_add]
      | prepare none calls outputs =>
          refine ownedBefore.prepare ?_ calls outputs
          rw [ready.sentByAny_eq]
          cases ready with
          | own => simpa [freshBallot, PlexoPreparation.ballot] using fresh
      | propose found calls outputs =>
          exact ownedBefore.propose found calls outputs

theorem owned_ofGanglia {ganglion : Fin N → GanglionPlexoMulticast}
    (noCalls : ∀ owner, (ganglion owner).calls = PMap.empty) :
    (ofGanglia ganglion).Owned := by
  constructor <;> simp [ofGanglia, noCalls, sent, sentByAny]

end Network

end Plexo
