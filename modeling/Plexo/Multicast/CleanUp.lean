import Plexo.Multicast.Ownership
import Plexo.Multicast.Learner

/-!
# What a consensus attempt leaves behind

Five maps are filled on behalf of the attempts for a type.  A call of
`_get_address_from_consensus` removes its entries at the end of each of its two
waits, but the reactions to promises and rejections fill the maps of the first
wait at any time, another call for the type stores its own timers, and the
approvals are not removed at all: `discard` stands where the entry is known to
be missing.
-/

namespace Plexo

open PersistentMap Transition

namespace Attempt

def typeName : Attempt → String
  | .transmittingPreparation preparation => preparation.typeName
  | .awaitingPromises preparation _ => preparation.typeName
  | .proposing preparation _ _ => preparation.typeName
  | .transmittingProposal proposal _ => proposal.typeName
  | .awaitingApprovals proposal _ _ => proposal.typeName
  | .returned proposal _ => proposal.typeName
  | .raised name _ => name

end Attempt

/-- The key under which the approvals for a preparation are counted. -/
def PlexoPreparation.key (preparation : PlexoPreparation) : String × Nat × Nat :=
  (preparation.typeName, preparation.proposalId, preparation.instanceId)

namespace GanglionPlexoMulticast

def isCallFor (ganglion : GanglionPlexoMulticast) (name : String)
    (call : CallId) : Bool :=
  (ganglion.calls call).any (·.typeName = name)

def startsPreparationTimer (ganglion : GanglionPlexoMulticast) (name : String) :
    Input → Bool
  | .own (.startPreparationTimer call) => ganglion.isCallFor name call
  | _ => false

def checksPromises (ganglion : GanglionPlexoMulticast) (name : String) :
    Input → Bool
  | .own (.checkPromises call _) => ganglion.isCallFor name call
  | _ => false

def startsProposalTimer (ganglion : GanglionPlexoMulticast) (name : String) :
    Input → Bool
  | .own (.startProposalTimer call) => ganglion.isCallFor name call
  | _ => false

def checksApprovals (ganglion : GanglionPlexoMulticast) (name : String) :
    Input → Bool
  | .own (.checkApprovals call) => ganglion.isCallFor name call
  | _ => false

def collectsPromise (ganglion : GanglionPlexoMulticast) (name : String) :
    Input → Bool
  | .receive (.promise promise) =>
      promise.instanceId = ganglion.instanceId && promise.typeName = name
  | _ => false

def collectsRejection (ganglion : GanglionPlexoMulticast) (name : String) :
    Input → Bool
  | .receive (.rejection rejection) =>
      rejection.instanceId = ganglion.instanceId && rejection.typeName = name
  | _ => false

/-- What a step does to the maps of the attempts for a type. -/
structure BooksFollow (ganglion next : GanglionPlexoMulticast) (name : String)
    (input : Input) : Prop where
  instanceId : next.instanceId = ganglion.instanceId
  preparationTimers : (next.preparationTimers name).isSome =
    (ganglion.startsPreparationTimer name input ||
      !ganglion.checksPromises name input &&
        (ganglion.preparationTimers name).isSome)
  preparationPromises : (next.preparationPromises name).isSome =
    (ganglion.collectsPromise name input ||
      !ganglion.checksPromises name input &&
        (ganglion.preparationPromises name).isSome)
  preparationRejections : (next.preparationRejections name).isSome =
    (ganglion.collectsRejection name input ||
      !ganglion.checksPromises name input &&
        (ganglion.preparationRejections name).isSome)
  proposalTimers : (next.proposalTimers name).isSome =
    (ganglion.startsProposalTimer name input ||
      !ganglion.checksApprovals name input &&
        (ganglion.proposalTimers name).isSome)

structure SameBooks (ganglion next : GanglionPlexoMulticast) : Prop where
  instanceId : next.instanceId = ganglion.instanceId
  preparationTimers : next.preparationTimers = ganglion.preparationTimers
  preparationPromises : next.preparationPromises = ganglion.preparationPromises
  preparationRejections :
    next.preparationRejections = ganglion.preparationRejections
  proposalTimers : next.proposalTimers = ganglion.proposalTimers

/-- Inputs that neither fill nor empty one of the maps. -/
structure LeavesBooks (ganglion : GanglionPlexoMulticast) (name : String)
    (input : Input) : Prop where
  startsPreparationTimer : ganglion.startsPreparationTimer name input = false
  checksPromises : ganglion.checksPromises name input = false
  startsProposalTimer : ganglion.startsProposalTimer name input = false
  checksApprovals : ganglion.checksApprovals name input = false
  collectsPromise : ganglion.collectsPromise name input = false
  collectsRejection : ganglion.collectsRejection name input = false

theorem SameBooks.follow {ganglion next : GanglionPlexoMulticast}
    {name : String} {input : Input} (same : SameBooks ganglion next)
    (leaves : ganglion.LeavesBooks name input) :
    ganglion.BooksFollow next name input := by
  constructor
  · exact same.instanceId
  · simp [same.preparationTimers, leaves.startsPreparationTimer,
      leaves.checksPromises]
  · simp [same.preparationPromises, leaves.collectsPromise,
      leaves.checksPromises]
  · simp [same.preparationRejections, leaves.collectsRejection,
      leaves.checksPromises]
  · simp [same.proposalTimers, leaves.startsProposalTimer,
      leaves.checksApprovals]

theorem SameBooks.refl (ganglion : GanglionPlexoMulticast) :
    ganglion.SameBooks ganglion :=
  ⟨rfl, rfl, rfl, rfl, rfl⟩

theorem approvalReaction_sameBooks (host : Host)
    (ganglion : GanglionPlexoMulticast) (approval : PlexoApproval) :
    ganglion.SameBooks (ganglion.approvalReaction host approval).1 := by
  unfold approvalReaction commitApproval
  dsimp only
  split
  · split
    · exact ⟨rfl, rfl, rfl, rfl, rfl⟩
    · split
      · exact ⟨rfl, rfl, rfl, rfl, rfl⟩
      · split
        · exact ⟨rfl, rfl, rfl, rfl, rfl⟩
        · split <;> exact ⟨rfl, rfl, rfl, rfl, rfl⟩
  · exact ⟨rfl, rfl, rfl, rfl, rfl⟩

theorem booksFollow_of_react (host : Host) (ganglion : GanglionPlexoMulticast)
    (message : Message) (name : String) :
    ganglion.BooksFollow (ganglion.react host message).1 name
      (.receive message) := by
  cases message with
  | heartbeat body =>
      exact (SameBooks.refl ganglion).follow ⟨rfl, rfl, rfl, rfl, rfl, rfl⟩
  | preparation body =>
      have same : ganglion.SameBooks (ganglion.preparationReaction body).1 := by
        unfold preparationReaction
        dsimp only
        split
        · exact .refl ganglion
        · split <;> exact ⟨rfl, rfl, rfl, rfl, rfl⟩
      exact same.follow ⟨rfl, rfl, rfl, rfl, rfl, rfl⟩
  | promise body =>
      simp only [react, promiseReaction]
      split
      · next foreign =>
          exact (SameBooks.refl ganglion).follow
            ⟨rfl, rfl, rfl, rfl, by simp [collectsPromise, foreign], rfl⟩
      · next own =>
          rw [not_not] at own
          refine ⟨rfl, rfl, ?_, rfl, rfl⟩
          simp [collectsPromise, checksPromises, own, PMap.isSome_set]
  | rejection body =>
      simp only [react, rejectionReaction]
      split
      · next foreign =>
          exact (SameBooks.refl ganglion).follow
            ⟨rfl, rfl, rfl, rfl, rfl, by simp [collectsRejection, foreign]⟩
      · next own =>
          rw [not_not] at own
          refine ⟨rfl, rfl, rfl, ?_, rfl⟩
          simp [collectsRejection, checksPromises, own, PMap.isSome_set]
  | proposal body =>
      have same : ganglion.SameBooks (ganglion.proposalReaction body).1 := by
        unfold proposalReaction
        split
        · exact .refl ganglion
        · split
          · exact ⟨rfl, rfl, rfl, rfl, rfl⟩
          · exact .refl ganglion
      exact same.follow ⟨rfl, rfl, rfl, rfl, rfl, rfl⟩
  | approval body =>
      exact (approvalReaction_sameBooks host ganglion body).follow
        ⟨rfl, rfl, rfl, rfl, rfl, rfl⟩

theorem booksFollow_of_checkPromises {ganglion : GanglionPlexoMulticast}
    {call : CallId} {preparation : PlexoPreparation} {cancelled : Bool}
    {popped : IPAddress} (name : String)
    (found : ganglion.calls call =
      some (.awaitingPromises preparation cancelled)) :
    ganglion.BooksFollow (ganglion.checkPromises call preparation popped).1 name
      (.own (.checkPromises call popped)) := by
  have cleared : (ganglion.clearPreparation preparation.typeName).SameBooks
      (ganglion.checkPromises call preparation popped).1 := by
    unfold checkPromises
    dsimp only
    split
    · exact ⟨rfl, rfl, rfl, rfl, rfl⟩
    · split <;> exact ⟨rfl, rfl, rfl, rfl, rfl⟩
  have checks : ganglion.checksPromises name (.own (.checkPromises call popped)) =
      decide (preparation.typeName = name) := by
    simp only [checksPromises, isCallFor, found, Option.any_some]
    rfl
  constructor
  · exact cleared.instanceId
  · simp [cleared.preparationTimers, clearPreparation, PMap.isSome_discard,
      checks, startsPreparationTimer]
  · simp [cleared.preparationPromises, clearPreparation, PMap.isSome_discard,
      checks, collectsPromise]
  · simp [cleared.preparationRejections, clearPreparation, PMap.isSome_discard,
      checks, collectsRejection]
  · simp [cleared.proposalTimers, clearPreparation, startsProposalTimer,
      checksApprovals]

theorem booksFollow_of_checkApprovals {ganglion : GanglionPlexoMulticast}
    {call : CallId} {proposal : PlexoProposal} {multicastAddress : IPAddress}
    {cancelled : Bool} (name : String)
    (found : ganglion.calls call =
      some (.awaitingApprovals proposal multicastAddress cancelled)) :
    ganglion.BooksFollow
      (ganglion.checkApprovals call proposal multicastAddress).1 name
      (.own (.checkApprovals call)) := by
  have cleared : SameBooks
      { ganglion with
        proposalTimers := ganglion.proposalTimers.discard proposal.typeName }
      (ganglion.checkApprovals call proposal multicastAddress).1 := by
    unfold checkApprovals
    dsimp only
    split <;> exact ⟨rfl, rfl, rfl, rfl, rfl⟩
  have checks : ganglion.checksApprovals name (.own (.checkApprovals call)) =
      decide (proposal.typeName = name) := by
    simp only [checksApprovals, isCallFor, found, Option.any_some]
    rfl
  constructor
  · exact cleared.instanceId
  · simp [cleared.preparationTimers, startsPreparationTimer, checksPromises]
  · simp [cleared.preparationPromises, collectsPromise, checksPromises]
  · simp [cleared.preparationRejections, collectsRejection, checksPromises]
  · simp [cleared.proposalTimers, PMap.isSome_discard, checks,
      startsProposalTimer]

theorem booksFollow_of_act {host : Host} {ganglion : GanglionPlexoMulticast}
    {action : OwnAction} {result : GanglionPlexoMulticast × List Output}
    (name : String) (taken : ganglion.act host action = some result) :
    ganglion.BooksFollow result.1 name (.own action) := by
  cases ownStep_of_act taken with
  | @startPreparationTimer call preparation found =>
      refine ⟨rfl, ?_, rfl, rfl, rfl⟩
      have starts : ganglion.startsPreparationTimer name
          (.own (.startPreparationTimer call)) =
            decide (preparation.typeName = name) := by
        simp only [startsPreparationTimer, isCallFor, found, Option.any_some]
        rfl
      simp [GanglionPlexoMulticast.startPreparationTimer, setCall,
        PMap.isSome_set, starts, checksPromises]
  | checkPromises found canPop => exact booksFollow_of_checkPromises name found
  | @startProposalTimer call proposal multicastAddress found =>
      refine ⟨rfl, rfl, rfl, rfl, ?_⟩
      have starts : ganglion.startsProposalTimer name
          (.own (.startProposalTimer call)) =
            decide (proposal.typeName = name) := by
        simp only [startsProposalTimer, isCallFor, found, Option.any_some]
        rfl
      simp [GanglionPlexoMulticast.startProposalTimer, setCall,
        PMap.isSome_set, starts, checksApprovals]
  | checkApprovals found => exact booksFollow_of_checkApprovals name found
  | @approve approval pending =>
      have same := approvalReaction_sameBooks host
        { ganglion with approving := ganglion.approving.erase approval } approval
      have kept : ganglion.SameBooks _ := ⟨same.instanceId,
        same.preparationTimers, same.preparationPromises,
        same.preparationRejections, same.proposalTimers⟩
      exact kept.follow ⟨rfl, rfl, rfl, rfl, rfl, rfl⟩
  | _ =>
      apply SameBooks.follow
      · exact ⟨rfl, rfl, rfl, rfl, rfl⟩
      · exact ⟨rfl, rfl, rfl, rfl, rfl, rfl⟩

theorem booksFollow_of_step {host : Host} {ganglion : GanglionPlexoMulticast}
    {input : Input} {result : GanglionPlexoMulticast × List Output}
    (name : String) (taken : ganglion.step host input = some result) :
    ganglion.BooksFollow result.1 name input := by
  cases input with
  | own action => exact booksFollow_of_act name taken
  | receive message =>
      exact Option.some.inj taken ▸
        booksFollow_of_react host ganglion message name

/-- The approvals for a ballot of this instance are counted and never removed. -/
theorem step_proposalApprovals_own {host : Host}
    {ganglion : GanglionPlexoMulticast} {input : Input}
    {result : GanglionPlexoMulticast × List Output}
    {key : String × Nat × Nat}
    (taken : ganglion.step host input = some result)
    (own : key.2.2 = ganglion.instanceId) :
    (result.1.proposalApprovals key).isSome =
      (input.approves key || (ganglion.proposalApprovals key).isSome) := by
  cases approves : input.approves key with
  | false =>
      rw [step_proposalApprovals_other taken approves, Bool.false_or]
  | true =>
      obtain ⟨approval, counts, same⟩ := (Option.any_eq_true _ _).mp approves
      obtain rfl : approval.key = key := by simpa using same
      obtain ⟨approving, rfl⟩ := step_of_approval taken counts
      have ownApproval : approval.instanceId = ganglion.instanceId := own
      unfold approvalReaction
      dsimp only
      rw [if_pos ownApproval]
      split
      · simp [countApproval]
      · simp [countApproval]

/-- The calls of an instance use ballots of their own instance. -/
def OwnBallots (ganglion : GanglionPlexoMulticast) : Prop :=
  ∀ call attempt key, ganglion.calls call = some attempt →
    attempt.key? = some key → key.2.instanceId = ganglion.instanceId

theorem OwnBallots.step {host : Host} {ganglion : GanglionPlexoMulticast}
    {input : Input} {result : GanglionPlexoMulticast × List Output}
    (own : ganglion.OwnBallots)
    (taken : ganglion.step host input = some result) :
    result.1.OwnBallots := by
  intro call attempt key found keyed
  rw [(booksFollow_of_step "" taken).instanceId]
  cases ballotMove_of_step taken with
  | keep calls preparations proposals =>
      obtain ⟨earlier, foundBefore, goesOn⟩ := calls call attempt found
      exact own call earlier key foundBefore (goesOn.1 key keyed)
  | @prepare other name newProposalId fresh calls outputs =>
      rw [calls, PMap.set_apply] at found
      split at found
      · cases found
        cases keyed
        rfl
      · exact own call attempt key found keyed
  | @propose other preparation promises multicastAddress foundBefore calls
      outputs =>
      rw [calls, PMap.set_apply] at found
      split at found
      · cases found
        exact own other _ key foundBefore keyed
      · exact own call attempt key found keyed

/-- The maps have no entry for the type and the ballot of an attempt. -/
structure CleanedUp (ganglion : GanglionPlexoMulticast)
    (key : String × Nat × Nat) : Prop where
  preparationTimers : ganglion.preparationTimers key.1 = none
  preparationPromises : ganglion.preparationPromises key.1 = none
  preparationRejections : ganglion.preparationRejections key.1 = none
  proposalTimers : ganglion.proposalTimers key.1 = none
  proposalApprovals : ganglion.proposalApprovals key = none

/-- An input that fills one of the maps of the first wait. -/
def fillsPreparation (ganglion : GanglionPlexoMulticast) (name : String)
    (input : Input) : Bool :=
  ganglion.startsPreparationTimer name input ||
    (ganglion.collectsPromise name input ||
      ganglion.collectsRejection name input)

end GanglionPlexoMulticast

/-- The input ends a call of `_get_address_from_consensus` whose approvals are
counted under `key`. -/
inductive Ends (observed next : Observed) : Input → String × Nat × Nat → Prop where
  | inPreparation {call : CallId} {preparation : PlexoPreparation}
      {cancelled : Bool} {popped : IPAddress} {name : String}
      {error : PlexoError} :
      observed.ganglion.calls call =
        some (.awaitingPromises preparation cancelled) →
      next.ganglion.calls call = some (.raised name error) →
      Ends observed next (.own (.checkPromises call popped)) preparation.key
  | inProposal {call : CallId} {proposal : PlexoProposal}
      {multicastAddress : IPAddress} {cancelled : Bool} :
      observed.ganglion.calls call =
        some (.awaitingApprovals proposal multicastAddress cancelled) →
      Ends observed next (.own (.checkApprovals call)) proposal.key

/-- In the steps of a run, newest first: since a call for the type checked its
promises, none started its preparation timer and no promise or rejection came
in; since a call for the type checked its approvals, none started its proposal
timer; and no approval of the ballot was counted. -/
structure Undisturbed (key : String × Nat × Nat)
    (steps : List (Observed × Input)) : Prop where
  preparation : isUp
    (fun observed => observed.ganglion.fillsPreparation key.1)
    (fun observed => observed.ganglion.checksPromises key.1) steps = false
  proposal : isUp
    (fun observed => observed.ganglion.startsProposalTimer key.1)
    (fun observed => observed.ganglion.checksApprovals key.1) steps = false
  approvals : approvalsIn key steps = 0

section Runs

variable {host : Host} {multicastCidr : IPNetwork} {instanceId numPeers : Nat}
  {filters : Filters} {steps : List (Observed × Input)}
  {observed next : Observed} {input : Input}

theorem instanceId_of_run
    (path : Path (Observed.step host)
      ⟨.started host multicastCidr instanceId numPeers filters, []⟩ steps
      observed) : observed.ganglion.instanceId = instanceId := by
  apply @Path.always _ _ _ (fun observed =>
    observed.ganglion.instanceId = instanceId) _ _ _ path rfl
  intro before input after same taken
  obtain ⟨result, resultTaken, rfl⟩ := Observed.step_eq_some taken
  rw [← same]
  exact (GanglionPlexoMulticast.booksFollow_of_step "" resultTaken).instanceId

theorem ownBallots_of_run
    (path : Path (Observed.step host)
      ⟨.started host multicastCidr instanceId numPeers filters, []⟩ steps
      observed) : observed.ganglion.OwnBallots := by
  apply path.always
  · intro call attempt key found
    simp [(GanglionPlexoMulticast.started_idle ..).calls] at found
  · intro before input after own taken
    obtain ⟨result, resultTaken, rfl⟩ := Observed.step_eq_some taken
    exact own.step resultTaken

theorem entry_of_run {flag : GanglionPlexoMulticast → Bool}
    {raises lowers : GanglionPlexoMulticast → Input → Bool}
    (path : Path (Observed.step host)
      ⟨.started host multicastCidr instanceId numPeers filters, []⟩ steps
      observed)
    (down : flag (.started host multicastCidr instanceId numPeers filters) =
      false)
    (moved : ∀ ganglion input result,
      ganglion.instanceId = instanceId →
      GanglionPlexoMulticast.step host ganglion input = some result →
      flag result.1 =
        (raises ganglion input || !lowers ganglion input && flag ganglion)) :
    flag observed.ganglion = isUp (fun observed => raises observed.ganglion)
      (fun observed => lowers observed.ganglion) steps := by
  apply @Path.flag_eq _ _ (Observed.step host) _ _
    (fun observed => observed.ganglion.instanceId = instanceId)
    (fun observed => flag observed.ganglion) _ _ _ path rfl down
  · intro before input after same taken
    obtain ⟨result, resultTaken, rfl⟩ := Observed.step_eq_some taken
    rw [← same]
    exact (GanglionPlexoMulticast.booksFollow_of_step "" resultTaken).instanceId
  · intro before input after same taken
    obtain ⟨result, resultTaken, rfl⟩ := Observed.step_eq_some taken
    exact moved before.ganglion input result same resultTaken

theorem preparation_of_run (name : String)
    (path : Path (Observed.step host)
      ⟨.started host multicastCidr instanceId numPeers filters, []⟩ steps
      observed) :
    isUp (fun observed => observed.ganglion.fillsPreparation name)
        (fun observed => observed.ganglion.checksPromises name) steps =
      ((observed.ganglion.preparationTimers name).isSome ||
        ((observed.ganglion.preparationPromises name).isSome ||
          (observed.ganglion.preparationRejections name).isSome)) := by
  have timers := @entry_of_run _ _ _ _ _ _ _
    (fun ganglion => (ganglion.preparationTimers name).isSome) _ _ path rfl
    fun _ _ _ _ taken =>
      (GanglionPlexoMulticast.booksFollow_of_step name taken).preparationTimers
  have promises := @entry_of_run _ _ _ _ _ _ _
    (fun ganglion => (ganglion.preparationPromises name).isSome) _ _ path rfl
    fun _ _ _ _ taken =>
      (GanglionPlexoMulticast.booksFollow_of_step name
        taken).preparationPromises
  have rejections := @entry_of_run _ _ _ _ _ _ _
    (fun ganglion => (ganglion.preparationRejections name).isSome) _ _ path rfl
    fun _ _ _ _ taken =>
      (GanglionPlexoMulticast.booksFollow_of_step name
        taken).preparationRejections
  rw [timers, promises, rejections, ← isUp_or, ← isUp_or]
  rfl

theorem proposalTimers_of_run (name : String)
    (path : Path (Observed.step host)
      ⟨.started host multicastCidr instanceId numPeers filters, []⟩ steps
      observed) :
    isUp (fun observed => observed.ganglion.startsProposalTimer name)
        (fun observed => observed.ganglion.checksApprovals name) steps =
      (observed.ganglion.proposalTimers name).isSome :=
  (@entry_of_run _ _ _ _ _ _ _
    (fun ganglion => (ganglion.proposalTimers name).isSome) _ _ path rfl
    fun _ _ _ _ taken => (GanglionPlexoMulticast.booksFollow_of_step name
      taken).proposalTimers).symm

theorem ownApprovals_of_run {key : String × Nat × Nat}
    (path : Path (Observed.step host)
      ⟨.started host multicastCidr instanceId numPeers filters, []⟩ steps
      observed) (own : key.2.2 = instanceId) :
    approvalsIn key steps = 0 ↔
      observed.ganglion.proposalApprovals key = none := by
  have entry := @entry_of_run _ _ _ _ _ _ _
    (fun ganglion => (ganglion.proposalApprovals key).isSome)
    (fun _ input => input.approves key) (fun _ _ => false) path rfl
    fun ganglion input result same taken => by
      rw [GanglionPlexoMulticast.step_proposalApprovals_own taken
        (own.trans same.symm)]
      simp
  simp only [isUp_of_never_lowered] at entry
  rw [← Option.not_isSome_iff_eq_none, entry, approvalsIn,
    List.countP_eq_zero]
  simp

theorem Ends.own {key : String × Nat × Nat} (ends : Ends observed next input key)
    (own : observed.ganglion.OwnBallots) :
    key.2.2 = observed.ganglion.instanceId := by
  cases ends with
  | inPreparation found failed => exact own _ _ _ found rfl
  | inProposal found => exact own _ _ _ found rfl

/-- A call of `_get_address_from_consensus` leaves nothing behind exactly if no
approval of its ballot was counted before it ended, nothing came in for the
preparation of the type since the promises for the type were last checked, and
no proposal timer for the type was started since the approvals for the type
were last checked. -/
theorem cleanedUp_iff {key : String × Nat × Nat}
    (path : Path (Observed.step host)
      ⟨.started host multicastCidr instanceId numPeers filters, []⟩ steps
      observed)
    (taken : observed.step host input = some next)
    (ends : Ends observed next input key) :
    next.ganglion.CleanedUp key ↔
      Undisturbed key ((observed, input) :: steps) := by
  have own : key.2.2 = instanceId :=
    (ends.own (ownBallots_of_run path)).trans (instanceId_of_run path)
  have whole := path.snoc taken
  have preparation := preparation_of_run key.1 whole
  have proposal := proposalTimers_of_run key.1 whole
  have approvals := ownApprovals_of_run whole own
  constructor
  · intro clean
    constructor
    · simp [preparation, clean.preparationTimers, clean.preparationPromises,
        clean.preparationRejections]
    · simp [proposal, clean.proposalTimers]
    · exact approvals.mpr clean.proposalApprovals
  · intro undisturbed
    have noPreparation := preparation.symm.trans undisturbed.preparation
    have noProposal := proposal.symm.trans undisturbed.proposal
    simp only [Bool.or_eq_false_iff, Option.isSome_eq_false_iff,
      Option.isNone_iff_eq_none] at noPreparation noProposal
    obtain ⟨timers, promises, rejections⟩ := noPreparation
    exact ⟨timers, promises, rejections, noProposal,
      approvals.mp undisturbed.approvals⟩

end Runs

namespace Attempted

def preparation : PlexoPreparation := ⟨10, 1, "dev.plexo.Foo.json"⟩

def chosen : IPAddress := .v4 239 0 0 32

def proposal : PlexoProposal := proposalFor preparation chosen

/-- One of two peers promises the ballot, and the call waits for approvals;
`answers` are what comes in then. -/
def run (answers : List Message) : List Input :=
  [.own (.prepare 0 preparation.typeName 1), .own (.startPreparationTimer 0),
    .receive (.promise (promiseFor none preparation)),
    .own (.checkPromises 0 chosen), .own (.sendProposal 0),
    .own (.startProposalTimer 0)] ++ answers.map .receive

end Attempted

/-- Nobody approves, and the call ends with `ConsensusNotReached`. -/
theorem cleanedUp_unapproved :
    ∃ steps observed next, Path (Observed.step .permissive)
        ⟨.sample 10 2, []⟩ steps observed ∧
      observed.step .permissive (.own (.checkApprovals 0)) = some next ∧
      next.ganglion.CleanedUp Attempted.proposal.key := by
  obtain ⟨observed, path, waiting⟩ := path_of_any
    (show (exec (Observed.step .permissive) ⟨.sample 10 2, []⟩
      (Attempted.run [])).any (fun observed =>
        observed.ganglion.calls 0 = some
            (.awaitingApprovals Attempted.proposal Attempted.chosen false) ∧
          observed.ganglion.isCallFor "dev.plexo.Foo.json" 0 = true) = true by
        decide +kernel)
  simp only [decide_eq_true_eq] at waiting
  obtain ⟨found, same⟩ := waiting
  have taken : observed.step .permissive (.own (.checkApprovals 0)) =
      some ⟨(observed.ganglion.checkApprovals 0 Attempted.proposal
        Attempted.chosen).1, (observed.ganglion.checkApprovals 0
          Attempted.proposal Attempted.chosen).2.reverse ++
            observed.history⟩ := by
    simp [Observed.step, GanglionPlexoMulticast.step,
      GanglionPlexoMulticast.act, found]
  refine ⟨_, observed, _, path, taken, ?_⟩
  refine (cleanedUp_iff path taken (.inProposal found)).mpr ⟨?_, ?_, ?_⟩
  · have before : isUp
        (fun observed => observed.ganglion.fillsPreparation
          Attempted.proposal.key.1)
        (fun observed => observed.ganglion.checksPromises
          Attempted.proposal.key.1)
        (visited (Observed.step .permissive) ⟨.sample 10 2, []⟩ []
          (Attempted.run [])) = false := by decide +kernel
    rw [isUp, before]
    rfl
  · have checks : observed.ganglion.checksApprovals Attempted.proposal.key.1
        (.own (.checkApprovals 0)) = true := same
    rw [isUp, checks]
    rfl
  · have before : approvalsIn Attempted.proposal.key
        (visited (Observed.step .permissive) ⟨.sample 10 2, []⟩ []
          (Attempted.run [])) = 0 := by decide +kernel
    have unapproving : (Input.own (.checkApprovals 0)).approves
        Attempted.proposal.key = false := rfl
    rw [approvalsIn, List.countP_cons_of_neg (by simp [unapproving])]
    exact before

/-- A peer approves in time, and its approval stays. -/
theorem not_cleanedUp_approved :
    ¬ ∀ (host : Host) (multicastCidr : IPNetwork) (instanceId numPeers : Nat)
      (filters : Filters) (steps : List (Observed × Input))
      (observed next : Observed) (input : Input) (key : String × Nat × Nat),
      Path (Observed.step host)
        ⟨.started host multicastCidr instanceId numPeers filters, []⟩ steps
        observed →
      observed.step host input = some next →
      Ends observed next input key →
      next.ganglion.CleanedUp key := by
  intro cleansUp
  obtain ⟨observed, path, facts⟩ := path_of_any
    (show (exec (Observed.step .permissive) ⟨.sample 10 2, []⟩
      (Attempted.run [.approval (approvalFor Attempted.proposal)])).any
        (fun observed => observed.ganglion.calls 0 = some
            (.awaitingApprovals Attempted.proposal Attempted.chosen false) ∧
          (observed.step .permissive (.own (.checkApprovals 0))).any
            (fun next => next.ganglion.proposalApprovals
              Attempted.proposal.key = some 1) = true) = true by decide +kernel)
  simp only [decide_eq_true_eq] at facts
  obtain ⟨found, result⟩ := facts
  obtain ⟨next, taken, counted⟩ := (Option.any_eq_true _ _).mp result
  have clean := cleansUp _ _ _ _ _ _ observed next _ _ path taken
    (.inProposal found)
  simp [clean.proposalApprovals] at counted

end Plexo
