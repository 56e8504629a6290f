import Plexo.Multicast.Acceptor

/-!
# The promise guarantee

An acceptor that has promised a ballot must not go back behind it.  The
reactions keep this by comparing ballots.  `_send_proposal` compares nothing:
an instance that promised a newer ballot while its own call was waiting stores
its older one over it.
-/

namespace Plexo

open PersistentMap Transition

namespace GanglionPlexoMulticast

/-- The instance is not about to store a proposal of its own that is older than
what it has stored. -/
def keepsPromise (ganglion : GanglionPlexoMulticast) : Input → Bool
  | .own (.sendProposal call) =>
      match ganglion.calls call with
      | some (.proposing preparation _ _) =>
          match ganglion.proposals preparation.typeName with
          | none => true
          | some stored => stored.ballot ≤ preparation.ballot
      | _ => true
  | _ => true

theorem keepsPromise_proposing {ganglion : GanglionPlexoMulticast}
    {call : CallId} {preparation : PlexoPreparation}
    {promises : List PlexoPromise} {multicastAddress : IPAddress}
    (found : ganglion.calls call =
      some (.proposing preparation promises multicastAddress)) :
    ganglion.keepsPromise (.own (.sendProposal call)) = true ↔
      ganglion.storedBallot preparation.typeName ≤
        (preparation.ballot : WithBot Ballot) := by
  unfold keepsPromise storedBallot
  simp only [found]
  cases stored : ganglion.proposals preparation.typeName with
  | none => simp
  | some proposal => simp

theorem storedBallot_of_set {ganglion next : GanglionPlexoMulticast}
    {name : String} {proposal : PlexoProposal}
    (stored : next.proposals = ganglion.proposals.set name proposal)
    (other : String) :
    next.storedBallot other =
      if other = name then (proposal.ballot : WithBot Ballot)
      else ganglion.storedBallot other := by
  unfold storedBallot
  rw [stored, PMap.set_apply]
  split <;> simp

private theorem forall_le_iff_of_set {ganglion next : GanglionPlexoMulticast}
    {name : String} {proposal : PlexoProposal}
    (stored : next.proposals = ganglion.proposals.set name proposal) :
    (∀ other, ganglion.storedBallot other ≤ next.storedBallot other) ↔
      ganglion.storedBallot name ≤ (proposal.ballot : WithBot Ballot) := by
  constructor
  · intro rises
    have here := rises name
    rw [storedBallot_of_set stored, if_pos rfl] at here
    exact here
  · intro rises other
    rw [storedBallot_of_set stored]
    split
    · next same => rw [same]; exact rises
    · exact le_refl _

/-- One step leaves every stored ballot where it is or raises it, exactly when
the instance keeps its promise in it. -/
theorem storedBallot_le_iff {host : Host} {ganglion : GanglionPlexoMulticast}
    {input : Input} {result : GanglionPlexoMulticast × List Output}
    (taken : ganglion.step host input = some result) :
    (∀ name, ganglion.storedBallot name ≤ result.1.storedBallot name) ↔
      ganglion.keepsPromise input = true := by
  have move := acceptorMove_of_step taken
  cases input with
  | receive message =>
      refine ⟨fun _ => rfl, fun _ => ?_⟩
      cases move with
      | idle unchanged _ =>
          intro name
          simp [storedBallot, unchanged]
      | promise _ newer stored _ =>
          refine (forall_le_iff_of_set stored).mpr ?_
          exact le_of_lt ((mayPromise_iff _ _).mp newer)
      | accept found same stored _ =>
          refine (forall_le_iff_of_set stored).mpr ?_
          simp [storedBallot, found, same]
  | own action =>
      cases move with
      | idle unchanged quiet =>
          have stays : ∀ name,
              ganglion.storedBallot name ≤ result.1.storedBallot name := by
            intro name
            simp [storedBallot, unchanged]
          refine ⟨fun _ => ?_, fun _ => stays⟩
          cases ownStep_of_act taken with
          | sendProposal found => simp [sendProposal, Output.isQuiet] at quiet
          | _ => rfl
      | propose found stored _ =>
          rw [keepsPromise_proposing found]
          exact forall_le_iff_of_set stored

end GanglionPlexoMulticast

def Output.commitment : Output → Option (String × Ballot)
  | .transmit _ (.promise promise) => some (promise.typeName, promise.ballot)
  | .transmit _ (.approval approval) =>
      some (approval.typeName, approval.ballot)
  | .accept proposal => some (proposal.typeName, proposal.ballot)
  | _ => none

def Output.promised : Output → Option (String × Ballot)
  | .transmit _ (.promise promise) => some (promise.typeName, promise.ballot)
  | _ => none

/-- No promise, approval or stored proposal goes below an earlier promise. -/
def BoundByPromises (output : Output) (older : List Output) : Prop :=
  ∀ name ballot promised, output.commitment = some (name, ballot) →
    (∃ earlier ∈ older, earlier.promised = some (name, promised)) →
    promised ≤ ballot

def BallotsDoNotDecrease (host : Host) (observed : Observed) (input : Input) :
    Prop :=
  ∀ next, observed.step host input = some next → ∀ name,
    observed.ganglion.storedBallot name ≤ next.ganglion.storedBallot name

/-- The guarantee for a whole run: no step decreases a stored ballot, and what
was promised binds all that follows. -/
def PromiseGuarantee (host : Host) (steps : List (Observed × Input))
    (finish : Observed) : Prop :=
  Along (BallotsDoNotDecrease host) steps ∧
    Everywhere BoundByPromises finish.history

theorem commitment_of_quiet {output : Output} (quiet : output.isQuiet = true) :
    output.commitment = none ∧ output.promised = none := by
  unfold Output.isQuiet at quiet
  unfold Output.commitment Output.promised
  split at quiet <;> simp_all

namespace Observed

/-- What was promised stays below what is stored. -/
def PromisesStored (observed : Observed) : Prop :=
  ∀ output ∈ observed.history, ∀ name ballot,
    output.promised = some (name, ballot) →
    (ballot : WithBot Ballot) ≤ observed.ganglion.storedBallot name

/-- The invariant of runs that keep their promises. -/
def Guaranteed (observed : Observed) : Prop :=
  observed.PromisesStored ∧ Everywhere BoundByPromises observed.history

theorem everywhere_append_quiet {outputs older : List Output}
    (quiet : ∀ output ∈ outputs, output.isQuiet = true)
    (everywhere : Everywhere BoundByPromises older) :
    Everywhere BoundByPromises (outputs ++ older) := by
  apply everywhere_append ?_ everywhere
  intro output member rest name ballot promised committed
  rw [(commitment_of_quiet (quiet output member)).1] at committed
  cases committed

/-- An output whose ballot is at least the stored one is bound by all promises
made so far. -/
theorem boundByPromises_of_storedBallot_le {observed : Observed}
    (stored : observed.PromisesStored) {output : Output} {name : String}
    {ballot : Ballot}
    (committed : output.commitment = some (name, ballot))
    (above : observed.ganglion.storedBallot name ≤ (ballot : WithBot Ballot)) :
    BoundByPromises output observed.history := by
  intro other otherBallot promised otherCommitted earlier
  obtain ⟨promise, member, isPromise⟩ := earlier
  rw [committed] at otherCommitted
  cases otherCommitted
  have below := stored promise member _ _ isPromise
  exact WithBot.coe_le_coe.mp (le_trans below above)

/-- The step lemma: a step that keeps the promise preserves the invariant. -/
theorem Guaranteed.step {host : Host} {observed next : Observed} {input : Input}
    (guaranteed : observed.Guaranteed)
    (taken : observed.step host input = some next)
    (keeps : observed.ganglion.keepsPromise input = true) :
    next.Guaranteed := by
  obtain ⟨stored, everywhere⟩ := guaranteed
  obtain ⟨result, resultTaken, rfl⟩ := step_eq_some taken
  have rises := (GanglionPlexoMulticast.storedBallot_le_iff resultTaken).mpr keeps
  have old : ∀ output ∈ observed.history, ∀ name ballot,
      output.promised = some (name, ballot) →
      (ballot : WithBot Ballot) ≤ result.1.storedBallot name := by
    intro output member name ballot promised
    exact le_trans (stored output member name ballot promised) (rises name)
  cases GanglionPlexoMulticast.acceptorMove_of_step resultTaken with
  | idle unchanged quiet =>
      refine ⟨?_, everywhere_append_quiet (by simpa using quiet) everywhere⟩
      intro output member name ballot promised
      rcases List.mem_append.mp member with new | before
      · rw [(commitment_of_quiet (quiet output (by simpa using new))).2] at promised
        cases promised
      · exact old output before name ballot promised
  | @promise preparation foreign newer stores outputs =>
      simp only [outputs, List.reverse_singleton, List.singleton_append]
      constructor
      · intro output member name ballot promised
        rcases List.mem_cons.mp member with new | before
        · subst new
          cases promised
          rw [GanglionPlexoMulticast.storedBallot_of_set stores]
          simp [promiseFor, PlexoPromise.ballot, PlexoProposal.ballot,
            promisedProposal]
        · exact old output before name ballot promised
      · refine ⟨boundByPromises_of_storedBallot_le stored rfl ?_, everywhere⟩
        exact le_of_lt ((mayPromise_iff _ _).mp newer)
  | @accept proposal current found same stores outputs =>
      have above : observed.ganglion.storedBallot proposal.typeName ≤
          (proposal.ballot : WithBot Ballot) := by
        simp [GanglionPlexoMulticast.storedBallot, found, same]
      have accepted : BoundByPromises (.accept proposal) observed.history :=
        boundByPromises_of_storedBallot_le stored rfl above
      simp only [outputs, List.reverse_cons, List.reverse_nil, List.nil_append,
        List.cons_append]
      constructor
      · intro output member name ballot promised
        rcases List.mem_cons.mp member with approval | rest
        · subst approval
          cases promised
        · rcases List.mem_cons.mp rest with acceptance | before
          · subst acceptance
            cases promised
          · exact old output before name ballot promised
      · refine ⟨?_, accepted, everywhere⟩
        rintro name ballot promised committed ⟨earlier, member, isPromise⟩
        rcases List.mem_cons.mp member with acceptance | before
        · subst acceptance
          cases isPromise
        · exact accepted name ballot promised committed
            ⟨earlier, before, isPromise⟩
  | @propose call preparation promises multicastAddress found stores outputs =>
      have above :=
        (GanglionPlexoMulticast.keepsPromise_proposing found).mp keeps
      simp only [outputs, List.reverse_cons, List.reverse_nil, List.nil_append,
        List.cons_append]
      constructor
      · intro output member name ballot promised
        rcases List.mem_cons.mp member with proposal | rest
        · subst proposal
          cases promised
        · rcases List.mem_cons.mp rest with acceptance | before
          · subst acceptance
            cases promised
          · exact old output before name ballot promised
      · refine ⟨?_, boundByPromises_of_storedBallot_le stored rfl above,
          everywhere⟩
        intro name ballot promised committed
        cases committed

end Observed

/-- A guaranteed run keeps every promise. -/
theorem keepsPromise_of_promiseGuarantee {host : Host}
    {start finish : Observed} {steps : List (Observed × Input)}
    (path : Path (Observed.step host) start steps finish)
    (rises : Along (BallotsDoNotDecrease host) steps) :
    Along (fun observed input => observed.ganglion.keepsPromise input = true)
      steps := by
  intro entry member
  obtain ⟨earlier, next, _, taken, _⟩ := path.reached member
  have here := rises entry member next taken
  obtain ⟨result, resultTaken, rfl⟩ := Observed.step_eq_some taken
  exact (GanglionPlexoMulticast.storedBallot_le_iff resultTaken).mp here

/-- In every run of an instance, with any messages received in any order, the
promise guarantee holds exactly if the instance never stores a proposal of its
own over a newer ballot. -/
theorem promiseGuarantee_iff {host : Host} {ganglion : GanglionPlexoMulticast}
    {steps : List (Observed × Input)} {finish : Observed}
    (path : Path (Observed.step host) ⟨ganglion, []⟩ steps finish) :
    PromiseGuarantee host steps finish ↔
      Along (fun observed input =>
        observed.ganglion.keepsPromise input = true) steps := by
  constructor
  · rintro ⟨rises, _⟩
    exact keepsPromise_of_promiseGuarantee path rises
  · intro keeps
    constructor
    · intro entry member next taken
      obtain ⟨result, resultTaken, rfl⟩ := Observed.step_eq_some taken
      exact (GanglionPlexoMulticast.storedBallot_le_iff resultTaken).mpr
        (keeps entry member)
    · have invariant : finish.Guaranteed := by
        apply path.invariant keeps
        · exact ⟨by simp [Observed.PromisesStored], trivial⟩
        · intro observed input next guaranteed keepsHere taken
          exact guaranteed.step taken keepsHere
      exact invariant.2

/-- A proposer alone with its peers: its call is not overtaken. -/
def lonePromiseRun : List Input :=
  [.own (.prepare 0 "dev.plexo.Foo.json" 1), .own (.startPreparationTimer 0),
    .receive (.promise ⟨10, 1, "dev.plexo.Foo.json", 0, 0, none⟩),
    .own (.checkPromises 0 (.v4 239 0 0 32)), .own (.sendProposal 0),
    .receive (.preparation ⟨11, 2, "dev.plexo.Foo.json"⟩)]

theorem promiseGuarantee_lonePromiseRun :
    ∃ finish,
      exec (Observed.step .permissive) ⟨.sample 10 2, []⟩ lonePromiseRun =
        some finish ∧
      PromiseGuarantee .permissive
        (visited (Observed.step .permissive) ⟨.sample 10 2, []⟩ []
          lonePromiseRun) finish := by
  obtain ⟨finish, result⟩ : ∃ finish,
      exec (Observed.step .permissive) ⟨.sample 10 2, []⟩ lonePromiseRun =
        some finish := Option.isSome_iff_exists.mp (by decide +kernel)
  exact ⟨finish, result,
    (promiseGuarantee_iff (path_of_exec result)).mpr (by decide +kernel)⟩

/-- A preparation with a newer ballot is promised while the instance's own call
waits; then the call stores its older ballot over it. -/
def overtakenRun : List Input :=
  [.own (.prepare 0 "dev.plexo.Foo.json" 1), .own (.startPreparationTimer 0),
    .receive (.promise ⟨10, 1, "dev.plexo.Foo.json", 0, 0, none⟩),
    .receive (.preparation ⟨11, 2, "dev.plexo.Foo.json"⟩),
    .own (.checkPromises 0 (.v4 239 0 0 32)), .own (.sendProposal 0)]

theorem not_promiseGuarantee_overtakenRun :
    ¬ ∀ (host : Host) (ganglion : GanglionPlexoMulticast)
      (steps : List (Observed × Input)) (finish : Observed),
      Path (Observed.step host) ⟨ganglion, []⟩ steps finish →
      PromiseGuarantee host steps finish := by
  intro guarantee
  obtain ⟨finish, result⟩ : ∃ finish,
      exec (Observed.step .permissive) ⟨.sample 10 2, []⟩ overtakenRun =
        some finish := Option.isSome_iff_exists.mp (by decide +kernel)
  have path := path_of_exec result
  have keeps := keepsPromise_of_promiseGuarantee path
    (guarantee _ _ _ _ path).1
  exact absurd keeps (by decide +kernel)

end Plexo
