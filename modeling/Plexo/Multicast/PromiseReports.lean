import Plexo.Multicast.Acceptor

/-!
# What promises report

A promise carries the ballot and the address that its sender accepted last, so
that a proposer can adopt the newest accepted address.  The sender keeps one
entry per type and overwrites its ballot with each promise it makes.  The
address survives, the ballot it was accepted in does not: the second promise
after an acceptance reports the ballot of the first one.
-/

namespace Plexo

open PersistentMap Transition

def lastAccepted (history : List Output) (name : String) :
    Option PlexoProposal :=
  history.findSome? (·.acceptedFor name)

/-- Something was accepted for the type, and a promise was sent since. -/
def promisedSinceAccepting : List Output → String → Bool
  | [], _ => false
  | .accept proposal :: older, name =>
      if proposal.typeName = name then false
      else promisedSinceAccepting older name
  | .transmit _ (.promise promise) :: older, name =>
      if promise.typeName = name then (lastAccepted older name).isSome
      else promisedSinceAccepting older name
  | _ :: older, name => promisedSinceAccepting older name

/-- The promise reports what was accepted before it was sent. -/
def PromiseReports (promise : PlexoPromise) (older : List Output) : Prop :=
  match lastAccepted older promise.typeName with
  | none => promise.multicastIp = none
  | some accepted =>
      promise.acceptedBallot = accepted.ballot ∧
        promise.multicastIp = accepted.multicastIp

instance (promise : PlexoPromise) (older : List Output) :
    Decidable (PromiseReports promise older) :=
  match found : lastAccepted older promise.typeName with
  | none => decidable_of_iff (promise.multicastIp = none)
      (by simp [PromiseReports, found])
  | some accepted => decidable_of_iff
      (promise.acceptedBallot = accepted.ballot ∧
        promise.multicastIp = accepted.multicastIp)
      (by simp [PromiseReports, found])

@[simp] theorem lastAccepted_accept (proposal : PlexoProposal)
    (older : List Output) (name : String) :
    lastAccepted (.accept proposal :: older) name =
      if proposal.typeName = name then some proposal
      else lastAccepted older name := by
  unfold lastAccepted
  by_cases same : proposal.typeName = name
  · simp [Output.acceptedFor, same]
  · simp [Output.acceptedFor, same]

theorem lastAccepted_cons {output : Output} (older : List Output)
    (name : String) (notAccepted : ∀ proposal, output ≠ .accept proposal) :
    lastAccepted (output :: older) name = lastAccepted older name := by
  unfold lastAccepted
  rw [List.findSome?_cons]
  cases output with
  | accept proposal => exact absurd rfl (notAccepted proposal)
  | _ => rfl

theorem promisedSinceAccepting_of_none {history : List Output} {name : String}
    (nothing : lastAccepted history name = none) :
    promisedSinceAccepting history name = false := by
  fun_induction promisedSinceAccepting history name with
  | case1 => rfl
  | case2 => rfl
  | case3 name proposal older different induction =>
      apply induction
      simpa [different] using nothing
  | case4 neuron promise older =>
      rw [lastAccepted_cons _ _ (by simp)] at nothing
      simp [nothing]
  | case5 name neuron promise older different induction =>
      apply induction
      rwa [lastAccepted_cons _ _ (by simp)] at nothing
  | case6 name output older notAccept notPromise induction =>
      apply induction
      rwa [lastAccepted_cons _ _ notAccept] at nothing

theorem quiet_append {outputs : List Output}
    (quiet : ∀ output ∈ outputs, output.isQuiet = true) (older : List Output)
    (name : String) :
    lastAccepted (outputs ++ older) name = lastAccepted older name ∧
      promisedSinceAccepting (outputs ++ older) name =
        promisedSinceAccepting older name := by
  induction outputs with
  | nil => exact ⟨rfl, rfl⟩
  | cons output outputs induction =>
      have here := quiet output List.mem_cons_self
      have rest := induction fun other member =>
        quiet other (List.mem_cons_of_mem _ member)
      have notAccept : ∀ proposal, output ≠ .accept proposal := by
        rintro proposal rfl
        simp [Output.isQuiet] at here
      have notPromise : ∀ neuron promise,
          output ≠ .transmit neuron (.promise promise) := by
        rintro neuron promise rfl
        simp [Output.isQuiet] at here
      refine ⟨?_, ?_⟩
      · rw [List.cons_append, lastAccepted_cons _ _ notAccept, rest.1]
      · rw [List.cons_append,
          promisedSinceAccepting.eq_4 name output _ notAccept notPromise, rest.2]

/-- The stored entry against the history: nothing accepted means no address;
otherwise the address is the accepted one, and the ballot is the accepted one
until a promise overwrites it with a newer one. -/
def EntryReflects (stored accepted : Option PlexoProposal) (promised : Bool) :
    Prop :=
  match accepted with
  | none => ∀ entry, stored = some entry → entry.multicastIp = none
  | some proposal => ∃ entry, stored = some entry ∧
      entry.multicastIp = proposal.multicastIp ∧
      if promised = true then proposal.ballot < entry.ballot
      else entry.ballot = proposal.ballot

namespace Observed

/-- The entry of every type reflects the history. -/
def EntriesReflect (observed : Observed) : Prop :=
  ∀ name, EntryReflects (observed.ganglion.proposals name)
    (lastAccepted observed.history name)
    (promisedSinceAccepting observed.history name)

end Observed

/-- A promise made from an entry reports the truth exactly if the entry was not
overwritten since the acceptance. -/
theorem promiseFor_reports_iff {stored : Option PlexoProposal}
    {preparation : PlexoPreparation} {older : List Output}
    (reflects : EntryReflects stored (lastAccepted older preparation.typeName)
      (promisedSinceAccepting older preparation.typeName)) :
    PromiseReports (promiseFor stored preparation) older ↔
      promisedSinceAccepting older preparation.typeName = false := by
  have typeName : (promiseFor stored preparation).typeName =
      preparation.typeName := rfl
  unfold PromiseReports
  rw [typeName]
  cases accepted : lastAccepted older preparation.typeName with
  | none =>
      rw [promisedSinceAccepting_of_none accepted]
      rw [accepted] at reflects
      cases stored with
      | none => simp [promiseFor]
      | some entry => simpa [promiseFor] using reflects entry rfl
  | some proposal =>
      rw [accepted] at reflects
      obtain ⟨entry, rfl, sameAddress, ballots⟩ := reflects
      have reported : (promiseFor (some entry) preparation).acceptedBallot =
          entry.ballot := rfl
      have address : (promiseFor (some entry) preparation).multicastIp =
          entry.multicastIp := rfl
      simp only [reported, address, sameAddress, and_true]
      cases promised : promisedSinceAccepting older preparation.typeName with
      | false => simpa [promised] using ballots
      | true =>
          have newer : proposal.ballot < entry.ballot := by
            simpa [promised] using ballots
          simp [ne_of_gt newer]

theorem entryReflects_promise {stored : Option PlexoProposal}
    {preparation : PlexoPreparation} {accepted : Option PlexoProposal}
    {promised : Bool}
    (newer : mayPromise stored preparation.ballot = true)
    (reflects : EntryReflects stored accepted promised) :
    EntryReflects (some (promisedProposal stored preparation)) accepted
      accepted.isSome := by
  cases accepted with
  | none =>
      intro entry same
      cases same
      cases stored with
      | none => rfl
      | some entry => exact reflects entry rfl
  | some proposal =>
      obtain ⟨entry, rfl, sameAddress, ballots⟩ := reflects
      refine ⟨_, rfl, sameAddress, ?_⟩
      have later : entry.ballot < preparation.ballot := by
        simpa [mayPromise, proposalIsNewer] using newer
      simp only [Option.isSome_some, if_true, promisedProposal_ballot]
      cases promised with
      | false =>
          have same : entry.ballot = proposal.ballot := by simpa using ballots
          rw [← same]
          exact later
      | true => exact lt_trans (by simpa using ballots) later

/-- Each promise of a history reports the truth exactly if no other promise
came between it and the acceptance. -/
def PromiseReportsIff (output : Output) (older : List Output) : Prop :=
  ∀ neuron promise, output = .transmit neuron (.promise promise) →
    (PromiseReports promise older ↔
      promisedSinceAccepting older promise.typeName = false)

namespace Observed

def Reporting (observed : Observed) : Prop :=
  observed.EntriesReflect ∧ Everywhere PromiseReportsIff observed.history

theorem everywhere_reports_quiet {outputs older : List Output}
    (quiet : ∀ output ∈ outputs, output.isQuiet = true)
    (everywhere : Everywhere PromiseReportsIff older) :
    Everywhere PromiseReportsIff (outputs ++ older) := by
  apply everywhere_append ?_ everywhere
  intro output member rest neuron promise same
  subst same
  have here := quiet _ member
  simp [Output.isQuiet] at here

/-- The entries reflect an acceptance right after it. -/
theorem entriesReflect_accept {observed : Observed}
    {next : GanglionPlexoMulticast} {proposal : PlexoProposal}
    {neuron : ProtocolNeuron} {message : Message}
    (notPromise : ∀ promise, message ≠ .promise promise)
    (reflect : observed.EntriesReflect)
    (stores : next.proposals =
      observed.ganglion.proposals.set proposal.typeName proposal) :
    Observed.EntriesReflect
      ⟨next, .transmit neuron message :: .accept proposal ::
        observed.history⟩ := by
  intro name
  simp only
  rw [lastAccepted_cons _ _ (by simp),
    promisedSinceAccepting.eq_4 name _ _ (by simp)
      (by rintro _ promise same
          cases same
          exact notPromise promise rfl),
    promisedSinceAccepting, lastAccepted_accept, stores, PMap.set_apply]
  by_cases same : proposal.typeName = name
  · simp [same, EntryReflects]
  · have other : ¬ name = proposal.typeName := fun equality => same equality.symm
    simpa [same, other] using reflect name

theorem Reporting.step {host : Host} {observed next : Observed} {input : Input}
    (reporting : observed.Reporting)
    (taken : observed.step host input = some next) : next.Reporting := by
  obtain ⟨reflect, everywhere⟩ := reporting
  obtain ⟨result, resultTaken, rfl⟩ := step_eq_some taken
  cases GanglionPlexoMulticast.acceptorMove_of_step resultTaken with
  | idle unchanged quiet =>
      have reversed : ∀ output ∈ result.2.reverse, output.isQuiet = true := by
        simpa using quiet
      refine ⟨?_, everywhere_reports_quiet reversed everywhere⟩
      intro name
      obtain ⟨sameAccepted, samePromised⟩ :=
        quiet_append reversed observed.history name
      simp only [unchanged, sameAccepted, samePromised]
      exact reflect name
  | @promise preparation foreign newer stores outputs =>
      simp only [outputs, List.reverse_singleton, List.singleton_append]
      constructor
      · intro name
        simp only
        rw [lastAccepted_cons _ _ (by simp), promisedSinceAccepting, stores,
          PMap.set_apply]
        by_cases same : preparation.typeName = name
        · subst same
          simpa [promiseFor] using
            entryReflects_promise newer (reflect preparation.typeName)
        · have other : ¬ name = preparation.typeName :=
            fun equality => same equality.symm
          simpa [promiseFor, same, other] using reflect name
      · refine ⟨?_, everywhere⟩
        intro neuron promise same
        cases same
        exact promiseFor_reports_iff (reflect preparation.typeName)
  | @accept proposal current found same stores outputs =>
      simp only [outputs, List.reverse_cons, List.reverse_nil, List.nil_append,
        List.cons_append]
      exact ⟨entriesReflect_accept (by simp) reflect stores,
        by simp [PromiseReportsIff], by simp [PromiseReportsIff], everywhere⟩
  | @propose call preparation promises multicastAddress found stores outputs =>
      simp only [outputs, List.reverse_cons, List.reverse_nil, List.nil_append,
        List.cons_append]
      exact ⟨entriesReflect_accept (by simp) reflect stores,
        by simp [PromiseReportsIff], by simp [PromiseReportsIff], everywhere⟩

end Observed

/-- In every run of an instance, a promise reports what the instance accepted
last exactly if the instance sent no other promise for the type since. -/
theorem promise_reports_iff {host : Host} {ganglion : GanglionPlexoMulticast}
    {steps : List (Observed × Input)} {finish : Observed}
    {newer older : List Output} {neuron : ProtocolNeuron}
    {promise : PlexoPromise}
    (nothingStored : ganglion.proposals = PMap.empty)
    (path : Path (Observed.step host) ⟨ganglion, []⟩ steps finish)
    (sent : finish.history =
      newer ++ .transmit neuron (.promise promise) :: older) :
    PromiseReports promise older ↔
      promisedSinceAccepting older promise.typeName = false := by
  have reporting : finish.Reporting := by
    apply path.always
    · refine ⟨?_, trivial⟩
      intro name
      simp [nothingStored, lastAccepted, EntryReflects]
    · intro observed input next reporting taken
      exact reporting.step taken
  have everywhere := reporting.2
  rw [sent] at everywhere
  exact everywhere_at everywhere neuron promise rfl

/-- An acceptance in ballot 1, and promises for the ballots 2 and 3. -/
def twicePromisedRun : List Input :=
  [.receive (.preparation ⟨11, 1, "dev.plexo.Foo.json"⟩),
    .receive (.proposal ⟨11, 1, "dev.plexo.Foo.json", some [239, 0, 0, 40]⟩),
    .receive (.preparation ⟨11, 2, "dev.plexo.Foo.json"⟩),
    .receive (.preparation ⟨11, 3, "dev.plexo.Foo.json"⟩)]

def beforeSecondPromise : List Output :=
  [.transmit .approval
      (.approval ⟨11, 1, "dev.plexo.Foo.json", some [239, 0, 0, 40]⟩),
    .accept ⟨11, 1, "dev.plexo.Foo.json", some [239, 0, 0, 40]⟩,
    .transmit .proposal (.promise ⟨11, 1, "dev.plexo.Foo.json", 0, 0, none⟩)]

def secondPromise : PlexoPromise :=
  ⟨11, 2, "dev.plexo.Foo.json", 11, 1, some [239, 0, 0, 40]⟩

def thirdPromise : PlexoPromise :=
  ⟨11, 3, "dev.plexo.Foo.json", 11, 2, some [239, 0, 0, 40]⟩

theorem twicePromisedRun_path :
    ∃ steps ganglion,
      Path (Observed.step .permissive) ⟨.sample 10 2, []⟩ steps
        ⟨ganglion, .transmit .proposal (.promise thirdPromise) ::
          .transmit .proposal (.promise secondPromise) ::
          beforeSecondPromise⟩ := by
  obtain ⟨⟨ganglion, history⟩, result⟩ : ∃ finish,
      exec (Observed.step .permissive) ⟨.sample 10 2, []⟩ twicePromisedRun =
        some finish := Option.isSome_iff_exists.mp (by decide +kernel)
  have sent : (exec (Observed.step .permissive) ⟨.sample 10 2, []⟩
      twicePromisedRun).map (·.history) =
        some (.transmit .proposal (.promise thirdPromise) ::
          .transmit .proposal (.promise secondPromise) ::
          beforeSecondPromise) := by decide +kernel
  rw [result] at sent
  simp only [Option.map_some, Option.some.injEq] at sent
  subst sent
  exact ⟨_, ganglion, path_of_exec result⟩

theorem promise_reports_secondPromise :
    PromiseReports secondPromise beforeSecondPromise := by
  obtain ⟨steps, ganglion, path⟩ := twicePromisedRun_path
  have nothingStored :
      (GanglionPlexoMulticast.sample 10 2).proposals = PMap.empty := rfl
  exact (promise_reports_iff nothingStored path (show _ = [_] ++ _ from rfl)).mpr
    (by decide +kernel)

theorem not_promise_reports_thirdPromise :
    ¬ ∀ (host : Host) (ganglion : GanglionPlexoMulticast)
      (steps : List (Observed × Input)) (finish : Observed)
      (newer older : List Output) (neuron : ProtocolNeuron)
      (promise : PlexoPromise),
      ganglion.proposals = PMap.empty →
      Path (Observed.step host) ⟨ganglion, []⟩ steps finish →
      finish.history = newer ++ .transmit neuron (.promise promise) :: older →
      PromiseReports promise older := by
  intro reports
  obtain ⟨steps, ganglion, path⟩ := twicePromisedRun_path
  have third := reports _ _ _ _ [] _ _ _ rfl path rfl
  exact absurd third (by decide +kernel)

end Plexo
