import Plexo.Plexus.Adaptation

/-!
# How often a plexus adapts a ganglion to a neuron

The pairs of a neuron and a ganglion are recorded before the `adapt`s of the
ganglia are awaited.  So every pair is passed to its ganglion once in whatever
order calls overlap; but a pair whose `adapt` has raised an exception stays
recorded, and is never passed to its ganglion again.
-/

namespace Plexo

open CallTable Transition

namespace Running

open Plexus

/-- How often the plexus has passed a pair to the `adapt` of its ganglion. -/
def passes (running : Running) (neuron : Neuron) (id : GanglionId) : Nat :=
  running.adapts.countP fun adapting =>
    adapting.pair.1.name = neuron.name && adapting.pair.2 = id

theorem countP_le_one_of_pairwise {α : Type} {list : List α} {test : α → Bool}
    (apart : list.Pairwise fun left right =>
      ¬ (test left = true ∧ test right = true)) : list.countP test ≤ 1 := by
  induction list with
  | nil => exact Nat.zero_le 1
  | cons head tail induction =>
      obtain ⟨here, later⟩ := List.pairwise_cons.mp apart
      rw [List.countP_cons]
      split
      · next passed =>
          have none : tail.countP test = 0 := by
            apply List.countP_eq_zero.mpr
            exact fun element member other => here element member ⟨passed, other⟩
          omega
      · exact induction later

theorem Tracked.passes_le_one {running : Running} (tracked : running.Tracked)
    (neuron : Neuron) (id : GanglionId) : running.passes neuron id ≤ 1 := by
  apply countP_le_one_of_pairwise
  apply (List.pairwise_map.mp tracked.apart).imp
  intro left right apart both
  simp only [Bool.and_eq_true, decide_eq_true_eq] at both
  obtain ⟨⟨leftName, leftId⟩, rightName, rightId⟩ := both
  exact apart ⟨leftName.trans rightName.symm, leftId.trans rightId.symm⟩

theorem Tracked.passes_eq_one {running : Running} (tracked : running.Tracked)
    {first neuron : Neuron} {id : GanglionId}
    (recorded : (first, id) ∈ running.plexus.neuronGanglia)
    (named : first.name = neuron.name) : running.passes neuron id = 1 := by
  have once := tracked.passes_le_one neuron id
  obtain ⟨adapting, member, same⟩ :=
    List.mem_map.mp ((tracked.recorded _).mp recorded)
  have some : 0 < running.passes neuron id := by
    apply List.countP_pos_iff.mpr
    exact ⟨adapting, member, by simp [same, named]⟩
  omega

/-- The reactions of the plexus on the dendrite of a ganglion for a neuron. -/
def reactionsOn (running : Running) (neuron : Neuron) (id : GanglionId) : Nat :=
  ((running.plexus.ganglion id).reactantsOf neuron.name).countP (!·.isUser)

def rawReactionsOn (running : Running) (neuron : Neuron) (id : GanglionId) :
    Nat :=
  ((running.plexus.ganglion id).rawReactantsOf neuron.name).length

/-- The calls may overlap in any way: once all have returned, every ganglion has
been adapted once to every neuron that the plexus has accepted. -/
theorem accepted_passed_once
    {outside : Nat → GanglionClass × Filters} {given : List Nat}
    {relevantNeurons ignoredNeurons : List Neuron}
    {steps : List (Running × Action)} {running : Running}
    (path : Path step
      (start (.init outside given relevantNeurons ignoredNeurons)) steps
        running)
    (smooth : Smooth steps) (returned : running.Returned) :
    (∀ operation ∈ running.operations, ∀ neuron,
      running.plexus.Accepts operation neuron →
        ∃ first, running.plexus.registered neuron = some first ∧
          ∀ id ∈ running.plexus.ganglia,
            running.passes neuron id = 1 ∧
            (∃ adapting ∈ running.adapts, adapting.pair = (first, id) ∧
              adapting.status = .adapted) ∧
            ((running.plexus.ganglion id).capable first = true →
              running.reactionsOn neuron id = 1 ∧
                running.rawReactionsOn neuron id ≤ 1)) ∧
    (∀ neuron id, running.passes neuron id ≤ 1) ∧
    ∀ neuron id, (neuron, id) ∈ running.plexus.neuronGanglia ↔
      neuron ∈ running.plexus.neurons ∧ id ∈ running.plexus.ganglia := by
  obtain ⟨tracked, flawless⟩ := flawless_of_path path smooth
    (placed_init outside given relevantNeurons ignoredNeurons) rfl
    (wired_init outside given relevantNeurons ignoredNeurons)
  have settled := settled_of_returned tracked flawless returned
  have recorded : ∀ neuron id, (neuron, id) ∈ running.plexus.neuronGanglia ↔
      neuron ∈ running.plexus.neurons ∧ id ∈ running.plexus.ganglia := by
    intro neuron id
    rw [tracked.placed.recorded]
    exact mem_allNeuronGanglia
  refine ⟨?_, tracked.passes_le_one, recorded⟩
  intro operation called neuron accepts
  have built : running.plexus.Built running.operations :=
    ⟨_, _, _, _, _, running, path, smooth, returned, rfl, rfl⟩
  obtain ⟨first, registered⟩ := built.exists_registered called accepts
  obtain ⟨known, named⟩ := mem_of_registered registered
  refine ⟨first, registered, ?_⟩
  intro id inside
  have pair : (first, id) ∈ running.plexus.neuronGanglia :=
    (recorded first id).mpr ⟨known, inside⟩
  refine ⟨tracked.passes_eq_one pair named, ?_, ?_⟩
  · obtain ⟨adapting, member, same⟩ :=
      List.mem_map.mp ((tracked.recorded _).mp pair)
    exact ⟨adapting, member, same, flawless.all_adapted returned _ member⟩
  · intro capable
    have station := settled.station known inside
    rw [reactionsOn, rawReactionsOn, ← named]
    constructor
    · rcases station.reactions with ⟨one, _⟩ | ⟨_, incapable⟩
      · exact one
      · exact absurd capable incapable
    · rcases station.rawReactants with ⟨object, raws, _⟩ | ⟨none, _⟩
      · simp [raws]
      · simp [none]

/-- A plexus with one external ganglion, which is adapted to one neuron twice
before the first `adapt` of a ganglion ends. -/
def overlappingRun : List Action :=
  [.call (.adapt sampleNeuron []), .call (.adapt sampleNeuron []), .adapted 1,
    .adapted 0, .resume 0]

theorem accepted_passed_once_overlappingRun :
    ∃ steps running, Path step
        (start (.init (fun _ => (.external false, {})) [0] [] [])) steps
          running ∧
      running.passes sampleNeuron (.other 0) = 1 ∧
      running.reactionsOn sampleNeuron (.other 0) = 1 := by
  obtain ⟨running, path, tested⟩ := path_of_any
    (show (exec step (start (.init (fun _ => (.external false, {})) [0] [] []))
      overlappingRun).any (fun running => running.Returned ∧
        .adapt sampleNeuron [] ∈ running.operations ∧
        .other 0 ∈ running.plexus.ganglia ∧
        running.plexus.capable sampleNeuron = true ∧
        running.plexus.neurons.all
          (running.plexus.ganglion (.other 0)).capable = true) = true by
      decide +kernel)
  obtain ⟨returned, called, inside, capable, ganglionCapable⟩ :=
    of_decide_eq_true tested
  obtain ⟨first, registered, once⟩ := (accepted_passed_once path
    (by decide +kernel) returned).1 _ called sampleNeuron ⟨rfl, capable⟩
  have known := (mem_of_registered registered).1
  obtain ⟨passed, _, reactions⟩ := once _ inside
  exact ⟨_, running, path, passed,
    (reactions (List.all_eq_true.mp ganglionCapable first known)).1⟩

/-- A neuron that a call is given. -/
def Gives : Operation → Neuron → Prop
  | .updateTransmitter given, neuron => given = neuron
  | .adapt given _, neuron => given = neuron
  | _, _ => False

/-- A plexus that ignores the neuron it is adapted to. -/
theorem not_given_passed_once :
    ¬ ∀ (outside : Nat → GanglionClass × Filters) (given : List Nat)
      (relevantNeurons ignoredNeurons : List Neuron)
      (steps : List (Running × Action)) (running : Running),
      Path step (start (.init outside given relevantNeurons ignoredNeurons))
        steps running →
      Smooth steps → running.Returned →
      ∀ operation ∈ running.operations, ∀ neuron, Gives operation neuron →
        ∀ id ∈ running.plexus.ganglia, running.passes neuron id = 1 := by
  intro once
  obtain ⟨running, path, tested⟩ := path_of_any
    (show (exec step (start
      (.init (fun _ => (.external false, {})) [0] [] [sampleNeuron]))
      [.call (.adapt sampleNeuron [])]).any (fun running =>
        running.Returned ∧ .adapt sampleNeuron [] ∈ running.operations ∧
        .other 0 ∈ running.plexus.ganglia ∧
        running.passes sampleNeuron (.other 0) = 0) = true by
      decide +kernel)
  obtain ⟨returned, called, inside, never⟩ := of_decide_eq_true tested
  have passed := once _ _ _ _ _ running path (by decide +kernel) returned _
    called sampleNeuron rfl _ inside
  omega

/-- No call and no `adapt` is in flight. -/
def Quiet (running : Running) : Prop :=
  (∀ called ∈ running.calls, called.status ≠ .waiting) ∧
    ∀ adapting ∈ running.adapts, adapting.status ≠ .started

theorem failed_move {running next : Running} {fails : Bool}
    (moved : Move running fails next) {adapting : Adapting}
    (member : adapting ∈ running.adapts) {error : PlexoError}
    (failed : adapting.status = .failed error) : adapting ∈ next.adapts := by
  have replaces : ∀ {index call : Nat} {pair : Neuron × GanglionId}
      {after : Adapting},
      running.adapts[index]? = some ⟨pair, call, .started⟩ →
        adapting ∈ running.adapts.set index after := by
    intro index call pair after found
    obtain ⟨earlier, later, adapts, replaced⟩ := exists_around found
    rw [replaced]
    rw [adapts] at member
    rcases List.mem_append.mp member with before | rest
    · exact List.mem_append_left _ before
    · rcases List.mem_cons.mp rest with same | behind
      · simp [same] at failed
      · exact List.mem_append_right _ (List.mem_cons_of_mem _ behind)
  cases moved with
  | call operation =>
      rw [adapts_call]
      exact List.mem_append_left _ member
  | adapted found => exact replaces found
  | failed found => exact replaces found
  | resume _ _ => exact member
  | handle _ _ _ => exact member
  | raise _ _ _ => exact member

theorem failed_path {running later : Running} {steps : List (Running × Action)}
    (path : Path step running steps later) {adapting : Adapting}
    (member : adapting ∈ running.adapts) {error : PlexoError}
    (failed : adapting.status = .failed error) : adapting ∈ later.adapts := by
  apply path.always member
  intro before action next inside taken
  exact failed_move (move_of_step taken) inside failed

/-- Pairs of the same name and the same ganglion are passed to it by the same
`adapt`. -/
theorem Tracked.eq_of_same {running : Running} (tracked : running.Tracked)
    {left right : Adapting} (inLeft : left ∈ running.adapts)
    (inRight : right ∈ running.adapts)
    (same : ¬ Apart left.pair right.pair) : left = right := by
  by_contra different
  have apart := List.pairwise_map.mp tracked.apart
  have : Std.Symm fun left right : Adapting => Apart left.pair right.pair := by
    constructor
    intro left right apart both
    exact apart ⟨both.1.symm, both.2.symm⟩
  exact same (apart.forall inLeft inRight different)

/-- What is still in flight. -/
def inFlight (running : Running) : Nat :=
  running.adapts.countP (·.status = .started) +
    running.calls.countP (·.status = .waiting)

theorem countP_set_lt {α : Type} {test : α → Bool} {list : List α}
    {index : Nat} {old new : α} (found : list[index]? = some old)
    (before : test old = true) (after : test new = false) :
    (list.set index new).countP test < list.countP test := by
  obtain ⟨earlier, later, split, replaced⟩ := exists_around found
  rw [replaced, split]
  simp [before, after]

theorem exists_move (running : Running)
    (busy : 0 < running.inFlight) :
    ∃ action next, running.step action = some next ∧
      next.inFlight < running.inFlight := by
  by_cases idle : running.adapts.countP (·.status = .started) = 0
  · -- Every `adapt` has ended, so one of the waiting calls can go on.
    have waits : 0 < running.calls.countP (·.status = .waiting) := by
      rw [inFlight] at busy
      omega
    obtain ⟨⟨operation, update, status⟩, member, waiting⟩ :=
      List.countP_pos_iff.mp waits
    simp only [decide_eq_true_eq] at waiting
    subst waiting
    obtain ⟨index, found⟩ := List.getElem?_of_mem member
    have ends : ∀ {after : CallStatus}, after ≠ .waiting →
        (running.calls.set index ⟨operation, update, after⟩).countP
          (·.status = .waiting) < running.calls.countP (·.status = .waiting) := by
      intro after ended
      exact countP_set_lt found (by simp) (by simpa using ended)
    cases resumes : running.canResume index with
    | true =>
        refine ⟨.resume index, running.returns index
          ⟨operation, update, .waiting⟩, by simp [step, found, resumes], ?_⟩
        exact Nat.add_lt_add_left (ends (by simp)) _
    | false =>
        obtain ⟨⟨pair, call, status⟩, inside, unfinished⟩ :=
          List.all_eq_false.mp resumes
        simp only [Bool.not_eq_true, Bool.or_eq_false_iff,
          decide_eq_false_iff_not, not_not] at unfinished
        obtain ⟨rfl, notAdapted⟩ := unfinished
        obtain ⟨position, there⟩ := List.getElem?_of_mem inside
        cases status with
        | adapted => exact absurd rfl notAdapted
        | started =>
            have none := List.countP_eq_zero.mp idle _ inside
            simp at none
        | failed error =>
            cases caught : error.isValueError with
            | true =>
                refine ⟨.raise call position, running.returns call
                  ⟨operation, update, .waiting⟩,
                  by simp [step, found, there, caught], ?_⟩
                exact Nat.add_lt_add_left (ends (by simp)) _
            | false =>
                refine ⟨.raise call position, running.setCall call
                  ⟨operation, update, .raised error⟩,
                  by simp [step, found, there, caught], ?_⟩
                exact Nat.add_lt_add_left (ends (by simp)) _
  · obtain ⟨⟨pair, call, status⟩, member, started⟩ :=
      List.countP_pos_iff.mp (Nat.pos_of_ne_zero idle)
    simp only [decide_eq_true_eq] at started
    subst started
    obtain ⟨index, found⟩ := List.getElem?_of_mem member
    refine ⟨.adapted index,
      { running.setAdapt index ⟨pair, call, .adapted⟩ with
        plexus := running.plexus.adaptGanglion pair },
      by simp only [step, found], ?_⟩
    exact Nat.add_lt_add_right (countP_set_lt found (by simp) (by simp)) _

theorem quiet_of_inFlight {running : Running} (idle : running.inFlight = 0) :
    running.Quiet := by
  obtain ⟨adapts, calls⟩ := Nat.add_eq_zero_iff.mp idle
  constructor
  · intro called member waiting
    exact List.countP_eq_zero.mp calls called member (by simpa using waiting)
  · intro adapting member started
    exact List.countP_eq_zero.mp adapts adapting member (by simpa using started)

theorem exists_quiet (running : Running) :
    ∃ steps later, Path step running steps later ∧ later.Quiet := by
  induction work : running.inFlight using Nat.strong_induction_on
    generalizing running with
  | _ work induction =>
      by_cases idle : running.inFlight = 0
      · exact ⟨[], running, .refl, quiet_of_inFlight idle⟩
      · obtain ⟨action, next, taken, fewer⟩ :=
          running.exists_move (Nat.pos_of_ne_zero idle)
        obtain ⟨steps, later, path, quiet⟩ :=
          induction next.inFlight (work ▸ fewer) next rfl
        exact ⟨_, later, .append (.snoc .refl taken) path, quiet⟩

theorem call_adapt_known {running : Running} (tracked : running.Tracked)
    {neuron known : Neuron} (member : known ∈ running.plexus.neurons)
    (named : known.name = neuron.name) :
    (running.plexus.enter (.adapt neuron [])).pairs = [] := by
  simp only [enter]
  split
  · rfl
  · have isIn : neuron.isIn running.plexus.neurons = true :=
      List.any_eq_true.mpr ⟨known, member, by simpa using named⟩
    simp only [if_true, updateNeurons, isIn, updateNeuronGanglia]
    apply List.filter_eq_nil_iff.mpr
    intro pair inside unknown
    have recorded : pair ∈ running.plexus.neuronGanglia := by
      rw [tracked.placed.recorded]
      exact inside
    simp only [knows, Bool.not_eq_true', List.any_eq_false] at unknown
    exact unknown pair recorded (by simp)

theorem raised_move {running next : Running} {fails : Bool}
    (moved : Move running fails next)
    (sound : ∀ called ∈ running.calls, ∀ error,
      called.status = .raised error → error.isValueError = false) :
    ∀ called ∈ next.calls, ∀ error,
      called.status = .raised error → error.isValueError = false := by
  have returned : ∀ {index : Nat} {operation : Operation}
      {update : Option Neuron},
      ∀ called ∈ (running.returns index
        ⟨operation, update, .waiting⟩).calls, ∀ error,
        called.status = .raised error → error.isValueError = false := by
    intro index operation update called member error raised
    rcases List.mem_or_eq_of_mem_set member with old | same
    · exact sound called old error raised
    · rw [same] at raised
      cases raised
  cases moved with
  | call operation =>
      intro called member error raised
      rcases running.call_cases operation with ⟨_, same⟩ | same
      · rw [same] at member
        rcases List.mem_append.mp member with old | new
        · exact sound called old error raised
        · rw [List.mem_singleton.mp new] at raised
          cases raised
      · rw [same] at member
        rcases List.mem_append.mp member with old | new
        · exact sound called old error raised
        · rw [List.mem_singleton.mp new] at raised
          cases raised
  | adapted _ => exact sound
  | failed _ => exact sound
  | resume _ _ => exact returned
  | handle _ _ _ => exact returned
  | raise _ _ uncaught =>
      intro called member error raised
      rcases List.mem_or_eq_of_mem_set member with old | same
      · exact sound called old error raised
      · rw [same] at raised
        obtain ⟨⟩ := raised
        exact uncaught

/-- Whenever an `adapt` of the neuron has returned while no other call is in
flight, the ganglia of all its recorded pairs have been adapted. -/
def Retries (running : Running) (neuron : Neuron) : Prop :=
  ∀ steps later, Path step running steps later → later.Quiet →
    (∃ reactants update index, running.calls.length ≤ index ∧
      later.calls[index]? = some ⟨.adapt neuron reactants, update, .returned⟩) →
    ∀ pair ∈ later.plexus.neuronGanglia, pair.1.name = neuron.name →
      ∃ adapting ∈ later.adapts, adapting.pair = pair ∧
        adapting.status = .adapted

theorem length_calls_le {running next : Running} {fails : Bool}
    (moved : Move running fails next) :
    running.calls.length ≤ next.calls.length := by
  cases moved with
  | call operation =>
      rcases running.call_cases operation with ⟨_, same⟩ | same
      · simp [same]
      · simp [same]
  | adapted _ => exact le_rfl
  | failed _ => exact le_rfl
  | resume _ _ => simp [returns, setCall]
  | handle _ _ _ => simp [returns, setCall]
  | raise _ _ _ => simp [setCall]

/-- After a failed `adapt`, a later one of the same neuron returns and leaves the
pair as it is. -/
theorem not_retries {running : Running} (tracked : running.Tracked)
    {adapting : Adapting} (member : adapting ∈ running.adapts)
    {error : PlexoError} (failed : adapting.status = .failed error)
    {neuron : Neuron} (named : neuron.name = adapting.pair.1.name) :
    ¬ running.Retries neuron := by
  intro retries
  obtain ⟨steps, later, path, quiet⟩ := running.exists_quiet
  have laterTracked := tracked.path path
  have still := failed_path path member failed
  have recorded : adapting.pair ∈ later.plexus.neuronGanglia :=
    (laterTracked.recorded _).mpr (List.mem_map_of_mem still)
  have inAll := recorded
  rw [laterTracked.placed.recorded] at inAll
  have known := (mem_allNeuronGanglia.mp inAll).1
  have nothing := call_adapt_known laterTracked known named.symm
  have grown : running.calls.length ≤ later.calls.length := by
    apply path.always
    · exact Nat.le_refl _
    · intro before action next bound taken
      exact bound.trans (length_calls_le (move_of_step taken))
  have shape : later.call (.adapt neuron []) =
      { later with
        plexus := (later.plexus.enter (.adapt neuron [])).plexus.leave
          (later.plexus.enter (.adapt neuron [])).update
        calls := later.calls ++ [⟨.adapt neuron [],
          (later.plexus.enter (.adapt neuron [])).update, .returned⟩] } := by
    unfold call
    simp only [nothing, List.isEmpty_nil, if_true]
  have taken : later.step (.call (.adapt neuron [])) =
      some (later.call (.adapt neuron [])) := rfl
  have lastTracked := laterTracked.call (.adapt neuron [])
  have there : adapting ∈ (later.call (.adapt neuron [])).adapts :=
    failed_move (.call _) still failed
  obtain ⟨other, inside, same, adapted⟩ := retries _ _ (path.snoc taken)
    (by
      rw [shape]
      refine ⟨?_, quiet.2⟩
      intro called inCalls
      rcases List.mem_append.mp inCalls with old | new
      · exact quiet.1 called old
      · simp [List.mem_singleton.mp new])
    (by
      rw [shape]
      exact ⟨[], _, later.calls.length, grown, List.getElem?_concat_length⟩)
    adapting.pair ((lastTracked.recorded _).mpr (List.mem_map_of_mem there))
    named.symm
  have equal := lastTracked.eq_of_same inside there fun apart =>
    apart ⟨congrArg (·.1.name) same, congrArg Prod.snd same⟩
  rw [equal, failed] at adapted
  cases adapted

/-- A failed `adapt` is recorded as done: the pair is never passed to its ganglion
again, while a later `adapt` of the neuron returns; and if a `ValueError` was
raised, it reaches no caller either. -/
theorem failed_never_retried
    {outside : Nat → GanglionClass × Filters} {given : List Nat}
    {relevantNeurons ignoredNeurons : List Neuron}
    {steps : List (Running × Action)} {running : Running}
    (path : Path step
      (start (.init outside given relevantNeurons ignoredNeurons)) steps
        running)
    {adapting : Adapting} (member : adapting ∈ running.adapts)
    {error : PlexoError} (failed : adapting.status = .failed error) :
    (∀ neuron, neuron.name = adapting.pair.1.name →
      ¬ running.Retries neuron) ∧
    (∀ steps later, Path step running steps later →
      ∀ other ∈ later.adapts, ¬ Apart other.pair adapting.pair →
        other = adapting) ∧
    (error.isValueError = true → ∀ called ∈ running.calls,
      called.status ≠ .raised error) := by
  have tracked := (tracked_start
    (placed_init outside given relevantNeurons ignoredNeurons) rfl).path path
  refine ⟨fun neuron named => not_retries tracked member failed named, ?_, ?_⟩
  · intro steps later further other inside same
    exact (tracked.path further).eq_of_same inside
      (failed_path further member failed) same
  · intro isValueError called inCalls raised
    have sound : ∀ called ∈ running.calls, ∀ error,
        called.status = .raised error → error.isValueError = false := by
      apply path.always
      · intro called member
        cases member
      · exact fun _ _ _ sound taken => raised_move (move_of_step taken) sound
    rw [sound called inCalls error raised] at isValueError
    cases isValueError

/-- The second ganglion of the plexus raises an exception. -/
def failingRun : List Action :=
  [.call (.adapt sampleNeuron []), .adapted 0,
    .failed 1 .zmqError false false, .raise 0 1]

theorem exists_failed_failingRun :
    ∃ steps running adapting, Path step
        (start (.init (fun _ => (.external false, {})) [0] [] [])) steps
          running ∧
      adapting ∈ running.adapts ∧ adapting.status = .failed .zmqError ∧
      sampleNeuron.name = adapting.pair.1.name := by
  obtain ⟨running, path, tested⟩ := path_of_any
    (show (exec step (start (.init (fun _ => (.external false, {})) [0] [] []))
      failingRun).any (fun running => running.adapts.any fun adapting =>
        adapting.status = .failed .zmqError ∧
          sampleNeuron.name = adapting.pair.1.name) = true by decide +kernel)
  obtain ⟨adapting, member, tests⟩ := List.any_eq_true.mp tested
  exact ⟨_, running, adapting, path, member, of_decide_eq_true tests⟩

theorem failed_never_retried_failingRun :
    ∃ steps running, Path step
        (start (.init (fun _ => (.external false, {})) [0] [] [])) steps
          running ∧
      ¬ running.Retries sampleNeuron := by
  obtain ⟨steps, running, adapting, path, member, failed, named⟩ :=
    exists_failed_failingRun
  exact ⟨steps, running, path,
    (failed_never_retried path member failed).1 _ named⟩

theorem not_retries_failingRun :
    ¬ ∀ (outside : Nat → GanglionClass × Filters) (given : List Nat)
      (relevantNeurons ignoredNeurons : List Neuron)
      (steps : List (Running × Action)) (running : Running),
      Path step (start (.init outside given relevantNeurons ignoredNeurons))
        steps running →
      ∀ neuron, running.Retries neuron := by
  intro retries
  obtain ⟨steps, running, adapting, path, member, failed, named⟩ :=
    exists_failed_failingRun
  have tracked := (tracked_start
    (placed_init (fun _ => (.external false, {})) [0] [] []) rfl).path path
  exact not_retries tracked member failed named
    (retries _ _ _ _ _ running path sampleNeuron)

end Running

end Plexo
