import Plexo.Library.CallTable
import Plexo.Plexus.Wiring

/-!
# Calls of a plexus that overlap

`adapt`, `update_transmitter` and `infuse_ganglion` record the pairs that are
new, start an `adapt` of the ganglion for each of them as a task of its own, and
wait for these tasks.  Nothing else in them suspends: the locks are free whenever
they are acquired, since no critical section awaits anything.
-/

namespace Plexo

open CallTable Transition

/-- What users call, on a plexus and on the ganglia that they give it. -/
inductive Operation where
  | react (neuron : Neuron) (reactants : List ReactantId)
  | attach (index : Nat) (neuron : Neuron) (reactants : List ReactantId)
  | updateTransmitter (neuron : Neuron)
  | adapt (neuron : Neuron) (reactants : List ReactantId)
  | infuseGanglion (ganglion : GanglionId)
  deriving DecidableEq

/-- A call that has come to its `gather`, and the neuron for which it updates the
transmitter afterwards. -/
structure Begun where
  pairs : List (Neuron × GanglionId)
  plexus : Plexus
  update : Option Neuron

namespace Plexus

/-- A call up to its `gather`, which gathers nothing if there is none. -/
def enter (plexus : Plexus) : Operation → Begun
  | .react neuron reactants => ⟨[], plexus.react neuron reactants, none⟩
  | .attach index neuron reactants =>
      ⟨[], plexus.attach index neuron reactants, none⟩
  | .updateTransmitter neuron =>
      let (pairs, plexus) := plexus.updateNeurons neuron
      ⟨pairs, plexus, some neuron⟩
  | .adapt neuron reactants =>
      if plexus.capable neuron = false then
        ⟨[], plexus, none⟩
      else
        let plexus :=
          if reactants = [] then plexus else plexus.react neuron reactants
        let (pairs, plexus) := plexus.updateNeurons neuron
        ⟨pairs, plexus, some neuron⟩
  | .infuseGanglion ganglion =>
      let (pairs, plexus) := (plexus.addGanglion ganglion).updateNeuronGanglia
      ⟨pairs, plexus, none⟩

/-- A call after its `gather`. -/
def leave (plexus : Plexus) : Option Neuron → Plexus
  | none => plexus
  | some neuron => plexus.updateInproc neuron

end Plexus

inductive CallStatus where
  | waiting
  | returned
  | raised (error : PlexoError)
  deriving DecidableEq

structure Called where
  operation : Operation
  update : Option Neuron
  status : CallStatus

inductive AdaptStatus where
  | started
  | adapted
  | failed (error : PlexoError)
  deriving DecidableEq

/-- An `adapt` of the ganglion of a pair, and the index of the call that has
started it. -/
structure Adapting where
  pair : Neuron × GanglionId
  call : Nat
  status : AdaptStatus

/-- A plexus with all calls that were made on it and all `adapt`s that they have
started. -/
structure Running where
  plexus : Plexus
  calls : List Called
  adapts : List Adapting

namespace Running

inductive Action where
  | call (operation : Operation)
  /-- An `adapt` of a ganglion returns. -/
  | adapted (index : Nat)
  /-- An `adapt` of a ganglion raises an exception. -/
  | failed (index : Nat) (error : PlexoError) (attached attachedRaw : Bool)
  /-- A call goes on when all of its `adapt`s have returned. -/
  | resume (index : Nat)
  /-- A call goes on when one of its `adapt`s has raised an exception. -/
  | raise (index adapt : Nat)

def start (plexus : Plexus) : Running := ⟨plexus, [], []⟩

/-- All `adapt`s of a call have returned. -/
def canResume (running : Running) (index : Nat) : Bool :=
  running.adapts.all fun adapting =>
    adapting.call ≠ index || adapting.status = .adapted

def setCall (running : Running) (index : Nat) (called : Called) : Running :=
  { running with calls := running.calls.set index called }

def setAdapt (running : Running) (index : Nat) (adapting : Adapting) :
    Running :=
  { running with adapts := running.adapts.set index adapting }

/-- The end of a call that does not raise. -/
def returns (running : Running) (index : Nat) (called : Called) : Running :=
  { running.setCall index { called with status := .returned } with
    plexus := running.plexus.leave called.update }

def call (running : Running) (operation : Operation) : Running :=
  let begun := running.plexus.enter operation
  if begun.pairs.isEmpty then
    { running with
      plexus := begun.plexus.leave begun.update
      calls := running.calls ++ [⟨operation, begun.update, .returned⟩] }
  else
    { plexus := begun.plexus
      calls := running.calls ++ [⟨operation, begun.update, .waiting⟩]
      adapts := running.adapts ++
        begun.pairs.map (⟨·, running.calls.length, .started⟩) }

def step (running : Running) : Action → Option Running
  | .call operation => some (running.call operation)
  | .adapted index =>
      match running.adapts[index]? with
      | some ⟨pair, call, .started⟩ =>
          some { running.setAdapt index ⟨pair, call, .adapted⟩ with
            plexus := running.plexus.adaptGanglion pair }
      | _ => none
  | .failed index error attached attachedRaw =>
      match running.adapts[index]? with
      | some ⟨pair, call, .started⟩ =>
          some { running.setAdapt index ⟨pair, call, .failed error⟩ with
            plexus := running.plexus.failGanglion pair attached attachedRaw }
      | _ => none
  | .resume index =>
      match running.calls[index]? with
      | some ⟨operation, update, .waiting⟩ =>
          if running.canResume index then
            some (running.returns index ⟨operation, update, .waiting⟩)
          else
            none
      | _ => none
  | .raise index adapt =>
      match running.calls[index]?, running.adapts[adapt]? with
      | some ⟨operation, update, .waiting⟩, some ⟨_, call, .failed error⟩ =>
          if call = index then
            some <|
              -- `except ValueError` around the `gather`.
              if error.isValueError then
                running.returns index ⟨operation, update, .waiting⟩
              else
                running.setCall index ⟨operation, update, .raised error⟩
          else
            none
      | _, _ => none

/-- A step of an `adapt` of a ganglion that raises. -/
def Action.fails : Action → Bool
  | .failed _ _ _ _ => true
  | _ => false

/-- A step, and whether an `adapt` of a ganglion raises in it. -/
inductive Move (running : Running) : Bool → Running → Prop where
  | call (operation : Operation) : Move running false (running.call operation)
  | adapted {index call : Nat} {pair : Neuron × GanglionId} :
      running.adapts[index]? = some ⟨pair, call, .started⟩ →
      Move running false
        { running.setAdapt index ⟨pair, call, .adapted⟩ with
          plexus := running.plexus.adaptGanglion pair }
  | failed {index call : Nat} {pair : Neuron × GanglionId}
      {error : PlexoError} {attached attachedRaw : Bool} :
      running.adapts[index]? = some ⟨pair, call, .started⟩ →
      Move running true
        { running.setAdapt index ⟨pair, call, .failed error⟩ with
          plexus := running.plexus.failGanglion pair attached attachedRaw }
  | resume {index : Nat} {operation : Operation} {update : Option Neuron} :
      running.calls[index]? = some ⟨operation, update, .waiting⟩ →
      running.canResume index = true →
      Move running false
        (running.returns index ⟨operation, update, .waiting⟩)
  | handle {index adapt : Nat} {operation : Operation}
      {update : Option Neuron} {pair : Neuron × GanglionId}
      {error : PlexoError} :
      running.calls[index]? = some ⟨operation, update, .waiting⟩ →
      running.adapts[adapt]? = some ⟨pair, index, .failed error⟩ →
      error.isValueError = true →
      Move running false
        (running.returns index ⟨operation, update, .waiting⟩)
  | raise {index adapt : Nat} {operation : Operation}
      {update : Option Neuron} {pair : Neuron × GanglionId}
      {error : PlexoError} :
      running.calls[index]? = some ⟨operation, update, .waiting⟩ →
      running.adapts[adapt]? = some ⟨pair, index, .failed error⟩ →
      error.isValueError = false →
      Move running false
        (running.setCall index ⟨operation, update, .raised error⟩)

theorem move_of_step {running next : Running} {action : Action}
    (taken : running.step action = some next) :
    Move running action.fails next := by
  cases action with
  | call operation =>
      obtain ⟨⟩ := taken
      exact .call operation
  | adapted index =>
      simp only [step] at taken
      split at taken
      · next found => exact Option.some.inj taken ▸ .adapted found
      · cases taken
  | failed index error attached attachedRaw =>
      simp only [step] at taken
      split at taken
      · next found => exact Option.some.inj taken ▸ .failed found
      · cases taken
  | resume index =>
      simp only [step] at taken
      split at taken
      · next found =>
          split at taken
          · next resumes => exact Option.some.inj taken ▸ .resume found resumes
          · cases taken
      · cases taken
  | raise index adapt =>
      simp only [step] at taken
      split at taken
      · next found failed =>
          split at taken
          · next same =>
              subst same
              split at taken
              · next caught =>
                  exact Option.some.inj taken ▸ .handle found failed caught
              · next uncaught =>
                  rw [Bool.not_eq_true] at uncaught
                  exact Option.some.inj taken ▸ .raise found failed uncaught
          · cases taken
      · cases taken

/-- The pairs whose ganglion has been adapted. -/
def done (running : Running) : List (Neuron × GanglionId) :=
  (running.adapts.filter fun adapting => adapting.status = .adapted).map
    (·.pair)

end Running

namespace Plexus

/-- What a call has done when it comes to its `gather`. -/
structure Entered (before : Plexus) (begun : Begun) : Prop where
  placed : begun.plexus.Placed
  extended : Extends before begun.plexus
  kinds : SameKinds before begun.plexus
  filters : begun.plexus.filters = before.filters
  apart : begun.pairs.Pairwise Apart
  fresh : ∀ old ∈ before.neuronGanglia, ∀ pair ∈ begun.pairs, Apart old pair
  recorded : ∀ pair, pair ∈ begun.plexus.neuronGanglia ↔
    pair ∈ before.neuronGanglia ∨ pair ∈ begun.pairs
  wired : ∀ pairs, before.Wired pairs → begun.plexus.Wired pairs

theorem entered_updateNeuronGanglia {before middle : Plexus}
    (placed : before.Placed) (after : middle.updateNeuronGanglia.2.Placed)
    (extended : Extends before middle)
    (same : middle.neuronGanglia = before.neuronGanglia)
    (kinds : SameKinds before middle) (filters : middle.filters = before.filters)
    (wired : ∀ pairs, before.Wired pairs → middle.Wired pairs)
    (update : Option Neuron) :
    Entered before ⟨middle.updateNeuronGanglia.1,
      middle.updateNeuronGanglia.2, update⟩ := by
  have inAll : ∀ pair, pair ∈ middle.updateNeuronGanglia.1 ↔
      pair ∈ middle.allNeuronGanglia ∧ middle.knows pair = false := by
    intro pair
    simp [Plexus.updateNeuronGanglia, List.mem_filter]
  refine ⟨after, ⟨extended.neurons, extended.ganglia⟩, ⟨kinds.cls,
    kinds.filters⟩, filters, ?_, ?_, ?_, ?_⟩
  · exact (pairwise_apart after.nodup after.distinct).filter _
  · intro old member pair isNew both
    have unknown := ((inAll pair).mp isNew).2
    simp only [knows, List.any_eq_false, Bool.and_eq_true,
      decide_eq_true_eq] at unknown
    rw [same] at unknown
    exact unknown old member both
  · intro pair
    have before_all : pair ∈ before.neuronGanglia →
        pair ∈ middle.allNeuronGanglia := by
      intro old
      rw [placed.recorded] at old
      exact extended.allNeuronGanglia old
    constructor
    · intro member
      cases known : middle.knows pair with
      | false => exact .inr ((inAll pair).mpr ⟨member, known⟩)
      | true =>
          obtain ⟨old, isOld, both⟩ := List.any_eq_true.mp known
          simp only [Bool.and_eq_true, decide_eq_true_eq] at both
          rw [same] at isOld
          have oldAll := isOld
          rw [placed.recorded] at oldAll
          have neurons := after.neuron_unique
            (mem_allNeuronGanglia.mp (extended.allNeuronGanglia oldAll)).1
            (mem_allNeuronGanglia.mp member).1 both.1
          have equal : old = pair := Prod.ext neurons both.2
          exact .inl (equal ▸ isOld)
    · intro either
      rcases either with old | new
      · exact before_all old
      · exact ((inAll pair).mp new).1
  · exact fun pairs before => (wired pairs before).of_ganglion rfl

theorem entered_nothing {before after : Plexus} (placed : after.Placed)
    (extended : Extends before after)
    (same : after.neuronGanglia = before.neuronGanglia)
    (kinds : SameKinds before after) (filters : after.filters = before.filters)
    (wired : ∀ pairs, before.Wired pairs → after.Wired pairs) :
    Entered before ⟨[], after, none⟩ := by
  refine ⟨placed, extended, kinds, filters, .nil, ?_, ?_, wired⟩
  · intro old _ pair member
    cases member
  · intro pair
    rw [same]
    simp

theorem Placed.react {plexus : Plexus} (placed : plexus.Placed)
    (neuron : Neuron) (reactants : List ReactantId) :
    (plexus.react neuron reactants).Placed :=
  placed.congr (react_sameKinds ..)

theorem enter_entered {plexus : Plexus} (placed : plexus.Placed)
    (operation : Operation) : Entered plexus (plexus.enter operation) := by
  have updates : ∀ {middle : Plexus} (neuron : Neuron), middle.Placed →
      Extends plexus middle → middle.neuronGanglia = plexus.neuronGanglia →
      SameKinds plexus middle → middle.filters = plexus.filters →
      (∀ pairs, plexus.Wired pairs → middle.Wired pairs) →
      Entered plexus ⟨(middle.updateNeurons neuron).1,
        (middle.updateNeurons neuron).2, some neuron⟩ := by
    intro middle neuron middlePlaced extended same kinds filters wired
    apply entered_updateNeuronGanglia placed (middlePlaced.updateNeurons neuron)
    · have added := extends_updateNeurons middle neuron
      exact extended.trans ⟨added.neurons, added.ganglia⟩
    · exact same
    · exact ⟨kinds.cls, kinds.filters⟩
    · exact filters
    · exact fun pairs before => (wired pairs before).of_ganglion rfl
  cases operation with
  | react neuron reactants =>
      exact entered_nothing (placed.react neuron reactants) (.of_eq rfl rfl) rfl
        (react_sameKinds ..) rfl fun _ wired => wired.react neuron reactants
  | attach index neuron reactants =>
      exact entered_nothing (placed.congr (react_sameKinds ..))
        (.of_eq rfl rfl) rfl (react_sameKinds ..) rfl
        fun _ wired => wired.attach index neuron reactants
  | updateTransmitter neuron =>
      exact updates neuron placed (.of_eq rfl rfl) rfl (.refl plexus) rfl
        fun _ wired => wired
  | adapt neuron reactants =>
      simp only [enter]
      split
      · exact entered_nothing placed (.of_eq rfl rfl) rfl (.refl plexus) rfl
          fun _ wired => wired
      · split
        · exact updates neuron placed (.of_eq rfl rfl) rfl (.refl plexus) rfl
            fun _ wired => wired
        · exact updates neuron (placed.react neuron reactants)
            (.of_eq rfl rfl) rfl (react_sameKinds ..) rfl
            fun _ wired => wired.react neuron reactants
  | infuseGanglion ganglion =>
      apply entered_updateNeuronGanglia placed (placed.addGanglion ganglion)
      · have extended := extends_addGanglion plexus ganglion
        exact ⟨extended.neurons, extended.ganglia⟩
      · unfold Plexus.addGanglion
        split <;> rfl
      · unfold Plexus.addGanglion
        split <;> exact ⟨fun _ => rfl, fun _ => rfl⟩
      · unfold Plexus.addGanglion
        split <;> rfl
      · intro pairs wired
        apply wired.of_ganglion
        unfold Plexus.addGanglion
        split <;> rfl

theorem Placed.leave {plexus : Plexus} (placed : plexus.Placed)
    (update : Option Neuron) : (plexus.leave update).Placed := by
  cases update with
  | none => exact placed
  | some neuron => exact placed.congr (updateInproc_sameKinds plexus neuron)

theorem Wired.leave {plexus : Plexus} {pairs : List (Neuron × GanglionId)}
    (wired : plexus.Wired pairs) (placed : plexus.Placed)
    (update : Option Neuron) : (plexus.leave update).Wired pairs := by
  cases update with
  | none => exact wired
  | some neuron => exact wired.updateInproc placed.ownClass neuron

theorem leave_sets (plexus : Plexus) (update : Option Neuron) :
    (plexus.leave update).neurons = plexus.neurons ∧
      (plexus.leave update).ganglia = plexus.ganglia ∧
      (plexus.leave update).neuronGanglia = plexus.neuronGanglia ∧
      (plexus.leave update).filters = plexus.filters := by
  cases update <;> exact ⟨rfl, rfl, rfl, rfl⟩

end Plexus

namespace Plexus

def Accepts (plexus : Plexus) : Operation → Neuron → Prop
  | .updateTransmitter given, neuron => given = neuron
  | .adapt given _, neuron => given = neuron ∧ plexus.capable given = true
  | _, _ => False

theorem enter_accepts {plexus : Plexus} {operation : Operation}
    {neuron : Neuron} (accepts : plexus.Accepts operation neuron) :
    ∃ known ∈ (plexus.enter operation).plexus.neurons,
      known.name = neuron.name := by
  cases operation with
  | react _ _ => exact accepts.elim
  | attach _ _ _ => exact accepts.elim
  | infuseGanglion _ => exact accepts.elim
  | updateTransmitter given =>
      obtain rfl : given = neuron := accepts
      exact exists_updateNeurons plexus given
  | adapt given reactants =>
      obtain ⟨rfl, capable⟩ := accepts
      simp only [enter, capable, Bool.true_eq_false, if_false]
      exact exists_updateNeurons _ given

theorem accepts_congr {before after : Plexus}
    (filters : after.filters = before.filters) (operation : Operation)
    (neuron : Neuron) :
    after.Accepts operation neuron ↔ before.Accepts operation neuron := by
  cases operation <;> simp [Accepts, Plexus.capable, filters]

end Plexus

namespace Running

open Plexus

/-- Every recorded pair has been given to its ganglion once. -/
structure Tracked (running : Running) : Prop where
  placed : running.plexus.Placed
  apart : (running.adapts.map (·.pair)).Pairwise Apart
  recorded : ∀ pair, pair ∈ running.plexus.neuronGanglia ↔
    pair ∈ running.adapts.map (·.pair)
  accepted : ∀ called ∈ running.calls, ∀ neuron,
    running.plexus.Accepts called.operation neuron →
      ∃ known ∈ running.plexus.neurons, known.name = neuron.name

theorem tracked_start {plexus : Plexus} (placed : plexus.Placed)
    (unused : plexus.neuronGanglia = []) : (start plexus).Tracked := by
  refine ⟨placed, .nil, ?_, ?_⟩
  · intro pair
    change pair ∈ plexus.neuronGanglia ↔ _
    rw [unused]
    rfl
  · intro called member
    cases member

/-- The operations of the calls, in the order in which they were made. -/
def operations (running : Running) : List Operation :=
  running.calls.map (·.operation)

theorem map_pair_setAdapt {running : Running} {index call : Nat}
    {pair : Neuron × GanglionId} {before : AdaptStatus}
    (found : running.adapts[index]? = some ⟨pair, call, before⟩)
    (after : AdaptStatus) :
    (running.setAdapt index ⟨pair, call, after⟩).adapts.map (·.pair) =
      running.adapts.map (·.pair) := by
  obtain ⟨earlier, later, adapts, replaced⟩ := exists_around found
  rw [setAdapt, replaced, adapts]
  simp

theorem operations_set {running : Running} {index : Nat}
    {operation : Operation} {update other : Option Neuron}
    {before : CallStatus}
    (found : running.calls[index]? = some ⟨operation, update, before⟩)
    (after : CallStatus) :
    (running.setCall index ⟨operation, other, after⟩).operations =
      running.operations := by
  obtain ⟨earlier, later, calls, replaced⟩ := exists_around found
  rw [operations, setCall, replaced, operations, calls]
  simp

theorem Tracked.same {running next : Running} (tracked : running.Tracked)
    (placed : next.plexus.Placed)
    (pairs : next.adapts.map (·.pair) = running.adapts.map (·.pair))
    (recorded : next.plexus.neuronGanglia = running.plexus.neuronGanglia)
    (neurons : next.plexus.neurons = running.plexus.neurons)
    (filters : next.plexus.filters = running.plexus.filters)
    (operations : next.operations = running.operations) : next.Tracked := by
  refine ⟨placed, ?_, ?_, ?_⟩
  · rw [pairs]
    exact tracked.apart
  · rw [pairs, recorded]
    exact tracked.recorded
  · intro called member neuron accepts
    have known : called.operation ∈ running.operations :=
      operations ▸ List.mem_map_of_mem member
    obtain ⟨other, inside, same⟩ := List.mem_map.mp known
    rw [neurons]
    apply tracked.accepted other inside neuron
    rw [same]
    exact (accepts_congr filters called.operation neuron).mp accepts

/-- A call returns at once, or waits for the `adapt`s that it has started. -/
theorem call_cases (running : Running) (operation : Operation) :
    ((running.plexus.enter operation).pairs = [] ∧
      running.call operation =
        { running with
          plexus := (running.plexus.enter operation).plexus.leave
            (running.plexus.enter operation).update
          calls := running.calls ++
            [⟨operation, (running.plexus.enter operation).update,
              .returned⟩] }) ∨
    running.call operation =
      { plexus := (running.plexus.enter operation).plexus
        calls := running.calls ++
          [⟨operation, (running.plexus.enter operation).update, .waiting⟩]
        adapts := running.adapts ++ (running.plexus.enter operation).pairs.map
          (⟨·, running.calls.length, .started⟩) } := by
  unfold call
  cases pairs : (running.plexus.enter operation).pairs with
  | nil => exact .inl ⟨rfl, by simp [pairs]⟩
  | cons pair rest => exact .inr (by simp [pairs])

theorem adapts_call (running : Running) (operation : Operation) :
    (running.call operation).adapts = running.adapts ++
      (running.plexus.enter operation).pairs.map
        (⟨·, running.calls.length, .started⟩) := by
  rcases running.call_cases operation with ⟨none, same⟩ | same
  · rw [same, none]
    simp
  · rw [same]

theorem plexus_call (running : Running) (operation : Operation) :
    ∃ update, (running.call operation).plexus =
      (running.plexus.enter operation).plexus.leave update := by
  rcases running.call_cases operation with ⟨_, same⟩ | same
  · exact ⟨_, congrArg Running.plexus same⟩
  · exact ⟨none, congrArg Running.plexus same⟩

theorem operations_call (running : Running) (operation : Operation) :
    (running.call operation).operations =
      running.operations ++ [operation] := by
  rcases running.call_cases operation with ⟨_, same⟩ | same
  · rw [operations, same]
    simp [operations]
  · rw [operations, same]
    simp [operations]

theorem Tracked.call {running : Running} (tracked : running.Tracked)
    (operation : Operation) : (running.call operation).Tracked := by
  have entered := enter_entered tracked.placed operation
  obtain ⟨update, plexus⟩ := running.plexus_call operation
  obtain ⟨neurons, ganglia, recorded, filters⟩ :=
    (running.plexus.enter operation).plexus.leave_sets update
  have pairs : (running.call operation).adapts.map (·.pair) =
      running.adapts.map (·.pair) ++
        (running.plexus.enter operation).pairs := by
    rw [adapts_call, List.map_append, List.map_map]
    simp [Function.comp_def]
  refine ⟨?_, ?_, ?_, ?_⟩
  · rw [plexus]
    exact entered.placed.leave update
  · rw [pairs]
    apply List.pairwise_append.mpr
    refine ⟨tracked.apart, entered.apart, ?_⟩
    intro old member pair isNew
    exact entered.fresh old ((tracked.recorded old).mpr member) pair isNew
  · intro pair
    rw [plexus, recorded, pairs, List.mem_append, entered.recorded,
      tracked.recorded]
  · intro called member neuron accepts
    have known : called.operation ∈ (running.call operation).operations :=
      List.mem_map_of_mem member
    rw [plexus, accepts_congr (filters.trans entered.filters)] at accepts
    rw [plexus, neurons]
    rw [operations_call] at known
    rcases List.mem_append.mp known with old | new
    · obtain ⟨other, inside, same⟩ := List.mem_map.mp old
      obtain ⟨first, registered, named⟩ := tracked.accepted other inside neuron
        (same ▸ accepts)
      exact ⟨first, entered.extended.neurons registered, named⟩
    · rw [List.mem_singleton.mp new] at accepts
      exact enter_accepts accepts

theorem Tracked.returns {running : Running} (tracked : running.Tracked)
    {index : Nat} {operation : Operation} {update : Option Neuron}
    {status : CallStatus}
    (found : running.calls[index]? = some ⟨operation, update, status⟩) :
    (running.returns index ⟨operation, update, status⟩).Tracked := by
  obtain ⟨neurons, _, recorded, filters⟩ := running.plexus.leave_sets update
  exact tracked.same (tracked.placed.leave update) rfl recorded neurons filters
    (operations_set found .returned)

theorem Tracked.move {running next : Running} {fails : Bool}
    (tracked : running.Tracked) (moved : Move running fails next) :
    next.Tracked := by
  cases moved with
  | call operation => exact tracked.call operation
  | adapted found =>
      exact tracked.same (tracked.placed.congr (adaptGanglion_sameKinds ..))
        (map_pair_setAdapt found .adapted) rfl rfl rfl rfl
  | @failed index call pair error attached attachedRaw found =>
      exact tracked.same
        (tracked.placed.congr (failGanglion_sameKinds _ _ attached attachedRaw))
        (map_pair_setAdapt found (.failed error)) rfl rfl rfl rfl
  | resume found _ => exact tracked.returns found
  | handle found _ _ => exact tracked.returns found
  | @raise index adapt operation update pair error found _ _ =>
      exact tracked.same tracked.placed rfl rfl rfl rfl
        (operations_set found (.raised error))

theorem Tracked.path {before after : Running} (tracked : before.Tracked)
    {steps : List (Running × Action)}
    (path : Path step before steps after) : after.Tracked :=
  path.always tracked fun _ _ _ tracked taken =>
    tracked.move (move_of_step taken)

/-- No `adapt` of a ganglion has raised. -/
structure Flawless (running : Running) : Prop where
  notFailed : ∀ adapting ∈ running.adapts, ∀ error,
    adapting.status ≠ .failed error
  notRaised : ∀ called ∈ running.calls, ∀ error,
    called.status ≠ .raised error
  waiting : ∀ adapting ∈ running.adapts, adapting.status = .started →
    ∃ called, running.calls[adapting.call]? = some called ∧
      called.status = .waiting
  wired : running.plexus.Wired running.done

theorem mem_done {running : Running} {pair : Neuron × GanglionId} :
    pair ∈ running.done ↔
      ∃ call, ⟨pair, call, .adapted⟩ ∈ running.adapts := by
  simp only [done, List.mem_map, List.mem_filter, decide_eq_true_eq]
  constructor
  · intro found
    obtain ⟨⟨_, call, _⟩, ⟨member, rfl⟩, rfl⟩ := found
    exact ⟨call, member⟩
  · intro found
    obtain ⟨call, member⟩ := found
    exact ⟨_, ⟨member, rfl⟩, rfl⟩

theorem flawless_start {plexus : Plexus} (wired : plexus.Wired []) :
    (start plexus).Flawless where
  notFailed := fun _ member => by cases member
  notRaised := fun _ member => by cases member
  waiting := fun _ member => by cases member
  wired := wired

theorem mem_done_setAdapt {running : Running} {index call : Nat}
    {pair : Neuron × GanglionId}
    (found : running.adapts[index]? = some ⟨pair, call, .started⟩)
    (other : Neuron × GanglionId) :
    other ∈ (running.setAdapt index ⟨pair, call, .adapted⟩).done ↔
      other ∈ pair :: running.done := by
  obtain ⟨earlier, later, adapts, replaced⟩ := exists_around found
  simp only [done, setAdapt, replaced]
  rw [adapts]
  simp only [List.filter_append, List.filter_cons, List.map_append]
  simp [or_left_comm]

theorem Flawless.call {running : Running} (flawless : running.Flawless)
    (tracked : running.Tracked) (operation : Operation) :
    (running.call operation).Flawless := by
  have entered := enter_entered tracked.placed operation
  obtain ⟨update, plexus⟩ := running.plexus_call operation
  have adapts := running.adapts_call operation
  have notDone : ((running.plexus.enter operation).pairs.map
      (⟨·, running.calls.length, .started⟩ : _ → Adapting)).filter
        (fun adapting => adapting.status = .adapted) = [] := by
    apply List.filter_eq_nil_iff.mpr
    intro adapting member
    obtain ⟨pair, _, rfl⟩ := List.mem_map.mp member
    simp
  have done_same : (running.call operation).done = running.done := by
    rw [done, adapts, done, List.filter_append, notDone, List.append_nil]
  refine ⟨?_, ?_, ?_, ?_⟩
  · intro adapting member error
    rw [adapts] at member
    rcases List.mem_append.mp member with old | new
    · exact flawless.notFailed adapting old error
    · obtain ⟨pair, _, rfl⟩ := List.mem_map.mp new
      simp
  · intro called member error
    rcases running.call_cases operation with ⟨_, same⟩ | same
    · rw [same] at member
      rcases List.mem_append.mp member with old | new
      · exact flawless.notRaised called old error
      · rw [List.mem_singleton.mp new]
        simp
    · rw [same] at member
      rcases List.mem_append.mp member with old | new
      · exact flawless.notRaised called old error
      · rw [List.mem_singleton.mp new]
        simp
  · intro adapting member started
    have stays : ∀ {other : Adapting}, other ∈ running.adapts →
        other.status = .started → ∃ called,
          (running.call operation).calls[other.call]? = some called ∧
            called.status = .waiting := by
      intro other old started
      obtain ⟨called, found, waits⟩ := flawless.waiting other old started
      have bound := (List.getElem?_eq_some_iff.mp found).1
      refine ⟨called, ?_, waits⟩
      rcases running.call_cases operation with ⟨_, same⟩ | same
      · rw [same]
        exact (List.getElem?_append_left bound).trans found
      · rw [same]
        exact (List.getElem?_append_left bound).trans found
    rw [adapts] at member
    rcases List.mem_append.mp member with old | new
    · exact stays old started
    · obtain ⟨pair, isNew, rfl⟩ := List.mem_map.mp new
      rcases running.call_cases operation with ⟨none, _⟩ | same
      · rw [none] at isNew
        cases isNew
      · rw [same]
        exact ⟨_, List.getElem?_concat_length, rfl⟩
  · rw [done_same, plexus]
    exact (entered.wired _ flawless.wired).leave entered.placed update

theorem Flawless.adapted {running : Running} (flawless : running.Flawless)
    (tracked : running.Tracked) {index call : Nat}
    {pair : Neuron × GanglionId}
    (found : running.adapts[index]? = some ⟨pair, call, .started⟩) :
    Flawless { running.setAdapt index ⟨pair, call, .adapted⟩ with
      plexus := running.plexus.adaptGanglion pair } := by
  obtain ⟨neuron, id⟩ := pair
  refine ⟨?_, flawless.notRaised, ?_, ?_⟩
  · intro adapting member error
    rcases List.mem_or_eq_of_mem_set member with old | same
    · exact flawless.notFailed adapting old error
    · simp [same]
  · intro adapting member started
    rcases List.mem_or_eq_of_mem_set member with old | same
    · exact flawless.waiting adapting old started
    · simp [same] at started
  · have new : ∀ old ∈ running.done, Apart old (neuron, id) := by
      intro old member both
      obtain ⟨other, isOther⟩ := mem_done.mp member
      obtain ⟨position, there⟩ := List.getElem?_of_mem isOther
      have different : position ≠ index := by
        intro same
        rw [same, found] at there
        cases there
      have inPairs : ∀ {place : Nat} {adapting : Adapting},
          running.adapts[place]? = some adapting →
            (running.adapts.map (·.pair))[place]? = some adapting.pair := by
        intro place adapting at_place
        rw [List.getElem?_map, at_place]
        rfl
      obtain ⟨boundOld, sameOld⟩ :=
        List.getElem?_eq_some_iff.mp (inPairs there)
      obtain ⟨boundNew, sameNew⟩ :=
        List.getElem?_eq_some_iff.mp (inPairs found)
      have ordered := List.pairwise_iff_getElem.mp tracked.apart
      rcases Nat.lt_or_gt_of_ne different with before | after
      · apply ordered position index boundOld boundNew before
        rw [sameOld, sameNew]
        exact both
      · apply ordered index position boundNew boundOld after
        rw [sameOld, sameNew]
        exact ⟨both.1.symm, both.2.symm⟩
    exact (flawless.wired.adaptGanglion new).congr
      fun pair => mem_done_setAdapt found pair

theorem Flawless.returns {running : Running} (flawless : running.Flawless)
    (tracked : running.Tracked) {index : Nat} {operation : Operation}
    {update : Option Neuron}
    (resumes : running.canResume index = true) :
    (running.returns index ⟨operation, update, .waiting⟩).Flawless := by
  refine ⟨flawless.notFailed, ?_, ?_,
    flawless.wired.leave tracked.placed update⟩
  · intro called member error
    rcases List.mem_or_eq_of_mem_set member with old | same
    · exact flawless.notRaised called old error
    · simp [same]
  · intro adapting member started
    obtain ⟨called, there, waits⟩ := flawless.waiting adapting member started
    have different : adapting.call ≠ index := by
      have ended := List.all_eq_true.mp resumes adapting member
      simpa [started] using ended
    refine ⟨called, ?_, waits⟩
    exact (List.getElem?_set_ne (Ne.symm different)).trans there

theorem Flawless.move {running next : Running} (flawless : running.Flawless)
    (tracked : running.Tracked) (moved : Move running false next) :
    next.Flawless := by
  cases moved with
  | call operation => exact flawless.call tracked operation
  | adapted found => exact flawless.adapted tracked found
  | resume _ resumes => exact flawless.returns tracked resumes
  | handle _ failed _ =>
      exact absurd rfl
        (flawless.notFailed _ (List.mem_of_getElem? failed) _)
  | raise _ failed _ =>
      exact absurd rfl
        (flawless.notFailed _ (List.mem_of_getElem? failed) _)

/-- A run in which no `adapt` of a ganglion raises. -/
def Smooth (steps : List (Running × Action)) : Prop :=
  Along (fun _ action => action.fails = false) steps

instance (steps : List (Running × Action)) : Decidable (Smooth steps) :=
  inferInstanceAs (Decidable (Along _ steps))

theorem flawless_of_path {plexus : Plexus} {running : Running}
    {steps : List (Running × Action)}
    (path : Path step (start plexus) steps running) (smooth : Smooth steps)
    (placed : plexus.Placed) (unused : plexus.neuronGanglia = [])
    (wired : plexus.Wired []) : running.Tracked ∧ running.Flawless := by
  apply path.invariant smooth
  · exact ⟨tracked_start placed unused, flawless_start wired⟩
  · intro before action next sound calm taken
    have moved := move_of_step taken
    rw [calm] at moved
    exact ⟨sound.1.move moved, sound.2.move sound.1 moved⟩

def Returned (running : Running) : Prop :=
  ∀ called ∈ running.calls, called.status = .returned

instance (running : Running) : Decidable running.Returned :=
  inferInstanceAs
    (Decidable (∀ called ∈ running.calls, called.status = .returned))

theorem Flawless.all_adapted {running : Running} (flawless : running.Flawless)
    (returned : running.Returned) :
    ∀ adapting ∈ running.adapts, adapting.status = .adapted := by
  intro adapting member
  cases status : adapting.status with
  | adapted => rfl
  | failed error =>
      exact absurd status (flawless.notFailed adapting member error)
  | started =>
      obtain ⟨called, found, waits⟩ := flawless.waiting adapting member status
      rw [returned called (List.mem_of_getElem? found)] at waits
      cases waits

theorem settled_of_returned {running : Running} (tracked : running.Tracked)
    (flawless : running.Flawless) (returned : running.Returned) :
    running.plexus.Settled := by
  refine ⟨tracked.placed, flawless.wired.congr ?_⟩
  intro pair
  rw [tracked.recorded, mem_done]
  constructor
  · intro member
    obtain ⟨⟨_, call, status⟩, inside, rfl⟩ := List.mem_map.mp member
    have adapted := flawless.all_adapted returned _ inside
    dsimp only at adapted
    exact ⟨call, adapted ▸ inside⟩
  · intro found
    obtain ⟨call, member⟩ := found
    exact List.mem_map_of_mem member

end Running

namespace Plexus

/-- A plexus after calls of `operations`, which may have overlapped and have all
returned, while no ganglion has raised an exception. -/
def Built (plexus : Plexus) (operations : List Operation) : Prop :=
  ∃ outside given relevantNeurons ignoredNeurons steps running,
    Path Running.step
      (.start (init outside given relevantNeurons ignoredNeurons)) steps
        running ∧
    Running.Smooth steps ∧ running.Returned ∧
    running.operations = operations ∧ running.plexus = plexus

theorem Built.settled {plexus : Plexus} {operations : List Operation}
    (built : plexus.Built operations) : plexus.Settled := by
  obtain ⟨outside, given, relevant, ignored, steps, running, path, smooth,
    returned, _, rfl⟩ := built
  obtain ⟨tracked, flawless⟩ := Running.flawless_of_path path smooth
    (placed_init outside given relevant ignored) rfl
    (wired_init outside given relevant ignored)
  exact Running.settled_of_returned tracked flawless returned

/-- A plexus registers a neuron of every name that it was adapted to. -/
theorem Built.exists_registered {plexus : Plexus} {operations : List Operation}
    (built : plexus.Built operations) {operation : Operation}
    (called : operation ∈ operations) {neuron : Neuron}
    (accepts : plexus.Accepts operation neuron) :
    ∃ first, plexus.registered neuron = some first := by
  obtain ⟨outside, given, relevant, ignored, steps, running, path, smooth,
    _, rfl, rfl⟩ := built
  obtain ⟨tracked, _⟩ := Running.flawless_of_path path smooth
    (placed_init outside given relevant ignored) rfl
    (wired_init outside given relevant ignored)
  obtain ⟨call, member, same⟩ := List.mem_map.mp called
  obtain ⟨first, known, named⟩ := tracked.accepted call member neuron
    (same ▸ accepts)
  apply Option.isSome_iff_exists.mp
  rw [registered, List.find?_isSome]
  exact ⟨first, known, by simpa using named⟩

end Plexus

/-- No reactant is taken off a dendrite. -/
def Ganglion.Retains (before after : Ganglion) : Prop :=
  ∀ name, before.reactantsOf name ⊆ after.reactantsOf name

namespace Ganglion

theorem Retains.refl (ganglion : Ganglion) : Retains ganglion ganglion :=
  fun _ _ member => member

theorem Retains.trans {first second third : Ganglion}
    (before : Retains first second) (after : Retains second third) :
    Retains first third :=
  fun name _ member => after name (before name member)

theorem Changes.retains {before after : Ganglion} {neuron : Neuron}
    {dendrite : DecoderDendrite}
    (changed : Changes before after neuron dendrite)
    (kept : (before.dendriteOf neuron).reactants ⊆ dendrite.reactants) :
    Retains before after := by
  intro name reactant member
  rw [reactantsOf, changed.dendrite?]
  split
  · next same =>
      subst same
      rw [← dendriteOf_reactants] at member
      exact kept member
  · exact member

theorem react_retains (ganglion : Ganglion) (neuron : Neuron)
    (reactants : List Reactant) :
    Retains ganglion (ganglion.react neuron reactants) :=
  (ganglion.react_changes neuron reactants).retains
    fun _ member => mem_addReactantsTo.mpr (.inl member)

theorem reactRaw_retains (ganglion : Ganglion) (neuron : Neuron)
    (rawReactants : List RawReactant) :
    Retains ganglion (ganglion.reactRaw neuron rawReactants) :=
  (ganglion.reactRaw_changes neuron rawReactants).retains
    fun _ member => member

theorem updateTransmitter_retains (ganglion : Ganglion) (neuron : Neuron) :
    Retains ganglion (ganglion.updateTransmitter neuron) :=
  (ganglion.updateTransmitter_changes neuron).retains fun _ member => member

theorem adapt_retains (ganglion : Ganglion) (neuron : Neuron)
    (reactants : List Reactant) (rawReactants : List RawReactant) :
    Retains ganglion (ganglion.adapt neuron reactants rawReactants) := by
  cases capable : ganglion.capable neuron with
  | false =>
      rw [adapt_of_not_capable capable]
      exact .refl ganglion
  | true =>
      exact (adapt_changes capable reactants rawReactants).retains
        fun _ member => mem_addReactantsTo.mpr (.inl member)

theorem adaptPartly_retains (ganglion : Ganglion) (neuron : Neuron)
    (reactants : List Reactant) (rawReactants : List RawReactant)
    (attached attachedRaw : Bool) :
    Retains ganglion (ganglion.adaptPartly neuron reactants rawReactants
      attached attachedRaw) := by
  have decoded := ganglion.react_retains neuron reactants
  unfold adaptPartly
  cases attached with
  | false =>
      cases attachedRaw with
      | false => exact .refl ganglion
      | true => exact ganglion.reactRaw_retains neuron rawReactants
  | true =>
      cases attachedRaw with
      | false => exact decoded
      | true => exact decoded.trans (reactRaw_retains _ neuron rawReactants)

theorem mem_reactantsOf_react (ganglion : Ganglion) (neuron : Neuron)
    {reactants : List Reactant} {reactant : Reactant}
    (member : reactant ∈ reactants) :
    reactant ∈ (ganglion.react neuron reactants).reactantsOf neuron.name := by
  rw [reactantsOf, (ganglion.react_changes neuron reactants).dendrite?,
    if_pos rfl]
  exact mem_addReactantsTo.mpr (.inr member)

end Ganglion

namespace Plexus

def Retains (before after : Plexus) : Prop :=
  ∀ id, (before.ganglion id).Retains (after.ganglion id)

theorem retains_update {before after : Plexus} {id : GanglionId}
    {ganglion : Ganglion}
    (changed : after.ganglion = Function.update before.ganglion id ganglion)
    (retains : (before.ganglion id).Retains ganglion) :
    Retains before after := by
  intro other
  rw [changed]
  by_cases same : other = id
  · rw [same, Function.update_self]
    exact retains
  · rw [Function.update_of_ne same]
    exact .refl _

theorem retains_enter (plexus : Plexus) (operation : Operation) :
    Retains plexus (plexus.enter operation).plexus := by
  have still : ∀ {after : Plexus}, after.ganglion = plexus.ganglion →
      Retains plexus after := by
    intro after same id
    rw [same]
    exact .refl _
  cases operation with
  | react neuron reactants =>
      exact retains_update rfl (Ganglion.react_retains _ _ _)
  | attach index neuron reactants =>
      exact retains_update rfl (Ganglion.react_retains _ _ _)
  | updateTransmitter neuron => exact still rfl
  | adapt neuron reactants =>
      simp only [enter]
      split
      · exact still rfl
      · split
        · exact still rfl
        · exact retains_update rfl (Ganglion.react_retains _ _ _)
  | infuseGanglion ganglion =>
      apply still
      simp only [enter, updateNeuronGanglia, addGanglion]
      split <;> rfl

theorem retains_leave (plexus : Plexus) (update : Option Neuron) :
    Retains plexus (plexus.leave update) := by
  cases update with
  | none => exact fun _ => .refl _
  | some neuron =>
      exact retains_update rfl (Ganglion.updateTransmitter_retains _ _)

def Registers (plexus : Plexus) (name : String) (reactant : ReactantId) :
    Operation → Prop
  | .react neuron reactants => neuron.name = name ∧ reactant ∈ reactants
  | .adapt neuron reactants =>
      neuron.name = name ∧ reactant ∈ reactants ∧
        plexus.capable neuron = true
  | _ => False

theorem enter_registers {plexus : Plexus} {name : String}
    {reactant : ReactantId} {operation : Operation}
    (registers : plexus.Registers name reactant operation) :
    .user reactant ∈
      ((plexus.enter operation).plexus.ganglion .own).reactantsOf name := by
  have attached : ∀ {neuron : Neuron} {reactants : List ReactantId},
      neuron.name = name → reactant ∈ reactants →
      .user reactant ∈
        ((plexus.react neuron reactants).ganglion .own).reactantsOf name := by
    intro neuron reactants named member
    subst named
    simp only [Plexus.react, onGanglion, Function.update_self]
    exact Ganglion.mem_reactantsOf_react _ neuron (List.mem_map_of_mem member)
  cases operation with
  | react neuron reactants => exact attached registers.1 registers.2
  | attach _ _ _ => exact registers.elim
  | updateTransmitter _ => exact registers.elim
  | adapt neuron reactants =>
      obtain ⟨named, member, capable⟩ := registers
      have some : reactants ≠ [] := List.ne_nil_of_mem member
      simp only [enter, capable, Bool.true_eq_false, if_false, some]
      exact attached named member
  | infuseGanglion _ => exact registers.elim

theorem registers_congr {before after : Plexus}
    (filters : after.filters = before.filters) (name : String)
    (reactant : ReactantId) (operation : Operation) :
    after.Registers name reactant operation ↔
      before.Registers name reactant operation := by
  cases operation <;> simp [Registers, Plexus.capable, filters]

end Plexus

namespace Running

open Plexus

theorem filters_move {running next : Running} {fails : Bool}
    (tracked : running.Tracked) (moved : Move running fails next) :
    next.plexus.filters = running.plexus.filters := by
  cases moved with
  | call operation =>
      obtain ⟨update, same⟩ := running.plexus_call operation
      rw [same, (leave_sets _ update).2.2.2]
      exact (enter_entered tracked.placed operation).filters
  | adapted _ => rfl
  | failed _ => rfl
  | resume _ _ => exact (leave_sets ..).2.2.2
  | handle _ _ _ => exact (leave_sets ..).2.2.2
  | raise _ _ _ => rfl

theorem operations_move {running next : Running} {fails : Bool}
    (moved : Move running fails next) :
    next.operations = running.operations ∨
      ∃ operation, next = running.call operation := by
  cases moved with
  | call operation => exact .inr ⟨operation, rfl⟩
  | adapted _ => exact .inl rfl
  | failed _ => exact .inl rfl
  | resume found _ => exact .inl (operations_set found .returned)
  | handle found _ _ => exact .inl (operations_set found .returned)
  | raise found _ _ => exact .inl (operations_set found (.raised _))

theorem retains_move {running next : Running} {fails : Bool}
    (moved : Move running fails next) :
    Retains running.plexus next.plexus := by
  cases moved with
  | call operation =>
      obtain ⟨update, same⟩ := running.plexus_call operation
      rw [same]
      intro id
      exact (retains_enter running.plexus operation id).trans
        (retains_leave _ update id)
  | adapted _ => exact retains_update rfl (Ganglion.adapt_retains _ _ _ _)
  | failed _ => exact retains_update rfl (Ganglion.adaptPartly_retains _ _ _ _ _ _)
  | resume _ _ => exact retains_leave _ _
  | handle _ _ _ => exact retains_leave _ _
  | raise _ _ _ => exact fun _ => .refl _

theorem registered_mem {plexus : Plexus} {running : Running}
    {steps : List (Running × Action)}
    (path : Path step (start plexus) steps running)
    (placed : plexus.Placed) (unused : plexus.neuronGanglia = []) :
    ∀ operation ∈ running.operations, ∀ name reactant,
      running.plexus.Registers name reactant operation →
        .user reactant ∈
          (running.plexus.ganglion .own).reactantsOf name := by
  have both : running.Tracked ∧ ∀ operation ∈ running.operations,
      ∀ name reactant, running.plexus.Registers name reactant operation →
        .user reactant ∈
          (running.plexus.ganglion .own).reactantsOf name := by
    apply path.always
    · refine ⟨tracked_start placed unused, ?_⟩
      intro operation member
      cases member
    · intro before action next sound taken
      have moved := move_of_step taken
      refine ⟨sound.1.move moved, ?_⟩
      intro operation member name reactant registers
      rw [registers_congr (filters_move sound.1 moved)] at registers
      rcases operations_move moved with same | ⟨called, rfl⟩
      · rw [same] at member
        exact retains_move moved .own name
          (sound.2 operation member name reactant registers)
      · rw [operations_call] at member
        rcases List.mem_append.mp member with old | new
        · exact retains_move moved .own name
            (sound.2 operation old name reactant registers)
        · rw [List.mem_singleton.mp new] at registers
          obtain ⟨update, same⟩ := before.plexus_call called
          rw [same]
          exact retains_leave _ update .own name (enter_registers registers)
  exact both.2

end Running

namespace Plexus

/-- A plexus hands what it transmits to the reactants that were registered. -/
theorem Built.registered_mem {plexus : Plexus} {operations : List Operation}
    (built : plexus.Built operations) {operation : Operation}
    (called : operation ∈ operations) {name : String} {reactant : ReactantId}
    (registers : plexus.Registers name reactant operation) :
    .user reactant ∈ (plexus.ganglion .own).reactantsOf name := by
  obtain ⟨outside, given, relevant, ignored, steps, running, path, _, _, rfl,
    rfl⟩ := built
  exact Running.registered_mem path
    (placed_init outside given relevant ignored) rfl operation called name
    reactant registers

theorem built_of_any {outside : Nat → GanglionClass × Filters}
    {given : List Nat} {relevantNeurons ignoredNeurons : List Neuron}
    {actions : List Running.Action} {test : Plexus → List Operation → Bool}
    (passed : (exec Running.step
      (.start (init outside given relevantNeurons ignoredNeurons))
        actions).any (fun running => running.Returned ∧
          test running.plexus running.operations) = true)
    (smooth : ∀ action ∈ actions, action.fails = false) :
    ∃ plexus operations, plexus.Built operations ∧
      test plexus operations = true := by
  obtain ⟨running, path, tested⟩ := path_of_any passed
  obtain ⟨returned, passes⟩ := of_decide_eq_true tested
  have along := @along_visited _ _ Running.step
    (fun action : Running.Action => action.fails = false)
    (.start (init outside given relevantNeurons ignoredNeurons)) [] actions
    (fun _ member => absurd member List.not_mem_nil) smooth
  exact ⟨running.plexus, running.operations,
    ⟨_, _, _, _, _, running, path, along, returned, rfl, rfl⟩, passes⟩

end Plexus

def sampleNeuron : Neuron :=
  .init "int" plexoNamespace ⟨"JsonCodec", "json"⟩ none

end Plexo
