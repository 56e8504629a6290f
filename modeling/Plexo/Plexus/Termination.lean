import Plexo.Library.OpenCalls
import Plexo.Plexus.Delivery

/-!
# No message is passed on for ever

Messages are passed on while users go on calling the plexus, ganglia are being
adapted, and further messages come in.  A reaction forwards to ganglia that have
not joined its reaction id, and adds its own ganglion before; since the id is
handed on unchanged, no chain of reactions comes back to a ganglion.
-/

namespace Plexo

open CallTable CallTable.Program Transition

variable {δ η : Type}

namespace Ganglion

/-- All dendrites of a ganglion carry reactions of the plexus for this ganglion
only. -/
structure Homed (ganglion : Ganglion) (id : GanglionId) : Prop where
  reactants : ∀ synapse, ∀ reactant ∈ (ganglion.objects synapse).reactants,
    reactant.belongs ganglion id
  rawReactants : ∀ synapse,
    ∀ reactant ∈ (ganglion.objects synapse).rawReactants, reactant.current = id

variable {ganglion : Ganglion} {id : GanglionId}

theorem homed_init (cls : GanglionClass) (filters : Filters) :
    (init cls filters).Homed id := by
  constructor <;> simp [init]

theorem getSynapse_cls (ganglion : Ganglion) (neuron : Neuron) :
    (ganglion.getSynapse neuron).2.cls = ganglion.cls :=
  (ganglion.getSynapse_changes neuron).cls

theorem Homed.update (homed : ganglion.Homed id) {other : Ganglion}
    {synapse : SynapseId} {dendrite : DecoderDendrite}
    (cls : other.cls = ganglion.cls)
    (objects : other.objects =
      Function.update ganglion.objects synapse dendrite)
    (reactants : ∀ reactant ∈ dendrite.reactants, reactant.belongs ganglion id)
    (rawReactants : ∀ reactant ∈ dendrite.rawReactants,
      reactant.current = id) : other.Homed id := by
  constructor
  · intro place reactant member
    apply (reactant.belongs_congr cls).mpr
    rw [objects] at member
    by_cases same : place = synapse
    · subst same
      rw [Function.update_self] at member
      exact reactants reactant member
    · rw [Function.update_of_ne same] at member
      exact homed.reactants place reactant member
  · intro place reactant member
    rw [objects] at member
    by_cases same : place = synapse
    · subst same
      rw [Function.update_self] at member
      exact rawReactants reactant member
    · rw [Function.update_of_ne same] at member
      exact homed.rawReactants place reactant member

theorem Homed.getSynapse (homed : ganglion.Homed id) (neuron : Neuron) :
    (ganglion.getSynapse neuron).2.Homed id := by
  unfold Ganglion.getSynapse
  split
  · exact homed
  · exact homed.update rfl rfl (by simp) (by simp)

theorem Homed.react (homed : ganglion.Homed id) (neuron : Neuron)
    {reactants : List Reactant}
    (belong : ∀ reactant ∈ reactants, reactant.belongs ganglion id) :
    (ganglion.react neuron reactants).Homed id := by
  have found := homed.getSynapse neuron
  refine found.update (by rfl) (by rfl) ?_ ?_
  · intro reactant member
    rcases mem_addReactantsTo.mp member with old | new
    · exact found.reactants _ reactant old
    · exact (reactant.belongs_congr (ganglion.getSynapse_cls neuron)).mpr
        (belong reactant new)
  · exact found.rawReactants _

theorem Homed.reactRaw (homed : ganglion.Homed id) (neuron : Neuron)
    {rawReactants : List RawReactant}
    (belong : ∀ reactant ∈ rawReactants, reactant.current = id) :
    (ganglion.reactRaw neuron rawReactants).Homed id := by
  have found := homed.getSynapse neuron
  refine found.update (by rfl) (by rfl) ?_ ?_
  · exact found.reactants _
  · intro reactant member
    rcases mem_addReactantsTo.mp member with old | new
    · exact found.rawReactants _ reactant old
    · exact belong reactant new

theorem Homed.congr {other : Ganglion} (homed : ganglion.Homed id)
    (cls : other.cls = ganglion.cls) (objects : other.objects = ganglion.objects) :
    other.Homed id := by
  constructor
  · intro synapse reactant member
    rw [objects] at member
    exact (reactant.belongs_congr cls).mpr
      (homed.reactants synapse reactant member)
  · rw [objects]
    exact homed.rawReactants

theorem Homed.updateTransmitter (homed : ganglion.Homed id) (neuron : Neuron) :
    (ganglion.updateTransmitter neuron).Homed id := by
  apply (homed.getSynapse neuron).congr
  · simp only [Ganglion.updateTransmitter]
    split <;> rfl
  · simp only [Ganglion.updateTransmitter]
    split <;> rfl

theorem Homed.adapt (homed : ganglion.Homed id) (neuron : Neuron)
    {reactants : List Reactant} {rawReactants : List RawReactant}
    (belong : ∀ reactant ∈ reactants, reactant.belongs ganglion id)
    (belongRaw : ∀ reactant ∈ rawReactants, reactant.current = id) :
    (ganglion.adapt neuron reactants rawReactants).Homed id := by
  unfold Ganglion.adapt
  split
  · exact homed
  · apply Homed.updateTransmitter
    have decoded : (if reactants = [] then ganglion
        else ganglion.react neuron reactants).Homed id := by
      split
      · exact homed
      · exact homed.react neuron belong
    split
    · exact decoded
    · exact decoded.reactRaw neuron belongRaw

theorem Homed.adaptPartly (homed : ganglion.Homed id) (neuron : Neuron)
    {reactants : List Reactant} {rawReactants : List RawReactant}
    (belong : ∀ reactant ∈ reactants, reactant.belongs ganglion id)
    (belongRaw : ∀ reactant ∈ rawReactants, reactant.current = id)
    (attached attachedRaw : Bool) :
    (ganglion.adaptPartly neuron reactants rawReactants attached
      attachedRaw).Homed id := by
  have decoded := homed.react neuron belong
  unfold Ganglion.adaptPartly
  cases attached with
  | false =>
      cases attachedRaw with
      | false => exact homed
      | true => exact homed.reactRaw neuron belongRaw
  | true =>
      cases attachedRaw with
      | false => exact decoded
      | true => exact decoded.reactRaw neuron belongRaw

end Ganglion

namespace Plexus

def Homed (plexus : Plexus) : Prop := ∀ id, (plexus.ganglion id).Homed id

theorem homed_init (outside : Nat → GanglionClass × Filters) (given : List Nat)
    (relevantNeurons ignoredNeurons : List Neuron) :
    (init outside given relevantNeurons ignoredNeurons).Homed := by
  intro id
  cases id with
  | own => exact Ganglion.homed_init ..
  | other index => exact Ganglion.homed_init ..

variable {plexus : Plexus}

theorem Homed.update (homed : plexus.Homed) {after : Plexus} {id : GanglionId}
    {ganglion : Ganglion}
    (changed : after.ganglion = Function.update plexus.ganglion id ganglion)
    (home : ganglion.Homed id) : after.Homed := by
  intro other
  rw [changed]
  by_cases same : other = id
  · subst same
    rw [Function.update_self]
    exact home
  · rw [Function.update_of_ne same]
    exact homed other

theorem belongs_reactionsFor (plexus : Plexus) (id : GanglionId) :
    (∀ reactant ∈ (plexus.reactionsFor id).1,
      reactant.belongs (plexus.ganglion id) id) ∧
    ∀ reactant ∈ (plexus.reactionsFor id).2, reactant.current = id := by
  unfold reactionsFor
  split
  · next declared =>
      refine ⟨?_, ?_⟩
      · intro reactant member
        rw [List.mem_singleton.mp member]
        exact ⟨rfl, declared⟩
      · intro reactant member
        rw [List.mem_singleton.mp member]
  · next undeclared =>
      refine ⟨?_, ?_⟩
      · intro reactant member
        rw [List.mem_singleton.mp member]
        exact ⟨rfl, Bool.not_eq_true _ ▸ undeclared⟩
      · intro reactant member
        cases member

theorem Homed.react (homed : plexus.Homed) (neuron : Neuron)
    (reactants : List ReactantId) : (plexus.react neuron reactants).Homed := by
  apply homed.update rfl
  apply (homed .own).react neuron
  intro reactant member
  obtain ⟨user, _, rfl⟩ := List.mem_map.mp member
  rfl

theorem Homed.leave (homed : plexus.Homed) (update : Option Neuron) :
    (plexus.leave update).Homed := by
  cases update with
  | none => exact homed
  | some neuron =>
      exact homed.update rfl ((homed .own).updateTransmitter neuron)

theorem Homed.enter (homed : plexus.Homed) (operation : Operation) :
    (plexus.enter operation).plexus.Homed := by
  cases operation with
  | react neuron reactants => exact homed.react neuron reactants
  | attach index neuron reactants =>
      apply homed.update rfl
      apply (homed (.other index)).react neuron
      intro reactant member
      obtain ⟨user, _, rfl⟩ := List.mem_map.mp member
      simp [Reactant.belongs]
  | updateTransmitter neuron => exact homed
  | adapt neuron reactants =>
      simp only [Plexus.enter]
      split
      · exact homed
      · split
        · exact homed
        · exact homed.react neuron reactants
  | infuseGanglion ganglion =>
      simp only [Plexus.enter, Plexus.addGanglion]
      split <;> exact homed

end Plexus

namespace Running

theorem Move.homed {running next : Running} {fails : Bool}
    (moved : Move running fails next) (homed : running.plexus.Homed) :
    next.plexus.Homed := by
  cases moved with
  | call operation =>
      have entered := homed.enter operation
      simp only [Running.call]
      split
      · exact entered.leave _
      · exact entered
  | @adapted index call pair found =>
      obtain ⟨belong, belongRaw⟩ := running.plexus.belongs_reactionsFor pair.2
      exact homed.update rfl ((homed pair.2).adapt pair.1 belong belongRaw)
  | @failed index call pair error attached attachedRaw found =>
      obtain ⟨belong, belongRaw⟩ := running.plexus.belongs_reactionsFor pair.2
      exact homed.update rfl ((homed pair.2).adaptPartly pair.1 belong belongRaw
        attached attachedRaw)
  | resume found _ => exact homed.leave _
  | handle found _ _ => exact homed.leave _
  | raise _ _ _ => exact homed

theorem Move.ganglia_subset {running next : Running} {fails : Bool}
    (moved : Move running fails next) (placed : running.plexus.Placed) :
    running.plexus.ganglia ⊆ next.plexus.ganglia := by
  have left : ∀ (plexus : Plexus) (update : Option Neuron),
      (plexus.leave update).ganglia = plexus.ganglia := by
    intro plexus update
    cases update <;> rfl
  cases moved with
  | call operation =>
      have entered := (Plexus.enter_entered placed operation).extended.ganglia
      simp only [Running.call]
      split
      · exact fun id member => (left _ _).symm ▸ entered member
      · exact entered
  | adapted found => exact List.Subset.refl _
  | failed found => exact List.Subset.refl _
  | resume found _ => exact fun id member => (left _ _).symm ▸ member
  | handle found _ _ => exact fun id member => (left _ _).symm ▸ member
  | raise _ _ _ => exact List.Subset.refl _

end Running

namespace Call

def ganglion? : Call δ η → Option GanglionId
  | .transmit ganglion _ _ _ => some ganglion
  | .transmitEncoded ganglion _ _ _ => some ganglion
  | .transmitter ganglion _ _ _ => some ganglion
  | .externalTransmitter ganglion _ _ _ => some ganglion
  | .transduce ganglion _ _ _ => some ganglion
  | .react (.user _) _ _ _ => none
  | .react (.attached _) _ _ _ => none
  | .react (.internalReaction _ current) _ _ _ => some current
  | .react (.externalInternalReaction _ current) _ _ _ => some current
  | .reactRaw reactant _ _ _ => some reactant.current

def reaction? : Call δ η → Option GanglionId
  | .react (.internalReaction _ current) _ _ _ => some current
  | .react (.externalInternalReaction _ current) _ _ _ => some current
  | .reactRaw reactant _ _ _ => some reactant.current
  | _ => none

def reactionId? : Call δ η → Option ReactionId
  | .transmit _ _ _ reactionId => reactionId
  | .transmitEncoded _ _ _ reactionId => reactionId
  | .transmitter _ _ _ reactionId => reactionId
  | .externalTransmitter _ _ _ reactionId => reactionId
  | .transduce _ _ _ reactionId => reactionId
  | .react _ _ _ reactionId => reactionId
  | .reactRaw _ _ _ reactionId => reactionId

/-- How many calls are left before a ganglion forwards. -/
def stage : Call δ η → Nat
  | .transmit _ _ _ _ => 4
  | .transmitEncoded _ _ _ _ => 4
  | .transmitter _ _ _ _ => 3
  | .externalTransmitter _ _ _ _ => 3
  | .transduce _ _ _ _ => 3
  | .react _ _ _ _ => 2
  | .reactRaw _ _ _ _ => 2

theorem ganglion?_of_reaction? {call : Call δ η} {current : GanglionId}
    (reaction : call.reaction? = some current) :
    call.ganglion? = some current ∧ call.stage = 2 := by
  cases call with
  | react reactant _ _ _ =>
      cases reactant with
      | user _ => cases reaction
      | attached _ => cases reaction
      | internalReaction _ _ => exact ⟨reaction, rfl⟩
      | externalInternalReaction _ _ => exact ⟨reaction, rfl⟩
  | reactRaw _ _ _ _ => exact ⟨reaction, rfl⟩
  | _ => cases reaction

end Call

namespace Plexus

variable {plexus : Plexus} {environment : Environment δ η}
  {reactions : Reactions} {call child : Call δ η}

/-- A reaction forwards to a ganglion that has not joined. -/
structure Forwarded (plexus : Plexus) (environment : Environment δ η)
    (reactions : Reactions) (call child : Call δ η)
    (current target : GanglionId) : Prop where
  reaction : call.reaction? = some current
  ganglion : child.ganglion? = some target
  inside : target ∈ plexus.ganglia
  reactionId : child.reactionId? = some (reactions.reactionId call.reactionId?)
  stage : child.stage = 4
  joins : (plexus.run environment call reactions).2 =
    reactions.join (reactions.reactionId call.reactionId?) current
  outside : target ∉ (plexus.run environment call reactions).2.joined
    (reactions.reactionId call.reactionId?)

/-- A call goes on for the same ganglion, or invokes a reactant of a user. -/
structure PassedOn (call child : Call δ η) : Prop where
  noReaction : call.reaction? = none
  isGanglion : ∃ ganglion, call.ganglion? = some ganglion
  ganglion : child.ganglion? = none ∨ child.ganglion? = call.ganglion?
  reactionId : child.reactionId? = call.reactionId?
  stage : child.stage < call.stage

theorem belongs_ganglion? {ganglion : Ganglion} {id : GanglionId}
    {reactant : Reactant} (belongs : reactant.belongs ganglion id) (data : δ)
    (neuron : Neuron) (reactionId : Option ReactionId) :
    (Call.react reactant data neuron reactionId : Call δ η).ganglion? = none ∨
      (Call.react reactant data neuron reactionId : Call δ η).ganglion? =
        some id := by
  cases reactant with
  | user _ => exact .inl rfl
  | attached _ => exact .inl rfl
  | internalReaction _ _ => exact .inr (congrArg some belongs.1)
  | externalInternalReaction _ _ => exact .inr (congrArg some belongs.1)

theorem made_cases (homed : plexus.Homed)
    (made : child ∈ (plexus.run environment call reactions).1.calls) :
    (∃ current target, plexus.Forwarded environment reactions call child
      current target) ∨ PassedOn call child := by
  cases made_of_mem made with
  | transmitter _ => exact .inr ⟨rfl, ⟨_, rfl⟩, .inr rfl, rfl, by simp [Call.stage]⟩
  | externalTransmitter _ =>
      exact .inr ⟨rfl, ⟨_, rfl⟩, .inr rfl, rfl, by simp [Call.stage]⟩
  | @react ganglion transmitter data reactionId reactant _ attached =>
      have belongs := (homed ganglion).reactants transmitter.synapse reactant
        attached
      exact .inr ⟨rfl, ⟨_, rfl⟩, belongs_ganglion? belongs .., rfl,
        by simp [Call.stage]⟩
  | @reactDecoded ganglion synapse data decoded reactionId reactant _
      attached =>
      have belongs := (homed ganglion).reactants synapse reactant attached
      exact .inr ⟨rfl, ⟨_, rfl⟩, belongs_ganglion? belongs .., rfl,
        by simp [Call.stage]⟩
  | @reactRaw ganglion synapse data decoded reactionId reactant _ attached =>
      have belongs := (homed ganglion).rawReactants synapse reactant attached
      exact .inr ⟨rfl, ⟨_, rfl⟩, .inr (congrArg some belongs), rfl, by simp [Call.stage]⟩
  | @forward object current target data neuron reactionId isGanglion outside =>
      exact .inl ⟨current, target, rfl, rfl, isGanglion, rfl, rfl, rfl, outside⟩
  | @forwardInternal object current target data neuron reactionId isGanglion
      outside =>
      exact .inl ⟨current, target, rfl, rfl,
        List.mem_append_left _ isGanglion, rfl, rfl, rfl, outside⟩
  | @forwardExternal object current target data neuron reactionId isGanglion
      outside =>
      exact .inl ⟨current, target, rfl, rfl,
        List.mem_append_right _ isGanglion, rfl, rfl, rfl, outside⟩

end Plexus

/-- A message that comes in: one that users transmit through a ganglion of the
plexus, its own one for `Plexus.transmit`, or one that an external ganglion has
received. -/
inductive Incoming (δ η : Type) where
  | transmit (ganglion : GanglionId) (data : δ) (neuron : Neuron)
      (reactionId : Option ReactionId)
  | receive (ganglion : GanglionId) (data : η) (neuron : Neuron)

/-- A plexus that users call while it passes on messages. -/
structure Traffic where
  running : Running
  reactions : Reactions

namespace Traffic

def start (plexus : Plexus) : Traffic := ⟨.start plexus, .init⟩

def firstCall (traffic : Traffic) : Incoming δ η → Option (Call δ η)
  | .transmit ganglion data neuron reactionId =>
      if ganglion ∈ traffic.running.plexus.ganglia then
        some (.transmit ganglion data neuron reactionId)
      else
        none
  | .receive ganglion data neuron =>
      if ganglion ∈ traffic.running.plexus.ganglia then
        traffic.running.plexus.rootCall neuron (.receive ganglion data)
      else
        none

def around : Surroundings Traffic (Call δ η) (Incoming δ η) Running.Action where
  enter := firstCall
  change traffic action :=
    (traffic.running.step action).map fun running => { traffic with running }

/-- The bodies of all calls, with the plexus as it is when they run.  The classes
of ganglia, which decide what is caught, never change. -/
def program (plexus : Plexus) (environment : Environment δ η) :
    Program Traffic (Call δ η) PlexoError where
  run call traffic :=
    let result :=
      traffic.running.plexus.run environment call traffic.reactions
    (result.1, { traffic with reactions := result.2 })
  catches := plexus.catches

/-- Ganglia without further dendrites than `width`. -/
def Within (plexus : Plexus) (width : Nat) : Prop :=
  ∀ id synapse, ((plexus.ganglion id).objects synapse).reactants.length +
    ((plexus.ganglion id).objects synapse).rawReactants.length ≤ width

/-- What holds of a plexus in a run that ends with the ganglia of `last`. -/
structure Good (last : Plexus) (traffic : Traffic) : Prop where
  homed : traffic.running.plexus.Homed
  tracked : traffic.running.Tracked
  subset : traffic.running.plexus.ganglia ⊆ last.ganglia
  few : traffic.running.plexus.ganglia.length ≤ last.ganglia.length

def Inside (traffic : Traffic) (call : Call δ η) : Prop :=
  ∀ ganglion, call.ganglion? = some ganglion →
    ganglion ∈ traffic.running.plexus.ganglia

variable {first last : Plexus} {environment : Environment δ η}

section Rules

variable (first last environment)

/-- Everything that happens keeps calls inside, if ganglia are never taken
away. -/
theorem keeps_inside :
    (program first environment).OpenKeeps around (Good last) Inside where
  starts := by
    intro traffic call good inside child member ganglion isGanglion
    rcases Plexus.made_cases good.homed member with
      ⟨current, target, forwarded⟩ | passed
    · rw [forwarded.ganglion] at isGanglion
      exact Option.some.inj isGanglion ▸ forwarded.inside
    · rcases passed.ganglion with none | same
      · rw [none] at isGanglion
        cases isGanglion
      · exact inside ganglion (same ▸ isGanglion)
  stays := fun _ _ inside => inside
  enters := by
    intro traffic input call _ entered ganglion isGanglion
    cases input with
    | transmit target data neuron reactionId =>
        simp only [around, firstCall] at entered
        split at entered
        · next inside =>
            obtain ⟨⟩ := entered
            exact Option.some.inj isGanglion ▸ inside
        · cases entered
    | receive target data neuron =>
        simp only [around, firstCall] at entered
        split at entered
        · next inside =>
            obtain ⟨synapse, _, rfl⟩ := Option.map_eq_some_iff.mp entered
            exact Option.some.inj isGanglion ▸ inside
        · cases entered
  changes := by
    intro traffic action next call good changed inside ganglion isGanglion
    obtain ⟨running, taken, rfl⟩ := Option.map_eq_some_iff.mp changed
    exact (Running.move_of_step taken).ganglia_subset good.tracked.placed
      (inside ganglion isGanglion)

/-- What a reaction and the calls that it leads to have to do with each other:
they carry its id, whose set contains its ganglion, and they are for other
ganglia. -/
def Leads (traffic : Traffic) (above below : Call δ η) : Prop :=
  ∀ ganglion, above.reaction? = some ganglion →
    ∃ id, below.reactionId? = some id ∧
      ganglion ∈ traffic.reactions.joined id ∧
      below.ganglion? ≠ some ganglion

theorem relates_leads : (program first environment).Relates around
    (Good last) Inside fun _ => Leads where
  starts := by
    intro traffic call good _ child member ganglion reaction
    rcases Plexus.made_cases good.homed member with
      ⟨current, target, forwarded⟩ | passed
    · rw [forwarded.reaction] at reaction
      cases reaction
      have joined : ganglion ∈ ((traffic.running.plexus.run environment call
          traffic.reactions).2.joined
            (traffic.reactions.reactionId call.reactionId?)) := by
        rw [forwarded.joins]
        exact Reactions.mem_joined_join.mpr (.inl ⟨rfl, rfl⟩)
      refine ⟨_, forwarded.reactionId, joined, ?_⟩
      rw [forwarded.ganglion]
      intro same
      exact forwarded.outside (Option.some.inj same ▸ joined)
    · rw [passed.noReaction] at reaction
      cases reaction
  leads := by
    intro _ traffic above call good _ leads child member ganglion reaction
    obtain ⟨id, carries, joined, other⟩ := leads ganglion reaction
    have still := Plexus.grows_run traffic.running.plexus environment call
      traffic.reactions id joined
    rcases Plexus.made_cases good.homed member with
      ⟨current, target, forwarded⟩ | passed
    · have sameId : traffic.reactions.reactionId call.reactionId? = id := by
        rw [carries]
        rfl
      refine ⟨id, by rw [forwarded.reactionId, sameId], still, ?_⟩
      rw [forwarded.ganglion]
      intro same
      apply forwarded.outside
      rw [sameId]
      exact Option.some.inj same ▸ still
    · refine ⟨id, passed.reactionId.trans carries, still, ?_⟩
      rcases passed.ganglion with none | same
      · rw [none]
        exact Option.some_ne_none ganglion ∘ Eq.symm
      · rw [same]
        exact other
  stays := by
    intro _ traffic call above below _ _ _ leads ganglion reaction
    obtain ⟨id, carries, joined, other⟩ := leads ganglion reaction
    exact ⟨id, carries, Plexus.grows_run _ _ _ _ id joined, other⟩
  changes := by
    intro _ traffic action next above below _ changed _ leads
    obtain ⟨running, _, rfl⟩ := Option.map_eq_some_iff.mp changed
    exact leads

/-- How many calls a call can still lead to, one below the other. -/
def rank (last : Plexus) (traffic : Traffic) (call : Call δ η) : Nat :=
  match call.ganglion? with
  | none => 0
  | some ganglion =>
      4 * last.unreached (Plexus.joinedOf traffic.reactions call.reactionId?)
        ganglion + call.stage

theorem rank_mono {before after : Traffic}
    (grows : Plexus.Grows before.reactions after.reactions)
    (call : Call δ η) : rank last after call ≤ rank last before call := by
  unfold rank
  split
  · exact le_rfl
  · next ganglion _ =>
      have less := @Plexus.unreached_mono last _ _
        (Plexus.joinedOf_mono grows call.reactionId?) ganglion
      omega

theorem stage_le (call : Call δ η) : call.stage ≤ 4 := by
  cases call <;> simp [Call.stage]

theorem ranks_calls : (program first environment).Ranks around (Good last) Inside
    (rank last) (4 * last.ganglia.length + 4) where
  lower := by
    intro traffic call good inside child member
    have grows := Plexus.grows_run traffic.running.plexus environment call
      traffic.reactions
    rcases Plexus.made_cases good.homed member with
      ⟨current, target, forwarded⟩ | passed
    · obtain ⟨isCurrent, stage⟩ :=
        Call.ganglion?_of_reaction? forwarded.reaction
      have outside := forwarded.outside
      rw [forwarded.joins] at outside
      have less := Plexus.unreached_join call.reactionId?
        (good.subset forwarded.inside) outside
      simp only [rank, program, isCurrent, stage, forwarded.ganglion,
        forwarded.stage, forwarded.reactionId, forwarded.joins,
        Plexus.joinedOf]
      simp only [Plexus.joinedOf] at less
      omega
    · obtain ⟨ganglion, isGanglion⟩ := passed.isGanglion
      have lower := passed.stage
      rcases passed.ganglion with none | same
      · simp only [rank, none, isGanglion]
        omega
      · have less := @Plexus.unreached_mono last _ _
          (Plexus.joinedOf_mono grows call.reactionId?) ganglion
        simp only [rank, program, same, isGanglion, passed.reactionId]
        omega
  falls := fun _ _ _ => rank_mono last (Plexus.grows_run _ _ _ _) _
  changes := by
    intro traffic action next call _ changed _
    obtain ⟨running, _, rfl⟩ := Option.map_eq_some_iff.mp changed
    exact le_rfl
  bounded := by
    intro traffic input call _ _
    unfold rank
    split
    · exact Nat.zero_le _
    · next ganglion _ =>
        have few : last.unreached (Plexus.joinedOf traffic.reactions
            call.reactionId?) ganglion ≤ last.ganglia.length :=
          List.countP_le_length ..
        have stage := stage_le call
        omega

end Rules

theorem length_calls_le {traffic : Traffic} {width : Nat}
    (within : Within traffic.running.plexus width) (call : Call δ η) :
    ((program first environment).run call traffic).1.calls.length ≤
      width + traffic.running.plexus.ganglia.length + 1 := by
  have all : traffic.running.plexus.internalGanglia.length +
      traffic.running.plexus.externalGanglia.length =
        traffic.running.plexus.ganglia.length :=
    (List.length_append ..).symm
  have nothing : ∀ result : Except PlexoError Unit,
      (outcomeOf result : Outcome (Call δ η) PlexoError).calls.length ≤
        width + traffic.running.plexus.ganglia.length + 1 := by
    intro result
    rw [outcomeOf_calls]
    exact Nat.zero_le _
  cases call with
  | transmit ganglion data neuron id =>
      simp only [program, Plexus.run]
      split
      · exact Nat.zero_le _
      · exact Nat.le_add_left 1 _
  | transmitEncoded ganglion data neuron id =>
      simp only [program, Plexus.run]
      split
      · exact Nat.zero_le _
      · exact Nat.le_add_left 1 _
  | transmitter ganglion transmitter data id =>
      have bound := within ganglion transmitter.synapse
      simp only [program, Plexus.run]
      split
      · split
        · exact Nat.zero_le _
        · simp only [Outcome.calls, List.length_map]
          omega
      · exact nothing _
  | externalTransmitter ganglion synapse data id => exact nothing _
  | transduce ganglion synapse data id =>
      have bound := within ganglion synapse
      simp only [program, Plexus.run]
      split
      · exact Nat.zero_le _
      · split
        · exact Nat.zero_le _
        · simp only [Outcome.calls, List.length_append, List.length_map]
          omega
  | react reactant data neuron id =>
      cases reactant with
      | user _ => exact nothing _
      | attached _ => exact nothing _
      | internalReaction _ current =>
          simp only [program, Plexus.run, Plexus.internalReaction,
            Outcome.calls, List.length_map, List.length_append]
          have internal := List.length_filter_le
            (fun id_ => decide (id_ ∉ (traffic.reactions.join
              (traffic.reactions.reactionId id) current).joined
                (traffic.reactions.reactionId id)))
            traffic.running.plexus.internalGanglia
          have external := List.length_filter_le
            (fun id_ => decide (id_ ∉ (traffic.reactions.join
              (traffic.reactions.reactionId id) current).joined
                (traffic.reactions.reactionId id)))
            traffic.running.plexus.externalGanglia
          omega
      | externalInternalReaction _ _ =>
          simp only [program, Plexus.run, Plexus.externalInternalReaction,
            Outcome.calls, List.length_map]
          refine le_trans (List.length_filter_le ..) ?_
          omega
  | reactRaw _ _ _ _ =>
      simp only [program, Plexus.run, Plexus.externalExternalReaction,
        Outcome.calls, List.length_map]
      refine le_trans (List.length_filter_le ..) ?_
      omega

section Runs

variable {outside : Nat → GanglionClass × Filters} {given : List Nat}
  {relevantNeurons ignoredNeurons : List Neuron}
  {steps : List (Table Traffic (Call δ η) PlexoError ×
    OpenAction (Incoming δ η) Running.Action)}
  {finish : Table Traffic (Call δ η) PlexoError}

/-- A run of a plexus that nothing has been done with yet. -/
abbrev RunOf (first : Plexus) (environment : Environment δ η)
    (steps : List (Table Traffic (Call δ η) PlexoError ×
      OpenAction (Incoming δ η) Running.Action))
    (finish : Table Traffic (Call δ η) PlexoError) : Prop :=
  Path ((program first environment).openStep around) (.empty (start first))
    steps finish

theorem running_cases {table next : Table Traffic (Call δ η) PlexoError}
    {action : OpenAction (Incoming δ η) Running.Action}
    (taken : (program first environment).openStep around table action =
      some next) :
    next.state.running = table.state.running ∨
      ∃ fails, Running.Move table.state.running fails next.state.running := by
  cases openChange_of_step taken with
  | run _ => exact .inl rfl
  | settle _ _ => exact .inl rfl
  | enter _ => exact .inl rfl
  | change changed =>
      obtain ⟨running, moved, rfl⟩ := Option.map_eq_some_iff.mp changed
      exact .inr ⟨_, Running.move_of_step moved⟩

theorem grows_step {table next : Table Traffic (Call δ η) PlexoError}
    {action : OpenAction (Incoming δ η) Running.Action}
    (taken : (program first environment).openStep around table action =
      some next) :
    Plexus.Grows table.state.reactions next.state.reactions := by
  cases openChange_of_step taken with
  | run _ => exact Plexus.grows_run _ _ _ _
  | settle _ _ => exact fun _ => List.Subset.refl _
  | enter _ => exact fun _ => List.Subset.refl _
  | change changed =>
      obtain ⟨running, _, rfl⟩ := Option.map_eq_some_iff.mp changed
      exact fun _ => List.Subset.refl _

theorem sound_of_run
    (run : RunOf (.init outside given relevantNeurons ignoredNeurons)
      environment steps finish) :
    finish.state.running.plexus.Homed ∧ finish.state.running.Tracked := by
  apply run.always
  · exact ⟨Plexus.homed_init outside given relevantNeurons ignoredNeurons,
      Running.tracked_start (Plexus.placed_init ..) rfl⟩
  · intro table action next sound taken
    rcases running_cases taken with same | ⟨fails, moved⟩
    · rw [same]
      exact sound
    · exact ⟨moved.homed sound.1, sound.2.move moved⟩

theorem ganglia_subset_of_run {before after : Table Traffic (Call δ η) PlexoError}
    (run : Path ((program first environment).openStep around) before steps
      after)
    (tracked : before.state.running.Tracked) :
    before.state.running.plexus.ganglia ⊆ after.state.running.plexus.ganglia ∧
      after.state.running.Tracked := by
  apply run.always
  · exact ⟨List.Subset.refl _, tracked⟩
  · intro table action next sound taken
    rcases running_cases taken with same | ⟨fails, moved⟩
    · rw [same]
      exact sound
    · exact ⟨fun id member => moved.ganglia_subset sound.2.placed
        (sound.1 member), sound.2.move moved⟩

theorem good_throughout
    (run : RunOf (.init outside given relevantNeurons ignoredNeurons)
      environment steps finish) :
    Throughout (Good finish.state.running.plexus) steps := by
  rintro ⟨table, action⟩ member
  obtain ⟨late, soon, rfl⟩ := List.append_of_mem member
  obtain ⟨next, before, taken, after⟩ := run.split
  obtain ⟨homed, tracked⟩ := sound_of_run before
  have subset := (ganglia_subset_of_run (.append (.snoc .refl taken) after)
    tracked).1
  exact ⟨homed, tracked, subset,
    (List.subperm_of_subset tracked.placed.nodup subset).length_le⟩

/-- However long a run is, a message leads to a number of calls that is bounded
in terms of the ganglia and the reactants there are, and each of them takes two
steps at most. -/
def CascadesBounded (steps : List (Table Traffic (Call δ η) PlexoError ×
      OpenAction (Incoming δ η) Running.Action))
    (finish : Table Traffic (Call δ η) PlexoError) : Prop :=
  ∀ width, Along (fun table _ => Within table.state.running.plexus width)
    steps → ∀ top < finish.entries.length, ∀ positions : List Nat,
      positions.Nodup →
      (∀ position ∈ positions, ∃ depth, Below finish top depth position) →
      positions.length ≤
        (width + finish.state.running.plexus.ganglia.length + 2) ^
          (4 * finish.state.running.plexus.ganglia.length + 4) ∧
      ∀ position ∈ positions,
        steps.countP (fun entry => acts position entry.2) ≤ 2

/-- A chain in which the reaction of one ganglion forwards to the next, with its
ganglia from the last to the first, and the last of its calls. -/
inductive Chain (table : Table Traffic (Call δ η) PlexoError) :
    Nat → List GanglionId → Prop where
  | first {position : Nat} {ganglion : GanglionId}
      {entry : Entry (Call δ η) PlexoError} :
      table.entries[position]? = some entry →
      entry.call.reaction? = some ganglion →
      Chain table position [ganglion]
  | next {position other depth : Nat} {ganglion : GanglionId}
      {ganglia : List GanglionId} {entry : Entry (Call δ η) PlexoError} :
      Chain table position ganglia →
      Below table position (depth + 1) other →
      table.entries[other]? = some entry →
      entry.call.reaction? = some ganglion →
      Chain table other (ganglion :: ganglia)

/-- In no chain does a ganglion react twice. -/
def ChainsDistinct (finish : Table Traffic (Call δ η) PlexoError) : Prop :=
  ∀ position ganglia, Chain finish position ganglia →
    ganglia.Nodup ∧
      ganglia.length ≤ finish.state.running.plexus.ganglia.length

def Runs (entry : Table Traffic (Call δ η) PlexoError ×
      OpenAction (Incoming δ η) Running.Action) (call : Call δ η) : Prop :=
  ∃ index parent, entry.2 = .pass (.run index) ∧
    entry.1.entries[index]? = some ⟨call, parent, .ready⟩

theorem Runs.unique {entry : Table Traffic (Call δ η) PlexoError ×
      OpenAction (Incoming δ η) Running.Action} {call other : Call δ η}
    (runs : Runs entry call) (also : Runs entry other) : call = other := by
  obtain ⟨index, parent, action, ready⟩ := runs
  obtain ⟨position, maker, again, found⟩ := also
  rw [action] at again
  cases again
  rw [ready] at found
  cases found
  rfl

def Reacts (entry : Table Traffic (Call δ η) PlexoError ×
      OpenAction (Incoming δ η) Running.Action) (id : ReactionId)
    (ganglion : GanglionId) : Prop :=
  ∃ call, Runs entry call ∧ call.reaction? = some ganglion ∧
    entry.1.state.reactions.reactionId call.reactionId? = id

def ForwardsTo (environment : Environment δ η)
    (entry : Table Traffic (Call δ η) PlexoError ×
      OpenAction (Incoming δ η) Running.Action) (id : ReactionId)
    (target : GanglionId) : Prop :=
  ∃ call child, Runs entry call ∧ call.reaction?.isSome = true ∧
    child ∈ (entry.1.state.running.plexus.run environment call
      entry.1.state.reactions).1.calls ∧
    child.ganglion? = some target ∧ child.reactionId? = some id

/-- No reaction forwards to a ganglion that has reacted under its id. -/
def NeverForwardsBack (environment : Environment δ η)
    (steps : List (Table Traffic (Call δ η) PlexoError ×
      OpenAction (Incoming δ η) Running.Action)) : Prop :=
  ∀ late entry soon, steps = late ++ entry :: soon → ∀ id target,
    ForwardsTo environment entry id target →
    ∀ earlier ∈ entry :: soon, ¬ Reacts earlier id target

/-- The ganglia of a chain have reactions above its last call. -/
theorem Chain.above {table : Table Traffic (Call δ η) PlexoError}
    {position : Nat} {ganglia : List GanglionId}
    (chain : Chain table position ganglia) :
    ∀ ganglion ∈ ganglia, ∃ (top depth : Nat)
      (entry : Entry (Call δ η) PlexoError),
      Below table top depth position ∧ table.entries[top]? = some entry ∧
        entry.call.reaction? = some ganglion := by
  induction chain with
  | @first position ganglion entry found reaction =>
      intro other member
      rw [List.mem_singleton.mp member]
      exact ⟨position, 0, entry, .self, found, reaction⟩
  | @next position last depth ganglion ganglia entry _ below found reaction
      induction =>
      intro other member
      rcases List.mem_cons.mp member with rfl | before
      · exact ⟨last, 0, entry, .self, found, reaction⟩
      · obtain ⟨top, above, earlier, under, isTop, reacts⟩ :=
          induction other before
        exact ⟨top, above + (depth + 1), earlier, under.trans below, isTop,
          reacts⟩

theorem chainsDistinct
    (run : RunOf (.init outside given relevantNeurons ignoredNeurons)
      environment steps finish) : ChainsDistinct finish := by
  have good := good_throughout run
  have keeps := keeps_inside (.init outside given relevantNeurons
    ignoredNeurons) finish.state.running.plexus environment
  intro position ganglia chain
  have inside : ganglia ⊆ finish.state.running.plexus.ganglia := by
    intro ganglion member
    obtain ⟨top, _, entry, _, found, reaction⟩ := chain.above ganglion member
    exact keeps.path run good entry.call (Table.mem_calls_of_getElem? found)
      ganglion (Call.ganglion?_of_reaction? reaction).1
  have nodup : ganglia.Nodup := by
    induction chain with
    | first _ _ => exact List.nodup_singleton _
    | @next position last depth ganglion ganglia entry before below found
        reaction induction =>
        apply List.nodup_cons.mpr
        constructor
        · intro again
          obtain ⟨top, above, earlier, under, isTop, reacts⟩ :=
            before.above ganglion again
          have both : Below finish top (above + depth + 1) last :=
            under.trans below
          have leads := (relates_leads _ _ environment).path keeps run good
            both isTop found
          obtain ⟨_, _, _, other⟩ := leads ganglion reacts
          exact other (Call.ganglion?_of_reaction? reaction).1
        · exact induction fun id member =>
            inside (List.mem_cons_of_mem _ member)
  exact ⟨nodup, (List.subperm_of_subset nodup inside).length_le⟩

theorem cascadesBounded
    (run : RunOf (.init outside given relevantNeurons ignoredNeurons)
      environment steps finish) : CascadesBounded steps finish := by
  intro width within top isTop positions nodup below
  refine ⟨?_, fun position _ => countP_acts_le run position⟩
  have good := good_throughout run
  have narrow : Throughout (fun traffic =>
      Within traffic.running.plexus width ∧
        traffic.running.plexus.ganglia.length ≤
          finish.state.running.plexus.ganglia.length) steps :=
    fun entry member => ⟨within entry member, (good entry member).few⟩
  apply (ranks_calls _ _ environment).length_le (keeps_inside _ _ environment)
    _ run good narrow isTop nodup below
  intro traffic call both
  have bound := @length_calls_le _ _ (.init outside given relevantNeurons
    ignoredNeurons) environment traffic width both.1 call
  omega

theorem run_reaction {plexus : Plexus} {call : Call δ η} {current : GanglionId}
    (reaction : call.reaction? = some current) (reactions : Reactions) :
    (plexus.run environment call reactions).2 =
      reactions.join (reactions.reactionId call.reactionId?) current := by
  cases call with
  | react reactant _ _ _ =>
      cases reactant with
      | user _ => cases reaction
      | attached _ => cases reaction
      | internalReaction _ _ =>
          obtain ⟨⟩ := reaction
          rfl
      | externalInternalReaction _ _ =>
          obtain ⟨⟩ := reaction
          rfl
  | reactRaw _ _ _ _ =>
      obtain ⟨⟩ := reaction
      rfl
  | _ => cases reaction

/-- What has reacted under an id is in its set. -/
theorem mem_joined_of_reacts
    (run : RunOf first environment steps finish) {id : ReactionId}
    {ganglion : GanglionId}
    (reacted : ∃ entry ∈ steps, Reacts entry id ganglion) :
    ganglion ∈ finish.state.reactions.joined id := by
  induction run with
  | refl =>
      obtain ⟨_, member, _⟩ := reacted
      cases member
  | @snoc steps table finish action earlier taken induction =>
      obtain ⟨entry, member, reacts⟩ := reacted
      rcases List.mem_cons.mp member with rfl | before
      · obtain ⟨call, ⟨index, parent, rfl, ready⟩, reaction, rfl⟩ := reacts
        have same := (step_run ready).symm.trans taken
        rw [← Option.some.inj same]
        change ganglion ∈ (table.state.running.plexus.run environment call
          table.state.reactions).2.joined _
        rw [run_reaction reaction]
        exact Reactions.mem_joined_join.mpr (.inl ⟨rfl, rfl⟩)
      · exact grows_step taken id (induction ⟨entry, before, reacts⟩)

theorem neverForwardsBack
    (run : RunOf (.init outside given relevantNeurons ignoredNeurons)
      environment steps finish) : NeverForwardsBack environment steps := by
  rintro late ⟨table, action⟩ soon rfl id target forwards earlier member reacts
  obtain ⟨next, before, taken, _⟩ := run.split
  obtain ⟨call, child, runs, isReaction, made, isTarget, carries⟩ := forwards
  have homed := (sound_of_run before).1
  rcases Plexus.made_cases homed made with
    ⟨current, other, forwarded⟩ | passed
  · rw [forwarded.ganglion] at isTarget
    rw [forwarded.reactionId] at carries
    cases isTarget
    cases carries
    apply forwarded.outside
    rcases List.mem_cons.mp member with rfl | older
    · -- A reaction adds its own ganglion first.
      obtain ⟨same, isSame, reaction, _⟩ := reacts
      rw [runs.unique isSame] at forwarded ⊢
      rw [run_reaction reaction]
      exact Reactions.mem_joined_join.mpr (.inl ⟨rfl, rfl⟩)
    · exact Plexus.grows_run _ _ _ _ _
        (mem_joined_of_reacts before ⟨earlier, older, reacts⟩)
  · rw [passed.noReaction] at isReaction
    cases isReaction

/-- Whatever users do meanwhile, a message is passed on finitely often, no
ganglion reacts twice in a chain, and no reaction forwards to a ganglion that has
reacted under its id. -/
theorem routing_terminates
    (run : RunOf (.init outside given relevantNeurons ignoredNeurons)
      environment steps finish) :
    CascadesBounded steps finish ∧ ChainsDistinct finish ∧
      NeverForwardsBack environment steps :=
  ⟨cascadesBounded run, chainsDistinct run, neverForwardsBack run⟩

end Runs

/-- A message that the plexus's own ganglion has handed to its reaction, which
has forwarded it to two others. -/
theorem routing_terminates_three :
    ∃ (steps : List (Table Traffic (Call Nat Nat) PlexoError ×
        OpenAction (Incoming Nat Nat) Running.Action)) (finish : _),
      RunOf (.init (fun index =>
        (if index = 0 then .inproc else .external false, {})) [0, 1] [] [])
          sampleEnvironment steps finish ∧
      8 ≤ finish.entries.length ∧ ChainsDistinct finish ∧
        NeverForwardsBack sampleEnvironment steps := by
  obtain ⟨finish, run, long⟩ := @path_of_any _ _
    ((program (.init (fun index =>
      (if index = 0 then .inproc else .external false, {})) [0, 1] [] [])
        sampleEnvironment).openStep around)
    (.empty (start (.init (fun index =>
      (if index = 0 then .inproc else .external false, {})) [0, 1] [] [])))
    [.change (.call (.adapt sampleNeuron [])), .change (.adapted 0),
      .change (.adapted 1), .change (.adapted 2), .change (.resume 0),
      .enter (.transmit .own 0 sampleNeuron none), .pass (.run 0),
      .pass (.run 1), .pass (.run 2), .pass (.run 3), .pass (.run 5),
      .pass (.run 6)]
    (fun finish => decide (8 ≤ finish.entries.length)) (by decide +kernel)
  obtain ⟨_, distinct, never⟩ := routing_terminates run
  exact ⟨_, finish, run, of_decide_eq_true long, distinct, never⟩

end Traffic

end Plexo
