import Plexo.Library.CallTable
import Plexo.Plexus.Wiring

/-!
# How a plexus passes messages on

Every message that is transmitted or received runs through reactions of the
plexus, which share a set of ganglia for each reaction id: a reaction adds its
own ganglion and transmits to the ganglia that are not in the set.  Between the
`await`s of these functions nothing is suspended: the locks are never contended,
since no critical section contains an `await`.

While a message is passed on, ganglia and dendrites stay as they are.
-/

namespace Plexo

open PersistentMap CallTable Transition

abbrev ReactionId := Nat

/-- The sets of `_reactions`. -/
structure Reactions where
  sets : PMap ReactionId (List GanglionId)
  /-- The next `uuid4()`. -/
  next : ReactionId
  fresh : ∀ id, next ≤ id → sets id = none

namespace Reactions

def init : Reactions := ⟨PMap.empty, 0, fun _ _ => rfl⟩

def joined (reactions : Reactions) (id : ReactionId) : List GanglionId :=
  (reactions.sets id).getD []

/-- The id that `get_reaction_lock` returns. -/
def reactionId (reactions : Reactions) : Option ReactionId → ReactionId
  | none => reactions.next
  | some id => id

def join (reactions : Reactions) (id : ReactionId) (current : GanglionId) :
    Reactions where
  sets := reactions.sets.set id <|
    match reactions.sets id with
    | none => [current]
    | some known => if current ∈ known then known else current :: known
  next := max reactions.next (id + 1)
  fresh := by
    intro other bound
    obtain ⟨known, new⟩ := Nat.max_le.mp bound
    rw [PMap.set_of_ne _ _ (Nat.ne_of_gt new)]
    exact reactions.fresh other known

theorem mem_joined_join {reactions : Reactions} {id other : ReactionId}
    {current ganglion : GanglionId} :
    ganglion ∈ (reactions.join id current).joined other ↔
      (other = id ∧ ganglion = current) ∨ ganglion ∈ reactions.joined other := by
  by_cases same : other = id
  · subst same
    cases known : reactions.sets other with
    | none => simp [join, joined, known]
    | some set =>
        by_cases member : current ∈ set
        · have absorbs : ganglion = current → ganglion ∈ set := by
            intro equal
            rwa [equal]
          simpa [join, joined, known, member] using absorbs
        · simp [join, joined, known, member]
  · simp [join, joined, PMap.set_of_ne _ _ same, same]

theorem joined_next (reactions : Reactions) :
    reactions.joined reactions.next = [] := by
  rw [joined, reactions.fresh _ le_rfl]
  rfl

end Reactions

/-- Everything outside the repository that passing on a message depends on:
codecs, sockets and the reactants of users. -/
structure Environment (δ η : Type) where
  encode : Neuron → δ → Except PlexoError η
  decode : Neuron → η → Except PlexoError δ
  send : GanglionId → η → Except PlexoError Unit
  /-- The call of a reactant, which returns a coroutine or raises. -/
  call : ReactantId → δ → Except PlexoError Unit
  /-- The coroutine of a reactant. -/
  react : ReactantId → δ → Except PlexoError Unit

namespace Environment

variable {δ η : Type} (environment : Environment δ η)

/-- The reactions of a plexus are coroutine functions. -/
def callReactant (data : δ) : Reactant → Except PlexoError Unit
  | .user reactant => environment.call reactant data
  | .attached reactant => environment.call reactant data
  | .internalReaction _ _ => .ok ()
  | .externalInternalReaction _ _ => .ok ()

/-- The generator expression in `transduce`, which calls one reactant after the
other.  If one raises, none of the coroutines before it is ever run. -/
def callReactants (data : δ) : List Reactant → Except PlexoError Unit
  | [] => .ok ()
  | reactant :: reactants =>
      match environment.callReactant data reactant with
      | .error error => .error error
      | .ok () => callReactants data reactants

theorem callReactants_ok_iff {data : δ} {reactants : List Reactant} :
    environment.callReactants data reactants = .ok () ↔
      ∀ reactant ∈ reactants,
        environment.callReactant data reactant = .ok () := by
  induction reactants with
  | nil => simp [callReactants]
  | cons reactant reactants induction =>
      rw [callReactants, List.forall_mem_cons]
      split
      · next raised => simp [raised]
      · next called => simp [called, induction]

/-- The reactants of users return a coroutine when they are called, as their
type says. -/
def Coroutines : Prop :=
  ∀ reactant data, environment.call reactant data = .ok ()

theorem Coroutines.callReactants {environment : Environment δ η}
    (coroutines : environment.Coroutines) (data : δ)
    (reactants : List Reactant) :
    environment.callReactants data reactants = .ok () := by
  apply environment.callReactants_ok_iff.mpr
  intro reactant _
  cases reactant with
  | user reactant => exact coroutines reactant data
  | attached reactant => exact coroutines reactant data
  | internalReaction _ _ => rfl
  | externalInternalReaction _ _ => rfl

end Environment

/-- A call of one of the functions that pass on a message; `δ` is the type of
its data and `η` that of the encoded data. -/
inductive Call (δ η : Type) where
  /-- `transmit` of a ganglion. -/
  | transmit (ganglion : GanglionId) (data : δ) (neuron : Neuron)
      (reactionId : Option ReactionId)
  /-- `transmit_encoded` of a ganglion. -/
  | transmitEncoded (ganglion : GanglionId) (data : η) (neuron : Neuron)
      (reactionId : Option ReactionId)
  /-- A transmitter: `transmit` of an internal synapse, which transduces, or
  `transmit_external_encode`. -/
  | transmitter (ganglion : GanglionId) (transmitter : Transmitter) (data : δ)
      (reactionId : Option ReactionId)
  /-- `transmit_external`. -/
  | externalTransmitter (ganglion : GanglionId) (synapse : SynapseId) (data : η)
      (reactionId : Option ReactionId)
  /-- `transduce` of an external synapse. -/
  | transduce (ganglion : GanglionId) (synapse : SynapseId) (data : η)
      (reactionId : Option ReactionId)
  | react (reactant : Reactant) (data : δ) (neuron : Neuron)
      (reactionId : Option ReactionId)
  | reactRaw (reactant : RawReactant) (data : η) (neuron : Neuron)
      (reactionId : Option ReactionId)

variable {δ η : Type}

def outcomeOf {κ : Type} : Except PlexoError Unit → Outcome κ PlexoError
  | .ok () => .done
  | .error error => .raise error

@[simp] theorem outcomeOf_calls {κ : Type} (result : Except PlexoError Unit) :
    (outcomeOf result : Outcome κ PlexoError).calls = [] := by
  cases result <;> rfl

theorem raises_of_outcomeOf {κ : Type} {result : Except PlexoError Unit}
    {error : PlexoError}
    (raised : (outcomeOf result : Outcome κ PlexoError) = .raise error) :
    result = .error error := by
  cases result with
  | ok _ => cases raised
  | error other =>
      cases raised
      rfl

namespace Plexus

/-- `_internal_reaction`. -/
def internalReaction (plexus : Plexus) (current : GanglionId) (data : δ)
    (neuron : Neuron) (reactionId : Option ReactionId)
    (reactions : Reactions) :
    Outcome (Call δ η) PlexoError × Reactions :=
  let id := reactions.reactionId reactionId
  let reactions := reactions.join id current
  let internal := plexus.internalGanglia.filter (· ∉ reactions.joined id)
  let external := plexus.externalGanglia.filter (· ∉ reactions.joined id)
  (.gather ((internal ++ external).map (.transmit · data neuron (some id))),
    reactions)

/-- `_external_internal_reaction`. -/
def externalInternalReaction (plexus : Plexus) (current : GanglionId) (data : δ)
    (neuron : Neuron) (reactionId : Option ReactionId)
    (reactions : Reactions) :
    Outcome (Call δ η) PlexoError × Reactions :=
  let id := reactions.reactionId reactionId
  let reactions := reactions.join id current
  let internal := plexus.internalGanglia.filter (· ∉ reactions.joined id)
  (.gather (internal.map (.transmit · data neuron (some id))), reactions)

/-- `_external_external_reaction`. -/
def externalExternalReaction (plexus : Plexus) (current : GanglionId) (data : η)
    (neuron : Neuron) (reactionId : Option ReactionId)
    (reactions : Reactions) :
    Outcome (Call δ η) PlexoError × Reactions :=
  let id := reactions.reactionId reactionId
  let reactions := reactions.join id current
  let external := plexus.externalGanglia.filter (· ∉ reactions.joined id)
  (.gather (external.map (.transmitEncoded · data neuron (some id))), reactions)

def run (plexus : Plexus) (environment : Environment δ η) :
    Call δ η → Reactions → Outcome (Call δ η) PlexoError × Reactions
  | .transmit ganglion data neuron reactionId, reactions =>
      match (plexus.ganglion ganglion).base.getTransmitter neuron with
      | .error error => (.raise error, reactions)
      | .ok transmitter =>
          (.gather [.transmitter ganglion transmitter data reactionId],
            reactions)
  | .transmitEncoded ganglion data neuron reactionId, reactions =>
      match (plexus.ganglion ganglion).base.getExternalTransmitter neuron with
      | .error error => (.raise error, reactions)
      | .ok synapse =>
          (.gather [.externalTransmitter ganglion synapse data reactionId],
            reactions)
  | .transmitter ganglion transmitter data reactionId, reactions =>
      match (plexus.ganglion ganglion).cls with
      | .inproc =>
          let dendrite := (plexus.ganglion ganglion).objects transmitter.synapse
          match environment.callReactants data dendrite.reactants with
          | .error error => (.raise error, reactions)
          | .ok () =>
              (.gather (dendrite.reactants.map
                (.react · data dendrite.neuron reactionId)), reactions)
      | .external _ =>
          (outcomeOf (do
            let encoded ← environment.encode transmitter.encoder data
            environment.send ganglion encoded), reactions)
  | .externalTransmitter ganglion _ data _, reactions =>
      (outcomeOf (environment.send ganglion data), reactions)
  | .transduce ganglion synapse data reactionId, reactions =>
      let dendrite := (plexus.ganglion ganglion).objects synapse
      match environment.decode dendrite.neuron data with
      | .error error => (.raise error, reactions)
      | .ok decoded =>
          match environment.callReactants decoded dendrite.reactants with
          | .error error => (.raise error, reactions)
          | .ok () =>
              (.gather
                (dendrite.reactants.map
                    (.react · decoded dendrite.neuron reactionId) ++
                  dendrite.rawReactants.map
                    (.reactRaw · data dendrite.neuron reactionId)), reactions)
  | .react (.user reactant) data _ _, reactions =>
      (outcomeOf (environment.react reactant data), reactions)
  | .react (.attached reactant) data _ _, reactions =>
      (outcomeOf (environment.react reactant data), reactions)
  | .react (.internalReaction _ current) data neuron reactionId, reactions =>
      plexus.internalReaction current data neuron reactionId reactions
  | .react (.externalInternalReaction _ current) data neuron reactionId,
      reactions =>
      plexus.externalInternalReaction current data neuron reactionId reactions
  | .reactRaw ⟨_, current⟩ data neuron reactionId, reactions =>
      plexus.externalExternalReaction current data neuron reactionId reactions

/-- The functions with an `except ValueError` clause: `transduce` of both
dendrites and the reactions of the plexus. -/
def catches (plexus : Plexus) : Call δ η → PlexoError → Bool
  | .transmitter ganglion _ _ _, error =>
      (plexus.ganglion ganglion).cls = .inproc && error.isValueError
  | .transduce _ _ _ _, error => error.isValueError
  | .react (.internalReaction _ _) _ _ _, error => error.isValueError
  | .react (.externalInternalReaction _ _) _ _ _, error => error.isValueError
  | .reactRaw _ _ _ _, error => error.isValueError
  | _, _ => false

def program (plexus : Plexus) (environment : Environment δ η) :
    Program Reactions (Call δ η) PlexoError where
  run := plexus.run environment
  catches := plexus.catches

/-- What the synapse of a ganglion for a neuron decodes a message to. -/
def decodeAt (plexus : Plexus) (environment : Environment δ η)
    (ganglion : GanglionId) (neuron : Neuron) (data : η) :
    Except PlexoError δ :=
  environment.decode ((plexus.ganglion ganglion).dendriteOf neuron).neuron data

/-- Where a message comes from: one that users transmit through an inproc
ganglion, the plexus's own for `Plexus.transmit`, or one that the synapse of an
external ganglion has received. -/
inductive Origin (δ η : Type) where
  | transmit (ganglion : GanglionId) (data : δ)
  | receive (ganglion : GanglionId) (data : η)

def Origin.ganglion : Origin δ η → GanglionId
  | .transmit ganglion _ => ganglion
  | .receive ganglion _ => ganglion

/-- The first call for a message; one that is received needs a synapse. -/
def rootCall (plexus : Plexus) (neuron : Neuron) :
    Origin δ η → Option (Call δ η)
  | .transmit ganglion data => some (.transmit ganglion data neuron none)
  | .receive ganglion data =>
      ((plexus.ganglion ganglion).base.synapses neuron.name).map
        (.transduce ganglion · data none)

/-- A call of a ganglion carries a reaction id whose set contains the origin of
the message, or it is one of the first calls. -/
def Traced (origin : GanglionId) (reactions : Reactions)
    (ganglion : GanglionId) : Option ReactionId → Prop
  | none => ganglion = origin
  | some id => origin ∈ reactions.joined id

/-- The calls that a message from `origin` leads to. -/
def Legal (plexus : Plexus) (origin : GanglionId) (name : String)
    (reactions : Reactions) : Call δ η → Prop
  | .transmit ganglion _ neuron reactionId =>
      ganglion ∈ plexus.ganglia ∧ neuron.name = name ∧
        Traced origin reactions ganglion reactionId
  | .transmitEncoded ganglion _ neuron reactionId =>
      ganglion ∈ plexus.externalGanglia ∧ neuron.name = name ∧
        Traced origin reactions ganglion reactionId
  | .transmitter ganglion transmitter _ reactionId =>
      ganglion ∈ plexus.ganglia ∧
        (plexus.ganglion ganglion).base.transmitters name = some transmitter ∧
        Traced origin reactions ganglion reactionId
  | .externalTransmitter ganglion _ _ _ => ganglion ∈ plexus.ganglia
  | .transduce ganglion synapse _ reactionId =>
      ganglion = origin ∧ origin ∈ plexus.ganglia ∧
        (plexus.ganglion ganglion).base.synapses name = some synapse ∧
        (plexus.ganglion ganglion).cls ≠ .inproc ∧
        Traced origin reactions ganglion reactionId
  | .react reactant _ neuron reactionId =>
      neuron.name = name ∧ ∃ ganglion ∈ plexus.ganglia,
        reactant ∈ (plexus.ganglion ganglion).reactantsOf name ∧
        (ganglion = origin ∨ (plexus.ganglion ganglion).cls = .inproc) ∧
        Traced origin reactions ganglion reactionId
  | .reactRaw reactant _ neuron reactionId =>
      neuron.name = name ∧ reactant.current = origin ∧
        origin ∈ plexus.ganglia ∧ plexus.isGanglionExternal origin = true ∧
        Traced origin reactions origin reactionId

/-- The sets of reactions only grow. -/
def Grows (before after : Reactions) : Prop :=
  ∀ id, before.joined id ⊆ after.joined id

theorem grows_join (reactions : Reactions) (id : ReactionId)
    (current : GanglionId) : Grows reactions (reactions.join id current) :=
  fun _ _ member => Reactions.mem_joined_join.mpr (.inr member)

theorem grows_run (plexus : Plexus) (environment : Environment δ η)
    (call : Call δ η) (reactions : Reactions) :
    Grows reactions (plexus.run environment call reactions).2 := by
  have still : Grows reactions reactions := fun _ => List.Subset.refl _
  cases call with
  | transmit ganglion data neuron reactionId =>
      rw [run]
      split <;> exact still
  | transmitEncoded ganglion data neuron reactionId =>
      rw [run]
      split <;> exact still
  | transmitter ganglion transmitter data reactionId =>
      simp only [run]
      split
      · split <;> exact still
      · exact still
  | externalTransmitter ganglion synapse data reactionId => exact still
  | transduce ganglion synapse data reactionId =>
      simp only [run]
      split
      · exact still
      · split <;> exact still
  | react reactant data neuron reactionId =>
      cases reactant with
      | user reactant => exact still
      | attached reactant => exact still
      | internalReaction object current => exact grows_join _ _ _
      | externalInternalReaction object current => exact grows_join _ _ _
  | reactRaw reactant data neuron reactionId => exact grows_join _ _ _

theorem Traced.mono {origin ganglion : GanglionId}
    {before after : Reactions} {reactionId : Option ReactionId}
    (traced : Traced origin before ganglion reactionId)
    (grows : Grows before after) :
    Traced origin after ganglion reactionId := by
  cases reactionId with
  | none => exact traced
  | some id => exact grows id traced

theorem Legal.mono {plexus : Plexus} {origin : GanglionId} {name : String}
    {before after : Reactions} {call : Call δ η}
    (legal : plexus.Legal origin name before call)
    (grows : Grows before after) : plexus.Legal origin name after call := by
  cases call with
  | transmit ganglion data neuron reactionId =>
      exact ⟨legal.1, legal.2.1, legal.2.2.mono grows⟩
  | transmitEncoded ganglion data neuron reactionId =>
      exact ⟨legal.1, legal.2.1, legal.2.2.mono grows⟩
  | transmitter ganglion synapse data reactionId =>
      exact ⟨legal.1, legal.2.1, legal.2.2.mono grows⟩
  | externalTransmitter ganglion synapse data reactionId => exact legal
  | transduce ganglion synapse data reactionId =>
      obtain ⟨same, inside, known, external, traced⟩ := legal
      exact ⟨same, inside, known, external, traced.mono grows⟩
  | react reactant data neuron reactionId =>
      obtain ⟨named, ganglion, inside, member, kind, traced⟩ := legal
      exact ⟨named, ganglion, inside, member, kind, traced.mono grows⟩
  | reactRaw reactant data neuron reactionId =>
      obtain ⟨named, same, inside, declared, traced⟩ := legal
      exact ⟨named, same, inside, declared, traced.mono grows⟩

theorem mem_joined_of_traced {origin current : GanglionId}
    {reactions : Reactions} {reactionId : Option ReactionId}
    (traced : Traced origin reactions current reactionId) :
    origin ∈ (reactions.join (reactions.reactionId reactionId)
      current).joined (reactions.reactionId reactionId) := by
  apply Reactions.mem_joined_join.mpr
  cases reactionId with
  | none => exact .inl ⟨rfl, Eq.symm traced⟩
  | some id => exact .inr traced

end Plexus

theorem Ganglion.reactantsOf_synapse {ganglion : Ganglion} {name : String}
    {synapse : SynapseId} (known : ganglion.base.synapses name = some synapse) :
    ganglion.reactantsOf name = (ganglion.objects synapse).reactants := by
  simp [reactantsOf, Ganglion.dendrite?, known]

theorem Ganglion.rawReactantsOf_synapse {ganglion : Ganglion} {name : String}
    {synapse : SynapseId} (known : ganglion.base.synapses name = some synapse) :
    ganglion.rawReactantsOf name = (ganglion.objects synapse).rawReactants := by
  simp [rawReactantsOf, Ganglion.dendrite?, known]

theorem GanglionExternalBase.getTransmitter_ok {base : GanglionExternalBase}
    {neuron : Neuron} {transmitter : Transmitter} :
    base.getTransmitter neuron = .ok transmitter ↔
      base.transmitters neuron.name = some transmitter := by
  unfold getTransmitter
  cases base.transmitters neuron.name <;> simp

theorem GanglionExternalBase.getExternalTransmitter_ok
    {base : GanglionExternalBase} {neuron : Neuron} {synapse : SynapseId} :
    base.getExternalTransmitter neuron = .ok synapse ↔
      base.externalTransmitters neuron.name = some synapse := by
  unfold getExternalTransmitter
  cases base.externalTransmitters neuron.name <;> simp

namespace Plexus

variable {plexus : Plexus} {origin : GanglionId} {first : Neuron}

/-- Calling the reactants of a ganglion for a neuron raises nothing. -/
def Callable (plexus : Plexus) (environment : Environment δ η) (name : String)
    (data : δ) (id : GanglionId) : Prop :=
  environment.callReactants data ((plexus.ganglion id).reactantsOf name) =
    .ok ()

theorem callable_of_coroutines {environment : Environment δ η}
    (coroutines : environment.Coroutines) (plexus : Plexus) (name : String)
    (data : δ) (id : GanglionId) : plexus.Callable environment name data id :=
  coroutines.callReactants data _

theorem callable_synapse {environment : Environment δ η} {name : String}
    {data : δ} {id : GanglionId} {synapse : SynapseId}
    (found : (plexus.ganglion id).base.synapses name = some synapse) :
    plexus.Callable environment name data id ↔
      environment.callReactants data
        ((plexus.ganglion id).objects synapse).reactants = .ok () := by
  rw [Callable, Ganglion.reactantsOf_synapse found]

/-- The calls that a call makes. -/
inductive Made (plexus : Plexus) (environment : Environment δ η)
    (reactions : Reactions) : Call δ η → Call δ η → Prop where
  | transmitter {ganglion : GanglionId} {data : δ} {neuron : Neuron}
      {reactionId : Option ReactionId} {transmitter : Transmitter} :
      (plexus.ganglion ganglion).base.transmitters neuron.name =
        some transmitter →
      Made plexus environment reactions
        (.transmit ganglion data neuron reactionId)
        (.transmitter ganglion transmitter data reactionId)
  | externalTransmitter {ganglion : GanglionId} {data : η} {neuron : Neuron}
      {reactionId : Option ReactionId} {synapse : SynapseId} :
      (plexus.ganglion ganglion).base.externalTransmitters neuron.name =
        some synapse →
      Made plexus environment reactions
        (.transmitEncoded ganglion data neuron reactionId)
        (.externalTransmitter ganglion synapse data reactionId)
  | react {ganglion : GanglionId} {transmitter : Transmitter} {data : δ}
      {reactionId : Option ReactionId} {reactant : Reactant} :
      (plexus.ganglion ganglion).cls = .inproc →
      reactant ∈
        ((plexus.ganglion ganglion).objects transmitter.synapse).reactants →
      environment.callReactants data
        ((plexus.ganglion ganglion).objects transmitter.synapse).reactants =
          .ok () →
      Made plexus environment reactions
        (.transmitter ganglion transmitter data reactionId)
        (.react reactant data
          ((plexus.ganglion ganglion).objects transmitter.synapse).neuron
          reactionId)
  | reactDecoded {ganglion : GanglionId} {synapse : SynapseId} {data : η}
      {decoded : δ} {reactionId : Option ReactionId} {reactant : Reactant} :
      environment.decode ((plexus.ganglion ganglion).objects synapse).neuron
        data = .ok decoded →
      reactant ∈ ((plexus.ganglion ganglion).objects synapse).reactants →
      environment.callReactants decoded
        ((plexus.ganglion ganglion).objects synapse).reactants = .ok () →
      Made plexus environment reactions
        (.transduce ganglion synapse data reactionId)
        (.react reactant decoded
          ((plexus.ganglion ganglion).objects synapse).neuron reactionId)
  | reactRaw {ganglion : GanglionId} {synapse : SynapseId} {data : η}
      {decoded : δ} {reactionId : Option ReactionId}
      {reactant : RawReactant} :
      environment.decode ((plexus.ganglion ganglion).objects synapse).neuron
        data = .ok decoded →
      reactant ∈ ((plexus.ganglion ganglion).objects synapse).rawReactants →
      environment.callReactants decoded
        ((plexus.ganglion ganglion).objects synapse).reactants = .ok () →
      Made plexus environment reactions
        (.transduce ganglion synapse data reactionId)
        (.reactRaw reactant data
          ((plexus.ganglion ganglion).objects synapse).neuron reactionId)
  | forward {object : Nat} {current target : GanglionId} {data : δ}
      {neuron : Neuron} {reactionId : Option ReactionId} :
      target ∈ plexus.ganglia →
      target ∉ (reactions.join (reactions.reactionId reactionId)
        current).joined (reactions.reactionId reactionId) →
      Made plexus environment reactions
        (.react (.internalReaction object current) data neuron reactionId)
        (.transmit target data neuron (some (reactions.reactionId reactionId)))
  | forwardInternal {object : Nat} {current target : GanglionId} {data : δ}
      {neuron : Neuron} {reactionId : Option ReactionId} :
      target ∈ plexus.internalGanglia →
      target ∉ (reactions.join (reactions.reactionId reactionId)
        current).joined (reactions.reactionId reactionId) →
      Made plexus environment reactions
        (.react (.externalInternalReaction object current) data neuron
          reactionId)
        (.transmit target data neuron (some (reactions.reactionId reactionId)))
  | forwardExternal {object : Nat} {current target : GanglionId} {data : η}
      {neuron : Neuron} {reactionId : Option ReactionId} :
      target ∈ plexus.externalGanglia →
      target ∉ (reactions.join (reactions.reactionId reactionId)
        current).joined (reactions.reactionId reactionId) →
      Made plexus environment reactions
        (.reactRaw ⟨object, current⟩ data neuron reactionId)
        (.transmitEncoded target data neuron
          (some (reactions.reactionId reactionId)))

section Bodies

variable (environment : Environment δ η) {reactions : Reactions}
  {ganglion : GanglionId} {synapse : SynapseId} {transmitter : Transmitter}
  {reactionId : Option ReactionId}

theorem run_transmit {neuron : Neuron} (data : δ)
    (found : (plexus.ganglion ganglion).base.transmitters neuron.name =
      some transmitter) :
    plexus.run environment (.transmit ganglion data neuron reactionId)
        reactions =
      (.gather [.transmitter ganglion transmitter data reactionId],
        reactions) := by
  rw [run, GanglionExternalBase.getTransmitter_ok.mpr found]

theorem run_transmitEncoded {neuron : Neuron} (data : η)
    (found : (plexus.ganglion ganglion).base.externalTransmitters neuron.name =
      some synapse) :
    plexus.run environment (.transmitEncoded ganglion data neuron reactionId)
        reactions =
      (.gather [.externalTransmitter ganglion synapse data reactionId],
        reactions) := by
  rw [run, GanglionExternalBase.getExternalTransmitter_ok.mpr found]

theorem run_transmitter (data : δ)
    (inproc : (plexus.ganglion ganglion).cls = .inproc)
    (called : environment.callReactants data
      ((plexus.ganglion ganglion).objects transmitter.synapse).reactants =
        .ok ()) :
    plexus.run environment (.transmitter ganglion transmitter data reactionId)
        reactions =
      (.gather
        (((plexus.ganglion ganglion).objects transmitter.synapse).reactants.map
          (.react · data
            ((plexus.ganglion ganglion).objects transmitter.synapse).neuron
            reactionId)), reactions) := by
  simp only [run, inproc, called]

theorem run_transduce {data : η} {decoded : δ}
    (decodes : environment.decode
      ((plexus.ganglion ganglion).objects synapse).neuron data =
        .ok decoded)
    (called : environment.callReactants decoded
      ((plexus.ganglion ganglion).objects synapse).reactants = .ok ()) :
    plexus.run environment (.transduce ganglion synapse data reactionId)
        reactions =
      (.gather
        (((plexus.ganglion ganglion).objects synapse).reactants.map
            (.react · decoded
              ((plexus.ganglion ganglion).objects synapse).neuron reactionId) ++
          ((plexus.ganglion ganglion).objects synapse).rawReactants.map
            (.reactRaw · data
              ((plexus.ganglion ganglion).objects synapse).neuron
              reactionId)), reactions) := by
  simp only [run, decodes, called]

end Bodies

theorem made_of_mem {environment : Environment δ η} {reactions : Reactions}
    {call child : Call δ η}
    (made : child ∈ (plexus.run environment call reactions).1.calls) :
    plexus.Made environment reactions call child := by
  cases call with
  | transmit ganglion data neuron reactionId =>
      rw [run] at made
      split at made
      · cases made
      · next synapse found =>
          rw [List.mem_singleton.mp made]
          exact .transmitter (GanglionExternalBase.getTransmitter_ok.mp found)
  | transmitEncoded ganglion data neuron reactionId =>
      rw [run] at made
      split at made
      · cases made
      · next synapse found =>
          rw [List.mem_singleton.mp made]
          exact .externalTransmitter
            (GanglionExternalBase.getExternalTransmitter_ok.mp found)
  | transmitter ganglion transmitter data reactionId =>
      simp only [run] at made
      split at made
      · next inproc =>
          split at made
          · cases made
          · next called =>
              obtain ⟨reactant, member, rfl⟩ := List.mem_map.mp made
              exact .react inproc member called
      · rw [outcomeOf_calls] at made
        cases made
  | externalTransmitter ganglion synapse data reactionId =>
      rw [run, outcomeOf_calls] at made
      cases made
  | transduce ganglion synapse data reactionId =>
      simp only [run] at made
      split at made
      · cases made
      · next decoded found =>
          split at made
          · cases made
          · next called =>
              rcases List.mem_append.mp made with inDecoded | inRaw
              · obtain ⟨reactant, member, rfl⟩ := List.mem_map.mp inDecoded
                exact .reactDecoded found member called
              · obtain ⟨reactant, member, rfl⟩ := List.mem_map.mp inRaw
                exact .reactRaw found member called
  | react reactant data neuron reactionId =>
      cases reactant with
      | user reactant =>
          rw [run, outcomeOf_calls] at made
          cases made
      | attached reactant =>
          rw [run, outcomeOf_calls] at made
          cases made
      | internalReaction object current =>
          obtain ⟨target, member, rfl⟩ := List.mem_map.mp made
          rw [← List.filter_append] at member
          obtain ⟨inside, outside⟩ := List.mem_filter.mp member
          exact .forward inside (by simpa using outside)
      | externalInternalReaction object current =>
          obtain ⟨target, member, rfl⟩ := List.mem_map.mp made
          obtain ⟨inside, outside⟩ := List.mem_filter.mp member
          exact .forwardInternal inside (by simpa using outside)
  | reactRaw reactant data neuron reactionId =>
      obtain ⟨target, member, rfl⟩ := List.mem_map.mp made
      obtain ⟨inside, outside⟩ := List.mem_filter.mp member
      exact .forwardExternal inside (by simpa using outside)

theorem legal_starts (settled : plexus.Settled) (known : first ∈ plexus.neurons)
    (environment : Environment δ η) {reactions : Reactions} {call : Call δ η}
    (legal : plexus.Legal origin first.name reactions call) :
    ∀ child ∈ (plexus.run environment call reactions).1.calls,
      plexus.Legal origin first.name
        (plexus.run environment call reactions).2 child := by
  intro child member
  have grows := grows_run plexus environment call reactions
  cases made_of_mem member with
  | transmitter found =>
      obtain ⟨inside, named, traced⟩ := legal
      rw [named] at found
      exact ⟨inside, found, traced.mono grows⟩
  | externalTransmitter found => exact List.mem_append_right _ legal.1
  | @react ganglion transmitter data reactionId reactant inproc attached =>
      obtain ⟨inside, transmits, traced⟩ := legal
      have found := (plexus.ganglion ganglion).connected.transmitters transmits
      rw [← Ganglion.reactantsOf_synapse found] at attached
      exact ⟨((plexus.ganglion ganglion).connected.named found).2, ganglion,
        inside, attached, .inr inproc, traced.mono grows⟩
  | @reactDecoded ganglion synapse data decoded reactionId reactant _
      attached =>
      obtain ⟨rfl, inside, found, _, traced⟩ := legal
      rw [← Ganglion.reactantsOf_synapse found] at attached
      exact ⟨((plexus.ganglion ganglion).connected.named found).2, ganglion,
        inside, attached, .inl rfl, traced.mono grows⟩
  | @reactRaw ganglion synapse data decoded reactionId reactant _ attached =>
      obtain ⟨rfl, inside, found, _, traced⟩ := legal
      rw [← Ganglion.rawReactantsOf_synapse found] at attached
      have named := ((plexus.ganglion ganglion).connected.named found).2
      rcases (settled.station known inside).rawReactants with
        ⟨object, raws, _, declared⟩ | ⟨none, _⟩
      · rw [raws] at attached
        rw [List.mem_singleton.mp attached]
        exact ⟨named, rfl, inside, declared, traced.mono grows⟩
      · rw [none] at attached
        cases attached
  | @forward object current target data neuron reactionId isGanglion _ =>
      obtain ⟨named, ganglion, inside, attached, _, traced⟩ := legal
      obtain ⟨rfl, _⟩ := (settled.station known inside).belongs _ attached
      exact ⟨isGanglion, named, mem_joined_of_traced traced⟩
  | @forwardInternal object current target data neuron reactionId isGanglion
      _ =>
      obtain ⟨named, ganglion, inside, attached, _, traced⟩ := legal
      obtain ⟨rfl, _⟩ := (settled.station known inside).belongs _ attached
      exact ⟨List.mem_append_left _ isGanglion, named,
        mem_joined_of_traced traced⟩
  | @forwardExternal object current target data neuron reactionId isGanglion
      _ =>
      obtain ⟨named, rfl, inside, declared, traced⟩ := legal
      exact ⟨isGanglion, named, mem_joined_of_traced traced⟩

theorem keeps_legal (settled : plexus.Settled) (known : first ∈ plexus.neurons)
    (environment : Environment δ η) :
    (plexus.program environment).Keeps
      (plexus.Legal origin first.name) where
  starts := legal_starts settled known environment
  stays := fun _ legal => legal.mono (grows_run _ _ _ _)

theorem legal_root {neuron : Neuron} {source : Origin δ η} {root : Call δ η}
    {reactions : Reactions} (inside : source.ganglion ∈ plexus.ganglia)
    (named : first.name = neuron.name)
    (received : ∀ ganglion data, source = .receive ganglion data →
      (plexus.ganglion ganglion).cls ≠ .inproc)
    (rooted : plexus.rootCall neuron source = some root) :
    plexus.Legal source.ganglion first.name reactions root := by
  cases source with
  | transmit ganglion data =>
      obtain ⟨⟩ := rooted
      exact ⟨inside, Eq.symm named, rfl⟩
  | receive ganglion data =>
      obtain ⟨synapse, found, rfl⟩ := Option.map_eq_some_iff.mp rooted
      rw [← named] at found
      exact ⟨rfl, inside, found, received ganglion data rfl, rfl⟩

end Plexus

/-- The data of a message, and the bytes in which it was received. -/
structure Content (δ η : Type) where
  data : δ
  bytes : Option η

namespace Plexus

variable {plexus : Plexus} {origin : GanglionId} {first : Neuron}

/-- A call that passes on a message. -/
def Carries (plexus : Plexus) (environment : Environment δ η)
    (message : Content δ η) : Call δ η → Prop
  | .transmit _ data _ _ => data = message.data
  | .transmitEncoded _ data _ _ => some data = message.bytes
  | .transmitter _ _ data _ => data = message.data
  | .externalTransmitter _ _ data _ => some data = message.bytes
  | .transduce ganglion synapse data _ =>
      some data = message.bytes ∧
        environment.decode ((plexus.ganglion ganglion).objects synapse).neuron
          data = .ok message.data
  | .react _ data _ _ => data = message.data
  | .reactRaw _ data _ _ => some data = message.bytes

theorem keeps_carries (plexus : Plexus) (environment : Environment δ η)
    (message : Content δ η) : (plexus.program environment).Keeps
      fun _ => plexus.Carries environment message := by
  constructor
  · intro reactions call carries child member
    cases made_of_mem member with
    | transmitter _ => exact carries
    | externalTransmitter _ => exact carries
    | react _ _ => exact carries
    | reactDecoded decodes _ =>
        have same := carries.2
        rw [decodes] at same
        exact Except.ok.inj same
    | reactRaw _ _ => exact carries.1
    | forward _ _ => exact carries
    | forwardInternal _ _ => exact carries
    | forwardExternal _ _ => exact carries
  · exact fun _ carries => carries

/-- The message that comes from an origin, if it decodes. -/
def message? (plexus : Plexus) (environment : Environment δ η)
    (neuron : Neuron) : Origin δ η → Option (Content δ η)
  | .transmit _ data => some ⟨data, none⟩
  | .receive ganglion data =>
      match plexus.decodeAt environment ganglion neuron data with
      | .ok decoded => some ⟨decoded, some data⟩
      | .error _ => none

theorem decodeAt_synapse {plexus : Plexus} {environment : Environment δ η}
    {ganglion : GanglionId} {neuron : Neuron} {synapse : SynapseId}
    (found : (plexus.ganglion ganglion).base.synapses neuron.name =
      some synapse) (data : η) :
    plexus.decodeAt environment ganglion neuron data =
      environment.decode ((plexus.ganglion ganglion).objects synapse).neuron
        data := by
  simp [decodeAt, Ganglion.dendriteOf, Ganglion.dendrite?, found]

theorem carries_root {plexus : Plexus} {environment : Environment δ η}
    {neuron : Neuron} {source : Origin δ η} {root : Call δ η}
    {message : Content δ η} (rooted : plexus.rootCall neuron source = some root)
    (sent : plexus.message? environment neuron source = some message) :
    plexus.Carries environment message root := by
  cases source with
  | transmit ganglion data =>
      obtain ⟨⟩ := rooted
      obtain ⟨⟩ := sent
      rfl
  | receive ganglion data =>
      obtain ⟨synapse, found, rfl⟩ := Option.map_eq_some_iff.mp rooted
      rw [message?, decodeAt_synapse found] at sent
      split at sent
      · next decoded decodes =>
          obtain ⟨⟩ := sent
          exact ⟨rfl, decodes⟩
      · cases sent

/-- Who has called its reactants without an exception before a call: the ganglion
where the message comes from, unless the call takes it there, and the one that a
reaction or a reactant of users belongs to. -/
def Called (plexus : Plexus) (environment : Environment δ η) (name : String)
    (origin : GanglionId) (data : δ) : Call δ η → Prop
  | .transmit ganglion _ _ _ =>
      ganglion = origin ∨ plexus.Callable environment name data origin
  | .transmitter ganglion _ _ _ =>
      ganglion = origin ∨ plexus.Callable environment name data origin
  | .transmitEncoded _ _ _ _ => plexus.Callable environment name data origin
  | .externalTransmitter _ _ _ _ => True
  | .transduce _ _ _ _ => True
  | .react (.internalReaction _ current) _ _ _ =>
      plexus.Callable environment name data origin ∧
        plexus.Callable environment name data current
  | .react (.externalInternalReaction _ current) _ _ _ =>
      plexus.Callable environment name data origin ∧
        plexus.Callable environment name data current
  | .react (.user _) _ _ _ =>
      plexus.Callable environment name data origin ∧
        plexus.Callable environment name data .own
  | .react (.attached _) _ _ _ => plexus.Callable environment name data origin
  | .reactRaw _ _ _ _ => plexus.Callable environment name data origin

theorem called_react {environment : Environment δ η} {name : String}
    {data other : δ} {id : GanglionId} {reactant : Reactant} {neuron : Neuron}
    {reactionId : Option ReactionId} (belongs : reactant.belongs (plexus.ganglion id) id)
    (origin_ : plexus.Callable environment name data origin)
    (here : plexus.Callable environment name data id) :
    plexus.Called environment name origin data
      (.react reactant other neuron reactionId) := by
  cases reactant with
  | user _ =>
      obtain rfl : id = .own := belongs
      exact ⟨origin_, here⟩
  | attached _ => exact origin_
  | internalReaction _ _ =>
      obtain ⟨rfl, _⟩ := belongs
      exact ⟨origin_, here⟩
  | externalInternalReaction _ _ =>
      obtain ⟨rfl, _⟩ := belongs
      exact ⟨origin_, here⟩

theorem called_starts (settled : plexus.Settled) (known : first ∈ plexus.neurons)
    {environment : Environment δ η} {reactions : Reactions} {call : Call δ η}
    {message : Content δ η}
    (legal : plexus.Legal origin first.name reactions call)
    (carries : plexus.Carries environment message call)
    (called : plexus.Called environment first.name origin message.data call) :
    ∀ child ∈ (plexus.run environment call reactions).1.calls,
      plexus.Called environment first.name origin message.data child := by
  intro child member
  cases made_of_mem member with
  | transmitter _ => exact called
  | externalTransmitter _ => trivial
  | @react ganglion transmitter data reactionId reactant _ attached raisesNot =>
      obtain ⟨inside, transmits, _⟩ := legal
      obtain rfl : data = message.data := carries
      have found := (plexus.ganglion ganglion).connected.transmitters transmits
      have here := (callable_synapse found).mpr raisesNot
      rw [← Ganglion.reactantsOf_synapse found] at attached
      have belongs := (settled.station known inside).belongs _ attached
      rcases called with rfl | before
      · exact called_react belongs here here
      · exact called_react belongs before here
  | @reactDecoded ganglion synapse data decoded reactionId reactant decodes
      attached raisesNot =>
      obtain ⟨rfl, inside, found, _⟩ := legal
      obtain rfl : decoded = message.data := by
        have same := carries.2
        rw [decodes] at same
        exact Except.ok.inj same
      have here := (callable_synapse found).mpr raisesNot
      rw [← Ganglion.reactantsOf_synapse found] at attached
      exact called_react ((settled.station known inside).belongs _ attached)
        here here
  | @reactRaw ganglion synapse data decoded reactionId reactant decodes _
      raisesNot =>
      obtain ⟨rfl, _, found, _⟩ := legal
      obtain rfl : decoded = message.data := by
        have same := carries.2
        rw [decodes] at same
        exact Except.ok.inj same
      exact (callable_synapse found).mpr raisesNot
  | forward _ _ => exact .inr called.1
  | forwardInternal _ _ => exact .inr called.1
  | forwardExternal _ _ => exact called

theorem keeps_called (settled : plexus.Settled) (known : first ∈ plexus.neurons)
    (environment : Environment δ η) (message : Content δ η) :
    (plexus.program environment).Keeps fun reactions call =>
      (plexus.Legal origin first.name reactions call ∧
        plexus.Carries environment message call) ∧
          plexus.Called environment first.name origin message.data call := by
  have both := (@keeps_legal _ _ plexus origin first settled known
    environment).and (plexus.keeps_carries environment message)
  constructor
  · intro reactions call sound child member
    exact ⟨both.starts sound.1 child member,
      called_starts settled known sound.1.1 sound.1.2 sound.2 child member⟩
  · exact fun runs other => ⟨both.stays runs.1 other.1, other.2⟩

theorem called_root {neuron : Neuron} {source : Origin δ η} {root : Call δ η}
    {environment : Environment δ η} {name : String} {data : δ}
    (rooted : plexus.rootCall neuron source = some root) :
    plexus.Called environment name source.ganglion data root := by
  cases source with
  | transmit ganglion data =>
      obtain ⟨⟩ := rooted
      exact .inl rfl
  | receive ganglion data =>
      obtain ⟨synapse, _, rfl⟩ := Option.map_eq_some_iff.mp rooted
      trivial

end Plexus

end Plexo
