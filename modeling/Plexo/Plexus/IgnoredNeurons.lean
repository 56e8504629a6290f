import Plexo.Plexus.Adaptation

/-!
# Neurons that a ganglion is not capable of

Only `adapt` asks a ganglion whether it is capable of a neuron.  An axon whose
`adapt` has been declined, and a plexus that is asked to react, attach reactants
all the same, which creates the synapse.
-/

namespace Plexo

open Transition

/-- What an axon belongs to: a plexus is a ganglion, too. -/
inductive Target where
  | plexus
  | ganglion (id : GanglionId)
  deriving DecidableEq

def Target.id : Target → GanglionId
  | .plexus => .own
  | .ganglion id => id

structure Axon where
  neuron : Neuron
  target : Target
  startupDone : Bool := false

/-- How the `adapt` of a ganglion ends that is capable of the neuron. -/
inductive AdaptEnd where
  | returns
  | raises (error : PlexoError) (attached attachedRaw : Bool)

def AdaptEnd.error? : AdaptEnd → Option PlexoError
  | .returns => none
  | .raises error _ _ => some error

def userReactant : GanglionId → ReactantId → Reactant
  | .own => .user
  | .other _ => .attached

namespace Ganglion

/-- Nothing raises in an inproc ganglion, nor before a neuron is accepted. -/
def endOf (ganglion : Ganglion) (neuron : Neuron) (ending : AdaptEnd) :
    AdaptEnd :=
  if ganglion.capable neuron = false ∨ ganglion.cls = .inproc then .returns
  else ending

/-- `adapt`, up to where it ends. -/
def adaptUntil (ganglion : Ganglion) (neuron : Neuron)
    (reactants : List Reactant) (rawReactants : List RawReactant) :
    AdaptEnd → Ganglion
  | .returns => ganglion.adapt neuron reactants rawReactants
  | .raises _ attached attachedRaw =>
      ganglion.adaptPartly neuron reactants rawReactants attached attachedRaw

/-- `_create_synapse_by_name` is called and raises. -/
def reactFails (ganglion : Ganglion) (neuron : Neuron)
    (raised : Option PlexoError) : Bool :=
  ganglion.cls ≠ .inproc && (ganglion.base.synapses neuron.name).isNone &&
    raised.isSome

end Ganglion

namespace Plexus

/-- `adapt` of the ganglion of a pair. -/
def adaptPair (plexus : Plexus) (ends : GanglionId → AdaptEnd)
    (pair : Neuron × GanglionId) : Plexus :=
  match (plexus.ganglion pair.2).endOf pair.1 (ends pair.2) with
  | .returns => plexus.adaptGanglion pair
  | .raises _ attached attachedRaw =>
      plexus.failGanglion pair attached attachedRaw

/-- The exception that comes out of the `gather` of all pairs. -/
def gathered (plexus : Plexus) (ends : GanglionId → AdaptEnd)
    (pairs : List (Neuron × GanglionId)) : Option PlexoError :=
  pairs.findSome? fun pair =>
    ((plexus.ganglion pair.2).endOf pair.1 (ends pair.2)).error?

/-- `adapt`, with the exception that it raises. -/
def adaptCall (plexus : Plexus) (neuron : Neuron) (reactants : List ReactantId)
    (ends : GanglionId → AdaptEnd) : Option PlexoError × Plexus :=
  if plexus.capable neuron = false then
    (none, plexus)
  else
    let plexus :=
      if reactants = [] then plexus else plexus.react neuron reactants
    let (pairs, plexus) := plexus.updateNeurons neuron
    let raised := plexus.gathered ends pairs
    let plexus := pairs.foldl (·.adaptPair ends ·) plexus
    match raised with
    | none => (none, plexus.updateInproc neuron)
    | some error =>
        if error.isValueError then (none, plexus.updateInproc neuron)
        else (some error, plexus)

/-- `adapt` of one of the ganglia. -/
def adaptOne (plexus : Plexus) (id : GanglionId) (neuron : Neuron)
    (reactants : List Reactant) (rawReactants : List RawReactant)
    (ending : AdaptEnd) : Option PlexoError × Plexus :=
  let ending := (plexus.ganglion id).endOf neuron ending
  (ending.error?,
    plexus.onGanglion id (·.adaptUntil neuron reactants rawReactants ending))

/-- `react` of one of the ganglia; `raised` is what the creation of a synapse
raises. -/
def reactOne (plexus : Plexus) (id : GanglionId) (neuron : Neuron)
    (reactants : List ReactantId) (raised : Option PlexoError) : Plexus :=
  if (plexus.ganglion id).reactFails neuron raised then plexus
  else
    plexus.onGanglion id (·.react neuron (reactants.map (userReactant id)))

/-- `self.ganglion.adapt` of an axon. -/
def adaptTarget (plexus : Plexus) (neuron : Neuron)
    (ends : GanglionId → AdaptEnd) : Target → Option PlexoError × Plexus
  | .plexus => plexus.adaptCall neuron [] ends
  | .ganglion id => plexus.adaptOne id neuron [] [] (ends id)

end Plexus

/-- A plexus, the ganglia there are, and axons. -/
structure Usage where
  plexus : Plexus
  axons : List Axon := []

namespace Usage

inductive UserCall where
  | axon (neuron : Neuron) (target : Target)
  | axonAdapt (index : Nat) (ends : GanglionId → AdaptEnd)
  | axonReact (index : Nat) (reactants : List ReactantId)
      (ends : GanglionId → AdaptEnd) (raised : Option PlexoError)
  | axonTransmit (index : Nat) (ends : GanglionId → AdaptEnd)
  | plexusAdapt (neuron : Neuron) (reactants : List ReactantId)
      (ends : GanglionId → AdaptEnd)
  | plexusReact (neuron : Neuron) (reactants : List ReactantId)
  | ganglionAdapt (id : GanglionId) (neuron : Neuron)
      (reactants : List Reactant) (rawReactants : List RawReactant)
      (ending : AdaptEnd)
  /-- The startup of a `GanglionPlexoMulticast` creates the synapse of one of the
  protocol neurons; `adapt` follows. -/
  | createReserved (id : GanglionId) (neuron : ProtocolNeuron)

/-- `Axon.adapt`. -/
def adaptAxon (usage : Usage) (index : Nat) (axon : Axon)
    (ends : GanglionId → AdaptEnd) : Option PlexoError × Usage :=
  match usage.plexus.adaptTarget axon.neuron ends axon.target with
  | (some error, plexus) => (some error, { usage with plexus })
  | (none, plexus) =>
      (none,
        { plexus
          axons := usage.axons.set index { axon with startupDone := true } })

/-- The first lines of `react` and `transmit` of an axon. -/
def startAxon (usage : Usage) (index : Nat) (axon : Axon)
    (ends : GanglionId → AdaptEnd) : Option PlexoError × Usage :=
  if axon.startupDone then (none, usage) else usage.adaptAxon index axon ends

def step (usage : Usage) : UserCall → Option Usage
  | .axon neuron target =>
      some { usage with axons := usage.axons ++ [{ neuron, target }] }
  | .axonAdapt index ends =>
      usage.axons[index]?.map fun axon => (usage.adaptAxon index axon ends).2
  | .axonReact index reactants ends raised =>
      usage.axons[index]?.map fun axon =>
        match usage.startAxon index axon ends with
        | (some _, usage) => usage
        | (none, usage) =>
            { usage with
              plexus := usage.plexus.reactOne axon.target.id axon.neuron
                reactants raised }
  -- The message is transmitted, which creates nothing.
  | .axonTransmit index ends =>
      usage.axons[index]?.map fun axon => (usage.startAxon index axon ends).2
  | .plexusAdapt neuron reactants ends =>
      some { usage with
        plexus := (usage.plexus.adaptCall neuron reactants ends).2 }
  | .plexusReact neuron reactants =>
      some { usage with plexus := usage.plexus.react neuron reactants }
  | .ganglionAdapt id neuron reactants rawReactants ending =>
      some { usage with
        plexus := (usage.plexus.adaptOne id neuron reactants rawReactants
          ending).2 }
  | .createReserved id neuron =>
      match (usage.plexus.ganglion id).cls with
      | .inproc => none
      | .external _ =>
          some { usage with
            plexus := usage.plexus.onGanglion id
              fun ganglion => (ganglion.getSynapse neuron.toNeuron).2 }

end Usage

/-- Every name with a synapse or a transmitter belongs to a neuron that the
ganglion is capable of. -/
def Ganglion.KeepsOut (ganglion : Ganglion) : Prop :=
  ∀ name, (ganglion.base.synapses name).isSome ∨
      (ganglion.base.transmitters name).isSome ∨
      (ganglion.base.externalTransmitters name).isSome →
    ∃ dendrite, ganglion.dendrite? name = some dendrite ∧
      dendrite.neuron.name = name ∧ ganglion.capable dendrite.neuron = true

def Plexus.KeepsOut (plexus : Plexus) : Prop :=
  ∀ id, (plexus.ganglion id).KeepsOut

namespace Ganglion

variable {ganglion : Ganglion} {neuron : Neuron}

theorem dendrite?_name {name : String} {dendrite : DecoderDendrite}
    (found : ganglion.dendrite? name = some dendrite) :
    dendrite.neuron.name = name := by
  obtain ⟨synapse, known, rfl⟩ := Option.map_eq_some_iff.mp found
  exact (ganglion.connected.named known).2

theorem keepsOut_iff : ganglion.KeepsOut ↔
    ∀ name dendrite, ganglion.dendrite? name = some dendrite →
      ganglion.capable dendrite.neuron = true := by
  constructor
  · intro keeps name dendrite found
    obtain ⟨synapse, known, _⟩ := Option.map_eq_some_iff.mp found
    obtain ⟨other, same, _, capable⟩ := keeps name (.inl (by simp [known]))
    rw [found] at same
    cases same
    exact capable
  · intro all name registered
    have known : (ganglion.base.synapses name).isSome = true := by
      rcases registered with synapse | transmitter | external
      · exact synapse
      · obtain ⟨synapse, found⟩ := Option.isSome_iff_exists.mp transmitter
        simp [ganglion.connected.transmitters found]
      · obtain ⟨synapse, found⟩ := Option.isSome_iff_exists.mp external
        simp [ganglion.connected.externalTransmitters found]
    obtain ⟨synapse, known⟩ := Option.isSome_iff_exists.mp known
    have found : ganglion.dendrite? name = some (ganglion.objects synapse) := by
      simp [Ganglion.dendrite?, known]
    exact ⟨_, found, dendrite?_name found, all name _ found⟩

/-- There is a synapse, or the ganglion is capable of the neuron. -/
def accepts (ganglion : Ganglion) (neuron : Neuron) : Bool :=
  ganglion.capable neuron || (ganglion.base.synapses neuron.name).isSome

theorem accepts_iff (keeps : ganglion.KeepsOut) :
    ganglion.accepts neuron = true ↔
      ganglion.capable (ganglion.dendriteOf neuron).neuron = true := by
  unfold accepts Ganglion.dendriteOf
  cases found : ganglion.dendrite? neuron.name with
  | none =>
      have absent : ganglion.base.synapses neuron.name = none := by
        simpa [Ganglion.dendrite?] using found
      simp [absent]
  | some dendrite =>
      have capable := keepsOut_iff.mp keeps _ _ found
      obtain ⟨synapse, known, _⟩ := Option.map_eq_some_iff.mp found
      simp [known, capable]

/-- An operation on the dendrite of one neuron keeps other neurons out exactly
if there is a synapse or the ganglion is capable of the neuron. -/
theorem Changes.keepsOut_iff {after : Ganglion} {dendrite : DecoderDendrite}
    (changed : Changes ganglion after neuron dendrite)
    (same : dendrite.neuron = (ganglion.dendriteOf neuron).neuron)
    (keeps : ganglion.KeepsOut) :
    after.KeepsOut ↔ ganglion.accepts neuron = true := by
  have capable : ∀ other, after.capable other = ganglion.capable other := by
    intro other
    simp only [Ganglion.capable, GanglionExternalBase.capable, changed.filters]
  rw [accepts_iff keeps, Ganglion.keepsOut_iff, ← same]
  constructor
  · intro all
    rw [← capable]
    exact all neuron.name dendrite (by rw [changed.dendrite?, if_pos rfl])
  · intro accepted name other found
    rw [capable]
    rw [changed.dendrite?] at found
    split at found
    · cases found
      exact accepted
    · exact Ganglion.keepsOut_iff.mp keeps name other found

theorem react_keepsOut_iff (keeps : ganglion.KeepsOut)
    (reactants : List Reactant) :
    (ganglion.react neuron reactants).KeepsOut ↔
      ganglion.accepts neuron = true :=
  (ganglion.react_changes neuron reactants).keepsOut_iff rfl keeps

theorem accepts_of_capable (capable : ganglion.capable neuron = true) :
    ganglion.accepts neuron = true := by
  simp [accepts, capable]

theorem KeepsOut.updateTransmitter (keeps : ganglion.KeepsOut)
    (accepted : ganglion.accepts neuron = true) :
    (ganglion.updateTransmitter neuron).KeepsOut :=
  ((ganglion.updateTransmitter_changes neuron).keepsOut_iff rfl keeps).mpr
    accepted

theorem KeepsOut.adapt (keeps : ganglion.KeepsOut) (neuron : Neuron)
    (reactants : List Reactant) (rawReactants : List RawReactant) :
    (ganglion.adapt neuron reactants rawReactants).KeepsOut := by
  cases capable : ganglion.capable neuron with
  | false =>
      rw [adapt_of_not_capable capable]
      exact keeps
  | true =>
      exact ((adapt_changes capable reactants rawReactants).keepsOut_iff rfl
        keeps).mpr (accepts_of_capable capable)

theorem KeepsOut.adaptPartly (keeps : ganglion.KeepsOut)
    (capable : ganglion.capable neuron = true) (reactants : List Reactant)
    (rawReactants : List RawReactant) (attached attachedRaw : Bool) :
    (ganglion.adaptPartly neuron reactants rawReactants attached
      attachedRaw).KeepsOut := by
  have reacted : ∀ {other : Ganglion}, other.KeepsOut →
      other.capable neuron = true →
        (other.reactRaw neuron rawReactants).KeepsOut := by
    intro other keeps capable
    exact ((other.reactRaw_changes neuron rawReactants).keepsOut_iff rfl
      keeps).mpr (accepts_of_capable capable)
  have decoded := (react_keepsOut_iff keeps reactants).mpr
    (accepts_of_capable capable)
  have still : (ganglion.react neuron reactants).capable neuron = true := by
    simpa only [Ganglion.capable, GanglionExternalBase.capable,
      (ganglion.react_changes neuron reactants).filters] using capable
  unfold Ganglion.adaptPartly
  cases attached with
  | false =>
      cases attachedRaw with
      | false => exact keeps
      | true => exact reacted keeps capable
  | true =>
      cases attachedRaw with
      | false => exact decoded
      | true => exact reacted decoded still

theorem KeepsOut.adaptUntil (keeps : ganglion.KeepsOut)
    (reactants : List Reactant) (rawReactants : List RawReactant)
    (ending : AdaptEnd) :
    (ganglion.adaptUntil neuron reactants rawReactants
      (ganglion.endOf neuron ending)).KeepsOut := by
  unfold Ganglion.endOf
  split
  · exact keeps.adapt neuron reactants rawReactants
  · next accepted =>
      cases ending with
      | returns => exact keeps.adapt neuron reactants rawReactants
      | raises error attached attachedRaw =>
          apply keeps.adaptPartly
          simpa using (not_or.mp accepted).1

theorem adaptUntil_keeps (ganglion : Ganglion) (neuron : Neuron)
    (reactants : List Reactant) (rawReactants : List RawReactant)
    (ending : AdaptEnd) :
    (ganglion.adaptUntil neuron reactants rawReactants ending).cls =
        ganglion.cls ∧
      (ganglion.adaptUntil neuron reactants rawReactants
        ending).base.filters = ganglion.base.filters := by
  cases ending with
  | returns => exact adapt_keeps ..
  | raises error attached attachedRaw => exact adaptPartly_keeps ..

end Ganglion

namespace Plexus

variable {plexus : Plexus}

theorem KeepsOut.onGanglion_iff (keeps : plexus.KeepsOut) {after : Plexus}
    {id : GanglionId} {ganglion : Ganglion}
    (changed : after.ganglion = Function.update plexus.ganglion id ganglion) :
    after.KeepsOut ↔ ganglion.KeepsOut := by
  unfold KeepsOut
  rw [changed]
  constructor
  · intro all
    have here := all id
    rwa [Function.update_self] at here
  · intro here other
    by_cases same : other = id
    · subst same
      rwa [Function.update_self]
    · rw [Function.update_of_ne same]
      exact keeps other

theorem SameKinds.trans {first second third : Plexus}
    (before : SameKinds first second) (after : SameKinds second third) :
    SameKinds first third :=
  ⟨fun id => (after.cls id).trans (before.cls id),
    fun id => (after.filters id).trans (before.filters id)⟩

/-- A plexus that has kept neurons out so far. -/
structure Sound (plexus : Plexus) : Prop where
  placed : plexus.Placed
  keepsOut : plexus.KeepsOut

theorem Placed.adaptPair (placed : plexus.Placed) (ends : GanglionId → AdaptEnd)
    (pair : Neuron × GanglionId) : (plexus.adaptPair ends pair).Placed := by
  unfold Plexus.adaptPair
  split
  · exact placed.congr (adaptGanglion_sameKinds plexus pair)
  · exact placed.congr (failGanglion_sameKinds plexus pair _ _)

theorem KeepsOut.adaptPair (keeps : plexus.KeepsOut)
    (ends : GanglionId → AdaptEnd) (pair : Neuron × GanglionId) :
    (plexus.adaptPair ends pair).KeepsOut := by
  have kept := @Ganglion.KeepsOut.adaptUntil _ pair.1 (keeps pair.2)
    (plexus.reactionsFor pair.2).1 (plexus.reactionsFor pair.2).2 (ends pair.2)
  unfold Plexus.adaptPair
  split
  · next returns =>
      rw [returns] at kept
      exact (keeps.onGanglion_iff rfl).mpr kept
  · next raises =>
      rw [raises] at kept
      exact (keeps.onGanglion_iff rfl).mpr kept

/-- The rule for `adapt` of a plexus: what its parts keep, the whole keeps,
whether it raises or not. -/
theorem adaptCall_keeps {holds : Plexus → Prop} (initial : holds plexus)
    (neuron : Neuron) (reactants : List ReactantId)
    (ends : GanglionId → AdaptEnd)
    (reacts : ∀ other : Plexus, holds other → other.capable neuron = true →
      holds (other.react neuron reactants))
    (updates : ∀ other : Plexus, holds other →
      holds (other.updateNeurons neuron).2)
    (adapts : ∀ (other : Plexus) pair, holds other →
      holds (other.adaptPair ends pair))
    (leaves : ∀ other : Plexus, holds other → other.capable neuron = true →
      holds (other.updateInproc neuron)) :
    holds (plexus.adaptCall neuron reactants ends).2 := by
  have fold : ∀ (pairs : List (Neuron × GanglionId)) (other : Plexus),
      holds other → other.capable neuron = true →
      holds (pairs.foldl (·.adaptPair ends ·) other) ∧
        (pairs.foldl (·.adaptPair ends ·) other).capable neuron = true := by
    intro pairs
    induction pairs with
    | nil => exact fun other held capable => ⟨held, capable⟩
    | cons pair pairs induction =>
        intro other held capable
        apply induction _ (adapts other pair held)
        have filters : (other.adaptPair ends pair).filters = other.filters := by
          unfold adaptPair
          split <;> rfl
        rw [Plexus.capable, filters]
        exact capable
  unfold adaptCall
  split
  · exact initial
  · next accepted =>
      have capable : plexus.capable neuron = true := by simpa using accepted
      have reacted : holds (if reactants = [] then plexus
          else plexus.react neuron reactants) := by
        split
        · exact initial
        · exact reacts plexus initial capable
      have still : (if reactants = [] then plexus
          else plexus.react neuron reactants).capable neuron = true := by
        split
        · exact capable
        · exact capable
      obtain ⟨adapted, after⟩ := fold ((if reactants = [] then plexus
        else plexus.react neuron reactants).updateNeurons neuron).1 _
          (updates _ reacted) still
      dsimp only
      split
      · exact leaves _ adapted after
      · split
        · exact leaves _ adapted after
        · exact adapted

theorem Placed.own_capable (placed : plexus.Placed) (neuron : Neuron) :
    (plexus.ganglion .own).capable neuron = plexus.capable neuron := by
  rw [Ganglion.capable, GanglionExternalBase.capable, placed.ownFilters]
  rfl

theorem Placed.adaptOne (placed : plexus.Placed) (id : GanglionId)
    (neuron : Neuron) (reactants : List Reactant)
    (rawReactants : List RawReactant) (ending : AdaptEnd) :
    (plexus.adaptOne id neuron reactants rawReactants ending).2.Placed :=
  placed.congr (sameKinds_update rfl (Ganglion.adaptUntil_keeps ..).1
    (Ganglion.adaptUntil_keeps ..).2)

theorem Sound.adaptOne (sound : plexus.Sound) (id : GanglionId)
    (neuron : Neuron) (reactants : List Reactant)
    (rawReactants : List RawReactant) (ending : AdaptEnd) :
    (plexus.adaptOne id neuron reactants rawReactants ending).2.Sound :=
  ⟨sound.placed.adaptOne id neuron reactants rawReactants ending,
    (sound.keepsOut.onGanglion_iff rfl).mpr
      ((sound.keepsOut id).adaptUntil reactants rawReactants ending)⟩

theorem Sound.updateInproc (sound : plexus.Sound) {neuron : Neuron}
    (capable : plexus.capable neuron = true) :
    (plexus.updateInproc neuron).Sound := by
  refine ⟨sound.placed.congr (updateInproc_sameKinds plexus neuron), ?_⟩
  apply (sound.keepsOut.onGanglion_iff rfl).mpr
  apply (sound.keepsOut .own).updateTransmitter
  apply Ganglion.accepts_of_capable
  rw [sound.placed.own_capable, capable]

theorem react_keepsOut_iff (keeps : plexus.KeepsOut) (neuron : Neuron)
    (reactants : List ReactantId) :
    (plexus.react neuron reactants).KeepsOut ↔
      (plexus.ganglion .own).accepts neuron = true := by
  exact (keeps.onGanglion_iff rfl).trans
    (Ganglion.react_keepsOut_iff (keeps .own) _)

theorem Sound.adaptCall (sound : plexus.Sound) (neuron : Neuron)
    (reactants : List ReactantId) (ends : GanglionId → AdaptEnd) :
    (plexus.adaptCall neuron reactants ends).2.Sound := by
  apply adaptCall_keeps sound
  · intro other sound capable
    refine ⟨sound.placed.react neuron reactants, ?_⟩
    apply (react_keepsOut_iff sound.keepsOut neuron reactants).mpr
    apply Ganglion.accepts_of_capable
    rw [sound.placed.own_capable, capable]
  · exact fun other sound =>
      ⟨sound.placed.updateNeurons neuron, sound.keepsOut⟩
  · exact fun other pair sound => ⟨sound.placed.adaptPair ends pair,
      sound.keepsOut.adaptPair ends pair⟩
  · exact fun other sound capable => sound.updateInproc capable

theorem Placed.adaptCall (placed : plexus.Placed) (neuron : Neuron)
    (reactants : List ReactantId) (ends : GanglionId → AdaptEnd) :
    (plexus.adaptCall neuron reactants ends).2.Placed := by
  apply adaptCall_keeps placed
  · exact fun other placed _ => placed.react neuron reactants
  · exact fun other placed => placed.updateNeurons neuron
  · exact fun other pair placed => placed.adaptPair ends pair
  · exact fun other placed _ =>
      placed.congr (updateInproc_sameKinds other neuron)

theorem adaptCall_sameKinds (plexus : Plexus) (neuron : Neuron)
    (reactants : List ReactantId) (ends : GanglionId → AdaptEnd) :
    SameKinds plexus (plexus.adaptCall neuron reactants ends).2 := by
  apply @adaptCall_keeps plexus (SameKinds plexus) (.refl plexus)
  · exact fun other same _ => same.trans (react_sameKinds ..)
  · exact fun other same => ⟨same.cls, same.filters⟩
  · intro other pair same
    unfold adaptPair
    split
    · exact same.trans (adaptGanglion_sameKinds other pair)
    · exact same.trans (failGanglion_sameKinds other pair _ _)
  · exact fun other same _ => same.trans (updateInproc_sameKinds other neuron)

theorem adaptTarget_of_not_capable {neuron : Neuron} {target : Target}
    (placed : plexus.Placed)
    (incapable : (plexus.ganglion target.id).capable neuron = false)
    (ends : GanglionId → AdaptEnd) :
    (plexus.adaptTarget neuron ends target).1 = none ∧
      (plexus.adaptTarget neuron ends target).2.ganglion = plexus.ganglion := by
  cases target with
  | plexus =>
      have own : plexus.capable neuron = false :=
        (placed.own_capable neuron).symm.trans incapable
      simp [adaptTarget, adaptCall, own]
  | ganglion id =>
      have ending : (plexus.ganglion id).endOf neuron (ends id) = .returns :=
        if_pos (.inl incapable)
      have same : (plexus.ganglion id).adaptUntil neuron [] [] .returns =
          plexus.ganglion id := Ganglion.adapt_of_not_capable incapable [] []
      refine ⟨?_, ?_⟩
      · simp [adaptTarget, adaptOne, ending, AdaptEnd.error?]
      · simp only [adaptTarget, adaptOne, ending, onGanglion, same]
        exact Function.update_eq_self id plexus.ganglion

theorem Sound.adaptTarget (sound : plexus.Sound) (neuron : Neuron)
    (ends : GanglionId → AdaptEnd) (target : Target) :
    (plexus.adaptTarget neuron ends target).2.Sound := by
  cases target with
  | plexus => exact sound.adaptCall neuron [] ends
  | ganglion id => exact sound.adaptOne id neuron [] [] (ends id)

theorem Placed.adaptTarget (placed : plexus.Placed) (neuron : Neuron)
    (ends : GanglionId → AdaptEnd) (target : Target) :
    (plexus.adaptTarget neuron ends target).2.Placed := by
  cases target with
  | plexus => exact placed.adaptCall neuron [] ends
  | ganglion id => exact placed.adaptOne id neuron [] [] (ends id)

theorem adaptTarget_sameKinds (plexus : Plexus) (neuron : Neuron)
    (ends : GanglionId → AdaptEnd) (target : Target) :
    SameKinds plexus (plexus.adaptTarget neuron ends target).2 := by
  cases target with
  | plexus => exact adaptCall_sameKinds plexus neuron [] ends
  | ganglion id =>
      exact sameKinds_update rfl (Ganglion.adaptUntil_keeps ..).1
        (Ganglion.adaptUntil_keeps ..).2

theorem Placed.reactOne (placed : plexus.Placed) (id : GanglionId)
    (neuron : Neuron) (reactants : List ReactantId)
    (raised : Option PlexoError) :
    (plexus.reactOne id neuron reactants raised).Placed := by
  unfold Plexus.reactOne
  split
  · exact placed
  · exact placed.congr (react_sameKinds ..)

theorem reactOne_keepsOut_iff (keeps : plexus.KeepsOut) (id : GanglionId)
    (neuron : Neuron) (reactants : List ReactantId)
    (raised : Option PlexoError) :
    (plexus.reactOne id neuron reactants raised).KeepsOut ↔
      ((plexus.ganglion id).reactFails neuron raised ||
        (plexus.ganglion id).accepts neuron) = true := by
  unfold reactOne
  cases fails : (plexus.ganglion id).reactFails neuron raised with
  | true => simpa using keeps
  | false =>
      rw [if_neg Bool.false_ne_true, Bool.false_or]
      exact (keeps.onGanglion_iff rfl).trans
        (Ganglion.react_keepsOut_iff (keeps id) _)

end Plexus

namespace Usage

def KeepsOut (usage : Usage) : Prop := usage.plexus.KeepsOut

/-- The calls that create synapses only for neurons that the ganglion is capable
of. -/
def checks (usage : Usage) : UserCall → Bool
  | .axonReact index _ _ raised =>
      match usage.axons[index]? with
      | none => true
      | some axon =>
          (usage.plexus.ganglion axon.target.id).reactFails axon.neuron raised ||
            (usage.plexus.ganglion axon.target.id).accepts axon.neuron
  | .plexusReact neuron _ => (usage.plexus.ganglion .own).accepts neuron
  | .createReserved id neuron =>
      (usage.plexus.ganglion id).accepts neuron.toNeuron
  | _ => true

theorem startAxon_keeps {usage : Usage} {holds : Plexus → Prop}
    (initial : holds usage.plexus) {index : Nat} {axon : Axon}
    {ends : GanglionId → AdaptEnd}
    (adapted :
      holds (usage.plexus.adaptTarget axon.neuron ends axon.target).2) :
    holds (usage.adaptAxon index axon ends).2.plexus ∧
      holds (usage.startAxon index axon ends).2.plexus := by
  have done : holds (usage.adaptAxon index axon ends).2.plexus := by
    unfold adaptAxon
    split
    · next raised =>
        rw [raised] at adapted
        exact adapted
    · next returned =>
        rw [returned] at adapted
        exact adapted
  refine ⟨done, ?_⟩
  unfold startAxon
  split
  · exact initial
  · exact done

theorem startAxon_of_not_capable {usage : Usage} {axon : Axon}
    (placed : usage.plexus.Placed)
    (incapable : (usage.plexus.ganglion axon.target.id).capable axon.neuron =
      false) (index : Nat) (ends : GanglionId → AdaptEnd) :
    (usage.startAxon index axon ends).1 = none ∧
      (usage.startAxon index axon ends).2.plexus.ganglion =
        usage.plexus.ganglion := by
  obtain ⟨returned, same⟩ :=
    Plexus.adaptTarget_of_not_capable placed incapable ends
  unfold startAxon adaptAxon
  split
  · exact ⟨rfl, rfl⟩
  · split
    · next raised =>
        rw [raised] at returned
        cases returned
    · next found =>
        rw [found] at same
        exact ⟨rfl, same⟩

theorem step_placed (usage : Usage) (call : UserCall) (next : Usage)
    (placed : usage.plexus.Placed) (taken : usage.step call = some next) :
    next.plexus.Placed := by
  have started : ∀ index axon ends,
      (usage.adaptAxon index axon ends).2.plexus.Placed ∧
        (usage.startAxon index axon ends).2.plexus.Placed := by
    intro index axon ends
    exact startAxon_keeps placed (placed.adaptTarget axon.neuron ends axon.target)
  cases call with
  | axon neuron target =>
      obtain ⟨⟩ := taken
      exact placed
  | axonAdapt index ends =>
      obtain ⟨axon, _, rfl⟩ := Option.map_eq_some_iff.mp taken
      exact (started index axon ends).1
  | axonReact index reactants ends raised =>
      obtain ⟨axon, _, rfl⟩ := Option.map_eq_some_iff.mp taken
      have after := (started index axon ends).2
      split
      · next failed =>
          rw [failed] at after
          exact after
      · next returned =>
          rw [returned] at after
          exact after.reactOne axon.target.id axon.neuron reactants raised
  | axonTransmit index ends =>
      obtain ⟨axon, _, rfl⟩ := Option.map_eq_some_iff.mp taken
      exact (started index axon ends).2
  | plexusAdapt neuron reactants ends =>
      obtain ⟨⟩ := taken
      exact placed.adaptCall neuron reactants ends
  | plexusReact neuron reactants =>
      obtain ⟨⟩ := taken
      exact placed.react neuron reactants
  | ganglionAdapt id neuron reactants rawReactants ending =>
      obtain ⟨⟩ := taken
      exact placed.adaptOne id neuron reactants rawReactants ending
  | createReserved id neuron =>
      have found := (usage.plexus.ganglion id).getSynapse_changes
        neuron.toNeuron
      simp only [step] at taken
      split at taken
      · cases taken
      · obtain ⟨⟩ := taken
        exact placed.congr (Plexus.sameKinds_update rfl found.cls found.filters)

/-- `react` of an axon, after its `adapt`. -/
theorem axonReact_keepsOut_iff {usage : Usage} (sound : usage.plexus.Sound)
    {index : Nat} {axon : Axon} (reactants : List ReactantId)
    (ends : GanglionId → AdaptEnd) (raised : Option PlexoError) :
    (match usage.startAxon index axon ends with
      | (some _, usage) => usage
      | (none, usage) =>
          { usage with
            plexus := usage.plexus.reactOne axon.target.id axon.neuron
              reactants raised } : Usage).KeepsOut ↔
      ((usage.plexus.ganglion axon.target.id).reactFails axon.neuron raised ||
        (usage.plexus.ganglion axon.target.id).accepts axon.neuron) =
          true := by
  cases capable : (usage.plexus.ganglion axon.target.id).capable axon.neuron with
  | false =>
      obtain ⟨returned, same⟩ :=
        startAxon_of_not_capable sound.placed capable index ends
      split
      · next failed =>
          rw [failed] at returned
          cases returned
      · next after found =>
          rw [found] at same
          dsimp only at same
          have keeps : after.plexus.KeepsOut := by
            unfold Plexus.KeepsOut
            rw [same]
            exact sound.keepsOut
          rw [← same]
          exact Plexus.reactOne_keepsOut_iff keeps ..
  | true =>
      have accepted := Ganglion.accepts_of_capable capable
      have after := (@startAxon_keeps usage Plexus.Sound sound index axon ends
        (sound.adaptTarget axon.neuron ends axon.target)).2
      have kinds := (@startAxon_keeps usage usage.plexus.SameKinds
        (.refl usage.plexus) index axon ends
        (usage.plexus.adaptTarget_sameKinds axon.neuron ends axon.target)).2
      rw [accepted, Bool.or_true]
      apply iff_of_true _ rfl
      split
      · next failed =>
          rw [failed] at after
          exact after.keepsOut
      · next returned =>
          rw [returned] at after kinds
          apply (Plexus.reactOne_keepsOut_iff after.keepsOut ..).mpr
          rw [Ganglion.accepts_of_capable, Bool.or_true]
          rw [Ganglion.capable, GanglionExternalBase.capable, kinds.filters]
          exact capable

theorem step_keepsOut_iff (usage : Usage) (call : UserCall) (next : Usage)
    (placed : usage.plexus.Placed) (keeps : usage.KeepsOut)
    (taken : usage.step call = some next) :
    next.KeepsOut ↔ usage.checks call = true := by
  have sound : usage.plexus.Sound := ⟨placed, keeps⟩
  have started : ∀ index axon ends,
      (usage.adaptAxon index axon ends).2.plexus.Sound ∧
        (usage.startAxon index axon ends).2.plexus.Sound := by
    intro index axon ends
    exact startAxon_keeps sound (sound.adaptTarget axon.neuron ends axon.target)
  cases call with
  | axon neuron target =>
      obtain ⟨⟩ := taken
      exact iff_of_true keeps rfl
  | axonAdapt index ends =>
      obtain ⟨axon, _, rfl⟩ := Option.map_eq_some_iff.mp taken
      exact iff_of_true (started index axon ends).1.keepsOut rfl
  | axonReact index reactants ends raised =>
      obtain ⟨axon, found, rfl⟩ := Option.map_eq_some_iff.mp taken
      rw [checks, found]
      exact axonReact_keepsOut_iff sound reactants ends raised
  | axonTransmit index ends =>
      obtain ⟨axon, _, rfl⟩ := Option.map_eq_some_iff.mp taken
      exact iff_of_true (started index axon ends).2.keepsOut rfl
  | plexusAdapt neuron reactants ends =>
      obtain ⟨⟩ := taken
      exact iff_of_true (sound.adaptCall neuron reactants ends).keepsOut rfl
  | plexusReact neuron reactants =>
      obtain ⟨⟩ := taken
      exact Plexus.react_keepsOut_iff keeps neuron reactants
  | ganglionAdapt id neuron reactants rawReactants ending =>
      obtain ⟨⟩ := taken
      exact iff_of_true
        (sound.adaptOne id neuron reactants rawReactants ending).keepsOut rfl
  | createReserved id neuron =>
      have found := (usage.plexus.ganglion id).getSynapse_changes
        neuron.toNeuron
      simp only [step] at taken
      split at taken
      · cases taken
      · obtain ⟨⟩ := taken
        exact (keeps.onGanglion_iff rfl).trans
          (found.keepsOut_iff rfl (keeps id))

def start (outside : Nat → GanglionClass × Filters) (given : List Nat)
    (relevantNeurons ignoredNeurons : List Neuron) : Usage :=
  { plexus := .init outside given relevantNeurons ignoredNeurons }

theorem keepsOut_start (outside : Nat → GanglionClass × Filters)
    (given : List Nat) (relevantNeurons ignoredNeurons : List Neuron) :
    (start outside given relevantNeurons ignoredNeurons).KeepsOut := by
  intro id
  apply Ganglion.keepsOut_iff.mpr
  intro name dendrite found
  cases id with
  | own => simp [start, Plexus.init, Ganglion.dendrite?, Ganglion.init] at found
  | other index =>
      simp [start, Plexus.init, Ganglion.dendrite?, Ganglion.init] at found

/-- Neurons that a ganglion is not capable of stay out of it throughout a run
exactly if `react` of an axon or of the plexus, and the startup of a multicast
ganglion, are only ever about neurons that the ganglion is capable of or that
have a synapse. -/
theorem keepsOut_throughout_iff {outside : Nat → GanglionClass × Filters}
    {given : List Nat} {relevantNeurons ignoredNeurons : List Neuron}
    {steps : List (Usage × UserCall)} {finish : Usage}
    (path : Path step (start outside given relevantNeurons ignoredNeurons) steps
      finish) :
    (finish.KeepsOut ∧ ∀ entry ∈ steps, entry.1.KeepsOut) ↔
      Along (fun usage call => usage.checks call = true) steps := by
  have initial : (start outside given relevantNeurons
      ignoredNeurons).plexus.Placed := Plexus.placed_init ..
  rw [path.throughout_iff initial step_placed step_keepsOut_iff]
  exact and_iff_right
    (keepsOut_start outside given relevantNeurons ignoredNeurons)

/-- An axon whose neuron its ganglion accepts. -/
theorem keepsOut_throughout_accepted :
    ∃ finish, exec step
        (start (fun _ => (.external false, { relevantNeurons := [sampleNeuron] }))
          [] [] [])
        [.axon sampleNeuron (.ganglion (.other 0)),
          .axonReact 0 [7] (fun _ => .returns) none] = some finish ∧
      (finish.plexus.ganglion (.other 0)).reactantsOf sampleNeuron.name =
        [.attached 7] ∧ finish.KeepsOut := by
  have passed : (exec step
      (start (fun _ => (.external false, { relevantNeurons := [sampleNeuron] }))
        [] [] [])
      [.axon sampleNeuron (.ganglion (.other 0)),
        .axonReact 0 [7] (fun _ => .returns) none]).any (fun finish =>
          decide ((finish.plexus.ganglion (.other 0)).reactantsOf
            sampleNeuron.name = [.attached 7])) = true := by
    decide +kernel
  obtain ⟨finish, ran, reacts⟩ := (Option.any_eq_true _ _).mp passed
  have along : Along (fun usage call => usage.checks call = true)
      (visited step
        (start (fun _ => (.external false,
          { relevantNeurons := [sampleNeuron] })) [] [] []) []
        [.axon sampleNeuron (.ganglion (.other 0)),
          .axonReact 0 [7] (fun _ => .returns) none]) := by
    decide +kernel
  exact ⟨finish, ran, of_decide_eq_true reacts,
    ((keepsOut_throughout_iff (path_of_exec ran)).mpr along).1⟩

/-- `adapt` declines the neuron, and the axon goes on to attach its reactants. -/
theorem not_keepsOut_axon :
    ∃ finish, exec step
        (start (fun _ => (.external false, { ignoredNeurons := [sampleNeuron] }))
          [] [] [])
        [.axon sampleNeuron (.ganglion (.other 0)),
          .axonReact 0 [7] (fun _ => .returns) none] = some finish ∧
      (finish.plexus.ganglion (.other 0)).capable sampleNeuron = false ∧
      (finish.plexus.ganglion (.other 0)).reactantsOf sampleNeuron.name =
        [.attached 7] ∧ ¬ finish.KeepsOut := by
  have passed : (exec step
      (start (fun _ => (.external false, { ignoredNeurons := [sampleNeuron] }))
        [] [] [])
      [.axon sampleNeuron (.ganglion (.other 0)),
        .axonReact 0 [7] (fun _ => .returns) none]).any (fun finish =>
          decide ((finish.plexus.ganglion (.other 0)).capable sampleNeuron =
              false ∧
            (finish.plexus.ganglion (.other 0)).reactantsOf sampleNeuron.name =
              [.attached 7]) &&
          ((finish.plexus.ganglion (.other 0)).dendrite?
            sampleNeuron.name).any fun dendrite =>
              !(finish.plexus.ganglion (.other 0)).capable dendrite.neuron) =
        true := by
    decide +kernel
  obtain ⟨finish, ran, found⟩ := (Option.any_eq_true _ _).mp passed
  obtain ⟨facts, test⟩ := Bool.and_eq_true_iff.mp found
  obtain ⟨incapable, reacts⟩ := of_decide_eq_true facts
  refine ⟨finish, ran, incapable, reacts, ?_⟩
  intro keeps
  obtain ⟨dendrite, known, declined⟩ := (Option.any_eq_true _ _).mp test
  have capable := Ganglion.keepsOut_iff.mp (keeps (.other 0)) _ _ known
  rw [capable] at declined
  cases declined

end Usage

end Plexo
