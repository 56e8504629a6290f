import Plexo.Ganglion.Object
import Plexo.Library.Transition

/-!
# Finding neurons by name

Both base classes keep the neurons they know by their names.  The internal one
registers a neuron whenever it makes a transmitter; the external one does so in
`create_external_transmitter` only, which `update_transmitter` bypasses.
-/

namespace Plexo

open PersistentMap Transition

namespace GanglionExternalBase

/-- `get_synapse`; `created` is how `_create_synapse_by_name` ends if it is
called. -/
def getSynapse (base : GanglionExternalBase) (neuron : Neuron)
    (created : Except PlexoError SynapseId) :
    Except PlexoError SynapseId × GanglionExternalBase :=
  match base.synapses neuron.name with
  | some synapse => (.ok synapse, base)
  | none =>
      match created with
      | .ok synapse =>
          (.ok synapse,
            { base with synapses := base.synapses.set neuron.name synapse })
      -- The exception is caught, and the synapse that exists is looked up.
      | .error (.synapseExists _) => (.error .keyError, base)
      | .error error => (.error error, base)

/-- `_create_synapse_by_name` is called and raises. -/
def synapseFails (base : GanglionExternalBase) (neuron : Neuron)
    (created : Except PlexoError SynapseId) : Bool :=
  (base.synapses neuron.name).isNone && !created.isOk

/-- The registries that the transmitters and the names of neurons are in. -/
structure SameNames (before after : GanglionExternalBase) : Prop where
  transmitters : after.transmitters = before.transmitters
  externalTransmitters :
    after.externalTransmitters = before.externalTransmitters
  nameNeurons : after.nameNeurons = before.nameNeurons

theorem getSynapse_sameNames (base : GanglionExternalBase) (neuron : Neuron)
    (created : Except PlexoError SynapseId) :
    SameNames base (base.getSynapse neuron created).2 := by
  unfold getSynapse
  split
  · exact ⟨rfl, rfl, rfl⟩
  · split <;> exact ⟨rfl, rfl, rfl⟩

theorem getSynapse_cases (base : GanglionExternalBase) (neuron : Neuron)
    (created : Except PlexoError SynapseId) :
    (base.synapseFails neuron created = true ∧
      ∃ error, (base.getSynapse neuron created).1 = .error error) ∨
    (base.synapseFails neuron created = false ∧
      ∃ synapse, (base.getSynapse neuron created).1 = .ok synapse ∧
        (base.getSynapse neuron created).2.synapses neuron.name =
          some synapse) := by
  unfold getSynapse synapseFails
  cases known : base.synapses neuron.name with
  | some synapse => exact .inr ⟨by simp, synapse, rfl, known⟩
  | none =>
      cases created with
      | ok synapse => exact .inr ⟨rfl, synapse, rfl, by simp⟩
      | error error =>
          refine .inl ⟨rfl, ?_⟩
          cases error <;> exact ⟨_, rfl⟩

theorem getSynapse_of_known {base : GanglionExternalBase} {neuron : Neuron}
    {synapse : SynapseId} (known : base.synapses neuron.name = some synapse)
    (created : Except PlexoError SynapseId) :
    base.getSynapse neuron created = (.ok synapse, base) := by
  unfold getSynapse
  rw [known]

end GanglionExternalBase

/-- The registries of a ganglion of either base class, and the coroutines that
`create_transmitter` of the external one has returned: it does not await
them. -/
structure NamingGanglion where
  cls : GanglionClass
  base : GanglionExternalBase
  coroutines : List (Neuron × SynapseId) := []

namespace NamingGanglion

/-- The calls that register transmitters.  `created` is how
`_create_synapse_by_name` ends if it is called. -/
inductive Call where
  | adapt (neuron : Neuron) (reactants rawReactants : List ReactantId)
      (created : Except PlexoError SynapseId)
  | updateTransmitter (neuron : Neuron)
      (created : Except PlexoError SynapseId)
  | createTransmitter (neuron : Neuron) (synapse : SynapseId)
  /-- The coroutine that a `create_transmitter` has returned is awaited. -/
  | awaitTransmitter (index : Nat)
  | createExternalTransmitter (neuron : Neuron) (synapse : SynapseId)

/-- `create_transmitter` of `GanglionInternalBase`. -/
def createInternalTransmitter (base : GanglionExternalBase) (neuron : Neuron)
    (synapse : SynapseId) : GanglionExternalBase :=
  (base.createTransmitterOnce neuron synapse).updateNameNeurons neuron

/-- `update_transmitter` of a base class, whether it raises or not. -/
def updateTransmitter (cls : GanglionClass) (base : GanglionExternalBase)
    (neuron : Neuron) (created : Except PlexoError SynapseId) :
    GanglionExternalBase :=
  match base.getSynapse neuron created with
  | (.error _, base) => base
  | (.ok synapse, base) =>
      match cls with
      | .inproc => createInternalTransmitter base neuron synapse
      | .external _ => base.updateTransmitter neuron synapse

/-- `adapt` of a base class.  `react` and `react_raw` attach reactants to the
synapse that they get, and change the registries no further. -/
def adapt (cls : GanglionClass) (base : GanglionExternalBase) (neuron : Neuron)
    (reactants rawReactants : List ReactantId)
    (created : Except PlexoError SynapseId) : GanglionExternalBase :=
  if base.capable neuron = false then
    base
  else if reactants ≠ [] ∨ rawReactants ≠ [] then
    match base.getSynapse neuron created with
    | (.error _, base) => base
    | (.ok _, base) => updateTransmitter cls base neuron created
  else
    updateTransmitter cls base neuron created

def step (ganglion : NamingGanglion) : Call → Option NamingGanglion
  | .adapt neuron reactants rawReactants created =>
      some { ganglion with
        base := adapt ganglion.cls ganglion.base neuron reactants rawReactants
          created }
  | .updateTransmitter neuron created =>
      some { ganglion with
        base := updateTransmitter ganglion.cls ganglion.base neuron created }
  | .createTransmitter neuron synapse =>
      match ganglion.cls with
      | .inproc =>
          some { ganglion with
            base := createInternalTransmitter ganglion.base neuron synapse }
      | .external _ =>
          some { ganglion with
            coroutines := ganglion.coroutines ++ [(neuron, synapse)] }
  | .awaitTransmitter index =>
      match ganglion.coroutines[index]? with
      | none => none
      | some (neuron, synapse) =>
          some { ganglion with
            base := ganglion.base.createTransmitterOnce neuron synapse
            coroutines := ganglion.coroutines.eraseIdx index }
  | .createExternalTransmitter neuron synapse =>
      match ganglion.cls with
      | .inproc => none
      | .external _ =>
          some { ganglion with
            base := ganglion.base.createExternalTransmitter neuron synapse }

def init (cls : GanglionClass) (filters : Filters) : NamingGanglion :=
  { cls, base := { filters } }

/-- The name of each neuron with a transmitter is known, for a neuron of that
name. -/
def NamesFound (ganglion : NamingGanglion) : Prop :=
  ∀ name, (ganglion.base.transmitters name).isSome ∨
      (ganglion.base.externalTransmitters name).isSome →
    ∃ neuron, ganglion.base.getNeuronByName name = .ok neuron ∧
      neuron.name = name

/-- The neuron is known by its name, or the base class is the internal one,
which registers it. -/
def registers (ganglion : NamingGanglion) (neuron : Neuron) : Bool :=
  ganglion.cls = .inproc || (ganglion.base.nameNeurons neuron.name).isSome

/-- The steps that make no transmitter for a neuron that is not known by its
name then. -/
def keepsNames (ganglion : NamingGanglion) : Call → Bool
  | .adapt neuron _ _ created =>
      !ganglion.base.capable neuron ||
        ganglion.base.synapseFails neuron created || ganglion.registers neuron
  | .updateTransmitter neuron created =>
      ganglion.base.synapseFails neuron created || ganglion.registers neuron
  | .createTransmitter _ _ => true
  | .awaitTransmitter index =>
      match ganglion.coroutines[index]? with
      | none => true
      | some (neuron, _) => (ganglion.base.nameNeurons neuron.name).isSome
  | .createExternalTransmitter _ _ => true

/-- What every run keeps: names are those of their neurons, and the internal
base class leaves no coroutine behind. -/
structure Sound (ganglion : NamingGanglion) : Prop where
  named : ∀ {name neuron}, ganglion.base.nameNeurons name = some neuron →
    neuron.name = name
  awaited : ganglion.cls = .inproc → ganglion.coroutines = []

end NamingGanglion

namespace GanglionExternalBase

def transmits (base : GanglionExternalBase) (name : String) : Bool :=
  (base.transmitters name).isSome || (base.externalTransmitters name).isSome

/-- An operation makes a transmitter for a neuron, and registers the name of the
neuron if `named`. -/
structure Makes (before after : GanglionExternalBase) (neuron : Neuron)
    (named : Bool) : Prop where
  transmits : ∀ name, after.transmits name =
    (decide (neuron.name = name) || before.transmits name)
  nameNeurons : after.nameNeurons =
    if named then (before.updateNameNeurons neuron).nameNeurons
    else before.nameNeurons

/-- Every name with a transmitter is known. -/
def TransmittersKnown (base : GanglionExternalBase) : Prop :=
  ∀ name, base.transmits name = true → (base.nameNeurons name).isSome = true

theorem SameNames.transmittersKnown_iff {before after : GanglionExternalBase}
    (same : SameNames before after) :
    after.TransmittersKnown ↔ before.TransmittersKnown := by
  unfold TransmittersKnown GanglionExternalBase.transmits
  rw [same.transmitters, same.externalTransmitters, same.nameNeurons]

theorem SameNames.makes {before middle after : GanglionExternalBase}
    {neuron : Neuron} {named : Bool} (same : SameNames before middle)
    (made : Makes middle after neuron named) :
    Makes before after neuron named := by
  have named_ : (middle.updateNameNeurons neuron).nameNeurons =
      (before.updateNameNeurons neuron).nameNeurons := by
    unfold updateNameNeurons
    rw [same.nameNeurons]
    split <;> simp [same.nameNeurons]
  constructor
  · intro name
    rw [made.transmits, GanglionExternalBase.transmits, same.transmitters,
      same.externalTransmitters]
    rfl
  · rw [made.nameNeurons, named_, same.nameNeurons]

theorem updateNameNeurons_nameNeurons_isSome (base : GanglionExternalBase)
    (neuron : Neuron) (name : String) :
    ((base.updateNameNeurons neuron).nameNeurons name).isSome =
      (decide (neuron.name = name) || (base.nameNeurons name).isSome) := by
  unfold updateNameNeurons
  by_cases same : neuron.name = name
  · subst same
    split
    · next known => simp [known]
    · simp
  · split
    · simp [same]
    · simp [same, PMap.set_of_ne _ _ (Ne.symm same)]

theorem updateNameNeurons_named {base : GanglionExternalBase}
    (named : ∀ {name neuron}, base.nameNeurons name = some neuron →
      neuron.name = name) (added : Neuron) {name : String} {neuron : Neuron}
    (known : (base.updateNameNeurons added).nameNeurons name = some neuron) :
    neuron.name = name := by
  unfold updateNameNeurons at known
  split at known
  · exact named known
  · rcases (PMap.set_eq_some_iff ..).mp known with ⟨rfl, rfl⟩ | ⟨_, before⟩
    · rfl
    · exact named before

/-- A transmitter is made without loss exactly if the operation registers the
name of the neuron or the name is known before. -/
theorem Makes.transmittersKnown_iff {before after : GanglionExternalBase}
    {neuron : Neuron} {named : Bool} (made : Makes before after neuron named)
    (known : before.TransmittersKnown) :
    after.TransmittersKnown ↔
      (named || (before.nameNeurons neuron.name).isSome) = true := by
  cases named with
  | true =>
      simp only [Bool.true_or, iff_true]
      intro name transmits
      rw [made.nameNeurons, if_pos rfl, updateNameNeurons_nameNeurons_isSome]
      rw [made.transmits, Bool.or_eq_true] at transmits
      rcases transmits with same | transmits
      · rw [same, Bool.true_or]
      · rw [known name transmits, Bool.or_true]
  | false =>
      rw [Bool.false_or]
      have unchanged : after.nameNeurons = before.nameNeurons :=
        made.nameNeurons
      constructor
      · intro all
        rw [← unchanged]
        apply all
        rw [made.transmits, decide_eq_true rfl, Bool.true_or]
      · intro isKnown name transmits
        rw [unchanged]
        rw [made.transmits, Bool.or_eq_true, decide_eq_true_eq] at transmits
        rcases transmits with rfl | transmits
        · exact isKnown
        · exact known name transmits

theorem makes_createTransmitterOnce (base : GanglionExternalBase)
    (neuron : Neuron) (synapse : SynapseId) :
    Makes base (base.createTransmitterOnce neuron synapse) neuron false := by
  constructor
  · intro name
    simp [transmits, Bool.or_assoc]
  · simp

theorem makes_updateTransmitter (base : GanglionExternalBase)
    (neuron : Neuron) (synapse : SynapseId) :
    Makes base (base.updateTransmitter neuron synapse) neuron false := by
  constructor
  · intro name
    cases same : decide (neuron.name = name) <;>
      simp [transmits, GanglionExternalBase.updateTransmitter, same]
  · simp

theorem makes_createExternalTransmitter (base : GanglionExternalBase)
    (neuron : Neuron) (synapse : SynapseId) :
    Makes base (base.createExternalTransmitter neuron synapse) neuron true := by
  constructor
  · intro name
    cases same : decide (neuron.name = name) <;>
      simp [transmits, createExternalTransmitter, same]
  · unfold createExternalTransmitter updateNameNeurons
    rw [if_pos rfl, createExternalTransmitterOnce_nameNeurons]
    split <;> simp

end GanglionExternalBase

namespace NamingGanglion

open GanglionExternalBase

theorem makes_createInternalTransmitter (base : GanglionExternalBase)
    (neuron : Neuron) (synapse : SynapseId) :
    Makes base (createInternalTransmitter base neuron synapse) neuron true := by
  constructor
  · intro name
    simp [GanglionExternalBase.transmits, createInternalTransmitter,
      Bool.or_assoc]
  · unfold createInternalTransmitter updateNameNeurons
    rw [if_pos rfl, createTransmitterOnce_nameNeurons]
    split <;> simp

theorem updateTransmitter_cases (cls : GanglionClass)
    (base : GanglionExternalBase) (neuron : Neuron)
    (created : Except PlexoError SynapseId) :
    (base.synapseFails neuron created = true ∧
      SameNames base (updateTransmitter cls base neuron created)) ∨
    (base.synapseFails neuron created = false ∧
      Makes base (updateTransmitter cls base neuron created) neuron
        (decide (cls = .inproc))) := by
  have same := base.getSynapse_sameNames neuron created
  unfold updateTransmitter
  rcases base.getSynapse_cases neuron created with
    ⟨fails, error, raised⟩ | ⟨works, synapse, got, _⟩
  · refine .inl ⟨fails, ?_⟩
    split
    · next after found => rwa [found] at same
    · next found => simp [found] at raised
  · refine .inr ⟨works, ?_⟩
    split
    · next found => simp [found] at got
    · next found after found_ =>
        rw [found_] at same
        cases cls with
        | inproc => exact same.makes (makes_createInternalTransmitter ..)
        | external _ => exact same.makes (makes_updateTransmitter ..)

theorem adapt_eq {cls : GanglionClass} {base : GanglionExternalBase}
    {neuron : Neuron} (capable : base.capable neuron = true)
    (reactants rawReactants : List ReactantId)
    (created : Except PlexoError SynapseId) :
    adapt cls base neuron reactants rawReactants created =
      updateTransmitter cls base neuron created := by
  unfold adapt
  rw [if_neg (by simp [capable])]
  split
  · rcases base.getSynapse_cases neuron created with
      ⟨_, error, raised⟩ | ⟨_, synapse, got, known⟩
    · unfold updateTransmitter
      split
      · rfl
      · next found => simp [found] at raised
    · split
      · next found => simp [found] at got
      · next found after found_ =>
          rw [found_] at known got
          cases got
          unfold updateTransmitter
          rw [getSynapse_of_known known, found_]
  · rfl

theorem namesFound_iff {ganglion : NamingGanglion} (sound : ganglion.Sound) :
    ganglion.NamesFound ↔ ganglion.base.TransmittersKnown := by
  have found_iff : ∀ name,
      (∃ neuron, ganglion.base.getNeuronByName name = .ok neuron ∧
        neuron.name = name) ↔
      (ganglion.base.nameNeurons name).isSome = true := by
    intro name
    unfold getNeuronByName
    cases known : ganglion.base.nameNeurons name with
    | none => simp
    | some neuron => simpa using sound.named known
  unfold NamesFound TransmittersKnown GanglionExternalBase.transmits
  simp only [found_iff, Bool.or_eq_true]

/-- What a step does: nothing to the registries of transmitters and names, or it
makes a transmitter. -/
inductive Effect (ganglion next : NamingGanglion) : Bool → Prop where
  | same : SameNames ganglion.base next.base → Effect ganglion next true
  | makes {neuron : Neuron} {named keeps : Bool} :
      Makes ganglion.base next.base neuron named →
      keeps = (named || (ganglion.base.nameNeurons neuron.name).isSome) →
      Effect ganglion next keeps

theorem updateTransmitter_effect (ganglion : NamingGanglion) (neuron : Neuron)
    (created : Except PlexoError SynapseId) :
    Effect ganglion
      { ganglion with
        base := updateTransmitter ganglion.cls ganglion.base neuron created }
      (ganglion.base.synapseFails neuron created ||
        ganglion.registers neuron) := by
  rcases updateTransmitter_cases ganglion.cls ganglion.base neuron created with
    ⟨fails, same⟩ | ⟨works, made⟩
  · rw [fails, Bool.true_or]
    exact .same same
  · rw [works, Bool.false_or]
    exact .makes made rfl

theorem step_effect {ganglion next : NamingGanglion} {call : Call}
    (taken : ganglion.step call = some next) :
    Effect ganglion next (ganglion.keepsNames call) := by
  cases call with
  | adapt neuron reactants rawReactants created =>
      obtain ⟨⟩ := taken
      cases capable : ganglion.base.capable neuron with
      | false =>
          simp only [adapt, keepsNames, capable, if_true, Bool.not_false,
            Bool.true_or]
          exact .same ⟨rfl, rfl, rfl⟩
      | true =>
          rw [adapt_eq capable]
          simp only [keepsNames, capable, Bool.not_true, Bool.false_or]
          exact updateTransmitter_effect ganglion neuron created
  | updateTransmitter neuron created =>
      obtain ⟨⟩ := taken
      exact updateTransmitter_effect ganglion neuron created
  | createTransmitter neuron synapse =>
      simp only [step] at taken
      split at taken
      · obtain ⟨⟩ := taken
        exact .makes (makes_createInternalTransmitter ..) rfl
      · obtain ⟨⟩ := taken
        exact .same ⟨rfl, rfl, rfl⟩
  | awaitTransmitter index =>
      simp only [step] at taken
      split at taken
      · cases taken
      · next found =>
          obtain ⟨⟩ := taken
          simp only [keepsNames, found]
          exact .makes (makes_createTransmitterOnce ..) rfl
  | createExternalTransmitter neuron synapse =>
      simp only [step] at taken
      split at taken
      · cases taken
      · obtain ⟨⟩ := taken
        exact .makes (makes_createExternalTransmitter ..) rfl

/-- Only `create_transmitter` of the external base class leaves a coroutine
behind. -/
theorem step_awaited {ganglion next : NamingGanglion} {call : Call}
    (taken : ganglion.step call = some next)
    (awaited : ganglion.cls = .inproc → ganglion.coroutines = []) :
    next.cls = .inproc → next.coroutines = [] := by
  cases call with
  | adapt neuron reactants rawReactants created =>
      obtain ⟨⟩ := taken
      exact awaited
  | updateTransmitter neuron created =>
      obtain ⟨⟩ := taken
      exact awaited
  | createTransmitter neuron synapse =>
      simp only [step] at taken
      split at taken
      · obtain ⟨⟩ := taken
        exact awaited
      · next external =>
          obtain ⟨⟩ := taken
          intro inproc
          cases external.symm.trans inproc
  | awaitTransmitter index =>
      simp only [step] at taken
      split at taken
      · cases taken
      · next found =>
          obtain ⟨⟩ := taken
          intro inproc
          simp [awaited inproc] at found
  | createExternalTransmitter neuron synapse =>
      simp only [step] at taken
      split at taken
      · cases taken
      · obtain ⟨⟩ := taken
        exact awaited

theorem step_sound (ganglion : NamingGanglion) (call : Call)
    (next : NamingGanglion) (sound : ganglion.Sound)
    (taken : ganglion.step call = some next) : next.Sound := by
  refine ⟨?_, step_awaited taken sound.awaited⟩
  have effect := step_effect taken
  generalize ganglion.keepsNames call = keeps at effect
  cases effect with
  | same same =>
      rw [same.nameNeurons]
      intro name neuron known
      exact sound.named known
  | @makes neuron named _ made _ =>
      intro name known found
      rw [made.nameNeurons] at found
      cases named with
      | true => exact updateNameNeurons_named sound.named neuron found
      | false => exact sound.named found

theorem step_namesFound_iff (ganglion : NamingGanglion) (call : Call)
    (next : NamingGanglion) (sound : ganglion.Sound)
    (found : ganglion.NamesFound) (taken : ganglion.step call = some next) :
    next.NamesFound ↔ ganglion.keepsNames call = true := by
  rw [namesFound_iff (step_sound _ _ _ sound taken)]
  rw [namesFound_iff sound] at found
  have effect := step_effect taken
  generalize ganglion.keepsNames call = keeps at effect
  cases effect with
  | same same => simpa [same.transmittersKnown_iff] using found
  | makes made exact_ =>
      rw [exact_]
      exact made.transmittersKnown_iff found

theorem sound_init (cls : GanglionClass) (filters : Filters) :
    (init cls filters).Sound := by
  constructor
  · intro name neuron known
    simp [init] at known
  · exact fun _ => rfl

theorem namesFound_init (cls : GanglionClass) (filters : Filters) :
    (init cls filters).NamesFound := by
  rintro name (transmits | transmits) <;> simp [init] at transmits

/-- The neurons of all transmitters can be found by name throughout a run
exactly if no step of it makes a transmitter for a neuron that is not registered
by then. -/
theorem names_found_iff {cls : GanglionClass} {filters : Filters}
    {finish : NamingGanglion} {steps : List (NamingGanglion × Call)}
    (path : Path step (init cls filters) steps finish) :
    (finish.NamesFound ∧ ∀ entry ∈ steps, entry.1.NamesFound) ↔
      Along (fun ganglion call => ganglion.keepsNames call = true) steps := by
  rw [path.throughout_iff (sound_init cls filters) step_sound
    step_namesFound_iff]
  exact and_iff_right (namesFound_init cls filters)

theorem step_cls {ganglion next : NamingGanglion} {call : Call}
    (taken : ganglion.step call = some next) : next.cls = ganglion.cls := by
  unfold step at taken
  split at taken
  · exact Option.some.inj taken ▸ rfl
  · exact Option.some.inj taken ▸ rfl
  · split at taken <;> exact Option.some.inj taken ▸ rfl
  · split at taken
    · cases taken
    · exact Option.some.inj taken ▸ rfl
  · split at taken
    · cases taken
    · exact Option.some.inj taken ▸ rfl

theorem path_cls {start finish : NamingGanglion}
    {steps : List (NamingGanglion × Call)}
    (path : Path step start steps finish) : finish.cls = start.cls := by
  induction path with
  | refl => rfl
  | snoc _ taken induction => rw [step_cls taken, induction]

theorem namesFound_of_inproc {filters : Filters} {finish : NamingGanglion}
    {steps : List (NamingGanglion × Call)}
    (path : Path step (init .inproc filters) steps finish) :
    finish.NamesFound := by
  have all : Along (fun ganglion call => ganglion.keepsNames call = true)
      steps := by
    rintro ⟨ganglion, call⟩ member
    obtain ⟨earlier, next, before, taken, _⟩ := path.reached member
    have sound := before.always (sound_init .inproc filters) step_sound
    have inproc : ganglion.cls = .inproc := path_cls before
    cases call with
    | adapt => simp [keepsNames, registers, inproc]
    | updateTransmitter => simp [keepsNames, registers, inproc]
    | createTransmitter => rfl
    | awaitTransmitter => simp [keepsNames, sound.awaited inproc]
    | createExternalTransmitter => rfl
  exact (names_found_iff path).mpr all |>.1

def answerNeuron : Neuron :=
  .init "Answer" plexoNamespace ⟨"", ""⟩ none

/-- A ganglion that has been given an external transmitter for the neuron adapts
to it without loss. -/
theorem names_found_iff_created :
    ∃ finish, exec step (init (.external false) {})
        [.createExternalTransmitter answerNeuron 0,
          .adapt answerNeuron [0] [] (.ok 0)] = some finish ∧
      finish.NamesFound ∧
      (finish.base.transmitters answerNeuron.name).isSome = true := by
  have passed : (exec step (init (.external false) {})
      [.createExternalTransmitter answerNeuron 0,
        .adapt answerNeuron [0] [] (.ok 0)]).any (fun finish =>
          (finish.base.transmitters answerNeuron.name).isSome) = true := by
    decide
  obtain ⟨finish, ran, transmits⟩ := (Option.any_eq_true _ _).mp passed
  have along : Along (fun ganglion call => ganglion.keepsNames call = true)
      (visited step (init (.external false) {}) []
        [.createExternalTransmitter answerNeuron 0,
          .adapt answerNeuron [0] [] (.ok 0)]) := by
    decide
  exact ⟨finish, ran, ((names_found_iff (path_of_exec ran)).mpr along).1,
    transmits⟩

/-- `adapt` of an external ganglion makes transmitters for a neuron that cannot
be found by its name. -/
theorem not_names_found_adapt :
    ∃ finish, exec step (init (.external false) {})
        [.adapt answerNeuron [0] [] (.ok 0)] = some finish ∧
      finish.base.getNeuronByName answerNeuron.name =
        .error (.neuronNotFound answerNeuron.name) ∧
      ¬ finish.NamesFound := by
  refine ⟨_, rfl, by decide, ?_⟩
  intro found
  obtain ⟨neuron, known, _⟩ := found answerNeuron.name (.inl (by decide))
  have unknown : getNeuronByName (adapt (.external false) {} answerNeuron [0] []
      (.ok 0)) answerNeuron.name =
        .error (.neuronNotFound answerNeuron.name) := by decide
  cases unknown.symm.trans known

end NamingGanglion
end Plexo
