import Plexo.Plexus.Delivery

/-!
# Ganglia that filter neurons

A ganglion that is not capable of a neuron is not adapted to it and gets no
transmitter, but the reactions of the plexus forward to it all the same.
-/

namespace Plexo

open CallTable Transition

variable {δ η : Type}

/-- Codecs, sockets and reactants that never fail. -/
structure Environment.Sound (environment : Environment δ η) : Prop where
  encode : ∀ neuron data, ∃ encoded,
    environment.encode neuron data = .ok encoded
  decode : ∀ neuron data, ∃ decoded,
    environment.decode neuron data = .ok decoded
  send : ∀ ganglion data, environment.send ganglion data = .ok ()
  call : environment.Coroutines
  react : ∀ reactant data, environment.react reactant data = .ok ()

def Call.hands (target : GanglionId) : Call δ η → Bool
  | .transmitter ganglion _ _ _ => ganglion = target
  | .externalTransmitter ganglion _ _ _ => ganglion = target
  | _ => false

namespace Plexus

/-- Every order of the calls for a message comes to its end without an
exception, and hands the message to every other ganglion that is capable of the
neuron. -/
def PassesOn (plexus : Plexus) (environment : Environment δ η)
    (neuron : Neuron) (source : Origin δ η) : Prop :=
  ∀ reactions root, plexus.rootCall neuron source = some root →
    (∃ bound, ∀ steps finish,
      Path (plexus.program environment).step (.start reactions root) steps
        finish → steps.length ≤ bound) ∧
    ∀ steps finish,
      Path (plexus.program environment).step (.start reactions root) steps
        finish →
      (∀ error, finish.status 0 ≠ some (.raised error)) ∧
      ((plexus.program environment).Final finish →
        finish.status 0 = some .returned ∧
        ∀ id ∈ plexus.ganglia, id ≠ source.ganglion →
          (plexus.ganglion id).capable neuron = true →
          ∃ call ∈ finish.calls, call.hands id = true ∧
            ∀ message,
              plexus.message? environment neuron source = some message →
                plexus.Carries environment message call)

section Transmitters

variable {plexus : Plexus} {origin : GanglionId} {first : Neuron}
  {environment : Environment δ η} {reactions : Reactions} {call : Call δ η}

theorem hands_of_transmits (settled : plexus.Settled)
    (known : first ∈ plexus.neurons)
    (legal : plexus.Legal origin first.name reactions call)
    {target : GanglionId} (inside : target ∈ plexus.ganglia)
    (capable : (plexus.ganglion target).capable first = true)
    (transmits : call.transmits target = true) (state : Reactions) :
    ∃ child ∈ (plexus.run environment call state).1.calls,
      child.hands target = true := by
  have station := settled.station known inside
  have transmitter := station.transmitter capable
  rcases Call.transmits_cases transmits with
    ⟨data, neuron, id, rfl⟩ | ⟨data, neuron, id, rfl⟩
  · obtain ⟨bound, found⟩ := Option.isSome_iff_exists.mp transmitter
    rw [← legal.2.1] at found
    rw [run_transmit environment data found]
    exact ⟨_, List.mem_singleton_self _, decide_eq_true rfl⟩
  · have external := settled.placed.not_inproc legal.1
    rw [← station.externalTransmitter external] at transmitter
    obtain ⟨synapse, found⟩ := Option.isSome_iff_exists.mp transmitter
    rw [← legal.2.1] at found
    rw [run_transmitEncoded environment data found]
    exact ⟨_, List.mem_singleton_self _, decide_eq_true rfl⟩

theorem raises_of_transmits (environment : Environment δ η)
    (settled : plexus.Settled)
    (known : first ∈ plexus.neurons)
    (legal : plexus.Legal origin first.name reactions call)
    {target : GanglionId} (inside : target ∈ plexus.ganglia)
    (foreign : target ≠ .own)
    (incapable : (plexus.ganglion target).capable first = false)
    (transmits : call.transmits target = true) (state : Reactions) :
    (plexus.program environment).Throws call state
      (.transmitterNotFound first.name) state := by
  have station := settled.station known inside
  have notAdapted : ¬ (plexus.ganglion target).capable first = true := by
    rw [incapable]
    exact Bool.false_ne_true
  have absent := station.noTransmitter notAdapted foreign
  rcases Call.transmits_cases transmits with
    ⟨data, neuron, id, rfl⟩ | ⟨data, neuron, id, rfl⟩
  · obtain none := Option.isSome_eq_false_iff.mp absent
    have raised : plexus.run environment (.transmit target data neuron id)
        state = (.raise (.transmitterNotFound first.name), state) := by
      rw [run, GanglionExternalBase.getTransmitter, legal.2.1,
        Option.isNone_iff_eq_none.mp none]
    exact Program.Throws.raise raised rfl
  · have external := settled.placed.not_inproc legal.1
    rw [← station.externalTransmitter external] at absent
    obtain none := Option.isSome_eq_false_iff.mp absent
    have raised : plexus.run environment
        (.transmitEncoded target data neuron id) state =
          (.raise (.transmitterNotFound first.name), state) := by
      rw [run, GanglionExternalBase.getExternalTransmitter, legal.2.1,
        Option.isNone_iff_eq_none.mp none]
    exact Program.Throws.raise raised rfl

theorem not_raises (settled : plexus.Settled) (known : first ∈ plexus.neurons)
    (capable : ∀ id ∈ plexus.ganglia,
      (plexus.ganglion id).capable first = true)
    (sound : environment.Sound)
    (legal : plexus.Legal origin first.name reactions call)
    {error : PlexoError} (state : Reactions) :
    (plexus.run environment call state).1 ≠ .raise error := by
  intro raised
  have transmits : ∀ target ∈ plexus.ganglia,
      call.transmits target = false := by
    intro target inside
    by_contra isTransmit
    obtain ⟨child, made, _⟩ := @hands_of_transmits _ _ _ _ _ environment _ _
      settled known legal _ inside (capable target inside)
      ((Bool.not_eq_false _).mp isTransmit) state
    rw [raised] at made
    cases made
  cases call with
  | transmit ganglion data neuron id =>
      exact absurd (transmits ganglion legal.1) (by simp)
  | transmitEncoded ganglion data neuron id =>
      exact absurd (transmits ganglion (List.mem_append_right _ legal.1))
        (by simp [Call.transmits])
  | transmitter ganglion transmitter data id =>
      simp only [run, sound.call.callReactants] at raised
      split at raised
      · cases raised
      · obtain ⟨encoded, encodes⟩ := sound.encode transmitter.encoder data
        rw [encodes] at raised
        change outcomeOf (environment.send ganglion encoded) = _ at raised
        rw [sound.send] at raised
        cases raised
  | externalTransmitter ganglion synapse data id =>
      rw [run, sound.send] at raised
      cases raised
  | transduce ganglion synapse data id =>
      obtain ⟨decoded, decodes⟩ := sound.decode
        ((plexus.ganglion ganglion).objects synapse).neuron data
      rw [run_transduce environment decodes
        (sound.call.callReactants ..)] at raised
      cases raised
  | react reactant data neuron id =>
      cases reactant with
      | user reactant =>
          rw [run, sound.react] at raised
          cases raised
      | attached reactant =>
          rw [run, sound.react] at raised
          cases raised
      | internalReaction _ _ => cases raised
      | externalInternalReaction _ _ => cases raised
  | reactRaw _ _ _ _ => cases raised

end Transmitters

theorem catches_transmitterNotFound (plexus : Plexus) (call : Call δ η)
    (name : String) :
    plexus.catches call (.transmitterNotFound name) = false := by
  cases call with
  | transmitter _ _ _ _ => simp [catches, PlexoError.isValueError]
  | react reactant _ _ _ => cases reactant <;> rfl
  | _ => rfl

theorem descends_firstReaction {plexus : Plexus} {neuron first : Neuron}
    {source : Origin δ η} {environment : Environment δ η}
    (coroutines : environment.Coroutines)
    {message : Content δ η} {root : Call δ η} (settled : plexus.Settled)
    (known : first ∈ plexus.neurons) (named : first.name = neuron.name)
    (enters : plexus.Enters source)
    (capable : (plexus.ganglion source.ganglion).capable first = true)
    (rooted : plexus.rootCall neuron source = some root)
    (sent : plexus.message? environment neuron source = some message)
    {target : GanglionId} (isTarget : target ∈ plexus.ganglia)
    (reactions : Reactions) :
    ∃ made call, (plexus.program environment).Descends root reactions made call
        reactions ∧
      plexus.IsFirstReaction source.ganglion target call := by
  have inside := enters.inside settled.placed
  cases source with
  | transmit ganglion data =>
      obtain rfl : ganglion = .own := enters
      obtain ⟨⟩ := rooted
      obtain ⟨made, object, other, _, descends⟩ := descends_transmit environment
        settled known inside capable settled.placed.ownClass named.symm data
        (callable_of_coroutines coroutines ..) none reactions
      exact ⟨made, _, descends, rfl, rfl⟩
  | receive ganglion data =>
      have carries := carries_root rooted sent
      obtain ⟨synapse, found, rfl⟩ := Option.map_eq_some_iff.mp rooted
      rw [← named] at found
      have body := @run_transduce _ _ plexus environment reactions ganglion
        synapse none _ _ carries.2 (coroutines.callReactants ..)
      rcases @exists_firstReaction δ η plexus first ganglion settled known
        inside capable target isTarget with
        ⟨reactant, attached, isFirst⟩ | ⟨raw, attached, isFirst⟩
      · rw [Ganglion.reactantsOf_synapse found] at attached
        exact ⟨_, _, .child body
          (List.mem_append_left _ (List.mem_map_of_mem attached)) .here,
          isFirst _ _⟩
      · rw [Ganglion.rawReactantsOf_synapse found] at attached
        exact ⟨_, _, .child body
          (List.mem_append_right _ (List.mem_map_of_mem attached)) .here,
          isFirst _ _⟩

section Filters

variable {plexus : Plexus} {neuron first : Neuron} {source : Origin δ η}
  {environment : Environment δ η} {root : Call δ η}

theorem exists_message (sound : environment.Sound) :
    ∃ message, plexus.message? environment neuron source = some message := by
  cases source with
  | transmit ganglion data => exact ⟨_, rfl⟩
  | receive ganglion data =>
      obtain ⟨decoded, decodes⟩ := sound.decode
        ((plexus.ganglion ganglion).dendriteOf neuron).neuron data
      exact ⟨⟨decoded, some data⟩, by simp [message?, decodeAt, decodes]⟩

/-- If all ganglia are capable of the neuron, messages are passed on. -/
theorem passesOn_of_capable (settled : plexus.Settled)
    (known : first ∈ plexus.neurons) (named : first.name = neuron.name)
    (sound : environment.Sound) (enters : plexus.Enters source)
    (capable : ∀ id ∈ plexus.ganglia,
      (plexus.ganglion id).capable first = true) :
    plexus.PassesOn environment neuron source := by
  have inside := enters.inside settled.placed
  intro reactions root rooted
  have legal := enters.legal_root settled.placed named rooted reactions
  have keeps := @keeps_legal _ _ plexus source.ganglion first settled known
    environment
  refine ⟨⟨_, fun steps finish path => length_le settled known path legal⟩, ?_⟩
  intro steps finish path
  obtain ⟨status, found⟩ := Program.root_of_path path
  have notRaised : ∀ error, status ≠ .raised error := by
    intro error raised
    apply keeps.raised path legal _ _ _ _ found raised
    intro state call other legal raises
    exact not_raises settled known capable sound legal state raises
  have isStatus : finish.status 0 = some status := by
    rw [Table.status, found]
    rfl
  rw [isStatus]
  refine ⟨fun error same => notRaised error (Option.some.inj same), ?_⟩
  intro final
  refine ⟨?_, ?_⟩
  · rcases final.ended (Program.nested_of_path path) found with
      returned | ⟨error, raised⟩
    · exact congrArg some returned
    · exact absurd raised (notRaised error)
  · intro id isGanglion different _
    obtain ⟨message, sent⟩ :=
      @exists_message _ _ plexus neuron source environment sound
    have transmitted := exists_transmits settled known path legal final
      isGanglion different (exists_reacted settled known named enters
        (capable _ inside) rooted sent (callable_of_coroutines sound.call ..)
        path final isGanglion)
    obtain ⟨call, member, hands⟩ := keeps.made_of_final path legal final
      (fun legal transmits => hands_of_transmits settled known legal isGanglion
        (capable id isGanglion) transmits _) transmitted
    refine ⟨call, member, hands, ?_⟩
    intro other isOther
    exact (plexus.keeps_carries environment other).path path
      (carries_root rooted isOther) call member

/-- A reaction forwards to a ganglion that is not capable of the neuron, and
fails. -/
theorem not_passesOn_of_incapable (settled : plexus.Settled)
    (known : first ∈ plexus.neurons) (named : first.name = neuron.name)
    (sound : environment.Sound) (enters : plexus.Enters source)
    (rooted : plexus.rootCall neuron source = some root)
    (capable : (plexus.ganglion source.ganglion).capable first = true)
    {target : GanglionId} (isTarget : target ∈ plexus.ganglia)
    (foreign : target ≠ .own)
    (incapable : (plexus.ganglion target).capable first = false) :
    ¬ plexus.PassesOn environment neuron source := by
  intro passes
  have different : target ≠ source.ganglion := by
    rintro rfl
    rw [capable] at incapable
    cases incapable
  have legal := enters.legal_root settled.placed named rooted Reactions.init
  have keeps := @keeps_legal _ _ plexus source.ganglion first settled known
    environment
  obtain ⟨message, sent⟩ :=
    @exists_message _ _ plexus neuron source environment sound
  obtain ⟨made, call, descends, isFirst⟩ := descends_firstReaction sound.call
    settled known named enters capable rooted sent isTarget Reactions.init
  obtain ⟨child, member, transmits⟩ := @firstReaction_transmits _ _ plexus _
    environment _ _ isTarget different isFirst Reactions.init
  have uncaught := fun call : Call δ η =>
    plexus.catches_transmitterNotFound call first.name
  have raises := raises_of_transmits environment settled known
    (keeps.starts (keeps.descends descends legal) child member) isTarget foreign
    incapable transmits
    ((plexus.program environment).run call Reactions.init).2
  obtain ⟨finish, reached, raised⟩ :=
    (descends.throws (.of_mem member raises (uncaught call)) uncaught).inside rfl
      (Table.start_ready Reactions.init root)
  obtain ⟨steps, path⟩ := reached.reached
  apply ((passes Reactions.init root rooted).2 steps finish path).1
  rw [Table.status, raised]
  rfl

theorem not_passesOn_of_incapable_source (settled : plexus.Settled)
    (known : first ∈ plexus.neurons) (named : first.name = neuron.name)
    {ganglion : GanglionId} {data : η}
    (enters : plexus.Enters (.receive ganglion data : Origin δ η))
    (rooted : plexus.rootCall neuron (.receive ganglion data) = some root)
    (own : (plexus.ganglion .own).capable neuron = true)
    (incapable : (plexus.ganglion ganglion).capable first = false) :
    ¬ plexus.PassesOn environment neuron (.receive ganglion data) := by
  intro passes
  obtain ⟨inside, external⟩ := enters
  have foreign : GanglionId.own ≠ ganglion := by
    rintro rfl
    exact external settled.placed.ownClass
  have station := settled.station known inside
  rw [incapable] at station
  obtain ⟨synapse, found, rfl⟩ := Option.map_eq_some_iff.mp rooted
  rw [← named] at found
  have keeps : (plexus.program environment).Keeps fun _ call =>
      call = .transduce ganglion synapse data none ∨
        ∃ reactant decoded other id,
          call = .react (.attached reactant) decoded other id := by
    constructor
    · intro state call either child member
      rcases either with rfl | ⟨reactant, decoded, other, id, rfl⟩
      · cases made_of_mem member with
        | @reactDecoded _ _ _ decoded id reactant _ attached =>
            rw [← Ganglion.reactantsOf_synapse found] at attached
            have belongs := station.belongs reactant attached
            cases reactant with
            | user _ => exact absurd (Eq.symm belongs) foreign
            | attached reactant => exact .inr ⟨reactant, decoded, _, _, rfl⟩
            | internalReaction _ _ =>
                rcases station.reactions with ⟨_, impossible⟩ | ⟨none, _⟩
                · cases impossible
                · exact absurd (List.countP_eq_zero.mp none _ attached)
                    (by simp [Reactant.isUser])
            | externalInternalReaction _ _ =>
                rcases station.reactions with ⟨_, impossible⟩ | ⟨none, _⟩
                · cases impossible
                · exact absurd (List.countP_eq_zero.mp none _ attached)
                    (by simp [Reactant.isUser])
        | reactRaw _ attached =>
            rw [← Ganglion.rawReactantsOf_synapse found] at attached
            rcases station.rawReactants with ⟨_, _, impossible, _⟩ | ⟨none, _⟩
            · cases impossible
            · rw [none] at attached
              cases attached
      · cases made_of_mem member
    · exact fun _ other => other
  obtain ⟨bounded, all⟩ := passes Reactions.init _ rooted
  obtain ⟨bound, bounded⟩ := bounded
  obtain ⟨steps, finish, path, final⟩ := Program.exists_final bounded
  obtain ⟨call, member, hands, _⟩ := ((all steps finish path).2 final).2 .own
    (List.mem_append_left _ settled.placed.own) foreign own
  rcases keeps.path path (.inl rfl) call member with
    rfl | ⟨reactant, decoded, other, id, rfl⟩
  · cases hands
  · cases hands

end Filters

/-- Messages for a neuron are passed on exactly if all ganglia of the plexus are
capable of it. -/
theorem passesOn_iff_capable {plexus : Plexus} {operations : List Operation}
    (built : plexus.Built operations) {neuron first : Neuron}
    (registered : plexus.registered neuron = some first)
    (capable : plexus.capable neuron = true) {environment : Environment δ η}
    (sound : environment.Sound) {source : Origin δ η}
    (enters : plexus.Enters source) {root : Call δ η}
    (rooted : plexus.rootCall neuron source = some root) :
    plexus.PassesOn environment neuron source ↔
      ∀ id ∈ plexus.ganglia, (plexus.ganglion id).capable first = true := by
  have settled := built.settled
  obtain ⟨known, named⟩ := mem_of_registered registered
  have ownCapable : (plexus.ganglion .own).capable first = true := by
    rw [settled.own_capable named]
    exact capable
  constructor
  · intro passes
    by_contra some
    obtain ⟨id, inside, incapable⟩ : ∃ id ∈ plexus.ganglia,
        (plexus.ganglion id).capable first = false := by
      simpa using some
    have foreign : id ≠ .own := by
      rintro rfl
      rw [ownCapable] at incapable
      cases incapable
    cases sourceCapable :
        (plexus.ganglion source.ganglion).capable first with
    | true =>
        exact not_passesOn_of_incapable settled known named sound enters rooted
          sourceCapable inside foreign incapable passes
    | false =>
        cases source with
        | transmit ganglion data =>
            obtain rfl : ganglion = .own := enters
            rw [Origin.ganglion, ownCapable] at sourceCapable
            cases sourceCapable
        | receive ganglion data =>
            apply not_passesOn_of_incapable_source settled known named enters
              rooted _ sourceCapable passes
            rw [settled.own_capable rfl]
            exact capable
  · exact passesOn_of_capable settled known named sound enters

theorem sampleEnvironment_sound : sampleEnvironment.Sound :=
  ⟨fun _ data => ⟨data, rfl⟩, fun _ data => ⟨data, rfl⟩, fun _ _ => rfl,
    sampleEnvironment_coroutines, fun _ _ => rfl⟩

theorem passesOn_iff_capable_pair :
    ∃ (plexus : Plexus) (operations : List Operation),
      .adapt sampleNeuron [] ∈ operations ∧ plexus.Built operations ∧
      plexus.PassesOn sampleEnvironment sampleNeuron
        (.transmit .own 0 : Origin Nat Nat) := by
  obtain ⟨plexus, operations, built, tested⟩ := @built_of_any
    (fun _ => (.external false, {})) [0] [] []
    [.call (.adapt sampleNeuron []), .adapted 0, .adapted 1, .resume 0]
    (fun plexus operations => .adapt sampleNeuron [] ∈ operations ∧
      plexus.registered sampleNeuron = some sampleNeuron ∧
      plexus.capable sampleNeuron = true ∧ ∀ id ∈ plexus.ganglia,
        (plexus.ganglion id).capable sampleNeuron = true)
    (by decide +kernel) (by decide)
  obtain ⟨called, registered, capable, all⟩ := of_decide_eq_true tested
  have enters : plexus.Enters (.transmit .own 0 : Origin Nat Nat) := rfl
  exact ⟨plexus, operations, called, built,
    (passesOn_iff_capable built registered capable
      sampleEnvironment_sound enters rfl).mpr all⟩

/-- An external ganglion that ignores the neuron makes `transmit` raise. -/
theorem not_passesOn_ignoring :
    ¬ ∀ (plexus : Plexus) (operations : List Operation) (neuron : Neuron)
      (reactants : List ReactantId) (environment : Environment Nat Nat)
      (source : Origin Nat Nat),
      plexus.Built operations → .adapt neuron reactants ∈ operations →
      plexus.capable neuron = true → environment.Sound →
      plexus.Enters source → plexus.PassesOn environment neuron source := by
  intro all
  obtain ⟨plexus, operations, built, tested⟩ := @built_of_any
    (fun _ => (.external false, { ignoredNeurons := [sampleNeuron] })) [0] [] []
    [.call (.adapt sampleNeuron []), .adapted 0, .adapted 1, .resume 0]
    (fun plexus operations => .adapt sampleNeuron [] ∈ operations ∧
      plexus.registered sampleNeuron = some sampleNeuron ∧
      plexus.capable sampleNeuron = true ∧ .other 0 ∈ plexus.ganglia ∧
        (plexus.ganglion (.other 0)).capable sampleNeuron = false)
    (by decide +kernel) (by decide)
  obtain ⟨called, registered, capable, inside, incapable⟩ :=
    of_decide_eq_true tested
  have settled := built.settled
  have enters : plexus.Enters (.transmit .own 0 : Origin Nat Nat) := rfl
  have own : (plexus.ganglion .own).capable sampleNeuron = true := by
    rw [settled.own_capable rfl]
    exact capable
  exact not_passesOn_of_incapable settled (mem_of_registered registered).1 rfl
    sampleEnvironment_sound enters rfl own inside (by simp) incapable
    (all plexus operations sampleNeuron [] sampleEnvironment _ built called
      capable sampleEnvironment_sound enters)

end Plexus

end Plexo
