import Plexo.Plexus.Adaptation
import Plexo.Plexus.Reactions

/-!
# How often a message is passed on

A ganglion joins the set of a reaction id only when its own reaction runs, and
a ganglion that forwards nothing never does.  So a message reaches every ganglion
at most once exactly if only one reaction has someone to forward to: if there
are at most two ganglia, or if only the ganglion where the message comes from
transduces what is transmitted through it.  A ganglion whose reactants cannot
all be called does not forward either.
-/

namespace Plexo

open CallTable Transition

variable {δ η : Type}

namespace Call

/-- `transmit` or `transmit_encoded` of a ganglion. -/
def transmits (target : GanglionId) : Call δ η → Bool
  | .transmit ganglion _ _ _ => ganglion = target
  | .transmitEncoded ganglion _ _ _ => ganglion = target
  | _ => false

theorem transmits_cases {target : GanglionId} {call : Call δ η}
    (transmits : call.transmits target = true) :
    (∃ data neuron reactionId,
        call = .transmit target data neuron reactionId) ∨
      ∃ data neuron reactionId,
        call = .transmitEncoded target data neuron reactionId := by
  cases call with
  | transmit ganglion data neuron reactionId =>
      obtain rfl : ganglion = target := of_decide_eq_true transmits
      exact .inl ⟨data, neuron, reactionId, rfl⟩
  | transmitEncoded ganglion data neuron reactionId =>
      obtain rfl : ganglion = target := of_decide_eq_true transmits
      exact .inr ⟨data, neuron, reactionId, rfl⟩
  | _ => cases transmits

def transduces (target : GanglionId) : Call δ η → Bool
  | .transmitter ganglion _ _ _ => ganglion = target
  | .transduce ganglion _ _ _ => ganglion = target
  | _ => false

def invokes (user : ReactantId) : Call δ η → Bool
  | .react (.user reactant) _ _ _ => reactant = user
  | _ => false

/-- A reaction of the plexus for a ganglion that can forward to a target. -/
def forwards (plexus : Plexus) (current target : GanglionId) :
    Call δ η → Bool
  | .react (.internalReaction _ ganglion) _ _ _ => ganglion = current
  | .react (.externalInternalReaction _ ganglion) _ _ _ =>
      ganglion = current && decide (target ∈ plexus.internalGanglia)
  | .reactRaw reactant _ _ _ =>
      reactant.current = current && decide (target ∉ plexus.internalGanglia)
  | _ => false

section

variable (plexus : Plexus) (ganglion current target : GanglionId)
  (user : ReactantId) (synapse : SynapseId) (neuron : Neuron)
  (reactionId : Option ReactionId)

@[simp] theorem transmits_transmit (data : δ) :
    (Call.transmit ganglion data neuron reactionId : Call δ η).transmits
      target = decide (ganglion = target) := rfl

@[simp] theorem transduces_transmit (data : δ) :
    (Call.transmit ganglion data neuron reactionId : Call δ η).transduces
      target = false := rfl

@[simp] theorem forwards_transmit (data : δ) :
    (Call.transmit ganglion data neuron reactionId : Call δ η).forwards plexus
      current target = false := rfl

@[simp] theorem invokes_transmit (data : δ) :
    (Call.transmit ganglion data neuron reactionId : Call δ η).invokes
      user = false := rfl

@[simp] theorem transmits_transduce (data : η) :
    (Call.transduce ganglion synapse data reactionId : Call δ η).transmits
      target = false := rfl

@[simp] theorem transduces_transduce (data : η) :
    (Call.transduce ganglion synapse data reactionId : Call δ η).transduces
      target = decide (ganglion = target) := rfl

@[simp] theorem forwards_transduce (data : η) :
    (Call.transduce ganglion synapse data reactionId : Call δ η).forwards
      plexus current target = false := rfl

@[simp] theorem invokes_transduce (data : η) :
    (Call.transduce ganglion synapse data reactionId : Call δ η).invokes
      user = false := rfl

end

end Call

namespace Plexus

/-- In every order of its calls, a message is transmitted at most once through
each ganglion, never through the one that has received it, and runs each
reactant of users at most once. -/
def AtMostOnce (plexus : Plexus) (environment : Environment δ η)
    (neuron : Neuron) (source : Origin δ η) : Prop :=
  ∀ reactions root steps finish, plexus.rootCall neuron source = some root →
    Path (plexus.program environment).step (.start reactions root) steps
      finish →
    (∀ ganglion, finish.calls.countP (Call.transmits ganglion) ≤ 1) ∧
    (∀ ganglion data, source = .receive ganglion data →
      finish.calls.countP (Call.transmits ganglion) = 0) ∧
    ∀ reactant, finish.calls.countP (Call.invokes reactant) ≤ 1

/-- At most one reaction has someone to forward to. -/
def Narrow (plexus : Plexus) (environment : Environment δ η) (name : String)
    (origin : GanglionId) (data : δ) : Prop :=
  plexus.ganglia.length ≤ 2 ∨
    ¬ plexus.Callable environment name data origin ∨
    ∀ id ∈ plexus.ganglia, (plexus.ganglion id).cls = .inproc →
      plexus.Callable environment name data id → id = origin

section Calls

variable {plexus : Plexus} {origin : GanglionId} {first : Neuron}
  {environment : Environment δ η} {reactions : Reactions} {call : Call δ η}

theorem transmits_of_made (settled : plexus.Settled)
    (known : first ∈ plexus.neurons)
    (legal : plexus.Legal origin first.name reactions call) {child : Call δ η}
    (made : plexus.Made environment reactions call child)
    {target : GanglionId} (transmits : child.transmits target = true) :
    ∃ current, current ∈ plexus.ganglia ∧
      (current = origin ∨ (plexus.ganglion current).cls = .inproc) ∧
      target ∈ plexus.ganglia ∧ target ≠ current ∧ target ≠ origin ∧
      (current = origin → call.forwards plexus origin target = true) ∧
      ∀ data, plexus.Called environment first.name origin data call →
        plexus.Callable environment first.name data origin ∧
          plexus.Callable environment first.name data current := by
  have absent : ∀ {current : GanglionId} {reactionId : Option ReactionId},
      Traced origin reactions current reactionId →
      target ∉ (reactions.join (reactions.reactionId reactionId)
        current).joined (reactions.reactionId reactionId) →
      target ≠ current ∧ target ≠ origin := by
    intro current reactionId traced outside
    constructor
    · rintro rfl
      exact outside (Reactions.mem_joined_join.mpr (.inl ⟨rfl, rfl⟩))
    · rintro rfl
      exact outside (mem_joined_of_traced traced)
  cases made with
  | transmitter _ => cases transmits
  | externalTransmitter _ => cases transmits
  | react _ _ => cases transmits
  | reactDecoded _ _ => cases transmits
  | reactRaw _ _ => cases transmits
  | @forward object current other data neuron reactionId isGanglion outside =>
      obtain ⟨_, ganglion, inside, attached, kind, traced⟩ := legal
      obtain ⟨rfl, _⟩ := (settled.station known inside).belongs _ attached
      obtain rfl : other = target := by simpa [Call.transmits] using transmits
      obtain ⟨notCurrent, notOrigin⟩ := absent traced outside
      refine ⟨current, inside, kind, isGanglion, notCurrent, notOrigin, ?_,
        fun _ called => called⟩
      rintro rfl
      simp [Call.forwards]
  | @forwardInternal object current other data neuron reactionId isGanglion
      outside =>
      obtain ⟨_, ganglion, inside, attached, kind, traced⟩ := legal
      obtain ⟨rfl, _⟩ := (settled.station known inside).belongs _ attached
      obtain rfl : other = target := by simpa [Call.transmits] using transmits
      obtain ⟨notCurrent, notOrigin⟩ := absent traced outside
      refine ⟨current, inside, kind, List.mem_append_left _ isGanglion,
        notCurrent, notOrigin, ?_, fun _ called => called⟩
      rintro rfl
      simp [Call.forwards, isGanglion]
  | @forwardExternal object current other data neuron reactionId isGanglion
      outside =>
      obtain ⟨_, rfl, inside, _, traced⟩ := legal
      obtain rfl : other = target := by simpa [Call.transmits] using transmits
      obtain ⟨notCurrent, notOrigin⟩ := absent traced outside
      have notInternal : other ∉ plexus.internalGanglia := fun internal =>
        List.disjoint_of_nodup_append settled.placed.nodup internal isGanglion
      refine ⟨current, inside, .inl rfl, List.mem_append_right _ isGanglion,
        notCurrent, notOrigin, ?_, fun _ called => ⟨called, called⟩⟩
      intro _
      simp [Call.forwards, notInternal]

theorem countP_transmits_map {ganglia : List GanglionId} (nodup : ganglia.Nodup)
    {make : GanglionId → Call δ η} (target : GanglionId)
    (each : ∀ ganglion, (make ganglion).transmits target =
      decide (ganglion = target)) :
    (ganglia.map make).countP (Call.transmits target) ≤ 1 := by
  have counted : (ganglia.map make).countP (Call.transmits target) =
      ganglia.count target := by
    rw [List.countP_map, List.count]
    apply List.countP_congr
    intro ganglion _
    simp [each]
  rw [counted]
  exact List.nodup_iff_count_le_one.mp nodup target

/-- No call transmits to a ganglion more than once. -/
theorem countP_transmits_le_one (settled : plexus.Settled) {child : Call δ η}
    (made : plexus.Made environment reactions call child)
    {target : GanglionId} (transmits : child.transmits target = true) :
    (plexus.run environment call reactions).1.calls.countP
      (Call.transmits target) ≤ 1 := by
  have nodup := settled.placed.nodup
  have internal := (List.nodup_append.mp nodup).1
  have external := (List.nodup_append.mp nodup).2.1
  cases made with
  | transmitter _ => cases transmits
  | externalTransmitter _ => cases transmits
  | react _ _ => cases transmits
  | reactDecoded _ _ => cases transmits
  | reactRaw _ _ => cases transmits
  | forward _ _ =>
      apply countP_transmits_map
      · rw [← List.filter_append]
        exact nodup.filter _
      · exact fun _ => rfl
  | forwardInternal _ _ =>
      exact countP_transmits_map (internal.filter _) target fun _ => rfl
  | forwardExternal _ _ =>
      exact countP_transmits_map (external.filter _) target fun _ => rfl

/-- If at most one reaction has someone to forward to, only the reactions for the
origin transmit. -/
theorem countP_transmits_le (settled : plexus.Settled)
    (known : first ∈ plexus.neurons) (inside : origin ∈ plexus.ganglia)
    {data : δ} (narrow : plexus.Narrow environment first.name origin data)
    (legal : plexus.Legal origin first.name reactions call)
    (called : plexus.Called environment first.name origin data call)
    (target : GanglionId) :
    (plexus.run environment call reactions).1.calls.countP
        (Call.transmits target) ≤
      if call.forwards plexus origin target then 1 else 0 := by
  apply Program.countP_le_ite
  intro child member transmits
  have made := made_of_mem member
  obtain ⟨current, isGanglion, kind, isTarget, notCurrent, notOrigin,
    forwards, callable⟩ := transmits_of_made settled known legal made transmits
  obtain ⟨fromOrigin, fromCurrent⟩ := callable data called
  by_cases same : current = origin
  · exact ⟨forwards same, countP_transmits_le_one settled made transmits⟩
  · exfalso
    rcases narrow with few | uncallable | alone
    · have three : [origin, current, target].Nodup := by
        simp [Ne.symm same, Ne.symm notOrigin, Ne.symm notCurrent]
      have included : [origin, current, target] ⊆ plexus.ganglia := by
        simp [List.cons_subset, inside, isGanglion, isTarget]
      have bound := (List.subperm_of_subset three included).length_le
      simp only [List.length_cons, List.length_nil] at bound
      omega
    · exact uncallable fromOrigin
    · rcases kind with equal | inproc
      · exact same equal
      · exact same (alone current isGanglion inproc fromCurrent)

/-- Nothing is ever transmitted to the origin. -/
theorem countP_transmits_origin (settled : plexus.Settled)
    (known : first ∈ plexus.neurons)
    (legal : plexus.Legal origin first.name reactions call) :
    (plexus.run environment call reactions).1.calls.countP
      (Call.transmits origin) = 0 := by
  apply List.countP_eq_zero.mpr
  intro child member transmits
  obtain ⟨_, _, _, _, _, notOrigin, _⟩ :=
    transmits_of_made settled known legal (made_of_mem member) transmits
  exact notOrigin rfl

theorem countP_forwards_reactants (settled : plexus.Settled)
    (known : first ∈ plexus.neurons) {ganglion : GanglionId}
    (inside : ganglion ∈ plexus.ganglia) (current target : GanglionId)
    (data : δ) (neuron : Neuron) (reactionId : Option ReactionId) :
    (((plexus.ganglion ganglion).reactantsOf first.name).map
        (Call.react · data neuron reactionId : Reactant → Call δ η)).countP
          (Call.forwards plexus current target) ≤ 1 := by
  have reactions : ((plexus.ganglion ganglion).reactantsOf first.name).countP
      (!·.isUser) ≤ 1 := by
    rcases (settled.station known inside).reactions with
      ⟨one, _⟩ | ⟨none, _⟩
    · exact one.le
    · omega
  rw [List.countP_map]
  refine le_trans (List.countP_mono_left ?_) reactions
  intro reactant _ forwards
  cases reactant with
  | user _ => cases forwards
  | attached _ => cases forwards
  | internalReaction _ _ => rfl
  | externalInternalReaction _ _ => rfl

theorem countP_forwards_dendrite (settled : plexus.Settled)
    (known : first ∈ plexus.neurons) {ganglion : GanglionId}
    (inside : ganglion ∈ plexus.ganglia) (current target : GanglionId)
    (data : δ) (encoded : η) (neuron : Neuron)
    (reactionId : Option ReactionId) :
    (((plexus.ganglion ganglion).reactantsOf first.name).map
        (Call.react · data neuron reactionId : Reactant → Call δ η)).countP
          (Call.forwards plexus current target) +
      (((plexus.ganglion ganglion).rawReactantsOf first.name).map
        (Call.reactRaw · encoded neuron reactionId :
          RawReactant → Call δ η)).countP
            (Call.forwards plexus current target) ≤ 1 := by
  have station := settled.station known inside
  have decoded := @countP_forwards_reactants δ η _ _ settled known ganglion
    inside current target data neuron reactionId
  rcases station.rawReactants with ⟨object, raws, _, declared⟩ | ⟨none, _⟩
  · rw [raws]
    by_cases internal : target ∈ plexus.internalGanglia
    · have noRaw : ([⟨object, ganglion⟩].map
          (Call.reactRaw · encoded neuron reactionId :
            RawReactant → Call δ η)).countP
              (Call.forwards plexus current target) = 0 := by
        simp [Call.forwards, internal]
      omega
    · have noDecoded : (((plexus.ganglion ganglion).reactantsOf
          first.name).map (Call.react · data neuron reactionId :
            Reactant → Call δ η)).countP
              (Call.forwards plexus current target) = 0 := by
        apply List.countP_eq_zero.mpr
        intro child member
        obtain ⟨reactant, attached, rfl⟩ := List.mem_map.mp member
        have belongs := station.belongs reactant attached
        cases reactant with
        | user _ => simp [Call.forwards]
        | attached _ => simp [Call.forwards]
        | internalReaction _ _ => simp [belongs.2] at declared
        | externalInternalReaction _ _ => simp [Call.forwards, internal]
      rw [noDecoded, Nat.zero_add]
      exact List.countP_le_length.trans (by simp)
  · rw [none, List.map_nil, List.countP_nil]
    omega

theorem countP_forwards_le (settled : plexus.Settled)
    (known : first ∈ plexus.neurons)
    (legal : plexus.Legal origin first.name reactions call)
    (target : GanglionId) :
    (plexus.run environment call reactions).1.calls.countP
        (Call.forwards plexus origin target) ≤
      if call.transduces origin then 1 else 0 := by
  apply Program.countP_le_ite
  intro child member forwards
  cases made_of_mem member with
  | transmitter _ => cases forwards
  | externalTransmitter _ => cases forwards
  | @react ganglion transmitter data reactionId reactant inproc attached
      called =>
      obtain ⟨inside, transmits, _⟩ := legal
      have found := (plexus.ganglion ganglion).connected.transmitters transmits
      rw [← Ganglion.reactantsOf_synapse found] at attached
      have belongs := (settled.station known inside).belongs _ attached
      constructor
      · cases reactant with
        | user _ => cases forwards
        | attached _ => cases forwards
        | internalReaction object current =>
            obtain ⟨rfl, _⟩ := belongs
            simpa [Call.forwards, Call.transduces] using forwards
        | externalInternalReaction object current =>
            obtain ⟨rfl, _⟩ := belongs
            simp only [Call.forwards, Bool.and_eq_true] at forwards
            exact forwards.1
      · rw [run_transmitter _ _ inproc called,
          ← Ganglion.reactantsOf_synapse found]
        apply countP_forwards_reactants settled known inside
  | reactDecoded decodes _ called =>
      obtain ⟨rfl, inside, found, _⟩ := legal
      refine ⟨by simp [Call.transduces], ?_⟩
      rw [run_transduce _ decodes called, ← Ganglion.reactantsOf_synapse found,
        ← Ganglion.rawReactantsOf_synapse found]
      rw [Outcome.calls, List.countP_append]
      apply countP_forwards_dendrite settled known inside
  | reactRaw decodes _ called =>
      obtain ⟨rfl, inside, found, _⟩ := legal
      refine ⟨by simp [Call.transduces], ?_⟩
      rw [run_transduce _ decodes called, ← Ganglion.reactantsOf_synapse found,
        ← Ganglion.rawReactantsOf_synapse found]
      rw [Outcome.calls, List.countP_append]
      apply countP_forwards_dendrite settled known inside
  | forward _ _ => cases forwards
  | forwardInternal _ _ => cases forwards
  | forwardExternal _ _ => cases forwards

/-- Only `transmit` makes a transmitter transduce. -/
theorem countP_transduces_le (target : GanglionId) :
    (plexus.run environment call reactions).1.calls.countP
        (Call.transduces target) ≤
      if call.transmits target then 1 else 0 := by
  apply Program.countP_le_ite
  intro child member transduces
  cases made_of_mem member with
  | transmitter found =>
      refine ⟨transduces, ?_⟩
      rw [run_transmit _ _ found]
      exact List.countP_le_length
  | externalTransmitter _ => cases transduces
  | react _ _ => cases transduces
  | reactDecoded _ _ => cases transduces
  | reactRaw _ _ => cases transduces
  | forward _ _ => cases transduces
  | forwardInternal _ _ => cases transduces
  | forwardExternal _ _ => cases transduces

theorem countP_invokes_le (settled : plexus.Settled)
    (known : first ∈ plexus.neurons)
    (legal : plexus.Legal origin first.name reactions call)
    (user : ReactantId) :
    (plexus.run environment call reactions).1.calls.countP
        (Call.invokes user) ≤
      if call.transduces .own then 1 else 0 := by
  apply Program.countP_le_ite
  intro child member invokes
  cases made_of_mem member with
  | transmitter _ => cases invokes
  | externalTransmitter _ => cases invokes
  | @react ganglion transmitter data reactionId reactant inproc attached
      called =>
      obtain ⟨inside, transmits, _⟩ := legal
      have found := (plexus.ganglion ganglion).connected.transmitters transmits
      rw [← Ganglion.reactantsOf_synapse found] at attached
      have station := settled.station known inside
      have belongs := station.belongs _ attached
      cases reactant with
      | user _ =>
          obtain rfl : ganglion = .own := belongs
          refine ⟨by simp [Call.transduces], ?_⟩
          rw [run_transmitter _ _ inproc called,
            ← Ganglion.reactantsOf_synapse found]
          rw [Outcome.calls, List.countP_map]
          refine le_trans (List.countP_mono_left ?_)
            (List.nodup_iff_count_le_one.mp station.nodup (.user user))
          intro reactant _ isUser
          cases reactant with
          | user other => simpa [Call.invokes] using isUser
          | attached _ => cases isUser
          | internalReaction _ _ => cases isUser
          | externalInternalReaction _ _ => cases isUser
      | attached _ => cases invokes
      | internalReaction _ _ => cases invokes
      | externalInternalReaction _ _ => cases invokes
  | @reactDecoded ganglion synapse data decoded reactionId reactant _
      attached =>
      obtain ⟨rfl, inside, found, external, _⟩ := legal
      rw [← Ganglion.reactantsOf_synapse found] at attached
      have belongs := (settled.station known inside).belongs _ attached
      cases reactant with
      | user _ =>
          obtain rfl : ganglion = .own := belongs
          exact absurd settled.placed.ownClass external
      | attached _ => cases invokes
      | internalReaction _ _ => cases invokes
      | externalInternalReaction _ _ => cases invokes
  | reactRaw _ _ => cases invokes
  | forward _ _ => cases invokes
  | forwardInternal _ _ => cases invokes
  | forwardExternal _ _ => cases invokes

end Calls

section Narrow

variable {plexus : Plexus} {first neuron : Neuron}
  {environment : Environment δ η} {source : Origin δ η}

theorem Narrow.atMostOnce (settled : plexus.Settled)
    (known : first ∈ plexus.neurons) (named : first.name = neuron.name)
    (inside : source.ganglion ∈ plexus.ganglia)
    (received : ∀ ganglion data, source = .receive ganglion data →
      (plexus.ganglion ganglion).cls ≠ .inproc)
    {message : Content δ η}
    (sent : plexus.message? environment neuron source = some message)
    (narrow :
      plexus.Narrow environment first.name source.ganglion message.data) :
    plexus.AtMostOnce environment neuron source := by
  intro reactions root steps finish rooted path
  have keeps := @keeps_called _ _ plexus source.ganglion first settled known
    environment message
  have legal : (plexus.Legal source.ganglion first.name reactions root ∧
      plexus.Carries environment message root) ∧
        plexus.Called environment first.name source.ganglion message.data
          root :=
    ⟨⟨legal_root inside named received rooted, carries_root rooted sent⟩,
      called_root rooted⟩
  -- Each kind of call is made by one other kind: transmissions by reactions for
  -- the origin, these by transductions there, these by transmissions to it.
  have transmissions := fun target => keeps.countP_le path legal fun legal =>
    countP_transmits_le settled known inside narrow legal.1.1 legal.2 target
  have toOrigin := @Program.Keeps.countP_le _ _ _ _ _ keeps
    (Call.transmits source.ganglion) (fun _ => false) _ _ _ _ path legal
    fun legal => (countP_transmits_origin settled known legal.1.1).le
  have forwardings := fun target => keeps.countP_le path legal fun legal =>
    countP_forwards_le settled known legal.1.1 target
  have transductions := fun target => keeps.countP_le path legal fun _ =>
    countP_transduces_le target
  have invocations := fun user => keeps.countP_le path legal fun legal =>
    countP_invokes_le settled known legal.1.1 user
  simp only [List.countP_false, Function.const_apply, Nat.add_zero] at toOrigin
  cases source with
  | transmit origin data =>
      obtain ⟨⟩ := rooted
      simp only [Origin.ganglion, Call.transmits_transmit,
        Call.transduces_transmit, Call.forwards_transmit,
        Call.invokes_transmit, decide_true, if_true, Nat.zero_add,
        Bool.false_eq_true, if_false]
          at transmissions toOrigin forwardings transductions invocations
      have fromOrigin := transductions origin
      have once : ∀ target,
          finish.calls.countP (Call.transmits target) ≤ 1 := by
        intro target
        by_cases same : origin = target
        · subst same
          exact toOrigin
        · have transmitted := transmissions target
          have forwarded := forwardings target
          simp only [same, decide_false, Bool.false_eq_true, if_false]
            at transmitted
          omega
      refine ⟨once, ?_, ?_⟩
      · intro ganglion other impossible
        cases impossible
      · intro user
        have invoked := invocations user
        have transduced := transductions .own
        have ownOnce := once .own
        omega
  | receive origin data =>
      obtain ⟨synapse, _, rfl⟩ := Option.map_eq_some_iff.mp rooted
      simp only [Origin.ganglion, Call.transmits_transduce,
        Call.transduces_transduce, Call.forwards_transduce,
        Call.invokes_transduce, Bool.false_eq_true, if_false, Nat.zero_add]
          at transmissions toOrigin forwardings transductions invocations
      have fromOrigin := transductions origin
      simp only [decide_true, if_true] at fromOrigin
      have once : ∀ target,
          finish.calls.countP (Call.transmits target) ≤ 1 := by
        intro target
        have transmitted := transmissions target
        have forwarded := forwardings target
        omega
      refine ⟨once, ?_, ?_⟩
      · intro ganglion _ same
        obtain ⟨rfl, _⟩ := Origin.receive.inj same
        exact Nat.le_zero.mp toOrigin
      · intro user
        have foreign : origin ≠ .own := by
          rintro rfl
          exact received .own data rfl settled.placed.ownClass
        have invoked := invocations user
        have transduced := transductions .own
        have ownOnce := once .own
        simp only [foreign, decide_false, Bool.false_eq_true, if_false]
          at transduced
        omega

end Narrow

section Twice

variable {plexus : Plexus} {first : Neuron} {environment : Environment δ η}

theorem exists_reaction (settled : plexus.Settled)
    (known : first ∈ plexus.neurons) {ganglion : GanglionId}
    (inside : ganglion ∈ plexus.ganglia)
    (capable : (plexus.ganglion ganglion).capable first = true) :
    ∃ reactant ∈ (plexus.ganglion ganglion).reactantsOf first.name,
      ∃ object, reactant = if plexus.isGanglionExternal ganglion then
        .externalInternalReaction object ganglion
      else .internalReaction object ganglion := by
  have station := settled.station known inside
  have one : 0 < ((plexus.ganglion ganglion).reactantsOf first.name).countP
      (!·.isUser) := by
    rcases station.reactions with ⟨one, _⟩ | ⟨_, incapable⟩
    · omega
    · exact absurd capable incapable
  obtain ⟨reactant, member, isReaction⟩ := List.countP_pos_iff.mp one
  refine ⟨reactant, member, ?_⟩
  have belongs := station.belongs reactant member
  cases reactant with
  | user _ => cases isReaction
  | attached _ => cases isReaction
  | internalReaction object current =>
      obtain ⟨rfl, undeclared⟩ := belongs
      exact ⟨object, by simp [isGanglionExternal, undeclared]⟩
  | externalInternalReaction object current =>
      obtain ⟨rfl, declared⟩ := belongs
      exact ⟨object, by simp [isGanglionExternal, declared]⟩

theorem descends_transmit (environment : Environment δ η)
    (settled : plexus.Settled) (known : first ∈ plexus.neurons)
    {ganglion : GanglionId} (inside : ganglion ∈ plexus.ganglia)
    (capable : (plexus.ganglion ganglion).capable first = true)
    (inproc : (plexus.ganglion ganglion).cls = .inproc) {neuron : Neuron}
    (named : neuron.name = first.name) (data : δ)
    (callable : plexus.Callable environment first.name data ganglion)
    (reactionId : Option ReactionId) (reactions : Reactions) :
    ∃ (made : List (Call δ η)) (object : Nat) (other : Neuron),
      other.name = first.name ∧
      (plexus.program environment).Descends
        (.transmit ganglion data neuron reactionId) reactions made
        (.react (.internalReaction object ganglion) data other reactionId)
        reactions := by
  have station := settled.station known inside
  obtain ⟨reactant, member, object, same⟩ :=
    exists_reaction settled known inside capable
  have undeclared : plexus.isGanglionExternal ganglion = false := by
    simp [isGanglionExternal, inproc, GanglionClass.isGanglionExternal]
  rw [undeclared, if_neg Bool.false_ne_true] at same
  obtain ⟨transmitter, transmitters⟩ :=
    Option.isSome_iff_exists.mp (station.transmitter capable)
  have found := (plexus.ganglion ganglion).connected.transmitters transmitters
  have called := (callable_synapse found).mp callable
  have isNamed := ((plexus.ganglion ganglion).connected.named found).2
  rw [Ganglion.reactantsOf_synapse found] at member
  rw [← named] at transmitters
  rw [same] at member
  have transduces : (plexus.program environment).Descends
      (.transmitter ganglion transmitter data reactionId) reactions
      (((plexus.ganglion ganglion).objects transmitter.synapse).reactants.map
        (.react · data
          ((plexus.ganglion ganglion).objects transmitter.synapse).neuron
          reactionId) ++ [])
      (.react (.internalReaction object ganglion) data
        ((plexus.ganglion ganglion).objects transmitter.synapse).neuron
        reactionId) reactions :=
    .child (run_transmitter environment data inproc called)
      (List.mem_map_of_mem member) .here
  exact ⟨_, object, _, isNamed,
    .child (run_transmit environment data transmitters)
      (List.mem_singleton_self _) transduces⟩

theorem mem_filter_not_mem {ganglia set : List GanglionId}
    {target : GanglionId} (inside : target ∈ ganglia) (absent : target ∉ set) :
    target ∈ ganglia.filter (· ∉ set) :=
  List.mem_filter.mpr ⟨inside, by simpa using absent⟩

theorem descends_forward (environment : Environment δ η)
    (settled : plexus.Settled) (known : first ∈ plexus.neurons)
    {ganglion target : GanglionId} (inside : ganglion ∈ plexus.ganglia)
    (capable : (plexus.ganglion ganglion).capable first = true)
    (inproc : (plexus.ganglion ganglion).cls = .inproc) {neuron : Neuron}
    (named : neuron.name = first.name) (data : δ)
    (callable : plexus.Callable environment first.name data ganglion)
    (reactionId : Option ReactionId) (reactions : Reactions)
    (isTarget : target ∈ plexus.ganglia)
    (absent : target ∉ (reactions.join (reactions.reactionId reactionId)
      ganglion).joined (reactions.reactionId reactionId)) :
    ∃ (made : List (Call δ η)) (other : Neuron), other.name = first.name ∧
      (plexus.program environment).Descends
        (.transmit ganglion data neuron reactionId) reactions made
        (.transmit target data other
          (some (reactions.reactionId reactionId)))
        (reactions.join (reactions.reactionId reactionId) ganglion) ∧
      ∀ isOther ∈ plexus.ganglia,
        isOther ∉ (reactions.join (reactions.reactionId reactionId)
          ganglion).joined (reactions.reactionId reactionId) →
        .transmit isOther data other
          (some (reactions.reactionId reactionId)) ∈ made := by
  obtain ⟨made, object, other, isNamed, descends⟩ :=
    descends_transmit environment settled known inside capable inproc named
      data callable reactionId reactions
  have forwards : ∀ isOther ∈ plexus.ganglia,
      isOther ∉ (reactions.join (reactions.reactionId reactionId)
        ganglion).joined (reactions.reactionId reactionId) →
      (.transmit isOther data other
        (some (reactions.reactionId reactionId)) : Call δ η) ∈
          (plexus.internalReaction ganglion data other reactionId
            reactions).1.calls := by
    intro isOther member outside
    apply List.mem_map_of_mem
    rw [← List.filter_append]
    exact mem_filter_not_mem member outside
  refine ⟨_, other, isNamed,
    descends.trans (.child rfl (forwards target isTarget absent) .here), ?_⟩
  intro isOther member outside
  apply List.mem_append_right
  apply List.mem_append_left
  exact forwards isOther member outside

/-- A call that transmits to a ganglion and to an inproc ganglion, which passes
it on to the same ganglion. -/
theorem descends_twice {environment : Environment δ η}
    (settled : plexus.Settled) (known : first ∈ plexus.neurons) {call : Call δ η}
    {reactions middle : Reactions} {calls : List (Call δ η)}
    (body : (plexus.program environment).run call reactions =
      (.gather calls, middle)) {ganglion target : GanglionId} {data : δ}
    {neuron : Neuron} {id : ReactionId}
    (direct : ∃ child ∈ calls, child.transmits target = true)
    (forwarded : .transmit ganglion data neuron (some id) ∈ calls)
    (inside : ganglion ∈ plexus.ganglia)
    (capable : (plexus.ganglion ganglion).capable first = true)
    (inproc : (plexus.ganglion ganglion).cls = .inproc)
    (named : neuron.name = first.name)
    (callable : plexus.Callable environment first.name data ganglion)
    (isTarget : target ∈ plexus.ganglia)
    (different : target ≠ ganglion) (absent : target ∉ middle.joined id) :
    ∃ made last after,
      (plexus.program environment).Descends call reactions made last after ∧
        2 ≤ made.countP (Call.transmits target) := by
  have outside : target ∉ (middle.join id ganglion).joined id := by
    intro member
    rcases Reactions.mem_joined_join.mp member with ⟨_, same⟩ | old
    · exact different same
    · exact absent old
  obtain ⟨made, other, _, descends, forwards⟩ :=
    descends_forward environment settled known inside capable inproc named data
      callable (some id) middle isTarget outside
  refine ⟨_, _, _, .child body forwarded descends, ?_⟩
  have firstTime : 0 < calls.countP (Call.transmits target) :=
    List.countP_pos_iff.mpr direct
  have secondTime : 0 < made.countP (Call.transmits target) :=
    List.countP_pos_iff.mpr
      ⟨_, forwards target isTarget outside, by simp⟩
  rw [List.countP_append]
  omega

theorem not_atMostOnce_of_calls {neuron : Neuron} {source : Origin δ η}
    {reactions : Reactions} {root : Call δ η}
    (rooted : plexus.rootCall neuron source = some root)
    {steps : List (Table Reactions (Call δ η) PlexoError × Action)}
    {finish : Table Reactions (Call δ η) PlexoError}
    (path : Path (plexus.program environment).step (.start reactions root)
      steps finish) (target : GanglionId)
    (twice : 2 ≤ finish.calls.countP (Call.transmits target)) :
    ¬ plexus.AtMostOnce environment neuron source := by
  intro once
  have bound := (once reactions root steps finish rooted path).1 target
  omega

theorem not_atMostOnce_of_descends {neuron : Neuron} {source : Origin δ η}
    {reactions after : Reactions} {root last : Call δ η}
    {made : List (Call δ η)}
    (rooted : plexus.rootCall neuron source = some root)
    (descends : (plexus.program environment).Descends root reactions made last
      after) (target : GanglionId)
    (twice : 2 ≤ made.countP (Call.transmits target)) :
    ¬ plexus.AtMostOnce environment neuron source := by
  obtain ⟨finish, inside, _, calls, _⟩ :=
    descends.inside rfl (Table.start_ready reactions root)
  obtain ⟨steps, path⟩ := inside.reached
  apply not_atMostOnce_of_calls rooted path target
  rw [calls, List.countP_append]
  omega

theorem exists_third {ganglia : List GanglionId} (nodup : ganglia.Nodup)
    (many : 2 < ganglia.length) (left right : GanglionId) :
    ∃ id ∈ ganglia, id ≠ left ∧ id ≠ right := by
  by_contra none
  have included : ganglia ⊆ [left, right] := by
    intro id member
    by_contra outside
    simp only [List.mem_cons, List.not_mem_nil, or_false, not_or] at outside
    exact none ⟨id, member, outside⟩
  have bound := (List.subperm_of_subset nodup included).length_le
  simp only [List.length_cons, List.length_nil] at bound
  omega

theorem notMem_join_next {reactions : Reactions}
    {current target : GanglionId} (different : target ≠ current) :
    target ∉ (reactions.join reactions.next current).joined
      reactions.next := by
  intro member
  rcases Reactions.mem_joined_join.mp member with ⟨_, same⟩ | old
  · exact different same
  · rw [Reactions.joined_next] at old
    cases old

theorem not_atMostOnce_transmit (settled : plexus.Settled)
    (known : first ∈ plexus.neurons)
    (capable : ∀ id ∈ plexus.ganglia,
      (plexus.ganglion id).capable first = true) {neuron : Neuron}
    (named : neuron.name = first.name) {origin : GanglionId}
    (inside : origin ∈ plexus.ganglia)
    (inproc : (plexus.ganglion origin).cls = .inproc) (data : δ)
    (wide : ¬ plexus.Narrow environment first.name origin data) :
    ¬ plexus.AtMostOnce environment neuron (.transmit origin data) := by
  simp only [Narrow, not_or, not_le, not_forall, not_not] at wide
  obtain ⟨many, callable, other, isOther, otherInproc, otherCallable,
    different⟩ := wide
  obtain ⟨target, isTarget, notOrigin, notOther⟩ :=
    exists_third settled.placed.nodup many origin other
  obtain ⟨made, object, last, isNamed, descends⟩ :=
    descends_transmit environment settled known inside (capable origin inside)
      inproc named data callable none Reactions.init
  have forwards : ∀ id ∈ plexus.ganglia, id ≠ origin →
      (.transmit id data last (some Reactions.init.next) : Call δ η) ∈
        (plexus.internalReaction origin data last none
          Reactions.init).1.calls := by
    intro id member notOrigin
    apply List.mem_map_of_mem
    rw [← List.filter_append]
    exact mem_filter_not_mem member (notMem_join_next notOrigin)
  have body : (plexus.program environment).run
      (.react (.internalReaction object origin) data last none)
      Reactions.init = plexus.internalReaction origin data last none
        Reactions.init := rfl
  obtain ⟨rest, _, _, further, twice⟩ :=
    descends_twice settled known body
      ⟨_, forwards target isTarget notOrigin, by simp⟩
      (forwards other isOther different) isOther (capable other isOther)
      otherInproc isNamed otherCallable isTarget notOther
      (notMem_join_next notOrigin)
  apply not_atMostOnce_of_descends rfl (descends.trans further) target
  rw [List.countP_append]
  omega

/-- The synapse of an external ganglion that has received a message. -/
structure Receives (plexus : Plexus) (environment : Environment δ η)
    (first : Neuron) (ganglion : GanglionId) (synapse : SynapseId) (data : η)
    (decoded : δ) : Prop where
  inside : ganglion ∈ plexus.ganglia
  capable : (plexus.ganglion ganglion).capable first = true
  found : (plexus.ganglion ganglion).base.synapses first.name = some synapse
  decodes : environment.decode
    ((plexus.ganglion ganglion).objects synapse).neuron data = .ok decoded
  callable : plexus.Callable environment first.name decoded ganglion

/-- An inproc ganglion that passes on what is transmitted through it. -/
structure Relays (plexus : Plexus) (environment : Environment δ η)
    (first : Neuron) (data : δ) (id : GanglionId) : Prop where
  inside : id ∈ plexus.ganglia
  capable : (plexus.ganglion id).capable first = true
  inproc : (plexus.ganglion id).cls = .inproc
  callable : plexus.Callable environment first.name data id

section Receive

variable {neuron : Neuron} {origin target middle : GanglionId}
  {synapse : SynapseId} {data : η} {decoded : δ}

theorem Receives.run
    (receives : plexus.Receives environment first origin synapse data decoded)
    (reactionId : Option ReactionId) (reactions : Reactions) :
    plexus.run environment (.transduce origin synapse data reactionId)
        reactions =
      (.gather
        (((plexus.ganglion origin).objects synapse).reactants.map
            (.react · decoded
              ((plexus.ganglion origin).objects synapse).neuron reactionId) ++
          ((plexus.ganglion origin).objects synapse).rawReactants.map
            (.reactRaw · data
              ((plexus.ganglion origin).objects synapse).neuron
              reactionId)), reactions) :=
  run_transduce environment receives.decodes
    ((callable_synapse receives.found).mp receives.callable)

theorem rootCall_receive
    (receives : plexus.Receives environment first origin synapse data decoded)
    (named : neuron.name = first.name) :
    plexus.rootCall neuron (.receive origin data : Origin δ η) =
      some (.transduce origin synapse data none) := by
  rw [rootCall, named, receives.found]
  rfl

/-- The reaction to a received message transmits to a ganglion and to an inproc
one, which passes it on to the same ganglion. -/
theorem not_atMostOnce_receive_same (settled : plexus.Settled)
    (known : first ∈ plexus.neurons) (named : neuron.name = first.name)
    (receives : plexus.Receives environment first origin synapse data decoded)
    (relays : plexus.Relays environment first decoded middle)
    {reactant : Reactant}
    (attached : reactant ∈
      (plexus.ganglion origin).reactantsOf first.name)
    {calls : List (Call δ η)}
    (body : (plexus.program environment).run
      (.react reactant decoded
        ((plexus.ganglion origin).objects synapse).neuron none)
      Reactions.init =
        (.gather calls, Reactions.init.join Reactions.init.next origin))
    (isTarget : target ∈ plexus.ganglia) (notOrigin : target ≠ origin)
    (notMiddle : target ≠ middle)
    (forwards : ∀ id, id = target ∨ id = middle →
      .transmit id decoded ((plexus.ganglion origin).objects synapse).neuron
        (some Reactions.init.next) ∈ calls) :
    ¬ plexus.AtMostOnce environment neuron (.receive origin data) := by
  rw [Ganglion.reactantsOf_synapse receives.found] at attached
  have isNamed :=
    ((plexus.ganglion origin).connected.named receives.found).2
  obtain ⟨rest, _, _, further, twice⟩ :=
    descends_twice settled known body
      ⟨_, forwards target (.inl rfl), by simp⟩ (forwards middle (.inr rfl))
      relays.inside relays.capable relays.inproc isNamed relays.callable
      isTarget notMiddle (notMem_join_next notOrigin)
  apply not_atMostOnce_of_descends (rootCall_receive receives named)
    (.child (receives.run none Reactions.init)
      (List.mem_append_left _ (List.mem_map_of_mem attached)) further) target
  rw [List.countP_append]
  exact Nat.le_add_left_of_le twice

/-- The raw reaction to a received message transmits to a ganglion, and the
decoded one to an inproc one, which passes the message on to the same
ganglion. -/
theorem not_atMostOnce_receive_raw (settled : plexus.Settled)
    (known : first ∈ plexus.neurons) (named : neuron.name = first.name)
    (receives : plexus.Receives environment first origin synapse data decoded)
    (relays : plexus.Relays environment first decoded middle)
    (foreign : origin ≠ middle)
    (declared : plexus.isGanglionExternal origin = true)
    (isTarget : target ∈ plexus.externalGanglia) (notOrigin : target ≠ origin)
    (notMiddle : target ≠ middle) :
    ¬ plexus.AtMostOnce environment neuron (.receive origin data) := by
  obtain ⟨reactant, attached, object, same⟩ :=
    exists_reaction settled known receives.inside receives.capable
  rw [declared, if_pos rfl] at same
  subst same
  rw [Ganglion.reactantsOf_synapse receives.found] at attached
  obtain ⟨raw, rawAttached⟩ : ∃ raw, (⟨raw, origin⟩ : RawReactant) ∈
      ((plexus.ganglion origin).objects synapse).rawReactants := by
    rcases (settled.station known receives.inside).rawReactants with
      ⟨raw, raws, _⟩ | ⟨_, impossible⟩
    · rw [← Ganglion.rawReactantsOf_synapse receives.found, raws]
      exact ⟨raw, List.mem_singleton_self _⟩
    · exact absurd ⟨receives.capable, declared⟩ impossible
  have isNamed :=
    ((plexus.ganglion origin).connected.named receives.found).2
  obtain ⟨rawCalls, later, rawBody, rawTransmits⟩ :
      ∃ rawCalls later, (plexus.program environment).run
        (.reactRaw ⟨raw, origin⟩ data
          ((plexus.ganglion origin).objects synapse).neuron none)
        Reactions.init = (.gather rawCalls, later) ∧
      .transmitEncoded target data
        ((plexus.ganglion origin).objects synapse).neuron
          (some Reactions.init.next) ∈ rawCalls :=
    ⟨_, _, rfl, List.mem_map_of_mem
      (mem_filter_not_mem isTarget (notMem_join_next notOrigin))⟩
  have decodedBody : (plexus.program environment).run
      (.react (.externalInternalReaction object origin) decoded
        ((plexus.ganglion origin).objects synapse).neuron none)
      later = plexus.externalInternalReaction origin decoded
        ((plexus.ganglion origin).objects synapse).neuron none later := rfl
  have toMiddle : (.transmit middle decoded
      ((plexus.ganglion origin).objects synapse).neuron (some later.next) :
        Call δ η) ∈
      (plexus.externalInternalReaction (η := η) origin decoded
        ((plexus.ganglion origin).objects synapse).neuron none
          later).1.calls :=
    List.mem_map_of_mem (mem_filter_not_mem
      (settled.placed.internal_of_inproc relays.inside relays.inproc)
      (notMem_join_next (Ne.symm foreign)))
  have absent : target ∉ ((later.join later.next origin).join later.next
      middle).joined later.next := by
    intro member
    rcases Reactions.mem_joined_join.mp member with ⟨_, same⟩ | old
    · exact notMiddle same
    · exact notMem_join_next notOrigin old
  obtain ⟨made, other, _, descends, forwards⟩ :=
    descends_forward environment settled known relays.inside relays.capable
      relays.inproc isNamed decoded relays.callable (some later.next)
      (later.join later.next origin) (List.mem_append_right _ isTarget) absent
  obtain ⟨reacting, body, isRaw, isDecoded⟩ :
      ∃ reacting, (plexus.program environment).run
        (.transduce origin synapse data none) Reactions.init =
          (.gather reacting, Reactions.init) ∧
      .reactRaw ⟨raw, origin⟩ data
        ((plexus.ganglion origin).objects synapse).neuron none ∈ reacting ∧
      .react (.externalInternalReaction object origin) decoded
        ((plexus.ganglion origin).objects synapse).neuron none ∈ reacting :=
    ⟨_, receives.run none Reactions.init,
      List.mem_append_right _ (List.mem_map_of_mem rawAttached),
      List.mem_append_left _ (List.mem_map_of_mem attached)⟩
  obtain ⟨steps, finish, path, calls⟩ := Program.Descends.after_sibling body
    isRaw isDecoded (by simp) rawBody (.child decodedBody toMiddle descends)
  have firstTime : 0 < rawCalls.countP (Call.transmits target) :=
    List.countP_pos_iff.mpr ⟨_, rawTransmits, by simp [Call.transmits]⟩
  have secondTime : 0 < made.countP (Call.transmits target) :=
    List.countP_pos_iff.mpr
      ⟨_, forwards target (List.mem_append_right _ isTarget) absent, by simp⟩
  apply not_atMostOnce_of_calls (rootCall_receive receives named) path target
  rw [calls]
  simp only [List.cons_append, List.countP_append, List.countP_cons]
  omega

theorem not_atMostOnce_receive (settled : plexus.Settled)
    (known : first ∈ plexus.neurons) (named : neuron.name = first.name)
    (receives : plexus.Receives environment first origin synapse data decoded)
    (relays : plexus.Relays environment first decoded middle)
    (foreign : origin ≠ middle) (many : 2 < plexus.ganglia.length) :
    ¬ plexus.AtMostOnce environment neuron (.receive origin data) := by
  obtain ⟨target, isTarget, notOrigin, notMiddle⟩ :=
    exists_third settled.placed.nodup many origin middle
  obtain ⟨reactant, attached, object, same⟩ :=
    exists_reaction settled known receives.inside receives.capable
  have outside : ∀ id, id = target ∨ id = middle → id ∉
      (Reactions.init.join Reactions.init.next origin).joined
        Reactions.init.next := by
    intro id either
    apply notMem_join_next
    rcases either with rfl | rfl
    · exact notOrigin
    · exact Ne.symm foreign
  cases declared : plexus.isGanglionExternal origin with
  | false =>
      rw [declared, if_neg Bool.false_ne_true] at same
      subst same
      apply not_atMostOnce_receive_same settled known named receives relays
        attached rfl isTarget notOrigin notMiddle
      intro id either
      apply List.mem_map_of_mem
      rw [← List.filter_append]
      apply mem_filter_not_mem _ (outside id either)
      rcases either with rfl | rfl
      · exact isTarget
      · exact relays.inside
  | true =>
      rw [declared, if_pos rfl] at same
      subst same
      rcases List.mem_append.mp isTarget with internal | external
      · apply not_atMostOnce_receive_same settled known named receives relays
          attached rfl isTarget notOrigin notMiddle
        intro id either
        apply List.mem_map_of_mem
        apply mem_filter_not_mem _ (outside id either)
        rcases either with rfl | rfl
        · exact internal
        · exact settled.placed.internal_of_inproc relays.inside relays.inproc
      · exact not_atMostOnce_receive_raw settled known named receives relays
          foreign declared external notOrigin notMiddle

end Receive

end Twice

theorem atMostOnce_of_undecoded {plexus : Plexus} {neuron : Neuron}
    {environment : Environment δ η} {origin : GanglionId} {data : η}
    {error : PlexoError}
    (undecoded : plexus.decodeAt environment origin neuron data =
      .error error) :
    plexus.AtMostOnce environment neuron (.receive origin data) := by
  intro reactions root steps finish rooted path
  obtain ⟨synapse, found, rfl⟩ := Option.map_eq_some_iff.mp rooted
  rw [decodeAt_synapse found] at undecoded
  have silent : ∀ state : Reactions, ((plexus.program environment).run
      (.transduce origin synapse data none) state).1.calls = [] := by
    intro state
    change (plexus.run environment _ state).1.calls = []
    simp only [run, undecoded]
    rfl
  have keeps : (plexus.program environment).Keeps
      fun _ call => call = .transduce origin synapse data none := by
    constructor
    · intro state call same child member
      rw [same, silent] at member
      cases member
    · exact fun _ other => other
  have count : ∀ made : Call δ η → Bool,
      finish.calls.countP made ≤
        if made (.transduce origin synapse data none) then 1 else 0 := by
    intro made
    have bound : finish.calls.countP made ≤
        (if made (.transduce origin synapse data none) then 1 else 0) +
          finish.calls.countP fun _ => false := by
      apply keeps.countP_le path rfl
      intro state call same
      rw [same, silent]
      simp
    simpa using bound
  refine ⟨fun ganglion => ?_, fun ganglion _ _ => ?_, fun reactant => ?_⟩
  · exact (count _).trans (by simp)
  · exact Nat.le_zero.mp ((count _).trans (by simp))
  · exact (count _).trans (by simp)

/-- A message is passed on at most once exactly if at most one reaction has
someone to forward to, or if it does not decode. -/
theorem atMostOnce_iff_narrow {plexus : Plexus} {operations : List Operation}
    (built : plexus.Built operations) {neuron first : Neuron}
    (registered : plexus.registered neuron = some first)
    (capable : ∀ id ∈ plexus.ganglia,
      (plexus.ganglion id).capable first = true)
    (environment : Environment δ η) :
    (∀ data, plexus.AtMostOnce environment neuron (.transmit .own data) ↔
      plexus.Narrow environment neuron.name .own data) ∧
    ∀ ganglion ∈ plexus.ganglia, (plexus.ganglion ganglion).cls ≠ .inproc →
      ∀ data, plexus.AtMostOnce environment neuron (.receive ganglion data) ↔
        ∀ decoded, plexus.decodeAt environment ganglion neuron data =
          .ok decoded →
            plexus.Narrow environment neuron.name ganglion decoded := by
  have settled := built.settled
  obtain ⟨known, named⟩ := mem_of_registered registered
  have isOwn : GanglionId.own ∈ plexus.ganglia :=
    List.mem_append_left _ settled.placed.own
  rw [← named]
  refine ⟨?_, ?_⟩
  · intro data
    constructor
    · intro once
      by_contra wide
      exact not_atMostOnce_transmit settled known capable named.symm isOwn
        settled.placed.ownClass data wide once
    · intro narrow
      exact narrow.atMostOnce settled known named isOwn (by simp) rfl
  · intro ganglion inside external data
    constructor
    · intro once decoded decodes
      by_contra wide
      obtain ⟨synapse, transmitter⟩ := Option.isSome_iff_exists.mp
        ((settled.station known inside).transmitter (capable ganglion inside))
      have found :=
        (plexus.ganglion ganglion).connected.transmitters transmitter
      rw [decodeAt_synapse (named ▸ found)] at decodes
      simp only [Narrow, not_or, not_le, not_forall, not_not] at wide
      obtain ⟨many, callable, middle, isMiddle, inproc, middleCallable,
        different⟩ := wide
      exact not_atMostOnce_receive settled known named.symm
        ⟨inside, capable ganglion inside, found, decodes, callable⟩
        ⟨isMiddle, capable middle isMiddle, inproc, middleCallable⟩
        (Ne.symm different) many once
    · intro narrow
      cases decoding : plexus.decodeAt environment ganglion neuron data with
      | error error => exact atMostOnce_of_undecoded decoding
      | ok decoded =>
          have sent : plexus.message? environment neuron
              (.receive ganglion data) = some ⟨decoded, some data⟩ := by
            rw [message?, decoding]
          apply Narrow.atMostOnce settled known named _ _ sent
            (narrow decoded decoding)
          · exact inside
          intro other _ same
          obtain ⟨rfl, _⟩ := Origin.receive.inj same
          exact external

end Plexus

/-- Codecs and sockets that never fail, and reactants that do nothing. -/
def sampleEnvironment : Environment Nat Nat where
  encode := fun _ data => .ok data
  decode := fun _ data => .ok data
  send := fun _ _ => .ok ()
  call := fun _ _ => .ok ()
  react := fun _ _ => .ok ()

theorem sampleEnvironment_coroutines : sampleEnvironment.Coroutines :=
  fun _ _ => rfl

namespace Plexus

/-- A plexus of the class of every example of the repository: one external
ganglion. -/
theorem atMostOnce_iff_narrow_pair :
    ∃ (plexus : Plexus) (operations : List Operation),
      plexus.Built operations ∧
      plexus.AtMostOnce sampleEnvironment sampleNeuron
        (.transmit .own 0) := by
  obtain ⟨plexus, operations, built, tested⟩ := @built_of_any
    (fun _ => (.external false, {})) [0] [] []
    [.call (.adapt sampleNeuron []), .adapted 0, .adapted 1, .resume 0]
    (fun plexus _ => plexus.registered sampleNeuron = some sampleNeuron ∧
      plexus.ganglia.length ≤ 2 ∧ ∀ id ∈ plexus.ganglia,
        (plexus.ganglion id).capable sampleNeuron = true)
    (by decide +kernel) (by decide)
  obtain ⟨registered, few, capable⟩ := of_decide_eq_true tested
  exact ⟨plexus, operations, built,
    ((atMostOnce_iff_narrow built registered capable sampleEnvironment).1
      0).mpr (.inl few)⟩

/-- The plexus's own ganglion, another inproc one and an external one: both
inproc ganglia forward to the external one. -/
theorem not_atMostOnce_three :
    ¬ ∀ (plexus : Plexus) (operations : List Operation)
      (neuron first : Neuron) (environment : Environment Nat Nat),
      plexus.Built operations → plexus.registered neuron = some first →
      (∀ id ∈ plexus.ganglia, (plexus.ganglion id).capable first = true) →
      (∀ data, plexus.AtMostOnce environment neuron (.transmit .own data)) ∧
      ∀ ganglion ∈ plexus.ganglia, (plexus.ganglion ganglion).cls ≠ .inproc →
        ∀ data, plexus.AtMostOnce environment neuron
          (.receive ganglion data) := by
  intro once
  obtain ⟨plexus, operations, built, tested⟩ := @built_of_any
    (fun index => (if index = 0 then .inproc else .external false, {})) [0, 1]
    [] [] [.call (.adapt sampleNeuron []), .adapted 0, .adapted 1, .adapted 2,
      .resume 0]
    (fun plexus _ => plexus.registered sampleNeuron = some sampleNeuron ∧
      (2 < plexus.ganglia.length ∧ .other 0 ∈ plexus.ganglia ∧
        (plexus.ganglion (.other 0)).cls = .inproc) ∧
      ∀ id ∈ plexus.ganglia,
        (plexus.ganglion id).capable sampleNeuron = true)
    (by decide +kernel) (by decide)
  obtain ⟨registered, ⟨many, isOther, inproc⟩, capable⟩ :=
    of_decide_eq_true tested
  have settled := built.settled
  have wide : ¬ plexus.Narrow sampleEnvironment sampleNeuron.name .own 0 := by
    have callable := callable_of_coroutines sampleEnvironment_coroutines plexus
      sampleNeuron.name 0
    rintro (few | uncallable | alone)
    · exact absurd many (Nat.not_lt_of_le few)
    · exact uncallable (callable .own)
    · exact absurd (alone (.other 0) isOther inproc (callable _)) (by simp)
  exact not_atMostOnce_transmit settled (mem_of_registered registered).1 capable
    rfl (List.mem_append_left _ settled.placed.own) settled.placed.ownClass 0
    wide
    ((once plexus operations sampleNeuron sampleNeuron sampleEnvironment built
      registered capable).1 0)

end Plexus

end Plexo
