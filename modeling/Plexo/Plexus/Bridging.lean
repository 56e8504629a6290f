import Plexo.Plexus.Delivery

/-!
# Bytes that cross a plexus

The raw reactions forward what an external ganglion has received as it is.  The
decoded message is forwarded as well, and every external ganglion that it
reaches encodes it again, with the codec that its transmitter has been made
with.
-/

namespace Plexo

open CallTable Transition

variable {δ η : Type}

namespace Plexus

/-- A call in which an external ganglion hands bytes to `transmit` of its
synapse. -/
def Sends (plexus : Plexus) (environment : Environment δ η)
    (target : GanglionId) (payload : η) : Call δ η → Prop
  | .transmitter ganglion transmitter data _ =>
      ganglion = target ∧ (plexus.ganglion ganglion).cls ≠ .inproc ∧
        environment.encode transmitter.encoder data = .ok payload
  | .externalTransmitter ganglion _ data _ =>
      ganglion = target ∧ data = payload
  | _ => False

/-- Other external ganglia send the bytes that an external ganglion has
received. -/
def PreservesBytes (plexus : Plexus) (environment : Environment δ η)
    (neuron : Neuron) (ganglion : GanglionId) (data : η) : Prop :=
  ∀ reactions root steps finish,
    plexus.rootCall neuron (.receive ganglion data) = some root →
    Path (plexus.program environment).step (.start reactions root) steps
      finish →
    ∀ target ∈ plexus.ganglia, (plexus.ganglion target).cls ≠ .inproc →
      target ≠ ganglion → ∀ call ∈ finish.calls, ∀ payload,
        plexus.Sends environment target payload call → payload = data

def encodeAt (plexus : Plexus) (environment : Environment δ η)
    (ganglion : GanglionId) (neuron : Neuron) (data : δ) :
    Except PlexoError η :=
  match (plexus.ganglion ganglion).base.getTransmitter neuron with
  | .error error => .error error
  | .ok transmitter => environment.encode transmitter.encoder data

/-- Raw reactions are the only way from one external ganglion to another. -/
def RawOnly (plexus : Plexus) (environment : Environment δ η) (first : Neuron)
    (ganglion target : GanglionId) (data : δ) : Prop :=
  plexus.isGanglionExternal ganglion = true ∧
    plexus.isGanglionExternal target = true ∧
    ∀ id, ¬ plexus.Relays environment first data id

theorem encodeAt_transmitter {plexus : Plexus} {environment : Environment δ η}
    {ganglion : GanglionId} {neuron : Neuron} {transmitter : Transmitter}
    (found : (plexus.ganglion ganglion).base.transmitters neuron.name =
      some transmitter) (data : δ) :
    plexus.encodeAt environment ganglion neuron data =
      environment.encode transmitter.encoder data := by
  rw [encodeAt, GanglionExternalBase.getTransmitter_ok.mpr found]

section Bridges

variable {plexus : Plexus} {neuron first : Neuron}
  {environment : Environment δ η} {origin target : GanglionId} {data : η}
  {decoded : δ}

/-- The call does not transmit decoded data through `target`. -/
def Avoids (target : GanglionId) : Call δ η → Prop
  | .transmit ganglion _ _ _ => ganglion ≠ target
  | .transmitter ganglion _ _ _ => ganglion ≠ target
  | _ => True

theorem keeps_avoids (settled : plexus.Settled) (known : first ∈ plexus.neurons)
    (environment : Environment δ η) (message : Content δ η)
    (rawOnly : plexus.RawOnly environment first origin target message.data) :
    (plexus.program environment).Keeps fun reactions call =>
      ((plexus.Legal origin first.name reactions call ∧
        plexus.Carries environment message call) ∧
          plexus.Called environment first.name origin message.data call) ∧
        Avoids target call := by
  have keeps := @keeps_called _ _ plexus origin first settled known environment
    message
  obtain ⟨declared, targetDeclared, noRelay⟩ := rawOnly
  constructor
  · intro reactions call both child member
    refine ⟨keeps.starts both.1 child member, ?_⟩
    obtain ⟨⟨⟨legal, _⟩, called⟩, avoids⟩ := both
    cases made_of_mem member with
    | transmitter _ => exact avoids
    | externalTransmitter _ => exact trivial
    | react _ _ => exact trivial
    | reactDecoded _ _ => exact trivial
    | reactRaw _ _ => exact trivial
    | forward _ _ =>
        obtain ⟨_, ganglion, inside, attached, kind, _⟩ := legal
        have station := settled.station known inside
        obtain ⟨rfl, undeclared⟩ := station.belongs _ attached
        rcases kind with rfl | inproc
        · rw [isGanglionExternal, undeclared] at declared
          cases declared
        · rcases station.reactions with ⟨_, adapted⟩ | ⟨none, _⟩
          · exact absurd ⟨inside, adapted, inproc, called.2⟩ (noRelay _)
          · exact absurd (List.countP_eq_zero.mp none _ attached)
              (by simp [Reactant.isUser])
    | forwardInternal isInternal _ =>
        rintro rfl
        rw [settled.placed.internal _ isInternal] at targetDeclared
        cases targetDeclared
    | forwardExternal _ _ => exact trivial
  · exact fun runs other => ⟨keeps.stays runs.1 other.1, other.2⟩

theorem descends_decoded (settled : plexus.Settled)
    (known : first ∈ plexus.neurons) (inside : origin ∈ plexus.ganglia)
    (capable : (plexus.ganglion origin).capable first = true)
    {synapse : SynapseId}
    (receives : plexus.Receives environment first origin synapse data decoded)
    (isTarget : target ∈ plexus.ganglia) (different : target ≠ origin)
    (reached : plexus.isGanglionExternal origin = false ∨
      target ∈ plexus.internalGanglia) (reactions : Reactions) :
    ∃ made other, other.name = first.name ∧
      (plexus.program environment).Descends
        (.transduce origin synapse data none) reactions made
        (.transmit target decoded other (some reactions.next))
        (reactions.join reactions.next origin) := by
  obtain ⟨reactant, attached, object, same⟩ :=
    exists_reaction settled known inside capable
  rw [Ganglion.reactantsOf_synapse receives.found] at attached
  have named := ((plexus.ganglion origin).connected.named receives.found).2
  have body := receives.run none reactions
  have outside := @notMem_join_next reactions _ _ different
  have reacts : ∃ calls, plexus.run environment
      (.react reactant decoded
        ((plexus.ganglion origin).objects synapse).neuron none) reactions =
        (.gather calls, reactions.join reactions.next origin) ∧
      .transmit target decoded ((plexus.ganglion origin).objects synapse).neuron
        (some reactions.next) ∈ calls := by
    cases declared : plexus.isGanglionExternal origin with
    | false =>
        rw [declared, if_neg Bool.false_ne_true] at same
        subst same
        refine ⟨_, rfl, List.mem_map_of_mem ?_⟩
        rw [← List.filter_append]
        exact mem_filter_not_mem isTarget outside
    | true =>
        rw [declared, if_pos rfl] at same
        subst same
        rcases reached with undeclared | internal
        · rw [declared] at undeclared
          cases undeclared
        · exact ⟨_, rfl, List.mem_map_of_mem
            (mem_filter_not_mem internal outside)⟩
  obtain ⟨calls, reaction, forwards⟩ := reacts
  exact ⟨_, _, named, .child body
    (List.mem_append_left _ (List.mem_map_of_mem attached))
    (.child reaction forwards .here)⟩

theorem descends_bridged (settled : plexus.Settled)
    (known : first ∈ plexus.neurons) (inside : origin ∈ plexus.ganglia)
    (capable : (plexus.ganglion origin).capable first = true)
    {synapse : SynapseId}
    (receives : plexus.Receives environment first origin synapse data decoded)
    (isTarget : target ∈ plexus.ganglia) (different : target ≠ origin)
    (external : (plexus.ganglion target).cls ≠ .inproc)
    (foreign : (plexus.ganglion origin).cls ≠ .inproc)
    (further : ¬ plexus.RawOnly environment first origin target decoded)
    (reactions : Reactions) :
    ∃ made other id after, other.name = first.name ∧
      (plexus.program environment).Descends
        (.transduce origin synapse data none) reactions made
        (.transmit target decoded other id) after := by
  by_cases direct : plexus.isGanglionExternal origin = false ∨
      target ∈ plexus.internalGanglia
  · obtain ⟨made, other, named, descends⟩ := descends_decoded settled known
      inside capable receives isTarget different direct reactions
    exact ⟨made, other, _, _, named, descends⟩
  · -- An inproc ganglion forwards the message that the reaction forwards to it.
    obtain ⟨declared, notInternal⟩ := not_or.mp direct
    rw [Bool.not_eq_false] at declared
    have targetDeclared : plexus.isGanglionExternal target = true := by
      rcases List.mem_append.mp isTarget with internal | isExternal
      · exact absurd internal notInternal
      · exact settled.placed.external target isExternal
    obtain ⟨id, isGanglion, idCapable, inproc, callable⟩ :
        ∃ id, plexus.Relays environment first decoded id := by
      by_contra none
      exact further ⟨declared, targetDeclared, not_exists.mp none⟩
    have notOrigin : id ≠ origin := by
      rintro rfl
      exact foreign inproc
    have isInternal := settled.placed.internal_of_inproc isGanglion inproc
    obtain ⟨before, middle, named, descends⟩ := descends_decoded settled known
      inside capable receives isGanglion notOrigin (.inr isInternal) reactions
    have absent : target ∉ ((reactions.join reactions.next origin).join
        reactions.next id).joined reactions.next := by
      intro member
      rcases Reactions.mem_joined_join.mp member with ⟨_, rfl⟩ | old
      · exact external inproc
      · exact notMem_join_next different old
    obtain ⟨after, other, otherNamed, forwards, _⟩ := descends_forward
      environment settled known isGanglion idCapable inproc named decoded
      callable (some reactions.next) _ isTarget absent
    exact ⟨_, other, _, _, otherNamed, descends.trans forwards⟩

/-- An external ganglion that the decoded message reaches encodes it. -/
theorem exists_sends (settled : plexus.Settled) (known : first ∈ plexus.neurons)
    (named : first.name = neuron.name) (isTarget : target ∈ plexus.ganglia)
    (capable : (plexus.ganglion target).capable first = true)
    (external : (plexus.ganglion target).cls ≠ .inproc) {root : Call δ η}
    {reactions after : Reactions} {made : List (Call δ η)} {other : Neuron}
    {id : Option ReactionId} (otherNamed : other.name = first.name)
    (descends : (plexus.program environment).Descends root reactions made
      (.transmit target decoded other id) after) {payload : η}
    (encodes : plexus.encodeAt environment target neuron decoded =
      .ok payload) :
    ∃ steps finish,
      Path (plexus.program environment).step (.start reactions root) steps
        finish ∧
      ∃ call ∈ finish.calls, plexus.Sends environment target payload call := by
  obtain ⟨transmitter, found⟩ := Option.isSome_iff_exists.mp
    ((settled.station known isTarget).transmitter capable)
  rw [encodeAt_transmitter (named ▸ found)] at encodes
  rw [← otherNamed] at found
  have further := descends.trans
    (.child (run_transmit environment decoded found)
      (List.mem_singleton_self _) .here)
  obtain ⟨finish, reached, _, _, _, _, last⟩ :=
    further.inside rfl (Table.start_ready reactions root)
  obtain ⟨steps, path⟩ := reached.reached
  exact ⟨steps, finish, path, _, Table.mem_calls_of_getElem? last, rfl,
    external, encodes⟩

end Bridges

theorem PreservesBytes.roundtrip {plexus : Plexus} {neuron first : Neuron}
    {environment : Environment δ η} {ganglion : GanglionId} {data : η}
    {decoded : δ}
    (preserves : plexus.PreservesBytes environment neuron ganglion data)
    (settled : plexus.Settled) (known : first ∈ plexus.neurons)
    (named : first.name = neuron.name)
    (capable : ∀ id ∈ plexus.ganglia, (plexus.ganglion id).cls ≠ .inproc →
      (plexus.ganglion id).capable first = true)
    (inside : ganglion ∈ plexus.ganglia)
    (foreign : (plexus.ganglion ganglion).cls ≠ .inproc)
    (decodes : plexus.decodeAt environment ganglion neuron data = .ok decoded)
    (callable : plexus.Callable environment first.name decoded ganglion)
    {target : GanglionId} (isTarget : target ∈ plexus.ganglia)
    (external : (plexus.ganglion target).cls ≠ .inproc)
    (different : target ≠ ganglion)
    (further : ¬ plexus.RawOnly environment first ganglion target decoded)
    {payload : η}
    (encodes : plexus.encodeAt environment target neuron decoded =
      .ok payload) : payload = data := by
  have sourceCapable := capable ganglion inside foreign
  obtain ⟨synapse, found⟩ := exists_synapse settled known inside sourceCapable
  have rooted : plexus.rootCall neuron (.receive ganglion data) =
      some (.transduce ganglion synapse data none : Call δ η) := by
    rw [rootCall, ← named, found]
    rfl
  rw [decodeAt_synapse (named ▸ found)] at decodes
  obtain ⟨made, other, id, after, otherNamed, descends⟩ := descends_bridged
    settled known inside sourceCapable
    ⟨inside, sourceCapable, found, decodes, callable⟩ isTarget different external
    foreign further Reactions.init
  obtain ⟨steps, finish, path, call, member, sends⟩ := exists_sends settled
    known named isTarget (capable target isTarget external) external otherNamed
    descends encodes
  exact preserves _ _ steps finish rooted path target isTarget external
    different call member payload sends

/-- Bytes that an external ganglion receives are preserved exactly if every
other one that the decoded message reaches encodes it to the same bytes. -/
theorem preservesBytes_iff_roundtrip {plexus : Plexus}
    {operations : List Operation} (built : plexus.Built operations)
    {neuron first : Neuron} (registered : plexus.registered neuron = some first)
    (capable : ∀ id ∈ plexus.ganglia, (plexus.ganglion id).cls ≠ .inproc →
      (plexus.ganglion id).capable first = true)
    {environment : Environment δ η} {ganglion : GanglionId}
    (inside : ganglion ∈ plexus.ganglia)
    (foreign : (plexus.ganglion ganglion).cls ≠ .inproc) {data : η} {decoded : δ}
    (decodes : plexus.decodeAt environment ganglion neuron data =
      .ok decoded) :
    plexus.PreservesBytes environment neuron ganglion data ↔
      (plexus.Callable environment neuron.name decoded ganglion →
        ∀ target ∈ plexus.ganglia, (plexus.ganglion target).cls ≠ .inproc →
          target ≠ ganglion →
          ¬ plexus.RawOnly environment first ganglion target decoded →
          ∀ payload, plexus.encodeAt environment target neuron decoded =
            .ok payload → payload = data) := by
  have settled := built.settled
  obtain ⟨known, named⟩ := mem_of_registered registered
  constructor
  · intro preserves callable target isTarget external different further payload
      encodes
    exact preserves.roundtrip settled known named capable inside foreign decodes
      (named ▸ callable) isTarget external different further encodes
  · intro roundtrip reactions root steps finish isRoot path target isTarget
      external different call member payload sends
    have enters : plexus.Enters (.receive ganglion data : Origin δ η) :=
      ⟨inside, foreign⟩
    have sent : plexus.message? environment neuron (.receive ganglion data) =
        some ⟨decoded, some data⟩ := by
      rw [message?, decodes]
    have initial :=
      (⟨⟨enters.legal_root settled.placed named isRoot reactions,
        carries_root isRoot sent⟩, called_root isRoot⟩ :
          (plexus.Legal ganglion first.name reactions root ∧
            plexus.Carries environment ⟨decoded, some data⟩ root) ∧
              plexus.Called environment first.name ganglion decoded root)
    obtain ⟨⟨legal, carries⟩, called⟩ :=
      (keeps_called settled known environment _).path path initial call member
    cases call with
    | transmitter id transmitter same reactionId =>
        obtain ⟨rfl, _, encodes⟩ := sends
        obtain rfl : same = decoded := carries
        by_cases rawOnly : plexus.RawOnly environment first ganglion id same
        · obtain ⟨synapse, _, rfl⟩ := Option.map_eq_some_iff.mp isRoot
          have avoids := ((keeps_avoids settled known environment _ rawOnly).path
            path ⟨initial, trivial⟩ _ member).2
          exact absurd rfl avoids
        · apply roundtrip (named ▸ called.resolve_left different) id isTarget
            external different rawOnly payload
          rw [encodeAt_transmitter (named ▸ legal.2.1)]
          exact encodes
    | externalTransmitter id other same reactionId =>
        obtain ⟨_, rfl⟩ := sends
        exact Option.some.inj carries
    | _ => exact sends.elim

/-- Two external ganglia and a codec that gives every payload back. -/
theorem preservesBytes_iff_roundtrip_pair :
    ∃ (plexus : Plexus) (operations : List Operation),
      plexus.Built operations ∧ .other 1 ∈ plexus.ganglia ∧
      plexus.PreservesBytes sampleEnvironment sampleNeuron (.other 0) 5 := by
  obtain ⟨plexus, operations, built, tested⟩ := @built_of_any
    (fun _ => (.external false, {})) [0, 1] [] []
    [.call (.adapt sampleNeuron []), .adapted 0, .adapted 1, .adapted 2,
      .resume 0]
    (fun plexus _ => plexus.registered sampleNeuron = some sampleNeuron ∧
      (.other 0 ∈ plexus.ganglia ∧ .other 1 ∈ plexus.ganglia ∧
        (plexus.ganglion (.other 0)).cls ≠ .inproc) ∧ ∀ id ∈ plexus.ganglia,
          (plexus.ganglion id).capable sampleNeuron = true)
    (by decide +kernel) (by decide)
  obtain ⟨registered, ⟨inside, isOther, foreign⟩, capable⟩ :=
    of_decide_eq_true tested
  refine ⟨plexus, operations, built, isOther, ?_⟩
  have decodes : plexus.decodeAt sampleEnvironment (.other 0) sampleNeuron 5 =
    .ok 5 := rfl
  apply (preservesBytes_iff_roundtrip built registered
    (fun id member _ => capable id member) inside foreign decodes).mpr
  intro _ target _ _ _ _ payload encodes
  rw [encodeAt] at encodes
  split at encodes
  · cases encodes
  · exact (Except.ok.inj encodes).symm

/-- A codec that decodes every payload to the same data, as one that ignores
what it does not know does. -/
theorem not_preservesBytes_forgetful :
    ¬ ∀ (plexus : Plexus) (operations : List Operation)
      (neuron first : Neuron) (environment : Environment Nat Nat)
      (ganglion : GanglionId) (data decoded : Nat),
      plexus.Built operations → plexus.registered neuron = some first →
      (∀ id ∈ plexus.ganglia, (plexus.ganglion id).capable first = true) →
      ganglion ∈ plexus.ganglia → (plexus.ganglion ganglion).cls ≠ .inproc →
      plexus.decodeAt environment ganglion neuron data = .ok decoded →
      plexus.PreservesBytes environment neuron ganglion data := by
  intro preserves
  obtain ⟨plexus, operations, built, tested⟩ := @built_of_any
    (fun _ => (.external false, {})) [0, 1] [] []
    [.call (.adapt sampleNeuron []), .adapted 0, .adapted 1, .adapted 2,
      .resume 0]
    (fun plexus _ => plexus.registered sampleNeuron = some sampleNeuron ∧
      (.other 0 ∈ plexus.ganglia ∧ .other 1 ∈ plexus.ganglia ∧
        (plexus.ganglion (.other 0)).cls = .external false ∧
        (plexus.ganglion (.other 1)).cls = .external false ∧
        (plexus.ganglion (.other 1)).hasTransmitter sampleNeuron.name = true) ∧
      ∀ id ∈ plexus.ganglia, (plexus.ganglion id).capable sampleNeuron = true)
    (by decide +kernel) (by decide)
  obtain ⟨registered, ⟨inside, isOther, cls, otherCls, adapted⟩, capable⟩ :=
    of_decide_eq_true tested
  let forgetful : Environment Nat Nat :=
    { sampleEnvironment with decode := fun _ _ => .ok 0 }
  have foreign : (plexus.ganglion (.other 0)).cls ≠ .inproc := by simp [cls]
  have external : (plexus.ganglion (.other 1)).cls ≠ .inproc := by
    simp [otherCls]
  have further : ¬ plexus.RawOnly forgetful sampleNeuron (.other 0) (.other 1)
      0 := by
    intro rawOnly
    simp [RawOnly, isGanglionExternal, cls,
      GanglionClass.isGanglionExternal] at rawOnly
  have encodes : plexus.encodeAt forgetful (.other 1) sampleNeuron 0 =
      .ok 0 := by
    obtain ⟨transmitter, found⟩ := Option.isSome_iff_exists.mp adapted
    rw [encodeAt_transmitter found]
    rfl
  have callable : plexus.Callable forgetful sampleNeuron.name 0 (.other 0) :=
    callable_of_coroutines (fun _ _ => rfl) ..
  have same := (preserves plexus operations sampleNeuron sampleNeuron forgetful
    (.other 0) 1 0 built registered capable inside foreign rfl).roundtrip
    built.settled (mem_of_registered registered).1 rfl
    (fun id member _ => capable id member) inside foreign rfl callable isOther
    external (by simp) further encodes
  cases same

end Plexus

end Plexo
