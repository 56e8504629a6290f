import Plexo.Plexus.Routing

/-!
# Whom a message reaches

The first reaction to a message is the only one with an empty set, and it
forwards to every ganglion but its own.  So every ganglion is reached, whatever
the other reactions leave out; and because a ganglion that has joined a reaction
is never forwarded to again, no message is passed on for ever.
-/

namespace Plexo

open CallTable Transition

variable {δ η : Type}

namespace Plexus

/-- The ganglia that a reaction id has not reached yet, besides `current`. -/
def unreached (plexus : Plexus) (joined : List GanglionId)
    (current : GanglionId) : Nat :=
  plexus.ganglia.countP fun id => id ∉ joined && id ≠ current

def joinedOf (reactions : Reactions) : Option ReactionId → List GanglionId
  | none => []
  | some id => reactions.joined id

/-- How many further calls a call can lead to, one below the other. -/
def rank (plexus : Plexus) (reactions : Reactions) : Call δ η → Nat
  | .transmit ganglion _ _ id =>
      4 * plexus.unreached (joinedOf reactions id) ganglion + 4
  | .transmitEncoded _ _ _ _ => 1
  | .transmitter ganglion _ _ id =>
      4 * plexus.unreached (joinedOf reactions id) ganglion + 3
  | .externalTransmitter _ _ _ _ => 0
  | .transduce ganglion _ _ id =>
      4 * plexus.unreached (joinedOf reactions id) ganglion + 3
  | .react (.internalReaction _ current) _ _ id =>
      4 * plexus.unreached (joinedOf reactions id) current + 2
  | .react (.externalInternalReaction _ current) _ _ id =>
      4 * plexus.unreached (joinedOf reactions id) current + 2
  | .react _ _ _ _ => 0
  | .reactRaw reactant _ _ id =>
      4 * plexus.unreached (joinedOf reactions id) reactant.current + 2

theorem unreached_mono {plexus : Plexus} {before after : List GanglionId}
    (grows : before ⊆ after) (current : GanglionId) :
    plexus.unreached after current ≤ plexus.unreached before current := by
  apply List.countP_mono_left
  intro id _ outside
  simp only [Bool.and_eq_true, decide_eq_true_eq] at outside ⊢
  exact ⟨fun member => outside.1 (grows member), outside.2⟩

theorem countP_lt_countP {α : Type} {list : List α} {left right : α → Bool}
    (implied : ∀ element, left element = true → right element = true)
    {element : α} (member : element ∈ list) (notLeft : left element = false)
    (isRight : right element = true) :
    list.countP left < list.countP right := by
  obtain ⟨index, found⟩ := List.getElem?_of_mem member
  obtain ⟨earlier, later, split, _⟩ := exists_around found
  have first := List.countP_mono_left
    fun other (_ : other ∈ earlier) => implied other
  have second := List.countP_mono_left
    fun other (_ : other ∈ later) => implied other
  rw [split, List.countP_append, List.countP_append, List.countP_cons,
    List.countP_cons, notLeft, isRight]
  simp only [Bool.false_eq_true, if_false, if_true]
  omega

theorem unreached_lt {plexus : Plexus} {before after : List GanglionId}
    {current target : GanglionId} (grows : before ⊆ after)
    (joined : current ∈ after) (inside : target ∈ plexus.ganglia)
    (outside : target ∉ after) :
    plexus.unreached after target < plexus.unreached before current := by
  apply countP_lt_countP _ inside
  · simp
  · simp only [Bool.and_eq_true, decide_eq_true_eq]
    refine ⟨fun member => outside (grows member), ?_⟩
    rintro rfl
    exact outside joined
  · intro id test
    simp only [Bool.and_eq_true, decide_eq_true_eq] at test ⊢
    refine ⟨fun member => test.1 (grows member), ?_⟩
    rintro rfl
    exact test.1 joined

theorem joinedOf_mono {before after : Reactions} (grows : Grows before after)
    (id : Option ReactionId) : joinedOf before id ⊆ joinedOf after id := by
  cases id with
  | none => exact List.Subset.refl _
  | some id => exact grows id

theorem rank_mono (plexus : Plexus) {before after : Reactions}
    (grows : Grows before after) (call : Call δ η) :
    plexus.rank after call ≤ plexus.rank before call := by
  have less : ∀ (id : Option ReactionId) (current : GanglionId),
      plexus.unreached (joinedOf after id) current ≤
        plexus.unreached (joinedOf before id) current :=
    fun id => unreached_mono (joinedOf_mono grows id)
  cases call with
  | transmit ganglion _ _ id =>
      have bound := less id ganglion
      simp only [rank]
      omega
  | transmitEncoded _ _ _ _ => exact le_rfl
  | transmitter ganglion _ _ id =>
      have bound := less id ganglion
      simp only [rank]
      omega
  | externalTransmitter _ _ _ _ => exact le_rfl
  | transduce ganglion _ _ id =>
      have bound := less id ganglion
      simp only [rank]
      omega
  | react reactant _ _ id =>
      cases reactant with
      | user _ => exact le_rfl
      | attached _ => exact le_rfl
      | internalReaction _ current =>
          have bound := less id current
          simp only [rank]
          omega
      | externalInternalReaction _ current =>
          have bound := less id current
          simp only [rank]
          omega
  | reactRaw reactant _ _ id =>
      have bound := less id reactant.current
      simp only [rank]
      omega

theorem unreached_join {plexus : Plexus} {reactions : Reactions}
    {current target : GanglionId} (reactionId : Option ReactionId)
    (inside : target ∈ plexus.ganglia)
    (outside : target ∉ (reactions.join (reactions.reactionId reactionId)
      current).joined (reactions.reactionId reactionId)) :
    plexus.unreached ((reactions.join (reactions.reactionId reactionId)
        current).joined (reactions.reactionId reactionId)) target <
      plexus.unreached (joinedOf reactions reactionId) current := by
  apply unreached_lt _ _ inside outside
  · cases reactionId with
    | none => exact List.nil_subset _
    | some id => exact grows_join _ _ _ id
  · exact Reactions.mem_joined_join.mpr (.inl ⟨rfl, rfl⟩)

theorem rank_react_lt {plexus : Plexus} {first : Neuron}
    (settled : plexus.Settled) (known : first ∈ plexus.neurons)
    {ganglion : GanglionId} (inside : ganglion ∈ plexus.ganglia)
    {reactant : Reactant}
    (attached : reactant ∈ (plexus.ganglion ganglion).reactantsOf first.name)
    (reactions : Reactions) (data : δ) (neuron : Neuron)
    (id : Option ReactionId) :
    plexus.rank reactions (.react reactant data neuron id : Call δ η) <
      4 * plexus.unreached (joinedOf reactions id) ganglion + 3 := by
  have belongs := (settled.station known inside).belongs _ attached
  cases reactant with
  | user _ => simp [rank]
  | attached _ => simp [rank]
  | internalReaction _ _ =>
      obtain ⟨rfl, _⟩ := belongs
      simp [rank]
  | externalInternalReaction _ _ =>
      obtain ⟨rfl, _⟩ := belongs
      simp [rank]

theorem rank_lt {plexus : Plexus} {environment : Environment δ η}
    {origin : GanglionId} {first : Neuron} (settled : plexus.Settled)
    (known : first ∈ plexus.neurons) {reactions : Reactions} {call : Call δ η}
    (legal : plexus.Legal origin first.name reactions call) :
    ∀ child ∈ (plexus.run environment call reactions).1.calls,
      plexus.rank (plexus.run environment call reactions).2 child <
        plexus.rank reactions call := by
  intro child member
  have lower := plexus.rank_mono
    (grows_run plexus environment call reactions) child
  cases made_of_mem member with
  | transmitter _ => exact lt_of_le_of_lt lower (by simp [rank])
  | externalTransmitter _ => exact lt_of_le_of_lt lower (by simp [rank])
  | @react ganglion transmitter data reactionId reactant inproc attached =>
      obtain ⟨inside, transmits, _⟩ := legal
      have found := (plexus.ganglion ganglion).connected.transmitters transmits
      rw [← Ganglion.reactantsOf_synapse found] at attached
      exact lt_of_le_of_lt lower
        (rank_react_lt settled known inside attached ..)
  | @reactDecoded ganglion synapse data decoded reactionId reactant _
      attached =>
      obtain ⟨rfl, inside, found, _⟩ := legal
      rw [← Ganglion.reactantsOf_synapse found] at attached
      exact lt_of_le_of_lt lower
        (rank_react_lt settled known inside attached ..)
  | @reactRaw ganglion synapse data decoded reactionId reactant _ attached =>
      obtain ⟨rfl, inside, found, _⟩ := legal
      rw [← Ganglion.rawReactantsOf_synapse found] at attached
      apply lt_of_le_of_lt lower
      rcases (settled.station known inside).rawReactants with
        ⟨object, raws, _⟩ | ⟨none, _⟩
      · rw [raws] at attached
        rw [List.mem_singleton.mp attached]
        simp [rank]
      · rw [none] at attached
        cases attached
  | @forward object current target data neuron reactionId isGanglion outside =>
      have less := unreached_join reactionId isGanglion outside
      change 4 * plexus.unreached ((reactions.join
        (reactions.reactionId reactionId) current).joined
          (reactions.reactionId reactionId)) target + 4 <
            4 * plexus.unreached (joinedOf reactions reactionId) current + 2
      omega
  | @forwardInternal object current target data neuron reactionId isGanglion
      outside =>
      have less := unreached_join reactionId
        (List.mem_append_left plexus.externalGanglia isGanglion) outside
      change 4 * plexus.unreached ((reactions.join
        (reactions.reactionId reactionId) current).joined
          (reactions.reactionId reactionId)) target + 4 <
            4 * plexus.unreached (joinedOf reactions reactionId) current + 2
      omega
  | forwardExternal _ _ => exact lt_of_le_of_lt lower (by simp [rank])

/-- A bound on the calls that one call makes. -/
def width (plexus : Plexus) (name : String) : Nat :=
  plexus.ganglia.length + 1 + (plexus.ganglia.map fun id =>
    ((plexus.ganglion id).reactantsOf name).length +
      ((plexus.ganglion id).rawReactantsOf name).length).sum

theorem length_dendrite_le (plexus : Plexus) (name : String)
    {ganglion : GanglionId} (inside : ganglion ∈ plexus.ganglia) :
    ((plexus.ganglion ganglion).reactantsOf name).length +
      ((plexus.ganglion ganglion).rawReactantsOf name).length ≤
        plexus.width name := by
  have one := List.single_le_sum (fun _ _ => Nat.zero_le _) _
    (List.mem_map.mpr ⟨ganglion, inside, rfl⟩ :
      ((plexus.ganglion ganglion).reactantsOf name).length +
        ((plexus.ganglion ganglion).rawReactantsOf name).length ∈
          plexus.ganglia.map fun id =>
            ((plexus.ganglion id).reactantsOf name).length +
              ((plexus.ganglion id).rawReactantsOf name).length)
  rw [width]
  omega

theorem length_calls_le {plexus : Plexus} {environment : Environment δ η}
    {origin : GanglionId} {first : Neuron} {reactions : Reactions}
    {call : Call δ η}
    (legal : plexus.Legal origin first.name reactions call) :
    (plexus.run environment call reactions).1.calls.length ≤
      plexus.width first.name := by
  have internal : plexus.internalGanglia.length ≤ plexus.width first.name := by
    rw [width, ganglia, List.length_append]
    omega
  have external : plexus.externalGanglia.length ≤ plexus.width first.name := by
    rw [width, ganglia, List.length_append]
    omega
  have all : plexus.internalGanglia.length + plexus.externalGanglia.length ≤
      plexus.width first.name := by
    rw [width, ganglia, List.length_append]
    omega
  have one : 1 ≤ plexus.width first.name := by
    rw [width]
    omega
  cases call with
  | transmit ganglion data neuron id =>
      rw [run]
      split
      · exact Nat.zero_le _
      · exact one
  | transmitEncoded ganglion data neuron id =>
      rw [run]
      split
      · exact Nat.zero_le _
      · exact one
  | transmitter ganglion transmitter data id =>
      obtain ⟨inside, transmits, _⟩ := legal
      have found := (plexus.ganglion ganglion).connected.transmitters transmits
      simp only [run]
      split
      · split
        · exact Nat.zero_le _
        · have bound := plexus.length_dendrite_le first.name inside
          rw [Ganglion.reactantsOf_synapse found] at bound
          simp only [Outcome.calls, List.length_map]
          omega
      · rw [outcomeOf_calls]
        exact Nat.zero_le _
  | externalTransmitter ganglion synapse data id =>
      rw [run, outcomeOf_calls]
      exact Nat.zero_le _
  | transduce ganglion synapse data id =>
      obtain ⟨rfl, inside, found, _⟩ := legal
      simp only [run]
      split
      · exact Nat.zero_le _
      · split
        · exact Nat.zero_le _
        · have bound := plexus.length_dendrite_le first.name inside
          rw [Ganglion.reactantsOf_synapse found,
            Ganglion.rawReactantsOf_synapse found] at bound
          simpa [Outcome.calls] using bound
  | react reactant data neuron id =>
      cases reactant with
      | user _ =>
          rw [run, outcomeOf_calls]
          exact Nat.zero_le _
      | attached _ =>
          rw [run, outcomeOf_calls]
          exact Nat.zero_le _
      | internalReaction _ _ =>
          refine le_trans ?_ all
          simp only [run, internalReaction, Outcome.calls, List.length_map,
            List.length_append]
          exact Nat.add_le_add (List.length_filter_le ..)
            (List.length_filter_le ..)
      | externalInternalReaction _ _ =>
          refine le_trans ?_ internal
          simp only [run, externalInternalReaction, Outcome.calls,
            List.length_map]
          exact List.length_filter_le ..
  | reactRaw _ _ _ _ =>
      refine le_trans ?_ external
      simp only [run, externalExternalReaction, Outcome.calls, List.length_map]
      exact List.length_filter_le ..

theorem length_le {plexus : Plexus} {environment : Environment δ η}
    {origin : GanglionId} {first : Neuron} (settled : plexus.Settled)
    (known : first ∈ plexus.neurons) {reactions : Reactions} {root : Call δ η}
    {steps : List (Table Reactions (Call δ η) PlexoError × Action)}
    {finish : Table Reactions (Call δ η) PlexoError}
    (path : Path (plexus.program environment).step (.start reactions root)
      steps finish)
    (legal : plexus.Legal origin first.name reactions root) :
    steps.length ≤
      (plexus.width first.name + 2) ^ (plexus.rank reactions root + 1) := by
  apply (keeps_legal settled known environment).length_le plexus.rank
    (plexus.width first.name) path legal
  · exact length_calls_le
  · exact rank_lt settled known
  · exact fun {_ _ other} _ _ => plexus.rank_mono (grows_run _ _ _ _) other

section Reached

variable {plexus : Plexus} {first : Neuron} {origin : GanglionId}
  {environment : Environment δ η} {reactions : Reactions} {root : Call δ η}
  {steps : List (Table Reactions (Call δ η) PlexoError × Action)}
  {finish : Table Reactions (Call δ η) PlexoError}

theorem reactants_called (settled : plexus.Settled)
    (known : first ∈ plexus.neurons)
    (path : Path (plexus.program environment).step (.start reactions root)
      steps finish)
    (legal : plexus.Legal origin first.name reactions root)
    {message : Content δ η}
    (carries : plexus.Carries environment message root)
    (final : (plexus.program environment).Final finish)
    {ganglion : GanglionId} (inside : ganglion ∈ plexus.ganglia)
    (capable : (plexus.ganglion ganglion).capable first = true)
    (inproc : (plexus.ganglion ganglion).cls = .inproc)
    (callable : plexus.Callable environment first.name message.data ganglion)
    {id : Option ReactionId}
    (called : ∃ call ∈ finish.calls, ∃ data neuron,
      call = .transmit ganglion data neuron id)
    {reactant : Reactant}
    (attached : reactant ∈
      (plexus.ganglion ganglion).reactantsOf first.name) :
    ∃ call ∈ finish.calls, ∃ data neuron,
      call = .react reactant data neuron id := by
  have keeps := (@keeps_legal _ _ plexus origin first settled known
    environment).and (plexus.keeps_carries environment message)
  have transmitted : ∃ call ∈ finish.calls, ∃ transmitter data,
      call = .transmitter ganglion transmitter data id := by
    apply keeps.made_of_final path ⟨legal, carries⟩ final _ called
    intro state call sound isTransmit
    obtain ⟨data, neuron, rfl⟩ := isTransmit
    obtain ⟨transmitter, found⟩ := Option.isSome_iff_exists.mp
      ((settled.station known inside).transmitter capable)
    rw [← sound.1.2.1] at found
    change ∃ child ∈ (plexus.run environment _ state).1.calls, _
    rw [run_transmit environment data found]
    exact ⟨_, List.mem_singleton_self _, transmitter, data, rfl⟩
  apply keeps.made_of_final path ⟨legal, carries⟩ final _ transmitted
  intro state call sound isTransmitter
  obtain ⟨transmitter, data, rfl⟩ := isTransmitter
  obtain ⟨⟨_, transmits, _⟩, rfl⟩ := sound
  have found := (plexus.ganglion ganglion).connected.transmitters transmits
  rw [Ganglion.reactantsOf_synapse found] at attached
  change ∃ child ∈ (plexus.run environment _ state).1.calls, _
  rw [run_transmitter environment _ inproc
    ((callable_synapse found).mp callable)]
  exact ⟨_, List.mem_map_of_mem attached, _, _, rfl⟩

/-- The first reaction to a message. -/
def IsFirstReaction (plexus : Plexus) (origin target : GanglionId) :
    Call δ η → Prop
  | .react (.internalReaction _ current) _ _ id =>
      current = origin ∧ id = none
  | .react (.externalInternalReaction _ current) _ _ id =>
      current = origin ∧ id = none ∧ target ∈ plexus.internalGanglia
  | .reactRaw reactant _ _ id =>
      reactant.current = origin ∧ id = none ∧ target ∈ plexus.externalGanglia
  | _ => False

theorem firstReaction_transmits {target : GanglionId} {call : Call δ η}
    (inside : target ∈ plexus.ganglia) (different : target ≠ origin)
    (isFirst : plexus.IsFirstReaction origin target call)
    (state : Reactions) :
    ∃ child ∈ (plexus.run environment call state).1.calls,
      child.transmits target = true := by
  have outside := @notMem_join_next state _ _ different
  cases call with
  | react reactant data neuron id =>
      cases reactant with
      | internalReaction object current =>
          obtain ⟨rfl, rfl⟩ := isFirst
          refine ⟨.transmit target data neuron (some state.next), ?_, by simp⟩
          apply List.mem_map_of_mem
          rw [← List.filter_append]
          exact mem_filter_not_mem inside outside
      | externalInternalReaction object current =>
          obtain ⟨rfl, rfl, internal⟩ := isFirst
          refine ⟨.transmit target data neuron (some state.next), ?_, by simp⟩
          exact List.mem_map_of_mem (mem_filter_not_mem internal outside)
      | user _ => exact isFirst.elim
      | attached _ => exact isFirst.elim
  | reactRaw reactant data neuron id =>
      obtain ⟨rfl, rfl, external⟩ := isFirst
      refine ⟨.transmitEncoded target data neuron (some state.next), ?_,
        by simp [Call.transmits]⟩
      exact List.mem_map_of_mem (mem_filter_not_mem external outside)
  | transmit _ _ _ _ => exact isFirst.elim
  | transmitEncoded _ _ _ _ => exact isFirst.elim
  | transmitter _ _ _ _ => exact isFirst.elim
  | externalTransmitter _ _ _ _ => exact isFirst.elim
  | transduce _ _ _ _ => exact isFirst.elim

theorem exists_firstReaction (settled : plexus.Settled)
    (known : first ∈ plexus.neurons) (inside : origin ∈ plexus.ganglia)
    (capable : (plexus.ganglion origin).capable first = true)
    {target : GanglionId} (isTarget : target ∈ plexus.ganglia) :
    (∃ reactant ∈ (plexus.ganglion origin).reactantsOf first.name,
      ∀ (data : δ) neuron, plexus.IsFirstReaction origin target
        (.react reactant data neuron none : Call δ η)) ∨
    (∃ reactant ∈ (plexus.ganglion origin).rawReactantsOf first.name,
      ∀ (data : η) neuron, plexus.IsFirstReaction origin target
        (.reactRaw reactant data neuron none : Call δ η)) := by
  obtain ⟨reactant, attached, object, same⟩ :=
    exists_reaction settled known inside capable
  cases declared : plexus.isGanglionExternal origin with
  | false =>
      rw [declared, if_neg Bool.false_ne_true] at same
      subst same
      exact .inl ⟨_, attached, fun _ _ => ⟨rfl, rfl⟩⟩
  | true =>
      rw [declared, if_pos rfl] at same
      subst same
      rcases List.mem_append.mp isTarget with internal | external
      · exact .inl ⟨_, attached, fun _ _ => ⟨rfl, rfl, internal⟩⟩
      · rcases (settled.station known inside).rawReactants with
          ⟨raw, raws, _⟩ | ⟨_, impossible⟩
        · refine .inr ⟨⟨raw, origin⟩, ?_, fun _ _ => ⟨rfl, rfl, external⟩⟩
          rw [raws]
          exact List.mem_singleton_self _
        · exact absurd ⟨capable, declared⟩ impossible

theorem exists_transmits (settled : plexus.Settled)
    (known : first ∈ plexus.neurons)
    (path : Path (plexus.program environment).step (.start reactions root)
      steps finish)
    (legal : plexus.Legal origin first.name reactions root)
    (final : (plexus.program environment).Final finish)
    {target : GanglionId} (inside : target ∈ plexus.ganglia)
    (different : target ≠ origin)
    (reacted : ∃ call ∈ finish.calls,
      plexus.IsFirstReaction origin target call) :
    ∃ call ∈ finish.calls, call.transmits target = true := by
  have keeps := @keeps_legal _ _ plexus origin first settled known environment
  apply keeps.made_of_final path legal final _ reacted
  intro state call _ isFirst
  exact firstReaction_transmits inside different isFirst state

end Reached

/-- A message that users transmit through the plexus, or that one of its
external ganglia has received. -/
def Enters (plexus : Plexus) : Origin δ η → Prop
  | .transmit ganglion _ => ganglion = .own
  | .receive ganglion _ =>
      ganglion ∈ plexus.ganglia ∧ (plexus.ganglion ganglion).cls ≠ .inproc

theorem Enters.inside {plexus : Plexus} {source : Origin δ η}
    (enters : plexus.Enters source) (placed : plexus.Placed) :
    source.ganglion ∈ plexus.ganglia := by
  cases source with
  | transmit ganglion data =>
      obtain rfl : ganglion = .own := enters
      exact List.mem_append_left _ placed.own
  | receive ganglion data => exact enters.1

theorem Enters.legal_root {plexus : Plexus} {source : Origin δ η}
    (enters : plexus.Enters source) (placed : plexus.Placed)
    {neuron first : Neuron} (named : first.name = neuron.name)
    {root : Call δ η} (rooted : plexus.rootCall neuron source = some root)
    (reactions : Reactions) :
    plexus.Legal source.ganglion first.name reactions root := by
  apply Plexus.legal_root (enters.inside placed) named _ rooted
  rintro ganglion data rfl
  exact enters.2

theorem exists_synapse {plexus : Plexus} {first : Neuron}
    (settled : plexus.Settled) (known : first ∈ plexus.neurons)
    {ganglion : GanglionId} (inside : ganglion ∈ plexus.ganglia)
    (capable : (plexus.ganglion ganglion).capable first = true) :
    ∃ synapse, (plexus.ganglion ganglion).base.synapses first.name =
      some synapse := by
  obtain ⟨transmitter, found⟩ := Option.isSome_iff_exists.mp
    ((settled.station known inside).transmitter capable)
  exact ⟨_, (plexus.ganglion ganglion).connected.transmitters found⟩

theorem exists_root {plexus : Plexus} {neuron first : Neuron}
    (settled : plexus.Settled) (known : first ∈ plexus.neurons)
    (named : first.name = neuron.name) {source : Origin δ η}
    (inside : source.ganglion ∈ plexus.ganglia)
    (capable : (plexus.ganglion source.ganglion).capable first = true) :
    ∃ root, plexus.rootCall neuron source = some root := by
  cases source with
  | transmit ganglion data => exact ⟨_, rfl⟩
  | receive ganglion data =>
      obtain ⟨synapse, found⟩ :=
        exists_synapse settled known inside capable
      rw [named] at found
      refine ⟨.transduce ganglion synapse data none, ?_⟩
      have found : (plexus.ganglion ganglion).base.synapses neuron.name =
        some synapse := found
      rw [rootCall, found]
      rfl

theorem rawReactantsOf_own {plexus : Plexus} {first : Neuron}
    (settled : plexus.Settled) (known : first ∈ plexus.neurons) :
    (plexus.ganglion .own).rawReactantsOf first.name = [] := by
  have station := settled.station known
    (List.mem_append_left _ settled.placed.own)
  rcases station.rawReactants with ⟨_, _, _, declared⟩ | ⟨none, _⟩
  · rw [settled.placed.ownClass] at declared
    cases declared
  · exact none

section Lossless

variable {plexus : Plexus} {neuron first : Neuron} {source : Origin δ η}
  {environment : Environment δ η} {reactions : Reactions} {root : Call δ η}
  {message : Content δ η}
  {steps : List (Table Reactions (Call δ η) PlexoError × Action)}
  {finish : Table Reactions (Call δ η) PlexoError}

theorem exists_reacted (settled : plexus.Settled)
    (known : first ∈ plexus.neurons) (named : first.name = neuron.name)
    (enters : plexus.Enters source)
    (capable : (plexus.ganglion source.ganglion).capable first = true)
    (rooted : plexus.rootCall neuron source = some root)
    (sent : plexus.message? environment neuron source = some message)
    (callable : plexus.Callable environment first.name message.data
      source.ganglion)
    (path : Path (plexus.program environment).step (.start reactions root)
      steps finish)
    (final : (plexus.program environment).Final finish)
    {target : GanglionId} (isTarget : target ∈ plexus.ganglia) :
    ∃ call ∈ finish.calls,
      plexus.IsFirstReaction source.ganglion target call := by
  have inside := enters.inside settled.placed
  have legal := enters.legal_root settled.placed named rooted reactions
  have carries := carries_root rooted sent
  have isFirst := @exists_firstReaction δ η plexus first source.ganglion
    settled known inside capable target isTarget
  cases source with
  | transmit ganglion data =>
      obtain rfl : ganglion = .own := enters
      obtain ⟨⟩ := rooted
      rcases isFirst with ⟨reactant, attached, isFirst⟩ | ⟨raw, attached, _⟩
      · obtain ⟨call, member, data, other, rfl⟩ := reactants_called settled
          known path legal carries final inside capable settled.placed.ownClass
          callable ⟨_, Program.mem_calls_of_path path, data, neuron, rfl⟩
          attached
        exact ⟨_, member, isFirst data other⟩
      · rw [Origin.ganglion, rawReactantsOf_own settled known] at attached
        cases attached
  | receive ganglion data =>
      obtain ⟨synapse, found, rfl⟩ := Option.map_eq_some_iff.mp rooted
      have keeps := @keeps_legal _ _ plexus ganglion first settled known
        environment
      rw [← named] at found
      have makes : ∀ {child : Call δ η} {state : Reactions},
          child ∈ ((plexus.ganglion ganglion).objects
                synapse).reactants.map
              (.react · message.data
                ((plexus.ganglion ganglion).objects synapse).neuron none) ++
            ((plexus.ganglion ganglion).objects
                synapse).rawReactants.map
              (.reactRaw · data
                ((plexus.ganglion ganglion).objects synapse).neuron none) →
          child ∈ ((plexus.program environment).run
            (.transduce ganglion synapse data none) state).1.calls := by
        intro child state member
        change child ∈ (plexus.run environment _ state).1.calls
        rw [run_transduce environment carries.2
          ((callable_synapse found).mp callable)]
        exact member
      rcases isFirst with
        ⟨reactant, attached, isFirst⟩ | ⟨raw, attached, isFirst⟩
      · rw [Origin.ganglion, Ganglion.reactantsOf_synapse found] at attached
        have member := keeps.child_of_final path legal final
          (Program.mem_calls_of_path path) fun _ => makes
            (List.mem_append_left _ (List.mem_map_of_mem attached))
        exact ⟨_, member, isFirst _ _⟩
      · rw [Origin.ganglion, Ganglion.rawReactantsOf_synapse found]
          at attached
        have member := keeps.child_of_final path legal final
          (Program.mem_calls_of_path path) fun _ => makes
            (List.mem_append_right _ (List.mem_map_of_mem attached))
        exact ⟨_, member, isFirst _ _⟩

theorem exists_invoked (settled : plexus.Settled)
    (known : first ∈ plexus.neurons) (named : first.name = neuron.name)
    (enters : plexus.Enters source)
    (capable : ∀ id, id = .own ∨ id = source.ganglion →
      (plexus.ganglion id).capable first = true)
    (rooted : plexus.rootCall neuron source = some root)
    (sent : plexus.message? environment neuron source = some message)
    (callable : ∀ id, id = .own ∨ id = source.ganglion →
      plexus.Callable environment first.name message.data id)
    (path : Path (plexus.program environment).step (.start reactions root)
      steps finish)
    (final : (plexus.program environment).Final finish)
    {reactant : Reactant} (attached : reactant ∈
      (plexus.ganglion .own).reactantsOf first.name) :
    ∃ call ∈ finish.calls, ∃ data other id,
      call = .react reactant data other id := by
  have isOwn : GanglionId.own ∈ plexus.ganglia :=
    List.mem_append_left _ settled.placed.own
  have legal := enters.legal_root settled.placed named rooted reactions
  have carries := carries_root rooted sent
  have keeps := @keeps_legal _ _ plexus source.ganglion first settled known
    environment
  have transmitted : ∃ call ∈ finish.calls, ∃ data other id,
      call = .transmit .own data other id := by
    cases source with
    | transmit ganglion data =>
        obtain rfl : ganglion = .own := enters
        obtain ⟨⟩ := rooted
        exact ⟨_, Program.mem_calls_of_path path, data, neuron, none, rfl⟩
    | receive ganglion data =>
        have different : GanglionId.own ≠ ganglion := by
          rintro rfl
          exact enters.2 settled.placed.ownClass
        obtain ⟨call, member, transmits⟩ := exists_transmits settled known path
          legal final isOwn different (exists_reacted settled known named enters
            (capable _ (.inr rfl)) rooted sent (callable _ (.inr rfl)) path
            final isOwn)
        rcases Call.transmits_cases transmits with
          ⟨data, other, reactionId, rfl⟩ | ⟨data, other, reactionId, rfl⟩
        · exact ⟨_, member, data, other, reactionId, rfl⟩
        · exact absurd settled.placed.ownClass
            (settled.placed.not_inproc (keeps.path path legal _ member).1)
  obtain ⟨call, member, data, other, id, rfl⟩ := transmitted
  obtain ⟨reacted, inside, data, other, rfl⟩ := reactants_called settled known
    path legal carries final isOwn (capable _ (.inl rfl))
    settled.placed.ownClass (callable _ (.inl rfl))
    ⟨_, member, data, other, rfl⟩ attached
  exact ⟨_, inside, data, other, id, rfl⟩

end Lossless

/-- Every order of the calls for a message comes to its end, and what has been
called then is as it should be. -/
def EndsWith (plexus : Plexus) (environment : Environment δ η) (neuron : Neuron)
    (source : Origin δ η) (good : List (Call δ η) → Prop) : Prop :=
  ∀ reactions, ∃ root, plexus.rootCall neuron source = some root ∧
    (∃ bound, ∀ steps finish,
      Path (plexus.program environment).step (.start reactions root) steps
        finish → steps.length ≤ bound) ∧
    ∀ steps finish,
      Path (plexus.program environment).step (.start reactions root) steps
        finish →
      (plexus.program environment).Final finish → good finish.calls

theorem EndsWith.imp {plexus : Plexus} {environment : Environment δ η}
    {neuron : Neuron} {source : Origin δ η} {good fine : List (Call δ η) → Prop}
    (ends : plexus.EndsWith environment neuron source good)
    (implies : ∀ calls, good calls → fine calls) :
    plexus.EndsWith environment neuron source fine := by
  intro reactions
  obtain ⟨root, rooted, bounded, arrives⟩ := ends reactions
  exact ⟨root, rooted, bounded, fun steps finish path final =>
    implies _ (arrives steps finish path final)⟩

/-- Every other ganglion has been handed the message, or its bytes. -/
def HandedOn (plexus : Plexus) (environment : Environment δ η)
    (source : Origin δ η) (message : Content δ η) (calls : List (Call δ η)) :
    Prop :=
  ∀ ganglion ∈ plexus.ganglia, ganglion ≠ source.ganglion →
    ∃ call ∈ calls, call.transmits ganglion = true ∧
      plexus.Carries environment message call

/-- Every reactant that users have registered has been invoked with the
message. -/
def AllInvoked (plexus : Plexus) (operations : List Operation) (neuron : Neuron)
    (message : Content δ η) (calls : List (Call δ η)) : Prop :=
  ∀ reactant, (∃ operation ∈ operations,
      plexus.Registers neuron.name reactant operation) →
    ∃ other id, .react (.user reactant) message.data other id ∈ calls

/-- A message is handed on and comes to the reactants of users. -/
def Delivers (plexus : Plexus) (operations : List Operation)
    (environment : Environment δ η) (neuron : Neuron) (source : Origin δ η)
    (message : Content δ η) : Prop :=
  plexus.EndsWith environment neuron source fun calls =>
    plexus.HandedOn environment source message calls ∧
      plexus.AllInvoked operations neuron message calls

theorem endsWith_handedOn {plexus : Plexus} {neuron first : Neuron}
    (settled : plexus.Settled) (known : first ∈ plexus.neurons)
    (named : first.name = neuron.name)
    (capable : ∀ id ∈ plexus.ganglia,
      (plexus.ganglion id).capable first = true)
    {environment : Environment δ η} {source : Origin δ η}
    (enters : plexus.Enters source) {message : Content δ η}
    (sent : plexus.message? environment neuron source = some message)
    (callable : plexus.Callable environment first.name message.data
      source.ganglion) :
    plexus.EndsWith environment neuron source
      (plexus.HandedOn environment source message) := by
  have inside := enters.inside settled.placed
  intro reactions
  obtain ⟨root, rooted⟩ :=
    exists_root settled known named inside (capable _ inside)
  have legal := enters.legal_root settled.placed named rooted reactions
  refine ⟨root, rooted, ⟨_, fun steps finish path =>
    length_le settled known path legal⟩, ?_⟩
  intro steps finish path final ganglion isGanglion different
  obtain ⟨call, member, transmits⟩ := exists_transmits settled known path legal
    final isGanglion different (exists_reacted settled known named enters
      (capable _ inside) rooted sent callable path final isGanglion)
  have carries := (plexus.keeps_carries environment message).path path
    (carries_root rooted sent)
  exact ⟨call, member, transmits, carries call member⟩

/-- Whatever codecs, sockets and the coroutines of reactants raise, a message is
handed on as long as the reactants where it comes from can be called, and comes
to those of users if the ones of the plexus's own ganglion can be called, too. -/
theorem delivers {plexus : Plexus} {operations : List Operation}
    (built : plexus.Built operations) {neuron first : Neuron}
    (registered : plexus.registered neuron = some first)
    (capable : ∀ id ∈ plexus.ganglia,
      (plexus.ganglion id).capable first = true)
    (environment : Environment δ η) {source : Origin δ η}
    (enters : plexus.Enters source) {message : Content δ η}
    (sent : plexus.message? environment neuron source = some message)
    (callable : plexus.Callable environment neuron.name message.data
      source.ganglion) :
    plexus.EndsWith environment neuron source
        (plexus.HandedOn environment source message) ∧
      (plexus.Callable environment neuron.name message.data .own →
        plexus.Delivers operations environment neuron source message) := by
  have settled := built.settled
  obtain ⟨known, named⟩ := mem_of_registered registered
  have inside := enters.inside settled.placed
  have handedOn := endsWith_handedOn settled known named capable enters sent
    (named ▸ callable)
  refine ⟨handedOn, fun ownCallable reactions => ?_⟩
  obtain ⟨root, rooted, ends, arrives⟩ := handedOn reactions
  refine ⟨root, rooted, ends, fun steps finish path final =>
    ⟨arrives steps finish path final, ?_⟩⟩
  rintro reactant ⟨operation, called, registers⟩
  have attached := built.registered_mem called registers
  rw [← named] at attached
  have both : ∀ id, id = .own ∨ id = source.ganglion →
      (plexus.ganglion id).capable first = true ∧
        plexus.Callable environment first.name message.data id := by
    rintro id (rfl | rfl)
    · exact ⟨capable _ (List.mem_append_left _ settled.placed.own),
        named ▸ ownCallable⟩
    · exact ⟨capable _ inside, named ▸ callable⟩
  obtain ⟨call, member, data, other, id, rfl⟩ := exists_invoked settled known
    named enters (fun id either => (both id either).1) rooted sent
    (fun id either => (both id either).2) path final attached
  obtain rfl : data = message.data :=
    (plexus.keeps_carries environment message).path path
      (carries_root rooted sent) _ member
  exact ⟨other, id, member⟩

/-- The coroutine of a reactant fails, and the external ganglion cannot send. -/
theorem delivers_failing :
    ∃ (plexus : Plexus) (operations : List Operation),
      .adapt sampleNeuron [7] ∈ operations ∧
      plexus.Delivers operations
        { sampleEnvironment with
          send := fun _ _ => .error .zmqError
          react := fun _ _ => .error .valueError }
        sampleNeuron (.transmit .own 0) (⟨0, none⟩ : Content Nat Nat) := by
  obtain ⟨plexus, operations, built, tested⟩ := @built_of_any
    (fun _ => (.external false, {})) [0] [] []
    [.call (.adapt sampleNeuron [7]), .adapted 0, .adapted 1, .resume 0]
    (fun plexus operations => .adapt sampleNeuron [7] ∈ operations ∧
      plexus.registered sampleNeuron = some sampleNeuron ∧
      ∀ id ∈ plexus.ganglia, (plexus.ganglion id).capable sampleNeuron = true)
    (by decide +kernel) (by decide)
  obtain ⟨called, registered, capable⟩ := of_decide_eq_true tested
  have enters : plexus.Enters (.transmit .own 0 : Origin Nat Nat) := rfl
  have coroutines : ({ sampleEnvironment with
      send := fun _ _ => .error .zmqError
      react := fun _ _ => .error .valueError } :
        Environment Nat Nat).Coroutines := fun _ _ => rfl
  have callable := callable_of_coroutines coroutines plexus sampleNeuron.name 0
  exact ⟨plexus, operations, called,
    (delivers built registered capable _ enters rfl (callable _)).2
      (callable _)⟩

/-- If a reactant where a message comes from raises when it is called, nobody
else is handed the message. -/
theorem not_handedOn_of_uncallable {plexus : Plexus} {neuron first : Neuron}
    (settled : plexus.Settled) (known : first ∈ plexus.neurons)
    (named : first.name = neuron.name) {environment : Environment δ η}
    {source : Origin δ η} (enters : plexus.Enters source)
    {message : Content δ η}
    (sent : plexus.message? environment neuron source = some message)
    (uncallable : ¬ plexus.Callable environment first.name message.data
      source.ganglion)
    {target : GanglionId} (isTarget : target ∈ plexus.ganglia)
    (different : target ≠ source.ganglion) :
    ¬ plexus.EndsWith environment neuron source
      (plexus.HandedOn environment source message) := by
  intro handedOn
  obtain ⟨root, rooted, ⟨bound, bounded⟩, arrives⟩ := handedOn Reactions.init
  obtain ⟨steps, finish, path, final⟩ := Program.exists_final bounded
  obtain ⟨call, member, transmits, _⟩ :=
    arrives steps finish path final target isTarget different
  have called := ((keeps_called settled known environment message).path path
    ⟨⟨enters.legal_root settled.placed named rooted _,
      carries_root rooted sent⟩, called_root rooted⟩ call member).2
  rcases Call.transmits_cases transmits with
    ⟨data, other, id, rfl⟩ | ⟨data, other, id, rfl⟩
  · rcases called with same | callable
    · exact different same
    · exact uncallable callable
  · exact uncallable called

theorem not_delivers_calling :
    ¬ ∀ (plexus : Plexus) (operations : List Operation)
      (neuron first : Neuron) (environment : Environment Nat Nat)
      (source : Origin Nat Nat) (message : Content Nat Nat),
      plexus.Built operations → plexus.registered neuron = some first →
      (∀ id ∈ plexus.ganglia, (plexus.ganglion id).capable first = true) →
      plexus.Enters source →
      plexus.message? environment neuron source = some message →
      plexus.Delivers operations environment neuron source message := by
  intro delivers
  obtain ⟨plexus, operations, built, tested⟩ := @built_of_any
    (fun _ => (.external false, {})) [0] [] []
    [.call (.adapt sampleNeuron [7]), .adapted 0, .adapted 1, .resume 0]
    (fun plexus _ => plexus.registered sampleNeuron = some sampleNeuron ∧
      (.other 0 ∈ plexus.ganglia ∧ .user 7 ∈
        (plexus.ganglion .own).reactantsOf sampleNeuron.name) ∧
      ∀ id ∈ plexus.ganglia, (plexus.ganglion id).capable sampleNeuron = true)
    (by decide +kernel) (by decide)
  obtain ⟨registered, ⟨isOther, attached⟩, capable⟩ := of_decide_eq_true tested
  let raising : Environment Nat Nat :=
    { sampleEnvironment with call := fun _ _ => .error (.other "TypeError") }
  have enters : plexus.Enters (.transmit .own 0 : Origin Nat Nat) := rfl
  have uncallable : ¬ plexus.Callable raising sampleNeuron.name 0 .own := by
    intro callable
    have called := raising.callReactants_ok_iff.mp callable _ attached
    cases called
  have delivered := delivers plexus operations sampleNeuron sampleNeuron raising
    _ _ built registered capable enters rfl
  exact not_handedOn_of_uncallable built.settled (mem_of_registered registered).1
    rfl enters rfl uncallable isOther (by simp [Origin.ganglion])
    (delivered.imp fun _ => And.left)

end Plexus

end Plexo
