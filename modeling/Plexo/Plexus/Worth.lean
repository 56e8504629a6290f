import Plexo.Library.Dues
import Plexo.Plexus.Loops

/-!
# What a call of a plexus will come to

The reaction of the ganglion that has received a message transmits to all other
ganglia, and so does the plexus's own ganglion, which is one of them.  Only a
ganglion whose reaction runs joins the set of the reaction id, so what is
received comes twice to every other external ganglion, in whatever order the
calls run and whatever other messages there are.
-/

namespace Plexo

open CallTable CallTable.Program Transition

variable {H δ η : Type}

namespace Plexus

/-- The plexus's own ganglion is the only inproc one. -/
def Plain (plexus : Plexus) : Prop :=
  ∀ id ∈ plexus.ganglia, (plexus.ganglion id).cls = .inproc → id = .own

instance (plexus : Plexus) : Decidable plexus.Plain :=
  inferInstanceAs (Decidable (∀ id ∈ _, _))

/-- How often what is transmitted through a ganglion comes to the target. -/
def passing (origin target ganglion : GanglionId) : Nat :=
  (if ganglion = target then 1 else 0) +
    if ganglion = .own ∧ target ≠ .own ∧ target ≠ origin then 1 else 0

/-- How often it does if it is forwarded to those of `ganglia` that have not
reacted yet. -/
def onward (origin target current : GanglionId) (ganglia : List GanglionId) :
    Nat :=
  ((ganglia.filter fun id => id ≠ current ∧ id ≠ origin).map
    (passing origin target)).sum

/-- How often a call will come to the target, for a message from `origin`. -/
def worth (plexus : Plexus) (origin target : GanglionId) : Call δ η → Nat
  | .transmit ganglion _ _ _ => passing origin target ganglion
  | .transmitEncoded ganglion _ _ _ => passing origin target ganglion
  | .transmitter ganglion _ _ _ => passing origin target ganglion
  | .externalTransmitter ganglion _ _ _ => passing origin target ganglion
  | .transduce ganglion _ _ _ => onward origin target ganglion plexus.ganglia
  | .react (.user _) _ _ _ => 0
  | .react (.attached _) _ _ _ => 0
  | .react (.internalReaction _ current) _ _ _ =>
      onward origin target current plexus.ganglia
  | .react (.externalInternalReaction _ current) _ _ _ =>
      onward origin target current plexus.internalGanglia
  | .reactRaw reactant _ _ _ =>
      onward origin target reactant.current plexus.externalGanglia

end Plexus

/-- The call comes to the target: its transmitter runs. -/
def Call.ends (target : GanglionId) : Call δ η → Nat
  | .transmitter ganglion _ _ _ => if ganglion = target then 1 else 0
  | .externalTransmitter ganglion _ _ _ => if ganglion = target then 1 else 0
  | _ => 0

namespace Plexus

variable {plexus : Plexus} {neuron first : Neuron}
  {environment : Environment δ η} {origin target : GanglionId}

theorem sum_indicator {ganglia : List GanglionId} (nodup : ganglia.Nodup)
    (id : GanglionId) (value : Nat) :
    (ganglia.map fun ganglion => if ganglion = id then value else 0).sum =
      if id ∈ ganglia then value else 0 := by
  have counted : (ganglia.map fun ganglion =>
      if ganglion = id then value else 0).sum = ganglia.count id * value := by
    apply sum_eq_countP_mul
    intro ganglion _
    simp
  rw [counted]
  split
  · next inside => rw [List.count_eq_one_of_mem nodup inside, Nat.one_mul]
  · next outside => rw [List.count_eq_zero_of_not_mem outside, Nat.zero_mul]

theorem sum_passing {ganglia : List GanglionId} (nodup : ganglia.Nodup) :
    (ganglia.map (passing origin target)).sum =
      (if target ∈ ganglia then 1 else 0) +
        if .own ∈ ganglia then if target ≠ .own ∧ target ≠ origin then 1 else 0
          else 0 := by
  have parts : passing origin target = fun ganglion =>
      (if ganglion = target then 1 else 0) + if ganglion = .own then
        if target ≠ .own ∧ target ≠ origin then 1 else 0 else 0 := by
    funext ganglion
    rw [passing, ite_and]
  rw [parts, List.sum_map_add, sum_indicator nodup, sum_indicator nodup]

theorem onward_append (origin target current : GanglionId)
    (left right : List GanglionId) :
    onward origin target current (left ++ right) =
      onward origin target current left +
        onward origin target current right := by
  simp only [onward, List.filter_append, List.map_append, List.sum_append]

theorem onward_ganglia (placed : plexus.Placed)
    (isTarget : target ∈ plexus.ganglia) (current : GanglionId) :
    onward origin target current plexus.ganglia =
      (if target ≠ current ∧ target ≠ origin then 1 else 0) +
        if .own ≠ current ∧ .own ≠ origin then
          if target ≠ .own ∧ target ≠ origin then 1 else 0 else 0 := by
  have isOwn : GanglionId.own ∈ plexus.ganglia :=
    List.mem_append_left _ placed.own
  rw [onward, sum_passing (placed.nodup.filter _)]
  simp only [List.mem_filter, isTarget, isOwn, true_and, decide_eq_true_eq]

/-- The calls that a message from `origin` leads to in a plain plexus. -/
structure Proper (plexus : Plexus) (environment : Environment δ η)
    (name : String) (content : Content δ η) (origin : GanglionId)
    (reactions : Reactions) (call : Call δ η) : Prop where
  legal : plexus.Legal origin name reactions call
  carries : plexus.Carries environment content call
  addressed : ∀ ganglion synapse data id,
    call = .externalTransmitter ganglion synapse data id →
      (plexus.ganglion ganglion).cls ≠ .inproc ∧
        (plexus.ganglion ganglion).base.synapses name = some synapse
  away : ∀ id, call.reactionId? = some id →
    origin = .own ∨ call.ganglion? ≠ some origin
  joined : ∀ id, call.reactionId? = some id → origin ∈ reactions.joined id ∧
    ∀ ganglion ∈ reactions.joined id, ganglion = .own ∨ ganglion = origin

section Proper

variable {name : String} {content : Content δ η} {reactions : Reactions}
  {call : Call δ η} {payload : η}

theorem Legal.current (settled : plexus.Settled)
    (known : first ∈ plexus.neurons) (plain : plexus.Plain)
    (legal : plexus.Legal origin first.name reactions call)
    {current : GanglionId} (reaction : call.reaction? = some current) :
    (current = origin ∨ current = .own) ∧
      (call.reactionId? = none → current = origin) := by
  cases call with
  | react reactant data neuron reactionId =>
      obtain ⟨_, ganglion, inside, attached, kind, traced⟩ := legal
      have belongs := (settled.station known inside).belongs _ attached
      have same : ganglion = current := by
        cases reactant with
        | user _ => cases reaction
        | attached _ => cases reaction
        | internalReaction _ _ =>
            exact belongs.1.symm.trans (Option.some.inj reaction)
        | externalInternalReaction _ _ =>
            exact belongs.1.symm.trans (Option.some.inj reaction)
      subst same
      refine ⟨kind.imp_right (plain ganglion inside), ?_⟩
      rintro ⟨⟩
      exact traced
  | reactRaw reactant data neuron reactionId =>
      obtain ⟨_, same, _⟩ := legal
      obtain rfl : reactant.current = current := Option.some.inj reaction
      exact ⟨.inl same, fun _ => same⟩
  | transmit _ _ _ _ => cases reaction
  | transmitEncoded _ _ _ _ => cases reaction
  | transmitter _ _ _ _ => cases reaction
  | externalTransmitter _ _ _ _ => cases reaction
  | transduce _ _ _ _ => cases reaction

theorem Proper.current_own (settled : plexus.Settled)
    (known : first ∈ plexus.neurons) (plain : plexus.Plain)
    (proper : plexus.Proper environment first.name content origin reactions
      call) {current : GanglionId} (reaction : call.reaction? = some current)
    {id : ReactionId} (carried : call.reactionId? = some id) :
    current = .own := by
  rcases (Legal.current settled known plain proper.legal reaction).1 with
    same | isOwn
  · have isCurrent := (Call.ganglion?_of_reaction? reaction).1
    rcases proper.away id carried with own | away
    · exact same.trans own
    · rw [isCurrent, same] at away
      exact absurd rfl away
  · exact isOwn

/-- Whatever the order of the calls, the set that a reaction finds after it has
joined is that of its own ganglion and the one that the message comes from. -/
theorem Proper.mem_joined_iff (settled : plexus.Settled)
    (known : first ∈ plexus.neurons) (plain : plexus.Plain)
    (proper : plexus.Proper environment first.name content origin reactions
      call) {current : GanglionId} (reaction : call.reaction? = some current)
    (ganglion : GanglionId) :
    ganglion ∈ (reactions.join (reactions.reactionId call.reactionId?)
        current).joined (reactions.reactionId call.reactionId?) ↔
      ganglion = current ∨ ganglion = origin := by
  rw [Reactions.mem_joined_join]
  cases carried : call.reactionId? with
  | none =>
      have same :=
        (Legal.current settled known plain proper.legal reaction).2 carried
      simp [Reactions.reactionId, Reactions.joined_next, same]
  | some id =>
      have isOwn := proper.current_own settled known plain reaction carried
      obtain ⟨inside, others⟩ := proper.joined id carried
      simp only [Reactions.reactionId, true_and]
      constructor
      · rintro (same | member)
        · exact .inl same
        · exact (others ganglion member).imp_left fun own =>
            own.trans isOwn.symm
      · rintro (same | rfl)
        · exact .inl same
        · exact .inr inside

theorem reactions_run (plexus : Plexus) (environment : Environment δ η)
    (call : Call δ η) (reactions : Reactions) :
    (plexus.run environment call reactions).2 =
      match call.reaction? with
      | none => reactions
      | some current =>
          reactions.join (reactions.reactionId call.reactionId?) current := by
  cases call with
  | transmit _ _ _ _ =>
      simp only [run]
      split <;> rfl
  | transmitEncoded _ _ _ _ =>
      simp only [run]
      split <;> rfl
  | transmitter _ _ _ _ =>
      simp only [run]
      split
      · split <;> rfl
      · rfl
  | externalTransmitter _ _ _ _ => rfl
  | transduce _ _ _ _ =>
      simp only [run]
      split
      · rfl
      · split <;> rfl
  | react reactant _ _ _ => cases reactant <;> rfl
  | reactRaw _ _ _ _ => rfl

theorem Proper.starts (settled : plexus.Settled)
    (known : first ∈ plexus.neurons) (plain : plexus.Plain)
    (homed : plexus.Homed)
    (proper : plexus.Proper environment first.name content origin reactions
      call) {child : Call δ η}
    (made : child ∈ (plexus.run environment call reactions).1.calls) :
    plexus.Proper environment first.name content origin
      (plexus.run environment call reactions).2 child where
  legal := legal_starts settled known environment proper.legal child made
  carries := (plexus.keeps_carries environment content).starts proper.carries
    child made
  addressed := by
    rintro ganglion synapse data id rfl
    cases made_of_mem made with
    | externalTransmitter found =>
        obtain ⟨isExternal, named, _⟩ := proper.legal
        rw [named] at found
        exact ⟨settled.placed.not_inproc isExternal,
          (plexus.ganglion ganglion).connected.externalTransmitters found⟩
  away := by
    intro id carried
    rcases made_cases homed made with ⟨current, target, forwarded⟩ | passed
    · refine .inr ?_
      rw [forwarded.ganglion]
      intro same
      apply forwarded.outside
      rw [forwarded.joins, Option.some.inj same]
      exact (proper.mem_joined_iff settled known plain forwarded.reaction
        origin).mpr (.inr rfl)
    · rw [passed.reactionId] at carried
      rcases passed.ganglion with none | same
      · exact .inr (none ▸ Option.some_ne_none origin ∘ Eq.symm)
      · exact (proper.away id carried).imp_right fun away => same ▸ away
  joined := by
    intro id carried
    rcases made_cases homed made with ⟨current, target, forwarded⟩ | passed
    · rw [forwarded.reactionId] at carried
      rw [forwarded.joins, ← Option.some.inj carried]
      have members :=
        proper.mem_joined_iff settled known plain forwarded.reaction
      refine ⟨(members origin).mpr (.inr rfl), ?_⟩
      intro ganglion member
      have kind := (Legal.current settled known plain proper.legal
        forwarded.reaction).1
      rcases (members ganglion).mp member with rfl | same
      · exact kind.symm
      · exact .inr same
    · rw [reactions_run, passed.noReaction]
      exact proper.joined id (passed.reactionId ▸ carried)

theorem Proper.stays (settled : plexus.Settled)
    (known : first ∈ plexus.neurons) (plain : plexus.Plain)
    {content otherContent : Content δ η} {origin otherOrigin : GanglionId}
    {call other : Call δ η}
    (runs : plexus.Proper environment first.name content origin reactions call)
    (proper : plexus.Proper environment first.name otherContent otherOrigin
      reactions other) :
    plexus.Proper environment first.name otherContent otherOrigin
      (plexus.run environment call reactions).2 other where
  legal := proper.legal.mono (grows_run plexus environment call reactions)
  carries := proper.carries
  addressed := proper.addressed
  away := proper.away
  joined := by
    intro id carried
    obtain ⟨inside, others⟩ := proper.joined id carried
    refine ⟨grows_run plexus environment call reactions id inside, ?_⟩
    rw [reactions_run]
    cases reaction : call.reaction? with
    | none => exact others
    | some current =>
        intro ganglion member
        rcases Reactions.mem_joined_join.mp member with ⟨same, rfl⟩ | old
        · cases runsUnder : call.reactionId? with
          | none =>
              rw [runsUnder] at same
              rw [same, Reactions.reactionId, Reactions.joined_next] at inside
              cases inside
          | some id =>
              exact .inl (runs.current_own settled known plain reaction
                runsUnder)
        · exact others ganglion old

theorem Ready.sum_reactants (ready : plexus.Ready neuron first)
    {ganglion : GanglionId} (inside : ganglion ∈ plexus.ganglia)
    (origin target : GanglionId) (data : δ) (other : Neuron)
    (id : Option ReactionId) :
    ((((plexus.ganglion ganglion).reactantsOf first.name).map
        (.react · data other id)).map (plexus.worth origin target :
          Call δ η → Nat)).sum =
      onward origin target ganglion (if plexus.isGanglionExternal ganglion then
        plexus.internalGanglia else plexus.ganglia) := by
  have station := ready.settled.station
    (mem_of_registered ready.registered).1 inside
  have one : ((plexus.ganglion ganglion).reactantsOf first.name).countP
      (!·.isUser) = 1 := by
    rcases station.reactions with ⟨one, _⟩ | ⟨_, incapable⟩
    · exact one
    · exact absurd (ready.capable ganglion inside) incapable
  rw [List.map_map, sum_eq_countP_mul, one, Nat.one_mul]
  intro reactant attached
  have belongs := station.belongs reactant attached
  cases reactant with
  | user _ => rfl
  | attached _ => rfl
  | internalReaction object current =>
      obtain ⟨rfl, undeclared⟩ := belongs
      simp [worth, isGanglionExternal, undeclared, Reactant.isUser]
  | externalInternalReaction object current =>
      obtain ⟨rfl, declared⟩ := belongs
      simp [worth, isGanglionExternal, declared, Reactant.isUser]

theorem Ready.sum_rawReactants (ready : plexus.Ready neuron first)
    {ganglion : GanglionId} (inside : ganglion ∈ plexus.ganglia)
    (origin target : GanglionId) (data : η) (other : Neuron)
    (id : Option ReactionId) :
    ((((plexus.ganglion ganglion).rawReactantsOf first.name).map
        (.reactRaw · data other id)).map (plexus.worth origin target :
          Call δ η → Nat)).sum =
      onward origin target ganglion (if plexus.isGanglionExternal ganglion then
        plexus.externalGanglia else []) := by
  have station := ready.settled.station
    (mem_of_registered ready.registered).1 inside
  rcases station.rawReactants with ⟨object, raws, _, declared⟩ | ⟨none, raw⟩
  · have isExternal : plexus.isGanglionExternal ganglion = true := declared
    rw [raws, isExternal]
    simp [worth]
  · have undeclared : plexus.isGanglionExternal ganglion = false := by
      rw [← Bool.not_eq_true]
      exact fun declared => raw ⟨ready.capable ganglion inside, declared⟩
    rw [none, undeclared]
    rfl

/-- A reaction forwards to the ganglia that have not reacted yet. -/
theorem Proper.sum_forwarded (settled : plexus.Settled)
    (known : first ∈ plexus.neurons) (plain : plexus.Plain)
    (proper : plexus.Proper environment first.name content origin reactions
      call) {current : GanglionId} (reaction : call.reaction? = some current)
    (target : GanglionId) (ganglia : List GanglionId)
    (make : GanglionId → Call δ η)
    (makes : ∀ id, plexus.worth origin target (make id) =
      passing origin target id) :
    (((ganglia.filter (· ∉ (reactions.join (reactions.reactionId
        call.reactionId?) current).joined (reactions.reactionId
          call.reactionId?))).map make).map (plexus.worth origin target)).sum =
      onward origin target current ganglia := by
  have same : ganglia.filter (· ∉ (reactions.join (reactions.reactionId
      call.reactionId?) current).joined (reactions.reactionId
        call.reactionId?)) =
      ganglia.filter fun id => id ≠ current ∧ id ≠ origin := by
    apply List.filter_congr
    intro id _
    simp only [proper.mem_joined_iff settled known plain reaction, not_or,
      ne_eq]
  rw [same, List.map_map, onward]
  congr 1
  apply List.map_congr_left
  exact fun id _ => makes id

/-- What a call is worth goes over to the calls that it makes, unless it comes
to the target itself. -/
theorem Proper.balance (ready : plexus.Ready neuron first)
    (coroutines : environment.Coroutines) (plain : plexus.Plain)
    (proper : plexus.Proper environment first.name content origin reactions
      call) (isTarget : target ∈ plexus.ganglia) :
    plexus.worth origin target call =
      ((plexus.run environment call reactions).1.calls.map
        (plexus.worth origin target)).sum + call.ends target := by
  obtain ⟨known, named⟩ := mem_of_registered ready.registered
  have settled := ready.settled
  have placed := settled.placed
  cases call with
  | transmit ganglion data other id =>
      obtain ⟨inside, isNamed, _⟩ := proper.legal
      obtain ⟨synapse, found⟩ := Option.isSome_iff_exists.mp
        ((settled.station known inside).transmitter
          (ready.capable ganglion inside))
      rw [← isNamed] at found
      rw [run_transmit environment data found]
      simp [worth, Call.ends, Outcome.calls]
  | transmitEncoded ganglion data other id =>
      obtain ⟨isExternal, isNamed, _⟩ := proper.legal
      have inside := List.mem_append_right plexus.internalGanglia isExternal
      have station := settled.station known inside
      have has := station.transmitter (ready.capable ganglion inside)
      rw [← station.externalTransmitter (placed.not_inproc isExternal)] at has
      obtain ⟨synapse, found⟩ := Option.isSome_iff_exists.mp has
      rw [← isNamed] at found
      rw [run_transmitEncoded environment data found]
      simp [worth, Call.ends, Outcome.calls]
  | transmitter ganglion transmitter data id =>
      obtain ⟨inside, transmits, _⟩ := proper.legal
      have found := (plexus.ganglion ganglion).connected.transmitters transmits
      by_cases inproc : (plexus.ganglion ganglion).cls = .inproc
      · -- The plexus's own ganglion has one reaction.
        obtain rfl := plain ganglion inside inproc
        have undeclared : plexus.isGanglionExternal .own = false := by
          rw [isGanglionExternal, inproc]
          rfl
        rw [run_transmitter environment data inproc
            (coroutines.callReactants data _),
          ← Ganglion.reactantsOf_synapse found, Outcome.calls,
          ready.sum_reactants inside, undeclared, if_neg Bool.false_ne_true,
          onward_ganglia placed isTarget]
        simp [worth, passing, Call.ends]
        omega
      · have notOwn : ganglion ≠ .own := by
          rintro rfl
          exact inproc placed.ownClass
        have nothing : (plexus.run environment
            (.transmitter ganglion transmitter data id) reactions).1.calls =
              [] := by
          simp only [run]
          split
          · next isInproc => exact absurd isInproc inproc
          · exact outcomeOf_calls _
        rw [nothing]
        simp [worth, passing, notOwn, Call.ends]
  | externalTransmitter ganglion synapse data id =>
      have external := (proper.addressed _ _ _ _ rfl).1
      have notOwn : ganglion ≠ .own := by
        rintro rfl
        exact external placed.ownClass
      rw [run, outcomeOf_calls]
      simp [worth, passing, notOwn, Call.ends]
  | transduce ganglion synapse data id =>
      obtain ⟨rfl, inside, found, external, _⟩ := proper.legal
      obtain ⟨_, decodes⟩ := proper.carries
      rw [run_transduce environment decodes (coroutines.callReactants _ _),
        ← Ganglion.reactantsOf_synapse found,
        ← Ganglion.rawReactantsOf_synapse found, Outcome.calls, List.map_append,
        List.sum_append, ready.sum_reactants inside,
        ready.sum_rawReactants inside]
      cases plexus.isGanglionExternal ganglion with
      | true =>
          rw [if_pos rfl, if_pos rfl, ← onward_append]
          rfl
      | false => rfl
  | react reactant data other id =>
      cases reactant with
      | user _ => simp [run, worth, Call.ends]
      | attached _ => simp [run, worth, Call.ends]
      | internalReaction object current =>
          have total := proper.sum_forwarded settled known plain rfl target
            plexus.ganglia (.transmit · data other
              (some (reactions.reactionId id))) fun _ => rfl
          simp only [run, internalReaction, Outcome.calls]
          rw [← List.filter_append]
          exact total.symm
      | externalInternalReaction object current =>
          exact (proper.sum_forwarded settled known plain rfl target
            plexus.internalGanglia (.transmit · data other
              (some (reactions.reactionId id))) fun _ => rfl).symm
  | reactRaw reactant data other id =>
      exact (proper.sum_forwarded settled known plain rfl target
        plexus.externalGanglia (.transmitEncoded · data other
          (some (reactions.reactionId id))) fun _ => rfl).symm

theorem Proper.sent?_cases
    (conveys : environment.Conveys first.name content.data payload)
    (bytes : content.bytes = some payload)
    (proper : plexus.Proper environment first.name content origin reactions
      call) :
    (call.sent? plexus environment = none ∧ ∀ target,
        (plexus.ganglion target).cls ≠ .inproc → call.ends target = 0) ∨
      ∃ ganglion synapse,
        call.sent? plexus environment = some (ganglion, synapse, payload) ∧
        ((plexus.ganglion ganglion).objects synapse).neuron.name = first.name ∧
        ∀ target, call.ends target = if ganglion = target then 1 else 0 := by
  cases call with
  | transmitter ganglion transmitter data id =>
      obtain ⟨_, found, _⟩ := proper.legal
      obtain rfl : data = content.data := proper.carries
      by_cases inproc : (plexus.ganglion ganglion).cls = .inproc
      · refine .inl ⟨by simp only [Call.sent?, inproc], ?_⟩
        intro target external
        have different : ganglion ≠ target := by
          rintro rfl
          exact external inproc
        simp [Call.ends, different]
      · obtain ⟨synapse, sent, named⟩ :=
          sends_transmitter conveys inproc found id
        exact .inr ⟨ganglion, synapse, sent, named, fun _ => rfl⟩
  | externalTransmitter ganglion synapse data id =>
      obtain ⟨_, found⟩ := proper.addressed _ _ _ _ rfl
      have carries : some data = content.bytes := proper.carries
      obtain rfl : data = payload := Option.some.inj (carries.trans bytes)
      obtain ⟨synapse, sent, named⟩ := sends_externalTransmitter conveys found id
      exact .inr ⟨ganglion, synapse, sent, named, fun _ => rfl⟩
  | transmit _ _ _ _ => exact .inl ⟨rfl, fun _ _ => rfl⟩
  | transmitEncoded _ _ _ _ => exact .inl ⟨rfl, fun _ _ => rfl⟩
  | transduce _ _ _ _ => exact .inl ⟨rfl, fun _ _ => rfl⟩
  | react _ _ _ _ => exact .inl ⟨rfl, fun _ _ => rfl⟩
  | reactRaw _ _ _ _ => exact .inl ⟨rfl, fun _ _ => rfl⟩

theorem Proper.countP_invokes (settled : plexus.Settled)
    (known : first ∈ plexus.neurons) (coroutines : environment.Coroutines)
    (proper : plexus.Proper environment first.name content origin reactions
      call) {user : ReactantId} (attached : .user user ∈
        (plexus.ganglion .own).reactantsOf first.name) :
    (plexus.run environment call reactions).1.calls.countP
      (Call.invokes user) = call.ends .own := by
  have none (noReactant : ∀ other data neuron id,
      .react (.user other) data neuron id ∉
        (plexus.run environment call reactions).1.calls) :
      (plexus.run environment call reactions).1.calls.countP
        (Call.invokes user) = 0 := by
    apply List.countP_eq_zero.mpr
    intro child member invokes
    cases child with
    | react reactant data neuron id =>
        cases reactant with
        | user other => exact noReactant other data neuron id member
        | attached _ => cases invokes
        | internalReaction _ _ => cases invokes
        | externalInternalReaction _ _ => cases invokes
    | _ => cases invokes
  cases call with
  | transmitter ganglion transmitter data id =>
      obtain ⟨inside, transmits, _⟩ := proper.legal
      have found := (plexus.ganglion ganglion).connected.transmitters transmits
      by_cases isOwn : ganglion = .own
      · subst isOwn
        have station := settled.station known inside
        have once : ((plexus.ganglion .own).reactantsOf first.name).count
            (.user user) = 1 :=
          List.count_eq_one_of_mem station.nodup attached
        rw [run_transmitter environment data settled.placed.ownClass
            (coroutines.callReactants data _),
          ← Ganglion.reactantsOf_synapse found, Outcome.calls,
          List.countP_map, Call.ends, if_pos rfl, ← once]
        apply List.countP_congr
        intro reactant _
        cases reactant <;> simp [Call.invokes]
      · rw [Call.ends, if_neg isOwn]
        apply none
        intro other content neuron id member
        cases made_of_mem member with
        | react _ isReactant _ =>
            rw [← Ganglion.reactantsOf_synapse found] at isReactant
            exact isOwn ((settled.station known inside).belongs _ isReactant)
  | externalTransmitter ganglion synapse data id =>
      have external := (proper.addressed _ _ _ _ rfl).1
      have notOwn : ganglion ≠ .own := by
        rintro rfl
        exact external settled.placed.ownClass
      rw [Call.ends, if_neg notOwn, run, outcomeOf_calls, List.countP_nil]
  | transduce ganglion synapse data id =>
      obtain ⟨rfl, inside, found, external, _⟩ := proper.legal
      apply none
      intro other content neuron id member
      cases made_of_mem member with
      | reactDecoded _ isReactant _ =>
          rw [← Ganglion.reactantsOf_synapse found] at isReactant
          have isOwn : ganglion = .own :=
            (settled.station known inside).belongs _ isReactant
          exact external (isOwn ▸ settled.placed.ownClass)
  | transmit _ _ _ _ =>
      apply none
      intro other content neuron id member
      cases made_of_mem member
  | transmitEncoded _ _ _ _ =>
      apply none
      intro other content neuron id member
      cases made_of_mem member
  | react _ _ _ _ =>
      apply none
      intro other content neuron id member
      cases made_of_mem member
  | reactRaw _ _ _ _ =>
      apply none
      intro other content neuron id member
      cases made_of_mem member

end Proper

end Plexus

end Plexo
