import Plexo.Plexus.Loops

/-!
# Whom a message reaches in a mesh

In plexuses that are all adapted to a neuron, every call for a received message
leads to a packet on every link of the other ganglia, whatever order the calls
run in.  So a message that is not lost reaches exactly the hosts that the links
lead to.
-/

namespace Plexo

open CallTable CallTable.Program Transition

variable {H δ η : Type}

def Call.Invokes (reactant : ReactantId) (data : δ) (call : Call δ η) : Prop :=
  ∃ other id, call = .react (.user reactant) data other id

namespace Plexus

/-- The call leads to the goal, whatever the reactions have joined. -/
abbrev LeadsTo (plexus : Plexus) (environment : Environment δ η)
    (goal : Call δ η → Prop) (depth : Nat) (call : Call δ η) : Prop :=
  (plexus.program environment).Leads (fun _ => True) goal depth call

section Leads

variable {plexus : Plexus} {neuron first : Neuron}
  {environment : Environment δ η} {origin target : GanglionId} {data : δ}
  {payload : η} {goal : Call δ η → Prop} {depth : Nat}

theorem leads_here {call : Call δ η} (isGoal : goal call) :
    plexus.LeadsTo environment goal 0 call := isGoal

theorem leads_child {call child : Call δ η}
    (makes : ∀ reactions,
      child ∈ (plexus.run environment call reactions).1.calls)
    (leads : plexus.LeadsTo environment goal depth child) :
    plexus.LeadsTo environment goal (depth + 1) call :=
  fun reactions _ => ⟨child, makes reactions, leads⟩

theorem Ready.leads_inproc (ready : plexus.Ready neuron first)
    (coroutines : environment.Coroutines)
    (inside : target ∈ plexus.ganglia)
    (inproc : (plexus.ganglion target).cls = .inproc) {reactant : Reactant}
    (attached : reactant ∈
      (plexus.ganglion target).reactantsOf neuron.name)
    {other : Neuron} (otherNamed : other.name = neuron.name)
    {id : Option ReactionId}
    (leads : ∀ other : Neuron, other.name = neuron.name →
      plexus.LeadsTo environment goal depth (.react reactant data other id)) :
    plexus.LeadsTo environment goal (depth + 2)
      (.transmit target data other id) := by
  obtain ⟨known, named⟩ := mem_of_registered ready.registered
  obtain ⟨transmitter, transmitters⟩ := Option.isSome_iff_exists.mp
    ((ready.settled.station known inside).transmitter
      (ready.capable target inside))
  rw [named] at transmitters
  have found := (plexus.ganglion target).connected.transmitters transmitters
  have isNamed := ((plexus.ganglion target).connected.named found).2
  rw [Ganglion.reactantsOf_synapse found] at attached
  rw [← otherNamed] at transmitters
  apply @leads_child _ _ _ _ _ _ _ (.transmitter target transmitter data id)
  · intro reactions
    rw [run_transmit environment data transmitters]
    exact List.mem_singleton_self _
  · apply leads_child _ (leads _ isNamed)
    intro reactions
    rw [run_transmitter environment data inproc
      (coroutines.callReactants data _)]
    exact List.mem_map_of_mem attached

theorem Ready.leads_sends (ready : plexus.Ready neuron first)
    (conveys : environment.Conveys neuron.name data payload)
    (inside : target ∈ plexus.ganglia)
    (external : (plexus.ganglion target).cls ≠ .inproc) {other : Neuron}
    (otherNamed : other.name = neuron.name) (id : Option ReactionId) :
    plexus.LeadsTo environment
        (Call.Sends plexus environment target neuron.name payload) 1
        (.transmit target data other id) ∧
      plexus.LeadsTo environment
        (Call.Sends plexus environment target neuron.name payload) 1
        (.transmitEncoded target payload other id) := by
  obtain ⟨known, named⟩ := mem_of_registered ready.registered
  have station := ready.settled.station known inside
  have transmitter := station.transmitter (ready.capable target inside)
  have externalTransmitter := station.externalTransmitter external
  rw [transmitter] at externalTransmitter
  rw [named, ← otherNamed] at transmitter externalTransmitter
  have connected := (plexus.ganglion target).connected
  constructor
  · obtain ⟨bound, found⟩ := Option.isSome_iff_exists.mp transmitter
    have sends := found
    rw [otherNamed] at sends
    apply leads_child _
      (leads_here (sends_transmitter conveys external sends id))
    intro reactions
    rw [run_transmit environment data found]
    exact List.mem_singleton_self _
  · obtain ⟨synapse, found⟩ := Option.isSome_iff_exists.mp externalTransmitter
    have placed := connected.externalTransmitters found
    rw [otherNamed] at placed
    apply leads_child _
      (leads_here (sends_externalTransmitter conveys placed id))
    intro reactions
    rw [run_transmitEncoded environment payload found]
    exact List.mem_singleton_self _

theorem leads_react (isTarget : target ∈ plexus.ganglia)
    (different : target ≠ origin) {reactant : Reactant} {other : Neuron}
    (isFirst : plexus.IsFirstReaction origin target
      (.react reactant data other none : Call δ η))
    (leads : ∀ id, plexus.LeadsTo environment goal depth
      (.transmit target data other id)) :
    plexus.LeadsTo environment goal (depth + 1)
      (.react reactant data other none) := by
  intro reactions _
  have outside := @notMem_join_next reactions _ _ different
  cases reactant with
  | user _ => exact isFirst.elim
  | attached _ => exact isFirst.elim
  | internalReaction object current =>
      obtain ⟨rfl, _⟩ := isFirst
      refine ⟨.transmit target data other (some reactions.next), ?_, leads _⟩
      apply List.mem_map_of_mem
      rw [← List.filter_append]
      exact mem_filter_not_mem isTarget outside
  | externalInternalReaction object current =>
      obtain ⟨rfl, _, internal⟩ := isFirst
      refine ⟨.transmit target data other (some reactions.next), ?_, leads _⟩
      exact List.mem_map_of_mem (mem_filter_not_mem internal outside)

theorem leads_reactRaw (different : target ≠ origin) {reactant : RawReactant}
    {other : Neuron}
    (isFirst : plexus.IsFirstReaction origin target
      (.reactRaw reactant payload other none : Call δ η))
    (leads : target ∈ plexus.externalGanglia → ∀ id,
      plexus.LeadsTo environment goal depth
        (.transmitEncoded target payload other id)) :
    plexus.LeadsTo environment goal (depth + 1)
      (.reactRaw reactant payload other none) := by
  intro reactions _
  obtain ⟨rfl, _, external⟩ := isFirst
  refine ⟨.transmitEncoded target payload other (some reactions.next), ?_,
    leads external _⟩
  exact List.mem_map_of_mem
    (mem_filter_not_mem external (notMem_join_next different))

theorem Ready.leads_receive (ready : plexus.Ready neuron first)
    (coroutines : environment.Coroutines)
    (conveys : environment.Conveys neuron.name data payload)
    (inside : origin ∈ plexus.ganglia) {synapse : SynapseId}
    (found : (plexus.ganglion origin).base.synapses neuron.name = some synapse)
    (isTarget : target ∈ plexus.ganglia) (different : target ≠ origin)
    (decoded : ∀ (other : Neuron) id, other.name = neuron.name →
      plexus.LeadsTo environment goal depth (.transmit target data other id))
    (encoded : target ∈ plexus.externalGanglia →
      ∀ (other : Neuron) id, other.name = neuron.name →
        plexus.LeadsTo environment goal depth
          (.transmitEncoded target payload other id)) :
    plexus.LeadsTo environment goal (depth + 2)
      (.transduce origin synapse payload none) := by
  obtain ⟨known, named⟩ := mem_of_registered ready.registered
  have isNamed := ((plexus.ganglion origin).connected.named found).2
  have decodes := conveys.decodes _ isNamed
  rcases exists_firstReaction ready.settled known inside
      (ready.capable origin inside) isTarget with
    ⟨reactant, attached, isFirst⟩ | ⟨raw, attached, isFirst⟩
  · rw [named, Ganglion.reactantsOf_synapse found] at attached
    apply leads_child _ (leads_react isTarget different (isFirst data _)
      fun id => decoded _ id isNamed)
    intro reactions
    rw [run_transduce environment decodes (coroutines.callReactants data _)]
    exact List.mem_append_left _ (List.mem_map_of_mem attached)
  · rw [named, Ganglion.rawReactantsOf_synapse found] at attached
    apply leads_child _ (leads_reactRaw different (isFirst payload _)
      fun external id => encoded external _ id isNamed)
    intro reactions
    rw [run_transduce environment decodes (coroutines.callReactants data _)]
    exact List.mem_append_right _ (List.mem_map_of_mem attached)

theorem Ready.leads_transmit (ready : plexus.Ready neuron first)
    (coroutines : environment.Coroutines)
    (isTarget : target ∈ plexus.ganglia) (different : target ≠ .own)
    (leads : ∀ (other : Neuron) id, other.name = neuron.name →
      plexus.LeadsTo environment goal depth (.transmit target data other id)) :
    plexus.LeadsTo environment goal (depth + 3)
      (.transmit .own data neuron none) := by
  obtain ⟨known, named⟩ := mem_of_registered ready.registered
  have placed := ready.settled.placed
  have inside : GanglionId.own ∈ plexus.ganglia :=
    List.mem_append_left _ placed.own
  rcases exists_firstReaction ready.settled known inside
      (ready.capable _ inside) isTarget with
    ⟨reactant, attached, isFirst⟩ | ⟨raw, attached, _⟩
  · rw [named] at attached
    apply ready.leads_inproc coroutines inside placed.ownClass attached rfl
    intro other isNamed
    exact leads_react isTarget different (isFirst data other)
      fun id => leads other id isNamed
  · rw [rawReactantsOf_own ready.settled known] at attached
    cases attached

theorem Ready.leads_sends_receive (ready : plexus.Ready neuron first)
    (coroutines : environment.Coroutines)
    (conveys : environment.Conveys neuron.name data payload)
    (inside : origin ∈ plexus.ganglia) {synapse : SynapseId}
    (found : (plexus.ganglion origin).base.synapses neuron.name = some synapse)
    (isTarget : target ∈ plexus.ganglia)
    (external : (plexus.ganglion target).cls ≠ .inproc)
    (different : target ≠ origin) :
    plexus.LeadsTo environment
      (Call.Sends plexus environment target neuron.name payload) 3
      (.transduce origin synapse payload none) := by
  have sends := fun (other : Neuron) id (named : other.name = neuron.name) =>
    ready.leads_sends conveys isTarget external named id
  exact ready.leads_receive coroutines conveys inside found isTarget different
    (fun other id named => (sends other id named).1)
    (fun _ other id named => (sends other id named).2)

theorem Ready.leads_sends_transmit (ready : plexus.Ready neuron first)
    (coroutines : environment.Coroutines)
    (conveys : environment.Conveys neuron.name data payload)
    (isTarget : target ∈ plexus.ganglia)
    (external : (plexus.ganglion target).cls ≠ .inproc) :
    plexus.LeadsTo environment
      (Call.Sends plexus environment target neuron.name payload) 4
      (.transmit .own data neuron none) := by
  have different : target ≠ .own := by
    rintro rfl
    exact external ready.settled.placed.ownClass
  exact ready.leads_transmit coroutines isTarget different fun other id named =>
    (ready.leads_sends conveys isTarget external named id).1

theorem Ready.leads_invokes (ready : plexus.Ready neuron first)
    (coroutines : environment.Coroutines)
    {reactant : ReactantId} (attached : .user reactant ∈
      (plexus.ganglion .own).reactantsOf neuron.name) {other : Neuron}
    (otherNamed : other.name = neuron.name) (id : Option ReactionId) :
    plexus.LeadsTo environment (Call.Invokes reactant data) 2
      (.transmit .own data other id) := by
  have placed := ready.settled.placed
  apply ready.leads_inproc coroutines (List.mem_append_left _ placed.own)
    placed.ownClass attached otherNamed
  exact fun other _ => leads_here ⟨other, id, rfl⟩

theorem Ready.leads_invokes_receive (ready : plexus.Ready neuron first)
    (coroutines : environment.Coroutines)
    (conveys : environment.Conveys neuron.name data payload)
    (inside : origin ∈ plexus.ganglia)
    (foreign : (plexus.ganglion origin).cls ≠ .inproc) {synapse : SynapseId}
    (found : (plexus.ganglion origin).base.synapses neuron.name = some synapse)
    {reactant : ReactantId} (attached : .user reactant ∈
      (plexus.ganglion .own).reactantsOf neuron.name) :
    plexus.LeadsTo environment (Call.Invokes reactant data) 4
      (.transduce origin synapse payload none) := by
  have placed := ready.settled.placed
  apply ready.leads_receive coroutines conveys inside found
    (List.mem_append_left _ placed.own)
  · rintro rfl
    exact foreign placed.ownClass
  · exact fun other id named => ready.leads_invokes coroutines attached named id
  · intro isExternal
    exact absurd placed.ownClass (placed.not_inproc isExternal)

end Leads

end Plexus

theorem Plexus.receiver?_of_made {plexus : Plexus}
    {environment : Environment δ η} {reactions : Reactions}
    {call child : Call δ η}
    (made : child ∈ (plexus.run environment call reactions).1.calls) :
    child.receiver? = none := by
  cases Plexus.made_of_mem made <;> rfl

/-- While users do nothing, the calls of a plexus lead to what they lead to in a
plexus that stays as it is. -/
theorem Traffic.leads_of {first plexus : Plexus}
    {environment : Environment δ η} {goal : Call δ η → Prop} {depth : Nat}
    {call : Call δ η} (leads : plexus.LeadsTo environment goal depth call) :
    (program first environment).Leads
      (fun traffic => traffic.running.plexus = plexus) goal depth call := by
  induction depth generalizing call with
  | zero => exact leads
  | succ depth induction =>
      intro traffic same
      obtain ⟨child, made, further⟩ := leads traffic.reactions trivial
      refine ⟨child, ?_, induction further⟩
      subst same
      exact made

/-- What a host sends comes to a port by a link, or by the plexuses in
between. -/
inductive Layout.Reaches (layout : Layout H) (host : H) : Port H → Prop where
  | link {ganglion : GanglionId} {port : Port H} :
      port ∈ layout ⟨host, ganglion⟩ → Reaches layout host port
  | hop {port next : Port H} :
      Reaches layout host port → layout.Hop port next →
        Reaches layout host next

namespace Mesh

/-- A step of the mesh by itself that loses nothing. -/
def Action.isKept (action : Action H δ η) : Bool :=
  action.isOwn && !action.isLoss

def Quiet [DecidableEq H] (fabric : Fabric H δ η) (mesh : Mesh H δ η) : Prop :=
  ∀ action, action.isKept = true → mesh.step fabric action = none

def HasEnded (mesh : Mesh H δ η) : Prop :=
  mesh.flight.length = 0 ∧
    ∀ host, ∀ entry ∈ (mesh.site host).entries, entry.status.isEnded = true

instance [Fintype H] (mesh : Mesh H δ η) : Decidable mesh.HasEnded :=
  inferInstanceAs (Decidable (_ ∧ _))

def newCalls (before later : Mesh H δ η) (host : H) :
    List (Call δ η × List (Port H)) :=
  (later.site host).calls.drop (before.site host).entries.length

def Received (before later : Mesh H δ η) (neuron : Neuron) (payload : η)
    (port : Port H) : Prop :=
  ∃ synapse trail,
    ((before.site port.host).state.running.plexus.ganglion
      port.ganglion).base.synapses neuron.name = some synapse ∧
    (.transduce port.ganglion synapse payload none, trail) ∈
      newCalls before later port.host

def Invoked (before later : Mesh H δ η) (host : H) (reactant : ReactantId)
    (data : δ) : Prop :=
  ∃ call ∈ newCalls before later host, call.1.Invokes reactant data

/-- A payload is on its way to a port, or has been received there. -/
def Comes (before later : Mesh H δ η) (neuron : Neuron) (payload : η)
    (port : Port H) : Prop :=
  later.Flies neuron payload port ∨ Received before later neuron payload port

/-- The call is for what `host` has sent: it is the host's own, or its message
has come by a port that hears the host. -/
def Covered (layout : Layout H) (host other : H)
    (call : Call δ η × List (Port H)) : Prop :=
  (call.2 = [] ∧ other = host ∧ call.1.receiver? = none) ∨
    ∃ port trail, call.2 = port :: trail ∧ layout.Reaches host port

/-- Since `before`, only what `host` has sent has been passed on. -/
structure Spread (fabric : Fabric H δ η) (before : Mesh H δ η) (host : H)
    (later : Mesh H δ η) : Prop where
  longer : ∀ other, (before.site other).entries.length ≤
    (later.site other).entries.length
  old : ∀ other index, index < (before.site other).entries.length →
    ∀ call parent, (later.site other).entries[index]? ≠
      some ⟨call, parent, .ready⟩
  calls : ∀ other, ∀ call ∈ newCalls before later other,
    Covered fabric.layout host other call
  flight : ∀ packet ∈ later.flight, fabric.layout.Reaches host packet.port

/-- Since `before`, all calls that have run have done what they do: they have
made further calls, and what they have sent is on its way or has been
received. -/
structure Pursued (fabric : Fabric H δ η) (before : Mesh H δ η)
    (neuron : Neuron) (payload : η) (later : Mesh H δ η) : Prop where
  followed : ∀ other, (fabric.program other).Followed
    (fun traffic => traffic.running.plexus =
      (before.site other).state.running.plexus)
    (before.site other).entries.length (later.site other)
  sent : ∀ other index entry, (before.site other).entries.length ≤ index →
    (later.site other).entries[index]? = some entry →
      entry.status.isReady = true ∨ ∀ target,
        entry.call.1.Sends (before.site other).state.running.plexus
          (fabric.environment other) target neuron.name payload →
        ∀ port ∈ fabric.layout ⟨other, target⟩,
          Comes before later neuron payload port

variable {fabric : Fabric H δ η} {before mesh next : Mesh H δ η} {host : H}
  {neuron : Neuron} {data : δ} {payload : η}

theorem Received.mono {port : Port H}
    (received : Received before mesh neuron payload port)
    (grows : ∀ other, newCalls before mesh other ⊆ newCalls before next other) :
    Received before next neuron payload port := by
  obtain ⟨synapse, trail, found, member⟩ := received
  exact ⟨synapse, trail, found, grows _ member⟩

theorem Covered.starts {other : H} {call child : Call δ η × List (Port H)}
    {plexus : Plexus} {environment : Environment δ η} {reactions : Reactions}
    (covered : Covered fabric.layout host other call)
    (made : child.1 ∈ (plexus.run environment call.1 reactions).1.calls)
    (sameTrail : child.2 = call.2) : Covered fabric.layout host other child := by
  rcases covered with ⟨isRoot, here, _⟩ | ⟨port, trail, isTrail, reaches⟩
  · exact .inl ⟨sameTrail.trans isRoot, here,
      Plexus.receiver?_of_made made⟩
  · exact .inr ⟨port, trail, sameTrail.trans isTrail, reaches⟩

theorem Spread.new (spread : Spread fabric before host mesh) {other : H}
    {index : Nat} {call : Call δ η × List (Port H)} {parent : Option Nat}
    (ready : (mesh.site other).entries[index]? =
      some ⟨call, parent, .ready⟩) :
    (before.site other).entries.length ≤ index ∧
      call ∈ newCalls before mesh other := by
  have late : (before.site other).entries.length ≤ index := by
    by_contra early
    exact spread.old other index (Nat.lt_of_not_le early) _ _ ready
  exact ⟨late, mem_drop_calls.mpr ⟨index, _, late, ready, rfl⟩⟩

/-- What is sent for a message of `host` reaches ports that hear it. -/
theorem Spread.reaches (spread : Spread fabric before host mesh)
    (traceable : Traceable fabric mesh) {other : H}
    {call : Call δ η × List (Port H)}
    (called : call ∈ newCalls before mesh other) {packet : Packet H η}
    (sent : packet ∈ fabric.packets other (mesh.site other).state call) :
    fabric.layout.Reaches host packet.port := by
  rcases spread.calls other call called with
    ⟨_, rfl, _⟩ | ⟨port, trail, isTrail, reaches⟩
  · obtain ⟨ganglion, _, _, hears, _⟩ := Fabric.mem_packets sent
    exact .link hears
  · have member := List.mem_of_mem_drop called
    obtain ⟨_, goes⟩ := traceable.packet member sent
    obtain ⟨_, _, _, _, sameTrail⟩ := Fabric.mem_packets sent
    rw [sameTrail, isTrail] at goes
    obtain ⟨hop, _⟩ := List.isChain_cons_cons.mp goes
    exact .hop reaches hop

variable [DecidableEq H]

theorem Change.exists_append {action : Action H δ η}
    (changed : Change fabric mesh action next) (other : H) :
    ∃ calls, (next.site other).calls = (mesh.site other).calls ++ calls := by
  cases changed with
  | @act host action site moved =>
      by_cases same : other = host
      · subst same
        rw [update_site_self]
        exact (openChange_of_step moved).exists_append
      · rw [update_site_ne _ same]
        exact ⟨[], (List.append_nil _).symm⟩
  | @heard index packet call found entered =>
      by_cases same : other = packet.port.host
      · subst same
        rw [update_site_self]
        exact (openChange_enter
          (fabric.program packet.port.host) _ _).exists_append
      · rw [update_site_ne _ same]
        exact ⟨[], (List.append_nil _).symm⟩
  | gone _ _ => exact ⟨[], (List.append_nil _).symm⟩
  | started => exact ⟨[], (List.append_nil _).symm⟩

theorem Change.newCalls_subset {action : Action H δ η}
    (changed : Change fabric mesh action next) (other : H) :
    newCalls before mesh other ⊆ newCalls before next other := by
  obtain ⟨calls, same⟩ := changed.exists_append other
  rw [newCalls, newCalls, same, List.drop_append]
  exact List.subset_append_left _ _

theorem Change.length_le {action : Action H δ η}
    (changed : Change fabric mesh action next) (other : H) :
    (mesh.site other).entries.length ≤ (next.site other).entries.length := by
  obtain ⟨calls, same⟩ := changed.exists_append other
  rw [← length_calls, ← length_calls, same, List.length_append]
  exact Nat.le_add_right _ _

/-- What a mesh does by itself if nothing is lost. -/
inductive Progress (fabric : Fabric H δ η) (mesh : Mesh H δ η) :
    Mesh H δ η → Prop where
  | run {host : H} {index : Nat} {call : Call δ η × List (Port H)}
      {parent : Option Nat} :
      (mesh.site host).entries[index]? = some ⟨call, parent, .ready⟩ →
      Progress fabric mesh (mesh.update host
        ((fabric.program host).ran (mesh.site host) index
          ⟨call, parent, .ready⟩)
        (mesh.flight ++ fabric.packets host (mesh.site host).state call))
  | settle {host : H} {index : Nat} {call : Call δ η × List (Port H)}
      {parent : Option Nat} {status : Status PlexoError} :
      (mesh.site host).entries[index]? = some ⟨call, parent, .waiting⟩ →
      status.isReady = false →
      Progress fabric mesh (mesh.update host
        ((mesh.site host).setStatus index ⟨call, parent, .waiting⟩ status)
        mesh.flight)
  | heard {index : Nat} {packet : Packet H η} {call : Call δ η} :
      mesh.flight[index]? = some packet →
      mesh.firstCall packet = some call →
      Progress fabric mesh (mesh.update packet.port.host
        ((mesh.site packet.port.host).enter
          (call, packet.port :: packet.trail))
        (mesh.flight.eraseIdx index))
  | unheard {index : Nat} {packet : Packet H η} :
      mesh.flight[index]? = some packet → mesh.firstCall packet = none →
      Progress fabric mesh { mesh with flight := mesh.flight.eraseIdx index }

theorem Change.progress {action : Action H δ η}
    (changed : Change fabric mesh action next)
    (kept : action.isKept = true) : Progress fabric mesh next := by
  obtain ⟨own, noLoss⟩ := Bool.and_eq_true_iff.mp kept
  cases changed with
  | @act host action site moved =>
      cases action with
      | enter _ => cases own
      | change _ => cases own
      | pass action =>
          have passes := Fabric.pass_of_step moved
          generalize fabric.sends host (mesh.site host) (.pass action) = sent
            at passes ⊢
          cases passes with
          | run ready => exact .run ready
          | settle waiting ended =>
              rw [List.append_nil]
              exact .settle waiting ended
  | heard found entered => exact .heard found entered
  | gone found reason =>
      rcases reason with lost | unknown
      · rw [lost] at noLoss
        cases noLoss
      · exact .unheard found unknown
  | started => cases own

theorem Quiet.final (quiet : Quiet fabric mesh) (host : H) :
    (fabric.program host).Final (mesh.site host) := by
  intro action
  have stuck := quiet (.act host (.pass action)) rfl
  cases taken : (fabric.program host).step (mesh.site host) action with
  | none => rfl
  | some site =>
      rw [step_pass taken] at stuck
      cases stuck

theorem Quiet.flight_eq (quiet : Quiet fabric mesh) (benign : fabric.Benign)
    {steps : List (Mesh H δ η × Action H δ η)}
    (run : RunOf fabric steps mesh) : mesh.flight = [] := by
  cases flight : mesh.flight with
  | nil => rfl
  | cons packet packets =>
      have stuck := quiet (.hear 0) rfl
      have found : mesh.flight[0]? = some packet := by
        rw [flight]
        rfl
      cases entered : mesh.firstCall packet with
      | none =>
          simp only [step, found, entered] at stuck
          cases stuck
      | some call =>
          obtain ⟨shown, alone⟩ := exists_runOf run packet.port.host
          have free := isFree_of_final (quiet.final packet.port.host)
            (nested_of_openPath alone)
            (logged_of_run benign run packet.port.host)
            (mesh.restarts packet.port.host) call
          rw [step_hear found entered free] at stuck
          cases stuck

theorem HasEnded.quiet (ended : mesh.HasEnded) : Quiet fabric mesh := by
  intro action kept
  have noFlight : ∀ index : Nat, mesh.flight[index]? = none := by
    intro index
    rw [List.length_eq_zero_iff.mp ended.1]
    rfl
  cases action with
  | act host action =>
      cases action with
      | pass action =>
          have stuck : (fabric.program host).step (mesh.site host) action =
              none :=
            final_of_ended (ended.2 host) action
          simp only [step, openStep, stuck, Option.map_none]
      | enter _ => cases kept
      | change _ => cases kept
  | hear index => simp only [step, noFlight]
  | startRecvLoop _ _ => cases kept
  | lose _ => cases kept

/-- The rule for a step that changes one host. -/
theorem Pursued.update {mesh : Mesh H δ η}
    (pursued : Pursued fabric before neuron payload mesh) {host : H}
    {site : Site H δ η} {flight : List (Packet H η)}
    (followed : (fabric.program host).Followed
      (fun traffic => traffic.running.plexus =
        (before.site host).state.running.plexus)
      (before.site host).entries.length site)
    (here : ∀ index entry, (before.site host).entries.length ≤ index →
      site.entries[index]? = some entry →
        entry.status.isReady = true ∨ ∀ target,
          entry.call.1.Sends (before.site host).state.running.plexus
            (fabric.environment host) target neuron.name payload →
          ∀ port ∈ fabric.layout ⟨host, target⟩, Comes before
            (mesh.update host site flight) neuron payload port)
    (elsewhere : ∀ other index entry,
      (before.site other).entries.length ≤ index →
      (mesh.site other).entries[index]? = some entry →
        entry.status.isReady = true ∨ ∀ target,
          entry.call.1.Sends (before.site other).state.running.plexus
            (fabric.environment other) target neuron.name payload →
          ∀ port ∈ fabric.layout ⟨other, target⟩, Comes before
            (mesh.update host site flight) neuron payload port) :
    Pursued fabric before neuron payload (mesh.update host site flight) where
  followed := by
    intro other
    by_cases same : other = host
    · subst same
      rw [update_site_self]
      exact followed
    · rw [update_site_ne _ same]
      exact pursued.followed other
  sent := by
    intro other
    by_cases same : other = host
    · subst same
      rw [update_site_self]
      exact here
    · rw [update_site_ne _ same]
      exact elsewhere other

theorem Spread.update (spread : Spread fabric before host mesh) {other : H}
    {site : Site H δ η} {flight : List (Packet H η)}
    (longer : (mesh.site other).entries.length ≤ site.entries.length)
    (old : ∀ index, index < (before.site other).entries.length →
      ∀ call parent, site.entries[index]? ≠ some ⟨call, parent, .ready⟩)
    (calls : ∀ call ∈ site.calls.drop (before.site other).entries.length,
      Covered fabric.layout host other call)
    (sent : ∀ packet ∈ flight, fabric.layout.Reaches host packet.port) :
    Spread fabric before host (mesh.update other site flight) where
  longer := by
    intro third
    by_cases same : third = other
    · subst same
      rw [update_site_self]
      exact (spread.longer third).trans longer
    · rw [update_site_ne _ same]
      exact spread.longer third
  old := by
    intro third
    by_cases same : third = other
    · subst same
      rw [update_site_self]
      exact old
    · rw [update_site_ne _ same]
      exact spread.old third
  calls := by
    intro third
    by_cases same : third = other
    · subst same
      rw [newCalls, update_site_self]
      exact calls
    · rw [newCalls, update_site_ne _ same]
      exact spread.calls third
  flight := sent

theorem Spread.progress (spread : Spread fabric before host mesh)
    (traceable : Traceable fabric mesh)
    (progress : Progress fabric mesh next)
    (longer : ∀ other, (mesh.site other).entries.length ≤
      (next.site other).entries.length) :
    Spread fabric before host next := by
  cases progress with
  | @run other index call parent ready =>
      obtain ⟨late, called⟩ := spread.new ready
      have grows := longer other
      rw [update_site_self] at grows
      apply spread.update grows
      · intro position early child parent found
        rcases getElem?_ran_cases ready found with
          ⟨rfl, _⟩ | ⟨_, known⟩ | ⟨new, _⟩
        · omega
        · exact spread.old other position early _ _ known
        · have bound := spread.longer other
          omega
      · intro child member
        rw [calls_ran ready, List.drop_append_of_le_length
          ((spread.longer other).trans (length_calls _).ge)] at member
        rcases List.mem_append.mp member with known | new
        · exact spread.calls other child known
        · simp only [Program.tagged, Outcome.calls_map] at new
          obtain ⟨made, isMade, rfl⟩ := List.mem_map.mp new
          exact (spread.calls other call called).starts isMade rfl
      · intro packet member
        rcases List.mem_append.mp member with flies | goes
        · exact spread.flight packet flies
        · exact spread.reaches traceable called goes
  | @settle other index call parent status waiting ended =>
      have grows := longer other
      rw [update_site_self] at grows
      apply spread.update grows
      · intro position early child parent found
        rcases Table.getElem?_setStatus_cases waiting found with
          ⟨_, same⟩ | ⟨_, known⟩
        · obtain ⟨_, _, rfl⟩ := Entry.mk.inj same
          cases ended
        · exact spread.old other position early _ _ known
      · rw [Table.calls_setStatus waiting]
        exact spread.calls other
      · exact spread.flight
  | @heard index packet call found entered =>
      have reaches := spread.flight packet (List.mem_of_getElem? found)
      have grows := longer packet.port.host
      rw [update_site_self] at grows
      apply spread.update grows
      · intro position early child parent there
        rcases getElem?_enter_cases there with known | ⟨rfl, _⟩
        · exact spread.old packet.port.host position early _ _ known
        · have bound := spread.longer packet.port.host
          omega
      · intro child member
        rw [calls_enter, List.drop_append_of_le_length
          ((spread.longer packet.port.host).trans (length_calls _).ge)] at member
        rcases List.mem_append.mp member with known | new
        · exact spread.calls packet.port.host child known
        · rw [List.mem_singleton.mp new]
          exact .inr ⟨_, _, rfl, reaches⟩
      · intro other member
        exact spread.flight other (List.mem_of_mem_eraseIdx member)
  | unheard _ _ =>
      exact ⟨spread.longer, spread.old, spread.calls, fun other member =>
        spread.flight other (List.mem_of_mem_eraseIdx member)⟩

theorem Progress.comes (progress : Progress fabric mesh next)
    (grows : ∀ other, newCalls before mesh other ⊆ newCalls before next other)
    (ready : Ready fabric neuron mesh)
    (same : ∀ other, (mesh.site other).state.running.plexus =
      (before.site other).state.running.plexus)
    (longer : ∀ other, (before.site other).entries.length ≤
      (mesh.site other).entries.length) {port : Port H}
    (external : mesh.IsExternal port)
    (comes : Comes before mesh neuron payload port) :
    Comes before next neuron payload port := by
  rcases comes with ⟨packet, flies, rfl, rfl, named⟩ | received
  · have stays : ∀ {index : Nat} {other : Packet H η},
        mesh.flight[index]? = some other →
        packet = other ∨ packet ∈ mesh.flight.eraseIdx index := by
      intro index other found
      obtain ⟨position, there⟩ := List.getElem?_of_mem flies
      by_cases this : position = index
      · subst this
        exact .inl (Option.some.inj (there.symm.trans found))
      · exact .inr (List.mem_eraseIdx_iff_getElem?.mpr ⟨position, this, there⟩)
    cases progress with
    | run _ =>
        exact .inl ⟨packet, List.mem_append_left _ flies, rfl, rfl, named⟩
    | settle _ _ => exact .inl ⟨packet, flies, rfl, rfl, named⟩
    | @heard index other call found entered =>
        rcases stays found with rfl | remains
        · -- The packet itself is handed to its synapse.
          obtain ⟨_, synapse, known, rfl⟩ := firstCall_cases entered
          rw [named, same] at known
          refine .inr ⟨synapse, packet.port :: packet.trail, known, ?_⟩
          rw [newCalls, update_site_self]
          exact mem_drop_calls.mpr ⟨(mesh.site packet.port.host).entries.length,
            _, longer packet.port.host, List.getElem?_concat_length .., rfl⟩
        · exact .inl ⟨packet, remains, rfl, rfl, named⟩
    | unheard found unknown =>
        rcases stays found with rfl | remains
        · obtain ⟨_, _, entered⟩ := ready.exists_firstCall external named
          rw [unknown] at entered
          cases entered
        · exact .inl ⟨packet, remains, rfl, rfl, named⟩
  · exact .inr (received.mono grows)

theorem Pursued.progress
    (pursued : Pursued fabric before neuron payload mesh)
    (progress : Progress fabric mesh next)
    (grows : ∀ other, newCalls before mesh other ⊆ newCalls before next other)
    (ready : Ready fabric neuron mesh)
    (same : ∀ other, (mesh.site other).state.running.plexus =
      (before.site other).state.running.plexus)
    (longer : ∀ other, (before.site other).entries.length ≤
      (mesh.site other).entries.length) :
    Pursued fabric before neuron payload next := by
  have stays : ∀ other index entry,
      (before.site other).entries.length ≤ index →
      (mesh.site other).entries[index]? = some entry →
        entry.status.isReady = true ∨ ∀ target,
          entry.call.1.Sends (before.site other).state.running.plexus
            (fabric.environment other) target neuron.name payload →
          ∀ port ∈ fabric.layout ⟨other, target⟩,
            Comes before next neuron payload port := by
    intro other index entry late found
    rcases pursued.sent other index entry late found with isReady | sent
    · exact .inl isReady
    · refine .inr fun target sends port hears => ?_
      exact progress.comes grows ready same longer (ready.links _ _ hears).2
        (sent target sends port hears)
  cases progress with
  | @run host index call parent isReady =>
      apply pursued.update
      · exact (OpenChange.run isReady : OpenChange _ Fabric.around _ _).followed
          (pursued.followed host) (same host) (longer host)
      · intro position entry late found
        rcases getElem?_ran_cases isReady found with
          ⟨rfl, rfl⟩ | ⟨_, known⟩ | ⟨_, child, _, rfl⟩
        · refine .inr fun target sends port hears => ?_
          rw [← same host] at sends
          obtain ⟨packet, isSent, facts⟩ := exists_mem_packets sends hears
          exact .inl ⟨packet, List.mem_append_right _ isSent, facts⟩
        · exact stays host position entry late known
        · exact .inl rfl
      · exact stays
  | @settle host index call parent status waiting ended =>
      apply pursued.update
      · exact (OpenChange.settle waiting ended :
          OpenChange _ Fabric.around _ _).followed
            (pursued.followed host) (same host) (longer host)
      · intro position entry late found
        rcases Table.getElem?_setStatus_cases waiting found with
          ⟨rfl, rfl⟩ | ⟨_, known⟩
        · rcases stays host position _ late waiting with isReady | comes
          · cases isReady
          · exact .inr comes
        · exact stays host position entry late known
      · exact stays
  | @heard index packet call found entered =>
      apply pursued.update
      · exact (openChange_enter (fabric.program packet.port.host) _ _).followed
          (pursued.followed _) (same _) (longer _)
      · intro position entry late there
        rcases getElem?_enter_cases there with known | ⟨_, rfl⟩
        · exact stays _ position entry late known
        · exact .inl rfl
      · exact stays
  | unheard _ _ => exact ⟨pursued.followed, stays⟩

section Spreads

variable {steps later : List (Mesh H δ η × Action H δ η)}
  {finish : Mesh H δ η}

theorem Transmits.eq (transmits : Transmits fabric mesh host data neuron next) :
    next = mesh.update host
      ((mesh.site host).enter (.transmit .own data neuron none, []))
      mesh.flight := by
  obtain ⟨site, moved, rfl⟩ := Option.map_eq_some_iff.mp transmits
  obtain ⟨call, entered, rfl⟩ := Option.map_eq_some_iff.mp moved
  obtain ⟨root, first, rfl⟩ := Option.map_eq_some_iff.mp entered
  obtain ⟨_, ⟨⟩⟩ := Option.ite_none_right_eq_some.mp first
  simp only [Fabric.sends, List.append_nil]

theorem spread_start (quiet : Quiet fabric mesh)
    (empty : mesh.flight = [])
    (transmits : Transmits fabric mesh host data neuron next) :
    Spread fabric mesh host next := by
  have unchanged : Spread fabric mesh host mesh := by
    constructor
    · exact fun other => le_rfl
    · exact fun other index _ call parent => (quiet.final other).not_ready
    · intro other call member
      rw [newCalls, List.drop_of_length_le (length_calls _).le] at member
      cases member
    · intro packet member
      rw [empty] at member
      cases member
  rw [transmits.eq]
  apply unchanged.update
  · simp [Table.enter]
  · intro index early call parent found
    rcases getElem?_enter_cases found with known | ⟨rfl, _⟩
    · exact (quiet.final host).not_ready known
    · omega
  · intro call member
    obtain ⟨index, entry, late, found, rfl⟩ := mem_drop_calls.mp member
    rcases getElem?_enter_cases found with known | ⟨_, rfl⟩
    · have inside := (List.getElem?_eq_some_iff.mp known).1
      omega
    · exact .inl ⟨rfl, rfl, rfl⟩
  · exact unchanged.flight

theorem pursued_start
    (transmits : Transmits fabric mesh host data neuron next) :
    Pursued fabric mesh neuron payload next := by
  have fresh : ∀ other index entry,
      (mesh.site other).entries.length ≤ index →
      (next.site other).entries[index]? = some entry →
        entry.status.isReady = true := by
    intro other index entry late found
    rw [transmits.eq] at found
    by_cases here : other = host
    · subst here
      rw [update_site_self] at found
      rcases getElem?_enter_cases found with known | ⟨_, rfl⟩
      · have inside := (List.getElem?_eq_some_iff.mp known).1
        omega
      · rfl
    · rw [update_site_ne _ here] at found
      have inside := (List.getElem?_eq_some_iff.mp found).1
      omega
  constructor
  · exact fun other index entry late found =>
      .inl (fresh other index entry late found)
  · exact fun other index entry late found =>
      .inl (fresh other index entry late found)

/-- What holds while a message spreads from `host`. -/
structure Spreading (fabric : Fabric H δ η) (mesh : Mesh H δ η) (host : H)
    (data : δ) (neuron : Neuron) (payload : η) (later : Mesh H δ η) :
    Prop where
  reached : ∃ steps, RunOf fabric steps later
  same : ∀ other, (later.site other).state.running.plexus =
    (mesh.site other).state.running.plexus
  spread : Spread fabric mesh host later
  pursued : Pursued fabric mesh neuron payload later
  begun : (.transmit .own data neuron none, []) ∈ newCalls mesh later host

theorem Spreading.change {action : Action H δ η}
    (spreading : Spreading fabric before host data neuron payload mesh)
    (ready : Ready fabric neuron before)
    (taken : mesh.step fabric action = some next)
    (kept : action.isKept = true) :
    Spreading fabric before host data neuron payload next := by
  obtain ⟨steps, run⟩ := spreading.reached
  have own := (Bool.and_eq_true_iff.mp kept).1
  have changed := change_of_step taken
  have progress := changed.progress kept
  have same := spreading.same
  constructor
  · exact ⟨_, run.snoc taken⟩
  · exact fun other => (changed.same own other).trans (same other)
  · exact spreading.spread.progress (traceable_of_run run) progress
      changed.length_le
  · exact spreading.pursued.progress progress changed.newCalls_subset
      (ready.congr same) same spreading.spread.longer
  · exact changed.newCalls_subset host spreading.begun

theorem spreading_of_path (run : RunOf fabric steps mesh)
    (ready : Ready fabric neuron mesh) (benign : fabric.Benign) (quiet : Quiet fabric mesh)
    (transmits : Transmits fabric mesh host data neuron next)
    (path : Path (step fabric) next later finish)
    (kept : Along (fun _ action => action.isKept = true) later) :
    Spreading fabric mesh host data neuron payload finish := by
  apply path.invariant kept
  · constructor
    · exact ⟨_, run.snoc transmits⟩
    · intro other
      rw [transmits.eq]
      by_cases here : other = host
      · subst here
        rw [update_site_self]
        rfl
      · rw [update_site_ne _ here]
    · exact spread_start quiet (quiet.flight_eq benign run) transmits
    · exact pursued_start transmits
    · rw [newCalls, transmits.eq, update_site_self]
      exact mem_drop_calls.mpr ⟨(mesh.site host).entries.length, _, le_rfl,
        List.getElem?_concat_length .., rfl⟩
  · intro state action after spreading isKept taken
    exact spreading.change ready taken isKept

/-- Once nothing goes on, a call that leads to the goal has led to it. -/
theorem Spreading.reaches
    (spreading : Spreading fabric before host data neuron payload finish)
    (ended : Quiet fabric finish) {other : H}
    {goal : Call δ η → Prop} {depth : Nat} {call : Call δ η}
    {trail : List (Port H)}
    (called : (call, trail) ∈ newCalls before finish other)
    (leads : (before.site other).state.running.plexus.LeadsTo
      (fabric.environment other) goal depth call) :
    ∃ last ∈ newCalls before finish other, goal last.1 := by
  have alone := @Traffic.leads_of _ _ (fabric.plexus other) _ _ _ _ _ leads
  have tagged := alone.tagged trail
  obtain ⟨last, member, isGoal, _⟩ := (spreading.pursued.followed other).reaches
    (ended.final other).not_ready tagged called
  exact ⟨last, member, isGoal⟩

theorem Spreading.received
    (spreading : Spreading fabric before host data neuron payload finish)
    (benign : fabric.Benign) (ended : Quiet fabric finish) {other : H} {target : GanglionId}
    {depth : Nat} {call : Call δ η} {trail : List (Port H)}
    (called : (call, trail) ∈ newCalls before finish other)
    (leads : (before.site other).state.running.plexus.LeadsTo
      (fabric.environment other)
      (Call.Sends (before.site other).state.running.plexus
        (fabric.environment other) target neuron.name payload) depth call)
    {port : Port H} (hears : port ∈ fabric.layout ⟨other, target⟩) :
    Received before finish neuron payload port := by
  obtain ⟨steps, run⟩ := spreading.reached
  obtain ⟨last, member, sends⟩ := spreading.reaches ended called leads
  obtain ⟨index, ⟨_, parent, status⟩, late, found, rfl⟩ :=
    mem_drop_calls.mp member
  rcases spreading.pursued.sent other index _ late found with isReady | sent
  · cases status with
    | ready => exact absurd found (ended.final other).not_ready
    | waiting => cases isReady
    | returned => cases isReady
    | raised _ => cases isReady
  · rcases sent target sends port hears with ⟨packet, flies, _⟩ | received
    · rw [ended.flight_eq benign run] at flies
      cases flies
    · exact received

theorem Spreading.origin
    (spreading : Spreading fabric before host data neuron payload finish)
    {other : H} {call : Call δ η × List (Port H)}
    (called : call ∈ newCalls before finish other) :
    (other = host ∧ call.1.receiver? = none) ∨
      ∃ port, port.host = other ∧ fabric.layout.Reaches host port ∧
        call.1.Behind (finish.site other).state.reactions port.ganglion := by
  obtain ⟨steps, run⟩ := spreading.reached
  rcases spreading.spread.calls other call called with
    ⟨_, here, isRoot⟩ | ⟨port, trail, isTrail, reaches⟩
  · exact .inl ⟨here, isRoot⟩
  · obtain ⟨here, behind⟩ := (traceable_of_run run).fits other call
      (List.mem_of_mem_drop called) port trail isTrail
    exact .inr ⟨port, here, reaches, behind⟩

theorem Spreading.reaches_of_received
    (spreading : Spreading fabric before host data neuron payload finish)
    {port : Port H} (received : Received before finish neuron payload port) :
    fabric.layout.Reaches host port := by
  obtain ⟨synapse, trail, _, called⟩ := received
  rcases spreading.origin called with
    ⟨_, isRoot⟩ | ⟨origin, here, reaches, behind⟩
  · cases isRoot
  · -- A call of a synapse is the first one for a message.
    have same : origin.ganglion = port.ganglion := by
      cases behind with
      | received isThis =>
          injection isThis with ganglion
          exact ganglion.symm
      | reacts reaction _ => cases reaction
      | reactant none => cases none
      | forwarded carries _ _ => cases carries
    obtain ⟨host, ganglion⟩ := origin
    obtain ⟨there, other⟩ := port
    obtain rfl : host = there := here
    obtain rfl : ganglion = other := same
    exact reaches

theorem Spreading.received_of_reaches
    (spreading : Spreading fabric before host data neuron payload finish)
    (ready : Ready fabric neuron before) (benign : fabric.Benign)
    (ended : Quiet fabric finish)
    (conveys : ∀ host,
      (fabric.environment host).Conveys neuron.name data payload)
    {port : Port H} (reaches : fabric.layout.Reaches host port) :
    before.IsExternal port ∧
      Received before finish neuron payload port := by
  induction reaches with
  | link hears =>
      obtain ⟨target, external⟩ := ready.links _ _ hears
      obtain ⟨first, isReady⟩ := ready.plexuses host
      exact ⟨external, spreading.received benign ended spreading.begun
        (isReady.leads_sends_transmit (benign.coroutines host) (conveys host)
          target.1 target.2) hears⟩
  | @hop port next _ hop induction =>
      obtain ⟨isPort, synapse, trail, found, called⟩ := induction
      obtain ⟨ganglion, different, hears⟩ := hop
      obtain ⟨target, external⟩ := ready.links _ _ hears
      obtain ⟨first, isReady⟩ := ready.plexuses port.host
      exact ⟨external, spreading.received benign ended called
        (isReady.leads_sends_receive (benign.coroutines port.host)
          (conveys port.host) isPort.1 found target.1 target.2 different) hears⟩

/-- A host hears what another one transmits. -/
def Hears (fabric : Fabric H δ η) (host other : H) : Prop :=
  other = host ∨ ∃ ganglion, fabric.layout.Reaches host ⟨other, ganglion⟩

/-- If nothing is lost, then a message of a user comes exactly to the ports that
the links lead to, in whatever order it is passed on, and is handed to the
reactants of exactly the hosts there, and of its own one. -/
theorem spreads_exactly (run : RunOf fabric steps mesh)
    (ready : Ready fabric neuron mesh) (benign : fabric.Benign)
    (conveys : ∀ host,
      (fabric.environment host).Conveys neuron.name data payload)
    (quiet : Quiet fabric mesh)
    (transmits : Transmits fabric mesh host data neuron next)
    (path : Path (step fabric) next later finish)
    (kept : Along (fun _ action => action.isKept = true) later)
    (ended : Quiet fabric finish) :
    (∀ port, Received mesh finish neuron payload port ↔
      fabric.layout.Reaches host port) ∧
    ∀ other reactant, .user reactant ∈ ((mesh.site other).state.running.plexus
        |>.ganglion .own).reactantsOf neuron.name →
      (Invoked mesh finish other reactant data ↔ Hears fabric host other) := by
  have spreading : Spreading fabric mesh host data neuron payload finish :=
    spreading_of_path run ready benign quiet transmits path kept
  refine ⟨?_, ?_⟩
  · intro port
    constructor
    · exact spreading.reaches_of_received
    · exact fun reaches =>
        (spreading.received_of_reaches ready benign ended conveys reaches).2
  · intro other reactant attached
    obtain ⟨first, isReady⟩ := ready.plexuses other
    constructor
    · rintro ⟨call, called, _⟩
      rcases spreading.origin called with
        ⟨here, _⟩ | ⟨⟨there, ganglion⟩, here, reaches, _⟩
      · exact .inl here
      · obtain rfl : there = other := here
        exact .inr ⟨ganglion, reaches⟩
    · rintro (rfl | ⟨ganglion, reaches⟩)
      · exact spreading.reaches ended spreading.begun
          (isReady.leads_invokes (benign.coroutines other) attached rfl none)
      · obtain ⟨isPort, synapse, trail, found, called⟩ :=
          spreading.received_of_reaches ready benign ended conveys reaches
        exact spreading.reaches ended called (isReady.leads_invokes_receive
          (benign.coroutines other) (conveys other) isPort.1 isPort.2 found
          attached)

end Spreads

end Mesh

def Layout.pair : Layout Bool
  | ⟨host, .other 0⟩ => [⟨!host, .other 0⟩]
  | _ => []

/-- All calls for a message of the first host, one after the other. -/
def pairPasses : List (Mesh.Action Bool Nat Nat) :=
  ((List.range 8).map fun index => .act false (.pass (.run index))) ++
    [.hear 0] ++
    ((List.range 10).map fun index => .act true (.pass (.run index))) ++
    ([5, 4, 3, 1, 0].map fun index => .act false (.pass (.resume index))) ++
    [8, 7, 4, 3, 2, 1, 0].map fun index => .act true (.pass (.resume index))

/-- What one of two hosts transmits is handed to the reactant of the other
one. -/
theorem Mesh.spreads_exactly_pair :
    ∃ (steps later : List (Mesh Bool Nat Nat × Action Bool Nat Nat))
      (mesh next finish : Mesh Bool Nat Nat),
      RunOf (sampleFabric .pair) steps mesh ∧
      Transmits (sampleFabric .pair) mesh false 5 sampleNeuron next ∧
      Path (step (sampleFabric .pair)) next later finish ∧
      Invoked mesh finish true 7 5 := by
  obtain ⟨mesh, run, tested⟩ := @path_of_any _ _ (step (sampleFabric .pair))
    (sampleFabric .pair).start
    (sampleAdapts false [7] ++ sampleAdapts true [7])
    (fun mesh => decide (mesh.HasEnded ∧ ∀ host,
        (mesh.site host).state.running.IsAdapted sampleNeuron ∧
          mesh.IsExternal ⟨host, .other 0⟩ ∧
          Reactant.user 7 ∈ ((mesh.site host).state.running.plexus.ganglion
            .own).reactantsOf sampleNeuron.name) &&
      (mesh.step (sampleFabric .pair)
        (.act false (.enter (.transmit .own 5 sampleNeuron none)))).any
        fun next => (exec (step (sampleFabric .pair)) next pairPasses).any
          fun finish : Mesh Bool Nat Nat => decide finish.HasEnded)
    (by decide +kernel)
  obtain ⟨isReady, goes⟩ := Bool.and_eq_true_iff.mp tested
  obtain ⟨atRest, hosts⟩ := of_decide_eq_true isReady
  obtain ⟨next, transmits, passes⟩ := (Option.any_eq_true _ _).mp goes
  obtain ⟨finish, path, finished⟩ := path_of_any passes
  have ready : Ready (sampleFabric .pair) sampleNeuron mesh := by
    apply ready_of_run run (along_visited (by simp [Along]) (by decide))
      fun host => (hosts host).1
    intro port next hears
    simp only [sampleFabric, Layout.pair] at hears
    split at hears
    · obtain rfl := List.mem_singleton.mp hears
      exact ⟨(hosts _).2.1, (hosts _).2.1⟩
    · cases hears
  have spreads := spreads_exactly run ready (benign_sample _)
    (fun _ => (⟨fun _ _ => rfl, fun _ _ => rfl, fun _ => rfl⟩ :
      sampleEnvironment.Conveys sampleNeuron.name 5 5))
    atRest.quiet transmits path (along_visited (by simp [Along]) (by decide))
    (of_decide_eq_true finished).quiet
  have linked : ⟨true, .other 0⟩ ∈
      (sampleFabric .pair).layout ⟨false, .other 0⟩ :=
    List.mem_singleton_self _
  exact ⟨_, _, mesh, next, finish, run, transmits, path,
    (spreads.2 true 7 (hosts true).2.2).mpr
      (.inr ⟨.other 0, .link linked⟩)⟩

end Plexo
