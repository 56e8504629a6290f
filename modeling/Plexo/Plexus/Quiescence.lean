import Mathlib.Algebra.Order.BigOperators.Group.Finset
import Plexo.Plexus.Trails

/-!
# When a mesh comes to rest

A message can go on in its plexus until its reactions have reached all ganglia,
and from there through links.  Without loops it comes to every port at most
once, so that what is under way comes to its end in every order, once the users
of all plexuses stop.
-/

namespace Plexo

open CallTable CallTable.Program Transition

variable {H δ η : Type}

namespace Ganglion

/-- There is a bound on the reactants of all dendrites. -/
def Slim (ganglion : Ganglion) : Prop :=
  ∃ width, ∀ synapse, (ganglion.objects synapse).reactants.length +
    (ganglion.objects synapse).rawReactants.length ≤ width

variable {ganglion : Ganglion}

theorem Slim.update (slim : ganglion.Slim) {other : Ganglion}
    {synapse : SynapseId} {dendrite : DecoderDendrite}
    (objects : other.objects =
      Function.update ganglion.objects synapse dendrite) : other.Slim := by
  obtain ⟨width, within⟩ := slim
  refine ⟨width + (dendrite.reactants.length + dendrite.rawReactants.length),
    ?_⟩
  intro place
  rw [objects]
  by_cases same : place = synapse
  · subst same
    rw [Function.update_self]
    exact Nat.le_add_left ..
  · rw [Function.update_of_ne same]
    exact (within place).trans (Nat.le_add_right ..)

theorem Slim.congr (slim : ganglion.Slim) {other : Ganglion}
    (objects : other.objects = ganglion.objects) : other.Slim := by
  obtain ⟨width, within⟩ := slim
  refine ⟨width, ?_⟩
  rw [objects]
  exact within

theorem Slim.getSynapse (slim : ganglion.Slim) (neuron : Neuron) :
    (ganglion.getSynapse neuron).2.Slim := by
  unfold Ganglion.getSynapse
  split
  · exact slim
  · exact slim.update rfl

theorem Slim.react (slim : ganglion.Slim) (neuron : Neuron)
    (reactants : List Reactant) : (ganglion.react neuron reactants).Slim :=
  (slim.getSynapse neuron).update rfl

theorem Slim.reactRaw (slim : ganglion.Slim) (neuron : Neuron)
    (rawReactants : List RawReactant) :
    (ganglion.reactRaw neuron rawReactants).Slim :=
  (slim.getSynapse neuron).update rfl

theorem Slim.updateTransmitter (slim : ganglion.Slim) (neuron : Neuron) :
    (ganglion.updateTransmitter neuron).Slim := by
  apply (slim.getSynapse neuron).congr
  simp only [Ganglion.updateTransmitter]
  split <;> rfl

theorem Slim.adapt (slim : ganglion.Slim) (neuron : Neuron)
    (reactants : List Reactant) (rawReactants : List RawReactant) :
    (ganglion.adapt neuron reactants rawReactants).Slim := by
  unfold Ganglion.adapt
  split
  · exact slim
  · apply Slim.updateTransmitter
    have decoded : (if reactants = [] then ganglion
        else ganglion.react neuron reactants).Slim := by
      split
      · exact slim
      · exact slim.react neuron reactants
    split
    · exact decoded
    · exact decoded.reactRaw neuron rawReactants

theorem Slim.adaptPartly (slim : ganglion.Slim) (neuron : Neuron)
    (reactants : List Reactant) (rawReactants : List RawReactant)
    (attached attachedRaw : Bool) :
    (ganglion.adaptPartly neuron reactants rawReactants attached
      attachedRaw).Slim := by
  have decoded := slim.react neuron reactants
  unfold Ganglion.adaptPartly
  cases attached with
  | false =>
      cases attachedRaw with
      | false => exact slim
      | true => exact slim.reactRaw neuron rawReactants
  | true =>
      cases attachedRaw with
      | false => exact decoded
      | true => exact decoded.reactRaw neuron rawReactants

end Ganglion

namespace Plexus

def Slim (plexus : Plexus) : Prop := ∃ width, Traffic.Within plexus width

theorem slim_init (outside : Nat → GanglionClass × Filters) (given : List Nat)
    (relevantNeurons ignoredNeurons : List Neuron) :
    (init outside given relevantNeurons ignoredNeurons).Slim := by
  refine ⟨0, ?_⟩
  intro id synapse
  cases id with
  | own => exact le_rfl
  | other index => exact le_rfl

variable {plexus : Plexus}

theorem Slim.ganglion (slim : plexus.Slim) (id : GanglionId) :
    (plexus.ganglion id).Slim := by
  obtain ⟨width, within⟩ := slim
  exact ⟨width, within id⟩

theorem Slim.update (slim : plexus.Slim) {after : Plexus} {id : GanglionId}
    {ganglion : Ganglion}
    (changed : after.ganglion = Function.update plexus.ganglion id ganglion)
    (isSlim : ganglion.Slim) : after.Slim := by
  obtain ⟨width, within⟩ := slim
  obtain ⟨other, bound⟩ := isSlim
  refine ⟨width + other, ?_⟩
  intro place synapse
  rw [changed]
  by_cases same : place = id
  · subst same
    rw [Function.update_self]
    exact (bound synapse).trans (Nat.le_add_left ..)
  · rw [Function.update_of_ne same]
    exact (within place synapse).trans (Nat.le_add_right ..)

theorem Slim.react (slim : plexus.Slim) (neuron : Neuron)
    (reactants : List ReactantId) : (plexus.react neuron reactants).Slim :=
  slim.update rfl ((slim.ganglion .own).react neuron _)

theorem Slim.leave (slim : plexus.Slim) (update : Option Neuron) :
    (plexus.leave update).Slim := by
  cases update with
  | none => exact slim
  | some neuron =>
      exact slim.update rfl ((slim.ganglion .own).updateTransmitter neuron)

theorem Slim.enter (slim : plexus.Slim) (operation : Operation) :
    (plexus.enter operation).plexus.Slim := by
  cases operation with
  | react neuron reactants => exact slim.react neuron reactants
  | attach index neuron reactants =>
      exact slim.update rfl ((slim.ganglion (.other index)).react neuron _)
  | updateTransmitter neuron => exact slim
  | adapt neuron reactants =>
      simp only [Plexus.enter]
      split
      · exact slim
      · split
        · exact slim
        · exact slim.react neuron reactants
  | infuseGanglion ganglion =>
      simp only [Plexus.enter, Plexus.addGanglion]
      split <;> exact slim

end Plexus

theorem Running.Move.slim {running next : Running} {fails : Bool}
    (moved : Move running fails next) (slim : running.plexus.Slim) :
    next.plexus.Slim := by
  cases moved with
  | call operation =>
      have entered := slim.enter operation
      simp only [Running.call]
      split
      · exact entered.leave _
      · exact entered
  | @adapted index call pair found =>
      exact slim.update rfl ((slim.ganglion pair.2).adapt pair.1 _ _)
  | @failed index call pair error attached attachedRaw found =>
      exact slim.update rfl
        ((slim.ganglion pair.2).adaptPartly pair.1 _ _ attached attachedRaw)
  | resume found _ => exact slim.leave _
  | handle found _ _ => exact slim.leave _
  | raise _ _ _ => exact slim

/-- How much a call can still lead to, in its own plexus and in those that its
message comes to by ports of the mesh that it has not come through. -/
def rankAt (base : Plexus) (span ports : Nat) (traffic : Traffic)
    (call : Call δ η × List (Port H)) : Nat :=
  span * (ports - call.2.length) + Traffic.rank base traffic call.1

def Packet.weight (span ports width : Nat) (packet : Packet H η) : Nat :=
  (width + 2) ^ (span * (ports - packet.trail.length) + 1)

/-- Bounds on what the plexuses `base` do at a time: on the ranks and the numbers
of calls, and on the packets that one call sends. -/
structure Fabric.Bounds (fabric : Fabric H δ η) (base : H → Plexus)
    (span width : Nat) : Prop where
  span : ∀ host traffic (call : Call δ η),
    Traffic.rank (base host) traffic call < span
  few : ∀ host traffic (call : Call δ η), traffic.running.plexus = base host →
    ((Traffic.program (fabric.plexus host) (fabric.environment host)).run call
      traffic).1.calls.length ≤ width
  fan : ∀ host, ∀ ganglion ∈ (base host).ganglia,
    (fabric.layout ⟨host, ganglion⟩).length ≤ width

theorem Traffic.rank_le (last : Plexus) (traffic : Traffic)
    (call : Call δ η) : rank last traffic call ≤ 4 * last.ganglia.length + 4 := by
  unfold rank
  split
  · exact Nat.zero_le _
  · next ganglion _ =>
      have few : last.unreached (Plexus.joinedOf traffic.reactions
          call.reactionId?) ganglion ≤ last.ganglia.length :=
        List.countP_le_length ..
      have stage := stage_le call
      omega

theorem Fabric.exists_bounds [Fintype H] (fabric : Fabric H δ η)
    {base : H → Plexus} (slim : ∀ host, (base host).Slim) :
    ∃ span width, fabric.Bounds base span width := by
  choose most within using slim
  have each : ∀ (count : H → Nat) host, count host ≤ ∑ other, count other :=
    fun count host => Finset.single_le_sum (fun _ _ => Nat.zero_le _)
      (Finset.mem_univ host)
  refine ⟨(∑ host, 4 * (base host).ganglia.length) + 5,
    (∑ host, (most host + (base host).ganglia.length + 1)) +
      ∑ host, ((base host).ganglia.map fun ganglion =>
        (fabric.layout ⟨host, ganglion⟩).length).sum, ?_, ?_, ?_⟩
  · intro host traffic call
    have bound := Traffic.rank_le (base host) traffic call
    have total := each (fun host => 4 * (base host).ganglia.length) host
    omega
  · intro host traffic call same
    have bound := @Traffic.length_calls_le _ _ (fabric.plexus host)
      (fabric.environment host) traffic (most host) (same ▸ within host) call
    have total :=
      each (fun host => most host + (base host).ganglia.length + 1) host
    rw [same] at bound
    omega
  · intro host ganglion inside
    have one := List.single_le_sum (fun _ _ => Nat.zero_le _) _
      (List.mem_map.mpr ⟨ganglion, inside, rfl⟩ :
        (fabric.layout ⟨host, ganglion⟩).length ∈
          (base host).ganglia.map fun ganglion =>
            (fabric.layout ⟨host, ganglion⟩).length)
    have total := each (fun host => ((base host).ganglia.map fun ganglion =>
      (fabric.layout ⟨host, ganglion⟩).length).sum) host
    omega

/-- What holds of a host whose plexus is `base`. -/
structure Still (base : Plexus) (site : Site H δ η) : Prop where
  same : site.state.running.plexus = base
  good : Traffic.Good base site.state
  inside : ∀ call ∈ site.calls, Traffic.Inside site.state call.1

section Hosts

variable {fabric : Fabric H δ η} {base : H → Plexus} {span ports width : Nat}
  {host : H} {site next : Site H δ η}

theorem Still.lower (still : Still (base host) site)
    {call : Call δ η × List (Port H)} (member : call ∈ site.calls) :
    ∀ child ∈ ((fabric.program host).run call site.state).1.calls,
      rankAt (base host) span ports
          ((fabric.program host).run call site.state).2 child <
        rankAt (base host) span ports site.state call := by
  intro child isChild
  simp only [Program.tagged, Outcome.calls_map] at isChild
  obtain ⟨made, isMade, rfl⟩ := List.mem_map.mp isChild
  exact Nat.add_lt_add_left ((Traffic.ranks_calls (fabric.plexus host)
    (base host) (fabric.environment host)).lower still.good
      (still.inside call member) made isMade) _

theorem Still.falls (still : Still (base host) site)
    {call : Call δ η × List (Port H)} (member : call ∈ site.calls) :
    ∀ other ∈ site.calls,
      rankAt (base host) span ports
          ((fabric.program host).run call site.state).2 other ≤
        rankAt (base host) span ports site.state other := by
  intro other isOther
  exact Nat.add_le_add_left ((Traffic.ranks_calls (fabric.plexus host)
    (base host) (fabric.environment host)).falls still.good
      (still.inside call member) (still.inside other isOther)) _

theorem Still.few (still : Still (base host) site)
    (bounds : fabric.Bounds base span width)
    (call : Call δ η × List (Port H)) :
    ((fabric.program host).run call site.state).1.calls.length ≤ width := by
  simp only [Program.tagged, Outcome.calls_map, List.length_map]
  exact bounds.few host site.state call.1 still.same

/-- The calls of a host come to their end. -/
theorem Still.potential_pass (still : Still (base host) site)
    (bounds : fabric.Bounds base span width)
    (moved : (fabric.program host).Move site next) :
    potential (rankAt (base host) span ports) width next <
      potential (rankAt (base host) span ports) width site := by
  apply potential_move _ _ moved
  · exact fun call _ => still.few bounds call
  · exact fun call member => still.lower member
  · exact fun call member => still.falls member

theorem Call.calls_of_sent {plexus : Plexus} {environment : Environment δ η}
    {call : Call δ η} {ganglion : GanglionId} {synapse : SynapseId} {data : η}
    (sent : call.sent? plexus environment = some (ganglion, synapse, data))
    (reactions : Reactions) :
    (plexus.run environment call reactions).1.calls = [] ∧
      call.ganglion? = some ganglion ∧ call.stage = 3 := by
  rcases sent?_cases sent with ⟨bound, content, id, rfl, _, external⟩ | ⟨id, rfl⟩
  · refine ⟨?_, rfl, rfl⟩
    simp only [Plexus.run]
    split
    · next inproc => exact absurd inproc external
    · exact outcomeOf_calls _
  · exact ⟨outcomeOf_calls _, rfl, rfl⟩

theorem Still.potential_sends (still : Still (base host) site)
    (bounds : fabric.Bounds base span width) {index : Nat}
    {call : Call δ η × List (Port H)} {parent : Option Nat}
    (ready : site.entries[index]? = some ⟨call, parent, .ready⟩) :
    potential (rankAt (base host) span ports) width
        ((fabric.program host).ran site index ⟨call, parent, .ready⟩) +
        ((fabric.packets host site.state call).map
          (Packet.weight span ports width)).sum <
      potential (rankAt (base host) span ports) width site := by
  have member := Table.mem_calls_of_getElem? ready
  cases sent : call.1.sent? site.state.running.plexus
      (fabric.environment host) with
  | none =>
      have nothing : fabric.packets host site.state call = [] := by
        simp only [Fabric.packets, sent]
      rw [nothing]
      exact still.potential_pass bounds (.run ready)
  | some way =>
      obtain ⟨ganglion, synapse, data⟩ := way
      obtain ⟨ends, isGanglion, stage⟩ :=
        Call.calls_of_sent sent site.state.reactions
      have inside := still.inside call member ganglion isGanglion
      rw [still.same] at inside
      have fan := bounds.fan host ganglion inside
      have falls : ∀ other ∈ site.calls, rankAt (base host) span ports
          ((fabric.program host).run call site.state).2 other ≤
            rankAt (base host) span ports site.state other :=
        still.falls member
      have account := potential_ran_add (rankAt (base host) span ports) width
        ready falls
      have noCalls : ((fabric.program host).run call site.state).1.calls = [] := by
        simp only [Program.tagged, Outcome.calls_map]
        exact List.map_eq_nil_iff.mpr ends
      rw [noCalls] at account
      have ranked : 0 < Traffic.rank (base host) site.state call.1 := by
        simp only [Traffic.rank, isGanglion, stage]
        omega
      have paid := @sum_pow_lt width
        ((fabric.packets host site.state call).map fun packet =>
          span * (ports - packet.trail.length))
        (rankAt (base host) span ports site.state call)
        (by
          simp only [Fabric.packets, sent, List.length_map]
          exact fan)
        (by
          intro value isValue
          obtain ⟨packet, isPacket, rfl⟩ := List.mem_map.mp isValue
          obtain ⟨_, _, _, _, trail⟩ := Fabric.mem_packets isPacket
          rw [trail, rankAt]
          omega)
      rw [List.map_map] at paid
      have own : weight (rankAt (base host) span ports) width site.state
          (⟨call, parent, .ready⟩ :
            Entry (Call δ η × List (Port H)) PlexoError) =
          (width + 2) ^ (rankAt (base host) span ports site.state call + 1) :=
        rfl
      rw [own] at account
      have packets : ((fabric.packets host site.state call).map
          (Packet.weight span ports width)).sum =
            ((fabric.packets host site.state call).map
              ((fun rank => (width + 2) ^ (rank + 1)) ∘ fun packet =>
                span * (ports - packet.trail.length))).sum := rfl
      rw [packets]
      simp only [List.map_nil, List.sum_nil] at account
      omega

end Hosts

theorem sum_update_add [Fintype H] [DecidableEq H] {α : Type}
    (amount : H → α → Nat) (family : H → α) (host : H) (value : α) :
    (∑ other, amount other (Function.update family host value other)) +
        amount host (family host) =
      (∑ other, amount other (family other)) + amount host value := by
  have after := Finset.add_sum_erase Finset.univ
    (fun other => amount other (Function.update family host value other))
    (Finset.mem_univ host)
  have before := Finset.add_sum_erase Finset.univ
    (fun other => amount other (family other)) (Finset.mem_univ host)
  have others : ∑ other ∈ Finset.univ.erase host,
      amount other (Function.update family host value other) =
        ∑ other ∈ Finset.univ.erase host, amount other (family other) := by
    apply Finset.sum_congr rfl
    intro other member
    rw [Function.update_of_ne (Finset.ne_of_mem_erase member)]
  simp only [Function.update_self] at after
  omega

theorem sum_eraseIdx_add {α : Type} (weight : α → Nat) {list : List α}
    {index : Nat} {element : α} (found : list[index]? = some element) :
    ((list.eraseIdx index).map weight).sum + weight element =
      (list.map weight).sum := by
  obtain ⟨inside, same⟩ := List.getElem?_eq_some_iff.mp found
  have perm := (List.getElem_cons_eraseIdx_perm inside).map weight
  rw [← perm.sum_eq, List.map_cons, List.sum_cons, same, Nat.add_comm]

namespace Mesh

/-- Not something that a user does, or that comes in from outside. -/
def Action.isOwn : Action H δ η → Bool
  | .act _ (.pass _) => true
  | .act _ (.enter _) => false
  | .act _ (.change _) => false
  | .hear _ => true
  | .startRecvLoop _ _ => false
  | .lose _ => true

/-- A run in which the mesh is left to itself. -/
def Left (steps : List (Mesh H δ η × Action H δ η)) : Prop :=
  Along (fun _ action => action.isOwn = true) steps

variable {fabric : Fabric H δ η} {mesh next : Mesh H δ η}
  {base : H → Plexus} {span ports width : Nat}

/-- A host is as adapted as before, unless one of its users or an `adapt` of a
ganglion does something. -/
theorem Change.running_cases [DecidableEq H] {action : Action H δ η}
    (changed : Change fabric mesh action next) (host : H) :
    (next.site host).state.running = (mesh.site host).state.running ∨
      ∃ call, action = .act host (.change call) ∧
        (mesh.site host).state.running.step call =
          some (next.site host).state.running := by
  cases changed with
  | @act other action site moved =>
      by_cases same : host = other
      · subst same
        rw [update_site_self]
        cases action with
        | pass action =>
            cases (move_of_step moved).change with
            | run _ => exact .inl rfl
            | settle _ _ => exact .inl rfl
        | enter input =>
            obtain ⟨call, _, rfl⟩ := Option.map_eq_some_iff.mp moved
            exact .inl rfl
        | change call =>
            obtain ⟨traffic, done, rfl⟩ := Option.map_eq_some_iff.mp moved
            obtain ⟨running, taken, rfl⟩ := Option.map_eq_some_iff.mp done
            exact .inr ⟨call, rfl, taken⟩
      · rw [update_site_ne _ same]
        exact .inl rfl
  | @heard index packet call found entered =>
      by_cases same : host = packet.port.host
      · subst same
        rw [update_site_self]
        exact .inl rfl
      · rw [update_site_ne _ same]
        exact .inl rfl
  | gone _ _ => exact .inl rfl
  | started => exact .inl rfl

theorem Change.same [DecidableEq H] {action : Action H δ η}
    (changed : Change fabric mesh action next) (own : action.isOwn = true)
    (host : H) : (next.site host).state.running.plexus =
      (mesh.site host).state.running.plexus := by
  rcases changed.running_cases host with same | ⟨call, rfl, _⟩
  · rw [same]
  · cases own

theorem length_le_of_knows [Fintype H] {trail : List (Port H)} (nodup : trail.Nodup)
    (known : ∀ port ∈ trail, mesh.Knows port) :
    trail.length ≤
      ∑ host, (mesh.site host).state.running.plexus.ganglia.length := by
  have inside : trail ⊆ Finset.univ.toList.flatMap fun host =>
      (mesh.site host).state.running.plexus.ganglia.map fun ganglion =>
        (⟨host, ganglion⟩ : Port H) := by
    intro port member
    apply List.mem_flatMap.mpr
    exact ⟨port.host, Finset.mem_toList.mpr (Finset.mem_univ _),
      List.mem_map.mpr ⟨port.ganglion, known port member, rfl⟩⟩
  calc trail.length
    _ ≤ (Finset.univ.toList.flatMap fun host =>
          (mesh.site host).state.running.plexus.ganglia.map fun ganglion =>
            (⟨host, ganglion⟩ : Port H)).length :=
        (List.subperm_of_subset nodup inside).length_le
    _ = ∑ host, (mesh.site host).state.running.plexus.ganglia.length := by
        simp [List.length_flatMap]

/-- How much all that is under way can still lead to. -/
def measure [Fintype H] (base : H → Plexus) (span ports width : Nat)
    (mesh : Mesh H δ η) : Nat :=
  (∑ host, potential (rankAt (base host) span ports) width (mesh.site host)) +
    (mesh.flight.map (Packet.weight span ports width)).sum

/-- Every own step of a mesh lowers the measure, if packets come to ports that
their messages have not come through. -/
theorem measure_lt [Fintype H] [DecidableEq H] (bounds : fabric.Bounds base span width)
    (still : ∀ host, Still (base host) (mesh.site host))
    (room : ∀ packet ∈ mesh.flight, ∀ call,
      mesh.firstCall packet = some call → packet.trail.length < ports)
    {action : Action H δ η} (own : action.isOwn = true)
    (taken : mesh.step fabric action = some next) :
    measure base span ports width next < measure base span ports width mesh := by
  cases change_of_step taken with
  | @act host action site moved =>
      have total := sum_update_add (fun host =>
        potential (rankAt (base host) span ports) width) mesh.site host site
      have lower : potential (rankAt (base host) span ports) width site +
          ((fabric.sends host (mesh.site host) action).map
            (Packet.weight span ports width)).sum <
          potential (rankAt (base host) span ports) width (mesh.site host) := by
        cases action with
        | enter _ => cases own
        | change _ => cases own
        | pass action =>
            have moved : (fabric.program host).step (mesh.site host) action =
              some site := moved
            have passes := Fabric.pass_of_step moved
            generalize fabric.sends host (mesh.site host) (.pass action) = sent
              at passes ⊢
            cases passes with
            | run ready => exact (still host).potential_sends bounds ready
            | settle _ _ =>
                exact (still host).potential_pass bounds (move_of_step moved)
      simp only [measure, update, List.map_append, List.sum_append]
      omega
  | @heard index packet call found entered =>
      have total := sum_update_add (fun host =>
        potential (rankAt (base host) span ports) width) mesh.site
          packet.port.host ((mesh.site packet.port.host).enter
            (call, packet.port :: packet.trail))
      have short := room packet (List.mem_of_getElem? found) call entered
      have rest := sum_eraseIdx_add (Packet.weight span ports width) found
      have joined : potential (rankAt (base packet.port.host) span ports) width
          ((mesh.site packet.port.host).enter
            (call, packet.port :: packet.trail)) =
          potential (rankAt (base packet.port.host) span ports) width
              (mesh.site packet.port.host) +
            (width + 2) ^ (rankAt (base packet.port.host) span ports
              (mesh.site packet.port.host).state
              (call, packet.port :: packet.trail) + 1) := by
        simp [potential, Table.enter, weight]
      have rank : rankAt (base packet.port.host) span ports
          (mesh.site packet.port.host).state
            (call, packet.port :: packet.trail) <
          span * (ports - packet.trail.length) := by
        have bound := bounds.span packet.port.host
          (mesh.site packet.port.host).state call
        have left : ports - packet.trail.length =
            ports - (packet.trail.length + 1) + 1 := by omega
        rw [rankAt, left, Nat.mul_succ, List.length_cons]
        dsimp only
        omega
      have less : (width + 2) ^ (rankAt (base packet.port.host) span ports
          (mesh.site packet.port.host).state
            (call, packet.port :: packet.trail) + 1) <
          packet.weight span ports width :=
        Nat.pow_lt_pow_right (by omega) (by omega)
      simp only [measure, update]
      omega
  | @gone _ index packet found _ =>
      have rest := sum_eraseIdx_add (Packet.weight span ports width) found
      have positive : 0 < packet.weight span ports width :=
        Nat.pow_pos (by omega)
      simp only [measure]
      omega
  | started => cases own

/-- What is under way in a mesh comes to its end if users stop, in whatever
order calls go on and packets are received or lost. -/
def Rests [DecidableEq H] (fabric : Fabric H δ η) (mesh : Mesh H δ η) : Prop :=
  ∃ bound, ∀ steps finish, Path (step fabric) mesh steps finish →
    Left steps → steps.length ≤ bound

variable [DecidableEq H] {steps : List (Mesh H δ η × Action H δ η)}

theorem slim_of_run (run : RunOf fabric steps mesh) (host : H) :
    (mesh.site host).state.running.plexus.Slim := by
  obtain ⟨shown, alone⟩ := exists_runOf run host
  refine @Path.always _ _ _ (fun table => table.state.running.plexus.Slim) _ _ _
    alone ?_ ?_
  · exact Plexus.slim_init ..
  · intro table action next slim taken
    rcases Traffic.running_cases taken with same | ⟨fails, moved⟩
    · rw [same]
      exact slim
    · exact moved.slim slim

theorem still_of_run (run : RunOf fabric steps mesh)
    (same : ∀ host, (mesh.site host).state.running.plexus = base host)
    (host : H) : Still (base host) (mesh.site host) := by
  obtain ⟨homed, tracked⟩ := sound_of_run run host
  obtain ⟨shown, alone⟩ := exists_runOf run host
  refine ⟨same host, ⟨homed, tracked, ?_, ?_⟩, ?_⟩
  · rw [same host]
    exact List.Subset.refl _
  · rw [same host]
  · intro call member
    apply (Traffic.keeps_inside _ _ _).path alone (Traffic.good_throughout alone)
    rw [Table.untag_calls]
    exact List.mem_map_of_mem member

/-- Without loops, what is under way comes to its end. -/
theorem rests_of_loopFree [Fintype H] (run : RunOf fabric steps mesh)
    (loopFree : fabric.layout.LoopFree) : Rests fabric mesh := by
  let base : H → Plexus := fun host => (mesh.site host).state.running.plexus
  obtain ⟨span, width, bounds⟩ :=
    @Fabric.exists_bounds _ _ _ _ fabric base (slim_of_run run)
  let ports := ∑ host, (base host).ganglia.length
  refine ⟨measure base span ports width mesh, ?_⟩
  intro later finish path left
  have bound := @Path.length_le_of_lowers _ _ _
    (fun _ (action : Action H δ η) => action.isOwn = true)
    (fun state => (∃ steps, RunOf fabric steps state) ∧
      ∀ host, (state.site host).state.running.plexus = base host)
    (measure base span ports width) _ _ _ path left ⟨⟨steps, run⟩, fun _ => rfl⟩
    (by
      rintro state action next ⟨⟨before, reached⟩, same⟩ own taken
      refine ⟨⟨_, reached.snoc taken⟩, ?_⟩
      intro host
      exact ((change_of_step taken).same own host).trans (same host))
    (by
      rintro state action next ⟨⟨before, reached⟩, same⟩ own taken
      apply measure_lt bounds (still_of_run reached same) _ own taken
      intro packet member call entered
      obtain ⟨inside, _⟩ := firstCall_cases entered
      obtain ⟨went, isTrail⟩ := (traceable_of_run reached).flight packet member
      have known : ∀ port ∈ packet.port :: packet.trail, state.Knows port := by
        intro port there
        rcases List.mem_cons.mp there with rfl | older
        · exact inside
        · exact went.known port older
      have short := length_le_of_knows (loopFree.nodup isTrail) known
      simp only [same] at short
      exact short)
  omega

end Mesh

end Plexo
