import Mathlib.Data.Fintype.Option
import Plexo.Plexus.Spreading
import Plexo.Plexus.Worth

/-!
# How many copies of a message there are

A plexus that receives a message sends it on twice through each of its other
external ganglia.  So along every way that it takes, the copies of a message
double with each plexus that passes it on, in whatever order the plexuses and
their calls go on.
-/

namespace Plexo

open CallTable CallTable.Program Transition

variable {H δ η : Type}

namespace Layout

/-- A way of a message: the ports that it comes through, the last one first, from
one that hears its sender. -/
inductive Way (layout : Layout H) (sender : H) : List (Port H) → Prop where
  | link {ganglion : GanglionId} {port : Port H} :
      port ∈ layout ⟨sender, ganglion⟩ → Way layout sender [port]
  | hop {port next : Port H} {trail : List (Port H)} :
      Way layout sender (port :: trail) → layout.Hop port next →
        Way layout sender (next :: port :: trail)

/-- Every port hears one ganglion of a host at most, by one link. -/
structure Simple (layout : Layout H) : Prop where
  nodup : ∀ port, (layout port).Nodup
  apart : ∀ {host left right port}, port ∈ layout ⟨host, left⟩ →
    port ∈ layout ⟨host, right⟩ → left = right

theorem Way.exists_link {layout : Layout H} {sender : H} {port : Port H}
    {trail : List (Port H)} (way : layout.Way sender (port :: trail)) :
    ∃ link, port ∈ layout link := by
  cases way with
  | link hears => exact ⟨_, hears⟩
  | hop _ hop =>
      obtain ⟨_, _, hears⟩ := hop
      exact ⟨_, hears⟩

end Layout

/-- The ganglion that messages with a trail come from: the plexus's own one, if
they have come through no port. -/
def originOf : List (Port H) → GanglionId
  | [] => .own
  | port :: _ => port.ganglion

def hostOf (sender : H) : List (Port H) → H
  | [] => sender
  | port :: _ => port.host

/-- The call is the first one for a message that a ganglion has received. -/
def Call.arrives (ganglion : GanglionId) (call : Call δ η) : Bool :=
  call.receiver?.any fun place => place.1 = ganglion

theorem Traffic.program_run (first : Plexus) (environment : Environment δ η)
    (call : Call δ η) (traffic : Traffic) :
    ((Traffic.program first environment).run call traffic).1 =
      (traffic.running.plexus.run environment call traffic.reactions).1 := rfl

namespace Mesh

variable [DecidableEq H]

/-- How often a message has been received at a port after it had come through
others. -/
def arrivals (before later : Mesh H δ η) (port : Port H)
    (trail : List (Port H)) : Nat :=
  (newCalls before later port.host).countP fun call =>
    call.1.arrives port.ganglion && call.2 = port :: trail

/-- How often a reactant of a user has been run for messages with a trail. -/
def invocations (before later : Mesh H δ η) (host : H) (reactant : ReactantId)
    (trail : List (Port H)) : Nat :=
  (newCalls before later host).countP fun call =>
    call.1.invokes reactant && call.2 = trail

/-- How often it has been run at all. -/
def runs (before later : Mesh H δ η) (host : H) (reactant : ReactantId) : Nat :=
  (newCalls before later host).countP fun call => call.1.invokes reactant

/-- The packets with a trail that are on their way to a port. -/
def flights (mesh : Mesh H δ η) (port : Port H) (trail : List (Port H)) : Nat :=
  mesh.flight.countP fun packet => packet.port = port && packet.trail = trail

/-- How often messages with a trail come to a target in the end. -/
def income (before later : Mesh H δ η) (target : GanglionId) :
    List (Port H) → Nat
  | [] => 1
  | port :: trail =>
      Plexus.onward port.ganglion target port.ganglion
          (before.site port.host).state.running.plexus.ganglia *
        arrivals before later port trail

/-- How often they will still come to it. -/
def outstanding (before later : Mesh H δ η) (sender : H) (target : GanglionId)
    (trail : List (Port H)) : Nat :=
  (later.site (hostOf sender trail)).due (worthOf trail
    ((before.site (hostOf sender trail)).state.running.plexus.worth
      (originOf trail) target))

/-- Plain plexuses that are all ready for a message, and its links. -/
structure Carrying (fabric : Fabric H δ η) (before : Mesh H δ η)
    (neuron : Neuron) (data : δ) (payload : η) : Prop where
  ready : Ready fabric neuron before
  benign : fabric.Benign
  homed : ∀ host, (before.site host).state.running.plexus.Homed
  plain : ∀ host, (before.site host).state.running.plexus.Plain
  simple : fabric.layout.Simple
  conveys : ∀ host,
    (fabric.environment host).Conveys neuron.name data payload

/-- What holds while the copies of a message spread: what has come about, and
what is still due, is what has to come about. -/
structure Balanced (fabric : Fabric H δ η) (before : Mesh H δ η) (sender : H)
    (neuron : Neuron) (data : δ) (payload : η) (later : Mesh H δ η) : Prop where
  proper : ∀ host, ∀ call ∈ newCalls before later host,
    (before.site host).state.running.plexus.Proper (fabric.environment host)
      neuron.name ⟨data, some payload⟩ (originOf call.2)
      (later.site host).state.reactions call.1
  ways : ∀ host, ∀ call ∈ newCalls before later host,
    hostOf sender call.2 = host ∧
      (call.2 = [] ∨ fabric.layout.Way sender call.2)
  flight : ∀ packet ∈ later.flight, packet.data = payload ∧
    packet.neuron.name = neuron.name ∧
      fabric.layout.Way sender (packet.port :: packet.trail)
  sent : ∀ trail target port,
    port ∈ fabric.layout ⟨hostOf sender trail, target⟩ →
      later.flights port trail + arrivals before later port trail +
          outstanding before later sender target trail =
        income before later target trail
  invoked : ∀ trail reactant, .user reactant ∈
      ((before.site (hostOf sender trail)).state.running.plexus.ganglion
        .own).reactantsOf neuron.name →
    invocations before later (hostOf sender trail) reactant trail +
        outstanding before later sender .own trail =
      income before later .own trail

variable {fabric : Fabric H δ η} {before mesh next : Mesh H δ η}
  {sender host : H} {neuron : Neuron} {data : δ} {payload : η}

section Added

variable {index : Nat} {call : Call δ η × List (Port H)} {parent : Option Nat}
  {flight : List (Packet H η)}

theorem newCalls_ran
    (longer : (before.site host).entries.length ≤
      (mesh.site host).entries.length)
    (ready : (mesh.site host).entries[index]? = some ⟨call, parent, .ready⟩)
    (other : H) :
    newCalls before (mesh.update host ((fabric.program host).ran
        (mesh.site host) index ⟨call, parent, .ready⟩) flight) other =
      newCalls before mesh other ++ if other = host then
        ((fabric.program host).run call (mesh.site host).state).1.calls
      else [] := by
  by_cases same : other = host
  · subst same
    rw [newCalls, update_site_self, calls_ran ready, if_pos rfl,
      List.drop_append_of_le_length (longer.trans (length_calls _).ge)]
    rfl
  · rw [newCalls, update_site_ne _ same, if_neg same, List.append_nil]
    rfl

theorem newCalls_enter
    (longer : (before.site host).entries.length ≤
      (mesh.site host).entries.length) (call : Call δ η × List (Port H))
    (other : H) :
    newCalls before (mesh.update host ((mesh.site host).enter call) flight)
        other =
      newCalls before mesh other ++ if other = host then [call] else [] := by
  by_cases same : other = host
  · subst same
    rw [newCalls, update_site_self, calls_enter, if_pos rfl,
      List.drop_append_of_le_length (longer.trans (length_calls _).ge)]
    rfl
  · rw [newCalls, update_site_ne _ same, if_neg same, List.append_nil]
    rfl

theorem newCalls_setStatus {status : Status PlexoError}
    (waiting : (mesh.site host).entries[index]? =
      some ⟨call, parent, .waiting⟩) (other : H) :
    newCalls before (mesh.update host ((mesh.site host).setStatus index
        ⟨call, parent, .waiting⟩ status) flight) other =
      newCalls before mesh other := by
  by_cases same : other = host
  · subst same
    rw [newCalls, update_site_self, Table.calls_setStatus waiting]
    rfl
  · rw [newCalls, update_site_ne _ same]
    rfl

theorem income_congr {trail : List (Port H)}
    (same : ∀ port rest, trail = port :: rest →
      arrivals before next port rest = arrivals before mesh port rest)
    (target : GanglionId) :
    income before next target trail = income before mesh target trail := by
  cases trail with
  | nil => rfl
  | cons port rest => rw [income, income, same port rest rfl]

end Added

section Runs

variable {index : Nat} {call : Call δ η × List (Port H)} {parent : Option Nat}
  {flight : List (Packet H η)} {trail : List (Port H)} {target : GanglionId}

theorem arrivals_ran
    (longer : (before.site host).entries.length ≤
      (mesh.site host).entries.length)
    (ready : (mesh.site host).entries[index]? = some ⟨call, parent, .ready⟩)
    (port : Port H) (trail : List (Port H)) :
    arrivals before (mesh.update host ((fabric.program host).ran
        (mesh.site host) index ⟨call, parent, .ready⟩) flight) port trail =
      arrivals before mesh port trail := by
  rw [arrivals, newCalls_ran longer ready, List.countP_append]
  apply Nat.add_eq_left.mpr
  apply List.countP_eq_zero.mpr
  intro child member
  split at member
  · simp only [Program.tagged, Outcome.calls_map] at member
    obtain ⟨made, isMade, rfl⟩ := List.mem_map.mp member
    simp [Call.arrives, Plexus.receiver?_of_made isMade]
  · cases member

section Proper

variable (carrying : Carrying fabric before neuron data payload)
  (same : (mesh.site host).state.running.plexus =
    (before.site host).state.running.plexus)
  (proper : (before.site host).state.running.plexus.Proper
    (fabric.environment host) neuron.name ⟨data, some payload⟩
    (originOf call.2) (mesh.site host).state.reactions call.1)
  (home : hostOf sender call.2 = host)
  (isReady : (mesh.site host).entries[index]? = some ⟨call, parent, .ready⟩)

include carrying same proper

omit [DecidableEq H] in
theorem of_mem_packets {packet : Packet H η}
    (sent : packet ∈ fabric.packets host (mesh.site host).state call) :
    packet.data = payload ∧ packet.neuron.name = neuron.name := by
  obtain ⟨first, ready⟩ := carrying.ready.plexuses host
  have named := (Plexus.mem_of_registered ready.registered).2
  rw [← named] at proper
  rw [Fabric.packets, same] at sent
  rcases proper.sent?_cases (named ▸ carrying.conveys host) rfl with
    ⟨nothing, _⟩ | ⟨ganglion, synapse, sends, isNamed, _⟩
  · rw [nothing] at sent
    cases sent
  · rw [sends] at sent
    obtain ⟨port, _, rfl⟩ := List.mem_map.mp sent
    exact ⟨rfl, isNamed.trans named⟩

include home

theorem countP_packets {port : Port H}
    (hears : port ∈ fabric.layout ⟨hostOf sender trail, target⟩) :
    (fabric.packets host (mesh.site host).state call).countP
        (fun packet => packet.port = port && packet.trail = trail) =
      if call.2 = trail then call.1.ends target else 0 := by
  obtain ⟨first, ready⟩ := carrying.ready.plexuses host
  have named := (Plexus.mem_of_registered ready.registered).2
  rw [← named] at proper
  have conveys := named ▸ carrying.conveys host
  have external := (carrying.ready.links _ _ hears).1.2
  rw [Fabric.packets, same]
  rcases proper.sent?_cases conveys rfl with
    ⟨nothing, never⟩ | ⟨ganglion, synapse, sent, _, ends⟩
  · rw [nothing, List.countP_nil]
    split
    · next this =>
        subst this
        rw [home] at external
        exact (never target external).symm
    · rfl
  · rw [sent, List.countP_map]
    split
    · next this =>
        subst this
        rw [home] at hears
        rw [ends]
        have onLink : (fabric.layout ⟨host, ganglion⟩).countP
            (· = port) = if ganglion = target then 1 else 0 := by
          split
          · next here =>
              subst here
              exact List.count_eq_one_of_mem (carrying.simple.nodup _) hears
          · next elsewhere =>
              apply List.count_eq_zero_of_not_mem
              intro member
              exact elsewhere (carrying.simple.apart member hears)
        rw [← onLink]
        apply List.countP_congr
        intro other _
        simp
    · next other =>
        apply List.countP_eq_zero.mpr
        intro packet _
        simp [other]

include isReady

theorem outstanding_ran
    (isTarget : target ∈ (before.site (hostOf sender
      trail)).state.running.plexus.ganglia) :
    outstanding before (mesh.update host ((fabric.program host).ran
        (mesh.site host) index ⟨call, parent, .ready⟩) flight) sender target
          trail + (if call.2 = trail then call.1.ends target else 0) =
      outstanding before mesh sender target trail := by
  by_cases here : hostOf sender trail = host
  · subst here
    obtain ⟨first, ready⟩ := carrying.ready.plexuses (hostOf sender trail)
    have named := (Plexus.mem_of_registered ready.registered).2
    rw [← named] at proper
    have ledger := due_ran_tagged
      (Traffic.program (fabric.plexus (hostOf sender trail))
        (fabric.environment (hostOf sender trail)))
      ((before.site (hostOf sender trail)).state.running.plexus.worth
        (originOf trail) target) trail isReady
    simp only [outstanding, update_site_self, Fabric.program]
    by_cases this : call.2 = trail
    · have balance := proper.balance ready (carrying.benign.coroutines _)
        (carrying.plain _) isTarget
      rw [this, ← same] at balance
      rw [if_pos this, ← same] at ledger ⊢
      rw [if_pos this] at ledger
      simp only [Traffic.program_run] at ledger
      omega
    · rw [if_neg this] at ledger ⊢
      rw [if_neg this] at ledger
      exact ledger
  · have other : call.2 ≠ trail := by
      rintro rfl
      exact here home
    rw [outstanding, update_site_ne _ here, if_neg other]
    rfl

theorem invocations_ran
    (longer : (before.site host).entries.length ≤
      (mesh.site host).entries.length) {reactant : ReactantId}
    (attached : .user reactant ∈ ((before.site (hostOf sender
      trail)).state.running.plexus.ganglion .own).reactantsOf neuron.name) :
    invocations before (mesh.update host ((fabric.program host).ran
        (mesh.site host) index ⟨call, parent, .ready⟩) flight)
          (hostOf sender trail) reactant trail =
      invocations before mesh (hostOf sender trail) reactant trail +
        if call.2 = trail then call.1.ends .own else 0 := by
  rw [invocations, newCalls_ran longer isReady, List.countP_append]
  congr 1
  by_cases this : call.2 = trail
  · subst this
    rw [home] at attached
    obtain ⟨first, ready⟩ := carrying.ready.plexuses host
    obtain ⟨known, named⟩ := Plexus.mem_of_registered ready.registered
    rw [← named] at proper attached
    rw [if_pos home, if_pos rfl,
      ← proper.countP_invokes ready.settled known
        (carrying.benign.coroutines host) attached, ← same]
    simp only [Program.tagged, Outcome.calls_map, List.countP_map,
      Traffic.program_run]
    apply List.countP_congr
    intro child _
    simp
  · rw [if_neg this]
    apply List.countP_eq_zero.mpr
    intro child member
    split at member
    · simp only [Program.tagged, Outcome.calls_map] at member
      obtain ⟨made, _, rfl⟩ := List.mem_map.mp member
      simp [this]
    · cases member

end Proper

section Balanced

variable (balanced : Balanced fabric before sender neuron data payload mesh)
  (carrying : Carrying fabric before neuron data payload)
  (same : ∀ other, (mesh.site other).state.running.plexus =
    (before.site other).state.running.plexus)
  (longer : (before.site host).entries.length ≤
    (mesh.site host).entries.length)
  (isReady : (mesh.site host).entries[index]? = some ⟨call, parent, .ready⟩)
  (called : call ∈ newCalls before mesh host)

include balanced

theorem Balanced.way_packets (traceable : Traceable fabric mesh)
    (called : call ∈ newCalls before mesh host) {packet : Packet H η}
    (sent : packet ∈ fabric.packets host (mesh.site host).state call) :
    fabric.layout.Way sender (packet.port :: packet.trail) := by
  obtain ⟨home, way⟩ := balanced.ways host call called
  obtain ⟨ganglion, _, _, hears, sameTrail⟩ := Fabric.mem_packets sent
  obtain ⟨_, goes⟩ := traceable.packet (List.mem_of_mem_drop called) sent
  rw [sameTrail] at goes ⊢
  rcases way with isRoot | way
  · rw [isRoot] at home ⊢
    obtain rfl : sender = host := home
    exact .link hears
  · cases isTrail : call.2 with
    | nil =>
        rw [isTrail] at way
        cases way
    | cons port trail =>
        rw [isTrail] at way goes
        exact .hop way (List.isChain_cons_cons.mp goes).1

include carrying same longer isReady called

theorem Balanced.proper_ran (other : H) (child : Call δ η × List (Port H))
    (member : child ∈ newCalls before (mesh.update host
      ((fabric.program host).ran (mesh.site host) index
        ⟨call, parent, .ready⟩) flight) other) :
    (before.site other).state.running.plexus.Proper (fabric.environment other)
      neuron.name ⟨data, some payload⟩ (originOf child.2)
      ((mesh.update host ((fabric.program host).ran (mesh.site host) index
        ⟨call, parent, .ready⟩) flight).site other).state.reactions child.1 := by
  have proper := balanced.proper host call called
  obtain ⟨first, ready⟩ := carrying.ready.plexuses host
  obtain ⟨known, named⟩ := Plexus.mem_of_registered ready.registered
  rw [newCalls_ran longer isReady] at member
  by_cases here : other = host
  · subst here
    have after : ((fabric.program other).ran (mesh.site other) index
        ⟨call, parent, .ready⟩).state.reactions =
        ((before.site other).state.running.plexus.run
          (fabric.environment other) call.1
            (mesh.site other).state.reactions).2 := by
      rw [← same other]
      rfl
    rw [update_site_self, after]
    rw [← named] at proper ⊢
    rcases List.mem_append.mp member with old | new
    · have stays := balanced.proper other child old
      rw [← named] at stays
      exact proper.stays ready.settled known (carrying.plain other) stays
    · rw [if_pos rfl] at new
      simp only [Program.tagged, Outcome.calls_map] at new
      obtain ⟨made, isMade, rfl⟩ := List.mem_map.mp new
      rw [Traffic.program_run, same] at isMade
      exact proper.starts ready.settled known (carrying.plain other)
        (carrying.homed other) isMade
  · rw [if_neg here, List.append_nil] at member
    rw [update_site_ne _ here]
    exact balanced.proper other child member

theorem Balanced.ran (traceable : Traceable fabric mesh) :
    Balanced fabric before sender neuron data payload
      (mesh.update host ((fabric.program host).ran (mesh.site host) index
          ⟨call, parent, .ready⟩)
        (mesh.flight ++ fabric.packets host (mesh.site host).state call)) := by
  have proper := balanced.proper host call called
  obtain ⟨home, way⟩ := balanced.ways host call called
  have arrived := @arrivals_ran _ _ _ _ fabric before mesh host index call
    parent (mesh.flight ++ fabric.packets host (mesh.site host).state call)
    longer isReady
  have due := fun trail target => @outstanding_ran _ _ _ _ fabric before mesh
    sender host neuron data payload index call parent (mesh.flight ++
      fabric.packets host (mesh.site host).state call) trail target carrying
        (same host) proper home isReady
  constructor
  · exact balanced.proper_ran carrying same longer isReady called
  · intro other child member
    rw [newCalls_ran longer isReady] at member
    rcases List.mem_append.mp member with old | new
    · exact balanced.ways other child old
    · split at new
      · next here =>
          subst here
          simp only [Program.tagged, Outcome.calls_map] at new
          obtain ⟨made, _, rfl⟩ := List.mem_map.mp new
          exact ⟨home, way⟩
      · cases new
  · intro packet member
    rcases List.mem_append.mp member with old | new
    · exact balanced.flight packet old
    · obtain ⟨isPayload, isNamed⟩ :=
        of_mem_packets carrying (same host) proper new
      exact ⟨isPayload, isNamed, balanced.way_packets traceable called new⟩
  · intro trail target port hears
    have sent := balanced.sent trail target port hears
    have flights : (mesh.flight ++ fabric.packets host
        (mesh.site host).state call).countP
          (fun packet => packet.port = port && packet.trail = trail) = _ :=
      List.countP_append
    rw [countP_packets carrying (same host) proper home hears] at flights
    rw [income_congr fun port rest _ => arrived port rest, arrived, ← sent,
      ← due trail target (carrying.ready.links _ _ hears).1.1, Mesh.flights,
      Mesh.flights, update_flight, flights]
    omega
  · intro trail reactant attached
    have invoked := balanced.invoked trail reactant attached
    obtain ⟨first, ready⟩ := carrying.ready.plexuses (hostOf sender trail)
    have inside := List.mem_append_left
      (before.site (hostOf sender trail)).state.running.plexus.externalGanglia
      ready.settled.placed.own
    rw [income_congr fun port rest _ => arrived port rest, ← invoked,
      ← due trail .own inside, invocations_ran carrying (same host) proper home
        isReady longer attached]
    omega

end Balanced

theorem Balanced.settled {status : Status PlexoError}
    (balanced : Balanced fabric before sender neuron data payload mesh)
    (waiting : (mesh.site host).entries[index]? =
      some ⟨call, parent, .waiting⟩) (ended : status.isReady = false) :
    Balanced fabric before sender neuron data payload
      (mesh.update host ((mesh.site host).setStatus index
        ⟨call, parent, .waiting⟩ status) mesh.flight) := by
  have calls := @newCalls_setStatus _ _ _ _ before mesh host index call parent
    mesh.flight status waiting
  have arrived : ∀ port trail, arrivals before (mesh.update host
      ((mesh.site host).setStatus index ⟨call, parent, .waiting⟩ status)
        mesh.flight) port trail = arrivals before mesh port trail := by
    intro port trail
    rw [arrivals, calls]
    rfl
  have due : ∀ target trail, outstanding before (mesh.update host
      ((mesh.site host).setStatus index ⟨call, parent, .waiting⟩ status)
        mesh.flight) sender target trail =
      outstanding before mesh sender target trail := by
    intro target trail
    by_cases here : hostOf sender trail = host
    · subst here
      rw [outstanding, update_site_self, due_setStatus waiting ended]
      rfl
    · rw [outstanding, update_site_ne _ here]
      rfl
  constructor
  · intro other child member
    rw [calls] at member
    have proper := balanced.proper other child member
    by_cases here : other = host
    · subst here
      rw [update_site_self]
      exact proper
    · rw [update_site_ne _ here]
      exact proper
  · intro other child member
    rw [calls] at member
    exact balanced.ways other child member
  · exact balanced.flight
  · intro trail target port hears
    rw [arrived, due, income_congr fun port rest _ => arrived port rest]
    exact balanced.sent trail target port hears
  · intro trail reactant attached
    rw [due, income_congr fun port rest _ => arrived port rest, invocations,
      calls]
    exact balanced.invoked trail reactant attached

end Runs

section Hears

variable {index : Nat} {packet : Packet H η} {call : Call δ η}
  {synapse : SynapseId} {flight : List (Packet H η)}

theorem flights_eraseIdx (found : mesh.flight[index]? = some packet)
    (port : Port H) (trail : List (Port H)) :
    (mesh.flight.eraseIdx index).countP (fun packet =>
        packet.port = port && packet.trail = trail) +
        (if packet.port = port ∧ packet.trail = trail then 1 else 0) =
      mesh.flights port trail := by
  obtain ⟨bound, rfl⟩ := List.getElem?_eq_some_iff.mp found
  rw [flights, ← (List.getElem_cons_eraseIdx_perm bound).countP_eq,
    List.countP_cons]
  simp

theorem arrivals_enter
    (longer : (before.site packet.port.host).entries.length ≤
      (mesh.site packet.port.host).entries.length) (payload : η)
    (port : Port H) (trail : List (Port H)) :
    arrivals before (mesh.update packet.port.host
        ((mesh.site packet.port.host).enter (.transduce packet.port.ganglion
          synapse payload none, packet.port :: packet.trail)) flight) port
            trail =
      arrivals before mesh port trail +
        if packet.port = port ∧ packet.trail = trail then 1 else 0 := by
  rw [arrivals, newCalls_enter longer, List.countP_append]
  congr 1
  by_cases here : packet.port = port
  · subst here
    rw [if_pos rfl, List.countP_singleton]
    simp [Call.arrives, Call.receiver?]
  · have other : ¬ (packet.port = port ∧ packet.trail = trail) :=
      fun both => here both.1
    rw [if_neg other]
    apply List.countP_eq_zero.mpr
    intro call member
    split at member
    · rw [List.mem_singleton.mp member]
      simp [here]
    · cases member

theorem outstanding_enter (before : Mesh H δ η) (call : Call δ η)
    (sender : H) (target : GanglionId) (trail : List (Port H)) :
    outstanding before (mesh.update packet.port.host
        ((mesh.site packet.port.host).enter
          (call, packet.port :: packet.trail)) flight) sender target trail =
      outstanding before mesh sender target trail +
        if packet.port :: packet.trail = trail then
          (before.site packet.port.host).state.running.plexus.worth
            packet.port.ganglion target call
        else 0 := by
  by_cases here : hostOf sender trail = packet.port.host
  · rw [outstanding, here, update_site_self, due_enter, outstanding, here,
      worthOf]
    congr 1
    split
    · next this =>
        subst this
        rfl
    · rfl
  · have other : packet.port :: packet.trail ≠ trail := by
      rintro rfl
      exact here rfl
    rw [outstanding, update_site_ne _ here, if_neg other]
    rfl

theorem income_enter
    (longer : (before.site packet.port.host).entries.length ≤
      (mesh.site packet.port.host).entries.length) (payload : η)
    (target : GanglionId) (trail : List (Port H)) :
    income before (mesh.update packet.port.host
        ((mesh.site packet.port.host).enter (.transduce packet.port.ganglion
          synapse payload none, packet.port :: packet.trail)) flight) target
            trail =
      income before mesh target trail +
        if packet.port :: packet.trail = trail then
          Plexus.onward packet.port.ganglion target packet.port.ganglion
            (before.site packet.port.host).state.running.plexus.ganglia
        else 0 := by
  cases trail with
  | nil => rfl
  | cons port trail =>
      rw [income, income, arrivals_enter longer, Nat.mul_add]
      congr 1
      by_cases this : packet.port = port ∧ packet.trail = trail
      · obtain ⟨rfl, rfl⟩ := this
        rw [if_pos ⟨rfl, rfl⟩, if_pos rfl, Nat.mul_one]
      · have other : packet.port :: packet.trail ≠ port :: trail :=
          fun same => this (List.cons.inj same)
        rw [if_neg this, if_neg other, Nat.mul_zero]

omit [DecidableEq H] in
theorem Carrying.proper_received
    (carrying : Carrying fabric before neuron data payload) {port : Port H}
    (isExternal : before.IsExternal port)
    (known : ((before.site port.host).state.running.plexus.ganglion
      port.ganglion).base.synapses neuron.name = some synapse)
    (reactions : Reactions) :
    (before.site port.host).state.running.plexus.Proper
      (fabric.environment port.host) neuron.name ⟨data, some payload⟩
      port.ganglion reactions
      (.transduce port.ganglion synapse payload none) := by
  have isHere := (((before.site port.host).state.running.plexus.ganglion
    port.ganglion).connected.named known).2
  constructor
  · exact ⟨rfl, isExternal.1, known, isExternal.2, rfl⟩
  · exact ⟨rfl, (carrying.conveys port.host).decodes _ isHere⟩
  · rintro _ _ _ _ ⟨⟩
  · rintro _ ⟨⟩
  · rintro _ ⟨⟩

theorem Balanced.heard
    (balanced : Balanced fabric before sender neuron data payload mesh)
    (carrying : Carrying fabric before neuron data payload)
    (same : ∀ other, (mesh.site other).state.running.plexus =
      (before.site other).state.running.plexus)
    (longer : ∀ other, (before.site other).entries.length ≤
      (mesh.site other).entries.length)
    (found : mesh.flight[index]? = some packet)
    (entered : mesh.firstCall packet = some call) :
    Balanced fabric before sender neuron data payload
      (mesh.update packet.port.host ((mesh.site packet.port.host).enter
        (call, packet.port :: packet.trail)) (mesh.flight.eraseIdx index)) := by
  obtain ⟨isPayload, isNamed, way⟩ :=
    balanced.flight packet (List.mem_of_getElem? found)
  obtain ⟨_, hears⟩ := way.exists_link
  have isExternal := (carrying.ready.links _ _ hears).2
  obtain ⟨_, synapse, known, rfl⟩ := firstCall_cases entered
  rw [isNamed, same] at known
  rw [isPayload]
  have arrived := fun port trail => @arrivals_enter _ _ _ _ before mesh packet
    synapse (mesh.flight.eraseIdx index) (longer _) payload port trail
  have due := fun target trail => @outstanding_enter _ _ _ _ mesh packet
    (mesh.flight.eraseIdx index) before
    (.transduce packet.port.ganglion synapse payload none) sender target trail
  have comes := fun target trail => @income_enter _ _ _ _ before mesh packet
    synapse (mesh.flight.eraseIdx index) (longer _) payload target trail
  constructor
  · intro other child member
    rw [newCalls_enter (longer _)] at member
    by_cases here : other = packet.port.host
    · subst here
      rw [update_site_self]
      rcases List.mem_append.mp member with old | new
      · exact balanced.proper _ child old
      · rw [if_pos rfl] at new
        rw [List.mem_singleton.mp new]
        exact carrying.proper_received isExternal known _
    · rw [if_neg here, List.append_nil] at member
      rw [update_site_ne _ here]
      exact balanced.proper other child member
  · intro other child member
    rw [newCalls_enter (longer _)] at member
    rcases List.mem_append.mp member with old | new
    · exact balanced.ways other child old
    · split at new
      · next here =>
          rw [List.mem_singleton.mp new, here]
          exact ⟨rfl, .inr way⟩
      · cases new
  · intro other member
    exact balanced.flight other (List.mem_of_mem_eraseIdx member)
  · intro trail target port hears
    have sent := balanced.sent trail target port hears
    have flights := flights_eraseIdx found port trail
    rw [arrived, due, comes, Mesh.flights, update_flight, ← sent, ← flights]
    simp only [Plexus.worth]
    omega
  · intro trail reactant attached
    have invoked := balanced.invoked trail reactant attached
    rw [due, comes, ← invoked, invocations, newCalls_enter (longer _),
      List.countP_append]
    have none : (if hostOf sender trail = packet.port.host then
        [((.transduce packet.port.ganglion synapse payload none : Call δ η),
          packet.port :: packet.trail)] else []).countP (fun call =>
            call.1.invokes reactant && call.2 = trail) = 0 := by
      apply List.countP_eq_zero.mpr
      intro child member
      split at member
      · rw [List.mem_singleton.mp member]
        simp [Call.invokes]
      · cases member
    rw [none]
    simp only [Plexus.worth, invocations]
    omega

end Hears

theorem Balanced.progress
    (balanced : Balanced fabric before sender neuron data payload mesh)
    (carrying : Carrying fabric before neuron data payload)
    (spread : Spread fabric before sender mesh)
    (same : ∀ other, (mesh.site other).state.running.plexus =
      (before.site other).state.running.plexus)
    (traceable : Traceable fabric mesh)
    (progress : Progress fabric mesh next) :
    Balanced fabric before sender neuron data payload next := by
  cases progress with
  | run isReady =>
      exact balanced.ran carrying same (spread.longer _) isReady
        (spread.new isReady).2 traceable
  | settle waiting ended => exact balanced.settled waiting ended
  | heard found entered =>
      exact balanced.heard carrying same spread.longer found entered
  | @unheard index packet found unknown =>
      obtain ⟨_, isNamed, way⟩ :=
        balanced.flight packet (List.mem_of_getElem? found)
      obtain ⟨_, hears⟩ := way.exists_link
      obtain ⟨_, _, entered⟩ := (carrying.ready.congr same).exists_firstCall
        (((carrying.ready.congr same).links _ _ hears).2) isNamed
      rw [unknown] at entered
      cases entered

section Ends

variable {steps later : List (Mesh H δ η × Action H δ η)}
  {finish : Mesh H δ η} {trail : List (Port H)} {target : GanglionId}

theorem Quiet.outstanding (quiet : Quiet fabric finish) (before : Mesh H δ η)
    (sender : H) (target : GanglionId) (trail : List (Port H)) :
    outstanding before finish sender target trail = 0 :=
  due_eq_zero (quiet.final _).not_ready

section Starts

variable (transmits : Transmits fabric mesh sender data neuron next)

include transmits

theorem newCalls_start (other : H) :
    newCalls mesh next other =
      if other = sender then [(.transmit .own data neuron none, [])] else [] := by
  rw [transmits.eq, newCalls_enter le_rfl, newCalls,
    List.drop_of_length_le (length_calls _).le, List.nil_append]

theorem arrivals_start (port : Port H) (trail : List (Port H)) :
    arrivals mesh next port trail = 0 := by
  rw [arrivals, newCalls_start transmits]
  split <;> simp [Call.arrives, Call.receiver?]

theorem income_start (target : GanglionId) (trail : List (Port H)) :
    income mesh next target trail = if trail = [] then 1 else 0 := by
  cases trail with
  | nil => rfl
  | cons port trail =>
      rw [income, arrivals_start transmits, Nat.mul_zero,
        if_neg (List.cons_ne_nil _ _)]

theorem outstanding_start (quiet : Quiet fabric mesh) (target : GanglionId)
    (trail : List (Port H)) :
    outstanding mesh next sender target trail =
      if trail = [] then 1 else 0 := by
  have nothing := quiet.outstanding mesh sender target trail
  rw [transmits.eq]
  by_cases here : hostOf sender trail = sender
  · rw [outstanding, here] at nothing
    rw [outstanding, here, update_site_self, due_enter, nothing, worthOf,
      Nat.zero_add]
    by_cases this : trail = []
    · subst this
      rw [if_pos rfl, if_pos rfl]
      simp only [Plexus.worth, Plexus.passing, originOf]
      by_cases isOwn : target = .own
      · simp [isOwn]
      · simp [isOwn, Ne.symm isOwn]
    · rw [if_neg fun same => this same.symm, if_neg this]
  · have other : trail ≠ [] := by
      rintro rfl
      exact here rfl
    rw [if_neg other, outstanding, update_site_ne _ here]
    exact nothing

theorem balanced_start (carrying : Carrying fabric mesh neuron data payload)
    (quiet : Quiet fabric mesh) (empty : next.flight = []) :
    Balanced fabric mesh sender neuron data payload next := by
  constructor
  · intro other call member
    rw [newCalls_start transmits] at member
    split at member
    · next here =>
        subst here
        rw [List.mem_singleton.mp member]
        obtain ⟨first, ready⟩ := carrying.ready.plexuses other
        constructor
        · exact ⟨List.mem_append_left _ ready.settled.placed.own, rfl, rfl⟩
        · rfl
        · rintro _ _ _ _ ⟨⟩
        · rintro _ ⟨⟩
        · rintro _ ⟨⟩
    · cases member
  · intro other call member
    rw [newCalls_start transmits] at member
    split at member
    · next here =>
        rw [List.mem_singleton.mp member, here]
        exact ⟨rfl, .inl rfl⟩
    · cases member
  · intro packet member
    rw [empty] at member
    cases member
  · intro trail target port _
    rw [arrivals_start transmits, outstanding_start transmits quiet,
      income_start transmits, flights, empty, List.countP_nil, Nat.zero_add]
  · intro trail reactant _
    rw [outstanding_start transmits quiet, income_start transmits, invocations,
      newCalls_start transmits]
    split <;> simp [Call.invokes]

end Starts

omit [DecidableEq H] in
theorem Carrying.own_ne (carrying : Carrying fabric before neuron data payload)
    {port : Port H} (external : before.IsExternal port) :
    GanglionId.own ≠ port.ganglion := by
  obtain ⟨first, ready⟩ := carrying.ready.plexuses port.host
  intro same
  apply external.2
  rw [← same]
  exact ready.settled.placed.ownClass

omit [DecidableEq H] in
/-- A received message comes twice to every other external ganglion, and once to
the plexus's own one. -/
theorem onward_eq (carrying : Carrying fabric before neuron data payload)
    {port : Port H} (external : before.IsExternal port)
    (isTarget : target ∈
      (before.site port.host).state.running.plexus.ganglia)
    (different : target ≠ port.ganglion) :
    Plexus.onward port.ganglion target port.ganglion
        (before.site port.host).state.running.plexus.ganglia =
      if target = .own then 1 else 2 := by
  obtain ⟨first, ready⟩ := carrying.ready.plexuses port.host
  have notOwn := carrying.own_ne external
  rw [Plexus.onward_ganglia ready.settled.placed isTarget]
  by_cases isOwn : target = .own
  · simp [isOwn, notOwn]
  · simp [isOwn, notOwn, different]

/-- With every plexus on its way, the copies of a message double. -/
theorem Balanced.arrivals_eq
    (balanced : Balanced fabric before sender neuron data payload finish)
    (carrying : Carrying fabric before neuron data payload)
    (ended : Quiet fabric finish) (landed : finish.flight = [])
    {port : Port H} {trail : List (Port H)}
    (way : fabric.layout.Way sender (port :: trail)) :
    arrivals before finish port trail = 2 ^ trail.length := by
  induction trail generalizing port with
  | nil =>
      cases way with
      | link hears =>
          have sent := balanced.sent [] _ port hears
          rw [ended.outstanding, flights, landed, List.countP_nil] at sent
          simpa [income] using sent
  | cons last trail induction =>
      cases way with
      | hop way hop =>
          obtain ⟨target, different, hears⟩ := hop
          have sent := balanced.sent (last :: trail) target port hears
          obtain ⟨_, linked⟩ := way.exists_link
          have external := (carrying.ready.links _ _ hears).1
          rw [ended.outstanding, flights, landed, List.countP_nil, income,
            onward_eq carrying (carrying.ready.links _ _ linked).2 external.1
              different, if_neg (carrying.own_ne external).symm,
            induction way] at sent
          rw [List.length_cons, Nat.pow_succ]
          omega

theorem Balanced.invocations_eq
    (balanced : Balanced fabric before sender neuron data payload finish)
    (carrying : Carrying fabric before neuron data payload)
    (ended : Quiet fabric finish) (landed : finish.flight = [])
    (way : trail = [] ∨ fabric.layout.Way sender trail)
    {reactant : ReactantId}
    (attached : .user reactant ∈ ((before.site (hostOf sender
      trail)).state.running.plexus.ganglion .own).reactantsOf neuron.name) :
    invocations before finish (hostOf sender trail) reactant trail =
      2 ^ (trail.length - 1) := by
  have invoked := balanced.invoked trail reactant attached
  rw [ended.outstanding, Nat.add_zero] at invoked
  rw [invoked]
  cases trail with
  | nil => rfl
  | cons port trail =>
      have goes := way.resolve_left (List.cons_ne_nil _ _)
      obtain ⟨_, linked⟩ := goes.exists_link
      have external := (carrying.ready.links _ _ linked).2
      obtain ⟨first, ready⟩ := carrying.ready.plexuses port.host
      rw [income, onward_eq carrying external
        (List.mem_append_left _ ready.settled.placed.own)
        (carrying.own_ne external), if_pos rfl, Nat.one_mul,
        balanced.arrivals_eq carrying ended landed goes]
      rfl

/-- The trails of the calls at a host are the ways that lead there. -/
theorem Balanced.exists_ways
    (balanced : Balanced fabric before sender neuron data payload finish)
    (carrying : Carrying fabric before neuron data payload)
    (ended : Quiet fabric finish) (landed : finish.flight = []) (host : H) :
    ∃ ways : Finset (List (Port H)),
      (∀ trail, trail ∈ ways ↔
        fabric.layout.Way sender trail ∧ hostOf sender trail = host) ∧
      ∀ call ∈ newCalls before finish host, call.2 ∈ insert [] ways := by
  refine ⟨((newCalls before finish host).map (·.2)).toFinset.erase [], ?_, ?_⟩
  · intro trail
    simp only [Finset.mem_erase, List.mem_toFinset]
    constructor
    · rintro ⟨notRoot, member⟩
      obtain ⟨call, called, rfl⟩ := List.mem_map.mp member
      obtain ⟨home, way⟩ := balanced.ways host call called
      exact ⟨way.resolve_left notRoot, home⟩
    · rintro ⟨way, home⟩
      cases trail with
      | nil => cases way
      | cons port trail =>
          refine ⟨List.cons_ne_nil _ _, ?_⟩
          subst home
          have some : 0 < arrivals before finish port trail := by
            rw [balanced.arrivals_eq carrying ended landed way]
            exact Nat.two_pow_pos _
          obtain ⟨call, called, arrives⟩ := List.countP_pos_iff.mp some
          have sameTrail :=
            of_decide_eq_true (Bool.and_eq_true_iff.mp arrives).2
          exact List.mem_map.mpr ⟨call, called, sameTrail⟩
  · intro call called
    rw [Finset.mem_insert, Finset.mem_erase, List.mem_toFinset]
    by_cases isRoot : call.2 = []
    · exact .inl isRoot
    · exact .inr ⟨isRoot, List.mem_map_of_mem called⟩

theorem Balanced.arrivals_eq_zero
    (balanced : Balanced fabric before sender neuron data payload finish)
    {port : Port H} {trail : List (Port H)}
    (noWay : ¬ fabric.layout.Way sender (port :: trail)) :
    arrivals before finish port trail = 0 := by
  apply List.countP_eq_zero.mpr
  intro call called arrives
  have sameTrail := of_decide_eq_true (Bool.and_eq_true_iff.mp arrives).2
  rcases (balanced.ways port.host call called).2 with isRoot | way
  · rw [sameTrail] at isRoot
    cases isRoot
  · exact noWay (sameTrail ▸ way)

/-- Way by way, what a reactant of a user has been run for. -/
theorem Balanced.runs_eq
    (balanced : Balanced fabric before sender neuron data payload finish)
    (carrying : Carrying fabric before neuron data payload)
    (ended : Quiet fabric finish) (landed : finish.flight = [])
    {reactant : ReactantId} (attached : .user reactant ∈
      ((before.site host).state.running.plexus.ganglion
        .own).reactantsOf neuron.name) {ways : Finset (List (Port H))}
    (isWay : ∀ trail, trail ∈ ways ↔
      fabric.layout.Way sender trail ∧ hostOf sender trail = host)
    (tagged : ∀ call ∈ newCalls before finish host, call.2 ∈ insert [] ways) :
    runs before finish host reactant =
      (if host = sender then 1 else 0) +
        ∑ trail ∈ ways, 2 ^ (trail.length - 1) := by
  have noRoot : [] ∉ ways := by
    intro member
    cases ((isWay []).mp member).1
  rw [runs, countP_eq_sum_tags tagged, Finset.sum_insert noRoot]
  congr 1
  · split
    · next here =>
        subst here
        exact @Balanced.invocations_eq _ _ _ _ _ _ _ _ _ _ _ [] balanced
          carrying ended landed (.inl rfl) _ attached
    · next there =>
        apply List.countP_eq_zero.mpr
        intro call called isRoot
        have home := (balanced.ways host call called).1
        rw [of_decide_eq_true (Bool.and_eq_true_iff.mp isRoot).2] at home
        exact there home.symm
  · apply Finset.sum_congr rfl
    intro trail member
    obtain ⟨way, home⟩ := (isWay trail).mp member
    subst home
    exact balanced.invocations_eq carrying ended landed (.inr way) attached

theorem balanced_of_path (run : RunOf fabric steps mesh)
    (carrying : Carrying fabric mesh neuron data payload)
    (quiet : Quiet fabric mesh)
    (transmits : Transmits fabric mesh host data neuron next)
    (path : Path (step fabric) next later finish)
    (kept : Along (fun _ action => action.isKept = true) later) :
    Spreading fabric mesh host data neuron payload finish ∧
      Balanced fabric mesh host neuron data payload finish := by
  apply path.invariant kept
  · refine ⟨spreading_of_path run carrying.ready carrying.benign quiet
      transmits .refl
      (by simp [Along]), ?_⟩
    have empty : next.flight = [] := by
      rw [transmits.eq, update_flight]
      exact quiet.flight_eq carrying.benign run
    exact balanced_start transmits carrying quiet empty
  · rintro state action after ⟨spreading, balanced⟩ isKept taken
    obtain ⟨_, reached⟩ := spreading.reached
    exact ⟨spreading.change carrying.ready taken isKept,
      balanced.progress carrying spreading.spread spreading.same
        (traceable_of_run reached) ((change_of_step taken).progress isKept)⟩

/-- If nothing is lost, then along every way the copies of a message double with
each plexus that passes it on, in whatever order they do; and the reactants of
users are run for each copy. -/
theorem copies_double (run : RunOf fabric steps mesh)
    (ready : Ready fabric neuron mesh) (benign : fabric.Benign)
    (plain : ∀ host, (mesh.site host).state.running.plexus.Plain)
    (simple : fabric.layout.Simple)
    (conveys : ∀ host,
      (fabric.environment host).Conveys neuron.name data payload)
    (quiet : Quiet fabric mesh)
    (transmits : Transmits fabric mesh host data neuron next)
    (path : Path (step fabric) next later finish)
    (kept : Along (fun _ action => action.isKept = true) later)
    (ended : Quiet fabric finish) :
    (∀ port trail,
      (fabric.layout.Way host (port :: trail) →
        arrivals mesh finish port trail = 2 ^ trail.length) ∧
      (¬ fabric.layout.Way host (port :: trail) →
        arrivals mesh finish port trail = 0)) ∧
    ∀ other reactant, .user reactant ∈ ((mesh.site other).state.running.plexus
        |>.ganglion .own).reactantsOf neuron.name →
      ∃ ways : Finset (List (Port H)),
        (∀ trail, trail ∈ ways ↔
          fabric.layout.Way host trail ∧ hostOf host trail = other) ∧
        runs mesh finish other reactant =
          (if other = host then 1 else 0) +
            ∑ trail ∈ ways, 2 ^ (trail.length - 1) := by
  have carrying : Carrying fabric mesh neuron data payload :=
    ⟨ready, benign, fun host => (sound_of_run run host).1, plain, simple,
      conveys⟩
  obtain ⟨spreading, balanced⟩ :=
    balanced_of_path run carrying quiet transmits path kept
  obtain ⟨_, reached⟩ := spreading.reached
  have landed := ended.flight_eq benign reached
  refine ⟨fun port trail => ⟨?_, balanced.arrivals_eq_zero⟩, ?_⟩
  · exact balanced.arrivals_eq carrying ended landed
  · intro other reactant attached
    obtain ⟨ways, isWay, tagged⟩ :=
      balanced.exists_ways carrying ended landed other
    exact ⟨ways, isWay,
      balanced.runs_eq carrying ended landed attached isWay tagged⟩

end Ends

end Mesh

def Layout.chain : Layout (Option Bool)
  | ⟨some false, .other 0⟩ => [⟨none, .other 0⟩]
  | ⟨none, .other 1⟩ => [⟨some true, .other 0⟩]
  | _ => []

theorem Layout.simple_chain : Layout.chain.Simple where
  nodup port := by
    unfold chain
    split <;> simp
  apart {host left right port} first second := by
    unfold chain at first second
    split at first
    · split at second <;> simp_all
    · split at second <;> simp_all
    · cases first

/-- The calls of a host for one message, from an index on: all of them run, and
then those end that have waited. -/
def passesOn {H : Type} (host : H) (since runs : Nat) (waits : List Nat) :
    List (Mesh.Action H Nat Nat) :=
  ((List.range runs).map fun index =>
      .act host (.pass (.run (since + index)))) ++
    waits.map fun index => .act host (.pass (.resume (since + index)))

/-- All calls for a message of the first host, one after the other. -/
def chainPasses : List (Mesh.Action (Option Bool) Nat Nat) :=
  passesOn (some false) 0 8 [5, 4, 3, 1, 0] ++ [.hear 0] ++
    passesOn none 0 10 [8, 7, 4, 3, 2, 1, 0] ++ [.hear 0] ++
    passesOn (some true) 0 10 [8, 7, 4, 3, 2, 1, 0] ++ [.hear 0] ++
    passesOn (some true) 10 10 [8, 7, 4, 3, 2, 1, 0]

/-- The third host of a row receives every message of the first one twice. -/
theorem Mesh.copies_double_chain :
    ∃ (steps later : List (Mesh (Option Bool) Nat Nat ×
        Action (Option Bool) Nat Nat))
      (mesh next finish : Mesh (Option Bool) Nat Nat),
      RunOf (sampleFabric .chain) steps mesh ∧
      Transmits (sampleFabric .chain) mesh (some false) 5 sampleNeuron next ∧
      Path (step (sampleFabric .chain)) next later finish ∧
      arrivals mesh finish ⟨some true, .other 0⟩ [⟨none, .other 0⟩] = 2 := by
  obtain ⟨mesh, run, tested⟩ := @path_of_any _ _ (step (sampleFabric .chain))
    (sampleFabric .chain).start
    (sampleAdapts (some false) [7] ++ sampleAdapts none [7] ++
      sampleAdapts (some true) [7])
    (fun mesh => decide (mesh.HasEnded ∧ ∀ host,
        (mesh.site host).state.running.IsAdapted sampleNeuron ∧
          mesh.IsExternal ⟨host, .other 0⟩ ∧
          mesh.IsExternal ⟨host, .other 1⟩ ∧
          (mesh.site host).state.running.plexus.Plain) &&
      (mesh.step (sampleFabric .chain)
        (.act (some false) (.enter (.transmit .own 5 sampleNeuron none)))).any
        fun next => (exec (step (sampleFabric .chain)) next chainPasses).any
          fun finish : Mesh (Option Bool) Nat Nat => decide finish.HasEnded)
    (by decide +kernel)
  obtain ⟨isReady, goes⟩ := Bool.and_eq_true_iff.mp tested
  obtain ⟨atRest, hosts⟩ := of_decide_eq_true isReady
  obtain ⟨next, transmits, passes⟩ := (Option.any_eq_true _ _).mp goes
  obtain ⟨finish, path, finished⟩ := path_of_any passes
  have ready : Ready (sampleFabric .chain) sampleNeuron mesh := by
    apply ready_of_run run (along_visited (by simp [Along]) (by decide))
      fun host => (hosts host).1
    intro port next hears
    simp only [sampleFabric, Layout.chain] at hears
    split at hears
    · obtain rfl := List.mem_singleton.mp hears
      exact ⟨(hosts _).2.1, (hosts _).2.1⟩
    · obtain rfl := List.mem_singleton.mp hears
      exact ⟨(hosts _).2.2.1, (hosts _).2.1⟩
    · cases hears
  have copies := copies_double run ready (benign_sample _) (fun host => (hosts host).2.2.2)
    Layout.simple_chain
    (fun _ => (⟨fun _ _ => rfl, fun _ _ => rfl, fun _ => rfl⟩ :
      sampleEnvironment.Conveys sampleNeuron.name 5 5))
    atRest.quiet transmits path (along_visited (by simp [Along]) (by decide))
    (of_decide_eq_true finished).quiet
  have linked : ⟨none, .other 0⟩ ∈ Layout.chain ⟨some false, .other 0⟩ :=
    List.mem_singleton_self _
  have way : Layout.chain.Way (some false)
      [⟨some true, .other 0⟩, ⟨none, .other 0⟩] :=
    .hop (.link linked) ⟨.other 1, by decide, List.mem_singleton_self _⟩
  exact ⟨_, _, mesh, next, finish, run, transmits, path,
    (copies.1 _ _).1 way⟩

end Plexo
