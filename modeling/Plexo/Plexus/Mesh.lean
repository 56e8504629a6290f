import Mathlib.Data.List.Chain
import Mathlib.Logic.Relation
import Plexo.Library.Leads
import Plexo.Plexus.Termination

/-!
# Plexuses that hear one another

The external ganglia of several plexuses are linked by sockets: what one of them
sends is heard by others, which pass it on in their own plexuses.  A reaction id
stays in its plexus, since only the topic and the encoded data are sent; so a
plexus cannot tell a message that comes back from a new one.

A receive loop awaits the call for the message that it has read, and ends with
an exception that it does not log.
-/

namespace Plexo

open CallTable CallTable.Program Transition

variable {H δ η : Type}

/-- A ganglion of a plexus on one of the hosts. -/
structure Port (H : Type) where
  host : H
  ganglion : GanglionId
  deriving DecidableEq

/-- The ganglia whose sockets are connected to the one that a ganglion sends
with: its peer, or its subscribers. -/
abbrev Layout (H : Type) := Port H → List (Port H)

namespace Layout

/-- What has been received at a port is heard at another one, if the plexus
passes it on. -/
def Hop (layout : Layout H) (port next : Port H) : Prop :=
  ∃ ganglion ≠ port.ganglion, next ∈ layout ⟨port.host, ganglion⟩

/-- No way through plexuses and links leads back to where it started. -/
def LoopFree (layout : Layout H) : Prop :=
  ∀ port, ¬ Relation.TransGen layout.Hop port port

/-- Ports that a message has gone through, the last one first. -/
def IsTrail (layout : Layout H) (trail : List (Port H)) : Prop :=
  trail.IsChain fun later earlier => layout.Hop earlier later

/-- Without loops, no message comes to a port twice. -/
theorem LoopFree.nodup {layout : Layout H} (loopFree : layout.LoopFree)
    {trail : List (Port H)} (isTrail : layout.IsTrail trail) : trail.Nodup := by
  have chain : trail.IsChain fun later earlier =>
      Relation.TransGen layout.Hop earlier later :=
    isTrail.imp fun _ _ hop => .single hop
  have trans : Trans (fun later earlier => Relation.TransGen layout.Hop earlier later)
      (fun later earlier => Relation.TransGen layout.Hop earlier later)
      (fun later earlier => Relation.TransGen layout.Hop earlier later) :=
    ⟨fun first second => second.trans first⟩
  apply (List.isChain_iff_pairwise.mp chain).imp
  intro later earlier reached
  rintro rfl
  exact loopFree later reached

/-- There is no loop if all hops go down. -/
theorem loopFree_of_rank {layout : Layout H} {rank : Port H → Nat}
    (lowers : ∀ port next, layout.Hop port next → rank next < rank port) :
    layout.LoopFree := by
  intro port loop
  have lower : ∀ last, Relation.TransGen layout.Hop port last →
      rank last < rank port := by
    intro last reached
    induction reached with
    | single hop => exact lowers _ _ hop
    | tail _ hop induction => exact (lowers _ _ hop).trans induction
  exact (lower port loop).false

end Layout

/-- What `_recv_loop` raises again: an `AttributeError` or a `CancelledError`. -/
def PlexoError.isRaisedAgain : PlexoError → Bool
  | .attributeError => true
  | .other className => className = "CancelledError"
  | _ => false

/-- What does not change: the plexuses as they are made, what is outside of the
repository, and the links. -/
structure Fabric (H δ η : Type) where
  outside : H → Nat → GanglionClass × Filters
  given : H → List Nat
  relevantNeurons : H → List Neuron
  ignoredNeurons : H → List Neuron
  environment : H → Environment δ η
  /-- A TCP ganglion has one receive loop for all of its synapses; the synapses of
  a multicast ganglion have their own. -/
  hasOneLoop : H → GanglionId → Bool
  /-- Whether an exception can be formatted for the log. -/
  formats : H → PlexoError → Bool
  layout : Layout H
  formatsOwn : ∀ host name, formats host (.transmitterNotFound name) = true

/-- A ganglion, and the synapse that the receive loop is for, if it is not for
all. -/
abbrev LoopId := GanglionId × Option SynapseId

/-- A message on its way to a port. -/
structure Packet (H η : Type) where
  port : Port H
  /-- The neuron of the synapse that has sent it, whose name is the topic. -/
  neuron : Neuron
  data : η
  /-- The ports that it has come through before, the last one first.  This is
  not sent; it is kept to tell where messages go. -/
  trail : List (Port H)

/-- The calls of a host, each with the ports that its message has come
through. -/
abbrev Site (H δ η : Type) := Table Traffic (Call δ η × List (Port H)) PlexoError

structure Mesh (H δ η : Type) where
  site : H → Site H δ η
  flight : List (Packet H η)
  /-- How often a receive loop has been started again. -/
  restarts : H → LoopId → Nat

namespace Call

/-- What a call hands to a socket, and the ganglion and the synapse that it
belongs to. -/
def sent? (plexus : Plexus) (environment : Environment δ η) :
    Call δ η → Option (GanglionId × SynapseId × η)
  | .transmitter ganglion bound data _ =>
      match (plexus.ganglion ganglion).cls with
      | .inproc => none
      | .external _ =>
          match environment.encode bound.encoder data with
          | .error _ => none
          | .ok encoded =>
              match environment.send ganglion encoded with
              | .error _ => none
              | .ok () => some (ganglion, bound.synapse, encoded)
  | .externalTransmitter ganglion synapse data _ =>
      match environment.send ganglion data with
      | .error _ => none
      | .ok () => some (ganglion, synapse, data)
  | _ => none

/-- The synapse that a received message is handed to. -/
def receiver? : Call δ η → Option (GanglionId × SynapseId)
  | .transduce ganglion synapse _ _ => some (ganglion, synapse)
  | _ => none

end Call

namespace Fabric

def plexus (fabric : Fabric H δ η) (host : H) : Plexus :=
  .init (fabric.outside host) (fabric.given host) (fabric.relevantNeurons host)
    (fabric.ignoredNeurons host)

/-- The calls of a host; those that users make have come through no port. -/
abbrev program (fabric : Fabric H δ η) (host : H) :
    Program Traffic (Call δ η × List (Port H)) PlexoError :=
  (Traffic.program (fabric.plexus host) (fabric.environment host)).tagged
    (List (Port H))

def loop? (fabric : Fabric H δ η) (host : H) (call : Call δ η) :
    Option LoopId :=
  call.receiver?.map fun place =>
    (place.1, if fabric.hasOneLoop host place.1 then none else some place.2)

/-- A receive loop does not go on after the exception. -/
def endsLoop (fabric : Fabric H δ η) (host : H) (error : PlexoError) : Bool :=
  error.isRaisedAgain || !fabric.formats host error

/-- A receive loop still awaits the call, or has ended with it. -/
def holds (fabric : Fabric H δ η) (host : H) (loop : LoopId)
    (entry : Entry (Call δ η × List (Port H)) PlexoError) : Bool :=
  fabric.loop? host entry.call.1 = some loop && match entry.status with
    | .ready => true
    | .waiting => true
    | .returned => false
    | .raised error => fabric.endsLoop host error

/-- One of the receive loops that make a call waits for a message. -/
def isFree (fabric : Fabric H δ η) (host : H) (restarts : LoopId → Nat)
    (site : Site H δ η) (call : Call δ η) : Bool :=
  match fabric.loop? host call with
  | none => true
  | some loop => site.entries.countP (fabric.holds host loop) ≤ restarts loop

/-- `_recv_loop_running` is not set any more: the last of the loops of a TCP
ganglion has ended with an exception that it has raised again. -/
def hasStopped (fabric : Fabric H δ η) (host : H) (restarts : LoopId → Nat)
    (site : Site H δ η) (loop : LoopId) : Bool :=
  restarts loop < site.entries.countP fun entry =>
    fabric.loop? host entry.call.1 = some loop && match entry.status with
      | .raised error => error.isRaisedAgain
      | _ => false

abbrev around : Surroundings Traffic (Call δ η × List (Port H))
    (Incoming δ η) Running.Action :=
  Traffic.around.tagged []

def start (fabric : Fabric H δ η) : Mesh H δ η :=
  ⟨fun host => .empty (Traffic.start (fabric.plexus host)), [], fun _ _ => 0⟩

def packets (fabric : Fabric H δ η) (host : H) (traffic : Traffic)
    (call : Call δ η × List (Port H)) : List (Packet H η) :=
  match call.1.sent? traffic.running.plexus (fabric.environment host) with
  | none => []
  | some (ganglion, synapse, data) =>
      (fabric.layout ⟨host, ganglion⟩).map fun port =>
        ⟨port,
          ((traffic.running.plexus.ganglion ganglion).objects synapse).neuron,
          data, call.2⟩

def sends (fabric : Fabric H δ η) (host : H) (site : Site H δ η) :
    OpenAction (Incoming δ η) Running.Action → List (Packet H η)
  | .pass (.run index) =>
      match site.entries[index]? with
      | none => []
      | some entry => fabric.packets host site.state entry.call
  | _ => []

/-- A host runs a call, or a call that has waited ends. -/
inductive Pass (fabric : Fabric H δ η) (host : H) (site : Site H δ η) :
    List (Packet H η) → Site H δ η → Prop where
  | run {index : Nat} {call : Call δ η × List (Port H)}
      {parent : Option Nat} :
      site.entries[index]? = some ⟨call, parent, .ready⟩ →
      Pass fabric host site (fabric.packets host site.state call)
        ((fabric.program host).ran site index ⟨call, parent, .ready⟩)
  | settle {index : Nat} {call : Call δ η × List (Port H)}
      {parent : Option Nat} {status : Status PlexoError} :
      site.entries[index]? = some ⟨call, parent, .waiting⟩ →
      status.isReady = false →
      Pass fabric host site []
        (site.setStatus index ⟨call, parent, .waiting⟩ status)

theorem pass_of_step {fabric : Fabric H δ η} {host : H} {site after : Site H δ η}
    {action : CallTable.Action}
    (taken : (fabric.program host).step site action = some after) :
    Pass fabric host site (fabric.sends host site (.pass action)) after := by
  cases action with
  | run index =>
      simp only [Program.step] at taken
      split at taken
      · next call parent ready =>
          obtain ⟨⟩ := taken
          simp only [Fabric.sends, ready]
          exact .run ready
      · cases taken
  | resume index =>
      simp only [Program.step] at taken
      split at taken
      · next waiting =>
          split at taken
          · obtain ⟨⟩ := taken
            exact .settle waiting rfl
          · cases taken
      · cases taken
  | fail index child =>
      simp only [Program.step] at taken
      split at taken
      · next waiting raised =>
          split at taken
          · obtain ⟨⟩ := taken
            exact .settle waiting (settle_isReady ..)
          · cases taken
      · cases taken

end Fabric

namespace Mesh

inductive Action (H δ η : Type) where
  /-- A call of the host goes on, or one of its users does something.  Messages
  may come in here from outside of the mesh, too. -/
  | act (host : H) (action : OpenAction (Incoming δ η) Running.Action)
  /-- The receive loop at the port of a packet receives it. -/
  | hear (index : Nat)
  /-- `_start_recv_loop_if_needed`, in an `adapt` of a TCP ganglion or in
  `add_reactants` of the synapse of a multicast ganglion. -/
  | startRecvLoop (host : H) (loop : LoopId)
  /-- A socket drops a packet. -/
  | lose (index : Nat)

def Action.isLoss : Action H δ η → Bool
  | .lose _ => true
  | _ => false

variable [DecidableEq H]

def update (mesh : Mesh H δ η) (host : H) (site : Site H δ η)
    (flight : List (Packet H η)) : Mesh H δ η :=
  { mesh with site := Function.update mesh.site host site, flight }

/-- The first call for a packet, unless its port has no synapse for it. -/
def firstCall (mesh : Mesh H δ η) (packet : Packet H η) : Option (Call δ η) :=
  (mesh.site packet.port.host).state.firstCall
    (.receive packet.port.ganglion packet.data packet.neuron)

def step (fabric : Fabric H δ η) (mesh : Mesh H δ η) :
    Action H δ η → Option (Mesh H δ η)
  | .act host action =>
      ((fabric.program host).openStep Fabric.around (mesh.site host) action).map
        fun site => mesh.update host site
          (mesh.flight ++ fabric.sends host (mesh.site host) action)
  | .hear index =>
      match mesh.flight[index]? with
      | none => none
      | some packet =>
          let flight := mesh.flight.eraseIdx index
          match mesh.firstCall packet with
          -- `NeuronNotFound` is logged.
          | none => some { mesh with flight }
          | some call =>
              let site := mesh.site packet.port.host
              if fabric.isFree packet.port.host
                  (mesh.restarts packet.port.host) site call then
                some (mesh.update packet.port.host
                  (site.enter (call, packet.port :: packet.trail)) flight)
              else
                none
  | .startRecvLoop host loop =>
      let restarts := mesh.restarts host
      if loop.2.isSome || fabric.hasStopped host restarts (mesh.site host) loop
      then
        some { mesh with
          restarts := Function.update mesh.restarts host
            (Function.update restarts loop (restarts loop + 1)) }
      else
        none
  | .lose index =>
      match mesh.flight[index]? with
      | none => none
      | some _ => some { mesh with flight := mesh.flight.eraseIdx index }

variable {fabric : Fabric H δ η} {mesh next : Mesh H δ η}

/-- A host takes a step, or a packet is handed over or lost. -/
inductive Change (fabric : Fabric H δ η) (mesh : Mesh H δ η) :
    Action H δ η → Mesh H δ η → Prop where
  | act {host : H} {action : OpenAction (Incoming δ η) Running.Action}
      {site : Site H δ η} :
      (fabric.program host).openStep Fabric.around (mesh.site host) action =
        some site →
      Change fabric mesh (.act host action) (mesh.update host site
        (mesh.flight ++ fabric.sends host (mesh.site host) action))
  | heard {index : Nat} {packet : Packet H η} {call : Call δ η} :
      mesh.flight[index]? = some packet →
      mesh.firstCall packet = some call →
      Change fabric mesh (.hear index) (mesh.update packet.port.host
        ((mesh.site packet.port.host).enter
          (call, packet.port :: packet.trail))
        (mesh.flight.eraseIdx index))
  | gone {action : Action H δ η} {index : Nat} {packet : Packet H η} :
      mesh.flight[index]? = some packet →
      (action.isLoss = true ∨ mesh.firstCall packet = none) →
      Change fabric mesh action
        { mesh with flight := mesh.flight.eraseIdx index }
  | started {host : H} {loop : LoopId} {restarts : H → LoopId → Nat} :
      Change fabric mesh (.startRecvLoop host loop) { mesh with restarts }

theorem change_of_step {action : Action H δ η}
    (taken : mesh.step fabric action = some next) :
    Change fabric mesh action next := by
  cases action with
  | act host action =>
      obtain ⟨site, moved, rfl⟩ := Option.map_eq_some_iff.mp taken
      exact .act moved
  | hear index =>
      simp only [step] at taken
      split at taken
      · cases taken
      · next packet found =>
          split at taken
          · next unknown =>
              obtain ⟨⟩ := taken
              exact .gone found (.inr unknown)
          · next call entered =>
              split at taken
              · obtain ⟨⟩ := taken
                exact .heard found entered
              · cases taken
  | startRecvLoop host loop =>
      simp only [step] at taken
      split at taken
      · obtain ⟨⟩ := taken
        exact .started
      · cases taken
  | lose index =>
      simp only [step] at taken
      split at taken
      · cases taken
      · next packet found =>
          obtain ⟨⟩ := taken
          exact .gone found (.inl rfl)

@[simp] theorem update_site_self (mesh : Mesh H δ η) (host : H)
    (site : Site H δ η) (flight : List (Packet H η)) :
    (mesh.update host site flight).site host = site :=
  Function.update_self ..

theorem update_site_ne (mesh : Mesh H δ η) {host other : H}
    (different : other ≠ host) (site : Site H δ η)
    (flight : List (Packet H η)) :
    (mesh.update host site flight).site other = mesh.site other :=
  Function.update_of_ne different ..

@[simp] theorem update_flight (mesh : Mesh H δ η) (host : H)
    (site : Site H δ η) (flight : List (Packet H η)) :
    (mesh.update host site flight).flight = flight := rfl

@[simp] theorem update_update (mesh : Mesh H δ η) (host : H)
    (first second : Site H δ η) (before after : List (Packet H η)) :
    (mesh.update host first before).update host second after =
      mesh.update host second after := by
  simp only [update, Function.update_idem]

theorem update_self (mesh : Mesh H δ η) (host : H) :
    mesh.update host (mesh.site host) mesh.flight = mesh := by
  rw [update, Function.update_eq_self]

theorem step_pass {host : H} {action : CallTable.Action} {site : Site H δ η}
    (taken : (fabric.program host).step (mesh.site host) action = some site) :
    mesh.step fabric (.act host (.pass action)) = some (mesh.update host site
      (mesh.flight ++
        fabric.sends host (mesh.site host) (.pass action))) := by
  have opened : (fabric.program host).openStep Fabric.around (mesh.site host)
    (.pass action) = some site := taken
  rw [step, opened]
  rfl

theorem step_hear {index : Nat} {packet : Packet H η} {call : Call δ η}
    (found : mesh.flight[index]? = some packet)
    (entered : mesh.firstCall packet = some call)
    (free : fabric.isFree packet.port.host (mesh.restarts packet.port.host)
      (mesh.site packet.port.host) call = true) :
    mesh.step fabric (.hear index) = some (mesh.update packet.port.host
      ((mesh.site packet.port.host).enter (call, packet.port :: packet.trail))
      (mesh.flight.eraseIdx index)) := by
  simp only [step, found, entered, free, if_true]

theorem Change.site_cases {action : Action H δ η}
    (changed : Change fabric mesh action next) (host : H) :
    (next.site host).untag = (mesh.site host).untag ∨
      ∃ shown, (Traffic.program (fabric.plexus host)
        (fabric.environment host)).openStep Traffic.around
          (mesh.site host).untag shown = some (next.site host).untag := by
  cases changed with
  | @act other action site moved =>
      by_cases same : host = other
      · subst same
        rw [update_site_self]
        have shown := untag_openStep (Traffic.program (fabric.plexus host)
          (fabric.environment host)) Traffic.around [] (mesh.site host) action
        rw [moved] at shown
        exact .inr ⟨action, shown.symm⟩
      · rw [update_site_ne _ same]
        exact .inl rfl
  | @heard index packet call found entered =>
      by_cases same : host = packet.port.host
      · subst same
        rw [update_site_self, Table.untag_enter]
        refine .inr ⟨.enter (.receive packet.port.ganglion packet.data
          packet.neuron), ?_⟩
        have known : (mesh.site packet.port.host).untag.state.firstCall
            (.receive packet.port.ganglion packet.data packet.neuron) =
              some call := entered
        simp only [openStep, Traffic.around, known, Option.map_some]
      · rw [update_site_ne _ same]
        exact .inl rfl
  | gone _ _ => exact .inl rfl
  | started => exact .inl rfl

variable {steps : List (Mesh H δ η × Action H δ η)}

/-- A run of a mesh whose plexuses nothing has been done with yet. -/
abbrev RunOf (fabric : Fabric H δ η)
    (steps : List (Mesh H δ η × Action H δ η)) (finish : Mesh H δ η) : Prop :=
  Path (step fabric) fabric.start steps finish

/-- In a run of the mesh, each host runs its plexus. -/
theorem exists_runOf (run : RunOf fabric steps mesh) (host : H) :
    ∃ shown, Traffic.RunOf (fabric.plexus host) (fabric.environment host) shown
      (mesh.site host).untag := by
  apply run.project fun mesh => (mesh.site host).untag
  intro before action after taken
  exact (change_of_step taken).site_cases host

end Mesh

end Plexo
