import Plexo.Plexus.Bridging
import Plexo.Plexus.Quiescence

/-!
# Messages that go round

If links form a loop, then the plexuses along it pass a message on to each other
for ever: a plexus that receives it again makes a new reaction id, whose set is
empty.
-/

namespace Plexo

open CallTable CallTable.Program Transition

variable {H δ η : Type}

/-- A codec gives data back from the payload that it makes of it, and all
sockets take this payload. -/
structure Environment.Conveys (environment : Environment δ η) (name : String)
    (data : δ) (payload : η) : Prop where
  encodes : ∀ neuron, neuron.name = name →
    environment.encode neuron data = .ok payload
  decodes : ∀ neuron, neuron.name = name →
    environment.decode neuron payload = .ok data
  sends : ∀ ganglion, environment.send ganglion payload = .ok ()

def Call.Sends (plexus : Plexus) (environment : Environment δ η)
    (target : GanglionId) (name : String) (payload : η) (call : Call δ η) :
    Prop :=
  ∃ synapse, call.sent? plexus environment = some (target, synapse, payload) ∧
    ((plexus.ganglion target).objects synapse).neuron.name = name

namespace Plexus

/-- All ganglia are adapted to a neuron of this name. -/
structure Ready (plexus : Plexus) (neuron first : Neuron) : Prop where
  settled : plexus.Settled
  registered : plexus.registered neuron = some first
  capable : ∀ id ∈ plexus.ganglia,
    (plexus.ganglion id).capable first = true

variable {plexus : Plexus} {neuron first : Neuron}
  {environment : Environment δ η} {target : GanglionId} {data : δ}
  {payload : η} {reactions : Reactions}

theorem sends_transmitter
    (conveys : environment.Conveys neuron.name data payload)
    (external : (plexus.ganglion target).cls ≠ .inproc)
    {transmitter : Transmitter}
    (found : (plexus.ganglion target).base.transmitters neuron.name =
      some transmitter) (id : Option ReactionId) :
    (Call.transmitter target transmitter data id).Sends plexus environment target
      neuron.name payload := by
  have connected := (plexus.ganglion target).connected
  have isNamed := (connected.named (connected.transmitters found)).2
  refine ⟨transmitter.synapse, ?_, isNamed⟩
  cases cls : (plexus.ganglion target).cls with
  | inproc => exact absurd cls external
  | external declared =>
      simp only [Call.sent?, cls, conveys.encodes _ (connected.encoders found),
        conveys.sends]

theorem sends_externalTransmitter
    (conveys : environment.Conveys neuron.name data payload)
    {synapse : SynapseId}
    (found : (plexus.ganglion target).base.synapses neuron.name = some synapse)
    (id : Option ReactionId) :
    (Call.externalTransmitter target synapse payload id : Call δ η).Sends
      plexus environment target neuron.name payload := by
  refine ⟨synapse, ?_, ((plexus.ganglion target).connected.named found).2⟩
  simp only [Call.sent?, conveys.sends]

theorem Ready.descends_sends (ready : plexus.Ready neuron first)
    (conveys : environment.Conveys neuron.name data payload)
    (isTarget : target ∈ plexus.ganglia)
    (external : (plexus.ganglion target).cls ≠ .inproc) {call : Call δ η}
    {made : List (Call δ η)} {other : Neuron} {id : Option ReactionId}
    {after : Reactions} (otherNamed : other.name = first.name)
    (descends : (plexus.program environment).Descends call reactions made
      (.transmit target data other id) after) :
    ∃ made last, (plexus.program environment).Descends call reactions made last
      after ∧ last.Sends plexus environment target neuron.name payload := by
  obtain ⟨known, named⟩ := mem_of_registered ready.registered
  obtain ⟨transmitter, found⟩ := Option.isSome_iff_exists.mp
    ((ready.settled.station known isTarget).transmitter
      (ready.capable target isTarget))
  have sends := found
  rw [named] at sends
  rw [← otherNamed] at found
  exact ⟨_, .transmitter target transmitter data id,
    descends.trans (.child (run_transmit environment data found)
      (List.mem_singleton_self _) .here),
    sends_transmitter conveys external sends id⟩

theorem Ready.exists_sends_transmit (ready : plexus.Ready neuron first)
    (coroutines : environment.Coroutines)
    (conveys : environment.Conveys neuron.name data payload)
    (isTarget : target ∈ plexus.ganglia)
    (external : (plexus.ganglion target).cls ≠ .inproc) :
    ∃ made last after, (plexus.program environment).Descends
      (.transmit .own data neuron none) reactions made last after ∧
        last.Sends plexus environment target neuron.name payload := by
  obtain ⟨known, named⟩ := mem_of_registered ready.registered
  have isOwn : GanglionId.own ∈ plexus.ganglia :=
    List.mem_append_left _ ready.settled.placed.own
  have different : target ≠ .own := by
    rintro rfl
    exact external ready.settled.placed.ownClass
  obtain ⟨made, other, otherNamed, descends, _⟩ := descends_forward environment
    ready.settled known isOwn (ready.capable _ isOwn)
    ready.settled.placed.ownClass named.symm data
    (callable_of_coroutines coroutines ..) none reactions isTarget
    (notMem_join_next different)
  obtain ⟨further, last, sends⟩ :=
    ready.descends_sends conveys isTarget external otherNamed descends
  exact ⟨further, last, _, sends⟩

theorem Ready.exists_sends_receive (ready : plexus.Ready neuron first)
    (coroutines : environment.Coroutines)
    (conveys : environment.Conveys neuron.name data payload)
    {origin : GanglionId} (inside : origin ∈ plexus.ganglia)
    (foreign : (plexus.ganglion origin).cls ≠ .inproc) {synapse : SynapseId}
    (found : (plexus.ganglion origin).base.synapses neuron.name = some synapse)
    (isTarget : target ∈ plexus.ganglia)
    (external : (plexus.ganglion target).cls ≠ .inproc)
    (different : target ≠ origin) :
    ∃ made last after, (plexus.program environment).Descends
      (.transduce origin synapse payload none) reactions made last after ∧
        last.Sends plexus environment target neuron.name payload := by
  obtain ⟨known, named⟩ := mem_of_registered ready.registered
  have isNamed := ((plexus.ganglion origin).connected.named found).2
  have isOwn : GanglionId.own ∈ plexus.ganglia :=
    List.mem_append_left _ ready.settled.placed.own
  have callable := callable_of_coroutines coroutines plexus first.name data
  have further : ¬ plexus.RawOnly environment first origin target data :=
    fun rawOnly => rawOnly.2.2 .own ⟨isOwn, ready.capable _ isOwn,
      ready.settled.placed.ownClass, callable .own⟩
  rw [← named] at found
  obtain ⟨made, other, id, after, otherNamed, descends⟩ := descends_bridged
    ready.settled known inside (ready.capable _ inside)
    ⟨inside, ready.capable _ inside, found, conveys.decodes _ isNamed,
      callable origin⟩ isTarget different external foreign further reactions
  obtain ⟨further, last, sends⟩ :=
    ready.descends_sends conveys isTarget external otherNamed descends
  exact ⟨further, last, _, sends⟩

end Plexus

/-- While users do nothing, the calls of a plexus go on as they do in a plexus
that stays as it is. -/
theorem Traffic.descends_of {first : Plexus} {environment : Environment δ η}
    {running : Running} {call last : Call δ η} {reactions after : Reactions}
    {made : List (Call δ η)}
    (descends : (running.plexus.program environment).Descends call reactions made
      last after) :
    (program first environment).Descends call ⟨running, reactions⟩ made last
      ⟨running, after⟩ := by
  induction descends with
  | here => exact .here
  | child body member _ induction =>
      refine .child ?_ member induction
      have body : running.plexus.run environment _ _ = _ := body
      simp only [program, body]

/-- All calls have returned, and all ganglia are adapted to the neuron. -/
def Running.IsAdapted (running : Running) (neuron : Neuron) : Prop :=
  running.Returned ∧ running.plexus.registered neuron = some neuron ∧
    ∀ id ∈ running.plexus.ganglia,
      (running.plexus.ganglion id).capable neuron = true

instance (running : Running) (neuron : Neuron) :
    Decidable (running.IsAdapted neuron) :=
  inferInstanceAs (Decidable (_ ∧ _))

inductive Environment.Raises (environment : Environment δ η) :
    PlexoError → Prop where
  | encode {neuron : Neuron} {data : δ} {error : PlexoError} :
      environment.encode neuron data = .error error →
        Raises environment error
  | decode {neuron : Neuron} {data : η} {error : PlexoError} :
      environment.decode neuron data = .error error →
        Raises environment error
  | send {ganglion : GanglionId} {data : η} {error : PlexoError} :
      environment.send ganglion data = .error error →
        Raises environment error
  | react {reactant : ReactantId} {data : δ} {error : PlexoError} :
      environment.react reactant data = .error error →
        Raises environment error

theorem Plexus.raises_of_run {plexus : Plexus} {environment : Environment δ η}
    (coroutines : environment.Coroutines) {call : Call δ η}
    {reactions : Reactions} {error : PlexoError}
    (raised : (plexus.run environment call reactions).1 = .raise error) :
    (∃ name, error = .transmitterNotFound name) ∨ environment.Raises error := by
  cases call with
  | transmit ganglion data neuron id =>
      simp only [run, GanglionExternalBase.getTransmitter] at raised
      split at raised
      · next missing =>
          split at missing
          · cases raised
            cases missing
            exact .inl ⟨_, rfl⟩
          · cases missing
      · cases raised
  | transmitEncoded ganglion data neuron id =>
      simp only [run, GanglionExternalBase.getExternalTransmitter] at raised
      split at raised
      · next missing =>
          split at missing
          · cases raised
            cases missing
            exact .inl ⟨_, rfl⟩
          · cases missing
      · cases raised
  | transmitter ganglion transmitter data id =>
      simp only [run, coroutines.callReactants] at raised
      split at raised
      · cases raised
      · have failed := raises_of_outcomeOf raised
        cases encodes : environment.encode transmitter.encoder data with
        | error other =>
            rw [encodes] at failed
            cases failed
            exact .inr (.encode encodes)
        | ok encoded =>
            rw [encodes] at failed
            exact .inr (.send failed)
  | externalTransmitter ganglion synapse data id =>
      exact .inr (.send (raises_of_outcomeOf raised))
  | transduce ganglion synapse data id =>
      simp only [run, coroutines.callReactants] at raised
      split at raised
      · next undecoded =>
          cases raised
          exact .inr (.decode undecoded)
      · cases raised
  | react reactant data neuron id =>
      cases reactant with
      | user _ => exact .inr (.react (raises_of_outcomeOf raised))
      | attached _ => exact .inr (.react (raises_of_outcomeOf raised))
      | internalReaction _ _ => cases raised
      | externalInternalReaction _ _ => cases raised
  | reactRaw reactant data neuron id => cases raised

/-- The reactants of users return coroutines, and receive loops log whatever
codecs, sockets and reactants raise, and go on. -/
structure Fabric.Benign (fabric : Fabric H δ η) : Prop where
  coroutines : ∀ host, (fabric.environment host).Coroutines
  logged : ∀ host error, (fabric.environment host).Raises error →
    fabric.endsLoop host error = false

namespace Mesh

variable {fabric : Fabric H δ η} {mesh : Mesh H δ η} {host : H}

theorem Left.cons {steps : List (Mesh H δ η × Action H δ η)}
    {action : Action H δ η} (left : Left steps) (own : action.isOwn = true)
    (state : Mesh H δ η) : Left ((state, action) :: steps) :=
  Transition.along_cons.mpr ⟨own, left⟩

theorem Left.append {first second : List (Mesh H δ η × Action H δ η)}
    (before : Left first) (after : Left second) : Left (second ++ first) := by
  intro entry member
  rcases List.mem_append.mp member with late | soon
  · exact after entry late
  · exact before entry soon

theorem isFree_of_final {site : Site H δ η}
    (final : (fabric.program host).Final site) (nested : Nested site.untag)
    (logged : Raises (fun error => fabric.endsLoop host error = false)
      site.untag) (restarts : LoopId → Nat) (call : Call δ η) :
    fabric.isFree host restarts site call = true := by
  have untagged : (Traffic.program (fabric.plexus host)
      (fabric.environment host)).Final site.untag := by
    intro action
    rw [← untag_step, final action]
    rfl
  have none : ∀ loop, site.entries.countP (fabric.holds host loop) = 0 := by
    intro loop
    apply List.countP_eq_zero.mpr
    intro entry member
    obtain ⟨index, found⟩ := List.getElem?_of_mem member
    have known : site.untag.entries[index]? = some entry.untag := by
      rw [Table.untag_entries, found]
      rfl
    rcases untagged.ended nested known with returned | ⟨error, raised⟩
    · have status : entry.status = .returned := returned
      simp [Fabric.holds, status]
    · have status : entry.status = .raised error := raised
      simp [Fabric.holds, status, logged _ _ _ known raised]
  unfold Fabric.isFree
  split
  · rfl
  · next loop _ => simp [none loop]

/-- A ganglion of the mesh that is not inproc. -/
def IsExternal (mesh : Mesh H δ η) (port : Port H) : Prop :=
  port.ganglion ∈ (mesh.site port.host).state.running.plexus.ganglia ∧
    ((mesh.site port.host).state.running.plexus.ganglion port.ganglion).cls ≠
      .inproc

instance (mesh : Mesh H δ η) (port : Port H) :
    Decidable (mesh.IsExternal port) :=
  inferInstanceAs (Decidable (_ ∧ _))

/-- All plexuses are adapted to a neuron of this name, and links are between
their external ganglia. -/
structure Ready (fabric : Fabric H δ η) (neuron : Neuron)
    (mesh : Mesh H δ η) : Prop where
  plexuses : ∀ host, ∃ first,
    (mesh.site host).state.running.plexus.Ready neuron first
  links : ∀ port, ∀ next ∈ fabric.layout port,
    mesh.IsExternal port ∧ mesh.IsExternal next

variable {steps : List (Mesh H δ η × Action H δ η)} {finish : Mesh H δ η}
  {neuron : Neuron} {data : δ} {payload : η}

theorem Ready.congr (ready : Ready fabric neuron mesh)
    (same : ∀ host, (finish.site host).state.running.plexus =
      (mesh.site host).state.running.plexus) : Ready fabric neuron finish := by
  constructor
  · intro host
    rw [same host]
    exact ready.plexuses host
  · intro port next hears
    simp only [IsExternal, same]
    exact ready.links port next hears

theorem exists_mem_packets {traffic : Traffic}
    {call : Call δ η × List (Port H)} {target : GanglionId}
    (sends : call.1.Sends traffic.running.plexus (fabric.environment host)
      target neuron.name payload) {port : Port H}
    (hears : port ∈ fabric.layout ⟨host, target⟩) :
    ∃ packet ∈ fabric.packets host traffic call, packet.port = port ∧
      packet.data = payload ∧ packet.neuron.name = neuron.name := by
  obtain ⟨synapse, isSent, isNamed⟩ := sends
  refine ⟨⟨port, ((traffic.running.plexus.ganglion target).objects
    synapse).neuron, payload, call.2⟩, ?_, rfl, rfl, isNamed⟩
  simp only [Fabric.packets, isSent]
  exact List.mem_map_of_mem hears

/-- A packet with this payload is on its way to a port. -/
def Flies (mesh : Mesh H δ η) (neuron : Neuron) (payload : η)
    (port : Port H) : Prop :=
  ∃ packet ∈ mesh.flight, packet.port = port ∧ packet.data = payload ∧
    packet.neuron.name = neuron.name

theorem Ready.exists_firstCall (ready : Ready fabric neuron mesh)
    {packet : Packet H η} (isExternal : mesh.IsExternal packet.port)
    (named : packet.neuron.name = neuron.name) :
    ∃ synapse, ((mesh.site packet.port.host).state.running.plexus.ganglion
        packet.port.ganglion).base.synapses neuron.name = some synapse ∧
      mesh.firstCall packet =
        some (.transduce packet.port.ganglion synapse packet.data none) := by
  obtain ⟨first, isReady⟩ := ready.plexuses packet.port.host
  obtain ⟨known, isNamed⟩ := Plexus.mem_of_registered isReady.registered
  obtain ⟨synapse, found⟩ := Plexus.exists_synapse isReady.settled known
    isExternal.1 (isReady.capable _ isExternal.1)
  rw [isNamed] at found
  refine ⟨synapse, found, ?_⟩
  simp only [firstCall, Traffic.firstCall, if_pos isExternal.1, Plexus.rootCall,
    named, found, Option.map_some]

variable [DecidableEq H]

/-- No `adapt` of a ganglion raises an exception. -/
def Action.isSmooth : Action H δ η → Bool
  | .act _ (.change action) => !action.fails
  | _ => true

/-- A mesh is ready if its plexuses have been adapted without exceptions. -/
theorem ready_of_run (run : RunOf fabric steps mesh)
    (smooth : Along (fun _ action => action.isSmooth = true) steps)
    (adapted : ∀ host, (mesh.site host).state.running.IsAdapted neuron)
    (links : ∀ port, ∀ next ∈ fabric.layout port,
      mesh.IsExternal port ∧ mesh.IsExternal next) :
    Ready fabric neuron mesh := by
  refine ⟨fun host => ⟨neuron, ?_⟩, links⟩
  obtain ⟨returned, registered, capable⟩ := adapted host
  have sound : (mesh.site host).state.running.Tracked ∧
      (mesh.site host).state.running.Flawless := by
    apply run.invariant smooth
    · exact ⟨Running.tracked_start (Plexus.placed_init ..) rfl,
        Running.flawless_start (Plexus.wired_init _ _ _ _)⟩
    · intro before action next sound calm taken
      rcases (change_of_step taken).running_cases host with
        same | ⟨call, rfl, called⟩
      · rw [same]
        exact sound
      · have moved := Running.move_of_step called
        have isCalm : call.fails = false := by
          simpa [Action.isSmooth] using calm
        rw [isCalm] at moved
        exact ⟨sound.1.move moved, sound.2.move sound.1 moved⟩
  exact ⟨Running.settled_of_returned sound.1 sound.2 returned, registered,
    capable⟩

/-- What a host can do by itself, it can do in the mesh. -/
theorem path_pass {site : Site H δ η}
    {passes : List (Site H δ η × CallTable.Action)}
    (path : Path (fabric.program host).step (mesh.site host) passes site) :
    ∃ steps sent, Path (step fabric) mesh steps
      (mesh.update host site (mesh.flight ++ sent)) ∧ Left steps := by
  induction path with
  | refl =>
      refine ⟨[], [], ?_, by simp [Left, Along]⟩
      rw [List.append_nil, update_self]
      exact .refl
  | @snoc passes middle site action _ taken induction =>
      obtain ⟨steps, sent, before, left⟩ := induction
      have here : (mesh.update host middle (mesh.flight ++ sent)).site host =
        middle := update_site_self ..
      rw [← here] at taken
      have moved := step_pass taken
      rw [update_update, update_flight, List.append_assoc] at moved
      exact ⟨_, _, before.snoc moved, left.cons rfl _⟩

theorem same_of_left (path : Path (step fabric) mesh steps finish)
    (left : Left steps) (host : H) :
    (finish.site host).state.running.plexus =
      (mesh.site host).state.running.plexus := by
  apply path.invariant left
  · rfl
  · intro state action next same own taken
    exact ((change_of_step taken).same own host).trans same

theorem logged_of_run (benign : fabric.Benign) (run : RunOf fabric steps mesh)
    (host : H) :
    Raises (fun error => fabric.endsLoop host error = false)
      (mesh.site host).untag := by
  obtain ⟨shown, alone⟩ := exists_runOf run host
  have body : ∀ {call : Call δ η} {traffic : Traffic} {error : PlexoError},
      ((Traffic.program (fabric.plexus host) (fabric.environment host)).run call
        traffic).1 = .raise error → fabric.endsLoop host error = false := by
    intro call traffic error raised
    rcases Plexus.raises_of_run (benign.coroutines host) raised with
      ⟨name, rfl⟩ | raises
    · simp [Fabric.endsLoop, PlexoError.isRaisedAgain, fabric.formatsOwn]
    · exact benign.logged host error raises
  exact raises_of_openPath body alone

theorem exists_free [Fintype H] (benign : fabric.Benign)
    (run : RunOf fabric steps mesh) (host : H) :
    ∃ later site sent, Path (step fabric) mesh later
      (mesh.update host site (mesh.flight ++ sent)) ∧ Left later ∧
        ∀ restarts call, fabric.isFree host restarts site call = true := by
  let base : H → Plexus := fun host => (mesh.site host).state.running.plexus
  obtain ⟨span, width, bounds⟩ :=
    @Fabric.exists_bounds _ _ _ _ fabric base (slim_of_run run)
  have bounded : ∀ passes site,
      Path (fabric.program host).step (mesh.site host) passes site →
      passes.length ≤
        potential (rankAt (base host) span 0) width (mesh.site host) := by
    intro passes site path
    have bound := @Path.length_le_of_lowers _ _ _ (fun _ _ => True)
      (fun site => ∃ passes,
        Path (fabric.program host).step (mesh.site host) passes site)
      (potential (rankAt (base host) span 0) width) _ _ _ path
      (fun _ _ => trivial) ⟨[], .refl⟩
      (by
        rintro site action next ⟨passes, before⟩ _ taken
        exact ⟨_, before.snoc taken⟩)
      (by
        rintro site action next ⟨passes, before⟩ _ taken
        obtain ⟨later, sent, reached, left⟩ := path_pass before
        have still := still_of_run (run.append reached)
          (same_of_left reached left) host
        rw [update_site_self] at still
        exact still.potential_pass bounds (move_of_step taken))
    omega
  obtain ⟨passes, site, path, final⟩ := exists_final bounded
  obtain ⟨later, sent, reached, left⟩ := path_pass path
  refine ⟨later, site, sent, reached, left, ?_⟩
  obtain ⟨shown, alone⟩ := exists_runOf (run.append reached) host
  have logged := logged_of_run benign (run.append reached) host
  rw [update_site_self] at alone logged
  exact isFree_of_final final (nested_of_openPath alone) logged

theorem exists_packet {index : Nat} {call last : Call δ η}
    {trail : List (Port H)} {parent : Option Nat} {target : GanglionId}
    {made : List (Call δ η)} {after : Reactions}
    (ready : (mesh.site host).entries[index]? =
      some ⟨(call, trail), parent, .ready⟩)
    (descends : ((mesh.site host).state.running.plexus.program
      (fabric.environment host)).Descends call (mesh.site host).state.reactions
        made last after)
    (sends : last.Sends (mesh.site host).state.running.plexus
      (fabric.environment host) target neuron.name payload)
    {next : Port H} (hears : next ∈ fabric.layout ⟨host, target⟩) :
    ∃ later finish, Path (step fabric) mesh later finish ∧ Left later ∧
      finish.Flies neuron payload next := by
  have alone : (Traffic.program (fabric.plexus host)
    (fabric.environment host)).Descends call (mesh.site host).state made last
      ⟨(mesh.site host).state.running, after⟩ := Traffic.descends_of descends
  have tagged := alone.tagged trail
  obtain ⟨site, inside, state, _, position, maker, lastReady⟩ :=
    tagged.inside rfl ready
  obtain ⟨passes, path⟩ := inside.reached
  obtain ⟨later, sent, reached, left⟩ := path_pass path
  have here : (mesh.update host site (mesh.flight ++ sent)).site host = site :=
    update_site_self ..
  have taken : (fabric.program host).step site (.run position) = some _ :=
    step_run lastReady
  rw [← here] at taken
  have moved := step_pass taken
  refine ⟨_, _, reached.snoc moved, left.cons rfl _, ?_⟩
  have sendsHere : last.Sends site.state.running.plexus
      (fabric.environment host) target neuron.name payload := by
    rw [state]
    exact sends
  obtain ⟨packet, isSent, facts⟩ := @exists_mem_packets _ _ _ _ _ _ _ _
    (last, trail) _ sendsHere _ hears
  refine ⟨packet, List.mem_append_right _ ?_, facts⟩
  simp only [here, Fabric.sends, lastReady]
  exact isSent

theorem exists_received [Fintype H] (benign : fabric.Benign)
    (run : RunOf fabric steps mesh)
    (ready : Ready fabric neuron mesh) {packet : Packet H η}
    (flies : packet ∈ mesh.flight) (isExternal : mesh.IsExternal packet.port)
    (named : packet.neuron.name = neuron.name) :
    ∃ (later : List (Mesh H δ η × Action H δ η)) (finish : Mesh H δ η)
      (synapse : SynapseId) (index : Nat),
      Path (step fabric) mesh later finish ∧ Left later ∧ 0 < later.length ∧
      ((finish.site packet.port.host).state.running.plexus.ganglion
        packet.port.ganglion).base.synapses neuron.name = some synapse ∧
      (finish.site packet.port.host).entries[index]? =
        some ⟨(.transduce packet.port.ganglion synapse packet.data none,
          packet.port :: packet.trail), none, .ready⟩ := by
  obtain ⟨ending, site, sent, ended, left, free⟩ :=
    exists_free benign run packet.port.host
  have same := same_of_left ended left
  have here : (mesh.update packet.port.host site (mesh.flight ++ sent)).site
    packet.port.host = site := update_site_self ..
  have external : (mesh.update packet.port.host site
      (mesh.flight ++ sent)).IsExternal packet.port := by
    simp only [IsExternal, same]
    exact isExternal
  obtain ⟨synapse, found, entered⟩ :=
    (ready.congr same).exists_firstCall external named
  obtain ⟨index, isPacket⟩ := List.getElem?_of_mem
    (List.mem_append_left sent flies)
  have isFree : fabric.isFree packet.port.host
      (mesh.restarts packet.port.host) ((mesh.update packet.port.host site
        (mesh.flight ++ sent)).site packet.port.host)
      (.transduce packet.port.ganglion synapse packet.data none) = true := by
    rw [here]
    exact free _ _
  have hearing := step_hear isPacket entered isFree
  rw [here, update_update] at hearing
  refine ⟨_, _, synapse, site.entries.length, ended.snoc hearing,
    left.cons rfl _, by simp, ?_, ?_⟩
  · rw [here] at found
    rw [update_site_self]
    exact found
  · rw [update_site_self]
    exact List.getElem?_concat_length ..

/-- A packet is on its way to a port on a loop. -/
structure Circling (fabric : Fabric H δ η) (neuron : Neuron) (payload : η)
    (mesh : Mesh H δ η) : Prop where
  reached : ∃ steps, RunOf fabric steps mesh
  ready : Ready fabric neuron mesh
  packet : ∃ port, Relation.TransGen fabric.layout.Hop port port ∧
    mesh.Flies neuron payload port

theorem Ready.exists_next (ready : Ready fabric neuron mesh)
    (benign : fabric.Benign)
    (conveys : ∀ host,
      (fabric.environment host).Conveys neuron.name data payload)
    {port next : Port H} (isExternal : mesh.IsExternal port)
    {synapse : SynapseId} {index : Nat} {trail : List (Port H)}
    (found : ((mesh.site port.host).state.running.plexus.ganglion
      port.ganglion).base.synapses neuron.name = some synapse)
    (received : (mesh.site port.host).entries[index]? =
      some ⟨(.transduce port.ganglion synapse payload none, trail), none,
        .ready⟩)
    (hop : fabric.layout.Hop port next) :
    ∃ later finish, Path (step fabric) mesh later finish ∧ Left later ∧
      finish.Flies neuron payload next := by
  obtain ⟨ganglion, different, hears⟩ := hop
  obtain ⟨first, isReady⟩ := ready.plexuses port.host
  have target := (ready.links _ _ hears).1
  obtain ⟨made, last, after, descends, sends⟩ := @Plexus.Ready.exists_sends_receive
    _ _ _ _ _ _ _ _ _ (mesh.site port.host).state.reactions isReady
      (benign.coroutines port.host) (conveys port.host) _ isExternal.1 isExternal.2 _ found target.1 target.2
      different
  exact exists_packet received descends sends hears

/-- A packet on a loop makes the plexus that it comes to send one to the next
port on the loop. -/
theorem Circling.round [Fintype H]
    (circling : Circling fabric neuron payload mesh)
    (benign : fabric.Benign)
    (conveys : ∀ host,
      (fabric.environment host).Conveys neuron.name data payload) :
    ∃ later finish, Path (step fabric) mesh later finish ∧ Left later ∧
      0 < later.length ∧ Circling fabric neuron payload finish := by
  obtain ⟨before, run⟩ := circling.reached
  obtain ⟨port, loop, packet, flies, rfl, rfl, named⟩ := circling.packet
  obtain ⟨next, hop, rest⟩ := Relation.TransGen.head'_iff.mp loop
  obtain ⟨_, _, ⟨_, _, heard⟩⟩ := Relation.TransGen.tail'_iff.mp loop
  have isExternal := (circling.ready.links _ _ heard).2
  obtain ⟨hearing, middle, synapse, index, path, left, positive, found,
    received⟩ :=
      exists_received benign run circling.ready flies isExternal named
  have same := same_of_left path left
  have external : middle.IsExternal packet.port := by
    simp only [IsExternal, same]
    exact isExternal
  have ready := circling.ready.congr same
  obtain ⟨later, finish, sending, leftSending, nextFlies⟩ :=
    ready.exists_next benign conveys external found received hop
  have goes := path.append sending
  have leftAll := left.append leftSending
  refine ⟨_, finish, goes, leftAll, ?_, ⟨⟨_, run.append goes⟩, ?_, ?_⟩⟩
  · rw [List.length_append]
    omega
  · exact circling.ready.congr (same_of_left goes leftAll)
  · exact ⟨next, .tail' rest hop, nextFlies⟩

/-- There is always a longer run. -/
theorem Circling.not_rests [Fintype H]
    (circling : Circling fabric neuron payload mesh)
    (benign : fabric.Benign)
    (conveys : ∀ host,
      (fabric.environment host).Conveys neuron.name data payload) :
    ¬ Rests fabric mesh := by
  have further : ∀ length, ∃ later finish, Path (step fabric) mesh later finish ∧
      Left later ∧ length ≤ later.length ∧
        Circling fabric neuron payload finish := by
    intro length
    induction length with
    | zero =>
        have nothing : Left ([] : List (Mesh H δ η × Action H δ η)) := by
          intro entry member
          cases member
        exact ⟨[], mesh, .refl, nothing, le_rfl, circling⟩
    | succ length induction =>
        obtain ⟨later, finish, path, left, long, still⟩ := induction
        obtain ⟨round, last, goes, leftRound, positive, again⟩ :=
          still.round benign conveys
        refine ⟨_, last, path.append goes, left.append leftRound, ?_, again⟩
        rw [List.length_append]
        omega
  rintro ⟨bound, bounded⟩
  obtain ⟨later, finish, path, left, long, _⟩ := further (bound + 1)
  have short := bounded later finish path left
  omega

/-- What does not come to rest later does not come to rest. -/
theorem Rests.of_left (rests : Rests fabric mesh)
    (path : Path (step fabric) mesh steps finish) (left : Left steps) :
    Rests fabric finish := by
  obtain ⟨bound, bounded⟩ := rests
  refine ⟨bound, ?_⟩
  intro later last goes leftLater
  have short := bounded _ last (path.append goes) (left.append leftLater)
  rw [List.length_append] at short
  omega

def Transmits (fabric : Fabric H δ η) (mesh : Mesh H δ η) (host : H)
    (data : δ) (neuron : Neuron) (next : Mesh H δ η) : Prop :=
  mesh.step fabric (.act host (.enter (.transmit .own data neuron none))) =
    some next

theorem Ready.exists_circling (ready : Ready fabric neuron mesh)
    (benign : fabric.Benign) (run : RunOf fabric steps mesh)
    (conveys : ∀ host,
      (fabric.environment host).Conveys neuron.name data payload)
    {port : Port H} (loop : Relation.TransGen fabric.layout.Hop port port) :
    ∃ host next, Transmits fabric mesh host data neuron next ∧
      ∃ later finish, Path (step fabric) next later finish ∧ Left later ∧
        Circling fabric neuron payload finish := by
  obtain ⟨before, _, ⟨ganglion, _, hears⟩⟩ := Relation.TransGen.tail'_iff.mp loop
  obtain ⟨first, isReady⟩ := ready.plexuses before.host
  have target := (ready.links _ _ hears).1
  have isOwn : GanglionId.own ∈
      (mesh.site before.host).state.running.plexus.ganglia :=
    List.mem_append_left _ isReady.settled.placed.own
  let root : Call δ η := .transmit .own data neuron none
  let site := (mesh.site before.host).enter (root, [])
  have entered : (fabric.program before.host).openStep Fabric.around
      (mesh.site before.host) (.enter (.transmit .own data neuron none)) =
        some site := by
    simp only [openStep, Surroundings.tagged, Traffic.around, Traffic.firstCall,
      if_pos isOwn, Option.map_some]
    rfl
  let begun := mesh.update before.host site (mesh.flight ++ [])
  have here : begun.site before.host = site := update_site_self ..
  have taken : Transmits fabric mesh before.host data neuron begun := by
    rw [Transmits, step, entered]
    rfl
  have same : ∀ host, (begun.site host).state.running.plexus =
      (mesh.site host).state.running.plexus := by
    intro host
    by_cases isBefore : host = before.host
    · subst isBefore
      rw [here]
      rfl
    · rw [update_site_ne _ isBefore]
  have rootReady : (begun.site before.host).entries[
      (mesh.site before.host).entries.length]? =
        some ⟨(root, []), none, .ready⟩ := by
    rw [here]
    exact List.getElem?_concat_length ..
  obtain ⟨made, last, after, descends, sends⟩ := @Plexus.Ready.exists_sends_transmit
    _ _ _ _ _ _ _ _ _ (begun.site before.host).state.reactions
      (same before.host ▸ isReady) (benign.coroutines before.host)
      (conveys before.host)
      (same before.host ▸ target.1) (same before.host ▸ target.2)
  obtain ⟨later, finish, path, left, flies⟩ :=
    exists_packet rootReady descends sends hears
  refine ⟨before.host, begun, taken, later, finish, path, left,
    ⟨⟨_, (run.snoc taken).append path⟩, ?_, port, loop, flies⟩⟩
  apply ready.congr
  intro host
  exact (same_of_left path left host).trans (same host)

/-- What users transmit comes to rest, in whatever order it is passed on, exactly
if the links form no loop. -/
theorem rests_iff_loopFree [Fintype H] (run : RunOf fabric steps mesh)
    (ready : Ready fabric neuron mesh) (benign : fabric.Benign)
    (conveys : ∀ host,
      (fabric.environment host).Conveys neuron.name data payload) :
    (∀ host next, Transmits fabric mesh host data neuron next →
      Rests fabric next) ↔ fabric.layout.LoopFree := by
  constructor
  · intro rests port loop
    obtain ⟨host, next, transmits, later, finish, path, left, circling⟩ :=
      ready.exists_circling benign run conveys loop
    exact circling.not_rests benign conveys
      ((rests host next transmits).of_left path left)
  · intro loopFree host next transmits
    exact rests_of_loopFree (run.snoc transmits) loopFree

end Mesh

theorem benign_sample (layout : Layout H) : (sampleFabric layout).Benign where
  coroutines _ := sampleEnvironment_coroutines
  logged := by
    rintro host error (raised | raised | raised | raised) <;> cases raised

def Layout.ring : Layout (Fin 2)
  | ⟨0, .other 1⟩ => [⟨1, .other 0⟩]
  | ⟨1, .other 1⟩ => [⟨0, .other 0⟩]
  | ⟨0, .other 0⟩ => [⟨1, .other 1⟩]
  | ⟨1, .other 0⟩ => [⟨0, .other 1⟩]
  | _ => []

theorem Layout.ring_loop :
    Relation.TransGen ring.Hop ⟨0, .other 0⟩ ⟨0, .other 0⟩ :=
  .tail (.single ⟨.other 1, by decide, List.mem_singleton_self _⟩)
    ⟨.other 1, by decide, List.mem_singleton_self _⟩

/-- A message on a ring that has been adapted goes round it for ever. -/
theorem Mesh.rests_iff_loopFree_ring :
    ∃ (steps : List (Mesh (Fin 2) Nat Nat × Action (Fin 2) Nat Nat))
      (mesh : Mesh (Fin 2) Nat Nat),
      RunOf (sampleFabric .ring) steps mesh ∧
      ∃ host next, Transmits (sampleFabric .ring) mesh host 5 sampleNeuron next ∧
        ¬ Rests (sampleFabric .ring) next := by
  obtain ⟨mesh, run, tested⟩ := @path_of_any _ _ (step (sampleFabric .ring))
    (sampleFabric .ring).start (sampleAdapts 0 [] ++ sampleAdapts 1 [])
    (fun mesh => decide (∀ host,
      (mesh.site host).state.running.IsAdapted sampleNeuron ∧
        mesh.IsExternal ⟨host, .other 0⟩ ∧ mesh.IsExternal ⟨host, .other 1⟩))
    (by decide +kernel)
  have hosts := of_decide_eq_true tested
  have ready : Ready (sampleFabric .ring) sampleNeuron mesh := by
    apply ready_of_run run (along_visited (by simp [Along]) (by decide))
      fun host => (hosts host).1
    intro port next hears
    simp only [sampleFabric, Layout.ring] at hears
    split at hears
    case h_5 => cases hears
    all_goals
      obtain rfl := List.mem_singleton.mp hears
      first
      | exact ⟨(hosts _).2.1, (hosts _).2.2⟩
      | exact ⟨(hosts _).2.2, (hosts _).2.1⟩
  by_contra rests
  push Not at rests
  have loopFree := (rests_iff_loopFree run ready (benign_sample _)
    (fun _ => (⟨fun _ _ => rfl, fun _ _ => rfl, fun _ => rfl⟩ :
      sampleEnvironment.Conveys sampleNeuron.name 5 5))).mp (rests _ mesh run)
  exact loopFree _ Layout.ring_loop

end Plexo
