import Plexo.Plexus.Mesh

/-!
# Where messages go in a mesh

Within a plexus, the first reaction to a received message adds the ganglion that
has received it to the set of a new reaction id, under which everything further
is forwarded.  So a plexus sends a message on through other ganglia only, and
the ports that it comes through are connected by hops.
-/

namespace Plexo

open CallTable CallTable.Program Transition

variable {H δ η : Type}

namespace Call

/-- A call that a message has led to which `origin` has received. -/
inductive Behind (reactions : Reactions) (origin : GanglionId)
    (call : Call δ η) : Prop where
  | received {synapse : SynapseId} {data : η} :
      call = .transduce origin synapse data none → Behind reactions origin call
  | reacts : call.reaction? = some origin → call.reactionId? = none →
      Behind reactions origin call
  | reactant : call.ganglion? = none → Behind reactions origin call
  | forwarded {id : ReactionId} : call.reactionId? = some id →
      origin ∈ reactions.joined id → call.ganglion? ≠ some origin →
      Behind reactions origin call

theorem Behind.mono {before after : Reactions} {origin : GanglionId}
    {call : Call δ η} (behind : call.Behind before origin)
    (grows : Plexus.Grows before after) : call.Behind after origin := by
  cases behind with
  | received isRoot => exact .received isRoot
  | reacts reaction first => exact .reacts reaction first
  | reactant none => exact .reactant none
  | forwarded carries joined other =>
      exact .forwarded carries (grows _ joined) other

theorem reaction?_of_stage {call : Call δ η} (stage : call.stage < 3) :
    call.reaction? = call.ganglion? := by
  cases call with
  | react reactant _ _ _ => cases reactant <;> rfl
  | reactRaw _ _ _ _ => rfl
  | transmit _ _ _ _ => simp [Call.stage] at stage
  | transmitEncoded _ _ _ _ => simp [Call.stage] at stage
  | transmitter _ _ _ _ => simp [Call.stage] at stage
  | externalTransmitter _ _ _ _ => simp [Call.stage] at stage
  | transduce _ _ _ _ => simp [Call.stage] at stage

theorem Behind.starts {plexus : Plexus} {environment : Environment δ η}
    {reactions : Reactions} {origin : GanglionId} {call child : Call δ η}
    (homed : plexus.Homed) (behind : call.Behind reactions origin)
    (made : child ∈ (plexus.run environment call reactions).1.calls) :
    child.Behind (plexus.run environment call reactions).2 origin := by
  have grows := Plexus.grows_run plexus environment call reactions
  rcases Plexus.made_cases homed made with
    ⟨current, target, forwarded⟩ | passed
  · -- A reaction forwards, to ganglia that are not in the set of its id.
    have fromHere : current ∈ (plexus.run environment call reactions).2.joined
        (reactions.reactionId call.reactionId?) := by
      rw [forwarded.joins]
      exact Reactions.mem_joined_join.mpr (.inl ⟨rfl, rfl⟩)
    have joined : origin ∈ (plexus.run environment call reactions).2.joined
        (reactions.reactionId call.reactionId?) := by
      cases behind with
      | received isRoot =>
          subst isRoot
          cases forwarded.reaction
      | reacts reaction _ =>
          have same := reaction.symm.trans forwarded.reaction
          rw [Option.some.inj same]
          exact fromHere
      | reactant none =>
          have some := (ganglion?_of_reaction? forwarded.reaction).1
          rw [none] at some
          cases some
      | forwarded carries joined _ =>
          rw [carries]
          exact grows _ joined
    refine .forwarded forwarded.reactionId joined ?_
    rw [forwarded.ganglion]
    intro same
    exact forwarded.outside (Option.some.inj same ▸ joined)
  · cases behind with
    | @received synapse data isRoot =>
        subst isRoot
        rcases passed.ganglion with none | same
        · exact .reactant none
        · exact .reacts ((reaction?_of_stage passed.stage).trans same)
            passed.reactionId
    | reacts reaction _ =>
        rw [passed.noReaction] at reaction
        cases reaction
    | reactant none =>
        obtain ⟨ganglion, isGanglion⟩ := passed.isGanglion
        rw [none] at isGanglion
        cases isGanglion
    | forwarded carries joined other =>
        rcases passed.ganglion with none | same
        · exact .reactant none
        · exact .forwarded (passed.reactionId.trans carries) (grows _ joined)
            (same ▸ other)

theorem sent?_cases {plexus : Plexus} {environment : Environment δ η}
    {call : Call δ η} {ganglion : GanglionId} {synapse : SynapseId} {data : η}
    (sent : call.sent? plexus environment = some (ganglion, synapse, data)) :
    (∃ bound content id, call = .transmitter ganglion bound content id ∧
        bound.synapse = synapse ∧
        (plexus.ganglion ganglion).cls ≠ .inproc) ∨
      ∃ id, call = .externalTransmitter ganglion synapse data id := by
  cases call with
  | transmitter id bound content reactionId =>
      simp only [sent?] at sent
      split at sent
      · cases sent
      · next declared cls =>
          split at sent
          · cases sent
          · split at sent
            · cases sent
            · obtain ⟨⟩ := sent
              exact .inl ⟨bound, content, reactionId, rfl, rfl, by simp [cls]⟩
  | externalTransmitter id place content reactionId =>
      simp only [sent?] at sent
      split at sent
      · cases sent
      · obtain ⟨⟩ := sent
        exact .inr ⟨reactionId, rfl⟩
  | _ => cases sent

/-- A plexus does not send a message through the ganglion that has received
it. -/
theorem Behind.sent_ne {plexus : Plexus} {environment : Environment δ η}
    {reactions : Reactions} {origin ganglion : GanglionId} {call : Call δ η}
    {synapse : SynapseId} {data : η} (behind : call.Behind reactions origin)
    (sent : call.sent? plexus environment = some (ganglion, synapse, data)) :
    ganglion ≠ origin := by
  have isSender : call.ganglion? = some ganglion ∧ call.reaction? = none ∧
      call.receiver? = none := by
    rcases sent?_cases sent with ⟨bound, content, id, rfl, _⟩ | ⟨id, rfl⟩
    · exact ⟨rfl, rfl, rfl⟩
    · exact ⟨rfl, rfl, rfl⟩
  obtain ⟨isGanglion, noReaction, noReceiver⟩ := isSender
  cases behind with
  | received isRoot =>
      subst isRoot
      cases noReceiver
  | reacts reaction _ =>
      rw [noReaction] at reaction
      cases reaction
  | reactant none =>
      rw [none] at isGanglion
      cases isGanglion
  | forwarded _ _ other =>
      rintro rfl
      exact other isGanglion

end Call

/-- A call belongs to the host that its trail ends at, and is behind the
ganglion there. -/
def Fits (host : H) (traffic : Traffic) (call : Call δ η × List (Port H)) :
    Prop :=
  ∀ port trail, call.2 = port :: trail →
    port.host = host ∧ call.1.Behind traffic.reactions port.ganglion

theorem keeps_fits (fabric : Fabric H δ η) (host : H) :
    (fabric.program host).OpenKeeps Fabric.around
      (fun traffic => traffic.running.plexus.Homed) (Fits host) where
  starts := by
    intro traffic call homed fits child member port trail same
    simp only [Program.tagged, Outcome.calls_map] at member
    obtain ⟨made, isMade, rfl⟩ := List.mem_map.mp member
    obtain ⟨here, behind⟩ := fits port trail same
    exact ⟨here, behind.starts homed isMade⟩
  stays := by
    intro traffic call other _ _ fits port trail same
    obtain ⟨here, behind⟩ := fits port trail same
    exact ⟨here, behind.mono (Plexus.grows_run _ _ _ _)⟩
  enters := by
    intro traffic input call _ entered port trail same
    obtain ⟨known, _, rfl⟩ := Option.map_eq_some_iff.mp entered
    cases same
  changes := by
    intro traffic action next call _ changed fits port trail same
    obtain ⟨running, _, rfl⟩ := Option.map_eq_some_iff.mp changed
    exact fits port trail same

theorem Fabric.mem_packets {fabric : Fabric H δ η} {host : H}
    {traffic : Traffic} {call : Call δ η × List (Port H)}
    {packet : Packet H η} (sent : packet ∈ fabric.packets host traffic call) :
    ∃ ganglion synapse,
      call.1.sent? traffic.running.plexus (fabric.environment host) =
        some (ganglion, synapse, packet.data) ∧
      packet.port ∈ fabric.layout ⟨host, ganglion⟩ ∧
      packet.trail = call.2 := by
  unfold Fabric.packets at sent
  split at sent
  · cases sent
  · next ganglion synapse data sends =>
      obtain ⟨port, hears, rfl⟩ := List.mem_map.mp sent
      exact ⟨ganglion, synapse, sends, hears, rfl⟩

theorem Fabric.mem_sends {fabric : Fabric H δ η} {host : H}
    {site : Site H δ η} {action : OpenAction (Incoming δ η) Running.Action}
    {packet : Packet H η} (sent : packet ∈ fabric.sends host site action) :
    ∃ call ∈ site.calls, packet ∈ fabric.packets host site.state call := by
  unfold Fabric.sends at sent
  split at sent
  · split at sent
    · cases sent
    · next entry found =>
        exact ⟨entry.call, Table.mem_calls_of_getElem? found, sent⟩
  · cases sent

theorem Mesh.firstCall_cases {mesh : Mesh H δ η} {packet : Packet H η}
    {call : Call δ η} (entered : mesh.firstCall packet = some call) :
    packet.port.ganglion ∈
        (mesh.site packet.port.host).state.running.plexus.ganglia ∧
      ∃ synapse, ((mesh.site packet.port.host).state.running.plexus.ganglion
          packet.port.ganglion).base.synapses packet.neuron.name =
            some synapse ∧
        call = .transduce packet.port.ganglion synapse packet.data none := by
  simp only [firstCall, Traffic.firstCall] at entered
  split at entered
  · next inside =>
      obtain ⟨synapse, found, rfl⟩ := Option.map_eq_some_iff.mp entered
      exact ⟨inside, synapse, found, rfl⟩
  · cases entered

namespace Mesh

/-- The port is one of a plexus of the mesh. -/
def Knows (mesh : Mesh H δ η) (port : Port H) : Prop :=
  port.ganglion ∈ (mesh.site port.host).state.running.plexus.ganglia

/-- The trail goes along hops, and through ports of the mesh. -/
structure Went (fabric : Fabric H δ η) (mesh : Mesh H δ η)
    (trail : List (Port H)) : Prop where
  isTrail : fabric.layout.IsTrail trail
  known : ∀ port ∈ trail, mesh.Knows port

/-- All messages are where their trails have led them. -/
structure Traceable (fabric : Fabric H δ η) (mesh : Mesh H δ η) : Prop where
  fits : ∀ host, ∀ call ∈ (mesh.site host).calls,
    Fits host (mesh.site host).state call
  went : ∀ host, ∀ call ∈ (mesh.site host).calls, Went fabric mesh call.2
  flight : ∀ packet ∈ mesh.flight, Went fabric mesh packet.trail ∧
    fabric.layout.IsTrail (packet.port :: packet.trail)

variable {fabric : Fabric H δ η} {mesh next : Mesh H δ η}

theorem Went.mono {trail : List (Port H)} (went : Went fabric mesh trail)
    (knows : ∀ port, mesh.Knows port → next.Knows port) :
    Went fabric next trail :=
  ⟨went.isTrail, fun port member => knows port (went.known port member)⟩

theorem went_nil : Went fabric mesh [] :=
  ⟨.nil, fun _ member => by cases member⟩

theorem Traceable.packet (traceable : Traceable fabric mesh) {host : H}
    {call : Call δ η × List (Port H)} (member : call ∈ (mesh.site host).calls)
    {packet : Packet H η}
    (sent : packet ∈ fabric.packets host (mesh.site host).state call) :
    Went fabric mesh packet.trail ∧
      fabric.layout.IsTrail (packet.port :: packet.trail) := by
  obtain ⟨ganglion, synapse, sends, hears, sameTrail⟩ :=
    Fabric.mem_packets sent
  have went := traceable.went host call member
  rw [sameTrail]
  refine ⟨went, ?_⟩
  cases isTrail : call.2 with
  | nil => exact .singleton packet.port
  | cons port trail =>
      obtain ⟨here, behind⟩ :=
        traceable.fits host call member port trail isTrail
      have hop : fabric.layout.Hop port packet.port :=
        ⟨ganglion, behind.sent_ne sends, here ▸ hears⟩
      exact .cons_cons hop (isTrail ▸ went.isTrail)

theorem traceable_start (fabric : Fabric H δ η) :
    Traceable fabric fabric.start where
  fits := by
    intro host call member
    cases member
  went := by
    intro host call member
    cases member
  flight := by
    intro packet member
    cases member

variable [DecidableEq H]

theorem Traceable.update (traceable : Traceable fabric mesh) {host : H}
    {site : Site H δ η} {flight : List (Packet H η)}
    (knows : ∀ port, mesh.Knows port → (mesh.update host site flight).Knows port)
    (fits : ∀ call ∈ site.calls, Fits host site.state call)
    (went : ∀ call ∈ site.calls,
      Went fabric (mesh.update host site flight) call.2)
    (sent : ∀ packet ∈ flight, Went fabric mesh packet.trail ∧
      fabric.layout.IsTrail (packet.port :: packet.trail)) :
    Traceable fabric (mesh.update host site flight) where
  fits := by
    intro other
    by_cases same : other = host
    · subst same
      rw [update_site_self]
      exact fits
    · rw [update_site_ne _ same]
      exact traceable.fits other
  went := by
    intro other
    by_cases same : other = host
    · subst same
      rw [update_site_self]
      exact went
    · rw [update_site_ne _ same]
      exact fun call member => (traceable.went other call member).mono knows
  flight := by
    intro packet member
    obtain ⟨before, isTrail⟩ := sent packet member
    exact ⟨before.mono knows, isTrail⟩

theorem Traceable.change {action : Action H δ η}
    (traceable : Traceable fabric mesh)
    (homed : ∀ host, (mesh.site host).state.running.plexus.Homed)
    (changed : Change fabric mesh action next)
    (knows : ∀ port, mesh.Knows port → next.Knows port) :
    Traceable fabric next := by
  cases changed with
  | @act host action site moved =>
      have changed := openChange_of_step moved
      have tags := keeps_tags (Traffic.program (fabric.plexus host)
        (fabric.environment host)) Traffic.around
          (@went_nil H δ η fabric mesh)
      apply traceable.update knows
      · exact (keeps_fits fabric host).openChange (homed host)
          (traceable.fits host) changed
      · intro call member
        exact (tags.openChange trivial (traceable.went host) changed call
          member).mono knows
      · intro packet member
        rcases List.mem_append.mp member with old | new
        · exact traceable.flight packet old
        · obtain ⟨call, called, sent⟩ := Fabric.mem_sends new
          exact traceable.packet called sent
  | @heard index packet call found entered =>
      obtain ⟨inside, synapse, _, isRoot⟩ := firstCall_cases entered
      obtain ⟨went, isTrail⟩ :=
        traceable.flight packet (List.mem_of_getElem? found)
      have calls : ∀ other ∈ ((mesh.site packet.port.host).enter
          (call, packet.port :: packet.trail)).calls,
          other ∈ (mesh.site packet.port.host).calls ∨
            other = (call, packet.port :: packet.trail) := by
        intro other member
        simpa [Table.calls, Table.enter] using member
      apply traceable.update knows
      · intro other member port trail same
        rcases calls other member with old | rfl
        · exact traceable.fits _ other old port trail same
        · obtain ⟨rfl, rfl⟩ := List.cons.inj same
          exact ⟨rfl, .received isRoot⟩
      · intro other member
        rcases calls other member with old | rfl
        · exact (traceable.went _ other old).mono knows
        · refine ⟨isTrail, ?_⟩
          intro port member
          rcases List.mem_cons.mp member with rfl | before
          · exact knows _ inside
          · exact knows _ (went.known port before)
      · intro other member
        exact traceable.flight other (List.mem_of_mem_eraseIdx member)
  | gone found _ =>
      constructor
      · exact traceable.fits
      · exact fun host call member => (traceable.went host call member).mono knows
      · intro packet member
        obtain ⟨went, isTrail⟩ :=
          traceable.flight packet (List.mem_of_mem_eraseIdx member)
        exact ⟨went.mono knows, isTrail⟩
  | started =>
      constructor
      · exact traceable.fits
      · exact fun host call member => (traceable.went host call member).mono knows
      · intro packet member
        obtain ⟨went, isTrail⟩ := traceable.flight packet member
        exact ⟨went.mono knows, isTrail⟩

variable {steps : List (Mesh H δ η × Action H δ η)}

/-- What holds of every plexus by itself. -/
theorem sound_of_run (run : RunOf fabric steps mesh) (host : H) :
    (mesh.site host).state.running.plexus.Homed ∧
      (mesh.site host).state.running.Tracked := by
  obtain ⟨shown, alone⟩ := exists_runOf run host
  exact Traffic.sound_of_run alone

theorem Change.knows {action : Action H δ η}
    (changed : Change fabric mesh action next)
    (tracked : ∀ host, (mesh.site host).state.running.Tracked)
    (port : Port H) (known : mesh.Knows port) : next.Knows port := by
  rcases changed.site_cases port.host with same | ⟨shown, moved⟩
  · have state : (next.site port.host).state = (mesh.site port.host).state :=
      congrArg (·.state) same
    rw [Knows, state]
    exact known
  · exact (Traffic.ganglia_subset_of_run (Path.snoc .refl moved)
      (tracked port.host)).1 known

theorem traceable_of_run (run : RunOf fabric steps mesh) :
    Traceable fabric mesh := by
  induction run with
  | refl => exact traceable_start fabric
  | snoc before taken induction =>
      have changed := change_of_step taken
      exact induction.change (fun host => (sound_of_run before host).1) changed
        (changed.knows fun host => (sound_of_run before host).2)

/-- Every message on its way or at a host has gone along hops, through ports of
the mesh. -/
def FollowsHops (fabric : Fabric H δ η) (mesh : Mesh H δ η) : Prop :=
  (∀ packet ∈ mesh.flight,
    fabric.layout.IsTrail (packet.port :: packet.trail) ∧
      ∀ port ∈ packet.trail, mesh.Knows port) ∧
  ∀ host, ∀ call ∈ (mesh.site host).calls,
    fabric.layout.IsTrail call.2 ∧ ∀ port ∈ call.2, mesh.Knows port

/-- No message is on its way to a port that it has come through, or at a host
that it has come to twice by the same port. -/
def NeverReturns (mesh : Mesh H δ η) : Prop :=
  (∀ packet ∈ mesh.flight, (packet.port :: packet.trail).Nodup) ∧
  ∀ host, ∀ call ∈ (mesh.site host).calls, call.2.Nodup

/-- Whatever the users of all plexuses do, and in whatever order messages are
sent, received and lost: each host runs its plexus as if it were alone, messages
move along hops only, and without loops none comes back. -/
theorem messages_follow_hops (run : RunOf fabric steps mesh) :
    (∀ host, ∃ shown, Traffic.RunOf (fabric.plexus host)
      (fabric.environment host) shown (mesh.site host).untag) ∧
    FollowsHops fabric mesh ∧
    (fabric.layout.LoopFree → NeverReturns mesh) := by
  have traceable := traceable_of_run run
  refine ⟨exists_runOf run, ⟨?_, ?_⟩, ?_⟩
  · intro packet member
    obtain ⟨went, isTrail⟩ := traceable.flight packet member
    exact ⟨isTrail, went.known⟩
  · intro host call member
    exact ⟨(traceable.went host call member).isTrail,
      (traceable.went host call member).known⟩
  · intro loopFree
    exact ⟨fun packet member =>
      loopFree.nodup (traceable.flight packet member).2,
      fun host call member =>
        loopFree.nodup (traceable.went host call member).isTrail⟩

end Mesh

def Layout.row : Layout Nat
  | ⟨0, .other 1⟩ => [⟨1, .other 0⟩]
  | ⟨1, .other 1⟩ => [⟨2, .other 0⟩]
  | ⟨1, .other 0⟩ => [⟨0, .other 1⟩]
  | ⟨2, .other 0⟩ => [⟨1, .other 1⟩]
  | _ => []

theorem Layout.row_loopFree : row.LoopFree := by
  apply @loopFree_of_rank _ row fun port =>
    if port.ganglion = .other 0 then 3 - port.host
    else if port.ganglion = .other 1 then port.host + 1
    else 4
  rintro ⟨host, origin⟩ next ⟨ganglion, different, hears⟩
  unfold row at hears
  split at hears
  case h_5 => cases hears
  all_goals
    next same =>
      obtain ⟨rfl, rfl⟩ := Port.mk.inj same
      obtain rfl := List.mem_singleton.mp hears
      rw [if_neg (Ne.symm different)]
      simp only [GanglionId.other.injEq, if_true, if_false, zero_ne_one,
        one_ne_zero]
      split <;> decide

/-- Plexuses with two TCP ganglia each. -/
def sampleFabric (layout : Layout H) : Fabric H Nat Nat where
  outside _ _ := (.external false, {})
  given _ := [0, 1]
  relevantNeurons _ := []
  ignoredNeurons _ := []
  environment _ := sampleEnvironment
  hasOneLoop _ _ := true
  formats _ _ := true
  layout := layout
  formatsOwn _ _ := rfl

def sampleAdapts (host : H) (reactants : List ReactantId) :
    List (Mesh.Action H Nat Nat) :=
  [.act host (.change (.call (.adapt sampleNeuron reactants))),
    .act host (.change (.adapted 0)), .act host (.change (.adapted 1)),
    .act host (.change (.adapted 2)), .act host (.change (.resume 0))]

/-- What the first host of a row transmits is passed on by the second one. -/
theorem Mesh.messages_follow_hops_row :
    ∃ (steps : List (Mesh Nat Nat Nat × Action Nat Nat Nat))
      (mesh : Mesh Nat Nat Nat),
      RunOf (sampleFabric .row) steps mesh ∧
      (∃ packet ∈ mesh.flight, packet.trail ≠ []) ∧
      FollowsHops (sampleFabric .row) mesh ∧ NeverReturns mesh := by
  obtain ⟨mesh, run, passed⟩ := @path_of_any _ _ (step (sampleFabric .row))
    (sampleFabric .row).start
    (sampleAdapts 0 [] ++ sampleAdapts 1 [] ++
      [.act 0 (.enter (.transmit .own 5 sampleNeuron none)),
        .act 0 (.pass (.run 0)), .act 0 (.pass (.run 1)),
        .act 0 (.pass (.run 2)), .act 0 (.pass (.run 4)),
        .act 0 (.pass (.run 5)), .hear 0, .act 1 (.pass (.run 0)),
        .act 1 (.pass (.run 1)), .act 1 (.pass (.run 3)),
        .act 1 (.pass (.run 4))])
    (fun mesh => mesh.flight.any fun packet => decide (packet.trail ≠ []))
    (by decide +kernel)
  obtain ⟨packet, flies, passedOn⟩ := List.any_eq_true.mp passed
  obtain ⟨_, follows, never⟩ := messages_follow_hops run
  exact ⟨_, mesh, run, ⟨packet, flies, of_decide_eq_true passedOn⟩, follows,
    never Layout.row_loopFree⟩

end Plexo
