import Plexo.Multicast.Membership

/-!
# The agreement of a punctual group

The agreement of a group rests on every instance counting all others.  In a
group that starts together, whose heartbeats are neither lost nor too slow, this
need not be assumed: `wait_startup` holds back everything until an interval has
passed, and by then the heartbeats have seen to it.
-/

namespace Plexo

open PersistentMap Transition Watching

namespace TimedNetwork

variable {N : Nat} {Time : Type} [Field Time] [LinearOrder Time]
  [IsStrictOrderedRing Time]

/-- Instances past their startup that do not know of each other yet. -/
def started (host : Fin N → Host) (multicastCidr : IPNetwork)
    (instanceId : Fin N → Nat) (filters : Fin N → Filters) (clock : Time) :
    TimedNetwork N Time :=
  .together (.ofGanglia fun instance_ => .started (host instance_) multicastCidr
    (instanceId instance_) 0 (filters instance_)) clock

/-- Nothing has happened but that instances counted their peers. -/
def Untouched (host : Fin N → Host) (multicastCidr : IPNetwork)
    (instanceId : Fin N → Nat) (filters : Fin N → Filters)
    (network : Network N) : Prop :=
  ∃ numPeers : Fin N → Nat, network = .ofGanglia fun instance_ =>
    .started (host instance_) multicastCidr (instanceId instance_)
      (numPeers instance_) (filters instance_)

/-- Before one interval has passed only the loops are at work, as
`wait_startup` sees to it. -/
def waitsStartup (timing : Timing N Time) (clock : Time)
    (timed : TimedNetwork N Time) : TimedAction N Time → Bool
  | .other _ => clock + timing.heartbeatIntervalSeconds ≤ timed.clock
  | _ => true

/-- The steps of the protocol keep what agreement needs. -/
def Guarded (timed : TimedNetwork N Time) : TimedAction N Time → Prop
  | .other action => timed.network.Safeguarded action
  | _ => True

instance (timed : TimedNetwork N Time) (action : TimedAction N Time) :
    Decidable (timed.Guarded action) :=
  match action with
  | .other action => inferInstanceAs (Decidable (timed.network.Safeguarded action))
  | .wait _ => .isTrue trivial
  | .heartbeat _ _ => .isTrue trivial
  | .hear _ _ _ => .isTrue trivial
  | .lose _ _ _ => .isTrue trivial
  | .countPeers _ => .isTrue trivial
  | .start _ => .isTrue trivial
  | .stop _ => .isTrue trivial

variable {timing : Timing N Time} {host : Fin N → Host}
  {multicastCidr : IPNetwork} {instanceId : Fin N → Nat}
  {filters : Fin N → Filters} {clock : Time}

omit [Field Time] [LinearOrder Time] [IsStrictOrderedRing Time] in
theorem fresh_started (instance_ : Fin N) :
    (started host multicastCidr instanceId filters clock).fresh instance_ =
      false := by
  simp [started, together, begun]

theorem Untouched.meeting {network : Network N}
    (untouched : Untouched host multicastCidr instanceId filters network) :
    network.Meeting := by
  obtain ⟨numPeers, rfl⟩ := untouched
  exact Network.meeting_ofGanglia
    (fun _ => GanglionPlexoMulticast.started_idle ..)
    fun _ => Registry.starts_startup ..

theorem Untouched.countPeers {network next : Network N} {instance_ : Fin N}
    {numPeers : Nat}
    (untouched : Untouched host multicastCidr instanceId filters network)
    (taken : network.step ownType host
      (.act instance_ (.countPeers numPeers)) = some next) :
    Untouched host multicastCidr instanceId filters next := by
  obtain ⟨earlier, rfl⟩ := untouched
  refine ⟨Function.update earlier instance_ numPeers, ?_⟩
  obtain rfl := Option.some.inj taken
  unfold Network.record Network.ofGanglia
  congr 1
  funext other
  by_cases same : other = instance_
  · subst same
    rw [Function.update_self, Function.update_self]
    rfl
  · rw [Function.update_of_ne same, Function.update_of_ne same]

section Runs

variable {start finish : TimedNetwork N Time}
  {steps : List (TimedNetwork N Time × TimedAction N Time)}

/-- The instances meet, although none of them knew of another at the start. -/
theorem meeting_of_path (distinct : Function.Injective instanceId)
    (fits : timing.Fits)
    (prompt : timing.lateness + timing.delay + timing.lateness <
      timing.halfInterval)
    (path : Path (step timing host)
      (started host multicastCidr instanceId filters clock) steps finish)
    (reliable : Along (fun _ action => action.isReliable = true) steps)
    (waits : Along (fun timed action =>
      timed.waitsStartup timing clock action = true) steps)
    (guarded : Along Guarded steps)
    (runs : ∀ instance_, finish.running instance_ = true) :
    Untouched host multicastCidr instanceId filters finish.network ∨
      clock + timing.heartbeatIntervalSeconds ≤ finish.clock ∧
        finish.network.Meeting := by
  induction path with
  | refl => exact .inl ⟨fun _ => 0, rfl⟩
  | @snoc steps middle finish action before taken induction =>
      obtain ⟨_, reliableBefore⟩ := along_cons.mp reliable
      obtain ⟨waitsHere, waitsBefore⟩ := along_cons.mp waits
      obtain ⟨guardedHere, guardedBefore⟩ := along_cons.mp guarded
      have ran : ∀ instance_, middle.running instance_ = true := by
        intro instance_
        have begun := (fresh_of_path before (fresh_started instance_)).1
        exact (running_of_path (Path.snoc .refl taken) begun
          (runs instance_)).1
      have earlier := induction reliableBefore waitsBefore guardedBefore ran
      have counts (passed : clock + timing.heartbeatIntervalSeconds ≤
          middle.clock) : middle.network.CountsAll := by
        have halves := timing.halfInterval_add
        refine countsAll_of_together ?_ fits before reliableBefore ran ?_
        · exact distinct
        · linarith
      have forward := (clock_of_step taken).1
      have unchanged (same : finish.network = middle.network) :
          Untouched host multicastCidr instanceId filters finish.network ∨
            clock + timing.heartbeatIntervalSeconds ≤ finish.clock ∧
              finish.network.Meeting := by
        rw [same]
        rcases earlier with untouched | ⟨passed, meeting⟩
        · exact .inl untouched
        · exact .inr ⟨passed.trans forward, meeting⟩
      cases change_of_step taken with
      | wait _ _ => exact unchanged rfl
      | @heartbeat sender fails _ _ => cases fails <;> exact unchanged rfl
      | hear _ _ => exact unchanged rfl
      | lose _ => exact unchanged rfl
      | countPeers _ _ counted =>
          rcases earlier with untouched | ⟨passed, meeting⟩
          · exact .inl (untouched.countPeers counted)
          · exact .inr ⟨passed, meeting.step (counts passed)
              ⟨rfl, rfl, rfl, rfl⟩ counted⟩
      | start _ => exact unchanged rfl
      | stop _ => exact unchanged rfl
      | other _ _ acted =>
          have passed : clock + timing.heartbeatIntervalSeconds ≤
              middle.clock := of_decide_eq_true waitsHere
          have meeting : middle.network.Meeting := by
            rcases earlier with untouched | ⟨_, meeting⟩
            · exact untouched.meeting
            · exact meeting
          exact .inr ⟨passed,
            meeting.step (counts passed) guardedHere acted⟩

omit [IsStrictOrderedRing Time] in
theorem decided_of_step {timed next : TimedNetwork N Time}
    {action : TimedAction N Time} (meeting : timed.network.Meeting)
    (guarded : timed.Guarded action)
    (taken : timed.step timing host action = some next) {name : String}
    {multicastAddress : IPAddress}
    (decided : timed.network.Decided name multicastAddress) :
    next.network.Decided name multicastAddress := by
  have conserved := meeting.agreeing.accounted.conserved
  cases change_of_step taken with
  | @heartbeat sender fails _ _ => cases fails <;> exact decided
  | countPeers _ _ counted => exact decided.step conserved rfl counted
  | other _ _ acted =>
      exact decided.step conserved guarded.keeps acted
  | _ => exact decided

omit [IsStrictOrderedRing Time] in
theorem decided_of_path (path : Path (step timing host) start steps finish)
    (meets : ∀ entry ∈ steps, entry.1.network.Meeting)
    (guarded : Along Guarded steps) {name : String}
    {multicastAddress : IPAddress}
    (decided : start.network.Decided name multicastAddress) :
    finish.network.Decided name multicastAddress := by
  induction path with
  | refl => exact decided
  | snoc before taken induction =>
      obtain ⟨guardedHere, guardedBefore⟩ := along_cons.mp guarded
      have meeting := meets _ List.mem_cons_self
      have earlier := induction
        (fun entry member => meets entry (List.mem_cons_of_mem _ member))
        guardedBefore
      exact decided_of_step meeting guardedHere taken earlier

end Runs

end TimedNetwork

/-- A group that starts together and hears its heartbeats in time meets without
any assumption on how many peers an instance counts: once an instance has a
synapse for a type of a user on an address, every synapse for the type is on
that address, at every instance and from then on, and so is every address that a
call for the type returns. -/
theorem punctual_rendezvous {N : Nat} {Time : Type} [Field Time]
    [LinearOrder Time] [IsStrictOrderedRing Time] {timing : Timing N Time}
    {host : Fin N → Host} {multicastCidr : IPNetwork}
    {instanceId : Fin N → Nat} {filters : Fin N → Filters} {clock : Time}
    {early late : List (TimedNetwork N Time × TimedAction N Time)}
    {middle finish : TimedNetwork N Time}
    (distinct : Function.Injective instanceId) (fits : timing.Fits)
    (prompt : timing.lateness + timing.delay + timing.lateness <
      timing.halfInterval)
    (before : Path (TimedNetwork.step timing host)
      (.started host multicastCidr instanceId filters clock) early middle)
    (after : Path (TimedNetwork.step timing host) middle late finish)
    (reliable : Along (fun _ action => action.isReliable = true)
      (late ++ early))
    (waits : Along (fun timed action =>
      timed.waitsStartup timing clock action = true) (late ++ early))
    (guarded : Along TimedNetwork.Guarded (late ++ early))
    (runs : ∀ instance_, finish.running instance_ = true)
    {name : String} (isUser : IsUserType name) {left : Fin N}
    {meetingPoint : IPAddress}
    (there : (middle.network.ganglion left).registry.IsOn name
      meetingPoint) :
    (∀ right multicastAddress,
        (finish.network.ganglion right).registry.IsOn name multicastAddress →
          multicastAddress = meetingPoint) ∧
      ∀ multicastAddress, (name, multicastAddress) ∈ finish.network.returns →
        multicastAddress = meetingPoint := by
  have meets {steps : List (TimedNetwork N Time × TimedAction N Time)}
      {state : TimedNetwork N Time}
      (path : Path (TimedNetwork.step timing host)
        (.started host multicastCidr instanceId filters clock) steps state)
      (inside : ∀ entry ∈ steps, entry ∈ late ++ early)
      (ran : ∀ instance_, state.running instance_ = true) :
      state.network.Meeting := by
    rcases TimedNetwork.meeting_of_path distinct fits prompt path
        (fun entry member => reliable entry (inside entry member))
        (fun entry member => waits entry (inside entry member))
        (fun entry member => guarded entry (inside entry member)) ran with
      untouched | ⟨_, meeting⟩
    · exact untouched.meeting
    · exact meeting
  have ran {state : TimedNetwork N Time}
      {soon rest : List (TimedNetwork N Time × TimedAction N Time)}
      (path : Path (TimedNetwork.step timing host)
        (.started host multicastCidr instanceId filters clock) soon state)
      (goesOn : Path (TimedNetwork.step timing host) state rest finish)
      (instance_ : Fin N) : state.running instance_ = true := by
    have begun := (TimedNetwork.fresh_of_path path
      (TimedNetwork.fresh_started instance_)).1
    exact (TimedNetwork.running_of_path goesOn begun (runs instance_)).1
  have first := meets before
    (fun entry member => List.mem_append_right _ member) (ran before after)
  have last := meets (before.append after) (fun _ member => member) runs
  have meetsOnTheWay : ∀ entry ∈ late, entry.1.network.Meeting := by
    rintro ⟨state, action⟩ member
    obtain ⟨newer, older, rfl⟩ := List.append_of_mem member
    obtain ⟨next, soon, taken, rest⟩ := after.split
    have path := before.append soon
    apply meets path _
      (ran path ((Transition.Path.refl.snoc taken).append rest))
    intro entry inside
    rcases List.mem_append.mp inside with isOlder | isEarly
    · exact List.mem_append_left _
        (List.mem_append_right _ (List.mem_cons_of_mem _ isOlder))
    · exact List.mem_append_right _ isEarly
  have guardedLate : Along TimedNetwork.Guarded late :=
    fun entry member => guarded entry (List.mem_append_left _ member)
  have decided := TimedNetwork.decided_of_path after meetsOnTheWay guardedLate
    (first.placed left name meetingPoint isUser there)
  constructor
  · intro right multicastAddress isOn
    exact last.agreeing.decided_unique
      (last.placed right name multicastAddress isUser isOn) decided
  · intro multicastAddress returned
    exact last.agreeing.decided_unique
      (last.agreeing.decided_of_returns returned) decided

namespace Punctual

def members : List (Fin 3) := [Trio.first, Trio.second, Trio.third]

def beat (clock : Rat) : List (TimedAction 3 Rat) :=
  members.map (.heartbeat · false) ++
    members.flatMap fun source =>
      (members.filter (· ≠ source)).map fun target => .hear source target clock

def count : List (TimedAction 3 Rat) :=
  members.map .countPeers

def acquires : List (TimedAction 3 Rat) :=
  count ++ beat 0 ++ [.wait 15] ++ count ++ [.wait (15 / 2)] ++
    beat (45 / 2) ++ [.wait (15 / 2)] ++ count ++
    Rendezvous.acquires.map .other

def start : TimedNetwork 3 Rat :=
  .started (fun _ => .permissive) .sample (fun instance_ => 10 + instance_.val)
    (fun _ => {}) 0

def met : TimedNetwork 3 Rat :=
  (exec (TimedNetwork.step Heartbeats.timing fun _ => .permissive) start
    acquires).getD start

theorem exec_acquires :
    exec (TimedNetwork.step Heartbeats.timing fun _ => .permissive) start
      acquires = some met :=
  exec_eq_getD (by decide +kernel)

def settled : TimedNetwork 3 Rat :=
  (exec (TimedNetwork.step Heartbeats.timing fun _ => .permissive) met
    (Rendezvous.learns.map .other)).getD start

theorem exec_learns :
    exec (TimedNetwork.step Heartbeats.timing fun _ => .permissive) met
      (Rendezvous.learns.map .other) = some settled :=
  exec_eq_getD (by decide +kernel)

end Punctual

theorem punctual_rendezvous_learner :
    ∃ early late,
      Path (TimedNetwork.step Heartbeats.timing fun _ => .permissive)
        Punctual.start early Punctual.met ∧
      Path (TimedNetwork.step Heartbeats.timing fun _ => .permissive)
        Punctual.met late Punctual.settled ∧
      (Punctual.settled.network.ganglion Trio.third).registry.IsOn
        "dev.plexo.Foo.json" Rendezvous.address := by
  have before := path_of_exec Punctual.exec_acquires
  have after := path_of_exec Punctual.exec_learns
  have there : (Punctual.met.network.ganglion Trio.first).registry.IsOn
      "dev.plexo.Foo.json" Rendezvous.address :=
    ⟨6, by decide +kernel, by decide +kernel⟩
  have learned : ((Punctual.settled.network.ganglion
      Trio.third).registry.base.synapses "dev.plexo.Foo.json").isSome = true := by
    decide +kernel
  obtain ⟨synapse, found⟩ := Option.isSome_iff_exists.mp learned
  have same := (punctual_rendezvous (by decide +kernel) (by decide +kernel)
    (by decide +kernel) before after (by decide +kernel) (by decide +kernel)
    (by decide +kernel) (by decide +kernel) (by decide +kernel) there).1
    Trio.third _ ⟨synapse, found, rfl⟩
  exact ⟨_, _, before, after, ⟨synapse, found, same⟩⟩

end Plexo
