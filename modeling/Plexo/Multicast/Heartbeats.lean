import Mathlib.Algebra.Order.Field.Basic
import Plexo.Library.Watching
import Plexo.Multicast.CleanUp

/-!
# Heartbeats and the number of peers

Every instance sends heartbeats in a loop, notes when it heard each other
instance last, and recomputes the number of its peers in a second loop.  Both
loops sleep between their rounds, so the clock is part of the state here: it
moves only while no loop and no heartbeat is overdue.

Times are elements of an ordered field, and what the code computes with floats is
rounded: all that is known of the rounding is that it is monotone and leaves zero
and the interval, which are floats, as they are.  Half of a float is a float.

The rest of an instance is the one of `Plexo.Multicast.Network`, for which the
number of peers changes by a step of its own.
-/

namespace Plexo

open PersistentMap Transition Watching

/-- `ilen`. -/
def ilen {α : Type} (iterable : List α) : Nat :=
  iterable.foldl (fun count _ => count + 1) 0

theorem ilen_eq_length {α : Type} (iterable : List α) :
    ilen iterable = iterable.length := by
  have counted : ∀ start, iterable.foldl (fun count _ => count + 1) start =
      start + iterable.length := by
    induction iterable with
    | nil => simp
    | cons first iterable induction =>
        intro start
        rw [List.foldl_cons, induction, List.length_cons]
        omega
  exact (counted 0).trans (Nat.zero_add _)

/-- What an instance knows about its peers, and when its loops wake up. -/
structure Heartbeating (Time : Type) where
  /-- `_heartbeats`: when each instance was heard last. -/
  heartbeats : LastHeard Nat Time
  /-- When `_heartbeat_loop` sends the next heartbeat. -/
  beatsAt : Time
  /-- When `_num_peers_loop` counts next. -/
  countsAt : Time

namespace Heartbeating

variable {Time : Type} [Field Time] [LinearOrder Time]

/-- `_heartbeat_reaction`; an instance does not look whose heartbeat it is. -/
def heartbeatReaction (heartbeating : Heartbeating Time)
    (heartbeat : PlexoHeartbeat) (now : Time) : Heartbeating Time :=
  { heartbeating with
    heartbeats := heartbeating.heartbeats.insert heartbeat.instanceId now }

/-- The number of peers that a round of `_num_peers_loop` computes. -/
def numPeers (heartbeating : Heartbeating Time) (round : Time → Time)
    (currentTime heartbeatIntervalSeconds : Time) : Nat :=
  ilen ((heartbeating.heartbeats.entries.map Sigma.snd).filter
    fun heartbeatTime =>
      round (currentTime - heartbeatTime) ≤ heartbeatIntervalSeconds)

theorem numPeers_eq (heartbeating : Heartbeating Time) (round : Time → Time)
    (currentTime heartbeatIntervalSeconds : Time) :
    heartbeating.numPeers round currentTime heartbeatIntervalSeconds =
      (recent (fun now time => round (now - time)) heartbeating.heartbeats
        currentTime heartbeatIntervalSeconds).length := by
  unfold numPeers recent
  rw [ilen_eq_length, List.length_map, List.filter_map, List.length_map]
  rfl

end Heartbeating

/-- The settings of a group, and what is known of its times. -/
structure Timing (N : Nat) (Time : Type) [Field Time] [LinearOrder Time] where
  heartbeatIntervalSeconds : Time
  /-- What `random.random()` gave to each instance, unless it raised. -/
  random : Fin N → Option Time
  /-- A loop wakes up at most this late. -/
  lateness : Time
  /-- A heartbeat is handed to the reaction at most this long after it was sent. -/
  delay : Time
  /-- The float that an exact result is rounded to. -/
  round : Time → Time
  round_mono : Monotone round
  round_zero : round 0 = 0
  round_interval : round heartbeatIntervalSeconds = heartbeatIntervalSeconds
  interval_nonneg : 0 ≤ heartbeatIntervalSeconds
  random_nonneg : ∀ instance_, ∀ number ∈ random instance_, 0 ≤ number
  random_lt_one : ∀ instance_, ∀ number ∈ random instance_, number < 1
  lateness_nonneg : 0 ≤ lateness
  delay_nonneg : 0 ≤ delay

namespace Timing

variable {N : Nat} {Time : Type} [Field Time] [LinearOrder Time]

/-- `half_interval` of one loop, and `check_seconds` of the other one. -/
def halfInterval (timing : Timing N Time) : Time :=
  timing.heartbeatIntervalSeconds / 2

/-- `random_sleep_time`. -/
def randomSleepTime (timing : Timing N Time) (instance_ : Fin N) : Time :=
  match timing.random instance_ with
  | some random =>
      timing.round (timing.round (random * timing.halfInterval) +
        timing.halfInterval)
  | none => timing.heartbeatIntervalSeconds

end Timing

/-- A group of instances with a clock, which is what `timer` shows. -/
structure TimedNetwork (N : Nat) (Time : Type) where
  clock : Time
  network : Network N
  /-- Whether the process of an instance is still to be started. -/
  fresh : Fin N → Bool
  running : Fin N → Bool
  heartbeating : Fin N → Heartbeating Time
  /-- When the heartbeats on their way from one instance to another were sent. -/
  underway : Fin N → Fin N → List Time

inductive TimedAction (N : Nat) (Time : Type) where
  | wait (duration : Time)
  /-- A round of `_heartbeat_loop`; if `transmit` raises, the loop goes on. -/
  | heartbeat (instance_ : Fin N) (fails : Bool)
  | hear (source target : Fin N) (sentAt : Time)
  | lose (source target : Fin N) (sentAt : Time)
  /-- A round of `_num_peers_loop`. -/
  | countPeers (instance_ : Fin N)
  /-- `startup` of an instance starts its loops. -/
  | start (instance_ : Fin N)
  /-- The process of an instance ends. -/
  | stop (instance_ : Fin N)
  | other (action : NetworkAction N)

def TimedAction.isReliable {N : Nat} {Time : Type} :
    TimedAction N Time → Bool
  | .heartbeat _ fails => !fails
  | .lose _ _ _ => false
  | _ => true

namespace NetworkAction

variable {N : Nat}

def actor? : NetworkAction N → Option (Fin N)
  | .act instance_ _ => some instance_
  | .deliver envelope => some envelope.target
  | .lose _ => none

def countsPeers : NetworkAction N → Bool
  | .act _ (.countPeers _) => true
  | _ => false

end NetworkAction

namespace GanglionPlexoMulticast

theorem approvalReaction_numPeers (host : Host)
    (ganglion : GanglionPlexoMulticast) (approval : PlexoApproval) :
    (ganglion.approvalReaction host approval).1.numPeers =
      ganglion.numPeers := by
  unfold approvalReaction commitApproval
  dsimp only
  split
  · split
    · rfl
    · split
      · rfl
      · split
        · rfl
        · split <;> rfl
  · rfl

theorem react_numPeers (host : Host) (ganglion : GanglionPlexoMulticast)
    (message : Message) :
    (ganglion.react host message).1.numPeers = ganglion.numPeers := by
  cases message with
  | heartbeat body => rfl
  | preparation body =>
      simp only [react, preparationReaction]
      split
      · rfl
      · split <;> rfl
  | promise body =>
      simp only [react, promiseReaction]
      split <;> rfl
  | rejection body =>
      simp only [react, rejectionReaction]
      split <;> rfl
  | proposal body =>
      simp only [react, proposalReaction]
      split
      · rfl
      · split <;> rfl
  | approval body => exact approvalReaction_numPeers host ganglion body

theorem numPeers_of_step {host : Host} {ganglion : GanglionPlexoMulticast}
    {input : Input} {result : GanglionPlexoMulticast × List Output}
    (taken : ganglion.step host input = some result)
    (others : ∀ numPeers, input ≠ .own (.countPeers numPeers)) :
    result.1.numPeers = ganglion.numPeers := by
  cases input with
  | receive message =>
      exact Option.some.inj taken ▸ react_numPeers host ganglion message
  | own action =>
      have acted : ganglion.act host action = some result := taken
      cases ownStep_of_act acted with
      | countPeers => exact absurd rfl (others _)
      | @checkPromises call preparation cancelled popped found canPop =>
          unfold checkPromises
          dsimp only
          split
          · rfl
          · split <;> rfl
      | @checkApprovals call proposal multicastAddress cancelled found =>
          unfold checkApprovals
          dsimp only
          split <;> rfl
      | approve pending => exact approvalReaction_numPeers host _ _
      | _ => rfl

end GanglionPlexoMulticast

namespace Network

variable {N : Nat} {decoding : Decoding} {host : Fin N → Host}
  {network next : Network N} {action : NetworkAction N}

theorem instanceId_of_step
    (taken : network.step decoding host action = some next)
    (instance_ : Fin N) :
    (next.ganglion instance_).instanceId =
      (network.ganglion instance_).instanceId := by
  cases move_of_step taken with
  | lose chosen => rfl
  | @take acting input before result ready resultTaken =>
      by_cases same : instance_ = acting
      · subst same
        rw [record_ganglion_self]
        exact (GanglionPlexoMulticast.booksFollow_of_step ""
          resultTaken).instanceId
      · rw [record_ganglion_other _ _ same, ready.ganglion_eq]

theorem numPeers_of_step
    (taken : network.step decoding host action = some next)
    (others : action.countsPeers = false) (instance_ : Fin N) :
    (next.ganglion instance_).numPeers =
      (network.ganglion instance_).numPeers := by
  cases move_of_step taken with
  | lose chosen => rfl
  | @take acting input before result ready resultTaken =>
      by_cases same : instance_ = acting
      · subst same
        rw [record_ganglion_self]
        apply GanglionPlexoMulticast.numPeers_of_step resultTaken
        rintro numPeers rfl
        cases ready with
        | own => cases others
      · rw [record_ganglion_other _ _ same, ready.ganglion_eq]

theorem numPeers_of_countPeers {instance_ : Fin N} {numPeers : Nat}
    (taken : network.step decoding host
      (.act instance_ (.countPeers numPeers)) = some next) (other : Fin N) :
    (next.ganglion other).numPeers =
      if other = instance_ then numPeers
      else (network.ganglion other).numPeers := by
  have recorded : ((network.ganglion instance_).act (host instance_)
      (.countPeers numPeers)).map (network.record instance_) = some next :=
    taken
  obtain ⟨result, counted, rfl⟩ := Option.map_eq_some_iff.mp recorded
  cases counted
  split
  · next same =>
      subst same
      rw [record_ganglion_self]
  · next different =>
      rw [record_ganglion_other _ _ different]

end Network

namespace TimedNetwork

variable {N : Nat} {Time : Type} [Field Time] [LinearOrder Time]

/-- A group that nobody of has been started yet. -/
def begin_ (network : Network N) (clock : Time) : TimedNetwork N Time :=
  { clock
    network
    fresh := fun _ => true
    running := fun _ => false
    heartbeating := fun _ =>
      { heartbeats := ∅, beatsAt := clock, countsAt := clock }
    underway := fun _ _ => [] }

/-- Nothing that runs is overdue at `time`. -/
def InTime (timing : Timing N Time) (timed : TimedNetwork N Time)
    (time : Time) : Prop :=
  ∀ instance_, timed.running instance_ = true →
    time ≤ (timed.heartbeating instance_).beatsAt + timing.lateness ∧
    time ≤ (timed.heartbeating instance_).countsAt + timing.lateness ∧
    ∀ source, ∀ sentAt ∈ timed.underway source instance_,
      time ≤ sentAt + timing.delay

instance (timing : Timing N Time) (timed : TimedNetwork N Time)
    (time : Time) : Decidable (timed.InTime timing time) :=
  inferInstanceAs (Decidable (∀ _, _ → _))

def setHeartbeating (timed : TimedNetwork N Time) (instance_ : Fin N)
    (heartbeating : Heartbeating Time) : TimedNetwork N Time :=
  { timed with
    heartbeating :=
      Function.update timed.heartbeating instance_ heartbeating }

def setUnderway (timed : TimedNetwork N Time) (source target : Fin N)
    (sentAt : List Time) : TimedNetwork N Time :=
  { timed with
    underway := Function.update timed.underway source
      (Function.update (timed.underway source) target sentAt) }

def sendHeartbeat (timed : TimedNetwork N Time) (instance_ : Fin N) :
    TimedNetwork N Time :=
  { timed with
    underway := Function.update timed.underway instance_ fun target =>
      if target = instance_ then timed.underway instance_ target
      else timed.clock :: timed.underway instance_ target }

/-- A heartbeat is handed to `_heartbeat_reaction`. -/
def hear (timed : TimedNetwork N Time) (source target : Fin N)
    (sentAt : Time) : TimedNetwork N Time :=
  (timed.setUnderway source target
    ((timed.underway source target).erase sentAt)).setHeartbeating target
      ((timed.heartbeating target).heartbeatReaction
        ⟨(timed.network.ganglion source).instanceId⟩ timed.clock)

/-- The loops of an instance are started, which has heard nothing so far. -/
def startLoops (timed : TimedNetwork N Time) (instance_ : Fin N) :
    TimedNetwork N Time :=
  { timed with
    fresh := Function.update timed.fresh instance_ false
    running := Function.update timed.running instance_ true
    heartbeating := Function.update timed.heartbeating instance_
      { timed.heartbeating instance_ with
        beatsAt := timed.clock
        countsAt := timed.clock }
    underway := fun source =>
      Function.update (timed.underway source) instance_ [] }

def numPeers (timing : Timing N Time) (timed : TimedNetwork N Time)
    (instance_ : Fin N) : Nat :=
  (timed.heartbeating instance_).numPeers timing.round timed.clock
    timing.heartbeatIntervalSeconds

/-- One step of the group, or the passing of time. -/
def step (timing : Timing N Time) (host : Fin N → Host)
    (timed : TimedNetwork N Time) :
    TimedAction N Time → Option (TimedNetwork N Time)
  | .wait duration =>
      if 0 ≤ duration ∧ timed.InTime timing (timed.clock + duration) then
        some { timed with clock := timed.clock + duration }
      else
        none
  | .heartbeat instance_ fails =>
      if timed.running instance_ = true ∧
          (timed.heartbeating instance_).beatsAt ≤ timed.clock then
        some ((if fails then timed else
          timed.sendHeartbeat instance_).setHeartbeating instance_
            { timed.heartbeating instance_ with
              beatsAt := timed.clock + timing.randomSleepTime instance_ })
      else
        none
  | .hear source target sentAt =>
      if timed.running target = true ∧
          sentAt ∈ timed.underway source target then
        some (timed.hear source target sentAt)
      else
        none
  | .lose source target sentAt =>
      if sentAt ∈ timed.underway source target then
        some (timed.setUnderway source target
          ((timed.underway source target).erase sentAt))
      else
        none
  | .countPeers instance_ =>
      if timed.running instance_ = true ∧
          (timed.heartbeating instance_).countsAt ≤ timed.clock then
        (timed.network.step ownType host
          (.act instance_ (.countPeers (timed.numPeers timing instance_)))).map
          fun network =>
            { timed with network }.setHeartbeating instance_
              { timed.heartbeating instance_ with
                countsAt := timed.clock + timing.halfInterval }
      else
        none
  | .start instance_ =>
      if timed.fresh instance_ = true then
        some (timed.startLoops instance_)
      else
        none
  | .stop instance_ =>
      if timed.running instance_ = true then
        some { timed with
          running := Function.update timed.running instance_ false }
      else
        none
  | .other action =>
      if action.countsPeers = false ∧
          ∀ instance_ ∈ action.actor?, timed.running instance_ = true then
        (timed.network.step ownType host action).map fun network =>
          { timed with network }
      else
        none

/-- What each action needs and does. -/
inductive Change (timing : Timing N Time) (host : Fin N → Host)
    (timed : TimedNetwork N Time) :
    TimedAction N Time → TimedNetwork N Time → Prop where
  | wait {duration : Time} :
      0 ≤ duration →
      timed.InTime timing (timed.clock + duration) →
      Change timing host timed (.wait duration)
        { timed with clock := timed.clock + duration }
  | heartbeat {instance_ : Fin N} {fails : Bool} :
      timed.running instance_ = true →
      (timed.heartbeating instance_).beatsAt ≤ timed.clock →
      Change timing host timed (.heartbeat instance_ fails)
        ((if fails then timed else
          timed.sendHeartbeat instance_).setHeartbeating instance_
            { timed.heartbeating instance_ with
              beatsAt := timed.clock + timing.randomSleepTime instance_ })
  | hear {source target : Fin N} {sentAt : Time} :
      timed.running target = true →
      sentAt ∈ timed.underway source target →
      Change timing host timed (.hear source target sentAt)
        (timed.hear source target sentAt)
  | lose {source target : Fin N} {sentAt : Time} :
      sentAt ∈ timed.underway source target →
      Change timing host timed (.lose source target sentAt)
        (timed.setUnderway source target
          ((timed.underway source target).erase sentAt))
  | countPeers {instance_ : Fin N} {network : Network N} :
      timed.running instance_ = true →
      (timed.heartbeating instance_).countsAt ≤ timed.clock →
      timed.network.step ownType host (.act instance_
        (.countPeers (timed.numPeers timing instance_))) = some network →
      Change timing host timed (.countPeers instance_)
        ({ timed with network }.setHeartbeating instance_
          { timed.heartbeating instance_ with
            countsAt := timed.clock + timing.halfInterval })
  | start {instance_ : Fin N} :
      timed.fresh instance_ = true →
      Change timing host timed (.start instance_) (timed.startLoops instance_)
  | stop {instance_ : Fin N} :
      timed.running instance_ = true →
      Change timing host timed (.stop instance_)
        { timed with
          running := Function.update timed.running instance_ false }
  | other {action : NetworkAction N} {network : Network N} :
      action.countsPeers = false →
      (∀ instance_ ∈ action.actor?, timed.running instance_ = true) →
      timed.network.step ownType host action = some network →
      Change timing host timed (.other action) { timed with network }

theorem change_of_step {timing : Timing N Time} {host : Fin N → Host}
    {timed next : TimedNetwork N Time} {action : TimedAction N Time}
    (taken : timed.step timing host action = some next) :
    Change timing host timed action next := by
  cases action with
  | wait duration =>
      obtain ⟨⟨passes, inTime⟩, ⟨⟩⟩ := Option.ite_none_right_eq_some.mp taken
      exact .wait passes inTime
  | heartbeat instance_ fails =>
      obtain ⟨⟨runs, due⟩, ⟨⟩⟩ := Option.ite_none_right_eq_some.mp taken
      exact .heartbeat runs due
  | hear source target sentAt =>
      obtain ⟨⟨runs, underway⟩, ⟨⟩⟩ := Option.ite_none_right_eq_some.mp taken
      exact .hear runs underway
  | lose source target sentAt =>
      obtain ⟨underway, ⟨⟩⟩ := Option.ite_none_right_eq_some.mp taken
      exact .lose underway
  | countPeers instance_ =>
      obtain ⟨⟨runs, due⟩, counted⟩ := Option.ite_none_right_eq_some.mp taken
      obtain ⟨network, networkTaken, rfl⟩ := Option.map_eq_some_iff.mp counted
      exact .countPeers runs due networkTaken
  | start instance_ =>
      obtain ⟨fresh, ⟨⟩⟩ := Option.ite_none_right_eq_some.mp taken
      exact .start fresh
  | stop instance_ =>
      obtain ⟨runs, ⟨⟩⟩ := Option.ite_none_right_eq_some.mp taken
      exact .stop runs
  | other action =>
      obtain ⟨⟨others, runs⟩, acted⟩ := Option.ite_none_right_eq_some.mp taken
      obtain ⟨network, networkTaken, rfl⟩ := Option.map_eq_some_iff.mp acted
      exact .other others runs networkTaken

def heardBy (watcher : Fin N)
    (steps : List (TimedNetwork N Time × TimedAction N Time)) :
    List (Nat × Time) :=
  steps.filterMap fun entry =>
    match entry.2 with
    | .hear source target _ =>
        if target = watcher then
          some ((entry.1.network.ganglion source).instanceId, entry.1.clock)
        else
          none
    | _ => none

section Runs

variable {timing : Timing N Time} {host : Fin N → Host}
  {start finish : TimedNetwork N Time}
  {steps : List (TimedNetwork N Time × TimedAction N Time)}

omit [Field Time] [LinearOrder Time] in
theorem heartbeats_update (timed : TimedNetwork N Time)
    (watcher instance_ : Fin N) {heartbeating : Heartbeating Time}
    (same : heartbeating.heartbeats =
      (timed.heartbeating instance_).heartbeats) :
    (Function.update timed.heartbeating instance_ heartbeating
      watcher).heartbeats = (timed.heartbeating watcher).heartbeats := by
  by_cases isWatcher : watcher = instance_
  · subst isWatcher
    rw [Function.update_self, same]
  · rw [Function.update_of_ne isWatcher]

theorem heartbeats_of_step {timed next : TimedNetwork N Time}
    {action : TimedAction N Time} (watcher : Fin N)
    (taken : timed.step timing host action = some next) :
    (next.heartbeating watcher).heartbeats =
      (heardBy watcher [(timed, action)]).foldr
        (fun sign table => table.insert sign.1 sign.2)
        (timed.heartbeating watcher).heartbeats := by
  cases change_of_step taken with
  | wait _ _ => rfl
  | @heartbeat instance_ fails _ _ =>
      cases fails with
      | false => exact timed.heartbeats_update watcher _ rfl
      | true => exact timed.heartbeats_update watcher _ rfl
  | @hear source target sentAt _ _ =>
      by_cases isWatcher : watcher = target
      · subst isWatcher
        simp [heardBy, TimedNetwork.hear, setHeartbeating,
          Heartbeating.heartbeatReaction]
      · simp [heardBy, TimedNetwork.hear, setHeartbeating, setUnderway,
          Ne.symm isWatcher, Function.update_of_ne isWatcher]
  | lose _ => rfl
  | countPeers _ _ _ => exact timed.heartbeats_update watcher _ rfl
  | start _ => exact timed.heartbeats_update watcher _ rfl
  | stop _ => rfl
  | other _ _ _ => rfl

theorem heartbeats_of_path
    (path : Path (step timing host) start steps finish) (watcher : Fin N)
    (blank : (start.heartbeating watcher).heartbeats = ∅) :
    (finish.heartbeating watcher).heartbeats =
      track (heardBy watcher steps) := by
  induction path with
  | refl => exact blank
  | @snoc steps middle finish action _ taken induction =>
      rw [heartbeats_of_step watcher taken, induction, track, track,
        ← List.foldr_append, heardBy, heardBy, heardBy, ← List.filterMap_append]
      rfl

variable [IsStrictOrderedRing Time]

/-- What was heard is in the order of the clock. -/
theorem chronological_of_path
    (path : Path (step timing host) start steps finish) (watcher : Fin N) :
    Chronological (heardBy watcher steps) ∧
      ∀ sign ∈ heardBy watcher steps, sign.2 ≤ finish.clock := by
  induction path with
  | refl => simp [heardBy, Chronological]
  | @snoc steps middle finish action _ taken induction =>
      obtain ⟨ordered, past⟩ := induction
      have forward : middle.clock ≤ finish.clock := by
        cases change_of_step taken with
        | wait passes _ => exact le_add_of_nonneg_right passes
        | @heartbeat instance_ fails _ _ => cases fails <;> exact le_refl _
        | _ => exact le_refl _
      have here : ∀ sign ∈ heardBy watcher [(middle, action)],
          sign.2 = middle.clock := by
        intro sign member
        obtain ⟨entry, isThis, heard⟩ := List.mem_filterMap.mp member
        obtain rfl := List.mem_singleton.mp isThis
        cases action with
        | hear source target sentAt =>
            dsimp only at heard
            split at heard
            · cases heard
              rfl
            · cases heard
        | _ => cases heard
      have parts : heardBy watcher ((middle, action) :: steps) =
          heardBy watcher [(middle, action)] ++ heardBy watcher steps := by
        rw [heardBy, heardBy, heardBy, ← List.filterMap_append]
        rfl
      have single : (heardBy watcher [(middle, action)]).length ≤ 1 :=
        List.length_filterMap_le _ _
      rw [parts]
      constructor
      · rw [Chronological, List.pairwise_append]
        refine ⟨?_, ordered, ?_⟩
        · generalize heardBy watcher [(middle, action)] = signs at single
          cases signs with
          | nil => exact .nil
          | cons sign others =>
              cases others with
              | nil => exact List.pairwise_singleton _ _
              | cons _ _ => simp at single
        · intro newer member older before
          rw [here newer member]
          exact past older before
      · intro sign member
        rcases List.mem_append.mp member with new | old
        · rw [here sign new]
          exact forward
        · exact (past sign old).trans forward

end Runs

end TimedNetwork

/-- The action is a round of `_num_peers_loop` of the instance. -/
def TimedAction.counts {N : Nat} {Time : Type} (instance_ : Fin N) :
    TimedAction N Time → Bool
  | .countPeers counting => counting = instance_
  | _ => false

namespace TimedNetwork

variable {N : Nat} {Time : Type} [Field Time] [LinearOrder Time]

theorem numPeers_of_step {timing : Timing N Time} {host : Fin N → Host}
    {timed next : TimedNetwork N Time} {action : TimedAction N Time}
    {instance_ : Fin N}
    (taken : timed.step timing host action = some next)
    (others : action.counts instance_ = false) :
    (next.network.ganglion instance_).numPeers =
      (timed.network.ganglion instance_).numPeers := by
  cases change_of_step taken with
  | @heartbeat sender fails _ _ => cases fails <;> rfl
  | @countPeers counting network _ _ counted =>
      have different : instance_ ≠ counting := by
        rintro rfl
        simp [TimedAction.counts] at others
      exact (Network.numPeers_of_countPeers counted instance_).trans
        (if_neg different)
  | other isOther _ acted =>
      exact Network.numPeers_of_step acted isOther instance_
  | _ => rfl

end TimedNetwork

/-- In every run, whatever heartbeats are lost or fail, the number of peers of an
instance is the number of different instances it heard in the interval before
`_num_peers_loop` counted last. -/
theorem num_peers_window {N : Nat} {Time : Type} [Field Time] [LinearOrder Time]
    [IsStrictOrderedRing Time] {timing : Timing N Time} {host : Fin N → Host}
    {network : Network N} {clock : Time}
    {early late : List (TimedNetwork N Time × TimedAction N Time)}
    {middle finish : TimedNetwork N Time} {instance_ : Fin N}
    (path : Path (TimedNetwork.step timing host) (.begin_ network clock)
      (late ++ (middle, .countPeers instance_) :: early) finish)
    (last : Along (fun _ action => action.counts instance_ = false) late) :
    (finish.network.ganglion instance_).numPeers =
      (((TimedNetwork.heardBy instance_ early).filter fun sign =>
        timing.round (middle.clock - sign.2) ≤
          timing.heartbeatIntervalSeconds).map Prod.fst).toFinset.card := by
  obtain ⟨next, before, counted, after⟩ := path.split
  have kept : (finish.network.ganglion instance_).numPeers =
      (next.network.ganglion instance_).numPeers := by
    apply @Path.invariant _ _ _ _ (fun timed =>
      (timed.network.ganglion instance_).numPeers =
        (next.network.ganglion instance_).numPeers) _ _ _ after last rfl
    intro timed action later same others taken
    rw [TimedNetwork.numPeers_of_step taken others, same]
  have computed : (next.network.ganglion instance_).numPeers =
      middle.numPeers timing instance_ := by
    cases TimedNetwork.change_of_step counted with
    | countPeers _ _ networkTaken =>
        exact (Network.numPeers_of_countPeers networkTaken instance_).trans
          (if_pos rfl)
  have tracked := TimedNetwork.heartbeats_of_path before instance_ rfl
  have ordered := (TimedNetwork.chronological_of_path before instance_).1
  rw [kept, computed, TimedNetwork.numPeers, Heartbeating.numPeers_eq, tracked,
    length_recent]
  congr 1
  ext source
  have older : Antitone fun time => timing.round (middle.clock - time) :=
    fun _ _ order => timing.round_mono (sub_le_sub_left order _)
  rw [List.mem_toFinset, List.mem_toFinset, mem_recent_track_iff ordered older]
  simp

namespace Heartbeats

def timing : Timing 3 Rat :=
  { heartbeatIntervalSeconds := 30
    random := fun _ => some (1 / 2)
    lateness := 1
    delay := 1
    round := id
    round_mono := monotone_id
    round_zero := rfl
    round_interval := rfl
    interval_nonneg := by decide +kernel
    random_nonneg := by decide +kernel
    random_lt_one := by decide +kernel
    lateness_nonneg := by decide +kernel
    delay_nonneg := by decide +kernel }

/-- The first instance fails to send its heartbeat, and that of the third one
does not reach it. -/
def loses : List (TimedAction 3 Rat) :=
  [.start Trio.first, .start Trio.second, .start Trio.third,
    .heartbeat Trio.first true, .heartbeat Trio.second false,
    .heartbeat Trio.third false, .hear Trio.second Trio.first 0,
    .hear Trio.second Trio.third 0, .lose Trio.third Trio.first 0,
    .hear Trio.third Trio.second 0, .wait 1]

end Heartbeats

theorem num_peers_window_loses :
    ∃ steps finish,
      Path (TimedNetwork.step Heartbeats.timing fun _ => .permissive)
        (.begin_ (.sample 3) 0) steps finish ∧
      (finish.network.ganglion Trio.first).numPeers = 1 := by
  obtain ⟨middle, before, ready⟩ := path_of_any
    (show (exec (TimedNetwork.step Heartbeats.timing fun _ => .permissive)
      (.begin_ (.sample 3) 0) Heartbeats.loses).any (fun middle =>
        middle.clock = 1 && (middle.step Heartbeats.timing
          (fun _ => .permissive) (.countPeers Trio.first)).isSome) = true by
      decide +kernel)
  rw [Bool.and_eq_true, decide_eq_true_eq] at ready
  obtain ⟨clock, counts⟩ := ready
  obtain ⟨finish, counted⟩ := Option.isSome_iff_exists.mp counts
  have path := before.snoc counted
  refine ⟨_, finish, path, ?_⟩
  rw [num_peers_window (show Path _ _ ([] ++ _) finish from path)
    (by simp [Along]), clock]
  decide +kernel

end Plexo
