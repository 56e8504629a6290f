import Plexo.Multicast.Heartbeats
import Plexo.Multicast.Rendezvous

/-!
# Who counts whom

For each pair of instances the heartbeats from one to the other are a link as in
`Plexo.Library.Watching`, so the number of peers settles on the instances that
run: whoever runs is counted, and whoever has stopped is not, an interval and a
round of the loop after the last change.  A group that starts together counts
all others before `startup` has slept one interval, and from then on the
condition under which the group agrees holds by itself.
-/

namespace Plexo

open PersistentMap Transition Watching

def TimedAction.stops {N : Nat} {Time : Type} (instance_ : Fin N) :
    TimedAction N Time → Bool
  | .stop stopped => stopped = instance_
  | _ => false

def TimedAction.starts {N : Nat} {Time : Type} (instance_ : Fin N) :
    TimedAction N Time → Bool
  | .start started => started = instance_
  | _ => false

/-- The action is a round of `_heartbeat_loop` of the instance. -/
def TimedAction.beats {N : Nat} {Time : Type} (instance_ : Fin N) :
    TimedAction N Time → Bool
  | .heartbeat sender _ => sender = instance_
  | _ => false

/-- What the action is for the heartbeats from one instance to another. -/
def TimedAction.link? {N : Nat} {Time : Type} (watcher source : Fin N) :
    TimedAction N Time → Option (LinkAction Time)
  | .wait duration => some (.wait duration)
  | .heartbeat sender fails =>
      if sender = source then some (.send fails) else none
  | .hear sender target sentAt =>
      if sender = source ∧ target = watcher then some (.hear sentAt) else none
  | .lose sender target sentAt =>
      if sender = source ∧ target = watcher then some (.lose sentAt) else none
  | .start started => if started = source then some .start else none
  | .stop stopped => if stopped = source then some .stop else none
  | _ => none

theorem TimedAction.of_link? {N : Nat} {Time : Type} {watcher source : Fin N}
    {action : TimedAction N Time} {shown : LinkAction Time}
    (isLink : action.link? watcher source = some shown) :
    (action.isReliable = true → shown.isReliable = true) ∧
      (action.starts source = false → shown.isStart = false) := by
  cases action with
  | wait duration =>
      cases isLink
      exact ⟨fun _ => rfl, fun _ => rfl⟩
  | heartbeat sender fails =>
      obtain ⟨_, ⟨⟩⟩ := Option.ite_none_right_eq_some.mp isLink
      exact ⟨id, fun _ => rfl⟩
  | hear sender target sentAt =>
      obtain ⟨_, ⟨⟩⟩ := Option.ite_none_right_eq_some.mp isLink
      exact ⟨fun _ => rfl, fun _ => rfl⟩
  | lose sender target sentAt =>
      obtain ⟨_, ⟨⟩⟩ := Option.ite_none_right_eq_some.mp isLink
      refine ⟨fun reliable => ?_, fun _ => rfl⟩
      cases reliable
  | countPeers counting => cases isLink
  | start started =>
      obtain ⟨same, ⟨⟩⟩ := Option.ite_none_right_eq_some.mp isLink
      refine ⟨fun _ => rfl, fun goesOn => ?_⟩
      simp [starts, same] at goesOn
  | stop stopped =>
      obtain ⟨_, ⟨⟩⟩ := Option.ite_none_right_eq_some.mp isLink
      exact ⟨fun _ => rfl, fun _ => rfl⟩
  | other action => cases isLink

variable {N : Nat} {Time : Type} [Field Time] [LinearOrder Time]

section Timing

variable [IsStrictOrderedRing Time]

namespace Timing

theorem halfInterval_nonneg (timing : Timing N Time) :
    0 ≤ timing.halfInterval :=
  div_nonneg timing.interval_nonneg zero_le_two

theorem halfInterval_add (timing : Timing N Time) :
    timing.halfInterval + timing.halfInterval =
      timing.heartbeatIntervalSeconds :=
  add_halves timing.heartbeatIntervalSeconds

theorem randomSleepTime_nonneg (timing : Timing N Time)
    (instance_ : Fin N) : 0 ≤ timing.randomSleepTime instance_ := by
  unfold randomSleepTime
  split
  · next random found =>
      have half := timing.halfInterval_nonneg
      have product := mul_nonneg
        (timing.random_nonneg instance_ random found) half
      have rounded := timing.round_mono product
      rw [timing.round_zero] at rounded
      have sum := timing.round_mono (add_nonneg rounded half)
      rwa [timing.round_zero] at sum
  · exact timing.interval_nonneg

/-- A source that sends as `_heartbeat_loop` does. -/
def terms (timing : Timing N Time) (source : Fin N) : Terms Time :=
  { period := timing.randomSleepTime source
    lateness := timing.lateness
    delay := timing.delay
    period_nonneg := timing.randomSleepTime_nonneg source
    lateness_nonneg := timing.lateness_nonneg
    delay_nonneg := timing.delay_nonneg }

/-- A heartbeat that is late and slow still arrives within the interval. -/
def Fits (timing : Timing N Time) : Prop :=
  ∀ source, timing.randomSleepTime source + timing.lateness + timing.delay ≤
    timing.heartbeatIntervalSeconds

instance (timing : Timing N Time) : Decidable timing.Fits :=
  inferInstanceAs (Decidable (∀ _, _))

end Timing

end Timing

namespace TimedNetwork

variable {timing : Timing N Time} {host : Fin N → Host}

/-- The heartbeats from `source` to `watcher`. -/
def link (timed : TimedNetwork N Time) (watcher source : Fin N) : Link Time :=
  { clock := timed.clock
    due := if timed.running source then
        some (timed.heartbeating source).beatsAt
      else
        none
    underway := timed.underway source watcher
    last := (timed.heartbeating watcher).heartbeats.lookup
      (timed.network.ganglion source).instanceId }

def Distinct (timed : TimedNetwork N Time) : Prop :=
  Function.Injective fun instance_ =>
    (timed.network.ganglion instance_).instanceId

section Step

variable {timed next : TimedNetwork N Time} {action : TimedAction N Time}

theorem instanceId_of_step
    (taken : timed.step timing host action = some next)
    (instance_ : Fin N) :
    (next.network.ganglion instance_).instanceId =
      (timed.network.ganglion instance_).instanceId := by
  cases change_of_step taken with
  | @heartbeat sender fails _ _ => cases fails <;> rfl
  | countPeers _ _ counted => exact Network.instanceId_of_step counted instance_
  | other _ _ acted => exact Network.instanceId_of_step acted instance_
  | _ => rfl

theorem Distinct.step (distinct : timed.Distinct)
    (taken : timed.step timing host action = some next) : next.Distinct := by
  intro left right same
  dsimp only at same
  rw [instanceId_of_step taken, instanceId_of_step taken] at same
  exact distinct same

theorem running_of_step
    (taken : timed.step timing host action = some next) (instance_ : Fin N) :
    next.running instance_ = (action.starts instance_ ||
      timed.running instance_ && !action.stops instance_) := by
  cases change_of_step taken with
  | @heartbeat sender fails _ _ =>
      cases fails <;> exact (Bool.and_true _).symm
  | @start started _ =>
      by_cases same : instance_ = started
      · subst same
        simp [TimedAction.starts, startLoops]
      · simp [TimedAction.starts, TimedAction.stops, startLoops, same,
          Ne.symm same]
  | @stop stopped _ =>
      by_cases same : instance_ = stopped
      · subst same
        simp [TimedAction.starts, TimedAction.stops]
      · simp [TimedAction.starts, TimedAction.stops, same, Ne.symm same]
  | _ => exact (Bool.and_true _).symm

theorem fresh_of_step
    (taken : timed.step timing host action = some next) (instance_ : Fin N) :
    next.fresh instance_ =
        (timed.fresh instance_ && !action.starts instance_) ∧
      (action.starts instance_ = true → timed.fresh instance_ = true) := by
  cases change_of_step taken with
  | @heartbeat sender fails _ _ =>
      cases fails <;> simp [TimedAction.starts, setHeartbeating, sendHeartbeat]
  | @start started fresh =>
      by_cases same : instance_ = started
      · subst same
        simp [TimedAction.starts, startLoops, fresh]
      · simp [TimedAction.starts, startLoops, same, Ne.symm same]
  | _ => exact ⟨(Bool.and_true _).symm, fun starts => by cases starts⟩

def Idle (timed : TimedNetwork N Time) : Prop :=
  ∀ instance_, timed.fresh instance_ = true →
    timed.running instance_ = false

omit [Field Time] [LinearOrder Time] in
theorem Idle.not_fresh (idle : timed.Idle) {instance_ : Fin N}
    (runs : timed.running instance_ = true) :
    timed.fresh instance_ = false := by
  by_contra fresh
  rw [idle instance_ ((Bool.not_eq_false _).mp fresh)] at runs
  cases runs

theorem Idle.step (idle : timed.Idle)
    (taken : timed.step timing host action = some next) : next.Idle := by
  intro instance_ fresh
  rw [(fresh_of_step taken instance_).1, Bool.and_eq_true,
    Bool.not_eq_true'] at fresh
  rw [running_of_step taken, fresh.2, idle instance_ fresh.1]
  rfl

omit [Field Time] [LinearOrder Time] in
theorem link_congr {watcher source : Fin N}
    (clock : next.clock = timed.clock)
    (running : next.running source = timed.running source)
    (beatsAt : (next.heartbeating source).beatsAt =
      (timed.heartbeating source).beatsAt)
    (underway : next.underway source watcher = timed.underway source watcher)
    (heard : (next.heartbeating watcher).heartbeats.lookup
        (next.network.ganglion source).instanceId =
      (timed.heartbeating watcher).heartbeats.lookup
        (timed.network.ganglion source).instanceId) :
    next.link watcher source = timed.link watcher source := by
  unfold link
  rw [clock, running, beatsAt, underway, heard]

omit [Field Time] [LinearOrder Time] in
theorem setUnderway_of_ne (timed : TimedNetwork N Time)
    {sender source target watcher : Fin N}
    (different : ¬ (sender = source ∧ target = watcher)) (sentAt : List Time) :
    (timed.setUnderway sender target sentAt).underway source watcher =
      timed.underway source watcher := by
  unfold setUnderway
  dsimp only
  by_cases sameSource : source = sender
  · subst sameSource
    have other : watcher ≠ target := fun same => different ⟨rfl, same.symm⟩
    rw [Function.update_self, Function.update_of_ne other]
  · rw [Function.update_of_ne sameSource]

theorem alarms_of_step
    (taken : timed.step timing host action = some next) (instance_ : Fin N) :
    (next.heartbeating instance_).beatsAt =
        (if action.beats instance_ then
          timed.clock + timing.randomSleepTime instance_
        else if action.starts instance_ then timed.clock
        else (timed.heartbeating instance_).beatsAt) ∧
      (next.heartbeating instance_).countsAt =
        if action.counts instance_ then timed.clock + timing.halfInterval
        else if action.starts instance_ then timed.clock
        else (timed.heartbeating instance_).countsAt := by
  cases change_of_step taken with
  | @heartbeat sender fails _ _ =>
      by_cases same : sender = instance_
      · subst same
        simp [TimedAction.beats, TimedAction.counts, TimedAction.starts,
          setHeartbeating]
      · cases fails <;>
          simp [TimedAction.beats, TimedAction.counts, TimedAction.starts,
            setHeartbeating, sendHeartbeat, same,
            Function.update_of_ne (Ne.symm same)]
  | @hear source target sentAt _ _ =>
      by_cases same : target = instance_
      · subst same
        simp [TimedAction.beats, TimedAction.counts, TimedAction.starts,
          TimedNetwork.hear, setHeartbeating, Heartbeating.heartbeatReaction]
      · simp [TimedAction.beats, TimedAction.counts, TimedAction.starts,
          TimedNetwork.hear, setHeartbeating, setUnderway,
          Function.update_of_ne (Ne.symm same)]
  | @countPeers counting network _ _ _ =>
      by_cases same : counting = instance_
      · subst same
        simp [TimedAction.beats, TimedAction.counts, TimedAction.starts,
          setHeartbeating]
      · simp [TimedAction.beats, TimedAction.counts, TimedAction.starts,
          setHeartbeating, same, Function.update_of_ne (Ne.symm same)]
  | @start started _ =>
      by_cases same : started = instance_
      · subst same
        simp [TimedAction.beats, TimedAction.counts, TimedAction.starts,
          startLoops]
      · simp [TimedAction.beats, TimedAction.counts, TimedAction.starts,
          startLoops, same, Function.update_of_ne (Ne.symm same)]
  | _ => exact ⟨rfl, rfl⟩

/-- A step of the group is a step of each link of a watcher that runs, or leaves
it alone. -/
theorem link_of_step [IsStrictOrderedRing Time] (distinct : timed.Distinct)
    (idle : timed.Idle)
    (taken : timed.step timing host action = some next)
    {watcher source : Fin N} (apart : source ≠ watcher)
    (runs : timed.running watcher = true) :
    match action.link? watcher source with
    | none => next.link watcher source = timed.link watcher source
    | some shown => (timed.link watcher source).step (timing.terms source)
        shown = some (next.link watcher source) := by
  have sameId := instanceId_of_step taken source
  have beatsAt := (alarms_of_step taken source).1
  cases change_of_step taken with
  | @wait duration passes inTime =>
      have linkInTime : (timed.link watcher source).InTime
          (timing.terms source) (timed.clock + duration) := by
        constructor
        · intro due isDue
          obtain ⟨sourceRuns, ⟨⟩⟩ := Option.ite_none_right_eq_some.mp isDue
          exact (inTime source sourceRuns).1
        · exact (inTime watcher runs).2.2 source
      exact if_pos ⟨passes, linkInTime⟩
  | @heartbeat sender fails senderRuns due =>
      have watches := timed.heartbeats_update watcher sender (show
        { timed.heartbeating sender with
          beatsAt := timed.clock + timing.randomSleepTime sender }.heartbeats =
            _ from rfl)
      by_cases same : sender = source
      · subst same
        have reached : (timed.link watcher sender).due.any
            (· ≤ timed.clock) = true := by
          simp [link, senderRuns, due]
        simp only [TimedAction.link?, if_true]
        refine (if_pos reached).trans ?_
        cases fails with
        | false =>
            simp [link, setHeartbeating, sendHeartbeat, senderRuns,
              Ne.symm apart, Timing.terms]
        | true => simp [link, setHeartbeating, senderRuns, watches, Timing.terms]
      · simp only [TimedAction.link?, if_neg same]
        have other : source ≠ sender := Ne.symm same
        cases fails with
        | false =>
            simp [link, setHeartbeating, sendHeartbeat, watches,
              Function.update_of_ne other]
        | true =>
            simp [link, setHeartbeating, watches, Function.update_of_ne other]
  | @hear sender target sentAt _ isUnderway =>
      by_cases both : sender = source ∧ target = watcher
      · obtain ⟨rfl, rfl⟩ := both
        simp only [TimedAction.link?, and_self, if_true]
        refine (if_pos isUnderway).trans ?_
        simp [link, TimedNetwork.hear, setHeartbeating, setUnderway,
          Heartbeating.heartbeatReaction, Function.update_of_ne apart]
      · simp only [TimedAction.link?, if_neg both]
        refine link_congr rfl rfl beatsAt (timed.setUnderway_of_ne both _) ?_
        by_cases isTarget : watcher = target
        · subst isTarget
          have other : (timed.network.ganglion source).instanceId ≠
              (timed.network.ganglion sender).instanceId :=
            fun same => both ⟨(distinct same).symm, rfl⟩
          simp [TimedNetwork.hear, setHeartbeating, setUnderway,
            Heartbeating.heartbeatReaction, AList.lookup_insert_ne other]
        · simp [TimedNetwork.hear, setHeartbeating, setUnderway,
            Function.update_of_ne isTarget]
  | @lose sender target sentAt isUnderway =>
      by_cases both : sender = source ∧ target = watcher
      · obtain ⟨rfl, rfl⟩ := both
        simp only [TimedAction.link?, and_self, if_true]
        refine (if_pos isUnderway).trans ?_
        simp only [link, setUnderway, Function.update_self]
        rfl
      · simp only [TimedAction.link?, if_neg both]
        exact link_congr rfl rfl rfl (timed.setUnderway_of_ne both _) rfl
  | @countPeers counting network _ _ counted =>
      refine link_congr rfl rfl beatsAt rfl ?_
      rw [sameId]
      exact congrArg (AList.lookup _) (timed.heartbeats_update watcher _ rfl)
  | @start started fresh =>
      have notWatcher : watcher ≠ started := by
        rintro rfl
        rw [idle _ fresh] at runs
        cases runs
      by_cases same : started = source
      · subst same
        simp [TimedAction.link?, link, Link.step, startLoops, idle _ fresh,
          Ne.symm apart]
      · simp only [TimedAction.link?, if_neg same]
        have other : source ≠ started := Ne.symm same
        simp [link, startLoops, other, notWatcher]
  | @stop stopped _ =>
      by_cases same : stopped = source
      · subst same
        simp [TimedAction.link?, link, Link.step]
      · simp only [TimedAction.link?, if_neg same]
        exact link_congr rfl (Function.update_of_ne (Ne.symm same) _ _) rfl rfl
          rfl
  | other _ _ acted =>
      exact link_congr rfl rfl rfl rfl (by rw [sameId])

theorem clock_of_step [IsStrictOrderedRing Time]
    (taken : timed.step timing host action = some next) :
    timed.clock ≤ next.clock ∧
      (timed.InTime timing next.clock ∧
          next.heartbeating = timed.heartbeating ∧
          next.running = timed.running ∨
        next.clock = timed.clock) := by
  cases change_of_step taken with
  | wait passes inTime =>
      exact ⟨le_add_of_nonneg_right passes, .inl ⟨inTime, rfl, rfl⟩⟩
  | @heartbeat sender fails _ _ =>
      cases fails <;> exact ⟨le_refl _, .inr rfl⟩
  | _ => exact ⟨le_refl _, .inr rfl⟩

/-- Heartbeats are under way to others, from instances that have been
started. -/
def Sent (timed : TimedNetwork N Time) : Prop :=
  ∀ source target, timed.underway source target ≠ [] →
    source ≠ target ∧ timed.fresh source = false

theorem Sent.step (sent : timed.Sent) (idle : timed.Idle)
    (taken : timed.step timing host action = some next) : next.Sent := by
  have fewer (sender receiver : Fin N) (sentAt : Time) (source target : Fin N)
      (some : (timed.setUnderway sender receiver
        ((timed.underway sender receiver).erase sentAt)).underway source
          target ≠ []) : timed.underway source target ≠ [] := by
    by_cases both : sender = source ∧ receiver = target
    · obtain ⟨rfl, rfl⟩ := both
      intro nothing
      simp [setUnderway, nothing] at some
    · rwa [timed.setUnderway_of_ne both] at some
  intro source target some
  rw [(fresh_of_step taken source).1]
  have kept (before : timed.underway source target ≠ []) :
      source ≠ target ∧
        (timed.fresh source && !action.starts source) = false := by
    obtain ⟨apart, started⟩ := sent source target before
    exact ⟨apart, by rw [started, Bool.false_and]⟩
  cases change_of_step taken with
  | @heartbeat sender fails runs _ =>
      cases fails with
      | true => exact kept some
      | false =>
          by_cases same : source = sender
          · subst same
            by_cases self : target = source
            · subst self
              exact kept (by simpa [sendHeartbeat, setHeartbeating] using some)
            · exact ⟨Ne.symm self, by rw [idle.not_fresh runs, Bool.false_and]⟩
          · exact kept (by
              simpa [sendHeartbeat, setHeartbeating, same] using some)
  | hear _ _ => exact kept (fewer _ _ _ source target some)
  | lose _ => exact kept (fewer _ _ _ source target some)
  | @start started _ =>
      by_cases isTarget : target = started
      · subst isTarget
        simp [startLoops] at some
      · exact kept (by simpa [startLoops, isTarget] using some)
  | _ => exact kept some

/-- An instance knows other instances only, which have been started. -/
def Known (timed : TimedNetwork N Time) : Prop :=
  ∀ watcher id, ((timed.heartbeating watcher).heartbeats.lookup id).isSome →
    ∃ source, source ≠ watcher ∧ timed.fresh source = false ∧
      (timed.network.ganglion source).instanceId = id

theorem Known.step (known : timed.Known) (sent : timed.Sent)
    (taken : timed.step timing host action = some next) : next.Known := by
  intro watcher id found
  rw [heartbeats_of_step watcher taken] at found
  have before {source : Fin N} (apart : source ≠ watcher)
      (started : timed.fresh source = false)
      (same : (timed.network.ganglion source).instanceId = id) :
      ∃ source, source ≠ watcher ∧ next.fresh source = false ∧
        (next.network.ganglion source).instanceId = id := by
    refine ⟨source, apart, ?_, (instanceId_of_step taken source).trans same⟩
    rw [(fresh_of_step taken source).1, started, Bool.false_and]
  cases heard : heardBy watcher [(timed, action)] with
  | nil =>
      rw [heard] at found
      obtain ⟨source, apart, started, same⟩ := known watcher id found
      exact before apart started same
  | cons sign signs =>
      obtain ⟨entry, isThis, isSign⟩ := List.mem_filterMap.mp
        (show sign ∈ heardBy watcher [(timed, action)] by
          rw [heard]; exact List.mem_cons_self)
      obtain rfl := List.mem_singleton.mp isThis
      cases action with
      | hear source target sentAt =>
          obtain ⟨rfl, ⟨⟩⟩ := Option.ite_none_right_eq_some.mp isSign
          have isUnderway : timed.underway source target ≠ [] := by
            cases change_of_step taken with
            | hear _ isUnderway => exact List.ne_nil_of_mem isUnderway
          obtain ⟨apart, started⟩ := sent source target isUnderway
          by_cases same : id = (timed.network.ganglion source).instanceId
          · exact before apart started same.symm
          · simp only [heardBy, List.filterMap_cons, if_true,
              List.filterMap_nil, List.foldr_cons, List.foldr_nil,
              AList.lookup_insert_ne same] at found
            obtain ⟨other, otherApart, otherStarted, sameOther⟩ :=
              known target id found
            exact before otherApart otherStarted sameOther
      | _ => cases isSign

/-- The invariant of a group with a clock. -/
structure Sound (timing : Timing N Time) [IsStrictOrderedRing Time]
    (timed : TimedNetwork N Time) : Prop where
  distinct : timed.Distinct
  idle : timed.Idle
  sent : timed.Sent
  known : timed.Known
  blank : ∀ instance_, timed.fresh instance_ = true →
    (timed.heartbeating instance_).heartbeats = ∅
  beatsSoon : ∀ instance_, (timed.heartbeating instance_).beatsAt ≤
    timed.clock + timing.randomSleepTime instance_
  beatsInTime : ∀ instance_, timed.running instance_ = true →
    timed.clock ≤ (timed.heartbeating instance_).beatsAt + timing.lateness
  countsSoon : ∀ instance_, (timed.heartbeating instance_).countsAt ≤
    timed.clock + timing.halfInterval
  countsInTime : ∀ instance_, timed.running instance_ = true →
    timed.clock ≤ (timed.heartbeating instance_).countsAt + timing.lateness
  links : ∀ watcher source, source ≠ watcher →
    timed.running watcher = true →
    (timed.link watcher source).Timely (timing.terms source)

variable [IsStrictOrderedRing Time]

theorem Sound.blank_step (sound : timed.Sound timing)
    (taken : timed.step timing host action = some next) {instance_ : Fin N}
    (fresh : next.fresh instance_ = true) :
    (next.heartbeating instance_).heartbeats = ∅ := by
  rw [(fresh_of_step taken instance_).1, Bool.and_eq_true] at fresh
  have nothing : heardBy instance_ [(timed, action)] = [] := by
    cases action with
    | hear source target sentAt =>
        cases change_of_step taken with
        | hear runs _ =>
            have other : target ≠ instance_ := by
              rintro rfl
              rw [sound.idle _ fresh.1] at runs
              cases runs
            simp [heardBy, other]
    | _ => rfl
  rw [heartbeats_of_step instance_ taken, nothing, sound.blank _ fresh.1]
  rfl

theorem Sound.links_start (sound : timed.Sound timing) {started : Fin N}
    (fresh : timed.fresh started = true) {source : Fin N}
    (apart : source ≠ started) :
    ((timed.startLoops started).link started source).Timely
      (timing.terms source) := by
  have last : ((timed.startLoops started).link started source).last = none := by
    simp [link, startLoops, sound.blank _ fresh]
  have underway : ((timed.startLoops started).link started source).underway =
      [] := by
    simp [link, startLoops]
  have due : ∀ due ∈ ((timed.startLoops started).link started source).due,
      timed.running source = true ∧
        due = (timed.heartbeating source).beatsAt := by
    intro due isDue
    obtain ⟨runs, ⟨⟩⟩ := Option.ite_none_right_eq_some.mp isDue
    simpa [startLoops, apart] using runs
  refine ⟨⟨?_, ?_⟩, ?_, ?_, ?_⟩
  · intro time isDue
    obtain ⟨runs, rfl⟩ := due time isDue
    exact sound.beatsInTime source runs
  · rw [underway]
    simp
  · intro time isDue
    obtain ⟨_, rfl⟩ := due time isDue
    exact sound.beatsSoon source
  · rw [underway]
    simp
  · rw [last]
    simp

theorem Sound.links_step (sound : timed.Sound timing)
    (taken : timed.step timing host action = some next)
    {watcher source : Fin N} (apart : source ≠ watcher)
    (runs : next.running watcher = true) :
    (next.link watcher source).Timely (timing.terms source) := by
  rw [running_of_step taken, Bool.or_eq_true, Bool.and_eq_true] at runs
  rcases runs with starts | ⟨ran, _⟩
  · cases action with
    | start started =>
        obtain rfl : started = watcher := of_decide_eq_true starts
        cases change_of_step taken with
        | start fresh => exact sound.links_start fresh apart
    | _ => cases starts
  · have timely := sound.links watcher source apart ran
    have shows := link_of_step sound.distinct sound.idle taken apart ran
    cases isLink : action.link? watcher source with
    | none =>
        rw [isLink] at shows
        dsimp only at shows
        rwa [shows]
    | some shown =>
        rw [isLink] at shows
        exact timely.step shows

theorem Sound.step (sound : timed.Sound timing)
    (taken : timed.step timing host action = some next) :
    next.Sound timing := by
  have half := timing.halfInterval_nonneg
  have lateness := timing.lateness_nonneg
  have sleeps := timing.randomSleepTime_nonneg
  obtain ⟨forward, moved⟩ := clock_of_step taken
  have ran {instance_ : Fin N} (runs : next.running instance_ = true)
      (others : ¬ action.starts instance_ = true) :
      timed.running instance_ = true := by
    rw [running_of_step taken, Bool.or_eq_true, Bool.and_eq_true] at runs
    exact (runs.resolve_left others).1
  refine ⟨sound.distinct.step taken, sound.idle.step taken,
    sound.sent.step sound.idle taken, sound.known.step sound.sent taken,
    fun _ fresh => sound.blank_step taken fresh, ?_, ?_, ?_, ?_,
    fun _ _ apart runs => sound.links_step taken apart runs⟩
  · intro instance_
    have sleeps := sleeps instance_
    have before := sound.beatsSoon instance_
    rw [(alarms_of_step taken _).1]
    split
    · linarith
    · split <;> linarith
  · intro instance_ runs
    have sleeps := sleeps instance_
    rcases moved with ⟨inTime, same, sameRunning⟩ | still
    · rw [same]
      exact (inTime instance_ (sameRunning ▸ runs)).1
    · rw [(alarms_of_step taken _).1, still]
      split
      · linarith
      · split
        · linarith
        · next others => exact sound.beatsInTime instance_ (ran runs others)
  · intro instance_
    have before := sound.countsSoon instance_
    rw [(alarms_of_step taken _).2]
    split
    · linarith
    · split <;> linarith
  · intro instance_ runs
    rcases moved with ⟨inTime, same, sameRunning⟩ | still
    · rw [same]
      exact (inTime instance_ (sameRunning ▸ runs)).2.1
    · rw [(alarms_of_step taken _).2, still]
      split
      · linarith
      · split
        · linarith
        · next others => exact sound.countsInTime instance_ (ran runs others)

end Step

section Begin

variable [IsStrictOrderedRing Time] (timing : Timing N Time)
  (network : Network N) (clock : Time)
  (distinct : Function.Injective fun instance_ =>
    (network.ganglion instance_).instanceId)

include distinct

theorem sound_begin : (begin_ network clock).Sound timing := by
  have half := timing.halfInterval_nonneg
  refine ⟨distinct, fun _ _ => rfl, ?_, ?_, fun _ _ => rfl, ?_, ?_, ?_, ?_, ?_⟩
  · intro source target some
    exact absurd rfl some
  · intro watcher id found
    simp [begin_] at found
  · intro instance_
    exact le_add_of_nonneg_right (timing.randomSleepTime_nonneg instance_)
  · intro instance_ runs
    cases runs
  · intro instance_
    exact le_add_of_nonneg_right half
  · intro instance_ runs
    cases runs
  · intro watcher source _ runs
    cases runs

end Begin

section Runs

variable {start finish : TimedNetwork N Time}
  {steps : List (TimedNetwork N Time × TimedAction N Time)}

theorem fresh_of_path
    (path : Path (step timing host) start steps finish) {instance_ : Fin N}
    (old : start.fresh instance_ = false) :
    finish.fresh instance_ = false ∧
      Along (fun _ action => action.starts instance_ = false) steps := by
  induction path with
  | refl => exact ⟨old, by simp [Along]⟩
  | @snoc steps middle finish action _ taken induction =>
      obtain ⟨before, along⟩ := induction
      obtain ⟨after, once⟩ := fresh_of_step taken instance_
      rw [before, Bool.false_and] at after
      refine ⟨after, along_cons.mpr ⟨?_, along⟩⟩
      by_contra starts
      rw [once ((Bool.not_eq_false _).mp starts)] at before
      cases before

/-- An instance that has been started and runs has been running all the time. -/
theorem running_of_path
    (path : Path (step timing host) start steps finish) {instance_ : Fin N}
    (old : start.fresh instance_ = false)
    (runs : finish.running instance_ = true) :
    start.running instance_ = true ∧
      Along (fun _ action => action.stops instance_ = false) steps := by
  have goesOn := (fresh_of_path path old).2
  induction path with
  | refl => exact ⟨runs, by simp [Along]⟩
  | snoc _ taken induction =>
      obtain ⟨here, earlier⟩ := along_cons.mp goesOn
      rw [running_of_step taken, here, Bool.false_or, Bool.and_eq_true,
        Bool.not_eq_true'] at runs
      obtain ⟨before, all⟩ := induction runs.1 earlier
      exact ⟨before, along_cons.mpr ⟨runs.2, all⟩⟩

/-- The instance has been running since an earlier state. -/
def RunsSince (before timed : TimedNetwork N Time) (instance_ : Fin N) : Prop :=
  before.running instance_ = true ∧ timed.running instance_ = true

instance (before timed : TimedNetwork N Time) (instance_ : Fin N) :
    Decidable (before.RunsSince timed instance_) :=
  inferInstanceAs (Decidable (_ ∧ _))

/-- The instance has been running at some time since an earlier state. -/
def RanSince (before timed : TimedNetwork N Time) (instance_ : Fin N) : Prop :=
  before.running instance_ = true ∨
    before.fresh instance_ = true ∧ timed.fresh instance_ = false

instance (before timed : TimedNetwork N Time) (instance_ : Fin N) :
    Decidable (before.RanSince timed instance_) :=
  inferInstanceAs (Decidable (_ ∨ _))

omit [Field Time] [LinearOrder Time] in
theorem along_links {watcher source : Fin N}
    {condition : TimedAction N Time → Prop} {shows : LinkAction Time → Prop}
    (links : ∀ action shown, condition action →
      action.link? watcher source = some shown → shows shown)
    (along : Along (fun _ action => condition action) steps) :
    Along (fun _ shown => shows shown) (steps.filterMap fun entry =>
      (entry.2.link? watcher source).map fun shown =>
        (entry.1.link watcher source, shown)) := by
  intro entry inside
  obtain ⟨before, isStep, isEntry⟩ := List.mem_filterMap.mp inside
  obtain ⟨shown, isLink, rfl⟩ := Option.map_eq_some_iff.mp isEntry
  exact links before.2 shown (along before isStep) isLink

variable [IsStrictOrderedRing Time]

theorem Sound.path (sound : start.Sound timing)
    (path : Path (TimedNetwork.step timing host) start steps finish) :
    finish.Sound timing :=
  path.always sound fun _ _ _ before taken => before.step taken

/-- A run of the group is a run of each link of a watcher that runs. -/
theorem link_of_path (sound : start.Sound timing)
    (path : Path (step timing host) start steps finish)
    {watcher source : Fin N} (apart : source ≠ watcher)
    (runs : start.RunsSince finish watcher) :
    Path (Link.step (timing.terms source)) (start.link watcher source)
      (steps.filterMap fun entry =>
        (entry.2.link? watcher source).map fun shown =>
          (entry.1.link watcher source, shown))
      (finish.link watcher source) := by
  obtain ⟨_, stays⟩ :=
    running_of_path path (sound.idle.not_fresh runs.1) runs.2
  apply @Path.stutter _ _ _ _ _ _ (fun timed => timed.link watcher source)
    (fun action => action.link? watcher source) _
    (fun timed => timed.Sound timing ∧ timed.running watcher = true) _ _ _
    path stays ⟨sound, runs.1⟩
  · rintro timed action next ⟨sound, ran⟩ stays taken
    refine ⟨sound.step taken, ?_⟩
    rw [running_of_step taken, ran, stays]
    exact Bool.or_true _
  · rintro timed action next ⟨sound, ran⟩ _ taken
    have shows := link_of_step sound.distinct sound.idle taken apart ran
    cases isLink : action.link? watcher source with
    | none => simpa [isLink] using shows
    | some shown => simpa [isLink] using shows

/-- The instances that run are counted once their first heartbeat must have
arrived. -/
theorem card_le_numPeers (sound : start.Sound timing)
    (path : Path (step timing host) start steps finish)
    (reliable : Along (fun _ action => action.isReliable = true) steps)
    (fits : timing.Fits) {watcher : Fin N}
    (runs : start.RunsSince finish watcher) {live : Finset (Fin N)}
    (others : ∀ source ∈ live, source ≠ watcher)
    (liveRuns : ∀ source ∈ live, start.RunsSince finish source)
    (later : ∀ source ∈ live, (start.heartbeating source).beatsAt +
      timing.lateness + timing.delay < finish.clock) :
    live.card ≤ finish.numPeers timing watcher := by
  rw [numPeers, Heartbeating.numPeers_eq, ← Finset.card_image_of_injective live
    (sound.path path).distinct]
  apply card_le_length_recent
  intro id member
  obtain ⟨source, isLive, rfl⟩ := Finset.mem_image.mp member
  have apart := others source isLive
  obtain ⟨sourceRan, sourceRuns⟩ := liveRuns source isLive
  have links := link_of_path sound path apart runs
  have goesOn := (fresh_of_path path (sound.idle.not_fresh sourceRan)).2
  have linksReliable := @along_links _ _ steps watcher source
    (fun action => action.isReliable = true ∧ action.starts source = false)
    (fun shown => shown.isReliable = true ∧ shown.isStart = false)
    (fun _ _ holds isLink => ⟨(TimedAction.of_link? isLink).1 holds.1,
      (TimedAction.of_link? isLink).2 holds.2⟩)
    (fun entry member => ⟨reliable entry member, goesOn entry member⟩)
  have isDue : (finish.link watcher source).due.isSome := by
    simp [link, sourceRuns]
  have begins : ∀ due ∈ (start.link watcher source).due,
      due ≤ (start.heartbeating source).beatsAt := by
    intro due isDue
    obtain ⟨_, ⟨⟩⟩ := Option.ite_none_right_eq_some.mp isDue
    exact le_refl _
  obtain ⟨last, heard, inside⟩ := Link.heard_of_runs
    (sound.links watcher source apart runs.1) links linksReliable isDue begins
    (later source isLive)
  have rounded := timing.round_mono (inside.trans (fits source))
  rw [timing.round_interval] at rounded
  exact mem_recent_iff.mpr ⟨last, heard, rounded⟩

/-- Nobody else is counted than the others that have been running since the
start, once the last heartbeats must have arrived long enough ago. -/
theorem numPeers_le_card (sound : start.Sound timing)
    (path : Path (step timing host) start steps finish) {watcher : Fin N}
    (runs : start.RunsSince finish watcher) {counted : Finset (Fin N)}
    (stopped : ∀ source, source ≠ watcher → source ∉ counted →
      finish.fresh source = false →
        start.fresh source = false ∧ start.running source = false ∧
          timing.heartbeatIntervalSeconds <
            timing.round (finish.clock - (start.clock + timing.delay))) :
    finish.numPeers timing watcher ≤ counted.card := by
  have ends := sound.path path
  rw [numPeers, Heartbeating.numPeers_eq,
    ← Finset.card_image_of_injective counted ends.distinct]
  apply length_recent_le_card
  intro id isRecent
  obtain ⟨last, heard, inside⟩ := mem_recent_iff.mp isRecent
  obtain ⟨source, apart, started, rfl⟩ := ends.known watcher id (by simp [heard])
  apply Finset.mem_image_of_mem
  by_contra uncounted
  obtain ⟨old, hasStopped, exceeds⟩ := stopped source apart uncounted started
  have linkStopped : (start.link watcher source).due = none := by
    simp [link, hasStopped]
  have early := Link.last_le_of_stopped
    (sound.links watcher source apart runs.1)
    (link_of_path sound path apart runs)
    (along_links (fun _ _ goesOn isLink =>
      (TimedAction.of_link? isLink).2 goesOn) (fresh_of_path path old).2)
    linkStopped last heard
  have limit : last ≤ start.clock + timing.delay := early
  have rounded := timing.round_mono (sub_le_sub_left limit finish.clock)
  exact absurd (exceeds.trans_le (rounded.trans inside)) (lt_irrefl _)

/-- What is between two states of a run. -/
structure Between (start finish timed : TimedNetwork N Time) : Prop where
  running : ∀ instance_, start.RunsSince finish instance_ →
    start.RunsSince timed instance_
  fresh : ∀ instance_, finish.fresh instance_ = true →
    timed.fresh instance_ = true

omit [IsStrictOrderedRing Time] in
theorem between_of_step (idle : start.Idle) {timed next : TimedNetwork N Time}
    {action : TimedAction N Time}
    (path : Path (step timing host) start steps timed)
    (taken : timed.step timing host action = some next)
    (between : start.Between finish next) : start.Between finish timed := by
  constructor
  · intro instance_ runs
    obtain ⟨ran, runsNext⟩ := between.running instance_ runs
    have old := (fresh_of_path path (idle.not_fresh ran)).1
    have stays :=
      (running_of_path (Path.snoc .refl taken) old runsNext).1
    exact ⟨ran, stays⟩
  · intro instance_ fresh
    have freshNext := between.fresh instance_ fresh
    rw [(fresh_of_step taken instance_).1, Bool.and_eq_true] at freshNext
    exact freshNext.1

theorem numPeers_of_counted {good : Nat → Prop} {bound : Time}
    {watcher : Fin N} {last : TimedNetwork N Time} (idle : start.Idle)
    (path : Path (step timing host) start steps finish)
    (reliable : Along (fun _ action => action.isReliable = true) steps)
    (started : start.fresh watcher = false)
    (early : (start.heartbeating watcher).countsAt ≤
      bound + timing.halfInterval)
    (counts : ∀ soon middle, Path (step timing host) start soon middle →
      Along (fun _ action => action.isReliable = true) soon →
      start.Between last middle → bound < middle.clock →
        good (middle.numPeers timing watcher))
    (between : start.Between last finish)
    (counted : bound + timing.halfInterval <
      (finish.heartbeating watcher).countsAt) :
    good (finish.network.ganglion watcher).numPeers := by
  induction path with
  | refl => exact absurd early (not_le.mpr counted)
  | @snoc steps middle finish action before taken induction =>
      obtain ⟨_, reliableBefore⟩ := along_cons.mp reliable
      have betweenBefore := between_of_step idle before taken between
      have goesOn : action.starts watcher = false :=
        (along_cons.mp (fresh_of_path (before.snoc taken) started).2).1
      rw [(alarms_of_step taken _).2] at counted
      cases isCount : action.counts watcher with
      | false =>
          rw [isCount, goesOn] at counted
          rw [numPeers_of_step taken isCount]
          exact induction reliableBefore betweenBefore counted
      | true =>
          rw [isCount, if_pos rfl] at counted
          have after : bound < middle.clock := by linarith
          have here := counts steps middle before reliableBefore betweenBefore
            after
          cases action with
          | countPeers counting =>
              obtain rfl : counting = watcher := of_decide_eq_true isCount
              cases change_of_step taken with
              | countPeers _ _ networkTaken =>
                  exact (Network.numPeers_of_countPeers networkTaken
                    counting).trans (if_pos rfl) ▸ here
          | _ => cases isCount

/-- What every count after `bound` gives holds a round of the loop later. -/
theorem Sound.numPeers_settled {good : Nat → Prop} {bound : Time}
    {watcher : Fin N} (sound : start.Sound timing)
    (path : Path (TimedNetwork.step timing host) start steps finish)
    (reliable : Along (fun _ action => action.isReliable = true) steps)
    (early : (start.heartbeating watcher).countsAt ≤
      bound + timing.halfInterval)
    (counts : ∀ soon middle,
      Path (TimedNetwork.step timing host) start soon middle →
      Along (fun _ action => action.isReliable = true) soon →
      start.Between finish middle → bound < middle.clock →
        good (middle.numPeers timing watcher))
    (runs : start.RunsSince finish watcher)
    (settled : bound + timing.halfInterval + timing.lateness <
      finish.clock) :
    good (finish.network.ganglion watcher).numPeers := by
  have inTime := (sound.path path).countsInTime watcher runs.2
  apply numPeers_of_counted sound.idle path reliable
    (sound.idle.not_fresh runs.1) early counts
    ⟨fun _ runs => runs, fun _ fresh => fresh⟩
  linarith

end Runs

section Together

variable (timing : Timing N Time) (host : Fin N → Host) (network : Network N)
  (clock : Time)

def begun (instances : List (Fin N)) : TimedNetwork N Time :=
  { begin_ network clock with
    fresh := fun instance_ => instance_ ∉ instances
    running := fun instance_ => instance_ ∈ instances }

/-- A group whose instances start together. -/
def together : TimedNetwork N Time :=
  begun network clock (List.finRange N)

theorem begun_start {instance_ : Fin N} {instances : List (Fin N)}
    (fresh : instance_ ∉ instances) :
    (begun network clock instances).step timing host (.start instance_) =
      some (begun network clock (instance_ :: instances)) := by
  have isFresh : (begun network clock instances).fresh instance_ = true :=
    decide_eq_true fresh
  refine (if_pos isFresh).trans (congrArg some ?_)
  unfold startLoops begun begin_
  congr 1
  · funext other
    by_cases same : other = instance_ <;> simp [same]
  · funext other
    by_cases same : other = instance_ <;> simp [same]
  · exact Function.update_eq_self _ _
  · funext source
    exact Function.update_eq_self _ _

theorem begun_of_begin {instances : List (Fin N)} (nodup : instances.Nodup) :
    ∃ steps, Path (step timing host) (begin_ network clock) steps
      (begun network clock instances) := by
  induction instances with
  | nil =>
      have nobody : begun network clock [] = begin_ network clock := by
        simp [begun, begin_]
      exact ⟨[], nobody ▸ .refl⟩
  | cons instance_ instances induction =>
      obtain ⟨isNew, others⟩ := List.nodup_cons.mp nodup
      obtain ⟨steps, path⟩ := induction others
      exact ⟨_, path.snoc (begun_start timing host network clock isNew)⟩

theorem sound_together [IsStrictOrderedRing Time]
    (distinct : Function.Injective fun instance_ =>
      (network.ganglion instance_).instanceId) :
    (together network clock).Sound timing := by
  obtain ⟨_, path⟩ := begun_of_begin timing (fun _ : Fin N => .permissive)
    network clock (List.nodup_finRange N)
  exact (sound_begin timing network clock distinct).path path

end Together

end TimedNetwork

/-- However a run begins, an interval, a delay and a round of `_num_peers_loop`
after a moment, an instance that has been running since counts all others that
have, too, and no other that has not been running since; `span` is a time whose
float exceeds the interval. -/
theorem num_peers_settles [IsStrictOrderedRing Time] {timing : Timing N Time}
    {host : Fin N → Host} {network : Network N} {clock span : Time}
    {early late : List (TimedNetwork N Time × TimedAction N Time)}
    {middle finish : TimedNetwork N Time}
    (distinct : Function.Injective fun instance_ =>
      (network.ganglion instance_).instanceId)
    (fits : timing.Fits)
    (exceeds : timing.heartbeatIntervalSeconds < timing.round span)
    (before : Path (TimedNetwork.step timing host) (.begin_ network clock) early
      middle)
    (after : Path (TimedNetwork.step timing host) middle late finish)
    (reliable : Along (fun _ action => action.isReliable = true) late)
    (settled : middle.clock + span + timing.delay + timing.halfInterval +
      timing.lateness < finish.clock)
    {watcher : Fin N} (runs : middle.RunsSince finish watcher) :
    (Finset.univ.filter fun source =>
        source ≠ watcher ∧ middle.RunsSince finish source).card ≤
      (finish.network.ganglion watcher).numPeers ∧
    (finish.network.ganglion watcher).numPeers ≤
      (Finset.univ.filter fun source =>
        source ≠ watcher ∧ middle.RanSince finish source).card := by
  have sound := (TimedNetwork.sound_begin timing network clock distinct).path
    before
  have interval := timing.interval_nonneg
  have delay := timing.delay_nonneg
  have longer : timing.heartbeatIntervalSeconds < span := by
    by_contra short
    have rounded := timing.round_mono (not_lt.mp short)
    rw [timing.round_interval] at rounded
    exact absurd exceeds (not_lt.mpr rounded)
  apply @TimedNetwork.Sound.numPeers_settled _ _ _ _ timing host middle finish
    late _ (fun numPeers => (Finset.univ.filter fun source =>
        source ≠ watcher ∧ middle.RunsSince finish source).card ≤ numPeers ∧
      numPeers ≤ (Finset.univ.filter fun source =>
        source ≠ watcher ∧ middle.RanSince finish source).card)
    (middle.clock + span + timing.delay) watcher sound after reliable
  · have soon := sound.countsSoon watcher
    linarith
  · intro soon state path reliable between later
    have ran := between.running watcher runs
    constructor
    · apply TimedNetwork.card_le_numPeers sound path reliable fits ran
      · intro source member
        exact (Finset.mem_filter.mp member).2.1
      · intro source member
        exact between.running source (Finset.mem_filter.mp member).2.2
      · intro source _
        have soon := sound.beatsSoon source
        have fitting := fits source
        linarith
    · apply TimedNetwork.numPeers_le_card sound path ran
      intro source apart uncounted started
      have neither : ¬ middle.RanSince finish source := by
        simpa [apart] using uncounted
      obtain ⟨stopped, old⟩ := not_or.mp neither
      have isOld : middle.fresh source = false := by
        by_contra fresh
        have still : finish.fresh source = true := by
          by_contra starts
          exact old ⟨(Bool.not_eq_false _).mp fresh,
            (Bool.not_eq_true _).mp starts⟩
        rw [between.fresh source still] at started
        cases started
      have elapsed := timing.round_mono
        (show span ≤ state.clock - (middle.clock + timing.delay) by linarith)
      exact ⟨isOld, (Bool.not_eq_true _).mp stopped, exceeds.trans_le elapsed⟩
  · exact runs
  · exact settled

namespace Membership

def beat (clock : Rat) : List (TimedAction 3 Rat) :=
  [.heartbeat Trio.first false, .heartbeat Trio.second false,
    .hear Trio.first Trio.second clock, .hear Trio.second Trio.first clock]

def count : List (TimedAction 3 Rat) :=
  [.countPeers Trio.first, .countPeers Trio.second]

def stops : List (TimedAction 3 Rat) :=
  [.start Trio.first, .start Trio.second, .start Trio.third,
    .stop Trio.third]

def goesOn : List (TimedAction 3 Rat) :=
  count ++ beat 0 ++ [.wait 15] ++ count ++ [.wait (15 / 2)] ++
    beat (45 / 2) ++ [.wait (15 / 2)] ++ count ++ [.wait 15] ++ beat 45 ++
    count ++ [.wait 3]

def stopped : TimedNetwork 3 Rat :=
  (exec (TimedNetwork.step Heartbeats.timing fun _ => .permissive)
    (.begin_ (.sample 3) 0) stops).getD (.begin_ (.sample 3) 0)

theorem exec_stops :
    exec (TimedNetwork.step Heartbeats.timing fun _ => .permissive)
      (.begin_ (.sample 3) 0) stops = some stopped :=
  exec_eq_getD (by decide +kernel)

def finish : TimedNetwork 3 Rat :=
  (exec (TimedNetwork.step Heartbeats.timing fun _ => .permissive) stopped
    goesOn).getD stopped

theorem exec_goesOn :
    exec (TimedNetwork.step Heartbeats.timing fun _ => .permissive) stopped
      goesOn = some finish :=
  exec_eq_getD (by decide +kernel)

end Membership

theorem num_peers_settles_stopped :
    ∃ early late,
      Path (TimedNetwork.step Heartbeats.timing fun _ => .permissive)
        (.begin_ (.sample 3) 0) early Membership.stopped ∧
      Path (TimedNetwork.step Heartbeats.timing fun _ => .permissive)
        Membership.stopped late Membership.finish ∧
      (Membership.finish.network.ganglion Trio.first).numPeers = 1 := by
  have before := path_of_exec Membership.exec_stops
  have after := path_of_exec Membership.exec_goesOn
  -- 61 / 2 seconds are more than the interval
  have bounds := @num_peers_settles _ _ _ _ _ _ _ _ _ (61 / 2) _ _ _ _
    (by decide +kernel) (by decide +kernel) (by decide +kernel) before after
    (by decide +kernel) (by decide +kernel) Trio.first (by decide +kernel)
  refine ⟨_, _, before, after, le_antisymm (bounds.2.trans ?_)
    (le_trans ?_ bounds.1)⟩
  · decide +kernel
  · decide +kernel

/-- Instances that start together count all others before one interval has
passed, if a heartbeat takes less than half of it, and as long as they run. -/
theorem TimedNetwork.countsAll_of_together [IsStrictOrderedRing Time]
    {timing : Timing N Time} {host : Fin N → Host} {network : Network N}
    {clock : Time}
    {steps : List (TimedNetwork N Time × TimedAction N Time)}
    {finish : TimedNetwork N Time}
    (distinct : Function.Injective fun instance_ =>
      (network.ganglion instance_).instanceId)
    (fits : timing.Fits)
    (path : Path (TimedNetwork.step timing host) (.together network clock)
      steps finish)
    (reliable : Along (fun _ action => action.isReliable = true) steps)
    (runs : ∀ instance_, finish.running instance_ = true)
    (settled : clock + timing.lateness + timing.delay + timing.halfInterval +
      timing.lateness < finish.clock) : finish.network.CountsAll := by
  intro watcher
  have sound := sound_together timing network clock distinct
  have half := timing.halfInterval_nonneg
  have lateness := timing.lateness_nonneg
  have delay := timing.delay_nonneg
  have ran (instance_ : Fin N) :
      (together network clock).RunsSince finish instance_ :=
    ⟨decide_eq_true (List.mem_finRange instance_), runs instance_⟩
  have others : (Finset.univ.erase watcher).card = N - 1 := by
    rw [Finset.card_erase_of_mem (Finset.mem_univ _), Finset.card_univ,
      Fintype.card_fin]
  apply @Sound.numPeers_settled _ _ _ _ timing host (.together network clock)
    finish steps _ (fun numPeers => numPeers = N - 1)
    (clock + timing.lateness + timing.delay) watcher sound path reliable
  · show clock ≤ _
    linarith
  · intro soon state before reliable between later
    apply le_antisymm
    · rw [← others]
      apply numPeers_le_card sound before (between.running watcher (ran watcher))
      intro source apart uncounted
      exact absurd (Finset.mem_erase.mpr ⟨apart, Finset.mem_univ _⟩) uncounted
    · rw [← others]
      apply card_le_numPeers sound before reliable fits
        (between.running watcher (ran watcher))
      · intro source member
        exact (Finset.mem_erase.mp member).1
      · exact fun source _ => between.running source (ran source)
      · intro source _
        exact later
  · exact ran watcher
  · exact settled

end Plexo
