import Mathlib.Data.Finset.Card
import Mathlib.Data.List.AList
import Mathlib.Algebra.Order.Ring.Defs
import Mathlib.Tactic.Linarith
import Plexo.Library.Transition

/-!
# Watching sources by their signs of life

A watcher notes when it heard each source last and counts the sources that it
heard within a window.  How old a sign is need not be an exact difference of
times; all that matters is that older signs have a higher age.  A source sends
signs of life with a certain period; it may be late, and a sign is on its way
for a while.  Nothing here says what a sign is or over which network it travels.

The first part is about the table of the watcher, the second one about a single
source and a single watcher as time passes: what was heard last of a source that
runs is never older than the period, the lateness and the delay together, and
what is heard of a source that stopped was sent before.
-/

namespace Watching

section Table

variable {ι τ : Type} [DecidableEq ι]

abbrev LastHeard (ι τ : Type) : Type := AList fun _ : ι => τ

/-- What a log of signs leaves behind; the log is newest first. -/
def track (log : List (ι × τ)) : LastHeard ι τ :=
  log.foldr (fun sign table => table.insert sign.1 sign.2) ∅

theorem track_cons (source : ι) (time : τ) (log : List (ι × τ)) :
    track ((source, time) :: log) = (track log).insert source time :=
  rfl

variable [LinearOrder τ] {age : τ → τ → τ}

/-- The sources that were heard within the window. -/
def recent (age : τ → τ → τ) (table : LastHeard ι τ) (now window : τ) : List ι :=
  (table.entries.filter fun entry => age now entry.2 ≤ window).map Sigma.fst

omit [DecidableEq ι] in
theorem nodup_recent (table : LastHeard ι τ) (now window : τ) :
    (recent age table now window).Nodup :=
  table.keys_nodup.sublist (List.filter_sublist.map Sigma.fst)

theorem mem_recent_iff {table : LastHeard ι τ} {now window : τ} {source : ι} :
    source ∈ recent age table now window ↔
      ∃ time, table.lookup source = some time ∧ age now time ≤ window := by
  unfold recent
  rw [List.mem_map]
  constructor
  · rintro ⟨⟨source, time⟩, member, rfl⟩
    rw [List.mem_filter, decide_eq_true_eq] at member
    exact ⟨time, AList.mem_lookup_iff.mpr member.1, member.2⟩
  · rintro ⟨time, found, inside⟩
    refine ⟨⟨source, time⟩, ?_, rfl⟩
    rw [List.mem_filter, decide_eq_true_eq]
    exact ⟨AList.mem_lookup_iff.mp found, inside⟩

theorem length_recent (table : LastHeard ι τ) (now window : τ) :
    (recent age table now window).length =
      (recent age table now window).toFinset.card :=
  (List.toFinset_card_of_nodup (nodup_recent table now window)).symm

theorem card_le_length_recent {table : LastHeard ι τ} {now window : τ}
    {expected : Finset ι}
    (all : ∀ source ∈ expected, source ∈ recent age table now window) :
    expected.card ≤ (recent age table now window).length := by
  rw [length_recent]
  apply Finset.card_le_card
  intro source member
  exact List.mem_toFinset.mpr (all source member)

theorem length_recent_le_card {table : LastHeard ι τ} {now window : τ}
    {allowed : Finset ι}
    (only : ∀ source ∈ recent age table now window, source ∈ allowed) :
    (recent age table now window).length ≤ allowed.card := by
  rw [length_recent]
  apply Finset.card_le_card
  intro source member
  exact only source (List.mem_toFinset.mp member)

/-- A log whose clock never ran backwards. -/
def Chronological (log : List (ι × τ)) : Prop :=
  log.Pairwise fun newer older => older.2 ≤ newer.2

/-- The table knows exactly the sources with a sign in the window. -/
theorem mem_recent_track_iff {log : List (ι × τ)}
    (chronological : Chronological log) {now window : τ}
    (older : Antitone (age now)) {source : ι} :
    source ∈ recent age (track log) now window ↔
      ∃ time, (source, time) ∈ log ∧ age now time ≤ window := by
  rw [mem_recent_iff]
  induction log with
  | nil => simp [track]
  | cons sign log induction =>
      obtain ⟨other, heard⟩ := sign
      rw [Chronological, List.pairwise_cons] at chronological
      obtain ⟨newest, earlier⟩ := chronological
      rw [track_cons]
      by_cases same : source = other
      · subst same
        rw [AList.lookup_insert]
        constructor
        · rintro ⟨time, found, inside⟩
          cases found
          exact ⟨heard, List.mem_cons_self, inside⟩
        · rintro ⟨time, member, inside⟩
          refine ⟨heard, rfl, ?_⟩
          rcases List.mem_cons.mp member with here | before
          · cases here
            exact inside
          · have order : time ≤ heard := newest _ before
            exact (older order).trans inside
      · rw [AList.lookup_insert_ne same, induction earlier]
        apply exists_congr
        intro time
        simp [same]

end Table

/-- What is known of the times: a running source sends again after its period,
at most `lateness` later than that, and a sign takes at most `delay`. -/
structure Terms (τ : Type) [Zero τ] [LE τ] where
  period : τ
  lateness : τ
  delay : τ
  period_nonneg : 0 ≤ period
  lateness_nonneg : 0 ≤ lateness
  delay_nonneg : 0 ≤ delay

/-- The signs of one source on their way to one watcher. -/
structure Link (τ : Type) where
  clock : τ
  /-- When the source sends next; a source that stopped never does. -/
  due : Option τ
  /-- When the signs that are on their way were sent. -/
  underway : List τ
  last : Option τ

inductive LinkAction (τ : Type) where
  | wait (duration : τ)
  | send (fails : Bool)
  | hear (sentAt : τ)
  | lose (sentAt : τ)
  | start
  | stop

def LinkAction.isReliable {τ : Type} : LinkAction τ → Bool
  | .send fails => !fails
  | .lose _ => false
  | _ => true

def LinkAction.isStart {τ : Type} : LinkAction τ → Bool
  | .start => true
  | _ => false

namespace Link

variable {τ : Type} [CommRing τ] [LinearOrder τ] [DecidableEq τ]

/-- Nothing is overdue at `time`. -/
def InTime (terms : Terms τ) (link : Link τ) (time : τ) : Prop :=
  (∀ due ∈ link.due, time ≤ due + terms.lateness) ∧
    ∀ sentAt ∈ link.underway, time ≤ sentAt + terms.delay

instance (terms : Terms τ) (link : Link τ) (time : τ) :
    Decidable (link.InTime terms time) :=
  inferInstanceAs (Decidable (_ ∧ _))

/-- Time passes only as long as nothing is overdue. -/
def step (terms : Terms τ) (link : Link τ) :
    LinkAction τ → Option (Link τ)
  | .wait duration =>
      if 0 ≤ duration ∧ link.InTime terms (link.clock + duration) then
        some { link with clock := link.clock + duration }
      else
        none
  | .send fails =>
      if link.due.any (· ≤ link.clock) then
        some { link with
          due := some (link.clock + terms.period)
          underway := if fails then link.underway
            else link.clock :: link.underway }
      else
        none
  | .hear sentAt =>
      if sentAt ∈ link.underway then
        some { link with
          underway := link.underway.erase sentAt
          last := some link.clock }
      else
        none
  | .lose sentAt =>
      if sentAt ∈ link.underway then
        some { link with underway := link.underway.erase sentAt }
      else
        none
  | .start =>
      if link.due.isNone then
        some { link with due := some link.clock }
      else
        none
  | .stop => some { link with due := none }

/-- What time cannot have passed. -/
structure Timely (terms : Terms τ) (link : Link τ) : Prop where
  inTime : link.InTime terms link.clock
  soon : ∀ due ∈ link.due, due ≤ link.clock + terms.period
  sent : ∀ sentAt ∈ link.underway, sentAt ≤ link.clock
  heard : ∀ last ∈ link.last, last ≤ link.clock

/-- The watcher has heard the latest sign, or it is on its way, sent in time
after the one that was heard. -/
def Fresh (terms : Terms τ) (link : Link τ) : Prop :=
  ∃ last, link.last = some last ∧
    ((∀ due ∈ link.due, due ≤ last + terms.period) ∨
      ∃ sentAt ∈ link.underway, sentAt ≤ last + terms.period + terms.lateness)

/-- A sign that is due by `first` is still to be sent, or is on its way, or the
watcher has heard one. -/
def Settling (terms : Terms τ) (first : τ) (link : Link τ) : Prop :=
  link.Fresh terms ∨ (∀ due ∈ link.due, due ≤ first) ∨
    ∃ sentAt ∈ link.underway, sentAt ≤ first + terms.lateness

/-- No sign has been sent after `since`. -/
structure Ebbing (terms : Terms τ) (since : τ) (link : Link τ) : Prop where
  stopped : link.due = none
  underway : ∀ sentAt ∈ link.underway, sentAt ≤ since
  last : ∀ last ∈ link.last, last ≤ since + terms.delay

section Steps

variable {terms : Terms τ} {link next : Link τ} {action : LinkAction τ}

theorem due_of_send (timely : link.Timely terms) {fails : Bool}
    (taken : link.step terms (.send fails) = some next) :
    ∃ due ∈ link.due, due ≤ link.clock ∧ link.clock ≤ due + terms.lateness := by
  obtain ⟨reached, _⟩ := Option.ite_none_right_eq_some.mp taken
  rw [Option.any_eq_true] at reached
  obtain ⟨due, isDue, passed⟩ := reached
  exact ⟨due, isDue, of_decide_eq_true passed, timely.inTime.1 due isDue⟩

theorem fresh_of_hear (timely : link.Timely terms) {sentAt : τ}
    (taken : link.step terms (.hear sentAt) = some next) :
    next.Fresh terms := by
  obtain ⟨_, ⟨⟩⟩ := Option.ite_none_right_eq_some.mp taken
  exact ⟨link.clock, rfl, .inl timely.soon⟩

variable [IsStrictOrderedRing τ]

theorem Timely.step (timely : link.Timely terms)
    (taken : link.step terms action = some next) : next.Timely terms := by
  have period := terms.period_nonneg
  have lateness := terms.lateness_nonneg
  have delay := terms.delay_nonneg
  cases action with
  | wait duration =>
      obtain ⟨⟨passes, inTime⟩, ⟨⟩⟩ := Option.ite_none_right_eq_some.mp taken
      refine ⟨inTime, ?_, ?_, ?_⟩
      · intro due isDue
        have before := timely.soon due isDue
        dsimp only
        linarith
      · intro sentAt underway
        have before := timely.sent sentAt underway
        dsimp only
        linarith
      · intro last heard
        have before := timely.heard last heard
        dsimp only
        linarith
  | send fails =>
      obtain ⟨_, ⟨⟩⟩ := Option.ite_none_right_eq_some.mp taken
      have sent : ∀ sentAt ∈ (if fails then link.underway
          else link.clock :: link.underway),
          sentAt = link.clock ∨ sentAt ∈ link.underway := by
        intro sentAt member
        cases fails with
        | false => exact List.mem_cons.mp member
        | true => exact .inr member
      refine ⟨⟨?_, ?_⟩, ?_, ?_, timely.heard⟩
      · rintro due ⟨⟩
        dsimp only
        linarith
      · intro sentAt member
        dsimp only
        rcases sent sentAt member with rfl | before
        · linarith
        · exact timely.inTime.2 sentAt before
      · rintro due ⟨⟩
        exact le_refl _
      · intro sentAt member
        rcases sent sentAt member with rfl | before
        · exact le_refl _
        · exact timely.sent sentAt before
  | hear sentAt =>
      obtain ⟨_, ⟨⟩⟩ := Option.ite_none_right_eq_some.mp taken
      have fewer : ∀ other ∈ link.underway.erase sentAt,
          other ∈ link.underway := fun _ => List.mem_of_mem_erase
      refine ⟨⟨timely.inTime.1, fun other member =>
        timely.inTime.2 other (fewer other member)⟩, timely.soon,
        fun other member => timely.sent other (fewer other member), ?_⟩
      rintro last ⟨⟩
      exact le_refl _
  | lose sentAt =>
      obtain ⟨_, ⟨⟩⟩ := Option.ite_none_right_eq_some.mp taken
      have fewer : ∀ other ∈ link.underway.erase sentAt,
          other ∈ link.underway := fun _ => List.mem_of_mem_erase
      exact ⟨⟨timely.inTime.1, fun other member =>
        timely.inTime.2 other (fewer other member)⟩, timely.soon,
        fun other member => timely.sent other (fewer other member),
        timely.heard⟩
  | start =>
      obtain ⟨_, ⟨⟩⟩ := Option.ite_none_right_eq_some.mp taken
      refine ⟨⟨?_, timely.inTime.2⟩, ?_, timely.sent, timely.heard⟩
      · rintro due ⟨⟩
        exact le_add_of_nonneg_right lateness
      · rintro due ⟨⟩
        exact le_add_of_nonneg_right period
  | stop =>
      obtain rfl := Option.some.inj taken
      refine ⟨⟨?_, timely.inTime.2⟩, ?_, timely.sent, timely.heard⟩
      · rintro due ⟨⟩
      · rintro due ⟨⟩

theorem Fresh.step (fresh : link.Fresh terms) (timely : link.Timely terms)
    (reliable : action.isReliable = true) (goesOn : action.isStart = false)
    (taken : link.step terms action = some next) : next.Fresh terms := by
  cases action with
  | wait duration =>
      obtain ⟨_, ⟨⟩⟩ := Option.ite_none_right_eq_some.mp taken
      exact fresh
  | send fails =>
      obtain ⟨due, isDue, _, inTime⟩ := due_of_send timely taken
      obtain ⟨_, ⟨⟩⟩ := Option.ite_none_right_eq_some.mp taken
      obtain rfl : fails = false := by
        simpa [LinkAction.isReliable] using reliable
      obtain ⟨last, heard, latest | ⟨sentAt, underway, sent⟩⟩ := fresh
      · refine ⟨last, heard, .inr ⟨link.clock, List.mem_cons_self, ?_⟩⟩
        have order := latest due isDue
        linarith
      · exact ⟨last, heard,
          .inr ⟨sentAt, List.mem_cons_of_mem _ underway, sent⟩⟩
  | hear sentAt => exact fresh_of_hear timely taken
  | lose sentAt => cases reliable
  | start => cases goesOn
  | stop =>
      obtain rfl := Option.some.inj taken
      obtain ⟨last, heard, _⟩ := fresh
      refine ⟨last, heard, .inl ?_⟩
      rintro due ⟨⟩

theorem Settling.step {first : τ} (settling : link.Settling terms first)
    (timely : link.Timely terms) (reliable : action.isReliable = true)
    (goesOn : action.isStart = false)
    (taken : link.step terms action = some next) :
    next.Settling terms first := by
  rcases settling with fresh | later
  · exact .inl (fresh.step timely reliable goesOn taken)
  cases action with
  | wait duration =>
      obtain ⟨_, ⟨⟩⟩ := Option.ite_none_right_eq_some.mp taken
      exact .inr later
  | send fails =>
      obtain ⟨due, isDue, _, inTime⟩ := due_of_send timely taken
      obtain ⟨_, ⟨⟩⟩ := Option.ite_none_right_eq_some.mp taken
      obtain rfl : fails = false := by
        simpa [LinkAction.isReliable] using reliable
      rcases later with soon | ⟨sentAt, underway, sent⟩
      · refine .inr (.inr ⟨link.clock, List.mem_cons_self, ?_⟩)
        have order := soon due isDue
        linarith
      · exact .inr (.inr ⟨sentAt, List.mem_cons_of_mem _ underway, sent⟩)
  | hear sentAt => exact .inl (fresh_of_hear timely taken)
  | lose sentAt => cases reliable
  | start => cases goesOn
  | stop =>
      obtain rfl := Option.some.inj taken
      refine .inr (.inl ?_)
      rintro due ⟨⟩

theorem Ebbing.step {since : τ} (ebbing : link.Ebbing terms since)
    (timely : link.Timely terms) (goesOn : action.isStart = false)
    (taken : link.step terms action = some next) :
    next.Ebbing terms since := by
  cases action with
  | wait duration =>
      obtain ⟨_, ⟨⟩⟩ := Option.ite_none_right_eq_some.mp taken
      exact ⟨ebbing.stopped, ebbing.underway, ebbing.last⟩
  | send fails =>
      obtain ⟨due, isDue, _⟩ := due_of_send timely taken
      rw [ebbing.stopped] at isDue
      cases isDue
  | hear sentAt =>
      obtain ⟨member, ⟨⟩⟩ := Option.ite_none_right_eq_some.mp taken
      refine ⟨ebbing.stopped, fun other underway =>
        ebbing.underway other (List.mem_of_mem_erase underway), ?_⟩
      rintro last ⟨⟩
      have sent := ebbing.underway sentAt member
      have arrived := timely.inTime.2 sentAt member
      linarith
  | lose sentAt =>
      obtain ⟨_, ⟨⟩⟩ := Option.ite_none_right_eq_some.mp taken
      exact ⟨ebbing.stopped, fun other underway =>
        ebbing.underway other (List.mem_of_mem_erase underway), ebbing.last⟩
  | start => cases goesOn
  | stop =>
      obtain rfl := Option.some.inj taken
      exact ⟨rfl, ebbing.underway, ebbing.last⟩

end Steps

section Runs

open Transition

variable [IsStrictOrderedRing τ] {terms : Terms τ} {start finish : Link τ}
  {steps : List (Link τ × LinkAction τ)}

theorem Timely.path (timely : start.Timely terms)
    (path : Path (Link.step terms) start steps finish) :
    finish.Timely terms :=
  path.always timely fun _ _ _ before taken => before.step taken

/-- A source that runs is in the window once the first sign must have
arrived. -/
theorem heard_of_runs (timely : start.Timely terms)
    (path : Path (Link.step terms) start steps finish)
    (reliable : Along (fun _ action =>
      action.isReliable = true ∧ action.isStart = false) steps)
    (runs : finish.due.isSome) {first : τ}
    (begins : ∀ due ∈ start.due, due ≤ first)
    (later : first + terms.lateness + terms.delay < finish.clock) :
    ∃ last, finish.last = some last ∧
      finish.clock - last ≤ terms.period + terms.lateness + terms.delay := by
  have delay := terms.delay_nonneg
  have kept : finish.Timely terms ∧ finish.Settling terms first := by
    apply path.invariant reliable ⟨timely, .inr (.inl begins)⟩
    rintro link action next ⟨timely, settling⟩ ⟨reliable, goesOn⟩ taken
    exact ⟨timely.step taken, settling.step timely reliable goesOn taken⟩
  obtain ⟨timely, settling⟩ := kept
  obtain ⟨due, isDue⟩ := Option.isSome_iff_exists.mp runs
  have soon := timely.inTime.1 due isDue
  rcases settling with ⟨last, heard, latest | ⟨sentAt, underway, sent⟩⟩ |
      waits | ⟨sentAt, underway, sent⟩
  · have order := latest due isDue
    exact ⟨last, heard, by linarith⟩
  · have arrives := timely.inTime.2 sentAt underway
    exact ⟨last, heard, by linarith⟩
  · have order := waits due isDue
    linarith
  · have arrives := timely.inTime.2 sentAt underway
    linarith

/-- What is heard of a source after it has stopped was under way by then. -/
theorem last_le_of_stopped (timely : start.Timely terms)
    (path : Path (Link.step terms) start steps finish)
    (goesOn : Along (fun _ action => action.isStart = false) steps)
    (stopped : start.due = none) :
    ∀ last ∈ finish.last, last ≤ start.clock + terms.delay := by
  have delay := terms.delay_nonneg
  have ebbs : start.Ebbing terms start.clock := by
    refine ⟨stopped, timely.sent, ?_⟩
    intro last heard
    have before := timely.heard last heard
    linarith
  have kept : finish.Timely terms ∧ finish.Ebbing terms start.clock := by
    apply path.invariant goesOn ⟨timely, ebbs⟩
    rintro link action next ⟨timely, ebbing⟩ goesOn taken
    exact ⟨timely.step taken, ebbing.step timely goesOn taken⟩
  exact kept.2.last

end Runs

end Link

end Watching
