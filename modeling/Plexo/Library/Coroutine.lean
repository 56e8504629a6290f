import Mathlib.Logic.Relation
import Plexo.Library.Transition

/-!
# Cooperative tasks

A task over a shared state, as what it does between the points at which it can
be suspended.  Everything that happens between two such points is one atomic
step; other tasks may run in between.  A task can wait for a condition on the
state, and it can run two tasks at the same time and wait for both.

`Completes` says that a task runs to its end and never waits, whatever other
tasks do in between, as long as they keep the state legal.
-/

namespace Coroutines

open Transition

inductive Coroutine (σ ε : Type) where
  | done
  | raise (error : ε)
  | step (effect : σ → σ) (next : σ → Coroutine σ ε)
  /-- Wait until the state is `ready`. -/
  | await (ready : σ → Bool) (next : Coroutine σ ε)
  /-- Run `left` and `right` at the same time, and go on with `next` when both
  are done, or with `failed` as soon as one raises an exception. -/
  | both (left right next : Coroutine σ ε) (failed : ε → Coroutine σ ε)

namespace Coroutine

variable {σ ε : Type}

/-- Run one task after the other. -/
def andThen : Coroutine σ ε → Coroutine σ ε → Coroutine σ ε
  | .done, second => second
  | .raise error, _ => .raise error
  | .step effect next, second =>
      .step effect fun state => (next state).andThen second
  | .await ready next, second => .await ready (next.andThen second)
  | .both left right next failed, second =>
      .both left right (next.andThen second)
        fun error => (failed error).andThen second

/-- Run a task with an exception handler. -/
def handle : Coroutine σ ε → (ε → Coroutine σ ε) → Coroutine σ ε
  | .done, _ => .done
  | .raise error, handler => handler error
  | .step effect next, handler =>
      .step effect fun state => (next state).handle handler
  | .await ready next, handler => .await ready (next.handle handler)
  | .both left right next failed, handler =>
      .both left right (next.handle handler)
        fun error => (failed error).handle handler

/-- Run tasks at the same time and wait for all of them. -/
def gather : List (Coroutine σ ε) → Coroutine σ ε
  | [] => .done
  | task :: tasks => .both task (gather tasks) .done .raise

def update (effect : σ → σ) : Coroutine σ ε :=
  .step effect fun _ => .done

def hasEnded : Coroutine σ ε → Bool
  | .done => true
  | .raise _ => true
  | _ => false

def waits (state : σ) : Coroutine σ ε → Bool
  | .await ready _ => !ready state
  | .both left right _ _ => left.waits state || right.waits state
  | _ => false

/-- One step of a task; `branch` says which of the tasks running inside takes
it. -/
def advance : Coroutine σ ε → List Bool → σ → Option (σ × Coroutine σ ε)
  | .done, _, _ => none
  | .raise _, _, _ => none
  | .step effect next, _, state => some (effect state, next state)
  | .await ready next, _, state =>
      if ready state then some (state, next) else none
  | .both left right next failed, branch, state =>
      match branch with
      | true :: inside =>
          (left.advance inside state).map fun result =>
            (result.1, .both result.2 right next failed)
      | false :: inside =>
          (right.advance inside state).map fun result =>
            (result.1, .both left result.2 next failed)
      | [] =>
          match left, right with
          | .raise error, _ => some (state, failed error)
          | _, .raise error => some (state, failed error)
          | .done, .done => some (state, next)
          | _, _ => none

/-- What a step of two tasks side by side is. -/
inductive BothStep (left right next : Coroutine σ ε) (failed : ε → Coroutine σ ε)
    (state : σ) : σ × Coroutine σ ε → Prop where
  | left {inside : List Bool} {after : σ} {rest : Coroutine σ ε} :
      left.advance inside state = some (after, rest) →
      BothStep left right next failed state
        (after, .both rest right next failed)
  | right {inside : List Bool} {after : σ} {rest : Coroutine σ ε} :
      right.advance inside state = some (after, rest) →
      BothStep left right next failed state
        (after, .both left rest next failed)
  | join : BothStep left right next failed state (state, next)
  | fail (error : ε) :
      BothStep left right next failed state (state, failed error)

theorem bothStep_of_advance {left right next : Coroutine σ ε}
    {failed : ε → Coroutine σ ε} {branch : List Bool} {state : σ}
    {result : σ × Coroutine σ ε}
    (taken : (Coroutine.both left right next failed).advance branch state =
      some result) : BothStep left right next failed state result := by
  cases branch with
  | cons side inside =>
      cases side with
      | true =>
          obtain ⟨⟨after, rest⟩, advanced, rfl⟩ := Option.map_eq_some_iff.mp taken
          exact .left advanced
      | false =>
          obtain ⟨⟨after, rest⟩, advanced, rfl⟩ := Option.map_eq_some_iff.mp taken
          exact .right advanced
  | nil =>
      simp only [advance] at taken
      split at taken
      · exact Option.some.inj taken ▸ .fail _
      · exact Option.some.inj taken ▸ .fail _
      · exact Option.some.inj taken ▸ .join
      · cases taken

/-- `after` is what a step of `before` leaves to be done. -/
def Leaves (after before : Coroutine σ ε) : Prop :=
  ∃ branch state next, before.advance branch state = some (next, after)

theorem leaves_accessible (task : Coroutine σ ε) : Acc Leaves task := by
  induction task with
  | done => exact ⟨_, fun _ ⟨_, _, _, taken⟩ => by cases taken⟩
  | raise error => exact ⟨_, fun _ ⟨_, _, _, taken⟩ => by cases taken⟩
  | step effect next induction =>
      refine ⟨_, fun after left => ?_⟩
      obtain ⟨branch, state, result, taken⟩ := left
      cases taken
      exact induction state
  | await ready next induction =>
      refine ⟨_, fun after left => ?_⟩
      obtain ⟨branch, state, result, taken⟩ := left
      simp only [advance] at taken
      split at taken
      · cases taken
        exact induction
      · cases taken
  | both left right next failed leftEnds rightEnds nextEnds failedEnds =>
      -- a step inside makes one side smaller, any other step leaves the pair
      induction leftEnds generalizing right with
      | intro left _ leftInduction =>
          induction rightEnds with
          | intro right rightBefore rightInduction =>
              refine ⟨_, fun after leaves => ?_⟩
              obtain ⟨branch, state, result, taken⟩ := leaves
              cases bothStep_of_advance taken with
              | left advanced =>
                  exact leftInduction _ ⟨_, _, _, advanced⟩ _
                    ⟨right, rightBefore⟩
              | right advanced => exact rightInduction _ ⟨_, _, _, advanced⟩
              | join => exact nextEnds
              | fail error => exact failedEnds error

/-- The task runs to its end and never waits, whatever other tasks do before
each of its steps, as long as the states stay legal; its own steps keep them
legal. -/
inductive Completes (legal : σ → Prop) : Coroutine σ ε → Prop where
  | done : Completes legal .done
  | raise (error : ε) : Completes legal (.raise error)
  | step {effect : σ → σ} {next : σ → Coroutine σ ε} :
      (∀ state, legal state → legal (effect state)) →
      (∀ state, legal state → Completes legal (next state)) →
      Completes legal (.step effect next)
  | both {left right next : Coroutine σ ε} {failed : ε → Coroutine σ ε} :
      Completes legal left → Completes legal right → Completes legal next →
      (∀ error, Completes legal (failed error)) →
      Completes legal (.both left right next failed)

namespace Completes

variable {legal : σ → Prop}

theorem andThen {first second : Coroutine σ ε} (completes : Completes legal first)
    (after : Completes legal second) :
    Completes legal (first.andThen second) := by
  induction completes with
  | done => exact after
  | raise error => exact .raise error
  | step keeps _ induction =>
      apply step
      · exact keeps
      · exact induction
  | both left right _ _ _ _ nextInduction failedInduction =>
      apply both
      · exact left
      · exact right
      · exact nextInduction
      · exact failedInduction

theorem handle {task : Coroutine σ ε} {handler : ε → Coroutine σ ε}
    (completes : Completes legal task)
    (handled : ∀ error, Completes legal (handler error)) :
    Completes legal (task.handle handler) := by
  induction completes with
  | done => exact .done
  | raise error => exact handled error
  | step keeps _ induction =>
      apply step
      · exact keeps
      · exact induction
  | both left right _ _ _ _ nextInduction failedInduction =>
      apply both
      · exact left
      · exact right
      · exact nextInduction
      · exact failedInduction

theorem gather {tasks : List (Coroutine σ ε)}
    (all : ∀ task ∈ tasks, Completes legal task) :
    Completes legal (gather tasks) := by
  induction tasks with
  | nil => exact .done
  | cons task tasks induction =>
      apply both
      · exact all task List.mem_cons_self
      · exact induction fun other member =>
          all other (List.mem_cons_of_mem _ member)
      · exact .done
      · exact .raise

theorem update {effect : σ → σ}
    (keeps : ∀ state, legal state → legal (effect state)) :
    Completes legal (update effect : Coroutine σ ε) :=
  step keeps fun _ _ => .done

theorem not_waits {task : Coroutine σ ε} (completes : Completes legal task)
    (state : σ) : task.waits state = false := by
  induction completes with
  | both _ _ _ _ left right _ _ => simp [waits, left, right]
  | _ => rfl

theorem advance {task rest : Coroutine σ ε} (completes : Completes legal task)
    {branch : List Bool} {state next : σ} (legalNow : legal state)
    (taken : task.advance branch state = some (next, rest)) :
    legal next ∧ Completes legal rest := by
  induction completes generalizing branch next rest with
  | done => cases taken
  | raise error => cases taken
  | step keeps completes _ =>
      cases taken
      exact ⟨keeps state legalNow, completes state legalNow⟩
  | both left right after failed leftInduction rightInduction _ _ =>
      cases bothStep_of_advance taken with
      | left advanced =>
          obtain ⟨legalNext, rest⟩ := leftInduction advanced
          exact ⟨legalNext, .both rest right after failed⟩
      | right advanced =>
          obtain ⟨legalNext, rest⟩ := rightInduction advanced
          exact ⟨legalNext, .both left rest after failed⟩
      | join => exact ⟨legalNow, after⟩
      | fail error => exact ⟨legalNow, failed error⟩

/-- A task that completes has ended or can take a step. -/
theorem progress {task : Coroutine σ ε} (completes : Completes legal task)
    (state : σ) : task.hasEnded = true ∨
      ∃ branch, (task.advance branch state).isSome = true := by
  induction completes with
  | done => exact .inl rfl
  | raise error => exact .inl rfl
  | step _ _ _ => exact .inr ⟨[], rfl⟩
  | @both left right next failed _ _ _ _ leftMoves rightMoves _ _ =>
      refine .inr ?_
      rcases leftMoves with leftEnded | ⟨branch, moves⟩
      · rcases rightMoves with rightEnded | ⟨branch, moves⟩
        · refine ⟨[], ?_⟩
          cases left <;> cases right <;>
            simp_all [Coroutine.advance, hasEnded]
        · exact ⟨false :: branch, by simpa [Coroutine.advance] using moves⟩
      · exact ⟨true :: branch, by simpa [Coroutine.advance] using moves⟩

end Completes

/-- The steps of a task and of its environment, in any order. -/
def besides {α : Type} (environment : σ → α → Option σ)
    (pair : σ × Coroutine σ ε) : List Bool ⊕ α → Option (σ × Coroutine σ ε)
  | .inl branch => pair.2.advance branch pair.1
  | .inr action =>
      (environment pair.1 action).map fun state => (state, pair.2)

/-- A task that completes does so next to an environment that keeps the states
legal. -/
theorem Completes.besides {α : Type} {environment : σ → α → Option σ}
    {legal : σ → Prop} {steps : List ((σ × Coroutine σ ε) × (List Bool ⊕ α))}
    {start finish : σ × Coroutine σ ε}
    (keeps : ∀ state action next, legal state →
      environment state action = some next → legal next)
    (legalFirst : legal start.1) (completes : Completes legal start.2)
    (path : Path (besides environment) start steps finish) :
    legal finish.1 ∧ Completes legal finish.2 := by
  apply path.always
  · exact ⟨legalFirst, completes⟩
  · intro pair action next before taken
    obtain ⟨legalNow, completesNow⟩ := before
    cases action with
    | inl branch => exact completesNow.advance legalNow taken
    | inr action =>
        obtain ⟨state, moved, rfl⟩ := Option.map_eq_some_iff.mp taken
        exact ⟨keeps _ _ _ legalNow moved, completesNow⟩

/-- The task cannot take steps forever, and however an environment changes the
state in between, staying within the legal states, it never waits and can take
its next step until it has ended. -/
def RunsThrough (legal : σ → Prop) (task : Coroutine σ ε) : Prop :=
  Acc Leaves task ∧
    ∀ (start : σ) (steps : List ((σ × Coroutine σ ε) ×
        (List Bool ⊕ {state // legal state}))) (finish : σ × Coroutine σ ε),
      legal start →
      Path (besides fun _ next => some next.val) (start, task) steps finish →
      finish.2.waits finish.1 = false ∧
        (finish.2.hasEnded = true ∨
          ∃ branch, (finish.2.advance branch finish.1).isSome = true)

theorem Completes.runsThrough {legal : σ → Prop} {task : Coroutine σ ε}
    (completes : Completes legal task) : RunsThrough legal task := by
  refine ⟨leaves_accessible task, ?_⟩
  intro start steps finish legalFirst path
  have after := Completes.besides
    (fun _ action _ _ moved => Option.some.inj moved ▸ action.property)
    legalFirst completes path
  exact ⟨after.2.not_waits finish.1, after.2.progress finish.1⟩

/-- A step that the task takes on its own. -/
def Own (before after : σ × Coroutine σ ε) : Prop :=
  ∃ branch, before.2.advance branch before.1 = some after

/-- Steps that the task takes on its own. -/
abbrev Owns : σ × Coroutine σ ε → σ × Coroutine σ ε → Prop :=
  Relation.ReflTransGen Own

/-- With nothing else running, the task can come to its end without an
exception, and leave `after`. -/
def Finishes (before : σ) (task : Coroutine σ ε) (after : σ) : Prop :=
  Owns (before, task) (after, .done)

/-- With nothing else running, the task can come to wait. -/
def ComesToWait (state : σ) (task : Coroutine σ ε) : Prop :=
  ∃ after, Owns (state, task) after ∧ after.2.waits after.1 = true

theorem advance_andThen {first second rest : Coroutine σ ε} {branch : List Bool}
    {state next : σ} (taken : first.advance branch state = some (next, rest)) :
    (first.andThen second).advance branch state =
      some (next, rest.andThen second) := by
  cases first with
  | done => cases taken
  | raise error => cases taken
  | step effect go =>
      cases taken
      rfl
  | await ready go =>
      simp only [advance, andThen] at taken ⊢
      split at taken
      · next isReady =>
          cases taken
          rw [if_pos isReady]
      · cases taken
  | both left right go failed =>
      cases branch with
      | cons side inside =>
          cases side <;>
            (obtain ⟨⟨after, remaining⟩, advanced, same⟩ :=
              Option.map_eq_some_iff.mp taken
             cases same
             simp [advance, andThen, advanced])
      | nil =>
          simp only [advance, andThen] at taken ⊢
          split at taken <;> simp_all

theorem advance_handle {task rest : Coroutine σ ε} {handler : ε → Coroutine σ ε}
    {branch : List Bool} {state next : σ}
    (taken : task.advance branch state = some (next, rest)) :
    (task.handle handler).advance branch state =
      some (next, rest.handle handler) := by
  cases task with
  | done => cases taken
  | raise error => cases taken
  | step effect go =>
      cases taken
      rfl
  | await ready go =>
      simp only [advance, handle] at taken ⊢
      split at taken
      · next isReady =>
          cases taken
          rw [if_pos isReady]
      · cases taken
  | both left right go failed =>
      cases branch with
      | cons side inside =>
          cases side <;>
            (obtain ⟨⟨after, remaining⟩, advanced, same⟩ :=
              Option.map_eq_some_iff.mp taken
             cases same
             simp [advance, handle, advanced])
      | nil =>
          simp only [advance, handle] at taken ⊢
          split at taken <;> simp_all

theorem owns_andThen {before after : σ × Coroutine σ ε} (owns : Owns before after)
    (second : Coroutine σ ε) :
    Owns (before.1, before.2.andThen second)
      (after.1, after.2.andThen second) := by
  induction owns with
  | refl => exact .refl
  | tail _ own induction =>
      obtain ⟨branch, taken⟩ := own
      exact induction.tail ⟨branch, advance_andThen taken⟩

theorem owns_handle {before after : σ × Coroutine σ ε} (owns : Owns before after)
    (handler : ε → Coroutine σ ε) :
    Owns (before.1, before.2.handle handler)
      (after.1, after.2.handle handler) := by
  induction owns with
  | refl => exact .refl
  | tail _ own induction =>
      obtain ⟨branch, taken⟩ := own
      exact induction.tail ⟨branch, advance_handle taken⟩

theorem owns_left {before after : σ × Coroutine σ ε} (owns : Owns before after)
    (right next : Coroutine σ ε) (failed : ε → Coroutine σ ε) :
    Owns (before.1, .both before.2 right next failed)
      (after.1, .both after.2 right next failed) := by
  induction owns with
  | refl => exact .refl
  | tail _ own induction =>
      obtain ⟨branch, taken⟩ := own
      exact induction.tail ⟨true :: branch, by simp [advance, taken]⟩

theorem owns_right {before after : σ × Coroutine σ ε} (owns : Owns before after)
    (left next : Coroutine σ ε) (failed : ε → Coroutine σ ε) :
    Owns (before.1, .both left before.2 next failed)
      (after.1, .both left after.2 next failed) := by
  induction owns with
  | refl => exact .refl
  | tail _ own induction =>
      obtain ⟨branch, taken⟩ := own
      exact induction.tail ⟨false :: branch, by simp [advance, taken]⟩

theorem Finishes.done (state : σ) : Finishes state (.done : Coroutine σ ε) state :=
  .refl

theorem Finishes.step {state after : σ} {effect : σ → σ}
    {next : σ → Coroutine σ ε} (rest : Finishes (effect state) (next state) after) :
    Finishes state (.step effect next) after :=
  .head ⟨[], rfl⟩ rest

theorem Finishes.andThen {before middle after : σ} {first second : Coroutine σ ε}
    (finishes : Finishes before first middle)
    (rest : Finishes middle second after) :
    Finishes before (first.andThen second) after :=
  (owns_andThen finishes second).trans rest

theorem Finishes.gather_cons {before middle after : σ} {task : Coroutine σ ε}
    {tasks : List (Coroutine σ ε)} (finishes : Finishes before task middle)
    (rest : Finishes middle (gather tasks) after) :
    Finishes before (gather (task :: tasks)) after := by
  have leftDone := owns_left finishes (gather tasks) .done .raise
  have rightDone := owns_right rest .done .done .raise
  exact (leftDone.trans rightDone).tail ⟨[], rfl⟩

theorem waits_andThen {state : σ} {first : Coroutine σ ε}
    (waiting : first.waits state = true) (second : Coroutine σ ε) :
    (first.andThen second).waits state = true := by
  cases first with
  | await ready go => exact waiting
  | both left right go failed => exact waiting
  | _ => cases waiting

theorem waits_handle {state : σ} {task : Coroutine σ ε}
    (waiting : task.waits state = true) (handler : ε → Coroutine σ ε) :
    (task.handle handler).waits state = true := by
  cases task with
  | await ready go => exact waiting
  | both left right go failed => exact waiting
  | _ => cases waiting

namespace ComesToWait

theorem step {state : σ} {effect : σ → σ} {next : σ → Coroutine σ ε}
    (comes : ComesToWait (effect state) (next state)) :
    ComesToWait state (.step effect next) := by
  obtain ⟨after, owns, waits⟩ := comes
  exact ⟨after, .head ⟨[], rfl⟩ owns, waits⟩

theorem andThen_left {state : σ} {first : Coroutine σ ε}
    (comes : ComesToWait state first) (second : Coroutine σ ε) :
    ComesToWait state (first.andThen second) := by
  obtain ⟨after, owns, waits⟩ := comes
  exact ⟨_, owns_andThen owns second, waits_andThen waits second⟩

theorem andThen {state middle : σ} {first second : Coroutine σ ε}
    (finishes : Finishes state first middle)
    (comes : ComesToWait middle second) :
    ComesToWait state (first.andThen second) := by
  obtain ⟨after, owns, waits⟩ := comes
  exact ⟨after, (owns_andThen finishes second).trans owns, waits⟩

theorem handle {state : σ} {task : Coroutine σ ε} (comes : ComesToWait state task)
    (handler : ε → Coroutine σ ε) : ComesToWait state (task.handle handler) := by
  obtain ⟨after, owns, waits⟩ := comes
  exact ⟨_, owns_handle owns handler, waits_handle waits handler⟩

/-- It is enough that one of the gathered tasks comes to wait. -/
theorem gather {state : σ} {task : Coroutine σ ε} {tasks : List (Coroutine σ ε)}
    (member : task ∈ tasks) (comes : ComesToWait state task) :
    ComesToWait state (gather tasks) := by
  induction tasks with
  | nil => cases member
  | cons first tasks induction =>
      rcases List.mem_cons.mp member with same | later
      · subst same
        obtain ⟨after, owns, waits⟩ := comes
        exact ⟨_, owns_left owns (Coroutine.gather tasks) .done .raise,
          by simp [Coroutine.waits, waits]⟩
      · obtain ⟨after, owns, waits⟩ := induction later
        exact ⟨_, owns_right owns first .done .raise,
          by simp [Coroutine.waits, waits]⟩

/-- What a task can do on its own it can do next to an environment. -/
theorem path {α : Type} {state : σ} {task : Coroutine σ ε}
    (comes : ComesToWait state task) (environment : σ → α → Option σ) :
    ∃ steps finish, Path (besides environment) (state, task) steps finish ∧
      finish.2.waits finish.1 = true := by
  obtain ⟨after, owns, waits⟩ := comes
  have run : ∃ steps, Path (besides environment) (state, task) steps after := by
    clear waits
    induction owns with
    | refl => exact ⟨[], .refl⟩
    | @tail middle last _ own induction =>
        obtain ⟨steps, before⟩ := induction
        obtain ⟨branch, taken⟩ := own
        have step : besides environment middle (.inl branch) = some last := taken
        exact ⟨_, before.snoc step⟩
  obtain ⟨steps, path⟩ := run
  exact ⟨steps, after, path, waits⟩

/-- A task that comes to wait in a legal state does not run through. -/
theorem not_runsThrough {legal : σ → Prop} {state : σ} {task : Coroutine σ ε}
    (comes : ComesToWait state task) (legalFirst : legal state) :
    ¬ RunsThrough legal task := by
  intro runs
  obtain ⟨steps, finish, path, waits⟩ := comes.path
    fun _ (next : {state // legal state}) => some next.val
  have neverWaits := (runs.2 state steps finish legalFirst path).1
  rw [waits] at neverWaits
  cases neverWaits

end ComesToWait

end Coroutine

end Coroutines
