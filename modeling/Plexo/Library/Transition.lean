import Mathlib.Data.List.Basic

/-!
# Runs of a labelled transition system

A system is a partial step function: an action is either not enabled in a
state or leads to exactly one next state.  Nondeterminism lives in the choice
of the action.  A path keeps the states in which its actions were taken, so
that a condition on single steps can be imposed on a whole run.
-/

namespace Transition

variable {σ α : Type}

/-- `Path step start steps finish`: the run from `start` to `finish` that takes
`steps`.  Each entry is a state and the action taken in it, newest first. -/
inductive Path (step : σ → α → Option σ) (start : σ) :
    List (σ × α) → σ → Prop where
  | refl : Path step start [] start
  | snoc {steps : List (σ × α)} {middle finish : σ} {action : α} :
      Path step start steps middle →
      step middle action = some finish →
      Path step start ((middle, action) :: steps) finish

/-- Every step of a run meets `condition`. -/
def Along (condition : σ → α → Prop) (steps : List (σ × α)) : Prop :=
  ∀ entry ∈ steps, condition entry.1 entry.2

theorem along_cons {condition : σ → α → Prop} {state : σ} {action : α}
    {steps : List (σ × α)} :
    Along condition ((state, action) :: steps) ↔
      condition state action ∧ Along condition steps := by
  simp [Along]

instance {condition : σ → α → Prop} [∀ state action,
    Decidable (condition state action)] (steps : List (σ × α)) :
    Decidable (Along condition steps) :=
  inferInstanceAs (Decidable (∀ entry ∈ steps, condition entry.1 entry.2))

namespace Path

variable {step : σ → α → Option σ}

theorem append {start middle finish : σ} {first second : List (σ × α)}
    (before : Path step start first middle)
    (after : Path step middle second finish) :
    Path step start (second ++ first) finish := by
  induction after with
  | refl => exact before
  | snoc _ taken induction => exact .snoc induction taken

theorem split {start state finish : σ} {action : α} {late soon : List (σ × α)}
    (path : Path step start (late ++ (state, action) :: soon) finish) :
    ∃ next, Path step start soon state ∧ step state action = some next ∧
      Path step next late finish := by
  induction late generalizing finish with
  | nil =>
      cases path with
      | snoc before taken => exact ⟨finish, before, taken, .refl⟩
  | cons entry late induction =>
      cases path with
      | snoc before taken =>
          obtain ⟨next, first, here, rest⟩ := induction before
          exact ⟨next, first, here, rest.snoc taken⟩

/-- The rule of invariants: what holds initially and is preserved by every
step that meets the condition holds at the end of a run whose steps do. -/
theorem invariant {condition : σ → α → Prop} {holds : σ → Prop}
    {start finish : σ} {steps : List (σ × α)}
    (path : Path step start steps finish)
    (along : Along condition steps)
    (initial : holds start)
    (preserved : ∀ state action next, holds state → condition state action →
      step state action = some next → holds next) :
    holds finish := by
  induction path with
  | refl => exact initial
  | snoc _ taken induction =>
      obtain ⟨here, earlier⟩ := along_cons.mp along
      exact preserved _ _ _ (induction earlier) here taken

/-- The rule of invariants for runs without a condition on their steps. -/
theorem always {holds : σ → Prop} {start finish : σ} {steps : List (σ × α)}
    (path : Path step start steps finish) (initial : holds start)
    (preserved : ∀ state action next, holds state →
      step state action = some next → holds next) : holds finish := by
  induction path with
  | refl => exact initial
  | snoc _ taken induction => exact preserved _ _ _ induction taken

/-- The rule of refinement: if every step of one system is a step of another
one, then every run is. -/
theorem refine {τ β : Type} {other : τ → β → Option τ} (state : σ → τ)
    (label : α → β) {good : σ → Prop} {start finish : σ}
    {steps : List (σ × α)} (path : Path step start steps finish)
    (initial : good start)
    (preserved : ∀ state action next, good state →
      step state action = some next → good next)
    (simulated : ∀ before action after, good before →
      step before action = some after →
        other (state before) (label action) = some (state after)) :
    Path other (state start)
      (steps.map fun entry => (state entry.1, label entry.2))
      (state finish) := by
  induction path with
  | refl => exact .refl
  | snoc earlier taken induction =>
      exact .snoc induction
        (simulated _ _ _ (earlier.always initial preserved) taken)

/-- The rule of refinement with stuttering: if every step of one system is a
step of another one or leaves its state alone, then every run is. -/
theorem stutter {τ β : Type} {other : τ → β → Option τ} (state : σ → τ)
    (label : α → Option β) {condition : σ → α → Prop} {good : σ → Prop}
    {start finish : σ} {steps : List (σ × α)}
    (path : Path step start steps finish) (along : Along condition steps)
    (initial : good start)
    (preserved : ∀ state action next, good state → condition state action →
      step state action = some next → good next)
    (simulated : ∀ before action after, good before → condition before action →
      step before action = some after →
        match label action with
        | none => state after = state before
        | some shown => other (state before) shown = some (state after)) :
    Path other (state start)
      (steps.filterMap fun entry =>
        (label entry.2).map fun shown => (state entry.1, shown))
      (state finish) := by
  induction path with
  | refl => exact .refl
  | @snoc steps middle finish action earlier taken induction =>
      obtain ⟨here, before⟩ := along_cons.mp along
      have goodHere := earlier.invariant before initial preserved
      have shows := simulated middle action finish goodHere here taken
      rw [List.filterMap_cons]
      cases shown : label action with
      | none =>
          rw [shown] at shows
          dsimp only at shows
          rw [shows]
          exact induction before
      | some visible =>
          rw [shown] at shows
          exact (induction before).snoc shows

/-- The rule of measures: a run whose steps all lower a measure is no longer than
it is at the start. -/
theorem length_le_of_lowers {condition : σ → α → Prop} {good : σ → Prop}
    {measure : σ → Nat} {start finish : σ} {steps : List (σ × α)}
    (path : Path step start steps finish) (along : Along condition steps)
    (initial : good start)
    (preserved : ∀ state action next, good state → condition state action →
      step state action = some next → good next)
    (lowers : ∀ state action next, good state → condition state action →
      step state action = some next → measure next < measure state) :
    steps.length + measure finish ≤ measure start := by
  induction path with
  | refl => simp
  | snoc earlier taken induction =>
      obtain ⟨here, before⟩ := along_cons.mp along
      have less := lowers _ _ _ (earlier.invariant before initial preserved)
        here taken
      have sum := induction before
      rw [List.length_cons]
      omega

/-- The rule of projection: if every step of one system leaves a part of its
state alone or is a step of another system there, then every run shows a run of
that system. -/
theorem project {τ β : Type} {other : τ → β → Option τ} (part : σ → τ)
    {start finish : σ} {steps : List (σ × α)}
    (path : Path step start steps finish)
    (shows : ∀ before action after, step before action = some after →
      part after = part before ∨
        ∃ shown, other (part before) shown = some (part after)) :
    ∃ shown, Path other (part start) shown (part finish) := by
  induction path with
  | refl => exact ⟨[], .refl⟩
  | snoc _ taken induction =>
      obtain ⟨shown, before⟩ := induction
      rcases shows _ _ _ taken with same | ⟨action, moved⟩
      · rw [same]
        exact ⟨shown, before⟩
      · exact ⟨_, before.snoc moved⟩

/-- The rule of exact conditions: if a step from a good state in which `holds`
is true keeps it true exactly where it meets the condition, then it is true in
every state of a run exactly if it is at the start and all steps meet the
condition. -/
theorem throughout_iff {condition : σ → α → Prop} {good holds : σ → Prop}
    {start finish : σ} {steps : List (σ × α)}
    (path : Path step start steps finish) (initial : good start)
    (preserved : ∀ state action next, good state →
      step state action = some next → good next)
    (exact_ : ∀ state action next, good state → holds state →
      step state action = some next → (holds next ↔ condition state action)) :
    (holds finish ∧ ∀ entry ∈ steps, holds entry.1) ↔
      holds start ∧ Along condition steps := by
  induction path with
  | refl => simp [Along]
  | @snoc steps middle finish action before taken induction =>
      have here := before.always initial preserved
      constructor
      · rintro ⟨last, all⟩
        have held := all _ List.mem_cons_self
        obtain ⟨first, along⟩ := induction.mp
          ⟨held, fun entry member => all entry (List.mem_cons_of_mem _ member)⟩
        exact ⟨first, along_cons.mpr
          ⟨(exact_ _ _ _ here held taken).mp last, along⟩⟩
      · rintro ⟨first, along⟩
        obtain ⟨meets, earlier⟩ := along_cons.mp along
        obtain ⟨held, all⟩ := induction.mpr ⟨first, earlier⟩
        refine ⟨(exact_ _ _ _ here held taken).mpr meets, ?_⟩
        intro entry member
        rcases List.mem_cons.mp member with rfl | before
        · exact held
        · exact all entry before

theorem reached {start finish state : σ} {action : α} {steps : List (σ × α)}
    (path : Path step start steps finish) (member : (state, action) ∈ steps) :
    ∃ earlier next, Path step start earlier state ∧
      step state action = some next ∧ (∀ entry ∈ earlier, entry ∈ steps) := by
  induction path with
  | refl => simp at member
  | @snoc steps middle finish taken before here induction =>
      rcases List.mem_cons.mp member with same | earlier
      · cases same
        exact ⟨steps, finish, before, here,
          fun entry inside => List.mem_cons_of_mem _ inside⟩
      · obtain ⟨prefixSteps, next, reachedState, stepTaken, inside⟩ :=
          induction earlier
        exact ⟨prefixSteps, next, reachedState, stepTaken,
          fun entry found => List.mem_cons_of_mem _ (inside entry found)⟩

end Path

/-- Run a list of actions, oldest first, stopping at one that is not enabled. -/
def exec (step : σ → α → Option σ) (start : σ) : List α → Option σ
  | [] => some start
  | action :: actions =>
      match step start action with
      | none => none
      | some next => exec step next actions

/-- The states and actions that `exec` goes through, newest first. -/
def visited (step : σ → α → Option σ) (start : σ)
    (passed : List (σ × α)) : List α → List (σ × α)
  | [] => passed
  | action :: actions =>
      match step start action with
      | none => passed
      | some next => visited step next ((start, action) :: passed) actions

theorem path_of_exec_append {step : σ → α → Option σ} {origin start finish : σ}
    {passed : List (σ × α)} {actions : List α}
    (before : Path step origin passed start)
    (result : exec step start actions = some finish) :
    Path step origin (visited step start passed actions) finish := by
  induction actions generalizing start passed with
  | nil =>
      simp only [exec, Option.some.injEq] at result
      subst result
      exact before
  | cons action actions induction =>
      cases taken : step start action with
      | none => simp [exec, taken] at result
      | some next =>
          simp only [exec, taken] at result
          simp only [visited, taken]
          exact induction (before.snoc taken) result

/-- A successful execution is a run. -/
theorem path_of_exec {step : σ → α → Option σ} {start finish : σ}
    {actions : List α} (result : exec step start actions = some finish) :
    Path step start (visited step start [] actions) finish :=
  path_of_exec_append .refl result

theorem exec_eq_getD {step : σ → α → Option σ} {start other : σ}
    {actions : List α} (ends : (exec step start actions).isSome = true) :
    exec step start actions = some ((exec step start actions).getD other) := by
  rw [← Option.get_eq_getD _ (h := ends), Option.some_get]

theorem path_of_any {step : σ → α → Option σ} {start : σ} {actions : List α}
    {test : σ → Bool}
    (passed : (exec step start actions).any test = true) :
    ∃ finish, Path step start (visited step start [] actions) finish ∧
      test finish = true := by
  obtain ⟨finish, result, passes⟩ := (Option.any_eq_true _ _).mp passed
  exact ⟨finish, path_of_exec result, passes⟩

theorem along_visited {step : σ → α → Option σ} {condition : α → Prop}
    {start : σ} {passed : List (σ × α)} {actions : List α}
    (before : Along (fun _ => condition) passed)
    (all : ∀ action ∈ actions, condition action) :
    Along (fun _ => condition) (visited step start passed actions) := by
  induction actions generalizing start passed with
  | nil => exact before
  | cons action actions induction =>
      unfold visited
      split
      · exact before
      · apply induction
        · exact along_cons.mpr ⟨all action List.mem_cons_self, before⟩
        · exact fun other member => all other (List.mem_cons_of_mem _ member)

/-- The newest step that raises or lowers a flag raises it. -/
def isUp (raises lowers : σ → α → Bool) : List (σ × α) → Bool
  | [] => false
  | (state, action) :: older =>
      raises state action ||
        !lowers state action && isUp raises lowers older

/-- The rule of flags: what is down at the start, and changes with the steps
that raise or lower it only, is up exactly if the newest of them raised it. -/
theorem Path.flag_eq {step : σ → α → Option σ} {raises lowers : σ → α → Bool}
    {good : σ → Prop} {flag : σ → Bool} {start finish : σ}
    {steps : List (σ × α)} (path : Path step start steps finish)
    (initial : good start) (down : flag start = false)
    (preserved : ∀ state action next, good state →
      step state action = some next → good next)
    (moved : ∀ state action next, good state →
      step state action = some next →
      flag next = (raises state action || !lowers state action && flag state)) :
    flag finish = isUp raises lowers steps := by
  induction path with
  | refl => exact down
  | snoc before taken induction =>
      rw [moved _ _ _ (before.always initial preserved) taken, induction]
      rfl

theorem isUp_or (raises others lowers : σ → α → Bool) (steps : List (σ × α)) :
    isUp (fun state action => raises state action || others state action) lowers
      steps = (isUp raises lowers steps || isUp others lowers steps) := by
  induction steps with
  | nil => rfl
  | cons entry older induction =>
      simp only [isUp, induction]
      cases raises entry.1 entry.2 <;> cases others entry.1 entry.2 <;>
        cases lowers entry.1 entry.2 <;> simp

theorem isUp_of_never_lowered (raises : σ → α → Bool) (steps : List (σ × α)) :
    isUp raises (fun _ _ => false) steps =
      steps.any fun entry => raises entry.1 entry.2 := by
  induction steps with
  | nil => rfl
  | cons entry older induction => simp [isUp, induction]

/-- In a history kept newest first, every entry stands in `relation` to what
happened before it. -/
def Everywhere (relation : α → List α → Prop) : List α → Prop
  | [] => True
  | entry :: older => relation entry older ∧ Everywhere relation older

def Everywhere.decide {relation : α → List α → Prop}
    [∀ entry older, Decidable (relation entry older)] :
    (history : List α) → Decidable (Everywhere relation history)
  | [] => .isTrue trivial
  | entry :: older =>
      have : Decidable (Everywhere relation older) := Everywhere.decide older
      inferInstanceAs (Decidable (relation entry older ∧ _))

instance {relation : α → List α → Prop}
    [∀ entry older, Decidable (relation entry older)] (history : List α) :
    Decidable (Everywhere relation history) :=
  Everywhere.decide history

theorem everywhere_at {relation : α → List α → Prop} {newer older : List α}
    {entry : α} (everywhere : Everywhere relation (newer ++ entry :: older)) :
    relation entry older := by
  induction newer with
  | nil => exact everywhere.1
  | cons _ newer induction => exact induction everywhere.2

theorem everywhere_append {relation : α → List α → Prop} {newer older : List α}
    (always : ∀ entry ∈ newer, ∀ rest, relation entry rest)
    (everywhere : Everywhere relation older) :
    Everywhere relation (newer ++ older) := by
  induction newer with
  | nil => exact everywhere
  | cons entry newer induction =>
      exact ⟨always entry List.mem_cons_self _,
        induction fun other member => always other (List.mem_cons_of_mem _ member)⟩

end Transition
