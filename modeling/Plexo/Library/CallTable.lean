import Mathlib.Algebra.Group.Action.Defs
import Mathlib.Algebra.Order.BigOperators.Group.List
import Mathlib.Tactic.Linarith
import Plexo.Library.Transition

/-!
# Calls that run at the same time

A call runs its body in one atomic step: it ends, raises an exception, or makes
further calls, all of which become runnable at once, and waits for them.  It
returns when all of them have, and fails as soon as one has failed, while the
others go on.  The table of a run keeps one entry for every call ever made, so
that facts about who is called how often are facts about its entries.

The rules below turn facts about the body of one call into facts about every
order in which the calls can run.
-/

namespace CallTable

open Transition

/-- What the body of a call does. -/
inductive Outcome (κ ε : Type) where
  | done
  | raise (error : ε)
  | gather (calls : List κ)

def Outcome.calls {κ ε : Type} : Outcome κ ε → List κ
  | .gather calls => calls
  | _ => []

inductive Status (ε : Type) where
  | ready
  /-- Waiting for the calls it has made. -/
  | waiting
  | returned
  | raised (error : ε)

def Status.isReady {ε : Type} : Status ε → Bool
  | .ready => true
  | _ => false

def Status.isReturned {ε : Type} : Status ε → Bool
  | .returned => true
  | _ => false

@[simp] theorem Status.isReady_ready {ε : Type} :
    (Status.ready : Status ε).isReady = true := rfl

@[simp] theorem Status.isReady_waiting {ε : Type} :
    (Status.waiting : Status ε).isReady = false := rfl

@[simp] theorem Status.isReady_returned {ε : Type} :
    (Status.returned : Status ε).isReady = false := rfl

structure Entry (κ ε : Type) where
  call : κ
  /-- The index of the call that has made this one. -/
  parent : Option Nat
  status : Status ε

structure Table (σ κ ε : Type) where
  state : σ
  entries : List (Entry κ ε)

/-- The bodies of all calls. -/
structure Program (σ κ ε : Type) where
  run : κ → σ → Outcome κ ε × σ
  /-- Whether the body of a call handles an exception and returns. -/
  catches : κ → ε → Bool

inductive Action where
  | run (index : Nat)
  /-- All calls that the entry waits for have returned. -/
  | resume (index : Nat)
  /-- One of the calls that the entry waits for has failed. -/
  | fail (index child : Nat)

variable {σ κ ε : Type}

theorem exists_around {α : Type} {list : List α} {index : Nat} {element : α}
    (found : list[index]? = some element) :
    ∃ before after, list = before ++ element :: after ∧
      ∀ other, list.set index other = before ++ other :: after := by
  obtain ⟨bound, same⟩ := List.getElem?_eq_some_iff.mp found
  refine ⟨list.take index, list.drop (index + 1), ?_, ?_⟩
  · rw [← same, List.getElem_cons_drop, List.take_append_drop]
  · intro other
    rw [List.set_eq_take_append_cons_drop, if_pos bound]

namespace Table

def start (state : σ) (root : κ) : Table σ κ ε :=
  { state, entries := [⟨root, none, .ready⟩] }

def calls (table : Table σ κ ε) : List κ := table.entries.map (·.call)

def status (table : Table σ κ ε) (index : Nat) : Option (Status ε) :=
  table.entries[index]?.map (·.status)

/-- All calls that a call has made have returned. -/
def canResume (table : Table σ κ ε) (index : Nat) : Bool :=
  table.entries.all fun entry =>
    entry.parent ≠ some index || entry.status.isReturned

def setStatus (table : Table σ κ ε) (index : Nat) (entry : Entry κ ε)
    (status : Status ε) : Table σ κ ε :=
  { table with entries := table.entries.set index { entry with status } }

end Table

namespace Program

def settle (program : Program σ κ ε) (call : κ) (error : ε) : Status ε :=
  if program.catches call error then .returned else .raised error

def enter (program : Program σ κ ε) (call : κ) : Outcome κ ε → Status ε
  | .done => .returned
  | .raise error => program.settle call error
  | .gather _ => .waiting

@[simp] theorem settle_isReady (program : Program σ κ ε) (call : κ)
    (error : ε) : (program.settle call error).isReady = false := by
  unfold settle
  split <;> rfl

@[simp] theorem enter_isReady (program : Program σ κ ε) (call : κ)
    (outcome : Outcome κ ε) : (program.enter call outcome).isReady = false := by
  cases outcome with
  | done => rfl
  | raise error => exact settle_isReady program call error
  | gather calls => rfl

def ran (program : Program σ κ ε) (table : Table σ κ ε) (index : Nat)
    (entry : Entry κ ε) : Table σ κ ε :=
  let result := program.run entry.call table.state
  { state := result.2
    entries :=
      table.entries.set index
          { entry with status := program.enter entry.call result.1 } ++
        result.1.calls.map (⟨·, some index, .ready⟩) }

def step (program : Program σ κ ε) (table : Table σ κ ε) :
    Action → Option (Table σ κ ε)
  | .run index =>
      match table.entries[index]? with
      | some ⟨call, parent, .ready⟩ =>
          some (program.ran table index ⟨call, parent, .ready⟩)
      | _ => none
  | .resume index =>
      match table.entries[index]? with
      | some ⟨call, parent, .waiting⟩ =>
          if table.canResume index then
            some (table.setStatus index ⟨call, parent, .waiting⟩ .returned)
          else
            none
      | _ => none
  | .fail index child =>
      match table.entries[index]?, table.entries[child]? with
      | some ⟨call, parent, .waiting⟩, some ⟨_, maker, .raised error⟩ =>
          if maker = some index then
            some (table.setStatus index ⟨call, parent, .waiting⟩
              (program.settle call error))
          else
            none
      | _, _ => none

/-- A step runs a call, or changes the status of a waiting one. -/
inductive Move (program : Program σ κ ε) (table : Table σ κ ε) :
    Table σ κ ε → Prop where
  | run {index : Nat} {call : κ} {parent : Option Nat} :
      table.entries[index]? = some ⟨call, parent, .ready⟩ →
      Move program table (program.ran table index ⟨call, parent, .ready⟩)
  | resume {index : Nat} {call : κ} {parent : Option Nat} :
      table.entries[index]? = some ⟨call, parent, .waiting⟩ →
      table.canResume index = true →
      Move program table
        (table.setStatus index ⟨call, parent, .waiting⟩ .returned)
  | fail {index child : Nat} {call other : κ} {parent : Option Nat}
      {error : ε} :
      table.entries[index]? = some ⟨call, parent, .waiting⟩ →
      table.entries[child]? = some ⟨other, some index, .raised error⟩ →
      Move program table
        (table.setStatus index ⟨call, parent, .waiting⟩
          (program.settle call error))

theorem move_of_step {program : Program σ κ ε} {table next : Table σ κ ε}
    {action : Action} (taken : program.step table action = some next) :
    Move program table next := by
  cases action with
  | run index =>
      simp only [step] at taken
      split at taken
      · next found => exact Option.some.inj taken ▸ .run found
      · cases taken
  | resume index =>
      simp only [step] at taken
      split at taken
      · next found =>
          split at taken
          · next returned => exact Option.some.inj taken ▸ .resume found returned
          · cases taken
      · cases taken
  | fail index child =>
      simp only [step] at taken
      split at taken
      · next found raised =>
          split at taken
          · next same => exact Option.some.inj taken ▸ .fail found (same ▸ raised)
          · cases taken
      · cases taken

/-- A step, for what does not depend on how a call ends. -/
inductive Change (program : Program σ κ ε) (table : Table σ κ ε) :
    Table σ κ ε → Prop where
  | run {index : Nat} {call : κ} {parent : Option Nat} :
      table.entries[index]? = some ⟨call, parent, .ready⟩ →
      Change program table (program.ran table index ⟨call, parent, .ready⟩)
  | settle {index : Nat} {call : κ} {parent : Option Nat} {status : Status ε} :
      table.entries[index]? = some ⟨call, parent, .waiting⟩ →
      status.isReady = false →
      Change program table
        (table.setStatus index ⟨call, parent, .waiting⟩ status)

theorem Move.change {program : Program σ κ ε} {table next : Table σ κ ε}
    (moved : program.Move table next) : program.Change table next := by
  cases moved with
  | run ready => exact .run ready
  | resume waiting _ => exact .settle waiting rfl
  | fail waiting _ => exact .settle waiting (settle_isReady ..)

end Program

namespace Table

@[simp] theorem calls_start (state : σ) (root : κ) :
    (start state root : Table σ κ ε).calls = [root] := rfl

theorem start_ready (state : σ) (root : κ) :
    (start state root : Table σ κ ε).entries[0]? = some ⟨root, none, .ready⟩ :=
  rfl

@[simp] theorem start_state (state : σ) (root : κ) :
    (start state root : Table σ κ ε).state = state := rfl

@[simp] theorem setStatus_state (table : Table σ κ ε) (index : Nat)
    (entry : Entry κ ε) (status : Status ε) :
    (table.setStatus index entry status).state = table.state := rfl

theorem calls_setStatus {table : Table σ κ ε} {index : Nat}
    {entry : Entry κ ε} (found : table.entries[index]? = some entry)
    (status : Status ε) :
    (table.setStatus index entry status).calls = table.calls := by
  obtain ⟨before, after, entries, replaced⟩ := exists_around found
  simp only [calls, setStatus, replaced]
  simp [entries]

theorem mem_calls_of_getElem? {table : Table σ κ ε} {index : Nat}
    {entry : Entry κ ε} (found : table.entries[index]? = some entry) :
    entry.call ∈ table.calls :=
  List.mem_map_of_mem (List.mem_of_getElem? found)

theorem getElem?_setStatus_self {table : Table σ κ ε} {index : Nat}
    {entry : Entry κ ε} (found : table.entries[index]? = some entry)
    (status : Status ε) :
    (table.setStatus index entry status).entries[index]? =
      some { entry with status } :=
  List.getElem?_set_self (List.getElem?_eq_some_iff.mp found).1

theorem getElem?_setStatus_ne (table : Table σ κ ε) {index position : Nat}
    (entry : Entry κ ε) (status : Status ε) (different : position ≠ index) :
    (table.setStatus index entry status).entries[position]? =
      table.entries[position]? :=
  List.getElem?_set_ne (Ne.symm different)

theorem getElem?_setStatus_cases {table : Table σ κ ε} {index position : Nat}
    {entry other : Entry κ ε} {status : Status ε}
    (found : table.entries[index]? = some entry)
    (after : (table.setStatus index entry status).entries[position]? =
      some other) :
    (position = index ∧ other = { entry with status }) ∨
      (position ≠ index ∧ table.entries[position]? = some other) := by
  by_cases same : position = index
  · subst same
    rw [getElem?_setStatus_self found] at after
    exact .inl ⟨rfl, (Option.some.inj after).symm⟩
  · rw [getElem?_setStatus_ne _ _ _ same] at after
    exact .inr ⟨same, after⟩

end Table

namespace Program

theorem calls_ran {program : Program σ κ ε} {table : Table σ κ ε}
    {index : Nat} {entry : Entry κ ε}
    (found : table.entries[index]? = some entry) :
    (program.ran table index entry).calls =
      table.calls ++ (program.run entry.call table.state).1.calls := by
  obtain ⟨before, after, entries, replaced⟩ := exists_around found
  simp only [Table.calls, ran, replaced]
  simp [entries, Function.comp_def]

theorem getElem?_ran_self (program : Program σ κ ε) {table : Table σ κ ε}
    {index : Nat} {entry : Entry κ ε}
    (found : table.entries[index]? = some entry) :
    (program.ran table index entry).entries[index]? =
      some ⟨entry.call, entry.parent,
        program.enter entry.call (program.run entry.call table.state).1⟩ := by
  have bound := (List.getElem?_eq_some_iff.mp found).1
  rw [ran, List.getElem?_append_left (by simpa using bound),
    List.getElem?_set_self bound]

theorem getElem?_ran_ne (program : Program σ κ ε) {table : Table σ κ ε}
    {index position : Nat} (entry : Entry κ ε)
    (inside : position < table.entries.length) (different : position ≠ index) :
    (program.ran table index entry).entries[position]? =
      table.entries[position]? := by
  rw [ran, List.getElem?_append_left (by simpa using inside),
    List.getElem?_set_ne (Ne.symm different)]

theorem getElem?_ran_cases {program : Program σ κ ε} {table : Table σ κ ε}
    {index position : Nat} {entry other : Entry κ ε}
    (found : table.entries[index]? = some entry)
    (after : (program.ran table index entry).entries[position]? = some other) :
    (position = index ∧ other = ⟨entry.call, entry.parent,
        program.enter entry.call (program.run entry.call table.state).1⟩) ∨
      (position ≠ index ∧ table.entries[position]? = some other) ∨
      (table.entries.length ≤ position ∧
        ∃ child ∈ (program.run entry.call table.state).1.calls,
          other = ⟨child, some index, .ready⟩) := by
  by_cases same : position = index
  · subst same
    rw [program.getElem?_ran_self found] at after
    exact .inl ⟨rfl, (Option.some.inj after).symm⟩
  · by_cases inside : position < table.entries.length
    · rw [program.getElem?_ran_ne entry inside same] at after
      exact .inr (.inl ⟨same, after⟩)
    · rw [ran, List.getElem?_append_right (by simpa using inside),
        List.getElem?_map] at after
      obtain ⟨child, member, rfl⟩ := Option.map_eq_some_iff.mp after
      exact .inr (.inr ⟨Nat.not_lt.mp inside, child,
        List.mem_of_getElem? member, rfl⟩)

/-- `holds` passes from calls to the calls they make, and no call spoils it for
another one. -/
structure Keeps (program : Program σ κ ε) (holds : σ → κ → Prop) : Prop where
  starts : ∀ {state : σ} {call : κ}, holds state call →
    ∀ child ∈ (program.run call state).1.calls,
      holds (program.run call state).2 child
  stays : ∀ {state : σ} {call other : κ}, holds state call →
    holds state other → holds (program.run call state).2 other

theorem Keeps.and {program : Program σ κ ε} {first second : σ → κ → Prop}
    (left : program.Keeps first) (right : program.Keeps second) :
    program.Keeps fun state call => first state call ∧ second state call where
  starts := fun both child member =>
    ⟨left.starts both.1 child member, right.starts both.2 child member⟩
  stays := fun both other =>
    ⟨left.stays both.1 other.1, right.stays both.2 other.2⟩

variable {program : Program σ κ ε} {holds : σ → κ → Prop}

theorem Keeps.move (keeps : program.Keeps holds) {table next : Table σ κ ε}
    (all : ∀ call ∈ table.calls, holds table.state call)
    (moved : program.Move table next) :
    ∀ call ∈ next.calls, holds next.state call := by
  cases moved.change with
  | run ready =>
      have runs := all _ (Table.mem_calls_of_getElem? ready)
      intro other member
      rw [calls_ran ready] at member
      rcases List.mem_append.mp member with old | new
      · exact keeps.stays runs (all other old)
      · exact keeps.starts runs other new
  | settle waiting _ =>
      rw [Table.calls_setStatus waiting]
      exact all

/-- The rule of invariants for calls. -/
theorem Keeps.path (keeps : program.Keeps holds) {state : σ} {root : κ}
    {steps : List (Table σ κ ε × Action)} {finish : Table σ κ ε}
    (run : Path program.step (.start state root) steps finish)
    (initial : holds state root) :
    ∀ call ∈ finish.calls, holds finish.state call := by
  apply run.always
  · simpa using initial
  · intro table action next all taken
    exact keeps.move all (move_of_step taken)

/-- The rule of invariants for tables all of whose calls are as they should
be. -/
theorem Keeps.invariant (keeps : program.Keeps holds)
    (good : Table σ κ ε → Prop) {state : σ} {root : κ}
    {steps : List (Table σ κ ε × Action)} {finish : Table σ κ ε}
    (run : Path program.step (.start state root) steps finish)
    (initial : holds state root) (started : good (.start state root))
    (preserved : ∀ {table next}, (∀ call ∈ table.calls, holds table.state call) →
      good table → program.Move table next → good next) : good finish := by
  have both : (∀ call ∈ finish.calls, holds finish.state call) ∧
      good finish := by
    apply run.always
    · exact ⟨by simpa using initial, started⟩
    · intro table action next sound taken
      have moved := move_of_step taken
      exact ⟨keeps.move sound.1 moved, preserved sound.1 sound.2 moved⟩
  exact both.2

def pending (kind : κ → Bool) (table : Table σ κ ε) : Nat :=
  table.entries.countP fun entry => kind entry.call && entry.status.isReady

theorem pending_ran (program : Program σ κ ε) {table : Table σ κ ε} {index : Nat} {call : κ}
    {parent : Option Nat} (kind : κ → Bool)
    (ready : table.entries[index]? = some ⟨call, parent, .ready⟩) :
    pending kind (program.ran table index ⟨call, parent, .ready⟩) +
        (if kind call then 1 else 0) =
      pending kind table + (program.run call table.state).1.calls.countP kind := by
  have fresh : ((fun entry : Entry κ ε =>
      kind entry.call && entry.status.isReady) ∘
        fun call => ⟨call, some index, .ready⟩) = kind := by
    funext call
    simp
  obtain ⟨before, after, entries, replaced⟩ := exists_around ready
  simp only [pending, ran, replaced]
  simp only [entries, List.countP_append, List.countP_cons, List.countP_map,
    fresh, enter_isReady, Status.isReady_ready, Bool.and_false, Bool.and_true,
    Bool.false_eq_true, if_false]
  omega

theorem pending_setStatus {table : Table σ κ ε} {index : Nat} {call : κ}
    {parent : Option Nat} {status : Status ε} (kind : κ → Bool)
    (waiting : table.entries[index]? = some ⟨call, parent, .waiting⟩)
    (ended : status.isReady = false) :
    pending kind (table.setStatus index ⟨call, parent, .waiting⟩ status) =
      pending kind table := by
  obtain ⟨before, after, entries, replaced⟩ := exists_around waiting
  simp only [pending, Table.setStatus, replaced]
  simp [entries, ended]

theorem countP_le_ite {made : κ → Bool} {calls : List κ} {maker : Prop}
    [Decidable maker]
    (once : ∀ child ∈ calls, made child = true →
      maker ∧ calls.countP made ≤ 1) :
    calls.countP made ≤ if maker then 1 else 0 := by
  by_cases any : ∃ child ∈ calls, made child = true
  · obtain ⟨child, member, isMade⟩ := any
    obtain ⟨isMaker, bound⟩ := once child member isMade
    rw [if_pos isMaker]
    exact bound
  · have none : calls.countP made = 0 := by
      apply List.countP_eq_zero.mpr
      exact fun child member isMade => any ⟨child, member, isMade⟩
    omega

/-- If only calls of one kind make calls of another, one each, then those are
not more than these, the first call of all aside. -/
theorem Keeps.countP_le (keeps : program.Keeps holds) {made maker : κ → Bool}
    {state : σ} {root : κ} {steps : List (Table σ κ ε × Action)}
    {finish : Table σ κ ε}
    (run : Path program.step (.start state root) steps finish)
    (initial : holds state root)
    (makes : ∀ {state call}, holds state call →
      (program.run call state).1.calls.countP made ≤
        if maker call then 1 else 0) :
    finish.calls.countP made ≤
      (if made root then 1 else 0) + finish.calls.countP maker := by
  have account : finish.calls.countP made + pending maker finish ≤
      (if made root then 1 else 0) + finish.calls.countP maker := by
    apply keeps.invariant
      (fun table => table.calls.countP made + pending maker table ≤
        (if made root then 1 else 0) + table.calls.countP maker) run initial
    · simp [pending, Table.start, Table.calls, List.countP_cons]
    · intro table next all account moved
      cases moved.change with
      | @run index call parent ready =>
          have counted := pending_ran program maker ready
          have bound := makes (all _ (Table.mem_calls_of_getElem? ready))
          rw [calls_ran ready, List.countP_append, List.countP_append]
          dsimp only at bound ⊢
          omega
      | settle waiting ended =>
          rw [Table.calls_setStatus waiting, pending_setStatus _ waiting ended]
          exact account
  omega

def Final (program : Program σ κ ε) (table : Table σ κ ε) : Prop :=
  ∀ action, program.step table action = none

theorem step_run {table : Table σ κ ε} {index : Nat} {call : κ}
    {parent : Option Nat}
    (ready : table.entries[index]? = some ⟨call, parent, .ready⟩) :
    program.step table (.run index) =
      some (program.ran table index ⟨call, parent, .ready⟩) := by
  simp only [step, ready]

theorem step_fail {table : Table σ κ ε} {index child : Nat} {call other : κ}
    {parent : Option Nat} {error : ε}
    (waiting : table.entries[index]? = some ⟨call, parent, .waiting⟩)
    (raised : table.entries[child]? =
      some ⟨other, some index, .raised error⟩) :
    program.step table (.fail index child) =
      some (table.setStatus index ⟨call, parent, .waiting⟩
        (program.settle call error)) := by
  simp only [step, waiting, raised, if_true]

theorem Final.not_ready {table : Table σ κ ε} (final : program.Final table)
    {index : Nat} {call : κ} {parent : Option Nat} :
    table.entries[index]? ≠ some ⟨call, parent, .ready⟩ := by
  intro ready
  have stuck := final (.run index)
  rw [step_run ready] at stuck
  cases stuck

/-- If every call of a kind makes one of another kind, then a call of the first
kind that has run has made one. -/
theorem Keeps.exists_made (keeps : program.Keeps holds) {maker made : κ → Prop}
    {state : σ} {root : κ} {steps : List (Table σ κ ε × Action)}
    {finish : Table σ κ ε}
    (run : Path program.step (.start state root) steps finish)
    (initial : holds state root)
    (makes : ∀ {state call}, holds state call → maker call →
      ∃ child ∈ (program.run call state).1.calls, made child) :
    ∀ {index : Nat} {entry : Entry κ ε}, finish.entries[index]? = some entry →
      maker entry.call →
      entry.status.isReady = true ∨ ∃ child ∈ finish.calls, made child := by
  apply keeps.invariant
    (fun table => ∀ {index : Nat} {entry : Entry κ ε},
      table.entries[index]? = some entry → maker entry.call →
        entry.status.isReady = true ∨ ∃ child ∈ table.calls, made child)
    run initial
  · intro index entry found _
    rw [List.mem_singleton.mp (List.mem_of_getElem? found)]
    exact .inl rfl
  · intro table next all sound moved
    cases moved.change with
    | @run index call parent ready =>
        intro position entry found isMaker
        rw [calls_ran ready]
        rcases getElem?_ran_cases ready found with
          ⟨_, rfl⟩ | ⟨_, old⟩ | ⟨_, child, _, rfl⟩
        · obtain ⟨child, there, isMade⟩ :=
            makes (all call (Table.mem_calls_of_getElem? ready)) isMaker
          exact .inr ⟨child, List.mem_append_right _ there, isMade⟩
        · rcases sound old isMaker with waits | ⟨child, there, isMade⟩
          · exact .inl waits
          · exact .inr ⟨child, List.mem_append_left _ there, isMade⟩
        · exact .inl rfl
    | settle waiting _ =>
        intro position entry found isMaker
        rw [Table.calls_setStatus waiting]
        rcases Table.getElem?_setStatus_cases waiting found with
          ⟨_, rfl⟩ | ⟨_, old⟩
        · rcases sound waiting isMaker with waits | made
          · cases waits
          · exact .inr made
        · exact sound old isMaker

theorem Keeps.made_of_final (keeps : program.Keeps holds)
    {maker made : κ → Prop} {state : σ} {root : κ}
    {steps : List (Table σ κ ε × Action)} {finish : Table σ κ ε}
    (run : Path program.step (.start state root) steps finish)
    (initial : holds state root) (final : program.Final finish)
    (makes : ∀ {state call}, holds state call → maker call →
      ∃ child ∈ (program.run call state).1.calls, made child)
    (called : ∃ call ∈ finish.calls, maker call) :
    ∃ child ∈ finish.calls, made child := by
  obtain ⟨call, member, isMaker⟩ := called
  obtain ⟨⟨_, parent, status⟩, inside, rfl⟩ := List.mem_map.mp member
  obtain ⟨index, found⟩ := List.getElem?_of_mem inside
  rcases keeps.exists_made run initial makes found isMaker with
    waits | found
  · cases status with
    | ready => exact absurd found final.not_ready
    | waiting => cases waits
    | returned => cases waits
    | raised _ => cases waits
  · exact found

theorem Keeps.child_of_final (keeps : program.Keeps holds) {state : σ}
    {root call child : κ} {steps : List (Table σ κ ε × Action)}
    {finish : Table σ κ ε}
    (run : Path program.step (.start state root) steps finish)
    (initial : holds state root) (final : program.Final finish)
    (called : call ∈ finish.calls)
    (makes : ∀ {state}, holds state call →
      child ∈ (program.run call state).1.calls) : child ∈ finish.calls := by
  have found : ∃ other ∈ finish.calls, child = other := by
    apply keeps.made_of_final run initial final _ ⟨call, called, Eq.refl call⟩
    intro state other sound same
    subst same
    exact ⟨child, makes sound, rfl⟩
  obtain ⟨other, member, rfl⟩ := found
  exact member

theorem root_of_path {state : σ} {root : κ}
    {steps : List (Table σ κ ε × Action)} {finish : Table σ κ ε}
    (run : Path program.step (.start state root) steps finish) :
    ∃ status, finish.entries[0]? = some ⟨root, none, status⟩ := by
  apply run.always
  · exact ⟨.ready, Table.start_ready state root⟩
  · intro table action next found taken
    obtain ⟨status, first⟩ := found
    have bound := (List.getElem?_eq_some_iff.mp first).1
    cases (move_of_step taken).change with
    | @run index call parent ready =>
        by_cases same : 0 = index
        · subst same
          rw [first] at ready
          cases ready
          exact ⟨_, getElem?_ran_self program first⟩
        · rw [getElem?_ran_ne program _ bound same]
          exact ⟨status, first⟩
    | @settle index call parent _ waiting _ =>
        by_cases same : 0 = index
        · subst same
          rw [first] at waiting
          cases waiting
          exact ⟨_, Table.getElem?_setStatus_self first _⟩
        · rw [Table.getElem?_setStatus_ne _ _ _ same]
          exact ⟨status, first⟩

theorem mem_calls_of_path {state : σ} {root : κ}
    {steps : List (Table σ κ ε × Action)} {finish : Table σ κ ε}
    (run : Path program.step (.start state root) steps finish) :
    root ∈ finish.calls := by
  obtain ⟨status, found⟩ := root_of_path run
  exact Table.mem_calls_of_getElem? found

theorem raised_of_settle {kind : ε → Prop} {call : κ} {error other : ε}
    (isKind : kind error)
    (ended : program.settle call error = .raised other) : kind other := by
  unfold settle at ended
  split at ended
  · cases ended
  · cases ended
    exact isKind

/-- The exceptions that calls have ended with are all of a kind. -/
def Raises (kind : ε → Prop) (table : Table σ κ ε) : Prop :=
  ∀ (index : Nat) (entry : Entry κ ε) (error : ε),
    table.entries[index]? = some entry → entry.status = .raised error →
      kind error

theorem Move.raises {kind : ε → Prop} {table next : Table σ κ ε}
    (moved : program.Move table next)
    (body : ∀ {call error}, call ∈ table.calls →
      (program.run call table.state).1 = .raise error → kind error)
    (sound : Raises kind table) : Raises kind next := by
  cases moved with
  | @run index call parent ready =>
      intro position entry error found isRaised
      rcases getElem?_ran_cases ready found with
        ⟨_, rfl⟩ | ⟨_, old⟩ | ⟨_, child, _, rfl⟩
      · dsimp only at isRaised
        cases outcome : (program.run call table.state).1 with
        | done =>
            rw [outcome] at isRaised
            cases isRaised
        | raise other =>
            rw [outcome] at isRaised
            exact raised_of_settle
              (body (Table.mem_calls_of_getElem? ready) outcome) isRaised
        | gather calls =>
            rw [outcome] at isRaised
            cases isRaised
      · exact sound _ _ _ old isRaised
      · cases isRaised
  | resume waiting _ =>
      intro position entry error found isRaised
      rcases Table.getElem?_setStatus_cases waiting found with
        ⟨_, rfl⟩ | ⟨_, old⟩
      · cases isRaised
      · exact sound _ _ _ old isRaised
  | fail waiting raised =>
      intro position entry error found isRaised
      rcases Table.getElem?_setStatus_cases waiting found with
        ⟨_, rfl⟩ | ⟨_, old⟩
      · exact raised_of_settle (sound _ _ _ raised rfl) isRaised
      · exact sound _ _ _ old isRaised

/-- If the exceptions that bodies raise are all of a kind, then so are those
that calls end with. -/
theorem Keeps.raised (keeps : program.Keeps holds) {kind : ε → Prop}
    {state : σ} {root : κ} {steps : List (Table σ κ ε × Action)}
    {finish : Table σ κ ε}
    (run : Path program.step (.start state root) steps finish)
    (initial : holds state root)
    (raises : ∀ {state call error}, holds state call →
      (program.run call state).1 = .raise error → kind error) :
    Raises kind finish := by
  apply keeps.invariant (Raises kind) run initial
  · intro index entry error found isRaised
    rw [List.mem_singleton.mp (List.mem_of_getElem? found)] at isRaised
    cases isRaised
  · intro table next all sound moved
    exact moved.raises (fun member => raises (all _ member)) sound

/-- Calls stand behind the calls that have made them, which have run. -/
structure Nested (table : Table σ κ ε) : Prop where
  behind : ∀ {position index : Nat} {child : Entry κ ε},
    table.entries[position]? = some child → child.parent = some index →
      index < position
  started : ∀ {position index : Nat} {child entry : Entry κ ε},
    table.entries[position]? = some child → child.parent = some index →
      table.entries[index]? = some entry → entry.status.isReady = false

theorem nested_start (state : σ) (root : κ) :
    Nested (.start state root : Table σ κ ε) := by
  constructor
  · intro position index child found isParent
    rw [List.mem_singleton.mp (List.mem_of_getElem? found)] at isParent
    cases isParent
  · intro position index child entry found isParent
    rw [List.mem_singleton.mp (List.mem_of_getElem? found)] at isParent
    cases isParent

theorem nested_setStatus {table : Table σ κ ε} (nested : Nested table)
    {index : Nat} {entry : Entry κ ε} {status : Status ε}
    (found : table.entries[index]? = some entry)
    (ended : status.isReady = false) :
    Nested (table.setStatus index entry status) := by
  have before : ∀ {position : Nat} {other : Entry κ ε},
      (table.setStatus index entry status).entries[position]? = some other →
      ∃ old, table.entries[position]? = some old ∧
        other.parent = old.parent := by
    intro position other after
    rcases Table.getElem?_setStatus_cases found after with
      ⟨rfl, rfl⟩ | ⟨_, old⟩
    · exact ⟨entry, found, rfl⟩
    · exact ⟨other, old, rfl⟩
  constructor
  · intro position parent child after isParent
    obtain ⟨old, known, same⟩ := before after
    exact nested.behind known (same ▸ isParent)
  · intro position parent child owner after isParent there
    obtain ⟨old, known, same⟩ := before after
    rcases Table.getElem?_setStatus_cases found there with
      ⟨_, rfl⟩ | ⟨_, inside⟩
    · exact ended
    · exact nested.started known (same ▸ isParent) inside

theorem nested_ran {table : Table σ κ ε} (nested : Nested table) {index : Nat}
    {entry : Entry κ ε} (found : table.entries[index]? = some entry) :
    Nested (program.ran table index entry) := by
  have bound := (List.getElem?_eq_some_iff.mp found).1
  have inside : ∀ {position parent : Nat} {child : Entry κ ε},
      table.entries[position]? = some child → child.parent = some parent →
        parent < table.entries.length := by
    intro position parent child known isParent
    have before := nested.behind known isParent
    have within := (List.getElem?_eq_some_iff.mp known).1
    omega
  constructor
  · intro position parent child after isParent
    rcases getElem?_ran_cases found after with
      ⟨rfl, rfl⟩ | ⟨_, old⟩ | ⟨new, made, _, rfl⟩
    · exact nested.behind found isParent
    · exact nested.behind old isParent
    · cases isParent
      omega
  · intro position parent child owner after isParent there
    rcases getElem?_ran_cases found there with
      ⟨_, rfl⟩ | ⟨different, old⟩ | ⟨new, made, _, rfl⟩
    · exact enter_isReady ..
    · rcases getElem?_ran_cases found after with
        ⟨rfl, rfl⟩ | ⟨_, known⟩ | ⟨_, made, _, rfl⟩
      · exact nested.started found isParent old
      · exact nested.started known isParent old
      · cases isParent
        exact absurd rfl different
    · rcases getElem?_ran_cases found after with
        ⟨rfl, rfl⟩ | ⟨_, known⟩ | ⟨_, made, _, rfl⟩
      · have early := inside found isParent
        omega
      · have early := inside known isParent
        omega
      · cases isParent
        omega

theorem nested_move {table next : Table σ κ ε} (nested : Nested table)
    (moved : program.Move table next) : Nested next := by
  cases moved.change with
  | run ready => exact nested_ran nested ready
  | settle waiting ended => exact nested_setStatus nested waiting ended

theorem nested_of_path {state : σ} {root : κ}
    {steps : List (Table σ κ ε × Action)} {finish : Table σ κ ε}
    (run : Path program.step (.start state root) steps finish) :
    Nested finish := by
  apply run.always
  · exact nested_start state root
  · intro table action next nested taken
    exact nested_move nested (move_of_step taken)

theorem Final.ended {table : Table σ κ ε} (final : program.Final table)
    (nested : Nested table) {index : Nat} {entry : Entry κ ε}
    (found : table.entries[index]? = some entry) :
    entry.status = .returned ∨ ∃ error, entry.status = .raised error := by
  -- A waiting call waits for later entries only, so the last one could go on.
  induction backwards : table.entries.length - index using Nat.strong_induction_on
    generalizing index entry with
  | _ distance induction =>
      obtain ⟨call, parent, status⟩ := entry
      cases status with
      | returned => exact .inl rfl
      | raised error => exact .inr ⟨error, rfl⟩
      | ready => exact absurd found final.not_ready
      | waiting =>
          by_cases all : table.canResume index = true
          · have stuck := final (.resume index)
            simp [step, found, all] at stuck
          · simp only [Table.canResume, List.all_eq_true, not_forall] at all
            obtain ⟨⟨call, maker, status⟩, member, unfinished⟩ := all
            simp only [Bool.or_eq_true, decide_eq_true_eq, not_or, not_not]
              at unfinished
            obtain ⟨rfl, notReturned⟩ := unfinished
            obtain ⟨child, there⟩ := List.getElem?_of_mem member
            have after := nested.behind there rfl
            have bound := (List.getElem?_eq_some_iff.mp there).1
            rcases induction (table.entries.length - child) (by omega) there rfl
              with returned | ⟨error, raised⟩
            · dsimp only at returned
              rw [returned] at notReturned
              exact absurd rfl notReturned
            · dsimp only at raised
              rw [raised] at there
              have stuck := final (.fail index child)
              rw [step_fail found there] at stuck
              cases stuck

/-- Every call that a returned call has made has returned. -/
def Complete (table : Table σ κ ε) : Prop :=
  ∀ ⦃index position : Nat⦄ ⦃entry child : Entry κ ε⦄,
    table.entries[index]? = some entry → entry.status = .returned →
      table.entries[position]? = some child → child.parent = some index →
        child.status = .returned

theorem complete_ran {table : Table σ κ ε} (nested : Nested table)
    (complete : Complete table) {index : Nat} {call : κ} {parent : Option Nat}
    (ready : table.entries[index]? = some ⟨call, parent, .ready⟩) :
    Complete (program.ran table index ⟨call, parent, .ready⟩) := by
  have bound := (List.getElem?_eq_some_iff.mp ready).1
  have ended : program.enter call (program.run call table.state).1 =
      .returned → (program.run call table.state).1.calls = [] := by
    intro returned
    cases outcome : (program.run call table.state).1 with
    | done => rfl
    | raise error => rfl
    | gather calls =>
        rw [outcome] at returned
        cases returned
  intro owner position entry child inOwner returned inChild isParent
  rcases getElem?_ran_cases ready inChild with
    ⟨rfl, rfl⟩ | ⟨_, known⟩ | ⟨_, made, member, rfl⟩
  · -- The call that has just run is made by one that has not returned.
    rcases getElem?_ran_cases ready inOwner with
      ⟨rfl, rfl⟩ | ⟨_, old⟩ | ⟨_, other, _, rfl⟩
    · exact absurd (nested.behind ready isParent) (lt_irrefl _)
    · cases complete old returned ready isParent
    · cases returned
  · rcases getElem?_ran_cases ready inOwner with
      ⟨rfl, rfl⟩ | ⟨_, old⟩ | ⟨_, other, _, rfl⟩
    · cases nested.started known isParent ready
    · exact complete old returned known isParent
    · cases returned
  · cases isParent
    rcases getElem?_ran_cases ready inOwner with
      ⟨_, rfl⟩ | ⟨different, _⟩ | ⟨_, other, _, rfl⟩
    · rw [ended returned] at member
      cases member
    · exact absurd rfl different
    · cases returned

theorem complete_setStatus {table : Table σ κ ε} (complete : Complete table)
    {index : Nat} {call : κ} {parent : Option Nat} {status : Status ε}
    (waiting : table.entries[index]? = some ⟨call, parent, .waiting⟩)
    (all : status = .returned → table.canResume index = true) :
    Complete (table.setStatus index ⟨call, parent, .waiting⟩ status) := by
  intro owner position entry child inOwner returned inChild isParent
  rcases Table.getElem?_setStatus_cases waiting inOwner with
    ⟨rfl, rfl⟩ | ⟨different, old⟩
  · have each := all returned
    rcases Table.getElem?_setStatus_cases waiting inChild with
      ⟨rfl, rfl⟩ | ⟨_, known⟩
    · exact returned
    · have member := List.mem_of_getElem? known
      have ended := List.all_eq_true.mp each child member
      simp only [isParent, ne_eq, not_true_eq_false, decide_false,
        Bool.false_or] at ended
      cases status : child.status with
      | returned => rfl
      | _ => simp [status, Status.isReturned] at ended
  · rcases Table.getElem?_setStatus_cases waiting inChild with
      ⟨rfl, rfl⟩ | ⟨_, known⟩
    · cases complete old returned waiting isParent
    · exact complete old returned known isParent

/-- If no exception that is raised is handled, then a call returns only after
all calls that it has made. -/
theorem Keeps.complete (keeps : program.Keeps holds) {kind : ε → Prop}
    {state : σ} {root : κ} {steps : List (Table σ κ ε × Action)}
    {finish : Table σ κ ε}
    (run : Path program.step (.start state root) steps finish)
    (initial : holds state root)
    (raises : ∀ {state call error}, holds state call →
      (program.run call state).1 = .raise error → kind error)
    (uncaught : ∀ {call error}, kind error →
      program.catches call error = false) : Complete finish := by
  induction run with
  | refl =>
      intro index position entry child _ _ found isParent
      rw [List.mem_singleton.mp (List.mem_of_getElem? found)] at isParent
      cases isParent
  | @snoc steps table finish action earlier taken induction =>
      have nested := nested_of_path earlier
      cases move_of_step taken with
      | run ready => exact complete_ran nested induction ready
      | resume waiting resumes =>
          exact complete_setStatus induction waiting fun _ => resumes
      | @fail index child call other parent error waiting raised =>
          apply complete_setStatus induction waiting
          intro returned
          rw [settle, uncaught (keeps.raised earlier initial raises _ _ _ raised rfl)]
            at returned
          cases returned

/-- A call and the calls that it has led to. -/
inductive Under (table : Table σ κ ε) (root : Nat) : Nat → Prop where
  | self : Under table root root
  | child {index position : Nat} {entry : Entry κ ε} :
      Under table root index → table.entries[position]? = some entry →
        entry.parent = some index → Under table root position

theorem Complete.under {table : Table σ κ ε} (complete : Complete table)
    (nested : Nested table) {root position : Nat} (under : Under table root position)
    {entry other : Entry κ ε} (found : table.entries[root]? = some entry)
    (returned : entry.status = .returned)
    (known : table.entries[position]? = some other) :
    other.status = .returned := by
  induction under generalizing other with
  | self =>
      rw [found] at known
      cases known
      exact returned
  | @child index position child _ there isParent induction =>
      rw [there] at known
      cases known
      have before := nested.behind there isParent
      have inside := (List.getElem?_eq_some_iff.mp there).1
      have owner : table.entries[index]? = some table.entries[index] :=
        List.getElem?_eq_getElem (before.trans inside)
      exact complete owner (induction owner) there isParent

section Termination

variable (rank : σ → κ → Nat) (width : Nat)

/-- The number of steps that an entry can still cause. -/
def weight (state : σ) (entry : Entry κ ε) : Nat :=
  match entry.status with
  | .ready => (width + 2) ^ (rank state entry.call + 1)
  | .waiting => 1
  | _ => 0

def potential (table : Table σ κ ε) : Nat :=
  (table.entries.map (weight rank width table.state)).sum

theorem weight_settle (state : σ) (call : κ) (parent : Option Nat)
    (error : ε) :
    weight rank width state ⟨call, parent, program.settle call error⟩ = 0 := by
  unfold settle
  split <;> rfl

theorem weight_enter (state : σ) (call : κ) (parent : Option Nat)
    (outcome : Outcome κ ε) :
    weight rank width state ⟨call, parent, program.enter call outcome⟩ ≤
      1 := by
  cases outcome with
  | done => exact Nat.zero_le 1
  | raise error =>
      rw [enter, weight_settle]
      exact Nat.zero_le 1
  | gather calls => exact le_rfl

theorem weight_mono {before after : σ} {entry : Entry κ ε}
    (lower : rank after entry.call ≤ rank before entry.call) :
    weight rank width after entry ≤ weight rank width before entry := by
  unfold weight
  cases entry.status with
  | ready => exact Nat.pow_le_pow_right (by omega) (by omega)
  | waiting => exact le_rfl
  | returned => exact le_rfl
  | raised _ => exact le_rfl

theorem sum_pow_lt {ranks : List Nat} {bound : Nat}
    (few : ranks.length ≤ width) (lower : ∀ rank ∈ ranks, rank < bound) :
    1 + (ranks.map fun rank => (width + 2) ^ (rank + 1)).sum <
      (width + 2) ^ (bound + 1) := by
  have each : ∀ value ∈ ranks.map fun rank => (width + 2) ^ (rank + 1),
      value ≤ (width + 2) ^ bound := by
    intro value member
    obtain ⟨rank, there, rfl⟩ := List.mem_map.mp member
    exact Nat.pow_le_pow_right (by omega) (lower rank there)
  have total := List.sum_le_card_nsmul _ _ each
  rw [List.length_map, smul_eq_mul] at total
  have fits := Nat.mul_le_mul_right ((width + 2) ^ bound) few
  have positive : 0 < (width + 2) ^ bound := Nat.pow_pos (by omega)
  rw [pow_succ]
  nlinarith

theorem sum_weight_calls_lt {state : σ} {calls : List κ} {index bound : Nat}
    (few : calls.length ≤ width)
    (lower : ∀ call ∈ calls, rank state call < bound) :
    1 + ((calls.map (⟨·, some index, Status.ready⟩)).map
        (weight rank width state : Entry κ ε → Nat)).sum <
      (width + 2) ^ (bound + 1) := by
  have paid := @sum_pow_lt width (calls.map (rank state)) bound
    (by rwa [List.length_map]) (by
      intro value member
      obtain ⟨call, there, rfl⟩ := List.mem_map.mp member
      exact lower call there)
  rw [List.map_map] at paid ⊢
  exact paid

theorem potential_ran_add {table : Table σ κ ε} {index : Nat} {call : κ}
    {parent : Option Nat}
    (ready : table.entries[index]? = some ⟨call, parent, .ready⟩)
    (falls : ∀ other ∈ table.calls,
      rank (program.run call table.state).2 other ≤ rank table.state other) :
    potential rank width (program.ran table index ⟨call, parent, .ready⟩) +
        weight rank width table.state (⟨call, parent, .ready⟩ : Entry κ ε) ≤
      potential rank width table + (1 +
        (((program.run call table.state).1.calls.map
          (⟨·, some index, .ready⟩)).map (weight rank width
            (program.run call table.state).2 : Entry κ ε → Nat)).sum) := by
  have others : ∀ entry ∈ table.entries,
      weight rank width (program.run call table.state).2 entry ≤
        weight rank width table.state entry := by
    intro entry member
    apply weight_mono
    exact falls _ (List.mem_map_of_mem member)
  have entered := @weight_enter _ _ _ program rank width
    (program.run call table.state).2 call parent
    (program.run call table.state).1
  obtain ⟨before, after, entries, replaced⟩ := exists_around ready
  have first := List.sum_le_sum fun entry member => others entry
    (entries ▸ List.mem_append_left _ member : entry ∈ table.entries)
  have second := List.sum_le_sum fun entry member => others entry
    (entries ▸ List.mem_append_right _
      (List.mem_cons_of_mem _ member) : entry ∈ table.entries)
  have total : potential rank width table =
      (before.map (weight rank width table.state)).sum +
        (weight rank width table.state (⟨call, parent, .ready⟩ : Entry κ ε) +
          (after.map (weight rank width table.state)).sum) := by
    rw [potential, entries, List.map_append, List.map_cons, List.sum_append,
      List.sum_cons]
  rw [total]
  simp only [potential, ran, replaced, List.map_append, List.map_cons,
    List.sum_append, List.sum_cons]
  omega

theorem potential_ran {table : Table σ κ ε} {index : Nat} {call : κ}
    {parent : Option Nat}
    (ready : table.entries[index]? = some ⟨call, parent, .ready⟩)
    (few : (program.run call table.state).1.calls.length ≤ width)
    (lower : ∀ child ∈ (program.run call table.state).1.calls,
      rank (program.run call table.state).2 child < rank table.state call)
    (falls : ∀ other ∈ table.calls,
      rank (program.run call table.state).2 other ≤ rank table.state other) :
    potential rank width (program.ran table index ⟨call, parent, .ready⟩) <
      potential rank width table := by
  have paid : 1 + (((program.run call table.state).1.calls.map
      (⟨·, some index, .ready⟩)).map (weight rank width
        (program.run call table.state).2 : Entry κ ε → Nat)).sum <
      weight rank width table.state (⟨call, parent, .ready⟩ : Entry κ ε) :=
    sum_weight_calls_lt rank width few lower
  have account := @potential_ran_add _ _ _ program rank width _ _ _ _ ready falls
  omega

theorem potential_setStatus {table : Table σ κ ε} {index : Nat} {call : κ}
    {parent : Option Nat} {status : Status ε}
    (waiting : table.entries[index]? = some ⟨call, parent, .waiting⟩)
    (ended : weight rank width table.state ⟨call, parent, status⟩ = 0) :
    potential rank width (table.setStatus index ⟨call, parent, .waiting⟩
        status) <
      potential rank width table := by
  have before : weight rank width table.state
      (⟨call, parent, .waiting⟩ : Entry κ ε) = 1 := rfl
  obtain ⟨earlier, later, entries, replaced⟩ := exists_around waiting
  simp only [potential, Table.setStatus, replaced]
  simp only [entries, List.map_append, List.map_cons, List.sum_append,
    List.sum_cons, ended, before]
  omega

theorem potential_move {table next : Table σ κ ε}
    (moved : program.Move table next)
    (few : ∀ call ∈ table.calls,
      (program.run call table.state).1.calls.length ≤ width)
    (lower : ∀ call ∈ table.calls,
      ∀ child ∈ (program.run call table.state).1.calls,
        rank (program.run call table.state).2 child < rank table.state call)
    (falls : ∀ call ∈ table.calls, ∀ other ∈ table.calls,
      rank (program.run call table.state).2 other ≤ rank table.state other) :
    potential rank width next < potential rank width table := by
  cases moved with
  | @run index call parent ready =>
      have member := Table.mem_calls_of_getElem? ready
      exact potential_ran rank width ready (few call member)
        (lower call member) (falls call member)
  | resume waiting _ => exact potential_setStatus rank width waiting rfl
  | fail waiting _ =>
      exact potential_setStatus rank width waiting (weight_settle ..)

/-- The rule of termination: calls rank above the calls that they make, and
make at most `width` of them. -/
theorem Keeps.length_le (keeps : program.Keeps holds) {state : σ} {root : κ}
    {steps : List (Table σ κ ε × Action)} {finish : Table σ κ ε}
    (run : Path program.step (.start state root) steps finish)
    (initial : holds state root)
    (few : ∀ {state call}, holds state call →
      (program.run call state).1.calls.length ≤ width)
    (lower : ∀ {state call}, holds state call →
      ∀ child ∈ (program.run call state).1.calls,
        rank (program.run call state).2 child < rank state call)
    (falls : ∀ {state call other}, holds state call → holds state other →
      rank (program.run call state).2 other ≤ rank state other) :
    steps.length ≤ (width + 2) ^ (rank state root + 1) := by
  have drops : ∀ {table next : Table σ κ ε},
      (∀ call ∈ table.calls, holds table.state call) →
      program.Move table next →
      potential rank width next < potential rank width table := by
    intro table next all moved
    apply potential_move rank width moved
    · exact fun call member => few (all call member)
    · exact fun call member => lower (all call member)
    · exact fun call member other there =>
        falls (all call member) (all other there)
  have counted : steps.length + potential rank width finish ≤
      potential rank width (.start state root : Table σ κ ε) := by
    induction run with
    | refl => simp
    | snoc earlier taken induction =>
        have less := drops (keeps.path earlier initial) (move_of_step taken)
        simp only [List.length_cons]
        omega
  have first : potential rank width (.start state root : Table σ κ ε) =
      (width + 2) ^ (rank state root + 1) := by
    simp [potential, Table.start, weight]
  omega

end Termination

theorem exists_final {start : Table σ κ ε} {bound : Nat}
    (bounded : ∀ steps finish, Path program.step start steps finish →
      steps.length ≤ bound) :
    ∃ steps finish, Path program.step start steps finish ∧
      program.Final finish := by
  by_contra none
  have further : ∀ length, ∃ steps finish,
      Path program.step start steps finish ∧ steps.length = length := by
    intro length
    induction length with
    | zero => exact ⟨[], start, .refl, rfl⟩
    | succ length induction =>
        obtain ⟨steps, finish, path, same⟩ := induction
        have active : ¬ program.Final finish :=
          fun final => none ⟨steps, finish, path, final⟩
        obtain ⟨action, enabled⟩ := not_forall.mp active
        obtain ⟨next, taken⟩ := Option.ne_none_iff_exists'.mp enabled
        exact ⟨_, next, path.snoc taken, by simp [same]⟩
  obtain ⟨steps, finish, path, same⟩ := further (bound + 1)
  have short := bounded steps finish path
  omega

/-- A call can come to run after others, one making the next; `made` are the
calls made on the way. -/
inductive Descends (program : Program σ κ ε) :
    κ → σ → List κ → κ → σ → Prop where
  | here {call : κ} {state : σ} : Descends program call state [] call state
  | child {call child last : κ} {state middle after : σ} {calls made : List κ} :
      program.run call state = (.gather calls, middle) →
      child ∈ calls →
      Descends program child middle made last after →
      Descends program call state (calls ++ made) last after

/-- A call can fail, with an exception that one of the calls it makes fails
with, if that is not a body's own. -/
inductive Throws (program : Program σ κ ε) : κ → σ → ε → σ → Prop where
  | raise {call : κ} {state after : σ} {error : ε} :
      program.run call state = (.raise error, after) →
      program.catches call error = false →
      Throws program call state error after
  | child {call child : κ} {state middle after : σ} {calls : List κ}
      {error : ε} :
      program.run call state = (.gather calls, middle) →
      child ∈ calls →
      Throws program child middle error after →
      program.catches call error = false →
      Throws program call state error after

theorem Descends.trans {call middle last : κ} {state between after : σ}
    {first second : List κ}
    (before : program.Descends call state first middle between)
    (rest : program.Descends middle between second last after) :
    program.Descends call state (first ++ second) last after := by
  induction before with
  | here => exact rest
  | child body member _ induction =>
      rw [List.append_assoc]
      exact .child body member (induction rest)

theorem Throws.of_mem {call child : κ} {state after : σ} {error : ε}
    (member : child ∈ (program.run call state).1.calls)
    (throws : program.Throws child (program.run call state).2 error after)
    (uncaught : program.catches call error = false) :
    program.Throws call state error after := by
  have body : (program.run call state).1 =
      .gather (program.run call state).1.calls := by
    cases outcome : (program.run call state).1 with
    | gather calls => rfl
    | done =>
        rw [outcome] at member
        cases member
    | raise other =>
        rw [outcome] at member
        cases member
  exact .child (Prod.ext body rfl) member throws uncaught

/-- An exception that nothing handles goes all the way up. -/
theorem Descends.throws {call last : κ} {state between after : σ}
    {made : List κ} {error : ε}
    (descends : program.Descends call state made last between)
    (throws : program.Throws last between error after)
    (uncaught : ∀ call, program.catches call error = false) :
    program.Throws call state error after := by
  induction descends with
  | here => exact throws
  | child body member _ induction =>
      exact .child body member (induction throws) (uncaught _)

theorem Keeps.descends (keeps : program.Keeps holds) {call last : κ}
    {state after : σ} {made : List κ}
    (descends : program.Descends call state made last after)
    (initial : holds state call) : holds after last := by
  induction descends with
  | here => exact initial
  | @child call child last state middle after calls made body member _
      induction =>
      apply induction
      have started := keeps.starts initial child (by rw [body]; exact member)
      rw [body] at started
      exact started

theorem ready_ran {table : Table σ κ ε} (index : Nat) (parent : Option Nat)
    {call child : κ} {calls : List κ} {middle : σ}
    (body : program.run call table.state = (.gather calls, middle))
    (member : child ∈ calls) :
    ∃ position, table.entries.length ≤ position ∧
      (program.ran table index ⟨call, parent, .ready⟩).entries[position]? =
        some ⟨child, some index, .ready⟩ := by
  obtain ⟨place, found⟩ := List.getElem?_of_mem member
  refine ⟨table.entries.length + place, by omega, ?_⟩
  simp only [ran, body]
  rw [List.getElem?_append_right (by simp)]
  simp [Outcome.calls, found]

theorem length_ran (program : Program σ κ ε) (table : Table σ κ ε)
    (index : Nat) (entry : Entry κ ε) :
    table.entries.length ≤
      (program.ran table index entry).entries.length := by
  simp [ran]

/-- A run inside the calls of one entry: it keeps all other entries. -/
structure Inside (program : Program σ κ ε) (index : Nat)
    (table finish : Table σ κ ε) : Prop where
  reached : ∃ steps, Path program.step table steps finish
  grows : table.entries.length ≤ finish.entries.length
  keeps : ∀ other < table.entries.length, other ≠ index →
    finish.entries[other]? = table.entries[other]?

theorem Inside.refl (index : Nat) (table : Table σ κ ε) :
    Inside program index table table :=
  ⟨⟨[], .refl⟩, le_rfl, fun _ _ _ => rfl⟩

theorem Inside.ran {table : Table σ κ ε} {index : Nat} {call : κ}
    {parent : Option Nat}
    (ready : table.entries[index]? = some ⟨call, parent, .ready⟩) :
    Inside program index table
      (program.ran table index ⟨call, parent, .ready⟩) :=
  ⟨⟨_, .snoc .refl (step_run ready)⟩, length_ran ..,
    fun _ inside different => program.getElem?_ran_ne _ inside different⟩

theorem Inside.child {table finish : Table σ κ ε} {index position : Nat}
    {call : κ} {parent : Option Nat}
    (ready : table.entries[index]? = some ⟨call, parent, .ready⟩)
    (behind : table.entries.length ≤ position)
    (rest : Inside program position
      (program.ran table index ⟨call, parent, .ready⟩) finish) :
    Inside program index table finish := by
  obtain ⟨steps, path⟩ := rest.reached
  have grown := program.length_ran table index ⟨call, parent, .ready⟩
  refine ⟨⟨_, .append (.snoc .refl (step_run ready)) path⟩,
    grown.trans rest.grows, ?_⟩
  intro other inside different
  rw [rest.keeps other (by omega) (by omega),
    program.getElem?_ran_ne _ inside different]

theorem Inside.setStatus {table middle : Table σ κ ε} {index : Nat}
    {entry : Entry κ ε} {status : Status ε} {action : Action}
    (inside : Inside program index table middle)
    (taken : program.step middle action =
      some (middle.setStatus index entry status)) :
    Inside program index table (middle.setStatus index entry status) := by
  obtain ⟨steps, path⟩ := inside.reached
  refine ⟨⟨_, .snoc path taken⟩, ?_, ?_⟩
  · simpa [Table.setStatus] using inside.grows
  · intro other known different
    rw [Table.getElem?_setStatus_ne _ _ _ different]
    exact inside.keeps other known different

theorem Descends.inside {call last : κ} {state after : σ} {made : List κ}
    (descends : program.Descends call state made last after)
    {table : Table σ κ ε} {index : Nat} {parent : Option Nat}
    (current : table.state = state)
    (ready : table.entries[index]? = some ⟨call, parent, .ready⟩) :
    ∃ finish, Inside program index table finish ∧ finish.state = after ∧
      finish.calls = table.calls ++ made ∧
      ∃ (position : Nat) (maker : Option Nat),
        finish.entries[position]? = some ⟨last, maker, .ready⟩ := by
  induction descends generalizing table index parent with
  | here =>
      exact ⟨table, .refl index table, current, by simp, index, parent, ready⟩
  | @child call child last state middle after calls made body member _
      induction =>
      subst current
      obtain ⟨position, behind, childReady⟩ :=
        ready_ran index parent body member
      obtain ⟨finish, inside, state, made, lastReady⟩ :=
        induction (by rw [ran, body]) childReady
      refine ⟨finish, .child ready behind inside, state, ?_, lastReady⟩
      rw [made, calls_ran ready, body, List.append_assoc]
      rfl

theorem Descends.after_sibling {root sibling child last : κ}
    {state middle later after : σ} {calls siblingCalls made : List κ}
    (body : program.run root state = (.gather calls, middle))
    (isSibling : sibling ∈ calls) (isChild : child ∈ calls)
    (different : child ≠ sibling)
    (siblingBody : program.run sibling middle = (.gather siblingCalls, later))
    (descends : program.Descends child later made last after) :
    ∃ steps finish, Path program.step (.start state root) steps finish ∧
      finish.calls = root :: calls ++ siblingCalls ++ made := by
  have started : (Table.start state root : Table σ κ ε).entries[0]? =
      some ⟨root, none, .ready⟩ := Table.start_ready state root
  have rootBody : program.run root (Table.start state root :
      Table σ κ ε).state = (.gather calls, middle) := body
  obtain ⟨place, _, childReady⟩ := ready_ran 0 none rootBody isChild
  obtain ⟨position, _, siblingReady⟩ := ready_ran 0 none rootBody isSibling
  have apart : place ≠ position := by
    intro same
    rw [same, siblingReady] at childReady
    exact different (congrArg Entry.call (Option.some.inj childReady)).symm
  have within := (List.getElem?_eq_some_iff.mp childReady).1
  have stillReady := program.getElem?_ran_ne ⟨sibling, some 0, .ready⟩ within
    apart
  rw [childReady] at stillReady
  obtain ⟨finish, inside, _, calls, _⟩ := descends.inside
    (by simp [ran, body, siblingBody]) stillReady
  obtain ⟨steps, path⟩ := inside.reached
  refine ⟨_, finish, .append (.snoc (.snoc .refl (step_run started))
    (step_run siblingReady)) path, ?_⟩
  rw [calls, calls_ran siblingReady, calls_ran started]
  simp [ran, body, siblingBody, Outcome.calls]

theorem Throws.inside {call : κ} {state after : σ} {error : ε}
    (throws : program.Throws call state error after)
    {table : Table σ κ ε} {index : Nat} {parent : Option Nat}
    (current : table.state = state)
    (ready : table.entries[index]? = some ⟨call, parent, .ready⟩) :
    ∃ finish, Inside program index table finish ∧
      finish.entries[index]? = some ⟨call, parent, .raised error⟩ := by
  induction throws generalizing table index parent with
  | @raise call state after error body uncaught =>
      subst current
      refine ⟨_, .ran ready, ?_⟩
      rw [program.getElem?_ran_self ready]
      simp [body, enter, settle, uncaught]
  | @child call child state middle after calls error body member _ uncaught
      induction =>
      subst current
      have bound := (List.getElem?_eq_some_iff.mp ready).1
      obtain ⟨position, behind, childReady⟩ :=
        ready_ran index parent body member
      obtain ⟨finish, inside, raised⟩ :=
        induction (by rw [ran, body]) childReady
      have waiting : finish.entries[index]? =
          some ⟨call, parent, .waiting⟩ := by
        rw [inside.keeps index (bound.trans_le (length_ran ..)) (by omega),
          program.getElem?_ran_self ready, body]
        rfl
      refine ⟨_, .setStatus (.child ready behind inside)
        (step_fail waiting raised), ?_⟩
      rw [Table.getElem?_setStatus_self waiting, settle, uncaught]
      rfl

theorem Descends.caught {root last : κ} {state after : σ} {made : List κ}
    {error : ε} (descends : program.Descends root state made last after)
    (raises : (program.run last after).1 = .raise error)
    (caught : program.catches last error = true) :
    ∃ (steps : List (Table σ κ ε × Action)) (finish : Table σ κ ε),
      Path program.step (.start state root) steps finish ∧
      ∃ (index : Nat) (parent : Option Nat),
        finish.entries[index]? = some ⟨last, parent, .returned⟩ := by
  obtain ⟨middle, reached, rfl, _, index, parent, ready⟩ :=
    descends.inside rfl (Table.start_ready state root)
  obtain ⟨before, path⟩ := reached.reached
  refine ⟨_, _, .snoc path (step_run ready), index, parent, ?_⟩
  rw [program.getElem?_ran_self ready]
  simp [raises, enter, settle, caught]

/-- A call can return although one of the calls it has made has failed, if it
handles the exception. -/
theorem Descends.handled {root last child : κ} {state after later : σ}
    {made calls : List κ} {error : ε}
    (descends : program.Descends root state made last after)
    (body : program.run last after = (.gather calls, later))
    (member : child ∈ calls)
    (raises : (program.run child later).1 = .raise error)
    (uncaught : program.catches child error = false)
    (caught : program.catches last error = true) :
    ∃ (steps : List (Table σ κ ε × Action)) (finish : Table σ κ ε),
      Path program.step (.start state root) steps finish ∧
      ∃ (index position : Nat) (parent : Option Nat),
        finish.entries[index]? = some ⟨last, parent, .returned⟩ ∧
        finish.entries[position]? =
          some ⟨child, some index, .raised error⟩ := by
  obtain ⟨middle, reached, rfl, _, index, parent, ready⟩ :=
    descends.inside rfl (Table.start_ready state root)
  obtain ⟨position, behind, childReady⟩ := ready_ran index parent body member
  have throws : program.Throws child later error
      (program.run child later).2 := .raise (Prod.ext raises rfl) uncaught
  obtain ⟨finish, inside, raised⟩ :=
    throws.inside (by rw [ran, body]) childReady
  have bound := (List.getElem?_eq_some_iff.mp ready).1
  have waiting : finish.entries[index]? = some ⟨last, parent, .waiting⟩ := by
    rw [inside.keeps index (bound.trans_le (length_ran ..)) (by omega),
      program.getElem?_ran_self ready, body]
    rfl
  obtain ⟨before, path⟩ := reached.reached
  obtain ⟨rest, further⟩ := inside.reached
  refine ⟨_, _, .snoc (.append (.snoc path (step_run ready)) further)
    (step_fail waiting raised), index, position, parent, ?_, ?_⟩
  · rw [Table.getElem?_setStatus_self waiting, settle, caught]
    rfl
  · have apart : position ≠ index := by omega
    rw [Table.getElem?_setStatus_ne _ _ _ apart]
    exact raised

end Program

end CallTable
