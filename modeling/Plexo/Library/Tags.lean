import Plexo.Library.OpenCalls

/-!
# Calls with tags

Calls carry a tag that they hand on to the calls they make.  No body looks at
it, so a program does with tags what it does without them; the tags tell where
a call comes from.
-/

namespace CallTable

open Transition

variable {σ κ ε β α τ ι : Type}

def Outcome.map (function : κ → ι) : Outcome κ ε → Outcome ι ε
  | .done => .done
  | .raise error => .raise error
  | .gather calls => .gather (calls.map function)

@[simp] theorem Outcome.calls_map (function : κ → ι) (outcome : Outcome κ ε) :
    (outcome.map function).calls = outcome.calls.map function := by
  cases outcome <;> rfl

def Entry.untag (entry : Entry (κ × τ) ε) : Entry κ ε :=
  ⟨entry.call.1, entry.parent, entry.status⟩

def Table.untag (table : Table σ (κ × τ) ε) : Table σ κ ε :=
  ⟨table.state, table.entries.map Entry.untag⟩

@[simp] theorem Table.untag_state (table : Table σ (κ × τ) ε) :
    table.untag.state = table.state := rfl

theorem Table.untag_entries (table : Table σ (κ × τ) ε) (index : Nat) :
    table.untag.entries[index]? = table.entries[index]?.map Entry.untag :=
  List.getElem?_map ..

theorem Table.untag_calls (table : Table σ (κ × τ) ε) :
    table.untag.calls = table.calls.map (·.1) := by
  simp only [Table.calls, Table.untag, List.map_map]
  rfl

theorem Table.untag_enter (table : Table σ (κ × τ) ε) (call : κ) (tag : τ) :
    (table.enter (call, tag)).untag = table.untag.enter call := by
  simp only [Table.enter, Table.untag, List.map_append]
  rfl

theorem Table.untag_canResume (table : Table σ (κ × τ) ε) (index : Nat) :
    table.untag.canResume index = table.canResume index := by
  simp only [Table.canResume, Table.untag, List.all_map]
  rfl

theorem Table.untag_setStatus (table : Table σ (κ × τ) ε) (index : Nat)
    (call : κ × τ) (parent : Option Nat) (before after : Status ε) :
    (table.setStatus index ⟨call, parent, before⟩ after).untag =
      table.untag.setStatus index ⟨call.1, parent, before⟩ after := by
  simp only [Table.setStatus, Table.untag, List.map_set]
  rfl

/-- What comes in from outside gets the same tag. -/
def Surroundings.tagged (around : Surroundings σ κ β α) (tag : τ) :
    Surroundings σ (κ × τ) β α where
  enter state input := (around.enter state input).map (·, tag)
  change := around.change

namespace Program

/-- The program that hands tags on. -/
def tagged (program : Program σ κ ε) (τ : Type) : Program σ (κ × τ) ε where
  run call state :=
    ((program.run call.1 state).1.map (·, call.2),
      (program.run call.1 state).2)
  catches call := program.catches call.1

variable {program : Program σ κ ε}

theorem tagged_enter (program : Program σ κ ε) (call : κ × τ)
    (outcome : Outcome κ ε) :
    (program.tagged τ).enter call (outcome.map (·, call.2)) =
      program.enter call.1 outcome := by
  cases outcome <;> rfl

theorem untag_ran (program : Program σ κ ε) (table : Table σ (κ × τ) ε)
    (index : Nat) (call : κ × τ) (parent : Option Nat) :
    ((program.tagged τ).ran table index ⟨call, parent, .ready⟩).untag =
      program.ran table.untag index ⟨call.1, parent, .ready⟩ := by
  simp only [ran, Table.untag, List.map_append, List.map_set, tagged,
    Outcome.calls_map, List.map_map, Table.mk.injEq, true_and]
  have entered := program.tagged_enter call (program.run call.1 table.state).1
  simp only [tagged] at entered
  simp only [Entry.untag, entered]
  rfl

/-- A program does with tags what it does without them. -/
theorem untag_step (program : Program σ κ ε) (table : Table σ (κ × τ) ε)
    (action : Action) :
    ((program.tagged τ).step table action).map Table.untag =
      program.step table.untag action := by
  cases action with
  | run index =>
      simp only [step, Table.untag_entries]
      cases found : table.entries[index]? with
      | none => rfl
      | some entry =>
          obtain ⟨call, parent, status⟩ := entry
          cases status with
          | ready => exact congrArg some (untag_ran program table index call parent)
          | waiting => rfl
          | returned => rfl
          | raised _ => rfl
  | resume index =>
      simp only [step, Table.untag_entries, Table.untag_canResume]
      cases found : table.entries[index]? with
      | none => rfl
      | some entry =>
          obtain ⟨call, parent, status⟩ := entry
          cases status with
          | waiting =>
              cases resumes : table.canResume index with
              | true =>
                  exact congrArg some
                    (table.untag_setStatus index call parent .waiting .returned)
              | false => rfl
          | ready => rfl
          | returned => rfl
          | raised _ => rfl
  | fail index child =>
      simp only [step, Table.untag_entries]
      cases found : table.entries[index]? with
      | none => rfl
      | some entry =>
          obtain ⟨call, parent, status⟩ := entry
          cases status with
          | waiting =>
              cases there : table.entries[child]? with
              | none => rfl
              | some other =>
                  obtain ⟨made, maker, status⟩ := other
                  cases status with
                  | raised error =>
                      by_cases same : maker = some index
                      · simp only [Option.map_some, Entry.untag, if_pos same]
                        exact congrArg some (table.untag_setStatus index call
                          parent .waiting (program.settle call.1 error))
                      · simp only [Option.map_some, Entry.untag, if_neg same]
                        rfl
                  | ready => rfl
                  | waiting => rfl
                  | returned => rfl
          | ready => rfl
          | returned => rfl
          | raised _ => rfl

theorem untag_openStep (program : Program σ κ ε) (around : Surroundings σ κ β α)
    (tag : τ) (table : Table σ (κ × τ) ε) (action : OpenAction β α) :
    ((program.tagged τ).openStep (around.tagged tag) table action).map
        Table.untag =
      program.openStep around table.untag action := by
  cases action with
  | pass action => exact untag_step program table action
  | enter input =>
      simp only [openStep, Surroundings.tagged, Table.untag_state]
      cases around.enter table.state input with
      | none => rfl
      | some call => exact congrArg some (table.untag_enter call tag)
  | change action =>
      simp only [openStep, Surroundings.tagged, Table.untag_state]
      cases around.change table.state action <;> rfl

theorem Descends.tagged {call last : κ} {state after : σ} {made : List κ}
    (descends : program.Descends call state made last after) (tag : τ) :
    (program.tagged τ).Descends (call, tag) state (made.map (·, tag))
      (last, tag) after := by
  induction descends with
  | here => exact .here
  | @child call child last state middle after calls made body member _
      induction =>
      rw [List.map_append]
      refine .child ?_ (List.mem_map_of_mem member) induction
      simp only [Program.tagged, body]
      rfl

theorem keeps_tags (program : Program σ κ ε) (around : Surroundings σ κ β α)
    {property : τ → Prop} {tag : τ} (outside : property tag) :
    (program.tagged τ).OpenKeeps (around.tagged tag) (fun _ => True)
      fun _ call => property call.2 where
  starts := by
    intro state call _ holds child member
    simp only [Program.tagged, Outcome.calls_map] at member
    obtain ⟨made, _, rfl⟩ := List.mem_map.mp member
    exact holds
  stays := fun _ _ other => other
  enters := by
    intro state input call _ entered
    obtain ⟨known, _, rfl⟩ := Option.map_eq_some_iff.mp entered
    exact outside
  changes := fun _ _ holds => holds

end Program

end CallTable
