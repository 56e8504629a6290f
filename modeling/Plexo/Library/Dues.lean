import Mathlib.Algebra.BigOperators.Group.Finset.Piecewise
import Plexo.Library.Leads

/-!
# What is still due of calls

A worth is given to calls, such as how often they will lead to something.  What
the calls are worth together that have not run yet is what is still due.  When a
call runs, its worth goes over to the calls that it makes; if it is worth more
than they are together, then the rest has come about in this very step.
-/

namespace CallTable

variable {σ κ ε τ : Type}

/-- What the calls are worth together that have not run yet. -/
def Table.due (worth : κ → Nat) (table : Table σ κ ε) : Nat :=
  (table.entries.map fun entry =>
    if entry.status.isReady then worth entry.call else 0).sum

def worthOf [DecidableEq τ] (tag : τ) (worth : κ → Nat) (call : κ × τ) : Nat :=
  if call.2 = tag then worth call.1 else 0

namespace Program

variable {program : Program σ κ ε} {worth : κ → Nat}

theorem due_ran (program : Program σ κ ε) (worth : κ → Nat)
    {table : Table σ κ ε} {index : Nat} {call : κ} {parent : Option Nat}
    (ready : table.entries[index]? = some ⟨call, parent, .ready⟩) :
    (program.ran table index ⟨call, parent, .ready⟩).due worth + worth call =
      table.due worth +
        ((program.run call table.state).1.calls.map worth).sum := by
  have fresh : ((fun entry : Entry κ ε =>
      if entry.status.isReady then worth entry.call else 0) ∘
        fun call => ⟨call, some index, .ready⟩) = worth := by
    funext call
    simp
  obtain ⟨before, after, entries, replaced⟩ := exists_around ready
  simp only [Table.due, ran, replaced]
  simp only [entries, List.map_append, List.map_cons, List.map_map, fresh,
    List.sum_append, List.sum_cons, enter_isReady, Status.isReady_ready,
    Bool.false_eq_true, if_false, if_true]
  omega

theorem due_setStatus {table : Table σ κ ε} {index : Nat} {call : κ}
    {parent : Option Nat} {status : Status ε}
    (waiting : table.entries[index]? = some ⟨call, parent, .waiting⟩)
    (ended : status.isReady = false) :
    (table.setStatus index ⟨call, parent, .waiting⟩ status).due worth =
      table.due worth := by
  obtain ⟨before, after, entries, replaced⟩ := exists_around waiting
  simp only [Table.due, Table.setStatus, replaced]
  simp [entries, ended]

theorem due_enter (table : Table σ κ ε) (worth : κ → Nat) (call : κ) :
    (table.enter call).due worth = table.due worth + worth call := by
  simp [Table.due, Table.enter]

theorem due_eq_zero {table : Table σ κ ε}
    (ran : ∀ {index : Nat} {call : κ} {parent : Option Nat},
      table.entries[index]? ≠ some ⟨call, parent, .ready⟩) :
    table.due worth = 0 := by
  apply List.sum_eq_zero
  intro value member
  obtain ⟨⟨call, parent, status⟩, inside, rfl⟩ := List.mem_map.mp member
  obtain ⟨index, found⟩ := List.getElem?_of_mem inside
  cases status with
  | ready => exact absurd found ran
  | waiting => rfl
  | returned => rfl
  | raised _ => rfl

section Tagged

variable [DecidableEq τ]

theorem sum_worthOf_tagged (tag : τ) (call : κ × τ)
    (state : σ) :
    (((program.tagged τ).run call state).1.calls.map
        (worthOf tag worth)).sum =
      if call.2 = tag then
        ((program.run call.1 state).1.calls.map worth).sum
      else 0 := by
  simp only [Program.tagged, Outcome.calls_map, List.map_map]
  split
  · next same =>
      congr 1
      apply List.map_congr_left
      intro child _
      simp [worthOf, same]
  · next different =>
      apply List.sum_eq_zero
      intro value member
      obtain ⟨child, _, rfl⟩ := List.mem_map.mp member
      simp [worthOf, different]

theorem due_ran_tagged (program : Program σ κ ε) (worth : κ → Nat) (tag : τ)
    {table : Table σ (κ × τ) ε} {index : Nat} {call : κ × τ}
    {parent : Option Nat}
    (ready : table.entries[index]? = some ⟨call, parent, .ready⟩) :
    ((program.tagged τ).ran table index ⟨call, parent, .ready⟩).due
        (worthOf tag worth) + (if call.2 = tag then worth call.1 else 0) =
      table.due (worthOf tag worth) + if call.2 = tag then
        ((program.run call.1 table.state).1.calls.map worth).sum else 0 := by
  rw [← sum_worthOf_tagged]
  exact due_ran (program.tagged τ) (worthOf tag worth) ready

end Tagged

end Program

theorem sum_eq_countP_mul {α : Type} {elements : List α} {worth : α → Nat}
    {kind : α → Bool} {value : Nat}
    (each : ∀ element ∈ elements,
      worth element = if kind element then value else 0) :
    (elements.map worth).sum = elements.countP kind * value := by
  induction elements with
  | nil => simp
  | cons element elements induction =>
      rw [List.map_cons, List.sum_cons, List.countP_cons,
        induction fun other member => each other (.tail _ member),
        each element (.head _)]
      cases kind element with
      | true => simp only [if_true, Nat.add_mul, Nat.one_mul, Nat.add_comm]
      | false => simp

theorem countP_eq_sum_tags {α : Type} [DecidableEq τ] {elements : List α}
    {tag : α → τ} {tags : Finset τ}
    (tagged : ∀ element ∈ elements, tag element ∈ tags) (kind : α → Bool) :
    elements.countP kind =
      ∑ one ∈ tags, elements.countP fun element =>
        kind element && tag element = one := by
  induction elements with
  | nil => simp
  | cons element elements induction =>
      have here := tagged element (.head _)
      simp only [List.countP_cons, Finset.sum_add_distrib]
      rw [induction fun other member => tagged other (.tail _ member)]
      congr 1
      cases kind element with
      | true => simp [here]
      | false => simp

end CallTable
