import Plexo.Library.Tags

/-!
# What calls lead to in every order

Which calls a call makes may depend on the state that it runs in.  A call leads
to a goal if it makes a call that does, whatever the state is; then the goal is
among the calls once none is left to run, in whatever order they have run and
whatever else has been called meanwhile.
-/

namespace CallTable

variable {σ κ ε β α τ : Type}

def Status.isEnded : Status ε → Bool
  | .ready => false
  | .waiting => false
  | .returned => true
  | .raised _ => true

namespace Program

theorem final_of_ended {program : Program σ κ ε} {table : Table σ κ ε}
    (ended : ∀ entry ∈ table.entries, entry.status.isEnded = true) :
    program.Final table := by
  intro action
  cases taken : program.step table action with
  | none => rfl
  | some next =>
      cases (move_of_step taken).change with
      | run ready => cases ended _ (List.mem_of_getElem? ready)
      | settle waiting _ => cases ended _ (List.mem_of_getElem? waiting)

/-- In every good state, a call makes one which leads to the goal, `depth` calls
further down. -/
def Leads (program : Program σ κ ε) (good : σ → Prop) (goal : κ → Prop) :
    Nat → κ → Prop
  | 0, call => goal call
  | depth + 1, call => ∀ state, good state →
      ∃ child ∈ (program.run call state).1.calls,
        Leads program good goal depth child

variable {program : Program σ κ ε} {around : Surroundings σ κ β α}
  {good : σ → Prop} {goal : κ → Prop} {depth : Nat}

theorem Leads.tagged {call : κ} (leads : program.Leads good goal depth call)
    (tag : τ) : (program.tagged τ).Leads good
      (fun call => goal call.1 ∧ call.2 = tag) depth (call, tag) := by
  induction depth generalizing call with
  | zero => exact ⟨leads, rfl⟩
  | succ depth induction =>
      intro state fine
      obtain ⟨child, made, further⟩ := leads state fine
      refine ⟨(child, tag), ?_, induction further⟩
      simp only [Program.tagged, Outcome.calls_map]
      exact List.mem_map_of_mem made

/-- The calls from an index on that have run have made what they make in some
good state. -/
def Followed (program : Program σ κ ε) (good : σ → Prop) (since : Nat)
    (table : Table σ κ ε) : Prop :=
  ∀ ⦃index : Nat⦄ ⦃entry : Entry κ ε⦄, since ≤ index →
    table.entries[index]? = some entry →
      entry.status.isReady = true ∨ ∃ state, good state ∧
        ∀ child ∈ (program.run entry.call state).1.calls,
          child ∈ table.calls.drop since

theorem calls_enter (table : Table σ κ ε) (call : κ) :
    (table.enter call).calls = table.calls ++ [call] := by
  simp [Table.calls, Table.enter]

theorem length_calls (table : Table σ κ ε) :
    table.calls.length = table.entries.length :=
  List.length_map ..

theorem mem_drop_calls {table : Table σ κ ε} {since : Nat} {call : κ} :
    call ∈ table.calls.drop since ↔ ∃ index entry, since ≤ index ∧
      table.entries[index]? = some entry ∧ entry.call = call := by
  constructor
  · intro called
    obtain ⟨index, found⟩ := List.getElem?_of_mem called
    rw [List.getElem?_drop, Table.calls, List.getElem?_map] at found
    obtain ⟨entry, known, same⟩ := Option.map_eq_some_iff.mp found
    exact ⟨since + index, entry, Nat.le_add_right since index, known, same⟩
  · rintro ⟨index, entry, late, found, rfl⟩
    obtain ⟨distance, rfl⟩ := Nat.exists_eq_add_of_le late
    apply List.mem_of_getElem?
    rw [List.getElem?_drop, Table.calls, List.getElem?_map, found]
    rfl

theorem openChange_enter (program : Program σ κ ε) (table : Table σ κ ε)
    (call : κ) : program.OpenChange
      (⟨fun _ _ => some call, fun _ _ => none⟩ : Surroundings σ κ Unit Unit)
      table (table.enter call) :=
  @OpenChange.enter _ _ _ _ _ _ _ _ () _ rfl

theorem OpenChange.exists_append {table next : Table σ κ ε}
    (changed : program.OpenChange around table next) :
    ∃ calls, next.calls = table.calls ++ calls := by
  cases changed with
  | run ready => exact ⟨_, calls_ran ready⟩
  | settle waiting _ =>
      refine ⟨[], ?_⟩
      rw [Table.calls_setStatus waiting, List.append_nil]
  | @enter input call _ =>
      refine ⟨[call], ?_⟩
      simp [Table.calls, Table.enter]
  | change _ => exact ⟨[], (List.append_nil _).symm⟩

theorem OpenChange.drop_subset {table next : Table σ κ ε}
    (changed : program.OpenChange around table next) (since : Nat) :
    table.calls.drop since ⊆ next.calls.drop since := by
  obtain ⟨calls, same⟩ := changed.exists_append
  rw [same, List.drop_append]
  exact List.subset_append_left _ _

theorem OpenChange.followed {since : Nat} {table next : Table σ κ ε}
    (changed : program.OpenChange around table next)
    (followed : program.Followed good since table) (fine : good table.state)
    (old : since ≤ table.entries.length) :
    program.Followed good since next := by
  have grows := changed.drop_subset since
  intro position entry late found
  have kept : ∀ {other : Entry κ ε}, table.entries[position]? = some other →
      other.status.isReady = true ∨ ∃ state, good state ∧
        ∀ child ∈ (program.run other.call state).1.calls,
          child ∈ next.calls.drop since := by
    intro other known
    rcases followed late known with ready | ⟨state, isGood, made⟩
    · exact .inl ready
    · exact .inr ⟨state, isGood, fun child member => grows (made child member)⟩
  cases changed with
  | @run index call parent ready =>
      rcases getElem?_ran_cases ready found with
        ⟨rfl, rfl⟩ | ⟨_, known⟩ | ⟨_, child, _, rfl⟩
      · -- The call that has run has made its calls just now.
        refine .inr ⟨table.state, fine, ?_⟩
        intro child member
        rw [calls_ran ready, List.drop_append_of_le_length
          (old.trans (length_calls table).ge)]
        exact List.mem_append_right _ member
      · exact kept known
      · exact .inl rfl
  | settle waiting ended =>
      rcases Table.getElem?_setStatus_cases waiting found with
        ⟨rfl, rfl⟩ | ⟨_, known⟩
      · rcases kept waiting with ready | made
        · cases ready
        · exact .inr made
      · exact kept known
  | enter _ =>
      rcases getElem?_enter_cases found with known | ⟨_, rfl⟩
      · exact kept known
      · exact .inl rfl
  | change _ => exact kept found

theorem Followed.reaches {since : Nat} {table : Table σ κ ε}
    (followed : program.Followed good since table)
    (ran : ∀ {index : Nat} {call : κ} {parent : Option Nat},
      table.entries[index]? ≠ some ⟨call, parent, .ready⟩)
    {call : κ} (leads : program.Leads good goal depth call)
    (called : call ∈ table.calls.drop since) :
    ∃ last ∈ table.calls.drop since, goal last := by
  induction depth generalizing call with
  | zero => exact ⟨call, called, leads⟩
  | succ depth induction =>
      obtain ⟨index, ⟨made, parent, status⟩, late, known, same⟩ :=
        mem_drop_calls.mp called
      rcases followed late known with
        ready | ⟨state, fine, children⟩
      · cases status with
        | ready => exact absurd known ran
        | waiting => cases ready
        | returned => cases ready
        | raised _ => cases ready
      · obtain ⟨child, member, further⟩ := leads state fine
        rw [← same] at member
        exact induction further (children child member)

end Program

end CallTable
