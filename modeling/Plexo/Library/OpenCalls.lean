import Plexo.Library.CallTable

/-!
# Calls in an environment

While calls run, others change the state, and new calls enter from outside.  The
rules below are about every order in which all of this can happen: what holds
between a call and the calls it leads to, and how many these are.
-/

namespace CallTable

open Transition

/-- What happens around the calls: inputs `β` that come in as calls, and changes
`α` of the state. -/
structure Surroundings (σ κ β α : Type) where
  enter : σ → β → Option κ
  change : σ → α → Option σ

inductive OpenAction (β α : Type) where
  | pass (action : Action)
  | enter (input : β)
  | change (action : α)

variable {σ κ ε β α : Type}

namespace Table

def empty (state : σ) : Table σ κ ε := ⟨state, []⟩

def enter (table : Table σ κ ε) (call : κ) : Table σ κ ε :=
  { table with entries := table.entries ++ [⟨call, none, .ready⟩] }

end Table

namespace Program

def openStep (program : Program σ κ ε) (around : Surroundings σ κ β α)
    (table : Table σ κ ε) : OpenAction β α → Option (Table σ κ ε)
  | .pass action => program.step table action
  | .enter input => (around.enter table.state input).map table.enter
  | .change action =>
      (around.change table.state action).map fun state => { table with state }

/-- The steps of an open system, for what does not depend on how a call ends. -/
inductive OpenChange (program : Program σ κ ε) (around : Surroundings σ κ β α)
    (table : Table σ κ ε) : Table σ κ ε → Prop where
  | run {index : Nat} {call : κ} {parent : Option Nat} :
      table.entries[index]? = some ⟨call, parent, .ready⟩ →
      OpenChange program around table
        (program.ran table index ⟨call, parent, .ready⟩)
  | settle {index : Nat} {call : κ} {parent : Option Nat} {status : Status ε} :
      table.entries[index]? = some ⟨call, parent, .waiting⟩ →
      status.isReady = false →
      OpenChange program around table
        (table.setStatus index ⟨call, parent, .waiting⟩ status)
  | enter {input : β} {call : κ} :
      around.enter table.state input = some call →
      OpenChange program around table (table.enter call)
  | change {action : α} {state : σ} :
      around.change table.state action = some state →
      OpenChange program around table { table with state }

variable {program : Program σ κ ε} {around : Surroundings σ κ β α}

theorem openChange_of_step {table next : Table σ κ ε}
    {action : OpenAction β α}
    (taken : program.openStep around table action = some next) :
    program.OpenChange around table next := by
  cases action with
  | pass action =>
      cases (move_of_step taken).change with
      | run ready => exact .run ready
      | settle waiting ended => exact .settle waiting ended
  | enter input =>
      obtain ⟨call, entered, rfl⟩ := Option.map_eq_some_iff.mp taken
      exact .enter entered
  | change action =>
      obtain ⟨state, changed, rfl⟩ := Option.map_eq_some_iff.mp taken
      exact .change changed

theorem getElem?_enter_cases {table : Table σ κ ε} {call : κ}
    {position : Nat} {entry : Entry κ ε}
    (found : (table.enter call).entries[position]? = some entry) :
    table.entries[position]? = some entry ∨
      (position = table.entries.length ∧ entry = ⟨call, none, .ready⟩) := by
  have bound := (List.getElem?_eq_some_iff.mp found).1
  by_cases inside : position < table.entries.length
  · rw [Table.enter, List.getElem?_append_left inside] at found
    exact .inl found
  · have last : position = table.entries.length := by
      simp only [Table.enter, List.length_append, List.length_singleton]
        at bound
      omega
    subst last
    rw [Table.enter, List.getElem?_concat_length] at found
    exact .inr ⟨rfl, (Option.some.inj found).symm⟩

theorem nested_empty (state : σ) : Nested (.empty state : Table σ κ ε) := by
  constructor <;> simp [Table.empty]

theorem nested_enter {table : Table σ κ ε} (nested : Nested table) (call : κ) :
    Nested (table.enter call) := by
  have inside : ∀ {position index : Nat} {child : Entry κ ε},
      (table.enter call).entries[position]? = some child →
      child.parent = some index → table.entries[position]? = some child := by
    intro position index child found isParent
    rcases getElem?_enter_cases found with old | ⟨_, rfl⟩
    · exact old
    · cases isParent
  constructor
  · intro position index child found isParent
    exact nested.behind (inside found isParent) isParent
  · intro position index child entry found isParent there
    have old := inside found isParent
    rcases getElem?_enter_cases there with known | ⟨rfl, _⟩
    · exact nested.started old isParent known
    · have before := nested.behind old isParent
      have bound := (List.getElem?_eq_some_iff.mp old).1
      omega

theorem OpenChange.nested {table next : Table σ κ ε}
    (changed : program.OpenChange around table next) (nested : Nested table) :
    Nested next := by
  cases changed with
  | run ready => exact nested_ran nested ready
  | settle waiting ended => exact nested_setStatus nested waiting ended
  | enter _ => exact nested_enter nested _
  | change _ => exact ⟨nested.behind, nested.started⟩

/-- A call and a call that it has led to, `depth` calls below it. -/
inductive Below (table : Table σ κ ε) (top : Nat) : Nat → Nat → Prop where
  | self : Below table top 0 top
  | child {depth index position : Nat} {entry : Entry κ ε} :
      Below table top depth index → table.entries[position]? = some entry →
        entry.parent = some index → Below table top (depth + 1) position

theorem Below.le {table : Table σ κ ε} (nested : Nested table)
    {top depth position : Nat} (below : Below table top depth position) :
    top + depth ≤ position := by
  induction below with
  | self => exact le_rfl
  | child _ found isParent induction =>
      have behind := nested.behind found isParent
      omega

theorem Below.trans {table : Table σ κ ε}
    {top middle first second position : Nat}
    (above : Below table top first middle)
    (below : Below table middle second position) :
    Below table top (first + second) position := by
  induction below with
  | self => exact above
  | child _ found isParent induction => exact .child induction found isParent

structure SameCalls (before after : Table σ κ ε) : Prop where
  old : ∀ {position : Nat} {entry : Entry κ ε},
    position < before.entries.length →
    after.entries[position]? = some entry →
    ∃ old, before.entries[position]? = some old ∧ old.call = entry.call ∧
      old.parent = entry.parent

theorem OpenChange.sameCalls {table next : Table σ κ ε}
    (changed : program.OpenChange around table next) :
    SameCalls table next := by
  constructor
  intro position entry inside found
  cases changed with
  | run ready =>
      rcases getElem?_ran_cases ready found with
        ⟨rfl, rfl⟩ | ⟨_, old⟩ | ⟨new, _⟩
      · exact ⟨_, ready, rfl, rfl⟩
      · exact ⟨entry, old, rfl, rfl⟩
      · omega
  | settle waiting _ =>
      rcases Table.getElem?_setStatus_cases waiting found with
        ⟨rfl, rfl⟩ | ⟨_, old⟩
      · exact ⟨_, waiting, rfl, rfl⟩
      · exact ⟨entry, old, rfl, rfl⟩
  | enter _ =>
      rcases getElem?_enter_cases found with old | ⟨rfl, _⟩
      · exact ⟨entry, old, rfl, rfl⟩
      · omega
  | change _ => exact ⟨entry, found, rfl, rfl⟩

theorem SameCalls.below {before after : Table σ κ ε}
    (same : SameCalls before after) (nested : Nested after)
    {top depth position : Nat} (below : Below after top depth position)
    (inside : position < before.entries.length) :
    Below before top depth position := by
  induction below with
  | self => exact .self
  | child _ found isParent induction =>
      obtain ⟨old, known, _, parent⟩ := same.old inside found
      have behind := nested.behind found isParent
      exact .child (induction (behind.trans inside)) known
        (parent.trans isParent)

/-- `holds` of calls is kept by everything that happens in good states. -/
structure OpenKeeps (program : Program σ κ ε) (around : Surroundings σ κ β α)
    (good : σ → Prop) (holds : σ → κ → Prop) : Prop where
  starts : ∀ {state call}, good state → holds state call →
    ∀ child ∈ (program.run call state).1.calls,
      holds (program.run call state).2 child
  stays : ∀ {state call other}, good state → holds state call →
    holds state other → holds (program.run call state).2 other
  enters : ∀ {state input call}, good state →
    around.enter state input = some call → holds state call
  changes : ∀ {state action next call}, good state →
    around.change state action = some next → holds state call →
      holds next call

/-- `related` passes from a call to the calls that it leads to, so many calls
below it. -/
structure Relates (program : Program σ κ ε) (around : Surroundings σ κ β α)
    (good : σ → Prop) (holds : σ → κ → Prop)
    (related : Nat → σ → κ → κ → Prop) : Prop where
  starts : ∀ {state call}, good state → holds state call →
    ∀ child ∈ (program.run call state).1.calls,
      related 1 (program.run call state).2 call child
  leads : ∀ {depth state above call}, good state → holds state call →
    related depth state above call →
    ∀ child ∈ (program.run call state).1.calls,
      related (depth + 1) (program.run call state).2 above child
  stays : ∀ {depth state call above below}, good state → holds state call →
    holds state below → related depth state above below →
    related depth (program.run call state).2 above below
  changes : ∀ {depth state action next above below}, good state →
    around.change state action = some next → holds state below →
      related depth state above below → related depth next above below

section Runs

variable {good : σ → Prop} {holds : σ → κ → Prop} {start : σ}
  {steps : List (Table σ κ ε × OpenAction β α)} {finish : Table σ κ ε}

/-- All states that a run has come through are good. -/
def Throughout (good : σ → Prop)
    (steps : List (Table σ κ ε × OpenAction β α)) : Prop :=
  Along (fun table _ => good table.state) steps

theorem OpenKeeps.openChange
    (keeps : program.OpenKeeps around good holds) {table next : Table σ κ ε}
    (fine : good table.state)
    (all : ∀ call ∈ table.calls, holds table.state call)
    (changed : program.OpenChange around table next) :
    ∀ call ∈ next.calls, holds next.state call := by
  cases changed with
  | run ready =>
      have runs := all _ (Table.mem_calls_of_getElem? ready)
      intro other member
      rw [calls_ran ready] at member
      rcases List.mem_append.mp member with old | new
      · exact keeps.stays fine runs (all other old)
      · exact keeps.starts fine runs other new
  | settle waiting _ =>
      rw [Table.calls_setStatus waiting]
      exact all
  | enter entered =>
      intro other member
      simp only [Table.calls, Table.enter, List.map_append, List.map_cons,
        List.map_nil] at member
      rcases List.mem_append.mp member with old | new
      · exact all other old
      · rw [List.mem_singleton.mp new]
        exact keeps.enters fine entered
  | change changed =>
      exact fun other member => keeps.changes fine changed (all other member)

/-- The rule of invariants for open systems. -/
theorem OpenKeeps.path (keeps : program.OpenKeeps around good holds)
    (run : Path (program.openStep around) (.empty start) steps finish)
    (fine : Throughout good steps) :
    ∀ call ∈ finish.calls, holds finish.state call := by
  apply run.invariant fine
  · intro call member
    cases member
  · intro table action next all fine taken
    exact keeps.openChange fine all (openChange_of_step taken)

theorem nested_of_openPath
    (run : Path (program.openStep around) (.empty start) steps finish) :
    Nested finish := by
  apply run.always
  · exact nested_empty start
  · intro table action next nested taken
    exact (openChange_of_step taken).nested nested

theorem raises_of_openPath {kind : ε → Prop}
    (body : ∀ {call state error},
      (program.run call state).1 = .raise error → kind error)
    (run : Path (program.openStep around) (.empty start) steps finish) :
    Raises kind finish := by
  refine @Path.always _ _ _ (Raises kind) _ _ _ run ?_ ?_
  · intro index entry error found
    simp [Table.empty] at found
  · intro table action next sound taken
    cases action with
    | pass action => exact (move_of_step taken).raises (fun _ => body) sound
    | enter input =>
        obtain ⟨call, _, rfl⟩ := Option.map_eq_some_iff.mp taken
        intro index entry error found isRaised
        rcases getElem?_enter_cases found with old | ⟨_, rfl⟩
        · exact sound _ _ _ old isRaised
        · cases isRaised
    | change action =>
        obtain ⟨state, _, rfl⟩ := Option.map_eq_some_iff.mp taken
        exact sound

theorem Relates.path {related : Nat → σ → κ → κ → Prop}
    (relates : program.Relates around good holds related)
    (keeps : program.OpenKeeps around good holds)
    (run : Path (program.openStep around) (.empty start) steps finish)
    (fine : Throughout good steps) {top depth position : Nat}
    {above below : Entry κ ε} (under : Below finish top (depth + 1) position)
    (isTop : finish.entries[top]? = some above)
    (found : finish.entries[position]? = some below) :
    related (depth + 1) finish.state above.call below.call := by
  induction run generalizing top depth position above below with
  | refl => simp [Table.empty] at found
  | @snoc steps table finish action earlier taken induction =>
      obtain ⟨good, before⟩ := along_cons.mp fine
      have all := keeps.path earlier before
      have changed := openChange_of_step taken
      have nested := nested_of_openPath (earlier.snoc taken)
      have same := changed.sameCalls
      have behind := under.le nested
      have related_old : position < table.entries.length →
          holds table.state below.call ∧
            related (depth + 1) table.state above.call below.call := by
        intro inside
        have old := same.below nested under inside
        obtain ⟨_, known, sameBelow, _⟩ := same.old inside found
        obtain ⟨_, there, sameAbove, _⟩ := same.old (by omega) isTop
        rw [← sameBelow, ← sameAbove]
        exact ⟨all _ (Table.mem_calls_of_getElem? known),
          induction before old there known⟩
      cases changed with
      | @run index call parent ready =>
          have runs := all _ (Table.mem_calls_of_getElem? ready)
          rcases getElem?_ran_cases ready found with
            ⟨rfl, rfl⟩ | ⟨_, old⟩ | ⟨new, child, member, rfl⟩
          · obtain ⟨sound, before⟩ :=
              related_old (List.getElem?_eq_some_iff.mp ready).1
            exact relates.stays good runs sound before
          · obtain ⟨sound, before⟩ :=
              related_old (List.getElem?_eq_some_iff.mp old).1
            exact relates.stays good runs sound before
          · obtain _ | ⟨under, there, isParent⟩ := under
            rw [found] at there
            cases there
            cases isParent
            have inside := (List.getElem?_eq_some_iff.mp ready).1
            cases under with
            | self =>
                rw [program.getElem?_ran_self ready] at isTop
                cases isTop
                exact relates.starts good runs child member
            | @child depth maker _ entry under there isParent =>
                have under_ : Below _ top (depth + 1) index :=
                  .child under there isParent
                have further := under_.le nested
                obtain ⟨_, known, sameAbove, _⟩ := same.old (by omega) isTop
                rw [← sameAbove]
                exact relates.leads good runs
                  (induction before (same.below nested under_ inside) known
                    ready) child member
      | settle waiting ended =>
          rcases Table.getElem?_setStatus_cases waiting found with
            ⟨rfl, rfl⟩ | ⟨_, old⟩
          · exact (related_old (List.getElem?_eq_some_iff.mp waiting).1).2
          · exact (related_old (List.getElem?_eq_some_iff.mp old).1).2
      | enter entered =>
          rcases getElem?_enter_cases found with old | ⟨_, rfl⟩
          · exact (related_old (List.getElem?_eq_some_iff.mp old).1).2
          · obtain _ | ⟨_, there, isParent⟩ := under
            rw [found] at there
            cases there
            cases isParent
      | change changed =>
          obtain ⟨sound, before⟩ :=
            related_old (List.getElem?_eq_some_iff.mp found).1
          exact relates.changes good changed sound before

end Runs

/-- Calls rank above the calls that they make, and those from outside have a
rank of at most `bound`. -/
structure Ranks (program : Program σ κ ε) (around : Surroundings σ κ β α)
    (good : σ → Prop) (holds : σ → κ → Prop) (rank : σ → κ → Nat)
    (bound : Nat) : Prop where
  lower : ∀ {state call}, good state → holds state call →
    ∀ child ∈ (program.run call state).1.calls,
      rank (program.run call state).2 child < rank state call
  falls : ∀ {state call other}, good state → holds state call →
    holds state other → rank (program.run call state).2 other ≤ rank state other
  changes : ∀ {state action next call}, good state →
    around.change state action = some next → holds state call →
      rank next call ≤ rank state call
  bounded : ∀ {state input call}, good state →
    around.enter state input = some call → rank state call ≤ bound

def children (table : Table σ κ ε) (index : Nat) : List Nat :=
  (table.entries.zipIdx.filter
    fun entry => entry.1.parent = some index).map (·.2)

/-- A call and all that it has led to in so many rounds. -/
def cascade (table : Table σ κ ε) (top : Nat) : Nat → List Nat
  | 0 => [top]
  | rounds + 1 =>
      cascade table top rounds ++
        (cascade table top rounds).flatMap (children table)

theorem length_children (table : Table σ κ ε) (index : Nat) :
    (children table index).length =
      table.entries.countP fun entry => entry.parent = some index := by
  have entries : table.entries.zipIdx.map (·.1) = table.entries :=
    List.zipIdx_map_fst 0 table.entries
  rw [children, List.length_map, ← List.countP_eq_length_filter]
  conv_rhs => rw [← entries, List.countP_map]
  rfl

theorem mem_children {table : Table σ κ ε} {index position : Nat}
    {entry : Entry κ ε} (found : table.entries[position]? = some entry)
    (isParent : entry.parent = some index) :
    position ∈ children table index := by
  apply List.mem_map.mpr
  refine ⟨(entry, position), List.mem_filter.mpr ⟨?_, by simpa using isParent⟩,
    rfl⟩
  exact List.mem_zipIdx_iff_getElem?.mpr found

theorem length_cascade_le {table : Table σ κ ε} {width : Nat}
    (few : ∀ index, (children table index).length ≤ width) (top : Nat) :
    ∀ rounds, (cascade table top rounds).length ≤ (width + 1) ^ rounds
  | 0 => le_rfl
  | rounds + 1 => by
      have before := length_cascade_le few top rounds
      have made : ((cascade table top rounds).flatMap
          (children table)).length ≤
            (cascade table top rounds).length * width := by
        rw [List.length_flatMap]
        have total := List.sum_le_card_nsmul
          ((cascade table top rounds).map fun index =>
            (children table index).length) width (by
              intro value member
              obtain ⟨index, _, rfl⟩ := List.mem_map.mp member
              exact few index)
        simpa using total
      have fits := Nat.mul_le_mul_right width before
      rw [cascade, List.length_append, pow_succ]
      nlinarith

theorem cascade_subset (table : Table σ κ ε) (top : Nat) {first last : Nat}
    (order : first ≤ last) :
    cascade table top first ⊆ cascade table top last := by
  induction order with
  | refl => exact List.Subset.refl _
  | step _ induction =>
      exact fun _ member => List.mem_append_left _ (induction member)

theorem Below.mem_cascade {table : Table σ κ ε} {top depth position : Nat}
    (below : Below table top depth position) :
    position ∈ cascade table top depth := by
  induction below with
  | self => exact List.mem_singleton_self top
  | child _ found isParent induction =>
      exact List.mem_append_right _
        (List.mem_flatMap.mpr ⟨_, induction, mem_children found isParent⟩)

section Counts

variable {good : σ → Prop} {holds : σ → κ → Prop} {start : σ}
  {steps : List (Table σ κ ε × OpenAction β α)} {finish : Table σ κ ε}

theorem Ranks.rank_le {rank : σ → κ → Nat} {bound : Nat}
    (ranks : program.Ranks around good holds rank bound)
    (keeps : program.OpenKeeps around good holds) :
    program.OpenKeeps around good
      fun state call => holds state call ∧ rank state call ≤ bound where
  starts := fun good both child member =>
    ⟨keeps.starts good both.1 child member,
      (ranks.lower good both.1 child member).le.trans both.2⟩
  stays := fun good both other =>
    ⟨keeps.stays good both.1 other.1,
      (ranks.falls good both.1 other.1).trans other.2⟩
  enters := fun good entered =>
    ⟨keeps.enters good entered, ranks.bounded good entered⟩
  changes := fun good changed both =>
    ⟨keeps.changes good changed both.1,
      (ranks.changes good changed both.1).trans both.2⟩

theorem Ranks.depth_le {rank : σ → κ → Nat} {bound : Nat}
    (ranks : program.Ranks around good holds rank bound)
    (keeps : program.OpenKeeps around good holds)
    (run : Path (program.openStep around) (.empty start) steps finish)
    (fine : Throughout good steps) {top depth position : Nat}
    {entry : Entry κ ε} (isTop : top < finish.entries.length)
    (below : Below finish top depth position)
    (found : finish.entries[position]? = some entry) : depth ≤ bound := by
  cases depth with
  | zero => exact Nat.zero_le bound
  | succ depth =>
      have relates : program.Relates around good
          (fun state call => holds state call ∧ rank state call ≤ bound)
          fun depth state _ call => depth + rank state call ≤ bound := by
        constructor
        · intro state call good both child member
          have less := ranks.lower good both.1 child member
          omega
        · intro depth state above call good both before child member
          have less := ranks.lower good both.1 child member
          omega
        · intro depth state call above below good both sound before
          have less := ranks.falls good both.1 sound.1
          omega
        · intro depth state action next above below good changed sound before
          have less := ranks.changes good changed sound.1
          omega
      have deep := relates.path (ranks.rank_le keeps) run fine below
        (List.getElem?_eq_getElem isTop) found
      omega

theorem length_children_le {narrow : σ → Prop} {width : Nat}
    (few : ∀ {state call}, narrow state →
      (program.run call state).1.calls.length ≤ width)
    (run : Path (program.openStep around) (.empty start) steps finish)
    (fine : Throughout narrow steps) (index : Nat) :
    (children finish index).length ≤ width := by
  rw [length_children]
  induction run with
  | refl => exact Nat.zero_le width
  | @snoc steps table finish action earlier taken induction =>
      obtain ⟨narrow, before⟩ := along_cons.mp fine
      have bound := induction before
      cases openChange_of_step taken with
      | @run maker call parent ready =>
          have nested := nested_of_openPath earlier
          have made := @few table.state call narrow
          obtain ⟨soon, late, entries, replaced⟩ := exists_around ready
          have kept : (table.entries.set maker ⟨call, parent,
              program.enter call (program.run call table.state).1⟩).countP
                (fun entry => entry.parent = some index) =
              table.entries.countP fun entry => entry.parent = some index := by
            rw [replaced, entries]
            simp [List.countP_cons]
          simp only [ran, List.countP_append, kept, List.countP_map]
          by_cases same : maker = index
          · subst same
            have none : table.entries.countP
                (fun entry => entry.parent = some maker) = 0 := by
              apply List.countP_eq_zero.mpr
              intro entry member isParent
              obtain ⟨position, found⟩ := List.getElem?_of_mem member
              have started := nested.started found
                (of_decide_eq_true isParent) ready
              cases started
            rw [none, Nat.zero_add]
            exact (List.countP_le_length ..).trans made
          · have none : (program.run call table.state).1.calls.countP
                ((fun entry : Entry κ ε => decide (entry.parent = some index)) ∘
                  fun call => ⟨call, some maker, .ready⟩) = 0 := by
              apply List.countP_eq_zero.mpr
              intro call _ isParent
              exact same (Option.some.inj (of_decide_eq_true isParent))
            rw [none]
            exact bound
      | @settle position call parent status waiting ended =>
          obtain ⟨soon, late, entries, replaced⟩ := exists_around waiting
          have kept : (table.setStatus position ⟨call, parent, .waiting⟩
              status).entries.countP
                (fun entry => entry.parent = some index) =
              table.entries.countP fun entry => entry.parent = some index := by
            rw [Table.setStatus, replaced, entries]
            simp [List.countP_cons]
          rw [kept]
          exact bound
      | enter _ => simpa [Table.enter] using bound
      | change _ => exact bound

/-- The rule of termination for open systems: whatever happens meanwhile, a call
leads to a bounded number of calls. -/
theorem Ranks.length_le {narrow : σ → Prop} {rank : σ → κ → Nat}
    {bound width : Nat}
    (ranks : program.Ranks around good holds rank bound)
    (keeps : program.OpenKeeps around good holds)
    (few : ∀ {state call}, narrow state →
      (program.run call state).1.calls.length ≤ width)
    (run : Path (program.openStep around) (.empty start) steps finish)
    (fine : Throughout good steps) (slim : Throughout narrow steps) {top : Nat}
    (isTop : top < finish.entries.length) {positions : List Nat}
    (nodup : positions.Nodup)
    (below : ∀ position ∈ positions, ∃ depth, Below finish top depth position) :
    positions.length ≤ (width + 1) ^ bound := by
  have inside : positions ⊆ cascade finish top bound := by
    intro position member
    obtain ⟨depth, under⟩ := below position member
    cases under with
    | self => exact cascade_subset finish top (Nat.zero_le bound) (by
        exact List.mem_singleton_self top)
    | @child depth _ _ _ under found isParent =>
        have deep := ranks.depth_le keeps run fine isTop
          (.child under found isParent) found
        exact cascade_subset finish top deep
          (Below.child under found isParent).mem_cascade
  calc positions.length
    _ ≤ (cascade finish top bound).length :=
        (List.subperm_of_subset nodup inside).length_le
    _ ≤ (width + 1) ^ bound :=
        length_cascade_le (length_children_le few run slim) top bound

def acts (index : Nat) : OpenAction β α → Bool
  | .pass (.run other) => other = index
  | .pass (.resume other) => other = index
  | .pass (.fail other _) => other = index
  | .enter _ => false
  | .change _ => false

def remaining : Option (Status ε) → Nat
  | none => 2
  | some .ready => 2
  | some .waiting => 1
  | some _ => 0

theorem remaining_le_two (status : Option (Status ε)) : remaining status ≤ 2 := by
  unfold remaining
  split <;> omega

theorem remaining_settle (program : Program σ κ ε) (call : κ) (error : ε) :
    remaining (some (program.settle call error)) = 0 := by
  unfold settle
  split <;> rfl

theorem remaining_enter (program : Program σ κ ε) (call : κ)
    (outcome : Outcome κ ε) :
    remaining (some (program.enter call outcome)) ≤ 1 := by
  cases outcome with
  | done => exact Nat.zero_le 1
  | raise error =>
      rw [enter, remaining_settle]
      exact Nat.zero_le 1
  | gather calls => exact le_rfl

theorem remaining_le {before after : Table σ κ ε} {index : Nat}
    (same : index < before.entries.length →
      after.entries[index]? = before.entries[index]?) :
    remaining (after.status index) ≤ remaining (before.status index) := by
  by_cases inside : index < before.entries.length
  · rw [Table.status, same inside]
    rfl
  · have absent : before.status index = none := by
      rw [Table.status, List.getElem?_eq_none (Nat.not_lt.mp inside)]
      rfl
    rw [absent]
    exact remaining_le_two _

theorem status_eq {table : Table σ κ ε} {index : Nat} {entry : Entry κ ε}
    (found : table.entries[index]? = some entry) :
    table.status index = some entry.status := by
  rw [Table.status, found]
  rfl

theorem remaining_step {table next : Table σ κ ε} {action : OpenAction β α}
    (taken : program.openStep around table action = some next) (index : Nat) :
    (if acts index action then 1 else 0) + remaining (next.status index) ≤
      remaining (table.status index) := by
  cases action with
  | pass action =>
      cases action with
      | run position =>
          simp only [openStep, step] at taken
          split at taken
          · next call parent ready =>
              obtain ⟨⟩ := taken
              by_cases same : position = index
              · subst same
                have entered := program.remaining_enter call
                  (program.run call table.state).1
                rw [status_eq ready, status_eq (program.getElem?_ran_self ready)]
                simp only [acts, decide_true, if_true, remaining]
                exact Nat.add_le_add_left entered 1
              · rw [acts, decide_eq_false same, if_neg Bool.false_ne_true,
                  Nat.zero_add]
                exact remaining_le fun inside =>
                  program.getElem?_ran_ne _ inside (Ne.symm same)
          · cases taken
      | resume position =>
          simp only [openStep, step] at taken
          split at taken
          · next call parent waiting =>
              split at taken
              · obtain ⟨⟩ := taken
                by_cases same : position = index
                · subst same
                  rw [status_eq waiting,
                    status_eq (Table.getElem?_setStatus_self waiting _)]
                  simp [acts, remaining]
                · rw [acts, decide_eq_false same, if_neg Bool.false_ne_true,
                    Nat.zero_add]
                  exact remaining_le fun _ =>
                    Table.getElem?_setStatus_ne _ _ _ (Ne.symm same)
              · cases taken
          · cases taken
      | fail position child =>
          simp only [openStep, step] at taken
          split at taken
          · next call parent _ _ error waiting raised =>
              split at taken
              · obtain ⟨⟩ := taken
                by_cases same : position = index
                · subst same
                  rw [status_eq waiting,
                    status_eq (Table.getElem?_setStatus_self waiting _),
                    remaining_settle]
                  simp [acts, remaining]
                · rw [acts, decide_eq_false same, if_neg Bool.false_ne_true,
                    Nat.zero_add]
                  exact remaining_le fun _ =>
                    Table.getElem?_setStatus_ne _ _ _ (Ne.symm same)
              · cases taken
          · cases taken
  | enter input =>
      obtain ⟨call, _, rfl⟩ := Option.map_eq_some_iff.mp taken
      rw [acts, if_neg Bool.false_ne_true, Nat.zero_add]
      exact remaining_le fun inside => List.getElem?_append_left inside
  | change action =>
      obtain ⟨state, _, rfl⟩ := Option.map_eq_some_iff.mp taken
      rw [acts, if_neg Bool.false_ne_true, Nat.zero_add]
      exact le_rfl

theorem countP_acts_le
    (run : Path (program.openStep around) (.empty start) steps finish)
    (index : Nat) : steps.countP (fun entry => acts index entry.2) ≤ 2 := by
  have account : steps.countP (fun entry => acts index entry.2) +
      remaining (finish.status index) ≤ 2 := by
    induction run with
    | refl => simp [Table.status, Table.empty, remaining]
    | snoc _ taken induction =>
        have used := remaining_step taken index
        rw [List.countP_cons]
        dsimp only
        omega
  omega

end Counts

end Program

end CallTable
