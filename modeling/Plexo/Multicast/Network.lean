import Mathlib.Data.List.FinRange
import Plexo.Library.Transition
import Plexo.Multicast.Consensus

/-!
# A group of multicast ganglia

`N` instances exchange messages over multicast.  A message is put in flight
once for every other instance; it may wait there for any time, arrive in any
order, or be lost, but is neither forged nor duplicated nor looped back to its
sender.  What was delivered and what the instances let an observer see is kept
for the statements of properties and read by no instance.
-/

namespace Plexo

open PersistentMap Transition

/-- One copy of a message on its way to one instance. -/
structure Envelope (N : Nat) where
  source : Fin N
  target : Fin N
  neuron : ProtocolNeuron
  message : Message
  deriving DecidableEq

/-- A wanted message on its way to `target`. -/
def Envelope.carries {N : Nat} (target : Fin N)
    (wanted : Fin N → Message → Bool) (envelope : Envelope N) : Bool :=
  envelope.target = target && wanted envelope.source envelope.message

structure Network (N : Nat) where
  ganglion : Fin N → GanglionPlexoMulticast
  inFlight : List (Envelope N)
  delivered : List (Envelope N)
  /-- What every instance let an observer see, newest first. -/
  history : List (Fin N × Output)

inductive NetworkAction (N : Nat) where
  | act (instance_ : Fin N) (action : OwnAction)
  | deliver (envelope : Envelope N)
  | lose (envelope : Envelope N)

/-- What the receiver of a message sent on a neuron decodes. -/
abbrev Decoding := ProtocolNeuron → Message → Message

/-- Every message is handed to the reaction of its own type. -/
def ownType : Decoding := fun _ message => message

/-- A message is decoded with the schema of the neuron it was sent on and
handed to the reaction that `startup` attaches to that neuron. -/
def byNeuron : Decoding := fun neuron message => message.dumps.loads neuron

def broadcast {N : Nat} (source : Fin N) : Output → List (Envelope N)
  | .transmit neuron message =>
      ((List.finRange N).filter (· ≠ source)).map
        fun target => ⟨source, target, neuron, message⟩
  | _ => []

def Output.transmits (wanted : Message → Bool) : Output → Bool
  | .transmit _ message => wanted message
  | _ => false

@[simp] theorem Output.transmits_and (condition : Bool)
    (wanted : Message → Bool) (output : Output) :
    output.transmits (fun message => condition && wanted message) =
      (condition && output.transmits wanted) := by
  cases output <;> simp [Output.transmits]

/-- The output puts a message of one kind, ballot and type on the network. -/
def Output.sends (kind : ProtocolNeuron) (name : String) (ballot : Ballot) :
    Output → Bool :=
  Output.transmits (Message.isFor kind name ballot)

def Input.receives (kind : ProtocolNeuron) (name : String) (ballot : Ballot) :
    Input → Bool
  | .receive message => message.isFor kind name ballot
  | .own _ => false

def Trio.first : Fin 3 := 0

def Trio.second : Fin 3 := 1

def Trio.third : Fin 3 := 2

namespace Network

variable {N : Nat}

def ofGanglia (ganglion : Fin N → GanglionPlexoMulticast) : Network N :=
  { ganglion, inFlight := [], delivered := [], history := [] }

/-- `N` instances past startup that count each other as peers. -/
def started (host : Fin N → Host) (multicastCidr : IPNetwork)
    (instanceId : Fin N → Nat) (filters : Fin N → Filters) : Network N :=
  .ofGanglia fun instance_ => .started (host instance_) multicastCidr
    (instanceId instance_) (N - 1) (filters instance_)

def sample (N : Nat) : Network N :=
  .started (fun _ => .permissive) .sample (fun instance_ => 10 + instance_.val)
    fun _ => {}

def record (network : Network N) (instance_ : Fin N)
    (result : GanglionPlexoMulticast × List Output) : Network N :=
  { network with
    ganglion := Function.update network.ganglion instance_ result.1
    inFlight := network.inFlight ++ result.2.flatMap (broadcast instance_)
    history :=
      result.2.reverse.map (fun output => (instance_, output)) ++ network.history }

def handOver (network : Network N) (envelope : Envelope N) : Network N :=
  { network with
    inFlight := network.inFlight.erase envelope
    delivered := envelope :: network.delivered }

def step (decoding : Decoding) (host : Fin N → Host) (network : Network N) :
    NetworkAction N → Option (Network N)
  | .act instance_ action =>
      ((network.ganglion instance_).act (host instance_) action).map
        (network.record instance_)
  | .deliver envelope =>
      if envelope ∈ network.inFlight then
        some ((network.handOver envelope).record envelope.target
          ((network.ganglion envelope.target).react (host envelope.target)
            (decoding envelope.neuron envelope.message)))
      else
        none
  | .lose envelope =>
      if envelope ∈ network.inFlight then
        some { network with inFlight := network.inFlight.erase envelope }
      else
        none

/-- An action makes an instance take an input; a message that it takes has been
handed over already. -/
inductive Readied (decoding : Decoding) (network : Network N) :
    NetworkAction N → Fin N → Input → Network N → Prop where
  | own {instance_ : Fin N} {action : OwnAction} :
      Readied decoding network (.act instance_ action) instance_ (.own action)
        network
  | receive {envelope : Envelope N} :
      envelope ∈ network.inFlight →
      Readied decoding network (.deliver envelope) envelope.target
        (.receive (decoding envelope.neuron envelope.message))
        (network.handOver envelope)

/-- What a step of the group is. -/
inductive Move (decoding : Decoding) (host : Fin N → Host)
    (network : Network N) (action : NetworkAction N) : Network N → Prop where
  | take {instance_ : Fin N} {input : Input} {before : Network N}
      {result : GanglionPlexoMulticast × List Output} :
      Readied decoding network action instance_ input before →
      (network.ganglion instance_).step (host instance_) input = some result →
      Move decoding host network action (before.record instance_ result)
  | lose {envelope : Envelope N} :
      action = .lose envelope →
      Move decoding host network action
        { network with inFlight := network.inFlight.erase envelope }

theorem move_of_step {decoding : Decoding} {host : Fin N → Host}
    {network next : Network N} {action : NetworkAction N}
    (taken : network.step decoding host action = some next) :
    Move decoding host network action next := by
  cases action with
  | act instance_ action =>
      obtain ⟨result, resultTaken, rfl⟩ := Option.map_eq_some_iff.mp taken
      exact .take .own resultTaken
  | deliver envelope =>
      simp only [step] at taken
      split at taken
      · next waiting => exact Option.some.inj taken ▸ .take (.receive waiting) rfl
      · simp at taken
  | lose envelope =>
      simp only [step] at taken
      split at taken
      · exact Option.some.inj taken ▸ .lose rfl
      · simp at taken

namespace Readied

variable {decoding : Decoding} {network before : Network N}
  {action : NetworkAction N} {instance_ : Fin N} {input : Input}

theorem ganglion_eq
    (ready : Readied decoding network action instance_ input before) :
    before.ganglion = network.ganglion := by
  cases ready <;> rfl

theorem history_eq
    (ready : Readied decoding network action instance_ input before) :
    before.history = network.history := by
  cases ready <;> rfl

end Readied

@[simp] theorem record_delivered (network : Network N) (instance_ : Fin N)
    (result : GanglionPlexoMulticast × List Output) :
    (network.record instance_ result).delivered = network.delivered := rfl

@[simp] theorem record_ganglion_self (network : Network N) (instance_ : Fin N)
    (result : GanglionPlexoMulticast × List Output) :
    (network.record instance_ result).ganglion instance_ = result.1 := by
  simp [record]

theorem record_ganglion_other (network : Network N) {instance_ other : Fin N}
    (result : GanglionPlexoMulticast × List Output)
    (different : other ≠ instance_) :
    (network.record instance_ result).ganglion other =
      network.ganglion other := by
  simp [record, different]

theorem calls_record_cases {network : Network N} {instance_ : Fin N}
    {result : GanglionPlexoMulticast × List Output} {call : CallId}
    {reached : Attempt}
    (calls : result.1.calls =
      (network.ganglion instance_).calls.set call reached)
    {owner : Fin N} {other : CallId} {attempt : Attempt}
    (found : ((network.record instance_ result).ganglion owner).calls other =
      some attempt) :
    owner = instance_ ∧ other = call ∧ attempt = reached ∨
      ¬ (owner = instance_ ∧ other = call) ∧
        (network.ganglion owner).calls other = some attempt := by
  by_cases same : owner = instance_
  · subst same
    rw [record_ganglion_self, calls] at found
    rcases (PMap.set_eq_some_iff ..).mp found with ⟨rfl, rfl⟩ | ⟨others, old⟩
    · exact .inl ⟨rfl, rfl, rfl⟩
    · exact .inr ⟨fun both => others both.2, old⟩
  · rw [record_ganglion_other _ _ same] at found
    exact .inr ⟨fun both => same both.1, found⟩

theorem mem_record_history {network : Network N} {instance_ : Fin N}
    {result : GanglionPlexoMulticast × List Output} {entry : Fin N × Output} :
    entry ∈ (network.record instance_ result).history ↔
      entry.1 = instance_ ∧ entry.2 ∈ result.2 ∨ entry ∈ network.history := by
  obtain ⟨source, output⟩ := entry
  simp only [record, List.mem_append, List.mem_map, List.mem_reverse,
    Prod.mk.injEq]
  constructor
  · rintro (⟨output, member, rfl, rfl⟩ | before)
    · exact .inl ⟨rfl, member⟩
    · exact .inr before
  · rintro (⟨rfl, member⟩ | before)
    · exact .inl ⟨output, member, rfl, rfl⟩
    · exact .inr before

/-- The outputs of other instances that send `target` a wanted message. -/
def sentTo (network : Network N) (target : Fin N)
    (wanted : Fin N → Message → Bool) : Nat :=
  network.history.countP fun entry =>
    entry.1 ≠ target && entry.2.transmits (wanted entry.1)

/-- The wanted messages for `target`, in flight or delivered. -/
def addressedTo (network : Network N) (target : Fin N)
    (wanted : Fin N → Message → Bool) : Nat :=
  (network.inFlight ++ network.delivered).countP (·.carries target wanted)

theorem countP_broadcast (source target : Fin N)
    (wanted : Fin N → Message → Bool) (output : Output) :
    (broadcast source output).countP (·.carries target wanted) ≤
      if (source ≠ target && output.transmits (wanted source)) = true then 1
      else 0 := by
  cases output with
  | transmit neuron message =>
      have single : (List.finRange N).countP (· = target) ≤ 1 := by
        have counted := List.nodup_iff_count_le_one.mp
          (List.nodup_finRange N) target
        simpa [List.count, beq_eq_decide] using counted
      rw [broadcast, List.countP_map, List.countP_filter]
      split
      · refine le_trans (List.countP_mono_left ?_) single
        simp +contextual [Envelope.carries]
      · next unreached =>
          rw [Nat.le_zero, List.countP_eq_zero]
          rintro receiver -
          simp only [Envelope.carries, Function.comp_apply,
            Output.transmits] at unreached ⊢
          grind
  | _ => simp [broadcast]

theorem countP_flatMap_broadcast (source target : Fin N)
    (wanted : Fin N → Message → Bool) (outputs : List Output) :
    (outputs.flatMap (broadcast source)).countP (·.carries target wanted) ≤
      outputs.countP fun output =>
        source ≠ target && output.transmits (wanted source) := by
  induction outputs with
  | nil => simp
  | cons output outputs induction =>
      have here := countP_broadcast source target wanted output
      rw [List.flatMap_cons, List.countP_append, List.countP_cons]
      omega

theorem countP_record (network : Network N) (instance_ : Fin N)
    (result : GanglionPlexoMulticast × List Output)
    (wanted : Fin N × Output → Bool) :
    (network.record instance_ result).history.countP wanted =
      result.2.countP (fun output => wanted (instance_, output)) +
        network.history.countP wanted := by
  simp only [record, List.countP_append, List.countP_map, Function.comp_def]
  rw [List.countP_reverse]

theorem countP_erase_add {α : Type} [DecidableEq α] (wanted : α → Bool)
    {element : α} {elements : List α} (member : element ∈ elements) :
    (elements.erase element).countP wanted +
        (if wanted element = true then 1 else 0) = elements.countP wanted := by
  rw [(List.perm_cons_erase member).countP_eq, List.countP_cons]

/-- The invariant of all runs, whatever a receiver makes of its messages. -/
def Conserved (network : Network N) : Prop :=
  ∀ target wanted,
    network.addressedTo target wanted ≤ network.sentTo target wanted

theorem Conserved.record {network : Network N} (conserved : network.Conserved)
    (instance_ : Fin N) (result : GanglionPlexoMulticast × List Output) :
    (network.record instance_ result).Conserved := by
  intro target wanted
  have before := conserved target wanted
  have added := countP_flatMap_broadcast instance_ target wanted result.2
  unfold addressedTo sentTo at *
  rw [countP_record]
  simp only [Network.record, List.countP_append] at *
  omega

theorem Readied.conserved {decoding : Decoding} {network before : Network N}
    {action : NetworkAction N} {instance_ : Fin N} {input : Input}
    (ready : Readied decoding network action instance_ input before)
    (conserved : network.Conserved) : before.Conserved := by
  cases ready with
  | own => exact conserved
  | @receive envelope waiting =>
      intro target wanted
      have before := conserved target wanted
      have moved := countP_erase_add (·.carries target wanted) waiting
      unfold addressedTo sentTo at *
      simp only [handOver, List.countP_append, List.countP_cons] at *
      omega

theorem Conserved.step {decoding : Decoding} {host : Fin N → Host}
    {network next : Network N} {action : NetworkAction N}
    (conserved : network.Conserved)
    (taken : network.step decoding host action = some next) :
    next.Conserved := by
  cases move_of_step taken with
  | take ready resultTaken =>
      exact (ready.conserved conserved).record _ _
  | @lose envelope chosen =>
      intro target wanted
      refine le_trans ?_ (conserved target wanted)
      unfold addressedTo
      simp only [List.countP_append]
      have fewer : (network.inFlight.erase envelope).countP
          (·.carries target wanted) ≤
          network.inFlight.countP (·.carries target wanted) :=
        List.erase_sublist.countP_le
      omega

end Network

end Plexo
