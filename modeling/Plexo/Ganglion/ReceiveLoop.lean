import Plexo.Ganglion.Messages
import Plexo.Library.CallTable

/-!
# The receive loops

A `_recv_loop` takes one message after the other from its socket, finds the
synapse, and waits until `transduce` has run the reactants.  Codecs and
reactants may raise anything at any time.  `except AttributeError` is there for
a socket that is gone, but it also catches what they raise.
-/

namespace Plexo

open CallTable Transition

/-- Whether an `except AttributeError` clause catches the exception. -/
def PlexoError.isAttributeError : PlexoError → Bool
  | .attributeError => true
  | _ => false

/-- What `transduce` gathers. -/
inductive GatheredReactant where
  | reactant (reactant : Reactant)
  | rawReactant (reactant : RawReactant)
  deriving DecidableEq

/-- What has become of a `_recv_loop`. -/
inductive LoopStatus where
  /-- It waits for a message. -/
  | waiting
  /-- It waits for reactants, of which these have not returned yet. -/
  | transducing (reactants : List GatheredReactant) (some : reactants ≠ [])
  | ended

/-- How many reactants a loop waits for. -/
def LoopStatus.pending : LoopStatus → Nat
  | .transducing reactants _ => reactants.length
  | _ => 0

def LoopStatus.isEnded : LoopStatus → Bool
  | .ended => true
  | _ => false

/-- What the three receive loops differ in. -/
structure RecvLoop (μ : Type) where
  receive : Ganglion → μ → Received
  /-- The test of `_start_recv_loop_if_needed`, given `_recv_loop_running`. -/
  needed : Bool → Ganglion → Bool

/-- Says of a message that it is for a neuron and carries a payload. -/
abbrev WellFormed (μ : Type) : Type :=
  Ganglion → μ → Neuron → Option ByteArray → Prop

/-- The loop finds the synapse of the neuron that a message is for, and keeps
those that there are. -/
structure RecvLoop.Demultiplexes {μ : Type} (loop : RecvLoop μ)
    (wellFormed : WellFormed μ) : Prop where
  finds : ∀ {ganglion message neuron payload synapse},
    wellFormed ganglion message neuron payload →
    ganglion.base.synapses neuron.name = some synapse →
      loop.receive ganglion message = .ok (ganglion, synapse, payload)
  keeps : ∀ {ganglion message after found data name synapse},
    loop.receive ganglion message = .ok (after, found, data) →
    ganglion.base.synapses name = some synapse →
      after.base.synapses name = some synapse

/-- A socket and the receive loops that read from it. -/
structure Receiver (μ : Type) where
  ganglion : Ganglion
  recvLoopRunning : Bool
  /-- The messages that have not been read, oldest first. -/
  arrived : List μ
  loops : List LoopStatus
  /-- The calls of `transduce`. -/
  handed : List (SynapseId × Option ByteArray)

variable {μ : Type}

namespace Receiver

inductive Action (μ : Type) where
  | adapt (neuron : Neuron) (reactants : List Reactant)
    (rawReactants : List RawReactant)
  /-- `adapt` suspends before it does this. -/
  | startRecvLoopIfNeeded
  | arrive (message : μ)
  /-- A loop reads a message; `decoded` says what the decoder of the neuron does,
  if it is called. -/
  | receive (loop : Nat) (decoded : Except PlexoError Unit)
  /-- A reactant returns or raises. -/
  | react (loop : Nat) (reactant : GatheredReactant)
    (outcome : Except PlexoError Unit)

def init (μ : Type) (ganglion : Ganglion) : Receiver μ :=
  ⟨ganglion, false, [], [], []⟩

def setLoop (receiver : Receiver μ) (index : Nat) (status : LoopStatus) :
    Receiver μ :=
  { receiver with loops := receiver.loops.set index status }

/-- The `except` clauses of the loops.  `formats` says whether an exception can
be formatted for the log. -/
def raised (receiver : Receiver μ) (formats : PlexoError → Bool) (index : Nat)
    (error : PlexoError) : Receiver μ :=
  if error.isAttributeError then
    { receiver.setLoop index .ended with recvLoopRunning := false }
  else if formats error then
    receiver.setLoop index .waiting
  else
    receiver.setLoop index .ended

/-- `except ValueError` of `transduce` comes first. -/
def transduceRaised (receiver : Receiver μ) (formats : PlexoError → Bool)
    (index : Nat) (error : PlexoError) : Receiver μ :=
  if error.isValueError then
    receiver.setLoop index .waiting
  else
    receiver.raised formats index error

/-- `await asyncio.gather(...)`. -/
def gather (receiver : Receiver μ) (index : Nat)
    (reactants : List GatheredReactant) : Receiver μ :=
  receiver.setLoop index
    (if none : reactants = [] then .waiting else .transducing reactants none)

/-- `DecoderDendrite.transduce` up to where it suspends. -/
def transduce (receiver : Receiver μ) (formats : PlexoError → Bool)
    (index : Nat) (synapse : SynapseId) (data : Option ByteArray)
    (decoded : Except PlexoError Unit) : Receiver μ :=
  let receiver := { receiver with handed := receiver.handed ++ [(synapse, data)] }
  let dendrite := receiver.ganglion.objects synapse
  match decoded with
  | .error error => receiver.transduceRaised formats index error
  | .ok _ =>
      receiver.gather index
        (dendrite.reactants.map .reactant ++
          dendrite.rawReactants.map .rawReactant)

def step (loop : RecvLoop μ) (formats : PlexoError → Bool)
    (receiver : Receiver μ) : Action μ → Option (Receiver μ)
  | .adapt neuron reactants rawReactants =>
      some
        { receiver with
          ganglion := receiver.ganglion.adapt neuron reactants rawReactants }
  | .startRecvLoopIfNeeded =>
      if loop.needed receiver.recvLoopRunning receiver.ganglion then
        some
          { receiver with
            recvLoopRunning := true
            loops := receiver.loops ++ [.waiting] }
      else
        some receiver
  | .arrive message =>
      some { receiver with arrived := receiver.arrived ++ [message] }
  | .receive index decoded =>
      match receiver.loops[index]?, receiver.arrived with
      | some .waiting, message :: arrived =>
          match loop.receive receiver.ganglion message with
          | .error error =>
              some (raised { receiver with arrived } formats index error)
          | .ok (ganglion, synapse, data) =>
              some (transduce { receiver with ganglion, arrived } formats index
                synapse data decoded)
      | _, _ => none
  | .react index reactant outcome =>
      match receiver.loops[index]? with
      | some (.transducing reactants _) =>
          if reactant ∈ reactants then
            match outcome with
            | .error error =>
                some (receiver.transduceRaised formats index error)
            | .ok _ => some (receiver.gather index (reactants.erase reactant))
          else
            none
      | _ => none

end Receiver

/-- Synapses are never removed, so that `len(self._synapses)` counts the ones
that have been created. -/
def startRecvLoopNeeded (recvLoopRunning : Bool) (ganglion : Ganglion) : Bool :=
  !recvLoopRunning && decide (ganglion.nextObject ≠ 0)

def GanglionZmqTcpPair.recvLoop (codec : PlexoMessageCodec) :
    RecvLoop ByteArray :=
  ⟨receive codec, startRecvLoopNeeded⟩

def GanglionZmqTcpPubSub.recvLoop : RecvLoop (List ByteArray) :=
  ⟨receive, startRecvLoopNeeded⟩

/-- The loops of one synapse, which starts another one whenever reactants are
added. -/
def SynapseZmqPlexoPubSubEPGM.recvLoop (synapse : SynapseId) :
    RecvLoop (List ByteArray) :=
  ⟨receive synapse, fun _ ganglion =>
    decide ((ganglion.objects synapse).reactants.length ≠ 0)⟩

namespace Receiver

def Logged (formats : PlexoError → Bool) (error : PlexoError) : Prop :=
  error.isAttributeError = false ∧ formats error = true

instance (formats : PlexoError → Bool) (error : PlexoError) :
    Decidable (Logged formats error) :=
  inferInstanceAs (Decidable (_ ∧ _))

/-- No exception of the step ends a loop: out of the message before
`transduce`, or out of the decoder or a reactant. -/
def Harmless (loop : RecvLoop μ) (formats : PlexoError → Bool)
    (receiver : Receiver μ) : Action μ → Prop
  | .receive _ decoded => ∀ message ∈ receiver.arrived.head?,
      match loop.receive receiver.ganglion message, decoded with
      | .error error, _ => Logged formats error
      | .ok _, .error error => error.isValueError = true ∨ Logged formats error
      | .ok _, .ok _ => True
  | .react _ _ (.error error) =>
      error.isValueError = true ∨ Logged formats error
  | _ => True

variable {receiver next : Receiver μ} {index : Nat} {status : LoopStatus}
  {formats : PlexoError → Bool}

theorem ended_setLoop (found : receiver.loops[index]? = some status)
    (running : status ≠ .ended) (after : LoopStatus) :
    .ended ∉ (receiver.setLoop index after).loops ↔
      .ended ∉ receiver.loops ∧ after ≠ .ended := by
  obtain ⟨before, rest, split, replaced⟩ := exists_around found
  have apart : LoopStatus.ended ≠ status := running.symm
  rw [setLoop, replaced, split]
  simp only [List.mem_append, List.mem_cons, not_or]
  constructor
  · intro absent
    exact ⟨⟨absent.1, apart, absent.2.2⟩, Ne.symm absent.2.1⟩
  · intro absent
    exact ⟨absent.1.1, Ne.symm absent.2, absent.1.2.2⟩

theorem ended_raised (found : receiver.loops[index]? = some status)
    (running : status ≠ .ended) (error : PlexoError) :
    .ended ∉ (receiver.raised formats index error).loops ↔
      .ended ∉ receiver.loops ∧ Logged formats error := by
  unfold raised Logged
  split
  · next gone =>
      have ends := (ended_setLoop found running .ended)
      simp only [gone, Bool.true_eq_false, false_and, and_false]
      simpa using ends
  · next notGone =>
      rw [Bool.not_eq_true] at notGone
      split
      · next isFormatted =>
          rw [ended_setLoop found running]
          simp [notGone, isFormatted]
      · next notFormatted =>
          rw [ended_setLoop found running]
          simp [notFormatted]

theorem ended_transduceRaised (found : receiver.loops[index]? = some status)
    (running : status ≠ .ended) (error : PlexoError) :
    .ended ∉ (receiver.transduceRaised formats index error).loops ↔
      .ended ∉ receiver.loops ∧
        (error.isValueError = true ∨ Logged formats error) := by
  unfold transduceRaised
  split
  · next caught =>
      rw [ended_setLoop found running]
      simp [caught]
  · next notCaught =>
      rw [ended_raised found running]
      simp [notCaught]

theorem ended_gather (found : receiver.loops[index]? = some status)
    (running : status ≠ .ended) (reactants : List GatheredReactant) :
    .ended ∉ (receiver.gather index reactants).loops ↔
      .ended ∉ receiver.loops := by
  rw [gather, ended_setLoop found running]
  split <;> simp

theorem ended_step {loop : RecvLoop μ} {action : Action μ}
    (taken : receiver.step loop formats action = some next) :
    .ended ∉ next.loops ↔
      .ended ∉ receiver.loops ∧ Harmless loop formats receiver action := by
  cases action with
  | adapt _ _ _ =>
      obtain ⟨⟩ := taken
      simp [Harmless]
  | startRecvLoopIfNeeded =>
      simp only [step] at taken
      split at taken
      · obtain ⟨⟩ := taken
        simp [Harmless]
      · obtain ⟨⟩ := taken
        simp [Harmless]
  | arrive _ =>
      obtain ⟨⟩ := taken
      simp [Harmless]
  | receive index decoded =>
      simp only [step] at taken
      split at taken
      · next message arrived found here =>
          simp only [Harmless, here, List.head?_cons, Option.mem_some_iff,
            forall_eq']
          split at taken
          · next error raised =>
              obtain ⟨⟩ := taken
              rw [raised]
              exact @ended_raised _ { receiver with arrived } _ _ _ found
                (by simp) error
          · next ganglion synapse data received =>
              obtain ⟨⟩ := taken
              rw [received]
              cases decoded with
              | error error =>
                  exact @ended_transduceRaised _
                    { receiver with
                      ganglion, arrived
                      handed := receiver.handed ++ [(synapse, data)] }
                    _ _ _ found (by simp) error
              | ok _ =>
                  simp only [and_true]
                  exact @ended_gather _
                    { receiver with
                      ganglion, arrived
                      handed := receiver.handed ++ [(synapse, data)] }
                    _ _ found (by simp) _
      · cases taken
  | react index reactant outcome =>
      simp only [step] at taken
      split at taken
      · next reactants _ found =>
          split at taken
          · cases outcome with
            | error error =>
                obtain ⟨⟩ := taken
                exact ended_transduceRaised found (by simp) error
            | ok _ =>
                obtain ⟨⟩ := taken
                simp only [Harmless, and_true]
                exact ended_gather found (by simp) _
          · cases taken
      · cases taken

theorem ended_path {loop : RecvLoop μ} {ganglion : Ganglion}
    {steps : List (Receiver μ × Action μ)} {finish : Receiver μ}
    (path : Path (step loop formats) (init μ ganglion) steps finish) :
    .ended ∉ finish.loops ↔ Along (Harmless loop formats) steps := by
  induction path with
  | refl => simp [init, Along]
  | snoc _ taken induction => rw [ended_step taken, induction, along_cons, and_comm]

def pending (receiver : Receiver μ) : Nat :=
  (receiver.loops.map LoopStatus.pending).sum

theorem pending_setLoop (found : receiver.loops[index]? = some status)
    (after : LoopStatus) :
    (receiver.setLoop index after).pending + status.pending =
      receiver.pending + after.pending := by
  obtain ⟨before, rest, split, replaced⟩ := exists_around found
  rw [pending, pending, setLoop, replaced, split]
  simp only [List.map_append, List.map_cons, List.sum_append, List.sum_cons]
  omega

theorem pending_gather (receiver : Receiver μ)
    (found : receiver.loops[index]? = some status)
    (reactants : List GatheredReactant) :
    (receiver.gather index reactants).pending + status.pending =
      receiver.pending + reactants.length := by
  rw [gather, pending_setLoop found]
  split
  · next none => simp [none, LoopStatus.pending]
  · rfl

theorem exists_waiting (loop : RecvLoop μ) (formats : PlexoError → Bool)
    (receiver : Receiver μ) (running : .ended ∉ receiver.loops) :
    ∃ more later, Path (step loop formats) receiver more later ∧
      later.arrived = receiver.arrived ∧
        ∀ status ∈ later.loops, status = .waiting := by
  induction measure : receiver.pending using Nat.strong_induction_on
      generalizing receiver with
  | _ count induction =>
      by_cases all : ∀ status ∈ receiver.loops, status = .waiting
      · exact ⟨[], receiver, .refl, rfl, all⟩
      · simp only [not_forall] at all
        obtain ⟨status, member, busy⟩ := all
        obtain ⟨index, found⟩ := List.getElem?_of_mem member
        cases status with
        | waiting => exact absurd rfl busy
        | ended => exact absurd member running
        | transducing reactants some =>
            cases reactants with
            | nil => exact absurd rfl some
            | cons reactant rest =>
                have taken : receiver.step loop formats
                    (.react index reactant (.ok ())) =
                      Option.some (receiver.gather index rest) := by
                  simp [step, found]
                have shrinks : (receiver.gather index rest).pending < count := by
                  have balance := receiver.pending_gather found rest
                  rw [LoopStatus.pending, List.length_cons] at balance
                  omega
                obtain ⟨more, later, path, same, waiting⟩ := induction _ shrinks
                  (receiver.gather index rest)
                  ((ended_gather found (by simp) rest).mpr running) rfl
                exact ⟨_, later, (Transition.Path.refl.snoc taken).append path, same,
                  waiting⟩

def Adapts (receiver : Receiver μ) (name : String) : Action μ → Prop
  | .adapt neuron _ _ =>
      neuron.name = name ∧ receiver.ganglion.capable neuron = true
  | _ => False

/-- The loops come through a run, and the calls of `transduce` are as they should
be. -/
structure Survives (loop : RecvLoop μ) (formats : PlexoError → Bool)
    (wellFormed : WellFormed μ) (steps : List (Receiver μ × Action μ))
    (finish : Receiver μ) : Prop where
  running : .ended ∉ finish.loops
  returns : ∃ more later, Path (step loop formats) finish more later ∧
    later.arrived = finish.arrived ∧ ∀ status ∈ later.loops, status = .waiting
  handed : ∀ late state index decoded soon message arrived neuron payload,
    steps = late ++ (state, .receive index decoded) :: soon →
    state.arrived = message :: arrived →
    (∃ entry ∈ soon, Adapts entry.1 neuron.name entry.2) →
    wellFormed state.ganglion message neuron payload →
      ∃ synapse next,
        state.ganglion.base.synapses neuron.name = some synapse ∧
        (state.ganglion.objects synapse).neuron.name = neuron.name ∧
        state.step loop formats (.receive index decoded) = some next ∧
        next.handed = state.handed ++ [(synapse, payload)]

theorem raised_ganglion (receiver : Receiver μ) (formats : PlexoError → Bool)
    (index : Nat) (error : PlexoError) :
    (receiver.raised formats index error).ganglion = receiver.ganglion := by
  unfold raised
  split
  · rfl
  · split <;> rfl

theorem raised_handed (receiver : Receiver μ) (formats : PlexoError → Bool)
    (index : Nat) (error : PlexoError) :
    (receiver.raised formats index error).handed = receiver.handed := by
  unfold raised
  split
  · rfl
  · split <;> rfl

theorem transduceRaised_ganglion (receiver : Receiver μ)
    (formats : PlexoError → Bool) (index : Nat) (error : PlexoError) :
    (receiver.transduceRaised formats index error).ganglion =
      receiver.ganglion := by
  unfold transduceRaised
  split
  · rfl
  · exact receiver.raised_ganglion formats index error

theorem transduce_ganglion (receiver : Receiver μ) (formats : PlexoError → Bool)
    (index : Nat) (synapse : SynapseId) (data : Option ByteArray)
    (decoded : Except PlexoError Unit) :
    (receiver.transduce formats index synapse data decoded).ganglion =
      receiver.ganglion := by
  unfold transduce
  cases decoded with
  | error error => exact transduceRaised_ganglion _ formats index error
  | ok _ => rfl

theorem transduce_handed (receiver : Receiver μ) (formats : PlexoError → Bool)
    (index : Nat) (synapse : SynapseId) (data : Option ByteArray)
    (decoded : Except PlexoError Unit) :
    (receiver.transduce formats index synapse data decoded).handed =
      receiver.handed ++ [(synapse, data)] := by
  unfold transduce
  cases decoded with
  | error error =>
      dsimp only
      unfold transduceRaised
      split
      · rfl
      · exact raised_handed _ formats index error
  | ok _ => rfl

variable {loop : RecvLoop μ} {wellFormed : WellFormed μ}

theorem known_step (demultiplexes : loop.Demultiplexes wellFormed)
    {action : Action μ} (taken : receiver.step loop formats action = some next)
    {name : String} {synapse : SynapseId}
    (known : receiver.ganglion.base.synapses name = some synapse) :
    next.ganglion.base.synapses name = some synapse := by
  cases action with
  | adapt neuron reactants rawReactants =>
      obtain ⟨⟩ := taken
      exact Ganglion.adapt_synapses neuron reactants rawReactants known
  | startRecvLoopIfNeeded =>
      simp only [step] at taken
      split at taken
      · obtain ⟨⟩ := taken
        exact known
      · obtain ⟨⟩ := taken
        exact known
  | arrive _ =>
      obtain ⟨⟩ := taken
      exact known
  | receive index decoded =>
      simp only [step] at taken
      split at taken
      · split at taken
        · obtain ⟨⟩ := taken
          rw [raised_ganglion]
          exact known
        · next received =>
            obtain ⟨⟩ := taken
            rw [transduce_ganglion]
            exact demultiplexes.keeps received known
      · cases taken
  | react index reactant outcome =>
      simp only [step] at taken
      split at taken
      · split at taken
        · cases outcome with
          | error error =>
              obtain ⟨⟩ := taken
              rw [transduceRaised_ganglion]
              exact known
          | ok _ =>
              obtain ⟨⟩ := taken
              exact known
        · cases taken
      · cases taken

theorem known_path (demultiplexes : loop.Demultiplexes wellFormed)
    {start finish : Receiver μ} {steps : List (Receiver μ × Action μ)}
    (path : Path (step loop formats) start steps finish) {name : String}
    (adapted : ∃ entry ∈ steps, Adapts entry.1 name entry.2) :
    ∃ synapse, finish.ganglion.base.synapses name = some synapse := by
  induction path with
  | refl => simp at adapted
  | @snoc steps middle finish action _ taken induction =>
      obtain ⟨entry, member, adapts⟩ := adapted
      rcases List.mem_cons.mp member with rfl | earlier
      · cases action with
        | adapt neuron reactants rawReactants =>
            obtain ⟨⟩ := taken
            obtain ⟨rfl, capable⟩ := adapts
            exact Ganglion.adapt_known capable reactants rawReactants
        | startRecvLoopIfNeeded => cases adapts
        | arrive _ => cases adapts
        | receive _ _ => cases adapts
        | react _ _ _ => cases adapts
      · obtain ⟨synapse, known⟩ := induction ⟨entry, earlier, adapts⟩
        exact ⟨synapse, known_step demultiplexes taken known⟩

/-- The loops come through a run exactly if all its steps are harmless. -/
theorem survives_iff (demultiplexes : loop.Demultiplexes wellFormed)
    {ganglion : Ganglion} {steps : List (Receiver μ × Action μ)}
    {finish : Receiver μ}
    (path : Path (step loop formats) (init μ ganglion) steps finish) :
    Survives loop formats wellFormed steps finish ↔
      Along (Harmless loop formats) steps := by
  rw [← ended_path path]
  constructor
  · exact fun survives => survives.running
  · intro running
    refine ⟨running, exists_waiting loop formats finish running, ?_⟩
    rintro late state index decoded soon message arrived neuron payload rfl
      here adapted isWellFormed
    obtain ⟨next, before, taken, _⟩ := path.split
    obtain ⟨synapse, known⟩ := known_path demultiplexes before adapted
    refine ⟨synapse, next, known, (state.ganglion.connected.named known).2,
      taken, ?_⟩
    simp only [step, here] at taken
    split at taken
    · next same =>
        obtain ⟨⟩ := same
        rw [demultiplexes.finds isWellFormed known] at taken
        obtain ⟨⟩ := taken
        rw [transduce_handed]
    · cases taken

def sampleActions (message : μ) (error : PlexoError) : List (Action μ) :=
  [.adapt ProtocolNeuron.heartbeat.toNeuron [.user 0] [],
    .startRecvLoopIfNeeded, .arrive message, .arrive message,
    .receive 0 (.ok ()), .react 0 (.reactant (.user 0)) (.error error)]

theorem exists_harmless (loop : RecvLoop μ) (formats : PlexoError → Bool)
    (ganglion : Ganglion) (actions : List (Action μ))
    (runs : (exec (step loop formats) (init μ ganglion) actions).any
      (fun finish => !finish.loops.any (·.isEnded)) = true) :
    ∃ steps finish, Path (step loop formats) (init μ ganglion) steps finish ∧
      Along (Harmless loop formats) steps := by
  obtain ⟨finish, path, passed⟩ := path_of_any runs
  refine ⟨_, finish, path, (ended_path path).mp ?_⟩
  intro member
  have ended : finish.loops.any (·.isEnded) = true :=
    List.any_eq_true.mpr ⟨.ended, member, rfl⟩
  simp [ended] at passed

theorem exists_not_survives {ganglion : Ganglion} (actions : List (Action μ))
    (ends : (exec (step loop formats) (init μ ganglion) actions).any
      (fun finish => finish.loops.any (·.isEnded)) = true) :
    ¬ ∀ steps finish, Path (step loop formats) (init μ ganglion) steps finish →
      Survives loop formats wellFormed steps finish := by
  intro always
  obtain ⟨finish, path, passed⟩ := path_of_any ends
  obtain ⟨status, member, isEnded⟩ := List.any_eq_true.mp passed
  cases status with
  | waiting => cases isEnded
  | transducing _ _ => cases isEnded
  | ended => exact (always _ finish path).running member

end Receiver

def GanglionZmqTcpPair.wellFormed (codec : PlexoMessageCodec) :
    WellFormed ByteArray :=
  fun _ data neuron payload =>
    codec.decode data = .ok ⟨some neuron.topicBytes, payload⟩

def GanglionZmqTcpPubSub.wellFormed : WellFormed (List ByteArray) :=
  fun _ frames neuron payload =>
    ∃ data, frames = [neuron.topicBytes, data] ∧ payload = some data

def SynapseZmqPlexoPubSubEPGM.wellFormed (synapse : SynapseId) :
    WellFormed (List ByteArray) :=
  fun ganglion frames neuron payload =>
    ganglion.base.synapses neuron.name = some synapse ∧
      ∃ data, frames = [neuron.topicBytes, data] ∧ payload = some data

theorem GanglionZmqTcpPair.demultiplexes (codec : PlexoMessageCodec) :
    (recvLoop codec).Demultiplexes (wellFormed codec) where
  finds := receive_known
  keeps := by
    intro ganglion data after found payload name synapse received known
    obtain ⟨_, _, _, _, lookup⟩ := receive_ok received
    exact Ganglion.getSynapseByName_synapses lookup known

theorem GanglionZmqTcpPubSub.demultiplexes :
    recvLoop.Demultiplexes wellFormed where
  finds := by
    rintro ganglion frames neuron payload synapse ⟨data, rfl, rfl⟩ known
    exact receive_known data known
  keeps := by
    intro ganglion frames after found payload name synapse received known
    obtain ⟨_, _, _, _, _, _, lookup⟩ := receive_ok received
    exact Ganglion.getSynapseByName_synapses lookup known

theorem SynapseZmqPlexoPubSubEPGM.demultiplexes (own : SynapseId) :
    (recvLoop own).Demultiplexes (wellFormed own) where
  finds := by
    rintro ganglion frames neuron payload synapse ⟨isOwn, data, rfl, rfl⟩ known
    rw [known] at isOwn
    obtain ⟨⟩ := isOwn
    rfl
  keeps := by
    intro ganglion frames after found payload name synapse received known
    obtain ⟨rfl, _⟩ := receive_ok received
    exact known

/-- Each of the receive loops comes through exactly those runs in which nothing
that it calls raises an `AttributeError`, or what cannot be formatted for the
log. -/
theorem recvLoop_survives_iff (formats : PlexoError → Bool)
    (ganglion : Ganglion) :
    (∀ codec steps finish,
      Path (Receiver.step (GanglionZmqTcpPair.recvLoop codec) formats)
          (.init _ ganglion) steps finish →
        (Receiver.Survives (GanglionZmqTcpPair.recvLoop codec) formats
            (GanglionZmqTcpPair.wellFormed codec) steps finish ↔
          Along (Receiver.Harmless (GanglionZmqTcpPair.recvLoop codec) formats)
            steps)) ∧
      (∀ steps finish,
        Path (Receiver.step GanglionZmqTcpPubSub.recvLoop formats)
            (.init _ ganglion) steps finish →
          (Receiver.Survives GanglionZmqTcpPubSub.recvLoop formats
              GanglionZmqTcpPubSub.wellFormed steps finish ↔
            Along (Receiver.Harmless GanglionZmqTcpPubSub.recvLoop formats)
              steps)) ∧
      ∀ synapse steps finish,
        Path (Receiver.step (SynapseZmqPlexoPubSubEPGM.recvLoop synapse) formats)
            (.init _ ganglion) steps finish →
          (Receiver.Survives (SynapseZmqPlexoPubSubEPGM.recvLoop synapse)
              formats (SynapseZmqPlexoPubSubEPGM.wellFormed synapse) steps
              finish ↔
            Along (Receiver.Harmless
              (SynapseZmqPlexoPubSubEPGM.recvLoop synapse) formats) steps) := by
  refine ⟨?_, ?_, ?_⟩
  · intro codec steps finish path
    exact Receiver.survives_iff (GanglionZmqTcpPair.demultiplexes codec) path
  · intro steps finish path
    exact Receiver.survives_iff GanglionZmqTcpPubSub.demultiplexes path
  · intro synapse steps finish path
    exact Receiver.survives_iff
      (SynapseZmqPlexoPubSubEPGM.demultiplexes synapse) path

/-- Exceptions of other classes are logged, and the next message is read. -/
theorem recvLoop_survives_other :
    (∃ steps finish, Receiver.Survives
        (GanglionZmqTcpPair.recvLoop .sample) (fun _ => true)
        (GanglionZmqTcpPair.wellFormed .sample) steps finish) ∧
      (∃ steps finish, Receiver.Survives GanglionZmqTcpPubSub.recvLoop
        (fun _ => true) GanglionZmqTcpPubSub.wellFormed steps finish) ∧
      ∃ steps finish, Receiver.Survives (SynapseZmqPlexoPubSubEPGM.recvLoop 0)
        (fun _ => true) (SynapseZmqPlexoPubSubEPGM.wellFormed 0) steps
        finish := by
  obtain ⟨pair, pubSub, epgm⟩ := recvLoop_survives_iff (fun _ => true)
    (.init (.external false) {})
  refine ⟨?_, ?_, ?_⟩
  · obtain ⟨steps, finish, path, harmless⟩ := Receiver.exists_harmless
      (GanglionZmqTcpPair.recvLoop .sample) (fun _ => true) (.init (.external false) {})
      (Receiver.sampleActions
          (SynapseZmqBasic.message .sample ProtocolNeuron.heartbeat.toNeuron
            (.text "")) (.other "RuntimeError") ++
        [.receive 0 (.error .valueError)]) (by decide +kernel)
    exact ⟨steps, finish, (pair _ _ _ path).mpr harmless⟩
  · obtain ⟨steps, finish, path, harmless⟩ := Receiver.exists_harmless
      GanglionZmqTcpPubSub.recvLoop (fun _ => true) (.init (.external false) {})
      (Receiver.sampleActions
          (SynapseZmqBasicPub.message ProtocolNeuron.heartbeat.toNeuron
            (.text "")) (.other "RuntimeError") ++
        [.receive 0 (.error .valueError)]) (by decide +kernel)
    exact ⟨steps, finish, (pubSub _ _ path).mpr harmless⟩
  · obtain ⟨steps, finish, path, harmless⟩ := Receiver.exists_harmless
      (SynapseZmqPlexoPubSubEPGM.recvLoop 0) (fun _ => true) (.init (.external false) {})
      (Receiver.sampleActions
          (SynapseZmqPlexoPubSubEPGM.message ProtocolNeuron.heartbeat.toNeuron
            (.text "")) (.other "RuntimeError") ++
        [.receive 0 (.error .valueError)]) (by decide +kernel)
    exact ⟨steps, finish, (epgm _ _ _ path).mpr harmless⟩

/-- The reactant raises an `AttributeError`. -/
theorem not_recvLoop_survives_attributeError :
    (¬ ∀ steps finish,
      Path (Receiver.step (GanglionZmqTcpPair.recvLoop .sample) fun _ => true)
          (.init _ (.init (.external false) {})) steps finish →
        Receiver.Survives (GanglionZmqTcpPair.recvLoop .sample) (fun _ => true)
          (GanglionZmqTcpPair.wellFormed .sample) steps finish) ∧
      (¬ ∀ steps finish,
        Path (Receiver.step GanglionZmqTcpPubSub.recvLoop fun _ => true)
            (.init _ (.init (.external false) {})) steps finish →
          Receiver.Survives GanglionZmqTcpPubSub.recvLoop (fun _ => true)
            GanglionZmqTcpPubSub.wellFormed steps finish) ∧
      ¬ ∀ steps finish,
        Path (Receiver.step (SynapseZmqPlexoPubSubEPGM.recvLoop 0)
            fun _ => true) (.init _ (.init (.external false) {})) steps
            finish →
          Receiver.Survives (SynapseZmqPlexoPubSubEPGM.recvLoop 0)
            (fun _ => true) (SynapseZmqPlexoPubSubEPGM.wellFormed 0) steps
            finish := by
  refine ⟨?_, ?_, ?_⟩
  · exact Receiver.exists_not_survives
      (Receiver.sampleActions
        (SynapseZmqBasic.message .sample ProtocolNeuron.heartbeat.toNeuron
          (.text "")) .attributeError) (by decide +kernel)
  · exact Receiver.exists_not_survives
      (Receiver.sampleActions
        (SynapseZmqBasicPub.message ProtocolNeuron.heartbeat.toNeuron
          (.text "")) .attributeError) (by decide +kernel)
  · exact Receiver.exists_not_survives
      (Receiver.sampleActions
        (SynapseZmqPlexoPubSubEPGM.message ProtocolNeuron.heartbeat.toNeuron
          (.text "")) .attributeError) (by decide +kernel)

end Plexo
