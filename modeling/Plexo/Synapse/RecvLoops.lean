import Plexo.Library.Transition
import Plexo.Synapse.Epgm

/-!
# The receive loops of a multicast synapse

`_start_recv_loop_if_needed` starts a loop whenever there are reactants.  It
does not ask whether a loop is running already, as the ganglia over TCP do, and
it does not look at raw reactants.  Every call of `add_reactants` after the
first one adds a loop, so that several loops take messages from one socket.
-/

namespace Plexo

open Transition

namespace SynapseZmqPlexoPubSubEPGM

inductive Operation where
  | addReactants (reactants : List ReactantId)
  | addRawReactants (rawReactants : List ReactantId)
  | update (multicastAddress : IPAddress)
  deriving DecidableEq

def perform (host : Host) (synapse : SynapseZmqPlexoPubSubEPGM) :
    Operation → Option SynapseZmqPlexoPubSubEPGM
  | .addReactants reactants => some (synapse.addReactants reactants)
  | .addRawReactants rawReactants => some (synapse.addRawReactants rawReactants)
  | .update multicastAddress => some (synapse.update host multicastAddress).2

/-- The synapse has someone to hand messages to. -/
def Listens (synapse : SynapseZmqPlexoPubSubEPGM) : Prop :=
  synapse.reactants ≠ [] ∨ synapse.rawReactants ≠ []

instance (synapse : SynapseZmqPlexoPubSubEPGM) : Decidable synapse.Listens :=
  inferInstanceAs (Decidable (_ ∨ _))

/-- There is one loop if there is someone to hand messages to, and none
otherwise. -/
def OneRecvLoop (synapse : SynapseZmqPlexoPubSubEPGM) : Prop :=
  synapse.tasks = if synapse.Listens then 1 else 0

instance (synapse : SynapseZmqPlexoPubSubEPGM) :
    Decidable synapse.OneRecvLoop :=
  inferInstanceAs (Decidable (_ = _))

/-- What the decision to start a loop does not go wrong at. -/
def StartsRight (host : Host) (synapse : SynapseZmqPlexoPubSubEPGM) :
    Operation → Prop
  -- a further loop is started whenever there are reactants already
  | .addReactants _ => synapse.reactants = []
  | .addRawReactants rawReactants =>
      synapse.reactants ≠ [] ∨ rawReactants = []
  -- an `update` that raises has cancelled the loop before
  | .update multicastAddress =>
      synapse.reactants = [] ∨
        (synapse.Closable host ∧ multicastAddress.isMulticast = true)

instance (host : Host) (synapse : SynapseZmqPlexoPubSubEPGM)
    (operation : Operation) : Decidable (synapse.StartsRight host operation) := by
  cases operation with
  | addReactants reactants => exact inferInstanceAs (Decidable (_ = _))
  | addRawReactants rawReactants => exact inferInstanceAs (Decidable (_ ∨ _))
  | update multicastAddress => exact inferInstanceAs (Decidable (_ ∨ _))

/-- Loops are only started for reactants, which are never removed. -/
def LoopsReactants (synapse : SynapseZmqPlexoPubSubEPGM) : Prop :=
  synapse.reactants = [] → synapse.tasks = 0

theorem startRecvLoopIfNeeded_tasks (synapse : SynapseZmqPlexoPubSubEPGM) :
    synapse.startRecvLoopIfNeeded.tasks =
      if synapse.reactants = [] then synapse.tasks else synapse.tasks + 1 := by
  unfold startRecvLoopIfNeeded
  by_cases none : synapse.reactants = []
  · simp [none]
  · simp [none]

theorem update_loops {host : Host}
    (binds : ∀ multicastAddress, host.bind multicastAddress = true)
    (synapse : SynapseZmqPlexoPubSubEPGM) (multicastAddress : IPAddress) :
    (synapse.update host multicastAddress).2.reactants = synapse.reactants ∧
      (synapse.update host multicastAddress).2.rawReactants =
        synapse.rawReactants ∧
      (synapse.update host multicastAddress).2.tasks =
        if synapse.reactants ≠ [] ∧ synapse.Closable host ∧
          multicastAddress.isMulticast = true then 1 else 0 := by
  by_cases closable : synapse.Closable host
  · rw [update_of_closable closable, startup]
    cases multicast : multicastAddress.isMulticast with
    | false => simp [closed]
    | true =>
        simp only [binds, closable, if_false, Bool.true_eq_false,
          startRecvLoopIfNeeded_reactants, startRecvLoopIfNeeded_rawReactants,
          startRecvLoopIfNeeded_tasks]
        by_cases none : synapse.reactants = []
        · simp [closed, none]
        · simp [closed, none]
  · rw [update_of_not_closable closable]
    simp [closed, closable]

theorem LoopsReactants.perform {host : Host}
    {synapse after : SynapseZmqPlexoPubSubEPGM} {operation : Operation}
    (binds : ∀ multicastAddress, host.bind multicastAddress = true)
    (loops : synapse.LoopsReactants)
    (taken : synapse.perform host operation = some after) :
    after.LoopsReactants := by
  cases operation with
  | addReactants reactants =>
      obtain ⟨⟩ := taken
      intro none
      have before : addReactantsTo synapse.reactants reactants = [] := by
        simpa [addReactants] using none
      rw [addReactants, startRecvLoopIfNeeded_tasks, if_pos before]
      exact loops (addReactantsTo_eq_nil.mp before).1
  | addRawReactants rawReactants =>
      obtain ⟨⟩ := taken
      exact loops
  | update multicastAddress =>
      obtain ⟨⟩ := taken
      obtain ⟨reactants, _, tasks⟩ := update_loops binds synapse multicastAddress
      intro none
      rw [tasks, if_neg]
      rintro ⟨some, _⟩
      exact some (reactants ▸ none)

/-- What the count of loops has to be, by who is attached. -/
theorem oneRecvLoop_iff {synapse : SynapseZmqPlexoPubSubEPGM}
    (loops : synapse.LoopsReactants) :
    synapse.OneRecvLoop ↔
      (synapse.reactants = [] ∧ synapse.rawReactants = []) ∨
        (synapse.reactants ≠ [] ∧ synapse.tasks = 1) := by
  unfold OneRecvLoop Listens
  by_cases none : synapse.reactants = []
  · by_cases noneRaw : synapse.rawReactants = []
    · simp [none, noneRaw, loops none]
    · simp [none, noneRaw, loops none]
  · simp [none]

/-- From a state with the right number of loops, an operation leads to another
one exactly when the decision to start a loop does not go wrong. -/
theorem oneRecvLoop_perform_iff {host : Host}
    {synapse after : SynapseZmqPlexoPubSubEPGM} {operation : Operation}
    (binds : ∀ multicastAddress, host.bind multicastAddress = true)
    (loops : synapse.LoopsReactants) (one : synapse.OneRecvLoop)
    (taken : synapse.perform host operation = some after) :
    after.OneRecvLoop ↔ synapse.StartsRight host operation := by
  rw [oneRecvLoop_iff (loops.perform binds taken)]
  rw [oneRecvLoop_iff loops] at one
  cases operation with
  | addReactants reactants =>
      obtain ⟨⟩ := taken
      simp only [addReactants, startRecvLoopIfNeeded_reactants,
        startRecvLoopIfNeeded_rawReactants, startRecvLoopIfNeeded_tasks,
        addReactantsTo_eq_nil, StartsRight]
      rcases one with ⟨none, noneRaw⟩ | ⟨some, single⟩
      · by_cases nothing : reactants = []
        · simp [none, noneRaw, nothing]
        · simp [none, nothing, loops none, addReactantsTo_eq_nil]
      · simp [some, single]
  | addRawReactants rawReactants =>
      obtain ⟨⟩ := taken
      simp only [addRawReactants, addReactantsTo_eq_nil, StartsRight]
      rcases one with ⟨none, noneRaw⟩ | ⟨some, single⟩
      · simp [none, noneRaw]
      · simp [some, single]
  | update multicastAddress =>
      obtain ⟨⟩ := taken
      obtain ⟨reactants, rawReactants, tasks⟩ :=
        update_loops binds synapse multicastAddress
      rw [reactants, rawReactants, tasks, StartsRight]
      rcases one with ⟨none, noneRaw⟩ | ⟨some, single⟩
      · simp [none, noneRaw]
      · simp [some]

theorem loopsReactants_init {host : Host} {neuron : Neuron}
    {multicastAddress : IPAddress} {reactants rawReactants : List ReactantId}
    {synapse : SynapseZmqPlexoPubSubEPGM}
    (made : init host neuron multicastAddress reactants rawReactants =
      .ok synapse) :
    synapse.reactants = addReactantsTo [] reactants ∧
      synapse.rawReactants = addReactantsTo [] rawReactants ∧
      synapse.tasks = if reactants = [] then 0 else 1 := by
  simp only [init, startup] at made
  split at made
  · cases made
  · next result =>
      split at result
      · cases result
      · split at result
        · cases result
        · obtain ⟨_, rfl⟩ := Prod.mk.inj result
          obtain ⟨⟩ := made
          simp [startRecvLoopIfNeeded_tasks, addReactantsTo_eq_nil]

/-- In every state of a run there is the right number of loops if and only if
the decision to start a loop never goes wrong. -/
theorem always_oneRecvLoop_iff {host : Host}
    (binds : ∀ multicastAddress, host.bind multicastAddress = true)
    {neuron : Neuron} {multicastAddress : IPAddress}
    {reactants rawReactants : List ReactantId}
    {synapse finish : SynapseZmqPlexoPubSubEPGM}
    {steps : List (SynapseZmqPlexoPubSubEPGM × Operation)}
    (made : init host neuron multicastAddress reactants rawReactants =
      .ok synapse)
    (path : Path (perform host) synapse steps finish) :
    (finish.OneRecvLoop ∧ ∀ entry ∈ steps, entry.1.OneRecvLoop) ↔
      (reactants ≠ [] ∨ rawReactants = []) ∧
        Along (StartsRight host) steps := by
  obtain ⟨attached, attachedRaw, tasks⟩ := loopsReactants_init made
  have initial : synapse.LoopsReactants := by
    intro none
    rw [attached, addReactantsTo_eq_nil] at none
    rw [tasks, if_pos none.2]
  have atStart : synapse.OneRecvLoop ↔ reactants ≠ [] ∨ rawReactants = [] := by
    rw [oneRecvLoop_iff initial, attached, attachedRaw, tasks]
    by_cases none : reactants = []
    · simp [none, addReactantsTo_eq_nil]
    · simp [none, addReactantsTo_eq_nil]
  rw [← atStart]
  apply path.throughout_iff initial
  · intro state operation next loops taken
    exact loops.perform binds taken
  · intro state operation next loops one taken
    exact oneRecvLoop_perform_iff binds loops one taken

namespace RecvLoops

def neuron : Neuron := ProtocolNeuron.heartbeat.toNeuron

def address (last : UInt8) : IPAddress := .v4 239 0 0 last

def silent : SynapseZmqPlexoPubSubEPGM :=
  { neuron
    multicastAddress := address 1
    socketPub := .connected (address 1) }

theorem init_silent :
    init .permissive neuron (address 1) [] [] = .ok silent := rfl

end RecvLoops

open RecvLoops in
/-- Reactants are added in one call, before raw reactants and a move. -/
theorem always_oneRecvLoop_iff_once :
    ∃ steps finish, Path (perform .permissive) silent steps finish ∧
      finish.tasks = 1 ∧ finish.OneRecvLoop ∧
      ∀ entry ∈ steps, entry.1.OneRecvLoop := by
  obtain ⟨finish, path, single⟩ := path_of_any
    (show (exec (perform .permissive) silent
      [.addReactants [3, 4], .addRawReactants [5], .update (address 2)]).any
        (·.tasks = 1) = true by decide +kernel)
  exact ⟨_, finish, path, of_decide_eq_true single,
    (always_oneRecvLoop_iff (fun _ => rfl) init_silent path).mpr
      ⟨.inr rfl, by decide +kernel⟩⟩

open RecvLoops in
/-- Reactants are added in two calls. -/
theorem not_always_oneRecvLoop_twice :
    ¬ ∀ (host : Host) (neuron : Neuron) (multicastAddress : IPAddress)
      (reactants rawReactants : List ReactantId)
      (synapse finish : SynapseZmqPlexoPubSubEPGM)
      (steps : List (SynapseZmqPlexoPubSubEPGM × Operation)),
      (∀ multicastAddress, host.bind multicastAddress = true) →
      init host neuron multicastAddress reactants rawReactants =
        .ok synapse →
      Path (perform host) synapse steps finish → finish.OneRecvLoop := by
  intro always
  obtain ⟨finish, path, two⟩ := path_of_any
    (show (exec (perform .permissive) silent
      [.addReactants [3], .addReactants [4]]).any
        (fun synapse => ¬ synapse.OneRecvLoop) = true by decide +kernel)
  exact of_decide_eq_true two
    (always .permissive RecvLoops.neuron (address 1) [] [] silent finish _ (fun _ => rfl)
      init_silent path)

end SynapseZmqPlexoPubSubEPGM

end Plexo
