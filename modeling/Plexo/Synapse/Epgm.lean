import Plexo.Exceptions
import Plexo.Neuron

/-!
# The multicast synapse

`SynapseZmqPlexoPubSubEPGM` publishes on one multicast address and receives on
it with tasks that run `_recv_loop`.  Moving it to another address closes it
and starts it again.
-/

namespace Plexo

/-- The identity of a reactant object. -/
abbrev ReactantId := Nat

/-- What a multicast synapse depends on outside the repository. -/
structure Host where
  /-- Whether `bind` on the `epgm` address succeeds. -/
  bind : IPAddress → Bool
  /-- Whether `concurrent.futures.TimeoutError` is the built-in
  `TimeoutError`, as it is from Python 3.11 on. -/
  timeoutIsBuiltin : Bool

/-- A host on Python 3.11 on which every address can be bound. -/
def Host.permissive : Host := ⟨fun _ => true, true⟩

inductive SocketState where
  | absent
  | opened
  | connected (address : IPAddress)
  | closed
  deriving DecidableEq

/-- `if socket: socket.close()`. -/
def SocketState.close : SocketState → SocketState
  | .absent => .absent
  | _ => .closed

structure SynapseZmqPlexoPubSubEPGM where
  neuron : Neuron
  multicastAddress : IPAddress
  reactants : List ReactantId := []
  rawReactants : List ReactantId := []
  /-- The number of `_recv_loop` tasks in `_tasks`. -/
  tasks : Nat := 0
  socketPub : SocketState := .absent
  socketSub : SocketState := .absent

instance : Inhabited SynapseZmqPlexoPubSubEPGM :=
  ⟨{ neuron := ProtocolNeuron.heartbeat.toNeuron
     multicastAddress := .v4 224 0 0 0 }⟩

/-- `pvector(pset(known).update(reactants))`. -/
def addReactantsTo {α : Type} [DecidableEq α] (known reactants : List α) :
    List α :=
  reactants.foldl
    (fun current reactant =>
      if reactant ∈ current then current else current ++ [reactant]) known

theorem mem_addReactantsTo {α : Type} [DecidableEq α] {known reactants : List α}
    {reactant : α} : reactant ∈ addReactantsTo known reactants ↔
      reactant ∈ known ∨ reactant ∈ reactants := by
  unfold addReactantsTo
  induction reactants generalizing known with
  | nil => simp
  | cons first rest induction =>
      rw [List.foldl_cons, induction]
      split
      · next inside =>
          constructor
          · rintro (old | new)
            · exact .inl old
            · exact .inr (List.mem_cons_of_mem _ new)
          · rintro (old | new)
            · exact .inl old
            · rcases List.mem_cons.mp new with rfl | new
              · exact .inl inside
              · exact .inr new
      · simp [or_assoc]

theorem addReactantsTo_eq_nil {α : Type} [DecidableEq α]
    {known reactants : List α} :
    addReactantsTo known reactants = [] ↔ known = [] ∧ reactants = [] := by
  simp only [List.eq_nil_iff_forall_not_mem, mem_addReactantsTo, not_or,
    forall_and]

namespace SynapseZmqPlexoPubSubEPGM

/-- `_start_recv_loop_if_needed`; raw reactants are not looked at. -/
def startRecvLoopIfNeeded (synapse : SynapseZmqPlexoPubSubEPGM) :
    SynapseZmqPlexoPubSubEPGM :=
  if synapse.reactants.length ≠ 0 then
    { synapse with tasks := synapse.tasks + 1 }
  else
    synapse

/-- `_startup`. -/
def startup (host : Host) (synapse : SynapseZmqPlexoPubSubEPGM)
    (multicastAddress : IPAddress) :
    Except PlexoError Unit × SynapseZmqPlexoPubSubEPGM :=
  if multicastAddress.isMulticast = false then
    (.error .ipAddressIsNotMulticast, synapse)
  else if host.bind multicastAddress = false then
    (.error .zmqError,
      { synapse with multicastAddress, socketPub := .opened, socketSub := .absent })
  else
    (.ok (),
      startRecvLoopIfNeeded
        { synapse with
          multicastAddress
          socketPub := .connected multicastAddress
          socketSub := .absent })

def closed (synapse : SynapseZmqPlexoPubSubEPGM) : SynapseZmqPlexoPubSubEPGM :=
  { synapse with
    tasks := 0
    socketPub := synapse.socketPub.close
    socketSub := synapse.socketSub.close }

/-- `close`.  With tasks to wait for, the base class blocks the event loop in
`future.result(10)` until that times out; `except TimeoutError` catches only
the built-in class.  The sockets are closed either way. -/
def close (host : Host) (synapse : SynapseZmqPlexoPubSubEPGM) :
    Except PlexoError Unit × SynapseZmqPlexoPubSubEPGM :=
  if synapse.tasks ≠ 0 ∧ host.timeoutIsBuiltin = false then
    (.error .futureTimeout, synapse.closed)
  else
    (.ok (), synapse.closed)

/-- `update`. -/
def update (host : Host) (synapse : SynapseZmqPlexoPubSubEPGM)
    (multicastAddress : IPAddress) :
    Except PlexoError Unit × SynapseZmqPlexoPubSubEPGM :=
  match synapse.close host with
  | (.error error, closed) => (.error error, closed)
  | (.ok _, closed) => closed.startup host multicastAddress

/-- `__init__`; the object exists only if its startup does not raise. -/
def init (host : Host) (neuron : Neuron) (multicastAddress : IPAddress)
    (reactants rawReactants : List ReactantId) :
    Except PlexoError SynapseZmqPlexoPubSubEPGM :=
  let blank : SynapseZmqPlexoPubSubEPGM :=
    { neuron, multicastAddress
      reactants := addReactantsTo [] reactants
      rawReactants := addReactantsTo [] rawReactants }
  match blank.startup host multicastAddress with
  | (.error error, _) => .error error
  | (.ok _, synapse) => .ok synapse

/-- `add_reactants`. -/
def addReactants (synapse : SynapseZmqPlexoPubSubEPGM)
    (reactants : List ReactantId) : SynapseZmqPlexoPubSubEPGM :=
  startRecvLoopIfNeeded
    { synapse with reactants := addReactantsTo synapse.reactants reactants }

/-- `add_raw_reactants`, inherited from the base class. -/
def addRawReactants (synapse : SynapseZmqPlexoPubSubEPGM)
    (rawReactants : List ReactantId) : SynapseZmqPlexoPubSubEPGM :=
  { synapse with
    rawReactants := addReactantsTo synapse.rawReactants rawReactants }

@[simp] theorem startRecvLoopIfNeeded_multicastAddress
    (synapse : SynapseZmqPlexoPubSubEPGM) :
    synapse.startRecvLoopIfNeeded.multicastAddress =
      synapse.multicastAddress := by
  unfold startRecvLoopIfNeeded
  split <;> rfl

@[simp] theorem startRecvLoopIfNeeded_reactants
    (synapse : SynapseZmqPlexoPubSubEPGM) :
    synapse.startRecvLoopIfNeeded.reactants = synapse.reactants := by
  unfold startRecvLoopIfNeeded
  split <;> rfl

@[simp] theorem startRecvLoopIfNeeded_rawReactants
    (synapse : SynapseZmqPlexoPubSubEPGM) :
    synapse.startRecvLoopIfNeeded.rawReactants = synapse.rawReactants := by
  unfold startRecvLoopIfNeeded
  split <;> rfl

@[simp] theorem addReactants_multicastAddress
    (synapse : SynapseZmqPlexoPubSubEPGM) (reactants : List ReactantId) :
    (synapse.addReactants reactants).multicastAddress =
      synapse.multicastAddress := by
  simp [addReactants]

@[simp] theorem addRawReactants_multicastAddress
    (synapse : SynapseZmqPlexoPubSubEPGM) (rawReactants : List ReactantId) :
    (synapse.addRawReactants rawReactants).multicastAddress =
      synapse.multicastAddress := rfl

/-- Closing can be completed without an exception. -/
def Closable (host : Host) (synapse : SynapseZmqPlexoPubSubEPGM) : Prop :=
  synapse.tasks = 0 ∨ host.timeoutIsBuiltin = true

instance (host : Host) (synapse : SynapseZmqPlexoPubSubEPGM) :
    Decidable (synapse.Closable host) :=
  inferInstanceAs (Decidable (_ ∨ _))

theorem not_closable_iff {host : Host} {synapse : SynapseZmqPlexoPubSubEPGM} :
    ¬ synapse.Closable host ↔
      synapse.tasks ≠ 0 ∧ host.timeoutIsBuiltin = false := by
  simp [Closable, not_or]

theorem close_of_closable {host : Host} {synapse : SynapseZmqPlexoPubSubEPGM}
    (closable : synapse.Closable host) :
    synapse.close host = (.ok (), synapse.closed) := by
  unfold close
  exact if_neg fun blocked => not_closable_iff.mpr blocked closable

theorem close_of_not_closable {host : Host}
    {synapse : SynapseZmqPlexoPubSubEPGM}
    (blocked : ¬ synapse.Closable host) :
    synapse.close host = (.error .futureTimeout, synapse.closed) := by
  unfold close
  exact if_pos (not_closable_iff.mp blocked)

theorem update_of_closable {host : Host} {synapse : SynapseZmqPlexoPubSubEPGM}
    (closable : synapse.Closable host) (multicastAddress : IPAddress) :
    synapse.update host multicastAddress =
      synapse.closed.startup host multicastAddress := by
  rw [update, close_of_closable closable]

theorem update_of_not_closable {host : Host}
    {synapse : SynapseZmqPlexoPubSubEPGM} (blocked : ¬ synapse.Closable host)
    (multicastAddress : IPAddress) :
    synapse.update host multicastAddress =
      (.error .futureTimeout, synapse.closed) := by
  rw [update, close_of_not_closable blocked]

/-- A move ends on the new address without an exception exactly when the
synapse can be closed and the new address can be bound. -/
theorem update_ok_iff (host : Host) (synapse : SynapseZmqPlexoPubSubEPGM)
    (multicastAddress : IPAddress) :
    (synapse.update host multicastAddress).1 = .ok () ↔
      synapse.Closable host ∧ multicastAddress.isMulticast = true ∧
        host.bind multicastAddress = true := by
  by_cases closable : synapse.Closable host
  · rw [update_of_closable closable, startup]
    by_cases multicast : multicastAddress.isMulticast = false
    · simp [multicast]
    · by_cases bound : host.bind multicastAddress = false
      · simp [multicast, bound]
      · simp [multicast, bound, closable]
  · rw [update_of_not_closable closable]
    simp [closable]

theorem update_multicastAddress {host : Host}
    {synapse : SynapseZmqPlexoPubSubEPGM} {multicastAddress : IPAddress}
    (moved : (synapse.update host multicastAddress).1 = .ok ()) :
    (synapse.update host multicastAddress).2.multicastAddress =
      multicastAddress := by
  obtain ⟨closable, multicast, bound⟩ := (update_ok_iff ..).mp moved
  rw [update_of_closable closable]
  simp [startup, multicast, bound]

end SynapseZmqPlexoPubSubEPGM

end Plexo
