import Plexo.Multicast.AddressBook
import Plexo.Multicast.Proposer

/-!
# Acquisitions

`_create_synapse_by_name` acquires an address and creates a synapse on it.  The
loop in `acquire_address_for_type` calls `_get_address_from_consensus` until a
call returns, and looks for a synapse of that name before every call.  The
addresses that `get_address` gives to the calls of an acquisition are kept for
the statements of properties and read by no instance.
-/

namespace Plexo

open PersistentMap Transition

/-- `except (PreparationRejection, ConsensusNotReached)`. -/
def PlexoError.isRetried : PlexoError → Bool
  | .preparationRejection _ => true
  | .consensusNotReached => true
  | _ => false

/-- A call of `_create_synapse_by_name` in flight. -/
structure Acquisition where
  name : String
  /-- The call that the loop awaits. -/
  call : CallId
  /-- What `get_address` gave to its calls. -/
  leases : List IPAddress
  deriving DecidableEq

namespace GanglionPlexoMulticast

/-- The call that an input makes reach `get_address`, and the address that the
call gets. -/
def gives (ganglion : GanglionPlexoMulticast) :
    Input → Option (CallId × IPAddress)
  | .own (.checkPromises call popped) =>
      match ganglion.calls call with
      | some (.awaitingPromises preparation _) =>
          if ganglion.preparationRejected preparation.typeName = false ∧
              newestPromise
                (ganglion.collectedPromises preparation.typeName) = none ∧
              ganglion.registry.ipLeaseManager.availableIps ≠ ∅ then
            some (call, popped)
          else
            none
      | _ => none
  | _ => none

def raised (ganglion : GanglionPlexoMulticast) (call : CallId) :
    Option PlexoError :=
  match ganglion.calls call with
  | some (.raised _ error) => some error
  | _ => none

def returned (ganglion : GanglionPlexoMulticast) (call : CallId) :
    Option IPAddress :=
  match ganglion.calls call with
  | some (.returned _ multicastAddress) => some multicastAddress
  | _ => none

theorem raised_eq_some {ganglion : GanglionPlexoMulticast} {call : CallId}
    {error : PlexoError} (raised : ganglion.raised call = some error) :
    ∃ name, ganglion.calls call = some (.raised name error) := by
  unfold GanglionPlexoMulticast.raised at raised
  split at raised
  · next name other found =>
      obtain ⟨⟩ := raised
      exact ⟨name, found⟩
  · cases raised

end GanglionPlexoMulticast

/-- An instance with its acquisitions in flight. -/
structure Acquiring where
  ganglion : GanglionPlexoMulticast
  acquisitions : List Acquisition

inductive AcquiringAction where
  /-- `_create_synapse_by_name` is called. -/
  | acquire (name : String) (call : CallId) (newProposalId : Nat)
  /-- The loop gets the exception that its call has ended with. -/
  | retry (acquisition : Acquisition) (call : CallId) (newProposalId : Nat)
  /-- The loop ends with an address, and a synapse is created on it. -/
  | createSynapse (acquisition : Acquisition) (neuron : Neuron)
  | other (input : Input)

def Input.isAcquisition : Input → Bool
  | .own (.prepare _ _ _) => true
  | .own (.createSynapse _ _) => true
  | _ => false

namespace Acquiring

def started (host : Host) (multicastCidr : IPNetwork)
    (instanceId numPeers : Nat) (filters : Filters) : Acquiring :=
  ⟨.started host multicastCidr instanceId numPeers filters, []⟩

/-- The start of a turn of the loop; it raises if there is a synapse. -/
def turn (host : Host) (acquiring : Acquiring) (acquisition : Acquisition)
    (newProposalId : Nat) : Option Acquiring :=
  if (acquiring.ganglion.registry.base.synapses acquisition.name).isSome then
    some acquiring
  else
    (acquiring.ganglion.act host
      (.prepare acquisition.call acquisition.name newProposalId)).map
        fun result => ⟨result.1, acquisition :: acquiring.acquisitions⟩

def leave (acquiring : Acquiring) (acquisition : Acquisition) : Acquiring :=
  { acquiring with acquisitions := acquiring.acquisitions.erase acquisition }

def note (given : Option (CallId × IPAddress)) (acquisition : Acquisition) :
    Acquisition :=
  match given with
  | some (call, multicastAddress) =>
      if acquisition.call = call then
        { acquisition with leases := multicastAddress :: acquisition.leases }
      else
        acquisition
  | none => acquisition

/-- The loop retries without a suspension after its call has raised; here other
steps may come in between. -/
def step (host : Host) (acquiring : Acquiring) :
    AcquiringAction → Option Acquiring
  | .acquire name call newProposalId =>
      acquiring.turn host ⟨name, call, []⟩ newProposalId
  | .retry acquisition call newProposalId =>
      if acquisition ∈ acquiring.acquisitions then
        match acquiring.ganglion.raised acquisition.call with
        | none => none
        | some error =>
            if error.isRetried then
              (acquiring.leave acquisition).turn host { acquisition with call }
                newProposalId
            else
              some (acquiring.leave acquisition)
      else
        none
  | .createSynapse acquisition neuron =>
      if acquisition ∈ acquiring.acquisitions ∧
          neuron.name = acquisition.name then
        (acquiring.ganglion.act host
          (.createSynapse acquisition.call neuron)).map fun result =>
            { acquiring.leave acquisition with ganglion := result.1 }
      else
        none
  | .other input =>
      if input.isAcquisition then
        none
      else
        (acquiring.ganglion.step host input).map fun result =>
          ⟨result.1, acquiring.acquisitions.map
            (note (acquiring.ganglion.gives input))⟩

/-- What a step is. -/
inductive Move (host : Host) (acquiring : Acquiring) :
    AcquiringAction → Acquiring → Prop where
  | refuse {name : String} {call : CallId} {newProposalId : Nat} :
      Move host acquiring (.acquire name call newProposalId) acquiring
  | acquire {name : String} {call : CallId} {newProposalId : Nat}
      {result : GanglionPlexoMulticast × List Output} :
      acquiring.ganglion.step host
        (.own (.prepare call name newProposalId)) = some result →
      Move host acquiring (.acquire name call newProposalId)
        ⟨result.1, ⟨name, call, []⟩ :: acquiring.acquisitions⟩
  | giveUp {acquisition : Acquisition} {call : CallId} {newProposalId : Nat}
      {error : PlexoError} :
      acquisition ∈ acquiring.acquisitions →
      acquiring.ganglion.raised acquisition.call = some error →
      error.isRetried = false ∨
        (acquiring.ganglion.registry.base.synapses
          acquisition.name).isSome →
      Move host acquiring (.retry acquisition call newProposalId)
        (acquiring.leave acquisition)
  | retry {acquisition : Acquisition} {call : CallId} {newProposalId : Nat}
      {error : PlexoError} {result : GanglionPlexoMulticast × List Output} :
      acquisition ∈ acquiring.acquisitions →
      acquiring.ganglion.raised acquisition.call = some error →
      acquiring.ganglion.step host
        (.own (.prepare call acquisition.name newProposalId)) = some result →
      Move host acquiring (.retry acquisition call newProposalId)
        ⟨result.1, { acquisition with call } ::
          acquiring.acquisitions.erase acquisition⟩
  | create {acquisition : Acquisition} {neuron : Neuron}
      {result : GanglionPlexoMulticast × List Output} :
      acquisition ∈ acquiring.acquisitions →
      neuron.name = acquisition.name →
      acquiring.ganglion.step host
        (.own (.createSynapse acquisition.call neuron)) = some result →
      Move host acquiring (.createSynapse acquisition neuron)
        { acquiring.leave acquisition with ganglion := result.1 }
  | other {input : Input} {result : GanglionPlexoMulticast × List Output} :
      input.isAcquisition = false →
      acquiring.ganglion.step host input = some result →
      Move host acquiring (.other input)
        ⟨result.1, acquiring.acquisitions.map
          (note (acquiring.ganglion.gives input))⟩

theorem move_of_step {host : Host} {acquiring next : Acquiring}
    {action : AcquiringAction}
    (taken : acquiring.step host action = some next) :
    Move host acquiring action next := by
  cases action with
  | acquire name call newProposalId =>
      simp only [step, turn] at taken
      split at taken
      · obtain ⟨⟩ := taken
        exact .refuse
      · obtain ⟨result, prepared, rfl⟩ := Option.map_eq_some_iff.mp taken
        exact .acquire prepared
  | retry acquisition call newProposalId =>
      simp only [step] at taken
      split at taken
      · next member =>
          split at taken
          · cases taken
          · next error raised =>
              split at taken
              · simp only [turn] at taken
                split at taken
                · next known =>
                    obtain ⟨⟩ := taken
                    exact .giveUp member raised (.inr known)
                · obtain ⟨result, prepared, rfl⟩ :=
                    Option.map_eq_some_iff.mp taken
                  exact .retry member raised prepared
              · next fatal =>
                  obtain ⟨⟩ := taken
                  exact .giveUp member raised (.inl (by simpa using fatal))
      · cases taken
  | createSynapse acquisition neuron =>
      simp only [step] at taken
      split at taken
      · next known =>
          obtain ⟨result, created, rfl⟩ := Option.map_eq_some_iff.mp taken
          exact .create known.1 known.2 created
      · cases taken
  | other input =>
      simp only [step] at taken
      split at taken
      · cases taken
      · next notAcquisition =>
          obtain ⟨result, stepped, rfl⟩ := Option.map_eq_some_iff.mp taken
          exact .other (by simpa using notAcquisition) stepped

theorem ganglion_of_step {host : Host} {acquiring next : Acquiring}
    {action : AcquiringAction}
    (taken : acquiring.step host action = some next) :
    next.ganglion = acquiring.ganglion ∨
      ∃ input result, acquiring.ganglion.step host input = some result ∧
        next.ganglion = result.1 := by
  cases move_of_step taken with
  | refuse => exact .inl rfl
  | acquire prepared => exact .inr ⟨_, _, prepared, rfl⟩
  | giveUp _ _ _ => exact .inl rfl
  | retry _ _ prepared => exact .inr ⟨_, _, prepared, rfl⟩
  | create _ _ created => exact .inr ⟨_, _, created, rfl⟩
  | other _ stepped => exact .inr ⟨_, _, stepped, rfl⟩

end Acquiring

def Attempt.isRunning : Attempt → Bool
  | .returned _ _ => false
  | .raised _ _ => false
  | _ => true

theorem Attempt.isRunning_settled (attempt : Attempt) :
    attempt.settled.isRunning = attempt.isRunning := by
  cases attempt <;> rfl

namespace GanglionPlexoMulticast

def Running (ganglion : GanglionPlexoMulticast) (call : CallId) : Prop :=
  ∃ attempt, ganglion.calls call = some attempt ∧ attempt.isRunning = true

theorem running_of_sameCalls {before after : GanglionPlexoMulticast}
    {call : CallId} (same : SameCalls before.calls after.calls)
    (running : after.Running call) : before.Running call := by
  obtain ⟨attempt, found, isRunning⟩ := running
  have settled := same call
  rw [found] at settled
  obtain ⟨earlier, foundEarlier, equal⟩ :=
    Option.map_eq_some_iff.mp settled.symm
  refine ⟨earlier, foundEarlier, ?_⟩
  rw [← Attempt.isRunning_settled, equal, Attempt.isRunning_settled]
  exact isRunning

theorem running_of_set {before after : GanglionPlexoMulticast}
    {call other : CallId} {earlier later : Attempt}
    (found : before.calls call = some earlier)
    (wasRunning : earlier.isRunning = true)
    (calls : after.calls = before.calls.set call later)
    (running : after.Running other) : before.Running other := by
  obtain ⟨attempt, foundLater, isRunning⟩ := running
  rw [calls] at foundLater
  rcases (PMap.set_eq_some_iff ..).mp foundLater with ⟨rfl, _⟩ | ⟨_, old⟩
  · exact ⟨earlier, found, wasRunning⟩
  · exact ⟨attempt, old, isRunning⟩

theorem running_of_step {host : Host} {ganglion : GanglionPlexoMulticast}
    {input : Input} {result : GanglionPlexoMulticast × List Output}
    {call : CallId} (taken : ganglion.step host input = some result)
    (running : result.1.Running call) :
    ganglion.Running call ∨
      ∃ name newProposalId, input = .own (.prepare call name newProposalId) := by
  have moved : ProposerMove ganglion result input := by
    cases input with
    | own action => exact proposerMove_of_act taken
    | receive message =>
        exact Option.some.inj taken ▸ proposerMove_of_react host ganglion message
  cases moved with
  | idle same _ => exact .inl (running_of_sameCalls same running)
  | prepare _ calls _ =>
      obtain ⟨attempt, found, isRunning⟩ := running
      rw [calls] at found
      rcases (PMap.set_eq_some_iff ..).mp found with ⟨rfl, _⟩ | ⟨_, old⟩
      · exact .inr ⟨_, _, rfl⟩
      · exact .inl ⟨attempt, old, isRunning⟩
  | startPreparationTimer found calls _ =>
      exact .inl (running_of_set found rfl calls running)
  | reject found _ calls _ => exact .inl (running_of_set found rfl calls running)
  | exhaust found _ _ calls _ =>
      exact .inl (running_of_set found rfl calls running)
  | choose found _ _ _ calls _ =>
      exact .inl (running_of_set found rfl calls running)
  | propose found calls _ => exact .inl (running_of_set found rfl calls running)
  | startProposalTimer found calls _ =>
      exact .inl (running_of_set found rfl calls running)
  | «return» found _ calls _ =>
      exact .inl (running_of_set found rfl calls running)
  | giveUp found calls _ => exact .inl (running_of_set found rfl calls running)

theorem not_running_of_raised {ganglion : GanglionPlexoMulticast}
    {call : CallId} {error : PlexoError}
    (raised : ganglion.raised call = some error) :
    ¬ ganglion.Running call := by
  intro running
  obtain ⟨name, found⟩ := raised_eq_some raised
  obtain ⟨attempt, running, isRunning⟩ := running
  rw [found] at running
  obtain ⟨⟩ := running
  cases isRunning

theorem createSynapse_of_step {host : Host} {ganglion : GanglionPlexoMulticast}
    {call : CallId} {neuron : Neuron}
    {result : GanglionPlexoMulticast × List Output}
    (taken : ganglion.step host (.own (.createSynapse call neuron)) =
      some result) :
    ∃ multicastAddress, ganglion.returned call = some multicastAddress ∧
      ¬ ganglion.Running call ∧
      result.1.registry = (ganglion.registry.createSynapseWithAddress host
        neuron neuron.name multicastAddress).2 := by
  have acted : ganglion.act host (.createSynapse call neuron) = some result :=
    taken
  cases ownStep_of_act acted with
  | @createSynapse _ _ proposal multicastAddress found same =>
      refine ⟨multicastAddress, ?_, ?_, rfl⟩
      · rw [returned, found]
      · intro running
        obtain ⟨attempt, running, isRunning⟩ := running
        rw [found] at running
        obtain ⟨⟩ := running
        cases isRunning

end GanglionPlexoMulticast

namespace Acquiring

def Owned (acquiring : Acquiring) : Prop :=
  ∀ call, acquiring.ganglion.Running call →
    ∃ acquisition ∈ acquiring.acquisitions, acquisition.call = call

theorem owned_started (host : Host) (multicastCidr : IPNetwork)
    (instanceId numPeers : Nat) (filters : Filters) :
    (started host multicastCidr instanceId numPeers filters).Owned := by
  intro call running
  obtain ⟨attempt, found, _⟩ := running
  cases found

@[simp] theorem note_call (given : Option (CallId × IPAddress))
    (acquisition : Acquisition) :
    (note given acquisition).call = acquisition.call := by
  unfold note
  split
  · split
    · rfl
    · rfl
  · rfl

theorem Owned.leave {acquiring : Acquiring} (owned : acquiring.Owned)
    {acquisition : Acquisition}
    (ended : ¬ acquiring.ganglion.Running acquisition.call) :
    (acquiring.leave acquisition).Owned := by
  intro call running
  obtain ⟨owner, member, rfl⟩ := owned call running
  refine ⟨owner, (List.mem_erase_of_ne ?_).mpr member, rfl⟩
  rintro rfl
  exact ended running

theorem Owned.prepare {acquiring : Acquiring} (owned : acquiring.Owned)
    {host : Host} {acquisition : Acquisition} {newProposalId : Nat}
    {result : GanglionPlexoMulticast × List Output}
    (prepared : acquiring.ganglion.step host
      (.own (.prepare acquisition.call acquisition.name newProposalId)) =
        some result) :
    Owned ⟨result.1, acquisition :: acquiring.acquisitions⟩ := by
  intro call running
  rcases GanglionPlexoMulticast.running_of_step prepared running with
    before | ⟨name, ballot, same⟩
  · obtain ⟨owner, member, owns⟩ := owned call before
    exact ⟨owner, List.mem_cons_of_mem _ member, owns⟩
  · obtain ⟨⟩ := same
    exact ⟨acquisition, List.mem_cons_self, rfl⟩

theorem Owned.step {host : Host} {acquiring next : Acquiring}
    {action : AcquiringAction} (owned : acquiring.Owned)
    (taken : acquiring.step host action = some next) : next.Owned := by
  cases move_of_step taken with
  | refuse => exact owned
  | @acquire name call newProposalId result prepared =>
      exact @Owned.prepare _ owned host ⟨name, call, []⟩ newProposalId result
        prepared
  | giveUp _ raised _ =>
      exact owned.leave (GanglionPlexoMulticast.not_running_of_raised raised)
  | @retry acquisition call newProposalId error result _ raised prepared =>
      have left := owned.leave
        (GanglionPlexoMulticast.not_running_of_raised raised)
      exact @Owned.prepare _ left host { acquisition with call } newProposalId
        result prepared
  | create _ _ created =>
      obtain ⟨_, _, ended, _⟩ :=
        GanglionPlexoMulticast.createSynapse_of_step created
      intro call running
      apply owned.leave ended call
      rcases GanglionPlexoMulticast.running_of_step created running with
        before | ⟨name, ballot, same⟩
      · exact before
      · cases same
  | @other input result notAcquisition stepped =>
      intro call running
      rcases GanglionPlexoMulticast.running_of_step stepped running with
        before | ⟨name, ballot, same⟩
      · obtain ⟨owner, member, owns⟩ := owned call before
        exact ⟨_, List.mem_map_of_mem member, (note_call ..).trans owns⟩
      · rw [same] at notAcquisition
        cases notAcquisition

end Acquiring

end Plexo
