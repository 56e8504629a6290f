import Plexo.IpLease
import Plexo.Library.Transition

/-!
# Any sequence of calls of a lease manager

The lease flags and the set of available addresses stay in step under every
sequence of calls, so that `get_address` gives out each address once until it
is released.
-/

namespace Plexo

open PersistentMap Transition

namespace IpLeaseManager

/-- A call of a method; `popped` is the element that `set.pop` takes. -/
inductive Call where
  | leaseAddress (address : IPAddress)
  | releaseAddress (address : IPAddress)
  | addressIsLeased (address : IPAddress)
  | getAddress (popped : IPAddress)
  deriving DecidableEq

/-- What a method returns. -/
inductive Answer where
  | address (address : IPAddress)
  | leased (leased : Bool)
  deriving DecidableEq

/-- `set.pop` can take `popped`. -/
def CanPop (manager : IpLeaseManager) (popped : IPAddress) : Prop :=
  manager.availableIps = ∅ ∨ popped ∈ manager.availableIps

instance (manager : IpLeaseManager) (popped : IPAddress) :
    Decidable (manager.CanPop popped) :=
  inferInstanceAs (Decidable (_ ∨ _))

def perform (manager : IpLeaseManager) :
    Call → Option (Except PlexoError Answer × IpLeaseManager)
  | .leaseAddress address =>
      let (result, after) := manager.leaseAddress address
      some (result.map .address, after)
  | .releaseAddress address =>
      let (result, after) := manager.releaseAddress address
      some (result.map .address, after)
  | .addressIsLeased address =>
      some ((manager.addressIsLeased address).map .leased, manager)
  | .getAddress popped =>
      if manager.CanPop popped then
        let (result, after) := manager.getAddress popped
        some (result.map .address, after)
      else
        none

def step (manager : IpLeaseManager) (call : Call) : Option IpLeaseManager :=
  (manager.perform call).map (·.2)

/-- A call of `get_address` that returns the address. -/
def HandsOut (manager : IpLeaseManager) (call : Call) (address : IPAddress) :
    Prop :=
  ∃ popped, call = .getAddress popped ∧
    (manager.getAddress popped).1 = .ok address

/-- A call of `release_address` that returns. -/
def Releases (manager : IpLeaseManager) (call : Call) (address : IPAddress) :
    Prop :=
  call = .releaseAddress address ∧
    (manager.releaseAddress address).1 = .ok address

/-- What a call of `get_address` comes to in a consistent manager. -/
theorem getAddress_cases {manager : IpLeaseManager} {popped : IPAddress}
    (consistent : manager.Consistent) (canPop : manager.CanPop popped) :
    (manager.availableIps = ∅ ∧
        manager.getAddress popped = (.error .ipsExhausted, manager)) ∨
      (manager.ipLeaseMap popped = some false ∧
        manager.getAddress popped = manager.leaseAddress popped) := by
  by_cases none : manager.availableIps = ∅
  · exact .inl ⟨none, by rw [getAddress, if_pos none]⟩
  · have free := (consistent popped).mp (canPop.resolve_left none)
    refine .inr ⟨free, ?_⟩
    rw [getAddress, if_neg none, leaseAddress_free free, leaseAddress_free]
    · simp
    · exact free

theorem leaseAddress_error {manager : IpLeaseManager} {address : IPAddress}
    {error : PlexoError} (raised : (manager.leaseAddress address).1 = .error error) :
    (manager.leaseAddress address).2 = manager := by
  unfold leaseAddress at raised ⊢
  split
  · rfl
  · rfl
  · next free => simp [free] at raised

theorem releaseAddress_error {manager : IpLeaseManager} {address : IPAddress}
    {error : PlexoError}
    (raised : (manager.releaseAddress address).1 = .error error) :
    (manager.releaseAddress address).2 = manager := by
  unfold releaseAddress at raised ⊢
  split
  · rfl
  · rfl
  · next leased => simp [leased] at raised

theorem releaseAddress_lookup (manager : IpLeaseManager)
    (address other : IPAddress) :
    (manager.releaseAddress address).2.ipLeaseMap other =
      if other = address ∧ (manager.ipLeaseMap address).isSome then some false
      else manager.ipLeaseMap other := by
  unfold releaseAddress
  split <;> rename_i flag
  · simp [flag]
  · by_cases same : other = address
    · simp [flag, same]
    · simp [same]
  · simp [flag, PMap.set_apply]

inductive Move (manager : IpLeaseManager) : Call → IpLeaseManager → Prop where
  | leaseAddress (address : IPAddress) :
      Move manager (.leaseAddress address) (manager.leaseAddress address).2
  | releaseAddress (address : IPAddress) :
      Move manager (.releaseAddress address) (manager.releaseAddress address).2
  | addressIsLeased (address : IPAddress) :
      Move manager (.addressIsLeased address) manager
  | getAddress {popped : IPAddress} :
      manager.CanPop popped →
      Move manager (.getAddress popped) (manager.getAddress popped).2

theorem move_of_step {manager after : IpLeaseManager} {call : Call}
    (taken : manager.step call = some after) : manager.Move call after := by
  obtain ⟨⟨result, left⟩, performed, rfl⟩ := Option.map_eq_some_iff.mp taken
  cases call with
  | leaseAddress address =>
      obtain ⟨⟩ := performed
      exact .leaseAddress address
  | releaseAddress address =>
      obtain ⟨⟩ := performed
      exact .releaseAddress address
  | addressIsLeased address =>
      obtain ⟨⟩ := performed
      exact .addressIsLeased address
  | getAddress popped =>
      simp only [perform] at performed
      split at performed
      · next canPop =>
          obtain ⟨⟩ := performed
          exact .getAddress canPop
      · cases performed

theorem Consistent.move {manager after : IpLeaseManager} {call : Call}
    (consistent : manager.Consistent) (moved : manager.Move call after) :
    after.Consistent := by
  cases moved with
  | leaseAddress address => exact consistent.leaseAddress address
  | releaseAddress address => exact consistent.releaseAddress address
  | addressIsLeased address => exact consistent
  | @getAddress popped canPop =>
      rcases getAddress_cases consistent canPop with
        ⟨_, exhausted⟩ | ⟨_, leased⟩
      · rw [exhausted]
        exact consistent
      · rw [leased]
        exact consistent.leaseAddress popped

theorem Move.sameNetwork {manager after : IpLeaseManager} {call : Call}
    (moved : manager.Move call after) (consistent : manager.Consistent)
    (address : IPAddress) :
    (after.ipLeaseMap address).isSome =
      (manager.ipLeaseMap address).isSome := by
  cases moved with
  | leaseAddress other => exact leaseAddress_isSome manager other address
  | releaseAddress other =>
      rw [releaseAddress_lookup]
      split
      · next both => rw [both.1, both.2]; rfl
      · rfl
  | addressIsLeased other => rfl
  | @getAddress popped canPop =>
      rcases getAddress_cases consistent canPop with
        ⟨_, exhausted⟩ | ⟨_, leased⟩
      · rw [exhausted]
      · rw [leased]
        exact leaseAddress_isSome manager popped address

theorem Move.leased {manager after : IpLeaseManager} {call : Call}
    {address : IPAddress} (moved : manager.Move call after)
    (consistent : manager.Consistent)
    (leased : manager.ipLeaseMap address = some true)
    (kept : ¬ manager.Releases call address) :
    after.ipLeaseMap address = some true := by
  cases moved with
  | leaseAddress other =>
      rw [leaseAddress_lookup]
      split
      · rfl
      · exact leased
  | releaseAddress other =>
      rw [releaseAddress_lookup, if_neg]
      · exact leased
      · rintro ⟨rfl, _⟩
        exact kept ⟨rfl, by rw [releaseAddress_leased leased]⟩
  | addressIsLeased other => exact leased
  | @getAddress popped canPop =>
      rcases getAddress_cases consistent canPop with
        ⟨_, exhausted⟩ | ⟨_, given⟩
      · rw [exhausted]
        exact leased
      · rw [given, leaseAddress_lookup]
        split
        · rfl
        · exact leased

/-- The flags and the set are in step, for the network that the manager was
made for. -/
structure Manages (manager : IpLeaseManager) (ipCidr : IPNetwork) : Prop where
  consistent : manager.Consistent
  network : ∀ address, (manager.ipLeaseMap address).isSome = true ↔
    address ∈ ipCidr

theorem manages_init (ipCidr : IPNetwork) : (init ipCidr).Manages ipCidr := by
  refine ⟨consistent_init ipCidr, ?_⟩
  intro address
  rw [IPNetwork.mem_def]
  by_cases inside : address ∈ ipCidr.addresses
  · simp [init, inside]
  · simp [init, inside]

theorem Manages.move {manager after : IpLeaseManager} {ipCidr : IPNetwork}
    {call : Call} (manages : manager.Manages ipCidr)
    (moved : manager.Move call after) : after.Manages ipCidr := by
  refine ⟨manages.consistent.move moved, ?_⟩
  intro address
  rw [moved.sameNetwork manages.consistent, manages.network]

theorem Manages.path {manager finish : IpLeaseManager} {ipCidr : IPNetwork}
    {steps : List (IpLeaseManager × Call)} (manages : manager.Manages ipCidr)
    (path : Path step manager steps finish) : finish.Manages ipCidr := by
  apply path.always manages
  intro before call after managesBefore taken
  exact managesBefore.move (move_of_step taken)

theorem Manages.leased_of_path {manager finish : IpLeaseManager}
    {ipCidr : IPNetwork} {steps : List (IpLeaseManager × Call)}
    {address : IPAddress} (manages : manager.Manages ipCidr)
    (path : Path step manager steps finish)
    (leased : manager.ipLeaseMap address = some true)
    (kept : Along (fun manager call => ¬ manager.Releases call address) steps) :
    finish.ipLeaseMap address = some true := by
  induction path with
  | refl => exact leased
  | snoc before taken induction =>
      obtain ⟨here, earlier⟩ := along_cons.mp kept
      exact (move_of_step taken).leased (manages.path before).consistent
        (induction earlier) here

/-- What a lease manager guarantees for each of its calls. -/
structure Allocates (manager : IpLeaseManager) (ipCidr : IPNetwork) : Prop where
  available : ∀ address, address ∈ manager.availableIps ↔
    manager.addressIsLeased address = .ok false
  fresh : ∀ popped, manager.CanPop popped →
    ∀ address, (manager.getAddress popped).1 = .ok address →
      manager.addressIsLeased address = .ok false ∧
        (manager.getAddress popped).2.addressIsLeased address = .ok true
  exhausted : ∀ popped, manager.CanPop popped →
    ((manager.getAddress popped).1 = .error .ipsExhausted ↔
      ∀ address ∈ ipCidr, manager.addressIsLeased address = .ok true)
  nothingElse : ∀ popped, manager.CanPop popped →
    ∀ error, (manager.getAddress popped).1 = .error error →
      error = .ipsExhausted
  unchanged : ∀ call error after,
    manager.perform call = some (.error error, after) → after = manager

theorem addressIsLeased_eq_ok {manager : IpLeaseManager} {address : IPAddress}
    {leased : Bool} : manager.addressIsLeased address = .ok leased ↔
      manager.ipLeaseMap address = some leased := by
  unfold addressIsLeased
  cases manager.ipLeaseMap address with
  | none => simp
  | some flag => simp

theorem map_eq_error {α β : Type} {result : Except PlexoError α} {f : α → β}
    {error : PlexoError} (raised : result.map f = .error error) :
    result = .error error := by
  cases result with
  | error other => simpa [Except.map] using raised
  | ok value => cases raised

theorem Manages.allocates {manager : IpLeaseManager} {ipCidr : IPNetwork}
    (manages : manager.Manages ipCidr) : manager.Allocates ipCidr where
  available := by
    intro address
    rw [manages.consistent address, addressIsLeased_eq_ok]
  fresh := by
    intro popped canPop address given
    simp only [addressIsLeased_eq_ok]
    rcases getAddress_cases manages.consistent canPop with
      ⟨_, exhausted⟩ | ⟨free, leased⟩
    · rw [exhausted] at given
      cases given
    · rw [leased, leaseAddress_free free] at given ⊢
      obtain ⟨⟩ := given
      exact ⟨free, PMap.set_self ..⟩
  exhausted := by
    intro popped canPop
    simp only [addressIsLeased_eq_ok]
    rcases getAddress_cases manages.consistent canPop with
      ⟨none, exhausted⟩ | ⟨free, leased⟩
    · rw [exhausted]
      refine ⟨fun _ address inside => ?_, fun _ => rfl⟩
      have known := (manages.network address).mpr inside
      obtain ⟨flag, found⟩ := Option.isSome_iff_exists.mp known
      cases flag with
      | true => exact found
      | false =>
          have available := (manages.consistent address).mpr found
          rw [none] at available
          cases available
    · rw [leased, leaseAddress_free free]
      refine ⟨nofun, fun all => ?_⟩
      have both := all popped ((manages.network popped).mp (by simp [free]))
      rw [free] at both
      cases both
  nothingElse := by
    intro popped canPop error raised
    rcases getAddress_cases manages.consistent canPop with
      ⟨_, exhausted⟩ | ⟨free, leased⟩
    · rw [exhausted] at raised
      cases raised
      rfl
    · rw [leased, leaseAddress_free free] at raised
      cases raised
  unchanged := by
    intro call error after performed
    cases call with
    | leaseAddress address =>
        obtain ⟨raised, rfl⟩ := Prod.mk.inj (Option.some.inj performed)
        exact leaseAddress_error (map_eq_error raised)
    | releaseAddress address =>
        obtain ⟨raised, rfl⟩ := Prod.mk.inj (Option.some.inj performed)
        exact releaseAddress_error (map_eq_error raised)
    | addressIsLeased address =>
        exact (Prod.mk.inj (Option.some.inj performed)).2.symm
    | getAddress popped =>
        simp only [perform] at performed
        split at performed
        · next canPop =>
            obtain ⟨raised, rfl⟩ := Prod.mk.inj (Option.some.inj performed)
            rcases getAddress_cases manages.consistent canPop with
              ⟨_, exhausted⟩ | ⟨free, leased⟩
            · rw [exhausted]
            · rw [leased, leaseAddress_free free] at raised
              cases raised
        · cases performed

/-- In every sequence of calls from the start, every call behaves as it should,
and an address that is given out twice was released in between. -/
theorem allocation (ipCidr : IPNetwork) (steps : List (IpLeaseManager × Call))
    (manager : IpLeaseManager)
    (path : Path step (init ipCidr) steps manager) :
    manager.Allocates ipCidr ∧
      ∀ newer between older later earlier address,
        steps = newer ++ later :: (between ++ earlier :: older) →
        earlier.1.HandsOut earlier.2 address →
        later.1.HandsOut later.2 address →
        ∃ entry ∈ between, entry.1.Releases entry.2 address := by
  refine ⟨((manages_init ipCidr).path path).allocates, ?_⟩
  rintro newer between older ⟨later, _⟩ ⟨earlier, _⟩ address rfl
    ⟨popped, rfl, given⟩ ⟨again, rfl, givenAgain⟩
  obtain ⟨_, upToLater, laterTaken, _⟩ := path.split
  obtain ⟨after, upToEarlier, earlierTaken, inBetween⟩ := upToLater.split
  by_contra none
  have manages := (manages_init ipCidr).path upToEarlier
  have managesLater := (manages_init ipCidr).path upToLater
  have moved := move_of_step earlierTaken
  have leased : after.ipLeaseMap address = some true := by
    cases moved with
    | getAddress canPop =>
        exact addressIsLeased_eq_ok.mp
          (manages.allocates.fresh popped canPop address given).2
  have still := (manages.move moved).leased_of_path inBetween leased
    fun entry member releases => none ⟨entry, member, releases⟩
  cases move_of_step laterTaken with
  | getAddress canPop =>
      have free := (managesLater.allocates.fresh again canPop address
        givenAgain).1
      rw [addressIsLeased_eq_ok, still] at free
      cases free

/-- An address is given out, released, and given out again. -/
theorem allocation_reused :
    ∃ steps manager, Path step (init .sample) steps manager ∧
      manager.Allocates .sample ∧
      manager.addressIsLeased (.v4 239 0 0 7) = .ok true := by
  obtain ⟨manager, path, leased⟩ := path_of_any
    (show (exec step (init .sample)
      [.getAddress (.v4 239 0 0 7), .leaseAddress (.v4 239 0 0 7),
        .releaseAddress (.v4 239 0 0 7), .getAddress (.v4 239 0 0 7)]).any
          (·.addressIsLeased (.v4 239 0 0 7) = .ok true) = true by
      decide +kernel)
  exact ⟨_, manager, path, (allocation .sample _ manager path).1,
    of_decide_eq_true leased⟩

end IpLeaseManager

end Plexo
