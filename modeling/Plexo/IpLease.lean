import Plexo.Exceptions
import Plexo.Library.PersistentMap

/-!
# The lease manager

`IpLeaseManager` keeps a lease flag for every address of its network and, next
to it, the set of addresses that are still available.  Methods return the
outcome together with the manager they leave behind.
-/

namespace Plexo

open PersistentMap

/-- `IpLeaseManager`. -/
structure IpLeaseManager where
  ipLeaseMap : PMap IPAddress Bool
  availableIps : Finset IPAddress

namespace IpLeaseManager

/-- `IpLeaseManager.__init__`. -/
def init (ipCidr : IPNetwork) : IpLeaseManager :=
  { ipLeaseMap := fun address =>
      if address ∈ ipCidr.addresses then some false else none
    availableIps := ⟨ipCidr.addresses, ipCidr.nodup⟩ }

/-- `lease_address`. -/
def leaseAddress (manager : IpLeaseManager) (address : IPAddress) :
    Except PlexoError IPAddress × IpLeaseManager :=
  match manager.ipLeaseMap address with
  | none => (.error (.ipNotFound address), manager)
  | some true => (.error (.ipLeaseExists address), manager)
  | some false =>
      (.ok address,
        { ipLeaseMap := manager.ipLeaseMap.set address true
          availableIps := manager.availableIps.erase address })

/-- `release_address`. -/
def releaseAddress (manager : IpLeaseManager) (address : IPAddress) :
    Except PlexoError IPAddress × IpLeaseManager :=
  match manager.ipLeaseMap address with
  | none => (.error (.ipNotFound address), manager)
  | some false => (.error (.ipNotLeased address), manager)
  | some true =>
      (.ok address,
        { ipLeaseMap := manager.ipLeaseMap.set address false
          availableIps := insert address manager.availableIps })

/-- `address_is_leased`. -/
def addressIsLeased (manager : IpLeaseManager) (address : IPAddress) :
    Except PlexoError Bool :=
  match manager.ipLeaseMap address with
  | none => .error (.ipNotFound address)
  | some leased => .ok leased

/-- `get_address`.  `set.pop` removes an arbitrary element, so the caller of
the model names the element that is popped. -/
def getAddress (manager : IpLeaseManager) (popped : IPAddress) :
    Except PlexoError IPAddress × IpLeaseManager :=
  if manager.availableIps = ∅ then
    (.error .ipsExhausted, manager)
  else
    leaseAddress { manager with
      availableIps := manager.availableIps.erase popped } popped

/-- Lease a list of addresses one after the other, as the constructor of the
multicast ganglion does with its reserved block. -/
def leaseAll (manager : IpLeaseManager) (addresses : List IPAddress) :
    IpLeaseManager :=
  addresses.foldl (fun current address => (current.leaseAddress address).2) manager

/-- The available addresses are exactly those whose lease flag is unset. -/
def Consistent (manager : IpLeaseManager) : Prop :=
  ∀ address, address ∈ manager.availableIps ↔
    manager.ipLeaseMap address = some false

theorem consistent_init (ipCidr : IPNetwork) : (init ipCidr).Consistent := by
  intro address
  have available : address ∈ (init ipCidr).availableIps ↔
      address ∈ ipCidr.addresses := Iff.rfl
  rw [available]
  by_cases inside : address ∈ ipCidr.addresses
  · simp [init, inside]
  · simp [init, inside]

theorem leaseAddress_free {manager : IpLeaseManager} {address : IPAddress}
    (free : manager.ipLeaseMap address = some false) :
    manager.leaseAddress address =
      (.ok address,
        { ipLeaseMap := manager.ipLeaseMap.set address true
          availableIps := manager.availableIps.erase address }) := by
  simp [leaseAddress, free]

theorem leaseAddress_leased {manager : IpLeaseManager} {address : IPAddress}
    (leased : manager.ipLeaseMap address = some true) :
    manager.leaseAddress address =
      (.error (.ipLeaseExists address), manager) := by
  simp [leaseAddress, leased]

theorem releaseAddress_leased {manager : IpLeaseManager} {address : IPAddress}
    (leased : manager.ipLeaseMap address = some true) :
    manager.releaseAddress address =
      (.ok address,
        { ipLeaseMap := manager.ipLeaseMap.set address false
          availableIps := insert address manager.availableIps }) := by
  simp [releaseAddress, leased]

theorem leaseAddress_lookup (manager : IpLeaseManager)
    (address other : IPAddress) :
    (manager.leaseAddress address).2.ipLeaseMap other =
      if other = address ∧ (manager.ipLeaseMap address).isSome then some true
      else manager.ipLeaseMap other := by
  unfold leaseAddress
  split <;> rename_i flag
  · simp [flag]
  · by_cases same : other = address
    · simp [flag, same]
    · simp [same]
  · simp [flag, PMap.set_apply]

/-- The address that is given out is the one that was popped from a nonempty
set. -/
theorem getAddress_ok {manager : IpLeaseManager} {popped address : IPAddress}
    (given : (manager.getAddress popped).1 = .ok address) :
    manager.availableIps ≠ ∅ ∧ popped = address := by
  unfold getAddress at given
  split at given
  · cases given
  · next available =>
      refine ⟨available, ?_⟩
      unfold leaseAddress at given
      split at given
      · cases given
      · cases given
      · cases given
        rfl

theorem leaseAddress_isSome (manager : IpLeaseManager)
    (address other : IPAddress) :
    ((manager.leaseAddress address).2.ipLeaseMap other).isSome =
      (manager.ipLeaseMap other).isSome := by
  rw [leaseAddress_lookup]
  split
  · next both => rw [both.1, both.2]; rfl
  · rfl

theorem Consistent.leaseAddress {manager : IpLeaseManager}
    (consistent : manager.Consistent) (address : IPAddress) :
    (manager.leaseAddress address).2.Consistent := by
  cases flag : manager.ipLeaseMap address with
  | none => simpa [IpLeaseManager.leaseAddress, flag] using consistent
  | some leased =>
      cases leased with
      | true => simpa [IpLeaseManager.leaseAddress, flag] using consistent
      | false =>
          rw [leaseAddress_free flag]
          intro other
          by_cases same : other = address
          · simp [same]
          · simpa [same, PMap.set_of_ne] using consistent other

theorem Consistent.releaseAddress {manager : IpLeaseManager}
    (consistent : manager.Consistent) (address : IPAddress) :
    (manager.releaseAddress address).2.Consistent := by
  cases flag : manager.ipLeaseMap address with
  | none => simpa [IpLeaseManager.releaseAddress, flag] using consistent
  | some leased =>
      cases leased with
      | false => simpa [IpLeaseManager.releaseAddress, flag] using consistent
      | true =>
          rw [releaseAddress_leased flag]
          intro other
          by_cases same : other = address
          · simp [same]
          · simpa [same, PMap.set_of_ne] using consistent other

theorem getAddress_of_canPop {manager : IpLeaseManager} {popped : IPAddress}
    (consistent : manager.Consistent)
    (canPop : manager.availableIps = ∅ ∨ popped ∈ manager.availableIps) :
    (manager.getAddress popped).1 =
      if manager.availableIps = ∅ then .error .ipsExhausted else .ok popped := by
  unfold getAddress
  split
  · rfl
  · next available =>
      have free := (consistent popped).mp (canPop.resolve_left available)
      simp [leaseAddress, free]

end IpLeaseManager

end Plexo
