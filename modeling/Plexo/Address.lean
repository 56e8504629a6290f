import Mathlib.Data.List.Nodup
import Mathlib.Data.Finset.Basic

/-!
# Addresses and networks

The part of the standard `ipaddress` module that the multicast ganglion relies
on: packed addresses and their inverse, the multicast test, and networks as
the sequence of their addresses.
-/

namespace Plexo

/-- The bytes of an address, most significant first. -/
abbrev Packed := List UInt8

/-- `IPv4Address` or `IPv6Address`. -/
inductive IPAddress where
  | v4 (a b c d : UInt8)
  | v6 (octets : Vector UInt8 16)
  deriving DecidableEq

namespace IPAddress

/-- The attribute `packed`. -/
def packed : IPAddress → Packed
  | .v4 a b c d => [a, b, c, d]
  | .v6 octets => octets.toList

/-- The attribute `is_multicast`: `224.0.0.0/4` and `ff00::/8`. -/
def isMulticast : IPAddress → Bool
  | .v4 a _ _ _ => 224 ≤ a && a ≤ 239
  | .v6 octets => octets[0] == 255

end IPAddress

/-- `ipaddress.ip_address` on bytes: four bytes make an IPv4 address, sixteen
an IPv6 address, and any other length raises `ValueError`. -/
def ipAddress : Packed → Option IPAddress
  | [a, b, c, d] => some (.v4 a b c d)
  | octets =>
      if length : octets.length = 16 then
        some (.v6 ⟨octets.toArray, by simpa using length⟩)
      else
        none

@[simp] theorem ipAddress_packed (address : IPAddress) :
    ipAddress address.packed = some address := by
  cases address with
  | v4 a b c d => rfl
  | v6 octets =>
      have length : octets.toList.length = 16 := by simp
      unfold IPAddress.packed ipAddress
      split
      · next shape => simp [shape] at length
      · simp [Vector.toList]

theorem packed_injective : Function.Injective IPAddress.packed := by
  intro left right same
  have decoded := congrArg ipAddress same
  simpa using decoded

theorem packed_of_ipAddress {octets : Packed} {address : IPAddress}
    (decoded : ipAddress octets = some address) : address.packed = octets := by
  unfold ipAddress at decoded
  split at decoded
  · cases decoded
    rfl
  · split at decoded
    · cases decoded
      simp [IPAddress.packed, Vector.toList]
    · simp at decoded

/-- `IPv4Network` or `IPv6Network`, as the sequence of addresses that iteration
over it yields. -/
structure IPNetwork where
  addresses : List IPAddress
  nodup : addresses.Nodup

/-- `address in network`. -/
instance : Membership IPAddress IPNetwork :=
  ⟨fun network address => address ∈ network.addresses⟩

/-- The network of the first `size` addresses of the block `a.b.c.0/24`. -/
def IPNetwork.block (a b c : UInt8) (size : Nat) (fits : size ≤ 256) :
    IPNetwork :=
  { addresses := (List.range size).map fun index => .v4 a b c (.ofNat index)
    nodup := by
      apply List.Nodup.map_on ?_ List.nodup_range
      intro left leftMember right rightMember same
      have leftBound := List.mem_range.mp leftMember
      have rightBound := List.mem_range.mp rightMember
      have octets : UInt8.ofNat left = UInt8.ofNat right := by
        injection same
      have values := congrArg UInt8.toNat octets
      simp only [UInt8.toNat_ofNat'] at values
      omega }

/-- `239.0.0.0/26`, for concrete runs. -/
def IPNetwork.sample : IPNetwork :=
  .block 239 0 0 64 (by decide)

theorem IPNetwork.mem_def {network : IPNetwork} {address : IPAddress} :
    address ∈ network ↔ address ∈ network.addresses := Iff.rfl

end Plexo
