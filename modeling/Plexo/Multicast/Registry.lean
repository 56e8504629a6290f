import Plexo.Ganglion.External
import Plexo.IpLease
import Plexo.Multicast.Schema
import Plexo.Synapse.Epgm

/-!
# Synapses on multicast addresses

The part of `GanglionPlexoMulticast` that knows which synapse is on which
address, and the operations that create a synapse on an address or move it to
another one.  They are the commit step of the protocol in
`Plexo.Multicast.Consensus`, and the only code that touches this state next to
`get_address`.

The critical sections behind `_synapses_lock` contain no `await`, so the lock
is never contended and each operation runs without a suspension.
-/

namespace Plexo

open PersistentMap

structure Registry where
  base : GanglionExternalBase
  /-- The synapse objects; an identity that was never given out maps to an
  arbitrary one. -/
  objects : SynapseId → SynapseZmqPlexoPubSubEPGM
  nextObject : SynapseId
  ipLeaseManager : IpLeaseManager
  reservedAddresses : List IPAddress
  synapsesByAddress : PMap IPAddress SynapseId

/-- The values of `ReservedMulticastAddress`. -/
def ProtocolNeuron.reservedIndex : ProtocolNeuron → Nat
  | .heartbeat => 0
  | .preparation => 1
  | .promise => 2
  | .rejection => 3
  | .proposal => 4
  | .approval => 5

namespace Registry

/-- The share of `__init__`: the first 32 addresses are reserved. -/
def init (multicastCidr : IPNetwork) (filters : Filters) : Registry :=
  let reserved := multicastCidr.addresses.take 32
  { base := { filters }
    objects := default
    nextObject := 0
    ipLeaseManager := (IpLeaseManager.init multicastCidr).leaseAll reserved
    reservedAddresses := reserved
    synapsesByAddress := PMap.empty }

/-- `try_lease_address`: an address that is leased already is accepted unless
a known synapse is on it. -/
def tryLeaseAddress (registry : Registry)
    (multicastAddress : IPAddress) :
    Except PlexoError Unit × Registry :=
  match registry.ipLeaseManager.leaseAddress multicastAddress with
  | (.ok _, manager) => (.ok (), { registry with ipLeaseManager := manager })
  | (.error (.ipLeaseExists address), _) =>
      if (registry.synapsesByAddress multicastAddress).isSome then
        (.error (.ipLeaseExists address), registry)
      else
        (.ok (), registry)
  | (.error error, _) => (.error error, registry)

def insertSynapse (registry : Registry) (name : String)
    (multicastAddress : IPAddress) (synapse : SynapseZmqPlexoPubSubEPGM) :
    Registry :=
  { registry with
    objects := Function.update registry.objects registry.nextObject synapse
    nextObject := registry.nextObject + 1
    base := { registry.base with
      synapses := registry.base.synapses.set name registry.nextObject }
    synapsesByAddress :=
      registry.synapsesByAddress.set multicastAddress registry.nextObject }

/-- `create_synapse_with_address`. -/
def createSynapseWithAddress (host : Host) (registry : Registry)
    (neuron : Neuron) (name : String) (multicastAddress : IPAddress) :
    Except PlexoError SynapseId × Registry :=
  match registry.base.synapses name with
  | some _ => (.error (.synapseExists name), registry)
  | none =>
      match registry.tryLeaseAddress multicastAddress with
      | (.error error, unchanged) => (.error error, unchanged)
      | (.ok _, leased) =>
          match SynapseZmqPlexoPubSubEPGM.init host neuron multicastAddress
              [] [] with
          | .error error => (.error error, leased)
          | .ok synapse =>
              (.ok leased.nextObject,
                leased.insertSynapse name multicastAddress synapse)

def setObject (registry : Registry) (synapse : SynapseId)
    (object : SynapseZmqPlexoPubSubEPGM) : Registry :=
  { registry with objects := Function.update registry.objects synapse object }

/-- The critical section of `update_synapse_with_address`. -/
def moveSynapse (registry : Registry) (synapse : SynapseId)
    (currentMulticastAddress multicastAddress : IPAddress) :
    Registry :=
  { registry with
    synapsesByAddress :=
      (registry.synapsesByAddress.set multicastAddress synapse).discard
        currentMulticastAddress }

/-- `update_synapse_with_address`. -/
def updateSynapseWithAddress (host : Host) (registry : Registry)
    (name : String) (multicastAddress : IPAddress) :
    Except PlexoError SynapseId × Registry :=
  match registry.base.synapses name with
  | none => (.error (.synapseDoesNotExist name), registry)
  | some synapse =>
      let current := (registry.objects synapse).multicastAddress
      if current = multicastAddress then
        (.ok synapse, registry)
      else
        match registry.tryLeaseAddress multicastAddress with
        | (.error error, unchanged) => (.error error, unchanged)
        | (.ok _, leased) =>
            match (leased.objects synapse).update host multicastAddress with
            | (.error error, object) =>
                (.error error, leased.setObject synapse object)
            | (.ok _, object) =>
                let moved := (leased.setObject synapse object).moveSynapse
                  synapse current multicastAddress
                match moved.ipLeaseManager.releaseAddress current with
                | (.error error, _) => (.error error, moved)
                | (.ok _, manager) =>
                    (.ok synapse, { moved with ipLeaseManager := manager })

/-- `create_or_update_synapse_with_address`. -/
def createOrUpdateSynapseWithAddress (host : Host)
    (registry : Registry) (neuron : Neuron) (name : String)
    (multicastAddress : IPAddress) :
    Except PlexoError SynapseId × Registry :=
  match registry.base.synapses name with
  | some _ => registry.updateSynapseWithAddress host name multicastAddress
  | none => registry.createSynapseWithAddress host neuron name multicastAddress

/-- `create_synapse_with_reserved_address`. -/
def createSynapseWithReservedAddress (host : Host)
    (registry : Registry) (neuron : ProtocolNeuron) :
    Except PlexoError SynapseId × Registry :=
  match registry.reservedAddresses[neuron.reservedIndex]? with
  | none => (.error .indexError, registry)
  | some multicastAddress =>
      registry.createSynapseWithAddress host neuron.toNeuron
        neuron.toNeuron.name multicastAddress

/-- The effect of `adapt` for a protocol neuron whose synapse exists; the
reaction that is attached is identified by the index of the neuron. -/
def adaptProtocolNeuron (registry : Registry) (neuron : ProtocolNeuron) :
    Registry :=
  match registry.base.synapses neuron.toNeuron.name with
  | none => registry
  | some synapse =>
      if registry.base.capable neuron.toNeuron then
        { registry.setObject synapse
            ((registry.objects synapse).addReactants [neuron.reservedIndex]) with
          base := registry.base.updateTransmitter neuron.toNeuron synapse }
      else
        registry

/-- Create the synapses of protocol neurons, up to the first failure. -/
def createReserved (host : Host) (registry : Registry) :
    List ProtocolNeuron → Except PlexoError Unit × Registry
  | [] => (.ok (), registry)
  | neuron :: neurons =>
      match registry.createSynapseWithReservedAddress host neuron with
      | (.error error, failed) => (.error error, failed)
      | (.ok _, created) => createReserved host created neurons

/-- What `startup` is to leave behind: every protocol neuron has a synapse on
its reserved address with its reaction attached. -/
def startup (host : Host) (registry : Registry) :
    Except PlexoError Unit × Registry :=
  match registry.createReserved host ProtocolNeuron.all with
  | (.error error, failed) => (.error error, failed)
  | (.ok _, created) =>
      (.ok (), ProtocolNeuron.all.foldl adaptProtocolNeuron created)

end Registry

end Plexo
