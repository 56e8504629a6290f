import Plexo.Library.PersistentMap
import Plexo.Library.Directory
import Plexo.Library.Transition
import Plexo.Library.Voting
import Plexo.Library.Watching
import Plexo.Library.Tags
import Plexo.Library.Leads
import Plexo.Library.Dues
import Plexo.Multicast.Network
import Plexo.Multicast.PromiseGuarantee
import Plexo.Multicast.PromiseReports
import Plexo.Multicast.Dedicated
import Plexo.Multicast.Learner
import Plexo.Multicast.LeaseLeaks
import Plexo.Multicast.Atomicity
import Plexo.Multicast.ValueChoice
import Plexo.Multicast.Rendezvous
import Plexo.Multicast.Provenance
import Plexo.Multicast.Reserved
import Plexo.Multicast.AsWired
import Plexo.Multicast.Heartbeats
import Plexo.Multicast.Membership
import Plexo.Multicast.Punctual
import Plexo.Multicast.CleanUp
import Plexo.Multicast.Crosstalk
import Plexo.Multicast.Uncontended
import Plexo.Multicast.Startup
import Plexo.IpAllocation
import Plexo.Synapse.RecvLoops
import Plexo.Ganglion.SynapseCalls
import Plexo.Ganglion.OneSynapse
import Plexo.Ganglion.NameNeurons
import Plexo.Ganglion.NeuronNames
import Plexo.Plexus.Pairs
import Plexo.Plexus.Filtering
import Plexo.Plexus.Errors
import Plexo.Plexus.IgnoredNeurons
import Plexo.Plexus.Termination
import Plexo.Plexus.Mesh
import Plexo.Plexus.Trails
import Plexo.Plexus.Quiescence
import Plexo.Plexus.Loops
import Plexo.Plexus.Spreading
import Plexo.Plexus.Worth
import Plexo.Plexus.Copies
import Plexo.Ganglion.Inproc
import Plexo.Ganglion.ReceiveLoop
import Plexo.Ganglion.TypedDelivery
