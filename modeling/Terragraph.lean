import Terragraph.Topology.LinkRefs
import Terragraph.Topology.RenameRoundTrip
import Terragraph.HighAvailability.Stabilization
import Terragraph.PrefixAlloc.Persisted
import Terragraph.Controller.UniquePrefixes
import Terragraph.Config.Effect
import Terragraph.VppFib.Reconciliation
import Terragraph.Ignition.Candidates
import Terragraph.Airtime.BestPop
import Terragraph.Algorithms.NetworkChannels
import Terragraph.Algorithms.NetworkGolay
import Terragraph.Ptptc.Node
import Terragraph.Ptptc.GpsSync
import Terragraph.Bgp.Fibs
import Terragraph.Driver.Codebook
import Terragraph.Driver.FwParam
import Terragraph.Minion.LinkAuthorization
import Terragraph.Minion.SelfIgnition
import Terragraph.Esmc.Process
import Terragraph.Algorithms.LinkAngles
import Terragraph.Stats.TailAgent
import Terragraph.Chaperone.Tunnels
import Terragraph.Stats.NmsPublisher
import Terragraph.Algorithms.OccSolver
