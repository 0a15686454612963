import ProofboundRuntime.Agreement.Receipt
import ProofboundRuntime.Diagnose.Publish
import ProofboundRuntime.Connector.BackPressure
import ProofboundRuntime.Launcher.RoundTrip
import ProofboundRuntime.Launcher.Run
import ProofboundRuntime.Linux.SeccompMeaning
import ProofboundRuntime.Linux.Inventory
import ProofboundRuntime.Publish.Single
import ProofboundRuntime.Publish.Pair
import ProofboundRuntime.Connector.ResolutionSound
import ProofboundRuntime.Connector.DnsName
import ProofboundRuntime.Connector.DnsWire
import ProofboundRuntime.Linux.CandidatePath
import ProofboundRuntime.Scaffold.Faithful
import ProofboundRuntime.Scaffold.Closure
import ProofboundRuntime.Linux.Capture
import ProofboundRuntime.Linux.TraceeString
import ProofboundRuntime.Linux.Counters
import ProofboundRuntime.Scaffold.ElfRange
import ProofboundRuntime.Sdk.RunResult
import ProofboundRuntime.Accept.ReleaseDigest
import ProofboundRuntime.Core.RuntimeLibraries
import ProofboundRuntime.Core.PolicyBytes
import ProofboundRuntime.Linux.Bootstrap
import ProofboundRuntime.Connector.Metered
