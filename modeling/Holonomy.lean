import Holonomy.Runtime.Drain
import Holonomy.Runtime.ObserverDelivery
import Holonomy.Runtime.EngineGateClosed
import Holonomy.Runtime.ExecutionLease
import Holonomy.Supervisor.AfterTheEnd
import Holonomy.EventLoop.AdmissionOrder
import Holonomy.Supervisor.SinkTrace
import Holonomy.Images.NewcRoundTrip
import Holonomy.Fuse.Exactness
import Holonomy.Modules.PlanLimits
import Holonomy.Modules.LoadedReads
import Holonomy.Network.ResolvedAddress
import Holonomy.Streams.ReadableDemand
import Holonomy.Streams.WritableOrder
import Holonomy.Streams.NodeReadableOrder
import Holonomy.Network.RouterSends
import Holonomy.Network.RouterReleases
import Holonomy.Service.StoreRuns
import Holonomy.Service.NativeOutputRuns
import Holonomy.Process.QuotaSteps
import Holonomy.Network.WebBodyOnce
import Holonomy.Network.ResponseReaders
import Holonomy.HttpServer.WebSocketTrace
import Holonomy.HostNetwork.Atomic
import Holonomy.Kernel.CanonicalJson
import Holonomy.Inspector.FrameDecoder
import Holonomy.Kernel.SchemaRuns
import Holonomy.Inspector.BodyRuns
import Holonomy.HoloUv.EnvironmentRuns
import Holonomy.Service.MutationRuns
import Holonomy.Process.EventDelivery
import Holonomy.Process.PreReadyEvents
import Holonomy.Fuse.Names
import Holonomy.Supervisor.ExecRequests
import Holonomy.Kernel.ResourceRegistry
import Holonomy.Fs.ReadStream
import Holonomy.Service.LogPages
import Holonomy.NodeCompat.Events
import Holonomy.Modules.PackagePatterns
import Holonomy.NodeCompat.Utf8
import Holonomy.NodeCompat.Paths
import Holonomy.NodeCompat.Encoding
import Holonomy.Supervisor.ExecGate
