import Lupine.Foundation.LittleEndian
import Lupine.Foundation.Blocks
import Lupine.Foundation.Patches
import Lupine.Foundation.Machine
import Lupine.Foundation.Boxes
import Lupine.Foundation.BufferHistory
import Lupine.Foundation.Sweep
import Lupine.Foundation.WriteLog
import Lupine.Foundation.UniqueMatch
import Lupine.Foundation.Gather
import Lupine.Foundation.Spans
import Lupine.Foundation.History
import Lupine.Foundation.OrderedTable
import Lupine.Transport.Framing
import Lupine.Transport.DataSource
import Lupine.Transport.Message
import Lupine.Transport.RequestIds
import Lupine.Transport.DeferredWrites
import Lupine.Transport.InboundStream
import Lupine.Transport.WindowHold
import Lupine.Cuda
import Lupine.Client.EventTable
import Lupine.Client.EventQuery
import Lupine.Client.EventRecords
import Lupine.Copy.HostToDevice
import Lupine.Copy.Rectangles
import Lupine.Copy.DeviceToHost
import Lupine.Copy.AsyncStaging
import Lupine.Copy.StagingReuse
import Lupine.Copy.StagingWindow
import Lupine.Mapped.Coherence
import Lupine.Server.DtohCopies
import Lupine.Server.StreamOrder
import Lupine.Server.LaneOrder
import Lupine.Server.KernelParams
import Lupine.Server.Dispatch
import Lupine.Server.HostCallbacks
import Lupine.Server.SyncCalls
import Lupine.Server.Observation
import Lupine.Foundation.PointerTable
import Lupine.Graph.Resources
import Lupine.Graph.StreamCapture
import Lupine.Graph.ExplicitGraphs
import Lupine.Graph.LaunchDelivery
import Lupine.Server.IpcBroker
import Lupine.Routing.Routes
import Lupine.Routing.DevicePointers
import Lupine.Routing.DeviceTable
import Lupine.Client.PointerAttributes
import Lupine.Client.PrimaryContexts
import Lupine.Mapped.Snapshot
import Lupine.Mapped.DirtyQueue
import Lupine.Mapped.HostMirror
import Lupine.Mapped.DemandFetch
import Lupine.Mapped.HostRanges
import Lupine.Mapped.LaunchArguments
import Lupine.Graph.MemcpyNode
import Lupine.Foundation.Reader
import Lupine.Transport.Words
import Lupine.Graph.Queries
import Lupine.Transport.JitOutputs
import Lupine.Client.LibraryLoad
import Lupine.Routing.LaneContext
import Lupine.Copy.Teardown
import Lupine.Cublas.Requests
import Lupine.Cublas.HandleState
import Lupine.Foundation.Text
import Lupine.Routing.PciIdentity
import Lupine.Foundation.ReadThrough
import Lupine.Client.AttributeCaches
import Lupine.Foundation.Replicas
import Lupine.Client.ModuleReplicas
import Lupine.Foundation.Attempts
import Lupine.Hostwide.Install
import Lupine.Hostwide.Rollback
import Lupine.Foundation.SlotTable
import Lupine.Interposer.LibraryHandles
import Lupine.Interposer.CommRegistry
import Lupine.Foundation.Totals
import Lupine.Nvml.InitCounts
import Lupine.Nvml.DeviceHandles
import Lupine.Foundation.Gate
import Lupine.Checkpoint.Gates
import Lupine.Foundation.Pipe
import Lupine.Sidecar.TensorStreams
import Lupine.Sidecar.Protocol
import Lupine.Sidecar.Handles
import Lupine.Foundation.Deposits
import Lupine.Sidecar.ValueTrees
import Lupine.Sidecar.Arguments
import Lupine.Sidecar.Results
import Lupine.Sidecar.WorkerTurn
import Lupine.Foundation.Cut
import Lupine.Routing.Urls
import Lupine.Routing.ServerAddresses
import Lupine.Routing.AdapterAddresses
import Lupine.Routing.LauncherHosts
import Lupine.Hostwide.Transaction
import Lupine.Foundation.Unwinding
import Lupine.Launcher.Commands
import Lupine.Launcher.Servers
import Lupine.Launcher.RunCleanup
import Lupine.Launcher.AttachRollback
import Lupine.Launcher.Cleanup
import Lupine.Graph.HostNodeOrder
import Lupine.Routing.ContextStack
import Lupine.Copy.HostToDeviceAsync
import Lupine.Foundation.PendingWork
import Lupine.Copy.ViaClient
import Lupine.Foundation.NameClaims
import Lupine.Launcher.PortLease
import Lupine.Foundation.CompareExchange
import Lupine.Graph.CaptureScratch
import Lupine.Transport.OptionLists
import Lupine.Transport.JitOptions
import Lupine.Foundation.Runs
import Lupine.Mapped.FlushBatches
import Lupine.Mapped.FetchSpans
import Lupine.Transport.WriteAll
import Lupine.Foundation.Passage
import Lupine.Transport.StagedReads
import Lupine.Transport.ReadRuns
import Lupine.Foundation.SourceFirst
import Lupine.Codegen.Operations
import Lupine.Codegen.Fragments
import Lupine.Codegen.Requests
import Lupine.Codegen.Responses
import Lupine.Codegen.Calls
import Lupine.Foundation.Procedures
import Lupine.Foundation.MachineMemory
import Lupine.Foundation.Processor
import Lupine.Foundation.X86
import Lupine.Foundation.AArch64
import Lupine.Interposer.X86Stubs
import Lupine.Interposer.AArch64Stubs
import Lupine.Interposer.ExportTables
import Lupine.Checkpoint.ConnectionChild
import Lupine.Checkpoint.ServerShutdown
