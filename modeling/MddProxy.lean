import MddProxy.Dispatch.IdleWorkers
import MddProxy.Dispatch.Shutdown
import MddProxy.Dispatch.ExactlyOnce
import MddProxy.Dispatch.OneEvent
import MddProxy.Dispatch.PoolSize
import MddProxy.Dispatch.Joining
import MddProxy.Dispatch.WakeUp
import MddProxy.Dispatch.FanOut
import MddProxy.Dispatch.Accounting
import MddProxy.Dispatch.Quiescence
import MddProxy.Dispatch.Termination
import MddProxy.Interleaving.Rest
import MddProxy.Config.Forwarding
import MddProxy.Config.Rendering
import MddProxy.Config.References
import MddProxy.Config.Ports
import MddProxy.Config.Readiness
import MddProxy.Config.Isolation
import MddProxy.Config.BufferSizes
import MddProxy.Config.Wiring
import MddProxy.Config.EventBuffer
import MddProxy.Management.MainLoop
import MddProxy.Management.Statistics
import MddProxy.Management.Rates
import MddProxy.Management.Unlocked
import MddProxy.Management.Signals
import MddProxy.Management.Batch
import MddProxy.Management.StopDescriptors
import MddProxy.Kernel.Descriptors
import MddProxy.Management.Connection
import MddProxy.Boost.Attributes
import MddProxy.Dispatch.Turns
import MddProxy.Interleaving.LockOrder
import MddProxy.Management.Locks
import MddProxy.Management.LogStream
import MddProxy.Management.Startup
import MddProxy.Management.Program
