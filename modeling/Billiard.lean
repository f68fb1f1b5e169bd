import Billiard.Data.Transition
import Billiard.Data.Tiling
import Billiard.Data.Bisect
import Billiard.Data.Dict
import Billiard.Data.Assoc
import Billiard.Data.Chunk
import Billiard.Heap.Basic
import Billiard.Heap.Index
import Billiard.Heap.Layout
import Billiard.Heap.WellFormed
import Billiard.Heap.Session
import Billiard.Synchronize.SemLock
import Billiard.Synchronize.Condition
import Billiard.Data.Tally
import Billiard.Synchronize.Sleepers
import Billiard.Synchronize.Notices
import Billiard.Data.CInt
import Billiard.Synchronize.RLock
import Billiard.Synchronize.Event
import Billiard.Data.Gaps
import Billiard.Compat.CloseFds
import Billiard.Connection.Challenge
import Billiard.Connection.Authkey
import Billiard.Connection.Transfer
import Billiard.Data.BigEndian
import Billiard.Connection.Message
import Billiard.Connection.EndOfFile
import Billiard.Connection.RecvInto
import Billiard.Connection.Refusal
import Billiard.Data.Arrival
import Billiard.Data.Custody
import Billiard.Data.History
import Billiard.Data.Lane
import Billiard.Data.Lines
import Billiard.Data.Observation
import Billiard.Data.Pairing
import Billiard.Data.Saturation
import Billiard.Data.Visit
import Billiard.Einfo.Traceback
import Billiard.Heap.Allocation
import Billiard.Heap.FailedArena
import Billiard.Heap.Forks
import Billiard.Managers.Server
import Billiard.Managers.ServeClient
import Billiard.Managers.Creation
import Billiard.Managers.Refcount
import Billiard.Managers.Wrapping
import Billiard.Pool.ApplyResult
import Billiard.Pool.MapResult
import Billiard.Pool.IMapIterator
import Billiard.Pool.Job
import Billiard.Pool.Supervision
import Billiard.Pool.Join
import Billiard.Pool.Failure
import Billiard.Pool.Workloop
import Billiard.Pool.Acknowledge
import Billiard.Pool.Delivery
import Billiard.Pool.Mapping
import Billiard.Pool.Callbacks
import Billiard.Pool.Consumers
import Billiard.Pool.Credit
import Billiard.Pool.TimeoutHandler
import Billiard.Pool.FinishAtShutdown
import Billiard.Pool.TaskHandler
import Billiard.Pool.ImapFailure
import Billiard.Pool.JoinSteps
import Billiard.Pool.Ledger
import Billiard.Pool.LostRecord
import Billiard.Pool.Putlock
import Billiard.Pool.Registry
import Billiard.Pool.Roster
import Billiard.Pool.Resize
import Billiard.Pool.Resolution
import Billiard.Pool.RestartCharges
import Billiard.Pool.RestartLimit
import Billiard.Pool.Restarts
import Billiard.Pool.Scan
import Billiard.Pool.Shrink
import Billiard.Pool.ShrinkOutcome
import Billiard.Pool.Shutdown
import Billiard.Pool.Submission
import Billiard.Pool.Terminate
import Billiard.Pool.TimeoutRun
import Billiard.Pool.TimeoutRace
import Billiard.Pool.Unsignalled
import Billiard.Pool.WorkerExit
import Billiard.Pool.WorkerIndex
import Billiard.Pool.WorkerLost
import Billiard.Popen.Exitcode
import Billiard.Popen.ProcessObject
import Billiard.Queues.Queue
import Billiard.Queues.Conservation
import Billiard.Queues.Joinable
import Billiard.Queues.SimpleQueue
import Billiard.Queues.PipeEnds
import Billiard.Queues.Serialisation
import Billiard.Queues.Unfinished
import Billiard.Reduction.ResourceSharer
import Billiard.Synchronize.Semaphore
import Billiard.Synchronize.Lock
import Billiard.Synchronize.SemaphoreTracker
import Billiard.Synchronize.SemaphoreNames
import Billiard.Windows.ProcessTree
import Billiard.Connection.PipeConnection
import Billiard.Popen.Identities
import Billiard.Managers.ProxyConnection
import Billiard.Popen.ForkServers
