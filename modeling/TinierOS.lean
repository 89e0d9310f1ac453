import TinierOS.Library.Ring
import TinierOS.Library.RingLists
import TinierOS.Library.FiniteRings
import TinierOS.Library.FirstIndex
import TinierOS.Library.Transition
import TinierOS.Library.Labelled
import TinierOS.Library.LinkedStack
import TinierOS.Library.Counting
import TinierOS.Library.Semaphore
import TinierOS.Library.Bytes
import TinierOS.Library.Avr
import TinierOS.Library.AvrCode
import TinierOS.Util.Rlist
import TinierOS.Util.Splicing
import TinierOS.Util.Sequences
import TinierOS.Util.Select
import TinierOS.Util.Find
import TinierOS.Util.Reverse
import TinierOS.Util.Argv
import TinierOS.Sched.Defs
import TinierOS.Sched.Invariant
import TinierOS.Sched.Queues
import TinierOS.Sched.Timeouts
import TinierOS.Sched.Levels
import TinierOS.Sched.Yield
import TinierOS.Sched.Entry
import TinierOS.Sched.Run
import TinierOS.Sched.Priorities
import TinierOS.Sched.Sleepers
import TinierOS.Sched.Deadline
import TinierOS.Sched.Bypass
import TinierOS.Sched.Selection
import TinierOS.Sched.Early
import TinierOS.Arch.Context
import TinierOS.Arch.Switching
import TinierOS.Arch.Startup
import TinierOS.Preempt.Defs
import TinierOS.Preempt.Atomic
import TinierOS.Preempt.HandOver
import TinierOS.Preempt.Serial
import TinierOS.Proc.Defs
import TinierOS.Proc.Tables
import TinierOS.Proc.Tasks
import TinierOS.Proc.Effect
import TinierOS.Proc.Rings
import TinierOS.Streams.Defs
import TinierOS.Streams.Effect
import TinierOS.Streams.Refcount
import TinierOS.Streams.Reserve
import TinierOS.Streams.Devices
import TinierOS.Streams.Terminal
import TinierOS.Streams.FileMap
import TinierOS.System.Defs
import TinierOS.System.Turns
import TinierOS.System.Effect
import TinierOS.System.Boot
import TinierOS.System.Threads
import TinierOS.System.Children
import TinierOS.System.Zombies
import TinierOS.System.History
import TinierOS.System.Single
import TinierOS.System.Processes
import TinierOS.System.Parents
import TinierOS.System.Reaping
import TinierOS.System.Lifetime
import TinierOS.System.Files
import TinierOS.System.Recycled
import TinierOS.System.Accounting
import TinierOS.System.Steps
import TinierOS.System.FileMaps
import TinierOS.System.Arguments
import TinierOS.System.Tids
import TinierOS.System.ThreadLog
import TinierOS.System.Joins
import TinierOS.Old.Pipe
import TinierOS.Old.PipeRuns
import TinierOS.Old.Waitset
import TinierOS.Old.CondVar
import TinierOS.Old.CondVarTurns
import TinierOS.Old.CondVarRing
import TinierOS.Old.CondVarRuns
import TinierOS.Old.Sockets
import TinierOS.Old.SocketSteps
import TinierOS.Old.SocketFiles
import TinierOS.Old.Ports
import TinierOS.Old.Connections
import TinierOS.Old.Peers
import TinierOS.Old.ConnectionRuns
import TinierOS.Old.ProcTable
import TinierOS.Old.ProcTree
import TinierOS.Old.FileTable
import TinierOS.Old.Adoption
import TinierOS.Old.FileCounts
import TinierOS.Old.Kernel
import TinierOS.Old.ProcStart
import TinierOS.Old.ProcTurns
import TinierOS.Old.Ptcbs
import TinierOS.Old.Opening
import TinierOS.Old.FileSteps
import TinierOS.Old.Living
import TinierOS.Old.Processes
import TinierOS.Old.ProcRuns
import TinierOS.Old.Lifecycle
import TinierOS.Old.PtcbTurns
import TinierOS.Old.FileTurns
import TinierOS.Old.FileRuns
import TinierOS.Old.Joining
import TinierOS.Old.Faults
import TinierOS.Old.Wakeups
import TinierOS.Old.KernelLock
import TinierOS.Old.KernelLockTurns
import TinierOS.Old.KernelLockRuns
import TinierOS.Old.ProcInfo
