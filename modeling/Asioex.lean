import Asioex.SemaphoreFairness
import Asioex.TryLock
import Asioex.CancelledWaits
import Asioex.NotifyAll
import Asioex.Notifications
import Asioex.PairAtomicity
import Asioex.SpuriousWakeups
import Asioex.CopyStream
import Asioex.AwaitablePromise
import Asioex.CoroutineFrame
import Asioex.ForChannel
import Asioex.CircularBuffer
import Asioex.CircularBufferFailures
import Asioex.GuardOwnership
import Asioex.SingleThreadedLatch
import Asioex.MutexWakeups
import Asioex.Reentrancy
import Asioex.RepeatedRelease
import Asioex.BilistNode
import Asioex.FrameAllocator
import Asioex.WaitOpAllocation
import Asioex.SemaphoreRing
import Asioex.Linearization
import Asioex.TransactionProgress
import Asioex.LatchReset
import Asioex.ReadRounds
import Asioex.MutexProgress
import Asioex.RedirectCancellation
import Asioex.SemaphoreFailures
import Asioex.ValueChannel
import Asioex.MutexOvertaking
import Asioex.Bots
import Asioex.LongRunning
import Asioex.CopyPipe
import Asioex.TransferAtomicity
import Asioex.BufferCost
import Asioex.LostWakeups
