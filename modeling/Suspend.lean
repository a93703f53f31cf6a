import Suspend.Channel.LifeCycle
import Suspend.Channel.Delivery
import Suspend.Channel.WakerCell
import Suspend.Channel.Published
import Suspend.Park.Cell
import Suspend.Park.Condvar
import Suspend.Park.Futex
import Suspend.Park.Notify
import Suspend.Stream.Generator
import Suspend.Channel.SendOnce
import Suspend.Channel.Task
import Suspend.Channel.Flush
import Suspend.Shared.Lender
import Suspend.Shared.Exclusive
import Suspend.Shared.LifeCycle
import Suspend.Pool.Accounting
import Suspend.Pool.Drain
import Suspend.Shared.FirstPoll
import Suspend.Shared.Parting
import Suspend.Shared.Resume
import Suspend.Shared.Scoped
import Suspend.Shared.Abandon
import Suspend.Shared.Into
import Suspend.Shared.Rounds
import Suspend.Shared.Wakers
import Suspend.Pool.Scope
import Suspend.Pool.Shutdown
import Suspend.Cell.Maybe
import Suspend.Channel.Leftovers
import Suspend.Listen.Handles
import Suspend.Channel.Refusal
import Suspend.Channel.Timeout
import Suspend.Channel.Stream
import Suspend.Channel.Try
import Suspend.Channel.Cancel
import Suspend.Channel.Hangup
import Suspend.Stream.Unwind
import Suspend.Park.Init
import Suspend.Listen.Guards
import Suspend.Pool.SpawnFailure
import Suspend.Shared.BorrowCount
import Suspend.Channel.Duplex
import Suspend.Channel.Progress
import Suspend.Channel.Mailbox
import Suspend.Listen.Timed
import Suspend.Pool.Executor
import Suspend.Thread.Nested
import Suspend.Shared.Blocking
import Suspend.Pool.Close
