import Suspend.Channel.Program
import Suspend.Transition.Core
import Mathlib.Tactic.Common

/-!
# The two endpoints of a channel

The sending side is a `SendOnce`, a `Sender` or a `TaskFn`, the receiving side
the matching `ReceiveOnce`, `Receiver` or `JoinTask`.  Each side is either
between calls, holding a handle, or inside a call.  A label begins a call on
one side or lets the call in progress there make its next access, so that a
run is any interleaving of the accesses of the two sides.
-/

namespace Suspend.Channel

open Suspend.Transition

universe u v

variable {T : Type u} {W : Type v}

/-- Which constructor made the pair of endpoints. -/
inductive Kind where
  | sendOnce
  | channel
  | taskFn
  deriving DecidableEq, Repr

/-- The `finalize` argument of the sending side's calls. -/
def Kind.finalize : Kind → Bool
  | sendOnce => true
  | channel => false
  | taskFn => true

/-! ## The sending side -/

/-- The sending side between calls.  `detached` is a `Sender` whose pointer is
`None`; a `flush` knows whether the `Sender` it borrows still has its pointer,
whether it has one itself, and the value it has not yet written. -/
inductive SenderHandle (T : Type u) where
  | connected
  | detached
  | flush (owner channel : Bool) (value : Option T)
  | gone
  deriving DecidableEq, Repr

/-- The sending side: between calls, or inside one. -/
inductive Sender (T : Type u) (W : Type v) where
  | idle (handle : SenderHandle T)
  | trySending (pc : WritePc T W)
  | flushWriting (owner : Bool) (waker : W) (pc : WritePc T W)
  | flushing (owner : Bool) (waker : W) (pc : FlushPc W)
  | dropping (pc : DropPc W)
  | freeing (next : SenderHandle T)
  deriving DecidableEq, Repr

/-- Calls on the sending side: `try_send`, `TaskFn::run` of a closure that
returns or panics, `send`, and polling or dropping the `Flush` it returned. -/
inductive SendOp (T : Type u) (W : Type v) where
  | trySend (value : T)
  | run (result : Option T)
  | send (value : T)
  | poll (waker : W)
  | dropFlush
  | drop
  deriving DecidableEq, Repr

/-- Begin a write of `value`. -/
def World.beginWrite (value : T) (m : World T W) : World T W :=
  { m with writing := some (value, false) }

/-- A value handed to the sending side. -/
def World.pass (value : T) (m : World T W) : World T W :=
  { m with passed := m.passed ++ [value] }

/-- A value given back in an `Err`. -/
def World.giveBack (value : Option T) (m : World T W) : World T W :=
  { m with returned := m.returned ++ value.toList }

/-- A value dropped by its holder. -/
def World.discard (value : Option T) (m : World T W) : World T W :=
  { m with discarded := m.discarded ++ value.toList }

/-- A `Flush` poll begins. -/
def World.beginFlush (m : World T W) : World T W :=
  { m with senderPoll := none, wokenSinceFlush := [] }

/-- A `Flush` poll has returned `Pending`. -/
def World.pendFlush (waker : W) (m : World T W) : World T W :=
  { m with senderPoll := some waker }

/-- The sending side itself is being dropped, and waits for nothing. -/
def World.leaveFlush (m : World T W) : World T W :=
  { m with senderPoll := none }

/-- A write has returned. -/
def World.endWrite (result : WriteResult T) (m : World T W) : World T W :=
  { m with
    writing := none
    writes := m.writes ++ (m.writing.map fun write => (write.1, write.2, result)).toList }

def World.panic (m : World T W) : World T W :=
  { m with panicked := true }

namespace Sender

/-- Begin a call on the sending side.  Calls that touch no memory end at once. -/
def begin (kind : Kind) (m : World T W) :
    SenderHandle T → SendOp T W → Option (World T W × Sender T W)
  | .connected, .trySend value =>
      if kind = .taskFn then none
      else some ((m.pass value).beginWrite value, trySending (.load value none))
  | .detached, .trySend value =>
      some ((m.pass value).giveBack (some value), idle .detached)
  | .connected, .run (some value) =>
      if kind = .taskFn then
        some ((m.pass value).beginWrite value, trySending (.load value none))
      else none
  | .connected, .run none =>
      -- the closure panics: `TaskGuard::drop`
      if kind = .taskFn then some (m.leaveFlush, dropping .lock) else none
  | .connected, .send value =>
      if kind = .taskFn then none
      else some (m.pass value, idle (.flush (kind = .channel) true (some value)))
  | .detached, .send value => some (m.pass value, idle (.flush false false (some value)))
  | .flush owner true (some value), .poll waker =>
      some (m.beginFlush.beginWrite value, flushWriting owner waker (.load value (some waker)))
  | .flush owner false (some value), .poll _ =>
      -- `self.channel.take().unwrap()` panics, and unwinding drops the value
      some (m.panic.discard (some value), idle (.flush owner false none))
  | .flush owner true none, .poll waker =>
      some (m.beginFlush, flushing owner waker (.load waker))
  | .flush owner false none, .poll _ => some (m, idle (.flush owner false none))
  | .flush owner channel value, .dropFlush =>
      if kind = .channel then
        some (m.discard value, idle (if owner then .connected else .detached))
      else if channel then some ((m.discard value).leaveFlush, dropping .lock)
      else some (m.discard value, idle .gone)
  | .connected, .drop => some (m.leaveFlush, dropping .lock)
  | .detached, .drop => some (m, idle .gone)
  | _, _ => none

/-- The end of `try_send` and of `TaskFn::run`. -/
def finishTrySend (kind : Kind) (m : World T W) :
    WriteResult T → World T W × Sender T W
  | .ok => (m, idle (if kind = .channel then .connected else .gone))
  | .err value dropped =>
      match kind with
      | .channel => (m.giveBack value, if dropped then freeing .detached else idle .connected)
      | .sendOnce => (m.giveBack value, freeing .gone)
      | .taskFn => (m.discard value, freeing .gone)
  | .panic => (m.panic, idle (if kind = .channel then .detached else .gone))

/-- The end of the `Flush` poll that writes the value. -/
def finishFlushWrite (kind : Kind) (owner : Bool) (waker : W) (m : World T W) :
    WriteResult T → World T W × Sender T W
  | .ok => (m.pendFlush waker, idle (.flush owner true none))
  | .err value dropped =>
      (m.giveBack value,
        if kind.finalize && dropped then freeing (.flush owner false none)
        else idle (.flush owner true none))
  | .panic => (m.panic, idle (.flush owner false none))

/-- The end of a later `Flush` poll. -/
def finishFlush (kind : Kind) (owner : Bool) (waker : W) (m : World T W) :
    PollResult T → World T W × Sender T W
  | .pending => (m.pendFlush waker, idle (.flush owner true none))
  | .ready value dropped =>
      (m.giveBack value,
        if kind.finalize && dropped then freeing (.flush owner false none)
        else idle (.flush owner true none))
  | .panic => (m.panic, idle (.flush owner false none))

/-- The end of a drop of the sending side. -/
def finishDrop (m : World T W) (last : Bool) : World T W × Sender T W :=
  ({ m with senderDropped := true }, if last then freeing .gone else idle .gone)

/-- The next access of the call in progress. -/
def step (kind : Kind) (spurious : Bool) (m : World T W) :
    Sender T W → Option (World T W × Sender T W)
  | idle _ => none
  | trySending pc =>
      match pc.step kind.finalize spurious m with
      | (m, .goto pc) => some (m, trySending pc)
      | (m, .ret result) => some (finishTrySend kind (m.endWrite result) result)
  | flushWriting owner waker pc =>
      match pc.step kind.finalize spurious m with
      | (m, .goto pc) => some (m, flushWriting owner waker pc)
      | (m, .ret result) => some (finishFlushWrite kind owner waker (m.endWrite result) result)
  | flushing owner waker pc =>
      match pc.step kind.finalize spurious m with
      | (m, .goto pc) => some (m, flushing owner waker pc)
      | (m, .ret result) => some (finishFlush kind owner waker m result)
  | dropping pc =>
      match pc.step true m with
      | (m, .goto pc) => some (m, dropping pc)
      | (m, .ret last) => some (finishDrop m last)
  | freeing next => some (m.dealloc, idle next)

end Sender

/-! ## The receiving side -/

/-- The receiving side between calls; `detached` is a handle whose pointer has
been taken. -/
inductive ReceiverHandle where
  | connected
  | detached
  | gone
  deriving DecidableEq, Repr

/-- The receiving call in progress.  The blocking calls read once without a
waker, then poll with the thread's waker, and the one with a timeout reads once
more without a waker when its park has timed out. -/
inductive ReceiveCall (W : Type v) where
  | poll (waker : W)
  | tryRecv
  | recvFirst (waker : W)
  | recv (waker : W)
  | timeoutFirst (waker : W)
  | timeout (waker : W)
  | timeoutLast
  | cancel
  deriving DecidableEq, Repr

/-- The receiving side: between calls, inside one, or parked by a blocking one. -/
inductive Receiver (T : Type u) (W : Type v) where
  | idle (handle : ReceiverHandle)
  | reading (call : ReceiveCall W) (pc : ReadPc T W)
  | parked (call : ReceiveCall W)
  | dropping (next : ReceiverHandle) (pc : DropPc W)
  | freeing (next : ReceiverHandle)
  deriving DecidableEq, Repr

/-- Calls on the receiving side. -/
inductive RecvOp (W : Type v) where
  | poll (waker : W)
  | tryRecv
  | recv (waker : W)
  | recvTimeout (waker : W)
  | cancel
  | drop
  deriving DecidableEq, Repr

/-- A receiving call begins that is not a poll. -/
def World.beginReceive (m : World T W) : World T W :=
  { m with receiverPoll := none }

/-- A receiving poll begins. -/
def World.beginPoll (m : World T W) : World T W :=
  { m with receiverPoll := none, lastPoll := none, wokenSinceReceive := [] }

/-- A receiving poll has returned `Pending`. -/
def World.pendPoll (waker : W) (m : World T W) : World T W :=
  { m with receiverPoll := some waker, lastPoll := some waker }

/-- A receiving call has reported that there is no further value. -/
def World.reportEnd (m : World T W) : World T W :=
  { m with ends := m.ends ++ [(m.published, m.received)] }

/-- A receiving call returns `value`. -/
def World.deliver (value : Option T) (m : World T W) : World T W :=
  if value.isNone then m.reportEnd else m

namespace Receiver

/-- Begin a poll of the channel with a waker. -/
def beginPoll (call : ReceiveCall W) (waker : W) (m : World T W) : World T W × Receiver T W :=
  (m.beginPoll, reading call (.load (some waker) false))

/-- Begin a read without a waker. -/
def beginRead (call : ReceiveCall W) (m : World T W) : World T W × Receiver T W :=
  (m.beginReceive, reading call (.load none false))

/-- Begin a call on the receiving side.  A detached handle answers at once. -/
def begin (kind : Kind) (m : World T W) :
    ReceiverHandle → RecvOp W → Option (World T W × Receiver T W)
  | .connected, .poll waker => some (beginPoll (.poll waker) waker m)
  | .connected, .tryRecv => some (beginRead .tryRecv m)
  | .connected, .recv waker => some (beginRead (.recvFirst waker) m)
  | .connected, .recvTimeout waker => some (beginRead (.timeoutFirst waker) m)
  | .connected, .cancel =>
      if kind = .taskFn then none
      else some (m.beginReceive, reading .cancel (.load none true))
  | .connected, .drop => some (m.beginReceive, dropping .gone .lock)
  | .detached, .poll _ => some (m.reportEnd, idle .detached)
  | .detached, .tryRecv => some (m.reportEnd, idle .detached)
  | .detached, .recv _ =>
      some (m.reportEnd, idle (if kind = .channel then .detached else .gone))
  | .detached, .recvTimeout _ => some (m.reportEnd, idle .detached)
  | .detached, .cancel => if kind = .taskFn then none else some (m, idle .gone)
  | .detached, .drop => some (m, idle .gone)
  | .gone, _ => none

/-- What a `ReceiveOnce` or a `JoinTask` does with a result: it closes the
channel, unless the sender has already done so. -/
def closeWith (next : ReceiverHandle) (dropped : Bool) : Receiver T W :=
  if dropped then freeing next else dropping next .lock

/-- What a `Receiver` does with a result: it keeps the channel, unless the
sender has dropped. -/
def keepUnless (dropped : Bool) : Receiver T W :=
  if dropped then freeing .detached else idle .connected

/-- A polling call returns `Ready`. -/
def finishPoll (kind : Kind) (dropped : Bool) : Receiver T W :=
  match kind with
  | .channel => keepUnless dropped
  | .sendOnce => closeWith .detached dropped
  -- `JoinTask::poll` does not close the channel
  | .taskFn => if dropped then freeing .detached else idle .detached

/-- A non-blocking receive returns `Ready`. -/
def finishTry (kind : Kind) (dropped : Bool) : Receiver T W :=
  if kind = .channel then keepUnless dropped else closeWith .detached dropped

/-- A blocking receive returns; `recv` and `join` consume the handle. -/
def finishRecv (kind : Kind) (dropped : Bool) : Receiver T W :=
  if kind = .channel then keepUnless dropped else closeWith .gone dropped

/-- A blocking receive with a timeout returns.  `Receiver::wait_next_timeout`
does not put its pointer back when it has a value. -/
def finishTimeout (kind : Kind) (value : Option T) (dropped : Bool) : Receiver T W :=
  if dropped then freeing .detached
  else if value.isSome then
    if kind = .channel then idle .detached else dropping .detached .lock
  else idle .connected

/-- The handle left by a call that panics: all but `Receiver::poll_next` have
taken the pointer before they read. -/
def afterPanic (kind : Kind) : ReceiveCall W → Receiver T W
  | .poll _ => idle (if kind = .channel then .connected else .detached)
  | .recvFirst _ | .recv _ => idle (if kind = .channel then .detached else .gone)
  | .cancel => idle .gone
  | _ => idle .detached

/-- A `read` has returned to its caller. -/
def finishRead (kind : Kind) (m : World T W) :
    ReceiveCall W → PollResult T → World T W × Receiver T W
  | .poll waker, .pending => (m.pendPoll waker, idle .connected)
  | .poll _, .ready value dropped => (m.deliver value, finishPoll kind dropped)
  | .tryRecv, .pending => (m, idle .connected)
  | .tryRecv, .ready value dropped => (m.deliver value, finishTry kind dropped)
  | .recvFirst waker, .ready value dropped =>
      if value.isSome || dropped then (m.deliver value, finishRecv kind dropped)
      else beginPoll (.recv waker) waker m
  | .recvFirst waker, .pending => beginPoll (.recv waker) waker m
  | .recv waker, .pending => (m.pendPoll waker, parked (.recv waker))
  | .recv _, .ready value dropped => (m.deliver value, finishRecv kind dropped)
  | .timeoutFirst waker, .pending => beginPoll (.timeout waker) waker m
  | .timeoutFirst _, .ready value dropped => (m, finishTimeout kind value dropped)
  | .timeout waker, .pending => (m.pendPoll waker, parked (.timeout waker))
  | .timeout _, .ready value dropped => (m, finishTimeout kind value dropped)
  | .timeoutLast, .pending => (m, finishTimeout kind none false)
  | .timeoutLast, .ready value dropped => (m, finishTimeout kind value dropped)
  | .cancel, .pending => (m, idle .gone)
  | .cancel, .ready _ dropped => (m, if dropped then freeing .gone else idle .gone)
  | call, .panic => (m.panic, afterPanic kind call)

/-- The end of `drop_one_side` on the receiving side. -/
def finishDrop (next : ReceiverHandle) (m : World T W) (last : Bool) :
    World T W × Receiver T W :=
  ({ m with receiverDropped := true }, if last then freeing next else idle next)

/-- The next access of the call in progress.  A parked call polls again when
its park returns. -/
def step (kind : Kind) (spurious : Bool) (m : World T W) :
    Receiver T W → Option (World T W × Receiver T W)
  | idle _ => none
  | reading call pc =>
      match pc.step spurious m with
      | (m, .goto pc) => some (m, reading call pc)
      | (m, .ret result) => some (finishRead kind m call result)
  | parked (.recv waker) => some (beginPoll (.recv waker) waker m)
  | parked (.timeout waker) => some (beginPoll (.timeout waker) waker m)
  | parked _ => none
  | dropping next pc =>
      match pc.step false m with
      | (m, .goto pc) => some (m, dropping next pc)
      | (m, .ret last) => some (finishDrop next m last)
  | freeing next => some (m.dealloc, idle next)

/-- The park of a blocking call has timed out. -/
def expire (m : World T W) : Receiver T W → Option (World T W × Receiver T W)
  | parked (.timeout _) => some (beginRead .timeoutLast m)
  | _ => none

end Receiver

/-! ## What a step of a side can be

These relations, and those over them, are taken apart by `induction`, which
puts a case's own indices in place of the general ones and leaves no equation
between indices to solve. -/

section Steps

variable {kind : Kind} {spurious : Bool} {m m' : World T W}

/-- A call on the sending side starts a program, or ends at once. -/
inductive Sender.Begun (kind : Kind) (m : World T W) :
    SenderHandle T → SendOp T W → World T W → Sender T W → Prop
  | trySend {value} (notTask : kind ≠ .taskFn) :
      Begun kind m .connected (.trySend value) ((m.pass value).beginWrite value)
        (.trySending (.load value none))
  | run {value} (isTask : kind = .taskFn) :
      Begun kind m .connected (.run (some value)) ((m.pass value).beginWrite value)
        (.trySending (.load value none))
  | trySendDetached {value} :
      Begun kind m .detached (.trySend value) ((m.pass value).giveBack (some value))
        (.idle .detached)
  | runPanic (isTask : kind = .taskFn) :
      Begun kind m .connected (.run none) m.leaveFlush (.dropping .lock)
  | send {value} (notTask : kind ≠ .taskFn) :
      Begun kind m .connected (.send value) (m.pass value)
        (.idle (.flush (kind = .channel) true (some value)))
  | sendDetached {value} :
      Begun kind m .detached (.send value) (m.pass value) (.idle (.flush false false (some value)))
  | pollFirst {owner value waker} :
      Begun kind m (.flush owner true (some value)) (.poll waker)
        (m.beginFlush.beginWrite value) (.flushWriting owner waker (.load value (some waker)))
  | pollDetached {owner value waker} :
      Begun kind m (.flush owner false (some value)) (.poll waker)
        (m.panic.discard (some value)) (.idle (.flush owner false none))
  | poll {owner waker} :
      Begun kind m (.flush owner true none) (.poll waker) m.beginFlush
        (.flushing owner waker (.load waker))
  | pollDone {owner waker} :
      Begun kind m (.flush owner false none) (.poll waker) m (.idle (.flush owner false none))
  | dropBorrow {owner channel value} (isChannel : kind = .channel) :
      Begun kind m (.flush owner channel value) .dropFlush (m.discard value)
        (.idle (if owner then .connected else .detached))
  | dropFlush {owner value} (notChannel : kind ≠ .channel) :
      Begun kind m (.flush owner true value) .dropFlush (m.discard value).leaveFlush
        (.dropping .lock)
  | dropFlushDone {owner value} (notChannel : kind ≠ .channel) :
      Begun kind m (.flush owner false value) .dropFlush (m.discard value) (.idle .gone)
  | drop : Begun kind m .connected .drop m.leaveFlush (.dropping .lock)
  | dropDetached : Begun kind m .detached .drop m (.idle .gone)

theorem Sender.begun {handle : SenderHandle T} {op : SendOp T W} {S' : Sender T W}
    (begun : Sender.begin kind m handle op = some (m', S')) : Begun kind m handle op m' S' := by
  cases handle with
  | connected =>
      rcases op with value | (_ | value) | value | waker | _ | _ <;>
        simp only [Sender.begin, reduceCtorEq] at begun
      case drop =>
        obtain ⟨rfl, rfl⟩ := Prod.ext_iff.mp (Option.some.inj begun)
        exact .drop
      all_goals
        split_ifs at begun with isTask
        obtain ⟨rfl, rfl⟩ := Prod.ext_iff.mp (Option.some.inj begun)
        constructor
        exact isTask
  | detached =>
      rcases op with value | (_ | value) | value | waker | _ | _ <;>
        simp only [Sender.begin, reduceCtorEq] at begun
      all_goals
        obtain ⟨rfl, rfl⟩ := Prod.ext_iff.mp (Option.some.inj begun)
        constructor
  | flush owner channel value =>
      cases op with
      | poll waker =>
          cases channel <;> cases value <;>
            obtain ⟨rfl, rfl⟩ := Prod.ext_iff.mp (Option.some.inj begun) <;> constructor
      | dropFlush =>
          by_cases isChannel : kind = .channel
          · simp only [Sender.begin, if_pos isChannel] at begun
            obtain ⟨rfl, rfl⟩ := Prod.ext_iff.mp (Option.some.inj begun)
            exact .dropBorrow isChannel
          · simp only [Sender.begin, if_neg isChannel] at begun
            cases channel <;>
              obtain ⟨rfl, rfl⟩ := Prod.ext_iff.mp (Option.some.inj begun) <;>
              constructor <;> exact isChannel
      | _ => simp [Sender.begin] at begun
  | gone => simp [Sender.begin] at begun

/-- A call on the receiving side starts a program, or ends at once. -/
inductive Receiver.Begun (kind : Kind) (m : World T W) :
    ReceiverHandle → RecvOp W → World T W → Receiver T W → Prop
  | poll {waker} : Begun kind m .connected (.poll waker) m.beginPoll
      (.reading (.poll waker) (.load (some waker) false))
  | read {op call} (isRead : op = .tryRecv ∧ call = .tryRecv ∨
      (∃ waker, op = .recv waker ∧ call = .recvFirst waker) ∨
      ∃ waker, op = .recvTimeout waker ∧ call = .timeoutFirst waker) :
      Begun kind m .connected op m.beginReceive (.reading call (.load none false))
  | cancel (notTask : kind ≠ .taskFn) :
      Begun kind m .connected .cancel m.beginReceive (.reading .cancel (.load none true))
  | drop : Begun kind m .connected .drop m.beginReceive (.dropping .gone .lock)
  | detached {op next} (answers : op ≠ .cancel ∧ op ≠ .drop) (remains : next ≠ .connected) :
      Begun kind m .detached op m.reportEnd (.idle next)
  | leave {op} (leaves : op = .cancel ∨ op = .drop) : Begun kind m .detached op m (.idle .gone)

theorem Receiver.begun {handle : ReceiverHandle} {op : RecvOp W} {R' : Receiver T W}
    (begun : Receiver.begin kind m handle op = some (m', R')) : Begun kind m handle op m' R' := by
  cases handle with
  | connected =>
      cases op <;> simp only [Receiver.begin, Receiver.beginPoll, Receiver.beginRead] at begun
      case poll =>
        obtain ⟨rfl, rfl⟩ := Prod.ext_iff.mp (Option.some.inj begun)
        exact .poll
      case cancel =>
        split_ifs at begun with isTask
        obtain ⟨rfl, rfl⟩ := Prod.ext_iff.mp (Option.some.inj begun)
        exact .cancel isTask
      case drop =>
        obtain ⟨rfl, rfl⟩ := Prod.ext_iff.mp (Option.some.inj begun)
        exact .drop
      all_goals
        obtain ⟨rfl, rfl⟩ := Prod.ext_iff.mp (Option.some.inj begun)
        exact .read (by simp)
  | detached =>
      cases op <;> simp only [Receiver.begin] at begun
      case cancel =>
        split_ifs at begun
        obtain ⟨rfl, rfl⟩ := Prod.ext_iff.mp (Option.some.inj begun)
        exact .leave (.inl rfl)
      case drop =>
        obtain ⟨rfl, rfl⟩ := Prod.ext_iff.mp (Option.some.inj begun)
        exact .leave (.inr rfl)
      all_goals
        obtain ⟨rfl, rfl⟩ := Prod.ext_iff.mp (Option.some.inj begun)
        refine .detached (by simp) ?_
        try split_ifs
        all_goals simp
  | gone => simp [Receiver.begin] at begun

/-- A step of the sending side is one of the program it is in, or its end. -/
inductive Sender.Stepped (kind : Kind) (spurious : Bool) (m : World T W) :
    Sender T W → World T W → Sender T W → Prop
  | trySend {pc next m'} (inner : pc.step kind.finalize spurious m = (m', .goto next)) :
      Stepped kind spurious m (.trySending pc) m' (.trySending next)
  | trySendEnd {pc result m'} (inner : pc.step kind.finalize spurious m = (m', .ret result)) :
      Stepped kind spurious m (.trySending pc)
        (finishTrySend kind (m'.endWrite result) result).1
        (finishTrySend kind (m'.endWrite result) result).2
  | flushWrite {owner waker pc next m'}
      (inner : pc.step kind.finalize spurious m = (m', .goto next)) :
      Stepped kind spurious m (.flushWriting owner waker pc) m' (.flushWriting owner waker next)
  | flushWriteEnd {owner waker pc result m'}
      (inner : pc.step kind.finalize spurious m = (m', .ret result)) :
      Stepped kind spurious m (.flushWriting owner waker pc)
        (finishFlushWrite kind owner waker (m'.endWrite result) result).1
        (finishFlushWrite kind owner waker (m'.endWrite result) result).2
  | flush {owner waker pc next m'} (inner : pc.step kind.finalize spurious m = (m', .goto next)) :
      Stepped kind spurious m (.flushing owner waker pc) m' (.flushing owner waker next)
  | flushEnd {owner waker pc result m'}
      (inner : pc.step kind.finalize spurious m = (m', .ret result)) :
      Stepped kind spurious m (.flushing owner waker pc)
        (finishFlush kind owner waker m' result).1 (finishFlush kind owner waker m' result).2
  | drop {pc next m'} (inner : pc.step true m = (m', .goto next)) :
      Stepped kind spurious m (.dropping pc) m' (.dropping next)
  | dropEnd {pc last m'} (inner : pc.step true m = (m', .ret last)) :
      Stepped kind spurious m (.dropping pc) (finishDrop m' last).1 (finishDrop m' last).2
  | free {next} : Stepped kind spurious m (.freeing next) m.dealloc (.idle next)

theorem Sender.stepped {S S' : Sender T W} (step : S.step kind spurious m = some (m', S')) :
    Stepped kind spurious m S m' S' := by
  cases S with
  | idle handle => simp [Sender.step] at step
  | trySending pc =>
      rcases inner : pc.step kind.finalize spurious m with ⟨after, next | result⟩ <;>
        simp only [Sender.step, inner, Option.some.injEq, Prod.mk.injEq] at step
      · obtain ⟨rfl, rfl⟩ := step
        exact .trySend inner
      · obtain ⟨rfl, rfl⟩ := Prod.ext_iff.mp step
        exact .trySendEnd inner
  | flushWriting owner waker pc =>
      rcases inner : pc.step kind.finalize spurious m with ⟨after, next | result⟩ <;>
        simp only [Sender.step, inner, Option.some.injEq, Prod.mk.injEq] at step
      · obtain ⟨rfl, rfl⟩ := step
        exact .flushWrite inner
      · obtain ⟨rfl, rfl⟩ := Prod.ext_iff.mp step
        exact .flushWriteEnd inner
  | flushing owner waker pc =>
      rcases inner : pc.step (T := T) kind.finalize spurious m with ⟨after, next | result⟩ <;>
        simp only [Sender.step, inner, Option.some.injEq, Prod.mk.injEq] at step
      · obtain ⟨rfl, rfl⟩ := step
        exact .flush inner
      · obtain ⟨rfl, rfl⟩ := Prod.ext_iff.mp step
        exact .flushEnd inner
  | dropping pc =>
      rcases inner : pc.step true m with ⟨after, next | last⟩ <;>
        simp only [Sender.step, inner, Option.some.injEq, Prod.mk.injEq] at step
      · obtain ⟨rfl, rfl⟩ := step
        exact .drop inner
      · obtain ⟨rfl, rfl⟩ := Prod.ext_iff.mp step
        exact .dropEnd inner
  | freeing next =>
      simp only [Sender.step, Option.some.injEq, Prod.mk.injEq] at step
      obtain ⟨rfl, rfl⟩ := step
      exact .free

/-- A step of the receiving side is one of the program it is in, its end, or
another poll of a parked call. -/
inductive Receiver.Stepped (kind : Kind) (spurious : Bool) (m : World T W) :
    Receiver T W → World T W → Receiver T W → Prop
  | read {call pc next m'} (inner : pc.step spurious m = (m', .goto next)) :
      Stepped kind spurious m (.reading call pc) m' (.reading call next)
  | readEnd {call pc result m'} (inner : pc.step spurious m = (m', .ret result)) :
      Stepped kind spurious m (.reading call pc)
        (finishRead kind m' call result).1 (finishRead kind m' call result).2
  | unpark {call waker} (isParked : call = .recv waker ∨ call = .timeout waker) :
      Stepped kind spurious m (.parked call) (beginPoll call waker m).1 (beginPoll call waker m).2
  | drop {handle pc next m'} (inner : pc.step false m = (m', .goto next)) :
      Stepped kind spurious m (.dropping handle pc) m' (.dropping handle next)
  | dropEnd {handle pc last m'} (inner : pc.step false m = (m', .ret last)) :
      Stepped kind spurious m (.dropping handle pc)
        (finishDrop handle m' last).1 (finishDrop handle m' last).2
  | free {next} : Stepped kind spurious m (.freeing next) m.dealloc (.idle next)

theorem Receiver.stepped {R R' : Receiver T W} (step : R.step kind spurious m = some (m', R')) :
    Stepped kind spurious m R m' R' := by
  cases R with
  | idle handle => simp [Receiver.step] at step
  | reading call pc =>
      rcases inner : pc.step spurious m with ⟨after, next | result⟩ <;>
        simp only [Receiver.step, inner, Option.some.injEq, Prod.mk.injEq] at step
      · obtain ⟨rfl, rfl⟩ := step
        exact .read inner
      · obtain ⟨rfl, rfl⟩ := Prod.ext_iff.mp step
        exact .readEnd inner
  | parked call =>
      cases call <;> simp only [Receiver.step, Option.some.injEq, reduceCtorEq] at step
      all_goals
        obtain ⟨rfl, rfl⟩ := Prod.ext_iff.mp step
      · exact .unpark (.inl rfl)
      · exact .unpark (.inr rfl)
  | dropping handle pc =>
      rcases inner : pc.step false m with ⟨after, next | last⟩ <;>
        simp only [Receiver.step, inner, Option.some.injEq, Prod.mk.injEq] at step
      · obtain ⟨rfl, rfl⟩ := step
        exact .drop inner
      · obtain ⟨rfl, rfl⟩ := Prod.ext_iff.mp step
        exact .dropEnd inner
  | freeing next =>
      simp only [Receiver.step, Option.some.injEq, Prod.mk.injEq] at step
      obtain ⟨rfl, rfl⟩ := step
      exact .free

end Steps

/-! ## The pair -/

/-- One channel with its two sides. -/
structure System (T : Type u) (W : Type v) where
  world : World T W := {}
  sender : Sender T W := .idle .connected
  receiver : Receiver T W := .idle .connected
  deriving DecidableEq, Repr

/-- A scheduling choice: begin a call on a side, let a side make its next
access, or let a timed park end. -/
inductive Label (T : Type u) (W : Type v) where
  | send (op : SendOp T W)
  | recv (op : RecvOp W)
  | sender (spurious : Bool)
  | receiver (spurious : Bool)
  | expire
  deriving DecidableEq, Repr

/-- Every label but the beginning of a `cancel` and of a receive with a timeout. -/
def Label.plain : Label T W → Bool
  | recv .cancel | recv (.recvTimeout _) => false
  | _ => true

namespace System

/-- A fresh pair, as `send_once`, `channel` and `task_fn` make it. -/
def init : System T W := {}

def step (kind : Kind) : Step (System T W) (Label T W)
  | s, .send op =>
      match s.sender with
      | .idle handle =>
          (Sender.begin kind s.world handle op).map fun r =>
            { s with world := r.1, sender := r.2 }
      | _ => none
  | s, .recv op =>
      match s.receiver with
      | .idle handle =>
          (Receiver.begin kind s.world handle op).map fun r =>
            { s with world := r.1, receiver := r.2 }
      | _ => none
  | s, .sender spurious =>
      (s.sender.step kind spurious s.world).map fun r => { s with world := r.1, sender := r.2 }
  | s, .receiver spurious =>
      (s.receiver.step kind spurious s.world).map fun r =>
        { s with world := r.1, receiver := r.2 }
  | s, .expire =>
      (s.receiver.expire s.world).map fun r => { s with world := r.1, receiver := r.2 }

/-- A step of the pair is a step of one side; the other is left as it is. -/
theorem step_cases {kind : Kind} {s s' : System T W} {label : Label T W}
    (step : System.step kind s label = some s') :
    (∃ handle op, label = .send op ∧ s.sender = .idle handle ∧ s'.receiver = s.receiver ∧
      Sender.Begun kind s.world handle op s'.world s'.sender) ∨
    (∃ handle op, label = .recv op ∧ s.receiver = .idle handle ∧ s'.sender = s.sender ∧
      Receiver.Begun kind s.world handle op s'.world s'.receiver) ∨
    (∃ spurious, label = .sender spurious ∧ s'.receiver = s.receiver ∧
      s.sender.Stepped kind spurious s.world s'.world s'.sender) ∨
    (∃ spurious, label = .receiver spurious ∧ s'.sender = s.sender ∧
      s.receiver.Stepped kind spurious s.world s'.world s'.receiver) ∨
    (∃ waker, label = .expire ∧ s.receiver = .parked (.timeout waker) ∧ s'.sender = s.sender ∧
      s'.world = s.world.beginReceive ∧
      s'.receiver = .reading .timeoutLast (.load none false)) := by
  cases label with
  | send op =>
      cases isIdle : s.sender with
      | idle handle =>
          simp only [System.step, isIdle, Option.map_eq_some_iff] at step
          obtain ⟨r, begun, rfl⟩ := step
          exact .inl ⟨handle, op, rfl, rfl, rfl, Sender.begun begun⟩
      | _ => simp [System.step, isIdle] at step
  | recv op =>
      cases isIdle : s.receiver with
      | idle handle =>
          simp only [System.step, isIdle, Option.map_eq_some_iff] at step
          obtain ⟨r, begun, rfl⟩ := step
          exact .inr (.inl ⟨handle, op, rfl, rfl, rfl, Receiver.begun begun⟩)
      | _ => simp [System.step, isIdle] at step
  | sender spurious =>
      simp only [System.step, Option.map_eq_some_iff] at step
      obtain ⟨r, stepped, rfl⟩ := step
      exact .inr (.inr (.inl ⟨spurious, rfl, rfl, Sender.stepped stepped⟩))
  | receiver spurious =>
      simp only [System.step, Option.map_eq_some_iff] at step
      obtain ⟨r, stepped, rfl⟩ := step
      exact .inr (.inr (.inr (.inl ⟨spurious, rfl, rfl, Receiver.stepped stepped⟩)))
  | expire =>
      simp only [System.step, Option.map_eq_some_iff] at step
      obtain ⟨r, expired, rfl⟩ := step
      cases parked : s.receiver with
      | parked call =>
          rw [parked] at expired
          cases call with
          | timeout waker =>
              obtain rfl := Option.some.inj expired
              exact .inr (.inr (.inr (.inr ⟨waker, rfl, rfl, rfl, rfl, rfl⟩)))
          | _ => simp [Receiver.expire] at expired
      | _ => simp [parked, Receiver.expire] at expired

end System

end Suspend.Channel
