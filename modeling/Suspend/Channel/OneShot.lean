import Suspend.Channel.System

/-!
# The one-shot cell

What `send_once` and `task_fn` are for: a cell for a single value, which one
side fills or closes and the other takes from or closes.  A run of the pair is
observed by its calls and their answers, and the cell says what each call is to
answer when calls do not overlap.
-/

namespace Suspend.Channel

open Suspend.Transition

universe u v

variable {T : Type u} {W : Type v}

/-- The answer of a call.  `err` is a `TrySendError`, which is `Disconnected`
or `Full`; the receiving answers are those of `Poll<Result<T, RecvError>>`. -/
inductive Answer (T : Type u) where
  | done
  | canceled (isCanceled : Bool)
  | ok
  | err (value : Option T) (disconnected : Bool)
  | pending
  | received (value : T)
  | incomplete
  | timedOut
  | terminated
  | panicked
  deriving DecidableEq, Repr

/-- A call on either side. -/
inductive Call (T : Type u) (W : Type v) where
  | isCanceled
  | send (op : SendOp T W)
  | recv (op : RecvOp W)
  deriving DecidableEq, Repr

/-! ## The abstract cell -/

/-- The sending side: it may still send, holds a `Flush` (with the value, until
the first poll), holds a `Flush` that has resolved, or is gone. -/
inductive OneShot.Sending (T : Type u) where
  | unsent
  | flush (value : Option T)
  | resolved
  | gone
  deriving DecidableEq, Repr

inductive OneShot.Content (T : Type u) where
  | empty
  | full (value : T)
  | taken
  deriving DecidableEq, Repr

structure OneShot (T : Type u) where
  sender : OneShot.Sending T := .unsent
  receiver : ReceiverHandle := .connected
  content : OneShot.Content T := .empty
  deriving DecidableEq, Repr

namespace OneShot

/-- The sending side has closed the cell. -/
def Sending.closed : Sending T → Bool
  | .unsent | .flush _ => false
  | .resolved | .gone => true

def Content.value : Content T → Option T
  | .full value => some value
  | .empty | .taken => none

/-- A receiving call takes the value, or learns that there will be none.  It
then closes the receiving side, which becomes `next`. -/
def take (next : ReceiverHandle) (cell : OneShot T) : Option (OneShot T × Answer T) :=
  match cell.content with
  | .full value => some ({ cell with receiver := next, content := .taken }, .received value)
  | .empty | .taken =>
      if cell.sender.closed then some ({ cell with receiver := next }, .incomplete) else none

/-- A side that leaves after the other drops the value that is still there. -/
def vacate (cell : OneShot T) : OneShot T :=
  { cell with content := .empty }

/-- The value is put into the cell, unless the receiving side has closed it. -/
def put (value : T) (filled failed : Sending T) (answer : Answer T) (cell : OneShot T) :
    OneShot T × Answer T :=
  if cell.receiver = .connected then
    ({ cell with sender := filled, content := .full value }, answer)
  else ({ cell with sender := failed }, .err (some value) true)

/-- What a call on the sending side does and answers. -/
def send (cell : OneShot T) : SendOp T W → Option (OneShot T × Answer T)
  | .trySend value =>
      match cell.sender with
      | .unsent => some (cell.put value .gone .gone .ok)
      | _ => none
  | .run (some value) =>
      match cell.sender with
      | .unsent => some ((cell.put value .gone .gone .ok).1, .done)
      | _ => none
  | .run none | .drop =>
      match cell.sender with
      | .unsent => some ({ cell with sender := .gone }, .done)
      | _ => none
  | .send value =>
      match cell.sender with
      | .unsent => some ({ cell with sender := .flush (some value) }, .done)
      | _ => none
  | .poll _ =>
      match cell.sender, cell.content with
      | .flush (some value), _ => some (cell.put value (.flush none) .resolved .pending)
      | .flush none, .taken => some ({ cell with sender := .resolved }, .ok)
      | .flush none, .full value =>
          if cell.receiver = .connected then some (cell, .pending)
          else some ({ cell with sender := .resolved, content := .empty }, .err (some value) true)
      | .resolved, _ => some (cell, .ok)
      | _, _ => none
  | .dropFlush =>
      match cell.sender with
      | .flush (some _) | .resolved => some ({ cell with sender := .gone }, .done)
      | .flush none =>
          let left := { cell with sender := .gone }
          some (if cell.receiver = .connected then left else left.vacate, .done)
      | _ => none

/-- What a call on the receiving side does and answers; `none` where it would
block. -/
def recv (cell : OneShot T) : RecvOp W → Option (OneShot T × Answer T)
  | .poll _ =>
      match cell.receiver with
      | .connected => some ((cell.take .detached).getD (cell, .pending))
      | .detached => some (cell, .terminated)
      | .gone => none
  | .tryRecv =>
      match cell.receiver with
      | .connected => if cell.sender.closed then cell.take .detached else none
      | .detached => some (cell, .terminated)
      | .gone => none
  | .recv _ =>
      match cell.receiver with
      | .connected => cell.take .gone
      | .detached => some ({ cell with receiver := .gone }, .terminated)
      | .gone => none
  | .recvTimeout _ =>
      match cell.receiver with
      | .connected => some ((cell.take .detached).getD (cell, .timedOut))
      | .detached => some (cell, .terminated)
      | .gone => none
  | .cancel => none
  | .drop =>
      match cell.receiver with
      | .connected =>
          let left := { cell with receiver := .gone }
          some (if cell.sender.closed then left.vacate else left, .done)
      | .detached => some ({ cell with receiver := .gone }, .done)
      | .gone => none

/-- One call of the abstract cell. -/
def step (cell : OneShot T) : Call T W → Option (OneShot T × Answer T)
  | .isCanceled =>
      match cell.sender with
      | .unsent => some (cell, .canceled (cell.receiver ≠ .connected))
      | _ => none
  | .send op => cell.send op
  | .recv op => cell.recv op

/-- A sequence of calls, with the answers in order. -/
def run (cell : OneShot T) : List (Call T W) → Option (OneShot T × List (Answer T))
  | [] => some (cell, [])
  | call :: calls =>
      (cell.step call).bind fun (cell, answer) =>
        (run cell calls).map fun (cell, answers) => (cell, answer :: answers)

/-- Running one call more. -/
theorem run_append (cell : OneShot T) (calls : List (Call T W)) (call : Call T W) :
    cell.run (calls ++ [call]) =
      (cell.run calls).bind fun (middle, answers) =>
        (middle.step call).map fun (last, answer) => (last, answers ++ [answer]) := by
  induction calls generalizing cell with
  | nil =>
      simp only [List.nil_append, run, Option.bind_some]
      cases cell.step call <;> rfl
  | cons first rest ih =>
      simp only [List.cons_append, run, ih]
      cases cell.step first with
      | none => rfl
      | some r =>
          simp only [Option.bind_some]
          cases r.1.run rest with
          | none => rfl
          | some middle =>
              simp only [Option.bind_some, Option.map_some]
              cases middle.1.step call <;> rfl

end OneShot

/-! ## Calls and answers of a run -/

/-- What a receiving call makes of the value that it got. -/
def Answer.result : Option T → Answer T
  | some value => .received value
  | none => .incomplete

/-- `if dropped { result.ok_or(Incomplete) } else { Ok or TimedOut }`. -/
def Answer.timeout (value : Option T) (dropped : Bool) : Answer T :=
  if dropped then .result value else value.elim .timedOut .received

/-- The answer of a write to its caller; `TaskFn::run` has none to give. -/
def WriteResult.answer (kind : Kind) (sent : Answer T) : WriteResult T → Answer T
  | .ok => if kind = .taskFn then .done else sent
  | .err value dropped => if kind = .taskFn then .done else .err value dropped
  | .panic => .panicked

/-- The answer of a later `Flush` poll. -/
def PollResult.flushAnswer : PollResult T → Answer T
  | .pending => .pending
  | .ready none _ => .ok
  | .ready (some value) _ => .err (some value) true
  | .panic => .panicked

/-- The answer of a receiving call to which `read` has returned, unless the
call goes on. -/
def ReceiveCall.answer : ReceiveCall W → PollResult T → Option (Answer T)
  | .poll _, .pending | .tryRecv, .pending => some .pending
  | .poll _, .ready value _ | .tryRecv, .ready value _ | .recv _, .ready value _ =>
      some (.result value)
  | .recvFirst _, .ready value dropped =>
      if value.isSome || dropped then some (.result value) else none
  | .timeoutFirst _, .ready value dropped | .timeout _, .ready value dropped
  | .timeoutLast, .ready value dropped => some (.timeout value dropped)
  | .timeoutLast, .pending => some .timedOut
  | .cancel, .ready value _ => some (value.elim .done .received)
  | .cancel, .pending => some .done
  | .recvFirst _, .pending | .recv _, .pending | .timeoutFirst _, .pending
  | .timeout _, .pending => none
  | _, .panic => some .panicked

/-- The answer that a step of the sending side gives. -/
def Sender.answer (kind : Kind) (spurious : Bool) (m : World T W) : Sender T W → Option (Answer T)
  | .trySending pc =>
      (pc.step kind.finalize spurious m).2.elim (fun _ => none) fun result =>
        some (result.answer kind .ok)
  | .flushWriting _ _ pc =>
      (pc.step kind.finalize spurious m).2.elim (fun _ => none) fun result =>
        some (result.answer kind .pending)
  | .flushing _ _ pc =>
      (pc.step kind.finalize spurious m).2.elim (fun _ => none) fun result =>
        some result.flushAnswer
  | .idle _ | .dropping _ | .freeing _ => none

/-- The answer that a step of the receiving side gives. -/
def Receiver.answer (spurious : Bool) (m : World T W) : Receiver T W → Option (Answer T)
  | .reading call pc => (pc.step spurious m).2.elim (fun _ => none) call.answer
  | .idle _ | .parked _ | .dropping _ _ | .freeing _ => none

/-- The calls that answer as they begin: those without a result, and those on a
handle that has given up its channel. -/
def Sender.beginAnswer : SenderHandle T → SendOp T W → Option (Answer T)
  | .flush _ false (some _), .poll _ => some .panicked
  | .flush _ false none, .poll _ => some .ok
  | .detached, .trySend value => some (.err (some value) true)
  | _, .trySend _ | _, .run (some _) | _, .poll _ => none
  | _, .run none | _, .send _ | _, .dropFlush | _, .drop => some .done

def Receiver.beginAnswer : ReceiverHandle → RecvOp W → Option (Answer T)
  | _, .drop => some .done
  | .connected, _ => none
  | _, .cancel => some .done
  | _, _ => some .terminated

/-! ### Wakers -/

/-- The waker that a call has taken out of the cell and is going to wake. -/
def WritePc.carries : WritePc T W → Option W
  | storeWaker _ _ readWaker | release _ _ readWaker | unlock readWaker => readWaker
  | wake waker => some waker
  | _ => none

def ReadPc.carries : ReadPc T W → Option W
  | unlock _ _ flushWaker => flushWaker
  | wakeFlush waker _ _ => some waker
  | _ => none

def DropPc.carries : DropPc W → Option W
  | unlock waker => waker
  | wake waker _ => some waker
  | _ => none

/-- The waker that the next step wakes. -/
def WritePc.wakes : WritePc T W → Option W
  | wake waker => some waker
  | _ => none

def FlushPc.wakes : FlushPc W → Option W
  | wake waker => some waker
  | _ => none

def ReadPc.wakes : ReadPc T W → Option W
  | wakeFlush waker _ _ | wake waker => some waker
  | _ => none

def DropPc.wakes : DropPc W → Option W
  | wake waker _ => some waker
  | _ => none

def Sender.carries : Sender T W → Option W
  | trySending pc | flushWriting _ _ pc => pc.carries
  | dropping pc => pc.carries
  | _ => none

def Receiver.carries : Receiver T W → Option W
  | reading _ pc => pc.carries
  | dropping _ pc => pc.carries
  | _ => none

def Sender.wakes : Sender T W → Option W
  | trySending pc | flushWriting _ _ pc => pc.wakes
  | flushing _ _ pc => pc.wakes
  | dropping pc => pc.wakes
  | idle _ | freeing _ => none

def Receiver.wakes : Receiver T W → Option W
  | reading _ pc => pc.wakes
  | dropping _ pc => pc.wakes
  | idle _ | parked _ | freeing _ => none

def System.carries (s : System T W) : Option W :=
  s.sender.carries.or s.receiver.carries

/-- The waker that a step wakes. -/
def System.wakes (s : System T W) : Label T W → Option W
  | .sender _ => s.sender.wakes
  | .receiver _ => s.receiver.wakes
  | .send _ | .recv _ | .expire => none

/-- A pair with the calls made so far, their answers, the wakers that have been
put into the waker cell, and those that have been woken or, when they left the
cell, dropped. -/
structure Observed (T : Type u) (W : Type v) where
  system : System T W := {}
  calls : List (Call T W) := []
  answers : List (Answer T) := []
  stored : List W := []
  woken : List W := []
  dropped : List W := []
  deriving DecidableEq, Repr

inductive ObservedLabel (T : Type u) (W : Type v) where
  | isCanceled
  | base (label : Label T W)
  deriving DecidableEq, Repr

namespace Observed

/-- The call that a label begins. -/
def call : Label T W → Option (Call T W)
  | .send op => some (.send op)
  | .recv op => some (.recv op)
  | .sender _ | .receiver _ | .expire => none

/-- The answer that a step gives. -/
def answer (kind : Kind) (s : System T W) : Label T W → Option (Answer T)
  | .send op =>
      match s.sender with
      | .idle handle => Sender.beginAnswer handle op
      | _ => none
  | .recv op =>
      match s.receiver with
      | .idle handle => Receiver.beginAnswer handle op
      | _ => none
  | .sender spurious => s.sender.answer kind spurious s.world
  | .receiver spurious => s.receiver.answer spurious s.world
  | .expire => none

/-- The waker that has gone into the cell, or come out of it. -/
def moved (before after : Option W) : List W :=
  if before.isNone then after.toList else []

/-- One step of the pair, noting what is to be seen of it.  `is_canceled` is a
single load. -/
def step (kind : Kind) : Step (Observed T W) (ObservedLabel T W)
  | o, .isCanceled =>
      match o.system.sender with
      | .idle .connected =>
          some { o with
            system := { o.system with world := o.system.world.access }
            calls := o.calls ++ [.isCanceled]
            answers := o.answers ++
              [.canceled (!o.system.world.state.active && !o.system.world.state.loaded)] }
      | _ => none
  | o, .base label =>
      (System.step kind o.system label).map fun next =>
        { system := next
          calls := o.calls ++ (call label).toList
          answers := o.answers ++ (answer kind o.system label).toList
          stored := o.stored ++ moved o.system.world.waker next.world.waker
          woken := o.woken ++ (o.system.wakes label).toList
          dropped := o.dropped ++
            if next.carries.isNone then moved next.world.waker o.system.world.waker else [] }

/-- Calls do not overlap, `try_join` is called once the task is finished, a
blocking receive when it has something to return, and nothing is cancelled. -/
def wholeCalls (kind : Kind) (o : Observed T W) : ObservedLabel T W → Bool
  | .isCanceled =>
      match o.system.receiver with
      | .idle _ => kind = .sendOnce
      | _ => false
  | .base (.send _) =>
      match o.system.receiver with
      | .idle _ => true
      | _ => false
  | .base (.recv op) =>
      match o.system.sender, o.system.receiver, op with
      | .idle _, _, .cancel => false
      | .idle .gone, _, .tryRecv => kind = .taskFn
      | .idle _, _, .tryRecv => false
      | .idle _, .idle .connected, .recv _ =>
          o.system.world.state.loaded || !o.system.world.state.active
      | .idle _, _, _ => true
      | _, _, _ => false
  | .base _ => true

end Observed

end Suspend.Channel
