import Suspend.Channel.System

/-!
# Program points and what they hold

The invariants of the channel never look at the program point of the other
side.  They only ask in which of its sections that side is: whether it holds
the waker lock, is taking the value, or has made its last access to the state
word.  Those sections are read off the program points here, together with what
the locals of each point satisfy.
-/

namespace Suspend.Channel

open Suspend.Transition

universe u v

variable {T : Type u} {W : Type v}

/-- The sections the sending side is in. -/
structure SendSections where
  /-- This side has not cleared `STATE_ACTIVE`. -/
  live : Bool := false
  /-- The value at hand is not yet published. -/
  unpublished : Bool := false
  /-- The flush has seen its value gone, or has cleared `STATE_LOADED` itself. -/
  drained : Bool := false
  /-- The waker lock is held by a `write`, a `flush` or a drop. -/
  writeHolds : Bool := false
  flushHolds : Bool := false
  dropHolds : Bool := false
  /-- The state word has been found without `STATE_ACTIVE`. -/
  closed : Bool := false
  /-- No further access to the state word will be made. -/
  ended : Bool := false
  /-- `STATE_ACTIVE` as the `fetch_or` of the write found it. -/
  found : Option Bool := none
  deriving DecidableEq, Repr

/-- The sections the receiving side is in. -/
structure RecvSections where
  /-- The read lock is held over a value, and the waker lock with it. -/
  taking : Bool := false
  takingLocked : Bool := false
  /-- Both locks are held for a waker. -/
  registering : Bool := false
  /-- The waker lock is held by a drop. -/
  dropHolds : Bool := false
  /-- The state word has been found without `STATE_ACTIVE`. -/
  closed : Bool := false
  /-- No further access to the state word will be made. -/
  ended : Bool := false
  /-- The state word expected by the swap of a closed channel. -/
  swaps : Option State := none
  deriving DecidableEq, Repr

/-! ## `write` -/

namespace WritePc

/-- `last` says that this write, once published, is the last call of its side. -/
def sections (last : Bool) : WritePc T W → SendSections
  | load .. => { live := true, unpublished := last }
  | sync _ => { live := true, closed := true }
  | store .. | fast .. | lock .. => { live := true, unpublished := true }
  | takeReader prev _ | storeWaker prev _ _ | release prev _ _ =>
      { live := true, writeHolds := true, found := some prev.active }
  | clearWaker found _ => { live := true, writeHolds := true, closed := !found.active }
  | unlockRead _ | unlock _ => { live := true, writeHolds := true }
  | takeBack => { live := !last, closed := true, ended := last }
  | wake _ => { live := !last, ended := last }

/-- What the locals of a write satisfy; `polled` says that it has a waker. -/
def Local (polled : Bool) : WritePc T W → Prop
  | load _ waker | lock waker => waker.isSome = polled
  | store state _ waker =>
      state.active = true ∧ state.loaded = false ∧ waker.isSome = polled
  | fast state =>
      state.active = true ∧ state.loaded = false ∧ state.wake = false ∧ polled = false
  | takeReader prev waker =>
      prev.wlock = false ∧ prev.rlock = false ∧ prev.wake = true ∧ waker.isSome = polled
  | storeWaker prev _ _ | release prev _ _ =>
      prev.wlock = false ∧ prev.rlock = false ∧ polled = true
  | clearWaker found _ =>
      (found.loaded = true → found.rlock = false → found.active = false) ∧ polled = true
  | unlockRead _ => polled = true
  | unlock _ => polled = false
  | _ => True

end WritePc

/-! ## `flush` -/

namespace FlushPc

def sections (finalize : Bool) : FlushPc W → SendSections
  | clearPrev .. | storeWaker .. | release .. | clearOwn .. | unlock .. =>
      { live := !finalize, flushHolds := true }
  | finish => { live := !finalize, drained := true }
  | reset => { live := !finalize, closed := true }
  | takeBack => { live := !finalize, closed := true, drained := !finalize }
  | _ => { live := !finalize }

/-- What the locals of a flush satisfy.  The branch for a value read under the
lock is never taken: the lock is only tried for while the value is there. -/
def Local (finalize : Bool) : FlushPc W → Prop
  | clearLocked _ | resetLocked _ => False
  | reset => finalize = false
  | clearPrev prev _ =>
      prev.active = true ∧ prev.loaded = true ∧ prev.rlock = false ∧ prev.wake = true
  | storeWaker prev _ | release prev _ | lock prev _ =>
      prev.active = true ∧ prev.loaded = true ∧ prev.rlock = false
  | _ => True

end FlushPc

/-! ## `read` -/

namespace ReadPc

def sections : ReadPc T W → RecvSections
  | swap prev => { closed := true, swaps := some prev }
  | takeClosed => { closed := true }
  | take prev | takeFlush prev _ | unlock prev _ _ =>
      { taking := true, takingLocked := !prev.wlock }
  | wakeFlush _ _ dropped => { closed := dropped }
  | clearPrev .. | storeWaker .. | release .. | clearOwn _ | unlockOwn _ | unlockBare _ =>
      { registering := true }
  | _ => {}

/-- What the locals of a read satisfy; `cancels` is its `or_cancel`. -/
def Local (cancels : Bool) : ReadPc T W → Prop
  | load _ orCancel => orCancel = cancels
  | swap prev => prev.active = false ∧ prev.loaded = true
  | lock prev _ orCancel =>
      prev.active = true ∧ prev.loaded = true ∧ orCancel = cancels
  | take prev | unlock prev _ _ => prev.active = true ∧ prev.loaded = true
  | takeFlush prev _ =>
      prev.active = true ∧ prev.loaded = true ∧ prev.wlock = false ∧ prev.wake = true
  | cancel prev _ => prev.active = true ∧ prev.loaded = false ∧ cancels = true
  | register prev waker orCancel =>
      prev.active = true ∧ prev.loaded = false ∧ prev.wlock = false ∧
        (waker.isSome || prev.wake) = true ∧ orCancel = false ∧ cancels = false
  | clearPrev prev _ orCancel =>
      prev.active = true ∧ prev.loaded = false ∧ prev.wlock = false ∧ prev.rlock = false ∧
        prev.wake = true ∧ orCancel = false ∧ cancels = false
  | storeWaker prev _ orCancel | release prev _ orCancel =>
      prev.active = true ∧ prev.loaded = false ∧ prev.wlock = false ∧ prev.rlock = false ∧
        orCancel = false ∧ cancels = false
  | clearOwn orCancel | unlockOwn orCancel | unlockBare orCancel =>
      orCancel = false ∧ cancels = false
  | _ => True

end ReadPc

/-! ## `drop_one_side` -/

namespace DropPc

/-- From the `fetch_or` that took the waker lock to its release. -/
def holds : DropPc W → Bool
  | takeWaker | clearOwn | unlock _ => true
  | _ => false

/-- Past the last access to the state word. -/
def ended : DropPc W → Bool
  | clearValue _ | clearWaker | wake _ _ | clearLast => true
  | _ => false

/-- The state word has been found without `STATE_ACTIVE`. -/
def closed : DropPc W → Bool
  | clearValue _ | clearWaker | clearLast => true
  | wake _ last => last
  | _ => false

/-- `live` says that the side has not cleared `STATE_ACTIVE` before its drop. -/
def sendSections (live : Bool) (pc : DropPc W) : SendSections :=
  { live := live && !pc.ended, dropHolds := pc.holds, closed := pc.closed, ended := pc.ended }

def recvSections (pc : DropPc W) : RecvSections :=
  { dropHolds := pc.holds, closed := pc.closed, ended := pc.ended }

end DropPc

/-! ## The two sides -/

namespace Sender

/-- The sections of a sending side between calls. -/
def handleSections (kind : Kind) : SenderHandle T → SendSections
  | .connected => { live := true, unpublished := kind.finalize }
  | .flush owner channel value =>
      { live := owner || (channel && value.isSome), ended := !(owner || channel) }
  | .detached | .gone => { ended := true }

def sections (kind : Kind) : Sender T W → SendSections
  | idle handle => handleSections kind handle
  | trySending pc => pc.sections kind.finalize
  | flushWriting _ _ pc => pc.sections false
  | flushing _ _ pc => pc.sections kind.finalize
  | dropping pc => pc.sendSections !kind.finalize
  | freeing _ => { ended := true }

def Local (kind : Kind) : Sender T W → Prop
  | trySending pc => pc.Local false
  | flushWriting owner _ pc => pc.Local true ∧ kind ≠ .taskFn ∧ owner = decide (kind = .channel)
  | flushing owner _ pc =>
      pc.Local kind.finalize ∧ kind ≠ .taskFn ∧ owner = decide (kind = .channel)
  | idle (.flush owner channel _) =>
      kind ≠ .taskFn ∧ (channel = true → owner = decide (kind = .channel)) ∧
        (owner = true → kind = .channel)
  | idle .detached => kind = .channel
  | freeing (.flush owner channel value) =>
      kind = .sendOnce ∧ owner = false ∧ channel = false ∧ value = none
  | freeing .connected => False
  | freeing .detached => kind = .channel
  | _ => True

end Sender

/-- `or_cancel`, as the call in progress passes it. -/
def ReceiveCall.cancels : ReceiveCall W → Bool
  | .cancel => true
  | _ => false

namespace Receiver

def sections : Receiver T W → RecvSections
  | idle .connected | parked _ => {}
  | idle .detached | idle .gone | freeing _ => { ended := true }
  | reading _ pc => pc.sections
  | dropping _ pc => pc.recvSections

def Local : Receiver T W → Prop
  | reading call pc => pc.Local call.cancels
  | dropping next _ => next ≠ .connected
  | freeing next => next ≠ .connected
  | _ => True

/-- The receiving calls that neither cancel nor time out. -/
def Plain : Receiver T W → Prop
  | reading call _ | parked call =>
      match call with
      | .poll _ | .tryRecv | .recvFirst _ | .recv _ => True
      | _ => False
  | _ => True

/-- What a call leaves of its side when its `read` has returned: no sections, but
for those of another poll or of the drop that begins. -/
inductive Left (kind : Kind) (m : World T W) (call : ReceiveCall W) (result : PollResult T) :
    World T W → Receiver T W → Prop
  | idle {m' : World T W} {next : ReceiverHandle} (gone : call.cancels = true → next = .gone)
      (waits : next = .connected →
        kind = .channel ∨ result = .pending ∨ result = .ready none false) :
      Left kind m call result m' (.idle next)
  | parked {waker : W} (blocks : call = .recv waker ∨ call = .timeout waker)
      (pending : result = .pending) : Left kind m call result (m.pendPoll waker) (.parked call)
  | reading {again : ReceiveCall W} {waker : W}
      (first : call = .recvFirst waker ∧ again = .recv waker ∨
        call = .timeoutFirst waker ∧ again = .timeout waker)
      (empty : result = .pending ∨ result = .ready none false) :
      Left kind m call result m.beginPoll (.reading again (.load (some waker) false))
  | freeing {m' : World T W} {next : ReceiverHandle} {value : Option T}
      (finished : next ≠ .connected) (closed : result = .ready value true) :
      Left kind m call result m' (.freeing next)
  | dropping {m' : World T W} {next : ReceiverHandle} (uncancelled : call.cancels = false)
      (finished : next ≠ .connected) : Left kind m call result m' (.dropping next .lock)

/-- What a call writes down when its `read` has returned.  The channel stays as
it is. -/
inductive Noted (m : World T W) (result : PollResult T) : World T W → Prop
  | nothing : Noted m result m
  | begins : Noted m result m.beginPoll
  | pends (waker : W) (pending : result = .pending) : Noted m result (m.pendPoll waker)
  | ends : Noted m result m.reportEnd
  | panics (panicked : result = .panic) : Noted m result m.panic

theorem Noted.deliver (m : World T W) (result : PollResult T) (value : Option T) :
    Noted m result (m.deliver value) := by
  cases value with
  | none => exact .ends
  | some value => exact .nothing

variable {kind : Kind} {m m' : World T W} {call : ReceiveCall W} {value : Option T}
variable {result : PollResult T}

theorem Noted.waker (noted : Noted m result m') : m'.waker = m.waker := by
  induction noted <;> rfl

/-- The polls of the other side are none of its business. -/
theorem Noted.sender_polls (noted : Noted m result m') :
    m'.senderPoll = m.senderPoll ∧ m'.wokenSinceFlush = m.wokenSinceFlush := by
  induction noted <;> exact ⟨rfl, rfl⟩

theorem closeWith_left {next : ReceiverHandle} (dropped : Bool) (finished : next ≠ .connected)
    (uncancelled : call.cancels = false) :
    Left kind m call (.ready value dropped) m' (closeWith next dropped) := by
  cases dropped with
  | false => exact .dropping uncancelled finished
  | true => exact .freeing finished rfl

theorem keepUnless_left (dropped : Bool) (isChannel : kind = .channel)
    (uncancelled : call.cancels = false) :
    Left kind m call (.ready value dropped) m' (keepUnless dropped) := by
  cases dropped with
  | false => exact .idle (by simp [uncancelled]) fun _ => .inl isChannel
  | true => exact .freeing (by simp) rfl

theorem finishPoll_left (dropped : Bool) (uncancelled : call.cancels = false) :
    Left kind m call (.ready value dropped) m' (finishPoll kind dropped) := by
  cases kind with
  | channel => exact keepUnless_left dropped rfl uncancelled
  | sendOnce => exact closeWith_left dropped (by simp) uncancelled
  | taskFn =>
      cases dropped with
      | false => exact .idle (by simp [uncancelled]) (by simp)
      | true => exact .freeing (by simp) rfl

theorem finishTry_left (dropped : Bool) (uncancelled : call.cancels = false) :
    Left kind m call (.ready value dropped) m' (finishTry kind dropped) := by
  by_cases isChannel : kind = .channel
  · rw [finishTry, if_pos isChannel]
    exact keepUnless_left dropped isChannel uncancelled
  · rw [finishTry, if_neg isChannel]
    exact closeWith_left dropped (by simp) uncancelled

theorem finishRecv_left (dropped : Bool) (uncancelled : call.cancels = false) :
    Left kind m call (.ready value dropped) m' (finishRecv kind dropped) := by
  by_cases isChannel : kind = .channel
  · rw [finishRecv, if_pos isChannel]
    exact keepUnless_left dropped isChannel uncancelled
  · rw [finishRecv, if_neg isChannel]
    exact closeWith_left dropped (by simp) uncancelled

theorem finishTimeout_left (dropped : Bool) (uncancelled : call.cancels = false) :
    Left kind m call (.ready value dropped) m' (finishTimeout kind value dropped) := by
  cases dropped with
  | true => exact .freeing (by simp) rfl
  | false =>
      cases value with
      | none => exact .idle (by simp [uncancelled]) fun _ => .inr (.inr rfl)
      | some value =>
          by_cases isChannel : kind = .channel
          · simp only [finishTimeout, isChannel, if_true, Option.isSome_some]
            exact .idle (by simp [uncancelled]) (by simp)
          · simp only [finishTimeout, isChannel, if_true, if_false, Option.isSome_some]
            exact .dropping uncancelled (by simp)

theorem finishRead_noted (kind : Kind) (m : World T W) (call : ReceiveCall W)
    (result : PollResult T) : Noted m result (finishRead kind m call result).1 := by
  cases result with
  | pending =>
      cases call with
      | poll waker | recv waker | timeout waker => exact .pends waker rfl
      | recvFirst | timeoutFirst => exact .begins
      | tryRecv | timeoutLast | cancel => exact .nothing
  | ready value dropped =>
      cases call with
      | poll | tryRecv | recv => exact .deliver m _ value
      | timeoutFirst | timeout | timeoutLast | cancel => exact .nothing
      | recvFirst waker =>
          cases value with
          | some value => exact .nothing
          | none =>
              cases dropped with
              | false => exact .begins
              | true => exact .ends
  | panic => cases call <;> exact .panics rfl

theorem finishRead_left (kind : Kind) (m : World T W) (call : ReceiveCall W)
    (result : PollResult T) :
    Left kind m call result (finishRead kind m call result).1
      (finishRead kind m call result).2 := by
  cases result with
  | pending =>
      cases call with
      | recvFirst => exact .reading (.inl ⟨rfl, rfl⟩) (.inl rfl)
      | timeoutFirst => exact .reading (.inr ⟨rfl, rfl⟩) (.inl rfl)
      | recv => exact .parked (.inl rfl) rfl
      | timeout => exact .parked (.inr rfl) rfl
      | cancel => exact .idle (fun _ => rfl) (by simp)
      | _ => exact .idle (by simp [ReceiveCall.cancels]) fun _ => .inr (.inl rfl)
  | ready value dropped =>
      cases call with
      | poll => exact finishPoll_left dropped rfl
      | tryRecv => exact finishTry_left dropped rfl
      | recv => exact finishRecv_left dropped rfl
      | timeoutFirst | timeout | timeoutLast => exact finishTimeout_left dropped rfl
      | recvFirst waker =>
          rcases value with _ | value
          · cases dropped with
            | false => exact .reading (.inl ⟨rfl, rfl⟩) (.inr rfl)
            | true => exact finishRecv_left true rfl
          · exact finishRecv_left dropped rfl
      | cancel =>
          cases dropped with
          | false => exact .idle (fun _ => rfl) (by simp)
          | true => exact .freeing (by simp) rfl
  | panic =>
      cases call with
      | poll | recvFirst | recv =>
          by_cases isChannel : kind = .channel
          · exact .idle (by simp [ReceiveCall.cancels]) fun _ => .inl isChannel
          · exact .idle (by simp [ReceiveCall.cancels]) (by simp [isChannel])
      | cancel => exact .idle (fun _ => rfl) (by simp)
      | _ => exact .idle (by simp [ReceiveCall.cancels]) (by simp)

end Receiver

namespace Sender

/-- A side between calls. -/
def rests : Sender T W → Bool
  | idle _ | freeing _ => true
  | _ => false

/-- What a write or a flush writes down when it has returned.  The channel
stays as it is. -/
inductive Noted (m : World T W) : World T W → Prop
  | nothing : Noted m m
  | givesBack (value : Option T) : Noted m (m.giveBack value)
  | discards (value : Option T) : Noted m (m.discard value)
  | pends (waker : W) : Noted m (m.pendFlush waker)
  | panics : Noted m m.panic

theorem Noted.waker {m m' : World T W} (noted : Noted m m') : m'.waker = m.waker := by
  induction noted <;> rfl

theorem finishTrySend_noted (kind : Kind) (m : World T W) (result : WriteResult T) :
    Noted m (finishTrySend kind m result).1 := by
  cases result with
  | ok => exact .nothing
  | err value dropped =>
      cases kind with
      | channel | sendOnce => exact .givesBack value
      | taskFn => exact .discards value
  | panic => exact .panics

theorem finishFlushWrite_noted (kind : Kind) (owner : Bool) (waker : W) (m : World T W)
    (result : WriteResult T) : Noted m (finishFlushWrite kind owner waker m result).1 := by
  cases result with
  | ok => exact .pends waker
  | err value dropped => exact .givesBack value
  | panic => exact .panics

theorem finishFlush_noted (kind : Kind) (owner : Bool) (waker : W) (m : World T W)
    (result : PollResult T) : Noted m (finishFlush kind owner waker m result).1 := by
  cases result with
  | pending => exact .pends waker
  | ready value dropped => exact .givesBack value
  | panic => exact .panics

theorem finishTrySend_rests (kind : Kind) (m : World T W) (result : WriteResult T) :
    (finishTrySend kind m result).2.rests = true := by
  cases result with
  | ok | panic => rfl
  | err value dropped => cases kind <;> cases dropped <;> rfl

theorem finishFlushWrite_rests (kind : Kind) (owner : Bool) (waker : W) (m : World T W)
    (result : WriteResult T) : (finishFlushWrite kind owner waker m result).2.rests = true := by
  cases result with
  | ok | panic => rfl
  | err value dropped => cases kind <;> cases dropped <;> rfl

theorem finishFlush_rests (kind : Kind) (owner : Bool) (waker : W) (m : World T W)
    (result : PollResult T) : (finishFlush kind owner waker m result).2.rests = true := by
  cases result with
  | pending | panic => rfl
  | ready value dropped => cases kind <;> cases dropped <;> rfl

end Sender

end Suspend.Channel
