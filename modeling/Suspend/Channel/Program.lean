import Suspend.Channel.World

/-!
# The four channel operations, one access at a time

`Channel::write`, `flush`, `read` and `drop_one_side` are given as programs: a
program point holds the locals of the source that are still live, and a step
performs the one access the source makes there and all the local control up to
the next.  `spurious` lets a `compare_exchange_weak` fail although the state
is the expected one; it is ignored everywhere else.
-/

namespace Suspend.Channel

open Suspend.Transition

universe u v

variable {T : Type u} {W : Type v}

/-! ## `Channel::write` -/

/-- Program points of `write(value, waker, finalize)`. -/
inductive WritePc (T : Type u) (W : Type v) where
  | load (value : T) (waker : Option W)
  | sync (value : T)
  | store (state : State) (value : T) (waker : Option W)
  | fast (state : State)
  | lock (waker : Option W)
  | takeReader (prev : State) (waker : Option W)
  | storeWaker (prev : State) (waker : W) (readWaker : Option W)
  | release (prev : State) (waker : W) (readWaker : Option W)
  | clearWaker (found : State) (waker : W)
  | unlockRead (waker : W)
  | unlock (readWaker : Option W)
  | takeBack
  | wake (waker : W)
  deriving DecidableEq, Repr

namespace WritePc

/-- After the reader's waker has been taken, or found missing. -/
def locked (prev : State) (waker readWaker : Option W) : WritePc T W :=
  match waker with
  | some waker => storeWaker prev waker readWaker
  | none => unlock readWaker

/-- `read_waker.map(Waker::wake)` and the final `Ok(())`. -/
def finish (readWaker : Option W) : Outcome (WritePc T W) (WriteResult T) :=
  match readWaker with
  | some waker => .goto (wake waker)
  | none => .ret .ok

def step (finalize spurious : Bool) (m : World T W) :
    WritePc T W → World T W × Outcome (WritePc T W) (WriteResult T)
  | load value waker =>
      (m.access,
        if !m.state.active then .goto (sync value)
        else if m.state.loaded then .ret (.err (some value) false)
        else .goto (store m.state value waker))
  | sync value => (m.access, .ret (.err (some value) true))
  | store state value waker =>
      (m.storeValue value,
        .goto (if waker.isNone && !state.wake then fast state else lock waker))
  | fast state =>
      -- `(state | STATE_LOADED) & !(finalize as u8)`
      if m.state = state ∧ !spurious then
        let m := m.publish.store ((state.set { loaded := true }).unset { active := finalize })
        (if finalize then m.closeSender else m, .ret .ok)
      else (m.access, .goto (lock none))
  | lock waker =>
      (m.publish.fetchOr { loaded := true, wlock := true, wake := true },
        if !m.state.wlock then
          .goto (if m.state.wake then takeReader m.state waker else locked m.state waker none)
        else finish waker)
  | takeReader prev waker => (m.loadWaker, .goto (locked prev waker m.waker))
  | storeWaker prev waker readWaker =>
      (m.storeWaker waker, .goto (release prev waker readWaker))
  | release prev waker readWaker =>
      if m.state = prev.set { loaded := true, wlock := true, wake := true } then
        (m.store (prev.set { loaded := true, wake := true }), finish readWaker)
      else (m.access, .goto (clearWaker m.state waker))
  | clearWaker found waker =>
      (m.loadWaker,
        if !found.loaded || found.rlock then .goto (unlockRead waker)
        else if !found.active then .goto takeBack
        else .ret .panic)
  | unlockRead waker => (m.fetchAnd { wlock := true, wake := true }, .goto (wake waker))
  | unlock readWaker =>
      let next := m.fetchAnd { wlock := true, wake := true, active := finalize }
      (if finalize then next.closeSender else next,
        if !m.state.active then .goto takeBack else finish readWaker)
  | takeBack => (m.loadValue, .ret (.err m.value true))
  | wake waker => (m.wake waker, .ret .ok)

end WritePc

/-! ## `Channel::flush` -/

/-- Program points of `flush(waker, finalize)`. -/
inductive FlushPc (W : Type v) where
  | load (waker : W)
  | clearLocked (prev : State)
  | resetLocked (prev : State)
  | finish
  | reset
  | takeBack
  | wake (waker : W)
  | clearPrev (prev : State) (waker : W)
  | storeWaker (prev : State) (waker : W)
  | release (prev : State) (waker : W)
  | clearOwn (waker : W)
  | unlock (waker : W)
  | lock (prev : State) (waker : W)
  deriving DecidableEq, Repr

namespace FlushPc

/-- The head of the loop: what `flush` does next with `prev` and `locked`. -/
def loop (finalize : Bool) (prev : State) (locked : Bool) (waker : W) : FlushPc W :=
  if !prev.loaded && !prev.rlock then
    -- loaded value has been read
    if locked then (if prev.wake then clearLocked prev else resetLocked prev) else finish
  else if !prev.active then
    -- reader dropped, leaving value
    if finalize then takeBack else reset
  else if prev.rlock then wake waker
  else if locked then (if prev.wake then clearPrev prev waker else storeWaker prev waker)
  else lock prev waker

def step (finalize spurious : Bool) (m : World T W) :
    FlushPc W → World T W × Outcome (FlushPc W) (PollResult T)
  | load waker => (m.access, .goto (loop finalize m.state false waker))
  | clearLocked prev => (m.loadWaker, .goto (resetLocked prev))
  | resetLocked prev =>
      let next := m.fetchAnd { wlock := true, wake := true, active := finalize }
      (if finalize then next.closeSender else next, .ret (.ready none !prev.active))
  | finish =>
      (if finalize then (m.fetchAnd { active := true }).closeSender else m.access,
        .ret (.ready none !m.state.active))
  | reset => (m.store State.done, .goto takeBack)
  | takeBack => (m.loadValue, .ret (.ready m.value true))
  | wake waker => (m.wake waker, .ret .pending)
  | clearPrev prev waker => (m.loadWaker, .goto (storeWaker prev waker))
  | storeWaker prev waker => (m.storeWaker waker, .goto (release prev waker))
  | release prev waker =>
      if m.state = prev.set { wlock := true, wake := true } ∧ !spurious then
        (m.store (prev.set { wake := true }), .ret .pending)
      else (m.access, .goto (clearOwn waker))
  | clearOwn waker => (m.loadWaker, .goto (unlock waker))
  | unlock waker =>
      (m.fetchAnd { wlock := true, wake := true },
        .goto (loop finalize (m.state.unset { wlock := true, wake := true }) false waker))
  | lock prev waker =>
      if m.state = prev ∧ !spurious then
        (m.store (prev.set { wlock := true, wake := true }), .goto (loop finalize prev true waker))
      else if m.state.wlock then (m.access, .goto (wake waker))
      else (m.access, .goto (loop finalize m.state false waker))

end FlushPc

/-! ## `Channel::read` -/

/-- Program points of `read(waker, or_cancel)`.  Once the waker has been moved
into the cell it is gone from the locals. -/
inductive ReadPc (T : Type u) (W : Type v) where
  | load (waker : Option W) (orCancel : Bool)
  | swap (prev : State)
  | takeClosed
  | lock (prev : State) (waker : Option W) (orCancel : Bool)
  | take (prev : State)
  | takeFlush (prev : State) (value : Option T)
  | unlock (prev : State) (value : Option T) (flushWaker : Option W)
  | wakeFlush (waker : W) (value : Option T) (dropped : Bool)
  | cancel (prev : State) (waker : Option W)
  | wake (waker : W)
  | register (prev : State) (waker : Option W) (orCancel : Bool)
  | clearPrev (prev : State) (waker : Option W) (orCancel : Bool)
  | storeWaker (prev : State) (waker : W) (orCancel : Bool)
  | release (prev : State) (waker : W) (orCancel : Bool)
  | clearOwn (orCancel : Bool)
  | unlockOwn (orCancel : Bool)
  | unlockBare (orCancel : Bool)
  deriving DecidableEq, Repr

namespace ReadPc

/-- The head of the loop: what `read` does next with `prev`. -/
def loop (prev : State) (waker : Option W) (orCancel : Bool) :
    Outcome (ReadPc T W) (PollResult T) :=
  if !prev.active then
    -- writer dropped
    if prev.loaded then .goto (swap prev) else .ret (.ready none true)
  else if prev.loaded then .goto (lock prev waker orCancel)
  else if orCancel then .goto (cancel prev waker)
  else if waker.isSome || prev.wake then
    if prev.wlock then
      -- waker locked by writer
      match waker with
      | some waker => .goto (wake waker)
      | none => .ret .pending
    else .goto (register prev waker orCancel)
  else .ret (.ready none false)

/-- With the waker lock held and the previous waker gone. -/
def registered (prev : State) (waker : Option W) (orCancel : Bool) : ReadPc T W :=
  match waker with
  | some waker => storeWaker prev waker orCancel
  | none => unlockBare orCancel

/-- The bits a reader gives up after taking a value. -/
def unlockMask (prev : State) : State :=
  { loaded := true, rlock := true, wlock := !prev.wlock, wake := !prev.wlock }

def step (spurious : Bool) (m : World T W) :
    ReadPc T W → World T W × Outcome (ReadPc T W) (PollResult T)
  | load waker orCancel => (m.access, loop m.state waker orCancel)
  | swap prev =>
      (m.store (prev.unset { loaded := true }),
        if m.state = prev then .goto takeClosed else .ret .panic)
  | takeClosed => (m.receive, .ret (.ready m.value true))
  | lock prev waker orCancel =>
      if m.state = prev ∧ !spurious then
        (m.store (prev.set { rlock := true, wlock := true }), .goto (take prev))
      else (m.access, loop m.state waker orCancel)
  | take prev =>
      (m.receive,
        .goto (if !prev.wlock && prev.wake then takeFlush prev m.value
          else unlock prev m.value none))
  | takeFlush prev value => (m.loadWaker, .goto (unlock prev value m.waker))
  | unlock prev value flushWaker =>
      (m.fetchAnd (unlockMask prev),
        match flushWaker with
        | some waker => .goto (wakeFlush waker value !m.state.active)
        | none => .ret (.ready value !m.state.active))
  | wakeFlush waker value dropped => (m.wake waker, .ret (.ready value dropped))
  | cancel prev waker =>
      if m.state = prev then
        ((m.store (prev.unset { active := true })).closeReceiver, .ret (.ready none false))
      else (m.access, loop m.state waker true)
  | wake waker => (m.wake waker, .ret .pending)
  | register prev waker orCancel =>
      if m.state = prev ∧ !spurious then
        (m.store (prev.set { rlock := true, wlock := true, wake := true }),
          .goto (if prev.wake then clearPrev prev waker orCancel
            else registered prev waker orCancel))
      else (m.access, loop m.state waker orCancel)
  | clearPrev prev waker orCancel => (m.loadWaker, .goto (registered prev waker orCancel))
  | storeWaker prev waker orCancel =>
      (m.storeWaker waker, .goto (release prev waker orCancel))
  | release prev _ orCancel =>
      if m.state = prev.set { rlock := true, wlock := true, wake := true } then
        (m.store (prev.set { wake := true }), .ret .pending)
      else (m.access, .goto (clearOwn orCancel))
  | clearOwn orCancel => (m.loadWaker, .goto (unlockOwn orCancel))
  | unlockOwn orCancel =>
      (m.fetchAnd { rlock := true, wlock := true, wake := true },
        loop (m.state.unset { rlock := true, wlock := true, wake := true }) none orCancel)
  | unlockBare orCancel =>
      let prev := m.state.unset { rlock := true, wlock := true, wake := true }
      (m.fetchAnd { rlock := true, wlock := true, wake := true },
        if !prev.loaded && prev.active then .ret (.ready none false)
        else loop prev none orCancel)

end ReadPc

/-! ## `Channel::drop_one_side` -/

/-- Program points of `drop_one_side(is_writer)`; the result says whether the
caller is to free the allocation. -/
inductive DropPc (W : Type v) where
  | lock
  | clearValue (prev : State)
  | clearWaker
  | takeWaker
  | clearOwn
  | unlock (waker : Option W)
  | wake (waker : W) (last : Bool)
  | close
  | clearLast
  deriving DecidableEq, Repr

namespace DropPc

/-- The second check: was the other side gone by the time `STATE_ACTIVE` was
cleared? -/
def finish (last : Bool) : Outcome (DropPc W) Bool :=
  if last then .goto clearLast else .ret false

def closeSide (isWriter : Bool) (m : World T W) : World T W :=
  if isWriter then m.closeSender else m.closeReceiver

def step (isWriter : Bool) (m : World T W) : DropPc W → World T W × Outcome (DropPc W) Bool
  | lock =>
      (m.fetchOr { wlock := true, wake := true },
        if !m.state.active then
          if m.state.loaded then .goto (clearValue m.state)
          else if m.state.wake then .goto clearWaker
          else .ret true
        else if !m.state.wlock then
          if m.state.wake then
            -- `(prev & STATE_LOADED != 0) ^ is_writer`: the waker is not ours
            .goto (if m.state.loaded ^^ isWriter then takeWaker else clearOwn)
          else .goto (unlock none)
        else .goto close)
  | clearValue prev => (m.clearValue, if prev.wake then .goto clearWaker else .ret true)
  | clearWaker => (m.loadWaker, .ret true)
  | takeWaker => (m.loadWaker, .goto (unlock m.waker))
  | clearOwn => (m.loadWaker, .goto (unlock none))
  | unlock waker =>
      (closeSide isWriter (m.fetchAnd { wlock := true, wake := true, active := true }),
        match waker with
        | some waker => .goto (wake waker !m.state.active)
        | none => finish !m.state.active)
  | wake waker last => (m.wake waker, finish last)
  | close => (closeSide isWriter (m.fetchAnd { active := true }), finish !m.state.active)
  | clearLast => (m.clearValue, .ret true)

end DropPc

end Suspend.Channel
