import Suspend.Channel.State
import Suspend.Transition.Core

/-!
# The shared memory of a channel

A `World` is one `Channel` allocation together with what an observer can tell
about the run so far.  The two cells are `Maybe` cells: the source never asks
them whether they hold something, so the model lets every access through and
notes the ones that find the cell in the wrong state.  Accesses after the
allocation was freed are noted in the same way.

All accesses are sequentially consistent, one at a time.
-/

namespace Suspend.Channel

open Suspend.Transition

universe u v

/-- The result of `write`; `panic` is the `Invalid channel state` panic. -/
inductive WriteResult (T : Type u) where
  | ok
  | err (value : Option T) (dropped : Bool)
  | panic
  deriving DecidableEq, Repr

/-- The result `Poll<(Option<T>, bool)>` of `flush` and `read`; `panic` is the
failed debug assertion of `read`. -/
inductive PollResult (T : Type u) where
  | pending
  | ready (value : Option T) (dropped : Bool)
  | panic
  deriving DecidableEq, Repr

/-- One `Channel` allocation and the history of the run. -/
structure World (T : Type u) (W : Type v) where
  /-- `Channel::state`. -/
  state : State := { active := true }
  /-- `Channel::value`. -/
  value : Option T := none
  /-- `Channel::waker`. -/
  waker : Option W := none
  /-- How often the allocation has been freed. -/
  freed : Nat := 0
  /-- Some access came after the allocation was freed. -/
  stale : Bool := false
  /-- The value cell was stored when full, or loaded or cleared when empty. -/
  valueMisuse : Bool := false
  /-- The waker cell was stored when full, or loaded or cleared when empty. -/
  wakerMisuse : Bool := false
  /-- Some call panicked. -/
  panicked : Bool := false
  /-- The sending side has cleared `STATE_ACTIVE`. -/
  senderClosed : Bool := false
  /-- The receiving side has cleared `STATE_ACTIVE`. -/
  receiverClosed : Bool := false
  /-- A drop of the sending side has run `drop_one_side` to its end. -/
  senderDropped : Bool := false
  /-- The receiving side has run `drop_one_side` to its end. -/
  receiverDropped : Bool := false
  /-- Values given to the sending calls, in order. -/
  passed : List T := []
  /-- Values published by setting `STATE_LOADED`, in order. -/
  published : List T := []
  /-- Values taken out by the receiving side, in order. -/
  received : List T := []
  /-- Values given back by the sending calls. -/
  returned : List T := []
  /-- Values dropped in place. -/
  discarded : List T := []
  /-- The value of the write in progress and whether it has been published. -/
  writing : Option (T × Bool) := none
  /-- Finished writes: the value, whether it was published, the result. -/
  writes : List (T × Bool × WriteResult T) := []
  /-- The published and the received values at each report of the end. -/
  ends : List (List T × List T) := []
  /-- The waker of the latest receiving call, if that was a poll which returned
  `Pending`. -/
  receiverPoll : Option W := none
  /-- The waker of the latest receiving poll, if it returned `Pending`; other
  receiving calls may have been made since. -/
  lastPoll : Option W := none
  /-- The waker of the latest `Flush` poll, if it returned `Pending`. -/
  senderPoll : Option W := none
  /-- Wakers woken since the latest receiving poll began. -/
  wokenSinceReceive : List W := []
  /-- Wakers woken since the latest `Flush` poll began. -/
  wokenSinceFlush : List W := []
  deriving DecidableEq, Repr

namespace World

variable {T : Type u} {W : Type v}

/-- Any access to the allocation. -/
def access (m : World T W) : World T W :=
  { m with stale := m.stale || m.freed != 0 }

/-- `state.fetch_or(mask)`. -/
def fetchOr (mask : State) (m : World T W) : World T W :=
  { m.access with state := m.state.set mask }

/-- `state.fetch_and(!mask)`. -/
def fetchAnd (mask : State) (m : World T W) : World T W :=
  { m.access with state := m.state.unset mask }

/-- `state.store(new)`, and the store of a successful exchange. -/
def store (new : State) (m : World T W) : World T W :=
  { m.access with state := new }

/-- `value.store(value)`. -/
def storeValue (value : T) (m : World T W) : World T W :=
  { m.access with
    value := some value
    valueMisuse := m.valueMisuse || m.value.isSome }

/-- `value.load()` leaves the cell empty; the value itself is `m.value`. -/
def loadValue (m : World T W) : World T W :=
  { m.access with
    value := none
    valueMisuse := m.valueMisuse || m.value.isNone }

/-- `value.clear()` drops the value in place. -/
def clearValue (m : World T W) : World T W :=
  { m.loadValue with discarded := m.discarded ++ m.value.toList }

/-- `waker.store(waker)`. -/
def storeWaker (waker : W) (m : World T W) : World T W :=
  { m.access with
    waker := some waker
    wakerMisuse := m.wakerMisuse || m.waker.isSome }

/-- `waker.load()` leaves the cell empty; `waker.clear()` has the same effect
on the cell and drops what it held. -/
def loadWaker (m : World T W) : World T W :=
  { m.access with
    waker := none
    wakerMisuse := m.wakerMisuse || m.waker.isNone }

/-- `Waker::wake` and `Waker::wake_by_ref`. -/
def wake (waker : W) (m : World T W) : World T W :=
  { m with
    wokenSinceReceive := waker :: m.wokenSinceReceive
    wokenSinceFlush := waker :: m.wokenSinceFlush }

/-- `dealloc` of the box. -/
def dealloc (m : World T W) : World T W :=
  { m with freed := m.freed + 1 }

/-! ## Histories -/

/-- The write in progress has set `STATE_LOADED` over its value. -/
def publish (m : World T W) : World T W :=
  { m with
    published := m.published ++ m.value.toList
    writing := m.writing.map fun write => (write.1, true) }

/-- The receiving side has moved the value out of the cell. -/
def receive (m : World T W) : World T W :=
  { m.loadValue with received := m.received ++ m.value.toList }

def closeSender (m : World T W) : World T W :=
  { m with senderClosed := true }

def closeReceiver (m : World T W) : World T W :=
  { m with receiverClosed := true }

end World

end Suspend.Channel
