import Mathlib.Algebra.Ring.Nat
import Suspend.Transition.Core

/-!
# The count of a shared value and the programs that use it

`SharedInner` counts every reference twice, on top of a bias that says where
the owner stands: 3 while nothing is collected, 1 during a collection, 2 after
it.  The functions that access the count or the waker cell are given as
programs, one access a step; `spurious` lets a `compare_exchange_weak` fail
although the count is the expected one.
-/

namespace Suspend.Shared

open Suspend.Transition

universe v

variable {W : Type v}

/-! ## `usize` -/

/-- The number of values of a `usize`, for a target of 64 bits. -/
@[irreducible]
def usizeRange : Nat := 2 ^ 64

/-- `MAX_REFCOUNT`, which is `isize::MAX`. -/
def maxRefcount : Nat := 2 ^ 63 - 1

def wrappingAdd (left right : Nat) : Nat :=
  if left + right < usizeRange then left + right else left + right - usizeRange

def wrappingSub (left right : Nat) : Nat :=
  if right ≤ left then left - right else left + usizeRange - right

theorem wrappingAdd_of_lt {left right : Nat} (fits : left + right < usizeRange) :
    wrappingAdd left right = left + right :=
  if_pos fits

theorem wrappingSub_of_le {left right : Nat} (enough : right ≤ left) :
    wrappingSub left right = left - right :=
  if_pos enough

theorem small_lt_usizeRange {small : Nat} (isSmall : small ≤ 5) : small < usizeRange := by
  unfold usizeRange
  omega

theorem wrappingAdd_lt {left right : Nat} (fits : left < usizeRange) (isSmall : right ≤ 5) :
    wrappingAdd left right < usizeRange := by
  have small := small_lt_usizeRange isSmall
  unfold wrappingAdd
  split <;> omega

theorem wrappingSub_lt {left : Nat} (right : Nat) (fits : left < usizeRange) :
    wrappingSub left right < usizeRange := by
  unfold wrappingSub
  split <;> omega

theorem three_le_maxRefcount : 3 ≤ maxRefcount := by
  unfold maxRefcount
  omega

theorem maxRefcount_add_lt : maxRefcount + 6 < usizeRange := by
  unfold maxRefcount usizeRange
  omega

/-! ## The memory -/

/-- The `SharedInner` without its value, and the history of the run. -/
structure Inner (W : Type v) where
  /-- `SharedInner::count`. -/
  count : Nat := 3
  /-- `SharedInner::waker`. -/
  waker : Option W := none
  /-- How often the allocation has been freed. -/
  freed : Nat := 0
  /-- Some access came after the allocation was freed. -/
  stale : Bool := false
  /-- The waker cell was written when full, or dropped or woken when empty. -/
  wakerMisuse : Bool := false
  /-- A subtraction from the count went below zero. -/
  wrapped : Bool := false
  /-- Some assertion failed, or the references were too many. -/
  panicked : Bool := false
  /-- Wakers woken. -/
  woken : List W := []
  /-- Wakers dropped in the cell. -/
  discarded : List W := []
  deriving DecidableEq, Repr

namespace Inner

/-- Any access to the allocation. -/
def access (m : Inner W) : Inner W :=
  { m with stale := m.stale || m.freed != 0 }

/-- `count.fetch_add(amount)`. -/
def fetchAdd (amount : Nat) (m : Inner W) : Inner W :=
  { m.access with count := wrappingAdd m.count amount }

/-- `count.fetch_sub(amount)`. -/
def fetchSub (amount : Nat) (m : Inner W) : Inner W :=
  { m.access with
    count := wrappingSub m.count amount
    wrapped := m.wrapped || m.count < amount }

/-- `count.swap(new)`, and the store of a successful exchange. -/
def store (new : Nat) (m : Inner W) : Inner W :=
  { m.access with count := new }

/-- `store_waker`. -/
def storeWaker (waker : W) (m : Inner W) : Inner W :=
  { m.access with
    waker := some waker
    wakerMisuse := m.wakerMisuse || m.waker.isSome }

/-- `clear_waker`. -/
def clearWaker (m : Inner W) : Inner W :=
  { m.access with
    waker := none
    wakerMisuse := m.wakerMisuse || m.waker.isNone
    discarded := m.discarded ++ m.waker.toList }

/-- `wake_waker` moves the waker out of the cell. -/
def wakeWaker (m : Inner W) : Inner W :=
  { m.access with
    waker := none
    wakerMisuse := m.wakerMisuse || m.waker.isNone
    woken := m.woken ++ m.waker.toList }

/-- `Waker::wake_by_ref` of a caller's own waker. -/
def wake (waker : W) (m : Inner W) : Inner W :=
  { m with woken := m.woken ++ [waker] }

/-- `dealloc` of the box. -/
def dealloc (m : Inner W) : Inner W :=
  { m with freed := m.freed + 1 }

def panic (m : Inner W) : Inner W :=
  { m with panicked := true }

end Inner

/-! ## References -/

/-- `inc_count_ref`; the result says whether there is a new reference. -/
def incCountRef (m : Inner W) : Inner W × Bool :=
  if m.count > maxRefcount then ((m.fetchAdd 2).panic, false) else (m.fetchAdd 2, true)

/-- Program points of `dec_count_ref`; the result says whether the caller is to
free the allocation. -/
inductive DropPc where
  | sub
  | wake
  | exchange
  deriving DecidableEq, Repr

def DropPc.step (m : Inner W) : DropPc → Inner W × Outcome DropPc Bool
  | sub =>
      let next := m.fetchSub 2
      (next,
        if next.count = 0 then .ret true
        else if next.count = 1 then .goto wake
        else .ret false)
  | wake => (m.wakeWaker, .goto exchange)
  | exchange =>
      if m.count = 1 then (m.store 2, .ret false)
      -- interrupted: the owner has given up waiting
      else (m.access, .goto sub)

/-! ## Collecting -/

/-- Program points of `try_collect`. -/
inductive TryPc where
  | load
  | swap
  deriving DecidableEq, Repr

/-- The result of `try_collect`; `panic` is a failed assertion. -/
inductive TryResult where
  | collected
  | failed
  | panic
  deriving DecidableEq, Repr

def TryPc.step (pending : Bool) (m : Inner W) : TryPc → Inner W × Outcome TryPc TryResult
  | load =>
      (m.access,
        if pending ∧ m.count = 2 then .goto swap
        else if !pending ∧ m.count = 3 then .ret .collected
        else .ret .failed)
  | swap => (m.store 3, .ret (if m.count = 2 then .collected else .panic))

/-- Program points of `start_poll` and `resume_poll`. -/
inductive PollPc (W : Type v) where
  | startLoad (waker : W)
  | startStore (waker : W)
  | startSub
  | startClear
  | startSwap
  | resumeLoad (waker : W)
  | raise (count : Nat) (waker : W)
  | clear (waker : W)
  | store (waker : W)
  | lower (waker : W)
  | clearLast (waker : W)
  | yield (waker : W)
  deriving DecidableEq, Repr

/-- The result of a poll; `panic` is a failed assertion. -/
inductive PollResult where
  | pending
  | ready
  | panic
  deriving DecidableEq, Repr

namespace PollPc

/-- The head of the loop of `resume_poll`. -/
def loop (count : Nat) (waker : W) : Outcome (PollPc W) PollResult :=
  if count = 2 then .ret .ready
  else if count = 1 then .goto (yield waker)
  else .goto (raise count waker)

def step (spurious : Bool) (m : Inner W) : PollPc W → Inner W × Outcome (PollPc W) PollResult
  | startLoad waker =>
      (m.access, if m.count = 3 then .ret .ready else .goto (startStore waker))
  | startStore waker => (m.storeWaker waker, .goto startSub)
  | startSub =>
      let next := m.fetchSub 2
      (next, if next.count = 1 then .goto startClear else .ret .pending)
  | startClear => (m.clearWaker, .goto startSwap)
  | startSwap => (m.store 3, .ret (if m.count = 1 then .ready else .panic))
  | resumeLoad waker => (m.access, loop m.count waker)
  | raise count waker =>
      if m.count = count ∧ !spurious then (m.store (wrappingAdd count 2), .goto (clear waker))
      else (m.access, loop m.count waker)
  | clear waker => (m.clearWaker, .goto (store waker))
  | store waker => (m.storeWaker waker, .goto (lower waker))
  | lower waker =>
      let next := m.fetchSub 2
      (next, if next.count = 2 then .goto (clearLast waker) else loop next.count waker)
  | clearLast waker => (m.clearWaker, loop 2 waker)
  | yield waker => (m.wake waker, .ret .pending)

end PollPc

/-- Program points of `cancel_poll(reset)`. -/
inductive CancelPc where
  | load
  | swap
  | settle
  | raise (count : Nat)
  | clear
  deriving DecidableEq, Repr

/-- The result of `cancel_poll`, which says whether no reference is left;
`panic` is a failed assertion. -/
inductive CancelResult where
  | done (last : Bool)
  | panic
  deriving DecidableEq, Repr

namespace CancelPc

/-- The head of the loop of `cancel_poll`. -/
def loop (reset : Bool) (count : Nat) : Outcome CancelPc CancelResult :=
  if count = 2 then (if reset then .goto swap else .ret (.done true))
  else if count = 1 then .goto settle
  else .goto (raise count)

def step (reset spurious : Bool) (m : Inner W) : CancelPc → Inner W × Outcome CancelPc CancelResult
  | load => (m.access, loop reset m.count)
  | swap => (m.store 3, .ret (if m.count = 2 then .done true else .panic))
  | settle =>
      if m.count = 1 ∧ !spurious then (m.store (if reset then 5 else 2), .ret (.done !reset))
      else (m.access, loop reset m.count)
  | raise count =>
      if m.count = count ∧ !spurious then (m.store (wrappingAdd count 2), .goto clear)
      else (m.access, loop reset m.count)
  | clear => (m.clearWaker, .ret (.done false))

end CancelPc

end Suspend.Shared
