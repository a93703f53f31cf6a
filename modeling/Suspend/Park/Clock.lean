import Mathlib.Tactic.Common
import Mathlib.Tactic.Ring

/-!
# Expiries and the timeouts of the system calls

An `Expiry` is an instant.  A wait turns it into the time that is left, and
that into what its system call takes: `pthread_cond_timedwait` an instant as
well, read off the clock a second time, and the futex the time itself.  Seconds
go through `time_t`, which may be too small for them.
-/

namespace Suspend.Park

/-- Nanoseconds in a second. -/
def nanosPerSec : Nat :=
  1_000_000_000

/-- `std::time::Duration`, with an `u64` of seconds. -/
structure Duration where
  secs : Nat
  nanos : Nat
  secs_lt : secs < 2 ^ 64
  nanos_lt : nanos < nanosPerSec

def Duration.total (duration : Duration) : Nat :=
  duration.secs * nanosPerSec + duration.nanos

/-- `std::time::Instant`: nanoseconds from the start of the clock, with an `i64`
of seconds. -/
structure Instant where
  nanos : Nat
  bounded : nanos < 2 ^ 63 * nanosPerSec

/-- The width of `time_t`. -/
inductive TimeT where
  | bits32
  | bits64
  deriving DecidableEq, Repr

namespace TimeT

/-- `time_t::max_value()`. -/
def max : TimeT → Int
  | bits32 => 2 ^ 31 - 1
  | bits64 => 2 ^ 63 - 1

end TimeT

/-- `libc::timespec`. -/
structure Timespec where
  sec : Int
  nsec : Int
  deriving DecidableEq, Repr

/-- A reading of the clock that `time_t` has room for. -/
structure Now (t : TimeT) where
  nanos : Nat
  bounded : ((nanos / nanosPerSec : Nat) : Int) ≤ t.max

namespace Now

variable {t : TimeT}

/-- The clock after some nanoseconds. -/
def after (now : Now t) (nanos : Nat) : Option (Now t) :=
  if bounded : (((now.nanos + nanos) / nanosPerSec : Nat) : Int) ≤ t.max then
    some ⟨now.nanos + nanos, bounded⟩
  else none

theorem after_nanos {now later : Now t} {nanos : Nat} (passed : now.after nanos = some later) :
    later.nanos = now.nanos + nanos := by
  unfold after at passed
  split at passed
  · obtain rfl := Option.some.inj passed
    rfl
  · cases passed

end Now

/-! ## The timeouts -/

/-- A timespec in nanoseconds. -/
def Timespec.total (ts : Timespec) : Int :=
  ts.sec * nanosPerSec + ts.nsec

/-- The expiry has passed, or the wait lasts until an instant of the clock, or
it has no timeout. -/
inductive Sleep where
  | expired
  | upTo (nanos : Nat)
  | forever
  deriving DecidableEq, Repr

variable {t : TimeT}

/-- A wait that reads the clock twice asks for its expiry, later by the time
between the two readings; it has no timeout only if there is no expiry or none
that `time_t` has room for. -/
def Sleep.Timely (expiry : Option Instant) (first second : Now t) : Sleep → Prop
  | expired => ∃ inst, expiry = some inst ∧ inst.nanos < first.nanos
  | upTo nanos => ∃ inst, expiry = some inst ∧ first.nanos ≤ inst.nanos ∧
      nanos = second.nanos + (inst.nanos - first.nanos)
  | forever => ∀ inst, expiry = some inst →
      t.max < ((second.nanos + (inst.nanos - first.nanos)) / nanosPerSec : Nat)

variable {expiry : Option Instant} {first second : Now t}

end Suspend.Park
