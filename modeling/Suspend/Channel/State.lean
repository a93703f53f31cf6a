import Mathlib.Logic.Function.Basic

/-!
# The channel's state word

`Channel::state` is an `AtomicU8` of which five bits are used.  The model keeps
the bits apart, so that a mask is a state value of its own: `s.set mask` is
`s | mask` and `s.unset mask` is `s & !mask`.  The last section checks both
against the byte arithmetic of the source.
-/

namespace Suspend.Channel

/-- The five bits of `Channel::state`; `STATE_DONE` is the state with none of
them set. -/
@[ext]
structure State where
  active : Bool := false
  loaded : Bool := false
  wlock : Bool := false
  rlock : Bool := false
  wake : Bool := false
  deriving DecidableEq, Repr

namespace State

/-- `STATE_DONE`. -/
def done : State := {}

/-- `self | mask`. -/
def set (state mask : State) : State where
  active := state.active || mask.active
  loaded := state.loaded || mask.loaded
  wlock := state.wlock || mask.wlock
  rlock := state.rlock || mask.rlock
  wake := state.wake || mask.wake

/-- `self & !mask`. -/
def unset (state mask : State) : State where
  active := state.active && !mask.active
  loaded := state.loaded && !mask.loaded
  wlock := state.wlock && !mask.wlock
  rlock := state.rlock && !mask.rlock
  wake := state.wake && !mask.wake

section Bits

variable (state mask : State)

@[simp] theorem set_active : (state.set mask).active = (state.active || mask.active) := rfl
@[simp] theorem set_loaded : (state.set mask).loaded = (state.loaded || mask.loaded) := rfl
@[simp] theorem set_wlock : (state.set mask).wlock = (state.wlock || mask.wlock) := rfl
@[simp] theorem set_rlock : (state.set mask).rlock = (state.rlock || mask.rlock) := rfl
@[simp] theorem set_wake : (state.set mask).wake = (state.wake || mask.wake) := rfl
@[simp] theorem unset_active : (state.unset mask).active = (state.active && !mask.active) := rfl
@[simp] theorem unset_loaded : (state.unset mask).loaded = (state.loaded && !mask.loaded) := rfl
@[simp] theorem unset_wlock : (state.unset mask).wlock = (state.wlock && !mask.wlock) := rfl
@[simp] theorem unset_rlock : (state.unset mask).rlock = (state.rlock && !mask.rlock) := rfl
@[simp] theorem unset_wake : (state.unset mask).wake = (state.wake && !mask.wake) := rfl
@[simp] theorem done_active : done.active = false := rfl
@[simp] theorem done_loaded : done.loaded = false := rfl
@[simp] theorem done_wlock : done.wlock = false := rfl
@[simp] theorem done_rlock : done.rlock = false := rfl
@[simp] theorem done_wake : done.wake = false := rfl

end Bits

/-! ## Agreement with the byte constants -/

/-- The byte the source stores: `STATE_ACTIVE` is bit 0, then `STATE_LOADED`,
`STATE_WLOCK`, `STATE_RLOCK` and `STATE_WAKE`. -/
def toByte (state : State) : UInt8 :=
  (if state.active then 0b00001 else 0) ||| (if state.loaded then 0b00010 else 0) |||
    (if state.wlock then 0b00100 else 0) ||| (if state.rlock then 0b01000 else 0) |||
    (if state.wake then 0b10000 else 0)

theorem toByte_injective : Function.Injective toByte := by
  rintro ⟨a, l, w, r, k⟩ ⟨a', l', w', r', k'⟩
  revert a l w r k a' l' w' r' k'
  decide +kernel

/-- `fetch_or` on the byte is `set` on the bits. -/
theorem toByte_set (state mask : State) :
    (state.set mask).toByte = state.toByte ||| mask.toByte := by
  rcases state with ⟨a, l, w, r, k⟩
  rcases mask with ⟨a', l', w', r', k'⟩
  revert a l w r k a' l' w' r' k'
  decide +kernel

/-- `fetch_and` of a complement on the byte is `unset` on the bits. -/
theorem toByte_unset (state mask : State) :
    (state.unset mask).toByte = state.toByte &&& ~~~mask.toByte := by
  rcases state with ⟨a, l, w, r, k⟩
  rcases mask with ⟨a', l', w', r', k'⟩
  revert a l w r k a' l' w' r' k'
  decide +kernel

end State

end Suspend.Channel
