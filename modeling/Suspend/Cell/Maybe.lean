import Suspend.Transition.Calls

/-!
# The cells of the channel

`Maybe` and `MaybeCopy` exist twice: the checked variants keep a `loaded` flag
and assert on it, the unchecked ones only access their memory.  Reading a value
out leaves its bytes where they are, so both variants always find the same
memory, and what differs is which calls the flag allows.
-/

namespace Suspend.Cell

open Suspend.Transition

universe u

variable {T : Type u}

/-! ## Memory -/

/-- An `UnsafeCell<MaybeUninit<T>>`: `none` is uninitialized.  With it the values
put into the cell, and those moved out of it or dropped in it. -/
structure Slot (T : Type u) where
  data : Option T := none
  put : List T := []
  gone : List T := []
  deriving DecidableEq, Repr

namespace Slot

/-- `write` overwrites without dropping. -/
def write (value : T) (slot : Slot T) : Slot T :=
  { slot with data := some value, put := slot.put ++ [value] }

/-- `ptr::read` and `drop_in_place`: the value is gone, its bytes are not. -/
def take (slot : Slot T) : Slot T :=
  { slot with gone := slot.gone ++ slot.data.toList }

/-- A new cell in the place of the old one. -/
def renew (slot : Slot T) : Slot T :=
  { slot with data := none }

end Slot

/-- `empty` and `new`. -/
inductive Start (T : Type u) where
  | empty
  | new (value : T)
  deriving DecidableEq, Repr

/-- What a call returns; a value is what it has found in memory. -/
inductive Answer (T : Type u) where
  | unit
  | value (data : Option T)
  deriving DecidableEq, Repr

/-! ## The checked variants -/

/-- The data of `checked::Maybe` and `checked::MaybeCopy`. -/
structure Checked (T : Type u) where
  slot : Slot T := {}
  loaded : Bool := false
  deriving DecidableEq, Repr

/-- `assert_eq!(loaded, expected, message)`. -/
def assertLoaded (cell : Checked T) (expected : Bool) (message : String)
    (next : Answer T × Checked T) : Except String (Answer T × Checked T) :=
  if cell.loaded = expected then .ok next else .error message

namespace Checked

/-- `empty` and `new` of both variants, with the memory of the cell before. -/
def start (slot : Slot T) : Start T → Checked T
  | .empty => { slot := slot.renew, loaded := false }
  | .new value => { slot := slot.renew.write value, loaded := true }

/-- `replace` of both variants. -/
def replace (value : T) (cell : Checked T) : Except String (Answer T × Checked T) :=
  assertLoaded cell true "replace on empty store"
    (.value cell.slot.data, { cell with slot := cell.slot.take.write value })

end Checked

/-! ## The unchecked variants -/

namespace Unchecked

/-- `empty` and `new` of both variants, with the memory of the cell before. -/
def start (slot : Slot T) : Start T → Slot T
  | .empty => slot.renew
  | .new value => slot.renew.write value

/-- `replace` of both variants. -/
def replace (value : T) (slot : Slot T) : Answer T × Slot T :=
  (.value slot.data, slot.take.write value)

end Unchecked

/-! ## The variants agree -/

/-- Both variants have the same memory. -/
def Checked.Agrees (cell : Checked T) (slot : Slot T) : Prop :=
  cell.slot = slot

/-- The flag says whether the value put in last is still there, and every value
before it is gone. -/
def Checked.Sound (cell : Checked T) : Prop :=
  if cell.loaded then ∃ value, cell.slot.data = some value ∧
    cell.slot.put = cell.slot.gone ++ [value]
  else cell.slot.put = cell.slot.gone

end Suspend.Cell
