import Mathlib.Tactic.Common

/-!
# The state word of a parker

`ParkImpl` keeps one notification in its state word: `unpark` sets it and
`park` takes it back with a swap.  A `Cell` is the word together with what the
calls have returned so far, and its two operations keep the books: what was
given is what was taken and what is still set.
-/

namespace Suspend.Park

/-- `STATE_INIT`, `STATE_HELD`, `STATE_PARK` and `STATE_UNPARK`; `STATE_FREE` is
the word with none of them set. -/
structure Word where
  init : Bool := false
  held : Bool := false
  park : Bool := false
  unpark : Bool := false
  deriving DecidableEq, Repr

/-- The word without its notification. -/
def Word.quiet (word : Word) : Word :=
  { word with unpark := false }

theorem Word.quiet_eq {word : Word} (clear : word.unpark = false) : word.quiet = word := by
  rw [Word.quiet, ← clear]

/-- `ParkResult`. -/
inductive ParkResult where
  | skipped
  | timedOut
  | unparked
  deriving DecidableEq, Repr

/-- A park that returned so has consumed a notification. -/
def ParkResult.notified : ParkResult → Bool
  | .timedOut => false
  | .skipped | .unparked => true

/-- What the environment makes of a wait: it goes on as it does, its timeout
expires, or it ends for no reason that the caller can see. -/
inductive Fate where
  | goes
  | expires
  | interrupted
  deriving DecidableEq, Repr

/-- The state word, the number of `unpark` calls that have returned `true`, and
for each park past its last swap the result with what the swap found in
`STATE_UNPARK`. -/
structure Cell (R : Type) where
  word : Word := {}
  given : Nat := 0
  parks : List (R × Bool) := []
  deriving DecidableEq, Repr

namespace Cell

variable {R : Type}

/-- Parks whose swap has found a notification. -/
def consumed (cell : Cell R) : Nat :=
  cell.parks.countP (·.2)

/-- `state.fetch_or(STATE_UNPARK)`, of an `unpark` that returns `true` if the
bit was clear. -/
def unpark (cell : Cell R) : Cell R :=
  { cell with
    word := { cell.word with unpark := true }
    given := cell.given + (!cell.word.unpark).toNat }

/-- `state.swap(new)`, after which a park knows its result. -/
def swap (new : Word) (result : Bool → R) (cell : Cell R) : Cell R :=
  { cell with
    word := new
    parks := cell.parks ++ [(result cell.word.unpark, cell.word.unpark)] }

/-- Any other access to the word. -/
def store (new : Word) (cell : Cell R) : Cell R :=
  { cell with word := new }

/-- Each notification given has been consumed, or is still set. -/
def Balanced (cell : Cell R) : Prop :=
  cell.given = cell.consumed + cell.word.unpark.toNat

/-- A park says that it was notified exactly when its swap found so. -/
def Truthful (notified : R → Bool) (cell : Cell R) : Prop :=
  ∀ park ∈ cell.parks, notified park.1 = park.2

variable {cell : Cell R} {new : Word} {result : Bool → R} {notified : R → Bool}

/-- A second `unpark` changes nothing. -/
theorem unpark_word (isSet : cell.word.unpark = true) : cell.unpark.word = cell.word := by
  rw [Cell.unpark, ← isSet]

theorem Balanced.unpark (balanced : cell.Balanced) : cell.unpark.Balanced := by
  unfold Balanced at *
  cases isSet : cell.word.unpark <;> simp_all [Cell.unpark, consumed]

theorem Balanced.swap (balanced : cell.Balanced) (clears : new.unpark = false) :
    (cell.swap new result).Balanced := by
  unfold Balanced at *
  cases isSet : cell.word.unpark <;>
    simp_all [Cell.swap, consumed, List.countP_append]

theorem Balanced.store (balanced : cell.Balanced) (keeps : new.unpark = cell.word.unpark) :
    (cell.store new).Balanced := by
  unfold Balanced at *
  simpa [Cell.store, consumed, keeps] using balanced

theorem Truthful.swap (truthful : cell.Truthful notified)
    (answers : notified (result cell.word.unpark) = cell.word.unpark) :
    (cell.swap new result).Truthful notified := by
  intro park isPark
  rcases List.mem_append.mp isPark with earlier | last
  · exact truthful park earlier
  · obtain rfl := List.mem_singleton.mp last
    exact answers

/-- What was given is what the notified parks have taken, and what is set. -/
theorem Balanced.given_eq (balanced : cell.Balanced) (truthful : cell.Truthful notified) :
    cell.given = cell.parks.countP (fun park => notified park.1) + cell.word.unpark.toNat := by
  rw [balanced, consumed]
  congr 1
  apply List.countP_congr
  intro park isPark
  rw [truthful park isPark]

end Cell

end Suspend.Park
