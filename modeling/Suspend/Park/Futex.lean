import Suspend.Park.Cell
import Suspend.Transition.Core

/-!
# Parking on a futex

The futex implementation has no mutex: a park registers itself with a
compare-and-exchange and sleeps only if the word is still the one it has
written, so that a notification set in between keeps it awake.
-/

namespace Suspend.Park.Futex

open Suspend.Transition

/-- Where the parking thread is in `park`.  `wait`, `blocked` and `check` carry
the word that the park has registered. -/
inductive Parker where
  | idle
  | skip (state : Word)
  | exchange (state : Word) (timeout : Bool)
  | wait (state : Word) (timeout : Bool)
  | blocked (state : Word) (timeout : Bool)
  | check (state : Word) (timeout timedOut : Bool)
  | consume (state : Word)
  deriving DecidableEq, Repr

/-- Where a thread is in an `unpark` that has found `STATE_PARK` set and
`STATE_UNPARK` clear. -/
inductive Notifier where
  | wake
  | returned
  deriving DecidableEq, Repr

/-- `park` returns `Some(false)` if it is skipped, `Some(true)` if it is
unparked and `None` if it times out.  `failed` is set by a `debug_assert_eq!`
that does not hold and by the `panic!` of the exchange. -/
structure System where
  cell : Cell (Option Bool) := {}
  parker : Parker := .idle
  notifiers : List Notifier := []
  failed : Bool := false
  deriving DecidableEq, Repr

inductive Label where
  | acquire
  | release
  | park (timeout : Bool)
  | parker (fate : Fate)
  | unpark
  | notifier (index : Nat)
  deriving DecidableEq, Repr

namespace System

/-- The swap that consumes a notification which the park has already seen. -/
def skip (state : Word) (sys : System) : System :=
  { sys with
    cell := sys.cell.swap { state with unpark := false } fun _ => some false
    parker := .idle
    failed := sys.failed || sys.cell.word ≠ state }

/-- The swap after a wait, whose result is what it finds. -/
def consume (state : Word) (sys : System) : System :=
  { sys with
    cell := sys.cell.swap { state with park := false, unpark := false } fun found =>
      if found then some true else none
    parker := .idle }

/-- `compare_exchange(state, state | STATE_PARK)`. -/
def exchange (state : Word) (timeout : Bool) (sys : System) : System :=
  if sys.cell.word = state then
    { sys with
      cell := sys.cell.store { state with park := true }
      parker := .wait { state with park := true } timeout }
  else if sys.cell.word.unpark then { sys with parker := .skip sys.cell.word }
  else { sys with parker := .idle, failed := true }

/-- `futex_wait`: an instant in the past is seen before the system call, and
the kernel compares the word before the thread sleeps. -/
def wait (state : Word) (timeout : Bool) (sys : System) : Fate → Option System
  | .goes =>
      some { sys with
        parker := if sys.cell.word = state then .blocked state timeout
          else .check state timeout false }
  | .expires => if timeout then some { sys with parker := .check state timeout true } else none
  | .interrupted => none

/-- One step of the parking thread inside `park`. -/
def park (sys : System) (fate : Fate) : Option System :=
  match sys.parker with
  | .idle => none
  | .skip state => some (sys.skip state)
  | .exchange state timeout => some (sys.exchange state timeout)
  | .wait state timeout => sys.wait state timeout fate
  | .blocked state timeout =>
      match fate with
      | .goes => none
      | .expires => if timeout then some { sys with parker := .check state timeout true } else none
      | .interrupted => some { sys with parker := .check state timeout false }
  | .check state timeout timedOut =>
      some { sys with
        parker := if timedOut || sys.cell.word.unpark then .consume sys.cell.word
          else .wait state timeout }
  | .consume state => some (sys.consume state)

/-- The first load of `park`. -/
def beginPark (timeout : Bool) (sys : System) : System :=
  { sys with
    parker := if sys.cell.word.unpark then .skip sys.cell.word
      else .exchange sys.cell.word timeout }

/-- The `fetch_or` of `unpark`, after which only the first notifier of a
parked thread goes on to `futex_wake`. -/
def unpark (sys : System) : System :=
  { sys with
    cell := sys.cell.unpark
    notifiers :=
      if !sys.cell.word.unpark && sys.cell.word.park then sys.notifiers ++ [.wake]
      else sys.notifiers }

/-- `futex_wake` releases a thread that sleeps. -/
def wake (sys : System) : System :=
  match sys.parker with
  | .blocked state timeout => { sys with parker := .check state timeout false }
  | _ => sys

/-- The step of a notifier after its `fetch_or`. -/
def notify (sys : System) (index : Nat) : Option System :=
  match sys.notifiers[index]? with
  | some .wake =>
      some { sys.wake with notifiers := sys.notifiers.set index .returned }
  | some .returned | none => none

end System

/-- The parking thread acquires and releases the parker between its parks. -/
def step : Step System Label := fun sys label =>
  match label with
  | .acquire =>
      if sys.parker = .idle then
        some { sys with cell := sys.cell.store { sys.cell.word with held := true } }
      else none
  | .release =>
      if sys.parker = .idle && sys.cell.word.held then
        some { sys with cell := sys.cell.store { sys.cell.word with held := false } }
      else none
  | .park timeout => if sys.parker = .idle then some (sys.beginPark timeout) else none
  | .parker fate => sys.park fate
  | .unpark => some sys.unpark
  | .notifier index => sys.notify index

/-- What a park relies on from the word it has loaded or written: only
`unpark` could have changed it since. -/
def Parker.Sees (word : Word) : Parker → Prop
  | .idle => True
  | .skip state => word = state ∧ state.unpark = true
  | .exchange state _ => word.quiet = state
  | .wait state _ | .blocked state _ | .check state _ _ =>
      word.quiet = state ∧ state.park = true
  | .consume state => { word with unpark := state.unpark } = state

theorem Parker.Sees.unpark {parker : Parker} {cell : Cell (Option Bool)}
    (sees : parker.Sees cell.word) : parker.Sees cell.unpark.word := by
  cases parker with
  | skip state =>
      obtain ⟨asSeen, isSet⟩ := sees
      refine ⟨?_, isSet⟩
      rw [Cell.unpark_word (by rw [asSeen, isSet]), asSeen]
  | _ => exact sees

/-- The books of the state word, with what the park in progress relies on. -/
structure System.Tokens (sys : System) : Prop where
  balanced : sys.cell.Balanced
  truthful : sys.cell.Truthful Option.isSome
  sees : sys.parker.Sees sys.cell.word
  unfailed : sys.failed = false

namespace System.Tokens

variable {sys next : System}

theorem initial : System.Tokens {} where
  balanced := by simp [Cell.Balanced, Cell.consumed]
  truthful := by simp [Cell.Truthful]
  sees := trivial
  unfailed := rfl

/-- A step that leaves the notification as it is. -/
theorem store {word : Word} (tokens : sys.Tokens) (same : next.cell = sys.cell.store word)
    (keeps : word.unpark = sys.cell.word.unpark) (sees : next.parker.Sees word)
    (unfailed : next.failed = sys.failed) : next.Tokens where
  balanced := by rw [same]; exact tokens.balanced.store keeps
  truthful := by rw [same]; exact tokens.truthful
  sees := by rw [same]; exact sees
  unfailed := by rw [unfailed]; exact tokens.unfailed

theorem silent (tokens : sys.Tokens) (same : next.cell = sys.cell)
    (sees : next.parker.Sees sys.cell.word) (unfailed : next.failed = sys.failed) :
    next.Tokens :=
  tokens.store same rfl sees unfailed

theorem skip {state : Word} (tokens : sys.Tokens) (atSkip : sys.parker = .skip state) :
    (sys.skip state).Tokens := by
  obtain ⟨asSeen, isSet⟩ : sys.cell.word = state ∧ state.unpark = true := by
    have sees := tokens.sees
    rwa [atSkip] at sees
  constructor
  · exact tokens.balanced.swap rfl
  · apply tokens.truthful.swap
    rw [asSeen, isSet]
    rfl
  · exact trivial
  · simp [System.skip, tokens.unfailed, asSeen]

theorem consume {state : Word} (tokens : sys.Tokens) : (sys.consume state).Tokens := by
  constructor
  · exact tokens.balanced.swap rfl
  · apply tokens.truthful.swap
    cases sys.cell.word.unpark <;> rfl
  · exact trivial
  · exact tokens.unfailed

/-- The exchange fails only over a notification, and never reaches the panic. -/
theorem exchange {state : Word} {timeout : Bool} (tokens : sys.Tokens)
    (atExchange : sys.parker = .exchange state timeout) :
    (sys.exchange state timeout).Tokens := by
  have sees : sys.cell.word.quiet = state := by
    have sees := tokens.sees
    rwa [atExchange] at sees
  unfold System.exchange
  split
  · rename_i same
    have clear : state.unpark = false := by
      rw [← sees]
      rfl
    refine tokens.store rfl (by rw [same]) ⟨?_, rfl⟩ rfl
    exact Word.quiet_eq clear
  · rename_i differs
    split
    · rename_i isSet
      exact tokens.silent rfl ⟨rfl, isSet⟩ rfl
    · rename_i clear
      refine absurd ?_ differs
      rw [← sees, Word.quiet_eq (Bool.eq_false_iff.mpr clear)]

theorem park {fate : Fate} (tokens : sys.Tokens) (step : sys.park fate = some next) :
    next.Tokens := by
  have sees := tokens.sees
  cases atPc : sys.parker with
  | idle => simp [System.park, atPc] at step
  | skip state =>
      simp only [System.park, atPc, Option.some.injEq] at step
      subst step
      exact tokens.skip atPc
  | exchange state timeout =>
      simp only [System.park, atPc, Option.some.injEq] at step
      subst step
      exact tokens.exchange atPc
  | consume state =>
      simp only [System.park, atPc, Option.some.injEq] at step
      subst step
      exact tokens.consume
  | _ =>
      simp only [System.park, atPc, System.wait] at step
      grind -linarith -ring -order -ac [Parker.Sees, tokens.silent]

theorem beginPark (timeout : Bool) (tokens : sys.Tokens) : (sys.beginPark timeout).Tokens := by
  refine tokens.silent rfl ?_ rfl
  unfold System.beginPark
  split
  · exact ⟨rfl, by assumption⟩
  · rename_i clear
    exact Word.quiet_eq (Bool.eq_false_iff.mpr clear)

theorem unpark (tokens : sys.Tokens) : sys.unpark.Tokens := by
  constructor
  · exact tokens.balanced.unpark
  · exact tokens.truthful
  · exact tokens.sees.unpark
  · exact tokens.unfailed

theorem notify {index : Nat} (tokens : sys.Tokens) (step : sys.notify index = some next) :
    next.Tokens := by
  have sees := tokens.sees
  unfold System.notify System.wake at step
  grind -linarith -ring -order -ac [Parker.Sees, tokens.silent]

end System.Tokens

/-- Every step of every thread keeps the books. -/
theorem System.Tokens.step {sys next : System} {label : Label} (tokens : sys.Tokens)
    (step : Futex.step sys label = some next) : next.Tokens := by
  cases label with
  | acquire =>
      obtain ⟨atIdle, rfl⟩ := by simpa [Futex.step] using step
      exact tokens.store rfl rfl (by rw [atIdle]; trivial) rfl
  | release =>
      obtain ⟨⟨atIdle, _⟩, rfl⟩ := by simpa [Futex.step] using step
      exact tokens.store rfl rfl (by rw [atIdle]; trivial) rfl
  | park timeout =>
      obtain ⟨_, rfl⟩ := by simpa [Futex.step] using step
      exact tokens.beginPark timeout
  | parker fate => exact tokens.park step
  | unpark =>
      obtain rfl := by simpa [Futex.step] using step
      exact tokens.unpark
  | notifier index => exact tokens.notify step

/-- The books hold in every state that any interleaving reaches. -/
theorem tokens_of_reachable {sys : System} (reachable : Reachable step {} sys) : sys.Tokens :=
  reachable.invariant System.Tokens.initial fun _ _ _ tokens _ step => tokens.step step

/-! ## The wake -/

/-- A thread that sleeps over a notification is about to be woken. -/
def System.Woken (sys : System) : Prop :=
  ∀ state timeout, sys.parker = .blocked state timeout → sys.cell.word.unpark = true →
    .wake ∈ sys.notifiers

namespace System.Woken

variable {sys next : System}

theorem unpark (tokens : sys.Tokens) (woken : sys.Woken) : sys.unpark.Woken := by
  intro state timeout isBlocked _
  have sees := tokens.sees
  have atPc : sys.parker = .blocked state timeout := isBlocked
  rw [atPc] at sees
  obtain ⟨rfl, isParked⟩ := sees
  cases isSet : sys.cell.word.unpark with
  | true => simpa [System.unpark, isSet] using woken _ _ isBlocked isSet
  | false =>
      have parked : sys.cell.word.park = true := isParked
      simp [System.unpark, isSet, parked]

/-- The kernel puts the thread to sleep only over the word that it has written. -/
theorem woken_of_park {fate : Fate} (tokens : sys.Tokens) (step : sys.park fate = some next) :
    next.Woken := by
  intro state limit isBlocked isSet
  cases atPc : sys.parker with
  | wait written timeout =>
      have sees := tokens.sees
      rw [atPc] at sees
      obtain ⟨rfl, _⟩ := sees
      simp only [System.park, atPc, System.wait] at step
      grind -linarith -ring -order -ac [Word.quiet]
  | _ =>
      simp only [System.park, atPc, System.skip, System.consume, System.exchange] at step
      grind -linarith -ring -order -ac

theorem step {label : Label} (tokens : sys.Tokens) (woken : sys.Woken)
    (step : Futex.step sys label = some next) : next.Woken := by
  cases label with
  | acquire =>
      obtain ⟨_, rfl⟩ := by simpa [Futex.step] using step
      exact woken
  | release =>
      obtain ⟨_, rfl⟩ := by simpa [Futex.step] using step
      exact woken
  | park timeout =>
      obtain ⟨_, rfl⟩ := by simpa [Futex.step] using step
      intro state limit isBlocked
      grind -linarith -ring -order -ac [System.beginPark]
  | parker fate =>
      exact woken_of_park tokens step
  | unpark =>
      obtain rfl := by simpa [Futex.step] using step
      exact woken.unpark tokens
  | notifier index =>
      intro state limit isBlocked
      grind -linarith -ring -order -ac [Futex.step, System.notify, System.wake]

end System.Woken

theorem woken_of_reachable {sys : System} (reachable : Reachable step {} sys) : sys.Woken :=
  ReachableUnder.invariant_with (fun _ earlier => tokens_of_reachable earlier)
    (by simp [System.Woken]) (fun _ _ _ tokens woken _ step => woken.step tokens step) reachable

end Suspend.Park.Futex
