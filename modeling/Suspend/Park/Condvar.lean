import Suspend.Park.Cell
import Suspend.Transition.Core
import Mathlib.Tactic.MkIffOfInductiveProp

/-!
# Parking on a mutex and a condition variable

One thread parks, any number of threads call `unpark`, and each access to the
state word, the mutex and the condition variable is one step.  The pthread
implementation and the one over `std` differ in what they set when a park
registers itself, and so in how often they initialise their lock.
-/

namespace Suspend.Park.Condvar

open Suspend.Transition

/-- `pthread::ParkImpl` and `default::ParkImpl`. -/
inductive Impl where
  | pthread
  | std
  deriving DecidableEq, Repr

/-- `fetch_or(STATE_INIT | STATE_PARK)`; the `std` based `park` leaves
`STATE_INIT` alone. -/
def Impl.register : Impl → Word → Word
  | .pthread, word => { word with init := true, park := true }
  | .std, word => { word with park := true }

/-- Where the parking thread is in `park`, with the locals that are still
needed: the state it has loaded, whether it has a timeout, and what `wait`
has returned. -/
inductive Parker where
  | idle
  | skip (state : Word)
  | init (timeout : Bool)
  | lock (timeout : Bool)
  | register (timeout : Bool)
  | skipUnlock (state : Word)
  | wait (timeout : Bool)
  | blocked (timeout : Bool)
  | reacquire (timeout timedOut : Bool)
  | check (timeout timedOut : Bool)
  | consume (state : Word)
  | unlock
  deriving DecidableEq, Repr

/-- Where a thread is in an `unpark` that has found `STATE_PARK` set and
`STATE_UNPARK` clear. -/
inductive Notifier where
  | lock
  | unlock
  | signal
  | returned
  deriving DecidableEq, Repr

/-- The lock counts as free before it is initialised.  `failed` is set by a
`debug_assert_eq!` that does not hold. -/
structure System where
  cell : Cell ParkResult := {}
  mutex : Bool := false
  parker : Parker := .idle
  notifiers : List Notifier := []
  failed : Bool := false
  deriving DecidableEq, Repr

inductive Label where
  | acquire
  | release
  | park (timeout : Bool)
  | parker (fate : Fate)
  | unpark
  | notifier (index : Nat)
  deriving DecidableEq, Repr

namespace System

/-- The swap that consumes a notification which the park has already seen. -/
def skip (state : Word) (sys : System) : System :=
  { sys with
    cell := sys.cell.swap { state with unpark := false } fun _ => .skipped
    parker := .idle
    failed := sys.failed || sys.cell.word ≠ state }

/-- The swap after a wait, whose result is what it finds. -/
def consume (state : Word) (sys : System) : System :=
  { sys with
    cell := sys.cell.swap { state with park := false, unpark := false } fun found =>
      if found then .unparked else .timedOut
    parker := .unlock }

/-- `guard.wait(timeout)`: an expired timeout is seen before the mutex is
released, and `pthread_cond_timedwait` may refuse a negative one. -/
def wait (impl : Impl) (timeout : Bool) (sys : System) : Fate → Option System
  | .goes => some { sys with mutex := false, parker := .blocked timeout }
  | .expires => if timeout then some { sys with parker := .check timeout true } else none
  | .interrupted =>
      if timeout && impl = .pthread then some { sys with parker := .check timeout false }
      else none

/-- One step of the parking thread inside `park`. -/
def park (impl : Impl) (sys : System) (fate : Fate) : Option System :=
  match sys.parker with
  | .idle => none
  | .skip state => some (sys.skip state)
  | .init timeout => some { sys with mutex := false, parker := .lock timeout }
  | .lock timeout =>
      if sys.mutex then none else some { sys with mutex := true, parker := .register timeout }
  | .register timeout =>
      let state := impl.register sys.cell.word
      some { sys with
        cell := sys.cell.store state
        parker := if state.unpark then .skipUnlock state else .wait timeout }
  | .skipUnlock state => some { sys with mutex := false, parker := .skip state }
  | .wait timeout => sys.wait impl timeout fate
  | .blocked timeout =>
      match fate with
      | .goes => none
      | .expires => if timeout then some { sys with parker := .reacquire timeout true } else none
      | .interrupted => some { sys with parker := .reacquire timeout false }
  | .reacquire timeout timedOut =>
      if sys.mutex then none
      else some { sys with mutex := true, parker := .check timeout timedOut }
  | .check timeout timedOut =>
      some { sys with
        parker := if timedOut || sys.cell.word.unpark then .consume sys.cell.word
          else .wait timeout }
  | .consume state => some (sys.consume state)
  | .unlock => some { sys with mutex := false, parker := .idle }

/-- The first load of `park`. -/
def beginPark (timeout : Bool) (sys : System) : System :=
  { sys with
    parker :=
      if sys.cell.word.unpark then .skip sys.cell.word
      else if sys.cell.word.init then .lock timeout
      else .init timeout }

/-- The `fetch_or` of `unpark`, after which only the first notifier of a
parked thread goes on to the signal. -/
def unpark (sys : System) : System :=
  { sys with
    cell := sys.cell.unpark
    notifiers :=
      if !sys.cell.word.unpark && sys.cell.word.park then sys.notifiers ++ [.lock]
      else sys.notifiers }

/-- `pthread_cond_signal` releases a thread that sleeps, which then has to take
the mutex again. -/
def signal (sys : System) : System :=
  match sys.parker with
  | .blocked timeout => { sys with parker := .reacquire timeout false }
  | _ => sys

/-- One step of a notifier after its `fetch_or`. -/
def notify (sys : System) (index : Nat) : Option System :=
  let move (notifier : Notifier) (sys : System) : System :=
    { sys with notifiers := sys.notifiers.set index notifier }
  match sys.notifiers[index]? with
  | some .lock => if sys.mutex then none else some (move .unlock { sys with mutex := true })
  | some .unlock => some (move .signal { sys with mutex := false })
  | some .signal => some (move .returned sys.signal)
  | some .returned | none => none

end System

/-- The parking thread acquires and releases the parker between its parks. -/
def step (impl : Impl) : Step System Label := fun sys label =>
  match label with
  | .acquire =>
      if sys.parker = .idle then
        some { sys with cell := sys.cell.store { sys.cell.word with held := true } }
      else none
  | .release =>
      if sys.parker = .idle && sys.cell.word.held then
        some { sys with cell := sys.cell.store { sys.cell.word with held := false } }
      else none
  | .park timeout => if sys.parker = .idle then some (sys.beginPark timeout) else none
  | .parker fate => sys.park impl fate
  | .unpark => some sys.unpark
  | .notifier index => sys.notify index

/-- A park that is going to swap has loaded the word as it is: only `unpark`
could have changed it since, and where it was set it cannot. -/
def Parker.Sees (word : Word) : Parker → Prop
  | .skip state | .skipUnlock state => word = state ∧ state.unpark = true
  | .consume state => { word with unpark := state.unpark } = state
  | _ => True

theorem Parker.Sees.unpark {parker : Parker} {cell : Cell ParkResult}
    (sees : parker.Sees cell.word) : parker.Sees cell.unpark.word := by
  cases parker with
  | skip state | skipUnlock state =>
      obtain ⟨asSeen, isSet⟩ := sees
      refine ⟨?_, isSet⟩
      rw [Cell.unpark_word (by rw [asSeen, isSet]), asSeen]
  | consume state => exact sees
  | _ => trivial

/-- The books of the state word, together with what a skipping park relies on. -/
structure System.Tokens (sys : System) : Prop where
  balanced : sys.cell.Balanced
  truthful : sys.cell.Truthful ParkResult.notified
  sees : sys.parker.Sees sys.cell.word
  unfailed : sys.failed = false

namespace System.Tokens

variable {impl : Impl} {sys next : System}

theorem initial : System.Tokens {} where
  balanced := by simp [Cell.Balanced, Cell.consumed]
  truthful := by simp [Cell.Truthful]
  sees := trivial
  unfailed := rfl

/-- A step that leaves the notification as it is. -/
theorem store {word : Word} (tokens : sys.Tokens) (same : next.cell = sys.cell.store word)
    (keeps : word.unpark = sys.cell.word.unpark) (sees : next.parker.Sees word)
    (unfailed : next.failed = sys.failed) : next.Tokens where
  balanced := by rw [same]; exact tokens.balanced.store keeps
  truthful := by rw [same]; exact tokens.truthful
  sees := by rw [same]; exact sees
  unfailed := by rw [unfailed]; exact tokens.unfailed

theorem silent (tokens : sys.Tokens) (same : next.cell = sys.cell)
    (sees : next.parker.Sees sys.cell.word) (unfailed : next.failed = sys.failed) :
    next.Tokens :=
  tokens.store same rfl sees unfailed

theorem skip {state : Word} (tokens : sys.Tokens) (atSkip : sys.parker = .skip state) :
    (sys.skip state).Tokens := by
  obtain ⟨asSeen, isSet⟩ : sys.cell.word = state ∧ state.unpark = true := by
    have sees := tokens.sees
    rwa [atSkip] at sees
  constructor
  · exact tokens.balanced.swap rfl
  · apply tokens.truthful.swap
    rw [asSeen, isSet]
    rfl
  · exact trivial
  · simp [System.skip, tokens.unfailed, asSeen]

theorem consume {state : Word} (tokens : sys.Tokens) : (sys.consume state).Tokens := by
  constructor
  · exact tokens.balanced.swap rfl
  · apply tokens.truthful.swap
    cases sys.cell.word.unpark <;> rfl
  · exact trivial
  · exact tokens.unfailed

theorem park {fate : Fate} (tokens : sys.Tokens) (step : sys.park impl fate = some next) :
    next.Tokens := by
  have sees := tokens.sees
  cases atPc : sys.parker with
  | idle => simp [System.park, atPc] at step
  | skip state =>
      simp only [System.park, atPc, Option.some.injEq] at step
      subst step
      exact tokens.skip atPc
  | register timeout =>
      simp only [System.park, atPc, Option.some.injEq] at step
      subst step
      refine tokens.store rfl (by cases impl <;> rfl) ?_ rfl
      cases isSet : (impl.register sys.cell.word).unpark with
      | true => exact ⟨rfl, isSet⟩
      | false => exact trivial
  | skipUnlock state =>
      simp only [System.park, atPc, Option.some.injEq] at step
      subst step
      rw [atPc] at sees
      exact tokens.silent rfl sees rfl
  | consume state =>
      simp only [System.park, atPc, Option.some.injEq] at step
      subst step
      exact tokens.consume
  | _ =>
      simp only [System.park, atPc, System.wait] at step
      grind -linarith -ring -order -ac [Parker.Sees, tokens.silent]

theorem beginPark (timeout : Bool) (tokens : sys.Tokens) : (sys.beginPark timeout).Tokens := by
  refine tokens.silent rfl ?_ rfl
  unfold System.beginPark
  split
  · exact ⟨rfl, by assumption⟩
  · split <;> exact trivial

theorem unpark (tokens : sys.Tokens) : sys.unpark.Tokens := by
  constructor
  · exact tokens.balanced.unpark
  · exact tokens.truthful
  · exact tokens.sees.unpark
  · exact tokens.unfailed

theorem notify {index : Nat} (tokens : sys.Tokens) (step : sys.notify index = some next) :
    next.Tokens := by
  have sees := tokens.sees
  unfold System.notify System.signal at step
  grind -linarith -ring -order -ac [Parker.Sees, tokens.silent]

end System.Tokens

/-- Every step of every thread keeps the books. -/
theorem System.Tokens.step {impl : Impl} {sys next : System} {label : Label} (tokens : sys.Tokens)
    (step : Condvar.step impl sys label = some next) : next.Tokens := by
  cases label with
  | acquire =>
      obtain ⟨atIdle, rfl⟩ := by simpa [Condvar.step] using step
      exact tokens.store rfl rfl (by rw [atIdle]; trivial) rfl
  | release =>
      obtain ⟨⟨atIdle, _⟩, rfl⟩ := by simpa [Condvar.step] using step
      exact tokens.store rfl rfl (by rw [atIdle]; trivial) rfl
  | park timeout =>
      obtain ⟨_, rfl⟩ := by simpa [Condvar.step] using step
      exact tokens.beginPark timeout
  | parker fate => exact tokens.park step
  | unpark =>
      obtain rfl := by simpa [Condvar.step] using step
      exact tokens.unpark
  | notifier index => exact tokens.notify step

/-- The books hold in every state that any interleaving reaches. -/
theorem tokens_of_reachable {impl : Impl} {sys : System}
    (reachable : Reachable (step impl) {} sys) : sys.Tokens :=
  reachable.invariant System.Tokens.initial fun _ _ _ tokens _ step => tokens.step step

/-! ## The signal -/

/-- The parking thread holds the mutex. -/
def Parker.holds : Parker → Bool
  | .register _ | .skipUnlock _ | .wait _ | .check _ _ | .consume _ | .unlock => true
  | _ => false

/-- The park has set `STATE_PARK` and not yet cleared it. -/
def Parker.registered : Parker → Bool
  | .skipUnlock _ | .wait _ | .blocked _ | .reacquire _ _ | .check _ _ | .consume _ => true
  | _ => false

/-- The `unpark` is still on its way to the signal. -/
def Notifier.OnItsWay (notifier : Notifier) : Prop :=
  notifier ≠ .returned

/-- Who must still be coming if the notification is set: while the parking
thread holds the mutex before its wait, a notifier that has yet to take it. -/
def Parker.Expects (notifiers : List Notifier) : Parker → Prop
  | .wait _ => .lock ∈ notifiers
  | .blocked _ => ∃ notifier ∈ notifiers, notifier.OnItsWay
  | _ => True

/-- The mutex, both flags and the places of the notifiers agree. -/
@[mk_iff]
structure System.Signals (sys : System) : Prop where
  exclusive : sys.notifiers.count .unlock + (if sys.parker.holds then 1 else 0) =
    if sys.mutex then 1 else 0
  fresh : sys.cell.word.init = false → sys.cell.word.park = false ∧ sys.notifiers = []
  starts : ∀ timeout, sys.parker = .init timeout → sys.cell.word.init = false
  registered : sys.parker.registered = true → sys.cell.word.park = true
  expects : sys.cell.word.unpark = true → sys.parker.Expects sys.notifiers

/-- One notifier moves on. -/
theorem count_moved {notifiers : List Notifier} {index : Nat} {source : Notifier}
    (found : notifiers[index]? = some source) (target counted : Notifier) :
    (notifiers.set index target).count counted + (if source = counted then 1 else 0) =
      notifiers.count counted + (if target = counted then 1 else 0) := by
  obtain ⟨inside, isSource⟩ := List.getElem?_eq_some_iff.mp found
  rw [List.count_set inside, isSource]
  have positive : source = counted → 0 < notifiers.count counted := by
    rintro rfl
    exact List.count_pos_iff.mpr (isSource ▸ List.getElem_mem inside)
  by_cases same : source = counted
  · have := positive same
    simp [same]
    omega
  · simp [same]

theorem mem_moved {notifiers : List Notifier} {index : Nat} {source : Notifier}
    (found : notifiers[index]? = some source) (target : Notifier) :
    target ∈ notifiers.set index target :=
  List.mem_set (List.getElem?_eq_some_iff.mp found).1 target

theorem mem_kept {notifiers : List Notifier} {index : Nat} {source kept : Notifier}
    (found : notifiers[index]? = some source) (target : Notifier) (other : source ≠ kept)
    (isIn : kept ∈ notifiers) : kept ∈ notifiers.set index target := by
  have moved := count_moved found target kept
  have positive := List.count_pos_iff.mpr isIn
  rw [if_neg other] at moved
  exact List.count_pos_iff.mp (by omega)

namespace System.Signals

variable {sys next : System}

theorem initial : System.Signals {} := by
  simp [System.signals_iff, Parker.holds, Parker.registered]

theorem park {fate : Fate} (tokens : sys.Tokens) (signals : sys.Signals)
    (step : sys.park .pthread fate = some next) : next.Signals := by
  have sees := tokens.sees
  obtain ⟨exclusive, fresh, starts, registered, expects⟩ := signals
  cases atPc : sys.parker <;>
    simp only [System.park, atPc, System.wait, System.skip, System.consume, Parker.holds,
      Parker.registered, Parker.Sees, Parker.Expects] at *
  all_goals
    rw [System.signals_iff]
    grind -linarith -ring -order [Parker.holds, Parker.registered, Parker.Expects, Parker.Sees,
        Impl.register, Cell.swap, Cell.store, Notifier.OnItsWay]

theorem beginPark (timeout : Bool) (signals : sys.Signals) (atIdle : sys.parker = .idle) :
    (sys.beginPark timeout).Signals := by
  obtain ⟨exclusive, fresh, starts, registered, expects⟩ := signals
  rw [atIdle] at exclusive
  unfold System.beginPark
  rw [System.signals_iff]
  grind -linarith -ring -order -ac [Parker.holds, Parker.registered, Parker.Expects]

theorem unpark (signals : sys.Signals) : sys.unpark.Signals := by
  obtain ⟨exclusive, fresh, starts, registered, expects⟩ := signals
  unfold System.unpark Cell.unpark
  constructor
  · grind -linarith -ring -order -ac
  · grind -linarith -ring -order -ac
  · exact starts
  · exact registered
  · intro _
    cases isSet : sys.cell.word.unpark with
    | true => simpa using expects isSet
    | false =>
        -- the first notifier since the registration goes on to the signal
        cases atPc : sys.parker with
        | wait timeout | blocked timeout =>
            rw [atPc] at registered
            simp [registered rfl, Parker.Expects, Notifier.OnItsWay]
        | _ => trivial

theorem notify {index : Nat} (signals : sys.Signals) (step : sys.notify index = some next) :
    next.Signals := by
  obtain ⟨exclusive, fresh, starts, registered, expects⟩ := signals
  unfold System.notify at step
  split at step
  · rename_i found
    have moved := count_moved found .unlock
    split at step <;> cases step
    constructor
    · grind -linarith -ring -order -ac
    · grind -linarith -ring -order -ac
    · exact starts
    · exact registered
    · intro isSet
      cases atPc : sys.parker with
      | wait timeout => grind -linarith -ring -order -ac [Parker.holds]
      | blocked timeout => exact ⟨_, mem_moved found .unlock, by simp [Notifier.OnItsWay]⟩
      | _ => trivial
  · rename_i found
    have moved := count_moved found .signal
    cases step
    constructor
    · grind -linarith -ring -order -ac
    · grind -linarith -ring -order -ac
    · exact starts
    · exact registered
    · intro isSet
      cases atPc : sys.parker with
      | wait timeout => grind -linarith -ring -order -ac [Parker.holds]
      | blocked timeout => exact ⟨_, mem_moved found .signal, by simp [Notifier.OnItsWay]⟩
      | _ => trivial
  · rename_i found
    have moved := count_moved found .returned
    cases step
    -- a late signal may end a later wait, but not one with a notifier at its lock
    have kept := mem_kept found .returned (by decide : Notifier.signal ≠ .lock)
    unfold System.signal
    rw [System.signals_iff]
    cases atPc : sys.parker <;> rw [atPc] at exclusive starts registered expects <;>
      grind -linarith -ring -order [Parker.holds, Parker.registered, Parker.Expects]
  · cases step
  · cases step

end System.Signals

theorem System.Signals.step {sys next : System} {label : Label} (tokens : sys.Tokens)
    (signals : sys.Signals) (step : Condvar.step .pthread sys label = some next) :
    next.Signals := by
  cases label with
  | acquire =>
      obtain ⟨_, rfl⟩ := by simpa [Condvar.step] using step
      exact ⟨signals.exclusive, signals.fresh, signals.starts, signals.registered, signals.expects⟩
  | release =>
      obtain ⟨_, rfl⟩ := by simpa [Condvar.step] using step
      exact ⟨signals.exclusive, signals.fresh, signals.starts, signals.registered, signals.expects⟩
  | park timeout =>
      obtain ⟨atIdle, rfl⟩ := by simpa [Condvar.step] using step
      exact signals.beginPark timeout atIdle
  | parker fate => exact signals.park tokens step
  | unpark =>
      obtain rfl := by simpa [Condvar.step] using step
      exact signals.unpark
  | notifier index => exact signals.notify step

theorem signals_of_reachable {sys : System} (reachable : Reachable (step .pthread) {} sys) :
    sys.Signals :=
  ReachableUnder.invariant_with (fun _ earlier => tokens_of_reachable earlier)
    System.Signals.initial (fun _ _ _ tokens signals _ step => signals.step tokens step) reachable

end Suspend.Park.Condvar
