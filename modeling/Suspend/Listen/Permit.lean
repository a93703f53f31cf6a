import Suspend.Listen.Guards
import Suspend.Transition.Trace

/-!
# A parker is a permit

What a parker is for: a permit that `unpark` sets and that a park waits for and
takes.  The results of the calls, in the order of the accesses that decide
them, are those of the permit, and no thread sleeps while it is set and nobody
is on the way to wake it.
-/

namespace Suspend.Listen

open Suspend.Transition
open Suspend.Park

/-! ## The permit -/

/-- The results of the calls.  `first` is what `unpark` returns, and a park tells
whether it has a timeout when it begins. -/
inductive PermitEvent where
  | unpark (first : Bool)
  | enter (timeout : Bool)
  | leave (result : ParkResult)
  deriving DecidableEq, Repr

/-- A permit that one thread waits for. -/
structure Permit where
  isSet : Bool := false
  /-- The park in progress, and whether it has a timeout. -/
  waits : Option Bool := none
  deriving DecidableEq, Repr

/-- The first `unpark` sets the permit; a park takes it, or times out while it is
not set. -/
def Permit.step : Step Permit PermitEvent
  | permit, .unpark first =>
      if first = !permit.isSet then some { permit with isSet := true } else none
  | permit, .enter timeout =>
      match permit.waits with
      | none => some { permit with waits := some timeout }
      | some _ => none
  | permit, .leave result =>
      match permit.waits with
      | none => none
      | some timeout =>
          if result.notified then
            if permit.isSet then some {} else none
          else if permit.isSet || !timeout then none
          else some {}

/-! ## Parkers seen from outside -/

variable {σ L P : Type}

/-- A parker whose parks can be followed from outside.  `results` are those of
the parks past their last swap, of which `spent` says that the latest has yet to
return; `untimed` says that the park in progress has no timeout, or has not met
it. -/
structure WakingParker (σ L P : Type) extends RawParker σ L P where
  results : σ → List ParkResult
  spent : P → Bool
  untimed : σ → Bool
  /-- The parking thread sleeps. -/
  asleep : σ → Bool
  /-- Some `unpark` is on its way to wake it. -/
  coming : σ → Bool

/-- The calls of a parker, and the accesses of those in progress. -/
inductive ParkerLabel where
  | acquire
  | release
  | park (timeout : Bool)
  | go (fate : Fate)
  | unpark
  | notify (notifier : Nat)
  deriving DecidableEq, Repr

/-- The label of the parker itself. -/
def RawParker.label (impl : RawParker σ L P) : ParkerLabel → L
  | .acquire => impl.acquire
  | .release => impl.release
  | .park timeout => impl.park timeout
  | .go fate => impl.go fate
  | .unpark => impl.unpark
  | .notify notifier => impl.notify notifier

def RawParker.called (impl : RawParker σ L P) : Step σ ParkerLabel :=
  fun s label => impl.step s (impl.label label)

/-- What a step of a parker shows: `unpark` answers with its access, and a park
is decided by its last swap. -/
def WakingParker.event (impl : WakingParker σ L P) (s : σ) :
    ParkerLabel → σ → Option PermitEvent
  | .unpark, _ => some (.unpark (!(impl.word s).unpark))
  | .park timeout, _ => some (.enter timeout)
  | .go _, next =>
      if (impl.results next).length = (impl.results s).length then none
      else (impl.results next).getLast?.map .leave
  | .acquire, _ | .release, _ | .notify _, _ => none

/-- What the next access of a park can do. -/
inductive WakingParker.Goes (impl : WakingParker σ L P) (s next : σ) : Prop
  /-- An access before the last swap. -/
  | on (results : impl.results next = impl.results s)
      (permit : (impl.word next).unpark = (impl.word s).unpark)
      (within : impl.place s ≠ impl.idle ∧ impl.place next ≠ impl.idle)
      (unspent : impl.spent (impl.place s) = false ∧ impl.spent (impl.place next) = false)
      (untimed : impl.untimed s = true → impl.untimed next = true)
  /-- The last swap. -/
  | swap (result : ParkResult) (results : impl.results next = impl.results s ++ [result])
      (found : result.notified = (impl.word s).unpark) (taken : (impl.word next).unpark = false)
      (within : impl.place s ≠ impl.idle) (unspent : impl.spent (impl.place s) = false)
      (left : impl.place next = impl.idle ∨ impl.spent (impl.place next) = true)
      (untimed : impl.untimed s = true → result.notified = true)
  /-- An access after it. -/
  | leave (results : impl.results next = impl.results s)
      (permit : (impl.word next).unpark = (impl.word s).unpark)
      (spent : impl.spent (impl.place s) = true) (idle : impl.place next = impl.idle)

/-- An access by another thread leaves the park where it is for those outside. -/
structure WakingParker.Aside (impl : WakingParker σ L P) (s next : σ) : Prop where
  results : impl.results next = impl.results s
  idle : impl.place next = impl.idle ↔ impl.place s = impl.idle
  spent : impl.spent (impl.place next) = impl.spent (impl.place s)
  untimed : impl.untimed s = true → impl.untimed next = true

/-- What a thread that parks relies on. -/
structure WakingParker.Lawful (impl : WakingParker σ L P) : Prop where
  init : (impl.word impl.init).unpark = false ∧ impl.place impl.init = impl.idle ∧
    impl.results impl.init = []
  idle : impl.spent impl.idle = false
  unparks : ∀ s, ∃ next, impl.step s impl.unpark = some next ∧
    (impl.word next).unpark = true ∧ impl.Aside s next
  parks : ∀ s next timeout, impl.step s (impl.park timeout) = some next →
    impl.place s = impl.idle ∧ impl.place next ≠ impl.idle ∧
      impl.spent (impl.place next) = false ∧ impl.results next = impl.results s ∧
        (impl.word next).unpark = (impl.word s).unpark ∧
          (timeout = false → impl.untimed next = true)
  goes : ∀ s next fate, Reachable impl.step impl.init s → impl.step s (impl.go fate) = some next →
    impl.Goes s next
  notifies : ∀ s next index, impl.step s (impl.notify index) = some next →
    (impl.word next).unpark = (impl.word s).unpark ∧ impl.Aside s next
  acquires : ∀ s next, impl.step s impl.acquire = some next ∨ impl.step s impl.release = some next →
    (impl.word next).unpark = (impl.word s).unpark ∧ impl.Aside s next
  sleeps : ∀ s, impl.asleep s = true → impl.place s ≠ impl.idle ∧ impl.spent (impl.place s) = false

/-- Only a park in progress has a next access. -/
theorem WakingParker.Goes.within {impl : WakingParker σ L P} {s next : σ}
    (goes : impl.Goes s next) (lawful : impl.Lawful) : impl.place s ≠ impl.idle := by
  rcases goes with ⟨_, _, within, _, _⟩ | ⟨_, _, _, _, within, _, _, _⟩ | ⟨_, _, spent, _⟩
  · exact within.1
  · exact within
  · intro atIdle
    rw [atIdle, lawful.idle] at spent
    cases spent

/-- Nobody sleeps over a notification unless he is about to be woken. -/
def WakingParker.Hears (impl : WakingParker σ L P) : Prop :=
  ∀ s, Reachable impl.step impl.init s → impl.asleep s = true → (impl.word s).unpark = true →
    impl.coming s = true

/-! ## Every lawful parker is one -/

namespace WakingParker

variable {impl : WakingParker σ L P} {s next : σ} {permit : Permit}

theorem reachable_of_called {start : σ} (reachable : Reachable impl.called start s) :
    Reachable impl.step start s := by
  induction reachable with
  | refl => exact ReachableUnder.refl _ _ _
  | tail _ step ih =>
      obtain ⟨label, _, stepped⟩ := step
      exact ReachableUnder.tail ih trivial stepped

/-- The permit as the parker has it. -/
structure Permits (impl : WakingParker σ L P) (s : σ) (permit : Permit) : Prop where
  reachable : Reachable impl.step impl.init s
  isSet : permit.isSet = (impl.word s).unpark
  rests : permit.waits = none ↔ impl.place s = impl.idle ∨ impl.spent (impl.place s) = true
  untimed : permit.waits = some false → impl.untimed s = true

theorem Permits.init (lawful : impl.Lawful) : impl.Permits impl.init {} where
  reachable := ReachableUnder.refl _ _ _
  isSet := lawful.init.1.symm
  rests := by simp [lawful.init.2.1]
  untimed := by rintro ⟨⟩

/-- An access by another thread, which may set the permit. -/
theorem Permits.aside (permits : impl.Permits s permit) {label : L} {isSet : Bool}
    (step : impl.step s label = some next) (found : isSet = (impl.word next).unpark)
    (aside : impl.Aside s next) : impl.Permits next { permit with isSet } where
  reachable := permits.reachable.tail trivial step
  isSet := found
  rests := by rw [permits.rests, aside.idle, aside.spent]
  untimed timeless := aside.untimed (permits.untimed timeless)

theorem Permits.follow (lawful : impl.Lawful) :
    Follows impl.called impl.event Permit.step impl.Permits := by
  intro s label next permit permits step
  have later := permits.reachable.tail trivial step
  cases label with
  | acquire =>
      obtain ⟨same, aside⟩ := lawful.acquires s next (.inl step)
      exact permits.aside step (permits.isSet.trans same.symm) aside
  | release =>
      obtain ⟨same, aside⟩ := lawful.acquires s next (.inr step)
      exact permits.aside step (permits.isSet.trans same.symm) aside
  | notify index =>
      obtain ⟨same, aside⟩ := lawful.notifies s next index step
      exact permits.aside step (permits.isSet.trans same.symm) aside
  | unpark =>
      obtain ⟨after, isAfter, isSet, aside⟩ := lawful.unparks s
      obtain rfl := Option.some.inj (isAfter.symm.trans step)
      refine ⟨{ permit with isSet := true }, ?_, permits.aside step isSet.symm aside⟩
      simp [Permit.step, permits.isSet]
  | park timeout =>
      obtain ⟨atIdle, within, unspent, _, same, untimed⟩ := lawful.parks s next timeout step
      have nobody := permits.rests.mpr (.inl atIdle)
      refine ⟨{ permit with waits := some timeout }, by simp [Permit.step, nobody], later,
        ?_, ?_, ?_⟩
      · exact permits.isSet.trans same.symm
      · simp [within, unspent]
      · intro timeless
        exact untimed (Option.some.inj timeless)
  | go fate =>
      rcases lawful.goes s next fate permits.reachable step with
        ⟨results, same, within, unspent, untimed⟩ |
        ⟨result, results, found, taken, within, unspent, left, untimed⟩ |
        ⟨results, same, spent, isIdle⟩
      · simp only [event, results, if_true]
        refine ⟨later, permits.isSet.trans same.symm, ?_, fun timeless => ?_⟩
        · simp [permits.rests, within, unspent]
        · exact untimed (permits.untimed timeless)
      · have parks : permit.waits ≠ none := by simp [permits.rests, within, unspent]
        obtain ⟨timeout, waits⟩ := Option.ne_none_iff_exists'.mp parks
        have event : impl.event s (.go fate) next = some (.leave result) := by
          simp [WakingParker.event, results]
        rw [event]
        refine ⟨{}, ?_, later, taken.symm, ?_, by rintro ⟨⟩⟩
        · simp only [Permit.step, waits, found, permits.isSet]
          cases isSet : (impl.word s).unpark with
          | true => rfl
          | false =>
              cases timeout with
              | true => rfl
              | false =>
                  have notified := untimed (permits.untimed waits)
                  rw [found, isSet] at notified
                  cases notified
        · simpa using left
      · simp only [event, results, if_true]
        refine ⟨later, permits.isSet.trans same.symm, ?_, fun timeless => ?_⟩
        · simp [permits.rests, spent, isIdle]
        · have none := permits.rests.mpr (.inr spent)
          rw [none] at timeless
          cases timeless

end WakingParker

/-! ## The parkers -/

/-- The park in progress has no timeout, or has not met it. -/
def condvarUntimed (sys : Condvar.System) : Bool :=
  match sys.parker with
  | .init timeout | .lock timeout | .register timeout | .wait timeout | .blocked timeout => !timeout
  | .reacquire timeout timedOut | .check timeout timedOut => !timeout && !timedOut
  | .consume _ => sys.cell.word.unpark
  | .idle | .skip _ | .skipUnlock _ | .unlock => true

/-- `pthread::ParkImpl` and `default::ParkImpl`. -/
def wakingCondvar (impl : Condvar.Impl) :
    WakingParker Condvar.System Condvar.Label Condvar.Parker where
  toRawParker := condvar impl
  results sys := sys.cell.parks.map (·.1)
  spent
    | .unlock => true
    | _ => false
  untimed := condvarUntimed
  asleep sys :=
    match sys.parker with
    | .blocked _ => true
    | _ => false
  coming sys := sys.notifiers.any fun notifier => notifier ≠ .returned

def futexUntimed (sys : Futex.System) : Bool :=
  match sys.parker with
  | .exchange _ timeout | .wait _ timeout | .blocked _ timeout => !timeout
  | .check _ timeout timedOut => !timeout && !timedOut
  | .consume _ => sys.cell.word.unpark
  | .idle | .skip _ => true

/-- The `Option<bool>` of the futex parker. -/
def futexResult : Option Bool → ParkResult
  | some false => .skipped
  | some true => .unparked
  | none => .timedOut

/-- `futex::ParkImpl`. -/
def wakingFutex : WakingParker Futex.System Futex.Label Futex.Parker where
  toRawParker := futex
  results sys := sys.cell.parks.map fun park => futexResult park.1
  spent _ := false
  untimed := futexUntimed
  asleep sys :=
    match sys.parker with
    | .blocked _ _ => true
    | _ => false
  coming sys := sys.notifiers.any fun notifier => notifier ≠ .returned

/-- An access of a park before its last swap. -/
theorem wakingCondvar_on (impl : Condvar.Impl) {sys next : Condvar.System}
    (parks : next.cell.parks = sys.cell.parks)
    (permit : next.cell.word.unpark = sys.cell.word.unpark)
    (within : sys.parker ≠ .idle ∧ next.parker ≠ .idle)
    (unspent : sys.parker ≠ .unlock ∧ next.parker ≠ .unlock)
    (untimed : condvarUntimed sys = true → condvarUntimed next = true) :
    (wakingCondvar impl).Goes sys next := by
  have isUnspent {parker : Condvar.Parker} (before : parker ≠ .unlock) :
      (wakingCondvar impl).spent parker = false := by
    cases parker <;> first | rfl | exact absurd rfl before
  refine .on ?_ permit within ⟨isUnspent unspent.1, isUnspent unspent.2⟩ untimed
  simp only [wakingCondvar, parks]

theorem wakingCondvar_goes (impl : Condvar.Impl) {sys next : Condvar.System} {fate : Fate}
    (tokens : sys.Tokens) (step : sys.park impl fate = some next) :
    (wakingCondvar impl).Goes sys next := by
  have sees := tokens.sees
  cases atPc : sys.parker with
  | idle => simp [Condvar.System.park, atPc] at step
  | skip state =>
      rw [atPc] at sees
      obtain ⟨asSeen, isSet⟩ := sees
      simp only [Condvar.System.park, atPc, Option.some.injEq] at step
      subst step
      refine .swap .skipped ?_ ?_ rfl ?_ ?_ (.inl rfl) fun _ => rfl
      · simp [wakingCondvar, Condvar.System.skip, Cell.swap]
      · simp [wakingCondvar, condvar, asSeen, isSet, ParkResult.notified]
      · simp [wakingCondvar, condvar, atPc]
      · simp [wakingCondvar, condvar, atPc]
  | consume state =>
      simp only [Condvar.System.park, atPc, Option.some.injEq] at step
      subst step
      refine .swap (if sys.cell.word.unpark then .unparked else .timedOut) ?_ ?_ rfl ?_ ?_
        (.inr rfl) ?_
      · simp [wakingCondvar, Condvar.System.consume, Cell.swap]
      · cases isSet : sys.cell.word.unpark <;>
          simp [wakingCondvar, condvar, isSet, ParkResult.notified]
      · simp [wakingCondvar, condvar, atPc]
      · simp [wakingCondvar, condvar, atPc]
      · intro untimed
        simp only [wakingCondvar, condvarUntimed, atPc] at untimed
        simp [untimed, ParkResult.notified]
  | unlock =>
      simp only [Condvar.System.park, atPc, Option.some.injEq] at step
      subst step
      exact .leave rfl rfl (by simp [wakingCondvar, condvar, atPc]) rfl
  | register timeout =>
      simp only [Condvar.System.park, atPc, Option.some.injEq] at step
      subst step
      apply wakingCondvar_on impl
      · rfl
      · cases impl <;> rfl
      · simp only [atPc]
        split <;> simp
      · simp only [atPc]
        split <;> simp
      · simp only [condvarUntimed, atPc]
        intro timeless
        cases isSet : (impl.register sys.cell.word).unpark <;> simp [timeless]
  | _ =>
      simp only [Condvar.System.park, atPc, Condvar.System.wait] at step
      apply wakingCondvar_on impl <;>
        grind -linarith -ring -order [condvarUntimed]

theorem wakingCondvar_lawful (impl : Condvar.Impl) : (wakingCondvar impl).Lawful where
  init := ⟨rfl, rfl, rfl⟩
  idle := rfl
  unparks sys := by
    refine ⟨sys.unpark, rfl, rfl, rfl, Iff.rfl, rfl, ?_⟩
    simp only [wakingCondvar, condvarUntimed, Condvar.System.unpark, Cell.unpark]
    cases sys.parker <;> simp
  parks sys next timeout step := by
    obtain ⟨atIdle, rfl⟩ := by simpa [wakingCondvar, condvar, Condvar.step] using step
    refine ⟨atIdle, ?_, ?_, rfl, rfl, ?_⟩ <;>
      simp only [wakingCondvar, condvar, Condvar.System.beginPark]
    · split_ifs <;> simp
    · split_ifs <;> rfl
    · rintro rfl
      simp only [condvarUntimed]
      split_ifs <;> rfl
  goes sys next fate reachable step :=
    wakingCondvar_goes impl (Condvar.tokens_of_reachable reachable) step
  notifies sys next index step := by
    simp only [wakingCondvar, condvar, Condvar.step, Condvar.System.notify,
      Condvar.System.signal] at step
    refine ⟨?_, ?_, ?_, ?_, ?_⟩ <;>
      simp only [wakingCondvar, condvar, condvarUntimed] <;>
      grind -linarith -ring -order
  acquires sys next step := by
    rcases step with step | step
    · obtain ⟨atIdle, rfl⟩ := by simpa [wakingCondvar, condvar, Condvar.step] using step
      exact ⟨rfl, rfl, Iff.rfl, rfl, by simp [wakingCondvar, condvarUntimed, atIdle]⟩
    · obtain ⟨⟨atIdle, _⟩, rfl⟩ := by simpa [wakingCondvar, condvar, Condvar.step] using step
      exact ⟨rfl, rfl, Iff.rfl, rfl, by simp [wakingCondvar, condvarUntimed, atIdle]⟩
  sleeps sys isAsleep := by
    simp only [wakingCondvar, condvar] at isAsleep ⊢
    cases atPc : sys.parker <;> simp_all

theorem wakingFutex_on {sys next : Futex.System} (parks : next.cell.parks = sys.cell.parks)
    (permit : next.cell.word.unpark = sys.cell.word.unpark)
    (within : sys.parker ≠ .idle ∧ next.parker ≠ .idle)
    (untimed : futexUntimed sys = true → futexUntimed next = true) :
    wakingFutex.Goes sys next := by
  refine .on ?_ permit within ⟨rfl, rfl⟩ untimed
  simp only [wakingFutex, parks]

theorem wakingFutex_goes {sys next : Futex.System} {fate : Fate} (tokens : sys.Tokens)
    (step : sys.park fate = some next) : wakingFutex.Goes sys next := by
  have sees := tokens.sees
  cases atPc : sys.parker with
  | idle => simp [Futex.System.park, atPc] at step
  | skip state =>
      rw [atPc] at sees
      obtain ⟨asSeen, isSet⟩ := sees
      simp only [Futex.System.park, atPc, Option.some.injEq] at step
      subst step
      refine .swap .skipped ?_ ?_ rfl ?_ rfl (.inl rfl) fun _ => rfl
      · simp [wakingFutex, Futex.System.skip, Cell.swap, futexResult]
      · simp [wakingFutex, futex, asSeen, isSet, ParkResult.notified]
      · simp [wakingFutex, futex, atPc]
  | consume state =>
      simp only [Futex.System.park, atPc, Option.some.injEq] at step
      subst step
      refine .swap (if sys.cell.word.unpark then .unparked else .timedOut) ?_ ?_ rfl ?_ rfl
        (.inl rfl) ?_
      · cases isSet : sys.cell.word.unpark <;>
          simp [wakingFutex, Futex.System.consume, Cell.swap, isSet, futexResult]
      · cases isSet : sys.cell.word.unpark <;>
          simp [wakingFutex, futex, isSet, ParkResult.notified]
      · simp [wakingFutex, futex, atPc]
      · intro untimed
        simp only [wakingFutex, futexUntimed, atPc] at untimed
        simp [untimed, ParkResult.notified]
  | exchange state timeout =>
      -- the exchange fails only over a notification
      have unfailed := (tokens.exchange atPc).unfailed
      simp only [Futex.System.park, atPc, Option.some.injEq] at step
      subst step
      rw [atPc] at sees
      unfold Futex.System.exchange at unfailed ⊢
      split
      · rename_i same
        apply wakingFutex_on
        · rfl
        · rw [same]
          rfl
        · simp [atPc]
        · simp [futexUntimed, atPc]
      · rename_i differs
        rw [if_neg differs] at unfailed
        split
        · apply wakingFutex_on
          · rfl
          · rfl
          · simp [atPc]
          · simp [futexUntimed]
        · rename_i clear
          rw [if_neg clear] at unfailed
          cases unfailed
  | _ =>
      simp only [Futex.System.park, atPc, Futex.System.wait] at step
      apply wakingFutex_on <;>
        grind -linarith -ring -order [futexUntimed]

theorem wakingFutex_lawful : wakingFutex.Lawful where
  init := ⟨rfl, rfl, rfl⟩
  idle := rfl
  unparks sys := by
    refine ⟨sys.unpark, rfl, rfl, rfl, Iff.rfl, rfl, ?_⟩
    simp only [wakingFutex, futexUntimed, Futex.System.unpark, Cell.unpark]
    cases sys.parker <;> simp
  parks sys next timeout step := by
    obtain ⟨atIdle, rfl⟩ := by simpa [wakingFutex, futex, Futex.step] using step
    refine ⟨atIdle, ?_, rfl, rfl, rfl, ?_⟩ <;>
      simp only [wakingFutex, futex, Futex.System.beginPark]
    · split_ifs <;> simp
    · rintro rfl
      simp only [futexUntimed]
      split_ifs <;> rfl
  goes sys next fate reachable step := wakingFutex_goes (Futex.tokens_of_reachable reachable) step
  notifies sys next index step := by
    simp only [wakingFutex, futex, Futex.step, Futex.System.notify, Futex.System.wake] at step
    refine ⟨?_, ?_, ?_, ?_, ?_⟩ <;>
      simp only [wakingFutex, futex, futexUntimed] <;>
      grind -linarith -ring -order
  acquires sys next step := by
    rcases step with step | step
    · obtain ⟨atIdle, rfl⟩ := by simpa [wakingFutex, futex, Futex.step] using step
      exact ⟨rfl, rfl, Iff.rfl, rfl, by simp [wakingFutex, futexUntimed, atIdle]⟩
    · obtain ⟨⟨atIdle, _⟩, rfl⟩ := by simpa [wakingFutex, futex, Futex.step] using step
      exact ⟨rfl, rfl, Iff.rfl, rfl, by simp [wakingFutex, futexUntimed, atIdle]⟩
  sleeps sys isAsleep := by
    simp only [wakingFutex, futex] at isAsleep ⊢
    cases atPc : sys.parker <;> simp_all

theorem wakingCondvar_hears : (wakingCondvar .pthread).Hears := by
  intro sys reachable isAsleep isSet
  have expects := (Condvar.signals_of_reachable reachable).expects isSet
  cases atPc : sys.parker with
  | blocked timeout =>
      rw [atPc] at expects
      obtain ⟨notifier, isIn, onItsWay⟩ := expects
      exact List.any_eq_true.mpr ⟨notifier, isIn, decide_eq_true onItsWay⟩
  | _ => simp [wakingCondvar, atPc] at isAsleep

theorem wakingFutex_hears : wakingFutex.Hears := by
  intro sys reachable isAsleep isSet
  cases atPc : sys.parker with
  | blocked state timeout =>
      have isIn := Futex.woken_of_reachable reachable state timeout atPc isSet
      exact List.any_eq_true.mpr ⟨.wake, isIn, rfl⟩
  | _ => simp [wakingFutex, atPc] at isAsleep

/-! ## An `unpark` on its way -/

/-- The `unpark` calls in progress wake a thread that sleeps, if they are let go
on. -/
def WakingParker.Delivers (impl : WakingParker σ L P) : Prop :=
  ∀ s, Reachable impl.step impl.init s → impl.asleep s = true → impl.coming s = true →
    ∃ notifiers next, runFrom impl.step s (List.map impl.notify notifiers) = some next ∧
      impl.asleep next = false

/-- One notifier, by itself, wakes the thread. -/
def CondvarArrives (index : Nat) (sys : Condvar.System) : Prop :=
  ∃ n next, runFrom (Condvar.step .pthread) sys (List.replicate n (.notifier index)) = some next ∧
    (wakingCondvar .pthread).asleep next = false

theorem CondvarArrives.step {index : Nat} {sys next : Condvar.System}
    (step : sys.notify index = some next) (arrives : CondvarArrives index next) :
    CondvarArrives index sys := by
  obtain ⟨n, last, ran, awake⟩ := arrives
  refine ⟨n + 1, last, ?_, awake⟩
  rw [List.replicate_succ, runFrom_cons]
  simp only [Condvar.step, step, Option.bind_some]
  exact ran

section Arrives

variable {sys : Condvar.System} {timeout : Bool} {index : Nat}

theorem arrives_of_signal (isBlocked : sys.parker = .blocked timeout)
    (found : sys.notifiers[index]? = some .signal) : CondvarArrives index sys := by
  have step : sys.notify index =
      some { sys.signal with notifiers := sys.notifiers.set index .returned } := by
    simp [Condvar.System.notify, found, Condvar.System.signal, isBlocked]
  apply CondvarArrives.step step
  refine ⟨0, _, rfl, ?_⟩
  simp [wakingCondvar, Condvar.System.signal, isBlocked]

theorem arrives_of_unlock (isBlocked : sys.parker = .blocked timeout)
    (found : sys.notifiers[index]? = some .unlock) : CondvarArrives index sys := by
  have step : sys.notify index =
      some { sys with mutex := false, notifiers := sys.notifiers.set index .signal } := by
    simp [Condvar.System.notify, found]
  apply CondvarArrives.step step
  apply arrives_of_signal
  · exact isBlocked
  · exact List.getElem?_set_self (List.getElem?_eq_some_iff.mp found).1

theorem arrives_of_lock (isBlocked : sys.parker = .blocked timeout)
    (found : sys.notifiers[index]? = some .lock) (free : sys.mutex = false) :
    CondvarArrives index sys := by
  have step : sys.notify index =
      some { sys with mutex := true, notifiers := sys.notifiers.set index .unlock } := by
    simp [Condvar.System.notify, found, free]
  apply CondvarArrives.step step
  apply arrives_of_unlock
  · exact isBlocked
  · exact List.getElem?_set_self (List.getElem?_eq_some_iff.mp found).1

end Arrives

theorem wakingCondvar_delivers : (wakingCondvar .pthread).Delivers := by
  intro sys reachable isAsleep coming
  have exclusive := (Condvar.signals_of_reachable reachable).exclusive
  cases atPc : sys.parker with
  | blocked timeout =>
      rw [atPc] at exclusive
      suffices arrives : ∃ index, CondvarArrives index sys by
        obtain ⟨index, n, next, ran, awake⟩ := arrives
        refine ⟨List.replicate n index, next, ?_, awake⟩
        rw [List.map_replicate]
        exact ran
      obtain ⟨notifier, isIn, onItsWay⟩ := List.any_eq_true.mp coming
      cases taken : sys.mutex with
      | false =>
          obtain ⟨index, found⟩ := List.mem_iff_getElem?.mp isIn
          refine ⟨index, ?_⟩
          cases notifier with
          | lock => exact arrives_of_lock atPc found taken
          | unlock => exact arrives_of_unlock atPc found
          | signal => exact arrives_of_signal atPc found
          | returned => simp at onItsWay
      | true =>
          -- whoever has the mutex goes first
          rw [taken] at exclusive
          have holds : Condvar.Notifier.unlock ∈ sys.notifiers := by
            apply List.count_pos_iff.mp
            simp [Condvar.Parker.holds] at exclusive
            omega
          obtain ⟨index, found⟩ := List.mem_iff_getElem?.mp holds
          exact ⟨index, arrives_of_unlock atPc found⟩
  | _ => simp [wakingCondvar, atPc] at isAsleep

theorem wakingFutex_delivers : wakingFutex.Delivers := by
  intro sys _ isAsleep coming
  cases atPc : sys.parker with
  | blocked state timeout =>
      obtain ⟨notifier, isIn, onItsWay⟩ := List.any_eq_true.mp coming
      obtain ⟨index, found⟩ := List.mem_iff_getElem?.mp isIn
      cases notifier with
      | wake =>
          refine ⟨[index], ?_⟩
          simp [runFrom_cons, wakingFutex, futex, Futex.step, Futex.System.notify, found,
            Futex.System.wake, atPc]
      | returned => simp at onItsWay
  | _ => simp [wakingFutex, atPc] at isAsleep

/-! ## The refinement -/

/-- The events are a run of the permit, which ends as the state word has it. -/
def AnswersAsPermit (isSet : Bool) (events : List PermitEvent) : Prop :=
  ∃ permit, runFrom Permit.step {} events = some permit ∧ permit.isSet = isSet

theorem WakingParker.Lawful.refines {impl : WakingParker σ L P} (lawful : impl.Lawful) {s : σ}
    {events : List PermitEvent} (shows : Shows impl.called impl.event impl.init events s) :
    AnswersAsPermit (impl.word s).unpark events := by
  obtain ⟨permit, ran, permits⟩ := shows.follow (WakingParker.Permits.follow lawful)
    (WakingParker.Permits.init lawful)
  exact ⟨permit, ran, permits.isSet⟩

/-- In every interleaving of one parking thread with any number of `unpark`
calls each of the three parkers answers as one permit does. -/
theorem parkers_refine_permit :
    (∀ impl sys events, Shows (wakingCondvar impl).called (wakingCondvar impl).event {} events sys →
      AnswersAsPermit sys.cell.word.unpark events) ∧
    ∀ sys events, Shows wakingFutex.called wakingFutex.event {} events sys →
      AnswersAsPermit sys.cell.word.unpark events := by
  constructor
  · intro impl sys events shows
    exact (wakingCondvar_lawful impl).refines shows
  · intro sys events shows
    exact wakingFutex_lawful.refines shows

/-- A park that times out, and a notification that the next one finds. -/
theorem parkers_refine_permit_of_timeout : ∃ events sys,
    shown (wakingCondvar .pthread).called (wakingCondvar .pthread).event {}
      [.park true, .go .goes, .go .goes, .go .goes, .go .expires, .go .goes, .go .goes, .go .goes,
        .unpark, .unpark, .park false, .go .goes] = some (events, sys) ∧
    events = [.enter true, .leave .timedOut, .unpark true, .unpark false, .enter false,
      .leave .skipped] ∧
    AnswersAsPermit sys.cell.word.unpark events := by
  obtain ⟨events, sys, ran, same⟩ : ∃ events sys,
      shown (wakingCondvar .pthread).called (wakingCondvar .pthread).event {}
        [.park true, .go .goes, .go .goes, .go .goes, .go .expires, .go .goes, .go .goes, .go .goes,
          .unpark, .unpark, .park false, .go .goes] = some (events, sys) ∧
      events = [.enter true, .leave .timedOut, .unpark true, .unpark false, .enter false,
        .leave .skipped] :=
    ⟨_, _, rfl, rfl⟩
  exact ⟨events, sys, ran, same, parkers_refine_permit.1 .pthread sys events (shows_of_shown ran)⟩

end Suspend.Listen
