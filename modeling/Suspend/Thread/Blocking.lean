import Suspend.Listen.Permit

/-!
# Blocking on a poll

`block_on_poll` polls with the waker of the thread's listener and parks while
the answer is `Pending`; `block_on` is the same without a timeout.  Whatever is
polled, and whoever else notifies the listener: a wake since the poll began
keeps the thread from sleeping, and each further poll is paid for by a
notification.
-/

namespace Suspend.Thread

open Suspend.Transition
open Suspend.Park
open Suspend.Listen

universe u v

variable {C : Type u} {A : Type v} {σ L P : Type}

/-- The two loops, of `block_on` and of `block_on_poll`. -/
inductive Loop where
  | blockOn
  | blockOnPoll
  deriving DecidableEq, Repr

/-- What a thread polls, with all that others do to it meanwhile. -/
structure Polled (C : Type u) (A : Type v) where
  loop : Loop
  step : Step C A
  /-- The steps of the thread itself. -/
  own : A → Bool
  /-- The thread calls `block_on` or `block_on_poll`. -/
  enters : A → Bool
  /-- The latest poll has returned `Pending`, and whether there is a timeout. -/
  waits : C → Option Bool
  /-- The thread polls again or, if its park has timed out, goes on without. -/
  resume : Bool → A
  /-- The step wakes the waker that the polls are given. -/
  wakes : C → A → Bool

/-- Only the thread itself ends its wait, and `block_on` takes no timeout. -/
structure Polled.Lawful (polled : Polled C A) : Prop where
  alone : ∀ call label next timeout, polled.waits call = some timeout → polled.own label = false →
    polled.step call label = some next → polled.waits next = some timeout
  timeless : polled.loop = .blockOn → ∀ call, polled.waits call ≠ some true

/-- The polled's own note that the waker of the latest poll has been woken. -/
structure Polled.Notes (polled : Polled C A) (start : C) (noted : C → Prop) : Prop where
  init : ¬noted start
  step : ∀ call label next, Reachable polled.step start call → polled.step call label = some next →
    noted next → noted call ∨ polled.wakes call label = true
  resume : ∀ call timedOut next, Reachable polled.step start call → polled.waits call ≠ none →
    polled.step call (polled.resume timedOut) = some next → ¬noted next

/-- A thread that blocks on its polls, with the parker of its listener. -/
structure Blocked (C : Type u) (σ : Type) where
  call : C
  parker : σ
  /-- Parks that were skipped, one after the other. -/
  repeats : Nat := 0
  /-- How often the thread has yielded. -/
  yields : Nat := 0
  /-- Polls after the first one. -/
  repolls : Nat := 0
  /-- The `unpark` calls that have returned `true`. -/
  given : Nat := 0
  /-- The waker has been woken since the latest park returned. -/
  woken : Bool := false
  /-- A park without a timeout has timed out. -/
  failed : Bool := false
  deriving DecidableEq, Repr

/-- A step of what is polled, an access of the thread's park, or one of an
`unpark` of the listener by anyone. -/
inductive BlockedLabel (A : Type v) where
  | call (label : A)
  | park
  | go (fate : Fate)
  | unpark
  | notify (notifier : Nat)
  deriving DecidableEq, Repr

/-- Somebody notifies the listener who has not been asked to. -/
def BlockedLabel.stray : BlockedLabel A → Bool
  | unpark => true
  | call _ | park | go _ | notify _ => false

namespace Blocked

/-- The `unpark` of the listener. -/
def unpark (impl : WakingParker σ L P) (s : Blocked C σ) : Option (Blocked C σ) :=
  (impl.step s.parker impl.unpark).map fun parker =>
    { s with parker, given := s.given + (!(impl.word s.parker).unpark).toNat }

/-- The next poll, after a park that returned. -/
def again (polled : Polled C A) (parker : σ) (s : Blocked C σ) : Option (Blocked C σ) :=
  (polled.step s.call (polled.resume false)).map fun call =>
    { s with call, parker, repolls := s.repolls + 1, woken := false }

/-- What is done about the result of `park`: `block_on` polls again whatever it
is. -/
def returned (polled : Polled C A) (parker : σ) (s : Blocked C σ) (result : ParkResult) :
    Option (Blocked C σ) :=
  match polled.loop, result with
  | .blockOn, _ => s.again polled parker
  | .blockOnPoll, .skipped =>
      -- seem to be effectively in a spin loop, back off polling
      again polled parker
        { s with
          repeats := s.repeats + 1
          yields := s.yields + (decide (s.repeats + 1 ≥ 5)).toNat }
  | .blockOnPoll, .unparked => again polled parker { s with repeats := 0 }
  | .blockOnPoll, .timedOut =>
      if polled.waits s.call = some true then
        (polled.step s.call (polled.resume true)).map fun call =>
          { s with call, parker, woken := false }
      else some { s with parker, failed := true }

def step (polled : Polled C A) (impl : WakingParker σ L P) [DecidableEq P] :
    Step (Blocked C σ) (BlockedLabel A)
  | s, .call label =>
      if (polled.waits s.call).isSome && polled.own label then none
      else
        (polled.step s.call label).bind fun call =>
          let repeats := if polled.enters label then 0 else s.repeats
          if polled.wakes s.call label then unpark impl { s with call, repeats, woken := true }
          else some { s with call, repeats }
  | s, .park =>
      (polled.waits s.call).bind fun timeout =>
        (impl.step s.parker (impl.park timeout)).map fun parker => { s with parker }
  | s, .go fate =>
      (impl.step s.parker (impl.go fate)).bind fun parker =>
        if impl.place parker ≠ impl.idle then some { s with parker }
        else (impl.results parker).getLast?.bind (s.returned polled parker)
  | s, .unpark => s.unpark impl
  | s, .notify notifier =>
      (impl.step s.parker (impl.notify notifier)).map fun parker => { s with parker }

/-- The latest park has been notified and has yet to return. -/
def owes (impl : WakingParker σ L P) (s : Blocked C σ) : Bool :=
  impl.spent (impl.place s.parker) && (impl.results s.parker).getLast?.any ParkResult.notified

/-- The books of the loop. -/
structure Kept (polled : Polled C A) (impl : WakingParker σ L P) (s : Blocked C σ) : Prop where
  reachable : Reachable impl.step impl.init s.parker
  /-- A wake is remembered until the park takes it. -/
  heard : s.woken = true → impl.spent (impl.place s.parker) = false →
    (impl.word s.parker).unpark = true
  given : s.given = (impl.results s.parker).countP ParkResult.notified +
    (impl.word s.parker).unpark.toNat
  taken : (impl.results s.parker).countP ParkResult.notified = s.repolls + (s.owes impl).toNat
  yielding : s.repeats ≤ s.repolls ∧ (s.yields ≠ 0 → s.yields + 4 ≤ s.repolls)
  /-- The park in progress has the timeout of the call. -/
  timely : impl.place s.parker ≠ impl.idle → ∃ timeout, polled.waits s.call = some timeout ∧
    (timeout = false →
      if impl.spent (impl.place s.parker) then s.owes impl = true
      else impl.untimed s.parker = true)
  unfailed : s.failed = false

/-- What any parker makes sure of. -/
structure Paid (s : Blocked C σ) : Prop where
  /-- Every further poll has been paid for by a notification of its own. -/
  paid : s.repolls ≤ s.given
  /-- The thread yields only in a row of skipped parks. -/
  yielding : s.yields ≠ 0 → s.yields + 4 ≤ s.repolls
  /-- `block_on_poll` without a timeout does not return `Pending`. -/
  unfailed : s.failed = false

/-- What a thread that blocks can rely on. -/
structure Sound (impl : WakingParker σ L P) (s : Blocked C σ) : Prop extends s.Paid where
  /-- The thread does not sleep over a wake, unless it is about to be woken. -/
  hears : impl.asleep s.parker = true → s.woken = true → impl.coming s.parker = true

variable {polled : Polled C A} {impl : WakingParker σ L P} {s next : Blocked C σ}

theorem Kept.paid (kept : s.Kept polled impl) : s.Paid where
  paid := by
    have given := kept.given
    have taken := kept.taken
    omega
  yielding := kept.yielding.2
  unfailed := kept.unfailed

theorem Kept.sound (lawful : impl.Lawful) (hears : impl.Hears) (kept : s.Kept polled impl) :
    s.Sound impl where
  toPaid := kept.paid
  hears isAsleep woken := by
    obtain ⟨_, unspent⟩ := lawful.sleeps s.parker isAsleep
    exact hears s.parker kept.reachable isAsleep (kept.heard woken unspent)

theorem Kept.init (lawful : impl.Lawful) (call : C) :
    Kept polled impl ({ call, parker := impl.init } : Blocked C σ) := by
  obtain ⟨unset, isIdle, none⟩ := lawful.init
  constructor
  · exact ReachableUnder.refl _ _ _
  · rintro ⟨⟩
  · simp [unset, none]
  · simp [none, owes]
  · simp
  · intro within
    exact absurd isIdle within
  · rfl

/-- A step that leaves the park in progress where it is. -/
theorem Kept.aside {call : C} {parker : σ} {given : Nat} {woken : Bool} (kept : s.Kept polled impl)
    (reachable : Reachable impl.step impl.init parker) (aside : impl.Aside s.parker parker)
    (waits : ∀ timeout, polled.waits s.call = some timeout → polled.waits call = some timeout)
    (heard : woken = true → impl.spent (impl.place parker) = false →
      (impl.word parker).unpark = true)
    (books : given + (impl.word s.parker).unpark.toNat =
      s.given + (impl.word parker).unpark.toNat) :
    Kept polled impl { s with call, parker, given, woken } := by
  have owes : Blocked.owes impl { s with call, parker, given, woken } = s.owes impl := by
    simp only [Blocked.owes, aside.spent, aside.results]
  constructor
  · exact reachable
  · exact heard
  · have given := kept.given
    simp only [aside.results]
    omega
  · have taken := kept.taken
    rw [← aside.results, ← owes] at taken
    exact taken
  · exact kept.yielding
  · intro within
    obtain ⟨timeout, isWaiting, untimed⟩ := kept.timely fun atIdle => within (aside.idle.mpr atIdle)
    refine ⟨timeout, waits timeout isWaiting, ?_⟩
    intro timeless
    have wasUntimed := untimed timeless
    rw [owes, aside.spent]
    cases isSpent : impl.spent (impl.place s.parker) with
    | true =>
        rw [isSpent] at wasUntimed
        exact wasUntimed
    | false =>
        rw [isSpent] at wasUntimed
        exact aside.untimed wasUntimed
  · exact kept.unfailed

/-- An `unpark` sets the permit, and leaves the rest to the thread. -/
theorem Kept.unpark {call : C} {woken : Bool} (lawful : impl.Lawful) (kept : s.Kept polled impl)
    (waits : ∀ timeout, polled.waits s.call = some timeout → polled.waits call = some timeout)
    (step : Blocked.unpark impl { s with call, woken } = some next) : next.Kept polled impl := by
  obtain ⟨parker, unparked, rfl⟩ := Option.map_eq_some_iff.mp step
  obtain ⟨after, isAfter, isSet, aside⟩ := lawful.unparks s.parker
  obtain rfl := Option.some.inj (isAfter.symm.trans unparked)
  apply kept.aside (kept.reachable.tail trivial unparked) aside waits
  · exact fun _ _ => isSet
  · rw [isSet]
    cases (impl.word s.parker).unpark <;> simp

/-- The notifier of an `unpark` goes on. -/
theorem Kept.notify {index : Nat} {parker : σ} (lawful : impl.Lawful) (kept : s.Kept polled impl)
    (notified : impl.step s.parker (impl.notify index) = some parker) :
    Kept polled impl { s with parker } := by
  obtain ⟨same, aside⟩ := lawful.notifies s.parker parker index notified
  apply kept.aside (kept.reachable.tail trivial notified) aside fun _ => id
  · intro woken unspent
    exact same.trans (kept.heard woken (aside.spent.symm.trans unspent))
  · rw [same]

/-- A park begins. -/
theorem Kept.park {timeout : Bool} {parker : σ} (lawful : impl.Lawful) (kept : s.Kept polled impl)
    (waits : polled.waits s.call = some timeout)
    (parked : impl.step s.parker (impl.park timeout) = some parker) :
    Kept polled impl { s with parker } := by
  obtain ⟨atIdle, within, unspent, results, same, untimed⟩ :=
    lawful.parks s.parker parker timeout parked
  have wasUnspent : impl.spent (impl.place s.parker) = false := by
    rw [atIdle]
    exact lawful.idle
  have owed : s.owes impl = false := by simp [Blocked.owes, wasUnspent]
  have owes : Blocked.owes impl { s with parker } = false := by simp [Blocked.owes, unspent]
  constructor
  · exact kept.reachable.tail trivial parked
  · intro woken _
    exact same.trans (kept.heard woken wasUnspent)
  · have given := kept.given
    rw [← results, ← same] at given
    exact given
  · have taken := kept.taken
    rw [← results, owed] at taken
    rw [owes]
    exact taken
  · exact kept.yielding
  · intro _
    refine ⟨timeout, waits, ?_⟩
    intro timeless
    rw [unspent]
    exact untimed timeless
  · exact kept.unfailed

/-- The loop is entered anew, or goes on. -/
theorem Kept.enter (repeats : Nat) (kept : s.Kept polled impl)
    (entered : repeats = 0 ∨ repeats = s.repeats) : Kept polled impl { s with repeats } := by
  obtain ⟨reachable, heard, given, taken, ⟨few, some⟩, timely, unfailed⟩ := kept
  refine ⟨reachable, heard, given, taken, ⟨?_, some⟩, timely, unfailed⟩
  rcases entered with rfl | rfl
  · exact Nat.zero_le _
  · exact few

/-- What is polled goes on, without a wake. -/
theorem Kept.call {call : C} (kept : s.Kept polled impl)
    (waits : impl.place s.parker ≠ impl.idle →
      ∀ timeout, polled.waits s.call = some timeout → polled.waits call = some timeout) :
    Kept polled impl { s with call } where
  reachable := kept.reachable
  heard := kept.heard
  given := kept.given
  taken := kept.taken
  yielding := kept.yielding
  timely within := by
    obtain ⟨timeout, isWaiting, untimed⟩ := kept.timely within
    exact ⟨timeout, waits within timeout isWaiting, untimed⟩
  unfailed := kept.unfailed

/-- A park that took a permit is followed by a poll. -/
theorem Kept.again {parker : σ} (reachable : Reachable impl.step impl.init parker)
    (isIdle : impl.place parker = impl.idle) (lawful : impl.Lawful)
    (given : s.given = (impl.results parker).countP ParkResult.notified +
      (impl.word parker).unpark.toNat)
    (taken : (impl.results parker).countP ParkResult.notified = s.repolls + 1)
    (yielding : s.repeats ≤ s.repolls + 1 ∧ (s.yields ≠ 0 → s.yields + 4 ≤ s.repolls + 1))
    (unfailed : s.failed = false) (step : s.again polled parker = some next) :
    next.Kept polled impl := by
  obtain ⟨call, _, rfl⟩ := Option.map_eq_some_iff.mp step
  refine ⟨reachable, by rintro ⟨⟩, given, ?_, yielding, ?_, unfailed⟩
  · simpa [owes, isIdle, lawful.idle] using taken
  · intro within
    exact absurd isIdle within

/-- The park has returned `result`, and is settled in the books. -/
theorem Kept.returned {parker : σ} {result : ParkResult}
    (reachable : Reachable impl.step impl.init parker) (isIdle : impl.place parker = impl.idle)
    (lawful : impl.Lawful) (alone : polled.Lawful)
    (given : s.given = (impl.results parker).countP ParkResult.notified +
      (impl.word parker).unpark.toNat)
    (taken : (impl.results parker).countP ParkResult.notified =
      s.repolls + result.notified.toNat)
    (yielding : s.repeats ≤ s.repolls ∧ (s.yields ≠ 0 → s.yields + 4 ≤ s.repolls))
    (unfailed : s.failed = false)
    (timely : result = .timedOut → polled.waits s.call = some true)
    (step : s.returned polled parker result = some next) : next.Kept polled impl := by
  obtain ⟨few, some⟩ := yielding
  cases isLoop : polled.loop with
  | blockOn =>
      simp only [Blocked.returned, isLoop] at step
      have notified : result.notified = true := by
        cases result with
        | timedOut => exact absurd (timely rfl) (alone.timeless isLoop s.call)
        | _ => rfl
      rw [notified] at taken
      exact Kept.again reachable isIdle lawful given taken ⟨by omega, by omega⟩ unfailed step
  | blockOnPoll =>
      cases result with
      | skipped =>
          simp only [Blocked.returned, isLoop] at step
          have backsOff : s.yields + (decide (s.repeats + 1 ≥ 5)).toNat ≠ 0 →
              s.yields + (decide (s.repeats + 1 ≥ 5)).toNat + 4 ≤ s.repolls + 1 := by
            by_cases row : s.repeats + 1 ≥ 5
            · simp only [row, decide_true, Bool.toNat_true]
              omega
            · simp only [row, decide_false, Bool.toNat_false]
              omega
          apply Kept.again (s := { s with
            repeats := s.repeats + 1
            yields := s.yields + (decide (s.repeats + 1 ≥ 5)).toNat }) reachable isIdle lawful
          · exact given
          · exact taken
          · exact ⟨Nat.succ_le_succ few, backsOff⟩
          · exact unfailed
          · exact step
      | unparked =>
          simp only [Blocked.returned, isLoop] at step
          apply Kept.again (s := { s with repeats := 0 }) reachable isIdle lawful
          · exact given
          · exact taken
          · exact ⟨Nat.zero_le _, fun yielded => Nat.le_succ_of_le (some yielded)⟩
          · exact unfailed
          · exact step
      | timedOut =>
          simp only [Blocked.returned, isLoop, timely rfl, if_true] at step
          obtain ⟨call, _, rfl⟩ := Option.map_eq_some_iff.mp step
          refine ⟨reachable, by rintro ⟨⟩, given, ?_, ⟨few, some⟩, ?_, unfailed⟩
          · simpa [owes, isIdle, lawful.idle, ParkResult.notified] using taken
          · intro within
            exact absurd isIdle within

/-- The next access of the park. -/
theorem Kept.go [DecidableEq P] {fate : Fate} (lawful : impl.Lawful) (alone : polled.Lawful)
    (kept : s.Kept polled impl)
    (step : Blocked.step polled impl s (.go fate) = some next) : next.Kept polled impl := by
  obtain ⟨parker, went, step⟩ := Option.bind_eq_some_iff.mp step
  have reachable := kept.reachable.tail trivial went
  have given := kept.given
  have taken := kept.taken
  have goes := lawful.goes s.parker parker fate kept.reachable went
  have inside := goes.within lawful
  rcases goes with ⟨results, same, within, unspent, untimed⟩ |
    ⟨result, results, found, cleared, within, unspent, left, untimed⟩ |
    ⟨results, same, spent, isIdle⟩
  · rw [if_pos within.2] at step
    cases step
    have owed : s.owes impl = false := by simp [Blocked.owes, unspent.1]
    have owes : Blocked.owes impl { s with parker } = false := by simp [Blocked.owes, unspent.2]
    rw [← results, owed] at taken
    rw [← results, ← same] at given
    refine ⟨reachable, ?_, given, ?_, kept.yielding, ?_, kept.unfailed⟩
    · intro woken _
      exact same.trans (kept.heard woken unspent.1)
    · rw [owes]
      exact taken
    · intro _
      obtain ⟨timeout, waits, isUntimed⟩ := kept.timely inside
      refine ⟨timeout, waits, ?_⟩
      intro timeless
      have wasUntimed := isUntimed timeless
      rw [unspent.1] at wasUntimed
      rw [unspent.2]
      exact untimed wasUntimed
  · have owed : s.owes impl = false := by simp [Blocked.owes, unspent]
    obtain ⟨timeout, waits, isUntimed⟩ := kept.timely within
    rw [unspent] at isUntimed
    have last : (impl.results parker).getLast? = some result := by simp [results]
    -- the swap has taken the permit if there was one
    have books : s.given = (impl.results parker).countP ParkResult.notified +
        (impl.word parker).unpark.toNat := by
      rw [given, results, List.countP_append, cleared, ← found]
      cases result <;> rfl
    have paid : (impl.results parker).countP ParkResult.notified =
        s.repolls + result.notified.toNat := by
      rw [results, List.countP_append, taken, owed]
      cases result <;> rfl
    split at step
    · rename_i goesOn
      cases step
      have isSpent := left.resolve_left goesOn
      have owes : Blocked.owes impl { s with parker } = result.notified := by
        simp [Blocked.owes, isSpent, last]
      refine ⟨reachable, ?_, books, ?_, kept.yielding, ?_, kept.unfailed⟩
      · intro _ isUnspent
        rw [isSpent] at isUnspent
        cases isUnspent
      · rw [owes]
        exact paid
      · intro _
        refine ⟨timeout, waits, ?_⟩
        intro timeless
        rw [isSpent, owes]
        exact untimed (isUntimed timeless)
    · rename_i isIdle
      rw [last] at step
      refine Kept.returned reachable (not_not.mp isIdle) lawful alone books paid kept.yielding
        kept.unfailed ?_ step
      rintro rfl
      cases timeout with
      | true => exact waits
      | false => cases untimed (isUntimed rfl)
  · rw [if_neg (not_not.mpr isIdle)] at step
    obtain ⟨result, last, step⟩ := Option.bind_eq_some_iff.mp step
    have owes : s.owes impl = result.notified := by
      simp [Blocked.owes, spent, ← results, last]
    rw [← results, owes] at taken
    rw [← results, ← same] at given
    refine Kept.returned reachable isIdle lawful alone given taken kept.yielding kept.unfailed ?_
      step
    rintro rfl
    obtain ⟨timeout, waits, isOwed⟩ := kept.timely inside
    cases timeout with
    | true => exact waits
    | false =>
        have owed := isOwed rfl
        rw [spent, owes] at owed
        cases owed

theorem Kept.step [DecidableEq P] {label : BlockedLabel A} (lawful : impl.Lawful)
    (alone : polled.Lawful) (kept : s.Kept polled impl)
    (step : Blocked.step polled impl s label = some next) : next.Kept polled impl := by
  cases label with
  | call label =>
      simp only [Blocked.step] at step
      split at step
      · cases step
      · rename_i allowed
        obtain ⟨call, called, step⟩ := Option.bind_eq_some_iff.mp step
        have waits : ∀ timeout, polled.waits s.call = some timeout →
            polled.waits call = some timeout := by
          intro timeout waits
          apply alone.alone s.call label call timeout waits _ called
          simpa [waits] using allowed
        have entered := kept.enter (if polled.enters label then 0 else s.repeats)
          (by split <;> simp)
        split at step
        · exact entered.unpark lawful waits step
        · cases step
          exact entered.call fun _ => waits
  | park =>
      obtain ⟨timeout, waits, step⟩ := Option.bind_eq_some_iff.mp step
      obtain ⟨parker, parked, rfl⟩ := Option.map_eq_some_iff.mp step
      exact kept.park lawful waits parked
  | go fate => exact kept.go lawful alone step
  | unpark => exact kept.unpark lawful (fun _ => id) step
  | notify index =>
      obtain ⟨parker, notified, rfl⟩ := Option.map_eq_some_iff.mp step
      exact kept.notify lawful notified

/-- What a step does to what is polled, and to the books. -/
inductive Called (polled : Polled C A) (impl : WakingParker σ L P) (label : BlockedLabel A)
    (s next : Blocked C σ) : Prop
  | aside (call : next.call = s.call) (woken : next.woken = s.woken)
      (given : label ≠ .unpark → next.given = s.given) (repolls : next.repolls = s.repolls)
  | steps (own : A) (step : polled.step s.call own = some next.call)
      (allowed : (polled.waits s.call).isSome = true → polled.own own = false)
      (woken : next.woken = (s.woken || polled.wakes s.call own))
      (given : next.given =
        s.given + (polled.wakes s.call own && !(impl.word s.parker).unpark).toNat)
      (repolls : next.repolls = s.repolls)
  /-- The park has returned. -/
  | resumes (timedOut : Bool) (waits : polled.waits s.call ≠ none)
      (timed : timedOut = true → polled.waits s.call = some true)
      (step : polled.step s.call (polled.resume timedOut) = some next.call)
      (given : next.given = s.given) (repolls : next.repolls = s.repolls + (!timedOut).toNat)

theorem again_called {label : BlockedLabel A} {parker : σ} {s before : Blocked C σ}
    (step : before.again polled parker = some next) (same : before.call = s.call)
    (given : before.given = s.given) (repolls : before.repolls = s.repolls)
    (waits : polled.waits s.call ≠ none) : Called polled impl label s next := by
  obtain ⟨call, polledAgain, rfl⟩ := Option.map_eq_some_iff.mp step
  rw [same] at polledAgain
  refine .resumes false waits ?_ polledAgain given (congrArg (· + 1) repolls)
  rintro ⟨⟩

theorem returned_called {label : BlockedLabel A} {parker : σ} {result : ParkResult}
    (waits : polled.waits s.call ≠ none) (step : s.returned polled parker result = some next) :
    Called polled impl label s next := by
  simp only [returned] at step
  split at step
  · exact again_called step rfl rfl rfl waits
  · exact again_called step rfl rfl rfl waits
  · exact again_called step rfl rfl rfl waits
  · split at step
    · rename_i timed
      obtain ⟨call, goneOn, rfl⟩ := Option.map_eq_some_iff.mp step
      exact .resumes true waits (fun _ => timed) goneOn rfl rfl
    · cases step
      exact .aside rfl rfl (fun _ => rfl) rfl

theorem Kept.called [DecidableEq P] {label : BlockedLabel A} (lawful : impl.Lawful)
    (kept : s.Kept polled impl) (step : Blocked.step polled impl s label = some next) :
    Called polled impl label s next := by
  cases label with
  | call label =>
      simp only [Blocked.step] at step
      split at step
      · cases step
      · rename_i busy
        have allowed : (polled.waits s.call).isSome = true → polled.own label = false := by
          simpa using busy
        obtain ⟨call, called, step⟩ := Option.bind_eq_some_iff.mp step
        split at step
        · rename_i wakes
          obtain ⟨parker, _, rfl⟩ := Option.map_eq_some_iff.mp step
          exact .steps label called allowed (by simp [wakes]) (by simp [wakes]) rfl
        · rename_i silent
          cases step
          exact .steps label called allowed (by simp [silent]) (by simp [silent]) rfl
  | park =>
      obtain ⟨timeout, _, step⟩ := Option.bind_eq_some_iff.mp step
      obtain ⟨parker, _, rfl⟩ := Option.map_eq_some_iff.mp step
      exact .aside rfl rfl (fun _ => rfl) rfl
  | go fate =>
      obtain ⟨parker, went, step⟩ := Option.bind_eq_some_iff.mp step
      have within := (lawful.goes s.parker parker fate kept.reachable went).within lawful
      obtain ⟨timeout, waits, _⟩ := kept.timely within
      split at step
      · cases step
        exact .aside rfl rfl (fun _ => rfl) rfl
      · obtain ⟨result, _, step⟩ := Option.bind_eq_some_iff.mp step
        exact returned_called (by simp [waits]) step
  | unpark =>
      obtain ⟨parker, _, rfl⟩ := Option.map_eq_some_iff.mp step
      exact .aside rfl rfl (fun other => absurd rfl other) rfl
  | notify index =>
      obtain ⟨parker, _, rfl⟩ := Option.map_eq_some_iff.mp step
      exact .aside rfl rfl (fun _ => rfl) rfl

theorem Kept.of_reachable [DecidableEq P] {start : C} (lawful : impl.Lawful)
    (alone : polled.Lawful)
    (reachable : Reachable (Blocked.step polled impl) { call := start, parker := impl.init } s) :
    s.Kept polled impl := by
  apply reachable.invariant (Kept.init lawful start)
  intro before label after kept _ step
  exact kept.step lawful alone step

/-- The thread knows of every wake that the polled has a note of. -/
structure Noticed (polled : Polled C A) (start : C) (noted : C → Prop) (s : Blocked C σ) :
    Prop where
  reachable : Reachable polled.step start s.call
  woken : noted s.call → s.woken = true

theorem Noticed.step [DecidableEq P] {label : BlockedLabel A} {start : C} {noted : C → Prop}
    (lawful : impl.Lawful) (notes : polled.Notes start noted) (kept : s.Kept polled impl)
    (noticed : s.Noticed polled start noted) (step : Blocked.step polled impl s label = some next) :
    next.Noticed polled start noted := by
  obtain ⟨earlier, told⟩ := noticed
  rcases kept.called lawful step with ⟨same, woken, _, _⟩ | ⟨label, stepped, _, woken, _, _⟩ |
    ⟨timedOut, waits, _, stepped, _, _⟩
  · rw [← same] at earlier told
    exact ⟨earlier, woken ▸ told⟩
  · refine ⟨earlier.tail trivial stepped, ?_⟩
    intro isNoted
    rw [woken, Bool.or_eq_true]
    exact (notes.step s.call label next.call earlier stepped isNoted).imp_left told
  · refine ⟨earlier.tail trivial stepped, ?_⟩
    intro isNoted
    exact absurd isNoted (notes.resume s.call timedOut next.call earlier waits stepped)

theorem Noticed.of_reachable [DecidableEq P] {start : C} {noted : C → Prop}
    (lawful : impl.Lawful) (alone : polled.Lawful) (notes : polled.Notes start noted)
    (reachable : Reachable (Blocked.step polled impl) { call := start, parker := impl.init } s) :
    s.Noticed polled start noted := by
  have known (before : Blocked C σ) (reached : Reachable (Blocked.step polled impl)
      { call := start, parker := impl.init } before) : before.Kept polled impl :=
    Kept.of_reachable lawful alone reached
  apply reachable.invariant_with known
  · exact ⟨ReachableUnder.refl _ _ _, fun isNoted => absurd isNoted notes.init⟩
  · intro before label after kept noticed _ step
    exact noticed.step lawful notes kept step

/-- Who sleeps is about to be woken, if the polled has a note of a wake. -/
theorem coming_of_noted [DecidableEq P] {start : C} {noted : C → Prop} (lawful : impl.Lawful)
    (hears : impl.Hears) (alone : polled.Lawful) (notes : polled.Notes start noted)
    (reachable : Reachable (Blocked.step polled impl) { call := start, parker := impl.init } s)
    (isAsleep : impl.asleep s.parker = true) (isNoted : noted s.call) :
    impl.coming s.parker = true := by
  have sound := (Kept.of_reachable lawful alone reachable).sound lawful hears
  have noticed := Noticed.of_reachable lawful alone notes reachable
  exact sound.hears isAsleep (noticed.woken isNoted)

/-- Who sleeps has had `Pending` from its poll. -/
theorem Kept.waits (lawful : impl.Lawful) (kept : s.Kept polled impl)
    (isAsleep : impl.asleep s.parker = true) : polled.waits s.call ≠ none := by
  obtain ⟨timeout, waits, _⟩ := kept.timely (lawful.sleeps s.parker isAsleep).1
  simp [waits]

/-- What others do to the polled goes on while the thread blocks. -/
theorem follow [DecidableEq P] (polled : Polled C A) {labels : List A} {call : C}
    (lawful : impl.Lawful) (others : ∀ label ∈ labels, polled.own label = false)
    (ran : runFrom polled.step s.call labels = some call) :
    ∃ last, runFrom (Blocked.step polled impl) s (labels.map .call) = some last ∧
      last.call = call := by
  induction labels generalizing s with
  | nil =>
      cases ran
      exact ⟨s, rfl, rfl⟩
  | cons label rest ih =>
      rw [runFrom_cons, Option.bind_eq_some_iff] at ran
      obtain ⟨middle, stepped, rested⟩ := ran
      have isOther := others label List.mem_cons_self
      obtain ⟨after, step, rfl⟩ : ∃ after, Blocked.step polled impl s (.call label) = some after ∧
          after.call = middle := by
        obtain ⟨parker, unparked, _⟩ := lawful.unparks s.parker
        simp only [Blocked.step, isOther, Bool.and_false, Bool.false_eq_true, if_false, stepped,
          Option.bind_some, Blocked.unpark, unparked, Option.map_some]
        by_cases wakes : polled.wakes s.call label = true <;> simp [wakes]
      obtain ⟨last, ranOn, isLast⟩ := ih (fun label isIn => others label (.tail _ isIn)) rested
      refine ⟨last, ?_, isLast⟩
      rw [List.map_cons, runFrom_cons, step]
      exact ranOn

/-- The `unpark` calls in progress go on by themselves. -/
theorem run_notify [DecidableEq P] {notifiers : List Nat} {parker : σ}
    (ran : runFrom impl.step s.parker (notifiers.map impl.notify) = some parker) :
    runFrom (Blocked.step polled impl) s (List.map .notify notifiers) =
      some { s with parker } := by
  have notifies (source : σ) (index : Nat) (result : σ)
      (notified : impl.step source (impl.notify index) = some result) :
      Blocked.step polled impl { s with parker := source } (.notify index) =
        some { s with parker := result } := by
    simp [Blocked.step, notified]
  exact runFrom_embed (fun parker : σ => { s with parker }) notifies ran

end Blocked

/-! ## The loops -/

/-- `Repoll`: a future that is `Pending` a number of times, and is woken for each
of them, by a thread of its own or during the poll. -/
structure Repoll where
  pending : Nat
  thread : Bool
  waits : Bool := false
  /-- The threads that have yet to wake it. -/
  threads : Nat := 0
  deriving DecidableEq, Repr

inductive RepollLabel where
  | poll
  | wake
  deriving DecidableEq, Repr

def Repoll.step : Step Repoll RepollLabel
  | s, .poll =>
      if s.pending = 0 then some { s with waits := false }
      else
        some { s with
          pending := s.pending - 1
          waits := true
          threads := s.threads + s.thread.toNat }
  | s, .wake => if s.threads = 0 then none else some { s with threads := s.threads - 1 }

end Suspend.Thread
