import Suspend.Listen.Permit
import Suspend.Park.Clock

/-!
# Parks against a clock

A park with a timeout computes what is left until its expiry again before each
of its waits, so that spurious wake-ups do not add up.  The parkers leave open
when a wait times out; here they run beside a clock that does not go back, and
the system calls keep to the time they were given.
-/

namespace Suspend.Listen

open Suspend.Transition
open Suspend.Park

variable {σ L P : Type}

/-- A parker with what its waits ask of the clock. -/
structure TimedParker (σ L P : Type) extends WakingParker σ L P where
  /-- The next access of the park is its wait. -/
  waits : σ → Bool
  /-- The park is to report that it has timed out. -/
  met : σ → Bool
  sleep : ∀ t : TimeT, Option Instant → Now t → Now t → Sleep

/-- A parker and the clock.  `expiry` is that of the latest park, `deadline`
that of its latest wait, which has read the clock twice with `slack` between.
`returned` are the results, each with the expiry and the time of the swap that
decided it. -/
structure Timed (t : TimeT) (σ : Type) where
  parker : σ
  now : Now t
  expiry : Option Instant := none
  deadline : Option Nat := none
  slack : Nat := 0
  returned : List (ParkResult × Option Instant × Nat) := []

inductive TimedLabel where
  | tick (nanos : Nat)
  | park (expiry : Option Instant)
  /-- The next access of the park; a wait reads the clock once more after
  `nanos`. -/
  | go (nanos : Nat) (fate : Fate)
  | acquire
  | release
  | unpark
  | notify (notifier : Nat)

namespace TimedParker

variable (impl : TimedParker σ L P) {t : TimeT}

/-- An access of the parker. -/
def access (s : Timed t σ) (label : L) : Option (Timed t σ) :=
  (impl.step s.parker label).map fun parker =>
    { s with
      parker
      returned := s.returned ++
        ((impl.results parker).drop (impl.results s.parker).length).map
          fun result => (result, s.expiry, s.now.nanos) }

/-- A wait asks for what is left, and a sleeping thread times out when that has
passed. -/
def advance (s : Timed t σ) (nanos : Nat) (fate : Fate) : Option (Timed t σ) :=
  if impl.waits s.parker then
    (s.now.after nanos).bind fun later =>
      match impl.sleep t s.expiry s.now later, fate with
      | .expired, .expires => impl.access s (impl.go .expires)
      | .upTo deadline, .goes =>
          impl.access { s with now := later, deadline := some deadline, slack := nanos }
            (impl.go .goes)
      | .forever, .goes =>
          impl.access { s with now := later, deadline := none, slack := nanos } (impl.go .goes)
      | _, _ => none
  else if impl.asleep s.parker && fate = .expires then
    if s.deadline.any (· ≤ s.now.nanos) then impl.access s (impl.go .expires) else none
  else impl.access s (impl.go fate)

def timed : Step (Timed t σ) TimedLabel
  | s, .tick nanos => (s.now.after nanos).map fun now => { s with now }
  | s, .park expiry => impl.access { s with expiry, deadline := none, slack := 0 }
      (impl.park expiry.isSome)
  | s, .go nanos fate => impl.advance s nanos fate
  | s, .acquire => impl.access s impl.acquire
  | s, .release => impl.access s impl.release
  | s, .unpark => impl.access s impl.unpark
  | s, .notify notifier => impl.access s (impl.notify notifier)

end TimedParker

/-! ## What the clock bounds -/

/-- What the next access of a park does to its sleep and to its timeout. -/
structure TimedParker.Advances (impl : TimedParker σ L P) (s : σ) (fate : Fate) (next : σ) :
    Prop where
  asleep : impl.asleep next = true → impl.waits s = true ∧ fate = .goes
  met : impl.met next = true →
    impl.met s = true ∨ fate = .expires ∧ (impl.waits s = true ∨ impl.asleep s = true)
  results : impl.results next = impl.results s ∨ ∃ result,
    impl.results next = impl.results s ++ [result] ∧ (result = .timedOut → impl.met s = true)

/-- A step that is not one of the park's leaves its result and its timeout. -/
structure TimedParker.Apart (impl : TimedParker σ L P) (s next : σ) : Prop where
  asleep : impl.asleep next = true → impl.asleep s = true
  met : impl.met next = true → impl.met s = true
  results : impl.results next = impl.results s

structure TimedParker.Punctual (impl : TimedParker σ L P) : Prop where
  init : impl.met impl.init = false ∧ impl.asleep impl.init = false
  timely : ∀ t expiry (first second : Now t),
    (impl.sleep t expiry first second).Timely expiry first second
  parks : ∀ s next timeout, impl.step s (impl.park timeout) = some next →
    impl.asleep next = false ∧ impl.met next = false ∧ impl.results next = impl.results s
  goes : ∀ s next fate, impl.step s (impl.go fate) = some next → impl.Advances s fate next
  unparks : ∀ s next, impl.step s impl.unpark = some next → impl.Apart s next
  notifies : ∀ s next notifier, impl.step s (impl.notify notifier) = some next →
    impl.Apart s next
  acquires : ∀ s next, impl.step s impl.acquire = some next ∨ impl.step s impl.release = some next →
    impl.Apart s next

namespace Timed

variable {t : TimeT}

/-- The deadline of the latest wait is its expiry, later by no more than the time
between the wait's own readings of the clock; without a deadline there is no
expiry, or none that the system call has room for. -/
def Waits (s : Timed t σ) : Prop :=
  ∀ inst, s.expiry = some inst →
    s.deadline = some (inst.nanos + s.slack) ∨
      s.deadline = none ∧ t.max < ((inst.nanos + s.slack) / nanosPerSec : Nat)

/-- What a caller of `park` can rely on. -/
structure KeepsTime (impl : TimedParker σ L P) (s : Timed t σ) : Prop where
  /-- No park times out without an expiry, or before it. -/
  timedOut : ∀ entry ∈ s.returned, entry.1 = .timedOut →
    ∃ inst, entry.2.1 = some inst ∧ inst.nanos ≤ entry.2.2
  sleeps : impl.asleep s.parker = true →
    (s.expiry = none → s.deadline = none) ∧ s.Waits

/-- A park that is to report a timeout has met it. -/
structure Kept (impl : TimedParker σ L P) (s : Timed t σ) : Prop extends s.KeepsTime impl where
  met : impl.met s.parker = true → ∃ inst, s.expiry = some inst ∧ inst.nanos ≤ s.now.nanos

variable {impl : TimedParker σ L P} {s s' : Timed t σ} {label : TimedLabel}

/-- The park in progress has met its expiry. -/
def Expired (s : Timed t σ) : Prop :=
  ∃ inst, s.expiry = some inst ∧ inst.nanos ≤ s.now.nanos

/-- What an access of the parker keeps. -/
theorem Kept.access {call : L} (step : impl.access s call = some s')
    (timedOut : ∀ entry ∈ s.returned, entry.1 = .timedOut →
      ∃ inst, entry.2.1 = some inst ∧ inst.nanos ≤ entry.2.2)
    (kept : ∀ parker, impl.step s.parker call = some parker →
      (impl.results parker = impl.results s.parker ∨ ∃ result,
          impl.results parker = impl.results s.parker ++ [result] ∧
            (result = .timedOut → s.Expired)) ∧
        (impl.met parker = true → s.Expired) ∧
          (impl.asleep parker = true → (s.expiry = none → s.deadline = none) ∧ s.Waits)) :
    s'.Kept impl := by
  obtain ⟨parker, stepped, rfl⟩ := Option.map_eq_some_iff.mp step
  obtain ⟨results, met, sleeps⟩ := kept parker stepped
  refine ⟨⟨?_, sleeps⟩, met⟩
  intro entry isEntry
  rcases List.mem_append.mp isEntry with earlier | latest
  · exact timedOut entry earlier
  · rcases results with same | ⟨result, isResult, expired⟩
    · simp [same] at latest
    · simp only [isResult, List.drop_left', List.map_cons, List.map_nil,
        List.mem_singleton] at latest
      subst latest
      exact expired

theorem Kept.apart {call : L} (kept : s.Kept impl) (step : impl.access s call = some s')
    (apart : ∀ next, impl.step s.parker call = some next → impl.Apart s.parker next) :
    s'.Kept impl := by
  refine Kept.access step kept.timedOut ?_
  intro parker stepped
  obtain ⟨asleep, met, results⟩ := apart parker stepped
  exact ⟨.inl results, fun isMet => kept.met (met isMet),
    fun isAsleep => kept.sleeps (asleep isAsleep)⟩

/-- A wait that begins has its deadline from the clock. -/
theorem Kept.wait {later : Now t} {nanos : Nat} {deadline : Option Nat} (punctual : impl.Punctual)
    (kept : s.Kept impl) (passed : s.now.after nanos = some later)
    (step : impl.access { s with now := later, deadline, slack := nanos } (impl.go .goes) = some s')
    (unset : s.expiry = none → deadline = none)
    (waits : ∀ inst, s.expiry = some inst → deadline = some (inst.nanos + nanos) ∨
      deadline = none ∧ t.max < ((inst.nanos + nanos) / nanosPerSec : Nat)) : s'.Kept impl := by
  have after := Now.after_nanos passed
  refine Kept.access step kept.timedOut ?_
  intro parker stepped
  obtain ⟨-, met, results⟩ := punctual.goes _ _ _ stepped
  have isMet (before : impl.met s.parker = true) :
      ({ s with now := later, deadline, slack := nanos } : Timed t σ).Expired := by
    obtain ⟨inst, isExpiry, expired⟩ := kept.met before
    exact ⟨inst, isExpiry, by rw [after]; omega⟩
  refine ⟨?_, fun met' => ?_, fun _ => ⟨unset, waits⟩⟩
  · rcases results with same | ⟨result, isResult, expired⟩
    · exact .inl same
    · exact .inr ⟨result, isResult, fun timedOut => isMet (expired timedOut)⟩
  · rcases met met' with before | ⟨never, _⟩
    · exact isMet before
    · cases never

/-- Any other access of a park reports a timeout only where it has been met. -/
theorem Kept.goes {fate : Fate} (punctual : impl.Punctual) (kept : s.Kept impl)
    (step : impl.access s (impl.go fate) = some s')
    (expired : fate = .expires → impl.waits s.parker = true ∨ impl.asleep s.parker = true →
      s.Expired)
    (wakes : impl.waits s.parker = true → fate ≠ .goes) : s'.Kept impl := by
  refine Kept.access step kept.timedOut ?_
  intro parker stepped
  obtain ⟨asleep, met, results⟩ := punctual.goes _ _ _ stepped
  refine ⟨?_, fun isMet => ?_, fun isAsleep => ?_⟩
  · rcases results with same | ⟨result, isResult, isMet⟩
    · exact .inl same
    · exact .inr ⟨result, isResult, fun timedOut => kept.met (isMet timedOut)⟩
  · rcases met isMet with before | ⟨expires, atWait⟩
    · exact kept.met before
    · exact expired expires atWait
  · obtain ⟨waits, goes⟩ := asleep isAsleep
    exact (wakes waits goes).elim

theorem Kept.advance {nanos : Nat} {fate : Fate} (punctual : impl.Punctual) (kept : s.Kept impl)
    (step : impl.advance s nanos fate = some s') : s'.Kept impl := by
  unfold TimedParker.advance at step
  by_cases waits : impl.waits s.parker = true
  · rw [if_pos waits, Option.bind_eq_some_iff] at step
    obtain ⟨later, passed, step⟩ := step
    have timely := punctual.timely t s.expiry s.now later
    have after := Now.after_nanos passed
    split at step
    · rename_i isSleep
      rw [isSleep] at timely
      obtain ⟨inst, isExpiry, expired⟩ := timely
      exact kept.goes punctual step (fun _ _ => ⟨inst, isExpiry, by omega⟩) fun _ => by simp
    · rename_i deadline isSleep
      rw [isSleep] at timely
      obtain ⟨inst, isExpiry, left, isDeadline⟩ := timely
      refine kept.wait punctual passed step ?_ ?_
      · rw [isExpiry]
        intro never
        cases never
      · intro other isOther
        obtain rfl := Option.some.inj (isExpiry.symm.trans isOther)
        left
        rw [isDeadline, after]
        congr 1
        omega
    · rename_i isSleep
      rw [isSleep] at timely
      refine kept.wait punctual passed step (fun _ => rfl) ?_
      intro inst isExpiry
      have overflows := timely inst isExpiry
      have fits := later.bounded
      by_cases left : s.now.nanos ≤ inst.nanos
      · right
        have same : later.nanos + (inst.nanos - s.now.nanos) = inst.nanos + nanos := by omega
        rw [same] at overflows
        exact ⟨rfl, overflows⟩
      · have same : later.nanos + (inst.nanos - s.now.nanos) = later.nanos := by omega
        rw [same] at overflows
        omega
    · cases step
  · rw [if_neg waits] at step
    split_ifs at step with times due
    · simp only [Bool.and_eq_true, decide_eq_true_eq] at times
      refine kept.goes punctual step ?_ fun isWait => absurd isWait waits
      intro _ _
      obtain ⟨deadline, isDeadline, passed⟩ := (Option.any_eq_true _ _).mp due
      obtain ⟨unset, isWait⟩ := kept.sleeps times.1
      cases isExpiry : s.expiry with
      | none =>
          rw [unset isExpiry] at isDeadline
          cases isDeadline
      | some inst =>
          rcases isWait inst isExpiry with same | ⟨never, _⟩
          · rw [same] at isDeadline
            obtain rfl := Option.some.inj isDeadline
            simp only [decide_eq_true_eq] at passed
            exact ⟨inst, isExpiry, by omega⟩
          · rw [never] at isDeadline
            cases isDeadline
    · simp only [Bool.and_eq_true, decide_eq_true_eq, not_and] at times
      refine kept.goes punctual step ?_ fun isWait => absurd isWait waits
      rintro expires (isWait | isAsleep)
      · exact absurd isWait waits
      · exact absurd expires (times isAsleep)

theorem Kept.step (punctual : impl.Punctual) (kept : s.Kept impl)
    (step : impl.timed s label = some s') : s'.Kept impl := by
  cases label with
  | tick nanos =>
      obtain ⟨now, passed, rfl⟩ := Option.map_eq_some_iff.mp step
      have after := Now.after_nanos passed
      refine ⟨⟨kept.timedOut, kept.sleeps⟩, fun isMet => ?_⟩
      obtain ⟨inst, isExpiry, expired⟩ := kept.met isMet
      exact ⟨inst, isExpiry, by rw [after]; omega⟩
  | park expiry =>
      refine Kept.access step kept.timedOut ?_
      intro parker stepped
      obtain ⟨awake, unmet, results⟩ := punctual.parks _ _ _ stepped
      exact ⟨.inl results, fun isMet => by simp [unmet] at isMet,
        fun isAsleep => by simp [awake] at isAsleep⟩
  | go nanos fate => exact kept.advance punctual step
  | acquire => exact kept.apart step fun next stepped => punctual.acquires _ _ (.inl stepped)
  | release => exact kept.apart step fun next stepped => punctual.acquires _ _ (.inr stepped)
  | unpark => exact kept.apart step (punctual.unparks _)
  | notify notifier => exact kept.apart step fun next => punctual.notifies _ _ _

theorem Kept.of_reachable (punctual : impl.Punctual) {now : Now t}
    (reachable : Reachable impl.timed { parker := impl.init, now } s) : s.Kept impl := by
  refine reachable.invariant ?_ fun _ _ _ kept _ step => kept.step punctual step
  obtain ⟨unmet, awake⟩ := punctual.init
  refine ⟨⟨?_, fun isAsleep => ?_⟩, fun isMet => ?_⟩
  · intro entry never
    cases never
  · simp [awake] at isAsleep
  · simp [unmet] at isMet

end Timed

/-! ## The parkers -/

end Suspend.Listen
