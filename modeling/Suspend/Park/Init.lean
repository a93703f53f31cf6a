import Suspend.Park.Condvar

/-!
# The lock of the parker over `std`

`default::ParkImpl` constructs its `Mutex` and `Condvar` in the first `park` and
is to keep them: `STATE_INIT` says that they are there.  No access sets that
bit, so every `park` that does not find a notification at once constructs them
anew, over whatever an `unpark` may still be using.
-/

namespace Suspend.Park.Condvar

open Suspend.Transition

/-- The parker, how often `lock_init` has run, whether it has run over a lock
that an `unpark` was still to use, and whether an `unpark` has used a lock that
was not there. -/
structure Lazy where
  parker : System := {}
  built : Nat := 0
  replaced : Bool := false
  unbuilt : Bool := false
  deriving DecidableEq, Repr

namespace Lazy

/-- The step runs `lock_init`. -/
def builds (s : Lazy) : Label → Bool
  | .parker _ =>
      match s.parker.parker with
      | .init _ => true
      | _ => false
  | _ => false

/-- The step uses the `Mutex` or the `Condvar` in `unpark`. -/
def uses (s : Lazy) : Label → Bool
  | .notifier index => s.parker.notifiers[index]?.any fun notifier => notifier != .returned
  | _ => false

def step : Step Lazy Label := fun s label =>
  (Condvar.step .std s.parker label).map fun next =>
    { parker := next
      built := s.built + (s.builds label).toNat
      replaced := s.replaced ||
        s.builds label && s.built != 0 && s.parker.notifiers.any fun notifier =>
          notifier != .returned
      unbuilt := s.unbuilt || s.uses label && s.built == 0 }

/-- Constructed at most once, never while an `unpark` is between its `fetch_or`
and its `notify_one`, and before any `unpark` uses them. -/
structure InitialisedOnce (s : Lazy) : Prop where
  once : s.built ≤ 1
  kept : s.replaced = false
  first : s.unbuilt = false

/-- A `park` that begins without a notification is the first to do so. -/
def skipsOrFirst (s : Lazy) : Label → Bool
  | .park _ => s.parker.cell.word.unpark || s.built == 0
  | _ => true

end Lazy

/-- The park in progress has not yet come to its lock, or is past it. -/
def Parker.unlocked : Parker → Bool
  | .idle | .skip _ | .init _ => true
  | _ => false

/-- No access of the `std` based parker sets `STATE_INIT`. -/
theorem System.Tokens.init_step {sys next : System} {label : Label} (tokens : sys.Tokens)
    (step : Condvar.step .std sys label = some next) :
    next.cell.word.init = sys.cell.word.init := by
  have sees := tokens.sees
  cases label with
  | acquire | release | park | unpark | notifier =>
      simp only [Condvar.step, System.notify, System.signal] at step
      grind -linarith -ring -order -ac [System.beginPark, System.unpark, Cell.unpark, Cell.store]
  | parker fate =>
      cases atPc : sys.parker <;>
        simp only [Condvar.step, System.park, atPc, System.wait, System.skip, System.consume,
          Parker.Sees] at step sees <;>
        grind -linarith -ring -order -ac [Cell.swap, Cell.store, Impl.register]

/-- Only a park that begins without a notification comes to `lock_init`. -/
theorem System.starts_init {impl : Impl} {sys next : System} {label : Label} {timeout : Bool}
    (step : Condvar.step impl sys label = some next) (atInit : next.parker = .init timeout) :
    sys.parker = .init timeout ∨
      ∃ limit, label = .park limit ∧ sys.cell.word.unpark = false := by
  cases label with
  | acquire | release | park | unpark | notifier =>
      simp only [Condvar.step, System.notify, System.signal, System.beginPark,
        System.unpark] at step
      grind -linarith -ring -order -ac
  | parker fate =>
      cases atPc : sys.parker <;>
        simp only [Condvar.step, System.park, atPc, System.wait, System.skip,
          System.consume] at step <;>
        grind -linarith -ring -order -ac

namespace Lazy

variable {s next : Lazy} {label : Label}

/-- Before the lock is there, no park has come to it and no `unpark` looks for
it. -/
structure Built (s : Lazy) : Prop where
  tokens : s.parker.Tokens
  clear : s.parker.cell.word.init = false
  fresh : s.built = 0 → s.parker.cell.word.park = false ∧ s.parker.notifiers = [] ∧
    s.parker.parker.unlocked = true
  first : s.unbuilt = false

theorem Built.initial : Built {} where
  tokens := .initial
  clear := rfl
  fresh _ := ⟨rfl, rfl, rfl⟩
  first := rfl

/-- Nothing but `lock_init` takes a park past the places it can be at without a
lock. -/
theorem Built.unbuilt_step {parker : System} (built : s.Built) (isZero : s.built = 0)
    (builds : s.builds label = false) (moved : Condvar.step .std s.parker label = some parker) :
    parker.cell.word.park = false ∧ parker.notifiers = [] ∧ parker.parker.unlocked = true := by
  obtain ⟨park, nobody, unlocked⟩ := built.fresh isZero
  have sees := built.tokens.sees
  cases label with
  | acquire | release =>
      simp only [Condvar.step] at moved
      split at moved
      · cases moved
        exact ⟨park, nobody, unlocked⟩
      · cases moved
  | park timeout =>
      obtain ⟨atIdle, rfl⟩ := by simpa [Condvar.step] using moved
      refine ⟨park, nobody, ?_⟩
      rw [System.beginPark, built.clear]
      split
      · rfl
      · rfl
  | parker fate =>
      cases atPc : s.parker.parker with
      | idle => simp [Condvar.step, System.park, atPc] at moved
      | skip state =>
          rw [atPc] at sees
          simp only [Condvar.step, System.park, atPc, Option.some.injEq] at moved
          subst moved
          refine ⟨?_, nobody, rfl⟩
          rw [← park, sees.1]
          rfl
      | init timeout => simp [Lazy.builds, atPc] at builds
      | _ =>
          rw [atPc] at unlocked
          cases unlocked
  | unpark =>
      obtain rfl := by simpa [Condvar.step] using moved
      refine ⟨park, ?_, unlocked⟩
      simp [System.unpark, park, nobody]
  | notifier index => simp [Condvar.step, System.notify, nobody] at moved

theorem Built.step (built : s.Built) (step : Lazy.step s label = some next) : next.Built := by
  obtain ⟨parker, moved, rfl⟩ := Option.map_eq_some_iff.mp step
  refine ⟨built.tokens.step moved, (built.tokens.init_step moved).trans built.clear, ?_, ?_⟩
  · intro unbuilt
    obtain ⟨isZero, builds⟩ : s.built = 0 ∧ s.builds label = false := by
      simpa using unbuilt
    exact built.unbuilt_step isZero builds moved
  · have nobody (isZero : s.built = 0) : s.uses label = false := by
      cases label with
      | notifier index => simp [uses, (built.fresh isZero).2.1]
      | _ => rfl
    cases uses : s.uses label with
    | true =>
        have isThere : s.built ≠ 0 := by
          intro isZero
          rw [nobody isZero] at uses
          cases uses
        simp [built.first, isThere]
    | false => simp [built.first]

theorem Built.of_reachable (reachable : Reachable Lazy.step {} s) : s.Built :=
  reachable.invariant initial fun _ _ _ built _ step => built.step step

/-- The lock is there at most once, and a park that is about to construct it is
the first to. -/
structure Once (s : Lazy) : Prop where
  starts : ∀ timeout, s.parker.parker = .init timeout → s.built = 0
  once : s.built ≤ 1
  kept : s.replaced = false

theorem Once.initial : Once {} where
  starts := by rintro _ ⟨⟩
  once := Nat.zero_le 1
  kept := rfl

theorem builds_iff : s.builds label = true ↔
    ∃ fate timeout, label = .parker fate ∧ s.parker.parker = .init timeout := by
  cases label with
  | parker fate => cases atPc : s.parker.parker <;> simp [builds, atPc]
  | _ => simp [builds]

theorem Once.step (once : s.Once) (skipsOrFirst : s.skipsOrFirst label = true)
    (step : Lazy.step s label = some next) : next.Once := by
  obtain ⟨parker, moved, rfl⟩ := Option.map_eq_some_iff.mp step
  cases builds : s.builds label with
  | true =>
      obtain ⟨fate, timeout, rfl, atInit⟩ := builds_iff.mp builds
      have isZero := once.starts timeout atInit
      simp only [Condvar.step, System.park, atInit, Option.some.injEq] at moved
      subst moved
      refine ⟨?_, ?_, ?_⟩
      · rintro _ ⟨⟩
      · simp [isZero]
      · simp [isZero, once.kept]
  | false =>
      refine ⟨?_, ?_, ?_⟩
      · intro timeout atInit
        simp only [Bool.toNat_false, Nat.add_zero]
        rcases System.starts_init moved atInit with already | ⟨limit, rfl, noNotification⟩
        · exact once.starts timeout already
        · simpa [Lazy.skipsOrFirst, noNotification] using skipsOrFirst
      · simpa [builds] using once.once
      · simpa [builds] using once.kept

theorem Once.of_reachable
    (reachable : ReachableUnder Lazy.step (fun s label => s.skipsOrFirst label = true) {} s) :
    s.Once :=
  reachable.invariant initial fun _ _ _ once skipsOrFirst step => once.step skipsOrFirst step

/-- A park that begins without a notification over a lock that is there
constructs another one. -/
theorem Built.twice (built : s.Built) (timeout : Bool) (atIdle : s.parker.parker = .idle)
    (again : s.skipsOrFirst (.park timeout) = false) :
    ∃ next ∈ runFrom Lazy.step s [.park timeout, .parker .goes], ¬ next.InitialisedOnce := by
  obtain ⟨noNotification, isThere⟩ : s.parker.cell.word.unpark = false ∧ s.built ≠ 0 := by
    simpa [skipsOrFirst] using again
  have begins : s.parker.beginPark timeout = { s.parker with parker := .init timeout } := by
    simp [System.beginPark, noNotification, built.clear]
  have first : Lazy.step s (.park timeout) =
      some { s with parker := { s.parker with parker := .init timeout } } := by
    simp [Lazy.step, Condvar.step, atIdle, begins, builds, uses]
  obtain ⟨next, second, more⟩ : ∃ next, Lazy.step
      { s with parker := { s.parker with parker := .init timeout } } (.parker .goes) = some next ∧
        next.built = s.built + 1 :=
    ⟨_, rfl, rfl⟩
  refine ⟨next, ?_, ?_⟩
  · simp [runFrom, first, second]
  · intro once
    have atMost := once.once
    omega

end Lazy

/-- The lock of the `std` based parker, as long as at most the first park finds
no notification when it begins; the next that does constructs another lock. -/
theorem lock_initialisedOnce (s : Lazy) :
    (ReachableUnder Lazy.step (fun s label => s.skipsOrFirst label = true) {} s →
      s.InitialisedOnce) ∧
    (Reachable Lazy.step {} s → ∀ timeout, s.parker.parker = .idle →
      s.skipsOrFirst (.park timeout) = false →
      ∃ next ∈ runFrom Lazy.step s [.park timeout, .parker .goes], ¬ next.InitialisedOnce) := by
  constructor
  · intro reachable
    have once := Lazy.Once.of_reachable reachable
    exact ⟨once.once, once.kept, (Lazy.Built.of_reachable reachable.reachable).first⟩
  · intro reachable timeout atIdle again
    exact (Lazy.Built.of_reachable reachable).twice timeout atIdle again

/-- A park that times out, and one that is skipped. -/
theorem lock_initialisedOnce_of_timeout : ∃ s ∈ runFrom (guarded Lazy.step Lazy.skipsOrFirst) {}
    [.park true, .parker .goes, .parker .goes, .parker .goes, .parker .expires, .parker .goes,
      .parker .goes, .parker .goes, .unpark, .park true, .parker .goes],
    s.parker.cell.parks = [(.timedOut, false), (.skipped, true)] ∧ s.InitialisedOnce := by
  obtain ⟨s, ran, parks⟩ : ∃ s ∈ runFrom (guarded Lazy.step Lazy.skipsOrFirst) {}
      [.park true, .parker .goes, .parker .goes, .parker .goes, .parker .expires, .parker .goes,
        .parker .goes, .parker .goes, .unpark, .park true, .parker .goes],
      s.parker.cell.parks = [(.timedOut, false), (.skipped, true)] := by
    decide
  exact ⟨s, ran, parks, (lock_initialisedOnce s).1 (reachableUnder_of_runFrom ran)⟩

/-- The second park after a timeout constructs the lock again, under an `unpark`
that has found the first one parked. -/
theorem lock_replaced : ¬ ∀ s, Reachable Lazy.step {} s → s.InitialisedOnce := by
  intro always
  obtain ⟨s, ran, replaced⟩ : ∃ s ∈ runFrom Lazy.step {}
      [.park true, .parker .goes, .parker .goes, .parker .goes, .parker .expires, .unpark,
        .parker .goes, .parker .goes, .parker .goes, .park true, .parker .goes],
      s.replaced = true := by
    decide
  have kept := (always s (reachable_of_runFrom ran)).kept
  rw [replaced] at kept
  cases kept

end Suspend.Park.Condvar
