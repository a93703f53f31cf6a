import Suspend.Park.Condvar
import Suspend.Park.Futex

/-!
# What the parkers promise

The three implementations keep the same books, and neither the one on a
condition variable nor the one on a futex leaves a notified thread asleep.
-/

namespace Suspend.Park

open Suspend.Transition

/-- The `unpark` calls that returned `true` are as many as the parks that
returned notified, and one more while the notification is set. -/
def Cell.Conserved {R : Type} (notified : R → Bool) (cell : Cell R) : Prop :=
  cell.given = cell.parks.countP (fun park => notified park.1) + cell.word.unpark.toNat ∧
    ∀ park ∈ cell.parks, notified park.1 = park.2

instance {R : Type} (notified : R → Bool) (cell : Cell R) : Decidable (cell.Conserved notified) :=
  inferInstanceAs (Decidable (_ ∧ _))

/-- The parking thread sleeps over a notification and no notifier is on its way
to the signal. -/
def Condvar.System.Missed (sys : Condvar.System) : Prop :=
  (∃ timeout, sys.parker = .blocked timeout) ∧ sys.cell.word.unpark = true ∧
    ∀ notifier ∈ sys.notifiers, ¬ notifier.OnItsWay

/-- The same for `futex_wake`. -/
def Futex.System.Missed (sys : Futex.System) : Prop :=
  (∃ state timeout, sys.parker = .blocked state timeout) ∧ sys.cell.word.unpark = true ∧
    .wake ∉ sys.notifiers

/-- Notifications are conserved, whatever the interleaving and whatever
timeouts expire. -/
theorem tokens_conserved :
    (∀ impl sys, Reachable (Condvar.step impl) {} sys →
      sys.cell.Conserved ParkResult.notified) ∧
    (∀ sys, Reachable Futex.step {} sys → sys.cell.Conserved Option.isSome) := by
  constructor
  · intro impl sys reachable
    have tokens := Condvar.tokens_of_reachable reachable
    exact ⟨tokens.balanced.given_eq tokens.truthful, tokens.truthful⟩
  · intro sys reachable
    have tokens := Futex.tokens_of_reachable reachable
    exact ⟨tokens.balanced.given_eq tokens.truthful, tokens.truthful⟩

/-- A notification that lands between the load and the swap of a park whose
timeout has expired is taken by that park. -/
theorem tokens_conserved_at_expiry :
    ∃ sys ∈ runFrom (Condvar.step .pthread) {}
        [.park true, .parker .goes, .parker .goes, .parker .goes, .parker .expires,
          .parker .goes, .unpark, .parker .goes],
      (sys.cell.given = 1 ∧ sys.cell.parks = [(.unparked, true)]) ∧
        sys.cell.Conserved ParkResult.notified := by
  obtain ⟨sys, ran, books⟩ : ∃ sys ∈ runFrom (Condvar.step .pthread) {}
      [.park true, .parker .goes, .parker .goes, .parker .goes, .parker .expires,
        .parker .goes, .unpark, .parker .goes],
      sys.cell.given = 1 ∧ sys.cell.parks = [(.unparked, true)] := by decide
  exact ⟨sys, ran, books, tokens_conserved.1 .pthread sys (reachable_of_runFrom ran)⟩

/-- No interleaving leaves the parking thread asleep over a notification. -/
theorem no_missed_unpark :
    (∀ sys, Reachable (Condvar.step .pthread) {} sys → ¬ sys.Missed) ∧
    (∀ sys, Reachable Futex.step {} sys → ¬ sys.Missed) := by
  constructor
  · rintro sys reachable ⟨⟨timeout, isBlocked⟩, isSet, nobody⟩
    have expects := (Condvar.signals_of_reachable reachable).expects isSet
    rw [isBlocked] at expects
    obtain ⟨notifier, isIn, onItsWay⟩ := expects
    exact nobody notifier isIn onItsWay
  · rintro sys reachable ⟨⟨state, timeout, isBlocked⟩, isSet, nobody⟩
    exact nobody (Futex.woken_of_reachable reachable state timeout isBlocked isSet)

/-- A notifier that has set the bit just before the wait, and has yet to take
the mutex. -/
theorem no_missed_unpark_before_wait :
    ∃ sys ∈ runFrom (Condvar.step .pthread) {}
        [.park false, .parker .goes, .parker .goes, .parker .goes, .unpark, .parker .goes],
      sys.parker = .blocked false ∧ sys.cell.word.unpark = true ∧ ¬ sys.Missed := by
  obtain ⟨sys, ran, isBlocked, isSet⟩ : ∃ sys ∈ runFrom (Condvar.step .pthread) {}
      [.park false, .parker .goes, .parker .goes, .parker .goes, .unpark, .parker .goes],
      sys.parker = .blocked false ∧ sys.cell.word.unpark = true := by decide
  exact ⟨sys, ran, isBlocked, isSet, no_missed_unpark.1 sys (reachable_of_runFrom ran)⟩

end Suspend.Park
