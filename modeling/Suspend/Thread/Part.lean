import Suspend.Thread.Blocking

/-!
# Blocking on a part of a system

A thread may block on one part of what it shares with others, while the rest of
it goes on.  What the part is shown of that is what others do to it, and so the
thread blocks as on the part alone.
-/

namespace Suspend.Thread

open Suspend.Transition
open Suspend.Listen
open Suspend.Park

universe u v w x

variable {C : Type u} {A : Type v} {D : Type w} {B : Type x} {σ L P : Type}
  {whole : Polled C A} {part : Polled D B} {view : C → D}

/-- What the part is shown of a step. -/
inductive Polled.Moves (whole : Polled C A) (part : Polled D B) (view : C → D) (call : C)
    (label : A) (next : C) : Prop
  | aside (same : view next = view call) (silent : whole.wakes call label = false)
      (enters : whole.enters label = false)
  | made (made : B) (step : part.step (view call) made = some (view next))
      (wakes : part.wakes (view call) made = whole.wakes call label)
      (enters : part.enters made = whole.enters label)
      (own : (part.waits (view call)).isSome = true → part.own made = true →
        whole.own label = true)

/-- A thread that blocks on the whole polls the part. -/
structure Polled.Has (whole : Polled C A) (part : Polled D B) (view : C → D) (start : C) : Prop
    where
  loop : part.loop = whole.loop
  waits : ∀ call, part.waits (view call) = whole.waits call
  step : ∀ call label next, Reachable whole.step start call →
    whole.step call label = some next → whole.Moves part view call label next
  resume : ∀ call timedOut next, Reachable whole.step start call →
    whole.step call (whole.resume timedOut) = some next →
      part.step (view call) (part.resume timedOut) = some (view next)

namespace Blocked

variable {impl : WakingParker σ L P} {s next : Blocked C σ} {start : C}

/-- The thread as one that blocks on the part. -/
def on (view : C → D) (s : Blocked C σ) : Blocked D σ where
  call := view s.call
  parker := s.parker
  repeats := s.repeats
  yields := s.yields
  repolls := s.repolls
  given := s.given
  woken := s.woken
  failed := s.failed

theorem on_unpark (step : s.unpark impl = some next) :
    (s.on view).unpark impl = some (next.on view) := by
  obtain ⟨parker, unparked, rfl⟩ := Option.map_eq_some_iff.mp step
  simp [unpark, on, unparked]

/-- A poll of the whole after a park is one of the part. -/
theorem on_again {parker : σ} (has : whole.Has part view start)
    (reachable : Reachable whole.step start s.call) (step : s.again whole parker = some next) :
    (s.on view).again part parker = some (next.on view) ∧
      Reachable whole.step start next.call := by
  obtain ⟨call, polled, rfl⟩ := Option.map_eq_some_iff.mp step
  have resumed := has.resume s.call false call reachable polled
  refine ⟨?_, reachable.tail trivial polled⟩
  show (part.step (view s.call) (part.resume false)).map _ = _
  rw [resumed]
  rfl

theorem on_returned {parker : σ} {result : ParkResult} (has : whole.Has part view start)
    (reachable : Reachable whole.step start s.call)
    (step : s.returned whole parker result = some next) :
    (s.on view).returned part parker result = some (next.on view) ∧
      Reachable whole.step start next.call := by
  have loop := has.loop
  simp only [returned] at step ⊢
  rw [loop]
  cases isLoop : whole.loop with
  | blockOn =>
      simp only [isLoop] at step
      exact on_again has reachable step
  | blockOnPoll =>
      cases result with
      | skipped | unparked =>
          simp only [isLoop] at step
          exact on_again (s := { s with repeats := _, yields := _ }) has reachable step
      | timedOut =>
          simp only [isLoop] at step
          simp only [on, has.waits]
          split at step
          · rename_i timed
            obtain ⟨call, polled, rfl⟩ := Option.map_eq_some_iff.mp step
            have resumed := has.resume s.call true call reachable polled
            rw [if_pos timed, resumed]
            exact ⟨rfl, reachable.tail trivial polled⟩
          · rename_i untimed
            cases step
            rw [if_neg untimed]
            exact ⟨rfl, reachable⟩

/-- Each step of the thread is one of the thread that blocks on the part, or
nothing to it. -/
theorem on_step [DecidableEq P] {label : BlockedLabel A} (has : whole.Has part view start)
    (reachable : Reachable whole.step start s.call)
    (step : Blocked.step whole impl s label = some next) :
    Reachable whole.step start next.call ∧
      (next.on view = s.on view ∨ ∃ made : BlockedLabel B, made.stray = label.stray ∧
        Blocked.step part impl (s.on view) made = some (next.on view)) := by
  cases label with
  | call label =>
      simp only [Blocked.step] at step
      split at step
      · cases step
      · rename_i allowed
        obtain ⟨call, called, step⟩ := Option.bind_eq_some_iff.mp step
        have moves := has.step s.call label call reachable called
        have reached : next.call = call := by
          split at step
          · obtain ⟨parker, _, rfl⟩ := Option.map_eq_some_iff.mp step
            rfl
          · cases step
            rfl
        refine ⟨reached ▸ reachable.tail trivial called, ?_⟩
        induction moves with
        | aside same silent enters =>
            left
            rw [silent, enters] at step
            obtain rfl := Option.some.inj step
            simp [on, same]
        | made made stepped wakes enters own =>
            right
            refine ⟨.call made, rfl, ?_⟩
            have free : ((part.waits (view s.call)).isSome && part.own made) = false := by
              by_contra busy
              simp only [Bool.not_eq_false, Bool.and_eq_true] at busy
              rw [has.waits] at busy own
              exact allowed (by simp [busy.1, own busy.1 busy.2])
            simp only [Blocked.step, on, free, Bool.false_eq_true, if_false, stepped,
              Option.bind_some, wakes, enters]
            split at step
            · rename_i woken
              rw [if_pos woken]
              exact on_unpark step
            · rename_i silent
              rw [if_neg silent]
              obtain rfl := Option.some.inj step
              rfl
  | park =>
      obtain ⟨timeout, waits, step⟩ := Option.bind_eq_some_iff.mp step
      obtain ⟨parker, parked, rfl⟩ := Option.map_eq_some_iff.mp step
      refine ⟨reachable, .inr ⟨.park, rfl, ?_⟩⟩
      simp [Blocked.step, on, has.waits, waits, parked]
  | go fate =>
      obtain ⟨parker, went, step⟩ := Option.bind_eq_some_iff.mp step
      split at step
      · rename_i within
        obtain rfl := Option.some.inj step
        refine ⟨reachable, .inr ⟨.go fate, rfl, ?_⟩⟩
        simp [Blocked.step, on, went, within]
      · rename_i isIdle
        obtain ⟨result, isLast, step⟩ := Option.bind_eq_some_iff.mp step
        obtain ⟨returned, reached⟩ := on_returned has reachable step
        refine ⟨reached, .inr ⟨.go fate, rfl, ?_⟩⟩
        simp only [Blocked.step]
        rw [show (s.on view).parker = s.parker from rfl, went, Option.bind_some, if_neg isIdle,
          isLast]
        exact returned
  | unpark => exact ⟨by obtain ⟨parker, _, rfl⟩ := Option.map_eq_some_iff.mp step; exact reachable,
      .inr ⟨.unpark, rfl, on_unpark step⟩⟩
  | notify index =>
      obtain ⟨parker, notified, rfl⟩ := Option.map_eq_some_iff.mp step
      refine ⟨reachable, .inr ⟨.notify index, rfl, ?_⟩⟩
      simp [Blocked.step, on, notified]

/-- So is each run in which nobody else notifies the listener. -/
theorem on_reachable [DecidableEq P] (has : whole.Has part view start)
    (reachable : ReachableUnder (Blocked.step whole impl) (fun _ label => (!label.stray) = true)
      { call := start, parker := impl.init } s) :
    Reachable whole.step start s.call ∧
      ReachableUnder (Blocked.step part impl) (fun _ label => (!label.stray) = true)
        { call := view start, parker := impl.init } (s.on view) := by
  apply reachable.invariant
  · exact ⟨ReachableUnder.refl _ _ _, ReachableUnder.refl _ _ _⟩
  · intro before label after ⟨reached, seen⟩ called step
    obtain ⟨reached, same | ⟨made, isStray, moved⟩⟩ := on_step has reached step
    · exact ⟨reached, same ▸ seen⟩
    · exact ⟨reached, seen.tail (isStray ▸ called) moved⟩

end Blocked

end Suspend.Thread
