import Suspend.Shared.Lender

/-!
# A lender collected into its value

`CollectInto` owns the lender until it has collected it, and then unwraps it.
`into_inner` takes the lender by value: it moves the value out of the box, which
frees the box, and drops the lender, whose `drop_lender` goes to the same
allocation.
-/

namespace Suspend.Shared

open Suspend.Transition

universe v

variable {W : Type v}

/-- A call of `CollectInto`.  `wait` polls with the waker of its thread. -/
inductive IntoCall (W : Type v) where
  | resolve
  | wait (waker : W)
  | poll (waker : W)
  deriving DecidableEq, Repr

/-- Where the lender stands: with its owner, or in a `CollectInto`. -/
inductive IntoStage (W : Type v) where
  | lender
  | collectInto
  | calling (call : IntoCall W)
  /-- `Lender::into_inner`, before it moves the value out of the box. -/
  | unboxing
  /-- The drop of the lender at the end of `Lender::into_inner`. -/
  | dropping
  | yielded
  deriving DecidableEq, Repr

/-- A lender that may be collected into its value. -/
structure Into (W : Type v) where
  lender : Lender W := {}
  stage : IntoStage W := .lender
  /-- How often the value has been moved out of its box. -/
  moved : Nat := 0
  deriving DecidableEq, Repr

/-- Calls and accesses.  A `CollectInto` is dropped by the `drop` of its
lender. -/
inductive IntoLabel (W : Type v) where
  | lender (label : Label W)
  | collectInto
  | call (call : IntoCall W)
  /-- `block_on_poll` polls once more. -/
  | again
  /-- `block_on_poll` times out. -/
  | expire
  deriving DecidableEq, Repr

namespace Into

/-- Every free but the one of `into_box` drops the value. -/
def dropped (s : Into W) : Nat :=
  s.lender.inner.freed - s.moved

/-- What a call of `CollectInto` begins with. -/
def entry : IntoCall W → Label W
  | .resolve | .wait _ => .tryCollect
  | .poll waker => .poll waker

/-- Where a call goes on with the lender after one of its accesses. -/
def goOn (s : Into W) (call : IntoCall W) (lender : Lender W) : Option (Into W) :=
  match lender.owner with
  | .idle =>
      if s.lender.grants.length < lender.grants.length then
        some { s with lender, stage := .unboxing }
      else
        match call, s.lender.owner with
        | .resolve, _ => some { s with lender, stage := .lender }
        | .poll _, _ => some { s with lender, stage := .collectInto }
        | .wait waker, .trying _ =>
            (lender.call (.poll waker)).map fun lender => { s with lender }
        | .wait _, _ => some { s with lender }
  | _ => some { s with lender }

/-- `into_box().into_inner()`, and then the drop of the lender. -/
def unbox (s : Into W) : Option (Into W) :=
  (Lender.call { s.lender with inner := s.lender.inner.access.dealloc } .drop).map fun lender =>
    { lender, stage := .dropping, moved := s.moved + 1 }

def ownerStep (spurious : Bool) (s : Into W) : Option (Into W) :=
  match s.stage with
  | .lender => (s.lender.ownerStep spurious).map fun lender => { s with lender }
  | .calling call => (s.lender.ownerStep spurious).bind fun lender => s.goOn call lender
  | .unboxing => s.unbox
  | .dropping =>
      (s.lender.ownerStep spurious).map fun lender =>
        match lender.owner with
        | .gone => { s with lender, stage := .yielded }
        | _ => { s with lender }
  | .collectInto | .yielded => none

/-- A call of the owner. -/
def call (s : Into W) (label : Label W) : Option (Into W) :=
  match s.stage, label with
  | .lender, label => (Lender.step s.lender label).map fun lender => { s with lender }
  | .collectInto, .drop =>
      (Lender.step s.lender .drop).map fun lender => { s with lender, stage := .lender }
  | _, _ => none

def step : Step (Into W) (IntoLabel W)
  | s, .lender (.owner spurious) => s.ownerStep spurious
  | s, .lender (.clone index) =>
      (Lender.step s.lender (.clone index)).map fun lender => { s with lender }
  | s, .lender (.release index) =>
      (Lender.step s.lender (.release index)).map fun lender => { s with lender }
  | s, .lender (.handle index) =>
      (Lender.step s.lender (.handle index)).map fun lender => { s with lender }
  | s, .lender label => s.call label
  | s, .collectInto =>
      match s.stage, s.lender.owner with
      | .lender, .idle => some { s with stage := .collectInto }
      | _, _ => none
  | s, .call call =>
      match s.stage with
      | .collectInto =>
          (s.lender.call (entry call)).map fun lender => { s with lender, stage := .calling call }
      | _ => none
  | s, .again =>
      match s.stage, s.lender.owner with
      | .calling (.wait waker), .idle =>
          (s.lender.call (.poll waker)).map fun lender => { s with lender }
      | _, _ => none
  | s, .expire =>
      match s.stage, s.lender.owner with
      | .calling (.wait _), .idle => some { s with stage := .lender }
      | _, _ => none

def init : Into W := {}

/-- The allocation is freed once and not accessed after that, and the value that
was moved out is not dropped. -/
structure YieldsOnce (s : Into W) : Prop where
  once : s.lender.inner.freed = 1
  fresh : s.lender.inner.stale = false
  kept : s.dropped = 0

/-! ## What the calls of a handle leave -/

/-- Frees and late accesses are not undone, and the owner is left alone. -/
structure Aside (s s' : Lender W) : Prop where
  owner : s'.owner = s.owner
  pending : s'.pending = s.pending
  freed : s.inner.freed ≤ s'.inner.freed
  stale : s.inner.stale = true → s'.inner.stale = true

variable {s s' : Lender W}

theorem Aside.lend (s : Lender W) : Aside s s.lend := by
  unfold Lender.lend incCountRef
  by_cases crowded : s.inner.count > maxRefcount
  · rw [if_pos crowded]
    exact ⟨rfl, rfl, le_rfl, fun stale => by simp [Inner.panic, Inner.fetchAdd,
      Inner.access, stale]⟩
  · rw [if_neg crowded]
    exact ⟨rfl, rfl, le_rfl, fun stale => by simp [Inner.fetchAdd, Inner.access, stale]⟩

theorem Aside.drops {index : Nat} (drops : s.Drops index s') : Aside s s' := by
  constructor
  · cases drops <;> rfl
  · cases drops <;> rfl
  · cases drops with
    | free => exact Nat.le_succ _
    | last | announce | leave | wake | finish | retry => exact le_rfl
  · intro stale
    cases drops with
    | free => exact stale
    | last | announce | leave => simp [Inner.fetchSub, Inner.access, stale]
    | wake => simp [Inner.wakeWaker, Inner.access, stale]
    | finish => simp [Inner.store, Inner.access, stale]
    | retry => simp [Inner.access, stale]

theorem Aside.clone {index : Nat} (step : Lender.step s (.clone index) = some s') : Aside s s' := by
  simp only [Lender.step] at step
  split at step
  · obtain rfl := Option.some.inj step
    exact Aside.lend s
  · cases step

theorem Aside.release {index : Nat} (step : Lender.step s (.release index) = some s') :
    Aside s s' := by
  simp only [Lender.step] at step
  split at step
  · obtain rfl := Option.some.inj step
    exact ⟨rfl, rfl, le_rfl, id⟩
  · cases step

theorem Aside.handle {index : Nat} (step : Lender.step s (.handle index) = some s') : Aside s s' :=
  Aside.drops (Lender.drops_of_handleStep step)

/-! ## The drop of the unwrapped lender -/

/-- From the free of the box on, `drop_lender` is about to access the count or
has done so. -/
def Sinks (s : Into W) : Prop :=
  match s.stage with
  | .lender | .collectInto | .calling _ => True
  | .unboxing => s.lender.pending = false
  | .dropping =>
      s.lender.owner = .dropping ∧ s.lender.inner.freed ≠ 0 ∨
        s.lender.owner = .freeing ∧ s.lender.inner.stale = true
  | .yielded => s.lender.inner.stale = true

/-- A collection that has ended is not pending. -/
theorem unpended_of_grant {spurious : Bool} (step : s.ownerStep spurious = some s')
    (granted : s.grants.length < s'.grants.length) : s'.pending = false := by
  have kept (same : s'.grants = s.grants) : s'.pending = false := by
    rw [same] at granted
    exact absurd granted (lt_irrefl _)
  unfold Lender.ownerStep at step
  split at step
  · cases step
  · cases step
  · split at step
    · exact kept (by cases step; rfl)
    · cases step
      rfl
    · exact kept (by cases step; rfl)
    · exact kept (by cases step; rfl)
  · split at step
    · exact kept (by cases step; rfl)
    · cases step
      rfl
    · exact kept (by cases step; rfl)
    · exact kept (by cases step; rfl)
  · split at step
    · exact kept (by cases step; rfl)
    · exact kept (by cases step; rfl)
    · exact kept (by cases step; rfl)
  · split at step
    · exact kept (by cases step; rfl)
    · exact kept (by cases step; rfl)
    · exact kept (by cases step; rfl)
  · exact kept (by cases step; rfl)
  · exact kept (by cases step; rfl)

section Sinks

variable {into into' : Into W}

/-- The calls of the handles keep what the drop of the lender has done. -/
theorem Sinks.aside {lender : Lender W} (sinks : into.Sinks) (aside : Aside into.lender lender) :
    ({ into with lender } : Into W).Sinks := by
  unfold Sinks at sinks ⊢
  split at sinks
  · simp only [*]
  · simp only [*]
  · simp only [*]
  · simp only [*, aside.pending]
  · rename_i stage
    simp only [stage, aside.owner]
    rcases sinks with ⟨isOwner, freed⟩ | ⟨isOwner, stale⟩
    · exact .inl ⟨isOwner, fun unfreed => freed (Nat.le_zero.mp (unfreed ▸ aside.freed))⟩
    · exact .inr ⟨isOwner, aside.stale stale⟩
  · rename_i stage
    simp only [stage]
    exact aside.stale sinks

theorem Sinks.goOn {spurious : Bool} {call : IntoCall W} {lender : Lender W}
    (stage : into.stage = .calling call) (step : into.lender.ownerStep spurious = some lender)
    (goes : into.goOn call lender = some into') : into'.Sinks := by
  unfold Into.goOn at goes
  split at goes
  · split_ifs at goes with granted
    · obtain rfl := Option.some.inj goes
      exact unpended_of_grant step granted
    · split at goes
      · obtain rfl := Option.some.inj goes
        trivial
      · obtain rfl := Option.some.inj goes
        trivial
      · obtain ⟨_, _, rfl⟩ := Option.map_eq_some_iff.mp goes
        simp only [Sinks, stage]
      · obtain rfl := Option.some.inj goes
        simp only [Sinks, stage]
  · obtain rfl := Option.some.inj goes
    simp only [Sinks, stage]

theorem Sinks.unbox (stage : into.stage = .unboxing) (sinks : into.Sinks)
    (step : into.unbox = some into') : into'.Sinks := by
  simp only [Sinks, stage] at sinks
  simp only [Into.unbox, Lender.call, sinks, Option.map_some, Option.some.injEq] at step
  subst step
  exact .inl ⟨rfl, Nat.succ_ne_zero _⟩

/-- `drop_lender` accesses the count of an allocation that is freed. -/
theorem Sinks.dropping {spurious : Bool} {lender : Lender W} (stage : into.stage = .dropping)
    (sinks : into.Sinks) (step : into.lender.ownerStep spurious = some lender) :
    lender.inner.stale = true ∧ (lender.owner = .freeing ∨ lender.owner = .gone) := by
  simp only [Sinks, stage] at sinks
  rcases sinks with ⟨isOwner, freed⟩ | ⟨isOwner, stale⟩
  · simp only [Lender.ownerStep, isOwner, Option.some.injEq] at step
    subst step
    refine ⟨by simp [Inner.fetchSub, Inner.access, freed], ?_⟩
    by_cases isThree : into.lender.inner.count = 3
    · exact .inl (if_pos isThree)
    · exact .inr (if_neg isThree)
  · simp only [Lender.ownerStep, isOwner, Option.some.injEq] at step
    subst step
    exact ⟨stale, .inr rfl⟩

theorem Sinks.ownerStep {spurious : Bool} (sinks : into.Sinks)
    (step : into.ownerStep spurious = some into') : into'.Sinks := by
  unfold Into.ownerStep at step
  split at step
  · rename_i stage
    obtain ⟨_, _, rfl⟩ := Option.map_eq_some_iff.mp step
    simp only [Sinks, stage]
  · rename_i stage
    obtain ⟨_, stepped, goes⟩ := Option.bind_eq_some_iff.mp step
    exact Sinks.goOn stage stepped goes
  · rename_i stage
    exact sinks.unbox stage step
  · rename_i stage
    obtain ⟨lender, stepped, rfl⟩ := Option.map_eq_some_iff.mp step
    obtain ⟨stale, goes⟩ := sinks.dropping stage stepped
    rcases goes with freeing | gone
    · simp only [freeing, Sinks, stage]
      exact .inr ⟨trivial, stale⟩
    · simp only [gone, Sinks]
      exact stale
  · cases step
  · cases step

theorem Sinks.call {label : Label W} (step : into.call label = some into') : into'.Sinks := by
  unfold Into.call at step
  split at step
  · rename_i stage
    obtain ⟨_, _, rfl⟩ := Option.map_eq_some_iff.mp step
    simp only [Sinks, stage]
  · obtain ⟨_, _, rfl⟩ := Option.map_eq_some_iff.mp step
    trivial
  · cases step

theorem Sinks.step {label : IntoLabel W} (sinks : into.Sinks)
    (step : Into.step into label = some into') : into'.Sinks := by
  cases label with
  | lender label =>
      cases label with
      | owner spurious => exact sinks.ownerStep step
      | clone index =>
          obtain ⟨_, stepped, rfl⟩ := Option.map_eq_some_iff.mp step
          exact sinks.aside (Aside.clone stepped)
      | release index =>
          obtain ⟨_, stepped, rfl⟩ := Option.map_eq_some_iff.mp step
          exact sinks.aside (Aside.release stepped)
      | handle index =>
          obtain ⟨_, stepped, rfl⟩ := Option.map_eq_some_iff.mp step
          exact sinks.aside (Aside.handle stepped)
      | borrow | tryCollect | poll | cancel | drop => exact Sinks.call step
  | collectInto =>
      simp only [Into.step] at step
      split at step
      · obtain rfl := Option.some.inj step
        trivial
      · cases step
  | call call =>
      simp only [Into.step] at step
      split at step
      · obtain ⟨_, _, rfl⟩ := Option.map_eq_some_iff.mp step
        trivial
      · cases step
  | again =>
      simp only [Into.step] at step
      split at step
      · rename_i stage _
        obtain ⟨_, _, rfl⟩ := Option.map_eq_some_iff.mp step
        simp only [Sinks, stage]
      · cases step
  | expire =>
      simp only [Into.step] at step
      split at step
      · obtain rfl := Option.some.inj step
        trivial
      · cases step

end Sinks

/-! ## The two counts at which a collection ends -/

/-- At the count of an idle lender the box is freed a second time, and with it
the value that has been moved out. -/
theorem unbox_of_three {into : Into W} (stage : into.stage = .unboxing)
    (unpended : into.lender.pending = false) (isThree : into.lender.inner.count = 3) :
    ∃ into' ∈ runFrom Into.step into (List.replicate 3 (.lender (.owner false))),
      into'.stage = .yielded ∧ into'.lender.inner.freed = into.lender.inner.freed + 2 ∧
        into'.moved = into.moved + 1 := by
  simp [runFrom, Into.step, Into.ownerStep, Into.unbox, stage, Lender.call, Lender.ownerStep,
    unpended, isThree, Inner.access, Inner.dealloc, Inner.fetchSub]

/-- `resume_poll` leaves the count at 2; then only the count is accessed. -/
theorem unbox_of_two {into : Into W} (stage : into.stage = .unboxing)
    (unpended : into.lender.pending = false) (isTwo : into.lender.inner.count = 2) :
    ∃ into' ∈ runFrom Into.step into (List.replicate 2 (.lender (.owner false))),
      into'.stage = .yielded ∧ into'.lender.inner.freed = into.lender.inner.freed + 1 ∧
        into'.moved = into.moved + 1 ∧ into'.lender.inner.stale = true := by
  simp [runFrom, Into.step, Into.ownerStep, Into.unbox, stage, Lender.call, Lender.ownerStep,
    unpended, isTwo, Inner.access, Inner.dealloc, Inner.fetchSub]

end Into

/-- No way of collecting a lender into its value frees the allocation once: the
drop of the lender always accesses the count after the box is gone. -/
theorem collectInto_sinks {s : Into W} (reachable : Reachable Into.step Into.init s)
    (yielded : s.stage = .yielded) : ¬ s.YieldsOnce := by
  have sinks : s.Sinks := by
    have initial : (Into.init : Into W).Sinks := trivial
    apply reachable.invariant initial
    intro state label result sinks _ step
    exact sinks.step step
  simp only [Into.Sinks, yielded] at sinks
  intro yieldsOnce
  have fresh := yieldsOnce.fresh
  rw [sinks] at fresh
  cases fresh

theorem collectInto_sinks_of_wait : ∃ s : Into Nat, s.stage = .yielded ∧
    s.lender.inner.freed = 1 ∧ ¬ s.YieldsOnce := by
  obtain ⟨s, ran, stage, freed⟩ : ∃ s ∈ runFrom Into.step (Into.init : Into Nat)
      [.lender .borrow, .collectInto, .call (.wait 0), .lender (.owner false),
        .lender (.owner false), .lender (.owner false), .lender (.owner false),
        .lender (.release 0), .lender (.handle 0), .lender (.handle 0), .lender (.handle 0),
        .again, .lender (.owner false), .lender (.owner false), .lender (.owner false)],
      s.stage = .yielded ∧ s.lender.inner.freed = 1 := by
    decide +kernel
  exact ⟨s, stage, freed, collectInto_sinks (reachable_of_runFrom ran) stage⟩

/-- A lender that was never lent is freed twice, and its value is dropped after
it was handed out. -/
theorem collectInto_freesTwice : ¬ ∀ s : Into Nat, Reachable Into.step Into.init s →
    s.stage = .yielded → s.YieldsOnce := by
  intro always
  obtain ⟨s, ran, stage, freed⟩ : ∃ s ∈ runFrom Into.step (Into.init : Into Nat)
      [.collectInto, .call .resolve, .lender (.owner false), .lender (.owner false),
        .lender (.owner false), .lender (.owner false)],
      s.stage = .yielded ∧ s.lender.inner.freed = 2 ∧ s.dropped = 1 := by
    decide +kernel
  have yieldsOnce := always s (reachable_of_runFrom ran) stage
  have once := yieldsOnce.once
  omega

end Suspend.Shared
