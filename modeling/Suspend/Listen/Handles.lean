import Suspend.Shared.Inner
import Suspend.Transition.Parties

/-!
# Handles of a listener

A `Listener`, its `Notifier`s and its `Waker`s are pointers to one
`ListenInner`, whose count says how many there are.  A call by reference keeps
its handle from being consumed; `Waker::wake` and the drops consume theirs, and
the one that takes the count to zero frees the allocation.
-/

namespace Suspend.Listen

open Suspend.Transition
open Suspend.Shared (usizeRange maxRefcount wrappingAdd wrappingSub wrappingAdd_of_lt
  wrappingSub_of_le maxRefcount_add_lt)

/-! ## The count -/

/-- The `ListenInner` without the state of its parker, and the history of the
run. -/
structure ListenInner where
  /-- `ListenInner::count`. -/
  count : Nat := 1
  /-- The handles whose release freed the allocation. -/
  freedBy : List Nat := []
  /-- Some access to the count or to the parker came after the allocation was freed. -/
  stale : Bool := false
  /-- The count went below zero. -/
  wrapped : Bool := false
  /-- The references were too many. -/
  panicked : Bool := false
  deriving DecidableEq, Repr

namespace ListenInner

/-- Any access to the allocation, of which those of `NativeParker::unpark` keep
the count as it is. -/
def access (m : ListenInner) : ListenInner :=
  { m with stale := m.stale || !m.freedBy.isEmpty }

/-- `inc_count`; the result says whether there is a new reference. -/
def incCount (m : ListenInner) : ListenInner × Bool :=
  let next := { m.access with count := wrappingAdd m.count 1 }
  if m.count > maxRefcount then ({ next with panicked := true }, false) else (next, true)

/-- The `fetch_sub` of `dec_count`. -/
def fetchSub (m : ListenInner) : ListenInner :=
  { m.access with
    count := wrappingSub m.count 1
    wrapped := m.wrapped || m.count == 0 }

/-- `dealloc` of the box, by the release of a handle. -/
def dealloc (index : Nat) (m : ListenInner) : ListenInner :=
  { m with freedBy := m.freedBy ++ [index] }

end ListenInner

/-! ## The handles -/

inductive Kind where
  | listener
  | notifier
  | waker
  deriving DecidableEq, Repr

/-- `Listener::notifier`, `Listener::waker`, `Notifier::clone` and
`waker_clone`. -/
def Kind.creates : Kind → Kind → Bool
  | listener, notifier | listener, waker | notifier, notifier | waker, waker => true
  | _, _ => false

/-- Program points of `dec_count_drop`. -/
inductive ReleasePc where
  | sub
  | load
  | dealloc
  deriving DecidableEq, Repr

/-- Where a handle is in its life. -/
inductive Stage where
  /-- With as many calls by reference under way: `notify`, `waker_wake_by_ref`,
  and the calls of a `ListenerGuard`. -/
  | live (calls : Nat)
  /-- In the `notify` of `waker_wake`. -/
  | waking
  | releasing (pc : ReleasePc)
  | gone
  deriving DecidableEq, Repr

structure Handle where
  kind : Kind
  stage : Stage
  deriving DecidableEq, Repr

namespace Handle

/-- The handle is live, or an operation that consumes it has not yet given its
share of the count back. -/
def isHeld (handle : Handle) : Bool :=
  match handle.stage with
  | .live _ | .waking | .releasing .sub => true
  | _ => false

/-- The release of the handle is to free the allocation. -/
def isClosing (handle : Handle) : Bool :=
  match handle.stage with
  | .releasing .load | .releasing .dealloc => true
  | _ => false

end Handle

/-- A listener with the handles obtained from it. -/
structure Handles where
  inner : ListenInner := {}
  handles : List Handle := [⟨.listener, .live 0⟩]
  /-- The handles that have given back their share of the count, in that order. -/
  released : List Nat := []
  deriving DecidableEq, Repr

/-- Calls through a handle, and its next accesses. -/
inductive Label where
  | create (index : Nat) (kind : Kind)
  /-- A call by reference begins. -/
  | call (index : Nat)
  /-- An access to the parker by a call by reference. -/
  | unpark (index : Nat)
  /-- A call by reference ends. -/
  | answer (index : Nat)
  | wake (index : Nat)
  | drop (index : Nat)
  /-- The next access of an operation that consumes its handle; `more` says
  whether its `unpark` goes on after this one. -/
  | step (index : Nat) (more : Bool)
  deriving DecidableEq, Repr

namespace Handles

/-- The live handles, and the operations between acquiring and releasing one. -/
def held (s : Handles) : Nat :=
  tally (fun handle => handle.isHeld.toNat) s.handles

/-- A new handle. -/
def create (kind : Kind) (s : Handles) : Handles :=
  match s.inner.incCount with
  | (inner, true) => { s with inner, handles := s.handles ++ [⟨kind, .live 0⟩] }
  | (inner, false) => { s with inner }

/-- The handle goes on to another stage. -/
def move (index : Nat) (kind : Kind) (stage : Stage) (s : Handles) : Handles :=
  { s with handles := s.handles.set index ⟨kind, stage⟩ }

/-- An access to the parker. -/
def touch (s : Handles) : Handles :=
  { s with inner := s.inner.access }

/-- The next access of an operation that consumes its handle. -/
def consume (index : Nat) (more : Bool) (s : Handles) : Option Handles :=
  match s.handles[index]? with
  | some ⟨kind, .waking⟩ =>
      some (s.touch.move index kind (if more then .waking else .releasing .sub))
  | some ⟨kind, .releasing .sub⟩ =>
      let inner := s.inner.fetchSub
      let stage := if inner.count = 0 then .releasing .load else .gone
      some { s.move index kind stage with inner, released := s.released ++ [index] }
  | some ⟨kind, .releasing .load⟩ => some (s.touch.move index kind (.releasing .dealloc))
  | some ⟨kind, .releasing .dealloc⟩ =>
      some { s.move index kind .gone with inner := s.inner.dealloc index }
  | _ => none

def step : Step Handles Label
  | s, .create index kind =>
      match s.handles[index]? with
      | some ⟨source, .live _⟩ => if source.creates kind then some (s.create kind) else none
      | _ => none
  | s, .call index =>
      match s.handles[index]? with
      | some ⟨kind, .live calls⟩ => some (s.move index kind (.live (calls + 1)))
      | _ => none
  | s, .unpark index =>
      match s.handles[index]? with
      | some ⟨_, .live (_ + 1)⟩ => some s.touch
      | _ => none
  | s, .answer index =>
      match s.handles[index]? with
      | some ⟨kind, .live (calls + 1)⟩ => some (s.move index kind (.live calls))
      | _ => none
  | s, .wake index =>
      match s.handles[index]? with
      | some ⟨.waker, .live 0⟩ => some (s.move index .waker .waking)
      | _ => none
  | s, .drop index =>
      match s.handles[index]? with
      | some ⟨kind, .live 0⟩ => some (s.move index kind (.releasing .sub))
      | _ => none
  | s, .step index more => s.consume index more

def init : Handles := {}

/-- Fewer than `isize::MAX` handles are alive when another one is made. -/
def few : Handles → Label → Bool
  | s, .create _ _ => s.held < maxRefcount
  | _, _ => true

/-- The count is the number of handles, and the release of the last one frees
the allocation. -/
structure Counted (s : Handles) : Prop where
  balance : s.inner.count = s.held
  fresh : s.inner.stale = false
  unwrapped : s.inner.wrapped = false
  calm : s.inner.panicked = false
  unfreed : 0 < s.held → s.inner.freedBy = []
  /-- Only the handle released last is about to free. -/
  closing : ∀ index handle, s.handles[index]? = some handle → handle.isClosing = true →
    s.held = 0 ∧ s.inner.freedBy = [] ∧ s.released.getLast? = some index
  /-- Without a handle the allocation has been freed by the one released last,
  or is about to be. -/
  freed : s.held = 0 →
    (∃ (index : Nat) (handle : Handle),
      s.handles[index]? = some handle ∧ handle.isClosing = true) ∨
    ∃ last, s.released.getLast? = some last ∧ s.inner.freedBy = [last]

end Handles

/-! ## Steps -/

namespace Handles

/-- What a step can do to the allocation and to one handle. -/
inductive Moves (s : Handles) : Label → Handles → Prop
  | create {index : Nat} {source : Handle} {kind : Kind}
      (found : s.handles[index]? = some source) (isHeld : source.isHeld = true) :
      Moves s (.create index kind) (s.create kind)
  | move {label : Label} {index : Nat} {source : Handle} {kind : Kind} {stage : Stage}
      (found : s.handles[index]? = some source) (isHeld : source.isHeld = true)
      (stays : (Handle.mk kind stage).isHeld = true) : Moves s label (s.move index kind stage)
  /-- An access to the parker by a call by reference. -/
  | touch {label : Label} {index : Nat} {source : Handle}
      (found : s.handles[index]? = some source) (isHeld : source.isHeld = true) :
      Moves s label s.touch
  /-- An access to the parker by `waker_wake`. -/
  | notify {label : Label} {index : Nat} {source : Handle} {kind : Kind} {stage : Stage}
      (found : s.handles[index]? = some source) (isHeld : source.isHeld = true)
      (stays : (Handle.mk kind stage).isHeld = true) :
      Moves s label (s.touch.move index kind stage)
  | release {label : Label} {index : Nat} {kind : Kind}
      (found : s.handles[index]? = some ⟨kind, .releasing .sub⟩) :
      Moves s label
        { s.move index kind (if s.inner.fetchSub.count = 0 then .releasing .load else .gone) with
          inner := s.inner.fetchSub
          released := s.released ++ [index] }
  | load {label : Label} {index : Nat} {kind : Kind}
      (found : s.handles[index]? = some ⟨kind, .releasing .load⟩) :
      Moves s label (s.touch.move index kind (.releasing .dealloc))
  | free {label : Label} {index : Nat} {kind : Kind}
      (found : s.handles[index]? = some ⟨kind, .releasing .dealloc⟩) :
      Moves s label { s.move index kind .gone with inner := s.inner.dealloc index }

variable {s s' : Handles} {label : Label} {index : Nat} {source : Handle}

theorem moves_of_consume {more : Bool} (step : s.consume index more = some s') :
    s.Moves label s' := by
  unfold consume at step
  split at step
  · rename_i found
    obtain rfl := Option.some.inj step
    apply Moves.notify found rfl
    cases more <;> rfl
  · rename_i found
    obtain rfl := Option.some.inj step
    exact .release found
  · rename_i found
    obtain rfl := Option.some.inj step
    exact .load found
  · rename_i found
    obtain rfl := Option.some.inj step
    exact .free found
  · cases step

theorem moves_of_step (step : Handles.step s label = some s') : s.Moves label s' := by
  cases label with
  | create index kind =>
      simp only [Handles.step] at step
      split at step
      · rename_i found
        split at step
        · obtain rfl := Option.some.inj step
          exact .create found rfl
        · cases step
      · cases step
  | call index =>
      simp only [Handles.step] at step
      split at step
      · rename_i found
        obtain rfl := Option.some.inj step
        exact .move found rfl rfl
      · cases step
  | unpark index =>
      simp only [Handles.step] at step
      split at step
      · rename_i found
        obtain rfl := Option.some.inj step
        exact .touch found rfl
      · cases step
  | answer index =>
      simp only [Handles.step] at step
      split at step
      · rename_i found
        obtain rfl := Option.some.inj step
        exact .move found rfl rfl
      · cases step
  | wake index =>
      simp only [Handles.step] at step
      split at step
      · rename_i found
        obtain rfl := Option.some.inj step
        exact .move found rfl rfl
      · cases step
  | drop index =>
      simp only [Handles.step] at step
      split at step
      · rename_i found
        obtain rfl := Option.some.inj step
        exact .move found rfl rfl
      · cases step
  | step index more => exact moves_of_consume step

/-! ## The count -/

theorem held_move (found : s.handles[index]? = some source) (kind : Kind) (stage : Stage) :
    (s.move index kind stage).held + source.isHeld.toNat =
      s.held + (Handle.mk kind stage).isHeld.toNat :=
  tally_moved _ found _

theorem held_pos (found : s.handles[index]? = some source) (isHeld : source.isHeld = true) :
    0 < s.held := by
  have less : source.isHeld.toNat ≤ s.held :=
    le_tally_of_found (fun handle : Handle => handle.isHeld.toNat) found
  rw [isHeld] at less
  exact less

theorem found_move {other : Nat} {handle : Handle} {kind : Kind} {stage : Stage}
    (found : (s.move index kind stage).handles[other]? = some handle) :
    other = index ∧ handle = ⟨kind, stage⟩ ∨ other ≠ index ∧ s.handles[other]? = some handle := by
  by_cases same : other = index
  · subst same
    have isIn : other < s.handles.length := by
      have long := (List.getElem?_eq_some_iff.mp found).1
      simpa [move] using long
    left
    constructor
    · rfl
    · simpa [move, isIn] using found.symm
  · right
    constructor
    · exact same
    · simpa [move, Ne.symm same] using found

theorem not_closing {handle : Handle} (isHeld : handle.isHeld = true) :
    handle.isClosing = false := by
  rcases handle with ⟨kind, calls | _ | pc | _⟩
  · rfl
  · rfl
  · cases pc with
    | sub => rfl
    | load => cases isHeld
    | dealloc => cases isHeld
  · cases isHeld

/-- While a handle is held none is about to free the allocation. -/
theorem Counted.none_closing (counted : s.Counted) (present : 0 < s.held) {other : Nat}
    {handle : Handle} (found : s.handles[other]? = some handle) : handle.isClosing = false := by
  by_contra isClosing
  have none := (counted.closing other handle found (by simpa using isClosing)).1
  omega

/-- An access under a handle that is held comes before the end. -/
theorem Counted.touch (counted : s.Counted) (unfreed : s.inner.freedBy = []) :
    s.touch.Counted where
  balance := counted.balance
  fresh := by
    show (s.inner.stale || !s.inner.freedBy.isEmpty) = false
    rw [counted.fresh, unfreed]
    rfl
  unwrapped := counted.unwrapped
  calm := counted.calm
  unfreed := counted.unfreed
  closing := counted.closing
  freed := counted.freed

/-- A handle that is held goes on: the count stays. -/
theorem Counted.move (counted : s.Counted) (found : s.handles[index]? = some source)
    (isHeld : source.isHeld = true) {kind : Kind} {stage : Stage}
    (stays : (Handle.mk kind stage).isHeld = true) : (s.move index kind stage).Counted := by
  have present := held_pos found isHeld
  have same : (s.move index kind stage).held = s.held := by
    have moved := held_move found kind stage
    rw [isHeld, stays] at moved
    omega
  exact {
    balance := by
      rw [same]
      exact counted.balance
    fresh := counted.fresh
    unwrapped := counted.unwrapped
    calm := counted.calm
    unfreed := fun _ => counted.unfreed present
    closing := by
      intro other handle isHandle isClosing
      rcases found_move isHandle with ⟨-, rfl⟩ | ⟨-, earlier⟩
      · rw [not_closing stays] at isClosing
        cases isClosing
      · rw [counted.none_closing present earlier] at isClosing
        cases isClosing
    freed := by
      intro none
      omega }

/-- A new handle is counted by the access that makes it. -/
theorem Counted.create (counted : s.Counted) (present : 0 < s.held) (few : s.held < maxRefcount)
    (kind : Kind) : (s.create kind).Counted := by
  have unfreed := counted.unfreed present
  have balance := counted.balance
  have fits := maxRefcount_add_lt
  have small : ¬ s.inner.count > maxRefcount := by omega
  have raised : wrappingAdd s.inner.count 1 = s.inner.count + 1 := wrappingAdd_of_lt (by omega)
  have created : s.create kind = { s with
      inner := { s.inner.access with count := s.inner.count + 1 }
      handles := s.handles ++ [⟨kind, .live 0⟩] } := by
    unfold Handles.create ListenInner.incCount
    rw [if_neg small, raised]
  have more : (s.create kind).held = s.held + 1 := by
    rw [created]
    exact tally_append _ _ _
  rw [created] at more ⊢
  exact {
    balance := by
      rw [more]
      exact congrArg (· + 1) balance
    fresh := (counted.touch unfreed).fresh
    unwrapped := counted.unwrapped
    calm := counted.calm
    unfreed := fun _ => unfreed
    closing := by
      intro other handle isHandle isClosing
      rcases List.mem_append.mp (List.mem_of_getElem? isHandle) with earlier | new
      · obtain ⟨place, found⟩ := List.mem_iff_getElem?.mp earlier
        rw [counted.none_closing present found] at isClosing
        cases isClosing
      · obtain rfl := List.mem_singleton.mp new
        cases isClosing
    freed := by
      intro none
      omega }

/-- The handle released last is the one about to free. -/
theorem Counted.release (counted : s.Counted) {kind : Kind}
    (found : s.handles[index]? = some ⟨kind, .releasing .sub⟩) :
    ({ s.move index kind (if s.inner.fetchSub.count = 0 then .releasing .load else .gone) with
      inner := s.inner.fetchSub
      released := s.released ++ [index] } : Handles).Counted := by
  have present := held_pos found rfl
  have unfreed := counted.unfreed present
  have balance := counted.balance
  have lowered : s.inner.fetchSub.count = s.inner.count - 1 := wrappingSub_of_le (by omega)
  have isIn : index < s.handles.length := (List.getElem?_eq_some_iff.mp found).1
  generalize hStage :
    (if s.inner.fetchSub.count = 0 then Stage.releasing .load else .gone) = stage
  have notHeld : (Handle.mk kind stage).isHeld = false := by
    rw [← hStage]
    split <;> rfl
  have less : (s.move index kind stage).held + 1 = s.held := by
    have moved := held_move found kind stage
    rw [notHeld] at moved
    exact moved
  have isLast : (s.released ++ [index]).getLast? = some index := List.getLast?_concat
  exact {
    balance := by
      show s.inner.fetchSub.count = (s.move index kind stage).held
      omega
    fresh := (counted.touch unfreed).fresh
    unwrapped := by
      show (s.inner.wrapped || s.inner.count == 0) = false
      rw [counted.unwrapped, Bool.false_or, beq_eq_false_iff_ne]
      omega
    calm := counted.calm
    unfreed := fun _ => unfreed
    closing := by
      intro other handle isHandle isClosing
      rcases found_move isHandle with ⟨rfl, rfl⟩ | ⟨-, earlier⟩
      · have isZero : s.inner.fetchSub.count = 0 := by
          by_contra isPos
          rw [if_neg isPos] at hStage
          subst hStage
          cases isClosing
        constructor
        · show (s.move other kind stage).held = 0
          omega
        · exact ⟨unfreed, isLast⟩
      · rw [counted.none_closing present earlier] at isClosing
        cases isClosing
    freed := by
      intro none
      have none : (s.move index kind stage).held = 0 := none
      have isZero : s.inner.fetchSub.count = 0 := by omega
      rw [if_pos isZero] at hStage
      subst hStage
      left
      exact ⟨index, _, List.getElem?_set_self isIn, rfl⟩ }

/-- The last access before the end. -/
theorem Counted.load (counted : s.Counted) {kind : Kind}
    (found : s.handles[index]? = some ⟨kind, .releasing .load⟩) :
    (s.touch.move index kind (.releasing .dealloc)).Counted := by
  obtain ⟨none, unfreed, isLast⟩ := counted.closing index _ found rfl
  have isIn : index < s.handles.length := (List.getElem?_eq_some_iff.mp found).1
  have same : (s.touch.move index kind (.releasing .dealloc)).held = s.held :=
    held_move found kind (.releasing .dealloc)
  exact {
    balance := by
      rw [same]
      exact counted.balance
    fresh := (counted.touch unfreed).fresh
    unwrapped := counted.unwrapped
    calm := counted.calm
    unfreed := fun _ => unfreed
    closing := by
      intro other handle isHandle isClosing
      rw [same]
      rcases found_move (s := s.touch) isHandle with ⟨rfl, -⟩ | ⟨-, earlier⟩
      · exact ⟨none, unfreed, isLast⟩
      · exact counted.closing other handle earlier isClosing
    freed := by
      intro _
      left
      exact ⟨index, _, List.getElem?_set_self isIn, rfl⟩ }

/-- The allocation is freed by the handle released last. -/
theorem Counted.free (counted : s.Counted) {kind : Kind}
    (found : s.handles[index]? = some ⟨kind, .releasing .dealloc⟩) :
    ({ s.move index kind .gone with inner := s.inner.dealloc index } : Handles).Counted := by
  obtain ⟨none, unfreed, isLast⟩ := counted.closing index _ found rfl
  have same : (s.move index kind .gone).held = s.held := held_move found kind .gone
  exact {
    balance := counted.balance.trans same.symm
    fresh := counted.fresh
    unwrapped := counted.unwrapped
    calm := counted.calm
    unfreed := by
      intro positive
      have present : 0 < (s.move index kind .gone).held := positive
      omega
    closing := by
      intro other handle isHandle isClosing
      rcases found_move isHandle with ⟨-, rfl⟩ | ⟨other_ne, earlier⟩
      · cases isClosing
      · have isLastToo := (counted.closing other handle earlier isClosing).2.2
        rw [isLast] at isLastToo
        exact absurd (Option.some.inj isLastToo).symm other_ne
    freed := by
      intro _
      right
      refine ⟨index, isLast, ?_⟩
      show s.inner.freedBy ++ [index] = [index]
      rw [unfreed]
      rfl }

theorem Counted.step (counted : s.Counted) (careful : few s label = true)
    (step : Handles.step s label = some s') : s'.Counted := by
  cases moves_of_step step with
  | create found isHeld =>
      exact counted.create (held_pos found isHeld) (of_decide_eq_true careful) _
  | move found isHeld stays => exact counted.move found isHeld stays
  | touch found isHeld => exact counted.touch (counted.unfreed (held_pos found isHeld))
  | notify found isHeld stays =>
      exact (counted.touch (counted.unfreed (held_pos found isHeld))).move found isHeld stays
  | release found => exact counted.release found
  | load found => exact counted.load found
  | free found => exact counted.free found

theorem Counted.init : (Handles.init : Handles).Counted where
  balance := rfl
  fresh := rfl
  unwrapped := rfl
  calm := rfl
  unfreed := fun _ => rfl
  closing := by
    intro index handle found isClosing
    obtain rfl := List.mem_singleton.mp (List.mem_of_getElem? found)
    cases isClosing
  freed := fun none => by cases none

/-- In every run the count is the number of handles, and the allocation is
freed once, by the release of the last of them and after every access. -/
theorem handles_counted
    (reachable : ReachableUnder Handles.step (fun s label => few s label = true) init s) :
    s.Counted := by
  apply reachable.invariant Counted.init
  intro state label result counted careful step
  exact counted.step careful step

/-- A waker is woken by value while its listener is dropped. -/
theorem handles_counted_of_wake :
    ∃ s, ReachableUnder Handles.step (fun s label => few s label = true) init s ∧
      s.inner.freedBy = [1] ∧ s.Counted := by
  obtain ⟨s, ran, isFreed⟩ : ∃ s ∈ runFrom (guarded Handles.step few) init
      [.create 0 .waker, .wake 1, .drop 0, .step 1 true, .step 0 false, .step 1 false,
        .step 1 false, .step 1 false, .step 1 false], s.inner.freedBy = [1] := by
    decide +kernel
  have reachable := reachableUnder_of_runFrom ran
  exact ⟨s, reachable, isFreed, handles_counted reachable⟩

end Handles

end Suspend.Listen
