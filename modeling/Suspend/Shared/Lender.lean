import Suspend.Shared.Inner
import Suspend.Transition.Parties

/-!
# A lender and its shared handles

The owner of a `Lender` makes one call at a time, while any number of `Shared`
handles are cloned and dropped on other threads.  A label begins a call or lets
the owner or a handle make its next access.  `Collect::resolve` and
`Lender::get_mut` are `tryCollect`; `Collect::wait` is `tryCollect` and then
polls until the first `Ready` or the expiry.
-/

namespace Suspend.Shared

open Suspend.Transition

universe v

variable {W : Type v}

/-- The owner of the lender: between calls, or inside one. -/
inductive Owner (W : Type v) where
  | idle
  | trying (pc : TryPc)
  | polling (pc : PollPc W)
  /-- `cancel_collect` of a pending collection. -/
  | cancelling (pc : CancelPc)
  /-- `drop_lender`, up to its `fetch_sub`. -/
  | closing (pc : CancelPc)
  | dropping
  | freeing
  | gone
  deriving DecidableEq, Repr

/-- A `Shared` handle: held, or in its drop. -/
inductive Handle where
  | held
  | dropping (pc : DropPc)
  | freeing
  | gone
  deriving DecidableEq, Repr

/-- A lender with the handles obtained from it. -/
structure Lender (W : Type v) where
  inner : Inner W := {}
  /-- `Lender::pending`. -/
  pending : Bool := false
  owner : Owner W := .idle
  handles : List Handle := []
  /-- For each `&mut T` handed out, how many handles were alive. -/
  grants : List Nat := []
  deriving DecidableEq, Repr

/-- Calls of the owner and of the handles, and their next accesses. -/
inductive Label (W : Type v) where
  | borrow
  | tryCollect
  | poll (waker : W)
  | cancel
  | drop
  | owner (spurious : Bool)
  | clone (index : Nat)
  | release (index : Nat)
  | handle (index : Nat)
  deriving DecidableEq, Repr

namespace Handle

/-- The handle still refers to the value: its drop has not yet given back its
share of the count. -/
def alive : Handle → Bool
  | held | dropping .sub => true
  | _ => false

/-- The drop of the last handle is about to wake the owner. -/
def notifying : Handle → Bool
  | dropping .wake | dropping .exchange => true
  | _ => false

/-- The drop of this handle is to free the allocation. -/
def isFreeing : Handle → Bool
  | freeing => true
  | _ => false

end Handle

namespace Lender

/-- How many handles are alive. -/
def alive (s : Lender W) : Nat :=
  tally (fun handle => handle.alive.toNat) s.handles

/-- How many drops are about to wake the owner. -/
def notifying (s : Lender W) : Nat :=
  tally (fun handle => handle.notifying.toNat) s.handles

/-- How many handles are to free the allocation. -/
def freeing (s : Lender W) : Nat :=
  tally (fun handle => handle.isFreeing.toNat) s.handles

/-- The owner gets its `&mut T`. -/
def grant (s : Lender W) : Lender W :=
  { s with pending := false, owner := .idle, grants := s.grants ++ [s.alive] }

/-- A new reference. -/
def lend (s : Lender W) : Lender W :=
  match incCountRef s.inner with
  | (inner, true) => { s with inner, handles := s.handles ++ [.held] }
  | (inner, false) => { s with inner }

/-- The next access of the owner. -/
def ownerStep (spurious : Bool) (s : Lender W) : Option (Lender W) :=
  match s.owner with
  | .idle | .gone => none
  | .trying pc =>
      match pc.step s.pending s.inner with
      | (inner, .goto pc) => some { s with inner, owner := .trying pc }
      | (inner, .ret .collected) => some { s with inner }.grant
      | (inner, .ret .failed) => some { s with inner, owner := .idle }
      | (inner, .ret .panic) => some { s with inner := inner.panic, owner := .idle }
  | .polling pc =>
      match pc.step spurious s.inner with
      | (inner, .goto pc) => some { s with inner, owner := .polling pc }
      | (inner, .ret .ready) => some { s with inner }.grant
      | (inner, .ret .pending) => some { s with inner, pending := true, owner := .idle }
      | (inner, .ret .panic) => some { s with inner := inner.panic, owner := .idle }
  | .cancelling pc =>
      match pc.step true spurious s.inner with
      | (inner, .goto pc) => some { s with inner, owner := .cancelling pc }
      | (inner, .ret (.done _)) => some { s with inner, owner := .idle }
      | (inner, .ret .panic) => some { s with inner := inner.panic, owner := .idle }
  | .closing pc =>
      match pc.step false spurious s.inner with
      | (inner, .goto pc) => some { s with inner, owner := .closing pc }
      | (inner, .ret (.done last)) =>
          some { s with inner, owner := if last then .freeing else .dropping }
      | (inner, .ret .panic) => some { s with inner := inner.panic, owner := .gone }
  | .dropping =>
      some { s with
        inner := s.inner.fetchSub 3
        owner := if s.inner.count = 3 then .freeing else .gone }
  | .freeing => some { s with inner := s.inner.dealloc, owner := .gone }

/-- The next access of a handle's drop. -/
def handleStep (index : Nat) (s : Lender W) : Option (Lender W) :=
  match s.handles[index]? with
  | some (.dropping pc) =>
      match pc.step s.inner with
      | (inner, .goto pc) =>
          some { s with inner, handles := s.handles.set index (.dropping pc) }
      | (inner, .ret last) =>
          some { s with
            inner, handles := s.handles.set index (if last then .freeing else .gone) }
  | some .freeing =>
      some { s with inner := s.inner.dealloc, handles := s.handles.set index .gone }
  | _ => none

/-- A call of the owner between calls. -/
def call (s : Lender W) : Label W → Option (Lender W)
  | .borrow => some s.lend
  | .tryCollect => some { s with owner := .trying .load }
  | .poll waker =>
      some { s with owner := .polling (if s.pending then .resumeLoad waker else .startLoad waker) }
  | .cancel => some (if s.pending then { s with owner := .cancelling .load } else s)
  | .drop => some { s with owner := if s.pending then .closing .load else .dropping }
  | _ => none

/-- One step of the lender or of a handle.  A call of the owner waits for the
end of the one before. -/
def step : Step (Lender W) (Label W)
  | s, .owner spurious => s.ownerStep spurious
  | s, .clone index =>
      match s.handles[index]? with
      | some .held => some s.lend
      | _ => none
  | s, .release index =>
      match s.handles[index]? with
      | some .held => some { s with handles := s.handles.set index (.dropping .sub) }
      | _ => none
  | s, .handle index => s.handleStep index
  | s, label =>
      match s.owner with
      | .idle => s.call label
      | _ => none

def init : Lender W := {}

/-! ## The handles together -/

section Handles

variable {s s' : Lender W} {index : Nat} {source : Handle}

theorem alive_moved (found : s.handles[index]? = some source) (target : Handle) (inner : Inner W) :
    ({ s with inner, handles := s.handles.set index target } : Lender W).alive +
      source.alive.toNat = s.alive + target.alive.toNat :=
  tally_moved _ found target

theorem notifying_moved (found : s.handles[index]? = some source) (target : Handle)
    (inner : Inner W) :
    ({ s with inner, handles := s.handles.set index target } : Lender W).notifying +
      source.notifying.toNat = s.notifying + target.notifying.toNat :=
  tally_moved _ found target

theorem freeing_moved (found : s.handles[index]? = some source) (target : Handle)
    (inner : Inner W) :
    ({ s with inner, handles := s.handles.set index target } : Lender W).freeing +
      source.isFreeing.toNat = s.freeing + target.isFreeing.toNat :=
  tally_moved _ found target

theorem alive_of_found (found : s.handles[index]? = some source) :
    source.alive.toNat ≤ s.alive :=
  le_tally_of_found (fun handle : Handle => handle.alive.toNat) found

theorem notifying_of_found (found : s.handles[index]? = some source) :
    source.notifying.toNat ≤ s.notifying :=
  le_tally_of_found (fun handle : Handle => handle.notifying.toNat) found

theorem freeing_of_found (found : s.handles[index]? = some source) :
    source.isFreeing.toNat ≤ s.freeing :=
  le_tally_of_found (fun handle : Handle => handle.isFreeing.toNat) found

/-- Handles that are gone hold nothing. -/
theorem tally_of_gone (weight : Handle → Nat) (gone : ∀ handle ∈ s.handles, handle = .gone)
    (weightless : weight .gone = 0) : tally weight s.handles = 0 := by
  apply List.sum_eq_zero
  intro held isHeld
  obtain ⟨handle, isHandle, rfl⟩ := List.mem_map.mp isHeld
  rw [gone handle isHandle, weightless]

theorem tallies_of_gone (gone : ∀ handle ∈ s.handles, handle = .gone) :
    s.alive = 0 ∧ s.notifying = 0 ∧ s.freeing = 0 :=
  ⟨tally_of_gone _ gone rfl, tally_of_gone _ gone rfl, tally_of_gone _ gone rfl⟩

/-- What a drop can do to the allocation and to its handle. -/
inductive Drops (s : Lender W) (index : Nat) : Lender W → Prop
  /-- No reference is left of a lender that is gone. -/
  | last (found : s.handles[index]? = some (.dropping .sub))
    (isZero : (s.inner.fetchSub 2).count = 0) :
      Drops s index { s with
        inner := s.inner.fetchSub 2, handles := s.handles.set index .freeing }
  /-- No reference is left in a collection. -/
  | announce (found : s.handles[index]? = some (.dropping .sub))
      (isOne : (s.inner.fetchSub 2).count = 1) :
      Drops s index { s with
        inner := s.inner.fetchSub 2, handles := s.handles.set index (.dropping .wake) }
  | leave (found : s.handles[index]? = some (.dropping .sub))
      (other : (s.inner.fetchSub 2).count ≠ 0 ∧ (s.inner.fetchSub 2).count ≠ 1) :
      Drops s index { s with inner := s.inner.fetchSub 2, handles := s.handles.set index .gone }
  | wake (found : s.handles[index]? = some (.dropping .wake)) :
      Drops s index { s with
        inner := s.inner.wakeWaker, handles := s.handles.set index (.dropping .exchange) }
  | finish (found : s.handles[index]? = some (.dropping .exchange)) (isOne : s.inner.count = 1) :
      Drops s index { s with inner := s.inner.store 2, handles := s.handles.set index .gone }
  | retry (found : s.handles[index]? = some (.dropping .exchange)) (other : s.inner.count ≠ 1) :
      Drops s index { s with
        inner := s.inner.access, handles := s.handles.set index (.dropping .sub) }
  | free (found : s.handles[index]? = some .freeing) :
      Drops s index { s with inner := s.inner.dealloc, handles := s.handles.set index .gone }

theorem drops_of_handleStep (step : s.handleStep index = some s') : s.Drops index s' := by
  unfold handleStep at step
  split at step
  · rename_i pc found
    cases pc with
    | sub =>
        by_cases isZero : (s.inner.fetchSub 2).count = 0
        · simp only [DropPc.step, if_pos isZero] at step
          obtain rfl := Option.some.inj step
          exact .last found isZero
        · by_cases isOne : (s.inner.fetchSub 2).count = 1
          · simp only [DropPc.step, if_neg isZero, if_pos isOne] at step
            obtain rfl := Option.some.inj step
            exact .announce found isOne
          · simp only [DropPc.step, if_neg isZero, if_neg isOne] at step
            obtain rfl := Option.some.inj step
            exact .leave found ⟨isZero, isOne⟩
    | wake =>
        obtain rfl := Option.some.inj step
        exact .wake found
    | exchange =>
        by_cases isOne : s.inner.count = 1
        · simp only [DropPc.step, if_pos isOne] at step
          obtain rfl := Option.some.inj step
          exact .finish found isOne
        · simp only [DropPc.step, if_neg isOne] at step
          obtain rfl := Option.some.inj step
          exact .retry found isOne
  · rename_i found
    obtain rfl := Option.some.inj step
    exact .free found
  · cases step

end Handles

end Lender

end Suspend.Shared
