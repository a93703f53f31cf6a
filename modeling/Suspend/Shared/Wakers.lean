import Suspend.Shared.Abandon
import Suspend.Shared.Scoped

/-!
# The waker cell of a shared value

The cell is not marked as full or empty: each access relies on the count that
it, or the access before it, has read.  The count of a collection says that the
cell is full, that of a finished one that it is empty.  The bias of an idle
lender says nothing on a lender that is called pending, so that an abandoned
collection must not be polled, cancelled or dropped.
-/

namespace Suspend.Shared

open Suspend.Transition

universe v

variable {W : Type v}

/-- A lender, with the wakers that its polls have stored. -/
structure Wakers (W : Type v) where
  lender : Lender W := {}
  stored : List W := []
  deriving DecidableEq, Repr

/-- The clone that the next access of the owner stores. -/
def Owner.stores : Owner W → List W
  | .polling (.startStore waker) | .polling (.store waker) => [waker]
  | _ => []

namespace Wakers

def step : Step (Wakers W) (Label W)
  | s, .owner spurious =>
      (Lender.step s.lender (.owner spurious)).map fun lender =>
        { lender, stored := s.stored ++ s.lender.owner.stores }
  | s, label => (Lender.step s.lender label).map fun lender => { s with lender }

def init : Wakers W := {}


end Wakers

namespace Lender

/-- The count of a pending collection, or of a finished one on which nothing is
borrowed. -/
def collects (s : Lender W) : Bool :=
  s.inner.count = 2 || s.inner.count = 1 + 2 * s.alive

/-- A collection that has been abandoned is left alone, and so is the count that
`resume_poll` leaves. -/
def attentive : Lender W → Label W → Bool
  | s, .borrow | s, .clone _ => s.inner.count ≤ maxRefcount
  | s, .poll _ => if s.pending then s.collects else s.inner.count % 2 = 1
  | s, .cancel => !s.pending || s.collects
  | s, .drop => if s.pending then s.collects else s.inner.count % 2 = 1 || s.inner.count = 2
  | _, _ => true

end Lender

/-- Every waker stored is in the cell, or was woken or dropped there. -/
structure Wakers.Balanced (s : Wakers W) : Prop where
  unmisused : s.lender.inner.wakerMisuse = false
  balance : s.stored.Perm
    (s.lender.inner.woken ++ s.lender.inner.discarded ++ s.lender.inner.waker.toList)
  empty : s.lender.owner = .gone → (∀ handle ∈ s.lender.handles, handle = .gone) →
    s.lender.inner.waker = none

/-! ## The wakers of the cell -/

/-- The wakers that were stored, and where they have gone. -/
structure Accounted (stored : List W) (m : Inner W) : Prop where
  unmisused : m.wakerMisuse = false
  balance : stored.Perm (m.woken ++ m.discarded ++ m.waker.toList)

section Accounted

variable {stored : List W} {m m' : Inner W} {waker : W}

/-- An access that is not to the cell. -/
theorem Accounted.of_same (accounted : Accounted stored m) (misuse : m'.wakerMisuse = m.wakerMisuse)
    (woken : m'.woken = m.woken) (discarded : m'.discarded = m.discarded)
    (cell : m'.waker = m.waker) : Accounted stored m' where
  unmisused := misuse.trans accounted.unmisused
  balance := by
    rw [woken, discarded, cell]
    exact accounted.balance

theorem Accounted.storeWaker (accounted : Accounted stored m) (empty : m.waker = none) :
    Accounted (stored ++ [waker]) (m.storeWaker waker) where
  unmisused := by simp [Inner.storeWaker, accounted.unmisused, empty]
  balance := by
    have balance := accounted.balance
    rw [empty, Option.toList_none, List.append_nil] at balance
    exact balance.append_right [waker]

theorem Accounted.clearWaker (accounted : Accounted stored m) (full : m.waker = some waker) :
    Accounted stored m.clearWaker where
  unmisused := by simp [Inner.clearWaker, accounted.unmisused, full]
  balance := by
    have balance := accounted.balance
    rw [List.append_assoc] at balance
    show stored.Perm (m.woken ++ (m.discarded ++ m.waker.toList) ++ [])
    rwa [List.append_nil]

theorem Accounted.wakeWaker (accounted : Accounted stored m) (full : m.waker = some waker) :
    Accounted stored m.wakeWaker where
  unmisused := by simp [Inner.wakeWaker, accounted.unmisused, full]
  balance := by
    have balance := accounted.balance
    show stored.Perm (m.woken ++ m.waker.toList ++ m.discarded ++ [])
    rw [List.append_nil, List.append_assoc]
    rw [List.append_assoc] at balance
    exact balance.trans (List.Perm.append_left _ List.perm_append_comm)

end Accounted

/-! ## The shapes of a lender -/

namespace Lender

/-- The numbers of a lender and its cell. -/
def Numbers (count refs waking finishing : Nat) (cell : Option W) (s : Lender W) : Prop :=
  ∃ woken, s.Holds count refs waking finishing cell woken

variable {s s' : Lender W} {label : Label W} {count refs waking finishing : Nat} {cell : Option W}

theorem Numbers.isCount (numbers : s.Numbers count refs waking finishing cell) :
    s.inner.count = count := by
  obtain ⟨woken, holds⟩ := numbers
  exact holds.count

theorem Numbers.isRefs (numbers : s.Numbers count refs waking finishing cell) : s.alive = refs := by
  obtain ⟨woken, holds⟩ := numbers
  exact holds.refs

theorem Numbers.isCell (numbers : s.Numbers count refs waking finishing cell) :
    s.inner.waker = cell := by
  obtain ⟨woken, holds⟩ := numbers
  exact holds.cell

/-- The handles stay as they are. -/
theorem Numbers.of_same {count' : Nat} {cell' : Option W}
    (numbers : s.Numbers count refs waking finishing cell) (same : s'.handles = s.handles)
    (isCount : s'.inner.count = count') (isCell : s'.inner.waker = cell') :
    s'.Numbers count' refs waking finishing cell' := by
  obtain ⟨woken, holds⟩ := numbers
  exact ⟨_, holds.of_same same isCount isCell rfl⟩

/-- What the drop of a handle does to the numbers. -/
theorem Numbers.drops {index : Nat} (numbers : s.Numbers count refs waking finishing cell)
    (enough : 0 < refs → 3 ≤ count) (drops : s.Drops index s') :
    0 < refs ∧
        s'.Numbers (count - 2) (refs - 1)
          (if count = 3 then waking + 1 else waking) finishing cell ∨
      0 < waking ∧ s'.Numbers count refs (waking - 1) (finishing + 1) none ∨
      0 < finishing ∧ count = 1 ∧ s'.Numbers 2 refs waking (finishing - 1) cell ∨
      0 < finishing ∧ count ≠ 1 ∧ s'.Numbers count (refs + 1) waking (finishing - 1) cell := by
  obtain ⟨woken, holds⟩ := numbers
  rcases holds.drops enough drops with ⟨isAlive, holds⟩ | ⟨isWaking, holds⟩ |
    ⟨isFinishing, isOne, holds⟩ | ⟨isFinishing, other, holds⟩
  · exact .inl ⟨isAlive, _, holds⟩
  · exact .inr (.inl ⟨isWaking, _, holds⟩)
  · exact .inr (.inr (.inl ⟨isFinishing, isOne, _, holds⟩))
  · exact .inr (.inr (.inr ⟨isFinishing, other, _, holds⟩))

end Lender

/-- A collection is pending, and the owner is not about to change the count. -/
def Owner.Awaiting : Owner W → Prop
  | .idle | .trying .load | .polling (.resumeLoad _) | .polling (.raise _ _) | .cancelling .load
  | .cancelling (.raise _) | .closing .load | .closing (.raise _) => True
  | _ => False

/-- The owner holds a reference of its own, and the cell is full. -/
def Owner.Raised : Owner W → Prop
  | .polling (.clear _) | .polling (.lower _) | .cancelling .clear | .closing .clear => True
  | _ => False

/-- The owner has a finished collection before it. -/
def Owner.Resolving : Owner W → Prop
  | .trying .swap | .polling (.resumeLoad _) | .cancelling .load | .cancelling .swap
  | .closing .load => True
  | _ => False

/-- The owner is between calls, or in one that leaves the lender as it is. -/
def Owner.Looks (owner : Owner W) : Prop :=
  owner = .idle ∨ owner = .trying .load

namespace Lender

/-- What the count, the references, the owner and the cell are in whole calls. -/
inductive Shape (s : Lender W) : Prop
  | idle (refs : Nat) (small : 2 * refs ≤ maxRefcount + 1)
      (isOwner : s.owner.Looks ∨ (∃ waker, s.owner = .polling (.startLoad waker)) ∨
        0 < refs ∧ ∃ waker, s.owner = .polling (.startStore waker))
      (unpended : s.pending = false) (numbers : s.Numbers (3 + 2 * refs) refs 0 0 none)
  | stored (refs : Nat) (small : 2 * refs ≤ maxRefcount + 1) (isSome : 0 < refs)
      (isOwner : s.owner = .polling .startSub) (unpended : s.pending = false) (waker : W)
      (numbers : s.Numbers (3 + 2 * refs) refs 0 0 (some waker))
  | waiting (refs : Nat) (small : 2 * refs ≤ maxRefcount + 1) (isSome : 0 < refs)
      (isOwner : s.owner.Awaiting) (isPending : s.pending = true) (waker : W)
      (numbers : s.Numbers (1 + 2 * refs) refs 0 0 (some waker))
  | raised (refs : Nat) (small : 2 * refs ≤ maxRefcount + 1) (isSome : 0 < refs)
      (isOwner : s.owner.Raised) (isPending : s.pending = true) (waker : W)
      (numbers : s.Numbers (3 + 2 * refs) refs 0 0 (some waker))
  | swapped (refs : Nat) (small : 2 * refs ≤ maxRefcount + 1) (isSome : 0 < refs)
      (isOwner : ∃ waker, s.owner = .polling (.store waker)) (isPending : s.pending = true)
      (numbers : s.Numbers (3 + 2 * refs) refs 0 0 none)
  /-- The last drop is about to wake the owner. -/
  | announced (isOwner : s.owner = .idle) (isPending : s.pending = true) (waker : W)
      (numbers : s.Numbers 1 0 1 0 (some waker))
  | woken (isOwner : s.owner = .idle) (isPending : s.pending = true)
      (numbers : s.Numbers 1 0 0 1 none)
  | collected (refs : Nat) (isOwner : s.owner.Looks) (isPending : s.pending = true)
      (numbers : s.Numbers (2 + 2 * refs) refs 0 0 none)
  | resolving (isOwner : s.owner.Resolving) (isPending : s.pending = true)
      (numbers : s.Numbers 2 0 0 0 none)
  /-- `resume_poll` has left the count of a finished collection. -/
  | done (refs : Nat) (isOwner : s.owner.Looks) (unpended : s.pending = false)
      (numbers : s.Numbers (2 + 2 * refs) refs 0 0 none)
  | abandoned (refs : Nat) (isOwner : s.owner.Looks) (isPending : s.pending = true)
      (numbers : s.Numbers (3 + 2 * refs) refs 0 0 none)
  | dropping (refs : Nat) (isOwner : s.owner = .dropping)
      (numbers : s.Numbers (3 + 2 * refs) refs 0 0 none)
  /-- The count of a finished collection goes below zero. -/
  | leaking (isOwner : s.owner = .dropping) (numbers : s.Numbers 2 0 0 0 none)
  | freeing (isOwner : s.owner = .freeing) (count : Nat) (numbers : s.Numbers count 0 0 0 none)
  | outlived (refs : Nat) (isOwner : s.owner = .gone) (numbers : s.Numbers (2 * refs) refs 0 0 none)
  | gone (isOwner : s.owner = .gone) (dead : s.alive = 0) (quiet : s.notifying = 0)
      (empty : s.inner.waker = none)

/-- Only one party is in a call. -/
def Alone (s : Lender W) : Prop :=
  s.owner = .idle ∨ s.owner = .gone ∨ ∀ handle ∈ s.handles, handle.resting = true

variable {s s' : Lender W} {label : Label W} {stored : List W}

theorem Shape.init : (Lender.init : Lender W).Shape := by
  refine .idle 0 (Nat.zero_le _) (.inl (.inl rfl)) rfl ⟨[], ?_⟩
  exact ⟨rfl, rfl, rfl, rfl, rfl, rfl, rfl⟩

/-! ## Steps of the owner -/

/-- What an access of the owner leaves. -/
def Goes (stored : List W) (s s' : Lender W) : Prop :=
  s'.Shape ∧ Accounted (stored ++ s.owner.stores) s'.inner

theorem Goes.silent (silent : s.owner.stores = []) (shape : s'.Shape)
    (accounted : Accounted stored s'.inner) : Goes stored s s' := by
  refine ⟨shape, ?_⟩
  rw [silent, List.append_nil]
  exact accounted

/-- An access that is not to the cell. -/
theorem Goes.aside (silent : s.owner.stores = []) (shape : s'.Shape)
    (accounted : Accounted stored s.inner) (misuse : s'.inner.wakerMisuse = s.inner.wakerMisuse)
    (woken : s'.inner.woken = s.inner.woken) (discarded : s'.inner.discarded = s.inner.discarded)
    (cell : s'.inner.waker = s.inner.waker) : Goes stored s s' :=
  .silent silent shape (accounted.of_same misuse woken discarded cell)

theorem Shape.idle_step {spurious : Bool} {refs : Nat} (small : 2 * refs ≤ maxRefcount + 1)
    (isOwner : s.owner.Looks ∨ (∃ waker, s.owner = .polling (.startLoad waker)) ∨
      0 < refs ∧ ∃ waker, s.owner = .polling (.startStore waker))
    (unpended : s.pending = false) (numbers : s.Numbers (3 + 2 * refs) refs 0 0 none)
    (accounted : Accounted stored s.inner) (step : s.ownerStep spurious = some s') :
    Goes stored s s' := by
  rcases isOwner with (isIdle | isTry) | ⟨waker, isPoll⟩ | ⟨isSome, waker, isPoll⟩
  · simp [ownerStep, isIdle] at step
  · have silent : s.owner.stores = [] := by rw [isTry, Owner.stores] <;> simp
    by_cases isThree : s.inner.count = 3
    · simp only [ownerStep, isTry, TryPc.step, unpended, isThree] at step
      obtain rfl := Option.some.inj step
      exact .aside silent (.idle refs small (.inl (.inl rfl)) rfl
        (numbers.of_same rfl numbers.isCount numbers.isCell)) accounted rfl rfl rfl rfl
    · simp only [ownerStep, isTry, TryPc.step, unpended, isThree] at step
      obtain rfl := Option.some.inj step
      exact .aside silent (.idle refs small (.inl (.inl rfl)) rfl
        (numbers.of_same rfl numbers.isCount numbers.isCell)) accounted rfl rfl rfl rfl
  · have silent : s.owner.stores = [] := by rw [isPoll, Owner.stores] <;> simp
    by_cases isThree : s.inner.count = 3
    · simp only [ownerStep, isPoll, PollPc.step, if_pos isThree] at step
      obtain rfl := Option.some.inj step
      exact .aside silent (.idle refs small (.inl (.inl rfl)) rfl
        (numbers.of_same rfl numbers.isCount numbers.isCell)) accounted rfl rfl rfl rfl
    · simp only [ownerStep, isPoll, PollPc.step, if_neg isThree] at step
      obtain rfl := Option.some.inj step
      have balance := numbers.isCount
      exact .aside silent (.idle refs small (.inr (.inr ⟨by omega, waker, rfl⟩)) unpended
        (numbers.of_same rfl numbers.isCount numbers.isCell)) accounted rfl rfl rfl rfl
  · simp only [ownerStep, isPoll, PollPc.step] at step
    obtain rfl := Option.some.inj step
    refine ⟨.stored refs small isSome rfl unpended waker
      (numbers.of_same rfl numbers.isCount rfl), ?_⟩
    rw [isPoll]
    exact accounted.storeWaker numbers.isCell

theorem Shape.stored_step {spurious : Bool} {refs : Nat} {waker : W}
    (small : 2 * refs ≤ maxRefcount + 1) (isSome : 0 < refs)
    (isOwner : s.owner = .polling .startSub)
    (numbers : s.Numbers (3 + 2 * refs) refs 0 0 (some waker))
    (accounted : Accounted stored s.inner)
    (step : s.ownerStep spurious = some s') : Goes stored s s' := by
  have balance := numbers.isCount
  have subbed : (s.inner.fetchSub 2).count = s.inner.count - 2 := wrappingSub_of_le (by omega)
  have isWaiting : (s.inner.fetchSub 2).count = 1 + 2 * refs := by omega
  have more : ¬ (s.inner.fetchSub 2).count = 1 := by omega
  simp only [ownerStep, isOwner, PollPc.step, if_neg more] at step
  obtain rfl := Option.some.inj step
  exact .aside (by rw [isOwner, Owner.stores] <;> simp)
    (.waiting refs small isSome trivial rfl waker
    (numbers.of_same rfl isWaiting numbers.isCell)) accounted rfl rfl rfl rfl

/-- The loops of `resume_poll` and `cancel_poll` go on with the count of the
collection. -/
theorem Shape.waiting_loop {refs : Nat} {waker : W} {owner : Owner W}
    (small : 2 * refs ≤ maxRefcount + 1) (isSome : 0 < refs) (isOwner : owner.Awaiting)
    (isPending : s.pending = true) (numbers : s.Numbers (1 + 2 * refs) refs 0 0 (some waker)) :
    ({ s with inner := s.inner.access, owner } : Lender W).Shape :=
  .waiting refs small isSome isOwner isPending waker
    (numbers.of_same rfl numbers.isCount numbers.isCell)

/-- They take a reference of their own. -/
theorem Shape.waiting_raise {refs : Nat} {waker : W} {owner : Owner W}
    (small : 2 * refs ≤ maxRefcount + 1) (isSome : 0 < refs) (isOwner : owner.Raised)
    (isPending : s.pending = true) (numbers : s.Numbers (1 + 2 * refs) refs 0 0 (some waker)) :
    ({ s with inner := s.inner.store (wrappingAdd s.inner.count 2), owner } : Lender W).Shape := by
  have balance := numbers.isCount
  have room := maxRefcount_add_lt
  have added : wrappingAdd s.inner.count 2 = 3 + 2 * refs := by
    rw [wrappingAdd_of_lt (by omega)]
    omega
  exact .raised refs small isSome isOwner isPending waker (numbers.of_same rfl added numbers.isCell)

theorem Shape.waiting_step {spurious : Bool} {refs : Nat} {waker : W}
    (small : 2 * refs ≤ maxRefcount + 1) (isSome : 0 < refs) (isOwner : s.owner.Awaiting)
    (isPending : s.pending = true) (numbers : s.Numbers (1 + 2 * refs) refs 0 0 (some waker))
    (accounted : Accounted stored s.inner) (step : s.ownerStep spurious = some s') :
    Goes stored s s' := by
  have balance := numbers.isCount
  have notTwo : ¬ s.inner.count = 2 := by omega
  have notOne : ¬ s.inner.count = 1 := by omega
  have polls (own : W) : PollPc.loop s.inner.count own = .goto (.raise s.inner.count own) := by
    rw [PollPc.loop, if_neg notTwo, if_neg notOne]
  have cancels (reset : Bool) : CancelPc.loop reset s.inner.count =
      .goto (.raise s.inner.count) := by
    rw [CancelPc.loop, if_neg notTwo, if_neg notOne]
  cases owned : s.owner with
  | idle => simp [ownerStep, owned] at step
  | trying pc =>
      rw [owned] at isOwner
      cases pc with
      | swap => exact isOwner.elim
      | load =>
          have failed : TryPc.load.step s.pending s.inner = (s.inner.access, .ret .failed) := by
            simp [TryPc.step, isPending, notTwo]
          simp only [ownerStep, owned, failed] at step
          obtain rfl := Option.some.inj step
          exact .aside (by rw [owned, Owner.stores] <;> simp)
            (waiting_loop small isSome trivial isPending numbers) accounted rfl rfl rfl rfl
  | polling pc =>
      rw [owned] at isOwner
      cases pc with
      | resumeLoad own =>
          simp only [ownerStep, owned, PollPc.step, polls] at step
          obtain rfl := Option.some.inj step
          exact .aside (by rw [owned, Owner.stores] <;> simp)
            (waiting_loop small isSome trivial isPending numbers) accounted rfl rfl rfl rfl
      | raise seen own =>
          by_cases exchanged : s.inner.count = seen ∧ !spurious
          · simp only [ownerStep, owned, PollPc.step, if_pos exchanged] at step
            obtain rfl := Option.some.inj step
            rw [← exchanged.1]
            exact .aside (by rw [owned, Owner.stores] <;> simp)
              (waiting_raise small isSome trivial isPending numbers) accounted rfl rfl rfl rfl
          · simp only [ownerStep, owned, PollPc.step, if_neg exchanged, polls] at step
            obtain rfl := Option.some.inj step
            exact .aside (by rw [owned, Owner.stores] <;> simp)
              (waiting_loop small isSome trivial isPending numbers) accounted rfl rfl rfl rfl
      | startLoad | startStore | startSub | startClear | startSwap | clear | store | lower
      | clearLast | yield => exact isOwner.elim
  | cancelling pc =>
      rw [owned] at isOwner
      cases pc with
      | load =>
          simp only [ownerStep, owned, CancelPc.step, cancels] at step
          obtain rfl := Option.some.inj step
          exact .aside (by rw [owned, Owner.stores] <;> simp)
            (waiting_loop small isSome trivial isPending numbers) accounted rfl rfl rfl rfl
      | raise seen =>
          by_cases exchanged : s.inner.count = seen ∧ !spurious
          · simp only [ownerStep, owned, CancelPc.step, if_pos exchanged] at step
            obtain rfl := Option.some.inj step
            rw [← exchanged.1]
            exact .aside (by rw [owned, Owner.stores] <;> simp)
              (waiting_raise small isSome trivial isPending numbers) accounted rfl rfl rfl rfl
          · simp only [ownerStep, owned, CancelPc.step, if_neg exchanged, cancels] at step
            obtain rfl := Option.some.inj step
            exact .aside (by rw [owned, Owner.stores] <;> simp)
              (waiting_loop small isSome trivial isPending numbers) accounted rfl rfl rfl rfl
      | swap | settle | clear => exact isOwner.elim
  | closing pc =>
      rw [owned] at isOwner
      cases pc with
      | load =>
          simp only [ownerStep, owned, CancelPc.step, cancels] at step
          obtain rfl := Option.some.inj step
          exact .aside (by rw [owned, Owner.stores] <;> simp)
            (waiting_loop small isSome trivial isPending numbers) accounted rfl rfl rfl rfl
      | raise seen =>
          by_cases exchanged : s.inner.count = seen ∧ !spurious
          · simp only [ownerStep, owned, CancelPc.step, if_pos exchanged] at step
            obtain rfl := Option.some.inj step
            rw [← exchanged.1]
            exact .aside (by rw [owned, Owner.stores] <;> simp)
              (waiting_raise small isSome trivial isPending numbers) accounted rfl rfl rfl rfl
          · simp only [ownerStep, owned, CancelPc.step, if_neg exchanged, cancels] at step
            obtain rfl := Option.some.inj step
            exact .aside (by rw [owned, Owner.stores] <;> simp)
              (waiting_loop small isSome trivial isPending numbers) accounted rfl rfl rfl rfl
      | swap | settle | clear => exact isOwner.elim
  | dropping | freeing | gone =>
      rw [owned] at isOwner
      exact isOwner.elim

theorem Shape.raised_step {spurious : Bool} {refs : Nat} {waker : W}
    (small : 2 * refs ≤ maxRefcount + 1) (isSome : 0 < refs) (isOwner : s.owner.Raised)
    (isPending : s.pending = true) (numbers : s.Numbers (3 + 2 * refs) refs 0 0 (some waker))
    (accounted : Accounted stored s.inner) (step : s.ownerStep spurious = some s') :
    Goes stored s s' := by
  have balance := numbers.isCount
  cases owned : s.owner with
  | polling pc =>
      rw [owned] at isOwner
      cases pc with
      | clear own =>
          simp only [ownerStep, owned, PollPc.step] at step
          obtain rfl := Option.some.inj step
          exact .silent (by rw [owned, Owner.stores] <;> simp)
            (.swapped refs small isSome ⟨own, rfl⟩ isPending (numbers.of_same rfl balance rfl))
            (accounted.clearWaker numbers.isCell)
      | lower own =>
          have subbed : (s.inner.fetchSub 2).count = s.inner.count - 2 :=
            wrappingSub_of_le (by omega)
          have lowered : (s.inner.fetchSub 2).count = 1 + 2 * refs := by omega
          have notTwo : ¬ (s.inner.fetchSub 2).count = 2 := by omega
          have notOne : ¬ (s.inner.fetchSub 2).count = 1 := by omega
          simp only [ownerStep, owned, PollPc.step, PollPc.loop, if_neg notTwo,
            if_neg notOne] at step
          obtain rfl := Option.some.inj step
          exact .aside (by rw [owned, Owner.stores] <;> simp)
            (.waiting refs small isSome trivial isPending waker
              (numbers.of_same rfl lowered numbers.isCell)) accounted rfl rfl rfl rfl
      | startLoad | startStore | startSub | startClear | startSwap | resumeLoad | raise | store
      | clearLast | yield => exact isOwner.elim
  | cancelling pc =>
      rw [owned] at isOwner
      cases pc with
      | clear =>
          simp only [ownerStep, owned, CancelPc.step] at step
          obtain rfl := Option.some.inj step
          exact .silent (by rw [owned, Owner.stores] <;> simp)
            (.abandoned refs (.inl rfl) isPending (numbers.of_same rfl balance rfl))
            (accounted.clearWaker numbers.isCell)
      | load | swap | settle | raise => exact isOwner.elim
  | closing pc =>
      rw [owned] at isOwner
      cases pc with
      | clear =>
          simp only [ownerStep, owned, CancelPc.step, Bool.false_eq_true, if_false] at step
          obtain rfl := Option.some.inj step
          exact .silent (by rw [owned, Owner.stores] <;> simp)
            (.dropping refs rfl (numbers.of_same rfl balance rfl))
            (accounted.clearWaker numbers.isCell)
      | load | swap | settle | raise => exact isOwner.elim
  | idle | trying | dropping | freeing | gone =>
      rw [owned] at isOwner
      exact isOwner.elim

theorem Shape.swapped_step {spurious : Bool} {refs : Nat} {own : W}
    (small : 2 * refs ≤ maxRefcount + 1) (isSome : 0 < refs)
    (owned : s.owner = .polling (.store own))
    (isPending : s.pending = true) (numbers : s.Numbers (3 + 2 * refs) refs 0 0 none)
    (accounted : Accounted stored s.inner) (step : s.ownerStep spurious = some s') :
    Goes stored s s' := by
  simp only [ownerStep, owned, PollPc.step] at step
  obtain rfl := Option.some.inj step
  refine ⟨.raised refs small isSome trivial isPending own
    (numbers.of_same rfl numbers.isCount rfl), ?_⟩
  rw [owned]
  exact accounted.storeWaker numbers.isCell

/-- `try_collect` finds another count than that of its flag. -/
theorem Goes.refused {spurious : Bool} (isOwner : s.owner.Looks)
    (refuses : TryPc.load.step s.pending s.inner = (s.inner.access, .ret .failed))
    (shape : ({ s with inner := s.inner.access, owner := .idle } : Lender W).Shape)
    (accounted : Accounted stored s.inner) (step : s.ownerStep spurious = some s') :
    Goes stored s s' := by
  rcases isOwner with isIdle | owned
  · simp [ownerStep, isIdle] at step
  · simp only [ownerStep, owned, refuses] at step
    obtain rfl := Option.some.inj step
    exact .aside (by rw [owned, Owner.stores] <;> simp) shape accounted rfl rfl rfl rfl

theorem Shape.collected_step {spurious : Bool} {refs : Nat} (isOwner : s.owner.Looks)
    (isPending : s.pending = true) (numbers : s.Numbers (2 + 2 * refs) refs 0 0 none)
    (accounted : Accounted stored s.inner) (step : s.ownerStep spurious = some s') :
    Goes stored s s' := by
  have balance := numbers.isCount
  by_cases isTwo : s.inner.count = 2
  · rcases isOwner with isIdle | owned
    · simp [ownerStep, isIdle] at step
    · have goes : TryPc.load.step s.pending s.inner = (s.inner.access, .goto .swap) := by
        simp [TryPc.step, isPending, isTwo]
      simp only [ownerStep, owned, goes] at step
      obtain rfl := Option.some.inj step
      obtain rfl : refs = 0 := by omega
      exact .aside (by rw [owned, Owner.stores] <;> simp)
        (.resolving trivial isPending (numbers.of_same rfl isTwo numbers.isCell)) accounted
        rfl rfl rfl rfl
  · have refuses : TryPc.load.step s.pending s.inner = (s.inner.access, .ret .failed) := by
      simp [TryPc.step, isPending, isTwo]
    exact .refused isOwner refuses (.collected refs (.inl rfl) isPending
      (numbers.of_same rfl balance numbers.isCell)) accounted step

theorem Shape.resolving_step {spurious : Bool} (isOwner : s.owner.Resolving)
    (isPending : s.pending = true) (numbers : s.Numbers 2 0 0 0 none)
    (accounted : Accounted stored s.inner) (step : s.ownerStep spurious = some s') :
    Goes stored s s' := by
  have isTwo := numbers.isCount
  cases owned : s.owner with
  | trying pc =>
      rw [owned] at isOwner
      cases pc with
      | load => exact isOwner.elim
      | swap =>
          simp only [ownerStep, owned, TryPc.step, if_pos isTwo] at step
          obtain rfl := Option.some.inj step
          exact .aside (by rw [owned, Owner.stores] <;> simp)
            (.idle 0 (Nat.zero_le _) (.inl (.inl rfl)) rfl (numbers.of_same rfl rfl numbers.isCell))
            accounted rfl rfl rfl rfl
  | polling pc =>
      rw [owned] at isOwner
      cases pc with
      | resumeLoad own =>
          simp only [ownerStep, owned, PollPc.step, PollPc.loop, if_pos isTwo] at step
          obtain rfl := Option.some.inj step
          exact .aside (by rw [owned, Owner.stores] <;> simp)
            (.done 0 (.inl rfl) rfl (numbers.of_same rfl isTwo numbers.isCell)) accounted
            rfl rfl rfl rfl
      | startLoad | startStore | startSub | startClear | startSwap | raise | clear | store | lower
      | clearLast | yield => exact isOwner.elim
  | cancelling pc =>
      rw [owned] at isOwner
      cases pc with
      | load =>
          simp only [ownerStep, owned, CancelPc.step, CancelPc.loop, if_pos isTwo, if_true] at step
          obtain rfl := Option.some.inj step
          exact .aside (by rw [owned, Owner.stores] <;> simp)
            (.resolving trivial isPending (numbers.of_same rfl isTwo numbers.isCell)) accounted
            rfl rfl rfl rfl
      | swap =>
          simp only [ownerStep, owned, CancelPc.step, if_pos isTwo] at step
          obtain rfl := Option.some.inj step
          exact .aside (by rw [owned, Owner.stores] <;> simp)
            (.abandoned 0 (.inl rfl) isPending (numbers.of_same rfl rfl numbers.isCell)) accounted
            rfl rfl rfl rfl
      | settle | raise | clear => exact isOwner.elim
  | closing pc =>
      rw [owned] at isOwner
      cases pc with
      | load =>
          simp only [ownerStep, owned, CancelPc.step, CancelPc.loop, if_pos isTwo,
            Bool.false_eq_true, if_false, if_true] at step
          obtain rfl := Option.some.inj step
          exact .aside (by rw [owned, Owner.stores] <;> simp)
            (.freeing rfl 2 (numbers.of_same rfl isTwo numbers.isCell)) accounted rfl rfl rfl rfl
      | swap | settle | raise | clear => exact isOwner.elim
  | idle | dropping | freeing | gone =>
      rw [owned] at isOwner
      exact isOwner.elim

/-- A drop about to wake the owner has yet to move the waker, or has done so. -/
theorem notifying_eq (s : Lender W) : s.notifying = s.waking + s.finishing := by
  have split (handle : Handle) :
      handle.notifying.toNat = handle.waking.toNat + handle.finishing.toNat := by
    cases handle with
    | dropping pc => cases pc <;> rfl
    | held | freeing | gone => rfl
  show tally (fun handle => handle.notifying.toNat) s.handles = _
  simp only [split]
  exact tally_add _ _ _

theorem Numbers.quiet {count refs : Nat} {cell : Option W}
    (numbers : s.Numbers count refs 0 0 cell) :
    s.notifying = 0 := by
  obtain ⟨woken, holds⟩ := numbers
  rw [notifying_eq, holds.waking, holds.finishing]

theorem Shape.dropping_step {spurious : Bool} {refs : Nat} (owned : s.owner = .dropping)
    (numbers : s.Numbers (3 + 2 * refs) refs 0 0 none) (accounted : Accounted stored s.inner)
    (step : s.ownerStep spurious = some s') : Goes stored s s' := by
  have balance := numbers.isCount
  have subbed : (s.inner.fetchSub 3).count = s.inner.count - 3 := wrappingSub_of_le (by omega)
  have isLeft : (s.inner.fetchSub 3).count = 2 * refs := by omega
  simp only [ownerStep, owned] at step
  obtain rfl := Option.some.inj step
  refine .aside (by rw [owned, Owner.stores] <;> simp) ?_ accounted rfl rfl rfl rfl
  by_cases isThree : s.inner.count = 3
  · obtain rfl : refs = 0 := by omega
    exact .freeing (if_pos isThree) _ (numbers.of_same rfl rfl numbers.isCell)
  · exact .outlived refs (if_neg isThree) (numbers.of_same rfl isLeft numbers.isCell)

theorem Shape.owner_step {spurious : Bool} (shape : s.Shape) (accounted : Accounted stored s.inner)
    (step : s.ownerStep spurious = some s') : Goes stored s s' := by
  cases shape with
  | idle refs small isOwner unpended numbers =>
      exact idle_step small isOwner unpended numbers accounted step
  | stored refs small isSome isOwner unpended waker numbers =>
      exact stored_step small isSome isOwner numbers accounted step
  | waiting refs small isSome isOwner isPending waker numbers =>
      exact waiting_step small isSome isOwner isPending numbers accounted step
  | raised refs small isSome isOwner isPending waker numbers =>
      exact raised_step small isSome isOwner isPending numbers accounted step
  | swapped refs small isSome isOwner isPending numbers =>
      obtain ⟨own, owned⟩ := isOwner
      exact swapped_step small isSome owned isPending numbers accounted step
  | announced isOwner | woken isOwner => simp [ownerStep, isOwner] at step
  | collected refs isOwner isPending numbers =>
      exact collected_step isOwner isPending numbers accounted step
  | resolving isOwner isPending numbers =>
      exact resolving_step isOwner isPending numbers accounted step
  | done refs isOwner unpended numbers =>
      have balance := numbers.isCount
      have notThree : ¬ s.inner.count = 3 := by omega
      exact .refused isOwner (by simp [TryPc.step, unpended, notThree])
        (.done refs (.inl rfl) unpended (numbers.of_same rfl balance numbers.isCell)) accounted step
  | abandoned refs isOwner isPending numbers =>
      have balance := numbers.isCount
      have notTwo : ¬ s.inner.count = 2 := by omega
      exact .refused isOwner (by simp [TryPc.step, isPending, notTwo])
        (.abandoned refs (.inl rfl) isPending
        (numbers.of_same rfl balance numbers.isCell)) accounted
        step
  | dropping refs isOwner numbers => exact dropping_step isOwner numbers accounted step
  | leaking isOwner numbers =>
      have isTwo := numbers.isCount
      have notThree : ¬ s.inner.count = 3 := by omega
      simp only [ownerStep, isOwner, if_neg notThree] at step
      obtain rfl := Option.some.inj step
      exact .aside (by rw [isOwner, Owner.stores] <;> simp)
        (.gone rfl numbers.isRefs numbers.quiet numbers.isCell) accounted rfl rfl rfl rfl
  | freeing isOwner count numbers =>
      simp only [ownerStep, isOwner] at step
      obtain rfl := Option.some.inj step
      exact .aside (by rw [isOwner, Owner.stores] <;> simp)
        (.gone rfl numbers.isRefs numbers.quiet numbers.isCell) accounted rfl rfl rfl rfl
  | outlived _ isOwner | gone isOwner => simp [ownerStep, isOwner] at step

/-! ## Steps of the handles -/

/-- The owner leaves the handles alone. -/
theorem handles_of_ownerStep {spurious : Bool} (step : s.ownerStep spurious = some s') :
    s'.handles = s.handles := by
  unfold ownerStep at step
  split at step
  · cases step
  · cases step
  · split at step <;> obtain rfl := Option.some.inj step <;> rfl
  · split at step <;> obtain rfl := Option.some.inj step <;> rfl
  · split at step <;> obtain rfl := Option.some.inj step <;> rfl
  · split at step <;> obtain rfl := Option.some.inj step <;> rfl
  · obtain rfl := Option.some.inj step
    rfl
  · obtain rfl := Option.some.inj step
    rfl

/-- While no drop is about to wake the owner, a drop leaves the cell alone. -/
theorem Drops.silent {index : Nat} (drops : s.Drops index s') (quiet : s.notifying = 0)
    (accounted : Accounted stored s.inner) : Accounted stored s'.inner := by
  cases drops with
  | last | announce | leave | finish | retry | free => exact accounted.of_same rfl rfl rfl rfl
  | wake found =>
      have isNotifying : 1 ≤ s.notifying := notifying_of_found found
      omega

/-- With enough of the count left, a drop is not the last. -/
theorem Numbers.left {count refs index : Nat} {cell : Option W}
    (numbers : s.Numbers count refs 0 0 cell) (enough : 0 < refs → 4 ≤ count)
    (drops : s.Drops index s') : 0 < refs ∧ s'.Numbers (count - 2) (refs - 1) 0 0 cell := by
  rcases numbers.drops (fun isSome => by have enough := enough isSome; omega) drops with
    ⟨isSome, numbers⟩ | ⟨isWaking, _⟩ | ⟨isFinishing, _⟩ | ⟨isFinishing, _⟩
  · have enough := enough isSome
    rw [if_neg (by omega)] at numbers
    exact ⟨isSome, numbers⟩
  · omega
  · omega
  · omega

/-- The last reference of a lender that is gone. -/
theorem Shape.outlived_drop {index refs : Nat} (isOwner : s.owner = .gone) (few : refs ≤ 1)
    (numbers : s.Numbers (2 * refs) refs 0 0 none) (drops : s.Drops index s') : s'.Shape := by
  obtain ⟨woken, holds⟩ := id numbers
  have quiet := numbers.quiet
  have balance := numbers.isCount
  have isRefs := numbers.isRefs
  have subbed (isSome : 1 ≤ refs) : (s.inner.fetchSub 2).count = 0 := by
    have subbed : (s.inner.fetchSub 2).count = s.inner.count - 2 := wrappingSub_of_le (by omega)
    omega
  cases drops with
  | last found isZero =>
      have isAlive : 1 ≤ refs := (holds.found found).1
      have fewer := alive_moved found .freeing (s.inner.fetchSub 2)
      have notes := notifying_moved found .freeing (s.inner.fetchSub 2)
      simp only [Handle.alive, Handle.notifying, Bool.toNat_true, Bool.toNat_false] at fewer notes
      exact .gone isOwner (by omega) (by omega) numbers.isCell
  | announce found isOne =>
      have isAlive : 1 ≤ refs := (holds.found found).1
      have subbed := subbed isAlive
      omega
  | leave found other =>
      have isAlive : 1 ≤ refs := (holds.found found).1
      exact absurd (subbed isAlive) other.1
  | wake found | finish found | retry found =>
      have isNotifying : 1 ≤ s.notifying := notifying_of_found found
      omega
  | free found =>
      have isFreeing : 1 = 0 := (holds.found found).2.2.2
      omega

theorem Shape.handle_step {index : Nat} (shape : s.Shape) (alone : s.Alone)
    (accounted : Accounted stored s.inner) (step : s.handleStep index = some s') :
    s'.Shape ∧ Accounted stored s'.inner := by
  have drops := drops_of_handleStep step
  have sameOwner : s'.owner = s.owner := by cases drops <;> rfl
  have samePending : s'.pending = s.pending := by cases drops <;> rfl
  have between := drops.between alone
  cases shape with
  | idle refs small isOwner unpended numbers =>
      obtain ⟨isSome, numbers'⟩ := numbers.left (by omega) drops
      obtain ⟨less, rfl⟩ := Nat.exists_eq_add_of_le' isSome
      rw [show 3 + 2 * (less + 1) - 2 = 3 + 2 * less by omega] at numbers'
      refine ⟨.idle less (by omega) (.inl (.inl ?_)) (samePending.trans unpended) numbers',
        drops.silent numbers.quiet accounted⟩
      rcases between with isIdle | isGone
      · exact sameOwner.trans isIdle
      · simp [isGone, Owner.Looks] at isOwner
  | waiting refs small isSome isOwner isPending waker numbers =>
      have isIdle : s.owner = .idle := by
        rcases between with isIdle | isGone
        · exact isIdle
        · rw [isGone] at isOwner
          exact isOwner.elim
      refine ⟨?_, drops.silent numbers.quiet accounted⟩
      obtain ⟨less, rfl⟩ := Nat.exists_eq_add_of_le' isSome
      cases less with
      | zero =>
          rcases numbers.drops (by omega) drops with ⟨_, numbers⟩ | ⟨isWaking, _⟩ |
            ⟨isFinishing, _⟩ | ⟨isFinishing, _⟩
          · exact .announced (sameOwner.trans isIdle) (samePending.trans isPending) waker numbers
          · omega
          · omega
          · omega
      | succ less =>
          obtain ⟨_, numbers⟩ := numbers.left (by omega) drops
          rw [show 1 + 2 * (less + 1 + 1) - 2 = 1 + 2 * (less + 1) by omega] at numbers
          exact .waiting (less + 1) (by omega) (by omega) (sameOwner ▸ isOwner)
            (samePending.trans isPending) waker numbers
  | announced isOwner isPending waker numbers =>
      rcases numbers.drops (by omega) drops with ⟨isSome, _⟩ | ⟨_, numbers'⟩ |
        ⟨isFinishing, _⟩ | ⟨isFinishing, _⟩
      · omega
      · refine ⟨.woken (sameOwner.trans isOwner) (samePending.trans isPending) numbers', ?_⟩
        cases drops with
        | wake => exact accounted.wakeWaker numbers.isCell
        | last | announce | leave | finish | retry | free => exact accounted.of_same rfl rfl rfl rfl
      · omega
      · omega
  | woken isOwner isPending numbers =>
      rcases numbers.drops (by omega) drops with ⟨isSome, _⟩ | ⟨isWaking, _⟩ |
        ⟨_, _, numbers'⟩ | ⟨_, other, _⟩
      · omega
      · omega
      · refine ⟨.collected 0 (.inl (sameOwner.trans isOwner))
          (samePending.trans isPending) numbers',
          ?_⟩
        cases drops with
        | wake found =>
            obtain ⟨_, holds⟩ := numbers
            have isWaking : 1 ≤ 0 := (holds.found found).2.1
            omega
        | last | announce | leave | finish | retry | free => exact accounted.of_same rfl rfl rfl rfl
      · exact absurd rfl other
  | collected refs isOwner isPending numbers =>
      obtain ⟨isSome, numbers'⟩ := numbers.left (by omega) drops
      obtain ⟨less, rfl⟩ := Nat.exists_eq_add_of_le' isSome
      rw [show 2 + 2 * (less + 1) - 2 = 2 + 2 * less by omega] at numbers'
      exact ⟨.collected less (sameOwner ▸ isOwner) (samePending.trans isPending) numbers',
        drops.silent numbers.quiet accounted⟩
  | done refs isOwner unpended numbers =>
      obtain ⟨isSome, numbers'⟩ := numbers.left (by omega) drops
      obtain ⟨less, rfl⟩ := Nat.exists_eq_add_of_le' isSome
      rw [show 2 + 2 * (less + 1) - 2 = 2 + 2 * less by omega] at numbers'
      exact ⟨.done less (sameOwner ▸ isOwner) (samePending.trans unpended) numbers',
        drops.silent numbers.quiet accounted⟩
  | abandoned refs isOwner isPending numbers =>
      obtain ⟨isSome, numbers'⟩ := numbers.left (by omega) drops
      obtain ⟨less, rfl⟩ := Nat.exists_eq_add_of_le' isSome
      rw [show 3 + 2 * (less + 1) - 2 = 3 + 2 * less by omega] at numbers'
      exact ⟨.abandoned less (sameOwner ▸ isOwner) (samePending.trans isPending) numbers',
        drops.silent numbers.quiet accounted⟩
  | outlived refs isOwner numbers =>
      refine ⟨?_, drops.silent numbers.quiet accounted⟩
      by_cases isMore : 2 ≤ refs
      · obtain ⟨_, numbers'⟩ := numbers.left (by omega) drops
        rw [show 2 * refs - 2 = 2 * (refs - 1) by omega] at numbers'
        exact .outlived (refs - 1) (sameOwner.trans isOwner) numbers'
      · exact outlived_drop isOwner (by omega) numbers drops
  | gone isOwner dead quiet empty =>
      refine ⟨?_, drops.silent quiet accounted⟩
      cases drops with
      | last found | announce found | leave found =>
          have isAlive : 1 ≤ s.alive := alive_of_found found
          omega
      | wake found | finish found | retry found =>
          have isNotifying : 1 ≤ s.notifying := notifying_of_found found
          omega
      | free found =>
          have same := alive_moved found .gone s.inner.dealloc
          have notes := notifying_moved found .gone s.inner.dealloc
          exact .gone isOwner (same.trans dead) (notes.trans quiet) empty
  | stored _ _ _ isOwner | raised _ _ _ isOwner | swapped _ _ _ isOwner | resolving isOwner
  | dropping _ isOwner | leaking isOwner | freeing isOwner =>
      rcases between with isIdle | isGone
      · simp [isIdle, Owner.Raised, Owner.Resolving] at isOwner
      · simp [isGone, Owner.Raised, Owner.Resolving] at isOwner

/-! ## Calls -/

/-- A new reference, while the handles rest. -/
theorem Numbers.lend {count refs : Nat} {cell : Option W} (numbers : s.Numbers count refs 0 0 cell)
    (room : s.inner.count ≤ maxRefcount) : s.lend.Numbers (count + 2) (refs + 1) 0 0 cell := by
  obtain ⟨woken, holds⟩ := numbers
  exact ⟨woken, (holds.lend (holds.count ▸ room)).1⟩

theorem lend_accounted (accounted : Accounted stored s.inner) : Accounted stored s.lend.inner := by
  simp only [Lender.lend, incCountRef]
  split_ifs
  · exact accounted.of_same rfl rfl rfl rfl
  · exact accounted.of_same rfl rfl rfl rfl

theorem Shape.lend (shape : s.Shape) (rests : ∀ handle ∈ s.handles, handle.resting = true)
    (able : s.owner = .idle ∨ 0 < s.alive ∧ s.owner = .gone) (room : s.inner.count ≤ maxRefcount) :
    s.lend.Shape := by
  obtain ⟨sameOwner, samePending, _⟩ := s.lend_owner
  have between : s.owner = .idle ∨ s.owner = .gone := able.imp_right And.right
  have looks (waits : s.owner ≠ .gone) : s.lend.owner = .idle :=
    sameOwner.trans (between.resolve_right waits)
  have quiet := (quiet_of_resting rests).1
  cases shape with
  | idle refs small isOwner unpended numbers =>
      have balance := numbers.isCount
      have isIdle := looks (by rintro isGone; simp [isGone, Owner.Looks] at isOwner)
      have more := numbers.lend room
      rw [show 3 + 2 * refs + 2 = 3 + 2 * (refs + 1) by omega] at more
      exact .idle (refs + 1) (by omega) (.inl (.inl isIdle)) (samePending.trans unpended) more
  | waiting refs small isSome isOwner isPending waker numbers =>
      have balance := numbers.isCount
      have more := numbers.lend room
      rw [show 1 + 2 * refs + 2 = 1 + 2 * (refs + 1) by omega] at more
      exact .waiting (refs + 1) (by omega) (by omega) (sameOwner ▸ isOwner)
        (samePending.trans isPending) waker more
  | collected refs isOwner isPending numbers =>
      have more := numbers.lend room
      rw [show 2 + 2 * refs + 2 = 2 + 2 * (refs + 1) by omega] at more
      exact .collected (refs + 1) (sameOwner ▸ isOwner) (samePending.trans isPending) more
  | done refs isOwner unpended numbers =>
      have more := numbers.lend room
      rw [show 2 + 2 * refs + 2 = 2 + 2 * (refs + 1) by omega] at more
      exact .done (refs + 1) (sameOwner ▸ isOwner) (samePending.trans unpended) more
  | abandoned refs isOwner isPending numbers =>
      have more := numbers.lend room
      rw [show 3 + 2 * refs + 2 = 3 + 2 * (refs + 1) by omega] at more
      exact .abandoned (refs + 1) (sameOwner ▸ isOwner) (samePending.trans isPending) more
  | outlived refs isOwner numbers =>
      have more := numbers.lend room
      rw [show 2 * refs + 2 = 2 * (refs + 1) by omega] at more
      exact .outlived (refs + 1) (sameOwner.trans isOwner) more
  | announced isOwner isPending waker numbers | woken isOwner isPending numbers =>
      obtain ⟨_, holds⟩ := numbers
      have isNotifying := notifying_eq s
      rw [holds.waking, holds.finishing] at isNotifying
      omega
  | gone isOwner dead =>
      rcases able with isIdle | ⟨isAlive, _⟩
      · simp [isIdle] at isOwner
      · omega
  | stored _ _ _ isOwner | raised _ _ _ isOwner | swapped _ _ _ isOwner | resolving isOwner
  | dropping _ isOwner | leaking isOwner | freeing isOwner =>
      rcases between with isIdle | isGone
      · simp [isIdle, Owner.Raised, Owner.Resolving] at isOwner
      · simp [isGone, Owner.Raised, Owner.Resolving] at isOwner

/-- A pending lender that collects waits for its references, or has its
collection finished. -/
theorem Shape.collects (shape : s.Shape) (isIdle : s.owner = .idle) (isPending : s.pending = true)
    (rests : ∀ handle ∈ s.handles, handle.resting = true) (collects : s.collects = true) :
    (∃ refs waker, 2 * refs ≤ maxRefcount + 1 ∧ 0 < refs ∧
        s.Numbers (1 + 2 * refs) refs 0 0 (some waker)) ∨ s.Numbers 2 0 0 0 none := by
  have isCount : s.inner.count = 2 ∨ s.inner.count = 1 + 2 * s.alive := by
    simpa [Lender.collects] using collects
  have quiet := (quiet_of_resting rests).1
  cases shape with
  | waiting refs small isSome _ _ waker numbers => exact .inl ⟨refs, waker, small, isSome, numbers⟩
  | collected refs _ _ numbers =>
      have balance := numbers.isCount
      have isRefs := numbers.isRefs
      obtain rfl : refs = 0 := by omega
      exact .inr numbers
  | abandoned refs _ _ numbers =>
      have balance := numbers.isCount
      have isRefs := numbers.isRefs
      omega
  | announced _ _ _ numbers | woken _ _ numbers =>
      obtain ⟨_, holds⟩ := numbers
      have isNotifying := notifying_eq s
      rw [holds.waking, holds.finishing] at isNotifying
      omega
  | idle _ _ _ unpended | done _ _ unpended =>
      rw [isPending] at unpended
      cases unpended
  | stored _ _ _ isOwner | raised _ _ _ isOwner | swapped _ _ _ isOwner | resolving isOwner
  | dropping _ isOwner | leaking isOwner | freeing isOwner | outlived _ isOwner | gone isOwner =>
      simp [isIdle, Owner.Raised, Owner.Resolving] at isOwner

/-- A lender that collects nothing. -/
theorem Shape.unpended (shape : s.Shape) (isIdle : s.owner = .idle) (unpended : s.pending = false) :
    (∃ refs, 2 * refs ≤ maxRefcount + 1 ∧ s.Numbers (3 + 2 * refs) refs 0 0 none) ∨
      ∃ refs, s.Numbers (2 + 2 * refs) refs 0 0 none := by
  cases shape with
  | idle refs small _ _ numbers => exact .inl ⟨refs, small, numbers⟩
  | done refs _ _ numbers => exact .inr ⟨refs, numbers⟩
  | waiting _ _ _ _ isPending | announced _ isPending | woken _ isPending
  | collected _ _ isPending | abandoned _ _ isPending =>
      rw [unpended] at isPending
      cases isPending
  | stored _ _ _ isOwner | raised _ _ _ isOwner | swapped _ _ _ isOwner | resolving isOwner
  | dropping _ isOwner | leaking isOwner | freeing isOwner | outlived _ isOwner | gone isOwner =>
      simp [isIdle, Owner.Raised, Owner.Resolving] at isOwner

theorem Numbers.enter {count refs : Nat} {cell : Option W} {owner : Owner W}
    (numbers : s.Numbers count refs 0 0 cell) :
    ({ s with owner } : Lender W).Numbers count refs 0 0 cell :=
  numbers.of_same rfl numbers.isCount numbers.isCell

/-- A drop begins. -/
theorem Numbers.release {count refs waking finishing index : Nat} {cell : Option W}
    (numbers : s.Numbers count refs waking finishing cell)
    (found : s.handles[index]? = some .held) :
    ({ s with handles := s.handles.set index (.dropping .sub) } : Lender W).Numbers
      count refs waking finishing cell := by
  obtain ⟨woken, holds⟩ := numbers
  exact ⟨woken, holds.moved found holds.count holds.cell holds.woken rfl rfl rfl rfl⟩

theorem Shape.release {index : Nat} (shape : s.Shape) (found : s.handles[index]? = some .held) :
    ({ s with handles := s.handles.set index (.dropping .sub) } : Lender W).Shape := by
  cases shape with
  | idle refs small isOwner unpended numbers =>
      exact .idle refs small isOwner unpended (numbers.release found)
  | stored refs small isSome isOwner unpended waker numbers =>
      exact .stored refs small isSome isOwner unpended waker (numbers.release found)
  | waiting refs small isSome isOwner isPending waker numbers =>
      exact .waiting refs small isSome isOwner isPending waker (numbers.release found)
  | raised refs small isSome isOwner isPending waker numbers =>
      exact .raised refs small isSome isOwner isPending waker (numbers.release found)
  | swapped refs small isSome isOwner isPending numbers =>
      exact .swapped refs small isSome isOwner isPending (numbers.release found)
  | announced isOwner isPending waker numbers =>
      exact .announced isOwner isPending waker (numbers.release found)
  | woken isOwner isPending numbers => exact .woken isOwner isPending (numbers.release found)
  | collected refs isOwner isPending numbers =>
      exact .collected refs isOwner isPending (numbers.release found)
  | resolving isOwner isPending numbers =>
      exact .resolving isOwner isPending (numbers.release found)
  | done refs isOwner unpended numbers => exact .done refs isOwner unpended (numbers.release found)
  | abandoned refs isOwner isPending numbers =>
      exact .abandoned refs isOwner isPending (numbers.release found)
  | dropping refs isOwner numbers => exact .dropping refs isOwner (numbers.release found)
  | leaking isOwner numbers => exact .leaking isOwner (numbers.release found)
  | freeing isOwner count numbers => exact .freeing isOwner count (numbers.release found)
  | outlived refs isOwner numbers => exact .outlived refs isOwner (numbers.release found)
  | gone isOwner dead quiet empty =>
      have same := alive_moved found (.dropping .sub) s.inner
      have notes := notifying_moved found (.dropping .sub) s.inner
      exact .gone isOwner ((Nat.add_right_cancel same).trans dead)
        ((Nat.add_right_cancel notes).trans quiet) empty

/-- A call on a pending collection begins. -/
theorem Shape.begin_pending {owner : Owner W} (shape : s.Shape) (isIdle : s.owner = .idle)
    (isPending : s.pending = true) (rests : ∀ handle ∈ s.handles, handle.resting = true)
    (collects : s.collects = true) (awaits : owner.Awaiting) (resolves : owner.Resolving) :
    ({ s with owner } : Lender W).Shape := by
  rcases shape.collects isIdle isPending rests collects with
    ⟨refs, waker, small, isSome, numbers⟩ | numbers
  · exact .waiting refs small isSome awaits isPending waker numbers.enter
  · exact .resolving resolves isPending numbers.enter

theorem Shape.call (shape : s.Shape) (isIdle : s.owner = .idle)
    (rests : ∀ handle ∈ s.handles, handle.resting = true) (attentive : s.attentive label = true)
    (step : s.call label = some s') : s'.Shape := by
  cases label with
  | borrow =>
      obtain rfl := Option.some.inj step
      exact shape.lend rests (.inl isIdle) (of_decide_eq_true attentive)
  | tryCollect =>
      obtain rfl := Option.some.inj step
      have looks : (Owner.trying .load : Owner W).Looks := .inr rfl
      cases shape with
      | idle refs small _ unpended numbers =>
          exact .idle refs small (.inl looks) unpended numbers.enter
      | waiting refs small isSome _ isPending waker numbers =>
          exact .waiting refs small isSome trivial isPending waker numbers.enter
      | collected refs _ isPending numbers => exact .collected refs looks isPending numbers.enter
      | done refs _ unpended numbers => exact .done refs looks unpended numbers.enter
      | abandoned refs _ isPending numbers => exact .abandoned refs looks isPending numbers.enter
      | announced _ _ _ numbers | woken _ _ numbers =>
          obtain ⟨_, holds⟩ := numbers
          have isNotifying := notifying_eq s
          rw [holds.waking, holds.finishing, (quiet_of_resting rests).1] at isNotifying
          omega
      | stored _ _ _ isOwner | raised _ _ _ isOwner | swapped _ _ _ isOwner | resolving isOwner
      | dropping _ isOwner | leaking isOwner | freeing isOwner | outlived _ isOwner
      | gone isOwner => simp [isIdle, Owner.Raised, Owner.Resolving] at isOwner
  | poll waker =>
      cases isPending : s.pending with
      | true =>
          have collects : s.collects = true := by simpa [Lender.attentive,
            isPending] using attentive
          have polls : s.call (.poll waker) =
              some { s with owner := .polling (.resumeLoad waker) } := by
            simp [Lender.call, isPending]
          rw [polls] at step
          obtain rfl := Option.some.inj step
          exact shape.begin_pending isIdle isPending rests collects trivial trivial
      | false =>
          have odd : s.inner.count % 2 = 1 := by simpa [Lender.attentive, isPending] using attentive
          have polls : s.call (.poll waker) =
              some { s with owner := .polling (.startLoad waker) } := by
            simp [Lender.call, isPending]
          rw [polls] at step
          obtain rfl := Option.some.inj step
          rcases shape.unpended isIdle isPending with ⟨refs, small, numbers⟩ | ⟨refs, numbers⟩
          · exact .idle refs small (.inr (.inl ⟨waker, rfl⟩)) isPending numbers.enter
          · have balance := numbers.isCount
            omega
  | cancel =>
      cases isPending : s.pending with
      | true =>
          have collects : s.collects = true := by simpa [Lender.attentive,
            isPending] using attentive
          have cancels : s.call .cancel = some { s with owner := .cancelling .load } := by
            simp [Lender.call, isPending]
          rw [cancels] at step
          obtain rfl := Option.some.inj step
          exact shape.begin_pending isIdle isPending rests collects trivial trivial
      | false =>
          simp only [Lender.call, isPending] at step
          obtain rfl := Option.some.inj step
          exact shape
  | drop =>
      cases isPending : s.pending with
      | true =>
          have collects : s.collects = true := by simpa [Lender.attentive,
            isPending] using attentive
          have drops : s.call .drop = some { s with owner := .closing .load } := by
            simp [Lender.call, isPending]
          rw [drops] at step
          obtain rfl := Option.some.inj step
          exact shape.begin_pending isIdle isPending rests collects trivial trivial
      | false =>
          have leaves : s.inner.count % 2 = 1 ∨ s.inner.count = 2 := by
            simpa [Lender.attentive, isPending] using attentive
          have drops : s.call .drop = some { s with owner := .dropping } := by
            simp [Lender.call, isPending]
          rw [drops] at step
          obtain rfl := Option.some.inj step
          rcases shape.unpended isIdle isPending with ⟨refs, small, numbers⟩ | ⟨refs, numbers⟩
          · exact .dropping refs rfl numbers.enter
          · have balance := numbers.isCount
            obtain rfl : refs = 0 := by omega
            exact .leaking rfl numbers.enter
  | owner | clone | release | handle => cases step

end Lender

/-! ## Runs -/

namespace Wakers

/-- Between the accesses of a call the lender has its shape, and the wakers that
were stored are accounted for. -/
structure Books (s : Wakers W) : Prop where
  shape : s.lender.Shape
  alone : s.lender.Alone
  accounted : Accounted s.stored s.lender.inner

variable {s s' : Wakers W} {label : Label W}

theorem Books.init : (Wakers.init : Wakers W).Books where
  shape := Lender.Shape.init
  alone := .inl rfl
  accounted := ⟨rfl, List.Perm.refl _⟩

theorem Books.balanced (books : s.Books) : s.Balanced where
  unmisused := books.accounted.unmisused
  balance := books.accounted.balance
  empty isGone allGone := by
    obtain ⟨dead, quiet, _⟩ := Lender.tallies_of_gone allGone
    cases books.shape with
    | outlived _ _ numbers => exact numbers.isCell
    | gone _ _ _ empty => exact empty
    | idle _ _ isOwner | stored _ _ _ isOwner | waiting _ _ _ isOwner | raised _ _ _ isOwner
    | swapped _ _ _ isOwner | announced isOwner | woken isOwner | collected _ isOwner
    | resolving isOwner | done _ isOwner | abandoned _ isOwner | dropping _ isOwner
    | leaking isOwner | freeing isOwner =>
        simp [isGone, Owner.Looks, Owner.Raised, Owner.Resolving, Owner.Awaiting] at isOwner

theorem Books.owner_step {spurious : Bool} {lender : Lender W} (books : s.Books)
    (step : s.lender.ownerStep spurious = some lender) :
    ({ lender, stored := s.stored ++ s.lender.owner.stores } : Wakers W).Books := by
  obtain ⟨shape, accounted⟩ := books.shape.owner_step books.accounted step
  refine ⟨shape, ?_, accounted⟩
  rcases books.alone with isIdle | isGone | rests
  · simp [Lender.ownerStep, isIdle] at step
  · simp [Lender.ownerStep, isGone] at step
  · exact .inr (.inr (Lender.handles_of_ownerStep step ▸ rests))

theorem Books.handle_step {index : Nat} {lender : Lender W} (books : s.Books)
    (step : s.lender.handleStep index = some lender) : ({ s with lender } : Wakers W).Books := by
  obtain ⟨shape, accounted⟩ := books.shape.handle_step books.alone books.accounted step
  have drops := Lender.drops_of_handleStep step
  have sameOwner : lender.owner = s.lender.owner := by cases drops <;> rfl
  refine ⟨shape, ?_, accounted⟩
  rcases drops.between books.alone with isIdle | isGone
  · exact .inl (sameOwner.trans isIdle)
  · exact .inr (.inl (sameOwner.trans isGone))

/-- A call of the owner leaves the cell to its accesses. -/
theorem Books.call {lender : Lender W} (books : s.Books) (isIdle : s.lender.owner = .idle)
    (rests : ∀ handle ∈ s.lender.handles, handle.resting = true)
    (attentive : s.lender.attentive label = true) (step : s.lender.call label = some lender) :
    ({ s with lender } : Wakers W).Books := by
  have shape := books.shape.call isIdle rests attentive step
  cases label with
  | borrow =>
      obtain rfl := Option.some.inj step
      exact ⟨shape, .inl (s.lender.lend_owner.1.trans isIdle),
        Lender.lend_accounted books.accounted⟩
  | tryCollect | poll =>
      obtain rfl := Option.some.inj step
      exact ⟨shape, .inr (.inr rests), books.accounted⟩
  | cancel =>
      simp only [Lender.call] at step
      split at step <;> obtain rfl := Option.some.inj step
      · exact ⟨shape, .inr (.inr rests), books.accounted⟩
      · exact ⟨shape, .inl isIdle, books.accounted⟩
  | drop =>
      obtain rfl := Option.some.inj step
      exact ⟨shape, .inr (.inr rests), books.accounted⟩
  | owner | clone | release | handle => cases step

theorem Books.release {index : Nat} (books : s.Books)
    (between : s.lender.owner = .idle ∨ s.lender.owner = .gone)
    (found : s.lender.handles[index]? = some .held) :
    ({ s with lender := { s.lender with
        handles := s.lender.handles.set index (.dropping .sub) } } : Wakers W).Books := by
  exact ⟨books.shape.release found, between.imp_right Or.inl, books.accounted⟩

theorem Books.step (books : s.Books) (whole : s.lender.wholeCalls label = true)
    (attentive : s.lender.attentive label = true) (step : Wakers.step s label = some s') :
    s'.Books := by
  cases label with
  | owner spurious =>
      obtain ⟨lender, stepped, rfl⟩ := Option.map_eq_some_iff.mp step
      exact books.owner_step stepped
  | handle index =>
      obtain ⟨lender, stepped, rfl⟩ := Option.map_eq_some_iff.mp step
      exact books.handle_step stepped
  | clone index =>
      obtain ⟨rests, between⟩ := Lender.between_of_wholeCalls whole (by simp) (by simp)
      obtain ⟨lender, stepped, rfl⟩ := Option.map_eq_some_iff.mp step
      simp only [Lender.step] at stepped
      split at stepped
      · rename_i found
        obtain rfl := Option.some.inj stepped
        have isAlive : 1 ≤ s.lender.alive := Lender.alive_of_found found
        have shape := books.shape.lend rests (between.imp_right fun isGone => ⟨isAlive, isGone⟩)
          (of_decide_eq_true attentive)
        have sameOwner := s.lender.lend_owner.1
        exact ⟨shape, between.imp sameOwner.trans fun isGone => .inl (sameOwner.trans isGone),
          Lender.lend_accounted books.accounted⟩
      · cases stepped
  | release index =>
      obtain ⟨rests, between⟩ := Lender.between_of_wholeCalls whole (by simp) (by simp)
      obtain ⟨lender, stepped, rfl⟩ := Option.map_eq_some_iff.mp step
      simp only [Lender.step] at stepped
      split at stepped
      · rename_i found
        obtain rfl := Option.some.inj stepped
        exact books.release between found
      · cases stepped
  | borrow | tryCollect | poll | cancel | drop =>
      obtain ⟨rests, between⟩ := Lender.between_of_wholeCalls whole (by simp) (by simp)
      obtain ⟨lender, stepped, rfl⟩ := Option.map_eq_some_iff.mp step
      simp only [Lender.step] at stepped
      split at stepped
      · exact books.call ‹_› rests attentive stepped
      · cases stepped

end Wakers

/-- While no abandoned collection is polled, cancelled or dropped, and none begun
on the count of a finished one, every waker stored is woken or dropped once. -/
theorem wakers_balanced {s : Wakers W}
    (reachable : ReachableUnder Wakers.step
      (fun s label => (s.lender.wholeCalls label && s.lender.attentive label) = true)
      Wakers.init s) : s.Balanced := by
  have books : s.Books := by
    apply reachable.invariant Wakers.Books.init
    intro state label result books careful step
    rw [Bool.and_eq_true] at careful
    exact books.step careful.1 careful.2 step
  exact books.balanced

theorem wakers_balanced_of_drop : ∃ s : Wakers Nat, s.lender.owner = .gone ∧ s.stored = [0, 1] ∧
    s.lender.inner.woken = [0] ∧ s.lender.inner.discarded = [1] ∧ s.Balanced := by
  obtain ⟨s, ran, isGone, stored, woken, discarded⟩ : ∃ s ∈
      runFrom (guarded Wakers.step fun s label =>
        s.lender.wholeCalls label && s.lender.attentive label) (Wakers.init : Wakers Nat)
        [.borrow, .poll 0, .owner false, .owner false, .owner false, .release 0, .handle 0,
          .handle 0, .handle 0, .tryCollect, .owner false, .owner false, .borrow, .poll 1,
          .owner false, .owner false, .owner false, .drop, .owner false, .owner false,
          .owner false, .owner false],
      s.lender.owner = .gone ∧ s.stored = [0, 1] ∧ s.lender.inner.woken = [0] ∧
        s.lender.inner.discarded = [1] := by
    decide +kernel
  exact ⟨s, isGone, stored, woken, discarded, wakers_balanced (reachableUnder_of_runFrom ran)⟩

/-- A lender whose collection was abandoned drops the waker of its empty cell. -/
theorem wakers_misused : ¬ ∀ s : Wakers Nat,
    ReachableUnder Wakers.step (fun s label => s.lender.wholeCalls label = true) Wakers.init s →
      s.Balanced := by
  intro always
  obtain ⟨s, ran, misused⟩ : ∃ s ∈
      runFrom (guarded Wakers.step fun s label => s.lender.wholeCalls label)
        (Wakers.init : Wakers Nat)
        [.borrow, .poll 0, .owner false, .owner false, .owner false, .cancel, .owner false,
          .owner false, .owner false, .drop, .owner false, .owner false, .owner false],
      s.lender.inner.wakerMisuse = true := by
    decide +kernel
  have unmisused := (always s (reachableUnder_of_runFrom ran)).unmisused
  rw [misused] at unmisused
  cases unmisused

end Suspend.Shared
