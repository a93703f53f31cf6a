import Suspend.Shared.FirstPoll
import Suspend.Shared.LifeCycle

/-!
# An abandoned collection

A `Collect` that is dropped after a pending poll gives the owner the two units
of its bias back, from each of the counts that the drops of the references may
have left.  The lender still calls its collection pending, and with the bias of
an idle lender it never finds the count at which a pending collection ends.
-/

namespace Suspend.Shared

open Suspend.Transition

universe v

variable {W : Type v}

namespace Label

/-- The references are dropped, and the owner goes on with its call. -/
def withdraws : Label W → Bool
  | .owner _ | .release _ | .handle _ => true
  | _ => false

end Label

namespace Lender

/-- Nothing is collected. -/
structure Idle (s : Lender W) : Prop where
  between : s.owner = .idle
  unpended : s.pending = false
  balance : s.inner.count = 3 + 2 * s.alive
  empty : s.inner.waker = none

/-- From a call to its return, while references are dropped. -/
def Withdrawing : Lender W → Lender W → Prop :=
  ReachableUnder Lender.step fun _ label => label.withdraws = true

/-- A collection is polled once, is pending, and is dropped. -/
structure Abandons (s s' : Lender W) : Prop where
  abandons : ∃ (waker : W) (polled middle cancelled : Lender W),
    Lender.step s (.poll waker) = some polled ∧ polled.Withdrawing middle ∧
      middle.owner = .idle ∧ middle.pending = true ∧
      Lender.step middle .cancel = some cancelled ∧ cancelled.Withdrawing s'
  returned : s'.owner = .idle

/-- How often a run of calls hands out the value. -/
def answers (s : Lender W) (labels : List (Label W)) : Option Nat :=
  (runFrom Lender.step s labels).map fun s' => s'.grants.length - s.grants.length

/-- The later calls cannot tell the lenders from each other. -/
def SameAnswers (s t : Lender W) : Prop :=
  ∀ labels, s.answers labels = t.answers labels

/-- The lender is what it would be without the collection. -/
structure Unaffected (s : Lender W) : Prop where
  idle : s.Idle
  same : ∀ t : Lender W, t.Idle → t.handles = s.handles → s.SameAnswers t

/-! ## The pending flag -/

variable {s s' : Lender W} {label : Label W}

/-- A pending collection is given up, or has been. -/
structure GivesUp (s : Lender W) : Prop where
  isPending : s.pending = true
  owner : s.owner = .idle ∨ ∃ pc, s.owner = .cancelling pc

theorem GivesUp.cancel (between : s.owner = .idle) (isPending : s.pending = true)
    (step : Lender.step s .cancel = some s') : s'.GivesUp := by
  simp only [Lender.step, between, Lender.call, isPending, if_true] at step
  obtain rfl := Option.some.inj step
  exact ⟨rfl, .inr ⟨_, rfl⟩⟩

/-- `cancel_collect` does not touch the flag. -/
theorem GivesUp.step (givesUp : s.GivesUp) (withdraws : label.withdraws = true)
    (step : Lender.step s label = some s') : s'.GivesUp := by
  obtain ⟨isPending, isOwner⟩ := givesUp
  cases label with
  | owner spurious =>
      rcases isOwner with isIdle | ⟨pc, isOwner⟩
      · simp [Lender.step, ownerStep, isIdle] at step
      · simp only [Lender.step, ownerStep, isOwner] at step
        split at step <;> obtain rfl := Option.some.inj step
        · exact ⟨isPending, .inr ⟨_, rfl⟩⟩
        · exact ⟨isPending, .inl rfl⟩
        · exact ⟨isPending, .inl rfl⟩
  | release index =>
      simp only [Lender.step] at step
      split at step
      · obtain rfl := Option.some.inj step
        exact ⟨isPending, isOwner⟩
      · cases step
  | handle index =>
      have drops := drops_of_handleStep step
      cases drops <;> exact ⟨isPending, isOwner⟩
  | borrow | tryCollect | poll | cancel | drop | clone => cases withdraws

theorem Abandons.isPending (abandons : s.Abandons s') : s'.pending = true := by
  obtain ⟨waker, polled, middle, cancelled, _, _, isIdle, isPending, begins, ends⟩ :=
    abandons.abandons
  have givesUp : s'.GivesUp := by
    apply ends.invariant (GivesUp.cancel isIdle isPending begins)
    intro state label result givesUp withdraws step
    exact givesUp.step withdraws step
  exact givesUp.isPending

end Lender

/-! ## The count and the waker -/

/-- Where the count, the references and the drops stand in a collection. -/
inductive Awaits (waker : W) : (count refs waking finishing : Nat) → Option W → Prop
  | waiting (refs : Nat) (room : 5 + 2 * refs < usizeRange) :
      Awaits waker (3 + 2 * refs) (refs + 1) 0 0 (some waker)
  | announced : Awaits waker 1 0 1 0 (some waker)
  | woken : Awaits waker 1 0 0 1 none
  | done : Awaits waker 2 0 0 0 none

/-- Where they stand with the bias of an idle lender.  The drop that was to wake
the owner takes its share of the count back before it gives it up. -/
inductive Restored (waker : W) : (count refs waking finishing : Nat) → Option W → Prop
  | quiet (refs : Nat) : Restored waker (3 + 2 * refs) refs 0 0 none
  | announced : Restored waker 5 0 1 0 (some waker)
  | woken : Restored waker 5 0 0 1 none

/-- The owner is between calls, or cancels a collection that is awaited. -/
def Owner.Cancels : Owner W → Prop
  | .idle | .cancelling .load | .cancelling .settle => True
  | .cancelling (.raise seen) => seen ≠ 1 ∧ seen ≠ 2
  | _ => False

namespace Lender

variable {s s' : Lender W} {label : Label W} {waker : W} {given : Prop}

/-- The numbers of a lender, of which the shape says how they go together. -/
def Stands (shape : (count refs waking finishing : Nat) → Option W → Prop) (s : Lender W) : Prop :=
  ∃ count refs waking finishing cell woken, shape count refs waking finishing cell ∧
    s.Holds count refs waking finishing cell woken

/-- What the drop of a handle does to the numbers. -/
theorem Holds.drops {count refs waking finishing index : Nat} {cell : Option W} {woken : List W}
    (holds : s.Holds count refs waking finishing cell woken) (enough : 0 < refs → 3 ≤ count)
    (drops : s.Drops index s') :
    0 < refs ∧
        s'.Holds (count - 2) (refs - 1) (if count = 3 then waking + 1 else waking) finishing cell
          woken ∨
      0 < waking ∧ s'.Holds count refs (waking - 1) (finishing + 1) none (woken ++ cell.toList) ∨
      0 < finishing ∧ count = 1 ∧ s'.Holds 2 refs waking (finishing - 1) cell woken ∨
      0 < finishing ∧ count ≠ 1 ∧ s'.Holds count (refs + 1) waking (finishing - 1) cell woken := by
  have balance := holds.count
  have subbed (isAlive : 0 < refs) : (s.inner.fetchSub 2).count = count - 2 := by
    have enough := enough isAlive
    have subbed : (s.inner.fetchSub 2).count = s.inner.count - 2 := wrappingSub_of_le (by omega)
    omega
  cases drops with
  | last found isZero =>
      have isAlive : 1 ≤ refs := (holds.found found).1
      have subbed := subbed isAlive
      have enough := enough isAlive
      omega
  | announce found isOne =>
      have isAlive : 1 ≤ refs := (holds.found found).1
      have subbed := subbed isAlive
      have enough := enough isAlive
      left
      refine ⟨isAlive, holds.moved found subbed holds.cell holds.woken ?_ ?_ rfl rfl⟩
      · simp only [Handle.alive, Bool.toNat_true, Bool.toNat_false]
        omega
      · rw [if_pos (by omega)]
        rfl
  | leave found other =>
      have isAlive : 1 ≤ refs := (holds.found found).1
      have subbed := subbed isAlive
      left
      refine ⟨isAlive, holds.moved found subbed holds.cell holds.woken ?_ ?_ rfl rfl⟩
      · simp only [Handle.alive, Bool.toNat_true, Bool.toNat_false]
        omega
      · rw [if_neg (by omega)]
        rfl
  | wake found =>
      have isWaking : 1 ≤ waking := (holds.found found).2.1
      right
      left
      refine ⟨isWaking, holds.moved found balance rfl ?_ rfl ?_ rfl rfl⟩
      · simp [Inner.wakeWaker, holds.cell, holds.woken]
      · simp only [Handle.waking, Bool.toNat_true, Bool.toNat_false]
        omega
  | finish found isOne =>
      have isFinishing : 1 ≤ finishing := (holds.found found).2.2.1
      right
      right
      left
      refine ⟨isFinishing, balance ▸ isOne,
        holds.moved found rfl holds.cell holds.woken rfl rfl ?_ rfl⟩
      simp only [Handle.finishing, Bool.toNat_true, Bool.toNat_false]
      omega
  | retry found other =>
      have isFinishing : 1 ≤ finishing := (holds.found found).2.2.1
      right
      right
      right
      refine ⟨isFinishing, balance ▸ other,
        holds.moved found balance holds.cell holds.woken rfl rfl ?_ rfl⟩
      simp only [Handle.finishing, Bool.toNat_true, Bool.toNat_false]
      omega
  | free found =>
      have isFreeing : 1 = 0 := (holds.found found).2.2.2
      omega

/-- Before the collection a drop is one of several, or one beside the owner. -/
theorem Holds.quiet_drop {refs index : Nat} {cell : Option W} {woken : List W}
    (holds : s.Holds (3 + 2 * refs) refs 0 0 cell woken) (drops : s.Drops index s') :
    ∃ refs', s'.Holds (3 + 2 * refs') refs' 0 0 cell woken ∧ refs' ≤ refs := by
  rcases holds.drops (by omega) drops with ⟨isAlive, holds⟩ | ⟨isWaking, _⟩ | ⟨isFinishing, _⟩ |
    ⟨isFinishing, _⟩
  · rw [if_neg (by omega), show 3 + 2 * refs - 2 = 3 + 2 * (refs - 1) by omega] at holds
    exact ⟨refs - 1, holds, Nat.sub_le refs 1⟩
  · omega
  · omega
  · omega

theorem Stands.awaits_drop {index : Nat} (stands : s.Stands (Awaits waker))
    (drops : s.Drops index s') : s'.Stands (Awaits waker) := by
  obtain ⟨count, refs, waking, finishing, cell, woken, awaits, holds⟩ := stands
  cases awaits with
  | waiting refs room =>
      rcases holds.drops (by omega) drops with ⟨isAlive, holds⟩ | ⟨isWaking, _⟩ | ⟨isFinishing, _⟩ |
        ⟨isFinishing, _⟩
      · cases refs with
        | zero => exact ⟨_, _, _, _, _, _, .announced, holds⟩
        | succ refs =>
            rw [if_neg (by omega), show 3 + 2 * (refs + 1) - 2 = 3 + 2 * refs by omega] at holds
            exact ⟨_, _, _, _, _, _, .waiting refs (by omega), holds⟩
      · omega
      · omega
      · omega
  | announced =>
      rcases holds.drops (by omega) drops with ⟨isAlive, _⟩ | ⟨_, holds⟩ | ⟨isFinishing, _⟩ |
        ⟨isFinishing, _⟩
      · omega
      · exact ⟨_, _, _, _, _, _, .woken, holds⟩
      · omega
      · omega
  | woken =>
      rcases holds.drops (by omega) drops with ⟨isAlive, _⟩ | ⟨isWaking, _⟩ | ⟨_, _, holds⟩ |
        ⟨_, other, _⟩
      · omega
      · omega
      · exact ⟨_, _, _, _, _, _, .done, holds⟩
      · exact absurd rfl other
  | done => exact absurd drops holds.still

theorem Stands.restored_drop {index : Nat} (stands : s.Stands (Restored waker))
    (drops : s.Drops index s') : s'.Stands (Restored waker) := by
  obtain ⟨count, refs, waking, finishing, cell, woken, restored, holds⟩ := stands
  cases restored with
  | quiet refs =>
      obtain ⟨refs', holds, _⟩ := holds.quiet_drop drops
      exact ⟨_, _, _, _, _, _, .quiet refs', holds⟩
  | announced =>
      rcases holds.drops (by omega) drops with ⟨isAlive, _⟩ | ⟨_, holds⟩ | ⟨isFinishing, _⟩ |
        ⟨isFinishing, _⟩
      · omega
      · exact ⟨_, _, _, _, _, _, .woken, holds⟩
      · omega
      · omega
  | woken =>
      rcases holds.drops (by omega) drops with ⟨isAlive, _⟩ | ⟨isWaking, _⟩ | ⟨_, isOne, _⟩ |
        ⟨_, _, holds⟩
      · omega
      · omega
      · cases isOne
      · exact ⟨_, _, _, _, _, _, .quiet 1, holds⟩

/-- Where the poll of a collection stands, and its cancellation once it is
given up. -/
inductive Withdraws (given : Prop) (waker : W) (s : Lender W) : Prop
  | starting (early : ¬ given)
      (isOwner : s.owner = .polling (.startLoad waker) ∨ s.owner = .polling (.startStore waker))
      (unpended : s.pending = false) (refs : Nat) (room : 3 + 2 * refs < usizeRange)
      (woken : List W) (holds : s.Holds (3 + 2 * refs) refs 0 0 none woken)
  | stored (early : ¬ given) (isOwner : s.owner = .polling .startSub) (unpended : s.pending = false)
      (refs : Nat) (room : 3 + 2 * refs < usizeRange) (woken : List W)
      (holds : s.Holds (3 + 2 * refs) refs 0 0 (some waker) woken)
  /-- There was no reference to wait for. -/
  | answered (isOwner : s.owner = .polling .startClear ∨ s.owner = .polling .startSwap ∨
      s.owner = .idle) (unpended : s.pending = false)
  | awaits (isOwner : s.owner.Cancels) (able : s.owner = .idle ↔ ¬ given)
      (isPending : s.pending = true) (stands : s.Stands (Awaits waker))
  /-- The owner has found the collection finished. -/
  | finished (isGiven : given) (isOwner : s.owner = .cancelling .swap)
    (isPending : s.pending = true)
      (woken : List W) (holds : s.Holds 2 0 0 0 none woken)
  /-- The owner has a reference of its own. -/
  | clearing (isGiven : given) (isOwner : s.owner = .cancelling .clear)
    (isPending : s.pending = true)
      (refs : Nat) (woken : List W) (holds : s.Holds (3 + 2 * refs) refs 0 0 (some waker) woken)
  | restored (isGiven : given) (isOwner : s.owner = .idle) (isPending : s.pending = true)
      (stands : s.Stands (Restored waker))

theorem Withdraws.handle_step {index : Nat} (withdraws : s.Withdraws given waker)
    (step : s.handleStep index = some s') : s'.Withdraws given waker := by
  have drops := drops_of_handleStep step
  have sameOwner : s'.owner = s.owner := by cases drops <;> rfl
  have samePending : s'.pending = s.pending := by cases drops <;> rfl
  cases withdraws with
  | starting early isOwner unpended refs room woken holds =>
      obtain ⟨refs', holds, less⟩ := holds.quiet_drop drops
      exact .starting early (sameOwner ▸ isOwner) (samePending.trans unpended) refs'
        (by omega) woken holds
  | stored early isOwner unpended refs room woken holds =>
      obtain ⟨refs', holds, less⟩ := holds.quiet_drop drops
      exact .stored early (sameOwner.trans isOwner) (samePending.trans unpended) refs'
        (by omega) woken holds
  | answered isOwner unpended =>
      exact .answered (sameOwner ▸ isOwner) (samePending.trans unpended)
  | awaits isOwner able isPending stands =>
      exact .awaits (sameOwner ▸ isOwner) (sameOwner ▸ able) (samePending.trans isPending)
        (stands.awaits_drop drops)
  | finished _ _ _ _ holds => exact absurd drops holds.still
  | clearing isGiven isOwner isPending refs woken holds =>
      obtain ⟨refs', holds, less⟩ := holds.quiet_drop drops
      exact .clearing isGiven (sameOwner.trans isOwner)
        (samePending.trans isPending) refs' woken holds
  | restored isGiven isOwner isPending stands =>
      exact .restored isGiven (sameOwner.trans isOwner) (samePending.trans isPending)
        (stands.restored_drop drops)

/-- The loop of `cancel_poll` goes on with the count it has read. -/
theorem Withdraws.looped (isGiven : given) (isPending : s.pending = true)
    (stands : s.Stands (Awaits waker))
    (step : (match (s.inner.access, CancelPc.loop true s.inner.count) with
      | (inner, .goto pc) => some { s with inner, owner := .cancelling pc }
      | (inner, .ret (.done _)) => some { s with inner, owner := .idle }
      | (inner, .ret .panic) => some { s with inner := inner.panic, owner := .idle }) = some s') :
    s'.Withdraws given waker := by
  obtain ⟨count, refs, waking, finishing, cell, woken, awaits, holds⟩ := id stands
  have accessed (pc : CancelPc) : ({ s with
      inner := s.inner.access, owner := .cancelling pc } : Lender W).Stands (Awaits waker) :=
    ⟨count, refs, waking, finishing, cell, woken, awaits,
      holds.of_same rfl holds.count holds.cell holds.woken⟩
  simp only [CancelPc.loop, if_true] at step
  split_ifs at step with isTwo isOne
  · obtain rfl := Option.some.inj step
    have balance := holds.count
    rw [isTwo] at balance
    cases awaits with
    | done =>
        exact .finished isGiven rfl isPending woken
          (holds.of_same rfl isTwo holds.cell holds.woken)
    | waiting refs => omega
    | announced | woken => cases balance
  · obtain rfl := Option.some.inj step
    exact .awaits trivial (by simp [isGiven]) isPending (accessed _)
  · obtain rfl := Option.some.inj step
    exact .awaits ⟨isOne, isTwo⟩ (by simp [isGiven]) isPending (accessed _)

theorem Withdraws.cancel_step {spurious : Bool} {pc : CancelPc} (isGiven : given)
    (isOwner : s.owner = .cancelling pc) (cancels : s.owner.Cancels) (isPending : s.pending = true)
    (stands : s.Stands (Awaits waker))
    (step : s.ownerStep spurious = some s') : s'.Withdraws given waker := by
  rw [isOwner] at cancels
  cases pc with
  | swap | clear => exact cancels.elim
  | load =>
      simp only [ownerStep, isOwner, CancelPc.step] at step
      exact looped isGiven isPending stands step
  | settle =>
      by_cases exchanged : s.inner.count = 1 ∧ !spurious
      · simp only [ownerStep, isOwner, CancelPc.step, if_pos exchanged, if_true] at step
        obtain rfl := Option.some.inj step
        obtain ⟨count, refs, waking, finishing, cell, woken, awaits, holds⟩ := stands
        have balance := holds.count
        rw [exchanged.1] at balance
        refine .restored isGiven rfl isPending ?_
        cases awaits with
        | announced =>
            exact ⟨_, _, _, _, _, _, .announced, holds.of_same rfl rfl holds.cell holds.woken⟩
        | woken => exact ⟨_, _, _, _, _, _, .woken, holds.of_same rfl rfl holds.cell holds.woken⟩
        | waiting refs => omega
        | done => cases balance
      · simp only [ownerStep, isOwner, CancelPc.step, if_neg exchanged] at step
        exact looped isGiven isPending stands step
  | raise seen =>
      by_cases exchanged : s.inner.count = seen ∧ !spurious
      · simp only [ownerStep, isOwner, CancelPc.step, if_pos exchanged] at step
        obtain rfl := Option.some.inj step
        obtain ⟨count, refs, waking, finishing, cell, woken, awaits, holds⟩ := stands
        have balance := holds.count
        obtain ⟨notOne, notTwo⟩ := cancels
        cases awaits with
        | waiting refs room =>
            have isSeen : seen = 3 + 2 * refs := by omega
            have raised : wrappingAdd seen 2 = 3 + 2 * (refs + 1) := by
              rw [isSeen, wrappingAdd_of_lt (by omega)]
              omega
            exact .clearing isGiven rfl isPending (refs + 1) woken
              (holds.of_same rfl raised holds.cell holds.woken)
        | announced | woken => omega
        | done => omega
      · simp only [ownerStep, isOwner, CancelPc.step, if_neg exchanged] at step
        exact looped isGiven isPending stands step

theorem Withdraws.owner_step {spurious : Bool} (withdraws : s.Withdraws given waker)
    (step : s.ownerStep spurious = some s') : s'.Withdraws given waker := by
  cases withdraws with
  | starting early isOwner unpended refs room woken holds =>
      rcases isOwner with isOwner | isOwner
      · by_cases isThree : s.inner.count = 3
        · simp only [ownerStep, isOwner, PollPc.step, if_pos isThree] at step
          obtain rfl := Option.some.inj step
          exact .answered (.inr (.inr rfl)) rfl
        · simp only [ownerStep, isOwner, PollPc.step, if_neg isThree] at step
          obtain rfl := Option.some.inj step
          exact .starting early (.inr rfl) unpended refs room woken
            (holds.of_same rfl holds.count holds.cell holds.woken)
      · simp only [ownerStep, isOwner, PollPc.step] at step
        obtain rfl := Option.some.inj step
        exact .stored early rfl unpended refs room woken
          (holds.of_same rfl holds.count rfl holds.woken)
  | stored early isOwner unpended refs room woken holds =>
      have isSub : (s.inner.fetchSub 2).count = 1 + 2 * refs := by
        have balance := holds.count
        have subbed : (s.inner.fetchSub 2).count = s.inner.count - 2 :=
          wrappingSub_of_le (by omega)
        omega
      simp only [ownerStep, isOwner, PollPc.step, isSub] at step
      cases refs with
      | zero =>
          obtain rfl := Option.some.inj step
          exact .answered (.inl rfl) unpended
      | succ refs =>
          rw [if_neg (by omega)] at step
          obtain rfl := Option.some.inj step
          have isSub : (s.inner.fetchSub 2).count = 3 + 2 * refs := by omega
          exact .awaits trivial (by simp [early]) rfl ⟨_, _, _, _, _, _, .waiting refs (by omega),
            holds.of_same rfl isSub holds.cell holds.woken⟩
  | answered isOwner unpended =>
      rcases isOwner with isOwner | isOwner | isOwner
      · simp only [ownerStep, isOwner, PollPc.step] at step
        obtain rfl := Option.some.inj step
        exact .answered (.inr (.inl rfl)) unpended
      · by_cases isOne : s.inner.count = 1
        · simp only [ownerStep, isOwner, PollPc.step, if_pos isOne] at step
          obtain rfl := Option.some.inj step
          exact .answered (.inr (.inr rfl)) rfl
        · simp only [ownerStep, isOwner, PollPc.step, if_neg isOne] at step
          obtain rfl := Option.some.inj step
          exact .answered (.inr (.inr rfl)) unpended
      · simp [ownerStep, isOwner] at step
  | awaits isOwner able isPending stands =>
      cases isCancel : s.owner with
      | cancelling pc =>
          have isGiven : given := by simpa [isCancel] using able
          exact cancel_step isGiven isCancel isOwner isPending stands step
      | idle => simp [ownerStep, isCancel] at step
      | trying | polling | closing | dropping | freeing | gone =>
          rw [isCancel] at isOwner
          exact isOwner.elim
  | finished isGiven isOwner isPending woken holds =>
      simp only [ownerStep, isOwner, CancelPc.step, if_pos holds.count] at step
      obtain rfl := Option.some.inj step
      exact .restored isGiven rfl isPending
        ⟨_, _, _, _, _, _, .quiet 0, holds.of_same rfl rfl holds.cell holds.woken⟩
  | clearing isGiven isOwner isPending refs woken holds =>
      simp only [ownerStep, isOwner, CancelPc.step] at step
      obtain rfl := Option.some.inj step
      exact .restored isGiven rfl isPending
        ⟨_, _, _, _, _, _, .quiet refs, holds.of_same rfl holds.count rfl holds.woken⟩
  | restored _ isOwner => simp [ownerStep, isOwner] at step

theorem Withdraws.release {index : Nat} (withdraws : s.Withdraws given waker)
    (found : s.handles[index]? = some .held) :
    ({ s with handles := s.handles.set index (.dropping .sub) } : Lender W).Withdraws
    given waker := by
  have same {count refs waking finishing : Nat} {cell : Option W} {woken : List W}
      (holds : s.Holds count refs waking finishing cell woken) :
      ({ s with handles := s.handles.set index (.dropping .sub) } : Lender W).Holds
        count refs waking finishing cell woken :=
    holds.moved found holds.count holds.cell holds.woken rfl rfl rfl rfl
  cases withdraws with
  | starting early isOwner unpended refs room woken holds =>
      exact .starting early isOwner unpended refs room woken (same holds)
  | stored early isOwner unpended refs room woken holds =>
      exact .stored early isOwner unpended refs room woken (same holds)
  | answered isOwner unpended => exact .answered isOwner unpended
  | awaits isOwner able isPending stands =>
      obtain ⟨_, _, _, _, _, _, awaits, holds⟩ := stands
      exact .awaits isOwner able isPending ⟨_, _, _, _, _, _, awaits, same holds⟩
  | finished isGiven isOwner isPending woken holds =>
      exact .finished isGiven isOwner isPending woken (same holds)
  | clearing isGiven isOwner isPending refs woken holds =>
      exact .clearing isGiven isOwner isPending refs woken (same holds)
  | restored isGiven isOwner isPending stands =>
      obtain ⟨_, _, _, _, _, _, restored, holds⟩ := stands
      exact .restored isGiven isOwner isPending ⟨_, _, _, _, _, _, restored, same holds⟩

theorem Withdraws.step (withdraws : s.Withdraws given waker) (allowed : label.withdraws = true)
    (step : Lender.step s label = some s') : s'.Withdraws given waker := by
  cases label with
  | owner spurious => exact withdraws.owner_step step
  | handle index => exact withdraws.handle_step step
  | release index =>
      simp only [Lender.step] at step
      split at step
      · rename_i found
        obtain rfl := Option.some.inj step
        exact withdraws.release found
      · cases step
  | borrow | tryCollect | poll | cancel | drop | clone => cases allowed

/-- After the cancellation the count is that of an idle lender, and the drop that
was to wake the owner brings its waker along. -/
theorem Abandons.restored {refs : Nat} {woken : List W} (idle : s.Idle)
    (fits : s.inner.count < usizeRange) (holds : s.Holds (3 + 2 * refs) refs 0 0 none woken)
    (abandons : s.Abandons s') : ∃ waker, s'.Stands (Restored waker) := by
  obtain ⟨waker, polled, middle, cancelled, begins, waits, isIdle, isPending, gives, ends⟩ :=
    abandons.abandons
  have started : polled.Withdraws False waker := by
    simp only [Lender.step, idle.between, Lender.call, idle.unpended, Bool.false_eq_true,
      if_false] at begins
    obtain rfl := Option.some.inj begins
    exact .starting id (.inl rfl) rfl refs (holds.count ▸ fits) woken
      (holds.of_same rfl holds.count holds.cell holds.woken)
  have waited : middle.Withdraws False waker := by
    apply waits.invariant started
    intro state label result withdraws allowed step
    exact withdraws.step allowed step
  have given : cancelled.Withdraws True waker := by
    simp only [Lender.step, isIdle, Lender.call, isPending, if_true] at gives
    obtain rfl := Option.some.inj gives
    cases waited with
    | awaits _ _ _ stands =>
        obtain ⟨_, _, _, _, _, _, awaits, holds⟩ := stands
        exact .awaits trivial (by simp) rfl ⟨_, _, _, _, _, _, awaits,
          holds.of_same rfl holds.count holds.cell holds.woken⟩
    | starting _ _ unpended | stored _ _ unpended | answered _ unpended =>
        rw [isPending] at unpended
        cases unpended
    | finished isGiven | clearing isGiven | restored isGiven => exact isGiven.elim
  have ended : s'.Withdraws True waker := by
    apply ends.invariant given
    intro state label result withdraws allowed step
    exact withdraws.step allowed step
  have isPending' := abandons.isPending
  have returned := abandons.returned
  refine ⟨waker, ?_⟩
  cases ended with
  | restored _ _ _ stands => exact stands
  | awaits _ able => exact absurd trivial (able.mp returned)
  | starting early | stored early => exact absurd trivial early
  | answered _ unpended =>
      rw [isPending'] at unpended
      cases unpended
  | finished _ isOwner | clearing _ isOwner =>
      rw [returned] at isOwner
      cases isOwner

/-- Between the calls of the handles too, the count and the waker are those of an
idle lender. -/
theorem Stands.at_rest (stands : s.Stands (Restored waker))
    (rests : ∀ handle ∈ s.handles, handle.resting = true) :
    s.inner.count = 3 + 2 * s.alive ∧ s.inner.waker = none := by
  obtain ⟨count, refs, waking, finishing, cell, woken, restored, holds⟩ := stands
  have quiet (weight : Handle → Nat) (less : ∀ handle, weight handle ≤ handle.notifying.toNat) :
      tally weight s.handles = 0 := by
    have isQuiet : tally (fun handle => handle.notifying.toNat) s.handles = 0 :=
      (quiet_of_resting rests).1
    exact Nat.le_zero.mp (isQuiet ▸ tally_mono less s.handles)
  have unwaking : s.waking = 0 := by
    apply quiet
    intro handle
    cases handle with
    | dropping pc => cases pc <;> simp [Handle.waking, Handle.notifying]
    | held | freeing | gone => exact le_rfl
  have unfinishing : s.finishing = 0 := by
    apply quiet
    intro handle
    cases handle with
    | dropping pc => cases pc <;> simp [Handle.finishing, Handle.notifying]
    | held | freeing | gone => exact le_rfl
  cases restored with
  | quiet refs => exact ⟨by rw [holds.count, holds.refs], holds.cell⟩
  | announced =>
      have isWaking := holds.waking
      omega
  | woken =>
      have isFinishing := holds.finishing
      omega

/-! ## Later calls -/

/-- The whole drop of a reference that is not the last. -/
theorem run_drop {index : Nat} (found : s.handles[index]? = some .held)
    (many : 4 ≤ s.inner.count) :
    runFrom Lender.step s [.release index, .handle index] =
      some { s with inner := s.inner.fetchSub 2, handles := s.handles.set index .gone } := by
  have subbed : (s.inner.fetchSub 2).count = s.inner.count - 2 := wrappingSub_of_le (by omega)
  have isIndex : index < s.handles.length := (List.getElem?_eq_some_iff.mp found).1
  have isDropping : (s.handles.set index (.dropping .sub))[index]? = some (.dropping .sub) := by
    simp [isIndex]
  have notZero : ¬ (s.inner.fetchSub 2).count = 0 := by omega
  have notOne : ¬ (s.inner.fetchSub 2).count = 1 := by omega
  have released : Lender.step s (.release index) =
      some { s with handles := s.handles.set index (.dropping .sub) } := by
    simp only [Lender.step, found]
  have left : Lender.step { s with handles := s.handles.set index (.dropping .sub) }
    (.handle index) =
      some { s with inner := s.inner.fetchSub 2, handles := s.handles.set index .gone } := by
    simp only [Lender.step, handleStep, isDropping, DropPc.step, if_neg notZero, if_neg notOne,
      Bool.false_eq_true, if_false, List.set_set]
  rw [runFrom_cons, released, Option.bind_some, runFrom_cons, left]
  rfl

theorem answers_append {labels later : List (Label W)}
    (run : runFrom Lender.step s labels = some s')
    (same : s'.grants = s.grants) : s.answers (labels ++ later) = s'.answers later := by
  simp [answers, runFrom_append, run, same]

/-- With every reference dropped, a lender hands out its value unless it calls
its collection pending. -/
theorem tells_apart (refs : Nat) {s t : Lender W} (between : s.owner = .idle)
    (between' : t.owner = .idle) (isPending : s.pending = true) (unpended : t.pending = false)
    (balance : s.inner.count = 3 + 2 * refs) (balance' : t.inner.count = 3 + 2 * refs)
    (isAlive : s.alive = refs) (same : t.handles = s.handles)
    (rests : ∀ handle ∈ s.handles, handle.resting = true) :
    ∃ labels, s.answers labels = some 0 ∧ t.answers labels = some 1 := by
  induction refs generalizing s t with
  | zero =>
      refine ⟨[.tryCollect, .owner false], ?_, ?_⟩
      · simp [answers, runFrom, Lender.step, between, Lender.call, ownerStep, TryPc.step, isPending,
          balance]
      · simp [answers, runFrom, Lender.step, between', Lender.call, ownerStep, TryPc.step, unpended,
          balance', grant]
  | succ refs ih =>
      have isSome : 0 < tally (fun handle : Handle => handle.alive.toNat) s.handles := by
        have isAlive : tally (fun handle : Handle => handle.alive.toNat) s.handles = refs + 1 :=
          isAlive
        omega
      obtain ⟨handle, isHandle, held⟩ := exists_of_tally_pos isSome
      obtain ⟨index, found⟩ := List.mem_iff_getElem?.mp isHandle
      have isHeld : handle = .held := by
        have resting := rests handle isHandle
        cases handle with
        | held => rfl
        | gone => cases held
        | dropping | freeing => cases resting
      rw [isHeld] at found
      have found' : t.handles[index]? = some .held := same ▸ found
      have drops := run_drop found (by omega)
      have drops' := run_drop found' (by omega)
      have subbed : (s.inner.fetchSub 2).count = s.inner.count - 2 := wrappingSub_of_le (by omega)
      have subbed' : (t.inner.fetchSub 2).count = t.inner.count - 2 := wrappingSub_of_le (by omega)
      have fewer := alive_moved found .gone (s.inner.fetchSub 2)
      obtain ⟨labels, answered, answered'⟩ := ih
        (s := { s with inner := s.inner.fetchSub 2, handles := s.handles.set index .gone })
        (t := { t with inner := t.inner.fetchSub 2, handles := t.handles.set index .gone })
        between between' isPending unpended (subbed.trans (by omega)) (subbed'.trans (by omega))
        (by simp only [Handle.alive, Bool.toNat_true, Bool.toNat_false] at fewer; omega)
        (by simp only [same])
        (forall_moved rests rfl)
      refine ⟨[.release index, .handle index] ++ labels, ?_, ?_⟩
      · rw [answers_append drops rfl, answered]
      · rw [answers_append drops' rfl, answered']

end Lender

/-- A lender whose collection was abandoned is not idle again, whatever
references were dropped meanwhile. -/
theorem abandon_affects {s s' : Lender W} (abandons : s.Abandons s') : ¬ s'.Unaffected := by
  intro unaffected
  have unpended := unaffected.idle.unpended
  rw [abandons.isPending] at unpended
  cases unpended

/-- The count and the waker are those of an idle lender, but `get_mut` goes on
refusing the value. -/
theorem abandon_tells {s s' : Lender W} {refs : Nat} {woken : List W} (idle : s.Idle)
    (fits : s.inner.count < usizeRange) (holds : s.Holds (3 + 2 * refs) refs 0 0 none woken)
    (abandons : s.Abandons s') (rests : ∀ handle ∈ s'.handles, handle.resting = true) :
    s'.inner.count = 3 + 2 * s'.alive ∧ s'.inner.waker = none ∧
      ∀ t : Lender W, t.Idle → t.handles = s'.handles → ¬ s'.SameAnswers t := by
  obtain ⟨waker, stands⟩ := abandons.restored idle fits holds
  obtain ⟨balance, empty⟩ := stands.at_rest rests
  refine ⟨balance, empty, ?_⟩
  intro t idle' same sameAnswers
  have balance' : t.inner.count = 3 + 2 * s'.alive := by
    rw [idle'.balance, Lender.alive, same, Lender.alive]
  obtain ⟨labels, answered, answered'⟩ := Lender.tells_apart s'.alive abandons.returned
    idle'.between abandons.isPending idle'.unpended balance balance' rfl same rests
  have told := sameAnswers labels
  rw [answered, answered'] at told
  cases told

/-- A collection of one reference, abandoned with the reference still there. -/
theorem abandons_of_one : Lender.Abandons (W := Nat) { inner := { count := 5 }, handles := [.held] }
    { inner := { count := 5, discarded := [0] }, pending := true, handles := [.held] } := by
  refine ⟨⟨0, { inner := { count := 5 }, owner := .polling (.startLoad 0), handles := [.held] },
    { inner := { count := 3, waker := some 0 }, pending := true, handles := [.held] },
    { inner := { count := 3, waker := some 0 }, pending := true, owner := .cancelling .load,
      handles := [.held] }, rfl, ?_, rfl, rfl, rfl, ?_⟩, rfl⟩
  · have waits : runFrom (guarded Lender.step fun _ label => label.withdraws)
        { inner := { count := 5 }, owner := .polling (.startLoad 0), handles := [.held] }
        [.owner false, .owner false, .owner false] =
        some { inner := { count := 3, waker := some 0 }, pending := true, handles := [.held] } := by
      decide +kernel
    exact reachableUnder_of_runFrom waits
  · have ends : runFrom (guarded Lender.step fun _ label => label.withdraws)
        { inner := { count := 3, waker := some 0 }, pending := true, owner := .cancelling .load,
          handles := [.held] }
        [.owner false, .owner false, .owner false] =
        some { inner := { count := 5, discarded := [0] }, pending := true,
               handles := [.held] } := by
      decide +kernel
    exact reachableUnder_of_runFrom ends

theorem abandon_affects_one : ∃ s : Lender Nat, s.inner.count = 5 ∧ ¬ s.Unaffected :=
  ⟨_, rfl, abandon_affects abandons_of_one⟩

/-- After an abandoned collection of a lender with one reference, which is dropped
then, `get_mut` answers `None`. -/
theorem abandon_noticed : ¬ ∀ s s' : Lender Nat, Reachable Lender.step Lender.init s → s.Idle →
    s.Abandons s' → s'.Unaffected := by
  intro always
  have ran : runFrom Lender.step (Lender.init : Lender Nat) [.borrow] =
      some { inner := { count := 5 }, handles := [.held] } := by
    decide +kernel
  have idle : Lender.Idle (W := Nat) { inner := { count := 5 }, handles := [.held] } :=
    ⟨rfl, rfl, rfl, rfl⟩
  have unaffected := always _ _ (reachable_of_runFrom ran) idle abandons_of_one
  have same := unaffected.same _ idle rfl [.release 0, .handle 0, .tryCollect, .owner false]
  revert same
  decide +kernel

end Suspend.Shared
