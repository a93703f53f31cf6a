import Suspend.Shared.Exclusive
import Suspend.Shared.FirstPoll

/-!
# A value shared from the stack

`PinShared::with` lends its value to a function and collects it afterwards.  It
makes one collection, which it never cancels, and it is not dropped during it,
so that the value comes back only with every `Scoped` handle gone.
-/

namespace Suspend.Shared

open Suspend.Transition

universe v

variable {W : Type v}

/-- The owner is between the accesses of `CollectOnDrop`, or at one. -/
def Owner.Attends : Owner W → Prop
  | idle | trying _ | polling _ => True
  | _ => False

theorem Owner.Attends.remains {owner : Owner W} (attends : owner.Attends) : ¬ owner.Leaving := by
  intro leaving
  cases owner with
  | idle | trying | polling => exact leaving
  | cancelling | closing | dropping | freeing | gone => exact attends

namespace Lender

/-- The calls of `PinShared::with` and of the handles.  It collects until it has
the value back. -/
def scopedCall (s : Lender W) : Label W → Bool
  | .clone _ | .release _ | .handle _ | .owner _ => true
  | .tryCollect | .poll _ => s.grants = []
  | _ => false

/-- The count of the references does not overflow. -/
def uncrowded (s : Lender W) : Label W → Bool
  | .clone index => s.careful (.clone index)
  | .owner spurious => s.careful (.owner spurious)
  | _ => true

/-- The owner has the value back: `resume_poll` leaves the count at 2, and every
other way sets it to 3. -/
structure Collected (s : Lender W) : Prop where
  isIdle : s.owner = .idle
  unpended : s.pending = false
  balance : s.inner.count = 3 ∨ s.inner.count = 2
  gone : ∀ handle ∈ s.handles, handle = .gone

/-- A value that is collected once is handed back only with every handle gone. -/
structure Pinned (s : Lender W) : Prop where
  exclusive : s.Exclusive
  attends : s.owner.Attends
  unburdened : .freeing ∉ s.handles
  given : s.grants ≠ [] → s.Collected

variable {s s' : Lender W} {label : Label W}

/-! ## Handles -/

/-- While the owner attends, no drop takes the count to zero. -/
theorem Exclusive.nonzero {index : Nat} (exclusive : s.Exclusive) (remains : ¬ s.owner.Leaving)
    (found : s.handles[index]? = some (.dropping .sub)) : (s.inner.fetchSub 2).count ≠ 0 := by
  obtain ⟨⟨refs, lent, phase⟩, _, _⟩ := exclusive
  have isAlive : 1 ≤ s.alive := alive_of_found found
  obtain ⟨enough, more, _⟩ := phase.sub (isAlive.trans lent) remains
  have subbed : (s.inner.fetchSub 2).count = s.inner.count - 2 := wrappingSub_of_le enough
  rw [subbed]
  exact more

/-- The drop of a `Scoped` handle that leaves some count is that of a `Shared`. -/
theorem handleStep_of_scoped {index : Nat}
    (nonzero : s.handles[index]? = some (.dropping .sub) → (s.inner.fetchSub 2).count ≠ 0)
    (step : PinShared.handleStep index s = some s') : s.handleStep index = some s' := by
  unfold PinShared.handleStep at step
  split at step
  · rename_i pc found
    split at step
    · rename_i inner next isStep
      simp only [handleStep, found, isStep]
      exact step
    · rename_i inner last isStep
      have unlast : last = false := by
        cases pc with
        | sub =>
            simp only [DropPc.step, if_neg (nonzero found)] at isStep
            split at isStep <;> cases isStep
            rfl
        | wake => cases isStep
        | exchange =>
            simp only [DropPc.step] at isStep
            split at isStep <;> cases isStep
            rfl
      simp only [handleStep, found, isStep, unlast, Bool.false_eq_true, if_false]
      exact step
  · cases step

/-- Then it frees nothing. -/
theorem Pinned.drops {index : Nat} (pinned : s.Pinned)
    (step : PinShared.handleStep index s = some s') :
    s.handleStep index = some s' ∧ ∃ (source : DropPc) (target : Handle) (inner : Inner W),
      s.handles[index]? = some (.dropping source) ∧ target ≠ .freeing ∧
        s' = { s with inner, handles := s.handles.set index target } := by
  constructor
  · exact handleStep_of_scoped (pinned.exclusive.nonzero pinned.attends.remains) step
  · unfold PinShared.handleStep at step
    split at step
    · rename_i pc found
      split at step
      · rename_i inner next isStep
        obtain rfl := Option.some.inj step
        exact ⟨pc, .dropping next, inner, found, Handle.noConfusion, rfl⟩
      · rename_i inner last isStep
        obtain rfl := Option.some.inj step
        exact ⟨pc, .gone, inner, found, Handle.noConfusion, rfl⟩
    · cases step

/-- The drop of a `Shared` is in turn that of a `Scoped` handle. -/
theorem Pinned.drops_shared {index : Nat} (pinned : s.Pinned)
    (step : s.handleStep index = some s') :
    PinShared.handleStep index s = some s' := by
  unfold handleStep at step
  split at step
  · rename_i pc found
    split at step
    · rename_i inner next isStep
      simp only [PinShared.handleStep, found, isStep]
      exact step
    · rename_i inner last isStep
      have shared : PinShared.handleStep index s =
          some { s with inner, handles := s.handles.set index .gone } := by
        simp only [PinShared.handleStep, found, isStep]
      have same := (pinned.drops shared).1
      simp only [handleStep, found, isStep] at same
      rw [shared, ← same]
      exact step
  · rename_i found
    exact absurd (List.mem_of_getElem? found) pinned.unburdened
  · cases step

theorem Pinned.shared (pinned : s.Pinned) (step : Lender.step s label = some s') :
    PinShared.step s label = some s' := by
  cases label with
  | handle index => exact pinned.drops_shared step
  | borrow | tryCollect | poll | cancel | drop | owner | clone | release => exact step

/-- With no share of the count left, and no drop about to wake the owner, every
handle is gone. -/
theorem gone_of_quiet (unlent : s.alive = 0) (quiet : s.notifying = 0)
    (unburdened : .freeing ∉ s.handles) : ∀ handle ∈ s.handles, handle = .gone := by
  intro handle isHandle
  have dead : handle.alive.toNat ≤ s.alive := le_tally (fun handle => handle.alive.toNat) isHandle
  have still : handle.notifying.toNat ≤ s.notifying :=
    le_tally (fun handle => handle.notifying.toNat) isHandle
  rw [unlent] at dead
  rw [quiet] at still
  cases handle with
  | held => cases dead
  | dropping pc =>
      cases pc with
      | sub => cases dead
      | wake | exchange => cases still
  | freeing => exact absurd isHandle unburdened
  | gone => rfl

/-! ## The owner -/

/-- An access of the owner leaves the handles, and may hand out the value. -/
theorem owner_hands {spurious : Bool} (attends : s.owner.Attends)
    (step : s.ownerStep spurious = some s') :
    s'.owner.Attends ∧ s'.handles = s.handles ∧
      (s'.grants = s.grants ∨
        s'.owner = .idle ∧ s'.pending = false ∧ s'.grants = s.grants ++ [s.alive]) := by
  unfold ownerStep at step
  split at step
  · cases step
  · cases step
  · split at step <;> obtain rfl := Option.some.inj step
    · exact ⟨trivial, rfl, .inl rfl⟩
    · exact ⟨trivial, rfl, .inr ⟨rfl, rfl, rfl⟩⟩
    · exact ⟨trivial, rfl, .inl rfl⟩
    · exact ⟨trivial, rfl, .inl rfl⟩
  · split at step <;> obtain rfl := Option.some.inj step
    · exact ⟨trivial, rfl, .inl rfl⟩
    · exact ⟨trivial, rfl, .inr ⟨rfl, rfl, rfl⟩⟩
    · exact ⟨trivial, rfl, .inl rfl⟩
    · exact ⟨trivial, rfl, .inl rfl⟩
  · rename_i isOwner
    rw [isOwner] at attends
    exact attends.elim
  · rename_i isOwner
    rw [isOwner] at attends
    exact attends.elim
  · rename_i isOwner
    rw [isOwner] at attends
    exact attends.elim
  · rename_i isOwner
    rw [isOwner] at attends
    exact attends.elim

/-- A value just handed out has left every handle gone. -/
theorem Exclusive.gone_of_grant (exclusive : s.Exclusive) (isIdle : s.owner = .idle)
    (unpended : s.pending = false) (granted : s.alive ∈ s.grants)
    (unburdened : .freeing ∉ s.handles) : ∀ handle ∈ s.handles, handle = .gone := by
  obtain ⟨⟨refs, _, phase⟩, _, grants⟩ := exclusive
  have unlent : s.alive = 0 := grants s.alive granted
  have quiet : s.notifying = 0 := by
    rw [isIdle, unpended] at phase
    generalize s.notifying = notifying, s.inner.count = count at phase ⊢
    cases phase with
    | idle | done => rfl
    | settling settling => exact settling.elim
    | left leaving => exact leaving.elim
  exact gone_of_quiet unlent quiet unburdened

/-- Before the collection the owner has its own share of the count. -/
theorem Pinned.idle_balance (pinned : s.Pinned) (isIdle : s.owner = .idle)
    (unpended : s.pending = false) (ungranted : s.grants = []) :
    ∃ refs, s.inner.count = 3 + 2 * refs := by
  obtain ⟨⟨refs, _, phase⟩, _, _⟩ := pinned.exclusive
  rw [isIdle, unpended] at phase
  generalize s.notifying = notifying, s.inner.count = count at phase ⊢
  cases phase with
  | idle _ balance => exact ⟨refs, balance⟩
  | settling settling => exact settling.elim
  | done isGranted => exact absurd ungranted isGranted
  | left leaving => exact leaving.elim

/-- A collection begins on the count of an idle lender. -/
theorem Pinned.careful {waker : W} (pinned : s.Pinned) (isIdle : s.owner = .idle)
    (ungranted : s.grants = []) : s.careful (.poll waker) = true := by
  cases isPending : s.pending with
  | true => simp [Lender.careful, isPending]
  | false =>
      obtain ⟨refs, balance⟩ := pinned.idle_balance isIdle isPending ungranted
      have odd : s.inner.count % 2 = 1 := by omega
      simp [Lender.careful, odd]

/-! ## Runs -/

theorem Pinned.init : (Lender.init : Lender W).Pinned where
  exclusive := Exclusive.init
  attends := trivial
  unburdened := by simp [Lender.init]
  given := by simp [Lender.init]

/-- A new reference leaves the owner alone. -/
theorem lend_owner (s : Lender W) :
    s.lend.owner = s.owner ∧ s.lend.pending = s.pending ∧ s.lend.grants = s.grants := by
  simp only [Lender.lend]
  split <;> exact ⟨rfl, rfl, rfl⟩

/-- A new reference. -/
theorem Pinned.lend (pinned : s.Pinned)
    (able : s.owner = .idle ∧ (s.inner.count = 1 → s.notifying = 0) ∨ 0 < s.alive)
    (room : s.inner.count + 2 < usizeRange) (ungranted : s.grants = []) : s.lend.Pinned := by
  obtain ⟨exclusive, attends, unburdened, _⟩ := pinned
  refine ⟨exclusive.lend able room, ?_, ?_, ?_⟩
  · simp only [Lender.lend]
    split <;> exact attends
  · simp only [Lender.lend]
    split
    · simpa using unburdened
    · exact unburdened
  · intro granted
    rw [s.lend_owner.2.2] at granted
    exact absurd ungranted granted

/-- The count with which the value is handed out. -/
theorem Pinned.balance {spurious : Bool} (pinned : s.Pinned)
    (room : s.careful (.owner spurious) = true) (step : s.ownerStep spurious = some s')
    (ungranted : s.grants = []) (granted : s'.grants ≠ []) :
    s'.inner.count = 3 ∨ s'.inner.count = 2 := by
  obtain ⟨⟨refs, lent, phase⟩, fits, _⟩ := pinned.exclusive
  have attends := pinned.attends
  unfold ownerStep at step
  split at step
  · cases step
  · cases step
  · rename_i pc isOwner
    rw [isOwner] at phase
    have agrees := phase.try_step
    split at step <;> rename_i inner result isStep <;> obtain rfl := Option.some.inj step <;>
      rw [isStep] at agrees
    · exact absurd ungranted granted
    · exact .inl agrees.2.2
    · exact absurd ungranted granted
    · exact agrees.elim
  · rename_i pc isOwner
    rw [isOwner] at phase
    have raises : pc.raises = true → s.inner.count + 2 < usizeRange := by
      intro raises
      simpa [Lender.careful, isOwner, raises] using room
    have agrees := phase.poll_step spurious raises
    split at step <;> rename_i inner result isStep <;> obtain rfl := Option.some.inj step <;>
      rw [isStep] at agrees
    · exact absurd ungranted granted
    · exact agrees.2.2.imp_right And.right
    · exact absurd ungranted granted
    · exact agrees.elim
  · rename_i isOwner
    rw [isOwner] at attends
    exact attends.elim
  · rename_i isOwner
    rw [isOwner] at attends
    exact attends.elim
  · rename_i isOwner
    rw [isOwner] at attends
    exact attends.elim
  · rename_i isOwner
    rw [isOwner] at attends
    exact attends.elim

theorem Pinned.owner_step {spurious : Bool} (pinned : s.Pinned)
    (room : s.careful (.owner spurious) = true) (step : s.ownerStep spurious = some s') :
    s'.Pinned := by
  obtain ⟨attends, sameHandles, hands⟩ := owner_hands pinned.attends step
  have exclusive := pinned.exclusive.owner_step room step
  have unburdened : .freeing ∉ s'.handles := by
    rw [sameHandles]
    exact pinned.unburdened
  -- the owner has nothing left to do once it has the value back
  have ungranted : s.grants = [] := by
    by_contra granted
    simp [ownerStep, (pinned.given granted).isIdle] at step
  refine ⟨exclusive, attends, unburdened, ?_⟩
  intro granted
  rcases hands with same | ⟨isIdle, unpended, isGrant⟩
  · rw [same] at granted
    exact absurd ungranted granted
  · have balance := pinned.balance room step ungranted granted
    have same : s'.alive = s.alive := by
      rw [alive, sameHandles, alive]
    refine ⟨isIdle, unpended, balance, exclusive.gone_of_grant isIdle unpended ?_ unburdened⟩
    rw [same, isGrant]
    exact List.mem_append_right _ (List.mem_singleton_self _)

theorem Pinned.handle_step {index : Nat} (pinned : s.Pinned)
    (step : PinShared.handleStep index s = some s') : s'.Pinned := by
  obtain ⟨isStep, source, target, inner, found, other, rfl⟩ := pinned.drops step
  refine ⟨pinned.exclusive.handle_step isStep, pinned.attends, ?_, ?_⟩
  · intro burdened
    rcases List.mem_or_eq_of_mem_set burdened with earlier | isTarget
    · exact pinned.unburdened earlier
    · exact other isTarget.symm
  · intro granted
    have gone := (pinned.given granted).gone _ (List.mem_of_getElem? found)
    cases gone

theorem Pinned.step (pinned : s.Pinned) (called : s.scopedCall label = true)
    (room : s.uncrowded label = true) (step : PinShared.step s label = some s') : s'.Pinned := by
  cases label with
  | owner spurious => exact pinned.owner_step room step
  | handle index => exact pinned.handle_step step
  | clone index =>
      simp only [PinShared.step, Lender.step] at step
      split at step
      · rename_i found
        obtain rfl := Option.some.inj step
        have isAlive : 1 ≤ s.alive := alive_of_found found
        refine pinned.lend (.inr isAlive) (by simpa [uncrowded, Lender.careful] using room) ?_
        by_contra granted
        have gone := (pinned.given granted).gone _ (List.mem_of_getElem? found)
        cases gone
      · cases step
  | release index =>
      have isStep : Lender.step s (.release index) = some s' := step
      have exclusive := pinned.exclusive.step rfl isStep
      simp only [PinShared.step, Lender.step] at step
      split at step
      · rename_i found
        obtain rfl := Option.some.inj step
        refine ⟨exclusive, pinned.attends, ?_, ?_⟩
        · intro burdened
          rcases List.mem_or_eq_of_mem_set burdened with earlier | isTarget
          · exact pinned.unburdened earlier
          · cases isTarget
        · intro granted
          have gone := (pinned.given granted).gone _ (List.mem_of_getElem? found)
          cases gone
      · cases step
  | tryCollect =>
      have isStep : Lender.step s .tryCollect = some s' := step
      have exclusive := pinned.exclusive.step rfl isStep
      have ungranted : s.grants = [] := of_decide_eq_true called
      simp only [PinShared.step, Lender.step] at step
      split at step
      · obtain rfl := Option.some.inj step
        exact ⟨exclusive, trivial, pinned.unburdened, absurd ungranted⟩
      · cases step
  | poll waker =>
      have ungranted : s.grants = [] := of_decide_eq_true called
      have isStep := step
      simp only [PinShared.step, Lender.step] at step
      split at step
      · rename_i isIdle
        have exclusive := pinned.exclusive.step (pinned.careful isIdle ungranted) isStep
        obtain rfl := Option.some.inj step
        exact ⟨exclusive, trivial, pinned.unburdened, absurd ungranted⟩
      · cases step
  | borrow | cancel | drop => cases called

end Lender

end Suspend.Shared
