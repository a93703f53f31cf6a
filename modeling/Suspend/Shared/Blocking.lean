import Suspend.Shared.FirstPoll
import Suspend.Thread.Blocking

/-!
# A thread blocked on a collection

`Collect::wait` polls the count with the waker of its thread's listener and
parks until the last reference has been dropped.  A poll that comes earlier than
that may never return, so everything rests on the wakes: the last drop sends
one, and as long as nobody else notifies the thread it polls again only for
that one.
-/

namespace Suspend.Shared

open Suspend.Transition
open Suspend.Park
open Suspend.Listen
open Suspend.Thread

universe v

variable {W : Type v} {s s' : Lender W} {label : Label W} {own : W}

/-- The steps of the thread that collects. -/
def Label.ofOwner : Label W → Bool
  | clone _ | release _ | handle _ => false
  | borrow | tryCollect | poll _ | cancel | drop | owner _ => true

namespace Lender

/-! ## The wakes of a step -/

/-- The waker that a step wakes. -/
def wakes (s : Lender W) : Label W → Option W
  | .owner _ =>
      match s.owner with
      | .polling (.yield waker) => some waker
      | _ => none
  | .handle index =>
      match s.handles[index]? with
      | some (.dropping .wake) => s.inner.waker
      | _ => none
  | _ => none

theorem woken_of_lend (s : Lender W) : s.lend.inner.woken = s.inner.woken := by
  unfold lend incCountRef
  split_ifs <;> rfl

theorem woken_of_ownerStep {spurious : Bool} (step : s.ownerStep spurious = some s') :
    s'.inner.woken = s.inner.woken ++ (s.wakes (.owner spurious)).toList := by
  cases isOwner : s.owner with
  | idle | gone => simp [ownerStep, isOwner] at step
  | trying pc | cancelling pc | closing pc =>
      rw [wakes, isOwner]
      cases pc <;>
        simp only [ownerStep, isOwner, TryPc.step, CancelPc.step, CancelPc.loop] at step <;>
        grind -linarith -ring -order [Inner.access, Inner.store, Inner.clearWaker, Inner.panic,
          grant]
  | polling pc =>
      rw [wakes, isOwner]
      cases pc <;> simp only [ownerStep, isOwner, PollPc.step, PollPc.loop] at step <;>
        grind -linarith -ring -order [Inner.access, Inner.store, Inner.storeWaker, Inner.clearWaker,
          Inner.fetchSub, Inner.wake, Inner.panic, grant]
  | dropping | freeing =>
      rw [wakes, isOwner]
      simp only [ownerStep, isOwner, Option.some.injEq] at step
      subst step
      simp [Inner.fetchSub, Inner.access, Inner.dealloc]

theorem woken_of_step (step : Lender.step s label = some s') :
    s'.inner.woken = s.inner.woken ++ (s.wakes label).toList := by
  cases label with
  | owner spurious => exact woken_of_ownerStep step
  | handle index =>
      cases drops_of_handleStep step with
      | wake found => simp [wakes, found, Inner.wakeWaker]
      | last found | announce found | leave found =>
          simp [wakes, found, Inner.fetchSub, Inner.access]
      | finish found | retry found | free found =>
          simp [wakes, found, Inner.store, Inner.access, Inner.dealloc]
  | clone index | release index =>
      simp only [Lender.step] at step
      split at step <;> cases step
      simp [wakes, woken_of_lend]
  | borrow | tryCollect | poll | drop =>
      simp only [Lender.step] at step
      split at step <;> cases step
      simp [wakes, woken_of_lend]
  | cancel =>
      simp only [Lender.step, call] at step
      split at step <;> cases step
      split_ifs <;> simp [wakes]

/-! ## The collection -/

/-- A collection that has had to wait leaves the count at 2, and the lender
unable to collect again. -/
def used (s : Lender W) : Bool :=
  !s.pending && s.inner.count = 2

/-- The owner only lends and collects, with the waker of its thread, and no new
reference panics. -/
def onlyCollects [DecidableEq W] (own : W) : Lender W → Label W → Bool
  | s, .borrow => !s.used && s.inner.count ≤ maxRefcount
  | s, .clone _ => s.inner.count ≤ maxRefcount
  | s, .tryCollect => !s.used
  | s, .poll waker => !s.used && waker = own
  | _, .cancel | _, .drop => false
  | _, .owner _ | _, .release _ | _, .handle _ => true

/-- Where the collection stands until its thread has been woken.  `owed` is the
poll that the thread owes to the wake. -/
inductive Waits (own : W) (s : Lender W) (owed : Nat) : Prop
  | lending (isOwner : s.owner = .idle ∨ s.owner = .trying .load) (unpended : s.pending = false)
      (refs : Nat) (holds : s.Holds (3 + 2 * refs) refs 0 0 none []) (nothing : owed = 0)
  | begun (begun : s.Begun own) (owes : owed = s.inner.woken.length)

/-- Where it stands once the thread has polled again. -/
inductive Wakes (own : W) (s : Lender W) (owed : Nat) : Prop
  | pending (woken : List W)
      (isOwner : s.owner = .idle ∧ owed = 1 ∨
        (s.owner = .polling (.resumeLoad own) ∨ s.owner = .polling (.yield own)) ∧ owed = 0)
      (isPending : s.pending = true)
      (holds : s.Holds 1 0 0 1 none woken ∨ s.Holds 2 0 0 0 none woken)
  | ended (woken : List W) (isOwner : s.owner = .idle) (unpended : s.pending = false)
      (holds : s.Holds 2 0 0 0 none woken) (nothing : owed = 0)

/-- What the thread owes after a step. -/
def Owes (own : W) (s : Lender W) (label : Label W) (owed owed' : Nat) : Prop :=
  s.wakes label = none ∧ owed' = owed ∨ s.wakes label = some own ∧ owed = 0 ∧ owed' = 1

variable {owed : Nat}

theorem Waits.init (own : W) : (Lender.init : Lender W).Waits own 0 :=
  .lending (.inl rfl) rfl 0 ⟨rfl, rfl, rfl, rfl, rfl, rfl, rfl⟩ rfl

/-- A first poll has been made, and the last drop may have answered it. -/
theorem Waits.of_begun (earlier : s.inner.woken.length = owed) (begun : s'.Begun own)
    (step : Lender.step s label = some s') :
    ∃ owed', s'.Waits own owed' ∧ s.Owes own label owed owed' := by
  have woken := woken_of_step step
  have few : s'.inner.woken = [] ∨ s'.inner.woken = [own] := by
    induction begun with
    | starting _ _ _ holds | stored _ _ _ holds | settling _ _ holds | cleared _ _ holds
    | ready _ _ holds | waiting _ _ _ holds | announced _ _ holds => exact .inl holds.woken
    | woken _ _ holds | done _ _ holds => exact .inr holds.woken
  refine ⟨_, .begun begun rfl, ?_⟩
  cases wakes : s.wakes label with
  | none =>
      left
      simpa [woken, wakes] using earlier
  | some waker =>
      right
      rw [wakes, Option.toList_some] at woken
      rcases few with none | one
      · simp [none] at woken
      · rw [one] at woken
        have unwoken : s.inner.woken = [] := by
          by_contra more
          have lengths := congrArg List.length woken
          simp at lengths
          exact more lengths
        rw [unwoken] at woken earlier
        obtain rfl : own = waker := by simpa using woken
        exact ⟨wakes, earlier.symm, by rw [one]; rfl⟩

/-- Until the first poll nobody is woken. -/
theorem Waits.of_lending (refs : Nat) (isOwner : s'.owner = .idle ∨ s'.owner = .trying .load)
    (unpended : s'.pending = false) (holds : s'.Holds (3 + 2 * refs) refs 0 0 none [])
    (silent : s.wakes label = none) : ∃ owed', s'.Waits own owed' ∧ s.Owes own label 0 owed' :=
  ⟨0, .lending isOwner unpended refs holds rfl, .inl ⟨silent, rfl⟩⟩

/-- A lender that lends. -/
theorem Waits.lending_step [DecidableEq W] (refs : Nat)
    (isOwner : s.owner = .idle ∨ s.owner = .trying .load) (unpended : s.pending = false)
    (holds : s.Holds (3 + 2 * refs) refs 0 0 none []) (careful : s.onlyCollects own label = true)
    (step : Lender.step s label = some s') :
    ∃ owed', s'.Waits own owed' ∧ s.Owes own label 0 owed' := by
  have unwoken : s.inner.woken.length = 0 := by
    rw [holds.woken]
    rfl
  have lends (silent : s.wakes label = none) (room : s.inner.count ≤ maxRefcount)
      (isLent : s' = s.lend) : ∃ owed', s'.Waits own owed' ∧ s.Owes own label 0 owed' := by
    subst isLent
    obtain ⟨holds', sameOwner, samePending⟩ := holds.lend (holds.count ▸ room)
    exact of_lending (refs + 1) (sameOwner ▸ isOwner) (samePending.trans unpended) holds'
      silent
  cases label with
  | owner spurious =>
      rcases isOwner with isOwner | isOwner
      · simp [Lender.step, ownerStep, isOwner] at step
      · have silent : s.wakes (.owner spurious) = none := by simp [wakes, isOwner]
        by_cases isThree : s.inner.count = 3
        · simp only [Lender.step, ownerStep, isOwner, TryPc.step, unpended, Bool.false_eq_true,
            false_and, if_false, Bool.not_false, true_and, if_pos isThree] at step
          obtain rfl := Option.some.inj step
          exact of_lending _ (.inl rfl) rfl (holds.of_same rfl holds.count holds.cell holds.woken)
            silent
        · simp only [Lender.step, ownerStep, isOwner, TryPc.step, unpended, Bool.false_eq_true,
            false_and, if_false, Bool.not_false, true_and, if_neg isThree] at step
          obtain rfl := Option.some.inj step
          exact of_lending _ (.inl rfl) rfl
            (holds.of_same rfl holds.count holds.cell holds.woken) silent
  | handle index =>
      have drops := drops_of_handleStep step
      have balance : 3 + 2 * refs = 1 + 2 * (refs + 1) := by omega
      rw [balance] at holds
      have silent : s.wakes (.handle index) = none := by
        obtain ⟨_, _, _, _, _, _, found, _⟩ := holds.quiet_drops (by omega) drops
        simp [wakes, found]
      obtain ⟨less, rfl, holds', sameOwner, samePending⟩ :=
        holds.left (by omega) (.inl (by omega)) drops
      rw [show 2 * (less + 1 + 1) - 1 = 3 + 2 * less by omega] at holds'
      exact of_lending _ (sameOwner ▸ isOwner) (samePending.trans unpended) holds' silent
  | clone index =>
      simp only [Lender.step] at step
      split at step
      · exact lends rfl (of_decide_eq_true careful) (Option.some.inj step).symm
      · cases step
  | release index =>
      simp only [Lender.step] at step
      split at step
      · rename_i found
        obtain rfl := Option.some.inj step
        exact of_lending _ isOwner unpended
          (holds.moved found holds.count holds.cell holds.woken rfl rfl rfl rfl) rfl
      · cases step
  | borrow =>
      simp only [onlyCollects, Bool.and_eq_true, decide_eq_true_eq] at careful
      simp only [Lender.step] at step
      split at step
      · exact lends rfl careful.2 (Option.some.inj step).symm
      · cases step
  | tryCollect =>
      simp only [Lender.step] at step
      split at step
      · obtain rfl := Option.some.inj step
        exact of_lending _ (.inr rfl) unpended
          (holds.of_same rfl holds.count holds.cell holds.woken) rfl
      · cases step
  | poll waker =>
      simp only [onlyCollects, Bool.and_eq_true, decide_eq_true_eq] at careful
      obtain ⟨_, rfl⟩ := careful
      refine of_begun unwoken ?_ step
      simp only [Lender.step] at step
      split at step
      · simp only [call, unpended, Bool.false_eq_true, if_false, Option.some.injEq] at step
        subst step
        exact .starting (.inl rfl) rfl refs
          (holds.of_same rfl holds.count holds.cell holds.woken)
      · cases step
  | cancel | drop => cases careful

/-- What the other calls do leaves a poll as it is. -/
theorem Waits.step [DecidableEq W] (waits : s.Waits own owed)
    (careful : s.onlyCollects own label = true)
    (others : s.owner = .idle → s.pending = true → label.ofOwner = false)
    (step : Lender.step s label = some s') :
    ∃ owed', s'.Waits own owed' ∧ s.Owes own label owed owed' := by
  cases waits with
  | lending isOwner unpended refs holds nothing =>
      subst nothing
      exact lending_step _ isOwner unpended holds careful step
  | begun begun owes =>
      have allowed (isAllowed : s.onePoll label = true) :
          ∃ owed', s'.Waits own owed' ∧ s.Owes own label owed owed' :=
        of_begun owes.symm (begun.step isAllowed step) step
      -- the owner makes a call only where its collection has ended at once
      have again (isCall : ∀ state, Lender.step s label = some state → s.owner = .idle)
          (isOwn : label.ofOwner = true) :
          ∃ owed', s'.Waits own owed' ∧ s.Owes own label owed owed' := by
        have isIdle := isCall s' step
        have unpended : s.pending = false := by
          by_contra isPending
          have other := others isIdle (by simpa using isPending)
          rw [isOwn] at other
          cases other
        induction begun with
        | ready _ _ holds =>
            rw [holds.woken] at owes
            subst owes
            exact lending_step 0 (.inl isIdle) unpended holds careful step
        | waiting _ isPending | announced _ isPending | woken _ isPending | done _ isPending =>
            rw [unpended] at isPending
            cases isPending
        | starting isOwner | stored isOwner | settling isOwner | cleared isOwner =>
            simp [isIdle] at isOwner
      cases label with
      | owner | release | handle => exact allowed rfl
      | clone => exact allowed careful
      | borrow | tryCollect | poll =>
          refine again ?_ rfl
          intro state step
          simp only [Lender.step] at step
          split at step
          · assumption
          · cases step
      | cancel | drop => cases careful

/-- With no reference left only a drop that has begun goes on. -/
theorem Wakes.dead (wakes : s.Wakes own owed) : s.alive = 0 := by
  cases wakes with
  | pending _ _ _ holds =>
      rcases holds with holds | holds
      · exact holds.refs
      · exact holds.refs
  | ended _ _ _ holds => exact holds.refs

/-- The drop's exchange is the last that the handles do. -/
theorem Holds.finished {index : Nat} {woken : List W}
    (holds : s.Holds 1 0 0 1 none woken ∨ s.Holds 2 0 0 0 none woken) (drops : s.Drops index s') :
    s.wakes (.handle index) = none ∧ s'.owner = s.owner ∧ s'.pending = s.pending ∧
      s'.Holds 2 0 0 0 none woken := by
  rcases holds with holds | holds
  · cases drops with
    | last found | announce found | leave found =>
        have isAlive : 1 ≤ 0 := (holds.found found).1
        omega
    | wake found =>
        have isWaking : 1 ≤ 0 := (holds.found found).2.1
        omega
    | finish found =>
        refine ⟨?_, rfl, rfl, holds.moved found rfl holds.cell holds.woken rfl rfl rfl rfl⟩
        simp [wakes, found]
    | retry found other => exact absurd holds.count other
    | free found =>
        have isFreeing : 1 = 0 := (holds.found found).2.2.2
        omega
  · exact absurd drops holds.still

/-- A poll after the wake ends the collection, or yields to the last drop. -/
theorem Wakes.owner_step {spurious : Bool} (wakes : s.Wakes own owed)
    (step : s.ownerStep spurious = some s') :
    ∃ owed', s'.Wakes own owed' ∧ s.Owes own (.owner spurious) owed owed' := by
  cases wakes with
  | ended _ isOwner => simp [ownerStep, isOwner] at step
  | pending woken isOwner isPending holds =>
      rcases isOwner with ⟨isOwner, _⟩ | ⟨isOwner | isOwner, rfl⟩
      · simp [ownerStep, isOwner] at step
      · have silent : s.wakes (.owner spurious) = none := by simp [Lender.wakes, isOwner]
        rcases holds with holds | holds
        · simp only [ownerStep, isOwner, PollPc.step, PollPc.loop, holds.count,
            OfNat.one_ne_ofNat, if_false, if_true] at step
          obtain rfl := Option.some.inj step
          refine ⟨0, .pending woken (.inr ⟨.inr rfl, rfl⟩) isPending (.inl ?_), .inl ⟨silent, rfl⟩⟩
          exact holds.of_same rfl holds.count holds.cell holds.woken
        · simp only [ownerStep, isOwner, PollPc.step, PollPc.loop, holds.count, if_true] at step
          obtain rfl := Option.some.inj step
          refine ⟨0, .ended woken rfl rfl ?_ rfl, .inl ⟨silent, rfl⟩⟩
          exact holds.of_same rfl holds.count holds.cell holds.woken
      · have told : s.wakes (.owner spurious) = some own := by simp [Lender.wakes, isOwner]
        simp only [ownerStep, isOwner, PollPc.step] at step
        obtain rfl := Option.some.inj step
        refine ⟨1, .pending (woken ++ [own]) (.inl ⟨rfl, rfl⟩) rfl ?_, .inr ⟨told, rfl, rfl⟩⟩
        have added {count finishing : Nat} (holds : s.Holds count 0 0 finishing none woken) :
            (s.inner.wake own).woken = woken ++ [own] := congrArg (· ++ [own]) holds.woken
        exact holds.imp (fun holds => holds.of_same rfl holds.count holds.cell (added holds))
          fun holds => holds.of_same rfl holds.count holds.cell (added holds)

/-- What the other calls do leaves the thread its wake. -/
theorem Wakes.step [DecidableEq W] (wakes : s.Wakes own owed)
    (careful : s.onlyCollects own label = true)
    (others : s.owner = .idle → s.pending = true → label.ofOwner = false)
    (step : Lender.step s label = some s') :
    ∃ owed', s'.Wakes own owed' ∧ s.Owes own label owed owed' := by
  have gone {index : Nat} (found : s.handles[index]? = some .held) : False := by
    have isAlive : 1 ≤ s.alive := alive_of_found found
    have dead := wakes.dead
    omega
  have uncalled (unused : s.used = false) (isIdle : s.owner = .idle)
      (isOwn : label.ofOwner = true) : False := by
    cases wakes with
    | pending _ _ isPending =>
        have other := others isIdle isPending
        rw [isOwn] at other
        cases other
    | ended _ _ unpended holds => simp [used, unpended, holds.count] at unused
  cases label with
  | owner spurious => exact wakes.owner_step step
  | handle index =>
      have drops := drops_of_handleStep step
      cases wakes with
      | pending woken isOwner isPending holds =>
          obtain ⟨silent, sameOwner, samePending, holds'⟩ := Holds.finished holds drops
          refine ⟨owed, .pending woken ?_ (samePending.trans isPending) (.inr holds'),
            .inl ⟨silent, rfl⟩⟩
          rwa [sameOwner]
      | ended _ _ _ holds => exact absurd drops holds.still
  | clone index | release index =>
      simp only [Lender.step] at step
      split at step
      · rename_i found
        exact (gone found).elim
      · cases step
  | borrow | tryCollect | poll =>
      simp only [onlyCollects, Bool.and_eq_true, Bool.not_eq_true'] at careful
      simp only [Lender.step] at step
      split at step
      · rename_i isIdle
        exact (uncalled (by first | exact careful | exact careful.1) isIdle rfl).elim
      · cases step
  | cancel | drop => cases careful

/-- The poll that follows the wake. -/
theorem Wakes.of_poll (stage : s.Waits own owed ∨ s.Wakes own owed) (isIdle : s.owner = .idle)
    (isPending : s.pending = true) (owes : 0 < owed)
    (step : Lender.step s (.poll own) = some s') :
    owed = 1 ∧ s'.Wakes own 0 ∧ s'.grants = s.grants := by
  have begins : s' = { s with owner := .polling (.resumeLoad own) } := by
    simpa [Lender.step, isIdle, call, isPending] using step.symm
  subst begins
  have polls {woken : List W} (isOwed : owed = 1)
      (holds : s.Holds 1 0 0 1 none woken ∨ s.Holds 2 0 0 0 none woken) :
      owed = 1 ∧ ({ s with owner := .polling (.resumeLoad own) } : Lender W).Wakes own 0 ∧
        s.grants = s.grants := by
    refine ⟨isOwed, .pending woken (.inr ⟨.inl rfl, rfl⟩) isPending ?_, rfl⟩
    exact holds.imp (fun holds => holds.of_same rfl holds.count holds.cell holds.woken)
      fun holds => holds.of_same rfl holds.count holds.cell holds.woken
  rcases stage with waits | wakes
  · cases waits with
    | lending _ unpended => simp [isPending] at unpended
    | begun begun isOwed =>
        induction begun with
        | woken _ _ holds => exact polls (by simp [isOwed, holds.woken]) (.inl holds)
        | done _ _ holds => exact polls (by simp [isOwed, holds.woken]) (.inr holds)
        | waiting _ _ _ holds | announced _ _ holds =>
            rw [holds.woken] at isOwed
            simp [isOwed] at owes
        | ready _ unpended => simp [isPending] at unpended
        | starting isOwner | stored isOwner | settling isOwner | cleared isOwner =>
            simp [isIdle] at isOwner
  · cases wakes with
    | pending _ isOwner _ holds =>
        rcases isOwner with ⟨_, isOwed⟩ | ⟨isOwner | isOwner, _⟩
        · exact polls isOwed holds
        · simp [isIdle] at isOwner
        · simp [isIdle] at isOwner
    | ended _ _ unpended => simp [isPending] at unpended

/-- A poll that is owed to no wake waits for a reference, or for the wake itself. -/
theorem Waits.remains (stage : s.Waits own owed ∨ s.Wakes own owed) (isIdle : s.owner = .idle)
    (isPending : s.pending = true) (nothing : owed = 0) : 0 < s.alive ∨ s.waking = 1 := by
  rcases stage with waits | wakes
  · cases waits with
    | lending _ unpended => simp [isPending] at unpended
    | begun begun owes =>
        induction begun with
        | waiting _ _ refs holds =>
            left
            rw [holds.refs]
            exact Nat.succ_pos refs
        | announced _ _ holds => exact .inr holds.waking
        | woken _ _ holds | done _ _ holds => simp [holds.woken, nothing] at owes
        | ready _ unpended => simp [isPending] at unpended
        | starting isOwner | stored isOwner | settling isOwner | cleared isOwner =>
            simp [isIdle] at isOwner
  · cases wakes with
    | pending _ isOwner =>
        rcases isOwner with ⟨_, isOwed⟩ | ⟨isOwner | isOwner, _⟩
        · omega
        · simp [isIdle] at isOwner
        · simp [isIdle] at isOwner
    | ended _ _ unpended => simp [isPending] at unpended

/-- What a step hands out. -/
theorem grants_of_step (step : Lender.step s label = some s')
    (known : ∀ waker, s.owner ≠ .polling (.clearLast waker)) :
    s'.grants = s.grants ∨ s'.grants = s.grants ++ [s'.alive] ∧ s'.owner = .idle ∧
      s'.pending = false ∧ s'.inner.count ≤ 3 := by
  have lends (s : Lender W) : s.lend.grants = s.grants := by
    unfold lend incCountRef
    split_ifs <;> rfl
  cases label with
  | owner spurious =>
      simp only [Lender.step, ownerStep] at step
      cases isOwner : s.owner with
      | idle | gone => simp [isOwner] at step
      | trying pc | cancelling pc | closing pc =>
          cases pc <;>
            simp only [isOwner, TryPc.step, CancelPc.step, CancelPc.loop] at step <;>
            grind -linarith -ring -order [Inner.access, Inner.store, grant, alive]
      | polling pc =>
          cases pc <;> simp only [isOwner, PollPc.step, PollPc.loop] at step <;>
            grind -linarith -ring -order [Inner.access, Inner.store, grant, alive]
      | dropping | freeing =>
          simp only [isOwner, Option.some.injEq] at step
          subst step
          exact .inl rfl
  | handle index => cases drops_of_handleStep step <;> exact .inl rfl
  | clone index | release index =>
      simp only [Lender.step] at step
      split at step <;> cases step
      exact .inl (by simp [lends])
  | borrow | tryCollect | poll | drop =>
      simp only [Lender.step] at step
      split at step <;> cases step
      exact .inl (by simp [lends])
  | cancel =>
      simp only [Lender.step, call] at step
      split at step <;> cases step
      left
      split_ifs <;> rfl

/-- Only a lender with no reference left is handed out. -/
theorem alive_of_granted (stage : s.Waits own owed ∨ s.Wakes own owed) (isIdle : s.owner = .idle)
    (unpended : s.pending = false) (few : s.inner.count ≤ 3) : s.alive = 0 := by
  rcases stage with waits | wakes
  · cases waits with
    | lending _ _ refs holds =>
        have count := holds.count
        have isAlive := holds.refs
        omega
    | begun begun =>
        induction begun with
        | ready _ _ holds => exact holds.refs
        | waiting _ isPending | announced _ isPending | woken _ isPending | done _ isPending =>
            simp [unpended] at isPending
        | starting isOwner | stored isOwner | settling isOwner | cleared isOwner =>
            simp [isIdle] at isOwner
  · exact wakes.dead

theorem uncleared_of_stage (stage : s.Waits own owed ∨ s.Wakes own owed) (waker : W) :
    s.owner ≠ .polling (.clearLast waker) := by
  intro isOwner
  rcases stage with waits | wakes
  · cases waits with
    | lending isIdle => simp [isOwner] at isIdle
    | begun begun => induction begun <;> simp_all
  · cases wakes <;> simp_all

end Lender

/-! ## The thread -/

section Loop

variable {σ L P : Type} {impl : WakingParker σ L P} {b b' : Blocked (Lender W) σ}

/-- `Collect::wait` and `CollectInto::wait` without a timeout, in a thread whose
listener has `own` as its waker. -/
def awaiting [DecidableEq W] (own : W) : Polled (Lender W) (Label W) where
  loop := .blockOnPoll
  step := guarded Lender.step (Lender.onlyCollects own)
  own := Label.ofOwner
  enters
    | .poll _ => true
    | _ => false
  waits s :=
    match s.owner, s.pending with
    | .idle, true => some false
    | _, _ => none
  resume _ := .poll own
  wakes s label := s.wakes label = some own

theorem awaiting_waits [DecidableEq W] (s : Lender W) (timeout : Bool) :
    (awaiting own).waits s = some timeout ↔
      s.owner = .idle ∧ s.pending = true ∧ timeout = false := by
  cases isOwner : s.owner <;> cases isPending : s.pending <;>
    simp [awaiting, isOwner, isPending]

theorem awaiting_lawful [DecidableEq W] : (awaiting own).Lawful where
  alone s label next timeout waits other step := by
    rw [awaiting_waits] at waits ⊢
    have step := (guarded_eq_some.mp step).2
    have lends (s : Lender W) : s.lend.owner = s.owner ∧ s.lend.pending = s.pending := by
      unfold Lender.lend
      split <;> exact ⟨rfl, rfl⟩
    cases label with
    | clone index | release index =>
        simp only [Lender.step] at step
        split at step <;> cases step
        simpa [lends] using waits
    | handle index => cases Lender.drops_of_handleStep step <;> exact waits
    | borrow | tryCollect | poll | cancel | drop | owner => cases other
  timeless _ s := by simp [awaiting_waits]

/-- A thread that polls again for each wake, and for nothing else. -/
structure BlocksOn (own : W) (b : Blocked (Lender W) σ) : Prop where
  stage : ∃ owed, (b.call.Waits own owed ∧ b.repolls = 0 ∨ b.call.Wakes own owed) ∧
    b.given = b.repolls + owed
  granted : ∀ alive ∈ b.call.grants, alive = 0

theorem BlocksOn.init (parker : σ) :
    BlocksOn own ({ call := Lender.init, parker } : Blocked (Lender W) σ) :=
  ⟨⟨0, .inl ⟨.init own, rfl⟩, rfl⟩, fun _ never => by cases never⟩

theorem BlocksOn.step [DecidableEq W] [DecidableEq P] {label : BlockedLabel (Label W)}
    (lawful : impl.Lawful) (kept : b.Kept (awaiting own) impl) (awaits : BlocksOn own b)
    (called : label.stray = false) (step : Blocked.step (awaiting own) impl b label = some b') :
    BlocksOn own b' := by
  have later := kept.step lawful awaiting_lawful step
  obtain ⟨⟨owed, stage, given⟩, granted⟩ := awaits
  rcases kept.called lawful step with ⟨same, _, sameGiven, sameRepolls⟩ |
    ⟨own', stepped, allowed, _, isGiven, sameRepolls⟩ |
    ⟨timedOut, waits, timed, stepped, sameGiven, isRepolls⟩
  · have sameGiven := sameGiven (by rintro rfl; cases called)
    rw [← same] at stage granted
    exact ⟨⟨owed, by rwa [sameRepolls], by omega⟩, granted⟩
  · obtain ⟨careful, moved⟩ := guarded_eq_some.mp stepped
    have others (isIdle : b.call.owner = .idle) (isPending : b.call.pending = true) :
        own'.ofOwner = false := by
        exact allowed (Option.isSome_iff_exists.mpr
        ⟨false, (awaiting_waits b.call false).mpr ⟨isIdle, isPending, rfl⟩⟩)
    obtain ⟨owed', stage', owes⟩ : ∃ owed', (b'.call.Waits own owed' ∧ b'.repolls = 0 ∨
        b'.call.Wakes own owed') ∧ b.call.Owes own own' owed owed' := by
      rcases stage with ⟨waits, none⟩ | wakes
      · obtain ⟨owed', waits', owes⟩ := waits.step careful others moved
        exact ⟨owed', .inl ⟨waits', sameRepolls.trans none⟩, owes⟩
      · obtain ⟨owed', wakes', owes⟩ := wakes.step careful others moved
        exact ⟨owed', .inr wakes', owes⟩
    have known := Lender.uncleared_of_stage (stage.imp_left And.left)
    refine ⟨⟨owed', stage', ?_⟩, ?_⟩
    · rcases owes with ⟨silent, rfl⟩ | ⟨told, rfl, rfl⟩
      · have unwoken : (awaiting own).wakes b.call own' = false := by simp [awaiting, silent]
        rw [isGiven, unwoken, sameRepolls, given]
        simp
      · -- the permit is not set, since every wake so far has been polled for
        have books := kept.given
        have taken := kept.taken
        have unset : (impl.word b.parker).unpark = false := by
          cases isSet : (impl.word b.parker).unpark with
          | false => rfl
          | true =>
              rw [isSet, Bool.toNat_true] at books
              omega
        have woken : (awaiting own).wakes b.call own' = true := by simp [awaiting, told]
        rw [isGiven, woken, unset, sameRepolls, given]
        rfl
    · rcases Lender.grants_of_step moved known with same | ⟨grown, isIdle, unpended, few⟩
      · rwa [same]
      · rw [grown]
        intro alive isGrant
        rcases List.mem_append.mp isGrant with earlier | latest
        · exact granted alive earlier
        · rw [List.mem_singleton.mp latest]
          exact Lender.alive_of_granted (stage'.imp_left And.left) isIdle unpended few
  · obtain ⟨timeout, isWaiting⟩ := Option.ne_none_iff_exists'.mp waits
    obtain ⟨isIdle, isPending, rfl⟩ := (awaiting_waits b.call timeout).mp isWaiting
    have untimed : timedOut = false := by
      cases timedOut with
      | false => rfl
      | true =>
          have isTimed := timed rfl
          rw [isWaiting] at isTimed
          cases isTimed
    subst untimed
    have moved := (guarded_eq_some.mp stepped).2
    -- the poll has been paid for
    have paid := later.paid.paid
    simp only [Bool.not_false, Bool.toNat_true] at isRepolls
    obtain ⟨rfl, polls, same⟩ :=
      Lender.Wakes.of_poll (stage.imp_left And.left) isIdle isPending (by omega) moved
    exact ⟨⟨0, .inr polls, by omega⟩, same ▸ granted⟩

/-- What the thread makes of its wakes. -/
structure Patient (b : Blocked (Lender W) σ) : Prop where
  /-- After its first poll it polls only when no reference is left. -/
  repolls : b.repolls ≠ 0 → b.call.alive = 0
  /-- It gets the value only then. -/
  granted : ∀ alive ∈ b.call.grants, alive = 0

/-- What a thread that waits for its references can rely on. -/
structure Collected (impl : WakingParker σ L P) (b : Blocked (Lender W) σ) : Prop
    extends Patient b where
  /-- It sleeps only as long as there is a reference, or its wake is on the way. -/
  asleep : impl.asleep b.parker = true →
    0 < b.call.alive ∨ b.call.waking = 1 ∨ impl.coming b.parker = true

theorem BlocksOn.patient (awaits : BlocksOn own b) : Patient b where
  repolls again := by
    obtain ⟨⟨_, ⟨_, none⟩ | wakes, _⟩, _⟩ := awaits
    · exact absurd none again
    · exact wakes.dead
  granted := awaits.granted

theorem BlocksOn.collected [DecidableEq W] (lawful : impl.Lawful) (hears : impl.Hears)
    (kept : b.Kept (awaiting own) impl) (awaits : BlocksOn own b) : Collected impl b where
  toPatient := awaits.patient
  asleep isAsleep := by
    obtain ⟨timeout, isWaiting⟩ := Option.ne_none_iff_exists'.mp (kept.waits lawful isAsleep)
    obtain ⟨isIdle, isPending, _⟩ := (awaiting_waits b.call timeout).mp isWaiting
    obtain ⟨⟨owed, stage, given⟩, _⟩ := awaits
    cases isSet : (impl.word b.parker).unpark with
    | true => exact .inr (.inr (hears b.parker kept.reachable isAsleep isSet))
    | false =>
        -- who sleeps has settled every notification
        have books := kept.given
        have taken := kept.taken
        have settled : b.owes impl = false := by
          simp [Blocked.owes, (lawful.sleeps b.parker isAsleep).2]
        rw [isSet, Bool.toNat_false] at books
        rw [settled, Bool.toNat_false] at taken
        have remains := Lender.Waits.remains (stage.imp_left And.left) isIdle isPending (by omega)
        exact remains.imp_right .inl

theorem BlocksOn.of_reachable [DecidableEq W] [DecidableEq P] (lawful : impl.Lawful)
    (reachable : ReachableUnder (Blocked.step (awaiting own) impl)
      (fun _ label => (!label.stray) = true) { call := Lender.init, parker := impl.init } b) :
    BlocksOn own b ∧ b.Kept (awaiting own) impl := by
  have known (before : Blocked (Lender W) σ) (reached : ReachableUnder
      (Blocked.step (awaiting own) impl) (fun _ label => (!label.stray) = true)
      { call := Lender.init, parker := impl.init } before) : before.Kept (awaiting own) impl :=
    Blocked.Kept.of_reachable lawful awaiting_lawful reached.reachable
  refine ⟨?_, known b reachable⟩
  apply reachable.invariant_with known (BlocksOn.init impl.init)
  intro before label after kept awaits called step
  exact awaits.step lawful kept (by simpa using called) step

end Loop

end Suspend.Shared
