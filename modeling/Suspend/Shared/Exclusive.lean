import Suspend.Shared.Lender

/-!
# Exclusive access to a collected value

The count is a bias plus twice the number of references, and the bias says in
which phase the lender is.  `pending` does not: a collection that `resume_poll`
finishes leaves the bias of a finished collection behind and an abandoned one
leaves `pending` set.  With a collection started only on the bias of an idle
lender, and nothing borrowed while the last drop is about to wake the owner,
the value is handed out only when no handle is alive.
-/

namespace Suspend.Shared

open Suspend.Transition

universe v

variable {W : Type v}

/-! ## Phases -/

namespace Owner

/-- `resume_poll` holds a reference of its own while it changes the waker. -/
def raised : Owner W → Nat
  | polling (.clear _) | polling (.store _) | polling (.lower _) => 1
  | _ => 0

/-- Between calls, or in a call that has not yet changed the count of a lender
that collects nothing. -/
def Resting : Owner W → Prop
  | idle | trying .load | polling (.startLoad _) | polling (.startStore _)
  | polling .startSub => True
  | _ => False

/-- Between calls, or in a call on a pending collection. -/
def Pending : Owner W → Prop
  | idle | trying .load | polling (.resumeLoad _) | polling (.clear _) | polling (.store _)
  | polling (.lower _) | polling (.yield _) | cancelling .load | cancelling .settle => True
  | polling (.raise count _) | cancelling (.raise count) => count ≠ 1
  | _ => False

/-- `start_poll` has found the last reference gone. -/
def Settling : Owner W → Prop
  | polling .startClear | polling .startSwap => True
  | _ => False

/-- A call has found the last reference of a collection gone. -/
def Finishing : Owner W → Prop
  | trying .swap | polling (.clearLast _) | cancelling .swap => True
  | _ => False

/-- The lender is being dropped. -/
def Leaving : Owner W → Prop
  | closing _ | dropping | freeing | gone => True
  | _ => False

end Owner

/-- How the count, the references and the owner go together.  `notifying` drops
are about to wake the owner. -/
inductive Phase (abandons granted : Prop) :
    (pending : Bool) → (owner : Owner W) → (count refs notifying : Nat) → Prop
  /-- Nothing is collected. -/
  | idle {owner count refs} (resting : owner.Resting) (balance : count = 3 + 2 * refs) :
      Phase abandons granted false owner count refs 0
  /-- `start_poll` is about to set the count back. -/
  | settling {owner} (settling : owner.Settling) : Phase abandons granted false owner 1 0 0
  /-- The owner waits for the references. -/
  | collecting {owner count refs notifying} (waiting : owner.Pending)
      (balance : count = 1 + 2 * (refs + owner.raised))
      (quiet : notifying = 0 ∨ notifying = 1 ∧ refs = 0 ∧ owner.raised = 0) :
      Phase abandons granted true owner count refs notifying
  /-- The last reference has gone. -/
  | collected {owner count refs} (waiting : owner.Pending ∨ owner.Finishing ∧ refs = 0)
      (balance : count = 2 + 2 * (refs + owner.raised)) :
      Phase abandons granted true owner count refs 0
  /-- The collection has been cancelled, and is still called pending. -/
  | abandoned {owner count refs notifying} (isAbandoned : abandons)
      (waiting : owner.Pending ∨ owner = .cancelling .clear)
      (balance : 3 + 2 * (refs + owner.raised + notifying) ≤ count) :
      Phase abandons granted true owner count refs notifying
  /-- `resume_poll` has handed out the value and left the count as it was. -/
  | done {owner count refs} (isGranted : granted) (between : owner = .idle ∨ owner = .trying .load)
      (balance : count = 2 + 2 * refs) : Phase abandons granted false owner count refs 0
  /-- The lender is being dropped. -/
  | left {pending owner count refs notifying} (leaving : owner.Leaving) :
      Phase abandons granted pending owner count refs notifying

/-- The count and the handles are in phase, and the value has been handed out
only when no handle was alive. -/
structure Lender.Exclusive (s : Lender W) : Prop where
  phase : ∃ refs, s.alive ≤ refs ∧
    Phase True (s.grants ≠ []) s.pending s.owner s.inner.count refs s.notifying
  fits : s.inner.count < usizeRange
  grants : ∀ alive ∈ s.grants, alive = 0

section Steps

variable {abandons granted : Prop} {pending : Bool} {owner : Owner W} {count refs notifying : Nat}

/-! ## References -/

/-- A new reference, from the owner between calls or from another reference. -/
theorem Phase.lend (phase : Phase abandons granted pending owner count refs notifying)
    (able : owner = .idle ∧ (count = 1 → notifying = 0) ∨ 0 < refs) :
    Phase abandons granted pending owner (count + 2) (refs + 1) notifying := by
  cases phase with
  | idle resting balance => exact .idle resting (by omega)
  | settling settling =>
      rcases able with ⟨rfl, _⟩ | some
      · exact settling.elim
      · omega
  | collecting waiting balance isQuiet =>
      refine .collecting waiting (by omega) (.inl ?_)
      rcases able with ⟨rfl, quiet⟩ | some
      · simp only [Owner.raised] at balance isQuiet
        omega
      · omega
  | collected waiting balance =>
      refine .collected (.inl ?_) (by omega)
      rcases waiting with waiting | ⟨finishing, unreferenced⟩
      · exact waiting
      · rcases able with ⟨rfl, _⟩ | some
        · exact finishing.elim
        · omega
  | abandoned isAbandoned waiting balance => exact .abandoned isAbandoned waiting (by omega)
  | done isGranted between balance => exact .done isGranted between (by omega)
  | left leaving => exact .left leaving

/-- A reference is given back. -/
theorem Phase.sub (phase : Phase abandons granted pending owner count refs notifying)
    (some : 0 < refs)
    (remains : ¬ owner.Leaving) :
    2 ≤ count ∧ count - 2 ≠ 0 ∧
      Phase abandons granted pending owner (count - 2) (refs - 1)
        (if count - 2 = 1 then notifying + 1 else notifying) := by
  cases phase with
  | idle resting balance => 
      refine ⟨by omega, by omega, ?_⟩
      rw [if_neg (by omega)]
      exact .idle resting (by omega)
  | settling => cases some
  | collecting waiting balance isQuiet =>
      refine ⟨by omega, by omega, ?_⟩
      split_ifs
      · exact .collecting waiting (by omega) (.inr (by omega))
      · exact .collecting waiting (by omega) (.inl (by omega))
  | collected waiting balance =>
      refine ⟨by omega, by omega, ?_⟩
      rw [if_neg (by omega)]
      refine .collected (waiting.imp_right fun finishing => ?_) (by omega)
      omega
  | abandoned isAbandoned waiting balance =>
      refine ⟨by omega, by omega, ?_⟩
      rw [if_neg (by omega)]
      exact .abandoned isAbandoned waiting (by omega)
  | done isGranted between balance =>
      refine ⟨by omega, by omega, ?_⟩
      rw [if_neg (by omega)]
      exact .done isGranted between (by omega)
  | left leaving => exact absurd leaving remains

/-- The drop of the last reference has woken the owner: it finishes the
collection, unless the owner has given it up. -/
theorem Phase.exchange (phase : Phase abandons granted pending owner count refs (notifying + 1))
    (remains : ¬ owner.Leaving) :
    if count = 1 then Phase abandons granted pending owner 2 refs notifying
    else Phase abandons granted pending owner count (refs + 1) notifying := by
  cases phase with
  | collecting waiting balance isQuiet =>
      rw [if_pos (by omega), show notifying = 0 by omega]
      exact .collected (.inl waiting) (by omega)
  | abandoned isAbandoned waiting balance =>
      rw [if_neg (by omega)]
      exact .abandoned isAbandoned waiting (by omega)
  | left leaving => exact absurd leaving remains

/-! ## The owner -/

/-- Moves that leave the count alone. -/
theorem Phase.move {owner' : Owner W}
    (phase : Phase abandons granted true owner count refs notifying) (remains : ¬ owner.Leaving)
    (waits : owner'.Pending) (same : owner'.raised = owner.raised) :
    Phase abandons granted true owner' count refs notifying := by
  cases phase with
  | collecting _ balance isQuiet => exact .collecting waits (same ▸ balance) (same ▸ isQuiet)
  | collected _ balance => exact .collected (.inl waits) (same ▸ balance)
  | abandoned isAbandoned _ balance => exact .abandoned isAbandoned (.inl waits) (same ▸ balance)
  | left leaving => exact absurd leaving remains

/-- A call begins on a lender between calls. -/
theorem Phase.begin {owner' : Owner W}
    (phase : Phase abandons granted pending (.idle : Owner W) count refs notifying)
    (begins : owner' = .trying .load ∨ pending = true ∧ owner'.Pending ∧ owner'.raised = 0 ∨
      pending = false ∧ owner'.Resting ∧ count % 2 = 1) :
    Phase abandons granted pending owner' count refs notifying := by
  rcases begins with rfl | ⟨rfl, waits, unraised⟩ | ⟨rfl, resting, odd⟩
  · cases phase with
    | idle _ balance => exact .idle trivial balance
    | settling settling => exact settling.elim
    | collecting _ balance isQuiet => exact .collecting trivial balance isQuiet
    | collected _ balance => exact .collected (.inl trivial) balance
    | abandoned isAbandoned _ balance => exact .abandoned isAbandoned (.inl trivial) balance
    | done isGranted _ balance => exact .done isGranted (.inr rfl) balance
    | left leaving => exact leaving.elim
  · exact phase.move id waits unraised
  · cases phase with
    | idle _ balance => exact .idle resting balance
    | settling settling => exact settling.elim
    | done _ _ balance => omega
    | left leaving => exact leaving.elim

/-- What `try_collect` answers: the value only when no reference is left, and
with the count of an idle lender. -/
def TryResult.Agrees (W : Type v) (abandons granted : Prop) (pending : Bool)
    (count refs notifying : Nat) : TryResult → Prop
  | collected => refs = 0 ∧ notifying = 0 ∧ count = 3
  | failed => Phase (W := W) abandons granted pending .idle count refs notifying
  | panic => False

theorem Phase.try_step {pc : TryPc} {m : Inner W}
    (phase : Phase abandons granted pending (.trying pc : Owner W) m.count refs notifying) :
    let m' := (pc.step pending m).1
    (pc.step pending m).2.elim
      (fun pc => Phase abandons granted pending (.trying pc : Owner W) m'.count refs notifying)
      (TryResult.Agrees W abandons granted pending m'.count refs notifying) := by
  cases pc with
  | load =>
      have same : m.access.count = m.count := rfl
      simp only [TryPc.step, same]
      generalize m.count = count at phase
      split_ifs with emptied free
      · obtain ⟨rfl, rfl⟩ := emptied
        cases phase with
        | collecting _ balance =>
            simp only [Owner.raised] at balance
            omega
        | collected _ balance =>
            simp only [Owner.raised] at balance
            exact .collected (.inr ⟨trivial, by omega⟩) balance
        | abandoned isAbandoned _ balance => omega
        | left leaving => exact leaving.elim
      · obtain ⟨unpended, rfl⟩ := free
        cases phase with
        | idle _ balance => exact ⟨by omega, rfl, rfl⟩
        | done _ _ balance => omega
        | left leaving => exact leaving.elim
        | collecting | collected | abandoned => simp at unpended
      · cases phase with
        | idle _ balance => exact .idle trivial balance
        | settling settling => exact settling.elim
        | collecting _ balance isQuiet => exact .collecting trivial balance isQuiet
        | collected _ balance => exact .collected (.inl trivial) balance
        | abandoned isAbandoned _ balance => exact .abandoned isAbandoned (.inl trivial) balance
        | done isGranted _ balance => exact .done isGranted (.inl rfl) balance
        | left leaving => exact leaving.elim
  | swap =>
      have same : (m.store 3).count = 3 := rfl
      simp only [TryPc.step, same]
      generalize m.count = count at phase
      cases phase with
      | idle resting => exact resting.elim
      | settling settling => exact settling.elim
      | collecting waiting => exact waiting.elim
      | collected waiting balance =>
          obtain ⟨_, rfl⟩ := waiting.resolve_left id
          simp only [Owner.raised] at balance
          rw [if_pos (by omega)]
          exact ⟨rfl, rfl, rfl⟩
      | abandoned _ waiting => simp [Owner.Pending] at waiting
      | done _ between => simp at between
      | left leaving => exact leaving.elim

/-- What a poll answers: the value only when no reference is left.  `resume_poll`
leaves the count of a finished collection. -/
def PollResult.Agrees (W : Type v) (abandons granted : Prop) (pending : Bool)
    (count refs notifying : Nat) : PollResult → Prop
  | .pending => Phase (W := W) abandons granted true .idle count refs notifying
  | .ready => refs = 0 ∧ notifying = 0 ∧ (count = 3 ∨ pending = true ∧ count = 2)
  | .panic => False

/-- In `start_poll` before its `fetch_sub`, nothing is collected. -/
theorem Phase.starting {pc : PollPc W}
    (phase : Phase abandons granted pending (.polling pc : Owner W) count refs notifying)
    (starts : (Owner.polling pc).Resting) :
    pending = false ∧ count = 3 + 2 * refs ∧ notifying = 0 := by
  cases phase with
  | idle _ balance => exact ⟨rfl, balance, rfl⟩
  | settling settling => cases pc <;> simp_all [Owner.Resting, Owner.Settling]
  | collecting waiting => cases pc <;> simp_all [Owner.Resting, Owner.Pending]
  | collected waiting => cases pc <;> simp_all [Owner.Resting, Owner.Pending, Owner.Finishing]
  | abandoned _ waiting => cases pc <;> simp_all [Owner.Resting, Owner.Pending]
  | done _ between => simp at between
  | left leaving => exact leaving.elim

/-- After its `fetch_sub` has found the last reference gone, the count is 1. -/
theorem Phase.settled {pc : PollPc W}
    (phase : Phase abandons granted pending (.polling pc : Owner W) count refs notifying)
    (settles : (Owner.polling pc).Settling) :
    pending = false ∧ count = 1 ∧ refs = 0 ∧ notifying = 0 := by
  cases phase with
  | idle resting => cases pc <;> simp_all [Owner.Resting, Owner.Settling]
  | settling => exact ⟨rfl, rfl, rfl, rfl⟩
  | collecting waiting => cases pc <;> simp_all [Owner.Settling, Owner.Pending]
  | collected waiting => cases pc <;> simp_all [Owner.Settling, Owner.Pending, Owner.Finishing]
  | abandoned _ waiting => cases pc <;> simp_all [Owner.Settling, Owner.Pending]
  | done _ between => simp at between
  | left leaving => exact leaving.elim

/-- `resume_poll` is past its first branch. -/
def PollPc.resumes : PollPc W → Prop
  | .startLoad _ | .startStore _ | .startSub | .startClear | .startSwap => False
  | _ => True

/-- The exchange of `resume_poll` that adds to the count. -/
def PollPc.raises : PollPc W → Bool
  | .raise _ _ => true
  | _ => false

/-- The exchange of `cancel_poll` that adds to the count. -/
def CancelPc.raises : CancelPc → Bool
  | .raise _ => true
  | _ => false

theorem Phase.resumes {pc : PollPc W}
    (phase : Phase abandons granted pending (.polling pc : Owner W) count refs notifying)
    (resumes : pc.resumes) : pending = true := by
  cases phase with
  | idle resting => cases pc <;> simp_all [PollPc.resumes, Owner.Resting]
  | settling settling => cases pc <;> simp_all [PollPc.resumes, Owner.Settling]
  | collecting | collected | abandoned => rfl
  | done _ between => simp at between
  | left leaving => exact leaving.elim

/-- Two on a pending lender is the count of a finished collection. -/
theorem Phase.finished (phase : Phase abandons granted true owner 2 refs notifying)
    (remains : ¬ owner.Leaving) (unraised : owner.raised = 0) : refs = 0 ∧ notifying = 0 := by
  cases phase with
  | collecting _ balance => omega
  | collected _ balance => exact ⟨by omega, rfl⟩
  | abandoned isAbandoned _ balance => omega
  | left leaving => exact absurd leaving remains

theorem Phase.loop {waker : W}
    (phase : Phase abandons granted true
    (.polling (.resumeLoad waker) : Owner W) count refs notifying) :
    (PollPc.loop count waker).elim
      (fun pc => Phase abandons granted true (.polling pc) count refs notifying)
      (PollResult.Agrees W abandons granted true count refs notifying) := by
  simp only [PollPc.loop]
  split_ifs with isTwo isOne
  · subst isTwo
    obtain ⟨rfl, rfl⟩ := phase.finished id rfl
    exact ⟨rfl, rfl, .inr ⟨rfl, rfl⟩⟩
  · exact phase.move id trivial rfl
  · exact phase.move id isOne rfl

/-- `resume_poll` gives its own reference back. -/
theorem Phase.lower {waker : W}
    (phase : Phase abandons granted true (.polling (.lower waker) : Owner W) count refs notifying) :
    2 ≤ count ∧
      Phase abandons granted true (.polling (.resumeLoad waker) : Owner W)
        (count - 2) refs notifying := by
  cases phase with
  | collecting _ balance isQuiet =>
      simp only [Owner.raised] at balance isQuiet
      refine ⟨by omega, .collecting trivial ?_ (.inl (by omega))⟩
      simp only [Owner.raised]
      omega
  | collected _ balance =>
      simp only [Owner.raised] at balance
      refine ⟨by omega, .collected (.inl trivial) ?_⟩
      simp only [Owner.raised]
      omega
  | abandoned isAbandoned _ balance =>
      simp only [Owner.raised] at balance
      refine ⟨by omega, .abandoned isAbandoned (.inl trivial) ?_⟩
      simp only [Owner.raised]
      omega
  | left leaving => exact leaving.elim

/-- `resume_poll` and `cancel_poll` take a reference of their own, unless the
last drop is about to wake the owner. -/
theorem Phase.raise {owner' : Owner W}
    (phase : Phase abandons granted true owner count refs notifying)
    (remains : ¬ owner.Leaving) (unraised : owner.raised = 0) (other : count ≠ 1)
    (waits : owner'.Pending) (raised : owner'.raised = 1) :
    Phase abandons granted true owner' (count + 2) refs notifying := by
  cases phase with
  | collecting _ balance isQuiet => exact .collecting waits (by omega) (.inl (by omega))
  | collected _ balance => exact .collected (.inl waits) (by omega)
  | abandoned isAbandoned _ balance => exact .abandoned isAbandoned (.inl waits) (by omega)
  | left leaving => exact absurd leaving remains

/-- The owner expects a count other than 1. -/
theorem Phase.expects {seen : Nat}
    (phase : Phase abandons granted true owner count refs notifying)
    (isRaise : (∃ waker, owner = .polling (.raise seen waker)) ∨
    owner = .cancelling (.raise seen)) :
    seen ≠ 1 := by
  have waits (waiting : owner.Pending) : seen ≠ 1 := by
    rcases isRaise with ⟨waker, rfl⟩ | rfl <;> exact waiting
  cases phase with
  | collecting waiting => exact waits waiting
  | collected waiting => 
      rcases waiting with waiting | ⟨finishing, _⟩
      · exact waits waiting
      · rcases isRaise with ⟨waker, rfl⟩ | rfl <;> exact finishing.elim
  | abandoned _ waiting =>
      rcases waiting with waiting | rfl
      · exact waits waiting
      · simp at isRaise
  | left leaving => rcases isRaise with ⟨waker, rfl⟩ | rfl <;> exact leaving.elim

theorem Phase.poll_step {pc : PollPc W} {m : Inner W} (spurious : Bool)
    (phase : Phase abandons granted pending (.polling pc : Owner W) m.count refs notifying)
    (room : pc.raises = true → m.count + 2 < usizeRange) :
    let m' := (pc.step spurious m).1
    (pc.step spurious m).2.elim
      (fun pc => Phase abandons granted pending (.polling pc : Owner W) m'.count refs notifying)
      (PollResult.Agrees W abandons granted pending m'.count refs notifying) := by
  have subs (enough : 2 ≤ m.count) : (m.fetchSub 2).count = m.count - 2 :=
    wrappingSub_of_le enough
  cases pc with
  | startLoad waker =>
      obtain ⟨rfl, balance, rfl⟩ := phase.starting trivial
      simp only [PollPc.step]
      split_ifs with isThree
      · exact ⟨by omega, rfl, .inl isThree⟩
      · exact .idle trivial balance
  | startStore waker =>
      obtain ⟨rfl, balance, rfl⟩ := phase.starting trivial
      exact .idle trivial balance
  | startSub =>
      obtain ⟨rfl, balance, rfl⟩ := phase.starting trivial
      simp only [PollPc.step, subs (by omega)]
      split_ifs with isOne
      · obtain rfl : refs = 0 := by omega
        rw [isOne]
        exact .settling trivial
      · refine .collecting trivial ?_ (.inl rfl)
        simp only [Owner.raised]
        omega
  | startClear =>
      obtain ⟨rfl, isOne, rfl, rfl⟩ := phase.settled trivial
      have same : m.clearWaker.count = 1 := isOne
      simp only [PollPc.step, Outcome.elim, same]
      exact .settling trivial
  | startSwap =>
      obtain ⟨rfl, isOne, rfl, rfl⟩ := phase.settled trivial
      simp only [PollPc.step, if_pos isOne]
      exact ⟨rfl, rfl, .inl rfl⟩
  | resumeLoad waker =>
      obtain rfl : pending = true := phase.resumes trivial
      exact phase.loop
  | raise seen waker =>
      obtain rfl : pending = true := phase.resumes trivial
      by_cases exchanged : m.count = seen ∧ !spurious
      · have other : m.count ≠ 1 := exchanged.1 ▸ phase.expects (.inl ⟨waker, rfl⟩)
        have raised : (m.store (wrappingAdd seen 2)).count = m.count + 2 := by
          rw [← exchanged.1]
          exact wrappingAdd_of_lt (room rfl)
        simp only [PollPc.step, if_pos exchanged, Outcome.elim, raised]
        exact phase.raise id rfl other trivial rfl
      · simp only [PollPc.step, if_neg exchanged]
        have loads : Phase abandons granted true
          (.polling (.resumeLoad waker)) m.count refs notifying :=
          phase.move id trivial rfl
        exact loads.loop
  | clear waker =>
      obtain rfl : pending = true := phase.resumes trivial
      exact phase.move id trivial rfl
  | store waker =>
      obtain rfl : pending = true := phase.resumes trivial
      exact phase.move id trivial rfl
  | lower waker =>
      obtain rfl : pending = true := phase.resumes trivial
      obtain ⟨enough, lowered⟩ := phase.lower
      simp only [PollPc.step, subs enough]
      split_ifs with isTwo
      · rw [isTwo] at lowered
        obtain ⟨rfl, rfl⟩ := lowered.finished id rfl
        rw [Outcome.elim, isTwo]
        exact .collected (.inr ⟨trivial, rfl⟩) rfl
      · exact lowered.loop
  | clearLast waker =>
      obtain rfl : pending = true := phase.resumes trivial
      have same : m.clearWaker.count = m.count := rfl
      simp only [PollPc.step, PollPc.loop, if_true, Outcome.elim, same]
      generalize m.count = count at phase
      cases phase with
      | collecting waiting => exact waiting.elim
      | collected waiting balance =>
          obtain ⟨_, rfl⟩ := waiting.resolve_left id
          exact ⟨rfl, rfl, .inr ⟨rfl, balance⟩⟩
      | abandoned _ waiting => simp [Owner.Pending] at waiting
      | left leaving => exact leaving.elim
  | yield waker =>
      obtain rfl : pending = true := phase.resumes trivial
      exact phase.move id trivial rfl

/-- What `cancel_poll` leaves: a lender that still calls its collection pending. -/
def CancelResult.Agrees (W : Type v) (abandons granted : Prop) (count refs notifying : Nat) :
    CancelResult → Prop
  | .done _ => Phase (W := W) abandons granted true .idle count refs notifying
  | .panic => False

theorem Phase.cancels {pc : CancelPc}
    (phase : Phase abandons granted pending (.cancelling pc : Owner W) count refs notifying) :
    pending = true := by
  cases phase with
  | idle resting => exact resting.elim
  | settling settling => exact settling.elim
  | collecting | collected | abandoned => rfl
  | done _ between => simp at between
  | left leaving => exact leaving.elim

theorem Phase.cancel_loop
    (phase : Phase abandons granted true (.cancelling .load : Owner W) count refs notifying) :
    (CancelPc.loop true count).elim
      (fun pc => Phase abandons granted true (.cancelling pc : Owner W) count refs notifying)
      (CancelResult.Agrees W abandons granted count refs notifying) := by
  simp only [CancelPc.loop, if_true]
  split_ifs with isTwo isOne
  · subst isTwo
    obtain ⟨rfl, rfl⟩ := phase.finished id rfl
    exact .collected (.inr ⟨trivial, rfl⟩) rfl
  · exact phase.move id trivial rfl
  · exact phase.move id isOne rfl

theorem Phase.cancel_step {pc : CancelPc} {m : Inner W} (spurious : Bool) (allowed : abandons)
    (phase : Phase abandons granted true (.cancelling pc : Owner W) m.count refs notifying)
    (room : pc.raises = true → m.count + 2 < usizeRange) :
    let m' := (pc.step true spurious m).1
    (pc.step true spurious m).2.elim
      (fun pc => Phase abandons granted true (.cancelling pc : Owner W) m'.count refs notifying)
      (CancelResult.Agrees W abandons granted m'.count refs notifying) := by
  cases pc with
  | load => exact phase.cancel_loop
  | swap =>
      have same : (m.store 3).count = 3 := rfl
      simp only [CancelPc.step, Outcome.elim, same]
      generalize m.count = count at phase
      cases phase with
      | collecting waiting => exact waiting.elim
      | collected waiting balance =>
          obtain ⟨_, rfl⟩ := waiting.resolve_left id
          simp only [Owner.raised] at balance
          rw [if_pos (by omega)]
          exact .abandoned allowed (.inl trivial) le_rfl
      | abandoned _ waiting => simp [Owner.Pending] at waiting
      | left leaving => exact leaving.elim
  | settle =>
      by_cases exchanged : m.count = 1 ∧ !spurious
      · simp only [CancelPc.step, if_pos exchanged, if_true, Outcome.elim]
        have same : (m.store 5).count = 5 := rfl
        rw [same]
        rw [exchanged.1] at phase
        cases phase with
        | collecting _ balance isQuiet =>
            simp only [Owner.raised] at balance
            refine .abandoned allowed (.inl trivial) ?_
            simp only [Owner.raised]
            omega
        | collected _ balance => omega
        | abandoned isAbandoned _ balance => omega
        | left leaving => exact leaving.elim
      · simp only [CancelPc.step, if_neg exchanged]
        have loads : Phase abandons granted true
          (.cancelling .load : Owner W) m.count refs notifying :=
          phase.move id trivial rfl
        exact loads.cancel_loop
  | raise seen =>
      by_cases exchanged : m.count = seen ∧ !spurious
      · have other : m.count ≠ 1 := exchanged.1 ▸ phase.expects (.inr rfl)
        have raised : (m.store (wrappingAdd seen 2)).count = m.count + 2 := by
          rw [← exchanged.1]
          exact wrappingAdd_of_lt (room rfl)
        simp only [CancelPc.step, if_pos exchanged, Outcome.elim, raised]
        generalize m.count = count at phase other
        cases phase with
        | collecting _ balance isQuiet =>
            simp only [Owner.raised] at balance
            refine .abandoned allowed (.inr rfl) ?_
            simp only [Owner.raised]
            omega
        | collected _ balance =>
            simp only [Owner.raised] at balance
            refine .abandoned allowed (.inr rfl) ?_
            simp only [Owner.raised]
            omega
        | abandoned isAbandoned _ balance =>
            simp only [Owner.raised] at balance
            refine .abandoned allowed (.inr rfl) ?_
            simp only [Owner.raised]
            omega
        | left leaving => exact leaving.elim
      · simp only [CancelPc.step, if_neg exchanged]
        have loads : Phase abandons granted true
          (.cancelling .load : Owner W) m.count refs notifying :=
          phase.move id trivial rfl
        exact loads.cancel_loop
  | clear => exact phase.move id trivial rfl

theorem Phase.of_notifying {notifying' : Nat}
    (phase : Phase abandons granted pending owner count refs notifying)
    (same : notifying = notifying') : Phase abandons granted pending owner count refs notifying' :=
  same ▸ phase

end Steps

/-! ## The count is a `usize` -/

section Fits

variable {m : Inner W}

theorem Inner.store_fits (m : Inner W) {new : Nat} (isSmall : new ≤ 5) :
    (m.store new).count < usizeRange :=
  small_lt_usizeRange isSmall

theorem TryPc.step_fits (pending : Bool) (pc : TryPc) (fits : m.count < usizeRange) :
    (pc.step pending m).1.count < usizeRange := by
  cases pc with
  | load => exact fits
  | swap => exact m.store_fits (by decide)

theorem PollPc.step_fits (spurious : Bool) (pc : PollPc W) (fits : m.count < usizeRange) :
    (pc.step spurious m).1.count < usizeRange := by
  cases pc with
  | startSub | lower => exact wrappingSub_lt _ fits
  | startSwap => exact m.store_fits (by decide)
  | raise count =>
      simp only [PollPc.step]
      split_ifs with exchanged
      · exact wrappingAdd_lt (exchanged.1 ▸ fits) (by decide)
      · exact fits
  | _ => exact fits

theorem CancelPc.step_fits (reset spurious : Bool) (pc : CancelPc) (fits : m.count < usizeRange) :
    (pc.step reset spurious m).1.count < usizeRange := by
  cases pc with
  | swap => exact m.store_fits (by decide)
  | settle =>
      simp only [CancelPc.step]
      split_ifs
      · exact m.store_fits (by decide)
      · exact m.store_fits (by decide)
      · exact fits
  | raise count =>
      simp only [CancelPc.step]
      split_ifs with exchanged
      · exact wrappingAdd_lt (exchanged.1 ▸ fits) (by decide)
      · exact fits
  | load | clear => exact fits

end Fits

/-! ## Runs -/

namespace Lender

/-- A collection begins only on the count of an idle lender, nothing is borrowed
while the last drop is about to wake the owner, and the count does not
overflow. -/
def careful : Lender W → Label W → Bool
  | s, .borrow => (s.inner.count ≠ 1 || s.notifying = 0) && s.inner.count + 2 < usizeRange
  | s, .clone _ => s.inner.count + 2 < usizeRange
  | s, .poll _ => s.pending || s.inner.count % 2 = 1
  | s, .owner _ =>
      match s.owner with
      | .polling pc => !pc.raises || s.inner.count + 2 < usizeRange
      | .cancelling pc => !pc.raises || s.inner.count + 2 < usizeRange
      | _ => true
  | _, _ => true

variable {s s' : Lender W} {label : Label W}

theorem Exclusive.init : (Lender.init : Lender W).Exclusive where
  phase := ⟨0, le_rfl, .idle trivial rfl⟩
  fits := small_lt_usizeRange (by decide : 3 ≤ 5)
  grants := by simp [Lender.init]

theorem Exclusive.lend (exclusive : s.Exclusive)
    (able : s.owner = .idle ∧ (s.inner.count = 1 → s.notifying = 0) ∨ 0 < s.alive)
    (room : s.inner.count + 2 < usizeRange) : s.lend.Exclusive := by
  obtain ⟨⟨refs, lent, phase⟩, fits, grants⟩ := exclusive
  have more := phase.lend (able.imp_right fun some => some.trans_le lent)
  have added : (s.inner.fetchAdd 2).count = s.inner.count + 2 := wrappingAdd_of_lt room
  simp only [Lender.lend, incCountRef]
  split_ifs
  · exact ⟨⟨refs + 1, lent.trans (Nat.le_succ refs), added ▸ more⟩,
      wrappingAdd_lt fits (by decide), grants⟩
  · refine ⟨⟨refs + 1, ?_, ?_⟩, wrappingAdd_lt fits (by decide), grants⟩
    · simpa [alive, Handle.alive] using lent
    · simpa [notifying, Handle.notifying, added] using more

/-- The owner gets its `&mut T` with no handle alive. -/
theorem Exclusive.grant {inner : Inner W} {refs : Nat} (exclusive : s.Exclusive)
    (lent : s.alive ≤ refs) (fits : inner.count < usizeRange) (unreferenced : refs = 0)
    (quiet : s.notifying = 0) (balance : inner.count = 3 ∨ inner.count = 2) :
    ({ s with inner }.grant).Exclusive := by
  subst unreferenced
  have none : s.alive = 0 := Nat.le_zero.mp lent
  refine ⟨⟨0, lent, ?_⟩, fits, ?_⟩
  · have isGranted : s.grants ++ [s.alive] ≠ [] := by simp
    show Phase True (s.grants ++ [s.alive] ≠ []) false .idle inner.count 0 s.notifying
    rw [quiet]
    rcases balance with isThree | isTwo
    · exact .idle trivial isThree
    · exact .done isGranted (.inl rfl) isTwo
  · intro count isGrant
    rcases List.mem_append.mp isGrant with earlier | isLast
    · exact exclusive.grants count earlier
    · exact (List.mem_singleton.mp isLast).trans none

theorem Exclusive.owner_step {spurious : Bool} (exclusive : s.Exclusive)
    (careful : s.careful (.owner spurious) = true) (step : s.ownerStep spurious = some s') :
    s'.Exclusive := by
  obtain ⟨⟨refs, lent, phase⟩, fits, grants⟩ := exclusive
  unfold ownerStep at step
  split at step
  · cases step
  · cases step
  · rename_i pc isOwner
    rw [isOwner] at phase
    have agrees := phase.try_step
    have fits' := pc.step_fits s.pending fits
    split at step <;> rename_i inner result isStep <;> obtain rfl := Option.some.inj step <;>
      rw [isStep] at agrees fits'
    · exact ⟨⟨refs, lent, agrees⟩, fits', grants⟩
    · obtain ⟨unreferenced, quiet, balance⟩ := agrees
      exact Exclusive.grant ⟨⟨refs, lent, isOwner ▸ phase⟩, fits, grants⟩ lent fits' unreferenced
        quiet (.inl balance)
    · exact ⟨⟨refs, lent, agrees⟩, fits', grants⟩
    · exact agrees.elim
  · rename_i pc isOwner
    rw [isOwner] at phase
    have room : pc.raises = true → s.inner.count + 2 < usizeRange := by
      intro raises
      simpa [Lender.careful, isOwner, raises] using careful
    have agrees := phase.poll_step spurious room
    have fits' := pc.step_fits spurious fits
    split at step <;> rename_i inner result isStep <;> obtain rfl := Option.some.inj step <;>
      rw [isStep] at agrees fits'
    · exact ⟨⟨refs, lent, agrees⟩, fits', grants⟩
    · obtain ⟨unreferenced, quiet, balance⟩ := agrees
      exact Exclusive.grant ⟨⟨refs, lent, isOwner ▸ phase⟩, fits, grants⟩ lent fits' unreferenced
        quiet (balance.imp_right And.right)
    · exact ⟨⟨refs, lent, agrees⟩, fits', grants⟩
    · exact agrees.elim
  · rename_i pc isOwner
    rw [isOwner] at phase
    have isPending : s.pending = true := phase.cancels
    rw [isPending] at phase
    have room : pc.raises = true → s.inner.count + 2 < usizeRange := by
      intro raises
      simpa [Lender.careful, isOwner, raises] using careful
    have agrees := phase.cancel_step spurious trivial room
    have fits' := pc.step_fits true spurious fits
    split at step <;> rename_i inner result isStep <;> obtain rfl := Option.some.inj step <;>
      rw [isStep] at agrees fits'
    · exact ⟨⟨refs, lent, isPending ▸ agrees⟩, fits', grants⟩
    · exact ⟨⟨refs, lent, isPending ▸ agrees⟩, fits', grants⟩
    · exact agrees.elim
  · rename_i pc isOwner
    have fits' := pc.step_fits false spurious fits
    split at step <;> rename_i inner result isStep <;> obtain rfl := Option.some.inj step <;>
      rw [isStep] at fits'
    · exact ⟨⟨_, le_rfl, .left trivial⟩, fits', grants⟩
    · refine ⟨⟨_, le_rfl, .left ?_⟩, fits', grants⟩
      split_ifs <;> trivial
    · exact ⟨⟨_, le_rfl, .left trivial⟩, fits', grants⟩
  · obtain rfl := Option.some.inj step
    refine ⟨⟨_, le_rfl, .left ?_⟩, wrappingSub_lt _ fits, grants⟩
    simp only
    split_ifs <;> trivial
  · obtain rfl := Option.some.inj step
    exact ⟨⟨_, le_rfl, .left trivial⟩, fits, grants⟩

/-- A drop takes its part of the references with it. -/
theorem Drops.phase {abandons granted : Prop} {index refs : Nat} (drops : s.Drops index s')
    (remains : ¬ s.owner.Leaving) (lent : s.alive ≤ refs)
    (phase : Phase abandons granted s.pending s.owner s.inner.count refs s.notifying) :
    ∃ refs', s'.alive ≤ refs' ∧
      Phase abandons granted s'.pending s'.owner s'.inner.count refs' s'.notifying := by
  have subs (found : s.handles[index]? = some (.dropping .sub)) :
      1 ≤ s.alive ∧ (s.inner.fetchSub 2).count = s.inner.count - 2 ∧ s.inner.count - 2 ≠ 0 ∧
        Phase abandons granted s.pending s.owner (s.inner.count - 2) (refs - 1)
          (if s.inner.count - 2 = 1 then s.notifying + 1 else s.notifying) := by
    have isAlive : 1 ≤ s.alive := alive_of_found found
    obtain ⟨enough, more, less⟩ := phase.sub (isAlive.trans lent) remains
    exact ⟨isAlive, wrappingSub_of_le enough, more, less⟩
  cases drops with
  | last found isZero =>
      obtain ⟨_, subbed, more, _⟩ := subs found
      omega
  | announce found isOne =>
      obtain ⟨_, subbed, _, less⟩ := subs found
      have fewer := alive_moved found (.dropping .wake) (s.inner.fetchSub 2)
      have notes := notifying_moved found (.dropping .wake) (s.inner.fetchSub 2)
      simp only [Handle.alive, Handle.notifying, Bool.toNat_true, Bool.toNat_false] at fewer notes
      rw [if_pos (by omega), ← subbed] at less
      exact ⟨refs - 1, by omega, less.of_notifying (by omega)⟩
  | leave found other =>
      obtain ⟨_, subbed, _, less⟩ := subs found
      have fewer := alive_moved found .gone (s.inner.fetchSub 2)
      have notes := notifying_moved found .gone (s.inner.fetchSub 2)
      simp only [Handle.alive, Handle.notifying, Bool.toNat_true, Bool.toNat_false] at fewer notes
      rw [if_neg (by omega), ← subbed] at less
      exact ⟨refs - 1, by omega, less.of_notifying (by omega)⟩
  | wake found =>
      have same := alive_moved found (.dropping .exchange) s.inner.wakeWaker
      have notes := notifying_moved found (.dropping .exchange) s.inner.wakeWaker
      simp only [Handle.alive, Handle.notifying, Bool.toNat_true, Bool.toNat_false] at same notes
      exact ⟨refs, by omega, phase.of_notifying (by omega)⟩
  | finish found isOne =>
      have same := alive_moved found .gone (s.inner.store 2)
      have notes := notifying_moved found .gone (s.inner.store 2)
      simp only [Handle.alive, Handle.notifying, Bool.toNat_true, Bool.toNat_false] at same notes
      obtain ⟨earlier, isMore⟩ : ∃ earlier, s.notifying = earlier + 1 :=
        Nat.exists_eq_succ_of_ne_zero (by omega)
      have exchanges := (phase.of_notifying isMore).exchange remains
      rw [if_pos isOne] at exchanges
      exact ⟨refs, by omega, exchanges.of_notifying (by omega)⟩
  | retry found other =>
      have same := alive_moved found (.dropping .sub) s.inner.access
      have notes := notifying_moved found (.dropping .sub) s.inner.access
      simp only [Handle.alive, Handle.notifying, Bool.toNat_true, Bool.toNat_false] at same notes
      obtain ⟨earlier, isMore⟩ : ∃ earlier, s.notifying = earlier + 1 :=
        Nat.exists_eq_succ_of_ne_zero (by omega)
      have exchanges := (phase.of_notifying isMore).exchange remains
      rw [if_neg other] at exchanges
      exact ⟨refs + 1, by omega, exchanges.of_notifying (by omega)⟩
  | free found =>
      have same := alive_moved found .gone s.inner.dealloc
      have notes := notifying_moved found .gone s.inner.dealloc
      simp only [Handle.alive, Handle.notifying, Bool.toNat_false] at same notes
      exact ⟨refs, by omega, phase.of_notifying (by omega)⟩

theorem Drops.fits {index : Nat} (drops : s.Drops index s') (fits : s.inner.count < usizeRange) :
    s'.inner.count < usizeRange := by
  cases drops with
  | last | announce | leave => exact wrappingSub_lt 2 fits
  | finish => exact s.inner.store_fits (by decide)
  | wake | retry | free => exact fits

theorem Exclusive.handle_step {index : Nat} (exclusive : s.Exclusive)
    (step : s.handleStep index = some s') : s'.Exclusive := by
  obtain ⟨⟨refs, lent, phase⟩, fits, grants⟩ := exclusive
  have drops := drops_of_handleStep step
  have sameOwner : s'.owner = s.owner := by cases drops <;> rfl
  have sameGrants : s'.grants = s.grants := by cases drops <;> rfl
  by_cases leaving : s.owner.Leaving
  · exact ⟨⟨_, le_rfl, .left (sameOwner ▸ leaving)⟩, drops.fits fits, sameGrants ▸ grants⟩
  · exact ⟨sameGrants ▸ drops.phase leaving lent phase, drops.fits fits, sameGrants ▸ grants⟩

theorem Exclusive.step (exclusive : s.Exclusive) (careful : s.careful label = true)
    (step : Lender.step s label = some s') : s'.Exclusive := by
  have called (between : s.owner = .idle) (step : s.call label = some s') : s'.Exclusive := by
    obtain ⟨⟨refs, lent, phase⟩, fits, grants⟩ := id exclusive
    rw [between] at phase
    cases label with
    | borrow =>
        obtain rfl := Option.some.inj step
        simp only [Lender.careful, Bool.and_eq_true, Bool.or_eq_true, decide_eq_true_eq] at careful
        have quiet : s.inner.count = 1 → s.notifying = 0 :=
          fun isOne => careful.1.resolve_left (absurd isOne)
        exact exclusive.lend (.inl ⟨between, quiet⟩) careful.2
    | tryCollect =>
        obtain rfl := Option.some.inj step
        exact ⟨⟨refs, lent, phase.begin (.inl rfl)⟩, fits, grants⟩
    | poll waker =>
        obtain rfl := Option.some.inj step
        refine ⟨⟨refs, lent, phase.begin (.inr ?_)⟩, fits, grants⟩
        cases isPending : s.pending with
        | true => exact .inl ⟨rfl, trivial, rfl⟩
        | false => exact .inr ⟨rfl, trivial, by simpa [Lender.careful, isPending] using careful⟩
    | cancel =>
        cases isPending : s.pending with
        | true =>
            have cancels : s.call .cancel = some { s with owner := .cancelling .load } := by
              simp [Lender.call, isPending]
            rw [cancels] at step
            obtain rfl := Option.some.inj step
            exact ⟨⟨refs, lent, phase.begin (.inr (.inl ⟨isPending, trivial, rfl⟩))⟩, fits, grants⟩
        | false =>
            simp only [Lender.call, isPending] at step
            obtain rfl := Option.some.inj step
            exact exclusive
    | drop =>
        obtain rfl := Option.some.inj step
        refine ⟨⟨refs, lent, .left ?_⟩, fits, grants⟩
        cases isPending : s.pending <;> trivial
    | owner | clone | release | handle => cases step
  cases label with
  | owner spurious => exact exclusive.owner_step careful step
  | clone index =>
      obtain ⟨⟨refs, lent, phase⟩, fits, grants⟩ := id exclusive
      simp only [Lender.step] at step
      split at step
      · rename_i found
        obtain rfl := Option.some.inj step
        have isAlive : 1 ≤ s.alive := alive_of_found found
        exact exclusive.lend (.inr isAlive) (by simpa [Lender.careful] using careful)
      · cases step
  | release index => 
      obtain ⟨⟨refs, lent, phase⟩, fits, grants⟩ := exclusive
      simp only [Lender.step] at step
      split at step
      · rename_i found
        obtain rfl := Option.some.inj step
        have same := alive_moved found (.dropping .sub) s.inner
        have notes := notifying_moved found (.dropping .sub) s.inner
        simp only [Handle.alive, Handle.notifying, Bool.toNat_true, Bool.toNat_false] at same notes
        exact ⟨⟨refs, by omega, phase.of_notifying (by omega)⟩, fits, grants⟩
      · cases step
  | handle index => exact exclusive.handle_step step
  | borrow | tryCollect | poll | cancel | drop =>
      simp only [Lender.step] at step
      split at step
      · exact called ‹_› step
      · cases step

end Lender

/-- In a run whose steps are careful, the value is handed out only when no
handle is alive. -/
theorem lender_exclusive {s : Lender W}
    (reachable : ReachableUnder Lender.step (fun s label => s.careful label = true)
      Lender.init s) : ∀ alive ∈ s.grants, alive = 0 := by
  have exclusive : s.Exclusive := by
    apply reachable.invariant Lender.Exclusive.init
    intro state label result exclusive careful step
    exact exclusive.step careful step
  exact exclusive.grants

/-- A second collection of a value collected by `resume_poll` is `Ready` while a
handle is alive. -/
theorem lender_aliases : ¬ ∀ s : Lender Nat, Reachable Lender.step Lender.init s →
    ∀ alive ∈ s.grants, alive = 0 := by
  intro always
  obtain ⟨s, ran, granted⟩ : ∃ s ∈ runFrom Lender.step (Lender.init : Lender Nat)
      [.borrow, .poll 0, .owner false, .owner false, .owner false, .release 0, .handle 0,
        .handle 0, .handle 0, .poll 0, .owner false, .borrow, .poll 0, .owner false,
        .owner false, .owner false, .poll 0, .owner false],
      s.grants = [0, 1] := by
    decide +kernel
  have none := always s (reachable_of_runFrom ran) 1
  simp [granted] at none

theorem lender_exclusive_of_wait :
    ∃ s : Lender Nat, s.grants = [0, 0] ∧ ∀ alive ∈ s.grants, alive = 0 := by
  obtain ⟨s, ran, granted⟩ : ∃ s ∈ runFrom (guarded Lender.step Lender.careful)
      (Lender.init : Lender Nat)
      [.borrow, .poll 0, .owner false, .owner false, .owner false, .release 0, .handle 0,
        .handle 0, .handle 0, .tryCollect, .owner false, .owner false, .borrow, .poll 0,
        .owner false, .owner false, .owner false, .release 1, .handle 1, .handle 1, .handle 1,
        .poll 0, .owner false],
      s.grants = [0, 0] := by
    decide +kernel
  exact ⟨s, granted, lender_exclusive (reachableUnder_of_runFrom ran)⟩

end Suspend.Shared
