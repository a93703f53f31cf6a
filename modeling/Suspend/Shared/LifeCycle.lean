import Suspend.Shared.Exclusive

/-!
# The life of a lender's allocation

Calls are made one at a time here.  The lender's drop takes the bias of 3 off
the count and the last reference frees; it frees at once when it finds no
reference left.  This needs the bias of an idle lender: a pending collection is
not cancelled, and not polled to its end, and nothing is borrowed between its
end and the drop.
-/

namespace Suspend.Shared

open Suspend.Transition

universe v

variable {W : Type v}

/-! ## Whole calls -/

namespace Handle

/-- Between calls. -/
def resting : Handle → Bool
  | held | gone => true
  | _ => false

end Handle

namespace Lender

/-- Calls do not overlap. -/
def wholeCalls : Lender W → Label W → Bool
  | _, .owner _ | _, .handle _ => true
  | s, _ =>
      s.handles.all Handle.resting &&
        match s.owner with
        | .idle | .gone => true
        | _ => false

/-- A call begins when no other is in progress. -/
theorem between_of_wholeCalls {s : Lender W} {label : Label W} (whole : s.wholeCalls label = true)
    (notOwner : ∀ spurious, label ≠ .owner spurious)
    (notHandle : ∀ index, label ≠ .handle index) :
    (∀ handle ∈ s.handles, handle.resting = true) ∧ (s.owner = .idle ∨ s.owner = .gone) := by
  cases label
  case owner spurious => exact absurd rfl (notOwner spurious)
  case handle index => exact absurd rfl (notHandle index)
  all_goals
    simp only [wholeCalls, Bool.and_eq_true, List.all_eq_true] at whole
    refine ⟨whole.1, ?_⟩
    have between := whole.2
    split at between
    · exact .inl ‹_›
    · exact .inr ‹_›
    · cases between

/-- A pending collection is not cancelled and not polled to its end, the lender
is not dropped with handles that were borrowed since, and no borrow panics. -/
def tidy : Lender W → Label W → Bool
  | s, .borrow | s, .clone _ => s.inner.count ≤ maxRefcount
  | s, .poll _ => !s.pending || s.inner.count ≠ 2
  | s, .cancel => !s.pending
  | s, .drop => !s.pending || s.inner.count % 2 = 1 || s.inner.count = 2
  | _, _ => true

/-- The allocation is freed once, when the lender and its handles are gone. -/
structure FreedOnce (s : Lender W) : Prop where
  unwrapped : s.inner.wrapped = false
  unfreed : ¬ s.owner.Leaving ∨ 0 < s.alive → s.inner.freed = 0
  once : s.owner = .gone → (∀ handle ∈ s.handles, handle = .gone) → s.inner.freed = 1

end Lender

/-! ## The invariant -/

/-- What the owner of a lender does while the handles rest: `start_poll` and
`resume_poll` are past their first load only with a reference out. -/
def Owner.Whole (refs : Nat) : Owner W → Prop
  | idle | trying _ | polling (.startLoad _) => True
  | polling (.startStore _) | polling .startSub | polling (.resumeLoad _)
  | polling (.raise _ _) | polling (.clear _) | polling (.store _) | polling (.lower _) => 0 < refs
  | _ => False

/-- The count during the drop of the lender. -/
def Owner.Closing (count refs : Nat) : Owner W → Prop
  | closing .load =>
      count ≤ maxRefcount + 2 ∧ (count = 1 + 2 * refs ∧ 0 < refs ∨ count = 2 ∧ refs = 0)
  | closing (.raise _) => count ≤ maxRefcount + 2 ∧ count = 1 + 2 * refs ∧ 0 < refs
  | closing .clear | dropping => count = 3 + 2 * refs
  | freeing => refs = 0
  | _ => False

/-- Where the allocation is in its life. -/
inductive Lender.Life (s : Lender W) : Prop
  /-- The lender is there. -/
  | lent (phase : Phase False False s.pending s.owner s.inner.count s.alive s.notifying)
      (whole : s.owner.Whole s.alive)
      (small : s.inner.count ≤ maxRefcount + 2 + 2 * s.owner.raised)
      (woken : s.inner.count = 1 → s.notifying = 1) (unfreed : s.inner.freed = 0)
      (none : s.freeing = 0)
  /-- The lender is being dropped. -/
  | closing (closes : s.owner.Closing s.inner.count s.alive) (unfreed : s.inner.freed = 0)
      (quiet : s.notifying = 0) (none : s.freeing = 0)
  /-- The handles have outlived the lender. -/
  | outlived (isGone : s.owner = .gone) (balance : s.inner.count = 2 * s.alive)
      (some : 0 < s.alive) (unfreed : s.inner.freed = 0) (quiet : s.notifying = 0)
      (none : s.freeing = 0)
  /-- The last handle is to free the allocation. -/
  | last (isGone : s.owner = .gone) (unfreed : s.inner.freed = 0) (dead : s.alive = 0)
      (quiet : s.notifying = 0) (one : s.freeing = 1)
  | finished (isGone : s.owner = .gone) (once : s.inner.freed = 1) (dead : s.alive = 0)
      (quiet : s.notifying = 0) (none : s.freeing = 0)

/-- The allocation is in its life, and only one party is in a call. -/
structure Lender.Living (s : Lender W) : Prop where
  life : s.Life
  alone : s.owner = .idle ∨ s.owner = .gone ∨ ∀ handle ∈ s.handles, handle.resting = true
  unwrapped : s.inner.wrapped = false

namespace Lender

variable {s s' : Lender W} {label : Label W}

theorem Living.freedOnce (living : s.Living) : s.FreedOnce where
  unwrapped := living.unwrapped
  unfreed present := by
    cases living.life with
    | lent _ _ _ _ unfreed => exact unfreed
    | closing _ unfreed => exact unfreed
    | outlived _ _ _ unfreed => exact unfreed
    | last _ unfreed => exact unfreed
    | finished isGone _ dead =>
        rcases present with stays | some
        · rw [isGone] at stays
          exact absurd trivial stays
        · omega
  once isGone allGone := by
    obtain ⟨dead, _, unburdened⟩ := tallies_of_gone allGone
    cases living.life with
    | lent _ whole =>
        rw [isGone] at whole
        exact whole.elim
    | closing closes =>
        rw [isGone] at closes
        exact closes.elim
    | outlived _ _ some => omega
    | last _ _ _ _ one => omega
    | finished _ once => exact once

theorem Living.init : (Lender.init : Lender W).Living where
  life := by
    refine .lent (.idle trivial rfl) trivial ?_ (fun isOne => by cases isOne) rfl rfl
    have small := three_le_maxRefcount
    show 3 ≤ maxRefcount + 2
    omega
  alone := .inl rfl
  unwrapped := rfl

/-! ## Steps of the owner -/

theorem quiet_of_resting (rests : ∀ handle ∈ s.handles, handle.resting = true) :
    s.notifying = 0 ∧ s.freeing = 0 := by
  constructor
  · apply List.sum_eq_zero
    intro weight isWeight
    obtain ⟨handle, isHandle, rfl⟩ := List.mem_map.mp isWeight
    have rests := rests handle isHandle
    cases handle <;> simp_all [Handle.resting, Handle.notifying]
  · apply List.sum_eq_zero
    intro weight isWeight
    obtain ⟨handle, isHandle, rfl⟩ := List.mem_map.mp isWeight
    have rests := rests handle isHandle
    cases handle <;> simp_all [Handle.resting, Handle.isFreeing]

/-- With a reference out, a pending collection has not ended. -/
theorem three_le_of_phase {owner : Owner W} {count refs notifying : Nat}
    (phase : Phase False False true owner count refs notifying) (remains : ¬ owner.Leaving)
    (some : 0 < refs) : 3 ≤ count := by
  cases phase with
  | collecting _ balance => omega
  | collected _ balance => omega
  | abandoned never => exact never.elim
  | left leaving => exact absurd leaving remains

theorem loop_of_three_le {count : Nat} {waker : W} (many : 3 ≤ count) :
    PollPc.loop count waker = .goto (.raise count waker) := by
  rw [PollPc.loop, if_neg (by omega), if_neg (by omega)]

/-- Where a poll goes on while the handles rest. -/
theorem poll_whole {pc : PollPc W} {m : Inner W} {refs : Nat} {pending : Bool} (spurious : Bool)
    (phase : Phase False False pending (.polling pc) m.count refs 0)
    (room : m.count + 2 < usizeRange) (whole : (Owner.polling pc).Whole refs) :
    let m' := (pc.step spurious m).1
    m'.freed = m.freed ∧ (m.wrapped = false → m'.wrapped = false) ∧
      (pc.step spurious m).2.elim
        (fun pc' => (Owner.polling pc').Whole refs ∧ 3 ≤ m'.count ∧
          m'.count + 2 * (Owner.polling pc).raised = m.count + 2 * (Owner.polling pc').raised)
        (fun result => result = .ready ∧ m'.count = 3 ∧ refs = 0 ∨
          result = .pending ∧ m'.count + 2 = m.count ∧ 3 ≤ m'.count) := by
  have subbed (enough : 2 ≤ m.count) : (m.fetchSub 2).count = m.count - 2 :=
    wrappingSub_of_le enough
  have unwrapped (enough : 2 ≤ m.count) :
      m.wrapped = false → (m.fetchSub 2).wrapped = false := by
    intro earlier
    simp only [Inner.fetchSub, earlier, Bool.false_or, decide_eq_false_iff_not, not_lt]
    exact enough
  cases pc with
  | startLoad waker =>
      obtain ⟨rfl, balance, _⟩ := phase.starting trivial
      simp only [PollPc.step]
      refine ⟨rfl, id, ?_⟩
      split_ifs with isThree
      · exact .inl ⟨rfl, isThree, by omega⟩
      · have some : 0 < refs := by omega
        exact ⟨some, by simp [Inner.access]; omega, rfl⟩
  | startStore waker =>
      obtain ⟨rfl, balance, _⟩ := phase.starting trivial
      exact ⟨rfl, id, whole, by simp [PollPc.step, Inner.storeWaker, Inner.access]; omega, rfl⟩
  | startSub =>
      obtain ⟨rfl, balance, _⟩ := phase.starting trivial
      have some : 0 < refs := whole
      simp only [PollPc.step]
      refine ⟨rfl, unwrapped (by omega), ?_⟩
      have isSub := subbed (by omega)
      rw [if_neg (by omega)]
      exact .inr ⟨rfl, by omega, by omega⟩
  | startClear | startSwap | clearLast | yield => exact whole.elim
  | resumeLoad waker =>
      obtain rfl : pending = true := phase.resumes trivial
      have many := three_le_of_phase phase id whole
      simp only [PollPc.step]
      rw [loop_of_three_le many]
      exact ⟨rfl, id, whole, many, rfl⟩
  | raise seen waker =>
      obtain rfl : pending = true := phase.resumes trivial
      have many := three_le_of_phase phase id whole
      by_cases exchanged : m.count = seen ∧ !spurious
      · have raised : (m.store (wrappingAdd seen 2)).count = m.count + 2 := by
          rw [← exchanged.1]
          exact wrappingAdd_of_lt room
        simp only [PollPc.step, if_pos exchanged]
        refine ⟨rfl, id, whole, ?_, ?_⟩
        · omega
        · simp only [Owner.raised]
          omega
      · simp only [PollPc.step, if_neg exchanged]
        rw [loop_of_three_le many]
        exact ⟨rfl, id, whole, many, rfl⟩
  | clear waker =>
      obtain rfl : pending = true := phase.resumes trivial
      exact ⟨rfl, id, whole, three_le_of_phase phase id whole, rfl⟩
  | store waker =>
      obtain rfl : pending = true := phase.resumes trivial
      exact ⟨rfl, id, whole, three_le_of_phase phase id whole, rfl⟩
  | lower waker =>
      obtain rfl : pending = true := phase.resumes trivial
      obtain ⟨enough, lowered⟩ := phase.lower
      have many := three_le_of_phase lowered id whole
      have isSub := subbed enough
      simp only [PollPc.step]
      refine ⟨rfl, unwrapped enough, ?_⟩
      rw [if_neg (by omega), isSub, loop_of_three_le many]
      refine ⟨whole, many, ?_⟩
      simp only [Owner.raised]
      omega

theorem Living.grant {inner : Inner W} (isThree : inner.count = 3) (unreferenced : s.alive = 0)
    (rests : ∀ handle ∈ s.handles, handle.resting = true) (unfreed : inner.freed = 0)
    (unwrapped : inner.wrapped = false) : ({ s with inner }.grant).Living := by
  obtain ⟨quiet, none⟩ := quiet_of_resting rests
  refine ⟨.lent ?_ trivial ?_ ?_ unfreed none, .inl rfl, unwrapped⟩
  · have balance : inner.count = 3 + 2 * s.alive := by omega
    show Phase False False false .idle inner.count s.alive s.notifying
    rw [quiet]
    exact .idle trivial balance
  · have small := three_le_maxRefcount
    show inner.count ≤ maxRefcount + 2
    omega
  · intro isOne
    have isOne : inner.count = 1 := isOne
    omega

theorem Living.lent_step {spurious : Bool}
    (phase : Phase False False s.pending s.owner s.inner.count s.alive s.notifying)
    (whole : s.owner.Whole s.alive) (small : s.inner.count ≤ maxRefcount + 2 + 2 * s.owner.raised)
    (woken : s.inner.count = 1 → s.notifying = 1) (unfreed : s.inner.freed = 0)
    (rests : ∀ handle ∈ s.handles, handle.resting = true) (unwrapped : s.inner.wrapped = false)
    (step : s.ownerStep spurious = some s') : s'.Living := by
  obtain ⟨quiet, none⟩ := quiet_of_resting rests
  have room := maxRefcount_add_lt
  rw [quiet] at phase
  unfold ownerStep at step
  split at step
  · cases step
  · cases step
  · rename_i pc isOwner
    rw [isOwner] at phase small
    have agrees := phase.try_step
    cases pc with
    | load =>
        simp only [TryPc.step] at step agrees
        split_ifs at step agrees with emptied free <;> obtain rfl := Option.some.inj step
        · exact ⟨.lent (quiet ▸ agrees) trivial small woken unfreed none,
            .inr (.inr rests), unwrapped⟩
        · exact Living.grant free.2 agrees.1 rests unfreed unwrapped
        · exact ⟨.lent (quiet ▸ agrees) trivial small woken unfreed none, .inl rfl, unwrapped⟩
    | swap =>
        simp only [TryPc.step] at step agrees
        split_ifs at step agrees with isTwo
        · obtain rfl := Option.some.inj step
          exact Living.grant rfl agrees.1 rests unfreed unwrapped
        · exact agrees.elim
  · rename_i pc isOwner
    rw [isOwner] at phase small whole
    have isRaised : (Owner.polling pc).raised ≤ 1 := by cases pc <;> simp [Owner.raised]
    have agrees := phase.poll_step spurious (by omega)
    obtain ⟨sameFreed, sameWrapped, goes⟩ := poll_whole spurious phase (by omega) whole
    split at step <;> rename_i inner result isStep <;> obtain rfl := Option.some.inj step <;>
      rw [isStep] at agrees goes sameFreed sameWrapped
    · obtain ⟨whole', many, balance⟩ := goes
      simp only at many balance
      refine ⟨.lent (quiet ▸ agrees) whole' ?_ ?_ (sameFreed.trans unfreed) none,
        .inr (.inr rests), sameWrapped unwrapped⟩
      · simp only
        omega
      · simp only
        omega
    · obtain ⟨_, isThree, unreferenced⟩ := goes.resolve_right (by simp)
      exact Living.grant isThree unreferenced rests (sameFreed.trans unfreed)
        (sameWrapped unwrapped)
    · obtain ⟨_, less, many⟩ := goes.resolve_left (by simp)
      simp only at many less
      refine ⟨.lent (quiet ▸ agrees) trivial ?_ ?_ (sameFreed.trans unfreed) none,
        .inl rfl, sameWrapped unwrapped⟩
      · simp only [Owner.raised]
        omega
      · simp only
        omega
    · exact agrees.elim
  · rename_i pc isOwner
    rw [isOwner] at whole
    exact whole.elim
  · rename_i pc isOwner
    rw [isOwner] at whole
    exact whole.elim
  · rename_i isOwner
    rw [isOwner] at whole
    exact whole.elim
  · rename_i isOwner
    rw [isOwner] at whole
    exact whole.elim

theorem Living.closing_step {spurious : Bool}
    (closes : s.owner.Closing s.inner.count s.alive) (unfreed : s.inner.freed = 0)
    (rests : ∀ handle ∈ s.handles, handle.resting = true) (unwrapped : s.inner.wrapped = false)
    (step : s.ownerStep spurious = some s') : s'.Living := by
  obtain ⟨quiet, none⟩ := quiet_of_resting rests
  have room := maxRefcount_add_lt
  unfold ownerStep at step
  split at step
  · cases step
  · cases step
  · rename_i pc isOwner
    rw [isOwner] at closes
    exact closes.elim
  · rename_i pc isOwner
    rw [isOwner] at closes
    exact closes.elim
  · rename_i pc isOwner
    rw [isOwner] at closes
    exact closes.elim
  · rename_i pc isOwner
    rw [isOwner] at closes
    cases pc with
    | load =>
        obtain ⟨small, ⟨balance, some⟩ | ⟨isTwo, unreferenced⟩⟩ := closes
        · have looped : CancelPc.loop false s.inner.count = .goto (.raise s.inner.count) := by
            rw [CancelPc.loop, if_neg (by omega), if_neg (by omega)]
          simp only [CancelPc.step, looped] at step
          obtain rfl := Option.some.inj step
          exact ⟨.closing ⟨small, balance, some⟩ unfreed quiet none, .inr (.inr rests), unwrapped⟩
        · have looped : CancelPc.loop false s.inner.count = .ret (.done true) := by
            rw [isTwo]
            rfl
          simp only [CancelPc.step, looped, if_true] at step
          obtain rfl := Option.some.inj step
          exact ⟨.closing unreferenced unfreed quiet none, .inr (.inr rests), unwrapped⟩
    | swap => exact closes.elim
    | settle => exact closes.elim
    | raise seen =>
        obtain ⟨small, balance, some⟩ := closes
        by_cases exchanged : s.inner.count = seen ∧ !spurious
        · have raised : wrappingAdd seen 2 = s.inner.count + 2 := by
            rw [← exchanged.1]
            exact wrappingAdd_of_lt (by omega)
          simp only [CancelPc.step, if_pos exchanged] at step
          obtain rfl := Option.some.inj step
          have balance' : wrappingAdd seen 2 = 3 + 2 * s.alive := by omega
          exact ⟨.closing balance' unfreed quiet none, .inr (.inr rests), unwrapped⟩
        · have looped : CancelPc.loop false s.inner.count = .goto (.raise s.inner.count) := by
            rw [CancelPc.loop, if_neg (by omega), if_neg (by omega)]
          simp only [CancelPc.step, if_neg exchanged, looped] at step
          obtain rfl := Option.some.inj step
          exact ⟨.closing ⟨small, balance, some⟩ unfreed quiet none, .inr (.inr rests), unwrapped⟩
    | clear =>
        obtain rfl := Option.some.inj step
        exact ⟨.closing closes unfreed quiet none, .inr (.inr rests), unwrapped⟩
  · rename_i isOwner
    rw [isOwner] at closes
    have balance : s.inner.count = 3 + 2 * s.alive := closes
    have subbed : (s.inner.fetchSub 3).count = s.inner.count - 3 :=
      wrappingSub_of_le (by omega)
    have unwrapped' : (s.inner.fetchSub 3).wrapped = false := by
      have enough : ¬ s.inner.count < 3 := by omega
      simp [Inner.fetchSub, unwrapped, enough]
    obtain rfl := Option.some.inj step
    by_cases isThree : s.inner.count = 3
    · refine ⟨.closing ?_ unfreed quiet none, .inr (.inr rests), unwrapped'⟩
      rw [if_pos isThree]
      show s.alive = 0
      omega
    · refine ⟨.outlived ?_ ?_ ?_ unfreed quiet none, .inr (.inr rests), unwrapped'⟩
      · rw [if_neg isThree]
      · show (s.inner.fetchSub 3).count = 2 * s.alive
        omega
      · show 0 < s.alive
        omega
  · rename_i isOwner
    rw [isOwner] at closes
    obtain rfl := Option.some.inj step
    have once : s.inner.dealloc.freed = 1 := by
      rw [Inner.dealloc, unfreed]
    exact ⟨.finished rfl once closes quiet none, .inr (.inl rfl), unwrapped⟩

theorem Living.owner_step {spurious : Bool} (living : s.Living)
    (step : s.ownerStep spurious = some s') : s'.Living := by
  obtain ⟨life, alone, unwrapped⟩ := living
  have called : s.owner ≠ .idle ∧ s.owner ≠ .gone := by
    constructor <;> intro between <;> simp [ownerStep, between] at step
  have rests := (alone.resolve_left called.1).resolve_left called.2
  cases life with
  | lent phase whole small woken unfreed =>
      exact lent_step phase whole small woken unfreed rests unwrapped step
  | closing closes unfreed => exact closing_step closes unfreed rests unwrapped step
  | outlived isGone => exact absurd isGone called.2
  | last isGone => exact absurd isGone called.2
  | finished isGone => exact absurd isGone called.2

/-! ## Steps of the handles -/

/-- While a reference is out, no drop has found itself the last. -/
theorem quiet_of_phase {pending : Bool} {owner : Owner W} {count refs notifying : Nat}
    (phase : Phase False False pending owner count refs notifying) (remains : ¬ owner.Leaving)
    (some : 0 < refs) : notifying = 0 := by
  cases phase with
  | idle | settling | collected => rfl
  | collecting _ _ quiet => omega
  | abandoned never => exact never.elim
  | done never => exact never.elim
  | left leaving => exact absurd leaving remains

/-- The count stays 1 while the last drop wakes the owner. -/
theorem one_of_notifying {pending : Bool} {owner : Owner W} {count refs notifying : Nat}
    (phase : Phase False False pending owner count refs (notifying + 1))
    (remains : ¬ owner.Leaving) : count = 1 := by
  cases phase with
  | collecting _ balance quiet => omega
  | abandoned never => exact never.elim
  | left leaving => exact absurd leaving remains

theorem idle_balance {count refs notifying : Nat}
    (phase : Phase False False false (.idle : Owner W) count refs notifying) :
    count = 3 + 2 * refs := by
  cases phase with
  | idle _ balance => exact balance
  | settling settling => exact settling.elim
  | done never => exact never.elim
  | left leaving => exact leaving.elim

theorem pending_balance {count refs notifying : Nat}
    (phase : Phase False False true (.idle : Owner W) count refs notifying) :
    count = 1 + 2 * refs ∨ count = 2 + 2 * refs := by
  cases phase with
  | collecting _ balance => exact .inl balance
  | collected _ balance => exact .inr balance
  | abandoned never => exact never.elim
  | left leaving => exact leaving.elim

/-- The handles of a lender that is there move among themselves. -/
theorem Life.lent_moved {index : Nat} {source target : Handle} {inner : Inner W}
    (found : s.handles[index]? = some source) (between : s.owner = .idle)
    (unburdened : target.isFreeing = source.isFreeing) {refs notifying : Nat}
    (lent : refs + source.alive.toNat = s.alive + target.alive.toNat)
    (notifies : notifying + source.notifying.toNat = s.notifying + target.notifying.toNat)
    (phase : Phase False False s.pending s.owner inner.count refs notifying)
    (small : inner.count ≤ maxRefcount + 2) (woken : inner.count = 1 → notifying = 1)
    (unfreed : inner.freed = 0) (none : s.freeing = 0) :
    ({ s with inner, handles := s.handles.set index target } : Lender W).Life := by
  have isAlive := alive_moved found target inner
  have isNotifying := notifying_moved found target inner
  have isFreeing := freeing_moved found target inner
  rw [unburdened] at isFreeing
  obtain rfl :
      refs = ({ s with inner, handles := s.handles.set index target } : Lender W).alive := by
    omega
  obtain rfl :
      notifying =
        ({ s with inner, handles := s.handles.set index target } : Lender W).notifying := by
    omega
  refine .lent phase ?_ ?_ woken unfreed (by omega)
  · simp only [between]
    trivial
  · simp only [between]
    exact small

/-- A handle is dropped while the owner is between calls. -/
theorem Drops.between {index : Nat} (drops : s.Drops index s')
    (alone : s.owner = .idle ∨ s.owner = .gone ∨ ∀ handle ∈ s.handles, handle.resting = true) :
    s.owner = .idle ∨ s.owner = .gone := by
  rcases alone with isIdle | isGone | rests
  · exact .inl isIdle
  · exact .inr isGone
  · cases drops with
    | last found | announce found | leave found | wake found | finish found | retry found
    | free found =>
        have resting := rests _ (List.mem_of_getElem? found)
        simp [Handle.resting] at resting

/-- The handle that is dropped counts for something. -/
theorem Drops.stirs {index : Nat} (drops : s.Drops index s') :
    0 < s.alive + s.notifying + s.freeing := by
  cases drops with
  | last found | announce found | leave found =>
      have isAlive : 1 ≤ s.alive := alive_of_found found
      omega
  | wake found | finish found | retry found =>
      have isNotifying : 1 ≤ s.notifying := notifying_of_found found
      omega
  | free found =>
      have isFreeing : 1 ≤ s.freeing := freeing_of_found found
      omega

theorem Drops.unwrapped {index : Nat} (drops : s.Drops index s')
    (enough : 0 < s.alive → 2 ≤ s.inner.count) (unwrapped : s.inner.wrapped = false) :
    s'.inner.wrapped = false := by
  have subbed (found : s.handles[index]? = some (.dropping .sub)) :
      (s.inner.fetchSub 2).wrapped = false := by
    have isAlive : 1 ≤ s.alive := alive_of_found found
    have notLess : ¬ s.inner.count < 2 := Nat.not_lt.mpr (enough isAlive)
    simp [Inner.fetchSub, unwrapped, notLess]
  cases drops with
  | last found | announce found | leave found => exact subbed found
  | wake | finish | retry | free => exact unwrapped

/-- A handle of a lender that is there is dropped. -/
theorem Life.lent_drops {index : Nat} (drops : s.Drops index s') (isIdle : s.owner = .idle)
    (phase : Phase False False s.pending s.owner s.inner.count s.alive s.notifying)
    (small : s.inner.count ≤ maxRefcount + 2) (woken : s.inner.count = 1 → s.notifying = 1)
    (unfreed : s.inner.freed = 0) (none : s.freeing = 0) : s'.Life := by
  have remains : ¬ s.owner.Leaving := by
    rw [isIdle]
    exact id
  have subs (found : s.handles[index]? = some (.dropping .sub)) :
      1 ≤ s.alive ∧ s.notifying = 0 ∧ (s.inner.fetchSub 2).count = s.inner.count - 2 ∧
        s.inner.count - 2 ≠ 0 ∧ Phase False False s.pending s.owner (s.inner.count - 2)
          (s.alive - 1) (if s.inner.count - 2 = 1 then s.notifying + 1 else s.notifying) := by
    have isAlive : 1 ≤ s.alive := alive_of_found found
    obtain ⟨enough, more, less⟩ := phase.sub isAlive remains
    exact ⟨isAlive, quiet_of_phase phase remains isAlive, wrappingSub_of_le enough, more, less⟩
  have exchanges (found : s.handles[index]? = some (.dropping .exchange)) :
      ∃ earlier, s.notifying = earlier + 1 ∧ s.inner.count = 1 := by
    have isNotifying : 1 ≤ s.notifying := notifying_of_found found
    obtain ⟨earlier, isMore⟩ := Nat.exists_eq_add_of_le' isNotifying
    rw [isMore] at phase
    exact ⟨earlier, isMore, one_of_notifying phase remains⟩
  cases drops with
  | last found isZero =>
      obtain ⟨_, _, subbed, more, _⟩ := subs found
      omega
  | announce found isOne =>
      obtain ⟨isAlive, quiet, subbed, _, less⟩ := subs found
      rw [if_pos (by omega), ← subbed] at less
      have fewer : s.alive - 1 + 1 = s.alive := by omega
      refine .lent_moved found isIdle rfl (by simpa [Handle.alive] using fewer) rfl less (by omega)
        ?_ unfreed none
      intro _
      rw [quiet]
  | leave found other =>
      obtain ⟨isAlive, quiet, subbed, _, less⟩ := subs found
      rw [if_neg (by omega), ← subbed] at less
      have fewer : s.alive - 1 + 1 = s.alive := by omega
      exact .lent_moved found isIdle rfl (by simpa [Handle.alive] using fewer) rfl less (by omega)
        (by omega) unfreed none
  | wake found =>
      exact .lent_moved found isIdle rfl (by simp [Handle.alive]) rfl phase small woken unfreed none
  | finish found isOne =>
      obtain ⟨earlier, isMore, _⟩ := exchanges found
      rw [isMore] at phase
      have finishes := phase.exchange remains
      rw [if_pos isOne] at finishes
      have isTwo : (s.inner.store 2).count = 2 := rfl
      exact .lent_moved found isIdle rfl (by simp [Handle.alive])
        (by simp [Handle.notifying, isMore]) finishes (by omega) (by omega) unfreed none
  | retry found other =>
      obtain ⟨_, _, isOne⟩ := exchanges found
      exact absurd isOne other
  | free found =>
      have burdened : 1 ≤ s.freeing := freeing_of_found found
      omega

/-- A handle that has outlived the lender is dropped. -/
theorem Life.outlived_drops {index : Nat} (drops : s.Drops index s') (isGone : s.owner = .gone)
    (balance : s.inner.count = 2 * s.alive) (unfreed : s.inner.freed = 0)
    (quiet : s.notifying = 0) (none : s.freeing = 0) : s'.Life := by
  have subs (found : s.handles[index]? = some (.dropping .sub)) :
      1 ≤ s.alive ∧ (s.inner.fetchSub 2).count = s.inner.count - 2 := by
    have isAlive : 1 ≤ s.alive := alive_of_found found
    exact ⟨isAlive, wrappingSub_of_le (by omega)⟩
  cases drops with
  | last found isZero =>
      obtain ⟨isAlive, subbed⟩ := subs found
      have fewer := alive_moved found .freeing (s.inner.fetchSub 2)
      have notes := notifying_moved found .freeing (s.inner.fetchSub 2)
      have burdened := freeing_moved found .freeing (s.inner.fetchSub 2)
      simp only [Handle.alive, Handle.notifying, Handle.isFreeing, Bool.toNat_true,
        Bool.toNat_false] at fewer notes burdened
      exact .last isGone unfreed (by omega) (by omega) (by omega)
  | announce found isOne =>
      obtain ⟨isAlive, subbed⟩ := subs found
      omega
  | leave found other =>
      obtain ⟨isAlive, subbed⟩ := subs found
      have fewer := alive_moved found .gone (s.inner.fetchSub 2)
      have notes := notifying_moved found .gone (s.inner.fetchSub 2)
      have burdened := freeing_moved found .gone (s.inner.fetchSub 2)
      simp only [Handle.alive, Handle.notifying, Handle.isFreeing, Bool.toNat_true,
        Bool.toNat_false] at fewer notes burdened
      refine .outlived isGone ?_ (by omega) unfreed (by omega) (by omega)
      simp only
      omega
  | wake found | finish found | retry found =>
      have isNotifying : 1 ≤ s.notifying := notifying_of_found found
      omega
  | free found =>
      have burdened : 1 ≤ s.freeing := freeing_of_found found
      omega

/-- The last handle frees the allocation. -/
theorem Life.last_drops {index : Nat} (drops : s.Drops index s') (isGone : s.owner = .gone)
    (unfreed : s.inner.freed = 0) (dead : s.alive = 0) (quiet : s.notifying = 0)
    (one : s.freeing = 1) : s'.Life := by
  cases drops with
  | last found | announce found | leave found =>
      have isAlive : 1 ≤ s.alive := alive_of_found found
      omega
  | wake found | finish found | retry found =>
      have isNotifying : 1 ≤ s.notifying := notifying_of_found found
      omega
  | free found =>
      have once : s.inner.dealloc.freed = 1 := by
        rw [Inner.dealloc, unfreed]
      have fewer := alive_moved found .gone s.inner.dealloc
      have notes := notifying_moved found .gone s.inner.dealloc
      have unburdened := freeing_moved found .gone s.inner.dealloc
      simp only [Handle.alive, Handle.notifying, Handle.isFreeing, Bool.toNat_true,
        Bool.toNat_false] at fewer notes unburdened
      exact .finished isGone once (by omega) (by omega) (by omega)

theorem Living.handle_step {index : Nat} (living : s.Living)
    (step : s.handleStep index = some s') : s'.Living := by
  obtain ⟨life, alone, unwrapped⟩ := living
  have drops := drops_of_handleStep step
  have between := drops.between alone
  have sameOwner : s'.owner = s.owner := by cases drops <;> rfl
  have alone' : s'.owner = .idle ∨ s'.owner = .gone ∨
      ∀ handle ∈ s'.handles, handle.resting = true := by
    rw [sameOwner]
    exact between.imp_right Or.inl
  cases life with
  | lent phase whole small woken unfreed none =>
      have isIdle : s.owner = .idle := by
        rcases between with isIdle | isGone
        · exact isIdle
        · rw [isGone] at whole
          exact whole.elim
      have remains : ¬ s.owner.Leaving := by
        rw [isIdle]
        exact id
      have small : s.inner.count ≤ maxRefcount + 2 := by
        simpa [isIdle, Owner.raised] using small
      exact ⟨.lent_drops drops isIdle phase small woken unfreed none, alone',
        drops.unwrapped (fun isAlive => (phase.sub isAlive remains).1) unwrapped⟩
  | closing closes =>
      rcases between with isIdle | isGone
      · rw [isIdle] at closes
        exact closes.elim
      · rw [isGone] at closes
        exact closes.elim
  | outlived isGone balance _ unfreed quiet none =>
      exact ⟨.outlived_drops drops isGone balance unfreed quiet none, alone',
        drops.unwrapped (fun isAlive => by omega) unwrapped⟩
  | last isGone unfreed dead quiet one =>
      exact ⟨.last_drops drops isGone unfreed dead quiet one, alone',
        drops.unwrapped (fun isAlive => by omega) unwrapped⟩
  | finished _ _ dead quiet none =>
      have stirs := drops.stirs
      omega

/-! ## Runs -/

theorem Life.same (life : s.Life) (isInner : s'.inner = s.inner)
    (isPending : s'.pending = s.pending)
    (isOwner : s'.owner = s.owner) (isAlive : s'.alive = s.alive)
    (isNotifying : s'.notifying = s.notifying) (isFreeing : s'.freeing = s.freeing) : s'.Life := by
  cases life with
  | lent phase whole small woken unfreed none =>
      apply Life.lent
      all_goals simpa only [isInner, isPending, isOwner, isAlive, isNotifying, isFreeing]
  | closing closes unfreed quiet none =>
      apply Life.closing
      all_goals simpa only [isInner, isOwner, isAlive, isNotifying, isFreeing]
  | outlived isGone balance some unfreed quiet none =>
      apply Life.outlived
      all_goals simpa only [isInner, isOwner, isAlive, isNotifying, isFreeing]
  | last isGone unfreed dead quiet one =>
      apply Life.last
      all_goals simpa only [isInner, isOwner, isAlive, isNotifying, isFreeing]
  | finished isGone once dead quiet none =>
      apply Life.finished
      all_goals simpa only [isInner, isOwner, isAlive, isNotifying, isFreeing]

theorem Living.lend (living : s.Living) (rests : ∀ handle ∈ s.handles, handle.resting = true)
    (able : s.owner = .idle ∨ 0 < s.alive ∧ s.owner = .gone) (room : s.inner.count ≤ maxRefcount) :
    s.lend.Living := by
  obtain ⟨life, alone, unwrapped⟩ := living
  obtain ⟨quiet, unburdened⟩ := quiet_of_resting rests
  have fits := maxRefcount_add_lt
  have added : (s.inner.fetchAdd 2).count = s.inner.count + 2 := wrappingAdd_of_lt (by omega)
  have between : s.owner = .idle ∨ s.owner = .gone := able.imp_right And.right
  have lent : s.lend = { s with inner := s.inner.fetchAdd 2, handles := s.handles ++ [.held] } := by
    rw [Lender.lend, incCountRef, if_neg (by omega)]
  have isAlive : s.lend.alive = s.alive + 1 := by
    simp [lent, alive, Handle.alive]
  have isQuiet : s.lend.notifying = s.notifying := by
    simp [lent, notifying, Handle.notifying]
  have isUnburdened : s.lend.freeing = s.freeing := by
    simp [lent, freeing, Handle.isFreeing]
  have isCount : s.lend.inner.count = s.inner.count + 2 := by rw [lent, added]
  have isOwner : s.lend.owner = s.owner := by rw [lent]
  have isPending : s.lend.pending = s.pending := by rw [lent]
  have isFreed : s.lend.inner.freed = s.inner.freed := by
    rw [lent]
    rfl
  have isWrapped : s.lend.inner.wrapped = s.inner.wrapped := by
    rw [lent]
    rfl
  refine ⟨?_, ?_, isWrapped.trans unwrapped⟩
  · cases life with
    | lent phase whole small woken unfreed none =>
        have isIdle : s.owner = .idle := by
          rcases between with idle | gone
          · exact idle
          · rw [gone] at whole
            exact whole.elim
        refine .lent ?_ ?_ ?_ ?_ (isFreed.trans unfreed) (isUnburdened.trans none)
        · rw [isPending, isOwner, isCount, isAlive, isQuiet]
          exact phase.lend (.inl ⟨isIdle, fun _ => quiet⟩)
        · rw [isOwner, isIdle]
          trivial
        · rw [isOwner, isCount]
          omega
        · intro isOne
          omega
    | closing closes =>
        rcases between with idle | gone
        · rw [idle] at closes
          exact closes.elim
        · rw [gone] at closes
          exact closes.elim
    | outlived isGone balance some unfreed quiet none =>
        exact .outlived (isOwner.trans isGone) (by omega) (by omega) (isFreed.trans unfreed)
          (isQuiet.trans quiet) (isUnburdened.trans none)
    | last isGone _ dead =>
        rcases able with idle | ⟨some, _⟩
        · rw [isGone] at idle
          cases idle
        · omega
    | finished isGone _ dead =>
        rcases able with idle | ⟨some, _⟩
        · rw [isGone] at idle
          cases idle
        · omega
  · rcases between with idle | gone
    · exact .inl (isOwner.trans idle)
    · exact .inr (.inl (isOwner.trans gone))

theorem Living.call (living : s.Living) (between : s.owner = .idle)
    (rests : ∀ handle ∈ s.handles, handle.resting = true) (tidy : s.tidy label = true)
    (step : s.call label = some s') : s'.Living := by
  obtain ⟨quiet, unburdened⟩ := quiet_of_resting rests
  obtain ⟨life, alone, unwrapped⟩ := id living
  cases life with
  | closing closes =>
      rw [between] at closes
      exact closes.elim
  | outlived isGone | last isGone | finished isGone =>
      rw [between] at isGone
      cases isGone
  | lent phase whole small woken unfreed none =>
      rw [between] at phase small
      have awaited (isPending : s.pending = true) (unfinished : s.inner.count ≠ 2) :
          0 < s.alive := by
        rw [isPending] at phase
        by_contra never
        rcases pending_balance phase with balance | balance
        · have isOne := woken (by omega)
          omega
        · omega
      cases label with
      | borrow =>
          obtain rfl := Option.some.inj step
          exact living.lend rests (.inl between) (by simpa [Lender.tidy] using tidy)
      | tryCollect =>
          obtain rfl := Option.some.inj step
          exact ⟨.lent (phase.begin (.inl rfl)) trivial small woken unfreed none, .inr (.inr rests),
            unwrapped⟩
      | poll waker =>
          rcases Bool.eq_false_or_eq_true s.pending with isPending | unpended
          · have polls : s.call (.poll waker) =
                some { s with owner := .polling (.resumeLoad waker) } := by
              simp [Lender.call, isPending]
            rw [polls] at step
            obtain rfl := Option.some.inj step
            have unfinished : s.inner.count ≠ 2 := by simpa [Lender.tidy, isPending] using tidy
            exact ⟨.lent (phase.begin (.inr (.inl ⟨isPending, trivial, rfl⟩)))
              (awaited isPending unfinished) small woken unfreed none, .inr (.inr rests), unwrapped⟩
          · have polls : s.call (.poll waker) =
                some { s with owner := .polling (.startLoad waker) } := by
              simp [Lender.call, unpended]
            rw [polls] at step
            obtain rfl := Option.some.inj step
            have odd : s.inner.count % 2 = 1 := by
              have balance := idle_balance (unpended ▸ phase)
              omega
            exact ⟨.lent (phase.begin (.inr (.inr ⟨unpended, trivial, odd⟩))) trivial small woken
              unfreed none, .inr (.inr rests), unwrapped⟩
      | cancel =>
          have unpended : s.pending = false := by simpa [Lender.tidy] using tidy
          simp only [Lender.call, unpended] at step
          obtain rfl := Option.some.inj step
          exact living
      | drop =>
          rcases Bool.eq_false_or_eq_true s.pending with isPending | unpended
          · have drops : s.call .drop = some { s with owner := .closing .load } := by
              simp [Lender.call, isPending]
            rw [drops] at step
            obtain rfl := Option.some.inj step
            have odd : s.inner.count % 2 = 1 ∨ s.inner.count = 2 := by
              simpa [Lender.tidy, isPending] using tidy
            have balance := pending_balance (isPending ▸ phase)
            refine ⟨.closing ⟨small, ?_⟩ unfreed quiet none, .inr (.inr rests), unwrapped⟩
            show s.inner.count = 1 + 2 * s.alive ∧ 0 < s.alive ∨ s.inner.count = 2 ∧ s.alive = 0
            by_cases finished : s.inner.count = 2
            · right
              omega
            · have some := awaited isPending finished
              left
              omega
          · have drops : s.call .drop = some { s with owner := .dropping } := by
              simp [Lender.call, unpended]
            rw [drops] at step
            obtain rfl := Option.some.inj step
            exact ⟨.closing (idle_balance (unpended ▸ phase)) unfreed quiet none,
              .inr (.inr rests), unwrapped⟩
      | owner | clone | release | handle => cases step

theorem Living.step (living : s.Living) (whole : s.wholeCalls label = true)
    (tidy : s.tidy label = true) (step : Lender.step s label = some s') : s'.Living := by
  cases label with
  | owner spurious => exact living.owner_step step
  | handle index => exact living.handle_step step
  | clone index =>
      obtain ⟨rests, between⟩ := between_of_wholeCalls whole (by simp) (by simp)
      simp only [Lender.step] at step
      split at step
      · rename_i found
        obtain rfl := Option.some.inj step
        have isAlive : 1 ≤ s.alive := alive_of_found found
        exact living.lend rests (between.imp_right fun isGone => ⟨isAlive, isGone⟩)
          (by simpa [Lender.tidy] using tidy)
      · cases step
  | release index =>
      obtain ⟨rests, between⟩ := between_of_wholeCalls whole (by simp) (by simp)
      simp only [Lender.step] at step
      split at step
      · rename_i found
        obtain rfl := Option.some.inj step
        have isAlive := alive_moved found (.dropping .sub) s.inner
        have isNotifying := notifying_moved found (.dropping .sub) s.inner
        have isFreeing := freeing_moved found (.dropping .sub) s.inner
        refine ⟨living.life.same rfl rfl rfl ?_ ?_ ?_, ?_, living.unwrapped⟩
        · exact Nat.add_right_cancel isAlive
        · exact Nat.add_right_cancel isNotifying
        · exact Nat.add_right_cancel isFreeing
        · exact between.imp_right Or.inl
      · cases step
  | borrow | tryCollect | poll | cancel | drop =>
      obtain ⟨rests, between⟩ := between_of_wholeCalls whole (by simp) (by simp)
      simp only [Lender.step] at step
      split at step
      · exact living.call ‹_› rests tidy step
      · cases step

end Lender

/-- In a run of whole calls that are tidy, the allocation is freed once, and not
before the lender and its handles are gone. -/
theorem lender_life {s : Lender W}
    (reachable : ReachableUnder Lender.step
      (fun s label => (s.wholeCalls label && s.tidy label) = true) Lender.init s) :
    s.FreedOnce := by
  have living : s.Living := by
    apply reachable.invariant Lender.Living.init
    intro state label result living careful step
    rw [Bool.and_eq_true] at careful
    exact living.step careful.1 careful.2 step
  exact living.freedOnce

/-- A lender dropped after its collection was polled to the end leaves its
allocation behind. -/
theorem lender_leaks : ¬ ∀ s : Lender Nat,
    ReachableUnder Lender.step (fun s label => s.wholeCalls label = true) Lender.init s →
      s.FreedOnce := by
  intro always
  obtain ⟨s, ran, wrapped⟩ : ∃ s ∈ runFrom (guarded Lender.step Lender.wholeCalls)
      (Lender.init : Lender Nat)
      [.borrow, .poll 0, .owner false, .owner false, .owner false, .release 0, .handle 0,
        .handle 0, .handle 0, .poll 1, .owner false, .drop, .owner false],
      s.inner.wrapped = true := by
    decide +kernel
  have unwrapped := (always s (reachableUnder_of_runFrom ran)).unwrapped
  simp [wrapped] at unwrapped

theorem lender_life_of_drop : ∃ s : Lender Nat, s.owner = .gone ∧ s.handles = [.gone, .gone] ∧
    s.FreedOnce ∧ s.inner.freed = 1 := by
  obtain ⟨s, ran, isGone, handles, freed⟩ : ∃ s ∈
      runFrom (guarded Lender.step fun s label => s.wholeCalls label && s.tidy label)
        (Lender.init : Lender Nat)
        [.borrow, .poll 0, .owner false, .owner false, .owner false, .release 0, .handle 0,
          .handle 0, .handle 0, .tryCollect, .owner false, .owner false, .borrow, .poll 1,
          .owner false, .owner false, .owner false, .drop, .owner false, .owner false,
          .owner false, .owner false, .release 1, .handle 1, .handle 1],
      s.owner = .gone ∧ s.handles = [.gone, .gone] ∧ s.inner.freed = 1 := by
    decide +kernel
  exact ⟨s, isGone, handles, lender_life (reachableUnder_of_runFrom ran), freed⟩

end Suspend.Shared
