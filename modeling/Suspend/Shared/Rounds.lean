import Suspend.Shared.Resume
import Suspend.Shared.Scoped

/-!
# Sharing a value from the stack again

`PinShared::with` can be called any number of times on one value, and what one
call leaves of the count is where the next one begins.  `try_collect` and
`start_poll` leave the count of an idle lender.  `resume_poll` leaves that of a
finished collection, on which the next call waits for ever.
-/

namespace Suspend.Shared

open Suspend.Transition

universe v

variable {W : Type v}

/-- The poll does not find the collection finished by the count it reads, or
leaves behind. -/
def PollPc.unfinished (count : Nat) : PollPc W → Bool
  | .resumeLoad _ | .raise _ _ => count ≠ 2
  | .lower _ => count ≠ 4
  | _ => true

/-- Where the thread stands that calls `PinShared::with`. -/
inductive WithStage where
  | outside
  /-- The function runs. -/
  | inside
  /-- The drop of `CollectOnDrop`. -/
  | collecting
  deriving DecidableEq, Repr

/-- A `PinShared` and the calls of `with` on it.  Its `pending` says that the
poll of `CollectOnDrop` is not the `first` one. -/
structure Rounds (W : Type v) where
  lender : Lender W := {}
  stage : WithStage := .outside
  deriving DecidableEq, Repr

/-- Steps of the calling thread and of the handles. -/
inductive RoundLabel (W : Type v) where
  /-- `with` is called. -/
  | enter
  /-- The function has returned. -/
  | leave
  | poll (waker : W)
  | owner (spurious : Bool)
  | clone (index : Nat)
  | release (index : Nat)
  | handle (index : Nat)
  deriving DecidableEq, Repr

namespace Rounds

/-- An access of `CollectOnDrop`; `with` returns when it has the value back. -/
def ownerStep (spurious : Bool) (s : Rounds W) : Option (Rounds W) :=
  (s.lender.ownerStep spurious).map fun lender =>
    if s.lender.grants.length < lender.grants.length then { lender, stage := .outside }
    else { s with lender }

def step : Step (Rounds W) (RoundLabel W)
  | s, .enter =>
      match s.stage with
      | .outside => some { lender := s.lender.lend, stage := .inside }
      | _ => none
  | s, .leave =>
      match s.stage with
      | .inside =>
          (s.lender.call .tryCollect).map fun lender => { lender, stage := .collecting }
      | _ => none
  | s, .poll waker =>
      match s.stage, s.lender.owner with
      | .collecting, .idle => (s.lender.call (.poll waker)).map fun lender => { s with lender }
      | _, _ => none
  | s, .owner spurious =>
      match s.stage with
      | .collecting => s.ownerStep spurious
      | _ => none
  | s, .clone index => (PinShared.step s.lender (.clone index)).map fun lender => { s with lender }
  | s, .release index =>
      (PinShared.step s.lender (.release index)).map fun lender => { s with lender }
  | s, .handle index => (PinShared.step s.lender (.handle index)).map fun lender =>
      { s with lender }

def init : Rounds W := {}

/-- The count of the references does not overflow. -/
def uncrowded (s : Rounds W) : RoundLabel W → Bool
  | .clone _ | .enter => s.lender.inner.count + 2 < usizeRange
  | .owner spurious => s.lender.careful (.owner spurious)
  | _ => true

/-- `resume_poll` does not find the collection finished. -/
def unfinished (s : Rounds W) : RoundLabel W → Bool
  | .owner _ =>
      match s.lender.owner with
      | .polling pc => pc.unfinished s.lender.inner.count
      | _ => true
  | _ => true

/-- Between two calls of `with` no `Scoped` is there, and the count is that of a
value that was never shared. -/
structure Repeats (s : Rounds W) : Prop where
  gone : s.stage = .outside → ∀ handle ∈ s.lender.handles, handle = .gone
  balance : s.stage = .outside → s.lender.inner.count = 3

end Rounds

/-! ## The end of a collection -/

/-- A poll that does not find the collection finished is `Ready` with the count of
an idle lender. -/
theorem Phase.ready_count {pending : Bool} {refs notifying : Nat} {pc : PollPc W} {m : Inner W}
    (spurious : Bool)
    (phase : Phase False False pending (.polling pc : Owner W) m.count refs notifying)
    (room : pc.raises = true → m.count + 2 < usizeRange)
    (unfinished : pc.unfinished m.count = true) (unsettled : ∀ waker, pc ≠ .clearLast waker)
    (ready : (pc.step spurious m).2 = .ret .ready) :
    refs = 0 ∧ notifying = 0 ∧ (pc.step spurious m).1.count = 3 := by
  have agrees := phase.poll_step spurious room
  rw [ready] at agrees
  obtain ⟨unreferenced, quiet, isThree | ⟨isPending, isTwo⟩⟩ := agrees
  · exact ⟨unreferenced, quiet, isThree⟩
  · have goesOn {count : Nat} (waker : W) (other : count ≠ 2) :
        PollPc.loop count waker ≠ .ret .ready := by
      unfold PollPc.loop
      rw [if_neg other]
      split_ifs <;> simp
    rw [isPending] at phase
    have resumes := phase.resumes_of_pending
    cases pc with
    | startLoad | startStore | startSub | startClear | startSwap => exact resumes.elim
    | resumeLoad waker => exact absurd ready (goesOn waker (of_decide_eq_true unfinished))
    | raise seen waker =>
        by_cases exchanged : m.count = seen ∧ !spurious
        · simp only [PollPc.step, if_pos exchanged] at ready
          cases ready
        · simp only [PollPc.step, if_neg exchanged] at ready
          exact absurd ready (goesOn waker (of_decide_eq_true unfinished))
    | clear | store => cases ready
    | lower waker =>
        obtain ⟨enough, _⟩ := phase.lower
        have subbed : (m.fetchSub 2).count = m.count - 2 := wrappingSub_of_le enough
        have notFour : m.count ≠ 4 := of_decide_eq_true unfinished
        have other : (m.fetchSub 2).count ≠ 2 := by omega
        simp only [PollPc.step, if_neg other] at ready
        exact absurd ready (goesOn waker other)
    | clearLast own => exact absurd rfl (unsettled own)
    | yield => cases ready

/-- Nor does it go to the end of `resume_poll`. -/
theorem Phase.unsettled {pending : Bool} {refs notifying : Nat} {pc : PollPc W} {m : Inner W}
    (spurious : Bool)
    (phase : Phase False False pending (.polling pc : Owner W) m.count refs notifying)
    (unfinished : pc.unfinished m.count = true) (unsettled : ∀ waker, pc ≠ .clearLast waker)
    (waker : W) : (pc.step spurious m).2 ≠ .goto (.clearLast waker) := by
  have loops (count : Nat) (own : W) : PollPc.loop count own ≠ .goto (.clearLast waker) := by
    unfold PollPc.loop
    split_ifs <;> simp
  cases pc with
  | startLoad =>
      simp only [PollPc.step]
      split_ifs <;> simp
  | startSub =>
      simp only [PollPc.step]
      split_ifs <;> simp
  | startStore | startClear | startSwap | clear | store | yield => simp [PollPc.step]
  | resumeLoad own => exact loops _ own
  | raise seen own =>
      simp only [PollPc.step]
      split_ifs
      · simp
      · exact loops _ own
  | lower own =>
      obtain rfl : pending = true := phase.resumes trivial
      obtain ⟨enough, _⟩ := phase.lower
      have subbed : (m.fetchSub 2).count = m.count - 2 := wrappingSub_of_le enough
      have notFour : m.count ≠ 4 := of_decide_eq_true unfinished
      have other : (m.fetchSub 2).count ≠ 2 := by omega
      simp only [PollPc.step, if_neg other]
      exact loops _ own
  | clearLast own => exact absurd rfl (unsettled own)

namespace Rounds

/-! ## The invariant -/

/-- The count, the handles and the calling thread go together. -/
structure Kept (s : Rounds W) : Prop where
  phase : ∃ refs, s.lender.alive ≤ refs ∧ Phase False False s.lender.pending s.lender.owner
    s.lender.inner.count refs s.lender.notifying
  fits : s.lender.inner.count < usizeRange
  unburdened : .freeing ∉ s.lender.handles
  unsettled : ∀ waker, s.lender.owner ≠ .polling (.clearLast waker)
  outside : s.stage = .outside → s.lender.owner = .idle ∧ s.lender.pending = false ∧
    s.lender.inner.count = 3 ∧ ∀ handle ∈ s.lender.handles, handle = .gone
  inside : s.stage = .inside → s.lender.owner = .idle ∧ s.lender.pending = false
  attends : s.lender.owner.Attends

variable {s s' : Rounds W} {label : RoundLabel W}

theorem Kept.repeats (kept : s.Kept) : s.Repeats where
  gone outside := (kept.outside outside).2.2.2
  balance outside := (kept.outside outside).2.2.1

theorem Kept.init : (Rounds.init : Rounds W).Kept where
  phase := ⟨0, le_rfl, .idle trivial rfl⟩
  fits := small_lt_usizeRange (by decide : 3 ≤ 5)
  unburdened := by simp [Rounds.init]
  unsettled := by simp [Rounds.init]
  outside := by simp [Rounds.init]
  inside := by simp [Rounds.init]
  attends := trivial

/-- The drop of a `Scoped` handle frees nothing. -/
theorem scoped_moves {index : Nat} {lender lender' : Lender W}
    (step : PinShared.handleStep index lender = some lender') :
    ∃ (source : DropPc) (target : Handle),
      lender.handles[index]? = some (.dropping source) ∧ target ≠ .freeing ∧
        lender'.handles = lender.handles.set index target := by
  unfold PinShared.handleStep at step
  split at step
  · rename_i pc found
    split at step
    · rename_i inner next isStep
      obtain rfl := Option.some.inj step
      exact ⟨pc, .dropping next, found, by simp, rfl⟩
    · rename_i inner last isStep
      obtain rfl := Option.some.inj step
      exact ⟨pc, .gone, found, by simp, rfl⟩
  · cases step

/-- The handles are dropped as those of a `Shared`. -/
theorem Kept.drops {index : Nat} {lender : Lender W} (kept : s.Kept)
    (step : PinShared.handleStep index s.lender = some lender) : s.lender.Drops index lender := by
  obtain ⟨refs, lent, phase⟩ := kept.phase
  apply Lender.drops_of_handleStep
  apply Lender.handleStep_of_scoped _ step
  intro found
  have isAlive : 1 ≤ s.lender.alive := Lender.alive_of_found found
  obtain ⟨enough, more, _⟩ := phase.sub (isAlive.trans lent) kept.attends.remains
  have subbed : (s.lender.inner.fetchSub 2).count = s.lender.inner.count - 2 :=
    wrappingSub_of_le enough
  rw [subbed]
  exact more

theorem Kept.handle_step {index : Nat} {lender : Lender W} (kept : s.Kept)
    (step : PinShared.handleStep index s.lender = some lender) :
    ({ s with lender } : Rounds W).Kept := by
  have drops := kept.drops step
  have sameOwner : lender.owner = s.lender.owner := by cases drops <;> rfl
  have samePending : lender.pending = s.lender.pending := by cases drops <;> rfl
  obtain ⟨refs, lent, phase⟩ := kept.phase
  obtain ⟨source, target, found, notFreeing, moved⟩ := scoped_moves step
  refine ⟨drops.phase kept.attends.remains lent phase, drops.fits kept.fits, ?_, ?_, ?_, ?_, ?_⟩
  · show .freeing ∉ lender.handles
    intro burdened
    rw [moved] at burdened
    rcases List.mem_or_eq_of_mem_set burdened with earlier | isTarget
    · exact kept.unburdened earlier
    · exact notFreeing isTarget.symm
  · show ∀ waker, lender.owner ≠ .polling (.clearLast waker)
    rw [sameOwner]
    exact kept.unsettled
  · intro outside
    have gone := (kept.outside outside).2.2.2 _ (List.mem_of_getElem? found)
    cases gone
  · intro inside
    rw [sameOwner, samePending]
    exact kept.inside inside
  · rw [sameOwner]
    exact kept.attends

/-- The owner has the value back. -/
theorem Kept.returned {inner : Inner W} {refs : Nat} (kept : s.Kept) (lent : s.lender.alive ≤ refs)
    (unreferenced : refs = 0) (quiet : s.lender.notifying = 0) (balance : inner.count = 3) :
    ({ lender := ({ s.lender with inner } : Lender W).grant, stage := .outside } :
      Rounds W).Kept := by
  have unlent : s.lender.alive = 0 := by omega
  have gone := Lender.gone_of_quiet unlent quiet kept.unburdened
  refine ⟨⟨0, unlent.le, ?_⟩, ?_, kept.unburdened, by simp [Lender.grant], ?_, by simp, trivial⟩
  · show Phase False False false .idle inner.count 0 s.lender.notifying
    rw [quiet]
    exact .idle trivial balance
  · show inner.count < usizeRange
    rw [balance]
    exact small_lt_usizeRange (by decide)
  · intro _
    exact ⟨rfl, rfl, balance, gone⟩

/-- The owner goes on with its call. -/
theorem Kept.goesOn {inner : Inner W} {pending : Bool} {owner : Owner W} {refs : Nat}
    (kept : s.Kept)
    (stage : s.stage = .collecting) (lent : s.lender.alive ≤ refs) (fits : inner.count < usizeRange)
    (phase : Phase False False pending owner inner.count refs s.lender.notifying)
    (unsettled : ∀ waker, owner ≠ .polling (.clearLast waker)) (attends : owner.Attends) :
    ({ s with lender := { s.lender with inner, pending, owner } } : Rounds W).Kept where
  phase := ⟨refs, lent, phase⟩
  fits := fits
  unburdened := kept.unburdened
  unsettled := unsettled
  outside outside := by
    rw [stage] at outside
    cases outside
  inside inside := by
    rw [stage] at inside
    cases inside
  attends := attends

theorem Kept.owner_step {spurious : Bool} (kept : s.Kept) (stage : s.stage = .collecting)
    (room : s.uncrowded (.owner spurious) = true)
    (unfinished : s.unfinished (.owner spurious) = true)
    (step : s.ownerStep spurious = some s') : s'.Kept := by
  obtain ⟨lender, stepped, isNext⟩ := Option.map_eq_some_iff.mp step
  obtain ⟨refs, lent, phase⟩ := kept.phase
  have attends := kept.attends
  have shorter (inner : Inner W) :
      s.lender.grants.length < ({ s.lender with inner } : Lender W).grant.grants.length := by
    simp [Lender.grant]
  unfold Lender.ownerStep at stepped
  split at stepped
  · cases stepped
  · cases stepped
  · rename_i pc isOwner
    rw [isOwner] at phase
    have agrees := phase.try_step
    have fits' := pc.step_fits s.lender.pending kept.fits
    split at stepped <;> rename_i inner result isStep <;> obtain rfl := Option.some.inj stepped <;>
      rw [isStep] at agrees fits'
    · rw [if_neg (lt_irrefl _)] at isNext
      subst isNext
      exact kept.goesOn stage lent fits' agrees (by simp) trivial
    · obtain ⟨unreferenced, quiet, balance⟩ := agrees
      rw [if_pos (shorter _)] at isNext
      subst isNext
      exact kept.returned lent unreferenced quiet balance
    · rw [if_neg (lt_irrefl _)] at isNext
      subst isNext
      exact kept.goesOn stage lent fits' agrees (by simp) trivial
    · exact agrees.elim
  · rename_i pc isOwner
    rw [isOwner] at phase
    have raises : pc.raises = true → s.lender.inner.count + 2 < usizeRange := by
      intro raises
      simpa [Rounds.uncrowded, Lender.careful, isOwner, raises] using room
    have isUnfinished : pc.unfinished s.lender.inner.count = true := by
      simpa [Rounds.unfinished, isOwner] using unfinished
    have isUnsettled (waker : W) : pc ≠ .clearLast waker := by
      rintro rfl
      exact kept.unsettled waker isOwner
    have agrees := phase.poll_step spurious raises
    have ready := phase.ready_count spurious raises isUnfinished isUnsettled
    have unsettled := phase.unsettled spurious isUnfinished isUnsettled
    have fits' := pc.step_fits spurious kept.fits
    split at stepped <;> rename_i inner result isStep <;> obtain rfl := Option.some.inj stepped <;>
      rw [isStep] at agrees fits' ready unsettled
    · rw [if_neg (lt_irrefl _)] at isNext
      subst isNext
      refine kept.goesOn stage lent fits' agrees ?_ trivial
      intro waker isLast
      obtain rfl := Owner.polling.inj isLast
      exact unsettled waker rfl
    · obtain ⟨unreferenced, quiet, balance⟩ := ready rfl
      rw [if_pos (shorter _)] at isNext
      subst isNext
      exact kept.returned lent unreferenced quiet balance
    · rw [if_neg (lt_irrefl _)] at isNext
      subst isNext
      exact kept.goesOn stage lent fits' agrees (by simp) trivial
    · exact agrees.elim
  · rename_i isOwner
    rw [isOwner] at attends
    exact attends.elim
  · rename_i isOwner
    rw [isOwner] at attends
    exact attends.elim
  · rename_i isOwner
    rw [isOwner] at attends
    exact attends.elim
  · rename_i isOwner
    rw [isOwner] at attends
    exact attends.elim

/-- A new reference, for the function of `with` or from another one. -/
theorem Kept.lend {stage : WithStage} (kept : s.Kept)
    (able : s.lender.owner = .idle ∧ (s.lender.inner.count = 1 → s.lender.notifying = 0) ∨
      0 < s.lender.alive)
    (room : s.lender.inner.count + 2 < usizeRange) (isIn : stage ≠ .outside)
    (inside : stage = .inside → s.lender.owner = .idle ∧ s.lender.pending = false) :
    ({ lender := s.lender.lend, stage } : Rounds W).Kept := by
  obtain ⟨refs, lent, phase⟩ := kept.phase
  obtain ⟨sameOwner, samePending, _⟩ := s.lender.lend_owner
  have more := phase.lend (able.imp_right fun isAlive => isAlive.trans_le lent)
  have added : (s.lender.inner.fetchAdd 2).count = s.lender.inner.count + 2 :=
    wrappingAdd_of_lt room
  refine ⟨⟨refs + 1, ?_, ?_⟩, ?_, ?_, ?_, fun outside => absurd outside isIn, ?_, ?_⟩
  · simp only [Lender.lend, incCountRef]
    split_ifs
    · exact lent.trans (Nat.le_succ refs)
    · simpa [Lender.alive, Handle.alive] using lent
  · simp only [sameOwner, samePending]
    simp only [Lender.lend, incCountRef]
    split_ifs
    · exact added ▸ more
    · simpa [Lender.notifying, Handle.notifying, added] using more
  · simp only [Lender.lend, incCountRef]
    split_ifs <;> exact wrappingAdd_lt kept.fits (by decide)
  · have unburdened := kept.unburdened
    simp only [Lender.lend, incCountRef]
    split_ifs
    · exact unburdened
    · simpa using unburdened
  · simp only [sameOwner]
    exact kept.unsettled
  · simp only [sameOwner, samePending]
    exact inside
  · simp only [sameOwner]
    exact kept.attends

/-- A drop begins. -/
theorem Kept.release {index : Nat} (kept : s.Kept)
    (found : s.lender.handles[index]? = some .held) :
    ({ s with lender := { s.lender with
        handles := s.lender.handles.set index (.dropping .sub) } } : Rounds W).Kept := by
  obtain ⟨refs, lent, phase⟩ := kept.phase
  have same := Lender.alive_moved found (.dropping .sub) s.lender.inner
  have notes := Lender.notifying_moved found (.dropping .sub) s.lender.inner
  simp only [Handle.alive, Handle.notifying, Bool.toNat_true, Bool.toNat_false] at same notes
  refine ⟨⟨refs, by simp only; omega, phase.of_notifying (Nat.add_right_cancel notes.symm)⟩,
    kept.fits, ?_,
    kept.unsettled, ?_, kept.inside, kept.attends⟩
  · intro burdened
    rcases List.mem_or_eq_of_mem_set burdened with earlier | isTarget
    · exact kept.unburdened earlier
    · cases isTarget
  · intro outside
    have gone := (kept.outside outside).2.2.2 _ (List.mem_of_getElem? found)
    cases gone

theorem Kept.step (kept : s.Kept) (room : s.uncrowded label = true)
    (unfinished : s.unfinished label = true) (step : Rounds.step s label = some s') : s'.Kept := by
  cases label with
  | enter =>
      simp only [Rounds.step] at step
      split at step
      · rename_i stage
        obtain ⟨isIdle, unpended, balance, _⟩ := kept.outside stage
        obtain rfl := Option.some.inj step
        refine kept.lend (.inl ⟨isIdle, ?_⟩) (of_decide_eq_true room) (by simp)
          fun _ => ⟨isIdle, unpended⟩
        intro isOne
        omega
      · cases step
  | leave =>
      simp only [Rounds.step] at step
      split at step
      · rename_i stage
        obtain ⟨isIdle, unpended⟩ := kept.inside stage
        obtain ⟨refs, lent, phase⟩ := kept.phase
        obtain ⟨lender, called, rfl⟩ := Option.map_eq_some_iff.mp step
        obtain rfl := Option.some.inj called
        rw [isIdle] at phase
        exact ⟨⟨refs, lent, phase.begin (.inl rfl)⟩, kept.fits, kept.unburdened, by simp, by simp,
          by simp, trivial⟩
      · cases step
  | poll waker =>
      simp only [Rounds.step] at step
      split at step
      · rename_i stage isIdle
        obtain ⟨refs, lent, phase⟩ := kept.phase
        obtain ⟨lender, called, rfl⟩ := Option.map_eq_some_iff.mp step
        obtain rfl := Option.some.inj called
        rw [isIdle] at phase
        have begins : s.lender.pending = true ∨ s.lender.inner.count % 2 = 1 := by
          by_cases isPending : s.lender.pending = true
          · exact .inl isPending
          · right
            rw [Bool.not_eq_true] at isPending
            rw [isPending] at phase
            generalize s.lender.notifying = notifying, s.lender.inner.count = count at phase ⊢
            cases phase with
            | idle _ balance => omega
            | settling settling => exact settling.elim
            | done isGranted => exact isGranted.elim
            | left leaving => exact leaving.elim
        refine ⟨⟨refs, lent, phase.begin (.inr ?_)⟩, kept.fits, kept.unburdened,
          ?_, by simp [stage],
          by simp [stage], trivial⟩
        · cases isPending : s.lender.pending with
          | true => exact .inl ⟨rfl, trivial, rfl⟩
          | false =>
              have odd := begins.resolve_left (by simp [isPending])
              exact .inr ⟨rfl, trivial, odd⟩
        · intro own isLast
          simp only [Owner.polling.injEq] at isLast
          split at isLast <;> cases isLast
      · cases step
  | owner spurious =>
      simp only [Rounds.step] at step
      split at step
      · exact kept.owner_step ‹_› room unfinished step
      · cases step
  | clone index =>
      obtain ⟨lender, stepped, rfl⟩ := Option.map_eq_some_iff.mp step
      simp only [PinShared.step, Lender.step] at stepped
      split at stepped
      · rename_i found
        obtain rfl := Option.some.inj stepped
        have isAlive : 1 ≤ s.lender.alive := Lender.alive_of_found found
        refine kept.lend (.inr isAlive) (of_decide_eq_true room) ?_ kept.inside
        intro outside
        have gone := (kept.outside outside).2.2.2 _ (List.mem_of_getElem? found)
        cases gone
      · cases stepped
  | release index =>
      obtain ⟨lender, stepped, rfl⟩ := Option.map_eq_some_iff.mp step
      simp only [PinShared.step, Lender.step] at stepped
      split at stepped
      · rename_i found
        obtain rfl := Option.some.inj stepped
        exact kept.release found
      · cases stepped
  | handle index =>
      obtain ⟨lender, stepped, rfl⟩ := Option.map_eq_some_iff.mp step
      exact kept.handle_step stepped

end Rounds

/-- While no collection is finished by `resume_poll`, every call of `with` begins
where the first one did, and returns with no `Scoped` left. -/
theorem with_repeats {s : Rounds W}
    (reachable : ReachableUnder Rounds.step
      (fun s label => (s.uncrowded label && s.unfinished label) = true) Rounds.init s) :
    s.Repeats := by
  have kept : s.Kept := by
    apply reachable.invariant Rounds.Kept.init
    intro state label result kept careful step
    rw [Bool.and_eq_true] at careful
    exact kept.step careful.1 careful.2 step
  exact kept.repeats

theorem with_repeats_twice : ∃ s : Rounds Nat, s.stage = .outside ∧
    s.lender.handles = [.gone, .gone] ∧ s.Repeats := by
  obtain ⟨s, ran, outside, handles⟩ : ∃ s ∈
      runFrom (guarded Rounds.step fun s label => s.uncrowded label && s.unfinished label)
        (Rounds.init : Rounds Nat)
        [.enter, .leave, .owner false, .poll 0, .release 0, .handle 0, .owner false, .enter, .leave,
          .owner false, .poll 0, .owner false, .owner false, .release 1, .handle 1, .owner false,
          .owner false, .owner false],
      s.stage = .outside ∧ s.lender.handles = [.gone, .gone] := by
    decide +kernel
  exact ⟨s, outside, handles, with_repeats (reachableUnder_of_runFrom ran)⟩

/-- A function that leaves its `Scoped` to another thread, which drops it once
`with` waits, leaves the count at 2. -/
theorem with_leaves_two : ¬ ∀ s : Rounds Nat,
    ReachableUnder Rounds.step (fun s label => s.uncrowded label = true) Rounds.init s →
      s.Repeats := by
  intro always
  obtain ⟨s, ran, outside, isTwo⟩ : ∃ s ∈ runFrom (guarded Rounds.step Rounds.uncrowded)
      (Rounds.init : Rounds Nat)
      [.enter, .leave, .owner false, .poll 0, .owner false, .owner false, .owner false, .release 0,
        .handle 0, .handle 0, .handle 0, .poll 0, .owner false],
      s.stage = .outside ∧ s.lender.inner.count = 2 := by
    decide +kernel
  have balance := (always s (reachableUnder_of_runFrom ran)).balance outside
  omega

end Suspend.Shared
