import Suspend.Shared.LifeCycle

/-!
# Polling a pending collection

`resume_poll` holds a reference of its own while it changes the waker.  A last
reference that goes in between does not find itself the last, and the count
that `resume_poll` then restores is the 1 of a drop that is about to wake the
owner, although there is none.  With references left the loop takes the count
it has restored for a changed one and goes round again.
-/

namespace Suspend.Shared

open Suspend.Transition

universe v

variable {W : Type v}

/-! ## One poll -/

/-- How a poll of a pending collection changes the count, and the reference it
holds. -/
theorem PollPc.resumes_count {pc : PollPc W} {m : Inner W} (spurious : Bool)
    (resumes : pc.resumes) (room : m.count + 2 < usizeRange) :
    let m' := (pc.step spurious m).1
    let raised' := (pc.step spurious m).2.elim (fun pc => (Owner.polling pc).raised) fun _ => 0
    m'.count = m.count ∧ raised' = (Owner.polling pc).raised ∨
      m'.count = m.count + 2 ∧ raised' = (Owner.polling pc).raised + 1 ∨
      (∃ waker, pc = .lower waker) ∧ m'.count = (m.fetchSub 2).count ∧ raised' = 0 := by
  have loops (count : Nat) (waker : W) :
      (PollPc.loop count waker).elim (fun pc => (Owner.polling pc).raised) (fun _ => 0) = 0 := by
    unfold PollPc.loop
    split_ifs <;> rfl
  cases pc with
  | startLoad | startStore | startSub | startClear | startSwap => exact resumes.elim
  | resumeLoad waker => exact .inl ⟨rfl, loops _ _⟩
  | raise seen waker =>
      by_cases exchanged : m.count = seen ∧ !spurious
      · have added : wrappingAdd seen 2 = m.count + 2 := by
          rw [← exchanged.1]
          exact wrappingAdd_of_lt room
        simp only [PollPc.step, if_pos exchanged]
        exact .inr (.inl ⟨added, rfl⟩)
      · simp only [PollPc.step, if_neg exchanged]
        exact .inl ⟨rfl, loops _ _⟩
  | clear waker => exact .inl ⟨rfl, rfl⟩
  | store waker => exact .inl ⟨rfl, rfl⟩
  | lower waker =>
      refine .inr (.inr ⟨⟨waker, rfl⟩, rfl, ?_⟩)
      simp only [PollPc.step]
      split_ifs
      · rfl
      · exact loops _ _
  | clearLast waker => exact .inl ⟨rfl, rfl⟩
  | yield waker => exact .inl ⟨rfl, rfl⟩

theorem Phase.resumes_of_pending {abandons granted : Prop} {pc : PollPc W}
    {count refs notifying : Nat}
    (phase : Phase abandons granted true (.polling pc) count refs notifying) : pc.resumes := by
  cases pc with
  | startLoad | startStore | startSub =>
      have unpended := (phase.starting trivial).1
      cases unpended
  | startClear | startSwap =>
      have unpended := (phase.settled trivial).1
      cases unpended
  | resumeLoad | raise | clear | store | lower | clearLast | yield => trivial

namespace Lender

/-- A pending collection with `count` references outstanding. -/
def collecting (count : Nat) (waker : W) : Lender W where
  inner := { count := 1 + 2 * count, waker := some waker }
  pending := true
  handles := List.replicate count .held

/-- The next poll is `Ready` when it completes, and it can complete. -/
def Resolves (s : Lender W) : Prop :=
  (∀ waker (failures : List Bool) s',
    runFrom Lender.step s (.poll waker :: failures.map Label.owner) = some s' →
      s'.owner = .idle → s'.pending = false) ∧
  ∀ waker, ∃ (failures : List Bool) (s' : Lender W),
    runFrom Lender.step s (.poll waker :: failures.map Label.owner) = some s' ∧ s'.owner = .idle

/-- All references are gone and no drop is in progress, but the collection is
pending: then the next poll ends it. -/
def Unstuck (s : Lender W) : Prop :=
  (∀ handle ∈ s.handles, handle = .gone) → s.owner = .idle → s.pending = true → s.Resolves

/-- The owner only polls, while the collection is pending, and the handles are
only dropped. -/
def polls : Lender W → Label W → Bool
  | s, .poll _ => s.pending
  | _, .owner _ | _, .release _ | _, .handle _ => true
  | _, _ => false

/-- The reference that `resume_poll` holds is not the last when it is given
back. -/
def unraced : Lender W → Label W → Bool
  | s, .owner _ =>
      match s.owner with
      | .polling (.lower _) => s.inner.count ≠ 3
      | _ => true
  | _, _ => true

/-! ## A collection that has ended -/

variable {s s' : Lender W}

/-- `resume_poll` sees the end of a collection at its first access. -/
theorem resolves_of_two (between : s.owner = .idle) (isPending : s.pending = true)
    (isTwo : s.inner.count = 2) : s.Resolves := by
  have begins (waker : W) (rest : List (Label W)) :
      runFrom Lender.step s (.poll waker :: rest) =
        runFrom Lender.step { s with owner := .polling (.resumeLoad waker) } rest := by
    simp [runFrom, Lender.step, between, Lender.call, isPending]
  have ends (waker : W) (failure : Bool) (rest : List (Label W)) :
      runFrom Lender.step { s with owner := .polling (.resumeLoad waker) }
        (.owner failure :: rest) =
        runFrom Lender.step { s with inner := s.inner.access }.grant rest := by
    simp [runFrom, Lender.step, ownerStep, PollPc.step, PollPc.loop, isTwo, grant, alive]
  constructor
  · intro waker failures s' ran returned
    rw [begins] at ran
    cases failures with
    | nil =>
        obtain rfl := Option.some.inj ran
        cases returned
    | cons failure failures =>
        rw [List.map_cons, ends] at ran
        cases failures with
        | nil =>
            obtain rfl := Option.some.inj ran
            rfl
        | cons => cases ran
  · intro waker
    refine ⟨[false], { s with inner := s.inner.access }.grant, ?_, rfl⟩
    rw [begins, List.map_cons, ends]
    rfl

/-! ## Runs -/

/-- A collection that is polled while its references go: a count of 1 is that of
a drop that is about to wake the owner. -/
inductive Polled (s : Lender W) : Prop
  | pending
      (phase : Phase False False true s.owner s.inner.count s.alive s.notifying)
      (remains : ¬ s.owner.Leaving)
      (isPending : s.pending = true)
      (polls : s.owner = .idle ∨ ∃ pc, s.owner = .polling pc)
      (small : s.inner.count ≤ maxRefcount + 2 + 2 * s.owner.raised)
      (woken : s.inner.count = 1 → s.notifying = 1)
  | ready (unpended : s.pending = false) (between : s.owner = .idle)

theorem Polled.unstuck (polled : s.Polled) : s.Unstuck := by
  intro gone between isPending
  obtain ⟨dead, quiet, _⟩ := tallies_of_gone gone
  cases polled with
  | pending phase _ _ _ _ woken =>
      have unwoken : s.inner.count ≠ 1 := by
        intro isOne
        have isNotifying := woken isOne
        omega
      rw [between] at phase
      have balance := pending_balance phase
      exact resolves_of_two between isPending (by omega)
  | ready unpended =>
      rw [unpended] at isPending
      cases isPending

theorem Polled.owner_step {spurious : Bool} (polled : s.Polled)
    (unraced : s.unraced (.owner spurious) = true) (step : s.ownerStep spurious = some s') :
    s'.Polled := by
  cases polled with
  | ready _ between => simp [ownerStep, between] at step
  | pending phase remains isPending polls small woken =>
      rcases polls with between | ⟨pc, isOwner⟩
      · simp [ownerStep, between] at step
      · have range := maxRefcount_add_lt
        have isRaised : (Owner.polling pc).raised ≤ 1 := by cases pc <;> simp [Owner.raised]
        rw [isOwner] at phase small
        have resumes := phase.resumes_of_pending
        have room : s.inner.count + 2 < usizeRange := by omega
        have agrees := phase.poll_step spurious fun _ => room
        have counts := PollPc.resumes_count spurious resumes room
        have lowered : (∃ waker, pc = .lower waker) → 2 ≤ s.inner.count ∧ s.inner.count ≠ 3 := by
          rintro ⟨waker, rfl⟩
          refine ⟨phase.lower.1, ?_⟩
          simpa [Lender.unraced, isOwner] using unraced
        have subbed (enough : 2 ≤ s.inner.count) : (s.inner.fetchSub 2).count = s.inner.count - 2 :=
          wrappingSub_of_le enough
        simp only [ownerStep, isOwner] at step
        split at step <;> rename_i inner result isStep <;> obtain rfl := Option.some.inj step <;>
          rw [isStep] at agrees counts
        · simp only [Outcome.elim] at counts
          refine .pending agrees id isPending (.inr ⟨_, rfl⟩) ?_ ?_
          · simp only
            rcases counts with ⟨_, _⟩ | ⟨_, _⟩ | ⟨isLower, _, _⟩
            · omega
            · omega
            · have isSub := subbed (lowered isLower).1
              omega
          · intro isOne
            simp only at isOne
            rcases counts with ⟨same, _⟩ | ⟨_, _⟩ | ⟨isLower, _, _⟩
            · exact woken (same.symm.trans isOne)
            · omega
            · have isSub := subbed (lowered isLower).1
              have other := lowered isLower
              omega
        · exact .ready rfl rfl
        · simp only [Outcome.elim] at counts
          refine .pending agrees id rfl (.inl rfl) ?_ ?_
          · simp only [Owner.raised]
            rcases counts with ⟨_, _⟩ | ⟨_, _⟩ | ⟨isLower, _, _⟩
            · omega
            · omega
            · have isSub := subbed (lowered isLower).1
              omega
          · intro isOne
            simp only at isOne
            rcases counts with ⟨same, _⟩ | ⟨_, _⟩ | ⟨isLower, _, _⟩
            · exact woken (same.symm.trans isOne)
            · omega
            · have isSub := subbed (lowered isLower).1
              have other := lowered isLower
              omega
        · exact agrees.elim

/-- A handle moves while the collection is pending. -/
theorem Polled.moved {index refs notifying : Nat} {source target : Handle} {inner : Inner W}
    (found : s.handles[index]? = some source) (remains : ¬ s.owner.Leaving)
    (isPending : s.pending = true) (polls : s.owner = .idle ∨ ∃ pc, s.owner = .polling pc)
    (lent : refs + source.alive.toNat = s.alive + target.alive.toNat)
    (notifies : notifying + source.notifying.toNat = s.notifying + target.notifying.toNat)
    (phase : Phase False False true s.owner inner.count refs notifying)
    (small : inner.count ≤ maxRefcount + 2 + 2 * s.owner.raised)
    (woken : inner.count = 1 → notifying = 1) :
    ({ s with inner, handles := s.handles.set index target } : Lender W).Polled := by
  have isAlive := alive_moved found target inner
  have isNotifying := notifying_moved found target inner
  obtain rfl :
      refs = ({ s with inner, handles := s.handles.set index target } : Lender W).alive := by
    omega
  obtain rfl :
      notifying =
        ({ s with inner, handles := s.handles.set index target } : Lender W).notifying := by
    omega
  exact .pending phase remains isPending polls small woken

theorem Polled.handle_step {index : Nat} (polled : s.Polled)
    (step : s.handleStep index = some s') : s'.Polled := by
  have drops := drops_of_handleStep step
  cases polled with
  | ready unpended between => cases drops <;> exact .ready unpended between
  | pending phase remains isPending polls small woken =>
      have subbed (enough : 2 ≤ s.inner.count) : (s.inner.fetchSub 2).count = s.inner.count - 2 :=
        wrappingSub_of_le enough
      cases drops with
      | last found isZero =>
          have isAlive : 1 ≤ s.alive := alive_of_found found
          obtain ⟨enough, more, _⟩ := phase.sub isAlive remains
          exact absurd ((subbed enough).symm.trans isZero) more
      | announce found isOne =>
          have isAlive : 1 ≤ s.alive := alive_of_found found
          obtain ⟨enough, _, less⟩ := phase.sub isAlive remains
          have quiet := quiet_of_phase phase remains isAlive
          have fewer : s.alive - 1 + 1 = s.alive := by omega
          rw [← subbed enough, if_pos isOne] at less
          refine .moved found remains isPending polls (by simpa [Handle.alive] using fewer) rfl less
            (by omega) fun _ => ?_
          rw [quiet]
      | leave found other =>
          have isAlive : 1 ≤ s.alive := alive_of_found found
          obtain ⟨enough, _, less⟩ := phase.sub isAlive remains
          have fewer : s.alive - 1 + 1 = s.alive := by omega
          rw [← subbed enough, if_neg other.2] at less
          have smaller := subbed enough
          exact .moved found remains isPending polls (by simpa [Handle.alive] using fewer) rfl less
            (by omega) (absurd · other.2)
      | wake found =>
          exact .moved found remains isPending polls rfl rfl phase small woken
      | finish found isOne =>
          have isNotifying : 1 ≤ s.notifying := notifying_of_found found
          obtain ⟨earlier, isMore⟩ := Nat.exists_eq_add_of_le' isNotifying
          rw [isMore] at phase
          have exchanges := phase.exchange remains
          rw [if_pos isOne] at exchanges
          have isTwo : (s.inner.store 2).count = 2 := rfl
          exact .moved found remains isPending polls (by simp [Handle.alive])
            (by simp [Handle.notifying, isMore]) exchanges (by omega) (by omega)
      | retry found other =>
          have isNotifying : 1 ≤ s.notifying := notifying_of_found found
          obtain ⟨earlier, isMore⟩ := Nat.exists_eq_add_of_le' isNotifying
          rw [isMore] at phase
          exact absurd (one_of_notifying phase remains) other
      | free found => 
          exact .moved found remains isPending polls rfl rfl phase small woken

theorem Polled.step {label : Label W} (polled : s.Polled) (allowed : s.polls label = true)
    (unraced : s.unraced label = true) (step : Lender.step s label = some s') : s'.Polled := by
  cases label with
  | owner spurious => exact polled.owner_step unraced step
  | handle index => exact polled.handle_step step
  | release index =>
      simp only [Lender.step] at step
      split at step
      · rename_i found
        obtain rfl := Option.some.inj step
        cases polled with
        | pending phase remains isPending polls small woken =>
            exact .moved found remains isPending polls rfl rfl phase small woken
        | ready unpended between => exact .ready unpended between
      · cases step
  | poll waker =>
      have isPending : s.pending = true := allowed
      simp only [Lender.step, Lender.call, isPending, if_true] at step
      split at step
      · rename_i between
        obtain rfl := Option.some.inj step
        cases polled with
        | pending phase _ _ _ small woken =>
            rw [between] at phase small
            exact .pending (phase.begin (.inr (.inl ⟨rfl, trivial, rfl⟩))) id rfl (.inr ⟨_, rfl⟩)
              small woken
        | ready unpended =>
            rw [unpended] at isPending
            cases isPending
      · cases step
  | borrow | tryCollect | cancel | drop | clone => cases allowed

theorem Polled.collecting (count : Nat) (waker : W) (isSome : 0 < count)
    (room : 2 * count ≤ maxRefcount) : (collecting count waker).Polled := by
  have lent : (Lender.collecting count waker).alive = count := by
    simp [alive, Lender.collecting, Handle.alive]
  have quiet : (Lender.collecting count waker).notifying = 0 := by
    simp [notifying, Lender.collecting, Handle.notifying]
  refine .pending ?_ id rfl (.inl rfl) ?_ ?_
  · rw [lent, quiet]
    exact .collecting trivial rfl (.inl rfl)
  · show 1 + 2 * count ≤ maxRefcount + 2
    omega
  · intro isOne
    have isOne : 1 + 2 * count = 1 := isOne
    omega

end Lender

/-- While `resume_poll` does not give back the last reference, a collection
whose references are gone is not stuck. -/
theorem resume_poll_unstuck {s : Lender W} {count : Nat} {waker : W} (isSome : 0 < count)
    (room : 2 * count ≤ maxRefcount)
    (reachable : ReachableUnder Lender.step
    (fun s label => (s.polls label && s.unraced label) = true)
      (Lender.collecting count waker) s) : s.Unstuck := by
  have polled : s.Polled := by
    apply reachable.invariant (Lender.Polled.collecting count waker isSome room)
    intro state label result polled careful step
    rw [Bool.and_eq_true] at careful
    exact polled.step careful.1 careful.2 step
  exact polled.unstuck

/-- The last handle is dropped between the two exchanges of `resume_poll`. -/
theorem resume_poll_stuck : ¬ ∀ (count : Nat) (waker : Nat) (s : Lender Nat), 0 < count →
    2 * count ≤ maxRefcount →
    ReachableUnder Lender.step (fun s label => s.polls label = true)
      (Lender.collecting count waker) s → s.Unstuck := by
  intro always
  obtain ⟨s, ran, gone, between, isPending, isOne⟩ : ∃ s ∈
      runFrom (guarded Lender.step Lender.polls) (Lender.collecting 1 0)
        [.poll 1, .owner false, .owner false, .release 0, .handle 0, .owner false, .owner false,
          .owner false, .owner false],
      s.handles = [.gone] ∧ s.owner = .idle ∧ s.pending = true ∧ s.inner.count = 1 := by
    decide +kernel
  have unstuck := always 1 0 s (by decide) (by decide) (reachableUnder_of_runFrom ran)
  have resolves := (unstuck (by simp [gone]) between isPending).1
  have polled := resolves 2 [false, false]
  simp [runFrom, Lender.step, Lender.call, between, isPending, Lender.ownerStep, PollPc.step,
    PollPc.loop, isOne, Inner.access] at polled

theorem resume_poll_unstuck_of_drop : ∃ s : Lender Nat, s.handles = [.gone] ∧ s.owner = .idle ∧
    s.pending = true ∧ s.Unstuck := by
  obtain ⟨s, ran, gone, between, isPending⟩ : ∃ s ∈
      runFrom (guarded Lender.step fun s label => s.polls label && s.unraced label)
        (Lender.collecting 1 0)
        [.poll 1, .owner false, .release 0, .handle 0, .owner false, .owner false, .handle 0,
          .handle 0],
      s.handles = [.gone] ∧ s.owner = .idle ∧ s.pending = true := by
    decide +kernel
  exact ⟨s, gone, between, isPending,
    resume_poll_unstuck (by decide) (by decide) (reachableUnder_of_runFrom ran)⟩

/-! ## A poll with references left -/

namespace Lender

/-- A poll of the pending collection returns `Pending`: it has dropped the waker
of the poll before and left its own, and the count is what it was. -/
def Repolls (s : Lender W) (waker : W) : Prop :=
  ∃ (failures : List Bool) (s' : Lender W),
    runFrom Lender.step s (.poll waker :: failures.map Label.owner) = some s' ∧
      s'.owner = .idle ∧ s'.pending = true ∧
      s'.inner.discarded = s.inner.discarded ++ s.inner.waker.toList ∧
      s'.inner.waker = some waker ∧ s'.inner.count = s.inner.count

/-- `resume_poll` goes round with a count of `base` between its rounds. -/
def Spins (base : Nat) (s : Lender W) : Prop :=
  match s.owner with
  | .polling (.resumeLoad _) | .polling (.raise _ _) => s.inner.count = base
  | .polling (.clear _) | .polling (.store _) | .polling (.lower _) =>
      s.inner.count = wrappingAdd base 2
  | _ => False

theorem wrappingSub_wrappingAdd {base : Nat} (fits : base < usizeRange) :
    wrappingSub (wrappingAdd base 2) 2 = base := by
  have small : 2 < usizeRange := small_lt_usizeRange (by decide)
  unfold wrappingAdd wrappingSub
  split_ifs <;> omega

variable {s s' : Lender W} {base : Nat}

theorem Spins.owner_step {spurious : Bool} (many : 3 ≤ base) (fits : base < usizeRange)
    (spins : s.Spins base) (step : s.ownerStep spurious = some s') : s'.Spins base := by
  have loops (waker : W) : PollPc.loop base waker = .goto (.raise base waker) :=
    loop_of_three_le many
  unfold Spins at spins
  split at spins
  · rename_i waker isOwner
    simp only [ownerStep, isOwner, PollPc.step, spins, loops] at step
    obtain rfl := Option.some.inj step
    exact spins
  · rename_i seen waker isOwner
    by_cases exchanged : s.inner.count = seen ∧ !spurious
    · simp only [ownerStep, isOwner, PollPc.step, if_pos exchanged] at step
      obtain rfl := Option.some.inj step
      show wrappingAdd seen 2 = wrappingAdd base 2
      rw [← exchanged.1, spins]
    · simp only [ownerStep, isOwner, PollPc.step, if_neg exchanged] at step
      rw [spins, loops] at step
      obtain rfl := Option.some.inj step
      exact spins
  · rename_i waker isOwner
    simp only [ownerStep, isOwner, PollPc.step] at step
    obtain rfl := Option.some.inj step
    exact spins
  · rename_i waker isOwner
    simp only [ownerStep, isOwner, PollPc.step] at step
    obtain rfl := Option.some.inj step
    exact spins
  · rename_i waker isOwner
    have lowered : (s.inner.fetchSub 2).count = base := by
      show wrappingSub s.inner.count 2 = base
      rw [spins]
      exact wrappingSub_wrappingAdd fits
    simp only [ownerStep, isOwner, PollPc.step, lowered] at step
    rw [if_neg (by omega), loops] at step
    obtain rfl := Option.some.inj step
    exact lowered
  · exact spins.elim

/-- No number of accesses brings the poll to its end. -/
theorem Spins.run {failures : List Bool} (many : 3 ≤ base) (fits : base < usizeRange)
    (spins : s.Spins base) (ran : runFrom Lender.step s (failures.map Label.owner) = some s') :
    s'.Spins base := by
  induction failures generalizing s with
  | nil =>
      obtain rfl := Option.some.inj ran
      exact spins
  | cons failure failures ih =>
      rw [List.map_cons, runFrom_cons, Option.bind_eq_some_iff] at ran
      obtain ⟨middle, step, rest⟩ := ran
      exact ih (spins.owner_step many fits step) rest

theorem not_repolls (between : s.owner = .idle) (isPending : s.pending = true)
    (many : 3 ≤ s.inner.count) (fits : s.inner.count < usizeRange) (waker : W) :
    ¬ s.Repolls waker := by
  rintro ⟨failures, s', ran, returned, _⟩
  have begins : runFrom Lender.step s (.poll waker :: failures.map Label.owner) =
      runFrom Lender.step { s with owner := .polling (.resumeLoad waker) }
        (failures.map Label.owner) := by
    simp [runFrom, Lender.step, between, Lender.call, isPending]
  rw [begins] at ran
  have spins : ({ s with owner := .polling (.resumeLoad waker) } : Lender W).Spins s.inner.count :=
    rfl
  have still := spins.run many fits ran
  rw [Spins, returned] at still
  exact still

end Lender

/-- With references left, a poll of a pending collection never returns. -/
theorem resume_poll_spins {s : Lender W} (between : s.owner = .idle) (isPending : s.pending = true)
    (some : 0 < s.alive) (balance : s.inner.count = 1 + 2 * s.alive)
    (fits : s.inner.count < usizeRange) (waker : W) : ¬ s.Repolls waker :=
  Lender.not_repolls between isPending (by omega) fits waker

theorem resume_poll_spins_of_one : ¬ (Lender.collecting 1 0).Repolls 1 :=
  resume_poll_spins rfl rfl (by decide) (by decide) (small_lt_usizeRange (by decide)) 1

/-- Already the second poll of a collection with one reference does not return. -/
theorem resume_poll_loops : ¬ ∀ (count : Nat) (old waker : Nat), 0 < count →
    2 * count ≤ maxRefcount → (Lender.collecting count old).Repolls waker := by
  intro always
  have repolls := always 1 0 1 (by decide) (by decide)
  exact Lender.not_repolls rfl rfl (by decide) (small_lt_usizeRange (by decide)) 1 repolls

end Suspend.Shared
