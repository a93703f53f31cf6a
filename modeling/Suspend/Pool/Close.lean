import Suspend.Pool.Settle
import Suspend.Shared.Blocking
import Suspend.Shared.Wakers
import Suspend.Thread.Pair
import Suspend.Thread.Part

/-!
# The thread that closes the pool

`drop` and `drain` block in `Collect::wait` until every worker has given back
what it holds.  The thread that waits there blocks on the `Lender` alone, and
what the pool does meanwhile is, for the `Lender`, that references are cloned and
dropped.
-/

namespace Suspend.Pool

open Suspend.Transition
open Suspend.Listen
open Suspend.Park
open Suspend.Shared
open Suspend.Thread

universe u v

variable {T : Type u} {W : Type v}

namespace LentLabel

/-- The steps of the thread that closes the pool. -/
def ofCloser : LentLabel T W → Bool
  | startDrain _ | collect | poll _ | owner _ | drop => true
  | pool _ | borrow | release _ | handle _ => false

/-- A wait of a worker returns without a notification. -/
def lapses : LentLabel T W → Bool
  | pool label => label.lapses
  | _ => false

/-- A thread of the pool goes on, or gives back what it holds. -/
def goesOn : LentLabel T W → Bool
  | pool label => label.goesOn
  | release _ | handle _ => true
  | borrow | startDrain _ | collect | poll _ | owner _ | drop => false

end LentLabel

/-- What a handle has yet to do until it is gone. -/
def handleRemains : Shared.Handle → Nat
  | .held => 4
  | .dropping .sub => 3
  | .dropping .wake => 2
  | .dropping .exchange | .freeing => 1
  | .gone => 0

namespace LentPool

/-- A bound for the steps that are left to the threads of the pool. -/
def remains (s : LentPool T W) : Nat :=
  5 * s.pool.remains + tally handleRemains s.lender.handles

/-! ## The wait -/

/-- The waker that a step wakes. -/
def wakes (s : LentPool T W) : LentLabel T W → Option W
  | .owner spurious => s.lender.wakes (.owner spurious)
  | .handle index => s.lender.wakes (.handle index)
  | _ => none

/-- The count does not overflow, and the thread waits with its own waker until it
gets the pool back. -/
def closes [DecidableEq W] (own : W) (s : LentPool T W) : LentLabel T W → Bool
  | .pool _ | .borrow => s.lender.inner.count ≤ maxRefcount
  | .owner spurious => s.lender.uncrowded (.owner spurious)
  | .poll waker => waker = own
  | .drop => false
  | .startDrain _ | .collect | .release _ | .handle _ => true

/-- `self.inner.collect().wait(None)`, in a thread whose listener has `own` as its
waker. -/
def collecting [DecidableEq W] (config : Config) (own : W) :
    Polled (LentPool T W) (LentLabel T W) where
  loop := .blockOnPoll
  step := guarded (LentPool.step config) (closes own)
  own := LentLabel.ofCloser
  enters
    | .poll _ => true
    | _ => false
  waits s :=
    match s.lender.owner, s.lender.pending with
    | .idle, true => some false
    | _, _ => none
  resume _ := .poll own
  wakes s label := s.wakes label = some own

variable [DecidableEq W] {config : Config} {own : W} {start s s' : LentPool T W}
  {label : LentLabel T W}

theorem frees_of_closes (careful : s.closes own label = true) : s.frees label = true := by
  have fits := maxRefcount_add_lt
  cases label with
  | pool | borrow =>
      have few : s.lender.inner.count ≤ maxRefcount := of_decide_eq_true careful
      simp only [frees, decide_eq_true_eq]
      omega
  | owner => exact careful
  | drop => cases careful
  | startDrain | collect | poll | release | handle => rfl

theorem Standing.of_collecting [DecidableEq T] (isNew : LentPool.new config = some start)
    (reachable : Reachable (collecting config own).step start s) : s.Standing := by
  apply reachable.invariant (Standing.new isNew)
  intro before label after standing _ step
  obtain ⟨careful, stepped⟩ := guarded_eq_some.mp step
  exact standing.step (frees_of_closes careful) stepped

/-! ## The wait for the `Lender` -/

omit [DecidableEq W] in
/-- Before it is collected a lender has its own share of the count. -/
theorem unused_of_idle {lender : Lender W} (pinned : lender.Pinned) (isIdle : lender.owner = .idle)
    (ungranted : lender.grants = []) : lender.used = false := by
  cases isPending : lender.pending with
  | true => simp [Lender.used, isPending]
  | false =>
      obtain ⟨refs, balance⟩ := pinned.idle_balance isIdle isPending ungranted
      have other : lender.inner.count ≠ 2 := by omega
      simp [Lender.used, other]

theorem awaiting_step {lender lender' : Lender W} {made : Shared.Label W}
    (careful : lender.onlyCollects own made = true)
    (step : Lender.step lender made = some lender') :
    (awaiting own).step lender made = some lender' :=
  guarded_eq_some.mpr ⟨careful, step⟩

/-- A reference more, which the owner or a handle takes. -/
theorem lend_moves (own : W) {lender : Lender W} (few : lender.inner.count ≤ maxRefcount)
    (lends : lender.owner = .idle ∧ lender.pending = false ∧ lender.grants = [] ∧ lender.Pinned ∨
      ∃ place : Nat, lender.handles[place]? = some .held) :
    ∃ made : Shared.Label W, (awaiting own).step lender made = some lender.lend ∧
      (awaiting own).wakes lender made = false ∧ (awaiting own).enters made = false ∧
        (((awaiting own).waits lender).isSome = true → (awaiting own).own made = false) := by
  rcases lends with ⟨isIdle, unpended, ungranted, pinned⟩ | ⟨place, isHeld⟩
  · have unused := unused_of_idle pinned isIdle ungranted
    refine ⟨.borrow, awaiting_step ?_ ?_, by simp [awaiting, Lender.wakes], rfl, ?_⟩
    · simp [Lender.onlyCollects, unused, few]
    · simp [Lender.step, isIdle, Lender.call]
    · intro waits
      simp [awaiting, isIdle, unpended] at waits
  · refine ⟨.clone place, awaiting_step ?_ ?_, by simp [awaiting, Lender.wakes], rfl, ?_⟩
    · simp [Lender.onlyCollects, few]
    · simp [Lender.step, isHeld]
    · exact fun _ => rfl

/-- The thread polls only for what it has not got. -/
theorem poll_step [DecidableEq T] (standing : s.Standing)
    (step : LentPool.step config s (.poll own) = some s') :
    (awaiting own).step s.lender (.poll own) = some s'.lender := by
  simp only [LentPool.step] at step
  split at step
  · rename_i polls
    obtain ⟨lender, stepped, rfl⟩ := Option.map_eq_some_iff.mp step
    have isIdle : s.lender.owner = .idle := by
      simp only [Lender.step] at stepped
      split at stepped
      · assumption
      · cases stepped
    refine awaiting_step ?_ stepped
    cases standing.stands with
    | collecting _ _ pinned =>
        simp [Lender.onlyCollects, unused_of_idle pinned isIdle polls.2]
    | opened isOpen =>
        rw [polls.1] at isOpen
        rcases isOpen with isOpen | isOpen <;> cases isOpen
    | dropping isClosing =>
        rw [isClosing] at polls
        cases polls.1
  · cases step

/-- What the pool does is for the `Lender` that references are taken and dropped. -/
theorem collecting_moves [DecidableEq T] (standing : s.Standing)
    (moves : (collecting config own).step s label = some s') :
    (collecting config own).Moves (awaiting own) LentPool.lender s label s' := by
  obtain ⟨careful, step⟩ := guarded_eq_some.mp moves
  have lent {label : LentLabel T W} {s' : LentPool T W} (same : s'.lender = s.lender.lend)
      (silent : (collecting config own).wakes s label = false)
      (enters : (collecting config own).enters label = false)
      (few : s.lender.inner.count ≤ maxRefcount)
      (lends : s.lender.owner = .idle ∧ s.lender.pending = false ∧ s.lender.grants = [] ∧
        s.lender.Pinned ∨ ∃ place : Nat, s.lender.handles[place]? = some .held) :
      (collecting config own).Moves (awaiting own) LentPool.lender s label s' := by
    obtain ⟨made, stepped, wakes, entered, free⟩ := lend_moves own few lends
    refine .made made (same ▸ stepped) (wakes.trans silent.symm) (entered.trans enters.symm) ?_
    intro waits isOwn
    rw [free waits] at isOwn
    cases isOwn
  cases label with
  | pool label =>
      have few : s.lender.inner.count ≤ maxRefcount := of_decide_eq_true careful
      have silent : (collecting config own).wakes s (.pool label) = false := by
        simp [collecting, wakes]
      simp only [LentPool.step, poolStep] at step
      split at step
      · rename_i admitted
        split at step
        · obtain ⟨pool, _, rfl⟩ := Option.map_eq_some_iff.mp step
          exact .aside rfl silent rfl
        · rename_i holder isLent
          split at step
          · cases step
          · obtain ⟨pool, stepped, rfl⟩ := Option.map_eq_some_iff.mp step
            refine lent rfl silent rfl few ?_
            cases standing.stands with
            | opened _ isIdle unpended ungranted pinned =>
                exact .inl ⟨isIdle, unpended, ungranted, pinned⟩
            | collecting isCollecting done =>
                obtain ⟨index, worker, found, isLive⟩ := ThreadPool.lends_live isLent done
                obtain ⟨place, _, isHeld⟩ := standing.tenanted index worker found isLive
                exact .inr ⟨place, isHeld⟩
            | dropping isDropping done gone =>
                have other := admits_other admitted (by simp [isDropping])
                exact absurd stepped (ThreadPool.still (standing.tenanted.dead gone) done other)
      · cases step
  | borrow =>
      simp only [LentPool.step] at step
      split at step
      · rename_i isOpen
        obtain rfl := Option.some.inj step
        refine lent rfl (by simp [collecting, wakes]) rfl (of_decide_eq_true careful) ?_
        cases standing.stands with
        | opened _ isIdle unpended ungranted pinned =>
            exact .inl ⟨isIdle, unpended, ungranted, pinned⟩
        | collecting isClosing | dropping isClosing =>
            rw [isClosing] at isOpen
            cases isOpen
      · cases step
  | startDrain shutdown =>
      simp only [LentPool.step] at step
      split at step
      · obtain rfl := Option.some.inj step
        exact .aside rfl (by simp [collecting, wakes]) rfl
      · cases step
  | collect =>
      simp only [LentPool.step] at step
      split at step
      · rename_i begins
        obtain ⟨lender, stepped, rfl⟩ := Option.map_eq_some_iff.mp step
        refine .made .tryCollect (awaiting_step ?_ stepped) ?_ rfl fun _ _ => rfl
        · cases standing.stands with
          | opened _ isIdle unpended ungranted pinned =>
              simp [Lender.onlyCollects, unused_of_idle pinned isIdle ungranted]
          | collecting isClosing | dropping isClosing =>
              rw [isClosing] at begins
              cases begins.1
        · simp [collecting, awaiting, wakes, Lender.wakes]
      · cases step
  | poll waker =>
      obtain rfl : waker = own := of_decide_eq_true careful
      have stepped := poll_step standing step
      refine .made (.poll waker) stepped ?_ rfl fun _ _ => rfl
      simp [collecting, awaiting, wakes, Lender.wakes]
  | owner spurious =>
      have stepped : Lender.step s.lender (.owner spurious) = some s'.lender := by
        simp only [LentPool.step] at step
        split at step <;> obtain ⟨lender, stepped, rfl⟩ := Option.map_eq_some_iff.mp step <;>
          exact stepped
      exact .made (.owner spurious) (awaiting_step rfl stepped) rfl rfl fun _ _ => rfl
  | drop => cases careful
  | release index =>
      simp only [LentPool.step] at step
      split at step
      · obtain ⟨lender, stepped, rfl⟩ := Option.map_eq_some_iff.mp step
        refine .made (.release index) (awaiting_step rfl stepped) ?_ rfl ?_
        · simp [collecting, awaiting, wakes, Lender.wakes]
        · rintro _ ⟨⟩
      · cases step
  | handle index =>
      have stepped : Lender.step s.lender (.handle index) = some s'.lender := by
        simp only [LentPool.step] at step
        split at step <;> obtain ⟨lender, stepped, rfl⟩ := Option.map_eq_some_iff.mp step <;>
          exact stepped
      refine .made (.handle index) (awaiting_step rfl stepped) rfl rfl ?_
      rintro _ ⟨⟩

/-- The thread that closes the pool blocks as one that has lent and collects. -/
theorem collecting_has [DecidableEq T] (isNew : LentPool.new config = some start) :
    (collecting config own).Has (awaiting own) LentPool.lender start where
  loop := rfl
  waits _ := rfl
  step _ _ _ reachable step := collecting_moves (Standing.of_collecting isNew reachable) step
  resume _ _ _ reachable step :=
    poll_step (Standing.of_collecting isNew reachable) (guarded_eq_some.mp step).2

omit [DecidableEq W] in
theorem few_of_lend {lender : Lender W} (sound : lender.lend.inner.panicked = false) :
    lender.inner.count ≤ maxRefcount ∧ lender.inner.panicked = false := by
  by_cases crowded : lender.inner.count > maxRefcount
  · simp only [Lender.lend, incCountRef, if_pos crowded] at sound
    cases sound
  · simp only [Lender.lend, incCountRef, if_neg crowded] at sound
    exact ⟨not_lt.mp crowded, sound⟩

/-- `ThreadPool::new` lends to the workers that it starts. -/
theorem reachable_lend {σ L P : Type} [DecidableEq P] (own : W) (impl : WakingParker σ L P)
    (count : Nat)
    (sound : (Lender.lend^[count] (Lender.init : Lender W)).inner.panicked = false) :
    ReachableUnder (Blocked.step (awaiting own) impl) (fun _ label => (!label.stray) = true)
      { call := Lender.init, parker := impl.init }
      { call := Lender.lend^[count] Lender.init, parker := impl.init } := by
  induction count with
  | zero => exact ReachableUnder.refl _ _ _
  | succ count ih =>
      rw [Function.iterate_succ_apply'] at sound ⊢
      obtain ⟨few, earlier⟩ := few_of_lend sound
      obtain ⟨pinned, isIdle, unpended, ungranted, _, _⟩ := lent_iterate count earlier
      obtain ⟨made, stepped, silent, enters, free⟩ :=
        lend_moves own few (.inl ⟨isIdle, unpended, ungranted, pinned⟩)
      have unwaited :
          (awaiting own).waits (Lender.lend^[count] (Lender.init : Lender W)) = none := by
        simp [awaiting, isIdle, unpended]
      have step : Blocked.step (awaiting own) impl
          { call := Lender.lend^[count] Lender.init, parker := impl.init } (.call made) =
            some { call := (Lender.lend^[count] Lender.init).lend, parker := impl.init } := by
        simp [Blocked.step, unwaited, stepped, silent, enters]
      exact (ih earlier).tail rfl step

theorem lender_reachable [DecidableEq T] {σ L P : Type} [DecidableEq P]
    {impl : WakingParker σ L P} {b : Blocked (LentPool T W) σ}
    (isNew : LentPool.new config = some start)
    (reachable : ReachableUnder (Blocked.step (collecting config own) impl)
      (fun _ label => (!label.stray) = true) { call := start, parker := impl.init } b) :
    Reachable (collecting config own).step start b.call ∧
      ReachableUnder (Blocked.step (awaiting own) impl) (fun _ label => (!label.stray) = true)
        { call := Lender.init, parker := impl.init } (b.on LentPool.lender) := by
  obtain ⟨reached, seen⟩ := Blocked.on_reachable (collecting_has isNew) reachable
  refine ⟨reached, ?_⟩
  simp only [LentPool.new] at isNew
  split at isNew
  · cases isNew
  · rename_i sound
    obtain rfl := Option.some.inj isNew
    have lent := reachable_lend own impl config.minCount
      (Bool.eq_false_of_not_eq_true sound)
    exact Relation.ReflTransGen.trans lent seen

end LentPool

/-! ## The pool under the wait -/

namespace ThreadPool

variable {config : Config} {s s' : ThreadPool T} {label : Label T}

/-- A pool that is closed stays so. -/
theorem closed_step (closed : s.state.phase ≠ .active)
    (step : ThreadPool.step config s label = some s') : s'.state.phase ≠ .active := by
  have steps := steps_of_step step
  cases steps with
  | drains shutdown => cases shutdown <;> simp [startDrain]
  | locks _ locks => exact locks.samePhase ▸ closed
  | runSpawns | runNotifies | notifiesOne | notifiesNone | announces | spawns | fails | notifiesAll
  | workerAnnounces | workerSpawns | workerFails | wakes => exact closed

/-- A thread that is lent to is there after the step. -/
theorem length_step (step : ThreadPool.step config s label = some s') :
    s.workers.length ≤ s'.workers.length ∧
      ∀ index, s.lends label = some (some index) → index < s'.workers.length := by
  have steps := steps_of_step step
  cases steps with
  | runSpawns | runNotifies | wakes | locks => simp [lends]
  | drains => simp [lends, startDrain]
  | notifiesOne found | notifiesNone found | announces found | fails found | notifiesAll found
  | workerAnnounces found | workerFails found => simp [lends, found]
  | spawns found | workerSpawns found => simp [lends, found]

end ThreadPool

namespace LentPool

variable {config : Config} {start s s' : LentPool T W} {label : LentLabel T W}

/-- The pool and the workers that hold it. -/
structure Tended (config : Config) (s : LentPool T W) : Prop where
  pool : Reachable (ThreadPool.step config) (ThreadPool.new config) s.pool
  closed : s.closing ≠ .opened → s.pool.state.phase ≠ .active
  inside : ∀ index, some index ∈ s.holders → index < s.pool.workers.length

theorem Tended.new (isNew : LentPool.new config = some start) : start.Tended config := by
  simp only [LentPool.new] at isNew
  split at isNew
  · cases isNew
  · obtain rfl := Option.some.inj isNew
    refine ⟨ReachableUnder.refl _ _ _, fun closed => absurd rfl closed, ?_⟩
    intro index isHolder
    simpa [ThreadPool.new] using isHolder

/-- A step of the pool, with the thread that it starts. -/
theorem Tended.pooled {pool : ThreadPool T} {label : Label T} {lender : Lender W}
    {holders : List (Option Nat)} (tended : s.Tended config)
    (step : ThreadPool.step config s.pool label = some pool)
    (lent : ∀ index, some index ∈ holders →
      some index ∈ s.holders ∨ s.pool.lends label = some (some index)) :
    ({ s with pool, lender, holders } : LentPool T W).Tended config where
  pool := tended.pool.tail trivial step
  closed closed := ThreadPool.closed_step (tended.closed closed) step
  inside index isHolder := by
    obtain ⟨longer, isInside⟩ := ThreadPool.length_step step
    rcases lent index isHolder with earlier | isNew
    · exact (tended.inside index earlier).trans_le longer
    · exact isInside index isNew

theorem holders_lend {holder : Option Nat} {index : Option Nat}
    (isHolder : index ∈ (s.lend holder).holders) : index ∈ s.holders ∨ index = holder := by
  simp only [LentPool.lend] at isHolder
  split at isHolder
  · exact .inl isHolder
  · simpa using isHolder

/-- The thread that closes the pool leaves it to its workers. -/
theorem Tended.aside (tended : s.Tended config) (pool : s'.pool = s.pool)
    (holders : s'.holders = s.holders)
    (closed : s'.closing ≠ .opened → s.closing ≠ .opened) : s'.Tended config where
  pool := pool ▸ tended.pool
  closed isClosed := pool ▸ tended.closed (closed isClosed)
  inside := by
    rw [pool, holders]
    exact tended.inside

theorem Tended.step (tended : s.Tended config) (step : LentPool.step config s label = some s') :
    s'.Tended config := by
  have lent {label : Shared.Label W} {before : LentPool T W}
      (step : before.lenderStep label = some s') :
      s'.pool = before.pool ∧ s'.holders = before.holders ∧ s'.closing = before.closing := by
    obtain ⟨lender, _, rfl⟩ := Option.map_eq_some_iff.mp step
    exact ⟨rfl, rfl, rfl⟩
  cases label with
  | pool label =>
      simp only [LentPool.step, poolStep] at step
      split at step
      · split at step
        · obtain ⟨pool, stepped, rfl⟩ := Option.map_eq_some_iff.mp step
          exact tended.pooled stepped fun _ => .inl
        · rename_i holder isLent
          split at step
          · cases step
          · obtain ⟨pool, stepped, rfl⟩ := Option.map_eq_some_iff.mp step
            refine tended.pooled stepped fun index isHolder => ?_
            rcases holders_lend isHolder with earlier | rfl
            · exact .inl earlier
            · exact .inr isLent
      · cases step
  | borrow =>
      simp only [LentPool.step] at step
      split at step
      · obtain rfl := Option.some.inj step
        refine ⟨tended.pool, tended.closed, fun index isHolder => ?_⟩
        rcases holders_lend isHolder with earlier | isNew
        · exact tended.inside index earlier
        · cases isNew
      · cases step
  | startDrain shutdown =>
      simp only [LentPool.step] at step
      split at step
      · obtain rfl := Option.some.inj step
        have drains : ThreadPool.step config s.pool (.startDrain shutdown) =
            some (s.pool.startDrain shutdown) := rfl
        refine ⟨tended.pool.tail trivial drains, fun _ => ?_, tended.inside⟩
        cases shutdown <;> simp [ThreadPool.startDrain]
      · cases step
  | collect | poll | drop =>
      simp only [LentPool.step] at step
      split at step
      · rename_i allowed
        obtain ⟨pool, holders, closing⟩ := lent step
        refine tended.aside pool holders fun _ => ?_
        simp [allowed.1]
      · cases step
  | owner spurious | handle index =>
      simp only [LentPool.step] at step
      split at step <;> obtain ⟨pool, holders, closing⟩ := lent step <;>
        exact tended.aside pool holders (closing ▸ id)
  | release index =>
      simp only [LentPool.step] at step
      split at step
      · obtain ⟨pool, holders, closing⟩ := lent step
        exact tended.aside pool holders (closing ▸ id)
      · cases step

theorem Tended.of_collecting [DecidableEq W] {own : W} (isNew : LentPool.new config = some start)
    (reachable : Reachable (collecting config own).step start s) : s.Tended config := by
  apply reachable.invariant (Tended.new isNew)
  intro before label after tended _ step
  exact tended.step (guarded_eq_some.mp step).2

/-! ## Who goes on -/

/-- A thread of the pool that can go on can do so while the thread that closes the
pool waits. -/
theorem pool_goes {label : Label T} {pool : ThreadPool T}
    (few : s.lender.inner.count ≤ maxRefcount) (goes : label.goesOn = true)
    (step : ThreadPool.step config s.pool label = some pool) :
    ∃ s', LentPool.step config s (.pool label) = some s' := by
  have admitted : s.admits label = true := by
    cases label with
    | run | startDrain | wake => cases goes
    | call | lock | spawn => rfl
  cases isLent : s.pool.lends label with
  | none => exact ⟨_, by simp only [LentPool.step, poolStep, admitted, isLent, step]; rfl⟩
  | some holder =>
      have able : ¬ (s.lender.inner.count > maxRefcount ∧ holder.isSome = true) :=
        fun crowded => not_lt.mpr few crowded.1
      exact ⟨_, by simp only [LentPool.step, poolStep, admitted, isLent, step, if_neg able]; rfl⟩

/-- A drop that has begun goes on. -/
theorem handle_goes {place : Nat} {pc : DropPc}
    (found : s.lender.handles[place]? = some (.dropping pc)) :
    ∃ s', LentPool.step config s (.handle place) = some s' := by
  obtain ⟨lender, moved⟩ : ∃ lender, s.lender.handleStep place = some lender := by
    simp only [Lender.handleStep, found]
    rcases pc.step s.lender.inner with ⟨inner, pc | last⟩
    · exact ⟨_, rfl⟩
    · exact ⟨_, rfl⟩
  exact ⟨{ s with lender }, by simp [LentPool.step, found, lenderStep, Lender.step, moved]⟩

/-- As long as there is a reference, the thread that holds it goes on, or gives it
back. -/
theorem held_goes {place : Nat} (each : s.holders.length = s.lender.handles.length)
    (tended : s.Tended config) (closed : s.closing ≠ .opened)
    (done : ∀ call ∈ s.pool.calls, call.done = true) (few : s.lender.inner.count ≤ maxRefcount)
    (found : s.lender.handles[place]? = some .held) :
    ∃ label s', label.goesOn = true ∧ LentPool.step config s label = some s' := by
  have gives (isSpent : s.spent place = true) :
      ∃ label s', label.goesOn = true ∧ LentPool.step config s label = some s' := by
    obtain ⟨lender, released⟩ : ∃ lender, Lender.step s.lender (.release place) = some lender :=
      ⟨_, by simp only [Lender.step, found]; rfl⟩
    exact ⟨.release place, { s with lender }, rfl,
      by simp [LentPool.step, isSpent, lenderStep, released]⟩
  obtain ⟨isPlace, _⟩ := List.getElem?_eq_some_iff.mp found
  obtain ⟨holder, isHolder⟩ : ∃ holder, s.holders[place]? = some holder :=
    ⟨_, List.getElem?_eq_getElem (each ▸ isPlace)⟩
  cases holder with
  | none => exact gives (by simp [spent, isHolder])
  | some index =>
      have isInside := tended.inside index (List.mem_of_getElem? isHolder)
      have isWorker := List.getElem?_eq_getElem isInside
      generalize s.pool.workers[index] = worker at isWorker
      cases isLive : worker.live with
      | false => exact gives (by simp [spent, isHolder, isWorker, isLive])
      | true =>
          have notWaiting : worker ≠ .waiting := by
            rintro rfl
            have told := ThreadPool.Told.of_reachable tended.pool
            have isDone :=
              done _ (told.closed (tended.closed closed) (List.mem_of_getElem? isWorker))
            cases isDone
          obtain ⟨label, pool, goes, step⟩ :=
            ThreadPool.step_of_live config isWorker isLive notWaiting
          obtain ⟨s', moved⟩ := pool_goes few goes step
          exact ⟨.pool label, s', goes, moved⟩

/-- A thread that waits for the pool waits for somebody who can go on. -/
theorem waits_goes [DecidableEq T] (standing : s.Standing) (tended : s.Tended config)
    (isIdle : s.lender.owner = .idle) (isPending : s.lender.pending = true)
    (few : s.lender.inner.count ≤ maxRefcount)
    (remains : 0 < s.lender.alive ∨ s.lender.waking = 1) :
    ∃ label s', label.goesOn = true ∧ LentPool.step config s label = some s' := by
  have dropping {handle : Shared.Handle} {pc : DropPc} (isHandle : handle ∈ s.lender.handles)
      (isDropping : handle = .dropping pc) :
      ∃ label s', label.goesOn = true ∧ LentPool.step config s label = some s' := by
    obtain ⟨place, found⟩ := List.getElem?_of_mem isHandle
    obtain ⟨s', moved⟩ : ∃ s', LentPool.step config s (.handle place) = some s' :=
      handle_goes (isDropping ▸ found)
    exact ⟨.handle place, s', rfl, moved⟩
  cases standing.stands with
  | opened _ _ unpended => simp [isPending] at unpended
  | dropping _ _ _ leaves => cases leaves <;> simp_all
  | collecting isCollecting done =>
      rcases remains with remains | remains
      · obtain ⟨handle, isHandle, isAlive⟩ := exists_of_tally_pos remains
        cases handle with
        | held =>
            obtain ⟨place, found⟩ := List.getElem?_of_mem isHandle
            exact held_goes standing.each tended (by simp [isCollecting]) done few found
        | dropping pc => exact dropping isHandle rfl
        | freeing | gone => simp [Shared.Handle.alive] at isAlive
      · obtain ⟨handle, isHandle, isWaking⟩ :=
          exists_of_tally_pos (remains ▸ Nat.one_pos : 0 < s.lender.waking)
        cases handle with
        | dropping pc => exact dropping isHandle rfl
        | held | freeing | gone => simp [Shared.Handle.waking] at isWaking

/-! ## How far they go -/

/-- A drop that has woken the owner finds the 1 that it has left. -/
def Unretried (s : LentPool T W) : Prop :=
  ∀ place : Nat, s.lender.handles[place]? = some (.dropping .exchange) → s.lender.inner.count = 1

theorem remains_lend (holder : Option Nat) (s : LentPool T W) :
    tally handleRemains (s.lend holder).lender.handles ≤
      tally handleRemains s.lender.handles + 4 := by
  simp only [LentPool.lend, Lender.lend, incCountRef]
  split_ifs <;> simp [handleRemains]

/-- What the owner does leaves the handles alone. -/
theorem remains_owner {before : LentPool T W} {label : Shared.Label W}
    (isOwner : label.ofOwner = true) (lends : label ≠ .borrow)
    (step : before.lenderStep label = some s') : s'.remains = before.remains := by
  obtain ⟨lender, stepped, rfl⟩ := Option.map_eq_some_iff.mp step
  have same : lender.handles = before.lender.handles := by
    cases label with
    | owner spurious => exact Lender.handles_of_ownerStep stepped
    | borrow => exact absurd rfl lends
    | tryCollect | poll | drop =>
        simp only [Lender.step, Lender.call] at stepped
        split at stepped <;> cases stepped
        rfl
    | cancel =>
        simp only [Lender.step, Lender.call] at stepped
        split at stepped <;> cases stepped
        split <;> rfl
    | clone | release | handle => cases isOwner
  simp only [remains, same]

/-- A step of a handle brings it nearer to its end. -/
theorem remains_handle {place : Nat} {lender : Lender W} (unretried : s.Unretried)
    (step : s.lender.handleStep place = some lender) :
    tally handleRemains lender.handles + 1 ≤ tally handleRemains s.lender.handles := by
  have moved {source : Shared.Handle} (found : s.lender.handles[place]? = some source)
      (target : Shared.Handle) :=
    tally_moved handleRemains found target
  cases Lender.drops_of_handleStep step with
  | last found =>
      have moved := moved found .freeing
      simp only [handleRemains] at moved
      simp only
      omega
  | announce found =>
      have moved := moved found (.dropping .wake)
      simp only [handleRemains] at moved
      simp only
      omega
  | wake found =>
      have moved := moved found (.dropping .exchange)
      simp only [handleRemains] at moved
      simp only
      omega
  | leave found | finish found | free found =>
      have moved := moved found .gone
      simp only [handleRemains] at moved
      simp only
      omega
  | retry found other => exact absurd (unretried place found) other

/-- In a pool that is closed each step of its threads leaves them less to do. -/
theorem remains_step (unretried : s.Unretried) (closed : s.closing ≠ .opened)
    (step : LentPool.step config s label = some s') :
    s'.closing ≠ .opened ∧
      s'.remains + label.goesOn.toNat ≤ s.remains + 5 * label.lapses.toNat := by
  have owned {before : LentPool T W} {label : Shared.Label W} (isOwner : label.ofOwner = true)
      (lends : label ≠ .borrow) (step : before.lenderStep label = some s') :
      s'.remains = before.remains ∧ s'.closing = before.closing := by
    refine ⟨remains_owner isOwner lends step, ?_⟩
    obtain ⟨lender, _, rfl⟩ := Option.map_eq_some_iff.mp step
    rfl
  cases label with
  | pool label =>
      simp only [LentPool.step, poolStep] at step
      split at step
      · rename_i admitted
        have uncalled : label.calls = false := by
          obtain ⟨unrun, undrained⟩ := admits_other admitted closed
          cases label with
          | run task => exact absurd rfl (unrun task)
          | startDrain shutdown => exact absurd rfl (undrained shutdown)
          | call | lock | spawn | wake => rfl
        have paid {pool : ThreadPool T}
            (stepped : ThreadPool.step config s.pool label = some pool) :
            pool.remains + 1 ≤ s.pool.remains + 2 * label.lapses.toNat := by
          have quiet : (!label.calls) = true := by simp [uncalled]
          exact (ThreadPool.spends_remains config s.pool label pool trivial quiet stepped).2
        split at step
        · obtain ⟨pool, stepped, rfl⟩ := Option.map_eq_some_iff.mp step
          refine ⟨closed, ?_⟩
          have paid := paid stepped
          simp only [remains, LentLabel.goesOn, LentLabel.lapses, Label.goesOn, uncalled]
          cases lapsed : label.lapses <;> simp [lapsed] at paid ⊢ <;> omega
        · rename_i holder isLent
          split at step
          · cases step
          · obtain ⟨pool, stepped, rfl⟩ := Option.map_eq_some_iff.mp step
            refine ⟨closed, ?_⟩
            have paid := paid stepped
            have lent := remains_lend holder s
            have unlapsed : label.lapses = false := by
              cases label with
              | wake => cases isLent
              | run | startDrain | call | lock | spawn => rfl
            simp only [remains, LentLabel.goesOn, LentLabel.lapses, Label.goesOn, uncalled,
              unlapsed] at paid ⊢
            simp only [Bool.not_false, Bool.and_self, Bool.toNat_true, Bool.toNat_false] at paid ⊢
            omega
      · cases step
  | borrow =>
      simp only [LentPool.step, if_neg closed] at step
      cases step
  | startDrain shutdown =>
      simp only [LentPool.step] at step
      split at step
      · rename_i begins
        exact absurd begins.1 closed
      · cases step
  | collect | poll | drop =>
      simp only [LentPool.step] at step
      split at step
      · rename_i allowed
        obtain ⟨same, closing⟩ := owned rfl (by simp) step
        rw [same, closing]
        exact ⟨by simp [allowed.1], by simp [remains, LentLabel.goesOn]⟩
      · cases step
  | owner spurious =>
      simp only [LentPool.step] at step
      split at step <;> obtain ⟨same, closing⟩ := owned rfl (by simp) step <;>
        rw [same, closing] <;>
        exact ⟨closed, by simp [remains, LentPool.free, LentLabel.goesOn]⟩
  | release index =>
      simp only [LentPool.step] at step
      split at step
      · obtain ⟨lender, stepped, rfl⟩ := Option.map_eq_some_iff.mp step
        refine ⟨closed, ?_⟩
        simp only [Lender.step] at stepped
        split at stepped
        · rename_i found
          obtain rfl := Option.some.inj stepped
          have moved := tally_moved handleRemains found (.dropping .sub)
          simp only [handleRemains] at moved
          simp only [remains, LentLabel.goesOn, LentLabel.lapses, Bool.toNat_true, Bool.toNat_false]
          omega
        · cases stepped
      · cases step
  | handle index =>
      simp only [LentPool.step] at step
      split at step <;> obtain ⟨lender, stepped, rfl⟩ := Option.map_eq_some_iff.mp step <;>
        have less := remains_handle unretried stepped <;> refine ⟨closed, ?_⟩ <;>
        simp only [remains, LentPool.free, LentLabel.goesOn, LentLabel.lapses, Bool.toNat_true,
          Bool.toNat_false] <;> omega

end LentPool

/-! ## The closing thread -/

/-- A step of the pool's own threads. -/
def blockedGoesOn : BlockedLabel (LentLabel T W) → Bool
  | .call label => label.goesOn
  | .park | .go _ | .unpark | .notify _ => false

def blockedLapses : BlockedLabel (LentLabel T W) → Bool
  | .call label => label.lapses
  | .park | .go _ | .unpark | .notify _ => false

/-- What a thread that closes the pool can rely on. -/
structure Unhung [DecidableEq W] {σ L P : Type} [DecidableEq P] (impl : WakingParker σ L P)
    (config : Config) (own : W) (b : Blocked (LentPool T W) σ) : Prop where
  /-- It gets the pool back when every worker has left. -/
  left : b.call.lender.grants ≠ [] → ∀ worker ∈ b.call.pool.workers, worker.live = false
  /-- While it sleeps a thread of the pool can go on, or the `unpark` calls in
  progress wake it. -/
  moves : impl.asleep b.parker = true → b.call.lender.inner.count ≤ maxRefcount →
    (∃ label next, label.goesOn = true ∧
      Blocked.step (LentPool.collecting config own) impl b (.call label) = some next) ∨
    ∃ notifiers next, runFrom (Blocked.step (LentPool.collecting config own) impl) b
        (List.map .notify notifiers) = some next ∧ impl.asleep next.parker = false
  /-- Once the pool is closed its threads have only so many steps left, and five more
  for each wait of a worker that lapses. -/
  bounded : b.call.closing ≠ .opened → ∀ labels b', (∀ label ∈ labels, (!label.stray) = true) →
    runFrom (Blocked.step (LentPool.collecting config own) impl) b labels = some b' →
      labels.countP blockedGoesOn + b'.call.remains ≤
        b.call.remains + 5 * labels.countP blockedLapses

section Threads

variable [DecidableEq W] {config : Config} {own : W} {start : LentPool T W}

omit [DecidableEq W] in
/-- While the thread waits a drop that has woken it finds its 1. -/
theorem unretried_of_blocks {σ : Type} {b : Blocked (LentPool T W) σ}
    (blocks : BlocksOn own (b.on LentPool.lender)) : b.call.Unretried := by
  intro place found
  have nobody {count refs : Nat} {cell : Option W} {woken : List W}
      (holds : b.call.lender.Holds count refs 0 0 cell woken) : False := by
    have finishing : 1 ≤ 0 := (holds.found found).2.2.1
    omega
  have waking {count refs : Nat} {cell : Option W} {woken : List W}
      (holds : b.call.lender.Holds count refs 1 0 cell woken) : False := by
    have finishing : 1 ≤ 0 := (holds.found found).2.2.1
    omega
  obtain ⟨⟨owed, ⟨waits, _⟩ | wakes, _⟩, _⟩ := blocks
  · cases waits with
    | lending _ _ _ holds => exact (nobody holds).elim
    | begun begun =>
        induction begun with
        | starting _ _ _ holds | stored _ _ _ holds | waiting _ _ _ holds =>
            exact (nobody holds).elim
        | settling _ _ holds | cleared _ _ holds | ready _ _ holds | done _ _ holds =>
            exact (nobody holds).elim
        | announced _ _ holds => exact (waking holds).elim
        | woken _ _ holds => exact holds.count
  · cases wakes with
    | pending _ _ _ holds =>
        rcases holds with holds | holds
        · exact holds.count
        · exact (nobody holds).elim
    | ended _ _ _ holds => exact (nobody holds).elim

/-- What the threads of a closed pool do is bounded, whatever the thread that
closes it does meanwhile. -/
theorem spends_blocked {σ L P : Type} [DecidableEq P] {impl : WakingParker σ L P}
    (lawful : impl.Lawful) (isNew : LentPool.new config = some start) :
    Spends (Blocked.step (LentPool.collecting config own) impl)
      (fun b => ReachableUnder (Blocked.step (LentPool.collecting config own) impl)
          (fun _ label => (!label.stray) = true) { call := start, parker := impl.init } b ∧
        b.call.closing ≠ .opened)
      (fun label => !label.stray) blockedGoesOn blockedLapses (fun b => b.call.remains) 5 := by
  classical
  rintro b label b' ⟨reachable, closed⟩ called step
  have reached := reachable.tail called step
  have unretried : b.call.Unretried :=
    unretried_of_blocks
      (BlocksOn.of_reachable lawful (LentPool.lender_reachable isNew reachable).2).1
  have made := Blocked.makes_of_step step
  have stays (same : b'.call = b.call) : b'.call.closing ≠ .opened ∧
      b'.call.remains + 0 ≤ b.call.remains + 5 * 0 := by
    rw [same]
    exact ⟨closed, le_rfl⟩
  have moves {label : LentLabel T W}
      (made : (LentPool.collecting config own).step b.call label = some b'.call) :
      b'.call.closing ≠ .opened ∧
        b'.call.remains + label.goesOn.toNat ≤ b.call.remains + 5 * label.lapses.toNat :=
    LentPool.remains_step unretried closed (guarded_eq_some.mp made).2
  suffices paid : b'.call.closing ≠ .opened ∧ b'.call.remains + (blockedGoesOn label).toNat ≤
      b.call.remains + 5 * (blockedLapses label).toNat from ⟨⟨reached, paid.1⟩, paid.2⟩
  cases label with
  | call label => exact moves made
  | go fate =>
      cases makes : b.makes (LentPool.collecting config own) impl (.go fate) with
      | none =>
          rw [makes] at made
          exact stays made
      | some poll =>
          rw [makes] at made
          rcases Blocked.resume_of_makes makes with isCall | ⟨timedOut, rfl⟩
          · cases isCall
          · exact moves made
  | park | unpark | notify => exact stays made

theorem unhung_of_reachable {σ L P : Type} [DecidableEq P] {impl : WakingParker σ L P}
    {b : Blocked (LentPool T W) σ} (lawful : impl.Lawful) (hears : impl.Hears)
    (delivers : impl.Delivers) (isNew : LentPool.new config = some start)
    (reachable : ReachableUnder (Blocked.step (LentPool.collecting config own) impl)
      (fun _ label => (!label.stray) = true) { call := start, parker := impl.init } b) :
    Unhung impl config own b := by
  classical
  obtain ⟨reached, seen⟩ := LentPool.lender_reachable isNew reachable
  have standing := LentPool.Standing.of_collecting isNew reached
  have tended := LentPool.Tended.of_collecting isNew reached
  obtain ⟨awaits, kept⟩ := BlocksOn.of_reachable lawful seen
  constructor
  · intro granted
    apply standing.tenanted.dead
    cases standing.stands with
    | opened _ _ _ ungranted => exact absurd ungranted granted
    | collecting _ _ pinned => exact (pinned.given granted).gone
    | dropping _ _ gone => exact gone
  · intro isAsleep few
    obtain ⟨timeout, waits⟩ := Option.ne_none_iff_exists'.mp (kept.waits lawful isAsleep)
    obtain ⟨isIdle, isPending, _⟩ := (awaiting_waits _ _).mp waits
    have goes (remains : 0 < b.call.lender.alive ∨ b.call.lender.waking = 1) :
        ∃ label next, label.goesOn = true ∧
          Blocked.step (LentPool.collecting config own) impl b (.call label) = some next := by
      obtain ⟨label, s', goesOn, moved⟩ :=
        LentPool.waits_goes standing tended isIdle isPending few remains
      have careful : b.call.closes own label = true := by
        cases label with
        | pool => exact decide_eq_true few
        | release | handle => rfl
        | borrow | startDrain | collect | poll | owner | drop => cases goesOn
      have step : (LentPool.collecting config own).step b.call label = some s' :=
        guarded_eq_some.mpr ⟨careful, moved⟩
      have others : ∀ made ∈ [label], (LentPool.collecting config own).own made = false := by
        rw [List.forall_mem_singleton]
        cases label with
        | pool | release | handle => rfl
        | borrow | startDrain | collect | poll | owner | drop => cases goesOn
      have stepped : runFrom (LentPool.collecting config own).step b.call [label] = some s' := by
        rw [runFrom_cons, step]
        rfl
      obtain ⟨next, ran, _⟩ :=
        Blocked.follow (LentPool.collecting config own) lawful others stepped
      refine ⟨label, next, goesOn, ?_⟩
      simpa [runFrom_cons] using ran
    rcases (awaits.collected lawful hears kept).asleep isAsleep with alive | waking | comes
    · exact .inl (goes (.inl alive))
    · exact .inl (goes (.inr waking))
    · right
      obtain ⟨notifiers, parker, ran, awake⟩ := delivers b.parker kept.reachable isAsleep comes
      exact ⟨notifiers, _, Blocked.run_notify ran, awake⟩
  · intro closed labels b' called ran
    exact (spends_blocked lawful isNew).countP_add_le ⟨reachable, closed⟩ called ran

/-- The thread that closes a pool, and that nobody else notifies, never hangs in
its wait: as long as it sleeps a thread of the pool can go on, or is on the way
to wake it. -/
theorem shutdown_unhung (isNew : LentPool.new config = some start) (own : W) :
    (∀ b, ReachableUnder (Blocked.step (LentPool.collecting config own) (wakingCondvar .pthread))
        (fun _ label => (!label.stray) = true) { call := start, parker := {} } b →
      Unhung (wakingCondvar .pthread) config own b) ∧
    ∀ b, ReachableUnder (Blocked.step (LentPool.collecting config own) wakingFutex)
        (fun _ label => (!label.stray) = true) { call := start, parker := {} } b →
      Unhung wakingFutex config own b := by
  constructor
  · intro b reachable
    exact unhung_of_reachable (wakingCondvar_lawful .pthread) wakingCondvar_hears
      wakingCondvar_delivers isNew reachable
  · intro b reachable
    exact unhung_of_reachable wakingFutex_lawful wakingFutex_hears wakingFutex_delivers isNew
      reachable

end Threads

/-- The only worker has yet to begin, and `drop` sleeps until it has left. -/
theorem shutdown_unhung_asleep : ∃ b : Blocked (LentPool Nat Nat) Futex.System,
    wakingFutex.asleep b.parker = true ∧ b.call.pool.workers = [.starting] ∧
      Unhung wakingFutex { idleTimeout := none, minCount := 1, maxCount := some 1 } 7 b := by
  obtain ⟨start, isNew, b, ran, isAsleep, isStarting⟩ : ∃ start ∈
      (LentPool.new { idleTimeout := none, minCount := 1, maxCount := some 1 } :
        Option (LentPool Nat Nat)), ∃ b ∈
      runFrom (guarded (Blocked.step
          (LentPool.collecting { idleTimeout := none, minCount := 1, maxCount := some 1 } 7)
          wakingFutex) fun _ label => !label.stray)
        { call := start, parker := {} }
        [.call (.startDrain true), .call (.pool (.call 0 none false)), .call .collect,
          .call (.owner false), .call (.poll 7), .call (.owner false), .call (.owner false),
          .call (.owner false), .park, .go .goes, .go .goes],
      wakingFutex.asleep b.parker = true ∧ b.call.pool.workers = [.starting] := by
    decide +kernel
  exact ⟨b, isAsleep, isStarting, (shutdown_unhung isNew 7).2 b (reachableUnder_of_runFrom ran)⟩

end Suspend.Pool
