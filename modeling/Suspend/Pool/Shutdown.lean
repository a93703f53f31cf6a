import Mathlib.Logic.Function.Iterate
import Suspend.Pool.Drain
import Suspend.Shared.Scoped

/-!
# Shutting the pool down

A `ThreadPool` is a `Lender` of its inner state, of which every worker holds a
`Shared`.  `drop` and `drain` change the phase, wait until the workers have
given back what they hold, and drop the `Lender`; the tasks still in the queue
are dropped with the inner state.
-/

namespace Suspend.Pool

open Suspend.Transition

universe u v

variable {T : Type u} {W : Type v}

/-! ## The pool and its `Lender` -/

/-- How far `ThreadPool::drop` or `ThreadPool::drain` has come. -/
inductive Closing where
  | opened
  /-- In `start_drain`, after its critical section. -/
  | draining
  /-- In `collect().wait(None)`. -/
  | collecting
  /-- The `Lender` is dropped. -/
  | dropping
  deriving DecidableEq, Repr

/-- The pool and the `Lender` of its inner state.  Handle `index` is held by
worker `holders[index]`, or by a call where there is none. -/
structure LentPool (T : Type u) (W : Type v) where
  pool : ThreadPool T
  lender : Shared.Lender W
  holders : List (Option Nat)
  closing : Closing := .opened
  /-- The tasks that were dropped with the inner state. -/
  released : List T := []
  deriving DecidableEq, Repr

/-- What the workers and the callers do, and the thread that closes the pool. -/
inductive LentLabel (T : Type u) (W : Type v) where
  | pool (label : Label T)
  /-- `scoped` borrows the inner state. -/
  | borrow
  | startDrain (shutdown : Bool)
  | collect
  | poll (waker : W)
  | owner (spurious : Bool)
  | drop
  | release (index : Nat)
  | handle (index : Nat)
  deriving DecidableEq, Repr

/-- The task that is dropped as a panic unwinds its worker. -/
def Worker.unwound : Worker T → List T
  | failed task => [task]
  | _ => []

/-- The call has returned, or panicked. -/
def Call.done : Call → Bool
  | returned | failed => true
  | _ => false

/-- The spawning of a thread makes a `Shared` for it, which is dropped at once
when the spawning fails. -/
def ThreadPool.lends (s : ThreadPool T) : Label T → Option (Option Nat)
  | .call index _ fails =>
      match s.calls[index]? with
      | some .spawn => some (if fails then none else some s.workers.length)
      | _ => none
  | .spawn index fails =>
      match s.workers[index]? with
      | some (.spawning _) => some (if fails then none else some s.workers.length)
      | _ => none
  | _ => none

namespace LentPool

/-- The tasks dropped unrun. -/
def dropped (s : LentPool T W) : List T :=
  s.pool.workers.flatMap Worker.unwound ++ s.released

/-- `borrow` and `into_shared`. -/
def lend (holder : Option Nat) (s : LentPool T W) : LentPool T W :=
  { s with
    lender := s.lender.lend
    holders :=
      if s.lender.inner.count > Shared.maxRefcount then s.holders else s.holders ++ [holder] }

/-- `drop` and `drain` own the pool, so that no other call is made. -/
def admits (s : LentPool T W) : Label T → Bool
  | .run _ => s.closing = .opened
  | .startDrain _ => false
  | _ => true

/-- A step of the pool; `into_shared` panics before it spawns one thread too
many. -/
def poolStep (config : Config) (label : Label T) (s : LentPool T W) : Option (LentPool T W) :=
  if s.admits label then
    match s.pool.lends label with
    | none => (ThreadPool.step config s.pool label).map fun pool => { s with pool }
    | some holder =>
        if s.lender.inner.count > Shared.maxRefcount ∧ holder.isSome then none
        else (ThreadPool.step config s.pool label).map fun pool => { s.lend holder with pool }
  else none

/-- The `Shared` of the handle is dropped when its worker's thread has run out. -/
def spent (s : LentPool T W) (index : Nat) : Bool :=
  match s.holders[index]? with
  | some (some worker) => s.pool.workers[worker]?.any fun worker => !worker.live
  | some none => true
  | none => false

/-- What happens to the `Lender` alone. -/
def lenderStep (label : Shared.Label W) (s : LentPool T W) : Option (LentPool T W) :=
  (Shared.Lender.step s.lender label).map fun lender => { s with lender }

/-- The inner state is freed, and its queue dropped. -/
def free (s : LentPool T W) : LentPool T W :=
  { s with released := s.released ++ s.pool.state.queue }

def step (config : Config) : Step (LentPool T W) (LentLabel T W)
  | s, .pool label => s.poolStep config label
  | s, .borrow => if s.closing = .opened then some (s.lend none) else none
  | s, .startDrain shutdown =>
      if s.closing = .opened ∧ s.pool.calls.all Call.done then
        some { s with pool := s.pool.startDrain shutdown, closing := .draining }
      else none
  | s, .collect =>
      if s.closing = .draining ∧ s.pool.calls.all Call.done then
        ({ s with closing := .collecting } : LentPool T W).lenderStep .tryCollect
      else none
  | s, .poll waker =>
      if s.closing = .collecting ∧ s.lender.grants = [] then s.lenderStep (.poll waker) else none
  | s, .drop =>
      if s.closing = .collecting ∧ s.lender.grants ≠ [] then
        ({ s with closing := .dropping } : LentPool T W).lenderStep .drop
      else none
  | s, .owner spurious =>
      match s.lender.owner with
      | .freeing => s.free.lenderStep (.owner spurious)
      | _ => s.lenderStep (.owner spurious)
  | s, .release index => if s.spent index then s.lenderStep (.release index) else none
  | s, .handle index =>
      match s.lender.handles[index]? with
      | some .freeing => s.free.lenderStep (.handle index)
      | _ => s.lenderStep (.handle index)

/-- `ThreadPool::new`, unless `min_count` is more than can be borrowed. -/
def new (config : Config) : Option (LentPool T W) :=
  let lender := Shared.Lender.lend^[config.minCount] Shared.Lender.init
  if lender.inner.panicked then none
  else some { pool := .new config, lender, holders := (List.range config.minCount).map some }

/-- When `drop` or `drain` has returned, each task accepted has been executed or
dropped, and only once. -/
def Resolved (s : LentPool T W) : Prop :=
  s.lender.owner = .gone → (s.pool.executed ++ s.dropped).Perm s.pool.accepted

/-- The `Lender` is not dropped on the count that `resume_poll` leaves while
tasks are queued, and the count does not overflow. -/
def frees (s : LentPool T W) : LentLabel T W → Bool
  | .pool _ | .borrow => s.lender.inner.count + 2 < Shared.usizeRange
  | .owner spurious => s.lender.uncrowded (.owner spurious)
  | .drop => s.lender.inner.count = 3 || s.pool.state.queue.isEmpty
  | _ => true

end LentPool

/-! ## What the pool does meanwhile -/

section Pool

variable {config : Config} {s s' : ThreadPool T} {label : Label T}

/-- A live worker was live before, or is new. -/
theorem ThreadPool.live_step (step : ThreadPool.step config s label = some s') {index : Nat}
    {worker : Worker T} (found : s'.workers[index]? = some worker) (isLive : worker.live = true) :
    (∃ earlier, s.workers[index]? = some earlier ∧ earlier.live = true) ∨
      index = s.workers.length ∧ s.lends label = some (some index) := by
  have moved {workers : List (Worker T)} {other : Nat} {source target : Worker T}
      (isSource : s.workers[other]? = some source) (wasLive : source.live = true)
      (kept : ∀ earlier, workers[index]? = some earlier → earlier.live = true →
        ∃ earlier, s.workers[index]? = some earlier ∧ earlier.live = true)
      (found : (workers.set other target)[index]? = some worker) :
      ∃ earlier, s.workers[index]? = some earlier ∧ earlier.live = true := by
    rw [List.getElem?_set] at found
    split at found
    · rename_i same
      subst same
      exact ⟨source, isSource, wasLive⟩
    · exact kept worker found isLive
  have same : ∀ earlier, s.workers[index]? = some earlier → earlier.live = true →
      ∃ earlier, s.workers[index]? = some earlier ∧ earlier.live = true := by
    intro earlier isEarlier wasLive
    exact ⟨earlier, isEarlier, wasLive⟩
  have waking : ∀ earlier, (s.workers.map Worker.wake)[index]? = some earlier →
      earlier.live = true → ∃ earlier, s.workers[index]? = some earlier ∧ earlier.live = true := by
    intro earlier isEarlier wasLive
    rw [List.getElem?_map, Option.map_eq_some_iff] at isEarlier
    obtain ⟨source, isSource, rfl⟩ := isEarlier
    refine ⟨source, isSource, ?_⟩
    cases source <;> first | rfl | exact wasLive
  have steps := steps_of_step step
  cases steps with
  | runSpawns | runNotifies | drains | notifiesNone | fails =>
      exact .inl (same worker found isLive)
  | notifiesOne _ waits => exact .inl (moved waits rfl same found)
  | announces | notifiesAll => exact .inl (waking worker found isLive)
  | spawns isCall =>
      rw [List.getElem?_append] at found
      split at found
      · exact .inl (same worker found isLive)
      · rename_i beyond
        obtain ⟨inside, _⟩ := List.getElem?_eq_some_iff.mp found
        have isNew : index = s.workers.length := by
          rw [List.length_singleton] at inside
          omega
        refine .inr ⟨isNew, ?_⟩
        simp [lends, isCall, isNew]
  | locks isWorker locks =>
      refine .inl (moved isWorker ?_ same found)
      cases locks <;> rfl
  | workerAnnounces isWorker => exact .inl (moved isWorker rfl waking found)
  | workerSpawns isWorker =>
      rw [List.getElem?_append] at found
      split at found
      · exact .inl (moved isWorker rfl same found)
      · rename_i beyond
        obtain ⟨inside, _⟩ := List.getElem?_eq_some_iff.mp found
        have isNew : index = s.workers.length := by
          rw [List.length_singleton, List.length_set] at inside
          rw [List.length_set] at beyond
          omega
        refine .inr ⟨isNew, ?_⟩
        simp [lends, isWorker, isNew]
  | workerFails isWorker => exact .inl (moved isWorker rfl same found)
  | wakes isWorker => exact .inl (moved isWorker rfl same found)

/-- A pool with no worker and no call left stands still. -/
theorem ThreadPool.still (dead : ∀ worker ∈ s.workers, worker.live = false)
    (done : ∀ call ∈ s.calls, call.done = true)
    (other : (∀ task, label ≠ .run task) ∧ ∀ shutdown, label ≠ .startDrain shutdown) :
    ThreadPool.step config s label ≠ some s' := by
  intro step
  have isDead {index : Nat} {worker : Worker T} (found : s.workers[index]? = some worker) :
      worker.live = false := dead worker (List.mem_of_getElem? found)
  have isDone {index : Nat} {call : Call} (found : s.calls[index]? = some call) :
      call.done = true := done call (List.mem_of_getElem? found)
  have steps := steps_of_step step
  cases steps with
  | runSpawns task | runNotifies task => exact other.1 task rfl
  | drains shutdown => exact other.2 shutdown rfl
  | notifiesOne found | notifiesNone found | announces found | spawns found | fails found
  | notifiesAll found => cases isDone found
  | locks found locks =>
      have dead := isDead found
      cases locks <;> cases dead
  | workerAnnounces found | workerSpawns found | workerFails found | wakes found =>
      cases isDead found

/-- Calls that have returned make no further step. -/
theorem ThreadPool.calls_step (step : ThreadPool.step config s label = some s')
    (done : ∀ call ∈ s.calls, call.done = true)
    (other : (∀ task, label ≠ .run task) ∧ ∀ shutdown, label ≠ .startDrain shutdown) :
    s'.calls = s.calls := by
  have isDone {index : Nat} {call : Call} (found : s.calls[index]? = some call) :
      call.done = true := done call (List.mem_of_getElem? found)
  have steps := steps_of_step step
  cases steps with
  | runSpawns task | runNotifies task => exact absurd rfl (other.1 task)
  | drains shutdown => exact absurd rfl (other.2 shutdown)
  | notifiesOne found | notifiesNone found | announces found | spawns found | fails found
  | notifiesAll found => cases isDone found
  | locks | workerAnnounces | workerSpawns | workerFails | wakes => rfl

/-- Then only a worker borrows. -/
theorem ThreadPool.lends_live {holder : Option Nat} (isLent : s.lends label = some holder)
    (done : ∀ call ∈ s.calls, call.done = true) :
    ∃ (index : Nat) (worker : Worker T), s.workers[index]? = some worker ∧ worker.live = true := by
  cases label with
  | call index target fails =>
      simp only [lends] at isLent
      split at isLent
      · rename_i found
        cases done _ (List.mem_of_getElem? found)
      · cases isLent
  | spawn index fails =>
      simp only [lends] at isLent
      split at isLent
      · rename_i task found
        exact ⟨index, .spawning task, found, rfl⟩
      · cases isLent
  | run | startDrain | lock | wake => cases isLent

end Pool

/-! ## The invariant -/

namespace LentPool

/-- A worker holds the inner state until its thread has run out. -/
def Tenanted (s : LentPool T W) : Prop :=
  ∀ (index : Nat) (worker : Worker T), s.pool.workers[index]? = some worker → worker.live = true →
    ∃ place : Nat, s.holders[place]? = some (some index) ∧ s.lender.handles[place]? = some .held

/-- Where the drop of the `Lender` stands. -/
inductive Leaves (s : LentPool T W) : Prop
  | begun (isOwner : s.lender.owner = .dropping)
      (frees : s.lender.inner.count = 3 ∨ s.pool.state.queue = []) (unreleased : s.released = [])
  | freeing (isOwner : s.lender.owner = .freeing) (unreleased : s.released = [])
  | gone (isOwner : s.lender.owner = .gone) (released : s.released = s.pool.state.queue)

/-- Where `drop` or `drain` stands. -/
inductive Stands (s : LentPool T W) : Prop
  | opened (isOpen : s.closing = .opened ∨ s.closing = .draining) (isIdle : s.lender.owner = .idle)
      (unpended : s.lender.pending = false) (ungranted : s.lender.grants = [])
      (pinned : s.lender.Pinned) (unreleased : s.released = [])
  | collecting (isCollecting : s.closing = .collecting)
      (done : ∀ call ∈ s.pool.calls, call.done = true) (pinned : s.lender.Pinned)
      (unreleased : s.released = [])
  | dropping (isDropping : s.closing = .dropping)
      (done : ∀ call ∈ s.pool.calls, call.done = true)
      (gone : ∀ handle ∈ s.lender.handles, handle = .gone) (leaves : s.Leaves)

/-- The workers with their handles, the tasks and the end of the pool. -/
structure Standing [DecidableEq T] (s : LentPool T W) : Prop where
  each : s.holders.length = s.lender.handles.length
  tenanted : s.Tenanted
  ledger : s.pool.Ledger
  stands : s.Stands

variable {config : Config} {s s' : LentPool T W} {label : Label T}

/-- With every handle gone, every worker has exited or failed. -/
theorem Tenanted.dead (tenanted : s.Tenanted) (gone : ∀ handle ∈ s.lender.handles, handle = .gone) :
    ∀ worker ∈ s.pool.workers, worker.live = false := by
  intro worker isWorker
  by_contra isLive
  obtain ⟨index, found⟩ := List.mem_iff_getElem?.mp isWorker
  obtain ⟨place, _, isHeld⟩ := tenanted index worker found (Bool.eq_true_of_not_eq_false isLive)
  have isGone := gone _ (List.mem_of_getElem? isHeld)
  cases isGone

/-- The handles that are held stay so. -/
theorem Tenanted.kept (tenanted : s.Tenanted) {lender : Shared.Lender W}
    (kept : ∀ place : Nat, s.lender.handles[place]? = some .held →
      (∃ (index : Nat) (worker : Worker T), s.holders[place]? = some (some index) ∧
        s.pool.workers[index]? = some worker ∧ worker.live = true) →
      lender.handles[place]? = some .held) (closing : Closing) (released : List T) :
    ({ s with lender, closing, released } : LentPool T W).Tenanted := by
  intro index worker found isLive
  obtain ⟨place, isHolder, isHeld⟩ := tenanted index worker found isLive
  exact ⟨place, isHolder, kept place isHeld ⟨index, worker, isHolder, found, isLive⟩⟩

/-- A step of the pool that starts no worker. -/
theorem Tenanted.unlent {pool : ThreadPool T} (tenanted : s.Tenanted)
    (step : ThreadPool.step config s.pool label = some pool)
    (unlent : ∀ index, s.pool.lends label ≠ some (some index)) (closing : Closing) :
    ({ s with pool, closing } : LentPool T W).Tenanted := by
  intro index worker found isLive
  rcases ThreadPool.live_step step found isLive with ⟨earlier, isEarlier, wasLive⟩ | ⟨_, isLent⟩
  · exact tenanted index earlier isEarlier wasLive
  · exact absurd isLent (unlent index)

/-- A new handle. -/
theorem Tenanted.lend (tenanted : s.Tenanted) (holder : Option Nat) : (s.lend holder).Tenanted := by
  intro index worker found isLive
  obtain ⟨place, isHolder, isHeld⟩ := tenanted index worker found isLive
  obtain ⟨inHolders, _⟩ := List.getElem?_eq_some_iff.mp isHolder
  obtain ⟨inHandles, _⟩ := List.getElem?_eq_some_iff.mp isHeld
  refine ⟨place, ?_, ?_⟩
  · simp only [LentPool.lend]
    split
    · exact isHolder
    · rw [List.getElem?_append_left inHolders]
      exact isHolder
  · simp only [LentPool.lend, Shared.Lender.lend, Shared.incCountRef]
    split_ifs
    · exact isHeld
    · rw [List.getElem?_append_left inHandles]
      exact isHeld

/-- A handle for a worker that is about to start, or for nobody. -/
theorem Tenanted.lent {pool : ThreadPool T} {holder : Option Nat} (tenanted : s.Tenanted)
    (each : s.holders.length = s.lender.handles.length)
    (step : ThreadPool.step config s.pool label = some pool)
    (isLent : s.pool.lends label = some holder)
    (able : ¬ (s.lender.inner.count > Shared.maxRefcount ∧ holder.isSome = true)) :
    ({ s.lend holder with pool } : LentPool T W).Tenanted := by
  intro index worker found isLive
  rcases ThreadPool.live_step step found isLive with ⟨earlier, isEarlier, wasLive⟩ | ⟨_, isNew⟩
  · exact tenanted.lend holder index earlier isEarlier wasLive
  · rw [isLent] at isNew
    obtain rfl := Option.some.inj isNew
    have uncrowded : ¬ s.lender.inner.count > Shared.maxRefcount :=
      fun crowded => able ⟨crowded, rfl⟩
    simp only [LentPool.lend, Shared.Lender.lend, Shared.incCountRef, if_neg uncrowded]
    refine ⟨s.holders.length, List.getElem?_concat_length, ?_⟩
    rw [each]
    exact List.getElem?_concat_length

theorem each_lend (holder : Option Nat) (each : s.holders.length = s.lender.handles.length) :
    (s.lend holder).holders.length = (s.lend holder).lender.handles.length := by
  by_cases crowded : s.lender.inner.count > Shared.maxRefcount
  · simp only [LentPool.lend, Shared.Lender.lend, Shared.incCountRef, if_pos crowded]
    exact each
  · simp only [LentPool.lend, Shared.Lender.lend, Shared.incCountRef, if_neg crowded,
      List.length_append, each]
    rfl

/-! ## Steps -/

theorem admits_other (admitted : s.admits label = true) (closed : s.closing ≠ .opened) :
    (∀ task, label ≠ .run task) ∧ ∀ shutdown, label ≠ .startDrain shutdown := by
  constructor
  · rintro task rfl
    exact closed (of_decide_eq_true admitted)
  · rintro shutdown rfl
    cases admitted

/-- A handle of a pool that nobody closes. -/
theorem Stands.lent_opened {pool : ThreadPool T} (holder : Option Nat) (stands : s.Stands)
    (isOpen : s.closing = .opened ∨ s.closing = .draining)
    (room : s.lender.inner.count + 2 < Shared.usizeRange) :
    ({ s.lend holder with pool } : LentPool T W).Stands := by
  cases stands with
  | opened _ isIdle unpended ungranted pinned unreleased =>
      obtain ⟨refs, balance⟩ := pinned.idle_balance isIdle unpended ungranted
      obtain ⟨sameOwner, samePending, sameGrants⟩ := s.lender.lend_owner
      refine .opened isOpen (sameOwner.trans isIdle) (samePending.trans unpended)
        (sameGrants.trans ungranted) (pinned.lend (.inl ⟨isIdle, ?_⟩) room ungranted) unreleased
      omega
  | collecting isCollecting | dropping isCollecting =>
      rw [isCollecting] at isOpen
      rcases isOpen with isOpen | isOpen <;> cases isOpen

theorem Standing.pool_step [DecidableEq T] (standing : s.Standing)
    (room : s.lender.inner.count + 2 < Shared.usizeRange)
    (step : s.poolStep config label = some s') : s'.Standing := by
  unfold poolStep at step
  split at step
  · rename_i admitted
    split at step
    · rename_i unlent
      obtain ⟨pool, stepped, rfl⟩ := Option.map_eq_some_iff.mp step
      have tenanted := standing.tenanted.unlent stepped (fun index => by simp [unlent]) s.closing
      refine ⟨standing.each, tenanted, standing.ledger.step stepped, ?_⟩
      cases standing.stands with
      | opened isOpen isIdle unpended ungranted pinned unreleased =>
          exact .opened isOpen isIdle unpended ungranted pinned unreleased
      | collecting isCollecting done pinned unreleased =>
          have other := admits_other admitted (by simp [isCollecting])
          refine .collecting isCollecting ?_ pinned unreleased
          rw [ThreadPool.calls_step stepped done other]
          exact done
      | dropping isDropping done gone leaves =>
          have other := admits_other admitted (by simp [isDropping])
          exact absurd stepped (ThreadPool.still (standing.tenanted.dead gone) done other)
    · rename_i holder isLent
      split at step
      · cases step
      · rename_i able
        obtain ⟨pool, stepped, rfl⟩ := Option.map_eq_some_iff.mp step
        have tenanted := standing.tenanted.lent standing.each stepped isLent able
        refine ⟨each_lend holder standing.each, tenanted, standing.ledger.step stepped, ?_⟩
        cases standing.stands with
        | opened isOpen => exact standing.stands.lent_opened holder isOpen room
        | collecting isCollecting done pinned unreleased =>
            -- the worker that spawns another is alive, and holds the value
            obtain ⟨index, worker, found, isLive⟩ := ThreadPool.lends_live isLent done
            obtain ⟨place, _, isHeld⟩ := standing.tenanted index worker found isLive
            have isAlive : 1 ≤ s.lender.alive := Shared.Lender.alive_of_found isHeld
            have ungranted : s.lender.grants = [] := by
              by_contra granted
              have isGone := (pinned.given granted).gone _ (List.mem_of_getElem? isHeld)
              cases isGone
            have other := admits_other admitted (by simp [isCollecting])
            refine .collecting isCollecting ?_
              (pinned.lend (.inr isAlive) room ungranted) unreleased
            rw [ThreadPool.calls_step stepped done other]
            exact done
        | dropping isDropping done gone leaves =>
            have other := admits_other admitted (by simp [isDropping])
            exact absurd stepped (ThreadPool.still (standing.tenanted.dead gone) done other)
  · cases step

/-- The owner moves, and the handles stay as they are. -/
theorem Standing.owned [DecidableEq T] {lender : Shared.Lender W} {closing : Closing}
    {released : List T} (standing : s.Standing) (same : lender.handles = s.lender.handles)
    (stands : ({ s with lender, closing, released } : LentPool T W).Stands) :
    ({ s with lender, closing, released } : LentPool T W).Standing where
  each := by
    rw [same]
    exact standing.each
  tenanted := by
    apply standing.tenanted.kept
    intro place isHeld _
    rw [same]
    exact isHeld
  ledger := standing.ledger
  stands := stands

theorem Standing.owner_step [DecidableEq T] {spurious : Bool} (standing : s.Standing)
    (room : s.lender.uncrowded (.owner spurious) = true)
    (step : LentPool.step config s (.owner spurious) = some s') : s'.Standing := by
  have attended (attends : s.lender.owner.Attends)
      (step : LentPool.step config s (.owner spurious) = some s') :
      ∃ lender, s.lender.ownerStep spurious = some lender ∧ s' = { s with lender } := by
    simp only [LentPool.step] at step
    split at step
    · rename_i isOwner
      rw [isOwner] at attends
      exact attends.elim
    · obtain ⟨lender, stepped, rfl⟩ := Option.map_eq_some_iff.mp step
      exact ⟨lender, stepped, rfl⟩
  cases standing.stands with
  | opened _ isIdle _ _ pinned =>
      obtain ⟨lender, stepped, _⟩ := attended pinned.attends step
      simp [Shared.Lender.ownerStep, isIdle] at stepped
  | collecting isCollecting done pinned unreleased =>
      obtain ⟨lender, stepped, rfl⟩ := attended pinned.attends step
      have pinned' := pinned.owner_step room stepped
      obtain ⟨_, same, _⟩ := Shared.Lender.owner_hands pinned.attends stepped
      exact standing.owned same (.collecting isCollecting done pinned' unreleased)
  | dropping isDropping done gone leaves =>
      cases leaves with
      | begun isOwner frees unreleased =>
          have stepped : s.lenderStep (.owner spurious) = some s' := by
            simpa only [LentPool.step, isOwner] using step
          simp only [lenderStep, Shared.Lender.step, Shared.Lender.ownerStep, isOwner,
            Option.map_some, Option.some.injEq] at stepped
          obtain rfl := stepped
          refine standing.owned rfl (.dropping isDropping done gone ?_)
          by_cases isThree : s.lender.inner.count = 3
          · exact .freeing (if_pos isThree) unreleased
          · -- the count wraps, and the inner state stays with its empty queue
            have isEmpty := frees.resolve_left isThree
            refine .gone (if_neg isThree) ?_
            rw [unreleased]
            exact isEmpty.symm
      | freeing isOwner unreleased =>
          have stepped : s.free.lenderStep (.owner spurious) = some s' := by
            simpa only [LentPool.step, isOwner] using step
          simp only [lenderStep, LentPool.free, Shared.Lender.step, Shared.Lender.ownerStep,
            isOwner, Option.map_some, Option.some.injEq] at stepped
          obtain rfl := stepped
          refine standing.owned rfl (.dropping isDropping done gone (.gone rfl ?_))
          rw [unreleased]
          rfl
      | gone isOwner =>
          simp [LentPool.step, lenderStep, Shared.Lender.step, Shared.Lender.ownerStep,
            isOwner] at step

/-- A handle moves that no live worker holds. -/
theorem Standing.handled [DecidableEq T] {lender : Shared.Lender W} {place : Nat}
    {source target : Shared.Handle} (standing : s.Standing)
    (found : s.lender.handles[place]? = some source)
    (unheld : source = .held → s.spent place = true)
    (same : lender.handles = s.lender.handles.set place target)
    (stands : ({ s with lender } : LentPool T W).Stands) :
    ({ s with lender } : LentPool T W).Standing where
  each := by
    rw [same, List.length_set]
    exact standing.each
  tenanted := by
    apply standing.tenanted.kept _ s.closing s.released
    rintro other isHeld ⟨index, worker, isHolder, isWorker, isLive⟩
    by_cases isOwn : place = other
    · subst isOwn
      rw [found] at isHeld
      have spent := unheld (Option.some.inj isHeld)
      simp [LentPool.spent, isHolder, isWorker, isLive] at spent
    · rw [same, List.getElem?_set_ne isOwn]
      exact isHeld
  ledger := standing.ledger
  stands := stands

/-- The `Lender` without a change to its owner. -/
theorem Stands.handled {lender : Shared.Lender W} {label : Shared.Label W} (stands : s.Stands)
    (isStep : Shared.Lender.step s.lender label = some lender)
    (called : s.lender.scopedCall label = true) (room : s.lender.uncrowded label = true)
    (sameOwner : lender.owner = s.lender.owner) (samePending : lender.pending = s.lender.pending)
    (sameGrants : lender.grants = s.lender.grants)
    (some : ∃ handle ∈ s.lender.handles, handle ≠ .gone) :
    ({ s with lender } : LentPool T W).Stands := by
  cases stands with
  | opened isOpen isIdle unpended ungranted pinned unreleased =>
      exact .opened isOpen (sameOwner.trans isIdle) (samePending.trans unpended)
        (sameGrants.trans ungranted) (pinned.step called room (pinned.shared isStep)) unreleased
  | collecting isCollecting done pinned unreleased =>
      exact .collecting isCollecting done
        (pinned.step called room (pinned.shared isStep)) unreleased
  | dropping _ _ gone =>
      obtain ⟨handle, isHandle, other⟩ := some
      exact absurd (gone handle isHandle) other

/-- No handle is told to free the inner state. -/
theorem Stands.unburdened (stands : s.Stands) : .freeing ∉ s.lender.handles := by
  intro isHandle
  cases stands with
  | opened _ _ _ _ pinned | collecting _ _ pinned => exact pinned.unburdened isHandle
  | dropping _ _ gone =>
      have isGone := gone _ isHandle
      cases isGone

theorem Standing.release_step [DecidableEq T] {place : Nat} (standing : s.Standing)
    (spent : s.spent place = true) (step : s.lenderStep (.release place) = some s') :
    s'.Standing := by
  obtain ⟨lender, stepped, rfl⟩ := Option.map_eq_some_iff.mp step
  have isStep := stepped
  simp only [Shared.Lender.step] at stepped
  split at stepped
  · rename_i found
    obtain rfl := Option.some.inj stepped
    refine standing.handled found (fun _ => spent) rfl
      (standing.stands.handled isStep rfl rfl rfl rfl rfl ⟨_, List.mem_of_getElem? found, ?_⟩)
    intro isGone
    cases isGone
  · cases stepped

theorem Standing.handle_step [DecidableEq T] {place : Nat} (standing : s.Standing)
    (step : LentPool.step config s (.handle place) = some s') : s'.Standing := by
  simp only [LentPool.step] at step
  split at step
  · rename_i isFreeing
    exact absurd (List.mem_of_getElem? isFreeing) standing.stands.unburdened
  · obtain ⟨lender, stepped, rfl⟩ := Option.map_eq_some_iff.mp step
    have isStep : s.lender.handleStep place = some lender := stepped
    have moves : ∃ (source : Shared.DropPc) (target : Shared.Handle) (inner : Shared.Inner W),
        s.lender.handles[place]? = some (.dropping source) ∧
          lender = { s.lender with inner, handles := s.lender.handles.set place target } := by
      have drops := Shared.Lender.drops_of_handleStep isStep
      cases drops with
      | last found | announce found | leave found | wake found | finish found | retry found =>
          exact ⟨_, _, _, found, rfl⟩
      | free found => exact absurd (List.mem_of_getElem? found) standing.stands.unburdened
    obtain ⟨source, target, inner, found, rfl⟩ := moves
    refine standing.handled found (fun isHeld => by cases isHeld) rfl
      (standing.stands.handled stepped rfl rfl rfl rfl rfl ⟨_, List.mem_of_getElem? found, ?_⟩)
    intro isGone
    cases isGone

theorem Standing.step [DecidableEq T] {label : LentLabel T W} (standing : s.Standing)
    (frees : s.frees label = true) (step : LentPool.step config s label = some s') :
    s'.Standing := by
  cases label with
  | pool label => exact standing.pool_step (of_decide_eq_true frees) step
  | owner spurious => exact standing.owner_step frees step
  | handle place => exact standing.handle_step step
  | release place =>
      simp only [LentPool.step] at step
      split at step
      · rename_i spent
        exact standing.release_step spent step
      · cases step
  | borrow =>
      simp only [LentPool.step] at step
      split at step
      · rename_i isOpen
        obtain rfl := Option.some.inj step
        exact ⟨each_lend none standing.each, standing.tenanted.lend none, standing.ledger,
          standing.stands.lent_opened none (.inl isOpen) (of_decide_eq_true frees)⟩
      · cases step
  | startDrain shutdown =>
      simp only [LentPool.step] at step
      split at step
      · rename_i begins
        obtain rfl := Option.some.inj step
        have stepped : ThreadPool.step config s.pool (.startDrain shutdown) =
            some (s.pool.startDrain shutdown) := rfl
        refine ⟨standing.each, standing.tenanted.unlent stepped
          (fun _ => by simp [ThreadPool.lends]) _,
          standing.ledger.step stepped, ?_⟩
        cases standing.stands with
        | opened _ isIdle unpended ungranted pinned unreleased =>
            exact .opened (.inr rfl) isIdle unpended ungranted pinned unreleased
        | collecting isClosing | dropping isClosing =>
            rw [isClosing] at begins
            cases begins.1
      · cases step
  | collect =>
      simp only [LentPool.step] at step
      split at step
      · rename_i begins
        obtain ⟨lender, stepped, rfl⟩ := Option.map_eq_some_iff.mp step
        cases standing.stands with
        | opened _ isIdle unpended ungranted pinned unreleased =>
            have called : s.lender.scopedCall .tryCollect = true := decide_eq_true ungranted
            have pinned' := pinned.step called rfl (pinned.shared stepped)
            simp only [Shared.Lender.step, isIdle, Shared.Lender.call] at stepped
            obtain rfl := Option.some.inj stepped
            exact standing.owned rfl
              (.collecting rfl (List.all_eq_true.mp begins.2) pinned' unreleased)
        | collecting isClosing | dropping isClosing =>
            rw [isClosing] at begins
            cases begins.1
      · cases step
  | poll waker =>
      simp only [LentPool.step] at step
      split at step
      · rename_i polls
        obtain ⟨lender, stepped, rfl⟩ := Option.map_eq_some_iff.mp step
        cases standing.stands with
        | collecting isCollecting done pinned unreleased =>
            have called : s.lender.scopedCall (.poll waker) = true := decide_eq_true polls.2
            have pinned' := pinned.step called rfl (pinned.shared stepped)
            simp only [Shared.Lender.step] at stepped
            split at stepped
            · obtain rfl := Option.some.inj stepped
              exact standing.owned rfl (.collecting isCollecting done pinned' unreleased)
            · cases stepped
        | opened isOpen =>
            rw [polls.1] at isOpen
            rcases isOpen with isOpen | isOpen <;> cases isOpen
        | dropping isClosing =>
            rw [isClosing] at polls
            cases polls.1
      · cases step
  | drop =>
      simp only [LentPool.step] at step
      split at step
      · rename_i drops
        obtain ⟨lender, stepped, rfl⟩ := Option.map_eq_some_iff.mp step
        cases standing.stands with
        | collecting isCollecting done pinned unreleased =>
            obtain ⟨isIdle, unpended, _, gone⟩ := pinned.given drops.2
            simp only [Shared.Lender.step, isIdle, Shared.Lender.call, unpended] at stepped
            obtain rfl := Option.some.inj stepped
            refine standing.owned rfl (.dropping rfl done gone (.begun rfl ?_ unreleased))
            simpa [LentPool.frees] using frees
        | opened isOpen =>
            rw [drops.1] at isOpen
            rcases isOpen with isOpen | isOpen <;> cases isOpen
        | dropping isClosing =>
            rw [isClosing] at drops
            cases drops.1
      · cases step

/-! ## Runs -/

/-- A lender with `count` handles. -/
structure Lent (count : Nat) (lender : Shared.Lender W) : Prop where
  pinned : lender.Pinned
  isIdle : lender.owner = .idle
  unpended : lender.pending = false
  ungranted : lender.grants = []
  balance : lender.inner.count = 3 + 2 * count
  handles : lender.handles = List.replicate count .held

/-- The borrows of `ThreadPool::new`. -/
theorem lent_iterate (count : Nat)
    (sound : (Shared.Lender.lend^[count] (Shared.Lender.init : Shared.Lender W)).inner.panicked =
      false) : Lent count (Shared.Lender.lend^[count] (Shared.Lender.init : Shared.Lender W)) := by
  induction count with
  | zero => exact ⟨Shared.Lender.Pinned.init, rfl, rfl, rfl, rfl, rfl⟩
  | succ count ih =>
      rw [Function.iterate_succ_apply'] at sound ⊢
      generalize Shared.Lender.lend^[count] (Shared.Lender.init : Shared.Lender W) = lender
        at ih sound ⊢
      by_cases crowded : lender.inner.count > Shared.maxRefcount
      · simp only [Shared.Lender.lend, Shared.incCountRef, if_pos crowded] at sound
        cases sound
      · have lent : lender.lend = { lender with
            inner := lender.inner.fetchAdd 2, handles := lender.handles ++ [.held] } := by
          simp only [Shared.Lender.lend, Shared.incCountRef, if_neg crowded]
        have earlier : lender.inner.panicked = false := by
          rw [lent] at sound
          exact sound
        obtain ⟨pinned, isIdle, unpended, ungranted, balance, handles⟩ := ih earlier
        have room : lender.inner.count + 2 < Shared.usizeRange := by
          have fits := Shared.maxRefcount_add_lt
          omega
        have added : (lender.inner.fetchAdd 2).count = lender.inner.count + 2 :=
          Shared.wrappingAdd_of_lt room
        have more := pinned.lend (.inl ⟨isIdle, by omega⟩) room ungranted
        rw [lent] at more ⊢
        refine ⟨more, isIdle, unpended, ungranted, ?_, ?_⟩
        · show (lender.inner.fetchAdd 2).count = 3 + 2 * (count + 1)
          omega
        · show lender.handles ++ [.held] = List.replicate (count + 1) .held
          rw [handles, List.replicate_succ']

theorem Standing.new [DecidableEq T] {config : Config} {s : LentPool T W}
    (isNew : LentPool.new config = some s) : s.Standing := by
  simp only [LentPool.new] at isNew
  split at isNew
  · cases isNew
  · rename_i sound
    obtain rfl := Option.some.inj isNew
    obtain ⟨pinned, isIdle, unpended, ungranted, _, handles⟩ :=
      lent_iterate (W := W) config.minCount (Bool.eq_false_of_not_eq_true sound)
    refine ⟨?_, ?_, ThreadPool.Ledger.new config, ?_⟩
    · simp [handles]
    · intro index worker found _
      obtain ⟨inside, _⟩ := List.getElem?_eq_some_iff.mp found
      have inside : index < config.minCount := by
        simpa [ThreadPool.new] using inside
      refine ⟨index, ?_, ?_⟩
      · simp [inside]
      · simp [handles, inside]
    · exact .opened (.inl rfl) isIdle unpended ungranted pinned rfl

/-- Once every worker has exited or failed, the tasks not executed are those of
failed workers and those in the queue. -/
theorem Standing.resolved [DecidableEq T] (standing : s.Standing) : s.Resolved := by
  intro isGone
  cases standing.stands with
  | opened _ isIdle =>
      rw [isIdle] at isGone
      cases isGone
  | collecting _ _ pinned =>
      have attends := pinned.attends
      rw [isGone] at attends
      exact attends.elim
  | dropping _ _ gone leaves =>
      cases leaves with
      | begun isOwner | freeing isOwner =>
          rw [isOwner] at isGone
          cases isGone
      | gone _ released =>
          have dead := standing.tenanted.dead gone
          have unwound : ∀ task, (s.pool.workers.flatMap Worker.unwound).count task =
              ThreadPool.heldCount task s.pool.workers := by
            intro task
            generalize s.pool.workers = workers at dead ⊢
            induction workers with
            | nil => rfl
            | cons worker workers ih =>
                have same : worker.unwound = worker.held := by
                  have isDead := dead worker List.mem_cons_self
                  cases worker <;> first | rfl | cases isDead
                have rest := ih fun other isOther => dead other (List.mem_cons_of_mem _ isOther)
                rw [List.flatMap_cons, List.count_append, rest, same]
                rfl
          rw [List.perm_iff_count]
          intro task
          have balance := standing.ledger task
          rw [dropped, released, List.count_append, List.count_append, unwound]
          omega

end LentPool

end Suspend.Pool
