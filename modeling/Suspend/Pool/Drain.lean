import Suspend.Pool.Wakeup

/-!
# Draining the pool

A task is in the queue, with a worker or executed, and never twice.  A drain
runs the queue empty as long as a thread is left for it: workers leave a
draining pool at an empty queue or after a panic, and a panic spawns no other.
-/

namespace Suspend.Pool

open Suspend.Transition

universe u

variable {T : Type u}

/-- The task a worker has taken. -/
def Worker.held : Worker T → List T
  | announcing task | spawning task | running task | failed task => [task]
  | _ => []

theorem Worker.held_wake (worker : Worker T) : worker.wake.held = worker.held := by
  cases worker <;> rfl

namespace ThreadPool

/-- When a drain has begun and all workers have exited, every accepted task has
been executed once. -/
def Drained (s : ThreadPool T) : Prop :=
  s.state.phase = .drain → s.live + s.spawns = 0 →
    s.state.queue = [] ∧ s.executed.Perm s.accepted

/-- Tasks stay in the queue with no thread to drain it: the drain begins when the
last worker has left them, or the last worker's own task panics during it. -/
def neglects (config : Config) : ThreadPool T → Label T → Bool
  | s, .startDrain shutdown =>
      !shutdown && s.state.queue.length ≠ 0 && s.state.threadCount = 0
  | s, label => s.state.phase = .drain && s.abandons config label

/-! ## The ledger of the tasks -/

section Ledger

variable [DecidableEq T]

/-- How often a task is with a worker. -/
def heldCount (task : T) (workers : List (Worker T)) : Nat :=
  tally (fun worker => worker.held.count task) workers

/-- Every task accepted is in the queue, with a worker or executed. -/
def Ledger (s : ThreadPool T) : Prop :=
  ∀ task, s.executed.count task + heldCount task s.workers + s.state.queue.count task =
    s.accepted.count task

variable {config : Config} {s s' : ThreadPool T} {label : Label T}

theorem ledger_of_turns {state state' : State T} {worker : Worker T} (task : T)
    (turns : State.Turns config state state' worker) :
    worker.held.count task + state'.queue.count task = state.queue.count task := by
  cases turns with
  | spawns _ _ _ isQueue | runs _ _ _ isQueue =>
      rw [isQueue]
      simp [Worker.held, State.idleDown, State.threadUp, List.count_cons]
      omega
  | shut | drained | waits => simp [Worker.held, State.leave, State.idleDown, State.threadDown]

theorem ledger_of_locks {panics : Bool} {state state' : State T}
    {worker worker' : Worker T} (task : T)
    (locks : State.Locks config panics state worker state' worker') :
    worker.ended.count task + worker'.held.count task + state'.queue.count task =
      worker.held.count task + state.queue.count task := by
  cases locks with
  | starts turns | wakes turns =>
      have turned := ledger_of_turns task turns
      simpa [Worker.ended, Worker.held] using turned
  | ends turns =>
      rename_i ran
      have turned := ledger_of_turns task turns
      have turned : worker'.held.count task + state'.queue.count task = state.queue.count task :=
        turned
      show [ran].count task + worker'.held.count task + state'.queue.count task =
        [ran].count task + state.queue.count task
      omega
  | timesOut | unwinds =>
      simp [Worker.ended, Worker.held, State.leave, State.idleDown, State.threadDown]

theorem heldCount_wake (task : T) (workers : List (Worker T)) :
    heldCount task (workers.map Worker.wake) = heldCount task workers := by
  unfold heldCount
  rw [tally_map]
  congr 1
  funext worker
  rw [Function.comp, Worker.held_wake]

theorem Ledger.step (ledger : s.Ledger) (step : ThreadPool.step config s label = some s') :
    s'.Ledger := by
  intro task
  have balance := ledger task
  have moved {index : Nat} {worker : Worker T} (found : s.workers[index]? = some worker)
      (target : Worker T) : heldCount task (s.workers.set index target) + worker.held.count task =
        heldCount task s.workers + target.held.count task :=
    tally_moved (fun worker : Worker T => worker.held.count task) found target
  have kept {index : Nat} {worker : Worker T} (found : s.workers[index]? = some worker)
      (target : Worker T) (same : target.held = worker.held) :
      heldCount task (s.workers.set index target) = heldCount task s.workers := by
    have more := moved found target
    rw [same] at more
    exact Nat.add_right_cancel more
  have started (workers : List (Worker T)) :
      heldCount task (workers ++ [.starting]) = heldCount task workers := by
    simp [heldCount, Worker.held]
  have steps := steps_of_step step
  cases steps with
  | runSpawns | runNotifies =>
      simp [State.threadUp]
      omega
  | drains | notifiesNone | fails => exact balance
  | announces | notifiesAll =>
      simp only [heldCount_wake]
      exact balance
  | notifiesOne _ waits =>
      simp only [kept waits (.woken false) rfl]
      exact balance
  | spawns =>
      simp only [started]
      exact balance
  | @locks index panics worker worker' state found locks =>
      have locked := ledger_of_locks task locks
      have same := moved found worker'
      simp only [List.count_append]
      omega
  | workerAnnounces found =>
      have same : heldCount task ((s.workers.map Worker.wake).set _ (.spawning _)) =
          heldCount task (s.workers.map Worker.wake) :=
        Nat.add_right_cancel
          (tally_moved (fun worker : Worker T => worker.held.count task) (found_wake found) _)
      simp only [same, heldCount_wake]
      exact balance
  | @workerSpawns index ran found =>
      simp only [started, kept found (.running ran) rfl]
      exact balance
  | @workerFails index ran found =>
      simp only [kept found (.failed ran) rfl]
      exact balance
  | @wakes index timedOut found =>
      simp only [kept found (.woken timedOut) rfl]
      exact balance

theorem Ledger.new (config : Config) : (ThreadPool.new config : ThreadPool T).Ledger := by
  intro task
  simp [ThreadPool.new, heldCount, Worker.held]

/-- When no worker is left, every task taken has been executed. -/
theorem Ledger.perm (ledger : s.Ledger) (succeeded : ∀ worker ∈ s.workers, worker = .exited)
    (isQueue : s.state.queue = []) : s.executed.Perm s.accepted := by
  rw [List.perm_iff_count]
  intro task
  have balance := ledger task
  have unheld : heldCount task s.workers = 0 := by
    by_contra some
    obtain ⟨worker, isWorker, held⟩ := exists_of_tally_pos (Nat.pos_of_ne_zero some)
    simp [succeeded worker isWorker, Worker.held] at held
  rw [isQueue, unheld] at balance
  simpa using balance

end Ledger

/-! ## Runs -/

variable {config : Config} {s s' : ThreadPool T} {label : Label T}

/-- A pool whose queue is drained once a drain has begun. -/
structure Draining [DecidableEq T] (s : ThreadPool T) : Prop where
  balanced : s.Balanced
  ledger : s.Ledger
  unfailed : ∀ worker ∈ s.workers, ∀ task, worker ≠ .failed task
  manned : s.state.phase = .drain → s.state.queue ≠ [] → 0 < s.state.threadCount

theorem Draining.new [DecidableEq T] (config : Config) :
    (ThreadPool.new config : ThreadPool T).Draining where
  balanced := Balanced.new config
  ledger := Ledger.new config
  unfailed := by
    intro worker isWorker task
    simp [List.eq_of_mem_replicate isWorker]
  manned _ isQueue := absurd rfl isQueue

theorem Draining.step [DecidableEq T] (draining : s.Draining)
    (succeeds : spawnsSucceed label = true)
    (heeded : neglects config s label = false)
    (step : ThreadPool.step config s label = some s') : s'.Draining where
  balanced := draining.balanced.step succeeds step
  ledger := draining.ledger.step step
  unfailed := by
    apply workers_step draining.unfailed _ _ _ step
    · intro worker _ unfailed
      exact unfailed
    · intro _ task
      simp
    · intro fails
      simp [succeeds] at fails
  manned isDrain isQueue := by
    by_cases begins : ∃ shutdown, label = .startDrain shutdown
    · obtain ⟨shutdown, rfl⟩ := begins
      obtain rfl := Option.some.inj step
      have isDrain : (if shutdown then Phase.shutdown else Phase.drain) = .drain := isDrain
      have isQueue : s.state.queue ≠ [] := isQueue
      cases shutdown with
      | true => cases isDrain
      | false =>
          simp [neglects] at heeded
          exact Nat.pos_of_ne_zero (heeded isQueue)
    · have samePhase : s'.state.phase = s.state.phase := by
        have steps := steps_of_step step
        cases steps with
        | locks _ locks => exact locks.samePhase
        | drains shutdown => exact absurd ⟨shutdown, rfl⟩ begins
        | runSpawns | runNotifies | notifiesOne | notifiesNone | announces | spawns | fails
        | notifiesAll | workerAnnounces | workerSpawns | workerFails | wakes => rfl
      rw [samePhase] at isDrain
      have faithful : abandons config s label = false := by
        cases label with
        | startDrain shutdown => exact absurd ⟨shutdown, rfl⟩ begins
        | run | call | lock | spawn | wake => simpa [neglects, isDrain] using heeded
      exact manned_step draining.balanced (by simp [isDrain])
        (draining.manned isDrain) faithful step
        isQueue

theorem Draining.drained [DecidableEq T] (draining : s.Draining) : s.Drained := by
  intro isDrain allExited
  have threads := draining.balanced.accounted.threads
  have isEmpty : s.state.queue = [] := by
    by_contra isQueue
    have isThread := draining.manned isDrain isQueue
    omega
  refine ⟨isEmpty, draining.ledger.perm ?_ isEmpty⟩
  intro worker isWorker
  have dead : worker.live.toNat ≤ s.live := le_tally (fun worker => worker.live.toNat) isWorker
  have unfailed := draining.unfailed worker isWorker
  cases worker <;> simp_all [Worker.live]

end ThreadPool

/-- While a drain leaves no task without a thread, it runs everything. -/
theorem thread_pool_drains {config : Config} {s : ThreadPool T}
    (reachable : ReachableUnder (ThreadPool.step config)
      (fun s label => (ThreadPool.spawnsSucceed label && !s.neglects config label) = true)
      (ThreadPool.new config) s) : s.Drained := by
  classical
  have draining : s.Draining := by
    apply reachable.invariant (ThreadPool.Draining.new config)
    intro state label result draining careful step
    rw [Bool.and_eq_true, Bool.not_eq_true'] at careful
    exact draining.step careful.1 careful.2 step
  exact draining.drained

/-- The only worker dies of its task, and the drain finds the next one without a
worker. -/
theorem thread_pool_leaves_tasks : ¬ ∀ (config : Config) (s : ThreadPool Nat),
    config.idleTimeout = none →
    ReachableUnder (ThreadPool.step config) (fun _ label => ThreadPool.spawnsSucceed label = true)
      (ThreadPool.new config) s → s.Drained := by
  intro always
  obtain ⟨s, ran, isDrain, none, isQueue⟩ : ∃ s ∈
      runFrom (guarded (ThreadPool.step { idleTimeout := none, minCount := 1, maxCount := some 1 })
          fun _ label => ThreadPool.spawnsSucceed label)
        (ThreadPool.new { idleTimeout := none, minCount := 1, maxCount := some 1 })
        [.run 7, .call 0 none false, .lock 0 false, .run 8, .call 1 none false, .startDrain false,
          .call 2 none false, .lock 0 true],
      s.state.phase = .drain ∧ s.live + s.spawns = 0 ∧ s.state.queue = [8] := by
    decide +kernel
  have drained := (always _ s rfl (reachableUnder_of_runFrom ran) isDrain none).1
  simp [isQueue] at drained

theorem thread_pool_drains_of_panic : ∃ s : ThreadPool Nat, s.state.phase = .drain ∧
    s.live + s.spawns = 0 ∧ s.accepted = [7, 8] ∧ s.Drained := by
  obtain ⟨s, ran, isDrain, none, accepted⟩ : ∃ s ∈
      runFrom (guarded (ThreadPool.step { idleTimeout := none, minCount := 2, maxCount := some 1 })
          fun s label => ThreadPool.spawnsSucceed label &&
            !s.neglects { idleTimeout := none, minCount := 2, maxCount := some 1 } label)
        (ThreadPool.new { idleTimeout := none, minCount := 2, maxCount := some 1 })
        [.run 7, .call 0 none false, .run 8, .call 1 none false, .lock 0 false, .startDrain false,
          .lock 0 true, .lock 1 false, .lock 1 false],
      s.state.phase = .drain ∧ s.live + s.spawns = 0 ∧ s.accepted = [7, 8] := by
    decide +kernel
  exact ⟨s, isDrain, none, accepted, thread_pool_drains (reachableUnder_of_runFrom ran)⟩

end Suspend.Pool
