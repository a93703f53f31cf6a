import Suspend.Pool.Accounting

/-!
# Queued tasks and the workers that are to run them

A push leaves its task to a thread that is counted, or spawns one.  So a queued
task has a thread as long as the last worker does not leave, and a worker that
is awake, or a call that is to wake one, as long as none leaves.
-/

namespace Suspend.Pool

open Suspend.Transition

universe u

variable {T : Type u}

namespace Worker

/-- The worker has not exited, and does not wait. -/
def awake : Worker T → Nat
  | waiting | exited | failed _ => 0
  | _ => 1

theorem awake_le_wake (worker : Worker T) : worker.awake ≤ worker.wake.awake := by
  cases worker <;> simp [awake, wake]

/-- A worker that has exited or waits is no thread that is awake. -/
theorem awake_of_threads {worker : Worker T} (isThread : 0 < worker.threads)
    (notWaiting : worker ≠ .waiting) : 0 < worker.awake := by
  cases worker <;> simp_all [threads, live, spawns, awake]

end Worker

/-- The call is to wake a worker or to spawn one. -/
def Call.serves : Call → Nat
  | notifyOne | announce | spawn => 1
  | _ => 0

theorem Call.threads_le_serves (call : Call) : call.threads ≤ call.serves := by
  cases call <;> simp [threads, serves]

namespace ThreadPool

/-! ## Conditions on a run -/

/-- The pool stays in its first phase. -/
def staysActive : Label T → Bool
  | .startDrain _ => false
  | _ => true

/-- The last worker leaves tasks in the queue: it has timed out before they were
pushed, or its own task has panicked. -/
def abandons (config : Config) (s : ThreadPool T) : Label T → Bool
  | .lock index panics =>
      s.state.queue.length ≠ 0 && s.state.threadCount = 1 &&
        match s.workers[index]? with
        | some (.woken timedOut) => timedOut && s.state.threadCount > config.minCount
        | some (.running _) => panics
        | _ => false
  | _ => false

/-! ## No task is stranded -/

/-- A queued task has a worker that has not exited. -/
def Unstranded (s : ThreadPool T) : Prop :=
  s.state.queue ≠ [] → 0 < s.live + s.spawns

variable {config : Config} {s s' : ThreadPool T} {label : Label T}

/-- While the pool does not shut down, the loop leaves no task without its
thread. -/
theorem manned_of_turns {state state' : State T} {worker : Worker T}
    (turns : State.Turns config state state' worker) (notShut : state.phase ≠ .shutdown)
    (manned : state.queue ≠ [] → 0 < state.threadCount) (isQueue : state'.queue ≠ []) :
    0 < state'.threadCount := by
  cases turns with
  | shut isShut => exact absurd isShut notShut
  | drained _ isEmpty => exact absurd isEmpty isQueue
  | spawns => exact Nat.succ_pos _
  | runs task rest _ isCons => exact manned (by simp [isCons])
  | waits => exact manned isQueue

/-- A queued task has a thread after a step if it had one before and the step
does not abandon it. -/
theorem manned_step (balanced : s.Balanced) (notShut : s.state.phase ≠ .shutdown)
    (manned : s.state.queue ≠ [] → 0 < s.state.threadCount)
    (faithful : abandons config s label = false)
    (step : ThreadPool.step config s label = some s') (isQueue : s'.state.queue ≠ []) :
    0 < s'.state.threadCount := by
  have steps := steps_of_step step
  cases steps with
  | runSpawns => exact Nat.succ_pos _
  | runNotifies _ served =>
      have bounded := balanced.accounted.bounded
      show 0 < s.state.threadCount
      omega
  | @locks index panics worker worker' state found locks =>
      -- a worker that leaves, with the queue as it was
      have remains (leaves : State T) (sameQueue : leaves.queue = s.state.queue)
          (less : leaves.threadCount = s.state.threadCount - 1)
          (kept : leaves.queue ≠ [] → s.state.threadCount ≠ 1) (queued : leaves.queue ≠ []) :
          0 < leaves.threadCount := by
        have isThread := manned (sameQueue ▸ queued)
        have more := kept queued
        omega
      cases locks with
      | starts turns => exact manned_of_turns turns notShut manned isQueue
      | wakes turns => exact manned_of_turns turns notShut manned isQueue
      | ends turns => exact manned_of_turns turns notShut manned isQueue
      | timesOut surplus =>
          refine remains _ rfl rfl (fun queued isLast => ?_) isQueue
          have queued : s.state.queue ≠ [] := queued
          simp [abandons, found, queued, isLast] at faithful
          omega
      | unwinds isPanic =>
          refine remains _ rfl rfl (fun queued isLast => ?_) isQueue
          have queued : s.state.queue ≠ [] := queued
          simp [abandons, found, queued, isLast, isPanic] at faithful
  | drains | notifiesOne | notifiesNone | announces | spawns | fails | notifiesAll
  | workerAnnounces | workerSpawns | workerFails | wakes => exact manned isQueue

/-- The phase of an active pool. -/
theorem active_step (isActive : s.state.phase = .active) (stays : staysActive label = true)
    (step : ThreadPool.step config s label = some s') : s'.state.phase = .active := by
  have steps := steps_of_step step
  cases steps with
  | locks _ locks => exact locks.samePhase.trans isActive
  | drains => cases stays
  | runSpawns | runNotifies | notifiesOne | notifiesNone | announces | spawns | fails | notifiesAll
  | workerAnnounces | workerSpawns | workerFails | wakes => exact isActive

/-- The counters of an active pool, and a thread for a queued task. -/
structure Manned (s : ThreadPool T) : Prop where
  balanced : s.Balanced
  isActive : s.state.phase = .active
  manned : s.state.queue ≠ [] → 0 < s.state.threadCount

theorem Manned.new (config : Config) : (ThreadPool.new config : ThreadPool T).Manned where
  balanced := Balanced.new config
  isActive := rfl
  manned isQueue := absurd rfl isQueue

theorem Manned.step (manned : s.Manned) (succeeds : spawnsSucceed label = true)
    (stays : staysActive label = true) (faithful : abandons config s label = false)
    (step : ThreadPool.step config s label = some s') : s'.Manned where
  balanced := manned.balanced.step succeeds step
  isActive := active_step manned.isActive stays step
  manned := by
    apply manned_step manned.balanced _ manned.manned faithful step
    simp [manned.isActive]

/-- A run in the first phase in which no task panics and every spawn succeeds. -/
def plain (label : Label T) : Bool :=
  spawnsSucceed label && staysActive label && noPanics label

end ThreadPool

/-- While the last worker does not leave with tasks in the queue, a queued task
has a worker. -/
theorem thread_pool_unstranded {config : Config} {s : ThreadPool T}
    (reachable : ReachableUnder (ThreadPool.step config)
      (fun s label => (ThreadPool.plain label && !s.abandons config label) = true)
      (ThreadPool.new config) s) : s.Unstranded := by
  have manned : s.Manned := by
    apply reachable.invariant (ThreadPool.Manned.new config)
    intro state label result manned careful step
    simp only [ThreadPool.plain, Bool.and_eq_true, Bool.not_eq_true'] at careful
    exact manned.step careful.1.1.1 careful.1.1.2 careful.2 step
  intro isQueue
  rw [← manned.balanced.accounted.threads]
  exact manned.manned isQueue

/-- The only worker times out, a task is pushed, and the worker leaves. -/
theorem thread_pool_strands : ¬ ∀ (config : Config) (s : ThreadPool Nat),
    ReachableUnder (ThreadPool.step config) (fun _ label => ThreadPool.plain label = true)
      (ThreadPool.new config) s → s.Unstranded := by
  intro always
  obtain ⟨s, ran, isQueue, none⟩ : ∃ s ∈
      runFrom (guarded (ThreadPool.step { minCount := 0, maxCount := some 1 })
          fun _ label => ThreadPool.plain label)
        (ThreadPool.new { minCount := 0, maxCount := some 1 })
        [.run 7, .call 0 none false, .call 0 none false, .lock 0 false, .lock 0 false,
          .wake 0 true, .run 8, .call 1 none false, .lock 0 false],
      s.state.queue = [8] ∧ s.live + s.spawns = 0 := by
    decide +kernel
  have unstranded := always _ s (reachableUnder_of_runFrom ran) (by simp [isQueue])
  omega

theorem thread_pool_unstranded_of_run : ∃ s : ThreadPool Nat, s.state.queue = [8] ∧
    s.Unstranded := by
  obtain ⟨s, ran, isQueue⟩ : ∃ s ∈
      runFrom (guarded (ThreadPool.step { minCount := 0, maxCount := some 1 })
          fun s label => ThreadPool.plain label &&
            !s.abandons { minCount := 0, maxCount := some 1 } label)
        (ThreadPool.new { minCount := 0, maxCount := some 1 })
        [.run 7, .call 0 none false, .call 0 none false, .lock 0 false, .run 8],
      s.state.queue = [8] := by
    decide +kernel
  exact ⟨s, isQueue, thread_pool_unstranded (reachableUnder_of_runFrom ran)⟩

/-! ## No wake-up is missed -/

namespace ThreadPool

/-- There are tasks, every worker that has not exited is blocked in its wait, none
is about to be spawned, and no call is on its way to its notification. -/
def Missed (s : ThreadPool T) : Prop :=
  s.state.queue ≠ [] ∧ (∀ worker ∈ s.workers, worker.live = true → worker = .waiting) ∧
    s.spawns = 0 ∧ .notifyOne ∉ s.calls

/-- What keeps the queue going: workers that are awake, and calls that are to
wake or to spawn one. -/
def stirring (s : ThreadPool T) : Nat :=
  tally Worker.awake s.workers + tally Call.serves s.calls

variable {config : Config} {s s' : ThreadPool T} {label : Label T}

/-- A pool without time-outs whose queue is served. -/
structure Served (s : ThreadPool T) : Prop where
  manned : s.Manned
  untimed : ∀ worker ∈ s.workers, worker ≠ .woken true
  served : s.state.queue ≠ [] → 0 < s.stirring

theorem Served.not_missed (served : s.Served) : ¬ s.Missed := by
  rintro ⟨isQueue, blocked, unspawned, unnotified⟩
  have stirs := served.served isQueue
  have asleep : tally Worker.awake s.workers = 0 := by
    by_contra some
    obtain ⟨worker, isWorker, isAwake⟩ := exists_of_tally_pos (Nat.pos_of_ne_zero some)
    have waits : worker.live = true → worker = .waiting := blocked worker isWorker
    cases worker <;> simp_all [Worker.awake, Worker.live]
  have unserved : tally Call.serves s.calls = 0 := by
    by_contra some
    obtain ⟨call, isCall, serves⟩ := exists_of_tally_pos (Nat.pos_of_ne_zero some)
    have spawning : call.threads ≤ tally Call.threads s.calls := le_tally _ isCall
    have none : tally Call.threads s.calls = 0 := by
      unfold ThreadPool.spawns at unspawned
      omega
    cases call <;> simp_all [Call.serves, Call.threads]
  unfold stirring at stirs
  omega

/-- Without a time-out and without a panic, a worker of an active pool does not
leave. -/
theorem stays_of_locks {state state' : State T} {worker worker' : Worker T}
    (locks : State.Locks config false state worker state' worker')
    (isActive : state.phase = .active)
    (untimed : worker ≠ .woken true) (isQueue : state'.queue ≠ []) : 0 < worker'.awake := by
  have turned {state : State T} (turns : State.Turns config state state' worker')
      (isActive : state.phase = .active) : 0 < worker'.awake := by
    cases turns with
    | shut isShut => simp [isActive] at isShut
    | drained isDrain => simp [isActive] at isDrain
    | spawns | runs => exact Nat.one_pos
    | waits _ isEmpty => exact absurd isEmpty isQueue
  cases locks with
  | starts turns => exact turned turns isActive
  | wakes turns => exact turned turns isActive
  | ends turns => exact turned turns isActive
  | timesOut => exact absurd rfl untimed
  | unwinds isPanic => cases isPanic

/-- A worker that is awake is enough. -/
theorem stirring_of_awake {worker : Worker T} (isWorker : worker ∈ s.workers)
    (isAwake : 0 < worker.awake) : 0 < s.stirring := by
  have more := le_tally Worker.awake isWorker
  unfold stirring
  omega

/-- So is a call that serves. -/
theorem stirring_of_serves {call : Call} (isCall : call ∈ s.calls) (serves : 0 < call.serves) :
    0 < s.stirring := by
  have more := le_tally Call.serves isCall
  unfold stirring
  omega

/-- With no worker waiting, a thread that is counted is awake or about to be
spawned. -/
theorem stirring_of_threads (isThread : 0 < tally Worker.threads s.workers +
    tally Call.threads s.calls)
    (unwaited : .waiting ∉ s.workers) : 0 < s.stirring := by
  by_cases calls : tally Call.threads s.calls = 0
  · have workers : 0 < tally Worker.threads s.workers := by omega
    obtain ⟨worker, isWorker, threads⟩ := exists_of_tally_pos workers
    have notWaiting : worker ≠ .waiting := by
      rintro rfl
      exact unwaited isWorker
    exact stirring_of_awake isWorker (Worker.awake_of_threads threads notWaiting)
  · have more := tally_mono Call.threads_le_serves s.calls
    unfold stirring
    omega

theorem served_step (served : s.Served) (careful : plain label = true)
    (step : ThreadPool.step config s label = some s')
    (isQueue : s'.state.queue ≠ []) : 0 < s'.stirring := by
  have steps := steps_of_step step
  simp only [plain, Bool.and_eq_true] at careful
  cases steps with
  | runSpawns | runNotifies =>
      apply stirring_of_serves (List.mem_append_right _ (List.mem_singleton_self _))
      exact Nat.one_pos
  | drains => cases careful.1.2
  | notifiesOne found waits =>
      exact stirring_of_awake (mem_moved waits _) Nat.one_pos
  | notifiesNone found unwaited =>
      have threads := served.manned.balanced.threads
      have isThread := served.manned.manned isQueue
      have calls' : tally Call.threads (s.calls.set _ .returned) = tally Call.threads s.calls :=
        tally_moved Call.threads found .returned
      refine stirring_of_threads ?_ fun waits => unwaited waits
      show 0 < tally Worker.threads s.workers + tally Call.threads (s.calls.set _ .returned)
      have isThread : 0 < s.state.threadCount := isThread
      omega
  | announces found => exact stirring_of_serves (mem_moved found _) Nat.one_pos
  | spawns found =>
      exact stirring_of_awake (List.mem_append_right _ (List.mem_singleton_self _)) Nat.one_pos
  | fails => cases careful.1.1
  | notifiesAll found =>
      have calls' : tally Call.serves (s.calls.set _ .returned) = tally Call.serves s.calls :=
        tally_moved Call.serves found .returned
      have more : tally Worker.awake s.workers ≤
          tally Worker.awake (s.workers.map Worker.wake) := by
        rw [tally_map]
        exact tally_mono Worker.awake_le_wake s.workers
      have stirs : 0 < tally Worker.awake s.workers + tally Call.serves s.calls :=
        served.served isQueue
      show 0 < tally Worker.awake (s.workers.map Worker.wake) +
        tally Call.serves (s.calls.set _ .returned)
      omega
  | @locks index panics worker worker' state found locks =>
      obtain rfl : panics = false := by simpa [noPanics] using careful.2
      have isAwake := stays_of_locks locks served.manned.isActive
        (served.untimed worker (List.mem_of_getElem? found)) isQueue
      exact stirring_of_awake (mem_moved found worker') isAwake
  | workerAnnounces found => exact stirring_of_awake (mem_moved (found_wake found) _) Nat.one_pos
  | workerSpawns found =>
      exact stirring_of_awake (List.mem_append_right _ (List.mem_singleton_self _)) Nat.one_pos
  | workerFails => cases careful.1.1
  | wakes found => exact stirring_of_awake (mem_moved found _) Nat.one_pos

/-- A property of all workers that only a time-out and a failed spawn can break is
kept without them. -/
theorem workers_step {property : Worker T → Prop} (all : ∀ worker ∈ s.workers, property worker)
    (other : ∀ worker, worker ≠ .woken true → (∀ task, worker ≠ .failed task) → property worker)
    (timedOut : config.idleTimeout.isSome = true → property (.woken true))
    (failed : spawnsSucceed label = false → ∀ task, property (.failed task))
    (step : ThreadPool.step config s label = some s') : ∀ worker ∈ s'.workers, property worker := by
  have waking : ∀ worker ∈ s.workers.map Worker.wake, property worker := by
    intro worker isWorker
    obtain ⟨earlier, isEarlier, rfl⟩ := List.mem_map.mp isWorker
    have kept := all earlier isEarlier
    cases earlier with
    | waiting => exact other _ (by simp [Worker.wake]) (by simp [Worker.wake])
    | starting | woken | announcing | spawning | running | exited | failed => exact kept
  have starting (workers : List (Worker T)) (all : ∀ worker ∈ workers, property worker) :
      ∀ worker ∈ workers ++ [.starting], property worker := by
    intro worker isWorker
    rcases List.mem_append.mp isWorker with earlier | isNew
    · exact all worker earlier
    · rw [List.mem_singleton.mp isNew]
      exact other _ (by simp) (by simp)
  have steps := steps_of_step step
  cases steps with
  | runSpawns | runNotifies | drains | notifiesNone | fails => exact all
  | notifiesOne => exact forall_moved all (other _ (by simp) (by simp))
  | announces | notifiesAll => exact waking
  | spawns => exact starting _ all
  | locks _ locks =>
      apply forall_moved all
      cases locks with
      | starts turns | wakes turns | ends turns =>
          cases turns <;> exact other _ (by simp) (by simp)
      | timesOut | unwinds => exact other _ (by simp) (by simp)
  | workerAnnounces => exact forall_moved waking (other _ (by simp) (by simp))
  | workerSpawns => exact starting _ (forall_moved all (other _ (by simp) (by simp)))
  | workerFails => exact forall_moved all (failed rfl _)
  | @wakes index isTimed _ timed =>
      apply forall_moved all
      cases isTimed with
      | false => exact other _ (by simp) (by simp)
      | true => exact timedOut (timed rfl)

theorem untimed_step (untimed : ∀ worker ∈ s.workers, worker ≠ .woken true)
    (noTimeout : config.idleTimeout = none) (step : ThreadPool.step config s label = some s') :
    ∀ worker ∈ s'.workers, worker ≠ .woken true := by
  apply workers_step untimed _ _ _ step
  · intro worker untimed _
    exact untimed
  · simp [noTimeout]
  · intro _ task
    simp

/-- Without time-outs and panics no worker abandons a task. -/
theorem faithful_of_untimed (untimed : ∀ worker ∈ s.workers, worker ≠ .woken true)
    (calm : noPanics label = true) : abandons config s label = false := by
  cases label with
  | lock index panics =>
      obtain rfl : panics = false := by simpa [noPanics] using calm
      simp only [abandons]
      split
      · rename_i timedOut found
        cases timedOut with
        | false => simp
        | true => exact absurd rfl (untimed _ (List.mem_of_getElem? found))
      · simp
      · simp
  | run | startDrain | call | spawn | wake => rfl

theorem Served.step (served : s.Served) (noTimeout : config.idleTimeout = none)
    (careful : plain label = true) (step : ThreadPool.step config s label = some s') :
    s'.Served := by
  have conditions := careful
  simp only [plain, Bool.and_eq_true] at conditions
  refine ⟨?_, untimed_step served.untimed noTimeout step, served_step served careful step⟩
  exact served.manned.step conditions.1.1 conditions.1.2
    (faithful_of_untimed served.untimed conditions.2) step

theorem Served.new (config : Config) : (ThreadPool.new config : ThreadPool T).Served where
  manned := Manned.new config
  untimed := by
    intro worker isWorker
    simp [List.eq_of_mem_replicate isWorker]
  served isQueue := absurd rfl isQueue

end ThreadPool

/-- In a pool without an idle time-out no wake-up is missed. -/
theorem thread_pool_wakes {config : Config} {s : ThreadPool T}
    (noTimeout : config.idleTimeout = none)
    (reachable : ReachableUnder (ThreadPool.step config)
      (fun _ label => ThreadPool.plain label = true) (ThreadPool.new config) s) : ¬ s.Missed := by
  have served : s.Served := by
    apply reachable.invariant (ThreadPool.Served.new config)
    intro state label result served careful step
    exact served.step noTimeout careful step
  exact served.not_missed

theorem thread_pool_wakes_of_run : ∃ s : ThreadPool Nat, s.state.queue = [8] ∧
    s.workers = [.woken false] ∧ ¬ s.Missed := by
  obtain ⟨s, ran, isQueue, workers⟩ : ∃ s ∈
      runFrom (guarded (ThreadPool.step { idleTimeout := none, minCount := 1, maxCount := some 1 })
          fun _ label => ThreadPool.plain label)
        (ThreadPool.new { idleTimeout := none, minCount := 1, maxCount := some 1 })
        [.lock 0 false, .run 8, .call 0 (some 0) false],
      s.state.queue = [8] ∧ s.workers = [.woken false] := by
    decide +kernel
  exact ⟨s, isQueue, workers, thread_pool_wakes rfl (reachableUnder_of_runFrom ran)⟩

end Suspend.Pool
