import Suspend.Pool.Core

/-!
# The counters of the pool

`thread_count` counts the workers and the threads that are about to be spawned,
and `idle_count` those of them that have no task.  Both are changed for a thread
when its spawning is decided, so that the sums below account for it in the
worker or the call that spawns it.
-/

namespace Suspend.Pool

open Suspend.Transition

universe u

variable {T : Type u}

/-! ## The sums -/

namespace Worker

/-- The worker has not exited. -/
def live : Worker T → Bool
  | exited | failed _ => false
  | _ => true

/-- The worker has no task. -/
def idle : Worker T → Bool
  | starting | waiting | woken _ => true
  | _ => false

/-- The worker is about to spawn another. -/
def spawns : Worker T → Bool
  | announcing _ | spawning _ => true
  | _ => false

/-- The threads that a worker accounts for. -/
def threads (worker : Worker T) : Nat :=
  worker.live.toNat + worker.spawns.toNat

/-- The idle threads that a worker accounts for. -/
def idles (worker : Worker T) : Nat :=
  worker.idle.toNat + worker.spawns.toNat

@[simp]
theorem threads_wake (worker : Worker T) : worker.wake.threads = worker.threads := by
  cases worker <;> rfl

@[simp]
theorem idles_wake (worker : Worker T) : worker.wake.idles = worker.idles := by
  cases worker <;> rfl

theorem idles_le_threads (worker : Worker T) : worker.idles ≤ worker.threads := by
  cases worker <;> simp [idles, threads, idle, live, spawns]

end Worker

/-- The thread that a call is about to spawn. -/
def Call.threads : Call → Nat
  | announce | spawn => 1
  | _ => 0

namespace ThreadPool

/-- How many workers have not exited. -/
def live (s : ThreadPool T) : Nat :=
  tally (fun worker => worker.live.toNat) s.workers

/-- How many workers have no task. -/
def idle (s : ThreadPool T) : Nat :=
  tally (fun worker => worker.idle.toNat) s.workers

/-- How many workers are about to be spawned. -/
def spawns (s : ThreadPool T) : Nat :=
  tally (fun worker => worker.spawns.toNat) s.workers + tally Call.threads s.calls

/-- The counters count the workers, spawned or about to be. -/
structure Accounted (s : ThreadPool T) : Prop where
  threads : s.state.threadCount = s.live + s.spawns
  idles : s.state.idleCount = s.idle + s.spawns
  bounded : s.state.idleCount ≤ s.state.threadCount
  sound : s.state.underflowed = false

/-- Every thread that is to be spawned is. -/
def spawnsSucceed : Label T → Bool
  | .call _ _ fails | .spawn _ fails => !fails
  | _ => true

/-- The counters as sums over the workers and the calls. -/
structure Balanced (s : ThreadPool T) : Prop where
  threads : s.state.threadCount =
    tally Worker.threads s.workers + tally Call.threads s.calls
  idles : s.state.idleCount =
    tally Worker.idles s.workers + tally Call.threads s.calls
  sound : s.state.underflowed = false

/-- The counters are beyond the sums by as much. -/
structure Exceeds (threads idles : Nat) (s : ThreadPool T) : Prop where
  threads : s.state.threadCount =
    tally Worker.threads s.workers + tally Call.threads s.calls + threads
  idles : s.state.idleCount =
    tally Worker.idles s.workers + tally Call.threads s.calls + idles
  sound : s.state.underflowed = false

theorem Exceeds.threadCount {threads idles : Nat} {s : ThreadPool T}
    (exceeds : s.Exceeds threads idles) : s.state.threadCount = s.live + s.spawns + threads := by
  have split : tally Worker.threads s.workers =
      tally (fun worker => worker.live.toNat) s.workers +
        tally (fun worker => worker.spawns.toNat) s.workers := tally_add _ _ _
  rw [exceeds.threads, live, spawns]
  omega

theorem Exceeds.idleCount {threads idles : Nat} {s : ThreadPool T}
    (exceeds : s.Exceeds threads idles) : s.state.idleCount = s.idle + s.spawns + idles := by
  have split : tally Worker.idles s.workers =
      tally (fun worker => worker.idle.toNat) s.workers +
        tally (fun worker => worker.spawns.toNat) s.workers := tally_add _ _ _
  rw [exceeds.idles, idle, spawns]
  omega

theorem Balanced.exceeds {s : ThreadPool T} (balanced : s.Balanced) : s.Exceeds 0 0 :=
  ⟨balanced.threads, balanced.idles, balanced.sound⟩

theorem Balanced.accounted {s : ThreadPool T} (balanced : s.Balanced) : s.Accounted where
  threads := balanced.exceeds.threadCount
  idles := balanced.exceeds.idleCount
  bounded := by
    rw [balanced.threads, balanced.idles]
    have fewer : tally Worker.idles s.workers ≤ tally Worker.threads s.workers :=
      tally_mono Worker.idles_le_threads _
    omega
  sound := balanced.sound

end ThreadPool

/-! ## Critical sections -/

namespace State

variable {config : Config} {s s' : State T} {worker worker' : Worker T}

theorem leave_counts (isIdle : 1 ≤ s.idleCount) (isThread : 1 ≤ s.threadCount) :
    s.leave.threadCount + 1 = s.threadCount ∧ s.leave.idleCount + 1 = s.idleCount ∧
      s.leave.underflowed = s.underflowed := by
  have notIdle : s.idleCount ≠ 0 := by omega
  have notThread : s.threadCount ≠ 0 := by omega
  refine ⟨?_, ?_, ?_⟩
  · show s.threadCount - 1 + 1 = s.threadCount
    omega
  · show s.idleCount - 1 + 1 = s.idleCount
    omega
  · simp [leave, idleDown, threadDown, notIdle, notThread]

/-- The loop of a worker that has no task changes the counters by what its
worker accounts for. -/
theorem Turns.counts (turns : Turns config s s' worker') (isIdle : 1 ≤ s.idleCount)
    (isThread : 1 ≤ s.threadCount) :
    s'.threadCount + 1 = s.threadCount + worker'.threads ∧
      s'.idleCount + 1 = s.idleCount + worker'.idles ∧ s'.underflowed = s.underflowed := by
  have notIdle : s.idleCount ≠ 0 := by omega
  cases turns with
  | shut | drained => exact leave_counts isIdle isThread
  | spawns task rest =>
      refine ⟨rfl, ?_, ?_⟩
      · show s.idleCount - 1 + 1 + 1 = s.idleCount + 1
        omega
      · simp [threadUp, idleDown, notIdle]
  | runs task rest =>
      refine ⟨rfl, ?_, ?_⟩
      · show s.idleCount - 1 + 1 = s.idleCount
        omega
      · simp [idleDown, notIdle]
  | waits => exact ⟨rfl, rfl, rfl⟩

/-- So does every critical section of a worker. -/
theorem Locks.counts {panics : Bool} (locks : Locks config panics s worker s' worker')
    (isThread : worker.threads ≤ s.threadCount) (isIdle : worker.idles ≤ s.idleCount) :
    s'.threadCount + worker.threads = s.threadCount + worker'.threads ∧
      s'.idleCount + worker.idles = s.idleCount + worker'.idles ∧
      s'.underflowed = s.underflowed := by
  cases locks with
  | starts turns => exact turns.counts isIdle isThread
  | wakes turns => exact turns.counts isIdle isThread
  | timesOut => exact leave_counts isIdle isThread
  | ends turns =>
      obtain ⟨threads, idles, sound⟩ := turns.counts (Nat.le_add_left 1 _) isThread
      exact ⟨threads, Nat.add_right_cancel (idles.trans (Nat.add_right_comm _ _ _)), sound⟩
  | unwinds =>
      obtain ⟨threads, idles, sound⟩ := leave_counts
        (s := { s with idleCount := s.idleCount + 1, panicCount := s.panicCount + 1 })
        (Nat.le_add_left 1 _) isThread
      exact ⟨threads, Nat.add_right_cancel idles, sound⟩

end State

/-! ## Runs -/

namespace ThreadPool

variable {config : Config} {s s' : ThreadPool T} {label : Label T}

theorem Balanced.new (config : Config) : (ThreadPool.new config : ThreadPool T).Balanced where
  threads := by simp [ThreadPool.new, Worker.threads, Worker.live, Worker.spawns]
  idles := by simp [ThreadPool.new, Worker.idles, Worker.idle, Worker.spawns]
  sound := rfl

/-- Workers that wake up count as before. -/
theorem tally_wake (workers : List (Worker T)) :
    tally Worker.threads (workers.map Worker.wake) = tally Worker.threads workers ∧
      tally Worker.idles (workers.map Worker.wake) = tally Worker.idles workers := by
  constructor
  · rw [tally_map]
    exact congrArg (tally · workers) (funext Worker.threads_wake)
  · rw [tally_map]
    exact congrArg (tally · workers) (funext Worker.idles_wake)

/-- A worker that wakes up is the same for the counters. -/
theorem found_wake {index : Nat} {worker : Worker T} {workers : List (Worker T)}
    (found : workers[index]? = some worker) :
    (workers.map Worker.wake)[index]? = some worker.wake := by
  rw [List.getElem?_map, found]
  rfl

/-- A spawn that fails: the threads and the idle threads that a step leaves
counted with no worker behind them.  A call leaves the thread that it was to
spawn, and a worker itself as well. -/
def strands : ThreadPool T → Label T → Nat × Nat
  | s, .call index _ true => if s.calls[index]? matches some .spawn then (1, 1) else (0, 0)
  | s, .spawn index true => if s.workers[index]? matches some (.spawning _) then (2, 1) else (0, 0)
  | _, _ => (0, 0)

theorem strands_of_succeeds (s : ThreadPool T) (succeeds : spawnsSucceed label = true) :
    strands s label = (0, 0) := by
  cases label with
  | call index target fails | spawn index fails =>
      obtain rfl : fails = false := by simpa [spawnsSucceed] using succeeds
      rfl
  | run | startDrain | lock | wake => rfl

theorem Exceeds.step {threads idles : Nat} (exceeds : s.Exceeds threads idles)
    (step : ThreadPool.step config s label = some s') :
    s'.Exceeds (threads + (strands s label).1) (idles + (strands s label).2) := by
  obtain ⟨isThreads, isIdles, sound⟩ := exceeds
  have steps := steps_of_step step
  cases steps with
  | runSpawns task | runNotifies task | drains shutdown =>
      constructor <;>
        simp [State.threadUp, startDrain, isThreads, isIdles, sound, Call.threads, strands] <;>
        omega
  | @notifiesOne index target fails found waits =>
      have threadsMoved := tally_moved Worker.threads waits (.woken false)
      have idlesMoved := tally_moved Worker.idles waits (.woken false)
      have callsMoved := tally_moved Call.threads found .returned
      have notSpawn : strands s (.call index (some target) fails) = (0, 0) := by
        cases fails <;> simp [strands, found]
      simp [Worker.threads, Worker.idles, Worker.live, Worker.idle, Worker.spawns, Call.threads]
        at threadsMoved idlesMoved callsMoved
      constructor <;> simp [isThreads, isIdles, sound, notSpawn] <;> omega
  | @notifiesNone index fails found =>
      have callsMoved := tally_moved Call.threads found .returned
      have notSpawn : strands s (.call index none fails) = (0, 0) := by
        cases fails <;> simp [strands, found]
      simp [Call.threads] at callsMoved
      constructor <;> simp [isThreads, isIdles, sound, notSpawn, callsMoved]
  | @announces index target fails found =>
      obtain ⟨threadsWoken, idlesWoken⟩ := tally_wake s.workers
      have callsMoved := tally_moved Call.threads found .spawn
      have notSpawn : strands s (.call index target fails) = (0, 0) := by
        cases fails <;> simp [strands, found]
      simp [Call.threads] at callsMoved
      constructor <;>
        simp [isThreads, isIdles, sound, notSpawn, threadsWoken, idlesWoken, callsMoved]
  | spawns found =>
      have callsMoved := tally_moved Call.threads found .returned
      simp [Call.threads] at callsMoved
      constructor <;>
        simp [isThreads, isIdles, sound, strands, Worker.threads, Worker.idles, Worker.live,
          Worker.idle, Worker.spawns] <;>
        omega
  | fails found =>
      have callsMoved := tally_moved Call.threads found .failed
      simp [Call.threads] at callsMoved
      constructor <;> simp [isThreads, isIdles, sound, strands, found] <;> omega
  | @notifiesAll index target fails found =>
      obtain ⟨threadsWoken, idlesWoken⟩ := tally_wake s.workers
      have callsMoved := tally_moved Call.threads found .returned
      have notSpawn : strands s (.call index target fails) = (0, 0) := by
        cases fails <;> simp [strands, found]
      simp [Call.threads] at callsMoved
      constructor <;>
        simp [isThreads, isIdles, sound, notSpawn, threadsWoken, idlesWoken, callsMoved]
  | @locks index _ worker worker' state found locks =>
      have isThread := le_tally_of_found Worker.threads found
      have isIdle := le_tally_of_found Worker.idles found
      obtain ⟨threadsLocked, idlesLocked, sound'⟩ := locks.counts (by omega) (by omega)
      have threadsMoved := tally_moved Worker.threads found worker'
      have idlesMoved := tally_moved Worker.idles found worker'
      refine ⟨?_, ?_, sound'.trans sound⟩
      · show state.threadCount = tally Worker.threads (s.workers.set index worker') +
          tally Call.threads s.calls + threads
        omega
      · show state.idleCount = tally Worker.idles (s.workers.set index worker') +
          tally Call.threads s.calls + idles
        omega
  | @workerAnnounces index fails task found =>
      obtain ⟨threadsWoken, idlesWoken⟩ := tally_wake s.workers
      have threadsMoved := tally_moved Worker.threads (found_wake found) (.spawning task)
      have idlesMoved := tally_moved Worker.idles (found_wake found) (.spawning task)
      have notSpawn : strands s (.spawn index fails) = (0, 0) := by
        cases fails <;> simp [strands, found]
      simp [Worker.wake, Worker.threads, Worker.idles, Worker.live, Worker.idle, Worker.spawns]
        at threadsMoved idlesMoved
      constructor <;> simp [isThreads, isIdles, sound, notSpawn] <;> omega
  | @workerSpawns index task found =>
      have threadsMoved := tally_moved Worker.threads found (.running task)
      have idlesMoved := tally_moved Worker.idles found (.running task)
      simp [Worker.threads, Worker.idles, Worker.live, Worker.idle, Worker.spawns]
        at threadsMoved idlesMoved
      constructor <;>
        simp [isThreads, isIdles, sound, strands, Worker.threads, Worker.idles, Worker.live,
          Worker.idle, Worker.spawns] <;>
        omega
  | @workerFails index task found =>
      have threadsMoved := tally_moved Worker.threads found (.failed task)
      have idlesMoved := tally_moved Worker.idles found (.failed task)
      simp [Worker.threads, Worker.idles, Worker.live, Worker.idle, Worker.spawns]
        at threadsMoved idlesMoved
      constructor <;> simp [isThreads, isIdles, sound, strands, found] <;> omega
  | @wakes index timedOut found =>
      have threadsMoved := tally_moved Worker.threads found (.woken timedOut)
      have idlesMoved := tally_moved Worker.idles found (.woken timedOut)
      simp [Worker.threads, Worker.idles, Worker.live, Worker.idle, Worker.spawns]
        at threadsMoved idlesMoved
      constructor <;> simp [isThreads, isIdles, sound, strands] <;> omega

theorem Balanced.step (balanced : s.Balanced) (succeeds : spawnsSucceed label = true)
    (step : ThreadPool.step config s label = some s') : s'.Balanced := by
  have exceeds := balanced.exceeds.step step
  rw [strands_of_succeeds s succeeds] at exceeds
  exact ⟨exceeds.threads, exceeds.idles, exceeds.sound⟩

end ThreadPool

/-- The counters count the workers whenever the mutex is free. -/
theorem thread_pool_accounted {config : Config} {s : ThreadPool T}
    (reachable : ReachableUnder (ThreadPool.step config)
      (fun _ label => ThreadPool.spawnsSucceed label = true) (ThreadPool.new config) s) :
    s.Accounted := by
  have balanced : s.Balanced := by
    apply reachable.invariant (ThreadPool.Balanced.new config)
    intro state label result balanced succeeds step
    exact balanced.step succeeds step
  exact balanced.accounted

theorem thread_pool_accounted_of_run : ∃ s : ThreadPool Nat,
    s.state.threadCount = 2 ∧ s.state.idleCount = 1 ∧ s.Accounted := by
  obtain ⟨s, ran, threads, idles⟩ : ∃ s ∈
      runFrom (guarded (ThreadPool.step { minCount := 0 })
          fun _ label => ThreadPool.spawnsSucceed label)
        (ThreadPool.new { minCount := 0 })
        [.run 7, .call 0 none false, .call 0 none false, .lock 0 false],
      s.state.threadCount = 2 ∧ s.state.idleCount = 1 := by
    decide +kernel
  exact ⟨s, threads, idles, thread_pool_accounted (reachableUnder_of_runFrom ran)⟩

/-! ## The size of the pool -/

/-- The most threads of a pool with `max_count` set. -/
def Config.most (config : Config) (maxCount : Nat) : Nat :=
  max (max config.minCount maxCount) 1

namespace State

variable {config : Config} {s s' : State T} {worker worker' : Worker T} {maxCount : Nat}

theorem Turns.most (isMax : config.maxCount = some maxCount)
    (turns : Turns config s s' worker') (below : s.threadCount ≤ config.most maxCount) :
    s'.threadCount ≤ config.most maxCount := by
  cases turns with
  | shut | drained => exact (Nat.sub_le _ _).trans below
  | spawns _ _ _ _ allowed =>
      simp only [isMax, Option.all_some, decide_eq_true_eq] at allowed
      show s.threadCount + 1 ≤ config.most maxCount
      unfold Config.most
      omega
  | runs | waits => exact below

theorem Locks.most {panics : Bool} (isMax : config.maxCount = some maxCount)
    (locks : Locks config panics s worker s' worker')
    (below : s.threadCount ≤ config.most maxCount) :
    s'.threadCount ≤ config.most maxCount := by
  cases locks with
  | starts turns | wakes turns | ends turns => exact turns.most isMax below
  | timesOut | unwinds => exact (Nat.sub_le _ _).trans below

/-- While the pool is active, the loop is left only by a thread beyond
`min_count`. -/
theorem Turns.least (turns : Turns config s s' worker') (isActive : s.phase = .active) :
    s.threadCount ≤ s'.threadCount := by
  cases turns with
  | shut isShut => simp [isActive] at isShut
  | drained isDrain => simp [isActive] at isDrain
  | spawns => exact Nat.le_succ _
  | runs | waits => exact le_rfl

theorem Locks.least (isActive : s.phase = .active) (locks : Locks config false s worker s' worker')
    (above : config.minCount ≤ s.threadCount) : config.minCount ≤ s'.threadCount := by
  cases locks with
  | starts turns | wakes turns | ends turns => exact above.trans (turns.least isActive)
  | timesOut surplus => exact Nat.le_sub_one_of_lt surplus
  | unwinds isPanic => cases isPanic

theorem Locks.samePhase {panics : Bool} (locks : Locks config panics s worker s' worker') :
    s'.phase = s.phase := by
  cases locks with
  | starts turns | wakes turns | ends turns => cases turns <;> rfl
  | timesOut | unwinds => rfl

end State

namespace ThreadPool

variable {config : Config} {s s' : ThreadPool T} {label : Label T}

/-- No task panics. -/
def noPanics : Label T → Bool
  | .lock _ panics => !panics
  | _ => true

def AtMost (config : Config) (maxCount : Nat) (s : ThreadPool T) : Prop :=
  s.state.threadCount ≤ config.most maxCount

def AtLeast (config : Config) (s : ThreadPool T) : Prop :=
  s.state.phase = .active → config.minCount ≤ s.state.threadCount

theorem most_step {maxCount : Nat} (isMax : config.maxCount = some maxCount)
    (below : s.AtMost config maxCount) (step : ThreadPool.step config s label = some s') :
    s'.AtMost config maxCount := by
  have steps := steps_of_step step
  cases steps with
  | runSpawns _ allowed =>
      simp only [isMax, Option.all_some, decide_eq_true_eq] at allowed
      show s.state.threadCount + 1 ≤ config.most maxCount
      unfold Config.most
      omega
  | locks _ locks => exact locks.most isMax below
  | runNotifies | drains | notifiesOne | notifiesNone | announces | spawns | fails | notifiesAll
  | workerAnnounces | workerSpawns | workerFails | wakes => exact below

theorem least_step (above : s.AtLeast config) (calm : noPanics label = true)
    (step : ThreadPool.step config s label = some s') : s'.AtLeast config := by
  intro isActive
  have steps := steps_of_step step
  cases steps with
  | runSpawns => exact (above isActive).trans (Nat.le_succ _)
  | @locks _ panics _ _ _ _ locks =>
      obtain rfl : panics = false := by simpa [noPanics] using calm
      rw [locks.samePhase] at isActive
      exact locks.least isActive (above isActive)
  | drains shutdown => cases shutdown <;> cases isActive
  | runNotifies | notifiesOne | notifiesNone | announces | spawns | fails | notifiesAll
  | workerAnnounces | workerSpawns | workerFails | wakes => exact above isActive

end ThreadPool

/-- A pool has at most the threads of its bounds, and while it is active and no
task panics at least `min_count`. -/
theorem thread_pool_size (config : Config) :
    (∀ s : ThreadPool T, ReachableUnder (ThreadPool.step config)
        (fun _ label => ThreadPool.spawnsSucceed label = true) (ThreadPool.new config) s →
      ∀ maxCount, config.maxCount = some maxCount →
        s.state.threadCount ≤ max (max config.minCount maxCount) 1) ∧
    ∀ s : ThreadPool T, ReachableUnder (ThreadPool.step config)
        (fun _ label => (ThreadPool.spawnsSucceed label && ThreadPool.noPanics label) = true)
        (ThreadPool.new config) s →
      s.state.phase = .active → config.minCount ≤ s.state.threadCount := by
  constructor
  · intro s reachable maxCount isMax
    have below : s.AtMost config maxCount := by
      apply reachable.invariant
      · exact (Nat.le_max_left _ _).trans (Nat.le_max_left _ _)
      · intro state label result below _ step
        exact ThreadPool.most_step isMax below step
    exact below
  · intro s reachable
    have above : s.AtLeast config := by
      apply reachable.invariant
      · intro _
        exact le_rfl
      · intro state label result above careful step
        rw [Bool.and_eq_true] at careful
        exact ThreadPool.least_step above careful.2 step
    exact above

theorem thread_pool_size_of_run :
    (∃ s : ThreadPool Nat, s.state.threadCount = 1 ∧ s.state.threadCount ≤ max (max 0 0) 1) ∧
    ∃ s : ThreadPool Nat, s.state.threadCount = 1 ∧ 1 ≤ s.state.threadCount := by
  constructor
  · obtain ⟨s, ran, threads⟩ : ∃ s ∈
        runFrom (guarded (ThreadPool.step { minCount := 0, maxCount := some 0 })
            fun _ label => ThreadPool.spawnsSucceed label)
          (ThreadPool.new { minCount := 0, maxCount := some 0 }) [.run 7, .call 0 none false],
        s.state.threadCount = 1 := by
      decide +kernel
    exact ⟨s, threads, (thread_pool_size _).1 s (reachableUnder_of_runFrom ran) 0 rfl⟩
  · obtain ⟨s, ran, threads, isActive⟩ : ∃ s ∈
        runFrom (guarded (ThreadPool.step { minCount := 1, maxCount := some 2 })
            fun _ label => ThreadPool.spawnsSucceed label && ThreadPool.noPanics label)
          (ThreadPool.new { minCount := 1, maxCount := some 2 } : ThreadPool Nat)
          [.lock 0 false, .wake 0 true, .lock 0 false],
        s.state.threadCount = 1 ∧ s.state.phase = .active := by
      decide +kernel
    exact ⟨s, threads, (thread_pool_size _).2 s (reachableUnder_of_runFrom ran) isActive⟩

end Suspend.Pool
