import Suspend.Pool.Drain

/-!
# A spawn that fails

`maybe_spawn` raises the counters and gives the mutex up before it spawns the
thread.  If that fails it unwinds the caller of `run`, or a worker with the task
that it has taken, and nothing lowers the counters again: a thread that never
was counts as idle, and keeps later tasks from getting one.
-/

namespace Suspend.Pool

open Suspend.Transition

universe u

variable {T : Type u}

namespace ThreadPool

/-- A call of `run`, or the critical section in which a worker has taken its task,
whose spawn then fails. -/
inductive FailedSpawn (config : Config) (before after : ThreadPool T) : Prop
  | run (task : T) (target : Option Nat) (s : ThreadPool T)
      (between : Reachable (step config) (before.run config task) s)
      (spawns : s.calls[before.calls.length]? = some .spawn)
      (fails : step config s (.call before.calls.length target true) = some after)
  | worker (index : Nat) (panics : Bool) (task : T) (popped s : ThreadPool T)
      (pops : step config before (.lock index panics) = some popped)
      (between : ReachableUnder (step config) (fun _ label => ∀ panics, label ≠ .lock index panics)
        popped s)
      (spawns : s.workers[index]? = some (.spawning task))
      (fails : step config s (.spawn index true) = some after)

/-- The counters count the workers, and those that others are about to spawn;
the tasks that were queued are queued, with a worker that is still there, or
executed. -/
structure Restored (before after : ThreadPool T) : Prop where
  threads : after.state.threadCount = after.live + after.spawns
  idles : after.state.idleCount = after.idle + after.spawns
  tasks : ∀ task ∈ before.state.queue, task ∈ after.state.queue ∨ task ∈ after.executed ∨
    ∃ worker ∈ after.workers, worker.live = true ∧ task ∈ worker.held

/-- Some thread is counted that is not there, and counted as idle. -/
def Haunted (s : ThreadPool T) : Prop :=
  s.live + s.spawns < s.state.threadCount ∧ s.idle + s.spawns < s.state.idleCount

/-- A task that is neither queued nor executed, nor with a worker that is still
there. -/
def Loses [DecidableEq T] (task : T) (s : ThreadPool T) : Prop :=
  s.executed.count task + tally (fun worker => if worker.live then worker.held.count task else 0)
    s.workers + s.state.queue.count task < s.accepted.count task

variable {config : Config} {before after s later : ThreadPool T} {label : Label T}

/-- Failed spawns and all, no counter goes below what is there. -/
theorem exceeds_of_reachable (reachable : Reachable (step config) (ThreadPool.new config) s) :
    ∃ threads idles, s.Exceeds threads idles := by
  apply reachable.invariant
  · exact ⟨0, 0, (Balanced.new config).exceeds⟩
  · rintro state label result ⟨threads, idles, exceeds⟩ _ step
    exact ⟨_, _, exceeds.step step⟩

theorem Exceeds.haunted {threads idles : Nat} (exceeds : s.Exceeds (threads + 1) (idles + 1)) :
    s.Haunted := by
  have threadCount := exceeds.threadCount
  have idleCount := exceeds.idleCount
  constructor <;> omega

/-- What exceeds the workers once does so for good. -/
theorem Exceeds.haunted_later {threads idles : Nat} (exceeds : s.Exceeds (threads + 1) (idles + 1))
    (reachable : Reachable (ThreadPool.step config) s later) : later.Haunted := by
  have beyond : ∃ threads idles, later.Exceeds (threads + 1) (idles + 1) := by
    apply reachable.invariant
    · exact ⟨threads, idles, exceeds⟩
    · rintro state label result ⟨threads, idles, exceeds⟩ _ step
      refine ⟨threads + (strands state label).1, idles + (strands state label).2, ?_⟩
      have moved := exceeds.step step
      rwa [Nat.add_right_comm threads, Nat.add_right_comm idles] at moved
  obtain ⟨_, _, exceeds⟩ := beyond
  exact exceeds.haunted

theorem reachable_run {start : ThreadPool T} (task : T)
    (reachable : Reachable (step config) start before) :
    Reachable (step config) start (before.run config task) := by
  have ran : step config before (.run task) = some (before.run config task) := rfl
  exact ReachableUnder.tail reachable trivial ran

theorem FailedSpawn.reachable
    (reachable : Reachable (step config) (ThreadPool.new config) before)
    (failed : FailedSpawn config before after) :
    Reachable (step config) (ThreadPool.new config) after := by
  cases failed with
  | run task target s between spawns fails =>
      have began := reachable_run task reachable
      exact ReachableUnder.tail (began.trans between) trivial fails
  | worker index panics task popped s pops between spawns fails =>
      have began := reachable.tail trivial pops
      exact ReachableUnder.tail (began.trans between.reachable) trivial fails

/-- A failed spawn leaves at least the thread that was to be spawned. -/
theorem FailedSpawn.exceeds (reachable : Reachable (step config) (ThreadPool.new config) before)
    (failed : FailedSpawn config before after) :
    ∃ threads idles, after.Exceeds (threads + 1) (idles + 1) := by
  cases failed with
  | run task target s between spawns fails =>
      have began := reachable_run task reachable
      obtain ⟨threads, idles, exceeds⟩ := exceeds_of_reachable (began.trans between)
      have moved := exceeds.step fails
      simp only [strands, spawns] at moved
      exact ⟨threads, idles, moved⟩
  | worker index panics task popped s pops between spawns fails =>
      have began := reachable.tail trivial pops
      obtain ⟨threads, idles, exceeds⟩ := exceeds_of_reachable (began.trans between.reachable)
      have moved := exceeds.step fails
      simp only [strands, spawns] at moved
      exact ⟨threads + 1, idles, moved⟩

/-- The task of a worker that has failed is lost with it. -/
theorem Ledger.loses [DecidableEq T] {task : T} (ledger : s.Ledger)
    (failed : .failed task ∈ s.workers) : s.Loses task := by
  have balance := ledger task
  let gone (worker : Worker T) : Nat := if worker.live then 0 else worker.held.count task
  have split : heldCount task s.workers =
      tally (fun worker => if worker.live then worker.held.count task else 0) s.workers +
        tally gone s.workers := by
    rw [← tally_add]
    unfold heldCount
    congr 1
    funext worker
    simp only [gone]
    cases worker.live <;> simp
  have lost : gone (.failed task) ≤ tally gone s.workers := le_tally gone failed
  have isTask : gone (.failed task) = 1 := by simp [gone, Worker.live, Worker.held]
  unfold Loses
  omega

theorem ledger_of_reachable [DecidableEq T]
    (reachable : Reachable (step config) (ThreadPool.new config) s) : s.Ledger := by
  apply reachable.invariant (Ledger.new config)
  intro state label result ledger _ step
  exact ledger.step step

end ThreadPool

/-- A failed spawn never leaves the pool as it was, and the counters stay wrong
for good; the task of a worker that it unwinds is lost. -/
theorem failed_spawn_haunts [DecidableEq T] {config : Config} {before after : ThreadPool T}
    (reachable : Reachable (ThreadPool.step config) (ThreadPool.new config) before)
    (failed : ThreadPool.FailedSpawn config before after) :
    ¬ before.Restored after ∧
      ∀ later, Reachable (ThreadPool.step config) after later → later.Haunted ∧
        ∀ task, .failed task ∈ later.workers → later.Loses task := by
  obtain ⟨threads, idles, exceeds⟩ := failed.exceeds reachable
  constructor
  · intro restored
    have more := exceeds.haunted.1
    rw [restored.threads] at more
    exact Nat.lt_irrefl _ more
  · intro later reaches
    refine ⟨exceeds.haunted_later reaches, ?_⟩
    intro task lost
    exact (ThreadPool.ledger_of_reachable ((failed.reachable reachable).trans reaches)).loses lost

/-- The only worker takes a task, and the spawn of a second one unwinds it. -/
theorem failed_spawn_haunts_of_worker : ∃ before after : ThreadPool Nat,
    before.state.queue = [7] ∧ after.state.threadCount = 2 ∧ after.live = 0 ∧
      ¬ before.Restored after ∧ after.Haunted ∧ after.Loses 7 := by
  let before : ThreadPool Nat := (ThreadPool.new { minCount := 1 }).run { minCount := 1 } 7
  have began : Reachable (ThreadPool.step { minCount := 1 }) (ThreadPool.new { minCount := 1 })
      before := ThreadPool.reachable_run 7 (ReachableUnder.refl _ _ _)
  obtain ⟨popped, pops, s, announced, spawns, after, fails, threads, live, lost⟩ :
      ∃ popped ∈ ThreadPool.step { minCount := 1 } before (.lock 0 false),
        ∃ s ∈ ThreadPool.step { minCount := 1 } popped (.spawn 0 false),
          s.workers[0]? = some (.spawning 7) ∧
        ∃ after ∈ ThreadPool.step { minCount := 1 } s (.spawn 0 true),
          after.state.threadCount = 2 ∧ after.live = 0 ∧ .failed 7 ∈ after.workers := by
    decide +kernel
  have between : ReachableUnder (ThreadPool.step { minCount := 1 })
      (fun _ label => ∀ panics, label ≠ .lock 0 panics) popped s :=
    (ReachableUnder.refl _ _ _).tail (by simp) announced
  obtain ⟨unrestored, haunts⟩ := failed_spawn_haunts began
    (.worker 0 false 7 popped s pops between spawns fails)
  obtain ⟨haunted, loses⟩ := haunts after (ReachableUnder.refl _ _ _)
  exact ⟨before, after, rfl, threads, live, unrestored, haunted, loses 7 lost⟩

/-- The first task of an empty pool, and a spawn that fails. -/
theorem failed_spawn_unrestored : ¬ ∀ (config : Config) (before after : ThreadPool Nat),
    Reachable (ThreadPool.step config) (ThreadPool.new config) before →
      ThreadPool.FailedSpawn config before after → before.Restored after := by
  intro restores
  obtain ⟨s, announced, spawns, after, fails, threads, live⟩ :
      ∃ s ∈ ThreadPool.step { minCount := 0 }
          ((ThreadPool.new { minCount := 0 } : ThreadPool Nat).run { minCount := 0 } 7)
          (.call 0 none false),
        s.calls[0]? = some .spawn ∧
      ∃ after ∈ ThreadPool.step { minCount := 0 } s (.call 0 none true),
        after.state.threadCount = 1 ∧ after.live + after.spawns = 0 := by
    decide +kernel
  have failed : ThreadPool.FailedSpawn { minCount := 0 } (ThreadPool.new { minCount := 0 }) after :=
    .run 7 none s ((ReachableUnder.refl _ _ _).tail trivial announced) spawns fails
  have restored := restores _ _ _ (ReachableUnder.refl _ _ _) failed
  rw [restored.threads, live] at threads
  cases threads

end Suspend.Pool
