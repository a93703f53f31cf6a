import Suspend.Pool.SpawnFailure
import Suspend.Transition.Trace
import Mathlib.Algebra.Order.Group.Multiset

/-!
# A pool is an executor

What a pool is for: it takes the tasks that it is given one after another, in
their order, and has no more of them at a time than its threads may be.  What
its calls and its workers do, with spawns that fail and tasks that panic, is
what such an executor does.
-/

namespace Suspend.Pool

open Suspend.Transition

universe u

variable {T : Type u}

/-! ## The executor -/

/-- What happens to the tasks. -/
inductive TaskEvent (T : Type u) where
  | submit (task : T)
  | close (shutdown : Bool)
  /-- A thread takes the first task of the queue. -/
  | take (task : T)
  /-- The task has ended, in a panic or not. -/
  | finish (task : T)
  /-- The thread has unwound before it could run the task. -/
  | abandon (task : T)
  deriving DecidableEq, Repr

structure Executor (T : Type u) where
  queue : List T := []
  taken : Multiset T := 0
  phase : Phase := .active

namespace TaskEvent

def submitted : TaskEvent T → Option T
  | submit task => some task
  | _ => none

def started : TaskEvent T → Option T
  | take task => some task
  | _ => none

/-- The task that a thread is done with. -/
def left : TaskEvent T → Option T
  | finish task | abandon task => some task
  | _ => none

end TaskEvent

namespace Executor

variable [DecidableEq T] {limit : Option Nat} {s last : Executor T} {events : List (TaskEvent T)}

/-- A thread parts with a task that it has taken. -/
def part (task : T) (s : Executor T) : Option (Executor T) :=
  if task ∈ s.taken then some { s with taken := s.taken.erase task } else none

/-- At most `limit` tasks are taken at a time, and none after a shutdown. -/
def step (limit : Option Nat) : Step (Executor T) (TaskEvent T)
  | s, .submit task => some { s with queue := s.queue ++ [task] }
  | s, .close shutdown => some { s with phase := if shutdown then .shutdown else .drain }
  | s, .take task =>
      match s.queue with
      | [] => none
      | first :: rest =>
          if first = task ∧ s.phase ≠ .shutdown ∧ limit.all (s.taken.card < ·) then
            some { s with queue := rest, taken := task ::ₘ s.taken }
          else none
  | s, .finish task | s, .abandon task => s.part task

/-- Tasks are taken in the order of their submission, and each of them is still
with a thread or has been left once. -/
structure Orderly (first : Executor T) (events : List (TaskEvent T)) (last : Executor T) :
    Prop where
  queue : first.queue ++ events.filterMap TaskEvent.submitted =
    events.filterMap TaskEvent.started ++ last.queue
  taken : first.taken + (events.filterMap TaskEvent.started : Multiset T) =
    last.taken + (events.filterMap TaskEvent.left : Multiset T)

theorem part_eq_some {task : T} (parted : s.part task = some last) :
    s.taken = task ::ₘ last.taken ∧ last.queue = s.queue := by
  unfold part at parted
  split at parted
  · rename_i isTaken
    obtain rfl := Option.some.inj parted
    exact ⟨(Multiset.cons_erase isTaken).symm, rfl⟩
  · cases parted

theorem orderly_of_runFrom (ran : runFrom (step limit) s events = some last) :
    Orderly s events last := by
  induction events generalizing s with
  | nil =>
      obtain rfl := Option.some.inj ran
      exact ⟨by simp, by simp⟩
  | cons event rest ih =>
      rw [runFrom_cons, Option.bind_eq_some_iff] at ran
      obtain ⟨middle, stepped, rested⟩ := ran
      obtain ⟨queue, taken⟩ := ih rested
      cases event with
      | submit task =>
          obtain rfl := Option.some.inj stepped
          refine ⟨?_, taken⟩
          simpa [List.filterMap_cons, TaskEvent.submitted, TaskEvent.started] using queue
      | close shutdown =>
          obtain rfl := Option.some.inj stepped
          exact ⟨queue, taken⟩
      | take task =>
          simp only [step] at stepped
          split at stepped
          · cases stepped
          · rename_i first others isQueue
            split at stepped
            · rename_i allowed
              obtain rfl := Option.some.inj stepped
              obtain ⟨rfl, _, _⟩ := allowed
              constructor
              · simpa [isQueue, List.filterMap_cons, TaskEvent.submitted, TaskEvent.started]
                  using queue
              · simpa [List.filterMap_cons, TaskEvent.started, TaskEvent.left,
                  ← Multiset.cons_coe] using taken
            · cases stepped
      | finish task | abandon task =>
          obtain ⟨isTaken, same⟩ := part_eq_some stepped
          rw [same] at queue
          refine ⟨queue, ?_⟩
          rw [isTaken, Multiset.cons_add]
          show task ::ₘ (middle.taken + (rest.filterMap TaskEvent.started : Multiset T)) = _
          rw [taken]
          simp [TaskEvent.left, ← Multiset.cons_coe]

end Executor

/-! ## The pool as an executor -/

/-- The task that a worker has taken and not yet parted with. -/
def Worker.taken : Worker T → List T
  | announcing task | spawning task | running task => [task]
  | _ => []

@[simp]
theorem Worker.taken_wake (worker : Worker T) : worker.wake.taken = worker.taken := by
  cases worker <;> rfl

theorem Worker.taken_le_live (worker : Worker T) : worker.taken.length ≤ worker.live.toNat := by
  cases worker <;> simp [taken, live]

/-- The most tasks at a time. -/
def Config.limit (config : Config) : Option Nat :=
  config.maxCount.map config.most

/-- The executor that a critical section finds. -/
def State.executor (s : State T) (taken : Multiset T) : Executor T where
  queue := s.queue
  taken
  phase := s.phase

namespace ThreadPool

variable {config : Config} {s s' : ThreadPool T} {label : Label T}

/-- The tasks that the workers have taken. -/
def taken (s : ThreadPool T) : Multiset T :=
  (s.workers.map fun worker => (worker.taken : Multiset T)).sum

def executor (s : ThreadPool T) : Executor T :=
  s.state.executor s.taken

/-- What a step does with the tasks: a worker's critical section is at the end of
its task, and may take another. -/
def seen (s : ThreadPool T) : Label T → ThreadPool T → List (TaskEvent T)
  | .run task, _ => [.submit task]
  | .startDrain shutdown, _ => [.close shutdown]
  | .lock index _, s' =>
      (s.workers[index]?.toList.flatMap Worker.ended).map .finish ++
        (s'.workers[index]?.toList.flatMap Worker.taken).map .take
  | .spawn index fails, _ =>
      if fails then
        match s.workers[index]? with
        | some (.spawning task) => [.abandon task]
        | _ => []
      else []
  | .call .., _ | .wake .., _ => []

/-- There are never more tasks with the workers than threads. -/
theorem card_taken_le (reachable : Reachable (step config) (new config) s) :
    config.limit.all (s.taken.card ≤ ·) = true := by
  obtain ⟨threads, idles, exceeds⟩ := exceeds_of_reachable reachable
  have threadCount := exceeds.threadCount
  have held : s.taken.card = tally (fun worker => worker.taken.length) s.workers := by
    show Multiset.cardHom s.taken = _
    rw [taken, map_list_sum, List.map_map]
    rfl
  have isLive : tally (fun worker => worker.taken.length) s.workers ≤ s.live :=
    tally_mono Worker.taken_le_live s.workers
  cases isMax : config.maxCount with
  | none => simp [Config.limit, isMax]
  | some maxCount =>
      have below : s.AtMost config maxCount := by
        apply reachable.invariant
        · exact (Nat.le_max_left _ _).trans (Nat.le_max_left _ _)
        · intro state label result below _ step
          exact most_step isMax below step
      simp only [Config.limit, isMax, Option.map_some, Option.all_some, decide_eq_true_eq]
      have within : s.state.threadCount ≤ config.most maxCount := below
      omega

end ThreadPool

/-! ## Critical sections -/

section Steps

variable [DecidableEq T] {config : Config} {limit : Option Nat} {panics : Bool}
  {state state' : State T} {worker worker' : Worker T} {rest : Multiset T}

/-- A turn of the loop takes the first task, or none. -/
theorem State.Turns.executes (turns : State.Turns config state state' worker)
    (room : limit.all (rest.card + worker.taken.length ≤ ·) = true) :
    runFrom (Executor.step limit) (state.executor rest) (worker.taken.map .take) =
      some (state'.executor (rest + worker.taken)) := by
  have takes (task : T) (others : List T) (isQueue : state.queue = task :: others)
      (notShut : state.phase ≠ .shutdown) (free : limit.all (rest.card + 1 ≤ ·) = true) :
      Executor.step limit (state.executor rest) (.take task) =
        some { queue := others, taken := task ::ₘ rest, phase := state.phase } := by
    simp only [Executor.step, State.executor, isQueue]
    exact if_pos ⟨trivial, notShut, free⟩
  cases turns with
  | shut | drained | waits => simp [Worker.taken, State.executor, State.leave, State.idleDown,
      State.threadDown]
  | spawns task others notShut isQueue | runs task others notShut isQueue =>
      simp only [Worker.taken, List.map_cons, List.map_nil, runFrom_cons,
        takes task others isQueue notShut room, Option.bind_some, runFrom_nil]
      simp [State.executor, State.idleDown, State.threadUp, ← Multiset.singleton_add, add_comm]

/-- A critical section is at the end of its worker's task, and may take another. -/
theorem State.Locks.executes (locks : State.Locks config panics state worker state' worker')
    (room : limit.all (rest.card + worker'.taken.length ≤ ·) = true) :
    worker.taken = worker.ended ∧
      runFrom (Executor.step limit) (state.executor (rest + worker.ended))
          (worker.ended.map .finish ++ worker'.taken.map .take) =
        some (state'.executor (rest + worker'.taken)) := by
  have finishes (task : T) (state : State T) :
      Executor.step limit (state.executor (rest + ([task] : List T))) (.finish task) =
        some (state.executor rest) := by
    have isTaken : task ∈ rest + {task} := by simp
    have left : (rest + {task}).erase task = rest := by
      rw [add_comm, Multiset.singleton_add, Multiset.erase_cons_head]
    simp only [Executor.step, Executor.part, State.executor, Multiset.coe_singleton, isTaken,
      if_true, left]
  cases locks with
  | starts turns | wakes turns => exact ⟨rfl, by simpa [Worker.ended] using turns.executes room⟩
  | timesOut =>
      refine ⟨rfl, ?_⟩
      simp [Worker.ended, Worker.taken, State.executor, State.leave, State.idleDown,
        State.threadDown]
  | @ends task _ _ turns =>
      refine ⟨rfl, ?_⟩
      simp only [Worker.ended, List.map_cons, List.map_nil, List.singleton_append, runFrom_cons,
        finishes, Option.bind_some]
      exact turns.executes room
  | @unwinds task =>
      refine ⟨rfl, ?_⟩
      simp only [Worker.ended, List.map_cons, List.map_nil, List.singleton_append, runFrom_cons,
        finishes, Option.bind_some]
      simp [Worker.taken, State.executor, State.leave, State.idleDown, State.threadDown]

end Steps

/-! ## Runs -/

namespace ThreadPool

variable {config : Config} {s s' : ThreadPool T} {label : Label T}

/-- A move of one worker changes what is taken by what it has taken and left. -/
theorem taken_moved {index : Nat} {worker : Worker T} (found : s.workers[index]? = some worker)
    (worker' : Worker T) :
    ((s.workers.set index worker').map fun worker => (worker.taken : Multiset T)).sum +
      worker.taken = s.taken + worker'.taken :=
  sum_moved (fun worker => (worker.taken : Multiset T)) found worker'

/-- What the other workers have taken. -/
theorem exists_taken {index : Nat} {worker : Worker T} (found : s.workers[index]? = some worker) :
    ∃ rest : Multiset T, s.taken = rest + worker.taken ∧ ∀ worker' : Worker T,
      ((s.workers.set index worker').map fun worker => (worker.taken : Multiset T)).sum =
        rest + worker'.taken := by
  have without := taken_moved found .exited
  have nothing : (Worker.exited : Worker T).taken = [] := rfl
  rw [nothing, Multiset.coe_nil, add_zero] at without
  refine ⟨_, without.symm, fun worker' => ?_⟩
  have moved := taken_moved found worker'
  rw [← without, add_right_comm] at moved
  exact add_right_cancel moved

theorem taken_wake (workers : List (Worker T)) :
    ((workers.map Worker.wake).map fun worker => (worker.taken : Multiset T)).sum =
      (workers.map fun worker => (worker.taken : Multiset T)).sum := by
  simp [Function.comp_def]

theorem executor_step [DecidableEq T] (reachable : Reachable (step config) (new config) s)
    (step : ThreadPool.step config s label = some s') :
    runFrom (Executor.step config.limit) s.executor (s.seen label s') = some s'.executor := by
  have steps := steps_of_step step
  have still {workers : List (Worker T)} {calls : List Call} {executed : List T}
      (same : (workers.map fun worker => (worker.taken : Multiset T)).sum = s.taken) :
      some s.executor = some (executor { s with workers, calls, executed }) := by
    simp only [executor, taken, same]
  cases steps with
  | runSpawns task | runNotifies task => rfl
  | drains shutdown => rfl
  | @notifiesOne index target fails found waits =>
      refine still ?_
      simpa [Worker.taken] using taken_moved waits (.woken false)
  | notifiesNone => exact still rfl
  | announces | notifiesAll => exact still (taken_wake _)
  | spawns found =>
      refine still ?_
      simp [Worker.taken, taken]
  | fails => exact still rfl
  | @locks index _ worker worker' state found locks =>
      have room := card_taken_le (reachable.tail trivial step)
      have isTarget : (s.workers.set index worker')[index]? = some worker' :=
        List.getElem?_set_self (List.getElem?_eq_some_iff.mp found).1
      obtain ⟨rest, isTaken, moved⟩ := exists_taken found
      rw [taken, moved] at room
      obtain ⟨isEnded, ran⟩ := locks.executes (by simpa using room)
      simp only [seen, found, isTarget, executor, isTaken, isEnded, Option.toList_some,
        List.flatMap_cons, List.flatMap_nil, List.append_nil]
      simpa only [taken, moved] using ran
  | @workerAnnounces index fails task found =>
      have moved := sum_moved (fun worker => (worker.taken : Multiset T)) (found_wake found)
        (.spawning task)
      rw [taken_wake] at moved
      cases fails <;> simp only [seen, found, if_true] <;> exact still (add_right_cancel moved)
  | @workerSpawns index task found =>
      refine still ?_
      simpa [Worker.taken] using taken_moved found (.running task)
  | @workerFails index task found =>
      obtain ⟨rest, isTaken, moved⟩ := exists_taken found
      have parts : Executor.step config.limit s.executor (.abandon task) =
          some (s.state.executor rest) := by
        have isMember : task ∈ s.taken := by simp [isTaken, Worker.taken]
        simp only [Executor.step, Executor.part, executor, State.executor, isMember, if_true]
        simp [isTaken, Worker.taken, add_comm rest]
      simp only [seen, found, if_true, runFrom_cons, parts, Option.bind_some, runFrom_nil]
      simp only [executor, taken, moved]
      simp [Worker.taken]
  | @wakes index timedOut found =>
      refine still ?_
      simpa [Worker.taken] using taken_moved found (.woken timedOut)

end ThreadPool

/-- In every interleaving of `run` and `drain` calls with the workers, time-outs,
panics and spawns that fail among them, a pool is an executor: its tasks are
taken in the order in which they were submitted, each once, no more than its
bounds allow at a time, and none after a shutdown. -/
theorem thread_pool_executes [DecidableEq T] {config : Config} {s : ThreadPool T}
    {history : List (List (TaskEvent T))}
    (shows : Shows (ThreadPool.step config) (fun s label s' => some (s.seen label s'))
      (ThreadPool.new config) history s) :
    runFrom (Executor.step config.limit) {} history.flatten = some s.executor ∧
      Executor.Orderly {} history.flatten s.executor := by
  have start : (ThreadPool.new config : ThreadPool T).executor = {} := by
    simp [ThreadPool.executor, State.executor, ThreadPool.taken, ThreadPool.new, Worker.taken]
  have ran := shows.refines ThreadPool.executor
    fun source label target reachable step => ThreadPool.executor_step reachable step
  rw [start] at ran
  exact ⟨ran, Executor.orderly_of_runFrom ran⟩

/-- The first task panics.  The thread that takes the second cannot spawn another,
and unwinds with the task in hand. -/
theorem thread_pool_executes_of_failure :
    ∃ (history : List (List (TaskEvent Nat))) (s : ThreadPool Nat),
      history.flatten = [.submit 7, .submit 8, .submit 9, .take 7, .finish 7, .take 8, .abandon 8] ∧
        s.state.queue = [9] ∧
        runFrom (Executor.step none) {} history.flatten = some s.executor ∧
          Executor.Orderly {} history.flatten s.executor := by
  obtain ⟨⟨history, s⟩, ran, happened, isQueue⟩ : ∃ shows ∈
      shown (ThreadPool.step { minCount := 1 }) (fun s label s' => some (s.seen label s'))
        (ThreadPool.new { minCount := 1 } : ThreadPool Nat)
        [.run 7, .run 8, .run 9, .lock 0 false, .spawn 0 false, .spawn 0 false, .lock 0 true,
          .lock 1 false, .spawn 1 false, .spawn 1 true],
      shows.1.flatten =
          [.submit 7, .submit 8, .submit 9, .take 7, .finish 7, .take 8, .abandon 8] ∧
        shows.2.state.queue = [9] := by
    decide +kernel
  exact ⟨history, s, happened, isQueue, thread_pool_executes (shows_of_shown ran)⟩

end Suspend.Pool
