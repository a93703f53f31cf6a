import Suspend.Pool.Shutdown
import Suspend.Pool.SpawnFailure
import Suspend.Transition.Rest

/-!
# A pool that is left alone

Nothing in a pool goes round: each of its steps but a wait that lapses brings a
task nearer to its end or a thread to its wait.  So a pool settles when no more
calls come, and a task that is then still in the queue has no thread left.
-/

namespace Suspend.Pool

open Suspend.Transition

universe u

variable {T : Type u}

namespace Label

/-- Somebody calls the pool. -/
def calls : Label T → Bool
  | run _ | startDrain _ => true
  | _ => false

/-- A wait returns without a notification. -/
def lapses : Label T → Bool
  | wake .. => true
  | _ => false

/-- The pool is dropped. -/
def shuts : Label T → Bool
  | startDrain shutdown => shutdown
  | _ => false

/-- A thread goes on with what it has to do. -/
def goesOn (label : Label T) : Bool :=
  !label.calls && !label.lapses

end Label

/-! ## What is left to do -/

/-- What a worker has yet to do before it waits, in a pool of `size` threads at
most. -/
def Worker.remains (size : Nat) : Worker T → Nat
  | waiting | exited | failed _ => 0
  | starting | woken _ | running _ => 1
  | spawning _ => 3
  | announcing _ => size + 4

/-- What a call has yet to do, and to have done by those whom it wakes. -/
def Call.remains (size : Nat) : Call → Nat
  | returned | failed => 0
  | notifyOne | spawn => 2
  | announce => size + 3
  | notifyAll => size + 1

theorem Worker.remains_wake (size : Nat) (worker : Worker T) :
    worker.wake.remains size ≤ worker.remains size + 1 := by
  cases worker <;> simp [remains, wake]

theorem Worker.remains_mono {size size' : Nat} (less : size' ≤ size) (worker : Worker T) :
    worker.remains size' ≤ worker.remains size := by
  cases worker <;> simp [remains, less]

theorem Call.remains_mono {size size' : Nat} (less : size' ≤ size) (call : Call) :
    call.remains size' ≤ call.remains size := by
  cases call <;> simp [remains, less]

namespace ThreadPool

/-- The threads that there have been and that the tasks in the queue may yet
spawn. -/
def size (s : ThreadPool T) : Nat :=
  s.workers.length + s.spawns + s.state.queue.length

def remainsIn (size : Nat) (s : ThreadPool T) : Nat :=
  tally (Worker.remains size) s.workers + tally (Call.remains size) s.calls +
    (size + 4) * s.state.queue.length

/-- A bound for the steps that are left to a pool. -/
def remains (s : ThreadPool T) : Nat :=
  s.remainsIn s.size

theorem remainsIn_mono {size size' : Nat} (less : size' ≤ size) (s : ThreadPool T) :
    s.remainsIn size' ≤ s.remainsIn size := by
  have workers := tally_mono (Worker.remains_mono less) s.workers
  have calls := tally_mono (Call.remains_mono less) s.calls
  have queue : (size' + 4) * s.state.queue.length ≤ (size + 4) * s.state.queue.length :=
    Nat.mul_le_mul_right _ (by omega)
  unfold remainsIn
  omega

/-- Everybody who waits is woken. -/
theorem remains_wakeAll (size : Nat) (workers : List (Worker T)) :
    tally (Worker.remains size) (workers.map Worker.wake) ≤
      tally (Worker.remains size) workers + workers.length := by
  induction workers with
  | nil => exact le_rfl
  | cons worker rest ih =>
      have woken := worker.remains_wake size
      simp only [List.map_cons, tally_cons, List.length_cons]
      omega

variable {config : Config} {s s' : ThreadPool T} {label : Label T}

/-- A turn of the loop pays for what it takes on. -/
theorem remains_of_turns (size : Nat) {state state' : State T} {worker : Worker T}
    (turns : State.Turns config state state' worker) :
    worker.remains size + (size + 4) * state'.queue.length ≤ (size + 4) * state.queue.length ∧
      worker.spawns.toNat + state'.queue.length ≤ state.queue.length := by
  cases turns with
  | spawns task rest _ isQueue =>
      constructor
      · simp [Worker.remains, isQueue, State.idleDown, State.threadUp, Nat.mul_add]
        omega
      · simp [Worker.spawns, isQueue, State.idleDown, State.threadUp]
        omega
  | runs task rest _ isQueue =>
      constructor
      · simp [Worker.remains, isQueue, State.idleDown, Nat.mul_add]
        omega
      · simp [Worker.spawns, isQueue, State.idleDown]
  | shut | drained | waits =>
      simp [Worker.remains, Worker.spawns, State.leave, State.idleDown, State.threadDown]

/-- So does a critical section. -/
theorem remains_of_locks (size : Nat) {panics : Bool} {state state' : State T}
    {worker worker' : Worker T}
    (locks : State.Locks config panics state worker state' worker') :
    worker'.remains size + (size + 4) * state'.queue.length + 1 ≤
        worker.remains size + (size + 4) * state.queue.length ∧
      worker'.spawns.toNat + state'.queue.length ≤ worker.spawns.toNat + state.queue.length := by
  cases locks with
  | starts turns | wakes turns =>
      obtain ⟨remains, spawns⟩ := remains_of_turns size turns
      constructor
      · show _ ≤ 1 + _
        omega
      · show _ ≤ 0 + _
        omega
  | ends turns =>
      obtain ⟨remains, spawns⟩ := remains_of_turns size turns
      constructor
      · show _ ≤ 1 + (size + 4) * state.queue.length
        have remains : _ ≤ (size + 4) * state.queue.length := remains
        omega
      · show _ ≤ 0 + state.queue.length
        have spawns : _ ≤ state.queue.length := spawns
        omega
  | timesOut | unwinds =>
      constructor
      · show 0 + (size + 4) * state.queue.length + 1 ≤ 1 + (size + 4) * state.queue.length
        omega
      · exact le_rfl

/-- Without further calls no more threads come than have been counted. -/
theorem size_step (uncalled : label.calls = false)
    (step : ThreadPool.step config s label = some s') : s'.size ≤ s.size := by
  have workers {index : Nat} {worker : Worker T} (found : s.workers[index]? = some worker)
      (worker' : Worker T) :=
    tally_moved (fun worker : Worker T => worker.spawns.toNat) found worker'
  have calls {index : Nat} {call : Call} (found : s.calls[index]? = some call) (call' : Call) :=
    tally_moved Call.threads found call'
  have woken : tally (fun worker : Worker T => worker.spawns.toNat) (s.workers.map Worker.wake) =
      tally (fun worker : Worker T => worker.spawns.toNat) s.workers := by
    rw [tally_map]
    refine congrArg (tally · s.workers) (funext fun worker => ?_)
    cases worker <;> rfl
  have steps := steps_of_step step
  unfold size spawns
  cases steps with
  | runSpawns | runNotifies | drains => cases uncalled
  | notifiesOne found waits =>
      have moved := workers waits (.woken false)
      have called := calls found .returned
      simp [Worker.spawns, Call.threads] at moved called ⊢
      omega
  | notifiesNone found =>
      have called := calls found .returned
      simp [Call.threads] at called ⊢
      omega
  | announces found =>
      have called := calls found .spawn
      simp [Call.threads, woken] at called ⊢
      omega
  | spawns found =>
      have called := calls found .returned
      simp [Worker.spawns, Call.threads] at called ⊢
      omega
  | fails found =>
      have called := calls found .failed
      simp [Call.threads] at called ⊢
      omega
  | notifiesAll found =>
      have called := calls found .returned
      simp [Call.threads, woken] at called ⊢
      omega
  | @locks index panics worker worker' state found locks =>
      have moved := workers found worker'
      obtain ⟨_, spawns⟩ := remains_of_locks 0 locks
      simp only [List.length_set]
      omega
  | @workerAnnounces index fails task found =>
      have moved := tally_moved (fun worker : Worker T => worker.spawns.toNat) (found_wake found)
        (.spawning task)
      rw [woken] at moved
      simp [Worker.spawns, Worker.wake] at moved ⊢
      omega
  | @workerSpawns index task found =>
      have moved := workers found (.running task)
      simp [Worker.spawns] at moved ⊢
      omega
  | @workerFails index task found =>
      have moved := workers found (.failed task)
      simp [Worker.spawns] at moved ⊢
      omega
  | @wakes index timedOut found =>
      have moved := workers found (.woken timedOut)
      simp [Worker.spawns] at moved ⊢
      omega

/-- Each step but a wait that lapses brings the pool nearer to its rest. -/
theorem remainsIn_step {size : Nat} (bounded : s.workers.length ≤ size)
    (uncalled : label.calls = false) (step : ThreadPool.step config s label = some s') :
    s'.remainsIn size + 1 ≤ s.remainsIn size + 2 * label.lapses.toNat := by
  have workers {index : Nat} {worker : Worker T} (found : s.workers[index]? = some worker)
      (worker' : Worker T) :=
    tally_moved (Worker.remains size) found worker'
  have calls {index : Nat} {call : Call} (found : s.calls[index]? = some call) (call' : Call) :=
    tally_moved (Call.remains size) found call'
  have woken := remains_wakeAll size s.workers
  have steps := steps_of_step step
  unfold remainsIn
  cases steps with
  | runSpawns | runNotifies | drains => cases uncalled
  | notifiesOne found waits =>
      have moved := workers waits (.woken false)
      have called := calls found .returned
      simp [Worker.remains, Call.remains, Label.lapses] at moved called ⊢
      omega
  | notifiesNone found =>
      have called := calls found .returned
      simp [Call.remains, Label.lapses] at called ⊢
      omega
  | announces found =>
      have called := calls found .spawn
      simp [Call.remains, Label.lapses] at called ⊢
      omega
  | spawns found =>
      have called := calls found .returned
      simp [Worker.remains, Call.remains, Label.lapses] at called ⊢
      omega
  | fails found =>
      have called := calls found .failed
      simp [Call.remains, Label.lapses] at called ⊢
      omega
  | notifiesAll found =>
      have called := calls found .returned
      simp [Call.remains, Label.lapses] at called ⊢
      omega
  | @locks index panics worker worker' state found locks =>
      have moved := workers found worker'
      obtain ⟨remains, _⟩ := remains_of_locks size locks
      simp only [Label.lapses, Bool.toNat_false]
      omega
  | @workerAnnounces index fails task found =>
      have moved := tally_moved (Worker.remains size) (found_wake found) (.spawning task)
      simp [Worker.remains, Worker.wake, Label.lapses] at moved ⊢
      omega
  | @workerSpawns index task found =>
      have moved := workers found (.running task)
      simp [Worker.remains, Label.lapses] at moved ⊢
      omega
  | @workerFails index task found =>
      have moved := workers found (.failed task)
      simp [Worker.remains, Label.lapses] at moved ⊢
      omega
  | @wakes index timedOut found =>
      have moved := workers found (.woken timedOut)
      simp [Worker.remains, Label.lapses] at moved ⊢
      omega

theorem spends_remains (config : Config) :
    Spends (step config) (fun _ => True) (fun label : Label T => !label.calls) (fun _ => true)
      Label.lapses remains 2 := by
  intro s label s' _ quiet step
  have uncalled : label.calls = false := by simpa using quiet
  have smaller := remainsIn_mono (size_step uncalled step) s'
  have bounded : s.workers.length ≤ s.size := by
    unfold size
    omega
  have paid := remainsIn_step bounded uncalled step
  refine ⟨trivial, ?_⟩
  unfold remains
  simp only [Bool.toNat_true]
  omega

/-! ## Rest -/

/-- No thread has anything to do. -/
def Rests (config : Config) (s : ThreadPool T) : Prop :=
  Resting (step config) Label.goesOn s

/-- A thread that does not wait goes on. -/
theorem step_of_live {index : Nat} {worker : Worker T} (config : Config)
    (found : s.workers[index]? = some worker) (isLive : worker.live = true)
    (notWaiting : worker ≠ .waiting) :
    ∃ label s', label.goesOn = true ∧ ThreadPool.step config s label = some s' := by
  cases worker with
  | waiting => exact absurd rfl notWaiting
  | exited | failed => cases isLive
  | starting | woken | running =>
      exact ⟨.lock index false, _, rfl, by simp [ThreadPool.step, lockStep, found, State.lock]; rfl⟩
  | announcing | spawning =>
      exact ⟨.spawn index false, _, rfl, by simp [ThreadPool.step, spawnStep, found]; rfl⟩

/-- At rest all calls have returned, and every worker waits or has left. -/
theorem rests_iff : s.Rests config ↔
    (∀ call ∈ s.calls, call.done = true) ∧
      ∀ worker ∈ s.workers, worker = .waiting ∨ worker.live = false := by
  constructor
  · intro rests
    constructor
    · intro call isCall
      obtain ⟨index, found⟩ := List.getElem?_of_mem isCall
      cases call with
      | returned | failed => rfl
      | announce | spawn | notifyAll =>
          have stuck := rests (.call index none false) rfl
          simp [ThreadPool.step, callStep, found] at stuck
      | notifyOne =>
          by_cases waits : .waiting ∈ s.workers
          · obtain ⟨target, isTarget⟩ := List.getElem?_of_mem waits
            have stuck := rests (.call index (some target) false) rfl
            simp [ThreadPool.step, callStep, found, notifyOne, isTarget] at stuck
          · have stuck := rests (.call index none false) rfl
            simp only [ThreadPool.step, callStep, found, notifyOne] at stuck
            split_ifs at stuck with waited
            · obtain ⟨worker, isWorker, isWaiting⟩ := List.any_eq_true.mp waited
              cases worker <;> simp at isWaiting
              exact absurd isWorker waits
            · cases stuck
    · intro worker isWorker
      obtain ⟨index, found⟩ := List.getElem?_of_mem isWorker
      by_contra goes
      obtain ⟨notWaiting, isLive⟩ := not_or.mp goes
      obtain ⟨label, s', goesOn, step⟩ :=
        step_of_live config found (by simpa using isLive) notWaiting
      rw [rests label goesOn] at step
      cases step
  · rintro ⟨calls, workers⟩ label goes
    by_contra moves
    obtain ⟨s', step⟩ := Option.ne_none_iff_exists'.mp moves
    have returned {index : Nat} {call : Call} (found : s.calls[index]? = some call) :=
      calls call (List.mem_of_getElem? found)
    have still {index : Nat} {worker : Worker T} (found : s.workers[index]? = some worker) :=
      workers worker (List.mem_of_getElem? found)
    have steps := steps_of_step step
    cases steps with
    | runSpawns | runNotifies | drains | wakes => cases goes
    | notifiesOne found | notifiesNone found | announces found | spawns found | fails found
    | notifiesAll found =>
        have isDone := returned found
        cases isDone
    | locks found locks =>
        have isStill := still found
        cases locks <;> simp [Worker.live] at isStill
    | workerAnnounces found | workerSpawns found | workerFails found =>
        have isStill := still found
        simp [Worker.live] at isStill

/-! ## Who is told of a task -/

end ThreadPool

/-- The worker has been woken for a task, or is to wake all. -/
def Worker.told : Worker T → Nat
  | woken false | announcing _ => 1
  | _ => 0

/-- The call is to wake a worker or all. -/
def Call.tells : Call → Nat
  | notifyOne | announce => 1
  | _ => 0

namespace ThreadPool

variable {config : Config} {s s' : ThreadPool T} {label : Label T}

/-- How many tasks somebody has been told of, or is to be. -/
def told (s : ThreadPool T) : Nat :=
  tally Worker.told s.workers + tally Call.tells s.calls

/-- Where a worker waits, it is to be told of a drain that has begun, and of each
task of an active pool somebody has been told or is to be. -/
structure Told (s : ThreadPool T) : Prop where
  closed : s.state.phase ≠ .active → .waiting ∈ s.workers → .notifyAll ∈ s.calls
  queued : s.state.phase = .active → .waiting ∈ s.workers →
    s.state.queue.length ≤ s.told

theorem not_waiting_wakeAll (workers : List (Worker T)) :
    .waiting ∉ workers.map Worker.wake := by
  intro waits
  obtain ⟨worker, _, isWaiting⟩ := List.mem_map.mp waits
  cases worker <;> simp [Worker.wake] at isWaiting

/-- Nobody waits once all have been woken. -/
theorem Told.of_unwaited (unwaited : .waiting ∉ s.workers) : s.Told where
  closed _ waits := absurd waits unwaited
  queued _ waits := absurd waits unwaited

theorem Told.new (config : Config) : (ThreadPool.new config : ThreadPool T).Told := by
  apply Told.of_unwaited
  intro waits
  cases List.eq_of_mem_replicate waits

/-- In an active pool a critical section empties the queue, or its worker goes on
and takes a task for each that it has been told of. -/
theorem told_of_turns {state state' : State T} {worker : Worker T}
    (turns : State.Turns config state state' worker) (isActive : state.phase = .active) :
    state'.queue = [] ∨ worker ≠ .waiting ∧ state'.queue.length + 1 = state.queue.length := by
  cases turns with
  | shut isShut => simp [isActive] at isShut
  | drained isDrain => simp [isActive] at isDrain
  | spawns task rest _ isQueue | runs task rest _ isQueue =>
      exact .inr ⟨by simp, by simp [isQueue, State.idleDown, State.threadUp]⟩
  | waits _ isEmpty => exact .inl isEmpty

theorem told_of_locks {panics : Bool} {state state' : State T} {worker worker' : Worker T}
    (locks : State.Locks config panics state worker state' worker')
    (isActive : state.phase = .active) :
    state'.queue = [] ∨
      worker' ≠ .waiting ∧ state'.queue.length + worker.told ≤ state.queue.length := by
  have atMost (worker : Worker T) : worker.told ≤ 1 := by
    cases worker with
    | woken timedOut => cases timedOut <;> simp [Worker.told]
    | starting | waiting | announcing | spawning | running | exited | failed =>
        simp [Worker.told]
  have turned {state state' : State T} {worker' : Worker T} (worker : Worker T)
      (turns : State.Turns config state state' worker') (isActive : state.phase = .active) :
      state'.queue = [] ∨
        worker' ≠ .waiting ∧ state'.queue.length + worker.told ≤ state.queue.length := by
    have told := atMost worker
    rcases told_of_turns turns isActive with isEmpty | ⟨notWaiting, takes⟩
    · exact .inl isEmpty
    · exact .inr ⟨notWaiting, by omega⟩
  cases locks with
  | starts turns | wakes turns => exact turned _ turns isActive
  | @ends task _ _ turns =>
      have ended := turned (.running task) turns isActive
      exact ended
  | timesOut | unwinds => exact .inr ⟨by simp, le_rfl⟩

/-- A worker waits in an active pool only. -/
theorem active_of_locks {panics : Bool} {state state' : State T} {worker : Worker T}
    (locks : State.Locks config panics state worker state' .waiting) : state.phase = .active := by
  cases locks with
  | starts turns | wakes turns | ends turns =>
      cases turns with
      | waits isActive => exact isActive

/-- A step in which nobody begins to wait, no drain is told, and each task that is
new to the queue is. -/
theorem Told.keep (told : s.Told) (samePhase : s'.state.phase = s.state.phase)
    (waits : .waiting ∈ s'.workers → .waiting ∈ s.workers)
    (calls : .notifyAll ∈ s.calls → .notifyAll ∈ s'.calls)
    (tells : s'.state.queue.length + s.told ≤ s.state.queue.length + s'.told) : s'.Told where
  closed isClosed waits' := calls (told.closed (samePhase ▸ isClosed) (waits waits'))
  queued isActive waits' := by
    have before := told.queued (samePhase ▸ isActive) (waits waits')
    omega

/-- A move of a worker that does not begin to wait. -/
theorem waiting_of_moved {workers : List (Worker T)} {index : Nat} {worker : Worker T}
    (other : worker ≠ .waiting) (waits : .waiting ∈ workers.set index worker) :
    .waiting ∈ workers := by
  rcases List.mem_or_eq_of_mem_set waits with earlier | isWaiting
  · exact earlier
  · exact absurd isWaiting.symm other

/-- A move of a call that is not to tell of a drain. -/
theorem notifyAll_moved {calls : List Call} {index : Nat} {call : Call}
    (found : calls[index]? = some call) (target : Call) (other : call ≠ .notifyAll)
    (isCall : .notifyAll ∈ calls) : .notifyAll ∈ calls.set index target := by
  obtain ⟨place, isPlace⟩ := List.getElem?_of_mem isCall
  have apart : index ≠ place := by
    rintro rfl
    exact other (Option.some.inj (found.symm.trans isPlace))
  apply List.mem_of_getElem?
  rw [List.getElem?_set_ne apart]
  exact isPlace

theorem Told.step (told : s.Told) (step : ThreadPool.step config s label = some s') : s'.Told := by
  have calls {index : Nat} {call : Call} (found : s.calls[index]? = some call) (call' : Call) :=
    tally_moved Call.tells found call'
  have workers {index : Nat} {worker : Worker T} (found : s.workers[index]? = some worker)
      (worker' : Worker T) :=
    tally_moved Worker.told found worker'
  have steps := steps_of_step step
  cases steps with
  | runSpawns | runNotifies =>
      refine told.keep rfl id (List.mem_append_left _) ?_
      simp [ThreadPool.told, State.threadUp, Call.tells]
      omega
  | drains shutdown =>
      refine ⟨fun _ _ => List.mem_append_right _ (List.mem_singleton_self _), ?_⟩
      intro isActive
      cases shutdown <;> cases isActive
  | notifiesOne found waits =>
      have moved := workers waits (.woken false)
      have called := calls found .returned
      refine told.keep rfl (waiting_of_moved (by simp)) (notifyAll_moved found _ (by simp)) ?_
      simp [ThreadPool.told, Worker.told, Call.tells] at moved called ⊢
      omega
  | notifiesNone _ unwaited => exact Told.of_unwaited unwaited
  | announces | notifiesAll => exact Told.of_unwaited (not_waiting_wakeAll _)
  | spawns found =>
      have called := calls found .returned
      refine told.keep rfl (by simp) (notifyAll_moved found _ (by simp)) ?_
      simp [ThreadPool.told, Worker.told, Call.tells] at called ⊢
      omega
  | fails found =>
      have called := calls found .failed
      refine told.keep rfl id (notifyAll_moved found _ (by simp)) ?_
      simp [ThreadPool.told, Call.tells] at called ⊢
      omega
  | @locks index panics worker worker' state found locks =>
      have moved := workers found worker'
      by_cases isActive : s.state.phase = .active
      · rcases told_of_locks locks isActive with isEmpty | ⟨notWaiting, takes⟩
        · exact ⟨fun isClosed => absurd (locks.samePhase.trans isActive) isClosed,
            by simp [isEmpty]⟩
        · refine told.keep locks.samePhase (waiting_of_moved notWaiting) id ?_
          simp only [ThreadPool.told]
          omega
      · have notWaiting : worker' ≠ .waiting := by
          rintro rfl
          exact isActive (active_of_locks locks)
        refine ⟨fun _ waits => told.closed isActive (waiting_of_moved notWaiting waits), ?_⟩
        intro isActive'
        exact absurd (locks.samePhase.symm.trans isActive') isActive
  | workerAnnounces found =>
      apply Told.of_unwaited
      intro waits
      exact not_waiting_wakeAll _ (waiting_of_moved (by simp) waits)
  | @workerSpawns index task found =>
      have moved := workers found (.running task)
      refine told.keep rfl (fun waits => ?_) id ?_
      · have earlier : .waiting ∈ s.workers.set index (.running task) := by simpa using waits
        exact waiting_of_moved (by simp) earlier
      · simp [ThreadPool.told, Worker.told] at moved ⊢
        omega
  | @workerFails index task found =>
      have moved := workers found (.failed task)
      refine told.keep rfl (waiting_of_moved (by simp)) id ?_
      simp [ThreadPool.told, Worker.told] at moved ⊢
      omega
  | @wakes index timedOut found =>
      have moved := workers found (.woken timedOut)
      refine told.keep rfl (waiting_of_moved (by simp)) id ?_
      simp [ThreadPool.told, Worker.told] at moved ⊢
      omega

theorem Told.of_reachable
    (reachable : Reachable (ThreadPool.step config) (ThreadPool.new config) s) : s.Told := by
  apply reachable.invariant (Told.new config)
  intro before label after told _ step
  exact told.step step

/-- What is left of a pool that nothing moves any more. -/
structure Settled (s : ThreadPool T) : Prop where
  calls : ∀ call ∈ s.calls, call.done = true
  workers : ∀ worker ∈ s.workers, worker = .waiting ∨ worker.live = false
  /-- Nobody waits for a pool that is closed, or over a task. -/
  left : s.state.phase ≠ .active ∨ s.state.queue ≠ [] →
    ∀ worker ∈ s.workers, worker.live = false
  /-- Each task has been executed once, or dropped by a thread that could not
  spawn another, or is still in the queue. -/
  tasks : (s.executed ++ s.workers.flatMap Worker.unwound ++ s.state.queue).Perm s.accepted

/-- At rest nobody has been told of a task. -/
theorem untold_of_still (calls : ∀ call ∈ s.calls, call.done = true)
    (workers : ∀ worker ∈ s.workers, worker = .waiting ∨ worker.live = false) : s.told = 0 := by
  by_contra some
  have some : 0 < tally Worker.told s.workers + tally Call.tells s.calls := Nat.pos_of_ne_zero some
  rcases Nat.add_pos_iff_pos_or_pos.mp some with some | some
  · obtain ⟨worker, isWorker, told⟩ := exists_of_tally_pos some
    rcases workers worker isWorker with rfl | gone
    · simp [Worker.told] at told
    · cases worker <;> simp [Worker.told, Worker.live] at told gone
  · obtain ⟨call, isCall, tells⟩ := exists_of_tally_pos some
    have isDone := calls call isCall
    cases call <;> simp [Call.tells, Call.done] at tells isDone

/-- Nor is a task with a worker, unless its thread has unwound. -/
theorem Ledger.perm_of_still [DecidableEq T] (ledger : s.Ledger)
    (workers : ∀ worker ∈ s.workers, worker = .waiting ∨ worker.live = false) :
    (s.executed ++ s.workers.flatMap Worker.unwound ++ s.state.queue).Perm s.accepted := by
  rw [List.perm_iff_count]
  intro task
  have balance := ledger task
  have unwound : heldCount task s.workers = (s.workers.flatMap Worker.unwound).count task := by
    rw [List.count_flatMap]
    refine congrArg List.sum (List.map_congr_left fun worker isWorker => ?_)
    rcases workers worker isWorker with rfl | gone
    · rfl
    · cases worker <;> first | rfl | cases gone
  rw [unwound] at balance
  simp only [List.count_append]
  omega

theorem Told.settled (told : s.Told) [DecidableEq T] (ledger : s.Ledger) (rests : s.Rests config) :
    s.Settled := by
  obtain ⟨calls, workers⟩ := rests_iff.mp rests
  refine ⟨calls, workers, fun left worker isWorker => ?_, ledger.perm_of_still workers⟩
  rcases workers worker isWorker with rfl | gone
  · by_cases isActive : s.state.phase = .active
    · have queued := told.queued isActive isWorker
      rw [untold_of_still calls workers] at queued
      have isEmpty : s.state.queue = [] := List.length_eq_zero_iff.mp (Nat.le_zero.mp queued)
      rcases left with isClosed | isQueue
      · exact absurd isActive isClosed
      · exact absurd isEmpty isQueue
    · have isDone := calls _ (told.closed isActive isWorker)
      cases isDone
  · exact gone

end ThreadPool

/-- Whatever has happened to a pool, with no more calls it settles: it has only so
many steps left, and two more for each wait that lapses.  Where nobody can move
any more all calls have returned, and no thread is left in a pool that is closed
or has tasks in its queue. -/
theorem thread_pool_settles {config : Config} {s s' : ThreadPool T} {labels : List (Label T)}
    (reachable : Reachable (ThreadPool.step config) (ThreadPool.new config) s)
    (uncalled : ∀ label ∈ labels, label.calls = false)
    (ran : runFrom (ThreadPool.step config) s labels = some s') :
    labels.length + s'.remains ≤ s.remains + 2 * labels.countP Label.lapses ∧
      (s'.Rests config → s'.Settled) := by
  classical
  have reached : Reachable (ThreadPool.step config) (ThreadPool.new config) s' :=
    reachable.trans (reachable_of_runFrom ran)
  constructor
  · have paid := (ThreadPool.spends_remains config).countP_add_le trivial (by simpa using uncalled)
      ran
    simpa using paid
  · exact (ThreadPool.Told.of_reachable reached).settled (ThreadPool.ledger_of_reachable reached)

/-- The only worker times out, stays, and leaves with a panic; the next task is
still in the queue. -/
theorem thread_pool_settles_of_panic : ∃ (s s' : ThreadPool Nat) (labels : List (Label Nat)),
    labels.countP Label.lapses = 1 ∧ s'.state.queue = [8] ∧
      labels.length + s'.remains ≤ s.remains + 2 * labels.countP Label.lapses ∧ s'.Settled := by
  obtain ⟨s, began, s', ran, isQueue, calls, workers⟩ : ∃ s ∈
      runFrom (ThreadPool.step { minCount := 1, maxCount := some 1 })
        (ThreadPool.new { minCount := 1, maxCount := some 1 }) [.lock 0 false, .run 7, .run 8],
      ∃ s' ∈ runFrom (ThreadPool.step { minCount := 1, maxCount := some 1 }) s
        [.wake 0 true, .call 0 none false, .call 1 none false, .lock 0 false, .lock 0 true],
      s'.state.queue = [8] ∧ (∀ call ∈ s'.calls, call.done = true) ∧
        ∀ worker ∈ s'.workers, worker = .waiting ∨ worker.live = false := by
    decide +kernel
  have settles := thread_pool_settles (reachable_of_runFrom began) (by decide) ran
  exact ⟨s, s', _, rfl, isQueue, settles.1, settles.2 (ThreadPool.rests_iff.mpr ⟨calls, workers⟩)⟩

/-! ## Every task is run -/

namespace ThreadPool

variable {config : Config} {s s' : ThreadPool T} {label : Label T}

/-- Every spawn succeeds, the pool is not shut down, and the last worker leaves no
task. -/
def faithful (config : Config) (s : ThreadPool T) (label : Label T) : Bool :=
  spawnsSucceed label && !label.shuts && !s.abandons config label

/-- A pool with a thread for its tasks. -/
structure Staffed (s : ThreadPool T) : Prop where
  balanced : s.Balanced
  unfailed : ∀ worker ∈ s.workers, worker.unwound = []
  notShut : s.state.phase ≠ .shutdown
  manned : s.state.queue ≠ [] → 0 < s.state.threadCount

theorem Staffed.new (config : Config) : (ThreadPool.new config : ThreadPool T).Staffed where
  balanced := Balanced.new config
  unfailed worker isWorker := by
    rw [List.eq_of_mem_replicate isWorker]
    rfl
  notShut := by simp [ThreadPool.new]
  manned isQueue := absurd rfl isQueue

theorem Staffed.step (staffed : s.Staffed) (careful : faithful config s label = true)
    (step : ThreadPool.step config s label = some s') : s'.Staffed := by
  simp only [faithful, Bool.and_eq_true, Bool.not_eq_true'] at careful
  obtain ⟨⟨succeeds, unshut⟩, kept⟩ := careful
  refine ⟨staffed.balanced.step succeeds step, ?_, ?_, ?_⟩
  · apply workers_step staffed.unfailed _ _ _ step
    · intro worker _ unfailed
      cases worker <;> first | rfl | exact absurd rfl (unfailed _)
    · intro _
      rfl
    · intro fails
      simp [succeeds] at fails
  · have steps := steps_of_step step
    cases steps with
    | drains shutdown =>
        cases shutdown with
        | true => cases unshut
        | false => simp [startDrain]
    | locks _ locks => exact locks.samePhase ▸ staffed.notShut
    | runSpawns | runNotifies | notifiesOne | notifiesNone | announces | spawns | fails
    | notifiesAll | workerAnnounces | workerSpawns | workerFails | wakes => exact staffed.notShut
  · exact manned_step staffed.balanced staffed.notShut staffed.manned kept step

theorem Staffed.of_reachable
    (reachable : ReachableUnder (ThreadPool.step config)
      (fun s label => faithful config s label = true) (ThreadPool.new config) s) : s.Staffed := by
  apply reachable.invariant (Staffed.new config)
  intro before label after staffed careful step
  exact staffed.step careful step

/-- With a thread left, a pool that has settled has run everything. -/
theorem Staffed.settled (staffed : s.Staffed) (settled : s.Settled) :
    s.state.queue = [] ∧ s.executed.Perm s.accepted := by
  have isEmpty : s.state.queue = [] := by
    by_contra isQueue
    have gone := settled.left (.inr isQueue)
    have isThread := staffed.manned isQueue
    rw [staffed.balanced.threads] at isThread
    rcases Nat.add_pos_iff_pos_or_pos.mp isThread with isThread | isThread
    · obtain ⟨worker, isWorker, threads⟩ := exists_of_tally_pos isThread
      have isGone := gone worker isWorker
      cases worker <;> simp [Worker.threads, Worker.live, Worker.spawns] at threads isGone
    · obtain ⟨call, isCall, threads⟩ := exists_of_tally_pos isThread
      have isDone := settled.calls call isCall
      cases call <;> simp [Call.threads, Call.done] at threads isDone
  have tasks := settled.tasks
  have unwound : s.workers.flatMap Worker.unwound = [] :=
    List.flatMap_eq_nil_iff.mpr staffed.unfailed
  rw [unwound, isEmpty, List.append_nil, List.append_nil] at tasks
  exact ⟨isEmpty, tasks⟩

end ThreadPool

/-- While every spawn succeeds and the last worker never leaves a task, a pool that
is not shut down has run every task once when it comes to rest, whatever panics,
times out or drains meanwhile. -/
theorem thread_pool_runs_all {config : Config} {s : ThreadPool T}
    (reachable : ReachableUnder (ThreadPool.step config)
      (fun s label => s.faithful config label = true) (ThreadPool.new config) s)
    (rests : s.Rests config) : s.state.queue = [] ∧ s.executed.Perm s.accepted := by
  classical
  have told := ThreadPool.Told.of_reachable reachable.reachable
  have settled := told.settled (ThreadPool.ledger_of_reachable reachable.reachable) rests
  exact (ThreadPool.Staffed.of_reachable reachable).settled settled

/-- The first task panics, another thread runs the second, and a drain ends the
threads that are left. -/
theorem thread_pool_runs_all_of_panic : ∃ s : ThreadPool Nat, s.accepted = [7, 8] ∧
    s.live = 0 ∧ s.executed.Perm s.accepted := by
  obtain ⟨s, ran, accepted, gone, calls, workers⟩ : ∃ s ∈
      runFrom (guarded (ThreadPool.step { minCount := 2, maxCount := some 2 })
          (ThreadPool.faithful { minCount := 2, maxCount := some 2 }))
        (ThreadPool.new { minCount := 2, maxCount := some 2 })
        [.lock 1 false, .run 7, .call 0 (some 1) false, .lock 0 false, .run 8, .call 1 none false,
          .lock 0 true, .lock 1 false, .spawn 1 false, .spawn 1 false, .lock 2 false,
          .lock 1 false, .startDrain false, .call 2 none false, .lock 1 false, .lock 2 false],
      s.accepted = [7, 8] ∧ s.live = 0 ∧ (∀ call ∈ s.calls, call.done = true) ∧
        ∀ worker ∈ s.workers, worker = .waiting ∨ worker.live = false := by
    decide +kernel
  have rests : s.Rests { minCount := 2, maxCount := some 2 } :=
    ThreadPool.rests_iff.mpr ⟨calls, workers⟩
  exact ⟨s, accepted, gone, (thread_pool_runs_all (reachableUnder_of_runFrom ran) rests).2⟩

end Suspend.Pool
