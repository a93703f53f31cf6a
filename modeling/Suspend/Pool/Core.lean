import Suspend.Transition.Core
import Suspend.Transition.Parties

/-!
# The thread pool

Workers and callers share one mutex.  Every critical section is one step of the
pool: it reads and changes the state as a whole, and says where its worker or
its caller goes on.  Outside the mutex there are only the notifications, the
spawning of a thread, the task a worker runs and the waits, which return on a
notification, spuriously or with a time-out.
-/

namespace Suspend.Pool

open Suspend.Transition

universe u

/-! ## The state under the mutex -/

/-- `ThreadPoolConfig`, with the time-out in milliseconds. -/
structure Config where
  idleTimeout : Option Nat := some 500
  minCount : Nat
  maxCount : Option Nat := none
  deriving DecidableEq, Repr

/-- `ThreadPoolPhase`. -/
inductive Phase where
  | active
  | drain
  | shutdown
  deriving DecidableEq, Repr

/-- `ThreadPoolState`. -/
structure State (T : Type u) where
  idleCount : Nat := 0
  panicCount : Nat := 0
  threadCount : Nat := 0
  queue : List T := []
  phase : Phase := .active
  /-- Some counter was taken below zero. -/
  underflowed : Bool := false
  deriving DecidableEq, Repr

/-- Where a worker is outside the mutex. -/
inductive Worker (T : Type u) where
  /-- Spawned, and not yet in its loop. -/
  | starting
  | waiting
  /-- Back from a wait. -/
  | woken (timedOut : Bool)
  /-- About to notify all for the thread that `maybe_spawn` has decided on. -/
  | announcing (task : T)
  | spawning (task : T)
  | running (task : T)
  | exited
  /-- `maybe_spawn` has panicked. -/
  | failed (task : T)
  deriving DecidableEq, Repr

variable {T : Type u}

namespace State

def idleDown (s : State T) : State T :=
  { s with
    idleCount := s.idleCount - 1
    underflowed := s.underflowed || s.idleCount = 0 }

def threadDown (s : State T) : State T :=
  { s with
    threadCount := s.threadCount - 1
    underflowed := s.underflowed || s.threadCount = 0 }

/-- The tail of `run_thread`. -/
def leave (s : State T) : State T :=
  s.idleDown.threadDown

/-- One more thread, idle until it is in its loop. -/
def threadUp (s : State T) : State T :=
  { s with idleCount := s.idleCount + 1, threadCount := s.threadCount + 1 }

/-- The part of `maybe_spawn` under the mutex; the result says whether a thread
is to be spawned. -/
def maybeSpawn (config : Config) (s : State T) : State T × Bool :=
  if s.idleCount = 0 ∨ s.idleCount * 5 < s.queue.length then
    if s.threadCount = 0 ∨ config.maxCount.all (s.threadCount < ·) then (s.threadUp, true)
    else (s, false)
  else (s, false)

/-- The loop of `run_thread`, from its head to where it gives the mutex up. -/
def turn (config : Config) (s : State T) : State T × Worker T :=
  if s.phase = .shutdown then (s.leave, .exited)
  else
    match s.queue with
    | task :: rest =>
        match ({ s with queue := rest }.idleDown).maybeSpawn config with
        | (s, true) => (s, .announcing task)
        | (s, false) => (s, .running task)
    | [] => if s.phase = .drain then (s.leave, .exited) else (s, .waiting)

/-- The critical section of `run_thread` that begins where `worker` is; a task
that was running has ended, in a panic or not. -/
def lock (config : Config) (panics : Bool) (s : State T) : Worker T → Option (State T × Worker T)
  | .starting => some (s.turn config)
  | .woken timedOut =>
      some (if timedOut ∧ s.threadCount > config.minCount then (s.leave, .exited)
        else s.turn config)
  | .running _ =>
      let s := { s with idleCount := s.idleCount + 1 }
      some (if panics then ({ s with panicCount := s.panicCount + 1 }.leave, .exited)
        else s.turn config)
  | _ => none

/-! ### What a critical section can do -/

variable {config : Config} {s s' : State T} {worker worker' : Worker T}

theorem maybeSpawn_cases (config : Config) (s : State T) :
    s.maybeSpawn config = (s.threadUp, true) ∧
        (s.threadCount = 0 ∨ config.maxCount.all (s.threadCount < ·) = true) ∨
      s.maybeSpawn config = (s, false) ∧ (0 < s.idleCount ∨ 0 < s.threadCount) := by
  unfold maybeSpawn
  split_ifs with few allowed
  · exact .inl ⟨rfl, allowed⟩
  · refine .inr ⟨rfl, .inr ?_⟩
    exact Nat.pos_of_ne_zero fun none => allowed (.inl none)
  · refine .inr ⟨rfl, .inl ?_⟩
    exact Nat.pos_of_ne_zero fun none => few (.inl none)

/-- Where the loop of `run_thread` gives the mutex up. -/
inductive Turns (config : Config) (s : State T) : State T → Worker T → Prop
  | shut (isShut : s.phase = .shutdown) : Turns config s s.leave .exited
  | spawns (task : T) (rest : List T) (notShut : s.phase ≠ .shutdown)
    (isQueue : s.queue = task :: rest)
      (allowed : s.threadCount = 0 ∨ config.maxCount.all (s.threadCount < ·) = true) :
      Turns config s { s with queue := rest }.idleDown.threadUp (.announcing task)
  | runs (task : T) (rest : List T) (notShut : s.phase ≠ .shutdown)
    (isQueue : s.queue = task :: rest) :
      Turns config s { s with queue := rest }.idleDown (.running task)
  | drained (isDrain : s.phase = .drain) (isQueue : s.queue = []) : Turns config s s.leave .exited
  | waits (isActive : s.phase = .active) (isQueue : s.queue = []) : Turns config s s .waiting

theorem turns (config : Config) (s : State T) :
    Turns config s (s.turn config).1 (s.turn config).2 := by
  unfold turn
  by_cases isShut : s.phase = .shutdown
  · rw [if_pos isShut]
    exact .shut isShut
  · rw [if_neg isShut]
    cases isQueue : s.queue with
    | nil =>
        by_cases isDrain : s.phase = .drain
        · simp only [if_pos isDrain]
          exact .drained isDrain isQueue
        · simp only [if_neg isDrain]
          refine .waits ?_ isQueue
          cases isPhase : s.phase <;> simp_all
    | cons task rest =>
        rcases maybeSpawn_cases config { s with queue := rest }.idleDown with
          ⟨decides, allowed⟩ | ⟨decides, _⟩
        · simp only [decides]
          exact .spawns task rest isShut isQueue allowed
        · simp only [decides]
          exact .runs task rest isShut isQueue

/-- The critical sections of a worker. -/
inductive Locks (config : Config) (panics : Bool) (s : State T) :
    Worker T → State T → Worker T → Prop
  | starts {s' : State T} {worker' : Worker T} (turns : Turns config s s' worker') :
      Locks config panics s .starting s' worker'
  | wakes {timedOut : Bool} {s' : State T} {worker' : Worker T}
    (turns : Turns config s s' worker') :
      Locks config panics s (.woken timedOut) s' worker'
  | timesOut (surplus : config.minCount < s.threadCount) :
      Locks config panics s (.woken true) s.leave .exited
  | ends {task : T} {s' : State T} {worker' : Worker T}
      (turns : Turns config { s with idleCount := s.idleCount + 1 } s' worker') :
      Locks config panics s (.running task) s' worker'
  | unwinds {task : T} (isPanic : panics = true) :
      Locks config panics s (.running task)
        { s with idleCount := s.idleCount + 1, panicCount := s.panicCount + 1 }.leave .exited

theorem locks {panics : Bool} (step : s.lock config panics worker = some (s', worker')) :
    Locks config panics s worker s' worker' := by
  unfold lock at step
  split at step
  · obtain ⟨rfl, rfl⟩ := Prod.mk.inj (Option.some.inj step)
    exact .starts (turns config s)
  · rename_i timedOut
    by_cases leaves : timedOut ∧ s.threadCount > config.minCount
    · rw [if_pos leaves] at step
      obtain ⟨rfl, rfl⟩ := Prod.mk.inj (Option.some.inj step)
      obtain ⟨rfl, surplus⟩ := leaves
      exact .timesOut surplus
    · rw [if_neg leaves] at step
      obtain ⟨rfl, rfl⟩ := Prod.mk.inj (Option.some.inj step)
      exact .wakes (turns config s)
  · by_cases isPanic : panics = true
    · simp only [if_pos isPanic] at step
      obtain ⟨rfl, rfl⟩ := Prod.mk.inj (Option.some.inj step)
      exact .unwinds isPanic
    · simp only [if_neg isPanic] at step
      obtain ⟨rfl, rfl⟩ := Prod.mk.inj (Option.some.inj step)
      exact .ends (turns config _)
  · cases step

end State

/-! ## The pool -/

/-- What a call of `run_boxed` or `start_drain` has left to do after its critical
section. -/
inductive Call where
  | notifyOne
  | announce
  | spawn
  | notifyAll
  | returned
  /-- `maybe_spawn` has panicked. -/
  | failed
  deriving DecidableEq, Repr

/-- The pool, with the tasks accepted and executed so far. -/
structure ThreadPool (T : Type u) where
  state : State T := {}
  workers : List (Worker T) := []
  calls : List Call := []
  accepted : List T := []
  executed : List T := []
  deriving DecidableEq, Repr

/-- A critical section, or what a call or a worker does outside the mutex.
`target` is the waiter a `notify_one` wakes, if there is one. -/
inductive Label (T : Type u) where
  | run (task : T)
  | startDrain (shutdown : Bool)
  | call (index : Nat) (target : Option Nat) (fails : Bool)
  | lock (index : Nat) (panics : Bool)
  | spawn (index : Nat) (fails : Bool)
  | wake (index : Nat) (timedOut : Bool)
  deriving DecidableEq, Repr

namespace Worker

/-- `notify_all` for one worker. -/
def wake : Worker T → Worker T
  | waiting => woken false
  | worker => worker

/-- The task that a worker has run to its end by its next critical section. -/
def ended : Worker T → List T
  | running task => [task]
  | _ => []

end Worker

namespace ThreadPool

/-- `notify_one` wakes a waiter if there is one. -/
def notifyOne (target : Option Nat) (s : ThreadPool T) : Option (ThreadPool T) :=
  match target with
  | some index =>
      match s.workers[index]? with
      | some .waiting => some { s with workers := s.workers.set index (.woken false) }
      | _ => none
  | none => if s.workers.any fun worker => worker matches .waiting then none else some s

/-- What a call does outside the mutex. -/
def callStep (index : Nat) (target : Option Nat) (fails : Bool) (s : ThreadPool T) :
    Option (ThreadPool T) :=
  match s.calls[index]? with
  | some .notifyOne =>
      (s.notifyOne target).map fun s => { s with calls := s.calls.set index .returned }
  | some .announce =>
      some { s with workers := s.workers.map Worker.wake, calls := s.calls.set index .spawn }
  | some .spawn =>
      some (if fails then { s with calls := s.calls.set index .failed }
        else { s with
          workers := s.workers ++ [.starting], calls := s.calls.set index .returned })
  | some .notifyAll =>
      some { s with workers := s.workers.map Worker.wake, calls := s.calls.set index .returned }
  | _ => none

/-- What a worker does outside the mutex before it runs its task. -/
def spawnStep (index : Nat) (fails : Bool) (s : ThreadPool T) : Option (ThreadPool T) :=
  match s.workers[index]? with
  | some (.announcing task) =>
      some { s with workers := (s.workers.map Worker.wake).set index (.spawning task) }
  | some (.spawning task) =>
      some (if fails then { s with workers := s.workers.set index (.failed task) }
        else { s with workers := s.workers.set index (.running task) ++ [.starting] })
  | _ => none

/-- A critical section of a worker. -/
def lockStep (config : Config) (index : Nat) (panics : Bool) (s : ThreadPool T) :
    Option (ThreadPool T) :=
  match s.workers[index]? with
  | some worker =>
      (s.state.lock config panics worker).map fun (state, target) =>
        { s with
          state
          workers := s.workers.set index target
          executed := s.executed ++ worker.ended }
  | none => none

/-- A wait returns without a notification; it times out only where there is a
time-out. -/
def wakeStep (config : Config) (index : Nat) (timedOut : Bool) (s : ThreadPool T) :
    Option (ThreadPool T) :=
  match s.workers[index]? with
  | some .waiting =>
      if timedOut ∧ config.idleTimeout.isNone then none
      else some { s with workers := s.workers.set index (.woken timedOut) }
  | _ => none

/-- The critical section of `run_boxed`. -/
def run (config : Config) (task : T) (s : ThreadPool T) : ThreadPool T :=
  let (state, spawns) := { s.state with queue := s.state.queue ++ [task] }.maybeSpawn config
  { s with
    state
    calls := s.calls ++ [if spawns then .announce else .notifyOne]
    accepted := s.accepted ++ [task] }

/-- The critical section of `start_drain`. -/
def startDrain (shutdown : Bool) (s : ThreadPool T) : ThreadPool T :=
  { s with
    state := { s.state with phase := if shutdown then .shutdown else .drain }
    calls := s.calls ++ [.notifyAll] }

def step (config : Config) : Step (ThreadPool T) (Label T)
  | s, .run task => some (s.run config task)
  | s, .startDrain shutdown => some (s.startDrain shutdown)
  | s, .call index target fails => s.callStep index target fails
  | s, .lock index panics => s.lockStep config index panics
  | s, .spawn index fails => s.spawnStep index fails
  | s, .wake index timedOut => s.wakeStep config index timedOut

/-- `ThreadPool::new`, which starts `min_count` workers under the mutex. -/
def new (config : Config) : ThreadPool T where
  state := { idleCount := config.minCount, threadCount := config.minCount }
  workers := List.replicate config.minCount .starting

/-! ### What a step can do -/

/-- The steps of the pool, each with the state it leads to. -/
inductive Steps (config : Config) (s : ThreadPool T) : Label T → ThreadPool T → Prop
  /-- The call is to spawn a thread for its task. -/
  | runSpawns (task : T)
      (allowed : s.state.threadCount = 0 ∨ config.maxCount.all (s.state.threadCount < ·) = true) :
      Steps config s (.run task)
        { s with
          state := { s.state with queue := s.state.queue ++ [task] }.threadUp
          calls := s.calls ++ [.announce], accepted := s.accepted ++ [task] }
  /-- The call leaves its task to a thread that is there. -/
  | runNotifies (task : T) (served : 0 < s.state.idleCount ∨ 0 < s.state.threadCount) :
      Steps config s (.run task)
        { s with
          state := { s.state with queue := s.state.queue ++ [task] }
          calls := s.calls ++ [.notifyOne], accepted := s.accepted ++ [task] }
  | drains (shutdown : Bool) : Steps config s (.startDrain shutdown) (s.startDrain shutdown)
  | notifiesOne {index target : Nat} {fails : Bool} (found : s.calls[index]? = some .notifyOne)
      (waits : s.workers[target]? = some .waiting) :
      Steps config s (.call index (some target) fails)
        { s with
          workers := s.workers.set target (.woken false), calls := s.calls.set index .returned }
  | notifiesNone {index : Nat} {fails : Bool} (found : s.calls[index]? = some .notifyOne)
      (unwaited : .waiting ∉ s.workers) :
      Steps config s (.call index none fails) { s with calls := s.calls.set index .returned }
  | announces {index : Nat} {target : Option Nat} {fails : Bool}
      (found : s.calls[index]? = some .announce) :
      Steps config s (.call index target fails)
        { s with workers := s.workers.map Worker.wake, calls := s.calls.set index .spawn }
  | spawns {index : Nat} {target : Option Nat} (found : s.calls[index]? = some .spawn) :
      Steps config s (.call index target false)
        { s with workers := s.workers ++ [.starting], calls := s.calls.set index .returned }
  | fails {index : Nat} {target : Option Nat} (found : s.calls[index]? = some .spawn) :
      Steps config s (.call index target true) { s with calls := s.calls.set index .failed }
  | notifiesAll {index : Nat} {target : Option Nat} {fails : Bool}
      (found : s.calls[index]? = some .notifyAll) :
      Steps config s (.call index target fails)
        { s with workers := s.workers.map Worker.wake, calls := s.calls.set index .returned }
  | locks {index : Nat} {panics : Bool} {worker worker' : Worker T} {state : State T}
      (found : s.workers[index]? = some worker)
      (locks : State.Locks config panics s.state worker state worker') :
      Steps config s (.lock index panics)
        { s with
          state, workers := s.workers.set index worker', executed := s.executed ++ worker.ended }
  | workerAnnounces {index : Nat} {fails : Bool} {task : T}
      (found : s.workers[index]? = some (.announcing task)) :
      Steps config s (.spawn index fails)
        { s with workers := (s.workers.map Worker.wake).set index (.spawning task) }
  | workerSpawns {index : Nat} {task : T} (found : s.workers[index]? = some (.spawning task)) :
      Steps config s (.spawn index false)
        { s with workers := s.workers.set index (.running task) ++ [.starting] }
  | workerFails {index : Nat} {task : T} (found : s.workers[index]? = some (.spawning task)) :
      Steps config s (.spawn index true) { s with workers := s.workers.set index (.failed task) }
  | wakes {index : Nat} {timedOut : Bool} (found : s.workers[index]? = some .waiting)
      (timed : timedOut = true → config.idleTimeout.isSome = true) :
      Steps config s (.wake index timedOut)
        { s with workers := s.workers.set index (.woken timedOut) }

theorem steps_of_run (config : Config) (task : T) (s : ThreadPool T) :
    Steps config s (.run task) (s.run config task) := by
  rcases State.maybeSpawn_cases config { s.state with queue := s.state.queue ++ [task] } with
    ⟨decides, allowed⟩ | ⟨decides, served⟩
  · rw [run, decides]
    exact .runSpawns task allowed
  · rw [run, decides]
    exact .runNotifies task served

theorem steps_of_callStep {config : Config} {index : Nat} {target : Option Nat} {fails : Bool}
    {s s' : ThreadPool T} (step : s.callStep index target fails = some s') :
    Steps config s (.call index target fails) s' := by
  unfold callStep at step
  split at step
  · rename_i found
    unfold notifyOne at step
    split at step
    · rename_i worker
      split at step
      · rename_i waits
        obtain rfl := Option.some.inj step
        exact .notifiesOne found waits
      · cases step
    · split_ifs at step with waited
      · cases step
      · obtain rfl := Option.some.inj step
        refine .notifiesNone found fun waits => waited ?_
        rw [List.any_eq_true]
        exact ⟨_, waits, rfl⟩
  · rename_i found
    obtain rfl := Option.some.inj step
    exact .announces found
  · rename_i found
    cases fails with
    | true =>
        obtain rfl := Option.some.inj step
        exact .fails found
    | false =>
        obtain rfl := Option.some.inj step
        exact .spawns found
  · rename_i found
    obtain rfl := Option.some.inj step
    exact .notifiesAll found
  · cases step

theorem steps_of_step {config : Config} {label : Label T} {s s' : ThreadPool T}
    (step : step config s label = some s') : Steps config s label s' := by
  cases label with
  | run task =>
      obtain rfl := Option.some.inj step
      exact steps_of_run config task s
  | startDrain shutdown =>
      obtain rfl := Option.some.inj step
      exact .drains shutdown
  | call index target fails => exact steps_of_callStep step
  | lock index panics =>
      simp only [ThreadPool.step, lockStep] at step
      split at step
      · rename_i worker found
        obtain ⟨⟨state, worker'⟩, locked, rfl⟩ := Option.map_eq_some_iff.mp step
        exact .locks found (State.locks locked)
      · cases step
  | spawn index fails =>
      simp only [ThreadPool.step, spawnStep] at step
      split at step
      · rename_i task found
        obtain rfl := Option.some.inj step
        exact .workerAnnounces found
      · rename_i task found
        cases fails with
        | true =>
            obtain rfl := Option.some.inj step
            exact .workerFails found
        | false =>
            obtain rfl := Option.some.inj step
            exact .workerSpawns found
      · cases step
  | wake index timedOut =>
      simp only [ThreadPool.step, wakeStep] at step
      split at step
      · rename_i found
        split_ifs at step with untimed
        obtain rfl := Option.some.inj step
        refine .wakes found fun isTimed => ?_
        by_contra none
        exact untimed ⟨isTimed, by simpa using none⟩
      · cases step

end ThreadPool

end Suspend.Pool
