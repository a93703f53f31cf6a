import Suspend.Channel.System
import Suspend.Pool.Core
import Suspend.Shared.Scoped

/-!
# Scoped tasks

`ThreadPool::scoped` lends a value from its own stack to a function and to the
tasks that the function submits, and returns when it has the value back.  Every
task is a channel between a worker and its `JoinTask`, and its closure owns a
`Scope`, which is one handle of the value.  The pool decides when a worker takes
a task; what the worker does with it is spelled out here.
-/

namespace Suspend.Pool

open Suspend.Transition

universe u v

variable {T : Type u} {W : Type v}

/-! ## Tasks -/

/-- Where a task of the scope stands. -/
inductive Stage where
  /-- `Scope::run` has made the task and not yet given it to the pool. -/
  | made
  | queued
  /-- A worker has called the closure. -/
  | running
  /-- The task is being dropped unrun, and its closure with it. -/
  | cancelling
  /-- The closure has returned, panicked or been dropped. -/
  | parting (panicked : Bool)
  deriving DecidableEq, Repr

/-- The closure has been taken out of its task. -/
def Stage.begun : Stage → Bool
  | made | queued => false
  | _ => true

/-- The closure has been called, so that it may have used its `Scope`, given it
away or dropped it. -/
def Stage.called : Stage → Bool
  | running | parting _ => true
  | _ => false

/-- A task with the channel between its worker and its `JoinTask`. -/
structure ScopedTask (T : Type u) (W : Type v) where
  stage : Stage := .made
  channel : Channel.System T W := {}
  deriving DecidableEq, Repr

/-- The `write` of a result still owns it: it has not published it, or is to
take it back from a reader that has gone. -/
def owes (m : Channel.World T W) : Channel.WritePc T W → Bool
  | .load _ _ | .sync _ | .store _ _ _ | .fast _ | .lock _ | .takeBack => true
  | .wake _ => false
  | _ => !m.state.active

namespace ScopedTask

/-- The closure is gone, and so is the result from the worker: handed to the
`JoinTask` or dropped. -/
def settled (task : ScopedTask T W) : Bool :=
  match task.stage, task.channel.sender with
  | .parting _, .trySending pc => !owes task.channel.world pc
  | .parting _, _ => true
  | _, _ => false

/-- `TaskFn::run` has returned, or unwound. -/
def left (panics : Bool) (task : ScopedTask T W) : Bool :=
  match task.stage, task.channel.sender with
  | .parting panicked, .idle _ => panics = panicked
  | _, _ => false

end ScopedTask

/-! ## A call of `scoped` -/

/-- A call of `scoped` on a pool.  Handle 0 of the value is the `Scope` of the
function, and handle `index + 1` that of task `index`; the pool knows a task of
the scope by its index, and tasks of other callers as `none`. -/
structure Scope (T : Type u) (W : Type v) where
  pool : ThreadPool (Option Nat)
  share : Shared.Lender W := Shared.Lender.init.lend
  tasks : List (ScopedTask T W) := []
  /-- The function has returned or panicked, and `CollectOnDrop` is dropped. -/
  collecting : Bool := false
  /-- How many tasks were not settled when `scoped` returned. -/
  returned : Option Nat := none
  deriving DecidableEq, Repr

/-- What the function, the workers and the holders of the tasks do. -/
inductive ScopeLabel (T : Type u) (W : Type v) where
  | pool (label : Label (Option Nat))
  /-- `Scope::run` on the `Scope` of the handle, up to `run_boxed`. -/
  | submit (index : Nat)
  | enqueue (index : Nat)
  | start (index worker : Nat)
  | discard (index worker : Nat)
  | release (index : Nat)
  | handle (index : Nat)
  /-- The closure returns, panics or has been dropped. -/
  | finish (index : Nat) (result : Option T)
  | channel (index : Nat) (label : Channel.Label T W)
  /-- The function returns or panics. -/
  | leave
  | poll (waker : W)
  | owner (spurious : Bool)
  | returns
  deriving DecidableEq, Repr

namespace Scope

/-- How many tasks a worker or the queue still owns something of. -/
def unsettled (s : Scope T W) : Nat :=
  s.tasks.countP fun task => !task.settled

/-- The `Scope` of the handle is with somebody who can call it. -/
def usable (s : Scope T W) : Nat → Bool
  | 0 => true
  | index + 1 => s.tasks[index]?.any (·.stage.called)

/-- The `Scope` of the handle is no longer with a closure that waits. -/
def released (s : Scope T W) : Nat → Bool
  | 0 => true
  | index + 1 => s.tasks[index]?.any (·.stage.begun)

/-- What the pool does meanwhile.  A worker leaves a task of the scope when
`TaskFn::run` has returned; the pool is borrowed, so that nothing drains it. -/
def allows (s : Scope T W) : Label (Option Nat) → Bool
  | .run task => task.isNone
  | .startDrain _ => false
  | .lock index panics =>
      match s.pool.workers[index]? with
      | some (.running (some task)) => s.tasks[task]?.any (·.left panics)
      | _ => true
  | _ => true

/-- `Scope::run` up to `run_boxed`; the clone panics when there are too many. -/
def submit (index : Nat) (s : Scope T W) : Option (Scope T W) :=
  if s.usable index then
    (Shared.PinShared.step s.share (.clone index)).map fun share =>
      { s with
        share
        tasks := if s.share.inner.count > Shared.maxRefcount then s.tasks else s.tasks ++ [{}] }
  else none

/-- The critical section of `run_boxed`. -/
def enqueue (config : Config) (index : Nat) (s : Scope T W) : Option (Scope T W) :=
  match s.tasks[index]? with
  | some ⟨.made, channel⟩ =>
      some { s with
        pool := s.pool.run config (some index), tasks := s.tasks.set index ⟨.queued, channel⟩ }
  | _ => none

/-- A worker that has taken the task calls `TaskFn::run`. -/
def start (index worker : Nat) (s : Scope T W) : Option (Scope T W) :=
  match s.tasks[index]?, s.pool.workers[worker]? with
  | some ⟨.queued, channel⟩, some (.running (some task)) =>
      if task = index then some { s with tasks := s.tasks.set index ⟨.running, channel⟩ } else none
  | _, _ => none

/-- `maybe_spawn` has panicked in a worker that has taken the task. -/
def discard (index worker : Nat) (s : Scope T W) : Option (Scope T W) :=
  match s.tasks[index]?, s.pool.workers[worker]? with
  | some ⟨.queued, channel⟩, some (.failed (some task)) =>
      if task = index then
        some { s with tasks := s.tasks.set index ⟨.cancelling, channel⟩ }
      else none
  | _, _ => none

/-- The rest of `invoke_fn` begins, or that of `cancel_task`, whose closure has
dropped its `Scope`. -/
def finish (index : Nat) (result : Option T) (s : Scope T W) : Option (Scope T W) :=
  match s.tasks[index]? with
  | some ⟨.running, channel⟩ =>
      (Channel.System.step .taskFn channel (.send (.run result))).map fun channel =>
        { s with tasks := s.tasks.set index ⟨.parting result.isNone, channel⟩ }
  | some ⟨.cancelling, channel⟩ =>
      if s.share.handles[index + 1]? = some .gone then
        (Channel.System.step .taskFn channel (.send .drop)).map fun channel =>
          { s with tasks := s.tasks.set index ⟨.parting false, channel⟩ }
      else none
  | _ => none

/-- The worker parts with the result, and the `JoinTask` is polled, joined or
dropped. -/
def channelStep (index : Nat) (s : Scope T W) : Channel.Label T W → Option (Scope T W)
  | .send _ => none
  | label =>
      match s.tasks[index]? with
      | some task =>
          (Channel.System.step .taskFn task.channel label).map fun channel =>
            { s with tasks := s.tasks.set index { task with channel } }
      | none => none

/-- What happens to the value alone. -/
def shareStep (label : Shared.Label W) (s : Scope T W) : Option (Scope T W) :=
  (Shared.PinShared.step s.share label).map fun share => { s with share }

def step (config : Config) : Step (Scope T W) (ScopeLabel T W)
  | s, .pool label =>
      if s.allows label then
        (ThreadPool.step config s.pool label).map fun pool => { s with pool }
      else none
  | s, .submit index => s.submit index
  | s, .enqueue index => s.enqueue config index
  | s, .start index worker => s.start index worker
  | s, .discard index worker => s.discard index worker
  | s, .release index => if s.released index then s.shareStep (.release index) else none
  | s, .handle index => s.shareStep (.handle index)
  | s, .finish index result => s.finish index result
  | s, .channel index label => s.channelStep index label
  | s, .leave =>
      if s.collecting then none
      else ({ s with collecting := true } : Scope T W).shareStep .tryCollect
  | s, .poll waker =>
      if s.collecting && s.share.grants = [] then s.shareStep (.poll waker) else none
  | s, .owner spurious => if s.collecting then s.shareStep (.owner spurious) else none
  | s, .returns =>
      if s.collecting && s.share.grants ≠ [] && s.returned.isNone then
        some { s with returned := some s.unsettled }
      else none

/-- `scoped` has made its value and called the function, on a pool that others
use as well. -/
def enter (pool : ThreadPool (Option Nat)) : Scope T W where
  pool

/-! ## Workers that linger -/

/-- No worker is between giving up the `Scope` of a task and parting with its
closure and its result. -/
def attended (s : Scope T W) : Bool :=
  (s.tasks.zip s.share.handles.tail).all fun (task, handle) =>
    handle ≠ .gone || !task.stage.begun || task.settled

/-- `scoped` returns with no worker lingering on a task, and the count of the
scope does not overflow. -/
def orderly (s : Scope T W) : ScopeLabel T W → Bool
  | .submit index => s.share.uncrowded (.clone index)
  | .owner spurious => s.share.uncrowded (.owner spurious)
  | .returns => s.attended
  | _ => true

/-- A closure that waits has its `Scope`, and `scoped` has returned with every
task settled. -/
structure Covered (s : Scope T W) : Prop where
  pinned : s.share.Pinned
  each : s.share.handles.length = s.tasks.length + 1
  waits : ∀ index task, s.tasks[index]? = some task → task.stage.begun = false →
    s.share.handles[index + 1]? = some .held
  uncollected : s.collecting = false → s.share.grants = []
  outlived : ∀ unsettled, s.returned = some unsettled → unsettled = 0

variable {config : Config} {s s' : Scope T W} {label : ScopeLabel T W}

/-! ## Steps -/

theorem Covered.enter (pool : ThreadPool (Option Nat)) : (enter pool : Scope T W).Covered where
  pinned := by
    apply Shared.Lender.Pinned.init.lend
    · exact .inl ⟨rfl, fun _ => rfl⟩
    · exact Shared.small_lt_usizeRange le_rfl
    · rfl
  each := rfl
  waits := by
    intro index task found
    cases found
  uncollected _ := rfl
  outlived := by
    intro unsettled isReturned
    cases isReturned

/-- A task moves on, and no closure comes back into its task. -/
theorem Covered.moved {index : Nat} {task target : ScopedTask T W} (covered : s.Covered)
    (found : s.tasks[index]? = some task)
    (later : target.stage.begun = false → task.stage.begun = false)
    (pool : ThreadPool (Option Nat)) :
    ({ s with pool, tasks := s.tasks.set index target } : Scope T W).Covered where
  pinned := covered.pinned
  each := by
    rw [List.length_set]
    exact covered.each
  waits := by
    intro other waiting isWaiting unbegun
    rw [List.getElem?_set] at isWaiting
    split at isWaiting
    · rename_i same
      subst same
      split at isWaiting
      · obtain rfl := Option.some.inj isWaiting
        exact covered.waits index task found (later unbegun)
      · cases isWaiting
    · exact covered.waits other waiting isWaiting unbegun
  uncollected := covered.uncollected
  outlived := covered.outlived

/-- The owner moves, and the handles stay as they are. -/
theorem Covered.owned {share : Shared.Lender W} (covered : s.Covered) (pinned : share.Pinned)
    (same : share.handles = s.share.handles) {collecting : Bool}
    (uncollected : collecting = false → share.grants = []) :
    ({ s with share, collecting } : Scope T W).Covered where
  pinned := pinned
  each := same ▸ covered.each
  waits := same ▸ covered.waits
  uncollected := uncollected
  outlived := covered.outlived

/-- A handle moves that no waiting closure holds. -/
theorem Covered.handled {share : Shared.Lender W} {index : Nat} {source target : Shared.Handle}
    (covered : s.Covered) (pinned : share.Pinned)
    (found : s.share.handles[index]? = some source)
    (unheld : source = .held → s.released index = true)
    (same : share.handles = s.share.handles.set index target)
    (sameGrants : share.grants = s.share.grants) :
    ({ s with share } : Scope T W).Covered where
  pinned := pinned
  each := by
    rw [same, List.length_set]
    exact covered.each
  waits := by
    intro other task isTask unbegun
    have isHeld := covered.waits other task isTask unbegun
    by_cases isOwn : index = other + 1
    · subst isOwn
      rw [found] at isHeld
      have begun := unheld (Option.some.inj isHeld)
      rw [released, isTask, Option.any_some, unbegun] at begun
      cases begun
    · rw [same, List.getElem?_set_ne isOwn]
      exact isHeld
  uncollected := sameGrants ▸ covered.uncollected
  outlived := covered.outlived

theorem Covered.submit {index : Nat} (covered : s.Covered)
    (room : s.share.uncrowded (.clone index) = true) (step : s.submit index = some s') :
    s'.Covered := by
  unfold Scope.submit at step
  split at step
  · obtain ⟨share, cloned, rfl⟩ := Option.map_eq_some_iff.mp step
    have pinned := covered.pinned.step rfl room cloned
    simp only [Shared.PinShared.step, Shared.Lender.step] at cloned
    split at cloned
    · obtain rfl := Option.some.inj cloned
      have uncollected : s.collecting = false → s.share.lend.grants = [] := by
        rw [s.share.lend_owner.2.2]
        exact covered.uncollected
      by_cases crowded : s.share.inner.count > Shared.maxRefcount
      · have same : s.share.lend.handles = s.share.handles := by
          simp only [Shared.Lender.lend, Shared.incCountRef, if_pos crowded]
        rw [if_pos crowded]
        exact covered.owned pinned same uncollected
      · have more : s.share.lend.handles = s.share.handles ++ [.held] := by
          simp only [Shared.Lender.lend, Shared.incCountRef, if_neg crowded]
        rw [if_neg crowded]
        refine ⟨pinned, ?_, ?_, uncollected, covered.outlived⟩
        · rw [more, List.length_append, List.length_append, covered.each]
          rfl
        · intro other task isTask unbegun
          rw [more]
          by_cases earlier : other < s.tasks.length
          · rw [List.getElem?_append_left earlier] at isTask
            rw [List.getElem?_append_left (by rw [covered.each]; exact Nat.succ_lt_succ earlier)]
            exact covered.waits other task isTask unbegun
          · -- the new task has the new handle
            obtain ⟨inside, _⟩ := List.getElem?_eq_some_iff.mp isTask
            rw [List.length_append, List.length_singleton] at inside
            obtain rfl : other = s.tasks.length := by omega
            rw [← covered.each]
            exact List.getElem?_concat_length
    · cases cloned
  · cases step

theorem Covered.release_step {index : Nat} (covered : s.Covered)
    (released : s.released index = true) (step : s.shareStep (.release index) = some s') :
    s'.Covered := by
  obtain ⟨share, stepped, rfl⟩ := Option.map_eq_some_iff.mp step
  have pinned := covered.pinned.step rfl rfl stepped
  simp only [Shared.PinShared.step, Shared.Lender.step] at stepped
  split at stepped
  · rename_i found
    obtain rfl := Option.some.inj stepped
    exact covered.handled pinned found (fun _ => released) rfl rfl
  · cases stepped

theorem Covered.handle_step {index : Nat} (covered : s.Covered)
    (step : s.shareStep (.handle index) = some s') : s'.Covered := by
  obtain ⟨share, stepped, rfl⟩ := Option.map_eq_some_iff.mp step
  have pinned := covered.pinned.handle_step stepped
  obtain ⟨_, source, target, inner, found, _, rfl⟩ := covered.pinned.drops stepped
  refine covered.handled pinned found ?_ rfl rfl
  intro isHeld
  cases isHeld

/-- `CollectOnDrop` begins a call. -/
theorem Covered.call_step {label : Shared.Label W} (covered : s.Covered)
    (calls : label = .tryCollect ∨ ∃ waker, label = .poll waker)
    (ungranted : s.share.grants = []) (step : s.shareStep label = some s') : s'.Covered := by
  obtain ⟨share, stepped, rfl⟩ := Option.map_eq_some_iff.mp step
  rcases calls with rfl | ⟨waker, rfl⟩
  · have called : s.share.scopedCall .tryCollect = true := decide_eq_true ungranted
    have pinned := covered.pinned.step called rfl stepped
    simp only [Shared.PinShared.step, Shared.Lender.step] at stepped
    split at stepped
    · obtain rfl := Option.some.inj stepped
      exact covered.owned pinned rfl covered.uncollected
    · cases stepped
  · have called : s.share.scopedCall (.poll waker) = true := decide_eq_true ungranted
    have pinned := covered.pinned.step called rfl stepped
    simp only [Shared.PinShared.step, Shared.Lender.step] at stepped
    split at stepped
    · obtain rfl := Option.some.inj stepped
      exact covered.owned pinned rfl covered.uncollected
    · cases stepped

theorem Covered.owner_step {spurious : Bool} (covered : s.Covered) (collects : s.collecting = true)
    (room : s.share.uncrowded (.owner spurious) = true)
    (step : s.shareStep (.owner spurious) = some s') : s'.Covered := by
  obtain ⟨share, stepped, rfl⟩ := Option.map_eq_some_iff.mp step
  have pinned := covered.pinned.owner_step room stepped
  obtain ⟨_, same, _⟩ := Shared.Lender.owner_hands covered.pinned.attends stepped
  refine covered.owned pinned same ?_
  rw [collects]
  intro uncollected
  cases uncollected

theorem Covered.channel_step {index : Nat} {label : Channel.Label T W} (covered : s.Covered)
    (step : s.channelStep index label = some s') : s'.Covered := by
  have moves (step : (match s.tasks[index]? with
      | some task =>
          (Channel.System.step .taskFn task.channel label).map fun channel =>
            { s with tasks := s.tasks.set index { task with channel } }
      | none => none) = some s') : s'.Covered := by
    split at step
    · rename_i task found
      obtain ⟨channel, _, rfl⟩ := Option.map_eq_some_iff.mp step
      have same : ({ task with channel } : ScopedTask T W).stage.begun = false →
          task.stage.begun = false := id
      exact covered.moved found same s.pool
    · cases step
  cases label with
  | send op => cases step
  | recv | sender | receiver | expire => exact moves step

/-- With the value handed back, no worker lingering means no task is left. -/
theorem Covered.settled (covered : s.Covered) (granted : s.share.grants ≠ [])
    (attended : s.attended = true) : s.unsettled = 0 := by
  rw [unsettled, List.countP_eq_zero]
  intro task isTask
  obtain ⟨index, found⟩ := List.mem_iff_getElem?.mp isTask
  obtain ⟨inside, _⟩ := List.getElem?_eq_some_iff.mp found
  have isHandle : index + 1 < s.share.handles.length := by
    rw [covered.each]
    exact Nat.succ_lt_succ inside
  have isGone : s.share.handles[index + 1]? = some .gone := by
    rw [List.getElem?_eq_getElem isHandle]
    exact congrArg some ((covered.pinned.given granted).gone _ (List.getElem_mem isHandle))
  have begun : task.stage.begun = true := by
    by_contra unbegun
    have isHeld := covered.waits index task found (Bool.eq_false_of_not_eq_true unbegun)
    rw [isGone] at isHeld
    cases isHeld
  have paired : (task, Shared.Handle.gone) ∈ s.tasks.zip s.share.handles.tail := by
    apply List.mem_iff_getElem?.mpr
    refine ⟨index, ?_⟩
    rw [List.getElem?_zip_eq_some, List.getElem?_tail]
    exact ⟨found, isGone⟩
  have parted := List.all_eq_true.mp attended _ paired
  simpa [begun] using parted

theorem Covered.step (covered : s.Covered) (orderly : s.orderly label = true)
    (step : Scope.step config s label = some s') : s'.Covered := by
  cases label with
  | pool label =>
      simp only [Scope.step] at step
      split at step
      · obtain ⟨pool, _, rfl⟩ := Option.map_eq_some_iff.mp step
        exact ⟨covered.pinned, covered.each, covered.waits, covered.uncollected, covered.outlived⟩
      · cases step
  | submit index => exact covered.submit orderly step
  | enqueue index =>
      simp only [Scope.step, enqueue] at step
      split at step
      · rename_i found
        obtain rfl := Option.some.inj step
        exact covered.moved found (fun _ => rfl) _
      · cases step
  | start index worker =>
      simp only [Scope.step, start] at step
      split at step
      · rename_i found _
        split at step
        · obtain rfl := Option.some.inj step
          exact covered.moved found (fun unbegun => by cases unbegun) s.pool
        · cases step
      · cases step
  | discard index worker =>
      simp only [Scope.step, discard] at step
      split at step
      · rename_i found _
        split at step
        · obtain rfl := Option.some.inj step
          exact covered.moved found (fun unbegun => by cases unbegun) s.pool
        · cases step
      · cases step
  | finish index result =>
      simp only [Scope.step, finish] at step
      split at step
      · rename_i found
        obtain ⟨channel, _, rfl⟩ := Option.map_eq_some_iff.mp step
        exact covered.moved found (fun unbegun => by cases unbegun) s.pool
      · rename_i found
        split at step
        · obtain ⟨channel, _, rfl⟩ := Option.map_eq_some_iff.mp step
          exact covered.moved found (fun unbegun => by cases unbegun) s.pool
        · cases step
      · cases step
  | channel index label => exact covered.channel_step step
  | release index =>
      simp only [Scope.step] at step
      split at step
      · rename_i released
        exact covered.release_step released step
      · cases step
  | handle index => exact covered.handle_step step
  | leave =>
      simp only [Scope.step] at step
      split at step
      · cases step
      · rename_i uncollected
        have ungranted := covered.uncollected (Bool.eq_false_of_not_eq_true uncollected)
        have left : ({ s with collecting := true } : Scope T W).Covered :=
          covered.owned covered.pinned rfl fun _ => ungranted
        exact left.call_step (.inl rfl) ungranted step
  | poll waker =>
      simp only [Scope.step] at step
      split at step
      · rename_i polls
        rw [Bool.and_eq_true, decide_eq_true_eq] at polls
        exact covered.call_step (.inr ⟨waker, rfl⟩) polls.2 step
      · cases step
  | owner spurious =>
      simp only [Scope.step] at step
      split at step
      · rename_i collects
        exact covered.owner_step collects orderly step
      · cases step
  | returns =>
      simp only [Scope.step] at step
      split at step
      · rename_i returns
        obtain rfl := Option.some.inj step
        simp only [Bool.and_eq_true, decide_eq_true_eq] at returns
        refine ⟨covered.pinned, covered.each, covered.waits, covered.uncollected, ?_⟩
        intro unsettled isReturned
        obtain rfl := Option.some.inj isReturned
        exact covered.settled returns.1.2 orderly
      · cases step

end Scope

end Suspend.Pool
