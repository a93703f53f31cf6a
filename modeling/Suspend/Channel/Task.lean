import Suspend.Channel.Frame
import Suspend.Channel.SendOnce

/-!
# Tasks

`task_fn` puts a closure and a channel into one allocation.  The `TaskFn` runs
the closure or drops it, the `JoinTask` is the receiving side of the channel,
and whichever side comes second frees the allocation with what is left of the
closure.
-/

namespace Suspend.Channel

open Suspend.Transition

universe u v

variable {T : Type u} {W : Type v}

/-- How the `TaskFn` was finished. -/
inductive Ending (T : Type u) where
  | returned (value : T)
  | panicked
  | unrun
  deriving DecidableEq, Repr

def Ending.result : Ending T → Option T
  | returned value => some value
  | panicked | unrun => none

/-- The closure has been invoked, with this outcome. -/
def Ending.ofOutcome : Option T → Ending T
  | some value => .returned value
  | none => .panicked

/-- A `TaskInner`: the channel with its two sides, and the closure, which is
known by what it does when it is invoked. -/
structure Task (T : Type u) (W : Type v) where
  observed : Observed T W := {}
  /-- `TaskInner::body`; invoking it returns a value, or panics. -/
  body : Option (Option T)
  /-- How often the closure has been invoked. -/
  invoked : Nat := 0
  /-- How often it has been dropped unrun. -/
  unrun : Nat := 0
  /-- `body` was found empty by `invoke`, or accessed after it was freed. -/
  misused : Bool := false
  ending : Option (Ending T) := none
  /-- The answers of the calls that read the channel for the `JoinTask`, each
  with the ending of the `TaskFn` by then. -/
  reports : List (Option (Ending T) × Answer T) := []
  deriving DecidableEq, Repr

inductive TaskLabel (T : Type u) (W : Type v) where
  | run
  | drop
  | base (label : Label T W)
  deriving DecidableEq, Repr

namespace Task

/-- `task_fn(f)`. -/
def init (body : Option T) : Task T W :=
  { body := some body }

/-- Any access to `body`. -/
def access (t : Task T W) : Task T W :=
  { t with misused := t.misused || t.observed.system.world.freed != 0 }

/-- Drop what is in `body`. -/
def dropBody (t : Task T W) : Task T W :=
  { t with body := none, unrun := t.unrun + if t.body.isSome then 1 else 0 }

/-- `drop_task` drops what is in `body` when the box is freed. -/
def goOn (t : Task T W) (observed : Observed T W) : Task T W :=
  if observed.system.world.freed = t.observed.system.world.freed then
    { t with observed := observed }
  else { t.dropBody with observed := observed }

/-- The answer of a call that reads the channel for the `JoinTask`. -/
def report (t : Task T W) : Label T W → Option (Answer T)
  | .receiver spurious => t.observed.system.receiver.answer spurious t.observed.system.world
  | _ => none

def step : Step (Task T W) (TaskLabel T W)
  | t, .run =>
      match t.body with
      | some outcome =>
          (Observed.step .taskFn t.observed (.base (.send (.run outcome)))).map fun observed =>
            { t.access with
              observed := observed
              body := none
              invoked := t.invoked + 1
              ending := some (.ofOutcome outcome) }
      | none =>
          match t.observed.system.sender with
          | .idle .connected => some { t with misused := true }
          | _ => none
  | t, .drop =>
      (Observed.step .taskFn t.observed (.base (.send .drop))).map fun observed =>
        { t.access.dropBody with observed := observed, ending := some .unrun }
  | _, .base (.send _) => none
  | t, .base label =>
      (Observed.step .taskFn t.observed (.base label)).map fun observed =>
        { t.goOn observed with
          reports := t.reports ++ (t.report label).toList.map fun answer => (t.ending, answer) }

/-- Calls do not overlap, `try_join` is called once the `TaskFn` is finished,
and `join` when it does not block. -/
def wholeCalls (t : Task T W) : TaskLabel T W → Bool
  | .run | .drop => t.observed.wholeCalls .taskFn (.base (.send .drop))
  | .base label => t.observed.wholeCalls .taskFn (.base label)

end Task

/-! ## What the programs leave alone -/

/-- The values passed in, and given back, are those of before. -/
def World.SameBooks (m m' : World T W) : Prop :=
  m'.passed = m.passed ∧ m'.returned = m.returned

section Books

variable {m m' : World T W} {spurious : Bool} {cell : OneShot T} {owed : Option (Answer T)}

theorem World.SameCalls.books (same : m.SameCalls m') : m.SameBooks m' :=
  ⟨same.passed, same.returned⟩

theorem Receiver.stepped_sameBooks {kind : Kind} {R R' : Receiver T W}
    (step : R.Stepped kind spurious m m' R') : m.SameBooks m' :=
  ⟨step.receives.passed, step.receives.returned⟩

theorem Receiver.begun_sameBooks {kind : Kind} {handle : ReceiverHandle} {op : RecvOp W}
    {R' : Receiver T W} (begun : Begun kind m handle op m' R') : m.SameBooks m' := by
  induction begun <;> exact ⟨rfl, rfl⟩

/-- A `TaskFn` gives nothing back. -/
theorem Tracks.sender_sameBooks {s : System T W} {S' : Sender T W}
    (tracks : Tracks .taskFn cell owed s) (step : s.sender.Stepped .taskFn spurious s.world m' S') :
    s.world.SameBooks m' := by
  cases tracks with
  | @trySending _ _ m pc =>
      have kept := (pc.step_frame Kind.taskFn.finalize spurious m).1.books
      cases step with
      | trySend inner => rwa [inner] at kept
      | @trySendEnd _ result _ inner =>
          rw [inner] at kept
          cases result <;> exact kept
  | flushWriting notTask => exact absurd rfl notTask
  | flushing notTask => exact absurd rfl notTask
  | @senderDropping _ m pc =>
      have kept := (pc.step_calls true m).books
      cases step with
      | drop inner => rwa [inner] at kept
      | @dropEnd _ last _ inner =>
          rw [inner] at kept
          cases last <;> exact kept
  | senderFreeing =>
      cases step with
      | free => exact ⟨rfl, rfl⟩
  | quiet | reading | receiverDropping | receiverFreeing => cases step

end Books

/-! ## Reports -/

/-- What a call that reads the channel reports while the `JoinTask` still has
its task: nothing yet, the value of the closure, or `Incomplete`. -/
def Reported : Option (Ending T) → Answer T → Prop
  | none, answer => answer = .pending ∨ answer = .timedOut
  | some ending, answer => answer = .result ending.result

/-- The cell once the `TaskFn` has come to this ending. -/
structure OneShot.Agrees (ending : Option (Ending T)) (cell : OneShot T) : Prop where
  unsent : ending = none → cell.sender = .unsent
  gone : ending ≠ none → cell.sender = .gone
  content : cell.receiver = .connected →
    cell.content = ((ending.bind Ending.result).elim .empty .full)

section Reports

variable {ending : Option (Ending T)} {cell cell' : OneShot T} {answer : Answer T}

/-- A handle that has given up its task may stand with any content. -/
theorem OneShot.Agrees.left {receiver next : ReceiverHandle} {sender : OneShot.Sending T}
    {content now : OneShot.Content T}
    (agrees : (⟨sender, receiver, content⟩ : OneShot T).Agrees ending)
    (left : next ≠ .connected) : (⟨sender, next, now⟩ : OneShot T).Agrees ending where
  unsent := agrees.unsent
  gone := agrees.gone
  content isOpen := absurd isOpen left

/-- What a `JoinTask` takes from the cell is the result of the ending. -/
theorem OneShot.Agrees.take {next : ReceiverHandle} (agrees : cell.Agrees ending)
    (isOpen : cell.receiver = .connected) (left : next ≠ .connected)
    (taken : cell.take next = some (cell', answer)) :
    cell'.Agrees ending ∧ Reported ending answer := by
  obtain ⟨sender, receiver, content⟩ := cell
  obtain rfl : receiver = .connected := isOpen
  have isContent := agrees.content rfl
  cases ending with
  | none =>
      obtain rfl : content = .empty := isContent
      obtain rfl : sender = .unsent := agrees.unsent rfl
      cases taken
  | some e =>
      obtain rfl : sender = .gone := agrees.gone (by simp)
      obtain rfl : content = e.result.elim .empty .full := isContent
      cases isResult : e.result with
      | none =>
          rw [isResult] at taken
          obtain ⟨rfl, rfl⟩ := Prod.mk.inj (Option.some.inj taken)
          exact ⟨agrees.left left, by simp [Reported, isResult, Answer.result]⟩
      | some value =>
          rw [isResult] at taken
          obtain ⟨rfl, rfl⟩ := Prod.mk.inj (Option.some.inj taken)
          exact ⟨agrees.left left, by simp [Reported, isResult, Answer.result]⟩

/-- There is nothing to take until the `TaskFn` is finished. -/
theorem OneShot.Agrees.blocked {next : ReceiverHandle} (agrees : cell.Agrees ending)
    (blocked : cell.take next = none) : ending = none := by
  by_contra isEnded
  have isOpen := (OneShot.take_eq_none.mp blocked).2
  rw [agrees.gone isEnded] at isOpen
  cases isOpen

/-- A call of a `JoinTask` that has its task answers by the ending. -/
theorem OneShot.Agrees.recv {op : RecvOp W} (agrees : cell.Agrees ending)
    (received : cell.recv op = some (cell', answer)) :
    cell'.Agrees ending ∧ (cell.receiver = .connected → op ≠ .drop → Reported ending answer) := by
  obtain ⟨sender, receiver, content⟩ := cell
  cases receiver with
  | connected =>
      have polls (waits : Answer T) (isWait : waits = .pending ∨ waits = .timedOut)
          (polled : (((⟨sender, .connected, content⟩ : OneShot T).take .detached).getD
            (⟨sender, .connected, content⟩, waits)) = (cell', answer)) :
          cell'.Agrees ending ∧ Reported ending answer := by
        cases taken : (⟨sender, .connected, content⟩ : OneShot T).take .detached with
        | none =>
            obtain rfl := agrees.blocked taken
            rw [taken] at polled
            obtain ⟨rfl, rfl⟩ := Prod.mk.inj polled
            exact ⟨agrees, isWait⟩
        | some r =>
            rw [taken, Option.getD_some] at polled
            exact agrees.take rfl (by simp) (polled ▸ taken)
      cases op with
      | poll waker =>
          obtain ⟨kept, reported⟩ := polls .pending (.inl rfl) (Option.some.inj received)
          exact ⟨kept, fun _ _ => reported⟩
      | tryRecv =>
          simp only [OneShot.recv, Option.ite_none_right_eq_some] at received
          obtain ⟨kept, reported⟩ := agrees.take rfl (by simp) received.2
          exact ⟨kept, fun _ _ => reported⟩
      | recv waker =>
          obtain ⟨kept, reported⟩ := agrees.take rfl (by simp) received
          exact ⟨kept, fun _ _ => reported⟩
      | recvTimeout waker =>
          obtain ⟨kept, reported⟩ := polls .timedOut (.inr rfl) (Option.some.inj received)
          exact ⟨kept, fun _ _ => reported⟩
      | cancel => cases received
      | drop =>
          obtain ⟨rfl, -⟩ := Prod.mk.inj (Option.some.inj received)
          refine ⟨?_, fun _ notDrop => absurd rfl notDrop⟩
          split_ifs <;> exact agrees.left (by simp)
  | detached =>
      refine ⟨?_, fun isOpen => absurd isOpen (by simp)⟩
      cases op with
      | cancel => cases received
      | _ =>
          obtain ⟨rfl, -⟩ := Prod.mk.inj (Option.some.inj received)
          exact agrees.left (by simp)
  | gone => cases op <;> cases received

/-- The `TaskFn` is finished: the closure was invoked, or dropped. -/
theorem OneShot.Agrees.send {op : SendOp T W} (agrees : cell.Agrees none) {e : Ending T}
    (isEnd : op = .run e.result ∨ op = .drop ∧ e = .unrun)
    (sent : cell.send op = some (cell', answer)) : cell'.Agrees (some e) := by
  obtain ⟨sender, receiver, content⟩ := cell
  obtain rfl : sender = .unsent := agrees.unsent rfl
  have leaves : (⟨.gone, receiver, content⟩ : OneShot T) = cell' → e.result = none →
      cell'.Agrees (some e) := by
    rintro rfl noResult
    refine ⟨by simp, fun _ => rfl, fun isOpen => ?_⟩
    rw [Option.bind_some, noResult]
    exact agrees.content isOpen
  rcases isEnd with rfl | ⟨rfl, rfl⟩
  · cases isResult : e.result with
    | none =>
        rw [isResult] at sent
        exact leaves (Prod.mk.inj (Option.some.inj sent)).1 isResult
    | some value =>
        rw [isResult] at sent
        have put := (Prod.mk.inj (Option.some.inj sent)).1
        by_cases isOpen : receiver = .connected
        · simp only [OneShot.put, if_pos isOpen] at put
          subst put
          exact ⟨by simp, fun _ => rfl, fun _ => by simp [isResult]⟩
        · simp only [OneShot.put, if_neg isOpen] at put
          subst put
          exact ⟨by simp, fun _ => rfl, fun isConnected => absurd isConnected isOpen⟩
  · exact leaves (Prod.mk.inj (Option.some.inj sent)).1 rfl

end Reports

@[simp]
theorem Ending.result_ofOutcome (outcome : Option T) :
    (Ending.ofOutcome outcome).result = outcome := by
  cases outcome <;> rfl

/-! ## Runs -/

section Owing

variable {owed owed' given : Option (Answer T)} {answer : Answer T}

theorem Gives.owing (gives : Gives owed owed' given) (isOwed : owed' = some answer) :
    owed = some answer := by
  subst isOwed
  cases owed <;> cases given <;> simp_all [Gives]

theorem Gives.gave (gives : Gives owed owed' given) (isGiven : given = some answer) :
    owed = some answer := by
  subst isGiven
  cases owed <;> cases owed' <;> simp_all [Gives]

end Owing

namespace Task

variable {t t' : Task T W} {cell : OneShot T} {owed : Option (Answer T)} {label : TaskLabel T W}

/-- The value that the closure has returned. -/
def result (t : Task T W) : Option T :=
  t.ending.bind Ending.result

/-- The closure is in the box, or has been invoked or dropped, once; the channel
tracks the cell, which agrees with the ending. -/
structure Sound (t : Task T W) (cell : OneShot T) (owed : Option (Answer T)) : Prop where
  follows : Observed.Follows .taskFn t.observed cell owed
  agrees : cell.Agrees t.ending
  owes : ∀ handle, t.observed.system.sender = .idle handle →
    ∀ answer, owed = some answer → Reported t.ending answer
  reports : ∀ report ∈ t.reports, Reported report.1 report.2
  body : t.body.isSome = t.ending.isNone
  kept : t.body.isSome = true → t.observed.system.sender = .idle .connected
  once : t.invoked + t.unrun + (if t.body.isSome then 1 else 0) = 1
  clean : t.misused = false
  passed : t.observed.system.world.passed = t.result.toList
  returned : t.observed.system.world.returned = []

theorem Sound.init (body : Option T) : (Task.init body : Task T W).Sound {} none where
  follows := .init
  agrees := ⟨fun _ => rfl, by simp [Task.init], fun _ => rfl⟩
  owes := by simp
  reports := by simp [Task.init]
  body := rfl
  kept _ := rfl
  once := rfl
  clean := rfl
  passed := rfl
  returned := rfl

/-- Nothing is freed before the `TaskFn` is finished. -/
theorem unfreed {s : System T W} (tracks : Tracks .taskFn cell owed s)
    (isOpen : cell.sender.closed = false) : s.world.freed = 0 := by
  cases tracks with
  | quiet formed same => exact (same.open (by simp [OneShot.bothClosed, isOpen])).1.unfreed
  | trySending put clean | flushWriting notTask put clean | flushing notTask _ _ _ clean
  | senderDropping _ _ _ clean | senderFreeing _ _ clean | reading _ _ _ clean
  | receiverDropping _ _ _ clean | receiverFreeing _ _ clean => exact clean.unfreed

/-- A call of the sending side begins while the other side is between calls. -/
theorem whole_receiver_idle {o : Observed T W} {kind : Kind} {op : SendOp T W}
    (whole : o.wholeCalls kind (.base (.send op)) = true) :
    ∃ receiving, o.system.receiver = .idle receiving := by
  rcases o with ⟨⟨m, S, R⟩⟩
  cases R with
  | idle receiving => exact ⟨receiving, rfl⟩
  | _ => cases whole

theorem system_step {o o' : Observed T W} {kind : Kind} {label : Label T W}
    (step : Observed.step kind o (.base label) = some o') :
    System.step kind o.system label = some o'.system := by
  simp only [Observed.step, Option.map_eq_some_iff] at step
  obtain ⟨next, step, rfl⟩ := step
  exact step

theorem sender_stepped {s s' : System T W} {kind : Kind} {spurious : Bool}
    (step : System.step kind s (.sender spurious) = some s') :
    s'.receiver = s.receiver ∧ s.sender.Stepped kind spurious s.world s'.world s'.sender := by
  rcases System.step_cases step with ⟨_, _, never, -⟩ | ⟨_, _, never, -⟩ |
    ⟨_, isStep, same, stepped⟩ | ⟨_, never, -⟩ | ⟨_, never, -⟩
  case inr.inr.inl =>
    cases isStep
    exact ⟨same, stepped⟩
  all_goals cases never

theorem receiver_stepped {s s' : System T W} {kind : Kind} {spurious : Bool}
    (step : System.step kind s (.receiver spurious) = some s') :
    s'.sender = s.sender ∧ s.receiver.Stepped kind spurious s.world s'.world s'.receiver := by
  rcases System.step_cases step with ⟨_, _, never, -⟩ | ⟨_, _, never, -⟩ | ⟨_, never, -⟩ |
    ⟨_, isStep, same, stepped⟩ | ⟨_, never, -⟩
  case inr.inr.inr.inl =>
    cases isStep
    exact ⟨same, stepped⟩
  all_goals cases never

theorem begun_books {m m' : World T W} {handle : SenderHandle T} {op : SendOp T W} {S' : Sender T W}
    {e : Ending T} (isEnd : op = .run e.result ∨ op = .drop ∧ e = .unrun)
    (begun : Sender.Begun .taskFn m handle op m' S') :
    m'.passed = m.passed ++ e.result.toList ∧ m'.returned = m.returned := by
  rcases isEnd with isRun | ⟨rfl, rfl⟩
  · induction begun with
    | run | runPanic =>
        obtain isResult := SendOp.run.inj isRun
        rw [← isResult]
        simp [World.pass, World.beginWrite, World.leaveFlush]
    | _ => cases isRun
  · cases begun <;> simp [Ending.result, World.leaveFlush]

/-- The `TaskFn` finishes the task. -/
theorem Sound.step_end {op : SendOp T W} {observed : Observed T W} {e : Ending T}
    {invoked unrun : Nat}
    (sound : t.Sound cell owed) (isEnd : op = .run e.result ∨ op = .drop ∧ e = .unrun)
    (whole : t.observed.wholeCalls .taskFn (.base (.send op)) = true)
    (step : Observed.step .taskFn t.observed (.base (.send op)) = some observed)
    (once : t.body.isSome → invoked + unrun = 1) :
    ∃ cell' owed', Sound { t.access with
      observed := observed, body := none, invoked := invoked, unrun := unrun, ending := some e }
      cell' owed' := by
  obtain ⟨cell', owed', follows, begins⟩ := sound.follows.step_send (by simp) whole step
  obtain ⟨answer, sent, -⟩ := begins
  have isUnsent : cell.sender = .unsent := by
    obtain ⟨sender, receiver, content⟩ := cell
    cases sender with
    | unsent => rfl
    | _ =>
        rcases isEnd with rfl | ⟨rfl, rfl⟩
        · cases isResult : e.result <;> rw [isResult] at sent <;> cases sent
        · cases sent
  have unended : t.ending = none := by
    by_contra isEnded
    cases (sound.agrees.gone isEnded).symm.trans isUnsent
  have agrees := sound.agrees
  rw [unended] at agrees
  obtain ⟨handle, isIdle, sameReceiver, begun⟩ :
      ∃ handle, t.observed.system.sender = .idle handle ∧
        observed.system.receiver = t.observed.system.receiver ∧
        Sender.Begun .taskFn t.observed.system.world handle op observed.system.world
          observed.system.sender := by
    rcases System.step_cases (system_step step) with ⟨handle, _, isOp, isIdle, same, begun⟩ |
      ⟨_, _, never, -⟩ | ⟨_, never, -⟩ | ⟨_, never, -⟩ | ⟨_, never, -⟩
    · cases isOp
      exact ⟨handle, isIdle, same, begun⟩
    all_goals cases never
  obtain ⟨passed, returned⟩ := begun_books isEnd begun
  refine ⟨cell', owed', follows, agrees.send isEnd sent, ?_, sound.reports,
    rfl, by simp, ?_, ?_, ?_,
    ?_⟩
  · intro handle rests answer isOwed
    have resting : observed.system.resting = true := by
      obtain ⟨receiving, waits⟩ := whole_receiver_idle whole
      simp only [System.resting, sameReceiver, waits]
      rw [show observed.system.sender = .idle handle from rests]
    cases (Observed.of_resting follows.tracks resting).1.symm.trans isOwed
  · have isBody := sound.body
    rw [unended] at isBody
    simpa using once isBody
  · have fresh := unfreed sound.follows.tracks (by rw [isUnsent]; rfl)
    simp [Task.access, sound.clean, fresh]
  · have unpassed := sound.passed
    rw [Task.result, unended] at unpassed
    rw [unpassed] at passed
    exact passed
  · exact returned.trans sound.returned

/-- The box is freed with an empty body. -/
theorem Sound.goOn_eq {observed : Observed T W} {cell' : OneShot T} {owed' : Option (Answer T)}
    (sound : t.Sound cell owed) (follows : Observed.Follows .taskFn observed cell' owed')
    (agrees : cell'.Agrees t.ending) : t.goOn observed = { t with observed := observed } := by
  have isBody := sound.body
  by_cases unended : t.ending = none
  · have isOpen {cell : OneShot T} (agrees : cell.Agrees t.ending) :
        cell.sender.closed = false := by
      rw [agrees.unsent unended]
      rfl
    have before := unfreed sound.follows.tracks (isOpen sound.agrees)
    have after := unfreed follows.tracks (isOpen agrees)
    rw [Task.goOn, if_pos (after.trans before.symm)]
  · have isEmpty : t.body = none := by
      rw [Option.isNone_eq_false_iff.mpr (Option.isSome_iff_ne_none.mpr unended)] at isBody
      simpa using isBody
    simp [Task.goOn, Task.dropBody, isEmpty]

/-- A step of the pair that is not one of the `TaskFn`'s calls. -/
theorem Sound.step_on {observed : Observed T W} {cell' : OneShot T} {owed' : Option (Answer T)}
    {given : List (Option (Ending T) × Answer T)} (sound : t.Sound cell owed)
    (follows : Observed.Follows .taskFn observed cell' owed') (agrees : cell'.Agrees t.ending)
    (owes : ∀ handle, observed.system.sender = .idle handle →
      ∀ answer, owed' = some answer → Reported t.ending answer)
    (reported : ∀ report ∈ given, Reported report.1 report.2)
    (kept : t.body.isSome = true → observed.system.sender = .idle .connected)
    (books : t.observed.system.world.SameBooks observed.system.world) :
    Sound { t.goOn observed with reports := t.reports ++ given } cell' owed' := by
  rw [sound.goOn_eq follows agrees]
  refine ⟨follows, agrees, owes, ?_, sound.body, kept, sound.once, sound.clean,
    books.1.trans sound.passed, books.2.trans sound.returned⟩
  intro report isReport
  rcases List.mem_append.mp isReport with earlier | now
  · exact sound.reports report earlier
  · exact reported report now

theorem begins_reading {handle : ReceiverHandle} {op : RecvOp W}
    (waits : (Receiver.beginAnswer handle op : Option (Answer T)) = none) :
    handle = .connected ∧ op ≠ .drop := by
  cases handle <;> cases op <;> simp_all [Receiver.beginAnswer]

theorem Sound.step_recv {op : RecvOp W} {observed : Observed T W} (sound : t.Sound cell owed)
    (whole : t.observed.wholeCalls .taskFn (.base (.recv op)) = true)
    (step : Observed.step .taskFn t.observed (.base (.recv op)) = some observed) :
    ∃ cell' owed', Sound { t.goOn observed with reports := t.reports ++ [] } cell' owed' := by
  obtain ⟨cell', owed', follows, answer, received, answered⟩ :=
    sound.follows.step_recv (by simp) whole step
  obtain ⟨agrees, reported⟩ := sound.agrees.recv received
  obtain ⟨same, handle, begun⟩ : observed.system.sender = t.observed.system.sender ∧
      ∃ handle, Receiver.Begun .taskFn t.observed.system.world handle op observed.system.world
        observed.system.receiver := by
    rcases System.step_cases (system_step step) with ⟨_, _, never, -⟩ |
      ⟨handle, _, isOp, -, same, begun⟩ | ⟨_, never, -⟩ | ⟨_, never, -⟩ | ⟨_, never, -⟩
    · cases never
    · cases isOp
      exact ⟨same, handle, begun⟩
    all_goals cases never
  refine ⟨cell', owed', sound.step_on follows agrees ?_ (by simp) ?_
    (Receiver.begun_sameBooks begun)⟩
  · intro handle _ owing isOwed
    subst isOwed
    cases begins : (Receiver.beginAnswer cell.receiver op : Option (Answer T)) with
    | none =>
        rw [begins] at answered
        obtain ⟨connected, notDrop⟩ := begins_reading begins
        obtain rfl : answer = owing := by simpa using answered
        exact reported connected notDrop
    | some given => simp [begins] at answered
  · intro isSome
    rw [same]
    exact sound.kept isSome

theorem Sound.step_sender {spurious : Bool} {observed : Observed T W} (sound : t.Sound cell owed)
    (step : Observed.step .taskFn t.observed (.base (.sender spurious)) = some observed) :
    ∃ owed', Sound { t.goOn observed with reports := t.reports ++ [] } cell owed' := by
  obtain ⟨owed', follows, -⟩ := sound.follows.step_sender (by simp) step
  obtain ⟨same, stepped⟩ := sender_stepped (system_step step)
  refine ⟨owed', sound.step_on follows sound.agrees ?_ (by simp) ?_ ?_⟩
  · intro handle rests answer isOwed
    obtain ⟨receiving, waits⟩ := Observed.receiver_idle sound.follows.tracks stepped
    have resting : observed.system.resting = true := by
      simp only [System.resting, same, waits, rests]
    cases (Observed.of_resting follows.tracks resting).1.symm.trans isOwed
  · intro isSome
    rw [sound.kept isSome] at stepped
    cases stepped
  · exact sound.follows.tracks.sender_sameBooks stepped

theorem Sound.step_receiver {spurious : Bool} {observed : Observed T W} (sound : t.Sound cell owed)
    (step : Observed.step .taskFn t.observed (.base (.receiver spurious)) = some observed) :
    ∃ owed', Sound { t.goOn observed with
      reports := t.reports ++ (t.report (.receiver spurious)).toList.map fun answer =>
        (t.ending, answer) } cell owed' := by
  obtain ⟨owed', follows, gives⟩ := sound.follows.step_receiver (by simp) step
  obtain ⟨same, stepped⟩ := receiver_stepped (system_step step)
  obtain ⟨handle, isIdle⟩ := Observed.sender_idle sound.follows.tracks stepped
  have owes := sound.owes handle isIdle
  refine ⟨owed', sound.step_on follows sound.agrees ?_ ?_ ?_ (Receiver.stepped_sameBooks stepped)⟩
  · intro _ _ answer isOwed
    exact owes answer (gives.owing isOwed)
  · intro report isReport
    obtain ⟨answer, isAnswer, rfl⟩ := List.mem_map.mp isReport
    exact owes answer (gives.gave (Option.mem_toList.mp isAnswer))
  · intro isSome
    rw [same]
    exact sound.kept isSome

theorem Sound.step (sound : t.Sound cell owed) (whole : t.wholeCalls label = true)
    (step : Task.step t label = some t') : ∃ cell' owed', t'.Sound cell' owed' := by
  cases label with
  | run =>
      cases isBody : t.body with
      | none =>
          -- the closure is there as long as the `TaskFn` is
          exfalso
          simp only [Task.step, isBody] at step
          split at step
          · rename_i connected
            obtain ⟨receiving, waits⟩ : ∃ receiving,
              t.observed.system.receiver = .idle receiving := by
              have whole : t.observed.wholeCalls .taskFn (.base (.send .drop)) = true := whole
              exact whole_receiver_idle whole
            have resting : t.observed.system.resting = true := by
              simp only [System.resting, connected, waits]
            have isHandle := (Observed.of_resting sound.follows.tracks resting).2.1
            have ended : t.ending ≠ none := by
              intro unended
              have isSome := sound.body
              simp [isBody, unended] at isSome
            rw [connected, sound.agrees.gone ended] at isHandle
            cases isHandle
          · cases step
      | some outcome =>
          simp only [Task.step, isBody, Option.map_eq_some_iff] at step
          obtain ⟨observed, step, rfl⟩ := step
          refine sound.step_end (e := .ofOutcome outcome) (.inl (by simp)) whole step ?_
          intro _
          have once := sound.once
          rw [isBody] at once
          change t.invoked + 1 + t.unrun = 1
          simp at once
          omega
  | drop =>
      simp only [Task.step, Option.map_eq_some_iff] at step
      obtain ⟨observed, step, rfl⟩ := step
      refine sound.step_end (e := .unrun) (.inr ⟨rfl, rfl⟩) whole step ?_
      intro _
      exact (Nat.add_assoc ..).symm.trans sound.once
  | base label =>
      cases label with
      | send op => cases step
      | recv op =>
          simp only [Task.step, Option.map_eq_some_iff] at step
          obtain ⟨observed, step, rfl⟩ := step
          exact sound.step_recv whole step
      | sender spurious =>
          simp only [Task.step, Option.map_eq_some_iff] at step
          obtain ⟨observed, step, rfl⟩ := step
          obtain ⟨owed', sound'⟩ := sound.step_sender step
          exact ⟨cell, owed', sound'⟩
      | receiver spurious =>
          simp only [Task.step, Option.map_eq_some_iff] at step
          obtain ⟨observed, step, rfl⟩ := step
          obtain ⟨owed', sound'⟩ := sound.step_receiver step
          exact ⟨cell, owed', sound'⟩
      | expire =>
          simp only [Task.step, Option.map_eq_some_iff] at step
          obtain ⟨observed, step, rfl⟩ := step
          exact (Observed.not_expire sound.follows.tracks (system_step step)).elim

/-- Both handles are finished. -/
def finished (t : Task T W) : Bool :=
  t.observed.finished

/-- The life of a task. -/
structure LifeCycle (t : Task T W) : Prop where
  /-- The closure is still in the box, or has been invoked, or has been dropped
  unrun. -/
  once : t.invoked + t.unrun + (if t.body.isSome then 1 else 0) = 1
  /-- It is one of the last two once the `TaskFn` is finished. -/
  decided : t.observed.system.sender = .idle .gone → t.invoked + t.unrun = 1
  clean : t.misused = false
  /-- What the calls of the `JoinTask` report: nothing yet before the `TaskFn` is
  finished, then the value of the closure, and `Incomplete` where it panicked or
  was dropped. -/
  reports : ∀ report ∈ t.reports, Reported report.1 report.2
  /-- The result is received once or dropped once, and none is made up. -/
  delivered : t.finished = true →
    (t.observed.system.world.received ++ t.observed.system.world.discarded).Perm t.result.toList
  /-- All answers are those of the one-shot cell, and every call returns. -/
  refines : t.observed.RefinesOneShot .taskFn
  ended : t.finished = true → t.observed.system.world.Ended

theorem Sound.lifeCycle (sound : t.Sound cell owed) : t.LifeCycle where
  once := sound.once
  decided := by
    intro isGone
    have isEmpty : ¬ t.body.isSome = true := by
      intro isSome
      cases (sound.kept isSome).symm.trans isGone
    have once := sound.once
    rwa [if_neg isEmpty] at once
  clean := sound.clean
  reports := sound.reports
  delivered := by
    intro ends
    have settled := (sound.follows.settled ends).values
    rw [sound.passed, sound.returned, List.append_nil] at settled
    exact settled.symm
  refines := sound.follows.refines (by simp)
  ended := fun ends => (sound.follows.settled ends).ended

end Task

/-- Whatever the closure does, and whichever handle goes first, in every run in
which calls do not overlap the closure is invoked or dropped unrun once, the
result is delivered or dropped once, the reports follow the ending and the box is
freed once. -/
theorem task_lifeCycle {body : Option T} {t : Task T W}
    (reachable : ReachableUnder Task.step (fun t label => t.wholeCalls label = true)
      (Task.init body) t) : t.LifeCycle := by
  have sound : ∃ cell owed, t.Sound cell owed := by
    induction reachable with
    | refl => exact ⟨{}, none, .init body⟩
    | tail _ step ih =>
        obtain ⟨label, whole, step⟩ := step
        obtain ⟨cell, owed, sound⟩ := ih
        exact sound.step whole step
  obtain ⟨cell, owed, sound⟩ := sound
  exact sound.lifeCycle

/-- A pending join is woken by the closure's return and then gets its value. -/
theorem task_lifeCycle_join :
    ∃ t : Task Nat Nat, t.finished = true ∧ t.invoked = 1 ∧
      t.reports = [(none, .pending), (some (.returned 7), .received 7)] ∧ t.LifeCycle := by
  obtain ⟨t, ran, finished, invoked, reports⟩ : ∃ t ∈ runFrom
      (guarded Task.step fun t label => t.wholeCalls label) (Task.init (some 7) : Task Nat Nat)
      (List.flatten [[.base (.recv (.poll 1))], List.replicate 4 (.base (.receiver false)), [.run],
        List.replicate 6 (.base (.sender false)), [.base (.recv (.poll 2))],
        List.replicate 4 (.base (.receiver false))]),
      t.finished = true ∧ t.invoked = 1 ∧
        t.reports = [(none, .pending), (some (.returned 7), .received 7)] := by
    decide
  exact ⟨t, finished, invoked, reports, task_lifeCycle (reachableUnder_of_runFrom ran)⟩

end Suspend.Channel
