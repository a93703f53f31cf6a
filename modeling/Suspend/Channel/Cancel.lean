import Suspend.Channel.Shut

/-!
# A receiver that is cancelled

`cancel` reads with `or_cancel`, which clears `STATE_ACTIVE` where it would
else wait.  On a channel that is open and empty it leaves the sending side
alone with what the cells hold; on one that the sender has closed it takes the
value that may be there and frees.  On one that is open and holds a value it
takes the value as any read does, and leaves the channel open.
-/

namespace Suspend.Channel

open Suspend.Transition

universe u v

variable {T : Type u} {W : Type v}
variable {m m' : World T W} {kind : Kind} {spurious : Bool}

/-! ## The sending side in turn -/

/-- The points of a `write` alone, while the receiver has the channel. -/
def WritePc.Runs (kind : Kind) (found : Option T) (value : T) (own : Option W) (m : World T W)
    (pc : WritePc T W) : Prop :=
  if kind = .channel then pc.Keeps true found value own m
  else found = none ∧ pc.Solo true value own m

/-- It is refused only where the last value has not been taken, and leaves its
side open unless it closes it as it publishes. -/
def WritePc.RunsEnd (kind : Kind) (found : Option T) (value : T) (own : Option W) (m : World T W) :
    WriteResult T → Prop
  | .ok => m.Calm (decide (kind = .channel) || own.isSome) (some value)
  | .err _ dropped => kind = .channel ∧ dropped = false ∧ m.Calm true found
  | .panic => False

theorem WritePc.Runs.step {found : Option T} {value : T} {own : Option W} {pc : WritePc T W}
    (notTask : kind ≠ .taskFn) (spurious : Bool) (runs : pc.Runs kind found value own m)
    (clean : m.Clean) :
    (pc.step kind.finalize spurious m).1.Clean ∧
      (pc.step kind.finalize spurious m).2.elim
        (Runs kind found value own (pc.step kind.finalize spurious m).1)
        (RunsEnd kind found value own (pc.step kind.finalize spurious m).1) := by
  cases kind with
  | channel =>
      have keeps : pc.Keeps true found value own m := runs
      obtain ⟨⟨clean, -⟩, kept⟩ := keeps.step spurious clean
      refine ⟨clean, ?_⟩
      change (pc.step false spurious m).2.elim _ _
      cases outcome : (pc.step false spurious m).2 with
      | goto next =>
          rw [outcome] at kept
          exact kept
      | ret result =>
          rw [outcome] at kept
          cases result with
          | ok => exact kept.2.1
          | err given dropped => exact ⟨rfl, kept.2.1, kept.2.2⟩
          | panic => exact kept
  | sendOnce =>
      obtain ⟨rfl, solo⟩ : found = none ∧ pc.Solo true value own m := runs
      obtain ⟨⟨clean, -⟩, kept⟩ := solo.step spurious clean
      refine ⟨clean, ?_⟩
      change (pc.step true spurious m).2.elim _ _
      cases outcome : (pc.step true spurious m).2 with
      | goto next =>
          rw [outcome] at kept
          exact ⟨rfl, kept⟩
      | ret result =>
          rw [outcome] at kept
          cases result with
          | ok => exact kept.1
          | err given dropped => cases kept.2.2.2
          | panic => exact kept
  | taskFn => exact absurd rfl notTask

/-- The points of a `flush` alone, while the receiver has the channel. -/
def FlushPc.Runs (kind : Kind) (value : Option T) (m : World T W) (pc : FlushPc W) : Prop :=
  if kind = .channel then pc.Keeps true value m else value.isSome ∧ pc.Solo true value m

def FlushPc.RunsEnd (kind : Kind) (value : Option T) (m : World T W) : PollResult T → Prop
  | .pending => (kind ≠ .channel → value.isSome) ∧ m.Calm true value
  | .ready _ _ => kind = .channel ∧ m.Calm true none
  | .panic => False

theorem FlushPc.Runs.step {value : Option T} {pc : FlushPc W} (notTask : kind ≠ .taskFn)
    (spurious : Bool) (runs : pc.Runs kind value m) (clean : m.Clean) :
    (pc.step kind.finalize spurious m).1.Clean ∧
      (pc.step kind.finalize spurious m).2.elim
        (Runs kind value (pc.step kind.finalize spurious m).1)
        (RunsEnd kind value (pc.step kind.finalize spurious m).1) := by
  cases kind with
  | channel =>
      have keeps : pc.Keeps true value m := runs
      obtain ⟨⟨clean, -⟩, kept⟩ := keeps.step spurious clean
      refine ⟨clean, ?_⟩
      change (pc.step false spurious m).2.elim _ _
      cases outcome : (pc.step false spurious m).2 with
      | goto next =>
          rw [outcome] at kept
          exact kept
      | ret result =>
          rw [outcome] at kept
          cases result with
          | pending => exact ⟨fun never => absurd rfl never, kept⟩
          | ready given dropped => exact ⟨rfl, kept.2⟩
          | panic => exact kept
  | sendOnce =>
      obtain ⟨isSome, solo⟩ : value.isSome ∧ pc.Solo true value m := runs
      obtain ⟨⟨clean, -⟩, kept⟩ := solo.step spurious clean
      refine ⟨clean, ?_⟩
      change (pc.step true spurious m).2.elim _ _
      cases outcome : (pc.step true spurious m).2 with
      | goto next =>
          rw [outcome] at kept
          exact ⟨isSome, kept⟩
      | ret result =>
          rw [outcome] at kept
          cases result with
          | pending => exact ⟨fun _ => isSome, kept.1⟩
          | ready given dropped => cases kept.2.2.2.2
          | panic => exact kept
  | taskFn => exact absurd rfl notTask

/-! ## Calls in turn -/

/-- A handle of the sending side while the receiver has the channel: it has lost
its pointer only by being dropped, and a `SendOnce` has written once its flush
has been polled. -/
def SenderHandle.Fits (kind : Kind) (value : Option T) : SenderHandle T → Prop
  | connected => kind ≠ .channel → value = none
  | flush owner channel given =>
      channel = true ∧ owner = decide (kind = .channel) ∧
        (kind ≠ .channel → value.isSome = given.isNone)
  | gone => True
  | detached => False

theorem SenderHandle.Fits.borrows {handle : SenderHandle T} {value : Option T}
    (fits : handle.Fits kind value) : handle.Borrows kind := by
  cases handle with
  | flush owner channel given =>
      obtain ⟨rfl, isOwner, -⟩ := fits
      simpa [Borrows] using isOwner
  | _ => trivial

/-- A `Sender` says nothing of the value. -/
theorem SenderHandle.Fits.of_channel {handle : SenderHandle T} {value other : Option T}
    (fits : handle.Fits .channel value) : handle.Fits .channel other := by
  cases handle with
  | connected => exact fun once => absurd rfl once
  | flush owner channel given => exact ⟨fits.1, fits.2.1, fun once => absurd rfl once⟩
  | _ => exact fits

/-- A receiving call has something to return, and leaves no channel behind that
is open. -/
def ReceiveCall.Returns (kind : Kind) (active : Bool) (value : Option T) : ReceiveCall W → Prop
  | poll _ | tryRecv => True
  | recvFirst _ => value.isSome || !active
  | timeoutFirst _ => kind = .channel → active = true → value = none
  | _ => False

/-- The receiving side has left, or is about to. -/
def Receiver.Leaves : Receiver T W → Prop
  | idle .gone | reading .cancel _ | dropping .gone _ | freeing .gone => True
  | _ => False

theorem Receiver.Leaves.step {R R' : Receiver T W} (leaves : R.Leaves)
    (step : R.Stepped kind spurious m m' R') : R'.Leaves := by
  induction step with
  | @read call => cases call <;> exact leaves
  | @readEnd call _ result =>
      cases call with
      | cancel => rcases result with _ | ⟨_, _ | _⟩ | _ <;> trivial
      | _ => exact leaves.elim
  | unpark => exact leaves.elim
  | @drop next => cases next <;> exact leaves
  | @dropEnd next _ last =>
      cases next with
      | gone => cases last <;> trivial
      | _ => exact leaves.elim
  | @free next => cases next <;> exact leaves

/-- A pair of which at most one side is inside a call, until the receiving side
leaves. -/
inductive System.InTurn (kind : Kind) : System T W → Prop
  | rest {m handle value} (fits : handle.Fits kind value) (clean : m.Clean)
      (calm : m.Calm handle.holds value) : InTurn kind ⟨m, .idle handle, .idle .connected⟩
  | trySending {m pc found value} (clean : m.Clean) (runs : pc.Runs kind found value none m) :
      InTurn kind ⟨m, .trySending pc, .idle .connected⟩
  | flushWriting {m owner waker pc found value} (isOwner : owner = decide (kind = .channel))
      (clean : m.Clean) (runs : pc.Runs kind found value (some waker) m) :
      InTurn kind ⟨m, .flushWriting owner waker pc, .idle .connected⟩
  | flushing {m owner waker pc value} (isOwner : owner = decide (kind = .channel))
      (clean : m.Clean) (runs : pc.Runs kind value m) :
      InTurn kind ⟨m, .flushing owner waker pc, .idle .connected⟩
  | dropping {m pc value} (clean : m.Clean) (solo : pc.Solo true value m) :
      InTurn kind ⟨m, .dropping pc, .idle .connected⟩
  | reading {m handle call pc value} (fits : handle.Fits kind value)
      (returns : call.Returns kind handle.holds value) (clean : m.Clean)
      (solo : pc.Solo handle.holds value call.own m) :
      InTurn kind ⟨m, .idle handle, .reading call pc⟩
  | closing {m handle pc} (borrows : handle.Borrows kind) (holds : handle.holds = true)
      (clean : m.Clean) (solo : pc.Solo true none m) :
      InTurn kind ⟨m, .idle handle, .dropping .detached pc⟩
  | freeing {m handle} (borrows : handle.Borrows kind) (unheld : handle.holds = false)
      (clean : m.Clean) (inactive : m.state.active = false) (value : m.value = none)
      (waker : m.waker = none) : InTurn kind ⟨m, .idle handle, .freeing .detached⟩
  | alone {m S} (waker : m.waker = none) (alone : S.Alone kind m) :
      InTurn kind ⟨m, S, .idle .detached⟩
  | left {m S R} (leaves : R.Leaves) : InTurn kind ⟨m, S, R⟩

namespace System.InTurn

/-! ### Calls begin -/

theorem begin_send {handle : SenderHandle T} {value : Option T} {op : SendOp T W} {S' : Sender T W}
    (notTask : kind ≠ .taskFn) (fits : handle.Fits kind value) (clean : m.Clean)
    (calm : m.Calm handle.holds value) (begun : Sender.Begun kind m handle op m' S') :
    InTurn kind ⟨m', S', .idle .connected⟩ := by
  have writes (given : T) (own : Option W) (empty : kind ≠ .channel → value = none)
      (isCalm : m'.Calm true value) :
      (WritePc.load given own).Runs kind value given own m' := by
    by_cases isChannel : kind = .channel
    · rw [WritePc.Runs, if_pos isChannel]
      exact ⟨rfl, rfl, isCalm⟩
    · rw [WritePc.Runs, if_neg isChannel]
      obtain rfl := empty isChannel
      exact ⟨rfl, rfl, rfl, isCalm⟩
  induction begun with
  | @trySend given =>
      have runs := writes given none fits (calm.keep rfl rfl rfl)
      exact trySending (clean.keep rfl rfl rfl rfl rfl) runs
  | @send given =>
      refine rest ⟨rfl, rfl, ?_⟩ (clean.keep rfl rfl rfl rfl rfl) (calm.keep rfl rfl rfl)
      intro once
      rw [fits once]
      rfl
  | drop => exact dropping (clean.keep rfl rfl rfl rfl rfl) (calm.keep rfl rfl rfl)
  | run isTask => exact absurd isTask notTask
  | runPanic isTask => exact absurd isTask notTask
  | trySendDetached | sendDetached | dropDetached => exact fits.elim
  | pollDetached | pollDone | dropFlushDone => cases fits.1
  | @pollFirst owner given waker =>
      obtain ⟨-, isOwner, stores⟩ := fits
      have empty (once : kind ≠ .channel) : value = none := by simpa using stores once
      have runs := writes given (some waker) empty (calm.keep rfl rfl rfl)
      exact flushWriting isOwner (clean.keep rfl rfl rfl rfl rfl) runs
  | @poll owner waker =>
      obtain ⟨-, isOwner, stores⟩ := fits
      have polled : m.beginFlush.Calm true value := calm.keep rfl rfl rfl
      have runs : (FlushPc.load waker).Runs kind value m.beginFlush := by
        by_cases isChannel : kind = .channel
        · rw [FlushPc.Runs, if_pos isChannel]
          exact polled
        · rw [FlushPc.Runs, if_neg isChannel]
          have isSome : value.isSome = true := stores isChannel
          refine ⟨isSome, polled, ?_⟩
          rintro rfl
          cases isSome
      exact flushing isOwner (clean.keep rfl rfl rfl rfl rfl) runs
  | @dropBorrow owner channel given isChannel =>
      obtain ⟨rfl, rfl, -⟩ := fits
      rw [if_pos (by simpa using isChannel)]
      refine rest ?_ (clean.keep rfl rfl rfl rfl rfl) (calm.keep rfl rfl rfl)
      exact fun once => absurd isChannel once
  | dropFlush => exact dropping (clean.keep rfl rfl rfl rfl rfl) (calm.keep rfl rfl rfl)

theorem begin_recv {handle : SenderHandle T} {value : Option T} {op : RecvOp W}
    {R' : Receiver T W} (fits : handle.Fits kind value) (clean : m.Clean)
    (calm : m.Calm handle.holds value)
    (ready : ∀ waker, op = .recv waker → (m.state.loaded || !m.state.active) = true)
    (keeps : ∀ waker, op = .recvTimeout waker → kind = .channel →
      (m.state.loaded && m.state.active) = false)
    (begun : Receiver.Begun kind m .connected op m' R') : InTurn kind ⟨m', .idle handle, R'⟩ := by
  have loaded : m.state.loaded = value.isSome := by rw [calm.state, World.plain, calm.value]
  have active : m.state.active = handle.holds := by rw [calm.state, World.plain]
  rw [loaded, active] at ready keeps
  cases begun with
  | poll =>
      have solo : m.beginPoll.Calm handle.holds value := calm.keep rfl rfl rfl
      exact reading fits trivial (clean.keep rfl rfl rfl rfl rfl) ⟨rfl, rfl, solo⟩
  | read isRead =>
      have solo : m.beginReceive.Calm handle.holds value := calm.keep rfl rfl rfl
      rcases isRead with ⟨rfl, rfl⟩ | ⟨waker, rfl, rfl⟩ | ⟨waker, rfl, rfl⟩
      · exact reading fits trivial (clean.keep rfl rfl rfl rfl rfl) ⟨rfl, rfl, solo⟩
      · exact reading fits (ready waker rfl) (clean.keep rfl rfl rfl rfl rfl) ⟨rfl, rfl, solo⟩
      · refine reading fits ?_ (clean.keep rfl rfl rfl rfl rfl) ⟨rfl, rfl, solo⟩
        intro isChannel holds
        have empty := keeps waker rfl isChannel
        rw [holds] at empty
        simpa using empty
  | cancel | drop => exact left trivial

/-! ### Steps of the sending side -/

theorem trySend_step {pc : WritePc T W} {found : Option T} {value : T} {S' : Sender T W}
    (notTask : kind ≠ .taskFn) (clean : m.Clean) (runs : pc.Runs kind found value none m)
    (step : (Sender.trySending pc).Stepped kind spurious m m' S') :
    InTurn kind ⟨m', S', .idle .connected⟩ := by
  obtain ⟨clean, kept⟩ := runs.step notTask spurious clean
  cases step with
  | trySend inner =>
      rw [inner] at clean kept
      exact trySending clean kept
  | @trySendEnd _ result after inner =>
      rw [inner] at clean kept
      cases result with
      | ok =>
          have calm : after.Calm (decide (kind = .channel) || false) (some value) := kept
          rw [Bool.or_false] at calm
          by_cases isChannel : kind = .channel
          · subst isChannel
            exact rest (fun once => absurd rfl once) (clean.keep rfl rfl rfl rfl rfl)
              (calm.keep rfl rfl rfl)
          · simp only [isChannel, decide_false] at calm
            simp only [Sender.finishTrySend, if_neg isChannel]
            exact rest trivial (clean.keep rfl rfl rfl rfl rfl) (calm.keep rfl rfl rfl)
      | err given dropped =>
          obtain ⟨rfl, rfl, calm⟩ := kept
          exact rest (fun once => absurd rfl once) (clean.keep rfl rfl rfl rfl rfl)
            (calm.keep rfl rfl rfl)
      | panic => exact kept.elim

theorem flushWrite_step {owner : Bool} {waker : W} {pc : WritePc T W} {found : Option T} {value : T}
    {S' : Sender T W} (notTask : kind ≠ .taskFn) (isOwner : owner = decide (kind = .channel))
    (clean : m.Clean) (runs : pc.Runs kind found value (some waker) m)
    (step : (Sender.flushWriting owner waker pc).Stepped kind spurious m m' S') :
    InTurn kind ⟨m', S', .idle .connected⟩ := by
  obtain ⟨clean, kept⟩ := runs.step notTask spurious clean
  cases step with
  | flushWrite inner =>
      rw [inner] at clean kept
      exact flushWriting isOwner clean kept
  | @flushWriteEnd _ _ _ result after inner =>
      rw [inner] at clean kept
      cases result with
      | ok =>
          have calm : after.Calm (decide (kind = .channel) || true) (some value) := kept
          rw [Bool.or_true] at calm
          have fits : (SenderHandle.flush owner true none : SenderHandle T).Fits kind
            (some value) :=
            ⟨rfl, isOwner, fun _ => rfl⟩
          exact rest fits (clean.keep rfl rfl rfl rfl rfl) (calm.keep rfl rfl rfl)
      | err given dropped =>
          obtain ⟨rfl, rfl, calm⟩ := kept
          have fits : (SenderHandle.flush owner true none : SenderHandle T).Fits .channel found :=
            ⟨rfl, isOwner, fun once => absurd rfl once⟩
          exact rest fits (clean.keep rfl rfl rfl rfl rfl) (calm.keep rfl rfl rfl)
      | panic => exact kept.elim

theorem flush_step {owner : Bool} {waker : W} {pc : FlushPc W} {value : Option T} {S' : Sender T W}
    (notTask : kind ≠ .taskFn) (isOwner : owner = decide (kind = .channel)) (clean : m.Clean)
    (runs : pc.Runs kind value m)
    (step : (Sender.flushing owner waker pc).Stepped kind spurious m m' S') :
    InTurn kind ⟨m', S', .idle .connected⟩ := by
  obtain ⟨clean, kept⟩ := runs.step notTask spurious clean
  cases step with
  | flush inner =>
      rw [inner] at clean kept
      exact flushing isOwner clean kept
  | @flushEnd _ _ _ result after inner =>
      rw [inner] at clean kept
      cases result with
      | pending =>
          obtain ⟨isSome, calm⟩ := kept
          have fits : (SenderHandle.flush owner true none : SenderHandle T).Fits kind value :=
            ⟨rfl, isOwner, isSome⟩
          exact rest fits (clean.keep rfl rfl rfl rfl rfl) (calm.keep rfl rfl rfl)
      | ready given dropped =>
          obtain ⟨rfl, calm⟩ := kept
          have fits : (SenderHandle.flush owner true none : SenderHandle T).Fits .channel none :=
            ⟨rfl, isOwner, fun once => absurd rfl once⟩
          exact rest fits (clean.keep rfl rfl rfl rfl rfl) (calm.keep rfl rfl rfl)
      | panic => exact kept.elim

theorem drop_step {pc : DropPc W} {value : Option T} {S' : Sender T W} (clean : m.Clean)
    (solo : pc.Solo true value m) (step : (Sender.dropping pc).Stepped kind spurious m m' S') :
    InTurn kind ⟨m', S', .idle .connected⟩ := by
  obtain ⟨⟨clean, -⟩, kept⟩ := solo.step true clean
  cases step with
  | drop inner =>
      rw [inner] at clean kept
      exact dropping clean kept
  | @dropEnd _ last after inner =>
      rw [inner] at clean kept
      obtain ⟨rfl, -, opened, -⟩ := kept
      exact rest trivial (clean.keep rfl rfl rfl rfl rfl) ((opened rfl).keep rfl rfl rfl)

/-! ### Steps of the receiving side -/

theorem keep_step {handle : SenderHandle T} {value : Option T} (fits : handle.Fits .channel value)
    (clean : m.Clean) (calm : m.Calm handle.holds none) (waker : m.waker = none) :
    InTurn .channel ⟨m, .idle handle, Receiver.keepUnless !handle.holds⟩ := by
  cases holds : handle.holds with
  | true => exact rest fits.of_channel clean calm
  | false =>
      rw [holds] at calm
      exact freeing fits.borrows holds clean (by rw [calm.state]; rfl) calm.value waker

theorem close_step {handle : SenderHandle T} {value : Option T} (fits : handle.Fits kind value)
    (clean : m.Clean) (calm : m.Calm handle.holds none) (waker : m.waker = none) :
    InTurn kind ⟨m, .idle handle, Receiver.closeWith .detached !handle.holds⟩ := by
  cases holds : handle.holds with
  | true =>
      rw [holds] at calm
      exact closing fits.borrows holds clean calm
  | false =>
      rw [holds] at calm
      exact freeing fits.borrows holds clean (by rw [calm.state]; rfl) calm.value waker

theorem finish_read {handle : SenderHandle T} {call : ReceiveCall W} {value : Option T}
    {result : PollResult T} (notTask : kind ≠ .taskFn) (fits : handle.Fits kind value)
    (returns : call.Returns kind handle.holds value) (clean : m.Clean)
    (ended : ReadPc.SoloEnd handle.holds value call.own m result) :
    InTurn kind ⟨(Receiver.finishRead kind m call result).1, .idle handle,
      (Receiver.finishRead kind m call result).2⟩ := by
  cases result with
  | pending =>
      obtain ⟨rfl, isSome, holds, calm⟩ := ended
      cases call with
      | poll waker => exact rest fits (clean.keep rfl rfl rfl rfl rfl) (calm.keep rfl rfl rfl)
      | _ => cases isSome
  | ready taken dropped =>
      obtain ⟨rfl, rfl, noWaker, calm, -⟩ := ended
      have delivered : (m.deliver taken).waker = none := World.deliver_waker.trans noWaker
      cases call with
      | poll waker | tryRecv =>
          cases kind with
          | channel => exact keep_step fits clean.deliver calm.deliver delivered
          | sendOnce => exact close_step fits clean.deliver calm.deliver delivered
          | taskFn => exact absurd rfl notTask
      | recvFirst waker =>
          have answers : (taken.isSome || !handle.holds) = true := returns
          simp only [Receiver.finishRead, answers, if_true, Receiver.finishRecv]
          cases kind with
          | channel => exact keep_step fits clean.deliver calm.deliver delivered
          | sendOnce =>
              apply left
              cases handle.holds <;> trivial
          | taskFn => exact absurd rfl notTask
      | timeoutFirst waker =>
          simp only [Receiver.finishRead, Receiver.finishTimeout]
          cases holds : handle.holds with
          | false =>
              rw [holds] at calm
              exact freeing fits.borrows holds clean (by rw [calm.state]; rfl) calm.value noWaker
          | true =>
              cases taken with
              | none => exact rest fits clean calm
              | some value =>
                  have notChannel : kind ≠ .channel := by
                    intro isChannel
                    cases returns isChannel holds
                  rw [holds] at calm
                  simp only [notChannel, Bool.not_true, Bool.false_eq_true, if_false,
                    Option.isSome_some, if_true]
                  exact closing fits.borrows holds clean calm
      | _ => exact returns.elim
  | panic => exact ended.elim

theorem close_drop_step {handle : SenderHandle T} {pc : DropPc W} {R' : Receiver T W}
    (borrows : handle.Borrows kind) (holds : handle.holds = true) (clean : m.Clean)
    (solo : pc.Solo true none m)
    (step : (Receiver.dropping .detached pc).Stepped kind spurious m m' R') :
    InTurn kind ⟨m', .idle handle, R'⟩ := by
  obtain ⟨⟨clean, -⟩, kept⟩ := solo.step false clean
  cases step with
  | drop inner =>
      rw [inner] at clean kept
      exact closing borrows holds clean kept
  | @dropEnd _ _ last after inner =>
      rw [inner] at clean kept
      obtain ⟨rfl, noWaker, opened, -⟩ := kept
      have calm := opened rfl
      have isClean : { after with receiverDropped := true }.Clean := clean.keep rfl rfl rfl rfl rfl
      refine alone noWaker ⟨borrows, ?_⟩
      rw [holds]
      refine ⟨⟨isClean, ?_, calm.value⟩, fun _ _ _ => noWaker⟩
      exact calm.state.trans (by rw [World.plain, calm.value]; rfl)

theorem sender_step {s : System T W} {S' : Sender T W} (notTask : kind ≠ .taskFn)
    (inTurn : s.InTurn kind) (step : s.sender.Stepped kind spurious s.world m' S') :
    InTurn kind ⟨m', S', s.receiver⟩ := by
  cases inTurn with
  | trySending clean runs => exact trySend_step notTask clean runs step
  | flushWriting isOwner clean runs => exact flushWrite_step notTask isOwner clean runs step
  | flushing isOwner clean runs => exact flush_step notTask isOwner clean runs step
  | dropping clean solo => exact drop_step clean solo step
  | alone waker isAlone => exact alone (isAlone.unwoken waker step) (isAlone.step notTask step)
  | left leaves => exact left leaves
  | rest | reading | closing | freeing => cases step

theorem receiver_step {s : System T W} {R' : Receiver T W} (notTask : kind ≠ .taskFn)
    (inTurn : s.InTurn kind) (step : s.receiver.Stepped kind spurious s.world m' R') :
    InTurn kind ⟨m', s.sender, R'⟩ := by
  cases inTurn with
  | reading fits returns clean solo =>
      obtain ⟨⟨clean, -⟩, kept⟩ := solo.step spurious clean
      cases step with
      | read inner =>
          rw [inner] at clean kept
          exact reading fits returns clean kept
      | readEnd inner =>
          rw [inner] at clean kept
          exact finish_read notTask fits returns clean kept
  | closing borrows holds clean solo => exact close_drop_step borrows holds clean solo step
  | freeing borrows unheld clean inactive value waker =>
      cases step with
      | free =>
          refine alone waker ⟨borrows, ?_⟩
          rw [unheld]
          exact ⟨inactive, .of_dealloc clean value waker⟩
  | left leaves => exact left (leaves.step step)
  | rest | trySending | flushWriting | flushing | dropping | alone => cases step

end System.InTurn

/-! ## Runs -/

namespace System

variable {s s' : System T W} {label : Label T W}

/-- Calls do not overlap, and a blocking receive is made when it has something
to return. -/
def takesTurns (s : System T W) : Label T W → Bool
  | .send _ =>
      match s.receiver with
      | .idle _ => true
      | _ => false
  | .recv op =>
      match s.sender, s.receiver, op with
      | .idle _, .idle .connected, .recv _ => s.world.state.loaded || !s.world.state.active
      | .idle _, _, _ => true
      | _, _, _ => false
  | _ => true

/-- No `wait_next_timeout` finds a value in an open channel. -/
def keepsChannel (kind : Kind) (s : System T W) : Label T W → Bool
  | .recv (.recvTimeout _) => kind ≠ .channel || !(s.world.state.loaded && s.world.state.active)
  | _ => true

namespace InTurn

theorem init : InTurn kind (System.init : System T W) := by
  have calm : ({} : World T W).Calm true none := ⟨rfl, rfl, fun closed => by cases closed⟩
  exact rest (fun _ => rfl) ⟨rfl, rfl, rfl, rfl, rfl⟩ calm

theorem step_send {handle : SenderHandle T} {op : SendOp T W} {S' : Sender T W}
    (notTask : kind ≠ .taskFn) (inTurn : s.InTurn kind) (turns : s.takesTurns (.send op) = true)
    (isIdle : s.sender = .idle handle) (begun : Sender.Begun kind s.world handle op m' S') :
    InTurn kind ⟨m', S', s.receiver⟩ := by
  cases inTurn with
  | rest fits clean calm =>
      cases isIdle
      exact begin_send notTask fits clean calm begun
  | @alone m S waker isAlone =>
      obtain rfl : S = .idle handle := isIdle
      have unwoken : m'.waker = m.waker := by induction begun <;> rfl
      exact alone (unwoken.trans waker) (isAlone.begin notTask (isAlone.spares waker) begun)
  | left leaves => exact left leaves
  | reading | closing | freeing => cases turns
  | trySending | flushWriting | flushing | dropping => cases isIdle

theorem step_recv {handle : ReceiverHandle} {op : RecvOp W} {R' : Receiver T W}
    (inTurn : s.InTurn kind) (turns : s.takesTurns (.recv op) = true)
    (keeps : s.keepsChannel kind (.recv op) = true) (isIdle : s.receiver = .idle handle)
    (begun : Receiver.Begun kind s.world handle op m' R') : InTurn kind ⟨m', s.sender, R'⟩ := by
  cases inTurn with
  | @rest m sending value fits clean calm =>
      cases isIdle
      refine begin_recv fits clean calm ?_ ?_ begun
      · rintro waker rfl
        exact turns
      · rintro waker rfl isChannel
        simpa only [keepsChannel, isChannel, ne_eq, not_true, decide_false, Bool.false_or,
          Bool.not_eq_true'] using keeps
  | @alone m S waker isAlone =>
      cases isIdle
      cases begun with
      | @detached _ next =>
          cases next with
          | connected => exact absurd rfl ‹_›
          | detached => exact alone waker (isAlone.keep rfl rfl rfl rfl rfl rfl rfl rfl)
          | gone => exact left trivial
      | leave => exact left trivial
  | @left m S R leaves =>
      obtain rfl : R = .idle handle := isIdle
      cases handle with
      | gone => cases begun
      | _ => exact leaves.elim
  | trySending | flushWriting | flushing | dropping => cases turns
  | reading | closing | freeing => cases isIdle

theorem step (notTask : kind ≠ .taskFn) (inTurn : s.InTurn kind)
    (turns : s.takesTurns label = true) (keeps : s.keepsChannel kind label = true)
    (step : System.step kind s label = some s') : s'.InTurn kind := by
  rcases System.step_cases step with ⟨handle, op, rfl, isIdle, same, begun⟩ |
    ⟨handle, op, rfl, isIdle, same, begun⟩ | ⟨_, -, same, stepped⟩ | ⟨_, -, same, stepped⟩ |
    ⟨waker, -, parked, -⟩
  · have begins := inTurn.step_send notTask turns isIdle begun
    rw [← same] at begins
    exact begins
  · have begins := inTurn.step_recv turns keeps isIdle begun
    rw [← same] at begins
    exact begins
  · have moves := inTurn.sender_step notTask stepped
    rw [← same] at moves
    exact moves
  · have moves := inTurn.receiver_step notTask stepped
    rw [← same] at moves
    exact moves
  · cases inTurn with
    | left leaves =>
        obtain rfl := parked
        exact leaves.elim
    | _ => cases parked

end InTurn

end System

/-! ## `cancel` -/

section

attribute [local simp] World.access World.store World.receive World.loadValue World.closeReceiver
  World.plain World.clean_iff World.calm_iff World.bare_iff Outcome.elim State.unset

/-- The points of the `read` of a `cancel` alone. -/
def ReadPc.Cancels (active : Bool) (value : Option T) (m : World T W) : ReadPc T W → Prop
  | load waker orCancel => waker = none ∧ orCancel = true ∧ m.Calm active value
  | swap prev => prev = m.state ∧ m.Calm active value ∧ value.isSome ∧ active = false
  | takeClosed =>
      m.state = {} ∧ m.waker = none ∧ m.value = value ∧ value.isSome ∧ active = false
  | cancel prev _ => prev = m.state ∧ m.Calm active none ∧ active = true
  | _ => False

/-- It leaves nothing behind but a waker, and that only in a channel that was
open. -/
def ReadPc.CancelsEnd (active : Bool) (m : World T W) : PollResult T → Prop
  | .ready _ dropped => dropped = !active ∧ m.Bare ∧ (active = false → m.waker = none)
  | .pending | .panic => False

theorem ReadPc.Cancels.step {active : Bool} {value : Option T} {pc : ReadPc T W} (spurious : Bool)
    (empty : active = true → value = none) (clean : m.Clean) (cancels : pc.Cancels active value m) :
    (pc.step spurious m).1.Clean ∧
      (pc.step spurious m).2.elim (Cancels active value (pc.step spurious m).1)
        (CancelsEnd active (pc.step spurious m).1) := by
  obtain ⟨unfreed, fresh, valueKept, wakerKept, unpanicked⟩ := clean
  cases pc with
  | load waker orCancel =>
      obtain ⟨rfl, rfl, state, isValue, unwoken⟩ := cancels
      cases active <;> cases value <;> simp_all [ReadPc.step, ReadPc.loop, Cancels, CancelsEnd]
  | swap prev =>
      obtain ⟨rfl, ⟨state, isValue, unwoken⟩, isSome, rfl⟩ := cancels
      cases value <;> simp_all [ReadPc.step, Cancels]
  | takeClosed =>
      obtain ⟨state, isWaker, isValue, isSome, rfl⟩ := cancels
      cases value <;> simp_all [ReadPc.step, CancelsEnd]
  | cancel prev waker =>
      obtain ⟨rfl, ⟨state, isValue, unwoken⟩, rfl⟩ := cancels
      simp_all [ReadPc.step, CancelsEnd]
  | _ => exact cancels.elim

end

namespace System

variable {s s' : System T W}

/-- A `cancel` in progress. -/
def CancelingSide (kind : Kind) (handle : SenderHandle T) (m : World T W) : Receiver T W → Prop
  | .reading .cancel pc =>
      ∃ value, handle.Fits kind value ∧ (handle.holds = true → value = none) ∧
        m.Clean ∧ pc.Cancels handle.holds value m
  | .freeing .gone => handle.Borrows kind ∧ handle.holds = false ∧ m.Bare ∧ m.waker = none
  | .idle .gone => (Sender.idle handle : Sender T W).Alone kind m
  | _ => False

/-- A channel that is open and empty is left to the sending side. -/
theorem alone_of_canceled {handle : SenderHandle T} (fits : handle.Fits kind none)
    (holds : handle.holds = true) (bare : m.Bare) :
    (Sender.idle handle : Sender T W).Alone kind m := by
  refine ⟨fits.borrows, ?_⟩
  rw [holds]
  refine ⟨bare, ?_⟩
  rintro rfl owner rfl
  cases fits.2.2 (by decide)

theorem receiver_canceling {handle : SenderHandle T} {R R' : Receiver T W}
    (canceling : CancelingSide kind handle m R) (step : R.Stepped kind spurious m m' R') :
    CancelingSide kind handle m' R' := by
  induction step with
  | @read call pc next _ inner =>
      cases call with
      | cancel =>
          obtain ⟨value, fits, empty, clean, cancels⟩ := canceling
          have kept := cancels.step spurious empty clean
          rw [inner] at kept
          exact ⟨value, fits, empty, kept.1, kept.2⟩
      | _ => exact canceling.elim
  | @readEnd call pc result after inner =>
      cases call with
      | cancel =>
          obtain ⟨value, fits, empty, clean, cancels⟩ := canceling
          have kept := cancels.step spurious empty clean
          rw [inner] at kept
          cases result with
          | ready taken dropped =>
              obtain ⟨-, rfl, bare, closed⟩ := kept
              cases holds : handle.holds with
              | true =>
                  obtain rfl := empty holds
                  exact alone_of_canceled fits holds bare
              | false => exact ⟨fits.borrows, holds, bare, closed holds⟩
          | pending | panic => exact kept.2.elim
      | _ => exact canceling.elim
  | unpark | drop | dropEnd => exact canceling.elim
  | @free next =>
      cases next with
      | gone =>
          obtain ⟨borrows, unheld, bare, waker⟩ := canceling
          refine ⟨borrows, ?_⟩
          rw [unheld]
          refine ⟨?_, .of_dealloc bare.clean bare.value waker⟩
          exact congrArg State.active bare.state
      | _ => exact canceling.elim

/-- With the sending side between calls. -/
def Canceling (kind : Kind) (handle : SenderHandle T) (s : System T W) : Prop :=
  s.sender = .idle handle ∧ CancelingSide kind handle s.world s.receiver

theorem Canceling.step {handle : SenderHandle T}
    (canceling : s.Canceling kind handle)
    (step : System.step kind s (.receiver spurious) = some s') : s'.Canceling kind handle := by
  rcases System.step_cases step with ⟨_, _, never, -⟩ | ⟨_, _, never, -⟩ | ⟨_, never, -⟩ |
    ⟨_, -, same, stepped⟩ | ⟨_, never, -⟩
  · cases never
  · cases never
  · cases never
  · obtain ⟨isIdle, canceling⟩ := canceling
    refine ⟨same.trans isIdle, ?_⟩
    exact receiver_canceling canceling stepped
  · cases never

theorem Canceling.run {handle : SenderHandle T} {steps : List Bool}
    (canceling : s.Canceling kind handle)
    (ran : runFrom (System.step kind) s (steps.map .receiver) = some s') :
    s'.Canceling kind handle := by
  induction steps generalizing s with
  | nil =>
      obtain rfl := Option.some.inj ran
      exact canceling
  | cons spurious steps ih =>
      rw [List.map_cons, runFrom_cons, Option.bind_eq_some_iff] at ran
      obtain ⟨next, step, ran⟩ := ran
      exact ih (canceling.step step) ran

/-- A `cancel` made in turn, of a channel that is not both open and loaded. -/
theorem InTurn.begin_cancel {handle : SenderHandle T} {receiving : ReceiverHandle}
    {R' : Receiver T W} (inTurn : s.InTurn kind) (sender : s.sender = .idle handle)
    (receiver : s.receiver = .idle receiving)
    (empty : (s.world.state.active && s.world.state.loaded) = false)
    (begun : Receiver.Begun kind s.world receiving .cancel m' R') :
    CancelingSide kind handle m' R' := by
  cases inTurn with
  | @rest m sending value fits clean calm =>
      cases sender
      cases receiver
      have unloaded (holds : handle.holds = true) : value = none := by
        rw [calm.state, World.plain, calm.value, holds] at empty
        simpa using empty
      cases begun with
      | cancel =>
          refine ⟨value, fits, unloaded, clean.keep rfl rfl rfl rfl rfl, rfl, rfl, ?_⟩
          exact calm.keep rfl rfl rfl
      | read isRead => simp at isRead
  | @alone m S waker isAlone =>
      cases receiver
      obtain rfl : S = .idle handle := sender
      cases begun with
      | detached answers => exact absurd rfl answers.1
      | leave => exact isAlone
  | @left m S R leaves =>
      obtain rfl : R = .idle receiving := receiver
      cases receiving with
      | gone => cases begun
      | _ => exact leaves.elim
  | trySending | flushWriting | flushing | dropping => cases sender
  | reading | closing | freeing => cases receiver

theorem InTurn.cancel {next : System T W} {handle : SenderHandle T} (inTurn : s.InTurn kind)
    (sender : s.sender = .idle handle)
    (empty : (s.world.state.active && s.world.state.loaded) = false)
    (step : System.step kind s (.recv .cancel) = some next) : next.Canceling kind handle := by
  rcases System.step_cases step with ⟨_, _, never, -⟩ | ⟨_, op, isCancel, receiver, same, begun⟩ |
    ⟨_, never, -⟩ | ⟨_, never, -⟩ | ⟨_, never, -⟩
  · cases never
  · obtain rfl : RecvOp.cancel = op := by simpa using isCancel
    exact ⟨same.trans sender, inTurn.begin_cancel sender receiver empty begun⟩
  · cases never
  · cases never
  · cases never

end System

/-- A pair made by `channel` or `send_once` whose calls do not overlap is
cancelled, in a state that is not both open and loaded.  Whatever the sending
side does afterwards, as long as it begins no write that would free the channel
with a waker in it and polls no flush without a channel, it is told so, and in
the end has freed the channel, once, with both cells empty. -/
theorem cancel_disconnects (notTask : kind ≠ .taskFn) {s s' : System T W} {a : Asked T W}
    {handle : SenderHandle T} {steps : List Bool}
    (reachable : ReachableUnder (System.step kind)
      (fun s label => s.takesTurns label = true ∧ s.keepsChannel kind label = true)
      System.init s)
    (atRest : s.sender = .idle handle)
    (empty : (s.world.state.active && s.world.state.loaded) = false)
    (ran : runFrom (System.step kind) s (.recv .cancel :: steps.map .receiver) = some s')
    (returned : s'.receiver = .idle .gone)
    (later : ReachableUnder (Asked.step kind) (fun a label => a.spares label = true)
      { system := s' } a) : a.Disconnected kind := by
  have inTurn : s.InTurn kind := by
    apply reachable.invariant System.InTurn.init
    rintro before label after inTurn ⟨turns, keeps⟩ step
    exact inTurn.step notTask turns keeps step
  rw [runFrom_cons, Option.bind_eq_some_iff] at ran
  obtain ⟨next, begins, ran⟩ := ran
  obtain ⟨isIdle, canceled⟩ := (inTurn.cancel atRest empty begins).run ran
  have left : Asked.LeftAlone kind { system := s' } := by
    refine ⟨returned, ?_, ⟨?_, ?_⟩, ?_⟩
    · rw [returned] at canceled
      rw [isIdle]
      exact canceled
    · rintro _ ⟨⟩
    · rintro _ ⟨⟩
    · rintro _ ⟨⟩
  exact left.run notTask later

/-- A waker is registered, and the sender drops after the `cancel`. -/
theorem cancel_disconnects_of_drop : ∃ a : Asked Nat Nat, a.canceled = [true] ∧
    a.system.world.freed = 1 ∧ a.system.world.waker = none ∧ a.Disconnected .channel := by
  obtain ⟨s, ran, atRest, empty, s', canceled, returned, a, later, asked, freed, waker⟩ :
      ∃ s ∈ runFrom (guarded (System.step .channel) fun s label =>
          s.takesTurns label && s.keepsChannel .channel label) (System.init : System Nat Nat)
          (List.flatten [[.recv (.poll 1)], List.replicate 4 (.receiver false)]),
        s.sender = .idle .connected ∧ (s.world.state.active && s.world.state.loaded) = false ∧
          ∃ s' ∈ runFrom (System.step .channel) s (.recv .cancel :: [false, false].map .receiver),
            s'.receiver = .idle .gone ∧
              ∃ a ∈ runFrom (guarded (Asked.step .channel) Asked.spares)
                  ({ system := s' } : Asked Nat Nat)
                  (List.flatten [[.isCanceled, .base (.send .drop)],
                    List.replicate 3 (.base (.sender false))]),
                a.canceled = [true] ∧ a.system.world.freed = 1 ∧ a.system.world.waker = none := by
    decide
  have reachable := (reachableUnder_of_runFrom ran).mono fun _ _ careful =>
    Bool.and_eq_true_iff.mp careful
  exact ⟨a, asked, freed, waker, cancel_disconnects (by decide) reachable atRest empty canceled
    returned (reachableUnder_of_runFrom later)⟩

/-- A `cancel` that takes a value from an open channel leaves it open. -/
theorem cancel_leaves_open : ¬ ∀ (s s' : System Nat Nat) (a : Asked Nat Nat)
    (handle : SenderHandle Nat) (steps : List Bool),
    ReachableUnder (System.step .channel)
      (fun s label => s.takesTurns label = true ∧ s.keepsChannel .channel label = true)
      System.init s → s.sender = .idle handle →
      runFrom (System.step .channel) s (.recv .cancel :: steps.map .receiver) = some s' →
        s'.receiver = .idle .gone → Reachable (Asked.step .channel) { system := s' } a →
          a.Disconnected .channel := by
  intro always
  obtain ⟨s, ran, atRest, s', canceled, returned, a, later, asked⟩ :
      ∃ s ∈ runFrom (guarded (System.step .channel) fun s label =>
          s.takesTurns label && s.keepsChannel .channel label) (System.init : System Nat Nat)
          (List.flatten [[.send (.trySend 7)], List.replicate 3 (.sender false)]),
        s.sender = .idle .connected ∧
          ∃ s' ∈ runFrom (System.step .channel) s
              (.recv .cancel :: (List.replicate 4 false).map .receiver),
            s'.receiver = .idle .gone ∧
              ∃ a ∈ runFrom (Asked.step .channel) ({ system := s' } : Asked Nat Nat)
                [.isCanceled], a.canceled = [false] := by
    decide
  have reachable := (reachableUnder_of_runFrom ran).mono fun _ _ careful =>
    Bool.and_eq_true_iff.mp careful
  have disconnected :=
    always s s' a _ _ reachable atRest canceled returned (reachable_of_runFrom later)
  cases disconnected.canceled false (by rw [asked]; decide)

end Suspend.Channel
