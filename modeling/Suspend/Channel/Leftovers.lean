import Suspend.Channel.SendOnce

/-!
# A `channel()` pair whose calls do not overlap

The box is freed with whatever its cells hold.  The drops and `read` free it
only after they have emptied the value cell, and a waker is there only while
both sides are; `try_send` frees it without a look at the value that a receiver
may have left behind.
-/

namespace Suspend.Channel

open Suspend.Transition

universe u v

variable {T : Type u} {W : Type v}

attribute [local simp] World.access World.store World.fetchAnd World.fetchOr World.storeValue
  World.loadValue World.storeWaker World.loadWaker World.wake World.publish World.plain
  World.clean_iff World.calm_iff World.steps_iff World.Rewakes Outcome.elim State.set State.unset
  WritePc.carries WritePc.wakes FlushPc.wakes

/-! ## `write` and `flush` that leave the side open -/

namespace WritePc

/-- The points of a `write` alone that does not close its side: it may find
the channel closed, or the last value not yet taken. -/
def Keeps (active : Bool) (found : Option T) (value : T) (own : Option W) (m : World T W) :
    WritePc T W → Prop
  | load given waker => given = value ∧ waker = own ∧ m.Calm active found
  | sync given => given = value ∧ m.Calm active found ∧ active = false
  | wake _ => found = none ∧ m.Calm true (some value) ∧ active = true
  | pc => found = none ∧ pc.Solo active value own m

/-- What it returns and leaves behind. -/
def KeepsEnd (active : Bool) (found : Option T) (value : T) (m : World T W) :
    WriteResult T → Prop
  | .ok => found = none ∧ m.Calm true (some value) ∧ active = true
  | .err given dropped => given = some value ∧ dropped = !active ∧ m.Calm active found
  | .panic => False

variable {m : World T W} {active : Bool} {found : Option T} {value : T} {own : Option W}
  {pc : WritePc T W}

theorem Keeps.step (spurious : Bool) (keeps : pc.Keeps active found value own m)
    (clean : m.Clean) :
    m.Steps (pc.step false spurious m).1 pc.carries
        ((pc.step false spurious m).2.elim carries fun _ => none) pc.wakes ∧
      (pc.step false spurious m).2.elim (Keeps active found value own (pc.step false spurious m).1)
        (KeepsEnd active found value (pc.step false spurious m).1) := by
  obtain ⟨unfreed, fresh, valueKept, wakerKept, unpanicked⟩ := clean
  cases pc with
  | load given waker =>
      obtain ⟨rfl, rfl, state, isValue, unwoken⟩ := keeps
      cases active <;> cases found <;> cases isWaker : m.waker <;>
        simp_all [WritePc.step, Keeps, KeepsEnd, Solo]
  | sync given =>
      obtain ⟨rfl, ⟨state, isValue, unwoken⟩, rfl⟩ := keeps
      cases found <;> simp_all [WritePc.step, KeepsEnd]
  | store prev given waker =>
      obtain ⟨rfl, rfl, rfl, rfl, ⟨state, isValue, unwoken⟩, rfl⟩ := keeps
      cases waker <;> cases isWaker : m.waker <;> simp_all [WritePc.step, Keeps, Solo]
  | fast prev =>
      obtain ⟨rfl, rfl, rfl, state, isValue, isWaker, rfl⟩ := keeps
      cases spurious <;> simp_all [WritePc.step, Keeps, Solo, KeepsEnd]
  | lock waker =>
      obtain ⟨rfl, rfl, state, isValue, rfl⟩ := keeps
      cases waker <;> cases isWaker : m.waker <;> simp_all [WritePc.step, Keeps, Solo, locked]
  | takeReader prev waker =>
      obtain ⟨rfl, rfl, rfl, state, isValue, isWaker, rfl⟩ := keeps
      cases waker <;> simp_all [WritePc.step, Keeps, Solo, locked]
  | storeWaker prev waker readWaker =>
      obtain ⟨rfl, rfl, ⟨wake, rfl⟩, state, isValue, isWaker, rfl⟩ := keeps
      simp_all [WritePc.step, Keeps, Solo]
  | release prev waker readWaker =>
      obtain ⟨rfl, rfl, ⟨wake, rfl⟩, state, isValue, isWaker, rfl⟩ := keeps
      cases readWaker <;> simp_all [WritePc.step, Keeps, KeepsEnd, finish]
  | unlock readWaker =>
      obtain ⟨rfl, rfl, state, isValue, isWaker, rfl⟩ := keeps
      cases readWaker <;> simp_all [WritePc.step, Keeps, KeepsEnd, finish]
  | wake waker =>
      obtain ⟨rfl, ⟨state, isValue, unwoken⟩, rfl⟩ := keeps
      simp_all [WritePc.step, KeepsEnd]
  | _ => exact keeps.2.elim

end WritePc

namespace FlushPc

/-- The points of a `flush` alone that does not close its side. -/
def Keeps (active : Bool) (found : Option T) (m : World T W) : FlushPc W → Prop
  | load _ => m.Calm active found
  | finish => m.Calm active found ∧ found = none
  | reset => m.Calm active found ∧ found.isSome ∧ active = false
  | takeBack =>
      m.state = State.done ∧ m.value = found ∧ m.waker = none ∧ found.isSome ∧ active = false
  | pc => pc.Solo active found m

/-- What it returns and leaves behind. -/
def KeepsEnd (active : Bool) (found : Option T) (m : World T W) : PollResult T → Prop
  | .pending => m.Calm active found
  | .ready given _ => given = found ∧ m.Calm active none
  | .panic => False

variable {m : World T W} {active : Bool} {found : Option T} {pc : FlushPc W}

theorem Keeps.step (spurious : Bool) (keeps : pc.Keeps active found m) (clean : m.Clean) :
    m.Steps (pc.step false spurious m).1 none none pc.wakes ∧
      (pc.step false spurious m).2.elim (Keeps active found (pc.step false spurious m).1)
        (KeepsEnd active found (pc.step false spurious m).1) := by
  obtain ⟨unfreed, fresh, valueKept, wakerKept, unpanicked⟩ := clean
  cases pc with
  | load waker =>
      obtain ⟨state, isValue, unwoken⟩ := keeps
      cases active <;> cases found <;> cases isWaker : m.waker <;>
        simp_all [FlushPc.step, loop, Keeps, Solo]
  | finish =>
      obtain ⟨⟨state, isValue, unwoken⟩, rfl⟩ := keeps
      simp_all [FlushPc.step, KeepsEnd]
  | reset =>
      obtain ⟨⟨state, isValue, unwoken⟩, isSome, rfl⟩ := keeps
      simp_all [FlushPc.step, Keeps]
  | takeBack =>
      obtain ⟨state, isValue, isWaker, isSome, rfl⟩ := keeps
      cases found <;> simp_all [FlushPc.step, KeepsEnd, State.done]
  | lock prev waker =>
      obtain ⟨rfl, ⟨state, isValue, unwoken⟩, isSome, rfl⟩ := keeps
      cases found <;> cases isWaker : m.waker <;> cases spurious <;>
        simp_all [FlushPc.step, loop, Keeps, Solo]
  | clearPrev prev waker =>
      obtain ⟨rfl, state, isValue, isWaker, isSome, rfl⟩ := keeps
      simp_all [FlushPc.step, Keeps, Solo]
  | storeWaker prev waker =>
      obtain ⟨⟨wake, rfl⟩, state, isValue, isWaker, isSome, rfl⟩ := keeps
      simp_all [FlushPc.step, Keeps, Solo]
  | release prev waker =>
      obtain ⟨⟨wake, rfl⟩, state, isValue, isWaker, isSome, rfl⟩ := keeps
      cases found <;> cases spurious <;> simp_all [FlushPc.step, Keeps, Solo, KeepsEnd]
  | clearOwn waker =>
      obtain ⟨state, isValue, isWaker, isSome, rfl⟩ := keeps
      simp_all [FlushPc.step, Keeps, Solo]
  | unlock waker =>
      obtain ⟨state, isValue, isWaker, isSome, rfl⟩ := keeps
      cases found <;> simp_all [FlushPc.step, loop, Keeps, Solo]
  | _ => exact keeps.elim

end FlushPc

/-! ## Between calls -/

/-- The sender, or the flush that borrows it, has its pointer. -/
def SenderHandle.attached : SenderHandle T → Bool
  | connected | flush true _ _ => true
  | _ => false

/-- A flush has the pointer of the sender it borrows, and a sender has lost its
pointer only to a receiver that is gone. -/
def SenderHandle.Paired (receives : Bool) : SenderHandle T → Prop
  | connected | gone => True
  | detached => receives = false
  | flush owner channel _ => owner = channel ∧ (owner = false → receives = false)

/-- The allocation has been freed, once, and both cells are empty. -/
structure World.Emptied (m : World T W) : Prop where
  freed : m.freed = 1
  fresh : m.stale = false
  valueKept : m.valueMisuse = false
  wakerKept : m.wakerMisuse = false
  value : m.value = none
  waker : m.waker = none

/-- The channel between calls. -/
def World.Between (sends receives : Bool) (m : World T W) : Prop :=
  if sends || receives then m.Clean ∧ m.Calm (sends && receives) m.value else m.Emptied

/-- The blocking call has something to return. -/
def ReceiveCall.Answers (active : Bool) (value : Option T) : ReceiveCall W → Prop
  | poll _ | tryRecv => True
  | recvFirst _ => value.isSome || !active
  | _ => False

/-- A pair of which at most one side is inside a call. -/
inductive System.Orderly : System T W → Prop
  | quiet {m handle receiver} (paired : handle.Paired (receiver = .connected))
      (between : m.Between handle.attached (receiver = .connected)) :
      Orderly ⟨m, .idle handle, .idle receiver⟩
  | trySending {m pc found value receiver} (taken : receiver ≠ .connected → found = none)
      (clean : m.Clean) (keeps : pc.Keeps (receiver = .connected) found value none m) :
      Orderly ⟨m, .trySending pc, .idle receiver⟩
  | flushWriting {m pc found value waker receiver} (clean : m.Clean)
      (keeps : pc.Keeps (receiver = .connected) found value (some waker) m) :
      Orderly ⟨m, .flushWriting true waker pc, .idle receiver⟩
  | flushing {m pc found waker receiver} (clean : m.Clean)
      (keeps : pc.Keeps (receiver = .connected) found m) :
      Orderly ⟨m, .flushing true waker pc, .idle receiver⟩
  | senderDropping {m pc value receiver} (clean : m.Clean)
      (solo : pc.Solo (receiver = .connected) value m) :
      Orderly ⟨m, .dropping pc, .idle receiver⟩
  | senderFreeing {m handle receiver} (left : handle = .gone ∨ handle = .detached)
      (closed : receiver ≠ .connected) (clean : m.Clean) (value : m.value = none)
      (waker : m.waker = none) : Orderly ⟨m, .freeing handle, .idle receiver⟩
  | reading {m handle call pc value} (paired : handle.Paired true)
      (answers : call.Answers handle.attached value) (clean : m.Clean)
      (solo : pc.Solo handle.attached value call.own m) :
      Orderly ⟨m, .idle handle, .reading call pc⟩
  | receiverDropping {m handle pc value} (paired : handle.Paired true) (clean : m.Clean)
      (solo : pc.Solo handle.attached value m) :
      Orderly ⟨m, .idle handle, .dropping .gone pc⟩
  | receiverFreeing {m handle receiver} (paired : handle.Paired false)
      (closed : handle.attached = false) (left : receiver ≠ .connected) (clean : m.Clean)
      (value : m.value = none) (waker : m.waker = none) :
      Orderly ⟨m, .idle handle, .freeing receiver⟩

variable {m m' : World T W}

theorem SenderHandle.Paired.leave {handle : SenderHandle T} (paired : handle.Paired true) :
    handle.Paired false := by
  cases handle with
  | connected | gone => trivial
  | detached => rfl
  | flush owner channel value => exact ⟨paired.1, fun _ => rfl⟩

theorem World.Emptied.keep (emptied : m.Emptied) (freed : m'.freed = m.freed)
    (stale : m'.stale = m.stale) (valueMisuse : m'.valueMisuse = m.valueMisuse)
    (wakerMisuse : m'.wakerMisuse = m.wakerMisuse) (value : m'.value = m.value)
    (waker : m'.waker = m.waker) : m'.Emptied :=
  ⟨freed.trans emptied.freed, stale.trans emptied.fresh, valueMisuse.trans emptied.valueKept,
    wakerMisuse.trans emptied.wakerKept, value.trans emptied.value, waker.trans emptied.waker⟩

theorem World.Between.open {sends receives : Bool} (between : m.Between sends receives)
    (live : (sends || receives) = true) : m.Clean ∧ m.Calm (sends && receives) m.value := by
  rwa [World.Between, if_pos live] at between

theorem World.Between.connected {sends : Bool}
    (between : m.Between sends (ReceiverHandle.connected = .connected)) :
    m.Clean ∧ m.Calm sends m.value := by
  simpa using between.open (Bool.or_true sends)

theorem World.Between.of_open {sends receives : Bool} (live : (sends || receives) = true)
    (clean : m.Clean) {value : Option T} (calm : m.Calm (sends && receives) value) :
    m.Between sends receives := by
  obtain rfl := calm.value
  rw [World.Between, if_pos live]
  exact ⟨clean, calm⟩

theorem World.Between.keep {sends receives : Bool} (between : m.Between sends receives)
    (freed : m'.freed = m.freed) (stale : m'.stale = m.stale)
    (valueMisuse : m'.valueMisuse = m.valueMisuse) (wakerMisuse : m'.wakerMisuse = m.wakerMisuse)
    (panicked : (sends || receives) = true → m'.panicked = m.panicked)
    (state : m'.state = m.state) (value : m'.value = m.value) (waker : m'.waker = m.waker) :
    m'.Between sends receives := by
  by_cases live : (sends || receives) = true
  · obtain ⟨clean, calm⟩ := between.open live
    apply World.Between.of_open live
    · exact clean.keep freed stale valueMisuse wakerMisuse (panicked live)
    · exact calm.keep state value waker
  · rw [World.Between, if_neg live] at between ⊢
    exact between.keep freed stale valueMisuse wakerMisuse value waker

theorem World.Emptied.of_dealloc (clean : m.Clean) (value : m.value = none)
    (waker : m.waker = none) : m.dealloc.Emptied :=
  ⟨by simp [World.dealloc, clean.unfreed], clean.fresh, clean.valueKept, clean.wakerKept, value,
    waker⟩

namespace System.Orderly

theorem of_attached {handle : SenderHandle T} {receiver : ReceiverHandle} {value : Option T}
    (attached : handle.attached = true) (paired : handle.Paired (receiver = .connected))
    (clean : m.Clean) (calm : m.Calm (receiver = .connected) value) :
    Orderly ⟨m, .idle handle, .idle receiver⟩ := by
  apply quiet paired
  rw [attached]
  exact .of_open rfl clean calm

theorem of_connected {handle : SenderHandle T} {value : Option T} (paired : handle.Paired true)
    (clean : m.Clean) (calm : m.Calm handle.attached value) :
    Orderly ⟨m, .idle handle, .idle .connected⟩ := by
  refine quiet ?_ ?_
  · exact paired
  · apply World.Between.of_open (Bool.or_true _) clean
    simpa using calm

/-! ## Calls begin -/

theorem begin_send {handle : SenderHandle T} {receiver : ReceiverHandle} {op : SendOp T W}
    {S' : Sender T W} (paired : handle.Paired (receiver = .connected))
    (between : m.Between handle.attached (receiver = .connected))
    (careful : ∀ value, op = .trySend value → handle = .connected →
      (m.state.active || !m.state.loaded) = true)
    (begun : Sender.Begun .channel m handle op m' S') :
    Orderly ⟨m', S', .idle receiver⟩ ∧ m'.waker = m.waker := by
  induction begun with
  | @trySend value =>
      obtain ⟨clean, calm⟩ := between.open rfl
      refine ⟨?_, rfl⟩
      have keeps : (WritePc.load value none).Keeps (receiver = .connected) m.value value none
          ((m.pass value).beginWrite value) := ⟨rfl, rfl, calm.state, calm.value, calm.waker⟩
      have taken : receiver ≠ .connected → m.value = none := by
        intro left
        have untouched := careful value rfl rfl
        rw [calm.state] at untouched
        simpa [World.plain, SenderHandle.attached, left] using untouched
      exact trySending taken (clean.keep rfl rfl rfl rfl rfl) keeps
  | @pollFirst owner value waker =>
      obtain ⟨rfl, -⟩ := paired
      obtain ⟨clean, calm⟩ := between.open rfl
      refine ⟨?_, rfl⟩
      have keeps : (WritePc.load value (some waker)).Keeps (receiver = .connected) m.value value
          (some waker) (m.beginFlush.beginWrite value) :=
        ⟨rfl, rfl, calm.state, calm.value, calm.waker⟩
      exact flushWriting (clean.keep rfl rfl rfl rfl rfl) keeps
  | @poll owner waker =>
      obtain ⟨rfl, -⟩ := paired
      obtain ⟨clean, calm⟩ := between.open rfl
      refine ⟨?_, rfl⟩
      have keeps : (FlushPc.load waker).Keeps (receiver = .connected) m.value m.beginFlush :=
        ⟨calm.state, calm.value, calm.waker⟩
      exact flushing (clean.keep rfl rfl rfl rfl rfl) keeps
  | drop =>
      obtain ⟨clean, calm⟩ := between.open rfl
      refine ⟨?_, rfl⟩
      have solo : (DropPc.lock : DropPc W).Solo (receiver = .connected) m.value m.leaveFlush :=
        ⟨calm.state, calm.value, calm.waker⟩
      exact senderDropping (clean.keep rfl rfl rfl rfl rfl) solo
  | trySendDetached =>
      exact ⟨quiet paired (between.keep rfl rfl rfl rfl (fun _ => rfl) rfl rfl rfl), rfl⟩
  | send =>
      refine ⟨quiet ⟨rfl, fun never => by cases never⟩ ?_, rfl⟩
      exact between.keep rfl rfl rfl rfl (fun _ => rfl) rfl rfl rfl
  | sendDetached =>
      refine ⟨quiet ⟨rfl, fun _ => paired⟩ ?_, rfl⟩
      exact between.keep rfl rfl rfl rfl (fun _ => rfl) rfl rfl rfl
  | @pollDetached owner =>
      obtain ⟨rfl, left⟩ := paired
      refine ⟨quiet ⟨rfl, left⟩ ?_, rfl⟩
      -- the other side is gone too: the panic finds the channel freed
      refine between.keep rfl rfl rfl rfl ?_ rfl rfl rfl
      intro live
      rw [left rfl] at live
      cases live
  | pollDone => exact ⟨quiet paired between, rfl⟩
  | @dropBorrow owner channel value =>
      cases owner with
      | true =>
          refine ⟨quiet trivial ?_, rfl⟩
          exact between.keep rfl rfl rfl rfl (fun _ => rfl) rfl rfl rfl
      | false =>
          refine ⟨quiet (paired.2 rfl) ?_, rfl⟩
          exact between.keep rfl rfl rfl rfl (fun _ => rfl) rfl rfl rfl
  | dropDetached => exact ⟨quiet trivial between, rfl⟩
  | run isTask => cases isTask
  | runPanic isTask => cases isTask
  | dropFlush notChannel => exact absurd rfl notChannel
  | dropFlushDone notChannel => exact absurd rfl notChannel

theorem begin_recv {handle : SenderHandle T} {receiver : ReceiverHandle} {op : RecvOp W}
    {R' : Receiver T W} (paired : handle.Paired (receiver = .connected))
    (between : m.Between handle.attached (receiver = .connected))
    (plain : op ≠ .cancel ∧ ∀ waker, op ≠ .recvTimeout waker)
    (ready : ∀ waker, op = .recv waker → receiver = .connected →
      (m.state.loaded || !m.state.active) = true)
    (begun : Receiver.Begun .channel m receiver op m' R') :
    Orderly ⟨m', .idle handle, R'⟩ ∧ m'.waker = m.waker := by
  induction begun with
  | @poll waker =>
      obtain ⟨clean, calm⟩ := between.connected
      refine ⟨?_, rfl⟩
      have solo : (ReadPc.load (some waker) false).Solo handle.attached m.value (some waker)
          m.beginPoll := ⟨rfl, rfl, calm.state, calm.value, calm.waker⟩
      exact reading paired trivial (clean.keep rfl rfl rfl rfl rfl) solo
  | @read op call isRead =>
      obtain ⟨clean, calm⟩ := between.connected
      refine ⟨?_, rfl⟩
      have solo : (ReadPc.load none false).Solo handle.attached m.value none m.beginReceive :=
        ⟨rfl, rfl, calm.state, calm.value, calm.waker⟩
      rcases isRead with ⟨rfl, rfl⟩ | ⟨waker, rfl, rfl⟩ | ⟨waker, rfl, rfl⟩
      · exact reading paired trivial (clean.keep rfl rfl rfl rfl rfl) solo
      · have answers := ready waker rfl rfl
        rw [calm.state] at answers
        exact reading paired answers (clean.keep rfl rfl rfl rfl rfl) solo
      · exact absurd rfl (plain.2 waker)
  | cancel => exact absurd rfl plain.1
  | drop =>
      obtain ⟨clean, calm⟩ := between.connected
      refine ⟨?_, rfl⟩
      have solo : (DropPc.lock : DropPc W).Solo handle.attached m.value m.beginReceive :=
        ⟨calm.state, calm.value, calm.waker⟩
      exact receiverDropping paired (clean.keep rfl rfl rfl rfl rfl) solo
  | @detached _ next _ remains =>
      have left : (decide (next = .connected)) = false := by simpa using remains
      refine ⟨quiet ?_ ?_, rfl⟩
      · rw [left]
        exact paired
      · rw [left]
        exact between.keep rfl rfl rfl rfl (fun _ => rfl) rfl rfl rfl
  | leave => exact ⟨quiet paired between, rfl⟩

/-! ## Steps inside a call -/

variable {spurious : Bool}

theorem trySend_step {pc : WritePc T W} {found : Option T} {value : T}
    {receiver : ReceiverHandle} {S' : Sender T W} (taken : receiver ≠ .connected → found = none)
    (clean : m.Clean) (keeps : pc.Keeps (receiver = .connected) found value none m)
    (step : (Sender.trySending pc).Stepped .channel spurious m m' S') :
    Orderly ⟨m', S', .idle receiver⟩ ∧ m.Rewakes m' pc.carries S'.carries pc.wakes := by
  obtain ⟨⟨clean, rewakes⟩, kept⟩ := keeps.step spurious clean
  cases step with
  | trySend inner =>
      rw [show Kind.finalize .channel = false from rfl] at inner
      rw [inner] at clean rewakes kept
      exact ⟨trySending taken clean kept, rewakes⟩
  | @trySendEnd _ result after inner =>
      rw [show Kind.finalize .channel = false from rfl] at inner
      rw [inner] at clean rewakes kept
      refine ⟨?_, rewakes.finish Sender.finishTrySend_wakers⟩
      cases result with
      | ok =>
          obtain ⟨rfl, calm, isOpen⟩ := kept
          rw [← isOpen] at calm
          exact of_attached rfl trivial (clean.keep rfl rfl rfl rfl rfl) (calm.keep rfl rfl rfl)
      | err given dropped =>
          obtain ⟨rfl, rfl, calm⟩ := kept
          by_cases isOpen : receiver = .connected
          · subst isOpen
            exact of_attached rfl trivial (clean.keep rfl rfl rfl rfl rfl) (calm.keep rfl rfl rfl)
          · obtain rfl := taken isOpen
            simp only [isOpen, decide_false] at calm
            simp only [isOpen, decide_false, Bool.not_false, Sender.finishTrySend, if_true]
            exact senderFreeing (.inr rfl) isOpen (clean.keep rfl rfl rfl rfl rfl) calm.value
              (calm.waker rfl)
      | panic => exact kept.elim

theorem flushWrite_step {pc : WritePc T W} {found : Option T} {value : T} {waker : W}
    {receiver : ReceiverHandle} {S' : Sender T W} (clean : m.Clean)
    (keeps : pc.Keeps (receiver = .connected) found value (some waker) m)
    (step : (Sender.flushWriting true waker pc).Stepped .channel spurious m m' S') :
    Orderly ⟨m', S', .idle receiver⟩ ∧ m.Rewakes m' pc.carries S'.carries pc.wakes := by
  obtain ⟨⟨clean, rewakes⟩, kept⟩ := keeps.step spurious clean
  cases step with
  | flushWrite inner =>
      rw [show Kind.finalize .channel = false from rfl] at inner
      rw [inner] at clean rewakes kept
      exact ⟨flushWriting clean kept, rewakes⟩
  | @flushWriteEnd _ _ _ result after inner =>
      rw [show Kind.finalize .channel = false from rfl] at inner
      rw [inner] at clean rewakes kept
      refine ⟨?_, rewakes.finish Sender.finishFlushWrite_wakers⟩
      have paired : (SenderHandle.flush true true none : SenderHandle T).Paired
          (receiver = .connected) := ⟨rfl, fun never => by cases never⟩
      cases result with
      | ok =>
          obtain ⟨rfl, calm, isOpen⟩ := kept
          rw [← isOpen] at calm
          exact of_attached rfl paired (clean.keep rfl rfl rfl rfl rfl) (calm.keep rfl rfl rfl)
      | err given dropped =>
          obtain ⟨rfl, -, calm⟩ := kept
          exact of_attached rfl paired (clean.keep rfl rfl rfl rfl rfl) (calm.keep rfl rfl rfl)
      | panic => exact kept.elim

theorem flush_step {pc : FlushPc W} {found : Option T} {waker : W} {receiver : ReceiverHandle}
    {S' : Sender T W} (clean : m.Clean) (keeps : pc.Keeps (receiver = .connected) found m)
    (step : (Sender.flushing true waker pc).Stepped .channel spurious m m' S') :
    Orderly ⟨m', S', .idle receiver⟩ ∧ m.Rewakes m' none S'.carries pc.wakes := by
  obtain ⟨⟨clean, rewakes⟩, kept⟩ := keeps.step spurious clean
  cases step with
  | flush inner =>
      rw [show Kind.finalize .channel = false from rfl] at inner
      rw [inner] at clean rewakes kept
      exact ⟨flushing clean kept, rewakes⟩
  | @flushEnd _ _ _ result after inner =>
      rw [show Kind.finalize .channel = false from rfl] at inner
      rw [inner] at clean rewakes kept
      refine ⟨?_, rewakes.finish Sender.finishFlush_wakers⟩
      have paired : (SenderHandle.flush true true none : SenderHandle T).Paired
          (receiver = .connected) := ⟨rfl, fun never => by cases never⟩
      cases result with
      | pending =>
          exact of_attached rfl paired (clean.keep rfl rfl rfl rfl rfl) (kept.keep rfl rfl rfl)
      | ready given dropped =>
          obtain ⟨rfl, calm⟩ := kept
          exact of_attached rfl paired (clean.keep rfl rfl rfl rfl rfl) (calm.keep rfl rfl rfl)
      | panic => exact kept.elim

theorem sendDrop_step {pc : DropPc W} {value : Option T} {receiver : ReceiverHandle}
    {S' : Sender T W} (clean : m.Clean) (solo : pc.Solo (receiver = .connected) value m)
    (step : (Sender.dropping pc).Stepped .channel spurious m m' S') :
    Orderly ⟨m', S', .idle receiver⟩ ∧ m.Rewakes m' pc.carries S'.carries pc.wakes := by
  obtain ⟨⟨clean, rewakes⟩, kept⟩ := solo.step true clean
  cases step with
  | drop inner =>
      rw [inner] at clean rewakes kept
      exact ⟨senderDropping clean kept, rewakes⟩
  | @dropEnd _ last after inner =>
      rw [inner] at clean rewakes kept
      obtain ⟨rfl, noWaker, opened, noValue⟩ := kept
      by_cases isOpen : receiver = .connected
      · subst isOpen
        refine ⟨?_, rewakes.finish ⟨rfl, rfl⟩⟩
        exact of_connected trivial (clean.keep rfl rfl rfl rfl rfl) ((opened rfl).keep rfl rfl rfl)
      · simp only [isOpen, decide_false, Bool.not_false, Sender.finishDrop, if_true]
        refine ⟨?_, rewakes.finish ⟨rfl, rfl⟩⟩
        refine senderFreeing (.inl rfl) isOpen (clean.keep rfl rfl rfl rfl rfl) ?_ noWaker
        exact noValue (by simpa using isOpen)

theorem recvDrop_step {pc : DropPc W} {value : Option T} {handle : SenderHandle T}
    {R' : Receiver T W} (paired : handle.Paired true) (clean : m.Clean)
    (solo : pc.Solo handle.attached value m)
    (step : (Receiver.dropping .gone pc).Stepped .channel spurious m m' R') :
    Orderly ⟨m', .idle handle, R'⟩ ∧ m.Rewakes m' pc.carries R'.carries pc.wakes := by
  obtain ⟨⟨clean, rewakes⟩, kept⟩ := solo.step false clean
  cases step with
  | drop inner =>
      rw [inner] at clean rewakes kept
      exact ⟨receiverDropping paired clean kept, rewakes⟩
  | @dropEnd _ _ last after inner =>
      rw [inner] at clean rewakes kept
      obtain ⟨rfl, noWaker, opened, noValue⟩ := kept
      cases isOpen : handle.attached with
      | true =>
          refine ⟨?_, rewakes.finish ⟨rfl, rfl⟩⟩
          exact of_attached isOpen paired.leave (clean.keep rfl rfl rfl rfl rfl)
            ((opened isOpen).keep rfl rfl rfl)
      | false =>
          refine ⟨?_, rewakes.finish ⟨rfl, rfl⟩⟩
          exact receiverFreeing paired.leave isOpen (by simp) (clean.keep rfl rfl rfl rfl rfl)
            (noValue isOpen) noWaker

/-- A `read` has returned to the receiving call that made it. -/
theorem finish_read {handle : SenderHandle T} {call : ReceiveCall W} {value : Option T}
    {result : PollResult T} (paired : handle.Paired true)
    (answers : call.Answers handle.attached value) (clean : m.Clean)
    (ended : ReadPc.SoloEnd handle.attached value call.own m result) :
    Orderly ⟨(Receiver.finishRead .channel m call result).1, .idle handle,
      (Receiver.finishRead .channel m call result).2⟩ := by
  cases result with
  | pending =>
      obtain ⟨noValue, isSome, isOpen, calm⟩ := ended
      cases call with
      | poll waker =>
          exact of_connected paired (clean.keep rfl rfl rfl rfl rfl) (calm.keep rfl rfl rfl)
      | _ => cases isSome
  | ready taken dropped =>
      obtain ⟨rfl, rfl, noWaker, calm, -⟩ := ended
      have ends : Orderly ⟨m.deliver taken, .idle handle,
          Receiver.keepUnless (T := T) (W := W) !handle.attached⟩ := by
        cases isOpen : handle.attached with
        | true => exact of_connected paired clean.deliver calm.deliver
        | false =>
            exact receiverFreeing paired.leave isOpen (by simp) clean.deliver calm.deliver.value
              (World.deliver_waker.trans noWaker)
      cases call with
      | poll waker => exact ends
      | tryRecv => exact ends
      | recvFirst waker =>
          have returns : (taken.isSome || !handle.attached) = true := answers
          simpa [Receiver.finishRead, returns, Receiver.finishRecv] using ends
      | _ => exact answers.elim
  | panic => exact ended.elim

theorem sender_step {s : System T W} {S' : Sender T W} (orderly : s.Orderly)
    (step : s.sender.Stepped .channel spurious s.world m' S') :
    Orderly ⟨m', S', s.receiver⟩ ∧
      s.world.Rewakes m' s.sender.carries S'.carries s.sender.wakes := by
  cases orderly with
  | trySending taken clean keeps => exact trySend_step taken clean keeps step
  | flushWriting clean keeps => exact flushWrite_step clean keeps step
  | flushing clean keeps => exact flush_step clean keeps step
  | senderDropping clean solo => exact sendDrop_step clean solo step
  | @senderFreeing m handle receiver left closed clean value waker =>
      cases step with
      | free =>
          refine ⟨quiet ?_ ?_, .inl ⟨rfl, rfl, rfl⟩⟩
          · rcases left with rfl | rfl
            · trivial
            · simpa [SenderHandle.Paired] using closed
          · have detached : handle.attached = false := by
              rcases left with rfl | rfl <;> rfl
            rw [World.Between, detached, if_neg (by simpa using closed)]
            exact .of_dealloc clean value waker
  | quiet | reading | receiverDropping | receiverFreeing => cases step

theorem receiver_step {s : System T W} {R' : Receiver T W} (orderly : s.Orderly)
    (step : s.receiver.Stepped .channel spurious s.world m' R') :
    Orderly ⟨m', s.sender, R'⟩ ∧
      s.world.Rewakes m' s.receiver.carries R'.carries s.receiver.wakes := by
  cases orderly with
  | @reading m handle call pc value paired answers clean solo =>
      obtain ⟨⟨clean, rewakes⟩, kept⟩ := solo.step spurious clean
      cases step with
      | read inner =>
          rw [inner] at clean rewakes kept
          exact ⟨reading paired answers clean kept, rewakes⟩
      | @readEnd _ _ result after inner =>
          rw [inner] at clean rewakes kept
          exact ⟨finish_read paired answers clean kept, rewakes.finish Receiver.finishRead_wakers⟩
  | receiverDropping paired clean solo => exact recvDrop_step paired clean solo step
  | @receiverFreeing m handle receiver paired closed left clean value waker =>
      cases step with
      | free =>
          have isLeft : decide (receiver = .connected) = false := by simpa using left
          refine ⟨quiet ?_ ?_, .inl ⟨rfl, rfl, rfl⟩⟩
          · rw [isLeft]
            exact paired
          · rw [World.Between, closed, isLeft, if_neg (by simp)]
            exact .of_dealloc clean value waker
  | quiet | trySending | flushWriting | flushing | senderDropping | senderFreeing => cases step

end System.Orderly

/-! ## Values and wakers -/

variable {s s' : System T W}

theorem System.Orderly.empty_at_store (orderly : s.Orderly) {state : State} {value : T}
    {waker : Option W} (stores : s.sender = .trySending (.store state value waker) ∨
      (∃ owner own, s.sender = .flushWriting owner own (.store state value waker))) :
    s.world.value = none := by
  cases orderly with
  | trySending taken clean keeps =>
      obtain isStore | ⟨owner, own, isStore⟩ := stores
      · cases isStore
        exact keeps.2.2.2.2.1.value
      · cases isStore
  | flushWriting clean keeps =>
      obtain isStore | ⟨owner, own, isStore⟩ := stores
      · cases isStore
      · cases isStore
        exact keeps.2.2.2.2.1.value
  | _ => simp at stores

/-- No flush frees the channel. -/
theorem System.Orderly.not_freeing_flush (orderly : s.Orderly) {owner channel : Bool}
    {value : Option T} : s.sender ≠ .freeing (.flush owner channel value) := by
  intro freeing
  cases orderly with
  | senderFreeing left =>
      cases freeing
      rcases left with never | never <;> cases never
  | _ => cases freeing

theorem System.Orderly.receiver_idle {spurious : Bool} {S' : Sender T W} (orderly : s.Orderly)
    (step : s.sender.Stepped .channel spurious s.world m' S') :
    ∃ receiver, s.receiver = .idle receiver := by
  cases orderly with
  | reading | receiverDropping | receiverFreeing => cases step
  | _ => exact ⟨_, rfl⟩

theorem System.Orderly.sender_idle {spurious : Bool} {R' : Receiver T W} (orderly : s.Orderly)
    (step : s.receiver.Stepped .channel spurious s.world m' R') :
    ∃ handle, s.sender = .idle handle := by
  cases orderly with
  | reading | receiverDropping | receiverFreeing => exact ⟨_, rfl⟩
  | _ => cases step

theorem System.Orderly.clean_or_emptied (orderly : s.Orderly) :
    s.world.Clean ∨ s.world.Emptied := by
  cases orderly with
  | quiet paired between =>
      unfold World.Between at between
      split at between
      · exact .inl between.1
      · exact .inr between
  | trySending _ clean => exact .inl clean
  | flushWriting clean => exact .inl clean
  | flushing clean => exact .inl clean
  | senderDropping clean => exact .inl clean
  | senderFreeing _ _ clean => exact .inl clean
  | reading _ _ clean => exact .inl clean
  | receiverDropping _ clean => exact .inl clean
  | receiverFreeing _ _ _ clean => exact .inl clean

theorem System.Orderly.not_parked (orderly : s.Orderly) {call : ReceiveCall W} :
    s.receiver ≠ .parked call := by
  intro parked
  cases orderly <;> cases parked

/-! ## Runs -/

namespace Observed

variable {o o' : Observed T W} {label : ObservedLabel T W}

/-- Calls do not overlap, a blocking receive is made when it has something to
return, nothing is cancelled, and there is no receive with a timeout. -/
def pairCalls (o : Observed T W) : ObservedLabel T W → Bool
  | .isCanceled => false
  | .base (.send _) =>
      match o.system.receiver with
      | .idle _ => true
      | _ => false
  | .base (.recv op) =>
      match o.system.sender, o.system.receiver, op with
      | _, _, .cancel | _, _, .recvTimeout _ => false
      | .idle _, .idle .connected, .recv _ =>
          o.system.world.state.loaded || !o.system.world.state.active
      | .idle _, _, _ => true
      | _, _, _ => false
  | .base _ => true

/-- No `try_send` is made after the receiver was dropped over a value that it
has not taken. -/
def sendsToNoValue (o : Observed T W) : ObservedLabel T W → Bool
  | .base (.send (.trySend _)) =>
      match o.system.sender with
      | .idle .connected => o.system.world.state.active || !o.system.world.state.loaded
      | _ => true
  | _ => true

/-- Both endpoints are gone, or have lost their pointer. -/
def left (o : Observed T W) : Bool :=
  match o.system.sender, o.system.receiver with
  | .idle .gone, .idle receiver | .idle .detached, .idle receiver => receiver ≠ .connected
  | _, _ => false

/-- A channel is freed only with both cells empty, and in the end every value
and every waker has gone one way. -/
structure LeavesNothing (o : Observed T W) : Prop where
  value : o.system.world.freed ≠ 0 → o.system.world.value = none
  waker : o.system.world.freed ≠ 0 → o.system.world.waker = none
  valueKept : o.system.world.valueMisuse = false
  wakerKept : o.system.world.wakerMisuse = false
  freed : o.left = true → o.system.world.freed = 1
  values : o.left = true → o.system.world.passed.Perm (o.system.world.received ++
    o.system.world.returned ++ o.system.world.discarded)
  wakers : o.left = true → o.stored.Perm (o.woken ++ o.dropped)

/-- The pair is in order and the books balance. -/
structure Kept (o : Observed T W) : Prop where
  orderly : o.system.Orderly
  accounts : o.system.world.Accounts o.system.sender.held
  wakers : o.system.world.Wakers o.stored o.woken o.dropped o.system.carries

theorem Kept.init : Kept ({} : Observed T W) where
  orderly := by
    have calm : ({} : World T W).Calm true none := ⟨rfl, rfl, fun closed => by cases closed⟩
    refine System.Orderly.of_connected ?_ ⟨rfl, rfl, rfl, rfl, rfl⟩ calm
    trivial
  accounts := rfl
  wakers := rfl

theorem Kept.step_send {op : SendOp T W} (kept : o.Kept)
    (whole : o.pairCalls (.base (.send op)) = true)
    (careful : o.sendsToNoValue (.base (.send op)) = true)
    (step : Observed.step .channel o (.base (.send op)) = some o') : o'.Kept := by
  obtain ⟨orderly, accounts, wakers⟩ := kept
  rcases o with ⟨⟨m, S, R⟩, calls, answers, stored, woken, dropped⟩
  cases R with
  | idle receiving =>
      cases S with
      | idle handle =>
          simp only [Observed.step, System.step, Option.map_map, Option.map_eq_some_iff] at step
          obtain ⟨⟨m', S'⟩, begun, rfl⟩ := step
          have begun := Sender.begun begun
          have untouched : ∀ value, op = .trySend value → handle = .connected →
              (m.state.active || !m.state.loaded) = true := by
            rintro value rfl rfl
            exact careful
          cases orderly with
          | quiet paired between =>
              obtain ⟨orderly, waker⟩ :=
                System.Orderly.begin_send paired between untouched begun
              have carries := Sender.begun_carries begun
              rw [← System.carries_sender] at carries
              exact ⟨orderly, Sender.begun_accounts begun accounts,
                Wakers.keep wakers waker carries⟩
      | _ => cases step
  | _ => cases whole

theorem Kept.step_recv {op : RecvOp W} (kept : o.Kept)
    (whole : o.pairCalls (.base (.recv op)) = true)
    (step : Observed.step .channel o (.base (.recv op)) = some o') : o'.Kept := by
  obtain ⟨orderly, accounts, wakers⟩ := kept
  rcases o with ⟨⟨m, S, R⟩, calls, answers, stored, woken, dropped⟩
  cases R with
  | idle receiving =>
      cases S with
      | idle handle =>
          simp only [Observed.step, System.step, Option.map_map, Option.map_eq_some_iff] at step
          obtain ⟨⟨m', R'⟩, begun, rfl⟩ := step
          have begun := Receiver.begun begun
          have plain : op ≠ .cancel ∧ ∀ waker, op ≠ .recvTimeout waker := by
            constructor
            · rintro rfl
              cases whole
            · rintro waker rfl
              cases whole
          have ready : ∀ waker, op = .recv waker → receiving = .connected →
              (m.state.loaded || !m.state.active) = true := by
            rintro waker rfl rfl
            exact whole
          cases orderly with
          | quiet paired between =>
              obtain ⟨orderly, waker⟩ :=
                System.Orderly.begin_recv paired between plain ready begun
              exact ⟨orderly, Receiver.begun_accounts begun accounts,
                Wakers.keep wakers waker (Receiver.begun_carries begun)⟩
      | _ => cases op <;> cases whole
  | _ => cases step

theorem Kept.step_sender {spurious : Bool} (kept : o.Kept)
    (step : Observed.step .channel o (.base (.sender spurious)) = some o') : o'.Kept := by
  obtain ⟨orderly, accounts, wakers⟩ := kept
  rcases o with ⟨⟨m, S, R⟩, calls, answers, stored, woken, dropped⟩
  simp only [Observed.step, System.step, Option.map_map, Option.map_eq_some_iff] at step
  obtain ⟨⟨m', S'⟩, step, rfl⟩ := step
  have stepped := Sender.stepped step
  obtain ⟨handle, rfl⟩ : ∃ handle, R = .idle handle := orderly.receiver_idle stepped
  obtain ⟨orderly', rewakes⟩ := orderly.sender_step stepped
  refine ⟨orderly', ?_, ?_⟩
  · apply Sender.stepped_accounts stepped (fun _ _ _ => orderly.empty_at_store) _ accounts
    intro owner channel value freeing
    exact absurd freeing orderly.not_freeing_flush
  · rw [System.carries_sender] at wakers
    have moved := rewakes.wakers wakers
    rw [← System.carries_sender] at moved
    exact moved

theorem Kept.step_receiver {spurious : Bool} (kept : o.Kept)
    (step : Observed.step .channel o (.base (.receiver spurious)) = some o') : o'.Kept := by
  obtain ⟨orderly, accounts, wakers⟩ := kept
  rcases o with ⟨⟨m, S, R⟩, calls, answers, stored, woken, dropped⟩
  simp only [Observed.step, System.step, Option.map_map, Option.map_eq_some_iff] at step
  obtain ⟨⟨m', R'⟩, step, rfl⟩ := step
  have stepped := Receiver.stepped step
  obtain ⟨handle, rfl⟩ : ∃ handle, S = .idle handle := orderly.sender_idle stepped
  obtain ⟨orderly', rewakes⟩ := orderly.receiver_step stepped
  exact ⟨orderly', Receiver.stepped_accounts stepped accounts, rewakes.wakers wakers⟩

theorem Kept.step (kept : o.Kept) (whole : o.pairCalls label = true)
    (careful : o.sendsToNoValue label = true)
    (step : Observed.step .channel o label = some o') : o'.Kept := by
  cases label with
  | isCanceled => cases whole
  | base label =>
      cases label with
      | send op => exact kept.step_send whole careful step
      | recv op => exact kept.step_recv whole step
      | sender spurious => exact kept.step_sender step
      | receiver spurious => exact kept.step_receiver step
      | expire =>
          simp only [Observed.step, Option.map_eq_some_iff] at step
          obtain ⟨next, expired, rfl⟩ := step
          rcases System.step_cases expired with ⟨_, _, never, -⟩ | ⟨_, _, never, -⟩ |
            ⟨_, never, -⟩ | ⟨_, never, -⟩ | ⟨waker, -, parked, -⟩
          · cases never
          · cases never
          · cases never
          · cases never
          · exact absurd parked kept.orderly.not_parked

theorem Kept.emptied (kept : o.Kept) (gone : o.left = true) : o.system.world.Emptied ∧
    o.system.sender.held = none ∧ o.system.carries = none := by
  rcases o with ⟨⟨m, S, R⟩, calls, answers, stored, woken, dropped⟩
  cases kept.orderly with
  | @quiet _ handle receiver paired between =>
      have isLeft : handle.attached = false ∧ (Sender.idle handle : Sender T W).held = none ∧
          decide (receiver = .connected) = false := by
        cases handle with
        | detached | gone => exact ⟨rfl, rfl, by simpa [left] using gone⟩
        | connected | flush => cases gone
      obtain ⟨closed, holds, isGone⟩ := isLeft
      rw [World.Between, closed, isGone, if_neg (by simp)] at between
      exact ⟨between, holds, rfl⟩
  | _ => simp [left] at gone

theorem Kept.leavesNothing (kept : o.Kept) : o.LeavesNothing where
  value freed := by
    rcases kept.orderly.clean_or_emptied with clean | emptied
    · exact absurd clean.unfreed freed
    · exact emptied.value
  waker freed := by
    rcases kept.orderly.clean_or_emptied with clean | emptied
    · exact absurd clean.unfreed freed
    · exact emptied.waker
  valueKept := by
    rcases kept.orderly.clean_or_emptied with clean | emptied
    · exact clean.valueKept
    · exact emptied.valueKept
  wakerKept := by
    rcases kept.orderly.clean_or_emptied with clean | emptied
    · exact clean.wakerKept
    · exact emptied.wakerKept
  freed gone := (kept.emptied gone).1.freed
  values gone := by
    obtain ⟨emptied, holds, -⟩ := kept.emptied gone
    have accounts := kept.accounts
    rw [World.Accounts, holds, emptied.value] at accounts
    rw [← Multiset.coe_eq_coe, accounts]
    simp
  wakers gone := by
    obtain ⟨emptied, -, carries⟩ := kept.emptied gone
    have wakers := kept.wakers
    rw [World.Wakers, carries, emptied.waker] at wakers
    rw [← Multiset.coe_eq_coe, wakers]
    simp

end Observed

/-- In every run of a `channel()` pair in which calls do not overlap and
`try_send` is not made over an abandoned value, the channel is freed with both
cells empty, and in the end nothing is left. -/
theorem channel_leavesNothing {o : Observed T W}
    (reachable : ReachableUnder (Observed.step .channel)
      (fun o label => o.pairCalls label = true ∧ o.sendsToNoValue label = true) {} o) :
    o.LeavesNothing := by
  have kept : o.Kept := by
    apply reachable.invariant Observed.Kept.init
    intro before label after kept careful step
    exact kept.step careful.1 careful.2 step
  exact kept.leavesNothing

/-- A value is left behind by the receiver, and dropped with the sender. -/
theorem channel_leavesNothing_of_drops :
    ∃ o : Observed Nat Nat, o.left = true ∧ o.system.world.discarded = [7] ∧
      o.woken = [1] ∧ o.LeavesNothing := by
  obtain ⟨o, ran, gone, discarded, woken⟩ : ∃ o ∈ runFrom
      (guarded (Observed.step .channel) fun o label => o.pairCalls label && o.sendsToNoValue label)
      ({} : Observed Nat Nat)
      (List.flatten [[.base (.recv (.poll 1))], List.replicate 4 (.base (.receiver false)),
        [.base (.send (.trySend 7))], List.replicate 6 (.base (.sender false)),
        [.base (.recv .drop)], List.replicate 2 (.base (.receiver false)), [.base (.send .drop)],
        List.replicate 3 (.base (.sender false))]),
      o.left = true ∧ o.system.world.discarded = [7] ∧ o.woken = [1] := by
    decide
  have reachable := (reachableUnder_of_runFrom ran).mono fun _ _ careful =>
    Bool.and_eq_true_iff.mp careful
  exact ⟨o, gone, discarded, woken, channel_leavesNothing reachable⟩

/-- A `try_send` after the receiver was dropped over a value frees the channel
with that value in it. -/
theorem channel_leaves_value : ¬ ∀ o : Observed Nat Nat,
    ReachableUnder (Observed.step .channel) (fun o label => o.pairCalls label = true) {} o →
      o.LeavesNothing := by
  intro always
  obtain ⟨o, ran, freed, value⟩ : ∃ o ∈ runFrom
      (guarded (Observed.step .channel) Observed.pairCalls) ({} : Observed Nat Nat)
      (List.flatten [[.base (.send (.trySend 7))], List.replicate 3 (.base (.sender false)),
        [.base (.recv .drop)], List.replicate 2 (.base (.receiver false)),
        [.base (.send (.trySend 8))], List.replicate 3 (.base (.sender false))]),
      o.system.world.freed = 1 ∧ o.system.world.value = some 7 := by
    decide
  have empty := (always o (reachableUnder_of_runFrom ran)).value (by rw [freed]; decide)
  rw [value] at empty
  cases empty

end Suspend.Channel
