import Suspend.Channel.Alone
import Suspend.Channel.Ownership

/-!
# Calls that do not overlap refine the one-shot cell

A pair made by `send_once` or `task_fn` whose calls do not overlap answers each
call as the one-shot cell does.  Between calls the cell tells the channel's
state; inside a call it tells what the call will answer.
-/

namespace Suspend.Channel

open Suspend.Transition

universe u v

variable {T : Type u} {W : Type v}

/-! ## The cell and the channel between calls -/

namespace OneShot

/-- The handle of the sending side. -/
def Sending.handle : Sending T → SenderHandle T
  | .unsent => .connected
  | .flush value => .flush false true value
  | .resolved => .flush false false none
  | .gone => .gone

/-- The value that the sending side has yet to write. -/
def Sending.unwritten : Sending T → Option T
  | .flush value => value
  | _ => none

/-- Both sides are there. -/
def bothOpen (cell : OneShot T) : Bool :=
  !cell.sender.closed && cell.receiver = .connected

/-- Both sides have closed. -/
def bothClosed (cell : OneShot T) : Bool :=
  cell.sender.closed && cell.receiver ≠ .connected

/-- What can stand in a cell: nothing before the value is written, the value or
its trace while the flush is pending, and no trace for a receiver that is still
there. -/
structure Formed (kind : Kind) (cell : OneShot T) : Prop where
  unsent : cell.sender = .unsent → cell.content = .empty
  unwritten : ∀ value, cell.sender = .flush (some value) → cell.content = .empty
  pending : cell.sender = .flush none → cell.content ≠ .empty
  untaken : cell.receiver = .connected → cell.content ≠ .taken
  noFlush : kind = .taskFn → cell.sender = .unsent ∨ cell.sender = .gone

end OneShot

open OneShot

/-- The allocation has been freed, once, and both cells are empty. -/
structure World.Ended (m : World T W) : Prop where
  freed : m.freed = 1
  fresh : m.stale = false
  valueKept : m.valueMisuse = false
  wakerKept : m.wakerMisuse = false
  unpanicked : m.panicked = false
  value : m.value = none
  waker : m.waker = none

/-- The channel as the cell has it, between calls. -/
def OneShot.Matches (cell : OneShot T) (m : World T W) : Prop :=
  if cell.bothClosed then m.Ended else m.Clean ∧ m.Calm cell.bothOpen cell.content.value

/-- The waker of a receiving call that polls, or tries. -/
def ReceiveCall.own : ReceiveCall W → Option W
  | .poll waker => some waker
  | _ => none

/-- The operation that a receiving call belongs to, in its first read. -/
def ReceiveCall.op : ReceiveCall W → RecvOp W
  | .poll waker => .poll waker
  | .tryRecv => .tryRecv
  | .recvFirst waker | .recv waker => .recv waker
  | .timeoutFirst waker | .timeout waker => .recvTimeout waker
  | .timeoutLast | .cancel => .cancel

/-- How the cell tells a state of the pair: `cell` has made the transition of
the call in progress, and `owed` is the answer that the call has still to
give. -/
inductive Tracks (kind : Kind) : OneShot T → Option (Answer T) → System T W → Prop
  | quiet {cell : OneShot T} {m} (formed : cell.Formed kind) (same : cell.Matches m) :
      Tracks kind cell none ⟨m, .idle cell.sender.handle, .idle cell.receiver⟩
  | trySending {cell : OneShot T} {answer m pc value receiver}
      (put : ({ receiver := receiver } : OneShot T).put value .gone .gone .ok = (cell, answer))
      (clean : m.Clean) (solo : pc.Solo (receiver = .connected) value none m) :
      Tracks kind cell (some (if kind = .taskFn then .done else answer))
        ⟨m, .trySending pc, .idle receiver⟩
  | flushWriting {cell : OneShot T} {answer m pc value waker receiver} (notTask : kind ≠ .taskFn)
      (put : ({ receiver := receiver } : OneShot T).put value (.flush none) .resolved .pending =
        (cell, answer))
      (clean : m.Clean) (solo : pc.Solo (receiver = .connected) value (some waker) m) :
      Tracks kind cell (some answer) ⟨m, .flushWriting false waker pc, .idle receiver⟩
  | flushing {before cell : OneShot T} {answer m pc waker} (notTask : kind ≠ .taskFn)
      (formed : before.Formed kind) (pending : before.sender = .flush none)
      (polled : before.send (.poll waker) = some (cell, answer))
      (clean : m.Clean) (solo : pc.Solo before.bothOpen before.content.value m) :
      Tracks kind cell (some answer) ⟨m, .flushing false waker pc, .idle before.receiver⟩
  | senderDropping {cell : OneShot T} {m pc value} (formed : cell.Formed kind)
    (left : cell.sender = .gone)
      (content : cell.receiver = .connected → cell.content.value = value)
      (clean : m.Clean) (solo : pc.Solo (cell.receiver = .connected) value m) :
      Tracks kind cell none ⟨m, .dropping pc, .idle cell.receiver⟩
  | senderFreeing {cell : OneShot T} {m} (formed : cell.Formed kind)
    (ended : cell.bothClosed = true)
      (clean : m.Clean) (value : m.value = none) (waker : m.waker = none) :
      Tracks kind cell none ⟨m, .freeing cell.sender.handle, .idle cell.receiver⟩
  | reading {before cell : OneShot T} {answer m call pc} (formed : before.Formed kind)
      (connected : before.receiver = .connected)
      (received : before.recv call.op = some (cell, answer))
      (clean : m.Clean) (solo : pc.Solo before.bothOpen before.content.value call.own m) :
      Tracks kind cell (some answer) ⟨m, .idle before.sender.handle, .reading call pc⟩
  | receiverDropping {cell : OneShot T} {m pc value} (formed : cell.Formed kind)
      (left : cell.receiver ≠ .connected)
      (content : cell.sender.closed = false → cell.content.value = value)
      (clean : m.Clean) (solo : pc.Solo (!cell.sender.closed) value m) :
      Tracks kind cell none ⟨m, .idle cell.sender.handle, .dropping cell.receiver pc⟩
  | receiverFreeing {cell : OneShot T} {m} (formed : cell.Formed kind)
    (ended : cell.bothClosed = true)
      (clean : m.Clean) (value : m.value = none) (waker : m.waker = none) :
      Tracks kind cell none ⟨m, .idle cell.sender.handle, .freeing cell.receiver⟩

/-- What the beginning of a call does to the cell: its answer is given at once
or owed. -/
def Begins (cell cell' : OneShot T) (owed given : Option (Answer T)) (call : Call T W) : Prop :=
  ∃ answer, cell.step call = some (cell', answer) ∧ [answer] = given.toList ++ owed.toList

/-- A step inside a call gives the answer that is owed, or leaves it owed. -/
def Gives (owed owed' given : Option (Answer T)) : Prop :=
  owed.toList = given.toList ++ owed'.toList

variable {kind : Kind} {cell : OneShot T} {m m' : World T W}

theorem World.Clean.keep (clean : m.Clean) (freed : m'.freed = m.freed) (stale : m'.stale = m.stale)
    (value : m'.valueMisuse = m.valueMisuse) (waker : m'.wakerMisuse = m.wakerMisuse)
    (panicked : m'.panicked = m.panicked) : m'.Clean :=
  ⟨freed.trans clean.unfreed, stale.trans clean.fresh, value.trans clean.valueKept,
    waker.trans clean.wakerKept, panicked.trans clean.unpanicked⟩

theorem World.Calm.keep {active : Bool} {value : Option T} (calm : m.Calm active value)
    (state : m'.state = m.state) (sameValue : m'.value = m.value) (waker : m'.waker = m.waker) :
    m'.Calm active value where
  state := by rw [state, calm.state, World.plain, World.plain, sameValue, waker]
  value := sameValue.trans calm.value
  waker closed := waker.trans (calm.waker closed)

/-- The sending side may leave before it has written, or with its value
pending. -/
theorem OneShot.Formed.leave {receiver : ReceiverHandle} {sender : OneShot.Sending T}
    {content : OneShot.Content T} (formed : (⟨sender, receiver, content⟩ : OneShot T).Formed kind)
    : (⟨.gone, receiver, content⟩ : OneShot T).Formed kind where
  unsent never := by cases never
  unwritten _ never := by cases never
  pending never := by cases never
  untaken := formed.untaken
  noFlush _ := .inr rfl

/-- The receiving side may leave whatever the cell holds. -/
theorem OneShot.Formed.shut {receiver : ReceiverHandle} {sender : OneShot.Sending T}
    {content : OneShot.Content T} (next : ReceiverHandle)
    (formed : (⟨sender, receiver, content⟩ : OneShot T).Formed kind)
    (left : next ≠ .connected) : (⟨sender, next, content⟩ : OneShot T).Formed kind where
  unsent := formed.unsent
  unwritten := formed.unwritten
  pending := formed.pending
  untaken isOpen := absurd isOpen left
  noFlush := formed.noFlush

theorem OneShot.Formed.vacate (formed : cell.Formed kind) (left : cell.sender ≠ .flush none) :
    cell.vacate.Formed kind where
  unsent _ := rfl
  unwritten _ _ := rfl
  pending isPending := absurd isPending left
  untaken _ := by simp [OneShot.vacate]
  noFlush := formed.noFlush

theorem OneShot.Matches.open (same : cell.Matches m) (live : cell.bothClosed = false) :
    m.Clean ∧ m.Calm cell.bothOpen cell.content.value := by
  rwa [Matches, live, if_neg (by simp)] at same

theorem OneShot.Matches.of_open (live : cell.bothClosed = false) (clean : m.Clean)
    (calm : m.Calm cell.bothOpen cell.content.value) : cell.Matches m := by
  rw [Matches, live, if_neg (by simp)]
  exact ⟨clean, calm⟩

theorem OneShot.Matches.of_closed (ended : cell.bothClosed = true) (isEnded : m.Ended) :
    cell.Matches m := by
  rwa [Matches, ended, if_pos rfl]

theorem World.Ended.keep (ended : m.Ended) (freed : m'.freed = m.freed)
    (stale : m'.stale = m.stale) (value : m'.valueMisuse = m.valueMisuse)
    (waker : m'.wakerMisuse = m.wakerMisuse) (panicked : m'.panicked = m.panicked)
    (sameValue : m'.value = m.value) (sameWaker : m'.waker = m.waker) : m'.Ended :=
  ⟨freed.trans ended.freed, stale.trans ended.fresh, value.trans ended.valueKept,
    waker.trans ended.wakerKept, panicked.trans ended.unpanicked, sameValue.trans ended.value,
    sameWaker.trans ended.waker⟩

/-- What the channel matches depends on what is in memory, and on who has
closed. -/
theorem OneShot.Matches.keep {cell' : OneShot T} (same : cell.Matches m)
    (closed : cell'.sender.closed = cell.sender.closed)
    (receiver : cell'.receiver = .connected ↔ cell.receiver = .connected)
    (content : cell'.content = cell.content)
    (freed : m'.freed = m.freed) (stale : m'.stale = m.stale)
    (value : m'.valueMisuse = m.valueMisuse) (waker : m'.wakerMisuse = m.wakerMisuse)
    (panicked : m'.panicked = m.panicked) (state : m'.state = m.state)
    (sameValue : m'.value = m.value) (sameWaker : m'.waker = m.waker) : cell'.Matches m' := by
  have bothClosed : cell'.bothClosed = cell.bothClosed := by
    simp only [bothClosed, closed, ne_eq, receiver]
  have bothOpen : cell'.bothOpen = cell.bothOpen := by
    simp only [bothOpen, closed, receiver]
  unfold Matches at *
  rw [bothClosed, bothOpen, content]
  split at same
  · rw [if_pos ‹_›]
    exact same.keep freed stale value waker panicked sameValue sameWaker
  · rw [if_neg ‹_›]
    exact ⟨same.1.keep freed stale value waker panicked, same.2.keep state sameValue sameWaker⟩

/-! ## The sending side -/

theorem Tracks.begin_send {op : SendOp T W} {S' : Sender T W} (once : kind ≠ .channel)
    (formed : cell.Formed kind) (same : cell.Matches m)
    (begun : Sender.Begun kind m cell.sender.handle op m' S') :
    ∃ cell' owed, Tracks kind cell' owed ⟨m', S', .idle cell.receiver⟩ ∧ m'.waker = m.waker ∧
      Begins cell cell' owed (Sender.beginAnswer cell.sender.handle op) (.send op) := by
  obtain ⟨sender, receiver, content⟩ := cell
  have live : sender.closed = false →
      m.Clean ∧ m.Calm (receiver = .connected) content.value := by
    intro notClosed
    have opened := same.open (by simp [OneShot.bothClosed, notClosed])
    simpa [OneShot.bothOpen, notClosed] using opened
  cases sender with
  | unsent =>
      obtain ⟨clean, calm⟩ := live rfl
      obtain rfl : content = .empty := formed.unsent rfl
      cases begun with
      | @trySend value notTask =>
          have solo : (WritePc.load value none).Solo (receiver = .connected) value none
              ((m.pass value).beginWrite value) :=
            ⟨rfl, rfl, calm.state, calm.value, calm.waker⟩
          refine ⟨_, _, .trySending rfl (clean.keep rfl rfl rfl rfl rfl) solo, rfl, _, rfl, ?_⟩
          rw [if_neg notTask]
          rfl
      | @run value isTask =>
          have solo : (WritePc.load value none).Solo (receiver = .connected) value none
              ((m.pass value).beginWrite value) :=
            ⟨rfl, rfl, calm.state, calm.value, calm.waker⟩
          refine ⟨_, _, .trySending rfl (clean.keep rfl rfl rfl rfl rfl) solo, rfl, _, rfl, ?_⟩
          rw [if_pos isTask]
          rfl
      | runPanic isTask =>
          refine ⟨⟨.gone, receiver, .empty⟩, none, ?_, rfl, _, rfl, rfl⟩
          exact .senderDropping (formed.leave) rfl (fun _ => rfl)
            (clean.keep rfl rfl rfl rfl rfl) ⟨calm.state, calm.value, calm.waker⟩
      | drop =>
          refine ⟨⟨.gone, receiver, .empty⟩, none, ?_, rfl, _, rfl, rfl⟩
          exact .senderDropping (formed.leave) rfl (fun _ => rfl)
            (clean.keep rfl rfl rfl rfl rfl) ⟨calm.state, calm.value, calm.waker⟩
      | @send value notTask =>
          have owner : decide (kind = .channel) = false := by simp [once]
          refine ⟨⟨.flush (some value), receiver, .empty⟩, none, ?_, rfl, _, rfl, rfl⟩
          rw [owner]
          apply Tracks.quiet
          · exact ⟨by simp, fun _ _ => rfl, by simp, by simp, fun isTask => absurd isTask notTask⟩
          · apply OneShot.Matches.of_open rfl
            · exact clean.keep rfl rfl rfl rfl rfl
            · exact calm.keep rfl rfl rfl
  | flush value =>
      obtain ⟨clean, calm⟩ := live rfl
      have notTask : kind ≠ .taskFn := fun isTask => by
        rcases formed.noFlush isTask with never | never <;> cases never
      cases begun with
      | @pollFirst _ value waker =>
          obtain rfl : content = .empty := formed.unwritten value rfl
          have solo : (WritePc.load value (some waker)).Solo (receiver = .connected) value
              (some waker) (m.beginFlush.beginWrite value) :=
            ⟨rfl, rfl, calm.state, calm.value, calm.waker⟩
          exact ⟨_, _, .flushWriting notTask rfl (clean.keep rfl rfl rfl rfl rfl) solo, rfl, _,
            rfl, rfl⟩
      | @poll _ waker =>
          have left := formed.pending rfl
          obtain ⟨after, answer, polled⟩ :
              ∃ after answer, (⟨.flush none, receiver, content⟩ : OneShot T).send
                (.poll waker : SendOp T W) = some (after, answer) := by
            cases content with
            | empty => exact absurd rfl left
            | full value => by_cases open' : receiver = .connected <;> simp [OneShot.send, open']
            | taken => exact ⟨_, _, rfl⟩
          have solo : (FlushPc.load waker).Solo (receiver = .connected) content.value
              m.beginFlush := by
            refine ⟨calm.keep rfl rfl rfl, ?_⟩
            intro noValue
            cases content with
            | empty => exact absurd rfl left
            | full value => cases noValue
            | taken => simpa using fun isOpen => formed.untaken isOpen rfl
          refine ⟨after, some answer, ?_, rfl, answer, polled, rfl⟩
          exact .flushing notTask formed rfl polled (clean.keep rfl rfl rfl rfl rfl) solo
      | dropBorrow isChannel => exact absurd isChannel once
      | dropFlush notChannel =>
          cases value with
          | some value =>
              obtain rfl : content = .empty := formed.unwritten value rfl
              refine ⟨⟨.gone, receiver, .empty⟩, none, ?_, rfl, _, rfl, rfl⟩
              exact .senderDropping formed.leave rfl (fun _ => rfl)
                (clean.keep rfl rfl rfl rfl rfl) ⟨calm.state, calm.value, calm.waker⟩
          | none =>
              by_cases isOpen : receiver = .connected
              · refine ⟨⟨.gone, receiver, content⟩, none, ?_, rfl, .done, ?_, rfl⟩
                · exact .senderDropping formed.leave rfl (fun _ => rfl)
                    (clean.keep rfl rfl rfl rfl rfl) ⟨calm.state, calm.value, calm.waker⟩
                · simp [OneShot.step, OneShot.send, isOpen]
              · refine ⟨⟨.gone, receiver, .empty⟩, none, ?_, rfl, .done, ?_, rfl⟩
                · exact .senderDropping (formed.leave.vacate (by simp)) rfl
                    (fun never => absurd never isOpen)
                    (clean.keep rfl rfl rfl rfl rfl) ⟨calm.state, calm.value, calm.waker⟩
                · simp [OneShot.step, OneShot.send, OneShot.vacate, isOpen]
  | resolved =>
      cases begun with
      | pollDone =>
          exact ⟨⟨.resolved, receiver, content⟩, none, .quiet formed same, rfl, _, rfl, rfl⟩
      | dropBorrow isChannel => exact absurd isChannel once
      | dropFlushDone notChannel =>
          refine ⟨⟨.gone, receiver, content⟩, none, .quiet formed.leave ?_, rfl, _, rfl, rfl⟩
          exact same.keep rfl .rfl rfl rfl rfl rfl rfl rfl rfl rfl rfl
  | gone => cases begun

/-! ## The receiving side -/

/-- A connected receiving call that has an answer begins to read. -/
theorem Tracks.begin_read {sender : OneShot.Sending T} {content : OneShot.Content T}
    (call : ReceiveCall W) (formed : (⟨sender, .connected, content⟩ : OneShot T).Formed kind)
    (total : ((⟨sender, .connected, content⟩ : OneShot T).recv call.op).isSome)
    (clean : m.Clean) (calm : m.Calm (!sender.closed) content.value) :
    ∃ cell' owed, Tracks kind cell' owed
        ⟨m, .idle sender.handle, .reading call (.load call.own false)⟩ ∧
      Begins ⟨sender, .connected, content⟩ cell' owed none (.recv call.op) := by
  obtain ⟨⟨after, answer⟩, received⟩ := Option.isSome_iff_exists.mp total
  have solo : (ReadPc.load call.own false).Solo
      (OneShot.bothOpen ⟨sender, .connected, content⟩) content.value call.own m := by
    simpa [ReadPc.Solo, OneShot.bothOpen] using calm
  refine ⟨after, some answer, ?_, answer, received, rfl⟩
  exact .reading formed rfl received clean solo

theorem Tracks.begin_recv {op : RecvOp W} {R' : Receiver T W} (once : kind ≠ .channel)
    (formed : cell.Formed kind) (same : cell.Matches m) (notCancel : op ≠ .cancel)
    (settled : op = .tryRecv → cell.sender.closed = true)
    (ready : ∀ waker, op = .recv waker → cell.receiver = .connected →
      (m.state.loaded || !m.state.active) = true)
    (begun : Receiver.begin kind m cell.receiver op = some (m', R')) :
    ∃ cell' owed, Tracks kind cell' owed ⟨m', .idle cell.sender.handle, R'⟩ ∧ m'.waker = m.waker ∧
      Begins cell cell' owed (Receiver.beginAnswer cell.receiver op) (.recv op) := by
  obtain ⟨sender, receiver, content⟩ := cell
  cases receiver with
  | connected =>
      obtain ⟨clean, calm⟩ := same.open (by simp [OneShot.bothClosed])
      replace calm : m.Calm (!sender.closed) content.value := by
        simpa [OneShot.bothOpen] using calm
      have clean' : m.beginReceive.Clean := clean.keep rfl rfl rfl rfl rfl
      have calm' : m.beginReceive.Calm (!sender.closed) content.value := calm.keep rfl rfl rfl
      cases op with
      | poll waker =>
          obtain ⟨rfl, rfl⟩ := Prod.ext_iff.mp (Option.some.inj begun)
          obtain ⟨cell', owed, tracks, begins⟩ := Tracks.begin_read (m := m.beginPoll)
            (.poll waker) formed rfl (clean.keep rfl rfl rfl rfl rfl) (calm.keep rfl rfl rfl)
          exact ⟨cell', owed, tracks, rfl, begins⟩
      | tryRecv =>
          obtain ⟨rfl, rfl⟩ := Prod.ext_iff.mp (Option.some.inj begun)
          have total : ((⟨sender, .connected, content⟩ : OneShot T).recv
              (.tryRecv : RecvOp W)).isSome := by
            cases content <;> simp [OneShot.recv, OneShot.take, settled rfl]
          obtain ⟨cell', owed, tracks, begins⟩ :=
            Tracks.begin_read .tryRecv formed total clean' calm'
          exact ⟨cell', owed, tracks, rfl, begins⟩
      | recv waker =>
          obtain ⟨rfl, rfl⟩ := Prod.ext_iff.mp (Option.some.inj begun)
          have full := ready waker rfl rfl
          rw [calm.state, World.plain, calm.value] at full
          have total : ((⟨sender, .connected, content⟩ : OneShot T).recv
              (.recv waker)).isSome := by
            cases content <;> simp_all [OneShot.recv, OneShot.take, OneShot.Content.value]
          obtain ⟨cell', owed, tracks, begins⟩ :=
            Tracks.begin_read (.recvFirst waker) formed total clean' calm'
          exact ⟨cell', owed, tracks, rfl, begins⟩
      | recvTimeout waker =>
          obtain ⟨rfl, rfl⟩ := Prod.ext_iff.mp (Option.some.inj begun)
          obtain ⟨cell', owed, tracks, begins⟩ :=
            Tracks.begin_read (.timeoutFirst waker) formed rfl clean' calm'
          exact ⟨cell', owed, tracks, rfl, begins⟩
      | cancel => exact absurd rfl notCancel
      | drop =>
          obtain ⟨rfl, rfl⟩ := Prod.ext_iff.mp (Option.some.inj begun)
          have shut := formed.shut .gone (by simp)
          cases isClosed : sender.closed with
          | true =>
              rw [isClosed] at calm'
              have unpending : sender ≠ .flush none := by
                rintro rfl
                cases isClosed
              refine ⟨⟨sender, .gone, .empty⟩, none, ?_, rfl, .done, ?_, rfl⟩
              · apply Tracks.receiverDropping (shut.vacate unpending) (by simp [OneShot.vacate])
                · intro notClosed
                  simp [OneShot.vacate, isClosed] at notClosed
                · exact clean'
                · simpa [DropPc.Solo, OneShot.vacate, isClosed] using calm'
              · simp [OneShot.step, OneShot.recv, OneShot.vacate, isClosed]
          | false =>
              refine ⟨⟨sender, .gone, content⟩, none, ?_, rfl, .done, ?_, rfl⟩
              · exact .receiverDropping shut (by simp) (fun _ => rfl) clean' calm'
              · simp [OneShot.step, OneShot.recv, isClosed]
  | detached =>
      have stays (next : ReceiverHandle) (left : next ≠ .connected) :
          Tracks kind ⟨sender, next, content⟩ none ⟨m.reportEnd, .idle sender.handle, .idle next⟩ :=
        .quiet (formed.shut _ left)
          (same.keep rfl (by simpa using left) rfl rfl rfl rfl rfl rfl rfl rfl rfl)
      cases op with
      | recv waker =>
          obtain ⟨rfl, rfl⟩ := Prod.ext_iff.mp (Option.some.inj begun)
          rw [if_neg once]
          exact ⟨_, none, stays .gone (by simp), rfl, _, rfl, rfl⟩
      | cancel => exact absurd rfl notCancel
      | drop =>
          obtain ⟨rfl, rfl⟩ := Prod.ext_iff.mp (Option.some.inj begun)
          refine ⟨_, none, .quiet (formed.shut .gone (by simp)) ?_, rfl, _, rfl, rfl⟩
          exact same.keep rfl (by simp) rfl rfl rfl rfl rfl rfl rfl rfl rfl
      | _ =>
          obtain ⟨rfl, rfl⟩ := Prod.ext_iff.mp (Option.some.inj begun)
          exact ⟨_, none, stays .detached (by simp), rfl, _, rfl, rfl⟩
  | gone => simp [Receiver.begin] at begun

/-! ## Steps inside a call -/

/-- A step to `s`, with `given` as its answer, keeps to the cell. -/
def OneShot.Advances (kind : Kind) (cell : OneShot T) (owed : Option (Answer T)) (s : System T W)
    (given : Option (Answer T)) : Prop :=
  ∃ owed', Tracks kind cell owed' s ∧ Gives owed owed' given

theorem Kind.finalize_of_once (once : kind ≠ .channel) : kind.finalize = true := by
  cases kind <;> simp_all [Kind.finalize]

section SenderSteps

variable {spurious : Bool} {S' : Sender T W} {receiver : ReceiverHandle} {answer : Answer T}
  {value : T}

theorem Tracks.trySend_step {pc : WritePc T W} (once : kind ≠ .channel)
    (put : ({ receiver := receiver } : OneShot T).put value .gone .gone .ok = (cell, answer))
    (clean : m.Clean) (solo : pc.Solo (receiver = .connected) value none m)
    (step : (Sender.trySending pc).Stepped kind spurious m m' S') :
    cell.Advances kind (some (if kind = .taskFn then .done else answer))
      ⟨m', S', .idle receiver⟩ ((Sender.trySending pc).answer kind spurious m) := by
  have kept := solo.step spurious clean
  rw [← Kind.finalize_of_once once] at kept
  cases step with
  | trySend inner =>
      simp only [Sender.answer, inner] at kept ⊢
      exact ⟨_, .trySending put kept.1.clean kept.2, rfl⟩
  | @trySendEnd _ result after inner =>
      simp only [Sender.answer, inner] at kept ⊢
      obtain ⟨⟨clean, _⟩, ended⟩ := kept
      cases result with
      | ok =>
          obtain ⟨calm, isWaker, isOpen⟩ := ended
          obtain rfl : receiver = .connected := by simpa using isOpen
          obtain ⟨rfl, rfl⟩ := Prod.mk.inj
            (put : ((⟨.gone, .connected, .full value⟩ : OneShot T), Answer.ok) = (cell, answer))
          refine ⟨none, ?_, rfl⟩
          rw [Sender.finishTrySend, if_neg once]
          apply Tracks.quiet
          · exact ⟨by simp, by simp, by simp, by simp, fun _ => .inr rfl⟩
          · exact .of_open rfl (clean.keep rfl rfl rfl rfl rfl) (calm.keep rfl rfl rfl)
      | err given dropped =>
          obtain ⟨rfl, rfl, calm, isClosed⟩ := ended
          have left : receiver ≠ .connected := by simpa using isClosed
          rw [OneShot.put, if_neg left] at put
          obtain ⟨rfl, rfl⟩ := Prod.mk.inj put
          rw [isClosed] at calm
          have freeing {m' : World T W} (clean : m'.Clean) (calm : m'.Calm false none) :
              Tracks kind ⟨.gone, receiver, .empty⟩ none ⟨m', .freeing .gone, .idle receiver⟩ := by
            refine .senderFreeing ⟨by simp, by simp, by simp, by simp, fun _ => .inr rfl⟩ ?_ clean
              calm.value (calm.waker rfl)
            simpa [OneShot.bothClosed, OneShot.Sending.closed] using left
          cases kind with
          | channel => exact absurd rfl once
          | sendOnce =>
              exact ⟨none, freeing (clean.keep rfl rfl rfl rfl rfl) (calm.keep rfl rfl rfl),
                rfl⟩
          | taskFn =>
              exact ⟨none, freeing (clean.keep rfl rfl rfl rfl rfl) (calm.keep rfl rfl rfl),
                rfl⟩
      | panic => exact ended.elim

theorem Tracks.flushWrite_step {waker : W} {pc : WritePc T W} (once : kind ≠ .channel)
    (notTask : kind ≠ .taskFn)
    (put : ({ receiver := receiver } : OneShot T).put value (.flush none) .resolved .pending =
      (cell, answer))
    (clean : m.Clean) (solo : pc.Solo (receiver = .connected) value (some waker) m)
    (step : (Sender.flushWriting false waker pc).Stepped kind spurious m m' S') :
    cell.Advances kind (some answer) ⟨m', S', .idle receiver⟩
      ((Sender.flushWriting false waker pc).answer kind spurious m) := by
  have kept := solo.step spurious clean
  rw [← Kind.finalize_of_once once] at kept
  obtain rfl : kind = .sendOnce := by cases kind <;> trivial
  cases step with
  | flushWrite inner =>
      simp only [Sender.answer, inner] at kept ⊢
      exact ⟨_, .flushWriting notTask put kept.1.clean kept.2, rfl⟩
  | @flushWriteEnd _ _ _ result after inner =>
      simp only [Sender.answer, inner] at kept ⊢
      obtain ⟨⟨clean, _⟩, ended⟩ := kept
      cases result with
      | ok =>
          obtain ⟨calm, isWaker, isOpen⟩ := ended
          obtain rfl : receiver = .connected := by simpa using isOpen
          obtain ⟨rfl, rfl⟩ := Prod.mk.inj (put :
            ((⟨.flush none, .connected, .full value⟩ : OneShot T), Answer.pending) = (cell, answer))
          refine ⟨none, ?_, rfl⟩
          apply Tracks.quiet
          · exact ⟨by simp, by simp, by simp, by simp, by simp⟩
          · exact .of_open rfl (clean.keep rfl rfl rfl rfl rfl) (calm.keep rfl rfl rfl)
      | err given dropped =>
          obtain ⟨rfl, rfl, calm, isClosed⟩ := ended
          have left : receiver ≠ .connected := by simpa using isClosed
          rw [OneShot.put, if_neg left] at put
          obtain ⟨rfl, rfl⟩ := Prod.mk.inj put
          rw [isClosed] at calm
          refine ⟨none, ?_, rfl⟩
          refine .senderFreeing ⟨by simp, by simp, by simp, by simp, by simp⟩ ?_
            (clean.keep rfl rfl rfl rfl rfl) calm.value (calm.waker rfl)
          simpa [OneShot.bothClosed, OneShot.Sending.closed] using left
      | panic => exact ended.elim

theorem Tracks.flush_step {before : OneShot T} {waker : W} {pc : FlushPc W}
    (once : kind ≠ .channel) (notTask : kind ≠ .taskFn) (formed : before.Formed kind)
    (pending : before.sender = .flush none)
    (polled : before.send (.poll waker) = some (cell, answer))
    (clean : m.Clean) (solo : pc.Solo before.bothOpen before.content.value m)
    (step : (Sender.flushing false waker pc).Stepped kind spurious m m' S') :
    cell.Advances kind (some answer) ⟨m', S', .idle before.receiver⟩
      ((Sender.flushing false waker pc : Sender T W).answer kind spurious m) := by
  have kept := solo.step spurious clean
  rw [← Kind.finalize_of_once once] at kept
  obtain rfl : kind = .sendOnce := by cases kind <;> trivial
  obtain ⟨sender, receiver, content⟩ := before
  obtain rfl : sender = .flush none := pending
  cases step with
  | flush inner =>
      simp only [Sender.answer, inner] at kept ⊢
      exact ⟨_, .flushing notTask formed rfl polled kept.1.clean kept.2, rfl⟩
  | @flushEnd _ _ _ result after inner =>
      simp only [Sender.answer, inner] at kept ⊢
      obtain ⟨⟨clean, _⟩, ended⟩ := kept
      cases result with
      | pending =>
          obtain ⟨calm, isSome, isOpen⟩ := ended
          obtain rfl : receiver = .connected := by simpa [OneShot.bothOpen,
            OneShot.Sending.closed] using isOpen
          cases content with
          | full value =>
              obtain ⟨rfl, rfl⟩ := Prod.mk.inj (Option.some.inj polled)
              refine ⟨none, .quiet formed (.of_open rfl ?_ ?_), rfl⟩
              · exact clean.keep rfl rfl rfl rfl rfl
              · exact calm.keep rfl rfl rfl
          | empty | taken => cases isSome
      | ready given dropped =>
          obtain ⟨rfl, rfl, noValue, noWaker, isClosed⟩ := ended
          have left : receiver ≠ .connected := by
            simpa [OneShot.bothOpen, OneShot.Sending.closed] using isClosed
          have freeing (now : OneShot.Content T) : Tracks .sendOnce ⟨.resolved, receiver, now⟩ none
              ⟨World.giveBack content.value after, .freeing (.flush false false none),
                .idle receiver⟩ := by
            refine .senderFreeing ⟨by simp, by simp, by simp, by simp [left], by simp⟩ ?_
              (clean.keep rfl rfl rfl rfl rfl) noValue noWaker
            simpa [OneShot.bothClosed, OneShot.Sending.closed] using left
          cases content with
          | empty => exact absurd rfl (formed.pending rfl)
          | full value =>
              simp only [OneShot.send, if_neg left] at polled
              obtain ⟨rfl, rfl⟩ := Prod.mk.inj (Option.some.inj polled)
              exact ⟨none, freeing _, rfl⟩
          | taken =>
              obtain ⟨rfl, rfl⟩ := Prod.mk.inj (Option.some.inj polled)
              exact ⟨none, freeing _, rfl⟩
      | panic => exact ended.elim

theorem Tracks.sendDrop_step {pc : DropPc W} {value : Option T} (formed : cell.Formed kind)
    (left : cell.sender = .gone) (content : cell.receiver = .connected → cell.content.value = value)
    (clean : m.Clean) (solo : pc.Solo (cell.receiver = .connected) value m)
    (step : (Sender.dropping pc).Stepped kind spurious m m' S') :
    cell.Advances kind none ⟨m', S', .idle cell.receiver⟩
      ((Sender.dropping pc).answer kind spurious m) := by
  have kept := solo.step true clean
  obtain ⟨sender, receiver, content⟩ := cell
  obtain rfl : sender = .gone := left
  cases step with
  | drop inner =>
      simp only [inner] at kept
      exact ⟨_, .senderDropping formed rfl content kept.1.clean kept.2, rfl⟩
  | @dropEnd _ last after inner =>
      simp only [inner] at kept
      obtain ⟨⟨clean, _⟩, rfl, noWaker, opened, noValue⟩ := kept
      by_cases isOpen : receiver = .connected
      · subst isOpen
        refine ⟨none, .quiet formed (.of_open rfl ?_ ?_), rfl⟩
        · exact clean.keep rfl rfl rfl rfl rfl
        · rw [content rfl]
          exact (opened rfl).keep rfl rfl rfl
      · simp only [isOpen, decide_false, Bool.not_false, Sender.finishDrop, if_true]
        refine ⟨none, .senderFreeing formed ?_ ?_ ?_ noWaker, rfl⟩
        · simpa [OneShot.bothClosed, OneShot.Sending.closed] using isOpen
        · exact clean.keep rfl rfl rfl rfl rfl
        · exact noValue (by simpa using isOpen)

theorem Tracks.sender_step {s : System T W} (once : kind ≠ .channel) {owed : Option (Answer T)}
    (tracks : Tracks kind cell owed s) (step : s.sender.Stepped kind spurious s.world m' S') :
    cell.Advances kind owed ⟨m', S', s.receiver⟩
      (s.sender.answer kind spurious s.world) := by
  cases tracks with
  | trySending put clean solo => exact Tracks.trySend_step once put clean solo step
  | flushWriting notTask put clean solo =>
      exact Tracks.flushWrite_step once notTask put clean solo step
  | flushing notTask formed pending polled clean solo =>
      exact Tracks.flush_step once notTask formed pending polled clean solo step
  | senderDropping formed left content clean solo =>
      exact Tracks.sendDrop_step formed left content clean solo step
  | senderFreeing formed ended clean value waker =>
      cases step with
      | free =>
          refine ⟨none, .quiet formed (.of_closed ended ?_), rfl⟩
          exact ⟨by simp [World.dealloc, clean.unfreed], clean.fresh, clean.valueKept,
            clean.wakerKept, clean.unpanicked, value, waker⟩
  | quiet | reading | receiverDropping | receiverFreeing => cases step

end SenderSteps

section ReceiverSteps

variable {spurious : Bool} {R' : Receiver T W} {sender : OneShot.Sending T}
  {content : OneShot.Content T} {answer : Answer T}

/-- There is nothing to take, and there may yet be. -/
theorem OneShot.take_eq_none {next : ReceiverHandle} :
    cell.take next = none ↔ cell.content.value = none ∧ cell.sender.closed = false := by
  obtain ⟨sender, receiver, content⟩ := cell
  cases content <;> simp [OneShot.take, OneShot.Content.value]

theorem OneShot.has_of_take {next : ReceiverHandle} {r : OneShot T × Answer T}
    (taken : cell.take next = some r) :
    (cell.content.value.isSome || cell.sender.closed) = true := by
  by_contra blocks
  have blocked : cell.take next = none := OneShot.take_eq_none.mpr (by simpa using blocks)
  cases blocked.symm.trans taken

/-- The receiving side has taken the value, or learnt that there is none, and
goes on to close or to free. -/
theorem Tracks.take_end {next : ReceiverHandle}
    (formed : (⟨sender, .connected, content⟩ : OneShot T).Formed kind) (left : next ≠ .connected)
    (taken : (⟨sender, .connected, content⟩ : OneShot T).take next = some (cell, answer))
    (clean : m.Clean) (noWaker : m.waker = none) (calm : m.Calm (!sender.closed) none) :
    answer = .result content.value ∧
      Tracks kind cell none ⟨m, .idle sender.handle, .closeWith next sender.closed⟩ := by
  have closes (content : OneShot.Content T)
      (formed : (⟨sender, next, content⟩ : OneShot T).Formed kind) (value : content.value = none) :
      Tracks kind ⟨sender, next, content⟩ none
        ⟨m, .idle sender.handle, .closeWith next sender.closed⟩ := by
    cases isClosed : sender.closed with
    | true =>
        refine .receiverFreeing formed ?_ clean calm.value noWaker
        simpa [OneShot.bothClosed, isClosed] using left
    | false =>
        refine .receiverDropping formed left (fun _ => value) clean ?_
        exact calm
  cases content with
  | full value =>
      obtain ⟨rfl, rfl⟩ := Prod.mk.inj (Option.some.inj taken)
      refine ⟨rfl, closes .taken ?_ rfl⟩
      constructor
      · intro isUnsent
        cases formed.unsent isUnsent
      · intro given isFlush
        cases formed.unwritten given isFlush
      · simp
      · intro isOpen
        exact absurd isOpen left
      · exact formed.noFlush
  | empty | taken =>
      simp only [OneShot.take, Option.ite_none_right_eq_some, Option.some.injEq,
        Prod.mk.injEq] at taken
      obtain ⟨_, rfl, rfl⟩ := taken
      exact ⟨rfl, closes _ (formed.shut _ left) rfl⟩

theorem World.Clean.deliver {value : Option T} (clean : m.Clean) : (m.deliver value).Clean := by
  cases value <;> exact clean.keep rfl rfl rfl rfl rfl

theorem World.Calm.deliver {active : Bool} {value given : Option T} (calm : m.Calm active value) :
    (m.deliver given).Calm active value := by
  cases given <;> exact calm.keep rfl rfl rfl

theorem World.deliver_waker {value : Option T} : (m.deliver value).waker = m.waker := by
  cases value <;> rfl

/-- A `JoinTask` has something to take only from a sending side that is gone. -/
theorem OneShot.Formed.gone_of_take {next : ReceiverHandle} (isTask : kind = .taskFn)
    (formed : cell.Formed kind) (taken : (cell.take next).isSome) : cell.sender.closed = true := by
  rcases formed.noFlush isTask with isUnsent | isGone
  · have isEmpty := formed.unsent isUnsent
    simpa [OneShot.take, isEmpty, Option.isSome_iff_exists] using taken
  · rw [isGone]
    rfl

/-- A `read` has returned to the receiving call that made it. -/
theorem Tracks.finish_read {call : ReceiveCall W} {result : PollResult T} (once : kind ≠ .channel)
    (formed : (⟨sender, .connected, content⟩ : OneShot T).Formed kind)
    (received : (⟨sender, .connected, content⟩ : OneShot T).recv call.op = some (cell, answer))
    (clean : m.Clean) (ended : ReadPc.SoloEnd (!sender.closed) content.value call.own m result) :
    Tracks kind cell none ⟨(Receiver.finishRead kind m call result).1,
        .idle sender.handle, (Receiver.finishRead kind m call result).2⟩ ∧
      call.answer result = some answer := by
  have stays {m' : World T W} (clean : m'.Clean) (calm : m'.Calm (!sender.closed) content.value) :
      Tracks kind ⟨sender, .connected, content⟩ none
        ⟨m', .idle sender.handle, .idle .connected⟩ := by
    refine .quiet formed (.of_open ?_ clean ?_)
    · simp [OneShot.bothClosed]
    · simpa [OneShot.bothOpen] using calm
  cases result with
  | pending =>
      obtain ⟨noValue, isSome, isOpen, calm⟩ := ended
      cases call with
      | poll waker =>
          have blocked : (⟨sender, .connected, content⟩ : OneShot T).take .detached = none :=
            OneShot.take_eq_none.mpr ⟨noValue, by simpa using isOpen⟩
          simp only [ReceiveCall.op, OneShot.recv, blocked, Option.getD_none,
            Option.some.injEq] at received
          obtain ⟨rfl, rfl⟩ := Prod.mk.inj received
          refine ⟨stays ?_ ?_, rfl⟩
          · exact clean.keep rfl rfl rfl rfl rfl
          · rw [noValue]
            exact calm.keep rfl rfl rfl
      | _ => cases isSome
  | ready taken dropped =>
      obtain ⟨rfl, rfl, noWaker, calm, polled⟩ := ended
      rw [Bool.not_not]
      cases call with
      | poll waker =>
          cases taken : (⟨sender, .connected, content⟩ : OneShot T).take .detached with
          | none =>
              obtain ⟨noValue, isOpen⟩ := OneShot.take_eq_none.mp taken
              cases polled noValue (by rw [isOpen]; rfl)
          | some r =>
              simp only [ReceiveCall.op, OneShot.recv, taken, Option.getD_some,
                Option.some.injEq] at received
              rw [received] at taken
              obtain ⟨rfl, tracks⟩ := Tracks.take_end
                (m := m.deliver content.value) formed (by simp)
                taken clean.deliver (World.deliver_waker.trans noWaker) calm.deliver
              have closes : Receiver.finishPoll kind sender.closed =
                  (.closeWith .detached sender.closed : Receiver T W) := by
                cases kind with
                | channel => exact absurd rfl once
                | sendOnce => rfl
                | taskFn =>
                    rw [formed.gone_of_take rfl (by rw [taken]; rfl)]
                    rfl
              refine ⟨?_, rfl⟩
              rw [Receiver.finishRead, closes]
              exact tracks
      | tryRecv =>
          simp only [ReceiveCall.op, OneShot.recv, Option.ite_none_right_eq_some] at received
          obtain ⟨rfl, tracks⟩ := Tracks.take_end (m := m.deliver content.value) formed (by simp)
            received.2 clean.deliver (World.deliver_waker.trans noWaker) calm.deliver
          refine ⟨?_, rfl⟩
          rw [Receiver.finishRead, Receiver.finishTry, if_neg once]
          exact tracks
      | recvFirst waker | recv waker =>
          simp only [ReceiveCall.op, OneShot.recv] at received
          obtain ⟨rfl, tracks⟩ := Tracks.take_end (m := m.deliver content.value) formed (by simp)
            received clean.deliver (World.deliver_waker.trans noWaker) calm.deliver
          have answers : (content.value.isSome || sender.closed) = true :=
            OneShot.has_of_take received
          refine ⟨?_, ?_⟩
          · simpa [Receiver.finishRead, answers, Receiver.finishRecv, once] using tracks
          · simp [ReceiveCall.answer, answers]
      | timeoutFirst waker | timeout waker =>
          cases taken : (⟨sender, .connected, content⟩ : OneShot T).take .detached with
          | none =>
              simp only [ReceiveCall.op, OneShot.recv, taken, Option.getD_none,
                Option.some.injEq] at received
              obtain ⟨rfl, rfl⟩ := Prod.mk.inj received
              obtain ⟨noValue, isOpen⟩ := OneShot.take_eq_none.mp taken
              refine ⟨?_, ?_⟩
              · simp only [Receiver.finishRead, Receiver.finishTimeout, noValue, isOpen]
                exact stays clean (noValue ▸ calm)
              · simp [ReceiveCall.answer, Answer.timeout, noValue, isOpen]
          | some r =>
              simp only [ReceiveCall.op, OneShot.recv, taken, Option.getD_some,
                Option.some.injEq] at received
              rw [received] at taken
              obtain ⟨rfl, tracks⟩ := Tracks.take_end formed (by simp) taken clean noWaker calm
              have answers : (content.value.isSome || sender.closed) = true :=
                OneShot.has_of_take taken
              cases isClosed : sender.closed with
              | true =>
                  rw [isClosed] at tracks
                  exact ⟨tracks, rfl⟩
              | false =>
                  rw [isClosed] at tracks
                  obtain ⟨value, isValue⟩ :=
                    Option.isSome_iff_exists.mp (by simpa [isClosed] using answers)
                  refine ⟨?_, ?_⟩
                  · simpa [Receiver.finishRead, Receiver.finishTimeout, isValue, once,
                      Receiver.closeWith] using tracks
                  · simp [ReceiveCall.answer, Answer.timeout, Answer.result, isValue]
      | timeoutLast | cancel => cases received
  | panic => exact ended.elim

theorem Tracks.recvDrop_step {pc : DropPc W} {value : Option T} (formed : cell.Formed kind)
    (left : cell.receiver ≠ .connected)
    (content : cell.sender.closed = false → cell.content.value = value)
    (clean : m.Clean) (solo : pc.Solo (!cell.sender.closed) value m)
    (step : (Receiver.dropping cell.receiver pc).Stepped kind spurious m m' R') :
    cell.Advances kind none ⟨m', .idle cell.sender.handle, R'⟩
      ((Receiver.dropping cell.receiver pc).answer spurious m) := by
  have kept := solo.step false clean
  cases step with
  | drop inner =>
      simp only [inner] at kept
      exact ⟨_, .receiverDropping formed left content kept.1.clean kept.2, rfl⟩
  | @dropEnd _ _ last after inner =>
      simp only [inner] at kept
      obtain ⟨⟨clean, _⟩, rfl, noWaker, opened, noValue⟩ := kept
      cases isClosed : cell.sender.closed with
      | true =>
          refine ⟨none, .receiverFreeing formed ?_ ?_ ?_ noWaker, rfl⟩
          · simpa [OneShot.bothClosed, isClosed] using left
          · exact clean.keep rfl rfl rfl rfl rfl
          · exact noValue (by rw [isClosed]; rfl)
      | false =>
          refine ⟨none, .quiet formed (.of_open ?_ ?_ ?_), rfl⟩
          · simp [OneShot.bothClosed, isClosed]
          · exact clean.keep rfl rfl rfl rfl rfl
          · have isOpen : cell.bothOpen = false := by simp [OneShot.bothOpen, left]
            rw [content isClosed, isOpen]
            exact (opened (by rw [isClosed]; rfl)).keep rfl rfl rfl

theorem Tracks.receiver_step {s : System T W} {owed : Option (Answer T)} (once : kind ≠ .channel)
    (tracks : Tracks kind cell owed s) (step : s.receiver.Stepped kind spurious s.world m' R') :
    cell.Advances kind owed ⟨m', s.sender, R'⟩ (s.receiver.answer spurious s.world) := by
  cases tracks with
  | @reading before _ _ m call pc formed connected received clean solo =>
      obtain ⟨sender, receiver, content⟩ := before
      obtain rfl : receiver = .connected := connected
      have kept := solo.step spurious clean
      cases step with
      | read inner =>
          simp only [Receiver.answer, inner] at kept ⊢
          exact ⟨_, .reading formed rfl received kept.1.clean kept.2, rfl⟩
      | @readEnd _ _ result after inner =>
          simp only [Receiver.answer, inner] at kept ⊢
          obtain ⟨⟨clean, _⟩, ended⟩ := kept
          have isOpen : (⟨sender, .connected, content⟩ : OneShot T).bothOpen = !sender.closed := by
            simp [OneShot.bothOpen]
          obtain ⟨tracks, answers⟩ := Tracks.finish_read once formed received clean (isOpen ▸ ended)
          exact ⟨none, tracks, by simp [Gives, Outcome.elim, answers]⟩
  | receiverDropping formed left content clean solo =>
      exact Tracks.recvDrop_step formed left content clean solo step
  | receiverFreeing formed ended clean value waker =>
      cases step with
      | free =>
          refine ⟨none, .quiet formed (.of_closed ended ?_), rfl⟩
          exact ⟨by simp [World.dealloc, clean.unfreed], clean.fresh, clean.valueKept,
            clean.wakerKept, clean.unpanicked, value, waker⟩
  | quiet | trySending | flushWriting | flushing | senderDropping | senderFreeing => cases step

end ReceiverSteps

/-! ## Wakers -/

section Wakers

variable {spurious : Bool} {hand hand' woken : Option W} {result : WriteResult T}
  {polled : PollResult T} {owner last : Bool} {waker : W}

/-- The end of a call has nothing in hand and leaves the waker cell alone. -/
theorem World.Rewakes.finish {after : World T W} (rewakes : m.Rewakes after hand none woken)
    (sameWaker : m'.waker = after.waker ∧ hand' = none) : m.Rewakes m' hand hand' woken := by
  obtain ⟨sameWaker, rfl⟩ := sameWaker
  rwa [World.Rewakes, sameWaker]

theorem Sender.carries_of_rests {s : Sender T W} (rests : s.rests = true) : s.carries = none := by
  cases s <;> first | rfl | cases rests

theorem Sender.finishTrySend_wakers : (finishTrySend kind m result).1.waker = m.waker ∧
    (finishTrySend kind m result).2.carries = none :=
  ⟨(finishTrySend_noted ..).waker, carries_of_rests (finishTrySend_rests ..)⟩

theorem Sender.finishFlushWrite_wakers :
    (finishFlushWrite kind owner waker m result).1.waker = m.waker ∧
      (finishFlushWrite kind owner waker m result).2.carries = none :=
  ⟨(finishFlushWrite_noted ..).waker, carries_of_rests (finishFlushWrite_rests ..)⟩

theorem Sender.finishFlush_wakers : (finishFlush kind owner waker m polled).1.waker = m.waker ∧
    (finishFlush kind owner waker m polled).2.carries = none :=
  ⟨(finishFlush_noted ..).waker, carries_of_rests (finishFlush_rests ..)⟩

theorem Receiver.Left.carries {call : ReceiveCall W} {r : Receiver T W}
    (left : Left kind m call polled m' r) : r.carries = none := by
  induction left <;> rfl

theorem Receiver.finishRead_wakers {call : ReceiveCall W} :
    (finishRead kind m call polled).1.waker = m.waker ∧
      (finishRead kind m call polled).2.carries = none :=
  ⟨(finishRead_noted kind m call polled).waker, (finishRead_left kind m call polled).carries⟩

/-- A step of the sending side, while it is the only one inside a call. -/
theorem Tracks.sender_rewakes {s : System T W} {owed : Option (Answer T)} {S' : Sender T W}
    (once : kind ≠ .channel) (tracks : Tracks kind cell owed s)
    (step : s.sender.Stepped kind spurious s.world m' S') :
    s.world.Rewakes m' s.sender.carries S'.carries s.sender.wakes := by
  have finalize := Kind.finalize_of_once once
  cases tracks with
  | trySending put clean solo =>
      have kept := (solo.step spurious clean).1.wakers
      rw [← finalize] at kept
      cases step with
      | trySend inner =>
          rw [inner] at kept
          exact kept
      | trySendEnd inner =>
          rw [inner] at kept
          exact kept.finish Sender.finishTrySend_wakers
  | flushWriting notTask put clean solo =>
      have kept := (solo.step spurious clean).1.wakers
      rw [← finalize] at kept
      cases step with
      | flushWrite inner =>
          rw [inner] at kept
          exact kept
      | flushWriteEnd inner =>
          rw [inner] at kept
          exact kept.finish Sender.finishFlushWrite_wakers
  | flushing notTask formed pending polled clean solo =>
      have kept := (solo.step spurious clean).1.wakers
      rw [← finalize] at kept
      cases step with
      | flush inner =>
          rw [inner] at kept
          exact kept
      | flushEnd inner =>
          rw [inner] at kept
          exact kept.finish Sender.finishFlush_wakers
  | senderDropping formed left content clean solo =>
      have kept := (solo.step true clean).1.wakers
      cases step with
      | drop inner =>
          rw [inner] at kept
          exact kept
      | @dropEnd _ last _ inner =>
          rw [inner] at kept
          cases last <;> exact kept.finish ⟨rfl, rfl⟩
  | senderFreeing formed ended clean value waker =>
      cases step with
      | free => exact .inl ⟨rfl, rfl, rfl⟩
  | quiet | reading | receiverDropping | receiverFreeing => cases step

/-- A step of the receiving side, while it is the only one inside a call. -/
theorem Tracks.receiver_rewakes {s : System T W} {owed : Option (Answer T)} {R' : Receiver T W}
    (tracks : Tracks kind cell owed s) (step : s.receiver.Stepped kind spurious s.world m' R') :
    s.world.Rewakes m' s.receiver.carries R'.carries s.receiver.wakes := by
  cases tracks with
  | reading formed connected received clean solo =>
      have kept := (solo.step spurious clean).1.wakers
      cases step with
      | read inner =>
          rw [inner] at kept
          exact kept
      | readEnd inner =>
          rw [inner] at kept
          exact kept.finish Receiver.finishRead_wakers
  | receiverDropping formed left content clean solo =>
      have kept := (solo.step false clean).1.wakers
      cases step with
      | drop inner =>
          rw [inner] at kept
          exact kept
      | @dropEnd _ _ last _ inner =>
          rw [inner] at kept
          cases last <;> exact kept.finish ⟨rfl, rfl⟩
  | receiverFreeing formed ended clean value waker =>
      cases step with
      | free => exact .inl ⟨rfl, rfl, rfl⟩
  | quiet | trySending | flushWriting | flushing | senderDropping | senderFreeing => cases step

end Wakers

end Suspend.Channel
