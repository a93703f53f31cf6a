import Suspend.Channel.Frame
import Suspend.Channel.LifeCycle

/-!
# A channel whose receiver has left

A `Receiver` that lets go of the channel has cleared `STATE_ACTIVE`, or has
seen that the sender did; a `Sender` loses its pointer only to a receiver that
has gone.  From then on every `write` is refused as soon as it has loaded the
state word.  What the sending side is told is another matter: `is_canceled`
looks at `STATE_LOADED` too, and a flush of a sender without a pointer panics.
-/

namespace Suspend.Channel

open Suspend.Transition

universe u v

variable {T : Type u} {W : Type v}
variable {m m' : World T W} {S : SendSections} {R : RecvSections} {spurious : Bool}

/-! ## Who has cleared `STATE_ACTIVE` -/

/-- One side has cleared `STATE_ACTIVE`. -/
def World.shut (m : World T W) : Bool :=
  m.senderClosed || m.receiverClosed

/-- What has been cleared stays so. -/
structure World.Shuts (m m' : World T W) : Prop where
  sender : m.senderClosed = true → m'.senderClosed = true
  receiver : m.receiverClosed = true → m'.receiverClosed = true

theorem World.Shuts.shut (shuts : m.Shuts m') (shut : m.shut = true) : m'.shut = true := by
  rcases Bool.or_eq_true_iff.mp shut with closed | closed
  · exact Bool.or_eq_true_iff.mpr (.inl (shuts.sender closed))
  · exact Bool.or_eq_true_iff.mpr (.inr (shuts.receiver closed))

theorem World.Sends.shuts (sends : m.Sends m') : m.Shuts m' :=
  ⟨sends.senderClosed, sends.receiverClosed.trans⟩

theorem World.Receives.shuts (receives : m.Receives m') : m.Shuts m' :=
  ⟨receives.senderClosed.trans, receives.receiverClosed⟩

theorem Locks.inactive (locks : Locks m S R) (shut : m.shut = true) : m.state.active = false := by
  rw [locks.active_eq]
  exact congrArg Bool.not shut

theorem WritePc.step_closed (spurious : Bool) (m : World T W) (pc : WritePc T W) :
    (pc.step false spurious m).1.senderClosed = m.senderClosed ∧
      (pc.step false spurious m).1.receiverClosed = m.receiverClosed := by
  cases pc <;> simp only [step, Bool.false_eq_true, if_false] <;> (try split_ifs) <;>
    exact ⟨rfl, rfl⟩

theorem FlushPc.step_closed (spurious : Bool) (m : World T W) (pc : FlushPc W) :
    (pc.step false spurious m).1.senderClosed = m.senderClosed ∧
      (pc.step false spurious m).1.receiverClosed = m.receiverClosed := by
  cases pc <;> simp only [step, Bool.false_eq_true, if_false] <;> (try split_ifs) <;>
    exact ⟨rfl, rfl⟩

/-- A drop that gets past the state word leaves it without `STATE_ACTIVE`. -/
theorem DropPc.step_ended (isWriter : Bool) {pc : DropPc W}
    (active : m.state.active = !(m.senderClosed || m.receiverClosed))
    (ended : pc.ended = true → m.shut = true) :
    (pc.step isWriter m).2.elim
      (fun next => next.ended = true → (pc.step isWriter m).1.shut = true)
      fun _ => (pc.step isWriter m).1.shut = true := by
  cases pc with
  | lock =>
      simp only [DropPc.step]
      split_ifs <;> simp_all [Outcome.elim, DropPc.ended, World.shut, World.fetchOr, World.access]
  | unlock waker =>
      cases waker <;> cases isWriter <;> cases isActive : m.state.active <;>
        simp [DropPc.step, DropPc.finish, DropPc.closeSide, isActive, Outcome.elim, World.shut,
          World.closeSender, World.closeReceiver]
  | close =>
      cases isWriter <;> cases isActive : m.state.active <;>
        simp [DropPc.step, DropPc.finish, DropPc.closeSide, isActive, Outcome.elim, World.shut,
          World.closeSender, World.closeReceiver]
  | wake waker last =>
      cases last with
      | true => exact fun _ => ended rfl
      | false => exact ended rfl
  | clearValue prev =>
      simp only [DropPc.step]
      split_ifs
      · exact fun _ => ended rfl
      · exact ended rfl
  | clearWaker | clearLast => exact ended rfl
  | takeWaker | clearOwn => simp [DropPc.step, Outcome.elim, DropPc.ended]

/-! ## The receiving side -/

/-- The calls that let go of a channel with a value taken from it: `cancel`, and
`wait_next_timeout`. -/
def ReceiveCall.leaves : ReceiveCall W → Bool
  | cancel | timeoutFirst _ | timeout _ | timeoutLast => true
  | _ => false

theorem ReceiveCall.leaves_of_cancels (call : ReceiveCall W) (cancels : call.cancels = true) :
    call.leaves = true := by
  cases call with
  | cancel => rfl
  | _ => cases cancels

/-- What a handle without the channel says of it. -/
def ReceiverHandle.Departs (m : World T W) : ReceiverHandle → Prop
  | connected => True
  | detached => m.senderClosed = true
  | gone => m.shut = true

namespace ReadPc

/-- A call that is to leave with a value has found the sender closed, and a
`cancel` never waits. -/
def Departs (call : ReceiveCall W) : ReadPc T W → Prop
  | wakeFlush _ _ dropped => call.leaves = true → dropped = true
  | wake _ => call.cancels = false
  | _ => True

/-- What a `read` says of the channel as it returns. -/
def DepartsEnd (call : ReceiveCall W) (m : World T W) : PollResult T → Prop
  | .pending => call.cancels = false
  | .ready value dropped =>
      if dropped then m.senderClosed = true
      else (call.leaves = true → value = none) ∧ (call.cancels = true → m.receiverClosed = true)
  | .panic => False

theorem loop_departs {call : ReceiveCall W} {prev : State} {waker : Option W} {orCancel : Bool}
    (cancel : orCancel = call.cancels) (closed : prev.active = false → m.senderClosed = true) :
    (loop prev waker orCancel).elim (Departs (T := T) call) (DepartsEnd call m) := by
  subst cancel
  cases cancels : call.cancels <;> cases waker <;> simp only [loop] <;> split_ifs <;>
    simp_all [Outcome.elim, Departs, DepartsEnd]

theorem Departs.step (spurious : Bool) {call : ReceiveCall W} {pc : ReadPc T W}
    (locks : Locks m S pc.sections) (points : pc.Local call.cancels) (departs : pc.Departs call)
    (tells : ∀ prev value flushWaker, pc = .unlock prev value flushWaker → call.leaves = true →
      m.state.active = false) :
    (pc.step spurious m).2.elim (Departs call) (DepartsEnd call (pc.step spurious m).1) := by
  have isOpen : m.receiverClosed = false := by
    by_contra closed
    have ended := (locks.receiver_ended (by simpa using closed)).1
    cases pc <;> cases ended
  have closes (inactive : m.state.active = false) : m.senderClosed = true := by
    have active := locks.active_eq
    rw [inactive, isOpen, Bool.or_false] at active
    simpa using active.symm
  cases pc with
  | load waker orCancel => exact loop_departs points closes
  | swap prev =>
      obtain ⟨-, rfl, -⟩ := locks.swaps prev rfl
      simp [ReadPc.step, Outcome.elim, Departs]
  | takeClosed => exact closes (locks.receiver_closed rfl)
  | lock prev waker orCancel =>
      simp only [ReadPc.step]
      split_ifs
      · trivial
      · exact loop_departs points.2.2 closes
  | unlock prev value flushWaker =>
      have found := tells prev value flushWaker rfl
      have leaves := call.leaves_of_cancels
      cases isActive : m.state.active <;> cases flushWaker <;>
        simp_all [ReadPc.step, Outcome.elim, Departs, DepartsEnd, World.fetchAnd, World.access]
  | wakeFlush waker value dropped =>
      have inactive := locks.receiver_closed
      have leaves := call.leaves_of_cancels
      cases dropped <;>
        simp_all [ReadPc.step, ReadPc.sections, Outcome.elim, Departs, DepartsEnd, World.wake]
  | cancel prev waker =>
      simp only [ReadPc.step]
      split_ifs
      · simp [Outcome.elim, DepartsEnd, World.closeReceiver]
      · exact loop_departs points.2.2.symm closes
  | register prev waker orCancel =>
      obtain ⟨-, -, -, -, noCancel, notCancels⟩ := points
      simp only [ReadPc.step]
      split_ifs
      · trivial
      · cases waker <;> trivial
      · exact loop_departs (noCancel.trans notCancels.symm) closes
  | unlockOwn orCancel =>
      apply loop_departs (points.1.trans points.2.symm)
      exact fun inactive => closes (by simpa using inactive)
  | unlockBare orCancel =>
      simp only [ReadPc.step]
      split_ifs
      · simp [Outcome.elim, DepartsEnd, points.2]
      · apply loop_departs (points.1.trans points.2.symm)
        exact fun inactive => closes (by simpa using inactive)
  | release prev waker orCancel =>
      simp only [ReadPc.step]
      split_ifs
      · exact points.2.2.2.2.2
      · trivial
  | wake waker => exact departs
  | clearPrev prev waker orCancel => cases waker <;> trivial
  | take prev =>
      simp only [ReadPc.step]
      split_ifs <;> trivial
  | takeFlush | storeWaker | clearOwn => trivial

end ReadPc

namespace Receiver

/-- A receiver that has let go of the channel has closed it, or has seen that
the sender did. -/
def Departs (m : World T W) : Receiver T W → Prop
  | idle handle => handle.Departs m
  | freeing handle => handle ≠ .connected ∧ handle.Departs m
  | reading call pc => pc.Departs call
  | parked _ => True
  | dropping next pc => next = .gone ∧ (pc.ended = true → m.shut = true)

theorem Departs.keep {R : Receiver T W} (departs : R.Departs m) (shuts : m.Shuts m') :
    R.Departs m' := by
  have handle {handle : ReceiverHandle} (departs : handle.Departs m) : handle.Departs m' := by
    cases handle with
    | connected => trivial
    | detached => exact shuts.sender departs
    | gone => exact shuts.shut departs
  cases R with
  | idle => exact handle departs
  | freeing => exact ⟨departs.1, handle departs.2⟩
  | reading => exact departs
  | parked => trivial
  | dropping => exact ⟨departs.1, fun ended => shuts.shut (departs.2 ended)⟩

theorem Begun.departs {handle : ReceiverHandle} {op : RecvOp W} {R' : Receiver T W}
    (departs : handle.Departs m) (begun : Begun .channel m handle op m' R') : R'.Departs m' := by
  induction begun with
  | poll | read | cancel => trivial
  | drop => exact ⟨rfl, fun ended => by cases ended⟩
  | @detached _ next answers remains =>
      cases next with
      | connected => trivial
      | detached => exact departs
      | gone => exact Bool.or_eq_true_iff.mpr (.inl departs)
  | leave => exact Bool.or_eq_true_iff.mpr (.inl departs)

/-- No call that is to leave with a value takes it from an open channel. -/
def TellsSender (m : World T W) : Receiver T W → Prop
  | reading call (.unlock ..) => call.leaves = true → m.state.active = false
  | _ => True

theorem TellsSender.reads {call : ReceiveCall W} {pc : ReadPc T W}
    (tells : (reading call pc).TellsSender m) (prev : State) (value : Option T)
    (flushWaker : Option W) (unlocks : pc = .unlock prev value flushWaker) :
    call.leaves = true → m.state.active = false := by
  subst unlocks
  exact tells

theorem finishRead_departs {call : ReceiveCall W} {result : PollResult T}
    (departs : ReadPc.DepartsEnd call m result) :
    (finishRead .channel m call result).2.Departs (finishRead .channel m call result).1 := by
  refine Departs.keep ?_ (finishRead_noted .channel m call result).receives.shuts
  cases result with
  | panic => exact departs.elim
  | pending =>
      cases call with
      | cancel => cases departs
      | _ => trivial
  | ready value dropped =>
      cases dropped with
      | true =>
          cases call with
          | cancel => exact ⟨by simp, Bool.or_eq_true_iff.mpr (.inl departs)⟩
          | recvFirst => cases value <;> exact ⟨by simp, departs⟩
          | _ => exact ⟨by simp, departs⟩
      | false =>
          cases call with
          | poll | tryRecv | recv => trivial
          | recvFirst => cases value <;> trivial
          | timeoutFirst | timeout | timeoutLast =>
              obtain rfl : value = none := departs.1 rfl
              trivial
          | cancel => exact Bool.or_eq_true_iff.mpr (.inr (departs.2 rfl))

theorem Departs.step {R R' : Receiver T W} (locks : Locks m S R.sections) (points : R.Local)
    (departs : R.Departs m) (tells : R.TellsSender m)
    (step : R.Stepped .channel spurious m m' R') : R'.Departs m' := by
  induction step with
  | read inner =>
      have departs := ReadPc.Departs.step spurious locks points departs tells.reads
      rw [inner] at departs
      exact departs
  | readEnd inner =>
      have departs := ReadPc.Departs.step spurious locks points departs tells.reads
      rw [inner] at departs
      exact finishRead_departs departs
  | unpark => trivial
  | @drop _ pc _ _ inner =>
      have ended := pc.step_ended false locks.active_eq departs.2
      rw [inner] at ended
      exact ⟨departs.1, ended⟩
  | @dropEnd _ pc last _ inner =>
      obtain ⟨rfl, departs⟩ := departs
      have ended := pc.step_ended false locks.active_eq departs
      rw [inner] at ended
      cases last with
      | true => exact ⟨by simp, ended⟩
      | false => exact ended
  | free => exact departs.2

end Receiver

/-! ## The sending side -/

/-- A `Sender` has not closed the channel, and it has lost its pointer only to
a receiver that did; a flush has the pointer of the sender that it borrows. -/
def SenderHandle.Departs (m : World T W) : SenderHandle T → Prop
  | connected => m.senderClosed = false
  | detached => m.senderClosed = false ∧ m.receiverClosed = true
  | flush owner channel _ =>
      m.senderClosed = false ∧ owner = channel ∧ (owner = false → m.receiverClosed = true)
  | gone => True

namespace Sender

def Departs (m : World T W) : Sender T W → Prop
  | idle handle | freeing handle => handle.Departs m
  | trySending _ | flushWriting .. | flushing .. => m.senderClosed = false
  | dropping _ => True

theorem Departs.keep {S : Sender T W} (departs : S.Departs m)
    (sender : m'.senderClosed = m.senderClosed)
    (receiver : m.receiverClosed = true → m'.receiverClosed = true) : S.Departs m' := by
  have handle {handle : SenderHandle T} (departs : handle.Departs m) : handle.Departs m' := by
    cases handle with
    | connected => exact sender.trans departs
    | detached => exact ⟨sender.trans departs.1, receiver departs.2⟩
    | flush =>
        obtain ⟨isOpen, paired, left⟩ := departs
        exact ⟨sender.trans isOpen, paired, fun lost => receiver (left lost)⟩
    | gone => trivial
  cases S with
  | idle | freeing => exact handle departs
  | trySending | flushWriting | flushing => exact sender.trans departs
  | dropping => trivial

theorem Begun.departs {handle : SenderHandle T} {op : SendOp T W} {S' : Sender T W}
    (departs : handle.Departs m) (begun : Begun .channel m handle op m' S') : S'.Departs m' := by
  induction begun with
  | trySend | trySendDetached | pollDone => exact departs
  | run isTask => cases isTask
  | runPanic isTask => cases isTask
  | send => exact ⟨departs, rfl, fun lost => by cases lost⟩
  | sendDetached => exact ⟨departs.1, rfl, fun _ => departs.2⟩
  | pollFirst | poll => exact departs.1
  | pollDetached => exact departs
  | @dropBorrow owner channel value =>
      cases owner with
      | true => exact departs.1
      | false => exact ⟨departs.1, departs.2.2 rfl⟩
  | dropFlush notChannel => exact (notChannel rfl).elim
  | dropFlushDone notChannel => exact (notChannel rfl).elim
  | drop | dropDetached => trivial

/-- A `write` that finds the channel closed finds it closed by the receiver. -/
theorem closedBy_receiver (locks : Locks m S R) (inactive : m.state.active = false)
    (isOpen : m.senderClosed = false) : m.receiverClosed = true := by
  have active := locks.active_eq
  rw [inactive, isOpen, Bool.false_or] at active
  simpa using active.symm

end Sender

/-- A `write` gives its value back with a word on whether the receiver is gone. -/
theorem WritePc.step_refused (spurious : Bool) {last : Bool} {pc : WritePc T W}
    (locks : Locks m (pc.sections last) R) (isOpen : m.senderClosed = false) :
    (pc.step false spurious m).2.elim (fun _ => True) fun result =>
      ∀ value, result = .err value true → m.receiverClosed = true := by
  cases pc with
  | sync | takeBack =>
      intro _ _
      exact Sender.closedBy_receiver locks (locks.sender_closed rfl) isOpen
  | lock waker =>
      cases waker <;> simp only [WritePc.step, finish] <;> split_ifs <;> simp [Outcome.elim]
  | release _ _ readWaker | unlock readWaker =>
      cases readWaker <;> simp only [WritePc.step, finish] <;> split_ifs <;> simp [Outcome.elim]
  | takeReader | storeWaker | unlockRead | store => trivial
  | _ =>
      simp only [WritePc.step]
      try split_ifs
      all_goals simp [Outcome.elim]

namespace Sender

/-- Only a drop clears `STATE_ACTIVE` on this side. -/
theorem Stepped.closed {S S' : Sender T W} (step : S.Stepped .channel spurious m m' S')
    (stays : ∀ pc, S ≠ .dropping pc) :
    m'.senderClosed = m.senderClosed ∧ m'.receiverClosed = m.receiverClosed := by
  induction step with
  | @trySend pc _ _ inner =>
      have same := pc.step_closed spurious m
      simp only [Kind.finalize] at inner
      rw [inner] at same
      exact same
  | @trySendEnd pc result _ inner =>
      have same := pc.step_closed spurious m
      simp only [Kind.finalize] at inner
      rw [inner] at same
      cases result <;> exact same
  | @flushWrite _ _ pc _ _ inner =>
      have same := pc.step_closed spurious m
      simp only [Kind.finalize] at inner
      rw [inner] at same
      exact same
  | @flushWriteEnd _ _ pc result _ inner =>
      have same := pc.step_closed spurious m
      simp only [Kind.finalize] at inner
      rw [inner] at same
      cases result <;> exact same
  | @flush _ _ pc _ _ inner =>
      have same := pc.step_closed spurious m
      simp only [Kind.finalize] at inner
      rw [inner] at same
      exact same
  | @flushEnd _ _ pc result _ inner =>
      have same := pc.step_closed spurious m
      simp only [Kind.finalize] at inner
      rw [inner] at same
      cases result <;> exact same
  | @drop pc => exact absurd rfl (stays pc)
  | @dropEnd pc => exact absurd rfl (stays pc)
  | free => exact ⟨rfl, rfl⟩

theorem Departs.step {S S' : Sender T W} (locks : Locks m (S.sections .channel) R)
    (points : S.Local .channel) (departs : S.Departs m)
    (step : S.Stepped .channel spurious m m' S') : S'.Departs m' := by
  have isOpen (stays : ∀ pc, S ≠ .dropping pc) (isOpen : m.senderClosed = false) :
      m'.senderClosed = false :=
    (step.closed stays).1.trans isOpen
  induction step with
  | trySend | flushWrite | flush => exact isOpen (by simp) departs
  | @trySendEnd pc result after inner =>
      have isOpen := isOpen (by simp) departs
      have same := pc.step_closed spurious m
      have refused := WritePc.step_refused spurious locks departs
      have unpanicked := points.step false spurious locks
      simp only [Kind.finalize] at inner
      rw [inner] at same refused unpanicked
      rcases result with _ | ⟨value, _ | _⟩ | _
      · exact isOpen
      · exact isOpen
      · exact ⟨isOpen, same.2.trans (refused value rfl)⟩
      · exact absurd rfl unpanicked
  | @flushWriteEnd _ _ pc result _ inner =>
      have isOpen := isOpen (by simp) departs
      have unpanicked := points.1.step false spurious locks
      obtain ⟨-, -, rfl⟩ := points
      simp only [Kind.finalize] at inner
      rw [inner] at unpanicked
      cases result with
      | ok | err => exact ⟨isOpen, rfl, fun lost => by cases lost⟩
      | panic => exact absurd rfl unpanicked
  | @flushEnd _ _ pc result _ inner =>
      have isOpen := isOpen (by simp) departs
      have unpanicked := points.1.step spurious m
      obtain ⟨-, -, rfl⟩ := points
      simp only [Kind.finalize] at inner unpanicked
      rw [inner] at unpanicked
      cases result with
      | pending | ready => exact ⟨isOpen, rfl, fun lost => by cases lost⟩
      | panic => exact absurd rfl unpanicked
  | drop => trivial
  | @dropEnd _ last => cases last <;> trivial
  | free => exact departs

theorem Begun.shuts {handle : SenderHandle T} {op : SendOp T W} {S' : Sender T W}
    (begun : Begun .channel m handle op m' S') : m.Shuts m' := by
  induction begun <;> exact ⟨id, id⟩

end Sender

/-! ## The pair -/

/-- Each side that has let go of the channel has left it shut. -/
structure System.Departs (s : System T W) : Prop where
  sender : s.sender.Departs s.world
  receiver : s.receiver.Departs s.world

/-- No `cancel` and no `wait_next_timeout` takes a value from an open channel. -/
def System.tellsSender (s : System T W) : Label T W → Bool
  | .receiver _ =>
      match s.receiver with
      | .reading call (.unlock ..) => !(call.leaves && s.world.state.active)
      | _ => true
  | _ => true

theorem Receiver.TellsSender.of_label {s : System T W} {spurious : Bool}
    (tells : s.tellsSender (.receiver spurious) = true) : s.receiver.TellsSender s.world := by
  unfold Receiver.TellsSender
  split
  · intro leaves
    simp_all [System.tellsSender]
  · trivial

namespace System.Departs

variable {s s' : System T W} {label : Label T W}

theorem init : (System.init : System T W).Departs :=
  ⟨rfl, trivial⟩

theorem step (sound : Sound .channel s) (departs : s.Departs) (tells : s.tellsSender label = true)
    (step : System.step .channel s label = some s') : s'.Departs := by
  obtain ⟨sender, receiver⟩ := departs
  rcases System.step_cases step with ⟨handle, op, _, isIdle, same, begun⟩ |
    ⟨handle, op, _, isIdle, same, begun⟩ | ⟨spurious, _, same, stepped⟩ |
    ⟨spurious, rfl, same, stepped⟩ | ⟨_, _, parked, same, world, reads⟩
  · rw [isIdle] at sender
    exact ⟨begun.departs sender, same ▸ receiver.keep begun.shuts⟩
  · rw [isIdle] at receiver
    obtain ⟨-, closed, closes⟩ := (Receiver.begun_follows begun).1
    exact ⟨same ▸ sender.keep closed closes.trans, begun.departs receiver⟩
  · exact ⟨sender.step sound.locks sound.sender stepped, same ▸ receiver.keep stepped.sends.shuts⟩
  · obtain ⟨closed, closes, -⟩ := stepped.receives
    exact ⟨same ▸ sender.keep closed closes,
      receiver.step sound.locks sound.receiver (.of_label tells) stepped⟩
  · refine ⟨?_, ?_⟩
    · rw [same, world]
      exact sender.keep rfl id
    · rw [reads]
      trivial

/-- Without a `cancel` and a timeout every receiver tells the sender. -/
theorem of_plain (reachable : ReachableUnder (System.step .channel)
    (fun _ label => label.plain = true) System.init s) : s.Departs := by
  have handedAll (before : System T W) (reached : ReachableUnder (System.step .channel)
      (fun _ label => label.plain = true) System.init before) :
      Sound .channel before ∧ before.receiver.Plain :=
    ⟨Sound.of_reachable reached.reachable, (HandedOff.of_plain reached).plain⟩
  apply reachable.invariant_with handedAll init
  rintro before label after ⟨sound, plain⟩ departs - stepped
  apply departs.step sound _ stepped
  unfold System.tellsSender
  split
  · split
    · rename_i call _ _ _ isReading
      rw [isReading] at plain
      cases call <;> first | rfl | exact plain.elim
    · rfl
  · rfl

/-- A receiver that has been dropped has left the channel shut. -/
theorem inactive (sound : Sound .channel s) (departs : s.Departs)
    (left : s.receiver = .idle .gone) : s.world.state.active = false := by
  have shut := departs.receiver
  rw [left] at shut
  exact sound.locks.inactive shut

end System.Departs

/-! ## `is_canceled` -/

/-- `is_canceled`, with its load of the state word; a flush keeps its sender
borrowed. -/
def SenderHandle.isCanceled (m : World T W) : SenderHandle T → Option (World T W × Bool)
  | connected => some (m.access, !m.state.active && !m.state.loaded)
  | detached => some (m, true)
  | flush .. | gone => none

/-- A load of the state word leaves everything as it should be. -/
theorem System.Sound.access {kind : Kind} {s : System T W} (sound : Sound kind s) :
    Sound kind { s with world := s.world.access } := by
  obtain ⟨locks, sender, receiver⟩ := sound
  refine ⟨?_, sender, receiver⟩
  cases locks
  constructor <;> assumption

/-- A receiver that has the channel has not closed it. -/
theorem System.Sound.connected_open {kind : Kind} {s : System T W} (sound : Sound kind s)
    (connected : s.receiver = .idle .connected) : s.world.receiverClosed = false := by
  by_contra closed
  have ended := (sound.locks.receiver_ended (by simpa using closed)).1
  rw [connected] at ended
  cases ended

/-- In every run without a `cancel` and without a receive with a timeout,
`is_canceled` tells whether the receiver has been dropped, unless the sender
has its pointer to a channel in which the receiver has left a value. -/
theorem channel_isCanceled_exact {s : System T W} {handle : SenderHandle T}
    {receiver : ReceiverHandle} {answer : Bool}
    (reachable : ReachableUnder (System.step .channel) (fun _ label => label.plain = true)
      System.init s)
    (sender : s.sender = .idle handle) (atRest : s.receiver = .idle receiver)
    (asked : (handle.isCanceled s.world).map Prod.snd = some answer) :
    (answer = true ↔ receiver = .gone) ↔
      ¬(handle = .connected ∧ receiver = .gone ∧ s.world.state.loaded = true) := by
  have sound : System.Sound .channel s := .of_reachable reachable.reachable
  have departs : s.Departs := .of_plain reachable
  have holds := departs.sender
  rw [sender] at holds
  cases handle with
  | connected =>
      have isOpen : s.world.senderClosed = false := holds
      obtain rfl : (!s.world.state.active && !s.world.state.loaded) = answer := by
        simpa [SenderHandle.isCanceled] using asked
      cases receiver with
      | connected =>
          have active := sound.locks.active_eq
          rw [isOpen, sound.connected_open atRest] at active
          simp [active]
      | detached =>
          have closed := departs.receiver
          rw [atRest] at closed
          exact absurd closed (by simp [ReceiverHandle.Departs, Receiver.Departs, isOpen])
      | gone =>
          have inactive := departs.inactive sound atRest
          simp [inactive]
  | detached =>
      obtain ⟨isOpen, left⟩ := holds
      obtain rfl : true = answer := by simpa [SenderHandle.isCanceled] using asked
      cases receiver with
      | connected =>
          rw [sound.connected_open atRest] at left
          cases left
      | detached =>
          have closed := departs.receiver
          rw [atRest] at closed
          exact absurd closed (by simp [ReceiverHandle.Departs, Receiver.Departs, isOpen])
      | gone => simp
  | flush | gone => cases asked

/-- The receiver is dropped once it has taken the value. -/
theorem channel_isCanceled_exact_of_taken :
    ∃ s : System Nat Nat, s.world.received = [7] ∧ s.receiver = .idle .gone ∧
      ((true = true ↔ ReceiverHandle.gone = .gone) ↔
        ¬(SenderHandle.connected = (.connected : SenderHandle Nat) ∧
          ReceiverHandle.gone = .gone ∧ s.world.state.loaded = true)) := by
  obtain ⟨s, ran, received, sender, receiver, asked⟩ : ∃ s ∈ runFrom
      (guarded (System.step .channel) fun _ label => label.plain) (System.init : System Nat Nat)
      (List.flatten [[.send (.trySend 7)], List.replicate 3 (.sender false), [.recv .tryRecv],
        List.replicate 4 (.receiver false), [.recv .drop], List.replicate 2 (.receiver false)]),
      s.world.received = [7] ∧ s.sender = .idle .connected ∧ s.receiver = .idle .gone ∧
        (SenderHandle.connected.isCanceled s.world).map Prod.snd = some true := by
    decide
  exact ⟨s, received, receiver,
    channel_isCanceled_exact (reachableUnder_of_runFrom ran) sender receiver asked⟩

/-- A receiver that is dropped over a value is not taken for dropped. -/
theorem channel_isCanceled_misses : ¬ ∀ (s : System Nat Nat) (handle : SenderHandle Nat)
    (receiver : ReceiverHandle) (answer : Bool),
    ReachableUnder (System.step .channel) (fun _ label => label.plain = true) System.init s →
      s.sender = .idle handle → s.receiver = .idle receiver →
        (handle.isCanceled s.world).map Prod.snd = some answer →
          (answer = true ↔ receiver = .gone) := by
  intro always
  obtain ⟨s, ran, sender, receiver, asked⟩ : ∃ s ∈ runFrom
      (guarded (System.step .channel) fun _ label => label.plain) (System.init : System Nat Nat)
      (List.flatten [[.send (.trySend 7)], List.replicate 3 (.sender false), [.recv .drop],
        List.replicate 2 (.receiver false)]),
      s.sender = .idle .connected ∧ s.receiver = .idle .gone ∧
        (SenderHandle.connected.isCanceled s.world).map Prod.snd = some false := by
    decide
  have exact := always s .connected .gone false
    (reachableUnder_of_runFrom ran) sender receiver asked
  exact absurd (exact.mpr rfl) (by decide)

end Suspend.Channel
