import Suspend.Channel.OneShot
import Suspend.Channel.Points

/-!
# What a step leaves alone

An access writes none of what the calls note, and a side writes none of the
notes of the other.  The wakers woken since the latest polls grow by the one
that the step wakes.
-/

namespace Suspend.Channel

open Suspend.Transition

universe u v

variable {T : Type u} {W : Type v} {m m' m'' : World T W} {kind : Kind} {spurious : Bool}

/-! ## Notes -/

/-- What no access writes: the notes of the calls. -/
structure World.SameCalls (m m' : World T W) : Prop where
  panicked : m'.panicked = m.panicked
  senderDropped : m'.senderDropped = m.senderDropped
  receiverDropped : m'.receiverDropped = m.receiverDropped
  passed : m'.passed = m.passed
  returned : m'.returned = m.returned
  receiverPoll : m'.receiverPoll = m.receiverPoll
  lastPoll : m'.lastPoll = m.lastPoll
  senderPoll : m'.senderPoll = m.senderPoll

/-- What the sending side leaves to the receiving side. -/
structure World.Sends (m m' : World T W) : Prop where
  senderClosed : m.senderClosed = true → m'.senderClosed = true
  receiverClosed : m'.receiverClosed = m.receiverClosed
  received : m'.received = m.received

/-- What the receiving side leaves to the sending side. -/
structure World.Receives (m m' : World T W) : Prop where
  senderClosed : m'.senderClosed = m.senderClosed
  receiverClosed : m.receiverClosed = true → m'.receiverClosed = true
  passed : m'.passed = m.passed
  returned : m'.returned = m.returned
  senderPoll : m'.senderPoll = m.senderPoll

theorem World.Sends.trans (first : m.Sends m') (second : m'.Sends m'') : m.Sends m'' where
  senderClosed closed := second.senderClosed (first.senderClosed closed)
  receiverClosed := second.receiverClosed.trans first.receiverClosed
  received := second.received.trans first.received

theorem World.Receives.trans (first : m.Receives m') (second : m'.Receives m'') :
    m.Receives m'' where
  senderClosed := second.senderClosed.trans first.senderClosed
  receiverClosed closed := second.receiverClosed (first.receiverClosed closed)
  passed := second.passed.trans first.passed
  returned := second.returned.trans first.returned
  senderPoll := second.senderPoll.trans first.senderPoll

/-! ## Accesses -/

theorem WritePc.step_frame (finalize spurious : Bool) (m : World T W) (pc : WritePc T W) :
    m.SameCalls (pc.step finalize spurious m).1 ∧ m.Sends (pc.step finalize spurious m).1 := by
  cases pc <;> simp only [step] <;> (try split_ifs) <;>
    exact ⟨⟨rfl, rfl, rfl, rfl, rfl, rfl, rfl, rfl⟩,
      ⟨fun closed => by first | exact closed | rfl, rfl, rfl⟩⟩

theorem FlushPc.step_frame (finalize spurious : Bool) (m : World T W) (pc : FlushPc W) :
    m.SameCalls (pc.step finalize spurious m).1 ∧ m.Sends (pc.step finalize spurious m).1 := by
  cases pc <;> simp only [step] <;> (try split_ifs) <;>
    exact ⟨⟨rfl, rfl, rfl, rfl, rfl, rfl, rfl, rfl⟩,
      ⟨fun closed => by first | exact closed | rfl, rfl, rfl⟩⟩

theorem ReadPc.step_frame (spurious : Bool) (m : World T W) (pc : ReadPc T W) :
    m.SameCalls (pc.step spurious m).1 ∧ m.Receives (pc.step spurious m).1 := by
  cases pc <;> simp only [step] <;> (try split_ifs) <;>
    exact ⟨⟨rfl, rfl, rfl, rfl, rfl, rfl, rfl, rfl⟩,
      ⟨rfl, fun closed => by first | exact closed | rfl, rfl, rfl, rfl⟩⟩

theorem DropPc.step_calls (isWriter : Bool) (m : World T W) (pc : DropPc W) :
    m.SameCalls (pc.step isWriter m).1 := by
  cases isWriter <;> cases pc <;> exact ⟨rfl, rfl, rfl, rfl, rfl, rfl, rfl, rfl⟩

theorem DropPc.step_sends (m : World T W) (pc : DropPc W) : m.Sends (pc.step true m).1 := by
  cases pc <;> exact ⟨fun closed => by first | exact closed | rfl, rfl, rfl⟩

theorem DropPc.step_receives (m : World T W) (pc : DropPc W) : m.Receives (pc.step false m).1 := by
  cases pc <;> exact ⟨rfl, fun closed => by first | exact closed | rfl, rfl, rfl, rfl⟩

/-! ## Steps of a side -/

theorem Sender.Noted.sends (noted : Noted m m') : m.Sends m' := by
  induction noted <;> exact ⟨id, rfl, rfl⟩

/-- The end of a write touches the histories only. -/
theorem World.Sends.endWrite (sends : m.Sends m') (result : WriteResult T) :
    m.Sends (m'.endWrite result) :=
  ⟨sends.senderClosed, sends.receiverClosed, sends.received⟩

theorem Sender.Stepped.sends {S S' : Sender T W} (step : S.Stepped kind spurious m m' S') :
    m.Sends m' := by
  induction step with
  | @trySend pc _ _ inner | @flushWrite _ _ pc _ _ inner =>
      have sends := (pc.step_frame kind.finalize spurious m).2
      rw [inner] at sends
      exact sends
  | @trySendEnd pc result _ inner =>
      have sends := (pc.step_frame kind.finalize spurious m).2
      rw [inner] at sends
      exact (sends.endWrite result).trans (finishTrySend_noted ..).sends
  | @flushWriteEnd _ _ pc result _ inner =>
      have sends := (pc.step_frame kind.finalize spurious m).2
      rw [inner] at sends
      exact (sends.endWrite result).trans (finishFlushWrite_noted ..).sends
  | @flush _ _ pc _ _ inner =>
      have sends := (pc.step_frame kind.finalize spurious m).2
      rw [inner] at sends
      exact sends
  | @flushEnd _ _ pc result _ inner =>
      have sends := (pc.step_frame kind.finalize spurious m).2
      rw [inner] at sends
      exact sends.trans (finishFlush_noted ..).sends
  | @drop pc _ _ inner =>
      have sends := pc.step_sends m
      rw [inner] at sends
      exact sends
  | @dropEnd pc _ _ inner =>
      have sends := pc.step_sends m
      rw [inner] at sends
      exact ⟨sends.senderClosed, sends.receiverClosed, sends.received⟩
  | free => exact ⟨id, rfl, rfl⟩

theorem Receiver.Noted.receives {result : PollResult T} (noted : Noted m result m') :
    m.Receives m' := by
  induction noted <;> exact ⟨rfl, id, rfl, rfl, rfl⟩

theorem Receiver.Stepped.receives {R R' : Receiver T W}
    (step : R.Stepped kind spurious m m' R') : m.Receives m' := by
  induction step with
  | @read _ pc _ _ inner =>
      have receives := (pc.step_frame spurious m).2
      rw [inner] at receives
      exact receives
  | @readEnd call pc result _ inner =>
      have receives := (pc.step_frame spurious m).2
      rw [inner] at receives
      exact receives.trans (finishRead_noted kind _ call result).receives
  | unpark => exact ⟨rfl, id, rfl, rfl, rfl⟩
  | @drop _ pc _ _ inner =>
      have receives := pc.step_receives m
      rw [inner] at receives
      exact receives
  | @dropEnd _ pc _ _ inner =>
      have receives := pc.step_receives m
      rw [inner] at receives
      exact ⟨receives.senderClosed, receives.receiverClosed, receives.passed,
        receives.returned, receives.senderPoll⟩
  | free => exact ⟨rfl, id, rfl, rfl, rfl⟩

/-! ## Wakes -/

/-- The wakers that have been woken since the latest polls, after a step. -/
structure World.Wakes (m m' : World T W) (waker : Option W) : Prop where
  receive : m'.wokenSinceReceive = waker.toList ++ m.wokenSinceReceive
  flush : m'.wokenSinceFlush = waker.toList ++ m.wokenSinceFlush

theorem World.Wakes.mem_receive {waker : Option W} {own : W} (wakes : m.Wakes m' waker)
    (woken : own ∈ m.wokenSinceReceive) : own ∈ m'.wokenSinceReceive := by
  rw [wakes.receive]
  exact List.mem_append_right _ woken

theorem World.Wakes.mem_flush {waker : Option W} {own : W} (wakes : m.Wakes m' waker)
    (woken : own ∈ m.wokenSinceFlush) : own ∈ m'.wokenSinceFlush := by
  rw [wakes.flush]
  exact List.mem_append_right _ woken

theorem WritePc.step_wakes (finalize spurious : Bool) (m : World T W) (pc : WritePc T W) :
    m.Wakes (pc.step finalize spurious m).1 pc.wakes := by
  cases pc <;> simp only [step] <;> (try split_ifs) <;> exact ⟨rfl, rfl⟩

theorem FlushPc.step_wakes (finalize spurious : Bool) (m : World T W) (pc : FlushPc W) :
    m.Wakes (pc.step finalize spurious m).1 pc.wakes := by
  cases pc <;> simp only [step] <;> (try split_ifs) <;> exact ⟨rfl, rfl⟩

theorem DropPc.step_wakes (isWriter : Bool) (m : World T W) (pc : DropPc W) :
    m.Wakes (pc.step isWriter m).1 pc.wakes := by
  cases pc <;> cases isWriter <;> exact ⟨rfl, rfl⟩

theorem ReadPc.step_wakes (spurious : Bool) (m : World T W) (pc : ReadPc T W) :
    m.Wakes (pc.step spurious m).1 pc.wakes := by
  cases pc <;> simp only [step] <;> (try split_ifs) <;> exact ⟨rfl, rfl⟩

end Suspend.Channel
