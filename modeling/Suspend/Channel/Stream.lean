import Suspend.Channel.Delivery
import Suspend.Channel.Open

/-!
# A stream with timeouts

`Receiver::wait_next_timeout` takes the channel out of the `Receiver` and puts
it back when it has no value, and forgets to when it has one and the sender is
there.  As long as that does not happen, a `Receiver` is without its channel
only when the sender has gone, the values come in order, and the channel is
freed by the last of the two.
-/

namespace Suspend.Channel

open Suspend.Transition Suspend.Handoff

universe u v

variable {T : Type u} {W : Type v}
variable {m m' : World T W} {S : SendSections} {R : RecvSections} {C : SendCell} {spurious : Bool}

/-! ## The receiving side without `cancel` -/

/-- Every label but the beginning of a `cancel`. -/
def Label.uncancelled : Label T W → Bool
  | recv .cancel => false
  | _ => true

namespace Receiver

/-- The call in progress is no `cancel`. -/
def Uncancelled : Receiver T W → Prop
  | reading call _ | parked call => call.cancels = false
  | _ => True

theorem Begun.uncancelled {kind : Kind} {handle : ReceiverHandle} {op : RecvOp W}
    {R' : Receiver T W} (begun : Begun kind m handle op m' R') (notCancel : op ≠ .cancel) :
    R'.Uncancelled := by
  induction begun with
  | read isRead => rcases isRead with ⟨_, rfl⟩ | ⟨_, _, rfl⟩ | ⟨_, _, rfl⟩ <;> rfl
  | cancel => exact absurd rfl notCancel
  | poll => rfl
  | drop | detached | leave => trivial

theorem Left.uncancelled {kind : Kind} {call : ReceiveCall W} {result : PollResult T}
    {R : Receiver T W} (left : Left kind m call result m' R) : R.Uncancelled := by
  induction left with
  | parked blocks => rcases blocks with rfl | rfl <;> rfl
  | reading first => rcases first with ⟨-, rfl⟩ | ⟨-, rfl⟩ <;> rfl
  | _ => trivial

theorem Uncancelled.step {kind : Kind} {R R' : Receiver T W} (uncancelled : R.Uncancelled)
    (step : R.Stepped kind spurious m m' R') : R'.Uncancelled := by
  induction step with
  | read => exact uncancelled
  | @readEnd call _ result => exact (finishRead_left kind _ call result).uncancelled
  | unpark isParked => rcases isParked with rfl | rfl <;> rfl
  | @dropEnd _ _ last => cases last <;> trivial
  | drop | free => trivial

/-- A call hands over nothing but what `read` has told it to. -/
theorem finishRead_stage (theirs : Stage) {call : ReceiveCall W} {result : PollResult T}
    (uncancelled : call.cancels = false) (departs : ReadPc.DepartsEnd call m result) :
    (finishRead .channel m call result).1.handoff (finishRead .channel m call result).2.stage
        theirs = m.handoff (ReadPc.stageAfter result) theirs := by
  rw [(finishRead_noted .channel m call result).handoff]
  cases result with
  | panic => exact departs.elim
  | pending => cases call <;> first | rfl | cases uncancelled
  | ready value dropped =>
      cases call with
      | poll | tryRecv | recv => cases dropped <;> rfl
      | recvFirst => cases value <;> cases dropped <;> rfl
      | timeoutFirst | timeout | timeoutLast =>
          cases dropped with
          | true => rfl
          | false =>
              obtain rfl : value = none := departs.1 rfl
              rfl
      | cancel => cases uncancelled

theorem Departs.handoff {R R' : Receiver T W} (theirs : Stage) (locks : Locks m S R.sections)
    (points : R.Local) (departs : R.Departs m) (tells : R.TellsSender m)
    (uncancelled : R.Uncancelled) (step : R.Stepped .channel spurious m m' R') :
    Move (m.handoff R.stage theirs) (m'.handoff R'.stage theirs) := by
  induction step with
  | read inner =>
      have moved := ReadPc.handoff theirs spurious (uncancelled ▸ points) locks
      rw [inner] at moved
      exact moved
  | readEnd inner =>
      have moved := ReadPc.handoff theirs spurious (uncancelled ▸ points) locks
      have departs := ReadPc.Departs.step spurious locks points departs tells.reads
      rw [inner] at moved departs
      rw [finishRead_stage theirs uncancelled departs]
      exact moved
  | unpark => exact .silent _
  | @drop _ pc _ _ inner =>
      have moved := DropPc.handoff theirs m false pc
      rw [inner] at moved
      exact moved
  | @dropEnd _ pc last _ inner =>
      obtain ⟨rfl, -⟩ := departs
      have moved := DropPc.handoff theirs m false pc
      rw [inner] at moved
      cases last <;> exact moved
  | @free next =>
      cases next with
      | connected => exact absurd rfl departs.1
      | detached | gone => exact .free rfl

end Receiver

/-! ## The stream -/

/-- What a call with the channel says of the histories as it goes on. -/
theorem Receiver.finishRead_stream {call : ReceiveCall W} {result : PollResult T}
    (uncancelled : call.cancels = false) (noPanic : result ≠ .panic) (inOrder : InOrder m {})
    (reads : ReadPc.Read m result)
    (attached : (finishRead .channel m call result).2.attached = true) :
    InOrder (finishRead .channel m call result).1
        ((finishRead .channel m call result).2.cell .channel) ∧
      (finishRead .channel m call result).2.Reading (finishRead .channel m call result).1 := by
  cases result with
  | panic => exact (noPanic rfl).elim
  | pending =>
      cases call with
      | cancel => cases uncancelled
      | _ => exact ⟨inOrder.keep ⟨rfl, rfl, rfl, rfl, rfl, rfl, rfl⟩ rfl rfl, trivial⟩
  | ready value dropped =>
      have delivered := inOrder.deliver reads.1
      cases dropped with
      | true =>
          rcases call with _ | _ | _ | _ | _ | _ | _ | _ <;> cases value <;> cases attached
      | false =>
          cases call with
          | cancel => cases uncancelled
          | poll | tryRecv | recv => exact ⟨delivered, trivial⟩
          | recvFirst waker =>
              cases value with
              | none => exact ⟨inOrder.keep ⟨rfl, rfl, rfl, rfl, rfl, rfl, rfl⟩ rfl rfl, trivial⟩
              | some value => exact ⟨delivered, trivial⟩
          | timeoutFirst | timeout | timeoutLast =>
              cases value with
              | none => exact ⟨inOrder, trivial⟩
              | some value => cases attached

theorem InOrder.attached_begun {op : RecvOp W} {r' : Receiver T W} (inOrder : InOrder m {})
    (attached : r'.attached = true) (begun : Receiver.Begun .channel m .connected op m' r') :
    InOrder m' (r'.cell .channel) ∧ r'.Reading m' := by
  cases begun with
  | drop => cases attached
  | _ => exact ⟨inOrder.keep ⟨rfl, rfl, rfl, rfl, rfl, rfl, rfl⟩ rfl rfl, trivial⟩

/-- A step of a receiving side that stays with the channel keeps the histories
in order, and leaves a write that is in progress alone. -/
theorem InOrder.attached_step {s : Sender T W} {r r' : Receiver T W}
    (locks : Locks m (s.sections .channel) r.sections) (points : r.Local)
    (cell : Cell m (s.cell .channel) (r.cell .channel)) (uncancelled : r.Uncancelled)
    (wasAttached : r.attached = true) (attached : r'.attached = true)
    (inOrder : InOrder m (r.cell .channel)) (writing : s.Writing m) (reading : r.Reading m)
    (step : r.Stepped .channel spurious m m' r') :
    InOrder m' (r'.cell .channel) ∧ s.Writing m' ∧ r'.Reading m' := by
  have isOpen := Receiver.isOpen locks wasAttached
  induction step with
  | @read call pc _ _ inner =>
      have points : pc.Local false := uncancelled ▸ points
      have kept := inOrder.read_step spurious locks points cell isOpen reading
      have same := ReadPc.writing spurious points locks cell (Sender.cell_stored s)
      rw [inner] at kept same
      exact ⟨kept.1, writing.keep same.1 same.2.1, kept.2⟩
  | @readEnd call pc result after inner =>
      have points : pc.Local false := uncancelled ▸ points
      have kept := inOrder.read_step spurious locks points cell isOpen reading
      have same := ReadPc.writing spurious points locks cell (Sender.cell_stored s)
      have noPanic := points.step spurious locks
      rw [inner] at kept same noPanic
      obtain ⟨sameWriting, sameValue, -⟩ := Receiver.finishRead_writing
      have returned : InOrder after {} := by
        refine kept.1.keep ⟨rfl, rfl, rfl, rfl, rfl, rfl, rfl⟩ ?_ ?_ <;> cases result <;> rfl
      obtain ⟨inOrder, reading⟩ :=
        Receiver.finishRead_stream uncancelled noPanic returned kept.2 attached
      refine ⟨inOrder, writing.keep (sameWriting.trans same.1) ?_, reading⟩
      exact fun stored => sameValue.trans (same.2.1 stored)
  | unpark isParked =>
      refine ⟨?_, writing.keep rfl fun _ => rfl, trivial⟩
      exact inOrder.keep ⟨rfl, rfl, rfl, rfl, rfl, rfl, rfl⟩ rfl rfl
  | drop | dropEnd => cases wasAttached
  | free => cases wasAttached

/-! ## Runs -/

namespace System

variable {s s' : System T W} {label : Label T W}

/-- The stream is whole, and each side is at its stage of the hand-off. -/
structure Streams (s : System T W) : Prop where
  valid : Valid (s.handoff .channel)
  departs : s.Departs
  uncancelled : s.receiver.Uncancelled
  inOrder : s.receiver.attached = true → InOrder s.world (s.receiver.cell .channel) ∧
    s.sender.Writing s.world ∧ s.receiver.Reading s.world

theorem Streams.init : Streams (System.init : System T W) := by
  refine ⟨HandedOff.init.valid, .init, trivial, fun _ => ⟨?_, rfl, trivial⟩⟩
  exact Delivers.init.inOrder

theorem Streams.step_inOrder (sound : Sound .channel s) (opened : Opened .channel s)
    (streams : s.Streams) (uncancelled : label.uncancelled = true)
    (step : System.step .channel s label = some s') (attached : s'.receiver.attached = true) :
    InOrder s'.world (s'.receiver.cell .channel) ∧ s'.sender.Writing s'.world ∧
      s'.receiver.Reading s'.world := by
  obtain ⟨-, -, notCancel, inOrder⟩ := streams
  rcases System.step_cases step with ⟨handle, op, rfl, isIdle, same, begun⟩ |
    ⟨handle, op, rfl, isIdle, same, begun⟩ | ⟨spurious, rfl, same, stepped⟩ |
    ⟨_, rfl, same, stepped⟩ | ⟨_, _, parked, same, world, reads⟩
  · rw [same] at attached ⊢
    obtain ⟨inOrder, writing, reading⟩ := inOrder attached
    rw [isIdle] at writing
    obtain ⟨kept, stays⟩ := inOrder.sender_begun writing begun
    obtain ⟨state, sender, -⟩ := (Sender.begun_follows (isIdle ▸ sound.sender) begun).1
    refine ⟨kept, stays, reading.keep fun drained => ?_⟩
    exact ⟨sender.trans drained.1, state ▸ drained.2⟩
  · obtain rfl := begun.attached attached
    obtain ⟨inOrder, writing, reading⟩ := inOrder (by rw [isIdle]; rfl)
    rw [isIdle] at inOrder
    rw [same]
    obtain ⟨kept, learnt⟩ := inOrder.attached_begun attached begun
    exact ⟨kept, writing.begun begun, learnt⟩
  · rw [same] at attached ⊢
    obtain ⟨inOrder, writing, reading⟩ := inOrder attached
    have isOpen := Receiver.isOpen sound.locks attached
    obtain ⟨kept, stays⟩ := inOrder.sender_step sound.locks sound.sender (opened.cell attached)
      (Receiver.cell_taken _) isOpen writing stepped
    exact ⟨kept, stays, reading.keep fun drained => drained.sender_step sound.locks stepped⟩
  · have wasAttached := stepped.attached sound.receiver attached
    obtain ⟨inOrder, writing, reading⟩ := inOrder wasAttached
    rw [same]
    exact inOrder.attached_step sound.locks sound.receiver (opened.cell wasAttached) notCancel
      wasAttached attached writing reading stepped
  · obtain ⟨inOrder, writing, -⟩ := inOrder (by rw [parked]; rfl)
    rw [parked] at inOrder
    rw [same, world, reads]
    refine ⟨?_, writing.keep rfl fun _ => rfl, trivial⟩
    exact inOrder.keep ⟨rfl, rfl, rfl, rfl, rfl, rfl, rfl⟩ rfl rfl

theorem Streams.step (sound : Sound .channel s) (opened : Opened .channel s)
    (streams : s.Streams) (tells : s.tellsSender label = true)
    (uncancelled : label.uncancelled = true) (step : System.step .channel s label = some s') :
    s'.Streams := by
  refine ⟨?_, streams.departs.step sound tells step, ?_,
    streams.step_inOrder sound opened uncancelled step⟩
  · obtain ⟨valid, departs, notCancel, -⟩ := streams
    unfold System.handoff at valid
    rcases System.step_cases step with ⟨_, _, _, isIdle, same, begun⟩ |
      ⟨_, _, rfl, isIdle, same, begun⟩ | ⟨spurious, rfl, same, stepped⟩ |
      ⟨_, rfl, same, stepped⟩ | ⟨_, _, parked, same, world, reads⟩
    · have points := sound.sender
      rw [isIdle] at valid points
      rw [← Sender.begun_handoff _ points begun, ← same] at valid
      exact valid
    · rw [isIdle] at valid
      have turned : Valid (s.world.handoff (Receiver.idle _).stage (s.sender.stage .channel)) :=
        valid.swap
      rw [← Receiver.begun_handoff _ begun, ← same] at turned
      exact turned.swap
    · have moved := Sender.stepped_handoff s.receiver.stage sound.locks sound.sender stepped
        (fun _ _ finalizes => by cases finalizes) (fun _ _ _ finalizes => by cases finalizes)
      have still := valid.move moved
      rw [← same] at still
      exact still
    · have moved := departs.receiver.handoff (s.sender.stage .channel) sound.locks sound.receiver
        (Receiver.TellsSender.of_label tells) notCancel stepped
      have turned := valid.swap.move moved
      rw [← same] at turned
      exact turned.swap
    · rw [parked] at valid
      unfold System.handoff
      rw [same, world, reads]
      exact valid
  · have notCancel := streams.uncancelled
    rcases System.step_cases step with ⟨_, _, _, _, same, _⟩ | ⟨_, _, rfl, _, _, begun⟩ |
      ⟨_, rfl, same, _⟩ | ⟨_, rfl, _, stepped⟩ | ⟨_, _, _, _, _, reads⟩
    · rwa [same]
    · apply begun.uncancelled
      rintro rfl
      cases uncancelled
    · rwa [same]
    · exact notCancel.step stepped
    · rw [reads]
      rfl

/-- Between calls the receiver has the channel, unless the sender has gone or
it has been dropped itself; while it has, it receives in order what is sent,
and after its drop the sender is told and the channel is freed once. -/
structure KeepsStream (s : System T W) : Prop where
  connected : ∀ handle, s.receiver = .idle handle → s.world.senderClosed = false →
    handle = .connected ∨ handle = .gone
  in_order : s.receiver.attached = true → s.DeliversInOrder
  disconnects : s.receiver = .idle .gone → s.world.state.active = false
  freed : s.FreedOnce

theorem Streams.keepsStream (sound : Sound .channel s) (streams : s.Streams) : s.KeepsStream where
  connected := by
    rintro (_ | _ | _) isIdle isOpen
    · exact .inl rfl
    · have closed := streams.departs.receiver
      rw [isIdle] at closed
      exact absurd closed (by simp [Receiver.Departs, ReceiverHandle.Departs, isOpen])
    · exact .inr rfl
  in_order attached := (streams.inOrder attached).1.delivers
  disconnects left := streams.departs.inactive sound left
  freed := FreedOnce.of_valid streams.valid

end System

/-- In every run of a `channel()` without `cancel` in which no receive with a
timeout takes a value from an open channel, the receiver keeps its stream. -/
theorem recvTimeout_keepsStream {s : System T W}
    (reachable : ReachableUnder (System.step .channel)
      (fun s label => (s.tellsSender label && label.uncancelled) = true) System.init s) :
    s.KeepsStream := by
  have openedAll (state : System T W) (earlier : ReachableUnder (System.step .channel)
      (fun s label => (s.tellsSender label && label.uncancelled) = true) System.init state) :
      System.Sound .channel state ∧ System.Opened .channel state :=
    ⟨.of_reachable earlier.reachable, .of_reachable earlier.reachable⟩
  have streams : s.Streams := by
    apply reachable.invariant_with openedAll System.Streams.init
    rintro before label after ⟨sound, opened⟩ streams careful step
    obtain ⟨tells, uncancelled⟩ := Bool.and_eq_true_iff.mp careful
    exact streams.step sound opened tells uncancelled step
  exact streams.keepsStream (openedAll s reachable).1

/-- The receiver times out at the first read, receives the value sent after
that, and is dropped before the sender. -/
theorem recvTimeout_keepsStream_of_drop : ∃ s : System Nat Nat,
    s.world.received = [7] ∧ s.world.freed = 1 ∧ s.KeepsStream := by
  obtain ⟨s, ran, received, freed⟩ : ∃ s ∈ runFrom (guarded (System.step .channel)
      fun s label => s.tellsSender label && label.uncancelled) (System.init : System Nat Nat)
      (List.flatten [[.recv (.recvTimeout 1), .receiver false], [.send (.trySend 7)],
        List.replicate 3 (.sender false), [.recv .tryRecv], List.replicate 4 (.receiver false),
        [.recv .drop], List.replicate 2 (.receiver false), [.send .drop],
        List.replicate 2 (.sender false)]),
      s.world.received = [7] ∧ s.world.freed = 1 := by
    decide +kernel
  exact ⟨s, received, freed, recvTimeout_keepsStream (reachableUnder_of_runFrom ran)⟩

/-- A receiver that waits for a value with a timeout, and gets it, has lost its
channel with the sender still there. -/
theorem recvTimeout_losesChannel : ¬ ∀ s : System Nat Nat,
    ReachableUnder (System.step .channel) (fun _ label => label.uncancelled = true)
      System.init s → s.KeepsStream := by
  intro always
  obtain ⟨s, ran, receiver, isOpen⟩ : ∃ s ∈ runFrom (guarded (System.step .channel)
      fun _ label => label.uncancelled) (System.init : System Nat Nat)
      (List.flatten [[.send (.trySend 7)], List.replicate 3 (.sender false),
        [.recv (.recvTimeout 1)], List.replicate 4 (.receiver false)]),
      s.receiver = .idle .detached ∧ s.world.senderClosed = false := by
    decide +kernel
  have keepsStream := always s (reachableUnder_of_runFrom ran)
  rcases keepsStream.connected .detached receiver isOpen with connected | gone
  · cases connected
  · cases gone

end Suspend.Channel
