import Suspend.Channel.Disconnect
import Suspend.Channel.ValueCell

/-!
# While the receiver has the channel

The accesses that take the value cell on weak evidence all look for a receiver
that has cleared `STATE_ACTIVE`.  As long as it has its end of the channel it
has not, and the value cell is in order in every run of every kind of channel.
-/

namespace Suspend.Channel

open Suspend.Transition

universe u v

variable {T : Type u} {W : Type v}
variable {m m' : World T W} {S : SendSections} {R : RecvSections} {kind : Kind} {spurious : Bool}

/-- The drop has found `STATE_ACTIVE` and is to clear it. -/
def DropPc.clears : DropPc W → Bool
  | takeWaker | clearOwn | unlock _ | close => true
  | _ => false

/-- A sending side that is to clear `STATE_ACTIVE` has not done so. -/
def Sender.Clears (m : World T W) : Sender T W → Prop
  | dropping pc => pc.clears = true → m.senderClosed = false
  | _ => True

theorem DropPc.step_clears {live : Bool} {pc : DropPc W} (locks : Locks m (pc.sendSections live) R)
    (clears : pc.clears = true → m.senderClosed = false) :
    (pc.step true m).2.elim
      (fun next => next.clears = true → (pc.step true m).1.senderClosed = false)
      fun _ => True := by
  have active := locks.active_eq
  cases pc <;> simp only [DropPc.step, DropPc.finish, DropPc.closeSide] <;>
    grind -linarith -ring -order -lia -ac [Outcome.elim, DropPc.clears, World.access,
      World.fetchOr, World.fetchAnd, World.loadWaker]

theorem Sender.Clears.of_rests {s : Sender T W} (rests : s.rests = true) : s.Clears m := by
  cases s <;> trivial

theorem Sender.Clears.step {s s' : Sender T W} (locks : Locks m (s.sections kind) R)
    (clears : s.Clears m) (step : s.Stepped kind spurious m m' s') : s'.Clears m' := by
  induction step with
  | drop inner =>
      have kept := DropPc.step_clears locks clears
      rw [inner] at kept
      exact kept
  | @dropEnd _ last => cases last <;> trivial
  | trySendEnd => exact .of_rests (finishTrySend_rests ..)
  | flushWriteEnd => exact .of_rests (finishFlushWrite_rests ..)
  | flushEnd => exact .of_rests (finishFlush_rests ..)
  | trySend | flushWrite | flush | free => trivial

theorem Sender.Begun.clears {handle : SenderHandle T} {op : SendOp T W} {s' : Sender T W}
    (begun : Begun kind m handle op m' s') : s'.Clears m' := by
  induction begun <;> first | trivial | (intro clearing; cases clearing)

theorem Sender.Clears.keep {s : Sender T W} (clears : s.Clears m)
    (closed : m'.senderClosed = m.senderClosed) : s.Clears m' := by
  unfold Sender.Clears at clears ⊢
  rwa [closed]

/-- A receiving side that has the channel. -/
def Receiver.attached : Receiver T W → Bool
  | idle .connected | parked _ | reading .. => true
  | _ => false

/-- A receiver that has the channel has not closed it. -/
theorem Receiver.isOpen {r : Receiver T W} (locks : Locks m S r.sections)
    (attached : r.attached = true) : m.receiverClosed = false := by
  by_contra closed
  have ended := (locks.receiver_ended (by simpa using closed)).1
  cases r with
  | idle handle =>
      cases handle with
      | connected => cases ended
      | detached | gone => cases attached
  | reading call pc => cases pc <;> cases ended
  | parked call => cases ended
  | dropping | freeing => cases attached

theorem Receiver.Stepped.attached {r r' : Receiver T W} (points : r.Local)
    (step : r.Stepped kind spurious m m' r') (attached : r'.attached = true) :
    r.attached = true := by
  induction step with
  | read | readEnd | unpark => rfl
  | drop => cases attached
  | @dropEnd handle pc last =>
      cases last with
      | true => cases attached
      | false =>
          cases handle with
          | connected => exact (points rfl).elim
          | detached | gone => cases attached
  | @free next =>
      cases next with
      | connected => exact (points rfl).elim
      | detached | gone => cases attached

theorem Receiver.Begun.attached {handle : ReceiverHandle} {op : RecvOp W} {r' : Receiver T W}
    (begun : Begun kind m handle op m' r') (attached : r'.attached = true) :
    handle = .connected := by
  induction begun with
  | @detached _ next answers remains =>
      cases next with
      | connected => exact (remains rfl).elim
      | detached | gone => cases attached
  | leave => cases attached
  | _ => rfl

/-- No access of the sending side takes the value cell on weak evidence. -/
theorem Cell.open_sender_step {s s' : Sender T W} {r : Receiver T W}
    (locks : Locks m (s.sections kind) r.sections) (points : s.Local kind) (clears : s.Clears m)
    (attached : r.attached = true) (cell : Cell m (s.cell kind) (r.cell kind))
    (step : s.Stepped kind spurious m m' s') : Cell m' (s'.cell kind) (r.cell kind) := by
  have isOpen := Receiver.isOpen locks attached
  have active (unclosed : m.senderClosed = false) : m.state.active = true := by
    rw [locks.active_eq, unclosed, isOpen]
    rfl
  refine cell.sender_step locks points (Receiver.cell_ended r) (Receiver.cell_taken r)
    (Receiver.cell_waiting r) ?_ ?_ ?_ step
  · rintro owner waker prev own readWaker rfl _ _ ⟨_, _, inactive⟩
    rw [active (locks.live rfl)] at inactive
    cases inactive
  · rintro readWaker rfl
    exact .inl (active (locks.live rfl))
  · rintro pc rfl closing
    have isOpen := clears (by cases pc <;> first | rfl | cases closing)
    exact .inl (active isOpen)

theorem Cell.open_receiver_step {s : Sender T W} {r r' : Receiver T W}
    (locks : Locks m (s.sections kind) r.sections) (points : r.Local) (attached : r.attached = true)
    (cell : Cell m (s.cell kind) (r.cell kind)) (step : r.Stepped kind spurious m m' r') :
    Cell m' (s.cell kind) (r'.cell kind) := by
  apply cell.receiver_step locks points (Sender.cell_ended s) (Sender.cell_stored s) ?_ step
  rintro next pc rfl
  cases attached

/-- The value cell is in order as long as the receiver has the channel. -/
structure System.Opened (kind : Kind) (s : System T W) : Prop where
  clears : s.sender.Clears s.world
  cell : s.receiver.attached = true → Cell s.world (s.sender.cell kind) (s.receiver.cell kind)

namespace System.Opened

variable {s s' : System T W} {label : Label T W}

theorem init : Opened kind (System.init : System T W) := by
  refine ⟨trivial, fun _ => ?_⟩
  constructor <;> simp [System.init, Sender.cell, Receiver.cell]

theorem step (sound : Sound kind s) (opened : Opened kind s)
    (step : System.step kind s label = some s') : Opened kind s' := by
  obtain ⟨clears, cell⟩ := opened
  rcases System.step_cases step with ⟨handle, op, _, isIdle, same, begun⟩ |
    ⟨handle, op, _, isIdle, same, begun⟩ | ⟨spurious, rfl, same, stepped⟩ |
    ⟨_, rfl, same, stepped⟩ | ⟨_, _, parked, same, world, reads⟩
  · refine ⟨?_, ?_⟩
    · exact begun.clears
    · rw [same]
      intro attached
      have kept := cell attached
      rw [isIdle] at kept
      obtain ⟨sameCell, follows⟩ := Sender.begun_cell (isIdle ▸ sound.sender) begun
      exact kept.sender_keep sameCell follows
  · refine ⟨?_, ?_⟩
    · rw [same]
      exact clears.keep (Receiver.begun_follows begun).1.2.1
    · intro attached
      obtain rfl := begun.attached attached
      have kept := cell (by rw [isIdle]; rfl)
      rw [isIdle] at kept
      obtain ⟨sameCell, follows⟩ := Receiver.begun_cell begun
      rw [same]
      exact kept.receiver_keep sameCell follows
  · refine ⟨clears.step sound.locks stepped, ?_⟩
    rw [same]
    intro attached
    exact (cell attached).open_sender_step sound.locks sound.sender clears attached stepped
  · refine ⟨?_, ?_⟩
    · rw [same]
      exact clears.keep stepped.receives.senderClosed
    · rw [same]
      intro attached
      have wasAttached := stepped.attached sound.receiver attached
      exact (cell wasAttached).open_receiver_step sound.locks sound.receiver wasAttached stepped
  · refine ⟨?_, ?_⟩
    · rw [same, world]
      exact clears
    · intro _
      have kept := cell (by rw [parked]; rfl)
      rw [parked] at kept
      rw [same, world, reads]
      refine kept.receiver_keep ⟨rfl, rfl, rfl, rfl, id⟩ ?_
      constructor <;> simp [Receiver.cell, ReadPc.cell]

theorem of_reachable (reachable : Reachable (System.step kind) System.init s) : Opened kind s := by
  apply reachable.invariant_with (fun _ earlier => Sound.of_reachable earlier) init
  intro before label after sound opened _ stepped
  exact opened.step sound stepped

end System.Opened

end Suspend.Channel
