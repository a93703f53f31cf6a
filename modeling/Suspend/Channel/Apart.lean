import Suspend.Channel.Open
import Suspend.Channel.Published

/-!
# The sides apart

While no flush succeeds in an exchange that expects `STATE_WLOCK`, the waker
lock excludes a flush and a drop from each other as well.  A side that has been
dropped has left the channel without `STATE_ACTIVE`.
-/

namespace Suspend.Channel

open Suspend.Transition

universe u v

variable {T : Type u} {W : Type v}
variable {m m' : World T W} {S : SendSections} {R : RecvSections}

/-! ## The waker lock -/

/-- A flush and the drops have the waker lock to themselves. -/
@[mk_iff]
structure Apart (m : World T W) (S : SendSections) (R : RecvSections) : Prop where
  flushes : S.flushHolds = true → m.state.wlock = true ∧ R.dropHolds = false
  drops : S.dropHolds = true → m.state.wlock = true ∧ R.dropHolds = false
  receiver : R.dropHolds = true → m.state.wlock = true

theorem Apart.keep {S' : SendSections} {R' : RecvSections} (apart : Apart m S R)
    (wlock : m'.state.wlock = m.state.wlock)
    (flushes : S'.flushHolds = true → S.flushHolds = true)
    (drops : S'.dropHolds = true → S.dropHolds = true)
    (receiver : R'.dropHolds = true → R.dropHolds = true) : Apart m' S' R' := by
  obtain ⟨hasFlush, hasDrop, hasReceiver⟩ := apart
  constructor <;> grind -linarith -ring -order -lia -ac

theorem Apart.write_step {last : Bool} {pc : WritePc T W} (finalize spurious : Bool)
    (S' : SendSections) (locks : Locks m (pc.sections last) R)
    (apart : Apart m (pc.sections last) R)
    (flushes : S'.flushHolds = false) (drops : S'.dropHolds = false) :
    Apart (pc.step finalize spurious m).1 S' R := by
  have receiver := apart.receiver
  have holds := locks.writeHolds
  refine ⟨by simp [flushes], by simp [drops], ?_⟩
  cases pc <;> simp only [WritePc.step] <;>
    grind -linarith -ring -order -lia -ac [WritePc.sections, State.set, State.unset, World.access,
      World.fetchOr, World.fetchAnd, World.store, World.publish, World.closeSender,
      World.storeValue, World.loadValue, World.storeWaker, World.loadWaker, World.wake]

/-- A flush takes the lock only where nobody has it. -/
theorem Apart.flush_step {finalize : Bool} {pc : FlushPc W} (spurious : Bool)
    (locks : Locks m (pc.sections finalize) R) (points : pc.Local finalize)
    (takes : ∀ prev waker, pc = .lock prev waker → m.state = prev → spurious = false →
      prev.wlock = false)
    (apart : Apart m (pc.sections finalize) R) :
    Apart (pc.step finalize spurious m).1
      ((pc.step finalize spurious m).2.elim (FlushPc.sections finalize) fun _ => {}) R := by
  have receiver := apart.receiver
  have flushes := apart.flushes
  have closed := locks.sender_closed
  have ended := locks.receiver_ended
  have active := locks.active_eq
  have live := locks.live
  cases pc <;> simp only [FlushPc.step] <;> rw [apart_iff] <;>
    grind -linarith -ring -order -lia -ac [Outcome.elim, FlushPc.sections, FlushPc.Local,
      FlushPc.loop, State.set, State.unset, State.done, World.access, World.fetchAnd, World.store,
      World.closeSender, World.loadValue, World.storeWaker, World.loadWaker, World.wake]

theorem Apart.sender_drop_step {live : Bool} {pc : DropPc W}
    (apart : Apart m (pc.sendSections live) R) :
    Apart (pc.step true m).1
      ((pc.step true m).2.elim (DropPc.sendSections live) fun _ => { ended := true }) R := by
  have receiver := apart.receiver
  have drops := apart.drops
  cases pc <;> simp only [DropPc.step, DropPc.closeSide, DropPc.finish] <;> rw [apart_iff] <;>
    grind -linarith -ring -order -lia -ac [Outcome.elim, DropPc.sendSections, DropPc.holds,
      State.set, State.unset, World.access, World.fetchOr, World.fetchAnd, World.closeSender,
      World.clearValue, World.loadValue, World.loadWaker, World.wake]

theorem Apart.read_step {pc : ReadPc T W} (spurious : Bool) (R' : RecvSections)
    (locks : Locks m S pc.sections) (apart : Apart m S pc.sections)
    (drops : R'.dropHolds = false) : Apart (pc.step spurious m).1 S R' := by
  have flushes := locks.flushHolds
  have sends := locks.sender_dropHolds
  have swaps := locks.swaps
  obtain ⟨hasFlush, hasDrop, _⟩ := apart
  cases pc <;> simp only [ReadPc.step] <;> rw [apart_iff] <;>
    grind -linarith -ring -order -lia -ac [ReadPc.sections, ReadPc.unlockMask, State.set,
      State.unset, World.access, World.fetchAnd, World.store, World.receive, World.closeReceiver,
      World.loadValue, World.storeWaker, World.loadWaker, World.wake]

theorem Apart.receiver_drop_step {pc : DropPc W} (apart : Apart m S pc.recvSections) :
    Apart (pc.step false m).1 S
      ((pc.step false m).2.elim DropPc.recvSections fun _ => { ended := true }) := by
  obtain ⟨flushes, drops, receiver⟩ := apart
  cases pc <;> simp only [DropPc.step, DropPc.closeSide, DropPc.finish] <;> rw [apart_iff] <;>
    grind -linarith -ring -order -lia -ac [Outcome.elim, DropPc.recvSections, DropPc.holds,
      State.set, State.unset, World.access, World.fetchOr, World.fetchAnd, World.closeReceiver,
      World.clearValue, World.loadValue, World.loadWaker, World.wake]

/-! ## The two sides -/

section Sides

variable {kind : Kind} {spurious : Bool}

theorem WritePc.sections_apart (last : Bool) (pc : WritePc T W) :
    (pc.sections last).flushHolds = false ∧ (pc.sections last).dropHolds = false := by
  cases pc <;> exact ⟨rfl, rfl⟩

theorem Sender.sections_apart (kind : Kind) {s : Sender T W} (rests : s.rests = true) :
    (s.sections kind).flushHolds = false ∧ (s.sections kind).dropHolds = false := by
  cases s with
  | idle handle => cases handle <;> exact ⟨rfl, rfl⟩
  | freeing next => exact ⟨rfl, rfl⟩
  | _ => cases rests

/-- The lock stays apart while the sending side moves, if a flush does not join
another holder. -/
theorem Apart.sender_step {s s' : Sender T W} (locks : Locks m (s.sections kind) R)
    (points : s.Local kind)
    (takes : ∀ owner waker prev own, s = .flushing owner waker (.lock prev own) →
      m.state = prev → spurious = false → prev.wlock = false)
    (apart : Apart m (s.sections kind) R) (step : s.Stepped kind spurious m m' s') :
    Apart m' (s'.sections kind) R := by
  have away {s : Sender T W} (rests : s.rests = true) {S : SendSections} {m m' : World T W}
      (apart : Apart m S R) (same : m'.state = m.state) : Apart m' (s.sections kind) R := by
    obtain ⟨flushes, drops⟩ := Sender.sections_apart kind rests
    exact apart.keep (by rw [same]) (by simp [flushes]) (by simp [drops]) id
  induction step with
  | @trySend _ next _ inner =>
      obtain ⟨flushes, drops⟩ := WritePc.sections_apart kind.finalize next
      have kept := Apart.write_step kind.finalize spurious _ locks apart flushes drops
      rw [inner] at kept
      exact kept
  | trySendEnd inner =>
      have kept := Apart.write_step kind.finalize spurious {} locks apart rfl rfl
      rw [inner] at kept
      exact away (Sender.finishTrySend_rests ..) kept (Sender.finishTrySend_noted ..).sameWord.1
  | @flushWrite _ _ _ next _ inner =>
      obtain ⟨flushes, drops⟩ := WritePc.sections_apart false next
      have kept := Apart.write_step kind.finalize spurious _ locks apart flushes drops
      rw [inner] at kept
      exact kept
  | flushWriteEnd inner =>
      have kept := Apart.write_step kind.finalize spurious {} locks apart rfl rfl
      rw [inner] at kept
      exact away (Sender.finishFlushWrite_rests ..) kept
        (Sender.finishFlushWrite_noted ..).sameWord.1
  | flush inner =>
      have kept := Apart.flush_step spurious locks points.1
        (fun prev own isLock => takes _ _ prev own (by rw [isLock])) apart
      rw [inner] at kept
      exact kept
  | flushEnd inner =>
      have kept := Apart.flush_step spurious locks points.1
        (fun prev own isLock => takes _ _ prev own (by rw [isLock])) apart
      rw [inner] at kept
      exact away (Sender.finishFlush_rests ..) kept (Sender.finishFlush_noted ..).sameWord.1
  | drop inner =>
      have kept := apart.sender_drop_step
      rw [inner] at kept
      exact kept
  | @dropEnd _ last _ inner =>
      have kept := apart.sender_drop_step
      rw [inner] at kept
      cases last <;> exact away rfl kept rfl
  | @free next => exact away (s := .idle next) rfl apart rfl

/-- The lock stays apart while the receiving side moves. -/
theorem Apart.receiver_step {r r' : Receiver T W} (locks : Locks m S r.sections)
    (apart : Apart m S r.sections) (step : r.Stepped kind spurious m m' r') :
    Apart m' S r'.sections := by
  induction step with
  | @read call pc next _ inner =>
      have kept := Apart.read_step spurious next.sections locks apart (by cases next <;> rfl)
      rw [inner] at kept
      exact kept
  | @readEnd call pc result after inner =>
      have kept := Apart.read_step spurious {} locks apart rfl
      rw [inner] at kept
      obtain ⟨word, follows, -⟩ :
          after.SameWord (Receiver.finishRead kind after call result).1 ∧
            RecvSections.Follows after.state { ended := call.cancels }
              (Receiver.finishRead kind after call result).2.sections ∧
            (Receiver.finishRead kind after call result).2.Local :=
        Receiver.finishRead_follows
      exact kept.keep (by rw [word.1]) id id follows.dropHolds
  | unpark => exact apart.keep rfl id id id
  | drop inner =>
      have kept := apart.receiver_drop_step
      rw [inner] at kept
      exact kept
  | @dropEnd handle _ last _ inner =>
      have kept := apart.receiver_drop_step
      rw [inner] at kept
      refine kept.keep rfl id id ?_
      cases last <;> cases handle <;> simp [Receiver.finishDrop, Receiver.sections]
  | @free next =>
      refine apart.keep rfl id id ?_
      cases next <;> simp [Receiver.sections]

/-! ## Drops that have ended -/

/-- A sending side that has been dropped. -/
def Sender.away : Sender T W → Bool
  | idle .gone | freeing .gone => true
  | _ => false

/-- A receiving side that has let go of the channel. -/
def Receiver.away : Receiver T W → Bool
  | idle .detached | idle .gone | freeing _ => true
  | _ => false

/-- What has been shut stays so, and no drop has ended. -/
structure World.Outlives (m m' : World T W) : Prop where
  shut : m.shut = true → m'.shut = true
  sender : m'.senderDropped = m.senderDropped
  receiver : m'.receiverDropped = m.receiverDropped

theorem World.Outlives.trans {m'' : World T W} (first : m.Outlives m')
    (second : m'.Outlives m'') : m.Outlives m'' where
  shut shut := second.shut (first.shut shut)
  sender := second.sender.trans first.sender
  receiver := second.receiver.trans first.receiver

theorem Sender.Noted.outlives (noted : Noted m m') : m.Outlives m' := by
  induction noted <;> exact ⟨id, rfl, rfl⟩

theorem World.Outlives.endWrite (outlives : m.Outlives m') (result : WriteResult T) :
    m.Outlives (m'.endWrite result) :=
  ⟨outlives.shut, outlives.sender, outlives.receiver⟩

theorem Receiver.Noted.outlives {result : PollResult T} (noted : Noted m result m') :
    m.Outlives m' := by
  induction noted <;> exact ⟨id, rfl, rfl⟩

theorem World.SameCalls.outlives (same : m.SameCalls m') (shuts : m.Shuts m') : m.Outlives m' :=
  ⟨shuts.shut, same.senderDropped, same.receiverDropped⟩

theorem WritePc.outlives (finalize spurious : Bool) (m : World T W) (pc : WritePc T W) :
    m.Outlives (pc.step finalize spurious m).1 :=
  have ⟨same, sends⟩ := pc.step_frame finalize spurious m
  same.outlives sends.shuts

theorem FlushPc.outlives (finalize spurious : Bool) (m : World T W) (pc : FlushPc W) :
    m.Outlives (pc.step finalize spurious m).1 :=
  have ⟨same, sends⟩ := pc.step_frame finalize spurious m
  same.outlives sends.shuts

theorem ReadPc.outlives (spurious : Bool) (m : World T W) (pc : ReadPc T W) :
    m.Outlives (pc.step spurious m).1 :=
  have ⟨same, receives⟩ := pc.step_frame spurious m
  same.outlives receives.shuts

theorem DropPc.outlives (isWriter : Bool) (m : World T W) (pc : DropPc W) :
    m.Outlives (pc.step isWriter m).1 := by
  refine (pc.step_calls isWriter m).outlives ?_
  cases isWriter with
  | true => exact (pc.step_sends m).shuts
  | false => exact (pc.step_receives m).shuts

/-- How far the drops of the two sides have come. -/
structure Ends (m : World T W) (s : Sender T W) (r : Receiver T W) : Prop where
  sender_ended : ∀ pc, s = .dropping pc → pc.ended = true → m.shut = true
  receiver_ended : ∀ next pc, r = .dropping next pc → pc.ended = true → m.shut = true
  sender : m.senderDropped = true → m.shut = true ∧ s.away = true
  receiver : m.receiverDropped = true → m.shut = true ∧ r.away = true

theorem Ends.sender_keep {s s' : Sender T W} {r : Receiver T W} (ends : Ends m s r)
    (outlives : m.Outlives m') (ended : ∀ pc, s' = .dropping pc → pc.ended = true → m'.shut = true)
    (away : s.away = true → s'.away = true) : Ends m' s' r := by
  refine ⟨ended, ?_, ?_, ?_⟩
  · intro next pc isDrop hasEnded
    exact outlives.shut (ends.receiver_ended next pc isDrop hasEnded)
  · intro dropped
    obtain ⟨shut, wasAway⟩ := ends.sender (outlives.sender.symm.trans dropped)
    exact ⟨outlives.shut shut, away wasAway⟩
  · intro dropped
    obtain ⟨shut, isAway⟩ := ends.receiver (outlives.receiver.symm.trans dropped)
    exact ⟨outlives.shut shut, isAway⟩

theorem Ends.receiver_keep {s : Sender T W} {r r' : Receiver T W} (ends : Ends m s r)
    (outlives : m.Outlives m')
    (ended : ∀ next pc, r' = .dropping next pc → pc.ended = true → m'.shut = true)
    (away : r.away = true → r'.away = true) : Ends m' s r' := by
  refine ⟨?_, ended, ?_, ?_⟩
  · intro pc isDrop hasEnded
    exact outlives.shut (ends.sender_ended pc isDrop hasEnded)
  · intro dropped
    obtain ⟨shut, isAway⟩ := ends.sender (outlives.sender.symm.trans dropped)
    exact ⟨outlives.shut shut, isAway⟩
  · intro dropped
    obtain ⟨shut, wasAway⟩ := ends.receiver (outlives.receiver.symm.trans dropped)
    exact ⟨outlives.shut shut, away wasAway⟩

theorem Ends.sender_step {s s' : Sender T W} {r : Receiver T W}
    (locks : Locks m (s.sections kind) R) (ends : Ends m s r)
    (step : s.Stepped kind spurious m m' s') : Ends m' s' r := by
  have rests {s : Sender T W} {m : World T W} (rests : s.rests = true) (pc : DropPc W)
      (isDrop : s = .dropping pc) : pc.ended = true → m.shut = true := by
    subst isDrop
    cases rests
  induction step with
  | @trySend pc _ _ inner =>
      have outlives := pc.outlives kind.finalize spurious m
      rw [inner] at outlives
      exact ends.sender_keep outlives (by rintro _ ⟨⟩) (by rintro ⟨⟩)
  | @trySendEnd pc result after inner =>
      have outlives := pc.outlives kind.finalize spurious m
      rw [inner] at outlives
      have noted := Sender.finishTrySend_noted kind (after.endWrite result) result
      exact ends.sender_keep ((outlives.endWrite result).trans noted.outlives)
        (rests (Sender.finishTrySend_rests ..)) (by rintro ⟨⟩)
  | @flushWrite _ _ pc _ _ inner =>
      have outlives := pc.outlives kind.finalize spurious m
      rw [inner] at outlives
      exact ends.sender_keep outlives (by rintro _ ⟨⟩) (by rintro ⟨⟩)
  | @flushWriteEnd owner waker pc result after inner =>
      have outlives := pc.outlives kind.finalize spurious m
      rw [inner] at outlives
      have noted := Sender.finishFlushWrite_noted kind owner waker (after.endWrite result) result
      exact ends.sender_keep ((outlives.endWrite result).trans noted.outlives)
        (rests (Sender.finishFlushWrite_rests ..)) (by rintro ⟨⟩)
  | @flush _ _ pc _ _ inner =>
      have outlives := pc.outlives kind.finalize spurious m
      rw [inner] at outlives
      exact ends.sender_keep outlives (by rintro _ ⟨⟩) (by rintro ⟨⟩)
  | @flushEnd owner waker pc result after inner =>
      have outlives := pc.outlives kind.finalize spurious m
      rw [inner] at outlives
      have noted := Sender.finishFlush_noted kind owner waker after result
      exact ends.sender_keep (outlives.trans noted.outlives)
        (rests (Sender.finishFlush_rests ..)) (by rintro ⟨⟩)
  | @drop pc next _ inner =>
      have outlives := pc.outlives true m
      have ended := pc.step_ended true locks.active_eq (ends.sender_ended pc rfl)
      rw [inner] at outlives ended
      apply ends.sender_keep outlives
      · rintro _ ⟨⟩
        exact ended
      · rintro ⟨⟩
  | @dropEnd pc last after inner =>
      have outlives := pc.outlives true m
      have ended := pc.step_ended true locks.active_eq (ends.sender_ended pc rfl)
      rw [inner] at outlives ended
      refine ⟨?_, ?_, ?_, ?_⟩
      · cases last <;> rintro _ ⟨⟩
      · intro next pc isDrop hasEnded
        exact outlives.shut (ends.receiver_ended next pc isDrop hasEnded)
      · intro _
        exact ⟨ended, by cases last <;> rfl⟩
      · intro dropped
        obtain ⟨shut, away⟩ := ends.receiver (outlives.receiver.symm.trans dropped)
        exact ⟨outlives.shut shut, away⟩
  | @free next =>
      have outlives : m.Outlives m.dealloc := ⟨id, rfl, rfl⟩
      apply ends.sender_keep outlives
      · rintro _ ⟨⟩
      · cases next <;> simp [Sender.away]

theorem Receiver.Left.unended {call : ReceiveCall W} {result : PollResult T} {r : Receiver T W}
    (left : Left kind m call result m' r) (next : ReceiverHandle) (pc : DropPc W)
    (isDrop : r = .dropping next pc) : pc.ended = false := by
  induction left <;> cases isDrop
  rfl

theorem Ends.receiver_step {s : Sender T W} {r r' : Receiver T W} (locks : Locks m S r.sections)
    (points : r.Local) (ends : Ends m s r) (step : r.Stepped kind spurious m m' r') :
    Ends m' s r' := by
  induction step with
  | @read call pc _ _ inner =>
      have outlives := pc.outlives spurious m
      rw [inner] at outlives
      exact ends.receiver_keep outlives (by rintro _ _ ⟨⟩) (by rintro ⟨⟩)
  | @readEnd call pc result after inner =>
      have outlives := pc.outlives spurious m
      rw [inner] at outlives
      have noted := Receiver.finishRead_noted kind after call result
      apply ends.receiver_keep (outlives.trans noted.outlives)
      · intro next pc isDrop hasEnded
        cases ((Receiver.finishRead_left kind after call result).unended next pc isDrop).symm.trans
          hasEnded
      · rintro ⟨⟩
  | unpark =>
      have outlives : m.Outlives m.beginPoll := ⟨id, rfl, rfl⟩
      apply ends.receiver_keep outlives
      · rintro _ _ ⟨⟩
      · rintro ⟨⟩
  | @drop handle pc next _ inner =>
      have outlives := pc.outlives false m
      have ended := pc.step_ended false locks.active_eq (ends.receiver_ended _ pc rfl)
      rw [inner] at outlives ended
      apply ends.receiver_keep outlives
      · rintro _ _ ⟨⟩
        exact ended
      · rintro ⟨⟩
  | @dropEnd handle pc last after inner =>
      have outlives := pc.outlives false m
      have ended := pc.step_ended false locks.active_eq (ends.receiver_ended _ pc rfl)
      rw [inner] at outlives ended
      refine ⟨?_, ?_, ?_, ?_⟩
      · intro pc isDrop hasEnded
        exact outlives.shut (ends.sender_ended pc isDrop hasEnded)
      · cases last <;> rintro _ _ ⟨⟩
      · intro dropped
        obtain ⟨shut, away⟩ := ends.sender (outlives.sender.symm.trans dropped)
        exact ⟨outlives.shut shut, away⟩
      · intro _
        refine ⟨ended, ?_⟩
        cases last with
        | true => rfl
        | false =>
            cases handle with
            | connected => exact (points rfl).elim
            | _ => rfl
  | @free next =>
      have outlives : m.Outlives m.dealloc := ⟨id, rfl, rfl⟩
      apply ends.receiver_keep outlives
      · rintro _ _ ⟨⟩
      · intro _
        cases next with
        | connected => exact (points rfl).elim
        | _ => rfl

/-! ## Calls that begin -/

/-- A call of the sending side begins outside of the lock. -/
theorem Apart.sender_begun {handle : SenderHandle T} {op : SendOp T W} {s' : Sender T W}
    (apart : Apart m S R) (begun : Sender.Begun kind m handle op m' s') :
    Apart m' (s'.sections kind) R := by
  have wlock : m'.state.wlock = m.state.wlock := by
    induction begun <;> rfl
  have free : (s'.sections kind).flushHolds = false ∧ (s'.sections kind).dropHolds = false := by
    induction begun with
    | @dropBorrow owner => cases owner <;> exact ⟨rfl, rfl⟩
    | _ => exact ⟨rfl, rfl⟩
  exact apart.keep wlock (by simp [free.1]) (by simp [free.2]) id

theorem Apart.receiver_begun {handle : ReceiverHandle} {op : RecvOp W} {r' : Receiver T W}
    (apart : Apart m S R) (begun : Receiver.Begun kind m handle op m' r') :
    Apart m' S r'.sections := by
  have wlock : m'.state.wlock = m.state.wlock := by
    induction begun <;> rfl
  have free : r'.sections.dropHolds = false := by
    induction begun with
    | @detached _ next => cases next <;> rfl
    | _ => rfl
  exact apart.keep wlock id id (by simp [free])

theorem Ends.sender_begun {handle : SenderHandle T} {op : SendOp T W} {s' : Sender T W}
    {r : Receiver T W} (ends : Ends m (.idle handle) r)
    (begun : Sender.Begun kind m handle op m' s') : Ends m' s' r := by
  have outlives : m.Outlives m' := by
    induction begun <;> exact ⟨id, rfl, rfl⟩
  apply ends.sender_keep outlives
  · induction begun with
    | runPanic | dropFlush | drop => rintro _ ⟨⟩ ⟨⟩
    | _ => rintro _ ⟨⟩
  · intro away
    induction begun <;> cases away

theorem Ends.receiver_begun {handle : ReceiverHandle} {op : RecvOp W} {s : Sender T W}
    {r' : Receiver T W} (ends : Ends m s (.idle handle))
    (begun : Receiver.Begun kind m handle op m' r') : Ends m' s r' := by
  have outlives : m.Outlives m' := by
    induction begun <;> exact ⟨id, rfl, rfl⟩
  apply ends.receiver_keep outlives
  · induction begun with
    | drop => rintro _ _ ⟨⟩ ⟨⟩
    | _ => rintro _ _ ⟨⟩
  · induction begun with
    | @detached _ next answers remains =>
        intro _
        cases next with
        | connected => exact (remains rfl).elim
        | _ => rfl
    | leave => exact fun _ => rfl
    | _ => exact fun away => by cases away

end Sides

/-! ## The pair -/

/-- The locks of the two sides are apart, and a side that has been dropped has
left the channel shut. -/
structure System.Parted (kind : Kind) (s : System T W) : Prop where
  apart : Apart s.world (s.sender.sections kind) s.receiver.sections
  ends : Ends s.world s.sender s.receiver

/-- A flush does not succeed in an exchange that expects `STATE_WLOCK`. -/
def System.takesFree (s : System T W) : Label T W → Prop
  | .sender spurious => ∀ owner waker prev own, s.sender = .flushing owner waker (.lock prev own) →
      s.world.state = prev → spurious = false → prev.wlock = false
  | _ => True

namespace System.Parted

variable {kind : Kind} {s s' : System T W} {label : Label T W}

theorem init : Parted kind (System.init : System T W) := by
  refine ⟨?_, ?_⟩ <;> constructor <;>
    simp [System.init, Sender.sections, Sender.handleSections, Receiver.sections]

theorem step (sound : Sound kind s) (parted : Parted kind s) (takes : s.takesFree label)
    (step : System.step kind s label = some s') : Parted kind s' := by
  obtain ⟨apart, ends⟩ := parted
  rcases System.step_cases step with ⟨handle, op, _, isIdle, same, begun⟩ |
    ⟨handle, op, _, isIdle, same, begun⟩ | ⟨spurious, rfl, same, stepped⟩ |
    ⟨_, rfl, same, stepped⟩ | ⟨_, _, parked, same, world, reads⟩
  · rw [isIdle] at ends
    rw [← same] at apart ends
    exact ⟨apart.sender_begun begun, ends.sender_begun begun⟩
  · rw [isIdle] at ends
    rw [← same] at apart ends
    exact ⟨apart.receiver_begun begun, ends.receiver_begun begun⟩
  · have kept := apart.sender_step sound.locks sound.sender takes stepped
    rw [← same] at kept ends
    exact ⟨kept, ends.sender_step sound.locks stepped⟩
  · have kept := apart.receiver_step sound.locks stepped
    have ended := ends.receiver_step sound.locks sound.receiver stepped
    rw [← same] at kept ended
    exact ⟨kept, ended⟩
  · have outlives : s.world.Outlives s.world.beginReceive := ⟨id, rfl, rfl⟩
    rw [parked] at apart ends
    refine ⟨?_, ?_⟩ <;> rw [reads, same, world]
    · exact apart.keep rfl id id id
    · apply ends.receiver_keep outlives
      · rintro _ _ ⟨⟩
      · rintro ⟨⟩

end System.Parted

end Suspend.Channel
