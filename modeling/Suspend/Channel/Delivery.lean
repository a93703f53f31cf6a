import Suspend.Channel.Frame
import Suspend.Channel.Ownership

/-!
# In-order delivery

With a receiver that never leaves, the cell of a `channel()` is a queue of
length one: a value is announced by the write that publishes it and stays so
until the receiver has it.  `InOrder` ties the announced value to the histories
of both sides.
-/

namespace Suspend.Channel

open Suspend.Transition

universe u v

variable {T : Type u} {W : Type v}

/-! ## The queue -/

/-- The value announced to the receiving side and not yet taken out by it. -/
def World.pending (m : World T W) (D : RecvCell) : List T :=
  if m.state.loaded && !D.taken || D.swapped then m.value.toList else []

/-- The values of the writes that have published, in order. -/
def World.announced (m : World T W) : List T :=
  (m.writes.filter (·.2.1)).map (·.1) ++ (m.writing.toList.filter (·.2)).map (·.1)

/-- A write has published and returned `Ok`, or returned its value unpublished. -/
def Settled : T × Bool × WriteResult T → Prop
  | (value, published, result) =>
      published = true ∧ result = .ok ∨
        published = false ∧ ∃ dropped, result = .err (some value) dropped

/-- The histories agree with the cell. -/
@[mk_iff]
structure InOrder (m : World T W) (D : RecvCell) : Prop where
  order : m.published = m.received ++ m.pending D
  announced : m.published = m.announced
  settled : ∀ write ∈ m.writes, Settled write
  ends : ∀ report ∈ m.ends, report.1 = report.2

/-- What a write has done with its value. -/
def WritePc.Writing (m : World T W) : WritePc T W → Prop
  | load value _ | sync value | store _ value _ => m.writing = some (value, false)
  | fast _ | lock _ => ∃ value, m.value = some value ∧ m.writing = some (value, false)
  | _ => ∃ value, m.writing = some (value, true)

/-- What a write has done with its value when it returns. -/
def WritePc.Written (m : World T W) (result : WriteResult T) : Prop :=
  ∃ value published, m.writing = some (value, published) ∧ Settled (value, published, result)

def Sender.Writing (m : World T W) : Sender T W → Prop
  | trySending pc | flushWriting _ _ pc => pc.Writing m
  | _ => m.writing = none

/-- The receiving calls of the in-order contract: no `cancel`, no drop and no
receive with a timeout. -/
def Receiver.receiving : Receiver T W → Bool
  | reading call _ | parked call =>
      match call with
      | .poll _ | .tryRecv | .recvFirst _ | .recv _ => true
      | _ => false
  | dropping .. => false
  | _ => true

variable {m m' : World T W} {S : SendSections} {R : RecvSections} {C : SendCell} {D D' : RecvCell}

/-- Nothing the histories depend on has changed. -/
@[mk_iff]
structure World.SameHistory (m m' : World T W) : Prop where
  value : m'.value = m.value
  loaded : m'.state.loaded = m.state.loaded
  published : m'.published = m.published
  received : m'.received = m.received
  writing : m'.writing = m.writing
  writes : m'.writes = m.writes
  ends : m'.ends = m.ends

theorem InOrder.keep (inOrder : InOrder m D) (same : m.SameHistory m')
    (taken : D'.taken = D.taken) (swapped : D'.swapped = D.swapped) : InOrder m' D' := by
  obtain ⟨value, loaded, published, received, writing, writes, ends⟩ := same
  constructor
  · rw [published, received, inOrder.order]
    simp only [World.pending, value, loaded, taken, swapped]
  · rw [published, inOrder.announced]
    simp only [World.announced, writing, writes]
  · rw [writes]
    exact inOrder.settled
  · rw [ends]
    exact inOrder.ends

theorem Sender.Noted.sameHistory (noted : Noted m m') : m.SameHistory m' := by
  induction noted <;> exact ⟨rfl, rfl, rfl, rfl, rfl, rfl, rfl⟩

theorem Sender.Writing.of_rests {S : Sender T W} (rests : S.rests = true)
    (between : m.writing = none) : S.Writing m := by
  cases S <;> first | exact between | cases rests

/-! ## Writes -/

/-- A write publishes what it has stored, and only that. -/
theorem InOrder.write_step {polled : Bool} {pc : WritePc T W} (spurious : Bool)
    (locks : Locks m (pc.sections false) R) (points : pc.Local polled)
    (cell : Cell m (pc.cell false polled) D) (takes : D.taken = true → R.taking = true)
    (isOpen : m.receiverClosed = false) (writing : pc.Writing m) (inOrder : InOrder m D) :
    InOrder (pc.step false spurious m).1 D ∧
      (pc.step false spurious m).2.elim (WritePc.Writing (pc.step false spurious m).1)
        (WritePc.Written (pc.step false spurious m).1) := by
  have unpublished := locks.unpublished
  have live := locks.live
  have taking := locks.taking
  have swapped := cell.swapped
  have claims := cell.sender_claims
  cases inOrder
  cases pc with
  | fast | lock =>
      obtain ⟨value, isValue, isWriting⟩ := writing
      simp only [WritePc.step, WritePc.locked, WritePc.finish]
      refine ⟨?_, ?_⟩
      · rw [inOrder_iff]
        grind -linarith -ring -order -lia -ac [WritePc.sections, State.set, State.unset,
          World.access, World.fetchOr, World.store, World.publish, World.pending, World.announced]
      · grind -linarith -ring -order -lia -ac [Outcome.elim, WritePc.Writing, WritePc.Written,
          Settled, World.access, World.fetchOr, World.store, World.publish]
  | store state value waker =>
      simp only [WritePc.step]
      refine ⟨?_, ?_⟩
      · rw [inOrder_iff]
        grind -linarith -ring -order -lia -ac [WritePc.sections, World.access, World.storeValue,
          World.pending, World.announced]
      · grind -linarith -ring -order -lia -ac [Outcome.elim, WritePc.Writing, World.access,
          World.storeValue]
  | takeBack => simp_all [WritePc.cell]
  | clearWaker found waker =>
      simp only [WritePc.step]
      refine ⟨?_, ?_⟩
      · rw [inOrder_iff]
        grind -linarith -ring -order -lia -ac [World.access, World.loadWaker, World.pending,
          World.announced]
      · grind -linarith -ring -order -lia -ac [Outcome.elim, WritePc.Writing, WritePc.Local,
          World.access, World.loadWaker]
  | load | sync | takeReader | storeWaker | release | unlockRead | unlock | wake =>
      simp only [WritePc.step, WritePc.locked, WritePc.finish]
      refine ⟨?_, ?_⟩
      · rw [inOrder_iff]
        grind -linarith -ring -order -lia -ac [State.set, State.unset, World.access, World.fetchAnd,
          World.store, World.loadWaker, World.storeWaker, World.wake, World.closeSender,
          World.pending, World.announced, WritePc.Local]
      · grind -linarith -ring -order -lia -ac [Outcome.elim, WritePc.Writing, WritePc.Written,
          Settled, World.access, World.fetchAnd, World.store, World.loadWaker, World.storeWaker,
          World.wake, World.closeSender]

/-- With the receiver there, a flush leaves the value where it is. -/
theorem InOrder.flush_step {pc : FlushPc W} (spurious : Bool)
    (cell : Cell m (pc.cell false) D) (isOpen : m.receiverClosed = false)
    (inOrder : InOrder m D) :
    InOrder (pc.step false spurious m).1 D ∧ (pc.step false spurious m).1.writing = m.writing := by
  have claims := cell.sender_claims
  cases pc with
  | reset | takeBack => simp_all [FlushPc.cell]
  | _ =>
      simp only [FlushPc.step]
      refine ⟨inOrder.keep ?_ rfl rfl, ?_⟩
      · rw [World.sameHistory_iff]
        grind -linarith -ring -order -lia -ac [State.set, State.unset, World.access, World.fetchAnd,
          World.store, World.loadWaker, World.storeWaker, World.wake, World.closeSender]
      · grind -linarith -ring -order -lia -ac [World.access, World.fetchAnd, World.store,
          World.loadWaker, World.storeWaker, World.wake, World.closeSender]

/-- With the receiver there, a drop of the sender leaves the value where it is. -/
theorem InOrder.sender_drop_step {pc : DropPc W} {ended : Bool}
    (cell : Cell m { claims := pc.claims, ended } D) (isOpen : m.receiverClosed = false)
    (inOrder : InOrder m D) :
    InOrder (pc.step true m).1 D ∧ (pc.step true m).1.writing = m.writing := by
  have claims := cell.sender_claims
  cases pc with
  | clearValue | clearLast => simp_all [DropPc.claims]
  | _ =>
      simp only [DropPc.step, DropPc.closeSide]
      refine ⟨inOrder.keep ?_ rfl rfl, ?_⟩
      · rw [World.sameHistory_iff]
        grind -linarith -ring -order -lia -ac [State.set, State.unset, World.access, World.fetchAnd,
          World.fetchOr, World.loadWaker, World.wake, World.closeSender]
      · grind -linarith -ring -order -lia -ac [World.access, World.fetchAnd, World.fetchOr,
          World.loadWaker, World.wake, World.closeSender]

/-! ## Reads -/

/-- A closed and empty channel stays so. -/
def World.Drained (m : World T W) : Prop :=
  m.senderClosed = true ∧ m.state.loaded = false

/-- What a read has learnt when it returns. -/
def ReadPc.Read (m : World T W) : PollResult T → Prop
  | .ready value dropped =>
      (value = none → m.published = m.received) ∧ (dropped = true → m.Drained)
  | _ => True

/-- What a read has learnt on its way. -/
def ReadPc.Reading (m : World T W) : ReadPc T W → Prop
  | wakeFlush _ _ dropped => dropped = true → m.Drained
  | _ => True

/-- With nothing announced, every published value has been received. -/
theorem InOrder.empty (inOrder : InOrder m D) (unloaded : m.state.loaded = false)
    (unswapped : D.swapped = false) : m.published = m.received := by
  simpa [World.pending, unloaded, unswapped] using inOrder.order

theorem ReadPc.loop_reads {cancels : Bool} {prev : State} {waker : Option W} {orCancel : Bool}
    (empty : m.state.loaded = false → m.published = m.received)
    (closed : prev.active = false → m.senderClosed = true)
    (loaded : prev.loaded = m.state.loaded) :
    let next := ReadPc.loop (T := T) prev waker orCancel
    (next.elim (ReadPc.cell false) (ReadPc.cellAfter false cancels)).taken = false ∧
      (next.elim (ReadPc.cell false) (ReadPc.cellAfter false cancels)).swapped = false ∧
        next.elim (ReadPc.Reading m) (ReadPc.Read m) := by
  cases waker <;> simp only [ReadPc.loop] <;> split_ifs <;>
    simp_all [Outcome.elim, ReadPc.cell, ReadPc.cellAfter, ReadPc.Reading, ReadPc.Read,
      World.Drained]

/-- A read that does not cancel receives what is announced, and learns that
the channel is at its end only when it is. -/
theorem InOrder.read_step {pc : ReadPc T W} (spurious : Bool)
    (locks : Locks m S pc.sections) (points : pc.Local false)
    (cell : Cell m C (pc.cell false)) (isOpen : m.receiverClosed = false)
    (reading : pc.Reading m) (inOrder : InOrder m (pc.cell false)) :
    InOrder (pc.step spurious m).1
        ((pc.step spurious m).2.elim (ReadPc.cell false) (ReadPc.cellAfter false false)) ∧
      (pc.step spurious m).2.elim (ReadPc.Reading (pc.step spurious m).1)
        (ReadPc.Read (pc.step spurious m).1) := by
  have active := locks.active_eq
  have empty := inOrder.empty
  have closed : m.state.active = false → m.senderClosed = true := by simp_all
  have same : m.SameHistory m.access := ⟨rfl, rfl, rfl, rfl, rfl, rfl, rfl⟩
  have unlocked : m.SameHistory (m.fetchAnd { rlock := true, wlock := true, wake := true }) :=
    ⟨rfl, by simp [World.fetchAnd], rfl, rfl, rfl, rfl, rfl⟩
  have isEmpty := InOrder.empty (D := pc.cell false) (inOrder.keep unlocked rfl rfl)
  have unset : (m.state.unset { rlock := true, wlock := true, wake := true }).active = false →
      m.senderClosed = true := by
    simpa using closed
  cases pc with
  | load waker orCancel =>
      obtain ⟨taken, swapped, reads⟩ := ReadPc.loop_reads (m := m.access) (empty · rfl) closed rfl
      exact ⟨inOrder.keep same taken swapped, reads⟩
  | lock prev waker orCancel =>
      simp only [ReadPc.step]
      split_ifs with exchanged
      · refine ⟨inOrder.keep ⟨rfl, ?_, rfl, rfl, rfl, rfl, rfl⟩ rfl rfl, trivial⟩
        simp [World.store, exchanged.1]
      · obtain ⟨taken, swapped, reads⟩ := ReadPc.loop_reads (m := m.access) (empty · rfl) closed rfl
        exact ⟨inOrder.keep same taken swapped, reads⟩
  | cancel prev waker => simp [ReadPc.Local] at points
  | register prev waker orCancel =>
      by_cases exchanged : m.state = prev ∧ !spurious
      · simp only [ReadPc.step, if_pos exchanged, ReadPc.registered]
        refine ⟨inOrder.keep ⟨rfl, ?_, rfl, rfl, rfl, rfl, rfl⟩ ?_ ?_, ?_⟩
        · simp [World.store, exchanged.1]
        all_goals cases waker <;> split_ifs <;> trivial
      · simp only [ReadPc.step, if_neg exchanged]
        obtain ⟨taken, swapped, reads⟩ := ReadPc.loop_reads (m := m.access) (empty · rfl) closed rfl
        exact ⟨inOrder.keep same taken swapped, reads⟩
  | unlockOwn orCancel =>
      obtain ⟨taken, swapped, reads⟩ := ReadPc.loop_reads (isEmpty · rfl) unset rfl
      exact ⟨inOrder.keep unlocked taken swapped, reads⟩
  | unlockBare orCancel =>
      simp only [ReadPc.step]
      split_ifs with unloaded
      · refine ⟨inOrder.keep unlocked rfl rfl, fun _ => isEmpty ?_ rfl, by simp⟩
        simpa [World.fetchAnd] using (Bool.and_eq_true_iff.mp unloaded).1
      · obtain ⟨taken, swapped, reads⟩ := ReadPc.loop_reads (isEmpty · rfl) unset rfl
        exact ⟨inOrder.keep unlocked taken swapped, reads⟩
  | release prev waker orCancel =>
      simp only [ReadPc.step]
      split_ifs with exchanged
      · refine ⟨inOrder.keep ⟨rfl, ?_, rfl, rfl, rfl, rfl, rfl⟩ rfl rfl, trivial⟩
        simp [World.store, exchanged]
      · exact ⟨inOrder.keep same rfl rfl, trivial⟩
  | swap | takeClosed | take | unlock =>
      have swaps := locks.swaps
      have taking := locks.taking
      have isTaken := cell.taken
      have announced := cell.announced
      have claims := cell.receiver_claims
      have swapped := cell.swapped
      have missing := cell.missing
      cases inOrder
      simp only [ReadPc.step]
      refine ⟨?_, ?_⟩
      · rw [inOrder_iff]
        grind -linarith -ring -order -lia -ac [Outcome.elim, ReadPc.cell, ReadPc.cellAfter,
          ReadPc.sections, ReadPc.Local, ReadPc.unlockMask, State.unset, World.access,
          World.fetchAnd, World.store, World.receive, World.loadValue, World.pending,
          World.announced]
      · grind -linarith -ring -order -lia -ac [Outcome.elim, ReadPc.Reading, ReadPc.Read,
          World.Drained, ReadPc.cell, ReadPc.sections, ReadPc.Local, ReadPc.unlockMask, State.unset,
          World.access, World.fetchAnd, World.store, World.receive, World.loadValue]
  | wakeFlush waker value dropped =>
      have missing := cell.missing
      refine ⟨inOrder.keep ⟨rfl, rfl, rfl, rfl, rfl, rfl, rfl⟩ rfl rfl, ?_, reading⟩
      rintro rfl
      simp [ReadPc.cell] at missing
  | clearPrev prev waker orCancel =>
      refine ⟨inOrder.keep ⟨rfl, rfl, rfl, rfl, rfl, rfl, rfl⟩ ?_ ?_, ?_⟩ <;>
        cases waker <;> trivial
  | takeFlush | wake | storeWaker | clearOwn =>
      exact ⟨inOrder.keep ⟨rfl, rfl, rfl, rfl, rfl, rfl, rfl⟩ rfl rfl, trivial⟩

/-- What the receiving side has learnt: once it has let go of the channel, that
the channel is at its end. -/
def Receiver.Reading (m : World T W) : Receiver T W → Prop
  | reading _ pc => pc.Reading m
  | idle .connected | parked _ => True
  | _ => m.Drained

/-! ## The two sides -/

section Sides

variable {spurious : Bool}

theorem InOrder.beginWrite {value : T} (inOrder : InOrder m D) (between : m.writing = none) :
    InOrder (m.beginWrite value) D := by
  obtain ⟨order, announced, settled, ends⟩ := inOrder
  refine ⟨order, ?_, settled, ends⟩
  simpa [World.announced, World.beginWrite, between] using announced

theorem InOrder.endWrite {result : WriteResult T} (inOrder : InOrder m D)
    (written : WritePc.Written m result) : InOrder (m.endWrite result) D := by
  obtain ⟨order, announced, settled, ends⟩ := inOrder
  obtain ⟨value, published, isWriting, isSettled⟩ := written
  refine ⟨order, ?_, ?_, ends⟩
  · simp [World.announced, World.endWrite, isWriting] at announced ⊢
    cases published <;> simp_all
  · simp only [World.endWrite, isWriting]
    intro write isWrite
    rcases List.mem_append.mp isWrite with earlier | last
    · exact settled write earlier
    · obtain rfl := List.mem_singleton.mp last
      exact isSettled

theorem InOrder.reportEnd (inOrder : InOrder m D) (atEnd : m.published = m.received) :
    InOrder m.reportEnd D := by
  obtain ⟨order, announced, settled, ends⟩ := inOrder
  refine ⟨order, announced, settled, ?_⟩
  intro report isReport
  rcases List.mem_append.mp isReport with earlier | last
  · exact ends report earlier
  · obtain rfl := List.mem_singleton.mp last
    exact atEnd

theorem InOrder.deliver {value : Option T} (inOrder : InOrder m D)
    (atEnd : value = none → m.published = m.received) : InOrder (m.deliver value) D := by
  cases value with
  | none => exact inOrder.reportEnd (atEnd rfl)
  | some value => exact inOrder

theorem InOrder.sender_begun {handle : SenderHandle T} {op : SendOp T W} {S' : Sender T W}
    (inOrder : InOrder m D) (between : m.writing = none)
    (begun : Sender.Begun .channel m handle op m' S') : InOrder m' D ∧ S'.Writing m' := by
  induction begun with
  | trySend | pollFirst =>
      exact ⟨InOrder.beginWrite (inOrder.keep ⟨rfl, rfl, rfl, rfl, rfl, rfl, rfl⟩ rfl rfl) between,
        rfl⟩
  | run isTask | runPanic isTask => cases isTask
  | @dropBorrow owner =>
      cases owner <;>
        exact ⟨inOrder.keep ⟨rfl, rfl, rfl, rfl, rfl, rfl, rfl⟩ rfl rfl, between⟩
  | _ => exact ⟨inOrder.keep ⟨rfl, rfl, rfl, rfl, rfl, rfl, rfl⟩ rfl rfl, between⟩

theorem InOrder.sender_step {S S' : Sender T W} (locks : Locks m (S.sections .channel) R)
    (points : S.Local .channel) (cell : Cell m (S.cell .channel) D)
    (takes : D.taken = true → R.taking = true) (isOpen : m.receiverClosed = false)
    (writing : S.Writing m) (inOrder : InOrder m D)
    (step : S.Stepped .channel spurious m m' S') : InOrder m' D ∧ S'.Writing m' := by
  induction step with
  | trySend inner =>
      obtain ⟨kept, stays⟩ :=
        inOrder.write_step spurious locks points cell takes isOpen writing
      simp only [Kind.finalize] at inner
      rw [inner] at kept stays
      exact ⟨kept, stays⟩
  | @trySendEnd _ result after inner =>
      obtain ⟨kept, stays⟩ :=
        inOrder.write_step spurious locks points cell takes isOpen writing
      simp only [Kind.finalize] at inner
      rw [inner] at kept stays
      have ended := kept.endWrite stays
      have same := (Sender.finishTrySend_noted .channel (after.endWrite result) result).sameHistory
      exact ⟨ended.keep same rfl rfl, .of_rests (Sender.finishTrySend_rests ..) same.writing⟩
  | flushWrite inner =>
      obtain ⟨kept, stays⟩ :=
        inOrder.write_step spurious locks points.1 cell takes isOpen writing
      simp only [Kind.finalize] at inner
      rw [inner] at kept stays
      exact ⟨kept, stays⟩
  | @flushWriteEnd owner own _ result after inner =>
      obtain ⟨kept, stays⟩ :=
        inOrder.write_step spurious locks points.1 cell takes isOpen writing
      simp only [Kind.finalize] at inner
      rw [inner] at kept stays
      have ended := kept.endWrite stays
      have noted := Sender.finishFlushWrite_noted .channel owner own (after.endWrite result) result
      have same := noted.sameHistory
      exact ⟨ended.keep same rfl rfl, .of_rests (Sender.finishFlushWrite_rests ..) same.writing⟩
  | flush inner =>
      obtain ⟨kept, same⟩ := inOrder.flush_step spurious cell isOpen
      simp only [Kind.finalize] at inner
      rw [inner] at kept same
      exact ⟨kept, same.trans writing⟩
  | @flushEnd owner own _ result after inner =>
      obtain ⟨kept, same⟩ := inOrder.flush_step spurious cell isOpen
      simp only [Kind.finalize] at inner
      rw [inner] at kept same
      have ended := (Sender.finishFlush_noted .channel owner own after result).sameHistory
      exact ⟨kept.keep ended rfl rfl, .of_rests (Sender.finishFlush_rests ..)
        (ended.writing.trans (same.trans writing))⟩
  | drop inner =>
      obtain ⟨kept, same⟩ := inOrder.sender_drop_step cell isOpen
      rw [inner] at kept same
      exact ⟨kept, same.trans writing⟩
  | @dropEnd _ last _ inner =>
      obtain ⟨kept, same⟩ := inOrder.sender_drop_step cell isOpen
      rw [inner] at kept same
      cases last <;>
        exact ⟨kept.keep ⟨rfl, rfl, rfl, rfl, rfl, rfl, rfl⟩ rfl rfl, same.trans writing⟩
  | free => exact ⟨inOrder.keep ⟨rfl, rfl, rfl, rfl, rfl, rfl, rfl⟩ rfl rfl, writing⟩

/-- Only a sender that is still there can announce another value. -/
theorem World.Drained.sender_step {S S' : Sender T W} (drained : m.Drained)
    (locks : Locks m (S.sections .channel) R) (step : S.Stepped .channel spurious m m' S') :
    m'.Drained := by
  obtain ⟨closed, unloaded⟩ := drained
  have gone : (S.sections .channel).live = false := by
    by_contra isLive
    have isOpen := locks.live (Bool.eq_true_of_not_eq_false isLive)
    simp [closed] at isOpen
  have dropped (pc : DropPc W) : (pc.step true m).1.Drained := by
    cases pc <;>
      simp [World.Drained, DropPc.step, DropPc.closeSide, World.fetchOr, World.fetchAnd,
        World.clearValue, World.loadValue, World.loadWaker, World.wake, World.access,
        World.closeSender, closed, unloaded]
  induction step with
  | @trySend pc | @trySendEnd pc | @flushWrite _ _ pc | @flushWriteEnd _ _ pc =>
      cases pc <;> simp [Sender.sections, WritePc.sections, Kind.finalize] at gone
  | @flush _ _ pc | @flushEnd _ _ pc =>
      cases pc <;> simp [Sender.sections, FlushPc.sections, Kind.finalize] at gone
  | @drop pc _ _ inner =>
      have kept := dropped pc
      rw [inner] at kept
      exact kept
  | @dropEnd pc last _ inner =>
      have kept := dropped pc
      rw [inner] at kept
      cases last <;> exact kept
  | free => exact ⟨closed, unloaded⟩

theorem Receiver.Reading.keep {r : Receiver T W} (reading : r.Reading m)
    (drained : m.Drained → m'.Drained) : r.Reading m' := by
  cases r with
  | idle handle =>
      cases handle with
      | connected => trivial
      | _ => exact drained reading
  | reading call pc =>
      cases pc with
      | wakeFlush => exact fun dropped => drained (reading dropped)
      | _ => trivial
  | parked => trivial
  | _ => exact drained reading

/-- A write that has stored its value finds it there until it publishes. -/
theorem Sender.Writing.keep {S : Sender T W} (writing : S.Writing m)
    (same : m'.writing = m.writing)
    (stored : (S.cell .channel).stored = true → m'.value = m.value) : S.Writing m' := by
  cases S with
  | trySending pc | flushWriting _ _ pc =>
      cases pc <;> simp_all [Writing, WritePc.Writing, cell, WritePc.cell]
  | _ => exact same.trans writing

theorem Sender.Writing.begun {S : Sender T W} {handle : ReceiverHandle} {op : RecvOp W}
    {R' : Receiver T W} (writing : S.Writing m)
    (begun : Receiver.Begun .channel m handle op m' R') : S.Writing m' := by
  induction begun <;> exact writing.keep rfl fun _ => rfl

theorem InOrder.receiver_begun {handle : ReceiverHandle} {op : RecvOp W} {R' : Receiver T W}
    (inOrder : InOrder m ((.idle handle : Receiver T W).cell .channel))
    (reading : (.idle handle : Receiver T W).Reading m)
    (receives : op ≠ .drop ∧ op ≠ .cancel ∧ ∀ waker, op ≠ .recvTimeout waker)
    (begun : Receiver.Begun .channel m handle op m' R') :
    InOrder m' (R'.cell .channel) ∧ R'.Reading m' ∧ R'.receiving = true := by
  obtain ⟨notDrop, notCancel, notTimeout⟩ := receives
  induction begun with
  | poll => exact ⟨inOrder.keep ⟨rfl, rfl, rfl, rfl, rfl, rfl, rfl⟩ rfl rfl, trivial, rfl⟩
  | read isRead =>
      rcases isRead with ⟨rfl, rfl⟩ | ⟨waker, rfl, rfl⟩ | ⟨waker, rfl, rfl⟩
      · exact ⟨inOrder.keep ⟨rfl, rfl, rfl, rfl, rfl, rfl, rfl⟩ rfl rfl, trivial, rfl⟩
      · exact ⟨inOrder.keep ⟨rfl, rfl, rfl, rfl, rfl, rfl, rfl⟩ rfl rfl, trivial, rfl⟩
      · exact (notTimeout waker rfl).elim
  | cancel => exact (notCancel rfl).elim
  | drop => exact (notDrop rfl).elim
  | @detached _ next _ remains =>
      have reported := inOrder.reportEnd (inOrder.empty reading.2 rfl)
      cases next with
      | connected => exact (remains rfl).elim
      | _ => exact ⟨reported, reading, rfl⟩
  | leave leaves => rcases leaves with rfl | rfl <;> contradiction

/-- A receiving call reports the end only with every published value received,
and lets go of the channel only at its end. -/
theorem Receiver.finishRead_inOrder {call : ReceiveCall W} {pc : ReadPc T W} {result : PollResult T}
    (receives : (reading call pc).receiving = true) (noPanic : result ≠ .panic)
    (inOrder : InOrder m {}) (reads : ReadPc.Read m result) :
    InOrder (finishRead .channel m call result).1
        ((finishRead .channel m call result).2.cell .channel) ∧
      (finishRead .channel m call result).2.Reading (finishRead .channel m call result).1 ∧
        (finishRead .channel m call result).2.receiving = true := by
  cases result with
  | panic => exact (noPanic rfl).elim
  | pending =>
      cases call with
      | poll | tryRecv | recvFirst | recv =>
          exact ⟨inOrder.keep ⟨rfl, rfl, rfl, rfl, rfl, rfl, rfl⟩ rfl rfl, trivial, rfl⟩
      | _ => simp [receiving] at receives
  | ready value dropped =>
      obtain ⟨empty, drained⟩ := reads
      have delivered := inOrder.deliver empty
      have left (isDropped : dropped = true) : (m.deliver value).Drained := by
        cases value <;> exact drained isDropped
      cases call with
      | poll | tryRecv | recv =>
          cases dropped with
          | true =>
              exact ⟨delivered.keep ⟨rfl, rfl, rfl, rfl, rfl, rfl, rfl⟩ rfl rfl, left rfl, rfl⟩
          | false => exact ⟨delivered, trivial, rfl⟩
      | recvFirst waker =>
          rcases dropped with _ | _ <;> rcases value with _ | value
          · exact ⟨inOrder.keep ⟨rfl, rfl, rfl, rfl, rfl, rfl, rfl⟩ rfl rfl, trivial, rfl⟩
          · exact ⟨delivered, trivial, rfl⟩
          · exact ⟨delivered.keep ⟨rfl, rfl, rfl, rfl, rfl, rfl, rfl⟩ rfl rfl, left rfl, rfl⟩
          · exact ⟨delivered.keep ⟨rfl, rfl, rfl, rfl, rfl, rfl, rfl⟩ rfl rfl, left rfl, rfl⟩
      | _ => simp [receiving] at receives

theorem Receiver.receiving_cancels {call : ReceiveCall W} {pc : ReadPc T W}
    (receives : (reading call pc).receiving = true) : call.cancels = false := by
  cases call <;> simp_all [receiving, ReceiveCall.cancels]

theorem InOrder.receiver_step {r r' : Receiver T W} (locks : Locks m S r.sections)
    (points : r.Local) (cell : Cell m C (r.cell .channel)) (isOpen : m.receiverClosed = false)
    (receives : r.receiving = true) (reading : r.Reading m)
    (inOrder : InOrder m (r.cell .channel)) (step : r.Stepped .channel spurious m m' r') :
    InOrder m' (r'.cell .channel) ∧ r'.Reading m' ∧ r'.receiving = true := by
  induction step with
  | read inner =>
      have cancels := Receiver.receiving_cancels receives
      have kept := inOrder.read_step spurious locks (cancels ▸ points) cell isOpen reading
      rw [inner] at kept
      exact ⟨kept.1, kept.2, receives⟩
  | @readEnd _ _ result _ inner =>
      have cancels := Receiver.receiving_cancels receives
      have kept := inOrder.read_step spurious locks (cancels ▸ points) cell isOpen reading
      have noPanic := points.step spurious locks
      rw [inner] at kept noPanic
      refine Receiver.finishRead_inOrder receives noPanic ?_ kept.2
      refine kept.1.keep ⟨rfl, rfl, rfl, rfl, rfl, rfl, rfl⟩ ?_ ?_ <;> cases result <;> rfl
  | unpark isParked =>
      rcases isParked with rfl | rfl
      · exact ⟨inOrder.keep ⟨rfl, rfl, rfl, rfl, rfl, rfl, rfl⟩ rfl rfl, trivial, rfl⟩
      · simp [Receiver.receiving] at receives
  | drop | dropEnd => simp [Receiver.receiving] at receives
  | @free next =>
      cases next with
      | connected => exact (points rfl).elim
      | _ => exact ⟨inOrder.keep ⟨rfl, rfl, rfl, rfl, rfl, rfl, rfl⟩ rfl rfl, reading, rfl⟩

theorem Receiver.Noted.writing {result : PollResult T} (noted : Noted m result m') :
    m'.writing = m.writing ∧ m'.value = m.value ∧ m'.receiverClosed = m.receiverClosed := by
  induction noted <;> exact ⟨rfl, rfl, rfl⟩

theorem Receiver.finishRead_writing {call : ReceiveCall W} {result : PollResult T} :
    (finishRead .channel m call result).1.writing = m.writing ∧
      (finishRead .channel m call result).1.value = m.value ∧
        (finishRead .channel m call result).1.receiverClosed = m.receiverClosed :=
  (finishRead_noted .channel m call result).writing

theorem ReadPc.writing {pc : ReadPc T W} (spurious : Bool) (points : pc.Local false)
    (locks : Locks m S pc.sections) (cell : Cell m C (pc.cell false))
    (stores : C.stored = true → S.live = true ∧ S.unpublished = true) :
    (pc.step spurious m).1.writing = m.writing ∧
      (C.stored = true → (pc.step spurious m).1.value = m.value) ∧
        (pc.step spurious m).1.receiverClosed = m.receiverClosed := by
  have taking := locks.taking
  have live := locks.live
  have unpublished := locks.unpublished
  have claims := cell.receiver_claims
  cases pc with
  | takeClosed | take =>
      refine ⟨rfl, ?_, rfl⟩
      intro stored
      simp_all [ReadPc.cell, sections]
  | cancel => simp [Local] at points
  | lock | register | release =>
      simp only [step]
      split_ifs <;> exact ⟨rfl, fun _ => rfl, rfl⟩
  | _ => exact ⟨rfl, fun _ => rfl, rfl⟩

/-- A step of the receiving side leaves a write that is in progress alone. -/
theorem Receiver.Stepped.writing {r r' : Receiver T W} (points : r.Local)
    (locks : Locks m S r.sections) (cell : Cell m C (r.cell .channel))
    (receives : r.receiving = true)
    (stores : C.stored = true → S.live = true ∧ S.unpublished = true)
    (step : r.Stepped .channel spurious m m' r') :
    m'.writing = m.writing ∧ (C.stored = true → m'.value = m.value) ∧
      m'.receiverClosed = m.receiverClosed := by
  induction step with
  | read inner =>
      have cancels := receiving_cancels receives
      have kept := ReadPc.writing spurious (cancels ▸ points) locks cell stores
      rw [inner] at kept
      exact kept
  | readEnd inner =>
      have cancels := receiving_cancels receives
      have kept := ReadPc.writing spurious (cancels ▸ points) locks cell stores
      rw [inner] at kept
      obtain ⟨writing, value, isOpen⟩ := finishRead_writing
      exact ⟨writing.trans kept.1, fun stored => value.trans (kept.2.1 stored),
        isOpen.trans kept.2.2⟩
  | drop | dropEnd => simp [receiving] at receives
  | _ => exact ⟨rfl, fun _ => rfl, rfl⟩

end Sides

/-! ## Runs -/

/-- The labels of a receiving side that is never dropped or cancelled and never
receives with a timeout. -/
def Label.receiving : Label T W → Bool
  | recv .drop | recv .cancel | recv (.recvTimeout _) => false
  | _ => true

namespace System

variable {s s' : System T W} {label : Label T W}

/-- The receiver is there, and the histories agree with the cell. -/
structure Delivers (s : System T W) : Prop where
  owned : Owned .channel s
  isOpen : s.world.receiverClosed = false
  receiving : s.receiver.receiving = true
  inOrder : InOrder s.world (s.receiver.cell .channel)
  writing : s.sender.Writing s.world
  reading : s.receiver.Reading s.world

theorem Delivers.init : Delivers (System.init : System T W) := by
  refine ⟨Owned.init, rfl, rfl, ?_, rfl, trivial⟩
  simp [inOrder_iff, System.init, World.pending, World.announced]

/-- A receiver that is there leaves nothing to be taken on weak evidence. -/
theorem Delivers.keepsValue (sound : Sound .channel s) (delivers : Delivers s) :
    s.keepsValue .channel label = true := by
  have active : (s.sender.sections .channel).live = true → s.world.state.active = true := by
    intro isLive
    rw [sound.locks.active_eq, sound.locks.live isLive, delivers.isOpen]
    rfl
  have receives := delivers.receiving
  cases label with
  | sender spurious =>
      simp only [System.keepsValue]
      split
      · rename_i isRelease
        rw [isRelease] at active
        simp [active rfl]
      · rename_i isUnlock
        rw [isUnlock] at active
        simp [active rfl]
      · rename_i pc isDrop
        rw [isDrop] at active
        cases pc <;> simp_all [DropPc.closing, Sender.sections, DropPc.sendSections, DropPc.ended,
          Kind.finalize]
      · rfl
  | receiver spurious =>
      simp only [System.keepsValue]
      split
      · rename_i isDrop
        simp [isDrop, Receiver.receiving] at receives
      · rfl
  | _ => rfl

theorem Delivers.step (sound : Sound .channel s) (delivers : Delivers s)
    (receives : label.receiving = true) (step : System.step .channel s label = some s') :
    Delivers s' := by
  have after := delivers.owned.step sound (delivers.keepsValue sound) step
  obtain ⟨owned, isOpen, receiving, inOrder, writing, reading⟩ := delivers
  rcases System.step_cases step with ⟨_, _, _, isIdle, same, begun⟩ |
    ⟨_, op, rfl, isIdle, same, begun⟩ | ⟨spurious, rfl, same, stepped⟩ | ⟨_, rfl, same, stepped⟩ |
    ⟨_, _, parked, same, world, reads⟩
  · rw [isIdle] at writing
    obtain ⟨kept, stays⟩ := inOrder.sender_begun writing begun
    obtain ⟨state, sender, receiver⟩ := (Sender.begun_follows (isIdle ▸ sound.sender) begun).1
    refine ⟨after, receiver.trans isOpen, same ▸ receiving, same ▸ kept, stays, same ▸ ?_⟩
    exact reading.keep fun drained => ⟨sender.trans drained.1, state ▸ drained.2⟩
  · rw [isIdle] at inOrder reading
    obtain ⟨kept, learnt, remains⟩ := inOrder.receiver_begun reading
      (by cases op <;> simp_all [Label.receiving]) begun
    have closed := (Receiver.begun_follows begun).1.2.2
    exact ⟨after, closed.trans isOpen, remains, kept, same ▸ writing.begun begun, learnt⟩
  · obtain ⟨kept, stays⟩ := inOrder.sender_step sound.locks sound.sender owned.cell
      (Receiver.cell_taken _) isOpen writing stepped
    have closed := stepped.sends.receiverClosed
    refine ⟨after, closed.trans isOpen, same ▸ receiving, same ▸ kept, stays, ?_⟩
    rw [same]
    exact reading.keep fun drained => drained.sender_step sound.locks stepped
  · obtain ⟨kept, learnt, remains⟩ := inOrder.receiver_step sound.locks sound.receiver owned.cell
      isOpen receiving reading stepped
    obtain ⟨sameWriting, sameValue, sameClosed⟩ := stepped.writing sound.receiver sound.locks
      owned.cell receiving (Sender.cell_stored _)
    refine ⟨after, sameClosed.trans isOpen, remains, kept, ?_, learnt⟩
    rw [same]
    exact writing.keep sameWriting sameValue
  · simp [parked, Receiver.receiving] at receiving

/-- The values received are, in order, all those published but possibly the
last; a write that has published returns `Ok`, and one that has not returns its
value; the end is reported only with every published value received. -/
structure DeliversInOrder (s : System T W) : Prop where
  in_order : ∃ rest : List T, s.world.published = s.world.received ++ rest ∧ rest.length ≤ 1
  settled : ∀ write ∈ s.world.writes, Settled write
  published : s.world.published = s.world.announced
  at_end : ∀ report ∈ s.world.ends, report.1 = report.2

end System

theorem InOrder.delivers {s : System T W} {D : RecvCell} (inOrder : InOrder s.world D) :
    s.DeliversInOrder := by
  obtain ⟨order, announced, settled, ends⟩ := inOrder
  refine ⟨⟨_, order, ?_⟩, settled, announced, ends⟩
  unfold World.pending
  split_ifs
  · cases s.world.value <;> simp
  · simp

/-- A receiver that is never dropped or cancelled receives the values of a
`channel()` in order, none lost and none twice. -/
theorem channel_deliversInOrder {s : System T W}
    (reachable : ReachableUnder (System.step .channel) (fun _ label => label.receiving = true)
      System.init s) : s.DeliversInOrder := by
  have sound {state : System T W} (earlier : ReachableUnder (System.step .channel)
      (fun _ label => label.receiving = true) System.init state) : System.Sound .channel state :=
    System.Sound.of_reachable earlier.reachable
  have delivers : s.Delivers := by
    refine reachable.invariant_with (fun _ => sound) System.Delivers.init ?_
    intro state label next sound delivers receives step
    exact delivers.step sound receives step
  exact delivers.inOrder.delivers

theorem channel_deliversInOrder_of_two :
    ∃ s : System Nat Nat, s.world.published = [7, 8] ∧ s.world.received = [7] ∧
      s.DeliversInOrder := by
  obtain ⟨s, ran, published, received⟩ : ∃ s ∈ runFrom
      (guarded (System.step .channel) fun _ (label : Label Nat Nat) => label.receiving) System.init
      [.send (.trySend 7), .sender false, .sender false, .sender true, .sender false,
        .sender false, .recv .tryRecv, .receiver false, .receiver false, .receiver false,
        .receiver false, .send (.trySend 8), .sender false, .sender false, .sender false],
      s.world.published = [7, 8] ∧ s.world.received = [7] := by
    decide
  exact ⟨s, published, received, channel_deliversInOrder (reachableUnder_of_runFrom ran)⟩

end Suspend.Channel
