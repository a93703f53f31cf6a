import Suspend.Channel.Locks

/-!
# Who owns the value cell

A sender owns the cell until it publishes, the reader while it holds the read
lock over a value, and whoever finds the channel inactive and loaded owns it as
the last side.  `Cell` says so of every program point.  Three accesses take the
cell on weaker evidence: a drop whose second look at the state word finds the
other side gone, a write without a waker that finds the same, and the write of
a `Sender`'s flush, which takes its value back and leaves `STATE_LOADED` set.
-/

namespace Suspend.Channel

open Suspend.Transition

universe u v

variable {T : Type u} {W : Type v}

/-! ## Sections of the value cell -/

/-- How the sending side stands to the value cell. -/
structure SendCell where
  /-- A value is stored and not yet published. -/
  stored : Bool := false
  /-- The channel has been found inactive with a value, which is this side's. -/
  claims : Bool := false
  /-- The only value of this side has been published. -/
  posted : Bool := false
  /-- The value will be taken back by a side that goes on. -/
  stays : Bool := false
  ended : Bool := false
  deriving DecidableEq, Repr

/-- How the receiving side stands to the value cell. -/
structure RecvCell where
  /-- The value has been taken and is still announced. -/
  taken : Bool := false
  /-- The channel has been found inactive with a value, which is this side's. -/
  claims : Bool := false
  /-- The value is no longer announced. -/
  swapped : Bool := false
  /-- A value has been taken from an empty cell. -/
  missing : Bool := false
  /-- No value has been found yet. -/
  waiting : Bool := false
  ended : Bool := false
  deriving DecidableEq, Repr

namespace WritePc

/-- `polled` says that the write is the first poll of a flush. -/
def cell (finalize polled : Bool) : WritePc T W → SendCell
  | load .. | sync _ | store .. => {}
  | fast .. | lock .. => { stored := true }
  | clearWaker found _ =>
      { claims := found.loaded && !found.rlock && !found.active, posted := finalize
        stays := found.loaded && !found.rlock && !found.active && polled && !finalize }
  | takeBack => { claims := true, ended := finalize && !polled, stays := polled && !finalize }
  | wake _ => { posted := finalize, ended := finalize && !polled }
  | takeReader .. | storeWaker .. | release .. | unlockRead _ | unlock _ =>
      { posted := finalize }

def cellAfter (finalize polled : Bool) : WriteResult T → SendCell
  | .ok => { posted := finalize, ended := finalize && !polled }
  | .err _ dropped => { posted := finalize && !dropped, ended := (finalize || !polled) && dropped }
  | .panic => {}

end WritePc

namespace FlushPc

def cell (finalize : Bool) : FlushPc W → SendCell
  | reset | takeBack => { claims := true, posted := finalize }
  | _ => { posted := finalize }

def cellAfter (finalize : Bool) : PollResult T → SendCell
  | .ready _ dropped => { posted := finalize && !dropped, ended := finalize && dropped }
  | _ => { posted := finalize }

end FlushPc

namespace ReadPc

def cell (finalize : Bool) : ReadPc T W → RecvCell
  | swap _ => { claims := true }
  | takeClosed => { claims := true, swapped := true }
  | take _ => {}
  | takeFlush _ value | unlock _ value _ => { taken := true, missing := value.isNone }
  | wakeFlush _ value _ => { missing := value.isNone }
  | _ => { waiting := finalize }

def cellAfter (finalize cancels : Bool) : PollResult T → RecvCell
  | .ready value dropped =>
      { waiting := finalize && value.isNone && !dropped, ended := cancels }
  | _ => { waiting := finalize, ended := cancels }

end ReadPc

namespace DropPc

/-- The last side is to clear a value. -/
def claims : DropPc W → Bool
  | clearValue _ | clearLast => true
  | wake _ last => last
  | _ => false

/-- `STATE_ACTIVE` is about to be cleared. -/
def closing : DropPc W → Bool
  | unlock _ | close => true
  | _ => false

end DropPc

/-! ## The invariant -/

/-- The cell is full exactly when somebody is entitled to a value in it. -/
@[mk_iff]
structure Cell (m : World T W) (C : SendCell) (D : RecvCell) : Prop where
  announced : m.state.loaded = true → D.taken = false →
    m.value.isSome = true ∨ C.ended = true ∧ D.ended = true
  stored : C.stored = true → m.value.isSome = true
  taken : D.taken = true → m.value.isSome = false
  sender_claims : C.claims = true → m.value.isSome = true ∧ m.receiverClosed = true
  receiver_claims : D.claims = true →
    m.value.isSome = true ∧ m.senderClosed = true ∧ C.claims = false
  accounted : m.value.isSome = true →
    m.state.loaded = true ∨ C.stored = true ∨ C.claims = true ∨ D.claims = true
  posted : C.posted = true → m.state.loaded = true ∨ D.waiting = false
  stays : C.stays = false
  swapped : D.swapped = true → m.state.loaded = false ∧ m.senderClosed = true
  missing : D.missing = false
  clean : m.valueMisuse = false

variable {m m' : World T W} {S : SendSections} {R : RecvSections} {C : SendCell} {D : RecvCell}

theorem Cell.write_step {finalize polled : Bool} {pc : WritePc T W} (spurious : Bool)
    (locks : Locks m (pc.sections (finalize && !polled)) R) (points : pc.Local polled)
    (ends : D.ended = R.ended) (takes : D.taken = true → R.taking = true)
    (release : ∀ prev waker readWaker, pc = .release prev waker readWaker → finalize = false →
      m.state ≠ prev.set { loaded := true, wlock := true, wake := true } →
      ¬ (m.state.loaded = true ∧ m.state.rlock = false ∧ m.state.active = false))
    (unlock : ∀ readWaker, pc = .unlock readWaker → m.state.active = true ∨ m.state.loaded = true)
    (cell : Cell m (pc.cell finalize polled) D) :
    Cell (pc.step finalize spurious m).1
      ((pc.step finalize spurious m).2.elim (WritePc.cell finalize polled)
        (WritePc.cellAfter finalize polled)) D := by
  have active := locks.active_eq
  have live := locks.live
  have unpublished := locks.unpublished
  have taking := locks.taking
  have ended := locks.receiver_ended
  cases pc with
  | store | unlock | takeBack =>
      simp only [WritePc.step, WritePc.finish]
      rw [cell_iff] at cell ⊢
      grind -linarith -ring -order -lia -ac [Outcome.elim, WritePc.cell,
          WritePc.cellAfter, WritePc.sections, WritePc.Local, State.unset, World.access,
          World.fetchAnd, World.closeSender, World.storeValue, World.loadValue]
  | fast | lock | release =>
      simp only [WritePc.step, WritePc.locked, WritePc.finish]
      rw [cell_iff] at cell ⊢
      grind -linarith -ring -order -lia -ac [Outcome.elim, WritePc.cell,
          WritePc.cellAfter, WritePc.sections, WritePc.Local, State.set, State.unset, World.access,
          World.fetchOr, World.store, World.publish, World.closeSender]
  | _ =>
      simp only [WritePc.step, WritePc.locked]
      rw [cell_iff] at cell ⊢
      grind -linarith -ring -order -lia -ac [Outcome.elim, WritePc.cell,
          WritePc.cellAfter, WritePc.Local, State.unset, World.access, World.fetchAnd,
          World.loadWaker, World.storeWaker, World.wake]

theorem Cell.flush_step {finalize : Bool} {pc : FlushPc W} (spurious : Bool)
    (locks : Locks m (pc.sections finalize) R) (points : pc.Local finalize)
    (ends : D.ended = R.ended) (takes : D.taken = true → R.taking = true)
    (waits : finalize = true → R.registering = true → D.waiting = true)
    (cell : Cell m (pc.cell finalize) D) :
    Cell (pc.step finalize spurious m).1
      ((pc.step finalize spurious m).2.elim (FlushPc.cell finalize)
        (FlushPc.cellAfter finalize)) D := by
  have active := locks.active_eq
  have rlock := locks.rlock_eq
  have live := locks.live
  have drained := locks.drained
  have taking := locks.taking
  have ended := locks.receiver_ended
  have senderEnded := locks.sender_ended
  cases pc with
  | load | unlock | lock =>
      simp only [FlushPc.step, FlushPc.loop]
      rw [cell_iff] at cell ⊢
      grind -linarith -ring -order -lia -ac [Outcome.elim, FlushPc.cell,
          FlushPc.cellAfter, FlushPc.sections, FlushPc.Local, State.set, State.unset, World.access,
          World.fetchAnd, World.store]
  | finish | reset | takeBack =>
      simp only [FlushPc.step]
      rw [cell_iff] at cell ⊢
      grind -linarith -ring -order -lia -ac [Outcome.elim, FlushPc.cell,
          FlushPc.cellAfter, FlushPc.sections, FlushPc.Local, State.unset, State.done, World.access,
          World.fetchAnd, World.store, World.closeSender, World.loadValue]
  | _ =>
      simp only [FlushPc.step]
      rw [cell_iff] at cell ⊢
      grind -linarith -ring -order -lia -ac [Outcome.elim, FlushPc.cell,
          FlushPc.cellAfter, FlushPc.Local, State.set, State.unset, World.access, World.store,
          World.loadWaker, World.storeWaker, World.wake]

/-- Neither the value cell nor what announces it has changed. -/
structure World.SameCell (m m' : World T W) : Prop where
  value : m'.value = m.value
  misuse : m'.valueMisuse = m.valueMisuse
  loaded : m'.state.loaded = m.state.loaded
  sender : m'.senderClosed = m.senderClosed
  receiver : m.receiverClosed = true → m'.receiverClosed = true

/-- Receiving sections that may follow `D` while the cell stays as it is. -/
@[mk_iff]
structure RecvCell.Follows (m : World T W) (D D' : RecvCell) : Prop where
  taken : D'.taken = D.taken
  claims : D'.claims = true → D.claims = true ∨ m.state.loaded = true ∧ m.senderClosed = true ∧
    m.receiverClosed = false ∧ D.taken = false ∧ D.ended = false
  claimed : D.claims = true → D'.claims = true
  swapped : D'.swapped = true → D.swapped = true
  missing : D'.missing = true → D.missing = true
  waiting : D'.waiting = true → D.waiting = true ∨ D.missing = true
  ended : D.ended = true → D'.ended = true

theorem Cell.receiver_keep {D' : RecvCell} (cell : Cell m C D) (same : m.SameCell m')
    (follows : D.Follows m D') : Cell m' C D' := by
  cases cell
  cases same
  cases follows
  constructor <;> grind -linarith -ring -order -lia -ac

/-- The head of the loop claims what it has found announced by a sender gone. -/
theorem ReadPc.loop_cell {finalize cancels : Bool} {prev : State} {waker : Option W}
    {orCancel : Bool}
    (loaded : prev.loaded = m.state.loaded)
    (closed : prev.active = false → m.senderClosed = true ∧ m.receiverClosed = false) :
    RecvCell.Follows m { waiting := finalize }
      ((ReadPc.loop (T := T) prev waker orCancel).elim (ReadPc.cell finalize)
        (ReadPc.cellAfter finalize cancels)) := by
  cases waker <;> simp only [ReadPc.loop] <;> split_ifs <;>
    simp_all [RecvCell.follows_iff, Outcome.elim, ReadPc.cell, ReadPc.cellAfter]

theorem Cell.read_step {finalize cancels : Bool} {pc : ReadPc T W} (spurious : Bool)
    (locks : Locks m S pc.sections) (points : pc.Local cancels)
    (stores : C.stored = true → S.live = true ∧ S.unpublished = true)
    (cell : Cell m C (pc.cell finalize)) :
    Cell (pc.step spurious m).1 C
      ((pc.step spurious m).2.elim (ReadPc.cell finalize)
        (ReadPc.cellAfter finalize cancels)) := by
  have active := locks.active_eq
  have ended := locks.receiver_ended
  have closed : pc.sections.ended = false → m.state.active = false →
      m.senderClosed = true ∧ m.receiverClosed = false := by
    intro running inactive
    cases receiver : m.receiverClosed with
    | true => simp_all
    | false => simp_all
  have looks (prev : State) (waker : Option W) (orCancel : Bool)
      (seen : prev.loaded = m.state.loaded ∧ prev.active = m.state.active)
      (running : pc.sections.ended = false) :
      RecvCell.Follows m { waiting := finalize }
        ((ReadPc.loop (T := T) prev waker orCancel).elim (ReadPc.cell finalize)
        (ReadPc.cellAfter finalize cancels)) :=
    ReadPc.loop_cell seen.1 fun inactive => closed running (seen.2 ▸ inactive)
  cases pc with
  | load waker orCancel =>
      exact cell.receiver_keep ⟨rfl, rfl, rfl, rfl, id⟩ (looks _ _ _ ⟨rfl, rfl⟩ rfl)
  | lock prev waker orCancel =>
      simp only [ReadPc.step]
      split_ifs with exchanged
      · refine cell.receiver_keep ⟨rfl, rfl, ?_, rfl, id⟩ ?_
        · simp [World.store, exchanged.1]
        · simp [RecvCell.follows_iff, Outcome.elim, ReadPc.cell]
      · exact cell.receiver_keep ⟨rfl, rfl, rfl, rfl, id⟩ (looks _ _ _ ⟨rfl, rfl⟩ rfl)
  | cancel prev waker =>
      simp only [ReadPc.step]
      split_ifs with exchanged
      · refine cell.receiver_keep ⟨rfl, rfl, ?_, rfl, fun _ => rfl⟩ ?_
        · simp [World.store, World.closeReceiver, exchanged]
        · simp [RecvCell.follows_iff, Outcome.elim, ReadPc.cell, ReadPc.cellAfter]
      · exact cell.receiver_keep ⟨rfl, rfl, rfl, rfl, id⟩ (looks _ _ _ ⟨rfl, rfl⟩ rfl)
  | register prev waker orCancel =>
      by_cases exchanged : m.state = prev ∧ !spurious
      · simp only [ReadPc.step, if_pos exchanged, ReadPc.registered]
        refine cell.receiver_keep ⟨rfl, rfl, ?_, rfl, id⟩ ?_
        · simp [World.store, exchanged.1]
        · cases waker <;> split_ifs <;> simp [RecvCell.follows_iff, Outcome.elim, ReadPc.cell]
      · simp only [ReadPc.step, if_neg exchanged]
        exact cell.receiver_keep ⟨rfl, rfl, rfl, rfl, id⟩ (looks _ _ _ ⟨rfl, rfl⟩ rfl)
  | unlockOwn orCancel =>
      exact cell.receiver_keep ⟨rfl, rfl, by simp [ReadPc.step, World.fetchAnd], rfl, id⟩
        (looks _ _ _ (by simp) rfl)
  | unlockBare orCancel =>
      have same : m.SameCell (m.fetchAnd { rlock := true, wlock := true, wake := true }) :=
        ⟨rfl, rfl, by simp [World.fetchAnd], rfl, id⟩
      simp only [ReadPc.step]
      split_ifs
      · refine cell.receiver_keep same ?_
        simp [RecvCell.follows_iff, Outcome.elim, ReadPc.cell, ReadPc.cellAfter]
      · exact cell.receiver_keep same (looks _ _ _ (by simp) rfl)
  | release prev waker orCancel =>
      simp only [ReadPc.step]
      split_ifs with exchanged
      · refine cell.receiver_keep ⟨rfl, rfl, ?_, rfl, id⟩ ?_
        · simp [World.store, exchanged]
        · simp [RecvCell.follows_iff, Outcome.elim, ReadPc.cell, ReadPc.cellAfter]
      · refine cell.receiver_keep ⟨rfl, rfl, rfl, rfl, id⟩ ?_
        simp [RecvCell.follows_iff, Outcome.elim, ReadPc.cell]
  | take prev =>
      have full : m.value.isSome = true := by
        simpa [ReadPc.cell] using cell.announced (locks.taking rfl) rfl
      obtain ⟨value, isValue⟩ := Option.isSome_iff_exists.mp full
      have live := locks.live
      have unpublished := locks.unpublished
      have taking := locks.taking
      simp only [ReadPc.step, isValue]
      rw [cell_iff] at cell ⊢
      grind -linarith -ring -order -lia -ac [Outcome.elim, ReadPc.cell,
          ReadPc.sections, World.access, World.receive, World.loadValue]
  | swap | takeClosed | unlock =>
      have swaps := locks.swaps
      have live := locks.live
      have taking := locks.taking
      simp only [ReadPc.step]
      rw [cell_iff] at cell ⊢
      grind -linarith -ring -order -lia -ac [Outcome.elim, ReadPc.cell,
          ReadPc.cellAfter, ReadPc.sections, ReadPc.Local, ReadPc.unlockMask, State.unset,
          World.access, World.fetchAnd, World.store, World.receive, World.loadValue]
  | clearPrev prev waker orCancel =>
      refine cell.receiver_keep ⟨rfl, rfl, rfl, rfl, id⟩ ?_
      cases waker <;> simp [RecvCell.follows_iff, ReadPc.step, ReadPc.registered,
        Outcome.elim, ReadPc.cell]
  | takeFlush | wakeFlush | wake | storeWaker | clearOwn =>
      refine cell.receiver_keep ⟨rfl, rfl, rfl, rfl, id⟩ ?_
      simp +contextual [RecvCell.follows_iff, ReadPc.step, Outcome.elim, ReadPc.cell,
        ReadPc.cellAfter]

theorem Cell.sender_drop_step {live : Bool} {pc : DropPc W}
    (locks : Locks m (pc.sendSections live) R)
    (ends : D.ended = R.ended) (takes : D.taken = true → R.taking = true)
    (closes : pc.closing = true → m.state.active = true ∨ m.state.loaded = true)
    (cell : Cell m { claims := pc.claims, ended := pc.ended } D) :
    Cell (pc.step true m).1
      ((pc.step true m).2.elim (fun pc => { claims := pc.claims, ended := pc.ended })
        fun _ => { ended := true }) D := by
  have active := locks.active_eq
  have ended := locks.receiver_ended
  have senderEnded := locks.sender_ended
  cases pc with
  | wake waker last =>
      cases cell
      cases last <;> simp only [DropPc.step, DropPc.finish] <;>
        simp_all [cell_iff, Outcome.elim, DropPc.claims, DropPc.ended, World.wake]
  | unlock waker =>
      cases waker <;> simp only [DropPc.step, DropPc.finish, DropPc.closeSide] <;>
        rw [cell_iff] at cell ⊢ <;>
        grind -linarith -ring -order -lia -ac [Outcome.elim, DropPc.claims, DropPc.ended,
            DropPc.closing, DropPc.sendSections, State.unset, World.access, World.fetchAnd,
            World.closeSender]
  | _ =>
      simp only [DropPc.step, DropPc.finish, DropPc.closeSide]
      rw [cell_iff] at cell ⊢
      grind -linarith -ring -order -lia -ac [Outcome.elim, DropPc.claims, DropPc.ended,
        DropPc.closing, DropPc.sendSections, State.set, State.unset, World.access, World.fetchOr,
        World.fetchAnd, World.closeSender, World.clearValue, World.loadValue, World.loadWaker]

theorem Cell.receiver_drop_step {pc : DropPc W} (locks : Locks m S pc.recvSections)
    (ends : C.ended = S.ended)
    (stores : C.stored = true → S.live = true ∧ S.unpublished = true)
    (closes : pc.closing = true → m.state.active = true ∨ m.state.loaded = true)
    (cell : Cell m C { claims := pc.claims, ended := pc.ended }) :
    Cell (pc.step false m).1 C
      ((pc.step false m).2.elim (fun pc => { claims := pc.claims, ended := pc.ended })
        fun _ => { ended := true }) := by
  have active := locks.active_eq
  have ended := locks.receiver_ended
  have senderEnded := locks.sender_ended
  have live := locks.live
  have unpublished := locks.unpublished
  cases pc with
  | wake waker last =>
      cases cell
      cases last <;> simp only [DropPc.step, DropPc.finish] <;>
        simp_all [cell_iff, Outcome.elim, DropPc.claims, DropPc.ended, World.wake]
  | unlock waker =>
      cases waker <;> simp only [DropPc.step, DropPc.finish, DropPc.closeSide] <;>
        rw [cell_iff] at cell ⊢ <;>
        grind -linarith -ring -order -lia -ac [Outcome.elim, DropPc.claims, DropPc.ended,
            DropPc.closing, DropPc.recvSections, State.unset, World.access, World.fetchAnd,
            World.closeReceiver]
  | _ =>
      simp only [DropPc.step, DropPc.finish, DropPc.closeSide]
      rw [cell_iff] at cell ⊢
      grind -linarith -ring -order -lia -ac [Outcome.elim, DropPc.claims, DropPc.ended,
        DropPc.closing, DropPc.recvSections, State.set, State.unset, World.access, World.fetchOr,
        World.fetchAnd, World.closeReceiver, World.clearValue, World.loadValue, World.loadWaker]

/-! ## The two sides -/

namespace Sender

def cell (kind : Kind) : Sender T W → SendCell
  | idle handle =>
      match handle with
      | .flush owner channel none =>
          { posted := kind.finalize && channel, ended := !(owner || channel) }
      | handle => { ended := (handleSections kind handle).ended }
  | trySending pc => pc.cell kind.finalize false
  | flushWriting _ _ pc => pc.cell kind.finalize true
  | flushing _ _ pc => pc.cell kind.finalize
  | dropping pc => { claims := pc.claims, ended := pc.ended }
  | freeing _ => { ended := true }

end Sender

namespace Receiver

def cell (kind : Kind) : Receiver T W → RecvCell
  | idle .connected | parked _ => { waiting := kind.finalize }
  | idle .detached | idle .gone | freeing _ => { ended := true }
  | reading _ pc => pc.cell kind.finalize
  | dropping _ pc => { claims := pc.claims, ended := pc.ended }

end Receiver

section Sides

variable {kind : Kind} {spurious : Bool}

theorem Sender.cell_ended (S : Sender T W) : (S.cell kind).ended = (S.sections kind).ended := by
  cases S with
  | idle handle => cases handle with
    | flush owner channel value => cases value <;> rfl
    | _ => rfl
  | trySending pc => cases pc <;> simp [cell, sections, WritePc.cell, WritePc.sections]
  | flushWriting owner waker pc =>
      cases pc <;> simp [cell, sections, WritePc.cell, WritePc.sections]
  | flushing owner waker pc => cases pc <;> rfl
  | dropping pc => rfl
  | freeing next => rfl

theorem Sender.cell_stored (S : Sender T W) (stored : (S.cell kind).stored = true) :
    (S.sections kind).live = true ∧ (S.sections kind).unpublished = true := by
  cases S with
  | idle handle => cases handle with
    | flush owner channel value => cases value <;> simp [cell] at stored
    | _ => simp [cell] at stored
  | trySending pc | flushWriting _ _ pc =>
      cases pc <;> simp_all [cell, sections, WritePc.cell, WritePc.sections]
  | flushing owner waker pc => cases pc <;> simp [cell, FlushPc.cell] at stored
  | _ => simp [cell] at stored

theorem Receiver.cell_ended (R : Receiver T W) : (R.cell kind).ended = R.sections.ended := by
  cases R with
  | idle handle => cases handle <;> rfl
  | reading call pc => cases pc <;> rfl
  | _ => rfl

theorem Receiver.cell_taken (R : Receiver T W) (taken : (R.cell kind).taken = true) :
    R.sections.taking = true := by
  cases R with
  | idle handle => cases handle <;> simp [cell] at taken
  | reading call pc => cases pc <;> simp_all [cell, sections, ReadPc.cell, ReadPc.sections]
  | _ => simp [cell] at taken

theorem Receiver.cell_waiting (R : Receiver T W) (finalizes : kind.finalize = true)
    (registering : R.sections.registering = true) :
    (R.cell kind).waiting = true := by
  cases R with
  | idle handle => cases handle <;> simp [sections] at registering
  | reading call pc => cases pc <;> simp_all [cell, sections, ReadPc.cell, ReadPc.sections]
  | _ => simp [sections, DropPc.recvSections] at registering

/-- Sending sections that may follow `C` while the cell stays as it is. -/
@[mk_iff]
structure SendCell.Follows (C C' : SendCell) : Prop where
  stored : C'.stored = C.stored
  claims : C'.claims = C.claims
  posted : C'.posted = true → C.posted = true
  stays : C'.stays = true → C.stays = true
  ended : C.ended = true → C'.ended = true

theorem Cell.sender_keep {C' : SendCell} (cell : Cell m C D) (same : m.SameCell m')
    (follows : C.Follows C') : Cell m' C' D := by
  cases cell
  cases same
  cases follows
  constructor <;> grind -linarith -ring -order -lia -ac

theorem Sender.begun_cell {handle : SenderHandle T} {op : SendOp T W} {S' : Sender T W}
    (points : (idle handle : Sender T W).Local kind) (begun : Begun kind m handle op m' S') :
    m.SameCell m' ∧ ((idle handle : Sender T W).cell kind).Follows (S'.cell kind) := by
  refine ⟨?_, ?_⟩
  · induction begun <;> exact ⟨rfl, rfl, rfl, rfl, id⟩
  · induction begun with
    | @dropBorrow owner channel value isChannel =>
        cases owner <;> cases channel <;> cases value <;>
          simp_all [SendCell.follows_iff, cell, handleSections, Local]
    | @dropFlush owner value _ | @dropFlushDone owner value _ =>
        cases value <;> simp [SendCell.follows_iff, cell, handleSections, DropPc.claims,
          DropPc.ended]
    | _ =>
        simp [SendCell.follows_iff, cell, handleSections, WritePc.cell, FlushPc.cell, DropPc.claims,
          DropPc.ended]

theorem Sender.Noted.sameCell (noted : Noted m m') : m.SameCell m' := by
  induction noted <;> exact ⟨rfl, rfl, rfl, rfl, id⟩

/-- The end of a write touches the histories only. -/
theorem World.SameCell.ended {result : WriteResult T} (same : (m.endWrite result).SameCell m') :
    m.SameCell m' :=
  ⟨same.value, same.misuse, same.loaded, same.sender, same.receiver⟩

theorem Sender.finishTrySend_cell {result : WriteResult T} (noPanic : result ≠ .panic) :
    m.SameCell (finishTrySend kind (m.endWrite result) result).1 ∧
      (WritePc.cellAfter kind.finalize false result).Follows
        ((finishTrySend kind (m.endWrite result) result).2.cell kind) := by
  refine ⟨(finishTrySend_noted kind _ result).sameCell.ended, ?_⟩
  rcases result with _ | ⟨value, _ | _⟩ | _ <;> cases kind <;>
    simp_all [SendCell.follows_iff, finishTrySend, WritePc.cellAfter, cell, handleSections,
      Kind.finalize]

theorem Sender.finishFlushWrite_cell {owner : Bool} {waker : W} {result : WriteResult T}
    (noPanic : result ≠ .panic) :
    m.SameCell (finishFlushWrite kind owner waker (m.endWrite result) result).1 ∧
      (WritePc.cellAfter kind.finalize true result).Follows
        ((finishFlushWrite kind owner waker (m.endWrite result) result).2.cell kind) := by
  refine ⟨(finishFlushWrite_noted kind owner waker _ result).sameCell.ended, ?_⟩
  rcases result with _ | ⟨value, _ | _⟩ | _ <;> cases kind <;>
    simp_all [SendCell.follows_iff, finishFlushWrite, WritePc.cellAfter, cell, Kind.finalize]

theorem Sender.finishFlush_cell {owner : Bool} {waker : W} {result : PollResult T}
    (noPanic : result ≠ .panic) :
    m.SameCell (finishFlush kind owner waker m result).1 ∧
      (FlushPc.cellAfter kind.finalize result).Follows
        ((finishFlush kind owner waker m result).2.cell kind) := by
  refine ⟨(finishFlush_noted kind owner waker m result).sameCell, ?_⟩
  rcases result with _ | ⟨value, _ | _⟩ | _ <;> cases kind <;>
    simp_all [SendCell.follows_iff, finishFlush, FlushPc.cellAfter, cell, Kind.finalize]

theorem Receiver.begun_cell {handle : ReceiverHandle} {op : RecvOp W} {R' : Receiver T W}
    (begun : Begun kind m handle op m' R') :
    m.SameCell m' ∧ ((idle handle : Receiver T W).cell kind).Follows m (R'.cell kind) := by
  refine ⟨?_, ?_⟩
  · induction begun <;> exact ⟨rfl, rfl, rfl, rfl, id⟩
  · induction begun with
    | @detached _ next answers remains => cases next <;> simp_all [RecvCell.follows_iff, cell]
    | _ => simp [RecvCell.follows_iff, cell, ReadPc.cell, DropPc.claims, DropPc.ended]

theorem Receiver.Noted.sameCell {result : PollResult T} (noted : Noted m result m') :
    m.SameCell m' := by
  induction noted <;> exact ⟨rfl, rfl, rfl, rfl, id⟩

theorem Receiver.Left.cell_follows {call : ReceiveCall W} {result : PollResult T}
    {r : Receiver T W} (left : Left kind m call result m' r) :
    (ReadPc.cellAfter kind.finalize call.cancels result).Follows m (r.cell kind) := by
  induction left with
  | @idle _ next gone waits =>
      cases next with
      | connected =>
          rcases waits rfl with rfl | rfl | rfl
          · cases result <;> simp_all [RecvCell.follows_iff, cell, ReadPc.cellAfter, Kind.finalize]
          · simp_all [RecvCell.follows_iff, cell, ReadPc.cellAfter]
          · simp_all [RecvCell.follows_iff, cell, ReadPc.cellAfter]
      | detached | gone => cases result <;> simp_all [RecvCell.follows_iff, cell, ReadPc.cellAfter]
  | parked blocks pending =>
      subst pending
      rcases blocks with rfl | rfl <;> exact ⟨rfl, .inl, id, id, id, .inl, id⟩
  | reading first empty =>
      rcases first with ⟨rfl, rfl⟩ | ⟨rfl, rfl⟩ <;> rcases empty with rfl | rfl <;>
        simp [RecvCell.follows_iff, cell, ReadPc.cell, ReadPc.cellAfter, ReceiveCall.cancels]
  | freeing finished closed =>
      subst closed
      simp [RecvCell.follows_iff, cell, ReadPc.cellAfter]
  | dropping uncancelled finished =>
      rw [uncancelled]
      cases result <;>
        simp [RecvCell.follows_iff, cell, ReadPc.cellAfter, DropPc.claims, DropPc.ended]

theorem Receiver.finishRead_cell {call : ReceiveCall W} {result : PollResult T} :
    m.SameCell (finishRead kind m call result).1 ∧
      (ReadPc.cellAfter kind.finalize call.cancels result).Follows m
        ((finishRead kind m call result).2.cell kind) :=
  ⟨(finishRead_noted kind m call result).sameCell,
    (finishRead_left kind m call result).cell_follows⟩

/-- A step of the sending side keeps the cell, if it is not one of the three
that take it on weaker evidence. -/
theorem Cell.sender_step {S S' : Sender T W} (locks : Locks m (S.sections kind) R)
    (points : S.Local kind) (ends : D.ended = R.ended) (takes : D.taken = true → R.taking = true)
    (waits : kind.finalize = true → R.registering = true → D.waiting = true)
    (release : ∀ owner waker prev own readWaker,
      S = .flushWriting owner waker (.release prev own readWaker) → kind.finalize = false →
      m.state ≠ prev.set { loaded := true, wlock := true, wake := true } →
      ¬ (m.state.loaded = true ∧ m.state.rlock = false ∧ m.state.active = false))
    (unlock : ∀ readWaker, S = .trySending (.unlock readWaker) →
      m.state.active = true ∨ m.state.loaded = true)
    (closes : ∀ pc, S = .dropping pc → pc.closing = true →
      m.state.active = true ∨ m.state.loaded = true)
    (cell : Cell m (S.cell kind) D) (step : S.Stepped kind spurious m m' S') :
    Cell m' (S'.cell kind) D := by
  induction step with
  | trySend inner =>
      have kept := Cell.write_step spurious ((Bool.and_true kind.finalize).symm ▸ locks) points
        ends takes (fun _ _ _ isRelease => by subst isRelease; cases points.2.2)
        (fun _ isUnlock => unlock _ (by rw [isUnlock])) cell
      rw [inner] at kept
      exact kept
  | trySendEnd inner =>
      have kept := Cell.write_step spurious ((Bool.and_true kind.finalize).symm ▸ locks) points
        ends takes (fun _ _ _ isRelease => by subst isRelease; cases points.2.2)
        (fun _ isUnlock => unlock _ (by rw [isUnlock])) cell
      have noPanic := points.step kind.finalize spurious locks
      rw [inner] at kept noPanic
      obtain ⟨same, follows⟩ := Sender.finishTrySend_cell noPanic
      exact kept.sender_keep same follows
  | flushWrite inner =>
      have kept := Cell.write_step spurious ((Bool.and_false kind.finalize).symm ▸ locks) points.1
        ends takes (fun _ _ _ isRelease => release _ _ _ _ _ (by rw [isRelease]))
        (fun _ isUnlock => by subst isUnlock; cases points.1) cell
      rw [inner] at kept
      exact kept
  | flushWriteEnd inner =>
      have kept := Cell.write_step spurious ((Bool.and_false kind.finalize).symm ▸ locks) points.1
        ends takes (fun _ _ _ isRelease => release _ _ _ _ _ (by rw [isRelease]))
        (fun _ isUnlock => by subst isUnlock; cases points.1) cell
      have noPanic := points.1.step kind.finalize spurious locks
      rw [inner] at kept noPanic
      obtain ⟨same, follows⟩ := Sender.finishFlushWrite_cell noPanic
      exact kept.sender_keep same follows
  | flush inner =>
      have kept := Cell.flush_step spurious locks points.1 ends takes waits cell
      rw [inner] at kept
      exact kept
  | flushEnd inner =>
      have kept := Cell.flush_step spurious locks points.1 ends takes waits cell
      have noPanic := points.1.step spurious m
      rw [inner] at kept noPanic
      obtain ⟨same, follows⟩ := Sender.finishFlush_cell noPanic
      exact kept.sender_keep same follows
  | drop inner =>
      have kept := Cell.sender_drop_step locks ends takes (closes _ rfl) cell
      rw [inner] at kept
      exact kept
  | @dropEnd _ last _ inner =>
      have kept := Cell.sender_drop_step locks ends takes (closes _ rfl) cell
      rw [inner] at kept
      cases last <;> exact kept.sender_keep ⟨rfl, rfl, rfl, rfl, id⟩ ⟨rfl, rfl, id, id, id⟩
  | @free next =>
      refine cell.sender_keep ⟨rfl, rfl, rfl, rfl, id⟩ ?_
      rcases next with _ | _ | ⟨owner, channel, _ | value⟩ | _ <;>
        simp_all [SendCell.follows_iff, Sender.cell, Sender.handleSections, Sender.Local]

/-- A step of the receiving side keeps the cell, if it does not close the
channel over an empty one that is closed already. -/
theorem Cell.receiver_step {R R' : Receiver T W} (locks : Locks m S R.sections)
    (points : R.Local) (ends : C.ended = S.ended)
    (stores : C.stored = true → S.live = true ∧ S.unpublished = true)
    (closes : ∀ next pc, R = .dropping next pc → pc.closing = true →
      m.state.active = true ∨ m.state.loaded = true)
    (cell : Cell m C (R.cell kind)) (step : R.Stepped kind spurious m m' R') :
    Cell m' C (R'.cell kind) := by
  induction step with
  | read inner =>
      have kept := Cell.read_step spurious locks points stores cell
      rw [inner] at kept
      exact kept
  | readEnd inner =>
      have kept := Cell.read_step spurious locks points stores cell
      rw [inner] at kept
      obtain ⟨same, follows⟩ := Receiver.finishRead_cell
      exact kept.receiver_keep same follows
  | unpark => 
      refine cell.receiver_keep ⟨rfl, rfl, rfl, rfl, id⟩ ?_
      simp [RecvCell.follows_iff, Receiver.beginPoll, Receiver.cell, ReadPc.cell]
  | drop inner =>
      have kept := Cell.receiver_drop_step locks ends stores (closes _ _ rfl) cell
      rw [inner] at kept
      exact kept
  | @dropEnd handle _ last _ inner =>
      have kept := Cell.receiver_drop_step locks ends stores (closes _ _ rfl) cell
      rw [inner] at kept
      refine kept.receiver_keep ⟨rfl, rfl, rfl, rfl, id⟩ ?_
      cases last <;> cases handle <;> first | exact (points rfl).elim | 
        (simp [RecvCell.follows_iff, Receiver.finishDrop, Receiver.cell, Outcome.elim])
  | @free next =>
      refine cell.receiver_keep ⟨rfl, rfl, rfl, rfl, id⟩ ?_
      cases next <;> first | exact (points rfl).elim | (simp [RecvCell.follows_iff, Receiver.cell])

end Sides

end Suspend.Channel
