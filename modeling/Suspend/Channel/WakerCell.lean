import Suspend.Channel.Locks

/-!
# Who owns the waker cell

The waker lock would make the cell one side's at a time.  Three accesses let go
of it or take it too early: a flush whose exchange expects `STATE_WLOCK` joins
the side that has it, the write of a `Sender`'s flush that takes its value back
leaves the lock and `STATE_WAKE` set over an empty cell, and the last poll of a
`SendOnce`'s flush clears `STATE_ACTIVE` on behalf of a sender that has yet to
be dropped.
-/

namespace Suspend.Channel

open Suspend.Transition

universe u v

variable {T : Type u} {W : Type v}

/-! ## Sections of the waker cell -/

/-- How a side stands to the waker cell. -/
structure Hold where
  /-- The cell is this side's, and it counts on finding it full, or empty. -/
  wants : Option Bool := none
  /-- The side has found the channel closed, and will free it. -/
  last : Bool := false
  /-- The channel has been found active, and a value is to be published. -/
  writing : Bool := false
  /-- The lock will be left set by a side that goes on. -/
  stays : Bool := false
  ended : Bool := false
  deriving DecidableEq, Repr

namespace WritePc

def hold (finalize polled : Bool) : WritePc T W → Hold
  | load .. | sync _ => {}
  | store .. | fast .. | lock .. => { writing := true }
  | takeReader .. | release .. => { wants := some true }
  | storeWaker .. | unlockRead _ | unlock _ => { wants := some false }
  | clearWaker found _ =>
      { wants := some true
        stays := found.loaded && !found.rlock && !found.active && !finalize }
  | takeBack =>
      { wants := if polled then some false else none, stays := polled && !finalize
        ended := finalize && !polled }
  | wake _ => { ended := finalize && !polled }

def holdAfter (finalize polled : Bool) : WriteResult T → Hold
  | .ok => { ended := finalize && !polled }
  | .err _ dropped => { ended := (finalize || !polled) && dropped }
  | .panic => {}

end WritePc

namespace FlushPc

def hold : FlushPc W → Hold
  | clearPrev prev _ | release prev _ => { wants := some true, stays := prev.wlock }
  | storeWaker prev _ => { wants := some false, stays := prev.wlock }
  | clearOwn _ => { wants := some true }
  | unlock _ => { wants := some false }
  | _ => {}

def holdAfter (finalize : Bool) : PollResult T → Hold
  | .ready _ dropped => { ended := finalize && dropped }
  | _ => {}

end FlushPc

namespace ReadPc

def hold : ReadPc T W → Hold
  | take prev => { wants := if prev.wlock then none else some prev.wake }
  | unlock prev _ _ => { wants := if prev.wlock then none else some false }
  | takeFlush .. | clearPrev .. | release .. | clearOwn _ => { wants := some true }
  | storeWaker .. | unlockOwn _ | unlockBare _ => { wants := some false }
  | _ => {}

def holdAfter (cancels : Bool) : Hold := { ended := cancels }

end ReadPc

namespace DropPc

def hold : DropPc W → Hold
  | lock | close => {}
  | clearValue prev =>
      { wants := if prev.wake then some true else none, last := true, ended := true }
  | clearWaker => { wants := some true, last := true, ended := true }
  | takeWaker | clearOwn => { wants := some true }
  | unlock _ => { wants := some false }
  | wake .. | clearLast => { ended := true }

end DropPc

/-! ## The invariant -/

/-- The cell is one side's at most, and otherwise full exactly when
`STATE_WAKE` is set. -/
@[mk_iff]
structure Held (m : World T W) (C D : Hold) : Prop where
  exclusive : C.wants = none ∨ D.wants = none
  sender : ∀ full, C.wants = some full → m.waker.isSome = full
  receiver : ∀ full, D.wants = some full → m.waker.isSome = full
  sender_locked : C.wants ≠ none → m.state.wlock = true
  receiver_locked : D.wants ≠ none → m.state.wlock = true
  locked : m.state.wlock = true →
    C.wants ≠ none ∨ D.wants ≠ none ∨ C.ended = true ∧ D.ended = true
  full : C.wants = none → D.wants = none → m.state.wake = true →
    m.waker.isSome = true ∨ C.ended = true ∧ D.ended = true
  empty : C.wants = none → D.wants = none → m.state.wake = false →
    m.waker.isSome = false ∨ m.receiverClosed = true ∧ C.writing = false
  sender_last : C.last = true → m.receiverClosed = true ∧ m.senderClosed = false
  receiver_last : D.last = true → m.senderClosed = true ∧ m.receiverClosed = false
  sender_closed : m.senderClosed = true → C.ended = true
  receiver_closed : m.receiverClosed = true → D.ended = true
  stays : C.stays = false
  clean : m.wakerMisuse = false

/-- A side at its end holds the cell only to clear it as the last one. -/
def Hold.Rests (C : Hold) : Prop :=
  C.ended = true → C.wants = none ∨ C.last = true

variable {m m' : World T W} {S : SendSections} {R : RecvSections} {C D : Hold}

/-- Neither the waker cell nor its bits have changed. -/
structure World.SameWaker (m m' : World T W) : Prop where
  waker : m'.waker = m.waker
  misuse : m'.wakerMisuse = m.wakerMisuse
  wlock : m'.state.wlock = m.state.wlock
  wake : m'.state.wake = m.state.wake
  sender : m'.senderClosed = m.senderClosed
  receiver : m'.receiverClosed = m.receiverClosed

/-- Sections that may follow `C` while the cell stays as it is. -/
@[mk_iff]
structure Hold.Follows (C C' : Hold) : Prop where
  wants : C'.wants = C.wants
  last : C'.last = C.last
  writing : C'.writing = true → C.writing = true
  stays : C'.stays = true → C.stays = true
  ended : C.ended = true → C'.ended = true

theorem Held.sender_keep {C' : Hold} (held : Held m C D) (same : m.SameWaker m')
    (follows : C.Follows C') : Held m' C' D := by
  cases held
  cases same
  cases follows
  constructor <;> grind -linarith -ring -order -lia -ac

theorem Held.receiver_keep {D' : Hold} (held : Held m C D) (same : m.SameWaker m')
    (follows : D.Follows D') : Held m' C D' := by
  cases held
  cases same
  cases follows
  constructor <;> grind -linarith -ring -order -lia -ac

/-- A reader gives up the lock over an empty cell. -/
theorem Held.read_unlock (held : Held m C D) (wants : D = { wants := some false }) :
    Held (m.fetchAnd { rlock := true, wlock := true, wake := true }) C {} := by
  rw [held_iff] at held ⊢
  grind -linarith -ring -order -lia -ac [State.unset, World.access, World.fetchAnd]

theorem Held.write_step {finalize polled last : Bool} {pc : WritePc T W} (spurious : Bool)
    (locks : Locks m (pc.sections last) R) (points : pc.Local polled)
    (release : ∀ prev waker readWaker, pc = .release prev waker readWaker → finalize = false →
      m.state ≠ prev.set { loaded := true, wlock := true, wake := true } →
      ¬ (m.state.loaded = true ∧ m.state.rlock = false ∧ m.state.active = false))
    (held : Held m (pc.hold finalize polled) D) :
    Held (pc.step finalize spurious m).1
      ((pc.step finalize spurious m).2.elim (WritePc.hold finalize polled)
        (WritePc.holdAfter finalize polled)) D := by
  have active := locks.active_eq
  have closed := locks.sender_closed
  have isNone : m.waker.isNone = !m.waker.isSome := by cases m.waker <;> rfl
  cases pc with
  | load | sync | store =>
      simp only [WritePc.step]
      rw [held_iff] at held ⊢
      grind -linarith -ring -order -lia -ac [Outcome.elim, WritePc.hold,
          WritePc.holdAfter, World.access, World.storeValue]
  | fast | lock =>
      simp only [WritePc.step, WritePc.locked, WritePc.finish]
      rw [held_iff] at held ⊢
      grind -linarith -ring -order -lia -ac [Outcome.elim, WritePc.hold,
          WritePc.holdAfter, WritePc.Local, State.set, State.unset, World.access, World.fetchOr,
          World.store, World.publish, World.closeSender, Hold.Rests]
  | takeReader | storeWaker | clearWaker =>
      simp only [WritePc.step, WritePc.locked]
      rw [held_iff] at held ⊢
      grind -linarith -ring -order -lia -ac [Outcome.elim, WritePc.hold,
          WritePc.holdAfter, WritePc.Local, World.access, World.loadWaker, World.storeWaker]
  | release prev waker readWaker =>
      by_cases published : m.state = prev.set { loaded := true, wlock := true, wake := true }
      · simp only [WritePc.step, if_pos published, WritePc.finish]
        rw [held_iff] at held ⊢
        grind -linarith -ring -order -lia -ac [Outcome.elim, WritePc.hold, WritePc.holdAfter,
          WritePc.Local, State.set, World.access, World.store]
      · simp only [WritePc.step, if_neg published]
        rw [held_iff] at held ⊢
        grind -linarith -ring -order -lia -ac [Outcome.elim, WritePc.hold, WritePc.Local,
          State.set, World.access]
  | unlockRead | unlock =>
      simp only [WritePc.step, WritePc.finish]
      rw [held_iff] at held ⊢
      grind -linarith -ring -order -lia -ac [Outcome.elim, WritePc.hold,
          WritePc.holdAfter, WritePc.Local, State.set, State.unset, World.access, World.fetchAnd,
          World.store, World.closeSender]
  | takeBack | wake =>
      simp only [WritePc.step]
      rw [held_iff] at held ⊢
      grind -linarith -ring -order -lia -ac [Outcome.elim, WritePc.hold,
          WritePc.holdAfter, WritePc.sections, World.access, World.loadValue, World.wake]

theorem Held.flush_step {finalize : Bool} {pc : FlushPc W} (spurious : Bool)
    (locks : Locks m (pc.sections finalize) R) (points : pc.Local finalize) (rests : D.Rests)
    (lock : ∀ prev waker, pc = .lock prev waker → prev.wlock = true → spurious = false →
      m.state ≠ prev)
    (finish : pc = .finish → finalize = true → m.state.active = false)
    (held : Held m pc.hold D) :
    Held (pc.step finalize spurious m).1
      ((pc.step finalize spurious m).2.elim FlushPc.hold (FlushPc.holdAfter finalize)) D := by
  have active := locks.active_eq
  have closed := locks.sender_closed
  have isNone : m.waker.isNone = !m.waker.isSome := by cases m.waker <;> rfl
  cases pc with
  | load | unlock | lock =>
      simp only [FlushPc.step, FlushPc.loop]
      rw [held_iff] at held ⊢
      grind -linarith -ring -order -lia -ac [Outcome.elim, FlushPc.hold,
          FlushPc.holdAfter, FlushPc.Local, State.set, State.unset, World.access, World.fetchAnd,
          World.store]
  | finish | reset | takeBack =>
      simp only [FlushPc.step]
      rw [held_iff] at held ⊢
      grind -linarith -ring -order -lia -ac [Outcome.elim, FlushPc.hold,
          FlushPc.holdAfter, FlushPc.sections, FlushPc.Local, State.unset, State.done, World.access,
          World.fetchAnd, World.store, World.closeSender, World.loadValue, Hold.Rests]
  | release prev waker =>
      by_cases registered : m.state = prev.set { wlock := true, wake := true } ∧ !spurious
      · simp only [FlushPc.step, if_pos registered]
        rw [held_iff] at held ⊢
        grind -linarith -ring -order -lia -ac [Outcome.elim, FlushPc.hold, FlushPc.holdAfter,
          FlushPc.Local, State.set, World.access, World.store]
      · simp only [FlushPc.step, if_neg registered]
        rw [held_iff] at held ⊢
        grind -linarith -ring -order -lia -ac [Outcome.elim, FlushPc.hold, FlushPc.Local,
          State.set, World.access]
  | _ =>
      simp only [FlushPc.step]
      rw [held_iff] at held ⊢
      grind -linarith -ring -order -lia -ac [Outcome.elim, FlushPc.hold,
          FlushPc.holdAfter, FlushPc.Local, State.set, State.unset, World.access, World.store,
          World.loadWaker, World.storeWaker, World.wake]

theorem ReadPc.loop_hold (cancels : Bool) (prev : State) (waker : Option W) (orCancel : Bool) :
    ({} : Hold).Follows ((ReadPc.loop (T := T) prev waker orCancel).elim ReadPc.hold
      fun _ => ReadPc.holdAfter cancels) := by
  cases waker <;> simp only [ReadPc.loop] <;> split_ifs <;>
    simp [Hold.follows_iff, Outcome.elim, ReadPc.hold, ReadPc.holdAfter]

theorem Held.read_step {cancels : Bool} {pc : ReadPc T W} (spurious : Bool)
    (locks : Locks m S pc.sections) (points : pc.Local cancels) (held : Held m C pc.hold) :
    Held (pc.step spurious m).1 C
      ((pc.step spurious m).2.elim ReadPc.hold fun _ => ReadPc.holdAfter cancels) := by
  have looks (prev : State) (waker : Option W) (orCancel : Bool) :=
    ReadPc.loop_hold (T := T) cancels prev waker orCancel
  have same : m.SameWaker m.access := ⟨rfl, rfl, rfl, rfl, rfl, rfl⟩
  have isNone : m.waker.isNone = !m.waker.isSome := by cases m.waker <;> rfl
  cases pc with
  | load waker orCancel => exact held.receiver_keep same (looks m.state waker orCancel)
  | lock prev waker orCancel =>
      by_cases exchanged : m.state = prev ∧ !spurious
      · simp only [ReadPc.step, if_pos exchanged]
        obtain rfl := exchanged.1
        rw [held_iff] at held ⊢
        grind -linarith -ring -order -lia -ac [Outcome.elim, ReadPc.hold, State.set,
            World.access, World.store]
      · simp only [ReadPc.step, if_neg exchanged]
        exact held.receiver_keep same (looks m.state waker orCancel)
  | cancel prev waker =>
      by_cases exchanged : m.state = prev
      · simp only [ReadPc.step, if_pos exchanged]
        subst exchanged
        rw [held_iff] at held ⊢
        grind -linarith -ring -order -lia -ac [Outcome.elim, ReadPc.hold,
            ReadPc.holdAfter, ReadPc.Local, State.unset, World.access, World.store,
            World.closeReceiver]
      · simp only [ReadPc.step, if_neg exchanged]
        exact held.receiver_keep same (looks m.state waker true)
  | register prev waker orCancel =>
      by_cases exchanged : m.state = prev ∧ !spurious
      · simp only [ReadPc.step, if_pos exchanged, ReadPc.registered]
        obtain rfl := exchanged.1
        rw [held_iff] at held ⊢
        grind -linarith -ring -order -lia -ac [Outcome.elim, ReadPc.hold,
            ReadPc.Local, State.set, World.access, World.store]
      · simp only [ReadPc.step, if_neg exchanged]
        exact held.receiver_keep same (looks m.state waker orCancel)
  | unlockOwn orCancel =>
      have unlocked := held.read_unlock rfl
      exact unlocked.receiver_keep ⟨rfl, rfl, rfl, rfl, rfl, rfl⟩ (looks _ none orCancel)
  | unlockBare orCancel =>
      have unlocked := held.read_unlock rfl
      simp only [ReadPc.step]
      split_ifs
      · exact unlocked.receiver_keep ⟨rfl, rfl, rfl, rfl, rfl, rfl⟩
          ⟨rfl, rfl, id, id, fun ended => by cases ended⟩
      · exact unlocked.receiver_keep ⟨rfl, rfl, rfl, rfl, rfl, rfl⟩ (looks _ none orCancel)
  | swap prev =>
      obtain ⟨_, rfl, _, _⟩ := locks.swaps prev rfl
      simp only [ReadPc.step]
      rw [if_pos trivial]
      refine held.receiver_keep ?_ ⟨rfl, rfl, id, id, id⟩
      constructor <;> simp [World.store, World.access]
  | takeClosed =>
      exact held.receiver_keep ⟨rfl, rfl, rfl, rfl, rfl, rfl⟩
        ⟨rfl, rfl, id, id, fun ended => by cases ended⟩
  | wakeFlush | wake =>
      exact held.receiver_keep ⟨rfl, rfl, rfl, rfl, rfl, rfl⟩
        ⟨rfl, rfl, id, id, fun ended => by cases ended⟩
  | take prev =>
      cases flushes : !prev.wlock && prev.wake <;> simp only [ReadPc.step, flushes] <;>
        rw [held_iff] at held ⊢ <;>
        grind -linarith -ring -order -lia -ac [Outcome.elim, ReadPc.hold, ReadPc.Local,
          World.access, World.receive, World.loadValue]
  | takeFlush | unlock =>
      simp only [ReadPc.step]
      rw [held_iff] at held ⊢
      grind -linarith -ring -order -lia -ac [Outcome.elim, ReadPc.hold,
          ReadPc.holdAfter, ReadPc.Local, ReadPc.unlockMask, State.unset, World.access,
          World.fetchAnd, World.receive, World.loadValue, World.loadWaker]
  | release prev waker orCancel =>
      by_cases registered : m.state = prev.set { rlock := true, wlock := true, wake := true }
      · simp only [ReadPc.step, if_pos registered]
        rw [held_iff] at held ⊢
        grind -linarith -ring -order -lia -ac [Outcome.elim, ReadPc.hold, ReadPc.holdAfter,
          ReadPc.Local, State.set, World.access, World.store]
      · simp only [ReadPc.step, if_neg registered]
        rw [held_iff] at held ⊢
        grind -linarith -ring -order -lia -ac [Outcome.elim, ReadPc.hold, ReadPc.Local,
          World.access]
  | clearPrev | storeWaker | clearOwn =>
      simp only [ReadPc.step, ReadPc.registered]
      rw [held_iff] at held ⊢
      grind -linarith -ring -order -lia -ac [Outcome.elim, ReadPc.hold,
          ReadPc.holdAfter, ReadPc.Local, State.set, World.access, World.store, World.loadWaker,
          World.storeWaker]

theorem Held.sender_drop_step {live : Bool} {pc : DropPc W}
    (locks : Locks m (pc.sendSections live) R) (rests : D.Rests) (held : Held m pc.hold D) :
    Held (pc.step true m).1 ((pc.step true m).2.elim DropPc.hold fun _ => { ended := true }) D := by
  have active := locks.active_eq
  have isNone : m.waker.isNone = !m.waker.isSome := by cases m.waker <;> rfl
  cases pc with
  | wake waker last =>
      cases held
      cases last <;> simp only [DropPc.step, DropPc.finish] <;>
        simp_all [held_iff, Outcome.elim, DropPc.hold, World.wake]
  | unlock waker =>
      cases waker <;> simp only [DropPc.step, DropPc.finish, DropPc.closeSide] <;>
        rw [held_iff] at held ⊢ <;>
        grind -linarith -ring -order -lia -ac [Outcome.elim, DropPc.hold,
          State.unset, World.access, World.fetchAnd, World.closeSender]
  | _ =>
      simp only [DropPc.step, DropPc.finish, DropPc.closeSide]
      rw [held_iff] at held ⊢
      grind -linarith -ring -order -lia -ac [Outcome.elim, DropPc.hold, Hold.Rests,
          State.set, State.unset, World.access, World.fetchOr, World.fetchAnd, World.closeSender,
          World.clearValue, World.loadValue, World.loadWaker]

theorem Held.receiver_drop_step {pc : DropPc W} (locks : Locks m S pc.recvSections)
    (rests : C.Rests) (held : Held m C pc.hold) :
    Held (pc.step false m).1 C
      ((pc.step false m).2.elim DropPc.hold fun _ => { ended := true }) := by
  have active := locks.active_eq
  have isNone : m.waker.isNone = !m.waker.isSome := by cases m.waker <;> rfl
  cases pc with
  | wake waker last =>
      cases held
      cases last <;> simp only [DropPc.step, DropPc.finish] <;>
        simp_all [held_iff, Outcome.elim, DropPc.hold, World.wake]
  | unlock waker =>
      cases waker <;> simp only [DropPc.step, DropPc.finish, DropPc.closeSide] <;>
        rw [held_iff] at held ⊢ <;>
        grind -linarith -ring -order -lia -ac [Outcome.elim, DropPc.hold,
          State.unset, World.access, World.fetchAnd, World.closeReceiver]
  | _ =>
      simp only [DropPc.step, DropPc.finish, DropPc.closeSide]
      rw [held_iff] at held ⊢
      grind -linarith -ring -order -lia -ac [Outcome.elim, DropPc.hold, Hold.Rests,
          State.set, State.unset, World.access, World.fetchOr, World.fetchAnd, World.closeReceiver,
          World.clearValue, World.loadValue, World.loadWaker]

/-! ## The two sides -/

namespace Sender

def hold (kind : Kind) : Sender T W → Hold
  | idle handle => { ended := (handleSections kind handle).ended }
  | trySending pc => pc.hold kind.finalize false
  | flushWriting _ _ pc => pc.hold kind.finalize true
  | flushing _ _ pc => pc.hold
  | dropping pc => pc.hold
  | freeing _ => { ended := true }

theorem hold_rests (kind : Kind) (S : Sender T W) : (S.hold kind).Rests := by
  cases S with
  | trySending pc | flushWriting _ _ pc => cases pc <;> simp [hold, WritePc.hold, Hold.Rests]
  | flushing owner waker pc => cases pc <;> simp [hold, FlushPc.hold, Hold.Rests]
  | dropping pc => cases pc <;> simp [hold, DropPc.hold, Hold.Rests]
  | _ => simp [hold, Hold.Rests]

end Sender

namespace Receiver

def hold : Receiver T W → Hold
  | idle .connected | parked _ => {}
  | idle .detached | idle .gone | freeing _ => { ended := true }
  | reading _ pc => pc.hold
  | dropping _ pc => pc.hold

theorem hold_rests (r : Receiver T W) : r.hold.Rests := by
  cases r with
  | idle handle => cases handle <;> simp [hold, Hold.Rests]
  | reading call pc => cases pc <;> simp [hold, ReadPc.hold, Hold.Rests]
  | dropping next pc => cases pc <;> simp [hold, DropPc.hold, Hold.Rests]
  | _ => simp [hold, Hold.Rests]

end Receiver

section Sides

variable {kind : Kind} {spurious : Bool}

theorem Sender.begun_hold {handle : SenderHandle T} {op : SendOp T W} {S' : Sender T W}
    (begun : Begun kind m handle op m' S') :
    m.SameWaker m' ∧ ((idle handle : Sender T W).hold kind).Follows (S'.hold kind) := by
  refine ⟨?_, ?_⟩
  · induction begun <;> exact ⟨rfl, rfl, rfl, rfl, rfl, rfl⟩
  · induction begun with
    | @dropBorrow owner channel value isChannel =>
        cases owner <;> cases channel <;> simp [Hold.follows_iff, hold, handleSections]
    | _ =>
        simp [Hold.follows_iff, hold, handleSections, WritePc.hold, FlushPc.hold, DropPc.hold]

theorem Sender.Noted.sameWaker (noted : Noted m m') : m.SameWaker m' := by
  induction noted <;> exact ⟨rfl, rfl, rfl, rfl, rfl, rfl⟩

theorem World.SameWaker.ended {result : WriteResult T} (same : (m.endWrite result).SameWaker m') :
    m.SameWaker m' :=
  ⟨same.waker, same.misuse, same.wlock, same.wake, same.sender, same.receiver⟩

theorem Sender.finishTrySend_hold {result : WriteResult T} (noPanic : result ≠ .panic) :
    m.SameWaker (finishTrySend kind (m.endWrite result) result).1 ∧
      (WritePc.holdAfter kind.finalize false result).Follows
        ((finishTrySend kind (m.endWrite result) result).2.hold kind) := by
  refine ⟨(finishTrySend_noted kind _ result).sameWaker.ended, ?_⟩
  rcases result with _ | ⟨value, _ | _⟩ | _ <;> cases kind <;>
    simp_all [Hold.follows_iff, finishTrySend, WritePc.holdAfter, hold, handleSections,
      Kind.finalize]

theorem Sender.finishFlushWrite_hold {owner : Bool} {waker : W} {result : WriteResult T}
    (noPanic : result ≠ .panic) :
    m.SameWaker (finishFlushWrite kind owner waker (m.endWrite result) result).1 ∧
      (WritePc.holdAfter kind.finalize true result).Follows
        ((finishFlushWrite kind owner waker (m.endWrite result) result).2.hold kind) := by
  refine ⟨(finishFlushWrite_noted kind owner waker _ result).sameWaker.ended, ?_⟩
  rcases result with _ | ⟨value, _ | _⟩ | _ <;> cases kind <;>
    simp_all [Hold.follows_iff, finishFlushWrite, WritePc.holdAfter, hold, handleSections,
      Kind.finalize]

theorem Sender.finishFlush_hold {owner : Bool} {waker : W} {result : PollResult T}
    (noPanic : result ≠ .panic) :
    m.SameWaker (finishFlush kind owner waker m result).1 ∧
      (FlushPc.holdAfter kind.finalize result).Follows
        ((finishFlush kind owner waker m result).2.hold kind) := by
  refine ⟨(finishFlush_noted kind owner waker m result).sameWaker, ?_⟩
  rcases result with _ | ⟨value, _ | _⟩ | _ <;> cases kind <;>
    simp_all [Hold.follows_iff, finishFlush, FlushPc.holdAfter, hold, handleSections,
      Kind.finalize]

theorem Receiver.begun_hold {handle : ReceiverHandle} {op : RecvOp W} {r' : Receiver T W}
    (begun : Begun kind m handle op m' r') :
    m.SameWaker m' ∧ (idle handle : Receiver T W).hold.Follows r'.hold := by
  refine ⟨?_, ?_⟩
  · induction begun <;> exact ⟨rfl, rfl, rfl, rfl, rfl, rfl⟩
  · induction begun with
    | @detached _ next answers remains => cases next <;> simp_all [Hold.follows_iff, hold]
    | _ => simp [Hold.follows_iff, hold, ReadPc.hold, DropPc.hold]

theorem Receiver.Noted.sameWaker {result : PollResult T} (noted : Noted m result m') :
    m.SameWaker m' := by
  induction noted <;> exact ⟨rfl, rfl, rfl, rfl, rfl, rfl⟩

theorem Receiver.Left.hold_follows {call : ReceiveCall W} {result : PollResult T}
    {r : Receiver T W} (left : Left kind m call result m' r) :
    (ReadPc.holdAfter call.cancels).Follows r.hold := by
  induction left with
  | @idle _ next gone waits =>
      cases next <;> simp_all [Hold.follows_iff, hold, ReadPc.holdAfter]
  | parked blocks pending =>
      rcases blocks with rfl | rfl <;> exact ⟨rfl, rfl, id, id, id⟩
  | reading first empty =>
      rcases first with ⟨rfl, rfl⟩ | ⟨rfl, rfl⟩ <;> exact ⟨rfl, rfl, id, id, id⟩
  | freeing finished closed => exact ⟨rfl, rfl, id, id, fun _ => rfl⟩
  | dropping uncancelled finished =>
      rw [uncancelled]
      exact ⟨rfl, rfl, id, id, by rintro ⟨⟩⟩

theorem Receiver.finishRead_hold {call : ReceiveCall W} {result : PollResult T} :
    m.SameWaker (finishRead kind m call result).1 ∧
      (ReadPc.holdAfter call.cancels).Follows (finishRead kind m call result).2.hold :=
  ⟨(finishRead_noted kind m call result).sameWaker,
    (finishRead_left kind m call result).hold_follows⟩

/-- A step of the sending side keeps the cell, if it is not one of the three
that misuse the lock. -/
theorem Held.sender_step {S S' : Sender T W} (locks : Locks m (S.sections kind) R)
    (points : S.Local kind) (rests : D.Rests)
    (release : ∀ owner waker prev own readWaker,
      S = .flushWriting owner waker (.release prev own readWaker) → kind.finalize = false →
      m.state ≠ prev.set { loaded := true, wlock := true, wake := true } →
      ¬ (m.state.loaded = true ∧ m.state.rlock = false ∧ m.state.active = false))
    (lock : ∀ owner waker prev own, S = .flushing owner waker (.lock prev own) →
      prev.wlock = true → spurious = false → m.state ≠ prev)
    (finish : ∀ owner waker, S = .flushing owner waker .finish → kind.finalize = true →
      m.state.active = false)
    (held : Held m (S.hold kind) D) (step : S.Stepped kind spurious m m' S') :
    Held m' (S'.hold kind) D := by
  induction step with
  | trySend inner =>
      have kept := Held.write_step spurious locks points
        (fun _ _ _ isRelease => by subst isRelease; cases points.2.2) held
      rw [inner] at kept
      exact kept
  | trySendEnd inner =>
      have kept := Held.write_step spurious locks points
        (fun _ _ _ isRelease => by subst isRelease; cases points.2.2) held
      have noPanic := points.step kind.finalize spurious locks
      rw [inner] at kept noPanic
      obtain ⟨same, follows⟩ := Sender.finishTrySend_hold noPanic
      exact kept.sender_keep same follows
  | flushWrite inner =>
      have kept := Held.write_step spurious locks points.1
        (fun _ _ _ isRelease => release _ _ _ _ _ (by rw [isRelease])) held
      rw [inner] at kept
      exact kept
  | flushWriteEnd inner =>
      have kept := Held.write_step spurious locks points.1
        (fun _ _ _ isRelease => release _ _ _ _ _ (by rw [isRelease])) held
      have noPanic := points.1.step kind.finalize spurious locks
      rw [inner] at kept noPanic
      obtain ⟨same, follows⟩ := Sender.finishFlushWrite_hold noPanic
      exact kept.sender_keep same follows
  | flush inner =>
      have kept := Held.flush_step spurious locks points.1 rests
        (fun _ _ isLock => lock _ _ _ _ (by rw [isLock]))
        (fun isFinish => finish _ _ (by rw [isFinish])) held
      rw [inner] at kept
      exact kept
  | flushEnd inner =>
      have kept := Held.flush_step spurious locks points.1 rests
        (fun _ _ isLock => lock _ _ _ _ (by rw [isLock]))
        (fun isFinish => finish _ _ (by rw [isFinish])) held
      have noPanic := points.1.step spurious m
      rw [inner] at kept noPanic
      obtain ⟨same, follows⟩ := Sender.finishFlush_hold noPanic
      exact kept.sender_keep same follows
  | drop inner =>
      have kept := Held.sender_drop_step locks rests held
      rw [inner] at kept
      exact kept
  | @dropEnd _ last _ inner =>
      have kept := Held.sender_drop_step locks rests held
      rw [inner] at kept
      cases last <;>
        exact kept.sender_keep ⟨rfl, rfl, rfl, rfl, rfl, rfl⟩ ⟨rfl, rfl, id, id, id⟩
  | @free next =>
      refine held.sender_keep ⟨rfl, rfl, rfl, rfl, rfl, rfl⟩ ?_
      rcases next with _ | _ | ⟨owner, channel, value⟩ | _ <;>
        simp_all [Hold.follows_iff, Sender.hold, Sender.handleSections, Sender.Local]

theorem Held.receiver_step {r r' : Receiver T W} (locks : Locks m S r.sections)
    (points : r.Local) (rests : C.Rests) (held : Held m C r.hold)
    (step : r.Stepped kind spurious m m' r') : Held m' C r'.hold := by
  induction step with
  | read inner =>
      have kept := Held.read_step spurious locks points held
      rw [inner] at kept
      exact kept
  | readEnd inner =>
      have kept := Held.read_step spurious locks points held
      rw [inner] at kept
      obtain ⟨same, follows⟩ := Receiver.finishRead_hold
      exact kept.receiver_keep same follows
  | unpark => exact held.receiver_keep ⟨rfl, rfl, rfl, rfl, rfl, rfl⟩ ⟨rfl, rfl, id, id, id⟩
  | drop inner =>
      have kept := Held.receiver_drop_step locks rests held
      rw [inner] at kept
      exact kept
  | @dropEnd handle _ last _ inner =>
      have kept := Held.receiver_drop_step locks rests held
      rw [inner] at kept
      refine kept.receiver_keep ⟨rfl, rfl, rfl, rfl, rfl, rfl⟩ ?_
      cases handle with
      | connected => exact (points rfl).elim
      | _ => cases last <;> exact ⟨rfl, rfl, id, id, id⟩
  | @free next =>
      refine held.receiver_keep ⟨rfl, rfl, rfl, rfl, rfl, rfl⟩ ?_
      cases next with
      | connected => exact (points rfl).elim
      | _ => exact ⟨rfl, rfl, id, id, id⟩

end Sides

/-! ## Runs -/

namespace System

variable {kind : Kind} {s s' : System T W} {label : Label T W}

/-- The sending side neither joins another holder of the waker lock, nor leaves
the lock behind, nor closes the channel before its drop: a flush does not
succeed in an exchange that expects `STATE_WLOCK`, the first poll of a
`Sender`'s flush does not find the reader gone with its value still there, and
the last poll of a finalizing one finds `STATE_ACTIVE` cleared. -/
def keepsWaker (kind : Kind) (s : System T W) : Label T W → Bool
  | .sender spurious =>
      match s.sender with
      | .flushing _ _ (.lock prev _) => !prev.wlock || s.world.state != prev || spurious
      | .flushing _ _ .finish => !kind.finalize || !s.world.state.active
      | .flushWriting _ _ (.release prev _ _) =>
          kind.finalize ||
            s.world.state = prev.set { loaded := true, wlock := true, wake := true } ||
            !(s.world.state.loaded && !s.world.state.rlock && !s.world.state.active)
      | _ => true
  | _ => true

/-- The waker cell is in order. -/
def Registered (kind : Kind) (s : System T W) : Prop :=
  Held s.world (s.sender.hold kind) s.receiver.hold

theorem Registered.init : Registered kind (System.init : System T W) := by
  constructor <;> simp [System.init, Sender.hold, Sender.handleSections, Receiver.hold]

theorem Registered.step (sound : Sound kind s) (registered : Registered kind s)
    (keeps : s.keepsWaker kind label = true) (step : System.step kind s label = some s') :
    Registered kind s' := by
  unfold Registered at *
  rcases System.step_cases step with ⟨_, _, _, isIdle, same, begun⟩ |
    ⟨_, _, _, isIdle, same, begun⟩ | ⟨spurious, rfl, same, stepped⟩ | ⟨_, rfl, same, stepped⟩ |
    ⟨_, _, parked, same, world, reads⟩
  · rw [isIdle] at registered
    obtain ⟨kept, follows⟩ := Sender.begun_hold begun
    exact same ▸ registered.sender_keep kept follows
  · rw [isIdle] at registered
    obtain ⟨kept, follows⟩ := Receiver.begun_hold begun
    exact same ▸ registered.receiver_keep kept follows
  · rw [same]
    apply registered.sender_step sound.locks sound.sender (Receiver.hold_rests _) ?_ ?_ ?_ stepped
    · rintro owner waker prev own readWaker isRelease goesOn differs ⟨loaded, rlock, inactive⟩
      simp [keepsWaker, isRelease, goesOn, differs, loaded, rlock, inactive] at keeps
    · intro owner waker prev own isLock wlock succeeds exchanged
      simp [keepsWaker, isLock, wlock, succeeds, exchanged] at keeps
    · intro owner waker isFinish finalizes
      simpa [keepsWaker, isFinish, finalizes] using keeps
  · rw [same]
    exact registered.receiver_step sound.locks sound.receiver (Sender.hold_rests _ _) stepped
  · rw [same, world, reads]
    rw [parked] at registered
    exact registered.receiver_keep ⟨rfl, rfl, rfl, rfl, rfl, rfl⟩ ⟨rfl, rfl, id, id, id⟩

/-- The waker cell is stored only when empty and loaded or cleared only when
full, and no two sides are at it. -/
structure WakerExclusive (kind : Kind) (s : System T W) : Prop where
  clean : s.world.wakerMisuse = false
  one_side : (s.sender.hold kind).wants = none ∨ s.receiver.hold.wants = none

end System

/-- In every run in which the sending side keeps to the waker lock, each side
has the waker cell to itself. -/
theorem waker_exclusive {kind : Kind} {s : System T W}
    (reachable : ReachableUnder (System.step kind)
      (fun s label => s.keepsWaker kind label = true) System.init s) : s.WakerExclusive kind := by
  have registered : s.Registered kind := by
    apply reachable.invariant_with (fun _ earlier => System.Sound.of_reachable earlier.reachable)
      System.Registered.init
    intro state label next sound registered keeps step
    exact registered.step sound keeps step
  exact ⟨registered.clean, registered.exclusive⟩

theorem waker_exclusive_of_poll :
    ∃ s : System Nat Nat, s.world.wokenSinceReceive = [1] ∧ s.WakerExclusive .channel := by
  obtain ⟨s, ran, woken⟩ : ∃ s ∈ runFrom
      (guarded (System.step .channel) fun s (label : Label Nat Nat) => s.keepsWaker .channel label)
      System.init
      [.recv (.poll 1), .receiver false, .receiver false, .receiver false, .receiver false,
        .send (.trySend 7), .sender false, .sender false, .sender false, .sender false,
        .sender false, .sender false],
      s.world.wokenSinceReceive = [1] := by
    decide
  exact ⟨s, woken, waker_exclusive (reachableUnder_of_runFrom ran)⟩

/-- A drop of the receiver and a poll of the flush share the waker lock: the
flush expects `STATE_WLOCK` and clears the cell, which holds no waker. -/
theorem waker_cleared_empty :
    ¬ ∀ (kind : Kind) (s : System Nat Nat), ReachableUnder (System.step kind)
      (fun _ label => label.plain = true) System.init s → s.WakerExclusive kind := by
  intro always
  obtain ⟨s, ran, misused⟩ : ∃ s ∈ runFrom
      (guarded (System.step .channel) fun _ (label : Label Nat Nat) => label.plain) System.init
      [.send (.send 7), .send (.poll 1), .sender false, .sender false, .recv .drop,
        .receiver false, .sender false, .sender false, .send (.poll 1), .sender false,
        .sender false, .sender false],
      s.world.wakerMisuse = true := by
    decide
  have clean := (always .channel s (reachableUnder_of_runFrom ran)).clean
  simp [misused] at clean

end Suspend.Channel
