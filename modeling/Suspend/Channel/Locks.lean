import Suspend.Channel.Points
import Mathlib.Tactic.Common
import Mathlib.Tactic.MkIffOfInductiveProp

/-!
# The two locks of the state word

`STATE_WLOCK` guards the waker cell and `STATE_RLOCK` a value being taken, but
neither is a mutex: a `write` and a drop take the waker lock with a `fetch_or`
that may find it taken, a `flush` by an exchange whose expected value may hold
it, and a taking reader may leave it to the side that has it.  `Locks` says
which sections the two sides can be in at once, and what each finds in the
state word there.  It holds in every run of every kind of channel.
-/

namespace Suspend.Channel

open Suspend.Transition

universe u v

variable {T : Type u} {W : Type v}

/-- The state word agrees with the sections of the two sides. -/
@[mk_iff]
structure Locks (m : World T W) (S : SendSections) (R : RecvSections) : Prop where
  active_eq : m.state.active = !(m.senderClosed || m.receiverClosed)
  rlock_eq : m.state.rlock = (R.taking || R.registering)
  live : S.live = true → m.senderClosed = false
  unpublished : S.unpublished = true → m.state.loaded = false
  drained : S.drained = true → m.state.loaded = false
  taking : R.taking = true → m.state.loaded = true
  sender_ended : m.senderClosed = true → m.state.loaded = true → S.ended = true
  receiver_ended : m.receiverClosed = true →
    R.ended = true ∧ R.taking = false ∧ R.registering = false ∧ R.dropHolds = false
  sender_closed : S.closed = true → m.state.active = false
  receiver_closed : R.closed = true → m.state.active = false
  swaps : ∀ prev, R.swaps = some prev → m.receiverClosed = false ∧
    m.state = prev ∧ prev.active = false ∧ prev.loaded = true
  writeHolds : S.writeHolds = true → m.state.wlock = true ∧ m.state.wake = true ∧
    R.registering = false ∧ R.dropHolds = false ∧ R.takingLocked = false
  flushHolds : S.flushHolds = true → (m.state.wlock = true ∨ m.receiverClosed = true) ∧
    R.registering = false ∧ R.takingLocked = false ∧ (R.dropHolds = true → m.state.loaded = true)
  sender_dropHolds : S.dropHolds = true → (m.state.wlock = true ∨ m.receiverClosed = true) ∧
    R.registering = false ∧ R.takingLocked = false
  receiver_dropHolds : R.dropHolds = true →
    m.state.wlock = true ∨ m.state.loaded = true ∨ m.senderClosed = true
  registering : R.registering = true → m.state.wlock = true ∧ m.state.wake = true
  takingLocked : R.takingLocked = true → R.taking = true ∧ m.state.wlock = true
  found : S.found = some false → m.state.active = false

variable {m m' : World T W} {S S' : SendSections} {R R' : RecvSections}
variable {kind : Kind} {polled cancels : Bool}

/-! ## Steps that leave the state word alone -/

/-- Sections of the sending side that may follow `S` while the state word
stays as it is. -/
@[mk_iff]
structure SendSections.Follows (state : State) (S S' : SendSections) : Prop where
  live : S'.live = true → S.live = true
  unpublished : S'.unpublished = true → S.unpublished = true ∨ state.loaded = false
  drained : S'.drained = true → state.loaded = false
  writeHolds : S'.writeHolds = true → S.writeHolds = true
  flushHolds : S'.flushHolds = true → S.flushHolds = true
  dropHolds : S'.dropHolds = true → S.dropHolds = true
  closed : S'.closed = true → S.closed = true ∨ state.active = false
  ended : S.ended = true → S'.ended = true
  found : S'.found = some false → S.found = some false

/-- Sections of the receiving side that may follow `R` while the state word
stays as it is. -/
@[mk_iff]
structure RecvSections.Follows (state : State) (R R' : RecvSections) : Prop where
  taking : R'.taking = R.taking
  takingLocked : R'.takingLocked = R.takingLocked
  registering : R'.registering = R.registering
  dropHolds : R'.dropHolds = true → R.dropHolds = true
  closed : R'.closed = true → R.closed = true ∨ state.active = false
  ended : R.ended = true → R'.ended = true
  swaps : ∀ prev, R'.swaps = some prev → R.ended = false ∧
    state = prev ∧ prev.active = false ∧ prev.loaded = true

/-- Neither the state word nor who has closed the channel has changed. -/
def World.SameWord (m m' : World T W) : Prop :=
  m'.state = m.state ∧ m'.senderClosed = m.senderClosed ∧ m'.receiverClosed = m.receiverClosed

theorem Locks.sender_keep (locks : Locks m S R) (same : m.SameWord m')
    (follows : S.Follows m.state S') : Locks m' S' R := by
  obtain ⟨state, sender, receiver⟩ := same
  obtain ⟨h1, h2, h3, h4, h5, h6, h7, h8, h9, h10, h11, h12, h13, h14, h15, h16, h17, h18⟩ := locks
  obtain ⟨f1, f2, f3, f4, f5, f6, f7, f8, f9⟩ := follows
  constructor <;> grind -linarith -ring -order -lia -ac

theorem Locks.receiver_keep (locks : Locks m S R) (same : m.SameWord m')
    (follows : R.Follows m.state R') : Locks m' S R' := by
  obtain ⟨state, sender, receiver⟩ := same
  obtain ⟨h1, h2, h3, h4, h5, h6, h7, h8, h9, h10, h11, h12, h13, h14, h15, h16, h17, h18⟩ := locks
  obtain ⟨f1, f2, f3, f4, f5, f6, f7⟩ := follows
  constructor <;> grind -linarith -ring -order -lia -ac

/-! ## `write` -/

/-- The sections after a `write` has returned. -/
def WritePc.afterSections (last : Bool) : SendSections :=
  { live := !last, ended := last }

theorem Locks.write_step {finalize last : Bool} {pc : WritePc T W} (spurious : Bool)
    (isLast : last = (finalize && !polled)) (locks : Locks m (pc.sections last) R)
    (points : pc.Local polled) :
    Locks (pc.step finalize spurious m).1
      ((pc.step finalize spurious m).2.elim (WritePc.sections last)
        fun _ => WritePc.afterSections last) R := by
  cases pc with
  | load | sync | store | takeReader | storeWaker | clearWaker | takeBack | wake =>
      refine locks.sender_keep ⟨rfl, rfl, rfl⟩ ?_
      simp only [WritePc.step, WritePc.locked]
      rw [SendSections.follows_iff]
      grind -linarith -ring -order -lia -ac [Outcome.elim, WritePc.sections,
          WritePc.afterSections]
  | fast | lock | release | unlockRead | unlock =>
      simp only [WritePc.step, WritePc.locked, WritePc.finish]
      rw [locks_iff] at locks ⊢
      grind -linarith -ring -order -lia -ac [Outcome.elim, WritePc.sections,
          WritePc.afterSections, WritePc.Local, State.set, State.unset, World.access, World.fetchOr,
          World.fetchAnd, World.store, World.publish, World.closeSender]

/-- The locals stay right.  The exchange of `release` fails only when the value
has been touched or the reader has gone. -/
theorem WritePc.Local.step {last : Bool} {pc : WritePc T W} (finalize spurious : Bool)
    (locks : Locks m (pc.sections last) R) (points : pc.Local polled) :
    (pc.step finalize spurious m).2.elim (WritePc.Local polled) fun result => result ≠ .panic := by
  obtain ⟨-, rlock_eq, -, unpublished, -, taking, -, -, -, -, -, writeHolds, -, -, -, registering,
    -, found⟩ := locks
  cases pc with
  | store _ _ waker | lock waker =>
      cases waker <;> simp only [WritePc.step, WritePc.locked, WritePc.finish] <;> split_ifs <;>
        grind -linarith -ring -order -lia -ac [Outcome.elim, WritePc.sections, WritePc.Local]
  | takeReader _ waker =>
      cases waker <;> simp_all [WritePc.step, WritePc.locked, Outcome.elim, WritePc.Local]
  | release prev waker readWaker =>
      simp only [WritePc.sections, forall_const, Option.some.injEq] at writeHolds found
      obtain ⟨_, prevRlock, isPolled⟩ := points
      by_cases expected : m.state = prev.set { loaded := true, wlock := true, wake := true }
      · cases readWaker <;> simp [WritePc.step, WritePc.finish, Outcome.elim, expected, Local]
      · simp only [WritePc.step, expected, if_false, Outcome.elim, WritePc.Local]
        refine ⟨fun loaded rlock => ?_, isPolled⟩
        by_contra active
        apply expected
        ext <;> grind -linarith -ring -order -lia -ac [State.set]
  | unlock readWaker =>
      cases readWaker <;> simp only [WritePc.step, WritePc.finish] <;> split_ifs <;>
        simp [Outcome.elim, WritePc.Local]
  | _ =>
      simp only [WritePc.step]
      try split_ifs
      all_goals grind -linarith -ring -order -lia -ac [Outcome.elim, WritePc.sections,
          WritePc.Local]

/-! ## `flush` -/

/-- The head of the loop holds nothing and acts on what it has seen. -/
theorem FlushPc.loop_follows (finalize : Bool) (prev : State) (waker : W) :
    SendSections.Follows prev { live := !finalize }
      ((FlushPc.loop finalize prev false waker).sections finalize) := by
  simp only [FlushPc.loop]
  rw [SendSections.follows_iff]
  grind -linarith -ring -order -lia -ac [FlushPc.sections]

theorem Locks.flush_step {finalize : Bool} {pc : FlushPc W} (spurious : Bool)
    (locks : Locks m (pc.sections finalize) R) (points : pc.Local finalize) :
    Locks (pc.step finalize spurious m).1
      ((pc.step finalize spurious m).2.elim (FlushPc.sections finalize)
        fun _ => { live := !finalize }) R := by
  cases pc with
  | load waker => exact locks.sender_keep ⟨rfl, rfl, rfl⟩ (FlushPc.loop_follows _ _ _)
  | takeBack | wake | clearPrev | storeWaker | clearOwn =>
      refine locks.sender_keep ⟨rfl, rfl, rfl⟩ ?_
      simp [SendSections.follows_iff, FlushPc.step, Outcome.elim, FlushPc.sections]
  | clearLocked | resetLocked => exact points.elim
  | finish | reset | release =>
      simp only [FlushPc.step]
      rw [locks_iff] at locks ⊢
      grind -linarith -ring -order -lia -ac [Outcome.elim, FlushPc.sections,
          FlushPc.Local, State.set, State.unset, State.done, World.access, World.fetchAnd,
          World.store, World.closeSender]
  | unlock waker =>
      have unlocked : Locks (m.fetchAnd { wlock := true, wake := true })
        { live := !finalize } R := by
        rw [locks_iff] at locks ⊢
        grind -linarith -ring -order -lia -ac [FlushPc.sections, State.unset,
            World.access, World.fetchAnd]
      exact unlocked.sender_keep ⟨rfl, rfl, rfl⟩ (FlushPc.loop_follows _ _ _)
  | lock prev waker =>
      obtain ⟨active, loaded, rlock⟩ := points
      simp only [FlushPc.step]
      split_ifs with exchanged locked
      · simp only [Outcome.elim, FlushPc.loop]
        rw [locks_iff] at locks ⊢
        grind -linarith -ring -order -lia -ac [FlushPc.sections, State.set,
            World.access, World.store]
      · exact locks.sender_keep ⟨rfl, rfl, rfl⟩ (by simp [SendSections.follows_iff, Outcome.elim,
          FlushPc.sections])
      · exact locks.sender_keep ⟨rfl, rfl, rfl⟩ (FlushPc.loop_follows _ _ _)

theorem FlushPc.Local.step {finalize : Bool} {pc : FlushPc W} (spurious : Bool) (m : World T W)
    (points : pc.Local finalize) :
    (pc.step finalize spurious m).2.elim (FlushPc.Local finalize) fun result =>
    result ≠ .panic := by
  cases pc with
  | load waker | unlock waker | lock _ waker =>
      simp only [FlushPc.step, FlushPc.loop]
      split_ifs <;> grind -linarith -ring -order -lia -ac [Outcome.elim, FlushPc.Local]
  | release =>
      simp only [FlushPc.step]
      split_ifs <;> simp [Outcome.elim, FlushPc.Local]
  | clearPrev prev waker =>
      obtain ⟨active, loaded, rlock, _⟩ := points
      exact ⟨active, loaded, rlock⟩
  | _ => simp_all [FlushPc.step, Outcome.elim, FlushPc.Local]

/-! ## `read` -/

/-- The head of the loop holds nothing and acts on what it has seen. -/
theorem ReadPc.loop_follows (cancels : Bool) (prev : State) (waker : Option W) (orCancel : Bool) :
    RecvSections.Follows prev {}
      ((ReadPc.loop (T := T) prev waker orCancel).elim ReadPc.sections
        fun _ => { ended := cancels }) := by
  simp only [ReadPc.loop]
  rw [RecvSections.follows_iff]
  grind -linarith -ring -order -lia -ac [Outcome.elim, ReadPc.sections]

/-- Giving up both locks after a waker has been put down or withdrawn. -/
theorem Locks.read_unlock (locks : Locks m S { registering := true }) :
    Locks (m.fetchAnd { rlock := true, wlock := true, wake := true }) S {} := by
  rw [locks_iff] at locks ⊢
  grind -linarith -ring -order -lia -ac [State.unset, World.access, World.fetchAnd]

theorem Locks.read_step {pc : ReadPc T W} (spurious : Bool) (locks : Locks m S pc.sections)
    (points : pc.Local cancels) :
    Locks (pc.step spurious m).1 S
      ((pc.step spurious m).2.elim ReadPc.sections fun _ => { ended := cancels }) := by
  cases pc with
  | load waker orCancel => exact locks.receiver_keep ⟨rfl, rfl, rfl⟩ (ReadPc.loop_follows _ _ _ _)
  | takeClosed | take | takeFlush | wakeFlush | wake | clearPrev | storeWaker | clearOwn =>
      refine locks.receiver_keep ⟨rfl, rfl, rfl⟩ ?_
      simp only [ReadPc.step, ReadPc.registered]
      rw [RecvSections.follows_iff]
      grind -linarith -ring -order -lia -ac [Outcome.elim, ReadPc.sections,
          ReadPc.Local]
  | swap | unlock | release =>
      simp only [ReadPc.step, ReadPc.unlockMask]
      rw [locks_iff] at locks ⊢
      grind -linarith -ring -order -lia -ac [Outcome.elim, ReadPc.sections,
          ReadPc.Local, State.set, State.unset, World.access, World.fetchAnd, World.store]
  | lock prev waker orCancel =>
      simp only [ReadPc.step]
      split_ifs with exchanged
      · rw [locks_iff] at locks ⊢
        grind -linarith -ring -order -lia -ac [Outcome.elim, ReadPc.sections,
            ReadPc.Local, State.set, World.access, World.store]
      · exact locks.receiver_keep ⟨rfl, rfl, rfl⟩ (ReadPc.loop_follows _ _ _ _)
  | cancel prev waker =>
      simp only [ReadPc.step]
      split_ifs with exchanged
      · rw [locks_iff] at locks ⊢
        grind -linarith -ring -order -lia -ac [Outcome.elim, ReadPc.sections,
            ReadPc.Local, State.unset, World.access, World.store, World.closeReceiver]
      · exact locks.receiver_keep ⟨rfl, rfl, rfl⟩ (ReadPc.loop_follows _ _ _ _)
  | register prev waker orCancel =>
      simp only [ReadPc.step, ReadPc.registered]
      by_cases exchanged : m.state = prev ∧ !spurious
      · rw [if_pos exchanged]
        rw [locks_iff] at locks
        cases waker <;> split_ifs <;> rw [locks_iff] <;>
          grind -linarith -ring -order -lia -ac [Outcome.elim, ReadPc.sections, ReadPc.Local,
              State.set, World.access, World.store]
      · rw [if_neg exchanged]
        exact locks.receiver_keep ⟨rfl, rfl, rfl⟩ (ReadPc.loop_follows _ _ _ _)
  | unlockOwn orCancel =>
      exact locks.read_unlock.receiver_keep ⟨rfl, rfl, rfl⟩ (ReadPc.loop_follows _ _ _ _)
  | unlockBare orCancel =>
      simp only [ReadPc.step]
      split_ifs
      · refine locks.read_unlock.receiver_keep ⟨rfl, rfl, rfl⟩ ?_
        simp [RecvSections.follows_iff, Outcome.elim]
      · exact locks.read_unlock.receiver_keep ⟨rfl, rfl, rfl⟩ (ReadPc.loop_follows _ _ _ _)

/-- The head of the loop takes its locals from what it has seen. -/
theorem ReadPc.loop_local {prev : State} {waker : Option W} {orCancel : Bool}
    (cancel : orCancel = cancels) :
    (ReadPc.loop (T := T) prev waker orCancel).elim (ReadPc.Local cancels)
      fun result => result ≠ .panic := by
  cases waker <;> simp only [ReadPc.loop] <;> split_ifs <;>
    simp_all [Outcome.elim, ReadPc.Local]

/-- The locals stay right, and the swap of a closed channel finds what the read
has seen. -/
theorem ReadPc.Local.step {pc : ReadPc T W} (spurious : Bool) (locks : Locks m S pc.sections)
    (points : pc.Local cancels) :
    (pc.step spurious m).2.elim (ReadPc.Local cancels) fun result => result ≠ .panic := by
  cases pc with
  | load waker orCancel => exact ReadPc.loop_local points
  | swap prev => simp [ReadPc.step, (locks.swaps prev rfl).2.1, Outcome.elim, ReadPc.Local]
  | lock prev waker orCancel =>
      obtain ⟨active, loaded, cancel⟩ := points
      simp only [ReadPc.step]
      split_ifs
      · exact ⟨active, loaded⟩
      · exact ReadPc.loop_local cancel
  | take prev =>
      simp only [ReadPc.step]
      split_ifs <;> simp_all [Outcome.elim, ReadPc.Local]
  | takeFlush prev value =>
      obtain ⟨active, loaded, -, -⟩ := points
      exact ⟨active, loaded⟩
  | unlock prev value flushWaker =>
      cases flushWaker <;> simp [ReadPc.step, Outcome.elim, ReadPc.Local]
  | cancel prev waker =>
      obtain ⟨-, -, cancel⟩ := points
      simp only [ReadPc.step]
      split_ifs
      · simp [Outcome.elim]
      · exact ReadPc.loop_local cancel.symm
  | register prev waker orCancel =>
      obtain ⟨active, loaded, wlock, wakes, noCancel, notCancels⟩ := points
      by_cases exchanged : m.state = prev ∧ !spurious
      · have rlock : prev.rlock = false := by
          obtain ⟨rfl, -⟩ := exchanged
          have := locks.rlock_eq
          simp_all [ReadPc.sections]
        simp only [ReadPc.step, if_pos exchanged, ReadPc.registered, Outcome.elim]
        cases waker <;> split_ifs <;> simp_all [ReadPc.Local]
      · simp only [ReadPc.step, if_neg exchanged]
        exact ReadPc.loop_local (noCancel.trans notCancels.symm)
  | clearPrev prev waker orCancel =>
      cases waker <;> simp_all [ReadPc.step, ReadPc.registered, Outcome.elim, ReadPc.Local]
  | release prev waker orCancel =>
      simp only [ReadPc.step]
      split_ifs <;> simp_all [Outcome.elim, ReadPc.Local]
  | unlockOwn orCancel => exact ReadPc.loop_local (points.1.trans points.2.symm)
  | unlockBare orCancel =>
      simp only [ReadPc.step]
      split_ifs
      · simp [Outcome.elim]
      · exact ReadPc.loop_local (points.1.trans points.2.symm)
  | takeClosed | wakeFlush | wake => simp [ReadPc.step, Outcome.elim]
  | storeWaker | clearOwn => exact points

/-! ## `drop_one_side` -/

theorem Locks.sender_drop_step {live : Bool} {pc : DropPc W}
    (locks : Locks m (pc.sendSections live) R) :
    Locks (pc.step true m).1
      ((pc.step true m).2.elim (DropPc.sendSections live) fun _ => { ended := true }) R := by
  cases pc with
  | lock | close =>
      simp only [DropPc.step, DropPc.finish, DropPc.closeSide]
      rw [locks_iff] at locks ⊢
      grind -linarith -ring -order -lia -ac [Outcome.elim, DropPc.sendSections,
          DropPc.holds, DropPc.closed, DropPc.ended, State.set, State.unset, World.access,
          World.fetchOr, World.fetchAnd, World.closeSender]
  | unlock waker =>
      simp only [DropPc.step, DropPc.finish, DropPc.closeSide]
      rw [locks_iff] at locks
      cases waker <;> rw [locks_iff] <;>
        grind -linarith -ring -order -lia -ac [Outcome.elim, DropPc.sendSections,
            DropPc.holds, DropPc.closed, DropPc.ended, State.unset, World.access,
            World.fetchAnd, World.closeSender]
  | _ =>
      refine locks.sender_keep ⟨rfl, rfl, rfl⟩ ?_
      simp only [DropPc.step, DropPc.finish]
      rw [SendSections.follows_iff]
      grind -linarith -ring -order -lia -ac [Outcome.elim, DropPc.sendSections,
          DropPc.holds, DropPc.closed, DropPc.ended]

theorem Locks.receiver_drop_step {pc : DropPc W} (locks : Locks m S pc.recvSections) :
    Locks (pc.step false m).1 S
      ((pc.step false m).2.elim DropPc.recvSections fun _ => { ended := true }) := by
  cases pc with
  | lock | close =>
      simp only [DropPc.step, DropPc.finish, DropPc.closeSide]
      rw [locks_iff] at locks ⊢
      grind -linarith -ring -order -lia -ac [Outcome.elim, DropPc.recvSections,
          DropPc.holds, DropPc.closed, DropPc.ended, State.set, State.unset, World.access,
          World.fetchOr, World.fetchAnd, World.closeReceiver]
  | unlock waker =>
      simp only [DropPc.step, DropPc.finish, DropPc.closeSide]
      rw [locks_iff] at locks
      cases waker <;> rw [locks_iff] <;>
        grind -linarith -ring -order -lia -ac [Outcome.elim, DropPc.recvSections,
            DropPc.holds, DropPc.closed, DropPc.ended, State.unset, World.access,
            World.fetchAnd, World.closeReceiver]
  | _ =>
      refine locks.receiver_keep ⟨rfl, rfl, rfl⟩ ?_
      simp only [DropPc.step, DropPc.finish]
      rw [RecvSections.follows_iff]
      grind -linarith -ring -order -lia -ac [Outcome.elim, DropPc.recvSections,
          DropPc.holds, DropPc.closed, DropPc.ended]

/-! ## The two sides -/

theorem Sender.begun_follows {handle : SenderHandle T} {op : SendOp T W} {S' : Sender T W}
    (points : (idle handle : Sender T W).Local kind) (begun : Begun kind m handle op m' S') :
    m.SameWord m' ∧ (handleSections kind handle).Follows m.state (S'.sections kind) ∧
      S'.Local kind := by
  refine ⟨?_, ?_, ?_⟩
  · induction begun <;> exact ⟨rfl, rfl, rfl⟩
  · induction begun with
    | @dropBorrow owner _ _ isChannel =>
        cases owner <;>
          simp_all [SendSections.follows_iff, sections, handleSections, Local, Kind.finalize]
    | poll | dropFlush =>
        cases kind <;>
          simp_all [SendSections.follows_iff, sections, handleSections, Local, FlushPc.sections,
            DropPc.sendSections, DropPc.holds, DropPc.closed, DropPc.ended, Kind.finalize]
    | _ =>
        simp_all [SendSections.follows_iff, sections, handleSections, Local, WritePc.sections,
          DropPc.sendSections, DropPc.holds, DropPc.closed, DropPc.ended]
  · induction begun with
    | @dropBorrow owner _ _ isChannel => cases owner <;> simp_all [Local]
    | _ => simp_all [Local, WritePc.Local, FlushPc.Local]

theorem Sender.Noted.sameWord (noted : Noted m m') : m.SameWord m' := by
  induction noted <;> exact ⟨rfl, rfl, rfl⟩

theorem Sender.finishTrySend_follows (kind : Kind) (m : World T W) (result : WriteResult T) :
    m.SameWord (finishTrySend kind m result).1 ∧
      (WritePc.afterSections kind.finalize).Follows m.state
        ((finishTrySend kind m result).2.sections kind) ∧
      (finishTrySend kind m result).2.Local kind := by
  refine ⟨(finishTrySend_noted kind m result).sameWord, ?_, ?_⟩
  · cases result <;> cases kind <;> rw [SendSections.follows_iff] <;>
      grind -linarith -ring -order -lia -ac [finishTrySend, WritePc.afterSections, Kind.finalize,
          sections, handleSections]
  · cases result <;> cases kind <;> grind -linarith -ring -order -lia -ac [finishTrySend, Local]

theorem Sender.finishFlushWrite_follows {owner : Bool} {waker : W} {result : WriteResult T}
    (notTask : kind ≠ .taskFn) (isOwner : owner = decide (kind = .channel))
    (noPanic : result ≠ .panic) :
    m.SameWord (finishFlushWrite kind owner waker m result).1 ∧
      (WritePc.afterSections false).Follows m.state
        ((finishFlushWrite kind owner waker m result).2.sections kind) ∧
      (finishFlushWrite kind owner waker m result).2.Local kind := by
  refine ⟨(finishFlushWrite_noted kind owner waker m result).sameWord, ?_, ?_⟩
  · cases result <;> cases kind <;> rw [SendSections.follows_iff] <;>
      grind -linarith -ring -order -lia -ac [finishFlushWrite, WritePc.afterSections, Kind.finalize,
          sections, handleSections]
  · cases result <;> cases kind <;> grind -linarith -ring -order -lia -ac [finishFlushWrite, Local,
      Kind.finalize]

theorem Sender.finishFlush_follows {owner : Bool} {waker : W} {result : PollResult T}
    (notTask : kind ≠ .taskFn) (isOwner : owner = decide (kind = .channel))
    (noPanic : result ≠ .panic) :
    m.SameWord (finishFlush kind owner waker m result).1 ∧
      SendSections.Follows m.state { live := !kind.finalize }
        ((finishFlush kind owner waker m result).2.sections kind) ∧
      (finishFlush kind owner waker m result).2.Local kind := by
  refine ⟨(finishFlush_noted kind owner waker m result).sameWord, ?_, ?_⟩
  · cases result <;> cases kind <;> rw [SendSections.follows_iff] <;>
      grind -linarith -ring -order -lia -ac [finishFlush, Kind.finalize, sections, handleSections]
  · cases result <;> cases kind <;> grind -linarith -ring -order -lia -ac [finishFlush, Local,
      Kind.finalize]

/-- A step of the sending side keeps the locks, and its own locals. -/
theorem Locks.sender_step {S S' : Sender T W} {spurious : Bool}
    (locks : Locks m (S.sections kind) R) (points : S.Local kind)
    (step : S.Stepped kind spurious m m' S') :
    Locks m' (S'.sections kind) R ∧ S'.Local kind := by
  induction step with
  | trySend inner =>
      have kept := locks.write_step spurious (Bool.and_true _).symm points
      have moved := points.step kind.finalize spurious locks
      rw [inner] at kept moved
      exact ⟨kept, moved⟩
  | trySendEnd inner =>
      have kept := locks.write_step spurious (Bool.and_true _).symm points
      rw [inner] at kept
      obtain ⟨same, follows, finished⟩ := Sender.finishTrySend_follows kind _ _
      exact ⟨kept.sender_keep same follows, finished⟩
  | flushWrite inner =>
      have kept := locks.write_step spurious (Bool.and_false kind.finalize).symm points.1
      have moved := points.1.step kind.finalize spurious locks
      rw [inner] at kept moved
      exact ⟨kept, moved, points.2⟩
  | flushWriteEnd inner =>
      have kept := locks.write_step spurious (Bool.and_false kind.finalize).symm points.1
      have moved := points.1.step kind.finalize spurious locks
      rw [inner] at kept moved
      obtain ⟨same, follows, finished⟩ :=
        Sender.finishFlushWrite_follows points.2.1 points.2.2 moved
      exact ⟨kept.sender_keep same follows, finished⟩
  | flush inner =>
      have kept := locks.flush_step spurious points.1
      have moved := points.1.step spurious m
      rw [inner] at kept moved
      exact ⟨kept, moved, points.2⟩
  | flushEnd inner =>
      have kept := locks.flush_step spurious points.1
      have moved := points.1.step spurious m
      rw [inner] at kept moved
      obtain ⟨same, follows, finished⟩ := Sender.finishFlush_follows points.2.1 points.2.2 moved
      exact ⟨kept.sender_keep same follows, finished⟩
  | drop inner =>
      have kept := locks.sender_drop_step
      rw [inner] at kept
      exact ⟨kept, trivial⟩
  | @dropEnd _ last _ inner =>
      have kept := locks.sender_drop_step
      rw [inner] at kept
      cases last <;>
        exact ⟨kept.sender_keep ⟨rfl, rfl, rfl⟩ (by simp [SendSections.follows_iff, Outcome.elim,
          Sender.finishDrop, Sender.sections, Sender.handleSections]), trivial⟩
  | @free next =>
      refine ⟨locks.sender_keep ⟨rfl, rfl, rfl⟩ ?_, ?_⟩
      · cases next <;>
          simp_all [SendSections.follows_iff, Sender.sections, Sender.handleSections, Sender.Local]
      · cases next <;> simp_all [Sender.Local]

theorem Receiver.begun_follows {handle : ReceiverHandle} {op : RecvOp W} {R' : Receiver T W}
    (begun : Begun kind m handle op m' R') :
    m.SameWord m' ∧ (idle handle : Receiver T W).sections.Follows m.state R'.sections ∧
      R'.Local := by
  refine ⟨?_, ?_, ?_⟩
  · induction begun <;> exact ⟨rfl, rfl, rfl⟩
  · induction begun with
    | @detached _ next answers remains =>
        cases next <;> simp_all [RecvSections.follows_iff, sections]
    | _ =>
        simp [RecvSections.follows_iff, sections, ReadPc.sections, DropPc.recvSections,
          DropPc.holds, DropPc.closed, DropPc.ended]
  · induction begun with
    | read isRead => rcases isRead with ⟨_, rfl⟩ | ⟨_, _, rfl⟩ | ⟨_, _, rfl⟩ <;> rfl
    | _ => simp [Local, ReadPc.Local, ReceiveCall.cancels]

theorem Receiver.Noted.sameWord {result : PollResult T} (noted : Noted m result m') :
    m.SameWord m' := by
  induction noted <;> exact ⟨rfl, rfl, rfl⟩

theorem Receiver.Left.follows {call : ReceiveCall W} {result : PollResult T} {r : Receiver T W}
    (state : State) (left : Left kind m call result m' r) :
    RecvSections.Follows state { ended := call.cancels } r.sections ∧ r.Local := by
  induction left with
  | @idle _ next gone waits =>
      refine ⟨?_, trivial⟩
      cases next <;> simp_all [RecvSections.follows_iff, sections]
  | parked blocks pending =>
      rcases blocks with rfl | rfl <;>
        exact ⟨⟨rfl, rfl, rfl, id, .inl, id, by rintro _ ⟨⟩⟩, trivial⟩
  | reading first empty =>
      rcases first with ⟨rfl, rfl⟩ | ⟨rfl, rfl⟩ <;>
        exact ⟨⟨rfl, rfl, rfl, id, .inl, id, by rintro _ ⟨⟩⟩, rfl⟩
  | freeing finished closed => exact ⟨by simp [RecvSections.follows_iff, sections], finished⟩
  | dropping uncancelled finished =>
      rw [uncancelled]
      exact ⟨⟨rfl, rfl, rfl, id, .inl, (by rintro ⟨⟩), by rintro _ ⟨⟩⟩, finished⟩

/-- A read returns to its caller with nothing held. -/
theorem Receiver.finishRead_follows {call : ReceiveCall W} {result : PollResult T} :
    m.SameWord (finishRead kind m call result).1 ∧
      RecvSections.Follows m.state { ended := call.cancels }
        (finishRead kind m call result).2.sections ∧
      (finishRead kind m call result).2.Local :=
  ⟨(finishRead_noted kind m call result).sameWord,
    (finishRead_left kind m call result).follows m.state⟩

/-- A step of the receiving side keeps the locks, and its own locals. -/
theorem Locks.receiver_step {R R' : Receiver T W} {spurious : Bool}
    (locks : Locks m S R.sections) (points : R.Local) (step : R.Stepped kind spurious m m' R') :
    Locks m' S R'.sections ∧ R'.Local := by
  induction step with
  | read inner =>
      have kept := locks.read_step spurious points
      have moved := points.step spurious locks
      rw [inner] at kept moved
      exact ⟨kept, moved⟩
  | readEnd inner =>
      have kept := locks.read_step spurious points
      rw [inner] at kept
      obtain ⟨same, follows, finished⟩ := Receiver.finishRead_follows
      exact ⟨kept.receiver_keep same follows, finished⟩
  | unpark isParked =>
      refine ⟨locks.receiver_keep ⟨rfl, rfl, rfl⟩ ?_, ?_⟩
      · simp [RecvSections.follows_iff, Receiver.beginPoll, Receiver.sections, ReadPc.sections]
      · rcases isParked with rfl | rfl <;> rfl
  | drop inner =>
      have kept := locks.receiver_drop_step
      rw [inner] at kept
      exact ⟨kept, points⟩
  | @dropEnd handle _ last _ inner =>
      have kept := locks.receiver_drop_step
      rw [inner] at kept
      refine ⟨kept.receiver_keep ⟨rfl, rfl, rfl⟩ ?_, ?_⟩
      · cases last <;> cases handle <;>
          simp_all [RecvSections.follows_iff, Receiver.finishDrop, Receiver.sections,
            Receiver.Local, Outcome.elim]
      · cases last
        · trivial
        · exact points
  | @free next =>
      refine ⟨locks.receiver_keep ⟨rfl, rfl, rfl⟩ ?_, trivial⟩
      cases next <;> simp_all [RecvSections.follows_iff, Receiver.sections, Receiver.Local]

/-! ## The pair -/

/-- The locks agree with the sections of both sides, and each side's locals are
right. -/
structure System.Sound (kind : Kind) (s : System T W) : Prop where
  locks : Locks s.world (s.sender.sections kind) s.receiver.sections
  sender : s.sender.Local kind
  receiver : s.receiver.Local

namespace System.Sound

variable {s s' : System T W} {label : Label T W}

theorem init : Sound kind (System.init : System T W) := by
  refine ⟨?_, trivial, trivial⟩
  simp [locks_iff, System.init, Sender.sections, Sender.handleSections, Receiver.sections]

theorem step (sound : Sound kind s) (step : System.step kind s label = some s') :
    Sound kind s' := by
  obtain ⟨locks, sender, receiver⟩ := sound
  rcases System.step_cases step with ⟨_, _, _, isIdle, same, begun⟩ |
    ⟨_, _, _, isIdle, same, begun⟩ | ⟨_, _, same, stepped⟩ | ⟨_, _, same, stepped⟩ |
    ⟨_, _, parked, same, world, reads⟩
  · rw [isIdle] at locks sender
    obtain ⟨word, follows, points⟩ := Sender.begun_follows sender begun
    exact ⟨same ▸ locks.sender_keep word follows, points, same ▸ receiver⟩
  · rw [isIdle] at locks
    obtain ⟨word, follows, points⟩ := Receiver.begun_follows begun
    exact ⟨same ▸ locks.receiver_keep word follows, same ▸ sender, points⟩
  · obtain ⟨kept, points⟩ := locks.sender_step sender stepped
    exact ⟨same ▸ kept, points, same ▸ receiver⟩
  · obtain ⟨kept, points⟩ := locks.receiver_step receiver stepped
    exact ⟨same ▸ kept, same ▸ sender, points⟩
  · rw [parked] at locks
    refine ⟨?_, same ▸ sender, reads ▸ rfl⟩
    rw [same, world, reads]
    refine locks.receiver_keep ⟨rfl, rfl, rfl⟩ ?_
    simp [RecvSections.follows_iff, Receiver.sections, ReadPc.sections]

/-- Every run keeps the locks. -/
theorem of_reachable (reachable : Reachable (System.step kind) System.init s) : Sound kind s :=
  reachable.invariant init fun _ _ _ sound _ stepped => sound.step stepped

end System.Sound

/-! ## The branches that are not to be taken -/

/-- No `write` in progress is about to end in its `Invalid channel state` panic,
and a `read` that is about to swap has loaded the state word as it is. -/
structure System.Unfailing (s : System T W) : Prop where
  write : ∀ pc : WritePc T W,
    (s.sender = .trySending pc ∨ ∃ owner waker, s.sender = .flushWriting owner waker pc) →
    ∀ finalize spurious, (pc.step finalize spurious s.world).2 ≠ .ret .panic
  swap : ∀ call prev, s.receiver = .reading call (.swap prev) → s.world.state = prev
  read : ∀ call pc, s.receiver = .reading call pc →
    ∀ spurious, (pc.step spurious s.world).2 ≠ .ret .panic

/-- Whatever the interleaving, and whichever exchanges fail. -/
theorem channel_unfailing {s : System T W}
    (reachable : Reachable (System.step kind) System.init s) : s.Unfailing := by
  obtain ⟨locks, sender, receiver⟩ := System.Sound.of_reachable reachable
  constructor
  · rintro pc (isSender | ⟨owner, waker, isSender⟩) finalize spurious panics
    · rw [isSender] at locks sender
      have kept := WritePc.Local.step finalize spurious locks sender
      rw [panics] at kept
      exact kept rfl
    · rw [isSender] at locks sender
      have kept := WritePc.Local.step finalize spurious locks sender.1
      rw [panics] at kept
      exact kept rfl
  · intro call prev isReceiver
    rw [isReceiver] at locks
    exact (locks.swaps prev rfl).2.1
  · intro call pc isReceiver spurious panics
    rw [isReceiver] at locks receiver
    have kept := ReadPc.Local.step spurious locks receiver
    rw [panics] at kept
    exact kept rfl

/-- The receiver is about to swap a channel whose sender has gone. -/
theorem channel_unfailing_at_swap : ∃ s : System Nat Nat,
    s.receiver = .reading (.poll 1) (.swap { loaded := true }) ∧ s.Unfailing := by
  obtain ⟨s, ran, swaps⟩ : ∃ s ∈ runFrom (System.step .channel) (System.init : System Nat Nat)
      (List.flatten [[.send (.trySend 7)], List.replicate 3 (.sender false), [.send .drop],
        List.replicate 2 (.sender false), [.recv (.poll 1), .receiver false]]),
      s.receiver = .reading (.poll 1) (.swap { loaded := true }) := by
    decide
  exact ⟨s, swaps, channel_unfailing (reachable_of_runFrom ran)⟩

end Suspend.Channel
