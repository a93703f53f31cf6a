import Suspend.Channel.Disconnect
import Suspend.Channel.Published
import Suspend.Channel.SendOnce

/-!
# Receives that do not wait

As long as a channel is open its waker lock is taken only while some side is
inside a section that it will leave by giving the lock back.  Between calls,
then, a `read` without a waker meets no lock, and what it says of an open and
empty channel is `Ready((None, false))`, not `Pending`.
-/

namespace Suspend.Channel

open Suspend.Transition

universe u v

variable {T : Type u} {W : Type v}
variable {m m' : World T W} {S S' : SendSections} {R R' : RecvSections} {kind : Kind}
  {spurious : Bool}

/-! ## Who holds the waker lock -/

/-- Some section of the receiving side has the waker lock. -/
def RecvSections.holds (R : RecvSections) : Bool :=
  R.takingLocked || R.registering || R.dropHolds

/-- A `flush` that was given a locked state word to expect gives it back
locked. -/
def FlushPc.borrows : FlushPc W → Bool
  | clearPrev prev _ | storeWaker prev _ | release prev _ => prev.wlock
  | _ => false

def Sender.borrows : Sender T W → Bool
  | flushing _ _ pc => pc.borrows
  | _ => false

/-- The waker lock of an open channel is held by one of the sides.  A lock that
a `flush` has borrowed is that of the receiver's drop. -/
structure Attended (m : World T W) (S : SendSections) (borrows : Bool)
    (R : RecvSections) : Prop where
  held : m.state.active = true → m.state.wlock = true → S.holds = true ∨ R.holds = true
  borrowed : borrows = true → m.state.active = true → R.dropHolds = true

namespace Attended

variable {borrows borrows' : Bool}

theorem sender_keep (held : Attended m S borrows R) (state : m'.state = m.state)
    (holds : S.holds = true → S'.holds = true) (borrowed : borrows' = true → borrows = true) :
    Attended m' S' borrows' R := by
  constructor
  · rw [state]
    intro active wlock
    exact (held.held active wlock).imp_left holds
  · rw [state]
    intro isBorrowed
    exact held.borrowed (borrowed isBorrowed)

theorem receiver_keep (held : Attended m S borrows R) (state : m'.state = m.state)
    (holds : R.holds = true → R'.holds = true)
    (drops : R.dropHolds = true → R'.dropHolds = true) : Attended m' S borrows R' := by
  constructor
  · rw [state]
    intro active wlock
    exact (held.held active wlock).imp_right holds
  · rw [state]
    intro isBorrowed active
    exact drops (held.borrowed isBorrowed active)

/-! ### The sending side -/

theorem write_step (finalize : Bool) {last polled : Bool} {pc : WritePc T W} (spurious : Bool)
    (locks : Locks m (pc.sections last) R) (points : pc.Local polled)
    (held : Attended m (pc.sections last) false R) :
    Attended (pc.step finalize spurious m).1
      ((pc.step finalize spurious m).2.elim (WritePc.sections last)
        fun _ => WritePc.afterSections last) false R := by
  have closed := locks.sender_closed
  obtain ⟨held, -⟩ := held
  refine ⟨?_, by simp⟩
  cases pc <;> simp only [WritePc.step, WritePc.locked, WritePc.finish] <;>
    grind -linarith -ring -order -lia -ac [Outcome.elim, WritePc.sections, WritePc.afterSections,
      WritePc.Local, SendSections.holds, State.set, State.unset, World.access, World.fetchOr,
      World.fetchAnd, World.store, World.publish, World.closeSender, World.storeValue,
      World.loadValue, World.storeWaker, World.loadWaker, World.wake]

theorem flush_step {finalize : Bool} {pc : FlushPc W} (spurious : Bool)
    (locks : Locks m (pc.sections finalize) R) (points : pc.Local finalize)
    (held : Attended m (pc.sections finalize) pc.borrows R) :
    Attended (pc.step finalize spurious m).1
      ((pc.step finalize spurious m).2.elim (FlushPc.sections finalize)
        fun _ => { live := !finalize })
      ((pc.step finalize spurious m).2.elim FlushPc.borrows fun _ => false) R := by
  have rlock := locks.rlock_eq
  have taking := locks.takingLocked
  obtain ⟨held, borrowed⟩ := held
  constructor <;> cases pc <;> simp only [FlushPc.step, FlushPc.loop] <;>
    grind -linarith -ring -order -lia -ac [Outcome.elim, FlushPc.sections, FlushPc.borrows,
      FlushPc.Local, SendSections.holds, RecvSections.holds, State.set, State.unset, State.done,
      World.access, World.fetchAnd, World.store, World.closeSender, World.loadValue,
      World.storeWaker, World.loadWaker, World.wake]

theorem sender_drop_step {live : Bool} {pc : DropPc W}
    (locks : Locks m (pc.sendSections live) R) (held : Attended m (pc.sendSections live) false R) :
    Attended (pc.step true m).1
      ((pc.step true m).2.elim (DropPc.sendSections live) fun _ => { ended := true }) false R := by
  have closed := locks.sender_closed
  obtain ⟨held, -⟩ := held
  refine ⟨?_, by simp⟩
  cases pc <;> simp only [DropPc.step, DropPc.finish, DropPc.closeSide] <;>
    grind -linarith -ring -order -lia -ac [Outcome.elim, DropPc.sendSections, DropPc.holds,
      DropPc.closed, SendSections.holds, State.set, State.unset, World.access, World.fetchOr,
      World.fetchAnd, World.closeSender, World.clearValue, World.loadValue, World.loadWaker,
      World.wake]

theorem sender_begun {handle : SenderHandle T} {op : SendOp T W} {s' : Sender T W}
    (held : Attended m (Sender.handleSections kind handle) false R)
    (begun : Sender.Begun kind m handle op m' s') :
    Attended m' (s'.sections kind) s'.borrows R := by
  apply held.sender_keep
  · induction begun <;> rfl
  · cases handle <;> simp [Sender.handleSections, SendSections.holds]
  · induction begun <;> exact id

theorem sender_step {s s' : Sender T W} (locks : Locks m (s.sections kind) R)
    (points : s.Local kind) (held : Attended m (s.sections kind) s.borrows R)
    (step : s.Stepped kind spurious m m' s') : Attended m' (s'.sections kind) s'.borrows R := by
  have same := step.memory.state
  induction step with
  | trySend inner =>
      have kept := held.write_step kind.finalize spurious locks points
      rw [inner] at kept
      exact kept
  | @trySendEnd _ result after inner =>
      have kept := held.write_step kind.finalize spurious locks points
      simp only [Sender.access, inner] at kept same
      apply kept.sender_keep same
      · intro never
        cases never
      · cases result with
        | ok => cases kind <;> exact id
        | err value dropped => cases kind <;> cases dropped <;> exact id
        | panic => cases kind <;> exact id
  | flushWrite inner =>
      have kept := held.write_step kind.finalize spurious locks points.1
      rw [inner] at kept
      exact kept
  | @flushWriteEnd owner waker _ result after inner =>
      have kept := held.write_step kind.finalize spurious locks points.1
      simp only [Sender.access, inner] at kept same
      apply kept.sender_keep same
      · intro never
        cases never
      · cases result with
        | err value dropped => cases kind <;> cases dropped <;> exact id
        | _ => exact id
  | flush inner =>
      have kept := held.flush_step spurious locks points.1
      rw [inner] at kept
      exact kept
  | @flushEnd owner waker _ result after inner =>
      have kept := held.flush_step spurious locks points.1
      simp only [Sender.access, inner] at kept same
      apply kept.sender_keep same
      · intro never
        cases never
      · cases result with
        | ready value dropped => cases kind <;> cases dropped <;> exact id
        | _ => exact id
  | drop inner =>
      have kept := held.sender_drop_step locks
      rw [inner] at kept
      exact kept
  | @dropEnd _ last _ inner =>
      have kept := held.sender_drop_step locks
      simp only [Sender.access, inner] at kept same
      apply kept.sender_keep same
      · intro never
        cases never
      · cases last <;> exact id
  | free =>
      apply held.sender_keep same
      · intro never
        cases never
      · exact id

/-! ### The receiving side -/

theorem read_active {pc : ReadPc T W} (spurious : Bool) (locks : Locks m S pc.sections)
    (active : (pc.step spurious m).1.state.active = true) : m.state.active = true := by
  have swaps := locks.swaps
  cases pc <;> simp only [ReadPc.step, ReadPc.unlockMask] at active <;>
    grind -linarith -ring -order -lia -ac [ReadPc.sections, State.set, State.unset, World.access,
      World.fetchAnd, World.store, World.receive, World.closeReceiver, World.loadValue,
      World.storeWaker, World.loadWaker, World.wake]

theorem read_step {cancels : Bool} {borrows : Bool} {pc : ReadPc T W} (spurious : Bool)
    (locks : Locks m S pc.sections) (points : pc.Local cancels)
    (held : Attended m S borrows pc.sections) :
    Attended (pc.step spurious m).1 S borrows
      ((pc.step spurious m).2.elim ReadPc.sections fun _ => { ended := cancels }) := by
  have swaps := locks.swaps
  obtain ⟨held, borrowed⟩ := held
  constructor
  · cases pc <;> simp only [ReadPc.step, ReadPc.loop, ReadPc.registered, ReadPc.unlockMask] <;>
      grind -linarith -ring -order -lia -ac [Outcome.elim, ReadPc.sections, ReadPc.Local,
        RecvSections.holds, State.set, State.unset, World.access, World.fetchAnd, World.store,
        World.receive, World.closeReceiver, World.loadValue, World.storeWaker, World.loadWaker,
        World.wake]
  · intro isBorrowed active
    have stillActive := read_active spurious locks active
    have never := borrowed isBorrowed stillActive
    cases pc <;> cases never

theorem receiver_drop_step {borrows : Bool} {pc : DropPc W} (locks : Locks m S pc.recvSections)
    (held : Attended m S borrows pc.recvSections) :
    Attended (pc.step false m).1 S borrows
      ((pc.step false m).2.elim DropPc.recvSections fun _ => { ended := true }) := by
  have closed := locks.receiver_closed
  obtain ⟨held, borrowed⟩ := held
  constructor <;> cases pc <;>
    simp only [DropPc.step, DropPc.finish, DropPc.closeSide] <;>
    grind -linarith -ring -order -lia -ac [Outcome.elim, DropPc.recvSections, DropPc.holds,
      DropPc.closed, RecvSections.holds, State.set, State.unset, World.access, World.fetchOr,
      World.fetchAnd, World.closeReceiver, World.clearValue, World.loadValue, World.loadWaker,
      World.wake]

theorem receiver_begun {borrows : Bool} {handle : ReceiverHandle} {op : RecvOp W}
    {r' : Receiver T W} (held : Attended m S borrows (Receiver.idle handle : Receiver T W).sections)
    (begun : Receiver.Begun kind m handle op m' r') : Attended m' S borrows r'.sections := by
  apply held.receiver_keep
  · induction begun <;> rfl
  · cases handle <;> simp [Receiver.sections, RecvSections.holds]
  · cases handle <;> simp [Receiver.sections]

theorem receiver_step {borrows : Bool} {r r' : Receiver T W} (locks : Locks m S r.sections)
    (points : r.Local) (held : Attended m S borrows r.sections)
    (step : r.Stepped kind spurious m m' r') : Attended m' S borrows r'.sections := by
  induction step with
  | read inner =>
      have kept := held.read_step spurious locks points
      rw [inner] at kept
      exact kept
  | readEnd inner =>
      have kept := held.read_step spurious locks points
      rw [inner] at kept
      apply kept.receiver_keep (Receiver.finishRead_follows).1.1
      · intro never
        cases never
      · intro never
        cases never
  | unpark => exact held.receiver_keep rfl id id
  | drop inner =>
      have kept := held.receiver_drop_step locks
      rw [inner] at kept
      exact kept
  | dropEnd inner =>
      have kept := held.receiver_drop_step locks
      rw [inner] at kept
      refine kept.receiver_keep ?_ ?_ ?_
      · rfl
      · intro never
        cases never
      · intro never
        cases never
  | free =>
      refine held.receiver_keep ?_ ?_ ?_
      · rfl
      · intro never
        cases never
      · intro never
        cases never

end Attended

/-! ## Between calls -/

namespace System

variable {s s' : System T W} {label : Label T W}

/-- The waker lock of the pair is held as long as it is set. -/
def LockHeld (kind : Kind) (s : System T W) : Prop :=
  Attended s.world (s.sender.sections kind) s.sender.borrows s.receiver.sections

theorem LockHeld.init : LockHeld kind (System.init : System T W) := by
  constructor <;> simp [System.init, Sender.borrows]

theorem LockHeld.step (sound : Sound kind s) (held : LockHeld kind s)
    (step : System.step kind s label = some s') : LockHeld kind s' := by
  unfold LockHeld at held ⊢
  rcases System.step_cases step with ⟨_, _, _, isIdle, same, begun⟩ |
    ⟨_, _, _, isIdle, same, begun⟩ | ⟨_, _, same, stepped⟩ | ⟨_, _, same, stepped⟩ |
    ⟨_, _, parked, same, world, reads⟩
  · rw [isIdle] at held
    rw [same]
    exact held.sender_begun begun
  · rw [isIdle] at held
    rw [same]
    exact held.receiver_begun begun
  · rw [same]
    exact held.sender_step sound.locks sound.sender stepped
  · rw [same]
    exact held.receiver_step sound.locks sound.receiver stepped
  · rw [parked] at held
    rw [same, world, reads]
    exact held.receiver_keep rfl id id

/-- Between calls the locks of an open channel are free. -/
theorem LockHeld.unlocked (held : LockHeld kind s) {handle : SenderHandle T}
    (sender : s.sender = .idle handle) (receiver : s.receiver = .idle .connected)
    (active : s.world.state.active = true) : s.world.state.wlock = false := by
  by_contra locked
  rcases held.held active (by simpa using locked) with holds | holds
  · rw [sender] at holds
    cases handle <;> cases holds
  · rw [receiver] at holds
    cases holds

end System

/-! ## A receive alone at an empty channel -/

namespace ReadPc

/-- The points of a `read` without a waker that is alone at an open channel
with nothing in it. -/
def Tries (m : World T W) (pc : ReadPc T W) : Prop :=
  m.state.active = true ∧ m.state.loaded = false ∧
    match pc with
    | load waker orCancel => waker = none ∧ orCancel = false ∧ m.state.wlock = false
    | register prev waker orCancel =>
        waker = none ∧ orCancel = false ∧ m.state.wlock = false ∧ prev = m.state
    | clearPrev _ waker orCancel => waker = none ∧ orCancel = false
    | unlockBare orCancel => orCancel = false
    | _ => False

/-- It finds nothing, and leaves the channel open and unlocked. -/
def TriesEnd (m : World T W) (result : PollResult T) : Prop :=
  result = .ready none false ∧ m.state.active = true ∧ m.state.wlock = false

theorem Tries.step {pc : ReadPc T W} (spurious : Bool) (tries : pc.Tries m) :
    (pc.step spurious m).2.elim (Tries (pc.step spurious m).1)
      (TriesEnd (pc.step spurious m).1) := by
  obtain ⟨active, loaded, points⟩ := tries
  cases pc with
  | load waker orCancel =>
      obtain ⟨rfl, rfl, wlock⟩ := points
      cases wake : m.state.wake <;>
        simp [ReadPc.step, loop, Outcome.elim, Tries, TriesEnd, World.access, active, loaded, wlock,
          wake]
  | register prev waker orCancel =>
      obtain ⟨rfl, rfl, wlock, rfl⟩ := points
      cases wake : m.state.wake <;> cases spurious <;>
        simp [ReadPc.step, loop, registered, Outcome.elim, Tries, TriesEnd, World.access,
          World.store, active, loaded, wlock, wake]
  | clearPrev prev waker orCancel =>
      obtain ⟨rfl, rfl⟩ := points
      exact ⟨active, loaded, rfl⟩
  | unlockBare orCancel =>
      obtain rfl : orCancel = false := points
      simp [ReadPc.step, Outcome.elim, TriesEnd, World.fetchAnd, active, loaded]
  | _ => exact points.elim

theorem Tries.falls {pc : ReadPc T W} (tries : pc.Tries m) :
    (pc.step false m).2.elim (fun next => next.rank < pc.rank) fun _ => True := by
  obtain ⟨active, loaded, points⟩ := tries
  cases pc with
  | load waker orCancel =>
      obtain ⟨rfl, rfl, wlock⟩ := points
      cases wake : m.state.wake <;>
        simp [ReadPc.step, loop, Outcome.elim, rank, active, loaded, wlock, wake]
  | register prev waker orCancel =>
      obtain ⟨rfl, rfl, wlock, rfl⟩ := points
      cases wake : m.state.wake <;> simp [ReadPc.step, registered, Outcome.elim, rank, wake]
  | clearPrev prev waker orCancel =>
      obtain ⟨rfl, rfl⟩ := points
      simp [ReadPc.step, registered, Outcome.elim, rank]
  | unlockBare orCancel =>
      obtain rfl : orCancel = false := points
      simp [ReadPc.step, Outcome.elim, active, loaded]
  | _ => exact points.elim

end ReadPc

namespace DropPc

/-- The points of a drop that is alone at a channel which the other side has
not left. -/
def Tries (m : World T W) : DropPc W → Prop
  | lock => m.state.active = true ∧ m.state.wlock = false
  | takeWaker | clearOwn | unlock _ => m.state.active = true
  | wake _ last => last = false
  | clearValue _ | clearWaker | close | clearLast => False

theorem Tries.step {pc : DropPc W} (isWriter : Bool) (tries : pc.Tries m) :
    (pc.step isWriter m).2.elim (Tries (pc.step isWriter m).1) fun last => last = false := by
  cases pc with
  | lock =>
      obtain ⟨active, wlock⟩ := tries
      cases wake : m.state.wake <;> cases loaded : (m.state.loaded ^^ isWriter) <;>
        simp [DropPc.step, Outcome.elim, Tries, World.fetchOr, active, wlock, wake, loaded]
  | takeWaker | clearOwn => exact tries
  | unlock waker =>
      have active : m.state.active = true := tries
      cases waker <;> simp [DropPc.step, finish, Outcome.elim, Tries, active]
  | wake waker last =>
      obtain rfl : last = false := tries
      rfl
  | _ => exact tries.elim

theorem Tries.falls {pc : DropPc W} (isWriter : Bool) (tries : pc.Tries m) :
    (pc.step isWriter m).2.elim (fun next => next.rank < pc.rank) fun _ => True := by
  cases pc with
  | lock =>
      obtain ⟨active, wlock⟩ := tries
      cases wake : m.state.wake <;> cases loaded : (m.state.loaded ^^ isWriter) <;>
        simp [DropPc.step, Outcome.elim, rank, active, wlock, wake, loaded]
  | unlock waker =>
      have active : m.state.active = true := tries
      cases waker <;> simp [DropPc.step, finish, Outcome.elim, rank, active]
  | wake waker last =>
      obtain rfl : last = false := tries
      simp [DropPc.step, finish, Outcome.elim]
  | takeWaker | clearOwn => simp [DropPc.step, Outcome.elim, rank]
  | _ => exact tries.elim

end DropPc

/-! ## Whole calls -/

namespace Observed

variable {o o' : Observed T W}

/-- A `try_recv`, or `try_join`, made in `o` has returned in `o'`, and no other
call has been made meanwhile. -/
def Tries (kind : Kind) (o o' : Observed T W) : Prop :=
  ∃ (steps : List Bool) (next : ReceiverHandle),
    runFrom (Observed.step kind) o
      (.base (.recv .tryRecv) :: steps.map fun spurious => .base (.receiver spurious)) = some o' ∧
    o'.system.receiver = .idle next

/-- The call has answered `Pending`, and the handle still has its channel. -/
def Harmless (o o' : Observed T W) : Prop :=
  o'.answers = o.answers ++ [.pending] ∧ o'.system.receiver = .idle .connected

/-- Both sides are between calls, the receiving side has its channel, the
sending side is alive, and nothing is loaded. -/
structure Waits (o : Observed T W) : Prop where
  sender : ∃ handle, o.system.sender = .idle handle
  receiver : o.system.receiver = .idle .connected
  alive : o.system.world.senderClosed = false
  unloaded : o.system.world.state.loaded = false

/-- What such a call has done so far, with the answers given before it. -/
def Trying (kind : Kind) (before : List (Answer T)) (o : Observed T W) : Prop :=
  match o.system.receiver with
  | .reading .tryRecv pc => pc.Tries o.system.world ∧ o.answers = before
  | .dropping .detached pc =>
      kind ≠ .channel ∧ pc.Tries o.system.world ∧ o.answers = before ++ [.incomplete]
  | .idle next =>
      next = (if kind = .channel then .connected else .detached) ∧
        o.answers = before ++ [.incomplete]
  | _ => False

variable {before : List (Answer T)}

theorem Trying.step (trying : o.Trying kind before)
    (step : Observed.step kind o (.base (.receiver spurious)) = some o') :
    o'.Trying kind before ∧
      (spurious = false → o'.system.receiver.rank < o.system.receiver.rank) := by
  rcases o with ⟨⟨m, S, R⟩, calls, answers, stored, woken, dropped⟩
  simp only [Observed.step, System.step, Option.map_map, Option.map_eq_some_iff] at step
  obtain ⟨⟨m', R'⟩, step, rfl⟩ := step
  have stepped := Receiver.stepped step
  induction stepped with
  | @read call pc next _ inner =>
      cases call with
      | tryRecv =>
          obtain ⟨tries, rfl⟩ := trying
          have moved := tries.step spurious
          rw [inner] at moved
          refine ⟨⟨moved, ?_⟩, ?_⟩
          · simp [Observed.answer, Receiver.answer, inner, Outcome.elim]
          · rintro rfl
            have falls := tries.falls
            rw [inner] at falls
            exact Nat.add_lt_add_right falls 7
      | _ => exact trying.elim
  | @readEnd call pc result after inner =>
      cases call with
      | tryRecv =>
          obtain ⟨tries, rfl⟩ := trying
          have ended := tries.step spurious
          rw [inner] at ended
          obtain ⟨rfl, active, wlock⟩ := ended
          have answered : Observed.answer kind ⟨m, S, .reading .tryRecv pc⟩ (.receiver spurious) =
              some .incomplete := by
            simp [Observed.answer, Receiver.answer, inner, Outcome.elim, ReceiveCall.answer,
              Answer.result]
          by_cases isChannel : kind = .channel
          · subst isChannel
            refine ⟨⟨rfl, by simp [answered]⟩, fun _ => ?_⟩
            simp [Receiver.finishRead, Receiver.finishTry, Receiver.keepUnless, Receiver.rank]
          · simp only [Trying, Receiver.finishRead, Receiver.finishTry, if_neg isChannel,
              Receiver.closeWith]
            refine ⟨⟨isChannel, ⟨active, wlock⟩, by simp [answered]⟩, fun _ => ?_⟩
            simp [Receiver.rank, DropPc.rank]
      | _ => exact trying.elim
  | unpark => exact trying.elim
  | @drop handle pc next _ inner =>
      cases handle with
      | detached =>
          obtain ⟨once, tries, rfl⟩ := trying
          have moved := tries.step false
          have falls := tries.falls false
          rw [inner] at moved falls
          refine ⟨⟨once, moved, ?_⟩, fun _ => Nat.add_lt_add_right falls 2⟩
          simp [Observed.answer, Receiver.answer]
      | _ => exact trying.elim
  | @dropEnd handle pc last after inner =>
      cases handle with
      | detached =>
          obtain ⟨once, tries, rfl⟩ := trying
          have ended := tries.step false
          rw [inner] at ended
          obtain rfl : last = false := ended
          refine ⟨⟨by rw [if_neg once], ?_⟩, fun _ => ?_⟩
          · simp [Observed.answer, Receiver.answer]
          · simp [Receiver.finishDrop, Receiver.rank]
      | _ => exact trying.elim
  | free => exact trying.elim

theorem Trying.run {steps : List Bool} (trying : o.Trying kind before)
    (ran : runFrom (Observed.step kind) o
      (steps.map fun spurious => .base (.receiver spurious)) = some o') :
    o'.Trying kind before := by
  induction steps generalizing o with
  | nil =>
      obtain rfl := Option.some.inj ran
      exact trying
  | cons spurious steps ih =>
      rw [List.map_cons, runFrom_cons, Option.bind_eq_some_iff] at ran
      obtain ⟨next, step, ran⟩ := ran
      exact ih (trying.step step).1 ran

/-- The call returns within finitely many accesses. -/
theorem Trying.returns (trying : o.Trying kind before) :
    ∃ (steps : List Bool) (o' : Observed T W) (next : ReceiverHandle),
      runFrom (Observed.step kind) o
        (steps.map fun spurious => .base (.receiver spurious)) = some o' ∧
      o'.system.receiver = .idle next := by
  induction left : o.system.receiver.rank using Nat.strong_induction_on generalizing o with
  | _ n ih =>
      by_cases atRest : ∃ next, o.system.receiver = .idle next
      · obtain ⟨next, isIdle⟩ := atRest
        exact ⟨[], o, next, rfl, isIdle⟩
      · obtain ⟨middle, step⟩ :
            ∃ middle, Observed.step kind o (.base (.receiver false)) = some middle := by
          rcases o with ⟨⟨m, S, R⟩, calls, answers, stored, woken, dropped⟩
          cases R with
          | idle next => exact absurd ⟨next, rfl⟩ atRest
          | reading call pc =>
              rcases inner : pc.step false m with ⟨after, next | result⟩ <;>
                simp [Observed.step, System.step, Receiver.step, inner]
          | dropping handle pc =>
              rcases inner : pc.step false m with ⟨after, next | last⟩ <;>
                simp [Observed.step, System.step, Receiver.step, inner]
          | parked | freeing => exact trying.elim
        obtain ⟨stillTrying, falls⟩ := trying.step step
        obtain ⟨steps, o', next, ran, isIdle⟩ :=
          ih _ (left ▸ falls rfl) stillTrying rfl
        refine ⟨false :: steps, o', next, ?_, isIdle⟩
        rw [List.map_cons, runFrom_cons, step]
        exact ran

/-- The locks of the pair are as they should be. -/
structure Known (kind : Kind) (o : Observed T W) : Prop where
  sound : o.system.Sound kind
  held : o.system.LockHeld kind

theorem Known.step {label : ObservedLabel T W} (known : o.Known kind)
    (step : Observed.step kind o label = some o') : o'.Known kind := by
  obtain ⟨sound, held⟩ := known
  cases label with
  | base label =>
      simp only [Observed.step, Option.map_eq_some_iff] at step
      obtain ⟨next, step, rfl⟩ := step
      exact ⟨sound.step step, held.step sound step⟩
  | isCanceled =>
      simp only [Observed.step] at step
      split at step
      · obtain rfl := Option.some.inj step
        exact ⟨sound.access, held.sender_keep rfl id id⟩
      · cases step

theorem Known.of_reachable (reachable : Reachable (Observed.step kind) {} o) : o.Known kind := by
  apply reachable.invariant ⟨.init, .init⟩
  intro before label after known _ step
  exact known.step step

theorem Waits.begin (known : o.Known kind) (waits : o.Waits) :
    ∃ next, Observed.step kind o (.base (.recv .tryRecv)) = some next ∧
      next.Trying kind o.answers := by
  obtain ⟨sound, held⟩ := known
  obtain ⟨⟨handle, sender⟩, receiver, alive, unloaded⟩ := waits
  have active : o.system.world.state.active = true := by
    rw [sound.locks.active_eq, alive, sound.connected_open receiver]
    rfl
  have wlock := held.unlocked sender receiver active
  rcases o with ⟨⟨m, S, R⟩, calls, answers, stored, woken, dropped⟩
  obtain rfl : R = .idle .connected := receiver
  refine ⟨_, rfl, ⟨active, unloaded, rfl, rfl, wlock⟩, ?_⟩
  exact List.append_nil _

end Observed

/-- In every run of every kind of pair, a receive that does not wait and is
made between calls, with the sending side alive and nothing loaded, returns, and
never `Pending`: it reports the end, and the handle has kept its channel only if
it is a `Receiver`. -/
theorem tryRecv_reports_end {o : Observed T W} (reachable : Reachable (Observed.step kind) {} o)
    (waits : o.Waits) : (∃ o', o.Tries kind o') ∧ ∀ o', o.Tries kind o' →
      ¬ o.Harmless o' ∧ o'.answers = o.answers ++ [.incomplete] ∧
        (o'.system.receiver = .idle .connected ↔ kind = .channel) := by
  obtain ⟨begun, begins, trying⟩ := waits.begin (.of_reachable reachable)
  constructor
  · obtain ⟨steps, o', next, ran, isIdle⟩ := trying.returns
    refine ⟨o', steps, next, ?_, isIdle⟩
    rw [runFrom_cons, begins]
    exact ran
  · rintro o' ⟨steps, next, ran, isIdle⟩
    rw [runFrom_cons, begins] at ran
    have ended := trying.run ran
    simp only [Observed.Trying, isIdle] at ended
    obtain ⟨rfl, answers⟩ := ended
    refine ⟨?_, answers, ?_⟩
    · rintro ⟨pending, -⟩
      rw [answers] at pending
      simp at pending
    · rw [isIdle]
      by_cases isChannel : kind = .channel <;> simp [isChannel]

/-- The sending side of a `send_once` pair is alive, and the waker of a poll is
registered. -/
theorem tryRecv_reports_end_of_poll : ∃ o : Observed Nat Nat, o.system.world.waker = some 1 ∧
    (∃ o', o.Tries .sendOnce o') ∧ ∀ o', o.Tries .sendOnce o' →
      ¬ o.Harmless o' ∧ o'.answers = o.answers ++ [.incomplete] ∧
        (o'.system.receiver = .idle .connected ↔ Kind.sendOnce = .channel) := by
  obtain ⟨o, ran, waker, sender, receiver, alive, unloaded⟩ : ∃ o ∈ runFrom
      (Observed.step .sendOnce) ({} : Observed Nat Nat)
      (List.flatten [[.base (.recv (.poll 1))], List.replicate 4 (.base (.receiver false))]),
      o.system.world.waker = some 1 ∧ o.system.sender = .idle .connected ∧
        o.system.receiver = .idle .connected ∧ o.system.world.senderClosed = false ∧
          o.system.world.state.loaded = false := by
    decide
  exact ⟨o, waker,
    tryRecv_reports_end (reachable_of_runFrom ran) ⟨⟨_, sender⟩, receiver, alive, unloaded⟩⟩

/-- A `try_recv` on a fresh `send_once` pair closes it. -/
theorem tryRecv_closes : ¬ ∀ o o' : Observed Nat Nat, Reachable (Observed.step .sendOnce) {} o →
    o.Waits → o.Tries .sendOnce o' → o.Harmless o' := by
  intro always
  obtain ⟨o', ran, answers, receiver⟩ : ∃ o' ∈ runFrom (Observed.step .sendOnce)
      ({} : Observed Nat Nat) (.base (.recv .tryRecv) ::
        [false, false, false].map fun spurious => .base (.receiver spurious)),
      o'.answers = [.incomplete] ∧ o'.system.receiver = .idle .detached := by
    decide
  have waits : ({} : Observed Nat Nat).Waits := ⟨⟨_, rfl⟩, rfl, rfl, rfl⟩
  obtain ⟨-, stays⟩ := always {} o' (.refl _ _ _) waits ⟨_, _, ran, receiver⟩
  rw [receiver] at stays
  cases stays

end Suspend.Channel
