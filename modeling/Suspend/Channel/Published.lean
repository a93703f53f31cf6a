import Suspend.Channel.Frame
import Suspend.Channel.Locks

/-!
# A published value wakes the waiting receiver

A poll that returns `Pending` leaves its waker in the cell with the lock free,
or has woken it.  From then on only the sending side moves, and its write takes
the waker out of the cell before it returns.
-/

namespace Suspend.Channel

open Suspend.Transition

universe u v

variable {T : Type u} {W : Type v}

/-! ## The waiting receiver -/

/-- The waker is in the cell, where the next write will find it. -/
structure World.Armed (m : World T W) (waker : W) : Prop where
  stored : m.waker = some waker
  wake : m.state.wake = true
  free : m.state.wlock = false
  unloaded : m.state.loaded = false

theorem World.Armed.keep {m m' : World T W} {waker : W} (armed : m.Armed waker)
    (stored : m'.waker = m.waker) (state : m'.state = m.state) : m'.Armed waker := by
  obtain ⟨isStored, wake, free, unloaded⟩ := armed
  refine ⟨stored.trans isStored, ?_, ?_, ?_⟩ <;> rw [state] <;> assumption

/-- The waker with which a receiving call polls. -/
def ReceiveCall.waker : ReceiveCall W → Option W
  | .poll waker | .recv waker | .timeout waker => some waker
  | _ => none

namespace ReadPc

/-- The waker among the locals of a read. -/
def waker : ReadPc T W → Option W
  | load waker _ | lock _ waker _ | cancel _ waker | register _ waker _ | clearPrev _ waker _ =>
      waker
  | storeWaker _ waker _ | release _ waker _ | wake waker => some waker
  | _ => none

/-- A read that has moved its waker into the cell and out of it again. -/
def spent : ReadPc T W → Bool
  | load waker _ | lock _ waker _ | register _ waker _ | clearPrev _ waker _ => waker.isNone
  | clearOwn _ | unlockOwn _ | unlockBare _ => true
  | _ => false

/-- What a read with `own` as its waker relies on: the cell is as it left it,
and once it has spent the waker there is something for it to find. -/
@[mk_iff]
structure Attends (own : W) (m : World T W) (pc : ReadPc T W) : Prop where
  waker : pc.waker = none ∨ pc.waker = some own
  stored : ∀ prev orCancel, pc = .release prev own orCancel → m.state.active = true →
    m.waker = some own
  spent : pc.spent = true → m.state.loaded = true ∨ m.state.active = false

/-- A read returns `Pending` with its waker in the cell, or woken. -/
def Pends (own : W) (m : World T W) : PollResult T → Prop
  | .pending => own ∈ m.wokenSinceReceive ∨ m.Armed own
  | _ => True

end ReadPc

variable {m m' : World T W} {S : SendSections} {R : RecvSections} {own waker : W}

theorem ReadPc.loop_attends {prev : State} {waker : Option W} {orCancel : Bool}
    (has : waker = none ∨ waker = some own)
    (seen : prev.loaded = m.state.loaded ∧ prev.active = m.state.active)
    (spent : waker = none → m.state.loaded = true ∨ m.state.active = false) :
    (ReadPc.loop (T := T) prev waker orCancel).elim (ReadPc.Attends own m)
    (ReadPc.Pends own m) := by
  obtain ⟨loaded, active⟩ := seen
  rcases has with rfl | rfl <;> simp only [ReadPc.loop] <;> split_ifs <;>
    first
    | trivial
    | (constructor <;> simp_all [ReadPc.waker, ReadPc.spent])

/-- A reader of a poll finds its waker where it put it. -/
theorem ReadPc.Attends.step {pc : ReadPc T W} (spurious : Bool) (locks : Locks m S pc.sections)
    (points : pc.Local false) (attends : pc.Attends own m) :
    (pc.step spurious m).2.elim (ReadPc.Attends own (pc.step spurious m).1)
      (ReadPc.Pends own (pc.step spurious m).1) := by
  have registering := locks.registering
  obtain ⟨has, stored, spent⟩ := attends
  have looks (m' : World T W) (waker : Option W) (orCancel : Bool)
      (has : waker = none ∨ waker = some own)
      (spent : waker = none → m'.state.loaded = true ∨ m'.state.active = false) :
      (ReadPc.loop (T := T) m'.state waker orCancel).elim (ReadPc.Attends own m')
        (ReadPc.Pends own m') :=
    ReadPc.loop_attends has ⟨rfl, rfl⟩ spent
  cases pc with
  | load waker orCancel =>
      exact looks m.access waker orCancel has fun isNone => spent (by simp [ReadPc.spent, isNone])
  | lock prev waker orCancel =>
      have missed := looks m.access waker orCancel has
        fun isNone => spent (by simp [ReadPc.spent, isNone])
      simp only [ReadPc.step]
      split_ifs
      · constructor <;> simp [ReadPc.waker, ReadPc.spent]
      · exact missed
  | cancel prev waker => simp [ReadPc.Local] at points
  | register prev waker orCancel =>
      by_cases exchanged : m.state = prev ∧ !spurious
      · simp only [ReadPc.step, if_pos exchanged, ReadPc.registered]
        obtain rfl := exchanged.1
        obtain ⟨active, unloaded, _⟩ := points
        have isSome : waker ≠ none := by
          intro isNone
          have found := spent (by simp [ReadPc.spent, isNone])
          simp [active, unloaded] at found
        cases waker with
        | none => exact (isSome rfl).elim
        | some waker =>
            split_ifs <;> constructor <;> simp_all [ReadPc.waker, ReadPc.spent]
      · simp only [ReadPc.step, if_neg exchanged]
        exact looks m.access waker orCancel has fun isNone => spent (by simp [ReadPc.spent, isNone])
  | clearPrev prev waker orCancel =>
      cases waker <;> constructor <;>
        simp_all [ReadPc.step, ReadPc.registered, ReadPc.waker, ReadPc.spent, World.loadWaker,
          World.access]
  | storeWaker prev waker orCancel =>
      constructor <;> simp_all [ReadPc.step, ReadPc.waker, ReadPc.spent, World.storeWaker]
  | release prev waker orCancel =>
      obtain ⟨active, unloaded, wlock, rlock, _⟩ := points
      by_cases exchanged : m.state = prev.set { rlock := true, wlock := true, wake := true }
      · simp only [ReadPc.step, if_pos exchanged]
        obtain rfl : waker = own := by simpa [ReadPc.waker] using has
        refine .inr ⟨?_, ?_, ?_, ?_⟩
        · exact stored prev orCancel rfl (by simp [exchanged, active])
        · simp [World.store]
        · simp [World.store, wlock]
        · simp [World.store, unloaded]
      · simp only [ReadPc.step, if_neg exchanged]
        -- the state word has changed under both locks: a value, or a side gone
        have changed : m.state.loaded = true ∨ m.state.active = false := by
          by_contra unchanged
          obtain ⟨stillUnloaded, stillActive⟩ := not_or.mp unchanged
          have held := registering rfl
          have reads := locks.rlock_eq
          apply exchanged
          ext <;> simp_all [ReadPc.sections]
        constructor <;> simp_all [ReadPc.waker, ReadPc.spent, World.access]
  | clearOwn orCancel =>
      constructor <;>
        simp_all [ReadPc.step, ReadPc.waker, ReadPc.spent, World.loadWaker, World.access]
  | unlockOwn orCancel =>
      exact looks (m.fetchAnd { rlock := true, wlock := true, wake := true }) none orCancel
        (.inl rfl) fun _ => by simpa [World.fetchAnd] using spent rfl
  | unlockBare orCancel =>
      simp only [ReadPc.step]
      split_ifs
      · trivial
      · exact looks (m.fetchAnd { rlock := true, wlock := true, wake := true }) none orCancel
          (.inl rfl) fun _ => by simpa [World.fetchAnd] using spent rfl
  | wake waker =>
      obtain rfl : waker = own := by simpa [ReadPc.waker] using has
      exact .inl (List.mem_cons_self ..)
  | swap prev =>
      simp only [ReadPc.step]
      split_ifs
      · constructor <;> simp [ReadPc.waker, ReadPc.spent]
      · trivial
  | take prev =>
      simp only [ReadPc.step]
      split_ifs <;> constructor <;> simp [ReadPc.waker, ReadPc.spent]
  | unlock prev value flushWaker =>
      cases flushWaker
      · trivial
      · constructor <;> simp [ReadPc.waker, ReadPc.spent]
  | takeClosed | wakeFlush => trivial
  | takeFlush => constructor <;> simp [ReadPc.waker, ReadPc.spent]

/-! ## The sending side, as a registering reader sees it -/

/-- Some section of the sending side has the waker lock. -/
def SendSections.holds (S : SendSections) : Bool :=
  S.writeHolds || S.flushHolds || S.dropHolds

/-- A step that leaves the waker alone unless the lock is held, and what a
reader could look for in place. -/
@[mk_iff]
structure World.Respects (holds : Bool) (m m' : World T W) : Prop where
  active : m'.state.active = true → m.state.active = true
  loaded : m.state.loaded = true → m'.state.loaded = true ∨ m'.state.active = false
  waker : holds = false → m'.state.active = true → m'.waker = m.waker

theorem WritePc.respects {finalize last : Bool} {pc : WritePc T W} (spurious : Bool)
    (locks : Locks m (pc.sections last) R) :
    m.Respects (pc.sections last).holds (pc.step finalize spurious m).1 := by
  have closed := locks.sender_closed
  cases pc <;> simp only [WritePc.step] <;> rw [World.respects_iff] <;>
    grind -linarith -ring -order -lia -ac [WritePc.sections, SendSections.holds, State.set,
      State.unset, World.access, World.fetchOr, World.fetchAnd, World.store, World.publish,
      World.closeSender, World.storeValue, World.loadValue, World.storeWaker, World.loadWaker,
      World.wake]

theorem FlushPc.respects {finalize : Bool} {pc : FlushPc W} (spurious : Bool)
    (locks : Locks m (pc.sections finalize) R) (points : pc.Local finalize) :
    m.Respects (pc.sections finalize).holds (pc.step finalize spurious m).1 := by
  have closed := locks.sender_closed
  cases pc <;> simp only [FlushPc.step] <;> rw [World.respects_iff] <;>
    grind -linarith -ring -order -lia -ac [FlushPc.sections, FlushPc.Local, SendSections.holds,
      State.set, State.unset, State.done, World.access, World.fetchAnd, World.store,
      World.closeSender, World.loadValue, World.storeWaker, World.loadWaker, World.wake]

theorem DropPc.respects {live : Bool} {pc : DropPc W}
    (locks : Locks m (pc.sendSections live) R) :
    m.Respects (pc.sendSections live).holds (pc.step true m).1 := by
  have closed := locks.sender_closed
  cases pc <;> simp only [DropPc.step, DropPc.closeSide] <;> rw [World.respects_iff] <;>
    grind -linarith -ring -order -lia -ac [DropPc.sendSections, DropPc.holds, DropPc.closed,
      SendSections.holds, State.set, State.unset, World.access, World.fetchOr, World.fetchAnd,
      World.closeSender, World.clearValue, World.loadValue, World.loadWaker, World.wake]

/-- The accesses and wakes of a side, without the bookkeeping of its calls. -/
structure World.SameMemory (m m' : World T W) : Prop where
  state : m'.state = m.state
  value : m'.value = m.value
  waker : m'.waker = m.waker
  sender : m'.senderClosed = m.senderClosed
  receiver : m'.receiverClosed = m.receiverClosed
  wokenSinceReceive : m'.wokenSinceReceive = m.wokenSinceReceive
  wokenSinceFlush : m'.wokenSinceFlush = m.wokenSinceFlush
  receiverPoll : m'.receiverPoll = m.receiverPoll
  lastPoll : m'.lastPoll = m.lastPoll

theorem Sender.Noted.memory (noted : Noted m m') : m.SameMemory m' := by
  induction noted <;> exact ⟨rfl, rfl, rfl, rfl, rfl, rfl, rfl, rfl, rfl⟩

/-- The end of a write touches the histories only. -/
theorem World.SameMemory.ended {result : WriteResult T}
    (same : (m.endWrite result).SameMemory m') : m.SameMemory m' :=
  ⟨same.state, same.value, same.waker, same.sender, same.receiver, same.wokenSinceReceive,
    same.wokenSinceFlush, same.receiverPoll, same.lastPoll⟩

/-- The memory after the next access of the sending side. -/
def Sender.access (kind : Kind) (spurious : Bool) (m : World T W) : Sender T W → World T W
  | trySending pc | flushWriting _ _ pc => (pc.step kind.finalize spurious m).1
  | flushing _ _ pc => (pc.step kind.finalize spurious m).1
  | dropping pc => (pc.step true m).1
  | idle _ | freeing _ => m

variable {kind : Kind} {spurious : Bool}

theorem Sender.Stepped.memory {s s' : Sender T W} (step : s.Stepped kind spurious m m' s') :
    (s.access kind spurious m).SameMemory m' := by
  induction step with
  | trySend inner | flushWrite inner | flush inner | drop inner =>
      simp only [Sender.access, inner]
      exact ⟨rfl, rfl, rfl, rfl, rfl, rfl, rfl, rfl, rfl⟩
  | trySendEnd inner =>
      simp only [Sender.access, inner]
      exact (finishTrySend_noted ..).memory.ended
  | flushWriteEnd inner =>
      simp only [Sender.access, inner]
      exact (finishFlushWrite_noted ..).memory.ended
  | flushEnd inner =>
      simp only [Sender.access, inner]
      exact (finishFlush_noted ..).memory
  | @dropEnd _ last _ inner =>
      simp only [Sender.access, inner]
      cases last <;> exact ⟨rfl, rfl, rfl, rfl, rfl, rfl, rfl, rfl, rfl⟩
  | free => exact ⟨rfl, rfl, rfl, rfl, rfl, rfl, rfl, rfl, rfl⟩

theorem World.Respects.memory {holds : Bool} {after : World T W} (respects : m.Respects holds after)
    (same : after.SameMemory m') : m.Respects holds m' := by
  obtain ⟨active, loaded, waker⟩ := respects
  constructor
  · rw [same.state]
    exact active
  · rw [same.state]
    exact loaded
  · rw [same.state, same.waker]
    exact waker

theorem Sender.Stepped.respects {s s' : Sender T W} (locks : Locks m (s.sections kind) R)
    (points : s.Local kind) (step : s.Stepped kind spurious m m' s') :
    m.Respects (s.sections kind).holds m' := by
  have same := step.memory
  refine World.Respects.memory ?_ same
  cases s with
  | idle handle | freeing next => exact ⟨id, .inl, fun _ _ => rfl⟩
  | trySending pc => exact WritePc.respects spurious locks
  | flushWriting owner waker pc => exact WritePc.respects spurious locks
  | flushing owner waker pc => exact FlushPc.respects spurious locks points.1
  | dropping pc => exact DropPc.respects locks

/-- A registering reader keeps what it relies on while the sending side moves. -/
theorem ReadPc.Attends.respect {pc : ReadPc T W} {holds : Bool} (attends : pc.Attends own m)
    (respects : m.Respects holds m') (excluded : pc.sections.registering = true → holds = false) :
    pc.Attends own m' := by
  obtain ⟨has, stored, spent⟩ := attends
  refine ⟨has, ?_, ?_⟩
  · rintro prev orCancel rfl active
    exact (respects.waker (excluded rfl) active).trans
      (stored prev orCancel rfl (respects.active active))
  · intro isSpent
    rcases spent isSpent with loaded | inactive
    · exact respects.loaded loaded
    · right
      by_contra active
      have wasActive := respects.active (by simpa using active)
      simp [inactive] at wasActive

/-! ## The sending side, as a waiting receiver sees it -/

namespace WritePc

/-- The write has taken the lock over `waker`, or the waker out of the cell. -/
def Carries (waker : W) (m : World T W) : WritePc T W → Prop
  | takeReader prev _ =>
      m.waker = some waker ∧ m.state = prev.set { loaded := true, wlock := true, wake := true }
  | storeWaker prev _ readWaker | release prev _ readWaker =>
      readWaker = some waker ∧
        m.state = prev.set { loaded := true, wlock := true, wake := true }
  | unlock readWaker => readWaker = some waker
  | wake taken => taken = waker
  | _ => False

/-- The write, or a later one of the same side, may still publish. -/
def publishes (goesOn : Bool) : WritePc T W → Bool
  | load .. | store .. | fast _ | lock _ => true
  | _ => goesOn

end WritePc

/-- Accesses left before the write wakes the waker it carries. -/
def WritePc.left : WritePc T W → Nat
  | takeReader .. => 4
  | storeWaker .. => 3
  | release .. | unlock _ => 2
  | wake _ => 1
  | _ => 0

namespace Sender

def Carries (waker : W) (m : World T W) : Sender T W → Prop
  | trySending pc | flushWriting _ _ pc => pc.Carries waker m
  | _ => False

/-- Accesses left before the write in progress wakes the waker it carries. -/
def left : Sender T W → Nat
  | trySending pc | flushWriting _ _ pc => pc.left
  | _ => 0

/-- A value may still be published. -/
def publishes (kind : Kind) : Sender T W → Bool
  | idle .connected => true
  | idle (.flush owner channel value) => owner || (channel && value.isSome)
  | idle .detached | idle .gone | dropping _ | freeing _ => false
  | trySending pc => pc.publishes !kind.finalize
  | flushWriting owner _ pc => pc.publishes owner
  | flushing owner _ _ => owner

end Sender

/-- The waiting receiver has been woken, or the sending side is about to wake
it, or no value has been published since it registered. -/
def World.Alerts (waker : W) (m : World T W) (carries : Prop) (publishes : Bool) : Prop :=
  waker ∈ m.wokenSinceReceive ∨ carries ∨
    m.state.loaded = false ∧ (publishes = true → m.Armed waker)

/-- A write that carries the waker comes closer to waking it. -/
theorem WritePc.Carries.step {last : Bool} {pc : WritePc T W} (finalize spurious : Bool)
    (locks : Locks m (pc.sections last) R) (isOpen : m.receiverClosed = false)
    (carried : pc.Carries waker m) :
    (waker ∈ (pc.step finalize spurious m).1.wokenSinceReceive ∧
        (pc.step finalize spurious m).2 = .ret .ok) ∨
      ∃ next, (pc.step finalize spurious m).2 = .goto next ∧
        next.Carries waker (pc.step finalize spurious m).1 ∧ next.left < pc.left := by
  cases pc with
  | takeReader prev own =>
      obtain ⟨stored, word⟩ := carried
      refine .inr ⟨_, rfl, ?_⟩
      cases own <;>
        simp_all [WritePc.step, WritePc.locked, WritePc.Carries, WritePc.left, World.loadWaker,
          World.access]
  | storeWaker prev own readWaker =>
      exact .inr ⟨_, rfl, carried, by simp [WritePc.left]⟩
  | release prev own readWaker =>
      obtain ⟨rfl, word⟩ := carried
      refine .inr ⟨.wake waker, ?_, ?_⟩
      · simp [WritePc.step, word, WritePc.finish]
      · simp [WritePc.Carries, WritePc.left]
  | unlock readWaker =>
      obtain rfl : readWaker = some waker := carried
      have active : m.state.active = true := by
        rw [locks.active_eq, locks.live rfl, isOpen]
        rfl
      refine .inr ⟨.wake waker, ?_, ?_⟩
      · simp [WritePc.step, active, WritePc.finish]
      · simp [WritePc.Carries, WritePc.left]
  | wake taken =>
      obtain rfl : taken = waker := carried
      exact .inl ⟨List.mem_cons_self .., rfl⟩
  | _ => exact carried.elim

/-- A write that finds the lock free takes the waker along and wakes it. -/
theorem World.Alerts.write_step {last polled goesOn : Bool} {pc : WritePc T W}
    (finalize spurious : Bool) (locks : Locks m (pc.sections last) R) (points : pc.Local polled)
    (isOpen : m.receiverClosed = false)
    (alerts : m.Alerts waker (pc.Carries waker m) (pc.publishes goesOn)) :
    (pc.step finalize spurious m).1.Alerts waker
      ((pc.step finalize spurious m).2.elim
        (WritePc.Carries waker (pc.step finalize spurious m).1) fun _ => False)
      ((pc.step finalize spurious m).2.elim (WritePc.publishes goesOn) fun _ => goesOn) := by
  have writeHolds := locks.writeHolds
  rcases alerts with woken | carried | ⟨unloaded, armed⟩
  · left
    exact (pc.step_wakes finalize spurious m).mem_receive woken
  · rcases carried.step finalize spurious locks isOpen with ⟨woken, _⟩ | ⟨next, isNext, kept, _⟩
    · exact .inl woken
    · rw [isNext]
      exact .inr (.inl kept)
  · cases pc with
    | lock own =>
        obtain ⟨stored, wake, free, _⟩ := armed rfl
        refine .inr (.inl ?_)
        simp [WritePc.step, free, wake, Outcome.elim, WritePc.Carries, World.fetchOr,
          World.publish, World.access, stored]
    | fast state =>
        obtain ⟨_, wake, _, _⟩ := armed rfl
        have differs : ¬ (m.state = state ∧ !spurious) := by
          rintro ⟨rfl, _⟩
          simp [points.2.2.1] at wake
        refine .inr (.inr ?_)
        simp only [WritePc.step, if_neg differs]
        exact ⟨unloaded, fun _ => (armed rfl).keep rfl rfl⟩
    | load value own =>
        exact .inr (.inr ⟨unloaded, fun _ => (armed rfl).keep rfl rfl⟩)
    | store state value own =>
        exact .inr (.inr ⟨unloaded, fun _ => (armed rfl).keep rfl rfl⟩)
    | sync | takeBack | wake =>
        exact .inr (.inr ⟨unloaded, fun goesOn => (armed goesOn).keep rfl rfl⟩)
    | takeReader | storeWaker | release | clearWaker | unlockRead | unlock =>
        -- with the lock held the cell is not armed, so this write was the last
        have isLast : goesOn = false := by
          by_contra goes
          have free := (armed (by simpa [WritePc.publishes] using goes)).free
          simp [(writeHolds rfl).1] at free
        subst isLast
        refine .inr (.inr ?_)
        simp only [WritePc.step, WritePc.locked, WritePc.finish]
        refine ⟨?_, ?_⟩
        · grind -linarith -ring -order -lia -ac [State.set, State.unset, World.access,
            World.fetchAnd, World.store, World.closeSender, World.storeWaker, World.loadWaker]
        · grind -linarith -ring -order -lia -ac [Outcome.elim, WritePc.publishes]

/-- A flush finds no value to wait for, and leaves the armed cell alone. -/
theorem World.Alerts.flush_step {finalize owner : Bool} {pc : FlushPc W} (spurious : Bool)
    (locks : Locks m (pc.sections finalize) R) (points : pc.Local finalize)
    (isOpen : m.receiverClosed = false) (alerts : m.Alerts waker False owner) :
    (pc.step finalize spurious m).1.Alerts waker False owner := by
  have isActive := locks.active_eq
  have live := locks.live
  have closed := locks.sender_closed
  have flushHolds := locks.flushHolds
  rcases alerts with woken | never | ⟨unloaded, armed⟩
  · left
    exact (pc.step_wakes finalize spurious m).mem_receive woken
  · exact never.elim
  · refine .inr (.inr ?_)
    cases pc with
    | load | takeBack | wake => exact ⟨unloaded, fun goesOn => (armed goesOn).keep rfl rfl⟩
    | clearLocked | resetLocked => exact points.elim
    | finish =>
        refine ⟨by cases finalize <;> simp [FlushPc.step, World.fetchAnd, World.closeSender,
          World.access, unloaded], ?_⟩
        intro goesOn
        obtain ⟨stored, wake, free, _⟩ := armed goesOn
        cases finalize <;> constructor <;>
          simp [FlushPc.step, World.fetchAnd, World.closeSender, World.access, unloaded, stored,
            wake, free]
    | reset =>
        obtain rfl : finalize = false := points
        have inactive := closed rfl
        rw [isActive, live rfl, isOpen] at inactive
        simp at inactive
    | lock prev own =>
        have differs : ¬ (m.state = prev ∧ !spurious) := by
          rintro ⟨rfl, _⟩
          simp [points.2.1] at unloaded
        simp only [FlushPc.step, if_neg differs]
        split_ifs <;> exact ⟨unloaded, fun goesOn => (armed goesOn).keep rfl rfl⟩
    | clearPrev | storeWaker | release | clearOwn | unlock =>
        -- a flush that has the lock excludes an armed cell
        have isLast : owner = false := by
          by_contra goes
          have free := (armed (by simpa using goes)).free
          have held := (flushHolds rfl).1
          simp [free, isOpen] at held
        subst isLast
        simp only [FlushPc.step]
        refine ⟨?_, by simp⟩
        grind -linarith -ring -order -lia -ac [State.set, State.unset, World.access, World.fetchAnd,
          World.store, World.storeWaker, World.loadWaker, FlushPc.Local]

/-- A drop publishes nothing. -/
theorem World.Alerts.drop_step {pc : DropPc W} (alerts : m.Alerts waker False false) :
    (pc.step true m).1.Alerts waker False false := by
  rcases alerts with woken | never | ⟨unloaded, _⟩
  · left
    exact (pc.step_wakes true m).mem_receive woken
  · exact never.elim
  · refine .inr (.inr ⟨?_, by simp⟩)
    cases pc <;>
      simp [DropPc.step, DropPc.closeSide, World.access, World.fetchOr, World.fetchAnd,
        World.closeSender, World.clearValue, World.loadValue, World.loadWaker, World.wake,
        unloaded]

theorem World.Alerts.keep {carries carries' : Prop} {publishes publishes' : Bool}
    (alerts : m.Alerts waker carries publishes) (woken : m'.wokenSinceReceive = m.wokenSinceReceive)
    (stored : m'.waker = m.waker) (state : m'.state = m.state) (carry : carries → carries')
    (publish : publishes' = true → publishes = true) : m'.Alerts waker carries' publishes' := by
  rcases alerts with isWoken | carried | ⟨unloaded, armed⟩
  · exact .inl (woken ▸ isWoken)
  · exact .inr (.inl (carry carried))
  · exact .inr (.inr ⟨state ▸ unloaded, fun goesOn => (armed (publish goesOn)).keep stored state⟩)

theorem World.Alerts.sender_step {s s' : Sender T W} (locks : Locks m (s.sections kind) R)
    (points : s.Local kind) (isOpen : m.receiverClosed = false)
    (alerts : m.Alerts waker (s.Carries waker m) (s.publishes kind))
    (step : s.Stepped kind spurious m m' s') :
    m'.Alerts waker (s'.Carries waker m') (s'.publishes kind) := by
  induction step with
  | trySend inner =>
      have kept := World.Alerts.write_step kind.finalize spurious locks points isOpen alerts
      rw [inner] at kept
      exact kept
  | @trySendEnd _ result after inner =>
      have kept := World.Alerts.write_step kind.finalize spurious locks points isOpen alerts
      rw [inner] at kept
      have same := (Sender.finishTrySend_noted kind (after.endWrite result) result).memory
      refine kept.keep same.wokenSinceReceive same.waker same.state (fun never => never.elim) ?_
      cases kind with
      | channel => exact fun _ => rfl
      | sendOnce | taskFn => cases result <;> rintro ⟨⟩
  | flushWrite inner =>
      have kept := World.Alerts.write_step kind.finalize spurious locks points.1 isOpen alerts
      rw [inner] at kept
      exact kept
  | @flushWriteEnd owner own _ result after inner =>
      have kept := World.Alerts.write_step kind.finalize spurious locks points.1 isOpen alerts
      rw [inner] at kept
      have same :=
        (Sender.finishFlushWrite_noted kind owner own (after.endWrite result) result).memory
      refine kept.keep same.wokenSinceReceive same.waker same.state (fun never => never.elim) ?_
      cases result with
      | ok | panic => simp [Sender.finishFlushWrite, Sender.publishes, Outcome.elim]
      | err value dropped =>
          simp only [Sender.finishFlushWrite]
          split_ifs <;> simp [Sender.publishes, Outcome.elim]
  | @flush _ _ pc _ _ inner =>
      have kept := alerts.flush_step spurious locks points.1 isOpen
      rw [inner] at kept
      exact kept
  | @flushEnd owner own _ result after inner =>
      have kept := alerts.flush_step spurious locks points.1 isOpen
      rw [inner] at kept
      have same := (Sender.finishFlush_noted kind owner own after result).memory
      refine kept.keep same.wokenSinceReceive same.waker same.state (fun never => never.elim) ?_
      cases result with
      | pending | panic => simp [Sender.finishFlush, Sender.publishes]
      | ready value dropped =>
          simp only [Sender.finishFlush]
          split_ifs <;> simp [Sender.publishes]
  | @drop pc _ _ inner =>
      have kept : (pc.step true m).1.Alerts waker False false := alerts.drop_step
      rw [inner] at kept
      exact kept
  | @dropEnd pc last _ inner =>
      have kept : (pc.step true m).1.Alerts waker False false := alerts.drop_step
      rw [inner] at kept
      cases last <;> exact kept.keep rfl rfl rfl id id
  | @free next =>
      refine alerts.keep rfl rfl rfl (fun never => never.elim) ?_
      rcases next with _ | _ | ⟨owner, channel, value⟩ | _ <;>
        simp_all [Sender.publishes, Sender.Local]

/-! ## The receiving side -/

namespace Receiver

/-- A receiving side that makes no call, or is parked by one. -/
def waits : Receiver T W → Bool
  | idle .connected | parked _ => true
  | _ => false

/-- A poll in progress finds its waker where it put it. -/
def Attends (m : World T W) : Receiver T W → Prop
  | reading call pc => ∀ own, call.waker = some own → pc.Attends own m
  | _ => True

end Receiver

theorem ReadPc.attends_load (own : W) (orCancel : Bool) (m : World T W) :
    ReadPc.Attends own m (.load (some own) orCancel) := by
  simp [ReadPc.attends_iff, ReadPc.waker, ReadPc.spent]

theorem Receiver.Left.attends {call : ReceiveCall W} {result : PollResult T} {R' : Receiver T W}
    (left : Left kind m call result m' R') : R'.Attends m' := by
  induction left with
  | reading first =>
      rcases first with ⟨-, rfl⟩ | ⟨-, rfl⟩ <;> rintro _ ⟨⟩ <;> exact ReadPc.attends_load ..
  | _ => trivial

theorem Receiver.Noted.receiverPoll {result : PollResult T} (noted : Noted m result m')
    (answers : result ≠ .pending) (none : m.receiverPoll = none) :
    m'.receiverPoll = Option.none := by
  induction noted with
  | pends _ pending => exact absurd pending answers
  | begins => rfl
  | nothing | ends | panics => exact none

/-- A polling read that has returned `Pending` leaves its waker armed, or
woken. -/
theorem Receiver.finishRead_pends {call : ReceiveCall W} {result : PollResult T}
    (none : m.receiverPoll = none)
    (pends : ∀ own, call.waker = some own → ReadPc.Pends own m result) :
    (finishRead kind m call result).2.Attends (finishRead kind m call result).1 ∧
      ∀ own, (finishRead kind m call result).1.receiverPoll = some own →
        (finishRead kind m call result).2.waits = true ∧
          (own ∈ (finishRead kind m call result).1.wokenSinceReceive ∨
            (finishRead kind m call result).1.Armed own) := by
  refine ⟨(finishRead_left kind m call result).attends, ?_⟩
  cases result with
  | pending =>
      cases call with
      | poll own | recv own | timeout own =>
          rintro _ ⟨⟩
          refine ⟨rfl, ?_⟩
          rcases pends own rfl with woken | armed
          · exact .inl woken
          · exact .inr (armed.keep rfl rfl)
      | recvFirst | timeoutFirst => rintro _ ⟨⟩
      | tryRecv | timeoutLast | cancel =>
          intro own isPoll
          exact absurd (none.symm.trans isPoll) (by simp)
  | ready | panic =>
      intro own isPoll
      rw [(finishRead_noted kind m call _).receiverPoll (by simp) none] at isPoll
      cases isPoll

theorem Sender.access_calls (s : Sender T W) : m.SameCalls (s.access kind spurious m) := by
  cases s with
  | idle | freeing => exact ⟨rfl, rfl, rfl, rfl, rfl, rfl, rfl, rfl⟩
  | trySending pc | flushWriting _ _ pc => exact (pc.step_frame _ _ m).1
  | flushing _ _ pc => exact (pc.step_frame _ _ m).1
  | dropping pc => exact pc.step_calls true m

theorem Sender.begun_alerts {handle : SenderHandle T} {op : SendOp T W} {s' : Sender T W}
    (begun : Begun kind m handle op m' s') :
    m'.state = m.state ∧ m'.waker = m.waker ∧ m'.wokenSinceReceive = m.wokenSinceReceive ∧
      m'.receiverPoll = m.receiverPoll ∧
        (s'.publishes kind = true → (idle handle : Sender T W).publishes kind = true) := by
  induction begun with
  | @dropBorrow owner => cases owner <;> simp [publishes, World.discard]
  | _ => refine ⟨rfl, rfl, rfl, rfl, ?_⟩; simp [publishes, WritePc.publishes]

theorem Receiver.begun_alerts {handle : ReceiverHandle} {op : RecvOp W} {r' : Receiver T W}
    (begun : Begun kind m handle op m' r') (none : handle ≠ .connected → m.receiverPoll = none) :
    r'.Attends m' ∧ m'.receiverPoll = Option.none := by
  induction begun with
  | poll =>
      refine ⟨?_, rfl⟩
      rintro _ ⟨⟩
      exact ReadPc.attends_load ..
  | @read _ call isRead =>
      refine ⟨?_, rfl⟩
      have unpolled : call.waker = Option.none := by
        rcases isRead with ⟨_, rfl⟩ | ⟨_, _, rfl⟩ | ⟨_, _, rfl⟩ <;> rfl
      intro own isPoll
      simp [unpolled] at isPoll
  | cancel =>
      refine ⟨?_, rfl⟩
      intro own isPoll
      simp [ReceiveCall.waker] at isPoll
  | drop => exact ⟨trivial, rfl⟩
  | detached => exact ⟨trivial, none (by simp)⟩
  | leave => exact ⟨trivial, none (by simp)⟩

theorem Receiver.Attends.respect {r : Receiver T W} {holds : Bool} (attends : r.Attends m)
    (respects : m.Respects holds m') (excluded : r.sections.registering = true → holds = false) :
    r.Attends m' := by
  cases r with
  | reading call pc => exact fun own isPoll => (attends own isPoll).respect respects excluded
  | _ => trivial

/-- A step of the receiving side that is not waiting. -/
theorem Receiver.stepped_alerts {r r' : Receiver T W} (locks : Locks m S r.sections)
    (points : r.Local) (attends : r.Attends m) (none : r.waits = false → m.receiverPoll = none)
    (step : r.Stepped kind spurious m m' r') :
    r'.Attends m' ∧ ∀ own, m'.receiverPoll = some own → r'.waits = true ∧
      (own ∈ m'.wokenSinceReceive ∨ m'.Armed own) := by
  have attended {call : ReceiveCall W} {pc : ReadPc T W} (own : W) (isPoll : call.waker = some own)
      (points : pc.Local call.cancels) : pc.Local false := by
    cases call <;> first | exact points | cases isPoll
  cases step with
  | @read call pc next _ inner =>
      refine ⟨?_, ?_⟩
      · intro own isPoll
        have kept := (attends own isPoll).step spurious locks (attended own isPoll points)
        rw [inner] at kept
        exact kept
      · have same := (pc.step_frame spurious m).1.receiverPoll
        rw [inner] at same
        intro own isPoll
        rw [same, none rfl] at isPoll
        cases isPoll
  | @readEnd call pc result after inner =>
      have same := (pc.step_frame spurious m).1.receiverPoll
      rw [inner] at same
      apply Receiver.finishRead_pends (same.trans (none rfl))
      intro own isPoll
      have kept := (attends own isPoll).step spurious locks (attended own isPoll points)
      rw [inner] at kept
      exact kept
  | @unpark call own isParked =>
      refine ⟨?_, by simp [Receiver.beginPoll, World.beginPoll]⟩
      rcases isParked with rfl | rfl <;> rintro _ ⟨⟩ <;> exact ReadPc.attends_load ..
  | @drop handle pc _ _ inner =>
      refine ⟨trivial, ?_⟩
      have same := (pc.step_calls false m).receiverPoll
      rw [inner] at same
      have polled : m'.receiverPoll = Option.none := same.trans (none rfl)
      intro own isPoll
      simp [polled] at isPoll
  | @dropEnd handle pc last after inner =>
      have same := (pc.step_calls false m).receiverPoll
      rw [inner] at same
      have polled : after.receiverPoll = Option.none := same.trans (none rfl)
      refine ⟨by cases last <;> trivial, ?_⟩
      intro own isPoll
      simp [Receiver.finishDrop, polled] at isPoll
  | free =>
      refine ⟨trivial, ?_⟩
      intro own isPoll
      simp [World.dealloc, none rfl] at isPoll

/-! ## Runs -/

namespace System

variable {s s' : System T W} {label : Label T W}

/-- A poll in progress has its waker in place, and a poll that is waiting will
be woken by what is published. -/
structure Alerting (kind : Kind) (s : System T W) : Prop where
  attends : s.receiver.Attends s.world
  waits : ∀ own, s.world.receiverPoll = some own → s.receiver.waits = true ∧
    s.world.Alerts own (s.sender.Carries own s.world) (s.sender.publishes kind)

theorem Alerting.init : Alerting kind (System.init : System T W) :=
  ⟨trivial, fun _ isPoll => by cases isPoll⟩

/-- A waiting receiver has not closed the channel. -/
theorem Sound.isOpen (sound : Sound kind s) (waits : s.receiver.waits = true) :
    s.world.receiverClosed = false := by
  by_contra closed
  have ended := (sound.locks.receiver_ended (by simpa using closed)).1
  cases isReceiver : s.receiver with
  | idle handle => cases handle <;> simp_all [Receiver.waits, Receiver.sections]
  | _ => simp_all [Receiver.waits, Receiver.sections]

theorem Alerting.step (sound : Sound kind s) (alerting : Alerting kind s)
    (step : System.step kind s label = some s') : Alerting kind s' := by
  obtain ⟨attends, waits⟩ := alerting
  have idles (idle : s.receiver.waits = false) : s.world.receiverPoll = none := by
    cases isPoll : s.world.receiverPoll with
    | none => rfl
    | some own =>
        have busy := (waits own isPoll).1
        simp [idle] at busy
  have excluded : s.receiver.sections.registering = true →
      (s.sender.sections kind).holds = false := by
    have writes := sound.locks.writeHolds
    have flushes := sound.locks.flushHolds
    have drops := sound.locks.sender_dropHolds
    grind -linarith -ring -order -lia -ac [SendSections.holds]
  rcases System.step_cases step with ⟨handle, _, _, isIdle, same, begun⟩ |
    ⟨handle, op, _, isIdle, same, begun⟩ | ⟨spurious, rfl, same, stepped⟩ |
    ⟨_, rfl, same, stepped⟩ | ⟨_, _, parked, same, world, reads⟩
  · obtain ⟨state, stored, woken, polled, publish⟩ := Sender.begun_alerts begun
    refine ⟨?_, ?_⟩
    · rw [same]
      refine attends.respect ⟨fun active => state ▸ active, fun loaded => .inl (state ▸ loaded),
        fun _ _ => stored⟩ excluded
    · intro own isPoll
      rw [same]
      obtain ⟨busy, alerts⟩ := waits own (polled.symm.trans isPoll)
      rw [isIdle] at alerts
      exact ⟨busy, alerts.keep woken stored state (fun never => never.elim) publish⟩
  · have away : handle ≠ .connected → s.world.receiverPoll = none := by
      intro notConnected
      apply idles
      rw [isIdle]
      cases handle <;> first | rfl | exact (notConnected rfl).elim
    obtain ⟨attended, polled⟩ := Receiver.begun_alerts begun away
    exact ⟨attended, fun own isPoll => by rw [polled] at isPoll; cases isPoll⟩
  · have respects := stepped.respects sound.locks sound.sender
    refine ⟨same ▸ attends.respect respects excluded, ?_⟩
    intro own isPoll
    have polled := stepped.memory.receiverPoll.trans s.sender.access_calls.receiverPoll
    obtain ⟨busy, alerts⟩ := waits own (polled.symm.trans isPoll)
    exact ⟨same ▸ busy, alerts.sender_step sound.locks sound.sender (sound.isOpen busy) stepped⟩
  · obtain ⟨attended, waiting⟩ :=
      Receiver.stepped_alerts sound.locks sound.receiver attends idles stepped
    refine ⟨attended, ?_⟩
    intro own isPoll
    obtain ⟨busy, woken | armed⟩ := waiting own isPoll
    · exact ⟨busy, .inl woken⟩
    · exact ⟨busy, .inr (.inr ⟨armed.unloaded, fun _ => armed⟩)⟩
  · refine ⟨?_, ?_⟩
    · rw [reads]
      intro own isPoll
      simp [ReceiveCall.waker] at isPoll
    · rw [world]
      intro own isPoll
      simp [World.beginReceive] at isPoll

/-- Every run keeps the wakers of its receiving polls in place. -/
theorem Alerting.of_reachable (reachable : Reachable (System.step kind) System.init s) :
    Alerting kind s := by
  apply reachable.invariant_with (fun _ earlier => Sound.of_reachable earlier) init
  intro state label next sound alerting _ step
  exact alerting.step sound step

/-- The sending side's next access brings the wake closer. -/
theorem Sound.wakes_next {own : W} (sound : Sound kind s) (isOpen : s.world.receiverClosed = false)
    (carried : s.sender.Carries own s.world) :
    ∃ s', System.step kind s (.sender false) = some s' ∧ s'.world.receiverClosed = false ∧
      (own ∈ s'.world.wokenSinceReceive ∨
        s'.sender.Carries own s'.world ∧ s'.sender.left < s.sender.left) := by
  have locks := sound.locks
  have closed (pc : WritePc T W) :
      (pc.step kind.finalize false s.world).1.receiverClosed = s.world.receiverClosed := by
    cases pc <;> simp only [WritePc.step] <;> (try split_ifs) <;> rfl
  cases isSender : s.sender with
  | trySending pc =>
      rw [isSender] at carried locks
      rcases inner : pc.step kind.finalize false s.world with ⟨after, out⟩
      have stays := closed pc
      have wakes := WritePc.Carries.step kind.finalize false locks isOpen carried
      rw [inner] at stays wakes
      rcases wakes with ⟨woken, rfl⟩ | ⟨next, rfl, kept, less⟩
      · refine ⟨_, by simp [System.step, isSender, Sender.step, inner]; rfl, ?_, .inl ?_⟩
        · exact stays.trans isOpen
        · exact woken
      · refine ⟨{ s with world := after, sender := .trySending next }, ?_, stays.trans isOpen,
          .inr ⟨kept, less⟩⟩
        simp [System.step, isSender, Sender.step, inner]
  | flushWriting owner waker pc =>
      rw [isSender] at carried locks
      rcases inner : pc.step kind.finalize false s.world with ⟨after, out⟩
      have stays := closed pc
      have wakes := WritePc.Carries.step kind.finalize false locks isOpen carried
      rw [inner] at stays wakes
      rcases wakes with ⟨woken, rfl⟩ | ⟨next, rfl, kept, less⟩
      · refine ⟨_, by simp [System.step, isSender, Sender.step, inner]; rfl, ?_, .inl ?_⟩
        · exact stays.trans isOpen
        · exact woken
      · refine ⟨{ s with world := after, sender := .flushWriting owner waker next }, ?_,
          stays.trans isOpen, .inr ⟨kept, less⟩⟩
        simp [System.step, isSender, Sender.step, inner]
  | _ =>
      rw [isSender] at carried
      exact carried.elim

/-- A sending side that carries a waker wakes it, if it is let go on. -/
theorem Sound.wakes {own : W} (sound : Sound kind s) (isOpen : s.world.receiverClosed = false)
    (carried : s.sender.Carries own s.world) :
    ∃ n s', runFrom (System.step kind) s (List.replicate n (.sender false)) = some s' ∧
      own ∈ s'.world.wokenSinceReceive := by
  induction left : s.sender.left using Nat.strongRecOn generalizing s with
  | _ left ih =>
      obtain ⟨next, step, stillOpen, woken | ⟨kept, less⟩⟩ := sound.wakes_next isOpen carried
      · exact ⟨1, next, by simp [runFrom, step], woken⟩
      · obtain ⟨n, last, ran, woken⟩ :=
          ih next.sender.left (left ▸ less) (sound.step step) stillOpen kept rfl
        refine ⟨n + 1, last, ?_, woken⟩
        rw [List.replicate_succ, runFrom_cons, step]
        exact ran

/-- A value that is loaded has woken the waker of a poll that returned
`Pending` and was the latest call, or a write has that waker and will wake it. -/
structure PublishedWakes (kind : Kind) (s : System T W) : Prop where
  woken : ∀ own, s.world.state.loaded = true → s.world.receiverPoll = some own →
    own ∈ s.world.wokenSinceReceive ∨ s.sender.Carries own s.world
  will_wake : ∀ own, s.world.receiverPoll = some own → s.sender.Carries own s.world →
    ∃ n s', runFrom (System.step kind) s (List.replicate n (.sender false)) = some s' ∧
      own ∈ s'.world.wokenSinceReceive

end System

/-- In every run a published value wakes the receiver that waits for it. -/
theorem published_wakes {s : System T W} (reachable : Reachable (System.step kind) System.init s) :
    s.PublishedWakes kind := by
  have sound := System.Sound.of_reachable reachable
  have alerting := System.Alerting.of_reachable reachable
  constructor
  · intro own loaded isPoll
    obtain ⟨_, woken | carried | ⟨unloaded, _⟩⟩ := alerting.waits own isPoll
    · exact .inl woken
    · exact .inr carried
    · simp [loaded] at unloaded
  · intro own isPoll carried
    exact sound.wakes (sound.isOpen (alerting.waits own isPoll).1) carried

theorem published_wakes_in_write :
    ∃ s : System Nat Nat, s.world.state.loaded = true ∧ s.world.receiverPoll = some 1 ∧
      s.PublishedWakes .channel := by
  obtain ⟨s, ran, loaded, polled⟩ : ∃ s ∈ runFrom
      (guarded (System.step .channel) fun _ (_ : Label Nat Nat) => true) System.init
      [.recv (.poll 1), .receiver false, .receiver false, .receiver false, .receiver false,
        .send (.trySend 7), .sender false, .sender false, .sender false],
      s.world.state.loaded = true ∧ s.world.receiverPoll = some 1 := by
    decide
  exact ⟨s, loaded, polled, published_wakes (reachableUnder_of_runFrom ran).reachable⟩

end Suspend.Channel
