import Suspend.Channel.Locks
import Suspend.Transition.Handoff

/-!
# Who frees the channel

`STATE_ACTIVE` is the flag of a two-owner hand-off: a side leaves by clearing
it, and the side that finds it cleared frees.  Each program point is given its
stage, and every access but two turns out to be a move of the hand-off.  The
two are the sending side of a `SendOnce`: a `flush` that clears the flag while
the receiver is there keeps its pointer, and a `try_send` that finds the waker
lock taken returns without clearing the flag.
-/

namespace Suspend.Channel

open Suspend.Transition Suspend.Handoff

universe u v

variable {T : Type u} {W : Type v}

/-- The hand-off as one side sees it. -/
def World.handoff (m : World T W) (mine theirs : Stage) : Config :=
  ⟨m.state.active, mine, theirs, m.freed, m.stale⟩

/-! ## Stages -/

/-- The stage of a side that frees when it has found the channel inactive. -/
def Stage.ofLast (last : Bool) : Stage :=
  if last then .last else .using

/-- `last` as in `sections`; `frees` says that a failed write is the end of its
side. -/
def WritePc.stage (last frees : Bool) : WritePc T W → Stage
  | sync _ | takeBack => Stage.ofLast frees
  | clearWaker found _ => Stage.ofLast (frees && found.loaded && !found.rlock && !found.active)
  | wake _ => if last then .left else .using
  | _ => .using

def WritePc.stageAfter (last frees : Bool) : WriteResult T → Stage
  | .ok => if last then .left else .using
  | .err _ dropped => Stage.ofLast (frees && dropped)
  | .panic => .using

def FlushPc.stage (finalize : Bool) : FlushPc W → Stage
  | takeBack => Stage.ofLast finalize
  | _ => .using

def FlushPc.stageAfter (finalize : Bool) : PollResult T → Stage
  | .ready _ dropped => Stage.ofLast (finalize && dropped)
  | _ => .using

def ReadPc.stage : ReadPc T W → Stage
  | swap _ | takeClosed => .last
  | wakeFlush _ _ dropped => Stage.ofLast dropped
  | _ => .using

def ReadPc.stageAfter : PollResult T → Stage
  | .ready _ dropped => Stage.ofLast dropped
  | _ => .using

def DropPc.stage : DropPc W → Stage
  | clearValue _ | clearWaker | clearLast => .last
  | wake _ last => if last then .last else .left
  | _ => .using

def DropPc.stageAfter (last : Bool) : Stage :=
  if last then .last else .left

def Sender.stage (kind : Kind) : Sender T W → Stage
  | idle .connected => .using
  | idle (.flush owner channel _) => if owner || channel then .using else .left
  | idle .detached | idle .gone => .left
  | trySending pc => pc.stage kind.finalize true
  | flushWriting _ _ pc => pc.stage false kind.finalize
  | flushing _ _ pc => pc.stage kind.finalize
  | dropping pc => pc.stage
  | freeing _ => .last

def Receiver.stage : Receiver T W → Stage
  | idle .connected | parked _ => .using
  | idle .detached | idle .gone => .left
  | reading _ pc => pc.stage
  | dropping _ pc => pc.stage
  | freeing _ => .last

/-! ## The programs move the hand-off -/

section Programs

variable {m : World T W} {S : SendSections} {R : RecvSections} (theirs : Stage)

theorem WritePc.handoff {finalize polled last : Bool} {pc : WritePc T W} (spurious frees : Bool)
    (isLast : last = (finalize && !polled)) (points : pc.Local polled)
    (locked : ∀ waker, pc = .lock waker → last = true → m.state.wlock = false) :
    Move (m.handoff (pc.stage last frees) theirs)
      ((pc.step finalize spurious m).1.handoff
        ((pc.step finalize spurious m).2.elim (WritePc.stage last frees)
          (WritePc.stageAfter last frees)) theirs) := by
  refine Move.of_fields rfl ?_
  simp only [World.handoff]
  cases pc with
  | unlock readWaker =>
      obtain rfl : polled = false := points
      cases finalize <;> cases active : m.state.active <;> cases readWaker <;> cases frees <;>
        simp_all [Outcome.elim, WritePc.step, WritePc.finish, WritePc.stage, WritePc.stageAfter,
          Stage.ofLast, World.access, World.fetchAnd, World.closeSender]
  | _ =>
      simp only [WritePc.step, WritePc.locked, WritePc.finish]
      grind -linarith -ring -order -lia -ac [Outcome.elim, WritePc.stage, WritePc.stageAfter,
        Stage.ofLast, WritePc.Local, State.set, State.unset, World.access, World.fetchOr,
        World.fetchAnd, World.store, World.publish, World.closeSender, World.storeValue,
        World.loadValue, World.storeWaker, World.loadWaker, World.wake]

theorem FlushPc.loop_stage (finalize locked : Bool) (prev : State) (waker : W) :
    (loop finalize prev locked waker).stage finalize = .using ∨
      (loop finalize prev locked waker).stage finalize = .last ∧ prev.active = false := by
  simp only [loop]
  split_ifs <;> simp_all [stage, Stage.ofLast]

theorem FlushPc.handoff {finalize : Bool} {pc : FlushPc W} (spurious : Bool)
    (points : pc.Local finalize)
    (leaves : pc = .finish → finalize = true → m.state.active = false) 
    (sound : Locks m (pc.sections finalize) R) :
    Move (m.handoff (pc.stage finalize) theirs)
      ((pc.step finalize spurious m).1.handoff
        ((pc.step finalize spurious m).2.elim (FlushPc.stage finalize)
        (FlushPc.stageAfter finalize))
        theirs) := by
  have closed := sound.sender_closed
  refine Move.of_fields rfl ?_
  simp only [World.handoff]
  cases pc <;> simp only [FlushPc.step] <;>
    grind -linarith -ring -order -lia -ac [Outcome.elim, FlushPc.loop_stage, FlushPc.stage,
      FlushPc.stageAfter, Stage.ofLast, FlushPc.Local, FlushPc.sections, State.set, State.unset,
      State.done, World.access, World.fetchAnd, World.store, World.closeSender, World.loadValue,
      World.storeWaker, World.loadWaker, World.wake]

theorem ReadPc.loop_stage (prev : State) (waker : Option W) (orCancel : Bool) :
    (loop (T := T) prev waker orCancel).elim stage stageAfter = Stage.ofLast !prev.active := by
  cases waker <;> simp only [loop] <;> split_ifs <;>
    simp_all [Outcome.elim, stage, stageAfter, Stage.ofLast]

theorem ReadPc.handoff {pc : ReadPc T W} (spurious : Bool)
    (points : pc.Local false) 
    (sound : Locks m S pc.sections) :
    Move (m.handoff pc.stage theirs)
      ((pc.step spurious m).1.handoff
        ((pc.step spurious m).2.elim ReadPc.stage ReadPc.stageAfter)
        theirs) := by
  have closed := sound.receiver_closed
  have swaps := sound.swaps
  refine Move.of_fields rfl ?_
  simp only [World.handoff]
  cases pc <;> simp only [ReadPc.step, ReadPc.registered] <;>
    grind -linarith -ring -order -lia -ac [Outcome.elim, ReadPc.loop_stage, ReadPc.unlockMask,
      ReadPc.stage, ReadPc.stageAfter, Stage.ofLast, ReadPc.Local, ReadPc.sections, State.set,
      State.unset, State.done, World.access, World.fetchAnd, World.store, World.closeReceiver,
      World.receive, World.loadValue, World.storeWaker, World.loadWaker, World.wake]

theorem DropPc.handoff (m : World T W) (isWriter : Bool) (pc : DropPc W) :
    Move (m.handoff pc.stage theirs)
      ((pc.step isWriter m).1.handoff
        ((pc.step isWriter m).2.elim DropPc.stage DropPc.stageAfter) theirs) := by
  refine Move.of_fields rfl ?_
  simp only [World.handoff]
  cases pc <;> simp only [DropPc.step, DropPc.finish, DropPc.closeSide] <;>
    grind -linarith -ring -order -lia -ac [Outcome.elim, DropPc.stage, DropPc.stageAfter, State.set,
      State.unset, World.access, World.fetchOr, World.fetchAnd, World.closeSender,
      World.closeReceiver, World.clearValue, World.loadValue, World.loadWaker, World.wake]

end Programs

/-! ## The sides move the hand-off -/

section Sides

variable {kind : Kind} {spurious : Bool} {m m' : World T W} (theirs : Stage)
variable {sections : SendSections} {R : RecvSections}

/-- A write that is the last call of its side is never turned away as full. -/
theorem WritePc.not_full {pc : WritePc T W} {value : Option T} {finalize : Bool}
    (locks : Locks m (pc.sections true) R) :
    (pc.step finalize spurious m).2 ≠ .ret (.err value false) := by
  have unpublished := locks.unpublished
  cases pc with
  | lock waker | release _ _ waker | unlock waker =>
      cases waker <;> simp only [step, locked, finish] <;> split_ifs <;> simp
  | _ => grind -linarith -ring -order -lia -ac [step, WritePc.sections]

theorem Sender.begun_handoff {handle : SenderHandle T} {op : SendOp T W} {S' : Sender T W}
    (points : (idle handle : Sender T W).Local kind) (begun : Begun kind m handle op m' S') :
    m'.handoff (S'.stage kind) theirs = m.handoff
      ((idle handle : Sender T W).stage kind) theirs := by
  induction begun with
  | @dropBorrow owner channel value isChannel =>
      cases owner <;> cases channel <;> simp_all [World.handoff, stage, Local, World.discard]
  | _ => simp_all [World.handoff, stage, Local, WritePc.stage, FlushPc.stage, DropPc.stage,
    World.pass, World.beginWrite, World.giveBack, World.discard, World.beginFlush,
      World.leaveFlush, World.panic]

theorem Sender.Noted.handoff (noted : Noted m m') (mine theirs : Stage) :
    m'.handoff mine theirs = m.handoff mine theirs := by
  induction noted <;> rfl

theorem Sender.finishTrySend_handoff {result : WriteResult T} (noPanic : result ≠ .panic)
    (notFull : kind.finalize = true → ∀ value, result ≠ .err value false) :
    (finishTrySend kind m result).1.handoff ((finishTrySend kind m result).2.stage kind) theirs =
      m.handoff (WritePc.stageAfter kind.finalize true result) theirs := by
  rw [(finishTrySend_noted kind m result).handoff]
  cases result with
  | ok => cases kind <;> rfl
  | panic => exact absurd rfl noPanic
  | err value dropped =>
      cases dropped with
      | true => cases kind <;> rfl
      | false =>
          cases kind with
          | channel => rfl
          | sendOnce | taskFn => exact absurd rfl (notFull rfl value)

theorem Sender.finishFlushWrite_handoff {owner : Bool} {waker : W} {result : WriteResult T}
    (noPanic : result ≠ .panic) :
    (finishFlushWrite kind owner waker m result).1.handoff
        ((finishFlushWrite kind owner waker m result).2.stage kind) theirs =
      m.handoff (WritePc.stageAfter false kind.finalize result) theirs := by
  rw [(finishFlushWrite_noted kind owner waker m result).handoff]
  cases result with
  | ok => cases owner <;> rfl
  | panic => exact absurd rfl noPanic
  | err value dropped => cases kind <;> cases dropped <;> cases owner <;> rfl

theorem Sender.finishFlush_handoff {owner : Bool} {waker : W} {result : PollResult T}
    (noPanic : result ≠ .panic) :
    (finishFlush kind owner waker m result).1.handoff
        ((finishFlush kind owner waker m result).2.stage kind) theirs =
      m.handoff (FlushPc.stageAfter kind.finalize result) theirs := by
  rw [(finishFlush_noted kind owner waker m result).handoff]
  cases result with
  | pending => cases owner <;> rfl
  | panic => exact absurd rfl noPanic
  | ready value dropped => cases kind <;> cases dropped <;> cases owner <;> rfl

/-- A step of the sending side is a move, unless it is one of the two accesses
that a finalizing side makes in the wrong state. -/
theorem Sender.stepped_handoff {S S' : Sender T W} (locks : Locks m (S.sections kind) R)
    (points : S.Local kind) (step : S.Stepped kind spurious m m' S')
    (locked : ∀ waker, S = .trySending (.lock waker) → kind.finalize = true →
      m.state.wlock = false)
    (leaves : ∀ owner waker, S = .flushing owner waker .finish → kind.finalize = true →
      m.state.active = false) :
    Move (m.handoff (S.stage kind) theirs) (m'.handoff (S'.stage kind) theirs) := by
  induction step with
  | trySend inner =>
      have moved := WritePc.handoff theirs spurious true (Bool.and_true _).symm points
        fun waker isLock => locked waker (isLock ▸ rfl)
      rw [inner] at moved
      exact moved
  | trySendEnd inner =>
      have moved := WritePc.handoff theirs spurious true (Bool.and_true _).symm points
        fun waker isLock => locked waker (isLock ▸ rfl)
      have noPanic := points.step kind.finalize spurious locks
      rw [inner] at moved noPanic
      rw [finishTrySend_handoff theirs noPanic]
      · exact moved
      · intro finalizes value isErr
        rw [Sender.sections, finalizes] at locks
        exact WritePc.not_full locks (by rw [inner, isErr])
  | flushWrite inner =>
      have moved := WritePc.handoff (m := m) theirs spurious kind.finalize
        (Bool.and_false kind.finalize).symm points.1 (by simp)
      rw [inner] at moved
      exact moved
  | flushWriteEnd inner =>
      have moved := WritePc.handoff (m := m) theirs spurious kind.finalize
        (Bool.and_false kind.finalize).symm points.1 (by simp)
      have noPanic := points.1.step kind.finalize spurious locks
      rw [inner] at moved noPanic
      rw [finishFlushWrite_handoff theirs noPanic]
      exact moved
  | flush inner =>
      have moved := FlushPc.handoff theirs spurious points.1
        (fun isFinish => leaves _ _ (by rw [isFinish])) locks
      rw [inner] at moved
      exact moved
  | flushEnd inner =>
      have moved := FlushPc.handoff theirs spurious points.1
        (fun isFinish => leaves _ _ (by rw [isFinish])) locks
      have noPanic := points.1.step spurious m
      rw [inner] at moved noPanic
      rw [finishFlush_handoff theirs noPanic]
      exact moved
  | @drop pc _ _ inner =>
      have moved := DropPc.handoff theirs m true pc
      rw [inner] at moved
      exact moved
  | @dropEnd pc last _ inner =>
      have moved := DropPc.handoff theirs m true pc
      rw [inner] at moved
      cases last <;> exact moved
  | @free next =>
      have left : (Sender.idle next : Sender T W).stage kind = .left := by
        cases next <;> simp_all [Sender.Local, Sender.stage]
      rw [left]
      exact .free rfl

theorem Receiver.begun_handoff {handle : ReceiverHandle} {op : RecvOp W} {R' : Receiver T W}
    (begun : Begun kind m handle op m' R') :
    m'.handoff R'.stage theirs = m.handoff (idle handle : Receiver T W).stage theirs := by
  induction begun with
  | @detached _ next answers remains => 
      cases next <;> simp_all [World.handoff, stage, World.reportEnd]
  | _ => 
      simp [World.handoff, stage, ReadPc.stage, DropPc.stage, World.beginPoll, World.beginReceive]

theorem Receiver.begun_plain {handle : ReceiverHandle} {op : RecvOp W} {R' : Receiver T W}
    (begun : Begun kind m handle op m' R') (plain : (Label.recv op : Label T W).plain = true) :
    R'.Plain := by
  induction begun with
  | read isRead =>
      rcases isRead with ⟨rfl, rfl⟩ | ⟨_, rfl, rfl⟩ | ⟨_, rfl, rfl⟩
      · trivial
      · trivial
      · simp [Label.plain] at plain
  | cancel => simp [Label.plain] at plain
  | _ => trivial

theorem Receiver.Noted.handoff {result : PollResult T} (noted : Noted m result m')
    (mine theirs : Stage) : m'.handoff mine theirs = m.handoff mine theirs := by
  induction noted <;> rfl

theorem Receiver.finishRead_handoff {call : ReceiveCall W} {pc : ReadPc T W} {result : PollResult T}
    (notTask : kind ≠ .taskFn) (plain : (reading call pc : Receiver T W).Plain)
    (noPanic : result ≠ .panic) :
    (finishRead kind m call result).1.handoff (finishRead kind m call result).2.stage theirs =
      m.handoff (ReadPc.stageAfter result) theirs ∧ (finishRead kind m call result).2.Plain := by
  rw [(finishRead_noted kind m call result).handoff]
  cases result with
  | panic => exact absurd rfl noPanic
  | pending => cases call <;> first | exact ⟨rfl, trivial⟩ | exact plain.elim
  | ready value dropped =>
      cases call with
      | poll =>
          cases kind with
          | taskFn => exact absurd rfl notTask
          | _ => cases dropped <;> exact ⟨rfl, trivial⟩
      | tryRecv | recv => cases kind <;> cases dropped <;> exact ⟨rfl, trivial⟩
      | recvFirst => cases kind <;> cases value <;> cases dropped <;> exact ⟨rfl, trivial⟩
      | _ => exact plain.elim

theorem Receiver.stepped_handoff {R R' : Receiver T W} (notTask : kind ≠ .taskFn)
    (locks : Locks m sections R.sections) (points : R.Local) (plain : R.Plain)
    (step : R.Stepped kind spurious m m' R') :
    Move (m.handoff R.stage theirs) (m'.handoff R'.stage theirs) ∧ R'.Plain := by
  have notCancel {call pc} (reads : R = .reading call pc) : call.cancels = false := by
    subst reads
    cases call <;> simp_all [Receiver.Plain, ReceiveCall.cancels]
  induction step with
  | read inner =>
      rw [Receiver.Local, notCancel rfl] at points
      have moved := ReadPc.handoff theirs spurious points locks
      rw [inner] at moved
      exact ⟨moved, plain⟩
  | readEnd inner =>
      rw [Receiver.Local, notCancel rfl] at points
      have moved := ReadPc.handoff theirs spurious points locks
      have noPanic := points.step spurious locks
      rw [inner] at moved noPanic
      obtain ⟨same, isPlain⟩ := Receiver.finishRead_handoff theirs notTask plain noPanic
      rw [same]
      exact ⟨moved, isPlain⟩
  | unpark => exact ⟨.silent _, plain⟩
  | @drop _ pc _ _ inner =>
      have moved := DropPc.handoff theirs m false pc
      rw [inner] at moved
      exact ⟨moved, trivial⟩
  | @dropEnd handle pc last _ inner =>
      have moved := DropPc.handoff theirs m false pc
      rw [inner] at moved
      refine ⟨?_, by cases last <;> trivial⟩
      cases last <;> cases handle <;> first | exact moved | exact (points rfl).elim
  | @free next =>
      refine ⟨?_, trivial⟩
      cases next <;> first | exact .free rfl | exact (points rfl).elim

end Sides

/-! ## Runs -/

namespace System

variable {kind : Kind} {s s' : System T W} {label : Label T W}

def handoff (kind : Kind) (s : System T W) : Config :=
  s.world.handoff (s.sender.stage kind) s.receiver.stage

/-- The next access of the sending side is none of the two that are no move: the
end of a flush that clears `STATE_ACTIVE` with the receiver still there, and
the publication of a value while the reader holds the waker lock. -/
def handsOff (s : System T W) : Label T W → Bool
  | .sender _ =>
      match s.sender with
      | .flushing _ _ .finish => !s.world.state.active
      | .trySending (.lock _) => !s.world.state.wlock
      | _ => true
  | _ => true

/-- The hand-off is valid and no call in progress cancels or times out. -/
structure HandedOff (kind : Kind) (s : System T W) : Prop where
  valid : Valid (s.handoff kind)
  plain : s.receiver.Plain

theorem HandedOff.step (notTask : kind ≠ .taskFn) (sound : Sound kind s)
    (handed : HandedOff kind s) (plain : label.plain = true)
    (careful : kind.finalize = true → s.handsOff label = true)
    (step : System.step kind s label = some s') : HandedOff kind s' := by
  obtain ⟨valid, isPlain⟩ := handed
  unfold handoff at valid
  rcases System.step_cases step with ⟨_, _, _, isIdle, same, begun⟩ |
    ⟨_, _, rfl, isIdle, same, begun⟩ | ⟨spurious, rfl, same, stepped⟩ | ⟨_, _, same, stepped⟩ |
    ⟨_, _, parked, same, world, reads⟩
  · have points := sound.sender
    rw [isIdle] at valid points
    rw [← Sender.begun_handoff _ points begun, ← same] at valid
    exact ⟨valid, same ▸ isPlain⟩
  · rw [isIdle] at valid
    have turned : Valid (s.world.handoff (Receiver.idle _).stage (s.sender.stage kind)) :=
      valid.swap
    rw [← Receiver.begun_handoff _ begun, ← same] at turned
    exact ⟨turned.swap, Receiver.begun_plain begun plain⟩
  · have moved := Sender.stepped_handoff s.receiver.stage sound.locks sound.sender stepped
      (fun waker isLock finalizes => by simpa [handsOff, isLock] using careful finalizes)
      (fun owner waker isFinish finalizes => by
        simpa [handsOff, isFinish] using careful finalizes)
    have still := valid.move moved
    rw [← same] at still isPlain
    exact ⟨still, isPlain⟩
  · obtain ⟨moved, stillPlain⟩ := Receiver.stepped_handoff (s.sender.stage kind) notTask
      sound.locks sound.receiver isPlain stepped
    have turned := valid.swap.move moved
    rw [← same] at turned
    exact ⟨turned.swap, stillPlain⟩
  · rw [parked] at isPlain
    exact isPlain.elim

theorem HandedOff.init : HandedOff kind (System.init : System T W) := by
  refine ⟨?_, trivial⟩
  constructor <;> simp [System.init, handoff, World.handoff, Sender.stage, Receiver.stage]

/-- Neither side has a call in progress or a pointer left. -/
def Finished (s : System T W) : Prop :=
  (s.sender = .idle .gone ∨ s.sender = .idle .detached ∨
    ∃ value, s.sender = .idle (.flush false false value)) ∧
  (s.receiver = .idle .gone ∨ s.receiver = .idle .detached)

/-- The allocation is not touched after it is freed, is freed at most once, and
has been freed when both sides are finished. -/
structure FreedOnce (s : System T W) : Prop where
  fresh : s.world.stale = false
  at_most_once : s.world.freed ≤ 1
  at_the_end : s.Finished → s.world.freed = 1

theorem FreedOnce.of_valid (valid : Valid (s.handoff kind)) : s.FreedOnce where
  fresh := valid.fresh
  at_most_once := valid.freed_le_one
  at_the_end finished := by
    obtain ⟨sender, receiver⟩ := finished
    refine valid.both_left ?_ ?_
    · rcases sender with sender | sender | ⟨_, sender⟩ <;>
        simp [handoff, World.handoff, sender, Sender.stage]
    · rcases receiver with receiver | receiver <;>
        simp [handoff, World.handoff, receiver, Receiver.stage]

end System

/-! ## `channel()` -/

/-- The hand-off of a `channel()` is valid in every run. -/
theorem System.HandedOff.of_plain {s : System T W}
    (reachable : ReachableUnder (System.step .channel) (fun _ label => label.plain = true)
      System.init s) : System.HandedOff .channel s := by
  have soundAll (state : System T W) (earlier : ReachableUnder (System.step .channel)
      (fun _ label => label.plain = true) System.init state) : System.Sound .channel state :=
    System.Sound.of_reachable earlier.reachable
  apply reachable.invariant_with soundAll System.HandedOff.init
  intro state label next sound handed plain step
  exact handed.step (by decide) sound plain (by simp [Kind.finalize]) step

end Suspend.Channel
