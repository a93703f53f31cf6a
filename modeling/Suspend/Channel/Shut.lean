import Suspend.Channel.Leftovers
import Suspend.Channel.Published
import Suspend.Channel.Refusal

/-!
# A sending side that is left alone

Once its receiver has left an empty channel the sending side is alone with it:
`STATE_ACTIVE` and `STATE_LOADED` are clear, and at most a waker is left behind.
Its drop takes that waker out before it frees the channel.  A write that is
refused frees the channel with whatever is in it.
-/

namespace Suspend.Channel

open Suspend.Transition

universe u v

variable {T : Type u} {W : Type v}
variable {m m' : World T W} {kind : Kind} {spurious : Bool}

attribute [local simp] World.access World.store World.fetchAnd World.fetchOr World.loadWaker
  World.clean_iff Outcome.elim State.set State.unset

/-! ## What is left -/

/-- The sending side has a pointer to the channel. -/
def SenderHandle.holds : SenderHandle T → Bool
  | connected | flush _ true _ => true
  | _ => false

/-- A flush has borrowed its pointer only from a `Sender`. -/
def SenderHandle.Borrows (kind : Kind) : SenderHandle T → Prop
  | flush owner channel _ => owner = (channel && decide (kind = .channel))
  | _ => True

/-- The bits tell that there is no value, and whether there is a waker. -/
@[mk_iff]
structure World.Bare (m : World T W) : Prop where
  clean : m.Clean
  state : m.state = { wake := m.waker.isSome }
  value : m.value = none

/-- The channel has been shut and freed, with both cells empty. -/
structure World.Gone (m : World T W) : Prop where
  inactive : m.state.active = false
  emptied : m.Emptied

/-- The sending side alone with the channel. -/
def Sender.Alone (kind : Kind) (m : World T W) : Sender T W → Prop
  | idle handle =>
      handle.Borrows kind ∧
        if handle.holds then
          m.Bare ∧ (kind = .sendOnce → ∀ owner, handle = .flush owner true none → m.waker = none)
        else m.Gone
  | trySending pc => m.Bare ∧ m.waker = none ∧ ∃ value, pc.Refusing value
  | flushWriting owner _ pc =>
      m.Bare ∧ owner = decide (kind = .channel) ∧ (kind = .sendOnce → m.waker = none) ∧
        ∃ value, pc.Refusing value
  | flushing owner waker pc =>
      m.Bare ∧ owner = decide (kind = .channel) ∧ (kind = .sendOnce → m.waker = none) ∧
        (pc = .load waker ∨ pc = .finish)
  | dropping pc =>
      (pc = .lock ∧ m.Bare) ∨
        (pc = .clearWaker ∧ m.Clean ∧ m.state.active = false ∧ m.value = none ∧ m.waker.isSome)
  | freeing next =>
      next.Borrows kind ∧ next.holds = false ∧ m.Clean ∧ m.state.active = false ∧
        m.value = none ∧ m.waker = none

theorem World.Bare.keep (bare : m.Bare) (freed : m'.freed = m.freed) (stale : m'.stale = m.stale)
    (valueMisuse : m'.valueMisuse = m.valueMisuse) (wakerMisuse : m'.wakerMisuse = m.wakerMisuse)
    (panicked : m'.panicked = m.panicked) (state : m'.state = m.state)
    (value : m'.value = m.value) (waker : m'.waker = m.waker) : m'.Bare := by
  refine ⟨bare.clean.keep freed stale valueMisuse wakerMisuse panicked, ?_, value.trans bare.value⟩
  rw [state, waker]
  exact bare.state

theorem World.Bare.access (bare : m.Bare) : m.access.Bare := by
  refine bare.keep rfl ?_ rfl rfl rfl rfl rfl rfl
  simp [bare.clean.unfreed]

theorem World.Gone.keep (gone : m.Gone) (state : m'.state = m.state) (freed : m'.freed = m.freed)
    (stale : m'.stale = m.stale) (valueMisuse : m'.valueMisuse = m.valueMisuse)
    (wakerMisuse : m'.wakerMisuse = m.wakerMisuse) (value : m'.value = m.value)
    (waker : m'.waker = m.waker) : m'.Gone := by
  refine ⟨?_, gone.emptied.keep freed stale valueMisuse wakerMisuse value waker⟩
  rw [state]
  exact gone.inactive

namespace Sender

theorem Alone.inactive {S : Sender T W} (alone : S.Alone kind m) : m.state.active = false := by
  have bare (left : m.Bare) : m.state.active = false := by rw [left.state]
  cases S with
  | idle handle =>
      obtain ⟨-, left⟩ := alone
      split at left
      · exact bare left.1
      · exact left.inactive
  | trySending | flushWriting | flushing => exact bare alone.1
  | dropping pc =>
      rcases alone with ⟨-, left⟩ | ⟨-, -, inactive, -⟩
      · exact bare left
      · exact inactive
  | freeing => exact alone.2.2.2.1

/-! ## Calls -/

/-- No `try_send`, and no first poll of a flush of a `SendOnce`, is made with a
waker still in the channel. -/
def sparesWaker (m : World T W) : SenderHandle T → SendOp T W → Bool
  | .connected, .trySend _ | .flush false true (some _), .poll _ => !m.state.wake
  | _, _ => true

theorem Alone.spares {handle : SenderHandle T} {op : SendOp T W}
    (alone : (idle handle : Sender T W).Alone kind m) (noWaker : m.waker = none) :
    sparesWaker m handle op = true := by
  unfold sparesWaker
  split
  · obtain ⟨-, bare, -⟩ := alone
    simp [bare.state, noWaker]
  · obtain ⟨-, bare, -⟩ := alone
    simp [bare.state, noWaker]
  · rfl

/-- What the receiving side notes of itself is of no concern here. -/
theorem Alone.keep {S : Sender T W} (alone : S.Alone kind m) (freed : m'.freed = m.freed)
    (stale : m'.stale = m.stale) (valueMisuse : m'.valueMisuse = m.valueMisuse)
    (wakerMisuse : m'.wakerMisuse = m.wakerMisuse) (panicked : m'.panicked = m.panicked)
    (state : m'.state = m.state) (value : m'.value = m.value) (waker : m'.waker = m.waker) :
    S.Alone kind m' := by
  have bare (left : m.Bare) : m'.Bare :=
    left.keep freed stale valueMisuse wakerMisuse panicked state value waker
  have clean (left : m.Clean) : m'.Clean :=
    left.keep freed stale valueMisuse wakerMisuse panicked
  cases S with
  | idle handle =>
      obtain ⟨borrows, left⟩ := alone
      refine ⟨borrows, ?_⟩
      split at left
      · rw [if_pos ‹_›, waker]
        exact ⟨bare left.1, left.2⟩
      · rw [if_neg ‹_›]
        exact left.keep state freed stale valueMisuse wakerMisuse value waker
  | trySending | flushWriting | flushing =>
      obtain ⟨left, rest⟩ := alone
      refine ⟨bare left, ?_⟩
      rw [waker]
      exact rest
  | dropping pc =>
      rcases alone with ⟨atLock, left⟩ | ⟨atWaker, left, rest⟩
      · exact .inl ⟨atLock, bare left⟩
      · refine .inr ⟨atWaker, clean left, ?_⟩
        rw [state, value, waker]
        exact rest
  | freeing next =>
      obtain ⟨borrows, unheld, left, rest⟩ := alone
      refine ⟨borrows, unheld, clean left, ?_⟩
      rw [state, value, waker]
      exact rest

theorem Alone.begin {handle : SenderHandle T} {op : SendOp T W} {S' : Sender T W}
    (notTask : kind ≠ .taskFn) (alone : (idle handle : Sender T W).Alone kind m)
    (spares : sparesWaker m handle op = true)
    (begun : Begun kind m handle op m' S') : S'.Alone kind m' := by
  obtain ⟨borrows, left⟩ := alone
  have noWaker (bare : m.Bare) (spared : (!m.state.wake) = true) : m.waker = none := by
    rw [bare.state] at spared
    simpa using spared
  induction begun with
  | trySend =>
      obtain ⟨bare, -⟩ := left
      exact ⟨bare.keep rfl rfl rfl rfl rfl rfl rfl rfl, noWaker bare spares, _, rfl⟩
  | send =>
      obtain ⟨bare, -⟩ := left
      refine ⟨by simp [SenderHandle.Borrows], bare.keep rfl rfl rfl rfl rfl rfl rfl rfl, ?_⟩
      rintro - _ ⟨⟩
  | drop =>
      obtain ⟨bare, -⟩ := left
      exact .inl ⟨rfl, bare.keep rfl rfl rfl rfl rfl rfl rfl rfl⟩
  | run isTask => exact absurd isTask notTask
  | runPanic isTask => exact absurd isTask notTask
  | trySendDetached => exact ⟨trivial, left.keep rfl rfl rfl rfl rfl rfl rfl⟩
  | sendDetached =>
      refine ⟨?_, left.keep rfl rfl rfl rfl rfl rfl rfl⟩
      simp [SenderHandle.Borrows]
  | dropDetached => exact ⟨trivial, left⟩
  | @pollFirst owner value waker =>
      obtain ⟨bare, -⟩ := left
      have isOwner : owner = decide (kind = .channel) := by
        simpa [SenderHandle.Borrows] using borrows
      refine ⟨bare.keep rfl rfl rfl rfl rfl rfl rfl rfl, isOwner, ?_, _, rfl⟩
      rintro rfl
      obtain rfl : owner = false := isOwner
      exact noWaker bare spares
  | @poll owner waker =>
      obtain ⟨bare, taken⟩ := left
      have isOwner : owner = decide (kind = .channel) := by
        simpa [SenderHandle.Borrows] using borrows
      refine ⟨bare.keep rfl rfl rfl rfl rfl rfl rfl rfl, isOwner, ?_, .inl rfl⟩
      exact fun once => taken once owner rfl
  | pollDetached => exact ⟨borrows, left.keep rfl rfl rfl rfl rfl rfl rfl⟩
  | pollDone => exact ⟨borrows, left⟩
  | @dropBorrow owner channel value isChannel =>
      subst isChannel
      obtain rfl : owner = channel := by simpa [SenderHandle.Borrows] using borrows
      cases owner with
      | true =>
          obtain ⟨bare, -⟩ := left
          refine ⟨trivial, bare.keep rfl rfl rfl rfl rfl rfl rfl rfl, ?_⟩
          rintro - _ ⟨⟩
      | false => exact ⟨trivial, left.keep rfl rfl rfl rfl rfl rfl rfl⟩
  | dropFlush =>
      obtain ⟨bare, -⟩ := left
      exact .inl ⟨rfl, bare.keep rfl rfl rfl rfl rfl rfl rfl rfl⟩
  | dropFlushDone => exact ⟨trivial, left.keep rfl rfl rfl rfl rfl rfl rfl⟩

/-! ## Steps inside a call -/

theorem refused_step {pc : WritePc T W} {value : T} (finalize spurious : Bool) (bare : m.Bare)
    (refusing : pc.Refusing value) :
    (pc.step finalize spurious m).1.Bare ∧ (pc.step finalize spurious m).1.waker = m.waker := by
  cases pc with
  | load | sync => exact ⟨bare.access, rfl⟩
  | _ => exact refusing.elim

theorem Alone.step {S S' : Sender T W} (notTask : kind ≠ .taskFn) (alone : S.Alone kind m)
    (step : S.Stepped kind spurious m m' S') : S'.Alone kind m' := by
  cases step with
  | trySend inner =>
      obtain ⟨bare, noWaker, value, refusing⟩ := alone
      have kept := refused_step kind.finalize spurious bare refusing
      have moved := refusing.step kind.finalize spurious (by rw [bare.state])
      rw [inner] at kept moved
      exact ⟨kept.1, kept.2.trans noWaker, value, moved⟩
  | @trySendEnd pc result after inner =>
      obtain ⟨bare, noWaker, value, refusing⟩ := alone
      have kept := refused_step kind.finalize spurious bare refusing
      have ended := refusing.step kind.finalize spurious (by rw [bare.state])
      rw [inner] at kept ended
      obtain rfl := ended
      obtain ⟨bare, same⟩ := kept
      have inactive : after.state.active = false := by rw [bare.state]
      cases kind with
      | channel | sendOnce =>
          exact ⟨trivial, rfl, bare.clean.keep rfl rfl rfl rfl rfl, inactive, bare.value,
            same.trans noWaker⟩
      | taskFn => exact absurd rfl notTask
  | flushWrite inner =>
      obtain ⟨bare, isOwner, noWaker, value, refusing⟩ := alone
      have kept := refused_step kind.finalize spurious bare refusing
      have moved := refusing.step kind.finalize spurious (by rw [bare.state])
      rw [inner] at kept moved
      exact ⟨kept.1, isOwner, fun once => kept.2.trans (noWaker once), value, moved⟩
  | @flushWriteEnd owner waker pc result after inner =>
      obtain ⟨bare, isOwner, noWaker, value, refusing⟩ := alone
      have kept := refused_step kind.finalize spurious bare refusing
      have ended := refusing.step kind.finalize spurious (by rw [bare.state])
      rw [inner] at kept ended
      obtain rfl := ended
      obtain ⟨bare, same⟩ := kept
      have inactive : after.state.active = false := by rw [bare.state]
      cases kind with
      | channel =>
          refine ⟨by simpa [SenderHandle.Borrows] using isOwner, ?_⟩
          refine ⟨bare.keep rfl rfl rfl rfl rfl rfl rfl rfl, ?_⟩
          rintro ⟨⟩
      | sendOnce =>
          obtain rfl : owner = false := isOwner
          exact ⟨rfl, rfl, bare.clean.keep rfl rfl rfl rfl rfl, inactive, bare.value,
            same.trans (noWaker rfl)⟩
      | taskFn => exact absurd rfl notTask
  | @flush owner waker pc next _ inner =>
      obtain ⟨bare, isOwner, noWaker, rfl | rfl⟩ := alone
      · obtain ⟨rfl, rfl⟩ : m.access = m' ∧ FlushPc.finish = next := by
          simpa [FlushPc.step, FlushPc.loop, bare.state] using inner
        exact ⟨bare.access, isOwner, noWaker, .inr rfl⟩
      · cases inner
  | @flushEnd owner waker pc result after inner =>
      obtain ⟨bare, isOwner, noWaker, rfl | rfl⟩ := alone
      · cases inner
      · have inactive : m.state.active = false := by rw [bare.state]
        cases kind with
        | channel =>
            obtain ⟨rfl, rfl⟩ : m.access = after ∧ PollResult.ready none true = result := by
              simpa [FlushPc.step, Kind.finalize, inactive] using inner
            refine ⟨by simpa [SenderHandle.Borrows] using isOwner, ?_⟩
            refine ⟨bare.access.keep rfl rfl rfl rfl rfl rfl rfl rfl, ?_⟩
            rintro ⟨⟩
        | sendOnce =>
            obtain rfl : owner = false := isOwner
            obtain ⟨rfl, rfl⟩ : (m.fetchAnd { active := true }).closeSender = after ∧
                PollResult.ready none true = result := by
              simpa [FlushPc.step, Kind.finalize, inactive] using inner
            refine ⟨rfl, rfl, bare.access.clean.keep rfl rfl rfl rfl rfl, ?_, bare.value,
              noWaker rfl⟩
            simp [finishFlush, World.giveBack, World.closeSender]
        | taskFn => exact absurd rfl notTask
  | @drop pc next _ inner =>
      rcases alone with ⟨rfl, bare⟩ | ⟨rfl, -⟩
      · obtain ⟨clean, state, value⟩ := bare
        cases waker : m.waker with
        | none => simp [DropPc.step, state, waker] at inner
        | some left =>
            obtain ⟨rfl, rfl⟩ : m.fetchOr { wlock := true, wake := true } = m' ∧
                DropPc.clearWaker = next := by
              simpa [DropPc.step, state, waker] using inner
            refine .inr ⟨rfl, ?_, by simp [state], value, by simp [waker]⟩
            simpa [clean.unfreed] using clean
      · cases inner
  | @dropEnd pc last after inner =>
      rcases alone with ⟨rfl, bare⟩ | ⟨rfl, clean, inactive, value, waker⟩
      · obtain ⟨clean, state, value⟩ := bare
        cases waker : m.waker with
        | none =>
            obtain ⟨rfl, rfl⟩ : m.fetchOr { wlock := true, wake := true } = after ∧
                true = last := by
              simpa [DropPc.step, state, waker] using inner
            refine ⟨trivial, rfl, ?_, by simp [finishDrop, state], value, waker⟩
            simpa [finishDrop, clean.unfreed] using clean
        | some left => simp [DropPc.step, state, waker] at inner
      · obtain ⟨rfl, rfl⟩ : m.loadWaker = after ∧ true = last := by
          simpa [DropPc.step] using inner
        refine ⟨trivial, rfl, ?_, inactive, value, rfl⟩
        obtain ⟨left, isSome⟩ := Option.isSome_iff_exists.mp waker
        simpa [finishDrop, clean.unfreed, isSome] using clean
  | @free next =>
      obtain ⟨borrows, unheld, clean, inactive, value, waker⟩ := alone
      refine ⟨borrows, ?_⟩
      rw [unheld]
      exact ⟨inactive, .of_dealloc clean value waker⟩

/-- No waker is put into the channel. -/
theorem Alone.unwoken {S S' : Sender T W} (alone : S.Alone kind m) (noWaker : m.waker = none)
    (step : S.Stepped kind spurious m m' S') : m'.waker = none := by
  rw [step.memory.waker]
  cases S with
  | idle | freeing => exact noWaker
  | trySending pc =>
      obtain ⟨bare, -, value, refusing⟩ := alone
      exact (refused_step kind.finalize spurious bare refusing).2.trans noWaker
  | flushWriting owner waker pc =>
      obtain ⟨bare, -, -, value, refusing⟩ := alone
      exact (refused_step kind.finalize spurious bare refusing).2.trans noWaker
  | flushing owner waker pc =>
      obtain ⟨-, -, -, rfl | rfl⟩ := alone
      · exact noWaker
      · cases kind <;> exact noWaker
  | dropping pc =>
      rcases alone with ⟨rfl, -⟩ | ⟨rfl, -⟩
      · exact noWaker
      · rfl

end Sender

/-! ## Runs -/

/-- No write that would free the channel is begun with a waker still in it. -/
def System.sparesWaker (s : System T W) : Label T W → Bool
  | .send op =>
      match s.sender with
      | .idle handle => Sender.sparesWaker s.world handle op
      | _ => true
  | _ => true

namespace Asked

variable {a a' : Asked T W}

/-- Every flush that is polled has its channel, and no write that would free
the channel is begun with a waker still in it. -/
def spares (a : Asked T W) : ObservedLabel T W → Bool
  | .isCanceled => true
  | .base label => a.system.hasChannel label && a.system.sparesWaker label

/-- Every attempt is refused, `is_canceled` is true, and once the sending side
has no pointer left the channel has been freed, once, with both cells empty. -/
structure Disconnected (kind : Kind) (a : Asked T W) : Prop where
  refused : ∀ attempt ∈ a.attempts, attempt.2 = .err (some attempt.1) true
  returns : ∀ value, a.attempt = some value → ∀ spurious, ∃ steps after,
    runFrom (step kind) a (List.replicate steps (.base (.sender spurious))) = some after ∧
      after.attempts = a.attempts ++ [(value, .err (some value) true)]
  canceled : ∀ answer ∈ a.canceled, answer = true
  freed : ∀ handle, a.system.sender = .idle handle → handle.holds = false →
    a.system.world.Emptied

/-- The receiver has left an empty channel. -/
structure LeftAlone (kind : Kind) (a : Asked T W) : Prop where
  gone : a.system.receiver = .idle .gone
  alone : a.system.sender.Alone kind a.system.world
  answering : a.Answering
  canceled : ∀ answer ∈ a.canceled, answer = true

theorem LeftAlone.step_base {label : Label T W} (notTask : kind ≠ .taskFn)
    (left : a.LeftAlone kind) (spares : a.spares (.base label) = true)
    (step : Asked.step kind a (.base label) = some a') : a'.LeftAlone kind := by
  obtain ⟨hasChannel, sparesWaker⟩ := Bool.and_eq_true_iff.mp spares
  have answering := left.answering.step notTask (fun _ => left.alone.inactive)
    (by rintro _ ⟨⟩; exact hasChannel) step
  obtain ⟨gone, alone, -, canceled⟩ := left
  simp only [Asked.step, Option.map_eq_some_iff] at step
  obtain ⟨next, step, rfl⟩ := step
  have moved : next.receiver = .idle .gone ∧ next.sender.Alone kind next.world := by
    rcases System.step_cases step with ⟨handle, op, rfl, isIdle, same, begun⟩ |
      ⟨handle, op, -, isIdle, -, begun⟩ | ⟨_, -, same, stepped⟩ | ⟨_, -, -, stepped⟩ |
      ⟨_, -, parked, -⟩
    · rw [isIdle] at alone
      simp only [System.sparesWaker, isIdle] at sparesWaker
      exact ⟨same.trans gone, alone.begin notTask sparesWaker begun⟩
    · obtain rfl : ReceiverHandle.gone = handle := by simpa [gone] using isIdle
      cases begun
    · exact ⟨same.trans gone, alone.step notTask stepped⟩
    · rw [gone] at stepped
      cases stepped
    · rw [gone] at parked
      cases parked
  exact ⟨moved.1, moved.2, answering, canceled⟩

theorem LeftAlone.step_isCanceled (notTask : kind ≠ .taskFn) (left : a.LeftAlone kind)
    (step : Asked.step kind a .isCanceled = some a') : a'.LeftAlone kind := by
  have answering := left.answering.step notTask (fun _ => left.alone.inactive)
    (by rintro _ ⟨⟩) step
  obtain ⟨gone, alone, -, canceled⟩ := left
  cases isIdle : a.system.sender with
  | idle handle =>
      rw [isIdle] at alone
      simp only [Asked.step, isIdle, Option.map_eq_some_iff] at step
      obtain ⟨asked, answered, rfl⟩ := step
      have more (isTrue : asked.2 = true) : ∀ answer ∈
          a.canceled ++ (if a.system.receiver.left then [asked.2] else []), answer = true := by
        intro answer isAnswer
        rcases List.mem_append.mp isAnswer with earlier | latest
        · exact canceled answer earlier
        · rw [isTrue] at latest
          split at latest
          · exact List.mem_singleton.mp latest
          · cases latest
      cases handle with
      | connected =>
          obtain ⟨-, bare, -⟩ := alone
          obtain rfl := Option.some.inj answered
          have isTrue : (!a.system.world.state.active && !a.system.world.state.loaded) = true := by
            rw [bare.state]
            rfl
          refine ⟨gone, ⟨trivial, bare.access, ?_⟩, answering, more isTrue⟩
          rintro - _ ⟨⟩
      | detached =>
          obtain rfl := Option.some.inj answered
          exact ⟨gone, alone, answering, more rfl⟩
      | flush | gone => cases answered
  | _ => simp [Asked.step, isIdle] at step

theorem LeftAlone.disconnected (notTask : kind ≠ .taskFn) (left : a.LeftAlone kind) :
    a.Disconnected kind := by
  obtain ⟨gone, alone, answering, canceled⟩ := left
  refine ⟨answering.refused, ?_, canceled, ?_⟩
  · intro value attempt spurious
    obtain ⟨-, refusing⟩ := answering.pending value attempt
    exact returns_of_refusing notTask attempt refusing alone.inactive spurious
  · intro handle isIdle unheld
    rw [isIdle] at alone
    obtain ⟨-, freed⟩ := alone
    rw [unheld] at freed
    exact freed.emptied

/-- Whatever a sending side does that is left alone, it is told so. -/
theorem LeftAlone.run {start : Asked T W} (notTask : kind ≠ .taskFn)
    (left : start.LeftAlone kind)
    (later : ReachableUnder (Asked.step kind) (fun a label => a.spares label = true) start a) :
    a.Disconnected kind := by
  have stillAlone : a.LeftAlone kind := by
    apply later.invariant left
    intro before label after leftAlone spares step
    cases label with
    | isCanceled => exact leftAlone.step_isCanceled notTask step
    | base label => exact leftAlone.step_base notTask spares step
  exact stillAlone.disconnected notTask

end Asked

end Suspend.Channel
