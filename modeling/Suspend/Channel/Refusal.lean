import Suspend.Channel.Disconnect

/-!
# What a sender is told once its receiver has gone

Every attempt to send that begins after the receiver was dropped or cancelled
is to come back with its value and the word that the channel is disconnected.
A `write` does that; a flush of a sender that has lost its pointer has no
channel to write to, and panics.
-/

namespace Suspend.Channel

open Suspend.Transition

universe u v

variable {T : Type u} {W : Type v}

/-! ## Panics -/

section Panics

variable {kind : Kind} {m m' : World T W} {spurious : Bool}

/-- A flush that has lost its channel before it wrote its value is not polled. -/
def System.hasChannel (s : System T W) : Label T W → Bool
  | .send (.poll _) =>
      match s.sender with
      | .idle (.flush _ false (some _)) => false
      | _ => true
  | _ => true

theorem Sender.Begun.panicked {handle : SenderHandle T} {op : SendOp T W} {S' : Sender T W}
    (begun : Begun kind m handle op m' S') :
    m'.panicked = m.panicked ∨
      ∃ owner value waker, handle = .flush owner false (some value) ∧ op = .poll waker := by
  induction begun with
  | pollDetached => exact .inr ⟨_, _, _, rfl, rfl⟩
  | _ => exact .inl rfl

theorem Receiver.Begun.panicked {handle : ReceiverHandle} {op : RecvOp W} {R' : Receiver T W}
    (begun : Begun kind m handle op m' R') : m'.panicked = m.panicked := by
  induction begun <;> rfl

theorem Sender.Stepped.panicked {S S' : Sender T W} {R : RecvSections}
    (locks : Locks m (S.sections kind) R) (points : S.Local kind)
    (step : S.Stepped kind spurious m m' S') : m'.panicked = m.panicked := by
  induction step with
  | @trySend pc _ _ inner | @flushWrite _ _ pc _ _ inner =>
      have same := (pc.step_frame kind.finalize spurious m).1.panicked
      rw [inner] at same
      exact same
  | @trySendEnd pc result _ inner =>
      have same := (pc.step_frame kind.finalize spurious m).1.panicked
      have unpanicked := points.step kind.finalize spurious locks
      rw [inner] at same unpanicked
      cases result with
      | panic => exact absurd rfl unpanicked
      | _ => cases kind <;> exact same
  | @flushWriteEnd _ _ pc result _ inner =>
      have same := (pc.step_frame kind.finalize spurious m).1.panicked
      have unpanicked := points.1.step kind.finalize spurious locks
      rw [inner] at same unpanicked
      cases result with
      | panic => exact absurd rfl unpanicked
      | _ => exact same
  | @flush _ _ pc _ _ inner =>
      have same := (pc.step_frame kind.finalize spurious m).1.panicked
      rw [inner] at same
      exact same
  | @flushEnd _ _ pc result _ inner =>
      have same := (pc.step_frame kind.finalize spurious m).1.panicked
      have unpanicked := points.1.step spurious m
      rw [inner] at same unpanicked
      cases result with
      | panic => exact absurd rfl unpanicked
      | _ => exact same
  | @drop pc _ _ inner | @dropEnd pc _ _ inner =>
      have same := (pc.step_calls true m).panicked
      rw [inner] at same
      exact same
  | free => rfl

theorem Receiver.Noted.panicked {result : PollResult T} (noted : Noted m result m')
    (unpanicked : result ≠ .panic) : m'.panicked = m.panicked := by
  induction noted with
  | panics panicked => exact absurd panicked unpanicked
  | _ => rfl

theorem Receiver.Stepped.panicked {R R' : Receiver T W} {S : SendSections}
    (locks : Locks m S R.sections) (points : R.Local)
    (step : R.Stepped kind spurious m m' R') : m'.panicked = m.panicked := by
  induction step with
  | @read _ pc _ _ inner =>
      have same := (pc.step_frame spurious m).1.panicked
      rw [inner] at same
      exact same
  | @readEnd call pc result _ inner =>
      have same := (pc.step_frame spurious m).1.panicked
      have unpanicked := points.step spurious locks
      rw [inner] at same unpanicked
      exact ((finishRead_noted kind _ call result).panicked unpanicked).trans same
  | unpark => rfl
  | @drop _ pc _ _ inner | @dropEnd _ pc _ _ inner =>
      have same := (pc.step_calls false m).panicked
      rw [inner] at same
      exact same
  | free => rfl

/-- Nothing else panics. -/
theorem System.Sound.step_panicked {s s' : System T W} {label : Label T W} (sound : Sound kind s)
    (careful : s.hasChannel label = true) (step : System.step kind s label = some s') :
    s'.world.panicked = s.world.panicked := by
  rcases System.step_cases step with ⟨handle, op, rfl, isIdle, _, begun⟩ |
    ⟨_, _, _, _, _, begun⟩ | ⟨_, _, _, stepped⟩ | ⟨_, _, _, stepped⟩ | ⟨_, _, _, _, world, _⟩
  · rcases begun.panicked with same | ⟨owner, value, waker, rfl, rfl⟩
    · exact same
    · simp [System.hasChannel, isIdle] at careful
  · exact begun.panicked
  · exact stepped.panicked sound.locks sound.sender
  · exact stepped.panicked sound.locks sound.receiver
  · rw [world]
    rfl

end Panics

/-! ## Attempts to send -/

/-- The receiver has been dropped or cancelled. -/
def Receiver.left : Receiver T W → Bool
  | idle .gone => true
  | _ => false

theorem Receiver.left_eq {R : Receiver T W} (left : R.left = true) : R = .idle .gone := by
  unfold Receiver.left at left
  split at left
  · rfl
  · cases left

/-- The value that a call attempts to send. -/
def SenderHandle.attempt : SenderHandle T → SendOp T W → Option T
  | _, .trySend value => some value
  | flush _ _ (some value), .poll _ => some value
  | _, _ => none

/-- A pair with what its sending side has been told since the receiver left:
the attempts to send with their answers, and the answers of `is_canceled`. -/
structure Asked (T : Type u) (W : Type v) where
  system : System T W := {}
  /-- The value of the attempt in progress. -/
  attempt : Option T := none
  attempts : List (T × Answer T) := []
  canceled : List Bool := []
  deriving DecidableEq, Repr

namespace Asked

/-- The attempt that a step belongs to. -/
def attemptAt (a : Asked T W) : Label T W → Option T
  | .send op =>
      match a.system.sender with
      | .idle handle => if a.system.receiver.left then handle.attempt op else none
      | _ => none
  | _ => a.attempt

/-- One step of the pair, noting what the sending side is told. -/
def step (kind : Kind) : Step (Asked T W) (ObservedLabel T W)
  | a, .isCanceled =>
      match a.system.sender with
      | .idle handle =>
          (handle.isCanceled a.system.world).map fun asked =>
            { a with
              system := { a.system with world := asked.1 }
              canceled := a.canceled ++ if a.system.receiver.left then [asked.2] else [] }
      | _ => none
  | a, .base label =>
      (System.step kind a.system label).map fun next =>
        let answer := Observed.answer kind a.system label
        { a with
          system := next
          attempt := if answer.isSome then none else a.attemptAt label
          attempts := a.attempts ++ ((a.attemptAt label).bind fun value =>
            answer.map fun answer => (value, answer)).toList }

end Asked

/-! ### A `write` that is refused -/

section Refusing

variable {kind : Kind} {m m' : World T W} {spurious : Bool} {value : T}

/-- The points of a `write` that finds the channel closed. -/
def WritePc.Refusing (value : T) : WritePc T W → Prop
  | load given _ | sync given => given = value
  | _ => False

theorem WritePc.Refusing.step {pc : WritePc T W} (finalize spurious : Bool)
    (refusing : pc.Refusing value) (inactive : m.state.active = false) :
    (pc.step finalize spurious m).2.elim (Refusing value) fun result =>
      result = .err (some value) true := by
  cases pc with
  | load given waker =>
      obtain rfl : given = value := refusing
      simp [WritePc.step, inactive, Outcome.elim, Refusing]
  | sync given =>
      obtain rfl : given = value := refusing
      rfl
  | _ => exact refusing.elim

def Sender.Refusing (value : T) : Sender T W → Prop
  | trySending pc | flushWriting _ _ pc => pc.Refusing value
  | _ => False

theorem Sender.Refusing.step {S S' : Sender T W} (notTask : kind ≠ .taskFn)
    (refusing : S.Refusing value) (inactive : m.state.active = false)
    (step : S.Stepped kind spurious m m' S') :
    (S.answer kind spurious m = none ∧ S'.Refusing value) ∨
      S.answer kind spurious m = some (.err (some value) true) := by
  induction step with
  | trySend inner | flushWrite inner =>
      have moved := WritePc.Refusing.step kind.finalize spurious refusing inactive
      rw [inner] at moved
      exact .inl ⟨by simp [Sender.answer, inner, Outcome.elim], moved⟩
  | trySendEnd inner | flushWriteEnd inner =>
      have moved := WritePc.Refusing.step kind.finalize spurious refusing inactive
      rw [inner] at moved
      obtain rfl := moved
      exact .inr (by simp [Sender.answer, inner, Outcome.elim, WriteResult.answer, notTask])
  | _ => exact refusing.elim

theorem Sender.Begun.refusing {handle : SenderHandle T} {op : SendOp T W} {S' : Sender T W}
    (begun : Begun kind m handle op m' S') (attempt : handle.attempt op = some value)
    (hasChannel : ∀ owner value waker, handle = .flush owner false (some value) →
      op ≠ .poll waker) :
    (Sender.beginAnswer handle op = none ∧ S'.Refusing value) ∨
      Sender.beginAnswer handle op = some (.err (some value) true) := by
  induction begun with
  | trySend | pollFirst =>
      obtain rfl := Option.some.inj attempt
      exact .inl ⟨rfl, rfl⟩
  | trySendDetached =>
      obtain rfl := Option.some.inj attempt
      exact .inr rfl
  | pollDetached => exact absurd rfl (hasChannel _ _ _ rfl)
  | _ => cases attempt

end Refusing

namespace Asked

variable {kind : Kind} {a a' : Asked T W}

/-- The second load of the state word is the last step of such an attempt. -/
theorem returns_of_sync (notTask : kind ≠ .taskFn) {value : T}
    (attempt : a.attempt = some value)
    (atSync : a.system.sender = .trySending (.sync value) ∨
      ∃ owner waker, a.system.sender = .flushWriting owner waker (.sync value))
    (spurious : Bool) : ∃ after, step kind a (.base (.sender spurious)) = some after ∧
      after.attempts = a.attempts ++ [(value, .err (some value) true)] := by
  rcases a with ⟨⟨m, S, R⟩, attempting, attempts, canceled⟩
  obtain rfl : attempting = some value := attempt
  obtain rfl | ⟨owner, waker, rfl⟩ := atSync
  · refine ⟨_, rfl, ?_⟩
    simp [attemptAt, Observed.answer, Sender.answer, WritePc.step, Outcome.elim, WriteResult.answer,
      notTask]
  · refine ⟨_, rfl, ?_⟩
    simp [attemptAt, Observed.answer, Sender.answer, WritePc.step, Outcome.elim, WriteResult.answer,
      notTask]

/-- An attempt that finds the channel closed returns in its next two steps. -/
theorem returns_of_refusing (notTask : kind ≠ .taskFn) {value : T}
    (attempt : a.attempt = some value) (refusing : a.system.sender.Refusing value)
    (inactive : a.system.world.state.active = false) (spurious : Bool) :
    ∃ steps after, runFrom (step kind) a
      (List.replicate steps (.base (.sender spurious))) = some after ∧
        after.attempts = a.attempts ++ [(value, .err (some value) true)] := by
  have once (atSync : a.system.sender = .trySending (.sync value) ∨
      ∃ owner waker, a.system.sender = .flushWriting owner waker (.sync value)) :
      ∃ steps after, runFrom (step kind) a
        (List.replicate steps (.base (.sender spurious))) = some after ∧
          after.attempts = a.attempts ++ [(value, .err (some value) true)] := by
    obtain ⟨after, stepped, told⟩ := returns_of_sync notTask attempt atSync spurious
    refine ⟨1, after, ?_, told⟩
    rw [List.replicate_one, runFrom_cons, stepped]
    rfl
  -- the first load takes one step more
  have twice (middle : Asked T W)
      (first : step kind a (.base (.sender spurious)) = some middle)
      (same : middle.attempts = a.attempts) (still : middle.attempt = some value)
      (atSync : middle.system.sender = .trySending (.sync value) ∨
        ∃ owner waker, middle.system.sender = .flushWriting owner waker (.sync value)) :
      ∃ steps after, runFrom (step kind) a
        (List.replicate steps (.base (.sender spurious))) = some after ∧
          after.attempts = a.attempts ++ [(value, .err (some value) true)] := by
    obtain ⟨after, stepped, told⟩ := returns_of_sync notTask still atSync spurious
    refine ⟨2, after, ?_, told.trans (by rw [same])⟩
    rw [List.replicate_succ, List.replicate_one, runFrom_cons, first, Option.bind_some,
      runFrom_cons, stepped]
    rfl
  have loads (given : T) (waker : Option W) (finalize : Bool) :
      (WritePc.load given waker).step finalize spurious a.system.world =
        (a.system.world.access, .goto (.sync given)) := by
    simp [WritePc.step, inactive]
  rcases a with ⟨⟨m, S, R⟩, attempting, attempts, canceled⟩
  obtain rfl : attempting = some value := attempt
  cases S with
  | trySending pc =>
      cases pc with
      | load given waker =>
          obtain rfl : given = value := refusing
          apply twice ⟨⟨m.access, .trySending (.sync given), R⟩, some given, attempts, canceled⟩ _
            rfl rfl (.inl rfl)
          simp [step, System.step, Sender.step, loads, Observed.answer, Sender.answer, attemptAt,
            Outcome.elim]
      | sync given =>
          obtain rfl : given = value := refusing
          exact once (.inl rfl)
      | _ => exact refusing.elim
  | flushWriting owner own pc =>
      cases pc with
      | load given waker =>
          obtain rfl : given = value := refusing
          apply twice ⟨⟨m.access, .flushWriting owner own (.sync given), R⟩, some given, attempts,
            canceled⟩ _ rfl rfl (.inr ⟨_, _, rfl⟩)
          simp [step, System.step, Sender.step, loads, Observed.answer, Sender.answer, attemptAt,
            Outcome.elim]
      | sync given =>
          obtain rfl : given = value := refusing
          exact once (.inr ⟨_, _, rfl⟩)
      | _ => exact refusing.elim
  | _ => exact refusing.elim

/-- What has been told, and what the attempt in progress is to be told. -/
structure Answering (a : Asked T W) : Prop where
  pending : ∀ value, a.attempt = some value →
    a.system.receiver.left = true ∧ a.system.sender.Refusing value
  refused : ∀ attempt ∈ a.attempts, attempt.2 = .err (some attempt.1) true

/-- What one step adds to what has been told. -/
theorem Answering.tell {attempting : Option T} {answer : Option (Answer T)} {next : System T W}
    (answering : a.Answering)
    (told : ∀ value, attempting = some value →
      (answer = none ∧ next.receiver.left = true ∧ next.sender.Refusing value) ∨
        answer = some (.err (some value) true)) :
    Answering { a with
      system := next
      attempt := if answer.isSome then none else attempting
      attempts := a.attempts ++
        (attempting.bind fun value => answer.map fun answer => (value, answer)).toList } := by
  cases attempting with
  | none => exact ⟨by simp, by simpa using answering.refused⟩
  | some value =>
      rcases told value rfl with ⟨rfl, left, refusing⟩ | rfl
      · refine ⟨?_, by simpa using answering.refused⟩
        rintro _ ⟨⟩
        exact ⟨left, refusing⟩
      · refine ⟨by simp, ?_⟩
        intro attempt isTold
        rcases List.mem_append.mp isTold with earlier | latest
        · exact answering.refused attempt earlier
        · obtain rfl : attempt = (value, .err (some value) true) := by simpa using latest
          rfl

theorem Answering.step {label : ObservedLabel T W} (notTask : kind ≠ .taskFn)
    (answering : a.Answering)
    (inactive : a.system.receiver.left = true → a.system.world.state.active = false)
    (hasChannel : ∀ label', label = .base label' → a.system.hasChannel label' = true)
    (step : step kind a label = some a') : a'.Answering := by
  cases label with
  | isCanceled =>
      cases isIdle : a.system.sender with
      | idle handle =>
          simp only [Asked.step, isIdle, Option.map_eq_some_iff] at step
          obtain ⟨_, _, rfl⟩ := step
          exact ⟨by simpa [isIdle] using answering.pending, answering.refused⟩
      | _ => simp [Asked.step, isIdle] at step
  | base label =>
      simp only [Asked.step, Option.map_eq_some_iff] at step
      obtain ⟨next, step, rfl⟩ := step
      apply answering.tell
      intro value attempt
      rcases System.step_cases step with ⟨handle, op, rfl, isIdle, same, begun⟩ |
        ⟨handle, op, rfl, isIdle, same, begun⟩ | ⟨spurious, rfl, same, stepped⟩ |
        ⟨spurious, rfl, same, stepped⟩ | ⟨_, rfl, parked, same, world, reads⟩
      · simp only [attemptAt, isIdle] at attempt
        split_ifs at attempt with left
        have answered := begun.refusing attempt (by
          rintro owner value waker rfl rfl
          simpa [System.hasChannel, isIdle] using hasChannel _ rfl)
        simp only [Observed.answer, isIdle, same]
        rcases answered with ⟨unanswered, refusing⟩ | refused
        · exact .inl ⟨unanswered, left, refusing⟩
        · exact .inr refused
      · have left := Receiver.left_eq (answering.pending value attempt).1
        obtain rfl : ReceiverHandle.gone = handle := by simpa [left] using isIdle
        cases begun
      · obtain ⟨left, refusing⟩ := answering.pending value attempt
        rcases refusing.step notTask (inactive left) stepped with ⟨unanswered, refusing⟩ | refused
        · exact .inl ⟨unanswered, same ▸ left, refusing⟩
        · exact .inr refused
      · have left := Receiver.left_eq (answering.pending value attempt).1
        rw [left] at stepped
        cases stepped
      · have left := Receiver.left_eq (answering.pending value attempt).1
        rw [left] at parked
        cases parked

/-! ### A `channel()` -/

/-- Every flush that is polled has its channel, and the receiver does not leave
with a value taken from an open channel. -/
def heeds (a : Asked T W) : ObservedLabel T W → Bool
  | .isCanceled => true
  | .base label => a.system.hasChannel label && a.system.tellsSender label

structure Kept (a : Asked T W) : Prop where
  sound : a.system.Sound .channel
  departs : a.system.Departs
  unpanicked : a.system.world.panicked = false
  answering : a.Answering

theorem Kept.init : Kept ({} : Asked T W) := by
  refine ⟨.init, .init, rfl, ?_, ?_⟩
  · rintro _ ⟨⟩
  · rintro _ ⟨⟩

theorem Kept.inactive (kept : a.Kept) (left : a.system.receiver.left = true) :
    a.system.world.state.active = false :=
  kept.departs.inactive kept.sound (Receiver.left_eq left)

/-- `is_canceled` loads the state word, and no more. -/
theorem Kept.canceled (kept : a.Kept) {handle : SenderHandle T} {asked : World T W × Bool}
    (isIdle : a.system.sender = .idle handle)
    (answered : handle.isCanceled a.system.world = some asked) :
    System.Sound .channel { a.system with world := asked.1 } ∧
      System.Departs { a.system with world := asked.1 } ∧ asked.1.panicked = false := by
  obtain ⟨sound, departs, unpanicked, -⟩ := kept
  cases handle with
  | connected =>
      obtain rfl := Option.some.inj answered
      refine ⟨sound.access, ⟨?_, ?_⟩, unpanicked⟩
      · exact departs.sender.keep rfl id
      · exact departs.receiver.keep ⟨id, id⟩
  | detached =>
      obtain rfl := Option.some.inj answered
      exact ⟨sound, departs, unpanicked⟩
  | flush | gone => cases answered

theorem Kept.step {label : ObservedLabel T W} (kept : a.Kept) (careful : a.heeds label = true)
    (step : Asked.step .channel a label = some a') : a'.Kept := by
  have hasChannel : ∀ label', label = .base label' → a.system.hasChannel label' = true := by
    rintro label' rfl
    exact (Bool.and_eq_true_iff.mp careful).1
  have answering := kept.answering.step (by decide) kept.inactive hasChannel step
  cases label with
  | isCanceled =>
      cases isIdle : a.system.sender with
      | idle handle =>
          simp only [Asked.step, isIdle, Option.map_eq_some_iff] at step
          obtain ⟨asked, answered, rfl⟩ := step
          obtain ⟨sound, departs, unpanicked⟩ := kept.canceled isIdle answered
          simp only [isIdle] at sound departs
          exact ⟨sound, departs, unpanicked, answering⟩
      | _ => simp [Asked.step, isIdle] at step
  | base label =>
      obtain ⟨hasChannel, tells⟩ := Bool.and_eq_true_iff.mp careful
      simp only [Asked.step, Option.map_eq_some_iff] at step
      obtain ⟨next, step, rfl⟩ := step
      have panicked := kept.sound.step_panicked hasChannel step
      exact ⟨kept.sound.step step, kept.departs.step kept.sound tells step,
        panicked.trans kept.unpanicked, answering⟩

end Asked

end Suspend.Channel
