import Suspend.Channel.OneShot
import Suspend.Channel.Open
import Suspend.Channel.Published

/-!
# Receives with a timeout

`wait_read_timeout` reads without a waker, polls and parks, and once its park
has timed out reads without a waker again.  Its last read misses nothing that
came before.  Its first read answers for the whole call if it finds the channel
open and empty, where the first read of `wait_read` is not heeded.
-/

namespace Suspend.Channel

open Suspend.Transition

universe u v

variable {T : Type u} {W : Type v}
variable {m m' : World T W} {S : SendSections} {R : RecvSections} {C : SendCell} {kind : Kind}
  {spurious : Bool}

/-! ## Reads without a waker -/

namespace ReadPc

/-- The points of a read that was given no waker. -/
def bare : ReadPc T W → Bool
  | load waker _ | lock _ waker _ | cancel _ waker | register _ waker _ | clearPrev _ waker _ =>
      waker.isNone
  | storeWaker .. | release .. | wake _ | clearOwn _ | unlockOwn _ => false
  | _ => true

/-- The value has been taken and is no longer announced. -/
def past : ReadPc T W → Bool
  | takeClosed | wakeFlush .. => true
  | _ => false

/-- The read is at the access that is to find the channel open and empty, with
no waker to withdraw. -/
def findsNothing (state : State) : ReadPc T W → Bool
  | load .. | lock .. | register .. => state.active && !state.loaded && !state.wake
  | unlockBare _ => state.active && !state.loaded
  | _ => false

theorem loop_bare (prev : State) :
    (loop (T := T) (W := W) prev none false).elim (fun next => next.bare = true) fun _ => True := by
  simp only [loop]
  split_ifs <;> first | rfl | trivial

theorem bare_step (spurious : Bool) (m : World T W) {pc : ReadPc T W} (points : pc.Local false)
    (bare : pc.bare = true) :
    (pc.step spurious m).2.elim (fun next => next.bare = true) fun _ => True := by
  have isNone {waker : Option W} (bare : waker.isNone = true) : waker = none := by
    simpa using bare
  cases pc with
  | load waker orCancel =>
      obtain rfl : orCancel = false := points
      obtain rfl := isNone bare
      exact loop_bare _
  | lock prev waker orCancel =>
      obtain ⟨-, -, rfl⟩ := points
      obtain rfl := isNone bare
      simp only [step]
      split_ifs
      · rfl
      · exact loop_bare _
  | register prev waker orCancel =>
      obtain ⟨-, -, -, -, rfl, -⟩ := points
      obtain rfl := isNone bare
      simp only [step]
      split_ifs
      · rfl
      · rfl
      · exact loop_bare _
  | clearPrev prev waker orCancel =>
      obtain rfl := isNone bare
      rfl
  | unlockBare orCancel =>
      obtain rfl := points.1
      simp only [step]
      split_ifs
      · trivial
      · exact loop_bare _
  | cancel => cases points.2.2
  | swap prev =>
      simp only [step]
      split_ifs <;> first | rfl | trivial
  | take prev =>
      simp only [step]
      split_ifs <;> rfl
  | unlock prev value flushWaker => cases flushWaker <;> first | rfl | trivial
  | takeFlush => rfl
  | takeClosed | wakeFlush => trivial
  | storeWaker | release | wake | clearOwn | unlockOwn => cases bare

/-- What a read says that has no value to return. -/
def Nothing (m : World T W) (pc : ReadPc T W) : PollResult T → Prop
  | .pending => pc.bare = true → m.state.active = true ∧ m.state.loaded = false ∧ pc.past = false
  | .ready none true => m.state.loaded = false ∧ pc.past = false
  | .ready none false =>
      m.state.active = true ∧ m.state.loaded = false ∧ pc.spent = true ∧ pc.past = false ∧
        (pc.bare = true → pc.findsNothing m.state = true)
  | .ready (some _) _ | .panic => True

/-- The head of the loop returns without a value only where it sees none. -/
theorem loop_nothing {pc : ReadPc T W} {prev : State} {waker : Option W}
    (seen : prev.active = m.state.active ∧ prev.loaded = m.state.loaded)
    (unpast : pc.past = false) (spent : waker = none → pc.spent = true)
    (isBare : pc.bare = true → waker = none)
    (finds : pc.bare = true → m.state.active = true → m.state.loaded = false →
      prev.wake = false → pc.findsNothing m.state = true) :
    (loop prev waker false).elim (fun _ => True) (pc.Nothing m) := by
  obtain ⟨active, loaded⟩ := seen
  cases isActive : m.state.active with
  | false =>
      simp only [loop, active, isActive]
      cases isLoaded : m.state.loaded <;> simp [loaded, isLoaded, Outcome.elim, Nothing, unpast]
  | true =>
      cases isLoaded : m.state.loaded with
      | true => simp [loop, active, isActive, loaded, isLoaded, Outcome.elim]
      | false =>
          have finds isBare := finds isBare isActive isLoaded
          cases waker with
          | none =>
              cases wake : prev.wake <;> cases wlock : prev.wlock <;>
                simp_all [loop, Outcome.elim, Nothing]
          | some waker =>
              cases wlock : prev.wlock <;>
                simp [loop, active, isActive, loaded, isLoaded, wlock, Outcome.elim]

theorem step_nothing (spurious : Bool) {pc : ReadPc T W} (points : pc.Local false)
    (cell : Cell m C (pc.cell kind.finalize)) :
    (pc.step spurious m).2.elim (fun _ => True) (pc.Nothing m) := by
  -- a value that has been taken is there to be returned
  have present {value : Option T} (missing : value.isNone = false) (dropped : Bool)
      (pc : ReadPc T W) : pc.Nothing m (.ready value dropped) := by
    cases value with
    | none => cases missing
    | some value => trivial
  cases pc with
  | load waker orCancel =>
      obtain rfl : orCancel = false := points
      apply loop_nothing ⟨rfl, rfl⟩ rfl
      · rintro rfl
        rfl
      · simp [bare]
      · simp +contextual [findsNothing]
  | lock prev waker orCancel =>
      obtain ⟨-, -, rfl⟩ := points
      simp only [step]
      split_ifs
      · trivial
      · apply loop_nothing ⟨rfl, rfl⟩ rfl
        · rintro rfl
          rfl
        · simp [bare]
        · simp +contextual [findsNothing]
  | register prev waker orCancel =>
      obtain ⟨-, -, -, -, rfl, -⟩ := points
      simp only [step]
      split_ifs
      · trivial
      · trivial
      · apply loop_nothing ⟨rfl, rfl⟩ rfl
        · rintro rfl
          rfl
        · simp [bare]
        · simp +contextual [findsNothing]
  | unlockOwn orCancel =>
      obtain rfl := points.1
      apply loop_nothing ⟨by simp, by simp⟩ rfl
      · exact fun _ => rfl
      · exact fun _ => rfl
      · intro isBare
        cases isBare
  | unlockBare orCancel =>
      obtain rfl := points.1
      simp only [step]
      split_ifs with nothing
      · have seen : m.state.active = true ∧ m.state.loaded = false := by
          simpa [and_comm] using nothing
        simp [Outcome.elim, Nothing, seen, spent, past, findsNothing]
      · apply loop_nothing ⟨by simp, by simp⟩ rfl
        · exact fun _ => rfl
        · exact fun _ => rfl
        · simp +contextual [findsNothing]
  | takeClosed =>
      obtain ⟨isSome, -⟩ := cell.receiver_claims rfl
      exact present (by simpa using isSome) true _
  | unlock prev value flushWaker =>
      cases flushWaker with
      | none => exact present cell.missing _ _
      | some waker => trivial
  | wakeFlush waker value dropped => exact present cell.missing _ _
  | cancel => cases points.2.2
  | release =>
      simp only [step]
      split_ifs
      · intro bare
        cases bare
      · trivial
  | wake =>
      intro bare
      cases bare
  | swap prev =>
      simp only [step]
      split_ifs <;> trivial
  | take prev =>
      simp only [step]
      split_ifs <;> trivial
  | takeFlush | clearPrev | storeWaker | clearOwn => trivial

/-- What `found` tells of is still there for a read without a waker. -/
structure Heeds (found : State) (m : World T W) (pc : ReadPc T W) : Prop where
  bare : pc.bare = true
  active : found.active = false → m.state.active = false
  loaded : found.loaded = true → m.state.loaded = true ∨ pc.past = true

variable {found : State}

/-- A read does not set `STATE_ACTIVE`, and clears `STATE_LOADED` over the value
that it is to return. -/
theorem step_leaves (spurious : Bool) {pc : ReadPc T W} (locks : Locks m S pc.sections)
    (points : pc.Local false) :
    ((pc.step spurious m).1.state.active = true → m.state.active = true) ∧
      (m.state.loaded = true ∨ pc.past = true →
        (pc.step spurious m).2.elim (fun next => (pc.step spurious m).1.state.loaded = true ∨
          next.past = true) fun _ => True) := by
  have swaps := locks.swaps
  cases pc <;> simp only [step, loop, unlockMask] <;>
    grind -linarith -ring -order -lia -ac [Outcome.elim, past, sections, Local, State.set,
      State.unset, World.access, World.fetchAnd, World.store, World.receive, World.closeReceiver,
      World.loadValue, World.storeWaker, World.loadWaker, World.wake]

theorem Heeds.step (spurious : Bool) {pc : ReadPc T W} (locks : Locks m S pc.sections)
    (points : pc.Local false)
    (heeds : pc.Heeds found m) :
    (pc.step spurious m).2.elim (Heeds found (pc.step spurious m).1) fun _ => True := by
  obtain ⟨isBare, active, loaded⟩ := heeds
  have staysBare := bare_step spurious m points isBare
  obtain ⟨inactive, leaves⟩ := step_leaves spurious locks points
  cases outcome : (pc.step spurious m).2 with
  | ret => trivial
  | goto next =>
      rw [outcome] at staysBare leaves
      refine ⟨staysBare, ?_, fun isLoaded => leaves (loaded isLoaded)⟩
      intro closed
      by_contra stillActive
      have wasActive := inactive (by simpa using stillActive)
      rw [active closed] at wasActive
      cases wasActive

theorem Heeds.keep {pc : ReadPc T W} (heeds : pc.Heeds found m)
    (active : m'.state.active = true → m.state.active = true)
    (loaded : m.state.loaded = true → m'.state.loaded = true) : pc.Heeds found m' := by
  refine ⟨heeds.bare, ?_, fun isLoaded => (heeds.loaded isLoaded).imp_left loaded⟩
  intro closed
  by_contra stillActive
  have wasActive := active (by simpa using stillActive)
  rw [heeds.active closed] at wasActive
  cases wasActive

end ReadPc

/-- As long as the receiver has the channel a published value stays in it. -/
theorem Sender.Stepped.stays_loaded {s s' : Sender T W} (locks : Locks m (s.sections kind) R)
    (points : s.Local kind) (isOpen : m.receiverClosed = false)
    (step : s.Stepped kind spurious m m' s') (loaded : m.state.loaded = true) :
    m'.state.loaded = true := by
  rw [step.memory.state]
  have active := locks.active_eq
  have live := locks.live
  have closed := locks.sender_closed
  have write (finalize : Bool) (pc : WritePc T W) :
      (pc.step finalize spurious m).1.state.loaded = true := by
    cases pc <;> simp only [WritePc.step] <;>
      grind -linarith -ring -order -lia -ac [State.set, State.unset, World.access,
        World.fetchOr, World.fetchAnd, World.store, World.publish, World.closeSender,
        World.storeValue, World.loadValue, World.storeWaker, World.loadWaker, World.wake]
  cases s with
  | idle | freeing => exact loaded
  | trySending pc => exact write kind.finalize pc
  | flushWriting owner waker pc => exact write kind.finalize pc
  | flushing owner waker pc =>
      obtain ⟨points, -⟩ := points
      cases pc <;> simp only [access, FlushPc.step] <;>
        grind -linarith -ring -order -lia -ac [sections, FlushPc.sections, FlushPc.Local, State.set,
          State.unset, World.access, World.fetchAnd, World.store, World.closeSender,
          World.loadValue, World.storeWaker, World.loadWaker, World.wake]
  | dropping pc =>
      cases pc <;> simp only [access, DropPc.step, DropPc.closeSide] <;>
        grind -linarith -ring -order -lia -ac [State.set, State.unset, World.access, World.fetchOr,
          World.fetchAnd, World.closeSender, World.clearValue, World.loadValue, World.loadWaker,
          World.wake]

/-! ## What a receive with a timeout reports -/

/-- The calls of `wait_read_timeout`. -/
def ReceiveCall.timed : ReceiveCall W → Bool
  | timeoutFirst _ | timeout _ | timeoutLast => true
  | _ => false

/-- A pair with what its receives with a timeout have reported, each with the
state word as the park timed out, if it did. -/
structure Timed (T : Type u) (W : Type v) where
  system : System T W := {}
  /-- The state word as the park of the call in progress timed out. -/
  expired : Option State := none
  reports : List (Option State × Answer T) := []
  deriving DecidableEq, Repr

namespace Timed

/-- What a receive with a timeout reports at this step. -/
def report (s : System T W) : Label T W → Option (Answer T)
  | .receiver spurious =>
      match s.receiver with
      | .reading call pc =>
          if call.timed then (Receiver.reading call pc).answer spurious s.world else none
      | _ => none
  | _ => none

/-- A call forgets the park of the one before it. -/
def expires (t : Timed T W) : Label T W → Option State
  | .recv _ => none
  | .expire => some t.system.world.state
  | _ => t.expired

/-- One step of the pair, noting what receives with a timeout report. -/
def step (kind : Kind) : Step (Timed T W) (Label T W) :=
  fun t label => (System.step kind t.system label).map fun next =>
    { system := next
      expired := t.expires label
      reports := t.reports ++ ((report t.system label).map fun answer =>
        (t.expired, answer)).toList }

/-- A report, with the state word as the park timed out. -/
inductive Waited : Option State → Answer T → Prop
  | timedOut {found : State} (active : found.active = true) (unloaded : found.loaded = false) :
      Waited (some found) .timedOut
  | received {expired : Option State} {value : T} : Waited expired (.received value)
  | closed {expired : Option State} (unloaded : ∀ found, expired = some found →
      found.loaded = false) : Waited expired .incomplete

/-- The first read of a receive with a timeout does not come to return from an
open channel with nothing in it. -/
def waitsFirst (t : Timed T W) : Label T W → Bool
  | .receiver _ =>
      match t.system.receiver with
      | .reading (.timeoutFirst _) pc => !pc.findsNothing t.system.world.state
      | _ => true
  | _ => true

/-- What the call in progress knows of its park. -/
def Waits (m : World T W) (expired : Option State) : Receiver T W → Prop
  | .reading (.timeoutFirst _) pc => pc.bare = true ∧ expired = none
  | .reading (.timeout _) _ | .parked (.timeout _) => expired = none
  | .reading .timeoutLast pc => ∃ found, expired = some found ∧ pc.Heeds found m
  | _ => True

structure Kept (kind : Kind) (t : Timed T W) : Prop where
  sound : t.system.Sound kind
  opened : t.system.Opened kind
  alerting : t.system.Alerting kind
  waits : Waits t.system.world t.expired t.system.receiver
  waited : ∀ report ∈ t.reports, Waited report.1 report.2

theorem Kept.init : Kept kind ({} : Timed T W) := by
  refine ⟨.init, .init, .init, trivial, ?_⟩
  rintro _ ⟨⟩

variable {t t' : Timed T W} {label : Label T W}

theorem Waited.of_value {expired : Option State} {value : T} {dropped : Bool} :
    Waited expired (Answer.timeout (some value) dropped) := by
  cases dropped <;> exact .received

/-- Nothing had come before a last read that finds nothing. -/
theorem found_nothing {found : State} {pc : ReadPc T W} (heeds : pc.Heeds found m)
    (unloaded : m.state.loaded = false) (unpast : pc.past = false) : found.loaded = false := by
  by_contra isLoaded
  rcases heeds.loaded (by simpa using isLoaded) with loaded | past
  · rw [unloaded] at loaded
    cases loaded
  · rw [unpast] at past
    cases past

theorem found_open {found : State} {pc : ReadPc T W} (heeds : pc.Heeds found m)
    (active : m.state.active = true) : found.active = true := by
  by_contra closed
  have inactive := heeds.active (by simpa using closed)
  rw [active] at inactive
  cases inactive

/-- A `read` that returns to a receive with a timeout. -/
theorem Kept.returns (kept : t.Kept kind) {spurious : Bool} {call : ReceiveCall W}
    {pc : ReadPc T W} {result : PollResult T} {answer : Answer T}
    (reads : t.system.receiver = .reading call pc)
    (careful : t.waitsFirst (.receiver spurious) = true) (timed : call.timed = true)
    (returned : (pc.step spurious t.system.world).2 = .ret result)
    (answered : call.answer result = some answer) : Waited t.expired answer := by
  obtain ⟨sound, opened, alerting, waits, -⟩ := kept
  have points := sound.receiver
  have locks := sound.locks
  have cell := opened.cell (by rw [reads]; rfl)
  have attends := alerting.attends
  rw [reads] at points locks cell attends
  have cancels : call.cancels = false := by
    cases call <;> first | rfl | cases timed
  have points : pc.Local false := by rwa [← cancels]
  have unpanicked := ReadPc.Local.step spurious locks points
  have nothing := ReadPc.step_nothing spurious points cell
  rw [returned] at unpanicked nothing
  rw [reads] at waits
  cases call with
  | timeoutFirst waker =>
      obtain ⟨isBare, unexpired⟩ := waits
      rw [unexpired]
      rcases result with _ | ⟨_ | value, _ | _⟩ | _
      · cases answered
      · have finds := nothing.2.2.2.2 isBare
        simp [waitsFirst, reads, finds] at careful
      · obtain rfl := Option.some.inj answered
        exact .closed (by rintro _ ⟨⟩)
      · obtain rfl := Option.some.inj answered
        exact .of_value
      · obtain rfl := Option.some.inj answered
        exact .of_value
      · exact absurd rfl unpanicked
  | timeout waker =>
      have unexpired : t.expired = none := waits
      rw [unexpired]
      rcases result with _ | ⟨_ | value, _ | _⟩ | _
      · cases answered
      · -- a poll returns with a value, or with the word that the channel is closed
        obtain ⟨active, unloaded, spent, -⟩ := nothing
        rcases (attends waker rfl).spent spent with loaded | inactive
        · rw [unloaded] at loaded
          cases loaded
        · rw [active] at inactive
          cases inactive
      · obtain rfl := Option.some.inj answered
        exact .closed (by rintro _ ⟨⟩)
      · obtain rfl := Option.some.inj answered
        exact .of_value
      · obtain rfl := Option.some.inj answered
        exact .of_value
      · exact absurd rfl unpanicked
  | timeoutLast =>
      obtain ⟨found, expired, heeds⟩ := waits
      rw [expired]
      rcases result with _ | ⟨_ | value, _ | _⟩ | _
      · obtain ⟨active, unloaded, unpast⟩ := nothing heeds.bare
        obtain rfl := Option.some.inj answered
        exact .timedOut (found_open heeds active) (found_nothing heeds unloaded unpast)
      · obtain ⟨active, unloaded, -, unpast, -⟩ := nothing
        obtain rfl := Option.some.inj answered
        exact .timedOut (found_open heeds active) (found_nothing heeds unloaded unpast)
      · obtain ⟨unloaded, unpast⟩ := nothing
        obtain rfl := Option.some.inj answered
        refine .closed ?_
        rintro _ ⟨⟩
        exact found_nothing heeds unloaded unpast
      · obtain rfl := Option.some.inj answered
        exact .of_value
      · obtain rfl := Option.some.inj answered
        exact .of_value
      · exact absurd rfl unpanicked
  | _ => cases timed

theorem Waits.keep {expired : Option State} {r : Receiver T W} (waits : Waits m expired r)
    (active : m'.state.active = true → m.state.active = true)
    (loaded : r.attached = true → m.state.loaded = true → m'.state.loaded = true) :
    Waits m' expired r := by
  cases r with
  | reading call pc =>
      cases call with
      | timeoutLast =>
          obtain ⟨found, isFound, heeds⟩ := waits
          exact ⟨found, isFound, heeds.keep active (loaded rfl)⟩
      | _ => exact waits
  | parked call => cases call <;> exact waits
  | _ => trivial

theorem Waits.begun {handle : ReceiverHandle} {op : RecvOp W} {r : Receiver T W}
    (begun : Receiver.Begun kind m handle op m' r) : Waits m' none r := by
  induction begun with
  | read isRead =>
      rcases isRead with ⟨_, rfl⟩ | ⟨_, _, rfl⟩ | ⟨_, _, rfl⟩
      · trivial
      · trivial
      · exact ⟨rfl, rfl⟩
  | _ => trivial

theorem Waits.of_left {expired : Option State} {call : ReceiveCall W} {result : PollResult T}
    {r : Receiver T W}
    (unexpired : ∀ waker, call = .timeoutFirst waker ∨ call = .timeout waker → expired = none)
    (left : Receiver.Left kind m call result m' r) : Waits m' expired r := by
  induction left with
  | @parked waker blocks =>
      rcases blocks with rfl | rfl
      · trivial
      · exact unexpired waker (.inr rfl)
  | @reading again waker first =>
      rcases first with ⟨rfl, rfl⟩ | ⟨rfl, rfl⟩
      · trivial
      · exact unexpired waker (.inl rfl)
  | _ => trivial

theorem Waits.step {expired : Option State} {r r' : Receiver T W} (locks : Locks m S r.sections)
    (points : r.Local) (waits : Waits m expired r) (step : r.Stepped kind spurious m m' r') :
    Waits m' expired r' := by
  induction step with
  | @read call pc next _ inner =>
      cases call with
      | timeoutFirst waker =>
          have isBare := ReadPc.bare_step spurious m points waits.1
          rw [inner] at isBare
          exact ⟨isBare, waits.2⟩
      | timeoutLast =>
          obtain ⟨found, isFound, heeds⟩ := waits
          have kept := heeds.step spurious locks points
          rw [inner] at kept
          exact ⟨found, isFound, kept⟩
      | _ => exact waits
  | @readEnd call pc result _ inner =>
      refine .of_left ?_ (Receiver.finishRead_left kind _ call result)
      rintro waker (rfl | rfl)
      · exact waits.2
      · exact waits
  | @unpark call waker isParked =>
      obtain rfl | rfl := isParked
      · trivial
      · exact waits
  | drop => trivial
  | @dropEnd _ _ last => cases last <;> trivial
  | free => trivial

theorem Kept.step (kept : t.Kept kind) (careful : t.waitsFirst label = true)
    (step : Timed.step kind t label = some t') : t'.Kept kind := by
  simp only [Timed.step, Option.map_eq_some_iff] at step
  obtain ⟨next, step, rfl⟩ := step
  refine ⟨kept.sound.step step, kept.opened.step kept.sound step,
    kept.alerting.step kept.sound step, ?_, ?_⟩
  · obtain ⟨sound, -, -, waits, -⟩ := kept
    rcases System.step_cases step with ⟨handle, op, rfl, isIdle, same, begun⟩ |
      ⟨handle, op, rfl, isIdle, same, begun⟩ | ⟨spurious, rfl, same, stepped⟩ |
      ⟨_, rfl, same, stepped⟩ | ⟨_, rfl, parked, same, world, reads⟩
    · have word := (Sender.begun_follows (isIdle ▸ sound.sender) begun).1.1
      rw [same]
      exact waits.keep (by rw [word]; exact id) (by rw [word]; exact fun _ => id)
    · exact Waits.begun begun
    · rw [same]
      refine waits.keep (stepped.respects sound.locks sound.sender).active ?_
      intro attached
      exact stepped.stays_loaded sound.locks sound.sender (Receiver.isOpen sound.locks attached)
    · exact waits.step sound.locks sound.receiver stepped
    · rw [world, reads]
      exact ⟨_, rfl, rfl, id, .inl⟩
  · intro entry isReport
    rcases List.mem_append.mp isReport with earlier | latest
    · exact kept.waited entry earlier
    · obtain ⟨answer, reported, rfl⟩ : ∃ answer, report t.system label = some answer ∧
          (t.expired, answer) = entry := by simpa using latest
      cases label with
      | receiver spurious =>
          cases isReceiver : t.system.receiver with
          | reading call pc =>
              simp only [report, isReceiver] at reported
              split_ifs at reported with timed
              cases outcome : (pc.step spurious t.system.world).2 with
              | goto => simp [Receiver.answer, outcome, Outcome.elim] at reported
              | ret result =>
                  simp only [Receiver.answer, outcome, Outcome.elim] at reported
                  exact kept.returns isReceiver careful timed outcome reported
          | _ => simp [report, isReceiver] at reported
      | _ => cases reported

end Timed

/-- In every run of every kind of channel in which the first read of a receive
with a timeout does not come to answer for the call, a timeout is reported only
after the park has timed out with the channel open and empty; otherwise a value
is returned, or the word that the channel is closed if there was none. -/
theorem recvTimeout_waits {t : Timed T W}
    (reachable : ReachableUnder (Timed.step kind) (fun t label => t.waitsFirst label = true) {} t) :
    ∀ report ∈ t.reports, Timed.Waited report.1 report.2 := by
  have kept : t.Kept kind := by
    apply reachable.invariant Timed.Kept.init
    intro before label after kept careful step
    exact kept.step careful step
  exact kept.waited

/-- The first read finds the waker of an earlier poll in the hands of a drop of
the sender, and the call parks. -/
theorem recvTimeout_waits_of_drop : ∃ t : Timed Nat Nat,
    t.reports = [(some { active := true, wlock := true, wake := true }, .timedOut)] ∧
      ∀ report ∈ t.reports, Timed.Waited report.1 report.2 := by
  obtain ⟨t, ran, reports⟩ : ∃ t ∈ runFrom (guarded (Timed.step .channel) Timed.waitsFirst)
      ({} : Timed Nat Nat)
      (List.flatten [[.recv (.poll 1)], List.replicate 4 (.receiver false),
        [.send .drop, .sender false], [.recv (.recvTimeout 2)], List.replicate 3 (.receiver false),
        [.expire, .receiver false]]),
      t.reports = [(some { active := true, wlock := true, wake := true }, .timedOut)] := by
    decide +kernel
  exact ⟨t, reports, recvTimeout_waits (reachableUnder_of_runFrom ran)⟩

/-- On a fresh channel a timeout is reported at once. -/
theorem recvTimeout_at_once : ¬ ∀ t : Timed Nat Nat, Reachable (Timed.step .channel) {} t →
    ∀ report ∈ t.reports, Timed.Waited report.1 report.2 := by
  intro always
  obtain ⟨t, ran, reports⟩ : ∃ t ∈ runFrom (Timed.step .channel) ({} : Timed Nat Nat)
      [.recv (.recvTimeout 1), .receiver false], t.reports = [(none, .timedOut)] := by
    decide +kernel
  have waited := always t (reachable_of_runFrom ran) (none, .timedOut) (by simp [reports])
  cases waited

end Suspend.Channel
