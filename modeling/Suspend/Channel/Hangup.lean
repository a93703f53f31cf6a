import Suspend.Channel.Echoes

/-!
# A drop wakes the other side

A side whose latest poll returned `Pending` has been woken once the other has
been dropped, if the two accesses of a drop that finds the lock taken are not
torn apart by the release of it.
-/

namespace Suspend.Channel

open Suspend.Transition

universe u v

variable {T : Type u} {W : Type v}
variable {m m' : World T W} {kind : Kind} {spurious : Bool}

namespace System

variable {s s' : System T W} {label : Label T W}

section Conditions

variable [DecidableEq W]

/-- The receiver has the channel, and waits for this waker to be woken. -/
def waitsFor (s : System T W) (waker : W) : Bool :=
  s.receiver.attached && s.world.lastPoll = some waker && waker ∉ s.world.wokenSinceReceive

/-- Nobody loses a waker: a drop that found the waker lock taken does not close
the channel when the lock has been given back over a waker, a flush does not put
its waker into a channel whose receiver is gone and does not join another holder
of the lock, and neither a `write` that has to give up nor a read that registers
drops the waker of a poll that waits. -/
def heeds (s : System T W) : Label T W → Bool
  | .sender spurious =>
      match s.sender with
      | .dropping .close => !(s.world.state.wake && !s.world.state.wlock)
      | .flushWriting _ _ (.lock (some _)) => s.world.state.active || s.world.state.wlock
      | .flushing _ _ (.lock prev _) => !prev.wlock || s.world.state != prev || spurious
      | .flushWriting _ _ (.release prev _ (some waker)) =>
          s.world.state == prev.set { loaded := true, wlock := true, wake := true } ||
            !s.waitsFor waker
      | _ => true
  | .receiver spurious =>
      match s.receiver with
      | .dropping _ .close => !(s.world.state.wake && !s.world.state.wlock)
      | .reading _ (.register prev _ _) =>
          s.world.state != prev || spurious || !prev.wake || !s.world.waker.any s.waitsFor
      | _ => true
  | _ => true

end Conditions

/-- A side that waits has been woken once the drop of the other has ended. -/
structure DropWakes (s : System T W) : Prop where
  receiver : s.world.senderDropped = true → s.receiver.attached = true →
    ∀ waker, s.world.lastPoll = some waker → waker ∈ s.world.wokenSinceReceive
  sender : s.world.receiverDropped = true →
    ∀ waker, s.world.senderPoll = some waker → waker ∈ s.world.wokenSinceFlush

/-- Both wakers are on their way, and the polls in progress are sound. -/
structure Notifies (kind : Kind) (s : System T W) : Prop where
  parted : s.Parted kind
  polled : s.receiver.Polled s.world
  rung : Rung kind s.world s.sender s.receiver
  polls : s.sender.Polls s.world s.receiver.carries s.receiver.fetches
  echoed : Echoed s.world s.sender s.receiver

end System

/-! ## Steps -/

theorem Receiver.Polled.keep {r : Receiver T W} (polled : r.Polled m)
    (same : m'.lastPoll = m.lastPoll) : r.Polled m' where
  busy call pc isReading polls := same.trans (polled.busy call pc isReading polls)
  bare := polled.bare

theorem Rung.sender_begun {handle : SenderHandle T} {op : SendOp T W} {s' : Sender T W}
    {r : Receiver T W} (points : (Sender.idle handle : Sender T W).Local kind)
    (rung : Rung kind m (.idle handle) r) (begun : Sender.Begun kind m handle op m' s') :
    m'.lastPoll = m.lastPoll ∧ Rung kind m' s' r := by
  have same : m'.lastPoll = m.lastPoll := by
    induction begun <;> rfl
  refine ⟨same, ?_⟩
  intro own waits attached
  exact World.Rings.sender_begun points (rung own (same.symm.trans waits) attached) begun

theorem Rung.receiver_begun {handle : ReceiverHandle} {op : RecvOp W} {s : Sender T W}
    {r' : Receiver T W} (rung : Rung kind m s (.idle handle))
    (begun : Receiver.Begun kind m handle op m' r') : r'.Polled m' ∧ Rung kind m' s r' := by
  induction begun with
  | poll => exact ⟨Receiver.beginPoll_polled rfl, by rintro _ ⟨⟩⟩
  | @read _ call isRead =>
      refine ⟨⟨?_, ?_⟩, ?_⟩
      · rintro _ _ ⟨⟩ polls
        rcases isRead with ⟨_, rfl⟩ | ⟨_, _, rfl⟩ | ⟨_, _, rfl⟩ <;> exact absurd rfl polls
      · rintro _ _ ⟨⟩ _
        rfl
      · exact fun own waits _ => (rung own waits rfl).keep rfl rfl rfl rfl id id id
  | cancel =>
      refine ⟨⟨?_, ?_⟩, ?_⟩
      · rintro _ _ ⟨⟩ polls
        exact absurd rfl polls
      · rintro _ _ ⟨⟩ _
        rfl
      · exact fun own waits _ => (rung own waits rfl).keep rfl rfl rfl rfl id id id
  | drop => exact ⟨.of_rests (by rintro _ _ ⟨⟩), fun _ _ attached => by cases attached⟩
  | @detached _ next answers remains =>
      refine ⟨.of_rests (by rintro _ _ ⟨⟩), fun _ _ attached => ?_⟩
      cases next <;> first | exact (remains rfl).elim | cases attached
  | leave => exact ⟨.of_rests (by rintro _ _ ⟨⟩), fun _ _ attached => by cases attached⟩

/-- A call of the receiving side begins with nothing in hand. -/
theorem Receiver.begun_echoes {handle : ReceiverHandle} {op : RecvOp W} {r' : Receiver T W}
    (begun : Begun kind m handle op m' r') :
    (m.SameWord m' ∧ m'.waker = m.waker ∧ m'.wokenSinceFlush = m.wokenSinceFlush ∧
        m'.senderPoll = m.senderPoll) ∧
      r'.carries = none ∧ r'.fetches = false := by
  induction begun <;> exact ⟨⟨⟨rfl, rfl, rfl⟩, rfl, rfl, rfl⟩, rfl, rfl⟩

/-- What the waiting flush depends on has not changed. -/
theorem Echoed.keep {s : Sender T W} {r r' : Receiver T W} (word : m.SameWord m')
    (stored : m'.waker = m.waker) (woken : m'.wokenSinceFlush = m.wokenSinceFlush)
    (sameFlush : m'.senderPoll = m.senderPoll) (carry : r'.carries = r.carries)
    (fetch : r'.fetches = r.fetches) (polls : s.Polls m r.carries r.fetches)
    (echoed : Echoed m s r) :
    s.Polls m' r'.carries r'.fetches ∧ Echoed m' s r' := by
  have echoes own (echoes : m.Echoes own r.carries r.fetches) :
      m'.Echoes own r'.carries r'.fetches :=
    echoes.keep woken stored word (carry ▸ id) (fetch ▸ id)
  refine ⟨polls.follow .channel ?_ echoes, ?_⟩
  · intro _ active
    exact ⟨word.1 ▸ active, stored⟩
  · intro own waits
    obtain ⟨awaits, waiting⟩ := echoed own (sameFlush.symm.trans waits)
    exact ⟨awaits, echoes own waiting⟩

/-! ## Runs -/

namespace System

variable {s s' : System T W} {label : Label T W}

theorem Notifies.init : Notifies kind (System.init : System T W) where
  parted := Parted.init
  polled := .of_rests (by rintro _ _ ⟨⟩)
  rung := by rintro _ ⟨⟩
  polls := trivial
  echoed := by rintro _ ⟨⟩

theorem Notifies.step [DecidableEq W] (sound : Sound kind s) (alerting : Alerting kind s)
    (opened : Opened kind s) (notifies : Notifies kind s) (heeds : s.heeds label = true)
    (step : System.step kind s label = some s') : Notifies kind s' := by
  obtain ⟨parted, polled, rung, polls, echoed⟩ := notifies
  have sound' := sound.step step
  have opened' := opened.step sound step
  have takes : s.takesFree label := by
    cases label with
    | sender spurious =>
        intro owner poll prev own isLock exchanged genuine
        simpa [System.heeds, isLock, exchanged, genuine] using heeds
    | _ => trivial
  have parted' := parted.step sound takes step
  rcases System.step_cases step with ⟨handle, op, rfl, isIdle, same, begun⟩ |
    ⟨handle, op, rfl, isIdle, same, begun⟩ | ⟨spurious, rfl, same, stepped⟩ |
    ⟨spurious, rfl, same, stepped⟩ | ⟨_, rfl, parked, same, world, reads⟩
  · have points := sound.sender
    rw [isIdle] at rung echoed points
    obtain ⟨sameLast, rung⟩ := rung.sender_begun points begun
    obtain ⟨polls, echoed⟩ := echoed.sender_begun begun
    rw [← same] at polled rung polls echoed
    exact ⟨parted', polled.keep sameLast, rung, polls, echoed⟩
  · obtain ⟨⟨word, stored, woken, sameFlush⟩, carry, fetch⟩ := Receiver.begun_echoes begun
    rw [isIdle] at rung echoed polls
    obtain ⟨polled, rung⟩ := rung.receiver_begun begun
    obtain ⟨polls, echoed⟩ := Echoed.keep word stored woken sameFlush carry fetch polls echoed
    rw [← same] at rung polls echoed
    exact ⟨parted', polled, rung, polls, echoed⟩
  · have sameLast := stepped.memory.lastPoll.trans s.sender.access_calls.lastPoll
    have closes : s.sender = .dropping .close →
        (s.world.state.wake && !s.world.state.wlock) = false := by
      intro isClose
      simpa only [System.heeds, isClose, Bool.not_eq_true'] using heeds
    have finds : ∀ owner poll own, s.sender = .flushWriting owner poll (.lock (some own)) →
        s.world.state.wlock = false → s.world.state.active = true := by
      intro owner poll own isLock free
      simpa [System.heeds, isLock, free] using heeds
    have releases : ∀ waker, s.world.lastPoll = some waker → s.receiver.attached = true →
        ∀ owner poll prev own,
          s.sender = .flushWriting owner poll (.release prev own (some waker)) →
          s.world.state ≠ prev.set { loaded := true, wlock := true, wake := true } →
          waker ∈ s.world.wokenSinceReceive := by
      intro waker waits attached owner poll prev own isRelease differs
      simpa [System.heeds, isRelease, differs, waitsFor, waits, attached] using heeds
    obtain ⟨polls, echoed⟩ :=
      echoed.sender_step sound.locks sound.sender sound.receiver finds takes polls stepped
    rw [← same] at polled polls echoed
    refine ⟨parted', polled.keep sameLast, ?_, polls, echoed⟩
    rw [same]
    intro own waits attached
    have waited := sameLast.symm.trans waits
    exact World.Rings.sender_step sound.locks sound.sender (Receiver.isOpen sound.locks attached)
      parted.ends.sender_ended closes (releases own waited attached) (rung own waited attached)
      stepped
  · have closes : ∀ next, s.receiver = .dropping next .close →
        (s.world.state.wake && !s.world.state.wlock) = false := by
      intro next isClose
      simpa only [System.heeds, isClose, Bool.not_eq_true'] using heeds
    have registers : ∀ call prev own orCancel,
        s.receiver = .reading call (.register prev own orCancel) → s.world.state = prev →
        spurious = false → prev.wake = true → ∀ waker, s.world.lastPoll = some waker →
        s.world.waker = some waker → waker ∈ s.world.wokenSinceReceive := by
      intro call prev own orCancel isRegister exchanged genuine wake waker waits stored
      simpa [System.heeds, isRegister, exchanged, genuine, wake, stored, waitsFor, waits,
        Receiver.attached] using heeds
    have locks' := sound'.locks
    have cell' := opened'.cell
    rw [same] at locks' cell'
    obtain ⟨polled, rung⟩ := rung.receiver_step sound.locks locks' sound.receiver alerting.attends
      polled cell' registers stepped
    have echoes own (echoes : s.world.Echoes own s.receiver.carries s.receiver.fetches) :
        s'.world.Echoes own s'.receiver.carries s'.receiver.fetches :=
      echoes.receiver_step sound.locks parted.apart sound.receiver parted.ends.receiver_ended
        closes stepped
    have polls := polls.follow kind (stepped.spares sound.locks parted.apart sound.receiver) echoes
    rw [← same] at rung polls
    refine ⟨parted', polled, rung, polls, ?_⟩
    intro own waits
    obtain ⟨awaits, waiting⟩ := echoed own (stepped.receives.senderPoll.symm.trans waits)
    rw [same]
    exact ⟨awaits, echoes own waiting⟩
  · have sameLast : s'.world.lastPoll = s.world.lastPoll := by
      rw [world]
      rfl
    have begins : s.world.SameWord s'.world ∧ s'.world.waker = s.world.waker ∧
        s'.world.wokenSinceFlush = s.world.wokenSinceFlush ∧
        s'.world.senderPoll = s.world.senderPoll := by
      rw [world]
      exact ⟨⟨rfl, rfl, rfl⟩, rfl, rfl, rfl⟩
    obtain ⟨word, stored, woken, sameFlush⟩ := begins
    have carry : s'.receiver.carries = s.receiver.carries := by
      rw [reads, parked]
      rfl
    have fetch : s'.receiver.fetches = s.receiver.fetches := by
      rw [reads, parked]
      rfl
    obtain ⟨polls, echoed⟩ := Echoed.keep word stored woken sameFlush carry fetch polls echoed
    rw [← same] at rung polls echoed
    refine ⟨parted', ?_, ?_, polls, echoed⟩
    · rw [reads]
      constructor
      · rintro _ _ ⟨⟩ isPoll
        exact absurd rfl isPoll
      · rintro _ _ ⟨⟩ _
        rfl
    · intro own waits attached
      have waited := rung own (sameLast.symm.trans waits) (by rw [parked]; rfl)
      rw [world]
      exact waited.keep rfl rfl rfl rfl id id id

/-- Every careful run keeps the wakers on their way. -/
theorem Notifies.of_reachable [DecidableEq W]
    (reachable : ReachableUnder (System.step kind) (fun s label => s.heeds label = true)
      System.init s) : Notifies kind s := by
  have known (before : System T W) (reached : ReachableUnder (System.step kind)
      (fun s label => s.heeds label = true) System.init before) :
      Sound kind before ∧ Alerting kind before ∧ Opened kind before :=
    ⟨Sound.of_reachable reached.reachable, Alerting.of_reachable reached.reachable,
      Opened.of_reachable reached.reachable⟩
  apply reachable.invariant_with known Notifies.init
  rintro before label after ⟨sound, alerting, opened⟩ notifies heeds step
  exact notifies.step sound alerting opened heeds step

end System

/-- In a careful run the drop of one side wakes the other, if that one waits. -/
theorem drop_wakes [DecidableEq W] {s : System T W}
    (reachable : ReachableUnder (System.step kind) (fun s label => s.heeds label = true)
      System.init s) : s.DropWakes := by
  have notifies := System.Notifies.of_reachable reachable
  have locks := (System.Sound.of_reachable reachable.reachable).locks
  constructor
  · intro dropped attached waker waits
    obtain ⟨shut, away⟩ := notifies.parted.ends.sender dropped
    have isOpen := Receiver.isOpen locks attached
    rcases notifies.rung waker waits attached with woken | carried | ⟨-, -, live, -⟩
    · exact woken
    · have empty : s.sender.carries = none := by
        generalize s.sender = side at away
        cases side <;> first | rfl | cases away
      rw [empty] at carried
      cases carried
    · simp [World.shut, live, isOpen] at shut
  · intro dropped waker waits
    obtain ⟨shut, away⟩ := notifies.parted.ends.receiver dropped
    obtain ⟨-, woken | carried | ⟨-, -, -, live, isOpen, -⟩⟩ := notifies.echoed waker waits
    · exact woken
    · have empty : s.receiver.carries = none := by
        generalize s.receiver = side at away
        cases side <;> first | rfl | cases away
      rw [empty] at carried
      cases carried
    · simp [World.shut, live, isOpen] at shut

/-- The sender drops after a poll has returned `Pending`. -/
theorem drop_wakes_of_poll : ∃ s : System Nat Nat, s.world.senderDropped = true ∧
    s.world.lastPoll = some 1 ∧ s.DropWakes := by
  obtain ⟨s, ran, dropped, waits⟩ : ∃ s ∈
      runFrom (guarded (System.step .channel) System.heeds) (System.init : System Nat Nat)
        (List.flatten [[.recv (.poll 1)], List.replicate 4 (.receiver false), [.send .drop],
          List.replicate 4 (.sender false)]),
      s.world.senderDropped = true ∧ s.world.lastPoll = some 1 := by
    decide
  exact ⟨s, dropped, waits, drop_wakes (reachableUnder_of_runFrom ran)⟩

/-- The reader gives the lock back between the two accesses of the drop. -/
theorem drop_misses : ¬ ∀ s : System Nat Nat,
    Reachable (System.step .channel) System.init s → s.DropWakes := by
  intro always
  obtain ⟨s, ran, dropped, attached, waits, unwoken⟩ : ∃ s ∈
      runFrom (System.step .channel) (System.init : System Nat Nat)
        [.send .drop, .recv (.poll 1), .receiver false, .receiver false, .sender false,
          .receiver false, .receiver false, .sender false],
      s.world.senderDropped = true ∧ s.receiver.attached = true ∧ s.world.lastPoll = some 1 ∧
        s.world.wokenSinceReceive = [] := by
    decide
  have woken := (always s (reachable_of_runFrom ran)).receiver dropped attached 1 waits
  rw [unwoken] at woken
  cases woken

end Suspend.Channel
