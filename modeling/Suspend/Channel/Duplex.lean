import Suspend.Channel.Blocking
import Suspend.Channel.Try
import Suspend.Thread.Pair

/-!
# Two threads on one channel

As long as the receiver has the channel, no flush loses its waker: nobody closes
the channel under it, and it finds the waker lock taken only by a `read`.  So a
thread that blocks on its `Flush` and one that blocks in a receive never wait
for each other.
-/

namespace Suspend.Channel

open Suspend.Transition
open Suspend.Listen
open Suspend.Park
open Suspend.Thread

universe u v

variable {T : Type u} {W : Type v} {kind : Kind}

/-! ## A receiver that has the channel -/

namespace System

variable {s s' : System T W} {label : Label T W}

theorem LockHeld.of_reachable (reachable : Reachable (System.step kind) System.init s) :
    LockHeld kind s := by
  apply reachable.invariant_with (fun _ earlier => Sound.of_reachable earlier) LockHeld.init
  intro before label after sound held _ step
  exact held.step sound step

/-- A receiver that has the channel has had it all along. -/
theorem attached_of_step (sound : Sound kind s) (step : System.step kind s label = some s')
    (attached : s'.receiver.attached = true) : s.receiver.attached = true := by
  rcases System.step_cases step with ⟨_, _, _, _, same, _⟩ | ⟨_, _, _, isIdle, _, begun⟩ |
    ⟨_, _, same, _⟩ | ⟨_, _, _, stepped⟩ | ⟨_, _, parked, _⟩
  · exact same ▸ attached
  · obtain rfl := begun.attached attached
    rw [isIdle]
    rfl
  · exact same ▸ attached
  · exact stepped.attached sound.receiver attached
  · rw [parked]
    rfl

/-- The waker of a flush that waits is on its way. -/
structure Answered (kind : Kind) (s : System T W) : Prop where
  apart : Apart s.world (s.sender.sections kind) s.receiver.sections
  polls : s.sender.Polls s.world s.receiver.carries s.receiver.fetches
  echoed : Echoed s.world s.sender s.receiver

theorem Answered.init : Answered kind (System.init : System T W) where
  apart := Parted.init.apart
  polls := trivial
  echoed := by rintro _ ⟨⟩

/-- A flush that tries for the lock has seen that nobody reads. -/
theorem LockHeld.takesFree (sound : Sound kind s) (held : LockHeld kind s)
    (attached : s.receiver.attached = true) : s.takesFree label := by
  cases label with
  | sender spurious =>
      intro owner poll prev own isLock exchanged _
      have points := sound.sender
      rw [isLock] at points
      obtain ⟨⟨active, _, unread⟩, _⟩ := points
      by_contra locked
      have isLocked : prev.wlock = true := by simpa using locked
      rw [← exchanged] at isLocked active unread
      rcases held.held active isLocked with holds | holds
      · rw [isLock] at holds
        cases holds
      · have rlock := sound.locks.rlock_eq
        rw [unread] at rlock
        have takes := sound.locks.takingLocked
        have drops : s.receiver.sections.dropHolds = false := by
          generalize s.receiver = side at attached
          cases side with
          | idle handle => cases handle <;> rfl
          | reading call pc => cases pc <;> rfl
          | parked => rfl
          | dropping | freeing => cases attached
        simp only [RecvSections.holds, drops, Bool.or_false, Bool.or_eq_true] at holds
        rcases holds with taking | registering
        · simp [(takes taking).1] at rlock
        · simp [registering] at rlock
  | _ => trivial

theorem Answered.step (sound : Sound kind s) (held : LockHeld kind s)
    (attached : s.receiver.attached = true) (answered : Answered kind s)
    (step : System.step kind s label = some s') : Answered kind s' := by
  obtain ⟨apart, polls, echoed⟩ := answered
  have takes : s.takesFree label := held.takesFree sound attached
  rcases System.step_cases step with ⟨handle, op, rfl, isIdle, same, begun⟩ |
    ⟨handle, op, rfl, isIdle, same, begun⟩ | ⟨spurious, rfl, same, stepped⟩ |
    ⟨spurious, rfl, same, stepped⟩ | ⟨_, rfl, parked, same, world, reads⟩
  · rw [isIdle] at echoed
    obtain ⟨polls, echoed⟩ := echoed.sender_begun begun
    rw [← same] at apart polls echoed
    exact ⟨apart.sender_begun begun, polls, echoed⟩
  · obtain ⟨⟨word, stored, woken, sameFlush⟩, carry, fetch⟩ := Receiver.begun_echoes begun
    rw [isIdle] at echoed polls
    obtain ⟨polls, echoed⟩ := Echoed.keep word stored woken sameFlush carry fetch polls echoed
    rw [← same] at apart polls echoed
    exact ⟨apart.receiver_begun begun, polls, echoed⟩
  · -- the receiver has the channel, so only the sender itself can have closed it
    have finds : ∀ owner poll own, s.sender = .flushWriting owner poll (.lock (some own)) →
        s.world.state.wlock = false → s.world.state.active = true := by
      intro owner poll own isLock _
      have live := sound.locks.live
      rw [isLock] at live
      rw [sound.locks.active_eq, live rfl, Receiver.isOpen sound.locks attached]
      rfl
    obtain ⟨polls, echoed⟩ :=
      echoed.sender_step sound.locks sound.sender sound.receiver finds takes polls stepped
    have apart := apart.sender_step sound.locks sound.sender takes stepped
    rw [← same] at apart polls echoed
    exact ⟨apart, polls, echoed⟩
  · have undropped {next : ReceiverHandle} {pc : DropPc W}
        (isDrop : s.receiver = .dropping next pc) : False := by
      rw [isDrop] at attached
      cases attached
    have echoes own (echoes : s.world.Echoes own s.receiver.carries s.receiver.fetches) :
        s'.world.Echoes own s'.receiver.carries s'.receiver.fetches :=
      echoes.receiver_step sound.locks apart sound.receiver
        (fun _ _ isDrop => (undropped isDrop).elim) (fun _ isClose => (undropped isClose).elim)
        stepped
    have polls := polls.follow kind (stepped.spares sound.locks apart sound.receiver) echoes
    have apart := apart.receiver_step sound.locks stepped
    rw [← same] at apart polls
    refine ⟨apart, polls, ?_⟩
    intro own waits
    obtain ⟨awaits, waiting⟩ := echoed own (stepped.receives.senderPoll.symm.trans waits)
    rw [same]
    exact ⟨awaits, echoes own waiting⟩
  · obtain ⟨word, stored, woken, sameFlush⟩ : s.world.SameWord s'.world ∧
        s'.world.waker = s.world.waker ∧
        s'.world.wokenSinceFlush = s.world.wokenSinceFlush ∧
        s'.world.senderPoll = s.world.senderPoll := by
      rw [world]
      exact ⟨⟨rfl, rfl, rfl⟩, rfl, rfl, rfl⟩
    have carry : s'.receiver.carries = s.receiver.carries := by
      rw [reads, parked]
      rfl
    have fetch : s'.receiver.fetches = s.receiver.fetches := by
      rw [reads, parked]
      rfl
    obtain ⟨polls, echoed⟩ := Echoed.keep word stored woken sameFlush carry fetch polls echoed
    rw [← same] at apart polls echoed
    refine ⟨?_, polls, echoed⟩
    rw [reads, world]
    rw [parked] at apart
    exact apart.keep rfl id id id

theorem Answered.of_reachable (reachable : Reachable (System.step kind) System.init s)
    (attached : s.receiver.attached = true) : Answered kind s := by
  have known (before : System T W) (reached : Reachable (System.step kind) System.init before) :
      Sound kind before ∧ LockHeld kind before :=
    ⟨Sound.of_reachable reached, LockHeld.of_reachable reached⟩
  revert attached
  apply reachable.invariant_with known
  · exact fun _ => Answered.init
  · rintro before label after ⟨sound, held⟩ answered _ step attached
    have wasAttached := attached_of_step sound step attached
    exact (answered wasAttached).step sound held wasAttached step

end System

/-! ## The two threads -/

variable [DecidableEq W] {sender receiver : W}

/-- One thread polls its `Flush` with the waker `sender`, the other receives with
`receiver`. -/
theorem duplex_shares (kind : Kind) (sender receiver : W) :
    Pair.Shares (flushing (T := T) kind sender fun _ _ => true)
      (receiving kind receiver fun _ _ => true) where
  step := rfl
  own label := by cases label <;> rfl
  first _ := rfl
  second timedOut := by cases timedOut <;> rfl

/-- Neither thread waits for the other. -/
structure Undeadlocked {σ L P : Type} [DecidableEq P] (impl : WakingParker σ L P) (kind : Kind)
    (sender receiver : W) (s : Pair (System T W) σ) : Prop where
  /-- A thread sleeps over its `Flush` only while its value is in the channel, or
  its waker on the way. -/
  sends : impl.asleep s.first.parker = true → s.first.call.receiver.attached = true →
    impl.coming s.first.parker = true ∨ s.first.call.receiver.carries = some sender ∨
      s.first.call.world.state.loaded = true ∧ s.first.call.world.receiverClosed = false
  /-- If both sleep, the `unpark` calls in progress wake one of them. -/
  moves : impl.asleep s.first.parker = true → impl.asleep s.second.parker = true →
    ∃ notifiers next,
      (runFrom (Pair.step (flushing kind sender fun _ _ => true)
          (receiving kind receiver fun _ _ => true) impl) s
            (List.map (fun index => .first (.notify index)) notifiers) = some next ∧
        impl.asleep next.first.parker = false) ∨
      (runFrom (Pair.step (flushing kind sender fun _ _ => true)
          (receiving kind receiver fun _ _ => true) impl) s
            (List.map (fun index => .second (.notify index)) notifiers) = some next ∧
        impl.asleep next.second.parker = false)

theorem undeadlocked_of_reachable {σ L P : Type} [DecidableEq P] {impl : WakingParker σ L P}
    {s : Pair (System T W) σ} (lawful : impl.Lawful) (hears : impl.Hears)
    (delivers : impl.Delivers)
    (reachable : Reachable (Pair.step (flushing kind sender fun _ _ => true)
      (receiving kind receiver fun _ _ => true) impl) (Pair.init impl System.init) s) :
    Undeadlocked impl kind sender receiver s := by
  obtain ⟨first, second, same⟩ :=
    Pair.Apart.of_reachable (duplex_shares kind sender receiver) reachable
  have sends (isAsleep : impl.asleep s.first.parker = true)
      (attached : s.first.call.receiver.attached = true) :
      impl.coming s.first.parker = true ∨ s.first.call.receiver.carries = some sender ∨
        s.first.call.world.state.loaded = true ∧ s.first.call.world.receiverClosed = false := by
    obtain ⟨reached, ⟨isPoll, _⟩, comes⟩ := flushing_asleep lawful hears first isAsleep
    have answered := System.Answered.of_reachable reached.reachable attached
    obtain ⟨_, woken | carried | ⟨_, _, loaded, _, isOpen, _⟩⟩ := answered.echoed sender isPoll
    · exact .inl (comes woken)
    · exact .inr (.inl carried)
    · exact .inr (.inr ⟨loaded, isOpen⟩)
  refine ⟨sends, ?_⟩
  intro firstAsleep secondAsleep
  obtain ⟨_, ⟨_, _, call, isParked⟩, _⟩ := receiving_asleep lawful hears second secondAsleep
  have isReceiver : s.first.call.receiver = .parked call := same ▸ isParked
  have wakesSecond (comes : impl.coming s.second.parker = true) := by
    exact delivers s.second.parker
      (Blocked.Kept.of_reachable lawful receiving_lawful second).reachable secondAsleep comes
  rcases sends firstAsleep (by rw [isReceiver]; rfl) with comes | carried | ⟨loaded, _⟩
  · obtain ⟨notifiers, parker, ran, awake⟩ := delivers s.first.parker
      (Blocked.Kept.of_reachable lawful flushing_lawful first).reachable firstAsleep comes
    exact ⟨notifiers, _, .inl ⟨Pair.run_first ran, awake⟩⟩
  · rw [isReceiver] at carried
    cases carried
  · rcases (rouses_of_reachable lawful hears second).loaded secondAsleep (same ▸ loaded) with
      comes | carried
    · obtain ⟨notifiers, parker, ran, awake⟩ := wakesSecond comes
      exact ⟨notifiers, _, .inr ⟨Pair.run_second ran, awake⟩⟩
    · obtain ⟨_, ⟨_, owner, isSender⟩, _⟩ := flushing_asleep lawful hears first firstAsleep
      rw [← same, isSender] at carried
      cases carried

/-- In every run of two threads on the two sides of a channel, neither thread
waits for the other. -/
theorem channel_undeadlocked (kind : Kind) (sender receiver : W) :
    (∀ s : Pair (System T W) Condvar.System,
      Reachable (Pair.step (flushing kind sender fun _ _ => true)
        (receiving kind receiver fun _ _ => true) (wakingCondvar .pthread))
          (Pair.init (wakingCondvar .pthread) System.init) s →
      Undeadlocked (wakingCondvar .pthread) kind sender receiver s) ∧
    ∀ s : Pair (System T W) Futex.System,
      Reachable (Pair.step (flushing kind sender fun _ _ => true)
        (receiving kind receiver fun _ _ => true) wakingFutex)
          (Pair.init wakingFutex System.init) s →
      Undeadlocked wakingFutex kind sender receiver s := by
  constructor
  · intro s reachable
    exact undeadlocked_of_reachable (wakingCondvar_lawful .pthread) wakingCondvar_hears
      wakingCondvar_delivers reachable
  · intro s reachable
    exact undeadlocked_of_reachable wakingFutex_lawful wakingFutex_hears wakingFutex_delivers
      reachable

/-- Both threads sleep: the receiving one since before the value was written, the
sending one since its waker was stored. -/
theorem channel_undeadlocked_asleep : ∃ s : Pair (System Nat Nat) Futex.System,
    (wakingFutex.asleep s.first.parker = true ∧ wakingFutex.asleep s.second.parker = true) ∧
      s.first.call.world.state.loaded = true ∧ Undeadlocked wakingFutex .channel 1 2 s := by
  obtain ⟨s, ran, asleep, loaded⟩ : ∃ s : Pair (System Nat Nat) Futex.System,
      runFrom (Pair.step (flushing .channel 1 fun _ _ => true)
        (receiving .channel 2 fun _ _ => true) wakingFutex) (Pair.init wakingFutex System.init)
        ((List.flatten [[.call (.recv (.recv 2))], List.replicate 5 (.call (.receiver false)),
           [.park, .go .goes, .go .goes]] : List (BlockedLabel (Label Nat Nat))).map .second ++
          (List.flatten [[.call (.send (.send 7)), .call (.send (.poll 1))],
            List.replicate 7 (.call (.sender false)),
            [.park, .go .goes, .go .goes]] : List (BlockedLabel (Label Nat Nat))).map .first) =
        some s ∧
      (wakingFutex.asleep s.first.parker = true ∧ wakingFutex.asleep s.second.parker = true) ∧
        s.first.call.world.state.loaded = true :=
    ⟨_, rfl, ⟨rfl, rfl⟩, rfl⟩
  exact ⟨s, asleep, loaded, (channel_undeadlocked .channel 1 2).2 s (reachable_of_runFrom ran)⟩

end Suspend.Channel
