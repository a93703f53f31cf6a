import Suspend.Channel.Hangup
import Suspend.Channel.OneShot
import Suspend.Thread.Blocking

/-!
# A thread blocked on a channel

`wait_read` and `wait_read_timeout` poll the channel with the waker of the
thread's listener and park on it in between, and so does `block_on` with a
`Flush`.  A thread that sleeps in one of them, with no `unpark` on its way, has
missed neither a value nor, in a careful run, what the other side has done.
-/

namespace Suspend.Channel

open Suspend.Transition
open Suspend.Park
open Suspend.Listen
open Suspend.Thread

universe u v

variable {T : Type u} {W : Type v} {m m' : World T W} {kind : Kind} {spurious : Bool} {own : W}

/-! ## The wakes of a step -/

theorem Sender.access_wakes (s : Sender T W) : m.Wakes (s.access kind spurious m) s.wakes := by
  cases s with
  | idle | freeing => exact ⟨rfl, rfl⟩
  | trySending pc | flushWriting _ _ pc => exact pc.step_wakes _ _ m
  | flushing _ _ pc => exact pc.step_wakes _ _ m
  | dropping pc => exact pc.step_wakes true m

theorem Sender.Stepped.wakes {s s' : Sender T W} (step : s.Stepped kind spurious m m' s') :
    m.Wakes m' s.wakes := by
  obtain ⟨receive, flush⟩ : m.Wakes (s.access kind spurious m) s.wakes := s.access_wakes
  exact ⟨step.memory.wokenSinceReceive.trans receive, step.memory.wokenSinceFlush.trans flush⟩

/-! ## The receiving thread -/

variable [DecidableEq W]

/-- A blocking call that polls with `own`, or is parked after such a poll. -/
def Receiver.blocks (own : W) : Receiver T W → Bool
  | reading (.recv waker) _ | reading (.timeout waker) _ | parked (.recv waker)
  | parked (.timeout waker) => waker = own
  | _ => false

/-- `recv`, `join`, `wait_next` and those with a timeout, in a thread whose
listener has `own` as its waker. -/
def receiving (kind : Kind) (own : W) (careful : System T W → Label T W → Bool) :
    Polled (System T W) (Label T W) where
  loop := .blockOnPoll
  step := guarded (System.step kind) careful
  own
    | .recv _ | .receiver _ | .expire => true
    | .send _ | .sender _ => false
  enters
    | .recv _ => true
    | _ => false
  waits s :=
    match s.receiver with
    | .parked (.recv waker) => if waker = own then some false else none
    | .parked (.timeout waker) => if waker = own then some true else none
    | _ => none
  resume timedOut := if timedOut then .expire else .receiver false
  wakes s label := s.wakes label = some own

variable {s s' : System T W} {label : Label T W} {careful : System T W → Label T W → Bool}

theorem receiving_lawful : (receiving kind own careful).Lawful where
  alone s label next timeout waits other step := by
    have same : next.receiver = s.receiver := by
      rcases System.step_cases (guarded_eq_some.mp step).2 with ⟨_, _, _, _, same, _⟩ |
        ⟨_, _, rfl, _⟩ | ⟨_, _, same, _⟩ | ⟨_, rfl, _⟩ | ⟨_, rfl, _⟩
      · exact same
      · cases other
      · exact same
      · cases other
      · cases other
    simp only [receiving] at waits ⊢
    rw [same]
    exact waits
  timeless isLoop := by cases isLoop

/-- What a `read` of the loop leaves behind: it is the same one, or the thread is
parked, or it polls anew. -/
theorem Receiver.Left.woken {call : ReceiveCall W} {result : PollResult T} {r : Receiver T W}
    (left : Left kind m call result m' r) (blocks : r.blocks own = true)
    (woken : own ∈ m'.wokenSinceReceive) :
    (call = .recv own ∨ call = .timeout own) ∧ own ∈ m.wokenSinceReceive := by
  induction left with
  | parked isCall pending =>
      rcases isCall with rfl | rfl <;> obtain rfl := of_decide_eq_true blocks
      · exact ⟨.inl rfl, woken⟩
      · exact ⟨.inr rfl, woken⟩
  | reading => cases woken
  | _ => cases blocks

theorem Receiver.woken_of_stepped {r r' : Receiver T W} (step : r.Stepped kind spurious m m' r')
    (blocks : r'.blocks own = true) (woken : own ∈ m'.wokenSinceReceive) :
    (r.blocks own = true ∧ own ∈ m.wokenSinceReceive) ∨ r.wakes = some own := by
  have accessed {pc : ReadPc T W} {after : World T W}
      (same : (pc.step spurious m).1 = after) (woken : own ∈ after.wokenSinceReceive) :
      own ∈ m.wokenSinceReceive ∨ pc.wakes = some own := by
    rw [← same, (pc.step_wakes spurious m).receive, List.mem_append] at woken
    exact woken.symm.imp_right Option.mem_toList.mp
  induction step with
  | @read call pc next _ inner =>
      have polls : (reading call pc : Receiver T W).blocks own = true := by
        cases call <;> exact blocks
      exact (accessed (by rw [inner]) woken).imp_left fun woken => ⟨polls, woken⟩
  | @readEnd call pc result _ inner =>
      obtain ⟨isOwn, woken⟩ := (finishRead_left kind _ call result).woken blocks woken
      have polls : (reading call pc : Receiver T W).blocks own = true := by
        rcases isOwn with rfl | rfl <;> simp [Receiver.blocks]
      exact (accessed (by rw [inner]) woken).imp_left fun woken => ⟨polls, woken⟩
  | unpark isParked => cases woken
  | @dropEnd _ _ last => cases last <;> cases blocks
  | _ => cases blocks

/-- A step that leaves `own` polling and woken found it so, or has woken it. -/
theorem System.woken_of_step (step : System.step kind s label = some s')
    (blocks : s'.receiver.blocks own = true) (woken : own ∈ s'.world.wokenSinceReceive) :
    (s.receiver.blocks own = true ∧ own ∈ s.world.wokenSinceReceive) ∨
      s.wakes label = some own := by
  rcases step_cases step with ⟨handle, _, rfl, _, same, begun⟩ | ⟨handle, op, rfl, _, _, begun⟩ |
    ⟨spurious, rfl, same, stepped⟩ | ⟨spurious, rfl, _, stepped⟩ | ⟨_, _, _, _, _, reads⟩
  · rw [same] at blocks
    rw [(Sender.begun_alerts begun).2.2.1] at woken
    exact .inl ⟨blocks, woken⟩
  · -- no call begins with a poll of its loop
    generalize s'.receiver = after, s'.world = left at blocks begun
    induction begun with
    | read isRead =>
        rcases isRead with ⟨_, rfl⟩ | ⟨_, _, rfl⟩ | ⟨_, _, rfl⟩ <;> cases blocks
    | _ => cases blocks
  · rw [same] at blocks
    rw [stepped.wakes.receive, List.mem_append] at woken
    rcases woken with wakes | woken
    · exact .inr (Option.mem_toList.mp wakes)
    · exact .inl ⟨blocks, woken⟩
  · exact s.receiver.woken_of_stepped stepped blocks woken
  · rw [reads] at blocks
    cases blocks

/-- A call that goes on after its park polls anew, or no longer polls. -/
theorem System.woken_of_resume {call : ReceiveCall W} {timedOut : Bool}
    (isParked : s.receiver = .parked call)
    (step : System.step kind s ((receiving kind own careful).resume timedOut) = some s')
    (blocks : s'.receiver.blocks own = true) : s'.world.wokenSinceReceive = [] := by
  cases timedOut <;> cases call <;>
    simp only [receiving, if_true, if_false, reduceCtorEq, System.step, isParked, Receiver.step,
      Receiver.expire, Option.map_some, Option.map_none, Option.some.injEq] at step <;>
    subst step <;> first | rfl | cases blocks

theorem receiving_notes : (receiving kind own careful).Notes System.init
    fun s : System T W => s.receiver.blocks own = true ∧ own ∈ s.world.wokenSinceReceive where
  init := by
    rintro ⟨⟨⟩, _⟩
  step s label next _ step noted := by
    have woken := System.woken_of_step (guarded_eq_some.mp step).2 noted.1 noted.2
    exact woken.imp_right decide_eq_true
  resume s timedOut next _ waits step noted := by
    cases isReceiver : s.receiver with
    | parked call =>
        have unwoken := System.woken_of_resume isReceiver (guarded_eq_some.mp step).2 noted.1
        rw [unwoken] at noted
        cases noted.2
    | _ => simp [receiving, isReceiver] at waits

omit [DecidableEq W] in
/-- Only a poll that returned `Pending` parks. -/
theorem Receiver.Left.polls {call : ReceiveCall W} {result : PollResult T} {r : Receiver T W}
    (left : Left kind m call result m' r) (parked : ReceiveCall W) (isParked : r = .parked parked) :
    ∃ waker, parked.waker = some waker ∧ m'.receiverPoll = some waker ∧
      m'.lastPoll = some waker := by
  induction left <;> cases isParked
  case parked waker blocks _ => rcases blocks with rfl | rfl <;> exact ⟨waker, rfl, rfl, rfl⟩

omit [DecidableEq W] in
theorem Receiver.Stepped.parked {r r' : Receiver T W} (step : r.Stepped kind spurious m m' r') :
    ∀ call, r' = .parked call → ∃ waker, call.waker = some waker ∧
      m'.receiverPoll = some waker ∧ m'.lastPoll = some waker := by
  intro call isParked
  induction step with
  | @readEnd call' pc result after inner =>
      exact (finishRead_left kind after call' result).polls call isParked
  | @dropEnd _ _ last => cases last <;> cases isParked
  | _ => cases isParked

namespace System

/-- A parked call has polled with its waker, and no other call has come since. -/
def Parked (s : System T W) : Prop :=
  ∀ call, s.receiver = .parked call → ∃ waker, call.waker = some waker ∧
    s.world.receiverPoll = some waker ∧ s.world.lastPoll = some waker

omit [DecidableEq W] in
theorem Parked.step (parked : s.Parked) (step : System.step kind s label = some s') :
    s'.Parked := by
  rcases step_cases step with ⟨_, _, _, _, same, begun⟩ | ⟨_, _, _, _, _, begun⟩ |
    ⟨_, _, same, stepped⟩ | ⟨_, _, _, stepped⟩ | ⟨_, _, _, _, _, reads⟩
  · intro call isParked
    obtain ⟨waker, polls, isPoll, isLast⟩ := parked call (same.symm.trans isParked)
    have receiverPoll := (Sender.begun_alerts begun).2.2.2.1
    have lastPoll : s'.world.lastPoll = s.world.lastPoll := by
      generalize s'.sender = after, s'.world = left at begun
      induction begun <;> rfl
    exact ⟨waker, polls, receiverPoll.trans isPoll, lastPoll.trans isLast⟩
  · intro call isParked
    generalize s'.receiver = after, s'.world = left at isParked begun
    induction begun <;> cases isParked
  · intro call isParked
    obtain ⟨waker, polls, isPoll, isLast⟩ := parked call (same.symm.trans isParked)
    obtain ⟨-, -, -, -, -, receiverPoll, lastPoll, -⟩ := s.sender.access_calls
    exact ⟨waker, polls, stepped.memory.receiverPoll.trans (receiverPoll.trans isPoll),
      stepped.memory.lastPoll.trans (lastPoll.trans isLast)⟩
  · exact stepped.parked
  · intro call isParked
    rw [reads] at isParked
    cases isParked

omit [DecidableEq W] in
theorem Parked.of_reachable (reachable : Reachable (System.step kind) System.init s) :
    s.Parked := by
  apply reachable.invariant
  · rintro _ ⟨⟩
  · intro before label after parked _ step
    exact parked.step step

end System

section Loop

variable {σ L P : Type} {impl : WakingParker σ L P} [DecidableEq P]
  {b : Blocked (System T W) σ}

/-- Where a receiving thread sleeps: its poll has returned `Pending`, and what
has woken its waker since is on the way to wake the thread too. -/
theorem receiving_asleep (lawful : impl.Lawful) (hears : impl.Hears)
    (reachable : Reachable (Blocked.step (receiving kind own careful) impl)
      { call := System.init, parker := impl.init } b)
    (isAsleep : impl.asleep b.parker = true) :
    ReachableUnder (System.step kind) (fun s label => careful s label = true) System.init b.call ∧
    (b.call.world.receiverPoll = some own ∧ b.call.world.lastPoll = some own ∧
      ∃ call, b.call.receiver = .parked call) ∧
    (own ∈ b.call.world.wokenSinceReceive → impl.coming b.parker = true) := by
  have kept := Blocked.Kept.of_reachable lawful receiving_lawful reachable
  have noticed := Blocked.Noticed.of_reachable lawful receiving_lawful receiving_notes reachable
  have reached := reachableUnder_of_guarded noticed.reachable
  have waits := kept.waits lawful isAsleep
  refine ⟨reached, ?_⟩
  cases isReceiver : b.call.receiver with
  | parked call =>
      obtain ⟨waker, polls, isPoll, isLast⟩ :=
        System.Parked.of_reachable reached.reachable call isReceiver
      have isOwn : waker = own ∧ b.call.receiver.blocks own = true := by
        cases call <;> simp_all [receiving, ReceiveCall.waker, Receiver.blocks]
      obtain ⟨rfl, blocks⟩ := isOwn
      refine ⟨⟨isPoll, isLast, call, rfl⟩, ?_⟩
      intro woken
      exact Blocked.coming_of_noted lawful hears receiving_lawful receiving_notes reachable isAsleep
        ⟨blocks, woken⟩
  | _ => simp [receiving, isReceiver] at waits

/-- What a value that has been published does for a thread that sleeps. -/
structure Rouses (impl : WakingParker σ L P) (kind : Kind) (own : W)
    (b : Blocked (System T W) σ) : Prop where
  /-- It sleeps only until the sender's call has had its waker. -/
  loaded : impl.asleep b.parker = true → b.call.world.state.loaded = true →
    impl.coming b.parker = true ∨ b.call.sender.Carries own b.call.world
  /-- Let go on, that call wakes the thread or sends the `unpark` that will. -/
  carried : impl.asleep b.parker = true → b.call.sender.Carries own b.call.world →
    ∃ n b', runFrom (Blocked.step (receiving kind own fun _ _ => true) impl) b
        (List.replicate n (.call (.sender false))) = some b' ∧
      (impl.asleep b'.parker = true → impl.coming b'.parker = true)

theorem rouses_of_reachable (lawful : impl.Lawful) (hears : impl.Hears)
    (reachable : Reachable (Blocked.step (receiving kind own fun _ _ => true) impl)
      { call := System.init, parker := impl.init } b) : Rouses impl kind own b := by
  constructor
  · intro isAsleep loaded
    obtain ⟨reached, ⟨isPoll, _⟩, comes⟩ := receiving_asleep lawful hears reachable isAsleep
    have alerting := System.Alerting.of_reachable reached.reachable
    obtain ⟨_, woken | carried | ⟨unloaded, _⟩⟩ := alerting.waits own isPoll
    · exact .inl (comes woken)
    · exact .inr carried
    · rw [loaded] at unloaded
      cases unloaded
  · intro isAsleep carried
    obtain ⟨reached, ⟨isPoll, _⟩, _⟩ := receiving_asleep lawful hears reachable isAsleep
    have sound := System.Sound.of_reachable reached.reachable
    have alerting := System.Alerting.of_reachable reached.reachable
    obtain ⟨n, call, ran, woken⟩ := sound.wakes (sound.isOpen (alerting.waits own isPoll).1) carried
    obtain ⟨last, followed, rfl⟩ :=
      Blocked.follow (receiving kind own fun _ _ => true) lawful (by simp [receiving]) ran
    rw [List.map_replicate] at followed
    refine ⟨n, last, followed, ?_⟩
    intro stillAsleep
    have reachedLast := reachable.trans (reachable_of_runFrom followed)
    exact (receiving_asleep lawful hears reachedLast stillAsleep).2.2 woken

end Loop

namespace Sender

/-- A `Flush` polled with `own`, or waiting after such a poll. -/
def blocks (own : W) (m : World T W) : Sender T W → Bool
  | idle (.flush _ true none) => m.senderPoll = some own
  | flushWriting _ waker _ | flushing _ waker _ => waker = own
  | _ => false

omit [DecidableEq W] in
/-- A poll of a `Flush` in progress has nothing to wait for yet. -/
def Pended (m : World T W) : Sender T W → Prop
  | flushWriting .. | flushing .. => m.senderPoll = none
  | _ => True

end Sender

/-- `block_on` with a `Flush`, in a thread whose listener has `own` as its
waker. -/
def flushing (kind : Kind) (own : W) (careful : System T W → Label T W → Bool) :
    Polled (System T W) (Label T W) where
  loop := .blockOn
  step := guarded (System.step kind) careful
  own
    | .send _ | .sender _ => true
    | .recv _ | .receiver _ | .expire => false
  enters
    | .send (.send _) => true
    | _ => false
  waits s :=
    match s.sender with
    | .idle (.flush _ true none) => if s.world.senderPoll = some own then some false else none
    | _ => none
  resume _ := .send (.poll own)
  wakes s label := s.wakes label = some own

theorem flushing_lawful : (flushing kind own careful).Lawful where
  alone s label next timeout waits other step := by
    have same : next.sender = s.sender ∧ next.world.senderPoll = s.world.senderPoll := by
      rcases System.step_cases (guarded_eq_some.mp step).2 with ⟨_, _, rfl, _⟩ |
        ⟨_, _, _, _, same, begun⟩ | ⟨_, rfl, _⟩ | ⟨_, _, same, stepped⟩ | ⟨_, _, _, same, world, _⟩
      · cases other
      · exact ⟨same, (Receiver.begun_echoes begun).1.2.2.2⟩
      · cases other
      · exact ⟨same, stepped.receives.senderPoll⟩
      · exact ⟨same, world ▸ rfl⟩
    simp only [flushing] at waits ⊢
    rw [same.1, same.2]
    exact waits
  timeless _ s := by
    simp only [flushing]
    split
    · split <;> simp
    · simp

omit [DecidableEq W] in
theorem Receiver.Stepped.wakes {r r' : Receiver T W} (step : r.Stepped kind spurious m m' r') :
    m'.wokenSinceFlush = r.wakes.toList ++ m.wokenSinceFlush := by
  induction step with
  | @read call pc next _ inner =>
      have wakes := (pc.step_wakes spurious m).flush
      rw [inner] at wakes
      exact wakes
  | @readEnd call pc result after inner =>
      have wakes := (pc.step_wakes spurious m).flush
      rw [inner] at wakes
      refine Eq.trans ?_ wakes
      exact (finishRead_noted kind after call result).sender_polls.2
  | unpark => rfl
  | @drop handle pc next _ inner =>
      have wakes := (pc.step_wakes false m).flush
      rw [inner] at wakes
      exact wakes
  | @dropEnd handle pc last _ inner =>
      have wakes := (pc.step_wakes false m).flush
      rw [inner] at wakes
      exact wakes
  | free => rfl

omit [DecidableEq W] in
theorem Sender.Stepped.pended {r r' : Sender T W} (pended : r.Pended m)
    (step : r.Stepped kind spurious m m' r') : r'.Pended m' := by
  have same : (r.access kind spurious m).senderPoll = m.senderPoll := r.access_calls.senderPoll
  induction step with
  | flushWrite inner | flush inner =>
      simp only [access, inner] at same
      exact same.trans pended
  | @trySendEnd _ result =>
      rcases result with _ | ⟨_, _ | _⟩ | _ <;> cases kind <;> trivial
  | @flushWriteEnd _ _ _ result =>
      cases result <;> simp only [finishFlushWrite] <;> (try split_ifs) <;> trivial
  | @flushEnd _ _ _ result =>
      cases result <;> simp only [finishFlush] <;> (try split_ifs) <;> trivial
  | @dropEnd _ last => cases last <;> trivial
  | _ => trivial

omit [DecidableEq W] in
theorem Sender.Pended.keep {r : Sender T W} (pended : r.Pended m)
    (same : m'.senderPoll = m.senderPoll) : r.Pended m' := by
  cases r <;> first | exact same.trans pended | trivial

namespace System

def Pended (s : System T W) : Prop :=
  s.sender.Pended s.world

omit [DecidableEq W] in
theorem Pended.step (pended : s.Pended) (step : System.step kind s label = some s') :
    s'.Pended := by
  rcases step_cases step with ⟨_, _, _, _, _, begun⟩ | ⟨_, _, _, _, same, begun⟩ |
    ⟨_, _, _, stepped⟩ | ⟨_, _, same, stepped⟩ | ⟨_, _, _, same, world, _⟩
  · unfold Pended
    generalize s'.sender = after, s'.world = left at begun
    induction begun <;> trivial
  · have kept := Sender.Pended.keep pended (Receiver.begun_echoes begun).1.2.2.2
    rw [← same] at kept
    exact kept
  · exact stepped.pended pended
  · have kept := Sender.Pended.keep pended stepped.receives.senderPoll
    rw [← same] at kept
    exact kept
  · have kept : s.sender.Pended s'.world := Sender.Pended.keep pended (world ▸ rfl)
    rw [← same] at kept
    exact kept

omit [DecidableEq W] in
theorem Pended.of_reachable (reachable : Reachable (System.step kind) System.init s) :
    s.Pended := by
  apply reachable.invariant
  · trivial
  · intro before label after pended _ step
    exact pended.step step

end System

/-- A step of the sending side that leaves `own` polling and woken found it so,
or has woken it. -/
theorem Sender.woken_of_stepped {r r' : Sender T W} (points : r.Local kind) (pended : r.Pended m)
    (step : r.Stepped kind spurious m m' r') (blocks : r'.blocks own m' = true)
    (woken : own ∈ m'.wokenSinceFlush) :
    (r.blocks own m = true ∧ own ∈ m.wokenSinceFlush) ∨ r.wakes = some own := by
  have polls : r.blocks own m = true := by
    have same : (r.access kind spurious m).senderPoll = m.senderPoll := r.access_calls.senderPoll
    induction step with
    | flushWrite inner | flush inner => exact blocks
    | @trySendEnd _ result =>
        rcases result with _ | ⟨_, _ | _⟩ | _ <;> cases kind <;> cases blocks
    | @flushWriteEnd owner waker pc result after inner =>
        simp only [access, inner] at same
        have nobody : after.senderPoll = none := same.trans pended
        rcases result with _ | ⟨value, dropped⟩ | _
        · simpa [finishFlushWrite, Sender.blocks, World.pendFlush] using blocks
        · simp only [finishFlushWrite] at blocks
          split at blocks
          · cases blocks
          · simp [Sender.blocks, World.giveBack, World.endWrite, nobody] at blocks
        · cases blocks
    | @flushEnd owner waker pc result after inner =>
        simp only [access, inner] at same
        have nobody : after.senderPoll = none := same.trans pended
        rcases result with _ | ⟨value, dropped⟩ | _
        · simpa [finishFlush, Sender.blocks, World.pendFlush] using blocks
        · simp only [finishFlush] at blocks
          split at blocks
          · cases blocks
          · simp [Sender.blocks, World.giveBack, nobody] at blocks
        · cases blocks
    | @dropEnd _ last => cases last <;> cases blocks
    | @free next =>
        rcases next with _ | _ | ⟨owner, channel, value⟩ | _ <;>
          simp_all [Sender.blocks, Sender.Local]
    | _ => cases blocks
  rw [step.wakes.flush, List.mem_append] at woken
  rcases woken with wakes | woken
  · exact .inr (Option.mem_toList.mp wakes)
  · exact .inl ⟨polls, woken⟩

/-- A poll of a `Flush` that begins has not been woken. -/
theorem Sender.woken_of_begun {handle : SenderHandle T} {op : SendOp T W} {r' : Sender T W}
    (begun : Begun kind m handle op m' r') (blocks : r'.blocks own m' = true) :
    own ∉ m'.wokenSinceFlush := by
  intro woken
  induction begun with
  | @dropBorrow owner => cases owner <;> cases blocks
  | _ => first | cases woken | cases blocks

theorem flushing_notes : (flushing kind own careful).Notes System.init
    fun s : System T W => s.sender.blocks own s.world = true ∧ own ∈ s.world.wokenSinceFlush where
  init := by
    rintro ⟨⟨⟩, _⟩
  step s label next reachable step noted := by
    have reached := (reachableUnder_of_guarded reachable).reachable
    have points := (System.Sound.of_reachable reached).sender
    obtain ⟨blocks, woken⟩ := noted
    have kept (same : next.sender = s.sender)
        (polled : next.world.senderPoll = s.world.senderPoll) :
        s.sender.blocks own s.world = true := by
      rw [same] at blocks
      unfold Sender.blocks at blocks ⊢
      rw [polled] at blocks
      exact blocks
    rcases System.step_cases (guarded_eq_some.mp step).2 with ⟨_, _, rfl, _, _, begun⟩ |
      ⟨_, _, _, _, same, begun⟩ | ⟨_, rfl, _, stepped⟩ | ⟨_, rfl, same, stepped⟩ |
      ⟨_, _, _, same, world, _⟩
    · exact absurd woken (Sender.woken_of_begun begun blocks)
    · obtain ⟨_, _, unwoken, polled⟩ := (Receiver.begun_echoes begun).1
      exact .inl ⟨kept same polled, unwoken ▸ woken⟩
    · have pended := System.Pended.of_reachable reached
      exact (Sender.woken_of_stepped points pended stepped blocks woken).imp_right decide_eq_true
    · rw [stepped.wakes, List.mem_append] at woken
      rcases woken with wakes | woken
      · exact .inr (decide_eq_true (Option.mem_toList.mp wakes))
      · exact .inl ⟨kept same stepped.receives.senderPoll, woken⟩
    · rw [world] at woken
      exact .inl ⟨kept same (world ▸ rfl), woken⟩
  resume s timedOut next _ waits step noted := by
    rcases System.step_cases (guarded_eq_some.mp step).2 with ⟨_, _, _, _, _, begun⟩ |
      ⟨_, _, isRecv, _⟩ | ⟨_, isSender, _⟩ | ⟨_, isReceiver, _⟩ | ⟨_, expires, _⟩
    · exact Sender.woken_of_begun begun noted.1 noted.2
    · cases isRecv
    · cases isSender
    · cases isReceiver
    · cases expires

/-- Where a thread sleeps over its `Flush`: the poll has returned `Pending`, and
what has woken its waker since is on the way to wake the thread too. -/
theorem flushing_asleep {σ L P : Type} {impl : WakingParker σ L P} [DecidableEq P]
    {b : Blocked (System T W) σ} (lawful : impl.Lawful) (hears : impl.Hears)
    (reachable : Reachable (Blocked.step (flushing kind own careful) impl)
      { call := System.init, parker := impl.init } b)
    (isAsleep : impl.asleep b.parker = true) :
    ReachableUnder (System.step kind) (fun s label => careful s label = true) System.init b.call ∧
    (b.call.world.senderPoll = some own ∧
      ∃ owner, b.call.sender = .idle (.flush owner true none)) ∧
    (own ∈ b.call.world.wokenSinceFlush → impl.coming b.parker = true) := by
  have kept := Blocked.Kept.of_reachable lawful flushing_lawful reachable
  have noticed := Blocked.Noticed.of_reachable lawful flushing_lawful flushing_notes reachable
  have waits := kept.waits lawful isAsleep
  refine ⟨reachableUnder_of_guarded noticed.reachable, ?_⟩
  simp only [flushing] at waits
  split at waits
  · rename_i owner isFlush
    split at waits
    · rename_i isPoll
      refine ⟨⟨isPoll, owner, isFlush⟩, ?_⟩
      intro woken
      exact Blocked.coming_of_noted lawful hears flushing_lawful flushing_notes reachable isAsleep
        ⟨by simp [Sender.blocks, isFlush, isPoll], woken⟩
    · exact absurd rfl waits
  · exact absurd rfl waits

end Suspend.Channel
