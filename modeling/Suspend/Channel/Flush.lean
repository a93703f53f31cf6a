import Mathlib
import Suspend.Channel.Queue
import Suspend.Channel.OneShot

/-!
# What a flush reports

A `Flush` resolves to `Ok` for a value that has been received, and gives back
one that has not been and will not be.  Until it resolves, its value is the
last one published, and it is in the cell or with the receiving side.
-/

namespace Suspend.Channel

open Suspend.Transition

universe u v

variable {T : Type u} {W : Type v}

/-! ## Where the value is -/

/-- The value published as number `place` has been received. -/
def World.Got (m : World T W) (v : T) (place : Option Nat) : Prop :=
  ∃ number, place = some number ∧ m.received[number]? = some v

/-- The value has not been published, or it has and the receiving side has
closed without taking it. -/
def World.Spared (m : World T W) (place : Option Nat) : Prop :=
  ∀ number, place = some number → m.receiverClosed = true ∧ m.received.length ≤ number

/-- The number of the value that a step may have published. -/
def World.placed (m m' : World T W) (place : Option Nat) : Option Nat :=
  if m.published.length < m'.published.length then some m.published.length else place

/-- Where the value `v` of the first poll of a flush is. -/
def WritePc.Flushes (m : World T W) (D : RecvCell) (v : T) (place : Option Nat) :
    WritePc T W → Prop
  | load given _ | sync given => given = v ∧ place = none
  | store _ given _ => given = v ∧ place = none ∧ m.published = m.received
  | lock _ => m.value = some v ∧ place = none ∧ m.published = m.received
  | clearWaker found _ =>
      m.Stands D v place ∧
        (found.loaded = true → found.rlock = false → found.active = false → m.Left v place)
  | takeBack => m.Left v place
  | fast _ | unlock _ => False
  | _ => m.Stands D v place

/-- What the first poll of a flush answers. -/
def WriteResult.Reports (m : World T W) (D : RecvCell) (v : T) (place : Option Nat) :
    WriteResult T → Prop
  | .ok => m.Stands D v place
  | .err given _ => given = some v ∧ m.Spared place
  | .panic => False

/-- Where the value `v` of a later poll of a flush is. -/
def FlushPc.Flushes (m : World T W) (D : RecvCell) (v : T) (place : Option Nat) :
    FlushPc W → Prop
  | finish => m.Got v place ∧ m.state.loaded = false
  | reset | takeBack => m.Left v place
  | _ => m.Stands D v place

/-- What a later poll of a flush answers. -/
def PollResult.Reports (m : World T W) (D : RecvCell) (v : T) (place : Option Nat) :
    PollResult T → Prop
  | .pending => m.senderClosed = false ∧ m.Stands D v place
  | .ready none _ => m.Got v place
  | .ready (some given) _ => given = v ∧ m.Spared place
  | .panic => False

section Points

variable {m m' : World T W} {R : RecvSections} {D : RecvCell} {v : T} {place : Option Nat}

theorem World.placed_keep (same : m'.published = m.published) : m.placed m' place = place := by
  simp [World.placed, same]

theorem World.Left.spared (left : m.Left v place) : m.Spared place := by
  obtain ⟨closed, _, earlier, isPlace, _, received⟩ := left
  intro number isNumber
  rw [isPlace] at isNumber
  obtain rfl := Option.some.inj isNumber
  exact ⟨closed, received ▸ le_rfl⟩

theorem World.Left.kept (left : m.Left v place) (same : m.SameQueue m') :
    m'.Left v (m.placed m' place) := by
  obtain ⟨closed, isValue, earlier, isPlace, published, received⟩ := left
  rw [World.placed_keep same.published]
  exact ⟨same.receiverClosed.trans closed, same.value.trans isValue, earlier, isPlace,
    same.published.trans published, same.received.trans received⟩

theorem World.Stands.kept (stands : m.Stands D v place) (same : m.SameQueue m') :
    m'.Stands D v (m.placed m' place) := by
  rw [World.placed_keep same.published]
  exact stands.keep same

theorem World.Stands.got (stands : m.Stands D v place) (unloaded : m.state.loaded = false) :
    m.Got v place := by
  obtain ⟨earlier, isPlace, _, received⟩ := stands.received unloaded
  refine ⟨_, isPlace, ?_⟩
  rw [received, List.getElem?_concat_length]

/-- The receiving side has left an announced value behind. -/
theorem World.Stands.abandoned {S : SendSections} (stands : m.Stands D v place)
    (locks : Locks m S R) (takes : D.taken = true → R.taking = true)
    (isOpen : m.senderClosed = false) (inactive : m.state.active = false)
    (announced : m.state.loaded = true ∨ m.state.rlock = true) : m.Left v place := by
  have closed : m.receiverClosed = true := by
    rw [locks.active_eq, isOpen] at inactive
    simpa using inactive
  obtain ⟨_, untaken, unregistered, _⟩ := locks.receiver_ended closed
  apply stands.left _ _ closed
  · rcases announced with loaded | locked
    · exact loaded
    · simp [locks.rlock_eq, untaken, unregistered] at locked
  · by_contra taken
    rw [takes (by simpa using taken)] at untaken
    cases untaken

theorem WritePc.Flushes.closed {pc : WritePc T W} (flushes : pc.Flushes m D v place)
    (back : pc = .takeBack) : m.receiverClosed = true := by
  subst back
  exact World.Left.closed flushes

theorem WritePc.Flushes.step {pc : WritePc T W} (finalize spurious : Bool)
    (locks : Locks m (pc.sections false) R) (points : pc.Local true)
    (takes : D.taken = true → R.taking = true) (shut : m.Shut D) (queue : m.Queue D)
    (flushes : pc.Flushes m D v place) :
    let m' := (pc.step finalize spurious m).1
    (pc.step finalize spurious m).2.elim (WritePc.Flushes m' D v (m.placed m' place))
      (WriteResult.Reports m' D v (m.placed m' place)) := by
  have isOpen : m.senderClosed = false := by
    apply locks.live
    cases pc <;> rfl
  cases pc with
  | load given waker =>
      obtain ⟨isGiven, unplaced⟩ := flushes
      have kept : m.placed m.access place = none := (World.placed_keep rfl).trans unplaced
      simp only [WritePc.step]
      split_ifs with inactive loaded
      · exact ⟨isGiven, kept⟩
      · exact ⟨isGiven ▸ rfl, by simp [World.Spared, kept]⟩
      · refine ⟨isGiven, kept, queue.empty shut ?_ (by simpa using loaded)⟩
        have active := locks.active_eq
        simp_all
  | sync given =>
      obtain ⟨isGiven, unplaced⟩ := flushes
      have kept : m.placed m.access place = none := (World.placed_keep rfl).trans unplaced
      exact ⟨isGiven ▸ rfl, by simp [World.Spared, WritePc.step, kept]⟩
  | store state given waker =>
      obtain ⟨rfl, unplaced, empty⟩ := flushes
      obtain ⟨_, _, polled⟩ := points
      have kept : m.placed (m.storeValue given) place = none :=
        (World.placed_keep rfl).trans unplaced
      cases waker with
      | none => cases polled
      | some waker => exact ⟨rfl, kept, empty⟩
  | fast | unlock => exact flushes.elim
  | lock waker =>
      obtain ⟨isValue, _, empty⟩ := flushes
      have unloaded := locks.unpublished rfl
      have untaken : D.taken = false := by
        by_contra taken
        have loaded := locks.taking (takes (by simpa using taken))
        simp [unloaded] at loaded
      let after := m.publish.fetchOr { loaded := true, wlock := true, wake := true }
      have isPlace : m.placed after place = some m.published.length := by
        simp [after, World.placed, World.fetchOr, World.publish, World.access, isValue]
      have published : after.published = m.published ++ [v] := by
        simp [after, World.fetchOr, World.publish, World.access, isValue]
      have loaded : after.state.loaded = true := by
        simp [after, World.fetchOr]
      have stands : after.Stands D v (m.placed after place) :=
        .waits isPlace published empty.symm loaded untaken isValue
      cases waker with
      | none => cases points
      | some waker =>
          simp only [WritePc.step, WritePc.locked, WritePc.finish]
          split_ifs <;> exact stands
  | takeReader prev waker =>
      obtain ⟨_, _, _, polled⟩ := points
      cases waker with
      | none => cases polled
      | some waker => exact flushes.kept ⟨rfl, rfl, rfl, rfl, rfl, rfl⟩
  | storeWaker prev waker readWaker => exact flushes.kept ⟨rfl, rfl, rfl, rfl, rfl, rfl⟩
  | release prev waker readWaker =>
      by_cases exchanged : m.state = prev.set { loaded := true, wlock := true, wake := true }
      · simp only [WritePc.step, if_pos exchanged]
        have same : m.SameQueue (m.store (prev.set { loaded := true, wake := true })) :=
          ⟨by simp [World.store, exchanged], rfl, rfl, rfl, rfl, rfl⟩
        have stands := flushes.kept same
        cases readWaker <;> exact stands
      · simp only [WritePc.step, if_neg exchanged]
        refine ⟨flushes.kept ⟨rfl, rfl, rfl, rfl, rfl, rfl⟩, ?_⟩
        intro loaded _ inactive
        exact (flushes.abandoned locks takes isOpen inactive (.inl loaded)).kept
          ⟨rfl, rfl, rfl, rfl, rfl, rfl⟩
  | clearWaker found waker =>
      obtain ⟨stands, left⟩ := flushes
      obtain ⟨inactive, _⟩ := points
      simp only [WritePc.step]
      split_ifs with gone active
      · exact stands.kept ⟨rfl, rfl, rfl, rfl, rfl, rfl⟩
      · have isLeft : m.Left v place := by
          apply left <;> simp_all
        exact isLeft.kept ⟨rfl, rfl, rfl, rfl, rfl, rfl⟩
      · simp_all
  | unlockRead waker =>
      exact flushes.kept ⟨by simp [WritePc.step, World.fetchAnd], rfl, rfl, rfl, rfl, rfl⟩
  | takeBack =>
      have spared : m.Spared place := flushes.spared
      refine ⟨flushes.value, ?_⟩
      have kept : m.placed (WritePc.step finalize spurious m .takeBack).1 place = place :=
        World.placed_keep rfl
      rw [kept]
      exact spared
  | wake waker => exact flushes.kept ⟨rfl, rfl, rfl, rfl, rfl, rfl⟩

theorem FlushPc.Flushes.keep {pc : FlushPc W} (flushes : pc.Flushes m D v place)
    (same : m.SameQueue m') : pc.Flushes m' D v place := by
  cases pc with
  | finish =>
      obtain ⟨⟨number, isPlace, received⟩, unloaded⟩ := flushes
      exact ⟨⟨number, isPlace, same.received ▸ received⟩, same.loaded.trans unloaded⟩
  | reset | takeBack =>
      have kept := World.Left.kept flushes same
      rwa [World.placed_keep same.published] at kept
  | _ => exact World.Stands.keep flushes same

/-- What the head of the loop makes of the state word that it has just seen. -/
theorem World.Stands.loop {S : SendSections} (stands : m.Stands D v place) (finalize : Bool)
    (waker : W) (locks : Locks m S R) (takes : D.taken = true → R.taking = true)
    (isOpen : m.senderClosed = false) (prev : State) (locked : Bool)
    (seen : m.state.loaded = prev.loaded ∧
      m.state.rlock = prev.rlock ∧ m.state.active = prev.active)
    (tried : locked = true → prev.loaded = true) :
    (FlushPc.loop finalize prev locked waker).Flushes m D v place := by
  obtain ⟨loaded, rlock, active⟩ := seen
  simp only [FlushPc.loop]
  split_ifs with gone isLocked wake inactive finalizes
  · simp_all
  · simp_all
  · have unloaded : m.state.loaded = false := by simp_all
    exact ⟨stands.got unloaded, unloaded⟩
  · refine stands.abandoned locks takes isOpen (by simp_all) ?_
    rw [loaded, rlock]
    grind -linarith -ring -order -lia -ac
  · refine stands.abandoned locks takes isOpen (by simp_all) ?_
    rw [loaded, rlock]
    grind -linarith -ring -order -lia -ac
  all_goals exact stands

/-- A later poll of a flush leaves the queue as it is. -/
theorem FlushPc.Flushes.step {pc : FlushPc W} (finalize spurious : Bool)
    (locks : Locks m (pc.sections finalize) R) (points : pc.Local finalize)
    (takes : D.taken = true → R.taking = true) (isOpen : m.senderClosed = false)
    (shut : m.Shut D) (queue : m.Queue D) (flushes : pc.Flushes m D v place) :
    let m' := (pc.step finalize spurious m).1
    (m'.Queue D ∧ m'.Shut D ∧ m'.published = m.published) ∧
      (pc.step finalize spurious m).2.elim
        (fun next => m'.senderClosed = false ∧ next.Flushes m' D v place)
        (PollResult.Reports m' D v place) := by
  have unclaimed : D.claims = false := by
    have claims := shut.claims
    simp_all
  have leaves (m' : World T W) (same : m.SameQueue m') :
      m'.Queue D ∧ m'.Shut D ∧ m'.published = m.published :=
    ⟨queue.keep same, shut.keep same id shut.unswapped, same.published⟩
  cases pc with
  | load waker =>
      have loops := flushes.loop finalize waker locks takes isOpen
        m.state false ⟨rfl, rfl, rfl⟩ (fun never => by cases never)
      have same : m.SameQueue m.access := ⟨rfl, rfl, rfl, rfl, rfl, rfl⟩
      exact ⟨leaves _ same, isOpen, loops.keep same⟩
  | clearLocked | resetLocked => exact points.elim
  | finish =>
      obtain ⟨got, unloaded⟩ := flushes
      cases finalize with
      | true =>
          refine ⟨⟨⟨queue.inOrder, ?_⟩, ⟨?_, ?_, shut.unswapped⟩, rfl⟩, got⟩
          · intro stays
            refine (queue.empty shut stays unloaded).trans ?_
            simp [FlushPc.step, World.pending, World.fetchAnd, World.closeSender, World.access,
              unloaded, shut.unswapped]
          · intro _
            simp [FlushPc.step, World.fetchAnd, World.closeSender, unloaded]
          · simp [unclaimed]
      | false => exact ⟨leaves _ ⟨rfl, rfl, rfl, rfl, rfl, rfl⟩, got⟩
  | reset =>
      obtain ⟨closed, isValue, earlier, isPlace, published, received⟩ := flushes
      refine ⟨⟨⟨queue.inOrder, ?_⟩, ⟨fun _ => rfl, ?_, shut.unswapped⟩, rfl⟩, isOpen,
        closed, isValue, earlier, isPlace, published, received⟩
      · intro stays
        cases closed.symm.trans stays
      · simp [unclaimed]
  | takeBack =>
      have spared : m.Spared place := flushes.spared
      have closed := flushes.closed
      refine ⟨⟨⟨queue.inOrder, ?_⟩, ⟨shut.shut, ?_, shut.unswapped⟩, rfl⟩, ?_⟩
      · intro stays
        cases closed.symm.trans stays
      · simp [unclaimed]
      · simp only [FlushPc.step, Outcome.elim, flushes.value]
        exact ⟨rfl, spared⟩
  | wake waker =>
      have same : m.SameQueue (m.wake waker) := ⟨rfl, rfl, rfl, rfl, rfl, rfl⟩
      exact ⟨leaves _ same, isOpen, flushes.keep same⟩
  | clearPrev prev waker =>
      have same : m.SameQueue m.loadWaker := ⟨rfl, rfl, rfl, rfl, rfl, rfl⟩
      exact ⟨leaves _ same, isOpen, flushes.keep same⟩
  | clearOwn waker =>
      have same : m.SameQueue m.loadWaker := ⟨rfl, rfl, rfl, rfl, rfl, rfl⟩
      exact ⟨leaves _ same, isOpen, flushes.keep same⟩
  | storeWaker prev waker =>
      have same : m.SameQueue (m.storeWaker waker) := ⟨rfl, rfl, rfl, rfl, rfl, rfl⟩
      exact ⟨leaves _ same, isOpen, flushes.keep same⟩
  | release prev waker =>
      by_cases exchanged : m.state = prev.set { wlock := true, wake := true } ∧ !spurious
      · simp only [FlushPc.step, if_pos exchanged]
        have same : m.SameQueue (m.store (prev.set { wake := true })) :=
          ⟨by simp [World.store, exchanged], rfl, rfl, rfl, rfl, rfl⟩
        exact ⟨leaves _ same, isOpen, flushes.keep same⟩
      · simp only [FlushPc.step, if_neg exchanged]
        have same : m.SameQueue m.access := ⟨rfl, rfl, rfl, rfl, rfl, rfl⟩
        exact ⟨leaves _ same, isOpen, flushes.keep same⟩
  | unlock waker =>
      have same : m.SameQueue (m.fetchAnd { wlock := true, wake := true }) :=
        ⟨by simp [World.fetchAnd], rfl, rfl, rfl, rfl, rfl⟩
      have stands : m.Stands D v place := flushes
      have loops := stands.loop finalize waker locks takes isOpen
        (m.state.unset { wlock := true, wake := true }) false (by simp)
        (fun never => by cases never)
      exact ⟨leaves _ same, isOpen, loops.keep same⟩
  | lock prev waker =>
      obtain ⟨active, loaded, unlocked⟩ := points
      have stands : m.Stands D v place := flushes
      by_cases exchanged : m.state = prev ∧ !spurious
      · simp only [FlushPc.step, if_pos exchanged]
        have same : m.SameQueue (m.store (prev.set { wlock := true, wake := true })) :=
          ⟨by simp [World.store, exchanged.1], rfl, rfl, rfl, rfl, rfl⟩
        have loops := stands.loop finalize waker locks takes isOpen
          prev true (by simp [exchanged.1]) fun _ => loaded
        exact ⟨leaves _ same, isOpen, loops.keep same⟩
      · simp only [FlushPc.step, if_neg exchanged]
        have same : m.SameQueue m.access := ⟨rfl, rfl, rfl, rfl, rfl, rfl⟩
        split_ifs with held
        · exact ⟨leaves _ same, isOpen, stands.keep same⟩
        · have loops := stands.loop finalize waker locks takes isOpen
            m.state false ⟨rfl, rfl, rfl⟩ (fun never => by cases never)
          exact ⟨leaves _ same, isOpen, loops.keep same⟩

end Points

/-! ## Steps of the receiving side -/

section Receiving

variable {m m' : World T W} {R : RecvSections} {D D' : RecvCell} {v : T} {place : Option Nat}

/-- The receiving side has only ever taken more values, and none once it has
closed. -/
theorem World.Moves.received (moves : m.Moves D m' D') :
    m.received <+: m'.received ∧ (m.receiverClosed = true → m'.received = m.received) := by
  induction moves with
  | stay _ _ _ received => exact ⟨received ▸ List.prefix_rfl, fun _ => received⟩
  | take isOpen _ _ _ _ received =>
      refine ⟨received ▸ List.prefix_append _ _, fun closed => ?_⟩
      rw [closed] at isOpen
      cases isOpen
  | withdraw _ _ _ received => exact ⟨received ▸ List.prefix_rfl, fun _ => received⟩
  | shut _ _ _ received => exact ⟨received ▸ List.prefix_rfl, fun _ => received⟩

/-- With no value announced, the receiving side takes none. -/
theorem World.Moves.unloaded (moves : m.Moves D m' D') (unloaded : m.state.loaded = false)
    (taking : D.taken = true → m.state.loaded = true) (isOpen : m.senderClosed = false) :
    m'.value = m.value ∧ m'.received = m.received ∧ m'.state.loaded = false := by
  induction moves with
  | stay loaded _ value received => exact ⟨value, received, loaded.trans unloaded⟩
  | take _ loaded => simp [unloaded] at loaded
  | withdraw taken => simp [taking taken] at unloaded
  | shut closed => simp [isOpen] at closed

theorem World.Got.mono (got : m.Got v place) (more : m.received <+: m'.received) :
    m'.Got v place := by
  obtain ⟨number, isPlace, received⟩ := got
  obtain ⟨rest, isMore⟩ := more
  obtain ⟨bound, _⟩ := List.getElem?_eq_some_iff.mp received
  refine ⟨number, isPlace, ?_⟩
  rw [← isMore, List.getElem?_append_left bound]
  exact received

theorem WritePc.Flushes.receiver_step {pc : WritePc T W} (flushes : pc.Flushes m D v place)
    (locks : Locks m (pc.sections false) R) (takes : D.taken = true → R.taking = true)
    (moves : m.Moves D m' D') (published : m'.published = m.published)
    (closed : m.receiverClosed = true → m'.receiverClosed = true) :
    pc.Flushes m' D' v place := by
  have isOpen : m.senderClosed = false := by
    apply locks.live
    cases pc <;> rfl
  have unpublished := locks.unpublished
  have taking : D.taken = true → m.state.loaded = true := fun taken => locks.taking (takes taken)
  have untaken : m.receiverClosed = true → D.taken = false := by
    intro isClosed
    by_contra taken
    have ended := (locks.receiver_ended isClosed).2.1
    simp [takes (by simpa using taken)] at ended
  cases pc with
  | load | sync => exact flushes
  | store =>
      obtain ⟨isGiven, unplaced, empty⟩ := flushes
      obtain ⟨_, received, _⟩ := moves.unloaded (unpublished rfl) taking isOpen
      exact ⟨isGiven, unplaced, by rw [published, empty, received]⟩
  | lock =>
      obtain ⟨isValue, unplaced, empty⟩ := flushes
      obtain ⟨value, received, _⟩ := moves.unloaded (unpublished rfl) taking isOpen
      exact ⟨value.trans isValue, unplaced, by rw [published, empty, received]⟩
  | fast | unlock => exact flushes.elim
  | clearWaker found =>
      obtain ⟨stands, left⟩ := flushes
      refine ⟨stands.receiver_step isOpen moves published, ?_⟩
      intro loaded unlocked inactive
      have isLeft := left loaded unlocked inactive
      exact isLeft.receiver_step isOpen (untaken isLeft.closed) moves published closed
  | takeBack =>
      have isLeft : m.Left v place := flushes
      exact isLeft.receiver_step isOpen (untaken isLeft.closed) moves published closed
  | takeReader | storeWaker | release | unlockRead | wake =>
      exact World.Stands.receiver_step flushes isOpen moves published

theorem FlushPc.Flushes.receiver_step {finalize : Bool} {pc : FlushPc W}
    (flushes : pc.Flushes m D v place) (locks : Locks m (pc.sections finalize) R)
    (takes : D.taken = true → R.taking = true) (isOpen : m.senderClosed = false)
    (moves : m.Moves D m' D') (published : m'.published = m.published)
    (closed : m.receiverClosed = true → m'.receiverClosed = true) :
    pc.Flushes m' D' v place := by
  have taking : D.taken = true → m.state.loaded = true := fun taken => locks.taking (takes taken)
  have untaken : m.receiverClosed = true → D.taken = false := by
    intro isClosed
    by_contra taken
    have ended := (locks.receiver_ended isClosed).2.1
    simp [takes (by simpa using taken)] at ended
  cases pc with
  | finish =>
      obtain ⟨got, unloaded⟩ := flushes
      obtain ⟨_, _, stays⟩ := moves.unloaded unloaded taking isOpen
      exact ⟨got.mono moves.received.1, stays⟩
  | reset | takeBack =>
      have isLeft : m.Left v place := flushes
      exact isLeft.receiver_step isOpen (untaken isLeft.closed) moves published closed
  | _ => exact World.Stands.receiver_step flushes isOpen moves published

end Receiving

/-! ## Flushed sends -/

/-- The answer with which a flush of `value` has resolved; `place` is the number
under which the value had been published. -/
structure Verdict (T : Type u) where
  value : Option T
  place : Option Nat
  answer : Answer T
  deriving DecidableEq, Repr

/-- A pair with the value of the latest `send`, its number among the published
ones, whether its flush has resolved, and what all flushes have reported. -/
structure Flushed (T : Type u) (W : Type v) where
  system : System T W := {}
  value : Option T := none
  place : Option Nat := none
  resolved : Bool := true
  verdicts : List (Verdict T) := []
  deriving DecidableEq, Repr

/-- What a flush has reported is so: `Ok` only for a value that has been
received, `Err` only with the value that was sent, and that is not received. -/
def Verdict.Holds (m : World T W) (verdict : Verdict T) : Prop :=
  match verdict.answer with
  | .ok => ∃ v, verdict.value = some v ∧ m.Got v verdict.place
  | .err given _ => verdict.value.isSome ∧ given = verdict.value ∧ m.Spared verdict.place
  | _ => True

/-- A `Ready` answer. -/
def Answer.ready : Answer T → Option (Answer T)
  | .pending => none
  | answer => some answer

/-- The `Ready` answer that a step of a `Flush` poll gives. -/
def Sender.ready (kind : Kind) (spurious : Bool) (m : World T W) : Sender T W → Option (Answer T)
  | flushWriting owner waker pc =>
      ((flushWriting owner waker pc).answer kind spurious m).bind Answer.ready
  | flushing owner waker pc => ((flushing owner waker pc).answer kind spurious m).bind Answer.ready
  | _ => none

namespace Flushed

def init : Flushed T W := {}

/-- A `send` makes a new flush. -/
def begin (f : Flushed T W) : Label T W → Flushed T W
  | .send (.send value) => { f with value := some value, place := none, resolved := false }
  | _ => f

/-- The `Ready` answer of a `Flush` poll. -/
def answer (kind : Kind) (s : System T W) : Label T W → Option (Answer T)
  | .sender spurious => s.sender.ready kind spurious s.world
  | .send (.poll waker) =>
      match s.sender with
      | .idle handle => Sender.beginAnswer handle (.poll waker)
      | _ => none
  | _ => none

/-- The pair has moved to `next`. -/
def advance (f : Flushed T W) (next : System T W) : Flushed T W :=
  { f with system := next, place := f.system.world.placed next.world f.place }

def report (f : Flushed T W) : Option (Answer T) → Flushed T W
  | none => f
  | some answer =>
      { f with resolved := true, verdicts := f.verdicts ++ [⟨f.value, f.place, answer⟩] }

def step (kind : Kind) : Step (Flushed T W) (Label T W)
  | f, label =>
      (System.step kind f.system label).map fun next =>
        ((f.begin label).advance next).report (answer kind f.system label)

/-- Flushes are polled up to the first `Ready`.  A `Sender` can drop a flush and
go on, and does not leave. -/
def flushing (kind : Kind) (f : Flushed T W) : Label T W → Bool
  | .send (.poll _) => !f.resolved
  | .send (.trySend _) | .send .dropFlush => kind = .channel
  | .send .drop | .send (.run _) => false
  | _ => true

/-- The values are received in the order of their publication, and every
verdict is so. -/
structure Truthful (f : Flushed T W) : Prop where
  inOrder : f.system.world.received <+: f.system.world.published
  verdicts : ∀ verdict ∈ f.verdicts, verdict.Holds f.system.world

end Flushed

/-- Where the value of the latest `send` is. -/
def Sender.Flushes (kind : Kind) (m : World T W) (D : RecvCell) (value : Option T)
    (place : Option Nat) (resolved : Bool) : Sender T W → Prop
  | idle (.flush _ true none) =>
      resolved = false → m.senderClosed = false ∧ ∃ v, value = some v ∧ m.Stands D v place
  | idle (.flush _ true (some given)) => value = some given ∧ place = none
  | idle (.flush _ false none) | freeing (.flush ..) => resolved = true
  | trySending pc => kind = .channel ∧ (pc = .takeBack → m.receiverClosed = true)
  | flushWriting _ _ pc => ∃ v, value = some v ∧ pc.Flushes m D v place
  | flushing _ _ pc => m.senderClosed = false ∧ ∃ v, value = some v ∧ pc.Flushes m D v place
  | dropping _ => False
  | _ => True

/-- The receiving side takes announced values only, and the flush knows where
its value is. -/
structure Flushed.Sound (kind : Kind) (f : Flushed T W) : Prop where
  shut : f.system.world.Shut (f.system.receiver.cell kind)
  queue : f.system.world.Queue (f.system.receiver.cell kind)
  flushes : f.system.sender.Flushes kind f.system.world (f.system.receiver.cell kind) f.value
    f.place f.resolved
  verdicts : ∀ verdict ∈ f.verdicts, verdict.Holds f.system.world

section Runs

variable {m m' : World T W} {R : RecvSections} {D D' : RecvCell} {kind : Kind}

theorem Verdict.Holds.mono {verdict : Verdict T} (holds : verdict.Holds m)
    (more : m.received <+: m'.received)
    (closed : m.receiverClosed = true → m'.receiverClosed = true ∧ m'.received = m.received) :
    verdict.Holds m' := by
  obtain ⟨value, place, answer⟩ := verdict
  cases answer with
  | ok =>
      obtain ⟨v, isValue, got⟩ := holds
      exact ⟨v, isValue, got.mono more⟩
  | err given dropped =>
      obtain ⟨given, isGiven, spared⟩ := holds
      refine ⟨given, isGiven, ?_⟩
      intro number isNumber
      obtain ⟨isClosed, untaken⟩ := spared number isNumber
      obtain ⟨stays, same⟩ := closed isClosed
      exact ⟨stays, same ▸ untaken⟩
  | _ => trivial

theorem Sender.Flushes.receiver_step {S : Sender T W} {value : Option T} {place : Option Nat}
    {resolved : Bool} (flushes : S.Flushes kind m D value place resolved)
    (locks : Locks m (S.sections kind) R) (takes : D.taken = true → R.taking = true)
    (moves : m.Moves D m' D') (published : m'.published = m.published)
    (sender : m'.senderClosed = m.senderClosed)
    (closed : m.receiverClosed = true → m'.receiverClosed = true) :
    S.Flushes kind m' D' value place resolved := by
  cases S with
  | idle handle =>
      rcases handle with _ | _ | ⟨_, _ | _, _ | _⟩ | _
      case flush.true.none =>
        intro unresolved
        obtain ⟨isOpen, v, isValue, stands⟩ := flushes unresolved
        exact ⟨sender.trans isOpen, v, isValue, stands.receiver_step isOpen moves published⟩
      all_goals exact flushes
  | trySending pc => exact ⟨flushes.1, fun back => closed (flushes.2 back)⟩
  | flushWriting owner waker pc =>
      obtain ⟨v, isValue, inner⟩ := flushes
      exact ⟨v, isValue, inner.receiver_step locks takes moves published closed⟩
  | flushing owner waker pc =>
      obtain ⟨isOpen, v, isValue, inner⟩ := flushes
      exact ⟨sender.trans isOpen, v, isValue,
        inner.receiver_step locks takes isOpen moves published closed⟩
  | dropping pc => exact flushes
  | freeing next => cases next <;> exact flushes

/-- A write without a waker takes its value back only from a receiver that has
left. -/
theorem WritePc.closed_of_takeBack {pc : WritePc T W} {spurious : Bool}
    (locks : Locks m (pc.sections false) R) (points : pc.Local false)
    (inner : pc.step false spurious m = (m', .goto .takeBack)) : m'.receiverClosed = true := by
  cases pc with
  | unlock readWaker =>
      have isOpen : m.senderClosed = false := locks.live rfl
      have active := locks.active_eq
      simp only [WritePc.step, Prod.mk.injEq] at inner
      obtain ⟨rfl, back⟩ := inner
      split_ifs at back with inactive
      · have closed : m.receiverClosed = true := by
          rw [isOpen] at active
          simpa [active] using inactive
        exact closed
      · cases readWaker <;> cases back
  | clearWaker => cases points.2
  | lock waker =>
      cases waker with
      | some waker => cases points
      | none =>
          simp only [WritePc.step, WritePc.locked, WritePc.finish, Prod.mk.injEq] at inner
          obtain ⟨_, back⟩ := inner
          split_ifs at back <;> cases back
  | load | store | fast | release =>
      simp only [WritePc.step, WritePc.finish] at inner
      grind -linarith -ring -order -lia -ac
  | takeReader _ waker => cases waker <;> cases inner
  | sync | storeWaker | unlockRead | takeBack | wake => cases inner

theorem Sender.Noted.queue (noted : Noted m m') : m.SameQueue m' := by
  induction noted <;> exact ⟨rfl, rfl, rfl, rfl, rfl, rfl⟩

theorem Sender.begun_queue {handle : SenderHandle T} {op : SendOp T W} {S' : Sender T W}
    (begun : Begun kind m handle op m' S') : m.SameQueue m' := by
  induction begun <;> exact ⟨rfl, rfl, rfl, rfl, rfl, rfl⟩

theorem World.Shut.sameQueue (shut : m.Shut D) (same : m.SameQueue m') : m'.Shut D :=
  shut.keep same id shut.unswapped

/-- A step of the sending side keeps the queue, and the flush knows where its
value is or resolves to what is so. -/
theorem Sender.Flushes.sender_step {spurious : Bool} {S S' : Sender T W} {value : Option T}
    {place : Option Nat} {resolved : Bool} (flushes : S.Flushes kind m D value place resolved)
    (locks : Locks m (S.sections kind) R) (points : S.Local kind)
    (takes : D.taken = true → R.taking = true) (shut : m.Shut D) (queue : m.Queue D)
    (step : S.Stepped kind spurious m m' S') :
    m'.Queue D ∧ m'.Shut D ∧ (S.ready kind spurious m).elim
      (S'.Flushes kind m' D value (m.placed m' place) resolved) fun answer =>
        S'.Flushes kind m' D value (m.placed m' place) true ∧
          Verdict.Holds m' ⟨value, m.placed m' place, answer⟩ := by
  have placed {after : World T W} (same : after.SameQueue m') :
      m.placed m' place = m.placed after place := by
    simp only [World.placed, same.published]
  induction step with
  | @trySend pc next _ inner =>
      obtain ⟨rfl, back⟩ := flushes
      obtain ⟨kept, stays, _⟩ := queue.write_step Kind.channel.finalize spurious locks points
        (fun never => by cases never) takes (fun isBack => back isBack) shut
      rw [inner] at kept stays
      refine ⟨kept, stays, rfl, ?_⟩
      rintro rfl
      exact WritePc.closed_of_takeBack locks points inner
  | @trySendEnd pc result after inner =>
      obtain ⟨rfl, back⟩ := flushes
      obtain ⟨kept, stays, _⟩ := queue.write_step Kind.channel.finalize spurious locks points
        (fun never => by cases never) takes (fun isBack => back isBack) shut
      rw [inner] at kept stays
      have same := (finishTrySend_noted .channel (after.endWrite result) result).queue
      have ended : after.SameQueue (after.endWrite result) := ⟨rfl, rfl, rfl, rfl, rfl, rfl⟩
      refine ⟨(kept.keep ended).keep same, (stays.sameQueue ended).sameQueue same, ?_⟩
      rcases result with _ | ⟨_, _ | _⟩ | _ <;> trivial
  | @flushWrite owner waker pc next _ inner =>
      obtain ⟨v, isValue, flushes⟩ := flushes
      obtain ⟨points, _, _⟩ := points
      obtain ⟨kept, stays, _⟩ := queue.write_step kind.finalize spurious locks points
        (fun _ => rfl) takes flushes.closed shut
      have reports := flushes.step kind.finalize spurious locks points takes shut queue
      rw [inner] at kept stays reports
      refine ⟨kept, stays, ?_⟩
      simp only [Sender.ready, Sender.answer, inner, Outcome.elim, Option.bind_none]
      exact ⟨v, isValue, reports⟩
  | @flushWriteEnd owner waker pc result after inner =>
      obtain ⟨v, rfl, flushes⟩ := flushes
      obtain ⟨points, notTask, _⟩ := points
      obtain ⟨kept, stays, isOpen⟩ := queue.write_step kind.finalize spurious locks points
        (fun _ => rfl) takes flushes.closed shut
      have reports := flushes.step kind.finalize spurious locks points takes shut queue
      rw [inner] at kept stays reports isOpen
      have same := (finishFlushWrite_noted kind owner waker (after.endWrite result) result).queue
      have ended : after.SameQueue (after.endWrite result) := ⟨rfl, rfl, rfl, rfl, rfl, rfl⟩
      have isPlace := placed (ended.trans same)
      refine ⟨(kept.keep ended).keep same, (stays.sameQueue ended).sameQueue same, ?_⟩
      rw [isPlace]
      simp only [Sender.ready, Sender.answer, inner, Outcome.elim, Option.bind_some,
        WriteResult.answer, if_neg notTask]
      cases result with
      | ok =>
          intro _
          exact ⟨isOpen, v, rfl, (World.Stands.keep reports ended).keep same⟩
      | err given dropped =>
          obtain ⟨rfl, spared⟩ := reports
          refine ⟨?_, rfl, rfl, spared⟩
          simp only [finishFlushWrite]
          split_ifs
          · rfl
          · exact fun never => by cases never
      | panic => exact reports.elim
  | @flush owner waker pc next _ inner =>
      obtain ⟨isOpen, v, isValue, flushes⟩ := flushes
      obtain ⟨points, _, _⟩ := points
      obtain ⟨⟨kept, stays, published⟩, reports⟩ := flushes.step kind.finalize spurious locks points
        takes isOpen shut queue
      rw [inner] at kept stays published reports
      obtain ⟨stillOpen, reports⟩ := reports
      refine ⟨kept, stays, ?_⟩
      rw [World.placed_keep published]
      simp only [Sender.ready, Sender.answer, inner, Outcome.elim, Option.bind_none]
      exact ⟨stillOpen, v, isValue, reports⟩
  | @flushEnd owner waker pc result after inner =>
      obtain ⟨isOpen, v, rfl, flushes⟩ := flushes
      obtain ⟨points, _, _⟩ := points
      obtain ⟨⟨kept, stays, published⟩, reports⟩ := flushes.step kind.finalize spurious locks points
        takes isOpen shut queue
      rw [inner] at kept stays published reports
      have same := (finishFlush_noted kind owner waker after result).queue
      refine ⟨kept.keep same, stays.sameQueue same, ?_⟩
      rw [World.placed_keep (same.published.trans published)]
      simp only [Sender.ready, Sender.answer, inner, Outcome.elim, Option.bind_some]
      rcases result with _ | ⟨_ | given, dropped⟩ | _
      · intro _
        exact ⟨reports.1, v, rfl, reports.2.keep same⟩
      · refine ⟨?_, v, rfl, reports⟩
        simp only [finishFlush]
        split_ifs
        · rfl
        · exact fun never => by cases never
      · obtain ⟨rfl, spared⟩ := reports
        refine ⟨?_, rfl, rfl, spared⟩
        simp only [finishFlush]
        split_ifs
        · rfl
        · exact fun never => by cases never
      · exact reports.elim
  | drop | dropEnd => exact flushes.elim
  | @free next =>
      have same : m.SameQueue m.dealloc := ⟨rfl, rfl, rfl, rfl, rfl, rfl⟩
      refine ⟨queue.keep same, shut.sameQueue same, ?_⟩
      cases next with
      | connected => exact points.elim
      | flush owner channel value =>
          obtain ⟨_, _, rfl, rfl⟩ := points
          exact flushes
      | detached | gone => trivial

end Runs

namespace Flushed

variable {kind : Kind} {f f' : Flushed T W} {label : Label T W}

theorem Sound.init : Sound kind (Flushed.init : Flushed T W) where
  shut := by constructor <;> simp [Flushed.init, Receiver.cell]
  queue := by constructor <;> simp [Flushed.init, World.pending]
  flushes := trivial
  verdicts := by simp [Flushed.init]

/-- A call of the sending side begins. -/
theorem Sound.send {handle : SenderHandle T} {op : SendOp T W} {next : System T W}
    (sound : Sound kind f) (permitted : f.flushing kind (.send op) = true)
    (isIdle : f.system.sender = .idle handle) (same : next.receiver = f.system.receiver)
    (begun : Sender.Begun kind f.system.world handle op next.world next.sender) :
    Sound kind (((f.begin (.send op)).advance next).report (answer kind f.system (.send op))) := by
  obtain ⟨shut, queue, flushes, verdicts⟩ := sound
  have sameQueue := Sender.begun_queue begun
  have placed : f.system.world.placed next.world f.place = f.place :=
    World.placed_keep sameQueue.published
  have holds : ∀ verdict ∈ f.verdicts, verdict.Holds next.world := by
    intro verdict isVerdict
    apply (verdicts verdict isVerdict).mono (sameQueue.received ▸ List.prefix_rfl)
    exact fun closed => ⟨sameQueue.receiverClosed.trans closed, sameQueue.received⟩
  have keeps (g : Flushed T W) (isNext : g.system = next)
      (flushes : g.system.sender.Flushes kind g.system.world (g.system.receiver.cell kind) g.value
        g.place g.resolved)
      (verdicts : ∀ verdict ∈ g.verdicts, verdict.Holds next.world) : Sound kind g := by
    refine ⟨?_, ?_, flushes, isNext ▸ verdicts⟩
    · rw [isNext, same]
      exact shut.sameQueue sameQueue
    · rw [isNext, same]
      exact queue.keep sameQueue
  rw [isIdle] at flushes
  obtain ⟨world, sender, receiver⟩ := next
  cases begun with
  | trySend =>
      have isChannel : kind = .channel := by simpa [flushing] using permitted
      exact keeps _ rfl ⟨isChannel, (fun never => by cases never)⟩ holds
  | trySendDetached => exact keeps _ rfl trivial holds
  | send => exact keeps _ rfl ⟨rfl, World.placed_keep rfl⟩ holds
  | sendDetached => exact keeps _ rfl trivial holds
  | @pollFirst owner value waker =>
      obtain ⟨isValue, unplaced⟩ := flushes
      simp only [answer, isIdle, Sender.beginAnswer]
      exact keeps _ rfl ⟨value, isValue, rfl, placed.trans unplaced⟩ holds
  | pollDetached =>
      simp only [answer, isIdle, Sender.beginAnswer]
      refine keeps _ rfl rfl ?_
      intro verdict isVerdict
      rcases List.mem_append.mp isVerdict with earlier | isLast
      · exact holds verdict earlier
      · obtain rfl := List.mem_singleton.mp isLast
        trivial
  | poll =>
      have unresolved : f.resolved = false := by simpa [flushing] using permitted
      obtain ⟨isOpen, v, isValue, stands⟩ := flushes unresolved
      simp only [answer, isIdle, Sender.beginAnswer]
      have moved := stands.kept sameQueue
      rw [same.symm] at moved
      exact keeps _ rfl ⟨isOpen, v, isValue, moved⟩ holds
  | pollDone =>
      have resolved : f.resolved = true := flushes
      simp [flushing, resolved] at permitted
  | dropBorrow =>
      refine keeps _ rfl ?_ holds
      simp only [advance, begin, report, answer]
      split_ifs <;> trivial
  | dropFlush notChannel | dropFlushDone notChannel =>
      simp [flushing, notChannel] at permitted
  | run | runPanic | drop | dropDetached => cases permitted

/-- The receiving side moves. -/
theorem Sound.receive {next : System T W} (sound : Sound kind f)
    (locks : System.Sound kind f.system) (same : next.sender = f.system.sender)
    (moves : f.system.world.Moves (f.system.receiver.cell kind) next.world
      (next.receiver.cell kind)) (shut : next.world.Shut (next.receiver.cell kind))
    (published : next.world.published = f.system.world.published)
    (sender : next.world.senderClosed = f.system.world.senderClosed)
    (closed : f.system.world.receiverClosed = true → next.world.receiverClosed = true) :
    Sound kind (f.advance next) where
  shut := shut
  queue := sound.queue.receiver_step sound.shut shut moves published closed
  flushes := by
    simp only [advance, World.placed_keep published, same]
    exact sound.flushes.receiver_step locks.locks (Receiver.cell_taken _) moves published sender
      closed
  verdicts verdict isVerdict := by
    apply (sound.verdicts verdict isVerdict).mono moves.received.1
    exact fun isClosed => ⟨closed isClosed, moves.received.2 isClosed⟩

theorem Sound.step (sound : Sound kind f) (locks : System.Sound kind f.system)
    (permitted : f.flushing kind label = true) (step : Flushed.step kind f label = some f') :
    Sound kind f' := by
  simp only [Flushed.step, Option.map_eq_some_iff] at step
  obtain ⟨next, step, rfl⟩ := step
  rcases System.step_cases step with ⟨handle, op, rfl, isIdle, same, begun⟩ |
    ⟨handle, op, rfl, isIdle, same, begun⟩ | ⟨spurious, rfl, same, stepped⟩ |
    ⟨spurious, rfl, same, stepped⟩ | ⟨waker, rfl, parked, same, world, reads⟩
  · exact sound.send permitted isIdle same begun
  · obtain ⟨sameQueue, untaken, unclaimed, unswapped⟩ := begun.queue
    have rests : (f.system.receiver.cell kind).taken = false := by
      rw [isIdle]
      cases handle <;> rfl
    refine sound.receive locks same ?_ ?_ sameQueue.published sameQueue.senderClosed ?_
    · exact .stay sameQueue.loaded (untaken.trans rests.symm) sameQueue.value sameQueue.received
    · refine sound.shut.keep sameQueue ?_ unswapped
      rw [unclaimed]
      exact fun never => by cases never
    · exact fun closed => sameQueue.receiverClosed.trans closed
  · obtain ⟨kept, stays, reports⟩ := sound.flushes.sender_step locks.locks locks.sender
      (Receiver.cell_taken _) sound.shut sound.queue stepped
    have received := stepped.sends.received
    have holds : ∀ verdict ∈ f.verdicts, verdict.Holds next.world := by
      intro verdict isVerdict
      apply (sound.verdicts verdict isVerdict).mono (received ▸ List.prefix_rfl)
      exact fun closed => ⟨stepped.sends.receiverClosed.trans closed, received⟩
    simp only [begin, answer]
    rw [← same] at kept stays reports
    cases isReady : f.system.sender.ready kind spurious f.system.world with
    | none =>
        rw [isReady] at reports
        exact ⟨stays, kept, reports, holds⟩
    | some answer =>
        rw [isReady] at reports
        obtain ⟨flushes, isSo⟩ := reports
        refine ⟨stays, kept, flushes, ?_⟩
        intro verdict isVerdict
        rcases List.mem_append.mp isVerdict with earlier | isLast
        · exact holds verdict earlier
        · obtain rfl := List.mem_singleton.mp isLast
          exact isSo
  · obtain ⟨moves, shut, published⟩ := sound.shut.receiver_step locks.locks locks.receiver stepped
    exact sound.receive locks same moves shut published stepped.receives.senderClosed
      stepped.receives.receiverClosed
  · have sameQueue : f.system.world.SameQueue next.world := by
      rw [world]
      exact ⟨rfl, rfl, rfl, rfl, rfl, rfl⟩
    refine sound.receive locks same ?_ ?_ sameQueue.published sameQueue.senderClosed ?_
    · refine .stay sameQueue.loaded ?_ sameQueue.value sameQueue.received
      rw [parked, reads]
      rfl
    · refine sound.shut.keep sameQueue ?_ ?_
      · rw [reads]
        exact fun never => by cases never
      · rw [reads]
        rfl
    · exact fun closed => sameQueue.receiverClosed.trans closed

theorem system_step (step : Flushed.step kind f label = some f') :
    System.step kind f.system label = some f'.system := by
  simp only [Flushed.step, Option.map_eq_some_iff] at step
  obtain ⟨next, step, rfl⟩ := step
  cases answer kind f.system label <;> exact step

end Flushed

/-- A `Flush` resolves to `Ok` only when its value has been received, and to
`Err` only with the value that was sent, which is not received. -/
theorem flush_truthful {kind : Kind} {f : Flushed T W}
    (reachable : ReachableUnder (Flushed.step kind) (fun f label => f.flushing kind label = true)
      Flushed.init f) : f.Truthful := by
  have sound : System.Sound kind f.system ∧ f.Sound kind := by
    apply reachable.invariant ⟨System.Sound.init, Flushed.Sound.init⟩
    intro state label result sound permitted step
    exact ⟨sound.1.step (Flushed.system_step step), sound.2.step sound.1 permitted step⟩
  exact ⟨sound.2.queue.inOrder, sound.2.verdicts⟩

theorem flush_truthful_of_two :
    ∃ f : Flushed Nat Nat, f.verdicts = [⟨some 7, some 0, .ok⟩,
      ⟨some 8, some 1, .err (some 8) true⟩] ∧
      f.Truthful := by
  obtain ⟨f, ran, verdicts⟩ : ∃ f ∈ runFrom
      (guarded (Flushed.step .channel) fun f (label : Label Nat Nat) => f.flushing .channel label)
      Flushed.init
      [.send (.send 7), .send (.poll 1), .sender false, .sender false, .sender false,
        .sender false, .sender false, .recv .tryRecv, .receiver false, .receiver false,
        .receiver false, .receiver false, .receiver false, .receiver false, .send (.poll 2),
        .sender false, .sender false, .send .dropFlush, .send (.send 8), .send (.poll 3),
        .sender false, .sender false, .sender false, .sender false, .sender false, .recv .drop,
        .receiver false, .receiver false, .receiver false, .receiver false, .send (.poll 4),
        .sender false, .sender false, .sender false],
      f.verdicts = [⟨some 7, some 0, .ok⟩, ⟨some 8, some 1, .err (some 8) true⟩] := by
    decide
  exact ⟨f, verdicts, flush_truthful (reachableUnder_of_runFrom ran)⟩

end Suspend.Channel
