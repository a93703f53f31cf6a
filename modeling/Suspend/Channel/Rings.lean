import Suspend.Channel.Apart

/-!
# A receiver that waits for the sender's drop

The waker of a receiving poll that returned `Pending` is in the cell, with the
lock free and no value announced, until the sending side takes it out or the
receiver registers another one.  `World.Rings` follows it from there into the
hands of a `write` or of a drop, and on to the wake.
-/

namespace Suspend.Channel

open Suspend.Transition

universe u v

variable {T : Type u} {W : Type v}
variable {m m' : World T W} {S : SendSections} {R : RecvSections} {waker : W}
variable {kind : Kind} {spurious : Bool}

/-! ## The waker on its way -/

/-- The waker lock is held, and the waker in the cell comes out next. -/
def WritePc.fetches : WritePc T W → Bool
  | takeReader .. => true
  | _ => false

def DropPc.fetches : DropPc W → Bool
  | takeWaker => true
  | _ => false

def Sender.fetches : Sender T W → Bool
  | trySending pc | flushWriting _ _ pc => pc.fetches
  | dropping pc => pc.fetches
  | _ => false

/-- The receiver's waker has been woken, or the sending side carries it, or it
is in the cell, for the sending side to fetch now or to find when it writes or
drops.  A side that has `posted` its only value will do neither. -/
def World.Rings (waker : W) (m : World T W) (carries : Option W) (fetches posted : Bool) : Prop :=
  waker ∈ m.wokenSinceReceive ∨ carries = some waker ∨
    m.waker = some waker ∧ m.state.wake = true ∧ m.senderClosed = false ∧
      (fetches = true ∨ m.state.wlock = false ∧ m.state.loaded = false ∧ posted = false)

/-- What the waker's way depends on has not changed. -/
theorem World.Rings.keep {carries carries' : Option W} {fetches fetches' posted posted' : Bool}
    (rings : m.Rings waker carries fetches posted)
    (woken : m'.wokenSinceReceive = m.wokenSinceReceive) (stored : m'.waker = m.waker)
    (state : m'.state = m.state) (closed : m'.senderClosed = m.senderClosed)
    (carry : carries = some waker → carries' = some waker)
    (fetch : fetches = true → fetches' = true) (post : posted' = true → posted = true) :
    m'.Rings waker carries' fetches' posted' := by
  rcases rings with isWoken | carried | ⟨inCell, wake, isOpen, fetched | ⟨free, unloaded, waits⟩⟩
  · left
    rw [woken]
    exact isWoken
  · exact .inr (.inl (carry carried))
  · right; right
    rw [stored, state, closed]
    exact ⟨inCell, wake, isOpen, .inl (fetch fetched)⟩
  · right; right
    rw [stored, state, closed]
    refine ⟨inCell, wake, isOpen, .inr ⟨free, unloaded, ?_⟩⟩
    by_contra isPosted
    rw [post (by simpa using isPosted)] at waits
    cases waits

/-! ## The sending side moves -/

/-- A `write` that has the waker wakes it, if the exchange that puts its own
waker in place goes through. -/
theorem WritePc.step_carries {finalize last : Bool} {pc : WritePc T W} (spurious : Bool)
    (locks : Locks m (pc.sections last) R) (isOpen : m.receiverClosed = false)
    (releases : ∀ prev own, pc = .release prev own (some waker) →
      m.state ≠ prev.set { loaded := true, wlock := true, wake := true } →
      waker ∈ m.wokenSinceReceive)
    (carried : pc.carries = some waker) :
    waker ∈ (pc.step finalize spurious m).1.wokenSinceReceive ∨
      ∃ next, (pc.step finalize spurious m).2 = .goto next ∧ next.carries = some waker := by
  cases pc with
  | storeWaker prev own readWaker => exact .inr ⟨_, rfl, carried⟩
  | release prev own readWaker =>
      obtain rfl : readWaker = some waker := carried
      by_cases exchanged : m.state = prev.set { loaded := true, wlock := true, wake := true }
      · refine .inr ⟨.wake waker, ?_, rfl⟩
        simp [WritePc.step, exchanged, WritePc.finish]
      · exact .inl ((WritePc.step_wakes ..).mem_receive (releases prev own rfl exchanged))
  | unlock readWaker =>
      obtain rfl : readWaker = some waker := carried
      have active : m.state.active = true := by
        rw [locks.active_eq, locks.live rfl, isOpen]
        rfl
      refine .inr ⟨.wake waker, ?_, rfl⟩
      simp [WritePc.step, active, WritePc.finish]
  | wake own =>
      obtain rfl : own = waker := Option.some.inj carried
      exact .inl (List.mem_cons_self ..)
  | _ => cases carried

theorem World.Rings.write_step {finalize polled last : Bool} {pc : WritePc T W} (spurious : Bool)
    (locks : Locks m (pc.sections last) R) (points : pc.Local polled)
    (isOpen : m.receiverClosed = false)
    (releases : ∀ prev own, pc = .release prev own (some waker) →
      m.state ≠ prev.set { loaded := true, wlock := true, wake := true } →
      waker ∈ m.wokenSinceReceive)
    (rings : m.Rings waker pc.carries pc.fetches (pc.cell finalize polled).posted) :
    (pc.step finalize spurious m).1.Rings waker
      ((pc.step finalize spurious m).2.elim WritePc.carries fun _ => none)
      ((pc.step finalize spurious m).2.elim WritePc.fetches fun _ => false)
      ((pc.step finalize spurious m).2.elim (fun next => (next.cell finalize polled).posted)
        fun result => (WritePc.cellAfter finalize polled result).posted) := by
  have writeHolds := locks.writeHolds
  have active : m.senderClosed = false → m.state.active = true := by
    intro live
    rw [locks.active_eq, live, isOpen]
    rfl
  rcases rings with woken | carried | ⟨stored, wake, live, fetched | ⟨free, unloaded, waits⟩⟩
  · exact .inl ((pc.step_wakes ..).mem_receive woken)
  · rcases WritePc.step_carries spurious locks isOpen releases carried with
      woken | ⟨next, isNext, kept⟩
    · exact .inl woken
    · rw [isNext]
      exact .inr (.inl kept)
  · cases pc with
    | takeReader prev own =>
        refine .inr (.inl ?_)
        cases own <;> simp [WritePc.step, WritePc.locked, WritePc.carries, Outcome.elim, stored]
    | _ => cases fetched
  · cases pc with
    | load value own =>
        refine .inr (.inr ⟨stored, wake, live, .inr ⟨free, unloaded, ?_⟩⟩)
        simp only [WritePc.step, active live, unloaded]
        rfl
    | store state value own =>
        refine .inr (.inr ⟨stored, wake, live, .inr ⟨free, unloaded, ?_⟩⟩)
        simp only [WritePc.step]
        split <;> rfl
    | fast state =>
        have differs : ¬ (m.state = state ∧ !spurious) := by
          rintro ⟨rfl, _⟩
          simp [points.2.2.1] at wake
        simp only [WritePc.step, if_neg differs]
        exact .inr (.inr ⟨stored, wake, live, .inr ⟨free, unloaded, rfl⟩⟩)
    | lock own =>
        refine .inr (.inr ⟨stored, ?_, live, .inl ?_⟩)
        · simp [WritePc.step, World.fetchOr]
        · simp [WritePc.step, free, wake, Outcome.elim, WritePc.fetches]
    | sync | takeBack =>
        have inactive := locks.sender_closed rfl
        simp [active live] at inactive
    | wake own => exact .inr (.inr ⟨stored, wake, live, .inr ⟨free, unloaded, waits⟩⟩)
    | takeReader | storeWaker | release | clearWaker | unlockRead | unlock =>
        -- with the lock held the cell is not free
        simp [(writeHolds rfl).1] at free

/-- A flush has posted its value. -/
theorem FlushPc.cell_posted (finalize : Bool) (pc : FlushPc W) :
    (pc.cell finalize).posted = finalize := by
  cases pc <;> rfl

theorem FlushPc.cellAfter_posted {finalize : Bool} {result : PollResult T}
    (posted : (FlushPc.cellAfter finalize result).posted = true) : finalize = true := by
  cases result with
  | ready value dropped => exact (Bool.and_eq_true_iff.mp posted).1
  | _ => exact posted

/-- The last poll of a finalizing flush closes the channel without a wake; it
has posted its value. -/
theorem World.Rings.flush_step {finalize : Bool} {pc : FlushPc W} (spurious : Bool)
    (locks : Locks m (pc.sections finalize) R) (points : pc.Local finalize)
    (isOpen : m.receiverClosed = false)
    (rings : m.Rings waker none false finalize) :
    (pc.step finalize spurious m).1.Rings waker none false finalize := by
  have flushHolds := locks.flushHolds
  have closed := locks.sender_closed
  rcases rings with woken | never | ⟨stored, wake, live, never | ⟨free, unloaded, rfl⟩⟩
  · exact .inl ((pc.step_wakes ..).mem_receive woken)
  · cases never
  · cases never
  · have active : m.state.active = true := by
      rw [locks.active_eq, live, isOpen]
      rfl
    cases pc with
    | load | wake | finish => exact .inr (.inr ⟨stored, wake, live, .inr ⟨free, unloaded, rfl⟩⟩)
    | clearLocked | resetLocked => exact points.elim
    | reset | takeBack =>
        have inactive := closed rfl
        simp [active] at inactive
    | lock prev own =>
        have differs : ¬ (m.state = prev ∧ !spurious) := by
          rintro ⟨rfl, _⟩
          simp [points.2.1] at unloaded
        simp only [FlushPc.step, if_neg differs]
        split_ifs <;> exact .inr (.inr ⟨stored, wake, live, .inr ⟨free, unloaded, rfl⟩⟩)
    | clearPrev | storeWaker | release | clearOwn | unlock =>
        have held := (flushHolds rfl).1
        simp [free, isOpen] at held

/-- A drop takes the waker out as it begins, if it can have the lock. -/
theorem World.Rings.drop_step {live : Bool} {pc : DropPc W}
    (locks : Locks m (pc.sendSections live) R) (isOpen : m.receiverClosed = false)
    (ended : pc.ended = true → m.shut = true)
    (closes : pc = .close → (m.state.wake && !m.state.wlock) = false)
    (rings : m.Rings waker pc.carries pc.fetches false) :
    (pc.step true m).1.Rings waker
      ((pc.step true m).2.elim DropPc.carries fun _ => none)
      ((pc.step true m).2.elim DropPc.fetches fun _ => false) false := by
  have dropHolds := locks.sender_dropHolds
  rcases rings with woken | carried | ⟨stored, wake, isLive, fetched | ⟨free, unloaded, -⟩⟩
  · exact .inl ((pc.step_wakes ..).mem_receive woken)
  · cases pc with
    | unlock own =>
        obtain rfl : own = some waker := carried
        exact .inr (.inl rfl)
    | wake own last =>
        obtain rfl : own = waker := Option.some.inj carried
        exact .inl (List.mem_cons_self ..)
    | _ => cases carried
  · cases pc with
    | takeWaker => exact .inr (.inl stored)
    | _ => cases fetched
  · have active : m.state.active = true := by
      rw [locks.active_eq, isLive, isOpen]
      rfl
    cases pc with
    | lock =>
        refine .inr (.inr ⟨stored, ?_, isLive, .inl ?_⟩)
        · simp [DropPc.step, World.fetchOr]
        · simp [DropPc.step, active, free, wake, unloaded, Outcome.elim, DropPc.fetches]
    | close =>
        have kept := closes rfl
        simp [wake, free] at kept
    | takeWaker | clearOwn | unlock =>
        have held := (dropHolds rfl).1
        simp [free, isOpen] at held
    | clearValue | clearWaker | wake | clearLast =>
        have shut := ended rfl
        simp [World.shut, isLive, isOpen] at shut

theorem World.Rings.sender_step {s s' : Sender T W} (locks : Locks m (s.sections kind) R)
    (points : s.Local kind) (isOpen : m.receiverClosed = false)
    (ended : ∀ pc, s = .dropping pc → pc.ended = true → m.shut = true)
    (closes : s = .dropping .close → (m.state.wake && !m.state.wlock) = false)
    (releases : ∀ owner poll prev own,
      s = .flushWriting owner poll (.release prev own (some waker)) →
      m.state ≠ prev.set { loaded := true, wlock := true, wake := true } →
      waker ∈ m.wokenSinceReceive)
    (rings : m.Rings waker s.carries s.fetches (s.cell kind).posted)
    (step : s.Stepped kind spurious m m' s') :
    m'.Rings waker s'.carries s'.fetches (s'.cell kind).posted := by
  have never {carries : Option W} : none = some waker → carries = some waker := by
    rintro ⟨⟩
  have nothing {fetches : Bool} : false = true → fetches = true := by
    rintro ⟨⟩
  induction step with
  | trySend inner =>
      have kept := World.Rings.write_step spurious locks points isOpen
        (fun _ _ isRelease => by subst isRelease; cases points.2.2) rings
      rw [inner] at kept
      exact kept
  | @trySendEnd _ result after inner =>
      have kept := World.Rings.write_step spurious locks points isOpen
        (fun _ _ isRelease => by subst isRelease; cases points.2.2) rings
      have noPanic := points.step kind.finalize spurious locks
      rw [inner] at kept noPanic
      have post : ((Sender.finishTrySend kind (after.endWrite result) result).2.cell
          kind).posted = true → (WritePc.cellAfter kind.finalize false result).posted = true :=
        (Sender.finishTrySend_cell noPanic).2.posted
      have same := (Sender.finishTrySend_noted kind (after.endWrite result) result).memory
      exact kept.keep same.wokenSinceReceive same.waker same.state same.sender never nothing post
  | flushWrite inner =>
      have kept := World.Rings.write_step spurious locks points.1 isOpen
        (fun _ _ isRelease => releases _ _ _ _ (by rw [isRelease])) rings
      rw [inner] at kept
      exact kept
  | @flushWriteEnd owner poll _ result after inner =>
      have kept := World.Rings.write_step spurious locks points.1 isOpen
        (fun _ _ isRelease => releases _ _ _ _ (by rw [isRelease])) rings
      have noPanic := points.1.step kind.finalize spurious locks
      rw [inner] at kept noPanic
      have post : ((Sender.finishFlushWrite kind owner poll (after.endWrite result) result).2.cell
          kind).posted = true → (WritePc.cellAfter kind.finalize true result).posted = true :=
        (Sender.finishFlushWrite_cell noPanic).2.posted
      have same :=
        (Sender.finishFlushWrite_noted kind owner poll (after.endWrite result) result).memory
      exact kept.keep same.wokenSinceReceive same.waker same.state same.sender never nothing post
  | @flush owner poll pc next after inner =>
      have kept : m.Rings waker none false kind.finalize :=
        rings.keep rfl rfl rfl rfl id id (pc.cell_posted kind.finalize).trans
      have kept := kept.flush_step spurious locks points.1 isOpen
      rw [inner] at kept
      exact kept.keep rfl rfl rfl rfl id id (next.cell_posted kind.finalize).symm.trans
  | @flushEnd owner poll pc result after inner =>
      have kept : m.Rings waker none false kind.finalize :=
        rings.keep rfl rfl rfl rfl id id (pc.cell_posted kind.finalize).trans
      have kept := kept.flush_step spurious locks points.1 isOpen
      have noPanic := points.1.step spurious m
      rw [inner] at kept noPanic
      have post : ((Sender.finishFlush kind owner poll after result).2.cell kind).posted = true →
          kind.finalize = true := by
        intro isPosted
        exact FlushPc.cellAfter_posted ((Sender.finishFlush_cell noPanic).2.posted isPosted)
      have same := (Sender.finishFlush_noted kind owner poll after result).memory
      exact kept.keep same.wokenSinceReceive same.waker same.state same.sender never nothing post
  | drop inner =>
      have kept := rings.drop_step locks isOpen (ended _ rfl)
        (fun isClose => closes (by rw [isClose]))
      rw [inner] at kept
      exact kept
  | @dropEnd _ last _ inner =>
      have kept := rings.drop_step locks isOpen (ended _ rfl)
        (fun isClose => closes (by rw [isClose]))
      rw [inner] at kept
      cases last <;> exact kept.keep rfl rfl rfl rfl never id id
  | @free next =>
      refine rings.keep rfl rfl rfl rfl never id ?_
      rcases next with _ | _ | ⟨owner, channel, _ | value⟩ | _ <;>
        simp_all [Sender.cell, Sender.Local]

theorem World.Rings.sender_begun {handle : SenderHandle T} {op : SendOp T W} {s' : Sender T W}
    (points : (Sender.idle handle : Sender T W).Local kind)
    (rings : m.Rings waker none false ((Sender.idle handle : Sender T W).cell kind).posted)
    (begun : Sender.Begun kind m handle op m' s') :
    m'.Rings waker s'.carries s'.fetches (s'.cell kind).posted := by
  obtain ⟨-, follows⟩ := Sender.begun_cell points begun
  have same : m'.wokenSinceReceive = m.wokenSinceReceive ∧ m'.waker = m.waker ∧
      m'.state = m.state ∧ m'.senderClosed = m.senderClosed := by
    induction begun <;> exact ⟨rfl, rfl, rfl, rfl⟩
  obtain ⟨woken, stored, state, closed⟩ := same
  apply rings.keep woken stored state closed _ _ follows.posted
  · rintro ⟨⟩
  · rintro ⟨⟩

/-! ## The receiving side moves -/

/-- A read without a waker stays without one. -/
theorem ReadPc.step_unpolled (spurious : Bool) {pc : ReadPc T W} (unpolled : pc.waker = none) :
    (pc.step spurious m).2.elim (fun next => next.waker = none) fun _ => True := by
  have looks (prev : State) (orCancel : Bool) : (ReadPc.loop (T := T) (W := W) prev none
      orCancel).elim (fun next => next.waker = none) fun _ => True := by
    simp only [ReadPc.loop]
    split_ifs <;> trivial
  cases pc with
  | load own orCancel =>
      obtain rfl : own = none := unpolled
      exact looks _ _
  | lock prev own orCancel =>
      obtain rfl : own = none := unpolled
      simp only [ReadPc.step]
      split_ifs
      · rfl
      · exact looks _ _
  | cancel prev own =>
      obtain rfl : own = none := unpolled
      simp only [ReadPc.step]
      split_ifs
      · trivial
      · exact looks _ _
  | register prev own orCancel =>
      obtain rfl : own = none := unpolled
      simp only [ReadPc.step]
      split_ifs
      · rfl
      · rfl
      · exact looks _ _
  | clearPrev prev own orCancel =>
      obtain rfl : own = none := unpolled
      rfl
  | storeWaker | release | wake => cases unpolled
  | unlock prev value flushWaker => cases flushWaker <;> trivial
  | unlockOwn orCancel => exact looks _ _
  | unlockBare orCancel =>
      simp only [ReadPc.step]
      split_ifs
      · trivial
      · exact looks _ _
  | swap prev =>
      simp only [ReadPc.step]
      split_ifs <;> trivial
  | take prev =>
      simp only [ReadPc.step]
      split <;> rfl
  | takeClosed | takeFlush | wakeFlush | clearOwn => trivial

/-- A read without a waker leaves the receiver's where it is, unless it takes
its place in the cell. -/
theorem World.Rings.read_step {cancels : Bool} {pc : ReadPc T W} {carries : Option W}
    {fetches posted : Bool} (spurious : Bool) (locks : Locks m S pc.sections)
    (points : pc.Local cancels) (unpolled : pc.waker = none)
    (isOpen : (pc.step spurious m).1.receiverClosed = false)
    (holds : fetches = true → S.writeHolds = true ∨ S.dropHolds = true)
    (registers : ∀ prev own orCancel, pc = .register prev own orCancel → m.state = prev →
      spurious = false → prev.wake = true → m.waker = some waker → waker ∈ m.wokenSinceReceive)
    (rings : m.Rings waker carries fetches posted) :
    (pc.step spurious m).1.Rings waker carries fetches posted := by
  have writeHolds := locks.writeHolds
  have dropHolds := locks.sender_dropHolds
  have taking := locks.taking
  have registering := locks.registering
  have closed := locks.receiver_closed
  rcases rings with woken | carried | ⟨stored, wake, live, place⟩
  · exact .inl ((pc.step_wakes ..).mem_receive woken)
  · exact .inr (.inl carried)
  have wasOpen : m.receiverClosed = false := by
    by_contra wasClosed
    have stays := (pc.step_frame spurious m).2.receiverClosed (by simpa using wasClosed)
    simp [isOpen] at stays
  have active : m.state.active = true := by
    rw [locks.active_eq, live, wasOpen]
    rfl
  -- what the sending side has locked is not the reader's
  have apart (fetched : fetches = true) :
      pc.sections.registering = false ∧ pc.sections.takingLocked = false := by
    rcases holds fetched with isWrite | isDrop
    · exact ⟨(writeHolds isWrite).2.2.1, (writeHolds isWrite).2.2.2.2⟩
    · exact (dropHolds isDrop).2
  cases pc with
  | load => exact .inr (.inr ⟨stored, wake, live, place⟩)
  | swap | takeClosed =>
      have inactive := closed rfl
      simp [active] at inactive
  | lock prev own orCancel =>
      simp only [ReadPc.step]
      split_ifs with exchanged
      · obtain rfl := exchanged.1
        rcases place with fetched | ⟨-, unloaded, -⟩
        · refine .inr (.inr ⟨stored, ?_, live, .inl fetched⟩)
          simpa [World.store] using wake
        · simp [points.2.1] at unloaded
      · exact .inr (.inr ⟨stored, wake, live, place⟩)
  | take prev =>
      rcases place with fetched | ⟨-, unloaded, -⟩
      · exact .inr (.inr ⟨stored, wake, live, .inl fetched⟩)
      · simp [taking rfl] at unloaded
  | takeFlush prev value =>
      rcases place with fetched | ⟨-, unloaded, -⟩
      · have kept := (apart fetched).2
        simp [ReadPc.sections, points.2.2.1] at kept
      · simp [taking rfl] at unloaded
  | unlock prev value flushWaker =>
      rcases place with fetched | ⟨-, unloaded, -⟩
      · have kept := (apart fetched).2
        have wlock : prev.wlock = true := by
          simpa [ReadPc.sections] using kept
        refine .inr (.inr ⟨stored, ?_, live, .inl fetched⟩)
        simp [ReadPc.step, World.fetchAnd, ReadPc.unlockMask, wlock, wake]
      · simp [taking rfl] at unloaded
  | wakeFlush own value dropped => exact .inr (.inr ⟨stored, wake, live, place⟩)
  | cancel prev own =>
      by_cases exchanged : m.state = prev
      · simp [ReadPc.step, exchanged, World.closeReceiver] at isOpen
      · simp only [ReadPc.step, if_neg exchanged]
        exact .inr (.inr ⟨stored, wake, live, place⟩)
  | register prev own orCancel =>
      by_cases exchanged : m.state = prev ∧ !spurious
      · have woken := registers prev own orCancel rfl exchanged.1 (by simpa using exchanged.2)
          (exchanged.1 ▸ wake) stored
        exact .inl ((ReadPc.step_wakes ..).mem_receive woken)
      · simp only [ReadPc.step, if_neg exchanged]
        exact .inr (.inr ⟨stored, wake, live, place⟩)
  | clearPrev | clearOwn | unlockOwn | unlockBare =>
      rcases place with fetched | ⟨free, -, -⟩
      · cases (apart fetched).1
      · simp [(registering rfl).1] at free
  | storeWaker | release | wake => cases unpolled

/-- A poll that returns `Pending` has woken its waker, or has seen the channel
open. -/
theorem ReadPc.step_pending {cancels : Bool} {pc : ReadPc T W} (spurious : Bool)
    (points : pc.Local cancels) (pends : (pc.step spurious m).2 = .ret .pending) :
    (∃ own, pc = .wake own) ∨ (pc.step spurious m).1.state.active = true := by
  have looks (m' : World T W) {own : Option W} {orCancel : Bool}
      (pends : ReadPc.loop (T := T) m'.state own orCancel = .ret .pending) :
      m'.state.active = true := by
    cases active : m'.state.active with
    | true => rfl
    | false =>
        simp only [ReadPc.loop, active, Bool.not_false, if_true] at pends
        split_ifs at pends
        cases pends
  cases pc with
  | wake own => exact .inl ⟨own, rfl⟩
  | load own orCancel => exact .inr (looks m.access pends)
  | lock prev own orCancel =>
      simp only [ReadPc.step] at pends ⊢
      split_ifs at pends ⊢
      exact .inr (looks m.access pends)
  | cancel prev own =>
      simp only [ReadPc.step] at pends ⊢
      split_ifs at pends ⊢
      · cases pends
      · exact .inr (looks m.access pends)
  | register prev own orCancel =>
      simp only [ReadPc.step] at pends ⊢
      split_ifs at pends ⊢
      exact .inr (looks m.access pends)
  | release prev own orCancel =>
      simp only [ReadPc.step] at pends ⊢
      split_ifs at pends ⊢
      right
      simp [World.store, points.1]
  | unlockOwn orCancel =>
      exact .inr (looks (m.fetchAnd { rlock := true, wlock := true, wake := true }) pends)
  | unlockBare orCancel =>
      simp only [ReadPc.step] at pends ⊢
      split_ifs at pends ⊢
      · cases pends
      · exact .inr (looks (m.fetchAnd { rlock := true, wlock := true, wake := true }) pends)
  | unlock prev value flushWaker => cases flushWaker <;> cases pends
  | swap prev =>
      simp only [ReadPc.step] at pends
      split_ifs at pends
      cases pends
  | _ => cases pends

/-- A finalizing side posts its value. -/
theorem Sender.cell_posted {s : Sender T W} (posted : (s.cell kind).posted = true) :
    kind.finalize = true := by
  cases s with
  | idle handle =>
      rcases handle with _ | _ | ⟨owner, channel, _ | value⟩ | _
      case flush.none => exact (Bool.and_eq_true_iff.mp posted).1
      all_goals cases posted
  | trySending pc | flushWriting _ _ pc => cases pc <;> first | exact posted | cases posted
  | flushing _ _ pc => exact (pc.cell_posted kind.finalize).symm.trans posted
  | dropping | freeing => cases posted

/-- The side that is to fetch the waker has the lock. -/
theorem Sender.fetches_holds {s : Sender T W} (fetches : s.fetches = true) :
    (s.sections kind).writeHolds = true ∨ (s.sections kind).dropHolds = true := by
  cases s with
  | trySending pc | flushWriting _ _ pc => cases pc <;> first | exact .inl rfl | cases fetches
  | dropping pc => cases pc <;> first | exact .inr rfl | cases fetches
  | _ => cases fetches

/-- A poll in progress leaves nothing to wait for, and other reads have no
waker. -/
structure Receiver.Polled (m : World T W) (r : Receiver T W) : Prop where
  busy : ∀ call pc, r = .reading call pc → call.waker ≠ none → m.lastPoll = none
  bare : ∀ call pc, r = .reading call pc → call.waker = none → pc.waker = none

/-- A poll that begins leaves nothing to wait for. -/
theorem Receiver.beginPoll_polled {call : ReceiveCall W} {own : W}
    (isPoll : call.waker = some own) :
    (beginPoll call own m).2.Polled (beginPoll (T := T) call own m).1 := by
  constructor
  · rintro _ _ ⟨⟩ _
    rfl
  · rintro _ _ ⟨⟩ unpolled
    rw [isPoll] at unpolled
    cases unpolled

theorem Receiver.Polled.of_rests {r : Receiver T W} (rests : ∀ call pc, r ≠ .reading call pc) :
    r.Polled m where
  busy call pc isReading := absurd isReading (rests call pc)
  bare call pc isReading := absurd isReading (rests call pc)

theorem Receiver.finishRead_waker {call : ReceiveCall W} {result : PollResult T} :
    (finishRead kind m call result).1.waker = m.waker :=
  (finishRead_noted kind m call result).waker

theorem Receiver.Left.polled {call : ReceiveCall W} {result : PollResult T} {r : Receiver T W}
    (left : Left kind m call result m' r) : r.Polled m' := by
  induction left with
  | reading first empty => rcases first with ⟨-, rfl⟩ | ⟨-, rfl⟩ <;> exact beginPoll_polled rfl
  | _ => exact .of_rests (by rintro _ _ ⟨⟩)

/-- The latest poll after a `read` has returned is this one, or the one before,
or one that begins now. -/
theorem Receiver.finishRead_polled (kind : Kind) (m : World T W) (call : ReceiveCall W)
    (result : PollResult T) :
    ((finishRead kind m call result).2.Polled (finishRead kind m call result).1) ∧
      ((∃ own, call.waker = some own ∧ result = .pending ∧
          (finishRead kind m call result).2.waits = true ∧
          (finishRead kind m call result).1 = m.pendPoll own) ∨
        (finishRead kind m call result).1.lastPoll = none ∨
        (finishRead kind m call result).1.lastPoll = m.lastPoll ∧
          (finishRead kind m call result).1.wokenSinceReceive = m.wokenSinceReceive) := by
  refine ⟨(finishRead_left kind m call result).polled, ?_⟩
  cases result with
  | pending =>
      cases call with
      | poll own | recv own | timeout own => exact .inl ⟨own, rfl, rfl, rfl, rfl⟩
      | recvFirst own | timeoutFirst own => exact .inr (.inl rfl)
      | tryRecv | timeoutLast | cancel => exact .inr (.inr ⟨rfl, rfl⟩)
  | ready value dropped =>
      cases call with
      | recvFirst own =>
          rcases value with _ | value
          · cases dropped with
            | false => exact .inr (.inl rfl)
            | true => exact .inr (.inr ⟨rfl, rfl⟩)
          · exact .inr (.inr ⟨rfl, rfl⟩)
      | _ => cases value <;> exact .inr (.inr ⟨rfl, rfl⟩)
  | panic => cases call <;> exact .inr (.inr ⟨rfl, rfl⟩)

/-- A receiving side that waits has not found a value. -/
theorem Receiver.waits_waiting {r : Receiver T W} (waits : r.waits = true) :
    (r.cell kind).waiting = kind.finalize := by
  cases r with
  | idle handle => cases handle <;> first | rfl | cases waits
  | parked => rfl
  | _ => cases waits

/-- The receiver's waker is on its way while the receiver has the channel. -/
def Rung (kind : Kind) (m : World T W) (s : Sender T W) (r : Receiver T W) : Prop :=
  ∀ own, m.lastPoll = some own → r.attached = true →
    m.Rings own s.carries s.fetches (s.cell kind).posted

theorem Rung.receiver_step {s : Sender T W} {r r' : Receiver T W}
    (locks : Locks m (s.sections kind) r.sections) (locks' : Locks m' (s.sections kind) r'.sections)
    (points : r.Local) (attends : r.Attends m) (polled : r.Polled m)
    (cell : r'.attached = true → Cell m' (s.cell kind) (r'.cell kind))
    (registers : ∀ call prev own orCancel, r = .reading call (.register prev own orCancel) →
      m.state = prev → spurious = false → prev.wake = true →
      ∀ waker, m.lastPoll = some waker → m.waker = some waker → waker ∈ m.wokenSinceReceive)
    (rung : Rung kind m s r) (step : r.Stepped kind spurious m m' r') :
    r'.Polled m' ∧ Rung kind m' s r' := by
  -- a read without a waker
  have reads {call : ReceiveCall W} {pc : ReadPc T W} (isReading : r = .reading call pc)
      (unpolled : call.waker = none) (isOpen : (pc.step spurious m).1.receiverClosed = false)
      (own : W) (waits : m.lastPoll = some own) :
      (pc.step spurious m).1.Rings own s.carries s.fetches (s.cell kind).posted := by
    subst isReading
    exact World.Rings.read_step spurious locks points (polled.bare _ _ rfl unpolled) isOpen
      Sender.fetches_holds
      (fun prev own orCancel isRegister exchanged genuine wake =>
        registers call prev own orCancel (by rw [isRegister]) exchanged genuine wake _ waits)
      (rung own waits rfl)
  have attended {call : ReceiveCall W} {pc : ReadPc T W} {own : W} (points : pc.Local call.cancels)
      (isPoll : call.waker = some own) : pc.Local false := by
    cases call <;> first | exact points | cases isPoll
  induction step with
  | @read call pc next _ inner =>
      have same := (pc.step_frame spurious m).1.lastPoll
      rw [inner] at same
      have isOpen := Receiver.isOpen locks' rfl
      cases isPoll : call.waker with
      | none =>
          have bare := ReadPc.step_unpolled (m := m) spurious (polled.bare _ _ rfl isPoll)
          have reads := reads rfl isPoll
          rw [inner] at bare reads
          refine ⟨⟨?_, ?_⟩, ?_⟩
          · rintro _ _ ⟨⟩ polls
            exact absurd isPoll polls
          · rintro _ _ ⟨⟩ _
            exact bare
          · intro own waits _
            exact reads isOpen own (same.symm.trans waits)
      | some own =>
          have nothing := polled.busy call pc rfl (by simp [isPoll])
          refine ⟨⟨?_, ?_⟩, ?_⟩
          · rintro _ _ ⟨⟩ _
            exact same.trans nothing
          · rintro _ _ ⟨⟩ unpolled
            rw [isPoll] at unpolled
            cases unpolled
          · intro own waits _
            rw [same, nothing] at waits
            cases waits
  | @readEnd call pc result after inner =>
      have same := (pc.step_frame spurious m).1.lastPoll
      rw [inner] at same
      have word : after.SameWord (Receiver.finishRead kind after call result).1 :=
        Receiver.finishRead_follows.1
      obtain ⟨polls, isLast⟩ := Receiver.finishRead_polled kind after call result
      refine ⟨polls, ?_⟩
      intro own waits attached
      rcases isLast with ⟨poll, isPoll, rfl, pends, isPending⟩ | nothing | ⟨before, woken⟩
      · have pended := (attends poll isPoll).step spurious locks (attended points isPoll)
        have sees := ReadPc.step_pending (m := m) spurious points (by rw [inner])
        rw [inner] at pended sees
        rw [isPending] at waits locks' cell ⊢
        obtain rfl : poll = own := Option.some.inj waits
        refine World.Rings.keep ?_ rfl rfl rfl rfl id id id
        rcases sees with ⟨own, rfl⟩ | active
        · obtain rfl : own = poll := by
            rcases (attends poll isPoll).waker with bare | same
            · cases bare
            · exact Option.some.inj same
          obtain rfl : m.wake own = after := congrArg Prod.fst inner
          exact .inl (List.mem_cons_self ..)
        · rcases pended with woken | armed
          · exact .inl woken
          · have isActive := locks'.active_eq
            rw [show (after.pendPoll poll).state.active = true from active] at isActive
            simp only [Bool.true_eq, Bool.not_eq_true', Bool.or_eq_false_iff] at isActive
            refine .inr (.inr ⟨armed.stored, armed.wake, isActive.1, .inr ⟨armed.free,
              armed.unloaded, ?_⟩⟩)
            -- a side that has posted its value would have it still announced
            by_contra isPosted
            have isPosted : (s.cell kind).posted = true := by simpa using isPosted
            rcases (cell attached).posted isPosted with loaded | found
            · have unloaded : (after.pendPoll poll).state.loaded = false := armed.unloaded
              rw [unloaded] at loaded
              cases loaded
            · rw [Receiver.waits_waiting pends, Sender.cell_posted isPosted] at found
              cases found
      · rw [nothing] at waits
        cases waits
      · have waited := before.symm.trans waits
        cases isPoll : call.waker with
        | none =>
            have isOpen := Receiver.isOpen locks' attached
            have rings := reads rfl isPoll
            rw [inner] at rings
            have rings := rings (word.2.2.symm.trans isOpen) own (same.symm.trans waited)
            exact rings.keep woken Receiver.finishRead_waker word.1 word.2.1 id id id
        | some poll =>
            rw [same, polled.busy call pc rfl (by simp [isPoll])] at waited
            cases waited
  | unpark isParked =>
      refine ⟨Receiver.beginPoll_polled ?_, ?_⟩
      · rcases isParked with rfl | rfl <;> rfl
      · rintro _ ⟨⟩
  | drop => exact ⟨.of_rests (by rintro _ _ ⟨⟩), fun _ _ attached => by cases attached⟩
  | @dropEnd handle pc last =>
      refine ⟨.of_rests ?_, ?_⟩
      · cases last <;> rintro _ _ ⟨⟩
      · intro _ _ attached
        cases last with
        | true => cases attached
        | false => cases handle <;> first | exact (points rfl).elim | cases attached
  | @free next =>
      refine ⟨.of_rests (by rintro _ _ ⟨⟩), ?_⟩
      intro _ _ attached
      cases next <;> first | exact (points rfl).elim | cases attached

end Suspend.Channel
