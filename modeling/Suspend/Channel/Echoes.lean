import Suspend.Channel.Rings

/-!
# A flush that waits for the receiver's drop

The waker of a flush poll that returned `Pending` is in the cell next to its
value, with both locks free, until the receiving side takes the two or is
dropped.  `World.Echoes` follows it into the hands of a `read` or of a drop, and
on to the wake; `Polls` says how a poll gets it there.
-/

namespace Suspend.Channel

open Suspend.Transition

universe u v

variable {T : Type u} {W : Type v}
variable {m m' : World T W} {S : SendSections} {R : RecvSections} {waker own : W}
variable {kind : Kind} {spurious : Bool}

/-! ## The waker on its way -/

/-- The waker lock is held, and the waker in the cell comes out next. -/
def ReadPc.fetches : ReadPc T W → Bool
  | take prev => !prev.wlock && prev.wake
  | takeFlush .. => true
  | _ => false

def Receiver.fetches : Receiver T W → Bool
  | reading _ pc => pc.fetches
  | dropping _ pc => pc.fetches
  | _ => false

/-- The waker of a flush has been woken, or the receiving side carries it, or it
is in the cell of an open channel next to a value, for the receiving side to
fetch now or to find when it takes the value or drops. -/
def World.Echoes (waker : W) (m : World T W) (carries : Option W) (fetches : Bool) : Prop :=
  waker ∈ m.wokenSinceFlush ∨ carries = some waker ∨
    m.waker = some waker ∧ m.state.wake = true ∧ m.state.loaded = true ∧
      m.senderClosed = false ∧ m.receiverClosed = false ∧
        (fetches = true ∨ m.state.wlock = false ∧ m.state.rlock = false)

variable {carries : Option W} {fetches : Bool}

theorem World.Echoes.keep {carries' : Option W} {fetches' : Bool}
    (echoes : m.Echoes waker carries fetches) (woken : m'.wokenSinceFlush = m.wokenSinceFlush)
    (stored : m'.waker = m.waker) (word : m.SameWord m')
    (carry : carries = some waker → carries' = some waker)
    (fetch : fetches = true → fetches' = true) : m'.Echoes waker carries' fetches' := by
  obtain ⟨state, sender, receiver⟩ := word
  rcases echoes with isWoken | carried | ⟨inCell, wake, loaded, live, isOpen, place⟩
  · left
    rw [woken]
    exact isWoken
  · exact .inr (.inl (carry carried))
  · right; right
    rw [stored, state, sender, receiver]
    exact ⟨inCell, wake, loaded, live, isOpen, place.imp_left fetch⟩

/-! ## The receiving side moves -/

/-- A `read` that takes the value takes the waker along. -/
theorem World.Echoes.read_step {cancels : Bool} {pc : ReadPc T W} (spurious : Bool)
    (locks : Locks m S pc.sections) (points : pc.Local cancels)
    (echoes : m.Echoes waker pc.carries pc.fetches) :
    (pc.step spurious m).1.Echoes waker
      ((pc.step spurious m).2.elim ReadPc.carries fun _ => none)
      ((pc.step spurious m).2.elim ReadPc.fetches fun _ => false) := by
  have rlock := locks.rlock_eq
  have closed := locks.receiver_closed
  rcases echoes with woken | carried | ⟨stored, wake, loaded, live, isOpen, fetched | ⟨free, bare⟩⟩
  · exact .inl ((pc.step_wakes ..).mem_flush woken)
  · cases pc with
    | unlock prev value flushWaker =>
        obtain rfl : flushWaker = some waker := carried
        exact .inr (.inl rfl)
    | wakeFlush own value dropped =>
        obtain rfl : own = waker := Option.some.inj carried
        exact .inl (List.mem_cons_self ..)
    | _ => cases carried
  · cases pc with
    | take prev =>
        obtain ⟨wlock, isSet⟩ := Bool.and_eq_true_iff.mp fetched
        refine .inr (.inr ⟨stored, wake, loaded, live, isOpen, .inl ?_⟩)
        simp only [ReadPc.step, wlock, isSet]
        rfl
    | takeFlush prev value => exact .inr (.inl stored)
    | _ => cases fetched
  · have active : m.state.active = true := by
      rw [locks.active_eq, live, isOpen]
      rfl
    have stays {after : World T W} (same : after = m.access) {carries : Option W}
        {fetches : Bool} : after.Echoes waker carries fetches := by
      rw [same]
      exact .inr (.inr ⟨stored, wake, loaded, live, isOpen, .inr ⟨free, bare⟩⟩)
    cases pc with
    | load => exact stays rfl
    | swap | takeClosed =>
        have inactive := closed rfl
        simp [active] at inactive
    | lock prev own orCancel =>
        simp only [ReadPc.step]
        split_ifs with exchanged
        · obtain rfl := exchanged.1
          refine .inr (.inr ⟨stored, ?_, ?_, live, isOpen, .inl ?_⟩)
          · simpa [World.store] using wake
          · simpa [World.store] using loaded
          · simp [Outcome.elim, ReadPc.fetches, free, wake]
        · exact stays rfl
    | cancel prev own =>
        have differs : m.state ≠ prev := by
          rintro rfl
          simp [points.2.1] at loaded
        simp only [ReadPc.step, if_neg differs]
        exact stays rfl
    | register prev own orCancel =>
        have differs : ¬ (m.state = prev ∧ !spurious) := by
          rintro ⟨rfl, _⟩
          simp [points.2.1] at loaded
        simp only [ReadPc.step, if_neg differs]
        exact stays rfl
    | wakeFlush | wake =>
        exact .inr (.inr ⟨stored, wake, loaded, live, isOpen, .inr ⟨free, bare⟩⟩)
    | take | takeFlush | unlock | clearPrev | storeWaker | release | clearOwn | unlockOwn
    | unlockBare =>
        -- the reader has the read lock
        simp [rlock, ReadPc.sections] at bare

/-- A drop takes the waker out as it begins, if it can have the lock. -/
theorem World.Echoes.drop_step {pc : DropPc W} (locks : Locks m S pc.recvSections)
    (apart : Apart m S pc.recvSections) (ended : pc.ended = true → m.shut = true)
    (closes : pc = .close → (m.state.wake && !m.state.wlock) = false)
    (echoes : m.Echoes waker pc.carries pc.fetches) :
    (pc.step false m).1.Echoes waker
      ((pc.step false m).2.elim DropPc.carries fun _ => none)
      ((pc.step false m).2.elim DropPc.fetches fun _ => false) := by
  have dropHolds := apart.receiver
  rcases echoes with woken | carried | ⟨stored, wake, loaded, live, isOpen, fetched | ⟨free, bare⟩⟩
  · exact .inl ((pc.step_wakes ..).mem_flush woken)
  · cases pc with
    | unlock own =>
        obtain rfl : own = some waker := carried
        exact .inr (.inl rfl)
    | wake own last =>
        obtain rfl : own = waker := Option.some.inj carried
        exact .inl (List.mem_cons_self ..)
    | _ => cases carried
  · cases pc with
    | takeWaker => exact .inr (.inl stored)
    | _ => cases fetched
  · have active : m.state.active = true := by
      rw [locks.active_eq, live, isOpen]
      rfl
    cases pc with
    | lock =>
        refine .inr (.inr ⟨stored, ?_, ?_, live, isOpen, .inl ?_⟩)
        · simp [DropPc.step, World.fetchOr]
        · simp [DropPc.step, World.fetchOr, loaded]
        · simp [DropPc.step, active, free, wake, loaded, Outcome.elim, DropPc.fetches]
    | close =>
        have kept := closes rfl
        simp [wake, free] at kept
    | takeWaker | clearOwn | unlock => simp [dropHolds rfl] at free
    | clearValue | clearWaker | wake | clearLast =>
        have shut := ended rfl
        simp [World.shut, live, isOpen] at shut

/-- The side that is to fetch the waker has the lock. -/
theorem Receiver.fetches_holds {r : Receiver T W} (points : r.Local) (fetches : r.fetches = true) :
    r.sections.takingLocked = true ∨ r.sections.dropHolds = true := by
  cases r with
  | reading call pc =>
      cases pc with
      | take prev => exact .inl (Bool.and_eq_true_iff.mp fetches).1
      | takeFlush prev value =>
          left
          simp [sections, ReadPc.sections, points.2.2.1]
      | _ => cases fetches
  | dropping next pc => cases pc <;> first | exact .inr rfl | cases fetches
  | _ => cases fetches

theorem World.Echoes.receiver_step {r r' : Receiver T W} (locks : Locks m S r.sections)
    (apart : Apart m S r.sections) (points : r.Local)
    (ended : ∀ next pc, r = .dropping next pc → pc.ended = true → m.shut = true)
    (closes : ∀ next, r = .dropping next .close → (m.state.wake && !m.state.wlock) = false)
    (echoes : m.Echoes waker r.carries r.fetches) (step : r.Stepped kind spurious m m' r') :
    m'.Echoes waker r'.carries r'.fetches := by
  have never {carries : Option W} : none = some waker → carries = some waker := by
    rintro ⟨⟩
  have none {fetches : Bool} : false = true → fetches = true := by
    rintro ⟨⟩
  induction step with
  | read inner =>
      have kept := echoes.read_step spurious locks points
      rw [inner] at kept
      exact kept
  | @readEnd call pc result after inner =>
      have kept := echoes.read_step spurious locks points
      rw [inner] at kept
      have word : after.SameWord (Receiver.finishRead kind after call result).1 :=
        Receiver.finishRead_follows.1
      refine kept.keep ?_ ?_ word never none
      · exact (Receiver.finishRead_noted kind after call result).sender_polls.2
      · exact (Receiver.finishRead_noted kind after call result).waker
  | unpark => exact echoes.keep rfl rfl ⟨rfl, rfl, rfl⟩ never none
  | @drop next pc _ _ inner =>
      have kept := echoes.drop_step locks apart (ended _ pc rfl)
        (fun isClose => closes next (by rw [isClose]))
      rw [inner] at kept
      exact kept
  | @dropEnd next pc last _ inner =>
      have kept := echoes.drop_step locks apart (ended _ pc rfl)
        (fun isClose => closes next (by rw [isClose]))
      rw [inner] at kept
      exact kept.keep rfl rfl ⟨rfl, rfl, rfl⟩ never none
  | free => exact echoes.keep rfl rfl ⟨rfl, rfl, rfl⟩ never none

/-! ## The sending side moves -/

/-- A `write` is refused where a flush waits with its value. -/
theorem World.Echoes.write_step (finalize spurious : Bool) {last : Bool} {pc : WritePc T W}
    (locks : Locks m (pc.sections last) R)
    (holds : fetches = true → R.takingLocked = true ∨ R.dropHolds = true)
    (echoes : m.Echoes waker carries fetches) :
    (pc.step finalize spurious m).1.Echoes waker carries fetches := by
  have writeHolds := locks.writeHolds
  have unpublished := locks.unpublished
  have closed := locks.sender_closed
  rcases echoes with woken | carried | ⟨stored, wake, loaded, live, isOpen, place⟩
  · exact .inl ((pc.step_wakes ..).mem_flush woken)
  · exact .inr (.inl carried)
  · have active : m.state.active = true := by
      rw [locks.active_eq, live, isOpen]
      rfl
    cases pc with
    | load | wake => exact .inr (.inr ⟨stored, wake, loaded, live, isOpen, place⟩)
    | sync | takeBack =>
        have inactive := closed rfl
        simp [active] at inactive
    | store | fast | lock => simp [unpublished rfl] at loaded
    | takeReader | storeWaker | release | clearWaker | unlockRead | unlock =>
        obtain ⟨wlock, -, -, drops, takes⟩ := writeHolds rfl
        rcases place with fetched | ⟨free, -⟩
        · rcases holds fetched with isTaking | isDrop
          · simp [takes] at isTaking
          · simp [drops] at isDrop
        · simp [wlock] at free

/-! ## A flush is polled -/

/-- The poll of a flush that writes its value has its waker among its locals,
or in the cell; once it wakes, it wakes its own or waits already. -/
def WritePc.Polls (own : W) (m : World T W) (carries : Option W) (fetches : Bool) :
    WritePc T W → Prop
  | load _ waker | store _ _ waker | lock waker => waker = some own
  | takeReader prev waker => waker = some own ∧ prev.active = true
  | storeWaker prev waker _ => waker = own ∧ prev.active = true
  | release prev waker _ =>
      waker = own ∧ prev.active = true ∧ (m.state.active = true → m.waker = some own)
  | clearWaker _ waker | unlockRead waker => waker = own
  | wake waker => waker = own ∨ m.Echoes own carries fetches
  | fast _ | unlock _ => False
  | sync _ | takeBack => True

theorem WritePc.Polls.step (finalize spurious : Bool) {last : Bool} {pc : WritePc T W}
    (locks : Locks m (pc.sections last) R) (points : pc.Local true)
    (finds : ∀ waker, pc = .lock (some waker) → m.state.wlock = false → m.state.active = true)
    (polls : pc.Polls own m carries fetches) :
    (pc.step finalize spurious m).2.elim
      (WritePc.Polls own (pc.step finalize spurious m).1 carries fetches) fun result =>
        result = .ok → (pc.step finalize spurious m).1.Echoes own carries fetches := by
  cases pc with
  | load value waker =>
      obtain rfl : waker = some own := polls
      simp only [WritePc.step]
      split_ifs <;> first | trivial | rfl | (rintro ⟨⟩)
  | sync value => rintro ⟨⟩
  | store state value waker =>
      obtain rfl : waker = some own := polls
      rfl
  | lock waker =>
      obtain rfl : waker = some own := polls
      simp only [WritePc.step, WritePc.locked, WritePc.finish]
      split_ifs with free
      · exact ⟨rfl, finds own rfl (by simpa using free)⟩
      · exact ⟨rfl, finds own rfl (by simpa using free)⟩
      · exact .inl rfl
  | takeReader prev waker =>
      obtain ⟨rfl, active⟩ := polls
      exact ⟨rfl, active⟩
  | storeWaker prev waker readWaker =>
      obtain ⟨rfl, active⟩ := polls
      exact ⟨rfl, active, fun _ => rfl⟩
  | release prev waker readWaker =>
      obtain ⟨rfl, active, stored⟩ := polls
      obtain ⟨wlock, rlock, -⟩ := points
      by_cases exchanged : m.state = prev.set { loaded := true, wlock := true, wake := true }
      · have isActive : m.state.active = true := by
          rw [exchanged]
          simp [active]
        have isOpen := locks.active_eq
        rw [isActive] at isOpen
        simp only [Bool.true_eq, Bool.not_eq_true', Bool.or_eq_false_iff] at isOpen
        have echoes : (m.store (prev.set { loaded := true, wake := true })).Echoes waker carries
            fetches := by
          refine .inr (.inr ⟨stored isActive, ?_, ?_, isOpen.1, isOpen.2, .inr ⟨?_, ?_⟩⟩) <;>
            simp [World.store, wlock, rlock]
        simp only [WritePc.step, if_pos exchanged]
        cases readWaker with
        | none => exact fun _ => echoes
        | some readWaker => exact .inr echoes
      · simp only [WritePc.step, if_neg exchanged]
        rfl
  | clearWaker found waker =>
      obtain rfl : waker = own := polls
      simp only [WritePc.step]
      split_ifs <;> first | trivial | rfl | (rintro ⟨⟩)
  | unlockRead waker => exact .inl polls
  | takeBack => rintro ⟨⟩
  | wake waker =>
      intro _
      rcases polls with rfl | echoes
      · exact .inl (List.mem_cons_self ..)
      · rcases echoes with woken | carried | inCell
        · exact .inl (List.mem_cons_of_mem _ woken)
        · exact .inr (.inl carried)
        · exact .inr (.inr inCell)
  | fast | unlock => exact polls.elim

/-- A later poll of a flush has its waker among its locals, or in the cell; it
has not joined another holder of the lock. -/
def FlushPc.Polls (own : W) (m : World T W) : FlushPc W → Prop
  | load waker | wake waker | clearOwn waker | unlock waker | lock _ waker => waker = own
  | clearPrev prev waker | storeWaker prev waker => waker = own ∧ prev.wlock = false
  | release prev waker =>
      waker = own ∧ prev.wlock = false ∧ (m.state.active = true → m.waker = some own)
  | _ => True

theorem FlushPc.loop_polls (finalize : Bool) {prev : State} {locked : Bool}
    (free : locked = true → prev.wlock = false) :
    (FlushPc.loop finalize prev locked own).Polls own m := by
  cases locked with
  | true =>
      have wlock := free rfl
      simp only [FlushPc.loop]
      split_ifs <;> trivial
  | false =>
      simp only [FlushPc.loop]
      split_ifs <;> trivial

theorem FlushPc.Polls.step (carries : Option W) (fetches spurious : Bool) {finalize : Bool}
    {pc : FlushPc W} (locks : Locks m (pc.sections finalize) R) (points : pc.Local finalize)
    (takes : ∀ prev waker, pc = .lock prev waker → m.state = prev → spurious = false →
      prev.wlock = false)
    (polls : pc.Polls own m) :
    (pc.step finalize spurious m).2.elim (FlushPc.Polls own (pc.step finalize spurious m).1)
      fun result => result = .pending →
        (pc.step finalize spurious m).1.Echoes own carries fetches := by
  have looks {m : World T W} (prev : State) :
      (FlushPc.loop finalize prev false own).Polls own m :=
    FlushPc.loop_polls finalize (by rintro ⟨⟩)
  cases pc with
  | load waker =>
      obtain rfl : waker = own := polls
      exact looks _
  | clearLocked | resetLocked => exact points.elim
  | finish => cases finalize <;> rintro ⟨⟩
  | reset => trivial
  | takeBack => rintro ⟨⟩
  | wake waker =>
      intro _
      obtain rfl : waker = own := polls
      exact .inl (List.mem_cons_self ..)
  | clearPrev prev waker => exact polls
  | storeWaker prev waker =>
      obtain ⟨rfl, wlock⟩ := polls
      exact ⟨rfl, wlock, fun _ => rfl⟩
  | release prev waker =>
      obtain ⟨rfl, wlock, stored⟩ := polls
      obtain ⟨active, loaded, rlock⟩ := points
      by_cases exchanged : m.state = prev.set { wlock := true, wake := true } ∧ !spurious
      · have isActive : m.state.active = true := by
          rw [exchanged.1]
          simp [active]
        have isOpen := locks.active_eq
        rw [isActive] at isOpen
        simp only [Bool.true_eq, Bool.not_eq_true', Bool.or_eq_false_iff] at isOpen
        simp only [FlushPc.step, if_pos exchanged]
        intro _
        refine .inr (.inr ⟨stored isActive, ?_, ?_, isOpen.1, isOpen.2, .inr ⟨?_, ?_⟩⟩) <;>
          simp [World.store, wlock, rlock, loaded]
      · simp only [FlushPc.step, if_neg exchanged]
        rfl
  | clearOwn waker => exact polls
  | unlock waker =>
      obtain rfl : waker = own := polls
      exact looks _
  | lock prev waker =>
      obtain rfl : waker = own := polls
      simp only [FlushPc.step]
      split_ifs with exchanged
      · exact FlushPc.loop_polls finalize fun _ =>
          takes prev waker rfl exchanged.1 (by simpa using exchanged.2)
      · rfl
      · exact looks _

/-! ## The two sides -/

namespace Sender

/-- A poll in progress will leave its waker where the receiving side finds it. -/
def Polls (m : World T W) (carries : Option W) (fetches : Bool) : Sender T W → Prop
  | flushWriting _ own pc => pc.Polls own m carries fetches
  | flushing _ own pc => pc.Polls own m
  | _ => True

/-- A sending side that is neither polled nor dropped. -/
def awaits : Sender T W → Bool
  | idle _ | trySending _ | freeing _ => true
  | _ => false

end Sender

/-- The waker of the flush is on its way while the sending side has not been
dropped. -/
def Echoed (m : World T W) (s : Sender T W) (r : Receiver T W) : Prop :=
  ∀ own, m.senderPoll = some own → s.awaits = true ∧ m.Echoes own r.carries r.fetches

theorem Echoed.idle {s : Sender T W} {r : Receiver T W} (echoed : Echoed m s r)
    (busy : s.awaits = false) : m.senderPoll = none := by
  cases isPoll : m.senderPoll with
  | none => rfl
  | some own =>
      have awaits := (echoed own isPoll).1
      rw [busy] at awaits
      cases awaits

theorem Echoed.of_none {s : Sender T W} {r : Receiver T W} (nothing : m.senderPoll = none) :
    Echoed m s r := by
  intro own waits
  rw [nothing] at waits
  cases waits

theorem Echoed.sender_step {s s' : Sender T W} {r : Receiver T W}
    (locks : Locks m (s.sections kind) r.sections) (points : s.Local kind) (receiver : r.Local)
    (finds : ∀ owner poll own, s = .flushWriting owner poll (.lock (some own)) →
      m.state.wlock = false → m.state.active = true)
    (takes : ∀ owner poll prev own, s = .flushing owner poll (.lock prev own) →
      m.state = prev → spurious = false → prev.wlock = false)
    (polls : s.Polls m r.carries r.fetches) (echoed : Echoed m s r)
    (step : s.Stepped kind spurious m m' s') :
    s'.Polls m' r.carries r.fetches ∧ Echoed m' s' r := by
  have same : (s.access kind spurious m).senderPoll = m.senderPoll := s.access_calls.senderPoll
  have holds := Receiver.fetches_holds receiver
  induction step with
  | @trySend pc next after inner =>
      simp only [Sender.access, inner] at same
      refine ⟨trivial, fun own waits => ⟨rfl, ?_⟩⟩
      have kept := (echoed own (same.symm.trans waits)).2.write_step kind.finalize spurious
        locks holds
      rw [inner] at kept
      exact kept
  | @trySendEnd pc result after inner =>
      simp only [Sender.access, inner] at same
      have kept {own : W} (waits : after.senderPoll = some own) :
          after.Echoes own r.carries r.fetches := by
        have kept := (echoed own (same.symm.trans waits)).2.write_step
          kind.finalize spurious locks holds
        rw [inner] at kept
        exact kept
      rcases result with _ | ⟨value, _ | _⟩ | _ <;> cases kind <;>
        exact ⟨trivial, fun own waits => ⟨rfl, (kept waits).keep rfl rfl ⟨rfl, rfl, rfl⟩ id id⟩⟩
  | @flushWrite owner poll pc next after inner =>
      simp only [Sender.access, inner] at same
      have kept := WritePc.Polls.step kind.finalize spurious locks points.1
        (fun own isLock => finds owner poll own (by rw [isLock])) polls
      rw [inner] at kept
      exact ⟨kept, .of_none (same.trans (echoed.idle rfl))⟩
  | @flushWriteEnd owner poll pc result after inner =>
      simp only [Sender.access, inner] at same
      have kept := WritePc.Polls.step kind.finalize spurious locks points.1
        (fun own isLock => finds owner poll own (by rw [isLock])) polls
      have nothing := same.trans (echoed.idle rfl)
      rw [inner] at kept
      rcases result with _ | ⟨value, _ | _⟩ | _
      · refine ⟨trivial, ?_⟩
        rintro _ ⟨⟩
        exact ⟨rfl, (kept rfl).keep rfl rfl ⟨rfl, rfl, rfl⟩ id id⟩
      all_goals cases kind <;> exact ⟨trivial, .of_none nothing⟩
  | @flush owner poll pc next after inner =>
      simp only [Sender.access, inner] at same
      have kept := FlushPc.Polls.step r.carries r.fetches spurious locks points.1
        (fun prev own isLock => takes owner poll prev own (by rw [isLock])) polls
      rw [inner] at kept
      exact ⟨kept, .of_none (same.trans (echoed.idle rfl))⟩
  | @flushEnd owner poll pc result after inner =>
      simp only [Sender.access, inner] at same
      have kept := FlushPc.Polls.step r.carries r.fetches spurious locks points.1
        (fun prev own isLock => takes owner poll prev own (by rw [isLock])) polls
      have nothing := same.trans (echoed.idle rfl)
      rw [inner] at kept
      rcases result with _ | ⟨value, _ | _⟩ | _
      · refine ⟨trivial, ?_⟩
        rintro _ ⟨⟩
        exact ⟨rfl, (kept rfl).keep rfl rfl ⟨rfl, rfl, rfl⟩ id id⟩
      all_goals cases kind <;> exact ⟨trivial, .of_none nothing⟩
  | @drop pc next after inner =>
      simp only [Sender.access, inner] at same
      exact ⟨trivial, .of_none (same.trans (echoed.idle rfl))⟩
  | @dropEnd pc last after inner =>
      simp only [Sender.access, inner] at same
      have nothing := same.trans (echoed.idle rfl)
      cases last <;> exact ⟨trivial, .of_none nothing⟩
  | free =>
      exact ⟨trivial, fun own waits =>
        ⟨rfl, (echoed own waits).2.keep rfl rfl ⟨rfl, rfl, rfl⟩ id id⟩⟩

theorem Echoed.sender_begun {handle : SenderHandle T} {op : SendOp T W} {s' : Sender T W}
    {r : Receiver T W} (echoed : Echoed m (.idle handle) r)
    (begun : Sender.Begun kind m handle op m' s') :
    s'.Polls m' r.carries r.fetches ∧ Echoed m' s' r := by
  induction begun with
  | pollFirst => exact ⟨rfl, .of_none rfl⟩
  | poll => exact ⟨rfl, .of_none rfl⟩
  | runPanic | dropFlush | drop => exact ⟨trivial, .of_none rfl⟩
  | _ =>
      exact ⟨trivial, fun own waits =>
        ⟨rfl, (echoed own waits).2.keep rfl rfl ⟨rfl, rfl, rfl⟩ id id⟩⟩

/-- A reader spares the cell of a side that has the lock. -/
theorem ReadPc.step_spares {cancels : Bool} {pc : ReadPc T W} (spurious : Bool)
    (locks : Locks m S pc.sections) (points : pc.Local cancels)
    (holds : S.writeHolds = true ∨ S.flushHolds = true) :
    ((pc.step spurious m).1.state.active = true → m.state.active = true) ∧
      (pc.step spurious m).1.waker = m.waker := by
  have apart : pc.sections.registering = false ∧ pc.sections.takingLocked = false := by
    rcases holds with isWrite | isFlush
    · exact ⟨(locks.writeHolds isWrite).2.2.1, (locks.writeHolds isWrite).2.2.2.2⟩
    · exact ⟨(locks.flushHolds isFlush).2.1, (locks.flushHolds isFlush).2.2.1⟩
  have swaps := locks.swaps
  obtain ⟨registering, takes⟩ := apart
  cases pc with
  | clearPrev | storeWaker | release | clearOwn | unlockOwn | unlockBare => cases registering
  | takeFlush prev value => simp [ReadPc.sections, points.2.2.1] at takes
  | swap prev =>
      obtain ⟨-, rfl, inactive, -⟩ := swaps prev rfl
      refine ⟨?_, rfl⟩
      simp [ReadPc.step, World.store, inactive]
  | load | take | takeClosed | wakeFlush | wake => exact ⟨id, rfl⟩
  | unlock prev value flushWaker =>
      refine ⟨?_, rfl⟩
      simp [ReadPc.step, World.fetchAnd, ReadPc.unlockMask]
  | lock prev own orCancel =>
      simp only [ReadPc.step]
      split_ifs with exchanged
      · obtain rfl := exchanged.1
        refine ⟨?_, rfl⟩
        simp [World.store]
      · exact ⟨id, rfl⟩
  | cancel prev own =>
      simp only [ReadPc.step]
      split_ifs with exchanged
      · refine ⟨?_, rfl⟩
        simp [World.store, World.closeReceiver]
      · exact ⟨id, rfl⟩
  | register prev own orCancel =>
      simp only [ReadPc.step]
      split_ifs with exchanged
      · obtain rfl := exchanged.1
        refine ⟨?_, rfl⟩
        simp [World.store]
      · obtain rfl := exchanged.1
        refine ⟨?_, rfl⟩
        simp [World.store]
      · exact ⟨id, rfl⟩

/-- So does the receiver's drop, until it is the last. -/
theorem DropPc.step_spares {pc : DropPc W} (locks : Locks m S pc.recvSections)
    (apart : Apart m S pc.recvSections) (holds : S.writeHolds = true ∨ S.flushHolds = true)
    (active : (pc.step false m).1.state.active = true) :
    m.state.active = true ∧ (pc.step false m).1.waker = m.waker := by
  have drops : pc.holds = false := by
    rcases holds with isWrite | isFlush
    · exact (locks.writeHolds isWrite).2.2.2.1
    · exact (apart.flushes isFlush).2
  cases pc with
  | takeWaker | clearOwn | unlock => cases drops
  | clearWaker =>
      have inactive := locks.receiver_closed rfl
      have same : (DropPc.clearWaker.step false m).1.state.active = m.state.active := rfl
      rw [same, inactive] at active
      cases active
  | lock =>
      refine ⟨?_, rfl⟩
      simpa [DropPc.step, World.fetchOr] using active
  | close => simp [DropPc.step, World.fetchAnd, DropPc.closeSide, World.closeReceiver] at active
  | clearValue | wake | clearLast => exact ⟨active, rfl⟩

theorem Receiver.Stepped.spares {r r' : Receiver T W} (locks : Locks m S r.sections)
    (apart : Apart m S r.sections) (points : r.Local)
    (holds : S.writeHolds = true ∨ S.flushHolds = true) (step : r.Stepped kind spurious m m' r')
    (active : m'.state.active = true) : m.state.active = true ∧ m'.waker = m.waker := by
  induction step with
  | read inner =>
      have kept := ReadPc.step_spares spurious locks points holds
      rw [inner] at kept
      exact ⟨kept.1 active, kept.2⟩
  | @readEnd call pc result after inner =>
      have kept := ReadPc.step_spares spurious locks points holds
      rw [inner] at kept
      have word : after.SameWord (Receiver.finishRead kind after call result).1 :=
        Receiver.finishRead_follows.1
      rw [word.1] at active
      exact ⟨kept.1 active, Receiver.finishRead_waker.trans kept.2⟩
  | unpark => exact ⟨active, rfl⟩
  | @drop next pc _ _ inner =>
      have kept := DropPc.step_spares locks apart holds
      rw [inner] at kept
      exact kept active
  | @dropEnd next pc last after inner =>
      have kept := DropPc.step_spares locks apart holds
      rw [inner] at kept
      exact kept active
  | free => exact ⟨active, rfl⟩

/-- A poll in progress goes on while the receiving side moves. -/
theorem Sender.Polls.follow (kind : Kind) {s : Sender T W} {carries' : Option W} {fetches' : Bool}
    (polls : s.Polls m carries fetches)
    (leaves : (s.sections kind).writeHolds = true ∨ (s.sections kind).flushHolds = true →
      m'.state.active = true → m.state.active = true ∧ m'.waker = m.waker)
    (echoes : ∀ own, m.Echoes own carries fetches → m'.Echoes own carries' fetches') :
    s.Polls m' carries' fetches' := by
  cases s with
  | flushWriting owner poll pc =>
      cases pc with
      | release prev own readWaker =>
          obtain ⟨rfl, active, stored⟩ := polls
          refine ⟨rfl, active, ?_⟩
          intro isActive
          obtain ⟨wasActive, same⟩ := leaves (.inl rfl) isActive
          exact same.trans (stored wasActive)
      | wake own => exact polls.imp_right (echoes poll)
      | _ => exact polls
  | flushing owner poll pc =>
      cases pc with
      | release prev own =>
          obtain ⟨rfl, wlock, stored⟩ := polls
          refine ⟨rfl, wlock, ?_⟩
          intro isActive
          obtain ⟨wasActive, same⟩ := leaves (.inr rfl) isActive
          exact same.trans (stored wasActive)
      | _ => exact polls
  | _ => trivial

end Suspend.Channel
