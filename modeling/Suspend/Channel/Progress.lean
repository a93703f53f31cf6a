import Suspend.Channel.Published
import Suspend.Transition.Pace

/-!
# The operations make progress

`write` and `drop_one_side` are wait-free: they end after a bounded number of
accesses, whatever the other side does.  `flush` and `read` loop, but only as
often as the other side gets in between their accesses or an exchange fails for
no reason.
-/

namespace Suspend.Channel

open Suspend.Transition

universe u v

variable {T : Type u} {W : Type v} {m m' : World T W} {kind : Kind} {spurious : Bool}

/-! ## `write` and `drop_one_side` -/

/-- A bound on the accesses that are left, the free of the channel included. -/
def WritePc.remaining : WritePc T W → Nat
  | load .. => 10
  | store .. => 9
  | fast _ => 8
  | lock _ => 7
  | takeReader .. => 6
  | storeWaker .. => 5
  | release .. => 4
  | clearWaker .. | unlock _ => 3
  | sync _ | takeBack | unlockRead _ => 2
  | wake _ => 1

def DropPc.remaining : DropPc W → Nat
  | lock => 6
  | takeWaker | clearOwn => 5
  | unlock _ => 4
  | clearValue _ | wake .. | close => 3
  | clearWaker | clearLast => 2

/-- Each access of a write brings its end closer; one that frees the channel
comes after an access that could be followed by two. -/
theorem WritePc.step_remaining (finalize spurious : Bool) (pc : WritePc T W) :
    (pc.step finalize spurious m).2.elim (fun next => next.remaining + 1 ≤ pc.remaining)
      fun result => (∃ value dropped, result = .err value dropped) → 2 ≤ pc.remaining := by
  cases pc <;> simp only [step, locked, finish] <;>
    grind -linarith -ring -order [WritePc.remaining, Outcome.elim]

theorem DropPc.step_remaining (isWriter : Bool) (pc : DropPc W) :
    (pc.step isWriter m).2.elim (fun next => next.remaining + 1 ≤ pc.remaining)
      fun last => last = true → 2 ≤ pc.remaining := by
  cases pc <;> simp only [step, finish] <;>
    grind -linarith -ring -order [DropPc.remaining, Outcome.elim]

/-! ## `flush` -/

/-- The state word is as the exchange to come expects it. -/
def FlushPc.fits (state : State) : FlushPc W → Bool
  | lock prev _ => state = prev
  | clearPrev prev _ | storeWaker prev _ | release prev _ =>
      state = prev.set { wlock := true, wake := true }
  | _ => true

/-- A `compare_exchange_weak`. -/
def FlushPc.weak : FlushPc W → Bool
  | lock .. | release .. => true
  | _ => false

/-- The accesses left if nobody gets in between. -/
def FlushPc.alone : FlushPc W → Nat
  | clearOwn _ => 6
  | load _ | unlock _ => 5
  | lock .. => 4
  | clearPrev .. | reset | clearLocked _ => 3
  | storeWaker .. | resetLocked _ | finish | takeBack => 2
  | release .. | wake _ => 1

/-- A round of the loop that has been spoiled is gone through again. -/
def FlushPc.remaining (m : World T W) (pc : FlushPc W) : Nat :=
  pc.alone + if pc.fits m.state then 0 else 6

theorem FlushPc.loop_remaining (finalize : Bool) (waker : W) :
    (FlushPc.loop finalize m.state false waker).remaining m ≤ 4 := by
  simp only [loop]
  split_ifs <;> simp_all [remaining, alone, fits]

/-- Somebody else's access spoils at most the round in progress. -/
theorem FlushPc.remaining_le (pc : FlushPc W) : pc.remaining m' ≤ pc.remaining m + 6 := by
  unfold remaining
  split <;> omega

theorem FlushPc.step_remaining (finalize spurious : Bool) (pc : FlushPc W)
    (points : pc.Local finalize) :
    (pc.step finalize spurious m).2.elim
      (fun next => next.remaining (pc.step finalize spurious m).1 + 1 ≤
        pc.remaining m + 6 * (spurious && pc.weak).toNat)
      fun result => result ≠ .pending → 2 ≤ pc.remaining m := by
  have looks (m : World T W) (waker : W) :
      (FlushPc.loop finalize m.state false waker).remaining m + 1 ≤ 5 :=
    Nat.succ_le_succ (loop_remaining finalize waker)
  cases pc with
  | load waker => exact Nat.le_trans (looks m.access waker) (Nat.le_add_right _ _)
  | clearLocked prev | resetLocked prev => exact points.elim
  | finish | reset | takeBack | wake waker | clearOwn waker =>
      simp [step, Outcome.elim, remaining, alone, fits]
  | clearPrev prev waker | storeWaker prev waker =>
      simp only [step, Outcome.elim, remaining, alone, fits, World.loadWaker, World.storeWaker,
        World.access]
      grind -linarith -ring -order -ac
  | release prev waker =>
      by_cases exchanged : m.state = prev.set { wlock := true, wake := true } ∧ !spurious
      · simp only [step, if_pos exchanged, Outcome.elim]
        exact fun finished => absurd rfl finished
      · simp only [step, if_neg exchanged, Outcome.elim, remaining, alone, fits, weak]
        grind -linarith -ring -order -ac
  | unlock waker =>
      have again := looks (m.fetchAnd { wlock := true, wake := true }) waker
      exact Nat.le_trans again (Nat.le_add_right _ _)
  | lock prev waker =>
      obtain ⟨active, loaded, unread⟩ := points
      by_cases exchanged : m.state = prev ∧ !spurious
      · have locked : FlushPc.loop finalize prev true waker =
            if prev.wake then clearPrev prev waker else storeWaker prev waker := by
          simp [loop, active, loaded, unread]
        simp only [step, if_pos exchanged, Outcome.elim, locked]
        cases prev.wake <;> simp [remaining, alone, fits, World.store] <;> omega
      · -- the exchange has failed over another state, or for no reason
        have missed : 5 ≤ (lock prev waker).remaining m +
            6 * (spurious && (lock prev waker).weak).toNat := by
          simp only [remaining, alone, fits, weak]
          grind -linarith -ring -order -ac
        simp only [step, if_neg exchanged]
        split
        · simp only [Outcome.elim, remaining, alone, fits] at missed ⊢
          grind -linarith -ring -order -ac
        · exact Nat.le_trans (looks m.access waker) missed

/-! ## `read` -/

/-- The state word is as the exchange to come expects it, or as a read without a
waker can return from. -/
def ReadPc.fits (state : State) : ReadPc T W → Bool
  | lock prev _ _ | cancel prev _ | register prev _ _ => state = prev
  | clearPrev prev _ _ | storeWaker prev _ _ | release prev _ _ =>
      state = prev.set { rlock := true, wlock := true, wake := true }
  | unlockBare _ => !state.loaded && state.active
  | _ => true

/-- A `compare_exchange_weak`. -/
def ReadPc.weak : ReadPc T W → Bool
  | lock .. | register .. => true
  | _ => false

/-- The accesses left if nobody gets in between. -/
def ReadPc.alone : ReadPc T W → Nat
  | clearOwn _ => 8
  | load .. | unlockOwn _ => 7
  | lock .. => 6
  | take _ | register .. => 5
  | takeFlush .. | clearPrev .. => 4
  | unlock .. | swap _ | storeWaker .. => 3
  | wakeFlush .. | takeClosed | cancel .. | release .. | unlockBare _ => 2
  | wake _ => 1

/-- A round of the loop that has been spoiled is gone through again. -/
def ReadPc.remaining (m : World T W) (pc : ReadPc T W) : Nat :=
  pc.alone + if pc.fits m.state then 0 else 7

theorem ReadPc.loop_remaining (waker : Option W) (orCancel : Bool) :
    (ReadPc.loop (T := T) m.state waker orCancel).elim (fun next => next.remaining m ≤ 6)
      fun _ => True := by
  simp only [loop]
  split_ifs <;> (try cases waker) <;> simp_all [Outcome.elim, remaining, alone, fits]

/-- Somebody else's access spoils at most the round in progress. -/
theorem ReadPc.remaining_le (pc : ReadPc T W) : pc.remaining m' ≤ pc.remaining m + 7 := by
  unfold remaining
  split <;> omega

theorem ReadPc.step_remaining {cancels : Bool} (spurious : Bool) (pc : ReadPc T W)
    (points : pc.Local cancels) :
    (pc.step spurious m).2.elim
      (fun next => next.remaining (pc.step spurious m).1 + 1 ≤
        pc.remaining m + 7 * (spurious && pc.weak).toNat)
      fun result => result ≠ .pending → 2 ≤ pc.remaining m := by
  have looks {left right : Nat} (m : World T W) (waker : Option W) (orCancel : Bool)
      (enough : 7 ≤ left) (more : 2 ≤ right) :
      (ReadPc.loop (T := T) m.state waker orCancel).elim (fun next => next.remaining m + 1 ≤ left)
        fun result => result ≠ .pending → 2 ≤ right := by
    have ahead := loop_remaining (T := T) (m := m) waker orCancel
    cases looked : ReadPc.loop (T := T) m.state waker orCancel with
    | goto next =>
        rw [looked] at ahead
        exact Nat.le_trans (Nat.succ_le_succ ahead) enough
    | ret result => exact fun _ => more
  cases pc with
  | load waker orCancel =>
      exact looks m.access waker orCancel (Nat.le_add_right _ _) (by simp [remaining, alone, fits])
  | unlockOwn orCancel =>
      exact looks (m.fetchAnd { rlock := true, wlock := true, wake := true }) none orCancel
        (Nat.le_add_right _ _) (by simp [remaining, alone, fits])
  | swap prev | takeClosed | take prev | takeFlush prev value | wakeFlush waker value dropped
  | wake waker | clearOwn orCancel =>
      simp only [step]
      grind -linarith -ring -order -ac [Outcome.elim, remaining, alone, fits]
  | unlock prev value flushWaker =>
      cases flushWaker <;> simp [step, Outcome.elim, remaining, alone, fits]
  | lock prev waker orCancel =>
      by_cases exchanged : m.state = prev ∧ !spurious
      · simp only [step, if_pos exchanged, Outcome.elim, remaining, alone, fits]
        grind -linarith -ring -order -ac
      · simp only [step, if_neg exchanged]
        apply looks m.access waker orCancel
        · simp only [remaining, alone, fits, weak]
          grind -linarith -ring -order -ac
        · simp [remaining, alone]
          omega
  | cancel prev waker =>
      by_cases exchanged : m.state = prev
      · simp only [step, if_pos exchanged, Outcome.elim, remaining, alone]
        omega
      · simp only [step, if_neg exchanged]
        apply looks m.access waker true
        · simp only [remaining, alone, fits]
          grind -linarith -ring -order -ac
        · simp [remaining, alone]
  | register prev waker orCancel =>
      obtain ⟨active, unloaded, _⟩ := points
      by_cases exchanged : m.state = prev ∧ !spurious
      · simp only [step, if_pos exchanged]
        cases waker <;> cases isWake : prev.wake <;>
          simp [Outcome.elim, registered, remaining, alone, fits, World.store, active, unloaded] <;>
          omega
      · simp only [step, if_neg exchanged]
        apply looks m.access waker orCancel
        · simp only [remaining, alone, fits, weak]
          grind -linarith -ring -order -ac
        · simp [remaining, alone]
          omega
  | clearPrev prev waker orCancel =>
      obtain ⟨active, unloaded, _⟩ := points
      have open_of_fits : m.state = prev.set { rlock := true, wlock := true, wake := true } →
          m.state.loaded = false ∧ m.state.active = true := by
        intro same
        simp [same, active, unloaded]
      cases waker <;>
        simp only [step, registered, Outcome.elim, remaining, alone, fits, World.loadWaker,
          World.access] <;>
        grind -linarith -ring -order -ac
  | storeWaker prev waker orCancel =>
      simp only [step, Outcome.elim, remaining, alone, fits, World.storeWaker, World.access]
      grind -linarith -ring -order -ac
  | release prev waker orCancel =>
      by_cases exchanged : m.state = prev.set { rlock := true, wlock := true, wake := true }
      · simp only [step, if_pos exchanged, Outcome.elim]
        exact fun finished => absurd rfl finished
      · simp only [step, if_neg exchanged, Outcome.elim, remaining, alone, fits]
        grind -linarith -ring -order -ac
  | unlockBare orCancel =>
      by_cases rests : m.state.loaded = false ∧ m.state.active = true
      · simp [step, rests.1, rests.2, Outcome.elim, remaining, alone, fits]
      · have spoiled : 9 ≤ (unlockBare (T := T) (W := W) orCancel).remaining m := by
          simp only [remaining, alone, fits]
          grind -linarith -ring -order -ac
        simp only [step, State.unset_loaded, State.unset_active, Bool.not_false, Bool.and_true]
        split
        · exact fun _ => by omega
        · exact looks (m.fetchAnd { rlock := true, wlock := true, wake := true }) none orCancel
            (by omega) (by omega)

/-! ## The two sides -/

namespace Sender

/-- A bound on the accesses that the operation in progress has left. -/
def remaining (m : World T W) : Sender T W → Nat
  | idle _ => 0
  | trySending pc | flushWriting _ _ pc => pc.remaining
  | flushing _ _ pc => pc.remaining m
  | dropping pc => pc.remaining
  | freeing _ => 1

/-- An operation is about to make its first access. -/
def fresh : Sender T W → Bool
  | trySending (.load ..) | flushWriting _ _ (.load ..) | flushing _ _ (.load _)
  | dropping .lock => true
  | _ => false

/-- The operation in progress is one that loops. -/
def loops : Sender T W → Bool
  | flushing .. => true
  | _ => false

/-- An exchange of the operation in progress that may fail for no reason. -/
def weak : Sender T W → Bool
  | flushing _ _ pc => pc.weak
  | _ => false

end Sender

namespace Receiver

def remaining (m : World T W) : Receiver T W → Nat
  | idle _ | parked _ => 0
  | reading _ pc => pc.remaining m
  | dropping _ pc => pc.remaining
  | freeing _ => 1

def fresh : Receiver T W → Bool
  | reading _ (.load ..) | dropping _ .lock => true
  | _ => false

def loops : Receiver T W → Bool
  | reading .. => true
  | _ => false

def weak : Receiver T W → Bool
  | reading _ pc => pc.weak
  | _ => false

end Receiver

/-- The accesses of the sending side.  What is charged are the other side's
accesses during a `flush`, and the exchanges of it that fail for no reason. -/
def Sender.pacing : Pacing (System T W) (Label T W) where
  own
    | _, .sender _ => true
    | _, _ => false
  fresh s := s.sender.fresh
  charges
    | s, .sender spurious => spurious && s.sender.weak
    | s, .receiver _ => s.sender.loops
    | _, _ => false

/-- The accesses of the receiving side, with the same charged during a `read`. -/
def Receiver.pacing : Pacing (System T W) (Label T W) where
  own
    | _, .receiver _ => true
    | _, _ => false
  fresh s := s.receiver.fresh
  charges
    | s, .receiver spurious => spurious && s.receiver.weak
    | s, .sender _ => s.receiver.loops
    | _, _ => false

theorem Sender.remaining_fresh {s : Sender T W} (isFresh : s.fresh = true) :
    s.remaining m ≤ 10 := by
  cases s with
  | trySending pc | flushWriting _ _ pc =>
      cases pc with
      | load => exact Nat.le_refl _
      | _ => cases isFresh
  | flushing _ _ pc =>
      cases pc with
      | load => simp [remaining, FlushPc.remaining, FlushPc.alone, FlushPc.fits]
      | _ => cases isFresh
  | dropping pc =>
      cases pc with
      | lock => simp [remaining, DropPc.remaining]
      | _ => cases isFresh
  | idle | freeing => cases isFresh

theorem Receiver.remaining_fresh {r : Receiver T W} (isFresh : r.fresh = true) :
    r.remaining m ≤ 7 := by
  cases r with
  | reading _ pc =>
      cases pc with
      | load => simp [remaining, ReadPc.remaining, ReadPc.alone, ReadPc.fits]
      | _ => cases isFresh
  | dropping _ pc =>
      cases pc with
      | lock => simp [remaining, DropPc.remaining]
      | _ => cases isFresh
  | idle | parked | freeing => cases isFresh

theorem Sender.begun_remaining {handle : SenderHandle T} {op : SendOp T W} {s' : Sender T W}
    (begun : Begun kind m handle op m' s') (started : s'.fresh = false) : s'.remaining m' = 0 := by
  induction begun <;> first | rfl | cases started

theorem Receiver.Begun.state {handle : ReceiverHandle} {op : RecvOp W} {r' : Receiver T W}
    (begun : Begun kind m handle op m' r') : m'.state = m.state := by
  induction begun <;> rfl

theorem Receiver.begun_remaining {handle : ReceiverHandle} {op : RecvOp W} {r' : Receiver T W}
    (begun : Begun kind m handle op m' r') (started : r'.fresh = false) : r'.remaining m' = 0 := by
  induction begun <;> first | rfl | cases started

theorem WritePc.remaining_pos (pc : WritePc T W) : 1 ≤ pc.remaining := by
  cases pc <;> simp [remaining]

theorem FlushPc.remaining_pos (pc : FlushPc W) : 1 ≤ pc.remaining m := by
  cases pc <;> simp [remaining, alone] <;> omega

theorem DropPc.remaining_pos (pc : DropPc W) : 1 ≤ pc.remaining := by
  cases pc <;> simp [remaining]

theorem ReadPc.remaining_pos (pc : ReadPc T W) : 1 ≤ pc.remaining m := by
  cases pc <;> simp [remaining, alone] <;> omega

/-- Only a call that has been refused may have the channel to free. -/
theorem Sender.finishTrySend_remaining (result : WriteResult T) :
    (finishTrySend kind m result).2.remaining m' = 0 ∨
      (finishTrySend kind m result).2.remaining m' = 1 ∧
        ∃ value dropped, result = .err value dropped := by
  cases result with
  | ok | panic => exact .inl rfl
  | err value dropped =>
      cases kind with
      | channel =>
          cases dropped with
          | false => exact .inl rfl
          | true => exact .inr ⟨rfl, _, _, rfl⟩
      | sendOnce | taskFn => exact .inr ⟨rfl, _, _, rfl⟩

theorem Sender.finishFlushWrite_remaining (owner : Bool) (waker : W) (result : WriteResult T) :
    (finishFlushWrite kind owner waker m result).2.remaining m' = 0 ∨
      (finishFlushWrite kind owner waker m result).2.remaining m' = 1 ∧
        ∃ value dropped, result = .err value dropped := by
  cases result with
  | ok | panic => exact .inl rfl
  | err value dropped =>
      simp only [finishFlushWrite]
      split_ifs
      · exact .inr ⟨rfl, _, _, rfl⟩
      · exact .inl rfl

theorem Sender.finishFlush_remaining (owner : Bool) (waker : W) (result : PollResult T) :
    (finishFlush kind owner waker m result).2.remaining m' = 0 ∨
      (finishFlush kind owner waker m result).2.remaining m' = 1 ∧ result ≠ .pending := by
  cases result with
  | pending | panic => exact .inl rfl
  | ready value dropped =>
      simp only [finishFlush]
      split_ifs
      · exact .inr ⟨rfl, by simp⟩
      · exact .inl rfl

/-- A receiving call that goes on begins another operation. -/
theorem Receiver.Left.remaining {call : ReceiveCall W} {result : PollResult T}
    {r : Receiver T W} (left : Left kind m call result m' r) (started : r.fresh = false) :
    r.remaining m' = 0 ∨ r.remaining m' = 1 ∧ result ≠ .pending := by
  induction left with
  | idle | parked => exact .inl rfl
  | freeing finished closed => exact .inr ⟨rfl, by simp [closed]⟩
  | reading | dropping => cases started

/-- The last access of an operation, before the channel is freed or not. -/
theorem ends_within {left before : Nat} {frees : Prop} (charged : Nat)
    (ended : left = 0 ∨ left = 1 ∧ frees) (enough : frees → 2 ≤ before) (some : 1 ≤ before) :
    left + 1 ≤ before + charged := by
  rcases ended with rfl | ⟨rfl, freed⟩
  · omega
  · have two := enough freed
    omega

/-- Each access of the sending side brings the end of its operation closer, or is
charged. -/
theorem Sender.stepped_remaining {s s' : Sender T W} (points : s.Local kind)
    (step : s.Stepped kind spurious m m' s') :
    s'.remaining m' + 1 ≤ s.remaining m + 6 * (spurious && s.weak).toNat := by
  induction step with
  | @trySend pc _ _ inner | @flushWrite _ _ pc _ _ inner =>
      have paid := pc.step_remaining (m := m) kind.finalize spurious
      rw [inner] at paid
      exact Nat.le_add_right_of_le paid
  | @trySendEnd pc result _ inner =>
      have paid := pc.step_remaining (m := m) kind.finalize spurious
      rw [inner] at paid
      exact ends_within _ (finishTrySend_remaining result) paid pc.remaining_pos
  | @flushWriteEnd owner waker pc result _ inner =>
      have paid := pc.step_remaining (m := m) kind.finalize spurious
      rw [inner] at paid
      exact ends_within _ (finishFlushWrite_remaining owner waker result) paid pc.remaining_pos
  | @flush _ _ pc _ _ inner =>
      have paid := pc.step_remaining (T := T) (m := m) kind.finalize spurious points.1
      rw [inner] at paid
      exact paid
  | @flushEnd owner waker pc result _ inner =>
      have paid := pc.step_remaining (T := T) (m := m) kind.finalize spurious points.1
      rw [inner] at paid
      exact ends_within _ (finishFlush_remaining owner waker result) paid pc.remaining_pos
  | @drop pc _ _ inner =>
      have paid := pc.step_remaining (m := m) true
      rw [inner] at paid
      exact Nat.le_add_right_of_le paid
  | @dropEnd pc last _ inner =>
      have paid := pc.step_remaining (m := m) true
      rw [inner] at paid
      refine ends_within _ ?_ paid pc.remaining_pos
      cases last <;> simp [finishDrop, remaining]
  | free => exact Nat.le_add_right_of_le (Nat.le_refl 1)

/-- So does each of the receiving side, until it begins another one. -/
theorem Receiver.stepped_remaining {r r' : Receiver T W} (points : r.Local)
    (step : r.Stepped kind spurious m m' r') (started : r'.fresh = false) :
    r'.remaining m' + 1 ≤ r.remaining m + 7 * (spurious && r.weak).toNat := by
  induction step with
  | @read call pc _ _ inner =>
      have paid := pc.step_remaining (m := m) spurious points
      rw [inner] at paid
      exact paid
  | @readEnd call pc result _ inner =>
      have paid := pc.step_remaining (m := m) spurious points
      rw [inner] at paid
      have ended := (finishRead_left kind _ call result).remaining started
      exact ends_within _ ended paid pc.remaining_pos
  | unpark isParked => cases started
  | @drop _ pc _ _ inner =>
      have paid := pc.step_remaining (m := m) false
      rw [inner] at paid
      exact Nat.le_add_right_of_le paid
  | @dropEnd _ pc last _ inner =>
      have paid := pc.step_remaining (m := m) false
      rw [inner] at paid
      refine ends_within _ ?_ paid pc.remaining_pos
      cases last <;> simp [finishDrop, remaining]
  | free => exact Nat.le_add_right_of_le (Nat.le_refl 1)

/-- A step of the other side spoils at most one round of a loop. -/
theorem Sender.remaining_le (s : Sender T W) :
    s.remaining m' ≤ s.remaining m + 6 * s.loops.toNat := by
  cases s with
  | flushing _ _ pc => exact pc.remaining_le
  | _ => exact Nat.le_refl _

theorem Receiver.remaining_le (r : Receiver T W) :
    r.remaining m' ≤ r.remaining m + 7 * r.loops.toNat := by
  cases r with
  | reading _ pc => exact pc.remaining_le
  | _ => exact Nat.le_refl _

theorem Sender.remaining_eq (s : Sender T W) (same : m'.state = m.state) :
    s.remaining m' = s.remaining m := by
  cases s with
  | flushing _ _ pc => simp only [remaining, FlushPc.remaining, same]
  | _ => rfl

theorem Receiver.remaining_eq (r : Receiver T W) (same : m'.state = m.state) :
    r.remaining m' = r.remaining m := by
  cases r with
  | reading _ pc => simp only [remaining, ReadPc.remaining, same]
  | _ => rfl

theorem Sender.pays : (Sender.pacing : Pacing (System T W) (Label T W)).Pays (System.step kind)
    System.init (fun s => s.sender.remaining s.world) 10 6 where
  init := Nat.zero_le _
  fresh s isFresh := remaining_fresh isFresh
  step s label next reachable step started := by
    have points := (System.Sound.of_reachable reachable).sender
    rcases System.step_cases step with ⟨_, _, rfl, _, _, begun⟩ | ⟨_, _, rfl, _, same, begun⟩ |
      ⟨spurious, rfl, _, stepped⟩ | ⟨_, rfl, same, _⟩ | ⟨_, rfl, _, same, world, _⟩
    · rw [begun_remaining begun started]
      exact Nat.zero_le _
    · rw [same]
      exact Nat.le_of_eq (s.sender.remaining_eq begun.state)
    · exact stepped_remaining points stepped
    · rw [same]
      exact s.sender.remaining_le
    · rw [same, world]
      exact Nat.le_of_eq (s.sender.remaining_eq rfl)

theorem Receiver.pays : (Receiver.pacing : Pacing (System T W) (Label T W)).Pays
    (System.step kind) System.init (fun s => s.receiver.remaining s.world) 7 7 where
  init := Nat.zero_le _
  fresh s isFresh := remaining_fresh isFresh
  step s label next reachable step started := by
    have points := (System.Sound.of_reachable reachable).receiver
    rcases System.step_cases step with ⟨_, _, rfl, _, same, begun⟩ | ⟨_, _, rfl, _, _, begun⟩ |
      ⟨_, rfl, same, _⟩ | ⟨spurious, rfl, _, stepped⟩ | ⟨_, rfl, _, _, _, reads⟩
    · rw [same]
      exact Nat.le_of_eq (s.receiver.remaining_eq (Sender.begun_alerts begun).1)
    · rw [begun_remaining begun started]
      exact Nat.zero_le _
    · rw [same]
      exact s.receiver.remaining_le
    · exact stepped_remaining points stepped started
    · change next.receiver.fresh = false at started
      rw [reads] at started
      cases started

/-- In every run `write` and `drop_one_side` make at most ten accesses, since
nothing is charged to them; `flush` and `read` make at most six and seven more
for each access of the other side that comes between theirs and for each
exchange that fails for no reason. -/
theorem channel_progresses (kind : Kind) :
    (∀ paced : Paced (System T W), Reachable (Sender.pacing.step (System.step kind))
      { state := System.init } paced → paced.accesses ≤ 10 + 6 * paced.charged) ∧
    ∀ paced : Paced (System T W), Reachable (Receiver.pacing.step (System.step kind))
      { state := System.init } paced → paced.accesses ≤ 7 + 7 * paced.charged := by
  constructor
  · intro paced reachable
    exact Sender.pays.accesses_le reachable
  · intro paced reachable
    exact Receiver.pays.accesses_le reachable

/-- A value is sent between the two accesses of a poll that would register. -/
theorem channel_progresses_in_poll : ∃ paced : Paced (System Nat Nat),
    paced.accesses = 5 ∧ paced.charged = 3 ∧ paced.accesses ≤ 7 + 7 * paced.charged := by
  obtain ⟨paced, ran, accesses, charged⟩ : ∃ paced ∈
      runFrom (Receiver.pacing.step (System.step .channel))
        ({ state := System.init } : Paced (System Nat Nat))
        (List.flatten [[.recv (.poll 1), .receiver false, .send (.trySend 7)],
          List.replicate 3 (.sender false), List.replicate 4 (.receiver false)]),
      paced.accesses = 5 ∧ paced.charged = 3 := by
    decide
  exact ⟨paced, accesses, charged, (channel_progresses .channel).2 paced (reachable_of_runFrom ran)⟩

end Suspend.Channel
