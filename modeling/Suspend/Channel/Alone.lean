import Suspend.Channel.OneShot
import Mathlib.Tactic.MkIffOfInductiveProp

/-!
# Programs that run alone

A program that runs alone finds the channel calm: no lock is held and the bits
say what is in the cells.  For each of the four programs the points that it can
then reach are given with what holds there, whichever exchanges fail
spuriously, and with it the result that it returns.
-/

namespace Suspend.Channel

open Suspend.Transition

universe u v

variable {T : Type u} {W : Type v}

/-- Nothing has gone wrong, and nothing has been freed. -/
@[mk_iff]
structure World.Clean (m : World T W) : Prop where
  unfreed : m.freed = 0
  fresh : m.stale = false
  valueKept : m.valueMisuse = false
  wakerKept : m.wakerMisuse = false
  unpanicked : m.panicked = false

/-- The state that tells what is in the cells, with no lock held. -/
def World.plain (active : Bool) (m : World T W) : State :=
  { active := active, loaded := m.value.isSome, wake := m.waker.isSome }

/-- No lock is held and the bits say what is in the cells; a waker is there
only while both sides are. -/
@[mk_iff]
structure World.Calm (active : Bool) (value : Option T) (m : World T W) : Prop where
  state : m.state = m.plain active
  value : m.value = value
  waker : active = false → m.waker = none

/-- What a step does with the wakers: nothing, or it stores one into the empty
cell, takes in hand the one that is there or drops it, or wakes the one in
hand. -/
def World.Rewakes (m m' : World T W) (hand hand' woken : Option W) : Prop :=
  (m'.waker = m.waker ∧ hand' = hand ∧ woken = none) ∨
  (m.waker = none ∧ m'.waker.isSome ∧ hand' = hand ∧ woken = none) ∨
  (m'.waker = none ∧ hand = none ∧ hand' = m.waker ∧ woken = none) ∨
  (m'.waker = none ∧ hand = none ∧ hand' = none ∧ woken = none) ∨
  (m'.waker = m.waker ∧ hand.isSome ∧ hand' = none ∧ woken = hand)

/-- What a step keeps of a channel that only one side is at. -/
@[mk_iff]
structure World.Steps (m m' : World T W) (hand hand' woken : Option W) : Prop where
  clean : m'.Clean
  wakers : m.Rewakes m' hand hand' woken

attribute [local simp] World.access World.store World.fetchAnd World.fetchOr World.storeValue
  World.loadValue World.clearValue World.storeWaker World.loadWaker World.receive World.wake
  World.publish World.closeSender World.closeReceiver World.plain World.clean_iff World.calm_iff
  World.steps_iff World.Rewakes Outcome.elim State.set State.unset
  ReadPc.carries ReadPc.wakes WritePc.carries WritePc.wakes DropPc.carries DropPc.wakes
    FlushPc.wakes

/-! ## `read` -/

namespace ReadPc

/-- The points of a `read` alone, with the value in the channel and the waker
that the read was given. -/
def Solo (active : Bool) (value : Option T) (own : Option W) (m : World T W) : ReadPc T W → Prop
  | load waker orCancel => waker = own ∧ orCancel = false ∧ m.Calm active value
  | swap prev => prev = m.state ∧ m.Calm active value ∧ value.isSome ∧ active = false
  | takeClosed =>
      m.state = {} ∧ m.waker = none ∧ m.value = value ∧ value.isSome ∧ active = false
  | lock prev waker orCancel =>
      waker = own ∧ orCancel = false ∧ prev = m.state ∧ m.Calm active value ∧ value.isSome ∧
        active = true
  | take prev =>
      prev = m.plain true ∧ m.state = { prev with rlock := true, wlock := true } ∧
        m.value = value ∧ value.isSome ∧ active = true
  | takeFlush prev taken =>
      prev = { active := true, loaded := true, wake := true } ∧
        m.state = { prev with rlock := true, wlock := true } ∧
        m.value = none ∧ m.waker.isSome ∧ taken = value ∧ value.isSome ∧ active = true
  | unlock prev taken _ =>
      (∃ wake, prev = { active := true, loaded := true, wake := wake }) ∧
        m.state = { prev with rlock := true, wlock := true } ∧
        m.value = none ∧ m.waker = none ∧ taken = value ∧ value.isSome ∧ active = true
  | wakeFlush _ taken dropped =>
      m.state = { active := true } ∧ dropped = false ∧
        m.value = none ∧ m.waker = none ∧ taken = value ∧ value.isSome ∧ active = true
  | register prev waker orCancel =>
      waker = own ∧ orCancel = false ∧ prev = m.state ∧ m.Calm active value ∧ value = none ∧
        active = true
  | clearPrev prev waker orCancel =>
      waker = own ∧ orCancel = false ∧ prev = { active := true, wake := true } ∧
        m.state = { prev with rlock := true, wlock := true } ∧
        m.value = none ∧ m.waker.isSome ∧ value = none ∧ active = true
  | storeWaker prev waker orCancel =>
      own = some waker ∧ orCancel = false ∧ (∃ wake, prev = { active := true, wake := wake }) ∧
        m.state = { prev with rlock := true, wlock := true, wake := true } ∧
        m.value = none ∧ m.waker = none ∧ value = none ∧ active = true
  | release prev waker orCancel =>
      own = some waker ∧ orCancel = false ∧ (∃ wake, prev = { active := true, wake := wake }) ∧
        m.state = { prev with rlock := true, wlock := true, wake := true } ∧
        m.value = none ∧ m.waker = some waker ∧ value = none ∧ active = true
  | unlockBare orCancel =>
      own = none ∧ orCancel = false ∧
        m.state = { active := true, rlock := true, wlock := true, wake := true } ∧
        m.value = none ∧ m.waker = none ∧ value = none ∧ active = true
  | cancel .. | wake .. | clearOwn .. | unlockOwn .. => False

/-- What a `read` alone returns and leaves behind. -/
def SoloEnd (active : Bool) (value : Option T) (own : Option W) (m : World T W) :
    PollResult T → Prop
  | .ready taken dropped =>
      taken = value ∧ dropped = !active ∧ m.waker = none ∧ m.Calm active none ∧
        (value = none → active = true → own = none)
  | .pending => value = none ∧ own.isSome ∧ active = true ∧ m.Calm active none
  | .panic => False

variable {m : World T W} {active : Bool} {value : Option T} {own : Option W} {pc : ReadPc T W}

theorem Solo.step (spurious : Bool) (solo : pc.Solo active value own m) (clean : m.Clean) :
    m.Steps (pc.step spurious m).1 pc.carries ((pc.step spurious m).2.elim carries fun _ => none)
        pc.wakes ∧
      (pc.step spurious m).2.elim (Solo active value own (pc.step spurious m).1)
        (SoloEnd active value own (pc.step spurious m).1) := by
  obtain ⟨unfreed, fresh, valueKept, wakerKept, unpanicked⟩ := clean
  cases pc with
  | load waker orCancel =>
      obtain ⟨rfl, rfl, state, isValue, unwoken⟩ := solo
      cases active <;> cases value <;> cases isWaker : m.waker <;> cases waker <;>
        simp_all [ReadPc.step, ReadPc.loop, Solo, SoloEnd]
  | swap prev =>
      obtain ⟨rfl, ⟨state, isValue, unwoken⟩, isSome, rfl⟩ := solo
      cases value <;> simp_all [ReadPc.step, Solo]
  | takeClosed =>
      obtain ⟨state, isWaker, isValue, isSome, rfl⟩ := solo
      cases value <;> simp_all [ReadPc.step, SoloEnd]
  | lock prev waker orCancel =>
      obtain ⟨rfl, rfl, rfl, ⟨state, isValue, unwoken⟩, isSome, rfl⟩ := solo
      cases value <;> cases isWaker : m.waker <;> cases spurious <;>
        simp_all [ReadPc.step, ReadPc.loop, Solo]
  | take prev =>
      obtain ⟨rfl, state, isValue, isSome, rfl⟩ := solo
      cases value <;> cases isWaker : m.waker <;> simp_all [ReadPc.step, Solo]
  | takeFlush prev taken =>
      obtain ⟨rfl, state, isValue, isWaker, rfl, isSome, rfl⟩ := solo
      cases waker : m.waker <;> simp_all [ReadPc.step, Solo]
  | unlock prev taken flushWaker =>
      obtain ⟨⟨wake, rfl⟩, state, isValue, isWaker, rfl, isSome, rfl⟩ := solo
      cases flushWaker <;> cases taken <;> simp_all [ReadPc.step, Solo, SoloEnd, unlockMask]
  | wakeFlush waker taken dropped =>
      obtain ⟨state, rfl, isValue, isWaker, rfl, isSome, rfl⟩ := solo
      cases taken <;> simp_all [ReadPc.step, SoloEnd]
  | register prev waker orCancel =>
      obtain ⟨rfl, rfl, rfl, ⟨state, isValue, unwoken⟩, rfl, rfl⟩ := solo
      cases waker <;> cases isWaker : m.waker <;> cases spurious <;>
        simp_all [ReadPc.step, ReadPc.loop, Solo, SoloEnd, registered]
  | clearPrev prev waker orCancel =>
      obtain ⟨rfl, rfl, rfl, state, isValue, isWaker, rfl, rfl⟩ := solo
      cases waker <;> simp_all [ReadPc.step, Solo, registered]
  | storeWaker prev waker orCancel =>
      obtain ⟨rfl, rfl, ⟨wake, rfl⟩, state, isValue, isWaker, rfl, rfl⟩ := solo
      simp_all [ReadPc.step, Solo]
  | release prev waker orCancel =>
      obtain ⟨rfl, rfl, ⟨wake, rfl⟩, state, isValue, isWaker, rfl, rfl⟩ := solo
      simp_all [ReadPc.step, SoloEnd]
  | unlockBare orCancel =>
      obtain ⟨rfl, rfl, state, isValue, isWaker, rfl, rfl⟩ := solo
      simp_all [ReadPc.step, SoloEnd]
  | _ => exact solo.elim

end ReadPc

/-! ## `write`, closing as it publishes -/

namespace WritePc

/-- The points of a `write` alone, with the value and the waker that it was
given, for a channel whose other side is there if `active`. -/
def Solo (active : Bool) (value : T) (own : Option W) (m : World T W) : WritePc T W → Prop
  | load given waker => given = value ∧ waker = own ∧ m.Calm active none
  | sync given => given = value ∧ m.Calm active none ∧ active = false
  | store state given waker =>
      given = value ∧ waker = own ∧ state = m.state ∧ m.Calm active none ∧ active = true
  | fast state =>
      own = none ∧ state = { active := true } ∧ m.state = state ∧ m.value = some value ∧
        m.waker = none ∧ active = true
  | lock waker =>
      waker = own ∧ m.state = { active := true, wake := m.waker.isSome } ∧
        m.value = some value ∧ active = true
  | takeReader prev waker =>
      waker = own ∧ prev = { active := true, wake := true } ∧
        m.state = { prev with loaded := true, wlock := true } ∧ m.value = some value ∧
        m.waker.isSome ∧ active = true
  | storeWaker prev waker _ =>
      own = some waker ∧ (∃ wake, prev = { active := true, wake := wake }) ∧
        m.state = { prev with loaded := true, wlock := true, wake := true } ∧
        m.value = some value ∧ m.waker = none ∧ active = true
  | release prev waker _ =>
      own = some waker ∧ (∃ wake, prev = { active := true, wake := wake }) ∧
        m.state = { prev with loaded := true, wlock := true, wake := true } ∧
        m.value = some value ∧ m.waker = some waker ∧ active = true
  | unlock _ =>
      own = none ∧ m.state = { active := true, loaded := true, wlock := true, wake := true } ∧
        m.value = some value ∧ m.waker = none ∧ active = true
  | wake _ => m.Calm own.isSome (some value) ∧ m.waker = own ∧ active = true
  | clearWaker .. | unlockRead _ | takeBack => False

/-- What a `write` alone returns and leaves behind: without a waker it has
closed the sending side. -/
def SoloEnd (active : Bool) (value : T) (own : Option W) (m : World T W) :
    WriteResult T → Prop
  | .ok => m.Calm own.isSome (some value) ∧ m.waker = own ∧ active = true
  | .err given dropped =>
      given = some value ∧ dropped = true ∧ m.Calm active none ∧ active = false
  | .panic => False

variable {m : World T W} {active : Bool} {value : T} {own : Option W} {pc : WritePc T W}

theorem Solo.step (spurious : Bool) (solo : pc.Solo active value own m) (clean : m.Clean) :
    m.Steps (pc.step true spurious m).1 pc.carries
        ((pc.step true spurious m).2.elim carries fun _ => none) pc.wakes ∧
      (pc.step true spurious m).2.elim (Solo active value own (pc.step true spurious m).1)
        (SoloEnd active value own (pc.step true spurious m).1) := by
  obtain ⟨unfreed, fresh, valueKept, wakerKept, unpanicked⟩ := clean
  cases pc with
  | load given waker =>
      obtain ⟨rfl, rfl, state, isValue, unwoken⟩ := solo
      cases active <;> cases isWaker : m.waker <;> simp_all [WritePc.step, Solo]
  | sync given =>
      obtain ⟨rfl, ⟨state, isValue, unwoken⟩, rfl⟩ := solo
      simp_all [WritePc.step, SoloEnd]
  | store prev given waker =>
      obtain ⟨rfl, rfl, rfl, ⟨state, isValue, unwoken⟩, rfl⟩ := solo
      cases waker <;> cases isWaker : m.waker <;> simp_all [WritePc.step, Solo]
  | fast prev =>
      obtain ⟨rfl, rfl, state, isValue, isWaker, rfl⟩ := solo
      cases spurious <;> simp_all [WritePc.step, Solo, SoloEnd]
  | lock waker =>
      obtain ⟨rfl, state, isValue, rfl⟩ := solo
      cases waker <;> cases isWaker : m.waker <;> simp_all [WritePc.step, Solo, locked]
  | takeReader prev waker =>
      obtain ⟨rfl, rfl, state, isValue, isWaker, rfl⟩ := solo
      cases waker <;> simp_all [WritePc.step, Solo, locked]
  | storeWaker prev waker readWaker =>
      obtain ⟨rfl, ⟨wake, rfl⟩, state, isValue, isWaker, rfl⟩ := solo
      simp_all [WritePc.step, Solo]
  | release prev waker readWaker =>
      obtain ⟨rfl, ⟨wake, rfl⟩, state, isValue, isWaker, rfl⟩ := solo
      cases readWaker <;> simp_all [WritePc.step, Solo, SoloEnd, finish]
  | unlock readWaker =>
      obtain ⟨rfl, state, isValue, isWaker, rfl⟩ := solo
      cases readWaker <;> simp_all [WritePc.step, Solo, SoloEnd, finish]
  | wake waker =>
      obtain ⟨⟨state, isValue, unwoken⟩, rfl, rfl⟩ := solo
      simp_all [WritePc.step, SoloEnd]
  | _ => exact solo.elim

end WritePc

/-! ## `flush`, closing as it finishes -/

namespace FlushPc

/-- The points of a `flush` alone.  A value that has been read was read by a
receiver that has closed its side. -/
def Solo (active : Bool) (value : Option T) (m : World T W) : FlushPc W → Prop
  | load _ => m.Calm active value ∧ (value = none → active = false)
  | finish => m.Calm active value ∧ value = none ∧ active = false
  | takeBack => m.Calm active value ∧ value.isSome ∧ active = false
  | lock prev _ => prev = m.state ∧ m.Calm active value ∧ value.isSome ∧ active = true
  | clearPrev prev _ =>
      prev = { active := true, loaded := true, wake := true } ∧
        m.state = { prev with wlock := true } ∧ m.value = value ∧ m.waker.isSome ∧
        value.isSome ∧ active = true
  | storeWaker prev _ =>
      (∃ wake, prev = { active := true, loaded := true, wake := wake }) ∧
        m.state = { prev with wlock := true, wake := true } ∧ m.value = value ∧
        m.waker = none ∧ value.isSome ∧ active = true
  | release prev waker =>
      (∃ wake, prev = { active := true, loaded := true, wake := wake }) ∧
        m.state = { prev with wlock := true, wake := true } ∧ m.value = value ∧
        m.waker = some waker ∧ value.isSome ∧ active = true
  | clearOwn _ =>
      m.state = { active := true, loaded := true, wlock := true, wake := true } ∧
        m.value = value ∧ m.waker.isSome ∧ value.isSome ∧ active = true
  | unlock _ =>
      m.state = { active := true, loaded := true, wlock := true, wake := true } ∧
        m.value = value ∧ m.waker = none ∧ value.isSome ∧ active = true
  | clearLocked _ | resetLocked _ | reset | wake _ => False

/-- What a `flush` alone returns and leaves behind. -/
def SoloEnd (active : Bool) (value : Option T) (m : World T W) : PollResult T → Prop
  | .pending => m.Calm active value ∧ value.isSome ∧ active = true
  | .ready given dropped =>
      given = value ∧ dropped = true ∧ m.value = none ∧ m.waker = none ∧ active = false
  | .panic => False

variable {m : World T W} {active : Bool} {value : Option T} {pc : FlushPc W}

theorem Solo.step (spurious : Bool) (solo : pc.Solo active value m) (clean : m.Clean) :
    m.Steps (pc.step true spurious m).1 none none pc.wakes ∧
      (pc.step true spurious m).2.elim (Solo active value (pc.step true spurious m).1)
        (SoloEnd active value (pc.step true spurious m).1) := by
  obtain ⟨unfreed, fresh, valueKept, wakerKept, unpanicked⟩ := clean
  cases pc with
  | load waker =>
      obtain ⟨⟨state, isValue, unwoken⟩, taken⟩ := solo
      cases active <;> cases value <;> cases isWaker : m.waker <;>
        simp_all [FlushPc.step, loop, Solo]
  | finish =>
      obtain ⟨⟨state, isValue, unwoken⟩, rfl, rfl⟩ := solo
      simp_all [FlushPc.step, SoloEnd]
  | takeBack =>
      obtain ⟨⟨state, isValue, unwoken⟩, isSome, rfl⟩ := solo
      cases value <;> simp_all [FlushPc.step, SoloEnd]
  | lock prev waker =>
      obtain ⟨rfl, ⟨state, isValue, unwoken⟩, isSome, rfl⟩ := solo
      cases value <;> cases isWaker : m.waker <;> cases spurious <;>
        simp_all [FlushPc.step, loop, Solo]
  | clearPrev prev waker =>
      obtain ⟨rfl, state, isValue, isWaker, isSome, rfl⟩ := solo
      simp_all [FlushPc.step, Solo]
  | storeWaker prev waker =>
      obtain ⟨⟨wake, rfl⟩, state, isValue, isWaker, isSome, rfl⟩ := solo
      simp_all [FlushPc.step, Solo]
  | release prev waker =>
      obtain ⟨⟨wake, rfl⟩, state, isValue, isWaker, isSome, rfl⟩ := solo
      cases value <;> cases spurious <;> simp_all [FlushPc.step, Solo, SoloEnd]
  | clearOwn waker =>
      obtain ⟨state, isValue, isWaker, isSome, rfl⟩ := solo
      simp_all [FlushPc.step, Solo]
  | unlock waker =>
      obtain ⟨state, isValue, isWaker, isSome, rfl⟩ := solo
      cases value <;> simp_all [FlushPc.step, loop, Solo]
  | _ => exact solo.elim

end FlushPc

/-! ## `drop_one_side` -/

namespace DropPc

/-- The points of a `drop_one_side` alone. -/
def Solo (active : Bool) (value : Option T) (m : World T W) : DropPc W → Prop
  | lock => m.Calm active value
  | clearValue prev =>
      prev = { loaded := true } ∧ m.value = value ∧ m.waker = none ∧ value.isSome ∧
        active = false
  | takeWaker | clearOwn =>
      m.state = { active := true, loaded := value.isSome, wlock := true, wake := true } ∧
        m.value = value ∧ m.waker.isSome ∧ active = true
  | unlock _ =>
      m.state = { active := true, loaded := value.isSome, wlock := true, wake := true } ∧
        m.value = value ∧ m.waker = none ∧ active = true
  | wake _ last => last = false ∧ m.Calm false value ∧ active = true
  | clearWaker | close | clearLast => False

/-- What a `drop_one_side` alone returns and leaves behind: the side that comes
second is the last one, and leaves both cells empty. -/
def SoloEnd (active : Bool) (value : Option T) (m : World T W) (last : Bool) : Prop :=
  last = !active ∧ m.waker = none ∧ (active = true → m.Calm false value) ∧
    (active = false → m.value = none)

variable {m : World T W} {active : Bool} {value : Option T} {pc : DropPc W}

theorem Solo.step (isWriter : Bool) (solo : pc.Solo active value m) (clean : m.Clean) :
    m.Steps (pc.step isWriter m).1 pc.carries ((pc.step isWriter m).2.elim carries fun _ => none)
        pc.wakes ∧
      (pc.step isWriter m).2.elim (Solo active value (pc.step isWriter m).1)
        (SoloEnd active value (pc.step isWriter m).1) := by
  obtain ⟨unfreed, fresh, valueKept, wakerKept, unpanicked⟩ := clean
  cases pc with
  | lock =>
      obtain ⟨state, isValue, unwoken⟩ := solo
      cases active <;> cases value <;> cases isWaker : m.waker <;> cases isWriter <;>
        simp_all [DropPc.step, Solo, SoloEnd]
  | clearValue prev =>
      obtain ⟨rfl, isValue, isWaker, isSome, rfl⟩ := solo
      cases value <;> simp_all [DropPc.step, SoloEnd]
  | takeWaker | clearOwn =>
      obtain ⟨state, isValue, isWaker, rfl⟩ := solo
      simp_all [DropPc.step, Solo]
  | unlock waker =>
      obtain ⟨state, isValue, isWaker, rfl⟩ := solo
      cases waker <;> cases isWriter <;>
        simp_all [DropPc.step, Solo, SoloEnd, closeSide, finish]
  | wake waker last =>
      obtain ⟨rfl, ⟨state, isValue, unwoken⟩, rfl⟩ := solo
      simp_all [DropPc.step, SoloEnd, finish]
  | _ => exact solo.elim

end DropPc

/-! ## Programs that run alone return -/

/-- How far a `read` alone is from its end, if no exchange fails. -/
def ReadPc.rank : ReadPc T W → Nat
  | load .. => 6
  | lock .. | register .. | swap _ => 5
  | take _ | clearPrev .. | takeClosed => 4
  | takeFlush .. | storeWaker .. => 3
  | unlock .. | release .. | unlockBare _ => 2
  | _ => 1

def WritePc.rank : WritePc T W → Nat
  | load .. => 7
  | store .. => 6
  | fast _ | sync _ => 5
  | lock _ => 5
  | takeReader .. => 4
  | storeWaker .. => 3
  | release .. | unlock _ => 2
  | _ => 1

def FlushPc.rank : FlushPc W → Nat
  | clearOwn _ => 7
  | load _ | unlock _ => 6
  | lock .. | finish | takeBack => 5
  | clearPrev .. => 4
  | storeWaker .. => 3
  | release .. => 2
  | _ => 1

def DropPc.rank : DropPc W → Nat
  | lock => 4
  | clearValue _ | takeWaker | clearOwn => 3
  | unlock _ => 2
  | _ => 1

section Returns

variable {m : World T W} {active : Bool} {own : Option W}

theorem ReadPc.Solo.falls {value : Option T} {pc : ReadPc T W} (solo : pc.Solo active value own m) :
    (pc.step false m).2.elim (fun next => next.rank < pc.rank) fun _ => True := by
  cases pc with
  | load waker orCancel =>
      obtain ⟨rfl, rfl, state, isValue, unwoken⟩ := solo
      cases active <;> cases value <;> cases isWaker : m.waker <;> cases waker <;>
        simp_all [ReadPc.step, ReadPc.loop, rank]
  | swap prev =>
      obtain ⟨rfl, -⟩ := solo
      simp [ReadPc.step, rank]
  | lock prev waker orCancel | register prev waker orCancel =>
      obtain ⟨rfl, rfl, rfl, -⟩ := solo
      cases waker <;> cases isWake : m.state.wake <;> simp_all [ReadPc.step, registered, rank]
  | take prev =>
      cases isFlush : !prev.wlock && prev.wake <;> simp [ReadPc.step, isFlush, rank]
  | unlock prev taken flushWaker =>
      cases flushWaker <;> simp [ReadPc.step, rank]
  | clearPrev prev waker orCancel =>
      cases waker <;> simp [ReadPc.step, registered, rank]
  | release prev waker orCancel =>
      obtain ⟨rfl, rfl, ⟨wake, rfl⟩, state, -⟩ := solo
      simp_all [ReadPc.step]
  | unlockBare orCancel =>
      obtain ⟨rfl, rfl, state, -⟩ := solo
      simp_all [ReadPc.step]
  | takeClosed | takeFlush | storeWaker | wakeFlush => simp [ReadPc.step, rank]
  | _ => exact solo.elim

theorem WritePc.Solo.falls {value : T} {pc : WritePc T W} (solo : pc.Solo active value own m) :
    (pc.step true false m).2.elim (fun next => next.rank < pc.rank) fun _ => True := by
  cases pc with
  | load given waker =>
      obtain ⟨rfl, rfl, state, isValue, unwoken⟩ := solo
      cases active <;> simp_all [WritePc.step, rank]
  | store prev given waker =>
      cases isFast : waker.isNone && !prev.wake <;> simp [WritePc.step, isFast, rank]
  | fast prev =>
      obtain ⟨rfl, rfl, state, -⟩ := solo
      simp_all [WritePc.step]
  | lock waker =>
      obtain ⟨rfl, state, -⟩ := solo
      cases waker <;> cases isWaker : m.waker <;> simp_all [WritePc.step, locked, rank]
  | takeReader prev waker => cases waker <;> simp [WritePc.step, locked, rank]
  | release prev waker readWaker =>
      obtain ⟨rfl, ⟨wake, rfl⟩, state, -⟩ := solo
      cases readWaker <;> simp_all [WritePc.step, finish, rank]
  | unlock readWaker =>
      obtain ⟨rfl, state, -⟩ := solo
      cases readWaker <;> simp_all [WritePc.step, finish, rank]
  | sync | storeWaker | wake => simp [WritePc.step, rank]
  | _ => exact solo.elim

theorem FlushPc.Solo.falls {value : Option T} {pc : FlushPc W} (solo : pc.Solo active value m) :
    (pc.step true false m).2.elim (fun next => next.rank < pc.rank) fun _ => True := by
  cases pc with
  | load waker =>
      obtain ⟨⟨state, isValue, unwoken⟩, taken⟩ := solo
      cases active <;> cases value <;> simp_all [FlushPc.step, loop, rank]
  | lock prev waker =>
      obtain ⟨rfl, ⟨state, isValue, unwoken⟩, isSome, rfl⟩ := solo
      cases value <;> cases isWaker : m.waker <;> simp_all [FlushPc.step, loop, rank]
  | release prev waker =>
      obtain ⟨⟨wake, rfl⟩, state, -⟩ := solo
      simp_all [FlushPc.step]
  | unlock waker =>
      obtain ⟨state, isValue, isWaker, isSome, rfl⟩ := solo
      simp_all [FlushPc.step, loop, rank]
  | finish | takeBack | clearPrev | storeWaker | clearOwn => simp [FlushPc.step, rank]
  | _ => exact solo.elim

theorem DropPc.Solo.falls {value : Option T} {pc : DropPc W} (isWriter : Bool)
    (solo : pc.Solo active value m) :
    (pc.step isWriter m).2.elim (fun next => next.rank < pc.rank) fun _ => True := by
  cases pc with
  | lock =>
      obtain ⟨state, isValue, unwoken⟩ := solo
      cases active <;> cases value <;> cases isWaker : m.waker <;> cases isWriter <;>
        simp_all [DropPc.step, rank]
  | clearValue prev =>
      obtain ⟨rfl, -⟩ := solo
      simp [DropPc.step]
  | unlock waker =>
      obtain ⟨state, -⟩ := solo
      cases waker <;> simp_all [DropPc.step, finish, rank]
  | wake waker last =>
      obtain ⟨rfl, -⟩ := solo
      simp [DropPc.step, finish]
  | takeWaker | clearOwn => simp [DropPc.step, rank]
  | _ => exact solo.elim

end Returns

end Suspend.Channel
