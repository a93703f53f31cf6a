import Suspend.Channel.ValueCell
import Mathlib.Algebra.Order.Group.Multiset
import Mathlib.Tactic.Abel

/-!
# Every value has one owner

Each value handed to the sending side is, at every moment, in one place: with a
caller, in the cell, or with the sending side.  The books balance as long as
the cell is stored only when empty, which `Cell` provides.
-/

namespace Suspend.Channel

open Suspend.Transition

universe u v

variable {T : Type u} {W : Type v}

/-! ## The books -/

/-- The values passed in are those handed out, dropped, in the cell, or held. -/
def World.Accounts (m : World T W) (held : Option T) : Prop :=
  (m.passed : Multiset T) = ↑m.received + ↑m.returned + ↑m.discarded + ↑m.value.toList +
    ↑held.toList

variable {m m' : World T W} {value : Option T}

namespace World.Accounts

theorem pass {value : T} (accounts : m.Accounts none) : (m.pass value).Accounts (some value) := by
  unfold World.Accounts at *
  simp only [World.pass, ← Multiset.coe_add, accounts, Option.toList_none, Option.toList_some,
    Multiset.coe_nil]
  abel

theorem giveBack (accounts : m.Accounts value) : (m.giveBack value).Accounts none := by
  unfold World.Accounts at *
  simp only [World.giveBack, ← Multiset.coe_add, accounts, Option.toList_none, Multiset.coe_nil]
  abel

theorem discard (accounts : m.Accounts value) : (m.discard value).Accounts none := by
  unfold World.Accounts at *
  simp only [World.discard, ← Multiset.coe_add, accounts, Option.toList_none, Multiset.coe_nil]
  abel

/-- Nothing is handed out or dropped twice. -/
theorem subperm (accounts : m.Accounts value) :
    (m.received ++ m.returned ++ m.discarded).Subperm m.passed := by
  rw [← Multiset.coe_le, accounts, ← Multiset.coe_add, ← Multiset.coe_add]
  exact (Multiset.le_add_right _ _).trans (Multiset.le_add_right _ _)

end World.Accounts

def WritePc.held : WritePc T W → Option T
  | load value _ | sync value | store _ value _ => some value
  | _ => none

def WritePc.heldAfter : WriteResult T → Option T
  | .err value _ => value
  | _ => none

def FlushPc.heldAfter : PollResult T → Option T
  | .ready value _ => value
  | _ => none

def Sender.held : Sender T W → Option T
  | idle (.flush _ _ value) => value
  | trySending pc | flushWriting _ _ pc => pc.held
  | _ => none

theorem WritePc.accounts {pc : WritePc T W} (finalize spurious : Bool)
    (empty : ∀ state value waker, pc = .store state value waker → m.value = none)
    (accounts : m.Accounts pc.held) :
    (pc.step finalize spurious m).1.Accounts
      ((pc.step finalize spurious m).2.elim WritePc.held WritePc.heldAfter) := by
  unfold World.Accounts at *
  cases pc with
  | load value waker =>
      simp only [WritePc.step]
      split_ifs <;> simpa [World.access, Outcome.elim, held, heldAfter] using accounts
  | store state value waker =>
      have isEmpty := empty state value waker rfl
      simp only [WritePc.step]
      split_ifs <;> simpa [World.storeValue, World.access, Outcome.elim, held,
        isEmpty] using accounts
  | takeBack =>
      simpa [WritePc.step, World.loadValue, World.access, Outcome.elim, held, heldAfter, add_assoc]
        using accounts
  | fast state =>
      simp only [WritePc.step]
      split_ifs <;> simpa [World.access, World.store, World.publish, World.closeSender,
        Outcome.elim, held, heldAfter] using accounts
  | lock waker | takeReader _ waker | release _ _ waker =>
      cases waker <;> simp only [WritePc.step, locked, finish] <;> (try split_ifs) <;>
        simpa [World.access, World.store, World.publish, World.fetchOr, World.loadWaker,
          Outcome.elim, held, heldAfter] using accounts
  | unlock waker =>
      cases waker <;> simp only [WritePc.step, finish] <;> (try split_ifs) <;>
        simpa [World.access, World.fetchAnd, World.closeSender, Outcome.elim, held,
          heldAfter] using accounts
  | clearWaker found waker =>
      simp only [WritePc.step]
      split_ifs <;> simpa [World.access, World.loadWaker, Outcome.elim, held,
        heldAfter] using accounts
  | _ =>
      simpa [WritePc.step, World.access, World.storeWaker, World.fetchAnd, World.wake,
        Outcome.elim, held, heldAfter] using accounts

theorem FlushPc.accounts (finalize spurious : Bool) (pc : FlushPc W)
    (accounts : m.Accounts none) :
    (pc.step finalize spurious m).1.Accounts
      ((pc.step finalize spurious m).2.elim (fun _ => none) FlushPc.heldAfter) := by
  unfold World.Accounts at *
  cases pc with
  | takeBack =>
      simpa [FlushPc.step, World.loadValue, World.access, Outcome.elim, heldAfter, add_assoc]
        using accounts
  | resetLocked | finish =>
      cases finalize <;> simpa [FlushPc.step, World.access, World.fetchAnd, World.closeSender,
        Outcome.elim, heldAfter] using accounts
  | release | lock =>
      simp only [FlushPc.step]
      split_ifs <;> simpa [World.access, World.store, Outcome.elim, heldAfter] using accounts
  | _ =>
      simpa [FlushPc.step, World.access, World.store, World.loadWaker, World.storeWaker,
        World.fetchAnd, World.wake, Outcome.elim, heldAfter] using accounts

theorem ReadPc.accounts (spurious : Bool) (pc : ReadPc T W) (accounts : m.Accounts value) :
    (pc.step spurious m).1.Accounts value := by
  unfold World.Accounts at *
  cases pc with
  | takeClosed | take =>
      simp only [ReadPc.step, World.receive, World.loadValue, World.access, ← Multiset.coe_add,
        Option.toList_none, Multiset.coe_nil]
      rw [accounts]
      abel
  | lock | cancel | register | release =>
      simp only [ReadPc.step]
      split_ifs <;> simpa [World.access, World.store, World.closeReceiver] using accounts
  | _ =>
      simpa [ReadPc.step, World.access, World.store, World.loadWaker, World.storeWaker,
        World.fetchAnd, World.wake] using accounts

theorem DropPc.accounts (isWriter : Bool) (pc : DropPc W) (accounts : m.Accounts value) :
    (pc.step isWriter m).1.Accounts value := by
  unfold World.Accounts at *
  cases pc with
  | clearValue | clearLast =>
      simp only [DropPc.step, World.clearValue, World.loadValue, World.access,
        ← Multiset.coe_add, Option.toList_none, Multiset.coe_nil]
      rw [accounts]
      abel
  | unlock | close =>
      cases isWriter <;> simpa [DropPc.step, closeSide, World.access, World.fetchAnd,
        World.closeSender, World.closeReceiver] using accounts
  | _ =>
      simpa [DropPc.step, World.access, World.fetchOr, World.loadWaker, World.wake] using accounts

/-! ## The sides -/

section Sides

variable {kind : Kind} {spurious : Bool}

theorem Sender.begun_accounts {handle : SenderHandle T} {op : SendOp T W} {S' : Sender T W}
    (begun : Begun kind m handle op m' S')
    (accounts : m.Accounts (idle handle : Sender T W).held) : m'.Accounts S'.held := by
  induction begun with
  | trySend | run | send | sendDetached => exact accounts.pass
  | trySendDetached => exact World.Accounts.giveBack accounts.pass
  | runPanic | pollFirst | poll | pollDone | drop | dropDetached => exact accounts
  | pollDetached | dropFlush | dropFlushDone => exact accounts.discard
  | @dropBorrow owner => cases owner <;> exact accounts.discard

theorem Sender.finishTrySend_accounts {result : WriteResult T}
    (accounts : m.Accounts (WritePc.heldAfter result)) :
    (finishTrySend kind m result).1.Accounts (finishTrySend kind m result).2.held := by
  cases result with
  | ok => cases kind <;> exact accounts
  | err value dropped =>
      cases kind with
      | channel => cases dropped <;> exact World.Accounts.giveBack accounts
      | sendOnce => exact World.Accounts.giveBack accounts
      | taskFn => exact World.Accounts.discard accounts
  | panic => cases kind <;> exact accounts

theorem Sender.finishFlushWrite_accounts {owner : Bool} {waker : W} {result : WriteResult T}
    (accounts : m.Accounts (WritePc.heldAfter result)) :
    (finishFlushWrite kind owner waker m result).1.Accounts
      (finishFlushWrite kind owner waker m result).2.held := by
  cases result with
  | ok => exact accounts
  | err value dropped =>
      simp only [finishFlushWrite]
      split_ifs <;> exact World.Accounts.giveBack accounts
  | panic => exact accounts

theorem Sender.finishFlush_accounts {owner : Bool} {waker : W} {result : PollResult T}
    (accounts : m.Accounts (FlushPc.heldAfter result)) :
    (finishFlush kind owner waker m result).1.Accounts
      (finishFlush kind owner waker m result).2.held := by
  cases result with
  | pending => exact accounts
  | ready value dropped =>
      simp only [finishFlush]
      split_ifs <;> exact World.Accounts.giveBack accounts
  | panic => exact accounts

/-- A step of the sending side keeps the books, if it stores into an empty
cell. -/
theorem Sender.stepped_accounts {S S' : Sender T W} (step : S.Stepped kind spurious m m' S')
    (empty : ∀ state value waker, S = .trySending (.store state value waker) ∨
      (∃ owner own, S = .flushWriting owner own (.store state value waker)) → m.value = none)
    (unwritten : ∀ owner channel value, S = .freeing (.flush owner channel value) → value = none)
    (accounts : m.Accounts S.held) : m'.Accounts S'.held := by
  induction step with
  | trySend inner =>
      have kept := WritePc.accounts kind.finalize spurious
        (fun _ _ _ isStore => empty _ _ _ (.inl (by rw [isStore]))) accounts
      rw [inner] at kept
      exact kept
  | trySendEnd inner =>
      have kept := WritePc.accounts kind.finalize spurious
        (fun _ _ _ isStore => empty _ _ _ (.inl (by rw [isStore]))) accounts
      rw [inner] at kept
      exact finishTrySend_accounts (m := World.endWrite _ _) kept
  | flushWrite inner =>
      have kept := WritePc.accounts kind.finalize spurious
        (fun _ _ _ isStore => empty _ _ _ (.inr ⟨_, _, by rw [isStore]⟩)) accounts
      rw [inner] at kept
      exact kept
  | flushWriteEnd inner =>
      have kept := WritePc.accounts kind.finalize spurious
        (fun _ _ _ isStore => empty _ _ _ (.inr ⟨_, _, by rw [isStore]⟩)) accounts
      rw [inner] at kept
      exact finishFlushWrite_accounts (m := World.endWrite _ _) kept
  | @flush _ _ pc _ _ inner =>
      have kept := FlushPc.accounts kind.finalize spurious pc accounts
      rw [inner] at kept
      exact kept
  | @flushEnd _ _ pc _ _ inner =>
      have kept := FlushPc.accounts kind.finalize spurious pc accounts
      rw [inner] at kept
      exact finishFlush_accounts kept
  | @drop pc _ _ inner =>
      have kept := DropPc.accounts true pc accounts
      rw [inner] at kept
      exact kept
  | @dropEnd pc last _ inner =>
      have kept := DropPc.accounts true pc accounts
      rw [inner] at kept
      cases last <;> exact kept
  | @free next =>
      rcases next with _ | _ | ⟨owner, channel, value⟩ | _
      · exact accounts
      · exact accounts
      · rw [unwritten owner channel value rfl]
        exact accounts
      · exact accounts

theorem Receiver.begun_accounts {handle : ReceiverHandle} {op : RecvOp W} {R' : Receiver T W}
    (begun : Begun kind m handle op m' R') (accounts : m.Accounts value) : m'.Accounts value := by
  induction begun <;> exact accounts

theorem Receiver.Noted.accounts {result : PollResult T} (noted : Noted m result m')
    (accounts : m.Accounts value) : m'.Accounts value := by
  induction noted <;> exact accounts

theorem Receiver.stepped_accounts {R R' : Receiver T W} (step : R.Stepped kind spurious m m' R')
    (accounts : m.Accounts value) : m'.Accounts value := by
  induction step with
  | @read _ pc _ _ inner =>
      have kept := ReadPc.accounts spurious pc accounts
      rw [inner] at kept
      exact kept
  | @readEnd call pc result _ inner =>
      have kept := ReadPc.accounts spurious pc accounts
      rw [inner] at kept
      exact (finishRead_noted kind _ call result).accounts kept
  | unpark => exact accounts
  | @drop _ pc _ _ inner =>
      have kept := DropPc.accounts false pc accounts
      rw [inner] at kept
      exact kept
  | @dropEnd _ pc last _ inner =>
      have kept := DropPc.accounts false pc accounts
      rw [inner] at kept
      cases last <;> exact kept
  | free => exact accounts

end Sides

/-! ## Runs -/

namespace System

variable {kind : Kind} {s s' : System T W} {label : Label T W}

/-- No side is about to take the cell on the word of `STATE_ACTIVE` alone: a
side that clears it over an empty cell does not find it cleared already, and
the first poll of a `Sender`'s flush does not find the reader gone with its
value still there. -/
def keepsValue (kind : Kind) (s : System T W) : Label T W → Bool
  | .sender _ =>
      match s.sender with
      | .flushWriting _ _ (.release prev _ _) =>
          kind.finalize ||
            s.world.state = prev.set { loaded := true, wlock := true, wake := true } ||
            !(s.world.state.loaded && !s.world.state.rlock && !s.world.state.active)
      | .trySending (.unlock _) => s.world.state.active || s.world.state.loaded
      | .dropping pc => !pc.closing || s.world.state.active || s.world.state.loaded
      | _ => true
  | .receiver _ =>
      match s.receiver with
      | .dropping _ pc => !pc.closing || s.world.state.active || s.world.state.loaded
      | _ => true
  | _ => true

/-- The cell is in order and the books balance. -/
structure Owned (kind : Kind) (s : System T W) : Prop where
  cell : Cell s.world (s.sender.cell kind) (s.receiver.cell kind)
  accounts : s.world.Accounts s.sender.held

theorem Owned.init : Owned kind (System.init : System T W) := by
  refine ⟨?_, rfl⟩
  constructor <;> simp [System.init, Sender.cell, Sender.handleSections, Receiver.cell]

/-- A value is stored into an empty cell. -/
theorem Owned.empty_at_store (sound : Sound kind s) (owned : Owned kind s)
    {state : State} {value : T}
    {waker : Option W} (stores : s.sender = .trySending (.store state value waker) ∨
      (∃ owner own, s.sender = .flushWriting owner own (.store state value waker))) :
    s.world.value = none := by
  have sections : (s.sender.sections kind).live = true ∧
      (s.sender.sections kind).unpublished = true ∧ s.sender.cell kind = {} := by
    rcases stores with isStore | ⟨owner, own, isStore⟩ <;> rw [isStore] <;> exact ⟨rfl, rfl, rfl⟩
  obtain ⟨isLive, isUnpublished, cell⟩ := sections
  have live := sound.locks.live isLive
  have unloaded := sound.locks.unpublished isUnpublished
  by_contra notEmpty
  have full : s.world.value.isSome = true := Option.isSome_iff_ne_none.mpr notEmpty
  rcases owned.cell.accounted full with loaded | stored | claims | claims
  · simp [unloaded] at loaded
  · simp [cell] at stored
  · simp [cell] at claims
  · have closed := (owned.cell.receiver_claims claims).2.1
    simp [live] at closed

theorem Owned.step (sound : Sound kind s) (owned : Owned kind s)
    (keeps : s.keepsValue kind label = true) (step : System.step kind s label = some s') :
    Owned kind s' := by
  obtain ⟨cell, accounts⟩ := owned
  rcases System.step_cases step with ⟨_, _, _, isIdle, same, begun⟩ |
    ⟨_, _, _, isIdle, same, begun⟩ | ⟨spurious, rfl, same, stepped⟩ | ⟨_, rfl, same, stepped⟩ |
    ⟨_, _, parked, same, world, reads⟩
  · have points := sound.sender
    rw [isIdle] at cell accounts points
    obtain ⟨word, follows⟩ := Sender.begun_cell points begun
    exact ⟨same ▸ cell.sender_keep word follows, Sender.begun_accounts begun accounts⟩
  · rw [isIdle] at cell
    obtain ⟨word, follows⟩ := Receiver.begun_cell begun
    exact ⟨same ▸ cell.receiver_keep word follows, same ▸ Receiver.begun_accounts begun accounts⟩
  · refine ⟨?_, ?_⟩
    · rw [same]
      refine cell.sender_step sound.locks sound.sender (Receiver.cell_ended _)
        (Receiver.cell_taken _) (Receiver.cell_waiting _) ?_ ?_ ?_ stepped
      · rintro owner waker prev own readWaker isRelease goesOn differs ⟨loaded, rlock, inactive⟩
        simp [keepsValue, isRelease, goesOn, differs, loaded, rlock, inactive] at keeps
      · intro readWaker isUnlock
        simpa [keepsValue, isUnlock] using keeps
      · intro pc isDrop closing
        simpa [keepsValue, isDrop, closing] using keeps
    · refine Sender.stepped_accounts stepped (fun _ _ _ => empty_at_store sound ⟨cell, accounts⟩)
        ?_ accounts
      intro owner channel value isFreeing
      have points := sound.sender
      rw [isFreeing] at points
      exact points.2.2.2
  · refine ⟨?_, same ▸ Receiver.stepped_accounts stepped accounts⟩
    rw [same]
    refine cell.receiver_step sound.locks sound.receiver (Sender.cell_ended _)
      (Sender.cell_stored _) ?_ stepped
    intro next pc isDrop closing
    simpa [keepsValue, isDrop, closing] using keeps
  · rw [parked] at cell
    refine ⟨?_, ?_⟩
    · rw [same, world, reads]
      refine cell.receiver_keep ⟨rfl, rfl, rfl, rfl, id⟩ ?_
      constructor <;> simp [Receiver.cell, ReadPc.cell]
    · rw [same, world]
      exact accounts

/-- The value cell is stored only when empty and loaded or cleared only when
full, and no value passed in is handed out or dropped twice. -/
structure SingleOwner (s : System T W) : Prop where
  clean : s.world.valueMisuse = false
  at_most_once :
    (s.world.received ++ s.world.returned ++ s.world.discarded).Subperm s.world.passed

end System

/-- In every run in which no side takes the cell on the word of `STATE_ACTIVE`
alone, each value has a single owner. -/
theorem value_singleOwner {kind : Kind} {s : System T W}
    (reachable : ReachableUnder (System.step kind)
      (fun s label => s.keepsValue kind label = true) System.init s) : s.SingleOwner := by
  have sound {state : System T W} (earlier : ReachableUnder (System.step kind)
      (fun s label => s.keepsValue kind label = true) System.init state) :
      System.Sound kind state :=
    System.Sound.of_reachable earlier.reachable
  have owned : System.Owned kind s := by
    refine reachable.invariant_with (fun _ => sound) System.Owned.init ?_
    intro state label next sound owned keeps step
    exact owned.step sound keeps step
  exact ⟨owned.cell.clean, owned.accounts.subperm⟩

theorem value_singleOwner_of_delivery :
    ∃ s : System Nat Nat, s.world.received = [7] ∧ s.SingleOwner := by
  obtain ⟨s, ran, received⟩ : ∃ s ∈ runFrom
      (guarded (System.step .channel) fun s (label : Label Nat Nat) => s.keepsValue .channel label)
      System.init
      [.send (.trySend 7), .sender false, .sender false, .sender false, .recv .tryRecv,
        .receiver false, .receiver false, .receiver false, .receiver false],
      s.world.received = [7] := by
    decide
  exact ⟨s, received, value_singleOwner (reachableUnder_of_runFrom ran)⟩

/-- Two drops overlap: the second to clear `STATE_ACTIVE` clears a value cell
that never held a value. -/
theorem value_cleared_empty :
    ¬ ∀ s : System Nat Nat, ReachableUnder (System.step .channel)
      (fun _ label => label.plain = true) System.init s → s.SingleOwner := by
  intro always
  obtain ⟨s, ran, misused⟩ : ∃ s ∈ runFrom
      (guarded (System.step .channel) fun _ (label : Label Nat Nat) => label.plain) System.init
      [.send .drop, .recv .drop, .sender false, .receiver false, .sender false, .receiver false,
        .receiver false],
      s.world.valueMisuse = true := by
    decide
  have clean := (always s (reachableUnder_of_runFrom ran)).clean
  simp [misused] at clean

end Suspend.Channel
