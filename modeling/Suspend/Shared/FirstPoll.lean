import Suspend.Shared.Lender

/-!
# The first poll of a collection

`start_poll` gives up the two units of an idle lender after it has stored the
waker, while references are cloned and dropped.  One subtraction, by either
side, leaves 1: that of the poll takes the waker back, and that of the last
drop wakes it.
-/

namespace Suspend.Shared

open Suspend.Transition

universe v

variable {W : Type v}

/-! ## The calls -/

/-- The handles of a `PinShared` are `Scoped`: their drop does not free what
`dec_count_ref` leaves. -/
def PinShared.handleStep (index : Nat) (s : Lender W) : Option (Lender W) :=
  match s.handles[index]? with
  | some (.dropping pc) =>
      match pc.step s.inner with
      | (inner, .goto pc) => some { s with inner, handles := s.handles.set index (.dropping pc) }
      | (inner, .ret _) => some { s with inner, handles := s.handles.set index .gone }
  | _ => none

def PinShared.step : Step (Lender W) (Label W)
  | s, .handle index => PinShared.handleStep index s
  | s, label => Lender.step s label

namespace Handle

/-- The drop is about to move the waker out of the cell. -/
def waking : Handle → Bool
  | dropping .wake => true
  | _ => false

/-- The drop has woken the waker. -/
def finishing : Handle → Bool
  | dropping .exchange => true
  | _ => false

end Handle

namespace Lender

/-- An idle lender with `count` references, on which `start_poll` begins. -/
def starting (count : Nat) (waker : W) : Lender W where
  inner := { count := 3 + 2 * count }
  owner := .polling (.startLoad waker)
  handles := List.replicate count .held

/-- The lender makes no other call, and no clone panics. -/
def onePoll : Lender W → Label W → Bool
  | _, .owner _ | _, .release _ | _, .handle _ => true
  | s, .clone _ => s.inner.count ≤ maxRefcount
  | _, _ => false

/-- What the answer of `start_poll` says. -/
structure FirstPoll (waker : W) (s : Lender W) : Prop where
  ready : s.owner = .idle → s.pending = false →
    s.alive = 0 ∧ s.inner.count = 3 ∧ s.inner.waker = none
  unwoken : 0 < s.alive → s.inner.woken = []
  pending : s.owner = .idle → s.pending = true → (∀ handle ∈ s.handles, handle = .gone) →
    s.inner.woken = [waker] ∧ s.inner.waker = none ∧ s.inner.count = 2

/-! ## The invariant -/

/-- The drops that are about to wake the waker. -/
def waking (s : Lender W) : Nat :=
  tally (fun handle => handle.waking.toNat) s.handles

/-- The drops that have woken it. -/
def finishing (s : Lender W) : Nat :=
  tally (fun handle => handle.finishing.toNat) s.handles

/-- The count, the references, the drops and the waker of a lender. -/
structure Holds (count refs waking finishing : Nat) (cell : Option W) (woken : List W)
    (s : Lender W) : Prop where
  count : s.inner.count = count
  refs : s.alive = refs
  waking : s.waking = waking
  finishing : s.finishing = finishing
  freeing : s.freeing = 0
  cell : s.inner.waker = cell
  woken : s.inner.woken = woken

/-- Where the poll and the drops stand. -/
inductive Begun (waker : W) (s : Lender W) : Prop
  | starting (isOwner : s.owner = .polling (.startLoad waker) ∨
    s.owner = .polling (.startStore waker))
      (unpended : s.pending = false) (refs : Nat) (holds : s.Holds (3 + 2 * refs) refs 0 0 none [])
  | stored (isOwner : s.owner = .polling .startSub) (unpended : s.pending = false) (refs : Nat)
      (holds : s.Holds (3 + 2 * refs) refs 0 0 (some waker) [])
  /-- The poll has left the 1. -/
  | settling (isOwner : s.owner = .polling .startClear) (unpended : s.pending = false)
      (holds : s.Holds 1 0 0 0 (some waker) [])
  | cleared (isOwner : s.owner = .polling .startSwap) (unpended : s.pending = false)
      (holds : s.Holds 1 0 0 0 none [])
  | ready (isOwner : s.owner = .idle) (unpended : s.pending = false)
    (holds : s.Holds 3 0 0 0 none [])
  | waiting (isOwner : s.owner = .idle) (isPending : s.pending = true) (refs : Nat)
      (holds : s.Holds (3 + 2 * refs) (refs + 1) 0 0 (some waker) [])
  /-- The last drop has left the 1. -/
  | announced (isOwner : s.owner = .idle) (isPending : s.pending = true)
      (holds : s.Holds 1 0 1 0 (some waker) [])
  | woken (isOwner : s.owner = .idle) (isPending : s.pending = true)
      (holds : s.Holds 1 0 0 1 none [waker])
  | done (isOwner : s.owner = .idle) (isPending : s.pending = true)
      (holds : s.Holds 2 0 0 0 none [waker])

variable {s s' : Lender W} {waker : W}

theorem Begun.firstPoll (begun : s.Begun waker) : s.FirstPoll waker where
  ready isIdle unpended := by
    induction begun with
    | ready _ _ holds => exact ⟨holds.refs, holds.count, holds.cell⟩
    | waiting _ isPending | announced _ isPending | woken _ isPending | done _ isPending =>
        simp [unpended] at isPending
    | starting isOwner | stored isOwner | settling isOwner | cleared isOwner =>
        simp [isIdle] at isOwner
  unwoken isAlive := by
    induction begun with
    | starting _ _ _ holds | stored _ _ _ holds | settling _ _ holds | cleared _ _ holds
    | ready _ _ holds | waiting _ _ _ holds | announced _ _ holds => exact holds.woken
    | woken _ _ holds | done _ _ holds =>
        have dead := holds.refs
        omega
  pending isIdle isPending gone := by
    induction begun with
    | done _ _ holds => exact ⟨holds.woken, holds.cell, holds.count⟩
    | waiting _ _ _ holds =>
        have isAlive := holds.refs
        have dead := (tallies_of_gone gone).1
        omega
    | announced _ _ holds =>
        have unwoken : s.waking = 0 := tally_of_gone _ gone rfl
        have isWaking := holds.waking
        omega
    | woken _ _ holds =>
        have unwoken : s.finishing = 0 := tally_of_gone _ gone rfl
        have isFinishing := holds.finishing
        omega
    | ready _ unpended | starting _ unpended | stored _ unpended | settling _ unpended
    | cleared _ unpended => simp [isPending] at unpended

/-! ## Steps of the owner -/

/-- The handles stay as they are. -/
theorem Holds.of_same {count refs waking finishing count' : Nat} {cell cell' : Option W}
    {woken woken' : List W} (holds : s.Holds count refs waking finishing cell woken)
    (same : s'.handles = s.handles) (isCount : s'.inner.count = count')
    (isCell : s'.inner.waker = cell') (isWoken : s'.inner.woken = woken') :
    s'.Holds count' refs waking finishing cell' woken' where
  count := isCount
  refs := by rw [← holds.refs, alive, same, alive]
  waking := by rw [← holds.waking, Lender.waking, same, Lender.waking]
  finishing := by rw [← holds.finishing, Lender.finishing, same, Lender.finishing]
  freeing := by rw [← holds.freeing, Lender.freeing, same, Lender.freeing]
  cell := isCell
  woken := isWoken

theorem Begun.owner_step {spurious : Bool} (begun : s.Begun waker)
    (step : s.ownerStep spurious = some s') : s'.Begun waker := by
  induction begun with
  | ready isOwner | waiting isOwner | announced isOwner | woken isOwner | done isOwner =>
      simp [ownerStep, isOwner] at step
  | starting isOwner unpended refs holds =>
      rcases isOwner with isOwner | isOwner
      · by_cases isThree : s.inner.count = 3
        · simp only [ownerStep, isOwner, PollPc.step, if_pos isThree] at step
          obtain rfl := Option.some.inj step
          obtain rfl : refs = 0 := by
            have balance := holds.count
            omega
          exact .ready rfl rfl (holds.of_same rfl holds.count holds.cell holds.woken)
        · simp only [ownerStep, isOwner, PollPc.step, if_neg isThree] at step
          obtain rfl := Option.some.inj step
          exact .starting (.inr rfl) unpended refs
            (holds.of_same rfl holds.count holds.cell holds.woken)
      · simp only [ownerStep, isOwner, PollPc.step] at step
        obtain rfl := Option.some.inj step
        exact .stored rfl unpended refs (holds.of_same rfl holds.count rfl holds.woken)
  | stored isOwner unpended refs holds =>
      have isSub : (s.inner.fetchSub 2).count = 1 + 2 * refs := by
        have balance := holds.count
        have subbed : (s.inner.fetchSub 2).count = s.inner.count - 2 :=
          wrappingSub_of_le (by omega)
        omega
      simp only [ownerStep, isOwner, PollPc.step, isSub] at step
      cases refs with
      | zero =>
          obtain rfl := Option.some.inj step
          exact .settling rfl unpended (holds.of_same rfl isSub holds.cell holds.woken)
      | succ refs =>
          rw [if_neg (by omega)] at step
          obtain rfl := Option.some.inj step
          have isSub : (s.inner.fetchSub 2).count = 3 + 2 * refs := by omega
          exact .waiting rfl rfl refs (holds.of_same rfl isSub holds.cell holds.woken)
  | settling isOwner unpended holds =>
      simp only [ownerStep, isOwner, PollPc.step] at step
      obtain rfl := Option.some.inj step
      exact .cleared rfl unpended (holds.of_same rfl holds.count rfl holds.woken)
  | cleared isOwner unpended holds =>
      simp only [ownerStep, isOwner, PollPc.step, holds.count, if_true] at step
      obtain rfl := Option.some.inj step
      exact .ready rfl rfl (holds.of_same rfl rfl holds.cell holds.woken)

/-! ## Steps of the handles -/

/-- One handle moves. -/
theorem Holds.moved {count refs waking finishing refs' waking' finishing' count' index : Nat}
    {source target : Handle} {inner : Inner W} {cell cell' : Option W} {woken woken' : List W}
    (holds : s.Holds count refs waking finishing cell woken)
    (found : s.handles[index]? = some source) (isCount : inner.count = count')
    (isCell : inner.waker = cell') (isWoken : inner.woken = woken')
    (lent : refs' + source.alive.toNat = refs + target.alive.toNat)
    (wakes : waking' + source.waking.toNat = waking + target.waking.toNat)
    (finishes : finishing' + source.finishing.toNat = finishing + target.finishing.toNat)
    (unburdened : target.isFreeing = source.isFreeing) :
    ({ s with inner, handles := s.handles.set index target } : Lender W).Holds
      count' refs' waking' finishing' cell' woken' := by
  have isAlive := alive_moved found target inner
  have isFreeing := freeing_moved found target inner
  have isWaking : tally (fun handle => handle.waking.toNat) (s.handles.set index target) +
      source.waking.toNat = s.waking + target.waking.toNat := tally_moved _ found target
  have isFinishing : tally (fun handle => handle.finishing.toNat) (s.handles.set index target) +
      source.finishing.toNat = s.finishing + target.finishing.toNat := tally_moved _ found target
  rw [unburdened, holds.freeing] at isFreeing
  rw [holds.refs] at isAlive
  rw [holds.waking] at isWaking
  rw [holds.finishing] at isFinishing
  refine ⟨isCount, ?_, ?_, ?_, ?_, isCell, isWoken⟩
  · omega
  · show tally (fun handle => handle.waking.toNat) (s.handles.set index target) = waking'
    omega
  · show tally (fun handle => handle.finishing.toNat) (s.handles.set index target) = finishing'
    omega
  · omega

/-- A drop that has not yet given its share back moves only where a reference is
counted, and the two points after it only where they are. -/
theorem Holds.found {count refs waking finishing index : Nat} {source : Handle}
    {cell : Option W} {woken : List W} (holds : s.Holds count refs waking finishing cell woken)
    (found : s.handles[index]? = some source) :
    source.alive.toNat ≤ refs ∧ source.waking.toNat ≤ waking ∧
      source.finishing.toNat ≤ finishing ∧ source.isFreeing.toNat = 0 := by
  refine ⟨?_, ?_, ?_, ?_⟩
  · rw [← holds.refs]
    exact alive_of_found found
  · rw [← holds.waking]
    exact le_tally_of_found (fun handle : Handle => handle.waking.toNat) found
  · rw [← holds.finishing]
    exact le_tally_of_found (fun handle : Handle => handle.finishing.toNat) found
  · have isFreeing := freeing_of_found found
    rw [holds.freeing] at isFreeing
    omega

/-- While no drop has found itself the last, a drop gives its share of an odd
count back. -/
theorem Holds.quiet_drops {count refs index : Nat} {cell : Option W} {woken : List W}
    (holds : s.Holds (1 + 2 * count) refs 0 0 cell woken) (enough : refs ≤ count)
    (drops : s.Drops index s') :
    ∃ target : Handle, target.alive = false ∧ target.finishing = false ∧ target.isFreeing = false ∧
      (target.waking = true ↔ count = 1) ∧ 0 < refs ∧
      s.handles[index]? = some (.dropping .sub) ∧ (s.inner.fetchSub 2).count = 2 * count - 1 ∧
      s' = { s with inner := s.inner.fetchSub 2, handles := s.handles.set index target } := by
  have balance := holds.count
  have isSub (isAlive : 1 ≤ refs) : (s.inner.fetchSub 2).count = 2 * count - 1 := by
    have subbed : (s.inner.fetchSub 2).count = s.inner.count - 2 := wrappingSub_of_le (by omega)
    omega
  cases drops with
  | last found isZero =>
      have isAlive : 1 ≤ refs := (holds.found found).1
      have isSub := isSub isAlive
      omega
  | announce found isOne =>
      have isAlive : 1 ≤ refs := (holds.found found).1
      have isSub := isSub isAlive
      refine ⟨_, rfl, rfl, rfl, ?_, isAlive, found, isSub, rfl⟩
      simp only [Handle.waking, true_iff]
      omega
  | leave found other =>
      have isAlive : 1 ≤ refs := (holds.found found).1
      have isSub := isSub isAlive
      refine ⟨_, rfl, rfl, rfl, ?_, isAlive, found, isSub, rfl⟩
      simp only [Handle.waking, Bool.false_eq_true, false_iff]
      omega
  | wake found =>
      have isWaking : 1 ≤ 0 := (holds.found found).2.1
      omega
  | finish found | retry found =>
      have isFinishing : 1 ≤ 0 := (holds.found found).2.2.1
      omega
  | free found =>
      have isFreeing : 1 = 0 := (holds.found found).2.2.2
      omega

/-- With no reference left and no drop under way, no handle moves. -/
theorem Holds.still {count index : Nat} {cell : Option W} {woken : List W}
    (holds : s.Holds count 0 0 0 cell woken) : ¬ s.Drops index s' := by
  intro drops
  cases drops with
  | last found | announce found | leave found =>
      have isAlive : 1 ≤ 0 := (holds.found found).1
      omega
  | wake found =>
      have isWaking : 1 ≤ 0 := (holds.found found).2.1
      omega
  | finish found | retry found =>
      have isFinishing : 1 ≤ 0 := (holds.found found).2.2.1
      omega
  | free found =>
      have isFreeing : 1 = 0 := (holds.found found).2.2.2
      omega

/-- A reference goes that is not the last to be counted. -/
theorem Holds.left {count refs index : Nat} {cell : Option W} {woken : List W}
    (holds : s.Holds (1 + 2 * count) refs 0 0 cell woken) (enough : refs ≤ count)
    (more : refs < count ∨ 1 < count) (drops : s.Drops index s') :
    ∃ less, refs = less + 1 ∧ s'.Holds (2 * count - 1) less 0 0 cell woken ∧ s'.owner = s.owner ∧
      s'.pending = s.pending := by
  obtain ⟨target, dead, unfinished, unburdened, wakes, isAlive, found, isSub, rfl⟩ :=
    holds.quiet_drops enough drops
  have unwoken : target.waking = false := by
    rw [← Bool.not_eq_true, wakes]
    omega
  obtain ⟨less, rfl⟩ := Nat.exists_eq_add_of_le' isAlive
  refine ⟨less, rfl, holds.moved found isSub holds.cell holds.woken ?_ ?_ ?_ ?_, rfl, rfl⟩
  · rw [dead]
    rfl
  · rw [unwoken]
    rfl
  · rw [unfinished]
    rfl
  · rw [unburdened]
    rfl

theorem Begun.handle_step {index : Nat} (begun : s.Begun waker)
    (step : s.handleStep index = some s') : s'.Begun waker := by
  have drops := drops_of_handleStep step
  induction begun with
  | starting isOwner unpended refs holds =>
      have balance : 3 + 2 * refs = 1 + 2 * (refs + 1) := by omega
      rw [balance] at holds
      obtain ⟨less, rfl, holds', sameOwner, samePending⟩ :=
        holds.left (by omega) (.inl (by omega)) drops
      rw [show 2 * (less + 1 + 1) - 1 = 3 + 2 * less by omega] at holds'
      exact .starting (sameOwner ▸ isOwner) (samePending.trans unpended) less holds'
  | stored isOwner unpended refs holds =>
      have balance : 3 + 2 * refs = 1 + 2 * (refs + 1) := by omega
      rw [balance] at holds
      obtain ⟨less, rfl, holds', sameOwner, samePending⟩ :=
        holds.left (by omega) (.inl (by omega)) drops
      rw [show 2 * (less + 1 + 1) - 1 = 3 + 2 * less by omega] at holds'
      exact .stored (sameOwner.trans isOwner) (samePending.trans unpended) less holds'
  | settling _ _ holds | cleared _ _ holds | ready _ _ holds | done _ _ holds =>
      exact absurd drops holds.still
  | waiting isOwner isPending refs holds =>
      have balance : 3 + 2 * refs = 1 + 2 * (refs + 1) := by omega
      rw [balance] at holds
      cases refs with
      | zero =>
          obtain ⟨target, dead, unfinished, unburdened, wakes, _, found, isSub, rfl⟩ :=
            holds.quiet_drops le_rfl drops
          have isWaking : target.waking = true := wakes.mpr rfl
          refine .announced isOwner isPending
            (holds.moved found isSub holds.cell holds.woken ?_ ?_ ?_ ?_)
          · rw [dead]
            rfl
          · rw [isWaking]
            rfl
          · rw [unfinished]
            rfl
          · rw [unburdened]
            rfl
      | succ refs =>
          obtain ⟨less, isLess, holds', sameOwner, samePending⟩ :=
            holds.left le_rfl (.inr (by omega)) drops
          obtain rfl : less = refs + 1 := by omega
          rw [show 2 * (refs + 1 + 1) - 1 = 3 + 2 * refs by omega] at holds'
          exact .waiting (sameOwner.trans isOwner) (samePending.trans isPending) refs holds'
  | announced isOwner isPending holds =>
      cases drops with
      | last found | announce found | leave found =>
          have isAlive : 1 ≤ 0 := (holds.found found).1
          omega
      | wake found =>
          exact .woken isOwner isPending (holds.moved found holds.count rfl
            (by simp [Inner.wakeWaker, holds.cell, holds.woken]) rfl rfl rfl rfl)
      | finish found | retry found =>
          have isFinishing : 1 ≤ 0 := (holds.found found).2.2.1
          omega
      | free found =>
          have isFreeing : 1 = 0 := (holds.found found).2.2.2
          omega
  | woken isOwner isPending holds => 
      cases drops with
      | last found | announce found | leave found =>
          have isAlive : 1 ≤ 0 := (holds.found found).1
          omega
      | wake found =>
          have isWaking : 1 ≤ 0 := (holds.found found).2.1
          omega
      | finish found =>
          exact .done isOwner isPending
            (holds.moved found rfl holds.cell holds.woken rfl rfl rfl rfl)
      | retry found other => exact absurd holds.count other
      | free found =>
          have isFreeing : 1 = 0 := (holds.found found).2.2.2
          omega

/-- A new reference, while there is one already. -/
theorem Holds.lend {count refs waking finishing : Nat} {cell : Option W} {woken : List W}
    (holds : s.Holds count refs waking finishing cell woken) (room : count ≤ maxRefcount) :
    s.lend.Holds (count + 2) (refs + 1) waking finishing cell woken ∧ s.lend.owner = s.owner ∧
      s.lend.pending = s.pending := by
  have fits := maxRefcount_add_lt
  have balance := holds.count
  have added : (s.inner.fetchAdd 2).count = s.inner.count + 2 := wrappingAdd_of_lt (by omega)
  have lent : s.lend = { s with inner := s.inner.fetchAdd 2, handles := s.handles ++ [.held] } := by
    rw [Lender.lend, incCountRef, if_neg (by omega)]
  rw [lent]
  refine ⟨⟨?_, ?_, ?_, ?_, ?_, holds.cell, holds.woken⟩, rfl, rfl⟩
  · exact added.trans (by omega)
  · simp [alive, Handle.alive, ← holds.refs]
  · simp [Lender.waking, Handle.waking, ← holds.waking]
  · simp [Lender.finishing, Handle.finishing, ← holds.finishing]
  · simpa [Lender.freeing, Handle.isFreeing] using holds.freeing

theorem Begun.lend (begun : s.Begun waker) (isAlive : 0 < s.alive)
    (room : s.inner.count ≤ maxRefcount) : s.lend.Begun waker := by
  induction begun with
  | starting isOwner unpended refs holds =>
      obtain ⟨holds', sameOwner, samePending⟩ := holds.lend (holds.count ▸ room)
      exact .starting (sameOwner ▸ isOwner) (samePending.trans unpended) (refs + 1) holds'
  | stored isOwner unpended refs holds =>
      obtain ⟨holds', sameOwner, samePending⟩ := holds.lend (holds.count ▸ room)
      exact .stored (sameOwner.trans isOwner) (samePending.trans unpended) (refs + 1) holds'
  | waiting isOwner isPending refs holds =>
      obtain ⟨holds', sameOwner, samePending⟩ := holds.lend (holds.count ▸ room)
      exact .waiting (sameOwner.trans isOwner) (samePending.trans isPending) (refs + 1) holds'
  | settling _ _ holds | cleared _ _ holds | ready _ _ holds | announced _ _ holds
  | woken _ _ holds | done _ _ holds =>
      have dead := holds.refs
      omega

/-- A drop begins. -/
theorem Begun.released {index : Nat} (begun : s.Begun waker)
    (found : s.handles[index]? = some .held) :
    ({ s with handles := s.handles.set index (.dropping .sub) } : Lender W).Begun waker := by
  have same {count refs waking finishing : Nat} {cell : Option W} {woken : List W}
      (holds : s.Holds count refs waking finishing cell woken) :
      ({ s with handles := s.handles.set index (.dropping .sub) } : Lender W).Holds
        count refs waking finishing cell woken :=
    holds.moved found holds.count holds.cell holds.woken rfl rfl rfl rfl
  induction begun with
  | starting isOwner unpended refs holds => exact .starting isOwner unpended refs (same holds)
  | stored isOwner unpended refs holds => exact .stored isOwner unpended refs (same holds)
  | settling isOwner unpended holds => exact .settling isOwner unpended (same holds)
  | cleared isOwner unpended holds => exact .cleared isOwner unpended (same holds)
  | ready isOwner unpended holds => exact .ready isOwner unpended (same holds)
  | waiting isOwner isPending refs holds => exact .waiting isOwner isPending refs (same holds)
  | announced isOwner isPending holds => exact .announced isOwner isPending (same holds)
  | woken isOwner isPending holds => exact .woken isOwner isPending (same holds)
  | done isOwner isPending holds => exact .done isOwner isPending (same holds)

/-! ## Runs -/

theorem Begun.step {label : Label W} (begun : s.Begun waker) (allowed : s.onePoll label = true)
    (step : Lender.step s label = some s') : s'.Begun waker := by
  cases label with
  | owner spurious => exact begun.owner_step step
  | handle index => exact begun.handle_step step
  | clone index =>
      simp only [Lender.step] at step
      split at step
      · rename_i found
        obtain rfl := Option.some.inj step
        have isAlive : 1 ≤ s.alive := alive_of_found found
        exact begun.lend isAlive (by simpa [Lender.onePoll] using allowed)
      · cases step
  | release index =>
      simp only [Lender.step] at step
      split at step
      · rename_i found
        obtain rfl := Option.some.inj step
        exact begun.released found
      · cases step
  | borrow | tryCollect | poll | cancel | drop => cases allowed

theorem Begun.freeing (begun : s.Begun waker) : s.freeing = 0 := by
  induction begun with
  | starting _ _ _ holds | stored _ _ _ holds | settling _ _ holds | cleared _ _ holds
  | ready _ _ holds | waiting _ _ _ holds | announced _ _ holds | woken _ _ holds
  | done _ _ holds => exact holds.freeing

/-- No drop is told to free what it leaves, so that the two kinds of handles do
the same. -/
theorem Begun.pinned {label : Label W} (begun : s.Begun waker)
    (step : PinShared.step s label = some s') : Lender.step s label = some s' := by
  cases label with
  | handle index =>
      show s.handleStep index = some s'
      simp only [PinShared.step, PinShared.handleStep] at step
      split at step
      · rename_i pc found
        split at step <;> rename_i inner result isStep
        · simp only [handleStep, found, isStep, step]
        · cases result with
          | false => simpa only [handleStep, found, isStep, Bool.false_eq_true, if_false] using step
          | true =>
              have frees : s.handleStep index =
                  some { s with inner, handles := s.handles.set index .freeing } := by
                simp only [handleStep, found, isStep, if_true]
              have unburdened := (begun.handle_step frees).freeing
              have burdened : _ + 0 = s.freeing + 1 := freeing_moved found .freeing inner
              rw [unburdened] at burdened
              omega
      · cases step
  | borrow | tryCollect | poll | cancel | drop | owner | clone | release => exact step

theorem Begun.init (count : Nat) (waker : W) : (Lender.starting count waker).Begun waker := by
  refine .starting (.inl rfl) rfl count ⟨rfl, ?_, ?_, ?_, ?_, rfl, rfl⟩
  · simp [alive, Lender.starting, Handle.alive]
  · simp [Lender.waking, Lender.starting, Handle.waking]
  · simp [Lender.finishing, Lender.starting, Handle.finishing]
  · simp [Lender.freeing, Lender.starting, Handle.isFreeing]

end Lender

/-- The first poll of a `Lender` or a `PinShared` answers by the references, and
the last of them wakes the waker of a poll that is pending. -/
theorem start_poll_answers (count : Nat) (waker : W) :
    (∀ s : Lender W, ReachableUnder Lender.step (fun s label => s.onePoll label = true)
      (Lender.starting count waker) s → s.FirstPoll waker) ∧
    ∀ s : Lender W, ReachableUnder PinShared.step (fun s label => s.onePoll label = true)
      (Lender.starting count waker) s → s.FirstPoll waker := by
  have initial := Lender.Begun.init count waker
  constructor
  · intro s reachable
    have begun : s.Begun waker := by
      apply reachable.invariant initial
      intro state label result begun allowed step
      exact begun.step allowed step
    exact begun.firstPoll
  · intro s reachable
    have begun : s.Begun waker := by
      apply reachable.invariant initial
      intro state label result begun allowed step
      exact begun.step allowed (begun.pinned step)
    exact begun.firstPoll

theorem start_poll_answers_of_drop :
    (∃ s : Lender Nat, s.owner = .idle ∧ s.pending = true ∧ s.handles = [.gone, .gone] ∧
      s.FirstPoll 7) ∧
    ∃ s : Lender Nat, s.owner = .idle ∧ s.pending = false ∧ s.FirstPoll 7 := by
  constructor
  · obtain ⟨s, ran, returned, isPending, gone⟩ : ∃ s ∈
        runFrom (guarded Lender.step Lender.onePoll) (Lender.starting 1 7)
          [.owner false, .clone 0, .owner false, .release 0, .handle 0, .owner false, .release 1,
            .handle 1, .handle 1, .handle 1],
        s.owner = .idle ∧ s.pending = true ∧ s.handles = [.gone, .gone] := by
      decide +kernel
    exact ⟨s, returned, isPending, gone,
      (start_poll_answers 1 7).1 s (reachableUnder_of_runFrom ran)⟩
  · obtain ⟨s, ran, returned, unpended⟩ : ∃ s ∈
        runFrom (guarded PinShared.step Lender.onePoll) (Lender.starting 1 7)
          [.owner false, .owner false, .release 0, .handle 0, .owner false, .owner false,
            .owner false],
        s.owner = .idle ∧ s.pending = false := by
      decide +kernel
    exact ⟨s, returned, unpended, (start_poll_answers 1 7).2 s (reachableUnder_of_runFrom ran)⟩

end Suspend.Shared
