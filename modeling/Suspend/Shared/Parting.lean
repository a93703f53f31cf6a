import Suspend.Shared.Lender

/-!
# A lender dropped during its collection

The drop of the lender takes the count over with a reference of its own, so
that the drops that come after it find themselves the last at 0.  A drop that
has already left the 1 stays responsible for the allocation, which the answer
of `cancel_poll` does not say when it has set the count to 2 in its place.
-/

namespace Suspend.Shared

open Suspend.Transition

universe v

variable {W : Type v}

namespace Lender

/-- The owner drops the lender of a pending collection with `count` handles. -/
def parting (count : Nat) (waker : W) : Lender W where
  inner := { count := 1 + 2 * count, waker := some waker }
  pending := true
  owner := .closing .load
  handles := List.replicate count .held

/-- The lender and its handles are only dropped. -/
def onlyDrops : Lender W → Label W → Bool
  | _, .owner _ | _, .release _ | _, .handle _ => true
  | _, _ => false

/-- `cancel_poll` does not find the count of a drop that is about to wake the
owner when it sets it to 2. -/
def unclaimed : Lender W → Label W → Bool
  | s, .owner spurious =>
      match s.owner with
      | .closing .settle => s.inner.count ≠ 1 || spurious
      | _ => true
  | _, _ => true

/-- The allocation is freed once, and not used after that. -/
structure PartsWell (s : Lender W) : Prop where
  fresh : s.inner.stale = false
  atMostOnce : s.inner.freed ≤ 1
  once : s.owner = .gone → (∀ handle ∈ s.handles, handle = .gone) → s.inner.freed = 1

/-! ## The invariant -/

/-- The allocation, the references and the drops. -/
structure Shares (freed refs notifying freeing : Nat) (s : Lender W) : Prop where
  fresh : s.inner.stale = false
  freed : s.inner.freed = freed
  refs : s.alive = refs
  notifying : s.notifying = notifying
  freeing : s.freeing = freeing

/-- Where the drop of the lender stands. -/
inductive Parting (s : Lender W) : Prop
  /-- The owner has not yet settled with the references. -/
  | waiting (isOwner : s.owner = .closing .load ∨ s.owner = .closing .settle ∨
        ∃ seen, seen ≠ 1 ∧ seen ≠ 2 ∧ s.owner = .closing (.raise seen))
      (refs notifying : Nat) (small : s.inner.count ≤ maxRefcount + 2)
      (balance : s.inner.count = 1 + 2 * refs ∧
      (0 < refs ∧ notifying = 0 ∨ refs = 0 ∧ notifying = 1) ∨
        s.inner.count = 2 ∧ refs = 0 ∧ notifying = 0)
      (shares : s.Shares 0 refs notifying 0)
  /-- The owner has the allocation, and the references take their part back. -/
  | claimed (isOwner : s.owner = .closing .clear ∨ s.owner = .dropping) (refs : Nat)
      (balance : s.inner.count = 3 + 2 * refs) (shares : s.Shares 0 refs 0 0)
  | freeing (isOwner : s.owner = .freeing) (shares : s.Shares 0 0 0 0)
  /-- The references have outlived the lender. -/
  | outlived (isOwner : s.owner = .gone) (refs : Nat) (balance : s.inner.count = 2 * (refs + 1))
      (shares : s.Shares 0 (refs + 1) 0 0)
  | last (isOwner : s.owner = .gone) (shares : s.Shares 0 0 0 1)
  | finished (isOwner : s.owner = .gone) (shares : s.Shares 1 0 0 0)

variable {s s' : Lender W}

theorem Parting.partsWell (parting : s.Parting) : s.PartsWell where
  fresh := by
    cases parting with
    | waiting _ _ _ _ _ shares | claimed _ _ _ shares | freeing _ shares | outlived _ _ _ shares
    | last _ shares | finished _ shares => exact shares.fresh
  atMostOnce := by
    cases parting with
    | waiting _ _ _ _ _ shares | claimed _ _ _ shares | freeing _ shares | outlived _ _ _ shares
    | last _ shares | finished _ shares =>
        have freed := shares.freed
        omega
  once isGone allGone := by
    obtain ⟨dead, quiet, unburdened⟩ := tallies_of_gone allGone
    cases parting with
    | waiting isOwner => simp [isGone] at isOwner
    | claimed isOwner => simp [isGone] at isOwner
    | freeing isOwner => simp [isGone] at isOwner
    | outlived _ _ _ shares =>
        have isAlive := shares.refs
        omega
    | last _ shares =>
        have burdened := shares.freeing
        omega
    | finished _ shares => exact shares.freed

/-! ## Steps of the owner -/

/-- An access of the owner to an allocation that is not freed. -/
theorem Shares.of_same {freed refs notifying freeing freed' : Nat}
    (shares : s.Shares freed refs notifying freeing) (same : s'.handles = s.handles)
    (fresh : s'.inner.stale = false) (isFreed : s'.inner.freed = freed') :
    s'.Shares freed' refs notifying freeing where
  fresh := fresh
  freed := isFreed
  refs := by rw [← shares.refs, alive, same, alive]
  notifying := by rw [← shares.notifying, Lender.notifying, same, Lender.notifying]
  freeing := by rw [← shares.freeing, Lender.freeing, same, Lender.freeing]

/-- An access to an allocation that is not freed leaves it fresh. -/
theorem Shares.access {refs notifying freeing : Nat} (shares : s.Shares 0 refs notifying freeing) :
    (s.inner.stale || s.inner.freed != 0) = false := by
  rw [shares.fresh, shares.freed]
  rfl

/-- The loop of `cancel_poll` goes on with the count it has read. -/
theorem Parting.looped {refs notifying : Nat} (small : s.inner.count ≤ maxRefcount + 2)
    (balance : s.inner.count = 1 + 2 * refs ∧
    (0 < refs ∧ notifying = 0 ∨ refs = 0 ∧ notifying = 1) ∨
      s.inner.count = 2 ∧ refs = 0 ∧ notifying = 0)
    (shares : s.Shares 0 refs notifying 0)
    (step : (match (s.inner.access, CancelPc.loop false s.inner.count) with
      | (inner, .goto pc) => some { s with inner, owner := .closing pc }
      | (inner, .ret (.done isLast)) =>
          some { s with inner, owner := if isLast then .freeing else .dropping }
      | (inner, .ret .panic) => some { s with inner := inner.panic, owner := .gone }) = some s') :
    s'.Parting := by
  have fresh := shares.access
  simp only [CancelPc.loop, Bool.false_eq_true, if_false] at step
  split_ifs at step with isTwo isOne
  · obtain rfl := Option.some.inj step
    obtain ⟨_, rfl, rfl⟩ := balance.resolve_left (by omega)
    exact .freeing rfl (shares.of_same rfl fresh shares.freed)
  · obtain rfl := Option.some.inj step
    exact .waiting (.inr (.inl rfl)) refs notifying small balance
      (shares.of_same rfl fresh shares.freed)
  · obtain rfl := Option.some.inj step
    exact .waiting (.inr (.inr ⟨_, isOne, isTwo, rfl⟩)) refs notifying small balance
      (shares.of_same rfl fresh shares.freed)

theorem Parting.owner_step {spurious : Bool} (parting : s.Parting)
    (unclaimed : s.unclaimed (.owner spurious) = true) (step : s.ownerStep spurious = some s') :
    s'.Parting := by
  cases parting with
  | waiting isOwner refs notifying small balance shares =>
      have fresh := shares.access
      rcases isOwner with isOwner | isOwner | ⟨seen, notOne, notTwo, isOwner⟩
      · simp only [ownerStep, isOwner, CancelPc.step] at step
        exact looped small balance shares step
      · have kept : ¬ (s.inner.count = 1 ∧ !spurious) := by
          simpa [Lender.unclaimed, isOwner, ← imp_iff_not_or] using unclaimed
        simp only [ownerStep, isOwner, CancelPc.step, if_neg kept] at step
        exact looped small balance shares step
      · by_cases exchanged : s.inner.count = seen ∧ !spurious
        · simp only [ownerStep, isOwner, CancelPc.step, if_pos exchanged] at step
          obtain rfl := Option.some.inj step
          have isSeen := exchanged.1
          have range := maxRefcount_add_lt
          have added : wrappingAdd seen 2 = seen + 2 := wrappingAdd_of_lt (by omega)
          obtain rfl : notifying = 0 := by omega
          have taken : wrappingAdd seen 2 = 3 + 2 * refs := by omega
          exact .claimed (.inl rfl) refs taken (shares.of_same rfl fresh shares.freed)
        · simp only [ownerStep, isOwner, CancelPc.step, if_neg exchanged] at step
          exact looped small balance shares step
  | claimed isOwner refs balance shares =>
      have fresh := shares.access
      rcases isOwner with isOwner | isOwner
      · simp only [ownerStep, isOwner, CancelPc.step] at step
        obtain rfl := Option.some.inj step
        exact .claimed (.inr rfl) refs balance (shares.of_same rfl fresh shares.freed)
      · simp only [ownerStep, isOwner] at step
        obtain rfl := Option.some.inj step
        have subbed : (s.inner.fetchSub 3).count = s.inner.count - 3 :=
          wrappingSub_of_le (by omega)
        cases refs with
        | zero => exact .freeing (if_pos balance) (shares.of_same rfl fresh shares.freed)
        | succ refs =>
            have rest : (s.inner.fetchSub 3).count = 2 * (refs + 1) := by omega
            exact .outlived (if_neg (by omega)) refs rest (shares.of_same rfl fresh shares.freed)
  | freeing isOwner shares =>
      simp only [ownerStep, isOwner] at step
      obtain rfl := Option.some.inj step
      have once : s.inner.dealloc.freed = 1 := by rw [Inner.dealloc, shares.freed]
      exact .finished rfl (shares.of_same rfl shares.fresh once)
  | outlived isOwner | last isOwner | finished isOwner => simp [ownerStep, isOwner] at step

/-! ## Steps of the handles -/

/-- One handle moves. -/
theorem Shares.moved {freed refs notifying freeing freed' refs' notifying' freeing' index : Nat}
    {source target : Handle} {inner : Inner W} (shares : s.Shares freed refs notifying freeing)
    (found : s.handles[index]? = some source) (fresh : inner.stale = false)
    (isFreed : inner.freed = freed')
    (lent : refs' + source.alive.toNat = refs + target.alive.toNat)
    (notifies : notifying' + source.notifying.toNat = notifying + target.notifying.toNat)
    (frees : freeing' + source.isFreeing.toNat = freeing + target.isFreeing.toNat) :
    ({ s with inner, handles := s.handles.set index target } : Lender W).Shares
      freed' refs' notifying' freeing' := by
  have isAlive := alive_moved found target inner
  have isNotifying := notifying_moved found target inner
  have isFreeing := freeing_moved found target inner
  rw [shares.refs] at isAlive
  rw [shares.notifying] at isNotifying
  rw [shares.freeing] at isFreeing
  exact ⟨fresh, isFreed, by omega, by omega, by omega⟩

theorem Shares.found {freed refs notifying freeing index : Nat} {source : Handle}
    (shares : s.Shares freed refs notifying freeing) (found : s.handles[index]? = some source) :
    source.alive.toNat ≤ refs ∧ source.notifying.toNat ≤ notifying ∧
      source.isFreeing.toNat ≤ freeing := by
  rw [← shares.refs, ← shares.notifying, ← shares.freeing]
  exact ⟨alive_of_found found, notifying_of_found found, freeing_of_found found⟩

theorem Parting.handle_step {index : Nat} (parting : s.Parting)
    (step : s.handleStep index = some s') : s'.Parting := by
  have drops := drops_of_handleStep step
  have subbed (enough : 2 ≤ s.inner.count) : (s.inner.fetchSub 2).count = s.inner.count - 2 :=
    wrappingSub_of_le enough
  cases drops with
  | last found isZero =>
      cases parting with
      | waiting _ refs _ _ balance shares =>
          have isAlive : 1 ≤ refs := (shares.found found).1
          have subbed := subbed (by omega)
          omega
      | claimed _ refs balance shares =>
          have subbed := subbed (by omega)
          omega
      | freeing _ shares | last _ shares | finished _ shares =>
          have isAlive : 1 ≤ 0 := (shares.found found).1
          omega
      | outlived isOwner refs balance shares =>
          have subbed := subbed (by omega)
          obtain rfl : refs = 0 := by omega
          exact .last isOwner (shares.moved found shares.access shares.freed rfl rfl rfl)
  | announce found isOne =>
      cases parting with
      | waiting isOwner refs notifying small balance shares =>
          have isAlive : 1 ≤ refs := (shares.found found).1
          have subbed := subbed (by omega)
          obtain rfl : refs = 1 := by omega
          obtain rfl : notifying = 0 := by omega
          have smaller : (s.inner.fetchSub 2).count ≤ maxRefcount + 2 := by omega
          exact .waiting isOwner 0 1 smaller (.inl ⟨isOne, .inr ⟨rfl, rfl⟩⟩)
            (shares.moved found shares.access shares.freed rfl rfl rfl)
      | claimed _ refs balance shares =>
          have isAlive : 1 ≤ refs := (shares.found found).1
          have subbed := subbed (by omega)
          omega
      | freeing _ shares | last _ shares | finished _ shares =>
          have isAlive : 1 ≤ 0 := (shares.found found).1
          omega
      | outlived _ refs balance shares =>
          have subbed := subbed (by omega)
          omega
  | leave found other =>
      cases parting with
      | waiting isOwner refs notifying small balance shares =>
          have isAlive : 1 ≤ refs := (shares.found found).1
          have subbed := subbed (by omega)
          obtain ⟨less, rfl⟩ := Nat.exists_eq_add_of_le' isAlive
          obtain rfl : notifying = 0 := by omega
          have smaller : (s.inner.fetchSub 2).count ≤ maxRefcount + 2 := by omega
          have balance' : (s.inner.fetchSub 2).count = 1 + 2 * less := by omega
          have isMore : 0 < less := by omega
          exact .waiting isOwner less 0 smaller (.inl ⟨balance', .inl ⟨isMore, rfl⟩⟩)
            (shares.moved found shares.access shares.freed rfl rfl rfl)
      | claimed isOwner refs balance shares =>
          have isAlive : 1 ≤ refs := (shares.found found).1
          have subbed := subbed (by omega)
          obtain ⟨less, rfl⟩ := Nat.exists_eq_add_of_le' isAlive
          have balance' : (s.inner.fetchSub 2).count = 3 + 2 * less := by omega
          exact .claimed isOwner less balance'
            (shares.moved found shares.access shares.freed rfl rfl rfl)
      | freeing _ shares | last _ shares | finished _ shares =>
          have isAlive : 1 ≤ 0 := (shares.found found).1
          omega
      | outlived isOwner refs balance shares =>
          have subbed := subbed (by omega)
          obtain ⟨less, rfl⟩ : ∃ less, refs = less + 1 := Nat.exists_eq_succ_of_ne_zero (by omega)
          have balance' : (s.inner.fetchSub 2).count = 2 * (less + 1) := by omega
          exact .outlived isOwner less balance'
            (shares.moved found shares.access shares.freed rfl rfl rfl)
  | wake found =>
      cases parting with
      | waiting isOwner refs notifying small balance shares =>
          exact .waiting isOwner refs notifying small balance
            (shares.moved found shares.access shares.freed rfl rfl rfl)
      | claimed _ _ _ shares | freeing _ shares | outlived _ _ _ shares | last _ shares
      | finished _ shares =>
          have isNotifying : 1 ≤ 0 := (shares.found found).2.1
          omega
  | finish found isOne =>
      cases parting with
      | waiting isOwner refs notifying small balance shares =>
          have isNotifying : 1 ≤ notifying := (shares.found found).2.1
          obtain rfl : refs = 0 := by omega
          obtain rfl : notifying = 1 := by omega
          have isTwo : (s.inner.store 2).count = 2 := rfl
          have smaller : (s.inner.store 2).count ≤ maxRefcount + 2 := by omega
          exact .waiting isOwner 0 0 smaller (.inr ⟨isTwo, rfl, rfl⟩)
            (shares.moved found shares.access shares.freed rfl rfl rfl)
      | claimed _ _ _ shares | freeing _ shares | outlived _ _ _ shares | last _ shares
      | finished _ shares =>
          have isNotifying : 1 ≤ 0 := (shares.found found).2.1
          omega
  | retry found other =>
      cases parting with
      | waiting _ refs notifying _ balance shares =>
          have isNotifying : 1 ≤ notifying := (shares.found found).2.1
          omega
      | claimed _ _ _ shares | freeing _ shares | outlived _ _ _ shares | last _ shares
      | finished _ shares =>
          have isNotifying : 1 ≤ 0 := (shares.found found).2.1
          omega
  | free found =>
      cases parting with
      | last isOwner shares =>
          have once : s.inner.dealloc.freed = 1 := by rw [Inner.dealloc, shares.freed]
          exact .finished isOwner (shares.moved found shares.fresh once rfl rfl rfl)
      | waiting _ _ _ _ _ shares | claimed _ _ _ shares | freeing _ shares | outlived _ _ _ shares
      | finished _ shares =>
          have isFreeing : 1 ≤ 0 := (shares.found found).2.2
          omega

/-! ## Runs -/

theorem Parting.step {label : Label W} (parting : s.Parting) (allowed : s.onlyDrops label = true)
    (unclaimed : s.unclaimed label = true) (step : Lender.step s label = some s') :
    s'.Parting := by
  cases label with
  | owner spurious => exact parting.owner_step unclaimed step
  | handle index => exact parting.handle_step step
  | release index =>
      simp only [Lender.step] at step
      split at step
      · rename_i found
        obtain rfl := Option.some.inj step
        have same {freed refs notifying freeing : Nat}
            (shares : s.Shares freed refs notifying freeing) :
            ({ s with handles := s.handles.set index (.dropping .sub) } : Lender W).Shares
              freed refs notifying freeing :=
          shares.moved found shares.fresh shares.freed rfl rfl rfl
        cases parting with
        | waiting isOwner refs notifying small balance shares =>
            exact .waiting isOwner refs notifying small balance (same shares)
        | claimed isOwner refs balance shares => exact .claimed isOwner refs balance (same shares)
        | freeing isOwner shares => exact .freeing isOwner (same shares)
        | outlived isOwner refs balance shares => exact .outlived isOwner refs balance (same shares)
        | last isOwner shares => exact .last isOwner (same shares)
        | finished isOwner shares => exact .finished isOwner (same shares)
      · cases step
  | borrow | tryCollect | poll | cancel | drop | clone => cases allowed

theorem Parting.init {count : Nat} (waker : W) (isSome : 0 < count)
    (room : 2 * count ≤ maxRefcount) : (Lender.parting count waker).Parting := by
  have small : 1 + 2 * count ≤ maxRefcount + 2 := by omega
  refine .waiting (.inl rfl) count 0 small (.inl ⟨rfl, .inl ⟨isSome, rfl⟩⟩) ⟨rfl, rfl, ?_, ?_, ?_⟩
  · simp [alive, Lender.parting, Handle.alive]
  · simp [notifying, Lender.parting, Handle.notifying]
  · simp [Lender.freeing, Lender.parting, Handle.isFreeing]

end Lender

/-- A lender dropped during its collection parts well with its handles, while
`cancel_poll` does not set the count for a drop that is about to wake it. -/
theorem drop_lender_parts {s : Lender W} {count : Nat} {waker : W} (isSome : 0 < count)
    (room : 2 * count ≤ maxRefcount)
    (reachable : ReachableUnder Lender.step
      (fun s label => (s.onlyDrops label && s.unclaimed label) = true)
      (Lender.parting count waker) s) : s.PartsWell := by
  have parting : s.Parting := by
    apply reachable.invariant (Lender.Parting.init waker isSome room)
    intro state label result parting careful step
    rw [Bool.and_eq_true] at careful
    exact parting.step careful.1 careful.2 step
  exact parting.partsWell

/-- The owner and the drop it has interrupted both free the allocation. -/
theorem drop_lender_frees_twice : ¬ ∀ (count waker : Nat) (s : Lender Nat), 0 < count →
    2 * count ≤ maxRefcount →
    ReachableUnder Lender.step (fun s label => s.onlyDrops label = true)
      (Lender.parting count waker) s → s.PartsWell := by
  intro always
  obtain ⟨s, ran, freed⟩ : ∃ s ∈ runFrom (guarded Lender.step Lender.onlyDrops)
      (Lender.parting 1 0)
      [.release 0, .handle 0, .owner false, .owner false, .handle 0, .handle 0, .handle 0,
        .owner false, .handle 0],
      s.inner.freed = 2 := by
    decide +kernel
  have atMostOnce := (always 1 0 s (by decide) (by decide)
    (reachableUnder_of_runFrom ran)).atMostOnce
  omega

theorem drop_lender_parts_of_two : ∃ s : Lender Nat, s.owner = .gone ∧ s.handles = [.gone, .gone] ∧
    s.PartsWell := by
  obtain ⟨s, ran, isGone, gone⟩ : ∃ s ∈
      runFrom (guarded Lender.step fun s label => s.onlyDrops label && s.unclaimed label)
        (Lender.parting 2 0)
        [.release 0, .owner false, .handle 0, .owner false, .owner false, .owner false,
          .owner false, .release 1, .handle 1, .handle 1],
      s.owner = .gone ∧ s.handles = [.gone, .gone] := by
    decide +kernel
  exact ⟨s, isGone, gone, drop_lender_parts (by decide) (by decide) (reachableUnder_of_runFrom ran)⟩

end Suspend.Shared
