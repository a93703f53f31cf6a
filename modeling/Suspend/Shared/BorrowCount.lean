import Suspend.Shared.Wakers
import Suspend.Shared.Rounds

/-!
# The number of borrows

`borrow_count` halves the count and takes one off for the owner.  That is right
for the bias of an idle lender, and for the one that a finished collection
leaves; while a collection waits, and when the lender has been dropped with
references out, it is one too few.  `Scope::pending_count` is the count that its
`Scoped` handle sees.
-/

namespace Suspend.Shared

open Suspend.Transition

universe v

variable {W : Type v}

/-- `borrow_count`. -/
def Inner.borrowCount (m : Inner W) : Nat :=
  m.count / 2 - 1

/-- Twice a number and a bias of 2 or 3. -/
theorem Inner.borrowCount_eq {m : Inner W} {refs bias : Nat} (balance : m.count = bias + 2 * refs)
    (isOwner : bias = 2 ∨ bias = 3) : m.borrowCount = refs := by
  unfold Inner.borrowCount
  omega

/-- Without the unit of the owner there is one too few. -/
theorem Inner.borrowCount_ne {m : Inner W} {refs bias : Nat} (balance : m.count = bias + 2 * refs)
    (unowned : bias = 0 ∨ bias = 1) (isSome : 0 < refs) : m.borrowCount ≠ refs := by
  unfold Inner.borrowCount
  omega

namespace Lender

/-- No call is in progress, and the lender or a handle is there to ask. -/
def Asks (s : Lender W) : Prop :=
  (∀ handle ∈ s.handles, handle.resting = true) ∧ (s.owner = .idle ∨ s.owner = .gone ∧ 0 < s.alive)

/-- `borrow_count` is the number of handles. -/
def Counts (s : Lender W) : Prop :=
  s.Asks → s.inner.borrowCount = s.alive

variable {s s' : Lender W} {label : Label W}

/-! ## Collections -/

/-- With the shape of an attentive lender, the number is right as long as the lender
is there and no waker is registered. -/
theorem Shape.borrowCount (shape : s.Shape) (asks : s.Asks) :
    s.inner.borrowCount = s.alive ↔ s.owner = .idle ∧ s.inner.waker = none := by
  obtain ⟨rests, isOwner⟩ := asks
  have quiet := (quiet_of_resting rests).1
  have right {refs bias : Nat} (numbers : s.Numbers (bias + 2 * refs) refs 0 0 none)
      (isBias : bias = 2 ∨ bias = 3) (isIdle : s.owner = .idle) :
      s.inner.borrowCount = s.alive ↔ s.owner = .idle ∧ s.inner.waker = none := by
    rw [numbers.isRefs]
    exact iff_of_true (Inner.borrowCount_eq numbers.isCount isBias) ⟨isIdle, numbers.isCell⟩
  have wrong {refs bias : Nat} {cell : Option W}
      (numbers : s.Numbers (bias + 2 * refs) refs 0 0 cell)
      (isBias : bias = 0 ∨ bias = 1) (isSome : 0 < refs)
      (bad : ¬ (s.owner = .idle ∧ s.inner.waker = none)) :
      s.inner.borrowCount = s.alive ↔ s.owner = .idle ∧ s.inner.waker = none := by
    rw [numbers.isRefs]
    exact iff_of_false (Inner.borrowCount_ne numbers.isCount isBias isSome) bad
  rcases isOwner with isIdle | ⟨isGone, isAlive⟩
  · cases shape with
    | idle refs _ _ _ numbers => exact right numbers (.inr rfl) isIdle
    | waiting refs _ isSome _ _ waker numbers =>
        refine wrong numbers (.inr rfl) isSome ?_
        rw [numbers.isCell]
        simp
    | collected refs _ _ numbers | done refs _ _ numbers => exact right numbers (.inl rfl) isIdle
    | abandoned refs _ _ numbers => exact right numbers (.inr rfl) isIdle
    | announced _ _ _ numbers | woken _ _ numbers =>
        obtain ⟨_, holds⟩ := numbers
        have isNotifying := notifying_eq s
        rw [holds.waking, holds.finishing] at isNotifying
        omega
    | stored _ _ _ isOwner | raised _ _ _ isOwner | swapped _ _ _ isOwner | resolving isOwner
    | dropping _ isOwner | leaking isOwner | freeing isOwner | outlived _ isOwner
    | gone isOwner => simp [isIdle, Owner.Raised, Owner.Resolving] at isOwner
  · cases shape with
    | outlived refs _ numbers =>
        have unowned : s.Numbers (0 + 2 * refs) refs 0 0 none := by
          rw [Nat.zero_add]
          exact numbers
        refine wrong unowned (.inl rfl) ?_ ?_
        · rw [← numbers.isRefs]
          exact isAlive
        · simp [isGone]
    | gone _ dead => omega
    | idle _ _ isOwner | stored _ _ _ isOwner | waiting _ _ _ isOwner | raised _ _ _ isOwner
    | swapped _ _ _ isOwner | announced isOwner | woken isOwner | collected _ isOwner
    | resolving isOwner | done _ isOwner | abandoned _ isOwner | dropping _ isOwner
    | leaking isOwner | freeing isOwner =>
        simp [isGone, Owner.Looks, Owner.Raised, Owner.Resolving, Owner.Awaiting] at isOwner

/-- The lender of an attentive run has its shape. -/
theorem shape_of_reachable (reachable : ReachableUnder Lender.step
    (fun s label => (s.wholeCalls label && s.attentive label) = true) Lender.init s) :
    s.Shape := by
  have booked : ∃ stored, ({ lender := s, stored } : Wakers W).Books := by
    apply reachable.invariant
    · exact ⟨[], Wakers.Books.init⟩
    · rintro state label result ⟨stored, books⟩ careful step
      rw [Bool.and_eq_true] at careful
      cases label with
      | owner spurious =>
          exact ⟨_, books.owner_step step⟩
      | borrow | tryCollect | poll | cancel | drop | clone | release | handle =>
          exact ⟨stored, books.step careful.1 careful.2 (by simp [Wakers.step, step])⟩
  obtain ⟨_, books⟩ := booked
  exact books.shape

/-! ## No collection -/

/-- The lender is polled, and dropped, when no reference is out, and no borrow
panics. -/
def unhurried : Lender W → Label W → Bool
  | s, .borrow | s, .clone _ => s.inner.count ≤ maxRefcount
  | s, .poll _ | s, .drop => s.alive = 0
  | _, _ => true

end Lender

/-- Every drop gives its share of the count back, and that is all. -/
def Handle.calm : Handle → Bool
  | held | dropping .sub | gone => true
  | _ => false

/-- A lender that nothing is collected from. -/
inductive Lender.Plain (s : Lender W) : Prop
  | lent (isOwner : s.owner.Looks ∨ (∃ waker, s.owner = .polling (.startLoad waker)) ∧ s.alive = 0)
      (unpended : s.pending = false) (balance : s.inner.count = 3 + 2 * s.alive)
      (small : s.inner.count ≤ maxRefcount + 2) (calm : ∀ handle ∈ s.handles, handle.calm = true)
  | left (isOwner : s.owner = .dropping ∨ s.owner = .freeing ∨ s.owner = .gone)
      (unlent : s.alive = 0) (calm : ∀ handle ∈ s.handles, handle.calm = true)

namespace Lender

variable {s s' : Lender W} {label : Label W}

theorem Plain.counts (plain : s.Plain) : s.Counts := by
  rintro ⟨_, isIdle | ⟨_, isAlive⟩⟩
  · cases plain with
    | lent _ _ balance => exact Inner.borrowCount_eq balance (.inr rfl)
    | left isOwner => simp [isIdle] at isOwner
  · cases plain with
    | lent _ _ balance => exact Inner.borrowCount_eq balance (.inr rfl)
    | left _ unlent => omega

theorem Plain.init : (Lender.init : Lender W).Plain := by
  refine .lent (.inl (.inl rfl)) rfl rfl ?_ (by simp [Lender.init])
  have small := three_le_maxRefcount
  show 3 ≤ maxRefcount + 2
  omega

/-- A handle that is not gone is alive. -/
theorem Plain.unlent_found {index : Nat} {handle : Handle} (calm : handle.calm = true)
    (unlent : s.alive = 0) (found : s.handles[index]? = some handle) : handle = .gone := by
  have isAlive := alive_of_found found
  rw [unlent] at isAlive
  cases handle with
  | dropping pc => cases pc <;> simp_all [Handle.calm, Handle.alive]
  | held => simp [Handle.alive] at isAlive
  | freeing => cases calm
  | gone => rfl

theorem Plain.owner_step {spurious : Bool} (plain : s.Plain)
    (step : s.ownerStep spurious = some s') : s'.Plain := by
  cases plain with
  | lent isOwner unpended balance small calm =>
      rcases isOwner with (isIdle | isTry) | ⟨⟨waker, isPoll⟩, unlent⟩
      · simp [ownerStep, isIdle] at step
      · simp only [ownerStep, isTry, TryPc.step, unpended] at step
        by_cases isThree : s.inner.count = 3 <;>
          simp [isThree] at step <;> subst step <;>
          exact .lent (.inl (.inl rfl)) rfl balance small calm
      · have isThree : s.inner.count = 3 := by omega
        simp only [ownerStep, isPoll, PollPc.step, if_pos isThree] at step
        obtain rfl := Option.some.inj step
        exact .lent (.inl (.inl rfl)) rfl balance small calm
  | left isOwner unlent calm =>
      rcases isOwner with isDropping | isFreeing | isGone
      · simp only [ownerStep, isDropping] at step
        obtain rfl := Option.some.inj step
        refine .left ?_ unlent calm
        simp only
        split
        · exact .inr (.inl rfl)
        · exact .inr (.inr rfl)
      · simp only [ownerStep, isFreeing] at step
        obtain rfl := Option.some.inj step
        exact .left (.inr (.inr rfl)) unlent calm
      · simp [ownerStep, isGone] at step

theorem Plain.handle_step {index : Nat} (plain : s.Plain)
    (step : s.handleStep index = some s') : s'.Plain := by
  have drops := drops_of_handleStep step
  have calmly {handle : Handle} (calm : ∀ handle ∈ s.handles, handle.calm = true)
      (found : s.handles[index]? = some handle) : handle.calm = true :=
    calm handle (List.mem_of_getElem? found)
  cases plain with
  | lent isOwner unpended balance small calm =>
      have less (found : s.handles[index]? = some (.dropping .sub)) :
          1 ≤ s.alive ∧ (s.inner.fetchSub 2).count = 1 + 2 * s.alive := by
        have isAlive : 1 ≤ s.alive := alive_of_found found
        have subbed : (s.inner.fetchSub 2).count = s.inner.count - 2 := wrappingSub_of_le (by omega)
        omega
      cases drops with
      | last found isZero =>
          have := less found
          omega
      | announce found isOne =>
          have := less found
          omega
      | leave found other =>
          obtain ⟨isAlive, subbed⟩ := less found
          have moved := alive_moved found .gone (s.inner.fetchSub 2)
          simp only [Handle.alive, Bool.toNat_true, Bool.toNat_false] at moved
          refine .lent ?_ unpended ?_ ?_ (forall_moved calm rfl)
          · rcases isOwner with looks | ⟨_, unlent⟩
            · exact .inl looks
            · omega
          · simp only
            omega
          · simp only
            omega
      | wake found | finish found | retry found | free found => cases calmly calm found
  | left isOwner unlent calm =>
      cases drops with
      | last found | announce found | leave found =>
          cases Plain.unlent_found (calmly calm found) unlent found
      | wake found | finish found | retry found | free found => cases calmly calm found

theorem Plain.lend (plain : s.Plain) (there : s.owner = .idle ∨ 0 < s.alive)
    (room : s.inner.count ≤ maxRefcount) : s.lend.Plain := by
  have fits := maxRefcount_add_lt
  cases plain with
  | lent isOwner unpended balance small calm =>
      have added : (s.inner.fetchAdd 2).count = s.inner.count + 2 := wrappingAdd_of_lt (by omega)
      have one : ({ s with inner := s.inner.fetchAdd 2, handles := s.handles ++ [.held] } :
          Lender W).alive = s.alive + 1 := by
        simp [Lender.alive, Handle.alive]
      simp only [Lender.lend, incCountRef, if_neg (Nat.not_lt.mpr room)]
      refine .lent ?_ unpended ?_ ?_ ?_
      · rcases isOwner with looks | ⟨polls, unlent⟩
        · exact .inl looks
        · rcases there with isIdle | isAlive
          · exact .inl (.inl isIdle)
          · omega
      · rw [one]
        simp only
        omega
      · simp only
        omega
      · intro handle isHandle
        rcases List.mem_append.mp isHandle with earlier | isNew
        · exact calm handle earlier
        · rw [List.mem_singleton.mp isNew]
          rfl
  | left isOwner unlent =>
      rcases there with isIdle | isAlive
      · simp [isIdle] at isOwner
      · omega

theorem Plain.call (plain : s.Plain) (isIdle : s.owner = .idle)
    (unhurried : s.unhurried label = true) (step : s.call label = some s') : s'.Plain := by
  cases plain with
  | lent isOwner unpended balance small calm =>
      cases label with
      | borrow =>
          obtain rfl := Option.some.inj step
          exact Plain.lend (.lent isOwner unpended balance small calm) (.inl isIdle)
            (of_decide_eq_true unhurried)
      | tryCollect =>
          obtain rfl := Option.some.inj step
          exact .lent (.inl (.inr rfl)) unpended balance small calm
      | poll waker =>
          simp only [Lender.call, unpended, Bool.false_eq_true, if_false] at step
          obtain rfl := Option.some.inj step
          exact .lent (.inr ⟨⟨waker, rfl⟩, of_decide_eq_true unhurried⟩) rfl balance small calm
      | cancel =>
          simp only [Lender.call, unpended, Bool.false_eq_true, if_false] at step
          obtain rfl := Option.some.inj step
          exact .lent isOwner unpended balance small calm
      | drop =>
          simp only [Lender.call, unpended, Bool.false_eq_true, if_false] at step
          obtain rfl := Option.some.inj step
          exact .left (.inl rfl) (of_decide_eq_true unhurried) calm
      | owner | clone | release | handle => cases step
  | left isOwner => simp [isIdle] at isOwner

theorem Plain.release {index : Nat} (plain : s.Plain) (found : s.handles[index]? = some .held) :
    ({ s with handles := s.handles.set index (.dropping .sub) } : Lender W).Plain := by
  have same := alive_moved found (.dropping .sub) s.inner
  have same := Nat.add_right_cancel same
  cases plain with
  | lent isOwner unpended balance small calm =>
      refine .lent ?_ unpended ?_ small (forall_moved calm rfl)
      · rw [same]
        exact isOwner
      · rw [same]
        exact balance
  | left isOwner unlent calm => exact .left isOwner (same.trans unlent) (forall_moved calm rfl)

theorem Plain.step (plain : s.Plain) (unhurried : s.unhurried label = true)
    (step : Lender.step s label = some s') : s'.Plain := by
  cases label with
  | owner spurious => exact plain.owner_step step
  | handle index => exact plain.handle_step step
  | clone index =>
      simp only [Lender.step] at step
      split at step
      · rename_i found
        obtain rfl := Option.some.inj step
        have isAlive : 1 ≤ s.alive := alive_of_found found
        exact plain.lend (.inr isAlive) (of_decide_eq_true unhurried)
      · cases step
  | release index =>
      simp only [Lender.step] at step
      split at step
      · rename_i found
        obtain rfl := Option.some.inj step
        exact plain.release found
      · cases step
  | borrow | tryCollect | poll | cancel | drop =>
      simp only [Lender.step] at step
      split at step
      · exact plain.call ‹_› unhurried step
      · cases step

theorem plain_of_reachable (reachable : ReachableUnder Lender.step
    (fun s label => s.unhurried label = true) Lender.init s) : s.Plain := by
  apply reachable.invariant Plain.init
  intro state label result plain unhurried step
  exact plain.step unhurried step

/-! ## Every other call miscounts -/

/-- A borrow that panics leaves the count of one more. -/
theorem Plain.crowded (plain : s.Plain) (isIdle : s.owner = .idle)
    (rests : ∀ handle ∈ s.handles, handle.resting = true) (crowded : maxRefcount < s.inner.count) :
    ¬ s.lend.Counts := by
  have fits := maxRefcount_add_lt
  intro counts
  cases plain with
  | lent _ _ balance small =>
      have added : (s.inner.fetchAdd 2).count = s.inner.count + 2 := wrappingAdd_of_lt (by omega)
      have panics : s.lend = { s with inner := (s.inner.fetchAdd 2).panic } := by
        simp only [Lender.lend, incCountRef, if_pos crowded]
      rw [panics] at counts
      have same : (s.inner.fetchAdd 2).count / 2 - 1 = s.alive := counts ⟨rests, .inl isIdle⟩
      omega
  | left isOwner => simp [isIdle] at isOwner

/-- A first poll that finds references is pending, with one taken off. -/
theorem Plain.polled (waker : W) (plain : s.Plain) (isIdle : s.owner = .idle)
    (rests : ∀ handle ∈ s.handles, handle.resting = true) (isLent : s.alive ≠ 0) :
    ∃ s' : Lender W, runFrom Lender.step { s with owner := .polling (.startLoad waker) }
      [.owner false, .owner false, .owner false] = some s' ∧ ¬ s'.Counts := by
  cases plain with
  | lent _ unpended balance =>
      have notThree : ¬ s.inner.count = 3 := by omega
      have subbed : wrappingSub s.inner.count 2 = 1 + 2 * s.alive := by
        rw [wrappingSub_of_le (by omega)]
        omega
      have notOne : ¬ wrappingSub s.inner.count 2 = 1 := by omega
      refine ⟨{ s with
        inner := (s.inner.access.storeWaker waker).fetchSub 2, pending := true }, ?_, ?_⟩
      · simp [runFrom, Lender.step, ownerStep, PollPc.step, notThree, Inner.fetchSub,
          Inner.storeWaker, Inner.access, notOne, isIdle]
      · intro counts
        have same : wrappingSub s.inner.count 2 / 2 - 1 = s.alive :=
          counts ⟨rests, .inl isIdle⟩
        omega
  | left isOwner => simp [isIdle] at isOwner

/-- A drop that finds references takes the owner's share off. -/
theorem Plain.dropped (plain : s.Plain) (isIdle : s.owner = .idle)
    (rests : ∀ handle ∈ s.handles, handle.resting = true) (isLent : s.alive ≠ 0) :
    ∃ s' : Lender W, runFrom Lender.step { s with owner := .dropping } [.owner false] = some s' ∧
      ¬ s'.Counts := by
  cases plain with
  | lent _ unpended balance =>
      have notThree : ¬ s.inner.count = 3 := by omega
      have subbed : wrappingSub s.inner.count 3 = 2 * s.alive := by
        rw [wrappingSub_of_le (by omega)]
        omega
      refine ⟨{ s with inner := s.inner.fetchSub 3, owner := .gone }, ?_, ?_⟩
      · simp [runFrom, Lender.step, ownerStep, notThree]
      · intro counts
        have same : wrappingSub s.inner.count 3 / 2 - 1 = s.alive :=
          counts ⟨rests, .inr ⟨rfl, Nat.pos_of_ne_zero isLent⟩⟩
        omega
  | left isOwner => simp [isIdle] at isOwner

/-- A whole call that is hurried leads to a wrong number. -/
theorem Plain.hurried (plain : s.Plain) (whole : s.wholeCalls label = true)
    (hurried : s.unhurried label = false) (step : Lender.step s label = some s') :
    ∃ (s'' : Lender W) (labels : List (Label W)), (∀ label ∈ labels, label = .owner false) ∧
      runFrom Lender.step s' labels = some s'' ∧ ¬ s''.Counts := by
  cases label with
  | owner | handle | release | tryCollect | cancel => cases hurried
  | clone index =>
      have crowded : maxRefcount < s.inner.count := by simpa [Lender.unhurried] using hurried
      obtain ⟨rests, between⟩ := between_of_wholeCalls whole (by simp) (by simp)
      simp only [Lender.step] at step
      split at step
      · rename_i found
        obtain rfl := Option.some.inj step
        have isAlive : 1 ≤ s.alive := alive_of_found found
        have isIdle : s.owner = .idle := by
          rcases between with isIdle | isGone
          · exact isIdle
          · cases plain with
            | lent isOwner => simp [isGone, Owner.Looks] at isOwner
            | left _ unlent => omega
        exact ⟨s.lend, [], by simp, rfl, plain.crowded isIdle rests crowded⟩
      · cases step
  | borrow =>
      have crowded : maxRefcount < s.inner.count := by simpa [Lender.unhurried] using hurried
      obtain ⟨rests, _⟩ := between_of_wholeCalls whole (by simp) (by simp)
      simp only [Lender.step] at step
      split at step
      · rename_i isIdle
        obtain rfl := Option.some.inj step
        exact ⟨s.lend, [], by simp, rfl, plain.crowded isIdle rests crowded⟩
      · cases step
  | poll waker =>
      have isLent : s.alive ≠ 0 := by simpa [Lender.unhurried] using hurried
      obtain ⟨rests, _⟩ := between_of_wholeCalls whole (by simp) (by simp)
      simp only [Lender.step] at step
      split at step
      · rename_i isIdle
        have unpended : s.pending = false := by
          cases plain with
          | lent _ unpended => exact unpended
          | left isOwner => simp [isIdle] at isOwner
        simp only [Lender.call, unpended, Bool.false_eq_true, if_false] at step
        obtain rfl := Option.some.inj step
        obtain ⟨s'', ran, wrong⟩ := plain.polled waker isIdle rests isLent
        refine ⟨s'', [.owner false, .owner false, .owner false], by simp, ?_, wrong⟩
        simpa [unpended] using ran
      · cases step
  | drop =>
      have isLent : s.alive ≠ 0 := by simpa [Lender.unhurried] using hurried
      obtain ⟨rests, _⟩ := between_of_wholeCalls whole (by simp) (by simp)
      simp only [Lender.step] at step
      split at step
      · rename_i isIdle
        have unpended : s.pending = false := by
          cases plain with
          | lent _ unpended => exact unpended
          | left isOwner => simp [isIdle] at isOwner
        simp only [Lender.call, unpended, Bool.false_eq_true, if_false] at step
        obtain rfl := Option.some.inj step
        obtain ⟨s'', ran, wrong⟩ := plain.dropped isIdle rests isLent
        refine ⟨s'', [.owner false], by simp, ?_, wrong⟩
        simpa [unpended] using ran
      · cases step

end Lender

/-! ## Values shared from the stack -/

/-- The call of the lender that a step of `with` is. -/
def RoundLabel.lender : RoundLabel W → Label W
  | enter => .borrow
  | leave => .tryCollect
  | poll waker => .poll waker
  | owner spurious => .owner spurious
  | clone index => .clone index
  | release index => .release index
  | handle index => .handle index

namespace Rounds

/-- The calling thread collects, or is between its calls. -/
structure Placed (s : Rounds W) : Prop where
  between : s.stage ≠ .collecting → s.lender.owner = .idle
  attends : s.lender.owner.Attends

variable {s s' : Rounds W} {label : RoundLabel W}

theorem Placed.ownerStep {spurious : Bool} (placed : s.Placed) (collects : s.stage = .collecting)
    (step : s.ownerStep spurious = some s') :
    s.lender.ownerStep spurious = some s'.lender ∧ s'.Placed := by
  obtain ⟨lender, stepped, rfl⟩ := Option.map_eq_some_iff.mp step
  obtain ⟨attends, _, grants⟩ := Lender.owner_hands placed.attends stepped
  split
  · rename_i longer
    refine ⟨stepped, ?_, attends⟩
    intro _
    rcases grants with same | ⟨isIdle, _⟩
    · rw [same] at longer
      exact absurd longer (lt_irrefl _)
    · exact isIdle
  · exact ⟨stepped, fun elsewhere => absurd collects elsewhere, attends⟩

/-- The steps of `with` are those of a lender that is there. -/
theorem Placed.step (placed : s.Placed)
    (nonzero : ∀ index : Nat, s.lender.handles[index]? = some (.dropping .sub) →
      (s.lender.inner.fetchSub 2).count ≠ 0)
    (step : Rounds.step s label = some s') :
    Lender.step s.lender label.lender = some s'.lender ∧ s'.Placed := by
  obtain ⟨between, attends⟩ := placed
  have lends (stage : WithStage) (isIdle : s.lender.owner = .idle) :
      ({ lender := s.lender.lend, stage } : Rounds W).Placed := by
    have sameOwner := s.lender.lend_owner.1
    constructor
    · intro _
      exact sameOwner.trans isIdle
    · rw [sameOwner]
      exact attends
  cases label with
  | enter =>
      simp only [Rounds.step] at step
      split at step
      · rename_i stage
        have isIdle := between (by simp [stage])
        obtain rfl := Option.some.inj step
        exact ⟨by simp [RoundLabel.lender, Lender.step, isIdle, Lender.call], lends _ isIdle⟩
      · cases step
  | leave =>
      simp only [Rounds.step] at step
      split at step
      · rename_i stage
        have isIdle := between (by simp [stage])
        obtain ⟨lender, called, rfl⟩ := Option.map_eq_some_iff.mp step
        obtain rfl := Option.some.inj called
        exact ⟨by simp [RoundLabel.lender, Lender.step, isIdle, Lender.call], by simp, trivial⟩
      · cases step
  | poll waker =>
      simp only [Rounds.step] at step
      split at step
      · rename_i stage isIdle
        obtain ⟨lender, called, rfl⟩ := Option.map_eq_some_iff.mp step
        refine ⟨?_, by simp [stage], ?_⟩
        · simpa [RoundLabel.lender, Lender.step, isIdle] using called
        · obtain rfl := Option.some.inj called
          exact trivial
      · cases step
  | owner spurious =>
      simp only [Rounds.step] at step
      split at step
      · exact Placed.ownerStep ⟨between, attends⟩ ‹_› step
      · cases step
  | clone index =>
      obtain ⟨lender, stepped, rfl⟩ := Option.map_eq_some_iff.mp step
      refine ⟨stepped, ?_⟩
      simp only [PinShared.step, Lender.step] at stepped
      split at stepped
      · obtain rfl := Option.some.inj stepped
        have sameOwner := s.lender.lend_owner.1
        constructor
        · intro elsewhere
          exact sameOwner.trans (between elsewhere)
        · simp only [sameOwner]
          exact attends
      · cases stepped
  | release index =>
      obtain ⟨lender, stepped, rfl⟩ := Option.map_eq_some_iff.mp step
      refine ⟨stepped, ?_⟩
      simp only [PinShared.step, Lender.step] at stepped
      split at stepped
      · obtain rfl := Option.some.inj stepped
        exact ⟨between, attends⟩
      · cases stepped
  | handle index =>
      obtain ⟨lender, stepped, rfl⟩ := Option.map_eq_some_iff.mp step
      have stepped' := Lender.handleStep_of_scoped (nonzero index) stepped
      have drops := Lender.drops_of_handleStep stepped'
      have sameOwner : lender.owner = s.lender.owner := by cases drops <;> rfl
      refine ⟨stepped', ?_, ?_⟩
      · intro elsewhere
        exact sameOwner.trans (between elsewhere)
      · simp only [sameOwner]
        exact attends

/-- What holds of a lender in every run holds of one that `with` shares. -/
theorem lender_of_reachable (cond : Lender W → Label W → Prop)
    (nonzero : ∀ lender : Lender W, ReachableUnder Lender.step cond Lender.init lender →
      lender.owner.Attends → ∀ index : Nat, lender.handles[index]? = some (.dropping .sub) →
        (lender.inner.fetchSub 2).count ≠ 0)
    (reachable : ReachableUnder Rounds.step (fun s label => cond s.lender label.lender)
      Rounds.init s) :
    ReachableUnder Lender.step cond Lender.init s.lender ∧ s.Placed := by
  apply reachable.invariant
  · exact ⟨ReachableUnder.refl _ _ _, fun _ => rfl, trivial⟩
  · rintro state label result ⟨earlier, placed⟩ careful step
    obtain ⟨stepped, placed'⟩ := placed.step (nonzero _ earlier placed.attends) step
    exact ⟨earlier.tail careful stepped, placed'⟩

end Rounds

namespace Lender

variable {s : Lender W} {index : Nat}

/-- A drop leaves some count while the lender is there. -/
theorem Plain.nonzero (plain : s.Plain) (found : s.handles[index]? = some (.dropping .sub)) :
    (s.inner.fetchSub 2).count ≠ 0 := by
  have isAlive : 1 ≤ s.alive := alive_of_found found
  cases plain with
  | lent _ _ balance =>
      have subbed : (s.inner.fetchSub 2).count = s.inner.count - 2 := wrappingSub_of_le (by omega)
      omega
  | left _ unlent => omega

theorem Shape.nonzero (shape : s.Shape) (attends : s.owner.Attends)
    (found : s.handles[index]? = some (.dropping .sub)) : (s.inner.fetchSub 2).count ≠ 0 := by
  have isAlive : 1 ≤ s.alive := alive_of_found found
  have more {count refs waking finishing : Nat} {cell : Option W}
      (numbers : s.Numbers count refs waking finishing cell) (enough : 0 < refs → 3 ≤ count) :
      (s.inner.fetchSub 2).count ≠ 0 := by
    have isCount := numbers.isCount
    have isRefs := numbers.isRefs
    have many := enough (by omega)
    have subbed : (s.inner.fetchSub 2).count = s.inner.count - 2 := wrappingSub_of_le (by omega)
    omega
  cases shape with
  | idle _ _ _ _ numbers | stored _ _ _ _ _ _ numbers | waiting _ _ _ _ _ _ numbers
  | raised _ _ _ _ _ _ numbers | swapped _ _ _ _ _ numbers | announced _ _ _ numbers
  | woken _ _ numbers | collected _ _ _ numbers | resolving _ _ numbers | done _ _ _ numbers
  | abandoned _ _ _ numbers => exact more numbers (by omega)
  | dropping _ isOwner | leaking isOwner | freeing isOwner | outlived _ isOwner | gone isOwner =>
      rw [isOwner] at attends
      exact attends.elim

end Lender

/-- As long as no collection begins with references out, and the lender is not
dropped with some, `borrow_count` is the number of handles, and any other call
leads to where it is not.  While no collection is taken up again that has been
abandoned or is finished, it is the number of handles exactly when the lender is
there and no collection waits. -/
theorem borrow_count_counts :
    (∀ s : Lender W, ReachableUnder Lender.step (fun s label => s.unhurried label = true)
        Lender.init s →
      s.Counts ∧
        ∀ (label : Label W) (s' : Lender W), s.wholeCalls label = true →
          s.unhurried label = false → Lender.step s label = some s' →
            ∃ (s'' : Lender W) (labels : List (Label W)), (∀ label ∈ labels, label = .owner false) ∧
              runFrom Lender.step s' labels = some s'' ∧ ¬ s''.Counts) ∧
    (∀ s : Lender W, ReachableUnder Lender.step
        (fun s label => (s.wholeCalls label && s.attentive label) = true) Lender.init s →
      s.Asks → (s.inner.borrowCount = s.alive ↔ s.owner = .idle ∧ s.inner.waker = none)) ∧
    (∀ s : Rounds W, ReachableUnder Rounds.step
        (fun s label => s.lender.unhurried label.lender = true) Rounds.init s →
      s.lender.Counts) ∧
    ∀ s : Rounds W, ReachableUnder Rounds.step
        (fun s label => (s.lender.wholeCalls label.lender &&
          s.lender.attentive label.lender) = true) Rounds.init s →
      s.lender.Asks →
        (s.lender.inner.borrowCount = s.lender.alive ↔ s.lender.inner.waker = none) := by
  refine ⟨?_, ?_, ?_, ?_⟩
  · intro s reachable
    have plain := Lender.plain_of_reachable reachable
    refine ⟨plain.counts, ?_⟩
    intro label s' whole hurried step
    exact plain.hurried whole hurried step
  · intro s reachable asks
    exact (Lender.shape_of_reachable reachable).borrowCount asks
  · intro s reachable
    have lender := Rounds.lender_of_reachable
      (fun s label => s.unhurried label = true)
      (fun lender earlier _ _ found => (Lender.plain_of_reachable earlier).nonzero found) reachable
    exact (Lender.plain_of_reachable lender.1).counts
  · intro s reachable asks
    obtain ⟨lender, placed⟩ := Rounds.lender_of_reachable
      (fun s label => (s.wholeCalls label && s.attentive label) = true)
      (fun lender earlier attends _ found =>
        (Lender.shape_of_reachable earlier).nonzero attends found) reachable
    have counts := (Lender.shape_of_reachable lender).borrowCount asks
    have isIdle : s.lender.owner = .idle := by
      rcases asks.2 with isIdle | ⟨isGone, _⟩
      · exact isIdle
      · have attends := placed.attends
        rw [isGone] at attends
        exact attends.elim
    rw [counts, and_iff_right isIdle]

/-- Two borrows of which one is dropped; and a collection that has waited, and then
has not. -/
theorem borrow_count_counts_one :
    (∃ s : Lender Nat, s.Counts ∧ s.alive = 1 ∧ s.inner.borrowCount = 1) ∧
    (∃ s : Lender Nat, s.alive = 1 ∧ s.inner.borrowCount ≠ 1) ∧
    (∃ s : Rounds Nat, s.stage = .inside ∧ s.lender.Counts ∧ s.lender.inner.borrowCount = 2) ∧
    ∃ s : Rounds Nat,
      s.stage = .collecting ∧ s.lender.alive = 1 ∧ s.lender.inner.borrowCount ≠ 1 := by
  obtain ⟨plain, attentive, pinned, collecting⟩ := borrow_count_counts (W := Nat)
  refine ⟨?_, ?_, ?_, ?_⟩
  · obtain ⟨s, ran, isAlive, isOne⟩ : ∃ s ∈
        runFrom (guarded Lender.step Lender.unhurried) (Lender.init : Lender Nat)
          [.borrow, .clone 0, .release 0, .handle 0],
        s.alive = 1 ∧ s.inner.borrowCount = 1 := by
      decide +kernel
    exact ⟨s, (plain s (reachableUnder_of_runFrom ran)).1, isAlive, isOne⟩
  · obtain ⟨s, ran, isAlive, rests, isIdle, isWaker⟩ : ∃ s ∈
        runFrom (guarded Lender.step fun s label => s.wholeCalls label && s.attentive label)
          (Lender.init : Lender Nat)
          [.borrow, .poll 0, .owner false, .owner false, .owner false],
        s.alive = 1 ∧ (∀ handle ∈ s.handles, handle.resting = true) ∧ s.owner = .idle ∧
          s.inner.waker = some 0 := by
      decide +kernel
    have counts := attentive s (reachableUnder_of_runFrom ran) ⟨rests, .inl isIdle⟩
    refine ⟨s, isAlive, ?_⟩
    intro isOne
    have empty := (counts.mp (isOne.trans isAlive.symm)).2
    rw [isWaker] at empty
    cases empty
  · obtain ⟨s, ran, inside, isTwo⟩ : ∃ s ∈
        runFrom (guarded Rounds.step fun s label => s.lender.unhurried label.lender)
          (Rounds.init : Rounds Nat) [.enter, .clone 0],
        s.stage = .inside ∧ s.lender.inner.borrowCount = 2 := by
      decide +kernel
    exact ⟨s, inside, pinned s (reachableUnder_of_runFrom ran), isTwo⟩
  · obtain ⟨s, ran, collects, isAlive, rests, isIdle, isWaker⟩ : ∃ s ∈
        runFrom (guarded Rounds.step fun s label =>
            s.lender.wholeCalls label.lender && s.lender.attentive label.lender)
          (Rounds.init : Rounds Nat)
          [.enter, .leave, .owner false, .poll 0, .owner false, .owner false, .owner false],
        s.stage = .collecting ∧ s.lender.alive = 1 ∧
          (∀ handle ∈ s.lender.handles, handle.resting = true) ∧ s.lender.owner = .idle ∧
          s.lender.inner.waker = some 0 := by
      decide +kernel
    have counts := collecting s (reachableUnder_of_runFrom ran) ⟨rests, .inl isIdle⟩
    refine ⟨s, collects, isAlive, ?_⟩
    intro isOne
    have empty := counts.mp (isOne.trans isAlive.symm)
    rw [isWaker] at empty
    cases empty

/-- A collection waits for one borrow, and `borrow_count` is 0. -/
theorem borrow_count_miscounts : ¬ ∀ s : Lender Nat,
    ReachableUnder Lender.step (fun s label => s.wholeCalls label = true) Lender.init s →
      s.Counts := by
  intro counts
  obtain ⟨s, ran, isAlive, rests, isIdle, isZero⟩ : ∃ s ∈
      runFrom (guarded Lender.step Lender.wholeCalls) (Lender.init : Lender Nat)
        [.borrow, .poll 0, .owner false, .owner false, .owner false],
      s.alive = 1 ∧ (∀ handle ∈ s.handles, handle.resting = true) ∧ s.owner = .idle ∧
        s.inner.borrowCount = 0 := by
    decide +kernel
  have isOne := counts s (reachableUnder_of_runFrom ran) ⟨rests, .inl isIdle⟩
  rw [isZero, isAlive] at isOne
  cases isOne

end Suspend.Shared
