import Suspend.Thread.Blocking

/-!
# Two threads that block on what they share

What one of them does is, for the other, a step by somebody else, and wakes it
where it wakes its waker.  So each of the two, taken by itself, is a thread that
blocks while others go on.
-/

namespace Suspend.Thread

open Suspend.Transition
open Suspend.Listen
open Suspend.Park

universe u v

variable {C : Type u} {A : Type v} {σ L P : Type} [DecidableEq P]
  {polled other first second : Polled C A} {impl : WakingParker σ L P}

/-- A call that is not the thread's own. -/
def BlockedLabel.foreign (polled : Polled C A) : BlockedLabel A → Bool
  | call label => !polled.own label
  | park | go _ | unpark | notify _ => false

/-! ## What a step does to the polled -/

namespace Blocked

variable {s next peer heard : Blocked C σ} {label : BlockedLabel A}

omit [DecidableEq P] in
/-- What the thread does after a park that returned `result`. -/
def resumes (polled : Polled C A) (s : Blocked C σ) (result : ParkResult) : Option A :=
  match polled.loop, result with
  | .blockOnPoll, .timedOut =>
      if polled.waits s.call = some true then some (polled.resume true) else none
  | _, _ => some (polled.resume false)

def makes (polled : Polled C A) (impl : WakingParker σ L P) (s : Blocked C σ) :
    BlockedLabel A → Option A
  | .call label => some label
  | .go fate =>
      (impl.step s.parker (impl.go fate)).bind fun parker =>
        if impl.place parker ≠ impl.idle then none
        else (impl.results parker).getLast?.bind (s.resumes polled)
  | .park | .unpark | .notify _ => none

/-- A thread hears of what another has done. -/
def hear (polled : Polled C A) (impl : WakingParker σ L P) (s : Blocked C σ) :
    Option A → Option (Blocked C σ)
  | none => some s
  | some label => Blocked.step polled impl s (.call label)

omit [DecidableEq P] in
theorem resumes_of_again {parker : σ} (step : s.again polled parker = some next) :
    polled.step s.call (polled.resume false) = some next.call := by
  obtain ⟨call, polledAgain, rfl⟩ := Option.map_eq_some_iff.mp step
  exact polledAgain

omit [DecidableEq P] in
theorem resumes_of_returned {parker : σ} {result : ParkResult}
    (step : s.returned polled parker result = some next) :
    (s.resumes polled result).elim (next.call = s.call) fun made =>
      polled.step s.call made = some next.call := by
  simp only [returned] at step
  simp only [resumes]
  split at step
  · rename_i isLoop
    simp only [isLoop, Option.elim]
    have resumed := resumes_of_again step
    exact resumed
  · rename_i isLoop
    simp only [isLoop, Option.elim]
    have resumed := resumes_of_again step
    exact resumed
  · rename_i isLoop
    simp only [isLoop, Option.elim]
    have resumed := resumes_of_again step
    exact resumed
  · rename_i isLoop
    simp only [isLoop]
    split at step
    · rename_i timed
      obtain ⟨call, goneOn, rfl⟩ := Option.map_eq_some_iff.mp step
      rw [if_pos timed]
      exact goneOn
    · rename_i untimed
      cases step
      rw [if_neg untimed]
      rfl

theorem makes_of_step (step : Blocked.step polled impl s label = some next) :
    (s.makes polled impl label).elim (next.call = s.call) fun made =>
      polled.step s.call made = some next.call := by
  cases label with
  | call label =>
      simp only [Blocked.step] at step
      split at step
      · cases step
      · obtain ⟨call, called, step⟩ := Option.bind_eq_some_iff.mp step
        split at step
        · obtain ⟨parker, _, rfl⟩ := Option.map_eq_some_iff.mp step
          exact called
        · cases step
          exact called
  | park =>
      obtain ⟨timeout, _, step⟩ := Option.bind_eq_some_iff.mp step
      obtain ⟨parker, _, rfl⟩ := Option.map_eq_some_iff.mp step
      rfl
  | go fate =>
      obtain ⟨parker, went, step⟩ := Option.bind_eq_some_iff.mp step
      simp only [makes, went, Option.bind_some]
      split at step
      · rename_i within
        cases step
        rw [if_pos within]
        rfl
      · rename_i isIdle
        obtain ⟨result, isLast, step⟩ := Option.bind_eq_some_iff.mp step
        rw [if_neg isIdle, isLast]
        exact resumes_of_returned step
  | unpark | notify index =>
      obtain ⟨parker, _, rfl⟩ := Option.map_eq_some_iff.mp step
      rfl

omit [DecidableEq P] in
theorem eq_of_resumes {result : ParkResult} {made : A}
    (resumes : s.resumes polled result = some made) :
    ∃ timedOut, made = polled.resume timedOut := by
  simp only [Blocked.resumes] at resumes
  split at resumes
  · split at resumes
    · exact ⟨true, (Option.some.inj resumes).symm⟩
    · cases resumes
  · exact ⟨false, (Option.some.inj resumes).symm⟩

/-- A call that the thread makes by itself is a poll. -/
theorem resume_of_makes {made : A} (makes : s.makes polled impl label = some made) :
    label = .call made ∨ ∃ timedOut, made = polled.resume timedOut := by
  cases label with
  | call label =>
      obtain rfl := Option.some.inj makes
      exact .inl rfl
  | go fate =>
      obtain ⟨parker, _, makes⟩ := Option.bind_eq_some_iff.mp makes
      split at makes
      · cases makes
      · obtain ⟨result, _, makes⟩ := Option.bind_eq_some_iff.mp makes
        exact .inr (eq_of_resumes makes)
  | park | unpark | notify index => cases makes

/-- What the thread does by itself is its own. -/
theorem own_of_makes (resumes : ∀ timedOut, polled.own (polled.resume timedOut) = true) {made : A}
    (called : label.foreign polled = false) (makes : s.makes polled impl label = some made) :
    polled.own made = true := by
  rcases resume_of_makes makes with rfl | ⟨timedOut, rfl⟩
  · simpa [BlockedLabel.foreign] using called
  · exact resumes timedOut

end Blocked

/-! ## The two threads -/

/-- Two threads, each with what is shared as it sees it. -/
structure Pair (C : Type u) (σ : Type) where
  first : Blocked C σ
  second : Blocked C σ
  deriving DecidableEq, Repr

inductive PairLabel (A : Type v) where
  | first (label : BlockedLabel A)
  | second (label : BlockedLabel A)
  deriving DecidableEq, Repr

namespace Pair

/-- One thread moves, and its peer hears of it. -/
def move (polled other : Polled C A) (impl : WakingParker σ L P) (s peer : Blocked C σ)
    (label : BlockedLabel A) : Option (Blocked C σ × Blocked C σ) :=
  if label.foreign polled then none
  else
    (Blocked.step polled impl s label).bind fun next =>
      (peer.hear other impl (s.makes polled impl label)).map fun heard => (next, heard)

def step (first second : Polled C A) (impl : WakingParker σ L P) :
    Step (Pair C σ) (PairLabel A)
  | s, .first label =>
      (move first second impl s.first s.second label).map fun (next, heard) =>
        { first := next, second := heard }
  | s, .second label =>
      (move second first impl s.second s.first label).map fun (next, heard) =>
        { first := heard, second := next }

/-- Two threads at rest. -/
def init (impl : WakingParker σ L P) (call : C) : Pair C σ where
  first := { call, parker := impl.init }
  second := { call, parker := impl.init }

/-- Each step of what is shared is one of the two threads'. -/
structure Shares (first second : Polled C A) : Prop where
  step : second.step = first.step
  own : ∀ label, second.own label = !first.own label
  first : ∀ timedOut, first.own (first.resume timedOut) = true
  second : ∀ timedOut, second.own (second.resume timedOut) = true

theorem Shares.symm (shares : Shares first second) : Shares second first where
  step := shares.step.symm
  own label := by simp [shares.own]
  first := shares.second
  second := shares.first

/-- One thread moves as it would by itself, and the other sees one step at most
of somebody else. -/
theorem move_eq_some {s peer next heard : Blocked C σ} {label : BlockedLabel A}
    (shares : Shares polled other) (same : s.call = peer.call)
    (moved : move polled other impl s peer label = some (next, heard)) :
    Blocked.step polled impl s label = some next ∧ next.call = heard.call ∧
      (heard = peer ∨ ∃ made, Blocked.step other impl peer (.call made) = some heard) := by
  simp only [move] at moved
  split at moved
  · cases moved
  · obtain ⟨after, step, moved⟩ := Option.bind_eq_some_iff.mp moved
    obtain ⟨told, hears, isPair⟩ := Option.map_eq_some_iff.mp moved
    obtain ⟨rfl, rfl⟩ := Prod.mk.inj isPair
    have called := Blocked.makes_of_step step
    cases makes : s.makes polled impl label with
    | none =>
        rw [makes] at hears called
        obtain rfl := Option.some.inj hears
        exact ⟨step, called.trans same, .inl rfl⟩
    | some made =>
        rw [makes] at hears called
        have stepped : Blocked.step other impl peer (.call made) = some told := hears
        have known : polled.step peer.call made = some told.call := by
          have known := Blocked.makes_of_step stepped
          rw [shares.step] at known
          exact known
        rw [← same] at known
        exact ⟨step, Option.some.inj (called.symm.trans known), .inr ⟨made, stepped⟩⟩

/-- Nor does the other ever hold it up. -/
theorem move_of_step {s peer next : Blocked C σ} {label : BlockedLabel A}
    (shares : Shares polled other) (lawful : impl.Lawful) (same : s.call = peer.call)
    (called : label.foreign polled = false) (step : Blocked.step polled impl s label = some next) :
    ∃ heard, move polled other impl s peer label = some (next, heard) := by
  suffices hears : ∃ heard, peer.hear other impl (s.makes polled impl label) = some heard by
    obtain ⟨heard, hears⟩ := hears
    exact ⟨heard, by simp [move, called, step, hears]⟩
  have made := Blocked.makes_of_step step
  cases makes : s.makes polled impl label with
  | none => exact ⟨peer, rfl⟩
  | some label =>
      rw [makes] at made
      have isOwn := Blocked.own_of_makes shares.first called makes
      have others : ∀ label' ∈ [label], other.own label' = false := by
        simp [shares.own, isOwn]
      have ran : runFrom other.step peer.call [label] = some next.call := by
        rw [runFrom_cons, shares.step, ← same, made]
        rfl
      obtain ⟨heard, hears, _⟩ := Blocked.follow other lawful others ran
      refine ⟨heard, ?_⟩
      simpa [runFrom_cons, Blocked.hear] using hears

/-! ## Runs -/

variable {call : C} {s : Pair C σ}

/-- Each thread runs as a thread that blocks by itself. -/
structure Apart (first second : Polled C A) (impl : WakingParker σ L P) (call : C)
    (s : Pair C σ) : Prop where
  first : Reachable (Blocked.step first impl) { call, parker := impl.init } s.first
  second : Reachable (Blocked.step second impl) { call, parker := impl.init } s.second
  same : s.first.call = s.second.call

theorem Apart.of_reachable (shares : Shares first second)
    (reachable : Reachable (Pair.step first second impl) (init impl call) s) :
    Apart first second impl call s := by
  apply reachable.invariant
  · exact ⟨ReachableUnder.refl _ _ _, ReachableUnder.refl _ _ _, rfl⟩
  · intro before label after apart _ step
    cases label with
    | first label =>
        obtain ⟨⟨next, heard⟩, moved, rfl⟩ := Option.map_eq_some_iff.mp step
        obtain ⟨stepped, same, hears⟩ := move_eq_some shares apart.same moved
        refine ⟨apart.first.tail trivial stepped, ?_, same⟩
        rcases hears with rfl | ⟨made, hears⟩
        · exact apart.second
        · exact apart.second.tail trivial hears
    | second label =>
        obtain ⟨⟨next, heard⟩, moved, rfl⟩ := Option.map_eq_some_iff.mp step
        obtain ⟨stepped, same, hears⟩ := move_eq_some shares.symm apart.same.symm moved
        refine ⟨?_, apart.second.tail trivial stepped, same.symm⟩
        rcases hears with rfl | ⟨made, hears⟩
        · exact apart.first
        · exact apart.first.tail trivial hears

/-! ## Wakes that arrive -/

/-- A notification of one thread's listener is nothing to the other. -/
theorem move_notify {s peer : Blocked C σ} {index : Nat} {parker : σ}
    (notified : impl.step s.parker (impl.notify index) = some parker) :
    move polled other impl s peer (.notify index) = some ({ s with parker }, peer) := by
  simp [move, BlockedLabel.foreign, Blocked.step, notified, Blocked.makes, Blocked.hear]

/-- The `unpark` calls of the first thread's listener go on by themselves. -/
theorem run_first {notifiers : List Nat} {parker : σ} {s : Pair C σ}
    (ran : runFrom impl.step s.first.parker (notifiers.map impl.notify) = some parker) :
    runFrom (Pair.step first second impl) s (notifiers.map fun index => .first (.notify index)) =
      some { s with first := { s.first with parker } } := by
  have notifies (source : σ) (index : Nat) (result : σ)
      (notified : impl.step source (impl.notify index) = some result) :
      Pair.step first second impl { s with first := { s.first with parker := source } }
          (.first (.notify index)) =
        some { s with first := { s.first with parker := result } } := by
    rw [Pair.step, move_notify notified]
    rfl
  exact runFrom_embed (fun parker : σ => { s with first := { s.first with parker } }) notifies ran

/-- So do those of the second one's. -/
theorem run_second {notifiers : List Nat} {parker : σ} {s : Pair C σ}
    (ran : runFrom impl.step s.second.parker (notifiers.map impl.notify) = some parker) :
    runFrom (Pair.step first second impl) s (notifiers.map fun index => .second (.notify index)) =
      some { s with second := { s.second with parker } } := by
  have notifies (source : σ) (index : Nat) (result : σ)
      (notified : impl.step source (impl.notify index) = some result) :
      Pair.step first second impl { s with second := { s.second with parker := source } }
          (.second (.notify index)) =
        some { s with second := { s.second with parker := result } } := by
    rw [Pair.step, move_notify notified]
    rfl
  exact runFrom_embed (fun parker : σ => { s with second := { s.second with parker } }) notifies ran

end Pair

end Suspend.Thread
