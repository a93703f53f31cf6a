import Suspend.Listen.Permit

/-!
# The listeners of a thread

A thread keeps one listener for its blocking calls.  What such a call polls may
block again: the inner call finds the listener in use and makes one of its own.
Wakers outlive the calls, so that any listener of the thread may be notified at
any time; each of them answers as a permit does all the same, since no call
parks at the listener of another.
-/

namespace Suspend.Thread

open Suspend.Transition
open Suspend.Park
open Suspend.Listen

variable {σ L P : Type}

/-- The listeners of a thread, of which `THREAD_LISTEN` is the first.  `borrowed`
says that its `RefCell` is, and `calls` are the calls of `with_listener` in
progress, the innermost first, each with its listener. -/
structure Nested (σ : Type) where
  listeners : List σ
  borrowed : Bool := false
  calls : List Nat := []

/-- What the thread does, and the notifications by anyone. -/
inductive NestedLabel where
  | enter
  | park (timeout : Bool)
  | go (fate : Fate)
  /-- The innermost call returns, or is unwound. -/
  | leave
  | unpark (listener : Nat)
  | notify (listener notifier : Nat)
  deriving DecidableEq, Repr

namespace Nested

/-- The listener whose parker is accessed, and how. -/
def target (s : Nested σ) : NestedLabel → Option (Nat × ParkerLabel)
  | .enter | .leave => none
  | .park timeout => s.calls.head?.map fun listener => (listener, .park timeout)
  | .go fate => s.calls.head?.map fun listener => (listener, .go fate)
  | .unpark listener => some (listener, .unpark)
  | .notify listener notifier => some (listener, .notify notifier)

/-- The thread is in a park of its innermost call. -/
def parked (impl : WakingParker σ L P) [DecidableEq P] (s : Nested σ) : Bool :=
  s.calls.head?.any fun listener =>
    s.listeners[listener]?.any fun parker => impl.place parker ≠ impl.idle

def access (impl : WakingParker σ L P) (s : Nested σ) (listener : Nat) (label : ParkerLabel) :
    Option (Nested σ) :=
  s.listeners[listener]?.bind fun parker =>
    (impl.called parker label).map fun next =>
      { s with listeners := s.listeners.set listener next }

/-- `with_listener` begins with the thread's listener, or with a new one where
that is in use. -/
def enter (impl : WakingParker σ L P) (s : Nested σ) : Nested σ :=
  if s.borrowed then
    { s with
      listeners := s.listeners ++ [impl.init]
      calls := s.listeners.length :: s.calls }
  else { s with borrowed := true, calls := 0 :: s.calls }

def leave (s : Nested σ) : Option (Nested σ) :=
  match s.calls with
  | [] => none
  | listener :: calls => some { s with borrowed := s.borrowed && listener ≠ 0, calls }

def step (impl : WakingParker σ L P) [DecidableEq P] : Step (Nested σ) NestedLabel
  | s, .enter => if s.parked impl then none else some (s.enter impl)
  | s, .leave => if s.parked impl then none else s.leave
  | s, label => (s.target label).bind fun (listener, label) => s.access impl listener label

/-- A thread that has not blocked yet. -/
def new (impl : WakingParker σ L P) : Nested σ where
  listeners := [impl.init]

/-- What an access shows of the listener's permit. -/
def event (impl : WakingParker σ L P) (s : Nested σ) (label : NestedLabel) (s' : Nested σ) :
    Option (Nat × PermitEvent) :=
  (s.target label).bind fun (listener, label) =>
    match s.listeners[listener]?, s'.listeners[listener]? with
    | some parker, some next => (impl.event parker label next).map (listener, ·)
    | _, _ => none

/-! ## Whose listener is whose -/

/-- The calls in progress and their listeners. -/
structure Nests (impl : WakingParker σ L P) (s : Nested σ) : Prop where
  /-- No two calls have the same listener. -/
  apart : s.calls.Nodup
  own : 0 < s.listeners.length
  made : ∀ listener ∈ s.calls, listener < s.listeners.length
  /-- The outermost has that of the thread. -/
  outermost : ∀ listener, s.calls.getLast? = some listener → listener = 0
  borrowed : s.borrowed = true ↔ 0 ∈ s.calls
  /-- Only the innermost parks. -/
  parks : ∀ (listener : Nat) parker, s.listeners[listener]? = some parker →
    impl.place parker ≠ impl.idle → s.calls.head? = some listener

variable {impl : WakingParker σ L P} {s s' : Nested σ}

theorem access_eq_some {listener : Nat} {label : ParkerLabel}
    (accessed : s.access impl listener label = some s') : ∃ parker next,
      s.listeners[listener]? = some parker ∧ impl.called parker label = some next ∧
        s' = { s with listeners := s.listeners.set listener next } := by
  obtain ⟨parker, found, called⟩ := Option.bind_eq_some_iff.mp accessed
  obtain ⟨next, stepped, rfl⟩ := Option.map_eq_some_iff.mp called
  exact ⟨parker, next, found, stepped, rfl⟩

/-- A call in progress has the thread's listener in use. -/
theorem Nests.mem_of_ne (nests : s.Nests impl) (busy : s.calls ≠ []) : 0 ∈ s.calls := by
  have isLast := List.getLast?_eq_some_getLast busy
  have isOwn := nests.outermost _ isLast
  rw [← isOwn]
  exact List.getLast_mem busy

/-- The thread parks nowhere while it runs what its call polls. -/
theorem Nests.idle [DecidableEq P] (nests : s.Nests impl) (awake : s.parked impl = false)
    {listener : Nat} {parker : σ} (found : s.listeners[listener]? = some parker) :
    impl.place parker = impl.idle := by
  by_contra parks
  have isHead := nests.parks listener parker found parks
  simp [parked, isHead, found, parks] at awake

theorem Nests.new (lawful : impl.Lawful) : (Nested.new impl).Nests impl where
  apart := List.nodup_nil
  own := Nat.one_pos
  made _ never := by cases never
  outermost _ never := by cases never
  borrowed := by simp [Nested.new]
  parks listener parker found parks := by
    have isInit : parker = impl.init := by
      simpa [Nested.new] using List.mem_of_getElem? found
    exact (parks (isInit ▸ lawful.init.2.1)).elim

theorem Nests.enter [DecidableEq P] (lawful : impl.Lawful) (nests : s.Nests impl)
    (awake : s.parked impl = false) : (s.enter impl).Nests impl := by
  unfold Nested.enter
  split
  · rename_i isBorrowed
    have busy : s.calls ≠ [] := List.ne_nil_of_mem (nests.borrowed.mp isBorrowed)
    refine ⟨?_, ?_, ?_, ?_, ?_, ?_⟩
    · refine List.nodup_cons.mpr ⟨fun isCall => ?_, nests.apart⟩
      exact Nat.lt_irrefl _ (nests.made _ isCall)
    · simp
    · intro listener isCall
      rw [List.length_append, List.length_singleton]
      rcases List.mem_cons.mp isCall with rfl | earlier
      · exact Nat.lt_succ_self _
      · exact Nat.lt_succ_of_lt (nests.made listener earlier)
    · intro listener isLast
      rw [List.getLast?_cons_of_ne_nil busy] at isLast
      exact nests.outermost listener isLast
    · exact ⟨fun _ => List.mem_cons_of_mem _ (nests.borrowed.mp isBorrowed), fun _ => isBorrowed⟩
    · intro listener parker found parks
      refine (parks ?_).elim
      rcases List.mem_append.mp (List.mem_of_getElem? found) with earlier | latest
      · obtain ⟨index, found⟩ := List.mem_iff_getElem?.mp earlier
        exact nests.idle awake found
      · rw [List.mem_singleton.mp latest]
        exact lawful.init.2.1
  · rename_i isFree
    have none : s.calls = [] := by
      by_contra busy
      exact isFree (nests.borrowed.mpr (nests.mem_of_ne busy))
    refine ⟨?_, nests.own, ?_, ?_, ?_, ?_⟩
    · simp [none]
    · simp [none, nests.own]
    · intro listener isLast
      simpa [none] using isLast.symm
    · simp
    · intro listener parker found parks
      exact (parks (nests.idle awake found)).elim

theorem Nests.leave [DecidableEq P] (nests : s.Nests impl) (awake : s.parked impl = false)
    (left : s.leave = some s') : s'.Nests impl := by
  unfold Nested.leave at left
  split at left
  · cases left
  · rename_i listener calls isCalls
    obtain rfl := Option.some.inj left
    have apart := nests.apart
    rw [isCalls, List.nodup_cons] at apart
    have outer (busy : calls ≠ []) : calls.getLast? = s.calls.getLast? := by
      rw [isCalls, List.getLast?_cons_of_ne_nil busy]
    refine ⟨apart.2, nests.own, ?_, ?_, ?_, ?_⟩
    · intro other isCall
      exact nests.made other (by rw [isCalls]; exact List.mem_cons_of_mem _ isCall)
    · intro other isLast
      refine nests.outermost other ?_
      rw [← outer, isLast]
      rintro rfl
      cases isLast
    · simp only [Bool.and_eq_true, decide_eq_true_eq, nests.borrowed, isCalls, List.mem_cons]
      constructor
      · rintro ⟨isOwn | earlier, notOwn⟩
        · exact (notOwn isOwn.symm).elim
        · exact earlier
      · intro isOwn
        exact ⟨.inr isOwn, fun same => apart.1 (same ▸ isOwn)⟩
    · intro other parker found parks
      exact (parks (nests.idle awake found)).elim

/-- An access parks nowhere else. -/
theorem Nests.access {listener : Nat} (nests : s.Nests impl) (label : ParkerLabel)
    (accessed : s.access impl listener label = some s')
    (own : ∀ parker next, s.listeners[listener]? = some parker →
      impl.called parker label = some next → impl.place next ≠ impl.idle →
        s.calls.head? = some listener) : s'.Nests impl := by
  obtain ⟨parker, next, found, called, rfl⟩ := access_eq_some accessed
  refine ⟨nests.apart, ?_, ?_, nests.outermost, nests.borrowed, ?_⟩
  · simpa using nests.own
  · simpa using nests.made
  · intro other last isLast parks
    by_cases same : other = listener
    · subst same
      rw [List.getElem?_set_self (List.getElem?_eq_some_iff.mp found).1] at isLast
      obtain rfl := Option.some.inj isLast
      exact own parker next found called parks
    · rw [List.getElem?_set_ne (Ne.symm same)] at isLast
      exact nests.parks other last isLast parks

theorem Nests.step [DecidableEq P] (lawful : impl.Lawful) (nests : s.Nests impl)
    {label : NestedLabel} (step : Nested.step impl s label = some s') : s'.Nests impl := by
  have innermost {called : ParkerLabel}
      (step : ((s.calls.head?.map fun listener => (listener, called)).bind
        fun (listener, label) => s.access impl listener label) = some s') : s'.Nests impl := by
    obtain ⟨_, isTarget, accessed⟩ := Option.bind_eq_some_iff.mp step
    obtain ⟨listener, isHead, rfl⟩ := Option.map_eq_some_iff.mp isTarget
    exact nests.access called accessed fun _ _ _ _ _ => isHead
  cases label with
  | enter =>
      simp only [Nested.step] at step
      split at step
      · cases step
      · rename_i awake
        obtain rfl := Option.some.inj step
        exact nests.enter lawful (by simpa using awake)
  | leave =>
      simp only [Nested.step] at step
      split at step
      · cases step
      · rename_i awake
        exact nests.leave (by simpa using awake) step
  | park timeout => exact innermost step
  | go fate => exact innermost step
  | unpark listener =>
      refine nests.access .unpark step fun parker next found called parks => ?_
      obtain ⟨after, isAfter, _, aside⟩ := lawful.unparks parker
      obtain rfl := Option.some.inj (isAfter.symm.trans called)
      exact nests.parks listener parker found fun isIdle => parks (aside.idle.mpr isIdle)
  | notify listener notifier =>
      refine nests.access (.notify notifier) step fun parker next found called parks => ?_
      obtain ⟨_, aside⟩ := lawful.notifies parker next notifier called
      exact nests.parks listener parker found fun isIdle => parks (aside.idle.mpr isIdle)

/-! ## Runs -/

/-- Each step is one of the parkers' own. -/
theorem step_parted [DecidableEq P] {label : NestedLabel}
    (step : Nested.step impl s label = some s') :
    Parted impl.called impl.event impl.init s.listeners (s.event impl label s') s'.listeners := by
  have accesses {listener : Nat} {called : ParkerLabel}
      (isTarget : s.target label = some (listener, called))
      (accessed : s.access impl listener called = some s') :
      Parted impl.called impl.event impl.init s.listeners (s.event impl label s')
        s'.listeners := by
    obtain ⟨parker, next, found, stepped, rfl⟩ := access_eq_some accessed
    have isNext : (s.listeners.set listener next)[listener]? = some next :=
      List.getElem?_set_self (List.getElem?_eq_some_iff.mp found).1
    simp only [event, isTarget, Option.bind_some, found, isNext]
    exact .move found stepped
  have targeted (step : ((s.target label).bind
      fun (listener, label) => s.access impl listener label) = some s') :
      Parted impl.called impl.event impl.init s.listeners (s.event impl label s')
        s'.listeners := by
    obtain ⟨⟨listener, called⟩, isTarget, accessed⟩ := Option.bind_eq_some_iff.mp step
    exact accesses isTarget accessed
  cases label with
  | enter =>
      simp only [Nested.step] at step
      split at step
      · cases step
      · obtain rfl := Option.some.inj step
        unfold Nested.enter
        split
        · exact .add
        · exact .stay
  | leave =>
      simp only [Nested.step, Nested.leave] at step
      split at step
      · cases step
      · split at step
        · cases step
        · obtain rfl := Option.some.inj step
          exact .stay
  | park | go | unpark | notify => exact targeted step

/-- The calls of a thread have a listener each, which answers as a permit. -/
structure Sound (impl : WakingParker σ L P) (s : Nested σ)
    (history : List (Nat × PermitEvent)) : Prop where
  nests : s.Nests impl
  answers : ∀ (listener : Nat) parker, s.listeners[listener]? = some parker →
    AnswersAsPermit (impl.word parker).unpark (shownBy listener history)

/-- The thread sleeps over no notification of the call that it sleeps in. -/
def Hears (impl : WakingParker σ L P) (s : Nested σ) : Prop :=
  ∀ (listener : Nat) parker, s.listeners[listener]? = some parker → impl.asleep parker = true →
    s.calls.head? = some listener ∧ ((impl.word parker).unpark = true → impl.coming parker = true)

theorem sound_of_shows [DecidableEq P] (lawful : impl.Lawful) {history : List (Nat × PermitEvent)}
    (shows : Shows (Nested.step impl) (fun s label s' => s.event impl label s') (Nested.new impl)
      history s) : s.Sound impl history ∧ (impl.Hears → s.Hears impl) := by
  have begun : ∀ initial ∈ (Nested.new impl).listeners, initial = impl.init :=
    fun _ isListener => List.mem_singleton.mp isListener
  have steps (source : Nested σ) (label : NestedLabel) (target : Nested σ)
      (step : Nested.step impl source label = some target) :
      Parted impl.called impl.event impl.init source.listeners (source.event impl label target)
        target.listeners :=
    step_parted step
  have parts := shows.toParts Nested.listeners steps begun
  have nests : s.Nests impl := by
    apply shows.reachable.invariant (Nests.new lawful)
    intro state label next nests _ step
    exact nests.step lawful step
  refine ⟨⟨nests, ?_⟩, ?_⟩
  · intro listener parker found
    exact lawful.refines (parts.each listener parker found)
  · intro hears listener parker found isAsleep
    refine ⟨nests.parks listener parker found (lawful.sleeps parker isAsleep).1, ?_⟩
    have reachable := (parts.each listener parker found).reachable
    exact hears parker (WakingParker.reachable_of_called reachable) isAsleep

end Nested

/-- However deep the blocking calls of a thread are nested, and whoever notifies
its listeners meanwhile: no two calls in progress have the same listener, only
the innermost parks, and each listener answers as one permit does, so that a call
neither takes nor loses a notification of another. -/
theorem nested_blocking_apart :
    (∀ impl s history, Shows (Nested.step (wakingCondvar impl)) (Nested.event (wakingCondvar impl))
        (Nested.new (wakingCondvar impl)) history s →
      s.Sound (wakingCondvar impl) history ∧ (impl = .pthread → s.Hears (wakingCondvar impl))) ∧
    ∀ s history, Shows (Nested.step wakingFutex) (Nested.event wakingFutex)
        (Nested.new wakingFutex) history s →
      s.Sound wakingFutex history ∧ s.Hears wakingFutex := by
  constructor
  · intro impl s history shows
    obtain ⟨sound, hears⟩ := Nested.sound_of_shows (wakingCondvar_lawful impl) shows
    refine ⟨sound, ?_⟩
    rintro rfl
    exact hears wakingCondvar_hears
  · intro s history shows
    obtain ⟨sound, hears⟩ := Nested.sound_of_shows wakingFutex_lawful shows
    exact ⟨sound, hears wakingFutex_hears⟩

/-- A call that blocks inside another leaves it the wake that comes meanwhile. -/
theorem nested_blocking_apart_of_outer : ∃ history s,
    shown (Nested.step wakingFutex) (Nested.event wakingFutex) (Nested.new wakingFutex)
      [.enter, .enter, .park false, .go .goes, .go .goes, .unpark 0, .unpark 1, .notify 1 0,
        .go .goes, .go .goes, .leave, .park false, .go .goes] = some (history, s) ∧
    history = [(1, .enter false), (0, .unpark true), (1, .unpark true), (1, .leave .unparked),
      (0, .enter false), (0, .leave .skipped)] ∧
    s.Sound wakingFutex history ∧ s.Hears wakingFutex := by
  obtain ⟨history, s, ran, same⟩ : ∃ history s,
      shown (Nested.step wakingFutex) (Nested.event wakingFutex) (Nested.new wakingFutex)
        [.enter, .enter, .park false, .go .goes, .go .goes, .unpark 0, .unpark 1, .notify 1 0,
          .go .goes, .go .goes, .leave, .park false, .go .goes] = some (history, s) ∧
      history = [(1, .enter false), (0, .unpark true), (1, .unpark true), (1, .leave .unparked),
        (0, .enter false), (0, .leave .skipped)] :=
    ⟨_, _, rfl, rfl⟩
  exact ⟨history, s, ran, same, nested_blocking_apart.2 s history (shows_of_shown ran)⟩

end Suspend.Thread
