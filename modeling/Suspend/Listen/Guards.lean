import Suspend.Park.Condvar
import Suspend.Park.Futex

/-!
# Guards of a listener

`Listener::lock` sets `STATE_HELD` and hands out a guard if it was clear, and
the guard's drop clears it; the guard of `Listener::get_mut` leaves the bit
alone, since no other can be there.  A park is called through a guard, and its
swaps write back the word that it has loaded: nobody but the park's own thread
changes the other bits in between, because no other thread has a guard.
-/

namespace Suspend.Listen

open Suspend.Transition
open Suspend.Park

variable {σ L P : Type}

/-- A parker with one thread that parks, and the labels of its calls.  `place`
is where that thread is in `park`, and `swaps` the word that it is about to swap
in there, with the bits that the swap is to clear. -/
structure RawParker (σ L P : Type) where
  step : Step σ L
  init : σ
  word : σ → Word
  failed : σ → Bool
  place : σ → P
  setPlace : P → σ → σ
  idle : P
  acquire : L
  release : L
  park : Bool → L
  go : Fate → L
  unpark : L
  notify : Nat → L
  swaps : P → Option (Word × (Word → Word))

/-- What the guards rely on from a parker. -/
structure RawParker.Lawful (impl : RawParker σ L P) : Prop where
  place_set : ∀ place s, impl.place (impl.setPlace place s) = place
  set_place : ∀ s, impl.setPlace (impl.place s) s = s
  set_set : ∀ place place' s,
    impl.setPlace place (impl.setPlace place' s) = impl.setPlace place s
  word_set : ∀ place s, impl.word (impl.setPlace place s) = impl.word s
  failed_set : ∀ place s, impl.failed (impl.setPlace place s) = impl.failed s
  init : impl.place impl.init = impl.idle ∧ (impl.word impl.init).held = false
  acquires : ∀ s, impl.place s = impl.idle → ∃ next, impl.step s impl.acquire = some next ∧
    impl.place next = impl.idle ∧ (impl.word next).held = true ∧
      ((impl.word s).held = true → next = s)
  releases : ∀ s, impl.place s = impl.idle → (impl.word s).held = true →
    ∃ next, impl.step s impl.release = some next ∧ impl.place next = impl.idle ∧
      (impl.word next).held = false
  parks : ∀ s next timeout, impl.step s (impl.park timeout) = some next →
    (impl.word next).held = (impl.word s).held
  goes : ∀ s next fate, Reachable impl.step impl.init s →
    impl.step s (impl.go fate) = some next → (impl.word next).held = (impl.word s).held
  unparks : ∀ s, ∃ next, (impl.word next).held = (impl.word s).held ∧
    ∀ place, impl.step (impl.setPlace place s) impl.unpark = some (impl.setPlace place next)
  notifies : ∀ s next index, impl.step s (impl.notify index) = some next →
    (impl.word next).held = (impl.word s).held
  stays : ∀ s next index, impl.place s = impl.idle →
    impl.step s (impl.notify index) = some next → impl.place next = impl.idle
  unfailed : ∀ s, Reachable impl.step impl.init s → impl.failed s = false
  clears : ∀ s new clear, Reachable impl.step impl.init s →
    impl.swaps (impl.place s) = some (new, clear) → new = clear (impl.word s)
  swapped : ∀ s next new clear fate, impl.swaps (impl.place s) = some (new, clear) →
    impl.step s (impl.go fate) = some next → impl.word next = new

/-- A `ListenerGuard`, whether it is still there, and where its thread is in the
park that it has called through it. -/
structure Guard (P : Type) where
  release : Bool
  live : Bool := true
  place : P
  deriving DecidableEq, Repr

/-- The parker of the listener and the guards handed out.  `failed` is set by
the debug assertion of `release`. -/
structure Guards (σ P : Type) where
  parker : σ
  guards : List (Guard P) := []
  failed : Bool := false
  deriving DecidableEq, Repr

/-- Any thread may lock, unpark or go on in an `unpark`.  A notifier that signals
reaches the thread of a guard, if there is one. -/
inductive GuardLabel where
  | lock
  | getMut
  | drop (guard : Nat)
  | park (guard : Nat) (timeout : Bool)
  | go (guard : Nat) (fate : Fate)
  | unpark
  | notify (notifier : Nat) (guard : Option Nat)
  deriving DecidableEq, Repr

namespace Guards

/-- A step of the parker, seen by the thread of a guard. -/
def move (impl : RawParker σ L P) (index : Nat) (label : L) (s : Guards σ P) :
    Option (Guards σ P) :=
  match s.guards[index]? with
  | some ⟨release, true, place⟩ =>
      (impl.step (impl.setPlace place s.parker) label).map fun next =>
        { s with
          parker := impl.setPlace impl.idle next
          guards := s.guards.set index ⟨release, true, impl.place next⟩ }
  | _ => none

/-- `ListenerGuard::drop`. -/
def drop (impl : RawParker σ L P) [DecidableEq P] (index : Nat) (s : Guards σ P) :
    Option (Guards σ P) :=
  match s.guards[index]? with
  | some ⟨release, true, place⟩ =>
      let guards := s.guards.set index ⟨release, false, place⟩
      if place ≠ impl.idle then none
      else if !release then some { s with guards }
      else if !(impl.word s.parker).held then some { s with guards, failed := true }
      else (impl.step s.parker impl.release).map fun parker => { s with parker, guards }
  | _ => none

def step (impl : RawParker σ L P) [DecidableEq P] : Step (Guards σ P) GuardLabel := fun s label =>
  match label with
  | .lock =>
      if s.guards.any fun guard => guard.live && !guard.release then none
      else
        (impl.step s.parker impl.acquire).map fun parker =>
          { s with
            parker
            guards := if (impl.word s.parker).held then s.guards
              else s.guards ++ [{ release := true, place := impl.idle }] }
  | .getMut =>
      if s.guards.any fun guard => guard.live then none
      else some { s with guards := s.guards ++ [{ release := false, place := impl.idle }] }
  | .drop index => s.drop impl index
  | .park index timeout => s.move impl index (impl.park timeout)
  | .go index fate => s.move impl index (impl.go fate)
  | .unpark => (impl.step s.parker impl.unpark).map fun parker => { s with parker }
  | .notify notifier (some index) => s.move impl index (impl.notify notifier)
  | .notify notifier none =>
      if s.guards.any fun guard => guard.live then none
      else (impl.step s.parker (impl.notify notifier)).map fun parker => { s with parker }

def init (impl : RawParker σ L P) : Guards σ P := { parker := impl.init }

/-- At most one guard is there, `STATE_HELD` says whether it is one of `lock`, a
swap of a park clears its own bits and no more, and no assertion fails. -/
structure Exclusive (impl : RawParker σ L P) (s : Guards σ P) : Prop where
  sole : ∀ (index index' : Nat) (guard guard' : Guard P), s.guards[index]? = some guard →
    s.guards[index']? = some guard' → guard.live = true → guard'.live = true → index = index'
  held : (impl.word s.parker).held = s.guards.any fun guard => guard.live && guard.release
  swaps : ∀ (index : Nat) (guard : Guard P) (fate : Fate) (next : Guards σ P) (new : Word)
    (clear : Word → Word), s.guards[index]? = some guard →
      impl.swaps guard.place = some (new, clear) → s.move impl index (impl.go fate) = some next →
        impl.word next.parker = clear (impl.word s.parker)
  unfailed : s.failed = false ∧ impl.failed s.parker = false

/-- There is no guard, or one, and the parker is in a state that its one thread
has brought it to. -/
inductive Sole (impl : RawParker σ L P) (s : Guards σ P) : Prop
  | free (gone : ∀ guard ∈ s.guards, guard.live = false)
      (held : (impl.word s.parker).held = false)
      (reachable : Reachable impl.step impl.init s.parker)
  | one (index : Nat) (release : Bool) (place : P)
      (found : s.guards[index]? = some ⟨release, true, place⟩)
      (only : ∀ (other : Nat) (guard : Guard P), s.guards[other]? = some guard →
        guard.live = true → other = index)
      (held : (impl.word s.parker).held = release)
      (reachable : Reachable impl.step impl.init (impl.setPlace place s.parker))

/-- What every step of every thread keeps. -/
structure Kept (impl : RawParker σ L P) (s : Guards σ P) : Prop where
  rests : impl.place s.parker = impl.idle
  sole : s.Sole impl
  unfailed : s.failed = false

variable {impl : RawParker σ L P} {s next : Guards σ P}

/-- The guard whose thread has moved. -/
theorem move_eq_some {index : Nat} {label : L} (step : s.move impl index label = some next) :
    ∃ release place parker, s.guards[index]? = some ⟨release, true, place⟩ ∧
      impl.step (impl.setPlace place s.parker) label = some parker ∧
        next = { s with
          parker := impl.setPlace impl.idle parker
          guards := s.guards.set index ⟨release, true, impl.place parker⟩ } := by
  unfold Guards.move at step
  split at step
  · obtain ⟨parker, moved, same⟩ := Option.map_eq_some_iff.mp step
    exact ⟨_, _, parker, by assumption, moved, same.symm⟩
  · cases step

theorem Kept.exclusive (lawful : impl.Lawful) (kept : s.Kept impl) : s.Exclusive impl := by
  obtain ⟨rests, ⟨gone, held, reachable⟩ | ⟨index, release, place, found, only, held, reachable⟩,
    unfailed⟩ := kept
  · constructor
    · intro index _ guard _ found _ live _
      rw [gone guard (List.mem_of_getElem? found)] at live
      cases live
    · rw [held]
      symm
      apply List.any_eq_false.mpr
      intro guard isIn
      simp [gone guard isIn]
    · intro index guard fate next new clear _ _ step
      obtain ⟨_, _, _, found, _, _⟩ := move_eq_some step
      cases gone _ (List.mem_of_getElem? found)
    · exact ⟨unfailed, lawful.unfailed _ reachable⟩
  · constructor
    · intro other other' guard guard' isGuard isGuard' live live'
      exact (only other guard isGuard live).trans (only other' guard' isGuard' live').symm
    · rw [held]
      cases release with
      | true =>
          symm
          exact List.any_eq_true.mpr ⟨_, List.mem_of_getElem? found, rfl⟩
      | false =>
          symm
          apply List.any_eq_false.mpr
          intro guard isIn
          obtain ⟨other, isGuard⟩ := List.getElem?_of_mem isIn
          cases live : guard.live with
          | false => simp
          | true =>
              obtain rfl := only other guard isGuard live
              obtain rfl := Option.some.inj (found.symm.trans isGuard)
              simp
    · intro other guard fate next new clear isGuard swaps step
      obtain ⟨_, _, parker, isMoved, moved, rfl⟩ := move_eq_some step
      obtain rfl := only other _ isMoved rfl
      obtain rfl := Option.some.inj (found.symm.trans isGuard)
      obtain ⟨rfl, -, rfl⟩ := Guard.mk.inj (Option.some.inj (found.symm.trans isMoved))
      have here : impl.swaps (impl.place (impl.setPlace place s.parker)) = some (new, clear) := by
        rw [lawful.place_set]
        exact swaps
      rw [lawful.word_set, lawful.swapped _ parker new clear fate here moved,
        lawful.clears _ new clear reachable here, lawful.word_set]
    · have unfailed' := lawful.unfailed _ reachable
      rw [lawful.failed_set] at unfailed'
      exact ⟨unfailed, unfailed'⟩

/-- The guard that has just been handed out is the only one. -/
theorem sole_append {guards : List (Guard P)} (gone : ∀ guard ∈ guards, guard.live = false)
    (fresh : Guard P) (other : Nat) (guard : Guard P)
    (isGuard : (guards ++ [fresh])[other]? = some guard) (live : guard.live = true) :
    other = guards.length := by
  by_cases inside : other < guards.length
  · rw [List.getElem?_append_left inside] at isGuard
    rw [gone guard (List.mem_of_getElem? isGuard)] at live
    cases live
  · have within := (List.getElem?_eq_some_iff.mp isGuard).1
    simp at within
    omega

theorem Kept.init (lawful : impl.Lawful) : (Guards.init impl).Kept impl where
  rests := lawful.init.1
  sole := .free (by simp [Guards.init]) lawful.init.2 (ReachableUnder.refl _ _ _)
  unfailed := rfl

/-- The thread of the one guard moves as the parking thread does. -/
theorem Kept.move {index : Nat} {label : L} (lawful : impl.Lawful)
    (keeps : ∀ before after, Reachable impl.step impl.init before →
      impl.step before label = some after → (impl.word after).held = (impl.word before).held)
    (kept : s.Kept impl) (step : s.move impl index label = some next) : next.Kept impl := by
  obtain ⟨rests, sole, unfailed⟩ := kept
  obtain ⟨release, place, parker, found, moved, rfl⟩ := move_eq_some step
  refine ⟨lawful.place_set _ _, ?_, unfailed⟩
  rcases sole with ⟨gone, _, _⟩ | ⟨_, _, _, isOne, only, held, reachable⟩
  · cases gone _ (List.mem_of_getElem? found)
  · obtain rfl := only index _ found rfl
    obtain ⟨rfl, -, rfl⟩ := Guard.mk.inj (Option.some.inj (isOne.symm.trans found))
    have inside := (List.getElem?_eq_some_iff.mp found).1
    refine .one index _ (impl.place parker) (List.getElem?_set_self inside) ?_ ?_ ?_
    · intro other guard isGuard live
      by_contra differs
      rw [List.getElem?_set_ne (Ne.symm differs)] at isGuard
      exact differs (only other guard isGuard live)
    · rw [lawful.word_set, keeps _ _ reachable moved, lawful.word_set]
      exact held
    · rw [lawful.set_set, lawful.set_place]
      exact reachable.tail trivial moved

theorem Kept.getMut (lawful : impl.Lawful) (kept : s.Kept impl)
    (nobody : (s.guards.any fun guard => guard.live) = false) :
    Kept impl { s with guards := s.guards ++ [{ release := false, place := impl.idle }] } := by
  obtain ⟨rests, ⟨gone, held, reachable⟩ | ⟨index, _, _, found, _, _, _⟩, unfailed⟩ := kept
  · refine ⟨rests, .one s.guards.length false impl.idle (by simp) ?_ held ?_, unfailed⟩
    · exact sole_append gone _
    · rw [← rests, lawful.set_place]
      exact reachable
  · have live := List.any_eq_false.mp nobody _ (List.mem_of_getElem? found)
    simp at live

/-- `lock` hands out a guard if there is none, and changes nothing otherwise. -/
theorem Kept.lock {parker : σ} (lawful : impl.Lawful) (kept : s.Kept impl)
    (unborrowed : (s.guards.any fun guard => guard.live && !guard.release) = false)
    (acquired : impl.step s.parker impl.acquire = some parker) :
    Kept impl { s with
      parker
      guards := if (impl.word s.parker).held then s.guards
        else s.guards ++ [{ release := true, place := impl.idle }] } := by
  obtain ⟨rests, sole, unfailed⟩ := kept
  obtain ⟨next, isNext, nextRests, nextHeld, same⟩ := lawful.acquires s.parker rests
  obtain rfl := Option.some.inj (isNext.symm.trans acquired)
  rcases sole with ⟨gone, held, reachable⟩ | ⟨index, release, place, found, only, held, reachable⟩
  · rw [if_neg (by simp [held])]
    refine ⟨nextRests, .one s.guards.length true impl.idle (by simp) ?_ nextHeld ?_, unfailed⟩
    · exact sole_append gone _
    · rw [← nextRests, lawful.set_place]
      exact reachable.tail trivial acquired
  · have released : release = true := by
      have isLocked := List.any_eq_false.mp unborrowed _ (List.mem_of_getElem? found)
      simpa using isLocked
    subst released
    obtain rfl := same held
    rw [if_pos held]
    exact ⟨rests, .one index true place found only held reachable, unfailed⟩

theorem Kept.drop [DecidableEq P] {index : Nat} (lawful : impl.Lawful) (kept : s.Kept impl)
    (step : s.drop impl index = some next) : next.Kept impl := by
  obtain ⟨rests, sole, unfailed⟩ := kept
  unfold Guards.drop at step
  split at step
  · rename_i release place isGuard
    rcases sole with ⟨gone, _, _⟩ | ⟨_, _, _, found, only, held, reachable⟩
    · cases gone _ (List.mem_of_getElem? isGuard)
    · obtain rfl := only index _ isGuard rfl
      obtain ⟨rfl, -, rfl⟩ := Guard.mk.inj (Option.some.inj (isGuard.symm.trans found))
      -- no other guard is there, and this one has gone
      have gone : ∀ guard ∈ s.guards.set index ⟨release, false, place⟩, guard.live = false := by
        intro guard isIn
        obtain ⟨other, isOther⟩ := List.getElem?_of_mem isIn
        cases live : guard.live with
        | false => rfl
        | true =>
            by_cases same : index = other
            · subst same
              rw [List.getElem?_set_self (List.getElem?_eq_some_iff.mp found).1] at isOther
              obtain rfl := Option.some.inj isOther
              cases live
            · rw [List.getElem?_set_ne same] at isOther
              exact absurd (only other guard isOther live).symm same
      split at step
      · cases step
      · rename_i atIdle
        have isIdle : place = impl.idle := by simpa using atIdle
        rw [isIdle, ← rests, lawful.set_place] at reachable
        split at step
        · rename_i borrowed
          cases step
          refine ⟨rests, .free gone ?_ reachable, unfailed⟩
          simpa [held] using borrowed
        · rename_i locked
          have released : release = true := by simpa using locked
          rw [released] at held
          split at step
          · rename_i unheld
            simp [held] at unheld
          · obtain ⟨parker, isParker, nextRests, unheld⟩ := lawful.releases s.parker rests held
            rw [isParker] at step
            cases step
            exact ⟨nextRests, .free gone unheld (reachable.tail trivial isParker), unfailed⟩
  · cases step

/-- `unpark` leaves every thread where it is. -/
theorem Kept.unpark {parker : σ} (lawful : impl.Lawful) (kept : s.Kept impl)
    (unparked : impl.step s.parker impl.unpark = some parker) :
    Kept impl { s with parker } := by
  obtain ⟨rests, sole, unfailed⟩ := kept
  obtain ⟨next, sameHeld, moved⟩ := lawful.unparks s.parker
  have isNext : impl.setPlace impl.idle next = parker := by
    have here := moved impl.idle
    rw [← rests, lawful.set_place, rests] at here
    exact Option.some.inj (here.symm.trans unparked)
  subst isNext
  refine ⟨lawful.place_set _ _, ?_, unfailed⟩
  rcases sole with ⟨gone, held, reachable⟩ | ⟨index, release, place, found, only, held, reachable⟩
  · refine .free gone ?_ (reachable.tail trivial unparked)
    rw [lawful.word_set, sameHeld]
    exact held
  · refine .one index release place found only ?_ ?_
    · rw [lawful.word_set, sameHeld]
      exact held
    · rw [lawful.set_set]
      exact reachable.tail trivial (moved place)

/-- A notifier that finds nobody to signal. -/
theorem Kept.notify {index : Nat} {parker : σ} (lawful : impl.Lawful) (kept : s.Kept impl)
    (nobody : (s.guards.any fun guard => guard.live) = false)
    (notified : impl.step s.parker (impl.notify index) = some parker)
    (stays : impl.place parker = impl.idle) : Kept impl { s with parker } := by
  obtain ⟨rests, ⟨gone, held, reachable⟩ | ⟨_, _, _, found, _, _, _⟩, unfailed⟩ := kept
  · refine ⟨stays, .free gone ?_ (reachable.tail trivial notified), unfailed⟩
    exact (lawful.notifies _ _ _ notified).trans held
  · have live := List.any_eq_false.mp nobody _ (List.mem_of_getElem? found)
    simp at live

theorem Kept.step [DecidableEq P] {label : GuardLabel} (lawful : impl.Lawful) (kept : s.Kept impl)
    (step : Guards.step impl s label = some next) : next.Kept impl := by
  cases label with
  | lock =>
      simp only [Guards.step] at step
      split at step
      · cases step
      · rename_i unborrowed
        obtain ⟨parker, acquired, rfl⟩ := Option.map_eq_some_iff.mp step
        exact kept.lock lawful (by simpa using unborrowed) acquired
  | getMut =>
      simp only [Guards.step] at step
      split at step
      · cases step
      · rename_i nobody
        cases step
        exact kept.getMut lawful (by simpa using nobody)
  | drop index => exact kept.drop lawful step
  | park index timeout =>
      exact kept.move lawful (fun before after _ => lawful.parks before after timeout) step
  | go index fate =>
      exact kept.move lawful (fun before after => lawful.goes before after fate) step
  | unpark =>
      obtain ⟨parker, unparked, rfl⟩ := Option.map_eq_some_iff.mp step
      exact kept.unpark lawful unparked
  | notify notifier guard =>
      cases guard with
      | some index =>
          exact kept.move lawful (fun before after _ => lawful.notifies before after notifier) step
      | none =>
          simp only [Guards.step] at step
          split at step
          · cases step
          · rename_i nobody
            obtain ⟨parker, notified, rfl⟩ := Option.map_eq_some_iff.mp step
            exact kept.notify lawful (by simpa using nobody) notified
              (lawful.stays _ _ _ kept.rests notified)

/-- Every interleaving keeps the guards apart. -/
theorem exclusive_of_reachable [DecidableEq P] (lawful : impl.Lawful)
    (reachable : Reachable (Guards.step impl) (Guards.init impl) s) : s.Exclusive impl := by
  have kept : s.Kept impl := reachable.invariant (Kept.init lawful)
    fun _ _ _ kept _ step => kept.step lawful step
  exact kept.exclusive lawful

end Guards

/-! ## The parkers -/

/-- The bits that the last swap of a park clears. -/
def unparked (word : Word) : Word :=
  { word with park := false, unpark := false }

/-- `pthread::ParkImpl` and `default::ParkImpl`. -/
def condvar (impl : Condvar.Impl) : RawParker Condvar.System Condvar.Label Condvar.Parker where
  step := Condvar.step impl
  init := {}
  word sys := sys.cell.word
  failed sys := sys.failed
  place sys := sys.parker
  setPlace parker sys := { sys with parker }
  idle := .idle
  acquire := .acquire
  release := .release
  park := .park
  go := .parker
  unpark := .unpark
  notify := .notifier
  swaps
    | .skip state => some ({ state with unpark := false }, Word.quiet)
    | .consume state => some ({ state with park := false, unpark := false }, unparked)
    | _ => none

/-- `futex::ParkImpl`. -/
def futex : RawParker Futex.System Futex.Label Futex.Parker where
  step := Futex.step
  init := {}
  word sys := sys.cell.word
  failed sys := sys.failed
  place sys := sys.parker
  setPlace parker sys := { sys with parker }
  idle := .idle
  acquire := .acquire
  release := .release
  park := .park
  go := .parker
  unpark := .unpark
  notify := .notifier
  swaps
    | .skip state => some ({ state with unpark := false }, Word.quiet)
    | .consume state => some ({ state with park := false, unpark := false }, unparked)
    | _ => none

/-- Setting a bit that is set leaves the word as it is. -/
theorem store_held {R : Type} {cell : Cell R} (held : cell.word.held = true) :
    cell.store { cell.word with held := true } = cell := by
  rw [Cell.store, ← held]

theorem condvar_lawful (impl : Condvar.Impl) : (condvar impl).Lawful where
  place_set _ _ := rfl
  set_place _ := rfl
  set_set _ _ _ := rfl
  word_set _ _ := rfl
  failed_set _ _ := rfl
  init := ⟨rfl, rfl⟩
  acquires sys atIdle := by
    have idle : sys.parker = .idle := atIdle
    refine ⟨_, if_pos idle, atIdle, rfl, ?_⟩
    intro held
    rw [store_held held]
  releases sys atIdle held := by
    have idle : sys.parker = .idle := atIdle
    have isHeld : sys.cell.word.held = true := held
    exact ⟨_, if_pos (by simp [idle, isHeld]), atIdle, rfl⟩
  parks sys next timeout step := by
    obtain ⟨_, rfl⟩ := by simpa [condvar, Condvar.step] using step
    rfl
  goes sys next fate reachable step := by
    have sees := (Condvar.tokens_of_reachable reachable).sees
    cases atPc : sys.parker with
    | register timeout =>
        simp only [condvar, Condvar.step, Condvar.System.park, atPc, Option.some.injEq] at step
        subst step
        cases impl <;> rfl
    | _ =>
        rw [atPc] at sees
        simp only [condvar, Condvar.step, Condvar.System.park, atPc, Condvar.System.wait,
          Condvar.System.skip, Condvar.System.consume, Condvar.Parker.Sees] at step sees
        grind -linarith -ring -order [condvar, Cell.swap]
  unparks sys := ⟨sys.unpark, rfl, fun _ => rfl⟩
  notifies sys next index step := by
    simp only [condvar, Condvar.step, Condvar.System.notify, Condvar.System.signal] at step ⊢
    grind -linarith -ring -order
  stays sys next index atIdle step := by
    simp only [condvar, Condvar.step, Condvar.System.notify, Condvar.System.signal]
      at step atIdle ⊢
    grind -linarith -ring -order
  unfailed sys reachable := (Condvar.tokens_of_reachable reachable).unfailed
  clears sys new clear reachable swaps := by
    have sees := (Condvar.tokens_of_reachable reachable).sees
    cases atPc : sys.parker <;> rw [atPc] at sees <;> simp [condvar, atPc] at swaps
    · obtain ⟨rfl, rfl⟩ := swaps
      rw [← sees.1]
      rfl
    · obtain ⟨rfl, rfl⟩ := swaps
      rw [← sees]
      rfl
  swapped sys next new clear fate swaps step := by
    cases atPc : sys.parker <;> simp [condvar, atPc] at swaps <;>
      simp only [condvar, Condvar.step, Condvar.System.park, atPc, Option.some.injEq] at step <;>
      obtain ⟨rfl, rfl⟩ := swaps <;> subst step <;> rfl

theorem futex_lawful : futex.Lawful where
  place_set _ _ := rfl
  set_place _ := rfl
  set_set _ _ _ := rfl
  word_set _ _ := rfl
  failed_set _ _ := rfl
  init := ⟨rfl, rfl⟩
  acquires sys atIdle := by
    have idle : sys.parker = .idle := atIdle
    refine ⟨_, if_pos idle, atIdle, rfl, ?_⟩
    intro held
    rw [store_held held]
  releases sys atIdle held := by
    have idle : sys.parker = .idle := atIdle
    have isHeld : sys.cell.word.held = true := held
    exact ⟨_, if_pos (by simp [idle, isHeld]), atIdle, rfl⟩
  parks sys next timeout step := by
    obtain ⟨_, rfl⟩ := by simpa [futex, Futex.step] using step
    rfl
  goes sys next fate reachable step := by
    have sees := (Futex.tokens_of_reachable reachable).sees
    cases atPc : sys.parker <;> rw [atPc] at sees <;>
      simp only [futex, Futex.step, Futex.System.park, atPc, Futex.System.wait,
        Futex.System.skip, Futex.System.exchange, Futex.System.consume, Futex.Parker.Sees]
        at step sees <;>
      grind -linarith -ring -order [futex, Cell.swap, Cell.store]
  unparks sys := ⟨sys.unpark, rfl, fun _ => rfl⟩
  notifies sys next index step := by
    simp only [futex, Futex.step, Futex.System.notify, Futex.System.wake] at step ⊢
    grind -linarith -ring -order
  stays sys next index atIdle step := by
    simp only [futex, Futex.step, Futex.System.notify, Futex.System.wake] at step atIdle ⊢
    grind -linarith -ring -order
  unfailed sys reachable := (Futex.tokens_of_reachable reachable).unfailed
  clears sys new clear reachable swaps := by
    have sees := (Futex.tokens_of_reachable reachable).sees
    cases atPc : sys.parker <;> rw [atPc] at sees <;> simp [futex, atPc] at swaps
    · obtain ⟨rfl, rfl⟩ := swaps
      rw [← sees.1]
      rfl
    · obtain ⟨rfl, rfl⟩ := swaps
      rw [← sees]
      rfl
  swapped sys next new clear fate swaps step := by
    cases atPc : sys.parker <;> simp [futex, atPc] at swaps <;>
      simp only [futex, Futex.step, Futex.System.park, atPc, Option.some.injEq] at step <;>
      obtain ⟨rfl, rfl⟩ := swaps <;> subst step <;> rfl

/-- Guards are taken and dropped, parks called through them and notifications
sent in any order: one guard at most is there, and the swaps of its park leave
to the others what is theirs. -/
theorem guards_exclusive :
    (∀ (impl : Condvar.Impl) (s : Guards Condvar.System Condvar.Parker),
      Reachable (Guards.step (condvar impl)) (Guards.init (condvar impl)) s →
        s.Exclusive (condvar impl)) ∧
    ∀ s : Guards Futex.System Futex.Parker,
      Reachable (Guards.step futex) (Guards.init futex) s → s.Exclusive futex := by
  constructor
  · intro impl s reachable
    exact Guards.exclusive_of_reachable (condvar_lawful impl) reachable
  · intro s reachable
    exact Guards.exclusive_of_reachable futex_lawful reachable

/-- A notification wakes the park of a guard, while another thread twice finds
the listener locked. -/
def contended : List GuardLabel :=
  [.lock, .lock, .park 0 true, .go 0 .goes, .go 0 .goes, .unpark, .lock, .notify 0 (some 0),
    .go 0 .goes, .go 0 .goes, .drop 0]

theorem guards_exclusive_contended :
    ∃ s, runFrom (Guards.step futex) (Guards.init futex) contended = some s ∧
      s.guards.length = 1 ∧ s.parker.cell.word = {} ∧ s.Exclusive futex := by
  obtain ⟨s, run⟩ : ∃ s, runFrom (Guards.step futex) (Guards.init futex) contended = some s :=
    ⟨_, rfl⟩
  have isFinal : some s = runFrom (Guards.step futex) (Guards.init futex) contended := run.symm
  refine ⟨s, run, ?_, ?_, guards_exclusive.2 s (reachable_of_runFrom run)⟩
  · obtain rfl := Option.some.inj isFinal
    rfl
  · obtain rfl := Option.some.inj isFinal
    rfl

end Suspend.Listen
