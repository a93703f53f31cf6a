import Suspend.Transition.Core

/-!
# What a run shows

A step may show an event to those who use the program.  An abstract machine
whose labels are the events says which sequences of them are right, and a
program refines it if its steps can be followed there: a step that shows
nothing leaves the abstract state alone, and one that shows an event is a step
of the abstract machine under that label.
-/

namespace Suspend.Transition

universe u v w x y z

variable {σ : Type u} {α : Type v} {ε : Type w} {τ : Type x}

/-- The runs of `next`, with the events that `event` reads off their steps. -/
inductive Shows (next : Step σ α) (event : σ → α → σ → Option ε) (start : σ) : List ε → σ → Prop
  | refl : Shows next event start [] start
  | tail {events : List ε} {source target : σ} {label : α}
      (earlier : Shows next event start events source)
      (step : next source label = some target) :
      Shows next event start (events ++ (event source label target).toList) target

/-- A machine that follows every step of another one along `related`. -/
def Follows (next : Step σ α) (event : σ → α → σ → Option ε) (abstract : Step τ ε)
    (related : σ → τ → Prop) : Prop :=
  ∀ source label target view, related source view → next source label = some target →
    match event source label target with
    | none => related target view
    | some shown => ∃ view', abstract view shown = some view' ∧ related target view'

variable {next : Step σ α} {event : σ → α → σ → Option ε} {abstract : Step τ ε}
  {related : σ → τ → Prop} {start target : σ} {events : List ε} {view : τ}

namespace Shows

theorem reachable (shows : Shows next event start events target) :
    Reachable next start target := by
  induction shows with
  | refl => exact ReachableUnder.refl _ _ _
  | tail _ step ih => exact ReachableUnder.tail ih trivial step

/-- The events of a run are a run of a machine that follows it. -/
theorem follow (follows : Follows next event abstract related) (related_start : related start view)
    (shows : Shows next event start events target) :
    ∃ last, runFrom abstract view events = some last ∧ related target last := by
  induction shows with
  | refl => exact ⟨view, rfl, related_start⟩
  | @tail events source target label earlier step ih =>
      obtain ⟨middle, ran, isRelated⟩ := ih
      have followed := follows source label target middle isRelated step
      cases shown : event source label target with
      | none =>
          rw [shown] at followed
          refine ⟨middle, ?_, followed⟩
          simpa using ran
      | some value =>
          rw [shown] at followed
          obtain ⟨last, stepped, isRelated⟩ := followed
          refine ⟨last, ?_, isRelated⟩
          rw [runFrom_append, ran]
          simp [runFrom, stepped]

/-- A program refines an abstract machine if each of its steps is a run of it,
between the states that the program's stand for and under the events that the
step shows. -/
theorem refines {shown : σ → α → σ → List ε} {history : List (List ε)} (view : σ → τ)
    (steps : ∀ source label target, Reachable next start source →
      next source label = some target →
        runFrom abstract (view source) (shown source label target) = some (view target))
    (shows : Shows next (fun source label target => some (shown source label target)) start
      history target) : runFrom abstract (view start) history.flatten = some (view target) := by
  induction shows with
  | refl => rfl
  | @tail history source target label earlier step ih =>
      have ran := steps source label target earlier.reachable step
      simpa [runFrom_append, ih] using ran

end Shows

/-! ## Systems of parts -/

section Parts

variable {ρ : Type y} {β : Type z} {part : Step ρ β} {partEvent : ρ → β → ρ → Option ε} {init : ρ}

/-- What one of the parts has shown. -/
def shownBy (index : Nat) (events : List (Nat × ε)) : List ε :=
  events.filterMap fun (other, shown) => if other = index then some shown else none

theorem shownBy_append (index : Nat) (events later : List (Nat × ε)) :
    shownBy index (events ++ later) = shownBy index events ++ shownBy index later :=
  List.filterMap_append

/-- A step of a system of like parts: one of them makes a step of its own, or a
new one is added, or nothing happens to them. -/
inductive Parted (part : Step ρ β) (partEvent : ρ → β → ρ → Option ε) (init : ρ)
    (parts : List ρ) : Option (Nat × ε) → List ρ → Prop
  | stay : Parted part partEvent init parts none parts
  | add : Parted part partEvent init parts none (parts ++ [init])
  | move {index : Nat} {source target : ρ} {label : β} (found : parts[index]? = some source)
      (step : part source label = some target) :
      Parted part partEvent init parts ((partEvent source label target).map (index, ·))
        (parts.set index target)

/-- The parts show runs of their own, and those to come nothing. -/
structure ShowsParts (part : Step ρ β) (partEvent : ρ → β → ρ → Option ε) (init : ρ)
    (events : List (Nat × ε)) (parts : List ρ) : Prop where
  each : ∀ index target, parts[index]? = some target →
    Shows part partEvent init (shownBy index events) target
  later : ∀ index, parts.length ≤ index → shownBy index events = []

variable {parts parts' : List ρ} {history : List (Nat × ε)} {shown : Option (Nat × ε)}

theorem ShowsParts.step (shows : ShowsParts part partEvent init history parts)
    (parted : Parted part partEvent init parts shown parts') :
    ShowsParts part partEvent init (history ++ shown.toList) parts' := by
  obtain ⟨each, later⟩ := shows
  cases parted with
  | stay => simpa using ShowsParts.mk each later
  | add =>
      refine ⟨?_, ?_⟩
      · intro index target found
        rw [Option.toList_none, List.append_nil]
        by_cases earlier : index < parts.length
        · rw [List.getElem?_append_left earlier] at found
          exact each index target found
        · have isNew : init = target := by
            rw [List.getElem?_append_right (by omega), List.getElem?_singleton] at found
            split at found
            · exact Option.some.inj found
            · cases found
          rw [later index (by omega), isNew]
          exact .refl
      · intro index isLater
        rw [Option.toList_none, List.append_nil]
        rw [List.length_append] at isLater
        exact later index (by omega)
  | @move index source target label found step =>
      have within := (List.getElem?_eq_some_iff.mp found).1
      refine ⟨?_, ?_⟩
      · intro other last isLast
        rw [shownBy_append]
        by_cases same : other = index
        · subst same
          rw [List.getElem?_set_self within] at isLast
          obtain rfl := Option.some.inj isLast
          have shows := (each other source found).tail step
          cases event : partEvent source label target <;> simpa [shownBy, event] using shows
        · rw [List.getElem?_set_ne (Ne.symm same)] at isLast
          have nothing : shownBy other ((partEvent source label target).map (index, ·)).toList
              = [] := by
            cases partEvent source label target <;> simp [shownBy, Ne.symm same]
          rw [nothing, List.append_nil]
          exact each other last isLast
      · intro other isLater
        rw [List.length_set] at isLater
        have apart : index ≠ other := by omega
        have nothing : shownBy other ((partEvent source label target).map (index, ·)).toList
            = [] := by
          cases partEvent source label target <;> simp [shownBy, apart]
        rw [shownBy_append, nothing, List.append_nil]
        exact later other isLater

/-- Each part of a system shows a run of its own. -/
theorem Shows.toParts {event : σ → α → σ → Option (Nat × ε)} (view : σ → List ρ)
    (steps : ∀ source label target, next source label = some target →
      Parted part partEvent init (view source) (event source label target) (view target))
    (begun : ∀ initial ∈ view start, initial = init)
    (shows : Shows next event start history target) :
    ShowsParts part partEvent init history (view target) := by
  induction shows with
  | refl =>
      refine ⟨fun index initial found => ?_, fun _ _ => rfl⟩
      rw [begun initial (List.mem_of_getElem? found)]
      exact .refl
  | tail _ step ih => exact ih.step (steps _ _ _ step)

end Parts

theorem guarded_eq_some {cond : σ → α → Bool} {label : α} :
    guarded next cond start label = some target ↔
      cond start label = true ∧ next start label = some target := by
  by_cases allowed : cond start label = true
  · simp [guarded, allowed]
  · simp [guarded, allowed]

/-- A run of the guarded transition is one that meets the condition. -/
theorem reachableUnder_of_guarded {cond : σ → α → Bool}
    (reachable : Reachable (guarded next cond) start target) :
    ReachableUnder next (fun state label => cond state label = true) start target := by
  induction reachable with
  | refl => exact ReachableUnder.refl _ _ _
  | tail _ step ih =>
      obtain ⟨label, _, stepped⟩ := step
      obtain ⟨careful, stepped⟩ := guarded_eq_some.mp stepped
      exact ih.tail careful stepped

/-- A schedule shows the events of its steps. -/
def shown (next : Step σ α) (event : σ → α → σ → Option ε) : σ → List α → Option (List ε × σ)
  | state, [] => some ([], state)
  | state, label :: rest =>
      (next state label).bind fun target =>
        (shown next event target rest).map fun (events, last) =>
          ((event state label target).toList ++ events, last)

theorem Shows.trans {middle : σ} {later : List ε} (first : Shows next event start events middle)
    (second : Shows next event middle later target) :
    Shows next event start (events ++ later) target := by
  induction second with
  | refl => simpa using first
  | tail _ step ih =>
      rw [← List.append_assoc]
      exact ih.tail step

/-- A successful schedule is a run with the events that it shows. -/
theorem shows_of_shown {labels : List α}
    (ran : shown next event start labels = some (events, target)) :
    Shows next event start events target := by
  induction labels generalizing start events with
  | nil =>
      cases ran
      exact .refl
  | cons label rest ih =>
      simp only [shown, Option.bind_eq_some_iff, Option.map_eq_some_iff] at ran
      obtain ⟨middle, step, ⟨later, last⟩, rested, same⟩ := ran
      obtain ⟨rfl, rfl⟩ := Prod.mk.inj same
      have first : Shows next event start ([] ++ (event start label middle).toList) middle :=
        Shows.refl.tail step
      exact first.trans (ih rested)

end Suspend.Transition
