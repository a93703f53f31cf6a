import Suspend.Transition.Trace
import Mathlib.Logic.Function.Basic

/-!
# Linearizable objects

Several parties call an object, each one call after the other.  The atomic
object does the whole of a call at one moment between the beginning of the call
and its return; a program is linearizable if its callers could have been using
the atomic object.  Those moments are the program's own choice: one of its
steps may be the moment of the call in progress, or the return of a call as
well, and need not be either.
-/

namespace Suspend.Transition

universe u v w x y z

variable {β : Type u} {ι : Type v} {κ : Type w} {ρ : Type x} {σ : Type y} {α : Type z}

/-! ## The atomic object -/

/-- What the callers of an object see. -/
inductive CallEvent (ι : Type v) (κ : Type w) (ρ : Type x) where
  | invoke (party : ι) (call : κ)
  | respond (party : ι) (answer : ρ)
  deriving DecidableEq, Repr

/-- How far a party is with its call. -/
inductive CallState (κ : Type w) (ρ : Type x) where
  | idle
  | called (call : κ)
  | answered (answer : ρ)
  deriving DecidableEq, Repr

/-- An object and the calls in progress. -/
structure Atomic (β : Type u) (ι : Type v) (κ : Type w) (ρ : Type x) where
  object : β
  calls : ι → CallState κ ρ := fun _ => .idle

/-- An event of the callers, or the moment at which a call is done. -/
inductive AtomicLabel (ι : Type v) (κ : Type w) (ρ : Type x) where
  | event (event : CallEvent ι κ ρ)
  | commit (party : ι) (answer : ρ)

/-- Only the events of the callers are seen. -/
def AtomicLabel.seen : AtomicLabel ι κ ρ → Option (CallEvent ι κ ρ)
  | .event shown => some shown
  | .commit .. => none

/-- A call is done as `spec` does it, and returns the answer it got then. -/
def Atomic.step [DecidableEq ι] [DecidableEq ρ] (spec : Step β (κ × ρ)) :
    Step (Atomic β ι κ ρ) (AtomicLabel ι κ ρ)
  | a, .event (.invoke party call) =>
      match a.calls party with
      | .idle => some { a with calls := Function.update a.calls party (.called call) }
      | _ => none
  | a, .commit party answer =>
      match a.calls party with
      | .called call =>
          (spec a.object (call, answer)).map fun object =>
            { object, calls := Function.update a.calls party (.answered answer) }
      | _ => none
  | a, .event (.respond party answer) =>
      match a.calls party with
      | .answered given =>
          if given = answer then some { a with calls := Function.update a.calls party .idle }
          else none
      | _ => none

/-- The callers could have been using the atomic object. -/
def Linearizable [DecidableEq ι] [DecidableEq ρ] (spec : Step β (κ × ρ)) (object : β)
    (events : List (CallEvent ι κ ρ)) : Prop :=
  ∃ labels last, runFrom (Atomic.step spec) { object } labels = some last ∧
    labels.filterMap AtomicLabel.seen = events

/-! ## What one party does -/

/-- What a step of one party may be to the object: any number of the events of
its call, in their order. -/
inductive Acts (spec : Step β (κ × ρ)) (party : ι) :
    β → CallState κ ρ → List (CallEvent ι κ ρ) → β → CallState κ ρ → Prop
  | stay {object state} : Acts spec party object state [] object state
  | invoke {object object' call events state}
      (later : Acts spec party object (.called call) events object' state) :
      Acts spec party object .idle (.invoke party call :: events) object' state
  | commit {object middle object' call answer events state}
      (done : spec object (call, answer) = some middle)
      (later : Acts spec party middle (.answered answer) events object' state) :
      Acts spec party object (.called call) events object' state
  | respond {object object' answer events state}
      (later : Acts spec party object .idle events object' state) :
      Acts spec party object (.answered answer) (.respond party answer :: events) object' state

variable {spec : Step β (κ × ρ)} {party : ι} {object object' : β} {state state' : CallState κ ρ}
  {events : List (CallEvent ι κ ρ)}

theorem Acts.of_eq (object_eq : object' = object) (state_eq : state' = state) :
    Acts spec party object state [] object' state' := by
  subst object_eq state_eq
  exact stay

/-- The call is done and returns in one step. -/
theorem Acts.reply {call : κ} {answer : ρ} (done : spec object (call, answer) = some object')
    (later : Acts spec party object' .idle events object' state) :
    Acts spec party object (.called call) (.respond party answer :: events) object' state :=
  commit done (respond later)

theorem Acts.trans {object'' : β} {state'' : CallState κ ρ} {later : List (CallEvent ι κ ρ)}
    (acts : Acts spec party object state events object' state')
    (goesOn : Acts spec party object' state' later object'' state'') :
    Acts spec party object state (events ++ later) object'' state'' := by
  induction acts with
  | stay => exact goesOn
  | invoke _ ih => exact invoke (ih goesOn)
  | commit done _ ih => exact commit done (ih goesOn)
  | respond _ ih => exact respond (ih goesOn)

variable [DecidableEq ι] [DecidableEq ρ]

/-- The atomic object follows what one party does, and the calls of the others
stay as they are. -/
theorem Acts.run (acts : Acts spec party object state events object' state')
    (a : Atomic β ι κ ρ) (same : a.object = object) (own : a.calls party = state) :
    ∃ labels, labels.filterMap AtomicLabel.seen = events ∧
      runFrom (Atomic.step spec) a labels =
        some { object := object', calls := Function.update a.calls party state' } := by
  induction acts generalizing a with
  | stay =>
      subst same own
      exact ⟨[], rfl, by simp⟩
  | @invoke object _ call _ _ _ ih =>
      subst same
      obtain ⟨labels, seen, ran⟩ :=
        ih { a with calls := Function.update a.calls party (.called call) } rfl
          (Function.update_self ..)
      refine ⟨.event (.invoke party call) :: labels, by simp [AtomicLabel.seen, seen], ?_⟩
      simpa [runFrom_cons, Atomic.step, own] using ran
  | @commit object middle _ call answer _ _ done _ ih =>
      subst same
      obtain ⟨labels, seen, ran⟩ :=
        ih { object := middle, calls := Function.update a.calls party (.answered answer) } rfl
          (Function.update_self ..)
      refine ⟨.commit party answer :: labels, seen, ?_⟩
      simpa [runFrom_cons, Atomic.step, own, done] using ran
  | @respond object _ answer _ _ _ ih =>
      subst same
      obtain ⟨labels, seen, ran⟩ :=
        ih { a with calls := Function.update a.calls party .idle } rfl
          (Function.update_self ..)
      refine ⟨.event (.respond party answer) :: labels, by simp [AtomicLabel.seen, seen], ?_⟩
      simpa [runFrom_cons, Atomic.step, own] using ran

/-! ## Programs -/

/-- A program is linearizable if each of its steps is, to the object that it
stands for, something that one party does. -/
theorem Shows.linearizable {next : Step σ α} {shown : σ → α → σ → List (CallEvent ι κ ρ)}
    {start target : σ} {history : List (List (CallEvent ι κ ρ))}
    (object : σ → β) (calls : σ → ι → CallState κ ρ)
    (acts : ∀ source label target, Reachable next start source →
      next source label = some target → ∃ party,
        Acts spec party (object source) (calls source party) (shown source label target)
            (object target) (calls target party) ∧
          ∀ other, other ≠ party → calls target other = calls source other)
    (idle : ∀ party, calls start party = .idle)
    (shows : Shows next (fun source label target => some (shown source label target)) start
      history target) : Linearizable spec (object start) history.flatten := by
  suffices ran : ∃ labels, labels.filterMap AtomicLabel.seen = history.flatten ∧
      runFrom (Atomic.step spec) { object := object start } labels =
        some { object := object target, calls := calls target } by
    obtain ⟨labels, seen, ran⟩ := ran
    exact ⟨labels, _, ran, seen⟩
  induction shows with
  | refl =>
      refine ⟨[], rfl, ?_⟩
      have same : calls start = fun _ => .idle := funext idle
      rw [same]
      rfl
  | @tail history source target label earlier step ih =>
      obtain ⟨labels, seen, ran⟩ := ih
      obtain ⟨party, isAct, others⟩ := acts source label target earlier.reachable step
      obtain ⟨more, added, ranOn⟩ := isAct.run ⟨object source, calls source⟩ rfl rfl
      refine ⟨labels ++ more, ?_, ?_⟩
      · simp [seen, added]
      · have same : Function.update (calls source) party (calls target party) =
            calls target := by
          rw [Function.update_eq_iff]
          exact ⟨rfl, fun other isOther => (others other isOther).symm⟩
        rw [same] at ranOn
        rw [runFrom_append, ran]
        exact ranOn

end Suspend.Transition
