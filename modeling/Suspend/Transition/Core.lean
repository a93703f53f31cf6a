import Mathlib.Logic.Relation
import Mathlib.Data.Option.Basic

/-!
# Labelled partial transitions

A concurrent program is modelled here by an option-valued step: a label names
the party that moves and whatever the environment chooses for it, and `none`
says that the label is not enabled.  A run is a list of labels, which keeps
every schedule executable; reachability is the closure of the steps whose
label meets a side condition at the state it leaves.
-/

namespace Suspend.Transition

universe u v w

/-- A partial transition of states `σ` under labels `α`. -/
abbrev Step (σ : Type u) (α : Type v) :=
  σ → α → Option σ

variable {σ : Type u} {α : Type v}

/-- Execute a schedule.  A label that is not enabled makes the run fail. -/
def runFrom (next : Step σ α) : σ → List α → Option σ
  | state, [] => some state
  | state, label :: rest => (next state label).bind fun target => runFrom next target rest

@[simp]
theorem runFrom_nil (next : Step σ α) (state : σ) : runFrom next state [] = some state :=
  rfl

theorem runFrom_cons (next : Step σ α) (state : σ) (label : α) (rest : List α) :
    runFrom next state (label :: rest) =
      (next state label).bind fun target => runFrom next target rest :=
  rfl

/-- Running a concatenation is running its parts one after the other. -/
theorem runFrom_append (next : Step σ α) (state : σ) (first second : List α) :
    runFrom next state (first ++ second) =
      (runFrom next state first).bind fun target => runFrom next target second := by
  induction first generalizing state with
  | nil => rfl
  | cons label rest ih =>
      simp only [List.cons_append, runFrom_cons, Option.bind_assoc, ih]

/-- The runs of a part, whose steps are steps of the whole, are runs of the whole. -/
theorem runFrom_embed {τ ι : Type*} {β : Type*} {inner : Step σ α} {outer : Step τ β}
    {ofInner : ι → α} {ofOuter : ι → β} {state target : σ} {parties : List ι} (embed : σ → τ)
    (steps : ∀ source party result, inner source (ofInner party) = some result →
      outer (embed source) (ofOuter party) = some (embed result))
    (ran : runFrom inner state (parties.map ofInner) = some target) :
    runFrom outer (embed state) (parties.map ofOuter) = some (embed target) := by
  induction parties generalizing state with
  | nil =>
      obtain rfl := Option.some.inj ran
      rfl
  | cons party rest ih =>
      rw [List.map_cons, runFrom_cons, Option.bind_eq_some_iff] at ran
      obtain ⟨middle, step, rested⟩ := ran
      rw [List.map_cons, runFrom_cons, steps state party middle step, Option.bind_some]
      exact ih rested

/-- One step whose label meets `cond` at the state it leaves. -/
def StepUnder (next : Step σ α) (cond : σ → α → Prop) (source target : σ) : Prop :=
  ∃ label, cond source label ∧ next source label = some target

/-- States reached by runs all of whose steps meet `cond`. -/
def ReachableUnder (next : Step σ α) (cond : σ → α → Prop) : σ → σ → Prop :=
  Relation.ReflTransGen (StepUnder next cond)

/-- States reached by any run. -/
def Reachable (next : Step σ α) : σ → σ → Prop :=
  ReachableUnder next fun _ _ => True

namespace ReachableUnder

variable {next : Step σ α} {cond weaker : σ → α → Prop} {start source target : σ}

theorem refl (next : Step σ α) (cond : σ → α → Prop) (start : σ) :
    ReachableUnder next cond start start :=
  Relation.ReflTransGen.refl

theorem tail {label : α} (reachable : ReachableUnder next cond start source)
    (careful : cond source label) (step : next source label = some target) :
    ReachableUnder next cond start target :=
  Relation.ReflTransGen.tail reachable ⟨label, careful, step⟩

/-- A condition may be weakened. -/
theorem mono (weaken : ∀ state label, cond state label → weaker state label)
    (reachable : ReachableUnder next cond start target) :
    ReachableUnder next weaker start target :=
  Relation.ReflTransGen.mono
    (fun source _ ⟨label, careful, step⟩ => ⟨label, weaken source label careful, step⟩)
    _ _ reachable

theorem reachable (reachable : ReachableUnder next cond start target) :
    Reachable next start target :=
  reachable.mono fun _ _ _ => trivial

/-- The invariant rule: what holds at the start and is kept by every step
that meets the condition holds in every state reached. -/
theorem invariant {inv : σ → Prop} (initial : inv start)
    (preserved : ∀ state label result, inv state → cond state label →
      next state label = some result → inv result)
    (reachable : ReachableUnder next cond start target) : inv target := by
  induction reachable with
  | refl => exact initial
  | tail _ step ih =>
      obtain ⟨label, careful, stepped⟩ := step
      exact preserved _ label _ ih careful stepped

/-- The invariant rule relative to a fact already known of every reachable
state. -/
theorem invariant_with {known inv : σ → Prop}
    (knownAll : ∀ state, ReachableUnder next cond start state → known state)
    (initial : inv start)
    (preserved : ∀ state label result, known state → inv state → cond state label →
      next state label = some result → inv result)
    (reachable : ReachableUnder next cond start target) : inv target := by
  induction reachable with
  | refl => exact initial
  | tail earlier step ih =>
      obtain ⟨label, careful, stepped⟩ := step
      exact preserved _ label _ (knownAll _ earlier) ih careful stepped

end ReachableUnder

/-- A transition that is enabled only where `cond` allows it. -/
def guarded (next : Step σ α) (cond : σ → α → Bool) : Step σ α :=
  fun state label => if cond state label then next state label else none

/-- A successful schedule of the guarded transition ends in a state reached
under the guard. -/
theorem reachableUnder_of_runFrom {next : Step σ α} {cond : σ → α → Bool} {start target : σ}
    {labels : List α} (run : runFrom (guarded next cond) start labels = some target) :
    ReachableUnder next (fun state label => cond state label = true) start target := by
  induction labels generalizing start with
  | nil =>
      cases run
      exact ReachableUnder.refl _ _ _
  | cons label rest ih =>
      rw [runFrom_cons, Option.bind_eq_some_iff] at run
      obtain ⟨middle, step, last⟩ := run
      by_cases careful : cond start label = true
      · rw [guarded, if_pos careful] at step
        exact Relation.ReflTransGen.head ⟨label, careful, step⟩ (ih last)
      · rw [guarded, if_neg careful] at step
        cases step

/-- A successful schedule ends in a reachable state. -/
theorem reachable_of_runFrom {next : Step σ α} {start target : σ} {labels : List α}
    (run : runFrom next start labels = some target) : Reachable next start target := by
  have always : guarded next (fun _ _ => true) = next := by
    funext state label
    rfl
  rw [← always] at run
  exact (reachableUnder_of_runFrom run).reachable

/-! ## Programs -/

/-- Where a call stands after one of its steps. -/
inductive Outcome (P : Type u) (R : Type v) where
  | goto (pc : P)
  | ret (result : R)
  deriving DecidableEq, Repr

/-- A reading of both outcomes. -/
def Outcome.elim {P : Type u} {R : Type v} {α : Sort w} (atPc : P → α) (atRet : R → α) :
    Outcome P R → α
  | .goto pc => atPc pc
  | .ret result => atRet result

end Suspend.Transition
