import Suspend.Transition.Core

/-!
# Systems that come to rest

If some rank goes down with each step, but for those that are charged at a fixed
price, then a run has no more steps than the rank and the charged ones pay for.
A system that is left alone so comes to a state in which nobody can move.
-/

namespace Suspend.Transition

universe u v

variable {σ : Type u} {α : Type v}

/-- None of the labels of `own` is enabled. -/
def Resting (next : Step σ α) (own : α → Bool) (state : σ) : Prop :=
  ∀ label, own label = true → next state label = none

/-- A rank that pays for the steps that count, at a fixed price for those that are
charged, as long as only `quiet` labels come.  `known` is what the rank relies on. -/
def Spends (next : Step σ α) (known : σ → Prop) (quiet counts charges : α → Bool)
    (rank : σ → Nat) (price : Nat) : Prop :=
  ∀ state label target, known state → quiet label = true → next state label = some target →
    known target ∧
      rank target + (counts label).toNat ≤ rank state + price * (charges label).toNat

variable {next : Step σ α} {known : σ → Prop} {quiet counts charges : α → Bool} {rank : σ → Nat}
  {price : Nat} {state target : σ} {labels : List α}

/-- What counts in a run is within what the rank and the charged steps pay for. -/
theorem Spends.countP_add_le (spends : Spends next known quiet counts charges rank price)
    (isKnown : known state) (quietly : ∀ label ∈ labels, quiet label = true)
    (ran : runFrom next state labels = some target) :
    labels.countP counts + rank target ≤ rank state + price * labels.countP charges := by
  induction labels generalizing state with
  | nil =>
      obtain rfl := Option.some.inj ran
      simp
  | cons label rest ih =>
      rw [runFrom_cons, Option.bind_eq_some_iff] at ran
      obtain ⟨middle, step, ran⟩ := ran
      obtain ⟨isQuiet, quietly⟩ := List.forall_mem_cons.mp quietly
      obtain ⟨isKnown, paid⟩ := spends state label middle isKnown isQuiet step
      have rested := ih isKnown quietly ran
      rw [List.countP_cons, List.countP_cons]
      cases counted : counts label <;> cases charged : charges label <;>
        simp [counted, charged, Nat.mul_add] at paid ⊢ <;> omega

end Suspend.Transition
