import Suspend.Transition.Core

/-!
# The accesses of a call

One party of a system makes calls, each a row of accesses of its own with the
steps of the other parties in between.  If some rank goes down with each of its
accesses, but for those that are charged to others or to chance at a fixed price,
then the accesses of a call are bounded by what has been charged.
-/

namespace Suspend.Transition

universe u v

variable {σ : Type u} {α : Type v}

/-- What is counted: the accesses of one party, from where a call is about to
make its first one, and the steps that a call is not to pay for. -/
structure Pacing (σ : Type u) (α : Type v) where
  own : σ → α → Bool
  fresh : σ → Bool
  charges : σ → α → Bool

/-- A state with the accesses of the latest call, and what has been charged
during it. -/
structure Paced (σ : Type u) where
  state : σ
  accesses : Nat := 0
  charged : Nat := 0
  deriving DecidableEq, Repr

/-- The steps of the system, with the counts beside it. -/
def Pacing.step (pacing : Pacing σ α) (next : Step σ α) : Step (Paced σ) α :=
  fun paced label =>
    (next paced.state label).map fun state =>
      if pacing.fresh state then { state }
      else
        { state
          accesses := paced.accesses + (pacing.own paced.state label).toNat
          charged := paced.charged + (pacing.charges paced.state label).toNat }

/-- A rank that pays for the accesses, at a fixed price for what is charged. -/
structure Pacing.Pays (pacing : Pacing σ α) (next : Step σ α) (start : σ) (rank : σ → Nat)
    (most price : Nat) : Prop where
  init : rank start ≤ most
  fresh : ∀ state, pacing.fresh state = true → rank state ≤ most
  step : ∀ state label target, Reachable next start state → next state label = some target →
    pacing.fresh target = false →
    rank target + (pacing.own state label).toNat ≤
      rank state + price * (pacing.charges state label).toNat

/-- The counts of a run are within the bound, with what the rank has left. -/
structure Pacing.Within (next : Step σ α) (start : σ) (rank : σ → Nat) (most price : Nat)
    (paced : Paced σ) : Prop where
  reachable : Reachable next start paced.state
  bound : paced.accesses + rank paced.state ≤ most + price * paced.charged

variable {pacing : Pacing σ α} {next : Step σ α} {start : σ} {rank : σ → Nat} {most price : Nat}
  {paced after : Paced σ} {label : α}

theorem Pacing.Within.step (pays : pacing.Pays next start rank most price)
    (within : Within next start rank most price paced)
    (step : pacing.step next paced label = some after) :
    Within next start rank most price after := by
  obtain ⟨reachable, bound⟩ := within
  obtain ⟨target, stepped, rfl⟩ := Option.map_eq_some_iff.mp step
  have reached := reachable.tail trivial stepped
  cases isFresh : pacing.fresh target with
  | true =>
      refine ⟨reached, ?_⟩
      have fresh := pays.fresh target isFresh
      simp only [if_true]
      omega
  | false =>
      refine ⟨reached, ?_⟩
      have paid := pays.step paced.state label target reachable stepped isFresh
      simp only [Bool.false_eq_true, if_false, Nat.mul_add]
      omega

/-- The accesses of a call are bounded by what has been charged during it. -/
theorem Pacing.Pays.accesses_le (pays : pacing.Pays next start rank most price)
    (reachable : Reachable (pacing.step next) { state := start } paced) :
    paced.accesses ≤ most + price * paced.charged := by
  have within : Within next start rank most price paced := by
    apply reachable.invariant
    · refine ⟨ReachableUnder.refl _ _ _, ?_⟩
      have starts := pays.init
      simp only
      omega
    · intro before label after within _ step
      exact within.step pays step
  have bound := within.bound
  omega

end Suspend.Transition
