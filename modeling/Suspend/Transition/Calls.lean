import Mathlib.Tactic.Common

/-!
# Sequences of calls

A component is driven by a list of calls, each of which answers and leaves the
component in its next state.  One that checks its contract may refuse a call;
the sequence then ends there.
-/

namespace Suspend.Transition

universe u v w x y

variable {σ : Type u} {τ : Type v} {α : Type w} {ρ : Type x} {ε : Type y}

/-- The answers to a sequence of calls, and the state after it. -/
def answers (call : τ → α → ρ × τ) : τ → List α → List ρ × τ
  | state, [] => ([], state)
  | state, first :: rest =>
      let (answer, next) := call state first
      let (others, last) := answers call next rest
      (answer :: others, last)

end Suspend.Transition
