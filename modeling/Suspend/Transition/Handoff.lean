import Mathlib.Tactic.Common

/-!
# Two owners, one flag

An allocation is shared by two parties that do not count references.  A flag
says that nobody has left yet: the party that clears it leaves and never
touches the allocation again; a party that finds it cleared is the last one
and frees.  A configuration is seen from one of the parties, and `swap` turns
it round.
-/

namespace Suspend.Handoff

/-- Where a party stands: it may still use the allocation, it knows that it is
the last one and is to free it, or it is done with it. -/
inductive Stage where
  | using
  | last
  | left
  deriving DecidableEq, Repr

/-- The flag, the two parties, how often the allocation has been freed, and
whether it has been touched after that. -/
structure Config where
  shared : Bool
  mine : Stage
  theirs : Stage
  freed : Nat
  stale : Bool

namespace Config

/-- The same configuration, seen from the other party. -/
def swap (c : Config) : Config :=
  { c with mine := c.theirs, theirs := c.mine }

@[simp]
theorem swap_swap (c : Config) : c.swap.swap = c :=
  rfl

/-- Touching the allocation. -/
def touch (c : Config) : Config :=
  { c with stale := c.stale || c.freed != 0 }

end Config

/-- What one party may do in one step. -/
inductive Move : Config → Config → Prop
  /-- Nothing that concerns the allocation. -/
  | silent (c : Config) : Move c c
  /-- An access to the allocation. -/
  | use {c : Config} (holds : c.mine ≠ .left) : Move c c.touch
  /-- The access that clears the flag. -/
  | leave {c : Config} (holds : c.mine = .using) (shared : c.shared = true) :
      Move c { c.touch with shared := false, mine := .left }
  /-- The access that finds the flag cleared. -/
  | last {c : Config} (holds : c.mine = .using) (alone : c.shared = false) :
      Move c { c.touch with mine := .last }
  /-- The last party frees the allocation. -/
  | free {c : Config} (isLast : c.mine = .last) :
      Move c { c with freed := c.freed + 1, mine := .left }

/-- A move, told by what it does to each field. -/
theorem Move.of_fields {c next : Config} (theirs : next.theirs = c.theirs)
    (step :
      (next.shared = c.shared ∧ next.mine = c.mine ∧ next.freed = c.freed ∧
        next.stale = c.stale) ∨
      (next.freed = c.freed ∧ next.stale = (c.stale || c.freed != 0) ∧ c.mine ≠ .left ∧
        ((next.shared = c.shared ∧ next.mine = c.mine) ∨
        (c.mine = .using ∧ c.shared = true ∧ next.shared = false ∧ next.mine = .left) ∨
        (c.mine = .using ∧ c.shared = false ∧ next.shared = false ∧ next.mine = .last))) ∨
      (c.mine = .last ∧ next.shared = c.shared ∧ next.freed = c.freed + 1 ∧
        next.stale = c.stale ∧ next.mine = .left)) :
    Move c next := by
  rcases c with ⟨shared, mine, others, freed, stale⟩
  rcases next with ⟨shared', mine', others', freed', stale'⟩
  simp only at theirs step
  subst theirs
  rcases step with ⟨rfl, rfl, rfl, rfl⟩ | ⟨rfl, rfl, holds, step⟩ | ⟨rfl, rfl, rfl, rfl, rfl⟩
  · exact .silent _
  · rcases step with ⟨rfl, rfl⟩ | ⟨rfl, rfl, rfl, rfl⟩ | ⟨rfl, rfl, rfl, rfl⟩
    · exact .use (c := ⟨_, _, _, _, _⟩) holds
    · exact .leave (c := ⟨_, _, _, _, _⟩) rfl rfl
    · exact .last (c := ⟨_, _, _, _, _⟩) rfl rfl
  · exact .free (c := ⟨_, _, _, _, _⟩) rfl

/-- The flag, the stages and the allocation agree. -/
structure Valid (c : Config) : Prop where
  shared_iff : c.shared = true → c.mine = .using ∧ c.theirs = .using ∧ c.freed = 0
  alone_mine : c.shared = false → c.mine ≠ .left → c.theirs = .left ∧ c.freed = 0
  alone_theirs : c.shared = false → c.theirs ≠ .left → c.mine = .left ∧ c.freed = 0
  both_left : c.mine = .left → c.theirs = .left → c.freed = 1
  fresh : c.stale = false

namespace Valid

variable {c next : Config}

theorem swap (valid : Valid c) : Valid c.swap where
  shared_iff shared := by
    obtain ⟨mine, theirs, unfreed⟩ := valid.shared_iff shared
    exact ⟨theirs, mine, unfreed⟩
  alone_mine := valid.alone_theirs
  alone_theirs := valid.alone_mine
  both_left theirs mine := valid.both_left mine theirs
  fresh := valid.fresh

/-- Who still holds the allocation finds it unfreed. -/
theorem unfreed (valid : Valid c) (holds : c.mine ≠ .left) : c.freed = 0 := by
  cases shared : c.shared with
  | true => exact (valid.shared_iff shared).2.2
  | false => exact (valid.alone_mine shared holds).2

theorem touch_eq (valid : Valid c) (holds : c.mine ≠ .left) : c.touch = c := by
  have unfreed := valid.unfreed holds
  cases c
  simp_all [Config.touch]

/-- Every move of a party keeps the configuration valid. -/
theorem move (valid : Valid c) (moved : Move c next) : Valid next := by
  induction moved with
  | silent => exact valid
  | use holds => rwa [valid.touch_eq holds]
  | leave holds shared =>
      obtain ⟨_, theirs, unfreed⟩ := valid.shared_iff shared
      rw [valid.touch_eq (by simp [holds])]
      exact ⟨by simp, by simp, fun _ _ => ⟨rfl, unfreed⟩, by simp [theirs], valid.fresh⟩
  | last holds alone =>
      have isAlone := valid.alone_mine alone (by simp [holds])
      rw [valid.touch_eq (by simp [holds])]
      refine ⟨by simp [alone], fun _ _ => isAlone, ?_, by simp, valid.fresh⟩
      intro _ theirs
      exact absurd isAlone.1 theirs
  | free isLast =>
      have notShared : c.shared = false := by
        cases shared : c.shared with
        | false => rfl
        | true =>
            have inUse := (valid.shared_iff shared).1
            simp [isLast] at inUse
      obtain ⟨theirs, unfreed⟩ := valid.alone_mine notShared (by simp [isLast])
      exact ⟨by simp [notShared], by simp, by simp [theirs], by simp [unfreed], valid.fresh⟩

theorem freed_le_one (valid : Valid c) : c.freed ≤ 1 := by
  by_cases mine : c.mine = .left
  · by_cases theirs : c.theirs = .left
    · have freed := valid.both_left mine theirs
      omega
    · have unfreed : c.freed = 0 := valid.swap.unfreed theirs
      omega
  · have unfreed := valid.unfreed mine
    omega

end Valid

end Suspend.Handoff
