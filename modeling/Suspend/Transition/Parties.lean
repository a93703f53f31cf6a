import Mathlib.Algebra.Ring.Nat
import Mathlib.Algebra.Order.BigOperators.Group.List
import Mathlib.Algebra.Order.Group.Nat
import Mathlib.Tactic.Common

/-!
# Lists of parties

A system has a list of parties of which one moves at a time; `parties.set index
target` is the list after the move.  What the parties hold together is a sum
over the list, and a move changes it by what the one party has gained or lost.
-/

namespace Suspend.Transition

universe u v w

variable {α : Type u} {β : Type v}

/-- What the parties hold together. -/
def tally (weight : α → Nat) (parties : List α) : Nat :=
  (parties.map weight).sum

variable {weight : α → Nat} {parties : List α} {index : Nat} {source target : α}

@[simp]
theorem tally_nil (weight : α → Nat) : tally weight [] = 0 :=
  rfl

@[simp]
theorem tally_cons (weight : α → Nat) (party : α) (parties : List α) :
    tally weight (party :: parties) = weight party + tally weight parties := by
  simp [tally]

@[simp]
theorem tally_append (weight : α → Nat) (parties others : List α) :
    tally weight (parties ++ others) = tally weight parties + tally weight others := by
  simp [tally]

@[simp]
theorem tally_replicate (weight : α → Nat) (count : Nat) (party : α) :
    tally weight (List.replicate count party) = count * weight party := by
  induction count with
  | zero => rw [List.replicate_zero, tally_nil, Nat.zero_mul]
  | succ count ih => rw [List.replicate_succ, tally_cons, ih, Nat.succ_mul, Nat.add_comm]

theorem tally_map (weight : β → Nat) (view : α → β) (parties : List α) :
    tally weight (parties.map view) = tally (weight ∘ view) parties := by
  simp [tally]

theorem tally_add (weight other : α → Nat) (parties : List α) :
    tally (fun party => weight party + other party) parties =
      tally weight parties + tally other parties := by
  induction parties with
  | nil => rfl
  | cons party parties ih =>
      simp only [tally_cons, ih]
      omega

theorem tally_mono {other : α → Nat} (less : ∀ party, weight party ≤ other party)
    (parties : List α) : tally weight parties ≤ tally other parties := by
  induction parties with
  | nil => exact le_rfl
  | cons party parties ih => exact Nat.add_le_add (less party) ih

/-- A move changes the sum by what the party has gained or lost. -/
theorem tally_moved (weight : α → Nat) (found : parties[index]? = some source) (target : α) :
    tally weight (parties.set index target) + weight source =
      tally weight parties + weight target := by
  induction parties generalizing index with
  | nil => simp at found
  | cons party parties ih =>
      cases index with
      | zero =>
          obtain rfl : party = source := by simpa using found
          simp only [List.set_cons_zero, tally_cons]
          omega
      | succ index =>
          have moved := ih (by simpa using found)
          simp only [List.set_cons_succ, tally_cons]
          omega

/-- The same for what is not counted in numbers. -/
theorem sum_moved {γ : Type w} [AddCommMonoid γ] (weight : α → γ)
    (found : parties[index]? = some source) (target : α) :
    ((parties.set index target).map weight).sum + weight source =
      (parties.map weight).sum + weight target := by
  induction parties generalizing index with
  | nil => simp at found
  | cons party parties ih =>
      cases index with
      | zero =>
          obtain rfl : party = source := by simpa using found
          simp only [List.set_cons_zero, List.map_cons, List.sum_cons]
          ac_rfl
      | succ index =>
          have moved := ih (by simpa using found)
          simp only [List.set_cons_succ, List.map_cons, List.sum_cons, add_assoc, moved]

/-- A party holds at most what all hold together. -/
theorem le_tally (weight : α → Nat) {party : α} (isParty : party ∈ parties) :
    weight party ≤ tally weight parties :=
  List.le_sum_of_mem (List.mem_map_of_mem isParty)

theorem le_tally_of_found (weight : α → Nat) (found : parties[index]? = some source) :
    weight source ≤ tally weight parties :=
  le_tally weight (List.mem_of_getElem? found)

/-- If together they hold something, one of them does. -/
theorem exists_of_tally_pos (positive : 0 < tally weight parties) :
    ∃ party ∈ parties, 0 < weight party := by
  by_contra none
  have empty : tally weight parties = 0 := by
    apply List.sum_eq_zero
    intro held isHeld
    obtain ⟨party, isParty, rfl⟩ := List.mem_map.mp isHeld
    by_contra some
    exact none ⟨party, isParty, Nat.pos_of_ne_zero some⟩
  omega

theorem mem_moved (found : parties[index]? = some source) (target : α) :
    target ∈ parties.set index target :=
  List.mem_set (List.getElem?_eq_some_iff.mp found).1 _

/-- A property of all parties is kept by a move to a party that has it. -/
theorem forall_moved {property : α → Prop} (all : ∀ party ∈ parties, property party)
    (isTarget : property target) : ∀ party ∈ parties.set index target, property party := by
  intro party isParty
  rcases List.mem_or_eq_of_mem_set isParty with earlier | rfl
  · exact all party earlier
  · exact isTarget

end Suspend.Transition
