import Mathlib.Algebra.Order.BigOperators.Group.List
import Mathlib.Algebra.Order.Ring.Nat
import Mathlib.Data.List.Basic

/-!
# Populations

Members that each have a state of their own. A step of one member replaces its state and
leaves the others as they are, so a weight summed over the population changes by what that
member gains or loses. Weights count the members in some states, what the members hold, or
how far they are from their end.
-/

universe u

/-- The states of the members, by number. -/
abbrev Population (α : Type u) := List α

namespace Population

variable {α : Type u}

/-- The sum of a weight over the members. -/
def total (weight : α → Nat) (members : Population α) : Nat := (members.map weight).sum

/-- Who is found after somebody joined was there before, or is the one who joined. -/
theorem found_join {members : Population α} {member found : α} {i : Nat}
    (present : (members ++ [member])[i]? = some found) :
    members[i]? = some found ∨ i = members.length ∧ found = member := by
  rcases Nat.lt_trichotomy i members.length with below | same | above
  · exact .inl (by rwa [List.getElem?_append_left below] at present)
  · subst same
    rw [List.getElem?_concat_length, Option.some.injEq] at present
    exact .inr ⟨rfl, present.symm⟩
  · rw [List.getElem?_eq_none (by simp; omega)] at present
    cases present

/-- Member `i` goes from one state to another. -/
structure Moves (i : Nat) (old new : α) (members next : Population α) : Prop where
  found : members[i]? = some old
  moved : next = members.set i new

/-- A new member adds its weight. -/
theorem total_join (weight : α → Nat) (members : Population α) (member : α) :
    total weight (members ++ [member]) = total weight members + weight member := by
  simp [total]

/-- What the population holds together is exact: the member that moves gives up its old
weight for its new one. -/
theorem Moves.total {i : Nat} {old new : α} {members next : Population α}
    (moves : Moves i old new members next) (weight : α → Nat) :
    total weight next + weight old = total weight members + weight new := by
  obtain ⟨found, rfl⟩ := moves
  induction members generalizing i with
  | nil => cases found
  | cons first rest inductionHypothesis =>
    cases i with
    | zero =>
      obtain rfl : first = old := Option.some.inj found
      simp only [Population.total, List.set_cons_zero, List.map_cons, List.sum_cons]
      omega
    | succ i =>
      have later := inductionHypothesis (i := i) found
      simp only [Population.total, List.set_cons_succ, List.map_cons, List.sum_cons] at later ⊢
      omega

/-- The member that moves is in its new state, and nobody else moves. -/
theorem Moves.state {i : Nat} {old new : α} {members next : Population α}
    (moves : Moves i old new members next) (j : Nat) :
    next[j]? = if i = j then some new else members[j]? := by
  obtain ⟨found, rfl⟩ := moves
  have bound : i < members.length := (List.getElem?_eq_some_iff.mp found).1
  rw [List.getElem?_set]
  by_cases same : i = j
  · simp [same, same ▸ bound]
  · simp [same]

/-- The weight of one number, which is zero where there is no member. -/
def weightAt (weight : α → Nat) (members : Population α) (i : Nat) : Nat :=
  (members[i]?).elim 0 weight

theorem weightAt_found {weight : α → Nat} {members : Population α} {i : Nat} {member : α}
    (found : members[i]? = some member) : weightAt weight members i = weight member := by
  rw [weightAt, found]
  rfl

theorem weightAt_join (weight : α → Nat) (members : Population α) (member : α) (j : Nat) :
    weightAt weight (members ++ [member]) j =
      weightAt weight members j + if members.length = j then weight member else 0 := by
  rcases Nat.lt_trichotomy j members.length with below | rfl | above
  · rw [weightAt, weightAt, List.getElem?_append_left below, if_neg (by omega), Nat.add_zero]
  · simp [weightAt]
  · rw [weightAt, weightAt, List.getElem?_eq_none (by simp; omega),
      List.getElem?_eq_none (by omega), if_neg (by omega), Nat.add_zero]

/-- A move changes the weight of the number that moves. -/
theorem Moves.weightAt {i : Nat} {old new : α} {members next : Population α}
    (moves : Moves i old new members next) (weight : α → Nat) (j : Nat) :
    weightAt weight next j + (if i = j then weight old else 0) =
      weightAt weight members j + if i = j then weight new else 0 := by
  by_cases same : i = j
  · subst same
    have arrived : next[i]? = some new := by rw [moves.state, if_pos rfl]
    rw [weightAt_found arrived, weightAt_found moves.found, if_pos rfl, if_pos rfl, Nat.add_comm]
  · have still : next[j]? = members[j]? := by rw [moves.state, if_neg same]
    rw [Population.weightAt, Population.weightAt, still, if_neg same, if_neg same]

/-- Who has a weight is a member. -/
theorem found_of_weightAt {weight : α → Nat} {members : Population α} {i : Nat}
    (positive : 0 < weightAt weight members i) :
    ∃ member, members[i]? = some member ∧ 0 < weight member := by
  cases found : members[i]? with
  | none => simp [weightAt, found] at positive
  | some member => exact ⟨member, rfl, by rwa [weightAt_found found] at positive⟩

/-- Nobody joins or leaves by moving. -/
theorem Moves.length {i : Nat} {old new : α} {members next : Population α}
    (moves : Moves i old new members next) : next.length = members.length := by
  rw [moves.moved, List.length_set]

/-- A weight that no member has. -/
theorem total_eq_zero {weight : α → Nat} {members : Population α} :
    total weight members = 0 ↔ ∀ member ∈ members, weight member = 0 := by
  simp [total, List.sum_eq_zero_iff_forall_eq_nat]

end Population
