import Asioex.Lib.Machine
import Mathlib.Data.List.Pairwise

/-!
# Claims of several things at once

Parties claim groups of things, each all at once. A group is claimed when nothing in it
was claimed before, and refused when something was. Nothing is given back.

So the groups claimed in a run are disjoint, and a refused group meets one of them.
-/

universe u v

namespace Claims

variable {P : Type u} {L : Type v}

/-- A group is claimed, or refused. -/
inductive Event (P : Type u) (L : Type v) where
  | claim (party : P) (group : List L)
  | refuse (party : P) (group : List L)
deriving DecidableEq

/-- The groups that were claimed, in order. -/
def groups (events : List (Event P L)) : List (List L) :=
  events.filterMap (fun event =>
    match event with
    | .claim _ group => some group
    | .refuse _ _ => none)

@[simp] theorem groups_nil : groups ([] : List (Event P L)) = [] := rfl

@[simp] theorem groups_claim (party : P) (group : List L) (rest : List (Event P L)) :
    groups (.claim party group :: rest) = group :: groups rest := rfl

@[simp] theorem groups_refuse (party : P) (group : List L) (rest : List (Event P L)) :
    groups (.refuse party group :: rest) = groups rest := rfl

variable [DecidableEq L]

/-- Who has claimed what, and the two answers. -/
def step (claimer : L → Option P) : Event P L → Option (L → Option P)
  | .claim party group =>
    if ∀ item ∈ group, claimer item = none then
      some (fun item => if item ∈ group then some party else claimer item)
    else none
  | .refuse _ group => if ∃ item ∈ group, (claimer item).isSome then some claimer else none

def machine : Machine (L → Option P) (Event P L) := ⟨step⟩

/-- What is claimed after a run was claimed before it or is in a group of it. -/
theorem run_claimed {claimer last : L → Option P} {events : List (Event P L)}
    (ran : machine.run claimer events = some last) (item : L) :
    (last item).isSome = true ↔
      (claimer item).isSome = true ∨ ∃ group ∈ groups events, item ∈ group := by
  induction events generalizing claimer with
  | nil =>
    obtain rfl := Option.some.inj ran
    simp
  | cons event rest inductionHypothesis =>
    obtain ⟨next, stepped, following⟩ := machine.run_cons.mp ran
    rw [inductionHypothesis following]
    cases event with
    | claim party group =>
      obtain ⟨-, same⟩ := Option.ite_none_right_eq_some.mp stepped
      obtain rfl := Option.some.inj same
      by_cases inside : item ∈ group <;> simp [inside]
    | refuse party group =>
      obtain ⟨-, same⟩ := Option.ite_none_right_eq_some.mp stepped
      obtain rfl := Option.some.inj same
      rfl

/-- What somebody has claimed stays theirs. -/
theorem run_kept {claimer last : L → Option P} {events : List (Event P L)}
    (ran : machine.run claimer events = some last) {item : L} {party : P}
    (claimed : claimer item = some party) : last item = some party := by
  have keeps (before : L → Option P) (event : Event P L) (after : L → Option P)
      (before_claimed : before item = some party)
      (stepped : machine.step before event = some after) : after item = some party := by
    cases event with
    | claim other group =>
      obtain ⟨fresh, same⟩ := Option.ite_none_right_eq_some.mp stepped
      obtain rfl := Option.some.inj same
      have apart : item ∉ group := by
        intro inside
        cases before_claimed.symm.trans (fresh item inside)
      exact (if_neg apart).trans before_claimed
    | refuse other group =>
      obtain ⟨-, same⟩ := Option.ite_none_right_eq_some.mp stepped
      exact Option.some.inj same ▸ before_claimed
  exact machine.run_invariant keeps claimed ran

/-- Nothing in a group that a run claims was claimed before the run. -/
theorem run_fresh {claimer last : L → Option P} {events : List (Event P L)}
    (ran : machine.run claimer events = some last) {group : List L}
    (member : group ∈ groups events) : ∀ item ∈ group, claimer item = none := by
  induction events generalizing claimer with
  | nil => simp at member
  | cons event rest inductionHypothesis =>
    obtain ⟨next, stepped, following⟩ := machine.run_cons.mp ran
    cases event with
    | claim party first =>
      obtain ⟨fresh, same⟩ := Option.ite_none_right_eq_some.mp stepped
      obtain rfl := Option.some.inj same
      rcases List.mem_cons.mp member with rfl | later
      · exact fresh
      · intro item inside
        have clear := inductionHypothesis following later item inside
        by_cases taken : item ∈ first
        · simp [taken] at clear
        · simpa [taken] using clear
    | refuse party first =>
      obtain ⟨-, same⟩ := Option.ite_none_right_eq_some.mp stepped
      obtain rfl := Option.some.inj same
      exact inductionHypothesis following member

/-- The groups claimed in a run are disjoint. -/
theorem run_disjoint {claimer last : L → Option P} {events : List (Event P L)}
    (ran : machine.run claimer events = some last) :
    (groups events).Pairwise List.Disjoint := by
  induction events generalizing claimer with
  | nil => exact List.Pairwise.nil
  | cons event rest inductionHypothesis =>
    obtain ⟨next, stepped, following⟩ := machine.run_cons.mp ran
    have later := inductionHypothesis following
    cases event with
    | refuse party group => exact later
    | claim party group =>
      obtain ⟨-, same⟩ := Option.ite_none_right_eq_some.mp stepped
      obtain rfl := Option.some.inj same
      refine List.pairwise_cons.mpr ⟨fun other member item inside inside' => ?_, later⟩
      have clear := run_fresh following member item inside'
      simp [inside] at clear

/-- A refused group meets one that was claimed before. -/
theorem refused_meets {last : L → Option P} {before after : List (Event P L)} {party : P}
    {group : List L}
    (ran : machine.run (fun _ => none) (before ++ .refuse party group :: after) = some last) :
    ∃ earlier ∈ groups before, ∃ item ∈ group, item ∈ earlier := by
  obtain ⟨middle, first, second⟩ := machine.run_append.mp ran
  obtain ⟨next, stepped, -⟩ := machine.run_cons.mp second
  obtain ⟨⟨item, inside, set⟩, -⟩ := Option.ite_none_right_eq_some.mp stepped
  obtain ⟨earlier, member, shared⟩ := ((run_claimed first item).mp set).resolve_left (by simp)
  exact ⟨earlier, member, item, inside, shared⟩

end Claims
