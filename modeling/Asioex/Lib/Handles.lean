import Mathlib.Data.List.ReduceOption
import Mathlib.Data.List.Perm.Basic
import Asioex.Lib.Machine

/-!
# Movable handles

A handle holds one item, or nothing. It takes an item over when it is made, from outside
or from another handle, and gives back what it holds when it is dropped. An assignment
exchanges what two handles hold, and they may be the same one.

Whatever was taken was given back or is held, as often as it was taken.
-/

universe u

/-- The handles there are, and the items that were taken and given back so far. -/
structure Handles (α : Type u) where
  handles : List (Option α)
  taken : List α
  returned : List α

namespace Handles

variable {α : Type u}

inductive Action (α : Type u) where
  | take (item : α)
  | construct (source : Nat)
  | assign (target source : Nat)
  | drop (target : Nat)

def create : Handles α := ⟨[], [], []⟩

def held (s : Handles α) : List α := s.handles.reduceOption

/-- Actions name handles by their places. -/
def step (s : Handles α) : Action α → Option (Handles α)
  | .take item =>
    some { s with handles := s.handles ++ [some item], taken := s.taken ++ [item] }
  | .construct source =>
    s.handles[source]?.map (fun moved =>
      { s with handles := s.handles.set source none ++ [moved] })
  | .assign target source =>
    s.handles[target]?.bind (fun kept =>
      s.handles[source]?.map (fun moved =>
        { s with handles := (s.handles.set source kept).set target moved }))
  | .drop target =>
    s.handles[target]?.map (fun dropped =>
      { s with
        handles := s.handles.eraseIdx target
        returned := s.returned ++ dropped.toList })

def machine : Machine (Handles α) (Action α) := ⟨step⟩

/-- Every item that was taken was given back or is held. -/
def Balanced (s : Handles α) : Prop := s.taken.Perm (s.returned ++ s.held)

theorem create_balanced : (create : Handles α).Balanced := List.Perm.refl _

/-- What handles hold does not depend on their order. -/
theorem held_perm {first second : List (Option α)} (same : first.Perm second) :
    first.reduceOption.Perm second.reduceOption := same.filterMap id

/-- A new handle takes what its source held, and the source holds nothing. -/
theorem construct_perm {handles : List (Option α)} {source : Nat} {moved : Option α}
    (found : handles[source]? = some moved) :
    (handles.set source none ++ [moved]).reduceOption.Perm handles.reduceOption := by
  obtain ⟨inside, rfl⟩ := List.getElem?_eq_some_iff.mp found
  have emptied : (handles.set source none ++ [handles[source]]).Perm
      (none :: handles[source] :: handles.eraseIdx source) := by
    have rest := List.set_perm_cons_eraseIdx inside (none : Option α)
    exact (List.perm_append_singleton _ _).trans ((rest.cons _).trans (List.Perm.swap _ _ _))
  have before : (handles[source] :: handles.eraseIdx source).Perm handles :=
    List.getElem_cons_eraseIdx_perm inside
  have after := (emptied.trans (before.cons none))
  simpa using held_perm after

/-- An assignment exchanges what two handles hold. -/
theorem assign_perm {handles : List (Option α)} {target source : Nat} {kept moved : Option α}
    (there : handles[target]? = some kept) (here : handles[source]? = some moved) :
    ((handles.set source kept).set target moved).reduceOption.Perm handles.reduceOption := by
  obtain ⟨within, rfl⟩ := List.getElem?_eq_some_iff.mp there
  obtain ⟨inside, rfl⟩ := List.getElem?_eq_some_iff.mp here
  exact held_perm (List.set_set_perm inside within)

/-- A handle that is dropped no longer holds its item. -/
theorem drop_perm {handles : List (Option α)} {target : Nat} {dropped : Option α}
    (found : handles[target]? = some dropped) :
    handles.reduceOption.Perm (dropped.toList ++ (handles.eraseIdx target).reduceOption) := by
  obtain ⟨inside, rfl⟩ := List.getElem?_eq_some_iff.mp found
  have before := held_perm (List.getElem_cons_eraseIdx_perm inside).symm
  cases item : handles[target] with
  | none => simpa [item] using before
  | some value => simpa [item] using before

/-- Every action keeps the balance. -/
theorem step_balanced (s : Handles α) (action : Action α) (next : Handles α)
    (balanced : s.Balanced) (stepped : machine.step s action = some next) : next.Balanced := by
  cases action with
  | take item =>
    obtain rfl := Option.some.inj stepped
    have more : (s.taken ++ [item]).Perm (s.returned ++ (s.held ++ [item])) := by
      rw [← List.append_assoc]
      exact balanced.append_right [item]
    simpa [Balanced, held, List.reduceOption_append] using more
  | construct source =>
    obtain ⟨moved, found, rfl⟩ := Option.map_eq_some_iff.mp stepped
    exact balanced.trans ((construct_perm found).symm.append_left s.returned)
  | assign target source =>
    obtain ⟨kept, there, assigned⟩ := Option.bind_eq_some_iff.mp stepped
    obtain ⟨moved, here, rfl⟩ := Option.map_eq_some_iff.mp assigned
    exact balanced.trans ((assign_perm there here).symm.append_left s.returned)
  | drop target =>
    obtain ⟨dropped, found, rfl⟩ := Option.map_eq_some_iff.mp stepped
    have shared := balanced.trans ((drop_perm found).append_left s.returned)
    simpa [Balanced, held, List.append_assoc] using shared

end Handles
