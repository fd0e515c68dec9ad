import Asioex.Lib.Machine
import Mathlib.Logic.Function.Basic

/-!
# Mutexes and the histories of their use

A mutex has at most one holder. A party may lock it when it has none, and may
unlock it only as its holder. The history of a set of mutexes is the list of these
marks in the order they were made. It is lawful when it can be replayed, mark by
mark, by mutexes that refuse every other use.

A lawful history pairs each acquisition with a release by the same party, except
the acquisitions of the present holders: that is what replaying it establishes.
-/

universe u v

/-- What a party did to a mutex. -/
inductive Mark (P : Type u) (L : Type v) where
  | lock (party : P) (mutex : L)
  | unlock (party : P) (mutex : L)
deriving DecidableEq

namespace Mark

variable {P : Type u} {L : Type v} [DecidableEq P] [DecidableEq L]

/-- Lock a free mutex, or unlock a mutex as its holder. -/
def apply (owner : L → Option P) : Mark P L → Option (L → Option P)
  | .lock party mutex =>
    if owner mutex = none then some (Function.update owner mutex (some party)) else none
  | .unlock party mutex =>
    if owner mutex = some party then some (Function.update owner mutex none) else none

/-- Mutexes that refuse an unlawful use. -/
def machine : Machine (L → Option P) (Mark P L) := ⟨apply⟩

/-- A history that free mutexes replay, ending with these holders. -/
def Lawful (history : List (Mark P L)) (owner : L → Option P) : Prop :=
  machine.run (fun _ => none) history = some owner

theorem lawful_nil : Lawful ([] : List (Mark P L)) (fun _ => none) := rfl

/-- A lawful history is continued by locking a mutex that is free. -/
theorem Lawful.lock {history : List (Mark P L)} {owner : L → Option P}
    (lawful : Lawful history owner) {party : P} {mutex : L} (free : owner mutex = none) :
    Lawful (history ++ [.lock party mutex]) (Function.update owner mutex (some party)) :=
  (machine.run_snoc).mpr ⟨owner, lawful, by simp [machine, apply, free]⟩

/-- A lawful history is continued by unlocking a mutex that one holds. -/
theorem Lawful.unlock {history : List (Mark P L)} {owner : L → Option P}
    (lawful : Lawful history owner) {party : P} {mutex : L} (holds : owner mutex = some party) :
    Lawful (history ++ [.unlock party mutex]) (Function.update owner mutex none) :=
  (machine.run_snoc).mpr ⟨owner, lawful, by simp [machine, apply, holds]⟩

/-- One lawful use changes the balance of one party at one mutex. -/
theorem apply_balanced {owner next : L → Option P} {mark : Mark P L}
    (applied : mark.apply owner = some next) (party : P) (mutex : L) :
    [mark].count (.lock party mutex) + (if owner mutex = some party then 1 else 0) =
      [mark].count (.unlock party mutex) + if next mutex = some party then 1 else 0 := by
  cases mark with
  | lock actor used =>
    simp only [apply, Option.ite_none_right_eq_some, Option.some.injEq] at applied
    obtain ⟨free, rfl⟩ := applied
    by_cases same : mutex = used
    · subst same
      by_cases mine : actor = party <;> simp [free, mine]
    · simp [Function.update_of_ne same, Ne.symm same]
  | unlock actor used =>
    simp only [apply, Option.ite_none_right_eq_some, Option.some.injEq] at applied
    obtain ⟨holds, rfl⟩ := applied
    by_cases same : mutex = used
    · subst same
      by_cases mine : actor = party <;> simp [holds, mine]
    · simp [Function.update_of_ne same, Ne.symm same]

/-- Replaying marks keeps the balance of every party at every mutex. -/
theorem run_balanced {owner last : L → Option P} {history : List (Mark P L)}
    (replayed : machine.run owner history = some last) (party : P) (mutex : L) :
    history.count (.lock party mutex) + (if owner mutex = some party then 1 else 0) =
      history.count (.unlock party mutex) + if last mutex = some party then 1 else 0 := by
  induction history generalizing owner with
  | nil =>
    obtain rfl := Option.some.inj replayed
    rfl
  | cons mark rest inductionHypothesis =>
    obtain ⟨next, applied, following⟩ := (machine.run_cons).mp replayed
    have first := apply_balanced applied party mutex
    have later := inductionHypothesis following
    have split (kind : Mark P L) : (mark :: rest).count kind = [mark].count kind + rest.count kind := by
      rw [← List.count_append, List.singleton_append]
    rw [split, split]
    omega

/-- In a lawful history each acquisition by a party is matched by one release by the
same party, but for a mutex that it holds. -/
theorem Lawful.matched {history : List (Mark P L)} {owner : L → Option P}
    (lawful : Lawful history owner) (party : P) (mutex : L) :
    history.count (.lock party mutex) =
      history.count (.unlock party mutex) + if owner mutex = some party then 1 else 0 := by
  simpa using run_balanced lawful party mutex

end Mark
