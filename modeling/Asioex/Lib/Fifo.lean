import Mathlib.Data.List.Rotate
import Mathlib.Data.Nat.ModEq
import Asioex.Lib.Machine

/-!
# First in, first out

A queue is a list that is pushed at the back and popped at the front. What was pushed is
what was served followed by what waits, in the same order: nothing is lost, duplicated or
reordered.

A list of slots that is read around, from one position on and back to its start, is the
list rotated to that position. The laws say what a write to the next slot, a step of the
position and a longer list do to what is read.
-/

universe u

/-- What waits, oldest first, and what was served, in order. -/
structure Fifo (α : Type u) where
  waiting : List α
  served : List α

namespace Fifo

variable {α : Type u}

inductive Event (α : Type u) where
  | push (item : α)
  | pop

def create : Fifo α := ⟨[], []⟩

/-- An empty queue is not popped. -/
def step (queue : Fifo α) : Event α → Option (Fifo α)
  | .push item => some { queue with waiting := queue.waiting ++ [item] }
  | .pop =>
    match queue.waiting with
    | [] => none
    | first :: rest => some ⟨rest, queue.served ++ [first]⟩

def machine : Machine (Fifo α) (Event α) := ⟨step⟩

/-- The items that events push. -/
def pushed : List (Event α) → List α
  | [] => []
  | .push item :: rest => item :: pushed rest
  | .pop :: rest => pushed rest

@[simp] theorem pushed_append (first second : List (Event α)) :
    pushed (first ++ second) = pushed first ++ pushed second := by
  induction first with
  | nil => rfl
  | cons event rest inductionHypothesis =>
    cases event with
    | push item => exact congrArg (item :: ·) inductionHypothesis
    | pop => exact inductionHypothesis

/-- What was pushed was served or waits, in the order in which it came. -/
theorem run_pushed {events : List (Event α)} {queue : Fifo α}
    (ran : machine.run create events = some queue) :
    pushed events = queue.served ++ queue.waiting := by
  have keeps (past : List (Event α)) (s : Fifo α) (event : Event α) (next : Fifo α)
      (before : pushed past = s.served ++ s.waiting) (stepped : machine.step s event = some next) :
      pushed (past ++ [event]) = next.served ++ next.waiting := by
    rw [pushed_append, before]
    cases event with
    | push item =>
      obtain rfl := Option.some.inj stepped
      exact List.append_assoc _ _ _
    | pop =>
      simp only [machine, step] at stepped
      split at stepped
      · cases stepped
      · next first rest waits =>
        obtain rfl := Option.some.inj stepped
        simp [pushed, waits]
  exact machine.run_history keeps rfl ran

end Fifo

namespace List

variable {α : Type u}

/-- A write to a slot is a write at its distance from the position that is read from. -/
theorem rotate_set (slots : List α) (start n : Nat) (within : n < slots.length) (item : α) :
    (slots.set ((start + n) % slots.length) item).rotate start = (slots.rotate start).set n item := by
  apply List.ext_getElem
  · simp
  · intro i inside _
    have bound : i < slots.length := by simpa using inside
    rw [getElem_rotate, getElem_set, getElem_set, getElem_rotate]
    simp only [length_set]
    have same : (start + n) % slots.length = (i + start) % slots.length ↔ n = i := by
      constructor
      · intro equal
        have congruent : Nat.ModEq slots.length n i := by
          apply Nat.ModEq.add_left_cancel' start
          rw [Nat.ModEq, equal, Nat.add_comm]
        exact Nat.ModEq.eq_of_lt_of_lt congruent within bound
      · rintro rfl
        rw [Nat.add_comm]
    simp only [same]

/-- A write to the first slot that is not read appends to what is read. -/
theorem take_rotate_set (slots : List α) (start n : Nat) (within : n < slots.length) (item : α) :
    ((slots.set ((start + n) % slots.length) item).rotate start).take (n + 1) =
      (slots.rotate start).take n ++ [item] := by
  have inside : n < (slots.rotate start).length := by simpa using within
  rw [rotate_set slots start n within, take_succ_eq_append_getElem (by simpa using inside),
    take_set_of_le (Nat.le_refl n), getElem_set_self]

/-- The next position reads on from the second slot. -/
theorem take_rotate_succ (slots : List α) (start n : Nat) (within : n < slots.length)
    (inside : start < slots.length) :
    (slots.rotate start).take (n + 1) =
      slots[start] :: (slots.rotate ((start + 1) % slots.length)).take n := by
  have further : slots.rotate ((start + 1) % slots.length) = (slots.rotate start).rotate 1 := by
    rw [rotate_mod, rotate_rotate]
  have first : (slots.rotate start).head? = slots[start]? := by
    rw [head?_eq_getElem?, getElem?_rotate (by omega), Nat.zero_add, Nat.mod_eq_of_lt inside]
  rw [further]
  cases read : slots.rotate start with
  | nil =>
    have length : (slots.rotate start).length = slots.length := length_rotate _ _
    rw [read, length_nil] at length
    omega
  | cons item rest =>
    have length : (slots.rotate start).length = slots.length := length_rotate _ _
    rw [read, length_cons] at length
    rw [read, head?_cons, getElem?_eq_getElem inside, Option.some.injEq] at first
    rw [take_succ_cons, first, rotate_cons_succ, rotate_zero, take_append_of_le_length (by omega)]

end List
