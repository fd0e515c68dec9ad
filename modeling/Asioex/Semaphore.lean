import Asioex.Asio
import Asioex.Lib.TokenQueue

/-!
# The asynchronous semaphore

`async_semaphore_base`, `basic_async_semaphore` and `semaphore_wait_op_model`, one
definition for each function. The ring of waiting operations is a list, oldest first;
that the nodes of the ring carry this list, and what becomes of the operations' memory,
is shown apart. The cancellation slots belong to the callers; the table records which
wait operation is assigned to each. A failed assertion does not stop the model: it is
recorded, as a build without assertions would continue past it. The counter is a
mathematical integer. In `value` the conversion of the ring's size to `int` is modular,
and the subtraction is the one of `int`s, which can overflow.

Each operation is shown to refine one of `TokenQueue`, which holds either tokens
or claimants. That the counter is zero while an operation waits is therefore the
refinement relation itself and not a separate fact about each path.
-/

namespace Asioex

/-- `semaphore_wait_op_model`: the executor kept alive by its work guard, and the
handler it was constructed with. -/
structure WaitOp where
  executor : Executor
  handler : Handler
deriving DecidableEq, Repr

/-- A semaphore with the surroundings its operations write: the handlers assigned
to cancellation slots, and whether every assertion evaluated so far held. -/
structure Semaphore where
  waiters : List WaitOp
  count : Int
  exec : Executor
  slots : Slot → Option WaitOp
  asserted : Bool

namespace Semaphore

/-- The constructor. No slot is assigned before the first wait. -/
def create (exec : Executor) (initialCount : Int) : Semaphore :=
  ⟨[], initialCount, exec, fun _ => none, true⟩

/-- The constructor's default for `initial_count`. -/
def defaultInitialCount : Int := 1

/-- `ASIO_ASSERT(count_ > 0); return --count_;` -/
def decrement (s : Semaphore) : Semaphore :=
  { s with count := s.count - 1, asserted := s.asserted && decide (0 < s.count) }

/-- `slot.clear()` on an associated slot, which may be unconnected. -/
def clearSlot (s : Semaphore) : Option Slot → Semaphore
  | none => s
  | some slot => { s with slots := Function.update s.slots slot none }

/-- `semaphore_wait_op_model::complete`: clear the slot, leave the ring, and post
the handler with the code to the guarded executor. -/
def complete (s : Semaphore) (op : WaitOp) (ec : ErrorCode) : Semaphore × Posted :=
  let cleared := s.clearSlot op.handler.slot
  ({ cleared with waiters := cleared.waiters.erase op }, ⟨op.executor, op.handler, ec⟩)

/-- The constructor of `semaphore_wait_op_model` assigns its cancellation handler
to a connected slot. -/
def construct (s : Semaphore) (op : WaitOp) : Semaphore :=
  match op.handler.slot with
  | none => s
  | some slot => { s with slots := Function.update s.slots slot (some op) }

/-- `add_waiter`: link before the sentinel, which is the end of the list. -/
def addWaiter (s : Semaphore) (op : WaitOp) : Semaphore :=
  { s with waiters := s.waiters ++ [op] }

/-- `basic_async_semaphore::async_acquire`, the initiation with its handler. -/
def asyncAcquire (s : Semaphore) (handler : Handler) : Semaphore × List Posted :=
  let e := handler.associatedExecutor s.exec
  if s.count ≠ 0 then (s.decrement, [⟨e, handler, .success⟩])
  else ((s.construct ⟨e, handler⟩).addWaiter ⟨e, handler⟩, [])

/-- `try_acquire`, with the value it returns. -/
def tryAcquire (s : Semaphore) : Bool × Semaphore :=
  if 0 < s.count then (true, { s with count := s.count - 1 }) else (false, s)

/-- `count_ += 1`. -/
def increment (s : Semaphore) : Semaphore := { s with count := s.count + 1 }

/-- `release`: one more token, which the oldest waiting operation takes at once. -/
def release (s : Semaphore) : Semaphore × List Posted :=
  match s.increment.waiters with
  | [] => (s.increment, [])
  | op :: _ =>
    let (s, posted) := s.increment.decrement.complete op .success
    (s, [posted])

/-- The loop `while (nx != &waiters_) nx->complete(ec)` of `release_all` and of the
destructor, with the count of its iterations. It reads the front of the ring again
on every iteration; running out of fuel before the ring is empty is no result. -/
def drain (ec : ErrorCode) : Nat → Semaphore → Option (Nat × Semaphore × List Posted)
  | 0, s => if s.waiters = [] then some (0, s, []) else none
  | fuel + 1, s =>
    match s.waiters with
    | [] => some (0, s, [])
    | op :: _ =>
      let (s, posted) := s.complete op ec
      (drain ec fuel s).map (fun (rounds, last, rest) => (rounds + 1, last, posted :: rest))

@[simp] theorem increment_waiters (s : Semaphore) : s.increment.waiters = s.waiters := rfl

@[simp] theorem clearSlot_waiters (s : Semaphore) (slot : Option Slot) :
    (s.clearSlot slot).waiters = s.waiters := by cases slot <;> rfl

@[simp] theorem clearSlot_count (s : Semaphore) (slot : Option Slot) :
    (s.clearSlot slot).count = s.count := by cases slot <;> rfl

@[simp] theorem clearSlot_exec (s : Semaphore) (slot : Option Slot) :
    (s.clearSlot slot).exec = s.exec := by cases slot <;> rfl

@[simp] theorem clearSlot_asserted (s : Semaphore) (slot : Option Slot) :
    (s.clearSlot slot).asserted = s.asserted := by cases slot <;> rfl

@[simp] theorem construct_waiters (s : Semaphore) (op : WaitOp) :
    (s.construct op).waiters = s.waiters := by unfold construct; split <;> rfl

@[simp] theorem construct_count (s : Semaphore) (op : WaitOp) :
    (s.construct op).count = s.count := by unfold construct; split <;> rfl

@[simp] theorem construct_exec (s : Semaphore) (op : WaitOp) :
    (s.construct op).exec = s.exec := by unfold construct; split <;> rfl

@[simp] theorem construct_asserted (s : Semaphore) (op : WaitOp) :
    (s.construct op).asserted = s.asserted := by unfold construct; split <;> rfl

@[simp] theorem addWaiter_waiters (s : Semaphore) (op : WaitOp) :
    (s.addWaiter op).waiters = s.waiters ++ [op] := rfl

@[simp] theorem addWaiter_count (s : Semaphore) (op : WaitOp) :
    (s.addWaiter op).count = s.count := rfl

@[simp] theorem addWaiter_exec (s : Semaphore) (op : WaitOp) :
    (s.addWaiter op).exec = s.exec := rfl

@[simp] theorem addWaiter_asserted (s : Semaphore) (op : WaitOp) :
    (s.addWaiter op).asserted = s.asserted := rfl

@[simp] theorem addWaiter_slots (s : Semaphore) (op : WaitOp) :
    (s.addWaiter op).slots = s.slots := rfl

@[simp] theorem complete_waiters (s : Semaphore) (op : WaitOp) (ec : ErrorCode) :
    (s.complete op ec).1.waiters = s.waiters.erase op := by simp [complete]

@[simp] theorem complete_count (s : Semaphore) (op : WaitOp) (ec : ErrorCode) :
    (s.complete op ec).1.count = s.count := by simp [complete]

@[simp] theorem complete_exec (s : Semaphore) (op : WaitOp) (ec : ErrorCode) :
    (s.complete op ec).1.exec = s.exec := by simp [complete]

@[simp] theorem complete_asserted (s : Semaphore) (op : WaitOp) (ec : ErrorCode) :
    (s.complete op ec).1.asserted = s.asserted := by simp [complete]

@[simp] theorem complete_slots (s : Semaphore) (op : WaitOp) (ec : ErrorCode) :
    (s.complete op ec).1.slots = (s.clearSlot op.handler.slot).slots := rfl

@[simp] theorem complete_posted (s : Semaphore) (op : WaitOp) (ec : ErrorCode) :
    (s.complete op ec).2 = ⟨op.executor, op.handler, ec⟩ := rfl

/-- A slot still assigned after a clear was assigned before, and is another one. -/
theorem clearSlot_slots (s : Semaphore) (slot : Option Slot) (other : Slot) (op : WaitOp)
    (assigned : (s.clearSlot slot).slots other = some op) :
    s.slots other = some op ∧ slot ≠ some other := by
  cases slot with
  | none => exact ⟨assigned, by simp⟩
  | some cleared =>
    by_cases same : other = cleared
    · simp [clearSlot, same] at assigned
    · simp only [clearSlot, Function.update_of_ne same] at assigned
      exact ⟨assigned, fun equal => same (Option.some.inj equal).symm⟩

/-- What the drain loop does to the ring with which it is entered: one iteration
and one posted completion for each operation, in ring order, and no others. -/
structure Drained (ec : ErrorCode) (s : Semaphore) (rounds : Nat) (last : Semaphore)
    (posted : List Posted) : Prop where
  rounds : rounds = s.waiters.length
  waiters : last.waiters = []
  count : last.count = s.count
  exec : last.exec = s.exec
  asserted : last.asserted = s.asserted
  posted : posted = s.waiters.map (fun op => ⟨op.executor, op.handler, ec⟩)
  slots : ∀ slot op, last.slots slot = some op →
    s.slots slot = some op ∧ ∀ waiter ∈ s.waiters, waiter.handler.slot ≠ some slot

/-- Fuel for one iteration per waiting operation is enough to leave the loop.

Proof: each iteration removes the operation at the front, since erasing it from
the list it heads leaves exactly the rest; the remaining fuel covers the rest. -/
theorem drain_exact (ec : ErrorCode) (fuel : Nat) (s : Semaphore)
    (enough : s.waiters.length ≤ fuel) :
    ∃ rounds last posted, drain ec fuel s = some (rounds, last, posted) ∧
      Drained ec s rounds last posted := by
  induction fuel generalizing s with
  | zero =>
    have vacant : s.waiters = [] := List.length_eq_zero_iff.mp (Nat.le_zero.mp enough)
    exact ⟨0, s, [], by simp [drain, vacant],
      ⟨by simp [vacant], vacant, rfl, rfl, rfl, by simp [vacant], by simp [vacant]⟩⟩
  | succ fuel inductionHypothesis =>
    cases line : s.waiters with
    | nil =>
      exact ⟨0, s, [], by simp [drain, line],
        ⟨by simp [line], line, rfl, rfl, rfl, by simp [line], by simp [line]⟩⟩
    | cons op rest =>
      have shorter : (s.complete op ec).1.waiters = rest := by simp [line]
      have restEnough : (s.complete op ec).1.waiters.length ≤ fuel := by
        simp only [line, List.length_cons] at enough
        rw [shorter]
        omega
      obtain ⟨rounds, last, posted, finished, drained⟩ := inductionHypothesis _ restEnough
      refine ⟨rounds + 1, last, ⟨op.executor, op.handler, ec⟩ :: posted, ?_, ?_⟩
      · simp [drain, line, finished]
      · refine ⟨?_, drained.waiters, ?_, ?_, ?_, ?_, ?_⟩
        · simp [drained.rounds, line]
        · simpa using drained.count
        · simpa using drained.exec
        · simpa using drained.asserted
        · simp [drained.posted, line]
        · intro slot waiter assigned
          obtain ⟨before, others⟩ := drained.slots slot waiter assigned
          obtain ⟨original, apart⟩ := clearSlot_slots s op.handler.slot slot waiter before
          refine ⟨original, fun other member => ?_⟩
          rw [line] at member
          rcases List.mem_cons.mp member with rfl | later
          · exact apart
          · exact others other (shorter ▸ later)

/-- The completed loop of an operation that drains the ring with one code. -/
def drained (ec : ErrorCode) (s : Semaphore) : Nat × Semaphore × List Posted :=
  (drain ec s.waiters.length s).get (by
    obtain ⟨rounds, last, posted, finished, _⟩ := drain_exact ec s.waiters.length s (Nat.le_refl _)
    simp [finished])

theorem drained_exact (ec : ErrorCode) (s : Semaphore) :
    Drained ec s (drained ec s).1 (drained ec s).2.1 (drained ec s).2.2 := by
  obtain ⟨rounds, last, posted, finished, drains⟩ :=
    drain_exact ec s.waiters.length s (Nat.le_refl _)
  have same : drained ec s = (rounds, last, posted) := by simp [drained, finished]
  rw [same]
  exact drains

/-- `release_all`, with the number of releases it returns. -/
def releaseAll (s : Semaphore) : Nat × Semaphore × List Posted := drained .success s

/-- The destructor: every operation still waiting is aborted. -/
def destroy (s : Semaphore) : Semaphore × List Posted := (drained .operationAborted s).2

/-- How many values an `int` has, and the largest of them. -/
def intValues : Nat := 4294967296
def intMax : Nat := 2147483647

/-- The conversion of a `std::size_t` to `int`. -/
def toInt (size : Nat) : Int := Int.bmod size intValues

/-- The difference of two `int`s. It is undefined when it is none, and then has no value. -/
def subtract (a b : Int) : Option Int :=
  if -(intMax : Int) - 1 ≤ a - b ∧ a - b ≤ intMax then some (a - b) else none

/-- `value`: the count, less the size of the ring when it is not empty. -/
def value (s : Semaphore) : Option Int :=
  if s.waiters = [] then some s.count else subtract s.count (toInt s.waiters.length)

/-- The cancellation handler that a wait operation assigns to its slot. -/
def cancellationHandler (s : Semaphore) (op : WaitOp) (type : CancellationType) :
    Semaphore × List Posted :=
  if type.meets (.terminal ||| .partially ||| .total) then
    let (s, posted) := s.complete op .operationAborted
    (s, [posted])
  else (s, [])

/-- Emit a cancellation on a slot: call the assigned handler, if there is one. -/
def emit (s : Semaphore) (slot : Slot) (type : CancellationType) : Semaphore × List Posted :=
  match s.slots slot with
  | none => (s, [])
  | some op => s.cancellationHandler op type

end Semaphore

end Asioex
