import Asioex.ComposedCancellation
import Asioex.ConditionVariable
import Asioex.Mutex

/-!
# Cancelled waits of the mutex and of the condition variable

`async_copy_op` asks the cancellation state before each of its parts and aborts when
a terminal cancellation was recorded. The lambdas of `async_lock` and of the waits
with a predicate do not ask. A cancellation that arrives after a grant was posted
and before it runs is dropped when the test then fails and no token is free.

For both classes the runs that heed every cancellation are the runs in which no
executor step is such a call. The condition reads the state before the step only:
the function run, the test applied to the gate, and the counter.
-/

namespace Asioex

namespace MutexRun

/-- The place of the function that an event runs, if it runs one. -/
def Event.ran : Event → Option Nat
  | .run k => some k
  | _ => none

/-- A step that heeds the cancellations signalled so far. -/
def Heeds (s : MutexRun) (event : Event) (next : MutexRun) : Prop :=
  ComposedWait.Heeded s.mutex event.ran next.mutex

/-- A step that does not run a signalled operation into a further wait. -/
def Relinkless (s : MutexRun) (event : Event) (_next : MutexRun) : Prop :=
  ∀ k, event = .run k → ¬s.mutex.relinks k

/-- A step heeds the cancellations exactly when it is no such call. -/
theorem heeds_iff {s next : MutexRun} {event : Event} (sound : s.mutex.Sound)
    (unlinked : s.mutex.Unlinked) (stepped : machine.step s event = some next) :
    Heeds s event next ↔ Relinkless s event next := by
  have moved := step_moves stepped
  by_cases runs : ∃ k, event = .run k
  · obtain ⟨k, rfl⟩ := runs
    obtain ⟨mutex, taken, done⟩ := ComposedWait.machine.run_cons.mp moved
    obtain rfl := Option.some.inj done
    simpa [Heeds, Relinkless, Event.ran] using ComposedWait.heeded_run sound unlinked taken
  · have idle : event.ran = none ∧ ∀ k, .run k ∉ event.moves := by
      cases event <;> simp_all [Event.ran, Event.moves]
    refine iff_of_true ?_ (fun k same => absurd ⟨k, same⟩ runs)
    unfold Heeds
    rw [idle.1]
    exact ComposedWait.heeded_moves sound unlinked idle.2 moved

/-- The mutex heeds every cancellation in exactly the runs without such a call. -/
theorem heeds_along_iff (exec : Executor) (order : Nat → PostOrder) (events : List Event) :
    machine.Along Heeds (start exec order) events ↔
      machine.Along Relinkless (start exec order) events := by
  have agree (s : MutexRun) (event : Event) (next : MutexRun) (_ : True)
      (state : s.Locking ∧ s.mutex.Unlinked) (stepped : machine.step s event = some next) :
      Heeds s event next ↔ Relinkless s event next :=
    heeds_iff state.1.sound state.2 stepped
  have keeps (s : MutexRun) (event : Event) (next : MutexRun) (_ : True)
      (state : s.Locking ∧ s.mutex.Unlinked) (stepped : machine.step s event = some next)
      (admitted : Relinkless s event next) : next.Locking ∧ next.mutex.Unlinked :=
    ⟨step_locking s event next state.1 stepped,
      ((heeds_iff state.1.sound state.2 stepped).mpr admitted).unlinked⟩
  exact machine.along_iff agree keeps events (fun _ _ => trivial)
    ⟨start_locking exec order, fun _ signalled => absurd signalled List.not_mem_nil⟩

end MutexRun

namespace ConditionVariable

variable {γ : Type}

/-- The place of the function that an event runs, if it runs one. -/
def Event.ran : Event γ → Option Nat
  | .run k => some k
  | _ => none

/-- A step that heeds the cancellations signalled so far. -/
def Heeds (s : ConditionVariable γ) (event : Event γ) (next : ConditionVariable γ) : Prop :=
  ComposedWait.Heeded s event.ran next

/-- A step that does not run a signalled operation into a further wait. -/
def Relinkless (s : ConditionVariable γ) (event : Event γ) (_next : ConditionVariable γ) : Prop :=
  ∀ k, event = .run k → ¬s.relinks k

/-- A step heeds the cancellations exactly when it is no such call. -/
theorem heeds_iff {s next : ConditionVariable γ} {event : Event γ} (sound : s.Sound)
    (unlinked : s.Unlinked) (stepped : machine.step s event = some next) :
    Heeds s event next ↔ Relinkless s event next := by
  have moved : ComposedWait.machine.step s event.move = some next := s.step_move event ▸ stepped
  by_cases runs : ∃ k, event = .run k
  · obtain ⟨k, rfl⟩ := runs
    simpa [Heeds, Relinkless, Event.ran] using ComposedWait.heeded_run sound unlinked moved
  · have idle : event.ran = none ∧ ∀ k, .run k ∉ [event.move] := by
      cases event <;> simp_all [Event.ran, Event.move]
    refine iff_of_true ?_ (fun k same => absurd ⟨k, same⟩ runs)
    unfold Heeds
    rw [idle.1]
    exact ComposedWait.heeded_moves sound unlinked idle.2
      (ComposedWait.machine.run_cons.mpr ⟨next, moved, rfl⟩)

/-- The condition variable heeds every cancellation in exactly those runs, too. -/
theorem heeds_along_iff (exec : Executor) (order : Nat → PostOrder) (state : γ)
    (events : List (Event γ)) :
    machine.Along Heeds (create exec state order) events ↔
      machine.Along Relinkless (create exec state order) events := by
  have agree (s : ConditionVariable γ) (event : Event γ) (next : ConditionVariable γ) (_ : True)
      (state : s.Sound ∧ s.Unlinked) (stepped : machine.step s event = some next) :
      Heeds s event next ↔ Relinkless s event next :=
    heeds_iff state.1 state.2 stepped
  have keeps (s : ConditionVariable γ) (event : Event γ) (next : ConditionVariable γ) (_ : True)
      (state : s.Sound ∧ s.Unlinked) (stepped : machine.step s event = some next)
      (admitted : Relinkless s event next) : next.Sound ∧ next.Unlinked :=
    ⟨step_sound s event next state.1 stepped,
      ((heeds_iff state.1 state.2 stepped).mpr admitted).unlinked⟩
  exact machine.along_iff agree keeps events (fun _ _ => trivial)
    ⟨create_sound exec order state, fun _ signalled => absurd signalled List.not_mem_nil⟩

end ConditionVariable

/-- In every run of a mutex, and in every run of a condition variable, the signalled
operations are never linked again and end as they should exactly when no step runs
one of them with a failing test and no token to spend. -/
theorem cancellation_heeded_iff (γ : Type) (exec : Executor) (order : Nat → PostOrder) (state : γ)
    (locks : List MutexRun.Event) (waits : List (ConditionVariable.Event γ)) :
    (MutexRun.machine.Along MutexRun.Heeds (.start exec order) locks ↔
      MutexRun.machine.Along MutexRun.Relinkless (.start exec order) locks) ∧
    (ConditionVariable.machine.Along ConditionVariable.Heeds (.create exec state order) waits ↔
      ConditionVariable.machine.Along ConditionVariable.Relinkless
        (.create exec state order) waits) :=
  ⟨MutexRun.heeds_along_iff exec order locks,
    ConditionVariable.heeds_along_iff exec order state waits⟩

/-- The second lock is granted the semaphore's first token, cancelled before the
granted function runs, and then waits for the lock all the same. -/
def cancelledLock : List MutexRun.Event :=
  [.asyncLock none true, .asyncLock none true, .cancel 1 .terminal, .run 1]

/-- A wait is notified, cancelled before it runs, and then waits again. -/
def cancelledWait : List (ConditionVariable.Event Unit) :=
  [.asyncWaitFor (fun _ => false) none true, .notifyOne, .cancel 0 .terminal, .run 0]

theorem cancellation_is_dropped :
    (∃ s, MutexRun.machine.run (.start 0 leftToRight) cancelledLock = some s ∧
      s.mutex.signalled = [1] ∧ s.mutex.semaphore.linked 1 = 1 ∧
      ¬MutexRun.machine.Along MutexRun.Heeds (.start 0 leftToRight) cancelledLock) ∧
    (∃ s, ConditionVariable.machine.run (.create 0 () leftToRight) cancelledWait = some s ∧
      s.signalled = [0] ∧ s.semaphore.linked 0 = 1 ∧
      ¬ConditionVariable.machine.Along ConditionVariable.Heeds (.create 0 () leftToRight)
        cancelledWait) := by
  refine ⟨⟨_, rfl, rfl, rfl, fun along => ?_⟩, ⟨_, rfl, rfl, rfl, fun along => ?_⟩⟩
  · have heeds := ((((along _ rfl).2 _ rfl).2 _ rfl).2 _ rfl).1
    exact absurd (heeds.unlinked 1 (by decide)) (by decide)
  · have heeds := ((((along _ rfl).2 _ rfl).2 _ rfl).2 _ rfl).1
    exact absurd (heeds.unlinked 0 (by decide)) (by decide)

end Asioex
