import Asioex.ComposedPasses

/-!
# The condition variable

`basic_condition_variable` is a semaphore that starts without tokens. A wait is an
acquire, a wait with a predicate runs the retry loop with the predicate as its
test, and the two notifications are `release` and `release_all`. The state that
the predicates read is not the variable's own; other code writes it at any time.
-/

namespace Asioex

/-- `basic_condition_variable`, with the state that the predicates read as gate. -/
abbrev ConditionVariable (γ : Type) := ComposedWait γ

namespace ConditionVariable

variable {γ : Type}

/-- The constructor: `semaphore_(std::move(exec), 0)`. -/
def create (exec : Executor) (state : γ) (order : Nat → PostOrder) : ConditionVariable γ :=
  ComposedWait.create state (.create exec 0) order

/-- `async_wait` without a predicate. -/
def asyncWait (s : ConditionVariable γ) (executor : Option Executor) (connected : Bool) :
    ConditionVariable γ :=
  s.initiate executor connected none

/-- `else if (predicate())`. -/
def waitAttempt (predicate : γ → Bool) (state : γ) : Option γ :=
  if predicate state then some state else none

/-- `async_wait` with a predicate. -/
def asyncWaitFor (s : ConditionVariable γ) (predicate : γ → Bool) (executor : Option Executor)
    (connected : Bool) : ConditionVariable γ :=
  s.initiate executor connected (some (waitAttempt predicate))

/-- `notify_one`. -/
def notifyOne (s : ConditionVariable γ) : ConditionVariable γ := s.release

/-- `notify_all`. -/
def notifyAll (s : ConditionVariable γ) : ConditionVariable γ := s.releaseAll

inductive Event (γ : Type) where
  | asyncWait (executor : Option Executor) (connected : Bool)
  | asyncWaitFor (predicate : γ → Bool) (executor : Option Executor) (connected : Bool)
  | notifyOne
  | notifyAll
  | cancel (p : Nat) (type : CancellationType)
  | run (k : Nat)
  | write (state : γ)

def step (s : ConditionVariable γ) : Event γ → Option (ConditionVariable γ)
  | .asyncWait executor connected => some (s.asyncWait executor connected)
  | .asyncWaitFor predicate executor connected => some (s.asyncWaitFor predicate executor connected)
  | .notifyOne => some s.notifyOne
  | .notifyAll => some s.notifyAll
  | .cancel p type => ComposedWait.machine.step s (.cancel p type)
  | .run k => ComposedWait.machine.step s (.run k)
  | .write state => some (s.setGate state)

def machine : Machine (ConditionVariable γ) (Event γ) := ⟨step⟩

/-- The move of the retry loop that an event is. -/
def Event.move : Event γ → ComposedWait.Move γ
  | .asyncWait executor connected => .initiate executor connected none
  | .asyncWaitFor predicate executor connected =>
    .initiate executor connected (some (waitAttempt predicate))
  | .notifyOne => .release
  | .notifyAll => .releaseAll
  | .cancel p type => .cancel p type
  | .run k => .run k
  | .write state => .setGate state

theorem step_move (s : ConditionVariable γ) (event : Event γ) :
    machine.step s event = ComposedWait.machine.step s event.move := by
  cases event <;> rfl

theorem create_sound (exec : Executor) (order : Nat → PostOrder) (state : γ) :
    (create exec state order).Sound :=
  ComposedWait.create_sound state exec order 0 (by decide)

theorem step_sound (s : ConditionVariable γ) (event : Event γ) (next : ConditionVariable γ)
    (sound : s.Sound) (stepped : machine.step s event = some next) : next.Sound :=
  ComposedWait.step_sound s event.move next sound (s.step_move event ▸ stepped)

end ConditionVariable

end Asioex
