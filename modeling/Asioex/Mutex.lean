import Asioex.ComposedPasses

/-!
# The asynchronous mutex

`basic_mutex` is a flag over a semaphore with the default initial count. Each
`async_lock` runs the retry loop with a test that reads and sets the flag. The
token the semaphore starts with is granted to the first operation that finds the
flag set, which then finds it set again: stale grants are part of every run.

A client is an operation or a caller of `try_lock`. An operation holds from the
step in which its test passes, a caller from the call that returned true, and both
until they unlock. A client may unlock once it has been told, by its handler or by
the returned value, and has not unlocked yet. Clients are told what the code tells
them; that they then hold the lock is a theorem where it is true.
-/

namespace Asioex

/-- `basic_mutex`: the gate is `locked_`. -/
abbrev Mutex := ComposedWait Bool

namespace Mutex

/-- The constructor. -/
def create (exec : Executor) (order : Nat → PostOrder) : Mutex :=
  ComposedWait.create false (.create exec Semaphore.defaultInitialCount) order

/-- `locked_`. -/
def locked (s : Mutex) : Bool := s.gate

/-- `else if (!locked_) { locked_ = true; ... }`. -/
def lockAttempt (locked : Bool) : Option Bool := if !locked then some true else none

/-- `async_lock`. -/
def asyncLock (s : Mutex) (executor : Option Executor) (connected : Bool) : Mutex :=
  s.initiate executor connected (some lockAttempt)

/-- `unlock`. -/
def unlock (s : Mutex) : Mutex := (s.setGate false).release

/-- `try_lock`: `return std::exchange(locked_, true);`. -/
def tryLock (s : Mutex) : Bool × Mutex := (s.locked, s.setGate true)

/-- A passing test found the flag clear and sets it. -/
theorem lockAttempt_passes {locked after : Bool} (opened : lockAttempt locked = some after) :
    locked = false ∧ after = true := by
  cases locked
  · exact ⟨rfl, (by simpa [lockAttempt] using opened.symm)⟩
  · simp [lockAttempt] at opened

/-- The lambda of `async_lock`, called without an error, leaves the flag set. -/
theorem body_locks (s : Mutex) (p : Nat) :
    Mutex.locked (s.body lockAttempt p .success) = true := by
  rcases ComposedWait.body_cases lockAttempt s p .success with
    ⟨error, -⟩ | ⟨gate, -, opened, same | same⟩ | ⟨-, closed, same⟩
  · simp at error
  · rw [same]
    exact (lockAttempt_passes opened).2
  · rw [same]
    exact (lockAttempt_passes opened).2
  · rw [same]
    change s.gate = true
    cases flag : s.gate
    · simp [lockAttempt, flag] at closed
    · rfl

end Mutex

/-- Who may come to hold the lock: an `async_lock`, or a call of `try_lock`. -/
inductive Client where
  | operation (p : Nat)
  | caller (k : Nat)
deriving DecidableEq, Repr

/-- A mutex with what its clients did: the answers of `try_lock`, oldest first, and
the clients that unlocked. -/
structure MutexRun where
  mutex : Mutex
  answers : List Bool
  unlocked : List Client

namespace MutexRun

inductive Event where
  | asyncLock (executor : Option Executor) (connected : Bool)
  | tryLock
  | unlock (client : Client)
  | cancel (p : Nat) (type : CancellationType)
  | run (k : Nat)
deriving DecidableEq, Repr

def start (exec : Executor) (order : Nat → PostOrder) : MutexRun := ⟨.create exec order, [], []⟩

/-- What told a client that it holds the lock: its handler invoked with success, or
true returned to it. -/
def told (s : MutexRun) : Client → Bool
  | .operation p => decide ((p, ErrorCode.success) ∈ s.mutex.invoked)
  | .caller k => s.answers[k]? == some true

/-- A client that was told unlocks at most once; a run and a cancellation name a
queued function and an initiated operation. -/
def step (s : MutexRun) : Event → Option MutexRun
  | .asyncLock executor connected => some { s with mutex := s.mutex.asyncLock executor connected }
  | .tryLock =>
    some { s with mutex := s.mutex.tryLock.2, answers := s.answers ++ [s.mutex.tryLock.1] }
  | .unlock client =>
    if s.told client ∧ client ∉ s.unlocked then
      some { s with mutex := s.mutex.unlock, unlocked := s.unlocked ++ [client] }
    else none
  | .cancel p type =>
    (ComposedWait.machine.step s.mutex (.cancel p type)).map (fun mutex => { s with mutex := mutex })
  | .run k =>
    (ComposedWait.machine.step s.mutex (.run k)).map (fun mutex => { s with mutex := mutex })

def machine : Machine MutexRun Event := ⟨step⟩

/-- An unlock that is taken is one of a client that was told and has not unlocked. -/
theorem step_unlock {s next : MutexRun} {client : Client} :
    machine.step s (.unlock client) = some next ↔
      (s.told client = true ∧ client ∉ s.unlocked) ∧
        { s with mutex := s.mutex.unlock, unlocked := s.unlocked ++ [client] } = next := by
  simp [machine, step]

/-- The moves of the retry loop that a client's call consists of. -/
def Event.moves : Event → List (ComposedWait.Move Bool)
  | .asyncLock executor connected => [.initiate executor connected (some Mutex.lockAttempt)]
  | .tryLock => [.setGate true]
  | .unlock _ => [.setGate false, .release]
  | .cancel p type => [.cancel p type]
  | .run k => [.run k]

/-- A step of the mutex is a run of its retry loop. -/
theorem step_moves {s next : MutexRun} {event : Event}
    (stepped : machine.step s event = some next) :
    ComposedWait.machine.run s.mutex event.moves = some next.mutex := by
  cases event with
  | asyncLock executor connected =>
    obtain rfl := Option.some.inj stepped
    rfl
  | tryLock =>
    obtain rfl := Option.some.inj stepped
    rfl
  | unlock client =>
    obtain ⟨-, rfl⟩ := step_unlock.mp stepped
    rfl
  | cancel p type =>
    obtain ⟨mutex, moved, rfl⟩ := Option.map_eq_some_iff.mp stepped
    exact ComposedWait.machine.run_cons.mpr ⟨mutex, moved, rfl⟩
  | run k =>
    obtain ⟨mutex, moved, rfl⟩ := Option.map_eq_some_iff.mp stepped
    exact ComposedWait.machine.run_cons.mpr ⟨mutex, moved, rfl⟩

/-- The retry loop is sound, and every operation is an `async_lock`. -/
structure Locking (s : MutexRun) : Prop where
  sound : s.mutex.Sound
  uses : s.mutex.Uses (· = some Mutex.lockAttempt)

theorem start_locking (exec : Executor) (order : Nat → PostOrder) : (start exec order).Locking where
  sound := ComposedWait.create_sound false exec order _ (by decide)
  uses := by simp [start, Mutex.create, ComposedWait.create, ComposedWait.Uses]

theorem step_locking (s : MutexRun) (event : Event) (next : MutexRun) (locking : s.Locking)
    (stepped : machine.step s event = some next) : next.Locking := by
  have moved := step_moves stepped
  refine ⟨ComposedWait.machine.run_invariant ComposedWait.step_sound locking.sound moved, ?_⟩
  have admitted : ComposedWait.machine.Along (fun _ move _ => ∀ executor connected attempt,
      move = .initiate executor connected attempt → attempt = some Mutex.lockAttempt)
      s.mutex event.moves := by
    cases event <;> simp [Event.moves, Machine.Along]
  exact ComposedWait.machine.run_invariant_along
    (fun before move after uses taken fresh => ComposedWait.step_uses uses fresh taken)
    locking.uses admitted moved

end MutexRun

end Asioex
