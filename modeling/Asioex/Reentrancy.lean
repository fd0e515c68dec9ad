import Mathlib.Logic.Function.Iterate
import Asioex.ConditionVariable
import Asioex.LockGuard

/-!
# No handler runs inside a call

The semaphore, the condition variable and the mutex post what they complete. A handler
is therefore invoked by a function of the executor, after the call that posted it, and
that function does nothing to the semaphore. The loops of `release_all` and of the
destructor then remove one waiting operation in each iteration, and add none.

A semaphore and a condition variable are followed through their destruction here; a
mutex with its guards already was.
-/

namespace Asioex

namespace ComposedWait

variable {γ : Type}

/-- A shared object, and whether its destructor has not run yet. -/
structure Lifetime (γ : Type) where
  object : ComposedWait γ
  alive : Bool

/-- What can be done to a shared object and to what it posted. -/
inductive Action (γ : Type) where
  | move (move : Move γ)
  | tryAcquire
  | destroy

/-- Whether a move calls the object. Cancellations go to slots, the executor to what
was posted, and the state that predicates read is not the object's own. -/
def calls : Move γ → Bool
  | .run _ | .cancel .. | .setGate _ => false
  | _ => true

namespace Lifetime

/-- A semaphore: its operations have no test, and there is no gate to read. -/
def semaphore (exec : Executor) (initialCount : Int) (order : Nat → PostOrder) : Lifetime Unit :=
  ⟨.create () (.create exec initialCount) order, true⟩

/-- A condition variable, with the state that the predicates read. -/
def conditionVariable (exec : Executor) (state : γ) (order : Nat → PostOrder) : Lifetime γ :=
  ⟨ConditionVariable.create exec state order, true⟩

def step (s : Lifetime γ) : Action γ → Option (Lifetime γ)
  | .move move =>
    if calls move ∧ ¬s.alive then none
    else (machine.step s.object move).map (fun object => { s with object := object })
  | .tryAcquire =>
    if s.alive then
      some { s with object := { s.object with semaphore := s.object.semaphore.tryAcquire.2 } }
    else none
  | .destroy => if s.alive then some ⟨s.object.destroy, false⟩ else none

def machine : Machine (Lifetime γ) (Action γ) := ⟨step⟩

theorem step_move {s next : Lifetime γ} {move : Move γ}
    (stepped : machine.step s (.move move) = some next) :
    ComposedWait.machine.step s.object move = some next.object := by
  simp only [machine, step] at stepped
  split at stepped
  · cases stepped
  · obtain ⟨object, moved, rfl⟩ := Option.map_eq_some_iff.mp stepped
    exact moved

theorem step_tryAcquire {s next : Lifetime γ} (stepped : machine.step s .tryAcquire = some next) :
    next.object = { s.object with semaphore := s.object.semaphore.tryAcquire.2 } := by
  simp only [machine, step, Option.ite_none_right_eq_some, Option.some.injEq] at stepped
  rw [← stepped.2]

theorem step_destroy {s next : Lifetime γ} (stepped : machine.step s .destroy = some next) :
    next.object = s.object.destroy := by
  simp only [machine, step, Option.ite_none_right_eq_some, Option.some.injEq] at stepped
  rw [← stepped.2]

/-- A step invokes no handler, or is a step of the executor that runs a function posted
earlier, which invokes its own operation's handler and calls nothing else. -/
def Later (s : Lifetime γ) (action : Action γ) (next : Lifetime γ) : Prop :=
  next.object.invoked = s.object.invoked ∨
    ∃ k job ec, action = .move (.run k) ∧ s.object.Invokes k job ec next.object

theorem step_later {s next : Lifetime γ} {action : Action γ}
    (stepped : machine.step s action = some next) : Later s action next := by
  cases action with
  | move move =>
    rcases step_invoked (step_move stepped) with silent | ⟨k, job, ec, rfl, invokes⟩
    · exact .inl silent
    · exact .inr ⟨k, job, ec, rfl, invokes⟩
  | tryAcquire => exact .inl (by rw [step_tryAcquire stepped])
  | destroy => exact .inl (by rw [step_destroy stepped]; rfl)

end Lifetime

end ComposedWait

namespace GuardRun

/-- The same of a mutex with its guards, where the handler of an `async_guard` is
called by the handler of its lock. -/
def Later (s : GuardRun) (event : Event) (next : GuardRun) : Prop :=
  (next.locks.mutex.invoked = s.locks.mutex.invoked ∧
      ∀ delivery ∈ next.guards, delivery ∈ s.guards) ∨
    ∃ k job ec, event = .mutex (.run k) ∧ s.locks.mutex.Invokes k job ec next.locks.mutex

theorem step_later {s next : GuardRun} {event : Event} (stepped : machine.step s event = some next) :
    Later s event next := by
  cases event with
  | mutex event =>
    obtain ⟨locks, moved, rfl⟩ := step_mutex stepped
    rcases MutexRun.step_invoked moved with silent | ⟨k, job, ec, rfl, invokes⟩
    · refine .inl ⟨silent, ?_⟩
      rw [guards_advance_silent silent]
      exact fun delivery member => member
    · exact .inr ⟨k, job, ec, rfl, invokes⟩
  | asyncGuard handler =>
    obtain rfl := step_asyncGuard stepped
    exact .inl ⟨s.locks.mutex.initiate_invoked none false _, fun delivery member => member⟩
  | destroyGuard k =>
    obtain ⟨delivery, -, rfl⟩ := step_destroyGuard stepped
    cases owned : delivery.guard.mtx with
    | none =>
      simp only [destroyGuard, owned]
      exact .inl ⟨rfl, fun rest member => List.mem_of_mem_eraseIdx member⟩
    | some mtx =>
      simp only [destroyGuard, owned]
      exact .inl ⟨rfl, fun rest member => List.mem_of_mem_eraseIdx member⟩
  | destroy =>
    obtain rfl := step_destroy stepped
    exact .inl ⟨rfl, fun delivery member => member⟩

end GuardRun

namespace Semaphore

/-- One iteration of the loop of `release_all` and of the destructor. -/
def drainFront (ec : ErrorCode) (s : Semaphore) : Semaphore :=
  match s.waiters with
  | [] => s
  | op :: _ => (s.complete op ec).1

/-- An iteration takes the operation at the front out of the ring, and adds none. -/
theorem drainFront_waiters (ec : ErrorCode) (s : Semaphore) :
    (drainFront ec s).waiters = s.waiters.tail := by
  cases line : s.waiters with
  | nil => simp [drainFront, line]
  | cons op rest => simp [drainFront, line]

theorem iterate_drainFront_waiters (ec : ErrorCode) (i : Nat) (s : Semaphore) :
    ((drainFront ec)^[i] s).waiters = s.waiters.drop i := by
  induction i generalizing s with
  | zero => rfl
  | succ i inductionHypothesis =>
    rw [Function.iterate_succ_apply, inductionHypothesis, drainFront_waiters, List.drop_tail]

/-- The loop is its iteration, once for each operation in the ring. -/
theorem drain_iterate (ec : ErrorCode) (fuel : Nat) (s : Semaphore)
    (enough : s.waiters.length ≤ fuel) :
    (drain ec fuel s).map (fun result => (result.1, result.2.1)) =
      some (s.waiters.length, (drainFront ec)^[s.waiters.length] s) := by
  induction fuel generalizing s with
  | zero =>
    have vacant : s.waiters = [] := List.length_eq_zero_iff.mp (Nat.le_zero.mp enough)
    simp [drain, vacant]
  | succ fuel inductionHypothesis =>
    cases line : s.waiters with
    | nil => simp [drain, line]
    | cons op rest =>
      have shorter : (s.complete op ec).1.waiters = rest := by simp [line]
      have front : drainFront ec s = (s.complete op ec).1 := by simp [drainFront, line]
      have restEnough : (s.complete op ec).1.waiters.length ≤ fuel := by
        simp only [line, List.length_cons] at enough
        rw [shorter]
        omega
      have following := inductionHypothesis _ restEnough
      rw [shorter] at following
      obtain ⟨result, finished, same⟩ := Option.map_eq_some_iff.mp following
      rw [List.length_cons, Function.iterate_succ_apply, front]
      simp only [drain, line, finished, Option.map_some]
      simp only [Prod.mk.injEq] at same
      simp [same.1, same.2]

/-- The completed loop iterates once for each operation in the ring. -/
theorem drained_iterate (ec : ErrorCode) (s : Semaphore) :
    (drained ec s).1 = s.waiters.length ∧
      (drained ec s).2.1 = (drainFront ec)^[s.waiters.length] s := by
  have ran := s.drain_iterate ec s.waiters.length (Nat.le_refl _)
  obtain ⟨result, finished, same⟩ := Option.map_eq_some_iff.mp ran
  have whole : drained ec s = result := by simp [drained, finished]
  rw [whole]
  exact Prod.mk.inj same

/-- What a loop that drains the ring with one code does, iteration by iteration: it
counts one for each operation that waited, and posts each of them that code. -/
def Iterated (ec : ErrorCode) (s : Semaphore) : Nat × Semaphore × List Posted :=
  (s.waiters.length, (drainFront ec)^[s.waiters.length] s,
    s.waiters.map (fun op => ⟨op.executor, op.handler, ec⟩))

theorem drained_iterated (ec : ErrorCode) (s : Semaphore) : drained ec s = Iterated ec s := by
  obtain ⟨rounds, last⟩ := s.drained_iterate ec
  exact Prod.ext rounds (Prod.ext last (s.drained_exact ec).posted)

/-- `release_all` returns the number of its iterations. -/
theorem releaseAll_iterated (s : Semaphore) : s.releaseAll = Iterated .success s :=
  s.drained_iterated .success

/-- The destructor counts nothing; its loop is the same one. -/
theorem destroy_iterated (s : Semaphore) :
    drain .operationAborted s.waiters.length s = some (s.waiters.length, s.destroy) ∧
      s.destroy = (Iterated .operationAborted s).2 := by
  have whole := s.drained_iterated .operationAborted
  obtain ⟨rounds, last, posted, finished, drains⟩ :=
    s.drain_exact .operationAborted s.waiters.length (Nat.le_refl _)
  have ended : s.destroy = (last, posted) := by simp [destroy, drained, finished]
  refine ⟨?_, by rw [destroy, whole]⟩
  rw [finished, ended, drains.rounds]

end Semaphore

/-- In every run of a semaphore, of a condition variable, and of a mutex with its guards,
each handler is invoked by a function of the executor that was queued before the step.
In `release_all` and in the destructor each iteration removes one operation from the
ring and none is added, and both end after one iteration for each operation that waited. -/
theorem no_reentrancy {γ : Type} (exec : Executor) (order : Nat → PostOrder) (initialCount : Int)
    (state : γ) (uses : List (ComposedWait.Action Unit)) (waits : List (ComposedWait.Action γ))
    (locks : List GuardRun.Event) (s : Semaphore) :
    ComposedWait.Lifetime.machine.Along ComposedWait.Lifetime.Later
        (.semaphore exec initialCount order) uses ∧
      ComposedWait.Lifetime.machine.Along ComposedWait.Lifetime.Later
        (.conditionVariable exec state order) waits ∧
      GuardRun.machine.Along GuardRun.Later (.start exec order) locks ∧
      (∀ ec i, ((Semaphore.drainFront ec)^[i] s).waiters = s.waiters.drop i) ∧
      s.releaseAll = Semaphore.Iterated .success s ∧
      Semaphore.drain .operationAborted s.waiters.length s =
        some (s.waiters.length, s.destroy) ∧
      s.destroy = (Semaphore.Iterated .operationAborted s).2 := by
  have used (δ : Type) (start : ComposedWait.Lifetime δ) (actions : List (ComposedWait.Action δ)) :
      ComposedWait.Lifetime.machine.Along ComposedWait.Lifetime.Later start actions :=
    Machine.along_of_invariant _
      (fun _ _ _ _ stepped => ⟨ComposedWait.Lifetime.step_later stepped, trivial⟩) trivial actions
  have locked : GuardRun.machine.Along GuardRun.Later (.start exec order) locks :=
    Machine.along_of_invariant _
      (fun _ _ _ _ stepped => ⟨GuardRun.step_later stepped, trivial⟩) trivial locks
  refine ⟨used Unit _ uses, used γ _ waits, locked, ?_, s.releaseAll_iterated, s.destroy_iterated⟩
  intro ec i
  exact Semaphore.iterate_drainFront_waiters ec i s

end Asioex
