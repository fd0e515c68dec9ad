import Asioex.ComposedPasses

/-!
# Who invokes the completion handlers

A posted function does one of few things, and these are listed once. Handlers are
invoked by posted functions only: initiating an operation, ending waits and emitting a
cancellation post at most, and the lambda of an operation that is being initiated has
not suspended, so that it posts its completion instead of completing.

The destructor of the shared object ends every wait. What is posted then, or was posted
before, still runs; the state that it finds is the last state of the object.
-/

namespace Asioex.ComposedWait

variable {γ : Type}

/-- The destructor: the semaphore's own aborts every operation that still waits. -/
def destroy (s : ComposedWait γ) : ComposedWait γ := s.enqueue s.semaphore.destroy

/-- What a posted function does, by what it is and by what its operation's test says. -/
inductive Ran (s : ComposedWait γ) (job : Job) : ComposedWait γ → Prop where
  | finished (call : job.call = .finish) : Ran s job (s.invoke job.op .success)
  | ended (ec : ErrorCode) (call : job.call = .resume ec)
      (ends : (s.ops job.op).attempt = none ∨ ec.isSet = true) : Ran s job (s.invoke job.op ec)
  | passed (attempt : γ → Option γ) (gate : γ) (call : job.call = .resume .success)
      (tested : (s.ops job.op).attempt = some attempt) (opened : attempt s.gate = some gate)
      (suspended : (s.ops job.op).didSuspend = true) :
      Ran s job ((s.pass job.op gate).invoke job.op .success)
  | deferred (attempt : γ → Option γ) (gate : γ) (call : job.call = .resume .success)
      (tested : (s.ops job.op).attempt = some attempt) (opened : attempt s.gate = some gate)
      (fresh : (s.ops job.op).didSuspend = false) :
      Ran s job ((s.pass job.op gate).postFinish job.op)
  | waits (attempt : γ → Option γ) (call : job.call = .resume .success)
      (tested : (s.ops job.op).attempt = some attempt) (closed : attempt s.gate = none) :
      Ran s job ((s.suspend job.op).acquire job.op)

/-- Every posted function does one of these. -/
theorem execute_ran (s : ComposedWait γ) (job : Job) : Ran s job (s.execute job) := by
  cases call : job.call with
  | finish =>
    have runs : s.execute job = s.invoke job.op .success := by simp only [execute, call]
    rw [runs]
    exact .finished call
  | resume ec =>
    have runs : s.execute job = s.resume job.op ec := by simp only [execute, call]
    rw [runs]
    cases tested : (s.ops job.op).attempt with
    | none =>
      have ends : s.resume job.op ec = s.invoke job.op ec := by simp only [resume, tested]
      rw [ends]
      exact .ended ec call (.inl tested)
    | some attempt =>
      have again : s.resume job.op ec = s.body attempt job.op ec := by simp only [resume, tested]
      rw [again]
      by_cases failed : ec.isSet = true
      · have ends : s.body attempt job.op ec = s.invoke job.op ec := by simp [body, failed]
        rw [ends]
        exact .ended ec call (.inr failed)
      · obtain rfl : ec = .success := ec.not_isSet_iff.mp failed
        cases opened : attempt s.gate with
        | none =>
          have waits : s.body attempt job.op .success = (s.suspend job.op).acquire job.op := by
            simp [body, opened]
          rw [waits]
          exact .waits attempt call tested opened
        | some gate =>
          cases suspended : (s.ops job.op).didSuspend with
          | false =>
            have posts : s.body attempt job.op .success =
                (s.pass job.op gate).postFinish job.op := by simp [body, opened, suspended]
            rw [posts]
            exact .deferred attempt gate call tested opened suspended
          | true =>
            have completes : s.body attempt job.op .success =
                (s.pass job.op gate).invoke job.op .success := by simp [body, opened, suspended]
            rw [completes]
            exact .passed attempt gate call tested opened suspended

/-- A posted function that invokes a handler invokes its own operation's, once, with
success or the code it was posted with, and leaves the semaphore alone. -/
theorem Ran.invoked {s next : ComposedWait γ} {job : Job} (ran : Ran s job next) :
    next.invoked = s.invoked ∨
      ∃ ec, next.invoked = s.invoked ++ [(job.op, ec)] ∧ (ec = .success ∨ job.call = .resume ec) ∧
        next.semaphore = s.semaphore := by
  cases ran with
  | finished call => exact .inr ⟨.success, rfl, .inl rfl, rfl⟩
  | ended ec call ends => exact .inr ⟨ec, rfl, .inr call, rfl⟩
  | passed attempt gate call tested opened suspended => exact .inr ⟨.success, rfl, .inl rfl, rfl⟩
  | deferred attempt gate call tested opened fresh => exact .inl rfl
  | waits attempt call tested closed => exact .inl rfl

/-- Only a function that was posted with success by the semaphore calls it again. -/
theorem Ran.semaphore {s next : ComposedWait γ} {job : Job} (ran : Ran s job next)
    (other : job.call ≠ .resume .success) : next.semaphore = s.semaphore := by
  cases ran with
  | finished call => rfl
  | ended ec call ends => rfl
  | passed attempt gate call tested opened suspended => exact absurd call other
  | deferred attempt gate call tested opened fresh => exact absurd call other
  | waits attempt call tested closed => exact absurd call other

/-- What a posted function posts joins the queue at its end. -/
theorem Ran.queue {s next : ComposedWait γ} {job : Job} (ran : Ran s job next) :
    s.queue <+: next.queue := by
  cases ran with
  | finished call => exact List.prefix_refl _
  | ended ec call ends => exact List.prefix_refl _
  | passed attempt gate call tested opened suspended => exact List.prefix_refl _
  | deferred attempt gate call tested opened fresh => exact List.prefix_append _ _
  | waits attempt call tested closed => exact List.prefix_append _ _

/-- A function posted with an error invokes its operation's handler with it. -/
theorem execute_failed (s : ComposedWait γ) {job : Job} {ec : ErrorCode}
    (call : job.call = .resume ec) (failed : ec.isSet = true) :
    s.execute job = s.invoke job.op ec := by
  simp only [execute, call, resume]
  cases (s.ops job.op).attempt with
  | none => rfl
  | some attempt => simp only [body, failed, ↓reduceIte]

/-- Initiating an operation invokes no handler.

Proof: the lambda is called without an error and has not suspended, so it posts its
completion when the test passes, and acquires when it does not. -/
theorem initiate_invoked (s : ComposedWait γ) (executor : Option Executor) (connected : Bool)
    (attempt : Option (γ → Option γ)) :
    (s.initiate executor connected attempt).invoked = s.invoked := by
  cases attempt with
  | none => rfl
  | some attempt =>
    have fresh : ((s.register executor connected (some attempt)).ops s.started).didSuspend = false := by
      simp [register]
    have started : s.initiate executor connected (some attempt) =
        (s.register executor connected (some attempt)).body attempt s.started .success := rfl
    rw [started]
    cases opened : attempt s.gate with
    | none =>
      have same : attempt (s.register executor connected (some attempt)).gate = none := opened
      simp only [body, ErrorCode.isSet_success, Bool.false_eq_true, ↓reduceIte, same]
      rfl
    | some gate =>
      have same : attempt (s.register executor connected (some attempt)).gate = some gate := opened
      simp only [body, ErrorCode.isSet_success, Bool.false_eq_true, ↓reduceIte, same, fresh]
      rfl

theorem cancel_invoked (s : ComposedWait γ) (p : Nat) (type : CancellationType) :
    (s.cancel p type).invoked = s.invoked := by
  rcases s.cancel_emits p type with same | ⟨signalled, received, same⟩
  · rw [same]
  · rw [same]
    rfl

/-- What a step invokes: nothing, or one handler, by a function that was queued. -/
structure Invokes (s : ComposedWait γ) (k : Nat) (job : Job) (ec : ErrorCode)
    (next : ComposedWait γ) : Prop where
  queued : s.queue[k]? = some job
  code : ec = .success ∨ job.call = .resume ec
  invoked : next.invoked = s.invoked ++ [(job.op, ec)]
  semaphore : next.semaphore = s.semaphore

/-- A move invokes no handler, or runs a queued function that invokes its own. -/
theorem step_invoked {s next : ComposedWait γ} {move : Move γ}
    (stepped : machine.step s move = some next) :
    next.invoked = s.invoked ∨ ∃ k job ec, move = .run k ∧ s.Invokes k job ec next := by
  cases move with
  | initiate executor connected attempt =>
    obtain rfl := Option.some.inj stepped
    exact .inl (s.initiate_invoked executor connected attempt)
  | run k =>
    obtain ⟨job, queued, rfl⟩ := Option.map_eq_some_iff.mp stepped
    rcases ((s.dequeue k).execute_ran job).invoked with silent | ⟨ec, grown, code, still⟩
    · exact .inl silent
    · exact .inr ⟨k, job, ec, rfl, queued, code, grown, still⟩
  | cancel p type =>
    obtain ⟨-, rfl⟩ := step_cancel.mp stepped
    exact .inl (s.cancel_invoked p type)
  | release =>
    obtain rfl := Option.some.inj stepped
    exact .inl rfl
  | releaseAll =>
    obtain rfl := Option.some.inj stepped
    exact .inl rfl
  | setGate gate =>
    obtain rfl := Option.some.inj stepped
    exact .inl rfl

/-- The destructor keeps the invariants of every state. -/
theorem Sound.destroy {s : ComposedWait γ} (sound : s.Sound) : s.destroy.Sound where
  consistent := by
    obtain ⟨queue, represents⟩ := sound.consistent.represents
    exact sound.consistent.enqueue (.inr rfl)
      ⟨_, Semaphore.drained_represents represents .operationAborted⟩
      (s.semaphore.drained_completes .operationAborted)
  answered := sound.answered.enqueue _
  tracked := sound.tracked

end Asioex.ComposedWait
