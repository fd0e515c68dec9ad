import Mathlib.Data.List.Perm.Basic
import Asioex.SemaphoreRefinement

/-!
# Operations that wait on a semaphore until a test passes

`basic_mutex::async_lock` and the predicate form of
`basic_condition_variable::async_wait` are one composed operation over different
tests: fail with the code they are resumed with, pass and complete, or suspend in
the semaphore and try again when resumed. The test reads a gate and may change it.
For the mutex the gate is `locked_`; for the condition variable it is whatever
state the predicates read, which the variable itself never writes. An operation
without a test is a plain `async_acquire`.

The executor holds the functions posted and not yet run, and runs any one of them
at a time. `async_compose` runs the body inside the initiating function, runs it
again for each resumption, and filters cancellations: the outer slot's handler
forwards only the terminal bit, to whatever is assigned to the inner slot then.
The list of signalled operations is history that the code itself never consults.
-/

namespace Asioex

/-- What a posted function does: call the operation back with a code, or run the
lambda of the path that did not suspend, which completes with success. -/
inductive Call where
  | resume (ec : ErrorCode)
  | finish
deriving DecidableEq, Repr

/-- A function queued on an executor for one operation. -/
structure Job where
  executor : Executor
  op : Nat
  call : Call
deriving DecidableEq, Repr

/-- An initiated operation: the handler it passes to the semaphore, its test, and
the flag its lambda keeps. A test returns the gate it leaves when it passes. -/
structure Operation (γ : Type) where
  self : Handler
  attempt : Option (γ → Option γ)
  didSuspend : Bool

/-- The order in which the two arguments of the `post` of the path that did not suspend
are evaluated, which the language leaves open: the executor is read from the operation,
or the operation is moved into the lambda before. A handler that has been moved from
still answers, with some executor or with none, but nothing says with which. -/
inductive PostOrder where
  | executorFirst
  | lambdaFirst (left : Option Executor)
deriving DecidableEq, Repr

/-- The executor that this `post` finds associated with the operation's handler. A
handler without an association has none after it was moved either. -/
def PostOrder.read (order : PostOrder) (handler : Handler) : Option Executor :=
  match order with
  | .executorFirst => handler.executor
  | .lambdaFirst left => handler.executor.bind (fun _ => left)

/-- Every operation's `post` evaluates its arguments from left to right. -/
def leftToRight (_p : Nat) : PostOrder := .executorFirst

/-- The shared object and the executor, with the history of the operations. The orders
of evaluation are the compiler's and the handlers', and nothing changes them. -/
structure ComposedWait (γ : Type) where
  gate : γ
  semaphore : Semaphore
  queue : List Job
  ops : Nat → Operation γ
  started : Nat
  passed : List Nat
  invoked : List (Nat × ErrorCode)
  signalled : List Nat
  order : Nat → PostOrder

namespace ComposedWait

variable {γ : Type}

/-- No operation has been initiated. -/
def create (gate : γ) (semaphore : Semaphore) (order : Nat → PostOrder) : ComposedWait γ :=
  ⟨gate, semaphore, [], fun _ => ⟨⟨0, none, none⟩, none, false⟩, 0, [], [], [], order⟩

/-- Take over a semaphore operation's result: what it posted joins the queue. -/
def enqueue (s : ComposedWait γ) (result : Semaphore × List Posted) : ComposedWait γ :=
  { s with
    semaphore := result.1
    queue := s.queue ++
      result.2.map (fun posted => ⟨posted.executor, posted.handler.id, .resume posted.ec⟩) }

/-- Call the completion handler that the initiator supplied. -/
def invoke (s : ComposedWait γ) (p : Nat) (ec : ErrorCode) : ComposedWait γ :=
  { s with invoked := s.invoked ++ [(p, ec)] }

/-- `semaphore_.async_acquire(std::move(self))`. -/
def acquire (s : ComposedWait γ) (p : Nat) : ComposedWait γ :=
  s.enqueue (s.semaphore.asyncAcquire (s.ops p).self)

/-- `did_suspend = true`. -/
def suspend (s : ComposedWait γ) (p : Nat) : ComposedWait γ :=
  { s with ops := Function.update s.ops p { s.ops p with didSuspend := true } }

/-- The gate after a test that passed. -/
def pass (s : ComposedWait γ) (p : Nat) (gate : γ) : ComposedWait γ :=
  { s with gate := gate, passed := s.passed ++ [p] }

/-- `get_associated_executor(self, get_executor())`, as an argument of the `asio::post`
of the path that did not suspend. -/
def postedTo (s : ComposedWait γ) (p : Nat) : Executor :=
  ((s.order p).read (s.ops p).self).getD s.semaphore.exec

/-- The `asio::post` of the path that did not suspend. -/
def postFinish (s : ComposedWait γ) (p : Nat) : ComposedWait γ :=
  { s with queue := s.queue ++ [⟨s.postedTo p, p, .finish⟩] }

/-- The lambda of the composed operation, called with a code. -/
def body (attempt : γ → Option γ) (s : ComposedWait γ) (p : Nat) (ec : ErrorCode) :
    ComposedWait γ :=
  if ec.isSet then s.invoke p ec
  else
    match attempt s.gate with
    | some gate =>
      if (s.ops p).didSuspend then (s.pass p gate).invoke p ec
      else (s.pass p gate).postFinish p
    | none => (s.suspend p).acquire p

/-- A resumption: the lambda again, or the plain handler itself. -/
def resume (s : ComposedWait γ) (p : Nat) (ec : ErrorCode) : ComposedWait γ :=
  match (s.ops p).attempt with
  | none => s.invoke p ec
  | some attempt => s.body attempt p ec

/-- Number a new operation. A handler's slot is its own, when it is connected. -/
def register (s : ComposedWait γ) (executor : Option Executor) (connected : Bool)
    (attempt : Option (γ → Option γ)) : ComposedWait γ :=
  { s with
    started := s.started + 1
    ops := Function.update s.ops s.started
      ⟨⟨s.started, executor, if connected then some s.started else none⟩, attempt, false⟩ }

/-- Initiate an operation: the lambda is called at once, without an error code. -/
def initiate (s : ComposedWait γ) (executor : Option Executor) (connected : Bool)
    (attempt : Option (γ → Option γ)) : ComposedWait γ :=
  let registered := s.register executor connected attempt
  match attempt with
  | none => registered.acquire s.started
  | some attempt => registered.body attempt s.started .success

/-- Run one posted function. -/
def execute (s : ComposedWait γ) (job : Job) : ComposedWait γ :=
  match job.call with
  | .resume ec => s.resume job.op ec
  | .finish => s.invoke job.op .success

/-- Take a posted function off the queue, wherever it stands. -/
def dequeue (s : ComposedWait γ) (k : Nat) : ComposedWait γ :=
  { s with queue := s.queue.eraseIdx k }

/-- How often an operation's handler has been invoked. -/
def finished (s : ComposedWait γ) (p : Nat) : Nat := s.invoked.countP (·.1 == p)

/-- Note a terminal cancellation emitted on an outstanding operation's slot. -/
def signal (s : ComposedWait γ) (p : Nat) : ComposedWait γ :=
  if (s.ops p).self.slot = none ∨ s.finished p ≠ 0 then s
  else { s with signalled := s.signalled ++ [p] }

/-- Emit a cancellation on an operation's slot. A plain acquire receives it as it
is. A composed operation receives what its filter leaves, and nothing if that is
none. -/
def cancel (s : ComposedWait γ) (p : Nat) (type : CancellationType) : ComposedWait γ :=
  match (s.ops p).attempt with
  | none => s.enqueue (s.semaphore.emit p type)
  | some _ =>
    let filtered := type &&& .terminal
    if filtered = .none then s
    else (s.signal p).enqueue (s.semaphore.emit p filtered)

/-- `semaphore_.release()`. -/
def release (s : ComposedWait γ) : ComposedWait γ := s.enqueue s.semaphore.release

/-- `semaphore_.release_all()`. -/
def releaseAll (s : ComposedWait γ) : ComposedWait γ := s.enqueue s.semaphore.releaseAll.2

/-- Whatever else changes the gate. -/
def setGate (s : ComposedWait γ) (gate : γ) : ComposedWait γ := { s with gate := gate }

/-- Everything that callers and the executor can do. -/
inductive Move (γ : Type) where
  | initiate (executor : Option Executor) (connected : Bool) (attempt : Option (γ → Option γ))
  | run (k : Nat)
  | cancel (p : Nat) (type : CancellationType)
  | release
  | releaseAll
  | setGate (gate : γ)

/-- A run names a queued function and a cancellation an initiated operation. -/
def step (s : ComposedWait γ) : Move γ → Option (ComposedWait γ)
  | .initiate executor connected attempt => some (s.initiate executor connected attempt)
  | .run k => s.queue[k]?.map (fun job => (s.dequeue k).execute job)
  | .cancel p type => if p < s.started then some (s.cancel p type) else none
  | .release => some s.release
  | .releaseAll => some s.releaseAll
  | .setGate gate => some (s.setGate gate)

def machine : Machine (ComposedWait γ) (Move γ) := ⟨step⟩

/-- How many functions are queued for an operation. -/
def pending (s : ComposedWait γ) (p : Nat) : Nat := s.queue.countP (·.op == p)

/-- Where an operation is: linked, queued or finished. -/
def located (s : ComposedWait γ) (p : Nat) : Nat :=
  s.semaphore.linked p + s.pending p + s.finished p

/-- The newest operation has the test it was initiated with. -/
@[simp] theorem attempt_register (s : ComposedWait γ) (executor : Option Executor)
    (connected : Bool) (attempt : Option (γ → Option γ)) :
    ((s.register executor connected attempt).ops s.started).attempt = attempt := by
  simp [register]

/-- Earlier operations are left alone. -/
theorem ops_register_of_ne (s : ComposedWait γ) (executor : Option Executor) (connected : Bool)
    (attempt : Option (γ → Option γ)) {p : Nat} (other : p ≠ s.started) :
    (s.register executor connected attempt).ops p = s.ops p :=
  Function.update_of_ne other _ _

section Located

variable (s : ComposedWait γ) (p q : Nat)

/-- Invoking a handler puts its operation among the finished ones. -/
@[simp] theorem located_invoke (ec : ErrorCode) :
    (s.invoke p ec).located q = s.located q + if p = q then 1 else 0 := by
  simp only [located, invoke, pending, finished, List.countP_append, List.countP_singleton,
    beq_iff_eq]
  omega

@[simp] theorem located_postFinish :
    (s.postFinish p).located q = s.located q + if p = q then 1 else 0 := by
  simp only [located, postFinish, pending, finished, List.countP_append, List.countP_singleton,
    beq_iff_eq]
  omega

/-- The queue grows by what a semaphore operation posted. -/
theorem pending_enqueue (result : Semaphore × List Posted) :
    (s.enqueue result).pending q = s.pending q + Semaphore.postedFor result.2 q := by
  simp [pending, enqueue, Semaphore.postedFor, List.countP_map, Function.comp_def]

/-- Ending waits moves operations from the ring to the queue. -/
theorem located_enqueue {ec : ErrorCode} {result : Semaphore × List Posted}
    (completes : s.semaphore.Completes ec result.1 result.2) :
    (s.enqueue result).located q = s.located q := by
  have moved := completes.census q
  simp only [located, pending_enqueue]
  change result.1.linked q + _ + s.finished q = _
  omega

/-- An acquire puts its operation in the ring or in the queue. -/
theorem located_acquire (own : (s.ops p).self.id = p) :
    (s.acquire p).located q = s.located q + if p = q then 1 else 0 := by
  have moved := s.semaphore.asyncAcquire_census (s.ops p).self q
  rw [own] at moved
  simp only [located, acquire, pending_enqueue]
  change (s.semaphore.asyncAcquire (s.ops p).self).1.linked q + _ + s.finished q = _
  omega

/-- The queue consists of the function taken off it and of those left. -/
theorem dequeue_perm {k : Nat} {job : Job} (queued : s.queue[k]? = some job) :
    (job :: (s.dequeue k).queue).Perm s.queue := by
  obtain ⟨bound, rfl⟩ := List.getElem?_eq_some_iff.mp queued
  exact List.getElem_cons_eraseIdx_perm bound

/-- Taking a function off the queue makes one fewer of its kind. -/
theorem countP_dequeue {k : Nat} {job : Job} (queued : s.queue[k]? = some job)
    (kind : Job → Bool) :
    s.queue.countP kind = (s.dequeue k).queue.countP kind + if kind job then 1 else 0 := by
  rw [← (s.dequeue_perm queued).countP_eq kind, List.countP_cons]

/-- Taking a function off the queue takes its operation in hand. -/
theorem located_dequeue {k : Nat} {job : Job} (queued : s.queue[k]? = some job) :
    s.located q = (s.dequeue k).located q + if job.op = q then 1 else 0 := by
  have fewer := s.countP_dequeue queued (fun job => job.op == q)
  simp only [beq_iff_eq] at fewer
  simp only [located, pending]
  change _ = s.semaphore.linked q + _ + s.finished q + _
  omega

end Located

/-- One call of the lambda fails, passes, or suspends. -/
theorem body_cases (attempt : γ → Option γ) (s : ComposedWait γ) (p : Nat) (ec : ErrorCode) :
    (ec.isSet = true ∧ s.body attempt p ec = s.invoke p ec) ∨
    (∃ gate, ec = .success ∧ attempt s.gate = some gate ∧
      (s.body attempt p ec = (s.pass p gate).invoke p .success ∨
        s.body attempt p ec = (s.pass p gate).postFinish p)) ∨
    (ec = .success ∧ attempt s.gate = none ∧ s.body attempt p ec = (s.suspend p).acquire p) := by
  by_cases failed : ec.isSet = true
  · exact .inl ⟨failed, by simp [body, failed]⟩
  · obtain rfl : ec = .success := ec.not_isSet_iff.mp failed
    cases tested : attempt s.gate with
    | none => exact .inr (.inr ⟨rfl, rfl, by simp [body, tested]⟩)
    | some gate =>
      refine .inr (.inl ⟨gate, rfl, rfl, ?_⟩)
      by_cases suspended : (s.ops p).didSuspend = true
      · exact .inl (by simp [body, tested, suspended])
      · exact .inr (by simp [body, tested, suspended])

/-- A cancellation is lost in the filter, or reaches the slot as an emission, which
is noted as a signal of an outstanding operation that has a test and a slot. -/
theorem cancel_cases (s : ComposedWait γ) (p : Nat) (type : CancellationType) :
    s.cancel p type = s ∨
    (∃ emitted, s.cancel p type = s.enqueue (s.semaphore.emit p emitted)) ∨
    ((s.ops p).attempt.isSome = true ∧ (s.ops p).self.slot ≠ none ∧
      type &&& .terminal ≠ .none ∧
      s.cancel p type = ({ s with signalled := s.signalled ++ [p] } : ComposedWait γ).enqueue
        (s.semaphore.emit p (type &&& .terminal))) := by
  cases tested : (s.ops p).attempt with
  | none => exact .inr (.inl ⟨type, by simp [cancel, tested]⟩)
  | some attempt =>
    by_cases filtered : type &&& .terminal = .none
    · exact .inl (by simp [cancel, tested, filtered])
    · by_cases deaf : (s.ops p).self.slot = none ∨ s.finished p ≠ 0
      · refine .inr (.inl ⟨type &&& .terminal, ?_⟩)
        simp only [cancel, tested, filtered, ↓reduceIte, signal, deaf]
      · refine .inr (.inr ⟨rfl, (not_or.mp deaf).1, filtered, ?_⟩)
        simp only [cancel, tested, filtered, ↓reduceIte, signal, deaf]

/-- A cancellation is lost, or reaches the slot as an emission. Besides, it changes at
most the list of signals. -/
theorem cancel_emits (s : ComposedWait γ) (p : Nat) (type : CancellationType) :
    s.cancel p type = s ∨ ∃ signalled received,
      s.cancel p type = ({ s with signalled := signalled } : ComposedWait γ).enqueue
        (s.semaphore.emit p received) := by
  rcases s.cancel_cases p type with same | ⟨received, same⟩ | ⟨-, -, -, same⟩
  · exact .inl same
  · exact .inr ⟨s.signalled, received, same⟩
  · exact .inr ⟨s.signalled ++ [p], _, same⟩

/-- A cancellation that is taken is one of an initiated operation. -/
theorem step_cancel {s next : ComposedWait γ} {p : Nat} {type : CancellationType} :
    machine.step s (.cancel p type) = some next ↔ p < s.started ∧ s.cancel p type = next := by
  simp [machine, step]

end ComposedWait

end Asioex
