import Asioex.Asio
import Asioex.Lib.Machine

/-!
# Composed coroutines

`compose_promise` runs a coroutine body for a completion handler. The body starts in
the initiating function. Each awaited deferred operation completes during its own
initiation, or later from an executor step, or destroys its completion; a completion
resumes the body where it is called. The frame is destroyed when the body ends, and
its destructor gives the handler and the result to `dispatch` if the promise has been
suspended, and to `post` otherwise.

There is one thread of control: the executor takes no step while the initiating
function runs. That function returns when an operation is left pending or the frame
is gone, whatever called the body last.
-/

namespace Asioex

/-- What an exception carries: asio's `system_error` with its code, or anything else. -/
inductive Exception where
  | systemError (ec : ErrorCode)
  | other (value : Nat)
deriving DecidableEq, Repr

/-- A coroutine body from one point on: it awaits an operation and goes on with the
values that the operation completes with, it returns a tuple, or it throws. -/
inductive Body (A R : Type) where
  | await (next : A → Body A R)
  | coReturn (result : R)
  | throw (ex : Exception)

/-- What is left of a body after its operations completed with these values. -/
def Body.after {A R : Type} : List A → Body A R → Option (Body A R)
  | [], body => some body
  | value :: values, .await next => (next value).after values
  | _ :: _, _ => none

/-- The tuple that a body returns after its operations completed with these values. -/
def Body.returned {A R : Type} (body : Body A R) (values : List A) : Option R :=
  match body.after values with
  | some (.coReturn result) => some result
  | _ => none

/-- Where the coroutine is: not called yet, in the initiation of the operation it
awaits, waiting for that operation, or destroyed. -/
inductive Phase (A R : Type) where
  | created (body : Body A R)
  | initiating (next : A → Body A R)
  | pending (next : A → Body A R)
  | destroyed

/-- A function given to the executor: the handler applied to the result, or the
exception thrown again. -/
inductive Task (R : Type) where
  | complete (result : R)
  | rethrow (ex : Exception)
deriving DecidableEq, Repr

/-- `compose_promise` with its surroundings: whether the code that runs it is on the
executor's thread, whether the initiating function has returned, the executor's queue,
and the calls of the completion handler, each with whether that function had returned. -/
structure ComposePromise (A R : Type) where
  phase : Phase A R
  didSuspend : Bool
  onExecutor : Bool
  returned : Bool
  queue : List (Task R)
  invoked : List (R × Bool)
  rethrown : List Exception

namespace ComposePromise

variable {A R : Type}

/-- A coroutine about to be called, on the executor's thread or on another. -/
def create (body : Body A R) (onExecutor : Bool) : ComposePromise A R :=
  ⟨.created body, false, onExecutor, false, [], [], []⟩

/-- `std::apply(std::move(completion), std::move(tup))`. -/
def invoke (s : ComposePromise A R) (result : R) : ComposePromise A R :=
  { s with invoked := s.invoked ++ [(result, s.returned)] }

/-- `asio::post`. -/
def post (s : ComposePromise A R) (task : Task R) : ComposePromise A R :=
  { s with queue := s.queue ++ [task] }

/-- `asio::dispatch` of the completion: at once on the executor's thread. -/
def dispatch (s : ComposePromise A R) (result : R) : ComposePromise A R :=
  if s.onExecutor then s.invoke result else s.post (.complete result)

/-- The frame is destroyed, and with it every call on the stack returns. -/
def leave (s : ComposePromise A R) : ComposePromise A R :=
  { s with phase := .destroyed, returned := true }

/-- `~compose_promise` with a result. -/
def destruct (s : ComposePromise A R) (result : R) : ComposePromise A R :=
  if s.didSuspend then (s.dispatch result).leave else (s.post (.complete result)).leave

/-- The body from one point on, up to its next suspension or its end. A thrown
exception is given to `post`, and leaves the promise without a result. -/
def resume (s : ComposePromise A R) : Body A R → ComposePromise A R
  | .await next => { s with phase := .initiating next }
  | .coReturn result => s.destruct result
  | .throw ex => (s.post (.rethrow ex)).leave

/-- `completion::operator()`. -/
def completion (s : ComposePromise A R) (next : A → Body A R) (value : A) : ComposePromise A R :=
  { s with didSuspend := true }.resume (next value)

/-- One function of the executor. -/
def execute (s : ComposePromise A R) : Task R → ComposePromise A R
  | .complete result => s.invoke result
  | .rethrow ex => { s with rethrown := s.rethrown ++ [ex] }

/-- The initiating function is called; the awaited operation completes during its
initiation, is left pending, or completes from an executor step; its completion is
destroyed uninvoked; or the executor runs a function. -/
inductive Event (A : Type) where
  | call
  | inline (value : A)
  | suspend
  | complete (value : A)
  | drop
  | run (k : Nat)

def step (s : ComposePromise A R) : Event A → Option (ComposePromise A R)
  | .call =>
    match s.phase with
    | .created body => some (s.resume body)
    | _ => none
  | .inline value =>
    match s.phase with
    | .initiating next => some (s.completion next value)
    | _ => none
  | .suspend =>
    match s.phase with
    | .initiating next => some { s with phase := .pending next, returned := true }
    | _ => none
  | .complete value =>
    match s.phase with
    | .pending next => some ({ s with onExecutor := true }.completion next value)
    | _ => none
  | .drop =>
    match s.phase with
    | .initiating _ | .pending _ => some s.leave
    | _ => none
  | .run k => s.queue[k]?.map (fun task => { s with queue := s.queue.eraseIdx k }.execute task)

def machine : Machine (ComposePromise A R) (Event A) := ⟨step⟩

section Steps

variable {s next : ComposePromise A R}

theorem step_call :
    machine.step s .call = some next ↔ ∃ body, s.phase = .created body ∧ s.resume body = next := by
  cases place : s.phase <;> simp [machine, step, place]

theorem step_inline {value : A} :
    machine.step s (.inline value) = some next ↔
      ∃ awaited, s.phase = .initiating awaited ∧ s.completion awaited value = next := by
  cases place : s.phase <;> simp [machine, step, place]

theorem step_suspend :
    machine.step s .suspend = some next ↔
      ∃ awaited, s.phase = .initiating awaited ∧
        { s with phase := .pending awaited, returned := true } = next := by
  cases place : s.phase <;> simp [machine, step, place]

theorem step_complete {value : A} :
    machine.step s (.complete value) = some next ↔
      ∃ awaited, s.phase = .pending awaited ∧
        { s with onExecutor := true }.completion awaited value = next := by
  cases place : s.phase <;> simp [machine, step, place]

theorem step_drop :
    machine.step s .drop = some next ↔
      (∃ awaited, s.phase = .initiating awaited ∨ s.phase = .pending awaited) ∧ s.leave = next := by
  cases place : s.phase <;> simp [machine, step, place]

theorem step_run {k : Nat} :
    machine.step s (.run k) = some next ↔
      ∃ task, s.queue[k]? = some task ∧
        { s with queue := s.queue.eraseIdx k }.execute task = next := by
  simp [machine, step]

end Steps

/-- The completion handler has only been called after the initiating function
returned. -/
def Deferred (_s : ComposePromise A R) (_event : Event A) (next : ComposePromise A R) : Prop :=
  ∀ call ∈ next.invoked, call.2 = true

/-- No operation whose completion makes the body return completes during its
initiation, in an initiating function that is called on the executor's thread and has
not returned. -/
def Settled (s : ComposePromise A R) (event : Event A) (_next : ComposePromise A R) : Prop :=
  ∀ value next result, event = .inline value → s.phase = .initiating next →
    next value = .coReturn result → s.onExecutor = true → s.returned = true

/-- What waits outside the initiating function has waited for it to return. -/
structure Orderly (s : ComposePromise A R) : Prop where
  fresh : ∀ body, s.phase = .created body → s.didSuspend = false
  pending : ∀ next, s.phase = .pending next → s.returned = true
  queued : s.queue ≠ [] → s.returned = true
  deferred : ∀ call ∈ s.invoked, call.2 = true

theorem create_orderly (body : Body A R) (onExecutor : Bool) :
    (create body onExecutor).Orderly := by
  constructor
  · intro _ _
    rfl
  · intro next waiting
    cases waiting
  · intro queued
    exact absurd rfl queued
  · intro call member
    exact absurd member List.not_mem_nil

/-- A frame that is gone leaves good order, if the handler was called in time. -/
theorem leave_orderly {s : ComposePromise A R} (deferred : ∀ call ∈ s.invoked, call.2 = true) :
    s.leave.Orderly := by
  constructor
  · intro body fresh
    cases fresh
  · intro next waiting
    cases waiting
  · intro _
    rfl
  · exact deferred

/-- A body that goes on in good order leaves good order, unless it returns into an
initiating function on the executor's thread.

Proof: by what the body does next. Only a return can call the handler, and it does so
in `dispatch`, where the call is noted with whether the function had returned. -/
theorem resume_orderly {s : ComposePromise A R} (body : Body A R)
    (queued : s.queue ≠ [] → s.returned = true) (deferred : ∀ call ∈ s.invoked, call.2 = true)
    (settled : ∀ result, body = .coReturn result → s.didSuspend = true → s.onExecutor = true →
      s.returned = true) : (s.resume body).Orderly := by
  cases body with
  | await next =>
    constructor
    · intro body fresh
      cases fresh
    · intro next waiting
      cases waiting
    · exact queued
    · exact deferred
  | coReturn result =>
    by_cases suspended : s.didSuspend = true
    · by_cases inside : s.onExecutor = true
      · have late : s.returned = true := settled result rfl suspended inside
        have called : s.resume (.coReturn result) = (s.invoke result).leave := by
          simp [resume, destruct, dispatch, suspended, inside]
        rw [called]
        apply leave_orderly
        intro call member
        rcases List.mem_append.mp member with before | now
        · exact deferred call before
        · rw [List.mem_singleton.mp now]
          exact late
      · have handed : s.resume (.coReturn result) = (s.post (.complete result)).leave := by
          simp [resume, destruct, dispatch, suspended, inside]
        rw [handed]
        exact leave_orderly deferred
    · have handed : s.resume (.coReturn result) = (s.post (.complete result)).leave := by
        simp [resume, destruct, suspended]
      rw [handed]
      exact leave_orderly deferred
  | throw ex => exact leave_orderly deferred

/-- A settled step keeps good order.

Proof: a body that starts has not been suspended, so it can only post; one that is
resumed from an executor step finds that the initiating function has returned; and one
that is resumed during an initiation is what the condition is about. -/
theorem step_orderly {s next : ComposePromise A R} {event : Event A} (orderly : s.Orderly)
    (stepped : machine.step s event = some next) (settled : Settled s event next) :
    next.Orderly := by
  cases event with
  | call =>
    obtain ⟨body, place, rfl⟩ := step_call.mp stepped
    apply resume_orderly body orderly.queued orderly.deferred
    intro result _ suspended
    rw [orderly.fresh body place] at suspended
    cases suspended
  | inline value =>
    obtain ⟨awaited, place, rfl⟩ := step_inline.mp stepped
    apply resume_orderly
    · exact orderly.queued
    · exact orderly.deferred
    · intro result returns _ inside
      exact settled value awaited result rfl place returns inside
  | suspend =>
    obtain ⟨awaited, place, rfl⟩ := step_suspend.mp stepped
    constructor
    · intro body fresh
      cases fresh
    · intro _ _
      rfl
    · intro _
      rfl
    · exact orderly.deferred
  | complete value =>
    obtain ⟨awaited, place, rfl⟩ := step_complete.mp stepped
    apply resume_orderly
    · exact orderly.queued
    · exact orderly.deferred
    · intro _ _ _ _
      exact orderly.pending awaited place
  | drop =>
    obtain ⟨-, rfl⟩ := step_drop.mp stepped
    exact leave_orderly orderly.deferred
  | run k =>
    obtain ⟨task, taken, rfl⟩ := step_run.mp stepped
    have late : s.returned = true := by
      apply orderly.queued
      intro vacant
      simp [vacant] at taken
    cases task with
    | complete result =>
      constructor
      · exact orderly.fresh
      · exact orderly.pending
      · intro _
        exact late
      · intro call member
        rcases List.mem_append.mp member with before | now
        · exact orderly.deferred call before
        · rw [List.mem_singleton.mp now]
          exact late
    | rethrow ex =>
      constructor
      · exact orderly.fresh
      · exact orderly.pending
      · intro _
        exact late
      · exact orderly.deferred

/-- A return into an initiating function on the executor's thread calls the handler
there. -/
theorem step_settled {s next : ComposePromise A R} {event : Event A}
    (stepped : machine.step s event = some next) (deferred : Deferred s event next) :
    Settled s event next := by
  rintro value awaited result rfl place returns inside
  have resumed : s.completion awaited value = next := by
    simpa [machine, step, place] using stepped
  subst resumed
  have called : (s.completion awaited value).invoked = s.invoked ++ [(result, s.returned)] := by
    simp [completion, resume, returns, destruct, dispatch, inside, invoke, leave]
  apply deferred (result, s.returned)
  rw [called]
  exact List.mem_append_right _ (List.mem_singleton_self _)

/-- The handler of a composed coroutine is called only after its initiating function
returned exactly when no operation whose completion makes the body return completes
during its initiation, in that function and on the executor's thread. -/
theorem completion_deferred_iff (A R : Type) (body : Body A R) (onExecutor : Bool)
    (events : List (Event A)) :
    machine.Along Deferred (create body onExecutor) events ↔
      machine.Along Settled (create body onExecutor) events := by
  have agree (s : ComposePromise A R) (event : Event A) (next : ComposePromise A R) (_ : True)
      (orderly : s.Orderly) (stepped : machine.step s event = some next) :
      Deferred s event next ↔ Settled s event next := by
    constructor
    · exact step_settled stepped
    · intro settled
      exact (step_orderly orderly stepped settled).deferred
  have keeps (s : ComposePromise A R) (event : Event A) (next : ComposePromise A R) (_ : True)
      (orderly : s.Orderly) (stepped : machine.step s event = some next)
      (settled : Settled s event next) : next.Orderly :=
    step_orderly orderly stepped settled
  exact machine.along_iff agree keeps events (fun _ _ => trivial) (create_orderly body onExecutor)

/-- A coroutine that awaits one operation and returns what it completed with. -/
def echo : Body Nat Nat := .await (fun value => .coReturn value)

/-- Called on the executor's thread, it awaits an operation that completes at once, as
`dispatch` does there: its handler is called before the initiating function returns. -/
theorem completion_inside_initiation :
    ∃ s, machine.run (create echo true) [.call, .inline 7] = some s ∧ s.invoked = [(7, false)] ∧
      ¬machine.Along Deferred (create echo true) [.call, .inline 7] := by
  refine ⟨_, rfl, rfl, fun along => ?_⟩
  have deferred := ((along _ rfl).2 _ rfl).1
  exact absurd (deferred (7, false) (by decide)) (by decide)

end ComposePromise

end Asioex
