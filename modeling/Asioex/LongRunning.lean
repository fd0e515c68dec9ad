import Mathlib.Data.List.Nodup
import Asioex.Semaphore
import Asioex.Lib.Machine
import Asioex.Lib.Population

/-!
# Long-running tasks

The program of `long_running.cpp`, for any number of tasks. `main` initiates the tasks, runs
the `io_context` and joins the thread pool. Each task has a semaphore without a token, which
is owned by the handler that waits on it; the worker thread that performs the task keeps a
plain reference to the semaphore, and dispatches the release to the `io_context`.

`initiate` posts the task before it waits on the semaphore, so that a worker may have
finished before anybody waits; its release is then queued behind `main`. The semaphore is
destroyed with the handler, whose operation the semaphore itself keeps until the release, and
the work guard of that operation keeps `io_context::run` from returning. The worker threads
and the thread of `main` interleave in any order. A use of a semaphore that does not exist is
recorded.

The rest is asio's, and is assumed to do as documented. `io_context::run` runs what is posted
one at a time and in order, and returns when nothing is posted and no work guard is left. A
`thread_pool` performs every function that is posted to it, on any of its threads, and `join`
returns when all of them have returned. `dispatch` from a thread that does not run the
`io_context` is a `post` to it.
-/

namespace Asioex

/-- Where `main` is: before the `make_unique` of a task's `initiate` or before its
`async_acquire`, in `ioc.run()`, in `workers.join()`, or at its end. -/
inductive MainPoint where
  | creating (i : Nat)
  | acquiring (i : Nat)
  | running
  | joining
  | stopped
deriving DecidableEq, Repr

/-- Where `main` is before the task, if there are that many. -/
def MainPoint.next (n i : Nat) : MainPoint := if i < n then .creating i else .running

/-- What is posted to the `io_context`: the lambda with the release of a task, or a handler
with its code. -/
inductive IoJob where
  | release (i : Nat)
  | handler (posted : Posted)
deriving DecidableEq, Repr

/-- Whether a posted function is the handler of a task. -/
def IoJob.handles (i : Nat) : IoJob → Bool
  | .handler posted => posted.handler.id == i
  | .release _ => false

/-- The program: the semaphores by task, while they exist, the tasks that the pool has not
completed, the queue of the `io_context`, and the tasks whose handler was called. -/
structure LongRunning where
  main : MainPoint
  sems : List (Option Semaphore)
  workers : List Nat
  ioc : List IoJob
  completed : List Nat
  dangling : Bool

namespace LongRunning

inductive Event where
  | main
  | run
  | work (k : Nat)
deriving DecidableEq, Repr

def start (n : Nat) : LongRunning := ⟨MainPoint.next n 0, [], [], [], [], false⟩

/-- Call a function of the semaphore of a task, through a pointer to it. -/
def use (s : LongRunning) (i : Nat) (call : Semaphore → Semaphore × List Posted) : LongRunning :=
  match s.sems[i]? with
  | some (some sem) =>
    { s with
      sems := s.sems.set i (some (call sem).1)
      ioc := s.ioc ++ (call sem).2.map .handler }
  | _ => { s with dangling := true }

/-- The handler of a task: no executor and no slot is associated with it. -/
def handler (i : Nat) : Handler := ⟨i, none, none⟩

/-- The first half of `initiate`: create the semaphore, and post the task. -/
def create (exec : Executor) (s : LongRunning) (i : Nat) : LongRunning :=
  { s with
    main := .acquiring i
    sems := s.sems ++ [some (.create exec 0)]
    workers := s.workers ++ [i] }

/-- The second half of `initiate`: `psem->async_acquire(...)`. -/
def acquire (n : Nat) (s : LongRunning) (i : Nat) : LongRunning :=
  { s.use i (·.asyncAcquire (handler i)) with main := MainPoint.next n (i + 1) }

/-- The end of `long_running_task`: ask the semaphore for its executor, and dispatch the
release. The worker does not run the `io_context`, which therefore queues it. -/
def complete (s : LongRunning) (k i : Nat) : LongRunning :=
  let asked := s.use i (fun sem => (sem, []))
  { asked with workers := s.workers.eraseIdx k, ioc := asked.ioc ++ [.release i] }

/-- The handler of a task is called, and destroyed together with the semaphore it owns. -/
def finish (s : LongRunning) (i : Nat) : LongRunning :=
  match s.sems[i]? with
  | some (some sem) =>
    { s with
      sems := s.sems.set i none
      ioc := s.ioc ++ sem.destroy.2.map .handler
      completed := s.completed ++ [i] }
  | _ => { s with dangling := true }

/-- Whether a semaphore has an operation that waits, whose work guard counts as work. -/
def waits : Option Semaphore → Bool
  | some sem => !sem.waiters.isEmpty
  | none => false

/-- `ioc.run()` returns when nothing is posted and no work guard is left; `workers.join()`
returns when the tasks are completed. -/
def step (exec : Executor) (n : Nat) (s : LongRunning) : Event → Option LongRunning
  | .main =>
    match s.main with
    | .creating i => some (s.create exec i)
    | .acquiring i => some (s.acquire n i)
    | .running =>
      if s.ioc = [] ∧ s.sems.any waits = false then some { s with main := .joining } else none
    | .joining => if s.workers = [] then some { s with main := .stopped } else none
    | .stopped => none
  | .run =>
    match s.main, s.ioc with
    | .running, .release i :: rest => some ({ s with ioc := rest }.use i (·.release))
    | .running, .handler posted :: rest => some ({ s with ioc := rest }.finish posted.handler.id)
    | _, _ => none
  | .work k =>
    match s.workers[k]? with
    | some i => some (s.complete k i)
    | none => none

def machine (exec : Executor) (n : Nat) : Machine LongRunning Event := ⟨step exec n⟩

/-- How far a task is: its semaphore is created, somebody waits on it, it is released, or the
task has ended. -/
inductive Stage where
  | created
  | waiting
  | released
  | ended
deriving DecidableEq, Repr

namespace Stage

/-- The semaphore of a task whose handler waits on it. -/
def waiter (exec : Executor) (i : Nat) : Semaphore :=
  ((Semaphore.create exec 0).asyncAcquire (handler i)).1

/-- The semaphore of a task at each stage. -/
def semaphore (exec : Executor) (i : Nat) : Stage → Option Semaphore
  | .created => some (.create exec 0)
  | .waiting => some (waiter exec i)
  | .released => some (waiter exec i).release.1
  | .ended => none

/-- The releases that a task has before it: by a worker, or queued. -/
def signals : Stage → Nat
  | .created | .waiting => 1
  | .released | .ended => 0

/-- The handlers of a task that are posted. -/
def handlers : Stage → Nat
  | .released => 1
  | _ => 0

/-- How often the handler of a task was called. -/
def completions : Stage → Nat
  | .ended => 1
  | _ => 0

end Stage

/-- What has been initiated where `main` is. A task that is created and not waited for is the
one that `main` is initiating; when `main` has left `ioc.run()` every task has ended. -/
def Fits (n : Nat) (stages : Population Stage) : MainPoint → Prop
  | .creating i => stages.length = i ∧ i < n ∧ ∀ j : Nat, stages[j]? ≠ some .created
  | .acquiring i => stages.length = i + 1 ∧ i < n ∧ stages[i]? = some .created ∧
      ∀ j : Nat, stages[j]? = some .created → j = i
  | .running => stages.length = n ∧ ∀ j : Nat, stages[j]? ≠ some .created
  | .joining | .stopped => stages.length = n ∧ ∀ stage ∈ stages, stage = .ended

/-- Every task is at one stage, at which its semaphore, its release, its handler and its
completion are; no semaphore has been used that does not exist. -/
structure Staged (exec : Executor) (n : Nat) (s : LongRunning) (stages : Population Stage) :
    Prop where
  sems : s.sems = stages.mapIdx (Stage.semaphore exec)
  signals : ∀ i, s.workers.count i + s.ioc.count (.release i) =
    Population.weightAt Stage.signals stages i
  handlers : ∀ i, s.ioc.countP (IoJob.handles i) = Population.weightAt Stage.handlers stages i
  completed : ∀ i, s.completed.count i = Population.weightAt Stage.completions stages i
  main : Fits n stages s.main
  safe : s.dangling = false

section Stages

variable (exec : Executor) (i : Nat)

theorem acquire_created : (Semaphore.create exec 0).asyncAcquire (handler i) =
    (Stage.waiter exec i, []) := rfl

theorem waiter_waiters : (Stage.waiter exec i).waiters = [⟨exec, handler i⟩] := rfl

/-- A release posts the handler that waits, and nobody waits any more. -/
theorem release_waiter : (Stage.waiter exec i).release.2 = [⟨exec, handler i, .success⟩] ∧
    (Stage.waiter exec i).release.1.waiters = [] := by
  simp [Semaphore.release, Stage.waiter, Semaphore.create, Semaphore.asyncAcquire, handler,
    Semaphore.increment, Semaphore.decrement, Semaphore.construct, Semaphore.addWaiter,
    Handler.associatedExecutor]

/-- The destructor of a released semaphore finds nobody. -/
theorem destroy_released : (Stage.waiter exec i).release.1.destroy.2 = [] := by
  have drains := Semaphore.drained_exact .operationAborted (Stage.waiter exec i).release.1
  rw [Semaphore.destroy, drains.posted, (release_waiter exec i).2]
  rfl

end Stages

section Staged

variable {exec : Executor} {n : Nat} {s : LongRunning} {stages : Population Stage}
  (staged : s.Staged exec n stages)

include staged

theorem Staged.sem {i : Nat} {stage : Stage} (found : stages[i]? = some stage) :
    s.sems[i]? = some (stage.semaphore exec i) := by
  rw [staged.sems, List.getElem?_mapIdx, found]
  rfl

/-- A task whose release has not been called has a semaphore. -/
theorem Staged.signalled {i : Nat}
    (positive : 0 < s.workers.count i + s.ioc.count (.release i)) :
    stages[i]? = some .created ∨ stages[i]? = some .waiting := by
  rw [staged.signals] at positive
  obtain ⟨stage, found, weight⟩ := Population.found_of_weightAt positive
  cases stage with
  | created => exact .inl found
  | waiting => exact .inr found
  | released | ended => cases weight

/-- A task whose handler is posted has been released. -/
theorem Staged.handled {i : Nat} (positive : 0 < s.ioc.countP (IoJob.handles i)) :
    stages[i]? = some .released := by
  rw [staged.handlers] at positive
  obtain ⟨stage, found, weight⟩ := Population.found_of_weightAt positive
  cases stage with
  | released => exact found
  | created | waiting | ended => cases weight

end Staged

/-- A function of a semaphore that exists. -/
theorem use_found {s : LongRunning} {i : Nat} {sem : Semaphore}
    (found : s.sems[i]? = some (some sem)) (call : Semaphore → Semaphore × List Posted) :
    s.use i call = { s with
      sems := s.sems.set i (some (call sem).1)
      ioc := s.ioc ++ (call sem).2.map .handler } := by
  simp [use, found]

theorem start_staged (exec : Executor) (n : Nat) : (start n).Staged exec n [] where
  sems := rfl
  signals i := rfl
  handlers i := rfl
  completed i := rfl
  main := by
    simp only [start, MainPoint.next]
    split
    · exact ⟨rfl, by assumption, by simp⟩
    · exact ⟨by simp; omega, by simp⟩
  safe := rfl

/-- `main` creates a semaphore, and a worker may start on the task at once. -/
theorem create_staged {exec : Executor} {n i : Nat} {s : LongRunning} {stages : Population Stage}
    (staged : s.Staged exec n stages) (here : s.main = .creating i) :
    (s.create exec i).Staged exec n (stages ++ [.created]) := by
  have fits := staged.main
  rw [here] at fits
  obtain ⟨rfl, below, none⟩ := fits
  refine ⟨?_, fun j => ?_, fun j => ?_, fun j => ?_, ?_, staged.safe⟩
  · rw [List.mapIdx_concat, ← staged.sems]
    rfl
  · have before := staged.signals j
    rw [Population.weightAt_join, ← before]
    simp only [create, List.count_append, List.count_singleton, beq_iff_eq, Stage.signals]
    omega
  · rw [Population.weightAt_join]
    simpa [Stage.handlers, create] using staged.handlers j
  · rw [Population.weightAt_join]
    simpa [Stage.completions, create] using staged.completed j
  · refine ⟨by simp, below, by simp, fun j found => ?_⟩
    rcases Population.found_join found with old | ⟨rfl, -⟩
    · exact absurd old (none j)
    · rfl

/-- Nobody can have released the semaphore on which `main` waits: nothing runs yet. -/
theorem Staged.acquires {exec : Executor} {n i : Nat} {s : LongRunning}
    {stages : Population Stage} (staged : s.Staged exec n stages)
    (found : stages[i]? = some .created) :
    s.acquire n i = { s with
      main := MainPoint.next n (i + 1)
      sems := s.sems.set i (some (Stage.waiter exec i)) } := by
  have called := use_found (staged.sem found) (·.asyncAcquire (handler i))
  rw [acquire_created, List.map_nil, List.append_nil] at called
  rw [acquire, called]

theorem acquire_staged {exec : Executor} {n i : Nat} {s : LongRunning} {stages : Population Stage}
    (staged : s.Staged exec n stages) (here : s.main = .acquiring i) :
    ∃ after, (s.acquire n i).Staged exec n after := by
  have fits := staged.main
  rw [here] at fits
  obtain ⟨length, below, found, alone⟩ := fits
  have moves : Population.Moves i .created .waiting stages (stages.set i .waiting) := ⟨found, rfl⟩
  rw [staged.acquires found]
  refine ⟨stages.set i .waiting, ?_, fun j => ?_, fun j => ?_, fun j => ?_, ?_, staged.safe⟩
  · rw [moves.moved, List.mapIdx_set, ← staged.sems]
    rfl
  · have changed := moves.weightAt Stage.signals j
    have before := staged.signals j
    simp only [Stage.signals] at changed
    change s.workers.count j + s.ioc.count (.release j) = _
    omega
  · have changed := moves.weightAt Stage.handlers j
    simp only [Stage.handlers, ite_self, Nat.add_zero] at changed
    rw [changed]
    exact staged.handlers j
  · have changed := moves.weightAt Stage.completions j
    simp only [Stage.completions, ite_self, Nat.add_zero] at changed
    rw [changed]
    exact staged.completed j
  · have none (j : Nat) : (stages.set i .waiting)[j]? ≠ some .created := by
      intro created
      rw [moves.state] at created
      by_cases mine : i = j
      · simp [mine] at created
      · rw [if_neg mine] at created
        exact mine (alone j created).symm
    change Fits n _ (MainPoint.next n (i + 1))
    unfold MainPoint.next
    split
    · exact ⟨moves.length.trans length, by assumption, none⟩
    · exact ⟨by rw [moves.length]; omega, none⟩

/-- A worker that completes a task finds the semaphore, and queues the release. -/
theorem Staged.completes {exec : Executor} {n k i : Nat} {s : LongRunning}
    {stages : Population Stage} (staged : s.Staged exec n stages)
    (working : s.workers[k]? = some i) :
    s.complete k i = { s with workers := s.workers.eraseIdx k, ioc := s.ioc ++ [.release i] } := by
  have positive : 0 < s.workers.count i := List.count_pos_iff.mpr (List.mem_of_getElem? working)
  have exists_sem : ∃ sem, s.sems[i]? = some (some sem) := by
    rcases staged.signalled (Nat.add_pos_left positive _) with created | waiting
    · exact ⟨_, staged.sem created⟩
    · exact ⟨_, staged.sem waiting⟩
  obtain ⟨sem, found⟩ := exists_sem
  have called := use_found found (fun sem => (sem, []))
  obtain ⟨inside, same⟩ := List.getElem?_eq_some_iff.mp found
  have still : s.sems.set i (some sem) = s.sems := by rw [← same, List.set_getElem_self]
  simp only [List.map_nil, List.append_nil, still] at called
  rw [complete, called]

theorem complete_staged {exec : Executor} {n k i : Nat} {s : LongRunning}
    {stages : Population Stage} (staged : s.Staged exec n stages)
    (working : s.workers[k]? = some i) : (s.complete k i).Staged exec n stages := by
  rw [staged.completes working]
  obtain ⟨bound, rfl⟩ := List.getElem?_eq_some_iff.mp working
  have taken := List.getElem_cons_eraseIdx_perm bound
  refine ⟨staged.sems, fun j => ?_, fun j => ?_, staged.completed, staged.main, staged.safe⟩
  · have fewer := taken.count_eq j
    have before := staged.signals j
    simp only [List.count_cons, beq_iff_eq] at fewer
    simp only [List.count_append, List.count_singleton, beq_iff_eq, IoJob.release.injEq]
    omega
  · rw [List.countP_append]
    exact staged.handlers j

/-- The first function of the queue releases the semaphore that its task waits on. -/
theorem Staged.releases {exec : Executor} {n i : Nat} {s : LongRunning} {rest : List IoJob}
    {stages : Population Stage} (staged : s.Staged exec n stages) (here : s.main = .running)
    (queue : s.ioc = .release i :: rest) :
    stages[i]? = some .waiting ∧ { s with ioc := rest }.use i (·.release) = { s with
      sems := s.sems.set i (some (Stage.waiter exec i).release.1)
      ioc := rest ++ [.handler ⟨exec, handler i, .success⟩] } := by
  have fits := staged.main
  rw [here] at fits
  have positive : 0 < s.workers.count i + s.ioc.count (.release i) := by
    rw [queue, List.count_cons_self]
    omega
  have found := (staged.signalled positive).resolve_left (fits.2 i)
  have called := use_found (s := { s with ioc := rest }) (staged.sem found) (·.release)
  rw [(release_waiter exec i).1] at called
  exact ⟨found, called⟩

theorem release_staged {exec : Executor} {n i : Nat} {s : LongRunning} {rest : List IoJob}
    {stages : Population Stage} (staged : s.Staged exec n stages) (here : s.main = .running)
    (queue : s.ioc = .release i :: rest) :
    ∃ after, ({ s with ioc := rest }.use i (·.release)).Staged exec n after := by
  have fits := staged.main
  rw [here] at fits
  obtain ⟨length, none⟩ := fits
  obtain ⟨found, called⟩ := staged.releases here queue
  have moves : Population.Moves i .waiting .released stages (stages.set i .released) := ⟨found, rfl⟩
  rw [called]
  refine ⟨stages.set i .released, ?_, fun j => ?_, fun j => ?_, fun j => ?_, ?_, staged.safe⟩
  · rw [moves.moved, List.mapIdx_set, ← staged.sems]
    rfl
  · have changed := moves.weightAt Stage.signals j
    have before := staged.signals j
    simp only [queue, List.count_cons, beq_iff_eq, IoJob.release.injEq] at before
    simp only [Stage.signals, ite_self, Nat.add_zero] at changed
    change s.workers.count j + (rest ++ [IoJob.handler _]).count (.release j) = _
    simp only [List.count_append, List.count_singleton, beq_iff_eq, reduceCtorEq, ↓reduceIte]
    omega
  · have changed := moves.weightAt Stage.handlers j
    have before := staged.handlers j
    simp only [queue, List.countP_cons, IoJob.handles, Bool.false_eq_true, ↓reduceIte] at before
    simp only [Stage.handlers, ite_self, Nat.add_zero] at changed
    simp only [List.countP_append, List.countP_singleton, IoJob.handles, handler, beq_iff_eq]
    omega
  · have changed := moves.weightAt Stage.completions j
    simp only [Stage.completions, ite_self, Nat.add_zero] at changed
    rw [changed]
    exact staged.completed j
  · change Fits n _ s.main
    rw [here]
    refine ⟨moves.length.trans length, fun j created => ?_⟩
    rw [moves.state] at created
    split at created
    · cases created
    · exact none j created

/-- The handler of a task is called once, and takes the semaphore with it. -/
theorem Staged.finishes {exec : Executor} {n : Nat} {s : LongRunning} {posted : Posted}
    {rest : List IoJob} {stages : Population Stage} (staged : s.Staged exec n stages)
    (queue : s.ioc = .handler posted :: rest) :
    stages[posted.handler.id]? = some .released ∧
      { s with ioc := rest }.finish posted.handler.id = { s with
        ioc := rest
        sems := s.sems.set posted.handler.id none
        completed := s.completed ++ [posted.handler.id] } := by
  have positive : 0 < s.ioc.countP (IoJob.handles posted.handler.id) := by
    rw [queue, List.countP_cons_of_pos (by simp [IoJob.handles])]
    omega
  have found := staged.handled positive
  have sem : ({ s with ioc := rest } : LongRunning).sems[posted.handler.id]? =
    some (some (Stage.waiter exec posted.handler.id).release.1) := staged.sem found
  refine ⟨found, ?_⟩
  simp only [finish, sem, destroy_released, List.map_nil, List.append_nil]

theorem finish_staged {exec : Executor} {n : Nat} {s : LongRunning} {posted : Posted}
    {rest : List IoJob} {stages : Population Stage} (staged : s.Staged exec n stages)
    (here : s.main = .running) (queue : s.ioc = .handler posted :: rest) :
    ∃ after, ({ s with ioc := rest }.finish posted.handler.id).Staged exec n after := by
  have fits := staged.main
  rw [here] at fits
  obtain ⟨length, none⟩ := fits
  obtain ⟨found, finished⟩ := staged.finishes queue
  rw [finished]
  generalize own : posted.handler.id = i at found
  have moves : Population.Moves i .released .ended stages (stages.set i .ended) := ⟨found, rfl⟩
  refine ⟨stages.set i .ended, ?_, fun j => ?_, fun j => ?_, fun j => ?_, ?_, staged.safe⟩
  · rw [moves.moved, List.mapIdx_set, ← staged.sems]
    rfl
  · have changed := moves.weightAt Stage.signals j
    have before := staged.signals j
    simp only [queue, List.count_cons, beq_iff_eq, reduceCtorEq, ↓reduceIte] at before
    simp only [Stage.signals, ite_self, Nat.add_zero] at changed
    rw [changed]
    exact before
  · have changed := moves.weightAt Stage.handlers j
    have before := staged.handlers j
    simp only [queue, List.countP_cons, IoJob.handles, own, beq_iff_eq] at before
    simp only [Stage.handlers, ite_self, Nat.add_zero] at changed
    change rest.countP _ = _
    omega
  · have changed := moves.weightAt Stage.completions j
    have before := staged.completed j
    simp only [Stage.completions, ite_self, Nat.add_zero] at changed
    change (s.completed ++ [i]).count j = _
    simp only [List.count_append, List.count_singleton, beq_iff_eq]
    omega
  · change Fits n _ s.main
    rw [here]
    refine ⟨moves.length.trans length, fun j created => ?_⟩
    rw [moves.state] at created
    split at created
    · cases created
    · exact none j created

/-- `ioc.run()` returns only when every task has ended: a work guard keeps it while somebody
waits, and the queue while a handler is posted. -/
theorem return_staged {exec : Executor} {n : Nat} {s : LongRunning} {stages : Population Stage}
    (staged : s.Staged exec n stages) (here : s.main = .running) (queue : s.ioc = [])
    (idle : s.sems.any waits = false) :
    ({ s with main := .joining } : LongRunning).Staged exec n stages := by
  have fits := staged.main
  rw [here] at fits
  obtain ⟨length, none⟩ := fits
  refine ⟨staged.sems, staged.signals, staged.handlers, staged.completed, ⟨length, ?_⟩,
    staged.safe⟩
  intro stage member
  obtain ⟨i, bound, same⟩ := List.mem_iff_getElem.mp member
  have found : stages[i]? = some stage := List.getElem?_eq_some_iff.mpr ⟨bound, same⟩
  cases stage with
  | created => exact absurd found (none i)
  | waiting =>
    have busy := List.any_eq_false.mp idle _ (List.mem_of_getElem? (staged.sem found))
    simp [waits, Stage.semaphore, waiter_waiters] at busy
  | released =>
    have posted := staged.handlers i
    rw [queue, Population.weightAt_found found] at posted
    cases posted
  | ended => rfl

/-- Every thread keeps every task at one stage. -/
theorem step_staged {exec : Executor} {n : Nat} (s : LongRunning) (event : Event)
    (next : LongRunning) (orderly : ∃ stages, s.Staged exec n stages)
    (stepped : (machine exec n).step s event = some next) :
    ∃ stages, next.Staged exec n stages := by
  obtain ⟨stages, staged⟩ := orderly
  cases event with
  | main =>
    cases here : s.main with
    | creating i =>
      simp only [machine, step, here] at stepped
      obtain rfl := Option.some.inj stepped
      exact ⟨_, create_staged staged here⟩
    | acquiring i =>
      simp only [machine, step, here] at stepped
      obtain rfl := Option.some.inj stepped
      exact acquire_staged staged here
    | running =>
      simp only [machine, step, here] at stepped
      obtain ⟨⟨queue, idle⟩, moved⟩ := Option.ite_none_right_eq_some.mp stepped
      obtain rfl := Option.some.inj moved
      exact ⟨stages, return_staged staged here queue idle⟩
    | joining =>
      simp only [machine, step, here] at stepped
      obtain ⟨-, moved⟩ := Option.ite_none_right_eq_some.mp stepped
      obtain rfl := Option.some.inj moved
      have fits := staged.main
      rw [here] at fits
      exact ⟨stages, staged.sems, staged.signals, staged.handlers, staged.completed, fits,
        staged.safe⟩
    | stopped => simp [machine, step, here] at stepped
  | run =>
    cases here : s.main with
    | running =>
      cases queue : s.ioc with
      | nil => simp [machine, step, here, queue] at stepped
      | cons job rest =>
        cases job with
        | release i =>
          simp only [machine, step, here, queue] at stepped
          obtain rfl := Option.some.inj stepped
          have called := release_staged staged here queue
          rwa [here] at called
        | handler posted =>
          simp only [machine, step, here, queue] at stepped
          obtain rfl := Option.some.inj stepped
          have called := finish_staged staged here queue
          rwa [here] at called
    | creating | acquiring | joining | stopped => simp [machine, step, here] at stepped
  | work k =>
    cases working : s.workers[k]? with
    | none => simp [machine, step, working] at stepped
    | some i =>
      simp only [machine, step, working] at stepped
      obtain rfl := Option.some.inj stepped
      exact ⟨stages, complete_staged staged working⟩

/-- Whether a posted function is a release. -/
def IoJob.releases : IoJob → Bool
  | .release _ => true
  | .handler _ => false

/-- How many steps `main` has before it at most, with those of the tasks it will initiate. -/
def pending (n : Nat) : MainPoint → Nat
  | .creating i => 5 * (n - i) + 2
  | .acquiring i => 5 * (n - (i + 1)) + 3
  | .running => 2
  | .joining => 1
  | .stopped => 0

/-- How many steps the program has before it at most: a worker's, the release and the handler
of each task that was initiated. -/
def remaining (n : Nat) (s : LongRunning) : Nat :=
  pending n s.main + 3 * s.workers.length + s.ioc.length + s.ioc.countP IoJob.releases

theorem pending_next (n i : Nat) : pending n (MainPoint.next n i) = 5 * (n - i) + 2 := by
  unfold MainPoint.next
  split
  · rfl
  · simp only [pending]
    omega

/-- Every step of a thread brings the program closer to its end. -/
theorem step_remaining {exec : Executor} {n : Nat} (s : LongRunning) (event : Event)
    (next : LongRunning) (orderly : ∃ stages, s.Staged exec n stages)
    (stepped : (machine exec n).step s event = some next) : remaining n next < remaining n s := by
  obtain ⟨stages, staged⟩ := orderly
  have fits := staged.main
  cases event with
  | main =>
    cases here : s.main with
    | creating i =>
      simp only [machine, step, here] at stepped
      obtain rfl := Option.some.inj stepped
      rw [here] at fits
      have below := fits.2.1
      simp only [remaining, create, here, pending, List.length_append, List.length_singleton]
      omega
    | acquiring i =>
      simp only [machine, step, here] at stepped
      obtain rfl := Option.some.inj stepped
      rw [here] at fits
      rw [staged.acquires fits.2.2.1]
      have now : pending n (.acquiring i) = 5 * (n - (i + 1)) + 3 := rfl
      simp only [remaining, here, pending_next, now]
      omega
    | running =>
      simp only [machine, step, here] at stepped
      obtain ⟨-, moved⟩ := Option.ite_none_right_eq_some.mp stepped
      obtain rfl := Option.some.inj moved
      simp only [remaining, here, pending]
      omega
    | joining =>
      simp only [machine, step, here] at stepped
      obtain ⟨-, moved⟩ := Option.ite_none_right_eq_some.mp stepped
      obtain rfl := Option.some.inj moved
      simp only [remaining, here, pending]
      omega
    | stopped => simp [machine, step, here] at stepped
  | run =>
    cases here : s.main with
    | running =>
      cases queue : s.ioc with
      | nil => simp [machine, step, here, queue] at stepped
      | cons job rest =>
        cases job with
        | release i =>
          simp only [machine, step, here, queue] at stepped
          obtain rfl := Option.some.inj stepped
          have called := (staged.releases here queue).2
          rw [here] at called
          rw [called]
          simp only [remaining, here, queue, List.length_append, List.length_cons,
            List.length_nil, List.countP_append, List.countP_cons, List.countP_nil,
            IoJob.releases, Bool.false_eq_true, ↓reduceIte]
          omega
        | handler posted =>
          simp only [machine, step, here, queue] at stepped
          obtain rfl := Option.some.inj stepped
          have called := (staged.finishes queue).2
          rw [here] at called
          rw [called]
          simp only [remaining, here, queue, List.length_cons, List.countP_cons, IoJob.releases,
            Bool.false_eq_true, ↓reduceIte]
          omega
    | creating | acquiring | joining | stopped => simp [machine, step, here] at stepped
  | work k =>
    cases working : s.workers[k]? with
    | none => simp [machine, step, working] at stepped
    | some i =>
      simp only [machine, step, working] at stepped
      obtain rfl := Option.some.inj stepped
      rw [staged.completes working]
      have bound := (List.getElem?_eq_some_iff.mp working).1
      simp only [remaining, List.length_eraseIdx_of_lt bound, List.length_append,
        List.length_singleton, List.countP_append, List.countP_singleton, IoJob.releases, ↓reduceIte]
      omega

/-- Nothing is left of the tasks when `main` has left `ioc.run()`. -/
theorem Staged.done {exec : Executor} {n : Nat} {s : LongRunning} {stages : Population Stage}
    (staged : s.Staged exec n stages) (length : stages.length = n)
    (ended : ∀ stage ∈ stages, stage = .ended) :
    s.completed.Perm (List.range n) ∧ s.workers = [] ∧ s.ioc = [] ∧ ∀ sem ∈ s.sems, sem = none := by
  have nothing (weight : Stage → Nat) (zero : weight .ended = 0) (i : Nat) :
      Population.weightAt weight stages i = 0 := by
    by_contra busy
    obtain ⟨stage, found, positive⟩ := Population.found_of_weightAt (Nat.pos_of_ne_zero busy)
    rw [ended stage (List.mem_of_getElem? found), zero] at positive
    cases positive
  have signals (i : Nat) := (staged.signals i).trans (nothing Stage.signals rfl i)
  have handlers (i : Nat) := (staged.handlers i).trans (nothing Stage.handlers rfl i)
  refine ⟨?_, ?_, ?_, ?_⟩
  · refine List.perm_iff_count.mpr (fun i => ?_)
    rw [staged.completed]
    by_cases below : i < n
    · obtain ⟨stage, found⟩ : ∃ stage, stages[i]? = some stage :=
        ⟨_, List.getElem?_eq_getElem (length ▸ below)⟩
      rw [Population.weightAt_found found, ended stage (List.mem_of_getElem? found),
        List.count_eq_one_of_mem List.nodup_range (List.mem_range.mpr below)]
      rfl
    · rw [List.count_eq_zero_of_not_mem (by simpa using below), Population.weightAt,
        List.getElem?_eq_none (by omega)]
      rfl
  · refine List.eq_nil_iff_forall_not_mem.mpr (fun i member => ?_)
    have positive := List.count_pos_iff.mpr member
    have none := signals i
    omega
  · refine List.eq_nil_iff_forall_not_mem.mpr (fun job member => ?_)
    cases job with
    | release i =>
      have positive := List.count_pos_iff.mpr member
      have none := signals i
      omega
    | handler posted =>
      have positive : 0 < s.ioc.countP (IoJob.handles posted.handler.id) :=
        List.countP_pos_iff.mpr ⟨_, member, by simp [IoJob.handles]⟩
      have none := handlers posted.handler.id
      omega
  · intro sem member
    rw [staged.sems] at member
    obtain ⟨i, bound, rfl⟩ := List.mem_mapIdx.mp member
    rw [ended _ (List.getElem_mem bound)]
    rfl

/-- As long as `main` has not stopped, some thread can go on. -/
theorem Staged.able {exec : Executor} {n : Nat} {s : LongRunning} {stages : Population Stage}
    (staged : s.Staged exec n stages)
    (stuck : ∀ event, (machine exec n).step s event = none) : s.main = .stopped := by
  have fits := staged.main
  cases here : s.main with
  | creating i => simpa [machine, step, here] using stuck .main
  | acquiring i => simpa [machine, step, here] using stuck .main
  | running =>
    have blocked := stuck .main
    simp only [machine, step, here] at blocked
    cases queue : s.ioc with
    | cons job rest => cases job <;> simpa [machine, step, here, queue] using stuck .run
    | nil =>
      have waiting : s.sems.any waits = true := by
        cases idle : s.sems.any waits with
        | true => rfl
        | false => simp [queue, idle] at blocked
      obtain ⟨sem, member, busy⟩ := List.any_eq_true.mp waiting
      rw [staged.sems] at member
      obtain ⟨i, bound, rfl⟩ := List.mem_mapIdx.mp member
      have found : stages[i]? = some stages[i] := List.getElem?_eq_getElem bound
      rw [here] at fits
      have signalled : Stage.signals stages[i] = 1 := by
        cases stage : stages[i] with
        | created => exact absurd (stage ▸ found) (fits.2 i)
        | waiting => rfl
        | released => simp [stage, Stage.semaphore, waits, release_waiter] at busy
        | ended => simp [stage, Stage.semaphore, waits] at busy
      have working := staged.signals i
      rw [Population.weightAt_found found, signalled, queue, List.count_nil] at working
      obtain ⟨k, bound, same⟩ := List.mem_iff_getElem.mp
        (List.count_pos_iff.mp (show 0 < s.workers.count i by omega))
      simpa [machine, step, List.getElem?_eq_some_iff.mpr ⟨bound, same⟩] using stuck (.work k)
  | joining =>
    rw [here] at fits
    have none := (staged.done fits.1 fits.2).2.1
    simpa [machine, step, here, none] using stuck .main
  | stopped => rfl

/-- However the threads interleave: no semaphore is used that does not exist, no handler is
called twice, and the program has at most so many steps. It cannot stop anywhere but at its
end, and `ioc.run()` has returned only when the handler of every task has been called, every
semaphore is destroyed, and nothing is posted any more. -/
theorem every_task_completes (exec : Executor) (n : Nat) (events : List Event) (s : LongRunning)
    (ran : (machine exec n).run (start n) events = some s) :
    s.dangling = false ∧ s.completed.Nodup ∧ events.length ≤ 5 * n + 2 ∧
      ((∀ event, (machine exec n).step s event = none) ↔ s.main = .stopped) ∧
      (s.main = .joining ∨ s.main = .stopped →
        s.completed.Perm (List.range n) ∧ s.workers = [] ∧ s.ioc = [] ∧
          ∀ sem ∈ s.sems, sem = none) := by
  have initial : ∃ stages, (start n).Staged exec n stages := ⟨[], start_staged exec n⟩
  obtain ⟨stages, staged⟩ := (machine exec n).run_invariant step_staged initial ran
  have fits := staged.main
  have done (left : s.main = .joining ∨ s.main = .stopped) :
      s.completed.Perm (List.range n) ∧ s.workers = [] ∧ s.ioc = [] ∧
        ∀ sem ∈ s.sems, sem = none := by
    rcases left with here | here
    · rw [here] at fits
      exact staged.done fits.1 fits.2
    · rw [here] at fits
      exact staged.done fits.1 fits.2
  refine ⟨staged.safe, List.nodup_iff_count_le_one.mpr (fun i => ?_), ?_,
    ⟨staged.able, fun here event => ?_⟩, done⟩
  · rw [staged.completed]
    unfold Population.weightAt
    cases stages[i]? with
    | none => decide
    | some stage => cases stage <;> decide
  · have bound := (machine exec n).run_descents_le step_staged (remaining n) (fun _ => false) 0
      (fun state event next orderly stepped _ => step_remaining state event next orderly stepped)
      (fun _ _ _ _ _ never => by cases never) initial ran
    have first : remaining n (start n) = 5 * n + 2 := by
      simp [remaining, start, pending_next]
    simp only [Bool.not_false, List.countP_true, first, Nat.zero_mul, Nat.add_zero] at bound
    omega
  · have none := (done (.inr here)).2.1
    cases event with
    | main => simp [machine, step, here]
    | run => simp [machine, step, here]
    | work k => simp [machine, step, none]

/-- A worker is done with the first task before `main` has initiated the second one. -/
def early : List Event :=
  [.main, .work 0, .main, .main, .main, .run, .work 0, .run, .run, .run, .main, .main]

theorem every_task_completes_early :
    ∃ s, (machine 0 2).run (start 2) early = some s ∧ s.main = .stopped ∧
      s.completed.Perm [0, 1] := by
  refine ⟨_, rfl, rfl, ?_⟩
  exact ((every_task_completes 0 2 early _ rfl).2.2.2.2 (.inr rfl)).1

end LongRunning

end Asioex
