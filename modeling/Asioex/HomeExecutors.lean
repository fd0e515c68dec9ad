import Asioex.Reentrancy

/-!
# Where completion handlers run

A handler belongs to its associated executor, or to the default executor of the object
it was passed to. `post` runs a function on the executor associated with the function,
or on the one it was given. A resumption is the handler itself with the code appended,
and has the handler's association, and leads there. The lambda of the path that did not
suspend has none, and is posted to the executor that is found associated with the
operation. That is the handler's, unless the operation had been moved into the lambda by
then: the language leaves open which argument of that `post` is evaluated first.

The lambda that `async_guard` passes to `async_lock` has no association either, and
nothing is posted for the handler it stands for: it completes on the executor of the
mutex.
-/

namespace Asioex

namespace Semaphore

/-- The operations that a semaphore knows of: those in the ring, and those that a
cancellation slot is assigned to. -/
structure Knows (s : Semaphore) (home : WaitOp → Prop) : Prop where
  waiters : ∀ op ∈ s.waiters, home op
  slots : ∀ slot op, s.slots slot = some op → home op

/-- A semaphore operation that knows only such operations after it as before, and has
posted only for such. -/
structure Retains (home : WaitOp → Prop) (s next : Semaphore) (posted : List Posted) : Prop where
  knows : next.Knows home
  posted : ∀ item ∈ posted, ∃ op, home op ∧ item.executor = op.executor ∧ item.handler = op.handler
  exec : next.exec = s.exec

section Retains

variable {s : Semaphore} {home : WaitOp → Prop} (knows : s.Knows home)
include knows

theorem complete_retains {op : WaitOp} (known : home op) (ec : ErrorCode) :
    Retains home s (s.complete op ec).1 [(s.complete op ec).2] where
  knows := by
    constructor
    · intro waiter member
      rw [complete_waiters] at member
      exact knows.waiters waiter (List.mem_of_mem_erase member)
    · intro slot waiter assigned
      rw [complete_slots] at assigned
      exact knows.slots slot waiter (clearSlot_slots s op.handler.slot slot waiter assigned).1
  posted := by
    intro item member
    rw [List.mem_singleton.mp member, complete_posted]
    exact ⟨op, known, rfl, rfl⟩
  exec := s.complete_exec op ec

theorem asyncAcquire_retains (handler : Handler)
    (known : home ⟨handler.associatedExecutor s.exec, handler⟩) :
    Retains home s (s.asyncAcquire handler).1 (s.asyncAcquire handler).2 where
  knows := by
    constructor
    · intro op member
      rcases s.asyncAcquire_waiters handler op member with old | rfl
      · exact knows.waiters op old
      · exact known
    · intro slot op assigned
      by_cases granted : s.count ≠ 0
      · simp only [asyncAcquire, granted, ne_eq, not_false_eq_true, ↓reduceIte] at assigned
        exact knows.slots slot op assigned
      · simp only [asyncAcquire, granted, ↓reduceIte, addWaiter] at assigned
        cases mine : handler.slot with
        | none =>
          simp only [construct, mine] at assigned
          exact knows.slots slot op assigned
        | some own =>
          simp only [construct, mine] at assigned
          by_cases same : slot = own
          · rw [same, Function.update_self] at assigned
            rw [← Option.some.inj assigned]
            exact known
          · rw [Function.update_of_ne same] at assigned
            exact knows.slots slot op assigned
  posted := by
    intro item member
    rw [s.asyncAcquire_posted handler item member]
    exact ⟨_, known, rfl, rfl⟩
  exec := by
    by_cases granted : s.count ≠ 0
    · simp [asyncAcquire, granted, decrement]
    · simp [asyncAcquire, granted]

theorem release_retains : Retains home s s.release.1 s.release.2 := by
  have increased : s.increment.Knows home := ⟨knows.waiters, knows.slots⟩
  cases line : s.waiters with
  | nil =>
    have same : s.release = (s.increment, []) := by simp [release, line]
    rw [same]
    exact ⟨increased, fun item member => absurd member List.not_mem_nil, rfl⟩
  | cons op rest =>
    have same : s.release = ((s.increment.decrement.complete op .success).1,
        [(s.increment.decrement.complete op .success).2]) := by simp [release, line]
    have known : home op := knows.waiters op (line ▸ List.mem_cons_self)
    have kept : s.increment.decrement.Knows home := ⟨knows.waiters, knows.slots⟩
    obtain ⟨after, posted, exec⟩ := complete_retains kept known .success
    rw [same]
    exact ⟨after, posted, exec⟩

theorem drained_retains (ec : ErrorCode) :
    Retains home s (drained ec s).2.1 (drained ec s).2.2 := by
  have drains := drained_exact ec s
  refine ⟨⟨by simp [drains.waiters], ?_⟩, ?_, drains.exec⟩
  · intro slot op assigned
    exact knows.slots slot op (drains.slots slot op assigned).1
  · intro item member
    rw [drains.posted] at member
    obtain ⟨op, inside, rfl⟩ := List.mem_map.mp member
    exact ⟨op, knows.waiters op inside, rfl, rfl⟩

theorem emit_retains (slot : Slot) (type : CancellationType) :
    Retains home s (s.emit slot type).1 (s.emit slot type).2 := by
  have idle : Retains home s s [] :=
    ⟨knows, fun item member => absurd member List.not_mem_nil, rfl⟩
  cases assigned : s.slots slot with
  | none =>
    have same : s.emit slot type = (s, []) := by simp [emit, assigned]
    rw [same]
    exact idle
  | some op =>
    by_cases heard : type.meets (.terminal ||| .partially ||| .total) = true
    · have same : s.emit slot type = ((s.complete op .operationAborted).1,
          [(s.complete op .operationAborted).2]) := by
        simp [emit, assigned, cancellationHandler, heard]
      rw [same]
      exact complete_retains knows (knows.slots slot op assigned) .operationAborted
    · have same : s.emit slot type = (s, []) := by
        simp [emit, assigned, cancellationHandler, heard]
      rw [same]
      exact idle

end Retains

end Semaphore

namespace ComposedWait

variable {γ : Type}

/-- The executor of an operation's handler: the associated one, or the object's. -/
def home (s : ComposedWait γ) (p : Nat) : Executor :=
  (s.ops p).self.associatedExecutor s.semaphore.exec

/-- Where a function was posted to: a resumption to its handler's executor, and the
completion of the path that did not suspend to the one that its `post` found. -/
def destination (s : ComposedWait γ) (job : Job) : Executor :=
  match job.call with
  | .resume _ => s.home job.op
  | .finish => s.postedTo job.op

/-- A wait operation of an initiated operation, with its handler and its executor. -/
structure AtHome (s : ComposedWait γ) (op : WaitOp) : Prop where
  bound : op.handler.id < s.started
  handler : op.handler = (s.ops op.handler.id).self
  executor : op.executor = s.home op.handler.id

/-- Every operation has its number, everything posted for it is headed where it should
be, and what waits for it for its executor. -/
structure Homed (s : ComposedWait γ) : Prop where
  self : ∀ p < s.started, (s.ops p).self.id = p
  jobs : ∀ job ∈ s.queue, job.op < s.started ∧ job.executor = s.destination job
  knows : s.semaphore.Knows s.AtHome

theorem create_homed (gate : γ) (exec : Executor) (order : Nat → PostOrder) (initialCount : Int) :
    (create gate (.create exec initialCount) order).Homed where
  self := by simp [create]
  jobs := by simp [create]
  knows := ⟨by simp [create, Semaphore.create], by simp [create, Semaphore.create]⟩

/-- The flag of the lambda is no part of its handler. -/
theorem self_suspend (s : ComposedWait γ) (p q : Nat) :
    ((s.suspend p).ops q).self = (s.ops q).self := by
  by_cases equal : q = p
  · subst equal
    simp [suspend]
  · simp [suspend, Function.update_of_ne equal]

/-- A wait operation stays at home while its operation and the default executor stay. -/
theorem AtHome.stays {s next : ComposedWait γ} {op : WaitOp} (atHome : s.AtHome op)
    (selves : ∀ p < s.started, (next.ops p).self = (s.ops p).self)
    (started : s.started ≤ next.started) (exec : next.semaphore.exec = s.semaphore.exec) :
    next.AtHome op where
  bound := Nat.lt_of_lt_of_le atHome.bound started
  handler := by rw [selves _ atHome.bound, ← atHome.handler]
  executor := by
    rw [atHome.executor]
    simp only [home, selves _ atHome.bound, exec]

namespace Homed

variable {s : ComposedWait γ} (homed : s.Homed)
include homed

/-- What changes neither the operations nor their number, and posts and links only for
operations at home. -/
theorem stays {next : ComposedWait γ} (selves : ∀ p, (next.ops p).self = (s.ops p).self)
    (started : next.started = s.started) (exec : next.semaphore.exec = s.semaphore.exec)
    (order : next.order = s.order)
    (jobs : ∀ job ∈ next.queue,
      job ∈ s.queue ∨ job.op < s.started ∧ job.executor = s.destination job)
    (knows : next.semaphore.Knows s.AtHome) : next.Homed where
  self p bound := by
    rw [selves p]
    exact homed.self p (started ▸ bound)
  jobs job member := by
    have before : job.op < s.started ∧ job.executor = s.destination job := by
      rcases jobs job member with old | new
      · exact homed.jobs job old
      · exact new
    have same : next.destination job = s.destination job := by
      simp only [destination, home, postedTo, selves, exec, order]
    rw [started, same]
    exact before
  knows := by
    have kept (op : WaitOp) (atHome : s.AtHome op) : next.AtHome op :=
      atHome.stays (fun p _ => selves p) (Nat.le_of_eq started.symm) exec
    exact ⟨fun op member => kept op (knows.waiters op member),
      fun slot op assigned => kept op (knows.slots slot op assigned)⟩

theorem invoke (p : Nat) (ec : ErrorCode) : (s.invoke p ec).Homed :=
  homed.stays (fun _ => rfl) rfl rfl rfl (fun _ old => .inl old) homed.knows

theorem pass (p : Nat) (gate : γ) : (s.pass p gate).Homed :=
  homed.stays (fun _ => rfl) rfl rfl rfl (fun _ old => .inl old) homed.knows

theorem setGate (gate : γ) : (s.setGate gate).Homed :=
  homed.stays (fun _ => rfl) rfl rfl rfl (fun _ old => .inl old) homed.knows

theorem dequeue (k : Nat) : (s.dequeue k).Homed :=
  homed.stays (fun _ => rfl) rfl rfl rfl (fun _ old => .inl (List.mem_of_mem_eraseIdx old))
    homed.knows

theorem suspend (p : Nat) : (s.suspend p).Homed :=
  homed.stays (s.self_suspend p) rfl rfl rfl (fun _ old => .inl old) homed.knows

/-- The completion is posted to the executor that is found. -/
theorem postFinish {p : Nat} (bound : p < s.started) : (s.postFinish p).Homed := by
  refine homed.stays (fun _ => rfl) rfl rfl rfl (fun job member => ?_) homed.knows
  rcases List.mem_append.mp member with old | new
  · exact .inl old
  · rw [List.mem_singleton.mp new]
    exact .inr ⟨bound, rfl⟩

/-- What a semaphore operation posts goes where the wait operation was at home. -/
theorem enqueue {result : Semaphore × List Posted}
    (retains : Semaphore.Retains s.AtHome s.semaphore result.1 result.2) :
    (s.enqueue result).Homed := by
  refine homed.stays (fun _ => rfl) rfl retains.exec rfl (fun job member => ?_) retains.knows
  rcases List.mem_append.mp member with old | new
  · exact .inl old
  · obtain ⟨item, inside, rfl⟩ := List.mem_map.mp new
    obtain ⟨op, atHome, executor, handler⟩ := retains.posted item inside
    refine .inr ?_
    simp only [executor, handler]
    exact ⟨atHome.bound, atHome.executor⟩

/-- An operation that acquires waits, or is posted, with its own handler. -/
theorem acquire {p : Nat} (bound : p < s.started) : (s.acquire p).Homed := by
  have own : (s.ops p).self.id = p := homed.self p bound
  apply homed.enqueue
  apply Semaphore.asyncAcquire_retains homed.knows
  constructor
  · simpa only [own] using bound
  · simp only [own]
  · simp only [own, home]

/-- A posted function leaves everything at home. -/
theorem ran {job : Job} {next : ComposedWait γ} (bound : job.op < s.started) (ran : Ran s job next) :
    next.Homed := by
  cases ran with
  | finished call => exact homed.invoke job.op .success
  | ended ec call ends => exact homed.invoke job.op ec
  | passed attempt gate call tested opened suspended =>
    exact (homed.pass job.op gate).invoke job.op .success
  | deferred attempt gate call tested opened fresh =>
    exact (homed.pass job.op gate).postFinish bound
  | waits attempt call tested closed => exact (homed.suspend job.op).acquire bound

/-- A new operation changes nothing for the earlier ones. -/
theorem register (executor : Option Executor) (connected : Bool)
    (attempt : Option (γ → Option γ)) : (s.register executor connected attempt).Homed := by
  have selves (p : Nat) (bound : p < s.started) :
      ((s.register executor connected attempt).ops p).self = (s.ops p).self := by
    rw [ops_register_of_ne s executor connected attempt (Nat.ne_of_lt bound)]
  have kept (op : WaitOp) (atHome : s.AtHome op) :
      (s.register executor connected attempt).AtHome op :=
    atHome.stays selves (Nat.le_succ _) rfl
  constructor
  · intro p bound
    by_cases newest : p = s.started
    · subst newest
      simp [ComposedWait.register]
    · have earlier : p < s.started := by
        change p < s.started + 1 at bound
        omega
      rw [selves p earlier]
      exact homed.self p earlier
  · intro job member
    obtain ⟨bound, executed⟩ := homed.jobs job member
    refine ⟨Nat.lt_succ_of_lt bound, ?_⟩
    rw [executed]
    simp only [destination, home, postedTo, selves job.op bound]
    rfl
  · exact ⟨fun op member => kept op (homed.knows.waiters op member),
      fun slot op assigned => kept op (homed.knows.slots slot op assigned)⟩

theorem initiate (executor : Option Executor) (connected : Bool)
    (attempt : Option (γ → Option γ)) : (s.initiate executor connected attempt).Homed := by
  have registered := homed.register executor connected attempt
  have bound : s.started < (s.register executor connected attempt).started := Nat.lt_succ_self _
  cases attempt with
  | none => exact registered.acquire bound
  | some attempt =>
    have started : s.initiate executor connected (some attempt) =
        (s.register executor connected (some attempt)).body attempt s.started .success := rfl
    rw [started]
    rcases body_cases attempt (s.register executor connected (some attempt)) s.started .success with
      ⟨-, same⟩ | ⟨gate, -, -, same | same⟩ | ⟨-, -, same⟩
    · rw [same]
      exact registered.invoke _ _
    · rw [same]
      exact (registered.pass _ gate).invoke _ _
    · rw [same]
      exact (registered.pass _ gate).postFinish bound
    · rw [same]
      exact (registered.suspend _).acquire bound

theorem cancel (p : Nat) (type : CancellationType) : (s.cancel p type).Homed := by
  rcases s.cancel_emits p type with same | ⟨signalled, received, same⟩
  · rw [same]
    exact homed
  · rw [same]
    have noted : ({ s with signalled := signalled } : ComposedWait γ).Homed :=
      homed.stays (fun _ => rfl) rfl rfl rfl (fun _ old => .inl old) homed.knows
    exact noted.enqueue (Semaphore.emit_retains noted.knows p received)

theorem destroy : s.destroy.Homed :=
  homed.enqueue (Semaphore.drained_retains homed.knows .operationAborted)

end Homed

/-- Every move keeps everything at home. -/
theorem step_homed {s next : ComposedWait γ} {move : Move γ} (homed : s.Homed)
    (stepped : machine.step s move = some next) : next.Homed := by
  cases move with
  | initiate executor connected attempt =>
    obtain rfl := Option.some.inj stepped
    exact homed.initiate executor connected attempt
  | run k =>
    obtain ⟨job, queued, rfl⟩ := Option.map_eq_some_iff.mp stepped
    obtain ⟨bound, -⟩ := homed.jobs job (List.mem_of_getElem? queued)
    exact (homed.dequeue k).ran bound ((s.dequeue k).execute_ran job)
  | cancel p type =>
    obtain ⟨-, rfl⟩ := step_cancel.mp stepped
    exact homed.cancel p type
  | release =>
    obtain rfl := Option.some.inj stepped
    exact homed.enqueue (Semaphore.release_retains homed.knows)
  | releaseAll =>
    obtain rfl := Option.some.inj stepped
    exact homed.enqueue (Semaphore.drained_retains homed.knows .success)
  | setGate gate =>
    obtain rfl := Option.some.inj stepped
    exact homed.setGate gate

/-- Initiated operations stay, with their handlers. -/
structure Retained (s next : ComposedWait γ) : Prop where
  started : s.started ≤ next.started
  selves : ∀ p < s.started, (next.ops p).self = (s.ops p).self

theorem Retained.of_same {s next : ComposedWait γ} (started : next.started = s.started)
    (ops : next.ops = s.ops) : Retained s next :=
  ⟨Nat.le_of_eq started.symm, fun p _ => by rw [ops]⟩

theorem Ran.retained {s next : ComposedWait γ} {job : Job} (ran : Ran s job next) :
    Retained s next := by
  cases ran with
  | finished call => exact .of_same rfl rfl
  | ended ec call ends => exact .of_same rfl rfl
  | passed attempt gate call tested opened suspended => exact .of_same rfl rfl
  | deferred attempt gate call tested opened fresh => exact .of_same rfl rfl
  | waits attempt call tested closed =>
    exact ⟨Nat.le_refl _, fun p _ => s.self_suspend job.op p⟩

/-- The call of the lambda in the initiating function keeps what was registered. -/
theorem initiate_registered (s : ComposedWait γ) (executor : Option Executor) (connected : Bool)
    (attempt : Option (γ → Option γ)) :
    Retained (s.register executor connected attempt) (s.initiate executor connected attempt) := by
  cases attempt with
  | none => exact .of_same rfl rfl
  | some attempt =>
    have started : s.initiate executor connected (some attempt) =
        (s.register executor connected (some attempt)).body attempt s.started .success := rfl
    rw [started]
    rcases body_cases attempt (s.register executor connected (some attempt)) s.started .success with
      ⟨-, same⟩ | ⟨gate, -, -, same | same⟩ | ⟨-, -, same⟩
    · rw [same]
      exact .of_same rfl rfl
    · rw [same]
      exact .of_same rfl rfl
    · rw [same]
      exact .of_same rfl rfl
    · rw [same]
      exact ⟨Nat.le_refl _, fun p _ => self_suspend _ s.started p⟩

theorem initiate_retained (s : ComposedWait γ) (executor : Option Executor) (connected : Bool)
    (attempt : Option (γ → Option γ)) : Retained s (s.initiate executor connected attempt) := by
  obtain ⟨started, selves⟩ := s.initiate_registered executor connected attempt
  constructor
  · exact Nat.le_trans (Nat.le_succ s.started) started
  · intro p bound
    rw [selves p (Nat.lt_succ_of_lt bound),
      ops_register_of_ne s executor connected attempt (Nat.ne_of_lt bound)]

theorem step_retained {s next : ComposedWait γ} {move : Move γ}
    (stepped : machine.step s move = some next) : Retained s next := by
  cases move with
  | initiate executor connected attempt =>
    obtain rfl := Option.some.inj stepped
    exact s.initiate_retained executor connected attempt
  | run k =>
    obtain ⟨job, -, rfl⟩ := Option.map_eq_some_iff.mp stepped
    obtain ⟨started, selves⟩ := ((s.dequeue k).execute_ran job).retained
    exact ⟨started, selves⟩
  | cancel p type =>
    obtain ⟨-, rfl⟩ := step_cancel.mp stepped
    rcases s.cancel_emits p type with same | ⟨signalled, received, same⟩
    · rw [same]
      exact .of_same rfl rfl
    · rw [same]
      exact .of_same rfl rfl
  | release =>
    obtain rfl := Option.some.inj stepped
    exact .of_same rfl rfl
  | releaseAll =>
    obtain rfl := Option.some.inj stepped
    exact .of_same rfl rfl
  | setGate gate =>
    obtain rfl := Option.some.inj stepped
    exact .of_same rfl rfl

/-- A run keeps everything at home, and the handlers of the operations. -/
theorem run_homed {s last : ComposedWait γ} {moves : List (Move γ)} (homed : s.Homed)
    (ran : machine.run s moves = some last) : last.Homed ∧ Retained s last := by
  have keeps (before : ComposedWait γ) (move : Move γ) (after : ComposedWait γ)
      (earlier : before.Homed ∧ Retained s before) (stepped : machine.step before move = some after) :
      after.Homed ∧ Retained s after := by
    obtain ⟨homedBefore, retained⟩ := earlier
    have next := step_retained stepped
    refine ⟨step_homed homedBefore stepped, Nat.le_trans retained.started next.started, ?_⟩
    intro p bound
    exact (next.selves p (Nat.lt_of_lt_of_le bound retained.started)).trans (retained.selves p bound)
  exact machine.run_invariant keeps ⟨homed, Nat.le_refl _, fun _ _ => rfl⟩ ran

namespace Lifetime

theorem step_homed {s next : Lifetime γ} {action : Action γ} (homed : s.object.Homed)
    (stepped : machine.step s action = some next) : next.object.Homed := by
  cases action with
  | move move => exact ComposedWait.step_homed homed (step_move stepped)
  | tryAcquire =>
    have exec : s.object.semaphore.tryAcquire.2.exec = s.object.semaphore.exec ∧
        s.object.semaphore.tryAcquire.2.Knows s.object.AtHome := by
      unfold Semaphore.tryAcquire
      split
      · exact ⟨rfl, homed.knows.waiters, homed.knows.slots⟩
      · exact ⟨rfl, homed.knows⟩
    rw [step_tryAcquire stepped]
    exact homed.stays (fun _ => rfl) rfl exec.1 rfl (fun _ old => .inl old) exec.2
  | destroy =>
    rw [step_destroy stepped]
    exact homed.destroy

end Lifetime

end ComposedWait

namespace GuardRun

/-- The executor of the handler that an operation was given: the one associated with
the handler of an `async_guard`, or with that of a lock, or the mutex's own. -/
def home (s : GuardRun) (p : Nat) : Executor :=
  match s.guarding p with
  | some handler => handler.associatedExecutor s.locks.mutex.semaphore.exec
  | none => s.locks.mutex.home p

/-- The lambdas of the `async_guard` operations have no executor of their own. -/
structure Homed (s : GuardRun) : Prop where
  mutex : s.locks.mutex.Homed
  lambdas : ∀ p handler, s.guarding p = some handler →
    p < s.locks.mutex.started ∧ (s.locks.mutex.ops p).self.executor = none

theorem step_homed {s next : GuardRun} {event : Event} (homed : s.Homed)
    (stepped : machine.step s event = some next) : next.Homed := by
  cases event with
  | mutex event =>
    obtain ⟨locks, moved, rfl⟩ := step_mutex stepped
    obtain ⟨mutex, started, selves⟩ :=
      ComposedWait.run_homed homed.mutex (MutexRun.step_moves moved)
    refine ⟨mutex, fun p handler guarding => ?_⟩
    obtain ⟨bound, lambda⟩ := homed.lambdas p handler guarding
    exact ⟨Nat.lt_of_lt_of_le bound started, (congrArg Handler.executor (selves p bound)).trans lambda⟩
  | asyncGuard handler =>
    obtain rfl := step_asyncGuard stepped
    have registered := s.locks.mutex.initiate_registered none false (some Mutex.lockAttempt)
    have retained := s.locks.mutex.initiate_retained none false (some Mutex.lockAttempt)
    refine ⟨homed.mutex.initiate none false (some Mutex.lockAttempt), fun p other guarding => ?_⟩
    by_cases newest : p = s.locks.mutex.started
    · subst newest
      have bound := Nat.lt_succ_self s.locks.mutex.started
      refine ⟨Nat.lt_of_lt_of_le bound registered.started, ?_⟩
      refine (congrArg Handler.executor (registered.selves _ bound)).trans ?_
      simp [ComposedWait.register]
    · have before : s.guarding p = some other := by
        simpa [asyncGuard, Function.update_of_ne newest] using guarding
      obtain ⟨bound, lambda⟩ := homed.lambdas p other before
      exact ⟨Nat.lt_of_lt_of_le bound retained.started,
        (congrArg Handler.executor (retained.selves p bound)).trans lambda⟩
  | destroyGuard k =>
    obtain ⟨delivery, -, rfl⟩ := step_destroyGuard stepped
    cases owned : delivery.guard.mtx with
    | none =>
      simp only [destroyGuard, owned]
      exact ⟨homed.mutex, homed.lambdas⟩
    | some mtx =>
      simp only [destroyGuard, owned]
      have opened := homed.mutex.setGate false
      exact ⟨opened.enqueue (Semaphore.release_retains opened.knows), homed.lambdas⟩
  | destroy =>
    obtain rfl := step_destroy stepped
    exact ⟨homed.mutex.destroy, homed.lambdas⟩

end GuardRun

namespace GuardRun

end GuardRun

end Asioex
