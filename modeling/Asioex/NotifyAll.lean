import Asioex.HomeExecutors
import Asioex.PredicateWaits

/-!
# Every predicate again

`notify_all` posts a continuation for each operation in the ring and empties it. Each
continuation of a wait with a predicate tests the predicate, and completes or goes back
to the end of the ring, while those behind it are still queued. The ring is then rebuilt
in its order from the waits whose predicates are false.

A wait that goes back is not granted at once: while an operation waits the counter is
zero, `release_all` leaves it so, and a continuation that runs takes no token. Functions
that were queued before the notification run before its own; they may bring other waits
back into the ring, which then stand before those that return to it.
-/

namespace Asioex

namespace ComposedWait

variable {γ : Type}

/-- Whether an operation that is resumed without an error completes: it has no test, or
its test passes. -/
def ready (s : ComposedWait γ) (p : Nat) : Bool :=
  match (s.ops p).attempt with
  | none => true
  | some attempt => (attempt s.gate).isSome

/-- The continuation that is posted for a wait operation with success. -/
def continuation (op : WaitOp) : Job := ⟨op.executor, op.handler.id, .resume .success⟩

/-- A wait operation of an initiated operation, which has suspended if it has a test. -/
structure Waiting (s : ComposedWait γ) (op : WaitOp) : Prop where
  home : s.AtHome op
  suspended : (s.ops op.handler.id).attempt.isSome = true → (s.ops op.handler.id).didSuspend = true

/-- What stays as it is, or becomes true and stays so, while the executor runs. -/
structure Leaves (s next : ComposedWait γ) : Prop where
  retained : Retained s next
  attempts : ∀ p, (next.ops p).attempt = (s.ops p).attempt
  flags : ∀ p, (s.ops p).didSuspend = true → (next.ops p).didSuspend = true
  exec : next.semaphore.exec = s.semaphore.exec
  count : s.semaphore.count = 0 → next.semaphore.count = 0

theorem Leaves.of_same {s next : ComposedWait γ} (ops : next.ops = s.ops)
    (started : next.started = s.started) (semaphore : next.semaphore = s.semaphore) :
    Leaves s next where
  retained := .of_same started ops
  attempts p := by rw [ops]
  flags p suspended := by rw [ops]; exact suspended
  exec := by rw [semaphore]
  count zero := by rw [semaphore]; exact zero

theorem Leaves.trans {first second third : ComposedWait γ} (earlier : Leaves first second)
    (later : Leaves second third) : Leaves first third where
  retained := by
    refine ⟨Nat.le_trans earlier.retained.started later.retained.started, fun p bound => ?_⟩
    have still := later.retained.selves p (Nat.lt_of_lt_of_le bound earlier.retained.started)
    exact still.trans (earlier.retained.selves p bound)
  attempts p := (later.attempts p).trans (earlier.attempts p)
  flags p suspended := later.flags p (earlier.flags p suspended)
  exec := later.exec.trans earlier.exec
  count zero := later.count (earlier.count zero)

/-- What waits goes on waiting, as far as its operation is concerned. -/
theorem Waiting.stays {s next : ComposedWait γ} {op : WaitOp} (waiting : s.Waiting op)
    (leaves : Leaves s next) : next.Waiting op where
  home := waiting.home.stays leaves.retained.selves leaves.retained.started leaves.exec
  suspended tested := by
    rw [leaves.attempts] at tested
    exact leaves.flags _ (waiting.suspended tested)

/-- Acquiring leaves the executor, and takes no token where there is none. -/
theorem acquire_leaves (s : ComposedWait γ) (p : Nat) : Leaves s (s.acquire p) where
  retained := .of_same rfl rfl
  attempts _ := rfl
  flags _ suspended := suspended
  exec := by
    change (s.semaphore.asyncAcquire (s.ops p).self).1.exec = s.semaphore.exec
    by_cases granted : s.semaphore.count ≠ 0
    · simp [Semaphore.asyncAcquire, granted, Semaphore.decrement]
    · simp [Semaphore.asyncAcquire, granted]
  count zero := by
    change (s.semaphore.asyncAcquire (s.ops p).self).1.count = 0
    simp [Semaphore.asyncAcquire, zero]

theorem suspend_leaves (s : ComposedWait γ) (p : Nat) : Leaves s (s.suspend p) where
  retained := ⟨Nat.le_refl _, fun q _ => s.self_suspend p q⟩
  attempts := s.attempt_suspend p
  flags q suspended := by
    by_cases equal : q = p
    · subst equal
      simp [suspend]
    · simpa [suspend, Function.update_of_ne equal] using suspended
  exec := rfl
  count zero := zero

theorem Ran.leaves {s next : ComposedWait γ} {job : Job} (ran : Ran s job next) : Leaves s next := by
  cases ran with
  | finished call => exact .of_same rfl rfl rfl
  | ended ec call ends => exact .of_same rfl rfl rfl
  | passed attempt gate call tested opened suspended => exact .of_same rfl rfl rfl
  | deferred attempt gate call tested opened fresh => exact .of_same rfl rfl rfl
  | waits attempt call tested closed =>
    exact (s.suspend_leaves job.op).trans (acquire_leaves _ job.op)

/-- Every waiting operation that has a test has suspended. -/
def Suspended (s : ComposedWait γ) : Prop :=
  ∀ op ∈ s.semaphore.waiters, (s.ops op.handler.id).attempt.isSome = true →
    (s.ops op.handler.id).didSuspend = true

namespace Suspended

variable {s : ComposedWait γ} (suspended : s.Suspended)
include suspended

theorem stays {next : ComposedWait γ} (ops : next.ops = s.ops)
    (waiters : ∀ op ∈ next.semaphore.waiters, op ∈ s.semaphore.waiters) : next.Suspended := by
  intro op member
  rw [ops]
  exact suspended op (waiters op member)

theorem acquire {p : Nat} (own : (s.ops p).self.id = p)
    (flag : (s.ops p).attempt.isSome = true → (s.ops p).didSuspend = true) :
    (s.acquire p).Suspended := by
  intro op member
  rcases Semaphore.asyncAcquire_waiters s.semaphore _ op member with old | rfl
  · exact suspended op old
  · change (s.ops (s.ops p).self.id).attempt.isSome = true →
      (s.ops (s.ops p).self.id).didSuspend = true
    rw [own]
    exact flag

theorem suspend (p : Nat) : (s.suspend p).Suspended := by
  intro op member tested
  rw [attempt_suspend] at tested
  exact (s.suspend_leaves p).flags _ (suspended op member tested)

/-- An operation sets its flag before it waits. -/
theorem waits {p : Nat} (own : (s.ops p).self.id = p) : ((s.suspend p).acquire p).Suspended := by
  apply acquire (suspended.suspend p)
  · rw [self_suspend]
    exact own
  · intro _
    simp [ComposedWait.suspend]

theorem register (homed : s.Homed) (executor : Option Executor) (connected : Bool)
    (attempt : Option (γ → Option γ)) : (s.register executor connected attempt).Suspended := by
  intro op member
  have bound : op.handler.id < s.started := (homed.knows.waiters op member).bound
  rw [ops_register_of_ne s executor connected attempt (Nat.ne_of_lt bound)]
  exact suspended op member

theorem initiate (homed : s.Homed) (executor : Option Executor) (connected : Bool)
    (attempt : Option (γ → Option γ)) : (s.initiate executor connected attempt).Suspended := by
  have registered := suspended.register homed executor connected attempt
  have own : ((s.register executor connected attempt).ops s.started).self.id = s.started := by
    simp [ComposedWait.register]
  cases attempt with
  | none =>
    refine registered.acquire own ?_
    simp [ComposedWait.register]
  | some attempt =>
    change ((s.register executor connected (some attempt)).body attempt s.started .success).Suspended
    rcases body_cases attempt (s.register executor connected (some attempt)) s.started .success with
      ⟨error, -⟩ | ⟨gate, -, -, same | same⟩ | ⟨-, -, same⟩
    · simp at error
    · exact same.symm ▸ registered.stays rfl (fun _ old => old)
    · exact same.symm ▸ registered.stays rfl (fun _ old => old)
    · exact same.symm ▸ registered.waits own

theorem ran {job : Job} {next : ComposedWait γ} (own : (s.ops job.op).self.id = job.op)
    (ran : Ran s job next) : next.Suspended := by
  cases ran with
  | finished call => exact suspended.stays rfl (fun _ old => old)
  | ended ec call ends => exact suspended.stays rfl (fun _ old => old)
  | passed attempt gate call tested opened flag => exact suspended.stays rfl (fun _ old => old)
  | deferred attempt gate call tested opened fresh => exact suspended.stays rfl (fun _ old => old)
  | waits attempt call tested closed => exact suspended.waits own

end Suspended

/-- Every move keeps it so. -/
theorem step_suspended {s next : ComposedWait γ} {move : Move γ} (sound : s.Sound) (homed : s.Homed)
    (suspended : s.Suspended) (stepped : machine.step s move = some next) : next.Suspended := by
  obtain ⟨queue, represents⟩ := sound.consistent.represents
  cases move with
  | initiate executor connected attempt =>
    obtain rfl := Option.some.inj stepped
    exact suspended.initiate homed executor connected attempt
  | run k =>
    obtain ⟨job, queued, rfl⟩ := Option.map_eq_some_iff.mp stepped
    obtain ⟨bound, -⟩ := homed.jobs job (List.mem_of_getElem? queued)
    have left : (s.dequeue k).Suspended := suspended.stays rfl (fun _ old => old)
    exact left.ran (homed.self job.op bound) ((s.dequeue k).execute_ran job)
  | cancel p type =>
    obtain ⟨-, rfl⟩ := step_cancel.mp stepped
    rcases s.cancel_emits p type with same | ⟨signalled, received, same⟩
    · exact same.symm ▸ suspended
    · have completes := Semaphore.emit_completes represents.slots p received
      exact same.symm ▸ suspended.stays rfl (fun op member => completes.remaining.subset member)
  | release =>
    obtain rfl := Option.some.inj stepped
    have completes := s.semaphore.release_completes
    exact suspended.stays rfl (fun op member => completes.remaining.subset member)
  | releaseAll =>
    obtain rfl := Option.some.inj stepped
    have completes := s.semaphore.drained_completes .success
    exact suspended.stays rfl (fun op member => completes.remaining.subset member)
  | setGate gate =>
    obtain rfl := Option.some.inj stepped
    exact suspended.stays rfl (fun _ old => old)

end ComposedWait

namespace ConditionVariable

open ComposedWait (Ran)

variable {γ : Type}

/-- An operation without a test, or with a predicate for its test. -/
def Predicates (attempt : Option (γ → Option γ)) : Prop :=
  ∀ test, attempt = some test → ∃ predicate, test = waitAttempt predicate

/-- A plain wait is ready, and a wait with a predicate when the predicate is true. -/
theorem ready_eq {s : ConditionVariable γ} {p : Nat} :
    ((s.ops p).attempt = none → s.ready p = true) ∧
      ∀ predicate, (s.ops p).attempt = some (waitAttempt predicate) →
        s.ready p = predicate s.gate := by
  constructor
  · intro plain
    simp [ComposedWait.ready, plain]
  · intro predicate tested
    cases value : predicate s.gate <;> simp [ComposedWait.ready, tested, waitAttempt, value]

/-- The invariants of a condition variable. -/
structure Calm (s : ConditionVariable γ) : Prop where
  sound : s.Sound
  homed : s.Homed
  predicates : s.Uses Predicates
  suspended : s.Suspended

theorem create_calm (exec : Executor) (order : Nat → PostOrder) (state : γ) :
    (create exec state order).Calm where
  sound := create_sound exec order state
  homed := ComposedWait.create_homed state exec order 0
  predicates := by simp [create, ComposedWait.create, ComposedWait.Uses]
  suspended := by simp [create, ComposedWait.create, Semaphore.create, ComposedWait.Suspended]

theorem step_calm (s : ConditionVariable γ) (event : Event γ) (next : ConditionVariable γ)
    (calm : s.Calm) (stepped : machine.step s event = some next) : next.Calm := by
  have moved : ComposedWait.machine.step s event.move = some next := s.step_move event ▸ stepped
  refine ⟨step_sound s event next calm.sound stepped, ComposedWait.step_homed calm.homed moved, ?_,
    ComposedWait.step_suspended calm.sound calm.homed calm.suspended moved⟩
  apply ComposedWait.step_uses calm.predicates _ moved
  intro executor connected attempt initiated
  cases event with
  | asyncWait executor connected =>
    cases initiated
    intro test tested
    cases tested
  | asyncWaitFor predicate executor connected =>
    cases initiated
    intro test tested
    exact ⟨predicate, (Option.some.inj tested).symm⟩
  | notifyOne => cases initiated
  | notifyAll => cases initiated
  | cancel p type => cases initiated
  | run k => cases initiated
  | write state => cases initiated

/-- What waits in the ring is ready to be called back, and has a predicate if anything. -/
theorem Calm.waiting {s : ConditionVariable γ} (calm : s.Calm) {op : WaitOp}
    (member : op ∈ s.semaphore.waiters) :
    s.Waiting op ∧ Predicates (s.ops op.handler.id).attempt := by
  have home := calm.homed.knows.waiters op member
  exact ⟨⟨home, calm.suspended op member⟩, calm.predicates _ home.bound⟩

/-- What one continuation does while no token is free. -/
structure Resumed (s : ConditionVariable γ) (op : WaitOp) (next : ConditionVariable γ) : Prop where
  leaves : s.Leaves next
  gate : next.gate = s.gate
  queue : next.queue = s.queue
  invoked : next.invoked =
    s.invoked ++ if s.ready op.handler.id then [(op.handler.id, .success)] else []
  waiters : next.semaphore.waiters =
    s.semaphore.waiters ++ if s.ready op.handler.id then [] else [op]

/-- A continuation completes its wait or links it at the end of the ring.

Proof: by what the function does. It is not the completion of a wait that did not suspend,
since one that waited has; and the acquire finds no token. -/
theorem resume_waiting {s : ConditionVariable γ} {op : WaitOp} (waiting : s.Waiting op)
    (predicates : Predicates (s.ops op.handler.id).attempt) (empty : s.semaphore.count = 0) :
    Resumed s op (s.execute (ComposedWait.continuation op)) := by
  have ran := s.execute_ran (ComposedWait.continuation op)
  have leaves := ran.leaves
  generalize s.execute (ComposedWait.continuation op) = next at ran leaves
  cases ran with
  | finished call => cases call
  | ended ec call ends =>
    cases call
    have untested : (s.ops op.handler.id).attempt = none := by
      rcases ends with untested | failed
      · exact untested
      · simp at failed
    have ready : s.ready op.handler.id = true := ready_eq.1 untested
    refine ⟨leaves, rfl, rfl, ?_, ?_⟩
    · rw [if_pos ready]
      rfl
    · rw [if_pos ready, List.append_nil]
      rfl
  | passed attempt gate call tested opened suspended =>
    obtain ⟨predicate, rfl⟩ := predicates attempt tested
    obtain ⟨holds, rfl⟩ := waitAttempt_passes opened
    have ready : s.ready op.handler.id = true := (ready_eq.2 predicate tested).trans holds
    refine ⟨leaves, rfl, rfl, ?_, ?_⟩
    · rw [if_pos ready]
      rfl
    · rw [if_pos ready, List.append_nil]
      rfl
  | deferred attempt gate call tested opened fresh =>
    have flag := waiting.suspended (Option.isSome_of_eq_some tested)
    rw [ComposedWait.continuation] at fresh
    simp [flag] at fresh
  | waits attempt call tested closed =>
    have closedNow : ¬s.ready op.handler.id = true := by
      change (s.ops op.handler.id).attempt = some attempt at tested
      simp [ComposedWait.ready, tested, closed]
    have self : ((s.suspend op.handler.id).ops op.handler.id).self = op.handler := by
      rw [ComposedWait.self_suspend]
      exact waiting.home.handler.symm
    have executor : op.handler.associatedExecutor s.semaphore.exec = op.executor := by
      rw [waiting.home.executor, ComposedWait.home, ← waiting.home.handler]
    have acquired : s.semaphore.asyncAcquire op.handler =
        ((s.semaphore.construct op).addWaiter op, []) := by
      simp [Semaphore.asyncAcquire, empty, executor]
    have links : (s.suspend op.handler.id).acquire op.handler.id =
        (s.suspend op.handler.id).enqueue ((s.semaphore.construct op).addWaiter op, []) := by
      simp only [ComposedWait.acquire, self]
      exact congrArg _ acquired
    refine ⟨leaves, rfl, ?_, ?_, ?_⟩
    · change ((s.suspend op.handler.id).acquire op.handler.id).queue = s.queue
      rw [links]
      exact List.append_nil _
    · rw [if_neg closedNow, List.append_nil]
      rfl
    · change ((s.suspend op.handler.id).acquire op.handler.id).semaphore.waiters = _
      rw [links, if_neg closedNow]
      simp [ComposedWait.enqueue]

/-- A posted function does not change what the predicates read. -/
theorem ran_gate {s next : ConditionVariable γ} {job : Job} (ran : Ran s job next)
    (predicates : Predicates (s.ops job.op).attempt) : next.gate = s.gate := by
  have same {attempt : γ → Option γ} {gate : γ} (tested : (s.ops job.op).attempt = some attempt)
      (opened : attempt s.gate = some gate) : gate = s.gate := by
    obtain ⟨predicate, rfl⟩ := predicates attempt tested
    exact (waitAttempt_passes opened).2
  cases ran with
  | finished call => rfl
  | ended ec call ends => rfl
  | passed attempt gate call tested opened suspended => exact same tested opened
  | deferred attempt gate call tested opened fresh => exact same tested opened
  | waits attempt call tested closed => rfl

/-- The functions at the front of the queue can be run one after the other. What they
post stands behind what was queued after them. -/
theorem run_front (front back : List Job) (s : ConditionVariable γ) (calm : s.Calm)
    (queue : s.queue = front ++ back) :
    ∃ later more, machine.run s (List.replicate front.length (.run 0)) = some later ∧
      s.Leaves later ∧ later.gate = s.gate ∧ later.queue = back ++ more := by
  induction front generalizing s back with
  | nil =>
    refine ⟨s, [], rfl, .of_same rfl rfl rfl, rfl, ?_⟩
    rw [queue]
    simp
  | cons job rest inductionHypothesis =>
    have first : s.queue[0]? = some job := by simp [queue]
    have left : (s.dequeue 0).queue = rest ++ back := by simp [ComposedWait.dequeue, queue]
    have taken : s.Leaves (s.dequeue 0) := .of_same rfl rfl rfl
    have ran := (s.dequeue 0).execute_ran job
    have stepped : machine.step s (.run 0) = some ((s.dequeue 0).execute job) := by
      simp [machine, step, ComposedWait.machine, ComposedWait.step, first]
    generalize (s.dequeue 0).execute job = next at ran stepped
    obtain ⟨bound, -⟩ := calm.homed.jobs job (List.mem_of_getElem? first)
    have predicates : Predicates ((s.dequeue 0).ops job.op).attempt := calm.predicates job.op bound
    have gate : next.gate = (s.dequeue 0).gate := ran_gate ran predicates
    obtain ⟨added, grows⟩ := ran.queue
    have line : next.queue = rest ++ (back ++ added) := by
      rw [← grows, left, List.append_assoc]
    obtain ⟨later, more, reaches, leaves, still, behind⟩ :=
      inductionHypothesis (back ++ added) next (step_calm s _ next calm stepped) line
    refine ⟨later, added ++ more, machine.run_cons.mpr ⟨next, stepped, reaches⟩,
      (taken.trans ran.leaves).trans leaves, still.trans gate, ?_⟩
    rw [behind, List.append_assoc]

/-- The continuations of a line of waits that follow each other in the queue, all run:
the ready ones complete, in their order, and the others are in the ring, in theirs. -/
structure Reevaluated (s : ConditionVariable γ) (line : List WaitOp) (last : ConditionVariable γ) :
    Prop where
  gate : last.gate = s.gate
  count : last.semaphore.count = s.semaphore.count
  invoked : last.invoked = s.invoked ++
    (line.filter (fun op => s.ready op.handler.id)).map (fun op => (op.handler.id, .success))
  waiters : last.semaphore.waiters =
    s.semaphore.waiters ++ line.filter (fun op => !s.ready op.handler.id)

theorem ready_stays {s next : ConditionVariable γ} (leaves : s.Leaves next)
    (gate : next.gate = s.gate) (p : Nat) : next.ready p = s.ready p := by
  simp only [ComposedWait.ready, leaves.attempts p, gate]

/-- Running them at the place where they stand reevaluates the whole line.

Proof: by induction on the line. The first continuation leaves the counter at zero, so
that the rest finds what it found; what it adds to the two lists stands before what the
rest adds. -/
theorem run_line (front : List Job) (line : List WaitOp) (back : List Job)
    (s : ConditionVariable γ) (queue : s.queue = front ++ line.map ComposedWait.continuation ++ back)
    (waiting : ∀ op ∈ line, s.Waiting op ∧ Predicates (s.ops op.handler.id).attempt)
    (empty : line ≠ [] → s.semaphore.count = 0) :
    ∃ last, machine.run s (List.replicate line.length (.run front.length)) = some last ∧
      Reevaluated s line last := by
  induction line generalizing s with
  | nil => exact ⟨s, rfl, ⟨rfl, rfl, by simp, by simp⟩⟩
  | cons op rest inductionHypothesis =>
    have zero : s.semaphore.count = 0 := empty (by simp)
    have first : s.queue[front.length]? = some (ComposedWait.continuation op) := by
      rw [queue]
      simp
    have left : (s.dequeue front.length).queue =
        front ++ rest.map ComposedWait.continuation ++ back := by
      change s.queue.eraseIdx front.length = _
      rw [queue]
      simp [List.eraseIdx_append_of_length_le]
    have taken : s.Leaves (s.dequeue front.length) := .of_same rfl rfl rfl
    obtain ⟨mine, predicates⟩ := waiting op (by simp)
    have resumed := resume_waiting (mine.stays taken) predicates zero
    have stepped : machine.step s (.run front.length) =
        some ((s.dequeue front.length).execute (ComposedWait.continuation op)) := by
      simp [machine, step, ComposedWait.machine, ComposedWait.step, first]
    generalize (s.dequeue front.length).execute (ComposedWait.continuation op) = next
      at resumed stepped
    have leaves : s.Leaves next := taken.trans resumed.leaves
    have gate : next.gate = s.gate := resumed.gate
    have ready (p : Nat) : next.ready p = s.ready p := ready_stays leaves gate p
    have others : ∀ other ∈ rest,
        next.Waiting other ∧ Predicates (next.ops other.handler.id).attempt := by
      intro other member
      obtain ⟨still, kind⟩ := waiting other (List.mem_cons_of_mem op member)
      exact ⟨still.stays leaves, (leaves.attempts _).symm ▸ kind⟩
    have none : next.semaphore.count = 0 := leaves.count zero
    obtain ⟨last, ran, reevaluated⟩ :=
      inductionHypothesis next (resumed.queue.trans left) others (fun _ => none)
    refine ⟨last, machine.run_cons.mpr ⟨next, stepped, ran⟩, ?_, ?_, ?_, ?_⟩
    · exact reevaluated.gate.trans gate
    · rw [reevaluated.count, none, zero]
    · rw [reevaluated.invoked, resumed.invoked]
      simp only [ready]
      change s.invoked ++ (if s.ready op.handler.id then _ else _) ++ _ = _
      by_cases holds : s.ready op.handler.id = true <;> simp [holds]
    · rw [reevaluated.waiters, resumed.waiters]
      simp only [ready]
      change s.semaphore.waiters ++ (if s.ready op.handler.id then _ else _) ++ _ = _
      by_cases holds : s.ready op.handler.id = true <;> simp [holds]

/-- `notify_all` empties the ring and posts its operations' continuations, in order. -/
theorem notifyAll_line (s : ConditionVariable γ) :
    s.notifyAll.semaphore.waiters = [] ∧ s.Leaves s.notifyAll ∧
      s.notifyAll.queue = s.queue ++ s.semaphore.waiters.map ComposedWait.continuation := by
  have drains := Semaphore.drained_exact .success s.semaphore
  refine ⟨drains.waiters, ⟨.of_same rfl rfl, fun _ => rfl, fun _ flag => flag, drains.exec, ?_⟩, ?_⟩
  · intro zero
    exact drains.count.trans zero
  · change s.queue ++ (Semaphore.drained .success s.semaphore).2.2.map _ = _
    rw [drains.posted, List.map_map]
    rfl

/-- `notify_all` in any reachable state, after which the executor runs any number of the
functions that were queued before and then the continuations that it posted: the ready
waits complete in their order, and the others are the end of the ring in theirs. With
nothing run before, there is nothing else in the ring. -/
theorem notify_all_reevaluates {exec : Executor} {order : Nat → PostOrder} {state : γ}
    {events : List (Event γ)} {s : ConditionVariable γ}
    (ran : machine.run (create exec state order) events = some s)
    (earlier : Nat) (queued : earlier ≤ s.queue.length) :
    s.notifyAll.queue = s.queue ++ s.semaphore.waiters.map ComposedWait.continuation ∧
    ∃ later last,
      machine.run s (.notifyAll :: List.replicate earlier (.run 0)) = some later ∧
      machine.run later (List.replicate s.semaphore.waiters.length
        (.run (s.queue.length - earlier))) = some last ∧
      Reevaluated later s.semaphore.waiters last ∧
      (∀ p, later.ready p = s.ready p) ∧ last.gate = s.gate ∧
      (s.semaphore.waiters ≠ [] → last.semaphore.count = s.semaphore.count) ∧
      (earlier = 0 → later.invoked = s.invoked ∧ later.semaphore.waiters = [] ∧
        last.semaphore.count = s.semaphore.count) := by
  have calm : s.Calm := machine.run_invariant step_calm (create_calm exec order state) ran
  obtain ⟨vacant, notified, line⟩ := s.notifyAll_line
  have stepped : machine.step s .notifyAll = some s.notifyAll := rfl
  have again : s.notifyAll.Calm := step_calm s _ _ calm stepped
  have parted : s.notifyAll.queue = s.queue.take earlier ++
      (s.queue.drop earlier ++ s.semaphore.waiters.map ComposedWait.continuation) := by
    rw [line, ← List.append_assoc, List.take_append_drop]
  obtain ⟨later, more, before, leaves, gate, behind⟩ :=
    run_front (s.queue.take earlier) _ s.notifyAll again parted
  rw [List.length_take, Nat.min_eq_left queued] at before
  have kept : s.Leaves later := notified.trans leaves
  have waiting : ∀ op ∈ s.semaphore.waiters,
      later.Waiting op ∧ Predicates (later.ops op.handler.id).attempt := by
    intro op member
    obtain ⟨mine, kind⟩ := calm.waiting member
    exact ⟨mine.stays kept, (kept.attempts _).symm ▸ kind⟩
  have empty (present : s.semaphore.waiters ≠ []) : s.semaphore.count = 0 := by
    obtain ⟨queue, represents⟩ := calm.sound.consistent.represents
    rw [Semaphore.count_zero_iff represents]
    exact queue.tokens_of_waiting (represents.waiters ▸ present)
  obtain ⟨last, after, reevaluated⟩ := run_line (s.queue.drop earlier) s.semaphore.waiters more
    later behind waiting (fun present => kept.count (empty present))
  rw [List.length_drop] at after
  refine ⟨line, later, last, machine.run_cons.mpr ⟨_, stepped, before⟩, after, reevaluated,
    ready_stays kept gate, reevaluated.gate.trans gate, ?_, ?_⟩
  · intro present
    rw [reevaluated.count, kept.count (empty present), empty present]
  · rintro rfl
    obtain rfl : s.notifyAll = later := Option.some.inj before
    have drains := Semaphore.drained_exact .success s.semaphore
    exact ⟨rfl, vacant, reevaluated.count.trans drains.count⟩

/-- Two plain waits around two waits for the number to be large enough. -/
def mixed : List (Event Nat) :=
  [.asyncWaitFor (2 ≤ ·) none true, .asyncWait none false, .asyncWaitFor (1 ≤ ·) none true,
    .asyncWait (some 7) true, .write 1]

theorem notify_all_reevaluates_mixed :
    ∃ last, machine.run (create 0 0 leftToRight)
        (mixed ++ [.notifyAll, .run 0, .run 0, .run 0, .run 0]) = some last ∧
      last.invoked = [(1, .success), (2, .success), (3, .success)] ∧
      last.semaphore.waiters.map (·.handler.id) = [0] ∧ last.semaphore.count = 0 := by
  obtain ⟨-, later, last, notified, drained, reevaluated, -, -, counted, fresh⟩ :=
    @notify_all_reevaluates Nat 0 leftToRight 0 mixed _ rfl 0 (Nat.zero_le _)
  obtain ⟨before, vacant, -⟩ := fresh rfl
  have reaches : machine.run (create 0 0 leftToRight)
      (mixed ++ ([.notifyAll] ++ List.replicate 4 (.run 0))) = some last :=
    machine.run_append.mpr ⟨_, rfl, machine.run_append.mpr ⟨later, notified, drained⟩⟩
  refine ⟨last, reaches, ?_, ?_, counted (by decide)⟩
  · obtain rfl := Option.some.inj notified
    exact reevaluated.invoked
  · obtain rfl := Option.some.inj notified
    rw [reevaluated.waiters]
    rfl

end ConditionVariable

end Asioex
