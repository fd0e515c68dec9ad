import Asioex.ComposedSteps
import Asioex.MutexExclusion

/-!
# Lock guards

`async_guard` is a composed operation around `async_lock`. The handler that it passes
is a lambda without associations: it is called with the outcome of the lock, makes a
guard for the mutex, and completes with both. The destructor of a guard unlocks the
mutex it points to.

The lambda makes the guard in every case. The only error that reaches it is the one
that the mutex's destructor posts to the operations still waiting, so a guard that
owns what it should not is always a guard of a destroyed mutex.

The model keeps the last state of a destroyed mutex, and refuses every new call on it.
What was posted or delivered earlier may still come to it: a granted continuation reads
the flag, and a guard that owns it unlocks it. Either is a use after free, and a step
that makes one is never counted as one that keeps the guards in order.
-/

namespace Asioex

/-- `basic_lock_guard`, over whatever identifies a mutex: `mtx_`, which may be null. -/
structure LockGuard (M : Type) where
  mtx : Option M
deriving DecidableEq, Repr

namespace LockGuard

/-- `basic_lock_guard(basic_mutex<Executor> *mtx)`. -/
def create {M : Type} (mtx : M) : LockGuard M := ⟨some mtx⟩

end LockGuard

/-- A step of the mutex invokes no handler, or runs a queued function that does. -/
theorem MutexRun.step_invoked {s next : MutexRun} {event : MutexRun.Event}
    (stepped : MutexRun.machine.step s event = some next) :
    next.mutex.invoked = s.mutex.invoked ∨
      ∃ k job ec, event = .run k ∧ s.mutex.Invokes k job ec next.mutex := by
  cases event with
  | asyncLock executor connected =>
    obtain rfl := Option.some.inj stepped
    exact .inl (s.mutex.initiate_invoked executor connected _)
  | tryLock =>
    obtain rfl := Option.some.inj stepped
    exact .inl rfl
  | unlock client =>
    obtain ⟨-, rfl⟩ := step_unlock.mp stepped
    exact .inl rfl
  | cancel p type =>
    obtain ⟨mutex, moved, rfl⟩ := Option.map_eq_some_iff.mp stepped
    obtain ⟨-, rfl⟩ := ComposedWait.step_cancel.mp moved
    exact .inl (s.mutex.cancel_invoked p type)
  | run k =>
    obtain ⟨mutex, moved, rfl⟩ := Option.map_eq_some_iff.mp stepped
    rcases ComposedWait.step_invoked moved with silent | ⟨j, job, ec, same, invokes⟩
    · exact .inl silent
    · obtain rfl : k = j := by simpa using same
      exact .inr ⟨k, job, ec, rfl, invokes⟩

/-- A guard handed to the handler of an `async_guard`, with the code beside it. -/
structure Delivery where
  op : Nat
  ec : ErrorCode
  guard : LockGuard Unit
deriving DecidableEq, Repr

/-- One mutex with its clients and its guards: whether it has been destroyed, the
handlers of the `async_guard` operations by the number of their lock, and the guards
that are alive. -/
structure GuardRun where
  locks : MutexRun
  alive : Bool
  guarding : Nat → Option Handler
  guards : List Delivery

namespace GuardRun

def start (exec : Executor) (order : Nat → PostOrder) : GuardRun :=
  ⟨.start exec order, true, fun _ => none, []⟩

/-- The lambda of `async_guard`, called for each of its locks that was completed:
`std::move(s).complete(ec, basic_lock_guard<Executor>(&mtx))`. -/
def deliver (guarding : Nat → Option Handler) (completed : List (Nat × ErrorCode)) :
    List Delivery :=
  completed.filterMap
    (fun entry => (guarding entry.1).map (fun _ => ⟨entry.1, entry.2, .create ()⟩))

/-- The mutex after a step, and the guards made in it. -/
def advance (s : GuardRun) (locks : MutexRun) : GuardRun :=
  { s with
    locks := locks
    guards := s.guards ++
      deliver s.guarding (locks.mutex.invoked.drop s.locks.mutex.invoked.length) }

/-- `async_guard`: lock with the lambda, and remember the handler it stands for. -/
def asyncGuard (s : GuardRun) (handler : Handler) : GuardRun :=
  { s with
    locks := { s.locks with mutex := s.locks.mutex.asyncLock none false }
    guarding := Function.update s.guarding s.locks.mutex.started (some handler) }

/-- `~basic_lock_guard`: `if (mtx_) mtx_->unlock();`. -/
def destroyGuard (s : GuardRun) (delivery : Delivery) : GuardRun :=
  match delivery.guard.mtx with
  | none => s
  | some () =>
    { s with
      locks := { s.locks with
        mutex := s.locks.mutex.unlock
        unlocked := s.locks.unlocked ++ [.operation delivery.op] } }

/-- `~basic_mutex`. -/
def destroy (s : GuardRun) : GuardRun :=
  { s with locks := { s.locks with mutex := s.locks.mutex.destroy }, alive := false }

/-- What clients and the executor do to the mutex itself, and what is new. -/
inductive Event where
  | mutex (event : MutexRun.Event)
  | asyncGuard (handler : Handler)
  | destroyGuard (k : Nat)
  | destroy
deriving DecidableEq, Repr

/-- Whether an event calls the mutex. Cancellations go to slots, and the executor to
what was posted. -/
def calls : MutexRun.Event → Bool
  | .cancel .. | .run _ => false
  | _ => true

def step (s : GuardRun) : Event → Option GuardRun
  | .mutex event =>
    if calls event ∧ ¬s.alive then none
    else (MutexRun.machine.step s.locks event).map s.advance
  | .asyncGuard handler => if s.alive then some (s.asyncGuard handler) else none
  | .destroyGuard k =>
    s.guards[k]?.map (fun delivery =>
      { s with guards := s.guards.eraseIdx k }.destroyGuard delivery)
  | .destroy => if s.alive then some s.destroy else none

def machine : Machine GuardRun Event := ⟨step⟩

section Steps

variable {s next : GuardRun}

theorem step_mutex {event : MutexRun.Event} (stepped : machine.step s (.mutex event) = some next) :
    ∃ locks, MutexRun.machine.step s.locks event = some locks ∧ next = s.advance locks := by
  simp only [machine, step] at stepped
  split at stepped
  · cases stepped
  · obtain ⟨locks, moved, rfl⟩ := Option.map_eq_some_iff.mp stepped
    exact ⟨locks, moved, rfl⟩

theorem step_asyncGuard {handler : Handler}
    (stepped : machine.step s (.asyncGuard handler) = some next) : next = s.asyncGuard handler := by
  simp only [machine, step, Option.ite_none_right_eq_some, Option.some.injEq] at stepped
  exact stepped.2.symm

theorem step_destroyGuard {k : Nat} (stepped : machine.step s (.destroyGuard k) = some next) :
    ∃ delivery, s.guards[k]? = some delivery ∧
      next = { s with guards := s.guards.eraseIdx k }.destroyGuard delivery := by
  obtain ⟨delivery, found, rfl⟩ := Option.map_eq_some_iff.mp stepped
  exact ⟨delivery, found, rfl⟩

theorem step_destroy (stepped : machine.step s .destroy = some next) : next = s.destroy := by
  simp only [machine, step, Option.ite_none_right_eq_some, Option.some.injEq] at stepped
  exact stepped.2.symm

end Steps

/-- A guard's destructor unlocks only a mutex that has not been destroyed, and only for
a client that locked with success and still holds; a guard beside an error owns nothing,
and its destruction changes nothing. No continuation reads a destroyed mutex. -/
structure Earned (s : GuardRun) (event : Event) (next : GuardRun) : Prop where
  held : ∀ k delivery, event = .destroyGuard k → s.guards[k]? = some delivery →
    delivery.guard.mtx ≠ none →
      s.alive = true ∧ delivery.ec = .success ∧ s.locks.Holds (.operation delivery.op)
  vacant : ∀ delivery ∈ next.guards, delivery.ec ≠ .success → delivery.guard.mtx = none
  unchanged : ∀ k delivery, event = .destroyGuard k → s.guards[k]? = some delivery →
    delivery.ec ≠ .success → next.locks = s.locks
  intact : ∀ k job, event = .mutex (.run k) → s.locks.mutex.queue[k]? = some job →
    job.call = .resume .success → s.alive = true

/-- The executor does not call an `async_guard` back with the mutex's destruction, and
no guard is destroyed whose client has already unlocked. After the destruction of the
mutex no granted continuation is run, and no guard is destroyed. -/
structure Undisturbed (s : GuardRun) (event : Event) (_next : GuardRun) : Prop where
  aborted : ∀ k job, event = .mutex (.run k) → s.locks.mutex.queue[k]? = some job →
    job.call = .resume .operationAborted → s.guarding job.op = none
  unlocked : ∀ k delivery, event = .destroyGuard k → s.guards[k]? = some delivery →
    Client.operation delivery.op ∉ s.locks.unlocked
  granted : ∀ k job, event = .mutex (.run k) → s.locks.mutex.queue[k]? = some job →
    job.call = .resume .success → s.alive = true
  outlived : ∀ k delivery, event = .destroyGuard k → s.guards[k]? = some delivery →
    s.alive = true

/-- The mutex excludes, and every guard that is alive came with a success. -/
structure Owning (s : GuardRun) : Prop where
  guarded : s.locks.Guarded
  earned : ∀ delivery ∈ s.guards, delivery.ec = .success ∧
    (delivery.op, ErrorCode.success) ∈ s.locks.mutex.invoked ∧ delivery.guard.mtx = some ()

theorem start_owning (exec : Executor) (order : Nat → PostOrder) : (start exec order).Owning where
  guarded := MutexRun.start_guarded exec order
  earned := fun _ member => absurd member List.not_mem_nil

section Delivered

variable {s : GuardRun} {locks : MutexRun}

/-- A step of the mutex that invokes no handler makes no guard. -/
theorem guards_advance_silent (silent : locks.mutex.invoked = s.locks.mutex.invoked) :
    (s.advance locks).guards = s.guards := by
  simp [advance, silent, deliver]

/-- A step of the mutex that invokes a handler makes a guard if it is the lambda. -/
theorem mem_guards_advance {p : Nat} {ec : ErrorCode}
    (grown : locks.mutex.invoked = s.locks.mutex.invoked ++ [(p, ec)]) (delivery : Delivery) :
    delivery ∈ (s.advance locks).guards ↔
      delivery ∈ s.guards ∨ (s.guarding p ≠ none ∧ delivery = ⟨p, ec, .create ()⟩) := by
  cases guarding : s.guarding p with
  | none => simp [advance, grown, deliver, guarding]
  | some handler => simp [advance, grown, deliver, guarding]

end Delivered

/-- The destructor of the mutex changes neither the flag nor what its clients did. -/
theorem guarded_destroy {s : MutexRun} (guarded : s.Guarded) :
    ({ s with mutex := s.mutex.destroy } : MutexRun).Guarded := by
  obtain ⟨locking, owner, exclusive⟩ := guarded
  have still : ({ s with mutex := s.mutex.destroy } : MutexRun).Exclusive owner :=
    ⟨exclusive.locked, exclusive.passes, exclusive.answers, exclusive.told⟩
  exact ⟨⟨locking.sound.destroy, locking.uses⟩, owner, still⟩

/-- A guard that is alive is its client's only claim to the lock, until the client
unlocks itself. -/
theorem Owning.holds {s : GuardRun} (owning : s.Owning) {delivery : Delivery}
    (member : delivery ∈ s.guards) (still : Client.operation delivery.op ∉ s.locks.unlocked) :
    s.locks.told (.operation delivery.op) = true ∧ s.locks.Holds (.operation delivery.op) := by
  obtain ⟨locking, owner, exclusive⟩ := owning.guarded
  obtain ⟨-, invoked, -⟩ := owning.earned delivery member
  have told : s.locks.told (.operation delivery.op) = true := by
    simpa [MutexRun.told] using invoked
  obtain ⟨p, same, owns⟩ := exclusive.owner_of_told locking told still
  obtain rfl : delivery.op = p := by simpa using same
  exact ⟨told, (exclusive.holds_operation delivery.op).mpr owns⟩

/-- An undisturbed step keeps every guard earned.

Proof: a guard is only made where the handler of a lock is invoked, with success
unless the function was posted with the mutex's destruction; and a guard of a client
that has not unlocked unlocks as that client, as `unlock` itself admits. -/
theorem step_owning {s next : GuardRun} {event : Event} (owning : s.Owning)
    (other : event ≠ .mutex .tryLock) (stepped : machine.step s event = some next)
    (undisturbed : Undisturbed s event next) : next.Owning := by
  cases event with
  | mutex event =>
    obtain ⟨locks, moved, rfl⟩ := step_mutex stepped
    have untried : event ≠ .tryLock := by
      rintro rfl
      exact other rfl
    refine ⟨MutexRun.step_guarded s.locks event locks owning.guarded moved untried, ?_⟩
    have earlier := ComposedWait.run_invoked (MutexRun.step_moves moved)
    have kept (delivery : Delivery) (member : delivery ∈ s.guards) :
        delivery.ec = .success ∧ (delivery.op, ErrorCode.success) ∈ locks.mutex.invoked ∧
          delivery.guard.mtx = some () := by
      obtain ⟨success, invoked, owns⟩ := owning.earned delivery member
      exact ⟨success, earlier.subset invoked, owns⟩
    rcases MutexRun.step_invoked moved with silent | ⟨k, job, ec, rfl, invokes⟩
    · rw [guards_advance_silent silent]
      exact kept
    · intro delivery member
      rcases (mem_guards_advance invokes.invoked delivery).mp member with old | ⟨mine, rfl⟩
      · exact kept delivery old
      · have success : ec = .success := by
          rcases invokes.code with success | call
          · exact success
          · obtain ⟨locking, -⟩ := owning.guarded
            have codes := locking.sound.consistent.codes job (List.mem_of_getElem? invokes.queued)
            rcases codes ec call with success | rfl
            · exact success
            · exact absurd (undisturbed.aborted k job rfl invokes.queued call) mine
        refine ⟨success, ?_, rfl⟩
        change (job.op, ErrorCode.success) ∈ locks.mutex.invoked
        rw [invokes.invoked, success]
        exact List.mem_append_right _ (List.mem_singleton_self _)
  | asyncGuard handler =>
    obtain rfl := step_asyncGuard stepped
    have locked : MutexRun.machine.step s.locks (.asyncLock none false) =
        some { s.locks with mutex := s.locks.mutex.asyncLock none false } := rfl
    refine ⟨MutexRun.step_guarded s.locks _ _ owning.guarded locked (by simp), ?_⟩
    intro delivery member
    obtain ⟨success, invoked, owns⟩ := owning.earned delivery member
    have same := s.locks.mutex.initiate_invoked none false (some Mutex.lockAttempt)
    exact ⟨success, same.symm ▸ invoked, owns⟩
  | destroyGuard k =>
    obtain ⟨delivery, found, rfl⟩ := step_destroyGuard stepped
    have member : delivery ∈ s.guards := List.mem_of_getElem? found
    have still := undisturbed.unlocked k delivery rfl found
    obtain ⟨told, -⟩ := owning.holds member still
    obtain ⟨-, -, owns⟩ := owning.earned delivery member
    have unlocked : MutexRun.machine.step s.locks (.unlock (.operation delivery.op)) =
        some { s.locks with
          mutex := s.locks.mutex.unlock
          unlocked := s.locks.unlocked ++ [.operation delivery.op] } :=
      MutexRun.step_unlock.mpr ⟨⟨told, still⟩, rfl⟩
    have guarded := MutexRun.step_guarded s.locks _ _ owning.guarded unlocked (by simp)
    have destroyed : { s with guards := s.guards.eraseIdx k }.destroyGuard delivery =
        { s with
          locks := { s.locks with
            mutex := s.locks.mutex.unlock
            unlocked := s.locks.unlocked ++ [.operation delivery.op] }
          guards := s.guards.eraseIdx k } := by
      simp only [destroyGuard, owns]
    rw [destroyed]
    exact ⟨guarded, fun rest left => owning.earned rest (List.mem_of_mem_eraseIdx left)⟩
  | destroy =>
    obtain rfl := step_destroy stepped
    exact ⟨guarded_destroy owning.guarded, owning.earned⟩

/-- In good order before and after, a step of which no guard is left behind by its
client is one whose guards are earned. -/
theorem Owning.step_earned {s next : GuardRun} {event : Event} (owning : s.Owning)
    (owningNext : next.Owning) (undisturbed : Undisturbed s event next) : Earned s event next := by
  constructor
  · intro k delivery destroyed found _
    have member : delivery ∈ s.guards := List.mem_of_getElem? found
    obtain ⟨success, -, -⟩ := owning.earned delivery member
    obtain ⟨-, holds⟩ := owning.holds member (undisturbed.unlocked k delivery destroyed found)
    exact ⟨undisturbed.outlived k delivery destroyed found, success, holds⟩
  · intro delivery member failed
    exact absurd (owningNext.earned delivery member).1 failed
  · intro k delivery _ found failed
    exact absurd (owning.earned delivery (List.mem_of_getElem? found)).1 failed
  · exact undisturbed.granted

/-- A step whose guards are earned is undisturbed.

Proof: the mutex's destruction, called back, makes a guard beside its error; a client
that has unlocked does not hold, since it passed once; and every guard owns the mutex,
so none outlives it unnoticed. -/
theorem Owning.step_undisturbed {s next : GuardRun} {event : Event} (owning : s.Owning)
    (stepped : machine.step s event = some next) (earned : Earned s event next) :
    Undisturbed s event next := by
  have unlocks (k : Nat) (delivery : Delivery) (found : s.guards[k]? = some delivery) :
      delivery.guard.mtx ≠ none := by
    rw [(owning.earned delivery (List.mem_of_getElem? found)).2.2]
    simp
  refine ⟨?_, ?_, earned.intact, fun k delivery destroyed found =>
    (earned.held k delivery destroyed found (unlocks k delivery found)).1⟩
  · rintro k job rfl queued call
    obtain ⟨locks, moved, rfl⟩ := step_mutex stepped
    obtain ⟨mutex, ran, rfl⟩ := Option.map_eq_some_iff.mp moved
    obtain ⟨found, taken, rfl⟩ := Option.map_eq_some_iff.mp ran
    obtain rfl : job = found := Option.some.inj (queued.symm.trans taken)
    have failed := (s.locks.mutex.dequeue k).execute_failed call ErrorCode.isSet_operationAborted
    have grown : ((s.locks.mutex.dequeue k).execute job).invoked =
        s.locks.mutex.invoked ++ [(job.op, .operationAborted)] := by
      rw [failed]
      rfl
    by_contra mine
    have made : ⟨job.op, .operationAborted, .create ()⟩ ∈
        (s.advance { s.locks with mutex := (s.locks.mutex.dequeue k).execute job }).guards :=
      (mem_guards_advance grown _).mpr (.inr ⟨mine, rfl⟩)
    have owned := earned.vacant _ made (by simp [ErrorCode.operationAborted])
    cases owned
  · rintro k delivery rfl found unlocked
    obtain ⟨-, -, holds⟩ := earned.held k delivery rfl found (unlocks k delivery found)
    obtain ⟨locking, -⟩ := owning.guarded
    have once := (locking.sound.once delivery.op).2
    have positive : 0 < s.locks.unlocked.count (.operation delivery.op) :=
      List.count_pos_iff.mpr unlocked
    have fewer : s.locks.unlocked.count (.operation delivery.op) <
        s.locks.mutex.passed.count delivery.op := holds
    omega

/-- In every run of guarded and plain locks, unlocks, cancellations, executor steps,
destructions of guards and of the mutex, the guards own what they should, and nothing
touches a destroyed mutex, exactly when no `async_guard` is called back with the mutex's
destruction, no guard is destroyed after its client unlocked, and after the mutex's
destruction no guard is destroyed and no granted continuation runs. -/
theorem guards_earned_iff (exec : Executor) (order : Nat → PostOrder) (events : List Event)
    (untried : .mutex .tryLock ∉ events) :
    machine.Along Earned (start exec order) events ↔
      machine.Along Undisturbed (start exec order) events := by
  have agree (s : GuardRun) (event : Event) (next : GuardRun) (other : event ≠ .mutex .tryLock)
      (owning : s.Owning) (stepped : machine.step s event = some next) :
      Earned s event next ↔ Undisturbed s event next := by
    constructor
    · exact owning.step_undisturbed stepped
    · intro undisturbed
      exact owning.step_earned (step_owning owning other stepped undisturbed) undisturbed
  have keeps (s : GuardRun) (event : Event) (next : GuardRun) (other : event ≠ .mutex .tryLock)
      (owning : s.Owning) (stepped : machine.step s event = some next)
      (undisturbed : Undisturbed s event next) : next.Owning :=
    step_owning owning other stepped undisturbed
  refine machine.along_iff agree keeps events ?_ (start_owning exec order)
  intro event member same
  exact untried (same ▸ member)

/-- A guard is taken, dropped, and taken again. -/
def dropped : List Event :=
  [.asyncGuard ⟨0, none, none⟩, .mutex (.run 0), .destroyGuard 0, .asyncGuard ⟨1, none, none⟩]

theorem guards_earned_iff_dropped :
    .mutex .tryLock ∉ dropped ∧ machine.Along Earned (start 0 leftToRight) dropped := by
  refine ⟨by decide, (guards_earned_iff 0 leftToRight dropped (by decide)).mpr ?_⟩
  rintro _ ⟨⟩
  refine ⟨⟨by simp, by simp, by simp, by simp⟩, ?_⟩
  rintro _ ⟨⟩
  refine ⟨⟨?_, by simp, fun _ _ _ _ _ => rfl, by simp⟩, ?_⟩
  · rintro k job ⟨⟩ queued call
    obtain rfl := Option.some.inj queued
    cases call
  rintro _ ⟨⟩
  refine ⟨⟨by simp, ?_, by simp, fun _ _ _ _ => rfl⟩, ?_⟩
  · rintro k delivery ⟨⟩ _
    exact List.not_mem_nil
  rintro _ ⟨⟩
  exact ⟨⟨by simp, by simp, by simp, by simp⟩, trivial⟩

/-- The second of two guards waits, and then the mutex is destroyed: the guard that the
second client gets beside the error unlocks the destroyed mutex. -/
def abandoned : List Event :=
  [.asyncGuard ⟨0, none, none⟩, .asyncGuard ⟨1, none, none⟩, .mutex (.run 0), .mutex (.run 0),
    .destroy, .mutex (.run 0), .destroyGuard 1]

theorem guard_unlocks_destroyed_mutex :
    ∃ s, machine.run (start 0 leftToRight) abandoned = some s ∧ s.alive = false ∧
      (1, ErrorCode.operationAborted) ∈ s.locks.mutex.invoked ∧
      s.locks.unlocked = [.operation 1] ∧ ¬machine.Along Earned (start 0 leftToRight) abandoned := by
  refine ⟨_, rfl, rfl, by decide, rfl, fun along => ?_⟩
  have late := ((((((along _ rfl).2 _ rfl).2 _ rfl).2 _ rfl).2 _ rfl).2 _ rfl).1
  have owned := late.vacant ⟨1, .operationAborted, .create ()⟩ (by decide) (by decide)
  cases owned

end GuardRun

end Asioex
