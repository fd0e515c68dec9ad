import Mathlib.Algebra.BigOperators.Group.List.Basic
import Mathlib.Algebra.GroupWithZero.Nat
import Asioex.ComposedSteps
import Asioex.MutexExclusion

/-!
# Every lock can be acquired

From whatever the clients have done so far the owners of the lock and the executor can
bring every outstanding operation to its end, and every one that was not aborted to the
lock. Nobody has to be cancelled for it, and no other call is needed.

While the mutex is locked its owner has been told, and unlocks, or the function that will
tell it is posted, and runs. While it is not locked any posted function can run: it ends an
operation, or takes the lock for one. A measure falls with each of these steps.
-/

namespace Asioex

/-- How far a posted function is from the end of its operation. -/
def Job.weight (job : Job) : Nat :=
  match job.call with
  | .resume _ => 3
  | .finish => 1

namespace Mutex

/-- How far the outstanding operations are from their ends, and the lock from being free. -/
def remaining (s : Mutex) : Nat :=
  3 * s.semaphore.waiters.length + (s.queue.map Job.weight).sum + s.locked.toNat

/-- A function that is taken off the queue takes its weight with it. -/
theorem weight_dequeue {s : Mutex} {k : Nat} {job : Job} (queued : s.queue[k]? = some job) :
    (s.queue.map Job.weight).sum = job.weight + ((s.dequeue k).queue.map Job.weight).sum := by
  rw [← ((s.dequeue_perm queued).map Job.weight).sum_eq]
  rfl

/-- An unlock of a locked mutex brings it closer to its end: an operation that it wakes
weighs as much as before. -/
theorem remaining_unlock {s : Mutex} (locked : s.locked = true) :
    s.unlock.remaining < s.remaining := by
  have free : s.unlock.locked = false := rfl
  have moved : 3 * s.unlock.semaphore.waiters.length + (s.unlock.queue.map Job.weight).sum =
      3 * s.semaphore.waiters.length + (s.queue.map Job.weight).sum := by
    change 3 * s.semaphore.release.1.waiters.length +
      ((s.queue ++ s.semaphore.release.2.map _).map Job.weight).sum = _
    cases line : s.semaphore.waiters with
    | nil => simp [Semaphore.release, line]
    | cons op rest =>
      simp only [Semaphore.release, Semaphore.increment, line, Semaphore.decrement,
        Semaphore.complete_waiters, Semaphore.complete_posted, List.erase_cons_head,
        List.map_cons, List.map_nil, List.map_append, List.sum_append, List.sum_cons, List.sum_nil,
        Job.weight, List.length_cons]
      omega
  simp only [remaining, moved, free, locked, Bool.toNat_true, Bool.toNat_false]
  omega

/-- A posted function that runs while the mutex is not locked, or that only completes its
operation, brings it closer to its end. -/
theorem remaining_execute {s : Mutex} (uses : s.Uses (· = some Mutex.lockAttempt)) {k : Nat}
    {job : Job} (queued : s.queue[k]? = some job) (bound : job.op < s.started)
    (able : s.locked = false ∨ job.call = .finish) :
    Mutex.remaining ((s.dequeue k).execute job) < s.remaining := by
  have weighed := weight_dequeue queued
  have runs := (s.dequeue k).execute_ran job
  generalize (s.dequeue k).execute job = next at runs
  simp only [remaining, weighed]
  cases runs with
  | finished call =>
    have weight : job.weight = 1 := by simp only [Job.weight, call]
    change 3 * s.semaphore.waiters.length + _ + s.locked.toNat < _
    rw [weight]
    simp only [ComposedWait.invoke]
    omega
  | ended ec call ends =>
    have weight : job.weight = 3 := by simp only [Job.weight, call]
    change 3 * s.semaphore.waiters.length + _ + s.locked.toNat < _
    rw [weight]
    simp only [ComposedWait.invoke]
    omega
  | passed attempt gate call tested opened suspended =>
    have weight : job.weight = 3 := by simp only [Job.weight, call]
    have set := Bool.toNat_le gate
    change 3 * s.semaphore.waiters.length + _ + gate.toNat < _
    rw [weight]
    simp only [ComposedWait.invoke, ComposedWait.pass]
    omega
  | deferred attempt gate call tested opened fresh =>
    have weight : job.weight = 3 := by simp only [Job.weight, call]
    have set := Bool.toNat_le gate
    change 3 * s.semaphore.waiters.length + _ + gate.toNat < _
    rw [weight]
    simp only [ComposedWait.postFinish, ComposedWait.pass, List.map_append, List.map_cons,
      List.map_nil, List.sum_append, List.sum_cons, List.sum_nil, Job.weight]
    omega
  | waits attempt call tested closed =>
    have test : attempt = Mutex.lockAttempt := by
      have same := uses job.op bound
      exact Option.some.inj (tested.symm.trans same)
    have free : s.gate = false := able.resolve_right (by simp [call])
    change attempt s.gate = none at closed
    simp [test, free, Mutex.lockAttempt] at closed

/-- Nothing is left to do when nothing remains. -/
theorem done_of_remaining {s : Mutex} (none : s.remaining = 0) :
    s.semaphore.waiters = [] ∧ s.queue = [] ∧ s.locked = false := by
  simp only [remaining] at none
  refine ⟨List.length_eq_zero_iff.mp (by omega), ?_, ?_⟩
  · cases queue : s.queue with
    | nil => rfl
    | cons job rest =>
      have positive : 0 < job.weight := by
        unfold Job.weight
        split <;> decide
      simp only [queue, List.map_cons, List.sum_cons] at none
      omega
  · cases locked : s.locked
    · rfl
    · simp [locked] at none

end Mutex

namespace MutexRun

/-- An operation that was aborted: it has been told, or will be. -/
def Aborted (s : MutexRun) (p : Nat) : Prop :=
  (p, ErrorCode.operationAborted) ∈ s.mutex.invoked ∨
    ∃ job ∈ s.mutex.queue, job.op = p ∧ job.call = .resume .operationAborted

instance (s : MutexRun) (p : Nat) : Decidable (s.Aborted p) :=
  inferInstanceAs (Decidable (_ ∨ _))

/-- The events that bring operations to their ends. -/
def Event.serves : Event → Bool
  | .run _ | .unlock _ => true
  | _ => false

/-- What holds from a state on, as long as the owners and the executor go on alone. -/
structure Serving (start s : MutexRun) : Prop where
  guarded : s.Guarded
  attended : Attended s.mutex
  started : s.mutex.started = start.mutex.started
  aborted : ∀ p, s.Aborted p → start.Aborted p

/-- Running a posted function aborts nobody who was not aborted. -/
theorem aborted_run {s : MutexRun} {k : Nat} {job : Job}
    (queued : s.mutex.queue[k]? = some job) (p : Nat)
    (aborted : Aborted { s with mutex := (s.mutex.dequeue k).execute job } p) : s.Aborted p := by
  have member : job ∈ s.mutex.queue := List.mem_of_getElem? queued
  have kept (other : Job) (inside : other ∈ (s.mutex.dequeue k).queue) : other ∈ s.mutex.queue :=
    (s.mutex.dequeue_perm queued).mem_iff.mp (List.mem_cons_of_mem job inside)
  have runs := (s.mutex.dequeue k).execute_ran job
  generalize (s.mutex.dequeue k).execute job = next at runs aborted
  cases runs with
  | finished call =>
    rcases aborted with told | ⟨other, inside, place⟩
    · rcases List.mem_append.mp told with old | new
      · exact .inl old
      · simp [ErrorCode.operationAborted] at new
    · exact .inr ⟨other, kept other inside, place⟩
  | ended ec call ends =>
    rcases aborted with told | ⟨other, inside, place⟩
    · rcases List.mem_append.mp told with old | new
      · exact .inl old
      · obtain ⟨rfl, rfl⟩ : p = job.op ∧ .operationAborted = ec := by simpa using new
        exact .inr ⟨job, member, rfl, call⟩
    · exact .inr ⟨other, kept other inside, place⟩
  | passed attempt gate call tested opened suspended =>
    rcases aborted with told | ⟨other, inside, place⟩
    · rcases List.mem_append.mp told with old | new
      · exact .inl old
      · simp [ErrorCode.operationAborted] at new
    · exact .inr ⟨other, kept other inside, place⟩
  | deferred attempt gate call tested opened fresh =>
    rcases aborted with told | ⟨other, inside, place⟩
    · exact .inl told
    · rcases List.mem_append.mp inside with old | new
      · exact .inr ⟨other, kept other old, place⟩
      · obtain rfl := List.mem_singleton.mp new
        cases place.2
  | waits attempt call tested closed =>
    rcases aborted with told | ⟨other, inside, place⟩
    · exact .inl told
    · rcases List.mem_append.mp inside with old | new
      · exact .inr ⟨other, kept other old, place⟩
      · obtain ⟨item, posted, rfl⟩ := List.mem_map.mp new
        obtain rfl := Semaphore.asyncAcquire_posted _ _ item posted
        cases place.2

/-- An unlock aborts nobody. -/
theorem aborted_unlock {s : MutexRun} {unlocked : List Client} (p : Nat)
    (aborted : Aborted { s with mutex := s.mutex.unlock, unlocked := unlocked } p) :
    s.Aborted p := by
  rcases aborted with told | ⟨other, inside, place⟩
  · exact .inl told
  · rcases List.mem_append.mp inside with old | new
    · exact .inr ⟨other, old, place⟩
    · obtain ⟨item, posted, rfl⟩ := List.mem_map.mp new
      obtain ⟨op, -, rfl⟩ := s.mutex.semaphore.release_completes.source item posted
      cases place.2

/-- The owners and the executor keep to what they may do alone. -/
theorem Serving.step {start s next : MutexRun} {event : Event} (serving : Serving start s)
    (serves : event.serves = true) (stepped : machine.step s event = some next) :
    Serving start next := by
  have locking := serving.guarded.1
  refine ⟨step_guarded s event next serving.guarded stepped (by rintro rfl; cases serves),
    (step_attended s event next ⟨locking, serving.attended⟩ stepped).2, ?_, fun p aborted => ?_⟩
  · rw [← serving.started]
    cases event with
    | run k =>
      obtain ⟨mutex, moved, rfl⟩ := Option.map_eq_some_iff.mp stepped
      obtain ⟨job, queued, rfl⟩ := Option.map_eq_some_iff.mp moved
      exact (s.mutex.execute_keeps k job).started
    | unlock client =>
      obtain ⟨-, rfl⟩ := step_unlock.mp stepped
      rfl
    | _ => cases serves
  · refine serving.aborted p ?_
    cases event with
    | run k =>
      obtain ⟨mutex, moved, rfl⟩ := Option.map_eq_some_iff.mp stepped
      obtain ⟨job, queued, rfl⟩ := Option.map_eq_some_iff.mp moved
      exact aborted_run queued p aborted
    | unlock client =>
      obtain ⟨-, rfl⟩ := step_unlock.mp stepped
      exact aborted_unlock p aborted
    | _ => cases serves

/-- The owner of a locked mutex has been told and may unlock it, or the function that will
tell it is posted. -/
theorem Exclusive.owner_proceeds {s : MutexRun} {p : Nat} (exclusive : s.Exclusive (some p))
    (locking : s.Locking) :
    (s.told (.operation p) = true ∧ .operation p ∉ s.unlocked) ∨
      ∃ (k : Nat) (job : Job),
        s.mutex.queue[k]? = some job ∧ job.op = p ∧ job.call = .finish := by
  have passes := exclusive.passes p
  rw [if_pos rfl] at passes
  have once := (locking.sound.once p).2
  have still : .operation p ∉ s.unlocked := List.count_eq_zero.mp (by omega)
  have bound : p < s.mutex.started :=
    locking.sound.bound_of_passed (List.count_pos_iff.mp (by omega))
  have answered := locking.sound.answered p
  rw [locking.uses p bound, Option.isSome_some, if_pos rfl] at answered
  by_cases succeeded : 0 < s.mutex.succeeded p
  · have invoked : (p, .success) ∈ s.mutex.invoked := List.count_pos_iff.mp succeeded
    exact .inl ⟨by simpa [MutexRun.told] using invoked, still⟩
  · have promised : 0 < s.mutex.promised p := by omega
    obtain ⟨job, member, finish⟩ := List.countP_pos_iff.mp promised
    obtain ⟨k, inside, here⟩ := List.getElem_of_mem member
    have both : job.op = p ∧ job.call = .finish := by simpa [ComposedWait.isFinish] using finish
    exact .inr ⟨k, job, by rw [List.getElem?_eq_getElem inside, here], both⟩

/-- As long as something remains to be done, an owner or the executor brings it closer to
its end.

Proof: a locked mutex has an owner that can proceed. In one that is not locked there is a
posted function to run, since otherwise nobody waits either. -/
theorem Serving.descends {start s : MutexRun} (serving : Serving start s)
    (unfinished : 0 < s.mutex.remaining) : ∃ event next, event.serves = true ∧
      machine.step s event = some next ∧ Serving start next ∧
      next.mutex.remaining < s.mutex.remaining := by
  obtain ⟨locking, owner, exclusive⟩ := serving.guarded
  have runs {k : Nat} {job : Job} (queued : s.mutex.queue[k]? = some job)
      (able : s.mutex.locked = false ∨ job.call = .finish) : ∃ event next, event.serves = true ∧
        machine.step s event = some next ∧ Serving start next ∧
        next.mutex.remaining < s.mutex.remaining := by
    have stepped : machine.step s (.run k) =
        some { s with mutex := (s.mutex.dequeue k).execute job } := by
      simp [machine, MutexRun.step, ComposedWait.machine, ComposedWait.step, queued]
    have bound := (locking.sound.consistent.dequeue queued).held_bound.1
    exact ⟨.run k, _, rfl, stepped, serving.step rfl stepped,
      Mutex.remaining_execute locking.uses queued bound able⟩
  cases locked : s.mutex.locked with
  | true =>
    obtain ⟨p, rfl⟩ := Option.isSome_iff_exists.mp (exclusive.locked.symm.trans locked)
    rcases exclusive.owner_proceeds locking with ⟨told, still⟩ | ⟨k, job, queued, -, finish⟩
    · have stepped := step_unlock.mpr ⟨⟨told, still⟩, rfl⟩
      exact ⟨.unlock (.operation p), _, rfl, stepped, serving.step rfl stepped,
        Mutex.remaining_unlock locked⟩
    · exact runs queued (.inr finish)
  | false =>
    cases queue : s.mutex.queue with
    | cons job rest => exact runs (k := 0) (by rw [queue]; rfl) (.inl locked)
    | nil =>
      have vacant : s.mutex.semaphore.waiters = [] := by
        by_contra waiting
        rcases serving.attended waiting with taken | ⟨job, member, -⟩
        · exact absurd (locked.symm.trans taken) (by simp)
        · rw [queue] at member
          cases member
      simp [Mutex.remaining, queue, vacant, locked] at unfinished

/-- Whatever has happened, the owners and the executor can go on, alone, until the mutex is
free, and then every operation has completed, and has had the lock if it was not aborted. -/
theorem locks_can_be_acquired (exec : Executor) (order : Nat → PostOrder) (events : List Event)
    (s : MutexRun) (untried : .tryLock ∉ events)
    (ran : machine.run (start exec order) events = some s) :
    ∃ more last, machine.run s more = some last ∧ (∀ event ∈ more, event.serves = true) ∧
      last.mutex.locked = false ∧ last.mutex.queue = [] ∧
      ∀ p < s.mutex.started, last.mutex.finished p = 1 ∧
        (¬s.Aborted p → (p, .success) ∈ last.mutex.invoked) := by
  have vacant : Attended (start exec order).mutex := fun waiting => absurd rfl waiting
  obtain ⟨-, attended⟩ := machine.run_invariant step_attended ⟨start_locking exec order, vacant⟩ ran
  have serving : Serving s s := ⟨run_guarded exec order untried ran, attended, rfl, fun _ => id⟩
  have descends : ∀ state, Serving s state → 0 < state.mutex.remaining →
      ∃ event next, Event.serves event = true ∧ machine.step state event = some next ∧
        Serving s next ∧ next.mutex.remaining < state.mutex.remaining :=
    fun state serving unfinished => serving.descends unfinished
  obtain ⟨more, last, served, kinds, final, done⟩ :=
    machine.exists_run_to_zero (fun state => state.mutex.remaining) descends serving
  obtain ⟨waiters, queue, free⟩ := Mutex.done_of_remaining done
  refine ⟨more, last, served, kinds, free, queue, fun p bound => ?_⟩
  have consistent := final.guarded.1.sound.consistent
  have placed := consistent.placed p
  rw [final.started, if_pos bound] at placed
  simp only [Semaphore.linked, ComposedWait.pending, waiters, queue, List.countP_nil, zero_add]
    at placed
  refine ⟨placed, fun spared => ?_⟩
  have told : 0 < last.mutex.finished p := by omega
  obtain ⟨⟨other, ec⟩, member, same⟩ := List.countP_pos_iff.mp told
  obtain rfl : other = p := by simpa using same
  rcases consistent.outcomes _ member with rfl | rfl
  · exact member
  · exact absurd (final.aborted other (.inl member)) spared

/-- Three operations want the lock: one has it, one waits, and one was aborted. -/
def queued : List Event :=
  [.asyncLock none true, .run 0, .asyncLock none true, .run 0, .asyncLock none true,
    .cancel 2 .terminal]

theorem locks_can_be_acquired_queued :
    ∃ s, machine.run (start 0 leftToRight) queued = some s ∧ s.mutex.locked = true ∧
      s.mutex.semaphore.linked 1 = 1 ∧
      ∃ more last, machine.run s more = some last ∧ (1, .success) ∈ last.mutex.invoked := by
  refine ⟨_, rfl, rfl, rfl, ?_⟩
  obtain ⟨more, last, served, -, -, -, ended⟩ :=
    locks_can_be_acquired 0 leftToRight queued _ (by decide) rfl
  exact ⟨more, last, served, (ended 1 (by decide)).2 (by decide)⟩

end MutexRun

end Asioex
