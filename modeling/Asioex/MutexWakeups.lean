import Asioex.MutexTokens

/-!
# Who wakes a waiting operation

An operation that waits in the ring is granted by an unlock. One that finds a token in
the counter does not get there: its success is posted in the same call, and it retries
while the mutex is still locked. As long as nobody has contended the mutex there is a
token in the counter, so that the first operation that finds it locked is one of these.
-/

namespace Asioex

/-- A cancellation finds nobody to end where nobody waits. -/
theorem ComposedWait.cancel_vacant {γ : Type} {s : ComposedWait γ} (consistent : s.Consistent none)
    (vacant : s.semaphore.waiters = []) (p : Nat) (type : CancellationType) :
    (s.cancel p type).semaphore = s.semaphore ∧ (s.cancel p type).queue = s.queue := by
  obtain ⟨queue, represents⟩ := consistent.represents
  rcases s.cancel_emits p type with same | ⟨signalled, received, same⟩
  · rw [same]
    exact ⟨rfl, rfl⟩
  · rcases Semaphore.emit_cases represents.slots p received with lost | ⟨op, member, -, -⟩
    · rw [same, lost]
      exact ⟨rfl, List.append_nil _⟩
    · rw [vacant] at member
      exact absurd member List.not_mem_nil

namespace TokenRun

open MutexRun (Event)

/-- The functions that were queued before an event and that it does not run. -/
def kept (s : MutexRun) : Event → List Job
  | .run k => (s.mutex.dequeue k).queue
  | _ => s.mutex.queue

/-- What an event posts joins the queue at its end. -/
theorem kept_prefix {s next : MutexRun} {event : Event}
    (stepped : MutexRun.machine.step s event = some next) : kept s event <+: next.mutex.queue := by
  have body (mutex : Mutex) (p : Nat) :
      mutex.queue <+: (mutex.body Mutex.lockAttempt p .success).queue := by
    rcases ComposedWait.body_cases Mutex.lockAttempt mutex p .success with
      ⟨-, same⟩ | ⟨gate, -, -, same | same⟩ | ⟨-, -, same⟩
    · rw [same]
      exact List.prefix_refl _
    · rw [same]
      exact List.prefix_refl _
    · rw [same]
      exact List.prefix_append _ _
    · rw [same]
      exact List.prefix_append _ _
  cases event with
  | asyncLock executor connected =>
    obtain rfl := Option.some.inj stepped
    exact body (s.mutex.register executor connected _) s.mutex.started
  | tryLock =>
    obtain rfl := Option.some.inj stepped
    exact List.prefix_refl _
  | unlock client =>
    obtain ⟨-, rfl⟩ := MutexRun.step_unlock.mp stepped
    exact List.prefix_append _ _
  | cancel p type =>
    obtain ⟨mutex, moved, rfl⟩ := Option.map_eq_some_iff.mp stepped
    obtain ⟨-, rfl⟩ := ComposedWait.step_cancel.mp moved
    change s.mutex.queue <+: (s.mutex.cancel p type).queue
    rcases s.mutex.cancel_emits p type with same | ⟨signalled, received, same⟩
    · simp only [same, List.prefix_refl]
    · rw [same]
      exact List.prefix_append _ _
  | run k =>
    obtain ⟨mutex, moved, rfl⟩ := Option.map_eq_some_iff.mp stepped
    obtain ⟨job, -, rfl⟩ := Option.map_eq_some_iff.mp moved
    exact ((s.mutex.dequeue k).execute_ran job).queue

/-- A success that an event posts is posted by an unlock, to an operation that has been
waiting since before; and no operation has called `async_acquire` more often than once
and once for each unlock while it was outstanding. -/
structure WokenByUnlock (s : TokenRun) (event : Event) (next : TokenRun) : Prop where
  woken : ∃ posted, next.locks.mutex.queue = kept s.locks event ++ posted ∧
    ∀ job ∈ posted, job.call = .resume .success →
      (∃ client, event = .unlock client) ∧ 0 < s.locks.mutex.semaphore.linked job.op
  retries : ∀ p, next.acquired.count p ≤ 1 + next.during p

/-- `async_lock` is called while the flag is clear. -/
def Uncontended (s : TokenRun) (event : Event) (_next : TokenRun) : Prop :=
  ∀ executor connected, event = .asyncLock executor connected → s.locks.mutex.locked = false

/-- Nobody has contended the mutex so far: nobody waits or has waited, and the queue
holds the completions of operations that never suspended. -/
structure Quiet (s : TokenRun) : Prop where
  accounted : s.Accounted
  line : s.locks.mutex.semaphore.waiters = []
  acquired : s.acquired = []
  finishing : ∀ job ∈ s.locks.mutex.queue, job.call = .finish

theorem start_quiet (exec : Executor) (order : Nat → PostOrder) : (start exec order).Quiet where
  accounted := start_accounted exec order
  line := rfl
  acquired := rfl
  finishing := by simp [start, MutexRun.start, Mutex.create, ComposedWait.create]

/-- Then the first token is in the counter, with those of all the unlocks. -/
theorem Quiet.count_ne_zero {s : TokenRun} (quiet : s.Quiet) :
    s.locks.mutex.semaphore.count ≠ 0 := by
  have balance := quiet.accounted.balance
  simp only [Semaphore.balance, quiet.line, quiet.acquired, List.length_nil] at balance
  omega

/-- What a step does to a mutex that nobody has contended. -/
structure Uncontends (s next : MutexRun) (event : Event) : Prop where
  line : next.mutex.semaphore.waiters = []
  idle : acquirer s event = none
  finishing : ∀ job ∈ next.mutex.queue, job.call = .finish

/-- Proof: an operation that finds the flag clear posts its completion, a release has
nobody to serve and a cancellation nobody to end, and what runs is a completion. -/
theorem Quiet.uncontends {s next : TokenRun} {event : Event} (quiet : s.Quiet)
    (stepped : machine.step s event = some next) (uncontended : Uncontended s event next) :
    Uncontends s.locks next.locks event := by
  have moved := step_locks stepped
  cases event with
  | asyncLock executor connected =>
    have free : s.locks.mutex.locked = false := uncontended executor connected rfl
    have after := Option.some.inj moved
    rw [Mutex.asyncLock_free free] at after
    rw [← after]
    refine ⟨quiet.line, ?_, ?_⟩
    · simp [acquirer, free]
    · intro job member
      rcases List.mem_append.mp member with old | new
      · exact quiet.finishing job old
      · obtain rfl := List.mem_singleton.mp new
        rfl
  | tryLock =>
    rw [← Option.some.inj moved]
    exact ⟨quiet.line, rfl, quiet.finishing⟩
  | unlock client =>
    obtain ⟨-, released⟩ := MutexRun.step_unlock.mp moved
    have opened : next.locks.mutex =
        (s.locks.mutex.setGate false).enqueue (s.locks.mutex.semaphore.increment, []) := by
      rw [← released]
      exact Mutex.unlock_vacant quiet.line
    refine ⟨?_, rfl, ?_⟩
    · rw [opened]
      exact quiet.line
    · rw [opened]
      intro job member
      rcases List.mem_append.mp member with old | new
      · exact quiet.finishing job old
      · exact absurd new List.not_mem_nil
  | cancel p type =>
    obtain ⟨mutex, cancelled, after⟩ := Option.map_eq_some_iff.mp moved
    obtain ⟨-, rfl⟩ := ComposedWait.step_cancel.mp cancelled
    obtain ⟨semaphore, queue⟩ :=
      ComposedWait.cancel_vacant quiet.accounted.locking.sound.consistent quiet.line p type
    rw [← after]
    refine ⟨?_, rfl, ?_⟩
    · change (s.locks.mutex.cancel p type).semaphore.waiters = []
      rw [semaphore]
      exact quiet.line
    · change ∀ job ∈ (s.locks.mutex.cancel p type).queue, job.call = .finish
      rw [queue]
      exact quiet.finishing
  | run k =>
    obtain ⟨mutex, ran, after⟩ := Option.map_eq_some_iff.mp moved
    obtain ⟨job, queued, rfl⟩ := Option.map_eq_some_iff.mp ran
    have finish : job.call = .finish := quiet.finishing job (List.mem_of_getElem? queued)
    have invokes : (s.locks.mutex.dequeue k).execute job =
        (s.locks.mutex.dequeue k).invoke job.op .success := by
      simp only [ComposedWait.execute, finish]
    rw [invokes] at after
    rw [← after]
    refine ⟨quiet.line, ?_, ?_⟩
    · simp [acquirer, queued, finish]
    · intro left member
      exact quiet.finishing left (List.mem_of_mem_eraseIdx member)

theorem Quiet.step {s next : TokenRun} {event : Event} (quiet : s.Quiet)
    (stepped : machine.step s event = some next) (uncontended : Uncontended s event next) :
    next.Quiet := by
  have after := quiet.uncontends stepped uncontended
  refine ⟨step_accounted quiet.accounted stepped, after.line, ?_, after.finishing⟩
  obtain ⟨locks, -, rfl⟩ := Option.map_eq_some_iff.mp stepped
  change s.acquired ++ (acquirer s.locks event).toList = []
  rw [after.idle, quiet.acquired]
  rfl

/-- The first operation that finds the flag set takes a token from the counter, so that
its success is posted in the call of `async_lock` itself. -/
theorem Quiet.woken_iff {s next : TokenRun} {event : Event} (quiet : s.Quiet)
    (stepped : machine.step s event = some next) :
    WokenByUnlock s event next ↔ Uncontended s event next := by
  constructor
  · rintro ⟨⟨posted, queue, woken⟩, -⟩ executor connected rfl
    by_contra taken
    have closed : s.locks.mutex.gate = true := by simpa [Mutex.locked] using taken
    have first := quiet.count_ne_zero
    have grants : (s.locks.mutex.asyncLock executor connected).queue = s.locks.mutex.queue ++
        [⟨executor.getD s.locks.mutex.semaphore.exec, s.locks.mutex.started,
          .resume .success⟩] := by
      simp [Mutex.asyncLock, ComposedWait.initiate, ComposedWait.body, Mutex.lockAttempt, closed,
        ComposedWait.acquire, ComposedWait.enqueue, ComposedWait.suspend, ComposedWait.register,
        Semaphore.asyncAcquire, first, Handler.associatedExecutor]
    have after : (s.locks.mutex.asyncLock executor connected).queue = next.locks.mutex.queue := by
      rw [← Option.some.inj (step_locks stepped)]
    have same := List.append_cancel_left (grants.symm.trans (after.trans queue))
    obtain ⟨⟨client, other⟩, -⟩ := woken _ (same ▸ List.mem_singleton_self _) rfl
    exact Event.noConfusion other
  · intro uncontended
    have after := quiet.step stepped uncontended
    obtain ⟨posted, queue⟩ := kept_prefix (step_locks stepped)
    refine ⟨⟨posted, queue.symm, ?_⟩, ?_⟩
    · intro job member granted
      have finish := after.finishing job (queue ▸ List.mem_append_right _ member)
      exact absurd (finish.symm.trans granted) (by simp)
    · intro p
      rw [after.acquired]
      exact Nat.zero_le _

/-- Operations are woken by later unlocks only, and retry as often as the mutex is
unlocked meanwhile, in exactly the runs in which `async_lock` is never called while the
flag is set. -/
theorem woken_by_unlock_iff (exec : Executor) (order : Nat → PostOrder) (events : List Event) :
    machine.Along WokenByUnlock (start exec order) events ↔
      machine.Along Uncontended (start exec order) events := by
  have agree (s : TokenRun) (event : Event) (next : TokenRun) (_ : True) (quiet : s.Quiet)
      (stepped : machine.step s event = some next) :
      WokenByUnlock s event next ↔ Uncontended s event next :=
    quiet.woken_iff stepped
  have keeps (s : TokenRun) (event : Event) (next : TokenRun) (_ : True) (quiet : s.Quiet)
      (stepped : machine.step s event = some next) (uncontended : Uncontended s event next) :
      next.Quiet :=
    quiet.step stepped uncontended
  exact machine.along_iff agree keeps events (fun _ _ => trivial) (start_quiet exec order)

/-- A second operation finds the mutex locked, is granted the first token and finds it
locked again: it has called `async_acquire` twice, and nobody has unlocked. -/
theorem granted_without_unlock :
    ∃ s, machine.run (start 0 leftToRight)
        [.asyncLock none true, .asyncLock none true, .run 1] = some s ∧
      s.acquired.count 1 = 2 ∧ s.during 1 = 0 ∧ s.locks.unlocked = [] ∧
      ¬machine.Along WokenByUnlock (start 0 leftToRight)
        [.asyncLock none true, .asyncLock none true, .run 1] := by
  refine ⟨_, rfl, rfl, rfl, rfl, ?_⟩
  intro along
  have split : [Event.asyncLock none true, .asyncLock none true, .run 1] =
      [Event.asyncLock none true, .asyncLock none true] ++ .run 1 :: [] := rfl
  rw [split] at along
  have retried := (along.at_split rfl rfl).retries 1
  exact absurd retried (by decide)

end TokenRun

end Asioex
