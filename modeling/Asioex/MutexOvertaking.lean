import Asioex.MutexProgress
import Asioex.MutexTokens

/-!
# Overtaking

An `unlock` clears the flag and posts the oldest waiting operation, which takes the flag only
when it is run. An `async_lock` that is called in between finds the flag clear and takes it at
once; the posted operation then finds it set, and goes to the end of the line. The waiting
operations of the semaphore are served in order, the operations of the mutex are not: one that
waits can be kept waiting while any number of later ones have the lock, although every
function that is posted for it is run.
-/

namespace Asioex.MutexRun

/-- The events of owners, of new operations and of the executor. -/
def Event.lets : Event → Bool
  | .run _ | .unlock _ | .asyncLock _ _ => true
  | _ => false

/-- An operation that waits, in a run without `try_lock`. -/
structure Waits (s : MutexRun) (p : Nat) : Prop where
  guarded : s.Guarded
  linked : s.mutex.semaphore.linked p = 1

/-- A new operation that finds the flag clear has the lock when its own function has run; the
semaphore and the queue are then as before. -/
theorem lock_free {s : MutexRun} (free : s.mutex.locked = false) :
    ∃ last, machine.run s [.asyncLock none true, .run s.mutex.queue.length] = some last ∧
      last.mutex.semaphore = s.mutex.semaphore ∧ last.mutex.queue = s.mutex.queue ∧
      last.mutex.started = s.mutex.started + 1 ∧ last.mutex.locked = true ∧
      last.mutex.invoked = s.mutex.invoked ++ [(s.mutex.started, .success)] := by
  have posts : s.mutex.asyncLock none true =
      ((s.mutex.register none true (some Mutex.lockAttempt)).pass s.mutex.started true).postFinish
        s.mutex.started := Mutex.asyncLock_free free
  generalize lockedBy : ((s.mutex.register none true (some Mutex.lockAttempt)).pass
    s.mutex.started true).postFinish s.mutex.started = middle at posts
  obtain ⟨executor, queue⟩ : ∃ executor, middle.queue =
      s.mutex.queue ++ [⟨executor, s.mutex.started, .finish⟩] := by
    rw [← lockedBy]
    simp [ComposedWait.postFinish, ComposedWait.pass, ComposedWait.register]
  have queued : middle.queue[s.mutex.queue.length]? =
      some ⟨executor, s.mutex.started, .finish⟩ := by
    rw [queue, List.getElem?_concat_length]
  have first : machine.step s (.asyncLock none true) = some { s with mutex := middle } := by
    rw [← posts]
    rfl
  let ended : Mutex := (middle.dequeue s.mutex.queue.length).invoke s.mutex.started .success
  have second : machine.step { s with mutex := middle } (.run s.mutex.queue.length) =
      some { s with mutex := ended } := by
    simp [machine, step, ComposedWait.machine, ComposedWait.step, queued, ComposedWait.execute,
      ended]
  refine ⟨_, machine.run_cons.mpr ⟨_, first, machine.run_cons.mpr ⟨_, second, rfl⟩⟩, ?_, ?_, ?_, ?_,
    ?_⟩
  · change middle.semaphore = _
    rw [← lockedBy]
    rfl
  · change middle.queue.eraseIdx s.mutex.queue.length = s.mutex.queue
    rw [queue, List.eraseIdx_append_of_length_le (Nat.le_refl _), Nat.sub_self]
    exact List.append_nil _
  · change middle.started = _
    rw [← lockedBy]
    rfl
  · change middle.gate = true
    rw [← lockedBy]
    rfl
  · change middle.invoked ++ [(s.mutex.started, ErrorCode.success)] = _
    rw [← lockedBy]
    rfl

/-- The owner of a locked mutex can be brought to where it may unlock, and nothing else
changes. -/
theorem owner_told {s : MutexRun} (guarded : s.Guarded) (locked : s.mutex.locked = true) :
    ∃ more last client, machine.run s more = some last ∧ (∀ event ∈ more, event.lets = true) ∧
      last.Guarded ∧ last.mutex.semaphore = s.mutex.semaphore ∧
      last.mutex.started = s.mutex.started ∧ s.mutex.invoked <+: last.mutex.invoked ∧
      last.told client = true ∧ client ∉ last.unlocked := by
  obtain ⟨locking, owner, exclusive⟩ := guarded
  obtain ⟨p, rfl⟩ := Option.isSome_iff_exists.mp (exclusive.locked.symm.trans locked)
  rcases exclusive.owner_proceeds locking with ⟨told, still⟩ | ⟨k, job, queued, own, finish⟩
  · exact ⟨[], s, .operation p, rfl, by simp, ⟨locking, _, exclusive⟩, rfl, rfl, List.prefix_refl _,
      told, still⟩
  · have stepped : machine.step s (.run k) =
        some { s with mutex := (s.mutex.dequeue k).invoke job.op .success } := by
      simp [machine, step, ComposedWait.machine, ComposedWait.step, queued, ComposedWait.execute,
        finish]
    have passes := exclusive.passes p
    have once := (locking.sound.once p).2
    rw [if_pos rfl] at passes
    have still : .operation p ∉ s.unlocked := List.count_eq_zero.mp (by omega)
    refine ⟨[.run k], _, .operation p, machine.run_cons.mpr ⟨_, stepped, rfl⟩, by simp [Event.lets],
      step_guarded s _ _ ⟨locking, _, exclusive⟩ stepped (by simp), rfl, rfl,
      List.prefix_append _ _, ?_, still⟩
    simp [MutexRun.told, ComposedWait.invoke, own]

/-- An operation that is run while the flag is set waits again, if the counter is zero. -/
theorem waits_again {s : MutexRun} (guarded : s.Guarded) (locked : s.mutex.locked = true)
    (empty : s.mutex.semaphore.count = 0) {k : Nat} {job : Job}
    (queued : s.mutex.queue[k]? = some job) (call : job.call = .resume .success) :
    ∃ last, machine.step s (.run k) = some last ∧ last.Waits job.op ∧
      last.mutex.started = s.mutex.started ∧ last.mutex.invoked = s.mutex.invoked := by
  have locking := guarded.1
  have bound := (locking.sound.consistent.dequeue queued).held_bound.1
  have test : ((s.mutex.dequeue k).ops job.op).attempt = some Mutex.lockAttempt :=
    locking.uses job.op bound
  have gate : (s.mutex.dequeue k).gate = true := locked
  have runs : (s.mutex.dequeue k).execute job =
      ((s.mutex.dequeue k).suspend job.op).acquire job.op := by
    simp [ComposedWait.execute, call, ComposedWait.resume, test, ComposedWait.body, gate,
      Mutex.lockAttempt]
  have stepped : machine.step s (.run k) = some
      { s with mutex := ((s.mutex.dequeue k).suspend job.op).acquire job.op } := by
    simp [machine, step, ComposedWait.machine, ComposedWait.step, queued, runs]
  refine ⟨_, stepped, ⟨step_guarded s _ _ guarded stepped (by simp), ?_⟩, rfl, rfl⟩
  have own : (((s.mutex.dequeue k).suspend job.op).ops job.op).self.id = job.op := by
    simp only [ComposedWait.suspend, Function.update_self]
    exact (locking.sound.consistent.self job.op bound).1
  have unlinked : s.mutex.semaphore.linked job.op = 0 := by
    have nowhere := (locking.sound.consistent.dequeue queued).held_bound.2
    have whole : (s.mutex.dequeue k).located job.op = s.mutex.semaphore.linked job.op +
      (s.mutex.dequeue k).pending job.op + (s.mutex.dequeue k).finished job.op := rfl
    omega
  have moved := s.mutex.semaphore.asyncAcquire_census
    (((s.mutex.dequeue k).suspend job.op).ops job.op).self job.op
  have nothing : (s.mutex.semaphore.asyncAcquire
      (((s.mutex.dequeue k).suspend job.op).ops job.op).self).2 = [] := by
    simp [Semaphore.asyncAcquire, empty]
  rw [nothing, own, if_pos rfl, unlinked] at moved
  exact moved

/-- One more operation can overtake one that waits.

Proof: an owner unlocks, if there is one, and the new operation locks before anybody whose
wait ended with the unlock. If that was the operation that waits, it is run afterwards, and
waits again. -/
theorem Waits.overtaken {s : MutexRun} {p : Nat} (waits : s.Waits p) :
    ∃ more last, machine.run s more = some last ∧ (∀ event ∈ more, event.lets = true) ∧
      last.Waits p ∧ last.mutex.started = s.mutex.started + 1 ∧
      s.mutex.invoked <+: last.mutex.invoked ∧
      (s.mutex.started, .success) ∈ last.mutex.invoked := by
  have locks {s : MutexRun} (guarded : s.Guarded) (free : s.mutex.locked = false) :
      ∃ last, machine.run s [.asyncLock none true, .run s.mutex.queue.length] = some last ∧
        last.Guarded ∧ last.mutex.locked = true ∧
        last.mutex.semaphore = s.mutex.semaphore ∧ last.mutex.queue = s.mutex.queue ∧
        last.mutex.started = s.mutex.started + 1 ∧
        last.mutex.invoked = s.mutex.invoked ++ [(s.mutex.started, .success)] := by
    obtain ⟨last, ran, semaphore, queue, started, locked, invoked⟩ := lock_free free
    have along : machine.Along (fun _ event _ => event ≠ .tryLock) s
        [.asyncLock none true, .run s.mutex.queue.length] :=
      (machine.along_events ran).mpr (by simp)
    exact ⟨last, ran, machine.run_invariant_along step_guarded guarded along ran, locked, semaphore,
      queue, started, invoked⟩
  cases locked : s.mutex.locked with
  | false =>
    obtain ⟨last, ran, guarded, -, semaphore, -, started, invoked⟩ := locks waits.guarded locked
    refine ⟨_, last, ran, by simp [Event.lets], ⟨guarded, by rw [semaphore]; exact waits.linked⟩,
      started, ?_, ?_⟩
    · rw [invoked]
      exact List.prefix_append _ _
    · simp [invoked]
  | true =>
    obtain ⟨telling, told, client, ran, lets, guarded, semaphore, started, grown, knows, still⟩ :=
      owner_told waits.guarded locked
    have unlocks := step_unlock.mpr ⟨⟨knows, still⟩, rfl⟩
    have guarded' := step_guarded told _ _ guarded unlocks (by simp)
    obtain ⟨last, ran', guardedLast, lockedLast, semaphoreLast, queueLast, startedLast,
      invokedLast⟩ := locks guarded' rfl
    have before : machine.run s (telling ++ (.unlock client :: [.asyncLock none true,
        .run told.mutex.unlock.queue.length])) = some last :=
      machine.run_append.mpr ⟨told, ran, machine.run_cons.mpr ⟨_, unlocks, ran'⟩⟩
    have lets' : ∀ event ∈ telling ++ (.unlock client :: [.asyncLock none true,
        .run told.mutex.unlock.queue.length]), event.lets = true := by
      intro event member
      rcases List.mem_append.mp member with early | late
      · exact lets event early
      · simp only [List.mem_cons, List.not_mem_nil, or_false] at late
        rcases late with rfl | rfl | rfl <;> rfl
    have after : last.mutex.started = s.mutex.started + 1 := by
      rw [startedLast]
      exact congrArg (· + 1) started
    have grown' : s.mutex.invoked <+: last.mutex.invoked := by
      rw [invokedLast]
      exact grown.trans (List.prefix_append _ _)
    have newest : (s.mutex.started, ErrorCode.success) ∈ last.mutex.invoked := by
      rw [invokedLast, ← started]
      exact List.mem_append_right _ (List.mem_singleton.mpr rfl)
    -- the unlock completed the oldest wait, which may be the one of the operation
    obtain ⟨queue, represents⟩ := guarded.1.sound.consistent.represents
    have present : 0 < told.mutex.semaphore.linked p := by
      rw [semaphore, waits.linked]
      exact Nat.one_pos
    cases line : told.mutex.semaphore.waiters with
    | nil => simp [Semaphore.linked, line] at present
    | cons op rest =>
      have released := Semaphore.release_waiting represents line
      have left : last.mutex.semaphore = (told.mutex.semaphore.complete op .success).1 := by
        rw [semaphoreLast]
        exact congrArg Prod.fst released
      have census := (told.mutex.semaphore.complete_completes (by simp [line] : op ∈ _)
        .success).census p
      rw [← left, semaphore, waits.linked] at census
      by_cases mine : op.handler.id = p
      · have posted : last.mutex.queue[told.mutex.queue.length]? =
            some ⟨op.executor, p, .resume .success⟩ := by
          rw [queueLast]
          change (told.mutex.queue ++ told.mutex.semaphore.release.2.map _)[_]? = _
          rw [released, ← mine]
          exact List.getElem?_concat_length
        have empty : last.mutex.semaphore.count = 0 := by
          have none := (Semaphore.count_zero_iff represents).mpr
            (queue.tokens_of_waiting (by rw [← represents.waiters, line]; simp))
          rw [left, Semaphore.complete_count]
          exact none
        obtain ⟨final, stepped, again, startedFinal, invokedFinal⟩ :=
          waits_again guardedLast lockedLast empty posted rfl
        have more : machine.run last [.run told.mutex.queue.length] = some final :=
          machine.run_cons.mpr ⟨final, stepped, rfl⟩
        refine ⟨_, final, machine.run_append.mpr ⟨last, before, more⟩, ?_, again,
          startedFinal.trans after, invokedFinal ▸ grown', invokedFinal ▸ newest⟩
        intro event member
        rcases List.mem_append.mp member with early | late
        · exact lets' event early
        · rw [List.mem_singleton.mp late]
          rfl
      · have nobody : Semaphore.postedFor [⟨op.executor, op.handler, .success⟩] p = 0 := by
          simp [Semaphore.postedFor, mine]
        rw [nobody] at census
        exact ⟨_, last, before, lets', ⟨guardedLast, census⟩, after, grown', newest⟩

/-- Whatever has happened, an operation that waits can be kept waiting, without a cancellation
and without a `try_lock`, while any number of operations that are called later have the lock,
one after the other. -/
theorem waiting_can_be_overtaken (exec : Executor) (order : Nat → PostOrder) (events : List Event)
    (s : MutexRun) (untried : .tryLock ∉ events)
    (ran : machine.run (start exec order) events = some s) (p : Nat)
    (linked : s.mutex.semaphore.linked p = 1) (n : Nat) :
    ∃ more last, machine.run s more = some last ∧ (∀ event ∈ more, event.lets = true) ∧
      last.mutex.semaphore.linked p = 1 ∧ last.mutex.started = s.mutex.started + n ∧
      ∀ later, s.mutex.started ≤ later → later < s.mutex.started + n →
        (later, .success) ∈ last.mutex.invoked := by
  have waits : s.Waits p := ⟨run_guarded exec order untried ran, linked⟩
  suffices overtaken : ∃ more last, machine.run s more = some last ∧
      (∀ event ∈ more, event.lets = true) ∧ last.Waits p ∧
      last.mutex.started = s.mutex.started + n ∧
      ∀ later, s.mutex.started ≤ later → later < s.mutex.started + n →
        (later, ErrorCode.success) ∈ last.mutex.invoked by
    obtain ⟨more, last, followed, lets, still, started, told⟩ := overtaken
    exact ⟨more, last, followed, lets, still.linked, started, told⟩
  induction n with
  | zero => exact ⟨[], s, rfl, by simp, waits, rfl, fun later first last => by omega⟩
  | succ n inductionHypothesis =>
    obtain ⟨more, middle, followed, lets, still, started, told⟩ := inductionHypothesis
    obtain ⟨further, last, followed', lets', still', started', grown, newest⟩ := still.overtaken
    refine ⟨more ++ further, last, machine.run_append.mpr ⟨middle, followed, followed'⟩, ?_, still',
      by omega, fun later first bound => ?_⟩
    · intro event member
      rcases List.mem_append.mp member with early | late
      · exact lets event early
      · exact lets' event late
    · by_cases old : later < s.mutex.started + n
      · exact grown.subset (told later first old)
      · obtain rfl : later = middle.mutex.started := by omega
        exact newest

theorem waiting_can_be_overtaken_queued :
    ∃ s, machine.run (start 0 leftToRight) queued = some s ∧ s.mutex.started = 3 ∧
      ∃ more last, machine.run s more = some last ∧ last.mutex.semaphore.linked 1 = 1 ∧
        last.mutex.started = 1003 := by
  refine ⟨_, rfl, rfl, ?_⟩
  obtain ⟨more, last, ran, -, still, started, -⟩ :=
    waiting_can_be_overtaken 0 leftToRight queued _ (by decide) rfl 1 rfl 1000
  exact ⟨more, last, ran, still, started⟩

end Asioex.MutexRun
