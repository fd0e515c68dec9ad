import Asioex.Mutex

/-!
# Exclusion and progress of the mutex

Without `try_lock` the flag has one owner at most: the operation whose test passed
and that has not unlocked. A passing test needs the flag clear and sets it, and an
unlock is admitted only to a client that was told, which is then the owner. The
stale grants of the semaphore play no part, since a grant alone passes no test.

No wake-up is lost either. A linked operation is accounted for by the flag, or by
a granted operation that is posted: an unlock that finds a waiting operation posts
one, and running one leaves the flag set, whoever got there first.

With `try_lock` exclusion is lost, since the call returns the old value of the
flag. The properties that tie the flag to what the clients were told hold in
exactly the runs that never call it.
-/

namespace Asioex.MutexRun

/-- Who holds: an operation from its pass, a caller from its answer, until unlocking. -/
def Holds (s : MutexRun) : Client → Prop
  | .operation p => s.unlocked.count (.operation p) < s.mutex.passed.count p
  | .caller k => s.answers[k]? = some true ∧ .caller k ∉ s.unlocked

/-- The flag has this owner, or none. Passes and unlocks pair off but for the pass
of the owner, nobody called `try_lock`, and who unlocked had been told. -/
structure Exclusive (s : MutexRun) (owner : Option Nat) : Prop where
  locked : s.mutex.locked = owner.isSome
  passes : ∀ p, s.mutex.passed.count p =
    s.unlocked.count (.operation p) + if owner = some p then 1 else 0
  answers : s.answers = []
  told : ∀ client ∈ s.unlocked, s.told client = true

theorem start_exclusive (exec : Executor) (order : Nat → PostOrder) :
    (start exec order).Exclusive none where
  locked := rfl
  passes := by simp [start, Mutex.create, ComposedWait.create]
  answers := rfl
  told := by simp [start]

namespace Exclusive

variable {s : MutexRun} {owner : Option Nat}

/-- The owner of the flag is the one operation that holds. -/
theorem holds_operation (exclusive : s.Exclusive owner) (p : Nat) :
    s.Holds (.operation p) ↔ owner = some p := by
  have passes := exclusive.passes p
  simp only [Holds, passes]
  by_cases mine : owner = some p <;> simp [mine]

/-- Nobody holds but the owner of the flag. -/
theorem holds_iff (exclusive : s.Exclusive owner) (client : Client) :
    s.Holds client ↔ ∃ p, client = .operation p ∧ owner = some p := by
  cases client with
  | operation p => simp [exclusive.holds_operation p]
  | caller k => simp [Holds, exclusive.answers]

/-- A client that was told and has not unlocked is the owner. -/
theorem owner_of_told (exclusive : s.Exclusive owner) (locking : s.Locking) {client : Client}
    (told : s.told client = true) (still : client ∉ s.unlocked) :
    ∃ p, client = .operation p ∧ owner = some p := by
  cases client with
  | caller k => simp [MutexRun.told, exclusive.answers] at told
  | operation p =>
    have invoked : (p, ErrorCode.success) ∈ s.mutex.invoked := by simpa [MutexRun.told] using told
    have attempt := locking.uses p (locking.sound.bound_of_invoked invoked)
    have passed : p ∈ s.mutex.passed :=
      locking.sound.passed_of_succeeded (by rw [attempt]; rfl) invoked
    refine ⟨p, rfl, (exclusive.holds_operation p).mp ?_⟩
    change s.unlocked.count (.operation p) < s.mutex.passed.count p
    rw [List.count_eq_zero_of_not_mem still]
    exact List.count_pos_iff.mpr passed

/-- A step that tests the flag, and changes it in no other way, keeps one owner. -/
theorem tested (exclusive : s.Exclusive owner) {mutex : Mutex}
    (locking : ({ s with mutex := mutex } : MutexRun).Locking)
    (tested : ComposedWait.Tested s.mutex mutex)
    (invoked : s.mutex.invoked <+: mutex.invoked) :
    ∃ owner', ({ s with mutex := mutex } : MutexRun).Exclusive owner' := by
  have told : ∀ client ∈ s.unlocked, ({ s with mutex := mutex } : MutexRun).told client = true := by
    intro client member
    have before := exclusive.told client member
    cases client with
    | caller k => exact before
    | operation p =>
      simp only [MutexRun.told, decide_eq_true_eq] at before ⊢
      exact invoked.subset before
  cases tested with
  | untouched gate passed =>
    refine ⟨owner, gate.trans exclusive.locked, fun p => ?_, exclusive.answers, told⟩
    change mutex.passed.count p = _
    rw [passed]
    exact exclusive.passes p
  | passes p attempt tested opened passed =>
    have bound : p < mutex.started :=
      locking.sound.bound_of_passed (by change p ∈ mutex.passed; rw [passed]; simp)
    obtain rfl : attempt = Mutex.lockAttempt :=
      Option.some.inj (tested.symm.trans (locking.uses p bound))
    obtain ⟨clear, set⟩ := Mutex.lockAttempt_passes opened
    have free : owner = none := by
      have flag := exclusive.locked
      rw [Mutex.locked, clear] at flag
      simpa using flag.symm
    refine ⟨some p, set, fun q => ?_, exclusive.answers, told⟩
    have before := exclusive.passes q
    change mutex.passed.count q = s.unlocked.count (.operation q) + _
    rw [passed, List.count_append, List.count_singleton, before, free]
    simp

end Exclusive

/-- Every step but a `try_lock` keeps one owner at most. -/
theorem step_exclusive {s next : MutexRun} {event : Event} {owner : Option Nat}
    (locking : s.Locking) (exclusive : s.Exclusive owner) (other : event ≠ .tryLock)
    (stepped : machine.step s event = some next) : ∃ owner', next.Exclusive owner' := by
  have lockingNext := step_locking s event next locking stepped
  have invoked := ComposedWait.run_invoked (step_moves stepped)
  cases event with
  | asyncLock executor connected =>
    obtain rfl := Option.some.inj stepped
    exact exclusive.tested lockingNext (s.mutex.initiate_tested executor connected _) invoked
  | tryLock => exact absurd rfl other
  | unlock client =>
    obtain ⟨⟨told, still⟩, rfl⟩ := step_unlock.mp stepped
    obtain ⟨p, rfl, rfl⟩ := exclusive.owner_of_told locking told still
    refine ⟨none, rfl, fun q => ?_, exclusive.answers, fun client member => ?_⟩
    · have before := exclusive.passes q
      change s.mutex.passed.count q =
        (s.unlocked ++ [Client.operation p]).count (Client.operation q) + 0
      rw [before, List.count_append, List.count_singleton]
      simp
    · rcases List.mem_append.mp member with old | new
      · exact exclusive.told client old
      · obtain rfl := List.mem_singleton.mp new
        exact told
  | cancel p type =>
    obtain ⟨mutex, moved, rfl⟩ := Option.map_eq_some_iff.mp stepped
    exact exclusive.tested lockingNext (ComposedWait.step_tested (by simp) moved) invoked
  | run k =>
    obtain ⟨mutex, moved, rfl⟩ := Option.map_eq_some_iff.mp stepped
    exact exclusive.tested lockingNext (ComposedWait.step_tested (by simp) moved) invoked

/-- What holds of the mutex until somebody calls `try_lock`. -/
def Guarded (s : MutexRun) : Prop := s.Locking ∧ ∃ owner, s.Exclusive owner

theorem start_guarded (exec : Executor) (order : Nat → PostOrder) : (start exec order).Guarded :=
  ⟨start_locking exec order, none, start_exclusive exec order⟩

theorem step_guarded (s : MutexRun) (event : Event) (next : MutexRun) (guarded : s.Guarded)
    (stepped : machine.step s event = some next) (other : event ≠ .tryLock) : next.Guarded := by
  obtain ⟨locking, owner, exclusive⟩ := guarded
  exact ⟨step_locking s event next locking stepped,
    step_exclusive locking exclusive other stepped⟩

theorem run_guarded (exec : Executor) (order : Nat → PostOrder) {events : List Event} {s : MutexRun}
    (untried : .tryLock ∉ events) (ran : machine.run (start exec order) events = some s) :
    s.Guarded := by
  refine machine.run_invariant_along step_guarded (start_guarded exec order) ?_ ran
  refine (machine.along_events ran).mpr (fun event member => ?_)
  rintro rfl
  exact untried member

/-- An invocation with success is the owner's: had it unlocked, it would have been
told before, and its handler would now have been invoked twice. -/
theorem holds_of_succeeds {s next : MutexRun} {event : Event} {owner : Option Nat}
    (locking : s.Locking) (exclusive : s.Exclusive owner) (other : event ≠ .tryLock)
    (stepped : machine.step s event = some next) {p : Nat}
    (succeeds : s.mutex.succeeded p < next.mutex.succeeded p) : next.Holds (.operation p) := by
  have lockingNext := step_locking s event next locking stepped
  obtain ⟨owner', exclusiveNext⟩ := step_exclusive locking exclusive other stepped
  have invoked : (p, ErrorCode.success) ∈ next.mutex.invoked :=
    List.count_pos_iff.mp (Nat.lt_of_le_of_lt (Nat.zero_le _) succeeds)
  have told : next.told (.operation p) = true := by simpa [MutexRun.told] using invoked
  have still : Client.operation p ∉ next.unlocked := by
    intro unlocked
    have once := (lockingNext.sound.once p).1
    have within := next.mutex.succeeded_le_finished p
    have before : (p, ErrorCode.success) ∉ s.mutex.invoked := by
      intro earlier
      have positive : 0 < s.mutex.succeeded p := List.count_pos_iff.mpr earlier
      omega
    have unlockedBefore : Client.operation p ∈ s.unlocked ∨ event = .unlock (.operation p) := by
      cases event with
      | asyncLock executor connected =>
        obtain rfl := Option.some.inj stepped
        exact .inl unlocked
      | tryLock => exact absurd rfl other
      | unlock client =>
        obtain ⟨-, rfl⟩ := step_unlock.mp stepped
        rcases List.mem_append.mp unlocked with old | new
        · exact .inl old
        · exact .inr (by rw [List.mem_singleton.mp new])
      | cancel q type =>
        obtain ⟨mutex, -, rfl⟩ := Option.map_eq_some_iff.mp stepped
        exact .inl unlocked
      | run k =>
        obtain ⟨mutex, -, rfl⟩ := Option.map_eq_some_iff.mp stepped
        exact .inl unlocked
    rcases unlockedBefore with old | rfl
    · exact before (by simpa [MutexRun.told] using exclusive.told _ old)
    · exact before (by simpa [MutexRun.told] using (step_unlock.mp stepped).1.1)
  obtain ⟨q, same, owns⟩ := exclusiveNext.owner_of_told lockingNext told still
  obtain rfl : p = q := by simpa using same
  exact (exclusiveNext.holds_operation p).mpr owns

/-- In every run of `async_lock`, `unlock`, cancellations and executor steps, at
most one operation holds, the flag is set exactly while one does, no handler is
invoked twice, and a success reaches only the operation that then holds. -/
theorem mutual_exclusion (exec : Executor) (order : Nat → PostOrder) (events : List Event)
    (s : MutexRun) (untried : .tryLock ∉ events)
    (ran : machine.run (start exec order) events = some s) :
    (∀ p q, s.Holds (.operation p) → s.Holds (.operation q) → p = q) ∧
    (s.mutex.locked = true ↔ ∃ p, s.Holds (.operation p)) ∧
    (∀ p, s.mutex.finished p ≤ 1) ∧
    (∀ event next, event ≠ .tryLock → machine.step s event = some next →
      ∀ p, s.mutex.succeeded p < next.mutex.succeeded p → next.Holds (.operation p)) := by
  obtain ⟨locking, owner, exclusive⟩ := run_guarded exec order untried ran
  refine ⟨fun p q first second => ?_, ?_, fun p => (locking.sound.once p).1,
    fun event next other stepped p succeeds =>
      holds_of_succeeds locking exclusive other stepped succeeds⟩
  · have owns := (exclusive.holds_operation p).mp first
    rw [(exclusive.holds_operation q).mp second] at owns
    exact (Option.some.inj owns).symm
  · rw [exclusive.locked, Option.isSome_iff_exists]
    exact exists_congr (fun p => (exclusive.holds_operation p).symm)

/-- A stale grant, a barging operation and a cancelled one, with three unlocks. -/
def contended : List Event :=
  [.asyncLock none true, .asyncLock none true, .run 1, .asyncLock (some 3) true, .run 0,
    .unlock (.operation 0), .asyncLock none false, .run 0, .cancel 2 .terminal, .run 0]

theorem mutual_exclusion_contended :
    ∃ s, machine.run (start 0 leftToRight) contended = some s ∧ s.mutex.locked = true ∧
      s.mutex.passed = [0, 3] ∧ (∀ p q, s.Holds (.operation p) → s.Holds (.operation q) → p = q) := by
  refine ⟨_, rfl, rfl, rfl, ?_⟩
  exact (mutual_exclusion 0 leftToRight contended _ (by decide) rfl).1

/-- Somebody granted by the semaphore is posted and has not run. -/
def Woken (s : Mutex) : Prop := ∃ job ∈ s.queue, job.call = .resume .success

/-- A waiting operation has an unlock or a granted operation to wait for. -/
def Attended (s : Mutex) : Prop :=
  s.semaphore.waiters ≠ [] → s.locked = true ∨ Woken s

/-- Ending waits while the flag stays, with nothing taken off the queue. -/
theorem Attended.enqueue {s : Mutex} (attended : Attended s) {ec : ErrorCode}
    {result : Semaphore × List Posted} (completes : s.semaphore.Completes ec result.1 result.2) :
    Attended (s.enqueue result) := by
  intro waiting
  have before : s.semaphore.waiters ≠ [] := by
    intro vacant
    exact waiting (List.sublist_nil.mp (vacant ▸ completes.remaining))
  rcases attended before with locked | ⟨job, member, granted⟩
  · exact .inl locked
  · exact .inr ⟨job, List.mem_append_left _ member, granted⟩

/-- An unlock that leaves somebody waiting has posted the oldest operation. -/
theorem attended_unlock {s : Mutex} (sound : s.Sound) : Attended s.unlock := by
  obtain ⟨queue, represents⟩ := sound.consistent.represents
  intro waiting
  have posted := (Semaphore.release_represents represents).2
  cases line : s.semaphore.waiters with
  | nil =>
    have remaining := s.semaphore.release_completes.remaining
    rw [line] at remaining
    exact absurd (List.sublist_nil.mp remaining) waiting
  | cons op rest =>
    refine .inr ⟨⟨op.executor, op.handler.id, .resume .success⟩, ?_, rfl⟩
    refine List.mem_append_right _ (List.mem_map.mpr ⟨⟨op.executor, op.handler, .success⟩, ?_, rfl⟩)
    change _ ∈ s.semaphore.release.2
    simp [posted, line]

/-- Running a function that grants nothing neither takes a grant off the queue nor
starts a wait; running a granted operation leaves the flag set. -/
theorem attended_execute {s : Mutex} (sound : s.Sound)
    (uses : s.Uses (· = some Mutex.lockAttempt)) (attended : Attended s) {k : Nat} {job : Job}
    (queued : s.queue[k]? = some job) : Attended ((s.dequeue k).execute job) := by
  have inHand := sound.consistent.dequeue queued
  have attempt : ((s.dequeue k).ops job.op).attempt = some Mutex.lockAttempt :=
    uses job.op inHand.held_bound.1
  by_cases granted : job.call = .resume .success
  · intro _
    simp only [ComposedWait.execute, granted, ComposedWait.resume, attempt]
    exact .inl (Mutex.body_locks _ _)
  · have remains : Woken s → Woken (s.dequeue k) := by
      rintro ⟨other, member, woken⟩
      rcases List.mem_cons.mp ((s.dequeue_perm queued).mem_iff.mpr member) with rfl | kept
      · exact absurd woken granted
      · exact ⟨other, kept, woken⟩
    have idle : Attended (s.dequeue k) := fun waiting => (attended waiting).imp_right remains
    cases call : job.call with
    | finish =>
      simp only [ComposedWait.execute, call]
      exact idle
    | resume ec =>
      have error : ec.isSet = true := (ErrorCode.isSet_iff ec).mpr (by
        rintro rfl
        exact granted call)
      simp only [ComposedWait.execute, call, ComposedWait.resume, attempt, ComposedWait.body, error,
        ↓reduceIte]
      exact idle

/-- Every step attends to the waiting operations. -/
theorem step_attended (s : MutexRun) (event : Event) (next : MutexRun)
    (invariant : s.Locking ∧ Attended s.mutex) (stepped : machine.step s event = some next) :
    next.Locking ∧ Attended next.mutex := by
  obtain ⟨locking, attended⟩ := invariant
  refine ⟨step_locking s event next locking stepped, ?_⟩
  obtain ⟨queue, represents⟩ := locking.sound.consistent.represents
  cases event with
  | asyncLock executor connected =>
    obtain rfl := Option.some.inj stepped
    exact fun _ => .inl (Mutex.body_locks _ _)
  | tryLock =>
    obtain rfl := Option.some.inj stepped
    exact fun _ => .inl rfl
  | unlock client =>
    obtain ⟨-, rfl⟩ := step_unlock.mp stepped
    exact attended_unlock locking.sound
  | cancel p type =>
    obtain ⟨mutex, moved, rfl⟩ := Option.map_eq_some_iff.mp stepped
    obtain ⟨-, rfl⟩ := ComposedWait.step_cancel.mp moved
    change Attended (s.mutex.cancel p type)
    rcases s.mutex.cancel_emits p type with same | ⟨signalled, received, same⟩ <;> rw [same]
    · exact attended
    · exact Attended.enqueue (s := { s.mutex with signalled := signalled }) attended
        (Semaphore.emit_completes represents.slots p received)
  | run k =>
    obtain ⟨mutex, moved, rfl⟩ := Option.map_eq_some_iff.mp stepped
    obtain ⟨job, queued, rfl⟩ := Option.map_eq_some_iff.mp moved
    exact attended_execute locking.sound locking.uses attended queued

/-- A linked operation always has an unlock to come or a granted operation posted:
the mutex is never free and idle with a client waiting. -/
theorem no_lost_wakeup (exec : Executor) (order : Nat → PostOrder) (events : List Event)
    (s : MutexRun) (ran : machine.run (start exec order) events = some s) :
    (∀ p, 0 < s.mutex.semaphore.linked p →
      s.mutex.locked = true ∨ ∃ job ∈ s.mutex.queue, job.call = .resume .success) ∧
    ¬(s.mutex.locked = false ∧ s.mutex.queue = [] ∧ ∃ p, 0 < s.mutex.semaphore.linked p) := by
  have vacant : Attended (start exec order).mutex := fun waiting => absurd rfl waiting
  obtain ⟨-, attended⟩ := machine.run_invariant step_attended ⟨start_locking exec order, vacant⟩ ran
  have waits (p : Nat) (linked : 0 < s.mutex.semaphore.linked p) :
      s.mutex.locked = true ∨ Woken s.mutex := by
    obtain ⟨op, member, -⟩ := List.countP_pos_iff.mp linked
    exact attended (List.ne_nil_of_mem member)
  refine ⟨waits, ?_⟩
  rintro ⟨free, idle, p, linked⟩
  rcases waits p linked with locked | ⟨job, member, -⟩
  · exact absurd (free.symm.trans locked) (by decide)
  · rw [idle] at member
    exact absurd member List.not_mem_nil

/-- A newcomer takes the lock between an unlock and the run of the operation that
the unlock woke, which then waits again. -/
def barging : List Event :=
  [.asyncLock none true, .asyncLock none true, .run 1, .run 0, .unlock (.operation 0),
    .asyncLock none true, .run 0]

theorem no_lost_wakeup_barging :
    ∃ s, machine.run (start 0 leftToRight) barging = some s ∧ s.mutex.semaphore.linked 1 = 1 ∧
      (∀ p, 0 < s.mutex.semaphore.linked p →
        s.mutex.locked = true ∨ ∃ job ∈ s.mutex.queue, job.call = .resume .success) := by
  refine ⟨_, rfl, rfl, ?_⟩
  exact (no_lost_wakeup 0 leftToRight barging _ rfl).1

end Asioex.MutexRun
