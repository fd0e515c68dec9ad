import Asioex.SemaphoreRuns

/-!
# Order and conservation of grants

Each run of a semaphore is matched by a history of the ledger: an acquire is a
claim, a release serves or deposits, `release_all` is as many releases as there
are operations waiting, a cancellation withdraws the operation it finds, and the
destructor withdraws all of them. The ledger's fairness and balance then speak
about the posted completions, the counter and `value`.
-/

namespace Asioex.SemaphoreRun

/-- A posted completion settles its acquire: granted when it carries no error. -/
def settlement (completion : Completion) : Nat × Bool :=
  (completion.posted.handler.id, !completion.posted.ec.isSet)

/-- The ledger keeps the books of the run. -/
structure Accounts (s : SemaphoreRun) (ledger : Ledger) : Prop where
  fair : ledger.Fair
  queue : ∃ queue, s.semaphore.Represents queue ∧ queue.map (·.handler.id) = ledger.queue
  issued : ledger.issued = s.acquires
  settled : ledger.settled = s.log.map settlement
  released : ledger.released = s.releases + s.drained
  taken : ledger.taken = s.taken

theorem start_accounts (exec : Executor) (initialCount : Int) (valid : 0 ≤ initialCount) :
    (start exec initialCount).Accounts (Ledger.start initialCount.toNat) where
  fair := Ledger.start_fair _
  queue := ⟨_, Semaphore.create_represents exec initialCount valid, rfl⟩
  issued := rfl
  settled := rfl
  released := rfl
  taken := rfl

/-- The tickets that a drain posts, all settled in the same way. -/
theorem drained_settlements (s : Semaphore) (cause : Cause) (ec : ErrorCode) :
    ((Semaphore.drained ec s).2.2.map (fun posted => (⟨cause, posted⟩ : Completion))).map settlement =
      (s.waiters.map (·.handler.id)).map (·, !ec.isSet) := by
  simp [(Semaphore.drained_exact ec s).posted, settlement, Function.comp_def]

/-- Every admitted event is matched by ledger actions that keep the accounts. -/
theorem accounts_simulate : machine.Simulates Ledger.machine Accounts := by
  intro s event next ledger accounts stepped
  obtain ⟨admitted, rfl⟩ := step_eq.mp stepped
  obtain ⟨fair, ⟨queue, represents, image⟩, issued, settled, released, taken⟩ := accounts
  have tokens : ledger.queue.tokens = queue.tokens := by rw [← image]; rfl
  have line : ledger.queue.waiting = s.semaphore.waiters.map (·.handler.id) := by
    rw [← image, represents.waiters]
    rfl
  cases event with
  | asyncAcquire executor connected =>
    obtain ⟨representsNext, posted⟩ :=
      Semaphore.asyncAcquire_represents represents (s.handler executor connected)
    refine ⟨[.acquire], _, rfl, fair.run [.acquire] rfl, ⟨_, representsNext, ?_⟩,
      ?_, ?_, released, taken⟩
    · rw [TokenQueue.map_acquire, image, issued]
      rfl
    · simp [call, issued]
    · simp only [call, record, posted, settled, tokens, issued]
      split <;> simp [settlement, handler]
  | tryAcquire =>
    obtain ⟨representsNext, outcome⟩ := Semaphore.tryAcquire_represents represents
    refine ⟨[.take], _, rfl, fair.run [.take] rfl, ⟨_, representsNext, ?_⟩,
      issued, settled, released, ?_⟩
    · rw [TokenQueue.map_take, image]
    · by_cases free : queue.tokens = 0 <;> simp [call, outcome, tokens, free, taken]
  | release =>
    obtain ⟨representsNext, posted⟩ := Semaphore.release_represents represents
    refine ⟨[.release], _, rfl, fair.run [.release] rfl, ⟨_, representsNext, ?_⟩,
      issued, ?_, ?_, taken⟩
    · rw [TokenQueue.map_release, image]
    · simp [call, record, posted, settled, line, settlement, Function.comp_def]
    · simp only [call, record, released]
      omega
  | releaseAll =>
    refine ⟨_, _, ledger.run_release_all, fair.run _ ledger.run_release_all,
      ⟨_, Semaphore.drained_represents represents .success, ?_⟩, issued, ?_, ?_, taken⟩
    · rw [← image]
      rfl
    · have posted := drained_settlements s.semaphore .releaseAll .success
      simp only [ErrorCode.isSet_success, Bool.not_false] at posted
      simp only [call, record, Semaphore.releaseAll, List.map_append, settled, line, posted]
    · have rounds := (Semaphore.drained_exact .success s.semaphore).rounds
      simp only [call, record, Semaphore.releaseAll, rounds, released, line, List.length_map]
      omega
  | cancel ticket type =>
    rcases Semaphore.emit_cases represents.slots ticket type with
      unchanged | ⟨op, member, -, aborted⟩
    · have same : s.call (.cancel ticket type) = s := by simp [call, record, unchanged]
      rw [same]
      exact ⟨[], ledger, rfl, fair, ⟨queue, represents, image⟩, issued, settled, released, taken⟩
    · have waiting : op.handler.id ∈ ledger.queue.waiting := by
        rw [line]
        exact List.mem_map_of_mem member
      have distinct : (queue.waiting.map (·.handler.id)).Nodup := by
        have unique : ledger.queue.waiting.Nodup := fair.sorted.imp Nat.ne_of_lt
        rwa [line, represents.waiters] at unique
      have stepped : Ledger.machine.run ledger [.withdraw op.handler.id] =
          some { ledger with
            queue := ledger.queue.withdraw op.handler.id
            settled := ledger.settled ++ [(op.handler.id, false)] } := by
        simp [Machine.run, Ledger.machine, Ledger.step, waiting]
      refine ⟨_, _, stepped, fair.run _ stepped,
        ⟨queue.withdraw op, ?_, ?_⟩, issued, ?_, released, taken⟩
      · simp only [call, record, aborted]
        exact Semaphore.complete_represents represents .operationAborted
      · rw [TokenQueue.map_withdraw _ _ _ (represents.waiters ▸ member) distinct, image]
      · simp [call, record, aborted, settled, settlement]
  | destroy =>
    refine ⟨_, _, ledger.run_withdraw_all, fair.run _ ledger.run_withdraw_all,
      ⟨_, Semaphore.drained_represents represents .operationAborted, ?_⟩, issued, ?_, released, taken⟩
    · rw [← image]
      rfl
    · have posted := drained_settlements s.semaphore .destructor .operationAborted
      simp only [ErrorCode.isSet_operationAborted, Bool.not_true] at posted
      simp only [call, record, Semaphore.destroy, List.map_append, settled, line, posted]

/-- The books of a whole run. -/
theorem run_accounts (exec : Executor) (initialCount : Int) (valid : 0 ≤ initialCount)
    {events : List Event} {last : SemaphoreRun}
    (ran : machine.run (start exec initialCount) events = some last) :
    ∃ ledger, last.Accounts ledger ∧ ledger.Balanced initialCount.toNat := by
  obtain ⟨actions, ledger, matched, accounts⟩ :=
    accounts_simulate.run (start_accounts exec initialCount valid) ran
  exact ⟨ledger, accounts, Ledger.run_balanced initialCount.toNat matched⟩

/-- No completion comes from the destructor before it has run. -/
def Undestroyed (s : SemaphoreRun) : Prop :=
  s.alive = true → ∀ completion ∈ s.log, completion.cause ≠ .destructor

theorem step_undestroyed (s : SemaphoreRun) (event : Event) (next : SemaphoreRun)
    (earlier : s.Undestroyed) (stepped : machine.step s event = some next) :
    next.Undestroyed := by
  obtain ⟨-, rfl⟩ := step_eq.mp stepped
  have recorded (cause : Cause) (result : Semaphore × List Posted) (other : cause ≠ .destructor) :
      (s.record cause result).Undestroyed := by
    intro alive completion member
    rcases List.mem_append.mp member with old | new
    · exact earlier alive completion old
    · obtain ⟨item, -, rfl⟩ := List.mem_map.mp new
      exact other
  cases event with
  | asyncAcquire executor connected => exact recorded .count _ (by decide)
  | tryAcquire => exact earlier
  | release => exact recorded .release _ (by decide)
  | releaseAll => exact recorded .releaseAll _ (by decide)
  | cancel ticket type => exact recorded .cancellation _ (by decide)
  | destroy =>
    intro alive
    exact absurd alive (by simp [call])

theorem run_undestroyed (exec : Executor) (initialCount : Int) {events : List Event}
    {last : SemaphoreRun} (ran : machine.run (start exec initialCount) events = some last) :
    last.Undestroyed :=
  machine.run_invariant step_undestroyed (by simp [Undestroyed, start]) ran

/-- In a run without a destructor, a completion that is not a success was posted
by a cancellation. -/
theorem cancelled_of_isSet {s : SemaphoreRun} (settled : s.Settled)
    (undestroyed : ∀ completion ∈ s.log, completion.cause ≠ .destructor)
    {completion : Completion} (member : completion ∈ s.log) :
    completion.posted.ec.isSet = (completion.cause == .cancellation) := by
  have other := undestroyed completion member
  rw [settled.codes completion member]
  cases cause : completion.cause <;> first | rfl | exact absurd cause other

/-- The immediate grant and `try_acquire` look only at the counter. They cannot
pass an operation that waits, because the counter is then zero. -/
theorem tryAcquire_none_waiting {s : SemaphoreRun} (settled : s.Settled)
    (acquired : s.semaphore.tryAcquire.1 = true) (ticket : Nat) :
    s.semaphore.linked ticket = 0 := by
  obtain ⟨queue, represents⟩ := settled.represents
  have free : queue.tokens ≠ 0 := (Semaphore.tryAcquire_represents represents).2.mp acquired
  simp [Semaphore.linked, represents.waiters, queue.waiting_of_tokens free]

/-- Strict first-come first-served order while the semaphore exists. When a grant
is posted, every earlier acquire has already been granted or cancelled; a true
`try_acquire` finds no acquire waiting; grants increase in initiation order. -/
theorem strict_fifo (exec : Executor) (initialCount : Int) (valid : 0 ≤ initialCount)
    (events : List Event) (s : SemaphoreRun)
    (ran : machine.run (start exec initialCount) events = some s) (alive : s.alive = true) :
    (∀ before grant after, s.log = before ++ grant :: after → grant.posted.ec = .success →
      ∀ earlier < grant.posted.handler.id, ∃ ended ∈ before,
        ended.posted.handler.id = earlier ∧
          (ended.posted.ec = .success ∨ ended.cause = .cancellation)) ∧
    (s.semaphore.tryAcquire.1 = true → ∀ ticket, s.semaphore.linked ticket = 0) ∧
    ((s.log.filter (fun completion => !completion.posted.ec.isSet)).map
      (·.posted.handler.id)).Pairwise (· < ·) := by
  have settled : s.Settled := run_settled exec initialCount valid ran
  have undestroyed := run_undestroyed exec initialCount ran alive
  obtain ⟨ledger, accounts, -⟩ := run_accounts exec initialCount valid ran
  refine ⟨?_, tryAcquire_none_waiting settled, ?_⟩
  · intro before grant after split success earlier below
    have grants : settlement grant = (grant.posted.handler.id, true) := by simp [settlement, success]
    have ordered := accounts.fair.ordered (before.map settlement) grant.posted.handler.id
      (after.map settlement) (by rw [accounts.settled, split]; simp [grants]) earlier below
    simp only [List.map_map, List.mem_map, Function.comp_apply, settlement] at ordered
    obtain ⟨ended, inside, same⟩ := ordered
    have logged : ended ∈ s.log := by
      rw [split]
      exact List.mem_append_left _ inside
    refine ⟨ended, inside, same, ?_⟩
    have code := cancelled_of_isSet settled undestroyed logged
    by_cases cause : ended.cause = .cancellation
    · exact .inr cause
    · left
      by_contra failed
      rw [(ErrorCode.isSet_iff _).mpr failed] at code
      exact cause (by simpa using code.symm)
  · have increasing := accounts.fair.increasing
    rw [accounts.settled, Ledger.granted, List.filter_map, List.map_map] at increasing
    exact increasing

/-- Two acquires wait, the later one is cancelled, a third arrives, and releases
serve the line before a token becomes free. -/
def queueing : List Event :=
  [.asyncAcquire none true, .asyncAcquire none true, .cancel 1 .terminal,
    .asyncAcquire none false, .tryAcquire, .release, .release, .release, .tryAcquire]

theorem strict_fifo_queueing :
    ∃ s, machine.run (start 0 0) queueing = some s ∧
      s.log.map (fun done => (done.posted.handler.id, done.cause)) =
        [(1, .cancellation), (0, .release), (2, .release)] ∧
      ((s.log.filter (fun completion => !completion.posted.ec.isSet)).map
        (·.posted.handler.id)).Pairwise (· < ·) := by
  refine ⟨_, rfl, rfl, ?_⟩
  exact (strict_fifo 0 0 (by decide) queueing _ rfl rfl).2.2

/-- Values and tokens are accounted for exactly while the semaphore exists and its
ring fits an `int`, so that the conversion in `value` changes nothing and its
subtraction does not overflow. -/
theorem value_accounting (exec : Executor) (initialCount : Int) (valid : 0 ≤ initialCount)
    (events : List Event) (s : SemaphoreRun)
    (ran : machine.run (start exec initialCount) events = some s) (alive : s.alive = true)
    (fits : s.semaphore.waiters.length ≤ Semaphore.intMax) :
    s.semaphore.value = some (initialCount + s.releases + s.drained - s.taken - s.acquires +
        (s.log.filter (·.cause == .cancellation)).length) ∧
      0 ≤ s.semaphore.count ∧ s.semaphore.asserted = true ∧
      (s.log.filter (fun completion => !completion.posted.ec.isSet)).length + s.taken +
        s.semaphore.count = initialCount + s.releases + s.drained := by
  have settled : s.Settled := run_settled exec initialCount valid ran
  have undestroyed := run_undestroyed exec initialCount ran alive
  obtain ⟨ledger, accounts, balanced⟩ := run_accounts exec initialCount valid ran
  obtain ⟨queue, represents, image⟩ := accounts.queue
  have initial : (initialCount.toNat : Int) = initialCount := Int.toNat_of_nonneg valid
  have tokens : ledger.queue.tokens = queue.tokens := by rw [← image]; rfl
  have value : ledger.queue.value = queue.value := by
    simp [← image, TokenQueue.value]
  have withdrawn : (ledger.settled.filter (fun entry => !entry.2)).length =
      (s.log.filter (·.cause == .cancellation)).length := by
    rw [accounts.settled, List.filter_map, List.length_map]
    congr 1
    refine List.filter_congr (fun completion member => ?_)
    simp [settlement, cancelled_of_isSet settled undestroyed member]
  have granted : (Ledger.granted ledger.settled).length =
      (s.log.filter (fun completion => !completion.posted.ec.isSet)).length := by
    rw [accounts.settled, Ledger.granted, List.filter_map, List.length_map, List.length_map]
    rfl
  have total := balanced.value
  have spent := balanced.tokens
  have released := accounts.released
  have taken := accounts.taken
  have issued := accounts.issued
  have counted := represents.count
  refine ⟨?_, by omega, represents.asserted, by omega⟩
  rw [Semaphore.value_represents represents fits, ← value, total, withdrawn]
  congr 1
  omega

theorem value_accounting_queueing :
    ∃ s, machine.run (start 0 0) queueing = some s ∧ s.taken = 1 ∧ s.semaphore.value = some 0 ∧
      s.semaphore.value = some (0 + s.releases + s.drained - s.taken - s.acquires +
        (s.log.filter (·.cause == .cancellation)).length : Int) := by
  refine ⟨_, rfl, rfl, rfl, ?_⟩
  exact (value_accounting 0 0 (by decide) queueing _ rfl rfl (by decide)).1

end Asioex.SemaphoreRun
