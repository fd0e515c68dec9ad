import Asioex.ComposedSteps
import Asioex.MutexExclusion

/-!
# The tokens of a mutex

`unlock` releases a token whether anybody waits or not, and `async_lock` takes one only
when it finds the mutex locked. The semaphore of a mutex starts with the default count
of one, where that of a condition variable starts with none. The tokens that lie in the
counter are the first one and those of uncontended unlocks, less those that waiting
operations took: the counter is a function of the whole history of contention.

The account is exact: the counter overflows in the first unlock that finds that many
tokens more released than taken.
-/

namespace Asioex

namespace Semaphore

/-- The tokens in the counter, less the operations that wait for one. -/
def balance (s : Semaphore) : Int := s.count - s.waiters.length

/-- Every acquire takes a token, or waits for one. -/
theorem asyncAcquire_balance (s : Semaphore) (handler : Handler) :
    (s.asyncAcquire handler).1.balance = s.balance - 1 := by
  by_cases granted : s.count ≠ 0
  · simp only [asyncAcquire, granted, ne_eq, not_false_eq_true, ↓reduceIte, decrement, balance]
    omega
  · simp only [asyncAcquire, granted, ↓reduceIte, addWaiter_waiters, addWaiter_count,
      construct_waiters, construct_count, balance, List.length_append, List.length_singleton]
    omega

/-- Every release leaves a token, or serves an operation that waited for one. -/
theorem release_balance (s : Semaphore) : s.release.1.balance = s.balance + 1 := by
  cases line : s.waiters with
  | nil =>
    simp only [release, increment, line, balance]
    omega
  | cons op rest =>
    simp only [release, increment, decrement, line, balance, complete_count, complete_waiters,
      List.erase_cons_head, List.length_cons]
    omega

/-- An emission changes the balance by the waits that it ends. -/
theorem emit_balance (s : Semaphore) (slot : Slot) (type : CancellationType) :
    (s.emit slot type).1.balance =
      s.balance + (s.waiters.length - (s.emit slot type).1.waiters.length : Nat) := by
  have shorter : ((s.emit slot type).1.waiters.length ≤ s.waiters.length) ∧
      (s.emit slot type).1.count = s.count := by
    cases assigned : s.slots slot with
    | none => simp [emit, assigned]
    | some op =>
      by_cases heard : type.meets (.terminal ||| .partially ||| .total) = true
      · simp only [emit, assigned, cancellationHandler, heard, ↓reduceIte, complete_waiters,
          complete_count, and_true]
        exact (List.erase_sublist).length_le
      · simp [emit, assigned, cancellationHandler, heard]
  obtain ⟨shorter, same⟩ := shorter
  simp only [balance, same]
  omega

end Semaphore

/-- A failing test of `async_lock` found the flag set. -/
theorem Mutex.lockAttempt_fails {locked : Bool} (closed : Mutex.lockAttempt locked = none) :
    locked = true := by
  cases locked
  · simp [Mutex.lockAttempt] at closed
  · rfl

/-- An `async_lock` that finds the flag clear sets it and posts its completion. -/
theorem Mutex.asyncLock_free {s : Mutex} (free : s.locked = false) {executor : Option Executor}
    {connected : Bool} : s.asyncLock executor connected =
      ((s.register executor connected (some Mutex.lockAttempt)).pass s.started true).postFinish
        s.started := by
  have gate : s.gate = false := free
  simp [Mutex.asyncLock, ComposedWait.initiate, ComposedWait.body, gate, Mutex.lockAttempt,
    ComposedWait.register]

/-- An `unlock` that nobody waits for leaves its token in the counter. -/
theorem Mutex.unlock_vacant {s : Mutex} (vacant : s.semaphore.waiters = []) :
    s.unlock = (s.setGate false).enqueue (s.semaphore.increment, []) := by
  have left : s.semaphore.release = (s.semaphore.increment, []) := by
    simp [Semaphore.release, vacant]
  rw [← left]
  rfl

/-- The lambda of `async_lock`, called without an error, acquires exactly where it finds
the flag set. -/
theorem Mutex.body_balance (s : Mutex) (p : Nat) :
    Semaphore.balance (s.body Mutex.lockAttempt p .success).semaphore + (if s.locked then 1 else 0) =
      s.semaphore.balance := by
  rcases ComposedWait.body_cases Mutex.lockAttempt s p .success with
    ⟨error, -⟩ | ⟨gate, -, opened, passes | passes⟩ | ⟨-, closed, waits⟩
  · simp at error
  · have free : s.locked = false := (Mutex.lockAttempt_passes opened).1
    rw [passes, free]
    exact Int.add_zero _
  · have free : s.locked = false := (Mutex.lockAttempt_passes opened).1
    rw [passes, free]
    exact Int.add_zero _
  · have taken : s.locked = true := Mutex.lockAttempt_fails closed
    have spent := s.semaphore.asyncAcquire_balance ((s.suspend p).ops p).self
    rw [waits, taken]
    change (s.semaphore.asyncAcquire _).1.balance + 1 = _
    omega

/-- A mutex with its clients, and the history of its tokens: the operations that called
`async_acquire`, once for each call, the number of waits that cancellations ended, and
for each operation the number of unlocks while it was outstanding. -/
structure TokenRun where
  locks : MutexRun
  acquired : List Nat
  cancelled : Nat
  during : Nat → Nat

namespace TokenRun

open MutexRun (Event)

def start (exec : Executor) (order : Nat → PostOrder) : TokenRun :=
  ⟨.start exec order, [], 0, fun _ => 0⟩

/-- The operation that an event makes call `async_acquire`: the lambda of `async_lock`
finds the mutex locked, in the initiating function or resumed by the executor. -/
def acquirer (s : MutexRun) : Event → Option Nat
  | .asyncLock .. => if s.mutex.locked then some s.mutex.started else none
  | .run k =>
    match s.mutex.queue[k]? with
    | some job => if job.call = .resume .success ∧ s.mutex.locked then some job.op else none
    | none => none
  | _ => none

/-- The waits that an event ends by cancelling them. -/
def cancels (s next : MutexRun) : Event → Nat
  | .cancel .. => s.mutex.semaphore.waiters.length - next.mutex.semaphore.waiters.length
  | _ => 0

/-- Whether an event is an unlock, as a number. -/
def unlocks : Event → Nat
  | .unlock _ => 1
  | _ => 0

def step (s : TokenRun) (event : Event) : Option TokenRun :=
  (MutexRun.machine.step s.locks event).map (fun next =>
    { locks := next
      acquired := s.acquired ++ (acquirer s.locks event).toList
      cancelled := s.cancelled + cancels s.locks next event
      during := fun p => s.during p +
        if p < s.locks.mutex.started ∧ s.locks.mutex.finished p = 0 then unlocks event else 0 })

def machine : Machine TokenRun Event := ⟨step⟩

theorem step_locks {s next : TokenRun} {event : Event} (stepped : machine.step s event = some next) :
    MutexRun.machine.step s.locks event = some next.locks := by
  obtain ⟨locks, moved, rfl⟩ := Option.map_eq_some_iff.mp stepped
  exact moved

/-- What one event does to the balance of the semaphore.

Proof: the lambda acquires exactly where its test fails, which is where it finds the
flag set; a release and a cancellation are the semaphore's own operations. -/
theorem step_balance {s next : MutexRun} {event : Event} (locking : s.Locking)
    (stepped : MutexRun.machine.step s event = some next) :
    next.mutex.semaphore.balance + (acquirer s event).toList.length =
      s.mutex.semaphore.balance + unlocks event + cancels s next event := by
  cases event with
  | asyncLock executor connected =>
    obtain rfl := Option.some.inj stepped
    have spent := Mutex.body_balance
      (s.mutex.register executor connected (some Mutex.lockAttempt)) s.mutex.started
    change (s.mutex.asyncLock executor connected).semaphore.balance +
      (if s.mutex.locked then 1 else 0) = s.mutex.semaphore.balance at spent
    simp only [acquirer, unlocks, cancels]
    split
    · next taken =>
      rw [if_pos taken] at spent
      simpa using spent
    · next free =>
      rw [if_neg free] at spent
      simpa using spent
  | tryLock =>
    obtain rfl := Option.some.inj stepped
    simp only [acquirer, unlocks, cancels]
    exact (Int.add_zero _).symm
  | unlock client =>
    obtain ⟨-, rfl⟩ := MutexRun.step_unlock.mp stepped
    have gained := s.mutex.semaphore.release_balance
    simp only [acquirer, unlocks, cancels]
    change s.mutex.semaphore.release.1.balance + 0 = _
    omega
  | cancel p type =>
    obtain ⟨mutex, moved, rfl⟩ := Option.map_eq_some_iff.mp stepped
    obtain ⟨-, rfl⟩ := ComposedWait.step_cancel.mp moved
    simp only [acquirer, unlocks, cancels]
    rcases s.mutex.cancel_emits p type with same | ⟨signalled, received, same⟩
    · rw [same]
      simp
    · have ended := s.mutex.semaphore.emit_balance p received
      rw [same]
      change (s.mutex.semaphore.emit p received).1.balance + 0 = _
      rw [ended]
      simp
      rfl
  | run k =>
    obtain ⟨mutex, moved, rfl⟩ := Option.map_eq_some_iff.mp stepped
    obtain ⟨job, queued, rfl⟩ := Option.map_eq_some_iff.mp moved
    have bound : job.op < s.mutex.started := (locking.sound.consistent.dequeue queued).held_bound.1
    have attempt : ((s.mutex.dequeue k).ops job.op).attempt = some Mutex.lockAttempt :=
      locking.uses job.op bound
    simp only [acquirer, queued, unlocks, cancels]
    by_cases woken : job.call = .resume .success
    · have spent := Mutex.body_balance (s.mutex.dequeue k) job.op
      have resumed : (s.mutex.dequeue k).execute job =
          (s.mutex.dequeue k).body Mutex.lockAttempt job.op .success := by
        simp only [ComposedWait.execute, woken, ComposedWait.resume, attempt]
      rw [resumed]
      change _ + (if s.mutex.locked then 1 else 0) = s.mutex.semaphore.balance at spent
      by_cases taken : s.mutex.locked = true
      · rw [if_pos taken] at spent
        simpa [woken, taken] using spent
      · rw [if_neg taken] at spent
        simpa [woken, taken] using spent
    · have still : ((s.mutex.dequeue k).execute job).semaphore = s.mutex.semaphore :=
        ((s.mutex.dequeue k).execute_ran job).semaphore woken
      rw [still]
      simp [woken]

/-- The invariants of the mutex, and the account of its tokens: the first one and those
released are taken, waited for no longer, or in the balance. -/
structure Accounted (s : TokenRun) : Prop where
  locking : s.locks.Locking
  balance : s.locks.mutex.semaphore.balance + s.acquired.length =
    1 + s.locks.unlocked.length + s.cancelled

theorem start_accounted (exec : Executor) (order : Nat → PostOrder) :
    (start exec order).Accounted where
  locking := MutexRun.start_locking exec order
  balance := rfl

/-- An event is recorded among the unlocks if it is one. -/
theorem unlocked_length {s next : MutexRun} {event : Event}
    (stepped : MutexRun.machine.step s event = some next) :
    next.unlocked.length = s.unlocked.length + unlocks event := by
  cases event with
  | asyncLock executor connected =>
    obtain rfl := Option.some.inj stepped
    rfl
  | tryLock =>
    obtain rfl := Option.some.inj stepped
    rfl
  | unlock client =>
    obtain ⟨-, rfl⟩ := MutexRun.step_unlock.mp stepped
    exact List.length_append
  | cancel p type =>
    obtain ⟨mutex, -, rfl⟩ := Option.map_eq_some_iff.mp stepped
    rfl
  | run k =>
    obtain ⟨mutex, -, rfl⟩ := Option.map_eq_some_iff.mp stepped
    rfl

theorem step_accounted {s next : TokenRun} {event : Event} (accounted : s.Accounted)
    (stepped : machine.step s event = some next) : next.Accounted := by
  obtain ⟨locks, moved, rfl⟩ := Option.map_eq_some_iff.mp stepped
  have moves := step_balance accounted.locking moved
  have counted := unlocked_length moved
  have before := accounted.balance
  refine ⟨MutexRun.step_locking s.locks event locks accounted.locking moved, ?_⟩
  change locks.mutex.semaphore.balance +
      ((s.acquired ++ (acquirer s.locks event).toList).length : Int) =
    1 + locks.unlocked.length + (s.cancelled + cancels s.locks locks event : Nat)
  rw [List.length_append]
  omega

/-- The range of a 32-bit signed integer. -/
def InRange (n : Int) : Prop := -(Semaphore.intMax + 1) ≤ n ∧ n ≤ Semaphore.intMax

/-- The `count_ += 1` that an unlock executes stays in the range of its type. -/
def CountFits (s : TokenRun) (event : Event) (_next : TokenRun) : Prop :=
  ∀ client, event = .unlock client → InRange (s.locks.mutex.semaphore.count + 1)

/-- When `unlock` is called, the unlocks and the cancelled waits so far exceed the calls
of `async_acquire` by two less than the largest `int`, at most. -/
def Contended (s : TokenRun) (event : Event) (_next : TokenRun) : Prop :=
  ∀ client, event = .unlock client →
    s.locks.unlocked.length + s.cancelled + 2 ≤ Semaphore.intMax + s.acquired.length

/-- Proof: the counter is the balance and the operations that wait, of which one is
none. If nobody waits, the two statements are the same; if somebody does, the counter
is zero and the balance negative. -/
theorem Accounted.countFits_iff {s : TokenRun} (accounted : s.Accounted) (event : Event)
    (next : TokenRun) : CountFits s event next ↔ Contended s event next := by
  have balance := accounted.balance
  obtain ⟨queue, represents⟩ := accounted.locking.sound.consistent.represents
  have count := represents.count
  have line := congrArg List.length represents.waiters
  have idle := queue.idle
  simp only [Semaphore.balance, line] at balance
  refine forall₂_congr (fun client _ => ?_)
  simp only [InRange, Semaphore.intMax]
  rcases idle with none | vacant
  · constructor
    · intro _
      omega
    · intro _
      omega
  · rw [vacant, List.length_nil] at balance
    constructor
    · intro _
      omega
    · intro _
      omega

/-- The counter of a mutex stays in the range of an `int` in exactly the runs in which
every unlock finds the unlocks and the cancelled waits so far exceeding the calls of
`async_acquire` by two less than the largest `int`, at most. -/
theorem counter_fits_iff (exec : Executor) (order : Nat → PostOrder) (events : List Event) :
    machine.Along CountFits (start exec order) events ↔
      machine.Along Contended (start exec order) events := by
  have agree (s : TokenRun) (event : Event) (next : TokenRun) (_ : True) (accounted : s.Accounted)
      (_ : machine.step s event = some next) : CountFits s event next ↔ Contended s event next :=
    accounted.countFits_iff event next
  have keeps (s : TokenRun) (event : Event) (next : TokenRun) (_ : True) (accounted : s.Accounted)
      (stepped : machine.step s event = some next) (_ : Contended s event next) : next.Accounted :=
    step_accounted accounted stepped
  exact machine.along_iff agree keeps events (fun _ _ => trivial) (start_accounted exec order)

/-- One lock and unlock that nobody contends. -/
def cycle (p : Nat) : List Event := [.asyncLock none true, .run 0, .unlock (.operation p)]

/-- So many of them, one after the other. -/
def cycles : Nat → List Event
  | 0 => []
  | n + 1 => cycles n ++ cycle n

/-- A mutex that was locked and unlocked a number of times without contention. -/
structure Cycled (n : Nat) (s : TokenRun) : Prop where
  free : s.locks.mutex.locked = false
  idle : s.locks.mutex.queue = []
  line : s.locks.mutex.semaphore.waiters = []
  count : s.locks.mutex.semaphore.count = 1 + n
  started : s.locks.mutex.started = n
  unlocked : ∀ p, Client.operation p ∈ s.locks.unlocked → p < n

/-- A free mutex is locked by a posted completion. -/
def lockedBy (s : Mutex) : Mutex :=
  ((s.register none true (some Mutex.lockAttempt)).pass s.started true).postFinish s.started

/-- A lock of a free mutex with nothing queued, as far as its unlock. -/
theorem run_lock {n : Nat} {s : TokenRun} (cycled : Cycled n s) :
    ∃ before, machine.run s [.asyncLock none true, .run 0] = some before ∧
      before.locks.mutex = ((lockedBy s.locks.mutex).dequeue 0).invoke n .success ∧
      before.locks.unlocked = s.locks.unlocked := by
  have posts : s.locks.mutex.asyncLock none true = lockedBy s.locks.mutex :=
    Mutex.asyncLock_free cycled.free
  have first : MutexRun.machine.step s.locks (.asyncLock none true) =
      some { s.locks with mutex := lockedBy s.locks.mutex } := by rw [← posts]; rfl
  obtain ⟨executor, queued⟩ : ∃ executor, (lockedBy s.locks.mutex).queue[0]? =
      some ⟨executor, n, .finish⟩ := by
    simp [lockedBy, ComposedWait.postFinish, ComposedWait.pass, ComposedWait.register, cycled.idle,
      cycled.started]
  have second : MutexRun.machine.step { s.locks with mutex := lockedBy s.locks.mutex } (.run 0) =
      some { s.locks with mutex := ((lockedBy s.locks.mutex).dequeue 0).invoke n .success } := by
    simp [MutexRun.machine, MutexRun.step, ComposedWait.machine, ComposedWait.step, queued,
      ComposedWait.execute]
  obtain ⟨middle, started, lockedMiddle⟩ : ∃ middle, machine.step s (.asyncLock none true) =
      some middle ∧ middle.locks = { s.locks with mutex := lockedBy s.locks.mutex } := by
    simp only [machine, step, first, Option.map_some, Option.some.injEq, exists_eq_left']
  obtain ⟨before, completed, lockedBefore⟩ : ∃ before, machine.step middle (.run 0) = some before ∧
      before.locks =
        { s.locks with mutex := ((lockedBy s.locks.mutex).dequeue 0).invoke n .success } := by
    simp only [machine, step, lockedMiddle, second, Option.map_some, Option.some.injEq,
      exists_eq_left']
  refine ⟨before, ?_, by rw [lockedBefore], by rw [lockedBefore]⟩
  exact machine.run_cons.mpr ⟨middle, started, machine.run_cons.mpr ⟨before, completed, rfl⟩⟩

/-- Each such cycle leaves one more token in the counter. -/
theorem run_cycle {n : Nat} {s : TokenRun} (cycled : Cycled n s) :
    ∃ before after, machine.run s [.asyncLock none true, .run 0] = some before ∧
      before.locks.mutex.semaphore.count = 1 + n ∧
      machine.step before (.unlock (.operation n)) = some after ∧ Cycled (n + 1) after := by
  obtain ⟨before, ran, mutex, unlocked⟩ := run_lock cycled
  have still : before.locks.mutex.semaphore = s.locks.mutex.semaphore := by rw [mutex]; rfl
  have told : before.locks.told (.operation n) = true := by
    simp [MutexRun.told, mutex, ComposedWait.invoke]
  have holding : Client.operation n ∉ before.locks.unlocked := by
    intro earlier
    rw [unlocked] at earlier
    exact Nat.lt_irrefl n (cycled.unlocked n earlier)
  obtain ⟨after, stepped⟩ : ∃ after, machine.step before (.unlock (.operation n)) = some after := by
    simp [machine, step, MutexRun.machine, MutexRun.step, told, holding]
  refine ⟨before, after, ran, ?_, stepped, ?_⟩
  · rw [still, cycled.count]
  obtain ⟨-, released⟩ := MutexRun.step_unlock.mp (step_locks stepped)
  have opened : after.locks.mutex = (before.locks.mutex.setGate false).enqueue
      (s.locks.mutex.semaphore.increment, []) := by
    rw [← released, ← still]
    exact Mutex.unlock_vacant (still ▸ cycled.line)
  constructor
  · rw [opened]
    rfl
  · rw [opened, mutex]
    simp [ComposedWait.enqueue, ComposedWait.setGate, ComposedWait.invoke, ComposedWait.dequeue,
      lockedBy, ComposedWait.postFinish, ComposedWait.pass, ComposedWait.register, cycled.idle]
  · rw [opened]
    exact cycled.line
  · rw [opened]
    change s.locks.mutex.semaphore.count + 1 = _
    rw [cycled.count]
    omega
  · rw [opened, mutex]
    change s.locks.mutex.started + 1 = n + 1
    rw [cycled.started]
  · intro p member
    rw [← released] at member
    rcases List.mem_append.mp member with old | new
    · rw [unlocked] at old
      exact Nat.lt_succ_of_lt (cycled.unlocked p old)
    · obtain rfl : p = n := by simpa using new
      exact Nat.lt_succ_self p

theorem run_cycles (exec : Executor) (order : Nat → PostOrder) (n : Nat) :
    ∃ s, machine.run (start exec order) (cycles n) = some s ∧ Cycled n s := by
  induction n with
  | zero =>
    refine ⟨_, rfl, rfl, rfl, rfl, rfl, rfl, ?_⟩
    intro p member
    exact absurd member List.not_mem_nil
  | succ n inductionHypothesis =>
    obtain ⟨s, ran, cycled⟩ := inductionHypothesis
    obtain ⟨before, after, locked, -, stepped, next⟩ := run_cycle cycled
    have cycle : machine.run s (cycle n) = some after :=
      machine.run_append.mpr ⟨before, locked, machine.run_cons.mpr ⟨after, stepped, rfl⟩⟩
    exact ⟨after, machine.run_append.mpr ⟨s, ran, cycle⟩, next⟩

/-- A mutex that nobody contends overflows its counter in the unlock whose number is the
largest `int`. -/
theorem uncontended_overflow :
    ∃ n s, n + 1 = Semaphore.intMax ∧
      machine.run (start 0 leftToRight) (cycles n ++ [.asyncLock none true, .run 0]) = some s ∧
      s.locks.mutex.semaphore.count = Semaphore.intMax ∧
      ¬machine.Along CountFits (start 0 leftToRight) (cycles Semaphore.intMax) := by
  obtain ⟨n, last⟩ : ∃ n, n + 1 = Semaphore.intMax := ⟨2147483646, rfl⟩
  obtain ⟨s, ran, cycled⟩ := run_cycles 0 leftToRight n
  obtain ⟨before, after, locked, count, stepped, -⟩ := run_cycle cycled
  have reached : machine.run (start 0 leftToRight)
      (cycles n ++ [.asyncLock none true, .run 0]) = some before :=
    machine.run_append.mpr ⟨s, ran, locked⟩
  refine ⟨n, before, last, reached, by omega, ?_⟩
  rw [← last]
  intro along
  have split : cycles (n + 1) =
      (cycles n ++ [.asyncLock none true, .run 0]) ++ .unlock (.operation n) :: [] := by
    simp [cycles, cycle]
  rw [split] at along
  obtain ⟨-, high⟩ := along.at_split reached stepped (.operation n) rfl
  omega

end TokenRun

end Asioex
