import Asioex.SemaphoreRuns

/-!
# One drain, many releases

`release_all` completes the operations in the ring and does not touch the counter.
`release` increments the counter, and takes the token back when it completes an
operation. While operations wait the counter is zero, the two changes cancel out, and
as many releases as there are waiting operations leave what the drain leaves.

The value afterwards is the counter. Before, it is the counter less the size of the
ring, which is converted to an `int`. A ring of more operations than an `int` can count
may have a value above the counter, or one whose subtraction overflows.
-/

namespace Asioex

namespace Semaphore

/-- Calls of `release` one after the other, and everything they posted. -/
def releases : Nat → Semaphore → Semaphore × List Posted
  | 0, s => (s, [])
  | n + 1, s =>
    let (s, posted) := s.release
    let (last, rest) := releases n s
    (last, posted ++ rest)

/-- One iteration of the drain is a release, and so the loop is a release for each operation.

Proof: by induction on the fuel, as the loop runs. A release completes the operation at
the front because adding a token and taking it back are inverse. -/
theorem drain_releases (fuel : Nat) {s : Semaphore} {queue : TokenQueue WaitOp}
    (represents : s.Represents queue) (enough : s.waiters.length ≤ fuel) :
    drain .success fuel s = some (s.waiters.length, releases s.waiters.length s) := by
  induction fuel generalizing s queue with
  | zero =>
    have vacant : s.waiters = [] := List.length_eq_zero_iff.mp (Nat.le_zero.mp enough)
    simp [drain, releases, vacant]
  | succ fuel inductionHypothesis =>
    cases line : s.waiters with
    | nil => simp [drain, releases, line]
    | cons op rest =>
      have shorter : (s.complete op .success).1.waiters = rest := by simp [line]
      have restEnough : (s.complete op .success).1.waiters.length ≤ fuel := by
        simp only [line, List.length_cons] at enough
        rw [shorter]
        omega
      have following := inductionHypothesis (complete_represents represents .success) restEnough
      rw [shorter] at following
      have first := release_waiting represents line
      simp only [drain, line, following, Option.map_some, List.length_cons, releases, first]
      rfl

/-- `release_all` is a release for each waiting operation, and returns their number. -/
theorem releaseAll_releases {s : Semaphore} {queue : TokenQueue WaitOp}
    (represents : s.Represents queue) :
    s.releaseAll = (s.waiters.length, releases s.waiters.length s) := by
  have finished := drain_releases s.waiters.length represents (Nat.le_refl _)
  simp [releaseAll, drained, finished]

/-- While the size of the ring fits an `int`, a drained semaphore has the larger of zero
and its value before.

Proof: the value before is that of the token queue. With nobody waiting it is the
counter; otherwise the counter is zero, and the value is below it. -/
theorem releaseAll_value {s : Semaphore} {queue : TokenQueue WaitOp}
    (represents : s.Represents queue) (fits : s.waiters.length ≤ intMax) :
    ∃ before, s.value = some before ∧ s.releaseAll.2.1.value = some (max 0 before) := by
  have drains := drained_exact .success s
  have after : s.releaseAll.2.1.value = some s.count := by
    simp only [value, releaseAll, drains.waiters, ↓reduceIte, drains.count]
  refine ⟨queue.value, value_represents represents fits, ?_⟩
  rw [after, represents.count, TokenQueue.value]
  congr 1
  rcases queue.idle with empty | vacant
  · omega
  · rw [vacant, List.length_nil]
    omega

end Semaphore

namespace SemaphoreRun

/-- Acquires that find no token all wait. -/
theorem run_acquires (n : Nat) {s : SemaphoreRun} (alive : s.alive = true)
    (empty : s.semaphore.count = 0) :
    ∃ last, machine.run s (List.replicate n (.asyncAcquire none false)) = some last ∧
      last.semaphore.count = 0 ∧
      last.semaphore.waiters.length = s.semaphore.waiters.length + n := by
  induction n generalizing s with
  | zero => exact ⟨s, rfl, empty, rfl⟩
  | succ n inductionHypothesis =>
    have acquired : s.semaphore.asyncAcquire (s.handler none false) =
        (s.semaphore.addWaiter ⟨s.semaphore.exec, s.handler none false⟩, []) := by
      simp [Semaphore.asyncAcquire, empty, handler, Semaphore.construct, Handler.associatedExecutor]
    have stepped : machine.step s (.asyncAcquire none false) =
        some (s.call (.asyncAcquire none false)) := by
      simp [machine, admits, alive]
    have waits : (s.call (.asyncAcquire none false)).semaphore =
        s.semaphore.addWaiter ⟨s.semaphore.exec, s.handler none false⟩ := by
      simp [call, record, acquired]
    have still : (s.call (.asyncAcquire none false)).alive = true := alive
    have none : (s.call (.asyncAcquire none false)).semaphore.count = 0 := by
      rw [waits]
      exact empty
    obtain ⟨last, ran, zero, size⟩ := inductionHypothesis still none
    refine ⟨last, machine.run_cons.mpr ⟨_, stepped, ran⟩, zero, ?_⟩
    rw [size, waits]
    simp only [Semaphore.addWaiter, List.length_append, List.length_singleton]
    omega

/-- In every reachable state `release_all` returns the number of waiting operations and
leaves the state, and posts the completions, that as many calls of `release` would.
Whenever that number fits an `int`, the value afterwards is the larger of zero and the
value before. -/
theorem release_all_is_repeated_release {exec : Executor} {initialCount : Int}
    {events : List Event} {s : SemaphoreRun} (valid : 0 ≤ initialCount)
    (ran : machine.run (start exec initialCount) events = some s) :
    s.semaphore.releaseAll.1 = s.semaphore.waiters.length ∧
      s.semaphore.releaseAll.2 = Semaphore.releases s.semaphore.waiters.length s.semaphore ∧
      s.semaphore.releaseAll.2.1.waiters = [] ∧
      (s.semaphore.waiters.length ≤ Semaphore.intMax →
        ∃ before, s.semaphore.value = some before ∧
          s.semaphore.releaseAll.2.1.value = some (max 0 before)) := by
  obtain ⟨queue, represents⟩ := (run_settled exec initialCount valid ran).represents
  have same := Semaphore.releaseAll_releases represents
  have drains := Semaphore.drained_exact .success s.semaphore
  refine ⟨?_, ?_, drains.waiters, Semaphore.releaseAll_value represents⟩
  · rw [same]
  · rw [same]

/-- Three acquires of two tokens, and one more acquire that is cancelled. -/
def contended : List Event :=
  [.asyncAcquire none true, .asyncAcquire (some 7) false, .asyncAcquire none true,
    .asyncAcquire none true, .asyncAcquire (some 7) true, .cancel 3 .terminal]

theorem release_all_is_repeated_release_contended :
    ∃ s, machine.run (start 0 2) contended = some s ∧ s.semaphore.value = some (-2) ∧
      s.semaphore.releaseAll.1 = 2 ∧
      s.semaphore.releaseAll.2 = Semaphore.releases 2 s.semaphore ∧
      s.semaphore.releaseAll.2.1.value = some 0 := by
  have value : (machine.run (start 0 2) contended).map (·.semaphore.value) = some (some (-2)) := by
    decide
  obtain ⟨s, ran, owed⟩ := Option.map_eq_some_iff.mp value
  have length : (machine.run (start 0 2) contended).map (·.semaphore.waiters.length) =
      some 2 := by decide
  rw [ran, Option.map_some, Option.some.injEq] at length
  obtain ⟨returned, same, -, fits⟩ := release_all_is_repeated_release (by decide) ran
  obtain ⟨before, was, after⟩ := fits (by rw [length]; decide)
  rw [owed] at was
  rw [length] at returned same
  obtain rfl := Option.some.inj was
  exact ⟨s, ran, owed, returned, same, after⟩

/-- With two more operations waiting than an `int` can count the value is positive, and
the drain makes it zero. -/
theorem release_all_value_drops :
    ∃ s, machine.run (start 0 0)
        (List.replicate (Semaphore.intMax + 2) (.asyncAcquire none false)) = some s ∧
      s.semaphore.value = some (Semaphore.intMax : Int) ∧
      s.semaphore.releaseAll.2.1.value = some 0 ∧
      s.semaphore.releaseAll.2.1.value ≠ s.semaphore.value.map (max 0) := by
  obtain ⟨s, ran, zero, size⟩ :=
    run_acquires (Semaphore.intMax + 2) (s := start 0 0) rfl rfl
  have length : s.semaphore.waiters.length = Semaphore.intMax + 2 := by
    rw [size]
    exact Nat.zero_add _
  have waiting : s.semaphore.waiters ≠ [] := by
    intro vacant
    rw [vacant] at length
    cases length
  have wraps : Semaphore.toInt (Semaphore.intMax + 2) = -Semaphore.intMax := by decide
  have before : s.semaphore.value = some (Semaphore.intMax : Int) := by
    simp only [Semaphore.value, waiting, ↓reduceIte, zero, length, wraps]
    decide
  have drains := Semaphore.drained_exact .success s.semaphore
  have after : s.semaphore.releaseAll.2.1.value = some 0 := by
    simp only [Semaphore.value, Semaphore.releaseAll, drains.waiters, ↓reduceIte, drains.count, zero]
  refine ⟨s, ran, before, after, ?_⟩
  rw [before, after]
  decide

end SemaphoreRun

end Asioex
