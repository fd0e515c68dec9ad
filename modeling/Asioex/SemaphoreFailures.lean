import Asioex.RepeatedRelease

/-!
# Calls that throw

A call of a semaphore can throw where it allocates an operation, where it constructs one, and
where it posts a completion. The operation is freed again if its constructor throws, and
`complete` posts last, after it has left the ring and freed the operation. So an exception is
either as if the acquire had not been called, or it loses the completion that was to be posted
and nothing else; a `release_all` that throws has done some releases. The destructor may not
throw: a post that fails there ends the program, and the run with it.
-/

namespace Asioex

/-- Where a call throws: at the allocation of an operation, in its constructor, or at a post,
counted from the first post of the call. A fault that the call does not come to is none. -/
inductive SemaphoreFault where
  | allocation
  | constructor
  | post (k : Nat)
deriving DecidableEq, Repr

/-- What a call has done when it ends: the operations that it allocated and freed, by acquire,
what it posted, and the function that was lost if a post threw. -/
structure Attempt where
  semaphore : Semaphore
  allocated : List Nat
  freed : List Nat
  posted : List Posted
  lost : Option Posted

namespace Attempt

variable (fault : Option SemaphoreFault)

/-- `post` as the last action of a call or of an iteration, which may throw. -/
def post (s : Semaphore) (freed : List Nat) (posted : Posted) : Attempt :=
  if fault = some (.post 0) then ⟨s, [], freed, [], some posted⟩
  else ⟨s, [], freed, [posted], none⟩

/-- `semaphore_wait_op_model::complete`: the operation is freed before the post. -/
def complete (s : Semaphore) (op : WaitOp) (ec : ErrorCode) : Attempt :=
  let (s, posted) := s.complete op ec
  post fault s [op.handler.id] posted

/-- `basic_async_semaphore::async_acquire` and `construct`, with its handler of exceptions. -/
def asyncAcquire (s : Semaphore) (handler : Handler) : Attempt :=
  let e := handler.associatedExecutor s.exec
  if s.count ≠ 0 then post fault s.decrement [] ⟨e, handler, .success⟩
  else if fault = some .allocation then ⟨s, [], [], [], none⟩
  else if fault = some .constructor then ⟨s, [handler.id], [handler.id], [], none⟩
  else ⟨(s.construct ⟨e, handler⟩).addWaiter ⟨e, handler⟩, [handler.id], [], [], none⟩

/-- `release` -/
def release (s : Semaphore) : Attempt :=
  match s.increment.waiters with
  | [] => ⟨s.increment, [], [], [], none⟩
  | op :: _ => complete fault s.increment.decrement op .success

/-- The loop of `release_all` until the post after `k` others throws. -/
def drain : Nat → Semaphore → Attempt
  | 0, s =>
    match s.waiters with
    | [] => ⟨s, [], [], [], none⟩
    | op :: _ => complete (some (.post 0)) s op .success
  | k + 1, s =>
    match s.waiters with
    | [] => ⟨s, [], [], [], none⟩
    | op :: _ =>
      let first := complete none s op .success
      let rest := drain k first.semaphore
      ⟨rest.semaphore, first.allocated ++ rest.allocated, first.freed ++ rest.freed,
        first.posted ++ rest.posted, rest.lost⟩

/-- A loop that ends with the ring empty. -/
def drained (result : Semaphore × List Posted) : Attempt :=
  ⟨result.1, [], result.2.map (·.handler.id), result.2, none⟩

/-- `release_all` -/
def releaseAll (s : Semaphore) : Attempt :=
  match fault with
  | some (.post k) => drain k s
  | _ => drained s.releaseAll.2

/-- An emission, which calls the handler that is assigned to the slot. -/
def emit (s : Semaphore) (slot : Slot) (type : CancellationType) : Attempt :=
  match s.slots slot with
  | none => ⟨s, [], [], [], none⟩
  | some op =>
    if type.meets (.terminal ||| .partially ||| .total) then
      complete fault s op .operationAborted
    else ⟨s, [], [], [], none⟩

/-- What a call that returns does, but for the post that threw, if one did. -/
def Matches (attempt : Attempt) (result : Semaphore × List Posted) : Prop :=
  attempt.semaphore = result.1 ∧ attempt.posted ++ attempt.lost.toList = result.2

/-- The operations in the ring are those there were and those allocated, less those freed. -/
def Balances (s : Semaphore) (attempt : Attempt) : Prop :=
  (s.waiters.map (·.handler.id) ++ attempt.allocated).Perm
    (attempt.freed ++ attempt.semaphore.waiters.map (·.handler.id))

variable {fault} {s : Semaphore}

theorem post_semaphore (s : Semaphore) (freed : List Nat) (posted : Posted) :
    (post fault s freed posted).semaphore = s := by
  unfold post
  split <;> rfl

theorem post_memory (s : Semaphore) (freed : List Nat) (posted : Posted) :
    (post fault s freed posted).allocated = [] ∧ (post fault s freed posted).freed = freed := by
  unfold post
  split <;> exact ⟨rfl, rfl⟩

/-- A post that throws loses what it was to post. -/
theorem post_matches (s : Semaphore) (freed : List Nat) (posted : Posted) :
    (post fault s freed posted).Matches (s, [posted]) := by
  refine ⟨post_semaphore s freed posted, ?_⟩
  unfold post
  split <;> rfl

theorem complete_matches (s : Semaphore) (op : WaitOp) (ec : ErrorCode) :
    (complete fault s op ec).Matches ((s.complete op ec).1, [⟨op.executor, op.handler, ec⟩]) :=
  post_matches _ _ _

/-- Completing an operation of the ring frees it. -/
theorem complete_balances {op : WaitOp} (member : op ∈ s.waiters) (ec : ErrorCode) :
    (complete fault s op ec).Balances s := by
  have ring : (complete fault s op ec).semaphore.waiters = s.waiters.erase op := by
    rw [(complete_matches s op ec).1, Semaphore.complete_waiters]
  have memory : (complete fault s op ec).allocated = [] ∧
      (complete fault s op ec).freed = [op.handler.id] := post_memory _ _ _
  rw [Balances, memory.1, memory.2, ring, List.append_nil]
  exact (List.perm_cons_erase member).map _

/-- An acquire that is initiated is one that returns. -/
theorem asyncAcquire_matches (handler : Handler)
    (initiates : s.count ≠ 0 ∨ fault ≠ some .allocation ∧ fault ≠ some .constructor) :
    (asyncAcquire fault s handler).Matches (s.asyncAcquire handler) := by
  by_cases granted : s.count ≠ 0
  · simp only [asyncAcquire, Semaphore.asyncAcquire, if_pos granted]
    exact post_matches _ _ _
  · obtain ⟨allocates, constructs⟩ := initiates.resolve_left granted
    simp only [asyncAcquire, Semaphore.asyncAcquire, if_neg granted, if_neg allocates,
      if_neg constructs]
    exact ⟨rfl, rfl⟩

/-- One that is not leaves the semaphore as it was. -/
theorem asyncAcquire_refused (handler : Handler)
    (refused : ¬(s.count ≠ 0 ∨ fault ≠ some .allocation ∧ fault ≠ some .constructor)) :
    (asyncAcquire fault s handler).Matches (s, []) := by
  rw [not_or, not_and_or, not_not, not_not, not_not] at refused
  obtain ⟨empty, threw | threw⟩ := refused
  · simp [asyncAcquire, empty, threw, Matches]
  · simp [asyncAcquire, empty, threw, Matches]

/-- The operation of an acquire is in the ring, or was freed again, or was never allocated. -/
theorem asyncAcquire_balances (handler : Handler) : (asyncAcquire fault s handler).Balances s := by
  unfold asyncAcquire
  split
  · obtain ⟨allocated, freed⟩ := @post_memory fault s.decrement []
      ⟨handler.associatedExecutor s.exec, handler, .success⟩
    simp only [Balances, allocated, freed, post_semaphore, List.append_nil, List.nil_append]
    exact List.Perm.refl _
  · split
    · simp [Balances]
    · split
      · simp only [Balances]
        exact List.perm_append_comm
      · simp [Balances]

theorem release_matches (s : Semaphore) : (release fault s).Matches s.release := by
  cases line : s.waiters with
  | nil => simp [release, Semaphore.release, line, Matches]
  | cons op rest =>
    simp only [release, Semaphore.release, Semaphore.increment_waiters, line]
    exact complete_matches _ _ _

theorem release_balances (s : Semaphore) : (release fault s).Balances s := by
  cases line : s.waiters with
  | nil => simp [release, line, Balances]
  | cons op rest =>
    have front : op ∈ s.increment.decrement.waiters := by
      change op ∈ s.waiters
      simp [line]
    have same : release fault s = complete fault s.increment.decrement op .success := by
      simp [release, line]
    rw [same]
    exact complete_balances front .success

/-- A drain that throws has done a release for each operation that it took out of the ring.

Proof: by induction on the number of posts before the one that throws. -/
theorem drain_matches (k : Nat) {queue : TokenQueue WaitOp} (represents : s.Represents queue) :
    (drain k s).Matches (Semaphore.releases (min (k + 1) s.waiters.length) s) := by
  induction k generalizing s queue with
  | zero =>
    cases line : s.waiters with
    | nil => simp [drain, line, Matches, Semaphore.releases]
    | cons op rest =>
      have first := Semaphore.release_waiting represents line
      simp [drain, line, Semaphore.releases, first, complete, post, Matches]
  | succ k inductionHypothesis =>
    cases line : s.waiters with
    | nil => simp [drain, line, Matches, Semaphore.releases]
    | cons op rest =>
      have first := Semaphore.release_waiting represents line
      have shorter : (s.complete op .success).1.waiters = rest := by simp [line]
      have later : (s.complete op .success).1.Represents (queue.withdraw op) :=
        Semaphore.complete_represents represents .success
      obtain ⟨same, rest'⟩ := inductionHypothesis later
      rw [shorter] at same rest'
      have fewer : min (k + 1 + 1) (op :: rest).length = min (k + 1) rest.length + 1 := by
        rw [List.length_cons]
        omega
      rw [fewer]
      simp [drain, line, Semaphore.releases, first, complete, post, Matches, same, ← rest']

theorem drain_balances (k : Nat) (s : Semaphore) : (drain k s).Balances s := by
  induction k generalizing s with
  | zero =>
    cases line : s.waiters with
    | nil => simp [drain, line, Balances]
    | cons op rest =>
      simp only [drain, line]
      exact complete_balances (by simp [line]) .success
  | succ k inductionHypothesis =>
    cases line : s.waiters with
    | nil => simp [drain, line, Balances]
    | cons op rest =>
      have later := inductionHypothesis (s.complete op .success).1
      simp only [Balances, Semaphore.complete_waiters, line, List.erase_cons_head] at later
      simp only [Balances, drain, line, complete, post]
      exact (later.cons op.handler.id)

theorem drained_balances (ec : ErrorCode) (s : Semaphore) :
    (drained (Semaphore.drained ec s).2).Balances s := by
  have drains := Semaphore.drained_exact ec s
  simp [Balances, drained, drains.waiters, drains.posted, Function.comp_def]

theorem releaseAll_balances (s : Semaphore) : (releaseAll fault s).Balances s := by
  unfold releaseAll
  split
  · exact drain_balances _ s
  · exact drained_balances .success s

theorem emit_matches (s : Semaphore) (slot : Slot) (type : CancellationType) :
    (emit fault s slot type).Matches (s.emit slot type) := by
  cases assigned : s.slots slot with
  | none => simp [emit, Semaphore.emit, assigned, Matches]
  | some op =>
    simp only [emit, Semaphore.emit, Semaphore.cancellationHandler, assigned]
    split
    · exact complete_matches _ _ _
    · exact ⟨rfl, rfl⟩

theorem emit_balances (linked : s.SlotsLinked) (slot : Slot) (type : CancellationType) :
    (emit fault s slot type).Balances s := by
  cases assigned : s.slots slot with
  | none => simp [emit, assigned, Balances]
  | some op =>
    simp only [emit, assigned]
    split
    · exact complete_balances (linked slot op assigned).1 .operationAborted
    · simp [Balances]

end Attempt

/-- A semaphore whose calls may throw: what was posted, what was lost, and the operations that
were allocated and freed. -/
structure FailingRun where
  semaphore : Semaphore
  alive : Bool
  acquires : Nat
  posted : List Posted
  lost : List Posted
  allocated : List Nat
  freed : List Nat

namespace FailingRun

structure Event where
  call : SemaphoreRun.Event
  fault : Option SemaphoreFault
deriving DecidableEq, Repr

def start (exec : Executor) (initialCount : Int) : FailingRun :=
  ⟨.create exec initialCount, true, 0, [], [], [], []⟩

/-- The handler of the next acquire: its own number, and its own slot. -/
def handler (s : FailingRun) (executor : Option Executor) (connected : Bool) : Handler :=
  ⟨s.acquires, executor, if connected then some s.acquires else none⟩

def attempt (s : FailingRun) (fault : Option SemaphoreFault) : SemaphoreRun.Event → Attempt
  | .asyncAcquire executor connected =>
    Attempt.asyncAcquire fault s.semaphore (s.handler executor connected)
  | .tryAcquire => ⟨s.semaphore.tryAcquire.2, [], [], [], none⟩
  | .release => Attempt.release fault s.semaphore
  | .releaseAll => Attempt.releaseAll fault s.semaphore
  | .cancel ticket type => Attempt.emit fault s.semaphore ticket type
  | .destroy => Attempt.drained s.semaphore.destroy

/-- An acquire that throws before its operation is in the ring was not initiated: neither its
number nor its slot is taken. -/
def initiates (s : FailingRun) (event : Event) : Bool :=
  match event.call with
  | .asyncAcquire _ _ =>
    s.semaphore.count ≠ 0 || (event.fault ≠ some .allocation && event.fault ≠ some .constructor)
  | _ => false

theorem initiates_iff {s : FailingRun} {executor : Option Executor} {connected : Bool}
    {fault : Option SemaphoreFault} :
    s.initiates ⟨.asyncAcquire executor connected, fault⟩ = true ↔
      s.semaphore.count ≠ 0 ∨ fault ≠ some .allocation ∧ fault ≠ some .constructor := by
  simp [initiates]

def admits (s : FailingRun) : SemaphoreRun.Event → Bool
  | .cancel ticket _ => ticket < s.acquires
  | _ => s.alive

/-- The destructor lets no exception out: a post that throws there calls `std::terminate`. -/
def terminates (s : FailingRun) (event : Event) : Bool :=
  match event.call, event.fault with
  | .destroy, some (.post k) => k < s.semaphore.waiters.length
  | _, _ => false

def step (s : FailingRun) (event : Event) : Option FailingRun :=
  let attempt := s.attempt event.fault event.call
  if s.admits event.call && !s.terminates event then
    some
      { semaphore := attempt.semaphore
        alive := s.alive && event.call ≠ .destroy
        acquires := s.acquires + (s.initiates event).toNat
        posted := s.posted ++ attempt.posted
        lost := s.lost ++ attempt.lost.toList
        allocated := s.allocated ++ attempt.allocated
        freed := s.freed ++ attempt.freed }
  else none

def machine : Machine FailingRun Event := ⟨step⟩

theorem step_eq {s next : FailingRun} {event : Event} (stepped : machine.step s event = some next) :
    s.admits event.call = true ∧
    next =
      { semaphore := (s.attempt event.fault event.call).semaphore
        alive := s.alive && event.call ≠ .destroy
        acquires := s.acquires + (s.initiates event).toNat
        posted := s.posted ++ (s.attempt event.fault event.call).posted
        lost := s.lost ++ (s.attempt event.fault event.call).lost.toList
        allocated := s.allocated ++ (s.attempt event.fault event.call).allocated
        freed := s.freed ++ (s.attempt event.fault event.call).freed } := by
  obtain ⟨admitted, same⟩ := Option.ite_none_right_eq_some.mp stepped
  exact ⟨(Bool.and_eq_true_iff.mp admitted).1, (Option.some.inj same).symm⟩

/-- A run without exceptions to the same semaphore: it posted what was posted and what was
lost, both in order. -/
structure Mirrors (s : FailingRun) (image : SemaphoreRun) : Prop where
  settled : image.Settled
  semaphore : image.semaphore = s.semaphore
  alive : image.alive = s.alive
  acquires : image.acquires = s.acquires
  posted : s.posted.Sublist (image.log.map (·.posted))
  lost : s.lost.Sublist (image.log.map (·.posted))
  all : (image.log.map (·.posted)).Perm (s.posted ++ s.lost)

theorem start_mirrors (exec : Executor) (initialCount : Int) (valid : 0 ≤ initialCount) :
    (start exec initialCount).Mirrors (SemaphoreRun.start exec initialCount) :=
  ⟨SemaphoreRun.start_settled exec initialCount valid, rfl, rfl, rfl, List.Sublist.refl _,
    List.Sublist.refl _, List.Perm.refl _⟩

/-- An attempt is mirrored by calls that leave the same semaphore, and post what it posts and
what it loses. -/
theorem Mirrors.matched {s next : FailingRun} {image after : SemaphoreRun}
    (mirrors : s.Mirrors image) {event : Event} (stepped : machine.step s event = some next)
    {result : Semaphore × List Posted} (done : (s.attempt event.fault event.call).Matches result)
    (settled : after.Settled)
    (semaphore : after.semaphore = result.1)
    (log : after.log.map (·.posted) = image.log.map (·.posted) ++ result.2)
    (alive : after.alive = (s.alive && event.call ≠ .destroy))
    (acquires : after.acquires = s.acquires + (s.initiates event).toNat) :
    next.Mirrors after := by
  obtain ⟨-, rfl⟩ := step_eq stepped
  generalize s.attempt event.fault event.call = attempt at done
  obtain ⟨same, split⟩ := done
  rw [← split] at log
  refine ⟨settled, semaphore.trans same.symm, alive, acquires, ?_, ?_, ?_⟩
  · rw [log]
    exact mirrors.posted.append (List.sublist_append_left _ _)
  · rw [log]
    exact mirrors.lost.append (List.sublist_append_right _ _)
  · rw [log]
    refine (mirrors.all.append_right _).trans ?_
    rw [List.append_assoc, List.append_assoc]
    refine List.Perm.append_left _ ?_
    rw [← List.append_assoc, ← List.append_assoc]
    exact List.perm_append_comm.append_right _

/-- Releases one after the other, as events of a run. -/
theorem run_releases (n : Nat) {image : SemaphoreRun} (alive : image.alive = true) :
    ∃ after, SemaphoreRun.machine.run image (List.replicate n .release) = some after ∧
      after.semaphore = (Semaphore.releases n image.semaphore).1 ∧
      after.log.map (·.posted) =
        image.log.map (·.posted) ++ (Semaphore.releases n image.semaphore).2 ∧
      after.alive = image.alive ∧ after.acquires = image.acquires := by
  induction n generalizing image with
  | zero => exact ⟨image, rfl, rfl, (List.append_nil _).symm, rfl, rfl⟩
  | succ n inductionHypothesis =>
    obtain ⟨after, ran, semaphore, log, still, acquires⟩ :=
      @inductionHypothesis (image.call .release) alive
    refine ⟨after, SemaphoreRun.machine.run_cons.mpr ⟨_, ?_, ran⟩, semaphore, ?_, still, acquires⟩
    · exact SemaphoreRun.step_eq.mpr ⟨alive, rfl⟩
    · rw [log]
      simp [SemaphoreRun.call, SemaphoreRun.record, Semaphore.releases, Function.comp_def]

/-- Each step is mirrored: an acquire that was not initiated by no call, a `release_all` that
threw by releases, and every other call by itself. -/
theorem step_mirrors : machine.Simulates SemaphoreRun.machine Mirrors := by
  intro s event next image mirrors stepped
  obtain ⟨admitted, -⟩ := step_eq stepped
  have called {result : Semaphore × List Posted}
      (done : (s.attempt event.fault event.call).Matches result)
      (enabled : image.admits event.call = true)
      (semaphore : (image.call event.call).semaphore = result.1)
      (log : (image.call event.call).log.map (·.posted) = image.log.map (·.posted) ++ result.2)
      (alive : (image.call event.call).alive = (s.alive && event.call ≠ .destroy))
      (acquires : (image.call event.call).acquires = s.acquires + (s.initiates event).toNat) :
      ∃ plain after, SemaphoreRun.machine.run image plain = some after ∧ next.Mirrors after := by
    have moved : SemaphoreRun.machine.step image event.call = some (image.call event.call) :=
      SemaphoreRun.step_eq.mpr ⟨enabled, rfl⟩
    have settled := SemaphoreRun.step_settled image event.call _ mirrors.settled moved
    exact ⟨[event.call], _, SemaphoreRun.machine.run_cons.mpr ⟨_, moved, rfl⟩,
      mirrors.matched stepped done settled semaphore log alive acquires⟩
  obtain ⟨call, fault⟩ := event
  cases call with
  | asyncAcquire executor connected =>
    have alive : image.alive = true := mirrors.alive.trans admitted
    have same : image.handler executor connected = s.handler executor connected := by
      rw [SemaphoreRun.handler, mirrors.acquires]
      rfl
    by_cases initiated : s.semaphore.count ≠ 0 ∨ fault ≠ some .allocation ∧
        fault ≠ some .constructor
    · refine called (Attempt.asyncAcquire_matches (s.handler executor connected) initiated) alive
        ?_ ?_ ?_ ?_
      · simp [SemaphoreRun.call, SemaphoreRun.record, mirrors.semaphore, same]
      · simp [SemaphoreRun.call, SemaphoreRun.record, mirrors.semaphore, same, Function.comp_def]
      · simp [SemaphoreRun.call, SemaphoreRun.record, mirrors.alive]
      · rw [initiates_iff.mpr initiated]
        simp [SemaphoreRun.call, SemaphoreRun.record, mirrors.acquires]
    · refine ⟨[], image, rfl, mirrors.matched stepped
        (Attempt.asyncAcquire_refused (s.handler executor connected) initiated) mirrors.settled
        mirrors.semaphore (List.append_nil _).symm ?_ ?_⟩
      · simp [mirrors.alive]
      · rw [Bool.eq_false_iff.mpr (fun begun => initiated (initiates_iff.mp begun))]
        exact mirrors.acquires
  | tryAcquire =>
    have silent : Attempt.Matches ⟨s.semaphore.tryAcquire.2, [], [], [], none⟩
        (s.semaphore.tryAcquire.2, []) := ⟨rfl, rfl⟩
    refine called silent (mirrors.alive.trans admitted) ?_ ?_ ?_ ?_
    · simp [SemaphoreRun.call, mirrors.semaphore]
    · simp [SemaphoreRun.call]
    · simp [SemaphoreRun.call, mirrors.alive]
    · simp [SemaphoreRun.call, mirrors.acquires, initiates]
  | release =>
    refine called (Attempt.release_matches s.semaphore) (mirrors.alive.trans admitted) ?_ ?_ ?_ ?_
    · simp [SemaphoreRun.call, SemaphoreRun.record, mirrors.semaphore]
    · simp [SemaphoreRun.call, SemaphoreRun.record, mirrors.semaphore, Function.comp_def]
    · simp [SemaphoreRun.call, SemaphoreRun.record, mirrors.alive]
    · simp [SemaphoreRun.call, SemaphoreRun.record, mirrors.acquires, initiates]
  | releaseAll =>
    have alive : image.alive = true := mirrors.alive.trans admitted
    have returned (whole : (s.attempt fault .releaseAll).Matches s.semaphore.releaseAll.2) :
        ∃ plain after, SemaphoreRun.machine.run image plain = some after ∧
          next.Mirrors after := by
      refine called whole alive ?_ ?_ ?_ ?_
      · simp [SemaphoreRun.call, SemaphoreRun.record, mirrors.semaphore]
      · simp [SemaphoreRun.call, SemaphoreRun.record, mirrors.semaphore, Function.comp_def]
      · simp [SemaphoreRun.call, SemaphoreRun.record, mirrors.alive]
      · simp [SemaphoreRun.call, SemaphoreRun.record, mirrors.acquires, initiates]
    cases fault with
    | none => exact returned ⟨rfl, List.append_nil _⟩
    | some fault =>
      cases fault with
      | allocation => exact returned ⟨rfl, List.append_nil _⟩
      | constructor => exact returned ⟨rfl, List.append_nil _⟩
      | post k =>
        obtain ⟨queue, represents⟩ := mirrors.settled.represents
        have done := Attempt.drain_matches k (mirrors.semaphore ▸ represents)
        obtain ⟨after, ran, semaphore, log, still, acquires⟩ :=
          run_releases (min (k + 1) s.semaphore.waiters.length) alive
        have settled := SemaphoreRun.machine.run_invariant SemaphoreRun.step_settled
          mirrors.settled ran
        rw [mirrors.semaphore] at semaphore log
        refine ⟨_, after, ran, mirrors.matched stepped done settled semaphore log ?_ ?_⟩
        · simp [still, mirrors.alive]
        · simp [acquires, mirrors.acquires, initiates]
  | cancel ticket type =>
    have issued : image.admits (.cancel ticket type) = true := by
      rw [SemaphoreRun.admits, mirrors.acquires]
      exact admitted
    refine called (Attempt.emit_matches s.semaphore ticket type) issued ?_ ?_ ?_ ?_
    · simp [SemaphoreRun.call, SemaphoreRun.record, mirrors.semaphore]
    · simp [SemaphoreRun.call, SemaphoreRun.record, mirrors.semaphore, Function.comp_def]
    · simp [SemaphoreRun.call, SemaphoreRun.record, mirrors.alive]
    · simp [SemaphoreRun.call, SemaphoreRun.record, mirrors.acquires, initiates]
  | destroy =>
    have whole : (Attempt.drained s.semaphore.destroy).Matches s.semaphore.destroy :=
      ⟨rfl, List.append_nil _⟩
    refine called whole (mirrors.alive.trans admitted) ?_ ?_ ?_ ?_
    · simp [SemaphoreRun.call, SemaphoreRun.record, mirrors.semaphore]
    · simp [SemaphoreRun.call, SemaphoreRun.record, mirrors.semaphore, Function.comp_def]
    · simp [SemaphoreRun.call]
    · simp [SemaphoreRun.call, SemaphoreRun.record, mirrors.acquires, initiates]

/-- Every attempt balances. -/
theorem attempt_balances {s : FailingRun} (linked : s.semaphore.SlotsLinked)
    (fault : Option SemaphoreFault) (call : SemaphoreRun.Event) :
    (s.attempt fault call).Balances s.semaphore := by
  cases call with
  | asyncAcquire executor connected => exact Attempt.asyncAcquire_balances _
  | tryAcquire =>
    have line : s.semaphore.tryAcquire.2.waiters = s.semaphore.waiters := by
      unfold Semaphore.tryAcquire
      split <;> rfl
    simp [attempt, Attempt.Balances, line]
  | release => exact Attempt.release_balances _
  | releaseAll => exact Attempt.releaseAll_balances _
  | cancel ticket type => exact Attempt.emit_balances linked ticket type
  | destroy => exact Attempt.drained_balances .operationAborted _

/-- A run without exceptions mirrors the state, and the operations in the ring are those in
memory. -/
structure Mirrored (exec : Executor) (initialCount : Int) (s : FailingRun) : Prop where
  mirrors : ∃ plain image,
    SemaphoreRun.machine.run (SemaphoreRun.start exec initialCount) plain = some image ∧
      s.Mirrors image
  memory : s.allocated.Perm (s.freed ++ s.semaphore.waiters.map (·.handler.id))

theorem start_mirrored (exec : Executor) (initialCount : Int) (valid : 0 ≤ initialCount) :
    (start exec initialCount).Mirrored exec initialCount :=
  ⟨⟨[], _, rfl, start_mirrors exec initialCount valid⟩, List.Perm.refl _⟩

theorem step_mirrored {exec : Executor} {initialCount : Int} (s : FailingRun) (event : Event)
    (next : FailingRun) (mirrored : s.Mirrored exec initialCount)
    (stepped : machine.step s event = some next) : next.Mirrored exec initialCount := by
  obtain ⟨plain, image, ran, mirrors⟩ := mirrored.mirrors
  obtain ⟨more, after, going, mirrors'⟩ := step_mirrors s event next image mirrors stepped
  refine ⟨⟨plain ++ more, after, SemaphoreRun.machine.run_append.mpr ⟨image, ran, going⟩, mirrors'⟩,
    ?_⟩
  obtain ⟨queue, represents⟩ := mirrors.settled.represents
  have linked : s.semaphore.SlotsLinked := mirrors.semaphore ▸ represents.slots
  have balances := attempt_balances linked event.fault event.call
  obtain ⟨-, rfl⟩ := step_eq stepped
  change (s.allocated ++ _).Perm (s.freed ++ _ ++ _)
  refine (mirrored.memory.append_right _).trans ?_
  rw [List.append_assoc, List.append_assoc]
  exact balances.append_left _

/-- Whichever calls throw, and wherever: the semaphore is in a state that some run without
exceptions reaches, which posted what was posted and what was lost, each in order; every
acquire waits, or was posted once, or was lost once; and the operations that were allocated
are those freed and those in the ring. -/
theorem exceptions_lose_completions (exec : Executor) (initialCount : Int)
    (valid : 0 ≤ initialCount) (events : List Event) (s : FailingRun)
    (ran : machine.run (start exec initialCount) events = some s) :
    (∃ plain image,
      SemaphoreRun.machine.run (SemaphoreRun.start exec initialCount) plain = some image ∧
        image.semaphore = s.semaphore ∧ image.acquires = s.acquires ∧
        s.posted.Sublist (image.log.map (·.posted)) ∧ s.lost.Sublist (image.log.map (·.posted)) ∧
        (image.log.map (·.posted)).Perm (s.posted ++ s.lost)) ∧
    (∀ ticket < s.acquires, s.semaphore.linked ticket + Semaphore.postedFor s.posted ticket +
      Semaphore.postedFor s.lost ticket = 1) ∧
    s.allocated.Perm (s.freed ++ s.semaphore.waiters.map (·.handler.id)) := by
  obtain ⟨⟨plain, image, reached, mirrors⟩, memory⟩ :=
    machine.run_invariant step_mirrored (start_mirrored exec initialCount valid) ran
  refine ⟨⟨plain, image, reached, mirrors.semaphore, mirrors.acquires, mirrors.posted,
    mirrors.lost, mirrors.all⟩, fun ticket issued => ?_, memory⟩
  have placed := mirrors.settled.census ticket
  rw [mirrors.semaphore, mirrors.acquires, if_pos issued] at placed
  have counted : (image.completions ticket).length =
      Semaphore.postedFor (image.log.map (·.posted)) ticket := by
    rw [Semaphore.postedFor, List.countP_map, List.countP_eq_length_filter]
    rfl
  have split := mirrors.all.countP_eq (fun item => item.handler.id == ticket)
  rw [List.countP_append] at split
  change Semaphore.postedFor _ ticket =
    Semaphore.postedFor s.posted ticket + Semaphore.postedFor s.lost ticket at split
  omega

/-- A grant that is lost, an acquire whose operation is not constructed, a release that loses
the first of three waiting acquires, and a drain that posts one of the others and loses one. -/
def throwing : List Event :=
  [⟨.asyncAcquire none true, some (.post 0)⟩, ⟨.asyncAcquire none true, none⟩,
    ⟨.asyncAcquire none false, some .constructor⟩, ⟨.asyncAcquire none false, none⟩,
    ⟨.asyncAcquire none true, none⟩, ⟨.release, some (.post 0)⟩, ⟨.releaseAll, some (.post 1)⟩]

theorem exceptions_lose_completions_throwing :
    ∃ s, machine.run (start 0 1) throwing = some s ∧ s.posted.map (·.handler.id) = [2] ∧
      s.lost.map (·.handler.id) = [0, 1, 3] ∧ s.allocated = [1, 2, 2, 3] ∧
      s.allocated.Perm (s.freed ++ s.semaphore.waiters.map (·.handler.id)) := by
  refine ⟨_, rfl, rfl, rfl, rfl, ?_⟩
  exact (exceptions_lose_completions 0 1 (by decide) throwing _ rfl).2.2

end FailingRun

end Asioex
