import Mathlib.Data.List.Perm.Subperm
import Asioex.SemaphoreRefinement
import Asioex.Lib.Ledger

/-!
# Runs of a semaphore

Acquires are numbered in the order they are initiated. Each has its own handler
and its own cancellation slot, connected or not. A run is any order of calls,
cancellations and at most one destruction, after which only cancellations are
admitted. `post` queues each function exactly once and runs none of them, so the
log of posted functions is complete and in posting order.

The counters beside the log are what the callers saw: how often they called
`release`, what `release_all` returned, and how often `try_acquire` was true.
-/

namespace Asioex

/-- Which of the five paths posted a completion. -/
inductive Cause where
  | count
  | release
  | releaseAll
  | cancellation
  | destructor
deriving DecidableEq, Repr

/-- The code that a path is meant to deliver. -/
def Cause.code : Cause → ErrorCode
  | .count | .release | .releaseAll => .success
  | .cancellation | .destructor => .operationAborted

/-- A posted completion with the path that posted it. -/
structure Completion where
  cause : Cause
  posted : Posted
deriving DecidableEq, Repr

structure SemaphoreRun where
  semaphore : Semaphore
  alive : Bool
  acquires : Nat
  log : List Completion
  releases : Nat
  drained : Nat
  taken : Nat

namespace SemaphoreRun

inductive Event where
  | asyncAcquire (executor : Option Executor) (connected : Bool)
  | tryAcquire
  | release
  | releaseAll
  | cancel (ticket : Nat) (type : CancellationType)
  | destroy
deriving DecidableEq, Repr

def start (exec : Executor) (initialCount : Int) : SemaphoreRun :=
  ⟨.create exec initialCount, true, 0, [], 0, 0, 0⟩

/-- The handler of the next acquire: its own number, and its own slot. -/
def handler (s : SemaphoreRun) (executor : Option Executor) (connected : Bool) : Handler :=
  ⟨s.acquires, executor, if connected then some s.acquires else none⟩

/-- A connected slot of an acquire has the acquire's own number. -/
theorem handler_own (s : SemaphoreRun) (executor : Option Executor) (connected : Bool)
    (slot : Slot) (connects : (s.handler executor connected).slot = some slot) :
    slot = (s.handler executor connected).id := by
  cases connected
  · simp [handler] at connects
  · exact (by simpa [handler] using connects.symm)

/-- Take over an operation's result, logging what it posted under its cause. -/
def record (s : SemaphoreRun) (cause : Cause) (result : Semaphore × List Posted) : SemaphoreRun :=
  { s with
    semaphore := result.1
    log := s.log ++ result.2.map (fun posted => ⟨cause, posted⟩) }

/-- The members of the semaphore, called while it exists. -/
def call (s : SemaphoreRun) : Event → SemaphoreRun
  | .asyncAcquire executor connected =>
    { s.record .count (s.semaphore.asyncAcquire (s.handler executor connected)) with
      acquires := s.acquires + 1 }
  | .tryAcquire =>
    { s with
      semaphore := s.semaphore.tryAcquire.2
      taken := s.taken + if s.semaphore.tryAcquire.1 then 1 else 0 }
  | .release => { s.record .release s.semaphore.release with releases := s.releases + 1 }
  | .releaseAll =>
    { s.record .releaseAll s.semaphore.releaseAll.2 with
      drained := s.drained + s.semaphore.releaseAll.1 }
  | .cancel ticket type => s.record .cancellation (s.semaphore.emit ticket type)
  | .destroy => { s.record .destructor s.semaphore.destroy with alive := false }

/-- A cancellation may be emitted on the slot of any earlier acquire at any time.
Everything else needs the semaphore to exist. -/
def admits (s : SemaphoreRun) : Event → Bool
  | .cancel ticket _ => ticket < s.acquires
  | _ => s.alive

def machine : Machine SemaphoreRun Event :=
  ⟨fun s event => if s.admits event then some (s.call event) else none⟩

/-- An enabled step is the call of an admitted event. -/
theorem step_eq {s next : SemaphoreRun} {event : Event} :
    machine.step s event = some next ↔ s.admits event = true ∧ s.call event = next := by
  simp [machine]

/-- Completions posted so far for one acquire. -/
def completions (s : SemaphoreRun) (ticket : Nat) : List Completion :=
  s.log.filter (·.posted.handler.id == ticket)

/-- The completions of a record are the earlier ones and those it posted. -/
theorem record_completions (s : SemaphoreRun) (cause : Cause)
    (result : Semaphore × List Posted) (ticket : Nat) :
    ((s.record cause result).completions ticket).length =
      (s.completions ticket).length + Semaphore.postedFor result.2 ticket := by
  simp [completions, record, Semaphore.postedFor, List.countP_eq_length_filter, List.filter_map,
    Function.comp_def]

/-- The acquires that had to wait and whose wait has ended, in order. -/
def waitsEnded (s : SemaphoreRun) : List Nat :=
  (s.log.filter (fun completion => completion.cause ≠ .count)).map (·.posted.handler.id)

/-- The acquires that were completed between two states of a run, in order. -/
def completedSince (s next : SemaphoreRun) : List Nat :=
  (next.log.drop s.log.length).map (·.posted.handler.id)

/-- A call that is no acquire ends some of the waits, on one path, and posts no others. -/
structure Ends (s next : SemaphoreRun) (cause : Cause) (posted : List Posted) : Prop where
  waited : cause ≠ .count
  log : next.log = s.log ++ posted.map (fun item => ⟨cause, item⟩)
  completes : s.semaphore.Completes cause.code next.semaphore posted
  acquires : next.acquires = s.acquires
  slots : next.semaphore.SlotsLinked

/-- What such a call completes is what it posts for. -/
theorem Ends.completedSince {s next : SemaphoreRun} {cause : Cause} {posted : List Posted}
    (ends : s.Ends next cause posted) : s.completedSince next = posted.map (·.handler.id) := by
  rw [SemaphoreRun.completedSince, ends.log, List.drop_left, List.map_map]
  rfl

/-- What is posted by a call that ends waits is what it ends. -/
theorem Ends.waitsEnded {s next : SemaphoreRun} {cause : Cause} {posted : List Posted}
    (ends : s.Ends next cause posted) :
    next.waitsEnded = s.waitsEnded ++ posted.map (·.handler.id) := by
  have waited := ends.waited
  have every : (posted.map (fun item => (⟨cause, item⟩ : Completion))).filter
      (fun completion => completion.cause ≠ .count) = posted.map (fun item => ⟨cause, item⟩) := by
    rw [List.filter_eq_self]
    intro completion member
    obtain ⟨item, -, rfl⟩ := List.mem_map.mp member
    simpa using waited
  rw [SemaphoreRun.waitsEnded, ends.log, List.filter_append, every, List.map_append, List.map_map]
  rfl

/-- Every call that is no acquire ends waits on a path of its own, or none. -/
theorem call_ends {s : SemaphoreRun} (linked : s.semaphore.SlotsLinked) {event : Event}
    (other : ∀ executor connected, event ≠ .asyncAcquire executor connected) :
    ∃ cause posted, s.Ends (s.call event) cause posted := by
  cases event with
  | asyncAcquire executor connected => exact absurd rfl (other executor connected)
  | tryAcquire =>
    exact ⟨.release, [], by decide, (List.append_nil _).symm, s.semaphore.tryAcquire_completes, rfl,
      linked.tryAcquire⟩
  | release =>
    exact ⟨.release, _, by decide, rfl, s.semaphore.release_completes, rfl, linked.release⟩
  | releaseAll =>
    exact ⟨.releaseAll, _, by decide, rfl, s.semaphore.drained_completes .success, rfl,
      linked.drained .success⟩
  | cancel ticket type =>
    exact ⟨.cancellation, _, by decide, rfl, Semaphore.emit_completes linked ticket type, rfl,
      linked.emit ticket type⟩
  | destroy =>
    exact ⟨.destructor, _, by decide, rfl, s.semaphore.drained_completes .operationAborted, rfl,
      linked.drained .operationAborted⟩

/-- Waiting operations are numbered by their acquires and have slots of their own, from
any initial count. -/
structure Numbered (s : SemaphoreRun) : Prop where
  owned : s.semaphore.Owned
  slots : s.semaphore.SlotsLinked
  older : ∀ op ∈ s.semaphore.waiters, op.handler.id < s.acquires

theorem start_numbered (exec : Executor) (initialCount : Int) :
    (start exec initialCount).Numbered where
  owned := ⟨List.nodup_nil, fun op member => absurd member List.not_mem_nil,
    fun op member => absurd member List.not_mem_nil⟩
  slots slot op assigned := by simp [start, Semaphore.create] at assigned
  older op member := absurd member List.not_mem_nil

/-- An operation still waits exactly when its wait is not among those that ended. -/
theorem Numbered.stays {s next : SemaphoreRun} {cause : Cause} {posted : List Posted}
    (numbered : s.Numbered) (ends : s.Ends next cause posted) (op : WaitOp)
    (member : op ∈ s.semaphore.waiters) :
    op ∈ next.semaphore.waiters ↔ op.handler.id ∉ posted.map (·.handler.id) := by
  have once := numbered.owned.linked_le op.handler.id
  have moved := ends.completes.census op.handler.id
  constructor
  · intro stays ended
    obtain ⟨item, inside, same⟩ := List.mem_map.mp ended
    have stillLinked : 0 < next.semaphore.linked op.handler.id :=
      List.countP_pos_iff.mpr ⟨op, stays, by simp⟩
    have alsoPosted : 0 < Semaphore.postedFor posted op.handler.id :=
      List.countP_pos_iff.mpr ⟨item, inside, by simpa using same⟩
    omega
  · intro notEnded
    have wasLinked : 0 < s.semaphore.linked op.handler.id :=
      List.countP_pos_iff.mpr ⟨op, member, by simp⟩
    have notPosted : Semaphore.postedFor posted op.handler.id = 0 := by
      refine List.countP_eq_zero.mpr fun item inside same => notEnded ?_
      exact List.mem_map.mpr ⟨item, inside, by simpa using same⟩
    have stillLinked : 0 < next.semaphore.linked op.handler.id := by omega
    obtain ⟨other, stays, same⟩ := List.countP_pos_iff.mp stillLinked
    have before := ends.completes.remaining.subset stays
    have equal : other = op :=
      List.inj_on_of_nodup_map numbered.owned.distinct before member (by simpa using same)
    exact equal ▸ stays

/-- The waits that remain keep their order. -/
theorem Numbered.remaining {s next : SemaphoreRun} {cause : Cause} {posted : List Posted}
    (numbered : s.Numbered) (ends : s.Ends next cause posted) :
    next.semaphore.waiters = s.semaphore.waiters.filter
      (fun op => op.handler.id ∉ posted.map (·.handler.id)) := by
  have distinct : s.semaphore.waiters.Nodup := numbered.owned.distinct.of_map
  have kept : next.semaphore.waiters.Sublist (s.semaphore.waiters.filter
      (fun op => op.handler.id ∉ posted.map (·.handler.id))) := by
    have every : next.semaphore.waiters.filter
        (fun op => op.handler.id ∉ posted.map (·.handler.id)) = next.semaphore.waiters := by
      refine List.filter_eq_self.mpr fun op member => decide_eq_true ?_
      exact (numbered.stays ends op (ends.completes.remaining.subset member)).mp member
    rw [← every]
    exact ends.completes.remaining.filter _
  have found : s.semaphore.waiters.filter
      (fun op => op.handler.id ∉ posted.map (·.handler.id)) ⊆ next.semaphore.waiters := by
    intro op member
    obtain ⟨before, notEnded⟩ := List.mem_filter.mp member
    exact (numbered.stays ends op before).mpr (of_decide_eq_true notEnded)
  exact kept.eq_of_length_le (List.subperm_of_subset (distinct.filter _) found).length_le

/-- A wait ends once. -/
theorem Numbered.ended_once {s next : SemaphoreRun} {cause : Cause} {posted : List Posted}
    (numbered : s.Numbered) (ends : s.Ends next cause posted) :
    (posted.map (·.handler.id)).Nodup := by
  refine List.nodup_iff_count_le_one.mpr fun id => ?_
  have counted : (posted.map (·.handler.id)).count id = Semaphore.postedFor posted id := by
    rw [List.count_eq_countP, List.countP_map]
    rfl
  have once := numbered.owned.linked_le id
  have moved := ends.completes.census id
  omega

/-- Ending waits keeps the numbers of the others. -/
theorem Numbered.ended {s next : SemaphoreRun} {cause : Cause} {posted : List Posted}
    (numbered : s.Numbered) (ends : s.Ends next cause posted) : next.Numbered where
  owned := numbered.owned.completes ends.completes
  slots := ends.slots
  older op member := by
    rw [ends.acquires]
    exact numbered.older op (ends.completes.remaining.subset member)

/-- A new acquire takes the next number. -/
theorem Numbered.acquired {s : SemaphoreRun} (numbered : s.Numbered)
    (executor : Option Executor) (connected : Bool) :
    (s.call (.asyncAcquire executor connected)).Numbered where
  owned := by
    refine numbered.owned.asyncAcquire (s.handler executor connected) ?_ ?_
    · refine List.countP_eq_zero.mpr fun op member same => ?_
      have below := numbered.older op member
      have newest : op.handler.id = s.acquires := by simpa [handler] using same
      omega
    · exact s.handler_own executor connected
  slots := numbered.slots.asyncAcquire _
  older op member := by
    rcases Semaphore.asyncAcquire_waiters _ _ op member with old | rfl
    · exact Nat.lt_succ_of_lt (numbered.older op old)
    · exact Nat.lt_succ_self s.acquires

/-- Each acquire is in one place, each completion carries the code of its cause,
waiting operations use their own slots, and a destroyed semaphore has none. -/
structure Settled (s : SemaphoreRun) : Prop where
  represents : ∃ queue, s.semaphore.Represents queue
  census : ∀ ticket, s.semaphore.linked ticket + (s.completions ticket).length =
    if ticket < s.acquires then 1 else 0
  codes : ∀ completion ∈ s.log, completion.posted.ec = completion.cause.code
  slots : ∀ op ∈ s.semaphore.waiters, ∀ slot, op.handler.slot = some slot → slot = op.handler.id
  destroyed : s.alive = false → s.semaphore.waiters = []

theorem start_settled (exec : Executor) (initialCount : Int) (valid : 0 ≤ initialCount) :
    (start exec initialCount).Settled where
  represents := ⟨_, Semaphore.create_represents exec initialCount valid⟩
  census := by simp [start, Semaphore.create, Semaphore.linked, completions]
  codes := by simp [start]
  slots := by simp [start, Semaphore.create]
  destroyed := by simp [start, Semaphore.create]

/-- Ending waits with the code of their cause keeps every acquire settled. -/
theorem Settled.ended {s : SemaphoreRun} (settled : s.Settled) (cause : Cause)
    {result : Semaphore × List Posted}
    (represents : ∃ queue, result.1.Represents queue)
    (completes : s.semaphore.Completes cause.code result.1 result.2) :
    (s.record cause result).Settled where
  represents := represents
  census ticket := by
    have before := settled.census ticket
    have moved := completes.census ticket
    rw [record_completions]
    change result.1.linked ticket + _ = if ticket < s.acquires then 1 else 0
    omega
  codes completion member := by
    rcases List.mem_append.mp member with old | new
    · exact settled.codes completion old
    · obtain ⟨item, inside, rfl⟩ := List.mem_map.mp new
      obtain ⟨op, -, rfl⟩ := completes.source item inside
      rfl
  slots op member := settled.slots op (completes.remaining.subset member)
  destroyed dead := by
    have vacant := settled.destroyed dead
    exact List.sublist_nil.mp (vacant ▸ completes.remaining)

/-- Initiating an acquire settles it: it is granted from the count, or it waits. -/
theorem Settled.acquired {s : SemaphoreRun} (settled : s.Settled) (alive : s.alive = true)
    (executor : Option Executor) (connected : Bool) :
    (s.call (.asyncAcquire executor connected)).Settled := by
  obtain ⟨queue, represents⟩ := settled.represents
  refine ⟨⟨_, (Semaphore.asyncAcquire_represents represents _).1⟩, ?_, ?_, ?_, ?_⟩
  · intro ticket
    have before := settled.census ticket
    have moved := s.semaphore.asyncAcquire_census (s.handler executor connected) ticket
    change _ + ((s.record .count _).completions ticket).length =
      if ticket < s.acquires + 1 then 1 else 0
    rw [record_completions]
    change (s.semaphore.asyncAcquire (s.handler executor connected)).1.linked ticket + _ = _
    change _ = _ + if s.acquires = ticket then 1 else 0 at moved
    split at moved <;> split at before <;> split <;> omega
  · intro completion member
    rcases List.mem_append.mp member with old | new
    · exact settled.codes completion old
    · obtain ⟨item, inside, rfl⟩ := List.mem_map.mp new
      rw [Semaphore.asyncAcquire_posted s.semaphore _ item inside]
      rfl
  · intro op member slot own
    rcases Semaphore.asyncAcquire_waiters s.semaphore _ op member with old | rfl
    · exact settled.slots op old slot own
    · exact s.handler_own executor connected slot own
  · intro dead
    exact absurd (alive.symm.trans dead) (by decide)

/-- Every admitted event keeps every acquire settled. -/
theorem step_settled (s : SemaphoreRun) (event : Event) (next : SemaphoreRun)
    (settled : s.Settled) (stepped : machine.step s event = some next) : next.Settled := by
  obtain ⟨admitted, rfl⟩ := step_eq.mp stepped
  obtain ⟨queue, represents⟩ := settled.represents
  cases event with
  | asyncAcquire executor connected => exact settled.acquired admitted executor connected
  | tryAcquire =>
    have ended : (s.record .release (s.semaphore.tryAcquire.2, [])).Settled :=
      settled.ended .release ⟨_, (Semaphore.tryAcquire_represents represents).1⟩
        s.semaphore.tryAcquire_completes
    have silent : s.record .release (s.semaphore.tryAcquire.2, []) =
        { s with semaphore := s.semaphore.tryAcquire.2 } := by simp [record]
    rw [silent] at ended
    exact ⟨ended.represents, ended.census, ended.codes, ended.slots, ended.destroyed⟩
  | release =>
    have ended := settled.ended .release
      ⟨_, (Semaphore.release_represents represents).1⟩ (Semaphore.release_completes _)
    exact ⟨ended.represents, ended.census, ended.codes, ended.slots, ended.destroyed⟩
  | releaseAll =>
    have ended := settled.ended .releaseAll
      ⟨_, Semaphore.drained_represents represents .success⟩
      (s.semaphore.drained_completes .success)
    exact ⟨ended.represents, ended.census, ended.codes, ended.slots, ended.destroyed⟩
  | cancel ticket type =>
    exact settled.ended .cancellation
      (Semaphore.emit_represents represents ticket type)
      (Semaphore.emit_completes represents.slots ticket type)
  | destroy =>
    have ended := settled.ended .destructor
      ⟨_, Semaphore.drained_represents represents .operationAborted⟩
      (s.semaphore.drained_completes .operationAborted)
    refine ⟨ended.represents, ended.census, ended.codes, ended.slots, fun _ => ?_⟩
    exact (Semaphore.drained_exact .operationAborted s.semaphore).waiters

/-- Settlement over whole runs. -/
theorem run_settled (exec : Executor) (initialCount : Int) (valid : 0 ≤ initialCount)
    {events : List Event} {last : SemaphoreRun}
    (ran : machine.run (start exec initialCount) events = some last) : last.Settled :=
  machine.run_invariant step_settled (start_settled exec initialCount valid) ran

/-- A cancellation changes nothing once its acquire has been posted: no operation
is assigned to the acquire's slot any more. -/
theorem cancel_after_posted {s : SemaphoreRun} (settled : s.Settled) (ticket : Nat)
    (type : CancellationType) (issued : ticket < s.acquires) (posted : s.completions ticket ≠ []) :
    machine.step s (.cancel ticket type) = some s := by
  obtain ⟨queue, represents⟩ := settled.represents
  have unlinked : s.semaphore.linked ticket = 0 := by
    have placed := settled.census ticket
    have positive := List.length_pos_iff.mpr posted
    rw [if_pos issued] at placed
    omega
  refine step_eq.mpr ⟨by simpa [admits] using issued, ?_⟩
  rcases Semaphore.emit_cases represents.slots ticket type with unchanged | ⟨op, member, own, -⟩
  · simp [call, record, unchanged]
  · have same : ticket = op.handler.id := settled.slots op member ticket own
    have present : 0 < s.semaphore.linked ticket :=
      List.countP_pos_iff.mpr ⟨op, member, by simp [same]⟩
    omega

/-- Each acquire is linked once with nothing posted, or unlinked with exactly one
completion posted, which carries the code of the path that posted it. Later
cancellations change nothing, and the destructor leaves no operation linked. -/
theorem acquire_completes_exactly_once (exec : Executor) (initialCount : Int)
    (valid : 0 ≤ initialCount) (events : List Event) (s : SemaphoreRun)
    (ran : machine.run (start exec initialCount) events = some s) :
    (∀ ticket < s.acquires,
      (s.semaphore.linked ticket = 1 ∧ s.completions ticket = []) ∨
      (s.semaphore.linked ticket = 0 ∧ ∃ completion, s.completions ticket = [completion] ∧
        completion.posted.ec = completion.cause.code)) ∧
    (∀ ticket < s.acquires, ∀ type, s.completions ticket ≠ [] →
      machine.step s (.cancel ticket type) = some s) ∧
    (s.alive = false → s.semaphore.waiters = []) := by
  have settled : s.Settled := run_settled exec initialCount valid ran
  refine ⟨fun ticket issued => ?_, fun ticket issued type posted =>
    cancel_after_posted settled ticket type issued posted, settled.destroyed⟩
  have placed := settled.census ticket
  rw [if_pos issued] at placed
  cases done : s.completions ticket with
  | nil =>
    rw [done, List.length_nil] at placed
    exact .inl ⟨by omega, rfl⟩
  | cons completion rest =>
    rw [done, List.length_cons] at placed
    have alone : rest = [] := List.length_eq_zero_iff.mp (by omega)
    have logged : completion ∈ s.log :=
      List.mem_of_mem_filter (p := fun item => item.posted.handler.id == ticket)
        (by rw [← completions, done]; exact List.mem_cons_self)
    exact .inr ⟨by omega, completion, by rw [alone], settled.codes completion logged⟩

/-- A grant from the count, a grant by release, a cancellation in the middle of the
line and the destructor, followed by a late cancellation. -/
def everyPath : List Event :=
  [.asyncAcquire none true, .asyncAcquire (some 7) true, .asyncAcquire none true,
    .asyncAcquire none false, .cancel 2 .total, .release, .destroy, .cancel 1 .all]

theorem acquire_completes_exactly_once_everyPath :
    ∃ s, machine.run (start 0 1) everyPath = some s ∧
      s.log.map (fun done => (done.posted.handler.id, done.cause, done.posted.ec)) =
        [(0, .count, .success), (2, .cancellation, .operationAborted),
          (1, .release, .success), (3, .destructor, .operationAborted)] ∧
      s.alive = false ∧ s.semaphore.waiters = [] := by
  refine ⟨_, rfl, rfl, rfl, ?_⟩
  exact (acquire_completes_exactly_once 0 1 (by decide) everyPath _ rfl).2.2 rfl

end SemaphoreRun

end Asioex
