import Asioex.BilistNode
import Asioex.SemaphoreRuns

/-!
# The ring of a semaphore

The semaphore's model keeps the waiting operations as a list. Here its runs come with
the nodes that the code links them by: the sentinel `waiters_`, and one node for the
operation of each acquire. An acquire that waits constructs its node and links it
before the sentinel; `complete` unlinks the node of its operation.

The nodes carry the list in every run. What the code reads from them is therefore what
the model reads from the list: whether the ring is empty, its first operation, and the
size that `value` takes.
-/

namespace Asioex

/-- The nodes of a semaphore: its member `waiters_`, and the operations, by acquire. -/
inductive RingNode where
  | waiters
  | op (ticket : Nat)
deriving DecidableEq, Repr

/-- A run of a semaphore with the nodes of its ring. -/
structure SemaphoreRing where
  run : SemaphoreRun
  nodes : BilistNodes RingNode

namespace SemaphoreRing

def start (exec : Executor) (initialCount : Int) (memory : BilistNodes RingNode) :
    SemaphoreRing :=
  ⟨.start exec initialCount, memory.construct .waiters⟩

/-- The calls on nodes that an event of the semaphore makes. -/
def calls (s next : SemaphoreRun) : SemaphoreRun.Event → List (BilistNode.Event RingNode)
  | .asyncAcquire _ _ =>
    if s.semaphore.count ≠ 0 then []
    else [.construct (.op s.acquires), .linkBefore (.op s.acquires) .waiters]
  | _ => (s.completedSince next).map (fun ticket => .unlink (.op ticket))

def machine : Machine SemaphoreRing SemaphoreRun.Event :=
  ⟨fun s event => (SemaphoreRun.machine.step s.run event).map fun next =>
    ⟨next, (calls s.run next event).foldl BilistNode.call s.nodes⟩⟩

/-- The nodes of the waiting operations, oldest first. -/
def waiting (s : SemaphoreRun) : List RingNode :=
  s.semaphore.waiters.map (fun op => .op op.handler.id)

/-- The nodes carry the list of waiting operations. -/
structure Carries (s : SemaphoreRing) : Prop where
  numbered : s.run.Numbered
  ring : s.nodes.Ring .waiters (waiting s.run)

/-- Unlinking some of the nodes of a ring leaves the others. -/
theorem unlinks {nodes : BilistNodes RingNode} {list : List RingNode}
    (ring : nodes.Ring .waiters list) (tickets : List Nat) (distinct : tickets.Nodup)
    (members : ∀ ticket ∈ tickets, RingNode.op ticket ∈ list) :
    ((tickets.map (fun ticket => BilistNode.Event.unlink (.op ticket))).foldl
      BilistNode.call nodes).Ring .waiters (list.diff (tickets.map .op)) := by
  induction tickets generalizing nodes list with
  | nil => exact ring
  | cons ticket rest inductionHypothesis =>
    obtain ⟨apart, later⟩ := List.nodup_cons.mp distinct
    have first := BilistNode.unlink_erases ring (members ticket List.mem_cons_self)
    have remaining : ∀ other ∈ rest, RingNode.op other ∈ list.erase (.op ticket) := by
      intro other member
      have different : RingNode.op other ≠ .op ticket := by
        intro same
        exact apart (RingNode.op.inj same ▸ member)
      exact (List.mem_erase_of_ne different).mpr (members other (List.mem_cons_of_mem _ member))
    rw [List.map_cons, List.foldl_cons, List.map_cons, List.diff_cons]
    exact inductionHypothesis first later remaining

/-- An acquire that waits is linked at the end of the ring, which is before `waiters_`. -/
theorem Carries.acquired {s : SemaphoreRing} (carries : s.Carries) (executor : Option Executor)
    (connected : Bool) (next : SemaphoreRun)
    (called : s.run.call (.asyncAcquire executor connected) = next) :
    Carries ⟨next, (calls s.run next (.asyncAcquire executor connected)).foldl BilistNode.call
      s.nodes⟩ := by
  refine ⟨called ▸ carries.numbered.acquired executor connected, ?_⟩
  subst called
  by_cases granted : s.run.semaphore.count ≠ 0
  · have line : waiting (s.run.call (.asyncAcquire executor connected)) = waiting s.run := by
      simp [waiting, SemaphoreRun.call, SemaphoreRun.record, Semaphore.asyncAcquire, granted,
        Semaphore.decrement]
    rw [line, calls, if_pos granted]
    exact carries.ring
  · have line : waiting (s.run.call (.asyncAcquire executor connected)) =
        waiting s.run ++ [.op s.run.acquires] := by
      simp [waiting, SemaphoreRun.call, SemaphoreRun.record, Semaphore.asyncAcquire, granted,
        SemaphoreRun.handler]
    have fresh : .op s.run.acquires ∉ .waiters :: waiting s.run := by
      intro member
      rcases List.mem_cons.mp member with same | inside
      · cases same
      · obtain ⟨op, waits, same⟩ := List.mem_map.mp inside
        exact absurd (RingNode.op.inj same) (Nat.ne_of_lt (carries.numbered.older op waits))
    have sentinel : .waiters ∉ waiting s.run := (List.nodup_cons.mp carries.ring.distinct).1
    rw [line, calls, if_neg granted, ← BilistNode.insertBefore_end _ .waiters _ sentinel]
    exact BilistNode.linkBefore_inserts (BilistNodes.construct_outside carries.ring fresh) fresh
      List.mem_cons_self

/-- A call that ends waits unlinks the nodes of these. -/
theorem Carries.ended {s : SemaphoreRing} (carries : s.Carries) {next : SemaphoreRun}
    {cause : Cause} {posted : List Posted} (ends : s.run.Ends next cause posted) :
    Carries ⟨next, ((s.run.completedSince next).map (fun ticket =>
      BilistNode.Event.unlink (.op ticket))).foldl BilistNode.call s.nodes⟩ := by
  refine ⟨carries.numbered.ended ends, ?_⟩
  have members : ∀ ticket ∈ posted.map (·.handler.id), RingNode.op ticket ∈ waiting s.run := by
    intro ticket member
    obtain ⟨item, inside, rfl⟩ := List.mem_map.mp member
    obtain ⟨op, waited, rfl⟩ := ends.completes.source item inside
    exact List.mem_map.mpr ⟨op, waited, rfl⟩
  have distinct : (waiting s.run).Nodup := (List.nodup_cons.mp carries.ring.distinct).2
  have line : waiting next = (waiting s.run).diff ((posted.map (·.handler.id)).map .op) := by
    rw [distinct.sdiff_eq_filter, waiting, carries.numbered.remaining ends, waiting,
      List.filter_map]
    congr 1
    refine List.filter_congr fun op _ => ?_
    simp
  rw [ends.completedSince, line]
  exact unlinks carries.ring _ (carries.numbered.ended_once ends) members

/-- Every admitted event keeps the nodes in step with the list. -/
theorem step_carries (s : SemaphoreRing) (event : SemaphoreRun.Event) (next : SemaphoreRing)
    (carries : s.Carries) (stepped : machine.step s event = some next) : next.Carries := by
  obtain ⟨run, taken, rfl⟩ := Option.map_eq_some_iff.mp stepped
  obtain ⟨-, called⟩ := SemaphoreRun.step_eq.mp taken
  have ends (other : ∀ executor connected, event ≠ .asyncAcquire executor connected) :
      ∃ cause posted, s.run.Ends run cause posted :=
    called ▸ SemaphoreRun.call_ends carries.numbered.slots other
  cases event with
  | asyncAcquire executor connected => exact carries.acquired executor connected run called
  | tryAcquire | release | releaseAll | destroy =>
    obtain ⟨cause, posted, ended⟩ := ends (by simp)
    exact carries.ended ended
  | cancel ticket type =>
    obtain ⟨cause, posted, ended⟩ := ends (by simp)
    exact carries.ended ended

/-- In every run of a semaphore, from any initial count, the nodes behind `waiters_` are
those of the waiting operations in the order of the list, in both directions; the ring is
empty exactly when the list is; and `size` returns the length of the list. -/
theorem ring_carries_waiters (exec : Executor) (initialCount : Int)
    (memory : BilistNodes RingNode) (events : List SemaphoreRun.Event) (s : SemaphoreRing)
    (ran : machine.run (start exec initialCount memory) events = some s) :
    List.iterate s.nodes.next (s.nodes.next .waiters) (s.run.semaphore.waiters.length + 1) =
      waiting s.run ++ [.waiters] ∧
    List.iterate s.nodes.prev (s.nodes.prev .waiters) (s.run.semaphore.waiters.length + 1) =
      (waiting s.run).reverse ++ [.waiters] ∧
    (s.nodes.next .waiters = .waiters ↔ s.run.semaphore.waiters = []) ∧
    ∀ fuel, s.run.semaphore.waiters.length ≤ fuel →
      s.nodes.size .waiters fuel = some s.run.semaphore.waiters.length := by
  have initial : (start exec initialCount memory).Carries :=
    ⟨SemaphoreRun.start_numbered exec initialCount, memory.construct_ring .waiters⟩
  have carries : s.Carries := machine.run_invariant step_carries initial ran
  have length : (waiting s.run).length = s.run.semaphore.waiters.length := List.length_map _
  have forward := carries.ring.forward.read
  have backward := carries.ring.backward.read
  rw [List.length_reverse, length] at backward
  rw [length] at forward
  refine ⟨forward, backward, ?_, fun fuel enough => ?_⟩
  · have front := congrArg List.head? forward
    rw [List.iterate, List.head?_cons] at front
    cases line : s.run.semaphore.waiters with
    | nil => simpa [waiting, line] using front
    | cons op rest =>
      have oldest : s.nodes.next .waiters = .op op.handler.id := by
        simpa [waiting, line] using front
      simp [oldest]
  · rw [← length]
    exact BilistNodes.size_ring carries.ring fuel (length ▸ enough)

/-- Three acquires wait, and the one in the middle is cancelled. -/
def middle : List SemaphoreRun.Event :=
  [.asyncAcquire none true, .asyncAcquire none true, .asyncAcquire none true,
    .cancel 1 CancellationType.terminal]

theorem ring_carries_waiters_middle :
    ∃ s, machine.run (start 0 0 ⟨id, id⟩) middle = some s ∧
      waiting s.run = [.op 0, .op 2] ∧
      List.iterate s.nodes.next (s.nodes.next .waiters) 3 = [.op 0, .op 2, .waiters] := by
  refine ⟨_, rfl, rfl, ?_⟩
  exact (ring_carries_waiters 0 0 ⟨id, id⟩ middle _ rfl).1

end SemaphoreRing

end Asioex
