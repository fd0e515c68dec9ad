import Mathlib.Data.List.Nodup
import Asioex.Semaphore

/-!
# The semaphore refines a token queue

A semaphore represents a token queue when its ring is the line of claimants, its
counter is the number of free tokens, every assigned slot belongs to an operation
in the ring, and no assertion has failed. The queue carries the exclusion of tokens
and claimants in its type, so each operation's lemma gives the counter invariant
together with the outcome that its caller needs.

The posted completions are stated with the state change. Conservation of the
operations themselves is counted separately: an operation that leaves the ring is
posted exactly once, whichever of the four ways it leaves.
-/

namespace Asioex.Semaphore

/-- Every assigned slot belongs to an operation in the ring, which was given it. -/
def SlotsLinked (s : Semaphore) : Prop :=
  ∀ slot op, s.slots slot = some op → op ∈ s.waiters ∧ op.handler.slot = some slot

section SlotsLinked

variable {s : Semaphore} (linked : s.SlotsLinked)
include linked

/-- Completing an operation clears the slot that it was given, and no other operation
leaves the ring. -/
theorem SlotsLinked.complete (op : WaitOp) (ec : ErrorCode) :
    (s.complete op ec).1.SlotsLinked := by
  intro slot other assigned
  obtain ⟨before, apart⟩ := clearSlot_slots s op.handler.slot slot other assigned
  obtain ⟨member, own⟩ := linked slot other before
  refine ⟨?_, own⟩
  have distinct : other ≠ op := by
    rintro rfl
    exact apart own
  simpa using (List.mem_erase_of_ne distinct).mpr member

/-- An acquire that waits assigns its own slot. -/
theorem SlotsLinked.asyncAcquire (handler : Handler) :
    (s.asyncAcquire handler).1.SlotsLinked := by
  by_cases granted : s.count ≠ 0
  · simp only [Semaphore.asyncAcquire, granted, ne_eq, not_false_eq_true, ↓reduceIte]
    exact linked
  · simp only [Semaphore.asyncAcquire, granted, ↓reduceIte]
    intro slot op assigned
    cases own : handler.slot with
    | none =>
      simp only [addWaiter, construct, own] at assigned ⊢
      obtain ⟨member, same⟩ := linked slot op assigned
      exact ⟨List.mem_append_left _ member, same⟩
    | some mine =>
      simp only [addWaiter, construct, own] at assigned ⊢
      by_cases same : slot = mine
      · subst same
        obtain rfl : _ = op := by simpa using assigned
        exact ⟨by simp, own⟩
      · rw [Function.update_of_ne same] at assigned
        obtain ⟨member, kept⟩ := linked slot op assigned
        exact ⟨List.mem_append_left _ member, kept⟩

/-- `try_acquire` touches neither the ring nor the slots. -/
theorem SlotsLinked.tryAcquire : s.tryAcquire.2.SlotsLinked := by
  unfold Semaphore.tryAcquire
  split
  · exact linked
  · exact linked

/-- The token that `release` hands on does not matter to the slots. -/
theorem SlotsLinked.release : s.release.1.SlotsLinked := by
  have passed : s.increment.decrement.SlotsLinked := linked
  cases line : s.waiters with
  | nil =>
    have same : s.release = (s.increment, []) := by simp [Semaphore.release, line]
    rw [same]
    exact linked
  | cons op rest =>
    have same : s.release.1 = (s.increment.decrement.complete op .success).1 := by
      simp [Semaphore.release, line]
    rw [same]
    exact passed.complete op .success

/-- A drain leaves no slot assigned. -/
theorem SlotsLinked.drained (ec : ErrorCode) : (drained ec s).2.1.SlotsLinked := by
  intro slot op assigned
  obtain ⟨before, others⟩ := (drained_exact ec s).slots slot op assigned
  obtain ⟨member, own⟩ := linked slot op before
  exact absurd own (others op member)

/-- An emission finds a waiting operation that was given this slot and aborts it,
or it changes nothing. -/
theorem emit_cases (slot : Slot) (type : CancellationType) :
    s.emit slot type = (s, []) ∨
      ∃ op ∈ s.waiters, op.handler.slot = some slot ∧
        s.emit slot type = ((s.complete op .operationAborted).1,
          [⟨op.executor, op.handler, .operationAborted⟩]) := by
  cases assigned : s.slots slot with
  | none => exact .inl (by simp [emit, assigned])
  | some op =>
    obtain ⟨member, own⟩ := linked slot op assigned
    by_cases effective : type.meets (.terminal ||| .partially ||| .total) = true
    · exact .inr ⟨op, member, own, by simp [emit, assigned, cancellationHandler, effective]⟩
    · exact .inl (by simp [emit, assigned, cancellationHandler, effective])

/-- An emission leaves the other slots as they are. -/
theorem SlotsLinked.emit (slot : Slot) (type : CancellationType) :
    (s.emit slot type).1.SlotsLinked := by
  rcases emit_cases linked slot type with unchanged | ⟨op, -, -, aborted⟩
  · rw [unchanged]
    exact linked
  · rw [aborted]
    exact linked.complete op .operationAborted

end SlotsLinked

/-- The refinement relation, with the two facts that surround the ring. -/
structure Represents (s : Semaphore) (queue : TokenQueue WaitOp) : Prop where
  waiters : s.waiters = queue.waiting
  count : s.count = queue.tokens
  slots : ∀ slot op, s.slots slot = some op → op ∈ s.waiters ∧ op.handler.slot = some slot
  asserted : s.asserted = true

/-- A constructed semaphore has its initial count free and nobody waiting. -/
theorem create_represents (exec : Executor) (initialCount : Int) (valid : 0 ≤ initialCount) :
    (create exec initialCount).Represents ⟨initialCount.toNat, [], .inr rfl⟩ where
  waiters := rfl
  count := (Int.toNat_of_nonneg valid).symm
  slots := by simp [create]
  asserted := rfl

section Operations

variable {s : Semaphore} {queue : TokenQueue WaitOp} (represents : s.Represents queue)
include represents

/-- The counter is zero exactly when no token is free. -/
theorem count_zero_iff : s.count = 0 ↔ queue.tokens = 0 := by
  rw [represents.count]
  exact Int.natCast_eq_zero

/-- Completing a waiting operation takes it out of the line and leaves no slot
assigned to it. -/
theorem complete_represents {op : WaitOp} (ec : ErrorCode) :
    (s.complete op ec).1.Represents (queue.withdraw op) where
  waiters := by simp [represents.waiters]
  count := by simp [represents.count]
  slots := SlotsLinked.complete represents.slots op ec
  asserted := by simp [represents.asserted]

/-- `async_acquire` spends a free token and posts success, or waits in line. -/
theorem asyncAcquire_represents (handler : Handler) :
    (s.asyncAcquire handler).1.Represents
        (queue.acquire ⟨handler.associatedExecutor s.exec, handler⟩) ∧
      (s.asyncAcquire handler).2 =
        if queue.tokens = 0 then [] else [⟨handler.associatedExecutor s.exec, handler, .success⟩] := by
  by_cases free : queue.tokens = 0
  · have zero : s.count = 0 := (count_zero_iff represents).mpr free
    simp only [asyncAcquire, zero, ne_eq, not_true_eq_false, ↓reduceIte, free, and_true]
    have slots := SlotsLinked.asyncAcquire represents.slots handler
    simp only [asyncAcquire, zero, ne_eq, not_true_eq_false, ↓reduceIte] at slots
    refine ⟨?_, ?_, slots, ?_⟩
    · simp [represents.waiters, free]
    · simp [zero, free]
    · simp [represents.asserted]
  · have nonzero : s.count ≠ 0 := fun zero => free ((count_zero_iff represents).mp zero)
    simp only [asyncAcquire, nonzero, ne_eq, not_false_eq_true, ↓reduceIte, free, and_true]
    have positive : 0 < s.count := by
      rw [represents.count]
      omega
    refine ⟨?_, ?_, represents.slots, ?_⟩
    · simp [decrement, represents.waiters, free]
    · simp only [decrement, represents.count, TokenQueue.acquire_tokens]
      omega
    · simp [decrement, represents.asserted, positive]

/-- `try_acquire` succeeds exactly when a token is free, and then spends it. -/
theorem tryAcquire_represents :
    s.tryAcquire.2.Represents queue.take ∧
      (s.tryAcquire.1 = true ↔ queue.tokens ≠ 0) := by
  have count := represents.count
  by_cases free : queue.tokens = 0
  · have zero : ¬0 < s.count := by omega
    refine ⟨⟨?_, ?_, ?_, ?_⟩, by simp [tryAcquire, zero, free]⟩
    · simp [tryAcquire, zero, represents.waiters]
    · simp [tryAcquire, represents.count, free]
    · simpa [tryAcquire, zero] using represents.slots
    · simp [tryAcquire, zero, represents.asserted]
  · have positive : 0 < s.count := by omega
    refine ⟨⟨?_, ?_, ?_, ?_⟩, by simp [tryAcquire, positive, free]⟩
    · simp [tryAcquire, positive, represents.waiters]
    · simp only [tryAcquire, positive, ↓reduceIte, TokenQueue.take_tokens]
      omega
    · simpa [tryAcquire, positive] using represents.slots
    · simp [tryAcquire, positive, represents.asserted]

/-- The token that `release` adds and hands on leaves the semaphore as it was, and
the assertion between holds: the counter was incremented from a nonnegative value. -/
theorem increment_decrement : s.increment.decrement = s := by
  have positive : 0 < s.count + 1 := by
    have count := represents.count
    omega
  simp [increment, decrement, positive]

/-- `release` with an operation waiting completes the oldest one. -/
theorem release_waiting {op : WaitOp} {rest : List WaitOp} (line : s.waiters = op :: rest) :
    s.release = ((s.complete op .success).1, [⟨op.executor, op.handler, .success⟩]) := by
  simp [release, line, increment_decrement represents]

/-- `release` serves the front of the line, or leaves the token free. -/
theorem release_represents :
    s.release.1.Represents queue.release ∧
      s.release.2 = (s.waiters.take 1).map (fun op => ⟨op.executor, op.handler, .success⟩) := by
  cases line : s.waiters with
  | nil =>
    have vacant : queue.waiting = [] := represents.waiters.symm.trans line
    refine ⟨⟨?_, ?_, ?_, ?_⟩, by simp [release, line]⟩
    · simp [release, line, vacant]
    · simp [release, increment, line, vacant, represents.count]
    · simpa [release, increment, line] using represents.slots
    · simp [release, increment, line, represents.asserted]
  | cons op rest =>
    have present : queue.waiting = op :: rest := represents.waiters.symm.trans line
    have served : queue.withdraw op = queue.release := by ext1 <;> simp [present]
    rw [release_waiting represents line, ← served]
    exact ⟨complete_represents represents .success, rfl⟩

/-- A drain empties the line, whatever code it completes the operations with. -/
theorem drained_represents (ec : ErrorCode) : (drained ec s).2.1.Represents queue.clear := by
  have drains := drained_exact ec s
  exact ⟨by simp [drains.waiters], by simp [drains.count, represents.count],
    SlotsLinked.drained represents.slots ec, drains.asserted.trans represents.asserted⟩

/-- An emission leaves a semaphore that represents some queue again. -/
theorem emit_represents (slot : Slot) (type : CancellationType) :
    ∃ after, (s.emit slot type).1.Represents after := by
  rcases emit_cases represents.slots slot type with unchanged | ⟨op, -, -, aborted⟩
  · rw [unchanged]
    exact ⟨queue, represents⟩
  · rw [aborted]
    exact ⟨queue.withdraw op, complete_represents represents .operationAborted⟩

/-- A ring whose size fits an `int` has the value of its token queue: the conversion
changes nothing, and as the counter is zero while operations wait the subtraction is
only a change of sign. -/
theorem value_represents (fits : s.waiters.length ≤ intMax) : s.value = some queue.value := by
  have same : toInt s.waiters.length = s.waiters.length := by
    unfold intMax at fits
    unfold toInt intValues
    exact Int.bmod_eq_of_le (by omega) (by omega)
  simp only [value, TokenQueue.value, same, ← represents.waiters, ← represents.count]
  split
  · next vacant => simp [vacant]
  · next waiting =>
    have zero : s.count = 0 := by
      rw [represents.count, queue.tokens_of_waiting (represents.waiters ▸ waiting)]
      rfl
    rw [subtract, if_pos ⟨by omega, by omega⟩]

end Operations

/-- How many times an operation with this handler is linked in the ring. -/
def linked (s : Semaphore) (id : Nat) : Nat := s.waiters.countP (·.handler.id == id)

/-- How many completions were posted for the handler. -/
def postedFor (posted : List Posted) (id : Nat) : Nat := posted.countP (·.handler.id == id)

/-- What every way of ending waits does: operations of the ring leave it in order,
each one is posted once with the given code, and nothing else is posted. -/
structure Completes (s : Semaphore) (ec : ErrorCode) (next : Semaphore) (posted : List Posted) :
    Prop where
  census : ∀ id, next.linked id + postedFor posted id = s.linked id
  source : ∀ item ∈ posted, ∃ op ∈ s.waiters, item = ⟨op.executor, op.handler, ec⟩
  remaining : next.waiters.Sublist s.waiters
  slots : ∀ op ∈ next.waiters, ∀ slot, op.handler.slot = some slot →
    next.slots slot = s.slots slot ∨ ∃ item ∈ posted, item.handler.slot = some slot
  exec : next.exec = s.exec

/-- Ending no wait at all. -/
theorem completes_nothing (s : Semaphore) (ec : ErrorCode) : s.Completes ec s [] where
  census := by simp [postedFor]
  source := by simp
  remaining := List.Sublist.refl _
  slots _ _ _ _ := .inl rfl
  exec := rfl

theorem complete_completes (s : Semaphore) {op : WaitOp} (member : op ∈ s.waiters)
    (ec : ErrorCode) :
    s.Completes ec (s.complete op ec).1 [⟨op.executor, op.handler, ec⟩] where
  census id := by
    have split := (List.perm_cons_erase member).countP_eq (fun waiter => waiter.handler.id == id)
    simp only [linked, complete_waiters, postedFor, List.countP_singleton]
    rw [split, List.countP_cons]
  source item inside := ⟨op, member, List.mem_singleton.mp inside⟩
  remaining := by simpa using List.erase_sublist
  slots _ _ slot _ := by
    cases cleared : op.handler.slot with
    | none => exact .inl (by simp [clearSlot, cleared])
    | some own =>
      by_cases same : slot = own
      · exact .inr ⟨_, List.mem_singleton_self _, by rw [cleared, same]⟩
      · exact .inl (by simp [clearSlot, cleared, Function.update_of_ne same])
  exec := by simp

theorem drained_completes (s : Semaphore) (ec : ErrorCode) :
    s.Completes ec (drained ec s).2.1 (drained ec s).2.2 := by
  have drains := drained_exact ec s
  refine ⟨fun id => ?_, ?_, by simp [drains.waiters], by simp [drains.waiters], drains.exec⟩
  · simp [linked, postedFor, drains.waiters, drains.posted, List.countP_map, Function.comp_def]
  · intro item member
    rw [drains.posted] at member
    obtain ⟨op, inside, rfl⟩ := List.mem_map.mp member
    exact ⟨op, inside, rfl⟩

/-- `try_acquire` ends no wait. -/
theorem tryAcquire_completes (s : Semaphore) : s.Completes .success s.tryAcquire.2 [] := by
  have line : s.tryAcquire.2.waiters = s.waiters := by
    unfold tryAcquire
    split <;> rfl
  have table : s.tryAcquire.2.slots = s.slots := by
    unfold tryAcquire
    split <;> rfl
  have exec : s.tryAcquire.2.exec = s.exec := by
    unfold tryAcquire
    split <;> rfl
  exact ⟨fun id => by simp [linked, postedFor, line], by simp, line ▸ List.Sublist.refl _,
    fun _ _ slot _ => .inl (congrFun table slot), exec⟩

/-- `release` ends the oldest wait, or none, whatever the count and its assertion. -/
theorem release_completes (s : Semaphore) : s.Completes .success s.release.1 s.release.2 := by
  cases line : s.waiters with
  | nil =>
    have same : s.release = (s.increment, []) := by simp [release, line]
    rw [same]
    exact ⟨by simp [linked, postedFor], by simp, List.Sublist.refl _, fun _ _ _ _ => .inl rfl, rfl⟩
  | cons op rest =>
    have ended := s.complete_completes (by simp [line] : op ∈ s.waiters) .success
    have same : s.release = ((s.increment.decrement.complete op .success).1,
        [⟨op.executor, op.handler, .success⟩]) := by simp [release, line]
    have waiters : (s.increment.decrement.complete op .success).1.waiters =
        (s.complete op .success).1.waiters := by simp [increment, decrement]
    have slots : (s.increment.decrement.complete op .success).1.slots =
        (s.complete op .success).1.slots := by
      rw [complete_slots, complete_slots]
      cases slot : op.handler.slot <;> rfl
    rw [same]
    refine ⟨fun id => ?_, ended.source, ?_, ?_, by simp [increment, decrement]⟩
    · rw [linked, waiters]
      exact ended.census id
    · rw [waiters]
      exact ended.remaining
    · rw [waiters, slots]
      exact ended.slots

theorem emit_completes {s : Semaphore} (linked : s.SlotsLinked) (slot : Slot)
    (type : CancellationType) :
    s.Completes .operationAborted (s.emit slot type).1 (s.emit slot type).2 := by
  rcases emit_cases linked slot type with unchanged | ⟨op, member, -, aborted⟩
  · rw [unchanged]
    exact s.completes_nothing _
  · rw [aborted]
    exact s.complete_completes member .operationAborted

/-- A new acquire is either linked once or posted once, and moves nobody else. -/
theorem asyncAcquire_census (s : Semaphore) (handler : Handler) (id : Nat) :
    (s.asyncAcquire handler).1.linked id + postedFor (s.asyncAcquire handler).2 id =
      s.linked id + if handler.id = id then 1 else 0 := by
  by_cases granted : s.count ≠ 0
  · simp [asyncAcquire, granted, linked, postedFor, decrement]
  · simp [asyncAcquire, granted, linked, postedFor]

/-- What a new acquire adds to the ring, if anything, is its own operation. -/
theorem asyncAcquire_waiters (s : Semaphore) (handler : Handler) (op : WaitOp)
    (member : op ∈ (s.asyncAcquire handler).1.waiters) :
    op ∈ s.waiters ∨ op = ⟨handler.associatedExecutor s.exec, handler⟩ := by
  by_cases granted : s.count ≠ 0
  · simp only [asyncAcquire, granted, ne_eq, not_false_eq_true, ↓reduceIte] at member
    exact .inl member
  · simpa [asyncAcquire, granted] using member

/-- What a new acquire posts, if anything, is its own success. -/
theorem asyncAcquire_posted (s : Semaphore) (handler : Handler) (item : Posted)
    (member : item ∈ (s.asyncAcquire handler).2) :
    item = ⟨handler.associatedExecutor s.exec, handler, .success⟩ := by
  by_cases granted : s.count ≠ 0
  · simpa [asyncAcquire, granted] using member
  · simp [asyncAcquire, granted] at member

/-- Every waiting operation has its own identity and its own slot, if any, and a
connected slot is assigned to it: an emission on the slot finds the operation. -/
structure Owned (s : Semaphore) : Prop where
  distinct : (s.waiters.map (·.handler.id)).Nodup
  own : ∀ op ∈ s.waiters, ∀ slot, op.handler.slot = some slot → slot = op.handler.id
  assigned : ∀ op ∈ s.waiters, ∀ slot, op.handler.slot = some slot → s.slots slot = some op

theorem Owned.linked_le {s : Semaphore} (owned : s.Owned) (id : Nat) : s.linked id ≤ 1 := by
  have once := List.nodup_iff_count_le_one.mp owned.distinct id
  rwa [List.count_eq_countP, List.countP_map] at once

/-- Ending waits leaves the slots of the operations that still wait assigned.

Proof: a slot that was cleared belongs to a posted operation. A waiting operation
with the same slot would have the same identity, which would have been linked twice. -/
theorem Owned.completes {s next : Semaphore} {ec : ErrorCode} {posted : List Posted}
    (owned : s.Owned) (completes : s.Completes ec next posted) : next.Owned where
  distinct := owned.distinct.sublist (completes.remaining.map _)
  own op member := owned.own op (completes.remaining.subset member)
  assigned op member slot connected := by
    have before : op ∈ s.waiters := completes.remaining.subset member
    rcases completes.slots op member slot connected with kept | ⟨item, inside, cleared⟩
    · rw [kept]
      exact owned.assigned op before slot connected
    · obtain ⟨other, present, rfl⟩ := completes.source item inside
      have same : other.handler.id = op.handler.id :=
        (owned.own other present slot cleared).symm.trans (owned.own op before slot connected)
      have stillLinked : 0 < next.linked op.handler.id :=
        List.countP_pos_iff.mpr ⟨op, member, by simp⟩
      have alsoPosted : 0 < postedFor posted op.handler.id :=
        List.countP_pos_iff.mpr ⟨_, inside, by simp [same]⟩
      have once := owned.linked_le op.handler.id
      have moved := completes.census op.handler.id
      omega

/-- A new acquire keeps ownership when its identity is not linked yet and its slot
is its own. -/
theorem Owned.asyncAcquire {s : Semaphore} (owned : s.Owned) (handler : Handler)
    (fresh : s.linked handler.id = 0)
    (own : ∀ slot, handler.slot = some slot → slot = handler.id) :
    (s.asyncAcquire handler).1.Owned := by
  by_cases granted : s.count ≠ 0
  · simp only [Semaphore.asyncAcquire, granted, ne_eq, not_false_eq_true, ↓reduceIte]
    exact ⟨owned.distinct, owned.own, owned.assigned⟩
  · have apart (op : WaitOp) (member : op ∈ s.waiters) : op.handler.id ≠ handler.id := by
      intro same
      exact List.countP_eq_zero.mp fresh op member (by simp [same])
    simp only [Semaphore.asyncAcquire, granted, ↓reduceIte]
    have line : ((s.construct ⟨handler.associatedExecutor s.exec, handler⟩).addWaiter
        ⟨handler.associatedExecutor s.exec, handler⟩).waiters =
        s.waiters ++ [⟨handler.associatedExecutor s.exec, handler⟩] := by simp
    refine ⟨?_, ?_, ?_⟩
    · rw [line, List.map_append]
      refine List.nodup_append.mpr ⟨owned.distinct, by simp, ?_⟩
      intro id member newest isNewest
      obtain ⟨op, inside, rfl⟩ := List.mem_map.mp member
      rw [List.mem_singleton.mp isNewest]
      exact apart op inside
    · rw [line]
      intro op member slot connected
      rcases List.mem_append.mp member with old | new
      · exact owned.own op old slot connected
      · obtain rfl := List.mem_singleton.mp new
        exact own slot connected
    · rw [line]
      intro op member slot connected
      rcases List.mem_append.mp member with old | new
      · cases mine : handler.slot with
        | none => simpa [addWaiter, construct, mine] using owned.assigned op old slot connected
        | some used =>
          have other : slot ≠ used := by
            rw [owned.own op old slot connected, own used mine]
            exact apart op old
          simpa [addWaiter, construct, mine, Function.update_of_ne other] using
            owned.assigned op old slot connected
      · obtain rfl := List.mem_singleton.mp new
        have mine : handler.slot = some slot := connected
        simp [addWaiter, construct, mine]

end Asioex.Semaphore
