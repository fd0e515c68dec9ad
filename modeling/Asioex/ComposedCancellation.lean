import Asioex.ComposedPasses

/-!
# Cancellation between two waits

A terminal cancellation that finds the operation linked ends its wait. One that
arrives while the operation is posted finds nothing assigned to the inner slot and
leaves only the cancellation state behind, which the lambda does not read. The next
call of the lambda then decides: it may pass, or find a free token, or link the
operation again with the cancellation forgotten.

`relinks` describes that last call by the state it starts from. It is the only
step that links a signalled operation, so the operations that were signalled stay
unlinked in exactly the runs without such a call.
-/

namespace Asioex

/-- What the filter for terminal cancellation leaves is strong enough to abort. -/
theorem CancellationType.filtered_meets (type : CancellationType)
    (left : type &&& CancellationType.terminal ≠ CancellationType.none) :
    (type &&& CancellationType.terminal).meets
      (CancellationType.terminal ||| CancellationType.partially ||| CancellationType.total) =
        true := by
  have absorbed : CancellationType.terminal &&&
      (CancellationType.terminal ||| CancellationType.partially ||| CancellationType.total) =
        CancellationType.terminal := by decide
  simp only [CancellationType.meets, BitVec.and_assoc, absorbed, bne_iff_ne]
  exact left

/-- An acquire links its operation exactly when no token is free. -/
theorem Semaphore.asyncAcquire_linked (s : Semaphore) (handler : Handler) (id : Nat) :
    (s.asyncAcquire handler).1.linked id =
      s.linked id + if handler.id = id ∧ s.count = 0 then 1 else 0 := by
  by_cases zero : s.count = 0
  · simp [asyncAcquire, zero, linked]
  · simp [asyncAcquire, zero, linked, decrement]

/-- An acquire that finds a token leaves one fewer. -/
theorem Semaphore.asyncAcquire_count (s : Semaphore) (handler : Handler) (free : s.count ≠ 0) :
    (s.asyncAcquire handler).1.count + 1 = s.count := by
  simp [asyncAcquire, free, decrement]

/-- An effective emission on the slot of an operation leaves it unlinked. -/
theorem Semaphore.emit_unlinks {s : Semaphore} {queue : TokenQueue WaitOp}
    (represents : s.Represents queue) (owned : s.Owned) {id : Nat} {type : CancellationType}
    (effective : type.meets (.terminal ||| .partially ||| .total) = true)
    (connected : ∀ op ∈ s.waiters, op.handler.id = id → op.handler.slot = some id) :
    (s.emit id type).1.linked id = 0 := by
  have moved := (emit_completes represents.slots id type).census id
  by_cases present : s.linked id = 0
  · omega
  · obtain ⟨op, member, same⟩ := List.countP_pos_iff.mp (Nat.pos_of_ne_zero present)
    have mine : op.handler.id = id := by simpa using same
    have assigned : s.slots id = some op := owned.assigned op member id (connected op member mine)
    have posted : postedFor (s.emit id type).2 id = 1 := by
      simp [emit, assigned, cancellationHandler, effective, postedFor, mine]
    have once := owned.linked_le id
    omega

namespace ComposedWait

variable {γ : Type}

/-- No operation that was signalled is linked. -/
def Unlinked (s : ComposedWait γ) : Prop := ∀ p ∈ s.signalled, s.semaphore.linked p = 0

/-- The function at this place of the queue resumes a signalled operation with
success, whose test will not pass and for which no token is free. -/
def relinks (s : ComposedWait γ) (k : Nat) : Prop :=
  ∃ job attempt, s.queue[k]? = some job ∧ job.call = .resume .success ∧
    job.op ∈ s.signalled ∧ (s.ops job.op).attempt = some attempt ∧
    attempt s.gate = none ∧ s.semaphore.count = 0

section Unlinked

variable {s : ComposedWait γ}

/-- Ending waits unlinks, and never links. -/
theorem Unlinked.enqueue (unlinked : s.Unlinked) {ec : ErrorCode}
    {result : Semaphore × List Posted} (completes : s.semaphore.Completes ec result.1 result.2) :
    (s.enqueue result).Unlinked := by
  intro p signalled
  have before : s.semaphore.linked p = 0 := unlinked p signalled
  have moved := completes.census p
  change result.1.linked p = 0
  omega

/-- Who is linked after an acquire for an operation. -/
theorem linked_acquire (s : ComposedWait γ) {p : Nat} (own : (s.ops p).self.id = p) (q : Nat) :
    (s.acquire p).semaphore.linked q =
      s.semaphore.linked q + if p = q ∧ s.semaphore.count = 0 then 1 else 0 := by
  have moved := s.semaphore.asyncAcquire_linked (s.ops p).self q
  rw [own] at moved
  exact moved

/-- A new operation has not been signalled, so linking it is no harm. -/
theorem Unlinked.initiate (unlinked : s.Unlinked) (tracked : s.Tracked)
    (executor : Option Executor) (connected : Bool) (attempt : Option (γ → Option γ)) :
    (s.initiate executor connected attempt).Unlinked := by
  have apart : ∀ p ∈ s.signalled, s.started ≠ p := fun p signalled =>
    Nat.ne_of_gt (tracked p signalled).1
  have registered : (s.register executor connected attempt).Unlinked := unlinked
  have own : ((s.register executor connected attempt).ops s.started).self.id = s.started := by
    simp [register]
  cases attempt with
  | none =>
    intro p signalled
    have linked := (s.register executor connected none).linked_acquire own p
    rw [if_neg (fun both => apart p signalled both.1)] at linked
    exact linked.trans (registered p signalled)
  | some attempt =>
    simp only [ComposedWait.initiate]
    rcases body_cases attempt (s.register executor connected (some attempt)) s.started .success with
      ⟨-, same⟩ | ⟨gate, -, -, same | same⟩ | ⟨-, -, same⟩ <;> rw [same]
    · exact registered
    · exact registered
    · exact registered
    · intro p signalled
      have kept : (((s.register executor connected (some attempt)).suspend s.started).ops
          s.started).self.id = s.started := by simp [suspend, own]
      have linked := linked_acquire _ kept p
      rw [if_neg (fun both => apart p signalled both.1)] at linked
      exact linked.trans (registered p signalled)

/-- A cancellation unlinks the operation that it signals. -/
theorem Unlinked.cancel (unlinked : s.Unlinked) (consistent : s.Consistent none) (p : Nat)
    (type : CancellationType) : (s.cancel p type).Unlinked := by
  obtain ⟨queue, represents⟩ := consistent.represents
  rcases s.cancel_cases p type with same | ⟨received, same⟩ | ⟨-, hasSlot, left, same⟩ <;> rw [same]
  · exact unlinked
  · exact unlinked.enqueue (Semaphore.emit_completes represents.slots p received)
  · have connected : ∀ op ∈ s.semaphore.waiters, op.handler.id = p →
        op.handler.slot = some p := by
      intro op member mine
      have handler := consistent.handlers op member
      rw [mine] at handler
      obtain ⟨slot, assigned⟩ := Option.ne_none_iff_exists'.mp hasSlot
      have bound : p < s.started :=
        consistent.linked_bound (List.countP_pos_iff.mpr ⟨op, member, by simp [mine]⟩)
      rw [handler, assigned, (consistent.self p bound).2 slot assigned]
    intro q signalled
    rcases List.mem_append.mp signalled with old | new
    · exact unlinked.enqueue (Semaphore.emit_completes represents.slots p _) q old
    · obtain rfl := List.mem_singleton.mp new
      exact Semaphore.emit_unlinks represents consistent.owned
        (CancellationType.filtered_meets type left) connected

/-- Running a function leaves the signalled operations unlinked exactly when it
does not link one of them again. -/
theorem unlinked_execute (unlinked : s.Unlinked) (consistent : s.Consistent none) {k : Nat}
    {job : Job} (queued : s.queue[k]? = some job) :
    ((s.dequeue k).execute job).Unlinked ↔ ¬s.relinks k := by
  have inHand := consistent.dequeue queued
  have safe : (s.dequeue k).Unlinked := unlinked
  have only (other : job.call ≠ .resume .success) : ¬s.relinks k := by
    rintro ⟨found, attempt, at_k, call, -⟩
    rw [queued] at at_k
    obtain rfl := Option.some.inj at_k
    exact other call
  cases call : job.call with
  | finish =>
    simp only [execute, call]
    exact iff_of_true safe (only (by simp [call]))
  | resume ec =>
    simp only [execute, call, resume]
    cases tested : ((s.dequeue k).ops job.op).attempt with
    | none =>
      refine iff_of_true safe ?_
      rintro ⟨found, attempt, at_k, -, -, present, -⟩
      rw [queued] at at_k
      obtain rfl := Option.some.inj at_k
      exact absurd (tested.symm.trans present) (by simp)
    | some attempt =>
      simp only
      rcases body_cases attempt (s.dequeue k) job.op ec with
        ⟨error, same⟩ | ⟨gate, rfl, opened, same⟩ | ⟨rfl, closed, same⟩
      · rw [same]
        refine iff_of_true safe (only ?_)
        rw [call]
        rintro ⟨rfl⟩
        simp at error
      · have passes : ¬s.relinks k := by
          rintro ⟨found, other, at_k, -, -, present, closed, -⟩
          rw [queued] at at_k
          obtain rfl := Option.some.inj at_k
          obtain rfl : attempt = other := Option.some.inj (tested.symm.trans present)
          exact absurd (opened.symm.trans closed) (by simp)
        rcases same with same | same <;> rw [same]
        · exact iff_of_true safe passes
        · exact iff_of_true safe passes
      · rw [same]
        obtain ⟨bound, nowhere⟩ := inHand.held_bound
        have own : (((s.dequeue k).suspend job.op).ops job.op).self.id = job.op := by
          simpa [suspend] using (inHand.self job.op bound).1
        have linked := linked_acquire _ own
        constructor
        · rintro after ⟨found, other, at_k, -, signalled, -, -, zero⟩
          rw [queued] at at_k
          obtain rfl := Option.some.inj at_k
          have count := linked job.op
          rw [if_pos ⟨rfl, zero⟩] at count
          have none := after job.op signalled
          omega
        · intro admitted p signalled
          rw [linked p, if_neg]
          · exact safe p signalled
          · rintro ⟨rfl, zero⟩
            exact admitted ⟨job, attempt, queued, call, signalled, tested, closed, zero⟩

/-- The only move that links a signalled operation is a call that relinks it. -/
theorem unlinked_step (unlinked : s.Unlinked) (consistent : s.Consistent none)
    (tracked : s.Tracked) {move : Move γ} {next : ComposedWait γ}
    (stepped : machine.step s move = some next) :
    next.Unlinked ↔ ∀ k, move = .run k → ¬s.relinks k := by
  obtain ⟨queue, represents⟩ := consistent.represents
  cases move with
  | initiate executor connected attempt =>
    obtain rfl := Option.some.inj stepped
    exact iff_of_true (unlinked.initiate tracked executor connected attempt) (by simp)
  | run k =>
    obtain ⟨job, queued, rfl⟩ := Option.map_eq_some_iff.mp stepped
    simpa using unlinked_execute unlinked consistent queued
  | cancel p type =>
    obtain ⟨-, rfl⟩ := step_cancel.mp stepped
    exact iff_of_true (unlinked.cancel consistent p type) (by simp)
  | release =>
    obtain rfl := Option.some.inj stepped
    exact iff_of_true (unlinked.enqueue (Semaphore.release_completes _)) (by simp)
  | releaseAll =>
    obtain rfl := Option.some.inj stepped
    exact iff_of_true (unlinked.enqueue (s.semaphore.drained_completes .success)) (by simp)
  | setGate gate =>
    obtain rfl := Option.some.inj stepped
    exact iff_of_true unlinked (by simp)

end Unlinked

/-- What is due to the operations signalled so far, after a step that may have run
the function at one place of the queue. They are not linked; each is posted or has
ended, aborted or with the success of a test that passed; and running a function of
one of them ends it, posts its success, or spends a token that was in store. -/
structure Heeded (s : ComposedWait γ) (ran : Option Nat) (next : ComposedWait γ) : Prop where
  unlinked : next.Unlinked
  outstanding : ∀ p ∈ next.signalled, next.pending p + next.finished p = 1
  outcome : ∀ p ∈ next.signalled, ∀ ec, (p, ec) ∈ next.invoked →
    ec = .operationAborted ∨ (ec = .success ∧ p ∈ next.passed)
  progress : ∀ k job, ran = some k → s.queue[k]? = some job → job.op ∈ s.signalled →
    next.finished job.op = 1 ∨ next.promised job.op = 1 ∨
      next.semaphore.count + 1 = s.semaphore.count

section Heeded

variable {s next : ComposedWait γ}

/-- Running a function of an operation with a test that does not link it again. -/
theorem execute_progress (sound : s.Sound) {k : Nat} {job : Job}
    (queued : s.queue[k]? = some job) (signalled : job.op ∈ s.signalled)
    (admitted : ¬s.relinks k) :
    ((s.dequeue k).execute job).finished job.op = 1 ∨
      ((s.dequeue k).execute job).promised job.op = 1 ∨
      ((s.dequeue k).execute job).semaphore.count + 1 = s.semaphore.count := by
  have soundNext : ((s.dequeue k).execute job).Sound :=
    step_sound s (.run k) _ sound (by simp [machine, step, queued])
  have once := soundNext.once job.op
  have ended (t : ComposedWait γ) (ec : ErrorCode) : 1 ≤ (t.invoke job.op ec).finished job.op := by
    simp [finished, invoke, List.countP_append]
  have posted (t : ComposedWait γ) : 1 ≤ (t.postFinish job.op).promised job.op := by
    simp
  have atMost := promised_le_pending ((s.dequeue k).execute job) job.op
  have placed := soundNext.consistent.placed job.op
  cases call : job.call with
  | finish =>
    simp only [execute, call] at once ⊢
    exact .inl (Nat.le_antisymm once.1 (ended _ _))
  | resume ec =>
    obtain ⟨attempt, tested⟩ := Option.isSome_iff_exists.mp (sound.tracked job.op signalled).2
    have held : ((s.dequeue k).ops job.op).attempt = some attempt := tested
    simp only [execute, call, resume, held] at once placed atMost ⊢
    rcases body_cases attempt (s.dequeue k) job.op ec with
      ⟨-, same⟩ | ⟨gate, -, -, same | same⟩ | ⟨rfl, closed, same⟩ <;>
      rw [same] at once placed atMost ⊢
    · exact .inl (Nat.le_antisymm once.1 (ended _ _))
    · exact .inl (Nat.le_antisymm once.1 (ended _ _))
    · refine .inr (.inl (Nat.le_antisymm ?_ (posted _)))
      split at placed <;> omega
    · have free : s.semaphore.count ≠ 0 := fun zero =>
        admitted ⟨job, attempt, queued, call, signalled, tested, closed, zero⟩
      exact .inr (.inr (s.semaphore.asyncAcquire_count _ free))

/-- A signalled operation that is not linked is posted or has ended. -/
theorem Sound.heeded (sound : next.Sound) (unlinked : next.Unlinked) (ran : Option Nat)
    (progress : ∀ k job, ran = some k → s.queue[k]? = some job → job.op ∈ s.signalled →
      next.finished job.op = 1 ∨ next.promised job.op = 1 ∨
        next.semaphore.count + 1 = s.semaphore.count) : Heeded s ran next where
  unlinked := unlinked
  outstanding p signalled := by
    have placed := sound.consistent.placed p
    have gone := unlinked p signalled
    rw [if_pos (sound.tracked p signalled).1] at placed
    omega
  outcome p signalled ec invoked := by
    rcases sound.consistent.outcomes (p, ec) invoked with success | aborted
    · obtain rfl : ec = .success := success
      exact .inr ⟨rfl, sound.passed_of_succeeded (sound.tracked p signalled).2 invoked⟩
    · exact .inl aborted
  progress := progress

/-- A run function heeds the signals exactly when it does not relink. -/
theorem heeded_run (sound : s.Sound) (unlinked : s.Unlinked) {k : Nat}
    (stepped : machine.step s (.run k) = some next) :
    Heeded s (some k) next ↔ ¬s.relinks k := by
  have links := unlinked_step unlinked sound.consistent sound.tracked stepped
  simp only [Move.run.injEq, forall_eq'] at links
  refine ⟨fun heeded => links.mp heeded.unlinked, fun admitted => ?_⟩
  refine (step_sound s (.run k) next sound stepped).heeded (links.mpr admitted) _ ?_
  rintro k' job ⟨rfl⟩ queued signalled
  obtain ⟨found, at_k, rfl⟩ := Option.map_eq_some_iff.mp stepped
  obtain rfl : job = found := Option.some.inj (queued.symm.trans at_k)
  exact execute_progress sound queued signalled admitted

/-- Moves that run nothing heed the signals. -/
theorem heeded_moves (sound : s.Sound) (unlinked : s.Unlinked) {moves : List (Move γ)}
    (idle : ∀ k, .run k ∉ moves) (ran : machine.run s moves = some next) :
    Heeded s none next := by
  have both : next.Sound ∧ next.Unlinked := by
    induction moves generalizing s with
    | nil =>
      obtain rfl := Option.some.inj ran
      exact ⟨sound, unlinked⟩
    | cons move rest inductionHypothesis =>
      obtain ⟨middle, stepped, following⟩ := (machine.run_cons).mp ran
      refine inductionHypothesis (step_sound s move middle sound stepped) ?_ ?_ following
      · refine (unlinked_step unlinked sound.consistent sound.tracked stepped).mpr ?_
        rintro k rfl
        exact absurd List.mem_cons_self (idle k)
      · exact fun k later => idle k (List.mem_cons_of_mem _ later)
  exact both.1.heeded both.2 none (by simp)

end Heeded

end ComposedWait

end Asioex
