import Asioex.ComposedWait

/-!
# Invariants of the retry loop

Every initiated operation is in exactly one place: linked in the ring, queued on
the executor, or finished. While the executor runs a function, its operation is in
hand and in none of them; the invariant is stated with the operation in hand so
that each branch of the lambda only has to put it back.

A test that passes is followed by exactly one success: at once, or by the function
posted for it. The count of passes and the count of successes therefore agree.
-/

namespace Asioex.ComposedWait

variable {γ : Type}

/-- One place for every initiated operation but the one in hand, which has none.
The ring holds the operations' own handlers, and a connected slot of a linked
operation is assigned to it. -/
structure Consistent (held : Option Nat) (s : ComposedWait γ) : Prop where
  represents : ∃ queue, s.semaphore.Represents queue
  owned : s.semaphore.Owned
  census : ∀ p, s.located p + (if held = some p then 1 else 0) = if p < s.started then 1 else 0
  self : ∀ p < s.started, (s.ops p).self.id = p ∧
    ∀ slot, (s.ops p).self.slot = some slot → slot = p
  handlers : ∀ op ∈ s.semaphore.waiters, op.handler = (s.ops op.handler.id).self
  codes : ∀ job ∈ s.queue, ∀ ec, job.call = .resume ec → ec = .success ∨ ec = .operationAborted
  outcomes : ∀ entry ∈ s.invoked, entry.2 = .success ∨ entry.2 = .operationAborted

theorem create_consistent (gate : γ) (exec : Executor) (order : Nat → PostOrder) (initialCount : Int)
    (valid : 0 ≤ initialCount) :
    (create gate (.create exec initialCount) order).Consistent none where
  represents := ⟨_, Semaphore.create_represents exec initialCount valid⟩
  owned := ⟨by simp [create, Semaphore.create], by simp [create, Semaphore.create],
    by simp [create, Semaphore.create]⟩
  census p := by simp [create, Semaphore.create, located, Semaphore.linked, pending, finished]
  self := by simp [create]
  handlers := by simp [create, Semaphore.create]
  codes := by simp [create]
  outcomes := by simp [create]

namespace Consistent

variable {s : ComposedWait γ}

/-- An operation in hand has been initiated, and is nowhere else. -/
theorem held_bound {p : Nat} (consistent : s.Consistent (some p)) :
    p < s.started ∧ s.located p = 0 := by
  have placed := consistent.census p
  rw [if_pos rfl] at placed
  split at placed <;> omega

/-- With nothing in hand, every initiated operation is linked, queued or finished. -/
theorem placed (consistent : s.Consistent none) (p : Nat) :
    s.semaphore.linked p + s.pending p + s.finished p = if p < s.started then 1 else 0 := by
  simpa [located] using consistent.census p

/-- A linked operation has been initiated. -/
theorem linked_bound {held : Option Nat} (consistent : s.Consistent held) {p : Nat}
    (linked : 0 < s.semaphore.linked p) : p < s.started := by
  have placed := consistent.census p
  simp only [located] at placed
  split at placed <;> split at placed <;> omega

/-- Changing the gate, noting a pass or noting a signal moves no operation. -/
theorem unmoved {held : Option Nat} (consistent : s.Consistent held) (gate : γ)
    (passed signalled : List Nat) :
    Consistent held { s with gate := gate, passed := passed, signalled := signalled } :=
  ⟨consistent.represents, consistent.owned, consistent.census, consistent.self,
    consistent.handlers, consistent.codes, consistent.outcomes⟩

/-- Setting `did_suspend` moves no operation and changes no handler. -/
theorem suspend {held : Option Nat} (consistent : s.Consistent held) (p : Nat) :
    (s.suspend p).Consistent held := by
  have same (q : Nat) : ((s.suspend p).ops q).self = (s.ops q).self := by
    by_cases equal : q = p
    · subst equal
      simp [ComposedWait.suspend]
    · simp [ComposedWait.suspend, Function.update_of_ne equal]
  refine ⟨consistent.represents, consistent.owned, consistent.census, ?_, ?_, consistent.codes,
    consistent.outcomes⟩
  · intro q bound
    simpa only [same] using consistent.self q bound
  · intro op member
    simpa only [same] using consistent.handlers op member

/-- Ending waits keeps every operation in one place. -/
theorem enqueue {held : Option Nat} (consistent : s.Consistent held) {ec : ErrorCode}
    (code : ec = .success ∨ ec = .operationAborted) {result : Semaphore × List Posted}
    (represents : ∃ queue, result.1.Represents queue)
    (completes : s.semaphore.Completes ec result.1 result.2) :
    (s.enqueue result).Consistent held where
  represents := represents
  owned := consistent.owned.completes completes
  census p := by
    rw [located_enqueue s p completes]
    exact consistent.census p
  self := consistent.self
  handlers op member := consistent.handlers op (completes.remaining.subset member)
  codes job member carried resumed := by
    rcases List.mem_append.mp member with old | new
    · exact consistent.codes job old carried resumed
    · obtain ⟨item, inside, rfl⟩ := List.mem_map.mp new
      obtain ⟨op, -, rfl⟩ := completes.source item inside
      obtain rfl : ec = carried := by simpa using resumed
      exact code
  outcomes := consistent.outcomes

/-- Completing the operation in hand. -/
theorem invoke {p : Nat} (consistent : s.Consistent (some p)) {ec : ErrorCode}
    (code : ec = .success ∨ ec = .operationAborted) : (s.invoke p ec).Consistent none where
  represents := consistent.represents
  owned := consistent.owned
  census q := by
    have placed := consistent.census q
    simp only [Option.some.injEq] at placed
    change _ = if q < s.started then 1 else 0
    simpa using placed
  self := consistent.self
  handlers := consistent.handlers
  codes := consistent.codes
  outcomes entry member := by
    rcases List.mem_append.mp member with old | new
    · exact consistent.outcomes entry old
    · rw [List.mem_singleton.mp new]
      exact code

/-- Posting the completion of the operation in hand. -/
theorem postFinish {p : Nat} (consistent : s.Consistent (some p)) :
    (s.postFinish p).Consistent none where
  represents := consistent.represents
  owned := consistent.owned
  census q := by
    have placed := consistent.census q
    simp only [Option.some.injEq] at placed
    change _ = if q < s.started then 1 else 0
    simpa using placed
  self := consistent.self
  handlers := consistent.handlers
  codes job member ec resumed := by
    rcases List.mem_append.mp member with old | new
    · exact consistent.codes job old ec resumed
    · rw [List.mem_singleton.mp new] at resumed
      cases resumed
  outcomes := consistent.outcomes

/-- Acquiring for the operation in hand: it is granted at once, or it waits with
its own slot assigned. -/
theorem acquire {p : Nat} (consistent : s.Consistent (some p)) :
    (s.acquire p).Consistent none := by
  obtain ⟨bound, nowhere⟩ := consistent.held_bound
  obtain ⟨own, slot⟩ := consistent.self p bound
  obtain ⟨queue, represents⟩ := consistent.represents
  refine ⟨⟨_, (Semaphore.asyncAcquire_represents represents _).1⟩, ?_, ?_, consistent.self, ?_, ?_,
    consistent.outcomes⟩
  · refine consistent.owned.asyncAcquire _ ?_ (by rw [own]; exact slot)
    simp only [located] at nowhere
    rw [own]
    omega
  · intro q
    have placed := consistent.census q
    simp only [Option.some.injEq] at placed
    change _ = if q < s.started then 1 else 0
    simpa [located_acquire s p q own] using placed
  · intro op member
    rcases Semaphore.asyncAcquire_waiters s.semaphore _ op member with old | rfl
    · exact consistent.handlers op old
    · exact congrArg (fun id => (s.ops id).self) own.symm
  · intro job member ec resumed
    rcases List.mem_append.mp member with old | new
    · exact consistent.codes job old ec resumed
    · obtain ⟨item, inside, rfl⟩ := List.mem_map.mp new
      rw [Semaphore.asyncAcquire_posted s.semaphore _ item inside] at resumed
      exact .inl (by simpa using resumed.symm)

/-- Each branch of the lambda puts the operation in hand back in one place. -/
theorem body {p : Nat} (consistent : s.Consistent (some p)) (attempt : γ → Option γ)
    {ec : ErrorCode} (code : ec = .success ∨ ec = .operationAborted) :
    (s.body attempt p ec).Consistent none := by
  rcases body_cases attempt s p ec with
    ⟨-, same⟩ | ⟨gate, -, -, same | same⟩ | ⟨-, -, same⟩ <;> rw [same]
  · exact consistent.invoke code
  · exact (consistent.unmoved gate (s.passed ++ [p]) s.signalled).invoke (.inl rfl)
  · exact (consistent.unmoved gate (s.passed ++ [p]) s.signalled).postFinish
  · exact (consistent.suspend p).acquire

/-- Taking a function off the queue takes its operation in hand. -/
theorem dequeue (consistent : s.Consistent none) {k : Nat} {job : Job}
    (queued : s.queue[k]? = some job) : (s.dequeue k).Consistent (some job.op) where
  represents := consistent.represents
  owned := consistent.owned
  census q := by
    have placed := consistent.census q
    rw [located_dequeue s q queued] at placed
    change _ = if q < s.started then 1 else 0
    simpa using placed
  self := consistent.self
  handlers := consistent.handlers
  codes other member := consistent.codes other (List.mem_of_mem_eraseIdx member)
  outcomes := consistent.outcomes

/-- Running a posted function puts its operation back. -/
theorem execute (consistent : s.Consistent none) {k : Nat} {job : Job}
    (queued : s.queue[k]? = some job) : ((s.dequeue k).execute job).Consistent none := by
  have inHand : (s.dequeue k).Consistent (some job.op) := consistent.dequeue queued
  cases call : job.call with
  | finish =>
    simp only [ComposedWait.execute, call]
    exact inHand.invoke (.inl rfl)
  | resume ec =>
    have code := consistent.codes job (List.mem_of_getElem? queued) ec call
    simp only [ComposedWait.execute, call, ComposedWait.resume]
    cases (s.dequeue k |>.ops job.op).attempt with
    | none => exact inHand.invoke code
    | some attempt => exact inHand.body attempt code

/-- A new operation starts in hand, with a number nobody has used. -/
theorem register (consistent : s.Consistent none) (executor : Option Executor) (connected : Bool)
    (attempt : Option (γ → Option γ)) :
    (s.register executor connected attempt).Consistent (some s.started) := by
  have unused : s.semaphore.linked s.started = 0 := by
    by_contra linked
    exact Nat.lt_irrefl _ (consistent.linked_bound (Nat.pos_of_ne_zero linked))
  refine ⟨consistent.represents, consistent.owned, ?_, ?_, ?_, consistent.codes,
    consistent.outcomes⟩
  · intro q
    have placed := consistent.census q
    simp only [reduceCtorEq, ↓reduceIte, Nat.add_zero] at placed
    change s.located q + _ = if q < s.started + 1 then 1 else 0
    simp only [Option.some.injEq]
    split at placed <;> split <;> split <;> omega
  · intro q bound
    by_cases newest : q = s.started
    · subst newest
      cases connected <;> simp [ComposedWait.register]
    · rw [ops_register_of_ne s executor connected attempt newest]
      exact consistent.self q (by change q < s.started + 1 at bound; omega)
  · intro op member
    have other : op.handler.id ≠ s.started := by
      intro same
      exact List.countP_eq_zero.mp unused op member (by simp [same])
    rw [ops_register_of_ne s executor connected attempt other]
    exact consistent.handlers op member

/-- Initiating puts the new operation in one place. -/
theorem initiate (consistent : s.Consistent none) (executor : Option Executor) (connected : Bool)
    (attempt : Option (γ → Option γ)) :
    (s.initiate executor connected attempt).Consistent none := by
  have inHand := consistent.register executor connected attempt
  cases attempt with
  | none => exact inHand.acquire
  | some attempt => exact inHand.body attempt (.inl rfl)

/-- An emission moves at most the operation whose slot it is emitted on. -/
theorem cancel (consistent : s.Consistent none) (p : Nat) (type : CancellationType) :
    (s.cancel p type).Consistent none := by
  obtain ⟨queue, represents⟩ := consistent.represents
  have emitted {s : ComposedWait γ} (consistent : s.Consistent none)
      (represents : s.semaphore.Represents queue) (type : CancellationType) :
      (s.enqueue (s.semaphore.emit p type)).Consistent none :=
    consistent.enqueue (.inr rfl) (Semaphore.emit_represents represents p type)
      (Semaphore.emit_completes represents.slots p type)
  rcases s.cancel_emits p type with same | ⟨signalled, received, same⟩ <;> rw [same]
  · exact consistent
  · exact emitted (consistent.unmoved s.gate s.passed signalled) represents received

end Consistent

/-- Every enabled move keeps every operation in one place. -/
theorem step_consistent (s : ComposedWait γ) (move : Move γ) (next : ComposedWait γ)
    (consistent : s.Consistent none) (stepped : machine.step s move = some next) :
    next.Consistent none := by
  obtain ⟨queue, represents⟩ := consistent.represents
  cases move with
  | initiate executor connected attempt =>
    obtain rfl := Option.some.inj stepped
    exact consistent.initiate executor connected attempt
  | run k =>
    obtain ⟨job, queued, rfl⟩ := Option.map_eq_some_iff.mp stepped
    exact consistent.execute queued
  | cancel p type =>
    obtain ⟨-, rfl⟩ := step_cancel.mp stepped
    exact consistent.cancel p type
  | release =>
    obtain rfl := Option.some.inj stepped
    exact consistent.enqueue (.inl rfl) ⟨_, (Semaphore.release_represents represents).1⟩
      (Semaphore.release_completes _)
  | releaseAll =>
    obtain rfl := Option.some.inj stepped
    exact consistent.enqueue (.inl rfl) ⟨_, Semaphore.drained_represents represents .success⟩
      (s.semaphore.drained_completes .success)
  | setGate gate =>
    obtain rfl := Option.some.inj stepped
    exact consistent.unmoved gate s.passed s.signalled

end Asioex.ComposedWait
