import Asioex.ComposedInvariants

/-!
# What the tests of composed operations let through

A test that passes is answered by exactly one success: at once when the operation
had suspended, or by the function posted for it when it had not. The passes of an
operation are therefore counted by its successes and by its posted completions
together, and the census of places bounds their number by one.

The gate changes only where a test passes. `Tested` says what one call of a posted
or initiating function may do to it, so that an argument about the gate of the
mutex need not look at the branches of the lambda again.
-/

namespace Asioex.ComposedWait

variable {γ : Type}

/-- Whether a posted function is an operation's completion with success. -/
def isFinish (p : Nat) (job : Job) : Bool := job.op == p && job.call == .finish

/-- How many completions with success are posted and not yet run. -/
def promised (s : ComposedWait γ) (p : Nat) : Nat := s.queue.countP (isFinish p)

/-- How often the handler has been invoked with success. -/
def succeeded (s : ComposedWait γ) (p : Nat) : Nat := s.invoked.count (p, .success)

/-- Every pass of an operation that has a test is answered or promised. -/
def Answered (s : ComposedWait γ) : Prop :=
  ∀ p, s.passed.count p =
    if (s.ops p).attempt.isSome then s.promised p + s.succeeded p else 0

section Counts

variable (s : ComposedWait γ) (p q : Nat)

theorem promised_le_pending : s.promised p ≤ s.pending p := by
  refine List.countP_mono_left (fun job _ finish => ?_)
  have both : job.op = p ∧ job.call = .finish := by simpa [isFinish] using finish
  simp [both.1]

theorem succeeded_le_finished : s.succeeded p ≤ s.finished p := by
  simp only [succeeded, finished, List.count_eq_countP]
  refine List.countP_mono_left (fun entry _ same => ?_)
  have equal : entry = (p, .success) := by simpa using same
  simp [equal]

@[simp] theorem succeeded_invoke (ec : ErrorCode) :
    (s.invoke p ec).succeeded q = s.succeeded q + if p = q ∧ ec = .success then 1 else 0 := by
  simp only [succeeded, invoke, List.count_append, List.count_singleton, beq_iff_eq,
    Prod.mk.injEq]

@[simp] theorem promised_postFinish :
    (s.postFinish p).promised q = s.promised q + if p = q then 1 else 0 := by
  simp [promised, postFinish, List.countP_append, List.countP_singleton, isFinish]

/-- A semaphore operation posts resumptions only. -/
@[simp] theorem promised_enqueue (result : Semaphore × List Posted) :
    (s.enqueue result).promised q = s.promised q := by
  have none : (result.2.map (fun posted =>
      (⟨posted.executor, posted.handler.id, .resume posted.ec⟩ : Job))).countP (isFinish q) = 0 := by
    refine List.countP_eq_zero.mpr (fun job member => ?_)
    obtain ⟨item, -, rfl⟩ := List.mem_map.mp member
    simp [isFinish]
  simp [promised, enqueue, List.countP_append, none]

/-- Taking a function off the queue keeps a promise only if it is the completion. -/
theorem promised_dequeue {k : Nat} {job : Job} (queued : s.queue[k]? = some job) :
    s.promised q = (s.dequeue k).promised q + if isFinish q job then 1 else 0 :=
  s.countP_dequeue queued (isFinish q)

/-- The flag of the lambda is no part of its test. -/
@[simp] theorem attempt_suspend : ((s.suspend p).ops q).attempt = (s.ops q).attempt := by
  by_cases equal : q = p
  · subst equal
    simp [suspend]
  · simp [suspend, Function.update_of_ne equal]

end Counts

namespace Answered

variable {s : ComposedWait γ}

/-- Completing with an error answers nothing. -/
theorem failed (answered : s.Answered) (p : Nat) {ec : ErrorCode} (error : ec ≠ .success) :
    (s.invoke p ec).Answered := by
  intro q
  have before := answered q
  change s.passed.count q = if (s.ops q).attempt.isSome then s.promised q + _ else 0
  simpa [error] using before

/-- An operation without a test owes no account of its successes. -/
theorem plain (answered : s.Answered) {p : Nat} (untested : (s.ops p).attempt = none)
    (ec : ErrorCode) : (s.invoke p ec).Answered := by
  intro q
  have before := answered q
  change s.passed.count q = if (s.ops q).attempt.isSome then s.promised q + _ else 0
  by_cases same : p = q
  · subst same
    simpa [untested] using before
  · simpa [same] using before

/-- A pass that is answered at once. -/
theorem passInvoke (answered : s.Answered) {p : Nat} (tested : (s.ops p).attempt.isSome)
    (gate : γ) : ((s.pass p gate).invoke p .success).Answered := by
  intro q
  have before := answered q
  change (s.passed ++ [p]).count q =
    if (s.ops q).attempt.isSome then s.promised q + ((s.pass p gate).invoke p .success).succeeded q
    else 0
  rw [List.count_append, List.count_singleton, succeeded_invoke]
  change _ = if _ then s.promised q + (s.succeeded q + _) else 0
  by_cases same : p = q
  · subst same
    rw [if_pos tested] at before ⊢
    simp [before, Nat.add_assoc]
  · simpa [same] using before

/-- A pass that is promised an answer. -/
theorem passFinish (answered : s.Answered) {p : Nat} (tested : (s.ops p).attempt.isSome)
    (gate : γ) : ((s.pass p gate).postFinish p).Answered := by
  intro q
  have before := answered q
  change (s.passed ++ [p]).count q =
    if (s.ops q).attempt.isSome then ((s.pass p gate).postFinish p).promised q + s.succeeded q
    else 0
  rw [List.count_append, List.count_singleton, promised_postFinish]
  change _ = if _ then s.promised q + _ + s.succeeded q else 0
  by_cases same : p = q
  · subst same
    rw [if_pos tested] at before ⊢
    simp only [before, beq_self_eq_true, ↓reduceIte]
    omega
  · simpa [same] using before

/-- A semaphore operation answers and promises nothing. -/
theorem enqueue (answered : s.Answered) (result : Semaphore × List Posted) :
    (s.enqueue result).Answered := by
  intro q
  rw [promised_enqueue]
  exact answered q

/-- Suspending and acquiring. -/
theorem suspended (answered : s.Answered) (p : Nat) : ((s.suspend p).acquire p).Answered := by
  refine enqueue (s := s.suspend p) (fun q => ?_) _
  rw [attempt_suspend]
  exact answered q

/-- Each branch of the lambda keeps the account. -/
theorem body (answered : s.Answered) {p : Nat} {attempt : γ → Option γ}
    (tested : (s.ops p).attempt = some attempt) (ec : ErrorCode) :
    (s.body attempt p ec).Answered := by
  have isTested : (s.ops p).attempt.isSome = true := by rw [tested]; rfl
  rcases body_cases attempt s p ec with
    ⟨error, same⟩ | ⟨gate, -, -, same | same⟩ | ⟨-, -, same⟩ <;> rw [same]
  · exact answered.failed p ((ErrorCode.isSet_iff ec).mp error)
  · exact answered.passInvoke isTested gate
  · exact answered.passFinish isTested gate
  · exact answered.suspended p

/-- Running a posted function keeps a promise or runs the lambda. -/
theorem execute (answered : s.Answered) {k : Nat} {job : Job}
    (queued : s.queue[k]? = some job) : ((s.dequeue k).execute job).Answered := by
  cases call : job.call with
  | finish =>
    simp only [ComposedWait.execute, call]
    intro q
    have before := answered q
    have kept := s.promised_dequeue q queued
    change s.passed.count q = if (s.ops q).attempt.isSome then (s.dequeue k).promised q + _ else 0
    rw [succeeded_invoke]
    change _ = if _ then _ + (s.succeeded q + _) else 0
    rw [before, kept]
    simp only [isFinish, call, beq_self_eq_true, Bool.and_true, beq_iff_eq, and_true]
    cases (s.ops q).attempt.isSome with
    | false => rfl
    | true =>
      simp only [↓reduceIte]
      omega
  | resume ec =>
    have held : (s.dequeue k).Answered := by
      intro q
      have kept := s.promised_dequeue q queued
      simp only [isFinish, call, reduceCtorEq, beq_iff_eq, Bool.and_eq_true, and_false,
        ↓reduceIte, Nat.add_zero] at kept
      rw [← kept]
      exact answered q
    simp only [ComposedWait.execute, call, ComposedWait.resume]
    cases tested : ((s.dequeue k).ops job.op).attempt with
    | none => exact held.plain tested ec
    | some attempt => exact held.body tested ec

/-- A new operation has passed no test. -/
theorem initiate (answered : s.Answered) (consistent : s.Consistent none)
    (executor : Option Executor) (connected : Bool) (attempt : Option (γ → Option γ)) :
    (s.initiate executor connected attempt).Answered := by
  have placed := consistent.placed s.started
  rw [if_neg (Nat.lt_irrefl _)] at placed
  have unpromised := s.promised_le_pending s.started
  have unanswered := s.succeeded_le_finished s.started
  have fresh : s.passed.count s.started = 0 := by
    rw [answered s.started]
    split <;> omega
  have held : (s.register executor connected attempt).Answered := by
    intro q
    change s.passed.count q = if _ then s.promised q + s.succeeded q else 0
    by_cases newest : q = s.started
    · subst newest
      have nothing : s.promised s.started + s.succeeded s.started = 0 := by omega
      rw [fresh, nothing, ite_self]
    · rw [ops_register_of_ne s executor connected attempt newest]
      exact answered q
  cases attempt with
  | none => exact held.enqueue _
  | some attempt => exact held.body (s.attempt_register _ _ _) .success

end Answered

/-- Every enabled move keeps the account of the passes. -/
theorem step_answered (s : ComposedWait γ) (move : Move γ) (next : ComposedWait γ)
    (consistent : s.Consistent none) (answered : s.Answered)
    (stepped : machine.step s move = some next) : next.Answered := by
  cases move with
  | initiate executor connected attempt =>
    obtain rfl := Option.some.inj stepped
    exact answered.initiate consistent executor connected attempt
  | run k =>
    obtain ⟨job, queued, rfl⟩ := Option.map_eq_some_iff.mp stepped
    exact answered.execute queued
  | cancel p type =>
    obtain ⟨-, rfl⟩ := step_cancel.mp stepped
    rcases s.cancel_emits p type with same | ⟨signalled, received, same⟩ <;> rw [same]
    · exact answered
    · exact Answered.enqueue (s := { s with signalled := signalled }) answered _
  | release =>
    obtain rfl := Option.some.inj stepped
    exact answered.enqueue _
  | releaseAll =>
    obtain rfl := Option.some.inj stepped
    exact answered.enqueue _
  | setGate gate =>
    obtain rfl := Option.some.inj stepped
    exact answered

/-- What one function does to the gate: nothing, or the test of one operation passes. -/
inductive Tested (s next : ComposedWait γ) : Prop where
  | untouched (gate : next.gate = s.gate) (passed : next.passed = s.passed)
  | passes (p : Nat) (attempt : γ → Option γ) (tested : (next.ops p).attempt = some attempt)
      (opened : attempt s.gate = some next.gate) (passed : next.passed = s.passed ++ [p])

theorem body_tested {s : ComposedWait γ} {p : Nat} {attempt : γ → Option γ}
    (tested : (s.ops p).attempt = some attempt) (ec : ErrorCode) :
    Tested s (s.body attempt p ec) := by
  rcases body_cases attempt s p ec with
    ⟨-, same⟩ | ⟨gate, -, opened, same | same⟩ | ⟨-, -, same⟩ <;> rw [same]
  · exact .untouched rfl rfl
  · exact .passes p attempt tested opened rfl
  · exact .passes p attempt tested opened rfl
  · exact .untouched rfl rfl

theorem execute_tested (s : ComposedWait γ) (k : Nat) (job : Job) :
    Tested s ((s.dequeue k).execute job) := by
  cases call : job.call with
  | finish =>
    simp only [execute, call]
    exact .untouched rfl rfl
  | resume ec =>
    simp only [execute, call, resume]
    cases tested : ((s.dequeue k).ops job.op).attempt with
    | none => exact .untouched rfl rfl
    | some attempt =>
      cases body_tested tested ec with
      | untouched gate passed => exact .untouched gate passed
      | passes p attempt tested opened passed => exact .passes p attempt tested opened passed

theorem initiate_tested (s : ComposedWait γ) (executor : Option Executor) (connected : Bool)
    (attempt : Option (γ → Option γ)) : Tested s (s.initiate executor connected attempt) := by
  cases attempt with
  | none => exact .untouched rfl rfl
  | some attempt =>
    cases body_tested (s.attempt_register executor connected (some attempt)) .success with
    | untouched gate passed => exact .untouched gate passed
    | passes p attempt tested opened passed => exact .passes p attempt tested opened passed

/-- A cancellation reads and changes no gate. -/
theorem cancel_tested (s : ComposedWait γ) (p : Nat) (type : CancellationType) :
    Tested s (s.cancel p type) := by
  rcases s.cancel_emits p type with same | ⟨signalled, received, same⟩ <;> rw [same] <;>
    exact .untouched rfl rfl

/-- Every move but the writing of the gate itself changes it by a test, if at all. -/
theorem step_tested {s next : ComposedWait γ} {move : Move γ}
    (other : ∀ gate, move ≠ .setGate gate) (stepped : machine.step s move = some next) :
    Tested s next := by
  cases move with
  | initiate executor connected attempt =>
    obtain rfl := Option.some.inj stepped
    exact s.initiate_tested executor connected attempt
  | run k =>
    obtain ⟨job, -, rfl⟩ := Option.map_eq_some_iff.mp stepped
    exact s.execute_tested k job
  | cancel p type =>
    obtain ⟨-, rfl⟩ := step_cancel.mp stepped
    exact s.cancel_tested p type
  | release =>
    obtain rfl := Option.some.inj stepped
    exact .untouched rfl rfl
  | releaseAll =>
    obtain rfl := Option.some.inj stepped
    exact .untouched rfl rfl
  | setGate gate => exact absurd rfl (other gate)

/-- What a move leaves alone once its operation is registered: the tests, the
number of operations, the invocations made, and the signals noted, except for one
of an operation that has a test. -/
structure Keeps (s next : ComposedWait γ) : Prop where
  attempts : ∀ p, (next.ops p).attempt = (s.ops p).attempt
  started : next.started = s.started
  invoked : s.invoked <+: next.invoked
  signalled : ∀ p ∈ next.signalled,
    p ∈ s.signalled ∨ (p < s.started ∧ (s.ops p).attempt.isSome = true)

/-- A move that writes none of these fields. -/
theorem Keeps.of_same {s next : ComposedWait γ} (ops : next.ops = s.ops)
    (started : next.started = s.started) (invoked : next.invoked = s.invoked)
    (signalled : next.signalled = s.signalled) : Keeps s next where
  attempts p := by rw [ops]
  started := started
  invoked := invoked ▸ List.prefix_rfl
  signalled p member := .inl (signalled ▸ member)

theorem body_keeps (attempt : γ → Option γ) (s : ComposedWait γ) (p : Nat) (ec : ErrorCode) :
    Keeps s (s.body attempt p ec) := by
  rcases body_cases attempt s p ec with
    ⟨-, same⟩ | ⟨gate, -, -, same | same⟩ | ⟨-, -, same⟩ <;> rw [same]
  · exact ⟨fun _ => rfl, rfl, List.prefix_append _ _, fun _ old => .inl old⟩
  · exact ⟨fun _ => rfl, rfl, List.prefix_append _ _, fun _ old => .inl old⟩
  · exact .of_same rfl rfl rfl rfl
  · exact ⟨s.attempt_suspend p, rfl, List.prefix_rfl, fun _ old => .inl old⟩

theorem execute_keeps (s : ComposedWait γ) (k : Nat) (job : Job) :
    Keeps s ((s.dequeue k).execute job) := by
  cases call : job.call with
  | finish =>
    simp only [execute, call]
    exact ⟨fun _ => rfl, rfl, List.prefix_append _ _, fun _ old => .inl old⟩
  | resume ec =>
    simp only [execute, call, resume]
    split
    · exact ⟨fun _ => rfl, rfl, List.prefix_append _ _, fun _ old => .inl old⟩
    · next attempt _ =>
      have kept := body_keeps attempt (s.dequeue k) job.op ec
      exact ⟨kept.attempts, kept.started, kept.invoked, kept.signalled⟩

theorem initiate_keeps (s : ComposedWait γ) (executor : Option Executor) (connected : Bool)
    (attempt : Option (γ → Option γ)) :
    Keeps (s.register executor connected attempt) (s.initiate executor connected attempt) := by
  cases attempt with
  | none => exact .of_same rfl rfl rfl rfl
  | some attempt => exact body_keeps attempt _ s.started .success

theorem cancel_keeps (s : ComposedWait γ) {p : Nat} (initiated : p < s.started)
    (type : CancellationType) : Keeps s (s.cancel p type) := by
  rcases s.cancel_cases p type with same | ⟨received, same⟩ | ⟨tested, -, -, same⟩ <;> rw [same]
  · exact .of_same rfl rfl rfl rfl
  · exact .of_same rfl rfl rfl rfl
  · refine ⟨fun _ => rfl, rfl, List.prefix_rfl, fun q signalled => ?_⟩
    rcases List.mem_append.mp signalled with old | new
    · exact .inl old
    · obtain rfl := List.mem_singleton.mp new
      exact .inr ⟨initiated, tested⟩

/-- Every move registers an operation first or registers none. -/
theorem step_keeps {s next : ComposedWait γ} {move : Move γ}
    (stepped : machine.step s move = some next) :
    Keeps s next ∨ ∃ executor connected attempt, move = .initiate executor connected attempt ∧
      Keeps (s.register executor connected attempt) next := by
  cases move with
  | initiate executor connected attempt =>
    obtain rfl := Option.some.inj stepped
    exact .inr ⟨executor, connected, attempt, rfl, s.initiate_keeps executor connected attempt⟩
  | run k =>
    obtain ⟨job, -, rfl⟩ := Option.map_eq_some_iff.mp stepped
    exact .inl (s.execute_keeps k job)
  | cancel p type =>
    obtain ⟨initiated, rfl⟩ := step_cancel.mp stepped
    exact .inl (s.cancel_keeps initiated type)
  | release =>
    obtain rfl := Option.some.inj stepped
    exact .inl (.of_same rfl rfl rfl rfl)
  | releaseAll =>
    obtain rfl := Option.some.inj stepped
    exact .inl (.of_same rfl rfl rfl rfl)
  | setGate gate =>
    obtain rfl := Option.some.inj stepped
    exact .inl (.of_same rfl rfl rfl rfl)

/-- Invocations are never taken back. -/
theorem run_invoked {s next : ComposedWait γ} {moves : List (Move γ)}
    (ran : machine.run s moves = some next) : s.invoked <+: next.invoked := by
  have keeps (before : ComposedWait γ) (move : Move γ) (after : ComposedWait γ)
      (earlier : s.invoked <+: before.invoked) (stepped : machine.step before move = some after) :
      s.invoked <+: after.invoked := by
    rcases step_keeps stepped with kept | ⟨executor, connected, attempt, -, kept⟩
    · exact earlier.trans kept.invoked
    · exact earlier.trans kept.invoked
  exact machine.run_invariant keeps List.prefix_rfl ran

/-- Every initiated operation has a test of this kind. -/
def Uses (kind : Option (γ → Option γ) → Prop) (s : ComposedWait γ) : Prop :=
  ∀ p < s.started, kind (s.ops p).attempt

/-- Operations keep their tests, so runs that initiate only one kind have only one. -/
theorem step_uses {kind : Option (γ → Option γ) → Prop} {s next : ComposedWait γ}
    {move : Move γ} (uses : s.Uses kind)
    (fresh : ∀ executor connected attempt, move = .initiate executor connected attempt →
      kind attempt)
    (stepped : machine.step s move = some next) : next.Uses kind := by
  rcases step_keeps stepped with kept | ⟨executor, connected, attempt, initiated, kept⟩
  · intro p bound
    rw [kept.attempts]
    exact uses p (kept.started ▸ bound)
  · intro p bound
    rw [kept.attempts]
    by_cases newest : p = s.started
    · subst newest
      rw [attempt_register]
      exact fresh executor connected attempt initiated
    · rw [ops_register_of_ne s executor connected attempt newest]
      have newer : next.started = s.started + 1 := kept.started
      exact uses p (by omega)

/-- Signalled operations have been initiated, and have a test. -/
def Tracked (s : ComposedWait γ) : Prop :=
  ∀ p ∈ s.signalled, p < s.started ∧ (s.ops p).attempt.isSome = true

theorem step_tracked {s next : ComposedWait γ} {move : Move γ} (tracked : s.Tracked)
    (stepped : machine.step s move = some next) : next.Tracked := by
  rcases step_keeps stepped with kept | ⟨executor, connected, attempt, -, kept⟩
  · intro p signalled
    rw [kept.started, kept.attempts]
    exact (kept.signalled p signalled).elim (tracked p) id
  · intro p signalled
    rw [kept.started, kept.attempts]
    rcases kept.signalled p signalled with old | new
    · obtain ⟨bound, tested⟩ := tracked p old
      rw [ops_register_of_ne s executor connected attempt (Nat.ne_of_lt bound)]
      exact ⟨Nat.lt_succ_of_lt bound, tested⟩
    · exact new

/-- The invariants of every state, whatever order the moves come in. -/
structure Sound (s : ComposedWait γ) : Prop where
  consistent : s.Consistent none
  answered : s.Answered
  tracked : s.Tracked

theorem create_sound (gate : γ) (exec : Executor) (order : Nat → PostOrder) (initialCount : Int)
    (valid : 0 ≤ initialCount) : (create gate (.create exec initialCount) order).Sound where
  consistent := create_consistent gate exec order initialCount valid
  answered := by simp [create, Answered]
  tracked := by simp [create, Tracked]

theorem step_sound (s : ComposedWait γ) (move : Move γ) (next : ComposedWait γ) (sound : s.Sound)
    (stepped : machine.step s move = some next) : next.Sound where
  consistent := step_consistent s move next sound.consistent stepped
  answered := step_answered s move next sound.consistent sound.answered stepped
  tracked := step_tracked sound.tracked stepped

/-- An operation with a test passes it at most once, and is answered at most once. -/
theorem Sound.once {s : ComposedWait γ} (sound : s.Sound) (p : Nat) :
    s.finished p ≤ 1 ∧ s.passed.count p ≤ 1 := by
  have placed := sound.consistent.placed p
  have promised := s.promised_le_pending p
  have succeeded := s.succeeded_le_finished p
  have answered := sound.answered p
  split at answered <;> split at placed <;> omega

/-- Only initiated operations have been invoked, or have passed a test. -/
theorem Sound.bound_of_invoked {s : ComposedWait γ} (sound : s.Sound) {p : Nat} {ec : ErrorCode}
    (invoked : (p, ec) ∈ s.invoked) : p < s.started := by
  have placed := sound.consistent.placed p
  have finished : 0 < s.finished p := List.countP_pos_iff.mpr ⟨(p, ec), invoked, by simp⟩
  split at placed <;> omega

theorem Sound.bound_of_passed {s : ComposedWait γ} (sound : s.Sound) {p : Nat}
    (passed : p ∈ s.passed) : p < s.started := by
  have placed := sound.consistent.placed p
  have promised := s.promised_le_pending p
  have succeeded := s.succeeded_le_finished p
  have answered := sound.answered p
  have positive : 0 < s.passed.count p := List.count_pos_iff.mpr passed
  split at answered <;> split at placed <;> omega

/-- An operation with a test that was invoked with success has passed it. -/
theorem Sound.passed_of_succeeded {s : ComposedWait γ} (sound : s.Sound) {p : Nat}
    (tested : (s.ops p).attempt.isSome = true) (invoked : (p, .success) ∈ s.invoked) :
    p ∈ s.passed := by
  have answered := sound.answered p
  have succeeded : 0 < s.succeeded p := List.count_pos_iff.mpr invoked
  rw [if_pos tested] at answered
  exact List.count_pos_iff.mp (by omega)

end Asioex.ComposedWait
