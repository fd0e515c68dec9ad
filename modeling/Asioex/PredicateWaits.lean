import Asioex.ComposedSteps
import Asioex.ConditionVariable

/-!
# Predicates at the time of completion

A wait with a predicate that suspended tests the predicate and completes in one step
of the executor. A wait that did not suspend has tested its predicate in the initiating
function, and completes when the executor runs the function posted there. Whatever runs
in between may change what the predicate reads, and the function does not look again.
-/

namespace Asioex.ConditionVariable

open ComposedWait (Ran)

variable {γ : Type}

/-- Whenever the handler of a wait with a predicate is invoked with success, the
predicate is true. -/
def Fulfilled (s : ConditionVariable γ) (_event : Event γ) (next : ConditionVariable γ) : Prop :=
  ∀ p predicate, (next.ops p).attempt = some (waitAttempt predicate) →
    s.succeeded p < next.succeeded p → predicate next.gate = true

/-- Where the executor runs the completion of a wait that did not suspend, the state
still satisfies the predicate. -/
def Lasting (s : ConditionVariable γ) (event : Event γ) (_next : ConditionVariable γ) : Prop :=
  ∀ k job predicate, event = .run k → s.queue[k]? = some job → job.call = .finish →
    (s.ops job.op).attempt = some (waitAttempt predicate) → predicate s.gate = true

/-- A predicate passes where it is true, and changes nothing. -/
theorem waitAttempt_passes {predicate : γ → Bool} {state after : γ}
    (opened : waitAttempt predicate state = some after) : predicate state = true ∧ after = state := by
  simp only [waitAttempt, Option.ite_none_right_eq_some, Option.some.injEq] at opened
  exact ⟨opened.1, opened.2.symm⟩

/-- A function that invokes the handler of a predicate wait with success is the
completion of a wait that did not suspend, or finds the predicate true.

Proof: by what the function does. An operation with a test ends without it only in an
error. -/
theorem ran_fulfilled {s next : ConditionVariable γ} {job : Job} (ran : Ran s job next) {p : Nat}
    {predicate : γ → Bool} (tested : (next.ops p).attempt = some (waitAttempt predicate))
    (succeeds : s.succeeded p < next.succeeded p) :
    job.op = p ∧ next.gate = s.gate ∧ (job.call = .finish ∨ predicate s.gate = true) := by
  cases ran with
  | finished call =>
    rw [ComposedWait.succeeded_invoke] at succeeds
    have own : job.op = p := by
      by_contra other
      simp [other] at succeeds
    exact ⟨own, rfl, .inl call⟩
  | ended ec call ends =>
    rw [ComposedWait.succeeded_invoke] at succeeds
    have own : job.op = p ∧ ec = .success := by
      by_contra other
      simp [other] at succeeds
    obtain ⟨rfl, rfl⟩ := own
    rcases ends with untested | failed
    · have both := untested.symm.trans tested
      cases both
    · simp at failed
  | passed attempt gate call attempted opened suspended =>
    rw [ComposedWait.succeeded_invoke] at succeeds
    have own : job.op = p := by
      by_contra other
      simp only [other, false_and, ↓reduceIte, Nat.add_zero] at succeeds
      exact Nat.lt_irrefl _ succeeds
    subst own
    obtain rfl : attempt = waitAttempt predicate := Option.some.inj (attempted.symm.trans tested)
    obtain ⟨holds, rfl⟩ := waitAttempt_passes opened
    exact ⟨rfl, rfl, .inr holds⟩
  | deferred attempt gate call attempted opened fresh => exact absurd succeeds (Nat.lt_irrefl _)
  | waits attempt call attempted closed => exact absurd succeeds (Nat.lt_irrefl _)

theorem fulfilled_iff {s next : ConditionVariable γ} {event : Event γ}
    (stepped : machine.step s event = some next) :
    Fulfilled s event next ↔ Lasting s event next := by
  constructor
  · rintro fulfilled k job predicate rfl queued call tested
    obtain ⟨found, taken, rfl⟩ := Option.map_eq_some_iff.mp stepped
    obtain rfl : job = found := Option.some.inj (queued.symm.trans taken)
    have completes : (s.dequeue k).execute job = (s.dequeue k).invoke job.op .success := by
      simp only [ComposedWait.execute, call]
    rw [completes] at fulfilled
    apply fulfilled job.op predicate tested
    rw [ComposedWait.succeeded_invoke, if_pos ⟨rfl, rfl⟩]
    exact Nat.lt_succ_self _
  · intro lasting p predicate tested succeeds
    rw [step_move] at stepped
    rcases ComposedWait.step_invoked stepped with silent | ⟨k, job, ec, moves, invokes⟩
    · have same : next.succeeded p = s.succeeded p := by
        unfold ComposedWait.succeeded
        rw [silent]
      omega
    · obtain rfl : event = .run k := by
        cases event <;> simp_all [Event.move]
      obtain ⟨found, taken, rfl⟩ := Option.map_eq_some_iff.mp stepped
      obtain rfl : job = found := Option.some.inj (invokes.queued.symm.trans taken)
      obtain ⟨rfl, still, earlier⟩ :=
        ran_fulfilled ((s.dequeue k).execute_ran job) tested succeeds
      rw [still]
      rcases earlier with call | holds
      · exact lasting k job predicate rfl taken call
          (((s.execute_keeps k job).attempts job.op).symm.trans tested)
      · exact holds

/-- The waits with a predicate that succeed do so while their predicates are true
exactly when every one that did not suspend is completed while its predicate is. -/
theorem predicate_waits_fulfilled_iff (exec : Executor) (order : Nat → PostOrder) (state : γ)
    (events : List (Event γ)) :
    machine.Along Fulfilled (create exec state order) events ↔
      machine.Along Lasting (create exec state order) events := by
  have agree (s : ConditionVariable γ) (event : Event γ) (next : ConditionVariable γ) (_ : True)
      (_ : True) (stepped : machine.step s event = some next) :
      Fulfilled s event next ↔ Lasting s event next :=
    fulfilled_iff stepped
  exact machine.along_iff agree (fun _ _ _ _ _ _ _ => trivial) events (fun _ _ => trivial) trivial

/-- The predicate is true when the wait is initiated, and false when it completes. -/
def overtaken : List (Event Bool) := [.asyncWaitFor id none true, .write false, .run 0]

theorem predicate_false_on_success :
    ∃ s, machine.run (create 0 true leftToRight) overtaken = some s ∧ s.invoked = [(0, .success)] ∧
      s.gate = false ∧ ¬machine.Along Fulfilled (create 0 true leftToRight) overtaken := by
  refine ⟨_, rfl, rfl, rfl, fun along => ?_⟩
  have fulfilled := (((along _ rfl).2 _ rfl).2 _ rfl).1
  have holds := fulfilled 0 id rfl (by decide)
  cases holds

end Asioex.ConditionVariable
