import Asioex.NotifyAll

/-!
# Waits that sleep although they need not

A wait goes to sleep in the ring when it has no predicate, or when it has just found its
predicate false. Nobody who changes what the predicates read calls them; a wait whose
predicate has become true sleeps on until a notification reaches it. `notify_all` reaches
everybody who sleeps, and `notify_one` the one who has slept longest, so that a wait misses
only as many of them as there are others before it.

Whatever was woken runs in the end. Each function that the executor runs leaves one function
or one stored token fewer: a wait that finds its predicate false takes a token and is posted
again, or goes to sleep.
-/

namespace Asioex

namespace ComposedWait

variable {γ : Type}

/-- The operations that sleep in the ring, the one that has slept longest first. -/
def line (s : ComposedWait γ) : List Nat := s.semaphore.waiters.map (·.handler.id)

theorem mem_line {s : ComposedWait γ} {p : Nat} : p ∈ s.line ↔ 0 < s.semaphore.linked p := by
  simp [line, Semaphore.linked, List.countP_pos_iff]

/-- Whether an operation is ready depends on its test and on the gate. -/
theorem ready_congr {s next : ComposedWait γ} {p : Nat}
    (attempt : (next.ops p).attempt = (s.ops p).attempt) (gate : next.gate = s.gate) :
    next.ready p = s.ready p := by
  unfold ready
  rw [attempt, gate]

/-- An acquire is granted, or joins the line at its end. -/
theorem line_acquire {s : ComposedWait γ} {p : Nat} (own : (s.ops p).self.id = p) :
    (s.acquire p).line = s.line ∨ (s.acquire p).line = s.line ++ [p] := by
  by_cases granted : s.semaphore.count ≠ 0
  · left
    simp [line, acquire, enqueue, Semaphore.asyncAcquire, granted, Semaphore.decrement]
  · right
    simp [line, acquire, enqueue, Semaphore.asyncAcquire, granted, own]

/-- A posted function leaves the line alone, or its operation joins it because its test
does not pass. -/
theorem Ran.line {s next : ComposedWait γ} {job : Job} (ran : Ran s job next)
    (own : (s.ops job.op).self.id = job.op) :
    next.line = s.line ∨ (next.line = s.line ++ [job.op] ∧ s.ready job.op = false) := by
  cases ran with
  | finished call => exact .inl rfl
  | ended ec call ends => exact .inl rfl
  | passed attempt gate call tested opened suspended => exact .inl rfl
  | deferred attempt gate call tested opened fresh => exact .inl rfl
  | waits attempt call tested closed =>
    have own' : ((s.suspend job.op).ops job.op).self.id = job.op := by
      rw [self_suspend]
      exact own
    refine (line_acquire own').imp_right fun joined => ⟨joined, ?_⟩
    simp [ready, tested, closed]

/-- So does the initiation of an operation, unless it has no test. -/
theorem line_initiate (s : ComposedWait γ) (executor : Option Executor) (connected : Bool)
    (attempt : Option (γ → Option γ)) :
    (s.initiate executor connected attempt).line = s.line ∨
      ((s.initiate executor connected attempt).line = s.line ++ [s.started] ∧
        ∀ test, attempt = some test → test s.gate = none) := by
  have own : ((s.register executor connected attempt).ops s.started).self.id = s.started := by
    simp [register]
  cases attempt with
  | none => exact (line_acquire own).imp_right fun joined => ⟨joined, by simp⟩
  | some test =>
    change (body test _ s.started .success).line = _ ∨ (body test _ s.started .success).line = _ ∧ _
    rcases body_cases test (s.register executor connected (some test)) s.started .success with
      ⟨error, -⟩ | ⟨gate, -, -, same | same⟩ | ⟨-, closed, same⟩
    · simp at error
    · exact .inl (same ▸ rfl)
    · exact .inl (same ▸ rfl)
    · have own' : (((s.register executor connected (some test)).suspend s.started).ops
          s.started).self.id = s.started := by
        rw [self_suspend]
        exact own
      rw [same]
      refine (line_acquire own').imp_right fun joined => ⟨joined, ?_⟩
      intro other isTest
      exact Option.some.inj isTest ▸ closed

/-- A release wakes the operation that has slept longest. -/
theorem line_release {s : ComposedWait γ} (consistent : s.Consistent none) :
    s.release.line = s.line.tail := by
  obtain ⟨queue, represents⟩ := consistent.represents
  have served := (Semaphore.release_represents represents).1.waiters
  rw [TokenQueue.release_waiting, ← represents.waiters] at served
  change List.map _ s.semaphore.release.1.waiters = (List.map _ s.semaphore.waiters).tail
  rw [served, List.map_tail]

theorem line_releaseAll (s : ComposedWait γ) : s.releaseAll.line = [] :=
  congrArg (List.map _) (Semaphore.drained_exact .success s.semaphore).waiters

/-- An operation with a test that the semaphore is going to call back has set its flag. -/
def Resumable (s : ComposedWait γ) : Prop :=
  ∀ job ∈ s.queue, ∀ ec, job.call = .resume ec → (s.ops job.op).attempt.isSome = true →
    (s.ops job.op).didSuspend = true

namespace Resumable

variable {s : ComposedWait γ} (resumable : s.Resumable)
include resumable

theorem stays {next : ComposedWait γ} (ops : next.ops = s.ops)
    (queue : ∀ job ∈ next.queue, job ∈ s.queue ∨ job.call = .finish) : next.Resumable := by
  intro job member ec resumes
  rw [ops]
  rcases queue job member with old | finish
  · exact resumable job old ec resumes
  · rw [finish] at resumes
    cases resumes

theorem postFinish (p : Nat) : (s.postFinish p).Resumable := by
  refine resumable.stays rfl fun job member => (List.mem_append.mp member).imp_right fun new => ?_
  rw [List.mem_singleton.mp new]

/-- Those that sleep have set their flags. -/
theorem enqueue (suspended : s.Suspended) {ec : ErrorCode} {result : Semaphore × List Posted}
    (completes : s.semaphore.Completes ec result.1 result.2) : (s.enqueue result).Resumable := by
  intro job member ec resumes
  rcases List.mem_append.mp member with old | new
  · exact resumable job old ec resumes
  · obtain ⟨item, inside, rfl⟩ := List.mem_map.mp new
    obtain ⟨op, asleep, rfl⟩ := completes.source item inside
    exact suspended op asleep

theorem acquire {p : Nat} (own : (s.ops p).self.id = p)
    (flag : (s.ops p).attempt.isSome = true → (s.ops p).didSuspend = true) :
    (s.acquire p).Resumable := by
  intro job member ec resumes
  rcases List.mem_append.mp member with old | new
  · exact resumable job old ec resumes
  · obtain ⟨item, inside, rfl⟩ := List.mem_map.mp new
    rw [Semaphore.asyncAcquire_posted _ _ item inside]
    change (s.ops (s.ops p).self.id).attempt.isSome = true →
      (s.ops (s.ops p).self.id).didSuspend = true
    rw [own]
    exact flag

theorem waits {p : Nat} (own : (s.ops p).self.id = p) : ((s.suspend p).acquire p).Resumable := by
  have flagged : (s.suspend p).Resumable := by
    intro job member ec resumes tested
    rw [attempt_suspend] at tested
    exact (s.suspend_leaves p).flags _ (resumable job member ec resumes tested)
  refine flagged.acquire ?_ fun _ => by simp [suspend]
  rw [self_suspend]
  exact own

theorem initiate (homed : s.Homed) (executor : Option Executor) (connected : Bool)
    (attempt : Option (γ → Option γ)) : (s.initiate executor connected attempt).Resumable := by
  have registered : (s.register executor connected attempt).Resumable := by
    intro job member
    rw [ops_register_of_ne s executor connected attempt (Nat.ne_of_lt (homed.jobs job member).1)]
    exact resumable job member
  have own : ((s.register executor connected attempt).ops s.started).self.id = s.started := by
    simp [register]
  cases attempt with
  | none => exact registered.acquire own (by simp [register])
  | some attempt =>
    change (body attempt _ s.started .success).Resumable
    rcases body_cases attempt (s.register executor connected (some attempt)) s.started .success with
      ⟨error, -⟩ | ⟨gate, -, -, same | same⟩ | ⟨-, -, same⟩
    · simp at error
    · exact same.symm ▸ registered.stays rfl fun _ old => .inl old
    · exact same.symm ▸ registered.postFinish s.started
    · exact same.symm ▸ registered.waits own

theorem ran {job : Job} {next : ComposedWait γ} (own : (s.ops job.op).self.id = job.op)
    (ran : Ran s job next) : next.Resumable := by
  cases ran with
  | finished call => exact resumable.stays rfl fun _ old => .inl old
  | ended ec call ends => exact resumable.stays rfl fun _ old => .inl old
  | passed attempt gate call tested opened flag => exact resumable.stays rfl fun _ old => .inl old
  | deferred attempt gate call tested opened fresh =>
    have passed : (s.pass job.op gate).Resumable := resumable.stays rfl fun _ old => .inl old
    exact passed.postFinish job.op
  | waits attempt call tested closed => exact resumable.waits own

end Resumable

/-- Every move keeps it so. -/
theorem step_resumable {s next : ComposedWait γ} {move : Move γ} (sound : s.Sound) (homed : s.Homed)
    (suspended : s.Suspended) (resumable : s.Resumable)
    (stepped : machine.step s move = some next) : next.Resumable := by
  obtain ⟨queue, represents⟩ := sound.consistent.represents
  cases move with
  | initiate executor connected attempt =>
    obtain rfl := Option.some.inj stepped
    exact resumable.initiate homed executor connected attempt
  | run k =>
    obtain ⟨job, queued, rfl⟩ := Option.map_eq_some_iff.mp stepped
    obtain ⟨bound, -⟩ := homed.jobs job (List.mem_of_getElem? queued)
    have left : (s.dequeue k).Resumable :=
      resumable.stays rfl fun _ old => .inl (List.mem_of_mem_eraseIdx old)
    exact left.ran (homed.self job.op bound) ((s.dequeue k).execute_ran job)
  | cancel p type =>
    obtain ⟨-, rfl⟩ := step_cancel.mp stepped
    rcases s.cancel_emits p type with same | ⟨signalled, received, same⟩
    · exact same.symm ▸ resumable
    · have noted : Resumable { s with signalled := signalled } := resumable
      have completes := Semaphore.emit_completes represents.slots p received
      exact same.symm ▸ noted.enqueue suspended completes
  | release =>
    obtain rfl := Option.some.inj stepped
    exact resumable.enqueue suspended s.semaphore.release_completes
  | releaseAll =>
    obtain rfl := Option.some.inj stepped
    exact resumable.enqueue suspended (s.semaphore.drained_completes .success)
  | setGate gate =>
    obtain rfl := Option.some.inj stepped
    exact resumable.stays rfl fun _ old => .inl old

/-- What the executor has to do: the functions posted, and the tokens stored, each of which
may bring one more back. -/
def workload (s : ComposedWait γ) : Nat := s.queue.length + s.semaphore.count.toNat

/-- An acquire turns a token into a posted function, or posts nothing. -/
theorem workload_acquire (s : ComposedWait γ) (p : Nat) (counted : 0 ≤ s.semaphore.count) :
    (s.acquire p).workload = s.workload := by
  by_cases granted : s.semaphore.count ≠ 0
  · simp [workload, acquire, enqueue, Semaphore.asyncAcquire, granted, Semaphore.decrement]
    omega
  · simp [workload, acquire, enqueue, Semaphore.asyncAcquire, granted]

/-- Each function that runs takes one off the workload. -/
theorem run_workload {s next : ComposedWait γ} {k : Nat} (sound : s.Sound) (resumable : s.Resumable)
    (stepped : machine.step s (.run k) = some next) : next.workload + 1 = s.workload := by
  obtain ⟨queue, represents⟩ := sound.consistent.represents
  obtain ⟨job, queued, rfl⟩ := Option.map_eq_some_iff.mp stepped
  have counted : 0 ≤ s.semaphore.count := by
    rw [represents.count]
    exact Int.natCast_nonneg _
  have fewer : (s.dequeue k).workload + 1 = s.workload := by
    have less := (s.dequeue_perm queued).length_eq
    rw [List.length_cons] at less
    simp only [workload] at *
    change _ + s.semaphore.count.toNat + 1 = _
    omega
  have ran := (s.dequeue k).execute_ran job
  generalize (s.dequeue k).execute job = next at ran
  cases ran with
  | finished call => exact fewer
  | ended ec call ends => exact fewer
  | passed attempt gate call tested opened suspended => exact fewer
  | deferred attempt gate call tested opened fresh =>
    have set := resumable job (List.mem_of_getElem? queued) .success call (by
      change (s.ops job.op).attempt = some attempt at tested
      simp [tested])
    exact absurd (set.symm.trans fresh) (by decide)
  | waits attempt call tested closed =>
    rw [workload_acquire _ _ (by exact counted)]
    exact fewer

end ComposedWait

namespace ConditionVariable

open ComposedWait (Ran)

variable {γ : Type}

def Event.isNotifyOne : Event γ → Bool
  | .notifyOne => true
  | _ => false

/-- The wait sleeps although it would complete if it were called back, and does so since this
event: it has no predicate and was initiated, or its predicate became true. -/
inductive Rouses (s : ConditionVariable γ) (p : Nat) : Event γ → Prop where
  | initiated (executor : Option Executor) (connected : Bool) (own : p = s.started) :
      Rouses s p (.asyncWait executor connected)
  | fulfilled (value : γ) (asleep : p ∈ s.line) (closed : s.ready p = false)
      (opened : (s.setGate value).ready p = true) : Rouses s p (.write value)

/-- How a wait comes to sleep after an event. -/
inductive Sleeps (s next : ConditionVariable γ) (event : Event γ) (p : Nat) : Prop where
  | vainly (closed : next.ready p = false)
  | roused (rouses : s.Rouses p event) (place : next.line.idxOf p ≤ s.line.idxOf p)
  | stays (asleep : p ∈ s.line) (unheard : event ≠ .notifyAll)
      (place : (if event.isNotifyOne then 1 else 0) + next.line.idxOf p ≤ s.line.idxOf p)
      (unchanged : next.ready p = s.ready p)

/-- Initiated operations keep their tests. -/
theorem attempt_kept {s next : ConditionVariable γ} {event : Event γ}
    (stepped : machine.step s event = some next) {p : Nat} (bound : p < s.started) :
    (next.ops p).attempt = (s.ops p).attempt := by
  rw [s.step_move event] at stepped
  rcases ComposedWait.step_keeps stepped with kept | ⟨executor, connected, attempt, -, kept⟩
  · exact kept.attempts p
  · rw [kept.attempts p, s.ops_register_of_ne executor connected attempt (Nat.ne_of_lt bound)]

/-- Testing a predicate changes nothing that it reads. -/
theorem asyncWaitFor_gate (s : ConditionVariable γ) (predicate : γ → Bool)
    (executor : Option Executor) (connected : Bool) :
    (s.asyncWaitFor predicate executor connected).gate = s.gate := by
  rcases ComposedWait.body_cases (waitAttempt predicate) (s.register executor connected
    (some (waitAttempt predicate))) s.started .success with
    ⟨error, -⟩ | ⟨gate, -, opened, same | same⟩ | ⟨-, -, same⟩
  · simp at error
  · exact (congrArg ComposedWait.gate same).trans (waitAttempt_passes opened).2
  · exact (congrArg ComposedWait.gate same).trans (waitAttempt_passes opened).2
  · exact (congrArg ComposedWait.gate same).trans rfl

/-- A wait that is initiated with a false predicate is not ready. -/
theorem asyncWaitFor_ready (s : ConditionVariable γ) {predicate : γ → Bool}
    (executor : Option Executor) (connected : Bool) (closed : waitAttempt predicate s.gate = none) :
    (s.asyncWaitFor predicate executor connected).ready s.started = false := by
  have tested : ((s.asyncWaitFor predicate executor connected).ops s.started).attempt =
      some (waitAttempt predicate) :=
    ((s.initiate_keeps executor connected (some (waitAttempt predicate))).attempts s.started).trans
      (s.attempt_register executor connected _)
  simp [ComposedWait.ready, tested, s.asyncWaitFor_gate, closed]

/-- A step in which one wait may join the line, whose predicate is false if it has one. -/
theorem sleeps_of_joins {s next : ConditionVariable γ} {event : Event γ} {p q : Nat}
    (line : next.line = s.line ∨ (next.line = s.line ++ [q] ∧
      (next.ready q = false ∨ s.Rouses q event)))
    (unchanged : p ∈ s.line → next.ready p = s.ready p) (one : event.isNotifyOne = false)
    (all : event ≠ .notifyAll) (asleep : p ∈ next.line) : Sleeps s next event p := by
  have stays (before : p ∈ s.line) (place : next.line.idxOf p ≤ s.line.idxOf p) :
      Sleeps s next event p := .stays before all (by simpa [one] using place) (unchanged before)
  rcases line with same | ⟨joined, reason⟩
  · rw [same] at asleep
    exact stays asleep (Nat.le_of_eq (by rw [same]))
  · by_cases before : p ∈ s.line
    · exact stays before (Nat.le_of_eq (by rw [joined, List.idxOf_append_of_mem before]))
    · rw [joined] at asleep
      obtain rfl : p = q := by simpa [before] using asleep
      refine reason.elim .vainly fun rouses => .roused rouses ?_
      rw [joined, List.idxOf_append_of_notMem before, List.idxOf_of_notMem before]
      simp

namespace Calm

variable {s : ConditionVariable γ} (calm : s.Calm)
include calm

theorem line_nodup : s.line.Nodup := calm.sound.consistent.owned.distinct

theorem bound_of_asleep {p : Nat} (asleep : p ∈ s.line) : p < s.started :=
  calm.sound.consistent.linked_bound (ComposedWait.mem_line.mp asleep)

/-- A step that ends waits, or none, and changes no predicate. -/
theorem sleeps_of_sublist {next : ConditionVariable γ} {event : Event γ} {p : Nat}
    (remaining : next.line.Sublist s.line) (ops : (next.ops p).attempt = (s.ops p).attempt)
    (gate : next.gate = s.gate) (one : event.isNotifyOne = false) (all : event ≠ .notifyAll)
    (asleep : p ∈ next.line) : Sleeps s next event p := by
  refine .stays (remaining.subset asleep) all ?_ (ComposedWait.ready_congr ops gate)
  simpa [one] using TokenQueue.idxOf_le_of_sublist remaining calm.line_nodup asleep

/-- How the waits that sleep after a step came to do so. -/
theorem step_sleeps {event : Event γ} {next : ConditionVariable γ}
    (stepped : machine.step s event = some next) {p : Nat} (asleep : p ∈ next.line) :
    Sleeps s next event p := by
  have attempts {q : Nat} (bound : q < s.started) := attempt_kept stepped bound
  obtain ⟨queue, represents⟩ := calm.sound.consistent.represents
  cases event with
  | asyncWait executor connected =>
    obtain rfl := Option.some.inj stepped
    refine sleeps_of_joins (q := s.started) ?_ (fun before => ?_) rfl (by simp) asleep
    · exact (s.line_initiate executor connected none).imp_right fun joins =>
        ⟨joins.1, .inr (.initiated executor connected rfl)⟩
    · exact ComposedWait.ready_congr (attempts (calm.bound_of_asleep before)) rfl
  | asyncWaitFor predicate executor connected =>
    obtain rfl := Option.some.inj stepped
    have gate := s.asyncWaitFor_gate predicate executor connected
    refine sleeps_of_joins (q := s.started) ?_ (fun before => ?_) rfl (by simp) asleep
    · refine (s.line_initiate executor connected _).imp_right fun joins => ⟨joins.1, .inl ?_⟩
      exact s.asyncWaitFor_ready executor connected (joins.2 _ rfl)
    · exact ComposedWait.ready_congr (attempts (calm.bound_of_asleep before)) gate
  | notifyOne =>
    obtain rfl := Option.some.inj stepped
    have tail : s.notifyOne.line = s.line.tail :=
      ComposedWait.line_release calm.sound.consistent
    rw [tail] at asleep
    refine .stays (List.mem_of_mem_tail asleep) (by simp) ?_ rfl
    rw [tail]
    exact Nat.le_of_eq (TokenQueue.idxOf_tail calm.line_nodup asleep)
  | notifyAll =>
    obtain rfl := Option.some.inj stepped
    have empty : s.notifyAll.line = [] := s.line_releaseAll
    simp [empty] at asleep
  | cancel q type =>
    obtain ⟨bound, rfl⟩ := ComposedWait.step_cancel.mp stepped
    rcases s.cancel_emits q type with same | ⟨signalled, received, same⟩
    · rw [same] at asleep ⊢
      exact calm.sleeps_of_sublist (List.Sublist.refl _) rfl rfl rfl (by simp) asleep
    · have completes := Semaphore.emit_completes represents.slots q received
      rw [same] at asleep ⊢
      exact calm.sleeps_of_sublist (completes.remaining.map _) rfl rfl rfl (by simp) asleep
  | run k =>
    obtain ⟨job, queued, rfl⟩ := Option.map_eq_some_iff.mp stepped
    obtain ⟨bound, -⟩ := calm.homed.jobs job (List.mem_of_getElem? queued)
    have ran := (s.dequeue k).execute_ran job
    have gate : ((s.dequeue k).execute job).gate = (s.dequeue k).gate :=
      ran_gate ran (calm.predicates _ bound)
    refine sleeps_of_joins (q := job.op) ?_ (fun before => ?_) rfl (by simp) asleep
    · refine (ran.line (calm.homed.self _ bound)).imp_right fun joins => ⟨joins.1, .inl ?_⟩
      exact (ComposedWait.ready_congr (attempts bound) gate).trans joins.2
    · exact ComposedWait.ready_congr (attempts (calm.bound_of_asleep before)) gate
  | write value =>
    obtain rfl := Option.some.inj stepped
    have before : p ∈ s.line := asleep
    cases opened : (s.setGate value).ready p with
    | false => exact .vainly opened
    | true =>
      cases closed : s.ready p with
      | false => exact .roused (.fulfilled value before closed opened) (Nat.le_refl _)
      | true =>
        refine .stays before (by simp) ?_ (opened.trans closed.symm)
        simp [Event.isNotifyOne, ComposedWait.line, ComposedWait.setGate]

end Calm

/-- No notification has reached the wait since one of the events: no `notify_all` has come after
it, and of `notify_one` no more than other waits have left the line before this one. -/
def Unheard (start : ConditionVariable γ) (events : List (Event γ)) (s : ConditionVariable γ)
    (p : Nat) : Prop :=
  ∃ before event after middle, events = before ++ event :: after ∧
    machine.run start before = some middle ∧ middle.Rouses p event ∧
    (∀ later ∈ after, later ≠ .notifyAll) ∧
    after.countP Event.isNotifyOne + s.line.idxOf p ≤ middle.line.idxOf p

/-- A wait sleeps although it need not only if no notification has reached it.

Proof: by what a step can do to those that sleep after it, with the events so far. -/
theorem run_unheard {start last : ConditionVariable γ} {events : List (Event γ)}
    (calm : start.Calm) (awake : start.line = [])
    (ran : machine.run start events = some last) {p : Nat} (asleep : p ∈ last.line)
    (ready : last.ready p = true) : Unheard start events last p := by
  have keeps (past : List (Event γ)) (s : ConditionVariable γ) (event : Event γ)
      (next : ConditionVariable γ)
      (law : machine.run start past = some s ∧ s.Calm ∧
        ∀ p ∈ s.line, s.ready p = true → Unheard start past s p)
      (stepped : machine.step s event = some next) :
      machine.run start (past ++ [event]) = some next ∧ next.Calm ∧
        ∀ p ∈ next.line, next.ready p = true → Unheard start (past ++ [event]) next p := by
    obtain ⟨reached, calm, unheard⟩ := law
    refine ⟨machine.run_snoc.mpr ⟨s, reached, stepped⟩, step_calm s event next calm stepped, ?_⟩
    intro p asleep ready
    cases calm.step_sleeps stepped asleep with
    | vainly closed => exact absurd (ready.symm.trans closed) (by decide)
    | roused rouses place =>
      exact ⟨past, event, [], s, rfl, reached, rouses, by simp, by simpa using place⟩
    | stays before silent place unchanged =>
      obtain ⟨earlier, rouser, after, middle, rfl, found, rouses, nobody, few⟩ :=
        unheard p before (unchanged ▸ ready)
      refine ⟨earlier, rouser, after ++ [event], middle, by simp, found, rouses, ?_, ?_⟩
      · intro later member
        rcases List.mem_append.mp member with old | new
        · exact nobody later old
        · exact List.mem_singleton.mp new ▸ silent
      · rw [List.countP_append, List.countP_singleton]
        omega
  have initial : ∀ p ∈ start.line, start.ready p = true → Unheard start [] start p := by
    simp [awake]
  exact (machine.run_history keeps ⟨rfl, calm, initial⟩ ran).2.2 p asleep ready

def Event.isRun : Event γ → Bool
  | .run _ => true
  | _ => false

/-- The executor and `notify_all` initiate nothing and change no predicate. -/
theorem step_quiet {s next : ConditionVariable γ} {event : Event γ} (calm : s.Calm)
    (quiet : event.isRun = true ∨ event = .notifyAll)
    (stepped : machine.step s event = some next) :
    next.started = s.started ∧ ∀ p < s.started, next.ready p = s.ready p := by
  have attempts {p : Nat} (bound : p < s.started) := attempt_kept stepped bound
  cases event with
  | run k =>
    obtain ⟨job, queued, rfl⟩ := Option.map_eq_some_iff.mp stepped
    obtain ⟨bound, -⟩ := calm.homed.jobs job (List.mem_of_getElem? queued)
    have gate : ((s.dequeue k).execute job).gate = (s.dequeue k).gate :=
      ran_gate ((s.dequeue k).execute_ran job) (calm.predicates _ bound)
    refine ⟨(s.execute_keeps k job).started, fun p bound => ?_⟩
    exact ComposedWait.ready_congr (attempts bound) gate
  | notifyAll =>
    obtain rfl := Option.some.inj stepped
    exact ⟨rfl, fun p bound => ComposedWait.ready_congr (attempts bound) rfl⟩
  | asyncWait executor connected => simp [Event.isRun] at quiet
  | asyncWaitFor predicate executor connected => simp [Event.isRun] at quiet
  | notifyOne => simp [Event.isRun] at quiet
  | cancel q type => simp [Event.isRun] at quiet
  | write value => simp [Event.isRun] at quiet

/-- A wait that has been initiated has completed, sleeps, or is posted. -/
theorem Calm.idle {s : ConditionVariable γ} (calm : s.Calm) (idle : s.queue = []) {p : Nat}
    (bound : p < s.started) : s.finished p + (if p ∈ s.line then 1 else 0) = 1 := by
  have placed := calm.sound.consistent.placed p
  have nothing : s.pending p = 0 := by simp [ComposedWait.pending, idle]
  have once := calm.sound.consistent.owned.linked_le p
  rw [if_pos bound] at placed
  by_cases asleep : p ∈ s.line
  · have linked := ComposedWait.mem_line.mp asleep
    rw [if_pos asleep]
    omega
  · have unlinked := mt ComposedWait.mem_line.mpr asleep
    rw [if_neg asleep]
    omega

/-- The executor alone takes one off the workload with each function that it runs. -/
theorem run_executor {s last : ConditionVariable γ} {steps : List (Event γ)} (calm : s.Calm)
    (resumable : s.Resumable) (only : ∀ event ∈ steps, event.isRun = true)
    (ran : machine.run s steps = some last) : steps.length + last.workload = s.workload := by
  have counts (s : ConditionVariable γ) (event : Event γ) (next : ConditionVariable γ)
      (isRun : event.isRun = true) (law : s.Calm ∧ s.Resumable)
      (stepped : machine.step s event = some next) :
      (next.Calm ∧ next.Resumable) ∧ next.workload + 1 = s.workload := by
    obtain ⟨calm, resumable⟩ := law
    cases event with
    | run k =>
      have moved : ComposedWait.machine.step s (.run k) = some next := stepped
      exact ⟨⟨step_calm s _ next calm stepped, ComposedWait.step_resumable calm.sound calm.homed
        calm.suspended resumable moved⟩, ComposedWait.run_workload calm.sound resumable moved⟩
    | asyncWait executor connected => cases isRun
    | asyncWaitFor predicate executor connected => cases isRun
    | notifyOne => cases isRun
    | notifyAll => cases isRun
    | cancel p type => cases isRun
    | write value => cases isRun
  exact machine.run_countdown ComposedWait.workload counts only ⟨calm, resumable⟩ ran

/-- What the executor makes of a call of `notify_all`, in whatever order: who still sleeps
then sleeps because of a predicate that is false. -/
theorem notifyAll_reaches {start s last : ConditionVariable γ} {events steps : List (Event γ)}
    (calm : start.Calm) (awake : start.line = []) (ran : machine.run start events = some s)
    (only : ∀ event ∈ steps, event.isRun = true)
    (ended : machine.run s (.notifyAll :: steps) = some last) (idle : last.queue = []) {p : Nat}
    (bound : p < s.started) : last.finished p = 1 ∨ (p ∈ last.line ∧ s.ready p = false) := by
  have calmed := machine.run_invariant step_calm calm ran
  have quiet : ∀ event ∈ Event.notifyAll :: steps, event.isRun = true ∨ event = .notifyAll := by
    intro event member
    rcases List.mem_cons.mp member with rfl | later
    · exact .inr rfl
    · exact .inl (only event later)
  have keeps (middle : ConditionVariable γ) (event : Event γ) (next : ConditionVariable γ)
      (law : middle.Calm ∧ middle.started = s.started ∧
        ∀ p < s.started, middle.ready p = s.ready p)
      (stepped : machine.step middle event = some next)
      (quiet : event.isRun = true ∨ event = .notifyAll) :
      next.Calm ∧ next.started = s.started ∧ ∀ p < s.started, next.ready p = s.ready p := by
    obtain ⟨calm, started, same⟩ := law
    obtain ⟨still, unchanged⟩ := step_quiet calm quiet stepped
    refine ⟨step_calm middle event next calm stepped, still.trans started, fun p bound => ?_⟩
    exact (unchanged p (started ▸ bound)).trans (same p bound)
  obtain ⟨lastCalm, started, same⟩ := machine.run_invariant_along keeps
    ⟨calmed, rfl, fun _ _ => rfl⟩ ((machine.along_events ended).mpr quiet) ended
  have placed := lastCalm.idle idle (started.symm ▸ bound)
  by_cases asleep : p ∈ last.line
  · refine .inr ⟨asleep, ?_⟩
    rw [← same p bound]
    by_contra ready
    -- the event that roused it stands before the notification
    obtain ⟨before, event, after, middle, split, -, rouses, nobody, -⟩ := run_unheard calm awake
      (machine.run_append.mpr ⟨s, ran, ended⟩) asleep (Bool.of_not_eq_false ready)
    have loud : event ∉ Event.notifyAll :: steps := by
      intro member
      rcases quiet event member with isRun | rfl
      · cases rouses <;> cases isRun
      · cases rouses
    rcases List.append_eq_append_iff.mp split with ⟨rest, -, tail⟩ | ⟨rest, head, tail⟩
    · exact loud (tail ▸ List.mem_append_right _ (List.mem_cons_self ..))
    · cases rest with
      | nil =>
        obtain ⟨rfl, -⟩ := List.cons.inj tail
        exact loud (List.mem_cons_self ..)
      | cons first rest =>
        obtain ⟨rfl, rfl⟩ := List.cons.inj tail
        exact nobody .notifyAll (by simp) rfl
  · rw [if_neg asleep] at placed
    exact .inl placed

/-- In every run of a condition variable, with any mix of waits, notifications, cancellations,
writes and posted functions: a wait that sleeps although it need not does so since its predicate
became true, or since it was initiated without one; nobody has called `notify_all` since, nor
`notify_one` often enough. The executor alone comes to an end in any order, each function taking
one off the posted functions and the stored tokens. When it is idle, every wait has completed
exactly once or sleeps; and if it has become so after a call of `notify_all`, only waits with a
false predicate sleep. -/
theorem no_wakeup_is_lost (exec : Executor) (order : Nat → PostOrder) (state : γ)
    (events : List (Event γ)) (s : ConditionVariable γ)
    (ran : machine.run (create exec state order) events = some s) :
    (∀ p ∈ s.line, s.ready p = true → Unheard (create exec state order) events s p) ∧
    (∀ steps last, (∀ event ∈ steps, event.isRun = true) → machine.run s steps = some last →
      steps.length + last.workload = s.workload) ∧
    (s.queue = [] → ∀ p < s.started, s.finished p + (if p ∈ s.line then 1 else 0) = 1) ∧
    ∀ steps last, (∀ event ∈ steps, event.isRun = true) →
      machine.run s (.notifyAll :: steps) = some last → last.queue = [] →
      ∀ p < s.started, last.finished p = 1 ∨ (p ∈ last.line ∧ s.ready p = false) := by
  have calm := create_calm exec order state
  have fresh : (create exec state order).Resumable := by
    simp [create, ComposedWait.create, ComposedWait.Resumable]
  have keeps (s : ConditionVariable γ) (event : Event γ) (next : ConditionVariable γ)
      (law : s.Calm ∧ s.Resumable) (stepped : machine.step s event = some next) :
      next.Calm ∧ next.Resumable := by
    refine ⟨step_calm s event next law.1 stepped, ?_⟩
    rw [s.step_move event] at stepped
    exact ComposedWait.step_resumable law.1.sound law.1.homed law.1.suspended law.2 stepped
  obtain ⟨calmed, resumable⟩ := machine.run_invariant keeps ⟨calm, fresh⟩ ran
  exact ⟨fun p asleep ready => run_unheard calm rfl ran asleep ready,
    fun steps last only more => run_executor calmed resumable only more,
    fun idle p bound => calmed.idle idle bound,
    fun steps last only ended idle p bound => notifyAll_reaches calm rfl ran only ended idle bound⟩

/-- Two waits sleep when the predicates of both become true, and one notification wakes the
first. -/
def oneNotified : List (Event Nat) :=
  [.asyncWaitFor (fun state => 1 ≤ state) none true,
    .asyncWaitFor (fun state => 2 ≤ state) none true, .write 3, .notifyOne, .run 0]

theorem no_wakeup_is_lost_oneNotified :
    ∃ s, machine.run (create 0 0 leftToRight) oneNotified = some s ∧ s.line = [1] ∧
      s.ready 1 = true ∧ s.invoked = [(0, .success)] ∧
      Unheard (create 0 0 leftToRight) oneNotified s 1 :=
  ⟨_, rfl, rfl, rfl, rfl, (no_wakeup_is_lost 0 leftToRight 0 oneNotified _ rfl).1 1 (by decide) rfl⟩

end ConditionVariable

end Asioex
