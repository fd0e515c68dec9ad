import Asioex.ConditionVariable

/-!
# Notifications and the token they may leave

A notifier without memory leaves nothing behind when nobody waits. `notify_all`
drains the ring and is such a notifier. `notify_one` releases a token, which stays
in the counter when the ring is empty and is spent by the next wait. The runs in
which the two agree are those that call `notify_one` only while somebody waits.
-/

namespace Asioex

/-- The code that a posted function completes a plain wait with. -/
def Call.code : Call → ErrorCode
  | .resume ec => ec
  | .finish => .success

namespace ComposedWait

variable {γ : Type}

/-- How many successes of an operation have been posted, run or not. -/
def granted (s : ComposedWait γ) (p : Nat) : Nat :=
  s.queue.countP (fun job => job.op == p && job.call.code == .success) + s.succeeded p

/-- A semaphore operation grants what it posts, if it posts success. -/
theorem granted_enqueue {s : ComposedWait γ} {ec : ErrorCode} {result : Semaphore × List Posted}
    (completes : s.semaphore.Completes ec result.1 result.2) (p : Nat) :
    (s.enqueue result).granted p =
      s.granted p + if ec = .success then Semaphore.postedFor result.2 p else 0 := by
  have posted : result.2.countP (fun item => item.handler.id == p && item.ec == .success) =
      if ec = .success then Semaphore.postedFor result.2 p else 0 := by
    have same : ∀ item ∈ result.2,
        ((item.handler.id == p && item.ec == .success) = true ↔
          (item.handler.id == p && ec == .success) = true) := by
      intro item member
      obtain ⟨op, -, rfl⟩ := completes.source item member
      rfl
    rw [List.countP_congr same]
    by_cases success : ec = .success
    · simp [success, Semaphore.postedFor]
    · simp [success]
  simp only [granted, enqueue, List.countP_append, List.countP_map, Function.comp_def, Call.code]
  change _ + s.succeeded p = _
  omega

/-- Running a function of a plain wait invokes the handler with the code posted. -/
theorem granted_execute {s : ComposedWait γ} {k : Nat} {job : Job}
    (queued : s.queue[k]? = some job) (plain : (s.ops job.op).attempt = none) (p : Nat) :
    (s.dequeue k).execute job = (s.dequeue k).invoke job.op job.call.code ∧
      ((s.dequeue k).execute job).granted p = s.granted p := by
  have invoked : (s.dequeue k).execute job = (s.dequeue k).invoke job.op job.call.code := by
    have held : ((s.dequeue k).ops job.op).attempt = none := plain
    cases call : job.call with
    | finish => simp [execute, call, Call.code]
    | resume ec => simp [execute, call, resume, held, Call.code]
  refine ⟨invoked, ?_⟩
  have fewer := s.countP_dequeue queued (fun job => job.op == p && job.call.code == .success)
  rw [invoked]
  simp only [granted, succeeded_invoke]
  change (s.dequeue k).queue.countP _ + (s.succeeded p + _) = _
  simp only [Bool.and_eq_true, beq_iff_eq] at fewer
  omega

end ComposedWait

namespace ConditionVariable

variable {γ : Type}

/-- Waits without a predicate, and everything that is not a wait. -/
def Event.plain : Event γ → Prop
  | .asyncWaitFor .. => False
  | _ => True

/-- What a notifier without memory does across one step. Successes are posted by
notifications only. A `notify_one` with nobody waiting changes nothing; otherwise it
posts the success of the wait that was initiated first among those waiting, which
alone stops waiting. A `notify_all` posts the success of each waiting wait. -/
structure Memoryless (s : ConditionVariable γ) (event : Event γ) (next : ConditionVariable γ) :
    Prop where
  silent : event ≠ .notifyOne → event ≠ .notifyAll → ∀ p, next.granted p = s.granted p
  nobody : event = .notifyOne → s.semaphore.waiters = [] → next = s
  oldest : event = .notifyOne → ∀ p, 0 < s.semaphore.linked p →
    (∀ q, 0 < s.semaphore.linked q → p ≤ q) → ∀ q,
      next.granted q = s.granted q + (if p = q then 1 else 0) ∧
      next.semaphore.linked q + (if p = q then 1 else 0) = s.semaphore.linked q
  everybody : event = .notifyAll → ∀ p,
    next.granted p = s.granted p + s.semaphore.linked p ∧ next.semaphore.linked p = 0

/-- A step that is no notification has no memory when it grants nothing. -/
theorem Memoryless.of_silent {s next : ConditionVariable γ} {event : Event γ}
    (notOne : event ≠ .notifyOne) (notAll : event ≠ .notifyAll)
    (silent : ∀ p, next.granted p = s.granted p) : Memoryless s event next where
  silent _ _ := silent
  nobody one := absurd one notOne
  oldest one := absurd one notOne
  everybody all := absurd all notAll

/-- A variable without a stored token, whose waits have no predicates and wait in
the order they were initiated. -/
structure Tokenless (s : ConditionVariable γ) : Prop where
  sound : s.Sound
  plain : s.Uses (· = none)
  empty : s.semaphore.count = 0
  ordered : (s.semaphore.waiters.map (·.handler.id)).Pairwise (· < ·)

/-- A `notify_one` that is called while somebody waits. -/
def Awaited (s : ConditionVariable γ) (event : Event γ) (_next : ConditionVariable γ) : Prop :=
  event = .notifyOne → s.semaphore.waiters ≠ []

theorem create_tokenless (exec : Executor) (order : Nat → PostOrder) (state : γ) :
    (create exec state order).Tokenless where
  sound := create_sound exec order state
  plain := by simp [create, ComposedWait.create, ComposedWait.Uses]
  empty := rfl
  ordered := List.Pairwise.nil

namespace Tokenless

variable {s : ConditionVariable γ}

/-- With no token stored, an acquire of the newest wait puts it last in line. -/
theorem acquire_line (tokenless : s.Tokenless) (executor : Option Executor) (connected : Bool) :
    ∃ op : WaitOp, op.handler.id = s.started ∧
      (s.asyncWait executor connected).semaphore.waiters = s.semaphore.waiters ++ [op] ∧
      (s.asyncWait executor connected).semaphore.count = 0 ∧
      (s.asyncWait executor connected).queue = s.queue := by
  let handler : Handler := ⟨s.started, executor, if connected then some s.started else none⟩
  have zero := tokenless.empty
  have self : ((s.register executor connected none).ops s.started).self = handler := by
    simp [ComposedWait.register, handler]
  have acquired : s.asyncWait executor connected =
      (s.register executor connected none).enqueue (s.semaphore.asyncAcquire handler) := by
    change (s.register executor connected none).enqueue _ = _
    rw [self]
    rfl
  refine ⟨⟨handler.associatedExecutor s.semaphore.exec, handler⟩, rfl, ?_⟩
  rw [acquired]
  simp [ComposedWait.enqueue, ComposedWait.register, Semaphore.asyncAcquire, zero]

/-- A wait joins the line, in order, and grants nobody anything. -/
theorem asyncWait (tokenless : s.Tokenless) {next : ConditionVariable γ}
    {executor : Option Executor} {connected : Bool}
    (stepped : machine.step s (.asyncWait executor connected) = some next) :
    next.semaphore.count = 0 ∧ (next.semaphore.waiters.map (·.handler.id)).Pairwise (· < ·) ∧
      ∀ p, next.granted p = s.granted p := by
  obtain rfl := Option.some.inj stepped
  obtain ⟨op, own, line, empty, queue⟩ := tokenless.acquire_line executor connected
  refine ⟨empty, ?_, fun p => ?_⟩
  · rw [line, List.map_append, List.pairwise_append]
    refine ⟨tokenless.ordered, by simp, ?_⟩
    intro id member newest isNewest
    obtain ⟨waiter, inside, rfl⟩ := List.mem_map.mp member
    obtain rfl : newest = op.handler.id := by simpa using isNewest
    rw [own]
    exact tokenless.sound.consistent.linked_bound
      (List.countP_pos_iff.mpr ⟨waiter, inside, by simp⟩)
  · simp only [ComposedWait.granted, queue]
    rfl

/-- Ending waits keeps the others in order. -/
theorem remaining_ordered (tokenless : s.Tokenless) {ec : ErrorCode} {next : Semaphore}
    {posted : List Posted} (completes : s.semaphore.Completes ec next posted) :
    (next.waiters.map (·.handler.id)).Pairwise (· < ·) :=
  tokenless.ordered.sublist (completes.remaining.map _)

/-- The wait at the front of the line is the one that was initiated first. -/
theorem front_oldest (tokenless : s.Tokenless) {op : WaitOp} {rest : List WaitOp}
    (line : s.semaphore.waiters = op :: rest) {p : Nat} (waiting : 0 < s.semaphore.linked p)
    (first : ∀ q, 0 < s.semaphore.linked q → p ≤ q) : op.handler.id = p := by
  have front : 0 < s.semaphore.linked op.handler.id :=
    List.countP_pos_iff.mpr ⟨op, by simp [line], by simp⟩
  obtain ⟨waiter, member, same⟩ := List.countP_pos_iff.mp waiting
  obtain rfl : waiter.handler.id = p := by simpa using same
  have ordered := tokenless.ordered
  rw [line, List.map_cons, List.pairwise_cons] at ordered
  rw [line] at member
  rcases List.mem_cons.mp member with rfl | later
  · rfl
  · have after := ordered.1 _ (List.mem_map_of_mem later)
    exact Nat.le_antisymm (Nat.le_of_lt after) (first _ front)

/-- `notify_one` with somebody waiting serves the oldest wait and stores nothing. -/
theorem notifyOne (tokenless : s.Tokenless) (waiting : s.semaphore.waiters ≠ []) :
    s.notifyOne.semaphore.count = 0 ∧ ∀ p, 0 < s.semaphore.linked p →
      (∀ q, 0 < s.semaphore.linked q → p ≤ q) → ∀ q,
        s.notifyOne.granted q = s.granted q + (if p = q then 1 else 0) ∧
        s.notifyOne.semaphore.linked q + (if p = q then 1 else 0) = s.semaphore.linked q := by
  obtain ⟨queue, represents⟩ := tokenless.sound.consistent.represents
  have completes := s.semaphore.release_completes
  cases line : s.semaphore.waiters with
  | nil => exact absurd line waiting
  | cons op rest =>
    have served := Semaphore.release_waiting represents line
    have count : s.notifyOne.semaphore.count = s.semaphore.count := by
      simp [ConditionVariable.notifyOne, ComposedWait.release, ComposedWait.enqueue, served]
    refine ⟨count.trans tokenless.empty, fun p linked first q => ?_⟩
    obtain rfl := tokenless.front_oldest line linked first
    have posted : Semaphore.postedFor s.semaphore.release.2 q =
        if op.handler.id = q then 1 else 0 := by
      simp [served, Semaphore.postedFor, List.countP_singleton]
    have granted := ComposedWait.granted_enqueue completes q
    have moved := completes.census q
    rw [if_pos rfl, posted] at granted
    rw [posted] at moved
    exact ⟨granted, moved⟩

/-- `notify_all` serves every wait and stores nothing. -/
theorem notifyAll (s : ConditionVariable γ) (p : Nat) :
    s.notifyAll.granted p = s.granted p + s.semaphore.linked p ∧
      s.notifyAll.semaphore.linked p = 0 := by
  have completes := s.semaphore.drained_completes .success
  have granted := ComposedWait.granted_enqueue completes p
  have moved := completes.census p
  have vacant : s.notifyAll.semaphore.linked p = 0 := by
    change (Semaphore.drained .success s.semaphore).2.1.waiters.countP _ = 0
    rw [(Semaphore.drained_exact .success s.semaphore).waiters]
    rfl
  change (Semaphore.drained .success s.semaphore).2.1.linked p = 0 at vacant
  rw [if_pos rfl] at granted
  refine ⟨granted.trans ?_, vacant⟩
  omega

/-- A cancellation grants nothing. -/
theorem cancel (tokenless : s.Tokenless) {next : ConditionVariable γ} {p : Nat}
    {type : CancellationType} (stepped : machine.step s (.cancel p type) = some next) :
    next.semaphore.count = 0 ∧ (next.semaphore.waiters.map (·.handler.id)).Pairwise (· < ·) ∧
      ∀ q, next.granted q = s.granted q := by
  obtain ⟨initiated, rfl⟩ := ComposedWait.step_cancel.mp stepped
  have plain : (s.ops p).attempt = none := tokenless.plain p initiated
  obtain ⟨queue, represents⟩ := tokenless.sound.consistent.represents
  have completes := Semaphore.emit_completes represents.slots p type
  have emitted : ComposedWait.cancel s p type = s.enqueue (s.semaphore.emit p type) := by
    simp [ComposedWait.cancel, plain]
  rw [emitted]
  refine ⟨?_, tokenless.remaining_ordered completes, fun q => ?_⟩
  · have count : (s.semaphore.emit p type).1.count = s.semaphore.count := by
      rcases Semaphore.emit_cases represents.slots p type with same | ⟨op, -, -, same⟩ <;>
        simp [same]
    exact count.trans tokenless.empty
  · have granted := ComposedWait.granted_enqueue completes q
    rwa [if_neg (by decide), Nat.add_zero] at granted

/-- Running a function tells a wait what was posted for it. -/
theorem run (tokenless : s.Tokenless) {next : ConditionVariable γ} {k : Nat}
    (stepped : machine.step s (.run k) = some next) :
    next.semaphore = s.semaphore ∧ ∀ p, next.granted p = s.granted p := by
  obtain ⟨job, queued, rfl⟩ := Option.map_eq_some_iff.mp stepped
  have inHand := tokenless.sound.consistent.dequeue queued
  have plain : (s.ops job.op).attempt = none := tokenless.plain job.op inHand.held_bound.1
  have invoked := (ComposedWait.granted_execute queued plain 0).1
  refine ⟨?_, fun p => (ComposedWait.granted_execute queued plain p).2⟩
  rw [invoked]
  rfl

/-- A step that is no `notify_one`, or one with somebody waiting, stores no token
and leaves the waits in the order they were initiated. -/
theorem step (tokenless : s.Tokenless) {event : Event γ} {next : ConditionVariable γ}
    (plain : event.plain) (stepped : machine.step s event = some next)
    (awaited : Awaited s event next) : next.Tokenless := by
  have sound := step_sound s event next tokenless.sound stepped
  obtain ⟨queue, represents⟩ := tokenless.sound.consistent.represents
  have moved : ComposedWait.machine.step s event.move = some next := s.step_move event ▸ stepped
  have uses : next.Uses (· = none) := by
    refine ComposedWait.step_uses tokenless.plain ?_ moved
    intro executor connected attempt initiated
    cases event <;> simp_all [Event.move, Event.plain]
  cases event with
  | asyncWait executor connected =>
    obtain ⟨empty, ordered, -⟩ := tokenless.asyncWait stepped
    exact ⟨sound, uses, empty, ordered⟩
  | asyncWaitFor predicate executor connected => exact plain.elim
  | notifyOne =>
    obtain rfl := Option.some.inj stepped
    exact ⟨sound, uses, (tokenless.notifyOne (awaited rfl)).1,
      tokenless.remaining_ordered (Semaphore.release_completes _)⟩
  | notifyAll =>
    obtain rfl := Option.some.inj stepped
    exact ⟨sound, uses, (Semaphore.drained_exact .success s.semaphore).count.trans tokenless.empty,
      tokenless.remaining_ordered (s.semaphore.drained_completes .success)⟩
  | cancel p type =>
    obtain ⟨empty, ordered, -⟩ := tokenless.cancel stepped
    exact ⟨sound, uses, empty, ordered⟩
  | run k =>
    have same := (tokenless.run stepped).1
    exact ⟨sound, uses, by rw [same]; exact tokenless.empty, by rw [same]; exact tokenless.ordered⟩
  | write state =>
    obtain rfl := Option.some.inj stepped
    exact ⟨sound, uses, tokenless.empty, tokenless.ordered⟩

/-- A step has no memory exactly when it is no `notify_one` with nobody waiting: such
a call leaves a token behind. -/
theorem memoryless_iff (tokenless : s.Tokenless) {event : Event γ} {next : ConditionVariable γ}
    (plain : event.plain) (stepped : machine.step s event = some next) :
    Memoryless s event next ↔ Awaited s event next := by
  constructor
  · rintro memoryless rfl vacant
    obtain rfl := Option.some.inj stepped
    have same := memoryless.nobody rfl vacant
    have stored : s.notifyOne.semaphore.count = s.semaphore.count + 1 := by
      simp [ConditionVariable.notifyOne, ComposedWait.release, ComposedWait.enqueue,
        Semaphore.release, Semaphore.increment, vacant]
    rw [same] at stored
    omega
  · intro awaited
    cases event with
    | asyncWait executor connected =>
      exact .of_silent (by simp) (by simp) (tokenless.asyncWait stepped).2.2
    | asyncWaitFor predicate executor connected => exact plain.elim
    | notifyOne =>
      obtain rfl := Option.some.inj stepped
      exact ⟨fun other => absurd rfl other, fun _ vacant => absurd vacant (awaited rfl),
        fun _ => (tokenless.notifyOne (awaited rfl)).2, by simp⟩
    | notifyAll =>
      obtain rfl := Option.some.inj stepped
      exact ⟨fun _ other => absurd rfl other, by simp, by simp, fun _ => notifyAll s⟩
    | cancel p type =>
      exact .of_silent (by simp) (by simp) (tokenless.cancel stepped).2.2
    | run k => exact .of_silent (by simp) (by simp) (tokenless.run stepped).2
    | write state =>
      obtain rfl := Option.some.inj stepped
      exact .of_silent (by simp) (by simp) (fun _ => rfl)

end Tokenless

/-- Where a granted wait got its success: from a notification that was called after
the wait was initiated and while it was waiting. -/
def Notified (start : ConditionVariable γ) (events : List (Event γ)) (p : Nat) : Prop :=
  ∃ before event after middle, events = before ++ event :: after ∧
    machine.run start before = some middle ∧ (event = .notifyOne ∨ event = .notifyAll) ∧
    p < middle.started ∧ 0 < middle.semaphore.linked p

/-- Along a run without memory every grant has such a notification behind it. The
grant grew in some step, and only a notification of the wait itself makes it grow. -/
theorem notified_of_memoryless {start last : ConditionVariable γ} {events : List (Event γ)}
    (sound : start.Sound) (fresh : ∀ p, start.granted p = 0)
    (memoryless : machine.Along Memoryless start events)
    (ran : machine.run start events = some last) {p : Nat} (granted : 0 < last.granted p) :
    Notified start events p := by
  obtain ⟨before, event, after, middle, next, split, reached, stepped, rises⟩ :=
    machine.exists_rise (fun s : ConditionVariable γ => s.granted p) ran
      (by simpa only [fresh] using granted)
  subst split
  have related := memoryless.at_split reached stepped
  have soundMiddle := machine.run_invariant step_sound sound reached
  have notifies : event = .notifyOne ∨ event = .notifyAll := by
    by_contra other
    obtain ⟨notOne, notAll⟩ := not_or.mp other
    have same := related.silent notOne notAll p
    omega
  have linked : 0 < middle.semaphore.linked p := by
    rcases notifies with rfl | rfl
    · obtain rfl := Option.some.inj stepped
      by_cases vacant : middle.semaphore.waiters = []
      · have same := related.nobody rfl vacant
        rw [same] at rises
        exact absurd rises (Nat.lt_irrefl _)
      · have completes := middle.semaphore.release_completes
        have grown := ComposedWait.granted_enqueue completes p
        have moved := completes.census p
        rw [if_pos rfl] at grown
        change middle.release.granted p = _ at grown
        change middle.granted p < middle.release.granted p at rises
        omega
    · have served := (related.everybody rfl p).1
      omega
  exact ⟨before, event, after, middle, rfl, reached, notifies,
    soundMiddle.consistent.linked_bound linked, linked⟩

/-- A run without predicates notifies without memory, and so completes a wait with
success only for a notification it was waiting for, exactly when each of its calls
of `notify_one` finds somebody waiting. -/
theorem notifications_not_stored_iff (exec : Executor) (order : Nat → PostOrder) (state : γ)
    (events : List (Event γ)) (last : ConditionVariable γ) (plain : ∀ event ∈ events, event.plain)
    (ran : machine.run (create exec state order) events = some last) :
    (machine.Along Memoryless (create exec state order) events ∧
      ∀ p, (p, .success) ∈ last.invoked → Notified (create exec state order) events p) ↔
    machine.Along Awaited (create exec state order) events := by
  have agree (s : ConditionVariable γ) (event : Event γ) (next : ConditionVariable γ)
      (isPlain : event.plain) (tokenless : s.Tokenless)
      (stepped : machine.step s event = some next) :
      Memoryless s event next ↔ Awaited s event next :=
    tokenless.memoryless_iff isPlain stepped
  have keeps (s : ConditionVariable γ) (event : Event γ) (next : ConditionVariable γ)
      (isPlain : event.plain) (tokenless : s.Tokenless)
      (stepped : machine.step s event = some next) (awaited : Awaited s event next) :
      next.Tokenless :=
    tokenless.step isPlain stepped awaited
  have same : machine.Along Memoryless (create exec state order) events ↔
      machine.Along Awaited (create exec state order) events :=
    machine.along_iff agree keeps events plain (create_tokenless exec order state)
  rw [← same, and_iff_left_iff_imp]
  intro memoryless p invoked
  refine notified_of_memoryless (create_sound exec order state) (fun _ => rfl) memoryless ran ?_
  have succeeded : 0 < last.succeeded p := List.count_pos_iff.mpr invoked
  simp only [ComposedWait.granted]
  omega

/-- Two waits, a notification of the older and one of everybody left. -/
def notified : List (Event Unit) :=
  [.asyncWait none true, .asyncWait none false, .notifyOne, .run 0, .notifyAll, .run 0]

theorem notifications_not_stored_iff_notified :
    ∃ last, machine.run (create 0 () leftToRight) notified = some last ∧
      last.invoked = [(0, .success), (1, .success)] ∧
      ((machine.Along Memoryless (create 0 () leftToRight) notified ∧
        ∀ p, (p, .success) ∈ last.invoked → Notified (create 0 () leftToRight) notified p) ↔
      machine.Along Awaited (create 0 () leftToRight) notified) := by
  refine ⟨_, rfl, rfl, ?_⟩
  exact notifications_not_stored_iff 0 leftToRight () notified _ (by simp [notified, Event.plain]) rfl

/-- A notification with nobody waiting, and a wait after it. -/
def storedNotification : List (Event Unit) := [.notifyOne, .asyncWait none true, .run 0]

/-- The wait spends the token that the notification left behind, and completes with
success although nobody notified it while it waited. -/
theorem notify_one_is_stored :
    ∃ last, machine.run (create 0 () leftToRight) storedNotification = some last ∧
      (0, .success) ∈ last.invoked ∧ ¬Notified (create 0 () leftToRight) storedNotification 0 ∧
      ¬machine.Along Memoryless (create 0 () leftToRight) storedNotification := by
  refine ⟨_, rfl, by decide, ?_, fun along => ?_⟩
  · rintro ⟨before, event, after, middle, split, reached, notifies, initiated, -⟩
    rcases before with _ | ⟨first, _ | ⟨second, _ | ⟨third, rest⟩⟩⟩
    · obtain rfl := Option.some.inj reached
      exact absurd initiated (by decide)
    · obtain ⟨-, rfl, -⟩ : _ ∧ event = .asyncWait none true ∧ _ := by
        simpa [storedNotification, eq_comm] using split
      simp at notifies
    · obtain ⟨-, -, rfl, -⟩ : _ ∧ _ ∧ event = .run 0 ∧ _ := by
        simpa [storedNotification, eq_comm] using split
      simp at notifies
    · simp [storedNotification] at split
  · have changed := congrArg (fun s => s.semaphore.count) ((along _ rfl).1.nobody rfl rfl)
    exact absurd changed (by decide)

end ConditionVariable

end Asioex
