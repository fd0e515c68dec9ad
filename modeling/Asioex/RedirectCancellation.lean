import Mathlib.Data.List.Nodup
import Asioex.SemaphoreRuns

/-!
# Redirected cancellations

`redirect_cancellation` adapts a completion handler: a cancellation no longer shows as an
error code, but in a variable of the caller. Its `cancellation_state` sits between the
handler's own slot and the slot that the operation sees; it records every emission, and
forwards it, since nothing is filtered. The handler reads the record when it is invoked.

Acquires of a semaphore with redirected handlers are run here, among all the other calls,
and the posted functions run in any order. What is left of the error codes is the
destructor's. The variable does not say whether the acquire was ended by the cancellation:
a cancellation that comes after the grant was posted, and before the handler is invoked,
looks the same.

How a `cancellation_state` accumulates what it records is a parameter: the library needs
only that a cancellation that was recorded does not read as none.
-/

namespace Asioex

/-- `redirect_cancellation_handler::operator()`, with an error code: what it assigns to
`cancel_`, from `state_.cancelled()`, and the code that it passes on. -/
def redirected (cancelled : CancellationType) (ec : ErrorCode) : CancellationType × ErrorCode :=
  (cancelled, if cancelled ≠ .none then .success else ec)

/-- The invocation of a redirected handler: the posted function that ran, by its place in
the log, the acquire it belongs to, and what the caller sees. -/
structure Redirection where
  index : Nat
  ticket : Nat
  cancel : CancellationType
  ec : ErrorCode
deriving DecidableEq, Repr

/-- A run of a semaphore whose acquires have redirected handlers: those with a connected
slot, the record of each `state_`, what was emitted on each slot, and the invocations. -/
structure RedirectRun where
  run : SemaphoreRun
  connected : List Nat
  recorded : Nat → CancellationType
  emitted : Nat → List CancellationType
  invoked : List Redirection

namespace RedirectRun

/-- Calls of the semaphore's members, emissions on the handlers' own slots, and posted
functions that run. -/
inductive Event where
  | call (event : SemaphoreRun.Event)
  | emit (ticket : Nat) (type : CancellationType)
  | invoke (k : Nat)
deriving DecidableEq, Repr

def start (exec : Executor) (initialCount : Int) : RedirectRun :=
  ⟨.start exec initialCount, [], fun _ => .none, fun _ => [], []⟩

/-- The acquires that an event connects. -/
def connects (s : SemaphoreRun) : SemaphoreRun.Event → List Nat
  | .asyncAcquire _ true => [s.acquires]
  | _ => []

/-- An emission needs a connected slot and a type, and each posted function runs once. -/
def step (record : CancellationType → CancellationType → CancellationType) (s : RedirectRun) :
    Event → Option RedirectRun
  | .call (.cancel _ _) => none
  | .call event => (SemaphoreRun.machine.step s.run event).map (fun run =>
      { s with run := run, connected := s.connected ++ connects s.run event })
  | .emit ticket type =>
    if ticket ∈ s.connected ∧ type ≠ .none then
      (SemaphoreRun.machine.step s.run (.cancel ticket type)).map (fun run =>
        { s with
          run := run
          recorded := Function.update s.recorded ticket (record (s.recorded ticket) type)
          emitted := Function.update s.emitted ticket (s.emitted ticket ++ [type]) })
    else none
  | .invoke k =>
    s.run.log[k]?.bind (fun completion =>
      if k ∈ s.invoked.map (·.index) then none
      else
        let ticket := completion.posted.handler.id
        let (cancel, ec) := redirected (s.recorded ticket) completion.posted.ec
        some { s with invoked := s.invoked ++ [⟨k, ticket, cancel, ec⟩] })

def machine (record : CancellationType → CancellationType → CancellationType) :
    Machine RedirectRun Event :=
  ⟨step record⟩

variable {record : CancellationType → CancellationType → CancellationType}

/-- A call is one of the semaphore's, and no cancellation. -/
theorem step_call {s next : RedirectRun} {event : SemaphoreRun.Event}
    (stepped : (machine record).step s (.call event) = some next) :
    (∀ ticket type, event ≠ .cancel ticket type) ∧
      ∃ run, SemaphoreRun.machine.step s.run event = some run ∧
        next = { s with run := run, connected := s.connected ++ connects s.run event } := by
  cases event with
  | cancel ticket type => cases stepped
  | _ =>
    obtain ⟨run, taken, rfl⟩ := Option.map_eq_some_iff.mp stepped
    exact ⟨fun ticket type => by simp, run, taken, rfl⟩

/-- What an invocation consists of. -/
theorem step_invoke {s next : RedirectRun} {k : Nat} :
    (machine record).step s (.invoke k) = some next ↔
      ∃ completion, s.run.log[k]? = some completion ∧ k ∉ s.invoked.map (·.index) ∧
        { s with
          invoked := s.invoked ++ [⟨k, completion.posted.handler.id,
            s.recorded completion.posted.handler.id,
            (redirected (s.recorded completion.posted.handler.id) completion.posted.ec).2⟩] } =
          next := by
  simp only [machine, step, Option.bind_eq_some_iff, Option.ite_none_left_eq_some,
    Option.some.injEq]
  rfl

/-- What an invocation shows of the completion that was posted: the record of the slot, and
the posted code unless something is on record. -/
structure Shows (s : RedirectRun) (record : CancellationType → CancellationType → CancellationType)
    (seen : Redirection) : Prop where
  source : ∃ completion, s.run.log[seen.index]? = some completion ∧
    completion.posted.handler.id = seen.ticket ∧
    seen.ec = (redirected seen.cancel completion.posted.ec).2 ∧
    (completion.cause = .cancellation → seen.cancel ≠ .none)
  recorded : ∃ before, before <+: s.emitted seen.ticket ∧ seen.cancel = before.foldl record .none

/-- The records are those of the emissions, a wait that a cancellation ended has one, and
every posted function ran once at most. -/
structure Sound (record : CancellationType → CancellationType → CancellationType)
    (s : RedirectRun) : Prop where
  settled : s.run.Settled
  recorded : ∀ ticket, s.recorded ticket = (s.emitted ticket).foldl record .none
  types : ∀ ticket, ∀ type ∈ s.emitted ticket, type ≠ .none
  cancelled : ∀ completion ∈ s.run.log, completion.cause = .cancellation →
    s.emitted completion.posted.handler.id ≠ []
  once : (s.invoked.map (·.index)).Nodup
  shows : ∀ seen ∈ s.invoked, s.Shows record seen

theorem start_sound (exec : Executor) (initialCount : Int) (valid : 0 ≤ initialCount) :
    (start exec initialCount).Sound record where
  settled := SemaphoreRun.start_settled exec initialCount valid
  recorded _ := rfl
  types := by simp [start]
  cancelled := by simp [start, SemaphoreRun.start]
  once := List.nodup_nil
  shows := by simp [start]

/-- What is on record after emissions does not read as none. -/
theorem recorded_ne_none (recording : ∀ before type, type ≠ .none → record before type ≠ .none)
    {types : List CancellationType} (some : types ≠ [])
    (proper : ∀ type ∈ types, type ≠ CancellationType.none) :
    types.foldl record .none ≠ .none := by
  obtain ⟨before, type, rfl⟩ := (List.eq_nil_or_concat types).resolve_left some
  rw [List.concat_eq_append, List.foldl_append]
  exact recording _ _ (proper type (by simp))

/-- What was shown stays as it was: the log and the emissions grow at their ends. -/
theorem Shows.later {s next : RedirectRun} {seen : Redirection} (shows : s.Shows record seen)
    (log : s.run.log <+: next.run.log) (emitted : s.emitted seen.ticket <+: next.emitted seen.ticket) :
    next.Shows record seen := by
  obtain ⟨⟨completion, found, shown⟩, before, earlier, same⟩ := shows
  obtain ⟨more, grown⟩ := log
  refine ⟨⟨completion, ?_, shown⟩, before, earlier.trans emitted, same⟩
  obtain ⟨inside, here⟩ := List.getElem?_eq_some_iff.mp found
  rw [← grown, List.getElem?_append_left inside]
  exact found

/-- A call of the semaphore posts for its own reasons, at the end of the log. -/
theorem call_log (s : SemaphoreRun) (event : SemaphoreRun.Event) :
    ∃ cause posted, (s.call event).log = s.log ++ posted.map (fun item => ⟨cause, item⟩) ∧
      (cause = .cancellation → ∃ ticket type, event = .cancel ticket type ∧
        posted = (s.semaphore.emit ticket type).2) := by
  cases event with
  | asyncAcquire executor connected => exact ⟨.count, _, rfl, by simp⟩
  | tryAcquire => exact ⟨.release, [], (List.append_nil _).symm, by simp⟩
  | release => exact ⟨.release, _, rfl, by simp⟩
  | releaseAll => exact ⟨.releaseAll, _, rfl, by simp⟩
  | cancel ticket type => exact ⟨.cancellation, _, rfl, fun _ => ⟨ticket, type, rfl, rfl⟩⟩
  | destroy => exact ⟨.destructor, _, rfl, by simp⟩

/-- An emission ends the wait of the acquire on whose slot it is emitted, or none. -/
theorem emit_own {s : SemaphoreRun} (settled : s.Settled) (ticket : Nat)
    (type : CancellationType) : ∀ item ∈ (s.semaphore.emit ticket type).2,
      item.handler.id = ticket := by
  obtain ⟨queue, represents⟩ := settled.represents
  intro item member
  rcases Semaphore.emit_cases represents.slots ticket type with lost | ⟨op, waits, own, aborted⟩
  · rw [lost] at member
    cases member
  · rw [aborted, List.mem_singleton] at member
    subst member
    exact (settled.slots op waits ticket own).symm

/-- Every step keeps the records and the invocations sound. -/
theorem step_sound (recording : ∀ before type, type ≠ .none → record before type ≠ .none)
    (s : RedirectRun) (event : Event) (next : RedirectRun) (sound : s.Sound record)
    (stepped : (machine record).step s event = some next) : next.Sound record := by
  cases event with
  | call event =>
    obtain ⟨other, run, taken, rfl⟩ := step_call stepped
    have settled := SemaphoreRun.step_settled s.run event run sound.settled taken
    obtain ⟨-, rfl⟩ := SemaphoreRun.step_eq.mp taken
    obtain ⟨cause, posted, log, reason⟩ := call_log s.run event
    refine ⟨settled, sound.recorded, sound.types, fun completion member caused => ?_, sound.once,
      fun seen member => (sound.shows seen member).later ⟨_, log.symm⟩ (List.prefix_refl _)⟩
    rw [log] at member
    rcases List.mem_append.mp member with old | new
    · exact sound.cancelled completion old caused
    · obtain ⟨item, -, rfl⟩ := List.mem_map.mp new
      obtain ⟨ticket, type, same, -⟩ := reason caused
      exact absurd same (other ticket type)
  | emit ticket type =>
    obtain ⟨⟨-, proper⟩, moved⟩ := Option.ite_none_right_eq_some.mp stepped
    obtain ⟨run, taken, rfl⟩ := Option.map_eq_some_iff.mp moved
    have settled := SemaphoreRun.step_settled s.run _ run sound.settled taken
    obtain ⟨-, rfl⟩ := SemaphoreRun.step_eq.mp taken
    obtain ⟨cause, posted, log, -⟩ := call_log s.run (.cancel ticket type)
    have grown (other : Nat) : s.emitted other <+:
        Function.update s.emitted ticket (s.emitted ticket ++ [type]) other := by
      by_cases mine : other = ticket
      · subst mine
        simp
      · simp [Function.update_of_ne mine]
    refine ⟨settled, fun other => ?_, fun other given member => ?_, fun completion member caused => ?_,
      sound.once, fun seen member => (sound.shows seen member).later ⟨_, log.symm⟩ (grown _)⟩
    · by_cases mine : other = ticket
      · subst mine
        simp [sound.recorded, List.foldl_append]
      · simp [Function.update_of_ne mine, sound.recorded]
    · by_cases mine : other = ticket
      · subst mine
        simp only [Function.update_self, List.mem_append, List.mem_singleton] at member
        rcases member with old | rfl
        · exact sound.types other given old
        · exact proper
      · simp only [Function.update_of_ne mine] at member
        exact sound.types other given member
    · rcases List.mem_append.mp member with old | new
      · have before := sound.cancelled completion old caused
        exact fun vacant => before (List.prefix_nil.mp (vacant ▸ grown _))
      · obtain ⟨item, inside, rfl⟩ := List.mem_map.mp new
        have own := emit_own sound.settled ticket type item inside
        simp [own]
  | invoke k =>
    obtain ⟨completion, found, fresh, rfl⟩ := step_invoke.mp stepped
    refine ⟨sound.settled, sound.recorded, sound.types, sound.cancelled, ?_, fun seen member => ?_⟩
    · rw [List.map_append]
      refine List.nodup_append.mpr ⟨sound.once, by simp, fun index old last new => ?_⟩
      obtain rfl : last = k := by simpa using new
      rintro rfl
      exact fresh old
    · rcases List.mem_append.mp member with old | new
      · exact (sound.shows seen old).later (List.prefix_refl _) (List.prefix_refl _)
      · obtain rfl := List.mem_singleton.mp new
        refine ⟨⟨completion, found, rfl, rfl, fun caused => ?_⟩, _, List.prefix_refl _,
          sound.recorded _⟩
        have emitted := sound.cancelled completion (List.mem_of_getElem? found) caused
        change s.recorded completion.posted.handler.id ≠ .none
        rw [sound.recorded]
        exact recorded_ne_none recording emitted (sound.types _)

/-- Posted completions of different places belong to different acquires. -/
theorem Sound.tickets {s : RedirectRun} (sound : s.Sound record) :
    (s.run.log.map (·.posted.handler.id)).Nodup := by
  refine List.nodup_iff_count_le_one.mpr fun ticket => ?_
  have placed := sound.settled.census ticket
  have counted : (s.run.log.map (·.posted.handler.id)).count ticket =
      (s.run.completions ticket).length := by
    rw [SemaphoreRun.completions, ← List.countP_eq_length_filter, List.count_eq_countP,
      List.countP_map]
    rfl
  split at placed <;> omega

/-- What callers see of redirected acquires, in every run: each handler is invoked once at
most; an error reaches it from the destructor only, and with nothing emitted on its slot;
success with nothing in the variable is a grant; and a wait that a cancellation ended shows
as success with what was recorded of the emissions so far. -/
theorem redirected_outcomes (recording : ∀ before type, type ≠ .none → record before type ≠ .none)
    (exec : Executor) (initialCount : Int) (valid : 0 ≤ initialCount) (events : List Event)
    (s : RedirectRun) (ran : (machine record).run (start exec initialCount) events = some s) :
    (s.invoked.map (·.ticket)).Nodup ∧
    ∀ seen ∈ s.invoked, ∃ completion ∈ s.run.log, completion.posted.handler.id = seen.ticket ∧
      (seen.ec ≠ .success → completion.cause = .destructor ∧ seen.cancel = .none) ∧
      (seen.ec = .success → seen.cancel = .none → completion.posted.ec = .success) ∧
      (completion.cause = .cancellation → seen.ec = .success ∧ seen.cancel ≠ .none) ∧
      ∃ before, before <+: s.emitted seen.ticket ∧ seen.cancel = before.foldl record .none := by
  have sound : s.Sound record :=
    (machine record).run_invariant (step_sound recording) (start_sound exec initialCount valid) ran
  refine ⟨?_, fun seen member => ?_⟩
  · refine sound.once.of_map.map_on fun first inside second inside' same => ?_
    obtain ⟨⟨completion, found, own, -⟩, -⟩ := sound.shows first inside
    obtain ⟨⟨other, found', own', -⟩, -⟩ := sound.shows second inside'
    obtain ⟨bound, -⟩ := List.getElem?_eq_some_iff.mp found
    refine List.inj_on_of_nodup_map sound.once inside inside' ?_
    refine (List.getElem?_inj (by simpa using bound) sound.tickets).mp ?_
    simp only [List.getElem?_map, found, found', Option.map_some, own, own', same]
  · obtain ⟨⟨completion, found, own, code, ended⟩, record⟩ := sound.shows seen member
    have logged := List.mem_of_getElem? found
    have posted := sound.settled.codes completion logged
    refine ⟨completion, logged, own, fun failed => ?_, fun succeeded unrecorded => ?_,
      fun caused => ?_, record⟩
    · have unrecorded : seen.cancel = .none := by
        by_contra recorded
        exact failed (by simpa [redirected, recorded] using code)
      have passed : seen.ec = completion.posted.ec := by simpa [redirected, unrecorded] using code
      rw [passed, posted] at failed
      refine ⟨?_, unrecorded⟩
      cases cause : completion.cause with
      | destructor => rfl
      | cancellation => exact absurd unrecorded (ended cause)
      | count | release | releaseAll => simp [cause, Cause.code] at failed
    · have passed : seen.ec = completion.posted.ec := by simpa [redirected, unrecorded] using code
      rw [← passed, succeeded]
    · have recorded := ended caused
      exact ⟨by simpa [redirected, recorded] using code, recorded⟩

/-- Two acquires wait. One is cancelled and one is granted, and after the grant a cancellation
is emitted for it too; a third acquire is still waiting when the semaphore is destroyed. -/
def mixed : List Event :=
  [.call (.asyncAcquire none true), .call (.asyncAcquire none true),
    .call (.asyncAcquire none true), .emit 0 CancellationType.partially, .invoke 0,
    .call .release, .emit 1 CancellationType.terminal, .invoke 1, .call .destroy, .invoke 2]

theorem redirected_outcomes_mixed :
    ∃ s, (machine (fun _ type => type)).run (start 0 0) mixed = some s ∧
      s.invoked = [⟨0, 0, .partially, .success⟩, ⟨1, 1, .terminal, .success⟩,
        ⟨2, 2, .none, .operationAborted⟩] ∧
      (s.invoked.map (·.ticket)).Nodup := by
  refine ⟨_, rfl, rfl, ?_⟩
  exact (redirected_outcomes (fun _ _ proper => proper) 0 0 (by decide) mixed _ rfl).1

/-- A cancellation that is emitted after a completion was posted, and before the handler is
invoked, hides what was posted: a grant shows like a wait that was ended, and yet the
semaphore stays as the grant left it. -/
theorem late_cancellation_hides
    (recording : ∀ before type, type ≠ .none → record before type ≠ .none)
    (exec : Executor) (initialCount : Int) (valid : 0 ≤ initialCount) (events : List Event)
    (s : RedirectRun) (ran : (machine record).run (start exec initialCount) events = some s)
    (k : Nat) (completion : Completion) (posted : s.run.log[k]? = some completion)
    (pending : k ∉ s.invoked.map (·.index))
    (connected : completion.posted.handler.id ∈ s.connected)
    (type : CancellationType) (proper : type ≠ .none) :
    ∃ next last cancel, (machine record).step s (.emit completion.posted.handler.id type) =
        some next ∧
      (machine record).step next (.invoke k) = some last ∧ last.run = s.run ∧ cancel ≠ .none ∧
      last.invoked = s.invoked ++ [⟨k, completion.posted.handler.id, cancel, .success⟩] := by
  have sound : s.Sound record :=
    (machine record).run_invariant (step_sound recording) (start_sound exec initialCount valid) ran
  generalize own : completion.posted.handler.id = ticket at connected
  have logged : completion ∈ s.run.completions ticket :=
    List.mem_filter.mpr ⟨List.mem_of_getElem? posted, by simp [own]⟩
  have issued : ticket < s.run.acquires := by
    have placed := sound.settled.census ticket
    have positive := List.length_pos_of_mem logged
    split at placed <;> omega
  have unheard := SemaphoreRun.cancel_after_posted sound.settled ticket type issued
    (List.ne_nil_of_mem logged)
  have emitted : (machine record).step s (.emit ticket type) = some { s with
      recorded := Function.update s.recorded ticket (record (s.recorded ticket) type)
      emitted := Function.update s.emitted ticket (s.emitted ticket ++ [type]) } := by
    simp [machine, step, connected, proper, unheard]
  have shown : record (s.recorded ticket) type ≠ .none := recording _ type proper
  refine ⟨_, _, record (s.recorded ticket) type, emitted,
    step_invoke.mpr ⟨completion, posted, pending, rfl⟩, rfl, shown, ?_⟩
  simp [own, redirected, shown]

theorem late_cancellation_hides_granted :
    ∃ s next last cancel,
      (machine (fun _ type => type)).run (start 0 0) (mixed.take 6) = some s ∧
      (machine (fun _ type => type)).step s (.emit 1 .terminal) = some next ∧
      (machine (fun _ type => type)).step next (.invoke 1) = some last ∧ last.run = s.run ∧
      cancel ≠ CancellationType.none ∧ last.invoked = s.invoked ++ [⟨1, 1, cancel, .success⟩] := by
  obtain ⟨s, ran⟩ : ∃ s, (machine (fun _ type => type)).run (start 0 0) (mixed.take 6) = some s :=
    ⟨_, rfl⟩
  have reached := Option.some.inj ran
  obtain ⟨next, last, cancel, shown⟩ :=
    late_cancellation_hides (fun _ _ proper => proper) 0 0 (by decide) (mixed.take 6) s ran 1
      ⟨.release, ⟨0, ⟨1, none, some 1⟩, .success⟩⟩ (by rw [← reached]; rfl)
      (by rw [← reached]; decide) (by rw [← reached]; decide) .terminal (by decide)
  exact ⟨s, next, last, cancel, ran, shown⟩

end RedirectRun

end Asioex
