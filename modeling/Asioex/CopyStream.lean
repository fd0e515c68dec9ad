import Asioex.Copy

/-!
# The stream that a copy passes on

What a copy should do is a function of the results and the cancellations in the order
in which they arrive: it passes on the values of the source until the first result that
is an error or that finds a cancellation recorded, and completes with what that result
says. The three call operators do this one result at a time, each with its own test of
the cancellation state. The filter of the composed operation leaves the terminal bit,
so that the two tests agree.
-/

namespace Asioex.CopyOp

variable {V : Type}

/-- The value that an event brings from the source. -/
def Event.value : Event V → Option V
  | .source ec args => if ec.isSet then none else some args
  | _ => none

/-- The values of the source operations that completed without error. -/
def sourced (events : List (Event V)) : List V := events.filterMap Event.value

/-- Whether an event is a cancellation that passes the filter. -/
def Event.terminates : Event V → Bool
  | .cancel type => (type &&& .terminal) != CancellationType.none
  | _ => false

/-- Whether a terminal cancellation has been recorded. -/
def recorded (events : List (Event V)) : Bool := events.any Event.terminates

/-- The code with which a result ends the copy, if it does: its own error, or the
cancellation that it observes. -/
def Event.stops (recorded : Bool) : Event V → Option ErrorCode
  | .source ec _ | .sink ec =>
    if ec.isSet then some ec else if recorded then some .operationAborted else none
  | .cancel _ => none

/-- The first of these codes. -/
def outcome : Bool → List (Event V) → Option ErrorCode
  | _, [] => none
  | recorded, event :: rest =>
    (event.stops recorded).or (outcome (recorded || event.terminates) rest)

/-- A later event decides only if no earlier one did. -/
theorem outcome_append (seen : Bool) (events : List (Event V)) (event : Event V) :
    outcome seen (events ++ [event]) =
      (outcome seen events).or (event.stops (seen || recorded events)) := by
  induction events generalizing seen with
  | nil => simp [outcome, recorded]
  | cons first rest inductionHypothesis =>
    simp only [List.cons_append, outcome, inductionHypothesis, recorded, List.any_cons,
      Option.or_assoc, Bool.or_assoc]

theorem sourced_append (events : List (Event V)) (event : Event V) :
    sourced (events ++ [event]) = sourced events ++ event.value.toList := by
  cases brought : event.value <;> simp [sourced, brought]

theorem recorded_append (events : List (Event V)) (event : Event V) :
    recorded (events ++ [event]) = (recorded events || event.terminates) := by
  simp [recorded]

/-- While nothing has ended the copy, the newest event decides. -/
theorem outcome_going {events : List (Event V)} (going : outcome false events = none)
    (event : Event V) : outcome false (events ++ [event]) = event.stops (recorded events) := by
  rw [outcome_append, going]
  rfl

/-- A result is no cancellation. -/
theorem recorded_result {events : List (Event V)} {event : Event V}
    (result : event.terminates = false) : recorded (events ++ [event]) = recorded events := by
  rw [recorded_append, result, Bool.or_false]

/-- The filter leaves the terminal bit or nothing. -/
theorem filtered (type : CancellationType) :
    type &&& .terminal = CancellationType.none ∨ type &&& .terminal = CancellationType.terminal := by
  have bit : (type &&& CancellationType.terminal).toNat = type.toNat % 2 := by
    rw [BitVec.toNat_and]
    exact Nat.and_one_is_mod _
  rcases Nat.mod_two_eq_zero_or_one type.toNat with even | odd
  · exact .inl (BitVec.eq_of_toNat_eq (bit.trans even))
  · exact .inr (BitVec.eq_of_toNat_eq (bit.trans odd))

/-- The cancellation state, by whether a terminal cancellation has been recorded. -/
def noted (recorded : Bool) : CancellationType :=
  if recorded then CancellationType.terminal else CancellationType.none

theorem noted_cancel (seen : Bool) (type : CancellationType) :
    noted seen ||| (type &&& .terminal) = noted (seen || (Event.cancel (V := V) type).terminates) := by
  rcases filtered type with lost | left
  · simp [Event.terminates, lost]
    cases seen <;> rfl
  · simp [Event.terminates, left]
    cases seen <;> rfl

/-- What the sink was passed: the values that the source brought, except perhaps the
last one, if a terminal cancellation had been recorded when it came. -/
inductive Passes (events : List (Event V)) (passed : List V) : Prop where
  | all (same : passed = sourced events)
  | butLast (before after : List (Event V)) (last : V)
      (split : events = before ++ .source .success last :: after)
      (cancelled : recorded before = true) (same : passed = sourced before)
      (brought : sourced events = sourced before ++ [last])

/-- An event that brings no value changes nothing about it. -/
theorem Passes.extend {events : List (Event V)} {passed : List V} (passes : Passes events passed)
    {event : Event V} (brings : event.value = none) : Passes (events ++ [event]) passed := by
  have still : sourced (events ++ [event]) = sourced events := by
    rw [sourced_append, brings]
    exact List.append_nil _
  cases passes with
  | all same => exact .all (same.trans still.symm)
  | butLast before after last split cancelled same brought =>
    refine .butLast before (after ++ [event]) last ?_ cancelled same (still.trans brought)
    rw [split, List.append_assoc]
    rfl

/-- Where the copy is after these events, and what it has passed on. -/
inductive Copying (events : List (Event V)) (s : CopyOp V) : Prop where
  | sourcing (flight : s.inFlight = [.source]) (pending : s.completions = [])
      (going : outcome false events = none) (passed : s.passed = sourced events)
      (cancelled : s.cancelled = noted (recorded events))
  | sinking (flight : s.inFlight = [.sink]) (pending : s.completions = [])
      (going : outcome false events = none) (passed : s.passed = sourced events)
      (cancelled : s.cancelled = noted (recorded events))
  | ended (ec : ErrorCode) (count : BitVec 64) (flight : s.inFlight = [])
      (done : s.completions = [(ec, count)]) (stopped : outcome false events = some ec)
      (passed : Passes events s.passed)

theorem create_copying : Copying [] (create : CopyOp V) :=
  .sourcing rfl rfl rfl rfl rfl

/-- A cancellation is recorded, and does nothing else. -/
theorem Copying.cancel {events : List (Event V)} {s : CopyOp V} (copying : Copying events s)
    (type : CancellationType) :
    Copying (events ++ [.cancel type])
      { s with cancelled := s.cancelled ||| (type &&& .terminal) } := by
  have still : outcome false (events ++ [.cancel type]) = outcome false events := by
    rw [outcome_append]
    exact Option.or_none
  have same : sourced (events ++ [.cancel type]) = sourced events := by
    rw [sourced_append]
    exact List.append_nil _
  have kept (seen : s.cancelled = noted (recorded events)) :
      s.cancelled ||| (type &&& .terminal) = noted (recorded (events ++ [.cancel type])) := by
    rw [seen, recorded_append]
    exact noted_cancel _ type
  cases copying with
  | sourcing flight pending going passed cancelled =>
    exact .sourcing flight pending (still.trans going) (passed.trans same.symm) (kept cancelled)
  | sinking flight pending going passed cancelled =>
    exact .sinking flight pending (still.trans going) (passed.trans same.symm) (kept cancelled)
  | ended ec count flight done stopped passed =>
    exact .ended ec count flight done (still.trans stopped) (passed.extend rfl)

/-- A result of the source goes to the sink, or ends the copy. -/
theorem Copying.onSource {events : List (Event V)} {s : CopyOp V} (flight : s.inFlight = [])
    (pending : s.completions = []) (going : outcome false events = none)
    (passed : s.passed = sourced events) (cancelled : s.cancelled = noted (recorded events))
    (ec : ErrorCode) (args : V) :
    Copying (events ++ [.source ec args]) (s.onSource ec args) := by
  have decides := outcome_going going (.source ec args)
  by_cases failed : ec.isSet = true
  · have ends : s.onSource ec args = s.advance.complete ec := by simp [CopyOp.onSource, failed]
    rw [ends]
    refine .ended ec s.advance.completed flight ?_ ?_ ?_
    · simp [advance, complete, pending]
    · rw [decides]
      simp [Event.stops, failed]
    · exact (Passes.all passed).extend (by simp [Event.value, failed])
  · obtain rfl : ec = .success := ec.not_isSet_iff.mp failed
    cases seen : recorded events with
    | true =>
      have observed : s.advance.cancelled = CancellationType.terminal := by
        change s.cancelled = _
        rw [cancelled, seen]
        rfl
      have ends : s.onSource .success args = s.advance.complete .operationAborted := by
        simp [CopyOp.onSource, observed]
      rw [ends]
      refine .ended .operationAborted s.advance.completed flight ?_ ?_ ?_
      · simp [advance, complete, pending]
      · rw [decides, seen]
        rfl
      · exact .butLast events [] args rfl seen passed (sourced_append events _)
    | false =>
      have unobserved : s.advance.cancelled ≠ CancellationType.terminal := by
        change s.cancelled ≠ _
        rw [cancelled, seen]
        decide
      have sinks : s.onSource .success args = s.advance.sink args := by
        simp [CopyOp.onSource, unobserved]
      rw [sinks]
      refine .sinking ?_ pending ?_ ?_ ?_
      · simp [advance, CopyOp.sink, flight]
      · rw [decides, seen]
        rfl
      · rw [sourced_append, ← passed]
        rfl
      · rw [recorded_result rfl]
        exact cancelled

/-- A result of the sink asks the source again, or ends the copy. -/
theorem Copying.onSink {events : List (Event V)} {s : CopyOp V} (flight : s.inFlight = [])
    (pending : s.completions = []) (going : outcome false events = none)
    (passed : s.passed = sourced events) (cancelled : s.cancelled = noted (recorded events))
    (ec : ErrorCode) : Copying (events ++ [.sink ec]) (s.onSink ec) := by
  have decides := outcome_going going (.sink ec)
  have same : s.passed = sourced (events ++ [.sink ec]) := by
    rw [sourced_append]
    exact passed.trans (List.append_nil _).symm
  by_cases failed : ec.isSet = true
  · have ends : s.onSink ec = s.complete ec := by simp [CopyOp.onSink, failed]
    rw [ends]
    refine .ended ec s.completed flight ?_ ?_ (.all same)
    · simp [complete, pending]
    · rw [decides]
      simp [Event.stops, failed]
  · obtain rfl : ec = .success := ec.not_isSet_iff.mp failed
    cases seen : recorded events with
    | true =>
      have observed : s.cancelled ≠ CancellationType.none := by
        rw [cancelled, seen]
        decide
      have ends : s.onSink .success = s.complete .operationAborted := by
        simp [CopyOp.onSink, observed]
      rw [ends]
      refine .ended .operationAborted s.completed flight ?_ ?_ (.all same)
      · simp [complete, pending]
      · rw [decides, seen]
        rfl
    | false =>
      have quiet : s.cancelled = CancellationType.none := by
        rw [cancelled, seen]
        rfl
      have asks : s.onSink .success = s.source := by simp [CopyOp.onSink, quiet]
      rw [asks]
      refine .sourcing ?_ pending ?_ same ?_
      · simp [CopyOp.source, flight]
      · rw [decides, seen]
        rfl
      · rw [recorded_result rfl]
        exact cancelled

theorem step_copying (past : List (Event V)) (s : CopyOp V) (event : Event V) (next : CopyOp V)
    (copying : Copying past s) (stepped : machine.step s event = some next) :
    Copying (past ++ [event]) next := by
  cases event with
  | cancel type =>
    obtain rfl := Option.some.inj stepped
    exact copying.cancel type
  | source ec args =>
    simp only [machine, step, Option.ite_none_right_eq_some, Option.some.injEq] at stepped
    obtain ⟨inFlight, rfl⟩ := stepped
    cases copying with
    | sourcing flight pending going passed cancelled =>
      have answered : s.inFlight.erase .source = [] := by rw [flight]; rfl
      apply Copying.onSource
      · exact answered
      · exact pending
      · exact going
      · exact passed
      · exact cancelled
    | sinking flight => simp [flight] at inFlight
    | ended _ _ flight => simp [flight] at inFlight
  | sink ec =>
    simp only [machine, step, Option.ite_none_right_eq_some, Option.some.injEq] at stepped
    obtain ⟨inFlight, rfl⟩ := stepped
    cases copying with
    | sourcing flight => simp [flight] at inFlight
    | sinking flight pending going passed cancelled =>
      have answered : s.inFlight.erase .sink = [] := by rw [flight]; rfl
      apply Copying.onSink
      · exact answered
      · exact pending
      · exact going
      · exact passed
      · exact cancelled
    | ended _ _ flight => simp [flight] at inFlight

/-- With nothing outstanding, nothing is started, passed on or delivered any more. -/
def Stops (s : CopyOp V) (_event : Event V) (next : CopyOp V) : Prop :=
  s.inFlight = [] →
    next.inFlight = [] ∧ next.passed = s.passed ∧ next.completions = s.completions

theorem step_stops {s next : CopyOp V} {event : Event V}
    (stepped : machine.step s event = some next) : Stops s event next := by
  intro idle
  cases event with
  | cancel type =>
    obtain rfl := Option.some.inj stepped
    exact ⟨idle, rfl, rfl⟩
  | source ec args => simp [machine, step, idle] at stepped
  | sink ec => simp [machine, step, idle] at stepped

/-- A copy has one operation outstanding at most; it passes on what the source brought,
but for a last value that came after a terminal cancellation; it has completed once, with
the first error or observed cancellation, exactly when nothing is outstanding; and from
then on it starts nothing. -/
theorem copy_preserves_stream (events : List (Event V)) (s : CopyOp V)
    (ran : machine.run create events = some s) :
    s.inFlight.length ≤ 1 ∧ Passes events s.passed ∧
      s.inFlight.length + s.completions.length = 1 ∧
      s.completions.map (·.1) = (outcome false events).toList ∧
      machine.Along Stops create events := by
  have copying : Copying events s := machine.run_history step_copying create_copying ran
  have stops : machine.Along Stops (create : CopyOp V) events :=
    Machine.along_of_invariant _ (fun _ _ _ _ stepped => ⟨step_stops stepped, trivial⟩) trivial events
  cases copying with
  | sourcing flight pending going passed cancelled =>
    exact ⟨by simp [flight], .all passed, by simp [flight, pending], by simp [pending, going], stops⟩
  | sinking flight pending going passed cancelled =>
    exact ⟨by simp [flight], .all passed, by simp [flight, pending], by simp [pending, going], stops⟩
  | ended ec count flight done stopped passed =>
    exact ⟨by simp [flight], passed, by simp [flight, done], by simp [done, stopped], stops⟩

/-- Two values are copied; a third comes after a cancellation, and is not passed on. -/
def cutShort : List (Event Nat) :=
  [.source .success 1, .sink .success, .source .success 2, .sink .success, .cancel .all,
    .source .success 3, .cancel .terminal]

theorem copy_preserves_stream_cutShort :
    ∃ s, machine.run create cutShort = some s ∧ s.passed = [1, 2] ∧
      s.completions.map (·.1) = (outcome false cutShort).toList ∧
      outcome false cutShort = some .operationAborted := by
  refine ⟨_, rfl, rfl, ?_, rfl⟩
  exact (copy_preserves_stream cutShort _ rfl).2.2.2.1

end Asioex.CopyOp
