import Asioex.Asio
import Asioex.Lib.Machine

/-!
# The copy operation

`async_copy_op` alternates between a source and a sink. Its three call operators are
one definition each. The operations it starts are in flight until their result
arrives; nothing is assumed about the order of results, or about their number. A
cancellation of the composed operation passes its filter and is recorded in its
cancellation state, at any point; what it does to the operation in flight shows only
in the result that then arrives.

The counter wraps below zero before the first item and is advanced when a source
operation completes. It therefore names the items copied at three of the four exits.
At the fourth, a cancellation noticed after an item has been written, it is one short.
-/

namespace Asioex

/-- Which part of the copy an operation in flight is. -/
inductive CopyPart where
  | source
  | sink
deriving DecidableEq, Repr

/-- `async_copy_op` with the cancellation state of the composed operation, and what it
started and delivered. The history is of the values received from the source, of those
passed to the sink, and of the sink operations that completed without error. -/
structure CopyOp (V : Type) where
  completed : BitVec 64
  cancelled : CancellationType
  inFlight : List CopyPart
  completions : List (ErrorCode × BitVec 64)
  received : List V
  passed : List V
  copied : Nat

namespace CopyOp

variable {V : Type}

/-- `source(prepend(std::move(self), source_tag{}))`. -/
def source (s : CopyOp V) : CopyOp V := { s with inFlight := s.inFlight ++ [.source] }

/-- `sink(std::forward<Args>(args)..., prepend(std::move(self), sink_tag{}))`. -/
def sink (s : CopyOp V) (args : V) : CopyOp V :=
  { s with inFlight := s.inFlight ++ [.sink], passed := s.passed ++ [args] }

/-- `self.complete(ec, completed)`. -/
def complete (s : CopyOp V) (ec : ErrorCode) : CopyOp V :=
  { s with completions := s.completions ++ [(ec, s.completed)] }

/-- `operator()(Self && self)`. -/
def start (s : CopyOp V) : CopyOp V := { s with completed := s.completed - 1 }.source

/-- `completed++`. -/
def advance (s : CopyOp V) : CopyOp V := { s with completed := s.completed + 1 }

/-- `operator()(Self && self, source_tag, error_code ec, Args && ... args)`. -/
def onSource (s : CopyOp V) (ec : ErrorCode) (args : V) : CopyOp V :=
  let ec := if !ec.isSet && s.advance.cancelled == CancellationType.terminal
    then .operationAborted else ec
  if !ec.isSet then s.advance.sink args else s.advance.complete ec

/-- `operator()(Self && self, sink_tag, error_code ec, Args && ...)`. -/
def onSink (s : CopyOp V) (ec : ErrorCode) : CopyOp V :=
  let ec := if !ec.isSet && s.cancelled != CancellationType.none then .operationAborted else ec
  if !ec.isSet then s.source else s.complete ec

/-- `async_copy`: the composed operation is called at once. -/
def create : CopyOp V := start ⟨0, CancellationType.none, [], [], [], [], 0⟩

inductive Event (V : Type) where
  | source (ec : ErrorCode) (args : V)
  | sink (ec : ErrorCode)
  | cancel (type : CancellationType)

/-- A result arrives for an operation in flight, or a cancellation for the copy. -/
def step (s : CopyOp V) : Event V → Option (CopyOp V)
  | .source ec args =>
    if .source ∈ s.inFlight then
      some ({ s with
        inFlight := s.inFlight.erase .source
        received := if ec.isSet then s.received else s.received ++ [args] }.onSource ec args)
    else none
  | .sink ec =>
    if .sink ∈ s.inFlight then
      some ({ s with
        inFlight := s.inFlight.erase .sink
        copied := if ec.isSet then s.copied else s.copied + 1 }.onSink ec)
    else none
  | .cancel type => some { s with cancelled := s.cancelled ||| (type &&& .terminal) }

def machine : Machine (CopyOp V) (Event V) := ⟨step⟩

/-- One source result leads to the sink, or completes the copy with an error. -/
theorem onSource_cases (s : CopyOp V) (ec : ErrorCode) (args : V) :
    s.onSource ec args = s.advance.sink args ∨
      ∃ code, s.onSource ec args = s.advance.complete code := by
  by_cases failed : ec.isSet = true
  · exact .inr ⟨ec, by simp [onSource, failed]⟩
  · by_cases observed : s.advance.cancelled = CancellationType.terminal
    · exact .inr ⟨.operationAborted, by simp [onSource, failed, observed]⟩
    · exact .inl (by simp [onSource, failed, observed])

/-- What the counter says, by the operation in flight: one less than the items copied
while the source is asked, and their number everywhere else. -/
inductive Counted (s : CopyOp V) : Prop where
  | sourcing (flight : s.inFlight = [.source]) (pending : s.completions = [])
      (count : s.completed + 1 = BitVec.ofNat 64 s.copied)
  | sinking (flight : s.inFlight = [.sink]) (pending : s.completions = [])
      (count : s.completed = BitVec.ofNat 64 s.copied)
  | ended (ec : ErrorCode) (flight : s.inFlight = []) (done : s.completions = [(ec, s.completed)])
      (count : s.completed = BitVec.ofNat 64 s.copied)

theorem create_counted : (create : CopyOp V).Counted :=
  .sourcing rfl rfl (by simp [create, start, source])

/-- Each completion delivers the number of sink operations that completed without
error, in the arithmetic of `std::size_t`. -/
def Reports (_s : CopyOp V) (_event : Event V) (next : CopyOp V) : Prop :=
  ∀ ec count, (ec, count) ∈ next.completions → count = BitVec.ofNat 64 next.copied

/-- A sink operation that completes without error finds no cancellation recorded. -/
def Unobserved (s : CopyOp V) (event : Event V) (_next : CopyOp V) : Prop :=
  event = .sink .success → s.cancelled = CancellationType.none

/-- A counter that is right where it is delivered is reported right. -/
theorem Counted.reports {s next : CopyOp V} {event : Event V} (counted : next.Counted) :
    Reports s event next := by
  intro ec count member
  cases counted with
  | sourcing _ pending => simp [pending] at member
  | sinking _ pending => simp [pending] at member
  | ended code _ done right =>
    simp only [done, List.mem_singleton, Prod.mk.injEq] at member
    exact member.2.trans right

/-- A source result advances the counter to the number of items copied. -/
theorem Counted.onSource {s : CopyOp V} (flight : s.inFlight = []) (pending : s.completions = [])
    (count : s.completed + 1 = BitVec.ofNat 64 s.copied) (ec : ErrorCode) (args : V) :
    (s.onSource ec args).Counted := by
  rcases s.onSource_cases ec args with sinks | ⟨code, ends⟩
  · rw [sinks]
    exact .sinking (by simp [advance, sink, flight]) pending count
  · rw [ends]
    exact .ended code flight (by simp [advance, complete, pending]) count

/-- The steps after which the counter is still right are those that notice no
cancellation at the sink.

Proof: a source result is counted whatever it is, and an error of the sink leaves both
the counter and the items copied. A success of the sink copies one more item; the copy
goes on with the counter one behind, as it should, unless a cancellation is noticed:
then it delivers the counter as it is. -/
theorem Counted.step {s next : CopyOp V} {event : Event V} (counted : s.Counted)
    (stepped : machine.step s event = some next) :
    (Unobserved s event next → next.Counted) ∧ (Reports s event next → Unobserved s event next) := by
  cases event with
  | cancel type =>
    obtain rfl := Option.some.inj stepped
    refine ⟨fun _ => ?_, fun _ => by simp [Unobserved]⟩
    cases counted with
    | sourcing flight pending count => exact .sourcing flight pending count
    | sinking flight pending count => exact .sinking flight pending count
    | ended ec flight done count => exact .ended ec flight done count
  | source ec args =>
    simp only [machine, CopyOp.step, Option.ite_none_right_eq_some, Option.some.injEq] at stepped
    obtain ⟨inFlight, rfl⟩ := stepped
    refine ⟨fun _ => ?_, fun _ => by simp [Unobserved]⟩
    cases counted with
    | sourcing flight pending count =>
      have answered : s.inFlight.erase .source = [] := by rw [flight]; rfl
      apply Counted.onSource
      · exact answered
      · exact pending
      · exact count
    | sinking flight => simp [flight] at inFlight
    | ended _ flight => simp [flight] at inFlight
  | sink ec =>
    simp only [machine, CopyOp.step, Option.ite_none_right_eq_some, Option.some.injEq] at stepped
    obtain ⟨inFlight, rfl⟩ := stepped
    cases counted with
    | sourcing flight => simp [flight] at inFlight
    | ended _ flight => simp [flight] at inFlight
    | sinking flight pending count =>
      by_cases failed : ec.isSet = true
      · refine ⟨fun _ => .ended ec ?_ ?_ ?_, fun _ same => ?_⟩
        · simp [onSink, failed, complete, flight]
        · simp [onSink, failed, complete, pending]
        · simpa [onSink, failed, complete] using count
        · obtain rfl : ec = .success := by simpa using same
          simp at failed
      · obtain rfl : ec = .success := ec.not_isSet_iff.mp failed
        by_cases quiet : s.cancelled = CancellationType.none
        · refine ⟨fun _ => .sourcing ?_ ?_ ?_, fun _ _ => quiet⟩
          · simp [onSink, quiet, source, flight]
          · simp [onSink, quiet, source, pending]
          · simp [onSink, quiet, source, count, BitVec.ofNat_add]
        · refine ⟨fun unobserved => absurd (unobserved rfl) quiet, fun reports => ?_⟩
          have short := reports .operationAborted s.completed
            (by simp [onSink, quiet, complete, pending])
          have claimed : s.completed = BitVec.ofNat 64 (s.copied + 1) := by
            simpa [onSink, quiet, complete] using short
          rw [count, BitVec.ofNat_add] at claimed
          simp at claimed

/-- A copy reports the items copied exactly when no sink operation that completes
without error finds a cancellation recorded. -/
theorem copy_reports_iff (V : Type) (events : List (Event V)) :
    machine.Along Reports (create : CopyOp V) events ↔
      machine.Along Unobserved (create : CopyOp V) events := by
  have agree (s : CopyOp V) (event : Event V) (next : CopyOp V) (_ : True) (counted : s.Counted)
      (stepped : machine.step s event = some next) :
      Reports s event next ↔ Unobserved s event next := by
    obtain ⟨keeps, needs⟩ := counted.step stepped
    constructor
    · exact needs
    · intro unobserved
      exact (keeps unobserved).reports
  have keeps (s : CopyOp V) (event : Event V) (next : CopyOp V) (_ : True) (counted : s.Counted)
      (stepped : machine.step s event = some next) (unobserved : Unobserved s event next) :
      next.Counted :=
    (counted.step stepped).1 unobserved
  exact machine.along_iff agree keeps events (fun _ _ => trivial) create_counted

/-- One item is read and written, and the copy is cancelled while it is written. -/
def cancelledCopy : List (Event Nat) :=
  [.source .success 7, .cancel .terminal, .sink .success]

/-- The item was written, and the copy delivers that no item was copied. -/
theorem copy_reports_one_short :
    ∃ s, machine.run create cancelledCopy = some s ∧ s.copied = 1 ∧ s.passed = [7] ∧
      s.completions = [(.operationAborted, 0)] ∧
      ¬machine.Along Reports create cancelledCopy := by
  refine ⟨_, rfl, rfl, rfl, rfl, fun along => ?_⟩
  have reports := (((along _ rfl).2 _ rfl).2 _ rfl).1
  exact absurd (reports .operationAborted 0 (by decide)) (by decide)

end CopyOp

end Asioex
