import Asioex.Channel
import Asioex.Copy

/-!
# A copy between two channels

`async_copy` with the receive of one channel as its source and the send of another one as
its sink. Producers send into the inlet, one consumer receives from the outlet, and the copy
alternates between the two. An operation of a channel that ends posts its completion, and
everything else may happen before the completion reaches the copy. The channels are any two
that do as documented.

The two channels and the copy between them are one queue: what the inlet accepted comes out
of the outlet in the same order. At most one value is between the channels, and it is lost
only when the copy ends with an error while it has the value in hand.
-/

namespace Asioex

open Channel (state)

/-- `channel_errc::channel_closed` and `channel_errc::channel_cancelled`. -/
def ErrorCode.channelClosed : ErrorCode := .asio (.other 1)
def ErrorCode.channelCancelled : ErrorCode := .asio (.other 2)

/-- The channels and the copy, the completions of its receive and of its send that have not
reached it yet, the values that the inlet accepted, and those that the consumer received. -/
structure CopyPipe (C V : Type) where
  inlet : C
  outlet : C
  copy : CopyOp V
  sourced : Option (ErrorCode × V)
  sank : Option ErrorCode
  accepted : List V
  consumed : List V

namespace CopyPipe

variable {C V : Type} [Channel C V] [Inhabited V]

/-- What a receive brings: its value, or an error and no value. -/
def arrival (code : ErrorCode) : RangeOutcome V → ErrorCode × V
  | .value value => (.success, value)
  | _ => (code, default)

/-- Take over the result of an operation of the inlet, which ends a receive with this code if
it fails. -/
def takeInlet (s : CopyPipe C V) (code : ErrorCode) (result : Channel.Result C V) :
    CopyPipe C V :=
  { s with
    inlet := result.chan
    accepted := s.accepted ++ result.accepted
    sourced := s.sourced.or (result.completion.map (arrival code)) }

/-- Take over the result of an operation of the outlet. Only the copy sends into it: a value
that is accepted is the copy's. -/
def takeOutlet (s : CopyPipe C V) (result : Channel.Result C V) : CopyPipe C V :=
  { s with
    outlet := result.chan
    consumed := s.consumed ++ result.values
    sank := s.sank.or (if result.accepted.isEmpty then none else some .success) }

/-- Take over the result of an operation that ends the send that waits at the outlet, if there
is one, with an error. -/
def endOutlet (s : CopyPipe C V) (code : ErrorCode) (result : Channel.Result C V) :
    CopyPipe C V :=
  { s with
    outlet := result.chan
    sank := s.sank.or (if (state s.outlet).senders.isEmpty then none else some code) }

/-- The source of the copy: `async_receive` of the inlet. -/
def receive (s : CopyPipe C V) : CopyPipe C V :=
  s.takeInlet .channelClosed (Channel.asyncReceive s.inlet)

/-- The sink of the copy: `async_send` of the outlet. -/
def send (s : CopyPipe C V) (value : V) : CopyPipe C V :=
  if (state s.outlet).isOpen then s.takeOutlet (Channel.asyncSend s.outlet value)
  else { s with sank := some .channelClosed }

/-- A completion reaches the copy, which starts the operation that it then has in flight. -/
def resume (s : CopyPipe C V) (event : CopyOp.Event V) (value : V) : Option (CopyPipe C V) :=
  (CopyOp.machine.step s.copy event).map (fun copy =>
    match copy.inFlight with
    | [.source] => { s with copy := copy }.receive
    | [.sink] => { s with copy := copy }.send value
    | _ => { s with copy := copy })

/-- The pipe is created with the copy's first receive. -/
def create (m n : Nat) : CopyPipe C V :=
  (⟨Channel.create m, Channel.create n, .create, none, none, [], []⟩ : CopyPipe C V).receive

inductive Event (V : Type) where
  | send (value : V)
  | receive
  | closeInlet
  | closeOutlet
  | cancelInlet
  | cancelOutlet
  | cancel (type : CancellationType)
  | sourced
  | sank

/-- A terminal cancellation of the copy reaches the operation that it has in flight, and ends
it if it waits. No other send waits at the outlet. -/
def cancel (s : CopyPipe C V) (type : CancellationType) : Option (CopyPipe C V) :=
  (CopyOp.machine.step s.copy (.cancel type)).map (fun copy =>
    if type &&& .terminal = CancellationType.none then { s with copy := copy }
    else match copy.inFlight with
      | [.source] =>
        { s with copy := copy }.takeInlet .channelCancelled (Channel.cancelReceive s.inlet)
      | [.sink] =>
        { s with copy := copy }.endOutlet .channelCancelled (Channel.cancelSend s.outlet 0)
      | _ => { s with copy := copy })

/-- `close` leaves the send that waits at the outlet, and `cancel` ends it. -/
def step (s : CopyPipe C V) : Event V → Option (CopyPipe C V)
  | .send value => some (s.takeInlet .channelClosed (Channel.asyncSend s.inlet value))
  | .receive =>
    if (state s.outlet).receiver then none
    else some (s.takeOutlet (Channel.asyncReceive s.outlet))
  | .closeInlet => some (s.takeInlet .channelClosed (Channel.close s.inlet))
  | .closeOutlet => some (s.takeOutlet (Channel.close s.outlet))
  | .cancelInlet => some (s.takeInlet .channelCancelled (Channel.cancel s.inlet))
  | .cancelOutlet => some (s.endOutlet .channelCancelled (Channel.cancel s.outlet))
  | .cancel type => s.cancel type
  | .sourced => s.sourced.bind (fun (ec, value) =>
      { s with sourced := none }.resume (.source ec value) value)
  | .sank => s.sank.bind (fun ec => { s with sank := none }.resume (.sink ec) default)

def machine : Machine (CopyPipe C V) (Event V) := ⟨step⟩

/-- The value that the copy's receive has brought and the copy has not taken. -/
def arrived (s : CopyPipe C V) : List V :=
  match s.sourced with
  | some (.success, value) => [value]
  | _ => []

/-- What has left the copy: the values that the outlet accepted. -/
def delivered (s : CopyPipe C V) : List V := s.consumed ++ (state s.outlet).buffer

/-- Nothing of the source is outstanding. -/
def Unsourced (s : CopyPipe C V) : Prop := (state s.inlet).receiver = false ∧ s.sourced = none

/-- Nothing of the sink is outstanding. -/
def Unsunk (s : CopyPipe C V) : Prop := (state s.outlet).senders = [] ∧ s.sank = none

/-- Where the value is that the copy took from the inlet last: delivered, waiting at the
outlet, accepted or refused there, or in the hand of a copy that has ended. -/
inductive Place (s : CopyPipe C V) : Prop where
  | sourcing (flight : s.copy.inFlight = [.source]) (going : s.copy.completions = [])
      (received : s.copy.received = s.delivered) (copied : s.copy.copied = s.delivered.length)
      (waits : (state s.inlet).receiver = true ↔ s.sourced = none) (unsunk : s.Unsunk)
  | waiting (value : V) (flight : s.copy.inFlight = [.sink]) (going : s.copy.completions = [])
      (received : s.copy.received = s.delivered ++ [value])
      (copied : s.copy.copied = s.delivered.length) (unsourced : s.Unsourced)
      (waits : (state s.outlet).senders = [value]) (pending : s.sank = none)
  | sent (flight : s.copy.inFlight = [.sink]) (going : s.copy.completions = [])
      (received : s.copy.received = s.delivered) (copied : s.copy.copied + 1 = s.delivered.length)
      (unsourced : s.Unsourced) (vacant : (state s.outlet).senders = [])
      (success : s.sank = some .success)
  | refused (value : V) (ec : ErrorCode) (flight : s.copy.inFlight = [.sink])
      (going : s.copy.completions = []) (received : s.copy.received = s.delivered ++ [value])
      (copied : s.copy.copied = s.delivered.length) (unsourced : s.Unsourced)
      (vacant : (state s.outlet).senders = []) (error : s.sank = some ec) (isSet : ec.isSet = true)
  | ended (lost : List V) (flight : s.copy.inFlight = []) (done : s.copy.completions ≠ [])
      (received : s.copy.received = s.delivered ++ lost) (one : lost.length ≤ 1)
      (copied : s.copy.copied = s.delivered.length) (unsourced : s.Unsourced) (unsunk : s.Unsunk)

/-- Two sound channels, every accepted value in its place, and a counter that is right as long
as no cancellation is recorded. -/
structure Piping (m n : Nat) (s : CopyPipe C V) : Prop where
  inlet : (state s.inlet).Sound
  outlet : (state s.outlet).Sound
  capacities : (state s.inlet).capacity = m ∧ (state s.outlet).capacity = n
  brought : s.accepted = s.copy.received ++ s.arrived ++ (state s.inlet).buffer
  counted : s.copy.cancelled = CancellationType.none → s.copy.Counted

omit [Channel C V] in
/-- A completion that finds the place free brings its value. -/
theorem takeInlet_arrived {s : CopyPipe C V} {code : ErrorCode} (isSet : code.isSet = true)
    {result : Channel.Result C V} (once : s.sourced = none ∨ result.completion = none) :
    (s.takeInlet code result).arrived = s.arrived ++ result.values := by
  rcases once with free | nothing
  · cases completion : result.completion with
    | none => simp [arrived, takeInlet, free, completion, Channel.Result.values]
    | some outcome =>
      have error (value : V) : arrived { s with sourced := some (code, value) } = [] := by
        cases code with
        | success => cases isSet
        | asio error => rfl
        | completionDenied => rfl
      cases outcome with
      | value value => simp [arrived, takeInlet, free, completion, arrival, Channel.Result.values]
      | ended | failed =>
        have none := error default
        simpa [arrived, takeInlet, free, completion, arrival, Channel.Result.values] using none
  · simp [arrived, takeInlet, nothing, Channel.Result.values]

/-- An operation of the inlet keeps the values in their places. -/
theorem Piping.takeInlet {m n : Nat} {s : CopyPipe C V} (piping : s.Piping m n)
    {code : ErrorCode} (isSet : code.isSet = true) {result : Channel.Result C V}
    (keeps : Channel.Keeps s.inlet result) (once : s.sourced = none ∨ result.completion = none) :
    (s.takeInlet code result).Piping m n where
  inlet := keeps.sound
  outlet := piping.outlet
  capacities := ⟨keeps.capacity.trans piping.capacities.1, piping.capacities.2⟩
  brought := by
    have before := piping.brought
    have moved := keeps.conserved
    rw [takeInlet_arrived isSet once]
    change s.accepted ++ result.accepted = s.copy.received ++ (s.arrived ++ result.values) ++
      (state result.chan).buffer
    rw [before, List.append_assoc, moved]
    simp only [List.append_assoc]
  counted := piping.counted

/-- An operation of a producer ends the receive of the copy, or does nothing to it. -/
theorem Place.takeInlet {s : CopyPipe C V} (place : s.Place) {code : ErrorCode}
    {result : Channel.Result C V} (ends : Channel.Ends s.inlet result) :
    (s.sourced = none ∨ result.completion = none) ∧ (s.takeInlet code result).Place := by
  have unsourced (quiet : s.Unsourced) :
      result.completion = none ∧ (s.takeInlet code result).Unsourced := by
    have nothing := ends.completion.mpr quiet.1
    exact ⟨nothing, ends.receiver, by simp [CopyPipe.takeInlet, nothing, quiet.2]⟩
  cases place with
  | sourcing flight going received copied waits unsunk =>
    cases receiver : (state s.inlet).receiver with
    | true =>
      have free := waits.mp receiver
      have some : result.completion ≠ none := fun none => by
        cases receiver.symm.trans (ends.completion.mp none)
      refine ⟨.inl free, .sourcing flight going received copied ?_ unsunk⟩
      change (state result.chan).receiver = true ↔ (s.sourced.or (result.completion.map _)) = none
      simp [ends.receiver, free, some]
    | false =>
      have nothing := ends.completion.mpr receiver
      refine ⟨.inr nothing, .sourcing flight going received copied ?_ unsunk⟩
      change (state result.chan).receiver = true ↔ (s.sourced.or (result.completion.map _)) = none
      rw [ends.receiver, nothing, Option.map_none, Option.or_none, ← waits, receiver]
  | waiting value flight going received copied quiet waits pending =>
    obtain ⟨nothing, still⟩ := unsourced quiet
    exact ⟨.inr nothing, .waiting value flight going received copied still waits pending⟩
  | sent flight going received copied quiet vacant success =>
    obtain ⟨nothing, still⟩ := unsourced quiet
    exact ⟨.inr nothing, .sent flight going received copied still vacant success⟩
  | refused value ec flight going received copied quiet vacant error isSet =>
    obtain ⟨nothing, still⟩ := unsourced quiet
    exact ⟨.inr nothing, .refused value ec flight going received copied still vacant error isSet⟩
  | ended lost flight done received one copied quiet unsunk =>
    obtain ⟨nothing, still⟩ := unsourced quiet
    exact ⟨.inr nothing, .ended lost flight done received one copied still unsunk⟩

omit [Inhabited V] in
/-- What the outlet accepts is delivered. -/
theorem takeOutlet_delivered {s : CopyPipe C V} {result : Channel.Result C V}
    (keeps : Channel.Keeps s.outlet result) :
    (s.takeOutlet result).delivered = s.delivered ++ result.accepted := by
  change s.consumed ++ result.values ++ (state result.chan).buffer =
    s.consumed ++ (state s.outlet).buffer ++ _
  rw [List.append_assoc, List.append_assoc, keeps.conserved]

omit [Inhabited V] in
/-- An operation of the outlet keeps it sound. -/
theorem Piping.outlets {m n : Nat} {s : CopyPipe C V} (piping : s.Piping m n)
    {result : Channel.Result C V} (keeps : Channel.Keeps s.outlet result) (consumed : List V)
    (sank : Option ErrorCode) :
    ({ s with outlet := result.chan, consumed := consumed, sank := sank } : CopyPipe C V).Piping
      m n :=
  ⟨piping.inlet, keeps.sound, ⟨piping.capacities.1, keeps.capacity.trans piping.capacities.2⟩,
    piping.brought, piping.counted⟩

omit [Inhabited V] in
/-- An operation of the outlet lets in the value that waits there, which is then sent, or
leaves it where it is. -/
theorem Place.takeOutlet {s : CopyPipe C V} (place : s.Place) {result : Channel.Result C V}
    (keeps : Channel.Keeps s.outlet result)
    (moved : result.accepted ++ (state result.chan).senders = (state s.outlet).senders) :
    (s.takeOutlet result).Place := by
  have delivered := takeOutlet_delivered keeps
  -- where the outlet accepts nothing, what waits there goes on waiting
  have still (nothing : result.accepted = []) :
      (s.takeOutlet result).delivered = s.delivered ∧
        (state (s.takeOutlet result).outlet).senders = (state s.outlet).senders ∧
        (s.takeOutlet result).sank = s.sank := by
    rw [nothing, List.append_nil] at delivered
    rw [nothing, List.nil_append] at moved
    exact ⟨delivered, moved, by simp [CopyPipe.takeOutlet, nothing]⟩
  have idle (vacant : (state s.outlet).senders = []) : result.accepted = [] := by
    rw [vacant, List.append_eq_nil_iff] at moved
    exact moved.1
  cases place with
  | sourcing flight going received copied receives unsunk =>
    obtain ⟨same, line, sank⟩ := still (idle unsunk.1)
    exact .sourcing flight going (same ▸ received) (same ▸ copied) receives
      ⟨line.trans unsunk.1, sank.trans unsunk.2⟩
  | waiting value flight going received copied unsourced line pending =>
    cases accepted : result.accepted with
    | nil =>
      obtain ⟨same, waits, sank⟩ := still accepted
      exact .waiting value flight going (same ▸ received) (same ▸ copied) unsourced
        (waits.trans line) (sank.trans pending)
    | cons first rest =>
      rw [line, accepted, List.cons_append, List.cons.injEq, List.append_eq_nil_iff] at moved
      obtain ⟨rfl, rfl, vacant⟩ := moved
      rw [accepted] at delivered
      refine .sent flight going (received.trans delivered.symm) ?_ unsourced vacant ?_
      · change s.copy.copied + 1 = _
        rw [delivered, copied, List.length_append, List.length_singleton]
      · simp [CopyPipe.takeOutlet, pending, accepted]
  | sent flight going received copied unsourced vacant success =>
    obtain ⟨same, line, sank⟩ := still (idle vacant)
    exact .sent flight going (same ▸ received) (same ▸ copied) unsourced (line.trans vacant)
      (sank.trans success)
  | refused value ec flight going received copied unsourced vacant error isSet =>
    obtain ⟨same, line, sank⟩ := still (idle vacant)
    exact .refused value ec flight going (same ▸ received) (same ▸ copied) unsourced
      (line.trans vacant) (sank.trans error) isSet
  | ended lost flight done received one copied unsourced unsunk =>
    obtain ⟨same, line, sank⟩ := still (idle unsunk.1)
    exact .ended lost flight done (same ▸ received) one (same ▸ copied) unsourced
      ⟨line.trans unsunk.1, sank.trans unsunk.2⟩

omit [Inhabited V] in
/-- No send waits behind the copy's. -/
theorem Place.line {s : CopyPipe C V} (place : s.Place) : (state s.outlet).senders.tail = [] := by
  cases place with
  | sourcing _ _ _ _ _ unsunk => rw [unsunk.1, List.tail_nil]
  | waiting value _ _ _ _ _ waits => rw [waits, List.tail_cons]
  | sent _ _ _ _ _ vacant => rw [vacant, List.tail_nil]
  | refused _ _ _ _ _ _ _ vacant => rw [vacant, List.tail_nil]
  | ended _ _ _ _ _ _ _ unsunk => rw [unsunk.1, List.tail_nil]

omit [Inhabited V] in
/-- What ends the send that waits at the outlet has it refused. -/
theorem Place.endOutlet {s : CopyPipe C V} (place : s.Place) {code : ErrorCode}
    (isSet : code.isSet = true) {result : Channel.Result C V}
    (buffer : (state result.chan).buffer = (state s.outlet).buffer)
    (senders : (state result.chan).senders = []) :
    (s.endOutlet code result).Place := by
  have same : (s.endOutlet code result).delivered = s.delivered := by
    change s.consumed ++ (state result.chan).buffer = _
    rw [buffer]
    rfl
  have still (vacant : (state s.outlet).senders = []) : (s.endOutlet code result).sank = s.sank := by
    simp [CopyPipe.endOutlet, vacant]
  cases place with
  | sourcing flight going received copied receives unsunk =>
    exact .sourcing flight going (same ▸ received) (same ▸ copied) receives
      ⟨senders, (still unsunk.1).trans unsunk.2⟩
  | waiting value flight going received copied unsourced line pending =>
    refine .refused value code flight going (same ▸ received) (same ▸ copied) unsourced senders ?_
      isSet
    simp [CopyPipe.endOutlet, line, pending]
  | sent flight going received copied unsourced vacant success =>
    exact .sent flight going (same ▸ received) (same ▸ copied) unsourced senders
      ((still vacant).trans success)
  | refused value ec flight going received copied unsourced vacant error isSet =>
    exact .refused value ec flight going (same ▸ received) (same ▸ copied) unsourced senders
      ((still vacant).trans error) isSet
  | ended lost flight done received one copied unsourced unsunk =>
    exact .ended lost flight done (same ▸ received) one (same ▸ copied) unsourced
      ⟨senders, (still unsunk.1).trans unsunk.2⟩

variable [LawfulChannel C V]

omit [Inhabited V] in
/-- The value that the copy passes on is accepted, waits, or is refused. -/
theorem sinks {m n : Nat} {s : CopyPipe C V} (piping : s.Piping m n) {value : V}
    (flight : s.copy.inFlight = [.sink]) (going : s.copy.completions = [])
    (received : s.copy.received = s.delivered ++ [value])
    (copied : s.copy.copied = s.delivered.length) (unsourced : s.Unsourced) (unsunk : s.Unsunk) :
    (s.send value).Piping m n ∧ (s.send value).Place := by
  have keeps := Channel.asyncSend_keeps piping.outlet value
  cases isOpen : (state s.outlet).isOpen with
  | false =>
    have refused : s.send value = { s with sank := some .channelClosed } := by simp [send, isOpen]
    rw [refused]
    refine ⟨⟨piping.inlet, piping.outlet, piping.capacities, piping.brought, piping.counted⟩, ?_⟩
    exact .refused value _ flight going received copied unsourced unsunk.1 rfl rfl
  | true =>
    have taken : s.send value = s.takeOutlet (Channel.asyncSend s.outlet value) := by
      simp [send, isOpen]
    have delivered := takeOutlet_delivered keeps
    rw [taken]
    refine ⟨piping.outlets keeps _ _, ?_⟩
    have accepts (accepted : (Channel.asyncSend s.outlet value).accepted = [value])
        (senders : (state (Channel.asyncSend s.outlet value).chan).senders = []) :
        (s.takeOutlet (Channel.asyncSend s.outlet value)).Place := by
      rw [accepted] at delivered
      refine .sent flight going (received.trans delivered.symm) ?_ unsourced senders ?_
      · change s.copy.copied + 1 = _
        rw [delivered, copied, List.length_append, List.length_singleton]
      · simp [takeOutlet, unsunk.2, accepted]
    cases Channel.asyncSend_cases s.outlet value with
    | closed shut => cases isOpen.symm.trans shut
    | received _ _ yields => exact accepts yields.accepted (by rw [yields.state]; exact unsunk.1)
    | buffered _ _ _ yields => exact accepts yields.accepted (by rw [yields.state]; exact unsunk.1)
    | waits _ _ _ yields =>
      have line : (state (Channel.asyncSend s.outlet value).chan).senders = [value] := by
        rw [yields.state]
        simp [unsunk.1]
      rw [yields.accepted, List.append_nil] at delivered
      refine .waiting value flight going (received.trans ?_) (copied.trans ?_) unsourced line ?_
      · rw [delivered]
      · rw [delivered]
      · simp [takeOutlet, unsunk.2, yields.accepted]

omit [Inhabited V] in
/-- A step of the copy leaves its counter right, if no cancellation is recorded after it. -/
theorem counted_step {copy next : CopyOp V} {event : CopyOp.Event V}
    (counted : copy.cancelled = CancellationType.none → copy.Counted)
    (stepped : CopyOp.machine.step copy event = some next)
    (grown : next.cancelled = CancellationType.none → copy.cancelled = CancellationType.none)
    (quiet : next.cancelled = CancellationType.none) : next.Counted :=
  ((counted (grown quiet)).step stepped).1 (fun _ => grown quiet)

omit [Inhabited V] [LawfulChannel C V] in
/-- A cancellation that is recorded, with the copy otherwise as it was. -/
theorem Place.record {s : CopyPipe C V} (place : s.Place) (cancelled : CancellationType) :
    ({ s with copy := { s.copy with cancelled := cancelled } } : CopyPipe C V).Place := by
  cases place with
  | sourcing flight going received copied waits unsunk =>
    exact .sourcing flight going received copied waits unsunk
  | waiting value flight going received copied unsourced waits pending =>
    exact .waiting value flight going received copied unsourced waits pending
  | sent flight going received copied unsourced vacant success =>
    exact .sent flight going received copied unsourced vacant success
  | refused value ec flight going received copied unsourced vacant error isSet =>
    exact .refused value ec flight going received copied unsourced vacant error isSet
  | ended lost flight done received one copied unsourced unsunk =>
    exact .ended lost flight done received one copied unsourced unsunk

/-- A cancellation of the copy ends the operation that waits for it, or only is recorded. -/
theorem Piping.cancels {m n : Nat} {s next : CopyPipe C V} (piping : s.Piping m n)
    (place : s.Place) {type : CancellationType} (cancels : s.cancel type = some next) :
    next.Piping m n ∧ next.Place := by
  obtain ⟨copy, stepped, rfl⟩ := Option.map_eq_some_iff.mp cancels
  have counted := counted_step piping.counted stepped
  obtain rfl := Option.some.inj stepped
  have grown : s.copy.cancelled ||| (type &&& .terminal) = CancellationType.none →
      s.copy.cancelled = CancellationType.none := by
    intro none
    exact (BitVec.or_eq_zero_iff.mp none).1
  have recorded := place.record (s.copy.cancelled ||| (type &&& .terminal))
  have still : ({ s with copy := { s.copy with
      cancelled := s.copy.cancelled ||| (type &&& .terminal) } } : CopyPipe C V).Piping m n :=
    ⟨piping.inlet, piping.outlet, piping.capacities, piping.brought, counted grown⟩
  by_cases filtered : type &&& .terminal = CancellationType.none
  · rw [if_pos filtered]
    exact ⟨still, recorded⟩
  · rw [if_neg filtered]
    split
    · obtain ⟨once, kept⟩ := recorded.takeInlet (Channel.cancelReceive_ends s.inlet)
      exact ⟨still.takeInlet rfl (Channel.cancelReceive_keeps piping.inlet) once, kept⟩
    · have left := (LawfulChannel.cancelSend_yields s.outlet 0).state
      refine ⟨still.outlets (Channel.cancelSend_keeps piping.outlet 0) _ _, ?_⟩
      apply recorded.endOutlet rfl
      · rw [left]
      · rw [left]
        exact (List.eraseIdx_zero).trans place.line
    · exact ⟨still, recorded⟩

end CopyPipe

end Asioex
