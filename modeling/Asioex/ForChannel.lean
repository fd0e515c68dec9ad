import Asioex.Channel

/-!
# A loop over a channel

The consumer of a channel is `co_for`: `wait`, and the loop's body if it returns true. A
receive that ends posts its continuation, and everything else may happen in between: values
are sent, and the channel is closed. `wait` returns false when it finds the channel closed,
whatever is in the buffer, and the body never sees it.

What the channel is made of is left open; it is one that does as documented.
-/

namespace Asioex

open Channel (state)

/-- The loop over a channel: the range, the completion of a receive that was posted and
has not run, whether the loop has ended, the values that the channel accepted, and those
that the body saw. -/
structure ChannelLoop (C T : Type) where
  chan : C
  range : Range T
  received : Option (RangeOutcome T)
  isOver : Bool
  accepted : List T
  seen : List T
deriving DecidableEq, Repr

namespace ChannelLoop

variable {C T : Type} [Channel C T]

def create (capacity : Nat) : ChannelLoop C T :=
  ⟨Channel.create capacity, .create, none, false, [], []⟩

/-- Take over the result of a channel operation. -/
def take (s : ChannelLoop C T) (result : Channel.Result C T) : ChannelLoop C T :=
  { s with
    chan := result.chan
    accepted := s.accepted ++ result.accepted
    received := s.received.or result.completion }

/-- A producer sends or closes; the loop calls `wait`, and continues in it. -/
inductive Event (T : Type) where
  | send (value : T)
  | close
  | wait
  | resume
deriving DecidableEq, Repr

/-- `wait` is called by a loop that goes on, and without a cancellation. It returns false
where it does not suspend, and ends the loop. When it returns true, the body sees the loop
variable; an exception leaves the loop. -/
def step (s : ChannelLoop C T) : Event T → Option (ChannelLoop C T)
  | .send value => some (s.take (Channel.asyncSend s.chan value))
  | .close => some (s.take (Channel.close s.chan))
  | .wait =>
    if s.isOver then none
    else (Range.channel.step s.range (.wait false (state s.chan).isOpen)).map (fun range =>
      if range.place = .outside then { s with range := range, isOver := true }
      else { s with range := range }.take (Channel.asyncReceive s.chan))
  | .resume =>
    s.received.bind (fun outcome =>
      (Range.channel.step s.range (.resume outcome)).map (fun range =>
        match outcome with
        | .value _ =>
          { s with
            range := range
            received := none
            seen := s.seen ++ range.storage.object.toList }
        | _ => { s with range := range, received := none, isOver := true }))

def machine : Machine (ChannelLoop C T) (Event T) := ⟨step⟩

/-- When the loop has ended, its body has seen the values that the channel accepted. -/
def Complete (_s : ChannelLoop C T) (_event : Event T) (next : ChannelLoop C T) : Prop :=
  next.isOver = true → next.seen = next.accepted

/-- A call of `wait` that finds the channel closed finds its buffer empty. -/
def Drained (s : ChannelLoop C T) (event : Event T) (_next : ChannelLoop C T) : Prop :=
  event = .wait → (state s.chan).isOpen = false → (state s.chan).buffer = []

/-- The value that a receive has brought and the body has not seen. -/
def delivered (s : ChannelLoop C T) : List T :=
  match s.received with
  | some (.value value) => [value]
  | _ => []

/-- The accepted values were seen, or are to be seen, in order; what waits for a value waits
for the first one; and a loop that has ended leaves a closed and empty channel. -/
structure Steady (s : ChannelLoop C T) : Prop where
  conserved : s.accepted = s.seen ++ s.delivered ++ (state s.chan).buffer
  whole : s.isOver = false → s.range.Whole
  idle : s.range.place = .outside → s.received = none ∧ (state s.chan).receiver = false
  receiving : (state s.chan).receiver = true →
    s.received = none ∧ (state s.chan).buffer = [] ∧ (state s.chan).senders = [] ∧
      (state s.chan).isOpen = true
  failed : s.received = some .failed → (state s.chan).buffer = [] ∧ (state s.chan).isOpen = false
  isOver : s.isOver = true →
    s.received = none ∧ (state s.chan).buffer = [] ∧ (state s.chan).isOpen = false

/-- A loop that has ended in good order has seen everything. -/
theorem Steady.complete {s next : ChannelLoop C T} {event : Event T} (steady : next.Steady) :
    Complete s event next := by
  intro isOver
  obtain ⟨received, buffer, -⟩ := steady.isOver isOver
  have conserved := steady.conserved
  simp only [delivered, received, buffer, List.append_nil] at conserved
  exact conserved.symm

/-- `wait` suspends on an open channel only. -/
theorem wait_suspends {range next : Range T} {isOpen : Bool}
    (stepped : Range.channel.step range (.wait false isOpen) = some next) :
    range.place = .outside ∧ (isOpen = false → next = range) ∧
      (isOpen = true → next.place ≠ .outside) := by
  simp only [Range.channel, Range.channelStep, Option.ite_none_right_eq_some] at stepped
  obtain ⟨outside, waits⟩ := stepped
  cases isOpen with
  | false =>
    refine ⟨outside, fun _ => ?_, by simp⟩
    simpa using waits.symm
  | true =>
    refine ⟨outside, by simp, fun _ => ?_⟩
    by_cases set : range.storage.hasValue = true
    · obtain rfl : { range with place := .assigning } = next := by simpa [set] using waits
      simp
    · obtain rfl : ⟨{ range.storage with hasValue := true }, .constructing⟩ = next := by
        simpa [set] using waits
      simp

/-- A receive that brings a value leaves it in the loop variable. -/
theorem resume_value {range next : Range T} (whole : range.Whole) {value : T}
    (stepped : Range.channel.step range (.resume (.value value)) = some next) :
    next.storage.object = some value := by
  simp only [Range.channel, Range.channelStep] at stepped
  split at stepped
  · next assigning =>
    obtain rfl := Option.some.inj stepped
    obtain ⟨object, lives⟩ := Option.isSome_iff_exists.mp (whole.assigning assigning)
    simp [RangeStorage.assign, lives]
  · next constructing =>
    obtain rfl := Option.some.inj stepped
    rfl
  · cases stepped

namespace Steady

variable {s : ChannelLoop C T} (steady : s.Steady)
include steady

/-- A loop whose channel is open goes on. -/
theorem going (isOpen : (state s.chan).isOpen = true) : s.isOver = false := by
  by_contra isOver
  cases (steady.isOver (Bool.not_eq_false _ ▸ isOver)).2.2.symm.trans isOpen

/-- A loop whose receive waits is suspended. -/
theorem suspended (receiver : (state s.chan).receiver = true) : s.range.place ≠ .outside := by
  intro outside
  cases (steady.idle outside).2.symm.trans receiver

/-- The body sees the value that a receive brought; an error leaves the loop. -/
theorem resume {next : ChannelLoop C T} (stepped : machine.step s .resume = some next) :
    next.Steady := by
  obtain ⟨outcome, received, resumes⟩ := Option.bind_eq_some_iff.mp stepped
  obtain ⟨range, resumed, rfl⟩ := Option.map_eq_some_iff.mp resumes
  have going : s.isOver = false := by
    by_contra isOver
    cases (steady.isOver (Bool.not_eq_false _ ▸ isOver)).1.symm.trans received
  have alone : (state s.chan).receiver = false := by
    by_contra receiver
    cases (steady.receiving (Bool.not_eq_false _ ▸ receiver)).1.symm.trans received
  have conserved := steady.conserved
  cases outcome with
  | value value =>
    have object := resume_value (steady.whole going) resumed
    have whole : range.Whole :=
      (steady.whole going).channelStep resumed (by simp [Range.Served])
    simp only [delivered, received] at conserved
    refine ⟨?_, fun _ => whole, ?_, ?_, ?_, ?_⟩
    · simpa [delivered, object] using conserved
    · simp [alone]
    · simp [alone]
    · simp
    · simp [going]
  | ended => cases resumed
  | failed =>
    obtain ⟨buffer, closed⟩ := steady.failed received
    simp only [delivered, received] at conserved
    refine ⟨?_, ?_, ?_, ?_, ?_, ?_⟩
    · simpa [delivered] using conserved
    · simp
    · simp [alone]
    · simp [alone]
    · simp
    · simp [buffer, closed]

/-- An operation that ends no receive and leaves none waiting puts what it accepts behind the
buffer; at a closed channel it accepts nothing. -/
theorem keeps {result : Channel.Result C T} {after : Channel.State T} {accepted : List T}
    (yields : result.Yields after accepted none) (alone : after.receiver = false)
    (buffer : after.buffer = (state s.chan).buffer ++ accepted)
    (closed : (state s.chan).isOpen = false → accepted = [] ∧ after.isOpen = false) :
    (s.take result).Steady := by
  obtain ⟨left, accepts, completion⟩ := yields
  have received : (s.take result).received = s.received := by simp [take, completion]
  have still (empty : (state s.chan).buffer = []) (shut : (state s.chan).isOpen = false) :
      (state (s.take result).chan).buffer = [] ∧ (state (s.take result).chan).isOpen = false := by
    obtain ⟨nothing, closes⟩ := closed shut
    simp [take, left, buffer, empty, nothing, closes]
  refine ⟨?_, steady.whole, ?_, ?_, ?_, ?_⟩
  · have conserved := steady.conserved
    simp only [delivered, received] at conserved ⊢
    simp [take, left, accepts, buffer, conserved]
  · intro outside
    exact ⟨received.trans (steady.idle outside).1, by simp [take, left, alone]⟩
  · simp [take, left, alone]
  · intro failed
    obtain ⟨empty, shut⟩ := steady.failed (received.symm.trans failed)
    exact still empty shut
  · intro isOver
    obtain ⟨none, empty, shut⟩ := steady.isOver isOver
    exact ⟨received.trans none, still empty shut⟩

variable [LawfulChannel C T]

/-- Values that are accepted by an open channel are delivered or stand in the buffer. -/
theorem send (value : T) : (s.take (Channel.asyncSend s.chan value)).Steady := by
  cases Channel.asyncSend_cases s.chan value with
  | closed isOpen yields =>
    have alone : (state s.chan).receiver = false := by
      by_contra receiver
      cases isOpen.symm.trans (steady.receiving (Bool.not_eq_false _ ▸ receiver)).2.2.2
    exact steady.keeps yields alone (List.append_nil _).symm (fun shut => ⟨rfl, shut⟩)
  | received isOpen receiver yields =>
    obtain ⟨left, accepted, completion⟩ := yields
    have going := steady.going isOpen
    have suspended := steady.suspended receiver
    obtain ⟨received, buffer, senders, -⟩ := steady.receiving receiver
    have conserved := steady.conserved
    simp only [delivered, received, buffer, List.append_nil] at conserved
    constructor <;> simp [take, left, accepted, completion, delivered, received, buffer, conserved,
      steady.whole going, going, suspended]
  | buffered isOpen alone room yields =>
    exact steady.keeps yields alone rfl (fun shut => by cases shut.symm.trans isOpen)
  | waits isOpen alone full yields =>
    exact steady.keeps yields alone (List.append_nil _).symm (fun shut => ⟨rfl, shut⟩)

/-- A channel that is closed fails the receive that waits, and keeps its values. -/
theorem close : (s.take (Channel.close s.chan)).Steady := by
  have yields := LawfulChannel.close_yields s.chan
  by_cases receiver : (state s.chan).receiver = true
  · obtain ⟨left, accepted, completion⟩ := yields
    obtain ⟨received, buffer, senders, isOpen⟩ := steady.receiving receiver
    have going := steady.going isOpen
    have suspended := steady.suspended receiver
    have conserved := steady.conserved
    simp only [delivered, received, buffer, List.append_nil] at conserved
    constructor <;> simp [take, left, accepted, completion, Channel.State.fails, receiver,
      delivered, received, buffer, conserved, steady.whole going, going, suspended]
  · have alone : (state s.chan).receiver = false := Bool.eq_false_iff.mpr receiver
    rw [(state s.chan).fails_eq_none.mpr alone] at yields
    exact steady.keeps yields rfl (List.append_nil _).symm (fun _ => ⟨rfl, rfl⟩)

/-- A receive takes the oldest value, and makes room for the first send that waits. -/
theorem receive {range : Range T} (going : s.isOver = false) (outside : s.range.place = .outside)
    (opened : (state s.chan).isOpen = true) (whole : range.Whole)
    (suspended : range.place ≠ .outside) :
    ({ s with range := range }.take (Channel.asyncReceive s.chan)).Steady := by
  obtain ⟨received, alone⟩ := steady.idle outside
  have conserved := steady.conserved
  simp only [delivered, received, List.append_nil] at conserved
  cases Channel.asyncReceive_cases alone with
  | buffered value rest buffer senders yields =>
    obtain ⟨left, accepted, completion⟩ := yields
    rw [buffer] at conserved
    constructor <;> simp [take, left, accepted, completion, delivered, received, conserved, whole,
      going, suspended, alone]
  | refilled value sent rest others buffer senders yields =>
    obtain ⟨left, accepted, completion⟩ := yields
    rw [buffer] at conserved
    constructor <;> simp [take, left, accepted, completion, delivered, received, conserved, whole,
      going, suspended, alone]
  | sent value others buffer senders yields =>
    obtain ⟨left, accepted, completion⟩ := yields
    rw [buffer] at conserved
    constructor <;> simp [take, left, accepted, completion, delivered, received, conserved, whole,
      going, suspended, alone, buffer]
  | waits buffer senders isOpen yields =>
    obtain ⟨left, accepted, completion⟩ := yields
    rw [buffer] at conserved
    constructor <;> simp [take, left, accepted, completion, delivered, received, conserved, whole,
      going, suspended, buffer, senders, isOpen]
  | closed buffer senders isOpen yields => cases isOpen.symm.trans opened

/-- A call of `wait` that finds nothing left in a closed channel, or an open one. -/
theorem wait {next : ChannelLoop C T} (stepped : machine.step s .wait = some next)
    (drained : (state s.chan).isOpen = false → (state s.chan).buffer = []) : next.Steady := by
  simp only [machine, step, Option.ite_none_left_eq_some] at stepped
  obtain ⟨running, waits⟩ := stepped
  have going : s.isOver = false := Bool.eq_false_iff.mpr running
  obtain ⟨range, waited, rfl⟩ := Option.map_eq_some_iff.mp waits
  obtain ⟨outside, returns, suspends⟩ := wait_suspends waited
  have whole : range.Whole :=
    (steady.whole going).channelStep waited (by simp [Range.Served])
  cases isOpen : (state s.chan).isOpen with
  | false =>
    obtain rfl := returns isOpen
    rw [if_pos outside]
    obtain ⟨received, alone⟩ := steady.idle outside
    refine ⟨steady.conserved, ?_, steady.idle, steady.receiving, steady.failed, fun _ => ?_⟩
    · simp
    · exact ⟨received, drained isOpen, isOpen⟩
  | true =>
    have suspended := suspends isOpen
    rw [if_neg suspended]
    exact steady.receive going outside isOpen whole suspended

end Steady

/-- A call of `wait` that finds the channel closed ends the loop, with what is in the
buffer unseen. -/
theorem step_drained {s next : ChannelLoop C T} {event : Event T} (steady : s.Steady)
    (stepped : machine.step s event = some next) (complete : Complete s event next) :
    Drained s event next := by
  rintro rfl closed
  simp only [machine, step, Option.ite_none_left_eq_some] at stepped
  obtain ⟨-, waits⟩ := stepped
  obtain ⟨range, waited, rfl⟩ := Option.map_eq_some_iff.mp waits
  obtain ⟨outside, returns, -⟩ := wait_suspends waited
  obtain rfl := returns closed
  rw [if_pos outside] at complete
  have seen : s.seen = s.accepted := complete rfl
  have conserved := steady.conserved
  simp only [delivered, (steady.idle outside).1, List.append_nil, ← seen] at conserved
  simpa using conserved

variable [LawfulChannel C T]

theorem create_steady (capacity : Nat) : (create capacity : ChannelLoop C T).Steady := by
  have fresh : state (create capacity : ChannelLoop C T).chan = ⟨capacity, [], [], false, true⟩ :=
    LawfulChannel.create_yields capacity
  constructor
  · rw [fresh]
    rfl
  · intro _
    exact Range.create_whole
  · rw [fresh]
    intro _
    exact ⟨rfl, rfl⟩
  · simp [fresh]
  · simp [create]
  · simp [create]

/-- Every step keeps good order, if a call of `wait` that finds the channel closed finds it
empty. -/
theorem step_steady {s next : ChannelLoop C T} {event : Event T} (steady : s.Steady)
    (stepped : machine.step s event = some next) (drained : Drained s event next) :
    next.Steady := by
  cases event with
  | send value =>
    obtain rfl := Option.some.inj stepped
    exact steady.send value
  | close =>
    obtain rfl := Option.some.inj stepped
    exact steady.close
  | wait => exact steady.wait stepped (drained rfl)
  | resume => exact steady.resume stepped

/-- A loop over a channel that ends has seen every value that the channel accepted, in
order, exactly when every call of `wait` that finds the channel closed finds its buffer
empty. -/
theorem loop_visits_all_iff (capacity : Nat) (events : List (Event T)) :
    machine.Along Complete (create capacity : ChannelLoop C T) events ↔
      machine.Along Drained (create capacity : ChannelLoop C T) events := by
  have agree (s : ChannelLoop C T) (event : Event T) (next : ChannelLoop C T) (_ : True)
      (steady : s.Steady) (stepped : machine.step s event = some next) :
      Complete s event next ↔ Drained s event next := by
    constructor
    · exact step_drained steady stepped
    · intro drained
      exact (step_steady steady stepped drained).complete
  have keeps (s : ChannelLoop C T) (event : Event T) (next : ChannelLoop C T) (_ : True)
      (steady : s.Steady) (stepped : machine.step s event = some next)
      (drained : Drained s event next) : next.Steady :=
    step_steady steady stepped drained
  exact machine.along_iff agree keeps events (fun _ _ => trivial) (create_steady capacity)

/-- A value is sent and seen, and then the channel is closed. -/
def closedLate : List (Event Nat) := [.send 7, .wait, .resume, .close, .wait]

theorem loop_visits_all_closedLate :
    machine.Along Complete (create 1 : ChannelLoop (Channel.State Nat) Nat) closedLate := by
  apply (loop_visits_all_iff 1 closedLate).mpr
  refine (machine.along_cons rfl).mpr ⟨nofun, ?_⟩
  refine (machine.along_cons rfl).mpr ⟨fun _ closed => absurd closed (by decide), ?_⟩
  iterate 2 refine (machine.along_cons rfl).mpr ⟨nofun, ?_⟩
  exact (machine.along_cons rfl).mpr ⟨fun _ _ => rfl, trivial⟩

/-- A value is sent, and the channel is closed before the loop looks at it. -/
def closedEarly : List (Event Nat) := [.send 7, .close, .wait]

theorem loop_misses_a_buffered_value :
    ∃ s, machine.run (create 1 : ChannelLoop (Channel.State Nat) Nat) closedEarly = some s ∧
      s.isOver = true ∧ s.accepted = [7] ∧ s.seen = [] ∧
      ¬machine.Along Complete (create 1 : ChannelLoop (Channel.State Nat) Nat) closedEarly := by
  refine ⟨_, rfl, rfl, rfl, rfl, fun along => ?_⟩
  have complete := (((along _ rfl).2 _ rfl).2 _ rfl).1
  exact absurd (complete rfl) (by decide)

end ChannelLoop

end Asioex
