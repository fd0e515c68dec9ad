import Asioex.ForRanges

/-!
# Channels

asio's channel is not part of the library, and so is known by what is documented of it.
A value that is sent goes to the receive that waits, or into the buffer while there is
room; otherwise the send waits until a receive makes room for it. A receive takes the
oldest value and lets in the send that has waited longest; where there is none it waits.
`close` ends the receive that waits and leaves the sends that wait alone. A closed channel
refuses to send, and what it still has can be received; when it has nothing left, a receive
fails. `cancel` ends everything that waits, and an operation that is cancelled ends if it
waits.

A value is accepted when its send has ended in success. A channel here has one consumer,
which starts no receive while it waits for another one.
-/

namespace Asioex

/-- What can be told of a channel: the room in its buffer, the values there, the values of
the sends that wait for room, whether a receive waits, and whether the channel is open. -/
structure Channel.State (T : Type) where
  capacity : Nat
  buffer : List T
  senders : List T
  receiver : Bool
  isOpen : Bool
deriving DecidableEq, Repr

/-- A channel operation's result: the channel, the values accepted by it, and how the
receive that it ends, if it ends one, does so. -/
structure Channel.Result (C T : Type) where
  chan : C
  accepted : List T
  completion : Option (RangeOutcome T)
deriving DecidableEq, Repr

/-- `asio::experimental::basic_channel`, over whatever it consists of. `cancelReceive` and
`cancelSend` are the cancellation of the receive that waits, and of one of the sends. -/
class Channel (C : Type) (T : outParam Type) where
  state : C → Channel.State T
  create : Nat → C
  asyncSend : C → T → Channel.Result C T
  asyncReceive : C → Channel.Result C T
  close : C → Channel.Result C T
  cancel : C → Channel.Result C T
  cancelReceive : C → Channel.Result C T
  cancelSend : C → Nat → Channel.Result C T

namespace Channel

variable {C T : Type}

/-- The operation leaves the channel so, has accepted these values, and has ended a receive
so or has ended none. -/
structure Result.Yields [Channel C T] (result : Result C T) (after : State T)
    (accepted : List T) (completion : Option (RangeOutcome T)) : Prop where
  state : state result.chan = after
  accepted : result.accepted = accepted
  completion : result.completion = completion

/-- How a receive that waits, if one does, is ended without a value. -/
def State.fails (s : State T) : Option (RangeOutcome T) := if s.receiver then some .failed else none

end Channel

open Channel (state) in
/-- What is documented of a channel. -/
class LawfulChannel (C : Type) (T : outParam Type) [Channel C T] : Prop where
  create_yields : ∀ capacity, state (Channel.create capacity : C) = ⟨capacity, [], [], false, true⟩
  asyncSend_closed : ∀ {c : C} {value : T}, (state c).isOpen = false →
    (Channel.asyncSend c value).Yields (state c) [] none
  asyncSend_received : ∀ {c : C} {value : T}, (state c).isOpen = true → (state c).receiver = true →
    (Channel.asyncSend c value).Yields { state c with receiver := false } [value]
      (some (.value value))
  asyncSend_buffered : ∀ {c : C} {value : T}, (state c).isOpen = true →
    (state c).receiver = false → (state c).buffer.length < (state c).capacity →
    (Channel.asyncSend c value).Yields { state c with buffer := (state c).buffer ++ [value] }
      [value] none
  asyncSend_waits : ∀ {c : C} {value : T}, (state c).isOpen = true → (state c).receiver = false →
    ¬(state c).buffer.length < (state c).capacity →
    (Channel.asyncSend c value).Yields { state c with senders := (state c).senders ++ [value] }
      [] none
  asyncReceive_buffered : ∀ {c : C} {value : T} {rest : List T}, (state c).receiver = false →
    (state c).buffer = value :: rest → (state c).senders = [] →
    (Channel.asyncReceive c).Yields { state c with buffer := rest } [] (some (.value value))
  asyncReceive_refilled : ∀ {c : C} {value sent : T} {rest others : List T},
    (state c).receiver = false → (state c).buffer = value :: rest →
    (state c).senders = sent :: others →
    (Channel.asyncReceive c).Yields
      { state c with buffer := rest ++ [sent], senders := others } [sent] (some (.value value))
  asyncReceive_sent : ∀ {c : C} {sent : T} {others : List T}, (state c).receiver = false →
    (state c).buffer = [] → (state c).senders = sent :: others →
    (Channel.asyncReceive c).Yields { state c with senders := others } [sent] (some (.value sent))
  asyncReceive_waits : ∀ {c : C}, (state c).receiver = false → (state c).buffer = [] →
    (state c).senders = [] → (state c).isOpen = true →
    (Channel.asyncReceive c).Yields { state c with receiver := true } [] none
  asyncReceive_closed : ∀ {c : C}, (state c).receiver = false → (state c).buffer = [] →
    (state c).senders = [] → (state c).isOpen = false →
    (Channel.asyncReceive c).Yields (state c) [] (some .failed)
  close_yields : ∀ c : C,
    (Channel.close c).Yields { state c with isOpen := false, receiver := false } [] (state c).fails
  cancel_yields : ∀ c : C,
    (Channel.cancel c).Yields { state c with senders := [], receiver := false } [] (state c).fails
  cancelReceive_yields : ∀ c : C,
    (Channel.cancelReceive c).Yields { state c with receiver := false } [] (state c).fails
  cancelSend_yields : ∀ (c : C) (k : Nat),
    (Channel.cancelSend c k).Yields { state c with senders := (state c).senders.eraseIdx k } [] none

namespace Channel

section Queue

variable {C T : Type}

/-- The value with which a receive ends. -/
def Result.values (result : Result C T) : List T :=
  match result.completion with
  | some (.value value) => [value]
  | _ => []

/-- A receive waits at an empty channel, and a send at a full one. -/
structure State.Sound (s : State T) : Prop where
  bounded : s.buffer.length ≤ s.capacity
  receiving : s.receiver = true → s.buffer = [] ∧ s.senders = [] ∧ s.isOpen = true
  sending : s.senders ≠ [] → s.buffer.length = s.capacity

/-- What an operation leaves: a sound channel of the same capacity, and the values in it
before and those it accepts, less the one that it delivers. -/
structure Keeps [Channel C T] (c : C) (result : Result C T) : Prop where
  sound : (state result.chan).Sound
  conserved : (state c).buffer ++ result.accepted = result.values ++ (state result.chan).buffer
  capacity : (state result.chan).capacity = (state c).capacity

/-- Whatever ends a receive that waits leaves none, and nothing else ends one. -/
structure Ends [Channel C T] (c : C) (result : Result C T) : Prop where
  receiver : (state result.chan).receiver = false
  completion : result.completion = none ↔ (state c).receiver = false

variable [Channel C T] {c : C} {result : Result C T} {after : State T} {accepted : List T}

theorem Result.Yields.ends {completion : Option (RangeOutcome T)}
    (yields : result.Yields after accepted completion) (receiver : after.receiver = false)
    (ended : completion = none ↔ (Channel.state c).receiver = false) : Ends c result :=
  ⟨yields.state ▸ receiver, yields.completion ▸ ended⟩

/-- An operation that delivers a value delivers the one in front. -/
theorem Result.Yields.delivers {value : T}
    (yields : result.Yields after accepted (some (.value value)))
    (sound : after.Sound) (conserved : (Channel.state c).buffer ++ accepted = value :: after.buffer)
    (capacity : after.capacity = (Channel.state c).capacity) : Keeps c result := by
  refine ⟨yields.state ▸ sound, ?_, yields.state ▸ capacity⟩
  simpa [Result.values, yields.state, yields.accepted, yields.completion] using conserved

/-- Any other operation leaves the values as they are, with those it accepts behind them. -/
theorem Result.Yields.holds {completion : Option (RangeOutcome T)}
    (yields : result.Yields after accepted completion)
    (none : ∀ value, completion ≠ some (.value value))
    (sound : after.Sound) (conserved : (Channel.state c).buffer ++ accepted = after.buffer)
    (capacity : after.capacity = (Channel.state c).capacity) : Keeps c result := by
  have delivered : result.values = [] := by
    unfold Result.values
    split
    · next value brought => exact absurd (yields.completion ▸ brought) (none value)
    · rfl
  refine ⟨yields.state ▸ sound, ?_, yields.state ▸ capacity⟩
  simpa [delivered, yields.state, yields.accepted] using conserved

theorem State.fails_ne_value (s : State T) (value : T) : s.fails ≠ some (.value value) := by
  unfold State.fails
  split <;> simp

theorem State.fails_eq_none (s : State T) : s.fails = none ↔ s.receiver = false := by
  cases receiver : s.receiver <;> simp [State.fails, receiver]

variable [LawfulChannel C T]

theorem create_sound (capacity : Nat) : (state (create capacity : C)).Sound := by
  rw [LawfulChannel.create_yields]
  exact ⟨Nat.zero_le _, by simp, by simp⟩

/-- A value that is sent is refused by a closed channel, delivered to the receive that waits,
put into the buffer, or waits itself. -/
inductive Sends (c : C) (value : T) : Prop where
  | closed (isOpen : (state c).isOpen = false)
      (yields : (asyncSend c value).Yields (state c) [] none)
  | received (isOpen : (state c).isOpen = true) (receiver : (state c).receiver = true)
      (yields : (asyncSend c value).Yields { state c with receiver := false } [value]
        (some (.value value)))
  | buffered (isOpen : (state c).isOpen = true) (alone : (state c).receiver = false)
      (room : (state c).buffer.length < (state c).capacity)
      (yields : (asyncSend c value).Yields { state c with buffer := (state c).buffer ++ [value] }
        [value] none)
  | waits (isOpen : (state c).isOpen = true) (alone : (state c).receiver = false)
      (full : ¬(state c).buffer.length < (state c).capacity)
      (yields : (asyncSend c value).Yields { state c with senders := (state c).senders ++ [value] }
        [] none)

/-- A receive takes the oldest value and lets in the send that has waited longest, if one
waits; or nothing is left, and it waits, or fails at a closed channel. -/
inductive Receives (c : C) : Prop where
  | buffered (value : T) (rest : List T) (buffer : (state c).buffer = value :: rest)
      (senders : (state c).senders = [])
      (yields : (asyncReceive c).Yields { state c with buffer := rest } [] (some (.value value)))
  | refilled (value sent : T) (rest others : List T) (buffer : (state c).buffer = value :: rest)
      (senders : (state c).senders = sent :: others)
      (yields : (asyncReceive c).Yields
        { state c with buffer := rest ++ [sent], senders := others } [sent] (some (.value value)))
  | sent (value : T) (others : List T) (buffer : (state c).buffer = [])
      (senders : (state c).senders = value :: others)
      (yields : (asyncReceive c).Yields { state c with senders := others } [value]
        (some (.value value)))
  | waits (buffer : (state c).buffer = []) (senders : (state c).senders = [])
      (isOpen : (state c).isOpen = true)
      (yields : (asyncReceive c).Yields { state c with receiver := true } [] none)
  | closed (buffer : (state c).buffer = []) (senders : (state c).senders = [])
      (isOpen : (state c).isOpen = false)
      (yields : (asyncReceive c).Yields (state c) [] (some .failed))

theorem asyncSend_cases (c : C) (value : T) : Sends c value := by
  cases isOpen : (state c).isOpen with
  | false => exact .closed isOpen (LawfulChannel.asyncSend_closed isOpen)
  | true =>
    cases receiver : (state c).receiver with
    | true => exact .received isOpen receiver (LawfulChannel.asyncSend_received isOpen receiver)
    | false =>
      by_cases room : (state c).buffer.length < (state c).capacity
      · exact .buffered isOpen receiver room
          (LawfulChannel.asyncSend_buffered isOpen receiver room)
      · exact .waits isOpen receiver room (LawfulChannel.asyncSend_waits isOpen receiver room)

theorem asyncReceive_cases (alone : (state c).receiver = false) : Receives c := by
  cases buffer : (state c).buffer with
  | cons value rest =>
    cases senders : (state c).senders with
    | nil =>
      exact .buffered value rest buffer senders
        (LawfulChannel.asyncReceive_buffered alone buffer senders)
    | cons sent others =>
      exact .refilled value sent rest others buffer senders
        (LawfulChannel.asyncReceive_refilled alone buffer senders)
  | nil =>
    cases senders : (state c).senders with
    | cons sent others =>
      exact .sent sent others buffer senders
        (LawfulChannel.asyncReceive_sent alone buffer senders)
    | nil =>
      cases isOpen : (state c).isOpen with
      | true =>
        exact .waits buffer senders isOpen
          (LawfulChannel.asyncReceive_waits alone buffer senders isOpen)
      | false =>
        exact .closed buffer senders isOpen
          (LawfulChannel.asyncReceive_closed alone buffer senders isOpen)

/-- Every operation of a sound channel moves its values on in their order. -/
theorem asyncSend_keeps (sound : (state c).Sound) (value : T) :
    Keeps c (asyncSend c value) := by
  have bounded := sound.bounded
  cases asyncSend_cases c value with
  | closed isOpen yields => exact yields.holds (by simp) sound (List.append_nil _) rfl
  | received isOpen receiver yields =>
    obtain ⟨buffer, senders, -⟩ := sound.receiving receiver
    exact yields.delivers ⟨bounded, by simp, sound.sending⟩ (by simp [buffer]) rfl
  | buffered isOpen alone room yields =>
    have vacant : (state c).senders = [] := by
      by_contra waits
      have full := sound.sending waits
      omega
    refine yields.holds (by simp) ⟨?_, by simp [alone], by simp [vacant]⟩ rfl rfl
    simpa using Nat.succ_le_of_lt room
  | waits isOpen alone full yields =>
    have exactly : (state c).buffer.length = (state c).capacity :=
      Nat.le_antisymm bounded (Nat.le_of_not_lt full)
    exact yields.holds (by simp) ⟨bounded, by simp [alone], fun _ => exactly⟩
      (List.append_nil _) rfl

theorem cancel_keeps (sound : (state c).Sound) : Keeps c (cancel c) :=
  (LawfulChannel.cancel_yields c).holds (state c).fails_ne_value
    ⟨sound.bounded, by simp, by simp⟩ (List.append_nil _) rfl

theorem cancelReceive_keeps (sound : (state c).Sound) : Keeps c (cancelReceive c) :=
  (LawfulChannel.cancelReceive_yields c).holds (state c).fails_ne_value
    ⟨sound.bounded, by simp, sound.sending⟩ (List.append_nil _) rfl

theorem cancelSend_keeps (sound : (state c).Sound) (k : Nat) : Keeps c (cancelSend c k) := by
  refine (LawfulChannel.cancelSend_yields c k).holds (by simp)
    ⟨sound.bounded, ?_, ?_⟩ (List.append_nil _) rfl
  · intro receiver
    obtain ⟨buffer, senders, isOpen⟩ := sound.receiving receiver
    exact ⟨buffer, by simp [senders], isOpen⟩
  · intro waits
    apply sound.sending
    rintro none
    simp [none] at waits

theorem cancelReceive_ends (c : C) : Ends c (cancelReceive c) :=
  (LawfulChannel.cancelReceive_yields c).ends rfl (state c).fails_eq_none

/-- A receive that nobody is ahead of ends at once, or waits. -/
theorem asyncReceive_waits (alone : (state c).receiver = false) :
    (state (asyncReceive c).chan).receiver = true ↔ (asyncReceive c).completion = none := by
  cases asyncReceive_cases alone with
  | buffered value rest buffer senders yields => simp [yields.state, yields.completion, alone]
  | refilled value sent rest others buffer senders yields =>
    simp [yields.state, yields.completion, alone]
  | sent value others buffer senders yields => simp [yields.state, yields.completion, alone]
  | waits buffer senders isOpen yields => simp [yields.state, yields.completion]
  | closed buffer senders isOpen yields => simp [yields.state, yields.completion, alone]

end Queue

section Buffered

variable {T : Type}

namespace State

def asyncSend (s : State T) (value : T) : Result (State T) T :=
  if !s.isOpen then ⟨s, [], none⟩
  else if s.receiver then ⟨{ s with receiver := false }, [value], some (.value value)⟩
  else if s.buffer.length < s.capacity then ⟨{ s with buffer := s.buffer ++ [value] }, [value], none⟩
  else ⟨{ s with senders := s.senders ++ [value] }, [], none⟩

def asyncReceive (s : State T) : Result (State T) T :=
  match s.buffer, s.senders with
  | value :: rest, [] => ⟨{ s with buffer := rest }, [], some (.value value)⟩
  | value :: rest, sent :: others =>
    ⟨{ s with buffer := rest ++ [sent], senders := others }, [sent], some (.value value)⟩
  | [], sent :: others => ⟨{ s with senders := others }, [sent], some (.value sent)⟩
  | [], [] => if s.isOpen then ⟨{ s with receiver := true }, [], none⟩ else ⟨s, [], some .failed⟩

end State

/-- A channel that is no more than what can be told of it. -/
instance : Channel (State T) T where
  state s := s
  create capacity := ⟨capacity, [], [], false, true⟩
  asyncSend := State.asyncSend
  asyncReceive := State.asyncReceive
  close s := ⟨{ s with isOpen := false, receiver := false }, [], s.fails⟩
  cancel s := ⟨{ s with senders := [], receiver := false }, [], s.fails⟩
  cancelReceive s := ⟨{ s with receiver := false }, [], s.fails⟩
  cancelSend s k := ⟨{ s with senders := s.senders.eraseIdx k }, [], none⟩

theorem State.asyncSend_eq (s : State T) (value : T) :
    Channel.asyncSend s value = s.asyncSend value := rfl

theorem State.asyncReceive_eq (s : State T) : Channel.asyncReceive s = s.asyncReceive := rfl

theorem State.state_eq (s : State T) : state s = s := rfl

instance : LawfulChannel (State T) T where
  create_yields _ := rfl
  asyncSend_closed {s value} closed := by
    rw [State.state_eq] at closed
    constructor <;> simp [State.asyncSend_eq, State.state_eq, State.asyncSend, closed]
  asyncSend_received {s value} isOpen receiver := by
    rw [State.state_eq] at isOpen receiver
    constructor <;> simp [State.asyncSend_eq, State.state_eq, State.asyncSend, isOpen, receiver]
  asyncSend_buffered {s value} isOpen alone room := by
    rw [State.state_eq] at isOpen alone room
    constructor <;> simp [State.asyncSend_eq, State.state_eq, State.asyncSend, isOpen, alone, room]
  asyncSend_waits {s value} isOpen alone full := by
    rw [State.state_eq] at isOpen alone full
    constructor <;> simp [State.asyncSend_eq, State.state_eq, State.asyncSend, isOpen, alone, full]
  asyncReceive_buffered {s value rest} _ buffer senders := by
    rw [State.state_eq] at buffer senders
    constructor <;> simp [State.asyncReceive_eq, State.state_eq, State.asyncReceive, buffer, senders]
  asyncReceive_refilled {s value sent rest others} _ buffer senders := by
    rw [State.state_eq] at buffer senders
    constructor <;> simp [State.asyncReceive_eq, State.state_eq, State.asyncReceive, buffer, senders]
  asyncReceive_sent {s sent others} _ buffer senders := by
    rw [State.state_eq] at buffer senders
    constructor <;> simp [State.asyncReceive_eq, State.state_eq, State.asyncReceive, buffer, senders]
  asyncReceive_waits {s} _ buffer senders isOpen := by
    rw [State.state_eq] at buffer senders isOpen
    constructor <;>
      simp [State.asyncReceive_eq, State.state_eq, State.asyncReceive, buffer, senders, isOpen]
  asyncReceive_closed {s} _ buffer senders closed := by
    rw [State.state_eq] at buffer senders closed
    constructor <;>
      simp [State.asyncReceive_eq, State.state_eq, State.asyncReceive, buffer, senders, closed]
  close_yields _ := ⟨rfl, rfl, rfl⟩
  cancel_yields _ := ⟨rfl, rfl, rfl⟩
  cancelReceive_yields _ := ⟨rfl, rfl, rfl⟩
  cancelSend_yields _ _ := ⟨rfl, rfl, rfl⟩

end Buffered

end Channel

end Asioex
