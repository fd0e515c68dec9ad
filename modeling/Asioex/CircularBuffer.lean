import Asioex.Lib.Fifo

/-!
# The expanding circular buffer

Elements are stored around an array, from the front position on. A push into a full
buffer first copies them to an array of twice the size, from its start on. Full and empty
buffers have their two positions equal, and `size_` tells them apart.

A push can fail at several places: the limit of `std::size_t`, an allocation (with the
construction of the new array's elements), the copy of an element during growth, and the
assignment of the new element, which leaves something in its slot. A failure is an
exception out of `push`, and leaves what had been changed by then.

What the buffer holds is its array, rotated to the front position, up to its size.
-/

namespace Asioex

/-- Where a push fails, if it gets there. -/
inductive Fault (T : Type) where
  | none
  | allocation
  | copy (i : Nat)
  | assignment (left : T)
deriving DecidableEq, Repr

/-- `expanding_circular_buffer`, with whether its assertions held so far. -/
structure ExpandingCircularBuffer (T : Type) where
  capacity : Nat
  size : Nat
  frontPos : Nat
  backPos : Nat
  storage : Option (List T)
  asserted : Bool
deriving DecidableEq, Repr

namespace ExpandingCircularBuffer

variable {T : Type}

def initialCapacity : Nat := 16

def create : ExpandingCircularBuffer T := ⟨0, 0, 0, 0, none, true⟩

/-- The elements from one position up to another. -/
def range (s : ExpandingCircularBuffer T) (first last : Nat) : List T :=
  ((s.storage.getD []).take last).drop first

/-- What `grow` copies: two ranges if the buffer is split, and one otherwise. -/
def copied (s : ExpandingCircularBuffer T) : List T :=
  if s.backPos ≤ s.frontPos then s.range s.frontPos s.capacity ++ s.range 0 s.backPos
  else s.range s.frontPos s.backPos

/-- `size_ += 1`, and an assignment to the slot at the back. -/
def store (s : ExpandingCircularBuffer T) (value : T) : ExpandingCircularBuffer T :=
  { s with
    size := s.size + 1
    storage := s.storage.map (·.set s.backPos value) }

/-- `if (++back_pos_ >= capacity_) back_pos_ -= capacity_`. -/
def advanceBack (s : ExpandingCircularBuffer T) : ExpandingCircularBuffer T :=
  { s with
    backPos := if s.capacity ≤ s.backPos + 1 then s.backPos + 1 - s.capacity else s.backPos + 1 }

/-- `pop`. Without an element at the front it has no result. -/
def pop (s : ExpandingCircularBuffer T) : Option (T × ExpandingCircularBuffer T) :=
  ((s.storage.getD [])[s.frontPos]?).map (fun result =>
    (result, { s with
      asserted := s.asserted && s.size != 0
      frontPos :=
        if s.capacity ≤ s.frontPos + 1 then s.frontPos + 1 - s.capacity else s.frontPos + 1
      size := s.size - 1 }))

section Push

variable [Inhabited T]

/-- `std::make_unique<T[]>(n)`. -/
def allocate (n : Nat) : List T := List.replicate n default

/-- `init`, with whether it throws. -/
def init (s : ExpandingCircularBuffer T) (fault : Fault T) : ExpandingCircularBuffer T × Bool :=
  match fault with
  | .allocation => (s, true)
  | _ =>
    ({ s with
      storage := some (allocate initialCapacity)
      capacity := initialCapacity
      frontPos := 0
      backPos := 0 }, false)

/-- The new array, when the elements have been copied to its start. -/
def relocate (s : ExpandingCircularBuffer T) : ExpandingCircularBuffer T :=
  { s with
    asserted := s.asserted && s.copied.length == s.size
    storage := some (s.copied ++ (allocate (s.capacity * 2)).drop s.copied.length)
    capacity := s.capacity * 2
    frontPos := 0
    backPos := s.copied.length }

/-- `grow`, with whether it throws, for the largest value of a `std::size_t`. -/
def grow (sizeMax : Nat) (s : ExpandingCircularBuffer T) (fault : Fault T) :
    ExpandingCircularBuffer T × Bool :=
  if sizeMax / 2 < s.capacity then (s, true)
  else
    match fault with
    | .allocation => (s, true)
    | .copy i => if i < s.copied.length then (s, true) else (s.relocate, false)
    | _ => (s.relocate, false)

/-- The room that `push` makes, if there is none. -/
def reserve (sizeMax : Nat) (s : ExpandingCircularBuffer T) (fault : Fault T) :
    ExpandingCircularBuffer T × Bool :=
  if s.size = s.capacity then if s.storage.isNone then s.init fault else s.grow sizeMax fault
  else (s, false)

/-- `push`, with whether it throws. -/
def push (sizeMax : Nat) (s : ExpandingCircularBuffer T) (p : T) (fault : Fault T) :
    ExpandingCircularBuffer T × Bool :=
  match s.reserve sizeMax fault with
  | (failed, true) => (failed, true)
  | (ready, false) =>
    match fault with
    | .assignment left => (ready.store left, true)
    | _ => ((ready.store p).advanceBack, false)

end Push

/-- What the buffer holds, oldest first. -/
def contents (s : ExpandingCircularBuffer T) : List T :=
  ((s.storage.getD []).rotate s.frontPos).take s.size

/-- The positions are inside the array, the back one is `size_` ahead of the front one, and
every assertion held. There are no positions before there is an array. -/
structure Formed (s : ExpandingCircularBuffer T) : Prop where
  slots : (s.storage.getD []).length = s.capacity
  allocated : s.storage ≠ none ↔ 0 < s.capacity
  front : s.storage ≠ none → s.frontPos < s.capacity
  back : s.backPos = (s.frontPos + s.size) % s.capacity
  bound : s.size ≤ s.capacity
  asserted : s.asserted = true

/-- The code's step of a position around the array. -/
theorem wrap_eq {position capacity : Nat} (inside : position < capacity) :
    (if capacity ≤ position + 1 then position + 1 - capacity else position + 1) =
      (position + 1) % capacity := by
  split
  · next wraps =>
    have last : position + 1 = capacity := by omega
    simp [last]
  · next within => exact (Nat.mod_eq_of_lt (by omega)).symm

theorem create_formed : (create : ExpandingCircularBuffer T).Formed where
  slots := rfl
  allocated := by simp [create]
  front := by simp [create]
  back := rfl
  bound := Nat.le_refl _
  asserted := rfl

/-- With room for one more element. -/
structure Ready (s : ExpandingCircularBuffer T) : Prop where
  formed : s.Formed
  room : s.size < s.capacity

namespace Formed

variable {s : ExpandingCircularBuffer T} (formed : s.Formed)
include formed

theorem contents_length : s.contents.length = s.size := by
  have bound := formed.bound
  simp only [contents, List.length_take, List.length_rotate, formed.slots]
  omega

/-- The back position follows the front one. -/
theorem back_lt (allocated : s.storage ≠ none) : s.backPos < s.capacity := by
  rw [formed.back]
  exact Nat.mod_lt _ (formed.allocated.mp allocated)

/-- Where the elements are: in one range, or in two when the buffer is split. A full buffer is
split. -/
theorem copied_eq (full : s.size = s.capacity) (allocated : s.storage ≠ none) :
    s.copied = s.contents := by
  have front := formed.front allocated
  have back : s.backPos = s.frontPos := by
    rw [formed.back, full, Nat.add_mod_right, Nat.mod_eq_of_lt front]
  have slots := formed.slots
  have before : s.frontPos ≤ (s.storage.getD []).length := by omega
  simp only [copied, back, Nat.le_refl, ↓reduceIte, range, contents, full]
  rw [List.rotate_eq_drop_append_take before, ← slots, List.take_length, List.drop_zero]
  exact (List.take_of_length_le (by simp; omega)).symm

/-- The array, with both positions inside. -/
theorem array (positive : 0 < s.capacity) : ∃ array, s.storage = some array ∧
    array.length = s.capacity ∧ s.frontPos < s.capacity ∧ s.backPos < s.capacity := by
  have allocated : s.storage ≠ none := formed.allocated.mpr positive
  obtain ⟨array, storage⟩ := Option.ne_none_iff_exists'.mp allocated
  have slots := formed.slots
  rw [storage, Option.getD_some] at slots
  exact ⟨array, storage, slots, formed.front allocated, formed.back_lt allocated⟩

end Formed

/-- A write to the slot at the back, and a step of the back position, push at the back. -/
theorem Ready.stored {s : ExpandingCircularBuffer T} (ready : s.Ready) (value : T) :
    (s.store value).advanceBack.Formed ∧
      (s.store value).advanceBack.contents = s.contents ++ [value] := by
  obtain ⟨formed, room⟩ := ready
  obtain ⟨array, storage, slots, front, back⟩ := formed.array (by omega)
  constructor
  · refine ⟨?_, ?_, fun _ => front, ?_, room, formed.asserted⟩
    · simp [store, advanceBack, storage, slots]
    · simpa [store, advanceBack, storage] using formed.allocated
    · have next : (s.frontPos + (s.size + 1)) % s.capacity = (s.backPos + 1) % s.capacity := by
        rw [formed.back, Nat.mod_add_mod, Nat.add_assoc]
      change (if s.capacity ≤ s.backPos + 1 then s.backPos + 1 - s.capacity else s.backPos + 1) =
        (s.frontPos + (s.size + 1)) % s.capacity
      rw [next, wrap_eq back]
  · have written : (s.store value).advanceBack.contents =
        ((array.set s.backPos value).rotate s.frontPos).take (s.size + 1) := by
      simp [contents, store, advanceBack, storage]
    have before : s.contents = (array.rotate s.frontPos).take s.size := by
      simp [contents, storage]
    rw [written, before, formed.back, ← slots]
    exact List.take_rotate_set array s.frontPos s.size (slots ▸ room) value

/-- A pop takes the oldest element off the front. -/
theorem Formed.popped {s : ExpandingCircularBuffer T} (formed : s.Formed) (present : s.size ≠ 0) :
    ∃ result next, s.pop = some (result, next) ∧ s.contents = result :: next.contents ∧
      next.Formed ∧ next.capacity = s.capacity := by
  have bound := formed.bound
  obtain ⟨array, storage, slots, front, -⟩ := formed.array (by omega)
  have inside : s.frontPos < array.length := by omega
  obtain ⟨rest, size⟩ := Nat.exists_eq_succ_of_ne_zero present
  let next : ExpandingCircularBuffer T :=
    { s with
      asserted := s.asserted && s.size != 0
      frontPos := (s.frontPos + 1) % s.capacity
      size := s.size - 1 }
  have position : (if s.capacity ≤ s.frontPos + 1 then s.frontPos + 1 - s.capacity
      else s.frontPos + 1) = (s.frontPos + 1) % s.capacity := wrap_eq front
  have pops : s.pop = some (array[s.frontPos], next) := by
    simp [pop, storage, List.getElem?_eq_getElem inside, position, next]
  have holds : s.contents = array[s.frontPos] :: next.contents := by
    have reads := List.take_rotate_succ array s.frontPos rest (by omega) inside
    simpa [contents, storage, size, next, slots] using reads
  have keeps : next.Formed := by
    refine ⟨formed.slots, formed.allocated, fun _ => Nat.mod_lt _ (by omega), ?_, ?_, ?_⟩
    · change s.backPos = ((s.frontPos + 1) % s.capacity + (s.size - 1)) % s.capacity
      rw [Nat.mod_add_mod, formed.back]
      congr 1
      omega
    · exact Nat.le_trans (Nat.sub_le _ _) bound
    · simp [next, formed.asserted, present]
  exact ⟨_, next, pops, holds, keeps, rfl⟩

/-- A full buffer that has reached the limit: `grow` refuses. -/
def Limited (sizeMax : Nat) (s : ExpandingCircularBuffer T) : Prop :=
  s.storage ≠ none ∧ s.size = s.capacity ∧ sizeMax / 2 < s.capacity

/-- A buffer with room for one more element, in place of another one: what it holds is the
same. Unless it is the first array, it has not grown beyond the limit. -/
structure Makes (sizeMax : Nat) (s next : ExpandingCircularBuffer T) : Prop where
  ready : next.Ready
  contents : next.contents = s.contents
  capacity : next.capacity ≤ max s.capacity (max initialCapacity sizeMax)

section Push

variable [Inhabited T]

/-- The first array holds nothing. -/
theorem Formed.initialised {s : ExpandingCircularBuffer T} (formed : s.Formed)
    (fresh : s.storage = none) {fault : Fault T} (allocates : fault ≠ .allocation) (sizeMax : Nat) :
    ∃ ready, s.init fault = (ready, false) ∧ s.Makes sizeMax ready := by
  have empty : s.size = 0 := by
    have bound := formed.bound
    have unallocated : ¬0 < s.capacity := fun some => formed.allocated.mpr some fresh
    omega
  let ready : ExpandingCircularBuffer T :=
    { s with
      storage := some (allocate initialCapacity)
      capacity := initialCapacity
      frontPos := 0
      backPos := 0 }
  have given : s.init fault = (ready, false) := by
    cases fault with
    | allocation => exact absurd rfl allocates
    | none => rfl
    | copy i => rfl
    | assignment left => rfl
  have positive : 0 < initialCapacity := by decide
  have keeps : ready.Formed := by
    refine ⟨List.length_replicate, ?_, fun _ => positive, ?_, ?_, formed.asserted⟩
    · simp [ready, positive]
    · simp [ready, empty]
    · simp [ready, empty]
  refine ⟨ready, given, ⟨keeps, ?_⟩, ?_, ?_⟩
  · change s.size < initialCapacity
    omega
  · simp [contents, ready, empty]
  · change initialCapacity ≤ _
    omega

/-- Growth moves the elements to the start of the new array, in their order. -/
theorem Formed.relocated {s : ExpandingCircularBuffer T} (formed : s.Formed)
    (full : s.size = s.capacity) (allocated : s.storage ≠ none) {sizeMax : Nat}
    (within : ¬sizeMax / 2 < s.capacity) : s.Makes sizeMax s.relocate := by
  have positive : 0 < s.capacity := formed.allocated.mp allocated
  have copied : s.copied = s.contents := formed.copied_eq full allocated
  have length : s.copied.length = s.size := by rw [copied, formed.contents_length]
  have keeps : s.relocate.Formed := by
    refine ⟨?_, ?_, ?_, ?_, ?_, ?_⟩
    · simp [relocate, allocate, length]
      omega
    · simp [relocate, positive]
    · simp [relocate, positive]
    · simp only [relocate, length, Nat.zero_add]
      exact (Nat.mod_eq_of_lt (by omega)).symm
    · simp only [relocate]
      omega
    · simp [relocate, formed.asserted, length]
  refine ⟨⟨keeps, ?_⟩, ?_, ?_⟩
  · simp only [relocate]
    omega
  · rw [← copied]
    simp only [contents, relocate, Option.getD_some, List.rotate_zero]
    rw [← length, List.take_left]
  · simp only [relocate]
    omega

/-- `push` makes room, or throws while nothing has changed. -/
theorem Formed.reserved {s : ExpandingCircularBuffer T} (formed : s.Formed) (sizeMax : Nat)
    (fault : Fault T) :
    s.reserve sizeMax fault = (s, true) ∨
      ∃ ready, s.reserve sizeMax fault = (ready, false) ∧ s.Makes sizeMax ready := by
  by_cases full : s.size = s.capacity
  · by_cases fresh : s.storage = none
    · have initialises : s.reserve sizeMax fault = s.init fault := by simp [reserve, full, fresh]
      rw [initialises]
      by_cases fails : fault = .allocation
      · subst fails
        exact .inl rfl
      · exact .inr (formed.initialised fresh fails sizeMax)
    · have grows : s.reserve sizeMax fault = s.grow sizeMax fault := by
        simp [reserve, full, fresh]
      rw [grows]
      by_cases limit : sizeMax / 2 < s.capacity
      · exact .inl (by simp [grow, limit])
      · have moved : s.Makes sizeMax s.relocate := formed.relocated full fresh limit
        simp only [grow, limit, ↓reduceIte]
        cases fault with
        | none => exact .inr ⟨_, rfl, moved⟩
        | allocation => exact .inl rfl
        | copy i =>
          by_cases inside : i < s.copied.length
          · exact .inl (by simp [inside])
          · exact .inr ⟨_, by simp [inside], moved⟩
        | assignment left => exact .inr ⟨_, rfl, moved⟩
  · have room : s.size < s.capacity := Nat.lt_of_le_of_ne formed.bound full
    refine .inr ⟨s, by simp [reserve, full], ⟨formed, room⟩, rfl, ?_⟩
    omega

/-- Without a fault, only the limit throws. -/
theorem reserve_none {s : ExpandingCircularBuffer T} {sizeMax : Nat} :
    (s.reserve sizeMax .none).2 = true ↔ s.Limited sizeMax := by
  by_cases full : s.size = s.capacity
  · by_cases fresh : s.storage = none
    · simp [reserve, full, fresh, init, Limited]
    · by_cases limit : sizeMax / 2 < s.capacity
      · simp [reserve, full, fresh, grow, limit, Limited]
      · simp [reserve, full, fresh, grow, limit, Limited]
  · simp [reserve, full, Limited]

/-- Without a fault, a push throws where `reserve` does. -/
theorem push_refused (s : ExpandingCircularBuffer T) (sizeMax : Nat) (value : T) :
    (s.push sizeMax value .none).2 = true ↔ s.Limited sizeMax := by
  rw [← reserve_none]
  cases room : s.reserve sizeMax .none with
  | mk ready threw => cases threw <;> simp [push, room]

/-- A push that does not throw appends its element. -/
theorem Formed.pushed {s next : ExpandingCircularBuffer T} (formed : s.Formed) {sizeMax : Nat}
    {value : T} {fault : Fault T} (returned : s.push sizeMax value fault = (next, false)) :
    next.Formed ∧ next.contents = s.contents ++ [value] ∧
      next.capacity ≤ max s.capacity (max initialCapacity sizeMax) := by
  cases formed.reserved sizeMax fault with
  | inl refused => simp [push, refused] at returned
  | inr room =>
    obtain ⟨ready, made, makes⟩ := room
    have pushes : (ready.store value).advanceBack = next := by
      cases fault with
      | assignment left => simp [push, made] at returned
      | none => simpa [push, made] using returned
      | allocation => simpa [push, made] using returned
      | copy i => simpa [push, made] using returned
    obtain ⟨keeps, appended⟩ := makes.ready.stored value
    subst pushes
    exact ⟨keeps, appended.trans (congrArg (· ++ [value]) makes.contents), makes.capacity⟩

end Push

end ExpandingCircularBuffer

/-- A buffer in use, and what its pops returned, in order. -/
structure BufferRun (T : Type) where
  buffer : ExpandingCircularBuffer T
  popped : List T
deriving DecidableEq, Repr

namespace BufferRun

variable {T : Type} [Inhabited T]

def create : BufferRun T := ⟨.create, []⟩

/-- `pop` is called when `size()` is positive only, and a push that throws ends the run. -/
def step (sizeMax : Nat) (s : BufferRun T) : Fifo.Event T → Option (BufferRun T)
  | .push value =>
    if (s.buffer.push sizeMax value .none).2 then none
    else some { s with buffer := (s.buffer.push sizeMax value .none).1 }
  | .pop =>
    if s.buffer.size = 0 then none
    else s.buffer.pop.map (fun result => ⟨result.2, s.popped ++ [result.1]⟩)

def machine (sizeMax : Nat) : Machine (BufferRun T) (Fifo.Event T) := ⟨step sizeMax⟩

/-- The queue that the buffer is. -/
def queue (s : BufferRun T) : Fifo T := ⟨s.buffer.contents, s.popped⟩

/-- A well-formed buffer, within the limit if its first array is. -/
structure Sound (sizeMax : Nat) (s : BufferRun T) : Prop where
  formed : s.buffer.Formed
  capacity : s.buffer.capacity ≤ max ExpandingCircularBuffer.initialCapacity sizeMax

omit [Inhabited T] in
theorem create_sound (sizeMax : Nat) : (create : BufferRun T).Sound sizeMax where
  formed := ExpandingCircularBuffer.create_formed
  capacity := Nat.zero_le _

/-- Only the limit refuses a push. -/
theorem push_refused (sizeMax : Nat) (s : BufferRun T) (value : T) :
    step sizeMax s (.push value) = none ↔ s.buffer.Limited sizeMax := by
  simp [step, ← s.buffer.push_refused sizeMax value]

namespace Sound

variable {sizeMax : Nat} {s : BufferRun T} (sound : s.Sound sizeMax)
include sound

/-- Only an empty buffer is not popped. -/
theorem pop_refused : step sizeMax s .pop = none ↔ s.buffer.contents = [] := by
  have length := sound.formed.contents_length
  by_cases empty : s.buffer.size = 0
  · have holds : s.buffer.contents = [] := List.length_eq_zero_iff.mp (by omega)
    simp [step, empty, holds]
  · obtain ⟨result, next, pops, holds, -⟩ := sound.formed.popped empty
    simp [step, empty, pops, holds]

/-- A step of the buffer is a step of the queue. -/
theorem stepped {event : Fifo.Event T} {next : BufferRun T}
    (taken : step sizeMax s event = some next) :
    next.Sound sizeMax ∧ Fifo.machine.step s.queue event = some next.queue := by
  have within := sound.capacity
  cases event with
  | push value =>
    cases pushes : s.buffer.push sizeMax value .none with
    | mk buffer threw =>
      cases threw with
      | true => simp [step, pushes] at taken
      | false =>
        obtain ⟨keeps, appended, capacity⟩ := sound.formed.pushed pushes
        have bounded := Nat.le_trans capacity (Nat.max_le.mpr ⟨within, Nat.le_refl _⟩)
        obtain rfl : { s with buffer := buffer } = next := by simpa [step, pushes] using taken
        refine ⟨⟨keeps, bounded⟩, ?_⟩
        simp [Fifo.machine, Fifo.step, queue, appended]
  | pop =>
    by_cases empty : s.buffer.size = 0
    · simp [step, empty] at taken
    · obtain ⟨result, buffer, pops, holds, keeps, capacity⟩ := sound.formed.popped empty
      obtain rfl : ⟨buffer, s.popped ++ [result]⟩ = next := by
        simpa [step, empty, pops] using taken
      refine ⟨⟨keeps, Nat.le_trans (Nat.le_of_eq capacity) within⟩, ?_⟩
      simp [Fifo.machine, Fifo.step, queue, holds]

end Sound

/-- A buffer is in the state of the queue that the same events lead to. -/
theorem run_sound {sizeMax : Nat} {events : List (Fifo.Event T)} {s : BufferRun T}
    (ran : (machine sizeMax).run create events = some s) :
    s.Sound sizeMax ∧ Fifo.machine.run Fifo.create events = some s.queue := by
  have keeps (past : List (Fifo.Event T)) (s : BufferRun T) (event : Fifo.Event T)
      (next : BufferRun T)
      (law : s.Sound sizeMax ∧ Fifo.machine.run Fifo.create past = some s.queue)
      (taken : step sizeMax s event = some next) :
      next.Sound sizeMax ∧ Fifo.machine.run Fifo.create (past ++ [event]) = some next.queue := by
    obtain ⟨sound, before⟩ := law
    obtain ⟨kept, follows⟩ := sound.stepped taken
    exact ⟨kept, Fifo.machine.run_snoc.mpr ⟨_, before, follows⟩⟩
  exact (machine sizeMax).run_history keeps ⟨create_sound sizeMax, rfl⟩ ran

/-- The buffer is a first-in, first-out queue: pushes and pops do to it, and return, what they
do to a list. What was pushed was popped or is in it, in order. Its positions are well formed,
its assertions hold, only the limit refuses a push and only an empty buffer is not popped. -/
theorem refines_fifo {sizeMax : Nat} {events : List (Fifo.Event T)} {s : BufferRun T}
    (ran : (machine sizeMax).run create events = some s) :
    Fifo.machine.run Fifo.create events = some ⟨s.buffer.contents, s.popped⟩ ∧
      Fifo.pushed events = s.popped ++ s.buffer.contents ∧
      s.buffer.size = s.buffer.contents.length ∧
      (s.buffer.storage ≠ none →
        s.buffer.frontPos < s.buffer.capacity ∧ s.buffer.backPos < s.buffer.capacity ∧
          s.buffer.backPos = (s.buffer.frontPos + s.buffer.size) % s.buffer.capacity) ∧
      s.buffer.size ≤ s.buffer.capacity ∧
      s.buffer.capacity ≤ max ExpandingCircularBuffer.initialCapacity sizeMax ∧
      s.buffer.asserted = true ∧
      ((machine sizeMax).step s .pop = none ↔ s.buffer.contents = []) ∧
      ∀ value, (machine sizeMax).step s (.push value) = none ↔ s.buffer.Limited sizeMax := by
  obtain ⟨sound, same⟩ := run_sound ran
  have formed := sound.formed
  refine ⟨same, Fifo.run_pushed same, formed.contents_length.symm, fun allocated => ?_,
    formed.bound, sound.capacity, formed.asserted, sound.pop_refused, s.push_refused sizeMax⟩
  exact ⟨formed.front allocated, formed.back_lt allocated, formed.back⟩

/-- Pushes that split the first array fill it, and two more make it grow. -/
def splitGrowth : List (Fifo.Event Nat) :=
  (List.range 10).map .push ++ List.replicate 7 .pop ++ (List.range' 10 15).map .push

theorem refines_fifo_splitGrowth : ∃ s : BufferRun Nat,
    (machine 1024).run create splitGrowth = some s ∧ s.buffer.capacity = 32 ∧
      s.popped = List.range 7 ∧ Fifo.pushed splitGrowth = s.popped ++ s.buffer.contents := by
  have completes : ((machine 1024).run create splitGrowth).isSome = true := by decide
  obtain ⟨s, ran⟩ := Option.isSome_iff_exists.mp completes
  have last : ((machine 1024).run create splitGrowth).map (fun s => (s.buffer.capacity, s.popped)) =
      some (32, List.range 7) := by decide
  rw [ran, Option.map_some, Option.some.injEq, Prod.mk.injEq] at last
  exact ⟨s, ran, last.1, last.2, (refines_fifo ran).2.1⟩

end BufferRun

end Asioex
