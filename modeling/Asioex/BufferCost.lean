import Asioex.CircularBufferFailures

/-!
# What the growth of the buffer costs

A push into a full buffer copies all of its elements. The array has twice the size then, so
that as many elements have to be pushed before the next time: over a whole run each push pays
for the copy of two elements and for its own assignment. A push that throws during the growth
has copied elements for nothing.

The array is never given back. It has at most twice the size that the buffer had at some moment
before, unless it is the first one.

None of this needs the buffer to be well formed: after an assignment that throws, `size_`
counts an element too many, and the array still doubles only when `size_` reaches its length.
-/

namespace Asioex

namespace ExpandingCircularBuffer

variable {T : Type}

/-- The array has the length that the buffer says. -/
def Sized (s : ExpandingCircularBuffer T) : Prop := (s.storage.getD []).length = s.capacity

/-- No more is copied than there is. -/
theorem Sized.copied_le {s : ExpandingCircularBuffer T} (sized : s.Sized) :
    s.copied.length ≤ s.capacity := by
  have length : (s.storage.getD []).length = s.capacity := sized
  unfold copied
  split <;> simp only [range, List.length_append, List.length_drop, List.length_take, length] <;>
    omega

section Push

variable [Inhabited T]

/-- The elements that `grow` copies, up to where it throws. -/
def growCopies (sizeMax : Nat) (s : ExpandingCircularBuffer T) (fault : Fault T) : Nat :=
  if sizeMax / 2 < s.capacity then 0
  else
    match fault with
    | .allocation => 0
    | .copy i => min i s.copied.length
    | _ => s.copied.length

/-- The elements that are copied to make room. -/
def reserveCopies (sizeMax : Nat) (s : ExpandingCircularBuffer T) (fault : Fault T) : Nat :=
  if s.size = s.capacity then if s.storage.isNone then 0 else s.growCopies sizeMax fault else 0

/-- The elements that `push` copies: those that make room, and the new one. -/
def pushCopies (sizeMax : Nat) (s : ExpandingCircularBuffer T) (fault : Fault T) : Nat :=
  s.reserveCopies sizeMax fault + if (s.reserve sizeMax fault).2 then 0 else 1

/-- What an attempt to make room comes to: it throws and changes nothing, there is room, there
is no array yet, or the buffer is full and the array doubles. Elements are copied in the last
case only, or if it throws there. -/
inductive Reserving (s : ExpandingCircularBuffer T) (copies : Nat) :
    ExpandingCircularBuffer T × Bool → Prop where
  | threw : Reserving s copies (s, true)
  | roomy (none : copies = 0) : Reserving s copies (s, false)
  | first (ready : ExpandingCircularBuffer T) (sized : ready.Sized) (size : ready.size = s.size)
      (empty : s.size = 0) (capacity : ready.capacity = initialCapacity) (none : copies = 0) :
      Reserving s copies (ready, false)
  | grown (ready : ExpandingCircularBuffer T) (sized : ready.Sized) (size : ready.size = s.size)
      (full : s.size = s.capacity) (capacity : ready.capacity = s.capacity * 2)
      (all : copies ≤ s.capacity) : Reserving s copies (ready, false)

/-- The new array is twice as long. -/
theorem Sized.relocate {s : ExpandingCircularBuffer T} (sized : s.Sized) : s.relocate.Sized := by
  have copied := sized.copied_le
  simp only [Sized, ExpandingCircularBuffer.relocate, Option.getD_some, allocate,
    List.length_append, List.length_drop, List.length_replicate]
  omega

theorem Sized.grows {s : ExpandingCircularBuffer T} (sized : s.Sized)
    (full : s.size = s.capacity) (sizeMax : Nat) (fault : Fault T) :
    Reserving s (s.growCopies sizeMax fault) (s.grow sizeMax fault) := by
  have copied := sized.copied_le
  have relocated (copies : Nat) (all : copies ≤ s.capacity) :
      Reserving s copies (s.relocate, false) :=
    .grown s.relocate sized.relocate rfl full rfl all
  unfold grow growCopies
  by_cases limit : sizeMax / 2 < s.capacity
  · rw [if_pos limit, if_pos limit]
    exact .threw
  · rw [if_neg limit, if_neg limit]
    cases fault with
    | none => exact relocated _ copied
    | allocation => exact .threw
    | copy i =>
      by_cases inside : i < s.copied.length
      · simp only [inside, ↓reduceIte]
        exact .threw
      · simp only [inside, ↓reduceIte]
        exact relocated _ (Nat.le_trans (Nat.min_le_right _ _) copied)
    | assignment left => exact relocated _ copied

theorem Sized.reserves {s : ExpandingCircularBuffer T} (sized : s.Sized) (sizeMax : Nat)
    (fault : Fault T) :
    Reserving s (s.reserveCopies sizeMax fault) (s.reserve sizeMax fault) := by
  unfold reserve reserveCopies
  by_cases full : s.size = s.capacity
  · rw [if_pos full, if_pos full]
    by_cases fresh : s.storage.isNone = true
    · rw [if_pos fresh, if_pos fresh]
      have absent : s.storage = none := Option.isNone_iff_eq_none.mp fresh
      have nothing : (s.storage.getD []).length = s.capacity := sized
      rw [absent] at nothing
      have empty : s.size = 0 := full.trans nothing.symm
      have made (ready : ExpandingCircularBuffer T)
          (initialised : ready = { s with
            storage := some (allocate initialCapacity)
            capacity := initialCapacity
            frontPos := 0
            backPos := 0 }) : Reserving s 0 (ready, false) := by
        subst initialised
        exact .first _ List.length_replicate rfl empty rfl rfl
      cases fault with
      | allocation => exact .threw
      | none => exact made _ rfl
      | copy i => exact made _ rfl
      | assignment left => exact made _ rfl
    · rw [if_neg fresh, if_neg fresh]
      exact sized.grows full sizeMax fault
  · rw [if_neg full, if_neg full]
    exact .roomy rfl

/-- Only a copy that throws has copied elements in vain. -/
theorem reserveCopies_eq_zero {s : ExpandingCircularBuffer T} {sizeMax : Nat} {fault : Fault T}
    (threw : (s.reserve sizeMax fault).2 = true) (copying : ∀ i, fault ≠ .copy i) :
    s.reserveCopies sizeMax fault = 0 := by
  unfold reserve at threw
  unfold reserveCopies
  by_cases full : s.size = s.capacity
  · by_cases fresh : s.storage.isNone = true
    · simp [fresh]
    · simp only [full, fresh, ↓reduceIte, Bool.false_eq_true, grow, growCopies] at threw ⊢
      by_cases limit : sizeMax / 2 < s.capacity
      · simp [limit]
      · cases fault with
        | none => simp [limit] at threw
        | allocation => simp
        | copy i => exact absurd rfl (copying i)
        | assignment left => simp [limit] at threw
  · simp [full]

/-- What a push leaves: nothing new if there was no room, and otherwise one element more in
what `reserve` left, whether it was assigned or not. -/
theorem push_cases (s : ExpandingCircularBuffer T) (sizeMax : Nat) (value : T) (fault : Fault T) :
    ((s.reserve sizeMax fault).2 = true ∧
      (s.push sizeMax value fault).1 = (s.reserve sizeMax fault).1) ∨
    ((s.reserve sizeMax fault).2 = false ∧
      (s.push sizeMax value fault).1.size = (s.reserve sizeMax fault).1.size + 1 ∧
      (s.push sizeMax value fault).1.capacity = (s.reserve sizeMax fault).1.capacity ∧
      ((s.reserve sizeMax fault).1.Sized → (s.push sizeMax value fault).1.Sized)) := by
  have stored (ready : ExpandingCircularBuffer T) (item : T) (sized : ready.Sized) :
      (ready.store item).Sized := by
    unfold Sized store at *
    cases storage : ready.storage with
    | none => simpa [storage] using sized
    | some array => simpa [storage] using sized
  cases made : s.reserve sizeMax fault with
  | mk ready threw =>
    cases threw with
    | true => exact .inl ⟨rfl, by simp [push, made]⟩
    | false =>
      refine .inr ⟨rfl, ?_⟩
      cases fault with
      | assignment left =>
        simp only [push, made]
        exact ⟨rfl, rfl, stored ready left⟩
      | none | allocation | copy i =>
        simp only [push, made]
        exact ⟨rfl, rfl, stored ready value⟩

end Push

end ExpandingCircularBuffer

namespace BufferCalls

variable {T : Type} [Inhabited T]

/-- The elements that a call copies. A pop copies the one that it returns. -/
def copies (sizeMax : Nat) (s : BufferCalls T) : Event T → Nat
  | .push _ fault => s.buffer.pushCopies sizeMax fault
  | .pop => 1

/-- The elements that are copied in vain, by a growth that throws. -/
def wasted (sizeMax : Nat) (s : BufferCalls T) : Event T → Nat
  | .push _ fault =>
    if (s.buffer.reserve sizeMax fault).2 then s.buffer.reserveCopies sizeMax fault else 0
  | .pop => 0

omit [Inhabited T] in
def Event.isPush : Event T → Bool
  | .push _ _ => true
  | .pop => false

/-- Twice the size, as far as it goes beyond the array. -/
def potential (s : BufferCalls T) : Nat := 2 * s.buffer.size - s.buffer.capacity

/-- What a step leaves: an array as long as it should be, which is the old one, the first one
or one of twice the size of the buffer; and it is paid for. -/
theorem step_paid {sizeMax : Nat} {s next : BufferCalls T} {event : Event T}
    (sized : s.buffer.Sized) (stepped : (machine sizeMax).step s event = some next) :
    next.buffer.Sized ∧
      (next.buffer.capacity = s.buffer.capacity ∨
        next.buffer.capacity = ExpandingCircularBuffer.initialCapacity ∨
        next.buffer.capacity = 2 * s.buffer.size) ∧
      s.copies sizeMax event + next.potential ≤
        s.potential + ((if event.isPush then 3 else 0) +
          ((if !event.isPush then 1 else 0) + s.wasted sizeMax event)) := by
  cases event with
  | pop =>
    simp only [machine, step, Option.ite_none_left_eq_some, Option.map_eq_some_iff] at stepped
    obtain ⟨present, ⟨result, buffer⟩, popped, rfl⟩ := stepped
    obtain ⟨found, -, same⟩ := Option.map_eq_some_iff.mp popped
    obtain ⟨-, rfl⟩ := Prod.mk.inj same
    refine ⟨sized, .inl rfl, ?_⟩
    simp only [copies, potential, answered, Event.isPush, wasted, Bool.false_eq_true,
      Bool.not_false, ↓reduceIte]
    omega
  | push value fault =>
    obtain rfl := Option.some.inj stepped
    have reserving := sized.reserves sizeMax fault
    have pushes := s.buffer.push_cases sizeMax value fault
    simp only [copies, potential, answered, Event.isPush, wasted,
      ExpandingCircularBuffer.pushCopies, Bool.not_true, Bool.false_eq_true, ↓reduceIte]
    generalize s.buffer.reserve sizeMax fault = made at reserving pushes
    generalize s.buffer.push sizeMax value fault = pushed at pushes
    generalize s.buffer.reserveCopies sizeMax fault = copies at reserving
    rcases pushes with ⟨threw, same⟩ | ⟨returned, size, capacity, keeps⟩
    · cases reserving with
      | threw =>
        rw [same]
        refine ⟨sized, .inl rfl, ?_⟩
        simp only [↓reduceIte]
        omega
      | _ => cases threw
    · rw [size, capacity]
      cases reserving with
      | threw => cases returned
      | roomy none =>
        refine ⟨keeps sized, .inl rfl, ?_⟩
        simp only [none, Bool.false_eq_true, ↓reduceIte]
        omega
      | first ready readySized readySize empty readyCapacity none =>
        refine ⟨keeps readySized, .inr (.inl readyCapacity), ?_⟩
        simp only [none, readySize, empty, readyCapacity, ExpandingCircularBuffer.initialCapacity,
          Bool.false_eq_true, ↓reduceIte]
        omega
      | grown ready readySized readySize full readyCapacity all =>
        refine ⟨keeps readySized, .inr (.inr (by dsimp only; omega)), ?_⟩
        simp only [readySize, readyCapacity, full, Bool.false_eq_true, ↓reduceIte]
        omega

/-- The array is no longer than the first one, or than twice the size that the buffer had at some
moment of the run. -/
def Spacious (sizeMax : Nat) (past : List (Event T)) (s : BufferCalls T) : Prop :=
  s.buffer.capacity ≤ ExpandingCircularBuffer.initialCapacity ∨
    ∃ before after middle, past = before ++ after ∧
      (machine sizeMax).run create before = some middle ∧
      s.buffer.capacity ≤ 2 * middle.buffer.size

theorem run_spacious {sizeMax : Nat} {events : List (Event T)} {s : BufferCalls T}
    (ran : (machine sizeMax).run create events = some s) : s.Spacious sizeMax events := by
  have keeps (past : List (Event T)) (s : BufferCalls T) (event : Event T) (next : BufferCalls T)
      (law : (machine sizeMax).run create past = some s ∧ s.buffer.Sized ∧
        s.Spacious sizeMax past)
      (stepped : (machine sizeMax).step s event = some next) :
      (machine sizeMax).run create (past ++ [event]) = some next ∧ next.buffer.Sized ∧
        next.Spacious sizeMax (past ++ [event]) := by
    obtain ⟨reached, sized, spacious⟩ := law
    obtain ⟨still, capacity, -⟩ := step_paid sized stepped
    refine ⟨(machine sizeMax).run_snoc.mpr ⟨s, reached, stepped⟩, still, ?_⟩
    rcases capacity with same | first | doubled
    · rcases spacious with small | ⟨before, after, middle, rfl, ran, bound⟩
      · exact .inl (same ▸ small)
      · exact .inr ⟨before, after ++ [event], middle, List.append_assoc _ _ _, ran, same ▸ bound⟩
    · exact .inl (Nat.le_of_eq first)
    · exact .inr ⟨past, [event], s, rfl, reached, Nat.le_of_eq doubled⟩
  have initial : (create : BufferCalls T).Spacious sizeMax [] := .inl (Nat.zero_le _)
  exact ((machine sizeMax).run_history keeps ⟨rfl, rfl, initial⟩ ran).2.2

/-- Over every run of pushes and pops, those that throw included, each push pays for three
copies and each pop for one, besides what the pushes that throw while the buffer grows have
copied in vain, which is nothing if no copy throws. The array is no longer than the first one,
or than twice the size that the buffer had at some moment before. -/
theorem growth_is_amortized (sizeMax : Nat) (events : List (Event T)) (s : BufferCalls T)
    (ran : (machine sizeMax).run create events = some s) :
    (machine sizeMax).total (copies sizeMax) create events ≤
        3 * events.countP Event.isPush + events.countP (fun event => !event.isPush) +
          (machine sizeMax).total (wasted sizeMax) create events ∧
      ((∀ value i, .push value (.copy i) ∉ events) →
        (machine sizeMax).total (wasted sizeMax) create events = 0) ∧
      (s.buffer.capacity ≤ ExpandingCircularBuffer.initialCapacity ∨
        ∃ before after middle, events = before ++ after ∧
          (machine sizeMax).run create before = some middle ∧
          s.buffer.capacity ≤ 2 * middle.buffer.size) := by
  refine ⟨?_, fun copying => ?_, run_spacious ran⟩
  · have sized : (create : BufferCalls T).buffer.Sized := rfl
    have costs := (machine sizeMax).run_total_le
      (fun s event next sized stepped => (step_paid sized stepped).1) potential (copies sizeMax)
      (fun s event => (if event.isPush then 3 else 0) +
        ((if !event.isPush then 1 else 0) + s.wasted sizeMax event))
      (fun s event next sized stepped => (step_paid sized stepped).2.2) sized ran
    have nothing : (create : BufferCalls T).potential = 0 := rfl
    rw [Machine.total_add, Machine.total_add, Machine.total_countP _ Event.isPush 3 ran,
      Machine.total_countP _ (fun event => !event.isPush) 1 ran, nothing] at costs
    omega
  · refine (machine sizeMax).total_eq_zero (fun event member s => ?_) create
    cases event with
    | pop => rfl
    | push value fault =>
      have other : ∀ i, fault ≠ .copy i := fun i same => copying value i (same ▸ member)
      by_cases threw : (s.buffer.reserve sizeMax fault).2 = true
      · rw [wasted, if_pos threw]
        exact ExpandingCircularBuffer.reserveCopies_eq_zero threw other
      · rw [wasted, if_neg threw]

/-- A push that fails in the middle of the first growth, one that succeeds, and a pop. -/
def failedGrowth : List (Event Nat) :=
  (List.range 16).map (fun value => .push value .none) ++
    [.push 16 (.copy 9), .push 16 .none, .pop]

theorem growth_is_amortized_failedGrowth :
    ∃ s, (machine 1024).run create failedGrowth = some s ∧ s.buffer.capacity = 32 ∧
      (machine 1024).total (copies 1024) create failedGrowth = 43 ∧
      (machine 1024).total (copies 1024) create failedGrowth ≤
        3 * failedGrowth.countP Event.isPush +
          failedGrowth.countP (fun event => !event.isPush) +
          (machine 1024).total (wasted 1024) create failedGrowth := by
  have runs : ((machine 1024).run create failedGrowth).map (·.buffer.capacity) = some 32 := by
    decide
  obtain ⟨s, ran, capacity⟩ := Option.map_eq_some_iff.mp runs
  exact ⟨s, ran, capacity, by decide, (growth_is_amortized 1024 failedGrowth s ran).1⟩

end BufferCalls

end Asioex
