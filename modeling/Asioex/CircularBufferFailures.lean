import Asioex.CircularBuffer

/-!
# Pushes that fail

A push that throws while it makes room leaves the buffer as it was: `init` and `grow` change
no member before their last call that can throw has returned. The assignment of the new
element comes after `size_ += 1`. If it throws, the buffer has counted an element that was
not pushed, and the back position has not moved past its slot.

What a caller can tell buffers apart by is what their pushes and pops do: each returns,
throws or brings an element, and leaves a size.
-/

namespace Asioex

/-- What a call of `push` or `pop` comes to. -/
inductive BufferAnswer (T : Type) where
  | returned
  | threw
  | popped (result : T)
deriving DecidableEq, Repr

/-- A buffer in use, and what each call came to, with the size after it. -/
structure BufferCalls (T : Type) where
  buffer : ExpandingCircularBuffer T
  answers : List (BufferAnswer T × Nat)
deriving DecidableEq, Repr

namespace BufferCalls

variable {T : Type} [Inhabited T]

inductive Event (T : Type) where
  | push (value : T) (fault : Fault T)
  | pop
deriving DecidableEq, Repr

def create : BufferCalls T := ⟨.create, []⟩

def answered (s : BufferCalls T) (answer : BufferAnswer T) (buffer : ExpandingCircularBuffer T) :
    BufferCalls T :=
  ⟨buffer, s.answers ++ [(answer, buffer.size)]⟩

/-- A push that throws is a call like any other. `pop` is called when `size()` is positive only. -/
def step (sizeMax : Nat) (s : BufferCalls T) : Event T → Option (BufferCalls T)
  | .push value fault =>
    some (s.answered (if (s.buffer.push sizeMax value fault).2 then .threw else .returned)
      (s.buffer.push sizeMax value fault).1)
  | .pop =>
    if s.buffer.size = 0 then none
    else s.buffer.pop.map (fun result => s.answered (.popped result.1) result.2)

def machine (sizeMax : Nat) : Machine (BufferCalls T) (Event T) := ⟨step sizeMax⟩

/-- What later calls come to. -/
def observed (sizeMax : Nat) (buffer : ExpandingCircularBuffer T) (later : List (Event T)) :
    Option (List (BufferAnswer T × Nat)) :=
  ((machine sizeMax).run ⟨buffer, []⟩ later).map BufferCalls.answers

/-- A push that throws leaves what the buffer holds and its size, and no later calls can tell
that it was made. -/
def Harmless (sizeMax : Nat) (s : BufferCalls T) (event : Event T) (next : BufferCalls T) : Prop :=
  ∀ value fault, event = .push value fault →
    (s.buffer.push sizeMax value fault).2 = true →
      next.buffer.contents = s.buffer.contents ∧ next.buffer.size = s.buffer.size ∧
        ∀ later, observed sizeMax next.buffer later = observed sizeMax s.buffer later

/-- The assignment of the new element does not throw, unless the limit has kept the push from
it. -/
def Assigns (sizeMax : Nat) (s : BufferCalls T) (event : Event T) (_next : BufferCalls T) : Prop :=
  ∀ value left, event = .push value (.assignment left) → s.buffer.Limited sizeMax

/-- An attempt to make room changes nothing if it throws, and no size if it does not. -/
theorem reserve_cases (s : ExpandingCircularBuffer T) (sizeMax : Nat) (fault : Fault T) :
    s.reserve sizeMax fault = (s, true) ∨
      ∃ ready, s.reserve sizeMax fault = (ready, false) ∧ ready.size = s.size := by
  unfold ExpandingCircularBuffer.reserve
  split
  · split
    · cases fault with
      | allocation => exact .inl rfl
      | none => exact .inr ⟨_, rfl, rfl⟩
      | copy i => exact .inr ⟨_, rfl, rfl⟩
      | assignment left => exact .inr ⟨_, rfl, rfl⟩
    · unfold ExpandingCircularBuffer.grow
      split
      · exact .inl rfl
      · cases fault with
        | allocation => exact .inl rfl
        | none => exact .inr ⟨_, rfl, rfl⟩
        | copy i =>
          by_cases inside : i < s.copied.length
          · exact .inl (if_pos inside)
          · exact .inr ⟨_, if_neg inside, rfl⟩
        | assignment left => exact .inr ⟨_, rfl, rfl⟩
  · exact .inr ⟨_, rfl, rfl⟩

/-- Only the limit keeps a push from an assignment that throws. -/
theorem reserve_assignment {s : ExpandingCircularBuffer T} {sizeMax : Nat} {left : T} :
    (s.reserve sizeMax (.assignment left)).2 = true ↔ s.Limited sizeMax := by
  rw [← ExpandingCircularBuffer.reserve_none]
  exact Iff.rfl

/-- A push that throws changes nothing, or counts an element that it could not assign. -/
theorem push_threw {s : ExpandingCircularBuffer T} {sizeMax : Nat} {value : T} {fault : Fault T}
    (threw : (s.push sizeMax value fault).2 = true) :
    (s.push sizeMax value fault).1 = s ∨
      ∃ left, fault = .assignment left ∧ ¬s.Limited sizeMax := by
  cases reserve_cases s sizeMax fault with
  | inl refused => exact .inl (by simp [ExpandingCircularBuffer.push, refused])
  | inr room =>
    obtain ⟨ready, made, -⟩ := room
    cases fault with
    | assignment left =>
      refine .inr ⟨left, rfl, fun limited => ?_⟩
      have refused : (s.reserve sizeMax (.assignment left)).2 = true :=
        reserve_assignment.mpr limited
      rw [made] at refused
      cases refused
    | none => simp [ExpandingCircularBuffer.push, made] at threw
    | allocation => simp [ExpandingCircularBuffer.push, made] at threw
    | copy i => simp [ExpandingCircularBuffer.push, made] at threw

/-- An assignment that throws leaves the size one too large. -/
theorem push_assignment {s : ExpandingCircularBuffer T} {sizeMax : Nat} (value left : T)
    (unlimited : ¬s.Limited sizeMax) :
    (s.push sizeMax value (.assignment left)).2 = true ∧
      (s.push sizeMax value (.assignment left)).1.size = s.size + 1 := by
  cases reserve_cases s sizeMax (.assignment left) with
  | inl refused => exact absurd (reserve_assignment.mp (by rw [refused])) unlimited
  | inr room =>
    obtain ⟨ready, made, size⟩ := room
    simp [ExpandingCircularBuffer.push, made, ExpandingCircularBuffer.store, size]

/-- A push that fails is harmless exactly when it did not fail in the assignment.

Proof: elsewhere nothing has changed, so nothing can be observed. An assignment leaves the
size one too large. -/
theorem harmless_iff {sizeMax : Nat} {s next : BufferCalls T} {event : Event T}
    (stepped : (machine sizeMax).step s event = some next) :
    Harmless sizeMax s event next ↔ Assigns sizeMax s event next := by
  constructor
  · rintro harmless value left rfl
    by_contra unlimited
    obtain rfl := Option.some.inj stepped
    obtain ⟨threw, larger⟩ := push_assignment (s := s.buffer) value left unlimited
    obtain ⟨-, size, -⟩ := harmless value (.assignment left) rfl threw
    have same : (s.buffer.push sizeMax value (.assignment left)).1.size = s.buffer.size := size
    omega
  · rintro assigns value fault rfl threw
    obtain rfl := Option.some.inj stepped
    cases push_threw threw with
    | inl unchanged =>
      simp only [answered, unchanged]
      exact ⟨trivial, trivial, fun _ => trivial⟩
    | inr failed =>
      obtain ⟨left, rfl, unlimited⟩ := failed
      exact absurd (assigns value left rfl) unlimited

/-- In every run of pushes, at any fault, and pops, each failing push is harmless exactly when
each assignment of a new element succeeds or is kept from by the limit. -/
theorem failures_harmless_iff (sizeMax : Nat) (events : List (Event T)) :
    (machine sizeMax).Along (Harmless sizeMax) create events ↔
      (machine sizeMax).Along (Assigns sizeMax) create events := by
  have agree (s : BufferCalls T) (event : Event T) (next : BufferCalls T) (_ : True) (_ : True)
      (stepped : (machine sizeMax).step s event = some next) :
      Harmless sizeMax s event next ↔ Assigns sizeMax s event next := harmless_iff stepped
  exact (machine sizeMax).along_iff agree (fun _ _ _ _ _ _ _ => trivial) events
    (fun _ _ => trivial) trivial

/-- The first push fails in its assignment, and two pops follow the only push that returned. -/
def miscounted : List (Event Nat) := [.push 7 (.assignment 0), .push 5 .none, .pop, .pop]

/-- The second pop brings an element that nobody pushed. -/
theorem failed_push_is_counted :
    ((machine 1024).run create miscounted).map BufferCalls.answers =
        some [(.threw, 1), (.returned, 2), (.popped 5, 1), (.popped 0, 0)] ∧
      ¬(machine 1024).Along (Harmless 1024) create miscounted := by
  refine ⟨by decide, fun along => ?_⟩
  obtain ⟨harmless, -⟩ := along _ rfl
  obtain ⟨-, size, -⟩ := harmless 7 (.assignment 0) rfl (by decide)
  revert size
  decide

end BufferCalls

end Asioex
