import Asioex.Lib.Machine
import Asioex.Lib.ObjectMemory
import Mathlib.Data.List.Perm.Basic

/-!
# The allocator of coroutine frames

`compose_promise_alloc_base` keeps a copy of the allocator behind the coroutine frame
that it allocated, and takes the copy from there to free the frame. Both operators
compute the place of the copy, each for itself, from the size of the frame.

The allocator of `unsigned char` is not part of this code. Where it puts a block is
an argument, and nothing is assumed of the address but that the block does not
overlap another one: an allocator owes its caller the alignment of what it allocates,
which is one. Sizes are taken modulo the number of values of a `std::size_t`, and
addresses are not, since a block that was allocated lies in the address space.
-/

namespace Asioex

/-- What `allocate` was asked for and answered, or `deallocate` was given: the
allocator, the block and its size. -/
structure Block (A : Type) where
  alloc : A
  raw : Nat
  allocSize : Nat
deriving DecidableEq, Repr

namespace ComposePromiseAllocBase

variable {A : Type}

/-- What `operator new` did: the block it allocated, where it put the allocator, and
the memory it left. -/
structure Allocated (A : Type) where
  block : Block A
  allocP : Nat
  memory : Nat → UInt8

/-- What `operator delete` did: the block it gave back, and where it took the
allocator from. -/
structure Deallocated (A : Type) where
  block : Block A
  allocP : Nat
deriving DecidableEq, Repr

/-- `operator new`, with the rebound allocator of the token and the address with
which its `allocate` answers. -/
def operatorNew (type : ObjectType A UInt8) (sizes size : Nat) (alloc : A) (answer : Nat)
    (memory : Nat → UInt8) : Allocated A :=
  let alignNeeded := size % type.alignof
  let alignOffset := if alignNeeded ≠ 0 then type.alignof - alignNeeded else 0
  let allocSize := (size + type.sizeof + alignOffset) % sizes
  let raw := answer
  ⟨⟨alloc, raw, allocSize⟩, raw + size + alignOffset,
    type.store memory (raw + size + alignOffset) alloc⟩

/-- `operator delete` -/
def operatorDelete (type : ObjectType A UInt8) (sizes : Nat) (memory : Nat → UInt8)
    (raw size : Nat) : Deallocated A :=
  let alignNeeded := size % type.alignof
  let alignOffset := if alignNeeded ≠ 0 then type.alignof - alignNeeded else 0
  let allocSize := (size + type.sizeof + alignOffset) % sizes
  let allocP := raw + size + alignOffset
  let alloc := type.load memory allocP
  ⟨⟨alloc, raw, allocSize⟩, allocP⟩

/-- The total size of the block does not overflow. -/
def Fits (type : ObjectType A UInt8) (sizes size : Nat) : Prop :=
  size + type.sizeof + type.padding size < sizes

instance (type : ObjectType A UInt8) (sizes size : Nat) : Decidable (Fits type sizes size) :=
  inferInstanceAs (Decidable (_ < _))

/-- The cells of a block behind its frame are those that were there before. The frame
is the coroutine's to write. -/
def KeepsTail (raw size allocSize : Nat) (memory later : Nat → UInt8) : Prop :=
  ∀ cell, raw + size ≤ cell → cell < raw + allocSize → later cell = memory cell

/-- The layout is sound: the allocator lies behind the frame, inside the block and at
its alignment, and whatever is written to the frame, `operator delete` takes it from
the same address and gives back the block that was allocated. -/
structure Sound (type : ObjectType A UInt8) (sizes size : Nat) (alloc : A) (answer : Nat)
    (memory : Nat → UInt8) : Prop where
  behind : answer + size ≤ (operatorNew type sizes size alloc answer memory).allocP
  inside : (operatorNew type sizes size alloc answer memory).allocP + type.sizeof ≤
    answer + (operatorNew type sizes size alloc answer memory).block.allocSize
  aligned : type.alignof ∣ (operatorNew type sizes size alloc answer memory).allocP
  returned : ∀ later,
    KeepsTail answer size (operatorNew type sizes size alloc answer memory).block.allocSize
      (operatorNew type sizes size alloc answer memory).memory later →
    operatorDelete type sizes later answer size =
      ⟨(operatorNew type sizes size alloc answer memory).block,
        (operatorNew type sizes size alloc answer memory).allocP⟩

/-- Without overflow, `operator new` asks for the frame, the padding and the allocator,
which it puts at the end. -/
theorem operatorNew_eq {type : ObjectType A UInt8} {sizes size : Nat}
    (fits : Fits type sizes size) (alloc : A) (answer : Nat) (memory : Nat → UInt8) :
    operatorNew type sizes size alloc answer memory =
      ⟨⟨alloc, answer, size + type.sizeof + type.padding size⟩,
        answer + size + type.padding size,
        type.store memory (answer + size + type.padding size) alloc⟩ := by
  have whole : (size + type.sizeof + type.padding size) % sizes =
      size + type.sizeof + type.padding size := Nat.mod_eq_of_lt fits
  rw [← whole]
  rfl

/-- `operator delete` reads the allocator from where `operator new` put it. -/
theorem operatorDelete_eq {type : ObjectType A UInt8} {sizes size : Nat}
    (fits : Fits type sizes size) (memory : Nat → UInt8) (raw : Nat) :
    operatorDelete type sizes memory raw size =
      ⟨⟨type.load memory (raw + size + type.padding size), raw,
          size + type.sizeof + type.padding size⟩,
        raw + size + type.padding size⟩ := by
  have whole : (size + type.sizeof + type.padding size) % sizes =
      size + type.sizeof + type.padding size := Nat.mod_eq_of_lt fits
  rw [← whole]
  rfl

/-- As long as the cells behind the frame are kept, the stored allocator is read. -/
theorem operatorDelete_kept {type : ObjectType A UInt8} {sizes size raw : Nat}
    (fits : Fits type sizes size) {memory later : Nat → UInt8}
    (kept : KeepsTail raw size (size + type.sizeof + type.padding size) memory later) :
    operatorDelete type sizes later raw size = operatorDelete type sizes memory raw size := by
  have same : type.load later (raw + size + type.padding size) =
      type.load memory (raw + size + type.padding size) :=
    type.load_congr (fun cell low high => kept cell (by omega) (by omega))
  rw [operatorDelete_eq fits, operatorDelete_eq fits, same]

/-- All of the layout but the alignment is sound for every block. -/
theorem layout_placed {type : ObjectType A UInt8} {sizes size : Nat}
    (fits : Fits type sizes size) (alloc : A) (answer : Nat) (memory : Nat → UInt8) :
    let placed := operatorNew type sizes size alloc answer memory
    answer + size ≤ placed.allocP ∧
    placed.allocP + type.sizeof ≤ answer + placed.block.allocSize ∧
    ∀ later, KeepsTail answer size placed.block.allocSize placed.memory later →
      operatorDelete type sizes later answer size = ⟨placed.block, placed.allocP⟩ := by
  intro placed
  have here : placed = _ := operatorNew_eq fits alloc answer memory
  rw [here]
  refine ⟨Nat.le_add_right _ _, ?_, fun later kept => ?_⟩
  · change answer + size + type.padding size + type.sizeof ≤
      answer + (size + type.sizeof + type.padding size)
    omega
  · rw [operatorDelete_kept fits kept, operatorDelete_eq fits, type.load_store]

/-- The layout is sound exactly when the block itself is aligned for the allocator that
is put in it.

Proof: the padding makes the offset of the allocator a multiple of the alignment, and an
aligned offset is at an aligned address exactly from an aligned base. -/
theorem layout_sound_iff (type : ObjectType A UInt8) (sizes size : Nat)
    (fits : Fits type sizes size) (alloc : A) (answer : Nat) (memory : Nat → UInt8) :
    Sound type sizes size alloc answer memory ↔ type.alignof ∣ answer := by
  have address : (operatorNew type sizes size alloc answer memory).allocP =
      answer + size + type.padding size := rfl
  constructor
  · intro sound
    have aligned := sound.aligned
    rw [address] at aligned
    exact (type.dvd_base_iff answer size).mp aligned
  · intro base
    obtain ⟨behind, inside, returned⟩ := layout_placed fits alloc answer memory
    exact ⟨behind, inside, address ▸ (type.dvd_base_iff answer size).mpr base, returned⟩

/-- The layout of an allocator that is one pointer of eight bytes. -/
def pointerLayout : ObjectType (Fin 8 → UInt8) UInt8 :=
  ⟨8, 8, ⟨3, rfl⟩, id, id, fun _ => rfl⟩

/-- How many values a `std::size_t` of eight bytes has. -/
def sizeValues : Nat := 18446744073709551616

theorem layout_sound_iff_aligned :
    Sound pointerLayout sizeValues 20 (fun _ => 7) 4096 (fun _ => 0) :=
  (layout_sound_iff pointerLayout sizeValues 20 (by decide) (fun _ => 7) 4096 (fun _ => 0)).mpr
    (by decide)

/-- From an odd base the copy of a pointer is put at an odd address. -/
theorem layout_unsound :
    Fits pointerLayout sizeValues 24 ∧
      ¬Sound pointerLayout sizeValues 24 (fun _ => 7) 4097 (fun _ => 0) := by
  refine ⟨by decide, fun sound => ?_⟩
  have aligned : 8 ∣ 4121 := sound.aligned
  exact absurd aligned (by decide)

end ComposePromiseAllocBase

/-- A frame that was allocated and not freed yet: its block and its size. -/
structure Frame (A : Type) where
  block : Block A
  size : Nat
deriving DecidableEq, Repr

/-- A cell of the block behind the frame, which only the two operators touch. -/
def Frame.Tail {A : Type} (frame : Frame A) (cell : Nat) : Prop :=
  frame.block.raw + frame.size ≤ cell ∧ cell < frame.block.raw + frame.block.allocSize

instance {A : Type} (frame : Frame A) (cell : Nat) : Decidable (frame.Tail cell) :=
  inferInstanceAs (Decidable (_ ∧ _))

/-- The frames of any number of coroutines in one memory, with the calls of `allocate`
and `deallocate` so far. -/
structure FrameHeap (A : Type) where
  memory : Nat → UInt8
  frames : List (Frame A)
  allocated : List (Block A)
  deallocated : List (Block A)

namespace FrameHeap

open ComposePromiseAllocBase

variable {A : Type}

inductive Event (A : Type) where
  | create (size : Nat) (alloc : A) (answer : Nat)
  | write (cell : Nat) (value : UInt8)
  | free (n : Nat)
deriving DecidableEq, Repr

def start (memory : Nat → UInt8) : FrameHeap A := ⟨memory, [], [], []⟩

/-- Two blocks do not overlap. -/
def Apart (first second : Block A) : Prop :=
  first.raw + first.allocSize ≤ second.raw ∨ second.raw + second.allocSize ≤ first.raw

instance (first second : Block A) : Decidable (Apart first second) :=
  inferInstanceAs (Decidable (_ ∨ _))

/-- A frame is created in a block apart from the blocks in use, of a size that does not
overflow; everything but the cells behind the frames may be written; and each frame may
be freed once. -/
def machine (type : ObjectType A UInt8) (sizes : Nat) : Machine (FrameHeap A) (Event A) where
  step s event :=
    match event with
    | .create size alloc answer =>
      let placed := operatorNew type sizes size alloc answer s.memory
      if Fits type sizes size ∧ ∀ frame ∈ s.frames, Apart placed.block frame.block then
        some ⟨placed.memory, s.frames ++ [⟨placed.block, size⟩], s.allocated ++ [placed.block],
          s.deallocated⟩
      else none
    | .write cell value =>
      if ∀ frame ∈ s.frames, ¬frame.Tail cell then
        some { s with memory := Function.update s.memory cell value }
      else none
    | .free n =>
      match s.frames[n]? with
      | none => none
      | some frame =>
        let freed := operatorDelete type sizes s.memory frame.block.raw frame.size
        some { s with
          frames := s.frames.eraseIdx n
          deallocated := s.deallocated ++ [freed.block] }

/-- The allocator of each frame is where `operator delete` looks for it, and what was
allocated was given back or is in use. -/
structure Intact (type : ObjectType A UInt8) (sizes : Nat) (s : FrameHeap A) : Prop where
  stored : ∀ frame ∈ s.frames, Fits type sizes frame.size ∧
    (operatorDelete type sizes s.memory frame.block.raw frame.size).block = frame.block
  balance : s.allocated.Perm (s.deallocated ++ s.frames.map Frame.block)

/-- The block that an intact frame gives back has the size it was allocated with. -/
theorem stored_size {type : ObjectType A UInt8} {sizes : Nat} {memory : Nat → UInt8}
    {frame : Frame A} (fits : Fits type sizes frame.size)
    (stored : (operatorDelete type sizes memory frame.block.raw frame.size).block = frame.block) :
    frame.block.allocSize = frame.size + type.sizeof + type.padding frame.size := by
  rw [operatorDelete_eq fits] at stored
  exact (congrArg Block.allocSize stored).symm

/-- A frame whose tail is kept stays intact. -/
theorem stored_kept {type : ObjectType A UInt8} {sizes : Nat} {memory later : Nat → UInt8}
    {frame : Frame A} (fits : Fits type sizes frame.size)
    (stored : (operatorDelete type sizes memory frame.block.raw frame.size).block = frame.block)
    (kept : ∀ cell, frame.Tail cell → later cell = memory cell) :
    (operatorDelete type sizes later frame.block.raw frame.size).block = frame.block := by
  have total := stored_size fits stored
  have tail : KeepsTail frame.block.raw frame.size
      (frame.size + type.sizeof + type.padding frame.size) memory later := by
    intro cell low high
    exact kept cell ⟨low, total ▸ high⟩
  rw [operatorDelete_kept fits tail, stored]

/-- A new frame is written behind itself only, apart from the tails of the others. -/
theorem create_intact {type : ObjectType A UInt8} {sizes size answer : Nat} {alloc : A}
    {s : FrameHeap A} (intact : s.Intact type sizes) (fits : Fits type sizes size)
    (apart : ∀ frame ∈ s.frames,
      Apart (operatorNew type sizes size alloc answer s.memory).block frame.block) :
    Intact type sizes ⟨(operatorNew type sizes size alloc answer s.memory).memory,
      s.frames ++ [⟨(operatorNew type sizes size alloc answer s.memory).block, size⟩],
      s.allocated ++ [(operatorNew type sizes size alloc answer s.memory).block],
      s.deallocated⟩ := by
  rw [operatorNew_eq fits] at apart ⊢
  refine ⟨fun frame member => ?_, ?_⟩
  · rcases List.mem_append.mp member with old | new
    · obtain ⟨fitted, stored⟩ := intact.stored frame old
      have total := stored_size fitted stored
      refine ⟨fitted, stored_kept fitted stored (fun cell tail => ?_)⟩
      apply type.store_apart
      have away := apart frame old
      simp only [Apart, Frame.Tail] at away tail
      omega
    · obtain rfl := List.mem_singleton.mp new
      exact ⟨fits, by rw [operatorDelete_eq fits, type.load_store]⟩
  · rw [List.map_append, ← List.append_assoc]
    exact intact.balance.append_right _

/-- Every admitted event keeps the frames intact. -/
theorem step_intact {type : ObjectType A UInt8} {sizes : Nat} (s : FrameHeap A)
    (event : Event A) (next : FrameHeap A) (intact : s.Intact type sizes)
    (stepped : (machine type sizes).step s event = some next) : next.Intact type sizes := by
  cases event with
  | create size alloc answer =>
    obtain ⟨⟨fits, apart⟩, same⟩ := Option.ite_none_right_eq_some.mp stepped
    exact Option.some.inj same ▸ create_intact intact fits apart
  | write cell value =>
    obtain ⟨outside, same⟩ := Option.ite_none_right_eq_some.mp stepped
    obtain rfl := Option.some.inj same
    refine ⟨fun frame member => ?_, intact.balance⟩
    obtain ⟨fits, stored⟩ := intact.stored frame member
    refine ⟨fits, stored_kept fits stored (fun other tail => ?_)⟩
    have distinct : other ≠ cell := by
      rintro rfl
      exact outside frame member tail
    exact Function.update_of_ne distinct _ _
  | free n =>
    cases found : s.frames[n]? with
    | none => simp [machine, found] at stepped
    | some frame =>
      simp only [machine, found, Option.some.injEq] at stepped
      obtain rfl := stepped
      obtain ⟨inside, here⟩ := List.getElem?_eq_some_iff.mp found
      have member : frame ∈ s.frames := List.mem_of_getElem? found
      refine ⟨fun other kept => intact.stored other (List.mem_of_mem_eraseIdx kept), ?_⟩
      have taken : (s.frames.map Frame.block).Perm
          (frame.block :: (s.frames.eraseIdx n).map Frame.block) := by
        have moved := List.getElem_cons_eraseIdx_perm inside
        rw [here] at moved
        exact moved.symm.map Frame.block
      rw [(intact.stored frame member).2, List.append_assoc, List.singleton_append]
      exact intact.balance.trans (taken.append_left _)

/-- Whatever frames are created, written and freed, in whatever order: each frame in use will
be given back to its own allocator, with its own size, and the blocks that were allocated are
those given back and those of the frames in use. -/
theorem frames_returned (type : ObjectType A UInt8) (sizes : Nat) (memory : Nat → UInt8)
    (events : List (Event A)) (s : FrameHeap A)
    (ran : (machine type sizes).run (start memory) events = some s) :
    (∀ frame ∈ s.frames,
      (operatorDelete type sizes s.memory frame.block.raw frame.size).block = frame.block) ∧
    s.allocated.Perm (s.deallocated ++ s.frames.map Frame.block) := by
  have initial : (start memory : FrameHeap A).Intact type sizes :=
    ⟨fun frame member => absurd member List.not_mem_nil, List.Perm.nil⟩
  have intact := (machine type sizes).run_invariant step_intact initial ran
  exact ⟨fun frame member => (intact.stored frame member).2, intact.balance⟩

/-- Two frames with allocators of their own, of which the first is written and freed. -/
def twoFrames : List (Event (Fin 8 → UInt8)) :=
  [.create 20 (fun _ => 7) 4096, .create 24 (fun _ => 9) 8192, .write 4100 1, .free 0]

theorem frames_returned_twoFrames :
    ∃ s, (machine pointerLayout sizeValues).run (start (fun _ => 0)) twoFrames = some s ∧
      s.deallocated.map (fun block => (block.raw, block.allocSize)) = [(4096, 32)] ∧
      s.allocated.Perm (s.deallocated ++ s.frames.map Frame.block) := by
  refine ⟨_, rfl, rfl, ?_⟩
  exact (frames_returned pointerLayout sizeValues (fun _ => 0) twoFrames _ rfl).2

end FrameHeap

end Asioex
