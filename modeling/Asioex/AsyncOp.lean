import Asioex.Asio

/-!
# Handlers, their associations and what a move leaves of them

The library asks a handler for its executor, its allocator and its cancellation slot
through `get_associated_executor` and its siblings. A handler of any type may have
the member that answers, or not, in which case a default answers; and the member may
refuse to answer, when it begins with an assertion that does not hold.

Moving a handler makes an equal one and leaves something in the place of the old one.
What it leaves, and whether that still answers, depends on the type and is part of it
here. `detail::poly_handler`, the handler that an async_op passes to its initiation,
holds its target by a unique pointer: its moved-from state answers nothing.
-/

namespace Asioex

/-- What the accessor of one association does: there is none, it answers, or an
assertion in it fails. -/
inductive Association (α : Type) where
  | absent
  | present (value : α)
  | denied
deriving DecidableEq, Repr

namespace Association

variable {α : Type}

/-- The association with its default; no result when the assertion fails. -/
def get (association : Association α) (fallback : α) : Option α :=
  match association with
  | .absent => some fallback
  | .present value => some value
  | .denied => none

/-- The accessor may be called. -/
def answers : Association α → Bool
  | .denied => false
  | _ => true

/-- What the handler itself provides. -/
def provided : Association α → Option α
  | .present value => some value
  | _ => none

/-- A default stands in for an association that is absent, and not for one that refuses. -/
theorem get_isSome (association : Association α) (fallback : α) :
    (association.get fallback).isSome = association.answers := by
  cases association <;> rfl

end Association

/-- A type of handlers with allocators in `A`: its accessors, the default of the
associated allocator, and what a move leaves. The slot is connected or not. -/
structure HandlerType (H A : Type) where
  executor : H → Association Executor
  allocator : H → Association A
  slot : H → Association Bool
  defaultAllocator : A
  movedFrom : H → H

namespace HandlerType

variable {H A : Type} (type : HandlerType H A)

/-- `asio::get_associated_allocator(handler)` -/
def getAssociatedAllocator (handler : H) : Option A :=
  (type.allocator handler).get type.defaultAllocator

/-- All accessors of the handler may be called, as a caller owes a function that it
passes a handler. -/
def usable (handler : H) : Bool :=
  (type.executor handler).answers && (type.allocator handler).answers &&
    (type.slot handler).answers

/-- Once it was moved from, the handler still gives the allocator that it gave before. -/
def KeepsAllocator (handler : H) : Prop :=
  type.getAssociatedAllocator (type.movedFrom handler) = type.getAssociatedAllocator handler

end HandlerType

/-- `detail::poly_handler_base`: the associations of the handler that was erased. -/
structure PolyHandlerBase (A : Type) where
  executor : Executor
  allocator : A
  cancellationSlot : Bool
deriving DecidableEq, Repr

/-- `detail::poly_handler`: a unique pointer. -/
structure PolyHandler (A : Type) where
  ptr : Option (PolyHandlerBase A)
deriving DecidableEq, Repr

namespace PolyHandler

variable {A : Type}

/-- `assert(ptr_); return ptr_->...;` -/
def access {α : Type} (handler : PolyHandler A) (member : PolyHandlerBase A → α) :
    Association α :=
  match handler.ptr with
  | none => .denied
  | some target => .present (member target)

def getExecutor (handler : PolyHandler A) : Association Executor := handler.access (·.executor)

def getAllocator (handler : PolyHandler A) : Association A := handler.access (·.allocator)

def getCancellationSlot (handler : PolyHandler A) : Association Bool :=
  handler.access (·.cancellationSlot)

/-- The type `poly_handler`. Its move is that of its member, which leaves null. -/
def type (defaultAllocator : A) : HandlerType (PolyHandler A) A where
  executor := getExecutor
  allocator := getAllocator
  slot := getCancellationSlot
  defaultAllocator := defaultAllocator
  movedFrom _ := ⟨none⟩

/-- A moved-from `poly_handler` has no allocator to give, whatever it gave before. -/
theorem not_keepsAllocator (defaultAllocator : A) (handler : PolyHandler A)
    (usable : (type defaultAllocator).usable handler = true) :
    ¬(type defaultAllocator).KeepsAllocator handler := by
  intro keeps
  cases target : handler.ptr with
  | none =>
    simp [type, HandlerType.usable, getExecutor, access, target, Association.answers] at usable
  | some base =>
    simp [HandlerType.KeepsAllocator, HandlerType.getAssociatedAllocator, type, getAllocator,
      access, target, Association.get] at keeps

end PolyHandler

/-- `basic_async_op::base`: the associations that an async_op falls back to. -/
structure AsyncOpBase (A : Type) where
  executor : Executor
  allocator : A
  cancellationSlot : Bool
deriving DecidableEq, Repr

namespace AsyncOpBase

variable {H A : Type}

/-- `basic_async_op::initiate`: the handler that it passes on, unless an accessor of
the given one refuses. -/
def initiate (ptr : AsyncOpBase A) (type : HandlerType H A) (handler : H) :
    Option (PolyHandler A) := do
  let executor ← (type.executor handler).get ptr.executor
  let allocator ← (type.allocator handler).get ptr.allocator
  let cancellationSlot ← (type.slot handler).get ptr.cancellationSlot
  some ⟨some ⟨executor, allocator, cancellationSlot⟩⟩

end AsyncOpBase

end Asioex
