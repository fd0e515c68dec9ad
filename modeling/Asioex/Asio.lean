import Mathlib.Logic.Function.Basic

/-!
# What the library takes from asio

Error codes, cancellation types, executors and completion handlers as the headers
of this repository use them. Handlers and executors are opaque to the library: it
copies them, asks for their associations, and hands them to `post`. They are
therefore names here, and `post` is a value that an operation returns. Whether and
when a posted function runs is decided by the runs built over these definitions.
-/

namespace Asioex

/-- Errors that asio's own operations report. -/
inductive AsioError where
  | operationAborted
  | wouldBlock
  | other (value : Nat)
deriving DecidableEq, Repr

/-- `error_code`. The last case is the only value of `select_category`, the
library's own category; it is never the code of an asio operation. -/
inductive ErrorCode where
  | success
  | asio (error : AsioError)
  | completionDenied
deriving DecidableEq, Repr

namespace ErrorCode

/-- `asio::error::operation_aborted`. -/
def operationAborted : ErrorCode := .asio .operationAborted

/-- `asio::error::would_block`. -/
def wouldBlock : ErrorCode := .asio .wouldBlock

/-- The conversion to bool of an error code: true when it carries an error. -/
def isSet : ErrorCode → Bool
  | .success => false
  | _ => true

@[simp] theorem isSet_success : success.isSet = false := rfl

@[simp] theorem isSet_operationAborted : operationAborted.isSet = true := rfl

theorem isSet_iff (ec : ErrorCode) : ec.isSet = true ↔ ec ≠ .success := by
  cases ec <;> simp [isSet]

theorem not_isSet_iff (ec : ErrorCode) : ¬ec.isSet = true ↔ ec = .success := by
  rw [isSet_iff, not_not]

end ErrorCode

/-- `asio::cancellation_type`, a bit mask. -/
abbrev CancellationType := BitVec 32

namespace CancellationType

def none : CancellationType := 0
def terminal : CancellationType := 1
def partially : CancellationType := 2
def total : CancellationType := 4
def all : CancellationType := 0xFFFFFFFF

/-- Whether two masks have a bit in common: `!!(left & right)`. -/
def meets (left right : CancellationType) : Bool := left &&& right != 0

end CancellationType

/-- The identity of an executor. -/
abbrev Executor := Nat

/-- The identity of a cancellation slot. -/
abbrev Slot := Nat

/-- A completion handler: its identity and its associations. An absent slot is a
slot that is not connected to a signal. -/
structure Handler where
  id : Nat
  executor : Option Executor
  slot : Option Slot
deriving DecidableEq, Repr

/-- `get_associated_executor(handler, fallback)`. -/
def Handler.associatedExecutor (handler : Handler) (fallback : Executor) : Executor :=
  handler.executor.getD fallback

/-- A function given to `post`: the handler with the error code appended, and the
executor it was posted to. -/
structure Posted where
  executor : Executor
  handler : Handler
  ec : ErrorCode
deriving DecidableEq, Repr

end Asioex
