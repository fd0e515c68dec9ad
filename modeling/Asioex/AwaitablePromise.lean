import Asioex.ComposePromise

/-!
# Composed coroutines that are awaited

Called with `use_awaitable`, a composed coroutine runs on asio's own promise, and
`awaitable_compose_promise` translates the tuple that it returns: the primary template
for results that have a value, the specialisation for `void` otherwise. Called with
any other token it runs on `compose_promise`, which calls the handler with the tuple,
and the handler that `use_awaitable` makes writes into a frame of the same kind.

The two agree on every signature with a value. The specialisation tests the number of
arguments the wrong way round and returns without looking at them.
-/

namespace Asioex

/-- `std::exception_ptr`, which may be null. -/
abbrev ExceptionPtr := Option Exception

/-- The single signature of a composed coroutine: `void(error_code)`,
`void(error_code, T)`, `void(exception_ptr)` or `void(exception_ptr, T)`. -/
inductive Signature where
  | errorCode
  | errorCodeValue
  | exceptionPtr
  | exceptionPtrValue
deriving DecidableEq, Repr

namespace Signature

/-- `std::tuple<Args_...>`. -/
def Tuple (T : Type) : Signature → Type
  | .errorCode => ErrorCode
  | .errorCodeValue => ErrorCode × T
  | .exceptionPtr => ExceptionPtr
  | .exceptionPtrValue => ExceptionPtr × T

/-- What an awaitable of the signature returns. `Unit` stands for `void`, and for the
`void_t` of the promise that implements it. -/
def Return (T : Type) : Signature → Type
  | .errorCode | .exceptionPtr => Unit
  | .errorCodeValue | .exceptionPtrValue => T

/-- `sizeof...(Args_)`. -/
def size : Signature → Nat
  | .errorCode | .exceptionPtr => 1
  | .errorCodeValue | .exceptionPtrValue => 2

/-- Whether the signature has a value beside the error. -/
def valued : Signature → Bool
  | .errorCode | .exceptionPtr => false
  | .errorCodeValue | .exceptionPtrValue => true

/-- The exception that carries the error of a tuple, if the error is set. -/
def error {T : Type} : (signature : Signature) → signature.Tuple T → Option Exception
  | .errorCode, ec => if ec.isSet then some (.systemError ec) else none
  | .errorCodeValue, (ec, _) => if ec.isSet then some (.systemError ec) else none
  | .exceptionPtr, e => e
  | .exceptionPtrValue, (e, _) => e

/-- The value of a tuple. -/
def value {T : Type} : (signature : Signature) → signature.Tuple T → signature.Return T
  | .errorCode, _ | .exceptionPtr, _ => ()
  | .errorCodeValue, (_, value) => value
  | .exceptionPtrValue, (_, value) => value

/-- What awaiting an operation that ends with a tuple should come to: its error thrown
if that is set, and otherwise its value. -/
def outcome {T : Type} (signature : Signature) (result : signature.Tuple T) :
    Except Exception (signature.Return T) :=
  match signature.error result with
  | some ex => .error ex
  | none => .ok (signature.value result)

end Signature

/-- asio's `awaitable_frame`: the result, and the exception that `get` throws. -/
structure AwaitableFrame (R : Type) where
  result : Option R
  pendingException : ExceptionPtr

namespace AwaitableFrame

variable {R : Type}

def create : AwaitableFrame R := ⟨none, none⟩

/-- `set_except`. -/
def setExcept (frame : AwaitableFrame R) (e : ExceptionPtr) : AwaitableFrame R :=
  { frame with pendingException := e }

/-- `set_error`. -/
def setError (frame : AwaitableFrame R) (ec : ErrorCode) : AwaitableFrame R :=
  frame.setExcept (some (.systemError ec))

/-- `return_value`, or `return_void`. -/
def returnValue (frame : AwaitableFrame R) (value : R) : AwaitableFrame R :=
  { frame with result := some value }

/-- `get`: throw the exception, or hand out the result. -/
def get (frame : AwaitableFrame R) : Option (Except Exception R) :=
  match frame.pendingException with
  | some ex => some (.error ex)
  | none => frame.result.map .ok

end AwaitableFrame

/-- The call operator of the handler that asio makes of `use_awaitable`: the frame of
the operation, from its creation to the call. -/
def awaitableHandler {T : Type} : (signature : Signature) → signature.Tuple T →
    AwaitableFrame (signature.Return T)
  | .errorCode, ec => if ec.isSet then AwaitableFrame.create.setError ec
    else AwaitableFrame.create.returnValue ()
  | .errorCodeValue, (ec, value) => if ec.isSet then AwaitableFrame.create.setError ec
    else AwaitableFrame.create.returnValue value
  | .exceptionPtr, e => if e.isSome then AwaitableFrame.create.setExcept e
    else AwaitableFrame.create.returnValue ()
  | .exceptionPtrValue, (e, value) => if e.isSome then AwaitableFrame.create.setExcept e
    else AwaitableFrame.create.returnValue value

namespace AwaitableComposePromise

variable {R T : Type}

/-- `return_value_impl` with an error code, of both templates. -/
def returnValueImplCode (frame : AwaitableFrame R) (ec : ErrorCode) (result : R) :
    AwaitableFrame R :=
  if ec.isSet then frame.setError ec else frame.returnValue result

/-- `return_value_impl` with an exception, of both templates. -/
def returnValueImplPtr (frame : AwaitableFrame R) (e : ExceptionPtr) (result : R) :
    AwaitableFrame R :=
  if e.isSome then frame.setExcept e else frame.returnValue result

/-- `return_value` of the specialisation for `void`: `if constexpr (sizeof...(Args_))`
selects the branch that does not look at the arguments. -/
def returnValueVoid (size : Nat) (frame : AwaitableFrame Unit)
    (returnValueImpl : AwaitableFrame Unit → AwaitableFrame Unit) : AwaitableFrame Unit :=
  if size ≠ 0 then frame.returnValue () else returnValueImpl frame

/-- `return_value`, of the template that the signature selects. -/
def returnValue : (signature : Signature) → AwaitableFrame (signature.Return T) →
    signature.Tuple T → AwaitableFrame (signature.Return T)
  | .errorCode, frame, ec =>
    returnValueVoid Signature.errorCode.size frame (fun frame => returnValueImplCode frame ec ())
  | .errorCodeValue, frame, (ec, result) => returnValueImplCode frame ec result
  | .exceptionPtr, frame, e =>
    returnValueVoid Signature.exceptionPtr.size frame (fun frame => returnValueImplPtr frame e ())
  | .exceptionPtrValue, frame, (e, result) => returnValueImplPtr frame e result

/-- `get_return_object` of the specialisation for `void`: a coroutine of its own, which
awaits the promise's frame and ends as that does. -/
def relay (frame : AwaitableFrame Unit) : AwaitableFrame Unit :=
  match frame.get with
  | some (.error ex) => AwaitableFrame.create.setExcept (some ex)
  | some (.ok ()) => AwaitableFrame.create.returnValue ()
  | none => AwaitableFrame.create

/-- What the awaiting coroutine gets after the body returned a tuple. -/
def awaited : (signature : Signature) → signature.Tuple T →
    Option (Except Exception (signature.Return T))
  | .errorCode, result => (relay (returnValue .errorCode .create result)).get
  | .errorCodeValue, result => (returnValue .errorCodeValue .create result).get
  | .exceptionPtr, result => (relay (returnValue .exceptionPtr .create result)).get
  | .exceptionPtrValue, result => (returnValue .exceptionPtrValue .create result).get

/-- The two paths end alike: with the error thrown if it is set, and otherwise with the
value. -/
def Agrees (signature : Signature) (result : signature.Tuple T) : Prop :=
  awaited signature result = (awaitableHandler signature result).get ∧
    awaited signature result = some (signature.outcome result)

/-- A coroutine that awaits a frame ends as the frame does. -/
theorem relay_get (frame : AwaitableFrame Unit) : (relay frame).get = frame.get := by
  cases ended : frame.get with
  | none => simp only [relay, ended]; rfl
  | some result =>
    cases result with
    | error ex => simp only [relay, ended]; rfl
    | ok value => simp only [relay, ended]; rfl

theorem returnValueImplCode_get (ec : ErrorCode) (result : R) :
    (returnValueImplCode .create ec result).get =
      some (if ec.isSet then .error (.systemError ec) else .ok result) := by
  by_cases failed : ec.isSet = true
  · simp [returnValueImplCode, failed, AwaitableFrame.setError, AwaitableFrame.setExcept,
      AwaitableFrame.get]
  · simp [returnValueImplCode, failed, AwaitableFrame.create, AwaitableFrame.returnValue,
      AwaitableFrame.get]

theorem returnValueImplPtr_get (e : ExceptionPtr) (result : R) :
    (returnValueImplPtr .create e result).get = some (e.elim (.ok result) .error) := by
  cases e with
  | none => rfl
  | some ex => rfl

/-- The handler of `use_awaitable` does with a tuple what it should.

Proof: asio's call operator is the library's `return_value_impl`. -/
theorem awaitableHandler_get (signature : Signature) (result : signature.Tuple T) :
    (awaitableHandler signature result).get = some (signature.outcome result) := by
  cases signature with
  | errorCode =>
    refine (returnValueImplCode_get (R := Unit) result ()).trans ?_
    by_cases failed : ErrorCode.isSet result = true
    · simp only [Signature.outcome, Signature.error, failed, ↓reduceIte]
      rfl
    · simp only [Signature.outcome, Signature.error, Signature.value, failed, Bool.false_eq_true,
        ↓reduceIte]
      rfl
  | errorCodeValue =>
    obtain ⟨ec, value⟩ := result
    refine (returnValueImplCode_get ec value).trans ?_
    by_cases failed : ec.isSet = true
    · simp only [Signature.outcome, Signature.error, failed, ↓reduceIte]
      rfl
    · simp only [Signature.outcome, Signature.error, Signature.value, failed, Bool.false_eq_true,
        ↓reduceIte]
      rfl
  | exceptionPtr =>
    refine (returnValueImplPtr_get (R := Unit) result ()).trans ?_
    cases result with
    | none => rfl
    | some ex => rfl
  | exceptionPtrValue =>
    obtain ⟨e, value⟩ := result
    refine (returnValueImplPtr_get e value).trans ?_
    cases e with
    | none => rfl
    | some ex => rfl

/-- The primary template does what the handler does. -/
theorem awaited_valued (signature : Signature) (result : signature.Tuple T)
    (valued : signature.valued = true) :
    awaited signature result = (awaitableHandler signature result).get := by
  cases signature with
  | errorCode => cases valued
  | errorCodeValue => rfl
  | exceptionPtr => cases valued
  | exceptionPtrValue => rfl

/-- The specialisation for `void` ends in success, whatever the tuple says. -/
theorem awaited_void (signature : Signature) (result : signature.Tuple T)
    (void : signature.valued = false) :
    awaited signature result = some (.ok (signature.value result)) := by
  cases signature with
  | errorCode => exact relay_get (returnValue .errorCode .create result)
  | errorCodeValue => cases void
  | exceptionPtr => exact relay_get (returnValue .exceptionPtr .create result)
  | exceptionPtrValue => cases void

theorem agrees_iff (signature : Signature) (result : signature.Tuple T) :
    Agrees signature result ↔ signature.valued = true ∨ signature.error result = none := by
  unfold Agrees
  rw [awaitableHandler_get, and_self]
  cases kind : signature.valued with
  | true => simp [awaited_valued signature result kind, awaitableHandler_get]
  | false =>
    rw [awaited_void signature result kind]
    cases set : signature.error result with
    | none => simp [Signature.outcome, set]
    | some ex => simp [Signature.outcome, set]

/-- Whatever its operations complete with, awaiting a composed coroutine agrees with
calling it for a handler exactly when its signature has a value or no error is set. -/
theorem awaitable_agrees_iff (A T : Type) (signature : Signature)
    (body : Body A (signature.Tuple T)) (values : List A) :
    (∀ result ∈ body.returned values, Agrees signature result) ↔
      ∀ result ∈ body.returned values,
        signature.valued = true ∨ signature.error result = none :=
  forall₂_congr (fun result _ => agrees_iff signature result)

/-- A coroutine with an error code alone, which awaits an operation and is aborted. -/
def abortedBody : Body Unit (Signature.errorCode.Tuple Nat) :=
  .await (fun _ => .coReturn ErrorCode.operationAborted)

/-- The handler path throws the code, and the awaitable path ends in success. -/
theorem awaitable_loses_error :
    ∃ result ∈ abortedBody.returned [()],
      (awaitableHandler .errorCode result).get =
          some (.error (.systemError .operationAborted)) ∧
        awaited .errorCode result = some (.ok ()) ∧ ¬Agrees .errorCode result := by
  refine ⟨ErrorCode.operationAborted, rfl, rfl, rfl, fun agrees => ?_⟩
  cases agrees.1

end AwaitableComposePromise

end Asioex
