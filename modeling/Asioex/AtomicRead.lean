import Asioex.Asio
import Asioex.TransactionRuns

/-!
# Latched reads

`atomic_read_op` waits until its socket is readable and then, in one resumption,
begins a transaction on its latch, reads without blocking, and commits. A wait that
failed is committed as it is; a read that would block is rolled back, and the
operation waits again; a latch committed by somebody else ends the operation.

Operations are parties of the transactions, among any other parties, which use any
latches. A resumption is taken apart at the accesses to the latch, so that others
step in between; from the check of a latch found uncommitted to its commit or
rollback the operation runs on. With the single-threaded latch a resumption runs
without interruption: its runs are those in which these steps are adjacent.

The socket is asio's own, and so is known by what is documented of it: `read_some`
takes some of the bytes that have arrived, or fails, or says that it would block; a
failed wait and a failed read carry an error of asio's own, which `completion_denied`
is not; and the mode is no part of what there is to be read. A socket that keeps all
this in a buffer is one of them.
-/

namespace Asioex

/-- A stream socket, over whatever it consists of. `readSome` is `read_some` into a
buffer of a size, with the bytes it read; how many of those that arrived it delivers at
once is left to the system, and in blocking mode there may be no answer yet. -/
class Socket (S : Type) where
  incoming : S → List UInt8
  nonBlocking : S → Bool
  setNonBlocking : S → Bool → S
  readSome : S → Nat → Nat → Option (S × ErrorCode × List UInt8)
  arrive : S → List UInt8 → S
  fail : S → AsioError → S

/-- What is documented of a stream socket. -/
class LawfulSocket (S : Type) [Socket S] : Prop where
  nonBlocking_setNonBlocking : ∀ (sock : S) mode,
    Socket.nonBlocking (Socket.setNonBlocking sock mode) = mode
  setNonBlocking_restored : ∀ (sock : S) mode,
    Socket.setNonBlocking (Socket.setNonBlocking sock mode) (Socket.nonBlocking sock) = sock
  incoming_setNonBlocking : ∀ (sock : S) mode,
    Socket.incoming (Socket.setNonBlocking sock mode) = Socket.incoming sock
  incoming_arrive : ∀ (sock : S) bytes,
    Socket.incoming (Socket.arrive sock bytes) = Socket.incoming sock ++ bytes
  incoming_fail : ∀ (sock : S) error, Socket.incoming (Socket.fail sock error) = Socket.incoming sock
  readSome_takes : ∀ {sock after : S} {size more ec bytes},
    Socket.readSome sock size more = some (after, ec, bytes) →
      Socket.incoming sock = bytes ++ Socket.incoming after
  readSome_failed : ∀ {sock after : S} {size more ec bytes},
    Socket.readSome sock size more = some (after, ec, bytes) → ec ≠ .success → bytes = []
  readSome_code : ∀ {sock after : S} {size more ec bytes},
    Socket.readSome sock size more = some (after, ec, bytes) → ec ≠ .completionDenied
  readSome_wouldBlock : ∀ {sock after : S} {size more bytes},
    Socket.readSome sock size more = some (after, .wouldBlock, bytes) → after = sock

/-- A socket that keeps the bytes that arrived, the error that follows them, if any, and
the mode. -/
structure BufferedSocket where
  incoming : List UInt8
  failure : Option AsioError
  nonBlocking : Bool
deriving DecidableEq, Repr

namespace BufferedSocket

/-- At least one byte of those that arrived, and as many more as the system cares to
deliver. A buffer of size zero is filled at once. -/
def readSome (sock : BufferedSocket) (size more : Nat) :
    Option (BufferedSocket × ErrorCode × List UInt8) :=
  if size = 0 then some (sock, .success, [])
  else
    match sock.incoming, sock.failure with
    | [], some error => some (sock, .asio error, [])
    | [], none => if sock.nonBlocking then some (sock, .wouldBlock, []) else none
    | bytes, _ =>
      let read := bytes.take (min size (more + 1))
      some ({ sock with incoming := bytes.drop (min size (more + 1)) }, .success, read)

instance : Socket BufferedSocket where
  incoming := incoming
  nonBlocking := nonBlocking
  setNonBlocking sock mode := { sock with nonBlocking := mode }
  readSome := readSome
  arrive sock bytes := { sock with incoming := sock.incoming ++ bytes }
  fail sock error := { sock with failure := some error }

/-- A read leaves the socket as it is and reports an error of asio's own, or nothing; or
it reports bytes, which it took from the front of those that arrived. -/
theorem readSome_cases {sock after : BufferedSocket} {size more : Nat} {ec : ErrorCode}
    {bytes : List UInt8} (read : sock.readSome size more = some (after, ec, bytes)) :
    (after = sock ∧ bytes = [] ∧ ec ≠ .completionDenied) ∨
      (ec = .success ∧ sock.incoming = bytes ++ after.incoming) := by
  unfold readSome at read
  split at read
  · cases read
    exact .inl ⟨rfl, rfl, by decide⟩
  · split at read
    · cases read
      exact .inl ⟨rfl, rfl, by simp⟩
    · split at read
      · cases read
        exact .inl ⟨rfl, rfl, by decide⟩
      · cases read
    · cases read
      exact .inr ⟨rfl, (List.take_append_drop _ _).symm⟩

instance : LawfulSocket BufferedSocket where
  nonBlocking_setNonBlocking _ _ := rfl
  setNonBlocking_restored _ _ := rfl
  incoming_setNonBlocking _ _ := rfl
  incoming_arrive _ _ := rfl
  incoming_fail _ _ := rfl
  readSome_takes read := by
    rcases readSome_cases read with ⟨rfl, rfl, -⟩ | ⟨-, front⟩
    · rfl
    · exact front
  readSome_failed read failed := by
    rcases readSome_cases read with ⟨-, none, -⟩ | ⟨success, -⟩
    · exact none
    · exact absurd success failed
  readSome_code read := by
    rcases readSome_cases read with ⟨-, -, other⟩ | ⟨rfl, -⟩
    · exact other
    · decide
  readSome_wouldBlock read := by
    rcases readSome_cases read with ⟨same, -, -⟩ | ⟨success, -⟩
    · exact same
    · cases success

end BufferedSocket

/-- Where a read operation is: not yet initiated, waiting for its socket, resumed with
a code, or completed. -/
inductive Stage where
  | initial
  | waiting
  | resumed (ec : ErrorCode)
  | completed
deriving DecidableEq, Repr

/-- A call of the completion handler, with its arguments: whether the operation held the
mutex of its latch then, and the mode that its socket was in. -/
structure HandlerCall where
  ec : ErrorCode
  size : Nat
  holding : Bool
  nonBlocking : Bool
deriving DecidableEq, Repr

/-- `atomic_read_op`: its socket and the size of its buffer, with the bytes that it
took from the socket and the calls of its handler. -/
structure ReadOp (S : Type) where
  stage : Stage
  sock : S
  size : Nat
  taken : List UInt8
  calls : List HandlerCall
deriving DecidableEq, Repr

/-- What the handler was called with. -/
def ReadOp.completions {S : Type} (op : ReadOp S) : List (ErrorCode × Nat) :=
  op.calls.map (fun call => (call.ec, call.size))

/-- The latches with the read operations `O` among the parties, and others `Q`. -/
structure Reads (S O Q L : Type) where
  latches : Latches (O ⊕ Q) L
  ops : O → ReadOp S

namespace Reads

variable {S O Q L : Type}

/-- Sockets in any state, nothing initiated, and nothing committed. -/
def create (sock : O → S) (size : O → Nat) : Reads S O Q L :=
  ⟨.create, fun o => ⟨.initial, sock o, size o, [], []⟩⟩

variable [DecidableEq O]

def setOp (s : Reads S O Q L) (o : O) (op : ReadOp S) : Reads S O Q L :=
  { s with ops := Function.update s.ops o op }

@[simp] theorem setOp_self (s : Reads S O Q L) (o : O) (op : ReadOp S) :
    (s.setOp o op).ops o = op := by
  simp [setOp]

theorem setOp_of_ne (s : Reads S O Q L) {o other : O} (op : ReadOp S) (distinct : other ≠ o) :
    (s.setOp o op).ops other = s.ops other := by
  simp [setOp, Function.update_of_ne distinct]

/-- `sock.async_wait(wait_read, std::move(self))`. -/
def asyncWait (s : Reads S O Q L) (o : O) : Reads S O Q L :=
  s.setOp o { s.ops o with stage := .waiting }

/-- Accesses of one party to the latches, one after the other. -/
def access [DecidableEq Q] [DecidableEq L] (s : Reads S O Q L) (party : O ⊕ Q)
    (actions : List (Action L)) : Option (Reads S O Q L) :=
  (Latches.machine.run s.latches (actions.map (fun action => (party, action)))).map
    (fun latches => { s with latches := latches })

variable [Socket S]

/-- The socket and the buffer after a read, with the socket's mode restored. -/
def received (s : Reads S O Q L) (o : O) (sock : S) (bytes : List UInt8) : Reads S O Q L :=
  s.setOp o { s.ops o with
    sock := Socket.setNonBlocking sock (Socket.nonBlocking (s.ops o).sock)
    taken := (s.ops o).taken ++ bytes }

variable [DecidableEq Q]

/-- `self.complete(ec, size)` of an operation with this latch. -/
def complete (latch : L) (s : Reads S O Q L) (o : O) (ec : ErrorCode) (size : Nat) :
    Reads S O Q L :=
  s.setOp o { s.ops o with
    stage := .completed
    calls := (s.ops o).calls ++
      [⟨ec, size, decide (s.latches.owner latch = some (.inl o)),
        Socket.nonBlocking (s.ops o).sock⟩] }

variable [DecidableEq L]

/-- `trans.commit()` or `trans.rollback()`, and then `return self.complete(ec, size)`,
which destroys the transaction when it is left. -/
def returnComplete (latch : L) (s : Reads S O Q L) (o : O) (closing : Action L) (ec : ErrorCode)
    (size : Nat) : Option (Reads S O Q L) :=
  (s.access (.inl o) [closing]).bind
    (fun s => (s.complete latch o ec size).access (.inl o) [.destroy])

/-- `operator()` from the return of `begin_transaction` to its end. A round that is
repeated destroys its transaction before it waits. -/
def resume (latch : L) (s : Reads S O Q L) (o : O) (ec : ErrorCode) (more : Nat) :
    Option (Reads S O Q L) :=
  match s.latches.point (.inl o) with
  | .transaction1 none => s.returnComplete latch o .rollback .completionDenied 0
  | .transaction1 (some _) =>
    if ec.isSet then s.returnComplete latch o .commit ec 0
    else
      (Socket.readSome (Socket.setNonBlocking (s.ops o).sock true) (s.ops o).size more).bind
        (fun (sock, ec, bytes) =>
          if ec = .wouldBlock then
            ((s.received o sock bytes).access (.inl o) [.rollback, .destroy]).map (·.asyncWait o)
          else (s.received o sock bytes).returnComplete latch o .commit ec bytes.length)
  | _ => none

inductive Event (O Q L : Type) where
  | other (q : Q) (action : Action L)
  | start (o : O)
  | wake (o : O) (error : Option AsioError)
  | lock (o : O)
  | check (o : O)
  | unlock (o : O)
  | finish (o : O) (more : Nat)
  | arrive (o : O) (bytes : List UInt8)
  | fail (o : O) (error : AsioError)
  | configure (o : O) (nonBlocking : Bool)

/-- What `async_wait` completes with. -/
def waitCode : Option AsioError → ErrorCode
  | none => .success
  | some error => .asio error

/-- The steps of the operations, of the other parties, and of the sockets' peers. -/
def step (latch : L) (s : Reads S O Q L) : Event O Q L → Option (Reads S O Q L)
  | .other q action => s.access (.inr q) [action]
  | .start o => if (s.ops o).stage = .initial then some (s.asyncWait o) else none
  | .wake o error =>
    if (s.ops o).stage = .waiting then
      (s.setOp o { s.ops o with stage := .resumed (waitCode error) }).access (.inl o)
        [.begin latch]
    else none
  | .lock o => s.access (.inl o) [.lock]
  | .check o => s.access (.inl o) [.check]
  | .unlock o => s.access (.inl o) [.unlock]
  | .finish o more =>
    match (s.ops o).stage with
    | .resumed ec => s.resume latch o ec more
    | _ => none
  | .arrive o bytes =>
    some (s.setOp o { s.ops o with sock := Socket.arrive (s.ops o).sock bytes })
  | .fail o error =>
    some (s.setOp o { s.ops o with sock := Socket.fail (s.ops o).sock error })
  | .configure o nonBlocking =>
    some (s.setOp o { s.ops o with sock := Socket.setNonBlocking (s.ops o).sock nonBlocking })

def machine (latch : L) : Machine (Reads S O Q L) (Event O Q L) := ⟨step latch⟩

end Reads

end Asioex
