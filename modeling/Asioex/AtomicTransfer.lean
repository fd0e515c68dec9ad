import Asioex.Linearization

/-!
# Values moved under latches

`atomic_transfer` moves a value from a source to a target if it can commit the latches of
both, and `atomic_deliver` moves a value of the caller's own into a latched target. The
mutexes are released by the commit, before the value is taken and stored: "we don't need to
hold the lock during the store. The commit only commits the owner of the store, not its
contents". So other parties step while a value is on its way.

A latch commits whatever it guards to one owner. Each place is guarded by a latch or belongs
to one party, and a call names only places of its caller's and of its own latches; other
parties use the same latches for what they like.

The functions are atomic nevertheless: there is an abstract store in which each call that
returns true claims its latches and moves its value in one step, each call that returns false
does nothing, and the calls return what these steps answer.
-/

namespace Asioex

/-- The latches of a call: one, or two for `std::lock`. -/
inductive LatchGroup (L : Type) where
  | one (latch : L)
  | two (first second : L)
deriving DecidableEq, Repr

namespace LatchGroup

variable {L : Type}

def latches : LatchGroup L → List L
  | .one latch => [latch]
  | .two first second => [first, second]

/-- `begin_transaction` -/
def begins : LatchGroup L → Action L
  | .one latch => .begin latch
  | .two first second => .beginPair first second

end LatchGroup

/-- Who may use a place: the owner that its latch is committed to, or one party. -/
inductive PlaceGuard (T L : Type) where
  | latched (latch : L)
  | own (party : T)
deriving DecidableEq, Repr

/-- A caller that commits these latches may use the place. -/
def PlaceGuard.Allows {T L : Type} (caller : T) (latches : List L) : PlaceGuard T L → Prop
  | .latched latch => latch ∈ latches
  | .own party => party = caller

/-- A call that uses places only as their guards allow. -/
structure TransferCall {T L K : Type} (guard : K → PlaceGuard T L) where
  caller : T
  group : LatchGroup L
  source : K
  target : K
  allowedSource : (guard source).Allows caller group.latches
  allowedTarget : (guard target).Allows caller group.latches

namespace TransferCall

variable {T L K : Type} {guard : K → PlaceGuard T L}

/-- `atomic_transfer(source_latch, target_latch, source, target)` -/
def atomicTransferPair (caller : T) (sourceLatch targetLatch : L) (source target : K)
    (guardedSource : guard source = .latched sourceLatch)
    (guardedTarget : guard target = .latched targetLatch) : TransferCall guard where
  caller := caller
  group := .two sourceLatch targetLatch
  source := source
  target := target
  allowedSource := by simp [guardedSource, PlaceGuard.Allows, LatchGroup.latches]
  allowedTarget := by simp [guardedTarget, PlaceGuard.Allows, LatchGroup.latches]

/-- `atomic_transfer(latch, source, target)` -/
def atomicTransfer (caller : T) (latch : L) (source target : K)
    (guardedSource : guard source = .latched latch)
    (guardedTarget : guard target = .latched latch) : TransferCall guard where
  caller := caller
  group := .one latch
  source := source
  target := target
  allowedSource := by simp [guardedSource, PlaceGuard.Allows, LatchGroup.latches]
  allowedTarget := by simp [guardedTarget, PlaceGuard.Allows, LatchGroup.latches]

/-- `atomic_deliver(target_latch, val, target)` -/
def atomicDeliver (caller : T) (targetLatch : L) (val target : K)
    (own : guard val = .own caller) (guardedTarget : guard target = .latched targetLatch) :
    TransferCall guard where
  caller := caller
  group := .one targetLatch
  source := val
  target := target
  allowedSource := by simp [own, PlaceGuard.Allows]
  allowedTarget := by simp [guardedTarget, PlaceGuard.Allows, LatchGroup.latches]

end TransferCall

/-- Where a party is: without a call, before the commit of one or refused, after the commit
with the value not yet taken, or with the value in hand. A place that a value was moved out of
holds none. -/
inductive TransferStage {T L K : Type} (guard : K → PlaceGuard T L) (V : Type) where
  | ready
  | calling (call : TransferCall guard)
  | committed (call : TransferCall guard)
  | carrying (call : TransferCall guard) (value : Option V)

namespace TransferStage

variable {T L K V : Type} {guard : K → PlaceGuard T L}

/-- The places that a party is still going to use, from its commit on. -/
def Uses (place : K) : TransferStage guard V → Prop
  | .committed call => place = call.source ∨ place = call.target
  | .carrying call _ => place = call.target
  | _ => False

end TransferStage

/-- The latches, what the places hold, where the transferring parties `T` are and what their
calls returned. Parties `Q` use the latches as well. -/
structure Transfers (T Q L K V : Type) (guard : K → PlaceGuard T L) where
  latches : Latches (T ⊕ Q) L
  places : K → Option V
  stage : T → TransferStage guard V
  answers : T → List Bool

namespace Transfers

variable {T Q L K V : Type} {guard : K → PlaceGuard T L}

def create (places : K → Option V) : Transfers T Q L K V guard :=
  ⟨.create, places, fun _ => .ready, fun _ => []⟩

inductive Event (T Q L K V : Type) (guard : K → PlaceGuard T L) where
  | other (q : Q) (action : Action L)
  | assign (t : T) (place : K) (value : Option V)
  | call (call : TransferCall guard)
  | access (t : T) (action : Action L)
  | commit (t : T)
  | proceed (t : T)
  | source (t : T)
  | target (t : T)
  | refused (t : T)

variable [DecidableEq T] [DecidableEq Q] [DecidableEq L]

/-- Accesses of one party to the latches, one after the other. -/
def access (s : Transfers T Q L K V guard) (party : T ⊕ Q) (actions : List (Action L)) :
    Option (Transfers T Q L K V guard) :=
  (Latches.machine.run s.latches (actions.map (fun action => (party, action)))).map
    (fun latches => { s with latches := latches })

def setStage (s : Transfers T Q L K V guard) (t : T) (stage : TransferStage guard V) :
    Transfers T Q L K V guard :=
  { s with stage := Function.update s.stage t stage }

/-- `return` of a call. -/
def answer (s : Transfers T Q L K V guard) (t : T) (value : Bool) : Transfers T Q L K V guard :=
  { s.setStage t .ready with answers := Function.update s.answers t (s.answers t ++ [value]) }

/-- An access of `begin_transaction`. -/
def beginning : Action L → Bool
  | .lock | .lockFirst | .lockSecond | .backOff | .check | .unlock => true
  | _ => false

variable [DecidableEq K]

/-- The steps of the transferring parties and of the others. Between calls a party may change
its own places. `commit` is on its way until the transaction holds no latch, and `may_commit`
of one that was refused is false. -/
def step (s : Transfers T Q L K V guard) :
    Event T Q L K V guard → Option (Transfers T Q L K V guard)
  | .other q action => s.access (.inr q) [action]
  | .assign t place value =>
    match s.stage t with
    | .ready =>
      if guard place = .own t then
        some { s with places := Function.update s.places place value }
      else none
    | _ => none
  | .call call =>
    match s.stage call.caller with
    | .ready =>
      (s.setStage call.caller (.calling call)).access (.inl call.caller) [call.group.begins]
    | _ => none
  | .access t action =>
    match s.stage t with
    | .calling _ => if beginning action then s.access (.inl t) [action] else none
    | _ => none
  | .commit t =>
    match s.stage t with
    | .calling call => (s.setStage t (.committed call)).access (.inl t) [.commit]
    | _ => none
  | .proceed t =>
    match s.stage t with
    | .committed _ => s.access (.inl t) [.proceed]
    | _ => none
  | .source t =>
    match s.stage t with
    | .committed call =>
      if (s.latches.point (.inl t)).outside then
        some { s.setStage t (.carrying call (s.places call.source)) with
          places := Function.update s.places call.source none }
      else none
    | _ => none
  | .target t =>
    match s.stage t with
    | .carrying call value =>
      { s.answer t true with
        places := Function.update s.places call.target value }.access (.inl t) [.destroy]
    | _ => none
  | .refused t =>
    match s.stage t with
    | .calling _ =>
      if (s.latches.point (.inl t)).outside then (s.answer t false).access (.inl t) [.destroy]
      else none
    | _ => none

def machine : Machine (Transfers T Q L K V guard) (Event T Q L K V guard) := ⟨step⟩

end Transfers

/-- The abstract store: who claimed which latch, what the places hold, and what the calls of
each party return. -/
structure AtomicStore (T Q L K V : Type) where
  claimer : L → Option (T ⊕ Q)
  places : K → Option V
  outcomes : T → List Bool

namespace AtomicStore

variable {T Q L K V : Type}

def create (places : K → Option V) : AtomicStore T Q L K V := ⟨fun _ => none, places, fun _ => []⟩

inductive Event (T Q L K V : Type) where
  | others (event : Claims.Event (T ⊕ Q) L)
  | assign (place : K) (value : Option V)
  | transfer (t : T) (group : List L) (source target : K)
  | refuse (t : T) (group : List L)
deriving DecidableEq

variable [DecidableEq T] [DecidableEq L] [DecidableEq K]

/-- A transfer claims its latches and moves its value at once. -/
def step (s : AtomicStore T Q L K V) : Event T Q L K V → Option (AtomicStore T Q L K V)
  | .others event =>
    (Claims.machine.step s.claimer event).map (fun claimer => { s with claimer := claimer })
  | .assign place value => some { s with places := Function.update s.places place value }
  | .transfer t group source target =>
    (Claims.machine.step s.claimer (.claim (.inl t) group)).map (fun claimer =>
      { claimer := claimer
        places := Function.update (Function.update s.places source none) target (s.places source)
        outcomes := Function.update s.outcomes t (s.outcomes t ++ [true]) })
  | .refuse t group =>
    (Claims.machine.step s.claimer (.refuse (.inl t) group)).map (fun claimer =>
      { s with
        claimer := claimer
        outcomes := Function.update s.outcomes t (s.outcomes t ++ [false]) })

def machine : Machine (AtomicStore T Q L K V) (Event T Q L K V) := ⟨step⟩

/-- Claims that others make are made all at once. -/
theorem run_others {events : List (Claims.Event (T ⊕ Q) L)} {s : AtomicStore T Q L K V}
    {claimer : L → Option (T ⊕ Q)} (matched : Claims.machine.run s.claimer events = some claimer) :
    machine.run s (events.map .others) = some { s with claimer := claimer } := by
  induction events generalizing s with
  | nil =>
    obtain rfl := Option.some.inj matched
    rfl
  | cons event rest inductionHypothesis =>
    obtain ⟨next, stepped, following⟩ := Claims.machine.run_cons.mp matched
    refine machine.run_cons.mpr ⟨{ s with claimer := next }, ?_, inductionHypothesis following⟩
    exact Option.map_eq_some_iff.mpr ⟨next, stepped, rfl⟩

end AtomicStore

namespace Transfers

variable {T Q L K V : Type} {guard : K → PlaceGuard T L}

/-- Where the calls take effect: a transfer where its commit begins, a refusal where the check
finds a latch committed. -/
def takesEffect (s : Transfers T Q L K V guard) :
    Event T Q L K V guard → List (AtomicStore.Event T Q L K V)
  | .other q action => (s.latches.decided (.inr q, action)).map .others
  | .assign _ place value => [.assign place value]
  | .access t action =>
    (s.latches.decided (.inl t, action)).filterMap (fun decided =>
      match decided with
      | .refuse _ group => some (.refuse t group)
      | .claim _ _ => none)
  | .commit t =>
    match s.stage t with
    | .calling call => [.transfer t call.group.latches call.source call.target]
    | _ => []
  | _ => []

end Transfers

end Asioex
