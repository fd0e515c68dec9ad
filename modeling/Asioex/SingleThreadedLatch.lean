import Mathlib.Logic.Function.Basic
import Mathlib.Data.List.Nodup
import Asioex.Lib.Machine

/-!
# Transactions over single-threaded latches

`st::transfer_latch` is a transfer latch over `null_mutex`, whose operations do nothing.
In a single thread every call runs to its end, so that `begin_transaction` and the
members of the transactions are functions on the state of the latches here. Several
transaction objects may be alive at once, on the same latches.

A transaction decides `may_commit` from its pointer. Nothing keeps a second transaction
from holding the same latch, and when one of them has committed it, the other one's
commit, rollback or destruction finds the latch transferred. Failed assertions are
recorded, and the code goes on as a build without them does; a null pointer that is
dereferenced counts as one.
-/

namespace Asioex

/-- The single-threaded latches: which have been transferred, the commits of each by the
transaction objects, and whether every assertion evaluated so far held. -/
structure NullLatches (L : Type) where
  transferred : L → Bool
  commits : List (Nat × L)
  asserted : Bool

namespace NullLatches

variable {L : Type} [DecidableEq L]

def create : NullLatches L := ⟨fun _ => false, [], true⟩

/-- `null_mutex::lock`. -/
def lock (s : NullLatches L) (_latch : L) : NullLatches L := s

/-- `null_mutex::unlock`. -/
def unlock (s : NullLatches L) (_latch : L) : NullLatches L := s

/-- `assert`. -/
def assert (s : NullLatches L) (condition : Bool) : NullLatches L :=
  { s with asserted := s.asserted && condition }

/-- `basic_transfer_latch::may_commit`. -/
def mayCommit (s : NullLatches L) (latch : L) : Bool := !s.transferred latch

/-- `transferred_ = true`, by a transaction object. -/
def transfer (s : NullLatches L) (tx : Nat) (latch : L) : NullLatches L :=
  { s with
    transferred := Function.update s.transferred latch true
    commits := s.commits ++ [(tx, latch)] }

/-- `basic_transfer_latch::commit`. -/
def commit (s : NullLatches L) (tx : Nat) (latch : L) : NullLatches L :=
  ((s.assert (!s.transferred latch)).transfer tx latch).unlock latch

/-- `basic_transfer_latch::rollback`. -/
def rollback (s : NullLatches L) (latch : L) : NullLatches L :=
  (s.assert (!s.transferred latch)).unlock latch

end NullLatches

/-- A transaction object, with its pointers to the latches. -/
inductive TransactionObject (L : Type) where
  | transaction1 (latch_ : Option L)
  | transaction2 (latch1_ latch2_ : Option L)

namespace TransactionObject

variable {L : Type} [DecidableEq L]

/-- `may_commit`. -/
def mayCommit : TransactionObject L → Bool
  | .transaction1 latch_ => latch_.isSome
  | .transaction2 latch1_ _ => latch1_.isSome

/-- `std::exchange(latch_, nullptr)->commit()`. -/
def commitLatch (s : NullLatches L) (tx : Nat) : Option L → NullLatches L
  | some latch => s.commit tx latch
  | none => s.assert false

/-- `std::exchange(latch_, nullptr)->rollback()`. -/
def rollbackLatch (s : NullLatches L) : Option L → NullLatches L
  | some latch => s.rollback latch
  | none => s.assert false

/-- `assert(latch_); assert(latch_->may_commit());`. -/
def assertLatch (s : NullLatches L) (latch_ : Option L) : NullLatches L :=
  (s.assert latch_.isSome).assert (latch_.any s.mayCommit)

/-- `commit`. -/
def commit (s : NullLatches L) (tx : Nat) : TransactionObject L →
    NullLatches L × TransactionObject L
  | .transaction1 latch_ => (commitLatch (assertLatch s latch_) tx latch_, .transaction1 none)
  | .transaction2 latch1_ latch2_ =>
    (commitLatch (commitLatch (assertLatch (assertLatch s latch1_) latch2_) tx latch1_) tx latch2_,
      .transaction2 none none)

/-- `rollback`, which the destructors call. -/
def rollback (s : NullLatches L) : TransactionObject L → NullLatches L × TransactionObject L
  | .transaction1 none => (s, .transaction1 none)
  | .transaction1 (some latch) => (s.rollback latch, .transaction1 none)
  | .transaction2 none latch2_ => (s, .transaction2 none latch2_)
  | .transaction2 (some first) latch2_ =>
    (rollbackLatch (s.rollback first) latch2_, .transaction2 none none)

/-- `begin_transaction` on one latch. -/
def beginTransaction (s : NullLatches L) (latch : L) : NullLatches L × TransactionObject L :=
  let s := s.lock latch
  if s.mayCommit latch then (s, .transaction1 (some latch))
  else (s.unlock latch, .transaction1 none)

/-- `begin_transaction` on two latches. -/
def beginTransactionPair (s : NullLatches L) (first second : L) :
    NullLatches L × TransactionObject L :=
  let s := (s.lock first).lock second
  if s.mayCommit first && s.mayCommit second then (s, .transaction2 (some first) (some second))
  else ((s.unlock first).unlock second, .transaction2 none none)

/-- The latches that a transaction still has. -/
def latches : TransactionObject L → List L
  | .transaction1 latch_ => latch_.toList
  | .transaction2 latch1_ latch2_ => latch1_.toList ++ latch2_.toList

/-- The pointers of a pair are both null or both not, and differ. -/
def Formed : TransactionObject L → Prop
  | .transaction1 _ => True
  | .transaction2 none latch2_ => latch2_ = none
  | .transaction2 (some first) latch2_ => ∃ second, latch2_ = some second ∧ first ≠ second

end TransactionObject

/-- The latches with the transaction objects that are alive, by their numbers. -/
structure SingleThread (L : Type) where
  latches : NullLatches L
  objects : Nat → Option (TransactionObject L)
  created : Nat

namespace SingleThread

variable {L : Type} [DecidableEq L]

def create : SingleThread L := ⟨.create, fun _ => none, 0⟩

/-- A call, made by the one thread there is. -/
inductive Event (L : Type) where
  | begin (latch : L)
  | beginPair (first second : L)
  | commit (tx : Nat)
  | rollback (tx : Nat)
  | destroy (tx : Nat)

/-- Keep what `begin_transaction` returned as the next object. -/
def keep (s : SingleThread L) (result : NullLatches L × TransactionObject L) : SingleThread L :=
  ⟨result.1, Function.update s.objects s.created (some result.2), s.created + 1⟩

/-- Keep what a member function left of the latches and of its object. -/
def leave (s : SingleThread L) (tx : Nat) (latches : NullLatches L)
    (object : Option (TransactionObject L)) : SingleThread L :=
  { s with latches := latches, objects := Function.update s.objects tx object }

/-- The latches of a pair are distinct, and only a transaction that may commit does. -/
def step (s : SingleThread L) : Event L → Option (SingleThread L)
  | .begin latch => some (s.keep (TransactionObject.beginTransaction s.latches latch))
  | .beginPair first second =>
    if first = second then none
    else some (s.keep (TransactionObject.beginTransactionPair s.latches first second))
  | .commit tx =>
    match s.objects tx with
    | some object =>
      if object.mayCommit then
        let result := object.commit s.latches tx
        some (s.leave tx result.1 (some result.2))
      else none
    | none => none
  | .rollback tx => (s.objects tx).map (fun object =>
      let result := object.rollback s.latches
      s.leave tx result.1 (some result.2))
  | .destroy tx => (s.objects tx).map (fun object =>
      s.leave tx (object.rollback s.latches).1 none)

def machine : Machine (SingleThread L) (Event L) := ⟨step⟩

/-- The transaction object that a call ends the use of, if it does. -/
def Event.ends : Event L → Option Nat
  | .commit tx | .rollback tx | .destroy tx => some tx
  | _ => none

/-- No assertion has failed, and no latch has been committed twice. -/
def CommittedOnce (_s : SingleThread L) (_event : Event L) (next : SingleThread L) : Prop :=
  next.latches.asserted = true ∧
    ∀ latch, next.latches.commits.countP (fun entry => entry.2 == latch) ≤ 1

/-- A transaction that is committed, rolled back or destroyed finds every latch that it
still has uncommitted. -/
def Uncommitted (s : SingleThread L) (event : Event L) (_next : SingleThread L) : Prop :=
  ∀ tx object, event.ends = some tx → s.objects tx = some object →
    ∀ latch ∈ object.latches, s.latches.mayCommit latch = true

end SingleThread

namespace NullLatches

variable {L : Type} [DecidableEq L]

/-- A latch is recorded as committed once if it has been transferred, and not otherwise. -/
def Counted (s : NullLatches L) : Prop :=
  ∀ latch, s.commits.countP (fun entry => entry.2 == latch) = if s.transferred latch then 1 else 0

/-- The first commit of a latch is counted. -/
theorem Counted.transfer {s : NullLatches L} (counted : s.Counted) (tx : Nat) {latch : L}
    (fresh : s.mayCommit latch = true) : (s.transfer tx latch).Counted := by
  intro other
  have before := counted other
  simp only [NullLatches.transfer, List.countP_append, List.countP_singleton, beq_iff_eq, before]
  by_cases same : latch = other
  · subst same
    have untouched : s.transferred latch = false := by simpa [mayCommit] using fresh
    simp [untouched]
  · simp [same, Function.update_of_ne (Ne.symm same)]

end NullLatches

namespace TransactionObject

variable {L : Type} [DecidableEq L]

/-- What ending the use of a transaction comes to: its assertions hold if its latches are
uncommitted, it commits them or none of them, and it has none any more. -/
structure Ends (s : NullLatches L) (tx : Nat) (object : TransactionObject L)
    (result : NullLatches L × TransactionObject L) : Prop where
  asserted : result.1.asserted = (s.asserted && object.latches.all s.mayCommit)
  counted : s.Counted → (∀ latch ∈ object.latches, s.mayCommit latch = true) → result.1.Counted
  formed : result.2.Formed

/-- Committing a transaction that may commit. -/
theorem commit_ends (s : NullLatches L) (tx : Nat) {object : TransactionObject L}
    (formed : object.Formed) (may : object.mayCommit = true) :
    Ends s tx object (object.commit s tx) := by
  cases object with
  | transaction1 latch_ =>
    cases latch_ with
    | none => cases may
    | some latch =>
      refine ⟨?_, fun counted uncommitted => ?_, trivial⟩
      · simp [commit, commitLatch, assertLatch, NullLatches.commit, NullLatches.assert,
          NullLatches.transfer, NullLatches.unlock, latches, NullLatches.mayCommit]
      · exact counted.transfer tx (uncommitted latch (by simp [latches]))
  | transaction2 latch1_ latch2_ =>
    cases latch1_ with
    | none => cases may
    | some first =>
      obtain ⟨second, rfl, distinct⟩ := formed
      refine ⟨?_, fun counted uncommitted => ?_, rfl⟩
      · have apart : second ≠ first := Ne.symm distinct
        simp [commit, commitLatch, assertLatch, NullLatches.commit, NullLatches.assert,
          NullLatches.transfer, NullLatches.unlock, latches, NullLatches.mayCommit,
          Function.update_of_ne apart]
        cases s.transferred first <;> cases s.transferred second <;> simp
      · have one := counted.transfer tx (uncommitted first (by simp [latches]))
        refine one.transfer tx ?_
        have fresh := uncommitted second (by simp [latches])
        simpa [NullLatches.mayCommit, NullLatches.transfer, Function.update_of_ne (Ne.symm distinct)]
          using fresh

/-- Rolling a transaction back, by a call or by its destructor. -/
theorem rollback_ends (s : NullLatches L) (tx : Nat) {object : TransactionObject L}
    (formed : object.Formed) : Ends s tx object (object.rollback s) := by
  cases object with
  | transaction1 latch_ =>
    cases latch_ with
    | none => exact ⟨by simp [rollback, latches], fun counted _ => counted, trivial⟩
    | some latch =>
      refine ⟨?_, fun counted _ => counted, trivial⟩
      simp [rollback, NullLatches.rollback, NullLatches.assert, NullLatches.unlock, latches,
        NullLatches.mayCommit]
  | transaction2 latch1_ latch2_ =>
    cases latch1_ with
    | none =>
      obtain rfl : latch2_ = none := formed
      exact ⟨by simp [rollback, latches], fun counted _ => counted, rfl⟩
    | some first =>
      obtain ⟨second, rfl, distinct⟩ := formed
      refine ⟨?_, fun counted _ => counted, rfl⟩
      simp [rollback, rollbackLatch, NullLatches.rollback, NullLatches.assert, NullLatches.unlock,
        latches, NullLatches.mayCommit, Bool.and_assoc]

omit [DecidableEq L] in
/-- A new transaction on one latch leaves the latches alone. -/
theorem beginTransaction_eq (s : NullLatches L) (latch : L) :
    (beginTransaction s latch).1 = s ∧ (beginTransaction s latch).2.Formed := by
  simp only [beginTransaction]
  split
  · exact ⟨rfl, trivial⟩
  · exact ⟨rfl, trivial⟩

omit [DecidableEq L] in
/-- A new transaction on two distinct latches leaves them alone. -/
theorem beginTransactionPair_eq (s : NullLatches L) {first second : L} (distinct : first ≠ second) :
    (beginTransactionPair s first second).1 = s ∧ (beginTransactionPair s first second).2.Formed := by
  simp only [beginTransactionPair]
  split
  · exact ⟨rfl, second, rfl, distinct⟩
  · exact ⟨rfl, rfl⟩

end TransactionObject

namespace SingleThread

variable {L : Type} [DecidableEq L]

/-- No assertion has failed, the commits are counted, and every object is well formed. -/
structure Sane (s : SingleThread L) : Prop where
  asserted : s.latches.asserted = true
  counted : s.latches.Counted
  formed : ∀ tx object, s.objects tx = some object → object.Formed

theorem create_sane : (create : SingleThread L).Sane where
  asserted := rfl
  counted := fun _ => rfl
  formed := fun _ _ absent => absurd absent (by simp [create])

/-- A counted latch has been committed at most once. -/
theorem Sane.once {s : SingleThread L} (sane : s.Sane) (latch : L) :
    s.latches.commits.countP (fun entry => entry.2 == latch) ≤ 1 := by
  rw [sane.counted latch]
  split <;> omega

theorem Sane.keep {s : SingleThread L} (sane : s.Sane)
    {result : NullLatches L × TransactionObject L} (begun : result.1 = s.latches ∧ result.2.Formed) :
    (s.keep result).Sane := by
  obtain ⟨same, formed⟩ := begun
  have kept : (s.keep result).latches = s.latches := same
  refine ⟨by rw [kept]; exact sane.asserted, by rw [kept]; exact sane.counted, ?_⟩
  intro tx object found
  by_cases newest : tx = s.created
  · subst newest
    obtain rfl : result.2 = object := by simpa [SingleThread.keep] using found
    exact formed
  · have before : s.objects tx = some object := by
      simpa [SingleThread.keep, Function.update_of_ne newest] using found
    exact sane.formed tx object before

/-- What a call on an object leaves is sane if its latches were uncommitted, and has
failed an assertion otherwise. -/
theorem Sane.leave {s : SingleThread L} (sane : s.Sane) {tx : Nat} {object : TransactionObject L}
    {result : NullLatches L × TransactionObject L} (ends : object.Ends s.latches tx result)
    {left : Option (TransactionObject L)} (kept : ∀ object, left = some object → object.Formed) :
    ((∀ latch ∈ object.latches, s.latches.mayCommit latch = true) →
        (s.leave tx result.1 left).Sane) ∧
      ((s.leave tx result.1 left).latches.asserted = true →
        ∀ latch ∈ object.latches, s.latches.mayCommit latch = true) := by
  have asserted : (s.leave tx result.1 left).latches.asserted =
      object.latches.all s.latches.mayCommit := by
    refine ends.asserted.trans ?_
    rw [sane.asserted, Bool.true_and]
  rw [asserted]
  refine ⟨fun uncommitted => ?_, List.all_eq_true.mp⟩
  constructor
  · rw [asserted]
    exact List.all_eq_true.mpr uncommitted
  · exact ends.counted sane.counted uncommitted
  · intro other found present
    by_cases same : other = tx
    · subst same
      exact kept found (by simpa [SingleThread.leave] using present)
    · have before : s.objects other = some found := by
        simpa [SingleThread.leave, Function.update_of_ne same] using present
      exact sane.formed other found before

omit [DecidableEq L] in
/-- For a call on an object, the condition is about the latches of that object. -/
theorem uncommitted_iff {s next : SingleThread L} {event : Event L} {tx : Nat}
    {object : TransactionObject L} (ends : event.ends = some tx)
    (found : s.objects tx = some object) :
    Uncommitted s event next ↔ ∀ latch ∈ object.latches, s.latches.mayCommit latch = true := by
  constructor
  · intro uncommitted
    exact uncommitted tx object ends found
  · intro uncommitted other present also foundAlso
    obtain rfl : tx = other := Option.some.inj (ends.symm.trans also)
    obtain rfl : object = present := Option.some.inj (found.symm.trans foundAlso)
    exact uncommitted

/-- A step stays sane if the transaction that it ends the use of finds its latches
uncommitted, and fails an assertion otherwise. -/
theorem step_sane {s next : SingleThread L} {event : Event L} (sane : s.Sane)
    (stepped : machine.step s event = some next) :
    (Uncommitted s event next → next.Sane) ∧
      (next.latches.asserted = true → Uncommitted s event next) := by
  have begun (kept : next.Sane) (none : event.ends = none) :
      (Uncommitted s event next → next.Sane) ∧
        (next.latches.asserted = true → Uncommitted s event next) := by
    refine ⟨fun _ => kept, fun _ tx object ends => ?_⟩
    rw [none] at ends
    cases ends
  cases event with
  | begin latch =>
    obtain rfl := Option.some.inj stepped
    exact begun (sane.keep (TransactionObject.beginTransaction_eq s.latches latch)) rfl
  | beginPair first second =>
    simp only [machine, step, Option.ite_none_left_eq_some, Option.some.injEq] at stepped
    obtain ⟨distinct, rfl⟩ := stepped
    exact begun (sane.keep (TransactionObject.beginTransactionPair_eq s.latches distinct)) rfl
  | commit tx =>
    cases found : s.objects tx with
    | none => simp [machine, step, found] at stepped
    | some object =>
      simp only [machine, step, found, Option.ite_none_right_eq_some, Option.some.injEq] at stepped
      obtain ⟨may, rfl⟩ := stepped
      have ends := TransactionObject.commit_ends s.latches tx (sane.formed tx object found) may
      rw [uncommitted_iff rfl found]
      exact sane.leave ends (fun object same => Option.some.inj same ▸ ends.formed)
  | rollback tx =>
    obtain ⟨object, found, rfl⟩ := Option.map_eq_some_iff.mp stepped
    have ends := TransactionObject.rollback_ends s.latches tx (sane.formed tx object found)
    rw [uncommitted_iff rfl found]
    exact sane.leave ends (fun object same => Option.some.inj same ▸ ends.formed)
  | destroy tx =>
    obtain ⟨object, found, rfl⟩ := Option.map_eq_some_iff.mp stepped
    have ends := TransactionObject.rollback_ends s.latches tx (sane.formed tx object found)
    rw [uncommitted_iff rfl found]
    exact sane.leave ends (fun object same => by cases same)

/-- Single-threaded latches are committed at most once, and no assertion fails, exactly
when every transaction that is committed, rolled back or destroyed finds the latches
that it still has uncommitted. -/
theorem committed_once_iff (L : Type) [DecidableEq L] (events : List (Event L)) :
    machine.Along CommittedOnce (create : SingleThread L) events ↔
      machine.Along Uncommitted (create : SingleThread L) events := by
  have agree (s : SingleThread L) (event : Event L) (next : SingleThread L) (_ : True)
      (sane : s.Sane) (stepped : machine.step s event = some next) :
      CommittedOnce s event next ↔ Uncommitted s event next := by
    obtain ⟨keeps, needs⟩ := step_sane sane stepped
    constructor
    · rintro ⟨asserted, -⟩
      exact needs asserted
    · intro uncommitted
      have saneNext : next.Sane := keeps uncommitted
      exact ⟨saneNext.asserted, saneNext.once⟩
  have keeps (s : SingleThread L) (event : Event L) (next : SingleThread L) (_ : True)
      (sane : s.Sane) (stepped : machine.step s event = some next)
      (uncommitted : Uncommitted s event next) : next.Sane :=
    (step_sane sane stepped).1 uncommitted
  exact machine.along_iff agree keeps events (fun _ _ => trivial) create_sane

/-- Two transactions begin on one latch, and both are committed. -/
def twoLive : List (Event Unit) := [.begin (), .begin (), .commit 0, .commit 1]

/-- Both find that they may commit, and the latch is committed twice. -/
theorem committed_twice :
    ∃ s, machine.run (create : SingleThread Unit) twoLive = some s ∧
      s.latches.commits = [(0, ()), (1, ())] ∧ s.latches.asserted = false ∧
      ¬machine.Along CommittedOnce (create : SingleThread Unit) twoLive := by
  refine ⟨_, rfl, rfl, rfl, fun along => ?_⟩
  have once := ((((along _ rfl).2 _ rfl).2 _ rfl).2 _ rfl).1.1
  cases once

end SingleThread

end Asioex
