import Mathlib.Data.List.Basic

/-!
# Transactions over transfer latches, as programs

`begin_transaction`, `transaction1` and `transaction2` are run by parties that stop
between any two accesses to a latch. `Point` says where a party is, `advance` what
its next access does and where it goes from there. An access reads the latches or
uses one of them: it locks or unlocks the mutex, or calls `commit` or `rollback`.

`std::lock` takes two mutexes by a series of locks and unlocks that the standard
leaves open: either first, and backing off with one before it has both.

Pointers are options, since the code compares and exchanges them. The assertions
of the transactions are evaluated where they stand; a null pointer dereferenced
counts as a failed one.
-/

namespace Asioex

/-- Where a party is: outside, in `begin_transaction` for one latch or for two, or
with a transaction object in hand, between its calls or within one of them. -/
inductive Point (L : Type) where
  | idle
  | locking (latch : L)
  | checking (latch : L)
  | refusing (latch : L)
  | lockingPair (first second : L)
  | lockedFirst (first second : L)
  | lockedSecond (first second : L)
  | checkingFirst (first second : L)
  | checkingSecond (first second : L)
  | refusingFirst (first second : L)
  | refusingSecond (second : L)
  | transaction1 (latch_ : Option L)
  | transaction2 (latch1_ latch2_ : Option L)
  | committing (latch2_ : Option L)
  | rollingBack (latch2_ : Option L) (destroyed : Bool)
deriving DecidableEq

/-- The steps a party can be asked to take. -/
inductive Action (L : Type) where
  | begin (latch : L)
  | beginPair (first second : L)
  | lock
  | lockFirst
  | lockSecond
  | backOff
  | check
  | unlock
  | commit
  | rollback
  | proceed
  | destroy
deriving DecidableEq

/-- What a step does to the latch it uses, if it uses one. -/
inductive Effect (L : Type) where
  | none
  | lock (latch : L)
  | unlock (latch : L)
  | commit (latch : L)
  | rollback (latch : L)
deriving DecidableEq

/-- A step: its use of a latch, where it leads, and whether the assertions of the
transaction that it evaluates hold. -/
structure Outcome (L : Type) where
  effect : Effect L
  next : Point L
  asserted : Bool
deriving DecidableEq

namespace Point

variable {L : Type}

/-- Where `rollback` of two latches ends, when called or when run by the destructor. -/
def rolledBack (destroyed : Bool) : Point L :=
  if destroyed then .idle else .transaction2 none none

/-- One step of a party. `commit` is asked of transactions that may commit only. -/
def advance [DecidableEq L] (mayCommit : L → Bool) : Point L → Action L → Option (Outcome L)
  -- begin_transaction(latch)
  | .idle, .begin latch => some ⟨.none, .locking latch, true⟩
  | .locking latch, .lock => some ⟨.lock latch, .checking latch, true⟩
  | .checking latch, .check =>
    if mayCommit latch then some ⟨.none, .transaction1 (some latch), true⟩
    else some ⟨.none, .refusing latch, true⟩
  | .refusing latch, .unlock => some ⟨.unlock latch, .transaction1 none, true⟩
  -- begin_transaction(latch1, latch2)
  | .idle, .beginPair first second =>
    if first = second then none else some ⟨.none, .lockingPair first second, true⟩
  | .lockingPair first second, .lockFirst => some ⟨.lock first, .lockedFirst first second, true⟩
  | .lockingPair first second, .lockSecond => some ⟨.lock second, .lockedSecond first second, true⟩
  | .lockedFirst first second, .lockSecond => some ⟨.lock second, .checkingFirst first second, true⟩
  | .lockedFirst first second, .backOff => some ⟨.unlock first, .lockingPair first second, true⟩
  | .lockedSecond first second, .lockFirst => some ⟨.lock first, .checkingFirst first second, true⟩
  | .lockedSecond first second, .backOff => some ⟨.unlock second, .lockingPair first second, true⟩
  | .checkingFirst first second, .check =>
    if mayCommit first then some ⟨.none, .checkingSecond first second, true⟩
    else some ⟨.none, .refusingFirst first second, true⟩
  | .checkingSecond first second, .check =>
    if mayCommit second then some ⟨.none, .transaction2 (some first) (some second), true⟩
    else some ⟨.none, .refusingFirst first second, true⟩
  | .refusingFirst first second, .unlock => some ⟨.unlock first, .refusingSecond second, true⟩
  | .refusingSecond second, .unlock => some ⟨.unlock second, .transaction2 none none, true⟩
  -- transaction1
  | .transaction1 (some latch), .commit =>
    some ⟨.commit latch, .transaction1 none, mayCommit latch⟩
  | .transaction1 (some latch), .rollback => some ⟨.rollback latch, .transaction1 none, true⟩
  | .transaction1 none, .rollback => some ⟨.none, .transaction1 none, true⟩
  | .transaction1 (some latch), .destroy => some ⟨.rollback latch, .idle, true⟩
  | .transaction1 none, .destroy => some ⟨.none, .idle, true⟩
  -- transaction2
  | .transaction2 (some first) second, .commit =>
    some ⟨.commit first, .committing second, mayCommit first && second.any mayCommit⟩
  | .committing (some second), .proceed => some ⟨.commit second, .transaction2 none none, true⟩
  | .committing none, .proceed => some ⟨.none, .transaction2 none none, false⟩
  | .transaction2 (some first) second, .rollback =>
    some ⟨.rollback first, .rollingBack second false, true⟩
  | .transaction2 none second, .rollback => some ⟨.none, .transaction2 none second, true⟩
  | .transaction2 (some first) second, .destroy =>
    some ⟨.rollback first, .rollingBack second true, true⟩
  | .transaction2 none _, .destroy => some ⟨.none, .idle, true⟩
  | .rollingBack (some second) destroyed, .proceed =>
    some ⟨.rollback second, rolledBack destroyed, true⟩
  | .rollingBack none destroyed, .proceed => some ⟨.none, rolledBack destroyed, false⟩
  | _, _ => none

/-- The latches whose mutex a party has locked and not unlocked. -/
def held : Point L → List L
  | .checking latch | .refusing latch => [latch]
  | .lockedFirst first _ => [first]
  | .lockedSecond _ second => [second]
  | .checkingFirst first second | .checkingSecond first second | .refusingFirst first second =>
    [first, second]
  | .refusingSecond second => [second]
  | .transaction1 latch_ => latch_.toList
  | .transaction2 latch1_ latch2_ => latch1_.toList ++ latch2_.toList
  | .committing latch2_ | .rollingBack latch2_ _ => latch2_.toList
  | _ => []

/-- The latches that a party found uncommitted and has held since. -/
def found : Point L → List L
  | .checkingSecond first _ => [first]
  | .transaction1 latch_ => latch_.toList
  | .transaction2 latch1_ latch2_ => latch1_.toList ++ latch2_.toList
  | .committing latch2_ | .rollingBack latch2_ _ => latch2_.toList
  | _ => []

/-- Outside `begin_transaction`, and without a transaction that may commit. -/
def outside : Point L → Bool
  | .idle => true
  | .transaction1 latch_ => latch_.isNone
  | .transaction2 latch1_ _ => latch1_.isNone
  | _ => false

/-- The two latches of a pair differ, and the pointers to them are both null or
both not; within `commit` and `rollback` the second one is not null. -/
def Formed : Point L → Prop
  | .lockingPair first second | .lockedFirst first second | .lockedSecond first second
  | .checkingFirst first second | .checkingSecond first second | .refusingFirst first second =>
    first ≠ second
  | .transaction2 none latch2_ => latch2_ = none
  | .transaction2 (some first) latch2_ => ∃ second, latch2_ = some second ∧ first ≠ second
  | .committing latch2_ | .rollingBack latch2_ _ => latch2_ ≠ none
  | _ => True

/-- A latch found uncommitted is held. -/
theorem held_of_found {point : Point L} {latch : L} (found : latch ∈ point.found) :
    latch ∈ point.held := by
  cases point <;> simp_all [Point.found, held]

/-- A party outside holds nothing. -/
theorem held_of_outside {point : Point L} (formed : point.Formed) (out : point.outside = true) :
    point.held = [] := by
  cases point with
  | idle => rfl
  | transaction1 latch_ =>
    obtain rfl : latch_ = none := by simpa [outside] using out
    rfl
  | transaction2 latch1_ latch2_ =>
    obtain rfl : latch1_ = none := by simpa [outside] using out
    obtain rfl : latch2_ = none := formed
    rfl
  | _ => simp [outside] at out

end Point

namespace Effect

variable {L : Type}

/-- The mutex that an effect locks. -/
def takes : Effect L → Option L
  | .lock latch => some latch
  | _ => Option.none

/-- The mutex that an effect unlocks. -/
def gives : Effect L → Option L
  | .unlock latch | .commit latch | .rollback latch => some latch
  | _ => Option.none

/-- The latches that an effect commits: one, or none. -/
def commits : Effect L → List L
  | .commit latch => [latch]
  | _ => []

/-- The latch that an effect asserts to be uncommitted. -/
def asserts : Effect L → Option L
  | .commit latch | .rollback latch => some latch
  | _ => Option.none

end Effect

/-- What a step does when its party is at a formed point and the latches that it
found uncommitted still are: its own assertions and those of the latch hold, it
unlocks only what it holds, and the point it leads to accounts for what is held. -/
structure Proper {L : Type} (mayCommit : L → Bool) (point : Point L) (outcome : Outcome L) :
    Prop where
  formed : outcome.next.Formed
  asserted : outcome.asserted = true
  asserts : ∀ latch, outcome.effect.asserts = some latch → mayCommit latch = true
  gives : ∀ latch, outcome.effect.gives = some latch → latch ∈ point.held
  held : ∀ latch, latch ∈ outcome.next.held ↔
    (latch ∈ point.held ∧ outcome.effect.gives ≠ some latch) ∨ outcome.effect.takes = some latch
  found : ∀ latch ∈ outcome.next.found,
    mayCommit latch = true ∧ outcome.effect.gives ≠ some latch

namespace Proper

variable {L : Type} {mayCommit : L → Bool} {point next : Point L} {latch : L}

/-- A step that uses no latch. -/
theorem reads (formed : next.Formed) (held : ∀ other, other ∈ next.held ↔ other ∈ point.held)
    (found : ∀ other ∈ next.found, mayCommit other = true) :
    Proper mayCommit point ⟨.none, next, true⟩ where
  formed := formed
  asserted := rfl
  asserts := by simp [Effect.asserts]
  gives := by simp [Effect.gives]
  held other := by simp [held, Effect.gives, Effect.takes]
  found other member := ⟨found other member, by simp [Effect.gives]⟩

/-- A step that locks a mutex. -/
theorem locks (formed : next.Formed)
    (held : ∀ other, other ∈ next.held ↔ other ∈ point.held ∨ latch = other)
    (found : ∀ other ∈ next.found, mayCommit other = true) :
    Proper mayCommit point ⟨.lock latch, next, true⟩ where
  formed := formed
  asserted := rfl
  asserts := by simp [Effect.asserts]
  gives := by simp [Effect.gives]
  held other := by simp [held, Effect.gives, Effect.takes]
  found other member := ⟨found other member, by simp [Effect.gives]⟩

/-- A step that unlocks a mutex, after a `commit` or a `rollback` of its latch only if
the latch may commit. -/
theorem unlocks {effect : Effect L} (formed : next.Formed) (gives : effect.gives = some latch)
    (asserts : effect = .unlock latch ∨ mayCommit latch = true) (holds : latch ∈ point.held)
    (held : ∀ other, other ∈ next.held ↔ other ∈ point.held ∧ latch ≠ other)
    (found : ∀ other ∈ next.found, mayCommit other = true) :
    Proper mayCommit point ⟨effect, next, true⟩ where
  formed := formed
  asserted := rfl
  asserts other same := by
    rcases asserts with rfl | allowed
    · cases same
    · cases effect with
      | none => cases same
      | lock used => cases same
      | unlock used => cases same
      | commit used =>
        obtain rfl := Option.some.inj gives
        obtain rfl := Option.some.inj same
        exact allowed
      | rollback used =>
        obtain rfl := Option.some.inj gives
        obtain rfl := Option.some.inj same
        exact allowed
  gives other same := by
    obtain rfl := Option.some.inj (gives.symm.trans same)
    exact holds
  held other := by
    have takes : effect.takes = none := by cases effect <;> first | rfl | cases gives
    simp [held, gives, takes]
  found other member := by
    refine ⟨found other member, fun same => ?_⟩
    obtain rfl := Option.some.inj (gives.symm.trans same)
    exact ((held latch).mp (Point.held_of_found member)).2 rfl

end Proper

/-- Every step of a party is proper. The cases are those of the program: where the
party is, and what it is asked to do there. -/
theorem Point.advance_proper {L : Type} [DecidableEq L] {mayCommit : L → Bool} {point : Point L}
    {action : Action L} {outcome : Outcome L} (formed : point.Formed)
    (found : ∀ latch ∈ point.found, mayCommit latch = true)
    (advanced : point.advance mayCommit action = some outcome) :
    Proper mayCommit point outcome := by
  cases point with
  | idle =>
    cases action with
    | begin latch =>
      obtain rfl := Option.some.inj advanced
      exact .reads trivial (by simp [held]) (by simp [Point.found])
    | beginPair first second =>
      simp only [advance, Option.ite_none_left_eq_some, Option.some.injEq] at advanced
      obtain ⟨apart, rfl⟩ := advanced
      exact .reads apart (by simp [held]) (by simp [Point.found])
    | _ => simp [advance] at advanced
  | locking latch =>
    cases action with
    | lock =>
      obtain rfl := Option.some.inj advanced
      exact .locks trivial (by simp [held, eq_comm]) (by simp [Point.found])
    | _ => simp [advance] at advanced
  | checking latch =>
    cases action with
    | check =>
      by_cases allowed : mayCommit latch = true
      · simp only [advance, allowed, ↓reduceIte, Option.some.injEq] at advanced
        subst advanced
        exact .reads trivial (by simp [held]) (by simp [Point.found, allowed])
      · simp only [advance, allowed, Bool.false_eq_true, ↓reduceIte, Option.some.injEq] at advanced
        subst advanced
        exact .reads trivial (by simp [held]) (by simp [Point.found])
    | _ => simp [advance] at advanced
  | refusing latch =>
    cases action with
    | unlock =>
      obtain rfl := Option.some.inj advanced
      exact .unlocks trivial rfl (.inl rfl) (by simp [held]) (by simp [held, eq_comm])
        (by simp [Point.found])
    | _ => simp [advance] at advanced
  | lockingPair first second =>
    cases action with
    | lockFirst =>
      obtain rfl := Option.some.inj advanced
      exact .locks formed (by simp [held, eq_comm]) (by simp [Point.found])
    | lockSecond =>
      obtain rfl := Option.some.inj advanced
      exact .locks formed (by simp [held, eq_comm]) (by simp [Point.found])
    | _ => simp [advance] at advanced
  | lockedFirst first second =>
    cases action with
    | lockSecond =>
      obtain rfl := Option.some.inj advanced
      exact .locks formed (by simp [held, eq_comm]) (by simp [Point.found])
    | backOff =>
      obtain rfl := Option.some.inj advanced
      exact .unlocks formed rfl (.inl rfl) (by simp [held]) (by simp [held, eq_comm])
        (by simp [Point.found])
    | _ => simp [advance] at advanced
  | lockedSecond first second =>
    cases action with
    | lockFirst =>
      obtain rfl := Option.some.inj advanced
      exact .locks formed (by simp [held, eq_comm, or_comm]) (by simp [Point.found])
    | backOff =>
      obtain rfl := Option.some.inj advanced
      exact .unlocks formed rfl (.inl rfl) (by simp [held]) (by simp [held, eq_comm])
        (by simp [Point.found])
    | _ => simp [advance] at advanced
  | checkingFirst first second =>
    cases action with
    | check =>
      by_cases allowed : mayCommit first = true
      · simp only [advance, allowed, ↓reduceIte, Option.some.injEq] at advanced
        subst advanced
        exact .reads formed (by simp [held]) (by simp [Point.found, allowed])
      · simp only [advance, allowed, Bool.false_eq_true, ↓reduceIte, Option.some.injEq] at advanced
        subst advanced
        exact .reads formed (by simp [held]) (by simp [Point.found])
    | _ => simp [advance] at advanced
  | checkingSecond first second =>
    cases action with
    | check =>
      have allowedFirst : mayCommit first = true := found first (by simp [Point.found])
      by_cases allowed : mayCommit second = true
      · simp only [advance, allowed, ↓reduceIte, Option.some.injEq] at advanced
        subst advanced
        exact .reads ⟨second, rfl, formed⟩ (by simp [held])
          (by simp [Point.found, allowed, allowedFirst])
      · simp only [advance, allowed, Bool.false_eq_true, ↓reduceIte, Option.some.injEq] at advanced
        subst advanced
        exact .reads formed (by simp [held]) (by simp [Point.found])
    | _ => simp [advance] at advanced
  | refusingFirst first second =>
    cases action with
    | unlock =>
      obtain rfl := Option.some.inj advanced
      have apart : first ≠ second := formed
      refine .unlocks trivial rfl (.inl rfl) (by simp [held]) (fun other => ?_)
        (by simp [Point.found])
      by_cases same : other = second
      · simp [held, same, apart]
      · simp [held, same, eq_comm]
    | _ => simp [advance] at advanced
  | refusingSecond second =>
    cases action with
    | unlock =>
      obtain rfl := Option.some.inj advanced
      exact .unlocks rfl rfl (.inl rfl) (by simp [held]) (by simp [held, eq_comm])
        (by simp [Point.found])
    | _ => simp [advance] at advanced
  | transaction1 latch_ =>
    cases latch_ with
    | none =>
      cases action with
      | rollback | destroy =>
        obtain rfl := Option.some.inj advanced
        exact .reads trivial (by simp [held]) (by simp [Point.found])
      | _ => simp [advance] at advanced
    | some latch =>
      have allowed : mayCommit latch = true := found latch (by simp [Point.found])
      cases action with
      | commit =>
        simp only [advance, allowed, Option.some.injEq] at advanced
        subst advanced
        exact .unlocks trivial rfl (.inr allowed) (by simp [held]) (by simp [held, eq_comm])
          (by simp [Point.found])
      | rollback | destroy =>
        obtain rfl := Option.some.inj advanced
        exact .unlocks trivial rfl (.inr allowed) (by simp [held]) (by simp [held, eq_comm])
          (by simp [Point.found])
      | _ => simp [advance] at advanced
  | transaction2 latch1_ latch2_ =>
    cases latch1_ with
    | none =>
      obtain rfl : latch2_ = none := formed
      cases action with
      | rollback | destroy =>
        obtain rfl := Option.some.inj advanced
        exact .reads (by trivial) (by simp [held]) (by simp [Point.found])
      | _ => simp [advance] at advanced
    | some first =>
      obtain ⟨second, rfl, apart⟩ := formed
      have allowed : mayCommit first = true := found first (by simp [Point.found])
      have allowedSecond : mayCommit second = true := found second (by simp [Point.found])
      have rest (other : L) : other ∈ [second] ↔ other ∈ [first, second] ∧ first ≠ other := by
        by_cases same : other = second
        · simp [same, apart]
        · simp [same, eq_comm]
      cases action with
      | commit =>
        simp only [advance, allowed, allowedSecond, Option.any_some, Bool.and_self,
          Option.some.injEq] at advanced
        subst advanced
        exact .unlocks (Option.some_ne_none second) rfl (.inr allowed) (by simp [held]) rest
          (by simp [Point.found, allowedSecond])
      | rollback | destroy =>
        obtain rfl := Option.some.inj advanced
        exact .unlocks (Option.some_ne_none second) rfl (.inr allowed) (by simp [held]) rest
          (by simp [Point.found, allowedSecond])
      | _ => simp [advance] at advanced
  | committing latch2_ =>
    obtain ⟨second, rfl⟩ := Option.ne_none_iff_exists'.mp formed
    have allowed : mayCommit second = true := found second (by simp [Point.found])
    cases action with
    | proceed =>
      obtain rfl := Option.some.inj advanced
      exact .unlocks rfl rfl (.inr allowed) (by simp [held]) (by simp [held, eq_comm])
        (by simp [Point.found])
    | _ => simp [advance] at advanced
  | rollingBack latch2_ destroyed =>
    obtain ⟨second, rfl⟩ := Option.ne_none_iff_exists'.mp formed
    have allowed : mayCommit second = true := found second (by simp [Point.found])
    cases action with
    | proceed =>
      obtain rfl := Option.some.inj advanced
      cases destroyed <;>
        exact .unlocks (by trivial) rfl (.inr allowed) (by simp [held])
          (by simp [held, rolledBack, eq_comm]) (by simp [Point.found, rolledBack])
    | _ => simp [advance] at advanced

end Asioex
