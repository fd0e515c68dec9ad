import Asioex.TransactionRuns

/-!
# Two latches committed together

`transaction2::commit` commits one latch and unlocks it, then the other. In between
one latch is committed and the other is not, and any party may lock the first one
and see that. It cannot also hold the second one, which the committing party holds
until it has committed it too. So whoever holds both mutexes sees both latches
committed or neither, as if the commit had been one step.
-/

namespace Asioex.Latches

variable {P L : Type}

/-- A step that commits neither of two latches but through a transaction on both. -/
def CommitsTogether (one two : L) (s : Latches P L) (event : P × Action L)
    (_next : Latches P L) : Prop :=
  event.2 = .commit →
    match s.point event.1 with
    | .transaction1 (some latch) => latch ≠ one ∧ latch ≠ two
    | .transaction2 (some first) (some second) =>
      (first = one ∧ second = two) ∨ (first = two ∧ second = one) ∨
        (first ≠ one ∧ first ≠ two ∧ second ≠ one ∧ second ≠ two)
    | _ => True

/-- The condition does not depend on the order of the two latches. -/
theorem CommitsTogether.symm {one two : L} {s next : Latches P L} {event : P × Action L}
    (together : CommitsTogether one two s event next) : CommitsTogether two one s event next := by
  intro asked
  have condition := together asked
  revert condition
  split
  · exact fun ⟨notOne, notTwo⟩ => ⟨notTwo, notOne⟩
  · rintro (pair | pair | ⟨a, b, c, d⟩)
    · exact .inr (.inl pair)
    · exact .inl pair
    · exact .inr (.inr ⟨b, a, d, c⟩)
  · exact id

/-- A party about to commit the second latch has committed the first; and while the
first is committed and the second is not, some party is about to commit the second. -/
structure Follows (one two : L) (s : Latches P L) : Prop where
  leads : ∀ party, s.point party = .committing (some two) → s.transferred one = true
  pending : s.transferred one = true → s.transferred two = false →
    ∃ party, s.point party = .committing (some two)

variable [DecidableEq P] [DecidableEq L]

/-- The three places of the program from which a latch is committed. -/
theorem commit_cases {mayCommit : L → Bool} {point : Point L} {action : Action L}
    {outcome : Outcome L} {latch : L} (formed : point.Formed)
    (advanced : point.advance mayCommit action = some outcome)
    (commits : outcome.effect = .commit latch) :
    (action = .commit ∧ point = .transaction1 (some latch) ∧ outcome.next = .transaction1 none) ∨
    (∃ second, action = .commit ∧ point = .transaction2 (some latch) (some second) ∧
      outcome.next = .committing (some second)) ∨
    (point = .committing (some latch) ∧ outcome.next = .transaction2 none none) := by
  cases point with
  | transaction1 latch_ =>
    cases latch_ with
    | none => cases action <;> cases advanced <;> cases commits
    | some own =>
      cases action <;> cases advanced <;> cases commits
      exact .inl ⟨rfl, rfl, rfl⟩
  | transaction2 latch1_ latch2_ =>
    cases latch1_ with
    | none => cases action <;> cases advanced <;> cases commits
    | some first =>
      obtain ⟨second, rfl, -⟩ := formed
      cases action <;> cases advanced <;> cases commits
      exact .inr (.inl ⟨second, rfl, rfl, rfl⟩)
  | committing latch2_ =>
    cases latch2_ with
    | none =>
      cases action <;> cases advanced
      cases commits
    | some second =>
      cases action <;> cases advanced
      cases commits
      exact .inr (.inr ⟨rfl, rfl⟩)
  | rollingBack latch2_ destroyed =>
    cases latch2_ <;> cases action <;> cases advanced
    all_goals cases commits
  | checking latch | checkingFirst first second | checkingSecond first second =>
    cases action <;> simp only [Point.advance, reduceCtorEq] at advanced
    split at advanced <;> cases advanced
    all_goals cases commits
  | idle =>
    cases action <;> simp only [Point.advance, reduceCtorEq] at advanced
    · cases advanced
      cases commits
    · split at advanced <;> cases advanced
      cases commits
  | _ => cases action <;> cases advanced <;> cases commits

/-- A party arrives at the second commit from the first one, and leaves it by the
second. -/
theorem committing_cases {mayCommit : L → Bool} {point : Point L} {action : Action L}
    {outcome : Outcome L} {second : L} (formed : point.Formed)
    (advanced : point.advance mayCommit action = some outcome)
    (arrives : outcome.next = .committing (some second)) :
    ∃ first, action = .commit ∧ point = .transaction2 (some first) (some second) ∧
      outcome.effect = .commit first := by
  cases point with
  | transaction2 latch1_ latch2_ =>
    cases latch1_ with
    | none => cases action <;> cases advanced <;> cases arrives
    | some first =>
      obtain ⟨second, rfl, -⟩ := formed
      cases action <;> cases advanced <;> cases arrives
      exact ⟨first, rfl, rfl, rfl⟩
  | transaction1 latch_ =>
    cases latch_ <;> cases action <;> cases advanced <;> cases arrives
  | committing latch2_ =>
    cases latch2_ <;> cases action <;> cases advanced <;> cases arrives
  | rollingBack latch2_ destroyed =>
    cases latch2_ <;> cases destroyed <;> cases action <;> cases advanced
    all_goals cases arrives
  | checking latch | checkingFirst first second | checkingSecond first second =>
    cases action <;> simp only [Point.advance, reduceCtorEq] at advanced
    split at advanced <;> cases advanced
    all_goals cases arrives
  | idle =>
    cases action <;> simp only [Point.advance, reduceCtorEq] at advanced
    · cases advanced
      cases arrives
    · split at advanced <;> cases advanced
      cases arrives
  | _ => cases action <;> cases advanced <;> cases arrives

/-- The only step from there is the second commit. -/
theorem leaves_committing {mayCommit : L → Bool} {action : Action L} {outcome : Outcome L}
    {second : L} (advanced : (Point.committing (some second)).advance mayCommit action = some outcome) :
    outcome.effect = .commit second := by
  cases action <;> cases advanced
  rfl

/-- A step that commits the two latches only together keeps the one following the
other, whichever of the two it is stated for. -/
theorem Follows.step {one two : L} {s next : Latches P L} {event : P × Action L}
    (apart : one ≠ two) (orderly : s.Orderly) (follows : Follows one two s)
    (converse : Follows two one s) (together : CommitsTogether one two s event next)
    (stepped : machine.step s event = some next) : Follows one two next := by
  obtain ⟨party, action⟩ := event
  obtain ⟨outcome, after, advanced, used, rfl⟩ := step_eq stepped
  have formed := orderly.formed party
  have performed := perform_performed used
  have arrived : (after.arrive party outcome).point party = outcome.next := by simp [arrive]
  have others (other : P) (distinct : other ≠ party) :
      (after.arrive party outcome).point other = s.point other := by
    simp [arrive, Function.update_of_ne distinct, performed.point]
  refine ⟨fun other leads => ?_, fun oneSet twoClear => ?_⟩
  · refine (performed.transferred one).mpr ?_
    by_cases mine : other = party
    · subst mine
      rw [arrived] at leads
      obtain ⟨first, rfl, point, committed⟩ := committing_cases formed advanced leads
      have condition := together rfl
      simp only [point] at condition
      rcases condition with ⟨rfl, -⟩ | ⟨-, same⟩ | ⟨-, -, -, other⟩
      · exact .inr committed
      · exact absurd same.symm apart
      · exact absurd rfl other
    · rw [others other mine] at leads
      exact .inl (follows.leads other leads)
  · have notSet : ¬(s.transferred two = true ∨ outcome.effect = .commit two) := by
      rw [← performed.transferred two]
      exact Bool.eq_false_iff.mp twoClear
    obtain ⟨notBefore, notNow⟩ := not_or.mp notSet
    by_cases committed : outcome.effect = .commit one
    · rcases commit_cases formed advanced committed with
        ⟨rfl, point, -⟩ | ⟨second, rfl, point, leads⟩ | ⟨point, -⟩
      · have condition := together rfl
        simp only [point] at condition
        exact absurd rfl condition.1
      · have condition := together rfl
        simp only [point] at condition
        rcases condition with ⟨-, rfl⟩ | ⟨same, -⟩ | ⟨other, -⟩
        · exact ⟨party, arrived.trans leads⟩
        · exact absurd same apart
        · exact absurd rfl other
      · exact absurd (converse.leads party point) notBefore
    · have oneBefore : s.transferred one = true :=
        ((performed.transferred one).mp oneSet).resolve_right committed
      obtain ⟨other, leads⟩ := follows.pending oneBefore (Bool.eq_false_iff.mpr notBefore)
      refine ⟨other, ?_⟩
      by_cases mine : other = party
      · subst mine
        rw [leads] at advanced
        exact absurd (leaves_committing advanced) notNow
      · exact (others other mine).trans leads

/-- Over a run that commits the two latches only together, each follows the other. -/
theorem run_follows {one two : L} (apart : one ≠ two) {events : List (P × Action L)}
    {s : Latches P L} (together : machine.Along (CommitsTogether one two) create events)
    (ran : machine.run create events = some s) : Follows one two s ∧ Follows two one s := by
  have fresh (first second : L) : Follows first second (create : Latches P L) :=
    ⟨by simp [create], by simp [create]⟩
  have keeps (before : Latches P L) (event : P × Action L) (after : Latches P L)
      (state : before.Orderly ∧ Follows one two before ∧ Follows two one before)
      (stepped : machine.step before event = some after)
      (condition : CommitsTogether one two before event after) :
      after.Orderly ∧ Follows one two after ∧ Follows two one after := by
    obtain ⟨orderly, follows, converse⟩ := state
    exact ⟨step_orderly before event after orderly stepped,
      follows.step apart orderly converse condition stepped,
      converse.step apart.symm orderly follows condition.symm stepped⟩
  exact (machine.run_invariant_along keeps
    ⟨create_orderly, fresh one two, fresh two one⟩ together ran).2

/-- The party that has yet to commit the second latch is its holder, so nobody else
can hold both. -/
theorem Follows.agree {one two : L} {s : Latches P L} (apart : one ≠ two) (orderly : s.Orderly)
    (follows : Follows one two s) {party : P} (holdsOne : s.owner one = some party)
    (holdsTwo : s.owner two = some party) (oneSet : s.transferred one = true) :
    s.transferred two = true := by
  by_contra twoClear
  obtain ⟨other, leads⟩ := follows.pending oneSet (Bool.eq_false_iff.mpr twoClear)
  have held : two ∈ (s.point other).held := by simp [leads, Point.held]
  obtain rfl := orderly.alone held ((orderly.owner party two).mp holdsTwo)
  have heldOne := (orderly.owner other one).mp holdsOne
  rw [leads] at heldOne
  exact apart (by simpa [Point.held] using heldOne)

/-- Transactions are exclusive and atomic. The history of the mutexes is lawful: each
acquisition is matched by one release of the same party, save where it still holds,
and a party outside holds nothing. Every assertion held. A latch is transferred by
one commit, and stays so. Of two latches that are committed only together, a party
holding both sees both committed or neither, and one is committed before the other
only while the committing party holds the other. -/
theorem transactions_exclusive_and_atomic (events : List (P × Action L)) (s : Latches P L)
    (ran : machine.run create events = some s) :
    (Mark.Lawful s.history s.owner ∧
      (∀ party latch, s.history.count (.lock party latch) =
        s.history.count (.unlock party latch) + if s.owner latch = some party then 1 else 0) ∧
      (∀ party, (s.point party).outside = true → ∀ latch, s.owner latch ≠ some party)) ∧
    s.asserted = true ∧
    (∀ latch, s.commits.countP (·.2 == latch) = (if s.transferred latch then 1 else 0) ∧
      ∀ event next, machine.step s event = some next →
        s.transferred latch = true → next.transferred latch = true) ∧
    (∀ one two, one ≠ two → machine.Along (CommitsTogether one two) create events →
      (∀ party, s.owner one = some party → s.owner two = some party →
        s.transferred one = s.transferred two) ∧
      (s.transferred one = true → s.transferred two = false →
        ∃ party, s.point party = .committing (some two) ∧ s.owner two = some party)) := by
  have orderly : s.Orderly := run_orderly ran
  refine ⟨⟨orderly.lawful, orderly.lawful.matched, fun party out latch holds => ?_⟩,
    orderly.asserted, fun latch => ⟨orderly.commits latch, fun event next stepped set => ?_⟩,
    fun one two apart together => ?_⟩
  · have member := (orderly.owner party latch).mp holds
    rw [Point.held_of_outside (orderly.formed party) out] at member
    exact List.not_mem_nil member
  · obtain ⟨party, action⟩ := event
    obtain ⟨outcome, after, -, used, rfl⟩ := step_eq stepped
    exact ((perform_performed used).transferred latch).mpr (.inl set)
  · obtain ⟨follows, converse⟩ := run_follows apart together ran
    refine ⟨fun party holdsOne holdsTwo => ?_, fun oneSet twoClear => ?_⟩
    · exact Bool.eq_iff_iff.mpr ⟨follows.agree apart orderly holdsOne holdsTwo,
        converse.agree apart.symm orderly holdsTwo holdsOne⟩
    · obtain ⟨party, leads⟩ := follows.pending oneSet twoClear
      exact ⟨party, leads, (orderly.owner party two).mpr (by simp [leads, Point.held])⟩

/-- A party commits two latches, another one takes the first of them in between, and
a third backs off once while it waits for both. -/
def interleaved : List (Nat × Action Nat) :=
  [(0, .beginPair 0 1), (0, .lockFirst), (2, .beginPair 1 0), (2, .lockFirst), (2, .backOff),
    (0, .lockSecond), (0, .check), (0, .check), (0, .commit), (1, .begin 0), (1, .lock),
    (1, .check), (1, .unlock), (1, .rollback)]

theorem transactions_exclusive_and_atomic_interleaved :
    ∃ s, machine.run create interleaved = some s ∧ s.transferred 0 = true ∧
      s.transferred 1 = false ∧ s.owner 1 = some 0 ∧ s.asserted = true ∧
      Mark.Lawful s.history s.owner ∧ (∀ latch, s.owner latch ≠ some 1) ∧
      machine.Along (CommitsTogether 0 1) create interleaved ∧
      ∃ party, s.point party = .committing (some 1) ∧ s.owner 1 = some party := by
  refine ⟨_, rfl, rfl, rfl, rfl, ?_⟩
  have exclusive := transactions_exclusive_and_atomic interleaved _ rfl
  have together : machine.Along (CommitsTogether 0 1) create interleaved := by
    iterate 8 refine (machine.along_cons rfl).mpr ⟨nofun, ?_⟩
    -- the one commit is that of the pair
    refine (machine.along_cons rfl).mpr ⟨fun _ => .inl ⟨rfl, rfl⟩, ?_⟩
    iterate 5 refine (machine.along_cons rfl).mpr ⟨nofun, ?_⟩
    trivial
  have pair := exclusive.2.2.2 0 1 (by decide) together
  exact ⟨exclusive.2.1, exclusive.1.1, exclusive.1.2.2 1 rfl, together, pair.2 rfl rfl⟩

end Asioex.Latches
