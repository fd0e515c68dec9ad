import Asioex.Lib.Claims
import Asioex.PairAtomicity

/-!
# Transactions as single steps

A transaction takes many steps, in between which other parties take theirs, and two
latches are committed by two of these steps. To everybody it is as if the transaction
took one step: it claims its latches all at once, where it begins to commit, or it is
refused where it finds one of them committed.

Each of these instants is a step of the transaction itself, after it was begun and before
its party has the answer, so the claims stand in an order in which the transactions could
have been run one after the other. A latch whose commit is begun counts as claimed. Nobody
sees the difference: its mutex is held until the commit is done.
-/

namespace Asioex.Latches

variable {P L : Type}

/-- What a step decides: the commit of a transaction claims its latches, and a check that
finds a latch committed refuses the transaction. -/
def decided (s : Latches P L) : P × Action L → List (Claims.Event P L)
  | (party, .commit) =>
    match s.point party with
    | .transaction1 (some latch) => [.claim party [latch]]
    | .transaction2 (some first) (some second) => [.claim party [first, second]]
    | _ => []
  | (party, .check) =>
    match s.point party with
    | .checking latch => if s.mayCommit latch then [] else [.refuse party [latch]]
    | .checkingFirst first second =>
      if s.mayCommit first then [] else [.refuse party [first, second]]
    | .checkingSecond first second =>
      if s.mayCommit second then [] else [.refuse party [first, second]]
    | _ => []
  | _ => []

/-- A party has claimed a latch when it has committed it, or has begun to commit the pair
that the latch is in. -/
def ClaimedBy (s : Latches P L) (party : P) (latch : L) : Prop :=
  (party, latch) ∈ s.commits ∨ s.point party = .committing (some latch)

/-- A commit begins with the one latch of its transaction, or with the first of two. -/
theorem Point.commit_begins [DecidableEq L] {mayCommit : L → Bool} {point : Point L}
    {outcome : Outcome L} (formed : point.Formed)
    (advanced : point.advance mayCommit .commit = some outcome) :
    (∃ latch, point = .transaction1 (some latch) ∧ outcome.effect = .commit latch ∧
      outcome.next = .transaction1 none) ∨
    ∃ first second, point = .transaction2 (some first) (some second) ∧
      outcome.effect = .commit first ∧ outcome.next = .committing (some second) := by
  cases point with
  | transaction1 latch_ =>
    cases latch_ with
    | none => cases advanced
    | some latch =>
      cases advanced
      exact .inl ⟨latch, rfl, rfl, rfl⟩
  | transaction2 latch1_ latch2_ =>
    cases latch1_ with
    | none => cases advanced
    | some first =>
      obtain ⟨second, rfl, -⟩ := formed
      cases advanced
      exact .inr ⟨first, second, rfl, rfl, rfl⟩
  | committing latch2_ | rollingBack latch2_ => cases latch2_ <;> cases advanced
  | _ => cases advanced

variable [DecidableEq P] [DecidableEq L]

/-- A latch is transferred when it is on record as committed by somebody. -/
theorem Orderly.transferred_iff {s : Latches P L} (orderly : s.Orderly) (latch : L) :
    s.transferred latch = true ↔ ∃ party, (party, latch) ∈ s.commits := by
  have counted := orderly.commits latch
  constructor
  · intro set
    rw [set, if_pos rfl] at counted
    have positive : 0 < s.commits.countP (·.2 == latch) := by omega
    obtain ⟨⟨party, other⟩, member, same⟩ := List.countP_pos_iff.mp positive
    obtain rfl : other = latch := by simpa using same
    exact ⟨party, member⟩
  · rintro ⟨party, member⟩
    by_contra clear
    rw [if_neg clear] at counted
    exact absurd (List.countP_eq_zero.mp counted _ member) (by simp)

/-- A latch that a party has found uncommitted, and has not begun to commit, is claimed by
nobody: the party holds its mutex. -/
theorem Orderly.unclaimed {s : Latches P L} (orderly : s.Orderly) {party : P} {latch : L}
    (holds : latch ∈ (s.point party).found)
    (elsewhere : s.point party ≠ .committing (some latch)) (other : P) :
    ¬s.ClaimedBy other latch := by
  rintro (member | commits)
  · have set := (orderly.transferred_iff latch).mpr ⟨other, member⟩
    have allowed := orderly.found party latch holds
    simp [mayCommit, set] at allowed
  · have held : latch ∈ (s.point other).held := by simp [commits, Point.held]
    obtain rfl := orderly.alone (Point.held_of_found holds) held
    exact elsewhere commits

/-- What is claimed after a step of one party: what is on record as committed, or is put
there, what the party goes on to commit, and what others are about to. -/
theorem step_claimed {s next : Latches P L} {party : P} {action : Action L}
    (stepped : machine.step s (party, action) = some next) :
    ∃ outcome, (s.point party).advance s.mayCommit action = some outcome ∧
      ∀ who latch, next.ClaimedBy who latch ↔ (who, latch) ∈ s.commits ∨
        (who = party ∧ (outcome.effect = .commit latch ∨
          outcome.next = .committing (some latch))) ∨
        (who ≠ party ∧ s.point who = .committing (some latch)) := by
  obtain ⟨outcome, advanced, point, others, commits⟩ := step_frame stepped
  refine ⟨outcome, advanced, fun who latch => ?_⟩
  have recorded : (who, latch) ∈ next.commits ↔
      (who, latch) ∈ s.commits ∨ (who = party ∧ outcome.effect = .commit latch) := by
    rw [commits, List.mem_append]
    refine or_congr_right ?_
    cases outcome.effect <;> simp [Effect.commits, eq_comm]
  rw [ClaimedBy, recorded]
  by_cases mine : who = party
  · subst mine
    rw [point]
    simp [or_assoc]
  · rw [others who mine]
    simp [mine]

/-- A step that begins no commit leaves what is claimed: if it commits a latch, it is the
second one of a pair. -/
theorem claimed_kept {s next : Latches P L} {party : P} {action : Action L}
    (orderly : s.Orderly) (stepped : machine.step s (party, action) = some next)
    (uncommitting : action ≠ .commit) (who : P) (latch : L) :
    next.ClaimedBy who latch ↔ s.ClaimedBy who latch := by
  obtain ⟨outcome, advanced, claimed⟩ := step_claimed stepped
  have formed := orderly.formed party
  have ends : outcome.effect = .commit latch ↔ s.point party = .committing (some latch) := by
    constructor
    · intro commits
      rcases commit_cases formed advanced commits with ⟨rfl, -⟩ | ⟨second, rfl, -⟩ | ⟨point, -⟩
      · exact absurd rfl uncommitting
      · exact absurd rfl uncommitting
      · exact point
    · intro point
      rw [point] at advanced
      exact leaves_committing advanced
  have begins : outcome.next ≠ .committing (some latch) := by
    intro arrives
    obtain ⟨first, rfl, -⟩ := committing_cases formed advanced arrives
    exact uncommitting rfl
  rw [claimed, ends, ClaimedBy]
  by_cases mine : who = party
  · subst mine
    simp [begins]
  · simp [mine]

/-- The step that begins a commit claims the latches of the transaction: the one that it
commits, and the one that its party goes on to commit. -/
theorem claimed_commit {s next : Latches P L} {party : P} (orderly : s.Orderly)
    (stepped : machine.step s (party, .commit) = some next) :
    ∃ group, s.decided (party, .commit) = [.claim party group] ∧
      (∀ latch ∈ group, ∀ who, ¬s.ClaimedBy who latch) ∧
      ∀ who latch, next.ClaimedBy who latch ↔
        s.ClaimedBy who latch ∨ (who = party ∧ latch ∈ group) := by
  obtain ⟨outcome, advanced, claimed⟩ := step_claimed stepped
  have begun := Point.commit_begins (orderly.formed party) advanced
  have outside (latch : L) : s.point party ≠ .committing (some latch) := by
    rcases begun with ⟨own, point, -⟩ | ⟨first, second, point, -⟩ <;> simp [point]
  have before (who : P) (latch : L) : s.ClaimedBy who latch ↔ (who, latch) ∈ s.commits ∨
      (who ≠ party ∧ s.point who = .committing (some latch)) := by
    refine or_congr_right ⟨fun point => ⟨?_, point⟩, And.right⟩
    rintro rfl
    exact outside latch point
  rcases begun with ⟨own, point, effect, leads⟩ | ⟨first, second, point, effect, leads⟩
  · refine ⟨[own], by simp [decided, point], fun latch member => ?_, fun who latch => ?_⟩
    · exact orderly.unclaimed (by simpa [point, Point.found] using member) (outside latch)
    · rw [claimed, before, effect, leads]
      simp only [Effect.commit.injEq, reduceCtorEq, or_false, List.mem_singleton]
      grind
  · refine ⟨[first, second], by simp [decided, point], fun latch member => ?_, fun who latch => ?_⟩
    · exact orderly.unclaimed (by simpa [point, Point.found] using member) (outside latch)
    · rw [claimed, before, effect, leads]
      simp only [Effect.commit.injEq, Point.committing.injEq, Option.some.injEq, List.mem_cons,
        List.not_mem_nil, or_false]
      grind

/-- A check decides nothing, or it refuses a group with a latch that is claimed. -/
theorem Orderly.decided_check {s : Latches P L} (orderly : s.Orderly) (party : P) :
    s.decided (party, .check) = [] ∨ ∃ group, s.decided (party, .check) = [.refuse party group] ∧
      ∃ latch ∈ group, ∃ who, s.ClaimedBy who latch := by
  have taken {latch : L} (refused : ¬s.mayCommit latch = true) : ∃ who, s.ClaimedBy who latch := by
    obtain ⟨who, member⟩ := (orderly.transferred_iff latch).mp (by simpa [mayCommit] using refused)
    exact ⟨who, .inl member⟩
  cases point : s.point party with
  | checking latch =>
    by_cases allowed : s.mayCommit latch = true
    · exact .inl (by simp [decided, point, allowed])
    · exact .inr ⟨[latch], by simp [decided, point, allowed], latch, by simp, taken allowed⟩
  | checkingFirst first second =>
    by_cases allowed : s.mayCommit first = true
    · exact .inl (by simp [decided, point, allowed])
    · exact .inr ⟨[first, second], by simp [decided, point, allowed], first, by simp, taken allowed⟩
  | checkingSecond first second =>
    by_cases allowed : s.mayCommit second = true
    · exact .inl (by simp [decided, point, allowed])
    · exact .inr ⟨[first, second], by simp [decided, point, allowed], second, by simp, taken allowed⟩
  | _ => exact .inl (by simp [decided, point])

/-- The latches are orderly, and the claims stand as the parties have made them. -/
structure Linearized (s : Latches P L) (claimer : L → Option P) : Prop where
  orderly : s.Orderly
  claims : ∀ party latch, claimer latch = some party ↔ s.ClaimedBy party latch

theorem create_linearized : (create : Latches P L).Linearized (fun _ => none) :=
  ⟨create_orderly, by simp [create, ClaimedBy]⟩

/-- What the steps of the parties decide is what the claims do in one step each. -/
theorem decided_tracks :
    (machine : Machine (Latches P L) _).Tracks Claims.machine decided Linearized := by
  rintro s ⟨party, action⟩ next claimer ⟨orderly, claims⟩ stepped
  have still : next.Orderly := step_orderly s (party, action) next orderly stepped
  by_cases commits : action = .commit
  · subst commits
    obtain ⟨group, decides, fresh, grows⟩ := claimed_commit orderly stepped
    have free : ∀ latch ∈ group, claimer latch = none := by
      intro latch member
      exact Option.eq_none_iff_forall_ne_some.mpr
        (fun who claimed => fresh latch member who ((claims who latch).mp claimed))
    refine ⟨fun latch => if latch ∈ group then some party else claimer latch, ?_, still,
      fun who latch => ?_⟩
    · rw [decides]
      exact (Claims.machine.run_cons).mpr ⟨_, if_pos free, rfl⟩
    · rw [grows, ← claims]
      by_cases member : latch ∈ group
      · simp [member, free latch member, eq_comm]
      · simp [member]
  · have same (who : P) (latch : L) : claimer latch = some who ↔ next.ClaimedBy who latch :=
      (claims who latch).trans (claimed_kept orderly stepped commits who latch).symm
    refine ⟨claimer, ?_, still, same⟩
    by_cases checks : action = .check
    · subst checks
      rcases orderly.decided_check party with quiet | ⟨group, decides, latch, member, who, taken⟩
      · rw [quiet]
        rfl
      · rw [decides]
        have meets : ∃ item ∈ group, (claimer item).isSome :=
          ⟨latch, member, Option.isSome_iff_exists.mpr ⟨who, (claims who latch).mpr taken⟩⟩
        exact (Claims.machine.run_cons).mpr ⟨claimer, if_pos meets, rfl⟩
    · have quiet : s.decided (party, action) = [] := by
        cases action <;> first | rfl | exact absurd rfl commits | exact absurd rfl checks
      rw [quiet]
      rfl

/-- Every interleaved run of transactions decides as claims do that take one step each: a
latch belongs to the party that has committed it or is about to, the groups that were
claimed are disjoint, and a refused group meets one that was claimed before. -/
theorem transactions_linearizable (events : List (P × Action L)) (s : Latches P L)
    (ran : machine.run create events = some s) :
    (∃ claimer, Claims.machine.run (fun _ => none) (machine.shown decided create events) =
        some claimer ∧
      ∀ party latch, claimer latch = some party ↔
        (party, latch) ∈ s.commits ∨ s.point party = .committing (some latch)) ∧
    (Claims.groups (machine.shown decided create events)).Pairwise List.Disjoint ∧
    ∀ before after party group,
      machine.shown decided create events = before ++ .refuse party group :: after →
      ∃ earlier ∈ Claims.groups before, ∃ latch ∈ group, latch ∈ earlier := by
  obtain ⟨claimer, matched, linearized⟩ := decided_tracks.run create_linearized ran
  refine ⟨⟨claimer, matched, linearized.claims⟩, Claims.run_disjoint matched, ?_⟩
  intro before after party group split
  rw [split] at matched
  exact Claims.refused_meets matched

/-- While a pair is being committed another party takes its first latch, and a third one
then wants the second latch together with a free one. -/
def overlapping : List (Nat × Action Nat) :=
  [(0, .beginPair 0 1), (0, .lockFirst), (0, .lockSecond), (0, .check), (0, .check), (0, .commit),
    (1, .begin 0), (1, .lock), (1, .check), (0, .proceed), (2, .beginPair 2 1), (2, .lockSecond),
    (2, .lockFirst), (2, .check), (2, .check)]

theorem transactions_linearizable_overlapping :
    ∃ s, machine.run create overlapping = some s ∧
      machine.shown decided create overlapping =
        [.claim 0 [0, 1], .refuse 1 [0], .refuse 2 [2, 1]] ∧
      ∃ earlier ∈ Claims.groups [.claim 0 [0, 1], .refuse 1 [0]],
        ∃ latch ∈ [2, 1], latch ∈ earlier := by
  refine ⟨_, rfl, rfl, ?_⟩
  exact (transactions_linearizable overlapping _ rfl).2.2
    [.claim 0 [0, 1], .refuse 1 [0]] [] 2 [2, 1] rfl

end Asioex.Latches
