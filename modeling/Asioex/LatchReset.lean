import Asioex.TransactionRuns

/-!
# Latches that are used again

`basic_transfer_latch::reset` makes a latch committable again, so that one latch serves a
series of transfers. It locks no mutex: that nobody uses the latch meanwhile is left to its
caller. Here it is one step, and it may stand anywhere in a run, also while transactions are
open. No assertion fails for it, since it only makes latches committable, and between two
resets of a latch one party at most commits it.
-/

namespace Asioex.Latches

variable {P L : Type} [DecidableEq L]

/-- `basic_transfer_latch::reset`. -/
def reset (s : Latches P L) (latch : L) : Latches P L :=
  { s with transferred := Function.update s.transferred latch false }

/-- The steps of the parties, and resets. -/
inductive Use (P L : Type) where
  | act (party : P) (action : Action L)
  | reset (latch : L)

/-- The parties do not look at the record of commits. -/
theorem perform_commits {s after : Latches P L} {party : P} {effect : Effect L}
    (used : s.perform party effect = some after) (record : List (P × L)) :
    { s with commits := record }.perform party effect =
      some { after with commits := record ++ effect.commits.map (fun latch => (party, latch)) } := by
  cases effect with
  | none =>
    obtain rfl := Option.some.inj used
    simp [perform, Effect.commits]
  | lock latch =>
    simp only [perform, lock, Option.ite_none_right_eq_some, Option.some.injEq] at used
    obtain ⟨free, rfl⟩ := used
    simp [perform, lock, free, Effect.commits]
  | unlock latch | rollback latch =>
    obtain rfl := Option.some.inj used
    simp [perform, unlock, rollback, assertUncommitted, Effect.commits]
  | commit latch =>
    obtain rfl := Option.some.inj used
    rfl

variable [DecidableEq P]

def reusable : Machine (Latches P L) (Use P L) :=
  ⟨fun s use =>
    match use with
    | .act party action => step s (party, action)
    | .reset latch => some (s.reset latch)⟩

/-- A latch reset, with the commits of its use that is over taken off the record. -/
def renew (s : Latches P L) (latch : L) : Latches P L :=
  { s.reset latch with commits := s.commits.filter (·.2 ≠ latch) }

/-- A renewed latch is as if it had not been used: no other latch is concerned. -/
theorem Orderly.renew {s : Latches P L} (orderly : s.Orderly) (latch : L) :
    (s.renew latch).Orderly := by
  refine ⟨orderly.lawful, orderly.owner, orderly.formed, ?_, orderly.asserted, fun other => ?_⟩
  · intro party other found
    by_cases same : other = latch
    · simp [mayCommit, Latches.renew, reset, same]
    · have allowed := orderly.found party other found
      simpa [mayCommit, Latches.renew, reset, same] using allowed
  · have before := orderly.commits other
    change (s.commits.filter _).countP _ =
      if Function.update s.transferred latch false other then 1 else 0
    rw [List.countP_filter]
    by_cases same : other = latch
    · subst same
      simp
    · have all : s.commits.countP (fun commit => commit.2 == other && decide (commit.2 ≠ latch)) =
          s.commits.countP (·.2 == other) := by
        refine List.countP_congr fun commit _ => ?_
        simp only [Bool.and_eq_true, beq_iff_eq, decide_eq_true_eq, and_iff_left_iff_imp]
        rintro rfl
        exact same
      rw [all, before, Function.update_of_ne same]

/-- The latches are orderly, but that the record may hold commits of earlier uses. -/
def Guarded (s : Latches P L) : Prop := ∃ record, { s with commits := record }.Orderly

theorem create_guarded : (create : Latches P L).Guarded := ⟨[], create_orderly⟩

theorem Guarded.reset {s : Latches P L} (guarded : s.Guarded) (latch : L) :
    (s.reset latch).Guarded := by
  obtain ⟨record, orderly⟩ := guarded
  exact ⟨record.filter (·.2 ≠ latch), orderly.renew latch⟩

/-- What one step of a party does to the record of one latch: it adds at most one commit, to
a latch that was not transferred and is so afterwards. -/
inductive Records (s : Latches P L) (latch : L) (next : Latches P L) : Prop where
  | none (same : next.commits.filter (·.2 == latch) = s.commits.filter (·.2 == latch))
      (kept : next.transferred latch = s.transferred latch)
  | one (party : P)
      (more : next.commits.filter (·.2 == latch) =
        s.commits.filter (·.2 == latch) ++ [(party, latch)])
      (clear : s.transferred latch = false) (set : next.transferred latch = true)

/-- A step of a party keeps the latches guarded, and records at most one commit. -/
theorem Guarded.step {s next : Latches P L} (guarded : s.Guarded) {party : P}
    {action : Action L} (stepped : Latches.step s (party, action) = some next) :
    next.Guarded ∧ ∀ latch, Records s latch next := by
  obtain ⟨record, orderly⟩ := guarded
  obtain ⟨outcome, after, advanced, used, rfl⟩ := step_eq stepped
  have proper := Point.advance_proper (orderly.formed party) (orderly.found party) advanced
  have performed := perform_performed used
  have also : machine.step { s with commits := record } (party, action) =
      some ({ after with
        commits := record ++ outcome.effect.commits.map (fun latch => (party, latch)) }.arrive
          party outcome) := by
    have advanced' : ({ s with commits := record }.point party).advance
      ({ s with commits := record } : Latches P L).mayCommit action = some outcome := advanced
    exact Option.bind_eq_some_iff.mpr
      ⟨outcome, advanced', Option.map_eq_some_iff.mpr ⟨_, perform_commits used record, rfl⟩⟩
  refine ⟨⟨_, step_orderly _ _ _ orderly also⟩, fun latch => ?_⟩
  have changed := performed.transferred latch
  have recorded : (after.arrive party outcome).commits =
      s.commits ++ outcome.effect.commits.map (fun latch => (party, latch)) := performed.commits
  by_cases committed : outcome.effect = .commit latch
  · have allowed := proper.asserts latch (by rw [committed]; rfl)
    refine .one party ?_ (by simpa [mayCommit] using allowed) (changed.mpr (.inr committed))
    rw [recorded, committed, List.filter_append]
    simp [Effect.commits]
  · refine .none ?_ ?_
    · rw [recorded, List.filter_append]
      cases effect : outcome.effect with
      | commit other =>
        have apart : other ≠ latch := by
          rintro rfl
          exact committed effect
        simp [Effect.commits, apart]
      | _ => simp [Effect.commits]
    · exact Bool.eq_iff_iff.mpr (changed.trans (or_iff_left committed))

/-- Every step keeps the latches guarded. -/
theorem use_guarded (s : Latches P L) (use : Use P L) (next : Latches P L) (guarded : s.Guarded)
    (stepped : reusable.step s use = some next) : next.Guarded := by
  cases use with
  | act party action => exact (guarded.step stepped).1
  | reset latch =>
    obtain rfl := Option.some.inj stepped
    exact guarded.reset latch

/-- The commit that a latch has seen since a state, if it has seen one. -/
structure Since (start : Latches P L) (latch : L) (winner : Option P) (s : Latches P L) :
    Prop where
  record : s.commits.filter (·.2 == latch) =
    start.commits.filter (·.2 == latch) ++ winner.toList.map (fun party => (party, latch))
  transferred : s.transferred latch = (start.transferred latch || winner.isSome)
  clear : winner.isSome = true → start.transferred latch = false

/-- A step that does not reset the latch leaves its winner, or brings in the first one. -/
theorem Since.step {start s next : Latches P L} {latch : L} {winner : Option P} {use : Use P L}
    (since : Since start latch winner s) (guarded : s.Guarded)
    (stepped : reusable.step s use = some next) (kept : use ≠ .reset latch) :
    ∃ winner, Since start latch winner next := by
  cases use with
  | reset other =>
    obtain rfl := Option.some.inj stepped
    have apart : latch ≠ other := by
      rintro rfl
      exact kept rfl
    refine ⟨winner, since.record, ?_, since.clear⟩
    exact (Function.update_of_ne apart _ _).trans since.transferred
  | act party action =>
    cases (guarded.step stepped).2 latch with
    | none same still => exact ⟨winner, same.trans since.record, still.trans since.transferred,
        since.clear⟩
    | one winning more clear set =>
      have fresh := since.transferred.symm.trans clear
      obtain ⟨unset, nobody⟩ := Bool.or_eq_false_iff.mp fresh
      obtain rfl : winner = none := Option.not_isSome_iff_eq_none.mp (by simp [nobody])
      refine ⟨some winning, ?_, ?_, fun _ => unset⟩
      · rw [more, since.record]
        simp
      · simp [set]

/-- Whoever uses the latches, and whenever they are reset: the mutexes are used lawfully and
every assertion holds; and as long as a latch is not reset, one party at most commits it, none
if it was committed already, and it stays committed. -/
theorem one_commit_between_resets (before middle : List (Use P L)) (start s : Latches P L)
    (reached : reusable.run create before = some start)
    (ran : reusable.run start middle = some s) (latch : L)
    (kept : ∀ use ∈ middle, use ≠ .reset latch) :
    s.asserted = true ∧ Mark.Lawful s.history s.owner ∧
    ∃ winner : Option P,
      s.commits.filter (·.2 == latch) =
        start.commits.filter (·.2 == latch) ++ winner.toList.map (fun party => (party, latch)) ∧
      (winner.isSome = true ↔ start.transferred latch = false ∧ s.transferred latch = true) ∧
      (start.transferred latch = true → s.transferred latch = true) := by
  have first : start.Guarded := reusable.run_invariant use_guarded create_guarded reached
  let invariant (state : Latches P L) : Prop :=
    state.Guarded ∧ ∃ winner, Since start latch winner state
  have initial : invariant start := ⟨first, none, by simp, by simp, by simp⟩
  have along : reusable.Along (fun _ use _ => use ≠ .reset latch) start middle :=
    (reusable.along_events ran).mpr kept
  obtain ⟨⟨record, orderly⟩, winner, since⟩ := reusable.run_invariant_along
    (fun state use next ⟨guarded, _, since⟩ stepped other =>
      ⟨use_guarded state use next guarded stepped, since.step guarded stepped other⟩)
    initial along ran
  refine ⟨orderly.asserted, orderly.lawful, winner, since.record, ?_, ?_⟩
  · rw [since.transferred]
    constructor
    · intro won
      exact ⟨since.clear won, by simp [won]⟩
    · rintro ⟨clear, set⟩
      simpa [clear] using set
  · intro set
    rw [since.transferred, set, Bool.true_or]

/-- Two rounds over one latch: one party commits it in the first, and another one that was
refused there commits it in the second. -/
def firstRound : List (Use Nat Nat) :=
  [.act 0 (.begin 7), .act 0 .lock, .act 0 .check, .act 0 .commit, .act 0 .destroy,
    .act 1 (.begin 7), .act 1 .lock, .act 1 .check, .act 1 .unlock, .act 1 .destroy, .reset 7]

def secondRound : List (Use Nat Nat) :=
  [.act 1 (.begin 7), .act 1 .lock, .act 1 .check, .act 1 .commit, .act 1 .destroy]

theorem one_commit_between_resets_twoRounds :
    ∃ start s, reusable.run create firstRound = some start ∧
      reusable.run start secondRound = some s ∧ s.commits = [(0, 7), (1, 7)] ∧
      ∃ winner : Option Nat, s.commits.filter (·.2 == 7) =
        start.commits.filter (·.2 == 7) ++ winner.toList.map (fun party => (party, 7)) := by
  refine ⟨_, _, rfl, rfl, rfl, ?_⟩
  obtain ⟨-, -, winner, record, -⟩ := one_commit_between_resets firstRound secondRound _ _ rfl rfl 7
    (by simp [secondRound])
  exact ⟨winner, record⟩

end Asioex.Latches
