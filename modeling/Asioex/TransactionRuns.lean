import Asioex.Lib.Exclusion
import Asioex.Transaction

/-!
# Parties and latches

Any number of parties run transactions over any number of latches with a
`std::mutex` each. A step is one access of one party; a lock of a mutex that is
taken is not enabled, and an unlock is carried out by whoever asks for it. The
history of the mutexes and the list of commits are kept beside the state.

One invariant relates the parties' points to the latches: a mutex has the holder
whose point says so, a latch found uncommitted by its holder still is, and the
history so far is lawful. Every step keeps it because every step is proper.
-/

namespace Asioex

/-- The latches, where each party is, and the history. -/
structure Latches (P L : Type) where
  transferred : L → Bool
  owner : L → Option P
  point : P → Point L
  history : List (Mark P L)
  commits : List (P × L)
  asserted : Bool

namespace Latches

variable {P L : Type}

/-- Uncommitted latches, and parties that have not begun. -/
def create : Latches P L := ⟨fun _ => false, fun _ => none, fun _ => .idle, [], [], true⟩

/-- `basic_transfer_latch::may_commit`. -/
def mayCommit (s : Latches P L) (latch : L) : Bool := !s.transferred latch

section Members

variable [DecidableEq L]

/-- `mutex().lock()`, which blocks while the mutex has a holder. -/
def lock (s : Latches P L) (party : P) (latch : L) : Option (Latches P L) :=
  if s.owner latch = none then
    some { s with
      owner := Function.update s.owner latch (some party)
      history := s.history ++ [.lock party latch] }
  else none

/-- `mutex().unlock()`. -/
def unlock (s : Latches P L) (party : P) (latch : L) : Latches P L :=
  { s with
    owner := Function.update s.owner latch none
    history := s.history ++ [.unlock party latch] }

/-- `assert(!transferred_)`. -/
def assertUncommitted (s : Latches P L) (latch : L) : Latches P L :=
  { s with asserted := s.asserted && !s.transferred latch }

/-- `transferred_ = true`. -/
def transfer (s : Latches P L) (party : P) (latch : L) : Latches P L :=
  { s with
    transferred := Function.update s.transferred latch true
    commits := s.commits ++ [(party, latch)] }

/-- `basic_transfer_latch::commit`. -/
def commit (s : Latches P L) (party : P) (latch : L) : Latches P L :=
  ((s.assertUncommitted latch).transfer party latch).unlock party latch

/-- `basic_transfer_latch::rollback`. -/
def rollback (s : Latches P L) (party : P) (latch : L) : Latches P L :=
  (s.assertUncommitted latch).unlock party latch

/-- Use a latch. -/
def perform (s : Latches P L) (party : P) : Effect L → Option (Latches P L)
  | .none => some s
  | .lock latch => s.lock party latch
  | .unlock latch => some (s.unlock party latch)
  | .commit latch => some (s.commit party latch)
  | .rollback latch => some (s.rollback party latch)

/-- An effect is carried out where the mutex that it locks is free. -/
theorem perform_enabled {s : Latches P L} {party : P} {effect : Effect L}
    (free : ∀ latch, effect.takes = some latch → s.owner latch = none) :
    ∃ after, s.perform party effect = some after := by
  cases effect with
  | lock latch =>
    have available := free latch rfl
    exact ⟨_, by simp only [perform, lock, available, ↓reduceIte]; rfl⟩
  | none => exact ⟨s, rfl⟩
  | unlock latch => exact ⟨_, rfl⟩
  | commit latch => exact ⟨_, rfl⟩
  | rollback latch => exact ⟨_, rfl⟩

variable [DecidableEq P]

/-- Leave a party at a point, with the assertions it evaluated on the way. -/
def arrive (s : Latches P L) (party : P) (outcome : Outcome L) : Latches P L :=
  { s with
    point := Function.update s.point party outcome.next
    asserted := s.asserted && outcome.asserted }

/-- One step of one party. -/
def step (s : Latches P L) (event : P × Action L) : Option (Latches P L) :=
  ((s.point event.1).advance s.mayCommit event.2).bind (fun outcome =>
    (s.perform event.1 outcome.effect).map (fun after => after.arrive event.1 outcome))

def machine : Machine (Latches P L) (P × Action L) := ⟨step⟩

/-- A step taken is an outcome of the party's program, performed. -/
theorem step_eq {s next : Latches P L} {party : P} {action : Action L}
    (stepped : machine.step s (party, action) = some next) :
    ∃ outcome after, (s.point party).advance s.mayCommit action = some outcome ∧
      s.perform party outcome.effect = some after ∧ next = after.arrive party outcome := by
  obtain ⟨outcome, advanced, performed⟩ := Option.bind_eq_some_iff.mp stepped
  obtain ⟨after, used, rfl⟩ := Option.map_eq_some_iff.mp performed
  exact ⟨outcome, after, advanced, used, rfl⟩

end Members

variable [DecidableEq P] [DecidableEq L]

/-- The latches a performed effect leaves, read off the effect: who holds what, what
is committed, and what was recorded. -/
structure Performed (s : Latches P L) (party : P) (effect : Effect L) (after : Latches P L) :
    Prop where
  point : after.point = s.point
  asserted : after.asserted = true ↔
    s.asserted = true ∧ ∀ latch, effect.asserts = some latch → s.mayCommit latch = true
  owner : ∀ latch, after.owner latch =
    if effect.takes = some latch then some party
    else if effect.gives = some latch then none else s.owner latch
  takes : ∀ latch, effect.takes = some latch → s.owner latch = none
  transferred : ∀ latch, after.transferred latch = true ↔
    s.transferred latch = true ∨ effect = .commit latch
  commits : after.commits = s.commits ++ effect.commits.map (fun latch => (party, latch))
  lawful : Mark.Lawful s.history s.owner →
    (∀ latch, effect.gives = some latch → s.owner latch = some party) →
    Mark.Lawful after.history after.owner

/-- Each use of a latch does what its effect says. -/
theorem perform_performed {s after : Latches P L} {party : P} {effect : Effect L}
    (used : s.perform party effect = some after) : Performed s party effect after := by
  cases effect with
  | none =>
    obtain rfl := Option.some.inj used
    refine ⟨rfl, ?_, ?_, ?_, ?_, ?_, fun lawful _ => lawful⟩ <;>
      simp [Effect.asserts, Effect.takes, Effect.gives, Effect.commits]
  | lock latch =>
    simp only [perform, lock, Option.ite_none_right_eq_some, Option.some.injEq] at used
    obtain ⟨free, rfl⟩ := used
    refine ⟨rfl, ?_, fun other => ?_, fun other taken => ?_, ?_, ?_, fun lawful _ => lawful.lock free⟩
    · simp [Effect.asserts]
    · by_cases same : other = latch
      · simp [Effect.takes, same]
      · simp [Effect.takes, Effect.gives, same, Ne.symm same]
    · obtain rfl : latch = other := Option.some.inj taken
      exact free
    · simp
    · simp [Effect.commits]
  | unlock latch =>
    obtain rfl := Option.some.inj used
    refine ⟨rfl, ?_, fun other => ?_, ?_, ?_, ?_, fun lawful holds => ?_⟩
    · simp [Effect.asserts, unlock]
    · by_cases same : other = latch
      · simp [Effect.takes, Effect.gives, unlock, same]
      · simp [Effect.takes, Effect.gives, unlock, same, Ne.symm same]
    · simp [Effect.takes]
    · simp [unlock]
    · simp [unlock, Effect.commits]
    · exact lawful.unlock (holds latch rfl)
  | commit latch =>
    obtain rfl := Option.some.inj used
    refine ⟨rfl, ?_, fun other => ?_, ?_, fun other => ?_, rfl, fun lawful holds => ?_⟩
    · simp [Effect.asserts, commit, unlock, transfer, assertUncommitted, mayCommit]
    · by_cases same : other = latch
      · simp [Effect.takes, Effect.gives, commit, unlock, same]
      · simp [Effect.takes, Effect.gives, commit, unlock, transfer, assertUncommitted, same,
          Ne.symm same]
    · simp [Effect.takes]
    · by_cases same : other = latch
      · simp [commit, unlock, transfer, same]
      · simp [commit, unlock, transfer, assertUncommitted, same, Ne.symm same]
    · exact lawful.unlock (holds latch rfl)
  | rollback latch =>
    obtain rfl := Option.some.inj used
    refine ⟨rfl, ?_, fun other => ?_, ?_, ?_, ?_, fun lawful holds => ?_⟩
    · simp [Effect.asserts, rollback, unlock, assertUncommitted, mayCommit]
    · by_cases same : other = latch
      · simp [Effect.takes, Effect.gives, rollback, unlock, same]
      · simp [Effect.takes, Effect.gives, rollback, unlock, assertUncommitted, same, Ne.symm same]
    · simp [Effect.takes]
    · simp [rollback, unlock, assertUncommitted]
    · simp [rollback, unlock, assertUncommitted, Effect.commits]
    · exact lawful.unlock (holds latch rfl)

/-- What a step leaves behind: the party is where its program leads, the others are
where they were, and a commit is on record. -/
theorem step_frame {s next : Latches P L} {party : P} {action : Action L}
    (stepped : machine.step s (party, action) = some next) :
    ∃ outcome, (s.point party).advance s.mayCommit action = some outcome ∧
      next.point party = outcome.next ∧
      (∀ other, other ≠ party → next.point other = s.point other) ∧
      next.commits = s.commits ++ outcome.effect.commits.map (fun latch => (party, latch)) := by
  obtain ⟨outcome, after, advanced, used, rfl⟩ := step_eq stepped
  have performed := perform_performed used
  refine ⟨outcome, advanced, by simp [arrive], fun other distinct => ?_, performed.commits⟩
  simp [arrive, Function.update_of_ne distinct, performed.point]

/-- The parties' points account for the mutexes and for the latches found
uncommitted; the history is lawful, every assertion held, and a latch is committed
once if it is transferred and never if it is not. -/
structure Orderly (s : Latches P L) : Prop where
  lawful : Mark.Lawful s.history s.owner
  owner : ∀ party latch, s.owner latch = some party ↔ latch ∈ (s.point party).held
  formed : ∀ party, (s.point party).Formed
  found : ∀ party, ∀ latch ∈ (s.point party).found, s.mayCommit latch = true
  asserted : s.asserted = true
  commits : ∀ latch, s.commits.countP (·.2 == latch) = if s.transferred latch then 1 else 0

theorem create_orderly : (create : Latches P L).Orderly where
  lawful := Mark.lawful_nil
  owner := by simp [create, Point.held]
  formed _ := trivial
  found := by simp [create, Point.found]
  asserted := rfl
  commits := by simp [create]

namespace Orderly

variable {s after : Latches P L} {party : P} {outcome : Outcome L}

/-- A mutex has one holder: a latch held at two parties' points is one party's. -/
theorem alone (orderly : s.Orderly) {first second : P} {latch : L}
    (holds : latch ∈ (s.point first).held) (holds' : latch ∈ (s.point second).held) :
    first = second := by
  have owner := (orderly.owner first latch).mpr holds
  exact Option.some.inj (owner.symm.trans ((orderly.owner second latch).mpr holds'))

/-- After a proper step the holders are those that the points name. -/
theorem owner_arrive (orderly : s.Orderly)
    (proper : Proper s.mayCommit (s.point party) outcome)
    (performed : Performed s party outcome.effect after) (other : P) (latch : L) :
    after.owner latch = some other ↔
      latch ∈ ((after.arrive party outcome).point other).held := by
  rw [performed.owner]
  by_cases mine : other = party
  · subst mine
    have points : (after.arrive other outcome).point other = outcome.next := by simp [arrive]
    rw [points, proper.held]
    by_cases taken : outcome.effect.takes = some latch
    · simp [taken]
    · by_cases given : outcome.effect.gives = some latch
      · simp [taken, given]
      · simp [taken, given, orderly.owner]
  · have points : (after.arrive party outcome).point other = s.point other := by
      simp [arrive, Function.update_of_ne mine, performed.point]
    rw [points, ← orderly.owner]
    by_cases taken : outcome.effect.takes = some latch
    · simp [taken, performed.takes latch taken, Ne.symm mine]
    · by_cases given : outcome.effect.gives = some latch
      · have owner := (orderly.owner party latch).mpr (proper.gives latch given)
        simp [taken, given, owner, Ne.symm mine]
      · simp [taken, given]

/-- A latch that a party found uncommitted stays so: only its holder commits it, and
gives it up in the same step. -/
theorem found_arrive (orderly : s.Orderly)
    (proper : Proper s.mayCommit (s.point party) outcome)
    (performed : Performed s party outcome.effect after) (other : P) (latch : L)
    (found : latch ∈ ((after.arrive party outcome).point other).found) :
    (after.arrive party outcome).mayCommit latch = true := by
  have uncommitted : s.mayCommit latch = true ∧ outcome.effect ≠ .commit latch := by
    by_cases mine : other = party
    · subst mine
      have points : (after.arrive other outcome).point other = outcome.next := by simp [arrive]
      rw [points] at found
      obtain ⟨allowed, kept⟩ := proper.found latch found
      exact ⟨allowed, fun committed => kept (by rw [committed]; rfl)⟩
    · have points : (after.arrive party outcome).point other = s.point other := by
        simp [arrive, Function.update_of_ne mine, performed.point]
      rw [points] at found
      refine ⟨orderly.found other latch found, fun committed => mine ?_⟩
      have given : latch ∈ (s.point party).held := proper.gives latch (by rw [committed]; rfl)
      exact orderly.alone (Point.held_of_found found) given
  have before : s.transferred latch = false := by simpa [mayCommit] using uncommitted.1
  have still : ¬after.transferred latch = true := by
    rw [performed.transferred]
    simp [before, uncommitted.2]
  simpa [mayCommit, arrive] using still

end Orderly

/-- Every step keeps the latches orderly. -/
theorem step_orderly (s : Latches P L) (event : P × Action L) (next : Latches P L)
    (orderly : s.Orderly) (stepped : machine.step s event = some next) : next.Orderly := by
  obtain ⟨party, action⟩ := event
  obtain ⟨outcome, after, advanced, used, rfl⟩ := step_eq stepped
  have proper := Point.advance_proper (orderly.formed party) (orderly.found party) advanced
  have performed := perform_performed used
  refine ⟨?_, ?_, ?_, orderly.found_arrive proper performed, ?_, ?_⟩
  · exact performed.lawful orderly.lawful
      (fun latch given => (orderly.owner party latch).mpr (proper.gives latch given))
  · exact orderly.owner_arrive proper performed
  · intro other
    by_cases mine : other = party
    · subst mine
      simpa [arrive] using proper.formed
    · simpa [arrive, Function.update_of_ne mine, performed.point] using orderly.formed other
  · have held := performed.asserted.mpr ⟨orderly.asserted, proper.asserts⟩
    simp [arrive, held, proper.asserted]
  · intro latch
    have before := orderly.commits latch
    have changed := performed.transferred latch
    change after.commits.countP _ = if after.transferred latch = true then 1 else 0
    have recorded : after.commits.countP (·.2 == latch) =
        s.commits.countP (·.2 == latch) + if outcome.effect = .commit latch then 1 else 0 := by
      rw [performed.commits, List.countP_append]
      cases outcome.effect <;> simp [Effect.commits, List.countP_singleton]
    rw [recorded, before]
    by_cases committed : outcome.effect = .commit latch
    · have allowed : s.mayCommit latch = true := proper.asserts latch (by rw [committed]; rfl)
      have clear : s.transferred latch = false := by simpa [mayCommit] using allowed
      simp [changed, committed, clear]
    · simp [changed, committed]

/-- Orderliness over whole runs. -/
theorem run_orderly {events : List (P × Action L)} {s : Latches P L}
    (ran : machine.run create events = some s) : s.Orderly :=
  machine.run_invariant step_orderly create_orderly ran

/-- Without a reset a latch stays committed. -/
theorem run_transferred {s next : Latches P L} {events : List (P × Action L)}
    (ran : machine.run s events = some next) {latch : L} (set : s.transferred latch = true) :
    next.transferred latch = true := by
  have keeps : ∀ (state : Latches P L) (event : P × Action L) (after : Latches P L),
      state.transferred latch = true → machine.step state event = some after →
      after.transferred latch = true := by
    rintro state ⟨party, action⟩ after set stepped
    obtain ⟨outcome, left, -, used, rfl⟩ := step_eq stepped
    exact ((perform_performed used).transferred latch).mpr (.inl set)
  exact machine.run_invariant keeps set ran

/-- The latches that a party committed, in order. -/
def commitsOf (s : Latches P L) (party : P) : List L :=
  (s.commits.filter (·.1 = party)).map (·.2)

/-- A step of a party adds what its effect commits to that party's commits. -/
theorem step_commitsOf {s next : Latches P L} {party : P} {action : Action L}
    (stepped : machine.step s (party, action) = some next) :
    ∃ outcome, (s.point party).advance s.mayCommit action = some outcome ∧
      next.point party = outcome.next ∧
      next.commitsOf party = s.commitsOf party ++ outcome.effect.commits := by
  obtain ⟨outcome, advanced, point, -, commits⟩ := step_frame stepped
  refine ⟨outcome, advanced, point, ?_⟩
  simp [commitsOf, commits, List.filter_append, List.filter_map, Function.comp_def]

/-- The steps of one party are no steps of the others, and commit nothing for them. -/
theorem run_others {s next : Latches P L} {party : P} {actions : List (Action L)}
    (ran : machine.run s (actions.map (fun action => (party, action))) = some next) {other : P}
    (distinct : other ≠ party) :
    next.point other = s.point other ∧ next.commitsOf other = s.commitsOf other := by
  induction actions generalizing s with
  | nil =>
    obtain rfl := Option.some.inj ran
    exact ⟨rfl, rfl⟩
  | cons action rest inductionHypothesis =>
    obtain ⟨middle, stepped, following⟩ := machine.run_cons.mp ran
    obtain ⟨outcome, -, -, others, commits⟩ := step_frame stepped
    obtain ⟨point, same⟩ := inductionHypothesis following
    refine ⟨point.trans (others other distinct), same.trans ?_⟩
    simp [commitsOf, commits, List.filter_append, List.filter_map, Function.comp_def,
      Ne.symm distinct]

/-- Committing a transaction and destroying it. -/
theorem run_commits {s next : Latches P L} {party : P} {latch : L}
    (point : s.point party = .transaction1 (some latch))
    (ran : machine.run s [(party, .commit), (party, .destroy)] = some next) :
    next.point party = .idle ∧ next.commitsOf party = s.commitsOf party ++ [latch] ∧
      next.transferred latch = true := by
  obtain ⟨middle, committed, following⟩ := machine.run_cons.mp ran
  obtain ⟨last, destroyed, done⟩ := machine.run_cons.mp following
  obtain rfl := Option.some.inj done
  obtain ⟨outcome, after, advanced, used, rfl⟩ := step_eq committed
  obtain ⟨found, same, empty, first⟩ := step_commitsOf committed
  obtain rfl : outcome = found := Option.some.inj (advanced.symm.trans same)
  rw [point] at advanced
  obtain rfl := Option.some.inj advanced
  obtain ⟨gone, left, idle, second⟩ := step_commitsOf destroyed
  rw [empty] at left
  obtain rfl := Option.some.inj left
  refine ⟨idle, ?_, run_transferred following ?_⟩
  · rw [second, first]
    simp [Effect.commits]
  · exact ((perform_performed used).transferred latch).mpr (.inr rfl)

/-- Rolling a transaction back, if it has a latch, and destroying it. -/
theorem run_rollback {s next : Latches P L} {party : P} {latch_ : Option L}
    (point : s.point party = .transaction1 latch_)
    (ran : machine.run s [(party, .rollback), (party, .destroy)] = some next) :
    next.point party = .idle ∧ next.commitsOf party = s.commitsOf party := by
  obtain ⟨middle, rolledBack, following⟩ := machine.run_cons.mp ran
  obtain ⟨last, destroyed, done⟩ := machine.run_cons.mp following
  obtain rfl := Option.some.inj done
  obtain ⟨outcome, advanced, empty, first⟩ := step_commitsOf rolledBack
  have released : outcome.next = .transaction1 none ∧ outcome.effect.commits = [] := by
    rw [point] at advanced
    cases latch_ with
    | none =>
      obtain rfl := Option.some.inj advanced
      exact ⟨rfl, rfl⟩
    | some own =>
      obtain rfl := Option.some.inj advanced
      exact ⟨rfl, rfl⟩
  obtain ⟨gone, left, idle, second⟩ := step_commitsOf destroyed
  rw [empty, released.1] at left
  obtain rfl := Option.some.inj left
  refine ⟨idle, ?_⟩
  rw [second, first, released.2]
  simp [Effect.commits]

end Latches

end Asioex
