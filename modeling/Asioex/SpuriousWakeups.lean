import Asioex.ReadAccounts

/-!
# Rounds that read nothing

A latched read that finds nothing to read rolls its transaction back and waits again. A
run in which it does so is compared with the run without the steps of such rounds: the
other parties' steps are the same, and every step that is left is taken from the same
state, except while a round that will be dropped is in progress. There the operation is
further on in the run than in the other, where it still waits.

While both sides' latches are orderly, their holders can be read off the parties'
points, so that it is enough to compare the points and what is committed.
-/

namespace Asioex

namespace Latches

variable {P L : Type}

/-- The same latches with some parties back where they have not begun. -/
structure Hides (s shown : Latches P L) : Prop where
  transferred : shown.transferred = s.transferred
  commits : shown.commits = s.commits
  point : ∀ party, shown.point party = s.point party ∨ shown.point party = .idle

variable [DecidableEq L]

variable [DecidableEq P]

/-- A mutex that is free is free where some parties have not begun. -/
theorem Hides.free {s shown : Latches P L} (hides : s.Hides shown) (orderly : s.Orderly)
    (orderly' : shown.Orderly) {latch : L} (free : s.owner latch = none) :
    shown.owner latch = none := by
  cases owner : shown.owner latch with
  | none => rfl
  | some party =>
    have holds := (orderly'.owner party latch).mp owner
    rcases hides.point party with same | idle
    · rw [same, ← orderly.owner party latch, free] at holds
      cases holds
    · rw [idle] at holds
      cases holds

/-- A party that is at the same point on both sides takes the same step on both. -/
theorem Hides.step {s next shown : Latches P L} (hides : s.Hides shown) (orderly : s.Orderly)
    (orderly' : shown.Orderly) {party : P} (same : shown.point party = s.point party)
    {action : Action L} (stepped : machine.step s (party, action) = some next) :
    ∃ after, machine.step shown (party, action) = some after ∧ next.Hides after ∧
      after.point party = next.point party := by
  obtain ⟨outcome, left, advanced, used, rfl⟩ := step_eq stepped
  have performed := perform_performed used
  have uncommitted : shown.mayCommit = s.mayCommit := by
    funext latch
    simp only [mayCommit, hides.transferred]
  have available (latch : L) (takes : outcome.effect.takes = some latch) :
      shown.owner latch = none := hides.free orderly orderly' (performed.takes latch takes)
  obtain ⟨right, used'⟩ : ∃ right, shown.perform party outcome.effect = some right :=
    perform_enabled available
  have performed' := perform_performed used'
  refine ⟨right.arrive party outcome, ?_, ⟨?_, ?_, ?_⟩, ?_⟩
  · have enabled : (shown.point party).advance shown.mayCommit action = some outcome := by
      rw [same, uncommitted]
      exact advanced
    simp only [machine, Latches.step, enabled, used', Option.bind_some, Option.map_some]
  · funext latch
    rw [Bool.eq_iff_iff]
    change right.transferred latch = true ↔ left.transferred latch = true
    rw [performed.transferred, performed'.transferred, hides.transferred]
  · change right.commits = left.commits
    rw [performed.commits, performed'.commits, hides.commits]
  · intro other
    by_cases mine : other = party
    · subst mine
      exact .inl (by simp [arrive])
    · simpa [arrive, Function.update_of_ne mine, performed.point, performed'.point] using
        hides.point other
  · simp [arrive]

/-- So it does for a series of steps. -/
theorem Hides.run {s next shown : Latches P L} {actions : List (Action L)} {party : P}
    (hides : s.Hides shown) (orderly : s.Orderly) (orderly' : shown.Orderly)
    (same : shown.point party = s.point party)
    (ran : machine.run s (actions.map (fun action => (party, action))) = some next) :
    ∃ after, machine.run shown (actions.map (fun action => (party, action))) = some after ∧
      next.Hides after ∧ after.point party = next.point party := by
  induction actions generalizing s shown with
  | nil =>
    obtain rfl := Option.some.inj ran
    exact ⟨shown, rfl, hides, same⟩
  | cons action rest inductionHypothesis =>
    obtain ⟨middle, stepped, following⟩ := machine.run_cons.mp ran
    obtain ⟨between, taken, still, point⟩ := hides.step orderly orderly' same stepped
    obtain ⟨after, reached, last, final⟩ := inductionHypothesis still
      (step_orderly s _ middle orderly stepped) (step_orderly shown _ between orderly' taken)
      point following
    exact ⟨after, machine.run_cons.mpr ⟨between, taken, reached⟩, last, final⟩

/-- A step of a party that has not begun on the other side is hidden, unless it commits. -/
theorem Hides.hidden {s next shown : Latches P L} (hides : s.Hides shown) {party : P}
    (idle : shown.point party = .idle) {action : Action L} {outcome : Outcome L}
    (stepped : machine.step s (party, action) = some next)
    (advanced : (s.point party).advance s.mayCommit action = some outcome)
    (commits : outcome.effect.commits = []) : next.Hides shown := by
  obtain ⟨found, after, same, used, rfl⟩ := step_eq stepped
  obtain rfl : outcome = found := Option.some.inj (advanced.symm.trans same)
  have performed := perform_performed used
  refine ⟨?_, ?_, ?_⟩
  · funext latch
    rw [Bool.eq_iff_iff]
    change shown.transferred latch = true ↔ after.transferred latch = true
    rw [performed.transferred, hides.transferred]
    have unrelated : outcome.effect ≠ .commit latch := by
      intro commit
      rw [commit] at commits
      cases commits
    simp [unrelated]
  · change shown.commits = after.commits
    rw [performed.commits, commits, hides.commits]
    simp
  · intro other
    by_cases mine : other = party
    · subst mine
      exact .inr idle
    · simpa [arrive, Function.update_of_ne mine, performed.point] using hides.point other

/-- A transaction that is rolled back and destroyed leaves its latch unlocked, and
nothing committed. -/
theorem run_rolledBack {s next : Latches P L} {party : P} {latch : L}
    (point : s.point party = .transaction1 (some latch))
    (ran : machine.run s [(party, .rollback), (party, .destroy)] = some next) :
    next.owner latch = none ∧ next.transferred = s.transferred ∧ next.commits = s.commits ∧
      next.point party = .idle ∧ ∀ other, other ≠ party → next.point other = s.point other := by
  obtain ⟨middle, rolledBack, following⟩ := machine.run_cons.mp ran
  obtain ⟨last, destroyed, done⟩ := machine.run_cons.mp following
  obtain rfl := Option.some.inj done
  have first : machine.step s (party, .rollback) =
      some ((s.rollback party latch).arrive party ⟨.rollback latch, .transaction1 none, true⟩) := by
    simp [machine, Latches.step, point, Point.advance, perform]
  obtain rfl := Option.some.inj (first.symm.trans rolledBack)
  have second : machine.step ((s.rollback party latch).arrive party
      ⟨.rollback latch, .transaction1 none, true⟩) (party, .destroy) =
      some (((s.rollback party latch).arrive party ⟨.rollback latch, .transaction1 none, true⟩).arrive
        party ⟨.none, .idle, true⟩) := by
    simp [machine, Latches.step, arrive, Point.advance, perform]
  obtain rfl := Option.some.inj (second.symm.trans destroyed)
  refine ⟨?_, rfl, rfl, ?_, fun other distinct => ?_⟩
  · simp [arrive, rollback, unlock]
  · simp [arrive]
  · simp [arrive, rollback, unlock, assertUncommitted, Function.update_of_ne distinct]

/-- A transaction that was committed or rolled back has no latch, and its party does not
hold one. -/
theorem Orderly.released {s next : Latches P L} (orderly : s.Orderly) {party : P}
    {latch_ : Option L} {action : Action L} (point : s.point party = .transaction1 latch_)
    (closing : action = .commit ∨ action = .rollback)
    (stepped : machine.step s (party, action) = some next) (latch : L) :
    next.point party = .transaction1 none ∧ next.owner latch ≠ some party := by
  obtain ⟨outcome, advanced, place, -⟩ := step_frame stepped
  have empty : outcome.next = .transaction1 none := by
    rw [point] at advanced
    rcases closing with rfl | rfl <;> cases latch_ <;>
      simp only [Point.advance, reduceCtorEq, Option.some.injEq] at advanced <;>
      rw [← advanced]
  have released : next.point party = .transaction1 none := place.trans empty
  refine ⟨released, fun owner => ?_⟩
  have holds := ((step_orderly s _ next orderly stepped).owner party latch).mp owner
  rw [released] at holds
  cases holds

/-- A transaction without a latch is destroyed without touching a mutex. -/
theorem destroyed_owner {s next : Latches P L} {party : P}
    (point : s.point party = .transaction1 none)
    (stepped : machine.step s (party, .destroy) = some next) : next.owner = s.owner := by
  have first : machine.step s (party, .destroy) =
      some (s.arrive party ⟨.none, .idle, true⟩) := by
    simp [machine, Latches.step, point, Point.advance, perform]
  obtain rfl := Option.some.inj (first.symm.trans stepped)
  rfl

end Latches

namespace Reads

variable {S O Q L : Type}

/-- The party that takes a step, or whose socket it happens to. -/
def Event.party : Event O Q L → O ⊕ Q
  | .other q _ => .inr q
  | .start o | .wake o _ | .lock o | .check o | .unlock o | .finish o _ | .arrive o _ | .fail o _
  | .configure o _ => .inl o

/-- A party that is at the same point, and an operation that is in the same state. -/
structure Agrees (s shown : Reads S O Q L) (party : O ⊕ Q) : Prop where
  point : shown.latches.point party = s.latches.point party
  op : ∀ o, party = .inl o → shown.ops o = s.ops o

theorem Agrees.trans {first second third : Reads S O Q L} {party : O ⊕ Q}
    (earlier : first.Agrees second party) (later : second.Agrees third party) :
    first.Agrees third party :=
  ⟨later.point.trans earlier.point, fun o own => (later.op o own).trans (earlier.op o own)⟩

theorem Agrees.symm {s shown : Reads S O Q L} {party : O ⊕ Q} (agrees : s.Agrees shown party) :
    shown.Agrees s party :=
  ⟨agrees.point.symm, fun o own => (agrees.op o own).symm⟩

variable [DecidableEq O]

/-- The steps of an operation's rounds, and the last step of a round. -/
def Event.own (o : O) : Event O Q L → Bool
  | .wake actor _ | .lock actor | .check actor | .unlock actor | .finish actor _ => actor == o
  | _ => false

def Event.ends (o : O) : Event O Q L → Bool
  | .finish actor _ => actor == o
  | _ => false

theorem Event.party_of_own {o : O} {event : Event O Q L} (own : event.own o = true) :
    event.party = .inl o := by
  cases event <;> simp_all [Event.own, Event.party]

theorem Event.own_of_ends {o : O} {event : Event O Q L} (ends : event.ends o = true) :
    event.own o = true := by
  cases event <;> simp_all [Event.own, Event.ends]

/-- Moving an operation on leaves every other party as it is. -/
theorem setOp_others (s : Reads S O Q L) {o : O} (op : ReadOp S) {other : O ⊕ Q}
    (distinct : other ≠ .inl o) : s.Agrees (s.setOp o op) other := by
  refine ⟨rfl, fun actor own => s.setOp_of_ne op ?_⟩
  rintro rfl
  exact distinct own

variable [DecidableEq Q] [DecidableEq L]

/-- Accesses leave every other party as it is. -/
theorem access_others {s next : Reads S O Q L} {party : O ⊕ Q} {actions : List (Action L)}
    (accessed : s.access party actions = some next) {other : O ⊕ Q} (distinct : other ≠ party) :
    s.Agrees next other := by
  obtain ⟨ran, ops⟩ := access_frame accessed
  exact ⟨(Latches.run_frame ran distinct).1, fun o _ => by rw [ops]⟩

/-- A step leaves every other party as it is. -/
theorem step_others [Socket S] {latch : L} {s next : Reads S O Q L} {event : Event O Q L}
    (stepped : (machine latch).step s event = some next) {other : O ⊕ Q}
    (distinct : other ≠ event.party) : s.Agrees next other := by
  cases event with
  | other q action => exact access_others stepped distinct
  | lock o => exact access_others stepped distinct
  | check o => exact access_others stepped distinct
  | unlock o => exact access_others stepped distinct
  | start o =>
    simp only [machine, step, Option.ite_none_right_eq_some, Option.some.injEq] at stepped
    obtain ⟨-, rfl⟩ := stepped
    exact s.setOp_others _ distinct
  | wake o error =>
    simp only [machine, step, Option.ite_none_right_eq_some] at stepped
    exact (s.setOp_others _ distinct).trans (access_others stepped.2 distinct)
  | arrive o bytes =>
    obtain rfl := Option.some.inj stepped
    exact s.setOp_others _ distinct
  | fail o error =>
    obtain rfl := Option.some.inj stepped
    exact s.setOp_others _ distinct
  | configure o nonBlocking =>
    obtain rfl := Option.some.inj stepped
    exact s.setOp_others _ distinct
  | finish o more =>
    simp only [machine, step] at stepped
    split at stepped
    · obtain ⟨⟨actions, ran⟩, ops⟩ := resume_frame stepped
      refine ⟨(Latches.run_frame ran distinct).1, fun actor own => ops actor ?_⟩
      rintro rfl
      exact distinct own
    · exact absurd stepped (by simp)

/-- Accesses keep the latches orderly. -/
theorem access_orderly {s next : Reads S O Q L} {party : O ⊕ Q} {actions : List (Action L)}
    (orderly : s.latches.Orderly) (accessed : s.access party actions = some next) :
    next.latches.Orderly :=
  Latches.machine.run_invariant Latches.step_orderly orderly (access_frame accessed).1

section Agreement

variable {s shown : Reads S O Q L} (hides : s.latches.Hides shown.latches)
  (orderly : s.latches.Orderly) (orderly' : shown.latches.Orderly)
include hides orderly orderly'

/-- A party makes the same accesses on both sides. -/
theorem access_agrees {next : Reads S O Q L} {party : O ⊕ Q} {actions : List (Action L)}
    (agrees : s.Agrees shown party) (accessed : s.access party actions = some next) :
    ∃ after, shown.access party actions = some after ∧ next.latches.Hides after.latches ∧
      next.Agrees after party := by
  obtain ⟨ran, ops⟩ := access_frame accessed
  obtain ⟨after, reached, still, point⟩ := hides.run orderly orderly' agrees.point ran
  refine ⟨{ shown with latches := after }, ?_, still, point, ?_⟩
  · rw [access, reached]
    rfl
  · intro o own
    rw [ops]
    exact agrees.op o own

/-- An operation that waits again does so on both sides. -/
theorem waiting_agrees {next : Reads S O Q L} {o : O} {actions : List (Action L)}
    (agrees : s.Agrees shown (.inl o))
    (resumed : (s.access (.inl o) actions).map (·.asyncWait o) = some next) :
    ∃ after, (shown.access (.inl o) actions).map (·.asyncWait o) = some after ∧
      next.latches.Hides after.latches ∧ next.Agrees after (.inl o) := by
  obtain ⟨left, accessed, rfl⟩ := Option.map_eq_some_iff.mp resumed
  obtain ⟨right, reached, still, agreed⟩ :=
    access_agrees hides orderly orderly' agrees accessed
  refine ⟨right.asyncWait o, by rw [reached, Option.map_some], still, agreed.point, ?_⟩
  intro actor own
  obtain rfl := Sum.inl.inj own
  rw [asyncWait, asyncWait, setOp_self, setOp_self, agreed.op o rfl]

variable [Socket S]

/-- An operation that completes does so on both sides, and calls its handler in the same
circumstances: whether it holds its latch can be read off its point. -/
theorem returnComplete_agrees {latch : L} {next : Reads S O Q L} {o : O} {closing : Action L}
    {ec : ErrorCode} {size : Nat} (agrees : s.Agrees shown (.inl o))
    (returned : s.returnComplete latch o closing ec size = some next) :
    ∃ after, shown.returnComplete latch o closing ec size = some after ∧
      next.latches.Hides after.latches ∧ next.Agrees after (.inl o) := by
  obtain ⟨left, closed, destroyed⟩ := Option.bind_eq_some_iff.mp returned
  obtain ⟨right, reached, still, agreed⟩ := access_agrees hides orderly orderly' agrees closed
  have lawful : left.latches.Orderly := access_orderly orderly closed
  have lawful' : right.latches.Orderly := access_orderly orderly' reached
  have holding : right.latches.owner latch = some (.inl o) ↔
      left.latches.owner latch = some (.inl o) := by
    rw [lawful'.owner, lawful.owner, agreed.point]
  have called : (left.complete latch o ec size).Agrees (right.complete latch o ec size)
      (.inl o) := by
    refine ⟨agreed.point, fun actor own => ?_⟩
    obtain rfl := Sum.inl.inj own
    simp only [complete, setOp_self, agreed.op o rfl, holding]
  have same : (left.complete latch o ec size).latches.Hides
      (right.complete latch o ec size).latches := still
  obtain ⟨after, taken, last, final⟩ := access_agrees same lawful lawful' called destroyed
  refine ⟨after, ?_, last, final⟩
  rw [returnComplete, reached, Option.bind_some, taken]

/-- The end of a resumption is the same on both sides. -/
theorem resume_agrees {latch : L} {next : Reads S O Q L} {o : O} {ec : ErrorCode} {more : Nat}
    (agrees : s.Agrees shown (.inl o)) (resumed : s.resume latch o ec more = some next) :
    ∃ after, shown.resume latch o ec more = some after ∧ next.latches.Hides after.latches ∧
      next.Agrees after (.inl o) := by
  have op : shown.ops o = s.ops o := agrees.op o rfl
  have point := agrees.point
  unfold resume at resumed ⊢
  rw [point, op]
  split at resumed
  · exact returnComplete_agrees hides orderly orderly' agrees resumed
  · split at resumed
    · next failed =>
      rw [if_pos failed]
      exact returnComplete_agrees hides orderly orderly' agrees resumed
    · next going =>
      rw [if_neg going]
      obtain ⟨⟨sock, result, bytes⟩, read, rest⟩ := Option.bind_eq_some_iff.mp resumed
      simp only at rest
      simp only [read, Option.bind_some]
      have received : (s.received o sock bytes).Agrees (shown.received o sock bytes) (.inl o) := by
        refine ⟨point, fun actor own => ?_⟩
        obtain rfl := Sum.inl.inj own
        simp only [Reads.received, setOp_self, op]
      have same : (s.received o sock bytes).latches.Hides (shown.received o sock bytes).latches :=
        hides
      split at rest
      · next blocked =>
        rw [if_pos blocked]
        exact waiting_agrees same orderly orderly' received rest
      · next answered =>
        rw [if_neg answered]
        exact returnComplete_agrees same orderly orderly' received rest
  · exact absurd resumed (by simp)

/-- A step of a party that both sides agree on is taken on both, and they still agree. -/
theorem step_agrees {latch : L} {next : Reads S O Q L} {event : Event O Q L}
    (agrees : s.Agrees shown event.party)
    (stepped : (machine latch).step s event = some next) :
    ∃ after, (machine latch).step shown event = some after ∧ next.latches.Hides after.latches ∧
      next.Agrees after event.party := by
  have moves {o : O} (op : ReadOp S) (point : s.Agrees shown (.inl o)) :
      (s.setOp o op).Agrees (shown.setOp o op) (.inl o) := by
    refine ⟨point.point, fun actor own => ?_⟩
    obtain rfl := Sum.inl.inj own
    rw [setOp_self, setOp_self]
  cases event with
  | other q action => exact access_agrees hides orderly orderly' agrees stepped
  | lock o => exact access_agrees hides orderly orderly' agrees stepped
  | check o => exact access_agrees hides orderly orderly' agrees stepped
  | unlock o => exact access_agrees hides orderly orderly' agrees stepped
  | start o =>
    have op : shown.ops o = s.ops o := agrees.op o rfl
    simp only [machine, step, Option.ite_none_right_eq_some, Option.some.injEq] at stepped
    obtain ⟨initial, rfl⟩ := stepped
    refine ⟨shown.asyncWait o, ?_, hides, ?_⟩
    · simp only [machine, step, op, initial, ↓reduceIte]
    · simp only [asyncWait, op]
      exact moves _ agrees
  | wake o error =>
    have op : shown.ops o = s.ops o := agrees.op o rfl
    simp only [machine, step, Option.ite_none_right_eq_some] at stepped
    obtain ⟨waiting, accessed⟩ := stepped
    simp only [machine, step, op, waiting, ↓reduceIte]
    generalize ({ s.ops o with stage := .resumed (waitCode error) } : ReadOp S) = woken at accessed
    have same : (s.setOp o woken).latches.Hides (shown.setOp o woken).latches := hides
    exact access_agrees same orderly orderly' (moves woken agrees) accessed
  | finish o more =>
    have op : shown.ops o = s.ops o := agrees.op o rfl
    simp only [machine, step] at stepped ⊢
    rw [op]
    split at stepped
    · exact resume_agrees hides orderly orderly' agrees stepped
    · exact absurd stepped (by simp)
  | arrive o bytes =>
    have op : shown.ops o = s.ops o := agrees.op o rfl
    obtain rfl := Option.some.inj stepped
    refine ⟨_, rfl, hides, ?_⟩
    rw [op]
    exact moves _ agrees
  | fail o error =>
    have op : shown.ops o = s.ops o := agrees.op o rfl
    obtain rfl := Option.some.inj stepped
    refine ⟨_, rfl, hides, ?_⟩
    rw [op]
    exact moves _ agrees
  | configure o nonBlocking =>
    have op : shown.ops o = s.ops o := agrees.op o rfl
    obtain rfl := Option.some.inj stepped
    refine ⟨_, rfl, hides, ?_⟩
    rw [op]
    exact moves _ agrees

end Agreement

/-- A round that read nothing: the latch is unlocked and as uncommitted as before, and
the operation waits again, with its socket as it was. -/
structure GivesUp (latch : L) (s : Reads S O Q L) (o : O) (next : Reads S O Q L) : Prop where
  owner : next.latches.owner latch = none
  transferred : next.latches.transferred = s.latches.transferred
  commits : next.latches.commits = s.latches.commits
  op : next.ops o = { s.ops o with stage := .waiting }
  idle : next.latches.point (.inl o) = .idle

/-- A resumed operation is between `begin_transaction` and the end of its resumption. -/
theorem Accounted.inside {latch : L} {s : Reads S O Q L} {o : O} {ec : ErrorCode}
    (accounted : s.Accounted latch) (stage : (s.ops o).stage = .resumed ec) :
    Within latch (s.latches.point (.inl o)) := by
  cases accounted.stands o with
  | outside other => rcases other with other | other <;> simp [stage] at other
  | within found same error inside => exact inside
  | denied other => simp [stage] at other
  | won _ other => simp [stage] at other

variable [Socket S]

/-- A round that completes the operation: it calls its handler once, and then does not
hold its latch, and the socket's mode is what it was before the round. So it is when the
resumption is over. -/
structure Delivered (latch : L) (s : Reads S O Q L) (o : O) (next : Reads S O Q L) : Prop where
  called : ∃ ec size, (next.ops o).calls =
    (s.ops o).calls ++ [⟨ec, size, false, Socket.nonBlocking (s.ops o).sock⟩]
  released : next.latches.owner latch ≠ some (.inl o)
  restored : Socket.nonBlocking (next.ops o).sock = Socket.nonBlocking (s.ops o).sock

/-- An operation that closes its transaction before it completes has released its latch
when it calls its handler; the destruction of the transaction touches no mutex any more. -/
theorem delivered_of_returned {latch : L} {s taking next : Reads S O Q L} {o : O}
    {closing : Action L} {latch_ : Option L} {ec : ErrorCode} {size : Nat}
    (same : taking.latches = s.latches) (orderly : s.latches.Orderly)
    (point : s.latches.point (.inl o) = .transaction1 latch_)
    (closes : closing = .commit ∨ closing = .rollback)
    (mode : Socket.nonBlocking (taking.ops o).sock = Socket.nonBlocking (s.ops o).sock)
    (kept : (taking.ops o).calls = (s.ops o).calls)
    (returned : taking.returnComplete latch o closing ec size = some next) :
    (next.ops o).stage = .completed ∧ Delivered latch s o next := by
  obtain ⟨released, closed, destroyed, ops⟩ := returnComplete_cases returned
  rw [same] at closed
  obtain ⟨empty, free⟩ := orderly.released point closes closed latch
  refine ⟨?_, ⟨ec, size, ?_⟩, ?_, ?_⟩
  · simp [ops, complete]
  · simp [ops, complete, kept, mode, free]
  · rw [Latches.destroyed_owner empty destroyed]
    exact free
  · simp [ops, complete, mode]

/-- The end of a resumption is a round that read nothing, or completes the operation.

Proof: by where the operation is in `begin_transaction` and by what it reads, as the code
branches. A read that would block leaves the socket as it is but for its mode, and that
is restored. -/
theorem resume_ends [LawfulSocket S] {latch : L} {s next : Reads S O Q L} {o : O}
    {ec : ErrorCode} {more : Nat} (accounted : s.Accounted latch) (stage : (s.ops o).stage = .resumed ec)
    (resumed : s.resume latch o ec more = some next) :
    GivesUp latch s o next ∨ ((next.ops o).stage = .completed ∧ Delivered latch s o next) := by
  have orderly := accounted.orderly
  have inside := accounted.inside stage
  generalize point : s.latches.point (.inl o) = here at inside
  cases inside with
  | locking => simp [resume, point] at resumed
  | checking => simp [resume, point] at resumed
  | refusing => simp [resume, point] at resumed
  | refused =>
    simp only [resume, point] at resumed
    exact .inr (delivered_of_returned rfl orderly point (.inr rfl) rfl rfl resumed)
  | begun =>
    simp only [resume, point] at resumed
    by_cases failed : ec.isSet = true
    · rw [if_pos failed] at resumed
      exact .inr (delivered_of_returned rfl orderly point (.inl rfl) rfl rfl resumed)
    · rw [if_neg failed] at resumed
      obtain ⟨⟨sock, result, bytes⟩, read, rest⟩ := Option.bind_eq_some_iff.mp resumed
      simp only at rest
      by_cases blocked : result = .wouldBlock
      · rw [if_pos blocked] at rest
        subst blocked
        obtain rfl := LawfulSocket.readSome_wouldBlock read
        obtain rfl : bytes = [] := LawfulSocket.readSome_failed read (by decide)
        obtain ⟨left, accessed, rfl⟩ := Option.map_eq_some_iff.mp rest
        obtain ⟨ran, ops⟩ := access_frame accessed
        obtain ⟨owner, transferred, commits, idle, -⟩ := Latches.run_rolledBack point ran
        refine .inl ⟨owner, transferred, commits, ?_, idle⟩
        simp [asyncWait, ops, received, LawfulSocket.setNonBlocking_restored]
      · rw [if_neg blocked] at rest
        refine .inr (delivered_of_returned ?_ orderly point (.inl rfl) ?_ ?_ rest)
        · rfl
        · simp [received, LawfulSocket.nonBlocking_setNonBlocking]
        · simp [received]

/-- What the steps that end a resumption do. -/
def Closes (latch : L) (s : Reads S O Q L) (event : Event O Q L) (next : Reads S O Q L) : Prop :=
  ∀ o more, event = .finish o more →
    ((next.ops o).stage = .waiting ∧ GivesUp latch s o next) ∨
      ((next.ops o).stage = .completed ∧ Delivered latch s o next)

theorem step_closes [LawfulSocket S] {latch : L} {s next : Reads S O Q L} {event : Event O Q L}
    (accounted : s.Accounted latch) (stepped : (machine latch).step s event = some next) :
    Closes latch s event next := by
  rintro o more rfl
  simp only [machine, step] at stepped
  split at stepped
  · next ec stage =>
    rcases resume_ends accounted stage stepped with givesUp | delivered
    · exact .inl ⟨by rw [givesUp.op], givesUp⟩
    · exact .inr delivered
  · exact absurd stepped (by simp)

/-- Whether the operation's next round to end, in the rest of a run, reads nothing. -/
def spurious (latch : L) (o : O) : Reads S O Q L → List (Event O Q L) → Bool
  | _, [] => false
  | s, event :: rest =>
    match (machine latch).step s event with
    | none => false
    | some next =>
      if event.ends o then (next.ops o).stage == .waiting else spurious latch o next rest

/-- A run without the steps of the operation's rounds that read nothing. -/
def visible (latch : L) (o : O) : Reads S O Q L → List (Event O Q L) → List (Event O Q L)
  | _, [] => []
  | s, event :: rest =>
    match (machine latch).step s event with
    | none => []
    | some next =>
      if event.own o && spurious latch o s (event :: rest) then visible latch o next rest
      else event :: visible latch o next rest

/-- The two sides of a comparison: between the operation's rounds, and in those that stay,
they agree on everything; in a round that will be dropped the operation is woken on one
side, and waits on the other. -/
inductive Compared (latch : L) (o : O) (s shown : Reads S O Q L) (rest : List (Event O Q L)) :
    Prop where
  | same (hides : s.latches.Hides shown.latches) (agrees : ∀ party, s.Agrees shown party)
      (stays : ∀ ec, (s.ops o).stage = .resumed ec → spurious latch o s rest = false)
  | dropped (hides : s.latches.Hides shown.latches)
      (agrees : ∀ party, party ≠ .inl o → s.Agrees shown party)
      (idle : shown.latches.point (.inl o) = .idle)
      (op : shown.ops o = { s.ops o with stage := .waiting }) (ec : ErrorCode)
      (stage : (s.ops o).stage = .resumed ec) (goes : spurious latch o s rest = true)

/-- A step that does not end the operation's round leaves open how it will end. -/
theorem spurious_step {latch : L} {o : O} {s next : Reads S O Q L} {event : Event O Q L}
    {rest : List (Event O Q L)} (stepped : (machine latch).step s event = some next)
    (going : event.ends o = false) :
    spurious latch o s (event :: rest) = spurious latch o next rest := by
  simp [spurious, stepped, going]

/-- The step that ends it tells. -/
theorem spurious_ends {latch : L} {o : O} {s next : Reads S O Q L} {event : Event O Q L}
    {rest : List (Event O Q L)} (stepped : (machine latch).step s event = some next)
    (ends : event.ends o = true) :
    spurious latch o s (event :: rest) = ((next.ops o).stage == .waiting) := by
  simp [spurious, stepped, ends]

/-- A step of an operation's round wakes it, ends the round, or is an access of
`begin_transaction`. -/
theorem own_cases {latch : L} {o : O} {s next : Reads S O Q L} {event : Event O Q L}
    (stepped : (machine latch).step s event = some next) (own : event.own o = true) :
    (∃ error, event = .wake o error) ∨ (∃ more, event = .finish o more) ∨
      ∃ action, (action = .lock ∨ action = .check ∨ action = .unlock) ∧
        s.access (.inl o) [action] = some next := by
  cases event with
  | wake actor error =>
    obtain rfl : actor = o := by simpa [Event.own] using own
    exact .inl ⟨error, rfl⟩
  | lock actor =>
    obtain rfl : actor = o := by simpa [Event.own] using own
    exact .inr (.inr ⟨.lock, .inl rfl, stepped⟩)
  | check actor =>
    obtain rfl : actor = o := by simpa [Event.own] using own
    exact .inr (.inr ⟨.check, .inr (.inl rfl), stepped⟩)
  | unlock actor =>
    obtain rfl : actor = o := by simpa [Event.own] using own
    exact .inr (.inr ⟨.unlock, .inr (.inr rfl), stepped⟩)
  | finish actor more =>
    obtain rfl : actor = o := by simpa [Event.own] using own
    exact .inr (.inl ⟨more, rfl⟩)
  | _ => simp [Event.own] at own

/-- A step of an operation's round wakes it, or finds it resumed: outside its resumptions
it makes no accesses. -/
theorem resumed_of_own {latch : L} {o : O} {s next : Reads S O Q L} {event : Event O Q L}
    (accounted : s.Accounted latch) (stepped : (machine latch).step s event = some next)
    (own : event.own o = true) :
    (∃ error, event = .wake o error) ∨ ∃ ec, (s.ops o).stage = .resumed ec := by
  rcases own_cases stepped own with wakes | ⟨more, rfl⟩ | ⟨action, beginning, accessed⟩
  · exact .inl wakes
  · simp only [machine, step] at stepped
    split at stepped
    · next ec stage => exact .inr ⟨ec, stage⟩
    · exact absurd stepped (by simp)
  · obtain ⟨ran, -⟩ := access_frame accessed
    obtain ⟨last, taken, -⟩ := Latches.machine.run_cons.mp ran
    obtain ⟨outcome, advanced, -⟩ := Latches.step_frame taken
    have notIdle := advance_notIdle beginning advanced
    cases accounted.stands o with
    | outside stage idle => exact absurd idle notIdle
    | denied stage idle => exact absurd idle notIdle
    | won ec stage idle => exact absurd idle notIdle
    | within ec stage => exact .inr ⟨ec, stage⟩

/-- What else happens to an operation is its start, or happens at its socket. -/
theorem socket_of_not_own (latch : L) {o : O} {event : Event O Q L}
    (mine : event.party = .inl o) (foreign : event.own o = false) :
    event = .start o ∨ ∃ change : S → S, ∀ s : Reads S O Q L,
      (machine latch).step s event =
        some (s.setOp o { s.ops o with sock := change (s.ops o).sock }) := by
  cases event with
  | other q action => cases mine
  | start actor =>
    cases mine
    exact .inl rfl
  | arrive actor bytes =>
    cases mine
    exact .inr ⟨fun sock => Socket.arrive sock bytes, fun _ => rfl⟩
  | fail actor error =>
    cases mine
    exact .inr ⟨fun sock => Socket.fail sock error, fun _ => rfl⟩
  | configure actor nonBlocking =>
    cases mine
    exact .inr ⟨fun sock => Socket.setNonBlocking sock nonBlocking, fun _ => rfl⟩
  | _ =>
    cases mine
    simp [Event.own] at foreign

/-- Such a step does not resume the operation. -/
theorem stage_of_not_own {latch : L} {o : O} {s next : Reads S O Q L} {event : Event O Q L}
    (stepped : (machine latch).step s event = some next) (foreign : event.own o = false) :
    (next.ops o).stage = (s.ops o).stage ∨ (next.ops o).stage = .waiting := by
  by_cases mine : event.party = .inl o
  · rcases socket_of_not_own (S := S) latch mine foreign with rfl | ⟨change, steps⟩
    · simp only [machine, step, Option.ite_none_right_eq_some, Option.some.injEq] at stepped
      obtain ⟨-, rfl⟩ := stepped
      exact .inr (by simp [asyncWait])
    · obtain rfl := Option.some.inj ((steps s).symm.trans stepped)
      exact .inl (by simp)
  · have apart : (.inl o : O ⊕ Q) ≠ event.party := fun same => mine same.symm
    exact .inl (by rw [(step_others stepped apart).op o rfl])

/-- What an operation does in a round, before its end, is hidden from those who see it
wait. -/
theorem round_hidden {latch : L} {o : O} {s next shown : Reads S O Q L} {event : Event O Q L}
    {ec : ErrorCode} (accounted : s.Accounted latch) (hides : s.latches.Hides shown.latches)
    (idle : shown.latches.point (.inl o) = .idle) (stage : (s.ops o).stage = .resumed ec)
    (stepped : (machine latch).step s event = some next) (own : event.own o = true)
    (going : event.ends o = false) :
    next.latches.Hides shown.latches ∧ next.ops o = s.ops o := by
  rcases own_cases stepped own with ⟨error, rfl⟩ | ⟨more, rfl⟩ | ⟨action, beginning, accessed⟩
  · simp [machine, step, stage] at stepped
  · simp [Event.ends] at going
  · obtain ⟨ran, ops⟩ := access_frame accessed
    obtain ⟨last, taken, done⟩ := Latches.machine.run_cons.mp ran
    obtain rfl := Option.some.inj done
    obtain ⟨outcome, advanced, -⟩ := Latches.step_frame taken
    obtain ⟨-, commits⟩ := (accounted.inside stage).advance beginning advanced
    exact ⟨hides.hidden idle taken advanced commits, by rw [ops]⟩

/-- An operation that is woken waited, and begins a transaction, which is hidden as well. -/
theorem wake_begins {latch : L} {o : O} {s next : Reads S O Q L} {error : Option AsioError}
    (accounted : s.Accounted latch) (stepped : (machine latch).step s (.wake o error) = some next) :
    s.latches.point (.inl o) = .idle ∧
      (∀ {shown : Reads S O Q L}, s.latches.Hides shown.latches →
        shown.latches.point (.inl o) = .idle → next.latches.Hides shown.latches) ∧
      (s.ops o).stage = .waiting ∧
      next.ops o = { s.ops o with stage := .resumed (waitCode error) } := by
  simp only [machine, step, Option.ite_none_right_eq_some] at stepped
  obtain ⟨waiting, accessed⟩ := stepped
  obtain ⟨ran, ops⟩ := access_frame accessed
  obtain ⟨last, taken, done⟩ := Latches.machine.run_cons.mp ran
  obtain rfl := Option.some.inj done
  have idle : s.latches.point (.inl o) = .idle := by
    cases accounted.stands o with
    | outside stage idle => exact idle
    | within ec stage => simp [waiting] at stage
    | denied stage => simp [waiting] at stage
    | won ec stage => simp [waiting] at stage
  have begins : (s.latches.point (.inl o)).advance s.latches.mayCommit (.begin latch) =
      some ⟨.none, .locking latch, true⟩ := by
    rw [idle]
    rfl
  refine ⟨idle, fun hides away => hides.hidden away taken begins rfl, waiting, ?_⟩
  rw [ops, setOp_self]

/-- A step that ends an operation's round leaves it waiting, if it read nothing, or
completed. -/
theorem ends_round [LawfulSocket S] {latch : L} {o : O} {s next : Reads S O Q L} {event : Event O Q L}
    (accounted : s.Accounted latch) (stepped : (machine latch).step s event = some next)
    (ends : event.ends o = true) :
    ((next.ops o).stage = .waiting ∧ GivesUp latch s o next) ∨ (next.ops o).stage = .completed := by
  cases event with
  | finish actor more =>
    obtain rfl : actor = o := by simpa [Event.ends] using ends
    rcases step_closes accounted stepped actor more rfl with waits | ⟨completes, -⟩
    · exact .inl waits
    · exact .inr completes
  | _ => simp [Event.ends] at ends

namespace Compared

variable [LawfulSocket S] {latch : L} {o : O} {s shown next : Reads S O Q L}
  {event : Event O Q L} {rest : List (Event O Q L)}

/-- A step that stays is taken on both sides. A round that reads nothing does not end in it. -/
theorem visible (accounted : s.Accounted latch) (accounted' : shown.Accounted latch)
    (compared : Compared latch o s shown (event :: rest))
    (stepped : (machine latch).step s event = some next)
    (stays : ¬(event.own o && spurious latch o s (event :: rest)) = true) :
    ∃ after, (machine latch).step shown event = some after ∧ Compared latch o next after rest ∧
      (event.ends o = true → (after.ops o).stage ≠ .waiting) := by
  cases compared with
  | same hides agrees going =>
    obtain ⟨after, taken, still, agreed⟩ :=
      step_agrees hides accounted.orderly accounted'.orderly (agrees event.party) stepped
    have all (party : O ⊕ Q) : next.Agrees after party := by
      by_cases mine : party = event.party
      · exact mine ▸ agreed
      · exact ((step_others stepped mine).symm.trans (agrees party)).trans (step_others taken mine)
    have visible : event.own o = true → spurious latch o s (event :: rest) = false := by
      intro own
      simpa [own] using stays
    refine ⟨after, taken, .same still all fun ec stage => ?_, fun ends => ?_⟩
    · have further : event.ends o = false := by
        by_contra ends
        rcases ends_round accounted stepped (Bool.not_eq_false _ ▸ ends) with ⟨waits, -⟩ | completes
        · cases waits.symm.trans stage
        · cases completes.symm.trans stage
      rw [← spurious_step stepped further]
      by_cases own : event.own o = true
      · exact visible own
      · rcases stage_of_not_own stepped (Bool.eq_false_iff.mpr own) with before | waits
        · exact going ec (before.symm.trans stage)
        · cases waits.symm.trans stage
    · have lasting := visible (Event.own_of_ends ends)
      rw [spurious_ends stepped ends] at lasting
      rw [(all (.inl o)).op o rfl]
      simpa using lasting
  | dropped hides agrees idle op ec stage goes =>
    have foreign : event.own o = false := by
      simpa [goes] using stays
    have further : event.ends o = false := by
      by_contra ends
      have own := Event.own_of_ends (Bool.not_eq_false _ ▸ ends)
      cases foreign.symm.trans own
    have lasting : spurious latch o next rest = true := (spurious_step stepped further).symm.trans goes
    have never (after : Reads S O Q L) : event.ends o = true → (after.ops o).stage ≠ .waiting := by
      intro ends
      cases further.symm.trans ends
    by_cases mine : event.party = .inl o
    · rcases socket_of_not_own (S := S) latch mine foreign with rfl | ⟨change, steps⟩
      · simp [machine, step, stage] at stepped
      · obtain rfl := Option.some.inj ((steps s).symm.trans stepped)
        refine ⟨_, steps shown, ?_, never _⟩
        refine .dropped hides (fun party apart => ?_) idle ?_ ec ?_ lasting
        · exact ((s.setOp_others _ apart).symm.trans (agrees party apart)).trans
            (shown.setOp_others _ apart)
        · simp [op]
        · simp [stage]
    · obtain ⟨after, taken, still, agreed⟩ :=
        step_agrees hides accounted.orderly accounted'.orderly (agrees event.party mine) stepped
      have apart : (.inl o : O ⊕ Q) ≠ event.party := fun same => mine same.symm
      have left := step_others stepped apart
      have right := step_others taken apart
      refine ⟨after, taken, .dropped still (fun party others => ?_) (right.point.trans idle) ?_ ec ?_
        lasting, never after⟩
      · by_cases moved : party = event.party
        · exact moved ▸ agreed
        · exact ((step_others stepped moved).symm.trans (agrees party others)).trans
            (step_others taken moved)
      · rw [right.op o rfl, left.op o rfl, op]
      · rw [left.op o rfl, stage]

/-- A step that is dropped changes nothing on the other side. -/
theorem hidden (accounted : s.Accounted latch) (compared : Compared latch o s shown (event :: rest))
    (stepped : (machine latch).step s event = some next) (own : event.own o = true)
    (goes : spurious latch o s (event :: rest) = true) : Compared latch o next shown rest := by
  have mine : event.party = .inl o := Event.party_of_own own
  have others {party : O ⊕ Q} (apart : party ≠ .inl o) : next.Agrees s party :=
    (step_others stepped (mine ▸ apart)).symm
  cases compared with
  | same hides agrees stays =>
    rcases resumed_of_own accounted stepped own with ⟨error, rfl⟩ | ⟨ec, stage⟩
    · have lasting : spurious latch o next rest = true :=
        (spurious_step stepped (by simp [Event.ends])).symm.trans goes
      obtain ⟨outside, begun, waiting, op⟩ := wake_begins accounted stepped
      have idle : shown.latches.point (.inl o) = .idle := (agrees (.inl o)).point.trans outside
      refine .dropped (begun hides idle) (fun party apart => (others apart).trans (agrees party)) idle
        ?_ (waitCode error) ?_ lasting
      · rw [(agrees (.inl o)).op o rfl, op, ← waiting]
      · rw [op]
    · cases (stays ec stage).symm.trans goes
  | dropped hides agrees idle op ec stage still =>
    by_cases ends : event.ends o = true
    · have waits : (next.ops o).stage = .waiting := by
        rw [spurious_ends stepped ends] at goes
        simpa using goes
      rcases ends_round accounted stepped ends with ⟨-, givesUp⟩ | completes
      · refine .same ⟨?_, ?_, fun party => ?_⟩ (fun party => ?_) ?_
        · rw [hides.transferred, givesUp.transferred]
        · rw [hides.commits, givesUp.commits]
        · by_cases apart : party = .inl o
          · subst apart
            exact .inr idle
          · exact .inl ((others apart).trans (agrees party apart)).point
        · by_cases apart : party = .inl o
          · subst apart
            refine ⟨idle.trans givesUp.idle.symm, fun actor same => ?_⟩
            obtain rfl := Sum.inl.inj same
            rw [op, givesUp.op]
          · exact (others apart).trans (agrees party apart)
        · intro ec stage
          cases waits.symm.trans stage
      · cases waits.symm.trans completes
    · have further : event.ends o = false := Bool.eq_false_iff.mpr ends
      obtain ⟨still, same⟩ := round_hidden accounted hides idle stage stepped own further
      refine .dropped still (fun party apart => (others apart).trans (agrees party apart)) idle ?_ ec
        ?_ ((spurious_step stepped further).symm.trans goes)
      · rw [same, op]
      · rw [same, stage]

end Compared

/-- No round of the operation ends without reading or completing. -/
def NeverSpurious (o : O) (_s : Reads S O Q L) (event : Event O Q L) (next : Reads S O Q L) : Prop :=
  event.ends o = true → (next.ops o).stage ≠ .waiting

/-- The other side takes the steps that stay, and no others.

Proof: by induction on the events, with the comparison for what is left of them. -/
theorem run_visible [LawfulSocket S] {latch : L} {o : O} (events : List (Event O Q L))
    {s shown last : Reads S O Q L} (accounted : s.Accounted latch)
    (accounted' : shown.Accounted latch)
    (compared : Compared latch o s shown events)
    (ran : (machine latch).run s events = some last) :
    ∃ after, (machine latch).run shown (visible latch o s events) = some after ∧
      Compared latch o last after [] ∧
      (machine latch).Along (NeverSpurious o) shown (visible latch o s events) := by
  induction events generalizing s shown with
  | nil =>
    obtain rfl := Option.some.inj ran
    exact ⟨shown, rfl, compared, trivial⟩
  | cons event rest inductionHypothesis =>
    obtain ⟨next, stepped, following⟩ := (machine latch).run_cons.mp ran
    have further := step_accounted s event next accounted stepped
    by_cases goes : (event.own o && spurious latch o s (event :: rest)) = true
    · have left : visible latch o s (event :: rest) = visible latch o next rest := by
        simp [visible, stepped, goes]
      have both : event.own o = true ∧ spurious latch o s (event :: rest) = true := by
        simpa using goes
      rw [left]
      exact inductionHypothesis further accounted'
        (compared.hidden accounted stepped both.1 both.2) following
    · have left : visible latch o s (event :: rest) = event :: visible latch o next rest := by
        simp [visible, stepped, goes]
      obtain ⟨between, taken, still, lasting⟩ :=
        compared.visible accounted accounted' stepped goes
      obtain ⟨after, reached, final, along⟩ := inductionHypothesis further
        (step_accounted shown event between accounted' taken) still following
      rw [left]
      refine ⟨after, (machine latch).run_cons.mpr ⟨between, taken, reached⟩, final, ?_⟩
      intro other same
      obtain rfl := Option.some.inj (taken.symm.trans same)
      exact ⟨lasting, along⟩

/-- A run ends as it would without the operation's rounds that read nothing: with the
same operations, their sockets and completions among them, and the same latches, but for
the history of their mutexes. Each such round leaves the latch unlocked, nothing
committed, and the socket as it was; and each round that completes the operation gives up
the latch and restores the socket's mode before it calls the handler. -/
theorem spurious_wakeups_invisible [LawfulSocket S] (latch : L) (sock : O → S) (size : O → Nat)
    (o : O) (events : List (Event O Q L)) (last : Reads S O Q L)
    (ran : (machine latch).run (create sock size) events = some last) :
    (∃ shown, (machine latch).run (create sock size) (visible latch o (create sock size) events) =
        some shown ∧
      shown.ops = last.ops ∧ shown.latches.point = last.latches.point ∧
      shown.latches.owner = last.latches.owner ∧
      shown.latches.transferred = last.latches.transferred ∧
      shown.latches.commits = last.latches.commits ∧
      (machine latch).Along (NeverSpurious o) (create sock size)
        (visible latch o (create sock size) events)) ∧
    (machine latch).Along (Closes latch) (create sock size) events := by
  have initial : (create sock size : Reads S O Q L).Accounted latch :=
    create_accounted latch sock size
  have compared : Compared latch o (create sock size : Reads S O Q L) (create sock size) events := by
    refine .same ⟨rfl, rfl, fun _ => .inl rfl⟩ (fun _ => ⟨rfl, fun _ _ => rfl⟩) (fun ec stage => ?_)
    cases stage
  obtain ⟨shown, reached, final, never⟩ := run_visible events initial initial compared ran
  have accounted : last.Accounted latch := (machine latch).run_invariant step_accounted initial ran
  have accounted' : shown.Accounted latch :=
    (machine latch).run_invariant step_accounted initial reached
  refine ⟨⟨shown, reached, ?_⟩, ?_⟩
  · cases final with
    | dropped hides agrees idle op ec stage goes => cases goes
    | same hides agrees =>
      have points (party : O ⊕ Q) : shown.latches.point party = last.latches.point party :=
        (agrees party).point
      refine ⟨funext fun actor => (agrees (.inl actor)).op actor rfl, funext points, ?_,
        hides.transferred, hides.commits, never⟩
      funext mutex
      apply Option.ext
      intro party
      rw [accounted.orderly.owner, accounted'.orderly.owner, points]
  · have keeps (s : Reads S O Q L) (event : Event O Q L) (next : Reads S O Q L)
        (held : s.Accounted latch) (stepped : (machine latch).step s event = some next) :
        Closes latch s event next ∧ next.Accounted latch :=
      ⟨step_closes held stepped, step_accounted s event next held stepped⟩
    exact (machine latch).along_of_invariant keeps initial events

/-- Without its first round the second operation of the contest is woken once. -/
theorem spurious_wakeups_invisible_contest :
    ∃ last shown, (machine 0).run (create (fun _ => silent) (fun _ => 4)) contest =
        some last ∧
      (machine 0).run (create (fun _ => silent) (fun _ => 4))
        (.start 0 :: .start 1 :: contest.drop 6) = some shown ∧
      shown.ops = last.ops ∧ shown.latches.commits = last.latches.commits ∧
      (last.ops 0).calls = [⟨.success, 2, false, false⟩] ∧
      (last.ops 1).calls = [⟨.completionDenied, 0, false, false⟩] := by
  obtain ⟨⟨shown, ran, ops, -, -, -, commits, -⟩, -⟩ :=
    spurious_wakeups_invisible 0 (fun _ => silent) (fun _ => 4) 1 contest _ rfl
  exact ⟨_, shown, rfl, ran, ops, commits, rfl, rfl⟩

end Reads

end Asioex
