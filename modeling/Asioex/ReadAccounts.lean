import Mathlib.Data.List.Count
import Asioex.AtomicRead

/-!
# One winner among the latched reads

An operation's account relates its stage to its point in the transaction program,
the bytes it took and the commits on record. Bytes are taken and the completion is
chosen in the step that commits the latch or gives it up, so the account is settled
there once and for all: denied, with nothing taken and nothing committed, or won,
with one commit and the result of that step's read.

The latches are orderly whatever the parties do, so the latch is committed once.
-/

namespace Asioex

namespace Latches

variable {P L : Type} [DecidableEq P] [DecidableEq L]

/-- How often a party committed a latch. -/
def committedBy (s : Latches P L) (party : P) (latch : L) : Nat := s.commits.count (party, latch)

theorem mem_commits_iff (s : Latches P L) (party : P) (latch : L) :
    (party, latch) ∈ s.commits ↔ 0 < s.committedBy party latch :=
  List.count_pos_iff.symm

/-- The commits of a latch on record for a party are those among the party's commits. -/
theorem committedBy_eq (s : Latches P L) (party : P) (latch : L) :
    s.committedBy party latch = (s.commitsOf party).count latch := by
  unfold committedBy commitsOf
  induction s.commits with
  | nil => rfl
  | cons commit rest inductionHypothesis =>
    obtain ⟨who, which⟩ := commit
    by_cases own : who = party
    · subst own
      simp [List.count_cons, inductionHypothesis]
    · simp [own, inductionHypothesis]

/-- The steps of one party leave the others where they are, and record no commit of
theirs. -/
theorem run_frame {s next : Latches P L} {party : P} {actions : List (Action L)}
    (ran : machine.run s (actions.map (fun action => (party, action))) = some next) {other : P}
    (distinct : other ≠ party) :
    next.point other = s.point other ∧
      ∀ latch, next.committedBy other latch = s.committedBy other latch := by
  obtain ⟨point, commits⟩ := run_others ran distinct
  exact ⟨point, fun latch => by rw [committedBy_eq, committedBy_eq, commits]⟩

/-- One step of a party puts it where its program leads, with what it committed. -/
theorem count_step {s next : Latches P L} {party : P} {action : Action L} {outcome : Outcome L}
    (stepped : machine.step s (party, action) = some next)
    (advanced : (s.point party).advance s.mayCommit action = some outcome) (latch : L) :
    next.point party = outcome.next ∧
      next.committedBy party latch =
        s.committedBy party latch + outcome.effect.commits.count latch := by
  obtain ⟨found, same, point, commits⟩ := step_commitsOf stepped
  obtain rfl : outcome = found := Option.some.inj (advanced.symm.trans same)
  exact ⟨point, by rw [committedBy_eq, committedBy_eq, commits, List.count_append]⟩

/-- Committing a transaction and destroying it adds one commit. -/
theorem commit_counted {s next : Latches P L} {party : P} {latch : L}
    (point : s.point party = .transaction1 (some latch))
    (ran : machine.run s [(party, .commit), (party, .destroy)] = some next) :
    next.point party = .idle ∧
      next.committedBy party latch = s.committedBy party latch + 1 := by
  obtain ⟨idle, commits, -⟩ := run_commits point ran
  exact ⟨idle, by rw [committedBy_eq, committedBy_eq, commits]; simp⟩

/-- Rolling it back and destroying it adds none. -/
theorem rollback_counted {s next : Latches P L} {party : P} {latch_ : Option L}
    (point : s.point party = .transaction1 latch_)
    (ran : machine.run s [(party, .rollback), (party, .destroy)] = some next) (latch : L) :
    next.point party = .idle ∧
      next.committedBy party latch = s.committedBy party latch := by
  obtain ⟨idle, commits⟩ := run_rollback point ran
  exact ⟨idle, by rw [committedBy_eq, committedBy_eq, commits]⟩

end Latches

/-- Where an operation may be between `begin_transaction` and the end of its
resumption. -/
inductive Within {L : Type} (latch : L) : Point L → Prop where
  | locking : Within latch (.locking latch)
  | checking : Within latch (.checking latch)
  | refusing : Within latch (.refusing latch)
  | refused : Within latch (.transaction1 none)
  | begun : Within latch (.transaction1 (some latch))

/-- The accesses of `begin_transaction` stay within it and commit nothing. -/
theorem Within.advance {L : Type} [DecidableEq L] {latch : L} {point : Point L}
    {mayCommit : L → Bool} {action : Action L} {outcome : Outcome L} (inside : Within latch point)
    (beginning : action = .lock ∨ action = .check ∨ action = .unlock)
    (advanced : point.advance mayCommit action = some outcome) :
    Within latch outcome.next ∧ outcome.effect.commits = [] := by
  rcases beginning with rfl | rfl | rfl <;> cases inside <;>
    simp only [Point.advance, reduceCtorEq, Option.some.injEq] at advanced
  · subst advanced
    exact ⟨.checking, rfl⟩
  · split at advanced
    · cases advanced
      exact ⟨.begun, rfl⟩
    · cases advanced
      exact ⟨.refusing, rfl⟩
  · subst advanced
    exact ⟨.refused, rfl⟩

/-- They are not the first accesses of a party. -/
theorem advance_notIdle {L : Type} [DecidableEq L] {point : Point L} {mayCommit : L → Bool}
    {action : Action L} {outcome : Outcome L}
    (beginning : action = .lock ∨ action = .check ∨ action = .unlock)
    (advanced : point.advance mayCommit action = some outcome) : point ≠ .idle := by
  rintro rfl
  rcases beginning with rfl | rfl | rfl <;> simp [Point.advance] at advanced

/-- How an operation stands, by its stage, with its point and its number of commits. -/
inductive Account {S L : Type} (latch : L) (point : Point L) (committed : Nat)
    (op : ReadOp S) : Prop where
  | outside (stage : op.stage = .initial ∨ op.stage = .waiting) (idle : point = .idle)
      (fresh : op.completions = []) (nothing : op.taken = []) (none : committed = 0)
  | within (ec : ErrorCode) (stage : op.stage = .resumed ec) (error : ec ≠ .completionDenied)
      (inside : Within latch point) (fresh : op.completions = []) (nothing : op.taken = [])
      (none : committed = 0)
  | denied (stage : op.stage = .completed) (idle : point = .idle)
      (completed : op.completions = [(.completionDenied, 0)]) (nothing : op.taken = [])
      (none : committed = 0)
  | won (ec : ErrorCode) (stage : op.stage = .completed) (idle : point = .idle)
      (completed : op.completions = [(ec, op.taken.length)]) (error : ec ≠ .completionDenied)
      (once : committed = 1)

/-- The bytes that an operation took, followed by those its socket still holds. -/
def ReadOp.stream {S : Type} [Socket S] (op : ReadOp S) : List UInt8 :=
  op.taken ++ Socket.incoming op.sock

namespace Reads

variable {S O Q L : Type} [DecidableEq O]

/-- The bytes that an event brings to an operation's socket. -/
def Event.brings (o : O) : Event O Q L → List UInt8
  | .arrive actor bytes => if actor = o then bytes else []
  | _ => []

/-- Moving an operation on changes no stream if it keeps its own. -/
theorem stream_setOp [Socket S] (s : Reads S O Q L) {o : O} {op : ReadOp S}
    (same : op.stream = (s.ops o).stream) (other : O) :
    ((s.setOp o op).ops other).stream = (s.ops other).stream := by
  by_cases mine : other = o
  · subst mine
    rw [setOp_self, same]
  · rw [setOp_of_ne s op mine]

variable [DecidableEq Q] [DecidableEq L]

/-- How often an operation committed a latch. -/
def committed (s : Reads S O Q L) (latch : L) (o : O) : Nat :=
  s.latches.committedBy (.inl o) latch

/-- The account of one operation. -/
def Stands (latch : L) (s : Reads S O Q L) (o : O) : Prop :=
  Account latch (s.latches.point (.inl o)) (s.committed latch o) (s.ops o)

/-- Orderly latches, and an account for each operation. -/
structure Accounted (latch : L) (s : Reads S O Q L) : Prop where
  orderly : s.latches.Orderly
  stands : ∀ o, s.Stands latch o

theorem create_accounted (latch : L) (sock : O → S) (size : O → Nat) :
    (create sock size : Reads S O Q L).Accounted latch where
  orderly := Latches.create_orderly
  stands _ := .outside (.inl rfl) rfl rfl rfl rfl

/-- Accesses of one party move no operation but that party, and take no bytes. -/
theorem access_frame {s next : Reads S O Q L} {party : O ⊕ Q} {actions : List (Action L)}
    (accessed : s.access party actions = some next) :
    Latches.machine.run s.latches (actions.map (fun action => (party, action))) =
        some next.latches ∧ next.ops = s.ops := by
  obtain ⟨latches, ran, rfl⟩ := Option.map_eq_some_iff.mp accessed
  exact ⟨ran, rfl⟩

/-- Accesses of another party leave an operation alone. -/
theorem access_unmoved {latch : L} {s next : Reads S O Q L} {party : O ⊕ Q}
    {actions : List (Action L)} (accessed : s.access party actions = some next) {o : O}
    (distinct : .inl o ≠ party) :
    next.latches.point (.inl o) = s.latches.point (.inl o) ∧
      next.committed latch o = s.committed latch o := by
  obtain ⟨ran, -⟩ := access_frame accessed
  obtain ⟨point, counts⟩ := Latches.run_frame ran distinct
  exact ⟨point, counts latch⟩

variable [Socket S]

/-- What a return of `complete` leaves of an operation: it is completed, with one more call
of its handler. -/
structure Completes (s : Reads S O Q L) (o : O) (ec : ErrorCode) (size : Nat)
    (next : Reads S O Q L) : Prop where
  stage : (next.ops o).stage = .completed
  sock : (next.ops o).sock = (s.ops o).sock
  taken : (next.ops o).taken = (s.ops o).taken
  completions : (next.ops o).completions = (s.ops o).completions ++ [(ec, size)]
  others : ∀ other, other ≠ o → next.ops other = s.ops other

/-- Closing the transaction, completing and destroying it are two accesses with the call of
the handler between them. -/
theorem returnComplete_cases {latch : L} {s next : Reads S O Q L} {o : O} {closing : Action L}
    {ec : ErrorCode} {size : Nat}
    (returned : s.returnComplete latch o closing ec size = some next) :
    ∃ released, Latches.machine.step s.latches (.inl o, closing) = some released ∧
      Latches.machine.step released (.inl o, .destroy) = some next.latches ∧
      next.ops = (({ s with latches := released } : Reads S O Q L).complete latch o ec size).ops := by
  obtain ⟨released, closed, left⟩ := Option.bind_eq_some_iff.mp returned
  obtain ⟨ran, ops⟩ := access_frame closed
  obtain ⟨middle, stepped, done⟩ := Latches.machine.run_cons.mp ran
  obtain rfl := Option.some.inj done
  obtain ⟨ran', ops'⟩ := access_frame left
  obtain ⟨last, destroyed, done'⟩ := Latches.machine.run_cons.mp ran'
  obtain rfl := Option.some.inj done'
  refine ⟨released.latches, stepped, destroyed, ?_⟩
  rw [ops', ← ops]

theorem returnComplete_completes {latch : L} {s next : Reads S O Q L} {o : O}
    {closing : Action L} {ec : ErrorCode} {size : Nat}
    (returned : s.returnComplete latch o closing ec size = some next) :
    Latches.machine.run s.latches [(.inl o, closing), (.inl o, .destroy)] = some next.latches ∧
      Completes s o ec size next := by
  obtain ⟨released, closed, destroyed, ops⟩ := returnComplete_cases returned
  refine ⟨Latches.machine.run_cons.mpr ⟨released, closed, Latches.machine.run_cons.mpr
    ⟨next.latches, destroyed, rfl⟩⟩, ?_⟩
  constructor
  · simp [ops, complete]
  · simp [ops, complete]
  · simp [ops, complete]
  · simp [ops, complete, ReadOp.completions]
  · intro other distinct
    rw [ops, complete, setOp_of_ne _ _ distinct]

/-- What the step that commits the latch for an operation delivers: the error of the
wait, with nothing taken, or the result of its read, with the bytes it took. -/
def Delivers (s : Reads S O Q L) (o : O) (more : Nat) (next : Reads S O Q L) : Prop :=
  (∃ ec, (s.ops o).stage = .resumed ec ∧ ec ≠ .success ∧
    (next.ops o).completions = [(ec, 0)] ∧ (next.ops o).taken = []) ∨
  ((s.ops o).stage = .resumed .success ∧ ∃ sock ec bytes,
    Socket.readSome (Socket.setNonBlocking (s.ops o).sock true) (s.ops o).size more =
      some (sock, ec, bytes) ∧
      (next.ops o).completions = [(ec, bytes.length)] ∧ (next.ops o).taken = bytes)

/-- How a step changes one operation: it commits nothing for it, takes no bytes and
withdraws no completion, or it is the end of its resumption, commits once, and
delivers the result. -/
inductive Turns (latch : L) (s : Reads S O Q L) (event : Event O Q L) (next : Reads S O Q L)
    (o : O) : Prop where
  | quiet (same : next.committed latch o = s.committed latch o)
      (taken : (next.ops o).taken = (s.ops o).taken)
      (kept : (s.ops o).completions <+: (next.ops o).completions)
  | commits (more : Nat) (finish : event = .finish o more)
      (fresh : (s.ops o).completions = []) (before : s.committed latch o = 0)
      (after : next.committed latch o = 1) (delivers : s.Delivers o more next)

/-- A step that leaves an operation and its accesses alone keeps its account. -/
theorem Stands.unmoved {latch : L} {s next : Reads S O Q L} {event : Event O Q L} {o : O}
    (stands : s.Stands latch o) (op : next.ops o = s.ops o)
    (point : next.latches.point (.inl o) = s.latches.point (.inl o))
    (committed : next.committed latch o = s.committed latch o) :
    next.Stands latch o ∧ Turns latch s event next o := by
  refine ⟨?_, .quiet committed (by rw [op]) (by simp [op])⟩
  unfold Stands
  rw [op, point, committed]
  exact stands

/-- An access of `begin_transaction` by an operation keeps its account: outside its
resumptions the operation has no such access to make. -/
theorem Stands.begins {latch : L} {s next : Reads S O Q L} {event : Event O Q L} {o : O}
    (stands : s.Stands latch o) {action : Action L}
    (beginning : action = .lock ∨ action = .check ∨ action = .unlock)
    (accessed : s.access (.inl o) [action] = some next) :
    next.Stands latch o ∧ Turns latch s event next o := by
  obtain ⟨ran, ops⟩ := access_frame accessed
  obtain ⟨last, stepped, done⟩ := Latches.machine.run_cons.mp ran
  obtain rfl := Option.some.inj done
  obtain ⟨outcome, advanced, -⟩ := Latches.step_frame stepped
  obtain ⟨point, count⟩ := Latches.count_step stepped advanced latch
  have notIdle := advance_notIdle beginning advanced
  cases stands with
  | outside stage idle => exact absurd idle notIdle
  | denied stage idle => exact absurd idle notIdle
  | won ec stage idle => exact absurd idle notIdle
  | within ec stage error inside fresh nothing none =>
    obtain ⟨still, empty⟩ := inside.advance beginning advanced
    have same : next.committed latch o = s.committed latch o := by
      change next.latches.committedBy _ _ = s.latches.committedBy _ _
      rw [count, empty, List.count_nil, Nat.add_zero]
    refine ⟨?_, .quiet same (by rw [ops]) (by simp [ops])⟩
    unfold Stands
    rw [point, same, ops]
    exact .within ec stage error still fresh nothing none

/-- A denied operation has taken nothing and its accesses committed nothing. -/
theorem finishes_denied {latch : L} {s next : Reads S O Q L} {event : Event O Q L} {o : O}
    (point : s.latches.point (.inl o) = .transaction1 none) (fresh : (s.ops o).completions = [])
    (nothing : (s.ops o).taken = []) (none : s.committed latch o = 0)
    (returned : s.returnComplete latch o .rollback .completionDenied 0 = some next) :
    next.Stands latch o ∧ Turns latch s event next o := by
  obtain ⟨ran, completes⟩ := returnComplete_completes returned
  obtain ⟨idle, same⟩ := Latches.rollback_counted point ran latch
  refine ⟨.denied completes.stage idle ?_ ?_ (same.trans none), .quiet same completes.taken ?_⟩
  · rw [completes.completions, fresh, List.nil_append]
  · rw [completes.taken, nothing]
  · rw [completes.completions]
    exact List.prefix_append _ _

/-- An operation that found nothing to read gives the latch up and waits again. -/
theorem finishes_waiting {latch : L} {s next : Reads S O Q L} {event : Event O Q L} {o : O}
    {sock : S} (point : s.latches.point (.inl o) = .transaction1 (some latch))
    (fresh : (s.ops o).completions = []) (nothing : (s.ops o).taken = [])
    (none : s.committed latch o = 0)
    (resumed : ((s.received o sock []).access (.inl o) [.rollback, .destroy]).map
      (·.asyncWait o) = some next) : next.Stands latch o ∧ Turns latch s event next o := by
  obtain ⟨left, accessed, rfl⟩ := Option.map_eq_some_iff.mp resumed
  obtain ⟨ran, ops⟩ := access_frame accessed
  obtain ⟨idle, same⟩ := Latches.rollback_counted point ran latch
  have kept : ((left.asyncWait o).ops o).completions = (s.ops o).completions := by
    simp [asyncWait, ops, received, ReadOp.completions]
  have taken : ((left.asyncWait o).ops o).taken = (s.ops o).taken := by
    simp [asyncWait, ops, received]
  refine ⟨.outside (.inr ?_) idle (kept.trans fresh) (taken.trans nothing) (same.trans none),
    .quiet same taken (kept ▸ List.prefix_refl _)⟩
  simp [asyncWait]

/-- An operation that commits completes with what this step read, or with the error
of its wait. -/
theorem finishes_won {latch : L} {s next : Reads S O Q L} {o : O} {more : Nat} {ec : ErrorCode}
    (taking : Reads S O Q L) (bytes : List UInt8) (latches : taking.latches = s.latches)
    (point : s.latches.point (.inl o) = .transaction1 (some latch))
    (fresh : (s.ops o).completions = [])
    (kept : (taking.ops o).completions = (s.ops o).completions)
    (taken : (taking.ops o).taken = bytes)
    (none : s.committed latch o = 0) (error : ec ≠ .completionDenied)
    (returned : taking.returnComplete latch o .commit ec bytes.length = some next)
    (delivers : (next.ops o).completions = [(ec, bytes.length)] → (next.ops o).taken = bytes →
      s.Delivers o more next) :
    next.Stands latch o ∧ Turns latch s (.finish o more) next o := by
  obtain ⟨ran, completes⟩ := returnComplete_completes returned
  rw [latches] at ran
  obtain ⟨idle, counted⟩ := Latches.commit_counted point ran
  have once : next.committed latch o = 1 := by
    change next.latches.committedBy _ _ = 1
    rw [counted]
    change s.committed latch o + 1 = 1
    rw [none]
  have completions : (next.ops o).completions = [(ec, bytes.length)] := by
    rw [completes.completions, kept, fresh, List.nil_append]
  have holds : (next.ops o).taken = bytes := completes.taken.trans taken
  refine ⟨.won ec completes.stage idle ?_ error once,
    .commits more rfl fresh none once (delivers completions holds)⟩
  rw [completions, holds]

/-- The end of a resumption settles the operation's account, or leaves it waiting. -/
theorem Stands.finishes [LawfulSocket S] {latch : L} {s next : Reads S O Q L} {o : O}
    {ec : ErrorCode} {more : Nat} (stands : s.Stands latch o) (stage : (s.ops o).stage = .resumed ec)
    (resumed : s.resume latch o ec more = some next) :
    next.Stands latch o ∧ Turns latch s (.finish o more) next o := by
  cases stands with
  | outside other => rcases other with other | other <;> simp [stage] at other
  | denied other => simp [stage] at other
  | won _ other => simp [stage] at other
  | within found same error inside fresh nothing none =>
    obtain rfl : ec = found := by simpa [stage] using same
    generalize point : s.latches.point (.inl o) = here at inside
    cases inside with
    | locking => simp [resume, point] at resumed
    | checking => simp [resume, point] at resumed
    | refusing => simp [resume, point] at resumed
    | refused =>
      simp only [resume, point] at resumed
      exact finishes_denied point fresh nothing none resumed
    | begun =>
      simp only [resume, point] at resumed
      by_cases failed : ec.isSet = true
      · rw [if_pos failed] at resumed
        refine finishes_won s [] rfl point fresh rfl nothing none error resumed
          (fun completions taken => .inl ⟨ec, stage, ?_, completions, taken⟩)
        exact (ErrorCode.isSet_iff ec).mp failed
      · obtain rfl : ec = .success := ec.not_isSet_iff.mp failed
        rw [if_neg failed] at resumed
        obtain ⟨⟨sock, result, bytes⟩, read, rest⟩ := Option.bind_eq_some_iff.mp resumed
        simp only at rest
        by_cases blocked : result = .wouldBlock
        · obtain rfl : bytes = [] :=
            LawfulSocket.readSome_failed read (by rw [blocked]; decide)
          simp only [blocked, ↓reduceIte] at rest
          exact finishes_waiting point fresh nothing none rest
        · simp only [blocked, ↓reduceIte] at rest
          refine finishes_won (s.received o sock bytes) bytes rfl point fresh ?_ ?_ none
            (LawfulSocket.readSome_code read) rest
            (fun completions taken => .inr ⟨stage, sock, result, bytes, read, completions, taken⟩)
          · simp [received, ReadOp.completions]
          · simp [received, nothing]

/-- What happens at a socket leaves its operation's account as it is. -/
theorem Stands.socket {latch : L} {s : Reads S O Q L} {event : Event O Q L} {o other : O}
    (stands : s.Stands latch other) (sock : S) :
    (s.setOp o { s.ops o with sock := sock }).Stands latch other ∧
      Turns latch s event (s.setOp o { s.ops o with sock := sock }) other := by
  by_cases mine : other = o
  · subst mine
    refine ⟨?_, .quiet rfl (by simp) (by simp [ReadOp.completions])⟩
    unfold Stands at stands ⊢
    rw [setOp_self]
    cases stands with
    | outside stage idle fresh nothing none => exact .outside stage idle fresh nothing none
    | within ec stage error inside fresh nothing none =>
      exact .within ec stage error inside fresh nothing none
    | denied stage idle completed nothing none => exact .denied stage idle completed nothing none
    | won ec stage idle completed error once => exact .won ec stage idle completed error once
  · exact stands.unmoved (s.setOp_of_ne _ mine) rfl rfl

/-- Accesses by an operation that leave what it read, and the other operations. -/
structure Leaves (taking : Reads S O Q L) (o : O) (next : Reads S O Q L) : Prop where
  accesses : ∃ actions : List (Action L), Latches.machine.run taking.latches
    (actions.map (fun action => (.inl o, action))) = some next.latches
  sock : (next.ops o).sock = (taking.ops o).sock
  taken : (next.ops o).taken = (taking.ops o).taken
  others : ∀ other, other ≠ o → next.ops other = taking.ops other

/-- A resumption that completes ends so. -/
theorem leaves_of_returned {latch : L} {taking next : Reads S O Q L} {o : O} {closing : Action L}
    {ec : ErrorCode} {size : Nat}
    (returned : taking.returnComplete latch o closing ec size = some next) :
    Leaves taking o next := by
  obtain ⟨ran, completes⟩ := returnComplete_completes returned
  exact ⟨⟨[closing, .destroy], ran⟩, completes.sock, completes.taken, completes.others⟩

omit [Socket S] in
/-- So does one that waits again. -/
theorem leaves_of_waiting {taking next : Reads S O Q L} {o : O} {actions : List (Action L)}
    (resumed : (taking.access (.inl o) actions).map (·.asyncWait o) = some next) :
    Leaves taking o next := by
  obtain ⟨left, accessed, rfl⟩ := Option.map_eq_some_iff.mp resumed
  obtain ⟨ran, ops⟩ := access_frame accessed
  refine ⟨⟨actions, ran⟩, ?_, ?_, fun other distinct => ?_⟩
  · simp [asyncWait, ops]
  · simp [asyncWait, ops]
  · rw [asyncWait, setOp_of_ne left _ distinct, ops]

/-- The end of a resumption is a read, perhaps, and then such accesses. -/
theorem resume_cases {latch : L} {s next : Reads S O Q L} {o : O} {ec : ErrorCode} {more : Nat}
    (resumed : s.resume latch o ec more = some next) :
    Leaves s o next ∨ ∃ sock result bytes,
      Socket.readSome (Socket.setNonBlocking (s.ops o).sock true) (s.ops o).size more =
        some (sock, result, bytes) ∧ Leaves (s.received o sock bytes) o next := by
  unfold resume at resumed
  split at resumed
  · exact .inl (leaves_of_returned resumed)
  · split at resumed
    · exact .inl (leaves_of_returned resumed)
    · obtain ⟨⟨sock, result, bytes⟩, read, rest⟩ := Option.bind_eq_some_iff.mp resumed
      simp only at rest
      split at rest
      · exact .inr ⟨sock, result, bytes, read, leaves_of_waiting rest⟩
      · exact .inr ⟨sock, result, bytes, read, leaves_of_returned rest⟩
  · exact absurd resumed (by simp)

/-- The end of a resumption is a run of the latches, by the operation's own accesses,
and leaves the other operations alone. -/
theorem resume_frame {latch : L} {s next : Reads S O Q L} {o : O} {ec : ErrorCode} {more : Nat}
    (resumed : s.resume latch o ec more = some next) :
    (∃ actions : List (Action L), Latches.machine.run s.latches
        (actions.map (fun action => (.inl o, action))) = some next.latches) ∧
      ∀ other, other ≠ o → next.ops other = s.ops other := by
  rcases resume_cases resumed with leaves | ⟨sock, result, bytes, -, leaves⟩
  · exact ⟨leaves.accesses, leaves.others⟩
  · refine ⟨leaves.accesses, fun other distinct => ?_⟩
    rw [leaves.others other distinct]
    exact s.setOp_of_ne _ distinct

/-- What leaves the bytes that an operation took and its socket leaves every stream. -/
theorem Leaves.stream {taking next : Reads S O Q L} {o : O} (leaves : Leaves taking o next)
    (other : O) : (next.ops other).stream = (taking.ops other).stream := by
  by_cases mine : other = o
  · subst mine
    rw [ReadOp.stream, leaves.sock, leaves.taken]
    rfl
  · rw [leaves.others other mine]

/-- A read moves the front of what a socket holds to the bytes taken. -/
theorem resume_conserves [LawfulSocket S] {latch : L} {s next : Reads S O Q L} {o : O}
    {ec : ErrorCode} {more : Nat} (resumed : s.resume latch o ec more = some next) (other : O) :
    (next.ops other).stream = (s.ops other).stream := by
  rcases resume_cases resumed with leaves | ⟨sock, result, bytes, read, leaves⟩
  · exact leaves.stream other
  · rw [leaves.stream other]
    have front := LawfulSocket.readSome_takes read
    rw [LawfulSocket.incoming_setNonBlocking] at front
    refine s.stream_setOp ?_ other
    simp [ReadOp.stream, LawfulSocket.incoming_setNonBlocking, front]

/-- Every step keeps every operation's account, and commits and takes bytes for it
only at the end of its resumption. -/
theorem step_turns [LawfulSocket S] {latch : L} {s next : Reads S O Q L} {event : Event O Q L}
    (accounted : s.Accounted latch) (stepped : (machine latch).step s event = some next) (o : O) :
    next.Stands latch o ∧ Turns latch s event next o := by
  have stands := accounted.stands o
  have apart {other : O} (distinct : o ≠ other) : (.inl o : O ⊕ Q) ≠ .inl other :=
    fun same => distinct (Sum.inl.inj same)
  have begun {actor : O} {action : Action L}
      (beginning : action = .lock ∨ action = .check ∨ action = .unlock)
      (accessed : s.access (.inl actor) [action] = some next) :
      next.Stands latch o ∧ Turns latch s event next o := by
    by_cases mine : o = actor
    · subst mine
      exact stands.begins beginning accessed
    · obtain ⟨point, counts⟩ := access_unmoved accessed (apart mine)
      exact stands.unmoved (by rw [(access_frame accessed).2]) point counts
  cases event with
  | other q action =>
    obtain ⟨point, counts⟩ := access_unmoved stepped (o := o) (by simp)
    exact stands.unmoved (by rw [(access_frame stepped).2]) point counts
  | start actor =>
    simp only [machine, step, Option.ite_none_right_eq_some, Option.some.injEq] at stepped
    obtain ⟨initial, rfl⟩ := stepped
    by_cases mine : o = actor
    · subst mine
      refine ⟨?_, .quiet rfl (by simp [asyncWait]) (by simp [asyncWait, ReadOp.completions])⟩
      cases stands with
      | outside stage idle fresh nothing none =>
        exact .outside (.inr (by simp [asyncWait])) idle
          (by simpa [asyncWait, ReadOp.completions] using fresh)
          (by simpa [asyncWait] using nothing) none
      | within ec stage => simp [initial] at stage
      | denied stage => simp [initial] at stage
      | won ec stage => simp [initial] at stage
    · exact stands.unmoved (s.setOp_of_ne _ mine) rfl rfl
  | wake actor error =>
    simp only [machine, step, Option.ite_none_right_eq_some] at stepped
    obtain ⟨waiting, accessed⟩ := stepped
    obtain ⟨ran, ops⟩ := access_frame accessed
    by_cases mine : o = actor
    · subst mine
      cases stands with
      | within ec stage => simp [waiting] at stage
      | denied stage => simp [waiting] at stage
      | won ec stage => simp [waiting] at stage
      | outside stage idle fresh nothing none =>
        obtain ⟨last, taken, done⟩ := Latches.machine.run_cons.mp ran
        obtain rfl := Option.some.inj done
        have begins : (s.latches.point (.inl o)).advance s.latches.mayCommit (.begin latch) =
            some ⟨.none, .locking latch, true⟩ := by rw [idle]; rfl
        obtain ⟨point, counts⟩ := Latches.count_step taken begins latch
        refine ⟨.within (waitCode error) ?_ ?_ ?_ ?_ ?_ (counts.trans none), .quiet counts ?_ ?_⟩
        · simp [ops]
        · cases error <;> simp [waitCode]
        · rw [point]
          exact .locking
        · simpa [ops, ReadOp.completions] using fresh
        · simp [ops, nothing]
        · simp [ops]
        · simp [ops, ReadOp.completions]
    · obtain ⟨point, counts⟩ := access_unmoved accessed (apart mine)
      exact stands.unmoved (by rw [ops, setOp_of_ne s _ mine]) point counts
  | lock actor => exact begun (.inl rfl) stepped
  | check actor => exact begun (.inr (.inl rfl)) stepped
  | unlock actor => exact begun (.inr (.inr rfl)) stepped
  | finish actor more =>
    simp only [machine, step] at stepped
    split at stepped
    · next ec stage =>
      by_cases mine : o = actor
      · subst mine
        exact stands.finishes stage stepped
      · obtain ⟨⟨actions, ran⟩, ops⟩ := resume_frame stepped
        obtain ⟨point, counts⟩ := Latches.run_frame ran (apart mine)
        exact stands.unmoved (ops o mine) point (counts latch)
    · exact absurd stepped (by simp)
  | arrive actor bytes =>
    obtain rfl := Option.some.inj stepped
    exact stands.socket _
  | fail actor error =>
    obtain rfl := Option.some.inj stepped
    exact stands.socket _
  | configure actor nonBlocking =>
    obtain rfl := Option.some.inj stepped
    exact stands.socket _

/-- A step of the operations is a run of the latches. -/
theorem step_latches {latch : L} {s next : Reads S O Q L} {event : Event O Q L}
    (stepped : (machine latch).step s event = some next) :
    ∃ accesses, Latches.machine.run s.latches accesses = some next.latches := by
  cases event with
  | other q action => exact ⟨_, (access_frame stepped).1⟩
  | lock actor => exact ⟨_, (access_frame stepped).1⟩
  | check actor => exact ⟨_, (access_frame stepped).1⟩
  | unlock actor => exact ⟨_, (access_frame stepped).1⟩
  | start actor =>
    simp only [machine, step, Option.ite_none_right_eq_some, Option.some.injEq] at stepped
    obtain ⟨-, rfl⟩ := stepped
    exact ⟨[], rfl⟩
  | wake actor error =>
    simp only [machine, step, Option.ite_none_right_eq_some] at stepped
    exact ⟨_, (access_frame stepped.2).1⟩
  | arrive actor bytes =>
    obtain rfl := Option.some.inj stepped
    exact ⟨[], rfl⟩
  | fail actor error =>
    obtain rfl := Option.some.inj stepped
    exact ⟨[], rfl⟩
  | configure actor nonBlocking =>
    obtain rfl := Option.some.inj stepped
    exact ⟨[], rfl⟩
  | finish actor more =>
    simp only [machine, step] at stepped
    split at stepped
    · obtain ⟨⟨actions, ran⟩, -⟩ := resume_frame stepped
      exact ⟨_, ran⟩
    · exact absurd stepped (by simp)

theorem step_accounted [LawfulSocket S] {latch : L} (s : Reads S O Q L) (event : Event O Q L)
    (next : Reads S O Q L) (accounted : s.Accounted latch)
    (stepped : (machine latch).step s event = some next) : next.Accounted latch where
  orderly := by
    obtain ⟨accesses, ran⟩ := step_latches stepped
    exact Latches.machine.run_invariant Latches.step_orderly accounted.orderly ran
  stands o := (step_turns accounted stepped o).1

/-- No step loses a byte: what an event brings is still to be read, and what a read
removes from the socket has been taken. -/
theorem step_conserves [LawfulSocket S] {latch : L} {s next : Reads S O Q L} {event : Event O Q L}
    (stepped : (machine latch).step s event = some next) (o : O) :
    (next.ops o).stream = (s.ops o).stream ++ event.brings o := by
  cases event with
  | other q action => simp [Event.brings, (access_frame stepped).2]
  | lock actor => simp [Event.brings, (access_frame stepped).2]
  | check actor => simp [Event.brings, (access_frame stepped).2]
  | unlock actor => simp [Event.brings, (access_frame stepped).2]
  | start actor =>
    simp only [machine, step, Option.ite_none_right_eq_some, Option.some.injEq] at stepped
    obtain ⟨-, rfl⟩ := stepped
    refine (s.stream_setOp ?_ o).trans (List.append_nil _).symm
    rfl
  | wake actor error =>
    simp only [machine, step, Option.ite_none_right_eq_some] at stepped
    obtain ⟨-, ops⟩ := access_frame stepped.2
    rw [ops]
    refine (s.stream_setOp ?_ o).trans (List.append_nil _).symm
    rfl
  | finish actor more =>
    simp only [machine, step] at stepped
    split at stepped
    · exact (resume_conserves stepped o).trans (List.append_nil _).symm
    · exact absurd stepped (by simp)
  | arrive actor bytes =>
    obtain rfl := Option.some.inj stepped
    by_cases mine : o = actor
    · subst mine
      simp [ReadOp.stream, Event.brings, LawfulSocket.incoming_arrive]
    · simp [s.setOp_of_ne _ mine, Event.brings, Ne.symm mine]
  | fail actor error =>
    obtain rfl := Option.some.inj stepped
    refine (s.stream_setOp ?_ o).trans (List.append_nil _).symm
    simp [ReadOp.stream, LawfulSocket.incoming_fail]
  | configure actor nonBlocking =>
    obtain rfl := Option.some.inj stepped
    refine (s.stream_setOp ?_ o).trans (List.append_nil _).symm
    simp [ReadOp.stream, LawfulSocket.incoming_setNonBlocking]

/-- A latch that is committed once has one committer. -/
theorem committer_unique {P : Type} {commits : List (P × L)} {latch : L}
    (once : commits.countP (·.2 == latch) ≤ 1) {first second : P}
    (member : (first, latch) ∈ commits) (member' : (second, latch) ∈ commits) :
    first = second := by
  rw [List.countP_eq_length_filter] at once
  have inside : (first, latch) ∈ commits.filter (·.2 == latch) := by simp [member]
  have inside' : (second, latch) ∈ commits.filter (·.2 == latch) := by simp [member']
  cases found : commits.filter (·.2 == latch) with
  | nil => simp [found] at inside
  | cons only rest =>
    obtain rfl : rest = [] := by simpa [found] using once
    rw [found, List.mem_singleton] at inside inside'
    exact congrArg Prod.fst (inside.trans inside'.symm)

/-- One party commits the latch, and the reads that are not this party take nothing.
A read completes once at most, and takes bytes only in the step in which it commits:
each byte that arrives is taken in turn, or is still in the socket. -/
theorem one_winner [LawfulSocket S] (latch : L) (sock : O → S) (size : O → Nat)
    (events : List (Event O Q L)) (s : Reads S O Q L)
    (ran : (machine latch).run (create sock size) events = some s) :
    (∀ first second, (first, latch) ∈ s.latches.commits → (second, latch) ∈ s.latches.commits →
      first = second) ∧
    (∀ o, (s.ops o).completions.length ≤ 1) ∧
    (∀ event next, (machine latch).step s event = some next → ∀ o,
      (s.ops o).completions <+: (next.ops o).completions ∧
      (next.ops o).stream = (s.ops o).stream ++ event.brings o ∧
      ((next.ops o).taken ≠ (s.ops o).taken →
        s.committed latch o = 0 ∧ next.committed latch o = 1) ∧
      (s.committed latch o ≠ next.committed latch o →
        ∃ more, event = .finish o more ∧ s.Delivers o more next)) ∧
    (∀ o, (∃ completion ∈ (s.ops o).completions, completion ≠ (.completionDenied, 0)) ↔
      (.inl o, latch) ∈ s.latches.commits) ∧
    (∀ o count, (.completionDenied, count) ∈ (s.ops o).completions → (s.ops o).taken = []) := by
  have accounted : s.Accounted latch :=
    (machine latch).run_invariant step_accounted (create_accounted latch sock size) ran
  refine ⟨fun first second member member' => ?_, fun o => ?_, fun event next stepped o => ?_,
    fun o => ?_, fun o count denied => ?_⟩
  · refine committer_unique ?_ member member'
    rw [accounted.orderly.commits latch]
    split <;> omega
  · cases accounted.stands o with
    | outside _ _ fresh => simp [fresh]
    | within _ _ _ _ fresh => simp [fresh]
    | denied _ _ completed => simp [completed]
    | won _ _ _ completed => simp [completed]
  · have stream := step_conserves stepped o
    cases (step_turns accounted stepped o).2 with
    | quiet same taken kept =>
      exact ⟨kept, stream, fun changed => absurd taken changed, fun changed => absurd same.symm changed⟩
    | commits more finish fresh before after delivers =>
      exact ⟨by simp [fresh], stream, fun _ => ⟨before, after⟩, fun _ => ⟨more, finish, delivers⟩⟩
  · rw [s.latches.mem_commits_iff]
    change _ ↔ 0 < s.committed latch o
    cases accounted.stands o with
    | outside _ _ fresh _ none => simp [fresh, none]
    | within _ _ _ _ fresh _ none => simp [fresh, none]
    | denied _ _ completed _ none => simp [completed, none]
    | won _ _ _ completed error once => simp [completed, once, error]
  · cases accounted.stands o with
    | outside _ _ _ nothing => exact nothing
    | within _ _ _ _ _ nothing => exact nothing
    | denied _ _ _ nothing => exact nothing
    | won _ _ _ completed error => simp [completed, Ne.symm error] at denied

/-- A socket in blocking mode that nothing has arrived at. -/
def silent : BufferedSocket := ⟨[], none, false⟩

/-- Two operations. The second is woken for nothing, gives the latch up, and waits; the
first reads what arrived; the second is woken again and denied. -/
def contest : List (Event Nat Nat Nat) :=
  [.start 0, .start 1, .wake 1 none, .lock 1, .check 1, .finish 1 0, .arrive 0 [7, 8],
    .wake 0 none, .wake 1 none, .lock 0, .check 0, .finish 0 9, .other 5 (.begin 0),
    .lock 1, .check 1, .unlock 1, .finish 1 0]

theorem one_winner_contest :
    ∃ s, (machine 0).run (create (fun _ => silent) (fun _ => 4)) contest = some s ∧
      (s.ops 0).completions = [(.success, 2)] ∧ (s.ops 0).taken = [7, 8] ∧
      (s.ops 1).completions = [(.completionDenied, 0)] ∧ (s.ops 1).taken = [] := by
  refine ⟨_, rfl, rfl, rfl, rfl, ?_⟩
  exact (one_winner 0 (fun _ => silent) (fun _ => 4) contest _ rfl).2.2.2.2 1 0
    List.mem_cons_self

end Reads

end Asioex
