import Mathlib.Data.Fintype.Basic
import Asioex.LatchReset
import Asioex.ReadAccounts

/-!
# Latched reads, one round after the other

A program that does not want to wait for its sockets for ever reads in rounds. A round
resets the latch, initiates latched reads, one for each socket, together with a party that
trips the latch after a while, and waits until all of them have ended. Whatever was not
read is left to the next round.

A read is denied only if it found the latch committed, so a round that is over has a
winner. A read that lost has taken nothing, so the rounds together read what a socket
received, without a gap.
-/

namespace Asioex

/-- A round that is over: what its operations completed with, the bytes they took, and who
committed the latch. -/
structure Round (O Q : Type) where
  completions : O → List (ErrorCode × Nat)
  taken : O → List UInt8
  committers : List (O ⊕ Q)

/-- The round in progress, and those that are over. -/
structure ReadRounds (S O Q L : Type) where
  current : Reads S O Q L
  ended : List (Round O Q)

namespace Reads

variable {S O Q L : Type}

/-- Every operation has completed, and the other parties are done. -/
def Over (s : Reads S O Q L) : Prop :=
  (∀ o, (s.ops o).stage = .completed) ∧ ∀ q, s.latches.point (.inr q) = .idle

instance [Fintype O] [Fintype Q] [DecidableEq L] (s : Reads S O Q L) : Decidable s.Over :=
  inferInstanceAs (Decidable (_ ∧ _))

variable [DecidableEq L]

/-- What is left on record of a round. -/
def round (latch : L) (s : Reads S O Q L) : Round O Q where
  completions o := (s.ops o).completions
  taken o := (s.ops o).taken
  committers := (s.latches.commits.filter (·.2 == latch)).map Prod.fst

/-- `latch.reset()`, and operations on the same sockets that have not begun. -/
def renew (latch : L) (s : Reads S O Q L) : Reads S O Q L where
  latches := s.latches.renew latch
  ops o := ⟨.initial, (s.ops o).sock, (s.ops o).size, [], []⟩

end Reads

namespace ReadRounds

variable {S O Q L : Type}

/-- The first round, over sockets in any state. -/
def create (sock : O → S) (size : O → Nat) : ReadRounds S O Q L := ⟨.create sock size, []⟩

/-- What happens within a round, and the passage to the next one. -/
inductive Event (O Q L : Type) where
  | within (event : Reads.Event O Q L)
  | next

variable [DecidableEq O] [DecidableEq Q] [DecidableEq L]

def step [Fintype O] [Fintype Q] [Socket S] (latch : L) (s : ReadRounds S O Q L) :
    Event O Q L → Option (ReadRounds S O Q L)
  | .within event => ((Reads.machine latch).step s.current event).map
      (fun current => { s with current := current })
  | .next =>
    if s.current.Over then some ⟨s.current.renew latch, s.ended ++ [s.current.round latch]⟩
    else none

def machine [Fintype O] [Fintype Q] [Socket S] (latch : L) :
    Machine (ReadRounds S O Q L) (Event O Q L) :=
  ⟨step latch⟩

/-- The bytes that an operation's socket received. -/
def brought (o : O) (events : List (Event O Q L)) : List UInt8 :=
  events.flatMap (fun event =>
    match event with
    | .within event => event.brings o
    | .next => [])

/-- The bytes read from an operation's socket in the rounds that are over. -/
def read (s : ReadRounds S O Q L) (o : O) : List UInt8 := s.ended.flatMap (fun round => round.taken o)

end ReadRounds

namespace Latches

variable {P L : Type} [DecidableEq P] [DecidableEq L]

/-- A renewed latch is on record as committed by nobody. -/
theorem renew_committedBy (s : Latches P L) (party : P) (latch : L) :
    (s.renew latch).committedBy party latch = 0 := by
  have absent : (party, latch) ∉ s.commits.filter (·.2 ≠ latch) := by simp
  exact List.count_eq_zero_of_not_mem absent

end Latches

namespace Reads

variable {S O Q L : Type} [DecidableEq O] [DecidableEq Q] [DecidableEq L]

/-- An operation that has found the latch committed: it leaves `begin_transaction` without
a transaction, or it has completed without a commit. -/
def Barred (latch : L) (s : Reads S O Q L) (o : O) : Prop :=
  s.latches.point (.inl o) = .refusing latch ∨ s.latches.point (.inl o) = .transaction1 none ∨
    ((s.ops o).stage = .completed ∧ s.committed latch o = 0)

/-- A step that leaves an operation and its accesses alone does not bar it. -/
theorem Barred.unmoved {latch : L} {s next : Reads S O Q L} {o : O} (barred : next.Barred latch o)
    (stage : (next.ops o).stage = (s.ops o).stage)
    (point : next.latches.point (.inl o) = s.latches.point (.inl o))
    (committed : next.committed latch o = s.committed latch o) : s.Barred latch o := by
  unfold Barred at barred
  rwa [stage, point, committed] at barred

/-- Within `begin_transaction` an operation is barred by what its check finds. -/
theorem Barred.begins {latch : L} {s next : Reads S O Q L} {o : O} (stands : s.Stands latch o)
    {action : Action L} (beginning : action = .lock ∨ action = .check ∨ action = .unlock)
    (accessed : s.access (.inl o) [action] = some next) (barred : next.Barred latch o) :
    s.Barred latch o ∨ s.latches.transferred latch = true := by
  obtain ⟨ran, ops⟩ := access_frame accessed
  obtain ⟨last, stepped, done⟩ := Latches.machine.run_cons.mp ran
  obtain rfl := Option.some.inj done
  obtain ⟨outcome, advanced, point, -⟩ := Latches.step_frame stepped
  have notIdle := advance_notIdle beginning advanced
  cases stands with
  | outside stage idle => exact absurd idle notIdle
  | denied stage idle => exact absurd idle notIdle
  | won ec stage idle => exact absurd idle notIdle
  | within ec stage error inside =>
    unfold Barred at barred
    rw [point, ops, stage] at barred
    generalize here : s.latches.point (.inl o) = before at inside advanced
    rcases beginning with rfl | rfl | rfl <;> cases inside <;>
      simp only [Point.advance, reduceCtorEq, Option.some.injEq] at advanced
    · subst advanced
      simp at barred
    · by_cases allowed : s.latches.mayCommit latch = true
      · rw [if_pos allowed] at advanced
        obtain rfl := Option.some.inj advanced
        simp at barred
      · exact .inr (by simpa [Latches.mayCommit] using allowed)
    · exact .inl (.inl here)

/-- The end of a resumption bars no operation that had a transaction: it commits, or waits
again. -/
theorem Barred.finishes [Socket S] {latch : L} {s next : Reads S O Q L} {o : O} {ec : ErrorCode}
    {more : Nat} (stands : s.Stands latch o) (stage : (s.ops o).stage = .resumed ec)
    (resumed : s.resume latch o ec more = some next) (barred : next.Barred latch o) :
    s.Barred latch o := by
  cases stands with
  | outside other => rcases other with other | other <;> simp [stage] at other
  | denied other => simp [stage] at other
  | won _ other => simp [stage] at other
  | within found same error inside fresh nothing none =>
    generalize point : s.latches.point (.inl o) = here at inside
    cases inside with
    | locking => simp [resume, point] at resumed
    | checking => simp [resume, point] at resumed
    | refusing => exact .inl point
    | refused => exact .inr (.inl point)
    | begun =>
      -- neither a commit nor a rollback leads back into `begin_transaction`
      have committing {taking : Reads S O Q L} {code : ErrorCode} {count : Nat}
          (latches : taking.latches = s.latches)
          (ended : taking.returnComplete latch o .commit code count = some next) : False := by
        obtain ⟨ran, -⟩ := returnComplete_completes ended
        rw [latches] at ran
        obtain ⟨idle, counted⟩ := Latches.commit_counted point ran
        have once : next.committed latch o = 1 := by
          change next.latches.committedBy _ _ = 1
          rw [counted]
          change s.committed latch o + 1 = 1
          rw [none]
        rcases barred with refusing | refused | ⟨-, zero⟩
        · exact absurd (idle.symm.trans refusing) (by simp)
        · exact absurd (idle.symm.trans refused) (by simp)
        · exact absurd (once.symm.trans zero) (by simp)
      have waiting {taking : Reads S O Q L} (latches : taking.latches = s.latches)
          (ended : (taking.access (.inl o) [.rollback, .destroy]).map (·.asyncWait o) =
            some next) : False := by
        obtain ⟨left, accessed, rfl⟩ := Option.map_eq_some_iff.mp ended
        obtain ⟨ran, -⟩ := access_frame accessed
        rw [latches] at ran
        obtain ⟨idle, -⟩ := Latches.rollback_counted point ran latch
        rcases barred with refusing | refused | ⟨completed, -⟩
        · exact absurd (idle.symm.trans refusing) (by simp)
        · exact absurd (idle.symm.trans refused) (by simp)
        · simp [asyncWait] at completed
      simp only [resume, point] at resumed
      split at resumed
      · exact (committing rfl resumed).elim
      · obtain ⟨⟨sock, result, bytes⟩, -, rest⟩ := Option.bind_eq_some_iff.mp resumed
        simp only at rest
        split at rest
        · have same : (s.received o sock bytes).latches = s.latches := rfl
          exact (waiting same rest).elim
        · have same : (s.received o sock bytes).latches = s.latches := rfl
          exact (committing same rest).elim

/-- An operation becomes barred only where the latch is committed. -/
theorem barred_step [Socket S] [LawfulSocket S] {latch : L} {s next : Reads S O Q L}
    {event : Event O Q L} (accounted : s.Accounted latch)
    (stepped : (machine latch).step s event = some next) {o : O} (barred : next.Barred latch o) : s.Barred latch o ∨ s.latches.transferred latch = true := by
  have stands := accounted.stands o
  have apart {other : O} (distinct : o ≠ other) : (.inl o : O ⊕ Q) ≠ .inl other :=
    fun same => distinct (Sum.inl.inj same)
  have begun {actor : O} {action : Action L}
      (beginning : action = .lock ∨ action = .check ∨ action = .unlock)
      (accessed : s.access (.inl actor) [action] = some next) :
      s.Barred latch o ∨ s.latches.transferred latch = true := by
    by_cases mine : o = actor
    · subst mine
      exact barred.begins stands beginning accessed
    · obtain ⟨point, counts⟩ := access_unmoved accessed (apart mine)
      exact .inl (barred.unmoved (by rw [(access_frame accessed).2]) point counts)
  have socket (actor : O) (sock : S)
      (same : s.setOp actor { s.ops actor with sock := sock } = next) : s.Barred latch o := by
    subst same
    refine barred.unmoved ?_ rfl rfl
    by_cases mine : o = actor
    · subst mine
      simp
    · rw [s.setOp_of_ne _ mine]
  cases event with
  | other q action =>
    obtain ⟨point, counts⟩ := access_unmoved stepped (o := o) (by simp)
    exact .inl (barred.unmoved (by rw [(access_frame stepped).2]) point counts)
  | start actor =>
    simp only [machine, step, Option.ite_none_right_eq_some, Option.some.injEq] at stepped
    obtain ⟨initial, rfl⟩ := stepped
    by_cases mine : o = actor
    · subst mine
      rcases barred with refusing | refused | ⟨completed, -⟩
      · exact .inl (.inl refusing)
      · exact .inl (.inr (.inl refused))
      · simp [asyncWait] at completed
    · exact .inl (barred.unmoved (by rw [asyncWait, s.setOp_of_ne _ mine]) rfl rfl)
  | wake actor error =>
    simp only [machine, step, Option.ite_none_right_eq_some] at stepped
    obtain ⟨waiting, accessed⟩ := stepped
    obtain ⟨ran, ops⟩ := access_frame accessed
    by_cases mine : o = actor
    · subst mine
      obtain ⟨last, taken, done⟩ := Latches.machine.run_cons.mp ran
      obtain rfl := Option.some.inj done
      cases stands with
      | within ec stage => simp [waiting] at stage
      | denied stage => simp [waiting] at stage
      | won ec stage => simp [waiting] at stage
      | outside stage idle =>
        have begins : (s.latches.point (.inl o)).advance s.latches.mayCommit (.begin latch) =
            some ⟨.none, .locking latch, true⟩ := by rw [idle]; rfl
        obtain ⟨point, -⟩ := Latches.count_step taken begins latch
        rcases barred with refusing | refused | ⟨completed, -⟩
        · exact absurd (point.symm.trans refusing) (by simp)
        · exact absurd (point.symm.trans refused) (by simp)
        · simp [ops] at completed
    · obtain ⟨point, counts⟩ := access_unmoved accessed (apart mine)
      exact .inl (barred.unmoved (by rw [ops, setOp_of_ne s _ mine]) point counts)
  | lock actor => exact begun (.inl rfl) stepped
  | check actor => exact begun (.inr (.inl rfl)) stepped
  | unlock actor => exact begun (.inr (.inr rfl)) stepped
  | finish actor more =>
    simp only [machine, step] at stepped
    split at stepped
    · next ec stage =>
      by_cases mine : o = actor
      · subst mine
        exact .inl (barred.finishes stands stage stepped)
      · obtain ⟨⟨actions, ran⟩, ops⟩ := resume_frame stepped
        obtain ⟨point, counts⟩ := Latches.run_frame ran (apart mine)
        exact .inl (barred.unmoved (by rw [ops o mine]) point (counts latch))
    · exact absurd stepped (by simp)
  | arrive actor bytes => exact .inl (socket actor _ (Option.some.inj stepped))
  | fail actor error => exact .inl (socket actor _ (Option.some.inj stepped))
  | configure actor nonBlocking => exact .inl (socket actor _ (Option.some.inj stepped))

/-- Every operation has its account, and those that are barred are so for a reason. -/
structure Fair (latch : L) (s : Reads S O Q L) : Prop where
  accounted : s.Accounted latch
  barred : ∀ o, s.Barred latch o → s.latches.transferred latch = true

theorem create_fair (latch : L) (sock : O → S) (size : O → Nat) :
    (create sock size : Reads S O Q L).Fair latch :=
  ⟨create_accounted latch sock size, by simp [Barred, create, Latches.create]⟩

theorem Fair.step [Socket S] [LawfulSocket S] {latch : L} {s next : Reads S O Q L}
    {event : Event O Q L} (fair : s.Fair latch)
    (stepped : (machine latch).step s event = some next) : next.Fair latch := by
  refine ⟨step_accounted s event next fair.accounted stepped, fun o barred => ?_⟩
  obtain ⟨accesses, ran⟩ := step_latches stepped
  rcases barred_step fair.accounted stepped barred with already | set
  · exact Latches.run_transferred ran (fair.barred o already)
  · exact Latches.run_transferred ran set

/-- A round that is over leaves the next one as the first one was. -/
theorem Fair.renew {latch : L} {s : Reads S O Q L} (fair : s.Fair latch) (quiet : s.Over) :
    (s.renew latch).Fair latch := by
  have idle (o : O) : s.latches.point (.inl o) = .idle := by
    cases fair.accounted.stands o with
    | outside stage => simp [quiet.1 o] at stage
    | within ec stage => simp [quiet.1 o] at stage
    | denied stage idle => exact idle
    | won ec stage idle => exact idle
  have none (o : O) : (s.renew latch).committed latch o = 0 :=
    s.latches.renew_committedBy (.inl o) latch
  refine ⟨⟨fair.accounted.orderly.renew latch,
    fun o => .outside (.inl rfl) (idle o) rfl rfl (none o)⟩, fun o barred => ?_⟩
  have point : (s.renew latch).latches.point (.inl o) = .idle := idle o
  have stage : ((s.renew latch).ops o).stage = .initial := rfl
  simp [Barred, point, stage] at barred

end Reads

namespace Round

variable {O Q : Type}

/-- How a read stands at the end of a round: it won and delivered what it took, or the error
of its wait, or it was denied and has taken nothing. -/
inductive Ends (round : Round O Q) (winner : O ⊕ Q) (o : O) : Prop where
  | won (mine : winner = .inl o) (ec : ErrorCode) (error : ec ≠ .completionDenied)
      (completed : round.completions o = [(ec, (round.taken o).length)])
  | denied (other : winner ≠ .inl o) (completed : round.completions o = [(.completionDenied, 0)])
      (nothing : round.taken o = [])

end Round

variable {S O Q L : Type} [DecidableEq O] [DecidableEq Q] [DecidableEq L]

/-- A round that is over has one winner, and its reads end accordingly. -/
theorem Reads.Fair.decided {latch : L} {s : Reads S O Q L} [Nonempty O] (fair : s.Fair latch)
    (quiet : s.Over) :
    ∃ winner, (s.round latch).committers = [winner] ∧ ∀ o, (s.round latch).Ends winner o := by
  obtain ⟨orderly, stands⟩ := fair.accounted
  have member (o : O) : (.inl o, latch) ∈ s.latches.commits ↔ 0 < s.committed latch o :=
    s.latches.mem_commits_iff (.inl o) latch
  have counted := orderly.commits latch
  have set : s.latches.transferred latch = true := by
    obtain ⟨o⟩ := ‹Nonempty O›
    by_cases none : s.committed latch o = 0
    · exact fair.barred o (.inr (.inr ⟨quiet.1 o, none⟩))
    · have recorded := (member o).mpr (Nat.pos_of_ne_zero none)
      by_contra clear
      rw [if_neg clear] at counted
      exact absurd (List.countP_eq_zero.mp counted _ recorded) (by simp)
  rw [set, if_pos rfl, List.countP_eq_length_filter] at counted
  obtain ⟨⟨winner, only⟩, single⟩ := List.length_eq_one_iff.mp counted
  refine ⟨winner, by simp [Reads.round, single], fun o => ?_⟩
  have won : winner = .inl o ↔ 0 < s.committed latch o := by
    have inside : (winner, only) ∈ s.latches.commits.filter (·.2 == latch) := by simp [single]
    obtain ⟨recorded, same⟩ := List.mem_filter.mp inside
    obtain rfl : only = latch := by simpa using same
    rw [← member]
    constructor
    · rintro rfl
      exact recorded
    · intro mine
      have inside' : (.inl o, only) ∈ s.latches.commits.filter (·.2 == only) := by simp [mine]
      rw [single, List.mem_singleton] at inside'
      exact (congrArg Prod.fst inside').symm
  cases stands o with
  | outside stage => simp [quiet.1 o] at stage
  | within ec stage => simp [quiet.1 o] at stage
  | denied _ _ completed nothing none => exact .denied (by simp [won, none]) completed nothing
  | won ec _ _ completed error once => exact .won (won.mpr (by simp [once])) ec error completed

namespace ReadRounds

/-- The round in progress is fair, the rounds that are over had one winner each, and every
byte that a socket received is read or in the socket. -/
structure Sound [Socket S] (latch : L) (sock : O → S) (past : List (Event O Q L))
    (s : ReadRounds S O Q L) : Prop where
  fair : s.current.Fair latch
  decided : ∀ round ∈ s.ended, ∃ winner, round.committers = [winner] ∧ ∀ o, round.Ends winner o
  stream : ∀ o, s.read o ++ (s.current.ops o).stream = Socket.incoming (sock o) ++ brought o past

variable [Fintype O] [Fintype Q] [Nonempty O] [Socket S] [LawfulSocket S]

theorem Sound.step {latch : L} {sock : O → S} {past : List (Event O Q L)}
    {s next : ReadRounds S O Q L} {event : Event O Q L} (sound : s.Sound latch sock past)
    (stepped : (machine latch).step s event = some next) :
    next.Sound latch sock (past ++ [event]) := by
  cases event with
  | within event =>
    obtain ⟨current, taken, rfl⟩ := Option.map_eq_some_iff.mp stepped
    refine ⟨sound.fair.step taken, sound.decided, fun o => ?_⟩
    have before := sound.stream o
    have moved := Reads.step_conserves taken o
    simp only [read, brought, List.flatMap_append, List.flatMap_singleton] at before ⊢
    rw [moved, ← List.append_assoc, before, List.append_assoc]
  | next =>
    obtain ⟨quiet, same⟩ := Option.ite_none_right_eq_some.mp stepped
    obtain rfl := Option.some.inj same
    refine ⟨sound.fair.renew quiet, fun round member => ?_, fun o => ?_⟩
    · rcases List.mem_append.mp member with earlier | now
      · exact sound.decided round earlier
      · obtain rfl := List.mem_singleton.mp now
        exact sound.fair.decided quiet
    · have before := sound.stream o
      simp only [ReadOp.stream, read, brought, List.flatMap_append, List.flatMap_singleton,
        List.append_nil] at before ⊢
      rw [← before]
      simp [Reads.renew, Reads.round]

/-- Over any number of rounds: each one that is over had exactly one winner, its reads ended
accordingly, and all the rounds together have read what a socket received, in order and
without a gap, up to what is still to be read. -/
theorem rounds_read_everything (latch : L) (sock : O → S) (size : O → Nat)
    (events : List (Event O Q L)) (s : ReadRounds S O Q L)
    (ran : (machine latch).run (create sock size) events = some s) :
    (∀ round ∈ s.ended, ∃ winner, round.committers = [winner] ∧ ∀ o, round.Ends winner o) ∧
    ∀ o, s.read o ++ (s.current.ops o).taken ++ Socket.incoming (s.current.ops o).sock =
      Socket.incoming (sock o) ++ brought o events := by
  have initial : (create sock size : ReadRounds S O Q L).Sound latch sock [] :=
    ⟨Reads.create_fair latch sock size, by simp [create],
      by simp [create, Reads.create, read, brought, ReadOp.stream]⟩
  have keeps : ∀ (past : List (Event O Q L)) (state : ReadRounds S O Q L) (event : Event O Q L)
      (after : ReadRounds S O Q L), state.Sound latch sock past →
      (machine latch).step state event = some after →
      after.Sound latch sock (past ++ [event]) :=
    fun _ _ _ _ sound stepped => sound.step stepped
  have sound : s.Sound latch sock events := (machine latch).run_history keeps initial ran
  refine ⟨sound.decided, fun o => ?_⟩
  rw [List.append_assoc]
  exact sound.stream o

/-- Two rounds of one read and a party that trips the latch: it does so in the first round,
before the read is woken by the byte that has arrived; in the second one the read wins. -/
def tripped : List (Event (Fin 1) (Fin 1) Nat) :=
  [.within (.start 0), .within (.other 0 (.begin 0)), .within (.arrive 0 [7]),
    .within (.other 0 .lock), .within (.other 0 .check), .within (.other 0 .commit),
    .within (.other 0 .destroy), .within (.wake 0 none), .within (.lock 0), .within (.check 0),
    .within (.unlock 0), .within (.finish 0 0), .next, .within (.start 0),
    .within (.wake 0 none), .within (.lock 0), .within (.check 0), .within (.finish 0 3), .next,
    .within (.arrive 0 [8])]

theorem rounds_read_everything_tripped :
    ∃ s, (machine 0).run (create (fun _ => Reads.silent) (fun _ => 4)) tripped = some s ∧
      s.ended.map (fun round => round.committers) = [[.inr 0], [.inl 0]] ∧ s.read 0 = [7] ∧
      s.read 0 ++ (s.current.ops 0).taken ++ (s.current.ops 0).sock.incoming = [7, 8] := by
  refine ⟨_, rfl, rfl, rfl, ?_⟩
  exact (rounds_read_everything 0 (fun _ => Reads.silent) (fun _ => 4) tripped _ rfl).2 0

end ReadRounds

end Asioex
