import Asioex.TransactionRuns

/-!
# No transaction waits for ever

A party waits inside `begin_transaction` only, for mutexes that others hold. A holder can
always give up what it holds by steps of its own: it goes on to the end of its transaction,
or, if it has locked one of two mutexes and waits for the other, it backs off. So parties
never wait for each other in a circle.

From every state that a run reaches, each party can be brought to the end of its
transaction, and nobody has to move but the party itself and the holders of the mutexes that
it waits for. What the parties then do, and whether they are scheduled, is left open.
-/

namespace Asioex

namespace Point

variable {L : Type}

/-- The latches whose mutexes a party has yet to lock. -/
def awaited : Point L → List L
  | .locking latch => [latch]
  | .lockingPair first second => [first, second]
  | .lockedFirst _ second => [second]
  | .lockedSecond first _ => [first]
  | _ => []

/-- How many steps a party takes at most to hold nothing, without locking anything: to the
end of its transaction, or back to where it has locked nothing yet. -/
def remaining : Point L → Nat
  | .idle | .locking _ | .lockingPair _ _ => 0
  | .lockedFirst _ _ | .lockedSecond _ _ | .transaction1 _ | .transaction2 none _ => 1
  | .refusing _ | .refusingSecond _ | .committing _ | .rollingBack _ _ => 2
  | .checking _ | .refusingFirst _ _ | .transaction2 (some _) _ => 3
  | .checkingSecond _ _ => 4
  | .checkingFirst _ _ => 5

/-- A party that has nothing to give up holds nothing. -/
theorem held_of_remaining {point : Point L} (done : point.remaining = 0) : point.held = [] := by
  cases point with
  | idle | locking latch | lockingPair first second => rfl
  | transaction2 latch1_ latch2_ => cases latch1_ <;> cases done
  | _ => cases done

/-- It is outside, if it waits for nothing either. -/
theorem idle_of_remaining {point : Point L} (done : point.remaining = 0)
    (unwaiting : point.awaited = []) : point = .idle := by
  cases point with
  | idle => rfl
  | locking latch | lockingPair first second => cases unwaiting
  | transaction2 latch1_ latch2_ => cases latch1_ <;> cases done
  | _ => cases done

/-- Nothing awaited is held: the two latches of a pair differ. -/
theorem not_held_of_awaited {point : Point L} (formed : point.Formed) {latch : L}
    (awaited : latch ∈ point.awaited) : latch ∉ point.held := by
  cases point <;> simp_all [Point.awaited, held, Formed]
  exact fun same => formed same.symm

variable [DecidableEq L]

/-- A party that has something to give up has a step toward it that locks nothing. Once it
has its mutexes, it waits for none again on the way. -/
theorem unwinds (mayCommit : L → Bool) {point : Point L} (pending : 0 < point.remaining) :
    ∃ action outcome, point.advance mayCommit action = some outcome ∧
      outcome.effect.takes = none ∧ outcome.next.remaining < point.remaining ∧
      (point.awaited = [] → outcome.next.awaited = []) := by
  cases point with
  | idle | locking | lockingPair => cases pending
  | checking latch =>
    by_cases allowed : mayCommit latch = true
    · exact ⟨.check, _, by simp [advance, allowed]; rfl, rfl, by simp [remaining], fun _ => rfl⟩
    · exact ⟨.check, _, by simp [advance, allowed]; rfl, rfl, by simp [remaining], fun _ => rfl⟩
  | refusing latch => exact ⟨.unlock, _, rfl, rfl, by simp [remaining], fun _ => rfl⟩
  | lockedFirst first second =>
    exact ⟨.backOff, _, rfl, rfl, by simp [remaining], fun unwaiting => by cases unwaiting⟩
  | lockedSecond first second =>
    exact ⟨.backOff, _, rfl, rfl, by simp [remaining], fun unwaiting => by cases unwaiting⟩
  | checkingFirst first second =>
    by_cases allowed : mayCommit first = true
    · exact ⟨.check, _, by simp [advance, allowed]; rfl, rfl, by simp [remaining], fun _ => rfl⟩
    · exact ⟨.check, _, by simp [advance, allowed]; rfl, rfl, by simp [remaining], fun _ => rfl⟩
  | checkingSecond first second =>
    by_cases allowed : mayCommit second = true
    · exact ⟨.check, _, by simp [advance, allowed]; rfl, rfl, by simp [remaining], fun _ => rfl⟩
    · exact ⟨.check, _, by simp [advance, allowed]; rfl, rfl, by simp [remaining], fun _ => rfl⟩
  | refusingFirst first second => exact ⟨.unlock, _, rfl, rfl, by simp [remaining], fun _ => rfl⟩
  | refusingSecond second => exact ⟨.unlock, _, rfl, rfl, by simp [remaining], fun _ => rfl⟩
  | transaction1 latch_ =>
    cases latch_ <;> exact ⟨.destroy, _, rfl, rfl, by simp [remaining], fun _ => rfl⟩
  | transaction2 latch1_ latch2_ =>
    cases latch1_ <;> exact ⟨.destroy, _, rfl, rfl, by simp [remaining], fun _ => rfl⟩
  | committing latch2_ =>
    cases latch2_ <;> exact ⟨.proceed, _, rfl, rfl, by simp [remaining], fun _ => rfl⟩
  | rollingBack latch2_ destroyed =>
    cases latch2_ <;> cases destroyed <;>
      exact ⟨.proceed, _, rfl, rfl, by simp [remaining, rolledBack], fun _ => rfl⟩

/-- A party that waits has a step that locks one of the mutexes that it waits for, after
which it waits for the others only. -/
theorem acquires (mayCommit : L → Bool) {point : Point L} (formed : point.Formed)
    (waiting : 0 < point.awaited.length) :
    ∃ action latch next, point.advance mayCommit action = some ⟨.lock latch, next, true⟩ ∧
      latch ∈ point.awaited ∧ next.awaited.length < point.awaited.length ∧
      ∀ other ∈ next.awaited, other ∈ point.awaited ∧ other ≠ latch := by
  cases point with
  | locking latch =>
    exact ⟨.lock, latch, _, rfl, by simp [awaited], by simp [awaited], by simp [awaited]⟩
  | lockingPair first second =>
    refine ⟨.lockFirst, first, _, rfl, by simp [awaited], by simp [awaited], ?_⟩
    have apart : first ≠ second := formed
    simp [awaited, apart.symm]
  | lockedFirst first second =>
    exact ⟨.lockSecond, second, _, rfl, by simp [awaited], by simp [awaited], by simp [awaited]⟩
  | lockedSecond first second =>
    exact ⟨.lockFirst, first, _, rfl, by simp [awaited], by simp [awaited], by simp [awaited]⟩
  | _ => simp [awaited] at waiting

end Point

namespace Latches

variable {P L : Type} [DecidableEq P] [DecidableEq L]

/-- A step whose mutex is free can be taken. It leaves the other parties where they are,
and the mutexes but for those that it locks or unlocks. -/
theorem step_enabled {s : Latches P L} {party : P} {action : Action L} {outcome : Outcome L}
    (advanced : (s.point party).advance s.mayCommit action = some outcome)
    (free : ∀ latch, outcome.effect.takes = some latch → s.owner latch = none) :
    ∃ next, machine.step s (party, action) = some next ∧ next.point party = outcome.next ∧
      (∀ other, other ≠ party → next.point other = s.point other) ∧
      ∀ latch, outcome.effect.takes ≠ some latch →
        next.owner latch = s.owner latch ∨ next.owner latch = none := by
  obtain ⟨after, used⟩ : ∃ after, s.perform party outcome.effect = some after :=
    perform_enabled free
  have performed := perform_performed used
  have stepped : machine.step s (party, action) = some (after.arrive party outcome) := by
    simp [machine, step, advanced, used]
  refine ⟨after.arrive party outcome, stepped, by simp [arrive], fun other distinct => ?_,
    fun latch untaken => ?_⟩
  · simp [arrive, Function.update_of_ne distinct, performed.point]
  · change after.owner latch = _ ∨ after.owner latch = _
    rw [performed.owner, if_neg untaken]
    by_cases given : outcome.effect.gives = some latch
    · exact .inr (if_pos given)
    · exact .inl (if_neg given)

/-- What steps that lock nothing leave of a state: the other parties are where they were,
and a mutex has the holder that it had, or none. -/
structure Released (s : Latches P L) (party : P) (next : Latches P L) : Prop where
  orderly : next.Orderly
  others : ∀ other, other ≠ party → next.point other = s.point other
  owner : ∀ latch, next.owner latch = s.owner latch ∨ next.owner latch = none

/-- A party can come to hold nothing by steps of its own, and if it waits for nothing it
comes to the end of its transaction. -/
theorem can_unwind {s : Latches P L} (orderly : s.Orderly) (party : P) :
    ∃ events next, machine.run s events = some next ∧ (∀ event ∈ events, event.1 = party) ∧
      s.Released party next ∧ (next.point party).held = [] ∧
      ((s.point party).awaited = [] → next.point party = .idle) := by
  let invariant (state : Latches P L) : Prop := s.Released party state ∧
    ((s.point party).awaited = [] → (state.point party).awaited = [])
  have descends (state : Latches P L) (kept : invariant state)
      (pending : 0 < (state.point party).remaining) : ∃ event next, event.1 = party ∧
        machine.step state event = some next ∧ invariant next ∧
        (next.point party).remaining < (state.point party).remaining := by
    obtain ⟨released, unwaiting⟩ := kept
    obtain ⟨action, outcome, advanced, takes, less, waits⟩ :=
      Point.unwinds state.mayCommit pending
    obtain ⟨next, stepped, point, others, owner⟩ :=
      step_enabled advanced (by simp [takes])
    refine ⟨(party, action), next, rfl, stepped, ⟨⟨?_, ?_, ?_⟩, ?_⟩, point ▸ less⟩
    · exact step_orderly state (party, action) next released.orderly stepped
    · exact fun other distinct => (others other distinct).trans (released.others other distinct)
    · intro latch
      rcases owner latch (by simp [takes]) with same | free
      · rw [same]
        exact released.owner latch
      · exact .inr free
    · exact fun none => point ▸ waits (unwaiting none)
  have initial : invariant s := ⟨⟨orderly, fun _ _ => rfl, fun _ => .inl rfl⟩, id⟩
  obtain ⟨events, last, ran, own, ⟨released, unwaiting⟩, done⟩ :=
    machine.exists_run_to_zero (fun state => (state.point party).remaining) descends initial
  exact ⟨events, last, ran, own, released, Point.held_of_remaining done,
    fun none => Point.idle_of_remaining done (unwaiting none)⟩

/-- The mutex of a latch can be freed by steps of its holder. -/
theorem can_free {s : Latches P L} (orderly : s.Orderly) (latch : L) :
    ∃ events next, machine.run s events = some next ∧
      (∀ event ∈ events, s.owner latch = some event.1) ∧ next.Orderly ∧
      next.owner latch = none ∧
      (∀ other, s.owner latch ≠ some other → next.point other = s.point other) ∧
      ∀ other, next.owner other = s.owner other ∨ next.owner other = none := by
  cases holder : s.owner latch with
  | none => exact ⟨[], s, rfl, by simp, orderly, holder, fun _ _ => rfl, fun _ => .inl rfl⟩
  | some party =>
    obtain ⟨events, next, ran, own, released, held, -⟩ := can_unwind orderly party
    refine ⟨events, next, ran, fun event member => by rw [own event member], released.orderly, ?_,
      fun other distinct => released.others other (fun same => distinct (by rw [same])),
      released.owner⟩
    rcases released.owner latch with same | free
    · have holds := (released.orderly.owner party latch).mp (same.trans holder)
      rw [held] at holds
      cases holds
    · exact free

/-- All the mutexes that a party waits for can be freed by steps of their holders, while
the party itself stays where it is.

Proof: one after the other. A mutex that was freed stays free, since holders that give up
what they hold lock nothing. -/
theorem can_free_all {s : Latches P L} (orderly : s.Orderly) {party : P} (latches : List L)
    (others : ∀ latch ∈ latches, s.owner latch ≠ some party) :
    ∃ events next, machine.run s events = some next ∧
      (∀ event ∈ events, ∃ latch ∈ latches, s.owner latch = some event.1) ∧ next.Orderly ∧
      (∀ latch ∈ latches, next.owner latch = none) ∧ next.point party = s.point party ∧
      ∀ latch, next.owner latch = s.owner latch ∨ next.owner latch = none := by
  induction latches with
  | nil => exact ⟨[], s, rfl, by simp, orderly, by simp, rfl, fun _ => .inl rfl⟩
  | cons first rest inductionHypothesis =>
    obtain ⟨notFirst, notRest⟩ := List.forall_mem_cons.mp others
    obtain ⟨events, middle, ran, holders, kept, free, still, owner⟩ := inductionHypothesis notRest
    have notFirst' : middle.owner first ≠ some party := by
      rcases owner first with same | none
      · rw [same]
        exact notFirst
      · simp [none]
    obtain ⟨more, next, ran', holder, kept', freed, still', owner'⟩ := can_free kept first
    refine ⟨events ++ more, next, (machine.run_append).mpr ⟨middle, ran, ran'⟩, ?_, kept', ?_,
      (still' party notFirst').trans still, ?_⟩
    · intro event member
      rcases List.mem_append.mp member with early | late
      · obtain ⟨latch, inside, holds⟩ := holders event early
        exact ⟨latch, List.mem_cons_of_mem first inside, holds⟩
      · have holds := holder event late
        refine ⟨first, List.mem_cons_self, ?_⟩
        rcases owner first with same | none
        · exact same.symm.trans holds
        · rw [none] at holds
          cases holds
    · refine List.forall_mem_cons.mpr ⟨freed, fun latch member => ?_⟩
      rcases owner' latch with same | none
      · exact same.trans (free latch member)
      · exact none
    · intro latch
      rcases owner' latch with same | none
      · rw [same]
        exact owner latch
      · exact .inr none

/-- A party that waits for free mutexes can lock them all. -/
theorem can_acquire {s : Latches P L} (orderly : s.Orderly) (party : P)
    (free : ∀ latch ∈ (s.point party).awaited, s.owner latch = none) :
    ∃ events next, machine.run s events = some next ∧ (∀ event ∈ events, event.1 = party) ∧
      next.Orderly ∧ (next.point party).awaited = [] := by
  let invariant (state : Latches P L) : Prop :=
    state.Orderly ∧ ∀ latch ∈ (state.point party).awaited, state.owner latch = none
  have descends (state : Latches P L) (kept : invariant state)
      (waiting : 0 < (state.point party).awaited.length) : ∃ event next, event.1 = party ∧
        machine.step state event = some next ∧ invariant next ∧
        (next.point party).awaited.length < (state.point party).awaited.length := by
    obtain ⟨ordered, available⟩ := kept
    obtain ⟨action, latch, leads, advanced, awaited, less, rest⟩ :=
      Point.acquires state.mayCommit (ordered.formed party) waiting
    obtain ⟨next, stepped, point, -, owner⟩ := step_enabled advanced (by
      intro taken same
      obtain rfl : latch = taken := Option.some.inj same
      exact available latch awaited)
    refine ⟨(party, action), next, rfl, stepped, ⟨?_, fun other member => ?_⟩, point ▸ less⟩
    · exact step_orderly state (party, action) next ordered stepped
    · rw [point] at member
      obtain ⟨before, apart⟩ := rest other member
      have untaken : (Effect.lock latch).takes ≠ some other :=
        fun same => apart (Option.some.inj same).symm
      rcases owner other untaken with same | none
      · exact same.trans (available other before)
      · exact none
  obtain ⟨events, last, ran, own, ⟨ordered, -⟩, done⟩ :=
    machine.exists_run_to_zero (fun state => (state.point party).awaited.length) descends
      (⟨orderly, free⟩ : invariant s)
  exact ⟨events, last, ran, own, ordered, List.length_eq_zero_iff.mp done⟩

/-- Whatever has happened, every party can be brought to the end of its transaction, by
steps of its own and of those that hold the mutexes it waits for.

Proof: the holders give up what they hold, the party locks what it waits for, and then it
goes on to the end. -/
theorem transactions_can_end (events : List (P × Action L)) (s : Latches P L)
    (ran : machine.run create events = some s) (party : P) :
    ∃ more last, machine.run s more = some last ∧ last.point party = .idle ∧
      ∀ event ∈ more, event.1 = party ∨
        ∃ latch ∈ (s.point party).awaited, s.owner latch = some event.1 := by
  have orderly : s.Orderly := run_orderly ran
  have others (latch : L) (awaited : latch ∈ (s.point party).awaited) :
      s.owner latch ≠ some party := by
    rw [ne_eq, orderly.owner]
    exact Point.not_held_of_awaited (orderly.formed party) awaited
  obtain ⟨freeing, freed, ran₁, holders, ordered, free, still, -⟩ :=
    can_free_all orderly (s.point party).awaited others
  obtain ⟨locking, locked, ran₂, own₂, ordered', none⟩ := can_acquire ordered party (still ▸ free)
  obtain ⟨ending, last, ran₃, own₃, -, -, idle⟩ := can_unwind ordered' party
  refine ⟨freeing ++ (locking ++ ending), last, ?_, idle none, fun event member => ?_⟩
  · exact (machine.run_append).mpr ⟨freed, ran₁, (machine.run_append).mpr ⟨locked, ran₂, ran₃⟩⟩
  · rcases List.mem_append.mp member with early | late
    · exact .inr (holders event early)
    · rcases List.mem_append.mp late with middle | final
      · exact .inl (own₂ event middle)
      · exact .inl (own₃ event final)

/-- Two parties lock the two mutexes of a pair in opposite orders, and each waits for the
other one's. -/
def crossed : List (Nat × Action Nat) :=
  [(0, .beginPair 0 1), (1, .beginPair 0 1), (0, .lockFirst), (1, .lockSecond)]

theorem transactions_can_end_crossed :
    ∃ s, machine.run create crossed = some s ∧ (s.point 0).awaited = [1] ∧
      s.owner 1 = some 1 ∧ (s.point 1).awaited = [0] ∧ s.owner 0 = some 0 ∧
      ∃ more last, machine.run s more = some last ∧ last.point 0 = .idle := by
  refine ⟨_, rfl, rfl, rfl, rfl, rfl, ?_⟩
  obtain ⟨more, last, ran, idle, -⟩ := transactions_can_end crossed _ rfl 0
  exact ⟨more, last, ran, idle⟩

end Latches

end Asioex
