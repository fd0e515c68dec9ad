import Asioex.AtomicTransfer

/-!
# The transfers are atomic

A call takes effect where its commit begins, which claims its latches, or where a check
refuses it. From the commit on a call has its places to itself: a place of the caller's own
belongs to nobody else, and the latch of any other one is claimed by the call. So what
happens to the places outside the mutexes commutes with whatever others do.

One relation connects the transfers to the abstract store. The claims of the store are those
that the points of the parties show; the places agree but for the values on their way, each
of which the store has moved already; and the store has answered the calls, some of which have
not returned yet. Each step keeps the relation, with one lemma for each kind of step.
-/

namespace Asioex

/-- `begin_transaction` has found a latch committed. -/
def Point.refused {L : Type} : Point L → Bool
  | .refusing _ | .refusingFirst _ _ | .refusingSecond _ => true
  | .transaction1 none | .transaction2 none _ => true
  | _ => false

namespace LatchGroup

variable {L : Type}

/-- The points of a transaction over these latches up to its commit. -/
inductive Inside : LatchGroup L → Point L → Prop where
  | locking (latch : L) : Inside (.one latch) (.locking latch)
  | checking (latch : L) : Inside (.one latch) (.checking latch)
  | refusing (latch : L) : Inside (.one latch) (.refusing latch)
  | begun (latch : L) : Inside (.one latch) (.transaction1 (some latch))
  | refused (latch : L) : Inside (.one latch) (.transaction1 none)
  | lockingPair (first second : L) : Inside (.two first second) (.lockingPair first second)
  | lockedFirst (first second : L) : Inside (.two first second) (.lockedFirst first second)
  | lockedSecond (first second : L) : Inside (.two first second) (.lockedSecond first second)
  | checkingFirst (first second : L) : Inside (.two first second) (.checkingFirst first second)
  | checkingSecond (first second : L) : Inside (.two first second) (.checkingSecond first second)
  | refusingFirst (first second : L) : Inside (.two first second) (.refusingFirst first second)
  | refusingSecond (first second : L) : Inside (.two first second) (.refusingSecond second)
  | begunPair (first second : L) :
    Inside (.two first second) (.transaction2 (some first) (some second))
  | refusedPair (first second : L) : Inside (.two first second) (.transaction2 none none)

/-- The points of a transaction from its commit on. -/
inductive Ending : Point L → Prop where
  | one : Ending (.transaction1 none)
  | between (second : L) : Ending (.committing (some second))
  | two : Ending (.transaction2 none none)

variable {P : Type} [DecidableEq L] {s : Latches P L} {party : P} {group : LatchGroup L}
  {outcome : Outcome L}

/-- A transaction begins inside. -/
theorem inside_begins (idle : s.point party = .idle)
    (advanced : (s.point party).advance s.mayCommit group.begins = some outcome) :
    Inside group outcome.next ∧ outcome.next.refused = false ∧
      s.decided (party, group.begins) = [] := by
  rw [idle] at advanced
  cases group with
  | one latch =>
    obtain rfl := Option.some.inj advanced
    exact ⟨.locking latch, rfl, rfl⟩
  | two first second =>
    obtain ⟨-, same⟩ := Option.ite_none_left_eq_some.mp advanced
    obtain rfl := Option.some.inj same
    exact ⟨.lockingPair first second, rfl, rfl⟩

/-- An access of `begin_transaction` decides nothing, or it finds a latch committed and
refuses the group. -/
theorem Inside.advance {action : Action L} (beginning : Transfers.beginning action = true)
    (inside : Inside group (s.point party))
    (advanced : (s.point party).advance s.mayCommit action = some outcome) :
    Inside group outcome.next ∧
      ((s.decided (party, action) = [] ∧ outcome.next.refused = (s.point party).refused) ∨
        (s.decided (party, action) = [.refuse party group.latches] ∧
          (s.point party).refused = false ∧ outcome.next.refused = true)) := by
  generalize point : s.point party = here at inside advanced
  cases inside with
  | locking latch =>
    cases action with
    | lock =>
      obtain rfl := Option.some.inj advanced
      exact ⟨.checking latch, .inl ⟨rfl, rfl⟩⟩
    | _ => simp [Point.advance] at advanced
  | checking latch =>
    cases action with
    | check =>
      by_cases allowed : s.mayCommit latch = true
      · simp only [Point.advance, allowed, ↓reduceIte, Option.some.injEq] at advanced
        subst advanced
        exact ⟨.begun latch, .inl ⟨by simp [Latches.decided, point, allowed], rfl⟩⟩
      · simp only [Point.advance, allowed, Bool.false_eq_true, ↓reduceIte,
          Option.some.injEq] at advanced
        subst advanced
        refine ⟨.refusing latch, .inr ⟨?_, rfl, rfl⟩⟩
        simp [Latches.decided, point, allowed, latches]
    | _ => simp [Point.advance] at advanced
  | refusing latch =>
    cases action with
    | unlock =>
      obtain rfl := Option.some.inj advanced
      exact ⟨.refused latch, .inl ⟨rfl, rfl⟩⟩
    | _ => simp [Point.advance] at advanced
  | lockingPair first second =>
    cases action with
    | lockFirst =>
      obtain rfl := Option.some.inj advanced
      exact ⟨.lockedFirst first second, .inl ⟨rfl, rfl⟩⟩
    | lockSecond =>
      obtain rfl := Option.some.inj advanced
      exact ⟨.lockedSecond first second, .inl ⟨rfl, rfl⟩⟩
    | _ => simp [Point.advance] at advanced
  | lockedFirst first second =>
    cases action with
    | lockSecond =>
      obtain rfl := Option.some.inj advanced
      exact ⟨.checkingFirst first second, .inl ⟨rfl, rfl⟩⟩
    | backOff =>
      obtain rfl := Option.some.inj advanced
      exact ⟨.lockingPair first second, .inl ⟨rfl, rfl⟩⟩
    | _ => simp [Point.advance] at advanced
  | lockedSecond first second =>
    cases action with
    | lockFirst =>
      obtain rfl := Option.some.inj advanced
      exact ⟨.checkingFirst first second, .inl ⟨rfl, rfl⟩⟩
    | backOff =>
      obtain rfl := Option.some.inj advanced
      exact ⟨.lockingPair first second, .inl ⟨rfl, rfl⟩⟩
    | _ => simp [Point.advance] at advanced
  | checkingFirst first second =>
    cases action with
    | check =>
      by_cases allowed : s.mayCommit first = true
      · simp only [Point.advance, allowed, ↓reduceIte, Option.some.injEq] at advanced
        subst advanced
        exact ⟨.checkingSecond first second, .inl ⟨by simp [Latches.decided, point, allowed], rfl⟩⟩
      · simp only [Point.advance, allowed, Bool.false_eq_true, ↓reduceIte,
          Option.some.injEq] at advanced
        subst advanced
        refine ⟨.refusingFirst first second, .inr ⟨?_, rfl, rfl⟩⟩
        simp [Latches.decided, point, allowed, latches]
    | _ => simp [Point.advance] at advanced
  | checkingSecond first second =>
    cases action with
    | check =>
      by_cases allowed : s.mayCommit second = true
      · simp only [Point.advance, allowed, ↓reduceIte, Option.some.injEq] at advanced
        subst advanced
        exact ⟨.begunPair first second, .inl ⟨by simp [Latches.decided, point, allowed], rfl⟩⟩
      · simp only [Point.advance, allowed, Bool.false_eq_true, ↓reduceIte,
          Option.some.injEq] at advanced
        subst advanced
        refine ⟨.refusingFirst first second, .inr ⟨?_, rfl, rfl⟩⟩
        simp [Latches.decided, point, allowed, latches]
    | _ => simp [Point.advance] at advanced
  | refusingFirst first second =>
    cases action with
    | unlock =>
      obtain rfl := Option.some.inj advanced
      exact ⟨.refusingSecond first second, .inl ⟨rfl, rfl⟩⟩
    | _ => simp [Point.advance] at advanced
  | refusingSecond first second =>
    cases action with
    | unlock =>
      obtain rfl := Option.some.inj advanced
      exact ⟨.refusedPair first second, .inl ⟨rfl, rfl⟩⟩
    | _ => simp [Point.advance] at advanced
  | begun | refused | begunPair | refusedPair =>
    cases action <;> simp [Transfers.beginning, Point.advance] at beginning advanced

/-- A commit claims the group, and then the transaction is ending. -/
theorem Inside.commits (inside : Inside group (s.point party))
    (advanced : (s.point party).advance s.mayCommit .commit = some outcome) :
    s.decided (party, .commit) = [.claim party group.latches] ∧
      (s.point party).refused = false ∧ Ending outcome.next := by
  generalize point : s.point party = here at inside advanced
  cases inside with
  | begun latch =>
    obtain rfl := Option.some.inj advanced
    exact ⟨by simp [Latches.decided, point, latches], rfl, .one⟩
  | begunPair first second =>
    obtain rfl := Option.some.inj advanced
    exact ⟨by simp [Latches.decided, point, latches], rfl, .between second⟩
  | _ => simp [Point.advance] at advanced

/-- A transaction outside its accesses, refused or committed, is destroyed silently. -/
theorem outside_destroyed {point : Point L} {mayCommit : L → Bool}
    (ended : point = .transaction1 none ∨ point = .transaction2 none none)
    (advanced : point.advance mayCommit .destroy = some outcome) : outcome.next = .idle := by
  rcases ended with rfl | rfl <;> exact Option.some.inj advanced ▸ rfl

end LatchGroup

namespace Latches

variable {P L : Type} [DecidableEq P] [DecidableEq L]

/-- A step of one party, with what it decides done to the claims. -/
theorem Linearized.steps {s next : Latches P L} {claimer : L → Option P}
    (linear : s.Linearized claimer) {party : P} {action : Action L}
    (stepped : machine.step s (party, action) = some next) :
    ∃ outcome after, (s.point party).advance s.mayCommit action = some outcome ∧
      next.point party = outcome.next ∧
      (∀ other, other ≠ party → next.point other = s.point other) ∧
      Claims.machine.run claimer (s.decided (party, action)) = some after ∧
      next.Linearized after ∧ ∀ latch who, claimer latch = some who → after latch = some who := by
  obtain ⟨outcome, advanced, point, others, -⟩ := step_frame stepped
  obtain ⟨after, matched, later⟩ := decided_tracks s (party, action) next claimer linear stepped
  exact ⟨outcome, after, advanced, point, others, matched, later,
    fun _ _ claimed => Claims.run_kept matched claimed⟩

end Latches

namespace TransferStage

variable {T Q L K V : Type} {guard : K → PlaceGuard T L}

/-- How a party stands: the point of its transaction fits its call, and from the commit on the
latches of the call are its own. -/
inductive Stands (t : T) (claimer : L → Option (T ⊕ Q)) (point : Point L) :
    TransferStage guard V → Prop where
  | ready (idle : point = .idle) : Stands t claimer point .ready
  | calling (call : TransferCall guard) (caller : call.caller = t)
      (inside : call.group.Inside point) : Stands t claimer point (.calling call)
  | committed (call : TransferCall guard) (caller : call.caller = t)
      (ending : LatchGroup.Ending point)
      (claims : ∀ latch ∈ call.group.latches, claimer latch = some (.inl t)) :
      Stands t claimer point (.committed call)
  | carrying (call : TransferCall guard) (value : Option V) (caller : call.caller = t)
      (ended : point = .transaction1 none ∨ point = .transaction2 none none)
      (claims : ∀ latch ∈ call.group.latches, claimer latch = some (.inl t)) :
      Stands t claimer point (.carrying call value)

/-- What the call of a party has been answered and has not returned yet. -/
def pending (point : Point L) : TransferStage guard V → List Bool
  | .ready => []
  | .calling _ => if point.refused then [false] else []
  | .committed _ | .carrying _ _ => [true]

/-- A value that was moved in the abstract store is in the source still, or in hand. -/
def Moving (concrete abstract : K → Option V) : TransferStage guard V → Prop
  | .committed call => abstract call.target = concrete call.source ∧
    (call.source ≠ call.target → abstract call.source = none)
  | .carrying call value => abstract call.target = value
  | _ => True

variable {t t' : T} {claimer after : L → Option (T ⊕ Q)} {point point' : Point L}
  {stage stage' : TransferStage guard V} {place : K}

/-- A value on its way depends on the places that its party is going to use. -/
theorem Moving.congr {concrete concrete' abstract abstract' : K → Option V}
    (moving : stage.Moving concrete abstract)
    (same : ∀ place, stage.Uses place →
      concrete' place = concrete place ∧ abstract' place = abstract place) :
    stage.Moving concrete' abstract' := by
  cases stage with
  | ready | calling call => trivial
  | committed call =>
    obtain ⟨source, source'⟩ := same call.source (.inl rfl)
    obtain ⟨-, target'⟩ := same call.target (.inr rfl)
    simpa [Moving, source, source', target'] using moving
  | carrying call value => exact (same call.target rfl).2.trans moving

theorem Stands.later (stands : Stands t claimer point stage)
    (kept : ∀ latch who, claimer latch = some who → after latch = some who) :
    Stands t after point stage := by
  cases stands with
  | ready idle => exact .ready idle
  | calling call caller inside => exact .calling call caller inside
  | committed call caller ending claims =>
    exact .committed call caller ending fun latch member => kept latch _ (claims latch member)
  | carrying call value caller ended claims =>
    exact .carrying call value caller ended fun latch member => kept latch _ (claims latch member)

/-- A party uses places that belong to it, or whose latches it has claimed. -/
theorem Stands.allows (stands : Stands t claimer point stage) (uses : stage.Uses place) :
    guard place = .own t ∨ ∃ latch, guard place = .latched latch ∧
      claimer latch = some (.inl t) := by
  have allowed {call : TransferCall guard} (caller : call.caller = t)
      (claims : ∀ latch ∈ call.group.latches, claimer latch = some (.inl t))
      (allows : (guard place).Allows call.caller call.group.latches) :
      guard place = .own t ∨ ∃ latch, guard place = .latched latch ∧
        claimer latch = some (.inl t) := by
    cases here : guard place with
    | latched latch =>
      rw [here] at allows
      exact .inr ⟨latch, rfl, claims latch allows⟩
    | own party =>
      rw [here] at allows
      obtain rfl : party = call.caller := allows
      exact .inl (by rw [caller])
  cases stands with
  | ready idle => exact uses.elim
  | calling call caller inside => exact uses.elim
  | committed call caller ending claims =>
    rcases uses with rfl | rfl
    · exact allowed caller claims call.allowedSource
    · exact allowed caller claims call.allowedTarget
  | carrying call value caller ended claims =>
    obtain rfl : place = call.target := uses
    exact allowed caller claims call.allowedTarget

/-- No two parties use one place. -/
theorem Stands.alone (stands : Stands t claimer point stage)
    (stands' : Stands t' claimer point' stage') (uses : stage.Uses place)
    (uses' : stage'.Uses place) : t = t' := by
  rcases stands.allows uses with own | ⟨latch, guarded, claimed⟩
  · rcases stands'.allows uses' with own' | ⟨latch', guarded', -⟩
    · exact PlaceGuard.own.inj (own.symm.trans own')
    · cases own.symm.trans guarded'
  · rcases stands'.allows uses' with own' | ⟨latch', guarded', claimed'⟩
    · cases guarded.symm.trans own'
    · obtain rfl := PlaceGuard.latched.inj (guarded.symm.trans guarded')
      exact Sum.inl.inj (Option.some.inj (claimed.symm.trans claimed'))

/-- Nobody else uses a party's own places. -/
theorem Stands.owns (stands : Stands t claimer point stage) (uses : stage.Uses place)
    (own : guard place = .own t') : t = t' := by
  rcases stands.allows uses with own' | ⟨latch, guarded, -⟩
  · exact PlaceGuard.own.inj (own'.symm.trans own)
  · cases guarded.symm.trans own

end TransferStage

namespace Transfers

variable {T Q L K V : Type} {guard : K → PlaceGuard T L}
variable [DecidableEq T] [DecidableEq Q] [DecidableEq L]

/-- The answers of one party's calls are given or about to be. -/
structure Serves (s : Transfers T Q L K V guard) (image : AtomicStore T Q L K V) (t : T) :
    Prop where
  stands : (s.stage t).Stands t image.claimer (s.latches.point (.inl t))
  outcomes : image.outcomes t = s.answers t ++ (s.stage t).pending (s.latches.point (.inl t))

/-- The transfers refine the abstract store: its claims are those of the latches, it answers
the calls, and its places differ only where a value is on its way. -/
structure Refines (s : Transfers T Q L K V guard) (image : AtomicStore T Q L K V) : Prop where
  linear : s.latches.Linearized image.claimer
  serves : ∀ t, s.Serves image t
  moving : ∀ t, (s.stage t).Moving s.places image.places
  still : ∀ place, (∀ t, ¬(s.stage t).Uses place) → image.places place = s.places place

theorem create_refines (places : K → Option V) :
    (create places : Transfers T Q L K V guard).Refines (.create places) where
  linear := Latches.create_linearized
  serves _ := ⟨.ready rfl, rfl⟩
  moving _ := trivial
  still _ _ := rfl

/-- A step of one party leaves the calls of the others as they are. -/
structure Others (t : T) (s next : Transfers T Q L K V guard)
    (image after : AtomicStore T Q L K V) : Prop where
  points : ∀ other, other ≠ .inl t → next.latches.point other = s.latches.point other
  stage : ∀ other, other ≠ t → next.stage other = s.stage other
  answers : ∀ other, other ≠ t → next.answers other = s.answers other
  outcomes : ∀ other, other ≠ t → after.outcomes other = image.outcomes other
  kept : ∀ latch who, image.claimer latch = some who → after.claimer latch = some who

/-- What a step of one party must keep for itself and for the places. -/
theorem Refines.frame {s next : Transfers T Q L K V guard} {image after : AtomicStore T Q L K V}
    (refines : s.Refines image) {t : T} (others : Others t s next image after)
    (linear : next.latches.Linearized after.claimer) (serves : next.Serves after t)
    (moving : ∀ t, (next.stage t).Moving next.places after.places)
    (still : ∀ place, (∀ t, ¬(next.stage t).Uses place) →
      after.places place = next.places place) : next.Refines after := by
  refine ⟨linear, fun other => ?_, moving, still⟩
  by_cases mine : other = t
  · exact mine ▸ serves
  · have apart : (Sum.inl other : T ⊕ Q) ≠ .inl t := fun same => mine (Sum.inl.inj same)
    constructor
    · rw [others.stage other mine, others.points _ apart]
      exact (refines.serves other).stands.later others.kept
    · rw [others.outcomes other mine, others.answers other mine, others.stage other mine,
        others.points _ apart]
      exact (refines.serves other).outcomes

/-- The same for a step that moves no value, of a party that uses what it used. -/
theorem Refines.unmoved {s next : Transfers T Q L K V guard} {image after : AtomicStore T Q L K V}
    (refines : s.Refines image) {t : T} (others : Others t s next image after)
    (linear : next.latches.Linearized after.claimer) (serves : next.Serves after t)
    (places : next.places = s.places) (images : after.places = image.places)
    (moving : (next.stage t).Moving s.places image.places)
    (uses : ∀ place, (s.stage t).Uses place → (next.stage t).Uses place) :
    next.Refines after := by
  refine refines.frame others linear serves (fun other => ?_) fun place unused => ?_
  · rw [places, images]
    by_cases mine : other = t
    · exact mine ▸ moving
    · rw [others.stage other mine]
      exact refines.moving other
  · rw [places, images]
    refine refines.still place fun other used => unused other ?_
    by_cases mine : other = t
    · exact mine ▸ uses place (mine ▸ used)
    · rw [others.stage other mine]
      exact used

/-- One access to the latches. -/
theorem access_one {s next : Transfers T Q L K V guard} {party : T ⊕ Q} {action : Action L}
    (accessed : s.access party [action] = some next) :
    ∃ latches, Latches.machine.step s.latches (party, action) = some latches ∧
      next = { s with latches := latches } := by
  obtain ⟨latches, ran, rfl⟩ := Option.map_eq_some_iff.mp accessed
  obtain ⟨last, stepped, done⟩ := Latches.machine.run_cons.mp ran
  obtain rfl := Option.some.inj done
  exact ⟨last, stepped, rfl⟩

/-- A call begins silently. -/
theorem call_tracks {s next : Transfers T Q L K V guard} {image : AtomicStore T Q L K V}
    (refines : s.Refines image) {call : TransferCall guard}
    (ready : s.stage call.caller = .ready)
    (accessed : (s.setStage call.caller (.calling call)).access (.inl call.caller)
      [call.group.begins] = some next) : next.Refines image := by
  obtain ⟨latches, stepped, rfl⟩ := access_one accessed
  obtain ⟨outcome, claimer, advanced, point, points, matched, linear, kept⟩ :=
    refines.linear.steps stepped
  have serves := refines.serves call.caller
  obtain ⟨stands, outcomes⟩ := serves
  rw [ready] at stands outcomes
  cases stands with
  | ready idle =>
    obtain ⟨inside, unrefused, silent⟩ := LatchGroup.inside_begins idle advanced
    rw [silent] at matched
    obtain rfl := Option.some.inj matched
    refine refines.unmoved (t := call.caller) ⟨points, fun other mine => ?_, fun _ _ => rfl,
      fun _ _ => rfl, kept⟩ linear ⟨?_, ?_⟩ rfl rfl ?_ ?_
    · simp [setStage, mine]
    · simp only [setStage, Function.update_self]
      rw [point]
      exact .calling call rfl inside
    · simp only [setStage, Function.update_self]
      rw [point]
      simpa [TransferStage.pending, unrefused] using outcomes
    · simp [setStage, TransferStage.Moving]
    · simp [ready, TransferStage.Uses]

/-- The second half of a commit is silent. -/
theorem proceed_tracks {s next : Transfers T Q L K V guard} {image : AtomicStore T Q L K V}
    (refines : s.Refines image) {t : T} {call : TransferCall guard}
    (committed : s.stage t = .committed call)
    (accessed : s.access (.inl t) [.proceed] = some next) : next.Refines image := by
  obtain ⟨latches, stepped, rfl⟩ := access_one accessed
  obtain ⟨outcome, claimer, advanced, point, points, matched, linear, kept⟩ :=
    refines.linear.steps stepped
  obtain rfl := Option.some.inj matched
  obtain ⟨stands, outcomes⟩ := refines.serves t
  rw [committed] at stands outcomes
  cases stands with
  | committed call caller ending claims =>
    refine refines.unmoved (t := t) ⟨points, fun _ _ => rfl, fun _ _ => rfl, fun _ _ => rfl, kept⟩
      linear ⟨?_, ?_⟩ rfl rfl (refines.moving t) fun _ used => used
    · simp only [committed, point]
      generalize s.latches.point (.inl t) = here at ending advanced
      cases ending with
      | one => cases advanced
      | two => cases advanced
      | between second =>
        obtain rfl := Option.some.inj advanced
        exact .committed call caller .two claims
    · simpa [committed, TransferStage.pending] using outcomes

/-- A refused call returns false, and has done nothing. -/
theorem refused_tracks {s next : Transfers T Q L K V guard} {image : AtomicStore T Q L K V}
    (refines : s.Refines image) {t : T} {call : TransferCall guard}
    (calling : s.stage t = .calling call)
    (outside : (s.latches.point (.inl t)).outside = true)
    (accessed : (s.answer t false).access (.inl t) [.destroy] = some next) :
    next.Refines image := by
  obtain ⟨latches, stepped, rfl⟩ := access_one accessed
  obtain ⟨outcome, claimer, advanced, point, points, matched, linear, kept⟩ :=
    refines.linear.steps stepped
  obtain rfl := Option.some.inj matched
  obtain ⟨stands, outcomes⟩ := refines.serves t
  rw [calling] at stands outcomes
  cases stands with
  | calling call caller inside =>
    have ended : (s.latches.point (.inl t) = .transaction1 none ∨
        s.latches.point (.inl t) = .transaction2 none none) ∧
        (s.latches.point (.inl t)).refused = true := by
      generalize s.latches.point (.inl t) = here at inside outside
      generalize call.group = group at inside
      cases inside with
      | refused latch => exact ⟨.inl rfl, rfl⟩
      | refusedPair first second => exact ⟨.inr rfl, rfl⟩
      | _ => cases outside
    refine refines.unmoved (t := t) ⟨points, fun other mine => ?_, fun other mine => ?_,
      fun _ _ => rfl, kept⟩ linear ⟨?_, ?_⟩ rfl rfl ?_ ?_
    · simp [answer, setStage, mine]
    · simp [answer, mine]
    · simp only [answer, setStage, Function.update_self]
      exact .ready (point.trans (LatchGroup.outside_destroyed ended.1 advanced))
    · simpa [answer, setStage, TransferStage.pending, ended.2] using outcomes
    · simp [answer, setStage, TransferStage.Moving]
    · simp [calling, TransferStage.Uses]

variable [DecidableEq K]

/-- The others claim latches, and are refused. -/
theorem other_tracks {s next : Transfers T Q L K V guard} {image : AtomicStore T Q L K V}
    (refines : s.Refines image) {q : Q} {action : Action L}
    (accessed : s.access (.inr q) [action] = some next) :
    ∃ after, AtomicStore.machine.run image (s.takesEffect (.other q action)) = some after ∧
      next.Refines after := by
  obtain ⟨latches, stepped, rfl⟩ := access_one accessed
  obtain ⟨outcome, claimer, -, -, points, matched, linear, kept⟩ := refines.linear.steps stepped
  refine ⟨{ image with claimer := claimer }, AtomicStore.run_others matched, linear, fun t => ?_,
    refines.moving, refines.still⟩
  have point : latches.point (.inl t) = s.latches.point (.inl t) := points _ (by simp)
  constructor
  · exact point ▸ (refines.serves t).stands.later kept
  · exact point ▸ (refines.serves t).outcomes

/-- Between calls a party's own places are its alone. -/
theorem assign_tracks {s : Transfers T Q L K V guard} {image : AtomicStore T Q L K V}
    (refines : s.Refines image) {t : T} (ready : s.stage t = .ready) {place : K}
    (own : guard place = .own t) (value : Option V) :
    Refines { s with places := Function.update s.places place value }
      { image with places := Function.update image.places place value } := by
  have unused (other : T) (used : K) (uses : (s.stage other).Uses used) : used ≠ place := by
    rintro rfl
    obtain rfl := (refines.serves other).stands.owns uses own
    rw [ready] at uses
    exact uses
  refine ⟨refines.linear, fun t => ⟨(refines.serves t).stands, (refines.serves t).outcomes⟩,
    fun other => ?_, fun used free => ?_⟩
  · refine (refines.moving other).congr fun used uses => ?_
    have apart := unused other used uses
    exact ⟨Function.update_of_ne apart _ _, Function.update_of_ne apart _ _⟩
  · by_cases same : used = place
    · simp [same]
    · simpa [Function.update_of_ne same] using refines.still used free

/-- An access of `begin_transaction` is silent, or refuses the call. -/
theorem access_tracks {s next : Transfers T Q L K V guard} {image : AtomicStore T Q L K V}
    (refines : s.Refines image) {t : T} {action : Action L} {call : TransferCall guard}
    (calling : s.stage t = .calling call) (begins : beginning action = true)
    (accessed : s.access (.inl t) [action] = some next) :
    ∃ after, AtomicStore.machine.run image (s.takesEffect (.access t action)) = some after ∧
      next.Refines after := by
  obtain ⟨latches, stepped, rfl⟩ := access_one accessed
  obtain ⟨outcome, claimer, advanced, point, points, matched, linear, kept⟩ :=
    refines.linear.steps stepped
  obtain ⟨stands, outcomes⟩ := refines.serves t
  rw [calling] at stands outcomes
  cases stands with
  | calling call caller inside =>
    have moving : (s.stage t).Moving s.places image.places := refines.moving t
    obtain ⟨still, ⟨silent, same⟩ | ⟨refuses, unrefused, refused⟩⟩ :=
      inside.advance begins advanced
    · rw [silent] at matched
      obtain rfl := Option.some.inj matched
      refine ⟨image, by simp [takesEffect, silent], ?_⟩
      refine refines.unmoved (t := t) ⟨points, fun _ _ => rfl, fun _ _ => rfl, fun _ _ => rfl, kept⟩
        linear ⟨?_, ?_⟩ rfl rfl moving fun _ used => used
      · simp only [calling, point]
        exact .calling call caller still
      · simpa [calling, point, TransferStage.pending, same] using outcomes
    · rw [refuses] at matched
      obtain ⟨middle, claims, done⟩ := Claims.machine.run_cons.mp matched
      obtain rfl := Option.some.inj done
      refine ⟨{ image with
        claimer := middle
        outcomes := Function.update image.outcomes t (image.outcomes t ++ [false]) }, ?_, ?_⟩
      · simp only [takesEffect, refuses]
        refine AtomicStore.machine.run_cons.mpr ⟨_, ?_, rfl⟩
        exact Option.map_eq_some_iff.mpr ⟨middle, claims, rfl⟩
      · refine refines.unmoved (t := t) ⟨points, fun _ _ => rfl, fun _ _ => rfl,
          fun other mine => ?_, kept⟩ linear ⟨?_, ?_⟩ rfl rfl moving fun _ used => used
        · simp [mine]
        · simp only [calling, point]
          exact .calling call caller still
        · simpa [calling, point, TransferStage.pending, refused, unrefused] using outcomes

/-- A transfer takes effect where its commit begins: the latches are claimed, and nobody else
uses its places from then on. -/
theorem commit_tracks {s next : Transfers T Q L K V guard} {image : AtomicStore T Q L K V}
    (refines : s.Refines image) {t : T} {call : TransferCall guard}
    (calling : s.stage t = .calling call)
    (accessed : (s.setStage t (.committed call)).access (.inl t) [.commit] = some next) :
    ∃ after, AtomicStore.machine.run image (s.takesEffect (.commit t)) = some after ∧
      next.Refines after := by
  obtain ⟨latches, stepped, rfl⟩ := access_one accessed
  obtain ⟨outcome, claimer, advanced, point, points, matched, linear, kept⟩ :=
    refines.linear.steps stepped
  obtain ⟨stands, outcomes⟩ := refines.serves t
  rw [calling] at stands outcomes
  cases stands with
  | calling call caller inside =>
    obtain ⟨decides, unrefused, ending⟩ := inside.commits advanced
    rw [decides] at matched
    obtain ⟨middle, claims, done⟩ := Claims.machine.run_cons.mp matched
    obtain rfl := Option.some.inj done
    have claimed : ∀ latch ∈ call.group.latches, middle latch = some (.inl t) := by
      intro latch member
      obtain ⟨-, same⟩ := Option.ite_none_right_eq_some.mp claims
      obtain rfl := Option.some.inj same
      exact if_pos member
    have stands : (TransferStage.committed call : TransferStage guard V).Stands t middle
        (latches.point (.inl t)) := .committed call caller (point ▸ ending) claimed
    have alone (other : T) (apart : other ≠ t) (place : K) (uses : (s.stage other).Uses place) :
        place ≠ call.source ∧ place ≠ call.target := by
      have later := (refines.serves other).stands.later kept
      exact ⟨fun same => apart (later.alone stands uses (.inl same)),
        fun same => apart (later.alone stands uses (.inr same))⟩
    refine ⟨{
      claimer := middle
      places := Function.update (Function.update image.places call.source none) call.target
        (image.places call.source)
      outcomes := Function.update image.outcomes t (image.outcomes t ++ [true]) }, ?_, ?_⟩
    · simp only [takesEffect, calling]
      refine AtomicStore.machine.run_cons.mpr ⟨_, ?_, rfl⟩
      exact Option.map_eq_some_iff.mpr ⟨middle, claims, rfl⟩
    · refine refines.frame (t := t) ⟨points, fun other mine => ?_, fun _ _ => rfl,
        fun other mine => ?_, kept⟩ linear ⟨?_, ?_⟩ (fun other => ?_) fun place unused => ?_
      · simp [setStage, mine]
      · simp [mine]
      · simpa [setStage] using stands
      · simpa [setStage, TransferStage.pending, unrefused] using outcomes
      · by_cases mine : other = t
        · subst mine
          have free : image.places call.source = s.places call.source := by
            refine refines.still call.source fun other' uses => ?_
            by_cases same : other' = other
            · rw [same, calling] at uses
              exact uses
            · exact (alone other' same call.source uses).1 rfl
          simp only [setStage, Function.update_self, TransferStage.Moving, free, true_and]
          intro apart
          simp [apart]
        · simp only [setStage, Function.update_of_ne mine]
          refine (refines.moving other).congr fun place uses => ?_
          obtain ⟨source, target⟩ := alone other mine place uses
          exact ⟨rfl, by simp [source, target]⟩
      · have free := unused t
        simp only [setStage, Function.update_self, TransferStage.Uses, not_or] at free
        have still : image.places place = s.places place := by
          refine refines.still place fun other uses => ?_
          by_cases mine : other = t
          · rw [mine, calling] at uses
            exact uses
          · exact unused other (by simpa [setStage, mine] using uses)
        simpa [free.1, free.2, setStage] using still

/-- Taking the value is silent: in the abstract store it has left its source already. -/
theorem source_tracks {s : Transfers T Q L K V guard} {image : AtomicStore T Q L K V}
    (refines : s.Refines image) {t : T} {call : TransferCall guard}
    (committed : s.stage t = .committed call)
    (outside : (s.latches.point (.inl t)).outside = true) :
    Refines { s.setStage t (.carrying call (s.places call.source)) with
      places := Function.update s.places call.source none } image := by
  obtain ⟨stands, outcomes⟩ := refines.serves t
  have moving := refines.moving t
  rw [committed] at stands outcomes moving
  obtain ⟨target, source⟩ := moving
  have alone (other : T) (apart : other ≠ t) (place : K) (uses : (s.stage other).Uses place) :
      place ≠ call.source :=
    fun same => apart ((refines.serves other).stands.alone stands uses (.inl same))
  cases stands with
  | committed call caller ending claims =>
    refine refines.frame (t := t) ⟨fun _ _ => rfl, fun other mine => ?_, fun _ _ => rfl,
      fun _ _ => rfl, fun _ _ => id⟩ refines.linear ⟨?_, ?_⟩ (fun other => ?_)
      fun place unused => ?_
    · simp [setStage, mine]
    · simp only [setStage, Function.update_self]
      refine .carrying call _ caller ?_ claims
      generalize s.latches.point (.inl t) = here at ending outside
      cases ending with
      | one => exact .inl rfl
      | two => exact .inr rfl
      | between second => cases outside
    · simpa [setStage, TransferStage.pending] using outcomes
    · by_cases mine : other = t
      · subst mine
        simpa [setStage, TransferStage.Moving] using target
      · simp only [setStage, Function.update_of_ne mine]
        refine (refines.moving other).congr fun place uses => ⟨?_, rfl⟩
        simp [alone other mine place uses]
    · have free := unused t
      simp only [setStage, Function.update_self, TransferStage.Uses] at free
      by_cases same : place = call.source
      · simpa [same] using source (same ▸ free)
      · have still : image.places place = s.places place := by
          refine refines.still place fun other uses => ?_
          by_cases mine : other = t
          · rw [mine, committed] at uses
            exact uses.elim same free
          · exact unused other (by simpa [setStage, mine] using uses)
        simpa [same] using still

/-- Storing the value is silent, and then the call returns. -/
theorem target_tracks {s next : Transfers T Q L K V guard} {image : AtomicStore T Q L K V}
    (refines : s.Refines image) {t : T} {call : TransferCall guard} {value : Option V}
    (carrying : s.stage t = .carrying call value)
    (accessed : ({ s.answer t true with
      places := Function.update s.places call.target value } : Transfers T Q L K V guard).access
        (.inl t) [.destroy] = some next) : next.Refines image := by
  obtain ⟨latches, stepped, rfl⟩ := access_one accessed
  obtain ⟨outcome, claimer, advanced, point, points, matched, linear, kept⟩ :=
    refines.linear.steps stepped
  obtain rfl := Option.some.inj matched
  obtain ⟨stands, outcomes⟩ := refines.serves t
  have moving := refines.moving t
  rw [carrying] at stands outcomes moving
  have alone (other : T) (apart : other ≠ t) (place : K) (uses : (s.stage other).Uses place) :
      place ≠ call.target :=
    fun same => apart ((refines.serves other).stands.alone stands uses same)
  cases stands with
  | carrying call value caller ended claims =>
    refine refines.frame (t := t) ⟨points, fun other mine => ?_, fun other mine => ?_,
      fun _ _ => rfl, kept⟩ linear ⟨?_, ?_⟩ (fun other => ?_) fun place unused => ?_
    · simp [answer, setStage, mine]
    · simp [answer, mine]
    · simp only [answer, setStage, Function.update_self]
      exact .ready (point.trans (LatchGroup.outside_destroyed ended advanced))
    · simpa [answer, setStage, TransferStage.pending] using outcomes
    · by_cases mine : other = t
      · subst mine
        simp [answer, setStage, TransferStage.Moving]
      · simp only [answer, setStage, Function.update_of_ne mine]
        refine (refines.moving other).congr fun place uses => ⟨?_, rfl⟩
        simp [alone other mine place uses]
    · by_cases same : place = call.target
      · have arrived : image.places call.target = value := moving
        simpa [same] using arrived
      · have still : image.places place = s.places place := by
          refine refines.still place fun other uses => ?_
          by_cases mine : other = t
          · rw [mine, carrying] at uses
            exact same uses
          · exact unused other (by simpa [answer, setStage, mine] using uses)
        simpa [same] using still

/-- Every step does in the abstract store what takes effect in it. -/
theorem tracks : (machine : Machine (Transfers T Q L K V guard) _).Tracks AtomicStore.machine
    takesEffect Refines := by
  intro s event next image refines stepped
  cases event with
  | other q action => exact other_tracks refines stepped
  | assign t place value =>
    cases stage : s.stage t with
    | ready =>
      simp only [machine, step, stage, Option.ite_none_right_eq_some, Option.some.injEq] at stepped
      obtain ⟨own, rfl⟩ := stepped
      exact ⟨_, rfl, assign_tracks refines stage own value⟩
    | _ => simp [machine, step, stage] at stepped
  | call call =>
    cases stage : s.stage call.caller with
    | ready =>
      simp only [machine, step, stage] at stepped
      exact ⟨image, rfl, call_tracks refines stage stepped⟩
    | _ => simp [machine, step, stage] at stepped
  | access t action =>
    cases stage : s.stage t with
    | calling call =>
      simp only [machine, step, stage, Option.ite_none_right_eq_some] at stepped
      exact access_tracks refines stage stepped.1 stepped.2
    | _ => simp [machine, step, stage] at stepped
  | commit t =>
    cases stage : s.stage t with
    | calling call =>
      simp only [machine, step, stage] at stepped
      exact commit_tracks refines stage stepped
    | _ => simp [machine, step, stage] at stepped
  | proceed t =>
    cases stage : s.stage t with
    | committed call =>
      simp only [machine, step, stage] at stepped
      exact ⟨image, rfl, proceed_tracks refines stage stepped⟩
    | _ => simp [machine, step, stage] at stepped
  | source t =>
    cases stage : s.stage t with
    | committed call =>
      simp only [machine, step, stage, Option.ite_none_right_eq_some, Option.some.injEq] at stepped
      obtain ⟨outside, rfl⟩ := stepped
      exact ⟨image, rfl, source_tracks refines stage outside⟩
    | _ => simp [machine, step, stage] at stepped
  | target t =>
    cases stage : s.stage t with
    | carrying call value =>
      simp only [machine, step, stage] at stepped
      exact ⟨image, rfl, target_tracks refines stage stepped⟩
    | _ => simp [machine, step, stage] at stepped
  | refused t =>
    cases stage : s.stage t with
    | calling call =>
      simp only [machine, step, stage, Option.ite_none_right_eq_some] at stepped
      exact ⟨image, rfl, refused_tracks refines stage stepped.1 stepped.2⟩
    | _ => simp [machine, step, stage] at stepped

/-- However the calls of `atomic_transfer` and `atomic_deliver` and the other transactions are
interleaved: they are calls that take one step each in an abstract store, between their
beginning and their end, and return what they are answered there, and the places that nobody
is about to use hold what they hold there. No place is ever used by two calls at once, and
nobody uses another's own. -/
theorem transfers_atomic (places : K → Option V) (events : List (Event T Q L K V guard))
    (s : Transfers T Q L K V guard) (ran : machine.run (create places) events = some s) :
    (∃ image, AtomicStore.machine.run (.create places)
        (machine.shown takesEffect (create places) events) = some image ∧
      (∀ t, ∃ rest, image.outcomes t = s.answers t ++ rest ∧ rest.length ≤ 1 ∧
        (s.stage t = .ready → rest = [])) ∧
      ∀ place, (∀ t, ¬(s.stage t).Uses place) → image.places place = s.places place) ∧
    (∀ t t' place, (s.stage t).Uses place → (s.stage t').Uses place → t = t') ∧
    ∀ t t' place, (s.stage t).Uses place → guard place = .own t' → t = t' := by
  obtain ⟨image, matched, refines⟩ := tracks.run (create_refines places) ran
  refine ⟨⟨image, matched, fun t => ⟨_, (refines.serves t).outcomes, ?_, fun ready => ?_⟩,
    refines.still⟩, fun t t' place uses uses' => ?_, fun t t' place uses own => ?_⟩
  · cases stage : s.stage t with
    | calling call =>
      rw [TransferStage.pending]
      split <;> decide
    | ready | committed call | carrying call value => simp [TransferStage.pending]
  · rw [ready, TransferStage.pending]
  · exact (refines.serves t).stands.alone (refines.serves t').stands uses uses'
  · exact (refines.serves t).stands.owns uses own

/-- The places 0 and 1 are latched by the latches 0 and 1; the place 2 is the party 1's. -/
def shelves : Nat → PlaceGuard Nat Nat
  | 0 => .latched 0
  | 1 => .latched 1
  | _ => .own 1

/-- While the party 0 carries a value from the place 0 to the place 1, the party 1 is refused
the place 1, and another party the latch 0. -/
def crossing : List (Event Nat Nat Nat Nat Nat shelves) :=
  [.call (.atomicTransferPair 0 0 1 0 1 rfl rfl), .access 0 .lockSecond, .access 0 .backOff,
    .access 0 .lockFirst, .access 0 .lockSecond, .access 0 .check, .access 0 .check,
    .call (.atomicDeliver 1 1 2 1 rfl rfl), .commit 0, .proceed 0, .source 0, .access 1 .lock,
    .access 1 .check, .other 7 (.begin 0), .other 7 .lock, .other 7 .check, .access 1 .unlock,
    .refused 1, .target 0]

theorem transfers_atomic_crossing :
    ∃ s, machine.run (create (fun place => some place)) crossing = some s ∧
      s.answers 0 = [true] ∧ s.answers 1 = [false] ∧
      machine.shown takesEffect (create (fun place => some place)) crossing =
        [.transfer 0 [0, 1] 0 1, .refuse 1 [1], .others (.refuse (.inr 7) [0])] ∧
      ∃ image, AtomicStore.machine.run (.create (fun place => some place))
        (machine.shown takesEffect (create (fun place => some place)) crossing) = some image := by
  have runs : (machine.run (create (fun place => some place)) crossing).map
      (fun s => (s.answers 0, s.answers 1)) = some ([true], [false]) := by decide +kernel
  obtain ⟨s, ran, answers⟩ := Option.map_eq_some_iff.mp runs
  obtain ⟨first, second⟩ := Prod.mk.inj answers
  refine ⟨s, ran, first, second, by decide +kernel, ?_⟩
  obtain ⟨image, matched, -⟩ := (transfers_atomic (fun place => some place) crossing s ran).1
  exact ⟨image, matched⟩

end Transfers

end Asioex
