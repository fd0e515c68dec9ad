import Mathlib.Data.List.Basic

/-!
# Partial deterministic transition systems and their finite runs

A machine takes one event at a time. An event that is not enabled in a state has
no successor, so a completed run is evidence that each of its events was enabled
when it was taken. Nothing here assumes a scheduler, fairness or termination:
a theorem about every completed run is a theorem about every order of events.

Two kinds of laws are provided. An invariant is carried along a run by one step
lemma, possibly under a condition on the steps. A property of the individual
steps of a run is collected by `Along`, and transferred between a condition on
those steps and their outcome without mentioning positions in the event list.

A machine may be compared with another one. A simulation lets the other machine take
any events; where the steps of the first one show events of the second, what a run
shows is itself a run.
-/

universe u v w x

/-- One event either leads to exactly one successor or is refused. -/
structure Machine (σ : Type u) (ε : Type v) where
  step : σ → ε → Option σ

namespace Machine

variable {σ : Type u} {ε : Type v} (machine : Machine σ ε)

/-- Take the events in order; a refused event refuses the whole run. -/
def run : σ → List ε → Option σ
  | state, [] => some state
  | state, event :: rest => (machine.step state event).bind (fun next => run next rest)

/-- Every step that the events take satisfies a relation between the state
before, the event and the state after. A refused event ends the requirement. -/
def Along (relation : σ → ε → σ → Prop) : σ → List ε → Prop
  | _, [] => True
  | state, event :: rest => ∀ next, machine.step state event = some next →
      relation state event next ∧ Along relation next rest

@[simp] theorem run_nil (state : σ) : machine.run state [] = some state := rfl

/-- A completed nonempty run exposes its first step. -/
theorem run_cons {state last : σ} {event : ε} {rest : List ε} :
    machine.run state (event :: rest) = some last ↔
      ∃ next, machine.step state event = some next ∧ machine.run next rest = some last := by
  simp [run, Option.bind_eq_some_iff]

/-- Concatenated events run one after the other, with the same state between. -/
theorem run_append {state last : σ} {first second : List ε} :
    machine.run state (first ++ second) = some last ↔
      ∃ middle, machine.run state first = some middle ∧ machine.run middle second = some last := by
  induction first generalizing state with
  | nil => simp
  | cons event rest inductionHypothesis =>
    simp only [List.cons_append, run_cons, inductionHypothesis]
    constructor
    · rintro ⟨next, stepped, middle, before, after⟩
      exact ⟨middle, ⟨next, stepped, before⟩, after⟩
    · rintro ⟨middle, ⟨next, stepped, before⟩, after⟩
      exact ⟨next, stepped, middle, before, after⟩

/-- A run extended by one event exposes its last step. -/
theorem run_snoc {state last : σ} {events : List ε} {event : ε} :
    machine.run state (events ++ [event]) = some last ↔
      ∃ middle, machine.run state events = some middle ∧ machine.step middle event = some last := by
  simp [run_append, run_cons]

/-- What one enabled step preserves, a completed run preserves. -/
theorem run_invariant {invariant : σ → Prop}
    (keeps : ∀ state event next, invariant state → machine.step state event = some next →
      invariant next)
    {state last : σ} {events : List ε} (initial : invariant state)
    (ran : machine.run state events = some last) : invariant last := by
  induction events generalizing state with
  | nil =>
    have same : state = last := Option.some.inj ran
    exact same ▸ initial
  | cons event rest inductionHypothesis =>
    obtain ⟨next, stepped, following⟩ := (machine.run_cons).mp ran
    exact inductionHypothesis (keeps state event next initial stepped) following

/-- An invariant that only some steps preserve is carried by the runs all of
whose steps are among them. -/
theorem run_invariant_along {relation : σ → ε → σ → Prop} {invariant : σ → Prop}
    (keeps : ∀ state event next, invariant state → machine.step state event = some next →
      relation state event next → invariant next)
    {state last : σ} {events : List ε} (initial : invariant state)
    (admitted : machine.Along relation state events)
    (ran : machine.run state events = some last) : invariant last := by
  induction events generalizing state with
  | nil =>
    have same : state = last := Option.some.inj ran
    exact same ▸ initial
  | cons event rest inductionHypothesis =>
    obtain ⟨next, stepped, following⟩ := (machine.run_cons).mp ran
    obtain ⟨related, remaining⟩ := admitted next stepped
    exact inductionHypothesis (keeps state event next initial stepped related) remaining following

/-- A law that ties the state to the events taken so far is carried by one step lemma,
which takes the newest event as the last of them. -/
theorem run_history {law : List ε → σ → Prop}
    (keeps : ∀ past state event next, law past state → machine.step state event = some next →
      law (past ++ [event]) next)
    {state last : σ} {events : List ε} (initial : law [] state)
    (ran : machine.run state events = some last) : law events last := by
  suffices later : ∀ past, law past state → law (past ++ events) last from later [] initial
  clear initial
  induction events generalizing state with
  | nil =>
    intro past lawful
    have same : state = last := Option.some.inj ran
    rw [List.append_nil]
    exact same ▸ lawful
  | cons event rest inductionHypothesis =>
    intro past lawful
    obtain ⟨next, stepped, following⟩ := (machine.run_cons).mp ran
    have extended := inductionHypothesis following (past ++ [event])
      (keeps past state event next lawful stepped)
    rwa [List.append_assoc] at extended

/-- A requirement holds along a run if it holds of the first step and along the rest. -/
theorem along_cons {relation : σ → ε → σ → Prop} {state next : σ} {event : ε} {rest : List ε}
    (stepped : machine.step state event = some next) :
    machine.Along relation state (event :: rest) ↔
      relation state event next ∧ machine.Along relation next rest := by
  simp [Along, stepped]

/-- A requirement that every step from an invariant state meets holds along every run. -/
theorem along_of_invariant {relation : σ → ε → σ → Prop} {invariant : σ → Prop}
    (meets : ∀ state event next, invariant state → machine.step state event = some next →
      relation state event next ∧ invariant next)
    {state : σ} (initial : invariant state) (events : List ε) :
    machine.Along relation state events := by
  induction events generalizing state with
  | nil => exact trivial
  | cons event rest inductionHypothesis =>
    intro next stepped
    obtain ⟨met, kept⟩ := meets state event next initial stepped
    exact ⟨met, inductionHypothesis kept⟩

/-- Two requirements on the steps of a run agree when, as long as every earlier
step met them, each next step meets one exactly when it meets the other. The runs
may be confined to the events of one kind.

The invariant is preserved by the steps that meet the condition. Outside them
nothing is claimed, because both requirements have already failed there. -/
theorem along_iff {outcome condition : σ → ε → σ → Prop} {invariant : σ → Prop}
    {kind : ε → Prop}
    (agree : ∀ state event next, kind event → invariant state →
      machine.step state event = some next → (outcome state event next ↔ condition state event next))
    (keeps : ∀ state event next, kind event → invariant state →
      machine.step state event = some next → condition state event next → invariant next)
    {state : σ} (events : List ε) (confined : ∀ event ∈ events, kind event)
    (initial : invariant state) :
    machine.Along outcome state events ↔ machine.Along condition state events := by
  induction events generalizing state with
  | nil => exact Iff.rfl
  | cons event rest inductionHypothesis =>
    obtain ⟨first, later⟩ := List.forall_mem_cons.mp confined
    constructor
    · intro along next stepped
      obtain ⟨met, remaining⟩ := along next stepped
      have admitted : condition state event next :=
        (agree state event next first initial stepped).mp met
      have kept : invariant next := keeps state event next first initial stepped admitted
      exact ⟨admitted, (inductionHypothesis later kept).mp remaining⟩
    · intro along next stepped
      obtain ⟨admitted, remaining⟩ := along next stepped
      have kept : invariant next := keeps state event next first initial stepped admitted
      exact ⟨(agree state event next first initial stepped).mpr admitted,
        (inductionHypothesis later kept).mpr remaining⟩

/-- A quantity that has grown over a completed run grew in one of its steps. -/
theorem exists_rise (quantity : σ → Nat) {state last : σ} {events : List ε}
    (ran : machine.run state events = some last) (grown : quantity state < quantity last) :
    ∃ before event after middle next, events = before ++ event :: after ∧
      machine.run state before = some middle ∧ machine.step middle event = some next ∧
      quantity middle < quantity next := by
  induction events generalizing state with
  | nil =>
    have same : state = last := Option.some.inj ran
    exact absurd grown (same ▸ Nat.lt_irrefl _)
  | cons event rest inductionHypothesis =>
    obtain ⟨next, stepped, following⟩ := (machine.run_cons).mp ran
    by_cases now : quantity state < quantity next
    · exact ⟨[], event, rest, state, next, rfl, rfl, stepped, now⟩
    · obtain ⟨before, later, after, middle, risen, split, reached, taken, rises⟩ :=
        inductionHypothesis following (by omega)
      refine ⟨event :: before, later, after, middle, risen, by rw [split]; rfl, ?_, taken, rises⟩
      exact (machine.run_cons).mpr ⟨next, stepped, reached⟩

/-- While a measure is positive some event of a kind decreases it: then some run of such
events brings it to zero. -/
theorem exists_run_to_zero {invariant : σ → Prop} {kind : ε → Prop} (measure : σ → Nat)
    (descends : ∀ state, invariant state → 0 < measure state → ∃ event next, kind event ∧
      machine.step state event = some next ∧ invariant next ∧ measure next < measure state)
    {state : σ} (initial : invariant state) :
    ∃ events last, machine.run state events = some last ∧ (∀ event ∈ events, kind event) ∧
      invariant last ∧ measure last = 0 := by
  induction bound : measure state using Nat.strongRecOn generalizing state with
  | ind bound inductionHypothesis =>
    by_cases ended : measure state = 0
    · exact ⟨[], state, rfl, by simp, initial, ended⟩
    · obtain ⟨event, next, proper, stepped, kept, less⟩ :=
        descends state initial (Nat.pos_of_ne_zero ended)
      obtain ⟨events, last, ran, kinds, final, zero⟩ :=
        inductionHypothesis (measure next) (bound ▸ less) kept rfl
      exact ⟨event :: events, last, (machine.run_cons).mpr ⟨next, stepped, ran⟩,
        List.forall_mem_cons.mpr ⟨proper, kinds⟩, final, zero⟩

/-- Where each event of a kind takes one off a measure, a run of such events is as long as the
measure has become less. -/
theorem run_countdown {invariant : σ → Prop} {kind : ε → Prop} (measure : σ → Nat)
    (counts : ∀ state event next, kind event → invariant state →
      machine.step state event = some next → invariant next ∧ measure next + 1 = measure state)
    {state last : σ} {events : List ε} (kinds : ∀ event ∈ events, kind event)
    (initial : invariant state) (ran : machine.run state events = some last) :
    events.length + measure last = measure state := by
  induction events generalizing state with
  | nil =>
    obtain rfl : state = last := Option.some.inj ran
    simp
  | cons event rest inductionHypothesis =>
    obtain ⟨proper, later⟩ := List.forall_mem_cons.mp kinds
    obtain ⟨next, stepped, following⟩ := (machine.run_cons).mp ran
    obtain ⟨kept, less⟩ := counts state event next proper initial stepped
    have remaining := inductionHypothesis later kept following
    rw [List.length_cons]
    omega

/-- What the steps of a run cost, each in the state that it is taken in. -/
def total (machine : Machine σ ε) (cost : σ → ε → Nat) : σ → List ε → Nat
  | _, [] => 0
  | state, event :: rest =>
    match machine.step state event with
    | none => 0
    | some next => cost state event + total machine cost next rest

theorem total_add (first second : σ → ε → Nat) (state : σ) (events : List ε) :
    machine.total (fun state event => first state event + second state event) state events =
      machine.total first state events + machine.total second state events := by
  induction events generalizing state with
  | nil => rfl
  | cons event rest inductionHypothesis =>
    cases stepped : machine.step state event with
    | none => simp [total, stepped]
    | some next =>
      simp only [total, stepped, inductionHypothesis]
      omega

/-- A cost that is the same for all events of a kind. -/
theorem total_countP (kind : ε → Bool) (amount : Nat) {state last : σ} {events : List ε}
    (ran : machine.run state events = some last) :
    machine.total (fun _ event => if kind event then amount else 0) state events =
      amount * events.countP kind := by
  induction events generalizing state with
  | nil => rfl
  | cons event rest inductionHypothesis =>
    obtain ⟨next, stepped, following⟩ := (machine.run_cons).mp ran
    simp only [total, stepped, inductionHypothesis following, List.countP_cons]
    cases kind event <;> simp [Nat.mul_add, Nat.add_comm]

/-- Events that cost nothing anywhere. -/
theorem total_eq_zero {cost : σ → ε → Nat} {events : List ε}
    (free : ∀ event ∈ events, ∀ state, cost state event = 0) (state : σ) :
    machine.total cost state events = 0 := by
  induction events generalizing state with
  | nil => rfl
  | cons event rest inductionHypothesis =>
    obtain ⟨now, later⟩ := List.forall_mem_cons.mp free
    cases stepped : machine.step state event with
    | none => simp [total, stepped]
    | some next => simp [total, stepped, now state, inductionHypothesis later next]

/-- The method of potentials: if each step is paid for by what it is charged and by what it
takes from a potential, a run costs no more than it is charged and than it found. -/
theorem run_total_le {invariant : σ → Prop}
    (keeps : ∀ state event next, invariant state → machine.step state event = some next →
      invariant next)
    (potential : σ → Nat) (cost charge : σ → ε → Nat)
    (paid : ∀ state event next, invariant state → machine.step state event = some next →
      cost state event + potential next ≤ potential state + charge state event)
    {state last : σ} {events : List ε} (initial : invariant state)
    (ran : machine.run state events = some last) :
    machine.total cost state events + potential last ≤
      potential state + machine.total charge state events := by
  induction events generalizing state with
  | nil =>
    obtain rfl : state = last := Option.some.inj ran
    simp [total]
  | cons event rest inductionHypothesis =>
    obtain ⟨next, stepped, following⟩ := (machine.run_cons).mp ran
    have now := paid state event next initial stepped
    have later := inductionHypothesis (keeps state event next initial stepped) following
    simp only [total, stepped]
    omega

/-- Events that decrease a measure are as rare as the others make them: a run has at most
as many of them as it started with and as the other events add. -/
theorem run_descents_le {invariant : σ → Prop}
    (keeps : ∀ state event next, invariant state → machine.step state event = some next →
      invariant next)
    (measure : σ → Nat) (feeds : ε → Bool) (gain : Nat)
    (descends : ∀ state event next, invariant state → machine.step state event = some next →
      feeds event = false → measure next < measure state)
    (bounded : ∀ state event next, invariant state → machine.step state event = some next →
      feeds event = true → measure next ≤ measure state + gain)
    {state last : σ} {events : List ε} (initial : invariant state)
    (ran : machine.run state events = some last) :
    events.countP (fun event => !feeds event) + measure last ≤
      measure state + gain * events.countP feeds := by
  have paid (state : σ) (event : ε) (next : σ) (orderly : invariant state)
      (stepped : machine.step state event = some next) :
      (if !feeds event then 1 else 0) + measure next ≤
        measure state + if feeds event then gain else 0 := by
    cases fed : feeds event with
    | false =>
      have falls := descends state event next orderly stepped fed
      simp
      omega
    | true => simpa using bounded state event next orderly stepped fed
  have costs := machine.run_total_le keeps measure
    (fun _ event => if !feeds event then 1 else 0) (fun _ event => if feeds event then gain else 0)
    paid initial ran
  rwa [machine.total_countP (fun event => !feeds event) 1 ran, machine.total_countP feeds gain ran,
    Nat.one_mul] at costs

/-- A requirement on the events alone holds along a completed run exactly when each
of the events meets it. -/
theorem along_events {condition : ε → Prop} {state last : σ} {events : List ε}
    (ran : machine.run state events = some last) :
    machine.Along (fun _ event _ => condition event) state events ↔
      ∀ event ∈ events, condition event := by
  induction events generalizing state with
  | nil => simp [Along]
  | cons event rest inductionHypothesis =>
    obtain ⟨next, stepped, following⟩ := (machine.run_cons).mp ran
    have later := inductionHypothesis following
    simp only [Along, stepped, Option.some.injEq, forall_eq', List.forall_mem_cons]
    exact and_congr_right (fun _ => later)

/-- The step that a split of the events singles out satisfies the relation. -/
theorem Along.at_split {machine : Machine σ ε} {relation : σ → ε → σ → Prop}
    {state middle next : σ} {before after : List ε} {event : ε}
    (along : machine.Along relation state (before ++ event :: after))
    (reached : machine.run state before = some middle)
    (stepped : machine.step middle event = some next) : relation middle event next := by
  induction before generalizing state with
  | nil =>
    have same : state = middle := Option.some.inj reached
    subst same
    exact (along next stepped).1
  | cons first rest inductionHypothesis =>
    obtain ⟨second, taken, following⟩ := (machine.run_cons).mp reached
    exact inductionHypothesis (along second taken).2 following

section Simulation

variable {τ : Type w} {δ : Type x} (abstract : Machine τ δ)

/-- Each concrete step between related states is matched by finitely many
abstract events, which may depend on the concrete state. -/
def Simulates (related : σ → τ → Prop) : Prop :=
  ∀ state event next image, related state image → machine.step state event = some next →
    ∃ events after, abstract.run image events = some after ∧ related next after

/-- A simulation matches a whole concrete run by a whole abstract run. -/
theorem Simulates.run {machine : Machine σ ε} {abstract : Machine τ δ} {related : σ → τ → Prop}
    (simulates : machine.Simulates abstract related) {state last : σ} {image : τ}
    {events : List ε} (initial : related state image)
    (ran : machine.run state events = some last) :
    ∃ matching after, abstract.run image matching = some after ∧ related last after := by
  induction events generalizing state image with
  | nil =>
    have same : state = last := Option.some.inj ran
    exact ⟨[], image, rfl, same ▸ initial⟩
  | cons event rest inductionHypothesis =>
    obtain ⟨next, stepped, following⟩ := (machine.run_cons).mp ran
    obtain ⟨first, middle, matched, relatedNext⟩ := simulates state event next image initial stepped
    obtain ⟨second, after, completed, relatedLast⟩ := inductionHypothesis relatedNext following
    exact ⟨first ++ second, after, (abstract.run_append).mpr ⟨middle, matched, completed⟩,
      relatedLast⟩

variable {abstract}

/-- What the steps of a run show, in order; each shows something of the state it is
taken in. -/
def shown (observe : σ → ε → List δ) : σ → List ε → List δ
  | _, [] => []
  | state, event :: rest =>
    match machine.step state event with
    | none => []
    | some next => observe state event ++ shown observe next rest

/-- Each concrete step between related states is matched by the abstract events that
it shows. -/
def Tracks (abstract : Machine τ δ) (observe : σ → ε → List δ) (related : σ → τ → Prop) : Prop :=
  ∀ state event next image, related state image → machine.step state event = some next →
    ∃ after, abstract.run image (observe state event) = some after ∧ related next after

/-- What a whole run shows is an abstract run. -/
theorem Tracks.run {machine : Machine σ ε} {observe : σ → ε → List δ} {related : σ → τ → Prop}
    (tracks : machine.Tracks abstract observe related) {state last : σ} {image : τ}
    {events : List ε} (initial : related state image)
    (ran : machine.run state events = some last) :
    ∃ after, abstract.run image (machine.shown observe state events) = some after ∧
      related last after := by
  induction events generalizing state image with
  | nil =>
    have same : state = last := Option.some.inj ran
    exact ⟨image, rfl, same ▸ initial⟩
  | cons event rest inductionHypothesis =>
    obtain ⟨next, stepped, following⟩ := (machine.run_cons).mp ran
    obtain ⟨middle, matched, relatedNext⟩ := tracks state event next image initial stepped
    obtain ⟨after, completed, relatedLast⟩ := inductionHypothesis relatedNext following
    refine ⟨after, ?_, relatedLast⟩
    simp only [shown, stepped]
    exact (abstract.run_append).mpr ⟨middle, matched, completed⟩

end Simulation

end Machine
