import Mathlib.Data.List.Perm.Basic
import Asioex.ComposePromise

/-!
# One outcome of a composed coroutine

The frame of a composed coroutine belongs to the running body, or to the `coro_handle`
of the completion that an awaited operation holds. The operation may move its completion,
invoke it or destroy it; whatever is moved from or invoked is spent, and is destroyed at
some time. Destroying a completion destroys the frame that it still owns.

The handler is handed over by the destructor of the promise, which looks for a completion
and a result. `return_value` sets the result, and nothing else does.
-/

namespace Asioex

/-- One more operation that completes takes the body one await further. -/
theorem Body.after_snoc {A R : Type} {body : Body A R} {values : List A} {next : A → Body A R}
    (reached : body.after values = some (.await next)) (value : A) :
    body.after (values ++ [value]) = some (next value) := by
  induction values generalizing body with
  | nil =>
    obtain rfl := Option.some.inj reached
    rfl
  | cons first rest inductionHypothesis =>
    cases body with
    | await next => exact inductionHypothesis reached
    | coReturn result => cases reached
    | throw ex => cases reached

/-- What becomes of a body that ends: its handler is called with the tuple that it
returns, or the exception that it throws is thrown again. -/
def Body.ends {A R : Type} : Body A R → Option (Task R)
  | .await _ => none
  | .coReturn result => some (.complete result)
  | .throw ex => some (.rethrow ex)

/-- The one outcome of a body whose operations completed with these values, once it ends. -/
def Body.outcome {A R : Type} (body : Body A R) (values : List A) : Option (Task R) :=
  (body.after values).bind Body.ends

theorem Body.outcome_complete {A R : Type} {body : Body A R} {values : List A} {result : R} :
    body.outcome values = some (.complete result) ↔
      body.after values = some (.coReturn result) := by
  cases reached : body.after values with
  | none => simp [outcome, reached]
  | some rest => cases rest <;> simp [outcome, reached, ends]

theorem Body.outcome_rethrow {A R : Type} {body : Body A R} {values : List A} {ex : Exception} :
    body.outcome values = some (.rethrow ex) ↔ body.after values = some (.throw ex) := by
  cases reached : body.after values with
  | none => simp [outcome, reached]
  | some rest => cases rest <;> simp [outcome, reached, ends]

namespace ComposePromise

variable {A R : Type}

/-- Everything that was ever given to `post` or `dispatch`. -/
def given (s : ComposePromise A R) : List (Task R) :=
  s.invoked.map (fun call => .complete call.1) ++ s.rethrown.map .rethrow ++ s.queue

/-- A promise destroyed with a result has given the handler away. -/
theorem given_destruct {s : ComposePromise A R} (none : s.given = []) (result : R) :
    (s.destruct result).given = [.complete result] := by
  simp only [given, List.append_eq_nil_iff, List.map_eq_nil_iff] at none
  obtain ⟨⟨invoked, rethrown⟩, queue⟩ := none
  by_cases suspended : s.didSuspend = true
  · by_cases inside : s.onExecutor = true
    · simp [destruct, dispatch, suspended, inside, invoke, leave, given, invoked, rethrown, queue]
    · simp [destruct, dispatch, suspended, inside, post, leave, given, invoked, rethrown, queue]
  · simp [destruct, suspended, post, leave, given, invoked, rethrown, queue]

/-- The executor only moves what it was given. -/
theorem given_execute {s : ComposePromise A R} {k : Nat} {task : Task R}
    (queued : s.queue[k]? = some task) :
    ({ s with queue := s.queue.eraseIdx k }.execute task).given.Perm s.given := by
  obtain ⟨bound, rfl⟩ := List.getElem?_eq_some_iff.mp queued
  have parted := List.getElem_cons_eraseIdx_perm bound
  cases kind : s.queue[k] with
  | complete result =>
    rw [kind] at parted
    simp only [execute, invoke, given, List.map_append, List.map_cons, List.map_nil,
      List.append_assoc]
    refine List.Perm.append_left _ ?_
    have middle : (Task.complete result :: (s.rethrown.map .rethrow ++ s.queue.eraseIdx k)).Perm
        (s.rethrown.map .rethrow ++ Task.complete result :: s.queue.eraseIdx k) :=
      List.perm_middle.symm
    exact middle.trans (parted.append_left _)
  | rethrow ex =>
    rw [kind] at parted
    simp only [execute, given, List.map_append, List.map_cons, List.map_nil, List.append_assoc]
    refine List.Perm.append_left _ (List.Perm.append_left _ ?_)
    exact parted

end ComposePromise

/-- An object of the completion that is handed to an awaited operation: whether its
`coro_handle` points to the frame, and whether it was moved from or invoked. -/
structure ComposeFrame.Completion where
  coroHandle : Bool
  spent : Bool
deriving DecidableEq, Repr

/-- A coroutine's promise with its result and its handler, the completion objects that
exist, the values that the body was resumed with, and what happened to the frame: how
often it was destroyed, and how often it was resumed where it was not suspended. -/
structure ComposeFrame (A R : Type) where
  promise : ComposePromise A R
  result : Option R
  completion : Bool
  completions : List ComposeFrame.Completion
  values : List A
  destructions : Nat
  stray : Nat

namespace ComposeFrame

variable {A R : Type}

/-- A coroutine about to be called, on the executor's thread or on another. -/
def create (body : Body A R) (onExecutor : Bool) : ComposeFrame A R :=
  ⟨.create body onExecutor, none, false, [], [], 0, 0⟩

/-- The frame is destroyed, and with it the promise. -/
def destroy (s : ComposeFrame A R) : ComposeFrame A R :=
  { s with
    promise :=
      match s.completion, s.result with
      | true, some result => s.promise.destruct result
      | _, _ => s.promise.leave
    destructions := s.destructions + 1 }

/-- The body from one point on, up to its next suspension or its end, where the frame is
not kept: `final_suspend` is `suspend_never`. -/
def proceed (s : ComposeFrame A R) : Body A R → ComposeFrame A R
  | .await next =>
    { s with
      promise := { s.promise with phase := .initiating next }
      completions := s.completions ++ [⟨true, false⟩] }
  | .coReturn result => { s with result := some result }.destroy
  | .throw ex => { s with promise := s.promise.post (.rethrow ex) }.destroy

/-- The value is written to the frame, and the frame is resumed. An operation that was
left pending completes on the executor. -/
def resume (s : ComposeFrame A R) (value : A) : ComposeFrame A R :=
  match s.promise.phase with
  | .initiating next =>
    { s with
      promise := { s.promise with didSuspend := true }
      values := s.values ++ [value] }.proceed (next value)
  | .pending next =>
    { s with
      promise := { s.promise with didSuspend := true, onExecutor := true }
      values := s.values ++ [value] }.proceed (next value)
  | _ => { s with stray := s.stray + 1 }

/-- The call of the initiating function, and the return of an initiation that leaves its
operation pending; what an operation does with a completion object; and what the executor
runs. -/
inductive Event (A : Type) where
  | call
  | suspend
  | move (k : Nat)
  | invoke (k : Nat) (value : A)
  | destroy (k : Nat)
  | run (k : Nat)

/-- A completion that is moved from loses its handle to the new one. One that is invoked
releases it; an operation does not invoke a spent one. One that is destroyed destroys the
frame that it has a handle to. -/
def step (s : ComposeFrame A R) : Event A → Option (ComposeFrame A R)
  | .call =>
    match s.promise.phase with
    | .created body => some ({ s with completion := true }.proceed body)
    | _ => none
  | .suspend =>
    match s.promise.phase with
    | .initiating next =>
      some { s with promise := { s.promise with phase := .pending next, returned := true } }
    | _ => none
  | .move k => s.completions[k]?.map (fun moved =>
      { s with completions := s.completions.set k ⟨false, true⟩ ++ [moved] })
  | .invoke k value =>
    match s.completions[k]? with
    | some ⟨coroHandle, false⟩ =>
      let released := { s with completions := s.completions.set k ⟨false, true⟩ }
      some (if coroHandle then released.resume value else { released with stray := s.stray + 1 })
    | _ => none
  | .destroy k => s.completions[k]?.map (fun gone =>
      let left := { s with completions := s.completions.eraseIdx k }
      if gone.coroHandle then left.destroy else left)
  | .run k => s.promise.queue[k]?.map (fun task =>
      { s with promise := { s.promise with queue := s.promise.queue.eraseIdx k }.execute task })

def machine : Machine (ComposeFrame A R) (Event A) := ⟨step⟩

/-- How many completion objects own the frame. -/
def owners (s : ComposeFrame A R) : Nat := s.completions.countP (·.coroHandle)

/-- The body runs: nothing else owns the frame, and nothing was given away. -/
structure Running (body : Body A R) (s : ComposeFrame A R) (rest : Body A R) : Prop where
  spent : ∀ object ∈ s.completions, object.spent = !object.coroHandle
  stray : s.stray = 0
  owners : s.owners = 0
  destructions : s.destructions = 0
  completion : s.completion = true
  result : s.result = none
  given : s.promise.given = []
  reached : body.after s.values = some rest

/-- Where the frame is: owned by one completion while the body awaits an operation, or
destroyed once, with the outcome of the body given away. -/
inductive Place (body : Body A R) (s : ComposeFrame A R) : Prop where
  | awaiting (next : A → Body A R)
      (phase : s.promise.phase = .initiating next ∨ s.promise.phase = .pending next)
      (owners : s.owners = 1) (destructions : s.destructions = 0) (completion : s.completion = true)
      (result : s.result = none) (given : s.promise.given = [])
      (reached : body.after s.values = some (.await next))
  | destroyed (phase : s.promise.phase = .destroyed) (owners : s.owners = 0)
      (destructions : s.destructions = 1)
      (given : s.promise.given = (body.outcome s.values).toList)

/-- A called coroutine: what is spent owns nothing, and the frame is in one place. -/
structure Single (body : Body A R) (s : ComposeFrame A R) : Prop where
  spent : ∀ object ∈ s.completions, object.spent = !object.coroHandle
  stray : s.stray = 0
  place : Place body s

/-- What was given away is the outcome of the body, once it has one. -/
theorem Single.given {body : Body A R} {s : ComposeFrame A R} (single : Single body s) :
    s.promise.given = (body.outcome s.values).toList := by
  cases single.place with
  | awaiting next phase owners destructions completion result given reached =>
    simp [given, Body.outcome, reached, Body.ends]
  | destroyed phase owners destructions given => exact given

/-- A body that runs hands the frame to a completion or ends, and then the frame is
destroyed with the outcome. -/
theorem Running.proceed {body rest : Body A R} {s : ComposeFrame A R}
    (running : Running body s rest) : Single body (s.proceed rest) := by
  cases rest with
  | await next =>
    refine ⟨?_, running.stray, ?_⟩
    · intro object member
      rcases List.mem_append.mp member with old | new
      · exact running.spent object old
      · rw [List.mem_singleton.mp new]
        rfl
    · apply Place.awaiting next
      · exact .inl rfl
      · have none := running.owners
        simp only [ComposeFrame.owners] at none
        simp [ComposeFrame.proceed, ComposeFrame.owners, none]
      · exact running.destructions
      · exact running.completion
      · exact running.result
      · exact running.given
      · exact running.reached
  | coReturn result =>
    have promise : (s.proceed (.coReturn result)).promise = s.promise.destruct result := by
      simp [ComposeFrame.proceed, destroy, running.completion]
    refine ⟨running.spent, running.stray, .destroyed ?_ running.owners ?_ ?_⟩
    · rw [promise, ComposePromise.destruct]
      split <;> rfl
    · exact congrArg (· + 1) running.destructions
    · rw [promise, ComposePromise.given_destruct running.given]
      change _ = (body.outcome s.values).toList
      simp [Body.outcome, running.reached, Body.ends]
  | throw ex =>
    have promise : (s.proceed (.throw ex)).promise = (s.promise.post (.rethrow ex)).leave := by
      simp [ComposeFrame.proceed, destroy, running.completion, running.result]
    refine ⟨running.spent, running.stray, .destroyed ?_ running.owners ?_ ?_⟩
    · rw [promise]
      rfl
    · exact congrArg (· + 1) running.destructions
    · have given : (s.promise.post (.rethrow ex)).leave.given = s.promise.given ++ [.rethrow ex] := by
        simp [ComposePromise.given, ComposePromise.post, ComposePromise.leave]
      rw [promise, given, running.given]
      change _ = (body.outcome s.values).toList
      simp [Body.outcome, running.reached, Body.ends]

/-- A released handle owns nothing any more, and a copy that took it over owns the frame. -/
theorem countP_release {completions : List Completion} {k : Nat} {object : Completion}
    (found : completions[k]? = some object) :
    (completions.set k ⟨false, true⟩).countP (·.coroHandle) +
      (if object.coroHandle then 1 else 0) = completions.countP (·.coroHandle) := by
  obtain ⟨bound, rfl⟩ := List.getElem?_eq_some_iff.mp found
  rw [List.countP_set bound]
  by_cases owns : completions[k].coroHandle = true
  · have some : 0 < completions.countP (·.coroHandle) :=
      List.countP_pos_iff.mpr ⟨_, List.getElem_mem bound, owns⟩
    simp only [owns, ↓reduceIte, Bool.false_eq_true]
    omega
  · simp [owns]

theorem countP_gone {completions : List Completion} {k : Nat} {object : Completion}
    (found : completions[k]? = some object) :
    (completions.eraseIdx k).countP (·.coroHandle) + (if object.coroHandle then 1 else 0) =
      completions.countP (·.coroHandle) := by
  obtain ⟨bound, rfl⟩ := List.getElem?_eq_some_iff.mp found
  rw [← (List.getElem_cons_eraseIdx_perm bound).countP_eq, List.countP_cons]

/-- The place of a frame does not depend on which object owns it. -/
theorem Place.passes {body : Body A R} {s : ComposeFrame A R} (place : Place body s)
    {completions : List Completion}
    (same : completions.countP (·.coroHandle) = s.completions.countP (·.coroHandle)) :
    Place body { s with completions := completions } := by
  cases place with
  | awaiting next phase owners destructions completion result given reached =>
    exact .awaiting next phase (same.trans owners) destructions completion result given reached
  | destroyed phase owners destructions given =>
    exact .destroyed phase (same.trans owners) destructions given

/-- An object that owns the frame owns a suspended one. -/
theorem Place.owned {body : Body A R} {s : ComposeFrame A R} (place : Place body s) {k : Nat}
    {object : Completion} (found : s.completions[k]? = some object)
    (owns : object.coroHandle = true) :
    s.owners = 1 ∧ s.destructions = 0 ∧ s.completion = true ∧ s.result = none ∧
      s.promise.given = [] ∧ ∃ next, body.after s.values = some (.await next) ∧
        (s.promise.phase = .initiating next ∨ s.promise.phase = .pending next) := by
  cases place with
  | awaiting next phase owners destructions completion result given reached =>
    exact ⟨owners, destructions, completion, result, given, next, reached, phase⟩
  | destroyed phase owners destructions given =>
    have some : 0 < s.owners :=
      List.countP_pos_iff.mpr ⟨object, List.mem_of_getElem? found, owns⟩
    omega

/-- A release or a move leaves spent objects that own nothing. -/
theorem spent_set {completions : List Completion}
    (spent : ∀ object ∈ completions, object.spent = !object.coroHandle) (k : Nat) :
    ∀ object ∈ completions.set k ⟨false, true⟩, object.spent = !object.coroHandle := by
  intro object member
  rcases List.mem_or_eq_of_mem_set member with old | rfl
  · exact spent object old
  · rfl

namespace Single

variable {body : Body A R} {s : ComposeFrame A R} (single : Single body s)
include single

theorem move {k : Nat} {moved : Completion} (found : s.completions[k]? = some moved) :
    Single body { s with completions := s.completions.set k ⟨false, true⟩ ++ [moved] } := by
  refine ⟨?_, single.stray, single.place.passes ?_⟩
  · intro object member
    rcases List.mem_append.mp member with old | new
    · exact spent_set single.spent k object old
    · rw [List.mem_singleton.mp new]
      exact single.spent moved (List.mem_of_getElem? found)
  · rw [List.countP_append, List.countP_singleton]
    exact countP_release found

/-- An object that was not spent owns the frame, and the body goes on with the value. -/
theorem invoke {k : Nat} {coroHandle : Bool}
    (found : s.completions[k]? = some ⟨coroHandle, false⟩) (value : A) :
    coroHandle = true ∧
      Single body ({ s with completions := s.completions.set k ⟨false, true⟩ }.resume value) := by
  have owns : coroHandle = true := by
    have law := single.spent _ (List.mem_of_getElem? found)
    simpa using law
  obtain ⟨owners, destructions, completion, result, given, next, reached, phase⟩ :=
    single.place.owned found owns
  have released : (s.completions.set k ⟨false, true⟩).countP (·.coroHandle) = 0 := by
    have fewer := countP_release found
    simp only [owns, ↓reduceIte] at fewer
    change _ = s.owners at fewer
    omega
  have spent := spent_set single.spent k
  refine ⟨owns, ?_⟩
  rcases phase with initiating | pending
  · rw [resume]
    simp only [initiating]
    apply Running.proceed
    exact ⟨spent, single.stray, released, destructions, completion, result, given,
      Body.after_snoc reached value⟩
  · rw [resume]
    simp only [pending]
    apply Running.proceed
    exact ⟨spent, single.stray, released, destructions, completion, result, given,
      Body.after_snoc reached value⟩

/-- A destroyed object that owns the frame destroys it, and nothing is given away. -/
theorem drop {k : Nat} {gone : Completion} (found : s.completions[k]? = some gone)
    (owns : gone.coroHandle = true) :
    ({ s with completions := s.completions.eraseIdx k }.destroy).promise = s.promise.leave ∧
      Single body { s with completions := s.completions.eraseIdx k }.destroy := by
  obtain ⟨owners, destructions, completion, result, given, next, reached, -⟩ :=
    single.place.owned found owns
  have vacated : (s.completions.eraseIdx k).countP (·.coroHandle) = 0 := by
    have fewer := countP_gone found
    simp only [owns, ↓reduceIte] at fewer
    change _ = s.owners at fewer
    omega
  have promise : ({ s with completions := s.completions.eraseIdx k }.destroy).promise =
      s.promise.leave := by
    simp [destroy, completion, result]
  refine ⟨promise, ?_, single.stray, .destroyed ?_ vacated (congrArg (· + 1) destructions) ?_⟩
  · intro object member
    exact single.spent object ((List.eraseIdx_sublist _ _).subset member)
  · rw [promise]
    rfl
  · have same : s.promise.leave.given = s.promise.given := rfl
    rw [promise, same, given]
    change _ = (body.outcome s.values).toList
    simp [Body.outcome, reached, Body.ends]

/-- A destroyed object that owns nothing changes nothing else. -/
theorem discard {k : Nat} {gone : Completion} (found : s.completions[k]? = some gone)
    (owns : gone.coroHandle = false) :
    Single body { s with completions := s.completions.eraseIdx k } := by
  refine ⟨?_, single.stray, single.place.passes ?_⟩
  · intro object member
    exact single.spent object ((List.eraseIdx_sublist _ _).subset member)
  · have same := countP_gone found
    simpa [owns] using same

/-- What the executor runs was given to it, and is given once. -/
theorem run {k : Nat} {task : Task R} (queued : s.promise.queue[k]? = some task) :
    Single body
      { s with promise := { s.promise with queue := s.promise.queue.eraseIdx k }.execute task } := by
  have moved := ComposePromise.given_execute queued
  have phase : ({ s.promise with queue := s.promise.queue.eraseIdx k }.execute task).phase =
      s.promise.phase := by
    cases task <;> rfl
  refine ⟨single.spent, single.stray, ?_⟩
  cases single.place with
  | awaiting next suspended owners destructions completion result given reached =>
    rw [given] at moved
    exact .awaiting next (phase ▸ suspended) owners destructions completion result
      (List.perm_nil.mp moved) reached
  | destroyed gone owners destructions given =>
    refine .destroyed (phase.trans gone) owners destructions ?_
    rw [given] at moved
    cases outcome : body.outcome s.values with
    | none =>
      rw [outcome] at moved
      exact List.perm_nil.mp moved
    | some once =>
      rw [outcome] at moved
      exact List.perm_singleton.mp moved

end Single

/-- Whatever happens next, the frame has one owner and the body one outcome. -/
theorem step_single (body : Body A R) (s : ComposeFrame A R) (event : Event A)
    (next : ComposeFrame A R) (single : Single body s) (stepped : machine.step s event = some next) :
    Single body next := by
  cases event with
  | call =>
    have created : ∃ fresh, s.promise.phase = .created fresh := by
      cases phase : s.promise.phase <;> simp [machine, step, phase] at stepped
      exact ⟨_, rfl⟩
    obtain ⟨fresh, phase⟩ := created
    cases single.place with
    | awaiting next suspended => rcases suspended with other | other <;> cases phase.symm.trans other
    | destroyed gone => cases phase.symm.trans gone
  | suspend =>
    have initiating : ∃ awaited, s.promise.phase = .initiating awaited ∧
        { s with promise := { s.promise with phase := .pending awaited, returned := true } } =
          next := by
      cases phase : s.promise.phase <;> simp [machine, step, phase] at stepped
      exact ⟨_, rfl, stepped⟩
    obtain ⟨awaited, phase, rfl⟩ := initiating
    refine ⟨single.spent, single.stray, ?_⟩
    cases single.place with
    | awaiting after suspended owners destructions completion result given reached =>
      have same : after = awaited := by
        rcases suspended with other | other
        · exact Phase.initiating.inj (other.symm.trans phase)
        · cases phase.symm.trans other
      subst same
      exact .awaiting after (.inr rfl) owners destructions completion result given reached
    | destroyed gone => cases phase.symm.trans gone
  | move k =>
    obtain ⟨moved, found, rfl⟩ := Option.map_eq_some_iff.mp stepped
    exact single.move found
  | invoke k value =>
    simp only [machine, step] at stepped
    split at stepped
    · next coroHandle found =>
      obtain ⟨rfl, resumed⟩ := single.invoke found value
      obtain rfl := Option.some.inj stepped
      exact resumed
    · cases stepped
  | destroy k =>
    obtain ⟨gone, found, rfl⟩ := Option.map_eq_some_iff.mp stepped
    by_cases owns : gone.coroHandle = true
    · simp only [owns, ↓reduceIte]
      exact (single.drop found owns).2
    · simp only [owns, Bool.false_eq_true, ↓reduceIte]
      exact single.discard found (Bool.eq_false_iff.mpr owns)
  | run k =>
    obtain ⟨task, queued, rfl⟩ := Option.map_eq_some_iff.mp stepped
    exact single.run queued

/-- A call runs the body, which owns the frame. -/
theorem call_single (body : Body A R) (onExecutor : Bool) {s : ComposeFrame A R}
    (stepped : machine.step (create body onExecutor) .call = some s) : Single body s := by
  obtain rfl := Option.some.inj stepped
  apply Running.proceed
  constructor
  · simp [create]
  all_goals rfl

/-- A destroyed frame stays destroyed, and its body does not advance. -/
theorem step_destroyed {body : Body A R} {s next : ComposeFrame A R} {event : Event A}
    (single : Single body s) (destroyed : s.promise.phase = .destroyed)
    (stepped : machine.step s event = some next) :
    next.promise.phase = .destroyed ∧ next.values = s.values := by
  have unowned {k : Nat} {object : Completion} (found : s.completions[k]? = some object) :
      object.coroHandle = false := by
    by_contra owns
    obtain ⟨-, -, -, -, -, awaited, -, phase⟩ :=
      single.place.owned found (Bool.not_eq_false _ ▸ owns)
    rcases phase with other | other <;> cases destroyed.symm.trans other
  cases event with
  | call => simp [machine, step, destroyed] at stepped
  | suspend => simp [machine, step, destroyed] at stepped
  | move k =>
    obtain ⟨moved, found, rfl⟩ := Option.map_eq_some_iff.mp stepped
    exact ⟨destroyed, rfl⟩
  | invoke k value =>
    simp only [machine, step] at stepped
    split at stepped
    · next coroHandle found =>
      have owns := (single.invoke found value).1
      cases (unowned found).symm.trans owns
    · cases stepped
  | destroy k =>
    obtain ⟨gone, found, rfl⟩ := Option.map_eq_some_iff.mp stepped
    rw [unowned found]
    exact ⟨destroyed, rfl⟩
  | run k =>
    obtain ⟨task, queued, rfl⟩ := Option.map_eq_some_iff.mp stepped
    cases task <;> exact ⟨destroyed, rfl⟩

theorem run_destroyed {body : Body A R} {s last : ComposeFrame A R} {events : List (Event A)}
    (single : Single body s) (destroyed : s.promise.phase = .destroyed)
    (ran : machine.run s events = some last) :
    Single body last ∧ last.promise.phase = .destroyed ∧ last.values = s.values := by
  have keeps (middle : ComposeFrame A R) (event : Event A) (after : ComposeFrame A R)
      (held : Single body middle ∧ middle.promise.phase = .destroyed ∧ middle.values = s.values)
      (stepped : machine.step middle event = some after) :
      Single body after ∧ after.promise.phase = .destroyed ∧ after.values = s.values := by
    obtain ⟨one, gone, same⟩ := held
    obtain ⟨still, unchanged⟩ := step_destroyed one gone stepped
    exact ⟨step_single body middle event after one stepped, still, unchanged.trans same⟩
  exact machine.run_invariant keeps ⟨single, destroyed, rfl⟩ ran

/-- A frame whose body runs does with its promise what `compose_promise` does. -/
theorem proceed_promise {s : ComposeFrame A R} (completion : s.completion = true)
    (result : s.result = none) (rest : Body A R) :
    (s.proceed rest).promise = s.promise.resume rest := by
  cases rest with
  | await next => rfl
  | coReturn result => simp [proceed, destroy, completion, ComposePromise.resume]
  | throw ex => simp [proceed, destroy, completion, result, ComposePromise.resume]

/-- A resumed frame does with its promise what its completion does. -/
theorem resume_initiating {s : ComposeFrame A R} {next : A → Body A R}
    (completion : s.completion = true) (result : s.result = none)
    (initiating : s.promise.phase = .initiating next) (value : A) :
    (s.resume value).promise = s.promise.completion next value := by
  rw [resume, initiating]
  exact proceed_promise (by exact completion) (by exact result) (next value)

theorem resume_pending {s : ComposeFrame A R} {next : A → Body A R}
    (completion : s.completion = true) (result : s.result = none)
    (pending : s.promise.phase = .pending next) (value : A) :
    (s.resume value).promise = { s.promise with onExecutor := true }.completion next value := by
  rw [resume, pending]
  exact proceed_promise (by exact completion) (by exact result) (next value)

/-- What an event is to the promise: an event of its own, or nothing. An object that is
invoked completes the awaited operation, inside its initiation or after it; one that is
destroyed drops the operation, if it has the handle. -/
def promiseEvent (s : ComposeFrame A R) : Event A → Option (ComposePromise.Event A)
  | .call => some .call
  | .suspend => some .suspend
  | .move _ => none
  | .invoke _ value =>
    match s.promise.phase with
    | .initiating _ => some (.inline value)
    | _ => some (.complete value)
  | .destroy k =>
    match s.completions[k]? with
    | some ⟨true, _⟩ => some .drop
    | _ => none
  | .run k => some (.run k)

/-- The promise takes the event, or stays as it is where there is none. -/
def Follows (s : ComposeFrame A R) : Option (ComposePromise.Event A) → ComposeFrame A R → Prop
  | some own, next => ComposePromise.machine.step s.promise own = some next.promise
  | none, next => next.promise = s.promise

/-- A coroutine that is about to be called, or one that was. -/
def Orderly (body : Body A R) (onExecutor : Bool) (s : ComposeFrame A R) : Prop :=
  s = create body onExecutor ∨ Single body s

/-- Nothing but the call can happen before it. -/
theorem create_step {body : Body A R} {onExecutor : Bool} {event : Event A}
    {next : ComposeFrame A R} (stepped : machine.step (create body onExecutor) event = some next) :
    event = .call := by
  cases event with
  | call => rfl
  | suspend => cases stepped
  | move k => cases stepped
  | invoke k value => cases stepped
  | destroy k => cases stepped
  | run k => cases stepped

theorem step_orderly {body : Body A R} {onExecutor : Bool} (s : ComposeFrame A R)
    (event : Event A) (next : ComposeFrame A R) (orderly : Orderly body onExecutor s)
    (stepped : machine.step s event = some next) : Orderly body onExecutor next := by
  rcases orderly with rfl | single
  · obtain rfl := create_step stepped
    exact .inr (call_single body onExecutor stepped)
  · exact .inr (step_single body s event next single stepped)

/-- The promise follows each event on its frame.

Proof: by the event. An object that is invoked has the handle, since it is not spent, and
the body that it belongs to is suspended. -/
theorem step_follows {body : Body A R} {onExecutor : Bool} {s next : ComposeFrame A R}
    {event : Event A} (orderly : Orderly body onExecutor s)
    (stepped : machine.step s event = some next) : s.Follows (s.promiseEvent event) next := by
  rcases orderly with rfl | single
  · obtain rfl := create_step stepped
    obtain rfl := Option.some.inj stepped
    have resumed := proceed_promise (s := { create body onExecutor with completion := true })
      rfl rfl body
    exact ComposePromise.step_call.mpr ⟨body, rfl, resumed.symm⟩
  · cases event with
    | call =>
      cases single.place with
      | awaiting awaited phase =>
        rcases phase with other | other <;> simp [machine, step, other] at stepped
      | destroyed phase => simp [machine, step, phase] at stepped
    | suspend =>
      cases phase : s.promise.phase <;> simp [machine, step, phase] at stepped
      exact ComposePromise.step_suspend.mpr ⟨_, phase, congrArg promise stepped⟩
    | move k =>
      obtain ⟨moved, found, rfl⟩ := Option.map_eq_some_iff.mp stepped
      exact rfl
    | invoke k value =>
      simp only [machine, step] at stepped
      split at stepped
      · next coroHandle found =>
        obtain ⟨rfl, -⟩ := single.invoke found value
        obtain rfl := Option.some.inj stepped
        obtain ⟨-, -, completion, result, -, awaited, -, phase⟩ := single.place.owned found rfl
        let released := { s with completions := s.completions.set k ⟨false, true⟩ }
        rcases phase with initiating | pending
        · have resumed := resume_initiating (s := released) completion result initiating value
          simp only [promiseEvent, initiating]
          exact ComposePromise.step_inline.mpr ⟨awaited, initiating, resumed.symm⟩
        · have resumed := resume_pending (s := released) completion result pending value
          simp only [promiseEvent, pending]
          exact ComposePromise.step_complete.mpr ⟨awaited, pending, resumed.symm⟩
      · cases stepped
    | destroy k =>
      obtain ⟨⟨coroHandle, spent⟩, found, rfl⟩ := Option.map_eq_some_iff.mp stepped
      cases coroHandle with
      | true =>
        obtain ⟨-, -, -, -, -, awaited, -, phase⟩ := single.place.owned found rfl
        have left := (single.drop found rfl).1
        simp only [promiseEvent, found]
        exact ComposePromise.step_drop.mpr ⟨⟨awaited, phase⟩, left.symm⟩
      | false =>
        simp only [promiseEvent, found]
        exact rfl
    | run k =>
      obtain ⟨task, queued, rfl⟩ := Option.map_eq_some_iff.mp stepped
      exact ComposePromise.step_run.mpr ⟨task, queued, rfl⟩

/-- What the promise takes of the events on its frame. -/
def promiseEvents (s : ComposeFrame A R) (event : Event A) : List (ComposePromise.Event A) :=
  (s.promiseEvent event).toList

theorem frame_tracks (body : Body A R) (onExecutor : Bool) :
    machine.Tracks ComposePromise.machine promiseEvents
      (fun s promise => Orderly body onExecutor s ∧ s.promise = promise) := by
  rintro s event next promise ⟨orderly, rfl⟩ stepped
  have follows := step_follows orderly stepped
  refine ⟨next.promise, ?_, step_orderly s event next orderly stepped, rfl⟩
  cases shows : s.promiseEvent event with
  | none =>
    rw [shows] at follows
    have still : next.promise = s.promise := follows
    simp [promiseEvents, shows, still]
  | some own =>
    rw [shows] at follows
    have moved : ComposePromise.machine.step s.promise own = some next.promise := follows
    simp [promiseEvents, shows, ComposePromise.machine.run_cons, moved]

/-- The promise in a frame, from its creation on, runs as a composed coroutine does: each
event on the frame is one event of the coroutine or nothing, and those of a whole run, in
their order, are a run of the coroutine, to the promise that the frame holds then. -/
theorem promise_simulated (body : Body A R) (onExecutor : Bool) (events : List (Event A))
    (s : ComposeFrame A R) (ran : machine.run (create body onExecutor) events = some s) :
    ComposePromise.machine.run (.create body onExecutor)
        (machine.shown promiseEvents (create body onExecutor) events) = some s.promise ∧
      ∀ event next, machine.step s event = some next → s.Follows (s.promiseEvent event) next := by
  have begins : Orderly body onExecutor (create body onExecutor) := .inl rfl
  obtain ⟨promise, runs, orderly, rfl⟩ := (frame_tracks body onExecutor).run ⟨begins, rfl⟩ ran
  exact ⟨runs, fun event next stepped => step_follows orderly stepped⟩

/-- An operation that moves its completion, and invokes the one that it moved to. -/
def moved : List (Event Nat) := [.suspend, .move 0, .invoke 1 7, .destroy 1, .destroy 0]

/-- The move, and the two objects that are destroyed after it, are nothing to the promise. -/
theorem promise_simulated_moved :
    ∃ s, machine.run (create ComposePromise.echo true) (.call :: moved) = some s ∧
      machine.shown promiseEvents (create ComposePromise.echo true) (.call :: moved) =
        [.call, .suspend, .complete 7] ∧
      ComposePromise.machine.run (.create ComposePromise.echo true)
        [.call, .suspend, .complete 7] = some s.promise := by
  obtain ⟨runs, -⟩ := promise_simulated ComposePromise.echo true (.call :: moved) _ rfl
  exact ⟨_, rfl, rfl, runs⟩

/-- A called coroutine's frame has one owner, or was destroyed once, and is resumed only
where it is suspended. At most one thing was given to `post` or `dispatch`: the handler
with the returned tuple, exactly if the body returned, or the exception, exactly if it
threw; and then the frame is destroyed. A completion that is destroyed before it was
invoked ends it without either, and the body does not advance. -/
theorem one_outcome (body : Body A R) (onExecutor : Bool) (events : List (Event A))
    (s : ComposeFrame A R) (ran : machine.run (create body onExecutor) (.call :: events) = some s) :
    s.stray = 0 ∧ s.destructions + s.owners = 1 ∧ s.promise.given.length ≤ 1 ∧
      (∀ result, .complete result ∈ s.promise.given ↔
        body.after s.values = some (.coReturn result)) ∧
      (∀ ex, .rethrow ex ∈ s.promise.given ↔ body.after s.values = some (.throw ex)) ∧
      (s.promise.given ≠ [] → s.destructions = 1) ∧
      ∀ k gone next, s.completions[k]? = some gone → gone.spent = false →
        machine.step s (.destroy k) = some next →
        ∀ more last, machine.run next more = some last →
          last.values = s.values ∧ last.promise.given = [] ∧ last.destructions = 1 := by
  obtain ⟨called, stepped, following⟩ := machine.run_cons.mp ran
  have single : Single body s :=
    machine.run_invariant (step_single body) (call_single body onExecutor stepped) following
  have given := single.given
  refine ⟨single.stray, ?_, ?_, ?_, ?_, ?_, ?_⟩
  · cases single.place with
    | awaiting next phase owners destructions => omega
    | destroyed phase owners destructions => omega
  · rw [given]
    cases body.outcome s.values <;> simp
  · intro result
    simp only [given, Option.mem_toList, Body.outcome_complete]
  · intro ex
    simp only [given, Option.mem_toList, Body.outcome_rethrow]
  · intro handed
    cases single.place with
    | awaiting next phase owners destructions completion result none => exact absurd none handed
    | destroyed phase owners destructions => exact destructions
  · intro k gone next found fresh dropped more last rest
    have owns : gone.coroHandle = true := by
      have law := single.spent gone (List.mem_of_getElem? found)
      simpa [fresh] using law
    obtain ⟨-, -, -, -, -, awaited, reached, -⟩ := single.place.owned found owns
    obtain ⟨promise, one⟩ := single.drop found owns
    have same : { s with completions := s.completions.eraseIdx k }.destroy = next := by
      simpa [machine, step, found, owns] using dropped
    rw [same] at promise one
    have destroyed : next.promise.phase = .destroyed := by
      rw [promise]
      rfl
    obtain ⟨after, gone, still⟩ := run_destroyed one destroyed rest
    have values : last.values = s.values := by
      rw [still, ← same]
      rfl
    have unfinished : body.outcome last.values = none := by
      simp [values, Body.outcome, reached, Body.ends]
    refine ⟨values, by simp [after.given, unfinished], ?_⟩
    cases after.place with
    | awaiting _ phase => rcases phase with other | other <;> cases gone.symm.trans other
    | destroyed _ _ destructions => exact destructions

theorem one_outcome_moved :
    ∃ s, machine.run (create ComposePromise.echo true) (.call :: moved) = some s ∧
      s.promise.invoked = [(7, true)] ∧ s.destructions + s.owners = 1 ∧ s.destructions = 1 := by
  obtain ⟨-, single, -, -, -, ended, -⟩ :=
    one_outcome ComposePromise.echo true moved _ rfl
  exact ⟨_, rfl, rfl, single, ended (List.cons_ne_nil _ _)⟩

end ComposeFrame

end Asioex
