import Asioex.LockGuard
import Asioex.Lib.Handles

/-!
# Guards that move

Any number of mutexes are locked through `async_guard` only, and outlive their guards and
the operations that wait on them. A guard is made by the lambda of `async_guard`, when its
lock is acquired; it is moved from, assigned to and destroyed in any order, while the
executor runs what the mutexes posted.

An acquisition is a success with which the lambda is called. The lambda makes a guard for
its mutex whatever it is called with; there are no errors here, since the lambda is not
connected to a cancellation slot.
-/

namespace Asioex

namespace LockGuard

variable {M : Type}

/-- `basic_lock_guard(basic_lock_guard &&lhs)`: the new guard, and `lhs` after it. -/
def moveConstruct (lhs : LockGuard M) : LockGuard M × LockGuard M := (⟨lhs.mtx⟩, ⟨none⟩)

/-- `operator=(basic_lock_guard &&lhs)`: `std::swap(lhs.mtx_, mtx_)`, of two guards among
others, which may be the same one. -/
def moveAssign (guards : List (LockGuard M)) (k j : Nat) (this lhs : LockGuard M) :
    List (LockGuard M) :=
  (guards.set j ⟨this.mtx⟩).set k ⟨lhs.mtx⟩

end LockGuard

/-- Mutexes and the guards that are alive, with the acquisitions and the calls of `unlock`
so far, in order. -/
structure MovingGuards (M : Type) where
  locks : M → Mutex
  guards : List (LockGuard M)
  acquired : List M
  unlocks : List M

namespace MovingGuards

variable {M : Type} [DecidableEq M]

def start (exec : M → Executor) (order : M → Nat → PostOrder) : MovingGuards M :=
  ⟨fun m => .create (exec m) (order m), [], [], []⟩

/-- A mutex after a step, the guards that the lambda made in it, and the acquisitions. -/
def advance (s : MovingGuards M) (m : M) (next : Mutex) : MovingGuards M :=
  let completed := next.invoked.drop (s.locks m).invoked.length
  { s with
    locks := Function.update s.locks m next
    guards := s.guards ++ completed.map (fun _ => .create m)
    acquired := s.acquired ++
      completed.filterMap (fun entry => if entry.2 = .success then some m else none) }

/-- `~basic_lock_guard`: `if (mtx_) mtx_->unlock();`. -/
def destroyGuard (s : MovingGuards M) (guard : LockGuard M) : MovingGuards M :=
  match guard.mtx with
  | none => s
  | some m =>
    { s with
      locks := Function.update s.locks m (s.locks m).unlock
      unlocks := s.unlocks ++ [m] }

inductive Event (M : Type) where
  | asyncGuard (m : M)
  | run (m : M) (k : Nat)
  | moveConstruct (lhs : Nat)
  | moveAssign (this lhs : Nat)
  | destroyGuard (k : Nat)
deriving DecidableEq, Repr

/-- Guards are named by their places among those that are alive. -/
def step (s : MovingGuards M) : Event M → Option (MovingGuards M)
  | .asyncGuard m => some (s.advance m ((s.locks m).asyncLock none false))
  | .run m k => (ComposedWait.machine.step (s.locks m) (.run k)).map (s.advance m)
  | .moveConstruct k =>
    s.guards[k]?.map (fun lhs =>
      { s with guards := s.guards.set k lhs.moveConstruct.2 ++ [lhs.moveConstruct.1] })
  | .moveAssign k j =>
    s.guards[k]?.bind (fun this =>
      s.guards[j]?.map (fun lhs =>
        { s with guards := LockGuard.moveAssign s.guards k j this lhs }))
  | .destroyGuard k =>
    s.guards[k]?.map (fun guard => { s with guards := s.guards.eraseIdx k }.destroyGuard guard)

def machine : Machine (MovingGuards M) (Event M) := ⟨step⟩

/-- What the guards that are alive own. -/
def owned (s : MovingGuards M) : List M := s.guards.filterMap LockGuard.mtx

end MovingGuards

namespace ComposedWait

variable {γ : Type}

/-- Every operation was called with success, and will be. -/
structure Granting (s : ComposedWait γ) : Prop where
  codes : ∀ job ∈ s.queue, ∀ ec, job.call = .resume ec → ec = .success
  outcomes : ∀ entry ∈ s.invoked, entry.2 = .success

namespace Granting

variable {s : ComposedWait γ} (granting : s.Granting)
include granting

theorem enqueue {result : Semaphore × List Posted}
    (granted : ∀ item ∈ result.2, item.ec = .success) : (s.enqueue result).Granting where
  codes := by
    intro job member ec call
    cases List.mem_append.mp member with
    | inl earlier => exact granting.codes job earlier ec call
    | inr posted =>
      obtain ⟨item, fresh, rfl⟩ := List.mem_map.mp posted
      exact (Call.resume.inj call).symm.trans (granted item fresh)
  outcomes := granting.outcomes

theorem invoke (p : Nat) : (s.invoke p .success).Granting where
  codes := granting.codes
  outcomes := by
    intro entry member
    cases List.mem_append.mp member with
    | inl earlier => exact granting.outcomes entry earlier
    | inr newest => rw [List.mem_singleton.mp newest]

theorem postFinish (p : Nat) : (s.postFinish p).Granting where
  codes := by
    intro job member ec call
    cases List.mem_append.mp member with
    | inl earlier => exact granting.codes job earlier ec call
    | inr newest =>
      obtain rfl := List.mem_singleton.mp newest
      cases call
  outcomes := granting.outcomes

theorem acquire (p : Nat) : (s.acquire p).Granting := by
  refine granting.enqueue fun item member => ?_
  unfold Semaphore.asyncAcquire at member
  split at member
  · exact List.mem_singleton.mp member ▸ rfl
  · cases member

/-- The lambda, called with success, posts and invokes successes only. -/
theorem body (attempt : γ → Option γ) (p : Nat) : (s.body attempt p .success).Granting := by
  have untouched (gate : γ) : (s.pass p gate).Granting := ⟨granting.codes, granting.outcomes⟩
  have suspended : (s.suspend p).Granting := ⟨granting.codes, granting.outcomes⟩
  rcases s.body_cases attempt p .success with ⟨error, -⟩ | ⟨gate, -, -, same | same⟩ | ⟨-, -, same⟩
  · simp at error
  · exact same ▸ (untouched gate).invoke p
  · exact same ▸ (untouched gate).postFinish p
  · exact same ▸ suspended.acquire p

/-- A function that was posted with success does so too. -/
theorem run {k : Nat} {next : ComposedWait γ} (stepped : machine.step s (.run k) = some next) :
    next.Granting := by
  obtain ⟨job, queued, rfl⟩ := Option.map_eq_some_iff.mp stepped
  have rest : (s.dequeue k).Granting :=
    ⟨fun other member => granting.codes other (List.mem_of_mem_eraseIdx member), granting.outcomes⟩
  cases call : job.call with
  | finish =>
    simp only [execute, call]
    exact rest.invoke job.op
  | resume ec =>
    obtain rfl := granting.codes job (List.mem_of_getElem? queued) ec call
    simp only [execute, call, resume]
    split
    · exact rest.invoke job.op
    · exact rest.body _ job.op

end Granting

end ComposedWait

/-- A mutex that was acquired and unlocked so often. Its handlers are called with success, its
tests that passed were unlocked or set the flag, and the acquisitions are among them. -/
structure Mutex.Served (mutex : Mutex) (acquired unlocked : Nat) : Prop where
  sound : mutex.Sound
  uses : mutex.Uses (· = some lockAttempt)
  granting : mutex.Granting
  passes : mutex.passed.length = unlocked + if mutex.locked then 1 else 0
  acquired : mutex.invoked.length = acquired

namespace Mutex

theorem create_served (exec : Executor) (order : Nat → PostOrder) :
    (create exec order).Served 0 0 where
  sound := ComposedWait.create_sound false exec order _ (by decide)
  uses := by simp [create, ComposedWait.create, ComposedWait.Uses]
  granting := ⟨by simp [create, ComposedWait.create], by simp [create, ComposedWait.create]⟩
  passes := rfl
  acquired := rfl

/-- The initiation of a lock calls no lambda. -/
theorem asyncLock_silent (mutex : Mutex) : (mutex.asyncLock none false).invoked = mutex.invoked :=
  mutex.initiate_invoked none false (some lockAttempt)

namespace Served

variable {mutex next : Mutex} {acquired unlocked : Nat} (served : mutex.Served acquired unlocked)
include served

/-- A test that passes finds the flag clear, and sets it. -/
theorem tested (sound : next.Sound) (uses : next.Uses (· = some lockAttempt))
    (tested : ComposedWait.Tested mutex next) :
    next.passed.length = unlocked + if next.locked then 1 else 0 := by
  have before := served.passes
  cases tested with
  | untouched gate passed =>
    have same : next.locked = mutex.locked := gate
    rw [passed, before, same]
  | passes p attempt tested opened passed =>
    have member : p ∈ next.passed := passed ▸ List.mem_append_right _ (List.mem_singleton_self p)
    have locks : attempt = lockAttempt :=
      Option.some.inj (tested.symm.trans (uses p (sound.bound_of_passed member)))
    subst locks
    obtain ⟨clear, set⟩ := lockAttempt_passes opened
    simp only [locked, clear] at before
    rw [passed, List.length_append, before]
    simp [locked, set]

theorem asyncLock : (mutex.asyncLock none false).Served acquired unlocked := by
  have initiated : ComposedWait.machine.step mutex (.initiate none false (some lockAttempt)) =
      some (mutex.asyncLock none false) := rfl
  have sound := ComposedWait.step_sound _ _ _ served.sound initiated
  have uses := ComposedWait.step_uses served.uses (by simp) initiated
  have registered : (mutex.register none false (some lockAttempt)).Granting :=
    ⟨served.granting.codes, served.granting.outcomes⟩
  have tested := mutex.initiate_tested none false (some lockAttempt)
  refine ⟨sound, uses, registered.body _ _, served.tested sound uses tested, ?_⟩
  exact (congrArg List.length mutex.asyncLock_silent).trans served.acquired

/-- A run of a posted function, whatever it invokes. -/
theorem run {k : Nat} (stepped : ComposedWait.machine.step mutex (.run k) = some next) :
    next.Served next.invoked.length unlocked := by
  have sound := ComposedWait.step_sound _ _ _ served.sound stepped
  have uses := ComposedWait.step_uses served.uses (by simp) stepped
  have tested := ComposedWait.step_tested (by simp) stepped
  exact ⟨sound, uses, served.granting.run stepped, served.tested sound uses tested, rfl⟩

/-- An acquisition is an operation that passed its test. -/
theorem acquired_le : acquired ≤ unlocked + if mutex.locked then 1 else 0 := by
  have each (p : Nat) (member : p ∈ mutex.invoked.map Prod.fst) :
      (mutex.invoked.map Prod.fst).count p ≤ mutex.passed.count p := by
    obtain ⟨⟨q, ec⟩, invoked, rfl⟩ := List.mem_map.mp member
    have tested : ((mutex.ops q).attempt).isSome = true := by
      rw [served.uses q (served.sound.bound_of_invoked invoked)]
      rfl
    have answered := served.sound.answered q
    rw [if_pos tested] at answered
    have succeeds : (mutex.invoked.map Prod.fst).count q = mutex.succeeded q := by
      rw [ComposedWait.succeeded, List.count_eq_countP, List.countP_map, List.count_eq_countP]
      refine List.countP_congr fun other present => ?_
      have success := served.granting.outcomes other present
      simp [Prod.ext_iff, success]
    change (mutex.invoked.map Prod.fst).count q ≤ mutex.passed.count q
    omega
  have fewer := (List.subperm_ext_iff.mpr each).length_le
  rw [List.length_map, served.acquired, served.passes] at fewer
  exact fewer

/-- An unlock of what was acquired clears the flag, and posts successes only. -/
theorem unlock (owed : unlocked < acquired) :
    mutex.locked = true ∧ mutex.unlock.Served acquired (unlocked + 1) := by
  have bound := served.acquired_le
  have flag : mutex.locked = true := by
    by_contra clear
    rw [if_neg clear] at bound
    omega
  have completes := mutex.semaphore.release_completes
  have cleared := ComposedWait.step_sound _ (.setGate false) _ served.sound rfl
  have sound := ComposedWait.step_sound _ .release _ cleared rfl
  have granting : mutex.unlock.Granting := by
    have untouched : (mutex.setGate false).Granting :=
      ⟨served.granting.codes, served.granting.outcomes⟩
    refine untouched.enqueue fun item member => ?_
    obtain ⟨op, -, rfl⟩ := completes.source item member
    rfl
  refine ⟨flag, sound, served.uses, granting, ?_, served.acquired⟩
  have passes := served.passes
  rw [if_pos flag] at passes
  exact passes

end Served

end Mutex

namespace MovingGuards

variable {M : Type} [DecidableEq M]

/-- The guards as handles, which take acquisitions and give back unlocks. -/
def handles (s : MovingGuards M) : Handles M := ⟨s.guards.map LockGuard.mtx, s.acquired, s.unlocks⟩

omit [DecidableEq M] in
theorem held_handles (s : MovingGuards M) : s.handles.held = s.owned := by
  simp [Handles.held, handles, owned, List.reduceOption, List.filterMap_map]

section Advance

variable {s : MovingGuards M} {m : M} {next : Mutex}

/-- A step of a mutex that calls no lambda makes no guard. -/
theorem advance_silent (silent : next.invoked = (s.locks m).invoked) :
    s.advance m next = { s with locks := Function.update s.locks m next } := by
  simp [advance, silent]

/-- A step that calls a lambda with success makes its guard. -/
theorem advance_granted {p : Nat} (grown : next.invoked = (s.locks m).invoked ++ [(p, .success)]) :
    s.advance m next =
      { s with
        locks := Function.update s.locks m next
        guards := s.guards ++ [.create m]
        acquired := s.acquired ++ [m] } := by
  simp [advance, grown]

end Advance

/-- Every mutex was acquired and unlocked as its guards say. -/
structure Ordered (s : MovingGuards M) : Prop where
  served : ∀ m, (s.locks m).Served (s.acquired.count m) (s.unlocks.count m)
  balanced : s.handles.Balanced

theorem start_ordered (exec : M → Executor) (order : M → Nat → PostOrder) :
    (start exec order).Ordered where
  served := fun m => Mutex.create_served (exec m) (order m)
  balanced := Handles.create_balanced

/-- A run of a posted function calls no lambda, or one with success. -/
theorem run_grants {mutex next : Mutex} (granting : mutex.Granting) {k : Nat}
    (stepped : ComposedWait.machine.step mutex (.run k) = some next) :
    next.invoked = mutex.invoked ∨ ∃ p, next.invoked = mutex.invoked ++ [(p, .success)] := by
  cases ComposedWait.step_invoked stepped with
  | inl silent => exact .inl silent
  | inr invokes =>
    obtain ⟨j, job, ec, -, invokes⟩ := invokes
    have member : (job.op, ec) ∈ next.invoked := by
      rw [invokes.invoked]
      exact List.mem_append_right _ (List.mem_singleton_self _)
    have success : ec = .success := (granting.run stepped).outcomes _ member
    exact .inr ⟨job.op, success ▸ invokes.invoked⟩

/-- What a step does: a mutex works on, or calls a lambda with success; guards are moved, or
destroyed without a mutex; or one that owns a mutex is destroyed. -/
inductive Stepped (s : MovingGuards M) : MovingGuards M → Prop where
  | worked (m : M) (mutex : Mutex)
      (served : mutex.Served (s.acquired.count m) (s.unlocks.count m)) :
      Stepped s { s with locks := Function.update s.locks m mutex }
  | granted (m : M) (mutex : Mutex)
      (served : mutex.Served (s.acquired.count m + 1) (s.unlocks.count m)) :
      Stepped s
        { s with
          locks := Function.update s.locks m mutex
          guards := s.guards ++ [.create m]
          acquired := s.acquired ++ [m] }
  | moved (action : Handles.Action M) (guards : List (LockGuard M))
      (acted : Handles.machine.step s.handles action =
        some ({ s with guards := guards } : MovingGuards M).handles) :
      Stepped s { s with guards := guards }
  | unlocked (k : Nat) (m : M) (found : s.guards[k]? = some ⟨some m⟩) :
      Stepped s
        { s with
          locks := Function.update s.locks m (s.locks m).unlock
          guards := s.guards.eraseIdx k
          unlocks := s.unlocks ++ [m] }

/-- Every step does one of these. -/
theorem Ordered.stepped {s next : MovingGuards M} {event : Event M} (ordered : s.Ordered)
    (taken : machine.step s event = some next) : Stepped s next := by
  cases event with
  | asyncGuard m =>
    obtain rfl := Option.some.inj taken
    rw [advance_silent (Mutex.asyncLock_silent _)]
    exact .worked m _ (ordered.served m).asyncLock
  | run m k =>
    obtain ⟨mutex, ran, rfl⟩ := Option.map_eq_some_iff.mp taken
    have after := (ordered.served m).run ran
    have acquired := (ordered.served m).acquired
    cases run_grants (ordered.served m).granting ran with
    | inl silent =>
      rw [silent, acquired] at after
      rw [advance_silent silent]
      exact .worked m mutex after
    | inr grown =>
      obtain ⟨p, grown⟩ := grown
      rw [grown, List.length_append, acquired, List.length_singleton] at after
      rw [advance_granted grown]
      exact .granted m mutex after
  | moveConstruct k =>
    obtain ⟨lhs, found, rfl⟩ := Option.map_eq_some_iff.mp taken
    refine .moved (.construct k) _ ?_
    simp [Handles.machine, Handles.step, handles, found, LockGuard.moveConstruct, List.map_set]
  | moveAssign k j =>
    obtain ⟨this, there, assigned⟩ := Option.bind_eq_some_iff.mp taken
    obtain ⟨lhs, here, rfl⟩ := Option.map_eq_some_iff.mp assigned
    refine .moved (.assign k j) _ ?_
    simp [Handles.machine, Handles.step, handles, there, here, LockGuard.moveAssign, List.map_set]
  | destroyGuard k =>
    obtain ⟨guard, found, rfl⟩ := Option.map_eq_some_iff.mp taken
    cases owner : guard.mtx with
    | none =>
      simp only [destroyGuard, owner]
      refine .moved (.drop k) _ ?_
      simp [Handles.machine, Handles.step, handles, found, owner, List.eraseIdx_map]
    | some m =>
      simp only [destroyGuard, owner]
      exact .unlocked k m (by rw [found, ← owner])

/-- What happens to guards is what happens to handles: they take what is acquired, and moves
and destructions are the handles' own. -/
theorem Stepped.refines {s next : MovingGuards M} (stepped : Stepped s next) :
    next.handles = s.handles ∨
      ∃ action, Handles.machine.step s.handles action = some next.handles := by
  cases stepped with
  | worked m mutex served => exact .inl rfl
  | granted m mutex served =>
    exact .inr ⟨.take m, by simp [Handles.machine, Handles.step, handles, LockGuard.create]⟩
  | moved action guards acted => exact .inr ⟨action, acted⟩
  | unlocked k m found =>
    refine .inr ⟨.drop k, ?_⟩
    simp [Handles.machine, Handles.step, handles, found, List.eraseIdx_map]

/-- An acquisition was unlocked or is owned. -/
theorem Ordered.count {s : MovingGuards M} (ordered : s.Ordered) (m : M) :
    s.acquired.count m = s.unlocks.count m + s.owned.count m := by
  have same := List.Perm.count_eq ordered.balanced m
  rwa [List.count_append, held_handles] at same

/-- A guard that owns a mutex owes it an unlock. -/
theorem Ordered.owed {s : MovingGuards M} (ordered : s.Ordered) {m : M} (owns : m ∈ s.owned) :
    s.unlocks.count m < s.acquired.count m := by
  have positive : 0 < s.owned.count m := List.count_pos_iff.mpr owns
  have count := ordered.count m
  omega

/-- A step of one mutex leaves the others in order. -/
theorem Ordered.update {s : MovingGuards M} (ordered : s.Ordered) {m : M} {mutex : Mutex}
    {acquired unlocks : List M} (mine : mutex.Served (acquired.count m) (unlocks.count m))
    (others : ∀ other, other ≠ m → acquired.count other = s.acquired.count other ∧
      unlocks.count other = s.unlocks.count other) (other : M) :
    (Function.update s.locks m mutex other).Served (acquired.count other) (unlocks.count other) := by
  by_cases same : other = m
  · subst same
    rw [Function.update_self]
    exact mine
  · obtain ⟨acquisitions, releases⟩ := others other same
    rw [Function.update_of_ne same, acquisitions, releases]
    exact ordered.served other

/-- One more element of a list is one more of its own kind. -/
theorem count_snoc (list : List M) (m : M) :
    (list ++ [m]).count m = list.count m + 1 ∧
      ∀ other, other ≠ m → (list ++ [m]).count other = list.count other := by
  constructor
  · simp
  · intro other different
    simp [different.symm]

omit [DecidableEq M] in
/-- A guard at a place among those that are alive owns what it points to. -/
theorem owned_of_found {s : MovingGuards M} {k : Nat} {m : M}
    (found : s.guards[k]? = some ⟨some m⟩) : m ∈ s.owned :=
  List.mem_filterMap.mpr ⟨⟨some m⟩, List.mem_of_getElem? found, rfl⟩

/-- Every step keeps the mutexes and their guards in order. -/
theorem step_ordered (s : MovingGuards M) (event : Event M) (next : MovingGuards M)
    (ordered : s.Ordered) (taken : machine.step s event = some next) : next.Ordered := by
  have stepped := ordered.stepped taken
  have balanced : next.handles.Balanced := by
    cases stepped.refines with
    | inl same => exact same ▸ ordered.balanced
    | inr moved =>
      obtain ⟨action, acted⟩ := moved
      exact Handles.step_balanced _ action _ ordered.balanced acted
  refine ⟨?_, balanced⟩
  cases stepped with
  | worked m mutex served => exact ordered.update served (fun _ _ => ⟨rfl, rfl⟩)
  | granted m mutex served =>
    obtain ⟨more, same⟩ := count_snoc s.acquired m
    rw [← more] at served
    exact ordered.update served (fun other different => ⟨same other different, rfl⟩)
  | moved action guards acted => exact ordered.served
  | unlocked k m found =>
    obtain ⟨-, served⟩ := (ordered.served m).unlock (ordered.owed (owned_of_found found))
    obtain ⟨more, same⟩ := count_snoc s.unlocks m
    rw [← more] at served
    exact ordered.update served (fun other different => ⟨rfl, same other different⟩)

/-- Only a guard that owns a mutex unlocks it. -/
theorem Stepped.unlocks {s next : MovingGuards M} (stepped : Stepped s next) :
    next.unlocks = s.unlocks ∨ ∃ m ∈ s.owned, next.unlocks = s.unlocks ++ [m] := by
  cases stepped with
  | worked m mutex served => exact .inl rfl
  | granted m mutex served => exact .inl rfl
  | moved action guards acted => exact .inl rfl
  | unlocked k m found => exact .inr ⟨m, owned_of_found found, rfl⟩

/-- In every run, the guards that are alive own what was acquired and has not been unlocked,
once, and nothing else. When none are left, every acquisition was unlocked once. A mutex is
unlocked only when it was acquired and has not been unlocked since. -/
theorem ownership_linear {exec : M → Executor} {order : M → Nat → PostOrder}
    {events : List (Event M)} {s : MovingGuards M}
    (ran : machine.run (start exec order) events = some s) :
    (∀ m, s.owned.count m = if s.unlocks.count m < s.acquired.count m then 1 else 0) ∧
      (∀ m, s.acquired.count m = s.unlocks.count m + s.owned.count m) ∧
      (s.guards = [] → ∀ m, s.unlocks.count m = s.acquired.count m) ∧
      ∀ event next, machine.step s event = some next →
        next.unlocks = s.unlocks ∨
          ∃ m, next.unlocks = s.unlocks ++ [m] ∧ s.unlocks.count m < s.acquired.count m ∧
            (s.locks m).locked = true := by
  have ordered := machine.run_invariant step_ordered (start_ordered exec order) ran
  refine ⟨fun m => ?_, ordered.count, fun gone m => ?_, fun event next taken => ?_⟩
  · have count := ordered.count m
    have bound := (ordered.served m).acquired_le
    split at bound <;> split <;> omega
  · have count := ordered.count m
    rw [owned, gone] at count
    simpa using count.symm
  · cases (ordered.stepped taken).unlocks with
    | inl same => exact .inl same
    | inr unlocks =>
      obtain ⟨m, owns, more⟩ := unlocks
      have owed := ordered.owed owns
      exact .inr ⟨m, more, owed, ((ordered.served m).unlock owed).1⟩

/-- Two guards: one is assigned to the other, and to itself, and moved from; all three are
destroyed. -/
def shuffled : List (Event Bool) :=
  [.asyncGuard true, .asyncGuard false, .run true 0, .run false 0, .moveAssign 0 1,
    .moveAssign 0 0, .moveConstruct 0, .destroyGuard 1, .destroyGuard 0, .destroyGuard 0]

theorem ownership_linear_shuffled : ∃ s,
    machine.run (start (fun _ => 0) (fun _ => leftToRight)) shuffled = some s ∧ s.guards = [] ∧
      s.acquired = [true, false] ∧ s.unlocks = [true, false] ∧
        ∀ m, s.unlocks.count m = s.acquired.count m := by
  refine ⟨_, rfl, rfl, rfl, rfl, ?_⟩
  exact (@ownership_linear Bool _ (fun _ => 0) (fun _ => leftToRight) shuffled _ rfl).2.2.1 rfl

end MovingGuards

end Asioex
