import Asioex.MutexExclusion

/-!
# What `try_lock` tells its caller

`try_lock` returns the flag's old value, so it answers true when the lock was held
already and false when it has just been taken. `null_mutex::try_lock` answers true
for a lock taken, as a lockable type does.

`Agrees` ties the answers and the completions to the flag. A client knows that it
holds once it was told, or once its completion with success is posted: the path of
`async_lock` that does not suspend sets the flag before the posted function tells
the client so. Every call of `try_lock` breaks `Agrees`, whatever the flag was, and
a run without such a call keeps it.
-/

namespace Asioex.MutexRun

/-- A client that was told, or whose completion with success is posted. -/
def Knows (s : MutexRun) (client : Client) : Prop :=
  s.told client = true ∨ ∃ p, client = .operation p ∧ 0 < s.mutex.promised p

/-- The flag, the holders and what the clients were told agree across one step. -/
structure Agrees (s : MutexRun) (event : Event) (next : MutexRun) : Prop where
  exclusive : ∀ first second, next.Holds first → next.Holds second → first = second
  acquired : event = .tryLock → s.mutex.tryLock.1 = true →
    s.mutex.locked = false ∧ next.mutex.locked = true
  refused : event = .tryLock → s.mutex.tryLock.1 = false →
    next.mutex = s.mutex ∧ ∃ client, s.Holds client
  known : next.mutex.locked = true → ∃ client, next.Holds client ∧ next.Knows client

/-- No call of `try_lock` agrees: true is the answer when the flag was set before,
and false the answer when the call sets it. -/
theorem tryLock_disagrees {s next : MutexRun} (stepped : machine.step s .tryLock = some next) :
    ¬Agrees s .tryLock next := by
  obtain rfl := Option.some.inj stepped
  intro agrees
  cases flag : s.mutex.locked with
  | true =>
    have clear := (agrees.acquired rfl flag).1
    exact absurd (flag.symm.trans clear) (by decide)
  | false =>
    have same : s.mutex.tryLock.2 = s.mutex := (agrees.refused rfl flag).1
    have set : s.mutex.locked = true := by
      rw [← same]
      rfl
    exact absurd (flag.symm.trans set) (by decide)

/-- The owner of the flag knows: its pass was answered, or its answer is posted. -/
theorem Exclusive.owner_knows {s : MutexRun} {p : Nat} (exclusive : s.Exclusive (some p))
    (locking : s.Locking) : s.Knows (.operation p) := by
  have passes := exclusive.passes p
  rw [if_pos rfl] at passes
  have passed : p ∈ s.mutex.passed := List.count_pos_iff.mp (by omega)
  have attempt := locking.uses p (locking.sound.bound_of_passed passed)
  have answered := locking.sound.answered p
  rw [attempt, Option.isSome_some, if_pos rfl] at answered
  by_cases promised : 0 < s.mutex.promised p
  · exact .inr ⟨p, rfl, promised⟩
  · have succeeded : 0 < s.mutex.succeeded p := by omega
    have invoked : (p, ErrorCode.success) ∈ s.mutex.invoked := List.count_pos_iff.mp succeeded
    exact .inl (by simpa [MutexRun.told] using invoked)

/-- Every other step of a guarded mutex agrees. -/
theorem Guarded.agrees {s next : MutexRun} {event : Event} (guarded : s.Guarded)
    (other : event ≠ .tryLock) (stepped : machine.step s event = some next) :
    Agrees s event next := by
  obtain ⟨locking, owner, exclusive⟩ := step_guarded s event next guarded stepped other
  refine ⟨fun first second holds holds' => ?_, fun called => absurd called other,
    fun called => absurd called other, fun set => ?_⟩
  · obtain ⟨p, rfl, owns⟩ := (exclusive.holds_iff first).mp holds
    obtain ⟨q, rfl, owns'⟩ := (exclusive.holds_iff second).mp holds'
    rw [Option.some.inj (owns.symm.trans owns')]
  · rw [exclusive.locked] at set
    obtain ⟨p, rfl⟩ := Option.isSome_iff_exists.mp set
    exact ⟨.operation p, (exclusive.holds_operation p).mpr rfl, exclusive.owner_knows locking⟩

/-- The answers agree with ownership along a run exactly when it never calls
`try_lock`. -/
theorem try_lock_agrees_iff (exec : Executor) (order : Nat → PostOrder) (events : List Event)
    (last : MutexRun) (ran : machine.run (start exec order) events = some last) :
    machine.Along Agrees (start exec order) events ↔ .tryLock ∉ events := by
  have agree (s : MutexRun) (event : Event) (next : MutexRun) (_ : True) (guarded : s.Guarded)
      (stepped : machine.step s event = some next) : Agrees s event next ↔ event ≠ .tryLock := by
    constructor
    · rintro agrees rfl
      exact tryLock_disagrees stepped agrees
    · exact fun other => guarded.agrees other stepped
  rw [machine.along_iff agree (fun s event next _ => step_guarded s event next) events
    (fun _ _ => trivial) (start_guarded exec order), machine.along_events ran]
  constructor
  · exact fun others called => others .tryLock called rfl
  · rintro untried event member rfl
    exact untried member

theorem try_lock_agrees_iff_contended :
    ∃ last, machine.run (start 0 leftToRight) contended = some last ∧
      (machine.Along Agrees (start 0 leftToRight) contended ↔ .tryLock ∉ contended) ∧
      .tryLock ∉ contended :=
  ⟨_, rfl, try_lock_agrees_iff 0 leftToRight contended _ rfl, by decide⟩

/-- On a mutex that nobody holds, `try_lock` takes the lock and answers false: the
state has changed, nobody held before, nobody holds after, and nobody can unlock. -/
theorem try_lock_refuses_a_free_lock :
    ∃ next, machine.step (start 0 leftToRight) .tryLock = some next ∧
      (start 0 leftToRight).mutex.locked = false ∧ next.answers = [false] ∧ next.mutex.locked = true ∧
      (∀ client, ¬(start 0 leftToRight).Holds client) ∧ (∀ client, ¬next.Holds client) ∧
      ¬machine.Along Agrees (start 0 leftToRight) [.tryLock] := by
  refine ⟨_, rfl, rfl, rfl, rfl, ?_, ?_, fun along => ?_⟩
  · rintro (p | k) <;> simp [Holds, start, Mutex.create, ComposedWait.create]
  · rintro (p | k)
    · simp [Holds, start, Mutex.create, Mutex.tryLock, ComposedWait.setGate, ComposedWait.create]
    · cases k <;> simp [Holds, start, Mutex.create, Mutex.tryLock, Mutex.locked, ComposedWait.create]
  · exact tryLock_disagrees rfl (along _ rfl).1

end Asioex.MutexRun
