import Asioex.AsyncOp
import Asioex.SemaphoreRuns

/-!
# The memory of waiting operations

`semaphore_wait_op_model` over handlers of any type: an acquire that has to wait
allocates its operation with the handler's allocator, and `complete` frees it on every
path that ends a wait. What the semaphore does otherwise is taken from its runs. Here
each operation in the ring has an object in memory, which the acquire that linked it
constructed from its handler.

`complete` moves the handler out of the operation and then destroys the operation,
which asks the handler that is left for the allocator. The accessor calls that it makes
are recorded, with whether the handler was moved from and whether an assertion failed.
A failed assertion does not stop the model: the allocator is then unknown. The work
guard keeps the executor, so that the handler is not asked for it again.
-/

namespace Asioex

/-- A handler variable: what it holds, and whether it has been moved from. -/
structure HandlerVariable (H : Type) where
  value : H
  moved : Bool
deriving DecidableEq, Repr

/-- The associations that the library asks a handler for. -/
inductive Accessor where
  | executor
  | allocator
  | cancellationSlot
deriving DecidableEq, Repr

/-- A call of an accessor on a handler variable. -/
structure Consultation where
  accessor : Accessor
  moved : Bool
  answered : Bool
deriving DecidableEq, Repr

/-- What is left of an operation that was completed: which acquire it was, the allocator
that its memory came from, the one that it was given back with, and the accessors that
were called on the way. -/
structure EndedOp (A : Type) where
  ticket : Nat
  made : A
  freed : Option A
  consulted : List Consultation
deriving DecidableEq, Repr

namespace EndedOp

variable {A : Type}

/-- The memory went back to the allocator that it came from, and no assertion failed. -/
def FreedAsMade (op : EndedOp A) : Prop :=
  op.freed = some op.made ∧ ∀ consultation ∈ op.consulted, consultation.answered = true

/-- No accessor was called once the handler had been moved out. -/
def Unconsulted (op : EndedOp A) : Prop :=
  ∀ consultation ∈ op.consulted, consultation.moved = false

end EndedOp

/-- `semaphore_wait_op_model`: its handler, and the allocator that its memory came from. -/
structure WaitOpModel (H A : Type) where
  handler : HandlerVariable H
  pmem : A
deriving DecidableEq, Repr

namespace WaitOpModel

variable {H A : Type} (type : HandlerType H A)

/-- `construct`: the memory is allocated before the handler is moved into it. -/
def construct (handler : H) : Option (WaitOpModel H A) :=
  (type.getAssociatedAllocator handler).map (fun halloc => ⟨⟨handler, false⟩, halloc⟩)

/-- `get_allocator` -/
def getAllocator (self : WaitOpModel H A) : Option A × Consultation :=
  let allocator := type.getAssociatedAllocator self.handler.value
  (allocator, ⟨.allocator, self.handler.moved, allocator.isSome⟩)

/-- `get_cancellation_slot`, without the slot itself: the accessor's call. -/
def getCancellationSlot (self : WaitOpModel H A) : Consultation :=
  ⟨.cancellationSlot, self.handler.moved, (type.slot self.handler.value).answers⟩

/-- `std::move(handler_)`, into another handler variable. -/
def moveHandler (self : WaitOpModel H A) : H × WaitOpModel H A :=
  (self.handler.value, { self with handler := ⟨type.movedFrom self.handler.value, true⟩ })

/-- `destroy`: the memory is given back with the allocator of the handler. -/
def destroy (self : WaitOpModel H A) : Option A × Consultation := self.getAllocator type

/-- `complete`: the slot is cleared, the handler is moved out, and the operation is
destroyed before the handler is posted. -/
def complete (ticket : Nat) (self : WaitOpModel H A) : EndedOp A :=
  let clearing := self.getCancellationSlot type
  let (_, self) := self.moveHandler type
  let (halloc, freeing) := self.destroy type
  ⟨ticket, self.pmem, halloc, [clearing, freeing]⟩

variable {type} {handler : H} {model : WaitOpModel H A}

/-- A constructed operation holds the handler and comes from its allocator. -/
theorem construct_eq (made : construct type handler = some model) :
    model.handler = ⟨handler, false⟩ ∧ type.getAssociatedAllocator handler = some model.pmem := by
  obtain ⟨halloc, obtained, rfl⟩ := Option.map_eq_some_iff.mp made
  exact ⟨rfl, obtained⟩

/-- A usable handler has an operation constructed for it. -/
theorem construct_usable (usable : type.usable handler = true) :
    ∃ model, construct type handler = some model := by
  simp only [HandlerType.usable, Bool.and_eq_true] at usable
  have answered := usable.1.2
  rw [← Association.get_isSome _ type.defaultAllocator] at answered
  obtain ⟨halloc, obtained⟩ := Option.isSome_iff_exists.mp answered
  have known : type.getAssociatedAllocator handler = some halloc := obtained
  exact ⟨⟨⟨handler, false⟩, halloc⟩, by rw [construct, known]; rfl⟩

/-- The operation is freed as it was made exactly when the handler that is left after
the move gives the same allocator as the handler before it. -/
theorem complete_freedAsMade (usable : type.usable handler = true)
    (made : construct type handler = some model) (ticket : Nat) :
    (model.complete type ticket).FreedAsMade ↔ type.KeepsAllocator handler := by
  obtain ⟨held, allocated⟩ := construct_eq made
  simp only [HandlerType.usable, Bool.and_eq_true] at usable
  have clears : (type.slot model.handler.value).answers = true := by
    rw [held]
    exact usable.2
  have freed : (model.complete type ticket).freed =
      type.getAssociatedAllocator (type.movedFrom handler) := by
    rw [← show model.handler.value = handler by rw [held]]
    rfl
  rw [HandlerType.KeepsAllocator, allocated, ← freed]
  constructor
  · exact fun asMade => asMade.1
  · intro kept
    refine ⟨kept, fun consultation member => ?_⟩
    rcases List.mem_cons.mp member with rfl | later
    · exact clears
    · obtain rfl := List.mem_singleton.mp later
      exact Option.isSome_iff_exists.mpr ⟨_, kept⟩

/-- Every completion asks the handler for its allocator after the move. -/
theorem complete_consulted (model : WaitOpModel H A) (ticket : Nat) :
    ¬(model.complete type ticket).Unconsulted := by
  intro unconsulted
  have last : true = false := unconsulted _ (List.mem_cons_of_mem _ (List.mem_singleton.mpr rfl))
  exact absurd last (by decide)

end WaitOpModel

/-- A semaphore with the memory of its waiting operations: the handlers that its acquires
were given, the operations in memory, by acquire, and those that were completed. -/
structure WaitOpMemory (H A : Type) where
  run : SemaphoreRun
  handlers : List H
  models : Nat → Option (WaitOpModel H A)
  ended : List (EndedOp A)

namespace WaitOpMemory

variable {H A : Type}

/-- The events of a semaphore, where an acquire comes with its handler. -/
inductive Event (H : Type) where
  | asyncAcquire (handler : H)
  | tryAcquire
  | release
  | releaseAll
  | cancel (ticket : Nat) (type : CancellationType)
  | destroy
deriving DecidableEq, Repr

def start (exec : Executor) (initialCount : Int) : WaitOpMemory H A :=
  ⟨.start exec initialCount, [], fun _ => none, []⟩

/-- What the semaphore sees of an event: of a handler, its executor and its slot. -/
def seen (type : HandlerType H A) : Event H → SemaphoreRun.Event
  | .asyncAcquire handler =>
    .asyncAcquire (type.executor handler).provided ((type.slot handler).provided.getD false)
  | .tryAcquire => .tryAcquire
  | .release => .release
  | .releaseAll => .releaseAll
  | .cancel ticket cancellation => .cancel ticket cancellation
  | .destroy => .destroy

/-- An acquire that finds no token constructs its operation. -/
def initiated (s : WaitOpMemory H A) (type : HandlerType H A) (handler : H)
    (run : SemaphoreRun) : WaitOpMemory H A :=
  { s with
    run := run
    handlers := s.handlers ++ [handler]
    models :=
      if s.run.semaphore.count ≠ 0 then s.models
      else Function.update s.models s.run.acquires (WaitOpModel.construct type handler) }

/-- Every operation that a call completed is taken from memory. -/
def finished (s : WaitOpMemory H A) (type : HandlerType H A) (run : SemaphoreRun) :
    WaitOpMemory H A :=
  let completed := s.run.completedSince run
  { s with
    run := run
    models := fun ticket => if ticket ∈ completed then none else s.models ticket
    ended := s.ended ++ completed.filterMap (fun ticket =>
      (s.models ticket).map (WaitOpModel.complete type ticket)) }

/-- The runs of the semaphore, with handlers that may be used when they are passed. -/
def machine (type : HandlerType H A) : Machine (WaitOpMemory H A) (Event H) where
  step s event :=
    match event with
    | .asyncAcquire handler =>
      if type.usable handler then
        (SemaphoreRun.machine.step s.run (seen type event)).map (s.initiated type handler)
      else none
    | _ => (SemaphoreRun.machine.step s.run (seen type event)).map (s.finished type)

/-- The operation of an acquire, as it was constructed from the acquire's handler. -/
def Constructed (s : WaitOpMemory H A) (type : HandlerType H A) (ticket : Nat)
    (model : WaitOpModel H A) : Prop :=
  ∃ handler, s.handlers[ticket]? = some handler ∧ type.usable handler = true ∧
    WaitOpModel.construct type handler = some model

/-- Every waiting operation is in memory as it was constructed, and every wait that
ended was completed from its operation. -/
structure Housed (type : HandlerType H A) (s : WaitOpMemory H A) : Prop where
  numbered : s.run.Numbered
  issued : s.handlers.length = s.run.acquires
  waiting : ∀ op ∈ s.run.semaphore.waiters, ∃ model,
    s.models op.handler.id = some model ∧ s.Constructed type op.handler.id model
  ended : ∀ op ∈ s.ended, ∃ model,
    s.Constructed type op.ticket model ∧ op = model.complete type op.ticket
  tickets : s.ended.map (·.ticket) = s.run.waitsEnded

theorem start_housed (type : HandlerType H A) (exec : Executor) (initialCount : Int) :
    (start exec initialCount : WaitOpMemory H A).Housed type where
  numbered := SemaphoreRun.start_numbered exec initialCount
  issued := rfl
  waiting _ member := absurd member List.not_mem_nil
  ended _ member := absurd member List.not_mem_nil
  tickets := rfl

/-- A call that ends waits completes the operations of these, which were in memory, and
keeps the others. -/
theorem Housed.finished {type : HandlerType H A} {s : WaitOpMemory H A} (housed : s.Housed type)
    {next : SemaphoreRun} {cause : Cause} {posted : List Posted}
    (ends : s.run.Ends next cause posted) : (s.finished type next).Housed type := by
  have completed := ends.completedSince
  have found (ticket : Nat) (member : ticket ∈ posted.map (·.handler.id)) :
      ∃ model, s.models ticket = some model ∧ s.Constructed type ticket model := by
    obtain ⟨item, inside, rfl⟩ := List.mem_map.mp member
    obtain ⟨op, waited, rfl⟩ := ends.completes.source item inside
    exact housed.waiting op waited
  refine ⟨housed.numbered.ended ends, housed.issued.trans ends.acquires.symm,
    fun op member => ?_, fun op member => ?_, ?_⟩
  · have before := ends.completes.remaining.subset member
    obtain ⟨model, stored, constructed⟩ := housed.waiting op before
    have kept := (housed.numbered.stays ends op before).mp member
    exact ⟨model, (if_neg (completed ▸ kept)).trans stored, constructed⟩
  · rcases List.mem_append.mp member with old | new
    · exact housed.ended op old
    · rw [completed] at new
      obtain ⟨ticket, ended, made⟩ := List.mem_filterMap.mp new
      obtain ⟨model, stored, constructed⟩ := found ticket ended
      rw [stored, Option.map_some, Option.some.injEq] at made
      subst made
      exact ⟨model, constructed, rfl⟩
  · have every : (posted.map (·.handler.id)).filterMap (fun ticket =>
        ((s.models ticket).map (WaitOpModel.complete type ticket)).map EndedOp.ticket) =
        posted.map (·.handler.id) := by
      refine (List.filterMap_congr fun ticket member => ?_).trans List.filterMap_some
      obtain ⟨model, stored, -⟩ := found ticket member
      rw [stored]
      rfl
    change (s.ended ++ _).map EndedOp.ticket = next.waitsEnded
    rw [List.map_append, List.map_filterMap, completed, every, ends.waitsEnded, housed.tickets]

/-- What an earlier acquire constructed is still what its handler makes. -/
theorem Constructed.later {type : HandlerType H A} {s : WaitOpMemory H A} {ticket : Nat}
    {model : WaitOpModel H A} (constructed : s.Constructed type ticket model) (handler : H)
    (run : SemaphoreRun) : (s.initiated type handler run).Constructed type ticket model := by
  obtain ⟨given, recorded, usable, made⟩ := constructed
  have inside : ticket < s.handlers.length := (List.getElem?_eq_some_iff.mp recorded).1
  exact ⟨given, (List.getElem?_append_left inside).trans recorded, usable, made⟩

/-- An acquire is granted from the count and constructs nothing, or its operation is
constructed from its handler and waits. -/
theorem Housed.initiated {type : HandlerType H A} {s : WaitOpMemory H A} (housed : s.Housed type)
    {handler : H} (usable : type.usable handler = true) (executor : Option Executor)
    (connected : Bool) :
    (s.initiated type handler (s.run.call (.asyncAcquire executor connected))).Housed type := by
  have counted : (s.run.call (.asyncAcquire executor connected)).waitsEnded =
      s.run.waitsEnded := by
    by_cases granted : s.run.semaphore.count ≠ 0 <;>
      simp [SemaphoreRun.waitsEnded, SemaphoreRun.call, SemaphoreRun.record,
        Semaphore.asyncAcquire, granted]
  refine ⟨housed.numbered.acquired executor connected, ?_, fun op member => ?_,
    fun op member => ?_, housed.tickets.trans counted.symm⟩
  · change (s.handlers ++ [handler]).length = s.run.acquires + 1
    rw [List.length_append, housed.issued, List.length_singleton]
  · by_cases granted : s.run.semaphore.count ≠ 0
    · have waited : op ∈ s.run.semaphore.waiters := by
        simpa [WaitOpMemory.initiated, SemaphoreRun.call, SemaphoreRun.record,
          Semaphore.asyncAcquire, granted, Semaphore.decrement] using member
      obtain ⟨model, stored, constructed⟩ := housed.waiting op waited
      exact ⟨model, by simpa [WaitOpMemory.initiated, granted] using stored,
        constructed.later handler _⟩
    · have table : (s.initiated type handler
          (s.run.call (.asyncAcquire executor connected))).models =
          Function.update s.models s.run.acquires (WaitOpModel.construct type handler) :=
        if_neg granted
      rw [table]
      rcases Semaphore.asyncAcquire_waiters _ _ op member with old | rfl
      · obtain ⟨model, stored, constructed⟩ := housed.waiting op old
        have other : op.handler.id ≠ s.run.acquires := Nat.ne_of_lt (housed.numbered.older op old)
        exact ⟨model, (Function.update_of_ne other _ _).trans stored, constructed.later handler _⟩
      · obtain ⟨model, made⟩ := WaitOpModel.construct_usable usable
        refine ⟨model, (Function.update_self ..).trans made, handler, ?_, usable, made⟩
        change (s.handlers ++ [handler])[s.run.acquires]? = some handler
        rw [← housed.issued, List.getElem?_concat_length]
  · obtain ⟨model, constructed, completed⟩ := housed.ended op member
    exact ⟨model, constructed.later handler _, completed⟩

/-- Every admitted event keeps the operations housed. -/
theorem step_housed {type : HandlerType H A} (s : WaitOpMemory H A) (event : Event H)
    (next : WaitOpMemory H A) (housed : s.Housed type)
    (stepped : (machine type).step s event = some next) : next.Housed type := by
  have finishes (seen : SemaphoreRun.Event)
      (other : ∀ executor connected, seen ≠ .asyncAcquire executor connected)
      (called : (SemaphoreRun.machine.step s.run seen).map (s.finished type) = some next) :
      next.Housed type := by
    obtain ⟨run, taken, rfl⟩ := Option.map_eq_some_iff.mp called
    obtain ⟨-, rfl⟩ := SemaphoreRun.step_eq.mp taken
    obtain ⟨cause, posted, ends⟩ := SemaphoreRun.call_ends housed.numbered.slots other
    exact housed.finished ends
  cases event with
  | asyncAcquire handler =>
    obtain ⟨usable, called⟩ := Option.ite_none_right_eq_some.mp stepped
    obtain ⟨run, taken, rfl⟩ := Option.map_eq_some_iff.mp called
    obtain ⟨-, rfl⟩ := SemaphoreRun.step_eq.mp taken
    exact housed.initiated usable _ _
  | tryAcquire => exact finishes .tryAcquire (by simp) stepped
  | release => exact finishes .release (by simp) stepped
  | releaseAll => exact finishes .releaseAll (by simp) stepped
  | cancel ticket cancellation => exact finishes (.cancel ticket cancellation) (by simp) stepped
  | destroy => exact finishes .destroy (by simp) stepped

/-- Housing over whole runs, from any initial count. -/
theorem run_housed (type : HandlerType H A) (exec : Executor) (initialCount : Int)
    {events : List (Event H)} {s : WaitOpMemory H A}
    (ran : (machine type).run (start exec initialCount) events = some s) : s.Housed type :=
  (machine type).run_invariant step_housed (start_housed type exec initialCount) ran

/-- Each wait that ended was completed from the operation that its handler made. -/
theorem Housed.completed {type : HandlerType H A} {s : WaitOpMemory H A} (housed : s.Housed type)
    {op : EndedOp A} (member : op ∈ s.ended) : op.ticket ∈ s.run.waitsEnded ∧
      ∃ handler, s.handlers[op.ticket]? = some handler ∧ type.usable handler = true ∧
        (op.FreedAsMade ↔ type.KeepsAllocator handler) ∧ ¬op.Unconsulted := by
  obtain ⟨model, ⟨handler, given, usable, made⟩, completed⟩ := housed.ended op member
  refine ⟨housed.tickets ▸ List.mem_map.mpr ⟨op, member, rfl⟩, handler, given, usable, ?_⟩
  rw [completed]
  exact ⟨WaitOpModel.complete_freedAsMade usable made op.ticket,
    model.complete_consulted op.ticket⟩

/-- No operation that an async_op had constructed is freed as it was made: at the end
of the wait its `poly_handler` is asked through a null pointer. -/
theorem Housed.poly_handler_not_freed {defaultAllocator : A}
    {s : WaitOpMemory (PolyHandler A) A} (housed : s.Housed (PolyHandler.type defaultAllocator))
    (op : EndedOp A) (member : op ∈ s.ended) : ¬op.FreedAsMade := by
  obtain ⟨-, handler, -, usable, exactly, -⟩ := housed.completed member
  exact mt exactly.mp (PolyHandler.not_keepsAllocator defaultAllocator handler usable)

/-- Every wait that ended, on whatever path, had one operation freed. It was freed with
the allocator that it was made with, and without a failed assertion, exactly when the
handler that its acquire was given still gives this allocator once it was moved from.
That nothing was asked of a handler after the move holds only while no wait has ended. -/
theorem wait_ops_freed_iff (type : HandlerType H A) (exec : Executor) (initialCount : Int)
    (events : List (Event H)) (s : WaitOpMemory H A)
    (ran : (machine type).run (start exec initialCount) events = some s) :
    s.ended.map (·.ticket) = s.run.waitsEnded ∧
    ((∀ op ∈ s.ended, op.FreedAsMade) ↔
      ∀ ticket ∈ s.run.waitsEnded, ∀ handler, s.handlers[ticket]? = some handler →
        type.KeepsAllocator handler) ∧
    ((∀ op ∈ s.ended, op.Unconsulted) ↔ s.run.waitsEnded = []) := by
  have housed : s.Housed type := run_housed type exec initialCount ran
  refine ⟨housed.tickets, ⟨?_, ?_⟩, ⟨?_, ?_⟩⟩
  · intro freed ticket ended handler given
    rw [← housed.tickets] at ended
    obtain ⟨op, member, rfl⟩ := List.mem_map.mp ended
    obtain ⟨-, recorded, same, -, exactly, -⟩ := housed.completed member
    obtain rfl := Option.some.inj (same.symm.trans given)
    exact exactly.mp (freed op member)
  · intro keeps op member
    obtain ⟨ended, handler, given, -, exactly, -⟩ := housed.completed member
    exact exactly.mpr (keeps op.ticket ended handler given)
  · intro unconsulted
    cases line : s.ended with
    | nil => rw [← housed.tickets, line, List.map_nil]
    | cons op rest =>
      have member : op ∈ s.ended := line ▸ List.mem_cons_self
      obtain ⟨-, -, -, -, -, consulted⟩ := housed.completed member
      exact absurd (unconsulted op member) consulted
  · intro vacant op member
    obtain ⟨ended, -⟩ := housed.completed member
    exact absurd (vacant ▸ ended) List.not_mem_nil

/-- Every path on which a wait ends. -/
def everyEnd (first second third fourth : H) : List (Event H) :=
  [.asyncAcquire first, .asyncAcquire second, .asyncAcquire third, .release, .cancel 1 .total,
    .releaseAll, .asyncAcquire fourth, .destroy]

/-- Handlers that are copied when they are moved, each with its own allocator. -/
def copied : HandlerType Nat Nat :=
  ⟨fun _ => .absent, .present, fun _ => .present true, 0, id⟩

theorem wait_ops_freed_iff_copied :
    ∃ s, (machine copied).run (start 0 0) (everyEnd 5 6 7 8) = some s ∧
      s.run.waitsEnded = [0, 1, 2, 3] ∧ ∀ op ∈ s.ended, op.FreedAsMade := by
  refine ⟨_, rfl, by decide, ?_⟩
  exact (wait_ops_freed_iff copied 0 0 (everyEnd 5 6 7 8) _ rfl).2.1.mpr (fun _ _ _ _ => rfl)

/-- The handler that an async_op passes on for one of these. -/
def passedOn : PolyHandler Nat := ⟨some ⟨3, 5, true⟩⟩

/-- An async_op's handler is asked for its allocator through a null pointer on every
path on which a wait ends. -/
theorem async_op_wait_not_freed_as_made :
    AsyncOpBase.initiate ⟨3, 9, false⟩ copied 5 = some passedOn ∧
    ∃ s, (machine (PolyHandler.type 0)).run (start 0 0)
        (everyEnd passedOn passedOn passedOn passedOn) = some s ∧
      s.run.waitsEnded = [0, 1, 2, 3] ∧ ∀ op ∈ s.ended, ¬op.FreedAsMade := by
  have ran : (machine (PolyHandler.type 0)).run (start 0 0)
      (everyEnd passedOn passedOn passedOn passedOn) = some _ := rfl
  exact ⟨rfl, _, ran, by decide,
    (run_housed (PolyHandler.type 0) 0 0 ran).poly_handler_not_freed⟩

end WaitOpMemory

end Asioex
