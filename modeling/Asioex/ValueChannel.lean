import Mathlib.Data.List.Nodup
import Mathlib.Data.List.Perm.Basic
import Asioex.ReadAccounts

/-!
# Channels that deliver through latches

`try_send` walks along the pending deliveries of its channel. It begins a transaction on the
latch of each, and gives the value to the first one that it can commit; if there is none, the
value is queued or refused. Deliveries of several channels may share a latch, and so may
other transactions: whoever waits on several channels waits with one latch.

A channel is used by one party at a time, and is a party of the transactions itself. Others
step between any two accesses of `try_send` to a latch. From its commit on the call touches
only the channel, so that the rest is one step with it.

Nothing in the source adds a delivery: a channel starts with any. Of a delivery there is its
latch and its name; what it does with its value is its own.
-/

namespace Asioex

/-- `asio::error::eof`. -/
def ErrorCode.eof : ErrorCode := .asio (.other 2)

/-- `delivery_model_base`: the latch of a pending delivery. -/
structure DeliveryModel (L : Type) where
  id : Nat
  latch : L
deriving DecidableEq, Repr

/-- What became of the value of a call of `try_send`, which returns false in the last case. -/
inductive SendAnswer (L : Type) where
  | delivered (op : DeliveryModel L)
  | stored
  | refused
deriving DecidableEq, Repr

/-- The delivery that an answer names. -/
def SendAnswer.delivery {L : Type} : SendAnswer L → Option (DeliveryModel L)
  | .delivered op => some op
  | _ => none

/-- `value_channel_impl`, with the call of `try_send` that is going on, its value and where
`current` is in `deliver_ops_`, and the calls that ended. -/
structure ValueChannel (V L : Type) where
  error_ : ErrorCode
  queue_ : List V
  capacity_ : Nat
  deliverOps_ : List (DeliveryModel L)
  sending : Option (V × Nat)
  answers : List (V × SendAnswer L)
deriving DecidableEq, Repr

namespace ValueChannel

variable {V L : Type}

/-- The constructor, with the deliveries that are pending later. -/
def create (cap : Nat) (deliverOps : List (DeliveryModel L)) : ValueChannel V L :=
  ⟨.success, [], cap, deliverOps, none, []⟩

/-- `close` -/
def close (chan : ValueChannel V L) : ValueChannel V L := { chan with error_ := .eof }

/-- `++current` -/
def advance (chan : ValueChannel V L) (val : V) (current : Nat) : ValueChannel V L :=
  { chan with sending := some (val, current + 1) }

/-- `deliver_ops_.erase_after(prev)`, `transfer` and `return true`. -/
def deliver (chan : ValueChannel V L) (val : V) (current : Nat) (op : DeliveryModel L) :
    ValueChannel V L :=
  { chan with
    deliverOps_ := chan.deliverOps_.eraseIdx current
    sending := none
    answers := chan.answers ++ [(val, .delivered op)] }

/-- The end of `try_send`, with no delivery that takes the value. -/
def store (chan : ValueChannel V L) (val : V) : ValueChannel V L :=
  if chan.queue_.length ≥ chan.capacity_ then
    { chan with sending := none, answers := chan.answers ++ [(val, .refused)] }
  else
    { chan with
      queue_ := chan.queue_ ++ [val]
      sending := none
      answers := chan.answers ++ [(val, .stored)] }

/-- The deliveries that were given a value, in order. -/
def delivered (chan : ValueChannel V L) : List (DeliveryModel L) :=
  chan.answers.filterMap (·.2.delivery)

/-- The values that were stored, in order. -/
def stored [DecidableEq L] (chan : ValueChannel V L) : List V :=
  (chan.answers.filter (·.2 = .stored)).map (·.1)

end ValueChannel

/-- The latches, with channels `C` among the parties, and others `Q`. -/
structure Channels (C Q V L : Type) where
  latches : Latches (C ⊕ Q) L
  chans : C → ValueChannel V L

namespace Channels

variable {C Q V L : Type}

/-- Uncommitted latches, and channels with any deliveries pending. -/
def create (capacity : C → Nat) (deliverOps : C → List (DeliveryModel L)) : Channels C Q V L :=
  ⟨.create, fun c => .create (capacity c) (deliverOps c)⟩

variable [DecidableEq C]

def setChan (s : Channels C Q V L) (c : C) (chan : ValueChannel V L) : Channels C Q V L :=
  { s with chans := Function.update s.chans c chan }

@[simp] theorem setChan_self (s : Channels C Q V L) (c : C) (chan : ValueChannel V L) :
    (s.setChan c chan).chans c = chan := by
  simp [setChan]

theorem setChan_of_ne (s : Channels C Q V L) {c other : C} (chan : ValueChannel V L)
    (distinct : other ≠ c) : (s.setChan c chan).chans other = s.chans other := by
  simp [setChan, Function.update_of_ne distinct]

variable [DecidableEq Q] [DecidableEq L]

/-- Accesses of one party to the latches, one after the other. -/
def access (s : Channels C Q V L) (party : C ⊕ Q) (actions : List (Action L)) :
    Option (Channels C Q V L) :=
  (Latches.machine.run s.latches (actions.map (fun action => (party, action)))).map
    (fun latches => { s with latches := latches })

/-- `try_send` from the return of `begin_transaction` to the end of the iteration, where the
transaction is destroyed. -/
def finish (s : Channels C Q V L) (c : C) (val : V) (current : Nat) : Option (Channels C Q V L) :=
  match s.latches.point (.inl c), (s.chans c).deliverOps_[current]? with
  | .transaction1 (some _), some op =>
    ((s.setChan c ((s.chans c).deliver val current op)).access (.inl c) [.commit, .destroy])
  | .transaction1 none, some _ =>
    ((s.setChan c ((s.chans c).advance val current)).access (.inl c) [.destroy])
  | _, _ => none

inductive Event (C Q V L : Type) where
  | other (q : Q) (action : Action L)
  | close (c : C)
  | trySend (c : C) (val : V)
  | visit (c : C)
  | lock (c : C)
  | check (c : C)
  | unlock (c : C)
  | finish (c : C)
  | store (c : C)

/-- The steps of the channels and of the other parties. A call of `try_send` visits the
delivery at `current`, or ends when there is none. -/
def step (s : Channels C Q V L) : Event C Q V L → Option (Channels C Q V L)
  | .other q action => s.access (.inr q) [action]
  | .close c =>
    if (s.chans c).sending.isNone then some (s.setChan c (s.chans c).close) else none
  | .trySend c val =>
    if (s.chans c).sending.isNone then
      some (s.setChan c { s.chans c with sending := some (val, 0) })
    else none
  | .visit c =>
    match (s.chans c).sending with
    | none => none
    | some (_, current) =>
      match (s.chans c).deliverOps_[current]? with
      | none => none
      | some op => s.access (.inl c) [.begin op.latch]
  | .lock c => s.access (.inl c) [.lock]
  | .check c => s.access (.inl c) [.check]
  | .unlock c => s.access (.inl c) [.unlock]
  | .finish c =>
    match (s.chans c).sending with
    | none => none
    | some (val, current) => s.finish c val current
  | .store c =>
    match (s.chans c).sending with
    | none => none
    | some (val, current) =>
      match (s.chans c).deliverOps_[current]? with
      | none => some (s.setChan c ((s.chans c).store val))
      | some _ => none

def machine : Machine (Channels C Q V L) (Event C Q V L) := ⟨step⟩

end Channels

namespace Latches

variable {P L : Type} [DecidableEq P] [DecidableEq L]

/-- Destroying a transaction that was refused. -/
theorem run_destroy {s next : Latches P L} {party : P}
    (point : s.point party = .transaction1 none)
    (ran : machine.run s [(party, .destroy)] = some next) :
    next.point party = .idle ∧ next.commitsOf party = s.commitsOf party := by
  obtain ⟨last, destroyed, done⟩ := machine.run_cons.mp ran
  obtain rfl := Option.some.inj done
  obtain ⟨outcome, advanced, idle, commits⟩ := step_commitsOf destroyed
  rw [point] at advanced
  obtain rfl := Option.some.inj advanced
  exact ⟨idle, commits.trans (List.append_nil _)⟩

end Latches

namespace Channels

variable {C Q V L : Type}

/-- Where the call of a channel is: at the head of its loop, if there is one, or visiting a
delivery, whose latch is committed if the transaction was refused. -/
inductive Visits (transferred : L → Bool) (point : Point L) (chan : ValueChannel V L) : Prop where
  | outside (idle : point = .idle)
  | visiting (val : V) (current : Nat) (op : DeliveryModel L)
      (sending : chan.sending = some (val, current))
      (here : chan.deliverOps_[current]? = some op) (inside : Within op.latch point)
      (refused : point = .refusing op.latch ∨ point = .transaction1 none →
        transferred op.latch = true)

/-- What a channel has done with the deliveries that it began with: it has passed some of
them, all of which are committed, has given a value to some of these, in order, and has not
come to the rest. -/
structure Passes (transferred : L → Bool) (first chan : ValueChannel V L)
    (passed kept rest : List (DeliveryModel L)) : Prop where
  split : first.deliverOps_ = passed ++ rest
  line : chan.deliverOps_ = kept ++ rest
  delivered : chan.delivered.Sublist passed
  all : passed.Perm (chan.delivered ++ kept)
  set : ∀ op ∈ passed, transferred op.latch = true
  reached : ∀ val current, chan.sending = some (val, current) → current ≤ kept.length
  exhausted : ∀ answer ∈ chan.answers, answer.2.delivery = none → rest = []

/-- What a channel has done with the values: those it stored are in the queue, which has not
grown beyond its capacity, and it refused one only when the queue was full. -/
structure Queues [DecidableEq L] (first chan : ValueChannel V L) : Prop where
  queue : chan.queue_ = first.queue_ ++ chan.stored
  capacity : chan.capacity_ = first.capacity_
  bounded : first.queue_.length ≤ first.capacity_ → chan.queue_.length ≤ chan.capacity_
  full : ∀ answer ∈ chan.answers, answer.2 = .refused → chan.capacity_ ≤ chan.queue_.length

/-- A later state of the latches changes nothing for a channel that has not moved. -/
theorem Passes.later {before after : L → Bool} {first chan : ValueChannel V L}
    {passed kept rest : List (DeliveryModel L)} (passes : Passes before first chan passed kept rest)
    (stays : ∀ latch, before latch = true → after latch = true) :
    Passes after first chan passed kept rest :=
  ⟨passes.split, passes.line, passes.delivered, passes.all,
    fun op member => stays op.latch (passes.set op member), passes.reached, passes.exhausted⟩

/-- A delivery that was refused is passed. -/
theorem Passes.advance {transferred : L → Bool} {first chan : ValueChannel V L}
    {passed kept rest : List (DeliveryModel L)}
    (passes : Passes transferred first chan passed kept rest) {val : V} {current : Nat}
    (sending : chan.sending = some (val, current)) {op : DeliveryModel L}
    (here : chan.deliverOps_[current]? = some op) (set : transferred op.latch = true) :
    ∃ passed kept rest, Passes transferred first (chan.advance val current) passed kept rest := by
  have within := passes.reached val current sending
  rw [passes.line] at here
  by_cases already : current < kept.length
  · refine ⟨passed, kept, rest, passes.split, passes.line, passes.delivered, passes.all, passes.set,
      fun _ _ same => ?_, passes.exhausted⟩
    obtain ⟨-, rfl⟩ := Prod.mk.inj (Option.some.inj same)
    exact already
  · obtain rfl : current = kept.length := by omega
    rw [List.getElem?_append_right (Nat.le_refl _), Nat.sub_self] at here
    cases rest with
    | nil => simp at here
    | cons next rest =>
      obtain rfl : next = op := by simpa using here
      refine ⟨passed ++ [next], kept ++ [next], rest, ?_, ?_, ?_, ?_, ?_, ?_, ?_⟩
      · rw [passes.split, List.append_assoc, List.singleton_append]
      · exact passes.line.trans (by rw [List.append_assoc, List.singleton_append])
      · exact passes.delivered.trans (List.sublist_append_left _ _)
      · exact (passes.all.append_right [next]).trans (by rw [List.append_assoc]; exact .refl _)
      · intro other member
        rcases List.mem_append.mp member with old | new
        · exact passes.set other old
        · rw [List.mem_singleton.mp new]
          exact set
      · intro _ _ same
        obtain ⟨-, rfl⟩ := Prod.mk.inj (Option.some.inj same)
        exact Nat.le_of_eq (by rw [List.length_append, List.length_singleton])
      · intro answer member none
        cases passes.exhausted answer member none

/-- A delivery that could be committed is the first one that was not passed. -/
theorem Passes.deliver {before after : L → Bool} {first chan : ValueChannel V L}
    {passed kept rest : List (DeliveryModel L)} (passes : Passes before first chan passed kept rest)
    {val : V} {current : Nat} (sending : chan.sending = some (val, current)) {op : DeliveryModel L}
    (here : chan.deliverOps_[current]? = some op) (free : before op.latch = false)
    (set : after op.latch = true) (stays : ∀ latch, before latch = true → after latch = true) :
    ∃ passed kept rest, Passes after first (chan.deliver val current op) passed kept rest := by
  have within := passes.reached val current sending
  rw [passes.line] at here
  by_cases already : current < kept.length
  · rw [List.getElem?_append_left already] at here
    have member : op ∈ passed :=
      passes.all.mem_iff.mpr (List.mem_append_right _ (List.mem_of_getElem? here))
    exact absurd ((passes.set op member).symm.trans free) (by decide)
  · obtain rfl : current = kept.length := by omega
    rw [List.getElem?_append_right (Nat.le_refl _), Nat.sub_self] at here
    cases rest with
    | nil => simp at here
    | cons next rest =>
      obtain rfl : next = op := by simpa using here
      have delivered : (chan.deliver val kept.length next).delivered = chan.delivered ++ [next] := by
        simp [ValueChannel.delivered, ValueChannel.deliver, SendAnswer.delivery]
      refine ⟨passed ++ [next], kept, rest, ?_, ?_, ?_, ?_, ?_, ?_, ?_⟩
      · rw [passes.split, List.append_assoc, List.singleton_append]
      · change chan.deliverOps_.eraseIdx kept.length = kept ++ rest
        rw [passes.line, List.eraseIdx_append_of_length_le (Nat.le_refl _), Nat.sub_self]
        rfl
      · rw [delivered]
        exact passes.delivered.append (.refl _)
      · rw [delivered, List.append_assoc]
        refine (passes.all.append_right [next]).trans ?_
        rw [List.append_assoc]
        exact List.perm_append_comm.append_left _
      · intro other member
        rcases List.mem_append.mp member with old | new
        · exact stays other.latch (passes.set other old)
        · rw [List.mem_singleton.mp new]
          exact set
      · intro _ _ same
        cases same
      · intro answer member none
        rcases List.mem_append.mp member with old | new
        · cases passes.exhausted answer old none
        · rw [List.mem_singleton.mp new] at none
          cases none

/-- A value is stored or refused once the channel has passed every delivery. -/
theorem Passes.store {transferred : L → Bool} {first chan : ValueChannel V L}
    {passed kept rest : List (DeliveryModel L)}
    (passes : Passes transferred first chan passed kept rest) {val : V} {current : Nat}
    (sending : chan.sending = some (val, current)) (ended : chan.deliverOps_[current]? = none) :
    Passes transferred first (chan.store val) passed kept rest := by
  have within := passes.reached val current sending
  have vacant : rest = [] := by
    rw [passes.line, List.getElem?_eq_none_iff, List.length_append] at ended
    exact List.length_eq_zero_iff.mp (by omega)
  have same : (chan.store val).deliverOps_ = chan.deliverOps_ ∧
      (chan.store val).delivered = chan.delivered ∧ (chan.store val).sending = none := by
    unfold ValueChannel.store
    split <;> simp [ValueChannel.delivered, SendAnswer.delivery]
  obtain ⟨line, delivered, done⟩ := same
  refine ⟨passes.split, line.trans passes.line, delivered ▸ passes.delivered,
    delivered ▸ passes.all, passes.set, fun val current same => ?_, fun _ _ _ => vacant⟩
  exact absurd (done.symm.trans same) (by simp)

variable [DecidableEq L]

theorem Queues.store {first chan : ValueChannel V L} (queues : Queues first chan) (val : V) :
    Queues first (chan.store val) := by
  unfold ValueChannel.store
  split
  · next full =>
    refine ⟨?_, queues.capacity, queues.bounded, fun _ _ _ => full⟩
    simp [ValueChannel.stored, queues.queue]
  · next room =>
    refine ⟨?_, queues.capacity, fun _ => ?_, fun answer member refused => ?_⟩
    · simp [ValueChannel.stored, queues.queue]
    · simp only [List.length_append, List.length_singleton]
      omega
    · rcases List.mem_append.mp member with old | new
      · exact absurd (queues.full answer old refused) room
      · rw [List.mem_singleton.mp new] at refused
        cases refused

theorem Queues.deliver {first chan : ValueChannel V L} (queues : Queues first chan) (val : V)
    (current : Nat) (op : DeliveryModel L) : Queues first (chan.deliver val current op) := by
  refine ⟨?_, queues.capacity, queues.bounded, fun answer member refused => ?_⟩
  · simp [ValueChannel.stored, ValueChannel.deliver, queues.queue]
  · rcases List.mem_append.mp member with old | new
    · exact queues.full answer old refused
    · rw [List.mem_singleton.mp new] at refused
      cases refused

/-- How a channel stands: where its call is, what it has done, and that the latches it
committed are those of the deliveries that it made. -/
structure Stands (transferred : L → Bool) (point : Point L) (commits : List L)
    (first chan : ValueChannel V L) : Prop where
  visits : Visits transferred point chan
  passes : ∃ passed kept rest, Passes transferred first chan passed kept rest
  queues : Queues first chan
  commits : commits = chan.delivered.map (·.latch)

/-- A channel stands as before while others use the latches. -/
theorem Stands.later {before after : L → Bool} {point : Point L} {commits : List L}
    {first chan : ValueChannel V L} (stands : Stands before point commits first chan)
    (stays : ∀ latch, before latch = true → after latch = true) :
    Stands after point commits first chan := by
  obtain ⟨passed, kept, rest, passes⟩ := stands.passes
  refine ⟨?_, ⟨passed, kept, rest, passes.later stays⟩, stands.queues, stands.commits⟩
  cases stands.visits with
  | outside idle => exact .outside idle
  | visiting val current op sending here inside refused =>
    exact .visiting val current op sending here inside (fun out => stays op.latch (refused out))

variable [DecidableEq C] [DecidableEq Q]

/-- Orderly latches, and every channel as it should stand. -/
structure Sound (first : C → ValueChannel V L) (s : Channels C Q V L) : Prop where
  orderly : s.latches.Orderly
  stands : ∀ c, Stands s.latches.transferred (s.latches.point (.inl c))
    (s.latches.commitsOf (.inl c)) (first c) (s.chans c)

theorem create_sound (capacity : C → Nat) (deliverOps : C → List (DeliveryModel L)) :
    (create capacity deliverOps : Channels C Q V L).Sound
      (fun c => .create (capacity c) (deliverOps c)) where
  orderly := Latches.create_orderly
  stands c := by
    refine ⟨.outside rfl, ⟨[], [], deliverOps c, rfl, rfl, List.Sublist.refl _, List.Perm.refl _,
      by simp, fun _ _ same => ?_, fun _ member => ?_⟩, ?_, rfl⟩
    · cases same
    · cases member
    · exact ⟨rfl, rfl, id, fun _ member => by cases member⟩

theorem access_frame {s next : Channels C Q V L} {party : C ⊕ Q} {actions : List (Action L)}
    (accessed : s.access party actions = some next) :
    Latches.machine.run s.latches (actions.map (fun action => (party, action))) =
        some next.latches ∧ next.chans = s.chans := by
  obtain ⟨latches, ran, rfl⟩ := Option.map_eq_some_iff.mp accessed
  exact ⟨ran, rfl⟩

/-- After accesses of one party every other channel stands as before, and the latches are
orderly. -/
theorem Sound.accessed {first : C → ValueChannel V L} {s next : Channels C Q V L}
    (sound : s.Sound first) {party : C ⊕ Q} {actions : List (Action L)}
    (ran : Latches.machine.run s.latches (actions.map (fun action => (party, action))) =
      some next.latches)
    (others : ∀ c, .inl c ≠ party → next.chans c = s.chans c)
    (actor : ∀ c, .inl c = party → Stands next.latches.transferred (next.latches.point (.inl c))
      (next.latches.commitsOf (.inl c)) (first c) (next.chans c)) : next.Sound first := by
  refine ⟨Latches.machine.run_invariant Latches.step_orderly sound.orderly ran, fun c => ?_⟩
  by_cases mine : .inl c = party
  · exact actor c mine
  · obtain ⟨point, commits⟩ := Latches.run_others ran mine
    rw [others c mine, point, commits]
    exact (sound.stands c).later fun latch => Latches.run_transferred ran

/-- Changing a channel without an access to a latch leaves the others as they are. -/
theorem Sound.changed {first : C → ValueChannel V L} {s : Channels C Q V L}
    (sound : s.Sound first) (c : C) {chan : ValueChannel V L}
    (stands : Stands s.latches.transferred (s.latches.point (.inl c))
      (s.latches.commitsOf (.inl c)) (first c) chan) : (s.setChan c chan).Sound first := by
  refine ⟨sound.orderly, fun other => ?_⟩
  by_cases mine : other = c
  · subst mine
    rw [setChan_self]
    exact stands
  · rw [setChan_of_ne s chan mine]
    exact sound.stands other

/-- An access of `begin_transaction` by a channel keeps its visit, and it is refused only
where the latch is committed. -/
theorem Sound.begins {first : C → ValueChannel V L} {s next : Channels C Q V L}
    (sound : s.Sound first) {c : C} {action : Action L}
    (beginning : action = .lock ∨ action = .check ∨ action = .unlock)
    (accessed : s.access (.inl c) [action] = some next) : next.Sound first := by
  obtain ⟨ran, chans⟩ := access_frame accessed
  refine sound.accessed ran (fun other _ => congrFun chans other) fun other same => ?_
  obtain rfl := Sum.inl.inj same
  obtain ⟨last, stepped, done⟩ := Latches.machine.run_cons.mp ran
  obtain rfl := Option.some.inj done
  obtain ⟨outcome, advanced, point, commits⟩ := Latches.step_commitsOf stepped
  have stays (latch : L) (set : s.latches.transferred latch = true) :=
    Latches.run_transferred ran set
  have stands := sound.stands other
  have notIdle := advance_notIdle beginning advanced
  cases stands.visits with
  | outside idle => exact absurd idle notIdle
  | visiting val current op sending here inside refused =>
    obtain ⟨still, empty⟩ := inside.advance beginning advanced
    obtain ⟨passed, kept, rest, passes⟩ := stands.passes
    rw [commits, empty, List.append_nil, point, chans]
    refine ⟨.visiting val current op sending here still fun out => stays op.latch ?_,
      ⟨passed, kept, rest, passes.later stays⟩, stands.queues, stands.commits⟩
    -- the check alone leads to a refusal, and it has read the latch
    generalize s.latches.point (.inl other) = before at inside advanced refused
    rcases beginning with rfl | rfl | rfl <;> cases inside <;>
      simp only [Point.advance, reduceCtorEq, Option.some.injEq] at advanced
    · subst advanced
      simp at out
    · by_cases allowed : s.latches.mayCommit op.latch = true
      · rw [if_pos allowed] at advanced
        obtain rfl := Option.some.inj advanced
        simp at out
      · simpa [Latches.mayCommit] using allowed
    · exact refused (.inl rfl)

/-- The end of an iteration delivers the value, or passes a delivery that is committed. -/
theorem Sound.finishes {first : C → ValueChannel V L} {s next : Channels C Q V L}
    (sound : s.Sound first) {c : C} {val : V} {current : Nat}
    (sending : (s.chans c).sending = some (val, current))
    (finished : s.finish c val current = some next) : next.Sound first := by
  have stands := sound.stands c
  obtain ⟨passed, kept, rest, passes⟩ := stands.passes
  cases stands.visits with
  | outside idle => simp [finish, idle] at finished
  | visiting val' current' op sending' here inside refused =>
    obtain ⟨rfl, rfl⟩ := Prod.mk.inj (Option.some.inj (sending'.symm.trans sending))
    generalize point : s.latches.point (.inl c) = before at inside refused
    cases inside with
    | locking => simp [finish, point] at finished
    | checking => simp [finish, point] at finished
    | refusing => simp [finish, point] at finished
    | begun =>
      simp only [finish, point, here] at finished
      obtain ⟨ran, chans⟩ := access_frame finished
      refine sound.accessed ran (fun other distinct => ?_) fun other same => ?_
      · rw [chans, setChan_of_ne s _ (fun same => distinct (congrArg Sum.inl same))]
      · obtain rfl := Sum.inl.inj same
        have stays (latch : L) (set : s.latches.transferred latch = true) :=
          Latches.run_transferred ran set
        have free : s.latches.transferred op.latch = false := by
          have allowed := sound.orderly.found (.inl other) op.latch (by simp [point, Point.found])
          simpa [Latches.mayCommit] using allowed
        obtain ⟨idle, commits, set⟩ := Latches.run_commits point ran
        rw [chans, setChan_self, idle, commits, stands.commits]
        refine ⟨.outside rfl, passes.deliver sending here free set stays,
          stands.queues.deliver val' current' op, ?_⟩
        simp [ValueChannel.delivered, ValueChannel.deliver, SendAnswer.delivery]
    | refused =>
      simp only [finish, point, here] at finished
      obtain ⟨ran, chans⟩ := access_frame finished
      refine sound.accessed ran (fun other distinct => ?_) fun other same => ?_
      · rw [chans, setChan_of_ne s _ (fun same => distinct (congrArg Sum.inl same))]
      · obtain rfl := Sum.inl.inj same
        have stays (latch : L) (set : s.latches.transferred latch = true) :=
          Latches.run_transferred ran set
        obtain ⟨idle, commits⟩ := Latches.run_destroy point ran
        rw [chans, setChan_self, idle, commits]
        obtain ⟨passed, kept, rest, further⟩ :=
          passes.advance sending here (refused (.inr rfl))
        have queues : Queues (first other) ((s.chans other).advance val' current') :=
          ⟨stands.queues.queue, stands.queues.capacity, stands.queues.bounded, stands.queues.full⟩
        exact ⟨.outside rfl, ⟨passed, kept, rest, further.later stays⟩, queues, stands.commits⟩

theorem step_sound {first : C → ValueChannel V L} (s : Channels C Q V L) (event : Event C Q V L)
    (next : Channels C Q V L) (sound : s.Sound first)
    (stepped : machine.step s event = some next) : next.Sound first := by
  cases event with
  | other q action =>
    obtain ⟨ran, chans⟩ := access_frame stepped
    exact sound.accessed ran (fun c _ => congrFun chans c) fun c same => by cases same
  | close c =>
    obtain ⟨idle, same⟩ := Option.ite_none_right_eq_some.mp stepped
    obtain rfl := Option.some.inj same
    have stands := sound.stands c
    obtain ⟨passed, kept, rest, passes⟩ := stands.passes
    refine sound.changed c ⟨?_, ⟨passed, kept, rest, passes.split, passes.line, passes.delivered,
      passes.all, passes.set, passes.reached, passes.exhausted⟩, ⟨stands.queues.queue,
      stands.queues.capacity, stands.queues.bounded, stands.queues.full⟩, stands.commits⟩
    cases stands.visits with
    | outside idle => exact .outside idle
    | visiting val current op sending => simp [sending] at idle
  | trySend c val =>
    obtain ⟨idle, same⟩ := Option.ite_none_right_eq_some.mp stepped
    obtain rfl := Option.some.inj same
    have stands := sound.stands c
    obtain ⟨passed, kept, rest, passes⟩ := stands.passes
    refine sound.changed c ⟨?_, ⟨passed, kept, rest, passes.split, passes.line, passes.delivered,
      passes.all, passes.set, fun _ _ begun => ?_, passes.exhausted⟩, ⟨stands.queues.queue,
      stands.queues.capacity, stands.queues.bounded, stands.queues.full⟩, stands.commits⟩
    · cases stands.visits with
      | outside idle => exact .outside idle
      | visiting val current op sending => simp [sending] at idle
    · obtain ⟨-, rfl⟩ := Prod.mk.inj (Option.some.inj begun)
      exact Nat.zero_le _
  | visit c =>
    cases sending : (s.chans c).sending with
    | none => simp [machine, step, sending] at stepped
    | some call =>
      obtain ⟨val, current⟩ := call
      cases here : (s.chans c).deliverOps_[current]? with
      | none => simp [machine, step, sending, here] at stepped
      | some op =>
        simp only [machine, step, sending, here] at stepped
        obtain ⟨ran, chans⟩ := access_frame stepped
        refine sound.accessed ran (fun other _ => congrFun chans other) fun other same => ?_
        obtain rfl := Sum.inl.inj same
        have stands := sound.stands other
        obtain ⟨last, begun, done⟩ := Latches.machine.run_cons.mp ran
        obtain rfl := Option.some.inj done
        obtain ⟨outcome, advanced, point, commits⟩ := Latches.step_commitsOf begun
        cases stands.visits with
        | visiting val current op sending here inside =>
          generalize s.latches.point (.inl other) = before at inside advanced
          cases inside <;> simp [Point.advance] at advanced
        | outside idle =>
          rw [idle] at advanced
          obtain rfl := Option.some.inj advanced
          obtain ⟨passed, kept, rest, passes⟩ := stands.passes
          have stays (latch : L) (set : s.latches.transferred latch = true) :=
            Latches.run_transferred ran set
          rw [point, commits, chans]
          refine ⟨.visiting val current op sending here .locking (by simp),
            ⟨passed, kept, rest, passes.later stays⟩, stands.queues, ?_⟩
          rw [← stands.commits]
          exact List.append_nil _
  | lock c => exact sound.begins (.inl rfl) stepped
  | check c => exact sound.begins (.inr (.inl rfl)) stepped
  | unlock c => exact sound.begins (.inr (.inr rfl)) stepped
  | finish c =>
    cases sending : (s.chans c).sending with
    | none => simp [machine, step, sending] at stepped
    | some call =>
      simp only [machine, step, sending] at stepped
      exact sound.finishes sending stepped
  | store c =>
    cases sending : (s.chans c).sending with
    | none => simp [machine, step, sending] at stepped
    | some call =>
      obtain ⟨val, current⟩ := call
      cases ended : (s.chans c).deliverOps_[current]? with
      | some op => simp [machine, step, sending, ended] at stepped
      | none =>
        simp only [machine, step, sending, ended, Option.some.injEq] at stepped
        subst stepped
        have stands := sound.stands c
        obtain ⟨passed, kept, rest, passes⟩ := stands.passes
        have same : ((s.chans c).store val).delivered = (s.chans c).delivered := by
          unfold ValueChannel.store
          split <;> simp [ValueChannel.delivered, SendAnswer.delivery]
        refine sound.changed c ⟨?_, ⟨passed, kept, rest, passes.store sending ended⟩,
          stands.queues.store val, same ▸ stands.commits⟩
        cases stands.visits with
        | outside idle => exact .outside idle
        | visiting val' current' op sending' here =>
          obtain ⟨rfl, rfl⟩ := Prod.mk.inj (Option.some.inj (sending'.symm.trans sending))
          exact absurd (ended.symm.trans here) (by simp)

/-- However the calls of `try_send` on the channels and the other transactions are
interleaved: of the deliveries that share a latch one at most is made, in whatever channels
they are, and it is the channel that committed the latch; each channel has passed the first
of its deliveries, which are committed, by itself or by others, and has given values to some
of these in order; and it stored or refused a value only when it had passed all of them, and
refused one only when its queue was full. -/
theorem channels_deliver_once (capacity : C → Nat) (deliverOps : C → List (DeliveryModel L))
    (events : List (Event C Q V L)) (s : Channels C Q V L)
    (ran : machine.run (create capacity deliverOps) events = some s) :
    (∀ c c', ∀ op ∈ (s.chans c).delivered, ∀ op' ∈ (s.chans c').delivered,
      op.latch = op'.latch → c = c' ∧ op = op') ∧
    ∀ c, s.latches.commitsOf (.inl c) = (s.chans c).delivered.map (·.latch) ∧
      (s.latches.commitsOf (.inl c)).Nodup ∧
      (∃ passed kept rest, Passes s.latches.transferred (.create (capacity c) (deliverOps c))
        (s.chans c) passed kept rest) ∧
      Queues (.create (capacity c) (deliverOps c)) (s.chans c) := by
  have sound := machine.run_invariant step_sound (create_sound capacity deliverOps) ran
  have once : (s.latches.commits.map (·.2)).Nodup := by
    refine List.nodup_iff_count_le_one.mpr fun latch => ?_
    rw [List.count_eq_countP, List.countP_map]
    have counted := sound.orderly.commits latch
    have same : s.latches.commits.countP ((· == latch) ∘ (·.2)) =
        s.latches.commits.countP (·.2 == latch) := rfl
    rw [same, counted]
    split <;> omega
  have single (c : C) : (s.latches.commitsOf (.inl c)).Nodup :=
    once.sublist (List.filter_sublist.map _)
  have recorded (c : C) (op : DeliveryModel L) (made : op ∈ (s.chans c).delivered) :
      (.inl c, op.latch) ∈ s.latches.commits := by
    have committed : op.latch ∈ s.latches.commitsOf (.inl c) := by
      rw [(sound.stands c).commits]
      exact List.mem_map.mpr ⟨op, made, rfl⟩
    obtain ⟨⟨party, latch⟩, member, same⟩ := List.mem_map.mp committed
    obtain ⟨inside, own⟩ := List.mem_filter.mp member
    obtain rfl : party = .inl c := by simpa using own
    exact same ▸ inside
  refine ⟨fun c c' op made op' made' shared => ?_, fun c => ?_⟩
  · have equal := List.inj_on_of_nodup_map once (recorded c op made) (recorded c' op' made') shared
    obtain rfl := Sum.inl.inj (congrArg Prod.fst equal)
    have distinct := single c
    rw [(sound.stands c).commits] at distinct
    exact ⟨rfl, List.inj_on_of_nodup_map distinct made made' shared⟩
  · have stands := sound.stands c
    exact ⟨stands.commits, single c, stands.passes, stands.queues⟩

/-- Two channels, with a delivery of each on the latch 7, and another one of the first channel
on the latch 8, which another party commits. The second channel delivers while the first one
is about to; the first one then passes both of its deliveries and stores its value. -/
def selecting : List (Event Nat Nat Nat Nat) :=
  [.trySend 0 40, .visit 0, .trySend 1 41, .visit 1, .lock 1, .check 1, .finish 1,
    .other 0 (.begin 8), .other 0 .lock, .other 0 .check, .other 0 .commit,
    .lock 0, .check 0, .unlock 0, .finish 0, .visit 0, .lock 0, .check 0, .unlock 0, .finish 0,
    .store 0]

def pending (c : Nat) : List (DeliveryModel Nat) := if c = 0 then [⟨0, 7⟩, ⟨1, 8⟩] else [⟨2, 7⟩]

theorem channels_deliver_once_selecting :
    ∃ s, machine.run (create (fun _ => 1) pending) selecting = some s ∧
      (s.chans 0).answers = [(40, .stored)] ∧ (s.chans 1).answers = [(41, .delivered ⟨2, 7⟩)] ∧
      (s.chans 0).queue_ = [40] ∧ s.latches.commitsOf (.inl 1) = [7] ∧
      (s.latches.commitsOf (.inl 1)).Nodup := by
  refine ⟨_, rfl, rfl, rfl, rfl, rfl, ?_⟩
  exact ((channels_deliver_once (fun _ => 1) pending selecting _ rfl).2 1).2.1

end Channels

end Asioex
