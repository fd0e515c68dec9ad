import Asioex.ComposedCancellation
import Asioex.Lib.Machine
import Asioex.Lib.Population

/-!
# Bots behind a semaphore

The program of `async_semaphore.cpp`: any number of coroutines `bot` share a semaphore and
run on one executor. A bot that finds no token waits for one and for a deadline at once.
The first of the two that completes decides and cancels the other, and the bot goes on when
both have completed. The codes are discarded: `as_tuple` delivers them as values, and nothing
reads the one of the acquire.

A bot that was granted a token just before its deadline is handled gets bored all the same.
Its acquire is no longer waiting, the cancellation finds nothing, and the token that was
posted to it is spent: nobody releases it. The books below account for every token, the
ones lost in this way included.

The rest is asio's, and is assumed to do as documented. `co_spawn` starts a coroutine of its
own, and `io_context::run`, on one thread, runs what is posted one at a time, in an order that
is left open. `a || b` initiates both of its operands; the one that completes first decides,
the other one is cancelled, of which its coroutine lets the terminal bit pass, and the group
completes when both have. The timer of `timeout` may complete at any time after it was started,
in success or because it was cancelled, and its coroutine with it. `use_awaitable` resumes the
bot where its operation completes, on the bot's executor.
-/

namespace Asioex

/-- Where a coroutine `bot` is. While it is `served` or `bored` the first of its two waits
has completed and the other has not; a bot that left did so with the code of its acquire. -/
inductive Bot where
  | approaching
  | refused
  | racing
  | served
  | bored
  | working
  | passed
  | left (ec : ErrorCode)
deriving DecidableEq, Repr

namespace Bot

/-- Whether an `async_acquire` of the bot is outstanding, as a number. -/
def outstanding : Bot → Nat
  | .racing | .bored => 1
  | _ => 0

/-- The tokens that a bot has and will release. -/
def holds : Bot → Nat
  | .served | .working => 1
  | _ => 0

/-- The tokens that a bot was granted and will not release. -/
def lost : Bot → Nat
  | .left .success => 1
  | _ => 0

/-- How many steps a bot has before it at most. -/
def remaining : Bot → Nat
  | .approaching => 5
  | .refused => 4
  | .racing => 3
  | .served => 2
  | .bored | .working => 1
  | .passed | .left _ => 0

end Bot

/-- The semaphore, the completions posted by its operations, and the bots. -/
structure Bots where
  semaphore : Semaphore
  queue : List Posted
  bots : Population Bot

namespace Bots

inductive Event where
  | spawn
  | approach (i : Nat)
  | race (i : Nat)
  | run (k : Nat)
  | timeOut (i : Nat)
  | pass (i : Nat)
deriving DecidableEq, Repr

def start (exec : Executor) (initialCount : Int) : Bots := ⟨.create exec initialCount, [], []⟩

/-- The handler of a bot's acquire runs on the executor of the bots, and the group of the
two waits has connected its slot. -/
def handler (s : Bots) (i : Nat) : Handler := ⟨i, some s.semaphore.exec, some i⟩

/-- `if (!sem.try_acquire())`. -/
def approach (s : Bots) (i : Nat) : Bots :=
  { s with
    semaphore := s.semaphore.tryAcquire.2
    bots := s.bots.set i (if s.semaphore.tryAcquire.1 then .working else .refused) }

/-- `sem.async_acquire(as_tuple(use_awaitable)) || timeout(deadline)`: both are initiated. -/
def race (s : Bots) (i : Nat) : Bots :=
  { semaphore := (s.semaphore.asyncAcquire (s.handler i)).1
    queue := s.queue ++ (s.semaphore.asyncAcquire (s.handler i)).2
    bots := s.bots.set i .racing }

/-- The acquire of a bot completes, before its timeout or after it. -/
def acquired (s : Bots) (i : Nat) (ec : ErrorCode) : Option Bots :=
  match s.bots[i]? with
  | some .racing => some { s with bots := s.bots.set i .served }
  | some .bored => some { s with bots := s.bots.set i (.left ec) }
  | _ => none

/-- The timeout of a bot completes. If it is the first to do so the acquire is cancelled;
the coroutine in which it waits lets the terminal bit of the cancellation pass. -/
def timedOut (s : Bots) (i : Nat) : Option Bots :=
  match s.bots[i]? with
  | some .racing => some
    { semaphore := (s.semaphore.emit i .terminal).1
      queue := s.queue ++ (s.semaphore.emit i .terminal).2
      bots := s.bots.set i .bored }
  | some .served => some { s with bots := s.bots.set i .working }
  | _ => none

/-- `sem.release()`, when the work is done. -/
def pass (s : Bots) (i : Nat) : Bots :=
  { semaphore := s.semaphore.release.1
    queue := s.queue ++ s.semaphore.release.2
    bots := s.bots.set i .passed }

def step (s : Bots) : Event → Option Bots
  | .spawn => some { s with bots := s.bots ++ [.approaching] }
  | .approach i => if s.bots[i]? = some .approaching then some (s.approach i) else none
  | .race i => if s.bots[i]? = some .refused then some (s.race i) else none
  | .run k =>
    match s.queue[k]? with
    | some job => { s with queue := s.queue.eraseIdx k }.acquired job.handler.id job.ec
    | none => none
  | .timeOut i => s.timedOut i
  | .pass i => if s.bots[i]? = some .working then some (s.pass i) else none

/-- The executor may run what is posted in any order. -/
def machine : Machine Bots Event := ⟨step⟩

/-- The tokens that are granted and on their way to a bot. -/
def granted (s : Bots) : Nat := s.queue.countP (·.ec == .success)

/-- The bots that have a token. -/
def holding (s : Bots) : Nat := Population.total Bot.holds s.bots

/-- The bots that left although they had been granted a token. -/
def lost (s : Bots) : Nat := Population.total Bot.lost s.bots

/-- The outstanding acquires of bot `i`. -/
def outstanding (s : Bots) (i : Nat) : Nat := Population.weightAt Bot.outstanding s.bots i

/-- The semaphore with its line and the slots of the bots, one place for every outstanding
acquire, and the account of the tokens. -/
structure Orderly (initial : Nat) (s : Bots) : Prop where
  represents : ∃ queue, s.semaphore.Represents queue
  owned : s.semaphore.Owned
  connected : ∀ op ∈ s.semaphore.waiters, op.handler.slot = some op.handler.id
  census : ∀ i, s.semaphore.linked i + Semaphore.postedFor s.queue i = s.outstanding i
  cancelled : ∀ i, s.bots[i]? = some .bored → s.semaphore.linked i = 0
  served : ∀ item ∈ s.queue, s.bots[item.handler.id]? = some .racing → item.ec = .success
  tokens : s.semaphore.count + s.granted + s.holding + s.lost = initial

theorem start_orderly (exec : Executor) (initial : Nat) : (start exec initial).Orderly initial where
  represents := ⟨_, Semaphore.create_represents exec initial (Int.natCast_nonneg _)⟩
  owned := ⟨List.nodup_nil, by simp [start, Semaphore.create], by simp [start, Semaphore.create]⟩
  connected := by simp [start, Semaphore.create]
  census i := rfl
  cancelled i found := by simp [start] at found
  served := by simp [start]
  tokens := by simp [start, Semaphore.create, granted, holding, lost, Population.total]

/-- A move of one bot beside the end of some waits keeps the order, if the acquire of the bot
stays outstanding or not, its new state is not that of a race, and the tokens are the same. -/
theorem Orderly.moves {initial : Nat} {s : Bots} (orderly : s.Orderly initial) {i : Nat}
    {old new : Bot} {bots : Population Bot} (moves : Population.Moves i old new s.bots bots)
    {semaphore : Semaphore} {ec : ErrorCode} {posted : List Posted}
    (completes : s.semaphore.Completes ec semaphore posted)
    (represents : ∃ queue, semaphore.Represents queue)
    (same : new.outstanding = old.outstanding) (ended : new ≠ .racing)
    (cancelled : new = .bored → semaphore.linked i = 0)
    (codes : ∀ item ∈ posted, item.ec = .success ∨ item.handler.id = i)
    (tokens : semaphore.count + posted.countP (·.ec == .success) + new.holds + new.lost =
      s.semaphore.count + old.holds + old.lost) :
    (⟨semaphore, s.queue ++ posted, bots⟩ : Bots).Orderly initial where
  represents := represents
  owned := orderly.owned.completes completes
  connected op member := orderly.connected op (completes.remaining.subset member)
  census j := by
    have before := orderly.census j
    have moved := completes.census j
    have changed := moves.weightAt Bot.outstanding j
    have split : Semaphore.postedFor (s.queue ++ posted) j =
        Semaphore.postedFor s.queue j + Semaphore.postedFor posted j := List.countP_append
    simp only [same, outstanding] at changed before ⊢
    rw [split]
    omega
  cancelled j found := by
    change bots[j]? = _ at found
    rw [moves.state] at found
    by_cases mine : i = j
    · rw [if_pos mine] at found
      exact mine ▸ cancelled (Option.some.inj found)
    · rw [if_neg mine] at found
      have moved := completes.census j
      have before := orderly.cancelled j found
      change semaphore.linked j = 0
      omega
  served item member found := by
    change bots[item.handler.id]? = _ at found
    rw [moves.state] at found
    by_cases mine : i = item.handler.id
    · rw [if_pos mine] at found
      exact absurd (Option.some.inj found) ended
    · rw [if_neg mine] at found
      rcases List.mem_append.mp member with earlier | later
      · exact orderly.served item earlier found
      · exact (codes item later).resolve_right (fun own => mine own.symm)
  tokens := by
    have before := orderly.tokens
    have holding := moves.total Bot.holds
    have lost := moves.total Bot.lost
    have split : (s.queue ++ posted).countP (·.ec == .success) =
        s.queue.countP (·.ec == .success) + posted.countP (·.ec == .success) :=
      List.countP_append
    simp only [granted, Bots.holding, Bots.lost] at before ⊢
    omega

/-- A new bot has nothing yet. -/
theorem spawn_orderly {initial : Nat} {s : Bots} (orderly : s.Orderly initial) :
    ({ s with bots := s.bots ++ [.approaching] } : Bots).Orderly initial where
  represents := orderly.represents
  owned := orderly.owned
  connected := orderly.connected
  census i := by
    have before := orderly.census i
    have same : Population.weightAt Bot.outstanding (s.bots ++ [.approaching]) i =
        s.outstanding i := by simp [Population.weightAt_join, Bot.outstanding, outstanding]
    exact before.trans same.symm
  cancelled i found := by
    rcases Population.found_join found with old | ⟨-, new⟩
    · exact orderly.cancelled i old
    · cases new
  served item member found := by
    rcases Population.found_join found with old | ⟨-, new⟩
    · exact orderly.served item member old
    · cases new
  tokens := by
    have before := orderly.tokens
    simp only [granted, holding, lost, Population.total_join, Bot.holds, Bot.lost] at before ⊢
    omega

/-- A bot that approaches takes a free token, or is refused. -/
theorem approach_orderly {initial : Nat} {s : Bots} (orderly : s.Orderly initial) {i : Nat}
    (found : s.bots[i]? = some .approaching) : (s.approach i).Orderly initial := by
  obtain ⟨queue, represents⟩ := orderly.represents
  have represents' := (Semaphore.tryAcquire_represents represents).1
  have completes := s.semaphore.tryAcquire_completes
  have kept : s.approach i = ⟨s.semaphore.tryAcquire.2, s.queue ++ [],
      s.bots.set i (if s.semaphore.tryAcquire.1 then .working else .refused)⟩ := by
    rw [List.append_nil]
    rfl
  rw [kept]
  refine orderly.moves ⟨found, rfl⟩ completes ⟨_, represents'⟩ ?_ ?_ ?_ (by simp) ?_
  · split <;> rfl
  · split <;> simp
  · split <;> simp
  · by_cases free : 0 < s.semaphore.count
    · simp only [Semaphore.tryAcquire, free, ↓reduceIte, List.countP_nil, Bot.holds, Bot.lost]
      omega
    · simp [Semaphore.tryAcquire, free, Bot.holds, Bot.lost]

/-- The timeout of a racing bot ends its wait, or comes after the token. -/
theorem bored_orderly {initial : Nat} {s : Bots} (orderly : s.Orderly initial) {i : Nat}
    (found : s.bots[i]? = some .racing) :
    (⟨(s.semaphore.emit i .terminal).1, s.queue ++ (s.semaphore.emit i .terminal).2,
      s.bots.set i .bored⟩ : Bots).Orderly initial := by
  obtain ⟨queue, represents⟩ := orderly.represents
  have completes := Semaphore.emit_completes represents.slots i .terminal
  refine orderly.moves ⟨found, rfl⟩ completes (Semaphore.emit_represents represents i _) rfl
    (by simp) (fun _ => Semaphore.emit_unlinks represents orderly.owned (by decide) ?_) ?_ ?_
  · exact fun op member mine => mine ▸ orderly.connected op member
  · intro item member
    rcases Semaphore.emit_cases represents.slots i .terminal with lost | ⟨op, waits, own, aborted⟩
    · simp [lost] at member
    · rw [aborted, List.mem_singleton] at member
      have mine := orderly.connected op waits
      rw [own, Option.some.injEq] at mine
      exact .inr (member ▸ mine.symm)
  · rcases Semaphore.emit_cases represents.slots i .terminal with lost | ⟨op, waits, own, aborted⟩
    · simp [lost, Bot.holds, Bot.lost]
    · simp [aborted, Bot.holds, Bot.lost, ErrorCode.operationAborted]

/-- A bot that is done gives its token to the oldest waiting one, or leaves it. -/
theorem pass_orderly {initial : Nat} {s : Bots} (orderly : s.Orderly initial) {i : Nat}
    (found : s.bots[i]? = some .working) : (s.pass i).Orderly initial := by
  obtain ⟨queue, represents⟩ := orderly.represents
  refine orderly.moves ⟨found, rfl⟩ s.semaphore.release_completes
    ⟨_, (Semaphore.release_represents represents).1⟩ rfl (by simp) (by simp) ?_ ?_
  · intro item member
    rw [(Semaphore.release_represents represents).2] at member
    obtain ⟨op, -, rfl⟩ := List.mem_map.mp member
    exact .inl rfl
  · cases line : s.semaphore.waiters with
    | nil =>
      simp only [Semaphore.release, Semaphore.increment, line, List.countP_nil, Bot.holds, Bot.lost]
      omega
    | cons op rest =>
      rw [Semaphore.release_waiting represents line]
      simp [Bot.holds, Bot.lost]

/-- A bot that was refused takes a token that has become free, or waits. Nothing was
outstanding for it before. -/
theorem race_orderly {initial : Nat} {s : Bots} (orderly : s.Orderly initial) {i : Nat}
    (found : s.bots[i]? = some .refused) : (s.race i).Orderly initial := by
  obtain ⟨queue, represents⟩ := orderly.represents
  have moves : Population.Moves i .refused .racing s.bots (s.race i).bots := ⟨found, rfl⟩
  have idle : s.semaphore.linked i + Semaphore.postedFor s.queue i = 0 := by
    rw [orderly.census i, outstanding, Population.weightAt_found found]
    rfl
  refine ⟨⟨_, (Semaphore.asyncAcquire_represents represents (s.handler i)).1⟩,
    orderly.owned.asyncAcquire (s.handler i) (by simp only [handler]; omega)
      (fun slot own => (Option.some.inj own).symm), ?_, ?_, ?_, ?_, ?_⟩
  · intro op member
    rcases s.semaphore.asyncAcquire_waiters (s.handler i) op member with old | rfl
    · exact orderly.connected op old
    · rfl
  · intro j
    have before := orderly.census j
    have added := s.semaphore.asyncAcquire_census (s.handler i) j
    have split : Semaphore.postedFor (s.race i).queue j = Semaphore.postedFor s.queue j +
      Semaphore.postedFor (s.semaphore.asyncAcquire (s.handler i)).2 j := List.countP_append
    have changed := moves.weightAt Bot.outstanding j
    change _ = _ + (if i = j then 1 else 0) at added
    change _ + (if i = j then 0 else 0) = _ + (if i = j then 1 else 0) at changed
    rw [split]
    simp only [outstanding] at before ⊢
    change (s.semaphore.asyncAcquire (s.handler i)).1.linked j + _ = _
    simp only [ite_self, Nat.add_zero] at changed
    omega
  · intro j bored
    rw [moves.state] at bored
    have added := s.semaphore.asyncAcquire_census (s.handler i) j
    change _ = _ + (if i = j then 1 else 0) at added
    by_cases mine : i = j
    · simp [mine] at bored
    · rw [if_neg mine] at bored added
      have before := orderly.cancelled j bored
      change (s.semaphore.asyncAcquire (s.handler i)).1.linked j = 0
      omega
  · intro item member racing
    rcases List.mem_append.mp member with earlier | later
    · rw [moves.state] at racing
      by_cases mine : i = item.handler.id
      · have posted : 0 < Semaphore.postedFor s.queue i :=
          List.countP_pos_iff.mpr ⟨item, earlier, by simp [mine]⟩
        omega
      · rw [if_neg mine] at racing
        exact orderly.served item earlier racing
    · rw [s.semaphore.asyncAcquire_posted (s.handler i) item later]
  · have before := orderly.tokens
    have holding := moves.total Bot.holds
    have lost := moves.total Bot.lost
    have split : (s.race i).queue.countP (·.ec == .success) = s.queue.countP (·.ec == .success) +
      (s.semaphore.asyncAcquire (s.handler i)).2.countP (·.ec == .success) := List.countP_append
    have spent : (s.semaphore.asyncAcquire (s.handler i)).1.count +
        (s.semaphore.asyncAcquire (s.handler i)).2.countP (·.ec == .success) =
          s.semaphore.count := by
      by_cases free : s.semaphore.count ≠ 0 <;> simp [Semaphore.asyncAcquire, free, Semaphore.decrement]
    simp only [Bot.holds, Bot.lost] at holding lost
    simp only [granted, Bots.holding, Bots.lost, split] at before ⊢
    change (s.semaphore.asyncAcquire (s.handler i)).1.count + _ + _ + _ = _
    omega

/-- The completion of an acquire reaches its bot, which is told of a token or loses it. -/
theorem run_orderly {initial : Nat} {s : Bots} (orderly : s.Orderly initial) {k : Nat}
    {job : Posted} (queued : s.queue[k]? = some job) {old new : Bot}
    {bots : Population Bot} (moves : Population.Moves job.handler.id old new s.bots bots)
    (was : old.outstanding = 1) (becomes : new.outstanding = 0)
    (tokens : (if job.ec = .success then 1 else 0) + old.holds + old.lost = new.holds + new.lost) :
    (⟨s.semaphore, s.queue.eraseIdx k, bots⟩ : Bots).Orderly initial := by
  obtain ⟨bound, rfl⟩ := List.getElem?_eq_some_iff.mp queued
  have taken := List.getElem_cons_eraseIdx_perm bound
  have elsewhere {j : Nat} {bot : Bot} (found : bots[j]? = some bot) (busy : bot.outstanding = 1) :
      s.bots[j]? = some bot := by
    rw [moves.state] at found
    by_cases mine : s.queue[k].handler.id = j
    · rw [if_pos mine, Option.some.injEq] at found
      rw [found, busy] at becomes
      cases becomes
    · rwa [if_neg mine] at found
  refine ⟨orderly.represents, orderly.owned, orderly.connected, ?_, ?_, ?_, ?_⟩
  · intro j
    have before := orderly.census j
    have fewer := taken.countP_eq (·.handler.id == j)
    have changed := moves.weightAt Bot.outstanding j
    simp only [was, becomes, ite_self, Nat.add_zero] at changed
    simp only [List.countP_cons, beq_iff_eq] at fewer
    simp only [Semaphore.postedFor, outstanding] at before ⊢
    omega
  · exact fun j bored => orderly.cancelled j (elsewhere bored rfl)
  · exact fun item member racing =>
      orderly.served item (List.mem_of_mem_eraseIdx member) (elsewhere racing rfl)
  · have before := orderly.tokens
    have holding := moves.total Bot.holds
    have lost := moves.total Bot.lost
    have fewer := taken.countP_eq (·.ec == .success)
    simp only [List.countP_cons, beq_iff_eq] at fewer
    simp only [granted, Bots.holding, Bots.lost] at before ⊢
    omega

/-- Every event of the bots and of the executor keeps the order. -/
theorem step_orderly {initial : Nat} (s : Bots) (event : Event) (next : Bots)
    (orderly : s.Orderly initial) (stepped : machine.step s event = some next) :
    next.Orderly initial := by
  cases event with
  | spawn =>
    obtain rfl := Option.some.inj stepped
    exact spawn_orderly orderly
  | approach i =>
    obtain ⟨found, moved⟩ := Option.ite_none_right_eq_some.mp stepped
    obtain rfl := Option.some.inj moved
    exact approach_orderly orderly found
  | race i =>
    obtain ⟨found, moved⟩ := Option.ite_none_right_eq_some.mp stepped
    obtain rfl := Option.some.inj moved
    exact race_orderly orderly found
  | run k =>
    cases queued : s.queue[k]? with
    | none => simp [machine, step, queued] at stepped
    | some job =>
      simp only [machine, step, queued, acquired] at stepped
      split at stepped
      · rename_i racing
        obtain rfl := Option.some.inj stepped
        have success := orderly.served job (List.mem_of_getElem? queued) racing
        exact run_orderly orderly queued ⟨racing, rfl⟩ rfl rfl (by simp [success, Bot.holds, Bot.lost])
      · rename_i bored
        obtain rfl := Option.some.inj stepped
        refine run_orderly orderly queued ⟨bored, rfl⟩ rfl rfl ?_
        cases ec : job.ec <;> simp [Bot.holds, Bot.lost]
      · cases stepped
  | timeOut i =>
    simp only [machine, step, timedOut] at stepped
    split at stepped
    · rename_i racing
      obtain rfl := Option.some.inj stepped
      exact bored_orderly orderly racing
    · rename_i served
      obtain rfl := Option.some.inj stepped
      have moves : Population.Moves i .served .working s.bots (s.bots.set i .working) :=
        ⟨served, rfl⟩
      have kept := orderly.moves moves (s.semaphore.completes_nothing .success)
        orderly.represents rfl (by simp) (by simp) (by simp) (by simp [Bot.holds, Bot.lost])
      rwa [List.append_nil] at kept
    · cases stepped
  | pass i =>
    obtain ⟨found, moved⟩ := Option.ite_none_right_eq_some.mp stepped
    obtain rfl := Option.some.inj moved
    exact pass_orderly orderly found

theorem run_orderly_of_start (exec : Executor) (initial : Nat) {events : List Event} {s : Bots}
    (ran : machine.run (start exec initial) events = some s) : s.Orderly initial :=
  machine.run_invariant step_orderly (start_orderly exec initial) ran

/-- Every event but a new bot brings one bot closer to its end, and no bot that has left
moves again. -/
theorem step_moves {s : Bots} {event : Event} {next : Bots}
    (stepped : machine.step s event = some next) (other : event ≠ .spawn) :
    ∃ i old new, Population.Moves i old new s.bots next.bots ∧
      new.remaining < old.remaining ∧ old.lost = 0 := by
  cases event with
  | spawn => exact absurd rfl other
  | approach i =>
    obtain ⟨found, moved⟩ := Option.ite_none_right_eq_some.mp stepped
    obtain rfl := Option.some.inj moved
    refine ⟨i, _, _, ⟨found, rfl⟩, ?_, rfl⟩
    split <;> decide
  | race i =>
    obtain ⟨found, moved⟩ := Option.ite_none_right_eq_some.mp stepped
    obtain rfl := Option.some.inj moved
    exact ⟨i, _, _, ⟨found, rfl⟩, by decide, rfl⟩
  | run k =>
    cases queued : s.queue[k]? with
    | none => simp [machine, step, queued] at stepped
    | some job =>
      simp only [machine, step, queued, acquired] at stepped
      split at stepped
      · rename_i racing
        obtain rfl := Option.some.inj stepped
        exact ⟨_, _, _, ⟨racing, rfl⟩, by decide, rfl⟩
      · rename_i bored
        obtain rfl := Option.some.inj stepped
        exact ⟨_, _, _, ⟨bored, rfl⟩, by simp [Bot.remaining], rfl⟩
      · cases stepped
  | timeOut i =>
    simp only [machine, step, timedOut] at stepped
    split at stepped
    · rename_i racing
      obtain rfl := Option.some.inj stepped
      exact ⟨i, _, _, ⟨racing, rfl⟩, by decide, rfl⟩
    · rename_i served
      obtain rfl := Option.some.inj stepped
      exact ⟨i, _, _, ⟨served, rfl⟩, by decide, rfl⟩
    · cases stepped
  | pass i =>
    obtain ⟨found, moved⟩ := Option.ite_none_right_eq_some.mp stepped
    obtain rfl := Option.some.inj moved
    exact ⟨i, _, _, ⟨found, rfl⟩, by decide, rfl⟩

/-- A token that is lost stays lost. -/
theorem step_lost {s : Bots} {event : Event} {next : Bots}
    (stepped : machine.step s event = some next) : s.lost ≤ next.lost := by
  by_cases spawn : event = .spawn
  · subst spawn
    obtain rfl := Option.some.inj stepped
    simp only [lost, Population.total_join]
    omega
  · obtain ⟨i, old, new, moves, -, nothing⟩ := step_moves stepped spawn
    have lost := moves.total Bot.lost
    simp only [Bots.lost]
    omega

/-- Where no event but a new bot is possible, every bot has ended: an acquire that was
cancelled is posted, and can be run. -/
theorem Orderly.ended {initial : Nat} {s : Bots} (orderly : s.Orderly initial)
    (stuck : ∀ event, event ≠ .spawn → machine.step s event = none) :
    ∀ bot ∈ s.bots, bot.remaining = 0 := by
  intro bot member
  obtain ⟨i, bound, found⟩ := List.mem_iff_getElem.mp member
  replace found : s.bots[i]? = some bot := List.getElem?_eq_some_iff.mpr ⟨bound, found⟩
  cases bot with
  | approaching => simpa [machine, step, found] using stuck (.approach i) (by simp)
  | refused => simpa [machine, step, found] using stuck (.race i) (by simp)
  | racing => simpa [machine, step, timedOut, found] using stuck (.timeOut i) (by simp)
  | served => simpa [machine, step, timedOut, found] using stuck (.timeOut i) (by simp)
  | bored =>
    have placed := orderly.census i
    have unlinked := orderly.cancelled i found
    have busy : s.outstanding i = 1 := Population.weightAt_found found
    have posted : 0 < Semaphore.postedFor s.queue i := by omega
    obtain ⟨job, inside, own⟩ := List.countP_pos_iff.mp posted
    obtain ⟨k, bound, same⟩ := List.mem_iff_getElem.mp inside
    have queued : s.queue[k]? = some job := List.getElem?_eq_some_iff.mpr ⟨bound, same⟩
    have mine : s.bots[job.handler.id]? = some .bored := by
      rw [beq_iff_eq.mp own]
      exact found
    simpa [machine, step, queued, acquired, mine] using stuck (.run k) (by simp)
  | working => simpa [machine, step, found] using stuck (.pass i) (by simp)
  | passed => rfl
  | left ec => rfl

/-- A bot that has ended has nothing outstanding and no token. -/
theorem Orderly.settled {initial : Nat} {s : Bots} (orderly : s.Orderly initial)
    (ended : ∀ bot ∈ s.bots, bot.remaining = 0) :
    s.queue = [] ∧ s.semaphore.waiters = [] ∧ s.semaphore.count + s.lost = initial := by
  have idle (i : Nat) : s.outstanding i = 0 := by
    by_contra busy
    obtain ⟨bot, found, weight⟩ := Population.found_of_weightAt (Nat.pos_of_ne_zero busy)
    have zero := ended bot (List.mem_of_getElem? found)
    cases bot <;> first | exact Nat.lt_irrefl 0 weight | cases zero
  have empty : s.queue = [] := by
    refine List.eq_nil_iff_forall_not_mem.mpr (fun item member => ?_)
    have posted : 0 < Semaphore.postedFor s.queue item.handler.id :=
      List.countP_pos_iff.mpr ⟨item, member, by simp⟩
    have placed := orderly.census item.handler.id
    have nothing := idle item.handler.id
    omega
  have vacant : s.semaphore.waiters = [] := by
    refine List.eq_nil_iff_forall_not_mem.mpr (fun op member => ?_)
    have linked : 0 < s.semaphore.linked op.handler.id :=
      List.countP_pos_iff.mpr ⟨op, member, by simp⟩
    have placed := orderly.census op.handler.id
    have nothing := idle op.handler.id
    omega
  have nobody : s.holding = 0 := Population.total_eq_zero.mpr (fun bot member => by
    have zero := ended bot member
    cases bot <;> first | rfl | cases zero)
  have account := orderly.tokens
  simp only [granted, empty, nobody, List.countP_nil] at account
  exact ⟨empty, vacant, by omega⟩

/-- Every token is in the counter, on its way to a bot, with a bot, or lost with one that got
bored after it had been granted one. What is lost stays lost: from then on fewer bots can
work at once. -/
theorem tokens_accounted (exec : Executor) (initial : Nat) (events : List Event) (s : Bots)
    (ran : machine.run (start exec initial) events = some s) :
    s.semaphore.count + s.granted + s.holding + s.lost = initial ∧
      ∀ more last, machine.run s more = some last →
        s.lost ≤ last.lost ∧ last.holding + s.lost ≤ initial := by
  have orderly := run_orderly_of_start exec initial ran
  refine ⟨orderly.tokens, fun more last followed => ?_⟩
  have grows (state : Bots) (event : Event) (next : Bots) (grown : s.lost ≤ state.lost)
      (stepped : machine.step state event = some next) : s.lost ≤ next.lost :=
    grown.trans (step_lost stepped)
  have kept := machine.run_invariant grows (Nat.le_refl s.lost) followed
  obtain ⟨queue, represents⟩ :=
    (machine.run_invariant step_orderly orderly followed).represents
  have account := (machine.run_invariant step_orderly orderly followed).tokens
  rw [represents.count] at account
  exact ⟨kept, by omega⟩

/-- The second bot is granted the token of the first one just before its deadline. -/
def boredTooSoon : List Event :=
  [.spawn, .spawn, .approach 0, .approach 1, .race 1, .pass 0, .timeOut 1, .run 0]

theorem tokens_accounted_boredTooSoon :
    ∃ s, machine.run (start 0 1) boredTooSoon = some s ∧ s.lost = 1 ∧
      ∀ more last, machine.run s more = some last → last.holding = 0 := by
  refine ⟨_, rfl, rfl, fun more last followed => ?_⟩
  have bound := ((tokens_accounted 0 1 boredTooSoon _ rfl).2 more last followed).2
  have lost : 1 ≤ last.holding + 1 := Nat.le_add_left 1 last.holding
  exact Nat.le_zero.mp (Nat.le_of_succ_le_succ bound)

/-- The bots all leave. A bot takes at most five steps, and when no step is left every bot
has passed the semaphore or got bored; the semaphore then has the tokens again that were
not lost. -/
theorem bots_all_leave (exec : Executor) (initial : Nat) (events : List Event) (s : Bots)
    (ran : machine.run (start exec initial) events = some s) :
    events.countP (fun event => !decide (event = .spawn)) ≤ 5 * events.countP (· = .spawn) ∧
      ((∀ event, event ≠ .spawn → machine.step s event = none) →
        (∀ bot ∈ s.bots, bot = .passed ∨ ∃ ec, bot = .left ec) ∧ s.queue = [] ∧
          s.semaphore.value = some (initial - s.lost : Int)) := by
  have orderly := run_orderly_of_start exec initial ran
  constructor
  · have bound := machine.run_descents_le step_orderly
      (fun s => Population.total Bot.remaining s.bots) (· = .spawn) 5
      (fun state event next _ stepped other => ?_) (fun state event next _ stepped spawn => ?_)
      (start_orderly exec initial) ran
    · simp only [start, Population.total, List.map_nil, List.sum_nil] at bound
      omega
    · obtain ⟨i, old, new, moves, less, -⟩ := step_moves stepped (of_decide_eq_false other)
      have changed := moves.total Bot.remaining
      change Population.total _ _ < Population.total _ _
      omega
    · obtain rfl := of_decide_eq_true spawn
      obtain rfl := Option.some.inj stepped
      exact (Population.total_join Bot.remaining state.bots .approaching).le
  · intro stuck
    have ended := orderly.ended stuck
    obtain ⟨empty, vacant, account⟩ := orderly.settled ended
    refine ⟨fun bot member => ?_, empty, ?_⟩
    · have zero := ended bot member
      cases bot with
      | passed => exact .inl rfl
      | left ec => exact .inr ⟨ec, rfl⟩
      | _ => cases zero
    · rw [Semaphore.value, if_pos vacant]
      congr 1
      omega

theorem bots_all_leave_boredTooSoon :
    ∃ s, machine.run (start 0 1) boredTooSoon = some s ∧ s.semaphore.value = some 0 := by
  refine ⟨_, rfl, ?_⟩
  refine ((bots_all_leave 0 1 boredTooSoon _ rfl).2 (fun event other => ?_)).2.2
  cases event with
  | spawn => exact absurd rfl other
  | run k => rfl
  | approach i | race i | timeOut i | pass i =>
    obtain _ | _ | i := i <;> rfl

end Bots

end Asioex
