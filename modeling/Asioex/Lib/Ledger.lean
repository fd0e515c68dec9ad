import Asioex.Lib.TokenQueue

/-!
# Histories of numbered claims on a token queue

Claims are numbered in the order they are made. Each one is settled at most once,
either granted a token or withdrawn. The ledger keeps the settlements in the order
they happen, so that fairness is a statement about that list: a grant comes after
the settlement of every earlier claim. Tokens are neither created nor lost, and
the value of the queue is the initial value plus releases and withdrawals minus
claims and immediate takes.
-/

/-- A token queue together with the history of its claims. A settlement is marked
true when its claim was granted and false when it was withdrawn. -/
structure Ledger where
  queue : TokenQueue Nat
  issued : Nat
  settled : List (Nat × Bool)
  released : Nat
  taken : Nat

namespace Ledger

/-- What can happen to the queue. A withdrawal names a waiting claim. -/
inductive Action where
  | acquire
  | take
  | release
  | withdraw (ticket : Nat)

/-- No claim has been made yet, and every token is free. -/
def start (tokens : Nat) : Ledger := ⟨⟨tokens, [], .inr rfl⟩, 0, [], 0, 0⟩

/-- Only a withdrawal can be refused, when its claim is not waiting. -/
def step (ledger : Ledger) : Action → Option Ledger
  | .acquire =>
    some { ledger with
      queue := ledger.queue.acquire ledger.issued
      issued := ledger.issued + 1
      settled := ledger.settled ++
        if ledger.queue.tokens = 0 then [] else [(ledger.issued, true)] }
  | .take =>
    some { ledger with
      queue := ledger.queue.take
      taken := ledger.taken + if ledger.queue.tokens = 0 then 0 else 1 }
  | .release =>
    some { ledger with
      queue := ledger.queue.release
      released := ledger.released + 1
      settled := ledger.settled ++ (ledger.queue.waiting.take 1).map (·, true) }
  | .withdraw ticket =>
    if ticket ∈ ledger.queue.waiting then
      some { ledger with
        queue := ledger.queue.withdraw ticket
        settled := ledger.settled ++ [(ticket, false)] }
    else none

def machine : Machine Ledger Action := ⟨step⟩

/-- As many releases as there are claims waiting serve exactly those, in order. -/
theorem run_release_all (ledger : Ledger) :
    machine.run ledger (List.replicate ledger.queue.waiting.length .release) =
      some { ledger with
        queue := ledger.queue.clear
        released := ledger.released + ledger.queue.waiting.length
        settled := ledger.settled ++ ledger.queue.waiting.map (·, true) } := by
  generalize line : ledger.queue.waiting = waiting
  induction waiting generalizing ledger with
  | nil =>
    have vacant : ledger.queue = ledger.queue.clear := by ext1 <;> simp [line]
    simp [← vacant]
  | cons ticket rest inductionHypothesis =>
    refine (machine.run_cons).mpr ⟨_, rfl, ?_⟩
    rw [inductionHypothesis _ (by simp [line])]
    have same : ledger.queue.release.clear = ledger.queue.clear := by ext1 <;> simp [line]
    simp [line, same]
    omega

/-- Withdrawing every waiting claim in turn empties the line. -/
theorem run_withdraw_all (ledger : Ledger) :
    machine.run ledger (ledger.queue.waiting.map .withdraw) =
      some { ledger with
        queue := ledger.queue.clear
        settled := ledger.settled ++ ledger.queue.waiting.map (·, false) } := by
  generalize line : ledger.queue.waiting = waiting
  induction waiting generalizing ledger with
  | nil =>
    have vacant : ledger.queue = ledger.queue.clear := by ext1 <;> simp [line]
    simp [← vacant]
  | cons ticket rest inductionHypothesis =>
    refine (machine.run_cons).mpr ⟨_, by simp [machine, step, line]; rfl, ?_⟩
    rw [inductionHypothesis _ (by simp [line])]
    have same : (ledger.queue.withdraw ticket).clear = ledger.queue.clear := by ext1 <;> simp
    simp [same]

/-- Tickets of the granted claims, in the order of their grants. -/
def granted (settled : List (Nat × Bool)) : List Nat :=
  (settled.filter (·.2)).map Prod.fst

@[simp] theorem granted_append (first second : List (Nat × Bool)) :
    granted (first ++ second) = granted first ++ granted second := by
  simp [granted]

/-- Each grant comes after the settlement of every earlier claim. -/
def NoOvertaking (settled : List (Nat × Bool)) : Prop :=
  ∀ before ticket after, settled = before ++ (ticket, true) :: after →
    ∀ earlier < ticket, earlier ∈ before.map Prod.fst

/-- A settlement may be appended when it is a withdrawal, or when every earlier
claim has already been settled. -/
theorem NoOvertaking.snoc {settled : List (Nat × Bool)} (ordered : NoOvertaking settled)
    (ticket : Nat) (grant : Bool)
    (behind : grant = true → ∀ earlier < ticket, earlier ∈ settled.map Prod.fst) :
    NoOvertaking (settled ++ [(ticket, grant)]) := by
  intro before later after split
  rcases List.eq_nil_or_concat after with rfl | ⟨rest, final, rfl⟩
  · obtain ⟨same, last⟩ := List.append_inj' split rfl
    obtain ⟨rfl, rfl⟩ := Prod.mk.inj (List.singleton_inj.mp last)
    exact same ▸ behind rfl
  · have regrouped : settled ++ [(ticket, grant)] = (before ++ (later, true) :: rest) ++ [final] := by
      simpa using split
    obtain ⟨same, -⟩ := List.append_inj' regrouped rfl
    exact ordered before later rest same

/-- Claims wait in arrival order, every claim is waiting or settled, and grants
run in arrival order ahead of everyone still waiting. -/
structure Fair (ledger : Ledger) : Prop where
  sorted : ledger.queue.waiting.Pairwise (· < ·)
  waitingIssued : ∀ ticket ∈ ledger.queue.waiting, ticket < ledger.issued
  settledIssued : ∀ entry ∈ ledger.settled, entry.1 < ledger.issued
  accounted : ∀ ticket < ledger.issued,
    ticket ∈ ledger.queue.waiting ∨ ticket ∈ ledger.settled.map Prod.fst
  ahead : ∀ ticket ∈ granted ledger.settled, ∀ later ∈ ledger.queue.waiting, ticket < later
  increasing : (granted ledger.settled).Pairwise (· < ·)
  ordered : NoOvertaking ledger.settled

theorem start_fair (tokens : Nat) : (start tokens).Fair where
  sorted := List.Pairwise.nil
  waitingIssued := by simp [start]
  settledIssued := by simp [start]
  accounted := by simp [start]
  ahead := by simp [start]
  increasing := List.Pairwise.nil
  ordered := by simp [start, NoOvertaking]

namespace Fair

variable {ledger : Ledger} (fair : ledger.Fair)
include fair

theorem granted_issued {ticket : Nat} (member : ticket ∈ granted ledger.settled) :
    ticket < ledger.issued := by
  obtain ⟨entry, present, rfl⟩ := List.mem_map.mp member
  exact fair.settledIssued entry (List.mem_of_mem_filter present)

/-- A claim made beside a free token is granted at once. Nobody is waiting then,
so all earlier claims are settled and the new ticket is the largest. -/
theorem grant_newest (free : ledger.queue.tokens ≠ 0) :
    Fair { ledger with
      queue := ledger.queue.acquire ledger.issued
      issued := ledger.issued + 1
      settled := ledger.settled ++ [(ledger.issued, true)] } := by
  have vacant : ledger.queue.waiting = [] := ledger.queue.waiting_of_tokens free
  refine ⟨?_, ?_, ?_, ?_, ?_, ?_, ?_⟩
  · simp [free, vacant]
  · simp [free, vacant]
  · intro entry member
    rcases List.mem_append.mp member with old | new
    · exact Nat.lt_succ_of_lt (fair.settledIssued entry old)
    · simp_all
  · intro ticket bound
    right
    rcases Nat.lt_succ_iff_lt_or_eq.mp bound with old | rfl
    · have settled := (fair.accounted ticket old).resolve_left (by simp [vacant])
      simp only [List.map_append, List.mem_append]
      exact .inl settled
    · simp
  · simp [free, vacant]
  · simp only [granted_append]
    refine List.pairwise_append.mpr ⟨fair.increasing, by simp [granted], ?_⟩
    intro ticket member newest isNewest
    have same : newest = ledger.issued := by simpa [granted] using isNewest
    exact same ▸ fair.granted_issued member
  · refine fair.ordered.snoc _ _ (fun _ earlier bound => ?_)
    exact (fair.accounted earlier bound).resolve_left (by simp [vacant])

/-- A claim made without a free token waits behind every earlier claim. -/
theorem wait_newest (none : ledger.queue.tokens = 0) :
    Fair { ledger with
      queue := ledger.queue.acquire ledger.issued
      issued := ledger.issued + 1 } := by
  refine ⟨?_, ?_, ?_, ?_, ?_, fair.increasing, fair.ordered⟩
  · simp only [TokenQueue.acquire_waiting, none, ↓reduceIte]
    refine List.pairwise_append.mpr ⟨fair.sorted, by simp, ?_⟩
    intro ticket member newest isNewest
    have same : newest = ledger.issued := by simpa using isNewest
    exact same ▸ fair.waitingIssued ticket member
  · intro ticket member
    simp only [TokenQueue.acquire_waiting, none, ↓reduceIte, List.mem_append,
      List.mem_singleton] at member
    rcases member with old | rfl
    · exact Nat.lt_succ_of_lt (fair.waitingIssued ticket old)
    · exact Nat.lt_succ_self _
  · intro entry member
    exact Nat.lt_succ_of_lt (fair.settledIssued entry member)
  · intro ticket bound
    simp only [TokenQueue.acquire_waiting, none, ↓reduceIte, List.mem_append, List.mem_singleton]
    rcases Nat.lt_succ_iff_lt_or_eq.mp bound with old | rfl
    · exact (fair.accounted ticket old).imp .inl id
    · exact .inl (.inr rfl)
  · intro ticket member later present
    simp only [TokenQueue.acquire_waiting, none, ↓reduceIte, List.mem_append,
      List.mem_singleton] at present
    rcases present with old | rfl
    · exact fair.ahead ticket member later old
    · exact fair.granted_issued member

/-- Settling a waiting claim keeps the ledger fair when the claim is withdrawn,
or when it stands at the head of the line. -/
theorem settle (ticket : Nat) (present : ticket ∈ ledger.queue.waiting) (grant : Bool)
    (queue : TokenQueue Nat) (line : queue.waiting = ledger.queue.waiting.erase ticket)
    (released : Nat) (oldest : grant = true → ∀ other ∈ ledger.queue.waiting, ticket ≤ other) :
    Fair { ledger with
      queue := queue
      released := released
      settled := ledger.settled ++ [(ticket, grant)] } := by
  have unique : ledger.queue.waiting.Nodup := fair.sorted.imp Nat.ne_of_lt
  have remaining (other : Nat) : other ∈ queue.waiting → other ∈ ledger.queue.waiting := by
    rw [line]
    exact List.mem_of_mem_erase
  have issued : ticket < ledger.issued := fair.waitingIssued ticket present
  have newGrant (other : Nat) (member : other ∈ granted (ledger.settled ++ [(ticket, grant)])) :
      other ∈ granted ledger.settled ∨ other = ticket ∧ grant = true := by
    cases grant <;> simpa [granted] using member
  refine ⟨?_, ?_, ?_, ?_, ?_, ?_, ?_⟩
  · exact line ▸ fair.sorted.sublist List.erase_sublist
  · exact fun other member => fair.waitingIssued other (remaining other member)
  · intro entry member
    rcases List.mem_append.mp member with old | new
    · exact fair.settledIssued entry old
    · rw [List.mem_singleton.mp new]
      exact issued
  · intro other bound
    simp only [List.map_append, List.map_cons, List.map_nil, List.mem_append, List.mem_singleton]
    by_cases same : other = ticket
    · exact .inr (.inr same)
    · rw [line, List.mem_erase_of_ne same]
      exact (fair.accounted other bound).imp id .inl
  · intro other member later waiting
    rcases newGrant other member with old | ⟨rfl, granting⟩
    · exact fair.ahead other old later (remaining later waiting)
    · have apart : later ≠ other := by
        rintro rfl
        rw [line] at waiting
        exact (unique.mem_erase_iff.mp waiting).1 rfl
      have below := oldest granting later (remaining later waiting)
      omega
  · rw [granted_append]
    refine List.pairwise_append.mpr ⟨fair.increasing, by cases grant <;> simp [granted], ?_⟩
    intro other member newest isNewest
    have same : newest = ticket := by cases grant <;> simp_all [granted]
    exact same ▸ fair.ahead other member ticket present
  · refine fair.ordered.snoc _ _ (fun granting earlier before => ?_)
    refine (fair.accounted earlier (by omega)).resolve_left (fun waiting => ?_)
    have above := oldest granting earlier waiting
    omega

end Fair

/-- Every enabled action keeps the ledger fair. -/
theorem step_fair (ledger : Ledger) (action : Action) (next : Ledger) (fair : ledger.Fair)
    (stepped : machine.step ledger action = some next) : next.Fair := by
  cases action with
  | acquire =>
    obtain rfl := Option.some.inj stepped
    by_cases free : ledger.queue.tokens = 0
    · simpa [free] using fair.wait_newest free
    · simpa [free] using fair.grant_newest free
  | take =>
    obtain rfl := Option.some.inj stepped
    exact ⟨fair.sorted, fair.waitingIssued, fair.settledIssued, fair.accounted, fair.ahead,
      fair.increasing, fair.ordered⟩
  | release =>
    obtain rfl := Option.some.inj stepped
    cases line : ledger.queue.waiting with
    | nil =>
      have unchanged : ledger.queue.release.waiting = ledger.queue.waiting := by simp [line]
      refine ⟨?_, ?_, ?_, ?_, ?_, ?_, ?_⟩ <;> simp only [unchanged, List.take_nil, List.map_nil,
        List.append_nil]
      exacts [fair.sorted, fair.waitingIssued, fair.settledIssued, fair.accounted, fair.ahead,
        fair.increasing, fair.ordered]
    | cons ticket rest =>
      have sorted := fair.sorted
      rw [line] at sorted
      have served := fair.settle ticket (by simp [line]) true ledger.queue.release
        (by simp [line]) (ledger.released + 1) (fun _ other member => by
          rw [line] at member
          rcases List.mem_cons.mp member with rfl | later
          · exact Nat.le_refl other
          · exact Nat.le_of_lt ((List.pairwise_cons.mp sorted).1 other later))
      simpa [line] using served
  | withdraw ticket =>
    simp only [machine, step] at stepped
    split at stepped
    · next present =>
      obtain rfl := Option.some.inj stepped
      exact fair.settle ticket present false (ledger.queue.withdraw ticket) rfl ledger.released (by simp)
    · simp at stepped

/-- Fairness of whole histories: grants run in arrival order, and nobody is
granted a token before each earlier claim has been granted or withdrawn. -/
theorem Fair.run {ledger last : Ledger} (fair : ledger.Fair) (actions : List Action)
    (ran : machine.run ledger actions = some last) : last.Fair :=
  machine.run_invariant step_fair fair ran

/-- Tokens and claims are conserved exactly. -/
structure Balanced (initial : Nat) (ledger : Ledger) : Prop where
  tokens : (granted ledger.settled).length + ledger.taken + ledger.queue.tokens =
    initial + ledger.released
  tickets : ledger.queue.waiting.length + ledger.settled.length = ledger.issued

theorem start_balanced (tokens : Nat) : Balanced tokens (start tokens) :=
  ⟨by simp [start, granted], rfl⟩

/-- Every enabled action moves a unit between the free tokens, the waiting line
and the settlements without creating or losing one. -/
theorem step_balanced (initial : Nat) (ledger : Ledger) (action : Action) (next : Ledger)
    (balanced : Balanced initial ledger) (stepped : machine.step ledger action = some next) :
    Balanced initial next := by
  obtain ⟨tokens, tickets⟩ := balanced
  cases action with
  | acquire =>
    obtain rfl := Option.some.inj stepped
    by_cases free : ledger.queue.tokens = 0
    · refine ⟨by simpa [free] using tokens, ?_⟩
      simp only [TokenQueue.acquire_waiting, free, ↓reduceIte, List.length_append,
        List.length_singleton, List.append_nil]
      omega
    · refine ⟨?_, ?_⟩
      · simp only [free, ↓reduceIte, granted_append, List.length_append, TokenQueue.acquire_tokens]
        simp only [granted, List.filter_cons, List.filter_nil, ↓reduceIte, List.map_cons,
          List.map_nil, List.length_singleton] at tokens ⊢
        omega
      · simp only [TokenQueue.acquire_waiting, free, ↓reduceIte, List.length_append,
          List.length_singleton]
        omega
  | take =>
    obtain rfl := Option.some.inj stepped
    refine ⟨?_, tickets⟩
    by_cases free : ledger.queue.tokens = 0
    · simpa [free] using tokens
    · simp [free]
      omega
  | release =>
    obtain rfl := Option.some.inj stepped
    cases line : ledger.queue.waiting with
    | nil =>
      rw [line] at tickets
      constructor <;> simp [line] at * <;> omega
    | cons ticket rest =>
      rw [line] at tickets
      constructor <;> simp [line, granted] at * <;> omega
  | withdraw ticket =>
    simp only [machine, step] at stepped
    split at stepped
    · next present =>
      obtain rfl := Option.some.inj stepped
      have shorter := List.length_erase_of_mem present
      have positive := List.length_pos_of_mem present
      refine ⟨?_, ?_⟩
      · simpa [granted] using tokens
      · simp only [TokenQueue.withdraw_waiting, shorter, List.length_append, List.length_singleton]
        omega
    · simp at stepped

/-- Conservation over whole histories. -/
theorem run_balanced (tokens : Nat) {actions : List Action} {last : Ledger}
    (ran : machine.run (start tokens) actions = some last) : Balanced tokens last :=
  machine.run_invariant (step_balanced tokens) (start_balanced tokens) ran

/-- The value of the queue after a whole history. -/
theorem Balanced.value {initial : Nat} {ledger : Ledger} (balanced : Balanced initial ledger) :
    ledger.queue.value = initial + ledger.released - ledger.taken - ledger.issued +
      (ledger.settled.filter (fun entry => !entry.2)).length := by
  have partition := List.length_eq_length_filter_add (l := ledger.settled) (·.2)
  obtain ⟨tokens, tickets⟩ := balanced
  simp only [granted, List.length_map] at tokens
  simp only [TokenQueue.value]
  omega

end Ledger
