import Mathlib.Data.List.Basic
import Asioex.Lib.Machine

/-!
# First-come first-served distribution of interchangeable tokens

A token queue holds either free tokens or waiting claimants, never both. That
exclusion is a field of the structure: a claimant is never left waiting beside a
token that could have served it, and each operation has to rebuild the proof.

The ledger numbers the claims in the order they arrive and records how each one
was settled. Every history of claims, immediate takes, releases and withdrawals
grants in arrival order, and conserves tokens and claims exactly. Nothing is said
about who calls the operations, or about when a settled claimant learns of it.
-/

universe u v
variable {α : Type u}

/-- Free tokens and waiting claimants, oldest first, of which one is always none. -/
@[ext] structure TokenQueue (α : Type u) where
  tokens : Nat
  waiting : List α
  idle : tokens = 0 ∨ waiting = []

namespace TokenQueue

/-- A present claimant rules out a free token. -/
theorem tokens_of_waiting (queue : TokenQueue α) (present : queue.waiting ≠ []) :
    queue.tokens = 0 :=
  queue.idle.resolve_right present

/-- A free token rules out every waiting claimant. -/
theorem waiting_of_tokens (queue : TokenQueue α) (free : queue.tokens ≠ 0) :
    queue.waiting = [] :=
  queue.idle.resolve_left free

/-- Claimants in the red, tokens in the black. -/
def value (queue : TokenQueue α) : Int := queue.tokens - queue.waiting.length

/-- Spend a free token, or wait behind every earlier claimant. -/
def acquire (queue : TokenQueue α) (claimant : α) : TokenQueue α :=
  if free : queue.tokens = 0 then ⟨0, queue.waiting ++ [claimant], .inl rfl⟩
  else ⟨queue.tokens - 1, queue.waiting, .inr (queue.waiting_of_tokens free)⟩

/-- Spend a free token if there is one; otherwise change nothing. -/
def take (queue : TokenQueue α) : TokenQueue α :=
  ⟨queue.tokens - 1, queue.waiting, queue.idle.imp (by omega) id⟩

/-- Serve the oldest claimant with a new token, or keep the token free. -/
def release (queue : TokenQueue α) : TokenQueue α :=
  match waiting : queue.waiting with
  | [] => ⟨queue.tokens + 1, [], .inr rfl⟩
  | _ :: rest => ⟨queue.tokens, rest, .inl (queue.tokens_of_waiting (by simp [waiting]))⟩

/-- Remove one claimant from the line without serving it. -/
def withdraw [DecidableEq α] (queue : TokenQueue α) (claimant : α) : TokenQueue α :=
  ⟨queue.tokens, queue.waiting.erase claimant,
    queue.idle.imp id (fun none => by rw [none]; rfl)⟩

/-- Empty the line without touching the free tokens. -/
def clear (queue : TokenQueue α) : TokenQueue α := ⟨queue.tokens, [], .inr rfl⟩

/-- Rename the claimants. -/
def map {β : Type v} (rename : α → β) (queue : TokenQueue α) : TokenQueue β :=
  ⟨queue.tokens, queue.waiting.map rename, queue.idle.imp id (fun none => by simp [none])⟩

section Fields

variable (queue : TokenQueue α) (claimant : α)

@[simp] theorem acquire_tokens : (queue.acquire claimant).tokens = queue.tokens - 1 := by
  unfold acquire
  split <;> simp [*]

@[simp] theorem acquire_waiting : (queue.acquire claimant).waiting =
    if queue.tokens = 0 then queue.waiting ++ [claimant] else queue.waiting := by
  unfold acquire
  split <;> simp [*]

@[simp] theorem take_tokens : queue.take.tokens = queue.tokens - 1 := rfl

@[simp] theorem take_waiting : queue.take.waiting = queue.waiting := rfl

@[simp] theorem release_tokens : queue.release.tokens =
    if queue.waiting = [] then queue.tokens + 1 else queue.tokens := by
  unfold release
  split <;> simp [*]

@[simp] theorem release_waiting : queue.release.waiting = queue.waiting.tail := by
  unfold release
  split <;> simp [*]

@[simp] theorem withdraw_tokens [DecidableEq α] :
    (queue.withdraw claimant).tokens = queue.tokens := rfl

@[simp] theorem withdraw_waiting [DecidableEq α] :
    (queue.withdraw claimant).waiting = queue.waiting.erase claimant := rfl

@[simp] theorem clear_tokens : queue.clear.tokens = queue.tokens := rfl

@[simp] theorem clear_waiting : queue.clear.waiting = [] := rfl

variable {β : Type v} (rename : α → β)

@[simp] theorem map_tokens : (queue.map rename).tokens = queue.tokens := rfl

@[simp] theorem map_waiting : (queue.map rename).waiting = queue.waiting.map rename := rfl

end Fields

/-- Renaming commutes with a claim: only the head count decides the outcome. -/
theorem map_acquire {β : Type v} (rename : α → β) (queue : TokenQueue α) (claimant : α) :
    (queue.acquire claimant).map rename = (queue.map rename).acquire (rename claimant) := by
  ext1
  · simp
  · by_cases free : queue.tokens = 0 <;> simp [free]

/-- Renaming commutes with an immediate take. -/
theorem map_take {β : Type v} (rename : α → β) (queue : TokenQueue α) :
    queue.take.map rename = (queue.map rename).take := by
  ext1 <;> simp

/-- Renaming commutes with a release: the served claimant keeps its place. -/
theorem map_release {β : Type v} (rename : α → β) (queue : TokenQueue α) :
    queue.release.map rename = (queue.map rename).release := by
  ext1
  · simp
  · simp [List.map_tail]

/-- Renaming commutes with a withdrawal when no two claimants share a name.
Otherwise erasing a name could remove an earlier claimant that only looks alike. -/
theorem map_withdraw {β : Type v} [DecidableEq α] [DecidableEq β] (rename : α → β)
    (queue : TokenQueue α) (claimant : α) (present : claimant ∈ queue.waiting)
    (distinct : (queue.waiting.map rename).Nodup) :
    (queue.withdraw claimant).map rename = (queue.map rename).withdraw (rename claimant) := by
  have erased (line : List α) (inside : claimant ∈ line) (unique : (line.map rename).Nodup) :
      (line.erase claimant).map rename = (line.map rename).erase (rename claimant) := by
    induction line with
    | nil => simp at inside
    | cons head rest inductionHypothesis =>
      by_cases same : head = claimant
      · simp [same]
      · have later : claimant ∈ rest := (List.mem_cons.mp inside).resolve_left (Ne.symm same)
        obtain ⟨absent, remaining⟩ := List.nodup_cons.mp unique
        have apart : rename head ≠ rename claimant := by
          intro equal
          exact absent (equal ▸ List.mem_map_of_mem later)
        simp [same, apart, inductionHypothesis later remaining]
  ext1
  · rfl
  · exact erased queue.waiting present distinct

section Place

variable [DecidableEq α] {claimant : α}

/-- Who stays in a line does not fall back when others leave it. -/
theorem idxOf_le_of_sublist {shorter longer : List α} (remaining : shorter.Sublist longer)
    (distinct : longer.Nodup) (member : claimant ∈ shorter) :
    shorter.idxOf claimant ≤ longer.idxOf claimant := by
  induction remaining with
  | slnil => simp at member
  | cons head rest inductionHypothesis =>
    obtain ⟨absent, unique⟩ := List.nodup_cons.mp distinct
    have other : head ≠ claimant := by
      rintro rfl
      exact absent (rest.subset member)
    have stays := inductionHypothesis unique member
    rw [List.idxOf_cons_ne _ other]
    omega
  | cons_cons head rest inductionHypothesis =>
    by_cases same : head = claimant
    · rw [List.idxOf_cons_eq _ same]
      exact Nat.zero_le _
    · have later := (List.mem_cons.mp member).resolve_left (Ne.symm same)
      have stays := inductionHypothesis (List.nodup_cons.mp distinct).2 later
      rw [List.idxOf_cons_ne _ same, List.idxOf_cons_ne _ same]
      omega

/-- Who is not served at the front moves up by one place. -/
theorem idxOf_tail {line : List α} (distinct : line.Nodup) (member : claimant ∈ line.tail) :
    1 + line.tail.idxOf claimant = line.idxOf claimant := by
  cases line with
  | nil => simp at member
  | cons head rest =>
    have later : head ≠ claimant := by
      rintro rfl
      exact (List.nodup_cons.mp distinct).1 member
    rw [List.idxOf_cons_ne _ later, List.tail_cons, Nat.add_comm]

end Place

end TokenQueue
