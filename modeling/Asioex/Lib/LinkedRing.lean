import Mathlib.Data.List.Iterate
import Mathlib.Data.List.Nodup
import Mathlib.Logic.Function.Basic

/-!
# Circular doubly linked lists

A path is what one pointer field spells: starting at a node, the pointers lead over
a list of nodes to a last one. A linked ring is a path from a node back to itself
over the others, with a second field that spells the same path backwards.

A ring has no first node. It may be cut at any of its members, and cutting it at
another one rotates the list of the others. The two edits are therefore stated at
the cut where they are simplest: linking in at the end of the others, and taking
out the node at the cut.
-/

universe u

namespace LinkedRing

variable {N : Type u}

/-- The pointers lead from `first` over the listed nodes, in order, to `last`. -/
def Path (field : N → N) : N → List N → N → Prop
  | first, [], last => field first = last
  | first, node :: rest, last => field first = node ∧ Path field node rest last

@[simp] theorem path_nil (field : N → N) (first last : N) :
    Path field first [] last ↔ field first = last := Iff.rfl

@[simp] theorem path_cons (field : N → N) (first node last : N) (rest : List N) :
    Path field first (node :: rest) last ↔ field first = node ∧ Path field node rest last := Iff.rfl

/-- A path may be cut at each of its nodes. -/
theorem path_append (field : N → N) (first node last : N) (before after : List N) :
    Path field first (before ++ node :: after) last ↔
      Path field first before node ∧ Path field node after last := by
  induction before generalizing first with
  | nil => exact Iff.rfl
  | cons next rest inductionHypothesis =>
    rw [List.cons_append, path_cons, path_cons, inductionHypothesis, and_assoc]

/-- A path is determined by the pointers of the nodes it leaves. -/
theorem Path.congr {field other : N → N} {first last : N} {nodes : List N}
    (path : Path field first nodes last) (same : ∀ node ∈ first :: nodes, other node = field node) :
    Path other first nodes last := by
  induction nodes generalizing first with
  | nil => exact (same first List.mem_cons_self).trans path
  | cons node rest inductionHypothesis =>
    obtain ⟨step, later⟩ := path
    have kept : ∀ next ∈ node :: rest, other next = field next :=
      fun next member => same next (List.mem_cons_of_mem first member)
    exact ⟨(same first List.mem_cons_self).trans step, inductionHypothesis later kept⟩

/-- Another node with the pointer of the first one starts the same path. -/
theorem Path.restart {field other : N → N} {first start last : N} {nodes : List N}
    (path : Path field first nodes last) (copied : other start = field first)
    (same : ∀ node ∈ nodes, other node = field node) : Path other start nodes last := by
  cases nodes with
  | nil => exact copied.trans path
  | cons node rest =>
    obtain ⟨step, later⟩ := path
    exact ⟨copied.trans step, later.congr same⟩

/-- The last pointer of a path may be led to another node. -/
theorem Path.redirect {field other : N → N} {first last target : N} {nodes : List N}
    (path : Path field first nodes last) (distinct : (first :: nodes).Nodup)
    (led : other ((first :: nodes).getLast (List.cons_ne_nil first nodes)) = target)
    (same : ∀ node ∈ first :: nodes,
      node ≠ (first :: nodes).getLast (List.cons_ne_nil first nodes) → other node = field node) :
    Path other first nodes target := by
  induction nodes generalizing first with
  | nil => exact led
  | cons node rest inductionHypothesis =>
    obtain ⟨step, later⟩ := path
    rw [List.getLast_cons (List.cons_ne_nil node rest)] at led same
    obtain ⟨outside, apart⟩ := List.nodup_cons.mp distinct
    have earlier : first ≠ (node :: rest).getLast (List.cons_ne_nil node rest) := by
      intro equal
      exact outside (equal ▸ List.getLast_mem (List.cons_ne_nil node rest))
    have tail : Path other node rest target :=
      inductionHypothesis later apart led
        (fun next member => same next (List.mem_cons_of_mem first member))
    exact ⟨(same first List.mem_cons_self earlier).trans step, tail⟩

/-- Following the pointers reads the path, its last node included. -/
theorem Path.read {field : N → N} {first last : N} {nodes : List N}
    (path : Path field first nodes last) :
    List.iterate field (field first) (nodes.length + 1) = nodes ++ [last] := by
  induction nodes generalizing first with
  | nil =>
    have step : field first = last := path
    rw [step]
    rfl
  | cons node rest inductionHypothesis =>
    obtain ⟨step, later⟩ := path
    rw [step, List.length_cons, List.iterate, inductionHypothesis later, List.cons_append]

/-- The pointers of a path lead to its own nodes. -/
theorem Path.leads {field : N → N} {first last : N} {nodes : List N}
    (path : Path field first nodes last) (node : N) (member : node ∈ first :: nodes) :
    field node ∈ nodes ++ [last] := by
  induction nodes generalizing first with
  | nil =>
    have same : node = first := List.mem_singleton.mp member
    have step : field first = last := path
    rw [same, step]
    exact List.mem_singleton.mpr rfl
  | cons next rest inductionHypothesis =>
    obtain ⟨step, later⟩ := path
    rcases List.mem_cons.mp member with rfl | further
    · rw [step]
      exact List.mem_cons_self
    · exact List.mem_cons_of_mem next (inductionHypothesis later further)

/-- A closed path is never left. -/
theorem Path.closed {field : N → N} {first : N} {nodes : List N}
    (path : Path field first nodes first) (steps : Nat) :
    field^[steps] first ∈ first :: nodes := by
  induction steps with
  | zero => exact List.mem_cons_self
  | succ steps inductionHypothesis =>
    rw [Function.iterate_succ_apply']
    have led := path.leads _ inductionHypothesis
    exact (List.perm_append_singleton first nodes).mem_iff.mp led

end LinkedRing

/-- The nodes `cut` and `others` form one ring under `next`, in this order, and
under `prev` in the reverse order. -/
structure LinkedRing {N : Type u} (next prev : N → N) (cut : N) (others : List N) : Prop where
  forward : LinkedRing.Path next cut others cut
  backward : LinkedRing.Path prev cut others.reverse cut
  distinct : (cut :: others).Nodup

namespace LinkedRing

variable {N : Type u} {next prev : N → N} {cut : N} {others : List N}

/-- A node that points to itself in both directions is a ring without others. -/
theorem single (forward : next cut = cut) (backward : prev cut = cut) :
    LinkedRing next prev cut [] := ⟨forward, backward, List.nodup_singleton cut⟩

/-- A ring cut at another of its nodes.

Proof: both paths are cut at the new node, and their halves change places. -/
theorem rotate {node : N} {before after : List N}
    (linked : LinkedRing next prev cut (before ++ node :: after)) :
    LinkedRing next prev node (after ++ cut :: before) where
  forward := by
    obtain ⟨first, second⟩ := (path_append _ _ _ _ _ _).mp linked.forward
    exact (path_append _ _ _ _ _ _).mpr ⟨second, first⟩
  backward := by
    have reversed : (before ++ node :: after).reverse =
        after.reverse ++ node :: before.reverse := by simp
    have backward := linked.backward
    rw [reversed] at backward
    obtain ⟨first, second⟩ := (path_append _ _ _ _ _ _).mp backward
    have rotated := (path_append _ _ _ _ _ _).mpr ⟨second, first⟩
    simpa using rotated
  distinct := by
    have shifted : ((cut :: before) ++ (node :: after)).Perm ((node :: after) ++ (cut :: before)) :=
      List.perm_append_comm
    exact shifted.nodup_iff.mp linked.distinct

/-- The node before the cut is the last of the others, or the cut itself. -/
theorem prev_cut (linked : LinkedRing next prev cut others) :
    prev cut = (cut :: others).getLast (List.cons_ne_nil cut others) := by
  have backward := linked.backward
  rcases List.eq_nil_or_concat' others with rfl | ⟨before, last, rfl⟩
  · exact backward
  · rw [List.reverse_append, List.reverse_singleton, List.singleton_append] at backward
    simp [backward.1]

/-- Linking a new node in before the cut puts it at the end of the others: the
new node and its two neighbours are written, and nothing else that is in the ring. -/
theorem link {next' prev' : N → N} {node : N} (linked : LinkedRing next prev cut others)
    (fresh : node ∉ cut :: others)
    (toNode : next' (prev cut) = node) (fromNode : next' node = cut)
    (keepsNext : ∀ other ∈ cut :: others, other ≠ prev cut → next' other = next other)
    (backToNode : prev' cut = node) (backFromNode : prev' node = prev cut)
    (keepsPrev : ∀ other ∈ others, prev' other = prev other) :
    LinkedRing next' prev' cut (others ++ [node]) where
  forward := by
    rw [linked.prev_cut] at toNode keepsNext
    have ledToNode : Path next' cut others node :=
      linked.forward.redirect linked.distinct toNode keepsNext
    exact (path_append _ _ _ _ _ _).mpr ⟨ledToNode, fromNode⟩
  backward := by
    rw [List.reverse_append, List.reverse_singleton, List.singleton_append]
    have onward : Path prev' node others.reverse cut :=
      linked.backward.restart backFromNode
        (fun other member => keepsPrev other (by simpa using member))
    exact ⟨backToNode, onward⟩
  distinct := by
    have grown : (node :: cut :: others).Nodup := List.nodup_cons.mpr ⟨fresh, linked.distinct⟩
    exact (List.perm_append_singleton node (cut :: others)).nodup_iff.mpr grown

/-- Taking out the node at the cut: its two neighbours are led to each other, and
nothing else that stays in the ring is written. -/
theorem unlink {next' prev' : N → N} {node : N} (linked : LinkedRing next prev cut (node :: others))
    (toNext : next' (prev cut) = next cut)
    (keepsNext : ∀ other ∈ node :: others, other ≠ prev cut → next' other = next other)
    (backToPrev : prev' (next cut) = prev cut)
    (keepsPrev : ∀ other ∈ others, prev' other = prev other) :
    LinkedRing next' prev' node others where
  forward := by
    obtain ⟨step, later⟩ := linked.forward
    have last : prev cut = (node :: others).getLast (List.cons_ne_nil node others) := by
      rw [linked.prev_cut, List.getLast_cons (List.cons_ne_nil node others)]
    rw [last] at toNext keepsNext
    exact later.redirect (List.nodup_cons.mp linked.distinct).2 (toNext.trans step) keepsNext
  backward := by
    have backward := linked.backward
    rw [List.reverse_cons] at backward
    obtain ⟨around, -⟩ := (path_append _ _ _ _ _ _).mp backward
    have second : next cut = node := linked.forward.1
    exact around.restart (second ▸ backToPrev)
      (fun other member => keepsPrev other (by simpa using member))
  distinct := (List.nodup_cons.mp linked.distinct).2

/-- A ring is determined by the pointers of its own nodes. -/
theorem congr {next' prev' : N → N} (linked : LinkedRing next prev cut others)
    (sameNext : ∀ node ∈ cut :: others, next' node = next node)
    (samePrev : ∀ node ∈ cut :: others, prev' node = prev node) :
    LinkedRing next' prev' cut others where
  forward := linked.forward.congr sameNext
  backward := linked.backward.congr (fun node member => samePrev node (by simpa using member))
  distinct := linked.distinct

end LinkedRing
