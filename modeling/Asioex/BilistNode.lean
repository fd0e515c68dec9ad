import Asioex.Lib.LinkedRing
import Asioex.Lib.Machine

/-!
# The intrusive ring

`bilist_node`, one definition for each member, over the pointers of all nodes. The
nodes are whatever can be told apart, in any number; a sentinel is a node that is
never linked itself. The abstract model is a list with the operations that the ring
is for: insertion before a member, or at the end, and removal.

Neither `link_before` nor `unlink` looks at the whole ring, and `unlink` leaves the
node's own pointers as they were. What a node holds while it is not in the ring is
therefore arbitrary here, and it may be constructed anew at any such time. Node
counts are unbounded: a `std::size_t` counts all the nodes that fit in memory.
-/

universe u

namespace Asioex

/-- What the pointers `next_` and `prev_` of every node hold. -/
structure BilistNodes (N : Type u) where
  next : N → N
  prev : N → N

namespace BilistNodes

variable {N : Type u} [DecidableEq N]

/-- `node->next_ = target` -/
def setNext (nodes : BilistNodes N) (node target : N) : BilistNodes N :=
  { nodes with next := Function.update nodes.next node target }

/-- `node->prev_ = target` -/
def setPrev (nodes : BilistNodes N) (node target : N) : BilistNodes N :=
  { nodes with prev := Function.update nodes.prev node target }

/-- `bilist_node::bilist_node` -/
def construct (nodes : BilistNodes N) (this : N) : BilistNodes N :=
  (nodes.setNext this this).setPrev this this

/-- `bilist_node::unlink` -/
def unlink (nodes : BilistNodes N) (this : N) : BilistNodes N :=
  let p := nodes.prev this
  let n := nodes.next this
  let nodes := nodes.setPrev n p
  nodes.setNext p n

/-- `bilist_node::link_before`. The third write follows the pointer that the second
one stored. -/
def linkBefore (nodes : BilistNodes N) (this next : N) : BilistNodes N :=
  let nodes := nodes.setNext this next
  let nodes := nodes.setPrev this (nodes.prev next)
  let nodes := nodes.setNext (nodes.prev this) this
  nodes.setPrev next this

/-- The loop `for (auto p = next_; p != this; p = p->next_) sz++` of `size`; running
out of fuel before it is left is no result. -/
def sizeLoop (nodes : BilistNodes N) (this : N) : Nat → N → Nat → Option Nat
  | 0, p, sz => if p = this then some sz else none
  | fuel + 1, p, sz =>
    if p = this then some sz else sizeLoop nodes this fuel (nodes.next p) (sz + 1)

/-- `bilist_node::size` -/
def size (nodes : BilistNodes N) (this : N) (fuel : Nat) : Option Nat :=
  nodes.sizeLoop this fuel (nodes.next this) 0

/-- What `link_before` writes to the forward pointers: the node's own, and that of
the node that was before the place. -/
theorem linkBefore_next (nodes : BilistNodes N) (this next : N) :
    (nodes.linkBefore this next).next =
      Function.update (Function.update nodes.next this next) (nodes.prev next) this := by
  simp [linkBefore, setNext, setPrev]

theorem linkBefore_prev (nodes : BilistNodes N) (this next : N) :
    (nodes.linkBefore this next).prev =
      Function.update (Function.update nodes.prev this (nodes.prev next)) next this := rfl

theorem unlink_next (nodes : BilistNodes N) (this : N) :
    (nodes.unlink this).next =
      Function.update nodes.next (nodes.prev this) (nodes.next this) := rfl

theorem unlink_prev (nodes : BilistNodes N) (this : N) :
    (nodes.unlink this).prev =
      Function.update nodes.prev (nodes.next this) (nodes.prev this) := rfl

/-- The nodes `others` follow `cut` in its ring, in this order. -/
def Ring (nodes : BilistNodes N) (cut : N) (others : List N) : Prop :=
  LinkedRing nodes.next nodes.prev cut others

/-- A constructed node is alone in its ring. -/
theorem construct_ring (nodes : BilistNodes N) (this : N) : (nodes.construct this).Ring this [] :=
  .single (Function.update_self ..) (Function.update_self ..)

/-- Constructing a node that is not in a ring does not touch the ring. -/
theorem construct_outside {nodes : BilistNodes N} {cut this : N} {others : List N}
    (linked : nodes.Ring cut others) (outside : this ∉ cut :: others) :
    (nodes.construct this).Ring cut others := by
  have apart (node : N) (member : node ∈ cut :: others) : node ≠ this := by
    rintro rfl
    exact outside member
  exact LinkedRing.congr linked
    (fun node member => Function.update_of_ne (apart node member) _ _)
    (fun node member => Function.update_of_ne (apart node member) _ _)

/-- A node linked before the cut is the last one around the ring. -/
theorem linkBefore_ring {nodes : BilistNodes N} {next this : N} {others : List N}
    (linked : nodes.Ring next others) (fresh : this ∉ next :: others) :
    (nodes.linkBefore this next).Ring next (others ++ [this]) := by
  have before : nodes.prev next ∈ next :: others := by
    rw [LinkedRing.prev_cut linked]
    exact List.getLast_mem _
  have apart (node : N) (member : node ∈ next :: others) : node ≠ this := by
    rintro rfl
    exact fresh member
  have first : next ∉ others := (List.nodup_cons.mp linked.distinct).1
  apply LinkedRing.link linked fresh
  · rw [linkBefore_next, Function.update_self]
  · rw [linkBefore_next, Function.update_of_ne (apart _ before).symm, Function.update_self]
  · intro other member notLast
    rw [linkBefore_next, Function.update_of_ne notLast, Function.update_of_ne (apart other member)]
  · rw [linkBefore_prev, Function.update_self]
  · rw [linkBefore_prev, Function.update_of_ne (apart next List.mem_cons_self).symm,
      Function.update_self]
  · intro other member
    have notFirst : other ≠ next := fun same => first (same ▸ member)
    rw [linkBefore_prev, Function.update_of_ne notFirst,
      Function.update_of_ne (apart other (List.mem_cons_of_mem next member))]

/-- Without the node at the cut, the ring is cut at the node after it. -/
theorem unlink_ring {nodes : BilistNodes N} {this node : N} {others : List N}
    (linked : nodes.Ring this (node :: others)) : (nodes.unlink this).Ring node others := by
  have second : nodes.next this = node := linked.forward.1
  have first : node ∉ others :=
    (List.nodup_cons.mp (List.nodup_cons.mp linked.distinct).2).1
  apply LinkedRing.unlink linked
  · rw [unlink_next, Function.update_self]
  · intro other _ notLast
    rw [unlink_next, Function.update_of_ne notLast]
  · rw [unlink_prev, Function.update_self]
  · intro other member
    have notFirst : other ≠ nodes.next this := fun same => first (second ▸ same ▸ member)
    rw [unlink_prev, Function.update_of_ne notFirst]

/-- The loop counts the rest of the path on which it stands, its current node included.

Proof: induction on the rest of the path, which stops at `this` and not before. -/
theorem sizeLoop_path {nodes : BilistNodes N} {this p : N} {rest : List N}
    (path : LinkedRing.Path nodes.next p rest this) (away : this ∉ p :: rest)
    (fuel sz : Nat) (enough : rest.length + 1 ≤ fuel) :
    nodes.sizeLoop this fuel p sz = some (sz + rest.length + 1) := by
  induction rest generalizing p sz fuel with
  | nil =>
    have other : p ≠ this := fun same => away (same ▸ List.mem_cons_self)
    have step : nodes.next p = this := path
    cases fuel with
    | zero => exact absurd enough (by simp)
    | succ fuel =>
      rw [sizeLoop, if_neg other, step]
      cases fuel <;> exact if_pos rfl
  | cons next rest inductionHypothesis =>
    obtain ⟨step, later⟩ := path
    have other : p ≠ this := fun same => away (same ▸ List.mem_cons_self)
    have further : this ∉ next :: rest := fun member => away (List.mem_cons_of_mem p member)
    cases fuel with
    | zero => exact absurd enough (by simp)
    | succ fuel =>
      have remaining : rest.length + 1 ≤ fuel := Nat.le_of_succ_le_succ enough
      rw [sizeLoop, if_neg other, step, inductionHypothesis later further fuel (sz + 1) remaining,
        List.length_cons]
      congr 1
      omega

/-- `size` returns the number of the other nodes of the ring, once its loop is given
an iteration for each of them. -/
theorem size_ring {nodes : BilistNodes N} {this : N} {others : List N}
    (linked : nodes.Ring this others) (fuel : Nat) (enough : others.length ≤ fuel) :
    nodes.size this fuel = some others.length := by
  cases others with
  | nil =>
    have step : nodes.next this = this := linked.forward
    cases fuel <;> simp [size, sizeLoop, step]
  | cons node rest =>
    obtain ⟨step, later⟩ := linked.forward
    have away : this ∉ node :: rest := (List.nodup_cons.mp linked.distinct).1
    rw [size, step, sizeLoop_path later away fuel 0 enough, List.length_cons, Nat.zero_add]

end BilistNodes

namespace BilistNode

variable {N : Type u} [DecidableEq N]

inductive Event (N : Type u) where
  | construct (this : N)
  | linkBefore (this next : N)
  | unlink (this : N)
deriving DecidableEq, Repr

/-- The member of `bilist_node` that an event calls. -/
def call (nodes : BilistNodes N) : Event N → BilistNodes N
  | .construct this => nodes.construct this
  | .linkBefore this next => nodes.linkBefore this next
  | .unlink this => nodes.unlink this

/-- Insertion before a member of a list. The place before a node that is not a
member is the end. -/
def insertBefore (this next : N) : List N → List N
  | [] => [this]
  | node :: rest =>
    if node = next then this :: node :: rest else node :: insertBefore this next rest

/-- The list that a ring is for, and which calls the ring is made for: a node is
constructed or linked while it is not linked, before the sentinel or a linked node,
and it is unlinked while it is linked. -/
def listed (sentinel : N) : Machine (List N) (Event N) where
  step list event :=
    match event with
    | .construct this => if this ∉ sentinel :: list then some list else none
    | .linkBefore this next =>
      if this ∉ sentinel :: list ∧ next ∈ sentinel :: list then some (insertBefore this next list)
      else none
    | .unlink this => if this ∈ list then some (list.erase this) else none

/-- What the calls so far say of one node: linked by its last link or unlink, or never. -/
def linked (events : List (Event N)) (node : N) : Bool :=
  events.foldl (fun before event =>
    match event with
    | .construct _ => before
    | .linkBefore this _ => if this = node then true else before
    | .unlink this => if this = node then false else before) false

/-- The end of the list is the place before the sentinel. -/
theorem insertBefore_end (this next : N) (list : List N) (outside : next ∉ list) :
    insertBefore this next list = list ++ [this] := by
  induction list with
  | nil => rfl
  | cons node rest inductionHypothesis =>
    have other : node ≠ next := fun same => outside (same ▸ List.mem_cons_self)
    have further : next ∉ rest := fun member => outside (List.mem_cons_of_mem node member)
    rw [insertBefore, if_neg other, inductionHypothesis further, List.cons_append]

/-- The place before a member is found by its first occurrence. -/
theorem insertBefore_member (this next : N) (before after : List N) (first : next ∉ before) :
    insertBefore this next (before ++ next :: after) = before ++ this :: next :: after := by
  induction before with
  | nil => exact if_pos rfl
  | cons node rest inductionHypothesis =>
    have other : node ≠ next := fun same => first (same ▸ List.mem_cons_self)
    have further : next ∉ rest := fun member => first (List.mem_cons_of_mem node member)
    rw [List.cons_append, insertBefore, if_neg other, inductionHypothesis further, List.cons_append]

theorem mem_insertBefore (this next node : N) (list : List N) :
    node ∈ insertBefore this next list ↔ node = this ∨ node ∈ list := by
  induction list with
  | nil => simp [insertBefore]
  | cons first rest inductionHypothesis =>
    rw [insertBefore]
    split
    · exact List.mem_cons
    · rw [List.mem_cons, inductionHypothesis, List.mem_cons]
      exact or_left_comm

/-- `link_before` inserts, at the sentinel and at every linked node.

Proof: the ring is cut at the node before which the new one goes, and cut at the
sentinel again afterwards. -/
theorem linkBefore_inserts {nodes : BilistNodes N} {sentinel this next : N} {list : List N}
    (ring : nodes.Ring sentinel list) (fresh : this ∉ sentinel :: list)
    (place : next ∈ sentinel :: list) :
    (nodes.linkBefore this next).Ring sentinel (insertBefore this next list) := by
  have outside : sentinel ∉ list := (List.nodup_cons.mp ring.distinct).1
  rcases List.mem_cons.mp place with rfl | member
  · rw [insertBefore_end this next list outside]
    exact BilistNodes.linkBefore_ring ring fresh
  · obtain ⟨before, after, first, rfl, -⟩ := List.exists_erase_eq member
    rw [insertBefore_member this next before after first]
    have absent : this ∉ next :: (after ++ sentinel :: before) := by
      intro member
      exact fresh (by simp only [List.mem_cons, List.mem_append] at member ⊢; tauto)
    have atPlace := BilistNodes.linkBefore_ring (LinkedRing.rotate ring) absent
    rw [List.append_assoc, List.cons_append] at atPlace
    have atSentinel := LinkedRing.rotate atPlace
    rwa [List.append_assoc, List.singleton_append] at atSentinel

/-- `unlink` erases, next to the sentinel on either side and everywhere else. -/
theorem unlink_erases {nodes : BilistNodes N} {sentinel this : N} {list : List N}
    (ring : nodes.Ring sentinel list) (member : this ∈ list) :
    (nodes.unlink this).Ring sentinel (list.erase this) := by
  obtain ⟨before, after, -, rfl, erased⟩ := List.exists_erase_eq member
  rw [erased]
  have atNode := LinkedRing.rotate ring
  cases after with
  | nil =>
    rw [List.append_nil]
    exact BilistNodes.unlink_ring atNode
  | cons node rest =>
    have atNext := BilistNodes.unlink_ring atNode
    exact LinkedRing.rotate atNext

/-- Every admitted call does to the ring what it does to the list. -/
theorem step_ring {nodes : BilistNodes N} {sentinel : N} {list next : List N} {event : Event N}
    (ring : nodes.Ring sentinel list) (stepped : (listed sentinel).step list event = some next) :
    (call nodes event).Ring sentinel next := by
  cases event with
  | construct this =>
    obtain ⟨outside, same⟩ := Option.ite_none_right_eq_some.mp stepped
    exact Option.some.inj same ▸ BilistNodes.construct_outside ring outside
  | linkBefore this place =>
    obtain ⟨⟨fresh, found⟩, same⟩ := Option.ite_none_right_eq_some.mp stepped
    exact Option.some.inj same ▸ linkBefore_inserts ring fresh found
  | unlink this =>
    obtain ⟨member, same⟩ := Option.ite_none_right_eq_some.mp stepped
    exact Option.some.inj same ▸ unlink_erases ring member

/-- Every admitted call makes its node a member, or removes it. -/
theorem step_linked {sentinel : N} {past : List (Event N)} {list next : List N} {event : Event N}
    (distinct : list.Nodup) (before : ∀ node, node ∈ list ↔ linked past node = true)
    (stepped : (listed sentinel).step list event = some next) (node : N) :
    node ∈ next ↔ linked (past ++ [event]) node = true := by
  rw [linked, List.foldl_append, ← linked, List.foldl_cons, List.foldl_nil]
  cases event with
  | construct this =>
    obtain ⟨-, same⟩ := Option.ite_none_right_eq_some.mp stepped
    exact Option.some.inj same ▸ before node
  | linkBefore this place =>
    obtain ⟨-, same⟩ := Option.ite_none_right_eq_some.mp stepped
    rw [← Option.some.inj same, mem_insertBefore, before node]
    by_cases own : this = node
    · simp [own]
    · simp [own, Ne.symm own]
  | unlink this =>
    obtain ⟨-, same⟩ := Option.ite_none_right_eq_some.mp stepped
    rw [← Option.some.inj same, distinct.mem_erase_iff, before node]
    by_cases own : this = node
    · simp [own]
    · simp [own, Ne.symm own]

/-- The ring and its list over whole runs, from the sentinel's construction on. -/
theorem run_ring (sentinel : N) (nodes : BilistNodes N) {events : List (Event N)} {list : List N}
    (ran : (listed sentinel).run [] events = some list) :
    (events.foldl call (nodes.construct sentinel)).Ring sentinel list ∧
      ∀ node, node ∈ list ↔ linked events node = true := by
  have keeps (past : List (Event N)) (list : List N) (event : Event N) (next : List N)
      (before : (past.foldl call (nodes.construct sentinel)).Ring sentinel list ∧
        ∀ node, node ∈ list ↔ linked past node = true)
      (stepped : (listed sentinel).step list event = some next) :
      ((past ++ [event]).foldl call (nodes.construct sentinel)).Ring sentinel next ∧
        ∀ node, node ∈ next ↔ linked (past ++ [event]) node = true := by
    obtain ⟨ring, members⟩ := before
    have distinct : list.Nodup := (List.nodup_cons.mp ring.distinct).2
    refine ⟨?_, step_linked distinct members stepped⟩
    rw [List.foldl_append]
    exact step_ring ring stepped
  have initial : ∀ node, node ∈ ([] : List N) ↔ linked [] node = true := by simp [linked]
  exact (listed sentinel).run_history keeps ⟨nodes.construct_ring sentinel, initial⟩ ran

/-- The ring refines its list in every run. From the sentinel, `next_` visits the
linked nodes in the order of the list and then the sentinel again, and `prev_` visits
them in reverse; no other node is ever reached; and `size` leaves its loop with their
number. -/
theorem ring_refines_list (sentinel : N) (nodes : BilistNodes N) (events : List (Event N))
    (list : List N) (ran : (listed sentinel).run [] events = some list) :
    let ring := events.foldl call (nodes.construct sentinel)
    (∀ node, node ∈ list ↔ linked events node = true) ∧
    (sentinel :: list).Nodup ∧
    List.iterate ring.next (ring.next sentinel) (list.length + 1) = list ++ [sentinel] ∧
    List.iterate ring.prev (ring.prev sentinel) (list.length + 1) = list.reverse ++ [sentinel] ∧
    (∀ steps, ring.next^[steps] sentinel ∈ sentinel :: list ∧
      ring.prev^[steps] sentinel ∈ sentinel :: list) ∧
    ∀ fuel, list.length ≤ fuel → ring.size sentinel fuel = some list.length := by
  intro ring
  obtain ⟨closed, members⟩ : ring.Ring sentinel list ∧ _ := run_ring sentinel nodes ran
  have backward := closed.backward.read
  rw [List.length_reverse] at backward
  refine ⟨members, closed.distinct, closed.forward.read, backward, fun steps => ⟨?_, ?_⟩,
    fun fuel enough => BilistNodes.size_ring closed fuel enough⟩
  · exact closed.forward.closed steps
  · have reached := closed.backward.closed steps
    simpa using reached

/-- Three nodes are linked, at the end, at the front and in between; the one in between
leaves, and comes back at the end. -/
def relinked : List (Event Nat) :=
  [.construct 1, .construct 2, .construct 3, .linkBefore 1 0, .linkBefore 2 1, .linkBefore 3 1,
    .unlink 3, .linkBefore 3 0]

theorem ring_refines_list_relinked :
    let ring := relinked.foldl call (BilistNodes.construct ⟨id, id⟩ 0)
    List.iterate ring.next (ring.next 0) 4 = [2, 1, 3, 0] ∧ ring.size 0 3 = some 3 := by
  intro ring
  obtain ⟨-, -, visits, -, -, counts⟩ :=
    ring_refines_list 0 ⟨id, id⟩ relinked [2, 1, 3] (by decide)
  exact ⟨visits, counts 3 (Nat.le_refl 3)⟩

end BilistNode

end Asioex
