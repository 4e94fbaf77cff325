/-!
# Directed graphs

Graphs on the numbers below a bound, given by the list of the successors of each. Searches go into the
first successor first.

* `Digraph.preorder` — what can be reached from a node, in the order of the first visit.
* `Digraph.cycles` — the strongly connected components that contain a cycle, found in one search by the
  least index on the stack that a node leads to.
-/

namespace Relink

/-- A directed graph on the numbers below `size`. -/
structure Digraph where
  size : Nat
  successors : Nat → List Nat

namespace Digraph

/-! ## Reachability -/

/-- The sum of the weights of some nodes. -/
def weigh (weight : Nat → Nat) (nodes : List Nat) : Nat := nodes.foldr (fun i n => weight i + n) 0

/-- How much is left to search: the nodes that a list does not contain, with their successors. -/
def remaining (g : Digraph) (seen : List Nat) : Nat :=
  weigh (fun i => (g.successors i).length + 1) ((List.range g.size).filter fun i => !seen.contains i)

theorem weigh_filter_of_only (weight : Nat → Nat) {p q : Nat → Bool} {i : Nat} (hp : p i = true)
    (hq : q i = false) (hpq : ∀ j, j ≠ i → q j = p j) (nodes : List Nat) (hn : nodes.Nodup) :
    weigh weight (nodes.filter q) + (if i ∈ nodes then weight i else 0) = weigh weight (nodes.filter p) := by
  induction nodes with
  | nil => rfl
  | cons a rest ih =>
    obtain ⟨hnot, hrest⟩ := List.nodup_cons.mp hn
    have hrec := ih hrest
    by_cases hai : a = i
    · subst hai
      rw [if_neg hnot] at hrec
      simp only [List.filter_cons, hp, hq, List.mem_cons_self, if_true, Bool.false_eq_true, if_false]
      unfold weigh at hrec ⊢
      rw [List.foldr_cons]
      omega
    · have hmem : (i ∈ a :: rest) = (i ∈ rest) := by
        simp [Ne.symm hai]
      rw [List.filter_cons, List.filter_cons, hpq a hai]
      simp only [hmem]
      cases p a with
      | true =>
        unfold weigh at hrec ⊢
        simp only [if_true, List.foldr_cons]
        omega
      | false => simpa using hrec

/-- A visit leaves less to search, also when the successors of the node are still to be visited. -/
theorem remaining_cons {g : Digraph} {i : Nat} {seen : List Nat} (hi : i < g.size)
    (hs : seen.contains i = false) :
    g.remaining (i :: seen) + ((g.successors i).length + 1) = g.remaining seen := by
  have h := weigh_filter_of_only (p := fun j => !seen.contains j) (q := fun j => !(i :: seen).contains j)
    (fun j => (g.successors j).length + 1) (by rw [hs]; rfl) (by simp)
    (by intro j hj; simp [hj]) (List.range g.size) List.nodup_range
  rwa [if_pos (List.mem_range.mpr hi)] at h

/-- The nodes of a list that have not been visited. -/
def unseen (seen nodes : List Nat) : List Nat := nodes.filter fun j => !seen.contains j

theorem length_unseen_le (seen nodes : List Nat) : (unseen seen nodes).length ≤ nodes.length :=
  List.length_filter_le _ _

/-- Continues a search: `seen` has been visited, the last one first, and `pending` is still to be
visited. Nodes for which `skip` holds are passed over. -/
def visit (g : Digraph) (skip : Nat → Bool) (seen pending : List Nat) : List Nat :=
  match pending with
  | [] => seen.reverse
  | i :: rest =>
    if _h : i < g.size ∧ seen.contains i = false ∧ skip i = false then
      g.visit skip (i :: seen) (unseen (i :: seen) (g.successors i) ++ rest)
    else g.visit skip seen rest
termination_by g.remaining seen + pending.length
decreasing_by
  · have := remaining_cons _h.1 _h.2.1
    have := length_unseen_le (i :: seen) (g.successors i)
    simp only [List.length_append, List.length_cons]
    omega
  · simp

/-- What can be reached from a node without the nodes for which `skip` holds, in the order of the first
visit. -/
def preorder (g : Digraph) (skip : Nat → Bool) (root : Nat) : List Nat :=
  g.visit skip [] [root]

/-! ## Cycles -/

/-- How far a search for cycles has come. -/
structure Search where
  /-- The nodes in the order of the first visit. -/
  entered : List Nat
  /-- The nodes whose component is not complete, the last one first. -/
  stack : List Nat
  /-- The complete components that contain a cycle. -/
  cycles : List (List Nat)

namespace Search

/-- A search that has entered no node. -/
def start : Search := ⟨[], [], []⟩

/-- The index of a node: its place in the order of the first visit. -/
def index (s : Search) (i : Nat) : Nat := s.entered.idxOf i

/-- Enters a node. -/
def enter (s : Search) (i : Nat) : Search := { s with entered := s.entered ++ [i], stack := i :: s.stack }

/-- Completes the component of the nodes on the stack down to a given one, which may be its own
successor. -/
def close (s : Search) (i : Nat) (loop : Bool) : Search :=
  let component := i :: (s.stack.takeWhile fun j => j != i).reverse
  { s with
    stack := (s.stack.dropWhile fun j => j != i).drop 1
    cycles := if component.length > 1 || loop then s.cycles ++ [component] else s.cycles }

end Search

/-- Whether a search enters a node. -/
def isOpen (g : Digraph) (skip : Nat → Bool) (i : Nat) : Bool := i < g.size && !skip i

/-- Looks at a successor of a node, of which `low` is the least index that has been found so far. A
successor that is not on the stack belongs to another component. -/
def follow (g : Digraph) (skip : Nat → Bool) (search : Search → Nat → Search × Nat) :
    Search × Nat → Nat → Search × Nat
  | (s, low), j =>
    if !g.isOpen skip j then (s, low)
    else if !s.entered.contains j then
      let (s, found) := search s j
      (s, min low found)
    else if s.stack.contains j then (s, min low (s.index j))
    else (s, low)

/-- Searches from a node, and gives the least index that was found on the stack. A node that leads to
none before its own is the first one of its component. The first argument bounds the depth. -/
def search (g : Digraph) (skip : Nat → Bool) : Nat → Search → Nat → Search × Nat
  | 0, s, _ => (s, s.entered.length)
  | depth + 1, s, i =>
    let index := s.entered.length
    let (s, low) := (g.successors i).foldl (g.follow skip (g.search skip depth)) (s.enter i, index)
    (if low == index then s.close i ((g.successors i).contains i) else s, low)

/-- Searches from a node that has not been entered. -/
def searchRoot (g : Digraph) (skip : Nat → Bool) (s : Search) (i : Nat) : Search :=
  if g.isOpen skip i && !s.entered.contains i then (g.search skip g.size s i).1 else s

/-- The strongly connected components that contain a cycle, among the nodes for which `skip` does not
hold. The nodes of a component are in the order of the first visit. -/
def cycles (g : Digraph) (skip : Nat → Bool) : List (List Nat) :=
  ((List.range g.size).foldl (g.searchRoot skip) .start).cycles

end Digraph

end Relink
