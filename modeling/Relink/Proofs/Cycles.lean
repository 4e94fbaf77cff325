import Mathlib.Data.List.Nodup
import Mathlib.Data.List.Perm.Subperm
import Relink.Graph
import Relink.Proofs.Digraph

/-!
# Circular dependencies

A search for cycles keeps the nodes whose components it has not completed on a stack. A node that leads to
no earlier one on the stack is the first one of its component, and the component is what lies above it.

* `Search.Sound` — what holds of the state of a search, while the nodes of a path are being searched.
* `Growth` — what a search from a node has done to the state, with some successors still to be looked at.
* `search_spec` — a search keeps what holds of the state, and completes the component of its node or finds
  the way to an earlier one.
* `ModuleGraph.mem_cycles_iff_isCycle` — the cycles of a module graph are the strongly connected components of
  the modules with a name that contain a cycle, each once, in the order of the first visit.
-/

namespace Relink

namespace Digraph

variable {g : Digraph} {skip : Nat → Bool}

theorem isOpen_iff {i : Nat} : g.isOpen skip i = true ↔ g.Open skip i := by
  simp [isOpen, Open]

/-! ## Components -/

/-- Two nodes reach each other over nodes that may be entered. -/
def Connected (g : Digraph) (enter : Nat → Prop) (i j : Nat) : Prop :=
  Reaches g enter i j ∧ Reaches g enter j i

theorem Connected.symm {enter : Nat → Prop} {i j : Nat} (h : Connected g enter i j) : Connected g enter j i :=
  ⟨h.2, h.1⟩

theorem Connected.trans {enter : Nat → Prop} {i j k : Nat} (h : Connected g enter i j)
    (h' : Connected g enter j k) : Connected g enter i k :=
  ⟨h.1.trans h'.1, h'.2.trans h.2⟩

/-- A list has the nodes of a component with a given node. -/
def IsComponent (g : Digraph) (enter : Nat → Prop) (i : Nat) (c : List Nat) : Prop :=
  ∀ j, j ∈ c ↔ Connected g enter i j

theorem IsComponent.of_connected {enter : Nat → Prop} {i j : Nat} {c : List Nat} (h : IsComponent g enter i c)
    (hij : Connected g enter i j) : IsComponent g enter j c := by
  intro k
  rw [h k]
  exact ⟨fun hik => hij.symm.trans hik, fun hjk => hij.trans hjk⟩

/-- A component contains a cycle: it has several nodes, or one that is its own successor. -/
def Cyclic (g : Digraph) (c : List Nat) : Prop := 1 < c.length ∨ ∃ j ∈ c, j ∈ g.successors j

theorem Cyclic.of_mem_iff {c c' : List Nat} (h : g.Cyclic c) (hc : c.Nodup) (hc' : c'.Nodup)
    (hmem : ∀ j, j ∈ c ↔ j ∈ c') : g.Cyclic c' := by
  have hperm : c.Perm c' := (List.perm_ext_iff_of_nodup hc hc').mpr hmem
  rcases h with hlength | ⟨j, hj, hloop⟩
  · exact Or.inl (hperm.length_eq ▸ hlength)
  · exact Or.inr ⟨j, (hmem j).mp hj, hloop⟩

theorem cyclic_cons {i : Nat} {rest : List Nat} :
    g.Cyclic (i :: rest) ↔ 1 < (i :: rest).length ∨ i ∈ g.successors i := by
  constructor
  · rintro (hlength | ⟨j, hj, hloop⟩)
    · exact Or.inl hlength
    · cases rest with
      | nil => exact Or.inr (List.mem_singleton.mp hj ▸ hloop)
      | cons a rest => exact Or.inl (by simp)
  · rintro (hlength | hloop)
    · exact Or.inl hlength
    · exact Or.inr ⟨i, List.mem_cons_self, hloop⟩

/-- Two sublists of a list without repetitions are the same if they have the same members. -/
theorem sublist_unique {l c c' : List Nat} (hl : l.Nodup) (hc : c.Sublist l) (hc' : c'.Sublist l)
    (hmem : ∀ j, j ∈ c ↔ j ∈ c') : c = c' := by
  induction l generalizing c c' with
  | nil => rw [List.sublist_nil.mp hc, List.sublist_nil.mp hc']
  | cons a l ih =>
    obtain ⟨ha, hl⟩ := List.nodup_cons.mp hl
    have hnot : ∀ {d : List Nat}, d.Sublist l → a ∉ d := fun hd hmem => ha (hd.subset hmem)
    rcases List.sublist_cons_iff.mp hc with hc | ⟨d, rfl, hd⟩ <;>
      rcases List.sublist_cons_iff.mp hc' with hc' | ⟨d', rfl, hd'⟩
    · exact ih hl hc hc' hmem
    · exact absurd ((hmem a).mpr List.mem_cons_self) (hnot hc)
    · exact absurd ((hmem a).mp List.mem_cons_self) (hnot hc')
    · -- the first node is in neither of the rests
      rw [ih hl hd hd' fun j => ?_]
      have hj := hmem j
      by_cases hja : j = a
      · subst hja
        exact ⟨fun h => absurd h (hnot hd), fun h => absurd h (hnot hd')⟩
      · simpa [hja] using hj

/-! ## The state of a search -/

namespace Search

/-- What holds of the state of a search. The nodes of `path` have been entered, but not all their successors
have been looked at. -/
structure Sound (g : Digraph) (skip : Nat → Bool) (path : List Nat) (s : Search) : Prop where
  nodup : s.entered.Nodup
  opened : ∀ i ∈ s.entered, g.Open skip i
  /-- The stack keeps the order of the first visit. -/
  stack : s.stack.reverse.Sublist s.entered
  onStack : ∀ i ∈ path, i ∈ s.stack
  explored : ∀ i ∈ s.entered, i ∉ path → ∀ j ∈ g.successors i, g.Open skip j → j ∈ s.entered
  /-- Nothing leads from a complete component back to the stack. -/
  closed : ∀ i ∈ s.entered, i ∉ s.stack → ∀ j ∈ g.successors i, j ∉ s.stack
  /-- A node on the stack reaches those above it. -/
  upward : s.stack.Pairwise fun later earlier => Reaches g (g.Open skip) earlier later

/-- The cycles that have been found are the complete components that contain a cycle. -/
structure Listed (g : Digraph) (skip : Nat → Bool) (s : Search) : Prop where
  cycles : ∀ c ∈ s.cycles, c.Sublist s.entered ∧ g.Cyclic c ∧
    ∃ i ∈ s.entered, i ∉ s.stack ∧ IsComponent g (g.Open skip) i c
  disjoint : s.cycles.flatten.Nodup
  complete : ∀ i ∈ s.entered, i ∉ s.stack → ∀ c : List Nat, c.Nodup → IsComponent g (g.Open skip) i c →
    g.Cyclic c → ∃ d ∈ s.cycles, i ∈ d

variable {path : List Nat} {s : Search} {i : Nat}

theorem mem_entered_enter {j : Nat} : j ∈ (s.enter i).entered ↔ j ∈ s.entered ∨ j = i := by
  rw [enter, List.mem_append, List.mem_singleton]

theorem not_mem_stack_enter {j : Nat} : j ∉ (s.enter i).stack ↔ j ≠ i ∧ j ∉ s.stack := by
  rw [enter, List.mem_cons, not_or]

theorem sound_start : Sound g skip [] .start where
  nodup := List.nodup_nil
  opened := by intro i hi; cases hi
  stack := List.Sublist.refl _
  onStack := by intro i hi; cases hi
  explored := by intro i hi; cases hi
  closed := by intro i hi; cases hi
  upward := List.Pairwise.nil

theorem listed_start : Listed g skip .start where
  cycles := by intro c hc; cases hc
  disjoint := List.nodup_nil
  complete := by intro i hi; cases hi

namespace Sound

theorem mem_entered (h : Sound g skip path s) {j : Nat} (hj : j ∈ s.stack) : j ∈ s.entered :=
  h.stack.subset (List.mem_reverse.mpr hj)

theorem nodup_stack (h : Sound g skip path s) : s.stack.Nodup :=
  List.nodup_reverse.mp (h.nodup.sublist h.stack)

/-- What a complete component reaches is complete. -/
theorem complete_of_reaches (h : Sound g skip path s) {j k : Nat} (hj : j ∈ s.entered) (hstack : j ∉ s.stack)
    (hjk : Reaches g (g.Open skip) j k) : k ∈ s.entered ∧ k ∉ s.stack := by
  induction hjk with
  | root _ => exact ⟨hj, hstack⟩
  | next _ hk hopen ih =>
    have hpath := fun hmem => ih.2 (h.onStack _ hmem)
    exact ⟨h.explored _ ih.1 hpath _ hk hopen, h.closed _ ih.1 ih.2 _ hk⟩

/-- A node that has not been entered is not one of as many as the graph has. -/
theorem length_lt (h : Sound g skip path s) (hi : g.Open skip i) (hnew : i ∉ s.entered) :
    s.entered.length < g.size := by
  have hsubset : i :: s.entered ⊆ List.range g.size := by
    intro j hj
    rcases List.mem_cons.mp hj with rfl | hj
    · exact List.mem_range.mpr hi.1
    · exact List.mem_range.mpr (h.opened j hj).1
  have hlength := ((List.nodup_cons.mpr ⟨hnew, h.nodup⟩).subperm hsubset).length_le
  rw [List.length_cons, List.length_range] at hlength
  exact hlength

/-- A node is entered that every node on the stack reaches. -/
theorem enter (h : Sound g skip path s) (hi : g.Open skip i) (hnew : i ∉ s.entered)
    (hreach : ∀ u ∈ s.stack, Reaches g (g.Open skip) u i) : Sound g skip (i :: path) (s.enter i) where
  nodup := by
    refine List.nodup_append.mpr ⟨h.nodup, List.nodup_singleton i, ?_⟩
    rintro a ha b hb rfl
    exact hnew (List.mem_singleton.mp hb ▸ ha)
  opened := by
    intro j hj
    rcases mem_entered_enter.mp hj with hj | rfl
    · exact h.opened j hj
    · exact hi
  stack := by
    have hstack : (s.enter i).stack.reverse = s.stack.reverse ++ [i] := List.reverse_cons
    rw [hstack]
    exact h.stack.append (List.Sublist.refl [i])
  onStack := by
    intro j hj
    rcases List.mem_cons.mp hj with rfl | hj
    · exact List.mem_cons_self
    · exact List.mem_cons_of_mem _ (h.onStack j hj)
  explored := by
    intro j hj hpath k hk hopen
    rw [List.mem_cons, not_or] at hpath
    rcases mem_entered_enter.mp hj with hj | hji
    · exact mem_entered_enter.mpr (Or.inl (h.explored j hj hpath.2 k hk hopen))
    · exact absurd hji hpath.1
  closed := by
    intro j hj hstack k hk
    obtain ⟨hji, hold⟩ := not_mem_stack_enter.mp hstack
    have hentered := (mem_entered_enter.mp hj).resolve_right hji
    refine not_mem_stack_enter.mpr ⟨?_, h.closed j hentered hold k hk⟩
    -- the node is new, but what a complete component leads to is not
    rintro rfl
    exact hnew (h.explored j hentered (fun hmem => hold (h.onStack j hmem)) k hk hi)
  upward := List.pairwise_cons.mpr ⟨hreach, h.upward⟩

/-- All successors of the last node of the path have been looked at. -/
theorem leave (h : Sound g skip (i :: path) s)
    (hseen : ∀ j ∈ g.successors i, g.Open skip j → j ∈ s.entered) : Sound g skip path s where
  nodup := h.nodup
  opened := h.opened
  stack := h.stack
  onStack := fun j hj => h.onStack j (List.mem_cons_of_mem _ hj)
  explored := by
    intro j hj hpath k hk hopen
    by_cases hji : j = i
    · subst hji
      exact hseen k hk hopen
    · refine h.explored j hj ?_ k hk hopen
      rw [List.mem_cons, not_or]
      exact ⟨hji, hpath⟩
  closed := h.closed
  upward := h.upward

/-- The nodes above a part of the stack are taken from it, when nothing leads from them to that part. -/
theorem pop (h : Sound g skip path s) {new old : List Nat} (hstack : s.stack = new ++ old)
    (hpath : ∀ j ∈ path, j ∈ old) (hbound : ∀ x ∈ new, ∀ y ∈ g.successors x, y ∉ old)
    (cycles : List (List Nat)) : Sound g skip path { s with stack := old, cycles := cycles } where
  nodup := h.nodup
  opened := h.opened
  stack := by
    have hsub := h.stack
    rw [hstack, List.reverse_append] at hsub
    exact (List.sublist_append_left _ _).trans hsub
  onStack := hpath
  explored := h.explored
  closed := by
    intro j hj hold k hk
    by_cases hnew : j ∈ new
    · exact hbound j hnew k hk
    · have hj' : j ∉ s.stack := by
        rw [hstack, List.mem_append, not_or]
        exact ⟨hnew, hold⟩
      have hk' := h.closed j hj hj' k hk
      rw [hstack, List.mem_append, not_or] at hk'
      exact hk'.2
  upward := by
    have hupward := h.upward
    rw [hstack] at hupward
    exact (List.pairwise_append.mp hupward).2.1

end Sound

namespace Listed

/-- No node of a cycle that has been found is still on the stack. -/
theorem not_mem_stack (h : Listed g skip s) (hs : Sound g skip path s) {c : List Nat} (hc : c ∈ s.cycles) {j : Nat}
    (hj : j ∈ c) : j ∉ s.stack := by
  obtain ⟨-, -, i, hi, hstack, hcomponent⟩ := h.cycles c hc
  exact (hs.complete_of_reaches hi hstack ((hcomponent j).mp hj).1).2

theorem enter (h : Listed g skip s) (hnew : i ∉ s.entered) : Listed g skip (s.enter i) where
  cycles := by
    intro c hc
    obtain ⟨hsub, hcyclic, j, hj, hstack, hcomponent⟩ := h.cycles c hc
    have hji : j ≠ i := fun heq => hnew (heq ▸ hj)
    exact ⟨hsub.trans (List.sublist_append_left _ _), hcyclic, j, mem_entered_enter.mpr (Or.inl hj),
      not_mem_stack_enter.mpr ⟨hji, hstack⟩, hcomponent⟩
  disjoint := h.disjoint
  complete := by
    intro j hj hstack
    obtain ⟨hji, hstack⟩ := not_mem_stack_enter.mp hstack
    exact h.complete j ((mem_entered_enter.mp hj).resolve_right hji) hstack

/-- The component that is taken from the stack is listed if it contains a cycle. -/
theorem pop (h : Listed g skip s) (hs : Sound g skip path s) {new old c : List Nat} (hstack : s.stack = new ++ old)
    (hnew : ∀ j ∈ new, j ∉ old) {first : Nat} (hfirst : first ∈ new) (hmem : ∀ j, j ∈ c ↔ j ∈ new)
    (hsub : c.Sublist s.entered) (hcomponent : ∀ j ∈ new, IsComponent g (g.Open skip) j c) {loop : Bool}
    (hloop : loop = true ↔ g.Cyclic c) {cycles : List (List Nat)}
    (hcycles : cycles = if loop then s.cycles ++ [c] else s.cycles) :
    Listed g skip { s with stack := old, cycles := cycles } where
  cycles := by
    intro d hd
    have hd' : d ∈ s.cycles ∨ loop = true ∧ d = c := by
      rw [hcycles] at hd
      split at hd
      next hloop => simpa [hloop] using hd
      next => exact Or.inl hd
    rcases hd' with hd | ⟨hloop', rfl⟩
    · obtain ⟨hsub', hcyclic, j, hj, hj', hcomponent'⟩ := h.cycles d hd
      refine ⟨hsub', hcyclic, j, hj, ?_, hcomponent'⟩
      rw [hstack, List.mem_append, not_or] at hj'
      exact hj'.2
    · exact ⟨hsub, hloop.mp hloop', first, hs.mem_entered (hstack ▸ List.mem_append_left _ hfirst), hnew first hfirst,
        hcomponent first hfirst⟩
  disjoint := by
    rw [hcycles]
    split
    · rw [List.flatten_concat]
      refine List.nodup_append.mpr ⟨h.disjoint, hs.nodup.sublist hsub, ?_⟩
      rintro a ha b hb rfl
      obtain ⟨d, hd, had⟩ := List.mem_flatten.mp ha
      exact h.not_mem_stack hs hd had (hstack ▸ List.mem_append_left _ ((hmem a).mp hb))
    · exact h.disjoint
  complete := by
    intro j hj hold d hd hcomponent' hcyclic
    by_cases hjnew : j ∈ new
    · -- the component of the node is the one that is taken
      have hsame : ∀ k, k ∈ d ↔ k ∈ c := fun k => (hcomponent' k).trans (hcomponent j hjnew k).symm
      have hloop' := hloop.mpr (hcyclic.of_mem_iff hd (hs.nodup.sublist hsub) hsame)
      refine ⟨c, ?_, (hmem j).mpr hjnew⟩
      rw [hcycles, if_pos hloop']
      exact List.mem_append_right _ List.mem_cons_self
    · have hj' : j ∉ s.stack := by
        rw [hstack, List.mem_append, not_or]
        exact ⟨hjnew, hold⟩
      obtain ⟨c', hc', hjc'⟩ := h.complete j hj hj' d hd hcomponent' hcyclic
      refine ⟨c', ?_, hjc'⟩
      rw [hcycles]
      split
      · exact List.mem_append_left _ hc'
      · exact hc'

end Listed

end Search

/-! ## A search from a node -/

/-- What a search from a node `i` has done to the state `s`. The nodes `new` have been put on the stack, `low`
is the least index that was found, and the successors in `pending` are still to be looked at. -/
structure Growth (g : Digraph) (skip : Nat → Bool) (s : Search) (i : Nat) (pending new : List Nat) (low : Nat)
    (s' : Search) : Prop where
  entered : s.entered ++ [i] <+: s'.entered
  /-- The order of the first visit. -/
  order : ∀ rest, g.visit skip s.entered.reverse (i :: rest) = g.visit skip s'.entered.reverse (pending ++ rest)
  stack : s'.stack = new ++ s.stack
  fresh : ∀ x ∈ new, x ∉ s.entered
  back : ∀ x ∈ new, Reaches g (g.Open skip) x i
  least : low = s.entered.length ∨ ∃ w ∈ s.stack, s.index w = low ∧ Reaches g (g.Open skip) i w
  successors : ∀ y ∈ pending, y ∈ g.successors i
  seen : ∀ y ∈ g.successors i, g.Open skip y → y ∈ s'.entered ∨ y ∈ pending
  bound : ∀ x ∈ new, ∀ y ∈ g.successors x, y ∈ s.stack → low ≤ s.index y ∨ x = i ∧ y ∈ pending

namespace Search

theorem index_lt {s : Search} {i : Nat} (h : i ∈ s.entered) : s.index i < s.entered.length :=
  List.idxOf_lt_length_of_mem h

/-- The index of a node stays. -/
theorem index_eq {s s' : Search} (h : s.entered <+: s'.entered) {i : Nat} (hi : i ∈ s.entered) :
    s'.index i = s.index i := by
  obtain ⟨rest, hrest⟩ := h
  rw [index, ← hrest, List.idxOf_append_of_mem hi]
  rfl

/-- What is entered later has a greater index. -/
theorem length_le_index {s s' : Search} (h : s.entered <+: s'.entered) {i : Nat} (hi : i ∉ s.entered) :
    s.entered.length ≤ s'.index i := by
  obtain ⟨rest, hrest⟩ := h
  rw [index, ← hrest, List.idxOf_append_of_notMem hi]
  exact Nat.le_add_right _ _

end Search

namespace Growth

open Search

variable {path : List Nat} {s s' : Search} {i low : Nat} {pending new : List Nat}

theorem extends_entered (h : Growth g skip s i pending new low s') : s.entered <+: s'.entered :=
  (List.prefix_append _ _).trans h.entered

theorem mem_entered (h : Growth g skip s i pending new low s') : i ∈ s'.entered :=
  h.entered.subset (List.mem_append_right _ List.mem_cons_self)

theorem low_le (h : Growth g skip s i pending new low s') (hs : Sound g skip path s) : low ≤ s.entered.length := by
  rcases h.least with heq | ⟨w, hw, hindex, -⟩
  · exact Nat.le_of_eq heq
  · have := index_lt (hs.mem_entered hw)
    omega

/-- A search enters its node, and looks at all successors then. -/
theorem enter (hi : g.Open skip i) (hnew : i ∉ s.entered) :
    Growth g skip s i (g.successors i) [i] s.entered.length (s.enter i) where
  entered := List.prefix_refl _
  order := by
    intro rest
    have hopen : i < g.size ∧ s.entered.reverse.contains i = false ∧ skip i = false :=
      ⟨hi.1, by simpa using hnew, hi.2⟩
    rw [visit_enter hopen, Search.enter, List.reverse_append]
    rfl
  stack := rfl
  fresh := by
    intro x hx
    exact List.mem_singleton.mp hx ▸ hnew
  back := by
    intro x hx
    rw [List.mem_singleton.mp hx]
    exact Reaches.root hi
  least := Or.inl rfl
  successors := fun y hy => hy
  seen := fun y hy _ => Or.inr hy
  bound := fun x hx y hy _ => Or.inr ⟨List.mem_singleton.mp hx, List.mem_singleton.mp hx ▸ hy⟩

/-- Every node on the stack reaches the node of the search. -/
theorem reaches (h : Growth g skip s i pending new low s')
    (hreach : ∀ u ∈ s.stack, Reaches g (g.Open skip) u i) : ∀ u ∈ s'.stack, Reaches g (g.Open skip) u i := by
  intro u hu
  rw [h.stack] at hu
  rcases List.mem_append.mp hu with hu | hu
  · exact h.back u hu
  · exact hreach u hu

/-- An index that is found on the stack is that of an earlier node, or none below that of the node itself. -/
theorem least_min (h : Growth g skip s i pending new low s') (hs : Sound g skip path s) {w found : Nat}
    (hw : w ∈ s'.stack) (hindex : s'.index w = found) (hreach : Reaches g (g.Open skip) i w) :
    min low found = s.entered.length ∨
      ∃ w ∈ s.stack, s.index w = min low found ∧ Reaches g (g.Open skip) i w := by
  rw [h.stack] at hw
  rcases List.mem_append.mp hw with hw | hw
  · -- the node is a new one, so its index is not less
    have hle := length_le_index h.extends_entered (h.fresh w hw)
    have hlow := h.low_le hs
    rw [Nat.min_eq_left (by omega)]
    exact h.least
  · have heq := index_eq h.extends_entered (hs.mem_entered hw)
    rcases Nat.le_total low found with hle | hle
    · rw [Nat.min_eq_left hle]
      exact h.least
    · rw [Nat.min_eq_right hle]
      exact Or.inr ⟨w, hw, heq ▸ hindex, hreach⟩

/-- A successor is looked at that need not be searched, as it has been entered or cannot be. -/
theorem pass {j : Nat} (h : Growth g skip s i (j :: pending) new low s')
    (hvisited : g.Open skip j → j ∈ s'.entered) {low' : Nat} (hle : low' ≤ low)
    (hleast : low' = s.entered.length ∨ ∃ w ∈ s.stack, s.index w = low' ∧ Reaches g (g.Open skip) i w)
    (hj : j ∈ s.stack → low' ≤ s.index j) : Growth g skip s i pending new low' s' where
  entered := h.entered
  order := by
    intro rest
    have hnot : ¬(j < g.size ∧ s'.entered.reverse.contains j = false ∧ skip j = false) := by
      rintro ⟨hsize, hnew, hskip⟩
      have hmem := hvisited ⟨hsize, hskip⟩
      simp [hmem] at hnew
    rw [h.order, List.cons_append, visit_pass hnot]
  stack := h.stack
  fresh := h.fresh
  back := h.back
  least := hleast
  successors := fun y hy => h.successors y (List.mem_cons_of_mem _ hy)
  seen := by
    intro y hy hopen
    rcases h.seen y hy hopen with hseen | hpending
    · exact Or.inl hseen
    · rcases List.mem_cons.mp hpending with rfl | hpending
      · exact Or.inl (hvisited hopen)
      · exact Or.inr hpending
  bound := by
    intro x hx y hy hstack
    rcases h.bound x hx y hy hstack with hbound | ⟨rfl, hpending⟩
    · exact Or.inl (Nat.le_trans hle hbound)
    · rcases List.mem_cons.mp hpending with rfl | hpending
      · exact Or.inl (hj hstack)
      · exact Or.inr ⟨rfl, hpending⟩

/-- A successor is searched. -/
theorem join {j found : Nat} {new' : List Nat} {s'' : Search} (h : Growth g skip s i (j :: pending) new low s')
    (hs : Sound g skip path s) (hj : Reaches g (g.Open skip) i j)
    (hreach : ∀ u ∈ s.stack, Reaches g (g.Open skip) u i) (hgrowth : Growth g skip s' j [] new' found s'')
    (hnew : j ∉ s'.entered) (hclosed : found = s'.entered.length → new' = []) :
    Growth g skip s i pending (new' ++ new) (min low found) s'' where
  entered := h.entered.trans hgrowth.extends_entered
  order := fun rest => by rw [h.order, List.cons_append, hgrowth.order, List.nil_append]
  stack := by rw [hgrowth.stack, h.stack, List.append_assoc]
  fresh := by
    intro x hx
    rcases List.mem_append.mp hx with hx | hx
    · exact fun hmem => hgrowth.fresh x hx (h.extends_entered.subset hmem)
    · exact h.fresh x hx
  back := by
    intro x hx
    rcases List.mem_append.mp hx with hx | hx
    · -- the component of the successor is not complete, so there is a way to the stack before the search
      rcases hgrowth.least with heq | ⟨w, hw, -, hway⟩
      · rw [hclosed heq] at hx
        cases hx
      · exact (hgrowth.back x hx).trans (hway.trans (h.reaches hreach w hw))
    · exact h.back x hx
  least := by
    rcases hgrowth.least with heq | ⟨w, hw, hindex, hway⟩
    · have hlow := h.low_le hs
      have hlength := h.extends_entered.length_le
      rw [Nat.min_eq_left (by omega)]
      exact h.least
    · exact h.least_min hs hw hindex (hj.trans hway)
  successors := fun y hy => h.successors y (List.mem_cons_of_mem _ hy)
  seen := by
    intro y hy hopen
    rcases h.seen y hy hopen with hseen | hpending
    · exact Or.inl (hgrowth.extends_entered.subset hseen)
    · rcases List.mem_cons.mp hpending with rfl | hpending
      · exact Or.inl hgrowth.mem_entered
      · exact Or.inr hpending
  bound := by
    intro x hx y hy hstack
    have hentered := hs.mem_entered hstack
    rcases List.mem_append.mp hx with hx | hx
    · have hstack' : y ∈ s'.stack := h.stack ▸ List.mem_append_right _ hstack
      rcases hgrowth.bound x hx y hy hstack' with hbound | ⟨-, hpending⟩
      · rw [index_eq h.extends_entered hentered] at hbound
        exact Or.inl (Nat.le_trans (Nat.min_le_right _ _) hbound)
      · cases hpending
    · rcases h.bound x hx y hy hstack with hbound | ⟨rfl, hpending⟩
      · exact Or.inl (Nat.le_trans (Nat.min_le_left _ _) hbound)
      · rcases List.mem_cons.mp hpending with rfl | hpending
        · -- the successor is new, so it was not on the stack
          exact absurd (h.extends_entered.subset hentered) hnew
        · exact Or.inr ⟨rfl, hpending⟩

end Growth

/-- A search from a node has kept what holds of the state. It has completed the component of the node, or has
found the way to an earlier node on the stack. -/
structure Searched (g : Digraph) (skip : Nat → Bool) (path : List Nat) (s : Search) (i : Nat) (r : Search × Nat) :
    Prop where
  sound : Search.Sound g skip path r.1
  listed : Search.Listed g skip r.1
  growth : ∃ new, Growth g skip s i [] new r.2 r.1 ∧ (r.2 = s.entered.length → new = [])

/-- A search from a node has looked at its successors but for those in `pending`. -/
structure Scanned (g : Digraph) (skip : Nat → Bool) (path : List Nat) (s : Search) (i : Nat) (pending : List Nat)
    (r : Search × Nat) : Prop where
  sound : Search.Sound g skip (i :: path) r.1
  listed : Search.Listed g skip r.1
  growth : ∃ above, Growth g skip s i pending (above ++ [i]) r.2 r.1

section Step

open Search

variable {path : List Nat} {s : Search} {i : Nat} {search : Search → Nat → Search × Nat}

/-- A search keeps what holds of the state, from a node that every node on the stack reaches. -/
def Searching (g : Digraph) (skip : Nat → Bool) (search : Search → Nat → Search × Nat) (path : List Nat) (s : Search)
    (j : Nat) : Prop :=
  Sound g skip path s → Listed g skip s → g.Open skip j → j ∉ s.entered →
    (∀ u ∈ s.stack, Reaches g (g.Open skip) u j) → Searched g skip path s j (search s j)

/-- One successor is looked at. -/
theorem Scanned.follow (hs : Sound g skip path s) (hreach : ∀ u ∈ s.stack, Reaches g (g.Open skip) u i)
    (hsearch : ∀ s' j, s.entered.length < s'.entered.length → Searching g skip search (i :: path) s' j)
    {j : Nat} {pending : List Nat} {r : Search × Nat} (h : Scanned g skip path s i (j :: pending) r) :
    Scanned g skip path s i pending (g.follow skip search r j) := by
  obtain ⟨s', low⟩ := r
  obtain ⟨hsound, hlisted, above, hgrowth⟩ := h
  have hlow := hgrowth.low_le hs
  unfold Digraph.follow
  dsimp only at hsound hlisted hgrowth ⊢
  by_cases hopen : g.Open skip j
  · have hstep := (Reaches.root (hsound.opened i hgrowth.mem_entered)).next
      (hgrowth.successors j List.mem_cons_self) hopen
    rw [if_neg (by simp [isOpen_iff.mpr hopen])]
    by_cases hentered : j ∈ s'.entered
    · rw [if_neg (by simpa using hentered)]
      by_cases hstack : j ∈ s'.stack
      · -- the successor is on the stack
        rw [if_pos (by simpa using hstack)]
        refine ⟨hsound, hlisted, above, ?_⟩
        refine hgrowth.pass (fun _ => hentered) (Nat.min_le_left _ _) (hgrowth.least_min hs hstack rfl hstep) ?_
        intro hold
        rw [index_eq hgrowth.extends_entered (hs.mem_entered hold)]
        exact Nat.min_le_right _ _
      · -- the component of the successor is complete
        rw [if_neg (by simpa using hstack)]
        refine ⟨hsound, hlisted, above, hgrowth.pass (fun _ => hentered) (Nat.le_refl _) hgrowth.least ?_⟩
        intro hold
        exact absurd (hgrowth.stack ▸ List.mem_append_right _ hold) hstack
    · rw [if_pos (by simpa using hentered)]
      have hlonger : s.entered.length < s'.entered.length := by
        have hlength := hgrowth.entered.length_le
        rw [List.length_append, List.length_singleton] at hlength
        omega
      have hto : ∀ u ∈ s'.stack, Reaches g (g.Open skip) u j :=
        fun u hu => (hgrowth.reaches hreach u hu).trans hstep
      obtain ⟨hsound', hlisted', new, hgrowth', hclosed⟩ := hsearch s' j hlonger hsound hlisted hopen hentered hto
      refine ⟨hsound', hlisted', new ++ above, ?_⟩
      have hjoin := hgrowth.join hs hstep hreach hgrowth' hentered hclosed
      rwa [← List.append_assoc] at hjoin
  · -- the successor is passed over
    rw [if_pos (by simpa only [Bool.not_eq_true', ← Bool.not_eq_true, isOpen_iff] using hopen)]
    refine ⟨hsound, hlisted, above, hgrowth.pass (fun h => absurd h hopen) (Nat.le_refl _) hgrowth.least ?_⟩
    intro hold
    exact absurd (hs.opened j (hs.mem_entered hold)) hopen

/-- All successors are looked at. -/
theorem Scanned.foldl (hs : Sound g skip path s) (hreach : ∀ u ∈ s.stack, Reaches g (g.Open skip) u i)
    (hsearch : ∀ s' j, s.entered.length < s'.entered.length → Searching g skip search (i :: path) s' j)
    {pending : List Nat} {r : Search × Nat} (h : Scanned g skip path s i pending r) :
    Scanned g skip path s i [] (pending.foldl (g.follow skip search) r) := by
  induction pending generalizing r with
  | nil => exact h
  | cons j pending ih => exact ih (h.follow hs hreach hsearch)

theorem close_eq {s' : Search} {above old : List Nat} (hstack : s'.stack = above ++ i :: old) (hi : i ∉ above)
    (loop : Bool) :
    s'.close i loop = { s' with
      stack := old
      cycles := if (i :: above.reverse).length > 1 || loop then s'.cycles ++ [i :: above.reverse] else s'.cycles } := by
  have hne : ∀ j ∈ above, (j != i) = true := by
    intro j hj
    rw [bne_iff_ne]
    rintro rfl
    exact hi hj
  have htake : (s'.stack.takeWhile fun j => j != i) = above := by
    rw [hstack, List.takeWhile_append_of_pos hne, List.takeWhile_cons_of_neg (by simp), List.append_nil]
  have hdrop : (s'.stack.dropWhile fun j => j != i) = i :: old := by
    rw [hstack, List.dropWhile_append_of_pos hne, List.dropWhile_cons_of_neg (by simp)]
  unfold close
  rw [htake, hdrop]
  rfl

/-- A node that leads to no earlier one on the stack is the first one of its component, which is what lies
above it. -/
theorem Scanned.close (hs : Sound g skip path s) {s' : Search}
    (h : Scanned g skip path s i [] (s', s.entered.length)) :
    Searched g skip path s i (s'.close i ((g.successors i).contains i), s.entered.length) := by
  obtain ⟨hsound, hlisted, above, hgrowth⟩ := h
  dsimp only at hsound hlisted hgrowth
  have hstack : s'.stack = above ++ i :: s.stack := by rw [hgrowth.stack, List.append_assoc]; rfl
  have hnodup := hsound.nodup_stack
  rw [hgrowth.stack] at hnodup
  obtain ⟨hnew, -, hdisjoint⟩ := List.nodup_append.mp hnodup
  have hi : i ∉ above := fun hmem => (List.nodup_append.mp hnew).2.2 i hmem i List.mem_cons_self rfl
  have hnot : ∀ j ∈ above ++ [i], j ∉ s.stack := fun j hj hold => hdisjoint j hj j hold rfl
  have hfirst : i ∈ above ++ [i] := List.mem_append_right _ List.mem_cons_self
  have hmem : ∀ j, j ∈ i :: above.reverse ↔ j ∈ above ++ [i] := by
    intro j
    simp [or_comm]
  -- all edges from the nodes above lead to nodes above, or to complete components
  have hbound : ∀ x ∈ above ++ [i], ∀ y ∈ g.successors x, y ∉ s.stack := by
    intro x hx y hy hold
    rcases hgrowth.bound x hx y hy hold with hle | ⟨-, hnone⟩
    · have hlt := index_lt (hs.mem_entered hold)
      omega
    · cases hnone
  have hleft := hsound.leave fun j hj hopen => (hgrowth.seen j hj hopen).resolve_right (by simp)
  have hpop := hleft.pop hgrowth.stack hs.onStack hbound
  have hcomponent : IsComponent g (g.Open skip) i (i :: above.reverse) := by
    intro j
    rw [hmem]
    constructor
    · intro hj
      refine ⟨?_, hgrowth.back j hj⟩
      rcases List.mem_append.mp hj with hj | hj
      · have hupward := hsound.upward
        rw [hstack] at hupward
        exact (List.pairwise_append.mp hupward).2.2 j hj i List.mem_cons_self
      · rw [List.mem_singleton.mp hj]
        exact Reaches.root (hsound.opened i hgrowth.mem_entered)
    · rintro ⟨hij, hji⟩
      obtain ⟨hj, hold⟩ := (hpop []).complete_of_reaches hgrowth.mem_entered (hnot i hfirst) hij
      -- a complete component does not lead back to the node
      have hj' : j ∈ s'.stack := by
        by_contra hj'
        exact (hsound.complete_of_reaches hj hj' hji).2 (hgrowth.stack ▸ List.mem_append_left _ hfirst)
      rw [hgrowth.stack] at hj'
      exact (List.mem_append.mp hj').resolve_right hold
  have hsub : (i :: above.reverse).Sublist s'.entered := by
    have hsub := hsound.stack
    rw [hgrowth.stack, List.reverse_append, List.reverse_append] at hsub
    exact (List.sublist_append_right _ _).trans hsub
  rw [close_eq hstack hi]
  refine ⟨hpop _, hlisted.pop hsound hgrowth.stack hnot hfirst hmem hsub ?_ ?_ rfl, [], ?_, fun _ => rfl⟩
  · intro j hj
    exact hcomponent.of_connected ((hcomponent j).mp ((hmem j).mpr hj))
  · rw [cyclic_cons]
    simp
  · exact {
      entered := hgrowth.entered
      order := hgrowth.order
      stack := rfl
      fresh := by intro x hx; cases hx
      back := by intro x hx; cases hx
      least := Or.inl rfl
      successors := hgrowth.successors
      seen := hgrowth.seen
      bound := by intro x hx; cases hx }

/-- A search from a node, of which the successors have been looked at, is completed. -/
theorem Scanned.finish (hs : Sound g skip path s) {s' : Search} {low : Nat} (h : Scanned g skip path s i [] (s', low)) :
    Searched g skip path s i
      (if low == s.entered.length then s'.close i ((g.successors i).contains i) else s', low) := by
  by_cases hlow : low = s.entered.length
  · subst hlow
    rw [if_pos (by simp)]
    exact h.close hs
  · rw [if_neg (by simpa using hlow)]
    obtain ⟨hsound, hlisted, above, hgrowth⟩ := h
    have hleft := hsound.leave fun j hj hopen => (hgrowth.seen j hj hopen).resolve_right (by simp)
    exact ⟨hleft, hlisted, above ++ [i], hgrowth, fun heq => absurd heq hlow⟩

/-- A search keeps what holds of the state, when its depth is enough for the nodes that are left. -/
theorem search_spec (depth : Nat) (hdepth : g.size ≤ depth + s.entered.length) :
    Searching g skip (g.search skip depth) path s i := by
  induction depth generalizing path s i with
  | zero =>
    intro hs hlisted hi hnew hreach
    have := hs.length_lt hi hnew
    omega
  | succ depth ih =>
    intro hs hlisted hi hnew hreach
    have hstart : Scanned g skip path s i (g.successors i) (s.enter i, s.entered.length) :=
      ⟨hs.enter hi hnew hreach, hlisted.enter hnew, [], Growth.enter hi hnew⟩
    have hsearch : ∀ s' j, s.entered.length < s'.entered.length →
        Searching g skip (g.search skip depth) (i :: path) s' j := fun s' j hlonger => ih (by omega)
    exact (hstart.foldl hs hreach hsearch).finish hs

end Step

/-! ## A search through the graph -/

/-- A search has entered what can be reached from the nodes but for those in `roots`. -/
structure Swept (g : Digraph) (skip : Nat → Bool) (roots : List Nat) (s : Search) : Prop where
  sound : Search.Sound g skip [] s
  listed : Search.Listed g skip s
  stack : s.stack = []
  order : g.visit skip [] (List.range g.size) = g.visit skip s.entered.reverse roots

theorem Swept.searchRoot {i : Nat} {roots : List Nat} {s : Search} (h : Swept g skip (i :: roots) s) :
    Swept g skip roots (g.searchRoot skip s i) := by
  unfold Digraph.searchRoot
  by_cases hnew : g.Open skip i ∧ i ∉ s.entered
  · rw [if_pos (by simpa [isOpen_iff] using hnew)]
    have hreach : ∀ u ∈ s.stack, Reaches g (g.Open skip) u i := by
      intro u hu
      rw [h.stack] at hu
      cases hu
    obtain ⟨hsound, hlisted, new, hgrowth, hclosed⟩ :=
      search_spec g.size (Nat.le_add_right _ _) h.sound h.listed hnew.1 hnew.2 hreach
    refine ⟨hsound, hlisted, ?_, ?_⟩
    · rcases hgrowth.least with heq | ⟨w, hw, -⟩
      · rw [hgrowth.stack, hclosed heq, h.stack]
        rfl
      · rw [h.stack] at hw
        cases hw
    · rw [h.order, hgrowth.order, List.nil_append]
  · rw [if_neg (by simpa [isOpen_iff] using hnew)]
    refine ⟨h.sound, h.listed, h.stack, ?_⟩
    rw [h.order, visit_pass]
    rintro ⟨hsize, hnot, hskip⟩
    exact hnew ⟨⟨hsize, hskip⟩, by simpa using hnot⟩

theorem Swept.foldl {roots : List Nat} {s : Search} (h : Swept g skip roots s) :
    Swept g skip [] (roots.foldl (g.searchRoot skip) s) := by
  induction roots generalizing s with
  | nil => exact h
  | cons i roots ih => exact ih h.searchRoot

/-- The search from all nodes has entered them in the order of the first visit. -/
theorem exists_swept (g : Digraph) (skip : Nat → Bool) :
    ∃ s, Swept g skip [] s ∧ s.cycles = g.cycles skip ∧ s.entered = g.visit skip [] (List.range g.size) := by
  have hstart : Swept g skip (List.range g.size) .start :=
    ⟨Search.sound_start, Search.listed_start, rfl, rfl⟩
  have hswept := hstart.foldl
  refine ⟨_, hswept, rfl, ?_⟩
  rw [hswept.order, visit_nil, List.reverse_reverse]

theorem nodup_flatten_cycles (g : Digraph) (skip : Nat → Bool) : (g.cycles skip).flatten.Nodup := by
  obtain ⟨s, hswept, hcycles, -⟩ := exists_swept g skip
  rw [← hcycles]
  exact hswept.listed.disjoint

/-- The cycles are the strongly connected components that contain a cycle, in the order of the first
visit. -/
theorem mem_cycles_iff (skip : Nat → Bool) {c : List Nat} :
    c ∈ g.cycles skip ↔ c.Sublist (g.visit skip [] (List.range g.size)) ∧ g.Cyclic c ∧
      ∃ i, g.Open skip i ∧ IsComponent g (g.Open skip) i c := by
  obtain ⟨s, hswept, hcycles, hentered⟩ := exists_swept g skip
  have hstack : ∀ i, i ∉ s.stack := by
    intro i hi
    rw [hswept.stack] at hi
    cases hi
  rw [← hcycles, ← hentered]
  constructor
  · intro hc
    obtain ⟨hsub, hcyclic, i, hi, -, hcomponent⟩ := hswept.listed.cycles c hc
    exact ⟨hsub, hcyclic, i, hswept.sound.opened i hi, hcomponent⟩
  · rintro ⟨hsub, hcyclic, i, hi, hcomponent⟩
    have hself : i ∈ c := (hcomponent i).mpr ⟨Reaches.root hi, Reaches.root hi⟩
    have hnodup := hswept.sound.nodup.sublist hsub
    obtain ⟨d, hd, hid⟩ := hswept.listed.complete i (hsub.subset hself) (hstack i) c hnodup hcomponent hcyclic
    -- the cycle with the node that is listed is this one
    obtain ⟨hsub', -, j, -, -, hcomponent'⟩ := hswept.listed.cycles d hd
    have hsame := hcomponent'.of_connected ((hcomponent' i).mp hid)
    rwa [sublist_unique hswept.sound.nodup hsub hsub' fun k => (hcomponent k).trans (hsame k).symm]

theorem nodup_cycles : (g.cycles skip).Nodup := by
  have hdisjoint := (List.nodup_flatten.mp (nodup_flatten_cycles g skip)).2
  refine hdisjoint.imp_of_mem ?_
  rintro c d hc - hcd rfl
  obtain ⟨-, -, i, hi, hcomponent⟩ := (mem_cycles_iff skip).mp hc
  have hself : i ∈ c := (hcomponent i).mpr ⟨Reaches.root hi, Reaches.root hi⟩
  exact hcd hself hself

end Digraph

namespace ModuleGraph

variable {g : ModuleGraph}

/-- Two modules reach each other over modules that have a name. -/
def Connected (g : ModuleGraph) (i j : Nat) : Prop := g.digraph.Connected (fun k => g.isNamed k = true) i j

/-- The modules that have a name, in the order in which a search through the graph first visits them. -/
def visited (g : ModuleGraph) : List Nat := g.digraph.visit (fun i => !g.isNamed i) [] (List.range g.size)

/-- A circular dependency: a strongly connected component of modules that have a name, with several members
or one that depends on itself, in the order of the first visit. -/
structure IsCycle (g : ModuleGraph) (c : List Nat) : Prop where
  component : ∃ i, g.isNamed i = true ∧ ∀ j, j ∈ c ↔ g.Connected i j
  cyclic : 2 ≤ c.length ∨ ∃ j ∈ c, j ∈ g.successors j
  ordered : c.Sublist g.visited

theorem open_iff_isNamed {i : Nat} : g.digraph.Open (fun i => !g.isNamed i) i ↔ g.isNamed i = true := by
  unfold Digraph.Open
  constructor
  · rintro ⟨-, hnamed⟩
    simpa using hnamed
  · intro hnamed
    refine ⟨?_, by simpa using hnamed⟩
    by_contra hsize
    have hnone : g.modules[i]? = none := List.getElem?_eq_none_iff.mpr (Nat.le_of_not_lt hsize)
    simp [isNamed, hnone] at hnamed

/-- Among the modules that have a name, each circular dependency is found, once, and nothing else is, so no
module is in two of them. -/
theorem mem_cycles_iff_isCycle (g : ModuleGraph) :
    g.cycles.Nodup ∧ g.cycles.flatten.Nodup ∧ ∀ c, c ∈ g.cycles ↔ g.IsCycle c := by
  refine ⟨Digraph.nodup_cycles, Digraph.nodup_flatten_cycles _ _, ?_⟩
  intro c
  have hopen : g.digraph.Open (fun i => !g.isNamed i) = fun i => g.isNamed i = true :=
    funext fun i => propext open_iff_isNamed
  have hmem := @Digraph.mem_cycles_iff g.digraph (fun i => !g.isNamed i) c
  rw [hopen] at hmem
  constructor
  · intro hc
    obtain ⟨hsub, hcyclic, hcomponent⟩ := hmem.mp hc
    exact ⟨hcomponent, hcyclic, hsub⟩
  · rintro ⟨hcomponent, hcyclic, hsub⟩
    exact hmem.mpr ⟨hsub, hcyclic, hcomponent⟩

end ModuleGraph

end Relink
