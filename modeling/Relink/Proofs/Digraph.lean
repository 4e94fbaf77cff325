import Mathlib.Data.List.Nodup
import Relink.Digraph

/-!
# What a search visits

* `Reaches` — there is a way from one node to another on which every node may be entered.
* `visit_enter` — it makes no difference whether a visited node is put on the list or not.
* `mem_preorder` — a search visits what can be reached in this way.
* `nodup_preorder` — it visits each node once.
-/

namespace Relink.Digraph

variable {g : Digraph} {enter : Nat → Prop} {skip : Nat → Bool}

/-- There is a way from a node to another one on which every node may be entered. -/
inductive Reaches (g : Digraph) (enter : Nat → Prop) (root : Nat) : Nat → Prop
  | root (h : enter root) : Reaches g enter root root
  | next {i j : Nat} (hi : Reaches g enter root i) (hj : j ∈ g.successors i) (h : enter j) :
      Reaches g enter root j

namespace Reaches

theorem enters {root i : Nat} (h : Reaches g enter root i) : enter i := by
  cases h with
  | root h => exact h
  | next _ _ h => exact h

theorem enters_root {root i : Nat} (h : Reaches g enter root i) : enter root := by
  induction h with
  | root h => exact h
  | next _ _ _ ih => exact ih

theorem trans {i j k : Nat} (h : Reaches g enter i j) (h' : Reaches g enter j k) : Reaches g enter i k := by
  induction h' with
  | root _ => exact h
  | next _ hk hopen ih => exact ih.next hk hopen

/-- More is reached where more may be entered. -/
theorem mono {enter' : Nat → Prop} (henter : ∀ i, enter i → enter' i) {root i : Nat}
    (h : Reaches g enter root i) : Reaches g enter' root i := by
  induction h with
  | root h => exact Reaches.root (henter _ h)
  | next _ hj h ih => exact ih.next hj (henter _ h)

/-- A way stays outside a set, or ends inside a set that is closed under the ways. -/
theorem mem_or_avoids {root i : Nat} {inside : Nat → Prop} (h : Reaches g enter root i)
    (hclosed : ∀ i j, inside i → j ∈ g.successors i → enter j → inside j) :
    inside i ∨ Reaches g (fun i => enter i ∧ ¬inside i) root i := by
  induction h with
  | root h =>
    by_cases hin : inside root
    · exact Or.inl hin
    · exact Or.inr (Reaches.root ⟨h, hin⟩)
  | @next i j _ hj h ih =>
    rcases ih with hin | hway
    · exact Or.inl (hclosed _ _ hin hj h)
    · by_cases hin : inside j
      · exact Or.inl hin
      · exact Or.inr (hway.next hj ⟨h, hin⟩)

end Reaches

/-! ## The work list -/

theorem unseen_append (seen nodes nodes' : List Nat) :
    unseen seen (nodes ++ nodes') = unseen seen nodes ++ unseen seen nodes' := List.filter_append _ _

/-- What has been visited is left out once and for all. -/
theorem unseen_unseen {seen seen' : List Nat} (h : seen ⊆ seen') (nodes : List Nat) :
    unseen seen' (unseen seen nodes) = unseen seen' nodes := by
  unfold unseen
  rw [List.filter_filter]
  refine List.filter_congr fun j _ => ?_
  by_cases hj : j ∈ seen
  · simp [hj, h hj]
  · simp [hj]

theorem visit_nil (seen : List Nat) : g.visit skip seen [] = seen.reverse := by
  rw [visit]

theorem visit_pass {seen rest : List Nat} {i : Nat} (h : ¬(i < g.size ∧ seen.contains i = false ∧ skip i = false)) :
    g.visit skip seen (i :: rest) = g.visit skip seen rest := by
  rw [visit, dif_neg h]

/-- Nodes that have been visited can be taken off the list. -/
theorem visit_unseen (seen pending : List Nat) :
    g.visit skip seen (unseen seen pending) = g.visit skip seen pending := by
  match pending with
  | [] => rfl
  | i :: rest =>
    by_cases hseen : seen.contains i = true
    · have hpass : ¬(i < g.size ∧ seen.contains i = false ∧ skip i = false) := by
        rintro ⟨-, hnew, -⟩
        rw [hseen] at hnew
        cases hnew
      rw [visit_pass hpass, ← visit_unseen seen rest]
      unfold unseen
      rw [List.filter_cons_of_neg (by simpa using hseen)]
    · have hcons : unseen seen (i :: rest) = i :: unseen seen rest := List.filter_cons_of_pos (by simpa using hseen)
      rw [hcons]
      by_cases hopen : i < g.size ∧ seen.contains i = false ∧ skip i = false
      · -- behind the node, both lists have the same nodes that have not been visited
        have hsame : unseen (i :: seen) (unseen (i :: seen) (g.successors i) ++ unseen seen rest) =
            unseen (i :: seen) (unseen (i :: seen) (g.successors i) ++ rest) := by
          rw [unseen_append, unseen_append, unseen_unseen (List.subset_cons_self _ _)]
        rw [visit, dif_pos hopen, visit, dif_pos hopen, ← visit_unseen, hsame, visit_unseen]
      · rw [visit_pass hopen, visit_pass hopen, visit_unseen seen rest]
termination_by g.remaining seen + pending.length
decreasing_by
  · simp
  · have := remaining_cons hopen.1 hopen.2.1
    have := length_unseen_le (i :: seen) (g.successors i)
    have := length_unseen_le seen rest
    simp only [List.length_append, List.length_cons]
    omega
  · have := remaining_cons hopen.1 hopen.2.1
    have := length_unseen_le (i :: seen) (g.successors i)
    simp only [List.length_append, List.length_cons]
    omega
  · simp

/-- A search goes on with the successors of a node that it enters. -/
theorem visit_enter {seen rest : List Nat} {i : Nat} (h : i < g.size ∧ seen.contains i = false ∧ skip i = false) :
    g.visit skip seen (i :: rest) = g.visit skip (i :: seen) (g.successors i ++ rest) := by
  have hsame : unseen (i :: seen) (unseen (i :: seen) (g.successors i) ++ rest) =
      unseen (i :: seen) (g.successors i ++ rest) := by
    rw [unseen_append, unseen_append, unseen_unseen (List.Subset.refl _)]
  rw [visit, dif_pos h, ← visit_unseen, hsame, visit_unseen]

/-- A fact about searches holds if each step keeps it. -/
theorem visit_induction {motive : List Nat → List Nat → Prop} (g : Digraph) (skip : Nat → Bool)
    (done : ∀ seen, motive seen [])
    (enter : ∀ seen i rest, i < g.size ∧ seen.contains i = false ∧ skip i = false →
      motive (i :: seen) (g.successors i ++ rest) → motive seen (i :: rest))
    (pass : ∀ seen i rest, ¬(i < g.size ∧ seen.contains i = false ∧ skip i = false) →
      motive seen rest → motive seen (i :: rest)) (seen pending : List Nat) : motive seen pending := by
  match pending with
  | [] => exact done seen
  | i :: rest =>
    by_cases hopen : i < g.size ∧ seen.contains i = false ∧ skip i = false
    · exact enter seen i rest hopen (visit_induction g skip done enter pass (i :: seen) (g.successors i ++ rest))
    · exact pass seen i rest hopen (visit_induction g skip done enter pass seen rest)
termination_by g.remaining seen + pending.length
decreasing_by
  · have := remaining_cons hopen.1 hopen.2.1
    simp only [List.length_append, List.length_cons]
    omega
  · simp

/-! ## What is visited -/

/-- Whether a search enters a node. -/
def Open (g : Digraph) (skip : Nat → Bool) (i : Nat) : Prop := i < g.size ∧ skip i = false

/-- What a search visits has been visited before, or is reached from a node that is still to be
visited. -/
theorem mem_or_reaches_of_mem_visit {seen pending : List Nat} {i : Nat}
    (h : i ∈ g.visit skip seen pending) : i ∈ seen ∨ ∃ root ∈ pending, Reaches g (g.Open skip) root i := by
  induction seen, pending using visit_induction g skip with
  | done seen =>
    rw [visit_nil] at h
    exact Or.inl (List.mem_reverse.mp h)
  | enter seen first rest hopen ih =>
    rw [visit_enter hopen] at h
    have hfirst : g.Open skip first := ⟨hopen.1, hopen.2.2⟩
    rcases ih h with hseen | ⟨root, hroot, hreach⟩
    · -- the node is the first one, or has been visited before
      rcases List.mem_cons.mp hseen with rfl | hseen
      · exact Or.inr ⟨i, List.mem_cons_self, Reaches.root hfirst⟩
      · exact Or.inl hseen
    · -- a way from a successor of the first node is one from the first node
      rcases List.mem_append.mp hroot with hsucc | hrest
      · have hstep := (Reaches.root hfirst).next hsucc hreach.enters_root
        exact Or.inr ⟨first, List.mem_cons_self, hstep.trans hreach⟩
      · exact Or.inr ⟨root, List.mem_cons_of_mem _ hrest, hreach⟩
  | pass seen first rest hclosed ih =>
    rw [visit_pass hclosed] at h
    rcases ih h with hseen | ⟨root, hroot, hreach⟩
    · exact Or.inl hseen
    · exact Or.inr ⟨root, List.mem_cons_of_mem _ hroot, hreach⟩

/-- What the visited nodes lead to has been visited or is still to be. -/
def Covered (g : Digraph) (skip : Nat → Bool) (seen pending : List Nat) : Prop :=
  ∀ i ∈ seen, ∀ j ∈ g.successors i, g.Open skip j → j ∈ seen ∨ j ∈ pending

/-- A search visits what is to be visited, keeps what has been visited, and leaves nothing out that it
leads to. -/
theorem visit_complete {seen pending : List Nat} (hcovered : Covered g skip seen pending) :
    (∀ i ∈ seen, i ∈ g.visit skip seen pending) ∧
    (∀ i ∈ pending, g.Open skip i → i ∈ g.visit skip seen pending) ∧
    Covered g skip (g.visit skip seen pending) [] := by
  induction seen, pending using visit_induction g skip with
  | done seen =>
    rw [visit_nil]
    refine ⟨fun i hi => List.mem_reverse.mpr hi, fun i hi => by simp at hi, ?_⟩
    intro i hi j hj hopen
    rcases hcovered i (List.mem_reverse.mp hi) j hj hopen with h | h
    · exact Or.inl (List.mem_reverse.mpr h)
    · simp at h
  | enter seen first rest hopen ih =>
    rw [visit_enter hopen]
    -- the successors of the first node have been put in front of what is pending
    have hcovered' : Covered g skip (first :: seen) (g.successors first ++ rest) := by
      intro i hi j hj hj_open
      rcases List.mem_cons.mp hi with rfl | hi
      · exact Or.inr (List.mem_append_left _ hj)
      · rcases hcovered i hi j hj hj_open with h | h
        · exact Or.inl (List.mem_cons_of_mem _ h)
        · rcases List.mem_cons.mp h with rfl | h
          · exact Or.inl List.mem_cons_self
          · exact Or.inr (List.mem_append_right _ h)
    rcases ih hcovered' with ⟨hseen, hpending, hclosed⟩
    refine ⟨fun i hi => hseen i (List.mem_cons_of_mem _ hi), ?_, hclosed⟩
    intro i hi hi_open
    rcases List.mem_cons.mp hi with rfl | hi
    · exact hseen i List.mem_cons_self
    · exact hpending i (List.mem_append_right _ hi) hi_open
  | pass seen first rest hnot ih =>
    rw [visit_pass hnot]
    -- the first node is passed over: it has been visited, or a search cannot enter it
    have hfirst : g.Open skip first → first ∈ seen := by
      intro hopen
      by_contra hseen
      exact hnot ⟨hopen.1, by simpa using hseen, hopen.2⟩
    have hcovered' : Covered g skip seen rest := by
      intro i hi j hj hj_open
      rcases hcovered i hi j hj hj_open with h | h
      · exact Or.inl h
      · rcases List.mem_cons.mp h with rfl | h
        · exact Or.inl (hfirst hj_open)
        · exact Or.inr h
    rcases ih hcovered' with ⟨hseen, hpending, hclosed⟩
    refine ⟨hseen, ?_, hclosed⟩
    intro i hi hi_open
    rcases List.mem_cons.mp hi with rfl | hi
    · exact hseen i (hfirst hi_open)
    · exact hpending i hi hi_open

/-- A search visits what can be reached on ways that it can enter. -/
theorem mem_preorder {root i : Nat} : i ∈ g.preorder skip root ↔ Reaches g (g.Open skip) root i := by
  unfold preorder
  constructor
  · intro h
    rcases mem_or_reaches_of_mem_visit h with hseen | ⟨r, hr, hreach⟩
    · simp at hseen
    · rw [List.mem_singleton.mp hr] at hreach
      exact hreach
  · intro h
    have hcovered : Covered g skip [] [root] := fun i hi => by simp at hi
    rcases visit_complete hcovered with ⟨-, hpending, hclosed⟩
    -- in the end nothing is pending, so what a visited node leads to has been visited
    induction h with
    | root hopen => exact hpending root List.mem_cons_self hopen
    | next _ hj hopen ih =>
      rcases hclosed _ ih _ hj hopen with hvisited | hnone
      · exact hvisited
      · simp at hnone

theorem nodup_visit {seen pending : List Nat} (h : seen.Nodup) : (g.visit skip seen pending).Nodup := by
  induction seen, pending using visit_induction g skip with
  | done seen =>
    rw [visit_nil]
    exact (List.nodup_reverse).mpr h
  | enter seen first rest hopen ih =>
    rw [visit_enter hopen]
    refine ih (List.nodup_cons.mpr ⟨?_, h⟩)
    simpa using hopen.2.1
  | pass seen first rest hnot ih =>
    rw [visit_pass hnot]
    exact ih h

/-- A search visits each node once. -/
theorem nodup_preorder (root : Nat) : (g.preorder skip root).Nodup := nodup_visit List.nodup_nil

end Relink.Digraph
