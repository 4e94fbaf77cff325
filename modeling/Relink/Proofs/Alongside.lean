import Mathlib.Data.List.Forall2
import Relink.Proofs.Ids

/-!
# Two graphs side by side

Two graphs may have the modules of the same files at other places, and other modules besides. If the modules
of the bundles require the same files in both, both are distributed alike, and the ids are given alike.

* `Digraph.forall₂_visit` — searches that find matching successors go along.
* `ModuleGraph.Alongside` — the places of a file in two graphs.
* `alongside_partition` — the bundles take modules of the same files, in the same order.
* `get?_assignIds_alongside` — a file has the same id in both, if the keys are made of the same digests.
-/

namespace Relink

/-! ## Searches -/

namespace Digraph

variable {g g' : Digraph} {skip skip' : Nat → Bool}

theorem mem_visit_of_mem_seen {seen pending : List Nat} {i : Nat} (h : i ∈ seen) :
    i ∈ g.visit skip seen pending := by
  induction seen, pending using visit_induction g skip with
  | done seen =>
    rw [visit_nil]
    exact List.mem_reverse.mpr h
  | enter seen first rest hopen ih =>
    rw [visit_enter hopen]
    exact ih (List.mem_cons_of_mem _ h)
  | pass seen first rest hnot ih =>
    rw [visit_pass hnot]
    exact ih h

variable {R : Nat → Nat → Prop}

/-- Two searches find matching nodes if they enter matching nodes alike, and if those that both find have
matching successors. -/
theorem forall₂_visit (hunique : Relator.BiUnique R)
    (hopen : ∀ {i i'}, R i i' → (g.Open skip i ↔ g'.Open skip' i')) {seen pending seen' pending' : List Nat}
    (hsucc : ∀ {i i'}, R i i' → i ∈ g.visit skip seen pending → i' ∈ g'.visit skip' seen' pending' →
      List.Forall₂ R (g.successors i) (g'.successors i'))
    (hseen : List.Forall₂ R seen seen') (hpending : List.Forall₂ R pending pending') :
    List.Forall₂ R (g.visit skip seen pending) (g'.visit skip' seen' pending') := by
  -- a node is new to one search if and only if the matching node is new to the other one
  have henter : ∀ {seen seen' i i'}, List.Forall₂ R seen seen' → R i i' →
      ((i < g.size ∧ seen.contains i = false ∧ skip i = false) ↔
        (i' < g'.size ∧ seen'.contains i' = false ∧ skip' i' = false)) := by
    intro seen seen' i i' hseen hi
    have hmem : i ∈ seen ↔ i' ∈ seen' := List.rel_mem hunique hi hseen
    have hcontains : seen.contains i = seen'.contains i' := by
      rw [Bool.eq_iff_iff, List.contains_iff_mem, List.contains_iff_mem]
      exact hmem
    have hboth := hopen hi
    unfold Open at hboth
    rw [hcontains]
    constructor
    · rintro ⟨hsize, hnew, hskip⟩
      obtain ⟨hsize', hskip'⟩ := hboth.mp ⟨hsize, hskip⟩
      exact ⟨hsize', hnew, hskip'⟩
    · rintro ⟨hsize', hnew, hskip'⟩
      obtain ⟨hsize, hskip⟩ := hboth.mpr ⟨hsize', hskip'⟩
      exact ⟨hsize, hnew, hskip⟩
  induction seen, pending using visit_induction g skip generalizing seen' pending' with
  | done seen =>
    cases hpending
    rw [visit_nil, visit_nil]
    exact List.rel_reverse hseen
  | enter seen first rest hfirst ih =>
    cases hpending with
    | @cons _ first' _ rest' hmatch hrest =>
      have hfirst' := (henter hseen hmatch).mp hfirst
      rw [visit_enter hfirst, visit_enter hfirst'] at hsucc ⊢
      -- both nodes are found, so their successors match
      have hnext : List.Forall₂ R (g.successors first) (g'.successors first') := by
        apply hsucc hmatch
        · exact mem_visit_of_mem_seen List.mem_cons_self
        · exact mem_visit_of_mem_seen List.mem_cons_self
      apply ih hsucc
      · exact List.Forall₂.cons hmatch hseen
      · exact List.rel_append hnext hrest
  | pass seen first rest hfirst ih =>
    cases hpending with
    | @cons _ first' _ rest' hmatch hrest =>
      have hfirst' := fun h => hfirst ((henter hseen hmatch).mpr h)
      rw [visit_pass hfirst, visit_pass hfirst'] at hsucc ⊢
      exact ih hsucc hseen hrest

end Digraph

/-! ## Modules of the same files -/

namespace ModuleGraph

variable {g g' : ModuleGraph}

/-- A place in one graph and a place in another one have modules of the same file. -/
def Alongside (g g' : ModuleGraph) (i i' : Nat) : Prop :=
  ∃ m m', g.modules[i]? = some m ∧ g'.modules[i']? = some m' ∧ m.file.components = m'.file.components

theorem biUnique_alongside (hdistinct : g.Distinct) (hdistinct' : g'.Distinct) :
    Relator.BiUnique (g.Alongside g') := by
  constructor
  · rintro i j k ⟨m, m', hi, hk, hfile⟩ ⟨n, n', hj, hk', hfile'⟩
    rw [hk] at hk'
    cases hk'
    exact hdistinct.eq_of_components hi hj (hfile.trans hfile'.symm)
  · rintro i j k ⟨m, m', hi, hj, hfile⟩ ⟨n, n', hi', hk, hfile'⟩
    rw [hi] at hi'
    cases hi'
    exact hdistinct'.eq_of_components hj hk (hfile.symm.trans hfile')

theorem alongside_of_lookup {p p' : Path} (hp : p.components = p'.components) {i i' : Nat}
    (hi : g.lookup p = some i) (hi' : g'.lookup p' = some i') : g.Alongside g' i i' := by
  obtain ⟨m, hm, hfile⟩ := exists_of_lookup hi
  obtain ⟨m', hm', hfile'⟩ := exists_of_lookup hi'
  exact ⟨m, m', hm, hm', hfile.trans (hp.trans hfile'.symm)⟩

/-- The same files are reached in both graphs if those that are reached require the same files. -/
theorem forall₂_reachable (hdistinct : g.Distinct) (hdistinct' : g'.Distinct)
    {skip skip' : Nat → Module → Bool}
    (hskip : ∀ {i i' m m'}, g.Alongside g' i i' → g.modules[i]? = some m → g'.modules[i']? = some m' →
      skip i m = skip' i' m')
    {root root' : Nat} (hroot : g.Alongside g' root root')
    (hsucc : ∀ {i i'}, g.Alongside g' i i' → i ∈ g.reachable skip root → i' ∈ g'.reachable skip' root' →
      List.Forall₂ (g.Alongside g') (g.successors i) (g'.successors i')) :
    List.Forall₂ (g.Alongside g') (g.reachable skip root) (g'.reachable skip' root') := by
  unfold reachable Digraph.preorder at hsucc ⊢
  apply Digraph.forall₂_visit (biUnique_alongside hdistinct hdistinct')
  · intro i i' hi
    obtain ⟨m, m', hm, hm', -⟩ := id hi
    have hsize : i < g.digraph.size := exists_getElem?.mp ⟨m, hm⟩
    have hsize' : i' < g'.digraph.size := exists_getElem?.mp ⟨m', hm'⟩
    unfold Digraph.Open
    simp only [hm, hm', Option.elim_some, hskip hi hm hm', hsize, hsize', true_and]
  · exact hsucc
  · exact List.Forall₂.nil
  · exact List.Forall₂.cons hroot List.Forall₂.nil

end ModuleGraph

/-! ## Bundles -/

open ModuleGraph Relink.Partition

variable {g g' : ModuleGraph}

/-- Two bundles take modules of the same files, in the same order. -/
structure Partition.Alongside (g g' : ModuleGraph) (p p' : Partition) : Prop where
  entry : g.Alongside g' p.entry p'.entry
  assembly : p.assembly = p'.assembly
  modules : List.Forall₂ (g.Alongside g') p.modules p'.modules

theorem forall₂_modulesOf {parts parts' : List Partition}
    (h : List.Forall₂ (Partition.Alongside g g') parts parts') :
    List.Forall₂ (g.Alongside g') (modulesOf parts) (modulesOf parts') := by
  induction h with
  | nil => exact List.Forall₂.nil
  | cons hp _ ih =>
    rw [modulesOf_cons, modulesOf_cons]
    exact List.rel_append hp.modules ih

section Parts

variable (hdistinct : g.Distinct) (hdistinct' : g'.Distinct)
include hdistinct hdistinct'

theorem alongside_main {independent : Bool} {plugins : List Path} {entry entry' : Nat}
    (hentry : g.Alongside g' entry entry')
    (hsucc : ∀ {i i'}, g.Alongside g' i i' → i ∈ (Partition.main g independent plugins entry).modules →
      i' ∈ (Partition.main g' independent plugins entry').modules →
      List.Forall₂ (g.Alongside g') (g.successors i) (g'.successors i')) :
    Partition.Alongside g g' (Partition.main g independent plugins entry)
      (Partition.main g' independent plugins entry') := by
  constructor
  · rw [main_entry, main_entry]
    exact hentry
  · unfold Partition.main
    cases independent <;> rfl
  · rw [modules_main, modules_main] at hsucc ⊢
    apply forall₂_reachable hdistinct hdistinct' ?_ hentry hsucc
    intro i i' m m' hi hm hm'
    -- both are the entry or neither is, and both lie in the directory of a plugin or neither does
    have hplace : i = entry ↔ i' = entry' :=
      Relator.rel_eq (biUnique_alongside hdistinct hdistinct') hi hentry
    obtain ⟨n, n', hn, hn', hfile⟩ := hi
    rw [hm] at hn
    rw [hm'] at hn'
    cases hn
    cases hn'
    rw [inPlugin_congr hfile]
    congr 1
    rw [Bool.eq_iff_iff, bne_iff_ne, bne_iff_ne]
    exact not_congr hplace

theorem alongside_plugins {claimed claimed' : List Nat} (hclaimed : List.Forall₂ (g.Alongside g') claimed claimed')
    {paths : List Path} {ps ps' : List Partition} (h : Partition.plugins g claimed paths = .ok ps)
    (h' : Partition.plugins g' claimed' paths = .ok ps')
    (hsucc : ∀ {i i'}, g.Alongside g' i i' → i ∈ modulesOf ps → i' ∈ modulesOf ps' →
      List.Forall₂ (g.Alongside g') (g.successors i) (g'.successors i')) :
    List.Forall₂ (Partition.Alongside g g') ps ps' := by
  induction paths generalizing claimed claimed' ps ps' with
  | nil =>
    unfold Partition.plugins at h h'
    cases h
    cases h'
    exact List.Forall₂.nil
  | cons path paths ih =>
    obtain ⟨p, others, rfl, hentry, hsparse, hmodules, hothers⟩ := plugins_cons h
    obtain ⟨p', others', rfl, hentry', hsparse', hmodules', hothers'⟩ := plugins_cons h'
    simp only [modulesOf_cons, List.mem_append] at hsucc
    have hroot : g.Alongside g' p.entry p'.entry := alongside_of_lookup rfl hentry hentry'
    have hfirst : List.Forall₂ (g.Alongside g') p.modules p'.modules := by
      have hsucc_first : ∀ {i i'}, g.Alongside g' i i' → i ∈ p.modules → i' ∈ p'.modules →
          List.Forall₂ (g.Alongside g') (g.successors i) (g'.successors i') := by
        intro i i' hi hmem hmem'
        exact hsucc hi (Or.inl hmem) (Or.inl hmem')
      rw [hmodules, hmodules'] at hsucc_first ⊢
      apply forall₂_reachable hdistinct hdistinct' ?_ hroot hsucc_first
      -- what has been claimed before is of the same files
      intro i i' m m' hi _ _
      rw [Bool.eq_iff_iff, List.contains_iff_mem, List.contains_iff_mem]
      exact List.rel_mem (biUnique_alongside hdistinct hdistinct') hi hclaimed
    constructor
    · exact ⟨hroot, hsparse.trans hsparse'.symm, hfirst⟩
    · apply ih (List.rel_append hclaimed hfirst) hothers hothers'
      intro i i' hi hmem hmem'
      exact hsucc hi (Or.inr hmem) (Or.inr hmem')

/-- Graphs are distributed alike if the modules of the bundles require the same files in both. -/
theorem alongside_partition {independent : Bool} {entries : List Path} {parts parts' : List Partition}
    (h : partition g independent entries = .ok parts) (h' : partition g' independent entries = .ok parts')
    (hsucc : ∀ {i i'}, g.Alongside g' i i' → i ∈ modulesOf parts → i' ∈ modulesOf parts' →
      List.Forall₂ (g.Alongside g') (g.successors i) (g'.successors i')) :
    List.Forall₂ (Partition.Alongside g g') parts parts' := by
  obtain ⟨first, plugins, entry, rest, rfl, hentry, rfl, hrest⟩ := partition_cases h
  obtain ⟨first', plugins', entry', rest', heq, hentry', rfl, hrest'⟩ := partition_cases h'
  cases heq
  simp only [modulesOf_cons, List.mem_append] at hsucc
  have hmain : Partition.Alongside g g' (Partition.main g independent plugins entry)
      (Partition.main g' independent plugins entry') := by
    apply alongside_main hdistinct hdistinct' (alongside_of_lookup rfl hentry hentry')
    intro i i' hi hmem hmem'
    exact hsucc hi (Or.inl hmem) (Or.inl hmem')
  constructor
  · exact hmain
  · apply alongside_plugins hdistinct hdistinct' hmain.modules hrest hrest'
    intro i i' hi hmem hmem'
    exact hsucc hi (Or.inr hmem) (Or.inr hmem')

end Parts

/-! ## Ids -/

variable {R : Nat → Nat → Prop}

/-- The keys of two sparse bundles are the same if they are made of the same digests. -/
theorem forall₂_assignSparse {places places' : List Nat} (h : List.Forall₂ R places places')
    (hhash : ∀ {i i'}, R i i' → i ∈ places → g.hashAt i = g'.hashAt i') (used : List String) :
    List.Forall₂ (fun e e' => R e.1 e'.1 ∧ e.2 = e'.2) (assignSparse g used places).1
        (assignSparse g' used places').1 ∧
      (assignSparse g used places).2 = (assignSparse g' used places').2 := by
  induction h generalizing used with
  | nil => exact ⟨List.Forall₂.nil, rfl⟩
  | @cons i i' places places' hi _ ih =>
    have hkey : freshKey (g.hashAt i) used = freshKey (g'.hashAt i') used := by
      rw [hhash hi List.mem_cons_self]
    obtain ⟨hids, hused⟩ := ih (fun hj hmem => hhash hj (List.mem_cons_of_mem _ hmem))
      (freshKey (g'.hashAt i') used :: used)
    rw [assignSparse, assignSparse, hkey]
    exact ⟨List.Forall₂.cons ⟨hi, rfl⟩ hids, hused⟩

theorem forall₂_dense {places places' : List Nat} (h : List.Forall₂ R places places') (start : Nat) :
    List.Forall₂ (fun e e' => R e.1 e'.1 ∧ e.2 = e'.2)
      ((places.zipIdx start).map fun (i, place) => (i, ModuleId.dense place))
      ((places'.zipIdx start).map fun (i, place) => (i, ModuleId.dense place)) := by
  induction h generalizing start with
  | nil => exact List.Forall₂.nil
  | cons hi _ ih => exact List.Forall₂.cons ⟨hi, rfl⟩ (ih (start + 1))

/-- The ids of two lists of bundles are the same if their keys are made of the same digests. -/
theorem forall₂_assignFrom {parts parts' : List Partition}
    (h : List.Forall₂ (Partition.Alongside g g') parts parts')
    (hhash : ∀ p ∈ parts, p.assembly = .sparse → ∀ {i i'}, g.Alongside g' i i' → i ∈ p.modules →
      g.hashAt i = g'.hashAt i') (used : List String) :
    List.Forall₂ (fun e e' => g.Alongside g' e.1 e'.1 ∧ e.2 = e'.2) (assignFrom g used parts)
      (assignFrom g' used parts') := by
  induction h generalizing used with
  | nil => exact List.Forall₂.nil
  | @cons p p' parts parts' hp _ ih =>
    have hothers := ih fun q hq => hhash q (List.mem_cons_of_mem _ hq)
    rw [assignFrom, assignFrom, ← hp.assembly]
    cases hassembly : p.assembly with
    | dense => exact List.rel_append (forall₂_dense hp.modules 0) (hothers used)
    | sparse =>
      obtain ⟨hids, hused⟩ := forall₂_assignSparse hp.modules
        (fun hi hmem => hhash p List.mem_cons_self hassembly hi hmem) used
      simp only
      rw [hused]
      exact List.rel_append hids (hothers _)

/-- A file has the same id in both graphs if the keys are made of the same digests. -/
theorem get?_assignIds_alongside (hdistinct : g.Distinct) (hdistinct' : g'.Distinct) {independent : Bool}
    {entries : List Path} {parts parts' : List Partition} (h' : partition g' independent entries = .ok parts')
    (hparts : List.Forall₂ (Partition.Alongside g g') parts parts')
    (hhash : ∀ p ∈ parts, p.assembly = .sparse → ∀ {i i'}, g.Alongside g' i i' → i ∈ p.modules →
      g.hashAt i = g'.hashAt i') {i i' : Nat} (hi : g.Alongside g' i i') (hmem : i ∈ modulesOf parts) :
    (assignIds g parts).get? i = (assignIds g' parts').get? i' := by
  obtain ⟨id, hid⟩ := exists_id (g := g) hmem
  obtain ⟨⟨j, id'⟩, hj, halong, hids⟩ :=
    Linking.exists_of_forall₂ (forall₂_assignFrom hparts hhash []) (get?_assignIds hid)
  have hplace : j = i' := (biUnique_alongside hdistinct hdistinct').2 halong hi
  simp only at hids
  rw [hplace, ← hids] at hj
  rw [hid, get?_assignIds_of_mem h' hj]

end Relink
