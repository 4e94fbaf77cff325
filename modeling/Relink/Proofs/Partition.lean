import Mathlib.Data.List.Basic
import Mathlib.Data.List.Forall2
import Relink.Linker.Partition
import Relink.Proofs.Graph

/-!
# The modules of each bundle

The main bundle and the bundles of the plugins leave out different parts of the graph: the main bundle what
lies in the directory of a plugin, the plugins what has been taken by earlier bundles.

* `MainTakes`, `PluginTakes` — the modules that are taken, by ways in the graph.
* `partition_cases` — a partition is a main bundle and the bundles of the plugins.
* `mem_plugins_iff`, `nodup_plugins` — together, the plugins take what their entries lead to on ways on
  which nothing is claimed, each module once.
-/

namespace Relink

namespace ModuleGraph

variable {g : ModuleGraph}

/-- What can be reached in a graph, by ways on which no module is skipped. -/
theorem mem_reachable {skip : Nat → Module → Bool} {root i : Nat} :
    i ∈ g.reachable skip root ↔
      g.digraph.Reaches (fun i => ∃ m, g.modules[i]? = some m ∧ skip i m = false) root i := by
  have hopen : ∀ i, g.digraph.Open (fun i => (g.modules[i]?).elim true (skip i)) i ↔
      ∃ m, g.modules[i]? = some m ∧ skip i m = false := by
    intro i
    unfold Digraph.Open
    cases hi : g.modules[i]? with
    | none => simp [hi]
    | some m =>
      have hsize : i < g.digraph.size := (List.getElem?_eq_some_iff.mp hi).1
      simp [hi, hsize]
  unfold reachable
  rw [Digraph.mem_preorder]
  constructor
  · exact Digraph.Reaches.mono fun i hi => (hopen i).mp hi
  · exact Digraph.Reaches.mono fun i hi => (hopen i).mpr hi

theorem nodup_reachable (skip : Nat → Module → Bool) (root : Nat) : (g.reachable skip root).Nodup :=
  Digraph.nodup_preorder root

theorem exists_getElem? {i : Nat} : (∃ m, g.modules[i]? = some m) ↔ i < g.size := by
  constructor
  · rintro ⟨m, hm⟩
    exact (List.getElem?_eq_some_iff.mp hm).1
  · intro hi
    exact ⟨_, List.getElem?_eq_getElem hi⟩

/-- The main bundle takes a module: there is a way to it on which every module is the entry, or lies
outside the directories of the plugins. -/
def MainTakes (g : ModuleGraph) (plugins : List Path) (entry : Nat) : Nat → Prop :=
  g.digraph.Reaches
    (fun i => ∃ m, g.modules[i]? = some m ∧ (i = entry ∨ Partition.inPlugin plugins m.file = false)) entry

/-- A plugin takes a module: there is a way to it from the entry of a plugin on which the main bundle
takes no module. -/
def PluginTakes (g : ModuleGraph) (plugins : List Path) (entry i : Nat) : Prop :=
  ∃ path ∈ plugins, ∃ root, g.lookup path = some root ∧
    g.digraph.Reaches (fun i => i < g.size ∧ ¬g.MainTakes plugins entry i) root i

end ModuleGraph

namespace Partition

open ModuleGraph

variable {g : ModuleGraph}

theorem lookup_of_entryOf {entry : Path} {i : Nat} (h : entryOf g entry = .ok i) :
    g.lookup entry = some i := by
  unfold entryOf at h
  split at h
  next j hj =>
    cases h
    exact hj
  next => cases h

/-- Whether a file lies in the directory of a plugin does not depend on how it is spelled. -/
theorem inPlugin_congr {plugins : List Path} {p q : Path} (h : p.components = q.components) :
    inPlugin plugins p = inPlugin plugins q := by
  unfold inPlugin
  rw [funext (Path.startsWith_congr h)]

/-! ## The main bundle -/

theorem modules_main (independent : Bool) (plugins : List Path) (entry : Nat) :
    (main g independent plugins entry).modules
      = g.reachable (fun i m => i != entry && inPlugin plugins m.file) entry := by
  unfold main
  split <;> rfl

theorem main_entry (independent : Bool) (plugins : List Path) (entry : Nat) :
    (main g independent plugins entry).entry = entry := by
  unfold main
  split <;> rfl

theorem mem_main_iff {independent : Bool} {plugins : List Path} {entry i : Nat} :
    i ∈ (main g independent plugins entry).modules ↔ g.MainTakes plugins entry i := by
  rw [modules_main, mem_reachable]
  unfold MainTakes
  have hskip : ∀ i (m : Module), (i != entry && inPlugin plugins m.file) = false ↔
      (i = entry ∨ inPlugin plugins m.file = false) := by
    intro i m
    rw [Bool.and_eq_false_iff, bne_eq_false_iff_eq]
  simp only [hskip]

theorem nodup_main (independent : Bool) (plugins : List Path) (entry : Nat) :
    (main g independent plugins entry).modules.Nodup := by
  rw [modules_main]
  exact nodup_reachable _ _

/-- What a module of the main bundle requires is in the main bundle, unless it lies in the directory of
a plugin. -/
theorem mem_main_of_successor {independent : Bool} {plugins : List Path} {entry i j : Nat} {m : Module}
    (hi : i ∈ (main g independent plugins entry).modules) (hj : j ∈ g.successors i)
    (hm : g.modules[j]? = some m) :
    j ∈ (main g independent plugins entry).modules ↔ j = entry ∨ inPlugin plugins m.file = false := by
  rw [mem_main_iff] at hi ⊢
  constructor
  · intro h
    rcases h.enters with ⟨m', hm', hcase⟩
    rw [hm] at hm'
    cases hm'
    exact hcase
  · intro h
    exact hi.next hj ⟨m, hm, h⟩

/-! ## The bundles of the plugins -/

@[simp] theorem modulesOf_nil : modulesOf [] = [] := rfl

@[simp] theorem modulesOf_cons (p : Partition) (ps : List Partition) :
    modulesOf (p :: ps) = p.modules ++ modulesOf ps := List.flatMap_cons

theorem mem_modulesOf {ps : List Partition} {i : Nat} : i ∈ modulesOf ps ↔ ∃ p ∈ ps, i ∈ p.modules :=
  List.mem_flatMap

theorem plugins_cons {claimed : List Nat} {path : Path} {paths : List Path} {ps : List Partition}
    (h : plugins g claimed (path :: paths) = .ok ps) :
    ∃ p others, ps = p :: others ∧ g.lookup path = some p.entry ∧ p.assembly = .sparse ∧
      p.modules = g.reachable (fun i _ => claimed.contains i) p.entry ∧
      plugins g (claimed ++ p.modules) paths = .ok others := by
  unfold plugins at h
  cases hentry : entryOf g path with
  | error e => simp [hentry, bind, Except.bind] at h
  | ok entry =>
    simp only [hentry, bind, Except.bind] at h
    split at h
    · cases h
    next others hothers =>
      cases h
      exact ⟨_, others, rfl, lookup_of_entryOf hentry, rfl, rfl, hothers⟩

theorem mem_reachable_unclaimed {claimed : List Nat} {root i : Nat} :
    i ∈ g.reachable (fun i _ => claimed.contains i) root ↔
      g.digraph.Reaches (fun i => i < g.size ∧ i ∉ claimed) root i := by
  have henter : ∀ i, (∃ m, g.modules[i]? = some m ∧ claimed.contains i = false) ↔
      i < g.size ∧ i ∉ claimed := by
    intro i
    rw [← exists_getElem?, exists_and_right]
    simp
  rw [mem_reachable]
  simp only [henter]

/-- Together, the plugins take what their entries lead to without the claimed modules. -/
theorem mem_plugins_iff {claimed : List Nat} {paths : List Path} {ps : List Partition}
    (h : plugins g claimed paths = .ok ps) {i : Nat} :
    i ∈ modulesOf ps ↔ ∃ path ∈ paths, ∃ root, g.lookup path = some root ∧
      g.digraph.Reaches (fun i => i < g.size ∧ i ∉ claimed) root i := by
  induction paths generalizing claimed ps with
  | nil =>
    unfold plugins at h
    cases h
    simp
  | cons path paths ih =>
    rcases plugins_cons h with ⟨p, others, rfl, hentry, -, hmodules, hothers⟩
    have hfirst : ∀ {i}, i ∈ p.modules ↔
        g.digraph.Reaches (fun i => i < g.size ∧ i ∉ claimed) p.entry i := by
      intro i
      rw [hmodules]
      exact mem_reachable_unclaimed
    rw [modulesOf_cons, List.mem_append, ih hothers]
    constructor
    · rintro (hp | ⟨path', hpath', root, hroot, hreach⟩)
      · exact ⟨path, List.mem_cons_self, p.entry, hentry, hfirst.mp hp⟩
      · -- a way that avoids the first plugin avoids what had been claimed before it
        refine ⟨path', List.mem_cons_of_mem _ hpath', root, hroot, hreach.mono ?_⟩
        intro j hj
        exact ⟨hj.1, fun hmem => hj.2 (List.mem_append_left _ hmem)⟩
    · rintro ⟨path', hpath', root, hroot, hreach⟩
      rcases List.mem_cons.mp hpath' with rfl | hpath'
      · rw [hentry] at hroot
        cases hroot
        exact Or.inl (hfirst.mpr hreach)
      · -- a way of a later plugin leads into the first one, where it stays, or never meets it
        have hclosed : ∀ j k, j ∈ p.modules → k ∈ g.digraph.successors j → k < g.size ∧ k ∉ claimed →
            k ∈ p.modules := by
          intro j k hj hk henter
          exact hfirst.mpr ((hfirst.mp hj).next hk henter)
        rcases hreach.mem_or_avoids hclosed with hin | havoid
        · exact Or.inl hin
        · refine Or.inr ⟨path', hpath', root, hroot, havoid.mono ?_⟩
          rintro j ⟨⟨hsize, hunclaimed⟩, hnot⟩
          refine ⟨hsize, ?_⟩
          intro hmem
          rcases List.mem_append.mp hmem with hmem | hmem
          · exact hunclaimed hmem
          · exact hnot hmem

theorem not_mem_claimed {claimed : List Nat} {paths : List Path} {ps : List Partition}
    (h : plugins g claimed paths = .ok ps) {i : Nat} (hi : i ∈ modulesOf ps) : i ∉ claimed := by
  rcases (mem_plugins_iff h).mp hi with ⟨path, -, root, -, hreach⟩
  exact hreach.enters.2

/-- The plugins take each module once. -/
theorem nodup_plugins {claimed : List Nat} {paths : List Path} {ps : List Partition}
    (h : plugins g claimed paths = .ok ps) : (modulesOf ps).Nodup := by
  induction paths generalizing claimed ps with
  | nil =>
    unfold plugins at h
    cases h
    exact List.nodup_nil
  | cons path paths ih =>
    rcases plugins_cons h with ⟨p, others, rfl, -, -, hmodules, hothers⟩
    rw [modulesOf_cons, List.nodup_append]
    refine ⟨?_, ih hothers, ?_⟩
    · rw [hmodules]
      exact nodup_reachable _ _
    · -- the later plugins take nothing that the first one has claimed
      intro i hi j hj hij
      exact not_mem_claimed hothers hj (List.mem_append_right _ (hij ▸ hi))

/-- What a module of a plugin requires is claimed, or in the same bundle or an earlier one. -/
theorem mem_of_successor {claimed : List Nat} {paths : List Path} {front back : List Partition}
    {p : Partition} (h : plugins g claimed paths = .ok (front ++ p :: back)) {i j : Nat}
    (hi : i ∈ p.modules) (hj : j ∈ g.successors i) (hsize : j < g.size) :
    j ∈ claimed ∨ j ∈ modulesOf (front ++ [p]) := by
  induction front generalizing claimed paths with
  | nil =>
    cases paths with
    | nil =>
      unfold plugins at h
      cases h
    | cons path paths =>
      rcases plugins_cons h with ⟨q, others, heq, -, -, hmodules, -⟩
      rcases List.cons_eq_cons.mp heq with ⟨rfl, rfl⟩
      by_cases hclaimed : j ∈ claimed
      · exact Or.inl hclaimed
      · -- the bundle of the plugin is closed under what is not claimed
        refine Or.inr ?_
        rw [hmodules, mem_reachable_unclaimed] at hi
        have hreach := hi.next hj ⟨hsize, hclaimed⟩
        rw [← mem_reachable_unclaimed, ← hmodules] at hreach
        simpa using hreach
  | cons q front ih =>
    cases paths with
    | nil =>
      unfold plugins at h
      cases h
    | cons path paths =>
      rcases plugins_cons h with ⟨q', others, heq, -, -, -, hothers⟩
      rcases List.cons_eq_cons.mp heq with ⟨rfl, rfl⟩
      rw [List.cons_append, modulesOf_cons, List.mem_append]
      -- what an earlier plugin has claimed is in its bundle
      rcases ih hothers with hclaimed | hmem
      · rcases List.mem_append.mp hclaimed with hclaimed | hq
        · exact Or.inl hclaimed
        · exact Or.inr (Or.inl hq)
      · exact Or.inr (Or.inr hmem)

end Partition

/-! ## All bundles -/

open ModuleGraph Relink.Partition

variable {g : ModuleGraph} {independent : Bool} {entries : List Path} {parts : List Partition}

/-- A partition is a main bundle and the bundles of the plugins. -/
theorem partition_cases (h : partition g independent entries = .ok parts) :
    ∃ first plugins entry rest, entries = first :: plugins ∧ g.lookup first = some entry ∧
      parts = Partition.main g independent plugins entry :: rest ∧
      Partition.plugins g (Partition.main g independent plugins entry).modules plugins = .ok rest := by
  unfold partition at h
  split at h
  · cases h
  next first plugins =>
    cases hentry : entryOf g first with
    | error e => simp [hentry, bind, Except.bind] at h
    | ok entry =>
      simp only [hentry, bind, Except.bind] at h
      split at h
      · cases h
      next rest hrest =>
        cases h
        exact ⟨first, plugins, entry, rest, rfl, lookup_of_entryOf hentry, rfl, hrest⟩

/-- The plugins of a partition take what their entries lead to without the modules of the main bundle. -/
theorem mem_rest_iff {plugins : List Path} {entry : Nat} {rest : List Partition}
    (h : Partition.plugins g (Partition.main g independent plugins entry).modules plugins = .ok rest)
    {i : Nat} : i ∈ modulesOf rest ↔ g.PluginTakes plugins entry i := by
  rw [mem_plugins_iff h]
  simp only [mem_main_iff]
  rfl

/-- No module is in two bundles, or twice in one. -/
theorem nodup_partition (h : partition g independent entries = .ok parts) : (modulesOf parts).Nodup := by
  rcases partition_cases h with ⟨first, plugins, entry, rest, -, -, rfl, hrest⟩
  rw [modulesOf_cons, List.nodup_append]
  refine ⟨nodup_main independent plugins entry, nodup_plugins hrest, ?_⟩
  intro i hi j hj hij
  exact not_mem_claimed hrest hj (hij ▸ hi)

/-- What a module of a bundle requires is in the same bundle or an earlier one, unless the bundle is the
main bundle and it lies in the directory of a plugin. -/
theorem mem_loaded_iff {first : Path} {plugins : List Path} {front back : List Partition} {p : Partition}
    (h : partition g independent (first :: plugins) = .ok (front ++ p :: back)) {i j : Nat} {m : Module}
    (hi : i ∈ p.modules) (hj : j ∈ g.successors i) (hm : g.modules[j]? = some m) :
    j ∈ modulesOf (front ++ [p]) ↔
      ¬(front = [] ∧ g.lookup first ≠ some j ∧ inPlugin plugins m.file = true) := by
  rcases partition_cases h with ⟨first', plugins', entry, rest, hentries, hentry, hparts, hrest⟩
  cases hentries
  cases front with
  | nil =>
    rcases List.cons_eq_cons.mp hparts with ⟨rfl, rfl⟩
    have hmem : j ∈ modulesOf ([] ++ [Partition.main g independent plugins entry]) ↔
        j ∈ (Partition.main g independent plugins entry).modules := by simp
    rw [hmem, mem_main_of_successor hi hj hm, hentry]
    -- the main bundle leaves out what lies in the directory of a plugin, but for the entry
    by_cases hje : j = entry
    · simp [hje]
    · have hne : ¬entry = j := fun he => hje he.symm
      simp [hje, hne]
  | cons q front =>
    rcases List.cons_eq_cons.mp hparts with ⟨rfl, rfl⟩
    have hsize := exists_getElem?.mp ⟨m, hm⟩
    rw [List.cons_append, modulesOf_cons, List.mem_append]
    -- the bundle of a plugin leaves out only what has been claimed before
    constructor
    · rintro - ⟨hnil, -⟩
      cases hnil
    · intro _
      exact mem_of_successor hrest hi hj hsize

/-- The bundles take modules of the graph. -/
theorem lt_size_of_mem_partition (h : partition g independent entries = .ok parts) {i : Nat}
    (hi : i ∈ modulesOf parts) : i < g.size := by
  rcases partition_cases h with ⟨first, plugins, entry, rest, -, -, rfl, hrest⟩
  rw [modulesOf_cons] at hi
  rcases List.mem_append.mp hi with hmain | hplugin
  · rcases (mem_main_iff.mp hmain).enters with ⟨m, hm, -⟩
    exact exists_getElem?.mp ⟨m, hm⟩
  · rcases (mem_plugins_iff hrest).mp hplugin with ⟨path, -, root, -, hreach⟩
    exact hreach.enters.1

end Relink
