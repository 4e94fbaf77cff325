import Relink.Linker.Ids
import Relink.Proofs.Graph

/-!
# What is looked at in a graph

The bundles, ids and circular dependencies of a graph depend neither on which of its modules have changed, nor
on which have been read.

* `ModuleGraph.plain` — the graph without that.
* `partition_plain`, `assignIds_plain`, `cycles_plain` — what is the same for the plain graph.
-/

namespace Relink

/-- The module without whether it has changed or has been read. -/
def Module.plain (m : Module) : Module := { m with changed := true, summary := none }

namespace ModuleGraph

/-- The graph without which modules have changed or have been read. -/
def plain (g : ModuleGraph) : ModuleGraph := ⟨g.modules.map Module.plain⟩

variable {g : ModuleGraph}

theorem getElem?_plain (i : Nat) : g.plain.modules[i]? = (g.modules[i]?).map Module.plain :=
  List.getElem?_map

theorem lookup_plain : g.plain.lookup = g.lookup := by
  funext file
  unfold lookup plain
  rw [List.findIdx?_map]
  rfl

theorem contains_plain : g.plain.contains = g.contains := by
  funext file
  unfold contains
  rw [lookup_plain]

theorem size_plain : g.plain.size = g.size := List.length_map _

theorem successors_plain : g.plain.successors = g.successors := by
  funext i
  unfold successors
  rw [getElem?_plain]
  cases g.modules[i]? <;> rfl

theorem digraph_plain : g.plain.digraph = g.digraph := by
  unfold digraph
  rw [size_plain, successors_plain]

/-- What is reached in a graph does not depend on what is not looked at. -/
theorem reachable_plain (skip : Nat → Module → Bool) (hskip : ∀ i m, skip i m.plain = skip i m) (root : Nat) :
    g.plain.reachable skip root = g.reachable skip root := by
  unfold reachable
  rw [digraph_plain]
  congr 1
  funext i
  rw [getElem?_plain]
  cases g.modules[i]? with
  | none => rfl
  | some m => exact hskip i m

theorem isNamed_plain : g.plain.isNamed = g.isNamed := by
  funext i
  unfold isNamed
  rw [getElem?_plain]
  cases g.modules[i]? <;> rfl

theorem cycles_plain : g.plain.cycles = g.cycles := by
  unfold cycles
  rw [digraph_plain, isNamed_plain]

theorem hashAt_plain : g.plain.hashAt = g.hashAt := by
  funext i
  unfold hashAt
  rw [getElem?_plain]
  cases g.modules[i]? <;> rfl

end ModuleGraph

open ModuleGraph

variable {g : ModuleGraph}

theorem entryOf_plain : Partition.entryOf g.plain = Partition.entryOf g := by
  funext entry
  unfold Partition.entryOf
  rw [lookup_plain]

theorem plugins_plain (claimed : List Nat) (paths : List Path) :
    Partition.plugins g.plain claimed paths = Partition.plugins g claimed paths := by
  induction paths generalizing claimed with
  | nil => rfl
  | cons path paths ih =>
    unfold Partition.plugins
    rw [entryOf_plain]
    -- what is claimed is told by places, which are the same
    refine bind_congr (x := Partition.entryOf g path) ?_
    intro entry
    rw [reachable_plain (fun i _ => claimed.contains i) fun _ _ => rfl]
    simp only [ih]

/-- The bundles of a graph. -/
theorem partition_plain (independent : Bool) (entries : List Path) :
    partition g.plain independent entries = partition g independent entries := by
  cases entries with
  | nil => rfl
  | cons first others =>
    rw [partition, partition, entryOf_plain]
    refine bind_congr (x := Partition.entryOf g first) ?_
    intro entry
    have hmain : Partition.main g.plain independent others entry = Partition.main g independent others entry := by
      unfold Partition.main
      rw [reachable_plain (fun i m => i != entry && Partition.inPlugin others m.file) fun _ _ => rfl]
    rw [hmain]
    simp only [plugins_plain]

theorem assignSparse_plain (used : List String) (places : List Nat) :
    assignSparse g.plain used places = assignSparse g used places := by
  induction places generalizing used with
  | nil => rfl
  | cons i rest ih =>
    simp only [assignSparse, hashAt_plain, ih]

/-- The ids of a graph. -/
theorem assignIds_plain (ps : List Partition) : assignIds g.plain ps = assignIds g ps := by
  have hfrom : ∀ used, assignFrom g.plain used ps = assignFrom g used ps := by
    induction ps with
    | nil => exact fun _ => rfl
    | cons p ps ih =>
      intro used
      simp only [assignFrom, assignSparse_plain, ih]
  unfold assignIds
  rw [hfrom]

end Relink
