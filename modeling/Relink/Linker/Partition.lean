import Relink.Bundle.Basic
import Relink.Graph

/-!
# Partitions

Every module of a graph goes into one bundle. The main bundle takes what its entry reaches without the
directories of the plugins; each plugin takes what its entry reaches and no earlier bundle has taken.

* `partition` — the modules of each bundle.
-/

namespace Relink

/-- The modules of a bundle, by their places in the graph. -/
structure Partition where
  entry : Nat
  modules : List Nat
  assembly : Assembly
  role : Role
  deriving DecidableEq, Repr, Inhabited

namespace Partition

/-- The modules of some bundles. -/
def modulesOf (ps : List Partition) : List Nat := ps.flatMap modules

/-- The place of the module of an entry. -/
def entryOf (g : ModuleGraph) (entry : Path) : Except Failure Nat :=
  match g.lookup entry with
  | some i => .ok i
  | none => .error (.configuration (.excludedEntry entry))

/-- Whether a file lies in the directory of a plugin. -/
def inPlugin (plugins : List Path) (file : Path) : Bool :=
  (plugins.filterMap Path.parent).any file.startsWith

/-- The modules of the main bundle. -/
def main (g : ModuleGraph) (independent : Bool) (plugins : List Path) (entry : Nat) : Partition :=
  let modules := g.reachable (fun i m => i != entry && inPlugin plugins m.file) entry
  if independent then ⟨entry, modules, .sparse, .plugin⟩ else ⟨entry, modules, .dense, .main⟩

/-- The modules of the bundles of plugins; `claimed` has been taken by earlier bundles. -/
def plugins (g : ModuleGraph) (claimed : List Nat) : List Path → Except Failure (List Partition)
  | [] => .ok []
  | path :: paths => do
    let entry ← entryOf g path
    let modules := g.reachable (fun i _ => claimed.contains i) entry
    let others ← plugins g (claimed ++ modules) paths
    return ⟨entry, modules, .sparse, .plugin⟩ :: others

end Partition

/-- The modules of each bundle, that of the first entry first. -/
def partition (g : ModuleGraph) (independent : Bool) :
    List Path → Except Failure (List Partition)
  | [] => .error (.configuration .noEntry)
  | first :: others => do
    let entry ← Partition.entryOf g first
    let main := Partition.main g independent others entry
    return main :: (← Partition.plugins g main.modules others)

end Relink
