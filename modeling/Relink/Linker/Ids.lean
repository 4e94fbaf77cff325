import Relink.Linker.Partition

/-!
# Assigning ids

The modules of a dense bundle are numbered. Those of a sparse one get a part of their digest as a key:
as short as possible, but at least ten characters long and unlike all other keys of the link.

* `freshKey` — a key for a digest.
* `assignIds` — the ids of all modules.
-/

namespace Relink

/-- The least length of a key. -/
def keyLength : Nat := 10

/-- The fronts of a digest that can be keys, the shortest first. -/
def keyFronts (hash : List Char) : List String :=
  let least := min keyLength hash.length
  (List.range (hash.length - least + 1)).map fun i => String.ofList (hash.take (least + i))

/-- Digests with a number behind them; there are more of them than there are texts in `used`. -/
def numberedKeys (hash : String) (used : List String) : List String :=
  (List.range (used.length + 1)).map fun i => hash ++ "-" ++ toString (i + 1)

/-- A key for a digest that is not used yet. -/
def freshKey (hash : String) (used : List String) : String :=
  ((keyFronts hash.toList ++ numberedKeys hash used).find? fun key => !used.contains key).getD hash

/-- The digest of the module at a place. -/
def ModuleGraph.hashAt (g : ModuleGraph) (i : Nat) : String :=
  (g.modules[i]?).elim "" Module.hash

/-- Gives ids to the modules of a bundle; `used` are the keys of earlier modules. -/
def assignSparse (g : ModuleGraph) (used : List String) : List Nat → List (Nat × ModuleId) × List String
  | [] => ([], used)
  | i :: rest =>
    let key := freshKey (g.hashAt i) used
    let (ids, used) := assignSparse g (key :: used) rest
    ((i, .sparse key) :: ids, used)

/-- Gives ids to the modules of bundles; `used` are the keys of earlier bundles. -/
def assignFrom (g : ModuleGraph) (used : List String) : List Partition → List (Nat × ModuleId)
  | [] => []
  | p :: ps =>
    match p.assembly with
    | .dense => p.modules.zipIdx.map (fun (i, place) => (i, .dense place)) ++ assignFrom g used ps
    | .sparse =>
      let (ids, used) := assignSparse g used p.modules
      ids ++ assignFrom g used ps

/-- The ids of the modules, by their places in the graph. -/
def assignIds (g : ModuleGraph) (ps : List Partition) : Table Nat ModuleId :=
  Table.ofList (assignFrom g [] ps)

end Relink
