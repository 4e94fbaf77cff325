import Relink.Bundle.Loader
import Relink.FileTree
import Relink.Module.Artifact
import Relink.Policy
import Relink.SourceMap.Stitch

/-!
# Bundles

The modules of an entry, and how they are put together into one script: the loader, a table of the
modules, and the arguments of the loader. In a dense bundle the table is an array, so every module has
to stand at the place that is its id; in a sparse one it is an object.

* `Bundle.assemble` — the script of a bundle, and its map unless it is minified.
* `Assembled.write` — puts a script and its map into files.
-/

namespace Relink

/-- The form of the table of modules. -/
inductive Assembly where
  | dense
  | sparse
  deriving DecidableEq, Repr, Inhabited

/-- The modules of an entry. -/
structure Bundle where
  entry : ModuleRecord
  artifacts : List Artifact
  /-- Whether the modules of the host can be required. -/
  builtins : Bool
  assembly : Assembly
  role : Role
  entryAlias : String
  deriving DecidableEq, Repr, Inhabited

/-- The script of a bundle. -/
structure Assembled where
  source : String
  map : Option SourceMap
  aliases : Table String ModuleId
  deriving DecidableEq, Repr, Inhabited

namespace Bundle

/-! ## Tables -/

/-- The ids of the modules that have a name. -/
def aliases (b : Bundle) : Table String ModuleId :=
  Table.ofList <| b.artifacts.filterMap fun a => a.record.canonical.map fun name => (name, a.record.id)

/-- The specifiers that are not in the bundle: `true` stands for those that are left to the host,
`false` for empty modules. -/
def externals (b : Bundle) : Table String Bool :=
  Table.ofList <|
    (if b.builtins then hostModules.map fun name => (name, true) else [])
      ++ b.artifacts.flatMap (fun a => a.record.shims.toList.map fun name => (name, false))
      ++ b.artifacts.flatMap (fun a => a.record.externals.toList.map fun name => (name, true))

/-! ## Assembly -/

/-- The brackets of the table of modules. -/
def brackets : Assembly → String × String
  | .dense => ("[", "]")
  | .sparse => ("\x7b", "\x7d")

/-- A script that is being put together: its text, the number of its lines, and its map. -/
structure Draft where
  source : String
  lines : Nat
  map : Option SourceMap.Stitcher

/-- The text in front of the modules. -/
def frontText (b : Bundle) : String :=
  Loader.front b.role b.entryAlias ++ "(" ++ (brackets b.assembly).1 ++ "\n"

/-- The text behind the modules. -/
def backText (b : Bundle) : String :=
  (brackets b.assembly).2 ++ ", " ++ b.entry.id.literal ++ ", "
    ++ (Json.ofTable ModuleId.toJson b.aliases).render ++ ", "
    ++ (Json.ofTable Json.bool b.externals).render ++ ");" ++ Loader.back

/-- Adds the map of a module. -/
def addMap (map : Option SourceMap.Stitcher) (a : Artifact) (lines : Nat) :
    Except Failure (Option SourceMap.Stitcher) :=
  match map, a.code.map with
  | some s, some text => (s.addText text lines (some ("@@/" ++ a.record.basePath))).map some
  | map, _ => .ok map

/-- Adds a module, which is to have the given place. -/
def addModule (b : Bundle) (minified : Bool) (d : Draft) (a : Artifact) (place : Nat) :
    Except Failure Draft := do
  if b.assembly == .dense && a.record.id != .dense place then
    throw (.configuration (.unorderedId a.record.basePath a.record.id))
  let map ← addMap d.map a d.lines
  let code := if minified then a.code.minSource else a.code.source
  let label := match b.assembly with
    | .dense => ""
    | .sparse => a.record.id.literal ++ ": "
  return ⟨d.source ++ label ++ code ++ ",\n", d.lines + newlines code.toList + 1, map⟩

/-- The script of a bundle, from the minified code of the modules or with a map. -/
def assemble (b : Bundle) (minified : Bool) : Except Failure Assembled := do
  let front := b.frontText
  let start : Draft :=
    ⟨front, newlines front.toList, if minified then none else some (.start none)⟩
  let d ← b.artifacts.zipIdx.foldlM (fun d (a, place) => b.addModule minified d a place) start
  return ⟨d.source ++ b.backText, d.map.map SourceMap.Stitcher.finish, b.aliases⟩

end Bundle

namespace Assembled

/-- The script with a comment that names the file of the map, if there is a map. -/
def fullSource (a : Assembled) (mapName : String) : String :=
  match a.map with
  | some _ => a.source ++ SourceMap.comment mapName ++ "\n"
  | none => a.source

/-- Puts the script into a file, and its map into one beside it. -/
def write (a : Assembled) (t : FileTree) (p : Path) : Except Failure FileTree :=
  let mapPath := p.withSuffix ".map"
  match t.write p (a.fullSource (mapPath.fileName.getD "")) with
  | .error fault => .error (.io fault)
  | .ok t =>
    match a.map with
    | none => .ok t
    | some m =>
      match t.write mapPath m.toJson.canonical.render with
      | .error fault => .error (.io fault)
      | .ok t => .ok t

end Assembled

end Relink
