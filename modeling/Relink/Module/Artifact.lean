import Relink.Module.Id
import Relink.Module.Kind
import Relink.Table

/-!
# Artifacts

A module as it goes into a bundle and into a cache: the record of where it comes from and what it
depends on, and its code in two variants. Artifacts are kept as JSON objects; texts that are missing are
left out.
-/

namespace Relink

/-- A module with its dependencies resolved to ids. -/
structure ModuleRecord where
  file : Path
  base : Path
  /-- The path of the file as seen from the base. -/
  basePath : String
  /-- The name under which the module is known in its bundle. -/
  canonical : Option String
  id : ModuleId
  /-- The digest of the source. -/
  hash : String
  kind : ModuleKind
  /-- The ids that specifiers stand for. -/
  dependencyMap : Table String ModuleId
  /-- The files that specifiers stand for. -/
  dependencyPaths : Table String Path
  externals : NameSet
  shims : NameSet
  deriving DecidableEq, Repr, Inhabited

/-- The code of a module with the text of its map, as it is and minified. -/
structure ModuleCode where
  source : String
  map : Option String
  minSource : String
  minMap : Option String
  deriving DecidableEq, Repr, Inhabited

/-- A module and its code. -/
structure Artifact where
  record : ModuleRecord
  code : ModuleCode
  deriving DecidableEq, Repr, Inhabited

namespace Json

def ofPath (p : Path) : Json := .string p.text

/-- The values of a table as an object. -/
def ofTable {α : Type} (f : α → Json) (t : Table String α) : Json := .object (t.map f).entries

def ofNames (s : NameSet) : Json := .array (s.toList.map .string)

/-- A field that is left out when it has no value. -/
def optionalField (name : String) : Option String → List (String × Json)
  | some text => [(name, .string text)]
  | none => []

namespace Decoder

def path : Decoder Path := fun v => (string v).map Path.mk

end Decoder

end Json

namespace ModuleRecord

def fieldNames : List String :=
  ["file", "base", "base_path", "canonical", "id", "hash", "type", "dependency_map",
    "dependency_paths", "externals", "shims"]

def toJson (r : ModuleRecord) : Json :=
  .object (
    [("file", .ofPath r.file), ("base", .ofPath r.base), ("base_path", .string r.basePath)]
      ++ Json.optionalField "canonical" r.canonical
      ++ [("id", r.id.toJson), ("hash", .string r.hash), ("type", r.kind.toJson),
        ("dependency_map", .ofTable ModuleId.toJson r.dependencyMap),
        ("dependency_paths", .ofTable Json.ofPath r.dependencyPaths),
        ("externals", .ofNames r.externals), ("shims", .ofNames r.shims)])

def decoder : Json.Decoder ModuleRecord := fun v => do
  let fs ← Json.fields? fieldNames v
  some {
    file := ← fs.required "file" Json.Decoder.path
    base := ← fs.required "base" Json.Decoder.path
    basePath := ← fs.required "base_path" Json.Decoder.string
    canonical := ← fs.optional "canonical" Json.Decoder.string
    id := ← fs.required "id" ModuleId.decoder
    hash := ← fs.required "hash" Json.Decoder.string
    kind := ← fs.required "type" ModuleKind.decoder
    dependencyMap := ← fs.required "dependency_map" (Json.Decoder.table ModuleId.decoder)
    dependencyPaths := ← fs.required "dependency_paths" (Json.Decoder.table Json.Decoder.path)
    externals := ← fs.required "externals" Json.Decoder.names
    shims := ← fs.withDefault "shims" Json.Decoder.names .empty }

end ModuleRecord

namespace ModuleCode

def toJson (c : ModuleCode) : Json :=
  .object (
    [("source", .string c.source)] ++ Json.optionalField "map" c.map
      ++ [("min_source", .string c.minSource)] ++ Json.optionalField "min_map" c.minMap)

def decoder : Json.Decoder ModuleCode := fun v => do
  let fs ← Json.fields? ["source", "map", "min_source", "min_map"] v
  some {
    source := ← fs.required "source" Json.Decoder.string
    map := ← fs.optional "map" Json.Decoder.string
    minSource := ← fs.required "min_source" Json.Decoder.string
    minMap := ← fs.optional "min_map" Json.Decoder.string }

end ModuleCode

namespace Artifact

def toJson (a : Artifact) : Json :=
  .object [("module", a.record.toJson), ("code", a.code.toJson)]

def decoder : Json.Decoder Artifact := fun v => do
  let fs ← Json.fields? ["module", "code"] v
  some ⟨← fs.required "module" ModuleRecord.decoder, ← fs.required "code" ModuleCode.decoder⟩

end Artifact

end Relink
