import Relink.Json.Decode
import Relink.Json.Read

/-!
# Manifests of packages

The part of a package's manifest that decides where its modules are.
-/

namespace Relink

/-- What a package says about itself. -/
structure Manifest where
  name : Option String
  /-- The entry of the package. -/
  main : Option String
  /-- The entry that is written as a module. -/
  module : Option String
  /-- What the package offers under which names. -/
  exports : Option Json
  /-- How its scripts are written. -/
  type : Option String
  deriving Repr, Inhabited

namespace Manifest

/-- The manifest of a package that has none. -/
def empty : Manifest := ⟨none, none, none, none, none⟩

/-- The name of the file that holds the manifest of a package. -/
def fileName : String := "package.json"

def fieldNames : List String := ["name", "main", "module", "exports", "type"]

def ofJson? (v : Json) : Option Manifest := do
  let fs ← Json.fields? fieldNames v
  if !fs.usable (Json.depthLimit - 1) then none
  let text := fun name => fs.optional name Json.Decoder.string
  some {
    name := ← text "name"
    main := ← text "main"
    module := ← text "module"
    exports := ← fs.optional "exports" fun v => some v.canonical
    type := ← text "type" }

/-- The manifest that a text writes. -/
def ofText? (text : String) : Option Manifest := (Json.parse? text).bind ofJson?

/-- The names under which a package offers files, with the files, in the order of the names. -/
def exportEntries (m : Manifest) : List (String × String) :=
  match m.exports with
  | some (.object fs) => fs.filterMap fun
    | (key, .string target) => some (key, target)
    | _ => none
  | _ => []

/-- Whether the scripts of the package are written as modules. -/
def isModular (m : Manifest) : Bool := m.type == some "module" || m.module.isSome

end Manifest

end Relink
