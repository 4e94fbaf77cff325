import Relink.Json.Decode
import Relink.Path.Basic

/-!
# Kinds of modules

What a module is follows from the extension of its file. Scripts are linked as they are, JSON becomes
an expression, and everything else is given to the program as text.
-/

namespace Relink

/-- A kind of module. -/
inductive ModuleKind where
  | js
  | json
  | css
  | json5
  | yaml
  deriving DecidableEq, Repr, Inhabited

namespace ModuleKind

def name : ModuleKind → String
  | js => "js"
  | json => "json"
  | css => "css"
  | json5 => "json5"
  | yaml => "yaml"

def all : List ModuleKind := [js, json, css, json5, yaml]

/-- The kinds under their names. -/
def byName : List (String × ModuleKind) := all.map fun k => (k.name, k)

/-- The kind of file with a given extension. -/
def ofExtension? (extension : String) : Option ModuleKind :=
  match extension with
  | "js" | "mjs" | "cjs" => some js
  | "json" => some json
  | "css" => some css
  | "json5" => some json5
  | "yaml" | "yml" => some yaml
  | _ => none

/-- The kind of the module in a file. -/
def ofPath? (p : Path) : Option ModuleKind :=
  p.extension.bind ofExtension?

theorem lookup_name (k : ModuleKind) : byName.lookup k.name = some k := by
  cases k <;> decide

def decoder : Json.Decoder ModuleKind := Json.Decoder.oneOf byName

def toJson (k : ModuleKind) : Json := .string k.name

end ModuleKind

end Relink
