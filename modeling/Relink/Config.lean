import Relink.FileTree
import Relink.Json.Read
import Relink.Module.Artifact

/-!
# Configuration

What a linker is asked to do, and how it is read from a file. Paths in a file are seen from the
directory of the file.

* `Config.ofText?` — the configuration that a text writes as a JSON object.
* `Config.load`, `Config.loadFrom` — the configuration in a file, and in a directory.
-/

namespace Relink

/-- The language level of the given name in any case. -/
def Target.ofText (text : String) : Except Failure Target :=
  match Target.ofText? text with
  | some t => .ok t
  | none => .error (.configuration (.unknownTarget (Unicode.upperCaseText text)))

/-- What a linker is asked to do. -/
structure Config where
  /-- The first entry belongs to the main bundle, the others to plugins. -/
  entries : List Path
  /-- The directories in which bare specifiers are looked up, in order. -/
  bases : List Path
  /-- Paths whose files are never made modules. -/
  excludes : List Path
  /-- Specifiers that are left to the host. -/
  externals : List String
  /-- Patterns of specifiers that are left to the host. -/
  externalPatterns : List String
  /-- Whether the modules of the host are left to it. -/
  builtins : Bool
  cache : Option Path
  target : Option Target
  minify : Bool
  /-- Whether all ids are made from contents. -/
  plugin : Bool
  /-- Names under which modules outside the first base are known. -/
  exports : List String
  /-- Specifiers that stand for an empty module. -/
  shims : List String
  /-- Sources for files whose paths end in a given way. -/
  overrides : Table String String
  detectCycles : Bool
  applyTransforms : Bool
  parallel : Bool
  /-- A name for the entry while the bundle runs. -/
  entryAlias : String
  deriving DecidableEq, Repr, Inhabited

namespace Config

/-- The configuration that asks for nothing in particular. -/
def default : Config where
  entries := []
  bases := []
  excludes := []
  externals := []
  externalPatterns := []
  builtins := false
  cache := none
  target := none
  minify := true
  plugin := false
  exports := []
  shims := []
  overrides := Table.empty
  detectCycles := false
  applyTransforms := true
  parallel := false
  entryAlias := "bokehjs"

/-- The settings for code. -/
def settings (c : Config) : CodeSettings := ⟨c.minify, c.applyTransforms, c.target⟩

/-! ## Reading -/

def fieldNames : List String :=
  ["entries", "bases", "excludes", "externals", "externalPatterns", "builtins", "cache", "target",
    "minify", "plugin", "exports", "shims", "overrides", "detectCycles", "applyTransforms",
    "parallel", "entryAlias"]

/-- The configuration of a JSON value; what it does not mention is left at its default. -/
def ofJson? (v : Json) : Option Config := do
  let fs ← Json.fields? fieldNames v
  if !fs.usable (Json.depthLimit - 1) then none
  let d := default
  let paths := Json.Decoder.list Json.Decoder.path
  let texts := Json.Decoder.list Json.Decoder.string
  let flag := Json.Decoder.bool
  some {
    entries := ← fs.withDefault "entries" paths d.entries
    bases := ← fs.withDefault "bases" paths d.bases
    excludes := ← fs.withDefault "excludes" paths d.excludes
    externals := ← fs.withDefault "externals" texts d.externals
    externalPatterns := ← fs.withDefault "externalPatterns" texts d.externalPatterns
    builtins := ← fs.withDefault "builtins" flag d.builtins
    cache := ← fs.withDefault "cache" (Json.Decoder.optional Json.Decoder.path) d.cache
    target := ← fs.withDefault "target" (Json.Decoder.optional Target.decoder) d.target
    minify := ← fs.withDefault "minify" flag d.minify
    plugin := ← fs.withDefault "plugin" flag d.plugin
    exports := ← fs.withDefault "exports" texts d.exports
    shims := ← fs.withDefault "shims" texts d.shims
    overrides := ← fs.withDefault "overrides" (Json.Decoder.table Json.Decoder.string) d.overrides
    detectCycles := ← fs.withDefault "detectCycles" flag d.detectCycles
    applyTransforms := ← fs.withDefault "applyTransforms" flag d.applyTransforms
    parallel := ← fs.withDefault "parallel" flag d.parallel
    entryAlias := ← fs.withDefault "entryAlias" Json.Decoder.string d.entryAlias }

/-- The configuration that a text writes. -/
def ofText? (text : String) : Option Config := (Json.parse? text).bind ofJson?

/-! ## Files -/

/-- The name of the file that holds a configuration. -/
def fileName : String := "soku-linker.config.json"

/-- The configuration with its relative paths seen from a directory. -/
def rebase (c : Config) (directory : Path) : Config :=
  { c with
    entries := c.entries.map directory.join
    bases := c.bases.map directory.join
    excludes := c.excludes.map directory.join
    cache := c.cache.map directory.join }

/-- The configuration in a file. -/
def load (t : FileTree) (p : Path) : Except Failure Config :=
  match t.read p with
  | .error fault => .error (.io fault)
  | .ok text =>
    match ofText? text with
    | some c => .ok (c.rebase (p.parent.getD ⟨"."⟩))
    | none => .error (.configuration (.badConfiguration p))

/-- The configuration in a directory, if there is a file with its name. -/
def loadFrom (t : FileTree) (directory : Path) : Except Failure (Option Config) :=
  let p := directory.child fileName
  if t.contains p then (load t p).map some else .ok none

end Config

end Relink
