import Relink.Config
import Relink.Log

/-!
# The cache

The artifacts of the last link, by the files of their modules, together with the settings under which
their code was made. A cache is kept as a JSON text with a version; a text of another version, or one
that was written under other settings, is no use.

* `Cache.parse` — the cache that a text writes.
* `Cache.load` — the cache in a file; a file that is no use gives an empty cache.
-/

namespace Relink

/-- Artifacts by the files of their modules. -/
structure Cache where
  settings : CodeSettings
  artifacts : Table Path Artifact
  deriving DecidableEq, Repr, Inhabited

namespace Cache

/-- The version of the text, which changes with the form of the text and of the code. -/
def version : Nat := 5

/-- The cache without artifacts. -/
def empty (settings : CodeSettings) : Cache := ⟨settings, Table.empty⟩

def get? (c : Cache) (file : Path) : Option Artifact := c.artifacts.get? file

/-- Artifacts by the files of their modules. -/
def index (artifacts : List Artifact) : Table Path Artifact :=
  Table.ofList (artifacts.map fun a => (a.record.file, a))

/-- The cache with other artifacts. -/
def replace (c : Cache) (artifacts : List Artifact) : Cache :=
  { c with artifacts := index artifacts }

def size (c : Cache) : Nat := c.artifacts.size

/-! ## Text -/

def toJson (c : Cache) : Json :=
  .object [("version", .ofNat version), ("settings", c.settings.toJson),
    ("artifacts", .array (c.artifacts.values.map Artifact.toJson))]

/-- The text of a cache. -/
def render (c : Cache) : String := c.toJson.render

/-- The version that a value gives. -/
def versionOf : Json → Option Nat
  | .object fs => (fs.lookup "version").bind Json.Decoder.word
  | _ => none

/-- The settings and artifacts of a cache. -/
def contentOf (v : Json) : Option (CodeSettings × List Artifact) := do
  let fs ← Json.fields? ["settings", "artifacts"] v
  some (← fs.required "settings" CodeSettings.decoder,
    ← fs.required "artifacts" (Json.Decoder.list Artifact.decoder))

/-- The cache that a text writes, if it can be used under the given settings. -/
def parse (text : String) (settings : CodeSettings) : Except Failure Cache :=
  match Json.parseCanonical? text with
  | none => .error (.cacheFormat .unreadable)
  | some v =>
    if versionOf v != some version then .error (.cacheFormat (.version (versionOf v) version))
    else
      match contentOf v with
      | none => .error (.cacheFormat .malformed)
      | some (written, artifacts) =>
        if written != settings then .error (.cacheFormat (.settings written settings))
        else .ok ⟨written, index artifacts⟩

/-! ## Files -/

/-- The cache in a file. -/
def read (t : FileTree) (p : Path) (settings : CodeSettings) : Except Failure Cache :=
  match t.read p with
  | .error fault => .error (.io fault)
  | .ok text => parse text settings

/-- The cache in a file, or an empty one, and what is said about it. -/
def load (t : FileTree) (p : Path) (settings : CodeSettings) : Cache × LogLine :=
  if t.isFile p then
    match read t p settings with
    | .ok c => (c, .debug ("Loaded " ++ toString c.size ++ " cached modules"))
    | .error e => (empty settings, .warn ("Discarding cache " ++ p.text ++ ": " ++ e.message))
  else (empty settings, .debug ("No cache at " ++ p.text ++ ", linking cold"))

/-- Puts a cache into a file. -/
def store (c : Cache) (t : FileTree) (p : Path) : Except Failure FileTree :=
  match t.write p c.render with
  | .ok t => .ok t
  | .error fault => .error (.io fault)

/-- What is said when a cache has been stored. -/
def storedLine (c : Cache) (p : Path) : LogLine :=
  .debug ("Stored " ++ toString c.size ++ " modules in " ++ p.text)

end Cache

end Relink
