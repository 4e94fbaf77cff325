import Relink.Cache
import Relink.Digest
import Relink.Digraph
import Relink.Policy
import Relink.Resolver
import Relink.Script.Summary
import Relink.Text.Search

/-!
# The module graph

The modules that can be reached from some entries. A module is identified by its path; what it requires
is found by its summary, the policy and the resolver, or taken from the cache when its content has not
changed.

* `Discovery.module` — the module of a file.
* `ModuleGraph.build` — the modules that can be reached from the entries, in the order of discovery.
* `ModuleGraph.cycles` — the circular dependencies among the modules that have a name.
-/

namespace Relink

/-- A file that has become a module. -/
structure Module where
  file : Path
  base : Path
  basePath : String
  canonical : Option String
  hash : String
  /-- Whether the content differs from that in the cache. -/
  changed : Bool
  kind : ModuleKind
  /-- The text of the module as a script. -/
  source : String
  /-- The summary of a script that had to be read. -/
  summary : Option Script.Summary
  /-- The files that specifiers stand for. -/
  dependencyPaths : Table String Path
  /-- The modules that specifiers stand for, by their places in the graph. -/
  dependencies : Table String Nat
  externals : NameSet
  shims : NameSet
  deriving Repr, Inhabited

/-- The name of a module in the log. -/
def Module.name (m : Module) : String := m.canonical.getD m.basePath

/-- What the discovery of modules depends on. -/
structure Discovery where
  resolver : Resolver
  policy : Policy
  cache : Cache
  excludes : List Path
  /-- Sources for files whose paths end in a given way. -/
  overrides : Table String String
  /-- Whether modules are converted to scripts. -/
  transpile : Bool

namespace Discovery

def isExcluded (d : Discovery) (file : Path) : Bool := d.excludes.any file.startsWith

/-- The source of a file, which can be overridden. -/
def sourceOf (d : Discovery) (file : Path) : Linking String := do
  let slashed := Path.slashed file.text
  match d.overrides.entries.find? fun o => endsWith o.1 slashed with
  | some (_, source) =>
    Linking.say (.debug ("Overriding source of " ++ slashed))
    pure source
  | none =>
    match d.resolver.tree.read file with
    | .ok source => pure source
    | .error fault => Linking.fail (.io fault)

/-- The source of a module as a script. -/
def scriptOf (d : Discovery) (file : Path) (kind : ModuleKind) (l : BaseLocation) (source : String) :
    Linking String := do
  if d.transpile && l.modular && kind == .js then
    match Script.CommonJs.convert source with
    | .error refusal => Linking.fail (.transform file (.refused refusal))
    | .ok none => pure source
    | .ok (some converted) =>
      Linking.say (.debug ("Rewrote ES module " ++ l.basePath ++ " to CommonJS"))
      pure converted
  else pure source

/-- What a module requires. -/
structure Requirements where
  paths : Table String Path
  externals : NameSet
  shims : NameSet

/-- Takes up a specifier. -/
def require (d : Discovery) (file : Path) (r : Requirements) (specifier : String) :
    Linking Requirements :=
  match d.policy.classify specifier with
  | .external => pure { r with externals := r.externals.insert specifier }
  | .shim => pure { r with shims := r.shims.insert specifier }
  | .internal => do
    let p ← d.resolver.resolve specifier file
    pure { r with paths := r.paths.insert specifier p }

/-- The summary of a script. -/
def summaryOf (file : Path) (source : String) : Except Failure Script.Summary :=
  match Script.Summary.parse? source with
  | some s => .ok s
  | none => .error (.transform file .noScript)

/-- The module of a file with a given source, before it is known what it requires. -/
def moduleOf (d : Discovery) (file : Path) (kind : ModuleKind) (source : String) : Linking Module := do
  let l ← d.resolver.locate file (kind == .js)
  let script ← d.scriptOf file kind l source
  pure ⟨file, l.base, l.basePath, l.canonical, Digest.ofText source, true, kind, script, none,
    Table.empty, Table.empty, .empty, .empty⟩

/-- The module of a file, before it is known what it requires. -/
def opened (d : Discovery) (file : Path) : Linking Module :=
  match ModuleKind.ofPath? file with
  | none => Linking.fail (.unsupportedModule file)
  | some kind => do
    let source ← d.sourceOf file
    d.moduleOf file kind source

/-- The module with what it requires, which only scripts do. -/
def analysed (d : Discovery) (m : Module) : Linking Module := do
  if m.kind == .js then
    let summary ← Linking.lift (summaryOf m.file m.source)
    let r ← summary.dependencies.foldlM (d.require m.file) ⟨Table.empty, .empty, .empty⟩
    pure { m with
      summary := some summary, dependencyPaths := r.paths, externals := r.externals, shims := r.shims }
  else pure m

/-- The module with what it required when its artifact was made. -/
def Module.recalled (m : Module) (r : ModuleRecord) : Module :=
  { m with
    changed := false, dependencyPaths := r.dependencyPaths, externals := r.externals, shims := r.shims }

/-- The module of a file. -/
def module (d : Discovery) (file : Path) : Linking Module := do
  let m ← d.opened file
  match (d.cache.get? file).filter fun a => a.record.hash == m.hash with
  | some a => pure (Module.recalled m a.record)
  | none => d.analysed m

end Discovery

/-- Modules in the order of their discovery. -/
structure ModuleGraph where
  modules : List Module
  deriving Repr, Inhabited

namespace ModuleGraph

def empty : ModuleGraph := ⟨[]⟩

def size (g : ModuleGraph) : Nat := g.modules.length

/-- The place of the module of a file. -/
def lookup (g : ModuleGraph) (file : Path) : Option Nat := g.modules.findIdx? fun m => m.file.same file

def contains (g : ModuleGraph) (file : Path) : Bool := (g.lookup file).isSome

/-- The number of modules whose content differs from that in the cache. -/
def changedCount (g : ModuleGraph) : Nat := g.modules.countP Module.changed

/-- The files in `pending` from the first one on that is to become a module. -/
def upcoming (d : Discovery) (g : ModuleGraph) (pending : List Path) : List Path :=
  pending.dropWhile fun p => g.contains p || d.isExcluded p

/-- Adds the modules that can be reached from the files in `pending`. The modules that a new one leads to come
before the others. A linker searches without a bound, for ever if files are required by ever new paths; here
`room` is what the recursion is on, and a search that needs more fails with `noRoom`, a failure that no linker
reports. -/
def discover (d : Discovery) : (room : Nat) → ModuleGraph → List Path → Linking ModuleGraph
  | 0, g, pending =>
    if (upcoming d g pending).isEmpty then pure g else Linking.fail (.configuration .noRoom)
  | room + 1, g, pending =>
    match upcoming d g pending with
    | [] => pure g
    | file :: others => do
      let m ← d.module file
      let new := m.dependencyPaths.values.filter fun p => !g.contains p
      discover d room ⟨g.modules ++ [m]⟩ (new ++ others)

/-- The graph with the dependencies between its modules. Files that have not become modules are left
out. -/
def wire (g : ModuleGraph) : ModuleGraph :=
  ⟨g.modules.map fun m => { m with dependencies := m.dependencyPaths.filterMap g.lookup }⟩

/-- The bound of a search, which is no part of what a link does. It lies a million above the number of the
files, so that it is only met where files are reached by very many paths; `build_of_staysDirect` says when it
never is. -/
def limit (d : Discovery) : Nat := 1000000 + (d.resolver.tree.filesBelow []).length

/-- The modules that can be reached from the entries. -/
def build (d : Discovery) (entries : List Path) : Linking ModuleGraph := do
  return (← discover d (limit d) .empty entries).wire

/-- The modules that a module depends on, in the order of their specifiers. -/
def successors (g : ModuleGraph) (i : Nat) : List Nat :=
  match g.modules[i]? with
  | some m => m.dependencies.values
  | none => []

def digraph (g : ModuleGraph) : Digraph := ⟨g.size, g.successors⟩

/-- The modules that can be reached from a module without those for which `skip` holds. -/
def reachable (g : ModuleGraph) (skip : Nat → Module → Bool) (root : Nat) : List Nat :=
  g.digraph.preorder (fun i => (g.modules[i]?).elim true (skip i)) root

/-- Whether the module at a place has a name. -/
def isNamed (g : ModuleGraph) (i : Nat) : Bool := (g.modules[i]?).elim false fun m => m.canonical.isSome

/-- The circular dependencies among the modules that have a name. -/
def cycles (g : ModuleGraph) : List (List Nat) := g.digraph.cycles fun i => !g.isNamed i

end ModuleGraph

end Relink
