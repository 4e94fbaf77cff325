import Relink.Linker.Compile
import Relink.Linker.Ids

/-!
# The linker

A linker keeps what it has learnt from one link to the next: the manifests it has read, and the cache. A
link discovers the modules, distributes them over bundles, gives them ids, and makes the code of those
whose content or whose dependencies' ids have changed; the code of the others is taken from the cache.

* `Linker.ofConfig` — a linker, if its entries and bases exist.
* `Linker.link` — the bundles of the entries, and the linker behind the link.
* `Linker.results` — what a link can give, also when modules are compiled in parallel.
-/

namespace Relink

/-- A linker between two links. -/
structure Linker where
  config : Config
  entries : List Path
  bases : List Path
  excludes : List Path
  policy : Policy
  minifier : Minifier
  cache : Cache
  manifests : Table Path Manifest

/-- The result of a link. -/
structure LinkOutput where
  bundles : List Bundle
  /-- False when there are circular dependencies that should be reported. -/
  status : Bool
  transformed : Nat
  reused : Nat
  deriving DecidableEq, Repr, Inhabited

/-- Why a module is compiled again. -/
inductive Reason where
  | changed
  | notCached
  | idsChanged
  deriving DecidableEq, Repr, Inhabited

def Reason.text : Reason → String
  | changed => "changed"
  | notCached => "not cached"
  | idsChanged => "dependency ids changed"

/-- What is to be done for a module. -/
structure Job where
  place : Nat
  module : Module
  id : Option ModuleId
  /-- The ids that the specifiers stand for. -/
  ids : Table String ModuleId
  /-- Why the module is compiled; without a reason its code is taken from the cache. -/
  reason : Option Reason

namespace Linker

/-! ## Construction -/

/-- A linker that has not linked yet. -/
def fresh (t : FileTree) (config : Config) (minifier : Minifier) (policy : Policy) : Linker where
  config := config
  entries := config.entries.map t.absolute
  bases := config.bases.map t.absolute
  excludes := config.excludes.map t.absolute
  policy := policy
  minifier := minifier
  cache := Cache.empty config.settings
  manifests := Table.empty

/-- A linker for a configuration. The entries and the bases have to exist. -/
def ofConfig (t : FileTree) (config : Config) (minifier : Minifier) (excluded : String → Bool) :
    Except Failure Linker := do
  if config.entries.isEmpty then throw (.configuration .noEntry)
  if config.bases.isEmpty then throw (.configuration .noBase)
  if let some p := (config.entries.map t.absolute).find? fun p => !t.isFile p then
    throw (.configuration (.missingEntry p))
  if let some p := (config.bases.map t.absolute).find? fun p => !t.isDirectory p then
    throw (.configuration (.missingBase p))
  let policy ← Policy.ofConfig config excluded
  return fresh t config minifier policy

/-- The linker with the cache in the configured file, and what is said about it. -/
def loadCache (l : Linker) (t : FileTree) : Linker × List LogLine :=
  match l.config.cache with
  | some p =>
    let (cache, line) := Cache.load t p l.config.settings
    ({ l with cache := cache }, [line])
  | none => (l, [])

/-- Puts the cache into the configured file. -/
def storeCache (l : Linker) (t : FileTree) : Except Failure (FileTree × List LogLine) :=
  match l.config.cache with
  | some p => (l.cache.store t p).map fun t => (t, [l.cache.storedLine p])
  | none => .ok (t, [])

/-! ## A link -/

/-- How files are looked up in a tree. -/
def resolver (l : Linker) (t : FileTree) : Resolver :=
  ⟨t, l.bases, l.config.target, l.config.exports⟩

/-- How modules are discovered in a tree. -/
def discovery (l : Linker) (t : FileTree) : Discovery where
  resolver := l.resolver t
  policy := l.policy
  cache := l.cache
  excludes := l.excludes
  overrides := l.config.overrides
  transpile := l.config.target.isSome

/-- Why a module has to be compiled again, if it has to be. -/
def reasonFor (cache : Cache) (m : Module) (ids : Table String ModuleId) : Option Reason :=
  if m.changed then some .changed
  else
    match cache.get? m.file with
    | none => some .notCached
    | some a => if a.record.dependencyMap != ids then some .idsChanged else none

/-- What is to be done for the module at a place. -/
def plan (cache : Cache) (g : ModuleGraph) (ids : Table Nat ModuleId) (place : Nat) : Option Job :=
  (g.modules[place]?).map fun m =>
    let own := m.dependencies.filterMap ids.get?
    ⟨place, m, ids.get? place, own, reasonFor cache m own⟩

/-- The code of a module, unless it is taken from the cache. -/
def codeOf (l : Linker) (job : Job) : Linking (Option ModuleCode) :=
  match job.reason with
  | none => pure none
  | some reason => do
    Linking.say (.debug ("⚡ Compiling: " ++ job.module.name ++ " (" ++ reason.text ++ ")"))
    let code ← Linking.lift (compile l.minifier l.config.settings job.module job.ids)
    pure (some code)

/-- The code of a module in the cache. -/
def cachedCode (l : Linker) (file : Path) : Except Failure ModuleCode :=
  match l.cache.get? file with
  | some a => .ok a.code
  | none => .error (.cacheFormat (.missingCode file))

/-- The record of a module. -/
def recordOf (job : Job) : Except Failure ModuleRecord :=
  let m := job.module
  match job.id with
  | none => .error (.configuration (.missingId m.basePath))
  | some id =>
    .ok ⟨m.file, m.base, m.basePath, m.canonical, id, m.hash, m.kind, job.ids, m.dependencyPaths,
      m.externals, m.shims⟩

/-- The code of a module that is not compiled. -/
def reusedCode (l : Linker) (job : Job) : Linking ModuleCode := do
  Linking.say (.debug ("♻️  Reusing cached: " ++ job.module.name))
  Linking.lift (l.cachedCode job.module.file)

/-- The artifact of a module from its new code or from the cache. -/
def artifactOf (l : Linker) (job : Job) (code : Option ModuleCode) : Linking (Nat × Artifact) := do
  let code ← code.elim (l.reusedCode job) pure
  let record ← Linking.lift (recordOf job)
  pure (job.place, ⟨record, code⟩)

/-- The new code of the modules that are compiled, and the artifacts of all modules, by their places. The
modules are compiled one after the other, up to the first one that fails; for compiling in parallel, see
`results`. -/
def make (l : Linker) (jobs : List Job) : Linking (List (Option ModuleCode) × Table Nat Artifact) := do
  let codes ← jobs.mapM l.codeOf
  let made ← (jobs.zip codes).mapM fun (job, code) => l.artifactOf job code
  pure (codes, Table.ofList made)

/-- The bundle of a partition. -/
def bundleOf (l : Linker) (artifacts : Table Nat Artifact) (p : Partition) : Linking Bundle := do
  match artifacts.get? p.entry with
  | none => Linking.fail (.configuration .unlinkedEntry)
  | some entry =>
    let members := p.modules.filterMap artifacts.get?
    Linking.say (.info
      ("🧩 Bundle " ++ entry.record.basePath ++ ": " ++ toString members.length ++ " modules"))
    pure ⟨entry.record, members, l.config.builtins, p.assembly, p.role, l.config.entryAlias⟩

/-- Reports the circular dependencies, and says whether there are none. -/
def reportCycles (g : ModuleGraph) : Linking Bool := do
  g.cycles.forM fun cycle =>
    let names := cycle.map fun i => (g.modules[i]?).elim "" Module.name
    Linking.say (.warn ("Circular dependency: " ++ " -> ".intercalate names))
  pure g.cycles.isEmpty

/-- Whether there are no circular dependencies to report. -/
def statusOf (l : Linker) (g : ModuleGraph) : Linking Bool :=
  if l.config.detectCycles then reportCycles g else pure true

/-- The lines about a link that starts. -/
def openingLines (l : Linker) : List LogLine :=
  [.info "🔗 Soku Linker", .info "═══════════════════════════════════════",
    .info ("📁 Entries: " ++ toString l.entries.length),
    .info ("📚 Base paths: " ++ toString l.bases.length)]

/-- The lines about a finished link. -/
def closingLines (o : LinkOutput) : List LogLine :=
  [.info "", .info "📊 Link Statistics:", .info ("  • Bundles: " ++ toString o.bundles.length),
    .info ("  • Modules transformed: " ++ toString o.transformed),
    .info ("  • Modules reused from cache: " ++ toString o.reused),
    .info ("  • Link time: " ++ LogLine.duration), .info "✅ Link completed successfully!"]

/-- The modules that a link discovers. -/
def graph (l : Linker) (t : FileTree) : Linking ModuleGraph := do
  l.openingLines.forM Linking.say
  ModuleGraph.build (l.discovery t) l.entries

/-- What is to be done for the modules of some bundles. -/
def jobs (l : Linker) (g : ModuleGraph) (parts : List Partition) : List Job :=
  (Partition.modulesOf parts).filterMap (plan l.cache g (assignIds g parts))

/-- A link: its result, and the artifacts for the cache. -/
def run (l : Linker) (t : FileTree) : Linking (LinkOutput × List Artifact) := do
  let g ← l.graph t
  Linking.say (.info ("📦 Discovered " ++ toString g.size ++ " modules ("
    ++ toString g.changedCount ++ " changed)"))
  let status ← l.statusOf g
  let parts ← Linking.lift (partition g l.config.plugin l.entries)
  let (codes, artifacts) ← l.make (l.jobs g parts)
  let bundles ← parts.mapM (l.bundleOf artifacts)
  let output : LinkOutput :=
    ⟨bundles, status, codes.countP Option.isSome, codes.countP Option.isNone⟩
  (closingLines output).forM Linking.say
  pure (output, artifacts.values)

/-- The session in which a link runs. -/
def session (l : Linker) : Session := ⟨l.manifests, [.debug "⏱️  Starting: link"]⟩

/-- Links the entries: the result, the linker behind it, and the log. A link that fails leaves the cache
as it is. If several modules cannot be compiled, the result is the failure of the first one. -/
def link (l : Linker) (t : FileTree) : Except Failure LinkOutput × Linker × List LogLine :=
  let (r, s) := (l.run t).runIn l.session
  let log := (LogLine.debug ("⏱️  Completed: link in " ++ LogLine.duration) :: s.log).reverse
  let l := { l with manifests := s.manifests }
  match r with
  | .ok (output, artifacts) => (.ok output, { l with cache := l.cache.replace artifacts }, log)
  | .error e => (.error e, l, log)

/-! ## Compiling in parallel -/

/-- Why a module cannot be compiled, if it is to be compiled. -/
def failureOf (l : Linker) (job : Job) : Option Failure :=
  match job.reason with
  | none => none
  | some _ =>
    match compile l.minifier l.config.settings job.module job.ids with
    | .ok _ => none
    | .error e => some e

/-- The failures of the modules that a link cannot compile, in the order of the bundles. -/
def failures (l : Linker) (t : FileTree) : List Failure :=
  match ((l.graph t).runIn l.session).1 with
  | .error _ => []
  | .ok g =>
    match partition g l.config.plugin l.entries with
    | .error _ => []
    | .ok parts => (l.jobs g parts).filterMap l.failureOf

/-- The results that a link can have. In parallel the modules are compiled in any order, and the failure that is
met first ends the link, so it can be that of any module. Which one it is makes no difference to the linker
behind the link: no module is kept, and no manifest is read while modules are compiled. Nor does the order show
in the code; only the lines that announce a module come in it. -/
def results (l : Linker) (t : FileTree) : List (Except Failure LinkOutput) :=
  if l.config.parallel && !(l.failures t).isEmpty then (l.failures t).map .error else [(l.link t).1]

end Linker

end Relink
