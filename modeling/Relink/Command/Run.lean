import Relink.Command.Arguments
import Relink.Linker.Basic

/-!
# Running commands

What a command line does to a file tree. The bundles of a link are written one after the other, so a
failure leaves behind what has been written before it.

* `Command.configFor` — the configuration of a file with the options of the command line on top.
* `Command.linkAndWrite` — a link whose bundles are written into a directory.
* `Command.run` — a command line.
-/

namespace Relink.Command

/-- A file tree and what has been said while it was changed, the last line first. -/
structure Workspace where
  tree : FileTree
  log : List LogLine

/-- A computation that can fail and that changes files. -/
abbrev Working := ExceptT Failure (StateM Workspace)

/-- Writes lines to the log. -/
def say (lines : List LogLine) : Working Unit :=
  modify fun w => { w with log := lines.reverse ++ w.log }

/-- A computation that changes nothing. -/
def lift {α : Type} (r : Except Failure α) : Working α :=
  match r with
  | .ok a => pure a
  | .error e => throw e

/-- Changes the files. -/
def change (r : Except Failure FileTree) : Working Unit :=
  match r with
  | .ok t => modify fun w => { w with tree := t }
  | .error e => throw e

/-! ## Configuration -/

/-- What is said when a configuration is read. -/
def loadingLine (p : Path) : LogLine := .debug ("Loading config from " ++ p.text)

/-- The configuration in the given file, or in the current directory. -/
def fileConfig (a : LinkArguments) : Working Config := do
  let t := (← get).tree
  match a.config with
  | some text =>
    say [loadingLine ⟨text⟩]
    lift (Config.load t ⟨text⟩)
  | none =>
    let p := (Path.mk ".").child Config.fileName
    say [if t.contains p then loadingLine p
      else .debug ("No " ++ Config.fileName ++ " found, using defaults")]
    return (← lift (Config.loadFrom t ⟨"."⟩)).getD .default

/-- The configuration with the options of the command line on top. -/
def layer (c : Config) (a : LinkArguments) : Config :=
  { c with
    entries := if a.entries.isEmpty then c.entries else a.entries.map Path.mk
    bases := if a.bases.isEmpty then c.bases else a.bases.map Path.mk
    cache := (a.cache.map Path.mk).or c.cache
    minify := c.minify && !a.noMinify
    plugin := c.plugin || a.plugin
    detectCycles := c.detectCycles || a.detectCycles }

/-- The configuration of a file with the options of the command line on top. -/
def configFor (a : LinkArguments) : Working Config := do
  return layer (← fileConfig a) a

/-! ## Linking -/

/-- The name of the files of a bundle. -/
def bundleName (b : Bundle) : String := b.entry.file.stem.getD "bundle"

/-- Writes the scripts of a bundle: the paths of the files. -/
def writeBundle (outdir : Path) (minify : Bool) (b : Bundle) : Working (List Path) := do
  let write (ending : String) (minified : Bool) : Working Path := do
    let p := outdir.child (bundleName b ++ ending)
    let a ← lift (b.assemble minified)
    change (a.write (← get).tree p)
    return p
  let plain ← write ".js" false
  if minify then return [plain, ← write ".min.js" true] else return [plain]

/-- A link whose bundles are written into a directory: the paths of the files. -/
def linkAndWrite (minifier : Minifier) (config : Config) (outdir : Path) : Working (List Path) := do
  let t := (← get).tree
  let linker ← lift (Linker.ofConfig t config minifier fun _ => false)
  let (linker, lines) := linker.loadCache t
  say lines
  let (result, linker, lines) := linker.link t
  say lines
  let output ← lift result
  if !output.status then say [.warn "Linked with circular dependencies"]
  let mut written := []
  for b in output.bundles do
    written := written ++ (← writeBundle outdir config.minify b)
  let (t, lines) ← lift (linker.storeCache (← get).tree)
  change (.ok t)
  say lines
  return written

/-- The directories that a link reads or writes. -/
def directoriesOf (t : FileTree) (c : Config) (a : LinkArguments) : List Path :=
  let files := c.entries ++ c.cache.toList
  (files.filterMap (fun p => (t.absolute p).parent)) ++ (Path.mk a.directory :: c.bases).map t.absolute

/-! ## Commands -/

/-- What is said about the linker itself. -/
def infoLines : List LogLine := [
  "🔗 Soku Linker v0.3.0", "══════════════════════════════════════",
  "📄 Config file: " ++ Config.fileName, "", "🏗️  Pipeline:",
  "  • Resolve require() graphs from compiled CommonJS",
  "  • Content-hash cache, only changed modules are recompiled",
  "  • Dense main bundles, content-addressed plugin bundles",
  "  • oxc minification with source maps"].map LogLine.info

/-- Carries out a command. -/
def perform (minifier : Minifier) : Invocation → Working Unit
  | .info => say infoLines
  | .link a => do
    let config ← configFor a
    let written ← linkAndWrite minifier config ⟨a.directory⟩
    say (written.map fun p => .info ("📝 Wrote " ++ p.text))

/-- What is left when a command has ended. -/
structure Outcome where
  tree : FileTree
  /-- The lines that the filter lets through. -/
  log : List LogLine
  failure : Option Failure

/-- Carries out a command in a file tree. -/
def run (minifier : Minifier) (filter : Filter) (t : FileTree) (i : Invocation) : Outcome :=
  let (r, w) := StateT.run (ExceptT.run (perform minifier i)) ⟨t, []⟩
  { tree := w.tree
    log := w.log.reverse.filter fun l => filter.admits l.level
    failure := match r with
      | .ok () => none
      | .error e => some e }

end Relink.Command
