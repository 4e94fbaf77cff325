import Relink.Command.Run
import Relink.Text.Search

/-!
# The command line

Reads the files below the current directory, and below the directories that a link names, carries out
the command on them, and writes back what it has changed.

The exit code is 0 if the command has succeeded, 1 if it has failed, and 2 if there is no such command.
The variable `RELINK_LOG` holds the filter for the log.
-/

namespace Relink

/-- How deep directories are read. -/
def readingDepth : Nat := 64

/-- The tree with the directories above a location. -/
def withDirectories (t : FileTree) (l : Location) : FileTree :=
  (List.range l.length).foldl (fun t n => t.put (l.take n) .directory) t

/-- Adds what stands at a location and below it, as deep as the first argument says. What cannot be read
is left out. -/
def readInto : Nat → FileTree → Location → IO FileTree
  | 0, t, _ => pure t
  | depth + 1, t, l =>
    try
      let path ← IO.FS.realPath (FileTree.pathOf l).text
      if ← path.isDir then
        let mut t := t.put l .directory
        for entry in ← path.readDir do
          t ← readInto depth t (l ++ [entry.fileName])
        return t
      else
        return t.put l (.file (← IO.FS.readBinFile path))
    catch _ => return t

/-- Adds a directory, unless it is in the tree. -/
def readDirectory (t : FileTree) (p : Path) : IO FileTree :=
  let l := p.segments.filter fun s => !Path.isIdle s
  if t.isDirectory p then pure t else readInto readingDepth (withDirectories t l) l

/-- The files that a command can see. -/
def readTree (i : Invocation) : IO FileTree := do
  let current : Path := ⟨(← IO.currentDir).toString⟩
  let home := current.segments.filter fun s => !Path.isIdle s
  let t : FileTree := ⟨Table.empty, home⟩
  match i with
  | .info => return t
  | .link a =>
    let t ← readDirectory t current
    let t ← match a.config.bind fun c => (t.absolute ⟨c⟩).parent with
      | some directory => readDirectory t directory
      | none => pure t
    match (StateT.run (ExceptT.run (Command.configFor a)) ⟨t, []⟩).1 with
    | .ok c => (Command.directoriesOf t c a).foldlM readDirectory t
    | .error _ => return t

/-- Writes what one tree has and an earlier one does not have. -/
def writeChanges (before after : FileTree) : IO Unit :=
  for (l, entry) in before.changesSince after do
    match entry with
    | .directory => IO.FS.createDirAll (FileTree.pathOf l).text
    | .file bytes => IO.FS.writeBinFile (FileTree.pathOf l).text bytes

/-- Carries out a command: the exit code. -/
def perform (i : Invocation) : IO UInt32 := do
  let start ← IO.monoMsNow
  let before ← readTree i
  let filter := ((← IO.getEnv "RELINK_LOG").map Filter.ofText).getD Filter.standard
  let outcome := Command.run Minifier.checked filter before i
  writeChanges before outcome.tree
  let time := toString ((← IO.monoMsNow) - start) ++ "ms"
  for line in outcome.log do
    IO.println (replaceAll LogLine.duration time line.render)
  match outcome.failure with
  | none => return 0
  | some failure =>
    IO.eprintln failure.detailed
    return 1

end Relink

def main (words : List String) : IO UInt32 := do
  match Relink.Invocation.parse words with
  | .ok i => Relink.perform i
  | .error .help =>
    IO.println Relink.UsageFault.help.message
    return 0
  | .error fault =>
    IO.eprintln fault.message
    return 2
