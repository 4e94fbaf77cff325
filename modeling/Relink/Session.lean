import Relink.Failure
import Relink.Log
import Relink.Manifest
import Relink.Table

/-!
# Sessions

A linker remembers the manifests it has read and writes a log, also when it fails. A computation of the
linker is one that can fail and that carries both along.
-/

namespace Relink

/-- What a linker remembers while it works. -/
structure Session where
  /-- The manifests that have been read, by the directories of the packages. -/
  manifests : Table Path Manifest
  /-- The lines of the log, the last one first. -/
  log : List LogLine
  deriving Inhabited

/-- A computation that can fail and that remembers what it has read and said. -/
abbrev Linking := ExceptT Failure (StateM Session)

namespace Linking

/-- Writes a line to the log. -/
def say (line : LogLine) : Linking Unit :=
  modify fun s => { s with log := line :: s.log }

/-- The remembered manifest of the package in a directory. -/
def remembered (directory : Path) : Linking (Option Manifest) := do
  return (← get).manifests.get? directory

/-- Remembers the manifest of the package in a directory. -/
def remember (directory : Path) (m : Manifest) : Linking Unit :=
  modify fun s => { s with manifests := s.manifests.insert directory m }

/-- Gives up. -/
def fail {α : Type} (failure : Failure) : Linking α := throw failure

/-- A computation that needs no session. -/
def lift {α : Type} (r : Except Failure α) : Linking α :=
  match r with
  | .ok a => pure a
  | .error e => throw e

/-- The outcome of a computation and the session behind it. -/
def runIn {α : Type} (x : Linking α) (s : Session) : Except Failure α × Session :=
  StateT.run (ExceptT.run x) s

end Linking

end Relink
