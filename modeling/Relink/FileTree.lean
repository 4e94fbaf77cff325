import Relink.Failure
import Relink.Table

/-!
# File trees

Directories and files as a value. A location is the list of names that lead to it from the root; the
root is always a directory. A tree has a home, from which relative paths are seen.

* `walk` — the location that a path leads to; a step upwards leaves the directory that has been
  reached, so everything before it has to exist.
* `isFile`, `isDirectory`, `read` — what stands at a path.
* `write` — puts a file at a path and makes the directories that are missing above it.
-/

namespace Relink

/-- The names that lead to a place from the root. -/
abbrev Location := List String

/-- What stands at a location. -/
inductive FileEntry where
  | directory
  | file (bytes : ByteArray)
  deriving Inhabited

/-- Whether the same stands at two places. -/
def FileEntry.same : FileEntry → FileEntry → Bool
  | .directory, .directory => true
  | .file a, .file b => a.data.toList == b.data.toList
  | _, _ => false

/-- Directories and files. -/
structure FileTree where
  entries : Table Location FileEntry
  home : Location
  deriving Inhabited

namespace FileTree

/-! ## Places -/

/-- The path of a location. -/
def pathOf (l : Location) : Path := ⟨"/" ++ "/".intercalate l⟩

/-- A path as seen from the home, in normal form. -/
def absolute (t : FileTree) (p : Path) : Path := Path.absolute (pathOf t.home) p

/-- What stands at a location. -/
def at? (t : FileTree) (l : Location) : Option FileEntry :=
  if l.isEmpty then some .directory else t.entries.get? l

/-- The location that segments of a path lead to from a location where something stands. -/
def walk (t : FileTree) (l : Location) : List String → Except FileFault Location
  | [] => .ok l
  | s :: rest =>
    match t.at? l with
    | none => .error .missing
    | some (.file _) => .error .noDirectory
    | some .directory =>
      if Path.isIdle s then t.walk l rest
      else if s == ".." then t.walk l.dropLast rest
      else
        match t.at? (l ++ [s]) with
        | none => .error .missing
        | some _ => t.walk (l ++ [s]) rest

/-- The location at which the steps of a path start. -/
def origin (t : FileTree) (p : Path) : Location :=
  if p.isAbsolute then [] else t.home

/-- What stands at a path. -/
def find (t : FileTree) (p : Path) : Except FileFault FileEntry :=
  if p.text == "" then .error .missing
  else do
    let l ← t.walk (t.origin p) p.segments
    match t.at? l with
    | some e => .ok e
    | none => .error .missing

def isFile (t : FileTree) (p : Path) : Bool :=
  match t.find p with
  | .ok (.file _) => true
  | _ => false

def isDirectory (t : FileTree) (p : Path) : Bool :=
  match t.find p with
  | .ok .directory => true
  | _ => false

def contains (t : FileTree) (p : Path) : Bool :=
  match t.find p with
  | .ok _ => true
  | .error _ => false

/-- The text of the file at a path. -/
def read (t : FileTree) (p : Path) : Except FileFault String :=
  match t.find p with
  | .error fault => .error fault
  | .ok .directory => .error .directory
  | .ok (.file bytes) =>
    match String.fromUTF8? bytes with
    | some text => .ok text
    | none => .error .noText

/-! ## Changes -/

/-- Puts something at a location. -/
def put (t : FileTree) (l : Location) (e : FileEntry) : FileTree :=
  { t with entries := t.entries.insert l e }

/-- The directory in which the last segment of a path is looked up, and that segment. -/
def target (t : FileTree) (segments : List String) (p : Path) :
    Except FileFault (Location × String) :=
  match segments.reverse with
  | [] => .error .missing
  | last :: front => do
    let l ← t.walk (t.origin p) front.reverse
    match t.at? l with
    | some .directory => .ok (l, last)
    | some (.file _) => .error .noDirectory
    | none => .error .missing

/-- Whether a segment leads to a directory that exists already. -/
def isTurn (segment : String) : Bool := Path.isIdle segment || segment == ".."

/-- Makes a directory; the directory above it has to exist. -/
def makeDirectory (t : FileTree) (p : Path) : Except FileFault FileTree :=
  match (p.segments.reverse.dropWhile (· == "")).reverse with
  | [] => .error .occupied
  | segments => do
    let (l, last) ← t.target segments p
    if isTurn last || (t.at? (l ++ [last])).isSome then .error .occupied
    else .ok (t.put (l ++ [last]) .directory)

/-- Makes a directory and those above it; the first argument bounds their number. -/
def makeDirectoriesUpTo : Nat → FileTree → Path → Except FileFault FileTree
  | 0, _, _ => .error .missing
  | depth + 1, t, p =>
    if p.text == "" then .ok t
    else
      let settle (t : FileTree) : Except FileFault FileTree :=
        match t.makeDirectory p with
        | .ok t => .ok t
        | .error fault => if t.isDirectory p then .ok t else .error fault
      match t.makeDirectory p with
      | .error .missing =>
        match p.parent with
        | some parent =>
          match makeDirectoriesUpTo depth t parent with
          | .ok t => settle t
          | .error fault => .error fault
        | none => .error .missing
      | _ => settle t

/-- Makes a directory and those above it. -/
def makeDirectories (t : FileTree) (p : Path) : Except FileFault FileTree :=
  makeDirectoriesUpTo (p.segments.length + 1) t p

/-- Puts a file at a path; the directory has to exist. A path with a slash at its end is taken for a
directory. -/
def writeBytes (t : FileTree) (p : Path) (bytes : ByteArray) : Except FileFault FileTree :=
  match t.target p.segments p with
  | .error .missing => .error (if p.segments.getLast? == some "" then .directory else .missing)
  | .error fault => .error fault
  | .ok (l, last) =>
    if isTurn last then .error .directory
    else
      match t.at? (l ++ [last]) with
      | some .directory => .error .directory
      | _ => .ok (t.put (l ++ [last]) (.file bytes))

/-- Puts a text into the file at a path, and makes the directories above it. -/
def write (t : FileTree) (p : Path) (text : String) : Except FileFault FileTree := do
  let t ← match p.parent with
    | some parent => if parent.text == "" then .ok t else t.makeDirectories parent
    | none => .ok t
  t.writeBytes p text.toUTF8

/-- Removes what stands at a location and below it. -/
def remove (t : FileTree) (l : Location) : FileTree :=
  { t with entries := ⟨t.entries.entries.filter fun e => !l.isPrefixOf e.1⟩ }

/-- The files below a location: what leads to each of them from there, and its bytes. -/
def filesBelow (t : FileTree) (l : Location) : List (Location × ByteArray) :=
  t.entries.entries.filterMap fun
    | (k, .file bytes) => if l.isPrefixOf k then some (k.drop l.length, bytes) else none
    | (_, .directory) => none

/-- The entries that a tree has and an earlier one does not have, directories before what is in them. -/
def changesSince (before after : FileTree) : List (Location × FileEntry) :=
  after.entries.entries.filter fun (l, e) => !(before.entries.get? l).any e.same

end FileTree

end Relink
