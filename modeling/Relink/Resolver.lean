import Relink.FileTree
import Relink.Session
import Relink.Specifier

/-!
# Resolution

Finds the file that a specifier stands for. A relative specifier is a path as seen from the importer; it
may leave out the extension or lead to a package, but it must not be ambiguous. A bare specifier is
looked up in the bases, and for an importer below a base in the `node_modules` directories above it.

* `Resolver.resolve` — the file that a specifier stands for.
* `Resolver.locate` — where a file is relative to the bases, and the name under which it is known.
-/

namespace Relink

/-- Where files are looked up. -/
structure Resolver where
  tree : FileTree
  /-- The directories in which bare specifiers are looked up, in order. -/
  bases : List Path
  target : Option Target
  /-- The names under which files outside the first base can be known. -/
  exports : List String

/-- Where a file is relative to the bases. -/
structure BaseLocation where
  base : Path
  basePath : String
  /-- The name under which the file is known in a bundle. -/
  canonical : Option String
  /-- Whether the file is written as a module rather than as a script. -/
  modular : Bool
  deriving DecidableEq, Repr, Inhabited

/-- The paths above a path, the nearest first; the first argument bounds their number. -/
def Path.ancestorsUpTo : Nat → Path → List Path
  | 0, _ => []
  | n + 1, p =>
    match p.parent with
    | some q => q :: ancestorsUpTo n q
    | none => []

/-- The paths above a path, the nearest first. -/
def Path.ancestors (p : Path) : List Path := Path.ancestorsUpTo (p.segments.length + 1) p

namespace Resolver

/-- The first value among those of some computations, which run until there is one. -/
def firstSome {α : Type} : List (Linking (Option α)) → Linking (Option α)
  | [] => pure none
  | x :: xs => do
    match ← x with
    | some a => pure (some a)
    | none => firstSome xs

/-- The first of some paths at which there is a file. -/
def firstFile (r : Resolver) (ps : List Path) : Option Path := ps.find? r.tree.isFile

/-! ## Packages -/

/-- The manifest of a package as it stands in its directory; a directory without one has the empty
manifest. -/
def readManifest (r : Resolver) (directory : Path) : Linking Manifest :=
  let p := directory.child Manifest.fileName
  if r.tree.isFile p then
    match r.tree.read p with
    | .error fault => Linking.fail (.io fault)
    | .ok text =>
      match Manifest.ofText? text with
      | some m => pure m
      | none => do
        Linking.say (.warn ("Malformed " ++ p.text ++ ": " ++ detail))
        Linking.fail (.configuration (.badManifest p))
  else pure .empty

/-- The manifest of a package, which is read once. -/
def manifestOf (r : Resolver) (directory : Path) : Linking Manifest := do
  match ← Linking.remembered directory with
  | some m => pure m
  | none =>
    let m ← r.readManifest directory
    Linking.remember directory m
    pure m

/-- The path with the extensions that can be left out. -/
def withExtensions (p : Path) : List Path := [p, p.withSuffix ".js", p.withSuffix ".json"]

/-- The entry of a package as its manifest gives it. Entries written as modules are taken when there is
a language level for them. -/
def entryName (r : Resolver) (m : Manifest) : String :=
  match r.target, m.module, m.main with
  | some _, some module, _ => module
  | _, _, some main => main
  | _, _, none => "index.js"

/-- The file of the entry of a package. -/
def entryFile (r : Resolver) (directory : Path) : Linking (Option Path) := do
  let m ← r.manifestOf directory
  let p := (directory.join ⟨r.entryName m⟩).normalize
  match r.firstFile (withExtensions p) with
  | some f => pure (some f)
  | none => pure (if r.tree.isDirectory p then r.firstFile [p.child "index.js"] else none)

/-- The file that a package offers under a name. -/
def exportedFile (r : Resolver) (directory : Path) (name : String) : Linking (Option Path) := do
  let m ← r.manifestOf directory
  let wanted := (directory.child name).normalize
  let targets := m.exportEntries.filter fun (key, _) => (directory.child key).normalize.same wanted
  pure <| r.firstFile <| targets.flatMap fun (_, target) =>
    let p := (directory.child target).normalize
    [p, p.withSuffix ".js"]

/-- The file at a path, with an extension if it is left out, or the entry of the package there. -/
def fileOrPackage (r : Resolver) (p : Path) : Linking (Option Path) :=
  match r.firstFile (withExtensions p) with
  | some f => pure (some f)
  | none => if r.tree.isDirectory p then r.entryFile p else pure none

/-! ## Specifiers -/

/-- The one of two files that there is. A specifier must not stand for both. -/
def oneOf (specifier : String) (importer : Path) : (extended package : Option Path) → Linking Path
  | some f, some e => Linking.fail (.resolution specifier importer (.ambiguous f e))
  | some f, none => pure f
  | none, some e => pure e
  | none, none => Linking.fail (.resolution specifier importer .noFile)

/-- The file that a relative specifier stands for. -/
def resolveRelative (r : Resolver) (specifier : String) (importer : Path) : Linking Path := do
  let p := ((importer.parent.getD ⟨"/"⟩).child specifier).normalize
  if r.tree.isFile p then return p
  let extended := r.firstFile [p.withSuffix ".js", p.withSuffix ".json"]
  let package ← if r.tree.isDirectory p then r.entryFile p else pure none
  oneOf specifier importer extended package

/-- The `node_modules` directories between an importer and a base above it, the nearest first. -/
def moduleDirectories (importer base : Path) : List Path :=
  if importer.startsWith base then
    (importer.ancestors.takeWhile fun d => !d.same base).map fun d => d.child "node_modules"
  else []

/-- Where a bare specifier is looked up for a base. -/
def placesBelow (r : Resolver) (specifier : String) (importer base : Path) :
    List (Linking (Option Path)) :=
  let offered := match splitSpecifier specifier with
    | (name, some inner) =>
      let directory := base.child name
      if r.tree.isDirectory directory then [r.exportedFile directory inner] else []
    | (_, none) => []
  r.fileOrPackage (base.child specifier).normalize :: offered
    ++ (moduleDirectories importer base).map fun d => r.fileOrPackage (d.child specifier)

/-- The file that a bare specifier stands for. -/
def resolveBare (r : Resolver) (specifier : String) (importer : Path) : Linking Path := do
  match ← firstSome (r.bases.flatMap (r.placesBelow specifier importer)) with
  | some f => pure f
  | none => Linking.fail (.resolution specifier importer .nowhere)

/-- The file that a specifier stands for. -/
def resolve (r : Resolver) (specifier : String) (importer : Path) : Linking Path :=
  if isRelative specifier then r.resolveRelative specifier importer
  else r.resolveBare specifier importer

/-! ## Locations -/

/-- The nearest directory between a file and a base that has a manifest. -/
def packageOf (r : Resolver) (base file : Path) : Option Path :=
  (file.ancestors.takeWhile fun d => !d.same base && d.startsWith base).find? fun d =>
    r.tree.isFile (d.child Manifest.fileName)

/-- Whether a file is the entry of a package, in one of the ways to write it. -/
def isEntry (directory : Path) (m : Manifest) (file : Path) : Bool :=
  (m.module.toList ++ m.main.toList ++ ["index.js"]).any fun entry =>
    let p := (directory.child entry).normalize
    p.same file || (p.withSuffix ".js").same file

/-- The name of a file outside the first base, and whether it is written as a module. -/
def nameOf (r : Resolver) (base file : Path) (basePath : String) : Linking (String × Bool) := do
  match r.packageOf base file with
  | none => pure (Path.canonicalName basePath, false)
  | some directory =>
    let m ← r.manifestOf directory
    let name :=
      if isEntry directory m file then
        (m.name.or directory.fileName).getD (Path.canonicalName basePath)
      else Path.canonicalName basePath
    pure (name, m.isModular)

/-- Where a file is relative to the bases. Files below the first base are known by their paths, other
scripts only by names that are exported. -/
def locate (r : Resolver) (file : Path) (isScript : Bool) : Linking BaseLocation :=
  let outside : Linking BaseLocation := Linking.fail (.configuration (.outsideBases file))
  match r.bases with
  | [] => outside
  | primary :: secondary =>
    match file.stripAncestor? primary with
    | some rest =>
      let basePath := Path.slashed rest.text
      pure ⟨primary, basePath, some (Path.canonicalName basePath), true⟩
    | none =>
      match secondary.findSome? fun base => (file.stripAncestor? base).map fun rest => (base, rest) with
      | none => outside
      | some (base, rest) => do
        let basePath := Path.slashed rest.text
        if isScript then
          let (name, modular) ← r.nameOf base file basePath
          pure ⟨base, basePath, if r.exports.contains name then some name else none, modular⟩
        else pure ⟨base, basePath, none, false⟩

end Resolver

end Relink
