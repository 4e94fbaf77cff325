import Relink.Module.Id
import Relink.Path.Basic
import Relink.Script.CommonJs
import Relink.Settings

/-!
# Failures

What can go wrong while linking, as causes, and their wording.

* `Failure.message` — one line on a failure.
* `Failure.detailed` — the message as it is shown to a user; a failure at a place in a script comes
  with the line.

What a reader of JSON, of a map, of a pattern or of a script has to say about a malformed text is not
part of a message; a fixed word stands for it.
-/

namespace Relink

/-- What the file system can refuse. -/
inductive FileFault where
  | missing
  | occupied
  | noDirectory
  | directory
  /-- The bytes of the file encode no text. -/
  | noText
  deriving DecidableEq, Repr, Inhabited

def FileFault.message : FileFault → String
  | missing => "No such file or directory (os error 2)"
  | occupied => "File exists (os error 17)"
  | noDirectory => "Not a directory (os error 20)"
  | directory => "Is a directory (os error 21)"
  | noText => "stream did not contain valid UTF-8"

/-- Stands for what a reader says about a malformed text. -/
def detail : String := "<detail>"

/-- Stands for what the reader of scripts says about a malformed script. -/
def syntaxError : String := "<syntax error>"

/-- Why a specifier stands for no file. -/
inductive ResolutionFault where
  | ambiguous (file package : Path)
  | noFile
  | nowhere
  | stated (text : String)
  deriving DecidableEq, Repr, Inhabited

def ResolutionFault.message : ResolutionFault → String
  | ambiguous file package => "ambiguous, both " ++ file.text ++ " and " ++ package.text ++ " exist"
  | noFile => "no such file or directory"
  | nowhere => "not found in any base path or node_modules"
  | stated text => text

/-- What is wrong with what the linker was told, or with what it found. -/
inductive ConfigurationFault where
  | noEntry
  | noBase
  | missingEntry (path : Path)
  | missingBase (path : Path)
  | excludedEntry (path : Path)
  | unlinkedEntry
  /-- The search for modules has met its bound, which only keeps the recursion finite. -/
  | noRoom
  | outsideBases (path : Path)
  | unknownTarget (name : String)
  | badPattern
  | badConfiguration (path : Path)
  | badManifest (path : Path)
  | badMap
  | unorderedId (basePath : String) (id : ModuleId)
  | missingId (basePath : String)
  | stated (text : String)
  deriving DecidableEq, Repr, Inhabited

def ConfigurationFault.message : ConfigurationFault → String
  | noEntry => "at least one entry is required"
  | noBase => "at least one base directory is required"
  | missingEntry path => "entry " ++ path.text ++ " does not exist"
  | missingBase path => "base directory " ++ path.text ++ " does not exist"
  | excludedEntry path => "entry " ++ path.text ++ " is excluded"
  | unlinkedEntry => "bundle entry was not linked"
  | noRoom => "too many modules"
  | outsideBases path => path.text ++ " is not under any of base paths"
  | unknownTarget name => "unknown target '" ++ name ++ "'"
  | badPattern => "invalid external pattern: " ++ detail
  | badConfiguration path => "Failed to parse " ++ path.text ++ ": " ++ detail
  | badManifest path => "malformed " ++ path.text ++ ": " ++ detail
  | badMap => "invalid source map: " ++ detail
  | unorderedId basePath id =>
    "module " ++ basePath ++ " has id " ++ id.text ++ " out of order in a dense bundle"
  | missingId basePath => "module " ++ basePath ++ " has no id"
  | stated text => text

/-- Why a cache cannot be used. -/
inductive CacheFault where
  | unreadable
  | malformed
  | version (found : Option Nat) (expected : Nat)
  | settings (written current : CodeSettings)
  | missingCode (path : Path)
  | stated (text : String)
  deriving DecidableEq, Repr, Inhabited

/-- A number that may be missing, as it stands in a message. -/
def optionText : Option Nat → String
  | some n => "Some(" ++ toString n ++ ")"
  | none => "None"

def CacheFault.message : CacheFault → String
  | unreadable => "unreadable cache: " ++ detail
  | malformed => "malformed cache: " ++ detail
  | version found expected =>
    "version " ++ optionText found ++ " does not match " ++ toString expected
  | settings written current => "written with " ++ written.text ++ ", linking with " ++ current.text
  | missingCode path => "no cached code for " ++ path.text
  | stated text => text

/-- Why no code can be made of a module. -/
inductive TransformFault where
  | noScript
  | unparsed
  | badJson
  | refused (cause : Script.CommonJs.Refusal)
  | stated (text : String)
  deriving DecidableEq, Repr, Inhabited

def TransformFault.message : TransformFault → String
  | noScript => syntaxError
  | unparsed => "module was not parsed"
  | badJson => "invalid JSON module: " ++ detail
  | refused cause => cause.message
  | stated text => text

/-- What is known of the place of a failure. -/
structure Excerpt where
  file : Option Path
  place : Option (Nat × Nat)
  snippet : Option String
  deriving DecidableEq, Repr, Inhabited

/-- Blanks. -/
def blanks (n : Nat) : String := String.ofList (List.replicate n ' ')

/-- A number, at least three characters wide. -/
def padded (n : Nat) : String :=
  let digits := toString n
  blanks (3 - digits.length) ++ digits

/-- The lines about a place. -/
def Excerpt.text (e : Excerpt) : String :=
  (e.file.elim "" fun file => "\n📁 File: " ++ file.text)
    ++ (e.place.elim "" fun (line, column) =>
      "\n📍 Location: line " ++ toString line ++ ", column " ++ toString column)
    ++ (e.snippet.elim "" fun snippet =>
      "\n📝 Code:\n→ " ++ padded ((e.place.map Prod.fst).getD 0) ++ " │ " ++ snippet
        ++ (e.place.elim "" fun (_, column) => "\n      │ " ++ blanks (column - 1) ++ "^"))

/-- What can go wrong while linking. -/
inductive Failure where
  | io (fault : FileFault)
  | json
  | resolution (specifier : String) (importer : Path) (fault : ResolutionFault)
  | configuration (fault : ConfigurationFault)
  | cacheFormat (fault : CacheFault)
  | transform (file : Path) (fault : TransformFault)
  | minify (file : Path) (line column : Nat) (text : String) (excerpt : Option Excerpt)
  /-- The code that was made of a module is no script. -/
  | minifySyntax (file : Path)
  | unsupportedModule (path : Path)
  deriving DecidableEq, Repr, Inhabited

namespace Failure

/-- One line on a failure. -/
def message : Failure → String
  | io fault => "IO error: " ++ fault.message
  | json => "JSON error: " ++ detail
  | resolution specifier importer fault =>
    "can't resolve '" ++ specifier ++ "' from '" ++ importer.text ++ "': " ++ fault.message
  | configuration fault => "Configuration error: " ++ fault.message
  | cacheFormat fault => "Cache format error: " ++ fault.message
  | transform file fault => "Transform error in " ++ file.text ++ ": " ++ fault.message
  | minify file line column text _ =>
    "Minify error in " ++ file.text ++ ":" ++ toString line ++ ":" ++ toString column ++ ": " ++ text
  | minifySyntax file => "Minify error in " ++ file.text ++ ": " ++ syntaxError
  | unsupportedModule path => "unsupported extension of " ++ path.text

/-- The failure at a byte offset of a script. -/
def minifyAt (file : Path) (source : String) (offset : Nat) (text : String) : Failure :=
  let (line, column) := locate source offset
  minify file line column text
    (some ⟨some file, some (line, column), some (String.ofList (lineAt (line - 1) source.toList))⟩)

/-- The message as it is shown to a user. -/
def detailed : Failure → String
  | minify _ _ _ text (some excerpt) => "❌ Minify Error: " ++ text ++ excerpt.text
  | failure => "❌ " ++ failure.message

end Failure

end Relink
