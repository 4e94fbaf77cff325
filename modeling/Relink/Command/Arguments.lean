/-!
# Command line arguments

The command line is a command with options. Options with a value take it from the same word, behind an
equals sign or behind a single letter, or from the next word, which must not look like an option. Only
entries and bases may be given more than once.

A value from a word of its own is taken in when the next option comes or the line ends, so a word that
means nothing is found before it.

* `Invocation.parse` — the command that some words give.
-/

namespace Relink

/-- What can be wrong with a command line. -/
inductive UsageFault where
  | unknownArgument
  | invalidSubcommand
  | invalidValue
  | argumentConflict
  | tooManyValues
  /-- Help is asked for. -/
  | help
  /-- There is no command at all. -/
  | missingCommand
  deriving DecidableEq, Repr, Inhabited

/-- What is said about a fault. -/
def UsageFault.message : UsageFault → String
  | unknownArgument => "error: unexpected argument"
  | invalidSubcommand => "error: unrecognized command"
  | invalidValue => "error: a value is required"
  | argumentConflict => "error: an option is given twice"
  | tooManyValues => "error: an option takes no value"
  | help | missingCommand => "\n".intercalate [
      "Usage: relink link [OPTIONS]", "       relink info", "",
      "  -c, --config <FILE>    the configuration",
      "  -e, --entry <FILE>     an entry; the first belongs to the main bundle",
      "  -b, --base <DIR>       a directory for bare specifiers",
      "      --cache <FILE>     the cache",
      "  -o, --outdir <DIR>     the directory for bundles",
      "      --no-minify        leave out minified bundles",
      "      --plugin           make all ids from contents",
      "      --detect-cycles    report circular dependencies"]

/-- The options of the command that links. -/
structure LinkArguments where
  config : Option String
  entries : List String
  bases : List String
  cache : Option String
  outdir : Option String
  noMinify : Bool
  plugin : Bool
  detectCycles : Bool
  deriving DecidableEq, Repr, Inhabited

/-- The command without options. -/
def LinkArguments.none : LinkArguments := ⟨.none, [], [], .none, .none, false, false, false⟩

/-- The directory for bundles if no other is given. -/
def LinkArguments.directory (a : LinkArguments) : String := a.outdir.getD "dist"

/-- What a command line asks for. -/
inductive Invocation where
  | link (arguments : LinkArguments)
  | info
  deriving DecidableEq, Repr, Inhabited

namespace Invocation

/-! ## Options -/

/-- Options with a value. -/
inductive ValueOption where
  | config
  | entry
  | base
  | cache
  | outdir
  deriving DecidableEq, Repr, Inhabited

/-- Options without a value. -/
inductive Switch where
  | noMinify
  | plugin
  | detectCycles
  | help
  deriving DecidableEq, Repr, Inhabited

/-- An option. -/
inductive Flag where
  | value (option : ValueOption)
  | switch (switch : Switch)
  deriving DecidableEq, Repr, Inhabited

def longFlags : List (String × Flag) := [
  ("config", .value .config), ("entry", .value .entry), ("base", .value .base),
  ("cache", .value .cache), ("outdir", .value .outdir), ("no-minify", .switch .noMinify),
  ("plugin", .switch .plugin), ("detect-cycles", .switch .detectCycles), ("help", .switch .help)]

def shortFlags : List (Char × Flag) := [
  ('c', .value .config), ('e', .value .entry), ('b', .value .base), ('o', .value .outdir),
  ('h', .switch .help)]

/-! ## Words -/

/-- What a word looks like. -/
inductive Word where
  /-- Everything behind it is no option. -/
  | stop
  | long (name : String) (value : Option String)
  | short (letter : Char) (rest : List Char)
  | plain (text : String)
  deriving DecidableEq, Repr, Inhabited

/-- What a word looks like. A single dash is a plain word. -/
def classify (word : String) : Word :=
  match word.toList with
  | ['-', '-'] => .stop
  | '-' :: '-' :: cs =>
    let name := cs.takeWhile (· ≠ '=')
    match cs.drop name.length with
    | [] => .long (String.ofList name) none
    | _ :: value => .long (String.ofList name) (some (String.ofList value))
  | '-' :: c :: cs => .short c cs
  | _ => .plain word

/-! ## The command that links -/

/-- The options read so far, and an option whose value has not been taken in: the value is missing, or
it is a word of its own. -/
structure Progress where
  arguments : LinkArguments
  pending : Option (ValueOption × Option String)

/-- Takes in a value that may only be given once. -/
def setOnce (old : Option String) (value : String) : Except UsageFault (Option String) :=
  if old.isSome then .error .argumentConflict
  else if value == "" then .error .invalidValue
  else .ok (some value)

/-- Takes in one of several values. -/
def addValue (old : List String) (value : String) : Except UsageFault (List String) :=
  if value == "" then .error .invalidValue else .ok (old ++ [value])

/-- Takes in the value of an option. -/
def give (a : LinkArguments) (option : ValueOption) (value : String) :
    Except UsageFault LinkArguments :=
  match option with
  | .config => (setOnce a.config value).map fun v => { a with config := v }
  | .entry => (addValue a.entries value).map fun v => { a with entries := v }
  | .base => (addValue a.bases value).map fun v => { a with bases := v }
  | .cache => (setOnce a.cache value).map fun v => { a with cache := v }
  | .outdir => (setOnce a.outdir value).map fun v => { a with outdir := v }

/-- Takes in the pending value. -/
def settle (p : Progress) : Except UsageFault LinkArguments :=
  match p.pending with
  | none => .ok p.arguments
  | some (_, none) => .error .invalidValue
  | some (option, some value) => give p.arguments option value

/-- Takes in an option without a value. -/
def turnOn (a : LinkArguments) : Switch → Except UsageFault LinkArguments
  | .noMinify => if a.noMinify then .error .argumentConflict else .ok { a with noMinify := true }
  | .plugin => if a.plugin then .error .argumentConflict else .ok { a with plugin := true }
  | .detectCycles =>
    if a.detectCycles then .error .argumentConflict else .ok { a with detectCycles := true }
  | .help => .error .help

/-- Takes in an option, with the value in the same word if there is one. -/
def takeFlag (p : Progress) (flag : Option Flag) (value : Option String) :
    Except UsageFault Progress :=
  match flag, value with
  | none, _ => .error .unknownArgument
  | some (.value option), some v => do
    let a ← settle p
    return ⟨← give a option v, none⟩
  | some (.value option), none => do
    let a ← settle p
    return ⟨a, some (option, none)⟩
  | some (.switch _), some _ => .error .tooManyValues
  | some (.switch s), none => do
    let a ← settle p
    return ⟨← turnOn a s, none⟩

/-- The value behind a letter, with or without an equals sign. -/
def attached : List Char → Option String
  | [] => none
  | '=' :: cs => some (String.ofList cs)
  | cs => some (String.ofList cs)

/-- Takes in a word that is no option. -/
def takePlain (p : Progress) (text : String) : Except UsageFault Progress :=
  match p.pending with
  | some (option, none) => .ok { p with pending := some (option, some text) }
  | _ => .error .unknownArgument

/-- The options that words give. -/
def readLink (p : Progress) : List String → Except UsageFault LinkArguments
  | [] => settle p
  | word :: words =>
    match classify word with
    | .stop => if words.isEmpty then settle p else .error .unknownArgument
    | .long name value => do readLink (← takeFlag p (longFlags.lookup name) value) words
    | .short c rest =>
      match shortFlags.lookup c with
      | some (.switch s) => do readLink (← takeFlag p (some (.switch s)) none) words
      | flag => do readLink (← takeFlag p flag (attached rest)) words
    | .plain text => do readLink (← takePlain p text) words

/-! ## Commands -/

/-- A word that looks like an option where none but the one for help is known. -/
def helpOnly : Word → UsageFault
  | .long "help" (some _) => .tooManyValues
  | .long "help" none => .help
  | .short 'h' _ => .help
  | _ => .unknownArgument

/-- The names of the commands. -/
def commands : List String := ["link", "info", "help"]

/-- What the words behind the command for help lead to. -/
def readHelp : List String → UsageFault
  | [] => .help
  | [word] => if commands.contains word then .help else .invalidSubcommand
  | _ => .invalidSubcommand

/-- The command that some words give. -/
def parse : List String → Except UsageFault Invocation
  | [] => .error .missingCommand
  | "link" :: words => (readLink ⟨.none, none⟩ words).map .link
  | "info" :: words =>
    match words with
    | [] => .ok .info
    | ["--"] => .ok .info
    | word :: _ => .error (helpOnly (classify word))
  | "help" :: words => .error (readHelp words)
  | word :: words =>
    match classify word with
    | .plain _ => .error .invalidSubcommand
    | .stop =>
      match words with
      | [] => .error .missingCommand
      | next :: _ => .error (if commands.contains next then .unknownArgument else .invalidSubcommand)
    | w => .error (helpOnly w)

end Invocation

end Relink
