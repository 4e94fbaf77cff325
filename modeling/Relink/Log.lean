/-!
# Log lines

What a linker says about its work, as data, and which lines a filter lets through.

* `Filter.ofText` — the filter that a text writes: directives between commas, each a level, a source, or
  a source and a level.
* `Filter.admits` — whether a filter lets a line through.
-/

namespace Relink

/-- The importance of a line, the most important ones first. -/
inductive Level where
  | error
  | warn
  | info
  | debug
  | trace
  deriving DecidableEq, Repr, Inhabited

namespace Level

def name : Level → String
  | error => "ERROR"
  | warn => "WARN"
  | info => "INFO"
  | debug => "DEBUG"
  | trace => "TRACE"

/-- The place of a level in the order of importance. -/
def rank : Level → Nat
  | error => 1
  | warn => 2
  | info => 3
  | debug => 4
  | trace => 5

end Level

/-- A line of the log. -/
structure LogLine where
  level : Level
  text : String
  deriving DecidableEq, Repr, Inhabited

namespace LogLine

def info (text : String) : LogLine := ⟨.info, text⟩

def debug (text : String) : LogLine := ⟨.debug, text⟩

def warn (text : String) : LogLine := ⟨.warn, "⚠️  " ++ text⟩

/-- The line as it is written. -/
def render (l : LogLine) : String := l.level.name ++ " " ++ l.text

/-- Stands for a length of time, which is not part of what a linker says. -/
def duration : String := "<time>"

end LogLine

/-! ## Filters -/

/-- How unimportant a line may be: the rank of the last level that is let through. -/
structure Directive where
  /-- The source to which the directive applies; without one it applies to all. -/
  source : Option String
  limit : Nat
  deriving DecidableEq, Repr, Inhabited

/-- Which lines are let through. -/
structure Filter where
  directives : List Directive
  deriving DecidableEq, Repr, Inhabited

namespace Filter

/-- The source of all lines. -/
def source : String := "soku_linker"

/-- The filter that is used when no other is given. -/
def standard : Filter := ⟨[⟨some source, Level.info.rank⟩]⟩

/-- The limit that a word stands for, in any case. -/
def limit? (word : String) : Option Nat :=
  [("off", 0), ("error", 1), ("warn", 2), ("info", 3), ("debug", 4), ("trace", 5), ("0", 0), ("1", 1),
    ("2", 2), ("3", 3), ("4", 4), ("5", 5)].lookup
    (String.ofList (word.toList.map fun c => if 'A' ≤ c && c ≤ 'Z' then Char.ofNat (c.toNat + 32) else c))

/-- Whether a character may stand in the name of a source. -/
def isSourceChar (c : Char) : Bool :=
  ('a' ≤ c && c ≤ 'z') || ('A' ≤ c && c ≤ 'Z') || ('0' ≤ c && c ≤ '9') || c == '_' || c == ':' || c == '-'

/-- The directive that a text writes. -/
def directive? (text : String) : Option Directive :=
  match limit? text with
  | some n => some ⟨none, n⟩
  | none =>
    let cs := text.toList
    let name := cs.takeWhile isSourceChar
    if name.isEmpty then none
    else
      match cs.drop name.length with
      | [] => some ⟨some (String.ofList name), Level.trace.rank⟩
      | ['='] => some ⟨some (String.ofList name), Level.trace.rank⟩
      | '=' :: word => (limit? (String.ofList word)).map fun n => ⟨some (String.ofList name), n⟩
      | _ => none

/-- The filter that a text writes; one that cannot be read gives the standard filter, and an empty one
lets errors through. -/
def ofText (text : String) : Filter :=
  let parts := (text.toList.splitOn ',').filter fun p => !p.isEmpty
  match parts.mapM fun p => directive? (String.ofList p) with
  | some [] => ⟨[⟨none, Level.error.rank⟩]⟩
  | some ds => ⟨ds⟩
  | none => standard

/-- How specific a directive is. -/
def specificity (d : Directive) : Nat := d.source.elim 0 fun s => s.length + 1

/-- The more specific of two directives, of two equally specific ones the second. -/
def narrower (a b : Directive) : Directive :=
  if specificity a ≤ specificity b then b else a

/-- Whether a filter lets lines of a level through: the most specific directive for the source
decides. -/
def admits (f : Filter) (level : Level) : Bool :=
  let applicable := f.directives.filter fun d =>
    d.source.elim true fun s => s.toList.isPrefixOf source.toList
  match applicable with
  | [] => false
  | d :: ds => level.rank ≤ (ds.foldl narrower d).limit

end Filter

end Relink
