import Relink.SourceMap.Vlq

/-!
# Mappings

A token ties a position in generated code to a position in a source. Tokens are written line by line,
with semicolons between the lines and commas within them, and every number as the difference from its
last value.

* `writeMappings` — the text of tokens in the order of their positions.
* `readMappings` — the tokens that a text writes.
-/

namespace Relink.SourceMap

/-- A position in generated code, and where it comes from. Sources and names are known by their
numbers; a token without a source keeps the last position in a source. -/
structure Token where
  line : Nat
  column : Nat
  source : Option Nat
  sourceLine : Nat
  sourceColumn : Nat
  name : Option Nat
  deriving DecidableEq, Repr, Inhabited

/-- The last values of the numbers in the mappings. -/
structure Running where
  line : Nat
  column : Nat
  source : Nat
  sourceLine : Nat
  sourceColumn : Nat
  name : Nat
  deriving DecidableEq, Repr, Inhabited

/-- The values before the first token. -/
def Running.start : Running := ⟨0, 0, 0, 0, 0, 0⟩

/-! ## Writing -/

/-- The characters of a number behind another one. -/
def encodeStep (current last : Nat) : List Char :=
  encodeNumber ((current : Int) - last)

/-- The name of a token. -/
def writeName (r : Running) : Option Nat → List Char × Running
  | some n => (encodeStep n r.name, { r with name := n })
  | none => ([], r)

/-- The fields of a token behind its column. -/
def writeSource (r : Running) (t : Token) : List Char × Running :=
  match t.source with
  | some s =>
    let front := encodeStep s r.source ++ encodeStep t.sourceLine r.sourceLine
      ++ encodeStep t.sourceColumn r.sourceColumn
    let (back, r) := writeName
      { r with source := s, sourceLine := t.sourceLine, sourceColumn := t.sourceColumn } t.name
    (front ++ back, r)
  | none => ([], r)

/-- The fields of a token. -/
def writeToken (r : Running) (t : Token) : List Char × Running :=
  let front := encodeStep t.column r.column
  let (back, r) := writeSource { r with line := t.line, column := t.column } t
  (front ++ back, r)

/-- The text of tokens behind the token `previous`. A token that equals the one before it is left
out. -/
def writeTokens (r : Running) (previous : Option Token) : List Token → List Char
  | [] => []
  | t :: ts =>
    if previous == some t then writeTokens r (some t) ts
    else if t.line == r.line then
      let comma := if previous.isSome then [','] else []
      let (text, r) := writeToken r t
      comma ++ text ++ writeTokens r (some t) ts
    else
      let ends := List.replicate (t.line - r.line) ';'
      let (text, r) := writeToken { r with column := 0 } t
      ends ++ text ++ writeTokens r (some t) ts

/-- The text of tokens in the order of their positions. -/
def writeMappings (tokens : List Token) : String :=
  String.ofList (writeTokens .start none tokens)

/-! ## Reading -/

/-- Cuts a text at a character. -/
def cutAt (c : Char) : List Char → List Char → List (List Char)
  | acc, [] => [acc.reverse]
  | acc, x :: xs => if x = c then acc.reverse :: cutAt c [] xs else cutAt c (x :: acc) xs

/-- A number behind another one; numbers have 32 bits. -/
def wordStep (last : Nat) (step : Int) : Nat :=
  ((last : Int) + step).emod UInt32.size |>.toNat

/-- How many sources and names a map has. -/
structure Sizes where
  sources : Nat
  names : Nat

/-- The token that the numbers of a segment give behind the values `r`. -/
def readSegment (sizes : Sizes) (r : Running) : List Int → Option (Token × Running)
  | [c] =>
    let r := { r with column := wordStep r.column c }
    some (⟨r.line, r.column, none, r.sourceLine, r.sourceColumn, none⟩, r)
  | c :: s :: l :: k :: rest => do
    let column := wordStep r.column c
    let source := wordStep r.source s
    let r := { r with
      column := column, source := source
      sourceLine := wordStep r.sourceLine l, sourceColumn := wordStep r.sourceColumn k }
    if source ≥ sizes.sources then none
    match rest with
    | [] => some (⟨r.line, column, some source, r.sourceLine, r.sourceColumn, none⟩, r)
    | [n] =>
      let name := wordStep r.name n
      if name ≥ sizes.names then none
      else
        some (⟨r.line, column, some source, r.sourceLine, r.sourceColumn, some name⟩,
          { r with name := name })
    | _ => none
  | _ => none

/-- The tokens of the segments of a line; empty segments are skipped. -/
def readSegments (sizes : Sizes) (r : Running) : List (List Char) → Option (List Token × Running)
  | [] => some ([], r)
  | [] :: segments => readSegments sizes r segments
  | segment :: segments => do
    let numbers ← decodeNumbers segment
    let (t, r) ← readSegment sizes r numbers
    let (ts, r) ← readSegments sizes r segments
    some (t :: ts, r)

/-- The tokens of lines. -/
def readLines (sizes : Sizes) (r : Running) : List (List Char) → Option (List Token)
  | [] => some []
  | line :: lines => do
    let (ts, next) ← readSegments sizes { r with column := 0 } (cutAt ',' [] line)
    let others ← readLines sizes { next with line := r.line + 1 } lines
    some (ts ++ others)

/-- The tokens that a text writes. -/
def readMappings (sizes : Sizes) (text : String) : Option (List Token) :=
  readLines sizes .start (cutAt ';' [] text.toList)

end Relink.SourceMap
