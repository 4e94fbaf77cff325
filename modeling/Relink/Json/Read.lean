import Relink.Json.Value
import Relink.Text.Halves

/-!
# Reading JSON

Reads a value as the standard writes it: four blanks, no comments, no trailing commas, no raw control
characters in strings. Values are read however deep they are nested; `Json.usable` says which of
them can be taken in.
-/

namespace Relink.Json

open Unicode

/-- The characters that may stand between tokens. -/
def isBlank (c : Char) : Bool :=
  c == ' ' || c == '\n' || c == '\t' || c == '\r'

def skipBlanks (cs : List Char) : List Char := cs.dropWhile isBlank

/-! ## Strings -/

/-- Reads a string behind its opening quote: its parts, and what follows the closing quote. -/
def readPieces (acc : List Piece) : List Char → Option (List Piece × List Char)
  | [] => none
  | '\x22' :: rest => some (acc.reverse, rest)
  | '\\' :: 'u' :: a :: b :: c :: d :: rest =>
    match hex4? a b c d with
    | some n => readPieces (Piece.ofUnit n :: acc) rest
    | none => none
  | '\\' :: c :: rest =>
    if c == '\x22' || c == '\\' || c == '/' then readPieces (.char c :: acc) rest
    else if c == 'n' then readPieces (.char '\n' :: acc) rest
    else if c == 't' then readPieces (.char '\t' :: acc) rest
    else if c == 'r' then readPieces (.char '\r' :: acc) rest
    else if c == 'b' then readPieces (.char '\x08' :: acc) rest
    else if c == 'f' then readPieces (.char '\x0c' :: acc) rest
    else none
  | c :: rest => if c < ' ' || c == '\\' then none else readPieces (.char c :: acc) rest

/-- Reads a string behind its opening quote: its text, unless half a character is left in it, and
what follows. -/
def readString (cs : List Char) : Option (Option String × List Char) :=
  (readPieces [] cs).map fun (pieces, rest) =>
    (((joinHalves pieces).mapM Piece.char?).map String.ofList, rest)

/-! ## Numbers -/

/-- The number that decimal digits write. -/
def decimalValue (cs : List Char) : Nat :=
  cs.foldl (fun n c => n * 10 + (c.toNat - 48)) 0

/-- Reads a number. -/
def readNumber (cs : List Char) : Option (Number × List Char) := do
  let (negative, cs) := match cs with
    | '-' :: r => (true, r)
    | r => (false, r)
  let whole := cs.takeWhile isDigit
  let cs := cs.dropWhile isDigit
  if whole.isEmpty || (whole.length > 1 && whole.head? == some '0') then none
  let (fraction, cs, noPoint) ← match cs with
    | '.' :: r =>
      let digits := r.takeWhile isDigit
      if digits.isEmpty then none else some (digits, r.dropWhile isDigit, false)
    | r => some ([], r, true)
  let (exponent, cs, noExponent) ← match cs with
    | e :: r =>
      if e == 'e' || e == 'E' then
        let (minus, r) := match r with
          | '-' :: r => (true, r)
          | '+' :: r => (false, r)
          | r => (false, r)
        let digits := r.takeWhile isDigit
        if digits.isEmpty then none
        else
          let n : Int := decimalValue digits
          some (if minus then -n else n, r.dropWhile isDigit, false)
      else some (0, e :: r, true)
    | [] => some (0, [], true)
  some (⟨negative, decimalValue (whole ++ fraction), exponent - fraction.length,
    noPoint && noExponent⟩, cs)

/-! ## Values -/

/-- Reads a fixed word. -/
def readWord (word : List Char) (value : Json) (cs : List Char) : Option (Json × List Char) :=
  if word.isPrefixOf cs then some (value, cs.drop word.length) else none

mutual

/-- Reads a value; the first argument bounds the number of steps. -/
def readValue : Nat → List Char → Option (Json × List Char)
  | 0, _ => none
  | limit + 1, cs =>
    match skipBlanks cs with
    | '\x22' :: rest => do
      let (text, rest) ← readString rest
      some (text.elim .broken .string, rest)
    | '[' :: rest =>
      match skipBlanks rest with
      | ']' :: rest => some (.array [], rest)
      | rest => do
        let (xs, rest) ← readItems limit rest
        some (.array xs, rest)
    | '\x7b' :: rest =>
      match skipBlanks rest with
      | '\x7d' :: rest => some (.object [], rest)
      | rest => do
        let (fs, whole, rest) ← readFields limit rest
        some (if whole then .object fs else .broken, rest)
    | 't' :: rest => readWord ['t', 'r', 'u', 'e'] (.bool true) ('t' :: rest)
    | 'f' :: rest => readWord ['f', 'a', 'l', 's', 'e'] (.bool false) ('f' :: rest)
    | 'n' :: rest => readWord ['n', 'u', 'l', 'l'] .null ('n' :: rest)
    | rest => do
      let (n, rest) ← readNumber rest
      some (.number n, rest)

/-- Reads the items of an array up to its closing bracket. -/
def readItems : Nat → List Char → Option (List Json × List Char)
  | 0, _ => none
  | limit + 1, cs => do
    let (x, rest) ← readValue limit cs
    match skipBlanks rest with
    | ',' :: rest =>
      let (xs, rest) ← readItems limit rest
      some (x :: xs, rest)
    | ']' :: rest => some ([x], rest)
    | _ => none

/-- Reads the fields of an object up to its closing brace, and says whether all keys are whole. -/
def readFields : Nat → List Char → Option (List (String × Json) × Bool × List Char)
  | 0, _ => none
  | limit + 1, cs => do
    match skipBlanks cs with
    | '\x22' :: rest =>
      let (key, rest) ← readString rest
      match skipBlanks rest with
      | ':' :: rest =>
        let (v, rest) ← readValue limit rest
        let field := (key.getD "", v)
        match skipBlanks rest with
        | ',' :: rest =>
          let (fs, whole, rest) ← readFields limit rest
          some (field :: fs, whole && key.isSome, rest)
        | '\x7d' :: rest => some ([field], key.isSome, rest)
        | _ => none
      | _ => none
    | _ => none

end

/-- The value that a text writes, as it is written. -/
def parse? (text : String) : Option Json :=
  let cs := text.toList
  match readValue (2 * cs.length + 2) cs with
  | some (v, rest) => if (skipBlanks rest).isEmpty then some v else none
  | none => none

/-- How deep a value may be nested that is taken in. -/
def depthLimit : Nat := 127

/-- The value that a text writes, when all of it can be taken in, in canonical form. -/
def parseCanonical? (text : String) : Option Json := do
  let v ← parse? text
  if v.usable depthLimit then some v.canonical else none

end Relink.Json
