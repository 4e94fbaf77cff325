import Relink.Json.Number
import Relink.Table
import Relink.Text.Quoted

/-!
# JSON values

The values of JSON, as they are written: the fields of an object keep their order and their
repetitions, and numbers keep their decimal form.

* `render` — the text of a value without blanks.
* `usable` — whether a value can be taken in: no half characters, no number beyond the range of
  double precision, and not nested too deep.
* `canonical` — the value with the fields of each object in the order of their names, the last one
  of each name.
-/

namespace Relink

/-- JSON values. A string with half a character, and an object with such a key, is `broken`: well
formed, but it stands for nothing. -/
inductive Json where
  | null
  | bool (value : Bool)
  | number (value : Json.Number)
  | string (text : String)
  | broken
  | array (items : List Json)
  | object (fields : List (String × Json))
  deriving Repr, Inhabited

namespace Json

/-- A natural number. -/
def ofNat (n : Nat) : Json := .number ⟨false, n, 0, true⟩

/-! ## Text -/

mutual

/-- The text of a value without blanks. -/
def render : Json → String
  | .null => "null"
  | .bool b => if b then "true" else "false"
  | .number n => n.text
  | .string s => quoted s
  | .broken => "null"
  | .array xs => "[" ++ renderItems xs ++ "]"
  | .object fs => "\x7b" ++ renderFields fs ++ "\x7d"

def renderItems : List Json → String
  | [] => ""
  | [x] => render x
  | x :: xs => render x ++ "," ++ renderItems xs

def renderFields : List (String × Json) → String
  | [] => ""
  | [(k, v)] => quoted k ++ ":" ++ render v
  | (k, v) :: fs => quoted k ++ ":" ++ render v ++ "," ++ renderFields fs

end

/-! ## Use -/

mutual

/-- Whether a value can be taken in, nested at most `depth` deep. -/
def usable : Nat → Json → Bool
  | _, .broken => false
  | _, .number n => !n.overflows
  | depth, .array xs => depth > 0 && usableItems (depth - 1) xs
  | depth, .object fs => depth > 0 && usableFields (depth - 1) fs
  | _, _ => true

def usableItems : Nat → List Json → Bool
  | _, [] => true
  | depth, x :: xs => usable depth x && usableItems depth xs

def usableFields : Nat → List (String × Json) → Bool
  | _, [] => true
  | depth, (_, v) :: fs => usable depth v && usableFields depth fs

end

mutual

/-- The value with the fields of each object in the order of their names; of several fields with one
name the last one counts. -/
def canonical : Json → Json
  | .array xs => .array (canonicalItems xs)
  | .object fs => .object (Table.ofList (canonicalFields fs)).entries
  | v => v

def canonicalItems : List Json → List Json
  | [] => []
  | x :: xs => canonical x :: canonicalItems xs

def canonicalFields : List (String × Json) → List (String × Json)
  | [] => []
  | (k, v) :: fs => (k, canonical v) :: canonicalFields fs

end

end Json

end Relink
