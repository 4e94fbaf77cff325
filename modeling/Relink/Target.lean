import Relink.Json.Decode
import Relink.Unicode.Case

/-!
# Language levels

The levels of the language that a compiler can have been asked for. A level is known by its name in
capitals; it may be given in any case.
-/

namespace Relink

open Unicode

/-- A language level. -/
inductive Target where
  | es2015
  | es2017
  | es2020
  | es2022
  deriving DecidableEq, Repr, Inhabited

namespace Target

def name : Target → String
  | es2015 => "ES2015"
  | es2017 => "ES2017"
  | es2020 => "ES2020"
  | es2022 => "ES2022"

/-- The name with small letters behind the first. -/
def label : Target → String
  | es2015 => "Es2015"
  | es2017 => "Es2017"
  | es2020 => "Es2020"
  | es2022 => "Es2022"

def all : List Target := [es2015, es2017, es2020, es2022]

/-- The levels under their names. -/
def byName : List (String × Target) := all.map fun t => (t.name, t)

/-- The level of the given name in any case. -/
def ofText? (text : String) : Option Target :=
  byName.lookup (upperCaseText text)

theorem lookup_name (t : Target) : byName.lookup t.name = some t := by
  cases t <;> decide

def decoder : Json.Decoder Target := Json.Decoder.oneOf byName

def toJson (t : Target) : Json := .string t.name

end Target

end Relink
