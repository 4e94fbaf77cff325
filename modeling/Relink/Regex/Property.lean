import Relink.Regex.Basic
import Relink.Unicode.Category
import Relink.Unicode.Scripts

/-!
# Sets of characters by name

The sets that a regular expression names: those of letters and signs of the basic block, and those of characters
with a property. Of the properties, the general category and the writing system are known, and whether a character
is alphabetic, a blank, or a small or capital letter.

* `CharSet.basic?` — a set of characters of the basic block.
* `CharSet.property?`, `CharSet.propertyValue?` — the characters that have a property.
-/

namespace Relink.CharSet

open Unicode

/-- A set of characters of the basic block, by its name. -/
def basic? (name : String) : Option CharSet :=
  match name with
  | "alnum" => some (unions [range '0' '9', range 'A' 'Z', range 'a' 'z'])
  | "alpha" => some (union (range 'A' 'Z') (range 'a' 'z'))
  | "ascii" => some (range '\x00' '\x7f')
  | "blank" => some (ofList ['\t', ' '])
  | "cntrl" => some (union (range '\x00' '\x1f') (single '\x7f'))
  | "digit" => some (range '0' '9')
  | "graph" => some (range '!' '~')
  | "lower" => some (range 'a' 'z')
  | "print" => some (range ' ' '~')
  | "punct" => some (unions [range '!' '/', range ':' '@', range '[' '\x60', range '\x7b' '~'])
  | "space" => some (union (range '\t' '\r') (single ' '))
  | "upper" => some (range 'A' 'Z')
  | "word" => some basicWord
  | "xdigit" => some (unions [range '0' '9', range 'A' 'F', range 'a' 'f'])
  | _ => none

/-- The characters that have a property. -/
def ofProperty (p : Property) : CharSet := table p.bounds

/-- The characters of a general category or of a group of categories, by its plain name. -/
def category? (name : List Char) : Option CharSet :=
  if name == "any".toList then some (complement empty)
  else if name == "ascii".toList then some (range '\x00' '\x7f')
  else if name == "assigned".toList then
    (propertyNamed? categories ['c', 'n']).map fun p => complement (ofProperty p)
  else
    match propertyNamed? categories name with
    | some p => some (ofProperty p)
    | none => (categoryGroups.find? fun g => isAmong name g.1).map fun g =>
      unions ((categories.filter fun p => p.names.any g.2.contains).map ofProperty)

/-- The characters of a writing system, by its plain name. -/
def writing? (name : List Char) : Option CharSet := (propertyNamed? scripts name).map ofProperty

/-- The characters that have a property, by the name of the property, of a general category or of a writing
system. -/
def property? (name : List Char) : Option CharSet :=
  let name := plainName name
  if isAmong name ["Alphabetic", "Alpha"] then some (table alphabeticBounds)
  else if isAmong name ["White_Space", "WSpace", "space"] then some blank
  else
    match propertyNamed? cases name with
    | some p => some (ofProperty p)
    | none => (category? name).or (writing? name)

/-- The characters for which a property has a value. -/
def propertyValue? (name value : List Char) : Option CharSet :=
  let name := plainName name
  if isAmong name ["gc", "General_Category"] then category? (plainName value)
  else if isAmong name ["sc", "Script"] then writing? (plainName value)
  else none

end Relink.CharSet
