/-!
# Properties of characters

A property has names, and the characters that have it. The names of properties are compared without regard to
case, blanks, hyphens and underscores, and the word `is` may stand in front of them.

* `Property.bounds` — the boundaries of the set of characters that have a property.
* `propertyNamed?` — the property with a name.
-/

namespace Relink.Unicode

/-- A property: its names, and the distances between the boundaries of its set, as a text. -/
structure Property where
  names : List String
  gaps : String
  deriving DecidableEq, Repr, Inhabited

/-- Adds a boundary to those before it, at a distance if there is one. -/
def closeGap (bounds : Array Nat) (gap : Option Nat) : Array Nat :=
  gap.elim bounds fun n => bounds.push (bounds.back?.getD 0 + n)

/-- The boundaries of the set of characters that have a property. -/
def Property.bounds (p : Property) : Array Nat :=
  let (bounds, gap) := p.gaps.toList.foldl (fun (bounds, gap) c =>
    if '0' ≤ c && c ≤ '9' then (bounds, some (gap.getD 0 * 10 + (c.toNat - 48))) else (closeGap bounds gap, none))
    (#[], none)
  closeGap bounds gap

/-- A name without what does not matter in it. The name `isc` is not one of `c` with a word in front. -/
def plainName (name : List Char) : List Char :=
  let behind := match name with
    | i :: s :: rest => if i.toLower == 'i' && s.toLower == 's' then some rest else none
    | _ => none
  let plain := ((behind.getD name).filter fun c => c.toNat < 128 && c != ' ' && c != '-' && c != '_').map Char.toLower
  if behind.isSome && plain == ['c'] then ['i', 's', 'c'] else plain

/-- Whether a name, which is plain, is one of some names. -/
def isAmong (name : List Char) (names : List String) : Bool := names.any fun n => plainName n.toList == name

/-- The property with a name, which is plain. -/
def propertyNamed? (ps : List Property) (name : List Char) : Option Property := ps.find? fun p => isAmong name p.names

end Relink.Unicode
