import Relink.Unicode.Case
import Relink.Unicode.Class

/-!
# Regular expressions

Regular expressions over characters, with assertions about the place between two characters, and the
search for a match anywhere in a text.

* `CharSet.has` — membership of a character.
* `nullable` — whether an expression matches the empty text at a place.
* `derivatives` — what is left to match of an expression behind a character.
* `search` — whether an expression matches some part of a text.
-/

namespace Relink

open Unicode

/-- Sets of characters. -/
inductive CharSet where
  | empty
  /-- The characters from the first to the second. -/
  | range (first last : Char)
  /-- The characters of a table of boundaries. -/
  | table (bounds : Array Nat)
  | word
  | decimal
  | blank
  | union (a b : CharSet)
  | meet (a b : CharSet)
  | complement (a : CharSet)
  /-- The characters that differ in case only from a member; with `basic`, Latin letters only. -/
  | folded (basic : Bool) (a : CharSet)
  deriving DecidableEq, Repr, Inhabited

/-- A character and its other case, if it is a Latin letter. -/
def basicVariants (c : Char) : List Char := if isLatinLetter c then [c.toLower, c.toUpper] else [c]

namespace CharSet

/-- Whether a character belongs to a set. -/
def has : CharSet → Char → Bool
  | empty, _ => false
  | range a b, c => a ≤ c && c ≤ b
  | table bounds, c => inSet bounds c
  | word, c => isWordChar c
  | decimal, c => isDecimal c
  | blank, c => isBlankChar c
  | union a b, c => a.has c || b.has c
  | meet a b, c => a.has c && b.has c
  | complement a, c => !a.has c
  | folded basic a, c => (if basic then basicVariants c else variants c).any a.has

/-- The set with one member. -/
def single (c : Char) : CharSet := range c c

/-- The members of some sets. -/
def unions (sets : List CharSet) : CharSet := sets.foldr union empty

/-- The set of some characters. -/
def ofList (cs : List Char) : CharSet := unions (cs.map single)

/-- The members of the first set that do not belong to the second. -/
def minus (a b : CharSet) : CharSet := meet a (complement b)

/-- The members of one of two sets that do not belong to the other. -/
def differ (a b : CharSet) : CharSet := union (a.minus b) (b.minus a)

/-- The Latin letters and digits, and the underscore. -/
def basicWord : CharSet := unions [range '0' '9', range 'A' 'Z', single '_', range 'a' 'z']

end CharSet

/-- How word characters stand on the two sides of a place. -/
inductive WordEdge where
  /-- On exactly one side. -/
  | any
  /-- On both sides or on none. -/
  | no
  /-- Only behind the place. -/
  | start
  /-- Only before the place. -/
  | stop
  /-- Not before the place. -/
  | startHalf
  /-- Not behind the place. -/
  | stopHalf
  deriving DecidableEq, Repr, Inhabited

/-- Statements about the place between two characters. -/
inductive Assertion where
  /-- Nothing stands before the place. -/
  | first
  /-- Nothing stands behind the place. -/
  | last
  /-- A line starts here; with `returns`, it may be that the one before ends with a return. -/
  | lineFirst (returns : Bool)
  /-- A line ends here; with `returns`, it may do so with a return. -/
  | lineLast (returns : Bool)
  /-- Words start or end here; with `basic`, words of Latin letters and digits. -/
  | word (basic : Bool) (edge : WordEdge)
  deriving DecidableEq, Repr, Inhabited

/-- Regular expressions. -/
inductive Regex where
  | never
  | empty
  | assert (a : Assertion)
  | set (s : CharSet)
  | seq (a b : Regex)
  | alt (a b : Regex)
  | star (a : Regex)
  deriving DecidableEq, Repr, Inhabited

/-- Whether word characters stand so, if one stands before a place or not, and behind it or not. -/
def WordEdge.holds (before behind : Bool) : WordEdge → Bool
  | any => before != behind
  | no => before == behind
  | start => !before && behind
  | stop => before && !behind
  | startHalf => !before
  | stopHalf => !behind

namespace Assertion

/-- Whether an assertion holds between two characters, of which either may be missing. A return and a newline
behind it are not taken apart. -/
def holds (before behind : Option Char) : Assertion → Bool
  | first => before.isNone
  | last => behind.isNone
  | lineFirst returns =>
    before.isNone || before == some '\n' || returns && before == some '\r' && behind != some '\n'
  | lineLast returns =>
    behind.isNone || returns && behind == some '\r'
      || behind == some '\n' && !(returns && before == some '\r')
  | word basic edge =>
    let isWord := (if basic then CharSet.basicWord else .word).has
    edge.holds (before.elim false isWord) (behind.elim false isWord)

end Assertion

namespace Regex

/-! ## Building -/

/-- One character, in either case when `fold` is set. -/
def char (fold : Bool) (c : Char) : Regex :=
  set (if fold then .folded false (.single c) else .single c)

/-- One expression after the other. -/
def concat (rs : List Regex) : Regex := rs.foldr seq empty

/-- A fixed text. -/
def word (fold : Bool) (text : String) : Regex :=
  concat (text.toList.map (char fold))

/-- An expression or nothing. -/
def optional (r : Regex) : Regex := alt r empty

/-- At most `n` repetitions. -/
def upTo (r : Regex) : Nat → Regex
  | 0 => empty
  | n + 1 => optional (seq r (upTo r n))

/-- At least `low` repetitions, followed by `rest`. -/
def times (r : Regex) : Nat → Regex → Regex
  | 0, rest => rest
  | n + 1, rest => seq r (times r n rest)

/-- From `low` to `high` repetitions, or without an upper bound. -/
def repeated (r : Regex) (low : Nat) : Option Nat → Regex
  | some high => times r low (upTo r (high - low))
  | none => times r low (star r)

/-- The number of constructors of an expression. -/
def size : Regex → Nat
  | seq a b => a.size + b.size + 1
  | alt a b => a.size + b.size + 1
  | star a => a.size + 1
  | _ => 1

/-! ## Matching -/

/-- Whether an expression matches the empty text between two characters. -/
def nullable (before after : Option Char) : Regex → Bool
  | never => false
  | empty => true
  | assert a => a.holds before after
  | set _ => false
  | seq a b => a.nullable before after && b.nullable before after
  | alt a b => a.nullable before after || b.nullable before after
  | star _ => true

/-- One expression after the other, without a leading empty one. -/
def andThen : Regex → Regex → Regex
  | empty, b => b
  | a, b => seq a b

/-- What is left to match behind the character `c`, which stands behind `before`. -/
def derivatives (before : Option Char) (c : Char) : Regex → List Regex
  | never => []
  | empty => []
  | assert _ => []
  | set s => if s.has c then [empty] else []
  | seq a b =>
    let left := (a.derivatives before c).map fun r => r.andThen b
    if a.nullable before (some c) then left ++ b.derivatives before c else left
  | alt a b => a.derivatives before c ++ b.derivatives before c
  | star a => (a.derivatives before c).map fun r => r.andThen (star a)

/-- The elements of a list, each once. -/
def dedup (rs : List Regex) : List Regex :=
  rs.foldr (fun r seen => if seen.contains r then seen else r :: seen) []

/-- Whether one of `active`, or `r` itself from here on, matches at the front of a text. -/
def searchFrom (r : Regex) : Option Char → List Regex → List Char → Bool
  | before, active, [] => (r :: active).any fun a => a.nullable before none
  | before, active, c :: cs =>
    (r :: active).any (fun a => a.nullable before (some c))
      || searchFrom r (some c) (dedup ((r :: active).flatMap fun a => a.derivatives before c)) cs

/-- Whether an expression matches some part of a text. -/
def search (r : Regex) (text : String) : Bool :=
  searchFrom r none [] text.toList

end Regex

end Relink
