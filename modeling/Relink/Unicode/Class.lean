import Relink.Unicode.Identifier
import Relink.Unicode.Letter
import Relink.Unicode.Word

/-!
# Classes of characters

Membership in the character sets of the tables beside this module. A set is an ascending list of
boundaries, so a character belongs to it exactly when an odd number of boundaries is at most its
code point; the number is found by halving the list.
-/

namespace Relink.Unicode

/-- The number of entries of the ascending array `bounds`, between the positions `lo` and `hi`, that
are at most `x`, added to `lo`. -/
def boundariesUpTo (bounds : Array Nat) (x : Nat) : Nat → Nat → Nat → Nat
  | 0, lo, _ => lo
  | fuel + 1, lo, hi =>
    if lo < hi then
      let mid := (lo + hi) / 2
      if bounds.getD mid 0 ≤ x then boundariesUpTo bounds x fuel (mid + 1) hi
      else boundariesUpTo bounds x fuel lo mid
    else lo

/-- Membership in the set with the boundaries `bounds`. -/
def inSet (bounds : Array Nat) (c : Char) : Bool :=
  boundariesUpTo bounds c.toNat bounds.size 0 bounds.size % 2 == 1

/-- Letters of the Latin alphabet without diacritics. -/
def isLatinLetter (c : Char) : Bool :=
  ('a' ≤ c && c ≤ 'z') || ('A' ≤ c && c ≤ 'Z')

/-- The decimal digits `0` to `9`. -/
def isDigit (c : Char) : Bool :=
  '0' ≤ c && c ≤ '9'

/-- The hexadecimal digits in either case. -/
def isHexDigit (c : Char) : Bool :=
  isDigit c || ('a' ≤ c && c ≤ 'f') || ('A' ≤ c && c ≤ 'F')

/-- The value of a hexadecimal digit, zero for any other character. -/
def hexValue (c : Char) : Nat :=
  if isDigit c then c.toNat - 48
  else if 'a' ≤ c && c ≤ 'f' then c.toNat - 87
  else if 'A' ≤ c && c ≤ 'F' then c.toNat - 55
  else 0

/-- Characters of the basic block are decided without the tables. -/
def isBasic (c : Char) : Bool :=
  c.toNat < 128

/-- Alphabetic characters. -/
def isAlphabetic (c : Char) : Bool :=
  if isBasic c then isLatinLetter c else inSet alphabeticBounds c

/-- Characters of the general category N. -/
def isNumber (c : Char) : Bool :=
  if isBasic c then isDigit c else inSet numberBounds c

/-- Decimal digits of every script. -/
def isDecimal (c : Char) : Bool :=
  if isBasic c then isDigit c else inSet decimalBounds c

/-- Alphabetic characters and numbers. -/
def isAlphanumeric (c : Char) : Bool :=
  isAlphabetic c || isNumber c

/-- Characters that may start an identifier. -/
def isIdStart (c : Char) : Bool :=
  if isBasic c then isLatinLetter c else inSet idStartBounds c

/-- Characters that may continue an identifier. -/
def isIdContinue (c : Char) : Bool :=
  if isBasic c then isLatinLetter c || isDigit c || c == '_' else inSet idContinueBounds c

/-- Characters of words. -/
def isWordChar (c : Char) : Bool :=
  if isBasic c then isLatinLetter c || isDigit c || c == '_' else inSet wordBounds c

/-- The boundaries of the blank characters. -/
def blankBounds : Array Nat :=
  #[9, 14, 32, 33, 133, 134, 160, 161, 5760, 5761, 8192, 8203, 8232, 8234, 8239, 8240, 8287, 8288,
    12288, 12289]

/-- Blank characters. -/
def isBlankChar (c : Char) : Bool :=
  inSet blankBounds c

end Relink.Unicode
