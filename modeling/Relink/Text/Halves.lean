import Relink.Unicode.Class

/-!
# Characters written in halves

An escape of four hexadecimal digits writes a character, or half of one: the characters beyond the
basic plane are written as two such escapes. This module joins the halves.

* `joinHalves` — joins each first half with the second half right behind it.
-/

namespace Relink

open Unicode

/-- The number that four hexadecimal digits write. -/
def hex4? (a b c d : Char) : Option Nat :=
  if isHexDigit a && isHexDigit b && isHexDigit c && isHexDigit d then
    some (((hexValue a * 16 + hexValue b) * 16 + hexValue c) * 16 + hexValue d)
  else none

/-- The character with a code point, if there is one. -/
def charOf? (n : Nat) : Option Char :=
  if h : n.isValidChar then some (Char.ofNatAux n h) else none

/-- A part of a text: a character, half of a character that an escape of four digits stands for, or
half of a character that stands alone in any case. -/
inductive Piece where
  | char (c : Char)
  | half (unit : Nat)
  | lone (unit : Nat)
  deriving DecidableEq, Repr, Inhabited

namespace Piece

/-- What an escape of four digits stands for. -/
def ofUnit (n : Nat) : Piece :=
  match charOf? n with
  | some c => char c
  | none => half n

/-- What an escape that gives a code point stands for. -/
def ofCodePoint (n : Nat) : Piece :=
  match charOf? n with
  | some c => char c
  | none => lone n

/-- The character of a part, if it is a whole one. -/
def char? : Piece → Option Char
  | char c => some c
  | _ => none

end Piece

/-- Puts a part in front of others; two halves of a character that meet become that character. -/
def joinHalf : Piece → List Piece → List Piece
  | .half hi, .half lo :: rest =>
    if hi < 0xdc00 && 0xdc00 ≤ lo then
      match charOf? (0x10000 + (hi - 0xd800) * 0x400 + (lo - 0xdc00)) with
      | some c => .char c :: rest
      | none => .half hi :: .half lo :: rest
    else .half hi :: .half lo :: rest
  | p, rest => p :: rest

/-- Joins each first half of a character with the second half right behind it. -/
def joinHalves (pieces : List Piece) : List Piece :=
  pieces.foldr joinHalf []

end Relink
