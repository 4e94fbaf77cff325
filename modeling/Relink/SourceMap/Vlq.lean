/-!
# Numbers of variable length

Integers as digits to the base 32, the lowest first, where every digit but the last is marked by 32
more. The lowest bit of the whole is the sign. Each digit is written as a character of the base 64
alphabet.

* `encodeNumber` — the characters of an integer.
* `decodeNumbers` — the integers that some characters write one behind the other.
-/

namespace Relink.SourceMap

/-- The characters that stand for the digits. -/
def alphabet : List Char :=
  "ABCDEFGHIJKLMNOPQRSTUVWXYZabcdefghijklmnopqrstuvwxyz0123456789+/".toList

/-- The character of a digit. -/
def digitChar (digit : Nat) : Char := alphabet.getD digit 'A'

/-- The digits that a character stands for. One outside the alphabet stands for the last digit, once for
each of its bytes. -/
def charDigits (c : Char) : List Nat :=
  if 'A' ≤ c && c ≤ 'Z' then [c.toNat - 65]
  else if 'a' ≤ c && c ≤ 'z' then [c.toNat - 71]
  else if '0' ≤ c && c ≤ '9' then [c.toNat + 4]
  else if c == '+' then [62]
  else List.replicate c.utf8Size 63

/-! ## Writing -/

/-- The digits of a natural number. -/
def naturalDigits (n : Nat) : List Nat :=
  if n < 32 then [n] else (n % 32 + 32) :: naturalDigits (n / 32)
termination_by n

/-- An integer as a natural number with its sign in the lowest bit. -/
def signLast (n : Int) : Nat :=
  if n < 0 then 2 * (-n).toNat + 1 else 2 * n.toNat

/-- The characters of an integer. -/
def encodeNumber (n : Int) : List Char :=
  (naturalDigits (signLast n)).map digitChar

/-! ## Reading -/

/-- The integer of a number with its sign in the lowest bit; numbers have 64 bits. -/
def signedOf (n : Nat) : Int :=
  let value := Int.bmod n UInt64.size
  if value % 2 == 0 then value / 2 else -(value / 2)

/-- The integers that digits write. `sum` is the value of the digits since the last integer and `shift`
the weight of the next one; a number ends within 64 bits. -/
def decodeDigits (sum shift : Nat) : List Nat → Option (List Int)
  | [] => if shift == 0 then some [] else none
  | d :: ds =>
    if shift ≥ 64 then none
    else
      let sum := sum + d % 32 * Nat.pow 2 shift
      if d ≥ 32 then decodeDigits sum (shift + 5) ds
      else (decodeDigits 0 0 ds).map fun ns => signedOf sum :: ns

/-- The integers that characters write one behind the other. -/
def decodeNumbers (cs : List Char) : Option (List Int) :=
  decodeDigits 0 0 (cs.flatMap charDigits)

end Relink.SourceMap
