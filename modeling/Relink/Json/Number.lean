/-!
# Numbers of JSON

Numbers as they are written, in decimal form, and their texts. A number that is written as an integer of
64 bits keeps its digits. Any other stands for the nearest number of double precision, and is written
with the fewest digits that read back as that number.

* `Number.overflows` — whether a number lies beyond double precision.
* `Double.nearest` — the number of double precision nearest to a fraction.
* `Double.shortest` — the fewest digits that read back.
* `Number.text` — the text of a number.
-/

namespace Relink.Json

/-- A number in decimal form: its sign, digits and exponent, and whether it is written without a
fraction and without an exponent. -/
structure Number where
  negative : Bool
  digits : Nat
  exponent : Int
  plain : Bool
  deriving DecidableEq, Repr, Inhabited

/-- The number of decimal digits of a number. -/
def digitCount (n : Nat) : Nat := (Nat.toDigits 10 n).length

/-- A positive fraction. -/
structure Ratio where
  numerator : Nat
  denominator : Nat

namespace Ratio

/-- A number times a power of another one. -/
def power (n base : Nat) (exponent : Int) : Ratio :=
  if exponent ≥ 0 then ⟨n * Nat.pow base exponent.toNat, 1⟩ else ⟨n, Nat.pow base (-exponent).toNat⟩

/-- A fraction as a multiple of a power. -/
def per (r : Ratio) (base : Nat) (exponent : Int) : Ratio :=
  if exponent ≥ 0 then { r with denominator := r.denominator * Nat.pow base exponent.toNat }
  else { r with numerator := r.numerator * Nat.pow base (-exponent).toNat }

def floor (r : Ratio) : Nat := r.numerator / r.denominator

/-- The nearest integer, of two the even one. -/
def round (r : Ratio) : Nat :=
  let rest := 2 * (r.numerator % r.denominator)
  if rest > r.denominator || (rest == r.denominator && r.floor % 2 == 1) then r.floor + 1 else r.floor

end Ratio

/-! ## Double precision -/

/-- A number of double precision without its sign: a mantissa of at most 53 bits times a power of two.
Every number has one form only: the mantissa has 53 bits unless the exponent is the least one. -/
structure Double where
  mantissa : Nat
  exponent : Int
  deriving DecidableEq, Repr, Inhabited

namespace Double

/-- The least exponent. -/
def leastExponent : Int := -1074

/-- The least mantissa of 53 bits. -/
def leastWhole : Nat := Nat.pow 2 52

/-- The least natural number that is rounded to none of double precision. -/
def limit : Nat := Nat.pow 2 1024 - Nat.pow 2 970

/-- The number of double precision nearest to a fraction, without a limit upwards. -/
def nearest (r : Ratio) : Double :=
  let e : Int := (r.numerator.log2 : Int) - r.denominator.log2 - 52
  let e := max leastExponent (if (r.per 2 e).floor < leastWhole then e - 1 else e)
  let m := (r.per 2 e).round
  if m == 2 * leastWhole then ⟨leastWhole, e + 1⟩ else ⟨m, e⟩

/-- The value of a number. -/
def value (x : Double) : Ratio := .power x.mantissa 2 x.exponent

/-- The multiple of a power of ten that reads back as a number, if there is one; of two the nearer. -/
def multiple? (x : Double) (exponent : Int) : Option Nat :=
  let r := x.value.per 10 exponent
  let readsBack (n : Nat) : Bool := n > 0 && nearest (.power n 10 exponent) == x
  let (near, far) := if r.round == r.floor then (r.floor, r.floor + 1) else (r.floor + 1, r.floor)
  if readsBack near then some near else if readsBack far then some far else none

/-- The fewest digits that read back as a number, and their exponent. -/
def shortest (x : Double) : Nat × Int :=
  let top : Int := digitCount x.value.floor
  ((List.range 360).findSome? fun (i : Nat) =>
    let exponent : Int := top - i
    (x.multiple? exponent).map fun n => (n, exponent)).getD (0, 0)

end Double

/-! ## Text -/

namespace Number

/-- Whether a number is so large that it has no neighbour in double precision. -/
def overflows (n : Number) : Bool :=
  if n.digits == 0 then false
  else
    let magnitude : Int := digitCount n.digits + n.exponent
    if magnitude > 320 then true
    else if magnitude < 300 then false
    else if n.exponent ≥ 0 then
      n.digits * Nat.pow 10 n.exponent.toNat ≥ Double.limit
    else n.digits ≥ Double.limit * Nat.pow 10 (-n.exponent).toNat

/-- The number as a natural number below 2^64, when it is written as one. -/
def word? (n : Number) : Option Nat :=
  if n.plain && !n.negative && n.digits < UInt64.size then some n.digits else none

/-- Whether a number is written as an integer of 64 bits. A zero with a sign is none. -/
def isInteger (n : Number) : Bool :=
  n.plain && if n.negative then 0 < n.digits && 2 * n.digits ≤ UInt64.size else n.digits < UInt64.size

/-- The nearest number of double precision, without the sign. -/
def double (n : Number) : Double :=
  if n.digits == 0 || digitCount n.digits + n.exponent < -330 then ⟨0, Double.leastExponent⟩
  else Double.nearest (.power n.digits 10 n.exponent)

def zeros (n : Int) : List Char := List.replicate n.toNat '0'

/-- Digits with an exponent, with a point if they are neither very large nor very small. -/
def layout (digits : List Char) (exponent : Int) : List Char :=
  let place : Int := digits.length + exponent
  if 0 ≤ exponent && place ≤ 16 then digits ++ zeros exponent ++ ".0".toList
  else if 0 < place && place ≤ 16 then digits.take place.toNat ++ '.' :: digits.drop place.toNat
  else if -5 < place && place ≤ 0 then "0.".toList ++ zeros (-place) ++ digits
  else
    let fraction := match digits.drop 1 with
      | [] => []
      | ds => '.' :: ds
    digits.take 1 ++ fraction ++ 'e' :: (toString (place - 1)).toList

/-- The text of a number. -/
def text (n : Number) : String :=
  let sign := if n.negative then "-" else ""
  if n.isInteger then sign ++ toString n.digits
  else if n.double.mantissa == 0 then sign ++ "0.0"
  else
    let (digits, exponent) := n.double.shortest
    sign ++ String.ofList (layout (Nat.toDigits 10 digits) exponent)

end Number

end Relink.Json
