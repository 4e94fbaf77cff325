import Relink.Script.Token
import Relink.Text.Halves
import Relink.Text.Quoted

/-!
# Reading one token

Each part reads from the front of a text, character by character, and says how far it came.

* `skipGap` — blanks and comments in front of a token.
* `scanName`, `scanNumber`, `scanString`, `scanTemplate`, `scanRegex` — the tokens with an inner
  structure.
* `scanToken` — the next token. A slash is read as an operator and a closing brace as a bracket;
  the grammar asks for a regular expression or for the rest of a template where one may stand.
-/

namespace Relink.Script

open Relink.Unicode

/-! ## Characters -/

/-- The characters that end a line. -/
def isLineEnd (c : Char) : Bool :=
  c == '\n' || c == '\r' || c == '\u2028' || c == '\u2029'

/-- The characters that separate tokens on a line. -/
def isBlank (c : Char) : Bool :=
  c == ' ' || c == '\t' || c == '\x0b' || c == '\x0c' || c == '\u00a0' || c == '\ufeff'
    || c == '\u0085' || c == '\u1680' || ('\u2000' ≤ c && c ≤ '\u200b') || c == '\u202f'
    || c == '\u205f' || c == '\u3000'

/-- The characters that may start a name. -/
def isNameStart (c : Char) : Bool :=
  isIdStart c || c == '$' || c == '_'

/-- The characters that may continue a name. -/
def isNamePart (c : Char) : Bool :=
  isIdContinue c || c == '$' || c == '\u200c' || c == '\u200d'

/-! ## Blanks and comments -/

/-- What stands between two tokens: the place behind it, whether a line ends in it, its comments,
the last one first, and whether its last comment is closed. -/
structure Gap where
  place : Place
  lineBefore : Bool
  comments : List Span
  closed : Bool
  deriving Repr, Inhabited

/-- The reader of a gap is between comments, or in a comment that began at an offset. -/
inductive InGap where
  | blank
  | lineComment (start : Nat)
  | blockComment (start : Nat)

/-- Skips blanks and comments. In a script the arrow that closes an HTML comment starts a comment
too when nothing but a gap stands before it on its line, and so does the mark that opens one. -/
def skipGap (script : Bool) : InGap → Bool → List Span → Nat → List Char → Gap
  | .blank, nl, cs, o, [] => ⟨⟨o, []⟩, nl, cs, true⟩
  | .lineComment s, nl, cs, o, [] => ⟨⟨o, []⟩, nl, ⟨s, o⟩ :: cs, true⟩
  | .blockComment _, nl, cs, o, [] => ⟨⟨o, []⟩, nl, cs, false⟩
  | .lineComment s, nl, cs, o, c :: rest =>
    if isLineEnd c then skipGap script .blank true (⟨s, o⟩ :: cs) (o + c.utf8Size) rest
    else skipGap script (.lineComment s) nl cs (o + c.utf8Size) rest
  | .blockComment s, nl, cs, o, '*' :: '/' :: rest =>
    skipGap script .blank nl (⟨s, o + 2⟩ :: cs) (o + 2) rest
  | .blockComment s, nl, cs, o, c :: rest =>
    skipGap script (.blockComment s) (nl || isLineEnd c) cs (o + c.utf8Size) rest
  | .blank, nl, cs, o, '/' :: '/' :: rest =>
    skipGap script (.lineComment o) nl cs (o + 2) rest
  | .blank, nl, cs, o, '/' :: '*' :: rest =>
    skipGap script (.blockComment o) nl cs (o + 2) rest
  | .blank, nl, cs, o, '<' :: '!' :: '-' :: '-' :: rest =>
    if script then skipGap script (.lineComment o) nl cs (o + 4) rest
    else ⟨⟨o, '<' :: '!' :: '-' :: '-' :: rest⟩, nl, cs, true⟩
  | .blank, nl, cs, o, '-' :: '-' :: '>' :: rest =>
    if script && nl then skipGap script (.lineComment o) nl cs (o + 3) rest
    else ⟨⟨o, '-' :: '-' :: '>' :: rest⟩, nl, cs, true⟩
  | .blank, nl, cs, o, c :: rest =>
    if isLineEnd c then skipGap script .blank true cs (o + c.utf8Size) rest
    else if isBlank c then skipGap script .blank nl cs (o + c.utf8Size) rest
    else ⟨⟨o, c :: rest⟩, nl, cs, true⟩

/-! ## Names -/

/-- The reader of a name is between characters, or in a braced escape whose digits so far have the
given number and count. -/
inductive InName where
  | plain
  | braced (value : Nat) (digits : Nat)

/-- A name with its text backwards. -/
structure NameScan where
  reversed : List Char
  escaped : Bool
  place : Place

/-- Whether `c` may stand in a name behind the characters `before`. -/
def fitsName (before : List Char) (c : Char) : Bool :=
  if before.isEmpty then isNameStart c else isNamePart c

/-- Reads the longest name; `none` when an escape in it is malformed or stands for a character that
has no place in a name. -/
def scanName : InName → List Char → Bool → Nat → List Char → Option NameScan
  | .plain, acc, esc, o, [] => some ⟨acc, esc, ⟨o, []⟩⟩
  | .braced _ _, _, _, _, [] => none
  | .braced v n, acc, esc, o, c :: rest =>
    if isHexDigit c then
      if v * 16 + hexValue c > 0x10ffff then none
      else scanName (.braced (v * 16 + hexValue c) (n + 1)) acc esc (o + 1) rest
    else if c == '\x7d' && n > 0 then
      match charOf? v with
      | some d => if fitsName acc d then scanName .plain (d :: acc) esc (o + 1) rest else none
      | none => none
    else none
  | .plain, acc, _, o, '\\' :: 'u' :: '\x7b' :: rest =>
    scanName (.braced 0 0) acc true (o + 3) rest
  | .plain, acc, _, o, '\\' :: 'u' :: a :: b :: c :: d :: rest =>
    match hex4? a b c d with
    | some v =>
      match charOf? v with
      | some e => if fitsName acc e then scanName .plain (e :: acc) true (o + 6) rest else none
      | none => none
    | none => none
  | .plain, acc, esc, o, c :: rest =>
    if c == '\\' then none
    else if fitsName acc c then scanName .plain (c :: acc) esc (o + c.utf8Size) rest
    else some ⟨acc, esc, ⟨o, c :: rest⟩⟩

/-! ## Numbers -/

/-- Reads digits of the class `p` with single underscores between them and says how many characters
they take; `none` for an underscore that has no digit on each side. -/
def digitRun (p : Char → Bool) : Bool → List Char → Option (Nat × List Char)
  | _, [] => some (0, [])
  | afterDigit, c :: cs =>
    if p c then (digitRun p true cs).map fun (n, r) => (n + 1, r)
    else if c == '_' then
      match cs with
      | d :: _ =>
        if afterDigit && p d then (digitRun p false cs).map fun (n, r) => (n + 1, r) else none
      | [] => none
    else some (0, c :: cs)

/-- The exponent part of a decimal number, if there is one. -/
def exponentRun : List Char → Option (Nat × List Char)
  | c :: cs =>
    if c == 'e' || c == 'E' then
      let (signs, cs) := match cs with
        | '+' :: r => (1, r)
        | '-' :: r => (1, r)
        | r => (0, r)
      match digitRun isDigit false cs with
      | some (n + 1, r) => some (1 + signs + (n + 1), r)
      | _ => none
    else some (0, c :: cs)
  | [] => some (0, [])

/-- The digits behind a decimal point, and the exponent part. -/
def fractionRun (cs : List Char) : Option (Nat × List Char) := do
  let (n, r) ← digitRun isDigit false cs
  let (m, r) ← exponentRun r
  some (n + m, r)

/-- What may follow the integer part of a decimal number. -/
def decimalTail : List Char → Option (Nat × List Char)
  | 'n' :: cs => some (1, cs)
  | '.' :: cs => (fractionRun cs).map fun (n, r) => (n + 1, r)
  | cs => exponentRun cs

/-- A number in another base, behind its mark. -/
def radixRun (p : Char → Bool) (cs : List Char) : Option (Nat × List Char) :=
  match digitRun p false cs with
  | some (n + 1, 'n' :: r) => some (n + 4, r)
  | some (n + 1, r) => some (n + 3, r)
  | _ => none

/-- A number written with a leading zero and further digits: octal, or decimal when one of its
digits is eight or nine. -/
def leadingZeroRun (cs : List Char) : Option (Nat × List Char) :=
  let digits := cs.takeWhile isDigit
  let rest := cs.dropWhile isDigit
  if digits.any fun c => c == '8' || c == '9' then
    match rest with
    | '.' :: r => (fractionRun r).map fun (n, r) => (digits.length + 1 + n, r)
    | r => (exponentRun r).map fun (n, r) => (digits.length + n, r)
  else some (digits.length, rest)

/-- The number of characters of the number that a text starts with; `none` when it is malformed or
a name follows at once. -/
def scanNumber (cs : List Char) : Option Nat := do
  let (n, rest) ← match cs with
    | '0' :: 'x' :: r => radixRun isHexDigit r
    | '0' :: 'X' :: r => radixRun isHexDigit r
    | '0' :: 'o' :: r => radixRun (fun c => '0' ≤ c && c ≤ '7') r
    | '0' :: 'O' :: r => radixRun (fun c => '0' ≤ c && c ≤ '7') r
    | '0' :: 'b' :: r => radixRun (fun c => c == '0' || c == '1') r
    | '0' :: 'B' :: r => radixRun (fun c => c == '0' || c == '1') r
    | '0' :: d :: r =>
      if isDigit d then leadingZeroRun ('0' :: d :: r)
      else (decimalTail (d :: r)).map fun (n, r) => (n + 1, r)
    | '.' :: r => (fractionRun r).map fun (n, r) => (n + 1, r)
    | cs => do
      let (n, r) ← digitRun isDigit false cs
      let (m, r) ← decimalTail r
      some (n + m, r)
  match rest with
  | c :: _ => if isNameStart c || isDigit c then none else some n
  | [] => some n

/-! ## Strings -/

/-- The four lower-case hexadecimal digits of a number. -/
def hexDigits4 (n : Nat) : List Char :=
  [hexDigit (n / 4096 % 16), hexDigit (n / 256 % 16), hexDigit (n / 16 % 16), hexDigit (n % 16)]

/-- Whether all parts of a string are whole characters. -/
def isWhole (pieces : List Piece) : Bool := pieces.all fun p => p.char?.isSome

/-- The value of a string as text. Half a character that stands alone is written as the replacement
character and four digits; then the replacement character itself is written that way too. -/
def valueOf (pieces : List Piece) : List Char :=
  pieces.flatMap fun
    | .char c => if c == '\ufffd' && !isWhole pieces then '\ufffd' :: hexDigits4 0xfffd else [c]
    | .half n => '\ufffd' :: hexDigits4 n
    | .lone n => '\ufffd' :: hexDigits4 n

/-- The reader of a string is between characters, or in a braced escape. -/
inductive InString where
  | plain
  | braced (value : Nat) (digits : Nat)

/-- The character that a single-character escape stands for. -/
def escapedChar (c : Char) : Char :=
  if c == 'n' then '\n' else if c == 't' then '\t' else if c == 'r' then '\r'
  else if c == 'b' then '\x08' else if c == 'f' then '\x0c' else if c == 'v' then '\x0b' else c

/-- The octal digits. -/
def isOctalDigit (c : Char) : Bool := '0' ≤ c && c ≤ '7'

/-- Reads a string literal behind its opening quote; the value comes backwards, with the place
behind the closing quote. -/
def scanString (quote : Char) : InString → List Piece → Nat → List Char →
    Option (List Piece × Place)
  | _, _, _, [] => none
  | .braced v n, acc, o, c :: rest =>
    if isHexDigit c then
      if v * 16 + hexValue c > 0x10ffff then none
      else scanString quote (.braced (v * 16 + hexValue c) (n + 1)) acc (o + 1) rest
    else if c == '\x7d' && n > 0 then
      scanString quote .plain (Piece.ofCodePoint v :: acc) (o + 1) rest
    else none
  | .plain, acc, o, '\\' :: rest =>
    match rest with
    | [] => none
    | '\r' :: '\n' :: r => scanString quote .plain acc (o + 3) r
    | 'x' :: a :: b :: r =>
      if isHexDigit a && isHexDigit b then
        scanString quote .plain (.char (Char.ofNat (hexValue a * 16 + hexValue b)) :: acc)
          (o + 4) r
      else none
    | 'x' :: _ => none
    | 'u' :: '\x7b' :: r => scanString quote (.braced 0 0) acc (o + 3) r
    | 'u' :: a :: b :: c :: d :: r =>
      match hex4? a b c d with
      | some v => scanString quote .plain (Piece.ofUnit v :: acc) (o + 6) r
      | none => none
    | 'u' :: _ => none
    | a :: r =>
      if isLineEnd a then scanString quote .plain acc (o + 1 + a.utf8Size) r
      else if isOctalDigit a then
        match r with
        | [] => none
        | [b] =>
          if isOctalDigit b then none
          else scanString quote .plain (.char (Char.ofNat (hexValue a)) :: acc) (o + 2) [b]
        | b :: c :: r =>
          if isOctalDigit b then
            if isOctalDigit c && a ≤ '3' then
              scanString quote .plain
                (.char (Char.ofNat ((hexValue a * 8 + hexValue b) * 8 + hexValue c)) :: acc)
                (o + 4) r
            else
              scanString quote .plain (.char (Char.ofNat (hexValue a * 8 + hexValue b)) :: acc)
                (o + 3) (c :: r)
          else scanString quote .plain (.char (Char.ofNat (hexValue a)) :: acc) (o + 2) (b :: c :: r)
      else scanString quote .plain (.char (escapedChar a) :: acc) (o + 1 + a.utf8Size) r
  | .plain, acc, o, c :: rest =>
    if c == quote then some (acc, ⟨o + 1, rest⟩)
    else if c == '\n' || c == '\r' then none
    else scanString quote .plain (.char c :: acc) (o + c.utf8Size) rest

/-! ## Templates -/

/-- Whether a text starts with hexadecimal digits of a code point and a closing brace. -/
def closesEscape : Nat → Nat → List Char → Bool
  | _, _, [] => false
  | v, n, c :: rest =>
    if isHexDigit c then
      v * 16 + hexValue c ≤ 0x10ffff && closesEscape (v * 16 + hexValue c) (n + 1) rest
    else c == '\x7d' && n > 0

/-- Whether the text behind a backslash is an escape that has a meaning in a template. -/
def isTemplateEscape : List Char → Bool
  | 'x' :: a :: b :: _ => isHexDigit a && isHexDigit b
  | 'x' :: _ => false
  | 'u' :: '\x7b' :: r => closesEscape 0 0 r
  | 'u' :: a :: b :: c :: d :: _ => (hex4? a b c d).isSome
  | 'u' :: _ => false
  | '0' :: d :: _ => !isDigit d
  | c :: _ => c == '0' || !isDigit c
  | [] => false

/-- Reads a piece of a template up to a substitution or the closing mark. -/
def scanTemplate (well : Bool) (o : Nat) : List Char → Option (Lexeme × Place)
  | [] => none
  | '\\' :: c :: rest => scanTemplate (well && isTemplateEscape (c :: rest)) (o + 1 + c.utf8Size) rest
  | '\x60' :: rest => some (.template true well, ⟨o + 1, rest⟩)
  | '$' :: '\x7b' :: rest => some (.template false well, ⟨o + 2, rest⟩)
  | c :: rest => scanTemplate well (o + c.utf8Size) rest

/-! ## Regular expressions -/

/-- Reads the body of a regular expression up to the closing slash; `inClass` between brackets,
where a slash is an ordinary character. -/
def scanRegexBody (inClass : Bool) (o : Nat) : List Char → Option Place
  | [] => none
  | '\\' :: c :: rest => if isLineEnd c then none else scanRegexBody inClass (o + 1 + c.utf8Size) rest
  | c :: rest =>
    if isLineEnd c then none
    else if c == '/' && !inClass then some ⟨o + 1, rest⟩
    else scanRegexBody (if c == '[' then true else if c == ']' then false else inClass)
      (o + c.utf8Size) rest

/-- Reads the flags behind a regular expression: known letters, none twice. -/
def scanRegexFlags (seen : List Char) (o : Nat) : List Char → Option Place
  | [] => some ⟨o, []⟩
  | c :: rest =>
    if isLatinLetter c || isDigit c || c == '$' || c == '_' then
      if ['d', 'g', 'i', 'm', 's', 'u', 'v', 'y'].contains c && !seen.contains c then
        scanRegexFlags (c :: seen) (o + 1) rest
      else none
    else some ⟨o, c :: rest⟩

/-- Reads a regular expression behind its opening slash. -/
def scanRegex (p : Place) : Option Place :=
  match scanRegexBody false p.offset p.rest with
  | some q => scanRegexFlags [] q.offset q.rest
  | none => none

/-! ## Tokens -/

/-- A token, the place behind it, and the comments in front of it, the last one first. -/
structure Scanned where
  token : Token
  after : Place
  comments : List Span
  deriving Repr, Inhabited

/-- The token that starts at a place, without a gap in front. -/
def scanLexeme (p : Place) : Lexeme × Place :=
  match p.rest with
  | [] => (.stop, p)
  | c :: cs =>
    if c == '\x22' || c == '\x27' then
      match scanString c .plain [] (p.offset + 1) cs with
      | some (pieces, q) =>
        let joined := joinHalves pieces.reverse
        (.string (valueOf joined) (isWhole joined), q)
      | none => (.mistake, p)
    else if c == '\x60' then (scanTemplate true (p.offset + 1) cs).getD (.mistake, p)
    else if isDigit c || (c == '.' && (cs.head?.map isDigit).getD false) then
      match scanNumber p.rest with
      | some n => (.number, p.skip n)
      | none => (.mistake, p)
    else if c == '#' then
      match scanName .plain [] false (p.offset + 1) cs with
      | some s => if s.reversed.isEmpty then (.mistake, p) else (.privateName s.reversed.reverse, s.place)
      | none => (.mistake, p)
    else if isNameStart c || c == '\\' then
      match scanName .plain [] false p.offset p.rest with
      | some s =>
        let text := s.reversed.reverse
        (.word (Word.ofChars text) text s.escaped, s.place)
      | none => (.mistake, p)
    else
      match Punct.ofChars p.rest with
      | some (q, n) => (.punct q, p.skip n)
      | none => (.mistake, p)

/-- The next token of a script or module behind a place; `lineStart` at the beginning of the text. -/
def scanToken (script lineStart : Bool) (p : Place) : Scanned :=
  let gap := skipGap script .blank lineStart [] p.offset p.rest
  if gap.closed then
    let (lexeme, after) := scanLexeme gap.place
    ⟨⟨lexeme, ⟨gap.place.offset, after.offset⟩, gap.lineBefore⟩, after, gap.comments⟩
  else ⟨⟨.mistake, ⟨gap.place.offset, gap.place.offset⟩, gap.lineBefore⟩, gap.place, gap.comments⟩

end Relink.Script
