import Relink.Regex.Property

/-!
# Reading regular expressions

The usual way to write regular expressions: alternatives between bars, groups in parentheses, classes in brackets
with sets in sets and operators between them, repetition by `?`, `*`, `+` and counts in braces, assertions, and
escapes for characters, sets and properties. Letters behind `(?` change how the rest of a group is taken:

* `i` ignores case, `s` lets a dot stand for a newline, and `U` does not matter for a search.
* `m` lets `^` and `$` stand for the ends of lines, and with `R` a return ends a line too.
* `x` passes over blanks and comments.
* `u`, which is on, makes sets those of all characters. Without it they are those of the basic block, and what
  would match parts of other characters is refused.

There is no looking around and no reference back to a group. Properties other than those of `CharSet.property?` are
refused, as if they had no such name, and only the size of an expression is bounded, not how deep it is nested.

* `Regex.read?` — the expression that a text writes, if it writes one.
-/

namespace Relink.Regex

open Unicode

/-- How many constructors an expression may have. -/
def sizeLimit : Nat := 200000

/-! ## Readers -/

/-- How the characters of an expression are taken. -/
structure Flags where
  fold : Bool := false
  lines : Bool := false
  dotAll : Bool := false
  returns : Bool := false
  unicode : Bool := true
  verbose : Bool := false

/-- What is left of a text, and the names of the groups that have been read. -/
structure Unread where
  rest : List Char
  names : List (List Char)

/-- Reads a part of a text, or refuses it. -/
abbrev Reader := StateT Unread Option

/-- The rest of the text. -/
def ahead : Reader (List Char) := return (← get).rest

/-- Leaves `rest` of the text. -/
def leave (rest : List Char) : Reader Unit := modify fun s => { s with rest := rest }

/-- A rest of the text behind blanks and comments; the first argument says whether it starts in a comment. -/
def behindBlanks : Bool → List Char → List Char
  | _, [] => []
  | true, c :: cs => behindBlanks (c != '\n') cs
  | false, c :: cs =>
    if isBlankChar c then behindBlanks false cs
    else if c == '#' then behindBlanks true cs
    else c :: cs

/-- Passes over blanks and comments, where they do not matter. -/
def space (f : Flags) : Reader Unit := do
  if f.verbose then leave (behindBlanks false (← ahead))

/-- Reads a character. -/
def next : Reader Char := do
  match ← ahead with
  | c :: cs => leave cs; return c
  | [] => failure

/-- Reads a given text, if it comes next. -/
def eat (text : String) : Reader Bool := do
  let rest ← ahead
  if text.toList.isPrefixOf rest then
    leave (rest.drop text.length)
    return true
  else return false

/-- The characters up to a closing brace, with which they are read. The first argument bounds the number of
steps. -/
def upToBrace (f : Flags) : Nat → Reader (List Char)
  | 0 => failure
  | limit + 1 => do
    space f
    let c ← next
    if c == '\x7d' then return [] else return c :: (← upToBrace f limit)

/-! ## Characters and sets -/

/-- A set as it is written, in either case where case is ignored. -/
def fold (f : Flags) (s : CharSet) : CharSet := if f.fold then .folded (!f.unicode) s else s

/-- All characters that do not belong to a set. -/
def negated (f : Flags) (negative : Bool) (s : CharSet) : Option CharSet :=
  if !negative then some s else if f.unicode then some (.complement s) else none

/-- The character with a number that is written by hexadecimal digits. -/
def charOfHex? (digits : List Char) : Option Char :=
  let n := digits.foldl (fun n c => n * 16 + hexValue c) 0
  if !digits.isEmpty && digits.all isHexDigit && n.isValidChar then some (Char.ofNat n) else none

/-- Reads a number of digits. -/
def digits (f : Flags) : Nat → Reader (List Char)
  | 0 => return []
  | n + 1 => do
    let c ← next
    space f
    return c :: (← digits f n)

/-- Reads the number of a character behind the letter of its escape, which has `width` digits if it stands in no
braces. -/
def readHex (f : Flags) (width : Nat) : Reader Char := do
  space f
  if ← eat "\x7b" then charOfHex? (← upToBrace f (← ahead).length)
  else
    let c ← charOfHex? (← digits f width)
    -- without braces, two digits can be those of a part of a character
    if !f.unicode && width == 2 && !isBasic c then failure
    return c

/-- The two parts of a text around the first place at which another one stands. -/
def splitAt? (mark : List Char) : List Char → Option (List Char × List Char)
  | [] => none
  | c :: cs =>
    if mark.isPrefixOf (c :: cs) then some ([], (c :: cs).drop mark.length)
    else (splitAt? mark cs).map fun (front, rest) => (c :: front, rest)

/-- The set that stands between braces as a property, or as a property and its value. -/
def namedSet? (name : List Char) : Option (Bool × CharSet) :=
  match splitAt? ['!', '='] name with
  | some (property, value) => (CharSet.propertyValue? property value).map fun s => (true, s)
  | none =>
    match (splitAt? [':'] name).or (splitAt? ['='] name) with
    | some (property, value) => (CharSet.propertyValue? property value).map fun s => (false, s)
    | none => (CharSet.property? name).map fun s => (false, s)

/-- Reads a property behind the letter of its escape. -/
def readProperty (f : Flags) (negative : Bool) : Reader CharSet := do
  unless f.unicode do failure
  space f
  let (unequal, s) ←
    if ← eat "\x7b" then namedSet? (← upToBrace f (← ahead).length)
    else
      let s ← CharSet.property? [← next]
      pure (false, s)
  negated f (negative != unequal) (fold f s)

/-- The set that a letter behind a backslash stands for. -/
def escapedSet? (f : Flags) (c : Char) : Option CharSet :=
  let basic := !f.unicode
  match c with
  | 'd' | 'D' => negated f (c == 'D') (if basic then .range '0' '9' else .decimal)
  | 'w' | 'W' => negated f (c == 'W') (if basic then .basicWord else .word)
  | 's' | 'S' => negated f (c == 'S') (if basic then .ofList ['\t', '\n', '\x0b', '\x0c', '\r', ' '] else .blank)
  | _ => none

/-- The character that a character behind a backslash stands for. -/
def escapedChar? (c : Char) : Option Char :=
  match c with
  | 'n' => some '\n'
  | 't' => some '\t'
  | 'r' => some '\r'
  | 'a' => some '\x07'
  | 'f' => some '\x0c'
  | 'v' => some '\x0b'
  | _ =>
    if isBasic c && !isLatinLetter c && !isDigit c && c != '<' && c != '>' then some c else none

/-- The edge of a word that is named in braces. -/
def edgeNamed? (name : List Char) : Option WordEdge :=
  match String.ofList name with
  | "start" => some .start
  | "end" => some .stop
  | "start-half" => some .startHalf
  | "end-half" => some .stopHalf
  | _ => none

/-- Reads which edge of a word is meant, in braces. Other braces belong to a repetition. -/
def readEdge (f : Flags) : Reader WordEdge := do
  match ← ahead with
  | '\x7b' :: cs =>
    let inner := if f.verbose then behindBlanks false cs else cs
    match inner with
    | [] => failure
    | c :: _ =>
      if isLatinLetter c || c == '-' then
        leave inner
        edgeNamed? (← upToBrace f inner.length)
      else return .any
  | _ => return .any

/-- The assertion that a character behind a backslash starts. -/
def readAssertion (f : Flags) (c : Char) : Reader Assertion := do
  match c with
  | 'A' => return .first
  | 'z' => return .last
  | 'b' => return .word (!f.unicode) (← readEdge f)
  | 'B' => return .word (!f.unicode) .no
  | '<' => return .word (!f.unicode) .start
  | '>' => return .word (!f.unicode) .stop
  | _ => failure

/-- What is written for one place of a text, or between two: a character, which may start a range, a set, or an
assertion. -/
inductive Item where
  | char (c : Char)
  | set (s : CharSet)
  | assertion (a : Assertion)

/-- Reads what stands behind a backslash. -/
def readEscape (f : Flags) : Reader Item := do
  let c ← next
  match c with
  | 'x' => return .char (← readHex f 2)
  | 'u' => return .char (← readHex f 4)
  | 'U' => return .char (← readHex f 8)
  | 'p' => return .set (← readProperty f false)
  | 'P' => return .set (← readProperty f true)
  | 'd' | 'D' | 'w' | 'W' | 's' | 'S' => return .set (← escapedSet? f c)
  | _ =>
    match escapedChar? c with
    | some c => return .char c
    | none => return .assertion (← readAssertion f c)

/-! ## Classes -/

/-- An operator between the sets of a class. -/
inductive ClassOp where
  | meet | minus | differ

/-- The set that an operator makes of two. -/
def ClassOp.apply : ClassOp → CharSet → CharSet → CharSet
  | meet => .meet
  | minus => .minus
  | differ => .differ

/-- What has been read of a class: the set before the last operator, with the operator, and the members behind
it. -/
structure OpenClass where
  negative : Bool
  before : Option (CharSet × ClassOp)
  members : CharSet

namespace OpenClass

def add (p : OpenClass) (s : CharSet) : OpenClass := { p with members := .union p.members s }

/-- The set that has been read, up to the last operator and with it. -/
def combined (f : Flags) (p : OpenClass) : CharSet :=
  match p.before with
  | some (s, op) => op.apply (Regex.fold f s) (Regex.fold f p.members)
  | none => p.members

/-- The class before the members behind a further operator. -/
def operate (f : Flags) (p : OpenClass) (op : ClassOp) : OpenClass :=
  { p with before := some (p.combined f, op), members := .empty }

/-- The set of a class. -/
def close (f : Flags) (p : OpenClass) : Option CharSet := negated f p.negative (Regex.fold f (p.combined f))

end OpenClass

/-- Reads hyphens in front of the members of a class, and says whether there are some. The first argument bounds
the number of steps. -/
def hyphens (f : Flags) : Nat → Reader Bool
  | 0 => failure
  | limit + 1 => do
    if ← eat "-" then
      space f
      discard (hyphens f limit)
      return true
    else return false

/-- Reads the front of a class behind its opening bracket: what negates it, hyphens, and a closing bracket that is
a member, as no class is empty. -/
def openClass (f : Flags) : Reader OpenClass := do
  space f
  let negative ← eat "^"
  space f
  if ← hyphens f ((← ahead).length + 1) then return ⟨negative, none, .single '-'⟩
  else if ← eat "]" then
    space f
    return ⟨negative, none, .single ']'⟩
  else return ⟨negative, none, .empty⟩

/-- Reads a member of a class, in brackets and colons, that is named. Brackets around anything else are those of a
class. -/
def readNamed (f : Flags) : Reader (Option CharSet) := do
  let rest ← ahead
  let (negative, cs) := match rest with
    | '[' :: ':' :: '^' :: cs => (true, cs)
    | cs => (false, cs.drop 2)
  let name := cs.takeWhile (· != ':')
  match CharSet.basic? (String.ofList name) with
  | some s =>
    if ['[', ':'].isPrefixOf rest && [':', ']'].isPrefixOf (cs.drop name.length) then
      leave (cs.drop (name.length + 2))
      return some (← negated f negative (fold f s))
    else return none
  | none => return none

/-- Reads a character or an escape in a class. -/
def readMember (f : Flags) : Reader Item := do
  let c ← next
  if c == '\\' then readEscape f else return .char c

/-- A range of characters. Without other characters than those of the basic block, it has none. -/
def rangeOf? (f : Flags) (a b : Char) : Option CharSet :=
  if a ≤ b && (f.unicode || isBasic b) then some (.range a b) else none

/-- Whether a hyphen that comes next stands between the ends of a range. -/
def startsRange (f : Flags) : List Char → Bool
  | '-' :: cs => match if f.verbose then behindBlanks false cs else cs with
    | ']' :: _ | '-' :: _ => false
    | _ => true
  | _ => false

/-- Reads a character, a range or a set in a class. -/
def readRange (f : Flags) : Reader CharSet := do
  let item ← readMember f
  space f
  match item with
  | .assertion _ => failure
  | .set s => if startsRange f (← ahead) then failure else return s
  | .char a =>
    if startsRange f (← ahead) then
      discard next
      space f
      match ← readMember f with
      | .char b => rangeOf? f a b
      | _ => failure
    else rangeOf? f a a

/-- Reads a class behind its front. The first argument bounds the number of steps. -/
def readClass (f : Flags) : Nat → OpenClass → Reader CharSet
  | 0, _ => failure
  | limit + 1, p => do
    space f
    if (← ahead).head? == some '[' then
      match ← readNamed f with
      | some s => readClass f limit (p.add s)
      | none =>
        discard next
        let s ← readClass f limit (← openClass f)
        readClass f limit (p.add s)
    else if ← eat "]" then p.close f
    else if ← eat "&&" then readClass f limit (p.operate f .meet)
    else if ← eat "--" then readClass f limit (p.operate f .minus)
    else if ← eat "~~" then readClass f limit (p.operate f .differ)
    else
      let s ← readRange f
      readClass f limit (p.add s)

/-! ## Repetitions -/

/-- The digits that come next. The first argument bounds the number of steps. -/
def decimals (f : Flags) : Nat → Reader (List Char)
  | 0 => return []
  | limit + 1 => do
    match ← ahead with
    | c :: cs =>
      if isDigit c then
        leave cs
        space f
        return c :: (← decimals f limit)
      else return []
    | [] => return []

/-- Reads a decimal number, with blanks around it. -/
def readCount (f : Flags) : Reader Nat := do
  leave ((← ahead).dropWhile isBlankChar)
  let ds ← decimals f (← ahead).length
  leave ((← ahead).dropWhile isBlankChar)
  space f
  let n := ds.foldl (fun n c => n * 10 + (c.toNat - 48)) 0
  if ds.isEmpty || n ≥ UInt32.size then failure
  return n

/-- Reads the bounds of a repetition behind the opening brace. -/
def readBounds (f : Flags) : Reader (Nat × Option Nat) := do
  space f
  let low ← readCount f
  if ← eat "\x7d" then return (low, some low)
  unless ← eat "," do failure
  space f
  if ← eat "\x7d" then return (low, none)
  let high ← readCount f
  unless (← eat "\x7d") && low ≤ high do failure
  return (low, some high)

/-! ## Groups -/

/-- What stands behind the opening parenthesis of a group. -/
inductive Opening where
  /-- A group, and how it is taken. -/
  | group (f : Flags)
  /-- Only how the rest of the enclosing group is taken. -/
  | setting (f : Flags)

/-- Reads the name of a group up to its closing bracket. No two groups have one name. -/
def readName : Reader Unit := do
  let name := (← ahead).takeWhile (· != '>')
  let isPart (c : Char) : Bool := isAlphanumeric c || c == '_' || c == '.' || c == '[' || c == ']'
  unless (name.head?.any fun c => isAlphabetic c || c == '_') && name.all isPart do failure
  if (← get).names.contains name then failure
  leave ((← ahead).drop name.length)
  unless ← eat ">" do failure
  modify fun s => { s with names := name :: s.names }

/-- How a group is taken behind a letter; with `on` unset, behind the letter and a minus. -/
def Flags.set (f : Flags) (on : Bool) (letter : Char) : Flags :=
  match letter with
  | 'i' => { f with fold := on }
  | 'm' => { f with lines := on }
  | 's' => { f with dotAll := on }
  | 'R' => { f with returns := on }
  | 'u' => { f with unicode := on }
  | 'x' => { f with verbose := on }
  | _ => f

/-- How a group is taken behind some letters. Each letter stands there once, and one stands behind a minus. -/
def Flags.behind? (f : Flags) (letters : List Char) : Option Flags :=
  let isKnown := letters.all fun c => "imsRUux-".toList.contains c
  if isKnown && letters.eraseDups.length == letters.length && letters.getLast? != some '-' then
    let on := letters.takeWhile (· != '-')
    let off := letters.drop (on.length + 1)
    some (off.foldl (fun f c => f.set false c) (on.foldl (fun f c => f.set true c) f))
  else none

/-- Reads what stands behind the opening parenthesis of a group. -/
def readOpening (f : Flags) : Reader Opening := do
  space f
  if (← eat "?P<") || (← eat "?<") then
    readName
    return .group f
  else if ← eat "?" then
    let letters := (← ahead).takeWhile fun c => c != ':' && c != ')'
    leave ((← ahead).drop letters.length)
    let inner ← f.behind? letters
    if ← eat ":" then return .group inner
    unless (← eat ")") && !letters.isEmpty do failure
    return .setting inner
  else return .group f

/-! ## Expressions -/

/-- What has been read of a group: the alternatives before the last bar, and the reversed items behind
it, where `none` stands for a setting. -/
structure Partial where
  alternatives : Option Regex
  items : List (Option Regex)

namespace Partial

/-- The group before anything is read. -/
def start : Partial := ⟨none, []⟩

/-- The expression of what has been read. -/
def close (p : Partial) : Regex :=
  let last := concat (p.items.reverse.filterMap id)
  match p.alternatives with
  | some r => alt r last
  | none => last

def push (p : Partial) (r : Regex) : Partial := { p with items := some r :: p.items }

/-- Repeats the last item; there has to be one that can be repeated. -/
def repeatLast (p : Partial) (low : Nat) (high : Option Nat) : Option Partial :=
  match p.items with
  | some r :: items =>
    if r.size * (max low (high.getD 0) + 1) > sizeLimit then none
    else some { p with items := some (repeated r low high) :: items }
  | _ => none

end Partial

/-- One character as it is written, in either case where case is ignored. -/
def literal (f : Flags) (c : Char) : Regex :=
  set (if f.unicode || isBasic c then fold f (.single c) else .single c)

/-- What a dot stands for. Without all characters, it would match parts of them. -/
def dot? (f : Flags) : Option Regex :=
  if !f.unicode then none
  else if f.dotAll then some (set (.complement .empty))
  else some (set (.complement (.ofList (if f.returns then ['\r', '\n'] else ['\n']))))

/-- Reads what stands behind a backslash outside of classes. -/
def readEscaped (f : Flags) : Reader Regex := do
  match ← readEscape f with
  | .char c => return literal f c
  | .set s => return set s
  | .assertion a => return assert a

/-- Reads a group up to its closing parenthesis, or up to the end of the text. The first argument
bounds the number of steps. -/
def readGroup : Nat → Flags → Partial → Reader Regex
  | 0, _, _ => failure
  | limit + 1, f, p => do
    space f
    match ← ahead with
    | [] => return p.close
    | ')' :: _ => return p.close
    | c :: cs =>
      leave cs
      match c with
      | '|' => readGroup limit f ⟨some p.close, []⟩
      | '(' =>
        match ← readOpening f with
        | .setting f => readGroup limit f { p with items := none :: p.items }
        | .group inner =>
          let r ← readGroup limit inner .start
          unless ← eat ")" do failure
          readGroup limit f (p.push r)
      | '*' | '+' | '?' =>
        let p ← p.repeatLast (if c == '+' then 1 else 0) (if c == '?' then some 1 else none)
        -- a further mark makes a repetition prefer fewer turns, which is the same for a search
        discard (eat "?")
        readGroup limit f p
      | '\x7b' =>
        let (low, high) ← readBounds f
        space f
        let p ← p.repeatLast low high
        discard (eat "?")
        readGroup limit f p
      | '[' =>
        let s ← readClass f limit (← openClass f)
        readGroup limit f (p.push (set s))
      | '.' => readGroup limit f (p.push (← dot? f))
      | '^' => readGroup limit f (p.push (assert (if f.lines then .lineFirst f.returns else .first)))
      | '$' => readGroup limit f (p.push (assert (if f.lines then .lineLast f.returns else .last)))
      | '\\' => readGroup limit f (p.push (← readEscaped f))
      | c => readGroup limit f (p.push (literal f c))

/-- The expression that a text writes. -/
def read? (text : String) : Option Regex :=
  match (readGroup (2 * text.length + 2) {} .start).run ⟨text.toList, []⟩ with
  | some (r, ⟨[], _⟩) => if r.size > sizeLimit then none else some r
  | _ => none

end Relink.Regex
