import Relink.Script.Scan
import Relink.Script.Tree

/-!
# Parsers over tokens

A parser reads tokens from a cursor under a context and gives a result or refuses. Where the grammar
is recursive, a rule refers to other rules through a `Grammar`, so each rule is an ordinary
definition and the knot is tied in one place, by recursion on a limit.

* `Context` — what may be written here: `in` as an operator, `yield`, `await`, `return`.
* `Cursor` — the current token, the text behind it, the comments passed so far.
* `variableName`, `endStatement` — the two rules on which most others lean.
-/

namespace Relink.Script

/-- What the surrounding text permits. -/
structure Context where
  /-- HTML comments are comments. -/
  script : Bool
  /-- The word `in` is an operator. -/
  allowIn : Bool
  /-- The word `yield` is an operator. -/
  yields : Bool
  /-- The word `await` is an operator. -/
  awaits : Bool
  /-- A function may be left. -/
  returns : Bool
  deriving DecidableEq, Repr, Inhabited

/-- Where a parser stands: the current token, the text behind it, the end of the token before it,
and the comments passed so far, the last one first. -/
structure Cursor where
  token : Token
  after : Place
  lastStop : Nat
  comments : List Span
  deriving Repr, Inhabited

/-- Parsers: a result and a new cursor, or nothing. -/
abbrev Parser := ReaderT Context (StateT Cursor Option)

/-- The rules of the grammar that others refer to. -/
inductive Goal where
  /-- A statement; `single` where a declaration has no place. -/
  | statement (single : Bool)
  | expression
  | assignment
  /-- An operation whose operators bind tighter than `above`. -/
  | operation (above : Nat)
  | unary
  | leftHand
  /-- What stands behind `new`: a member access without calls. -/
  | callee
  | pattern
  deriving DecidableEq, Repr, Inhabited

/-- The rules of a grammar, and a bound on the length of the lists that they read. -/
structure Grammar where
  parse : Goal → Parser Node
  limit : Nat

namespace Parser

/-! ## Tokens -/

def current : Parser Token := return (← get).token

/-- Moves to the next token. -/
def advance : Parser Unit := do
  let context ← read
  modify fun c =>
    let s := scanToken context.script false c.after
    ⟨s.token, s.after, c.token.span.stop, s.comments ++ c.comments⟩

/-- The token behind the current one. -/
def upcoming : Parser Token := do
  return (scanToken (← read).script false (← get).after).token

/-- The second token behind the current one. -/
def afterUpcoming : Parser Token := do
  let script := (← read).script
  return (scanToken script false (scanToken script false (← get).after).after).token

/-- Where the current token starts. -/
def here : Parser Nat := return (← current).span.start

/-- Closes a node that began at `start`. -/
def node (start : Nat) (kind : Kind) (parts : List Node) : Parser Node :=
  return .mk kind ⟨start, (← get).lastStop⟩ parts

end Parser

/-- Whether a token is the given punctuator. -/
def Token.isPunct (t : Token) (p : Punct) : Bool :=
  t.lexeme == .punct p

/-- Whether a token is the given word, written without escapes. -/
def Token.isWord (t : Token) (w : Word) : Bool :=
  match t.lexeme with
  | .word v _ false => v == w
  | _ => false

/-- Whether a token is a word of any kind. -/
def Token.isName (t : Token) : Bool :=
  match t.lexeme with
  | .word .. => true
  | _ => false

/-- Whether a token may be the name of a variable in a context. -/
def Token.isVariable (t : Token) (context : Context) : Bool :=
  match t.lexeme with
  | .word .kAwait _ _ => !context.awaits
  | .word .kYield _ _ => !context.yields
  | .word w _ _ => !w.isReserved
  | _ => false

/-- Whether a token is an arrow on the line of the token before it. -/
def Token.isArrow (t : Token) : Bool :=
  t.isPunct .arrow && !t.lineBefore

namespace Parser

def atPunct (p : Punct) : Parser Bool := return (← current).isPunct p

def atWord (w : Word) : Parser Bool := return (← current).isWord w

/-- Moves on when the current token is `p`, and says whether it was. -/
def eatPunct (p : Punct) : Parser Bool := do
  if ← atPunct p then advance; return true else return false

/-- Moves on when the current token is the word `w`, and says whether it was. -/
def eatWord (w : Word) : Parser Bool := do
  if ← atWord w then advance; return true else return false

def expectPunct (p : Punct) : Parser Unit := do
  unless ← eatPunct p do failure

def expectWord (w : Word) : Parser Unit := do
  unless ← eatWord w do failure

/-- The name of a variable. -/
def variableName : Parser String := do
  let t ← current
  unless t.isVariable (← read) do failure
  match t.lexeme with
  | .word _ text _ => advance; return String.ofList text
  | _ => failure

/-- Any word, as the name of a property. -/
def anyName : Parser String := do
  match (← current).lexeme with
  | .word _ text _ => advance; return String.ofList text
  | _ => failure

/-- The value of a string literal. -/
def stringValue : Parser String := do
  match (← current).lexeme with
  | .string value _ => advance; return String.ofList value
  | _ => failure

/-- Whether a statement may end here without a semicolon. -/
def mayEnd : Parser Bool := do
  let t ← current
  return t.lineBefore || t.isPunct .semi || t.isPunct .rbrace || t.lexeme == .stop

/-- The end of a statement: a semicolon, or a place where one is understood. -/
def endStatement : Parser Unit := do
  unless ← mayEnd do failure
  discard (eatPunct .semi)

/-! ## Lists -/

/-- Reads items until the current token satisfies `stop`, at most `limit` of them. -/
def many (limit : Nat) (stop : Token → Bool) (item : Parser Node) : Parser (List Node) :=
  match limit with
  | 0 => failure
  | limit + 1 => do
    if stop (← current) then return []
    let x ← item
    return x :: (← many limit stop item)

/-- Reads items with commas between them up to the punctuator `close`, and says whether a comma
stood in front of it. -/
def commaList (limit : Nat) (close : Punct) (item : Parser Node) : Parser (List Node × Bool) :=
  match limit with
  | 0 => failure
  | limit + 1 => do
    if ← eatPunct close then return ([], false)
    let x ← item
    if ← eatPunct .comma then
      if ← eatPunct close then return ([x], true)
      let (xs, trailing) ← commaList limit close item
      return (x :: xs, trailing)
    expectPunct close
    return ([x], false)

/-! ## Contexts -/

/-- Reads where `in` is an operator. -/
def withIn {α : Type} (p : Parser α) : Parser α :=
  withReader (fun c : Context => { c with allowIn := true }) p

/-- Reads where `in` is no operator. -/
def withoutIn {α : Type} (p : Parser α) : Parser α :=
  withReader (fun c : Context => { c with allowIn := false }) p

/-- Reads inside a function of the given kind. -/
def insideFunction {α : Type} (async generator : Bool) (p : Parser α) : Parser α :=
  withReader (fun c : Context =>
    { c with allowIn := true, yields := generator, awaits := async, returns := true }) p

end Parser

end Relink.Script
