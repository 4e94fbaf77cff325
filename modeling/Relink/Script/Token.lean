import Relink.Text.Place

/-!
# Tokens of JavaScript

A token is a word, a private name, a number, a string, a piece of a template, a punctuator, the end
of the text, or a mistake. Words keep their text; those that the grammar mentions also carry a
constructor of `Word`, so that the grammar decides on constructors and not on text.

* `Word.ofChars` — the word that a text spells; `Word.isReserved` — which words name nothing.
* `Punct.ofChars` — the longest punctuator that a text starts with.
-/

namespace Relink.Script

/-- Words that the grammar mentions; every other name is `plain`. -/
inductive Word where
  | kBreak | kCase | kCatch | kClass | kConst | kContinue | kDebugger | kDefault | kDelete | kDo
  | kElse | kEnum | kExport | kExtends | kFalse | kFinally | kFor | kFunction | kIf | kImport
  | kIn | kInstanceof | kNew | kNull | kReturn | kSuper | kSwitch | kThis | kThrow | kTrue
  | kTry | kTypeof | kVar | kVoid | kWhile | kWith
  | kAwait | kYield
  | kAccessor | kAs | kAssert | kAsync | kConstructor | kDefer | kFrom | kGet | kLet | kMeta | kOf
  | kPrototype | kSet | kSource | kStatic | kTarget | kUsing
  | plain
  deriving DecidableEq, Repr, Inhabited

namespace Word

/-- The word with the given text. -/
def ofChars : List Char → Word
  | ['b', 'r', 'e', 'a', 'k'] => kBreak
  | ['c', 'a', 's', 'e'] => kCase
  | ['c', 'a', 't', 'c', 'h'] => kCatch
  | ['c', 'l', 'a', 's', 's'] => kClass
  | ['c', 'o', 'n', 's', 't'] => kConst
  | ['c', 'o', 'n', 't', 'i', 'n', 'u', 'e'] => kContinue
  | ['d', 'e', 'b', 'u', 'g', 'g', 'e', 'r'] => kDebugger
  | ['d', 'e', 'f', 'a', 'u', 'l', 't'] => kDefault
  | ['d', 'e', 'l', 'e', 't', 'e'] => kDelete
  | ['d', 'o'] => kDo
  | ['e', 'l', 's', 'e'] => kElse
  | ['e', 'n', 'u', 'm'] => kEnum
  | ['e', 'x', 'p', 'o', 'r', 't'] => kExport
  | ['e', 'x', 't', 'e', 'n', 'd', 's'] => kExtends
  | ['f', 'a', 'l', 's', 'e'] => kFalse
  | ['f', 'i', 'n', 'a', 'l', 'l', 'y'] => kFinally
  | ['f', 'o', 'r'] => kFor
  | ['f', 'u', 'n', 'c', 't', 'i', 'o', 'n'] => kFunction
  | ['i', 'f'] => kIf
  | ['i', 'm', 'p', 'o', 'r', 't'] => kImport
  | ['i', 'n'] => kIn
  | ['i', 'n', 's', 't', 'a', 'n', 'c', 'e', 'o', 'f'] => kInstanceof
  | ['n', 'e', 'w'] => kNew
  | ['n', 'u', 'l', 'l'] => kNull
  | ['r', 'e', 't', 'u', 'r', 'n'] => kReturn
  | ['s', 'u', 'p', 'e', 'r'] => kSuper
  | ['s', 'w', 'i', 't', 'c', 'h'] => kSwitch
  | ['t', 'h', 'i', 's'] => kThis
  | ['t', 'h', 'r', 'o', 'w'] => kThrow
  | ['t', 'r', 'u', 'e'] => kTrue
  | ['t', 'r', 'y'] => kTry
  | ['t', 'y', 'p', 'e', 'o', 'f'] => kTypeof
  | ['v', 'a', 'r'] => kVar
  | ['v', 'o', 'i', 'd'] => kVoid
  | ['w', 'h', 'i', 'l', 'e'] => kWhile
  | ['w', 'i', 't', 'h'] => kWith
  | ['a', 'w', 'a', 'i', 't'] => kAwait
  | ['y', 'i', 'e', 'l', 'd'] => kYield
  | ['a', 'c', 'c', 'e', 's', 's', 'o', 'r'] => kAccessor
  | ['a', 's'] => kAs
  | ['a', 's', 's', 'e', 'r', 't'] => kAssert
  | ['a', 's', 'y', 'n', 'c'] => kAsync
  | ['c', 'o', 'n', 's', 't', 'r', 'u', 'c', 't', 'o', 'r'] => kConstructor
  | ['d', 'e', 'f', 'e', 'r'] => kDefer
  | ['f', 'r', 'o', 'm'] => kFrom
  | ['g', 'e', 't'] => kGet
  | ['l', 'e', 't'] => kLet
  | ['m', 'e', 't', 'a'] => kMeta
  | ['o', 'f'] => kOf
  | ['p', 'r', 'o', 't', 'o', 't', 'y', 'p', 'e'] => kPrototype
  | ['s', 'e', 't'] => kSet
  | ['s', 'o', 'u', 'r', 'c', 'e'] => kSource
  | ['s', 't', 'a', 't', 'i', 'c'] => kStatic
  | ['t', 'a', 'r', 'g', 'e', 't'] => kTarget
  | ['u', 's', 'i', 'n', 'g'] => kUsing
  | _ => plain

/-- Words that are never the name of a variable, in any context. -/
def isReserved : Word → Bool
  | kBreak | kCase | kCatch | kClass | kConst | kContinue | kDebugger | kDefault | kDelete | kDo
  | kElse | kEnum | kExport | kExtends | kFalse | kFinally | kFor | kFunction | kIf | kImport
  | kIn | kInstanceof | kNew | kNull | kReturn | kSuper | kSwitch | kThis | kThrow | kTrue
  | kTry | kTypeof | kVar | kVoid | kWhile | kWith => true
  | _ => false

end Word

/-- Punctuators. -/
inductive Punct where
  | lbrace | rbrace | lparen | rparen | lbrack | rbrack
  | dot | ellipsis | semi | comma | atSign | arrow | question | questionDot | colon
  | lt | gt | le | ge | eqEq | notEq | eqEqEq | notEqEq
  | plus | minus | star | slash | percent | starStar | plusPlus | minusMinus
  | shl | shr | ushr | amp | pipe | caret | bang | tilde | ampAmp | pipePipe | questionQuestion
  | assign | plusAssign | minusAssign | starAssign | slashAssign | percentAssign | starStarAssign
  | shlAssign | shrAssign | ushrAssign | ampAssign | pipeAssign | caretAssign
  | ampAmpAssign | pipePipeAssign | questionQuestionAssign
  deriving DecidableEq, Repr, Inhabited

namespace Punct

/-- The longest punctuator that a text starts with, and its number of characters. A question mark
and a dot before a digit are two tokens. -/
def ofChars : List Char → Option (Punct × Nat)
  | '\x7b' :: _ => some (lbrace, 1)
  | '\x7d' :: _ => some (rbrace, 1)
  | '(' :: _ => some (lparen, 1)
  | ')' :: _ => some (rparen, 1)
  | '[' :: _ => some (lbrack, 1)
  | ']' :: _ => some (rbrack, 1)
  | '.' :: '.' :: '.' :: _ => some (ellipsis, 3)
  | '.' :: _ => some (dot, 1)
  | ';' :: _ => some (semi, 1)
  | ',' :: _ => some (comma, 1)
  | '@' :: _ => some (atSign, 1)
  | ':' :: _ => some (colon, 1)
  | '~' :: _ => some (tilde, 1)
  | '<' :: '<' :: '=' :: _ => some (shlAssign, 3)
  | '<' :: '<' :: _ => some (shl, 2)
  | '<' :: '=' :: _ => some (le, 2)
  | '<' :: _ => some (lt, 1)
  | '>' :: '>' :: '>' :: '=' :: _ => some (ushrAssign, 4)
  | '>' :: '>' :: '>' :: _ => some (ushr, 3)
  | '>' :: '>' :: '=' :: _ => some (shrAssign, 3)
  | '>' :: '>' :: _ => some (shr, 2)
  | '>' :: '=' :: _ => some (ge, 2)
  | '>' :: _ => some (gt, 1)
  | '=' :: '=' :: '=' :: _ => some (eqEqEq, 3)
  | '=' :: '=' :: _ => some (eqEq, 2)
  | '=' :: '>' :: _ => some (arrow, 2)
  | '=' :: _ => some (assign, 1)
  | '!' :: '=' :: '=' :: _ => some (notEqEq, 3)
  | '!' :: '=' :: _ => some (notEq, 2)
  | '!' :: _ => some (bang, 1)
  | '+' :: '+' :: _ => some (plusPlus, 2)
  | '+' :: '=' :: _ => some (plusAssign, 2)
  | '+' :: _ => some (plus, 1)
  | '-' :: '-' :: _ => some (minusMinus, 2)
  | '-' :: '=' :: _ => some (minusAssign, 2)
  | '-' :: _ => some (minus, 1)
  | '*' :: '*' :: '=' :: _ => some (starStarAssign, 3)
  | '*' :: '*' :: _ => some (starStar, 2)
  | '*' :: '=' :: _ => some (starAssign, 2)
  | '*' :: _ => some (star, 1)
  | '/' :: '=' :: _ => some (slashAssign, 2)
  | '/' :: _ => some (slash, 1)
  | '%' :: '=' :: _ => some (percentAssign, 2)
  | '%' :: _ => some (percent, 1)
  | '&' :: '&' :: '=' :: _ => some (ampAmpAssign, 3)
  | '&' :: '&' :: _ => some (ampAmp, 2)
  | '&' :: '=' :: _ => some (ampAssign, 2)
  | '&' :: _ => some (amp, 1)
  | '|' :: '|' :: '=' :: _ => some (pipePipeAssign, 3)
  | '|' :: '|' :: _ => some (pipePipe, 2)
  | '|' :: '=' :: _ => some (pipeAssign, 2)
  | '|' :: _ => some (pipe, 1)
  | '^' :: '=' :: _ => some (caretAssign, 2)
  | '^' :: _ => some (caret, 1)
  | '?' :: '?' :: '=' :: _ => some (questionQuestionAssign, 3)
  | '?' :: '?' :: _ => some (questionQuestion, 2)
  | '?' :: '.' :: d :: _ =>
    if '0' ≤ d && d ≤ '9' then some (question, 1) else some (questionDot, 2)
  | '?' :: '.' :: [] => some (questionDot, 2)
  | '?' :: _ => some (question, 1)
  | _ => none

/-- Assignment operators. -/
def isAssignment : Punct → Bool
  | assign | plusAssign | minusAssign | starAssign | slashAssign | percentAssign | starStarAssign
  | shlAssign | shrAssign | ushrAssign | ampAssign | pipeAssign | caretAssign
  | ampAmpAssign | pipePipeAssign | questionQuestionAssign => true
  | _ => false

/-- How tightly a binary operator binds; `none` for a punctuator that is no binary operator. -/
def precedence : Punct → Option Nat
  | questionQuestion => some 1
  | pipePipe => some 2
  | ampAmp => some 3
  | pipe => some 4
  | caret => some 5
  | amp => some 6
  | eqEq | notEq | eqEqEq | notEqEq => some 7
  | lt | gt | le | ge => some 8
  | shl | shr | ushr => some 9
  | plus | minus => some 10
  | star | slash | percent => some 11
  | starStar => some 12
  | _ => none

end Punct

/-- What a token is. -/
inductive Lexeme where
  /-- An identifier or keyword with its text; `escaped` when a character of it is written as an
  escape. -/
  | word (word : Word) (text : List Char) (escaped : Bool)
  | privateName (text : List Char)
  | number
  /-- A string literal with its value, and whether the value has no half characters. -/
  | string (value : List Char) (whole : Bool)
  /-- A piece of a template up to a substitution, or up to its end when `last`; `wellEscaped` when
  each escape in it has a meaning. -/
  | template (last : Bool) (wellEscaped : Bool)
  | regex
  | punct (punct : Punct)
  | stop
  /-- No token starts here. -/
  | mistake
  deriving DecidableEq, Repr, Inhabited

/-- A token with its place: `lineBefore` when a line ends between it and the token before it. -/
structure Token where
  lexeme : Lexeme
  span : Span
  lineBefore : Bool
  deriving DecidableEq, Repr, Inhabited

end Relink.Script
