import Relink.Script.Parser

/-!
# Functions, objects and classes

The rules for what holds function bodies: declarations of variables by pattern, parameters, bodies,
the properties of objects and the members of classes.
-/

namespace Relink.Script.Grammar

open Script.Parser

/-! ## Patterns -/

/-- A pattern with or without a default. -/
def element (g : Grammar) : Parser Node := do
  let start ← here
  let target ← g.parse .pattern
  if ← eatPunct .assign then
    let value ← withIn (g.parse .assignment)
    node start .defaulted [target, value]
  else return target

/-- An element of an array pattern. A gap does not consume its comma. -/
def arrayElement (g : Grammar) : Parser Node := do
  let start ← here
  if ← atPunct .comma then node start .elision []
  else if ← eatPunct .ellipsis then
    let target ← g.parse .pattern
    unless ← atPunct .rbrack do failure
    node start .rest [target]
  else element g

/-- A key of a property or member: its name when it is written as a plain name, the text that it
spells when that is fixed, and its nodes. -/
structure Key where
  name : Option String
  text : Option String
  isPrivate : Bool
  parts : List Node

/-- The key of a property; private names are keys in classes only. -/
def propertyKey (g : Grammar) (inClass : Bool) : Parser Key := do
  let start ← here
  match (← current).lexeme with
  | .word _ text _ =>
    advance
    return ⟨some (String.ofList text), some (String.ofList text), false, []⟩
  | .string value _ =>
    advance
    return ⟨none, some (String.ofList value), false, [← node start (.string (String.ofList value)) []]⟩
  | .number =>
    advance
    return ⟨none, none, false, [← node start .literal []]⟩
  | .privateName text =>
    unless inClass do failure
    advance
    let name := String.ofList text
    return ⟨none, some name, true, [← node start (.privateName name) []]⟩
  | .punct .lbrack =>
    advance
    let e ← withIn (g.parse .assignment)
    expectPunct .rbrack
    return ⟨none, none, false, [e]⟩
  | _ => failure

/-- A property of an object pattern. -/
def patternProperty (g : Grammar) : Parser Node := do
  let start ← here
  if ← eatPunct .ellipsis then
    let name ← variableName
    let target ← node start (.binding name) []
    unless ← atPunct .rbrace do failure
    node start .rest [target]
  else
    let first ← current
    let canBeShort := first.isVariable (← read)
    let key ← propertyKey g false
    if ← eatPunct .colon then
      let target ← element g
      node start .patternProperty (key.parts ++ [target])
    else
      match key.name with
      | some name =>
        unless canBeShort do failure
        let target ← node start (.binding name) []
        if ← eatPunct .assign then
          let value ← withIn (g.parse .assignment)
          node start .patternProperty [← node start .defaulted [target, value]]
        else node start .patternProperty [target]
      | none => failure

/-- A declared name, or a pattern that takes a value apart. -/
def pattern (g : Grammar) : Parser Node := do
  let start ← here
  if ← eatPunct .lbrack then
    let (es, _) ← commaList g.limit .rbrack (arrayElement g)
    node start .arrayPattern es
  else if ← eatPunct .lbrace then
    let (ps, _) ← commaList g.limit .rbrace (patternProperty g)
    node start .objectPattern ps
  else
    let name ← variableName
    node start (.binding name) []

/-! ## Functions -/

/-- A parameter of a function. -/
def parameter (g : Grammar) : Parser Node := do
  let start ← here
  if ← eatPunct .ellipsis then
    let target ← g.parse .pattern
    unless ← atPunct .rparen do failure
    node start .rest [target]
  else element g

/-- The parameters of a function, with their parentheses. -/
def parameters (g : Grammar) : Parser Node := do
  let start ← here
  expectPunct .lparen
  let (ps, _) ← commaList g.limit .rparen (parameter g)
  node start .params ps

/-- Turns the string statements at the front of a body into directives. -/
def markDirectives : List Node → List Node
  | .mk .expressionStatement s [.mk (.string v) t []] :: rest =>
    .mk (.directive v) s [.mk (.string v) t []] :: markDirectives rest
  | rest => rest

/-- The statements up to the closing brace of a body. -/
def statementsToBrace (g : Grammar) : Parser (List Node) := do
  let xs ← many g.limit (·.isPunct .rbrace) (withIn (g.parse (.statement false)))
  expectPunct .rbrace
  return xs

/-- The body of a function, with its braces. -/
def functionBody (g : Grammar) : Parser Node := do
  let start ← here
  expectPunct .lbrace
  let xs ← statementsToBrace g
  node start .body (markDirectives xs)

/-- A function from its parameters on. -/
def functionRest (g : Grammar) (start : Nat) (name : Option String) (async generator : Bool) :
    Parser Node :=
  insideFunction async generator do
    let ps ← parameters g
    let b ← functionBody g
    node start (.function name) [ps, b]

/-- A function expression, from the word `function` on; its name is read inside the function. -/
def functionExpression (g : Grammar) (start : Nat) (async : Bool) : Parser Node := do
  expectWord .kFunction
  let generator ← eatPunct .star
  let name ←
    if ← atPunct .lparen then pure none
    else some <$> insideFunction async generator variableName
  functionRest g start name async generator

/-- A function declaration, from the word `function` on; only the function of a default export may
have no name. -/
def functionDeclaration (g : Grammar) (start : Nat) (async plainOnly mayBeNameless : Bool) :
    Parser Node := do
  expectWord .kFunction
  let generator ← eatPunct .star
  if plainOnly && (async || generator) then failure
  let name ←
    if mayBeNameless && (← atPunct .lparen) then pure none
    else some <$> variableName
  functionRest g start name async generator

/-- Whether a getter has no parameter and a setter exactly one that is no rest. -/
def accessorFits (getter setter : Bool) : Node → Bool
  | .mk (.function _) _ (.mk .params _ ps :: _) =>
    (!getter || ps.isEmpty) &&
      (!setter || match ps with
        | [p] => p.kind != .rest
        | _ => false)
  | _ => true

/-! ## Objects -/

/-- Whether the current word stands in front of a key, and so is no key itself. -/
def isModifier (t next : Token) (sameLine : Bool) : Bool :=
  t.isName && !(next.lineBefore && sameLine) &&
    match next.lexeme with
    | .punct .lparen | .punct .assign | .punct .semi | .punct .rbrace | .punct .comma
    | .punct .colon | .stop | .mistake => false
    | _ => true

/-- The words in front of a method: `async` and `get` or `set`, and the star of a generator. -/
structure Modifiers where
  async : Bool
  generator : Bool
  getter : Bool
  setter : Bool

def Modifiers.any (m : Modifiers) : Bool :=
  m.async || m.generator || m.getter || m.setter

/-- Reads the words in front of a key. -/
def modifiers : Parser Modifiers := do
  let async := (← atWord .kAsync) && isModifier (← current) (← upcoming) true
  if async then advance
  let generator ← eatPunct .star
  if async || generator then return ⟨async, generator, false, false⟩
  let next ← upcoming
  let applies := isModifier (← current) next false && !next.isPunct .star
  let getter := (← atWord .kGet) && applies
  let setter := (← atWord .kSet) && applies
  if getter || setter then advance
  return ⟨false, false, getter, setter⟩

/-- A property of an object. -/
def property (g : Grammar) : Parser Node := do
  let start ← here
  if ← eatPunct .ellipsis then
    let e ← withIn (g.parse .assignment)
    node start .spread [e]
  else
    let m ← modifiers
    let first ← current
    let canBeShort := first.isVariable (← read) && !m.any
    let key ← propertyKey g false
    if ← atPunct .lparen then
      let f ← functionRest g (← here) none m.async m.generator
      unless accessorFits m.getter m.setter f do failure
      node start (.property key.name .method) (key.parts ++ [f])
    else if m.any then failure
    else if ← eatPunct .colon then
      let value ← withIn (g.parse .assignment)
      node start (.property key.name .keyed) (key.parts ++ [value])
    else
      match key.name with
      | some name =>
        unless canBeShort do failure
        if ← eatPunct .assign then
          let value ← withIn (g.parse .assignment)
          node start (.shorthandDefault name) [value]
        else
          let value ← node start (.identifier name) []
          node start (.property key.name .shorthand) [value]
      | none => failure

/-- An object. -/
def object (g : Grammar) : Parser Node := do
  let start ← here
  expectPunct .lbrace
  let (ps, trailing) ← commaList g.limit .rbrace (property g)
  node start (.object trailing) ps

/-! ## Classes -/

/-- Decorators in front of a class or member. -/
def decorators (g : Grammar) : Parser (List Node) :=
  many g.limit (fun t => !t.isPunct .atSign) do
    let start ← here
    expectPunct .atSign
    let e ← g.parse .leftHand
    node start .decorator [e]

/-- Whether a member with this key and these words may stand in a class: the constructor is an
ordinary method, and neither a private name nor a field is called `constructor`, nor a static member
`prototype`. -/
def memberFits (key : Key) (isStatic isMethod : Bool) (m : Modifiers) : Bool :=
  if key.isPrivate then key.text != some "constructor"
  else if key.text == some "constructor" then
    if isMethod then isStatic || !m.any else false
  else !(isStatic && key.text == some "prototype")

/-- A member of a class. -/
def classMember (g : Grammar) : Parser Node := do
  let start ← here
  if ← eatPunct .semi then node start .empty []
  else
    let ds ← decorators g
    let next ← upcoming
    let isStatic := (← atWord .kStatic) && isModifier (← current) next false
    if isStatic then advance
    if isStatic && (← atPunct .lbrace) then
      advance
      let xs ← withReader
        (fun c : Context =>
          { c with allowIn := true, awaits := true, yields := false, returns := false })
        (statementsToBrace g)
      node start .staticBlock xs
    else
      let m ← modifiers
      let isAccessor :=
        !m.any && (← atWord .kAccessor) && isModifier (← current) (← upcoming) true
      if isAccessor then advance
      let key ← propertyKey g true
      if (← atPunct .lparen) && !isAccessor then
        unless memberFits key isStatic true m do failure
        let f ← functionRest g (← here) none m.async m.generator
        unless accessorFits m.getter m.setter f do failure
        node start .classMember (ds ++ key.parts ++ [f])
      else if m.any then failure
      else
        unless memberFits key isStatic false m do failure
        let value ←
          if ← eatPunct .assign then
            let v ← withReader
              (fun c : Context => { c with allowIn := true, awaits := false, yields := false })
              (g.parse .assignment)
            pure [v]
          else pure []
        endStatement
        node start .classMember (ds ++ key.parts ++ value)

/-- A class from the word `class` on. -/
def classRest (g : Grammar) (start : Nat) (ds : List Node) : Parser Node := do
  expectWord .kClass
  let name ←
    if (← atPunct .lbrace) || (← atWord .kExtends) then pure none
    else some <$> variableName
  let heritage ←
    if ← eatWord .kExtends then
      let e ← g.parse .leftHand
      pure [e]
    else pure []
  expectPunct .lbrace
  let ms ← many g.limit (·.isPunct .rbrace) (classMember g)
  expectPunct .rbrace
  node start (.class name) (ds ++ heritage ++ ms)

end Relink.Script.Grammar
