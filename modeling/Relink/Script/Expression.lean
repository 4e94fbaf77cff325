import Relink.Script.Function
import Relink.Script.Pattern

/-!
# Expressions

The rules for expressions, from primaries up to assignments and sequences. An arrow function is
recognised behind its parameters, which have been read as an expression or as arguments by then.
-/

namespace Relink.Script.Grammar

open Script.Parser

/-! ## Templates and regular expressions -/

/-- Reads the current slash, and what follows it, as a regular expression. -/
def rescanRegex : Parser Unit := do
  let c ← get
  let start := c.token.span.start
  let body : List Char :=
    if c.token.isPunct .slashAssign then '=' :: c.after.rest else c.after.rest
  match scanRegex ⟨start + 1, body⟩ with
  | some p => set { c with token := { c.token with lexeme := .regex, span := ⟨start, p.offset⟩ }, after := p }
  | none => failure

/-- Reads the text behind the current closing brace as the next piece of a template. -/
def rescanTemplate : Parser Unit := do
  let c ← get
  unless c.token.isPunct .rbrace do failure
  match scanTemplate true c.after.offset c.after.rest with
  | some (lexeme, p) =>
    set { c with token := { c.token with lexeme := lexeme, span := ⟨c.token.span.start, p.offset⟩ }, after := p }
  | none => failure

/-- The substitutions of a template from the current piece on. An escape without a meaning is
refused unless the template is `tagged`. -/
def templateParts (g : Grammar) (tagged : Bool) : Nat → Parser (List Node)
  | 0 => failure
  | limit + 1 => do
    match (← current).lexeme with
    | .template last well =>
      unless tagged || well do failure
      advance
      if last then return []
      let e ← withIn (g.parse .expression)
      rescanTemplate
      return e :: (← templateParts g tagged limit)
    | _ => failure

/-- A template. -/
def template (g : Grammar) (tagged : Bool) : Parser Node := do
  let start ← here
  let es ← templateParts g tagged g.limit
  node start .template es

/-! ## Primaries -/

/-- An element of an array. A gap does not consume its comma. -/
def arrayItem (g : Grammar) : Parser Node := do
  let start ← here
  if ← atPunct .comma then node start .elision []
  else if ← eatPunct .ellipsis then
    let e ← withIn (g.parse .assignment)
    node start .spread [e]
  else withIn (g.parse .assignment)

/-- An argument of a call. -/
def argument (g : Grammar) : Parser Node := do
  let start ← here
  if ← eatPunct .ellipsis then
    let e ← withIn (g.parse .assignment)
    node start .spread [e]
  else withIn (g.parse .assignment)

/-- The arguments of a call behind the opening parenthesis, and whether a comma ends them. -/
def arguments (g : Grammar) : Parser (List Node × Bool) :=
  commaList g.limit .rparen (argument g)

/-- What stands between parentheses: expressions, and a rest that only parameters may have. -/
def parenItem (g : Grammar) : Parser Node := do
  let start ← here
  if ← eatPunct .ellipsis then
    let target ← g.parse .pattern
    unless ← atPunct .rparen do failure
    node start .rest [target]
  else withIn (g.parse .assignment)

/-- One expression for several with commas between them. -/
def sequenceOf : List Node → Option Node
  | [] => none
  | [e] => some e
  | e :: es => some (.mk .sequence ⟨e.span.start, (es.getLastD e).span.stop⟩ (e :: es))

/-- An expression in parentheses that are not the parameters of an arrow function. -/
def parenthesised (start : Nat) (items : List Node) (trailing : Bool) : Parser Node := do
  if trailing || items.any fun e => e.kind == .rest then failure
  match sequenceOf items with
  | some e => node start .paren [e]
  | none => failure

/-- An expression that starts with the word `import`: a call, or a property of it. -/
def importExpression (g : Grammar) : Parser Node := do
  let start ← here
  expectWord .kImport
  if ← eatPunct .dot then
    if ← eatWord .kMeta then return ← node start .metaProperty []
    unless (← eatWord .kSource) || (← eatWord .kDefer) do failure
  expectPunct .lparen
  let (es, _) ← commaList g.limit .rparen (withIn (g.parse .assignment))
  if es.isEmpty || es.length > 2 then failure
  node start .importCall es

/-- An expression that starts with the word `new`. -/
def newExpression (g : Grammar) : Parser Node := do
  let start ← here
  expectWord .kNew
  if ← eatPunct .dot then
    expectWord .kTarget
    node start .metaProperty []
  else
    let e ← g.parse .callee
    if e.kind == .importCall then failure
    if ← atPunct .questionDot then failure
    if ← eatPunct .lparen then
      let (es, _) ← arguments g
      node start .new (e :: es)
    else node start .new [e]

/-- The expressions that are not built from smaller ones by operators. -/
def primary (g : Grammar) : Parser Node := do
  let start ← here
  let t ← current
  match t.lexeme with
  | .number => advance; node start .literal []
  | .string value _ => advance; node start (.string (String.ofList value)) []
  | .template .. => template g false
  | .punct .slash | .punct .slashAssign => rescanRegex; advance; node start .literal []
  | .punct .lbrack =>
    advance
    let (es, trailing) ← commaList g.limit .rbrack (arrayItem g)
    node start (.array trailing) es
  | .punct .lbrace => object g
  | .punct .lparen =>
    advance
    let (es, trailing) ← commaList g.limit .rparen (parenItem g)
    parenthesised start es trailing
  | .punct .atSign =>
    let ds ← decorators g
    classRest g start ds
  | .word w _ false =>
    match w with
    | .kFunction => functionExpression g start false
    | .kClass => classRest g start []
    | .kThis => advance; node start .this []
    | .kNull | .kTrue | .kFalse => advance; node start .literal []
    | .kNew => newExpression g
    | .kImport => importExpression g
    | .kSuper =>
      advance
      let next ← current
      if next.isPunct .dot || next.isPunct .lbrack || next.isPunct .lparen then
        node start .super []
      else failure
    | .kAsync =>
      let next ← upcoming
      if next.isWord .kFunction && !next.lineBefore then
        advance
        functionExpression g start true
      else
        let name ← variableName
        node start (.identifier name) []
    | _ =>
      let name ← variableName
      node start (.identifier name) []
  | .word .. =>
    let name ← variableName
    node start (.identifier name) []
  | _ => failure

/-! ## Member accesses and calls -/

/-- The name behind a dot. -/
def memberOf (start : Nat) (e : Node) : Parser Node := do
  match (← current).lexeme with
  | .privateName text =>
    advance
    node start (.privateMember (String.ofList text)) [e]
  | _ =>
    let name ← anyName
    node start (.member name) [e]

/-- Closes an expression; one with optional links is wrapped as a whole. -/
def closeChain (optional : Bool) (e : Node) : Parser Node :=
  if optional then node e.span.start .chain [e] else return e

/-- Continues an expression with member accesses, tagged templates and, where `calls` are allowed,
calls and optional links; `optional` once an optional link has been passed. -/
def chain (g : Grammar) (calls : Bool) : Nat → Bool → Node → Parser Node
  | 0, _, _ => failure
  | limit + 1, optional, e => do
    let start := e.span.start
    match (← current).lexeme with
    | .punct .dot =>
      advance
      chain g calls limit optional (← memberOf start e)
    | .punct .lbrack =>
      advance
      let i ← withIn (g.parse .expression)
      expectPunct .rbrack
      chain g calls limit optional (← node start .index [e, i])
    | .template .. =>
      if optional then failure
      let t ← template g true
      chain g calls limit optional (← node start .taggedTemplate [e, t])
    | .punct .lparen =>
      if calls then
        advance
        let (es, _) ← arguments g
        chain g calls limit optional (← node start .call (e :: es))
      else closeChain optional e
    | .punct .questionDot =>
      if calls then
        advance
        match (← current).lexeme with
        | .punct .lparen =>
          advance
          let (es, _) ← arguments g
          chain g calls limit true (← node start .call (e :: es))
        | .punct .lbrack =>
          advance
          let i ← withIn (g.parse .expression)
          expectPunct .rbrack
          chain g calls limit true (← node start .index [e, i])
        | .template .. => failure
        | _ => chain g calls limit true (← memberOf start e)
      else closeChain optional e
    | _ => closeChain optional e

/-- A member access or call, from its first primary on, or from the expression `head`. -/
def leftHand (g : Grammar) (head : Option Node) : Parser Node := do
  let e ← match head with
    | some e => pure e
    | none => primary g
  chain g true g.limit false e

/-- What stands behind `new`. -/
def callee (g : Grammar) : Parser Node := do
  chain g false g.limit false (← primary g)

/-! ## Operators -/

/-- An operand with an increment or decrement behind it. -/
def postfixed (e : Node) : Parser Node := do
  let t ← current
  if (t.isPunct .plusPlus || t.isPunct .minusMinus) && !t.lineBefore then
    unless e.isSimpleTarget do failure
    advance
    node e.span.start .update [e]
  else return e

/-- The operator in front of an operand, if the current token is one. -/
def unaryOp? (t : Token) : Option UnaryOp :=
  match t.lexeme with
  | .word .kVoid _ false => some .void
  | .word .kTypeof _ false => some .typeof
  | .word .kDelete _ false => some .delete
  | .punct .bang => some .not
  | .punct .tilde => some .complement
  | .punct .plus => some .plus
  | .punct .minus => some .minus
  | _ => none

/-- An operand with the operators in front of it and behind it. -/
def unary (g : Grammar) : Parser Node := do
  let start ← here
  let t ← current
  match unaryOp? t with
  | some op =>
    advance
    let e ← g.parse .unary
    node start (.unary op) [e]
  | none =>
    if t.isPunct .plusPlus || t.isPunct .minusMinus then
      advance
      let e ← g.parse .unary
      unless e.isSimpleTarget do failure
      node start .update [e]
    else if (← read).awaits && t.isWord .kAwait then
      advance
      let e ← g.parse .unary
      node start .await [e]
    else postfixed (← leftHand g none)

/-- A binary operator with how tightly it binds. -/
def binaryOp? (allowIn : Bool) (t : Token) : Option (Option Punct × Nat) :=
  match t.lexeme with
  | .punct p => p.precedence.map fun n => (some p, n)
  | .word .kInstanceof _ false => some (none, 8)
  | .word .kIn _ false => if allowIn then some (none, 8) else none
  | _ => none

/-- Whether a node is a choice between values by the operator `??`, or by one of the other two. -/
def isCoalescing (n : Node) : Bool := n.kind == .logical .questionQuestion

def isJunction (n : Node) : Bool := n.kind == .logical .ampAmp || n.kind == .logical .pipePipe

/-- A node for two operands. The operators `??` and `&&` or `||` are not mixed without parentheses,
and a power has no operator in front of its base. -/
def operationNode (op : Option Punct) (l r : Node) : Parser Node :=
  match op with
  | none => node l.span.start .relation [l, r]
  | some .questionQuestion =>
    if isJunction l || isJunction r then failure
    else node l.span.start (.logical .questionQuestion) [l, r]
  | some p =>
    if p == .ampAmp || p == .pipePipe then
      if isCoalescing l || isCoalescing r then failure
      else node l.span.start (.logical p) [l, r]
    else if p == .starStar then
      match l.kind with
      | .unary _ | .await => failure
      | _ => node l.span.start (.binary p) [l, r]
    else node l.span.start (.binary p) [l, r]

/-- Continues an operation with the operators that bind tighter than `above`. -/
def operationRest (g : Grammar) (above : Nat) : Nat → Node → Parser Node
  | 0, _ => failure
  | limit + 1, l => do
    match binaryOp? (← read).allowIn (← current) with
    | some (op, n) =>
      if above < n then
        advance
        let r ← g.parse (.operation (if op == some .starStar then n - 1 else n))
        operationRest g above limit (← operationNode op l r)
      else return l
    | none => return l

/-- Whether an object has a private name. -/
def privateIn (g : Grammar) (above : Nat) (text : List Char) : Parser Node := do
  let start ← here
  advance
  unless (← read).allowIn && above < 8 do failure
  let name ← node start (.privateName (String.ofList text)) []
  expectWord .kIn
  let r ← g.parse (.operation 8)
  node start .relation [name, r]

/-- An operation whose operators bind tighter than `above`, from its first operand on, or from the
expression `head`. -/
def operation (g : Grammar) (above : Nat) (head : Option Node) : Parser Node := do
  let l ← match head with
    | some e => postfixed (← leftHand g (some e))
    | none =>
      match (← current).lexeme with
      | .privateName text => privateIn g above text
      | _ => unary g
  operationRest g above g.limit l

/-! ## Arrow functions -/

/-- The body of an arrow function behind its parameters. -/
def arrowBody (g : Grammar) (start : Nat) (async : Bool) (ps : Node) : Parser Node := do
  expectPunct .arrow
  let b ←
    if ← atPunct .lbrace then insideFunction async false (functionBody g)
    else
      withReader (fun c : Context => { c with awaits := async, yields := false })
        (g.parse .assignment)
  node start .arrow [ps, b]

/-- An arrow function whose parameters have been read as expressions. In an asynchronous one `await`
is no parameter. -/
def arrowOf (g : Grammar) (start : Nat) (async trailing : Bool) (items : List Node) :
    Parser Node := do
  match Node.asBindingList false trailing items with
  | some bs =>
    if async && (Node.boundNamesAll bs).contains "await" then failure
    arrowBody g start async (← node start .params bs)
  | none => failure

/-- An arrow function whose parameter is one name. -/
def arrowOfName (g : Grammar) (start : Nat) (async : Bool) : Parser Node := do
  let at_ ← here
  let name ← variableName
  let b ← node at_ (.binding name) []
  arrowBody g start async (← node at_ .params [b])

/-! ## Assignments -/

/-- A condition, an assignment, or an operation alone, from its first operand on, or from the
expression `head`. -/
def assignmentFrom (g : Grammar) (head : Option Node) : Parser Node := do
  let l ← operation g 0 head
  let t ← current
  match t.lexeme with
  | .punct .question =>
    advance
    let a ← withIn (g.parse .assignment)
    expectPunct .colon
    let b ← g.parse .assignment
    node l.span.start .conditional [l, a, b]
  | .punct .assign =>
    match l.asTarget with
    | some target =>
      advance
      let r ← g.parse .assignment
      node l.span.start (.assign .assign) [target, r]
    | none => failure
  | .punct p =>
    if p.isAssignment then
      unless l.isSimpleTarget do failure
      advance
      let r ← g.parse .assignment
      node l.span.start (.assign p) [l, r]
    else return l
  | _ => return l

/-- Whether an expression may start with this token behind `yield`. -/
def startsOperand (t : Token) : Bool :=
  match t.lexeme with
  | .stop | .punct .semi | .punct .rbrace | .punct .rparen | .punct .rbrack | .punct .colon
  | .punct .comma | .word .kIn _ _ => false
  | _ => true

/-- A value handed out by a generator. -/
def yieldExpression (g : Grammar) : Parser Node := do
  let start ← here
  advance
  let t ← current
  if t.lineBefore then node start .yield []
  else if ← eatPunct .star then
    let e ← g.parse .assignment
    node start .yield [e]
  else if startsOperand t then
    let e ← g.parse .assignment
    node start .yield [e]
  else node start .yield []

/-- An expression that starts with the word `async`: an asynchronous function of either form, a call
of that name, or the name. -/
def asyncExpression (g : Grammar) : Parser Node := do
  let start ← here
  let next ← upcoming
  if next.isArrow then arrowOfName g start false
  else if next.isPunct .lparen && !next.lineBefore then
    let name ← variableName
    let f ← node start (.identifier name) []
    advance
    let (es, trailing) ← arguments g
    if (← current).isArrow then arrowOf g start true trailing es
    else assignmentFrom g (some (← node start .call (f :: es)))
  else if !next.lineBefore && next.isVariable (← read) && (← afterUpcoming).isArrow then
    advance
    arrowOfName g start true
  else assignmentFrom g none

/-- An expression without a comma. -/
def assignment (g : Grammar) : Parser Node := do
  let start ← here
  let t ← current
  match t.lexeme with
  | .punct .lparen =>
    advance
    let (es, trailing) ← commaList g.limit .rparen (parenItem g)
    if (← current).isArrow then arrowOf g start false trailing es
    else assignmentFrom g (some (← parenthesised start es trailing))
  | .word .kYield _ false =>
    if (← read).yields then yieldExpression g
    else if (← upcoming).isArrow then arrowOfName g start false
    else assignmentFrom g none
  | .word .kAsync _ false => asyncExpression g
  | .word .. =>
    if t.isVariable (← read) && (← upcoming).isArrow then arrowOfName g start false
    else assignmentFrom g none
  | _ => assignmentFrom g none

/-- Further expressions behind commas. -/
def sequenceRest (g : Grammar) : Nat → Parser (List Node)
  | 0 => failure
  | limit + 1 => do
    if ← eatPunct .comma then
      let e ← g.parse .assignment
      return e :: (← sequenceRest g limit)
    else return []

/-- Expressions with commas between them. -/
def expression (g : Grammar) : Parser Node := do
  let start ← here
  let e ← g.parse .assignment
  match ← sequenceRest g g.limit with
  | [] => return e
  | es => node start .sequence (e :: es)

end Relink.Script.Grammar
