import Relink.Script.Expression

/-!
# Statements and modules

The rules for statements, declarations, imports and exports. Where a single statement is asked for,
as behind `if`, a declaration is refused; a plain function is not.
-/

namespace Relink.Script.Grammar

open Script.Parser

/-! ## Declarations of variables -/

/-- One declared pattern with its value. Behind the word `for` the value may be missing; otherwise
only a plain name does without, and no constant. -/
def declarator (g : Grammar) (kind : VariableKind) (mayLackValue : Bool) : Parser Node := do
  let start ← here
  let target ← g.parse .pattern
  let isName := match target.kind with
    | .binding _ => true
    | _ => false
  if kind.disposes && !isName then failure
  if ← eatPunct .assign then
    let value ← g.parse .assignment
    node start .declarator [target, value]
  else
    unless mayLackValue || (isName && (kind == .var || kind == .let)) do failure
    node start .declarator [target]

/-- Further declarators behind commas. -/
def declarators (g : Grammar) (kind : VariableKind) (mayLackValue : Bool) : Nat → Parser (List Node)
  | 0 => failure
  | limit + 1 => do
    let d ← declarator g kind mayLackValue
    if ← eatPunct .comma then return d :: (← declarators g kind mayLackValue limit)
    else return [d]

/-- Whether the words `await using` declare variables at this place: they stand in one line with a name. -/
def atAwaitUsing : Parser Bool := do
  let context ← read
  let next ← upcoming
  let name ← afterUpcoming
  return context.awaits && (← current).isWord .kAwait && next.isWord .kUsing && !next.lineBefore
    && name.isVariable context && !name.lineBefore

/-- A declaration of variables from its word or words on, without the end of the statement. -/
def variableList (g : Grammar) (kind : VariableKind) (mayLackValue : Bool) : Parser Node := do
  let start ← here
  if kind == .awaitUsing then advance
  advance
  let ds ← declarators g kind mayLackValue g.limit
  node start (.variableList kind) ds

/-- A declaration of variables as a statement. -/
def variableStatement (g : Grammar) (kind : VariableKind) : Parser Node := do
  let start ← here
  let .mk k _ ds ← variableList g kind false
  endStatement
  node start k ds

/-! ## Plain statements -/

/-- An expression as a statement, or a label in front of one. -/
def expressionStatement (g : Grammar) : Parser Node := do
  let start ← here
  let e ← g.parse .expression
  match e.kind with
  | .identifier x =>
    if ← eatPunct .colon then
      let s ← g.parse (.statement true)
      node start (.labeled x) [s]
    else
      endStatement
      node start .expressionStatement [e]
  | _ =>
    endStatement
    node start .expressionStatement [e]

/-- Statements between braces. -/
def block (g : Grammar) : Parser Node := do
  let start ← here
  expectPunct .lbrace
  let xs ← statementsToBrace g
  node start .block xs

/-- An expression between parentheses, as the head of a statement. -/
def condition (g : Grammar) : Parser Node := do
  expectPunct .lparen
  let e ← withIn (g.parse .expression)
  expectPunct .rparen
  return e

/-- A choice between two statements. -/
def ifStatement (g : Grammar) : Parser Node := do
  let start ← here
  advance
  let e ← condition g
  let a ← g.parse (.statement true)
  if ← eatWord .kElse then
    let b ← g.parse (.statement true)
    node start .if [e, a, b]
  else node start .if [e, a]

/-- A loop with its condition behind the body; it needs no semicolon. -/
def doStatement (g : Grammar) : Parser Node := do
  let start ← here
  advance
  let s ← g.parse (.statement true)
  expectWord .kWhile
  let e ← condition g
  discard (eatPunct .semi)
  node start .loop [s, e]

/-- A head and one statement. -/
def headed (g : Grammar) (kind : Kind) : Parser Node := do
  let start ← here
  advance
  let e ← condition g
  let s ← g.parse (.statement true)
  node start kind [e, s]

/-- A jump to a label or out of the innermost loop. -/
def jumpStatement : Parser Node := do
  let start ← here
  advance
  unless ← mayEnd do discard variableName
  endStatement
  node start .jump []

/-- The result of a function. -/
def returnStatement (g : Grammar) : Parser Node := do
  let start ← here
  unless (← read).returns do failure
  advance
  if ← mayEnd then
    endStatement
    node start .return []
  else
    let e ← withIn (g.parse .expression)
    endStatement
    node start .return [e]

/-- An exception; its value starts on the same line. -/
def throwStatement (g : Grammar) : Parser Node := do
  let start ← here
  advance
  if (← current).lineBefore then failure
  let e ← withIn (g.parse .expression)
  endStatement
  node start .throw [e]

/-- A case of a switch, or its default. -/
def switchCase (g : Grammar) : Parser Node := do
  let start ← here
  let head ←
    if ← eatWord .kDefault then pure []
    else
      expectWord .kCase
      let e ← withIn (g.parse .expression)
      pure [e]
  expectPunct .colon
  let xs ← many g.limit
    (fun t => t.isWord .kCase || t.isWord .kDefault || t.isPunct .rbrace)
    (g.parse (.statement false))
  node start .case (head ++ xs)

/-- A choice between cases. -/
def switchStatement (g : Grammar) : Parser Node := do
  let start ← here
  advance
  let e ← condition g
  expectPunct .lbrace
  let cs ← many g.limit (·.isPunct .rbrace) (switchCase g)
  expectPunct .rbrace
  node start .switch (e :: cs)

/-- A block whose exceptions are caught, or behind which something is always done, or both. -/
def tryStatement (g : Grammar) : Parser Node := do
  let start ← here
  advance
  let b ← block g
  let handlerStart ← here
  let handler ←
    if ← eatWord .kCatch then
      let ps ←
        if ← eatPunct .lparen then
          let p ← g.parse .pattern
          expectPunct .rparen
          pure [p]
        else pure []
      let h ← block g
      let n ← node handlerStart .catch (ps ++ [h])
      pure [n]
    else pure []
  let final ←
    if ← eatWord .kFinally then
      let f ← block g
      pure [f]
    else pure []
  if handler.isEmpty && final.isEmpty then failure
  node start .try (b :: (handler ++ final))

/-! ## Loops with a head -/

/-- The rest of a loop with three parts in its head, behind the first part. -/
def countingLoop (g : Grammar) (start : Nat) (init : List Node) : Parser Node := do
  expectPunct .semi
  let test ←
    if ← atPunct .semi then pure []
    else
      let e ← g.parse .expression
      pure [e]
  expectPunct .semi
  let step ←
    if ← atPunct .rparen then pure []
    else
      let e ← g.parse .expression
      pure [e]
  expectPunct .rparen
  let s ← g.parse (.statement true)
  node start .loop (init ++ test ++ step ++ [s])

/-- The rest of a loop over keys or values, from the word behind its target on. -/
def iteratingLoop (g : Grammar) (start : Nat) (async : Bool) (target : Node) : Parser Node := do
  let e ←
    if ← eatWord .kOf then g.parse .assignment
    else
      if async then failure
      expectWord .kIn
      g.parse .expression
  expectPunct .rparen
  let s ← g.parse (.statement true)
  node start .loop [target, e, s]

/-- Whether a declaration has a value wherever it needs one. -/
def declarationComplete (n : Node) : Bool :=
  match n with
  | .mk (.variableList kind) _ ds => ds.all fun d =>
    match d.parts with
    | [.mk (.binding _) _ _] => kind == .var || kind == .let
    | [_] => false
    | _ => true
  | _ => true

/-- The words that declare variables at this place of the head of a loop, if some do. -/
def loopDeclaration? : Parser (Option VariableKind) := do
  let t ← current
  let next ← upcoming
  let startsTarget :=
    (next.isName && !next.isWord .kIn && !next.isWord .kInstanceof)
      || next.isPunct .lbrack || next.isPunct .lbrace
  if t.isWord .kVar then return some .var
  else if t.isWord .kConst then return some .const
  else if t.isWord .kLet && startsTarget then return some .let
  else if t.isWord .kUsing && next.isName && !next.isWord .kIn && !next.isWord .kInstanceof
      && !next.isWord .kOf && !next.lineBefore then return some .using
  else if ← atAwaitUsing then return some .awaitUsing
  else return none

/-- A loop with a head. -/
def forStatement (g : Grammar) : Parser Node := do
  let start ← here
  advance
  let async ← eatWord .kAwait
  if async && !(← read).awaits then failure
  expectPunct .lparen
  if ← atPunct .semi then
    if async then failure
    return ← countingLoop g start []
  let first ← current
  let next ← upcoming
  match ← loopDeclaration? with
  | some kind =>
    let d ← withoutIn (variableList g kind true)
    if kind.disposes && (← atWord .kIn) then failure
    if (← atWord .kIn) || (← atWord .kOf) then iteratingLoop g start async d
    else if async || !declarationComplete d then failure
    else countingLoop g start [d]
  | none =>
    let e ← withoutIn (g.parse .expression)
    if ← atWord .kOf then
      if first.isWord .kLet then failure
      if first.isWord .kAsync && next.isWord .kOf && !async then failure
    if (← atWord .kIn) || (← atWord .kOf) then
      match e.asTarget with
      | some target => iteratingLoop g start async target
      | none => failure
    else if async then failure
    else countingLoop g start [e]

/-! ## Imports and exports -/

/-- The name of an export: a word, or a string without half characters. -/
def exportName : Parser (String × Bool) := do
  match (← current).lexeme with
  | .string _ whole =>
    unless whole do failure
    return (← stringValue, true)
  | _ => return (← anyName, false)

/-- Attributes of an imported module, if there are any. -/
def importAttributes (g : Grammar) : Parser Unit := do
  let t ← current
  if t.isWord .kWith || (t.isWord .kAssert && !t.lineBefore) then
    advance
    expectPunct .lbrace
    discard <| commaList g.limit .rbrace do
      let start ← here
      match (← current).lexeme with
      | .string .. => discard stringValue
      | _ => discard anyName
      expectPunct .colon
      discard stringValue
      node start .empty []

/-- One name of an import list. -/
def importSpecifier : Parser ImportBinding := do
  let first ← current
  let isVariable := first.isVariable (← read)
  let (name, quoted) ← exportName
  let imported := if name == "default" then Imported.default else .named name
  if ← eatWord .kAs then return ⟨imported, ← variableName⟩
  else
    if quoted || !isVariable then failure
    return ⟨imported, name⟩

/-- The names of an import list up to its closing brace. -/
def importSpecifiers : Nat → Parser (List ImportBinding)
  | 0 => failure
  | limit + 1 => do
    if ← eatPunct .rbrace then return []
    let s ← importSpecifier
    unless ← atPunct .rbrace do expectPunct .comma
    return s :: (← importSpecifiers limit)

/-- The whole of a module or a list of names, as the last part of an import. -/
def importTail (g : Grammar) : Parser (List ImportBinding) := do
  if ← eatPunct .star then
    expectWord .kAs
    let name ← variableName
    return [⟨.whole, name⟩]
  else
    expectPunct .lbrace
    importSpecifiers g.limit

/-- What an import declares, with the word `from`. -/
def importClause (g : Grammar) : Parser (List ImportBinding) := do
  if (← atPunct .star) || (← atPunct .lbrace) then
    let bs ← importTail g
    expectWord .kFrom
    return bs
  else
    let name ← variableName
    let rest ← if ← eatPunct .comma then importTail g else pure []
    expectWord .kFrom
    return ⟨.default, name⟩ :: rest

/-- An import declaration. -/
def importDeclaration (g : Grammar) : Parser Node := do
  let start ← here
  advance
  let next ← upcoming
  if (← atWord .kDefer) && next.isPunct .star then advance
  else if (← atWord .kSource) && next.isName
      && (!next.isWord .kFrom || (← afterUpcoming).isWord .kFrom) then advance
  let bindings ←
    match (← current).lexeme with
    | .string .. => pure []
    | _ => importClause g
  let source ← stringValue
  importAttributes g
  endStatement
  node start (.importDeclaration bindings source) []

/-- One entry of an export list, and whether its first name can be the name of a variable. -/
def exportSpecifier : Parser (ExportBinding × Bool) := do
  let first ← current
  let isLocal := match first.lexeme with
    | .word .kAwait _ _ | .word .kYield _ _ => false
    | .word w _ _ => !w.isReserved
    | _ => false
  let (name, _) ← exportName
  if ← eatWord .kAs then
    let (exported, _) ← exportName
    return (⟨name, exported⟩, isLocal)
  else return (⟨name, name⟩, isLocal)

/-- The entries of an export list up to its closing brace. -/
def exportSpecifiers : Nat → Parser (List (ExportBinding × Bool))
  | 0 => failure
  | limit + 1 => do
    if ← eatPunct .rbrace then return []
    let s ← exportSpecifier
    unless ← atPunct .rbrace do expectPunct .comma
    return s :: (← exportSpecifiers limit)

/-- What is exported by default. -/
def defaultExport (g : Grammar) (start : Nat) (ds : List Node) : Parser Node := do
  let at_ ← here
  let t ← current
  let next ← upcoming
  if t.isWord .kFunction then
    let f ← functionDeclaration g at_ false false true
    node start .exportDefault [f]
  else if t.isWord .kAsync && next.isWord .kFunction && !next.lineBefore then
    advance
    let f ← functionDeclaration g at_ true false true
    node start .exportDefault [f]
  else if t.isWord .kClass || t.isPunct .atSign then
    let more ← decorators g
    let c ← classRest g at_ (ds ++ more)
    node start .exportDefault [c]
  else
    let e ← withIn (g.parse .assignment)
    endStatement
    node start .exportDefault [e]

/-- An export declaration; `ds` are the decorators of the exported class that stand in front. -/
def exportDeclaration (g : Grammar) (start : Nat) (ds : List Node) : Parser Node := do
  expectWord .kExport
  let at_ ← here
  let t ← current
  match t.lexeme with
  | .punct .star =>
    advance
    let exported ←
      if ← eatWord .kAs then
        let (name, _) ← exportName
        pure (some name)
      else pure none
    expectWord .kFrom
    let source ← stringValue
    importAttributes g
    endStatement
    node start (.exportAll exported source) []
  | .punct .lbrace =>
    advance
    let entries ← exportSpecifiers g.limit
    if ← eatWord .kFrom then
      let source ← stringValue
      importAttributes g
      endStatement
      node start (.exportNamed (entries.map Prod.fst) (some source)) []
    else
      unless entries.all Prod.snd do failure
      endStatement
      node start (.exportNamed (entries.map Prod.fst) none) []
  | .punct .atSign =>
    let more ← decorators g
    let c ← classRest g at_ (ds ++ more)
    node start (.exportNamed [] none) [c]
  | .word w _ false =>
    match w with
    | .kDefault => advance; defaultExport g start ds
    | .kVar => exported (← variableStatement g .var)
    | .kLet => exported (← variableStatement g .let)
    | .kConst => exported (← variableStatement g .const)
    | .kFunction => exported (← functionDeclaration g at_ false false false)
    | .kClass => exported (← classRest g at_ ds)
    | .kAsync =>
      let next ← upcoming
      if next.isWord .kFunction && !next.lineBefore then
        advance
        exported (← functionDeclaration g at_ true false false)
      else failure
    | _ => failure
  | _ => failure
where
  /-- The export of a declaration. -/
  exported (d : Node) : Parser Node := node start (.exportNamed [] none) [d]

/-! ## All statements -/

/-- A statement that starts with the word `let`: a declaration, or an expression that uses it as a
name. -/
def letStatement (g : Grammar) (single : Bool) : Parser Node := do
  let next ← upcoming
  let operator := match next.lexeme with
    | .punct p => p.isAssignment || p.precedence.isSome || p == .dot || p == .lparen || p == .semi
    | .word .kIn _ false | .word .kInstanceof _ false => true
    | _ => false
  if operator || (single && !next.isPunct .lbrack) then expressionStatement g
  else if single then failure
  else variableStatement g .let

/-- A statement; `single` where a declaration has no place. -/
def statement (g : Grammar) (single : Bool) : Parser Node := do
  let start ← here
  let t ← current
  match t.lexeme with
  | .punct .lbrace => block g
  | .punct .semi => advance; node start .empty []
  | .punct .atSign =>
    let ds ← decorators g
    if ← atWord .kExport then exportDeclaration g start ds
    else if single then failure
    else classRest g start ds
  | .word w _ false =>
    match w with
    | .kIf => ifStatement g
    | .kDo => doStatement g
    | .kWhile => headed g .loop
    | .kWith => headed g .with
    | .kFor => forStatement g
    | .kBreak | .kContinue => jumpStatement
    | .kReturn => returnStatement g
    | .kThrow => throwStatement g
    | .kSwitch => switchStatement g
    | .kTry => tryStatement g
    | .kDebugger =>
      advance
      endStatement
      node start .debugger []
    | .kVar => variableStatement g .var
    | .kConst => if single then failure else variableStatement g .const
    | .kLet => letStatement g single
    | .kUsing =>
      let next ← upcoming
      if next.isVariable (← read) && !next.lineBefore then
        if single then failure else variableStatement g .using
      else expressionStatement g
    | .kAwait =>
      if ← atAwaitUsing then
        if single then failure else variableStatement g .awaitUsing
      else expressionStatement g
    | .kFunction => functionDeclaration g start false single false
    | .kClass => if single then failure else classRest g start []
    | .kAsync =>
      let next ← upcoming
      if next.isWord .kFunction && !next.lineBefore then
        advance
        functionDeclaration g start true single false
      else expressionStatement g
    | .kImport =>
      let next ← upcoming
      if next.isPunct .lparen || next.isPunct .dot then expressionStatement g
      else importDeclaration g
    | .kExport => exportDeclaration g start []
    | _ => expressionStatement g
  | _ => expressionStatement g

end Relink.Script.Grammar
