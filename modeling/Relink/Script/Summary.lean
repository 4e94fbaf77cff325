import Relink.Script.Program

/-!
# What a linker needs to know of a script

The summary of a script: its directives of strictness, its calls of `require`, and three kinds of
statements that compilers put into modules.

* the marker — a call with three arguments, the second of which is the string `__esModule`;
* the void chain — `exports.a = exports.b = void 0`;
* a getter export — `Object.defineProperty(exports, "name", …)` with a getter that returns a value.
-/

namespace Relink.Script

/-- A call of `require` with one string: the string's value, and its span with the quotes. -/
structure RequireCall where
  specifier : String
  span : Span
  deriving DecidableEq, Repr, Inhabited

/-- A getter export: the spans of the statement, of the name with its quotes, and of the value. -/
structure GetterExport where
  statement : Span
  name : Span
  value : Span
  deriving DecidableEq, Repr, Inhabited

/-- The summary of a script. -/
structure Summary where
  useStrict : List Span
  requires : List RequireCall
  marker : Option Span
  voidChain : Option Span
  getterExports : List GetterExport
  deriving DecidableEq, Repr, Inhabited

namespace Node

/-- Whether a node is the plain name `name`. -/
def isIdentifier (name : String) (n : Node) : Bool :=
  n.kind == .identifier name

/-- The call of `require` that a node is, if it is one: the callee is that name, and the only
argument is a string that is not empty. -/
def requireCall? : Node → Option RequireCall
  | mk .call _ [callee, mk (.string value) span _] =>
    if callee.isIdentifier "require" && value != "" then some ⟨value, span⟩ else none
  | _ => none

/-- Whether an expression is the marker. -/
def isMarker : Node → Bool
  | mk .call _ [_, _, mk (.string value) _ _, _] => value == "__esModule"
  | _ => false

/-- Whether an expression is a member of `exports`, possibly in parentheses. -/
def isExportsMember : Node → Bool
  | mk (.member _) _ [object] => object.isIdentifier "exports"
  | mk .paren _ [e] => isExportsMember e
  | _ => false

/-- Whether an expression is a chain of assignments to members of `exports` that ends in an operand
of `void`. -/
def isVoidChain : Node → Bool
  | mk (.assign _) _ [target, value] => target.isExportsMember && isVoidChain value
  | mk (.unary op) _ _ => op == .void
  | _ => false

/-- The statements of a body that are no directives. -/
def statements (parts : List Node) : List Node :=
  parts.filter fun n => match n.kind with
    | .directive _ => false
    | _ => true

/-- The value that a property named `get` returns: the property is a function whose body is one
statement that returns it. -/
def getterValue? : Node → Option Node
  | mk (.property (some "get") _) _ [mk (.function _) _ [_, body]] =>
    match statements body.parts with
    | [mk .return _ [value]] => some value
    | _ => none
  | _ => none

/-- The spans of the name and value of a getter export, if an expression is one. -/
def getterExport? : Node → Option (Span × Span)
  | mk .call _ [mk (.member "defineProperty") _ [object], target, mk (.string _) name _,
      mk (.object _) _ properties] =>
    if object.isIdentifier "Object" && target.isIdentifier "exports" then
      (properties.findSome? getterValue?).map fun value => (name, value.span)
    else none
  | _ => none

end Node

namespace Summary

/-- Takes up one statement: the first marker, the first void chain, and every getter export. -/
def addStatement (summary : Summary) (n : Node) : Summary :=
  match n with
  | .mk .expressionStatement span [e] =>
    if summary.marker.isNone && e.isMarker then { summary with marker := some span }
    else if summary.voidChain.isNone && e.isVoidChain then { summary with voidChain := some span }
    else
      match e.getterExport? with
      | some (name, value) =>
        { summary with getterExports := summary.getterExports ++ [⟨span, name, value⟩] }
      | none => summary
  | _ => summary

/-- The summary of a program. -/
def ofProgram (program : Program) : Summary :=
  program.body.foldl addStatement
    { useStrict := program.body.filterMap fun n =>
        if n.kind == .directive "use strict" then some n.span else none
      requires := (Node.preorderAll program.body).filterMap Node.requireCall?
      marker := none
      voidChain := none
      getterExports := [] }

/-- The summary of a text, if it is a script. -/
def parse? (source : String) : Option Summary :=
  (Program.parse? .script source.toList).map ofProgram

/-- The specifiers of a summary in the order of their first call. -/
def dependencies (summary : Summary) : List String :=
  summary.requires.foldl
    (fun deps call => if deps.contains call.specifier then deps else deps ++ [call.specifier]) []

end Summary

end Relink.Script
