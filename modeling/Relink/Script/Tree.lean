import Relink.Script.Token

/-!
# Syntax trees

A tree is a node with a kind, the span of its text and its parts in the order of the text. The kind
holds what the parts do not say: names, values and operators.

* `Node.preorder` — a node and everything below it, each node before its parts.
* `Node.any` — whether some node below (or the node itself) has a property.
-/

namespace Relink.Script

/-- Operators in front of an operand. -/
inductive UnaryOp where
  | void | typeof | delete | not | complement | plus | minus
  deriving DecidableEq, Repr, Inhabited

/-- How a property of an object came to be. -/
inductive PropertyRole where
  /-- A key, a colon and a value. -/
  | keyed
  /-- A name that is both key and value. -/
  | shorthand
  /-- A method, getter or setter. -/
  | method
  deriving DecidableEq, Repr, Inhabited

/-- The words that declare variables. -/
inductive VariableKind where
  | var | let | const | using | awaitUsing
  deriving DecidableEq, Repr, Inhabited

/-- Whether the declared values are disposed of at the end of the block. -/
def VariableKind.disposes : VariableKind → Bool
  | .using | .awaitUsing => true
  | .var | .let | .const => false

/-- What an import binds: the default export, the whole module, or an export by name. -/
inductive Imported where
  | default
  | whole
  | named (name : String)
  deriving DecidableEq, Repr, Inhabited

/-- One name that an import declares. -/
structure ImportBinding where
  imported : Imported
  local_ : String
  deriving DecidableEq, Repr, Inhabited

/-- One entry of an export list: what is exported, under which name. -/
structure ExportBinding where
  local_ : String
  exported : String
  deriving DecidableEq, Repr, Inhabited

/-- Kinds of nodes. -/
inductive Kind where
  -- names and literals
  | identifier (name : String)
  | binding (name : String)
  | privateName (name : String)
  | string (value : String)
  | literal
  | this
  | super
  | metaProperty
  | template
  | taggedTemplate
  -- compound values
  | array (trailingComma : Bool)
  | elision
  | spread
  | object (trailingComma : Bool)
  /-- A property; the name is present when the key is written as a plain name. -/
  | property (name : Option String) (role : PropertyRole)
  /-- A name with a default, which is an assignment pattern in the making. -/
  | shorthandDefault (name : String)
  | function (name : Option String)
  | arrow
  | params
  | body
  | class (name : Option String)
  | classMember
  | staticBlock
  | decorator
  -- operations
  | call
  | new
  | importCall
  | member (name : String)
  | privateMember (name : String)
  | index
  | chain
  | unary (op : UnaryOp)
  | update
  | await
  | yield
  | binary (op : Punct)
  | relation
  | logical (op : Punct)
  | conditional
  | assign (op : Punct)
  | sequence
  | paren
  -- patterns
  | arrayPattern
  | objectPattern
  | patternProperty
  | defaulted
  | rest
  -- statements
  | directive (value : String)
  | expressionStatement
  | variableList (kind : VariableKind)
  | declarator
  | block
  | empty
  | if
  | loop
  | switch
  | case
  | try
  | catch
  | throw
  | return
  | jump
  | debugger
  | with
  | labeled (label : String)
  -- modules
  | importDeclaration (bindings : List ImportBinding) (source : String)
  /-- An export list, with the module it is taken from, or an exported declaration as its part. -/
  | exportNamed (bindings : List ExportBinding) (source : Option String)
  | exportDefault
  | exportAll (exported : Option String) (source : String)
  | program
  deriving DecidableEq, Repr, Inhabited

/-- A node of a syntax tree. -/
inductive Node where
  | mk (kind : Kind) (span : Span) (parts : List Node)
  deriving Repr, Inhabited

namespace Node

def kind : Node → Kind
  | mk k _ _ => k

def span : Node → Span
  | mk _ s _ => s

def parts : Node → List Node
  | mk _ _ ps => ps

@[simp] theorem kind_mk (k : Kind) (s : Span) (ps : List Node) : (mk k s ps).kind = k := rfl
@[simp] theorem span_mk (k : Kind) (s : Span) (ps : List Node) : (mk k s ps).span = s := rfl
@[simp] theorem parts_mk (k : Kind) (s : Span) (ps : List Node) : (mk k s ps).parts = ps := rfl

mutual

/-- A node and everything below it, each node before its parts. -/
def preorder : Node → List Node
  | mk k s ps => mk k s ps :: preorderAll ps

/-- The nodes of several trees, one after the other. -/
def preorderAll : List Node → List Node
  | [] => []
  | n :: ns => preorder n ++ preorderAll ns

end

theorem preorder_eq (n : Node) : n.preorder = n :: preorderAll n.parts := by
  cases n; rfl

/-- Whether some node of a tree has the property `p`. -/
def any (p : Node → Bool) (n : Node) : Bool :=
  n.preorder.any p

end Node

end Relink.Script
