import Relink.Script.Program
import Relink.Text.Edit
import Relink.Text.Quoted

/-!
# ES modules as CommonJS

Rewrites the imports and exports of a module into calls of `require` and definitions on `exports`.
Each declaration is replaced in place and keeps its lines.

* An import becomes a constant for the required module and a constant for each name it declares.
* The names that a module exports from its own bindings become getters in a prologue in front of the
  text, so they stay live.
* An export taken from another module becomes a constant for that module and a getter, or a loop
  that copies every name.
-/

namespace Relink.Script.CommonJs

/-- What keeps a module from being converted. -/
inductive Refusal where
  /-- An exported declaration takes a value apart. -/
  | destructuredExport
  deriving DecidableEq, Repr, Inhabited

def Refusal.message : Refusal → String
  | .destructuredExport => "destructuring exports are not supported"

/-- The rewriting so far: edits, exported names with their local bindings, and the number of
required modules that have a constant. -/
structure Progress where
  edits : List Edit
  exports : List (String × String)
  imports : Nat
  deriving DecidableEq, Repr, Inhabited

/-! ## Text of the converted parts -/

/-- Whether a property of this name can be written behind a dot. -/
def isPlainName (name : String) : Bool :=
  match name.toList with
  | [] => false
  | c :: cs =>
    (Unicode.isAlphabetic c || c == '_' || c == '$')
      && cs.all fun d => Unicode.isAlphanumeric d || d == '_' || d == '$'

/-- The property `name` of an object. -/
def memberText (object name : String) : String :=
  if isPlainName name then object ++ "." ++ name else object ++ "[" ++ quoted name ++ "]"

/-- The default export of a module, which is the whole module when it is no ES module. -/
def defaultText (module : String) : String :=
  module ++ " && " ++ module ++ ".__esModule ? " ++ module ++ ".default : " ++ module

/-- A call of `require`. -/
def requireText (source : String) : String :=
  "require(" ++ quoted source ++ ")"

/-- The constant for the required module of the given number. -/
def moduleName (n : Nat) : String :=
  "__import_" ++ toString n

/-- The declaration of that constant. -/
def moduleText (n : Nat) (source : String) : String :=
  "const " ++ moduleName n ++ " = " ++ requireText source ++ ";"

/-- The constant for one imported name. -/
def bindingText (module : String) (b : ImportBinding) : String :=
  b.local_ ++ " = " ++ match b.imported with
    | .default => defaultText module
    | .whole => module
    | .named name => memberText module name

/-- A property with a getter. -/
def getterText (name value : String) : String :=
  quoted name ++ ": \x7b enumerable: true, get: () => " ++ value ++ " \x7d"

/-- A definition of a property of `exports` by a getter. -/
def defineText (name value : String) : String :=
  " Object.defineProperty(exports, " ++ quoted name ++ ", \x7b enumerable: true, get: () => " ++ value
    ++ " \x7d);"

/-- The loop that copies every export of a module but its default. -/
def copyText (module : String) : String :=
  " Object.keys(" ++ module ++ ").forEach((name) => \x7b if (name !== \"default\" && "
    ++ "!Object.prototype.hasOwnProperty.call(exports, name)) "
    ++ "Object.defineProperty(exports, name, \x7b enumerable: true, get: () => " ++ module
    ++ "[name] \x7d); \x7d);"

/-- What tells other modules that this one is an ES module. -/
def markerText : String :=
  "Object.defineProperty(exports, \"__esModule\", \x7b value: true \x7d);"

/-- The prologue: the marker and the getters of the module's own bindings. -/
def prologueText (exports : List (String × String)) : String :=
  let getters := exports.map fun (name, value) => getterText name value
  markerText
    ++ (if exports.isEmpty then ""
        else " Object.defineProperties(exports, \x7b " ++ ", ".intercalate getters ++ " \x7d);")
    ++ " "

/-! ## Statements -/

/-- Replaces a span. -/
def Progress.replace (p : Progress) (source : List Char) (span : Span) (text : String) : Progress :=
  { p with edits := p.edits ++ [Edit.replace source span text] }

/-- Replaces a declaration by text about a required module, which gets the next constant. -/
def Progress.require (p : Progress) (source : List Char) (span : Span) (from_ : String)
    (text : String → String) : Progress :=
  let name := moduleName p.imports
  { p.replace source span (moduleText p.imports from_ ++ text name) with imports := p.imports + 1 }

/-- The name that a declarator declares; none when it takes a value apart. -/
def declaredName? (d : Node) : Option String :=
  match d.parts with
  | .mk (.binding x) _ _ :: _ => some x
  | _ => none

/-- The names that an exported declaration declares. -/
def declaredNames : Node → Except Refusal (List String)
  | .mk (.variableList _) _ ds =>
    match ds.mapM declaredName? with
    | some names => .ok names
    | none => .error .destructuredExport
  | .mk (.function name) _ _ => .ok name.toList
  | .mk (.class name) _ _ => .ok name.toList
  | _ => .ok []

/-- Rewrites a statement; `none` when it is neither an import nor an export. -/
def statement (source : List Char) (p : Progress) (n : Node) :
    Except Refusal (Option Progress) :=
  match n with
  | .mk (.importDeclaration [] from_) span _ =>
    .ok (some (p.replace source span (requireText from_ ++ ";")))
  | .mk (.importDeclaration bindings from_) span _ =>
    .ok <| some <| p.require source span from_ fun module =>
      " const " ++ ", ".intercalate (bindings.map (bindingText module)) ++ ";"
  | .mk (.exportNamed _ _) span (declaration :: _) => do
    let names ← declaredNames declaration
    let q := { p with exports := p.exports ++ names.map fun x => (x, x) }
    return some (q.replace source ⟨span.start, declaration.span.start⟩ "")
  | .mk (.exportNamed bindings (some from_)) span [] =>
    .ok <| some <| p.require source span from_ fun module =>
      String.join (bindings.map fun b => defineText b.exported (memberText module b.local_))
  | .mk (.exportNamed bindings none) span [] =>
    let names := bindings.map fun b => (b.exported, b.local_)
    let q := { p with exports := p.exports ++ names }
    .ok (some (q.replace source span ""))
  | .mk .exportDefault span (value :: _) =>
    let before : Span := ⟨span.start, value.span.start⟩
    let nameless := p.replace source before "exports.default = "
    let closed := { nameless with edits := nameless.edits ++ [Edit.insert span.stop ";"] }
    match value.kind with
    | .function (some x) | .class (some x) =>
      let q := { p with exports := p.exports ++ [("default", x)] }
      .ok (some (q.replace source before ""))
    | .function none | .class none => .ok (some closed)
    | _ => .ok (some nameless)
  | .mk (.exportAll exported from_) span _ =>
    .ok <| some <| p.require source span from_ fun module =>
      match exported with
      | some name => defineText name module
      | none => copyText module
  | _ => .ok none

/-- Rewrites statements in order, and says whether one of them was an import or export. -/
def statements (source : List Char) : Progress → Bool → List Node →
    Except Refusal (Progress × Bool)
  | p, found, [] => .ok (p, found)
  | p, found, n :: ns => do
    match ← statement source p n with
    | some q => statements source q true ns
    | none => statements source p found ns

/-- Rewrites a module. A text without imports and exports, or that is no module at all, is left
alone. -/
def convert (source : String) : Except Refusal (Option String) :=
  match Program.parse? .module source.toList with
  | none => .ok none
  | some program => do
    let (p, found) ← statements source.toList ⟨[], [], 0⟩ false program.body
    if found then
      return some (applyEdits source (Edit.insert 0 (prologueText p.exports) :: p.edits))
    else return none

end Relink.Script.CommonJs
