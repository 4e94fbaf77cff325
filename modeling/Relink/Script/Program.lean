import Relink.Script.Statement

/-!
# Programs

The knot of the grammar, and the reading of a whole text as a script or a module.

* `Grammar.upTo` — the rules that may refer to one another a bounded number of times.
* `Program.parse?` — the program that a text spells, if it spells one.
-/

namespace Relink.Script

namespace Grammar

/-- One step of the grammar: the rule for a goal, whose parts are read by `g`. -/
def rule (g : Grammar) : Goal → Parser Node
  | .statement single => statement g single
  | .expression => expression g
  | .assignment => assignment g
  | .operation above => operation g above none
  | .unary => unary g
  | .leftHand => leftHand g none
  | .callee => callee g
  | .pattern => pattern g

/-- The rules nested at most `depth` deep. -/
def upTo : Nat → Grammar
  | 0 => ⟨fun _ => failure, 0⟩
  | depth + 1 => ⟨rule (upTo depth), depth + 1⟩

end Grammar

/-- Whether a text is read as a script or as a module. -/
inductive Mode where
  | script
  | module
  deriving DecidableEq, Repr, Inhabited

/-- A program: its directives and statements in order, and its comments in order. -/
structure Program where
  body : List Node
  comments : List Span
  deriving Repr, Inhabited

namespace Program

/-- The names that a statement exports. -/
def exportedBy : Node → List String
  | .mk (.exportNamed bindings _) _ [] => bindings.map ExportBinding.exported
  | .mk (.exportNamed _ _) _ (.mk (.variableList _) _ ds :: _) =>
    ds.flatMap fun d => match d.parts with
      | p :: _ => p.boundNames
      | [] => []
  | .mk (.exportNamed _ _) _ (.mk (.function name) _ _ :: _) => name.toList
  | .mk (.exportNamed _ _) _ (.mk (.class name) _ _ :: _) => name.toList
  | .mk .exportDefault _ _ => ["default"]
  | .mk (.exportAll (some name) _) _ _ => [name]
  | _ => []

/-- Whether no two names in a list are the same. -/
def distinct : List String → Bool
  | [] => true
  | x :: xs => !xs.contains x && distinct xs

/-- The place behind the line at the front of a text that names an interpreter, if there is one. -/
def skipInterpreter (cs : List Char) : Place :=
  match cs with
  | '#' :: '!' :: rest =>
    let line := rest.takeWhile fun c => !isLineEnd c
    ⟨2 + byteLength line, rest.drop line.length⟩
  | cs => ⟨0, cs⟩

/-- How deep the rules of the grammar can be nested in a text of `n` characters. -/
def depthBound (n : Nat) : Nat := 8 * n + 64

/-- Reads statements up to the end of the text. -/
def statements (g : Grammar) : Parser (List Node) :=
  Parser.many g.limit (·.lexeme == .stop) (g.parse (.statement false))

/-- The program that a text spells. Two faults are found at the end: a default of a shorthand
property outside a pattern, and a name that is exported twice. -/
def parse? (mode : Mode) (cs : List Char) : Option Program :=
  let script := mode == .script
  let first := scanToken script true (skipInterpreter cs)
  let context : Context := ⟨script, true, false, !script, false⟩
  let cursor : Cursor := ⟨first.token, first.after, 0, first.comments⟩
  let grammar := Grammar.upTo (depthBound cs.length)
  match (statements grammar).run context cursor with
  | some (xs, last) =>
    if xs.any Node.hasShorthandDefault then none
    else if distinct (xs.flatMap exportedBy) then
      some ⟨Grammar.markDirectives xs, last.comments.reverse⟩
    else none
  | none => none

/-- A program for which something can be checked once the characters of its text are known. -/
theorem exists_of_check {mode : Mode} {source : String} {p : List Char → Program → Bool}
    (h : ∃ cs, source.toList = cs ∧ (parse? mode cs).any (p cs) = true) :
    ∃ program, parse? mode source.toList = some program ∧ p source.toList program = true := by
  obtain ⟨cs, rfl, h⟩ := h
  exact (Option.any_eq_true _ _).mp h

end Program

end Relink.Script
