import Relink.Graph
import Relink.License
import Relink.Transform.Step

/-!
# Compiling a module

The code of a module under given ids, as it is and minified.

* `Minifier.unchanged` — leaves code as it is; `Minifier.checked` does so if it is a script.
* `compile` — the code of a module.
-/

namespace Relink

/-- Code that has been made smaller, with the text of its map. -/
structure MinifiedCode where
  code : String
  map : Option String
  deriving DecidableEq, Repr, Inhabited

/-- Makes the code of a module smaller. -/
abbrev Minifier := Path → String → Except Failure MinifiedCode

namespace Minifier

/-- Leaves code as it is. -/
def unchanged : Minifier := fun _ code => .ok ⟨code, none⟩

/-- Leaves code as it is if it is a script. -/
def checked : Minifier := fun file code =>
  match License.headerOf? code with
  | some _ => .ok ⟨code, none⟩
  | none => .error (.minifySyntax file)

end Minifier

/-- The summary of a module, which is read unless it is known. -/
def Module.summaryFor (m : Module) : Except Failure (Option Script.Summary) :=
  match m.summary, m.kind with
  | some s, _ => .ok (some s)
  | none, .js => (Discovery.summaryOf m.file m.source).map some
  | none, _ => .ok none

/-- The code of a module. -/
def compile (minifier : Minifier) (settings : CodeSettings) (m : Module) (ids : Table String ModuleId) :
    Except Failure ModuleCode := do
  let summary ← m.summaryFor
  let code ← transform m.kind settings.applyTransforms ⟨m.file, m.basePath, m.source, summary, ids⟩
  if settings.minify then
    let small ← minifier m.file code.source
    return ⟨code.source, some code.map, small.code, small.map⟩
  else return ⟨code.source, some code.map, code.source, some code.map⟩

end Relink
