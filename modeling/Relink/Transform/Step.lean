import Relink.Text.Search
import Relink.Transform.Document

/-!
# Steps

The steps that make a function of a module. Scripts lose what the loader does for them and get ids for
their specifiers; everything else becomes an assignment to the exports.

* `Step.apply` — the document behind a step.
* `pipeline` — the steps for a kind of module.
* `transform` — the code of a module.
-/

namespace Relink

/-- A step of a transformation. -/
inductive Step where
  /-- Directives of strictness vanish. -/
  | dropStrict
  /-- The marker becomes a call of the loader. -/
  | callMarker
  /-- The void chain vanishes. -/
  | dropVoid
  /-- Getter exports become calls of the loader. -/
  | callExports
  /-- Specifiers become ids. -/
  | numberRequires
  /-- The value of a JSON text becomes the exports. -/
  | exportJson
  /-- The text of a file becomes the exports. -/
  | exportText
  /-- The module becomes a function. -/
  | wrap
  deriving DecidableEq, Repr, Inhabited

namespace Step

/-- A text that does not end the comment it stands in. -/
def commentSafe (text : String) : String := replaceAll "*/" "*\\/" text

/-- The edits of a step on a script. -/
def scriptEdits (source : List Char) (ids : Table String ModuleId) (s : Script.Summary) :
    Step → List Edit
  | dropStrict => s.useStrict.map fun span => Edit.replace source span ""
  | callMarker => s.marker.toList.map fun span => Edit.replace source span "__esModule();"
  | dropVoid => s.voidChain.toList.map fun span => Edit.replace source span ""
  | callExports =>
    s.getterExports.flatMap fun e => [
      Edit.replace source ⟨e.statement.start, e.value.start⟩
        ("__esExport(" ++ String.ofList (e.name.extract source) ++ ", "),
      Edit.replace source ⟨e.value.stop, e.statement.stop⟩ ");"]
  | numberRequires =>
    s.requires.filterMap fun call => (ids.get? call.specifier).map fun id =>
      Edit.replace source call.span
        (id.literal ++ " /* " ++ commentSafe call.specifier ++ " */")
  | _ => []

/-- The length in bytes of a text without the blanks at its end. -/
def trimmedLength (source : List Char) : Nat :=
  byteLength (source.reverse.dropWhile Unicode.isBlankChar)

/-- What stands before the source in a function. -/
def headText (basePath : String) : String :=
  "/* " ++ commentSafe basePath ++ " */\n"
    ++ "function _(require, module, exports, __esModule, __esExport) \x7b\n"

/-- What stands behind the source in a function. -/
def tailText (source : List Char) : String :=
  if source.getLast? == some '\n' then "\x7d" else "\n\x7d"

/-- The document behind a step. -/
def apply (step : Step) (subject : Subject) (d : Document) : Except Failure Document :=
  let source := subject.source.toList
  match step with
  | exportJson =>
    match Json.parse? subject.source with
    | some v =>
      if v.usable Json.depthLimit then
        .ok (d.edit [Edit.insert 0 "module.exports = ", Edit.insert (trimmedLength source) ";"])
      else .error (.transform subject.file .badJson)
    | none => .error (.transform subject.file .badJson)
  | exportText =>
    let whole : Span := ⟨0, byteLength source⟩
    .ok (d.edit [Edit.replace source whole ("module.exports = " ++ quoted subject.source ++ ";")])
  | wrap => .ok { d with head := headText subject.basePath, tail := tailText source }
  | _ =>
    match subject.summary with
    | some s => .ok (d.edit (step.scriptEdits source subject.ids s))
    | none => .error (.transform subject.file .unparsed)

end Step

/-- The steps for a kind of module; the steps that undo the work of a compiler can be left out. -/
def pipeline (kind : ModuleKind) (applyTransforms : Bool) : List Step :=
  match kind with
  | .js =>
    (if applyTransforms then [.dropStrict, .callMarker, .dropVoid, .callExports] else [])
      ++ [.numberRequires, .wrap]
  | .json => [.exportJson, .wrap]
  | .css | .json5 | .yaml => [.exportText, .wrap]

/-- The code of a module. -/
def transform (kind : ModuleKind) (applyTransforms : Bool) (subject : Subject) :
    Except Failure MappedCode := do
  let d ← (pipeline kind applyTransforms).foldlM (fun d step => step.apply subject d) .empty
  return d.print subject

end Relink
