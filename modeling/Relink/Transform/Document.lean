import Relink.Module.Kind
import Relink.Script.Summary
import Relink.SourceMap.Stitch
import Relink.Table
import Relink.Text.Edit

/-!
# Documents

A module on its way into a bundle: edits of its source, and what stands before and behind it. The edits
keep the lines of the source, so the map of a printed document only has to shift them.

* `Document.print` — the text and the map of a document.
-/

namespace Relink

/-- What is known of a module while code is made of it. -/
structure Subject where
  file : Path
  /-- The path of the file as seen from its base. -/
  basePath : String
  source : String
  /-- The summary of a script. -/
  summary : Option Script.Summary
  /-- The ids of the modules that the specifiers stand for. -/
  ids : Table String ModuleId

/-- A module with edits and what stands around it. -/
structure Document where
  head : String
  edits : List Edit
  tail : String
  deriving DecidableEq, Repr, Inhabited

/-- Code and the text of its map. -/
structure MappedCode where
  source : String
  map : String
  deriving DecidableEq, Repr, Inhabited

namespace Document

/-- The document without changes. -/
def empty : Document := ⟨"", [], ""⟩

/-- Adds edits. -/
def edit (d : Document) (edits : List Edit) : Document := { d with edits := d.edits ++ edits }

/-- The text of a document. -/
def text (d : Document) (source : String) : String :=
  d.head ++ applyEdits source d.edits ++ d.tail

/-- The text and the map of a document. -/
def print (d : Document) (subject : Subject) : MappedCode :=
  ⟨d.text subject.source,
    (SourceMap.lineMap subject.basePath subject.source (newlines d.head.toList)).render⟩

end Document

end Relink
