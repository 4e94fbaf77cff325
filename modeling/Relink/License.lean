import Relink.Regex.Basic
import Relink.Script.Program
import Relink.Text.Search

/-!
# Retained comments

Comments about rights stay with a script when everything else that is not needed is taken away. A
comment is retained when it starts with an exclamation mark or speaks of a licence.

* `License.header` — the retained comments of a script, each on a line of its own.
-/

namespace Relink.License

/-- What makes a comment one about rights. -/
def rights : Regex :=
  .alt (.seq (.assert .first) (.char true '!'))
    (.alt (.word true "copyright") (.alt (.word true "license") (.word true "(c)")))

/-- The text of a comment between delimiters. Comments of other forms get those of a block, or those of
a line when two slashes stand before them. -/
def commentText (source : List Char) (span : Span) : String :=
  let text := String.ofList (span.extract source)
  if startsWith "//" text || startsWith "/*" text then text
  else if (Span.mk (span.start - 2) span.start).extract source == ['/', '/'] then "//" ++ text
  else "/*" ++ text ++ "*/"

/-- A comment without its delimiters. -/
def body (text : String) : String :=
  if startsWith "//" text then String.ofList (text.toList.drop 2)
  else
    let inner := if startsWith "/*" text then text.toList.drop 2 else text.toList
    String.ofList (if ['*', '/'].isSuffixOf inner then inner.take (inner.length - 2) else inner)

/-- The retained comments of a script. -/
def header (program : Script.Program) (source : List Char) : String :=
  String.join (program.comments.filterMap fun span =>
    let text := commentText source span
    if rights.search (body text) then some (text ++ "\n") else none)

/-- The retained comments of a text, if it is a script. -/
def headerOf? (source : String) : Option String :=
  (Script.Program.parse? .script source.toList).map fun program => header program source.toList

end Relink.License
