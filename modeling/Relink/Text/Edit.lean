import Relink.Text.Lines

/-!
# Edits

An edit replaces a span of a text. Edits are applied in the order of their starts; among edits with
the same start the order of the list decides, and an edit that starts inside a replaced span is
dropped.

* `Edit.replace`, `Edit.insert` — edits that keep the number of lines, and that remove nothing.
* `applyEdits` — the edited text.
-/

namespace Relink

/-- A replacement of the bytes from `start` to `stop`. -/
structure Edit where
  start : Nat
  stop : Nat
  text : String
  deriving DecidableEq, Repr, Inhabited

namespace Edit

/-- Replaces a span. The new text gets newlines at its end until it has as many as the span, so that
later lines keep their numbers. -/
def replace (source : List Char) (span : Span) (text : String) : Edit :=
  let missing := newlines (span.extract source) - newlines text.toList
  ⟨span.start, span.stop, text ++ String.ofList (List.replicate missing '\n')⟩

/-- Inserts text at an offset. -/
def insert (offset : Nat) (text : String) : Edit := ⟨offset, offset, text⟩

end Edit

/-- Edits in the order in which they are applied. -/
def sortEdits (edits : List Edit) : List Edit :=
  edits.mergeSort fun a b => a.start ≤ b.start

/-- Applies ordered edits to the text from the offset `cursor` on. -/
def splice : Nat → List Char → List Edit → List Char
  | _, rest, [] => rest
  | cursor, rest, e :: es =>
    if e.start < cursor then splice cursor rest es
    else
      takeBytes (e.start - cursor) rest ++ e.text.toList
        ++ splice e.stop (dropBytes (e.stop - cursor) rest) es

/-- The text after the edits. -/
def applyEdits (source : String) (edits : List Edit) : String :=
  String.ofList (splice 0 source.toList (sortEdits edits))

end Relink
