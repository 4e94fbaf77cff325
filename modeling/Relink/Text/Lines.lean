import Relink.Text.Place

/-!
# Lines of a text

Lines end at newline characters.

* `newlines` — how many lines end in a text.
* `locate` — the line and column of a byte offset, both counted from one; columns count characters.
* `lineAt` — the text of a line without its ending.
-/

namespace Relink

/-- The number of newline characters in a list of characters. -/
def newlines : List Char → Nat
  | [] => 0
  | c :: cs => (if c = '\n' then 1 else 0) + newlines cs

@[simp] theorem newlines_append (a b : List Char) : newlines (a ++ b) = newlines a + newlines b := by
  induction a with
  | nil => simp [newlines]
  | cons c cs ih => simp [newlines, ih, Nat.add_assoc]

/-- The line and column behind some characters, when the place before them has the given line and
column. -/
def advanceOver : List Char → Nat → Nat → Nat × Nat
  | [], line, column => (line, column)
  | c :: cs, line, column =>
    if c = '\n' then advanceOver cs (line + 1) 1 else advanceOver cs line (column + 1)

/-- The line and column of a byte offset; an offset beyond the end stands for the end. -/
def locate (source : String) (offset : Nat) : Nat × Nat :=
  advanceOver (takeBytes offset source.toList) 1 1

/-- A line without the carriage return in front of its newline. -/
def dropReturn (line : List Char) : List Char :=
  match line.reverse with
  | '\r' :: rest => rest.reverse
  | _ => line

/-- The line of the given number, counted from zero, without its ending; empty when there is none. -/
def lineAt : Nat → List Char → List Char
  | 0, cs =>
    let line := cs.takeWhile (· ≠ '\n')
    if line.length < cs.length then dropReturn line else line
  | _, [] => []
  | n + 1, c :: cs => if c = '\n' then lineAt n cs else lineAt (n + 1) cs

end Relink
