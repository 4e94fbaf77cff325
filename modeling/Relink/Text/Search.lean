/-!
# Texts in texts

* `startsWith`, `endsWith` — texts at the ends of a text.
* `replaceAll` — a text with another one for each occurrence of a part, from left to right.
-/

namespace Relink

/-- Whether a text starts with `front`. -/
def startsWith (front text : String) : Bool := front.toList.isPrefixOf text.toList

/-- Whether a text ends with `back`. -/
def endsWith (back text : String) : Bool := back.toList.isSuffixOf text.toList

/-- A text with `new` for each occurrence of `old`, which is not empty; occurrences do not overlap. The
first argument counts the characters of an occurrence that are still to be skipped. -/
def replaceFrom (old new : List Char) : Nat → List Char → List Char
  | _, [] => []
  | skip + 1, _ :: cs => replaceFrom old new skip cs
  | 0, c :: cs =>
    if old.isPrefixOf (c :: cs) then new ++ replaceFrom old new (old.length - 1) cs
    else c :: replaceFrom old new 0 cs

/-- A text with `new` for each occurrence of `old`, which is not empty. -/
def replaceAll (old new text : String) : String :=
  String.ofList (replaceFrom old.toList new.toList 0 text.toList)

/-- A text with `new` for the first occurrence of `old`, if there is one. -/
def replaceFirst? (old new : List Char) : List Char → Option (List Char)
  | [] => if old.isEmpty then some new else none
  | c :: cs =>
    if old.isPrefixOf (c :: cs) then some (new ++ (c :: cs).drop old.length)
    else (replaceFirst? old new cs).map (c :: ·)

end Relink
