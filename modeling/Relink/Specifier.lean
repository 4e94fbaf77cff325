/-!
# Specifiers

A specifier names a module as another module requires it. One that starts with a dot is a path as seen
from that module; any other starts with the name of a package, which has two segments when it starts
with an at sign.

* `splitSpecifier` — the name of the package and what is meant inside it.
-/

namespace Relink

/-- Whether a specifier is a path as seen from the module that requires it. -/
def isRelative (specifier : String) : Bool := specifier.toList.head? == some '.'

/-- A text in front of its first slash, and behind it. -/
def splitSlash (cs : List Char) : List Char × Option (List Char) :=
  (cs.takeWhile (· ≠ '/'), ((cs.dropWhile (· ≠ '/')).tail?))

/-- The name of the package in a specifier, and what is meant inside it. -/
def splitSpecifier (specifier : String) : String × Option String :=
  match specifier.toList with
  | '@' :: behind =>
    match splitSlash behind with
    | (scope, some rest) =>
      match splitSlash rest with
      | (name, some inner) =>
        (String.ofList ('@' :: scope ++ '/' :: name), some (String.ofList inner))
      | _ => (specifier, none)
    | _ => (specifier, none)
  | cs =>
    let (name, inner) := splitSlash cs
    (String.ofList name, inner.map String.ofList)

end Relink
