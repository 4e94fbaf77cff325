/-!
# Paths

A path is a text of segments with slashes between them. Empty segments and single dots say nothing,
except for a dot at the very front, so two texts can denote one path; `components` is what they have
in common. Paths are ordered by their components.

* `components` — the root, names, and steps upwards.
* `join`, `parent`, `fileName`, `stem`, `extension`, `stripAncestor?` — parts and combinations; they
  keep the text of what they take over.
* `normalize` — the path without dots, with steps upwards carried out as far as there is a component
  to leave.
-/

namespace Relink

/-- A path as it is written. -/
structure Path where
  text : String
  deriving DecidableEq, Repr, Inhabited

namespace Path

/-- A step of a path. -/
inductive Component where
  | root
  /-- The dot at the front of a path. -/
  | here
  | up
  | name (text : String)
  deriving DecidableEq, Repr, Inhabited

/-! ## Components -/

/-- Cuts a text at its slashes. -/
def cut : List Char → List Char → List (List Char)
  | acc, [] => [acc.reverse]
  | acc, '/' :: cs => acc.reverse :: cut [] cs
  | acc, c :: cs => cut (c :: acc) cs

/-- The segments of a path between its slashes. -/
def segments (p : Path) : List String :=
  (cut [] p.text.toList).map String.ofList

def isAbsolute (p : Path) : Bool :=
  p.text.toList.head? == some '/'

/-- Whether a segment says nothing. -/
def isIdle (segment : String) : Bool :=
  segment == "" || segment == "."

/-- The step that a segment stands for. -/
def componentOf (segment : String) : Component :=
  if segment == ".." then .up else .name segment

/-- The steps of some segments that do not start a path. -/
def componentsOf (segments : List String) : List Component :=
  (segments.filter fun s => !isIdle s).map componentOf

/-- The steps of a path. -/
def components (p : Path) : List Component :=
  let front := if p.isAbsolute then [.root] else if p.segments.head? == some "." then [.here] else []
  front ++ componentsOf p.segments

/-- Components are ordered: the root, the dot, steps upwards, names. -/
def Component.rank : Component → Nat
  | .root => 0
  | .here => 1
  | .up => 2
  | .name _ => 3

def Component.compare : Component → Component → Ordering
  | .name a, .name b => Ord.compare a b
  | a, b => Ord.compare a.rank b.rank

/-- Lists of components are ordered by the first difference. -/
def compareComponents : List Component → List Component → Ordering
  | [], [] => .eq
  | [], _ :: _ => .lt
  | _ :: _, [] => .gt
  | a :: as, b :: bs =>
    match a.compare b with
    | .eq => compareComponents as bs
    | o => o

instance : Ord Path := ⟨fun p q => compareComponents p.components q.components⟩

/-- Whether two texts denote one path. -/
def same (p q : Path) : Bool := p.components == q.components

/-- Whether the steps of `base` are the first steps of a path. -/
def startsWith (p base : Path) : Bool :=
  base.components.isPrefixOf p.components

/-! ## Combinations -/

/-- The path `q` as seen from `p`; an absolute path is the same from everywhere. -/
def join (p q : Path) : Path :=
  if q.isAbsolute then q
  else if p.text == "" || p.text.toList.getLast? == some '/' then ⟨p.text ++ q.text⟩
  else ⟨p.text ++ "/" ++ q.text⟩

/-- The path as seen from `p` in a text. -/
def child (p : Path) (name : String) : Path := p.join ⟨name⟩

/-- A path with text behind it. -/
def withSuffix (p : Path) (suffix : String) : Path := ⟨p.text ++ suffix⟩

/-- Leaves out what says nothing at the end of reversed segments; the first segment of a path stays
when it is a dot. -/
def dropIdleEnd : List String → List String
  | [] => []
  | [s] => if s == "" then [] else [s]
  | s :: rest => if isIdle s then dropIdleEnd rest else s :: rest

/-- The text of segments of a path. -/
def ofSegments (absolute : Bool) (segments : List String) : Path :=
  if absolute && segments.all (· == "") then ⟨"/"⟩ else ⟨"/".intercalate segments⟩

/-- The path without its last step; the root and the empty path have none. -/
def parent (p : Path) : Option Path :=
  match dropIdleEnd p.segments.reverse with
  | [] => none
  | _ :: rest => some (ofSegments p.isAbsolute (dropIdleEnd rest).reverse)

/-- The last step of a path, if it is a name. -/
def fileName (p : Path) : Option String :=
  match p.components.getLast? with
  | some (.name s) => some s
  | _ => none

/-- The parts of a file name before and behind its last dot; a dot at its front is none. -/
def splitName (name : String) : String × Option String :=
  let back := name.toList.reverse
  let ending := back.takeWhile (· ≠ '.')
  match back.drop ending.length with
  | [] => (name, none)
  | [_] => (name, none)
  | _ :: front => (String.ofList front.reverse, some (String.ofList ending.reverse))

/-- The file name without what stands behind its last dot. -/
def stem (p : Path) : Option String := p.fileName.map fun s => (splitName s).1

/-- What stands behind the last dot of the file name. -/
def extension (p : Path) : Option String := p.fileName.bind fun s => (splitName s).2

/-- What is left of some segments behind the given steps. -/
def stripSegments : List Component → List String → Option (List String)
  | cs, [] => if cs.isEmpty then some [] else none
  | cs, s :: rest =>
    if isIdle s then stripSegments cs rest
    else
      match cs with
      | [] => some (s :: rest)
      | c :: cs => if c == componentOf s then stripSegments cs rest else none

/-- The path as seen from its ancestor `base`. -/
def stripAncestor? (p base : Path) : Option Path :=
  if p.startsWith base then
    let front := base.components.filter fun c => c != .root && c != .here
    (stripSegments front p.segments).map fun segments =>
      ⟨"/".intercalate (dropIdleEnd segments.reverse).reverse⟩
  else none

/-! ## Normal form -/

/-- A component of a path in normal form, as text. -/
def Component.text : Component → String
  | .root => ""
  | .here => "."
  | .up => ".."
  | .name s => s

/-- Takes one step from the place that reversed steps lead to. A step upwards leaves the last
component, stays at the root, and is kept at the front of a relative path. -/
def step (absolute : Bool) (back : List Component) : Component → List Component
  | .root => back
  | .here => back
  | .up =>
    match back with
    | _ :: rest => rest
    | [] => if absolute then [] else [.up]
  | .name s => .name s :: back

/-- The steps of a path in normal form, without the root. -/
def normalSteps (p : Path) : List Component :=
  (p.components.foldl (step p.isAbsolute) []).reverse

/-- The path without dots, with steps upwards carried out as far as there is a component to
leave. -/
def normalize (p : Path) : Path :=
  let body := "/".intercalate (p.normalSteps.map Component.text)
  ⟨if p.isAbsolute then "/" ++ body else body⟩

/-- The path as seen from a directory, in normal form. -/
def absolute (directory p : Path) : Path :=
  (directory.join p).normalize

/-! ## Text -/

/-- A text with slashes for backslashes. -/
def slashed (text : String) : String :=
  String.ofList (text.toList.map fun c => if c == '\\' then '/' else c)

/-- The name of a module at a path below a base: without the ending of a script. -/
def canonicalName (text : String) : String :=
  let cs := text.toList
  let ending := ['.', 'j', 's']
  slashed (if ending.isSuffixOf cs then String.ofList (cs.take (cs.length - 3)) else text)

end Path

end Relink
