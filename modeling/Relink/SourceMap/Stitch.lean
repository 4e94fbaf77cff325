import Relink.Failure
import Relink.SourceMap.Basic
import Relink.Text.Lines

/-!
# Building source maps

A map is built from lines and from other maps. Sources and names get their numbers in the order of
their first use.

* `lineMap` — each line of a text comes from the line with the same number, some lines further up.
* `offsetMap` — a map for code some lines further down.
* `Stitcher.addText` — the map of a part is added to the map of the whole.
-/

namespace Relink.SourceMap

/-- A map that is being built. -/
structure Stitcher where
  file : Option String
  sources : List String
  contents : List (Option String)
  names : List String
  tokens : List Token
  deriving DecidableEq, Repr, Inhabited

/-- The number of a text in a list, to which it is added when it is not there. -/
def intern (xs : List String) (x : String) : Nat × List String :=
  match xs.findIdx? (· == x) with
  | some i => (i, xs)
  | none => (xs.length, xs ++ [x])

namespace Stitcher

/-- The map without tokens. -/
def start (file : Option String) : Stitcher := ⟨file, [], [], [], []⟩

/-- Adds a source, or replaces its text. -/
def addSource (s : Stitcher) (name : String) (content : Option String) : Stitcher :=
  let (i, sources) := intern s.sources name
  let contents := s.contents ++ List.replicate (sources.length - s.contents.length) none
  { s with sources := sources, contents := contents.set i content }

/-- Adds a token with the texts of its source and name. -/
def addToken (s : Stitcher) (t : Token) (source name : Option String) : Stitcher :=
  let (source, sources) := match source with
    | some x => let (i, xs) := intern s.sources x; (some i, xs)
    | none => (none, s.sources)
  let (name, names) := match name with
    | some x => let (i, xs) := intern s.names x; (some i, xs)
    | none => (none, s.names)
  { s with
    sources := sources, names := names
    tokens := { t with source := source, name := name } :: s.tokens }

/-- Adds a map for code that stands some lines further down. All its sources get the name `rename`,
if there is one. -/
def addMap (s : Stitcher) (m : SourceMap) (lines : Nat) (rename : Option String) : Stitcher :=
  let s := (m.sources.zipIdx).foldl
    (fun s (source, i) => s.addSource (rename.getD source) ((m.contents[i]?).getD none)) s
  m.tokens.foldl
    (fun s t =>
      let source := t.source.bind fun i => rename.or m.sources[i]?
      let name := t.name.bind fun i => m.names[i]?
      s.addToken { t with line := t.line + lines } source name) s

/-- Adds the map that a text writes. -/
def addText (s : Stitcher) (text : String) (lines : Nat) (rename : Option String) :
    Except Failure Stitcher :=
  match SourceMap.read? text with
  | some m => .ok (s.addMap m lines rename)
  | none => .error (.configuration .badMap)

/-- The map that has been built. -/
def finish (s : Stitcher) : SourceMap :=
  ⟨s.file, s.sources, s.contents, s.names, sortTokens s.tokens.reverse⟩

end Stitcher

/-- The map of code in which the lines of a source stand behind `offset` other lines. -/
def lineMap (name source : String) (offset : Nat) : SourceMap :=
  let lines := List.range (newlines source.toList + 1)
  ⟨none, [name], [some source], [], lines.map fun i => ⟨offset + i, 0, some 0, i, 0, none⟩⟩

/-- A map for code that stands some lines further down. -/
def shift (m : SourceMap) (lines : Nat) : SourceMap :=
  ((Stitcher.start m.file).addMap m lines none).finish

/-- The text of a map for code that stands some lines further down. -/
def offsetMap (text : String) (lines : Nat) : Except Failure String :=
  match SourceMap.read? text with
  | some m => .ok (m.shift lines).render
  | none => .error (.configuration .badMap)

/-- The comment that names the file of a map. -/
def comment (name : String) : String := "//# sourceMappingURL=" ++ name

end Relink.SourceMap
