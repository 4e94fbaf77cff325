import Relink.Json.Decode
import Relink.Json.Read
import Relink.SourceMap.Mappings
import Relink.Text.Search

/-!
# Source maps

A source map tells for positions in generated code where they come from. It is written as a JSON
object.

* `SourceMap.render` — the text of a map.
* `SourceMap.read?` — the map that a text writes, read generously: what may be missing is empty, and
  names and files of a wrong type get a substitute.
-/

namespace Relink

/-- Where generated code comes from. -/
structure SourceMap where
  file : Option String
  sources : List String
  /-- The texts of the sources as far as they are known. -/
  contents : List (Option String)
  names : List String
  tokens : List SourceMap.Token
  deriving DecidableEq, Repr, Inhabited

namespace SourceMap

/-! ## Order -/

/-- Whether a token stands before another one or at the same position. -/
def Token.notAfter (a b : Token) : Bool :=
  a.line < b.line || (a.line == b.line && a.column ≤ b.column)

/-- Tokens in the order of their positions; tokens at one position keep their order. -/
def sortTokens (tokens : List Token) : List Token :=
  tokens.mergeSort Token.notAfter

/-! ## Writing -/

/-- A map as a JSON value; texts of sources are only mentioned when there is one. -/
def toJson (m : SourceMap) : Json :=
  .object (
    [("version", .ofNat 3)]
      ++ (match m.file with
        | some file => [("file", .string file)]
        | none => [])
      ++ [("sources", .array (m.sources.map .string))]
      ++ (if m.contents.any Option.isSome then
          [("sourcesContent", .array (m.contents.map fun c => (c.map Json.string).getD .null))]
        else [])
      ++ [("names", .array (m.names.map .string)),
        ("mappings", .string (writeMappings m.tokens))])

/-- The text of a map. -/
def render (m : SourceMap) : String := m.toJson.render

/-! ## Reading -/

/-- The characters that a line can start with that stands in front of a map to keep it from being run
as a script. -/
def isGuard (c : Char) : Bool :=
  c == ')' || c == ']' || c == '\x7d' || c == '\x27'

/-- Skips the rest of a guarding line. -/
def skipGuard : List Char → Option (List Char)
  | [] => some []
  | '\n' :: cs => some ('\n' :: cs)
  | ['\r'] => some []
  | '\r' :: '\n' :: cs => some ('\n' :: cs)
  | '\r' :: _ => none
  | _ :: cs => skipGuard cs

/-- The text behind a guarding line, if there is one. -/
def withoutGuard (text : String) : Option String :=
  match text.toList with
  | c :: cs => if isGuard c then (skipGuard cs).map String.ofList else some text
  | [] => some text

/-- A name of any type. -/
def nameOf : Json → String
  | .string s => s
  | .number n => n.text
  | _ => ""

/-- A file of any type. -/
def fileOf : Json → Option String
  | .null => none
  | .string s => some s
  | _ => some "<invalid>"

/-- A text without a slash at its end. -/
def dropSlash (text : String) : String :=
  match text.toList.reverse with
  | '/' :: back => String.ofList back.reverse
  | _ => text

/-- A source as seen from the root of the sources; absolute sources are the same from everywhere. -/
def fromRoot (root source : String) : String :=
  if startsWith "/" source || startsWith "http:" source || startsWith "https:" source then source
  else dropSlash root ++ "/" ++ source

/-- The fields of a map. -/
def fieldNames : List String :=
  ["version", "file", "sources", "sourceRoot", "sourcesContent", "sections", "names",
    "rangeMappings", "mappings", "x_facebook_sources"]

/-- A version, which is any number below 2^32. -/
def versionDecoder : Json.Decoder Nat := fun v =>
  (Json.Decoder.word v).bind fun n => if n < UInt32.size then some n else none

/-- The map of a JSON value. Maps that are made of sections are refused. -/
def ofJson? : Json → Option SourceMap
  | .object fs => do
    let fs ← Json.fields? fieldNames (.object fs)
    if !fs.usable (Json.depthLimit - 1) then none
    let _ ← fs.optional "version" versionDecoder
    let file ← fs.withDefault "file" (fun v => some (fileOf v)) none
    let sources ← fs.optional "sources" (Json.Decoder.list (Json.Decoder.optional Json.Decoder.string))
    let root ← fs.optional "sourceRoot" Json.Decoder.string
    let contents ←
      fs.optional "sourcesContent" (Json.Decoder.list (Json.Decoder.optional Json.Decoder.string))
    let _ ← fs.optional "sections" Json.Decoder.nothing
    let names ← fs.optional "names" (Json.Decoder.list some)
    let _ ← fs.optional "rangeMappings" Json.Decoder.string
    let mappings ← fs.optional "mappings" Json.Decoder.string
    let _ ← fs.optional "x_facebook_sources" Json.Decoder.nothing
    let sources := (sources.getD []).map fun s => s.getD ""
    let names := (names.getD []).map nameOf
    let tokens ← readMappings ⟨sources.length, names.length⟩ (mappings.getD "")
    let prefixed := match root with
      | some r => if r == "" then sources else sources.map (fromRoot r)
      | none => sources
    some ⟨file, prefixed, contents.getD [], names, sortTokens tokens⟩
  | _ => none

/-- The map that a text writes. -/
def read? (text : String) : Option SourceMap := do
  ofJson? (← Json.parse? (← withoutGuard text))

end SourceMap

end Relink
