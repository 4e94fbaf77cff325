import Relink.Json.Value

/-!
# Taking values out of JSON

Decoders for the shapes that files contain. A record is written as an object, or as an array of its
fields in their order; fields that it does not have are passed over, and none of its own may occur
twice in an object.
-/

namespace Relink.Json

/-- Reads a value, or refuses it. -/
abbrev Decoder (α : Type) := Json → Option α

namespace Decoder

def bool : Decoder Bool
  | .bool b => some b
  | _ => none

def string : Decoder String
  | .string s => some s
  | _ => none

/-- A natural number below 2^64. -/
def word : Decoder Nat
  | .number n => n.word?
  | _ => none

/-- No value at all. -/
def nothing : Decoder Unit := fun _ => none

/-- A value that may be absent. -/
def optional {α : Type} (d : Decoder α) : Decoder (Option α)
  | .null => some none
  | v => (d v).map some

def list {α : Type} (d : Decoder α) : Decoder (List α)
  | .array xs => xs.mapM d
  | _ => none

/-- An object whose fields are entries of a table. -/
def table {α : Type} (d : Decoder α) : Decoder (Table String α)
  | .object fs => (fs.mapM fun f => (d f.2).map fun v => (f.1, v)).map Table.ofList
  | _ => none

/-- A set of names as a list. -/
def names : Decoder NameSet := fun v => ((list string) v).map NameSet.ofList

/-- One of several words; a word may also be written as an object with the word as its only key and
no value. -/
def oneOf {α : Type} (words : List (String × α)) : Decoder α
  | .string s => words.lookup s
  | .object [(s, .null)] => words.lookup s
  | _ => none

end Decoder

/-- The fields of a record: the value of each field that is present. -/
structure Fields where
  values : List (String × Json)

/-- Whether no name occurs twice in a list. -/
def namesDistinct : List String → Bool
  | [] => true
  | x :: xs => !xs.contains x && namesDistinct xs

/-- The fields of a record with the given field names. -/
def fields? (names : List String) : Json → Option Fields
  | .object fs =>
    let known := fs.filter fun f => names.contains f.1
    if namesDistinct (known.map Prod.fst) then some ⟨known⟩ else none
  | .array xs => if xs.length ≤ names.length then some ⟨names.zip xs⟩ else none
  | _ => none

/-- The fields of a record that has to be complete when it is written as an array. -/
def completeFields? (names : List String) : Json → Option Fields
  | .array xs => if xs.length = names.length then fields? names (.array xs) else none
  | v => fields? names v

namespace Fields

/-- Whether all fields can be taken in, when the record itself is nested one level deep. -/
def usable (fs : Fields) (depth : Nat) : Bool :=
  fs.values.all fun f => f.2.usable depth

/-- A field that has to be present. -/
def required {α : Type} (fs : Fields) (name : String) (d : Decoder α) : Option α :=
  (fs.values.lookup name).bind d

/-- A field with a default. -/
def withDefault {α : Type} (fs : Fields) (name : String) (d : Decoder α) (default : α) : Option α :=
  match fs.values.lookup name with
  | some v => d v
  | none => some default

/-- A field that may be absent or null. -/
def optional {α : Type} (fs : Fields) (name : String) (d : Decoder α) : Option (Option α) :=
  fs.withDefault name (Decoder.optional d) none

end Fields

end Relink.Json
