import Relink.Json.Decode
import Relink.Json.Read

/-!
# Ids of modules

A module is known inside a bundle by its place in the bundle, or by a key that is made from its
content. As JSON, the first kind is a number and the second a string.
-/

namespace Relink

/-- The id of a module inside a bundle. -/
inductive ModuleId where
  /-- The place of the module in its bundle. -/
  | dense (index : Nat)
  /-- A key made from the content of the module. -/
  | sparse (key : String)
  deriving DecidableEq, Repr, Inhabited

namespace ModuleId

def text : ModuleId → String
  | dense n => toString n
  | sparse key => key

/-- The id as an expression in a script. -/
def literal : ModuleId → String
  | dense n => toString n
  | sparse key => "\x22" ++ key ++ "\x22"

def toJson : ModuleId → Json
  | dense n => .ofNat n
  | sparse key => .string key

/-- A number below 2^64, or a string. -/
def decoder : Json.Decoder ModuleId
  | .string s => some (sparse s)
  | v => (Json.Decoder.word v).map dense

/-- The id that a text writes in JSON. -/
def parse? (text : String) : Option ModuleId := do
  let v ← Json.parse? text
  if v.usable Json.depthLimit then decoder v else none

theorem decoder_toJson_sparse (key : String) : decoder (sparse key).toJson = some (sparse key) := rfl

theorem decoder_toJson_dense {n : Nat} (h : n < UInt64.size) :
    decoder (dense n).toJson = some (dense n) := by
  have hword : Json.Number.word? ⟨false, n, 0, true⟩ = some n := by
    rw [Json.Number.word?, if_pos]
    simpa using h
  simp only [toJson, decoder, Json.ofNat, Json.Decoder.word, hword, Option.map_some]

end ModuleId

end Relink
