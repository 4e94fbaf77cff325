import Relink.Target

/-!
# Code settings

The part of a configuration that decides what code is made of a module. Code that was made under other
settings cannot be used again.
-/

namespace Relink

/-- What code is made of a module. -/
structure CodeSettings where
  minify : Bool
  applyTransforms : Bool
  target : Option Target
  deriving DecidableEq, Repr, Inhabited

namespace CodeSettings

/-- A truth value as it stands in a message. -/
def flagText (b : Bool) : String := if b then "true" else "false"

/-- The settings as they stand in a message. -/
def text (s : CodeSettings) : String :=
  "CodeSettings \x7b minify: " ++ flagText s.minify
    ++ ", apply_transforms: " ++ flagText s.applyTransforms
    ++ ", target: " ++ (match s.target with
      | some t => "Some(" ++ t.label ++ ")"
      | none => "None")
    ++ " \x7d"

def toJson (s : CodeSettings) : Json :=
  .object [
    ("minify", .bool s.minify),
    ("applyTransforms", .bool s.applyTransforms),
    ("target", (s.target.map Target.toJson).getD .null)]

def decoder : Json.Decoder CodeSettings := fun v => do
  let fs ← Json.completeFields? ["minify", "applyTransforms", "target"] v
  let minify ← fs.required "minify" Json.Decoder.bool
  let applyTransforms ← fs.required "applyTransforms" Json.Decoder.bool
  let target ← fs.optional "target" Target.decoder
  some ⟨minify, applyTransforms, target⟩

end CodeSettings

end Relink
