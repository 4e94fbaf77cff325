import Relink.Proofs.Json
import Relink.Proofs.Mappings
import Relink.SourceMap.Basic

/-!
# Source maps are read back

A map whose tokens are in the order of their positions is read back from its text, also from that in which the fields
have been put in the order of their names.

* `read?_render` — a map is read back, but for repetitions of a token.
* `read?_render_of_before` — a map without two tokens at one position is read back as it is.
-/

namespace Relink.SourceMap

open Json

variable {m : SourceMap}

/-! ## Values -/

theorem readable_three : (Json.ofNat 3).Readable where
  head := ⟨'3', rfl, Or.inl rfl⟩
  read := by
    intro rest hrest
    cases rest with
    | nil => rfl
    | cons c cs => rcases hrest c rfl with rfl | rfl | rfl <;> rfl

theorem usable_three (depth : Nat) : (Json.ofNat 3).usable depth = true := rfl

/-- The text of a source, if it is known. -/
def contentJson (c : Option String) : Json := (c.map Json.string).getD .null

section Items

variable {α : Type} {f : α → Json}

theorem readableItems_map (h : ∀ a, (f a).Readable) (as : List α) : ReadableItems (as.map f) := by
  induction as with
  | nil => trivial
  | cons a as ih => exact ⟨h a, ih⟩

theorem usableItems_map {depth : Nat} (h : ∀ a, (f a).usable depth = true) (as : List α) :
    usableItems depth (as.map f) = true := by
  induction as with
  | nil => rfl
  | cons a as ih => simp [usableItems, h a, ih]

theorem canonicalItems_map (h : ∀ a, (f a).canonical = f a) (as : List α) : canonicalItems (as.map f) = as.map f := by
  induction as with
  | nil => rfl
  | cons a as ih => simp [canonicalItems, h a, ih]

theorem list_map {β : Type} {d : Decoder β} {g : α → β} (h : ∀ a, d (f a) = some (g a)) (as : List α) :
    Decoder.list d (.array (as.map f)) = some (as.map g) := by
  induction as with
  | nil => rfl
  | cons a as ih =>
    simp only [Decoder.list] at ih ⊢
    rw [List.map_cons, List.mapM_cons, h, ih]
    rfl

end Items

theorem readableItems_string (xs : List String) : ReadableItems (xs.map .string) :=
  readableItems_map (f := Json.string) (fun _ => trivial) xs

theorem readableItems_content (cs : List (Option String)) : ReadableItems (cs.map contentJson) :=
  readableItems_map (fun c => by cases c <;> trivial) cs

theorem usableItems_string (depth : Nat) (xs : List String) : usableItems depth (xs.map .string) = true :=
  usableItems_map (fun _ => rfl) xs

theorem usableItems_content (depth : Nat) (cs : List (Option String)) : usableItems depth (cs.map contentJson) = true :=
  usableItems_map (fun c => by cases c <;> rfl) cs

theorem canonicalItems_string (xs : List String) : canonicalItems (xs.map .string) = xs.map .string :=
  canonicalItems_map (fun _ => rfl) xs

theorem canonicalItems_content (cs : List (Option String)) : canonicalItems (cs.map contentJson) = cs.map contentJson :=
  canonicalItems_map (fun c => by cases c <;> rfl) cs

theorem list_string (xs : List String) :
    Decoder.list (Decoder.optional Decoder.string) (.array (xs.map .string)) = some (xs.map some) :=
  list_map (d := Decoder.optional Decoder.string) (f := Json.string) (g := some) (fun _ => rfl) xs

theorem list_content (cs : List (Option String)) :
    Decoder.list (Decoder.optional Decoder.string) (.array (cs.map contentJson)) = some cs := by
  have hlist := list_map (d := Decoder.optional Decoder.string) (f := contentJson) (g := id)
    (fun c => by cases c <;> rfl) cs
  rwa [List.map_id] at hlist

theorem list_name (xs : List String) : Decoder.list some (.array (xs.map .string)) = some (xs.map .string) :=
  list_map (fun _ => rfl) xs

/-! ## Fields -/

/-- The texts of sources as they are written, if one is known. -/
def contentsField (m : SourceMap) : List (String × Json) :=
  if m.contents.any Option.isSome then [("sourcesContent", .array (m.contents.map contentJson))] else []

/-- The file of a map as it is written, if it has one. -/
def fileField (m : SourceMap) : List (String × Json) :=
  match m.file with
  | some file => [("file", .string file)]
  | none => []

/-- The fields of a map as they are written. -/
def fields (m : SourceMap) : List (String × Json) :=
  [("version", .ofNat 3)] ++ m.fileField ++ [("sources", .array (m.sources.map .string))] ++ m.contentsField
    ++ [("names", .array (m.names.map .string)), ("mappings", .string (writeMappings m.tokens))]

/-- The fields of a map in the order of their names. -/
def sortedFields (m : SourceMap) : List (String × Json) :=
  m.fileField ++ [("mappings", .string (writeMappings m.tokens)), ("names", .array (m.names.map .string)),
    ("sources", .array (m.sources.map .string))] ++ m.contentsField ++ [("version", .ofNat 3)]

theorem toJson_eq (m : SourceMap) : m.toJson = .object m.fields := by
  have hcontent : (fun c => (Option.map Json.string c).getD .null) = contentJson := rfl
  unfold toJson fields contentsField fileField
  cases m.file <;> simp [hcontent]

theorem canonical_toJson (m : SourceMap) : m.toJson.canonical = .object m.sortedFields := by
  rw [toJson_eq]
  have h₁ : compare "sources" "version" = .lt := by decide
  have h₂ : compare "sourcesContent" "sources" = .gt := by decide
  have h₃ : compare "sourcesContent" "version" = .lt := by decide
  have h₄ : compare "names" "sources" = .lt := by decide
  have h₅ : compare "mappings" "names" = .lt := by decide
  have h₆ : compare "file" "version" = .lt := by decide
  have h₇ : compare "sources" "file" = .gt := by decide
  have h₈ : compare "sourcesContent" "file" = .gt := by decide
  have h₉ : compare "names" "file" = .gt := by decide
  have h₁₀ : compare "mappings" "file" = .gt := by decide
  unfold fields sortedFields contentsField fileField
  cases m.file <;> by_cases hany : m.contents.any Option.isSome = true <;>
  simp [hany, canonical, canonicalFields, Json.ofNat, canonicalItems_string, canonicalItems_content, Table.ofList,
    Table.insert, Table.empty, Table.insertEntry, h₁, h₂, h₃, h₄, h₅, h₆, h₇, h₈, h₉, h₁₀]

/-- Fields that write a map. -/
structure Writes (m : SourceMap) (fs : List (String × Json)) : Prop where
  readable : ReadableFields fs
  fields : Json.fields? fieldNames (.object fs) = some ⟨fs⟩
  usable : (Fields.mk fs).usable (depthLimit - 1) = true
  version : fs.lookup "version" = some (.ofNat 3)
  file : fs.lookup "file" = m.fileField.head?.map Prod.snd
  sources : fs.lookup "sources" = some (.array (m.sources.map .string))
  contents : fs.lookup "sourcesContent" = m.contentsField.head?.map Prod.snd
  names : fs.lookup "names" = some (.array (m.names.map .string))
  mappings : fs.lookup "mappings" = some (.string (writeMappings m.tokens))
  absent : ∀ name ∈ ["sourceRoot", "sections", "rangeMappings", "x_facebook_sources"], fs.lookup name = none

theorem writes_fields (m : SourceMap) : ∀ fs ∈ [m.fields, m.sortedFields], Writes m fs := by
  simp only [List.mem_cons, List.not_mem_nil, or_false, forall_eq_or_imp, forall_eq]
  unfold fields sortedFields contentsField fileField
  cases hfile : m.file
  all_goals
    by_cases hany : m.contents.any Option.isSome = true
    all_goals
      constructor
      all_goals
        constructor
        case readable =>
          simp [hany, ReadableFields, Readable, readable_three, readableItems_string, readableItems_content]
        case usable =>
          simp [hany, Fields.usable, usable, usableItems_string, usableItems_content, depthLimit, usable_three]
        case fields => simp [hany, Json.fields?, fieldNames, namesDistinct]
        all_goals simp [hany, contentsField, fileField, hfile, List.lookup_cons]

/-! ## Maps -/

/-- The map that is read back: texts of sources are only kept when there is one. -/
def readBack (m : SourceMap) (tokens : List Token) : SourceMap :=
  ⟨m.file, m.sources, if m.contents.any Option.isSome then m.contents else [], m.names, tokens⟩

/-- What fields that write a map give back: the tokens are those that its mappings write. -/
theorem ofJson?_of_writes {fs : List (String × Json)} (h : Writes m fs) {tokens : List Token}
    (htokens : readMappings ⟨m.sources.length, m.names.length⟩ (writeMappings m.tokens) = some tokens) :
    ofJson? (.object fs) = some (m.readBack (sortTokens tokens)) := by
  have hroot := h.absent "sourceRoot" (by simp)
  have hsections := h.absent "sections" (by simp)
  have hranges := h.absent "rangeMappings" (by simp)
  have hfacebook := h.absent "x_facebook_sources" (by simp)
  have hnames : m.names.map (nameOf ∘ Json.string) = m.names := by simp [Function.comp_def, nameOf]
  have hversion : Decoder.optional versionDecoder (.ofNat 3) = some (some 3) := rfl
  have harray : ∀ {α : Type} (d : Decoder α) (xs : List Json), Decoder.optional d (.array xs) = (d (.array xs)).map some :=
    fun _ _ => rfl
  have hstring : ∀ x : String, Decoder.optional Decoder.string (.string x) = some (some x) := fun _ => rfl
  unfold ofJson? readBack
  cases hfile : m.file <;> by_cases hany : m.contents.any Option.isSome = true <;>
    simp [h.fields, h.usable, Fields.optional, Fields.withDefault, h.version, h.file, fileField, hfile, fileOf, h.sources,
      h.contents, contentsField, hany, h.names, h.mappings, hroot, hsections, hranges, hfacebook, hversion, harray, hstring,
      list_string, list_content, list_name, htokens, hnames]

/-- Fields that write a map are read back from their text. -/
theorem read?_of_writes {fs : List (String × Json)} (h : Writes m fs) {tokens : List Token}
    (htokens : readMappings ⟨m.sources.length, m.names.length⟩ (writeMappings m.tokens) = some tokens) :
    read? (Json.object fs).render = some (m.readBack (sortTokens tokens)) := by
  have hguard : withoutGuard (Json.object fs).render = some (Json.object fs).render := by
    unfold withoutGuard
    rw [Json.render, String.toList_append, String.toList_append]
    rfl
  have hreadable : (Json.object fs).Readable := h.readable
  unfold read?
  rw [hguard, Option.bind_eq_bind, Option.bind_some, parse?_render hreadable]
  exact ofJson?_of_writes h htokens

/-- A token stands before another one. -/
def Token.Before (a b : Token) : Prop := a.line < b.line ∨ a.line = b.line ∧ a.column < b.column

theorem Token.notAfter_iff {a b : Token} :
    a.notAfter b = true ↔ a.line < b.line ∨ a.line = b.line ∧ a.column ≤ b.column := by
  simp [Token.notAfter]

theorem Token.Before.notAfter {a b : Token} (h : a.Before b) : a.notAfter b = true :=
  Token.notAfter_iff.mpr (h.imp_right fun h => ⟨h.1, Nat.le_of_lt h.2⟩)

theorem sortTokens_eq_self {tokens : List Token} (h : tokens.Pairwise fun a b => a.notAfter b) :
    sortTokens tokens = tokens := List.mergeSort_of_pairwise h

/-- A map whose tokens are in the order of their positions is read back from its text, and from that in which its fields
have been put in the order of their names, but for repetitions of a token. -/
theorem read?_render (hproper : ∀ t ∈ m.tokens, t.Proper ⟨m.sources.length, m.names.length⟩)
    (hinOrder : m.tokens.Pairwise fun a b => a.notAfter b) :
    read? m.render = some (m.readBack (m.tokens.destutter (· ≠ ·))) ∧
      read? m.toJson.canonical.render = some (m.readBack (m.tokens.destutter (· ≠ ·))) := by
  have hlines : m.tokens.Pairwise fun a b => a.line ≤ b.line := by
    refine hinOrder.imp fun {a b} hab => ?_
    rcases Token.notAfter_iff.mp hab with hab | ⟨hab, -⟩ <;> omega
  have htokens := readMappings_writeMappings hproper hlines
  have hsorted := sortTokens_eq_self (hinOrder.sublist (List.destutter_sublist (· ≠ ·) m.tokens))
  unfold SourceMap.render
  rw [canonical_toJson, toJson_eq]
  constructor
  · rw [read?_of_writes (writes_fields m _ (by simp)) htokens, hsorted]
  · rw [read?_of_writes (writes_fields m _ (by simp)) htokens, hsorted]

/-- A map without two tokens at one position is read back. -/
theorem read?_render_of_before (hproper : ∀ t ∈ m.tokens, t.Proper ⟨m.sources.length, m.names.length⟩)
    (hascending : m.tokens.Pairwise Token.Before) :
    read? m.render = some (m.readBack m.tokens) ∧ read? m.toJson.canonical.render = some (m.readBack m.tokens) := by
  have hdistinct : m.tokens.IsChain (· ≠ ·) := by
    refine (hascending.imp fun {a b} hab => ?_).isChain
    rintro rfl
    rcases hab with hab | ⟨-, hab⟩ <;> omega
  have hread := read?_render hproper (hascending.imp Token.Before.notAfter)
  rwa [List.destutter_of_isChain _ _ hdistinct] at hread

end Relink.SourceMap
