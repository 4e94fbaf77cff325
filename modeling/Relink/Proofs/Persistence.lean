import Relink.Cache
import Relink.Proofs.Decoding
import Relink.Proofs.Path

/-!
# Caches are read back

A cache that has been made and refilled is read back from its text, whatever the texts, paths and ids in it are. Under
other settings it is refused.

* `Artifact.Storable` — tables are in order, and the numbers of modules have 64 bits.
* `codes_artifact` — an artifact is taken out again.
* `Cache.Built` — caches as linkers make them.
* `parse_render` — a cache is read back under its own settings only.
-/

namespace Relink

open Json

/-! ## Storable artifacts -/

/-- The place of a module is a number of 64 bits. -/
def ModuleId.Storable : ModuleId → Prop
  | .dense n => n < UInt64.size
  | .sparse _ => True

/-- The tables of a record are in order, and the ids in it can be stored. -/
structure ModuleRecord.Storable (r : ModuleRecord) : Prop where
  id : r.id.Storable
  ids : ∀ id ∈ r.dependencyMap.values, id.Storable
  dependencyMap : r.dependencyMap.Ordered
  dependencyPaths : r.dependencyPaths.Ordered
  externals : r.externals.table.Ordered
  shims : r.shims.table.Ordered

def Artifact.Storable (a : Artifact) : Prop := a.record.Storable

/-! ## Artifacts are taken out again -/

section Codes

variable {depth : Nat}

theorem codes_path (depth : Nat) (p : Path) : Codes Decoder.path depth (ofPath p) p := ⟨⟨trivial, rfl⟩, rfl⟩

theorem codes_id {id : ModuleId} (h : id.Storable) : Codes ModuleId.decoder depth id.toJson id := by
  cases id with
  | sparse key => exact ⟨⟨trivial, rfl⟩, rfl⟩
  | dense n =>
    have hword := codes_word depth h
    exact ⟨hword.toSound, ModuleId.decoder_toJson_dense h⟩

theorem codes_kind (depth : Nat) (kind : ModuleKind) : Codes ModuleKind.decoder depth kind.toJson kind :=
  ⟨⟨trivial, rfl⟩, ModuleKind.lookup_name kind⟩

/-- The fields of a record as they are written. -/
def ModuleRecord.fields (r : ModuleRecord) : List (String × Json) :=
  [("file", .ofPath r.file), ("base", .ofPath r.base), ("base_path", .string r.basePath)]
    ++ optionalField "canonical" r.canonical
    ++ [("id", r.id.toJson), ("hash", .string r.hash), ("type", r.kind.toJson),
      ("dependency_map", .ofTable ModuleId.toJson r.dependencyMap),
      ("dependency_paths", .ofTable Json.ofPath r.dependencyPaths),
      ("externals", .ofNames r.externals), ("shims", .ofNames r.shims)]

theorem ModuleRecord.nodup_fields (r : ModuleRecord) : (r.fields.map Prod.fst).Nodup := by
  have hsublist : (r.fields.map Prod.fst).Sublist fieldNames := by
    unfold fields
    cases r.canonical with
    | none => exact List.isSublist_iff_sublist.mp rfl
    | some name => exact List.Sublist.refl _
  exact hsublist.nodup (by decide)

/-- A record is taken out again. -/
theorem codes_record {r : ModuleRecord} (h : r.Storable) : Codes ModuleRecord.decoder (depth + 2) r.toJson r := by
  have hid : Codes ModuleId.decoder (depth + 1) r.id.toJson r.id := codes_id h.id
  have hmap : Codes (.table ModuleId.decoder) (depth + 1) (.ofTable ModuleId.toJson r.dependencyMap) r.dependencyMap :=
    codes_table h.dependencyMap fun id hid => codes_id (h.ids id hid)
  have hpaths : Codes (.table .path) (depth + 1) (.ofTable Json.ofPath r.dependencyPaths) r.dependencyPaths :=
    codes_table h.dependencyPaths fun p _ => codes_path depth p
  have hexternals : Codes .names (depth + 1) (.ofNames r.externals) r.externals := codes_names h.externals
  have hshims : Codes .names (depth + 1) (.ofNames r.shims) r.shims := codes_names h.shims
  have hsound : ∀ f ∈ r.fields, f.2.Sound (depth + 1) := by
    unfold ModuleRecord.fields
    simp only [List.forall_mem_append, List.forall_mem_cons, List.not_mem_nil, false_implies, implies_true, and_true]
    exact ⟨⟨⟨(codes_path _ _).toSound, (codes_path _ _).toSound, (codes_string _ _).toSound⟩,
      sound_optionalField _ _⟩, hid.toSound, (codes_string _ _).toSound, (codes_kind _ _).toSound, hmap.toSound,
      hpaths.toSound, hexternals.toSound, hshims.toSound⟩
  refine ⟨sound_object hsound, ?_⟩
  obtain ⟨fs, hfs, hlookup⟩ := fields?_canonical ModuleRecord.fieldNames r.nodup_fields
  -- what stands in the object under the name of a field, with and without the name of the module
  have hfield : ∀ name v, (∀ canonical, ({ r with canonical }).fields.lookup name = some v) →
      r.fields.lookup name = some v := fun name v h => h r.canonical
  have hfile := required_eq (hlookup "file" (by decide)) (hfield _ _ fun c => by cases c <;> rfl) (codes_path depth r.file)
  have hbase := required_eq (hlookup "base" (by decide)) (hfield _ _ fun c => by cases c <;> rfl) (codes_path depth r.base)
  have hbasePath := required_eq (hlookup "base_path" (by decide)) (hfield _ _ fun c => by cases c <;> rfl)
    (codes_string depth r.basePath)
  have hcanonical : fs.optional "canonical" Decoder.string = some r.canonical := by
    refine optional_eq (hlookup "canonical" (by decide)) ?_
    unfold ModuleRecord.fields
    cases r.canonical <;> rfl
  have hid := required_eq (hlookup "id" (by decide)) (hfield _ _ fun c => by cases c <;> rfl) hid
  have hhash := required_eq (hlookup "hash" (by decide)) (hfield _ _ fun c => by cases c <;> rfl)
    (codes_string depth r.hash)
  have hkind := required_eq (hlookup "type" (by decide)) (hfield _ _ fun c => by cases c <;> rfl) (codes_kind depth r.kind)
  have hmap := required_eq (hlookup "dependency_map" (by decide)) (hfield _ _ fun c => by cases c <;> rfl) hmap
  have hpaths := required_eq (hlookup "dependency_paths" (by decide)) (hfield _ _ fun c => by cases c <;> rfl) hpaths
  have hexternals := required_eq (hlookup "externals" (by decide)) (hfield _ _ fun c => by cases c <;> rfl) hexternals
  have hshims := withDefault_eq (hlookup "shims" (by decide)) (hfield _ _ fun c => by cases c <;> rfl) hshims .empty
  unfold ModuleRecord.decoder
  change (Json.fields? ModuleRecord.fieldNames (canonical (.object r.fields)) >>= _) = _
  rw [hfs]
  simp only [hfile, hbase, hbasePath, hcanonical, hid, hhash, hkind, hmap, hpaths, hexternals, hshims,
    Option.bind_eq_bind, Option.bind_some]

/-- The fields of code as they are written. -/
def ModuleCode.fields (c : ModuleCode) : List (String × Json) :=
  [("source", .string c.source)] ++ optionalField "map" c.map
    ++ [("min_source", .string c.minSource)] ++ optionalField "min_map" c.minMap

theorem ModuleCode.nodup_fields (c : ModuleCode) : (c.fields.map Prod.fst).Nodup := by
  have hsublist : (c.fields.map Prod.fst).Sublist ["source", "map", "min_source", "min_map"] := by
    unfold fields
    cases c.map <;> cases c.minMap <;> exact List.isSublist_iff_sublist.mp rfl
  exact hsublist.nodup (by decide)

/-- Code is taken out again. -/
theorem codes_code (depth : Nat) (c : ModuleCode) : Codes ModuleCode.decoder (depth + 1) c.toJson c := by
  have hsound : ∀ f ∈ c.fields, f.2.Sound depth := by
    unfold ModuleCode.fields
    simp only [List.forall_mem_append, List.forall_mem_cons, List.not_mem_nil, false_implies, implies_true, and_true]
    exact ⟨⟨⟨(codes_string _ _).toSound, sound_optionalField _ _⟩, (codes_string _ _).toSound⟩, sound_optionalField _ _⟩
  refine ⟨sound_object hsound, ?_⟩
  obtain ⟨fs, hfs, hlookup⟩ := fields?_canonical ["source", "map", "min_source", "min_map"] c.nodup_fields
  have hsource : fs.required "source" Decoder.string = some c.source :=
    required_eq (hlookup "source" (by decide)) rfl (codes_string depth c.source)
  have hmap : fs.optional "map" Decoder.string = some c.map := by
    refine optional_eq (hlookup "map" (by decide)) ?_
    unfold ModuleCode.fields
    cases c.map <;> cases c.minMap <;> rfl
  have hminSource : fs.required "min_source" Decoder.string = some c.minSource := by
    refine required_eq (hlookup "min_source" (by decide)) ?_ (codes_string depth c.minSource)
    unfold ModuleCode.fields
    cases c.map <;> rfl
  have hminMap : fs.optional "min_map" Decoder.string = some c.minMap := by
    refine optional_eq (hlookup "min_map" (by decide)) ?_
    unfold ModuleCode.fields
    cases c.map <;> cases c.minMap <;> rfl
  unfold ModuleCode.decoder
  change (Json.fields? _ (canonical (.object c.fields)) >>= _) = _
  rw [hfs]
  simp only [hsource, hmap, hminSource, hminMap, Option.bind_eq_bind, Option.bind_some]

/-- An artifact is taken out again. -/
theorem codes_artifact {a : Artifact} (h : a.Storable) : Codes Artifact.decoder (depth + 3) a.toJson a := by
  have hrecord : Codes ModuleRecord.decoder (depth + 2) a.record.toJson a.record := codes_record h
  have hcode := codes_code (depth + 1) a.code
  have hsound : ∀ f ∈ [("module", a.record.toJson), ("code", a.code.toJson)], f.2.Sound (depth + 2) := by
    simp only [List.forall_mem_cons, List.not_mem_nil, false_implies, implies_true, and_true]
    exact ⟨hrecord.toSound, hcode.toSound⟩
  refine ⟨sound_object hsound, ?_⟩
  have hnodup : ["module", "code"].Nodup := by decide
  obtain ⟨fs, hfs, hlookup⟩ := @fields?_canonical ["module", "code"]
    [("module", a.record.toJson), ("code", a.code.toJson)] hnodup
  unfold Artifact.decoder Artifact.toJson
  rw [hfs]
  simp only [required_eq (hlookup "module" (by decide)) rfl hrecord, required_eq (hlookup "code" (by decide)) rfl hcode,
    Option.bind_eq_bind, Option.bind_some]

/-- Settings are taken out again. -/
theorem codes_settings (depth : Nat) (s : CodeSettings) : Codes CodeSettings.decoder (depth + 1) s.toJson s := by
  have htarget : ((s.target.map Target.toJson).getD .null).Sound depth := by
    cases s.target with
    | none => exact ⟨trivial, rfl⟩
    | some target => exact (codes_string depth target.name).toSound
  have hsound : ∀ f ∈ [("minify", Json.bool s.minify), ("applyTransforms", .bool s.applyTransforms),
      ("target", (s.target.map Target.toJson).getD .null)], f.2.Sound depth := by
    simp only [List.forall_mem_cons, List.not_mem_nil, false_implies, implies_true, and_true]
    exact ⟨(codes_bool _ _).toSound, (codes_bool _ _).toSound, htarget⟩
  refine ⟨sound_object hsound, ?_⟩
  have hnodup : ["minify", "applyTransforms", "target"].Nodup := by decide
  obtain ⟨fs, hfs, hlookup⟩ := @fields?_canonical ["minify", "applyTransforms", "target"]
    [("minify", Json.bool s.minify), ("applyTransforms", .bool s.applyTransforms),
      ("target", (s.target.map Target.toJson).getD .null)] hnodup
  have hread : fs.optional "target" Target.decoder = some s.target := by
    rw [Fields.optional, Fields.withDefault, hlookup "target" (by decide)]
    cases s.target with
    | none => rfl
    | some target => exact congrArg (Option.map some) target.lookup_name
  unfold CodeSettings.decoder CodeSettings.toJson
  change (Json.fields? _ (canonical (.object _)) >>= _) = _
  rw [hfs]
  simp only [required_eq (hlookup "minify" (by decide)) rfl (codes_bool 0 s.minify),
    required_eq (hlookup "applyTransforms" (by decide)) rfl (codes_bool 0 s.applyTransforms), hread,
    Option.bind_eq_bind, Option.bind_some]

end Codes

/-! ## Caches are read back -/

namespace Cache

/-- Caches as linkers make them: an empty one, and one that has been filled anew. -/
inductive Built : Cache → Prop where
  | empty (settings : CodeSettings) : Built (.empty settings)
  | replace {c : Cache} (hc : Built c) {artifacts : List Artifact} (h : ∀ a ∈ artifacts, a.Storable) :
      Built (c.replace artifacts)

/-- What is kept in a cache that has been built. -/
structure Kept (c : Cache) : Prop where
  ordered : c.artifacts.Ordered
  keys : ∀ e ∈ c.artifacts.entries, e.1 = e.2.record.file
  storable : ∀ a ∈ c.artifacts.values, a.Storable

variable {c : Cache}

theorem Built.kept (h : c.Built) : c.Kept := by
  cases h with
  | empty settings => exact ⟨Table.ordered_empty, List.forall_mem_nil _, List.forall_mem_nil _⟩
  | replace hc hstorable =>
    rename_i artifacts
    have hentry : ∀ e ∈ (index artifacts).entries, e.2 ∈ artifacts ∧ e.1 = e.2.record.file := by
      intro e he
      obtain ⟨a, ha, rfl⟩ := List.mem_map.mp (Table.mem_of_mem_ofList he)
      exact ⟨ha, rfl⟩
    refine ⟨Table.ordered_ofList _, fun e he => (hentry e he).2, ?_⟩
    intro a ha
    obtain ⟨e, he, rfl⟩ := List.mem_map.mp ha
    exact hstorable e.2 (hentry e he).1

/-- The artifacts of a cache come to stand where they stood. -/
theorem Kept.index_values (h : c.Kept) : index c.artifacts.values = c.artifacts := by
  have hentries : c.artifacts.values.map (fun a => (a.record.file, a)) = c.artifacts.entries := by
    unfold Table.values
    rw [List.map_map]
    refine (List.map_congr_left fun e he => ?_).trans (List.map_id _)
    exact Prod.ext (h.keys e he).symm rfl
  rw [index, hentries, Table.ofList_entries h.ordered]

/-- The fields of a cache as they are written. -/
def fields (c : Cache) : List (String × Json) :=
  [("version", .ofNat version), ("settings", c.settings.toJson),
    ("artifacts", .array (c.artifacts.values.map Artifact.toJson))]

/-- The text of a cache gives its version, its settings and its artifacts. -/
theorem Kept.parseCanonical?_render (h : c.Kept) : ∃ v, Json.parseCanonical? c.render = some v ∧
    versionOf v = some version ∧ contentOf v = some (c.settings, c.artifacts.values) := by
  have hversion := codes_word 126 (n := version) (by decide)
  have hsettings := codes_settings 125 c.settings
  have hartifacts : Codes (.list Artifact.decoder) 126 (.array (c.artifacts.values.map Artifact.toJson))
      c.artifacts.values := codes_list fun a ha => codes_artifact (h.storable a ha)
  have hsound : c.toJson.Sound depthLimit := by
    refine @sound_object 126 c.fields ?_
    unfold fields
    simp only [List.forall_mem_cons, List.not_mem_nil, false_implies, implies_true, and_true]
    exact ⟨hversion.toSound, hsettings.toSound, hartifacts.toSound⟩
  have hnodup : (c.fields.map Prod.fst).Nodup := by
    have hnames : ["version", "settings", "artifacts"].Nodup := by decide
    exact hnames
  obtain ⟨fs, hfs, hlookup⟩ := fields?_canonical ["settings", "artifacts"] hnodup
  refine ⟨c.toJson.canonical, ?_, ?_, ?_⟩
  · rw [parseCanonical?, render, parse?_render hsound.readable]
    simp [hsound.usable]
  · change (((sorted c.fields).entries.lookup "version").bind Decoder.word) = some version
    rw [lookup_sorted hnodup]
    exact hversion.decoded
  · unfold contentOf
    change (Json.fields? _ (canonical (.object c.fields)) >>= _) = _
    rw [hfs]
    simp only [required_eq (hlookup "settings" (by decide)) rfl hsettings,
      required_eq (hlookup "artifacts" (by decide)) rfl hartifacts, Option.bind_eq_bind, Option.bind_some]

/-- A cache that has been built is read back from its text under its own settings; under others it is refused. -/
theorem parse_render (h : c.Built) (settings : CodeSettings) :
    parse c.render settings =
      if c.settings = settings then .ok c else .error (.cacheFormat (.settings c.settings settings)) := by
  obtain ⟨v, hv, hversion, hcontent⟩ := h.kept.parseCanonical?_render
  simp only [parse, hv, hversion, hcontent, bne_self_eq_false, Bool.false_eq_true, if_false, bne_iff_ne, ne_eq, ite_not,
    h.kept.index_values]

/-- A module that is known by its place, with a name and a map. -/
def counter : Artifact where
  record := {
    file := ⟨"/p/src//count\x22er.js"⟩, base := ⟨"/p/src"⟩, basePath := "count\x22er.js", canonical := some "count\x22er",
    id := .dense 1, hash := "9c", kind := .js,
    dependencyMap := .ofList [("./step", .sparse "1"), ("./start", .dense 0)],
    dependencyPaths := .ofList [("./step", ⟨"/p/src/step.json"⟩), ("./start", ⟨"/p/src/start.js"⟩)],
    externals := .ofList ["react", "fs"], shims := .empty }
  code := ⟨"exports.n = \x22\x07\n\x22;", some "\x7b\x7d", "exports.n=7", none⟩

/-- A module that is known by a key, without a name and without maps. -/
def step : Artifact where
  record := {
    file := ⟨"/p/src/step.json"⟩, base := ⟨"/p/src"⟩, basePath := "step.json", canonical := none, id := .sparse "1",
    hash := "", kind := .json, dependencyMap := .empty, dependencyPaths := .empty, externals := .empty,
    shims := .ofList ["process"] }
  code := ⟨"module.exports = 1;", none, "", none⟩

/-- A cache of two modules. -/
def filled : Cache := (empty ⟨true, false, some .es2017⟩).replace [step, counter]

theorem parse_render_filled :
    filled.Built ∧ filled.artifacts.keys = [⟨"/p/src//count\x22er.js"⟩, ⟨"/p/src/step.json"⟩] ∧
      parse filled.render ⟨true, false, some .es2017⟩ = .ok filled ∧
      parse filled.render ⟨true, false, none⟩ =
        .error (.cacheFormat (.settings ⟨true, false, some .es2017⟩ ⟨true, false, none⟩)) := by
  have hstorable : ∀ a ∈ [step, counter], a.Storable := by
    simp only [List.forall_mem_cons, List.not_mem_nil, false_implies, implies_true, and_true]
    constructor
    · exact ⟨trivial, List.forall_mem_nil _, Table.ordered_empty, Table.ordered_empty, Table.ordered_empty,
        NameSet.ordered_ofList _⟩
    · refine ⟨(by decide : 1 < UInt64.size), ?_, Table.ordered_ofList _, Table.ordered_ofList _,
        NameSet.ordered_ofList _, Table.ordered_empty⟩
      have hids : counter.record.dependencyMap.values = [.dense 0, .sparse "1"] := by decide
      rw [hids]
      exact List.forall_mem_cons.mpr ⟨(by decide : 0 < UInt64.size), by simp [ModuleId.Storable]⟩
  have hbuilt : filled.Built := .replace (.empty _) hstorable
  exact ⟨hbuilt, by decide, parse_render hbuilt _, parse_render hbuilt _⟩

end Cache

end Relink
