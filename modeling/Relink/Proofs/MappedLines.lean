import Relink.Proofs.Consistent
import Relink.Proofs.Documents
import Relink.Proofs.Stitching

/-!
# The map of a bundle

* `Artifact.MapsTo` — the code of an artifact has every line of the source of a module behind its head.
* `Bundle.textBefore` — the text of a bundle in front of the code of an artifact.
* `Bundle.assemble_of_mapsTo` — the map of a bundle leads from the lines of each code to those of its source.
* `Linker.read?_map_of_link` — so it is for the bundles of a link.
-/

namespace Relink

open Linking Relink.Partition SourceMap

/-! ## Texts of one line -/

theorem newlines_le_utf8ByteSize (text : String) : newlines text.toList ≤ text.utf8ByteSize := by
  rw [← byteLength_toList]
  induction text.toList with
  | nil => exact Nat.le_refl 0
  | cons c cs ih =>
    have hpos := c.utf8Size_pos
    rw [newlines, byteLength]
    split <;> omega

theorem not_mem_digest (text : String) : '\n' ∉ (Digest.ofText text).toList := by
  have hdigit : ∀ n < 16, hexDigit n ≠ '\n' := by decide
  have hbyte : ∀ b : UInt8, '\n' ∉ Digest.byteText b := by
    intro b
    have hb := b.toNat_lt
    simp only [Digest.byteText, List.mem_cons, List.not_mem_nil, or_false, not_or]
    exact ⟨(hdigit _ (by omega)).symm, (hdigit _ (by omega)).symm⟩
  unfold Digest.ofText Digest.ofBytes
  simp [Digest.wordText, hbyte]

/-- The keys of a digest of one line have one line. -/
theorem not_mem_freshKey {hash : String} (h : '\n' ∉ hash.toList) (used : List String) :
    '\n' ∉ (freshKey hash used).toList := by
  have hkeys : ∀ key ∈ keyFronts hash.toList ++ numberedKeys hash used, '\n' ∉ key.toList := by
    intro key hkey
    rcases List.mem_append.mp hkey with hkey | hkey
    · obtain ⟨i, -, rfl⟩ := List.mem_map.mp hkey
      rw [String.toList_ofList]
      exact fun hmem => h (List.mem_of_mem_take hmem)
    · obtain ⟨i, -, rfl⟩ := List.mem_map.mp hkey
      simp [h, not_mem_toDigits]
  unfold freshKey
  cases hfind : (keyFronts hash.toList ++ numberedKeys hash used).find? fun key => !used.contains key with
  | none => exact h
  | some key => exact hkeys key (List.mem_of_find?_eq_some hfind)

section Ids

variable {g : ModuleGraph}

theorem not_mem_assignSparse (hhash : ∀ i, '\n' ∉ (g.hashAt i).toList) {places : List Nat} {used : List String} :
    ∀ e ∈ (assignSparse g used places).1, '\n' ∉ e.2.literal.toList := by
  induction places generalizing used with
  | nil => simp [assignSparse]
  | cons i rest ih =>
    rw [assignSparse]
    intro e he
    rcases List.mem_cons.mp he with rfl | he
    · simp [ModuleId.literal, not_mem_freshKey (hhash i)]
    · exact ih e he

/-- The ids of modules whose digests have one line have one line. -/
theorem not_mem_assignFrom (hhash : ∀ i, '\n' ∉ (g.hashAt i).toList) {ps : List Partition} {used : List String} :
    ∀ e ∈ assignFrom g used ps, '\n' ∉ e.2.literal.toList := by
  induction ps generalizing used with
  | nil => simp [assignFrom]
  | cons p ps ih =>
    rw [assignFrom]
    intro e he
    split at he
    · rcases List.mem_append.mp he with he | he
      · obtain ⟨⟨i, place⟩, -, rfl⟩ := List.mem_map.mp he
        simp [ModuleId.literal, not_mem_toDigits]
      · exact ih e he
    · rcases List.mem_append.mp he with he | he
      · exact not_mem_assignSparse hhash e he
      · exact ih e he

end Ids

/-! ## Code -/

/-- The code of an artifact is that of a module: it has a head, and behind this the lines of the source, to
which its map leads. -/
structure Artifact.MapsTo (a : Artifact) (m : Module) : Prop where
  file : a.record.file = m.file
  basePath : a.record.basePath = m.basePath
  source : ∃ body, a.code.source = Step.headText m.basePath ++ body ∧
    newlines m.source.toList ≤ newlines body.toList
  map : a.code.map = some (lineMap m.basePath m.source (newlines (Step.headText m.basePath).toList)).render

namespace Bundle

/-! ## The text of a bundle -/

/-- What stands in front of the code of an artifact in the table of modules. -/
def label (b : Bundle) (a : Artifact) : String :=
  match b.assembly with
  | .dense => ""
  | .sparse => a.record.id.literal ++ ": "

/-- Some artifacts in the table of modules. -/
def tableText (b : Bundle) : List Artifact → String
  | [] => ""
  | a :: as => b.label a ++ a.code.source ++ ",\n" ++ b.tableText as

/-- The text of a bundle. -/
def text (b : Bundle) : String := b.frontText ++ b.tableText b.artifacts ++ b.backText

/-- The text of a bundle in front of the code of the artifact at a place. -/
def textBefore (b : Bundle) (place : Nat) : String :=
  b.frontText ++ b.tableText (b.artifacts.take place) ++ (b.artifacts[place]?).elim "" b.label

/-- What the map of a bundle says of the artifact at a place, which is made of a module: each line of the source
stands behind what is in front of the code and behind its head. -/
def codePointings (b : Bundle) (a : Artifact) (m : Module) (place : Nat) : List Pointing :=
  linePointings ("@@/" ++ a.record.basePath) (newlines m.source.toList)
    (newlines (b.textBefore place).toList + newlines (Step.headText a.record.basePath).toList)

/-- What the map of a bundle says of the first artifacts, which are made of modules. -/
def pointings (b : Bundle) (made : List (Artifact × Module)) : List Pointing :=
  made.zipIdx.flatMap fun e => b.codePointings e.1.1 e.1.2 e.2

/-- The sources of the first artifacts, which are made of modules, and their texts. -/
def texts (made : List (Artifact × Module)) : List (String × String) :=
  made.map fun e => ("@@/" ++ e.1.record.basePath, e.2.source)

variable {b : Bundle}

theorem tableText_append (as as' : List Artifact) : b.tableText (as ++ as') = b.tableText as ++ b.tableText as' := by
  induction as with
  | nil => simp [tableText]
  | cons a as ih => simp only [List.cons_append, tableText, ih, String.append_assoc]

theorem textBefore_length {done rest : List Artifact} {a : Artifact} (h : b.artifacts = done ++ a :: rest) :
    b.textBefore done.length = b.frontText ++ b.tableText done ++ b.label a := by
  unfold textBefore
  rw [h]
  simp

/-- The text of a bundle has the code of every artifact behind the text in front of it. -/
theorem exists_text_eq {place : Nat} {a : Artifact} (h : b.artifacts[place]? = some a) :
    ∃ rest, b.text = b.textBefore place ++ a.code.source ++ rest := by
  have hartifacts : b.artifacts = b.artifacts.take place ++ a :: b.artifacts.drop (place + 1) := by
    conv_lhs => rw [← List.take_append_drop place b.artifacts]
    rw [List.drop_eq_getElem?_toList_append, h]
    rfl
  refine ⟨",\n" ++ b.tableText (b.artifacts.drop (place + 1)) ++ b.backText, ?_⟩
  have htable := congrArg b.tableText hartifacts
  unfold text textBefore
  rw [htable, h, tableText_append, tableText]
  simp [String.append_assoc]

/-! ## Drafts -/

/-- A script with the first artifacts of a bundle, which are made of modules. -/
structure Draft.Holds (b : Bundle) (made : List (Artifact × Module)) (d : Draft) : Prop where
  source : d.source = b.frontText ++ b.tableText (made.map Prod.fst)
  lines : d.lines = newlines d.source.toList
  map : ∃ s, d.map = some s ∧ s.Holds (b.pointings made) (texts made) ∧ s.sources.length ≤ made.length
  room : made.length ≤ d.lines
  within : ∀ p ∈ b.pointings made, p.line < d.lines ∧ p.column = 0 ∧ p.sourceLine < d.lines ∧ p.sourceColumn = 0
  ascending : (b.pointings made).Pairwise fun p q => p.line < q.line

theorem newlines_label {a : Artifact} (h : '\n' ∉ a.record.id.literal.toList) : newlines (b.label a).toList = 0 := by
  refine newlines_eq_zero ?_
  unfold label
  cases b.assembly with
  | dense => simp
  | sparse => simp [h]

theorem pointings_concat (made : List (Artifact × Module)) (a : Artifact) (m : Module) :
    b.pointings (made ++ [(a, m)]) = b.pointings made ++ b.codePointings a m made.length := by
  simp [pointings, List.zipIdx_append]

/-- A further module is added with its lines. -/
theorem addModule_of_mapsTo {made : List (Artifact × Module)} {d : Draft} (hd : d.Holds b made) {a : Artifact} {m : Module}
    {rest : List Artifact} (hartifacts : b.artifacts = made.map Prod.fst ++ a :: rest) (ha : a.MapsTo m)
    (hid : b.assembly = .dense → a.record.id = .dense made.length) (hlabel : newlines (b.label a).toList = 0)
    (hsize : newlines m.source.toList < 2 ^ 32) :
    ∃ d' : Draft, b.addModule false d a made.length = .ok d' ∧ d'.Holds b (made ++ [(a, m)]) := by
  obtain ⟨s, hs, hholds, hsources⟩ := hd.map
  obtain ⟨body, hbody, hlines⟩ := ha.source
  obtain ⟨s', hadd, hlength, hholds'⟩ := hholds.addText m.basePath m.source ("@@/" ++ a.record.basePath)
    (newlines (Step.headText m.basePath).toList) d.lines hsize
  have hcheck : (b.assembly == .dense && a.record.id != .dense made.length) = false := by
    by_cases hdense : b.assembly = .dense
    · simp [hid hdense]
    · simp [hdense]
  have hbefore : newlines (b.textBefore made.length).toList = d.lines := by
    have htext := textBefore_length (b := b) hartifacts
    rw [List.length_map] at htext
    rw [htext, ← hd.source, String.toList_append, newlines_append, hlabel, Nat.add_zero, hd.lines]
  have hpointings : linePointings ("@@/" ++ a.record.basePath) (newlines m.source.toList)
      (d.lines + newlines (Step.headText m.basePath).toList) = b.codePointings a m made.length := by
    rw [codePointings, hbefore, ha.basePath]
  have hcode : newlines (Step.headText m.basePath).toList + newlines m.source.toList ≤ newlines a.code.source.toList := by
    rw [hbody, String.toList_append, newlines_append]
    omega
  have hnew : ∀ p ∈ b.codePointings a m made.length, d.lines ≤ p.line ∧ p.line < d.lines + newlines a.code.source.toList + 1 ∧
      p.column = 0 ∧ p.sourceLine ≤ newlines m.source.toList ∧ p.sourceColumn = 0 := by
    intro p hp
    rw [← hpointings] at hp
    obtain ⟨i, hi, rfl⟩ := List.mem_map.mp hp
    have hi : i < newlines m.source.toList + 1 := List.mem_range.mp hi
    refine ⟨?_, ?_, rfl, ?_, rfl⟩ <;> dsimp only <;> omega
  have hadded : b.addModule false d a made.length =
      .ok ⟨d.source ++ b.label a ++ a.code.source ++ ",\n", d.lines + newlines a.code.source.toList + 1, some s'⟩ := by
    unfold addModule addMap
    rw [hcheck, hs, ha.map]
    simp only [hadd]
    rfl
  refine ⟨_, hadded, ?_, ?_, ?_, ?_, ?_, ?_⟩
  · simp [hd.source, tableText_append, tableText, String.append_assoc]
  · simp only [String.toList_append, newlines_append, hlabel, ← hd.lines]
    simp [newlines]
  · refine ⟨s', rfl, ?_, ?_⟩
    · rw [pointings_concat, ← hpointings, texts, List.map_append]
      exact hholds'
    · rw [List.length_append]
      exact hlength.trans (Nat.add_le_add_right hsources 1)
  · have hroom := hd.room
    simp only [List.length_append, List.length_singleton]
    omega
  · intro p hp
    simp only
    rw [pointings_concat] at hp
    rcases List.mem_append.mp hp with hp | hp
    · obtain ⟨hline, hcolumn, hsourceLine, hsourceColumn⟩ := hd.within p hp
      omega
    · obtain ⟨-, hline, hcolumn, hsourceLine, hsourceColumn⟩ := hnew p hp
      omega
  · rw [pointings_concat]
    refine List.pairwise_append.mpr ⟨hd.ascending, ?_, ?_⟩
    · rw [← hpointings]
      refine List.pairwise_map.mpr (List.pairwise_lt_range.imp fun {i j} hij => ?_)
      exact Nat.add_lt_add_left hij _
    · intro p hp q hq
      exact (hd.within p hp).1.trans_le (hnew q hq).1

/-- The modules behind some others are added with their lines. -/
theorem foldlM_addModule {rest made : List (Artifact × Module)} {d : Draft} (hd : d.Holds b made)
    (hartifacts : b.artifacts = (made ++ rest).map Prod.fst) (hmaps : ∀ e ∈ rest, e.1.MapsTo e.2) (horder : b.InOrder)
    (hlabel : ∀ a ∈ b.artifacts, newlines (b.label a).toList = 0)
    (hsize : ∀ e ∈ rest, newlines e.2.source.toList < 2 ^ 32) :
    ∃ d' : Draft, ((rest.map Prod.fst).zipIdx made.length).foldlM (fun d e => b.addModule false d e.1 e.2) d = .ok d' ∧
      d'.Holds b (made ++ rest) := by
  induction rest generalizing made d with
  | nil => exact ⟨d, rfl, by rwa [List.append_nil]⟩
  | cons e rest ih =>
    obtain ⟨a, m⟩ := e
    have hartifacts' : b.artifacts = made.map Prod.fst ++ a :: rest.map Prod.fst := by simpa using hartifacts
    have hplace : b.artifacts[made.length]? = some a := by
      rw [hartifacts', List.getElem?_append_right (by simp)]
      simp
    obtain ⟨d₁, hadd, hd₁⟩ := addModule_of_mapsTo hd hartifacts' (hmaps _ List.mem_cons_self)
      (fun hdense => horder hdense _ _ hplace) (hlabel a (List.mem_of_getElem? hplace)) (hsize _ List.mem_cons_self)
    obtain ⟨d', hfold, hd'⟩ := ih hd₁ (by simpa using hartifacts) (fun e he => hmaps e (List.mem_cons_of_mem _ he))
      (fun e he => hsize e (List.mem_cons_of_mem _ he))
    refine ⟨d', ?_, by simpa using hd'⟩
    rw [List.map_cons, List.zipIdx_cons, List.foldlM_cons, hadd]
    rw [List.length_append] at hfold
    exact hfold

/-! ## Assembly -/

/-- The map of a bundle leads from the lines of each code to those of its source, and from no other. It shows the last
text under the name of each source. -/
theorem assemble_shows {made : List (Artifact × Module)} (hmade : made.map Prod.fst = b.artifacts)
    (hmaps : ∀ e ∈ made, e.1.MapsTo e.2) (horder : b.InOrder) (hlabel : ∀ a ∈ b.artifacts, newlines (b.label a).toList = 0)
    (hsize : newlines b.text.toList < UInt32.size) :
    ∃ out map m, b.assemble false = .ok out ∧ out.source = b.text ∧ out.map = some map ∧
      read? map.toJson.canonical.render = some m ∧ m.pointings = b.pointings made ∧ m.Shows (texts made) ∧
      (b.pointings made).Pairwise fun p q => p.line < q.line := by
  have hstart : Draft.Holds b [] ⟨b.frontText, newlines b.frontText.toList, some (.start none)⟩ :=
    ⟨by simp [tableText], rfl, ⟨_, rfl, Stitcher.holds_start, Nat.zero_le _⟩, Nat.zero_le _, by simp [pointings],
      by simp [pointings]⟩
  have hsources : ∀ e ∈ made, newlines e.2.source.toList < 2 ^ 32 := by
    rintro ⟨a, m⟩ he
    have ha : a ∈ b.artifacts := hmade ▸ List.mem_map_of_mem he
    obtain ⟨place, hplace⟩ := List.getElem?_of_mem ha
    obtain ⟨rest, htext⟩ := exists_text_eq hplace
    obtain ⟨body, hbody, hlines⟩ := (hmaps _ he).source
    rw [htext, hbody] at hsize
    simp only [String.toList_append, newlines_append, UInt32.size] at hsize
    simp only at hlines ⊢
    omega
  obtain ⟨d, hfold, hd⟩ := foldlM_addModule hstart (show b.artifacts = ([] ++ made).map Prod.fst from hmade.symm) hmaps horder
    hlabel hsources
  obtain ⟨s, hs, hholds, hlength⟩ := hd.map
  have hlines : d.lines < 2 ^ 32 := by
    have hsource : b.text = d.source ++ b.backText := by
      rw [hd.source, List.nil_append, hmade]
      rfl
    rw [hsource, String.toList_append, newlines_append, ← hd.lines] at hsize
    simp only [UInt32.size] at hsize
    omega
  have hroom := hd.room
  rw [List.nil_append] at hd hholds hlength hroom
  obtain ⟨m, hread, hpointings, hshows⟩ := hholds.read?_finish (by omega) (fun p hp => by
    obtain ⟨hline, hcolumn, hsourceLine, hsourceColumn⟩ := hd.within p hp
    omega) hd.ascending
  refine ⟨⟨d.source ++ b.backText, some s.finish, b.aliases⟩, s.finish, m, ?_, ?_, rfl, hread, hpointings, hshows,
    hd.ascending⟩
  · rw [hmade] at hfold
    unfold assemble
    simp only [Bool.false_eq_true, if_false]
    have hfold : b.artifacts.zipIdx.foldlM (fun d e => b.addModule false d e.1 e.2)
        ⟨b.frontText, newlines b.frontText.toList, some (.start none)⟩ = .ok d := hfold
    rw [hfold]
    simp [bind, Except.bind, pure, Except.pure, hs]
  · rw [hd.source, hmade]
    rfl

/-- The map of a bundle leads from the lines of each code to those of its source, and from no other. -/
theorem assemble_of_mapsTo {made : List (Artifact × Module)} (hmade : made.map Prod.fst = b.artifacts)
    (hmaps : ∀ e ∈ made, e.1.MapsTo e.2) (horder : b.InOrder) (hlabel : ∀ a ∈ b.artifacts, newlines (b.label a).toList = 0)
    (hsize : newlines b.text.toList < UInt32.size) :
    ∃ out map m, b.assemble false = .ok out ∧ out.source = b.text ∧ out.map = some map ∧
      read? map.toJson.canonical.render = some m ∧ m.pointings = b.pointings made ∧
      (b.pointings made).Pairwise fun p q => p.line < q.line := by
  obtain ⟨out, map, m, hassemble, hsource, hmap, hread, hpointings, -, hascending⟩ :=
    assemble_shows hmade hmaps horder hlabel hsize
  exact ⟨out, map, m, hassemble, hsource, hmap, hread, hpointings, hascending⟩

end Bundle

/-! ## Modules that are made anew -/

/-- A module that is not recalled from a cache. -/
structure Module.New (m : Module) : Prop where
  changed : m.changed = true
  hash : '\n' ∉ m.hash.toList
  summary : ∀ s, m.summaryFor = .ok (some s) → s.Placed ⟨m.source.toList⟩

namespace Discovery

variable {d : Discovery} {trusted : Path → Prop}

theorem meets_opened_hash (file : Path) :
    Meets trusted d.resolver.tree (d.opened file) (Returns fun m => '\n' ∉ m.hash.toList) := by
  unfold opened
  split
  · exact Meets.returns_fail
  next kind hkind =>
    refine Meets.bind (steady_sourceOf file : Steady trusted _ True _) ?_ ?_
    · intro source _
      unfold moduleOf
      refine Meets.bind (Resolver.steady_locate file _) ?_ ?_
      · intro l _
        refine Meets.bind (steady_scriptOf file kind l source : Steady trusted _ True _) ?_ ?_
        · intro script _
          exact Meets.returns_pure (not_mem_digest source)
        · rintro e - m ⟨⟩
      · rintro e - m ⟨⟩
    · rintro e - m ⟨⟩

/-- The summary that is read of a module stands in its source. -/
theorem Fresh.placed {file : Path} {m : Module} (h : Fresh file m) {s : Script.Summary} (hs : m.summaryFor = .ok (some s)) :
    s.Placed ⟨m.source.toList⟩ := by
  unfold Module.summaryFor at hs
  rw [h.summary] at hs
  cases hkind : m.kind with
  | js =>
    rw [hkind] at hs
    unfold summaryOf at hs
    cases hparse : Script.Summary.parse? m.source with
    | none =>
      rw [hparse] at hs
      cases hs
    | some summary =>
      rw [hparse] at hs
      cases hs
      exact Script.Summary.placed_of_parse? hparse
  | json | css | json5 | yaml =>
    rw [hkind] at hs
    cases hs

/-- Without a cache, every module is made anew. -/
theorem meets_module_new (hcache : d.cache.artifacts = Table.empty) (file : Path) :
    Meets trusted d.resolver.tree (d.module file) (Returns fun m => m.file = file ∧ m.New) := by
  have hopened : Meets trusted d.resolver.tree (d.opened file) (Returns fun m => Fresh file m ∧ '\n' ∉ m.hash.toList) :=
    ((meets_opened file).and (meets_opened_hash file)).mono fun r h m hm => ⟨h.1 m hm, h.2 m hm⟩
  refine meets_module hopened ?_ ?_
  · rintro m ⟨hfresh, hhash⟩ -
    refine (meets_analysed_resembles hfresh).mono ?_
    intro r hr m' hm'
    obtain ⟨hresembles, hchanged, -⟩ := hr m' hm'
    refine ⟨hresembles.file.trans hfresh.file, hchanged, hresembles.hash ▸ hhash, ?_⟩
    intro s hs
    rw [hresembles.source]
    exact hfresh.placed (hresembles.summary ▸ hs)
  · rintro m a - hget -
    unfold Cache.get? at hget
    rw [hcache] at hget
    simp at hget

end Discovery

/-! ## Links -/

namespace Linker

variable {l : Linker} {t : FileTree}

/-- Without a cache, the modules of the graph of a link are made anew. -/
theorem new_of_runIn {s s' : Session} {g : ModuleGraph} (hcache : l.cache.artifacts = Table.empty)
    (h : (l.graph t).runIn s = (.ok g, s')) : ∀ m ∈ g.modules, m.New := by
  have hmodule : ∀ file, Meets (fun _ => False) t ((l.discovery t).module file) (Returns fun m => m.file = file ∧ m.New) :=
    fun file => Discovery.meets_module_new (d := l.discovery t) hcache file
  have hmeets := meets_graph hmodule fun m dependencies hm => ⟨hm.changed, hm.hash, hm.summary⟩
  have hfits := fits_of_forall_not (fun _ h => h) t s.manifests
  exact ((hmeets s hfits).1 g (congrArg Prod.fst h)).2

/-- What is made of a module that is not recalled maps to it. -/
theorem IsMade.mapsTo {g : ModuleGraph} {ids : Table Nat ModuleId} {i : Nat} {job : Job} {a : Artifact}
    (hplan : plan l.cache g ids i = some job) (h : IsMade l job a) (hnew : job.module.New) : a.MapsTo job.module := by
  have hcompile : compile l.minifier l.config.settings job.module job.ids = .ok a.code := by
    rcases code_cases hplan h with ⟨hcompile, -⟩ | ⟨hunchanged, -⟩
    · exact hcompile
    · rw [hnew.changed] at hunchanged
      cases hunchanged
  obtain ⟨summary, code, hsummary, htransform, hsource, hmap⟩ := transform_of_compile hcompile
  obtain ⟨edits, hedits, htext, hlines⟩ := transform_eq_ok (fun s hs => hnew.summary s (hs ▸ hsummary)) htransform
  have hrecord : a.record.file = job.module.file ∧ a.record.basePath = job.module.basePath := by
    have hrecord := h.1
    unfold recordOf at hrecord
    simp only at hrecord
    split at hrecord
    · cases hrecord
    · rw [← Except.ok.inj hrecord]
      exact ⟨rfl, rfl⟩
  refine ⟨hrecord.1, hrecord.2, ⟨_, hsource.trans htext, ?_⟩, hmap.trans (congrArg some hlines)⟩
  have hkeeps := newlines_applyEdits hedits
  rw [String.toList_append, newlines_append]
  exact hkeeps.trans (Nat.le_add_right _ _)

/-- In the bundles of a link, what stands in front of codes has one line. -/
theorem Linked.newlines_label {g : ModuleGraph} {parts : List Partition} {made : Nat → Artifact} {output : LinkOutput}
    {kept : List Artifact} (h : Linked l g parts made output kept) (hnew : ∀ m ∈ g.modules, m.New) {b : Bundle}
    (hb : b ∈ output.bundles) : ∀ a ∈ b.artifacts, newlines (b.label a).toList = 0 := by
  have hhash : ∀ i, '\n' ∉ (g.hashAt i).toList := by
    intro i
    unfold ModuleGraph.hashAt
    cases hm : g.modules[i]? with
    | none => simp
    | some m => exact (hnew m (List.mem_of_getElem? hm)).hash
  obtain ⟨p, hp, hfits⟩ := exists_of_forall₂ h.bundles.flip hb
  intro a ha
  rw [hfits.bundle] at ha
  obtain ⟨i, hi, rfl⟩ := List.mem_map.mp ha
  obtain ⟨m, -, hid, -⟩ := h.record (mem_modulesOf.mpr ⟨p, hp, hi⟩)
  exact Bundle.newlines_label (not_mem_assignFrom hhash _ (get?_assignIds hid))

/-- The map of a bundle of a link without a cache, read back, has one token for each line of the sources of its
modules, and no other: it leads from the line that stands as far behind the text in front of the code, and behind
its head, as the line of the source behind its start. No two tokens share a line. The numbers of a map have 32
bits. -/
theorem read?_map_of_link (hcache : l.cache.artifacts = Table.empty) {output : LinkOutput}
    (hlink : (l.link t).1 = .ok output) {b : Bundle} (hb : b ∈ output.bundles)
    (hsize : newlines b.text.toList < UInt32.size) :
    ∃ (g : ModuleGraph) (s : Session) (made : List (Artifact × Module)) (out : Assembled) (map m : SourceMap),
      (l.graph t).runIn l.session = (.ok g, s) ∧ made.map Prod.fst = b.artifacts ∧
      (∀ e ∈ made, e.2 ∈ g.modules ∧ e.1.MapsTo e.2) ∧
      b.assemble false = .ok out ∧ out.source = b.text ∧
      (∀ place a, b.artifacts[place]? = some a → ∃ rest, out.source = b.textBefore place ++ a.code.source ++ rest) ∧
      out.map = some map ∧ read? map.toJson.canonical.render = some m ∧
      m.pointings = b.pointings made ∧ m.pointings.Pairwise fun p q => p.line < q.line := by
  obtain ⟨g, s, parts, madeOf, kept, hgraph, hlinked, -⟩ := link_cases hlink
  have hnew := new_of_runIn hcache hgraph
  obtain ⟨p, hp, hfits⟩ := exists_of_forall₂ hlinked.bundles.flip hb
  have hmodule : ∀ i ∈ p.modules, ∃ m ∈ g.modules, (madeOf i).MapsTo m := by
    intro i hi
    obtain ⟨job, hplan, hmade⟩ := hlinked.isMade i (mem_modulesOf.mpr ⟨p, hp, hi⟩)
    obtain ⟨m, hm, rfl⟩ := plan_eq_some hplan
    have hmem := List.mem_of_getElem? hm
    exact ⟨m, hmem, hmade.mapsTo hplan (hnew m hmem)⟩
  -- the artifacts with their modules
  obtain ⟨made, hmade, hmaps⟩ : ∃ made : List (Artifact × Module), made.map Prod.fst = b.artifacts ∧
      ∀ e ∈ made, e.2 ∈ g.modules ∧ e.1.MapsTo e.2 := by
    choose! moduleOf hmem hmaps using hmodule
    refine ⟨p.modules.map fun i => (madeOf i, moduleOf i), ?_, ?_⟩
    · rw [hfits.bundle, List.map_map]
      rfl
    · intro e he
      obtain ⟨i, hi, rfl⟩ := List.mem_map.mp he
      exact ⟨hmem i hi, hmaps i hi⟩
  obtain ⟨out, map, m, hassemble, hsource, hmap, hread, hpointings, hascending⟩ :=
    Bundle.assemble_of_mapsTo hmade (fun e he => (hmaps e he).2) (hlinked.inOrder hb) (hlinked.newlines_label hnew hb) hsize
  refine ⟨g, s, made, out, map, m, hgraph, hmade, hmaps, hassemble, hsource, ?_, hmap, hread, hpointings,
    hpointings ▸ hascending⟩
  intro place a hplace
  rw [hsource]
  exact Bundle.exists_text_eq hplace

theorem utf8ByteSize_intercalate_le (separator : String) (lines : List String) :
    (separator.intercalate lines).utf8ByteSize ≤
      (lines.map fun line => line.utf8ByteSize + separator.utf8ByteSize).sum := by
  induction lines with
  | nil => simp
  | cons line lines ih =>
    cases lines with
    | nil => simp
    | cons line' lines =>
      rw [String.intercalate_cons_cons, String.utf8ByteSize_append, String.utf8ByteSize_append, List.map_cons, List.sum_cons]
      omega

theorem utf8ByteSize_front_le (role : Role) (entryAlias : String) :
    (Loader.front role entryAlias).utf8ByteSize ≤ 4000 + (quoted entryAlias).utf8ByteSize := by
  cases role with
  | main =>
    have hfront : Loader.mainFront.utf8ByteSize ≤ 1000 := (utf8ByteSize_intercalate_le _ _).trans (by decide +kernel)
    have hback : Loader.mainBack.utf8ByteSize ≤ 3000 := (utf8ByteSize_intercalate_le _ _).trans (by decide +kernel)
    simp only [Loader.front, String.utf8ByteSize_append]
    omega
  | plugin =>
    have hplugin : Loader.plugin.utf8ByteSize ≤ 4000 := (utf8ByteSize_intercalate_le _ _).trans (by decide +kernel)
    exact Nat.le_add_right_of_le hplugin

theorem newlines_text_lt {b : Bundle} (h : (quoted b.entryAlias).utf8ByteSize + (b.tableText b.artifacts).utf8ByteSize +
    b.backText.utf8ByteSize < 1000000) : newlines b.text.toList < UInt32.size := by
  have hbytes := newlines_le_utf8ByteSize b.text
  have hfront := utf8ByteSize_front_le b.role b.entryAlias
  have hbracket : (Bundle.brackets b.assembly).1.utf8ByteSize ≤ 1 := by
    cases b.assembly <;> decide +kernel
  have hsigns : "(".utf8ByteSize = 1 ∧ "\n".utf8ByteSize = 1 := by decide +kernel
  unfold Bundle.text Bundle.frontText at hbytes
  simp only [String.utf8ByteSize_append, hsigns] at hbytes
  unfold Bundle.text Bundle.frontText
  simp only [UInt32.size]
  omega

/-- A main entry and the entry of a plugin, each of which requires a module beside it. -/
def twoPairs : FileTree :=
  .ofTexts ["work"] [["work"], ["work", "ext"]] [
    (["work", "main.js"], "require(\"./a\");\n"),
    (["work", "a.js"], "exports.a = 1;\n"),
    (["work", "ext", "plugin.js"], "require(\"./b\");\n"),
    (["work", "ext", "b.js"], "exports.b = 1;\n")]

/-- The maps of a dense bundle and of that of a plugin, read back. -/
theorem read?_map_of_twoPairs : ∃ (l : Linker) (output : LinkOutput),
    ofConfig twoPairs (pluginConfig "ext/plugin.js") Minifier.unchanged (fun _ => false) = .ok l ∧
      l.cache.artifacts = Table.empty ∧ (l.link twoPairs).1 = .ok output ∧
      output.bundles.map Bundle.assembly = [.dense, .sparse] ∧
      ∀ b ∈ output.bundles, newlines b.text.toList < UInt32.size ∧
        ∃ (made : List (Artifact × Module)) (out : Assembled) (map m : SourceMap), made.map Prod.fst = b.artifacts ∧
          b.assemble false = .ok out ∧ out.map = some map ∧ read? map.toJson.canonical.render = some m ∧
          m.pointings = b.pointings made := by
  have hcheck : ((ofConfig twoPairs (pluginConfig "ext/plugin.js") Minifier.unchanged
      fun _ => false).toOption.any fun l => (l.link twoPairs).1.toOption.any fun output =>
        output.bundles.map Bundle.assembly == [.dense, .sparse] && output.bundles.all fun b =>
          (quoted b.entryAlias).utf8ByteSize + (b.tableText b.artifacts).utf8ByteSize + b.backText.utf8ByteSize
            < 1000000) = true := by
    decide +kernel
  obtain ⟨l, hl, hcheck⟩ := exists_of_any hcheck
  obtain ⟨output, hlink, hcheck⟩ := exists_of_any hcheck
  obtain ⟨hassembly, hsize⟩ := (Bool.and_eq_true _ _).mp hcheck
  have hcache := cache_of_ofConfig hl
  refine ⟨l, output, hl, hcache, hlink, beq_iff_eq.mp hassembly, ?_⟩
  intro b hb
  have hsize : newlines b.text.toList < UInt32.size := newlines_text_lt (of_decide_eq_true (List.all_eq_true.mp hsize b hb))
  obtain ⟨g, s, made, out, map, m, -, hmade, -, hassemble, -, -, hmap, hread, hpointings, -⟩ :=
    read?_map_of_link hcache hlink hb hsize
  exact ⟨hsize, made, out, map, m, hmade, hassemble, hmap, hread, hpointings⟩

end Linker

end Relink
