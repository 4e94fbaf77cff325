import Relink.Proofs.MappedLines

/-!
# The texts behind the lines of a bundle

The lines of a bundle lead to the sources of its modules. A source is named by the path of a module below its base, so
modules below different bases can share one; it shows the text of the last of them.

* `Linker.shows_map_of_link` — the sources to which the lines of a bundle lead, and their texts.
* `Bundle.OwnTexts` — the lines of each module lead to a source with the text of this module.
* `Linker.ownTexts_iff` — so it is if and only if modules with one path have one text.
-/

namespace Relink

open Linking Relink.Partition SourceMap

namespace Bundle

variable {b : Bundle} {m : SourceMap} {made : List (Artifact × Module)}

/-- Each token of the lines of a module leads to a source with the text of the module. -/
def OwnTexts (b : Bundle) (m : SourceMap) (made : List (Artifact × Module)) : Prop :=
  ∀ place e, made[place]? = some e → ∀ t ∈ m.tokens,
    t.pointing m.sources m.names ∈ b.codePointings e.1 e.2 place → m.textOf t = some e.2.source

/-- The lines of a module lead to the source that is named by its path. -/
theorem textOf_of_shows (hshows : m.Shows (texts made)) {e : Artifact × Module} {place : Nat} {t : Token} (ht : t ∈ m.tokens)
    (hplaced : t.pointing m.sources m.names ∈ b.codePointings e.1 e.2 place) :
    m.textOf t = lastText (texts made) ("@@/" ++ e.1.record.basePath) := by
  obtain ⟨name, hname, htext⟩ := hshows t ht
  obtain ⟨i, -, hpointing⟩ := List.mem_map.mp hplaced
  have hsource : (t.pointing m.sources m.names).source = some ("@@/" ++ e.1.record.basePath) := by rw [← hpointing]
  rw [htext, Option.some.inj (hname.symm.trans hsource)]

/-- Each module has a line. -/
theorem exists_token (hpointings : m.pointings = b.pointings made) {e : Artifact × Module} {place : Nat}
    (he : made[place]? = some e) : ∃ t ∈ m.tokens, t.pointing m.sources m.names ∈ b.codePointings e.1 e.2 place := by
  obtain ⟨p, hp⟩ : ∃ p, p ∈ b.codePointings e.1 e.2 place :=
    ⟨_, List.mem_map_of_mem (List.mem_range.mpr (Nat.succ_pos _))⟩
  have hmem : p ∈ m.pointings := by
    rw [hpointings]
    exact List.mem_flatMap.mpr ⟨(e, place), List.mem_zipIdx_iff_getElem?.mpr he, hp⟩
  obtain ⟨t, ht, rfl⟩ := List.mem_map.mp hmem
  exact ⟨t, ht, hp⟩

theorem mem_texts_iff {basePath text : String} :
    ("@@/" ++ basePath, text) ∈ texts made ↔ ∃ e ∈ made, e.1.record.basePath = basePath ∧ e.2.source = text := by
  unfold texts
  simp [String.append_right_inj]

/-- The lines of all modules lead to their own texts if and only if modules with one path have one text. -/
theorem ownTexts_iff_of_shows (hpointings : m.pointings = b.pointings made) (hshows : m.Shows (texts made)) :
    b.OwnTexts m made ↔
      ∀ e ∈ made, ∀ e' ∈ made, e.1.record.basePath = e'.1.record.basePath → e.2.source = e'.2.source := by
  constructor
  · intro hown
    have hlast : ∀ e ∈ made, lastText (texts made) ("@@/" ++ e.1.record.basePath) = some e.2.source := by
      intro e he
      obtain ⟨place, hplace⟩ := List.getElem?_of_mem he
      obtain ⟨t, ht, hplaced⟩ := exists_token hpointings hplace
      rw [← textOf_of_shows hshows ht hplaced]
      exact hown place e hplace t ht hplaced
    intro e he e' he' hpath
    have hsame := hlast e he
    rw [hpath, hlast e' he'] at hsame
    exact (Option.some.inj hsame).symm
  · intro hsame place e hplace t ht hplaced
    have he := List.mem_of_getElem? hplace
    rw [textOf_of_shows hshows ht hplaced]
    apply lastText_of_mem
    · exact mem_texts_iff.mpr ⟨e, he, rfl, rfl⟩
    · intro text htext
      obtain ⟨e', he', hpath, rfl⟩ := mem_texts_iff.mp htext
      exact hsame e' he' e he hpath

end Bundle

/-! ## Links -/

namespace Linker

variable {l : Linker} {t : FileTree}

/-- Without a cache, the artifacts of a bundle are made of modules of the graph. -/
theorem Linked.exists_mapsTo {g : ModuleGraph} {parts : List Partition} {made : Nat → Artifact} {output : LinkOutput}
    {kept : List Artifact} (h : Linked l g parts made output kept) (hnew : ∀ m ∈ g.modules, m.New) {b : Bundle}
    (hb : b ∈ output.bundles) : ∀ a ∈ b.artifacts, ∃ m ∈ g.modules, a.MapsTo m := by
  obtain ⟨p, hp, hfits⟩ := exists_of_forall₂ h.bundles.flip hb
  intro a ha
  rw [hfits.bundle] at ha
  obtain ⟨i, hi, rfl⟩ := List.mem_map.mp ha
  obtain ⟨job, hplan, hmade⟩ := h.isMade i (mem_modulesOf.mpr ⟨p, hp, hi⟩)
  obtain ⟨m, hm, rfl⟩ := plan_eq_some hplan
  have hmem := List.mem_of_getElem? hm
  exact ⟨m, hmem, hmade.mapsTo hplan (hnew m hmem)⟩

/-- The map of a bundle of a link without a cache, read back, leads from the lines of its modules to sources that are
named by the paths of the modules. Each of them shows the text of the last module with its path. -/
theorem shows_map_of_link (hcache : l.cache.artifacts = Table.empty) {output : LinkOutput}
    (hlink : (l.link t).1 = .ok output) {b : Bundle} (hb : b ∈ output.bundles)
    (hsize : newlines b.text.toList < UInt32.size) :
    ∃ (g : ModuleGraph) (s : Session) (made : List (Artifact × Module)) (out : Assembled) (map m : SourceMap),
      (l.graph t).runIn l.session = (.ok g, s) ∧ made.map Prod.fst = b.artifacts ∧
      (∀ e ∈ made, e.2 ∈ g.modules ∧ e.1.record.file = e.2.file) ∧
      b.assemble false = .ok out ∧ out.map = some map ∧ read? map.toJson.canonical.render = some m ∧
      m.pointings = b.pointings made ∧ m.Shows (Bundle.texts made) := by
  obtain ⟨g, s, parts, madeOf, kept, hgraph, hlinked, -⟩ := link_cases hlink
  have hnew := new_of_runIn hcache hgraph
  have hmodule := hlinked.exists_mapsTo hnew hb
  choose! moduleOf hmem hmaps using hmodule
  have hmade : (b.artifacts.map fun a => (a, moduleOf a)).map Prod.fst = b.artifacts := by
    rw [List.map_map]
    exact List.map_id _
  obtain ⟨out, map, m, hassemble, -, hmap, hread, hpointings, hshows, -⟩ := Bundle.assemble_shows hmade
    (List.forall_mem_map.mpr hmaps) (hlinked.inOrder hb) (hlinked.newlines_label hnew hb) hsize
  refine ⟨g, s, _, out, map, m, hgraph, hmade, ?_, hassemble, hmap, hread, hpointings, hshows⟩
  exact List.forall_mem_map.mpr fun a ha => ⟨hmem a ha, (hmaps a ha).file⟩

/-- In a bundle of a link without a cache, the lines of all modules lead to the texts of these modules if and only if
the modules with one path below their bases have one text. Otherwise the lines of each of them lead to the text of the
last one. -/
theorem ownTexts_iff (hcache : l.cache.artifacts = Table.empty) {output : LinkOutput}
    (hlink : (l.link t).1 = .ok output) {b : Bundle} (hb : b ∈ output.bundles)
    (hsize : newlines b.text.toList < UInt32.size) :
    ∃ (g : ModuleGraph) (s : Session) (made : List (Artifact × Module)) (out : Assembled) (map m : SourceMap),
      (l.graph t).runIn l.session = (.ok g, s) ∧ made.map Prod.fst = b.artifacts ∧
      (∀ e ∈ made, e.2 ∈ g.modules ∧ e.1.record.file = e.2.file) ∧
      b.assemble false = .ok out ∧ out.map = some map ∧ read? map.toJson.canonical.render = some m ∧
      m.pointings = b.pointings made ∧ m.Shows (Bundle.texts made) ∧
      (b.OwnTexts m made ↔
        ∀ e ∈ made, ∀ e' ∈ made, e.1.record.basePath = e'.1.record.basePath → e.2.source = e'.2.source) := by
  obtain ⟨g, s, made, out, map, m, hgraph, hmade, hmodules, hassemble, hmap, hread, hpointings, hshows⟩ :=
    shows_map_of_link hcache hlink hb hsize
  exact ⟨g, s, made, out, map, m, hgraph, hmade, hmodules, hassemble, hmap, hread, hpointings, hshows,
    Bundle.ownTexts_iff_of_shows hpointings hshows⟩

/-- An entry below the first base that requires a module directly below the second one. -/
def twoBases (name : String) : FileTree :=
  .ofTexts ["work"] [["work"], ["work", "src"], ["work", "lib"]] [
    (["work", "src", "main.js"], "require(\"../lib/" ++ name ++ "\");\n"),
    (["work", "lib", name ++ ".js"], "exports.i = 1;\n")]

/-- A configuration with two bases. -/
def twoBasesConfig : Config :=
  { Config.default with entries := [⟨"src/main.js"⟩], bases := [⟨"src"⟩, ⟨"lib"⟩], minify := false }

/-- Modules with different paths, whose lines lead to their own texts. -/
theorem ownTexts_of_twoBases : ∃ (l : Linker) (output : LinkOutput),
    ofConfig (twoBases "util") twoBasesConfig .unchanged (fun _ => false) = .ok l ∧ l.cache.artifacts = Table.empty ∧
      (l.link (twoBases "util")).1 = .ok output ∧ output.bundles ≠ [] ∧
      ∀ b ∈ output.bundles, newlines b.text.toList < UInt32.size ∧
        ∃ (made : List (Artifact × Module)) (out : Assembled) (map m : SourceMap), made.map Prod.fst = b.artifacts ∧
          b.assemble false = .ok out ∧ out.map = some map ∧ read? map.toJson.canonical.render = some m ∧
          b.OwnTexts m made := by
  have hcheck : ((ofConfig (twoBases "util") twoBasesConfig .unchanged fun _ => false).toOption.any fun l =>
      (l.link (twoBases "util")).1.toOption.any fun output => !output.bundles.isEmpty && output.bundles.all fun b =>
        decide ((quoted b.entryAlias).utf8ByteSize + (b.tableText b.artifacts).utf8ByteSize + b.backText.utf8ByteSize
          < 1000000) && decide (b.artifacts.map (fun a => a.record.basePath) = ["main.js", "util.js"])) = true := by
    decide +kernel
  obtain ⟨l, hl, hcheck⟩ := exists_of_any hcheck
  obtain ⟨output, hlink, hcheck⟩ := exists_of_any hcheck
  obtain ⟨hne, hall⟩ := (Bool.and_eq_true _ _).mp hcheck
  have hcache := cache_of_ofConfig hl
  refine ⟨l, output, hl, hcache, hlink, by simpa using hne, ?_⟩
  intro b hb
  obtain ⟨hsmall, hpaths⟩ := (Bool.and_eq_true _ _).mp (List.all_eq_true.mp hall b hb)
  have hsize := newlines_text_lt (of_decide_eq_true hsmall)
  obtain ⟨g, s, made, out, map, m, -, hmade, -, hassemble, hmap, hread, -, -, hiff⟩ :=
    ownTexts_iff hcache hlink hb hsize
  refine ⟨hsize, made, out, map, m, hmade, hassemble, hmap, hread, hiff.mpr ?_⟩
  have hnodup : (made.map fun e => e.1.record.basePath).Nodup := by
    have hmap : (made.map fun e => e.1.record.basePath) = b.artifacts.map fun a => a.record.basePath := by
      rw [← hmade, List.map_map]
      rfl
    rw [hmap, of_decide_eq_true hpaths]
    decide
  intro e he e' he' hpath
  rw [List.inj_on_of_nodup_map hnodup he he' hpath]

/-- The lines of a module can lead to the text of another one: two modules of different bases have one path, and the
lines of the first lead to the text of the second. -/
theorem exists_other_text : ∃ (l : Linker) (output : LinkOutput),
    ofConfig (twoBases "main") twoBasesConfig .unchanged (fun _ => false) = .ok l ∧ l.cache.artifacts = Table.empty ∧
      (l.link (twoBases "main")).1 = .ok output ∧
      ∃ b ∈ output.bundles, ∃ (made : List (Artifact × Module)) (out : Assembled) (map m : SourceMap) (t : Token)
        (e : Artifact × Module), made.map Prod.fst = b.artifacts ∧ b.assemble false = .ok out ∧ out.map = some map ∧
          read? map.toJson.canonical.render = some m ∧ made[0]? = some e ∧ t ∈ m.tokens ∧
          t.pointing m.sources m.names ∈ b.codePointings e.1 e.2 0 ∧ e.1.record.file = e.2.file ∧
          e.2.source = "require(\"../lib/main\");\n" ∧ m.textOf t = some "exports.i = 1;\n" := by
  have hcheck : ((ofConfig (twoBases "main") twoBasesConfig .unchanged fun _ => false).toOption.any fun l =>
      (((l.graph (twoBases "main")).runIn l.session).1.toOption.any fun g =>
        g.modules.map (fun m => (m.file.text, m.source)) ==
          [("/work/src/main.js", "require(\"../lib/main\");\n"), ("/work/lib/main.js", "exports.i = 1;\n")]) &&
      (l.link (twoBases "main")).1.toOption.any fun output => output.bundles.any fun b =>
        decide ((quoted b.entryAlias).utf8ByteSize + (b.tableText b.artifacts).utf8ByteSize + b.backText.utf8ByteSize
          < 1000000) && b.artifacts.map (fun a => (a.record.file.text, a.record.basePath)) ==
          [("/work/src/main.js", "main.js"), ("/work/lib/main.js", "main.js")]) = true := by
    decide +kernel
  obtain ⟨l, hl, hcheck⟩ := exists_of_any hcheck
  obtain ⟨hsources, hcheck⟩ := (Bool.and_eq_true _ _).mp hcheck
  obtain ⟨g, hgraph, hsources⟩ := exists_of_any hsources
  obtain ⟨output, hlink, hcheck⟩ := exists_of_any hcheck
  obtain ⟨b, hb, hcheck⟩ := List.any_eq_true.mp hcheck
  obtain ⟨hsmall, hfiles⟩ := (Bool.and_eq_true _ _).mp hcheck
  have hcache := cache_of_ofConfig hl
  obtain ⟨g', s, made, out, map, m, hgraph', hmade, hmodules, hassemble, hmap, hread, hpointings, hshows⟩ :=
    shows_map_of_link hcache hlink hb (newlines_text_lt (of_decide_eq_true hsmall))
  have hsame : g' = g := by
    rw [hgraph'] at hgraph
    exact Except.ok.inj hgraph
  have hsource : ∀ e ∈ made, (e.1.record.file.text, e.2.source) ∈
      [("/work/src/main.js", "require(\"../lib/main\");\n"), ("/work/lib/main.js", "exports.i = 1;\n")] := by
    intro e he
    obtain ⟨hmem, hfile⟩ := hmodules e he
    rw [← beq_iff_eq.mp hsources, hfile]
    exact List.mem_map_of_mem (hsame ▸ hmem)
  have hplaces : made.map (fun e => (e.1.record.file.text, e.1.record.basePath)) =
      [("/work/src/main.js", "main.js"), ("/work/lib/main.js", "main.js")] := by
    rw [← beq_iff_eq.mp hfiles, ← hmade, List.map_map]
    rfl
  obtain ⟨first, rest, rfl, hfirst, hrest⟩ := List.map_eq_cons_iff.mp hplaces
  obtain ⟨second, rest, rfl, hsecond, hrest⟩ := List.map_eq_cons_iff.mp hrest
  obtain rfl := List.map_eq_nil_iff.mp hrest
  simp only [Prod.mk.injEq] at hfirst hsecond
  have hown : first.2.source = "require(\"../lib/main\");\n" := by
    have hmem := hsource first (by simp)
    rw [hfirst.1] at hmem
    simpa using hmem
  have hother : second.2.source = "exports.i = 1;\n" := by
    have hmem := hsource second (by simp)
    rw [hsecond.1] at hmem
    simpa using hmem
  -- the first module has the path of the second, so its lines lead to the text of that one
  obtain ⟨t, ht, hplaced⟩ := Bundle.exists_token hpointings (show [first, second][0]? = some first from rfl)
  have htext : m.textOf t = some "exports.i = 1;\n" := by
    rw [Bundle.textOf_of_shows hshows ht hplaced, hfirst.2]
    simp [Bundle.texts, lastText, hsecond.2, hother]
  exact ⟨l, output, hl, hcache, hlink, b, hb, _, out, map, m, t, first, hmade, hassemble, hmap, hread, rfl, ht, hplaced,
    (hmodules first (by simp)).2, hown, htext⟩

end Linker

end Relink
