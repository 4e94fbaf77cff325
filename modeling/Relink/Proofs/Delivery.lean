import Relink.Proofs.Membership
import Relink.Proofs.Outputs

/-!
# What reaches the disk

The files of a link have the names of its entries without their endings. Nothing keeps two entries from giving one
name to two files, and then the later one is written over the earlier one.

* `Separate` — no two entries give one name to two files.
* `Delivered` — the file of a script has the script in it.
* `distinct_paths_iff` — when the files of a link are different, and when each of them has its script in it.
-/

namespace Relink

namespace Partition

open ModuleGraph

/-- There is one bundle for each entry. -/
theorem forall₂_plugins {g : ModuleGraph} {claimed : List Nat} {paths : List Path} {ps : List Partition}
    (h : plugins g claimed paths = .ok ps) : List.Forall₂ (fun e p => g.lookup e = some p.entry) paths ps := by
  induction paths generalizing claimed ps with
  | nil =>
    cases h
    exact .nil
  | cons path paths ih =>
    obtain ⟨p, others, rfl, hlookup, -, -, hothers⟩ := plugins_cons h
    exact .cons hlookup (ih hothers)

theorem forall₂_partition {g : ModuleGraph} {independent : Bool} {entries : List Path} {parts : List Partition}
    (h : partition g independent entries = .ok parts) :
    List.Forall₂ (fun e p => g.lookup e = some p.entry) entries parts := by
  obtain ⟨first, plugins, entry, rest, rfl, hlookup, rfl, hrest⟩ := partition_cases h
  exact .cons (by rw [hlookup, main_entry]) (forall₂_plugins hrest)

end Partition

namespace Command

open Linker

variable {minifier : Minifier} {config : Config} {outdir : Path} {t : FileTree} {w w' : Workspace}
  {written : List Path} {output : LinkOutput}

/-! ## Names of bundles -/

/-- The name of the files of an entry. -/
def entryName (t : FileTree) (e : Path) : String := (t.absolute e).stem.getD "bundle"

/-- The bundles of a link have the names of its entries. -/
theorem map_bundleName (h : linkOutput minifier config t = .ok output) :
    output.bundles.map bundleName = config.entries.map (entryName t) := by
  unfold linkOutput at h
  cases hl : ofConfig t config minifier fun _ => false with
  | error e =>
    rw [hl] at h
    cases h
  | ok l =>
    rw [hl] at h
    obtain ⟨g, s, parts, made, kept, -, hlinked, -⟩ := link_cases h
    have hentries : (l.loadCache t).1.entries = config.entries.map t.absolute := by
      obtain ⟨-, -, -, -, policy, -, rfl⟩ := ofConfig_eq_ok.mp hl
      rw [fst_loadCache]
      rfl
    have hbundles : ∀ {es ps bs}, List.Forall₂ (fun e p => g.lookup e = some p.entry) es ps →
        List.Forall₂ (BundleFits (l.loadCache t).1 parts made) ps bs →
        bs.map bundleName = es.map fun e => e.stem.getD "bundle" := by
      intro es ps bs hes hbs
      induction hes generalizing bs with
      | nil =>
        cases hbs
        rfl
      | @cons e p es ps hlookup _ ih =>
        obtain _ | ⟨hfits, hbs⟩ := hbs
        rw [List.map_cons, List.map_cons, ih hbs]
        -- the entry of the bundle is the module of the entry
        obtain ⟨m, hm, hfile⟩ := ModuleGraph.exists_of_lookup hlookup
        obtain ⟨m', hm', -, hfile', -⟩ := hlinked.record hfits.entry_mem
        rw [hm] at hm'
        cases hm'
        rw [bundleName, hfits.bundle]
        simp only [hfile', Path.stem_congr hfile]
    rw [hbundles (Partition.forall₂_partition hlinked.partitioned) hlinked.bundles, hentries, List.map_map]
    rfl

/-- Bundles of these names share no file. -/
def Apart (minify : Bool) (x y : String) : Prop :=
  x ≠ y ∧ (minify = true → x ≠ y ++ ".min" ∧ y ≠ x ++ ".min")

/-- No two entries give one name to two files. -/
def Separate (t : FileTree) (config : Config) : Prop :=
  config.entries.Pairwise fun d e => Apart config.minify (entryName t d) (entryName t e)

theorem apart_iff {minify : Bool} {x y : String} :
    Apart minify x y ↔ ∀ m ∈ variants minify, ∀ m' ∈ variants minify, x ++ ending m ≠ y ++ ending m' := by
  have hmin : ∀ x y : String, x ++ ".js" = y ++ ".min.js" ↔ x = y ++ ".min" := by
    intro x y
    have hsplit : y ++ ".min.js" = y ++ ".min" ++ ".js" := by
      rw [String.append_assoc]
      rfl
    rw [hsplit, String.append_left_inj]
  have hmin' : ∀ x y : String, x ++ ".min.js" = y ++ ".js" ↔ y = x ++ ".min" := fun x y => eq_comm.trans (hmin y x)
  unfold Apart
  cases minify with
  | false => simp [variants, ending, String.append_left_inj]
  | true =>
    simp [variants, ending, hmin, hmin', String.append_left_inj]
    tauto

theorem separate_iff {bundles : List Bundle} (h : bundles.map bundleName = config.entries.map (entryName t)) :
    Separate t config ↔ ((scriptsOf config.minify bundles).map fun s => scriptName s.1 s.2).Nodup := by
  have hpairs : Separate t config ↔ bundles.Pairwise fun b c => Apart config.minify (bundleName b) (bundleName c) := by
    unfold Separate
    rw [← List.pairwise_map, ← h, List.pairwise_map]
  have hown : ∀ b : Bundle, (variants config.minify).Pairwise fun m m' => scriptName b m ≠ scriptName b m' := by
    intro b
    unfold variants
    split
    · simp [scriptName, ending, String.append_right_inj]
    · simp
  rw [hpairs, List.Nodup, List.pairwise_map, scriptsOf, List.pairwise_flatMap]
  simp only [apart_iff, List.pairwise_map, List.forall_mem_map]
  exact ⟨fun hpairs => ⟨fun b _ => hown b, hpairs⟩, fun hpairs => hpairs.2⟩

theorem components_scriptPath_inj {s s' : Bundle × Bool} :
    (scriptPath outdir s).components = (scriptPath outdir s').components ↔ scriptName s.1 s.2 = scriptName s'.1 s'.2 := by
  unfold scriptPath
  rw [Path.components_child _ (fileName_scriptName _ _).toPlain, Path.components_child _ (fileName_scriptName _ _).toPlain]
  simp only [List.append_cancel_left_eq, List.cons.injEq, and_true]
  exact ⟨Path.componentOf_injective, congrArg _⟩

/-! ## What stands in the files -/

/-- The file of a script has the script in it. -/
def Delivered (outdir : Path) (t : FileTree) (s : Bundle × Bool) : Prop :=
  ∃ a, s.1.assemble s.2 = .ok a ∧
    t.read (scriptPath outdir s) = .ok (a.fullSource (scriptName s.1 s.2 ++ ".map"))

theorem addModule_eq_ok {b : Bundle} {minified : Bool} {d d' : Bundle.Draft} {a : Artifact} {place : Nat}
    (h : b.addModule minified d a place = .ok d') : d.source.toList <+: d'.source.toList := by
  unfold Bundle.addModule at h
  cases hcheck : b.assembly == .dense && a.record.id != .dense place with
  | true =>
    rw [hcheck] at h
    cases h
  | false =>
    rw [hcheck] at h
    cases hmap : Bundle.addMap d.map a d.lines with
    | error e =>
      rw [hmap] at h
      cases h
    | ok map =>
      rw [hmap] at h
      cases h
      simp [List.append_assoc]

/-- A script begins with the loader. -/
theorem frontText_isPrefix {b : Bundle} {minified : Bool} {a : Assembled} (h : b.assemble minified = .ok a) (name : String) :
    b.frontText.toList <+: (a.fullSource name).toList := by
  have hmodules : ∀ {as : List (Artifact × Nat)} {d d' : Bundle.Draft},
      as.foldlM (fun d a => b.addModule minified d a.1 a.2) d = .ok d' → d.source.toList <+: d'.source.toList := by
    intro as
    induction as with
    | nil =>
      rintro d d' ⟨⟩
      exact List.prefix_refl _
    | cons a as ih =>
      intro d d' hfold
      rw [List.foldlM_cons] at hfold
      cases hadd : b.addModule minified d a.1 a.2 with
      | error e =>
        rw [hadd] at hfold
        cases hfold
      | ok d₁ =>
        rw [hadd] at hfold
        exact (addModule_eq_ok hadd).trans (ih hfold)
  have hsource : b.frontText.toList <+: a.source.toList := by
    unfold Bundle.assemble at h
    simp only at h
    generalize hstart : (⟨b.frontText, newlines b.frontText.toList,
      if minified then none else some (.start none)⟩ : Bundle.Draft) = start at h
    cases hfold : b.artifacts.zipIdx.foldlM (fun d a => b.addModule minified d a.1 a.2) start with
    | error e =>
      rw [hfold] at h
      cases h
    | ok d =>
      rw [hfold] at h
      cases h
      have hd := hmodules hfold
      rw [← hstart] at hd
      simpa using hd.trans (List.prefix_append _ _)
  refine hsource.trans ?_
  unfold Assembled.fullSource
  split
  · simp [List.append_assoc]
  · exact List.prefix_refl _

/-- The first lines of the scripts of main bundles and of plugins. -/
def opening : Role → String
  | .main => "(function(root, factory) \x7b" ++ "\n" ++ "  const bokeh = factory();"
  | .plugin => "(function(root, factory) \x7b" ++ "\n" ++ "  factory(root.Bokeh);"

theorem opening_prefix {b : Bundle} {minified : Bool} {a : Assembled} (h : b.assemble minified = .ok a) (name : String) :
    (opening b.role).toList <+: (a.fullSource name).toList := by
  refine List.IsPrefix.trans ?_ (frontText_isPrefix h name)
  unfold Bundle.frontText Loader.front opening
  cases b.role with
  | main =>
    rw [Loader.mainFront, String.intercalate_cons_cons, String.intercalate_cons_cons]
    simp only [String.toList_append, List.append_assoc, List.prefix_append_right_inj, List.prefix_append]
  | plugin =>
    rw [Loader.plugin, String.intercalate_cons_cons, String.intercalate_cons_cons]
    simp only [String.toList_append, List.append_assoc, List.prefix_append_right_inj, List.prefix_append]

/-- The text of a cache is no script. -/
theorem render_ne_fullSource {b : Bundle} {minified : Bool} {a : Assembled} (h : b.assemble minified = .ok a)
    (c : Cache) (name : String) : c.render ≠ a.fullSource name := by
  intro heq
  have hopening := opening_prefix h name
  have hcache : c.render.toList.head? = some '\x7b' := by
    simp [Cache.render, Cache.toJson, Json.render]
  have hhead : ∀ role, (opening role).toList.head? = some '(' := by
    rintro (_ | _)
    all_goals decide +kernel
  obtain ⟨rest, hrest⟩ := hopening
  rw [heq, ← hrest, List.head?_append, hhead] at hcache
  cases hcache

/-- The name of a map is no name of a script. -/
theorem map_ne_scriptName (name : String) (b : Bundle) (minified : Bool) : name ++ ".map" ≠ scriptName b minified := by
  intro heq
  have hlast := congrArg (fun s : String => s.toList.getLast?) heq
  cases minified <;> simp [scriptName, ending, List.getLast?_append] at hlast

/-- If the names of scripts are different, what is written under them are the scripts. -/
theorem text_of_filesOf {scripts : List (Bundle × Bool)} (h : (scripts.map fun s => scriptName s.1 s.2).Nodup)
    {s : Bundle × Bool} (hs : s ∈ scripts) {a : Assembled} (ha : s.1.assemble s.2 = .ok a) {text : String}
    (hfile : FilesOf scripts (scriptName s.1 s.2) text) : text = a.fullSource (scriptName s.1 s.2 ++ ".map") := by
  obtain ⟨s', hs', a', ha', hmem⟩ := hfile
  unfold filesOf at hmem
  rcases List.mem_cons.mp hmem with hscript | hmap
  · obtain ⟨hname, rfl⟩ := Prod.mk.inj hscript
    have hsame : s = s' := List.inj_on_of_nodup_map h hs hs' hname
    subst hsame
    rw [ha] at ha'
    cases ha'
    rfl
  · obtain ⟨m, -, hm⟩ := Option.map_eq_some_iff.mp (Option.mem_toList.mp hmap)
    exact absurd (Prod.mk.inj hm).1 (map_ne_scriptName _ _ _)

/-- When the cache is stored, the scripts keep their files, unless the cache is kept in one of them. -/
theorem delivered_iff {scripts : List (Bundle × Bool)} {t₀ t t' : FileTree} {l : Linker} {lines : List LogLine}
    (hnames : (scripts.map fun s => scriptName s.1 s.2).Nodup) (h : Writes outdir scripts t₀ t)
    (hstore : l.storeCache t = .ok (t', lines)) :
    (∀ s ∈ scripts, Delivered outdir t' s) ↔
      ∀ cache ∈ l.config.cache, ∀ s ∈ scripts, t'.place cache ≠ t'.place (scriptPath outdir s) := by
  -- before the cache is stored, every script is in its file
  have hscript : ∀ s ∈ scripts, ∃ a l', s.1.assemble s.2 = .ok a ∧
      t.Stands (scriptPath outdir s) l' (a.fullSource (scriptName s.1 s.2 ++ ".map")) := by
    intro s hs
    obtain ⟨a, ha⟩ := h.assembled s hs
    obtain ⟨text, l', hfile, hstands⟩ := h.deposits.stands _ _ ⟨s, hs, a, ha, List.mem_cons_self⟩
    rw [text_of_filesOf hnames hs ha hfile] at hstands
    exact ⟨a, l', ha, hstands⟩
  unfold storeCache at hstore
  cases hcache : l.config.cache with
  | none =>
    rw [hcache] at hstore
    cases hstore
    refine ⟨fun _ cache hmem => absurd hmem (by simp), fun _ s hs => ?_⟩
    obtain ⟨a, l', ha, hstands⟩ := hscript s hs
    exact ⟨a, ha, hstands.read⟩
  | some cache =>
    rw [hcache] at hstore
    have hwrite : t.write cache l.cache.render = .ok t' := by
      unfold Cache.store at hstore
      cases hwrite : t.write cache l.cache.render with
      | error fault =>
        simp only [hwrite] at hstore
        cases hstore
      | ok t₁ =>
        simp only [hwrite] at hstore
        cases hstore
        rfl
    obtain ⟨lc, hcached, hextends⟩ := FileTree.stands_of_write hwrite
    simp only [Option.mem_def, Option.some.injEq, forall_eq']
    constructor
    · -- in a file with the cache there is no script
      intro hall s hs hplace
      obtain ⟨a, ha, hread⟩ := hall s hs
      have hstands : t'.Stands (scriptPath outdir s) lc l.cache.render := ⟨hplace ▸ hcached.place, hcached.file⟩
      rw [hstands.read] at hread
      exact render_ne_fullSource ha _ _ (Except.ok.inj hread)
    · intro hplace s hs
      obtain ⟨a, l', ha, hstands⟩ := hscript s hs
      refine ⟨a, ha, (hstands.extends hextends ?_).read⟩
      rintro rfl
      exact hplace s hs (hcached.place.trans (hextends.place hstands.place).symm)

/-- The files of a link are different if and only if no two entries give one name to two files. Then each of them has
its script in it, unless the cache is kept there. -/
theorem distinct_paths_iff (h : Ends (linkAndWrite minifier config outdir) w written w') :
    ∃ output, linkOutput minifier config w.tree = .ok output ∧
      written = (scriptsOf config.minify output.bundles).map (scriptPath outdir) ∧
      (written.Pairwise (fun p q => p.components ≠ q.components) ↔ Separate w.tree config) ∧
      (Separate w.tree config →
        ((∀ s ∈ scriptsOf config.minify output.bundles, Delivered outdir w'.tree s) ↔
          ∀ cache ∈ config.cache, ∀ p ∈ written, w'.tree.place cache ≠ w'.tree.place p)) := by
  obtain ⟨output, houtput, rfl, t, hwrites, l, lines, rfl, hstore⟩ := ends_linkAndWrite h
  have hseparate := @separate_iff l.config _ _ (map_bundleName houtput)
  refine ⟨output, houtput, rfl, ?_, fun hsep => ?_⟩
  · rw [hseparate, List.Nodup, List.pairwise_map, List.pairwise_map]
    simp only [ne_eq, components_scriptPath_inj]
  · rw [delivered_iff (hseparate.mp hsep) hwrites hstore]
    simp only [List.forall_mem_map]

/-- A main entry and a plugin with files of different names. -/
def otherNames : FileTree :=
  .ofTexts ["work"] [["work"], ["work", "plugin"]] [
    (["work", "main.js"], "exports.m = 1;\n"),
    (["work", "plugin", "main.min.cjs"], "exports.p = 1;\n")]

/-- A configuration with a cache beside the scripts. -/
def cachedConfig : Config :=
  { pluginConfig "plugin/main.min.cjs" with cache := some ⟨"dist/cache.json"⟩ }

instance (minify : Bool) (x y : String) : Decidable (Apart minify x y) :=
  inferInstanceAs (Decidable (x ≠ y ∧ (minify = true → x ≠ y ++ ".min" ∧ y ≠ x ++ ".min")))

instance (t : FileTree) (config : Config) : Decidable (Separate t config) :=
  inferInstanceAs (Decidable (config.entries.Pairwise _))

/-- A link all bundles of which reach the disk. -/
theorem distinct_paths_of_otherNames : ∃ written w' output,
    Ends (linkAndWrite .unchanged cachedConfig ⟨"dist"⟩) ⟨otherNames, []⟩ written w' ∧
      linkOutput .unchanged cachedConfig otherNames = .ok output ∧
      written = [⟨"dist/main.js"⟩, ⟨"dist/main.min.js"⟩] ∧ Separate otherNames cachedConfig ∧
      written.Pairwise (fun p q => p.components ≠ q.components) ∧
      ∀ s ∈ scriptsOf false output.bundles, Delivered ⟨"dist"⟩ w'.tree s := by
  have hrun : (match outcomeOf (linkAndWrite .unchanged cachedConfig ⟨"dist"⟩) ⟨otherNames, []⟩ with
      | (.ok written, w') => decide (written = [⟨"dist/main.js"⟩, ⟨"dist/main.min.js"⟩]) &&
        written.all fun p => (w'.tree.place ⟨"dist/cache.json"⟩).toOption != (w'.tree.place p).toOption
      | (.error _, _) => false) = true := by decide +kernel
  have hseparate : Separate otherNames cachedConfig := by decide +kernel
  split at hrun
  next written w' hends =>
    rw [Bool.and_eq_true, decide_eq_true_eq, List.all_eq_true] at hrun
    obtain ⟨output, houtput, -, hdistinct, hdelivered⟩ := distinct_paths_iff hends
    refine ⟨written, w', output, hends, houtput, hrun.1, hseparate, hdistinct.mpr hseparate, ?_⟩
    refine (hdelivered hseparate).mpr ?_
    rintro cache ⟨⟩ p hp hplace
    have hne := hrun.2 p hp
    rw [hplace, bne_self_eq_false] at hne
    cases hne
  · cases hrun

/-- A main entry and a plugin with files of one name. -/
def sameNames : FileTree :=
  .ofTexts ["work"] [["work"], ["work", "plugin"]] [
    (["work", "main.js"], "exports.m = 1;\n"),
    (["work", "plugin", "main.js"], "exports.p = 1;\n")]

/-- Not every bundle of a link reaches the disk: the script of a plugin is written over that of the main bundle. -/
theorem exists_written_over : ∃ written w' output,
    Ends (linkAndWrite .unchanged (pluginConfig "plugin/main.js") ⟨"dist"⟩) ⟨sameNames, []⟩ written w' ∧
      linkOutput .unchanged (pluginConfig "plugin/main.js") sameNames = .ok output ∧
      written = [⟨"dist/main.js"⟩, ⟨"dist/main.js"⟩] ∧
      ∃ s ∈ scriptsOf false output.bundles, ¬Delivered ⟨"dist"⟩ w'.tree s := by
  have hrun : (match outcomeOf (linkAndWrite .unchanged (pluginConfig "plugin/main.js") ⟨"dist"⟩) ⟨sameNames, []⟩ with
      | (.ok written, _) => decide (written = [⟨"dist/main.js"⟩, ⟨"dist/main.js"⟩])
      | (.error _, _) => false) = true := by decide +kernel
  have houtput : ((linkOutput .unchanged (pluginConfig "plugin/main.js") sameNames).toOption.any fun output =>
      decide (output.bundles.map (fun b => (b.role, scriptName b false)) =
        [(.main, "main.js"), (.plugin, "main.js")])) = true := by decide +kernel
  split at hrun
  next written w' hends =>
    obtain ⟨output, hlink, hbundles⟩ := Linking.exists_of_any houtput
    refine ⟨written, w', output, hends, hlink, of_decide_eq_true hrun, ?_⟩
    have hmem : ∀ role, ∃ b ∈ output.bundles, b.role = role ∧ scriptName b false = "main.js" := by
      intro role
      have hpair : (role, "main.js") ∈ output.bundles.map fun b => (b.role, scriptName b false) := by
        rw [of_decide_eq_true hbundles]
        cases role <;> simp
      obtain ⟨b, hb, hsame⟩ := List.mem_map.mp hpair
      exact ⟨b, hb, Prod.mk.inj hsame⟩
    -- otherwise one text would be the script of the main bundle and that of the plugin
    by_contra hnone
    push Not at hnone
    have hopening : ∀ role, ∃ text, w'.tree.read ⟨"dist/main.js"⟩ = .ok text ∧ (opening role).toList <+: text.toList := by
      intro role
      obtain ⟨b, hb, rfl, hname⟩ := hmem role
      obtain ⟨a, ha, hread⟩ := hnone (b, false) (by simp [scriptsOf, variants, hb])
      have hpath : scriptPath ⟨"dist"⟩ (b, false) = ⟨"dist/main.js"⟩ := by
        rw [scriptPath, hname]
        rfl
      exact ⟨_, hpath ▸ hread, opening_prefix ha _⟩
    obtain ⟨text, htext, hmain⟩ := hopening .main
    obtain ⟨text', htext', hplugin⟩ := hopening .plugin
    rw [htext] at htext'
    cases htext'
    rcases List.prefix_or_prefix_of_prefix hmain hplugin with hprefix | hprefix
    · exact absurd hprefix (by decide +kernel)
    · exact absurd hprefix (by decide +kernel)
  · cases hrun

end Command

end Relink
