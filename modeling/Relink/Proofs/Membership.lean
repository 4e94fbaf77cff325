import Relink.Proofs.Linked
import Relink.Proofs.Requirements

/-!
# The bundles of a module

Every module that is discovered is in one bundle, unless it lies where neither the main bundle nor a plugin
takes it up.

* `meets_graph` — the graph of a link is discovered.
* `IsTaken` — the modules that a bundle takes, by ways in the graph.
* `count_artifacts` — a module has one artifact in all bundles if it is taken, and otherwise none.
-/

namespace Relink

open Linking Relink.Partition

/-- A module is taken by the main bundle of the first entry, or by the plugins of the others. -/
def ModuleGraph.IsTaken (g : ModuleGraph) (entries : List Path) (i : Nat) : Prop :=
  ∃ first plugins entry, entries = first :: plugins ∧ g.lookup first = some entry ∧
    (g.MainTakes plugins entry i ∨ g.PluginTakes plugins entry i)

/-- How often a file is that of an artifact in the bundles of a link. -/
def LinkOutput.occurrences (output : LinkOutput) (file : Path) : Nat :=
  (output.bundles.flatMap Bundle.artifacts).countP fun a => a.record.file.same file

/-- The bundles of a partition take what is taken by the main bundle or a plugin. -/
theorem mem_partition_iff {g : ModuleGraph} {independent : Bool} {entries : List Path}
    {parts : List Partition} (h : partition g independent entries = .ok parts) {i : Nat} :
    i ∈ modulesOf parts ↔ g.IsTaken entries i := by
  rcases partition_cases h with ⟨first, plugins, entry, rest, rfl, hentry, rfl, hrest⟩
  -- the main bundle is first, and the rest are those of the plugins
  rw [modulesOf_cons, List.mem_append, mem_main_iff, mem_rest_iff hrest]
  constructor
  · intro htakes
    exact ⟨first, plugins, entry, rfl, hentry, htakes⟩
  · rintro ⟨first', plugins', entry', heq, hentry', htakes⟩
    cases heq
    rw [hentry] at hentry'
    cases hentry'
    exact htakes

namespace Linker

variable {l : Linker} {t : FileTree}

/-- The graph of a link is discovered, and what holds of each module that is made, whatever it depends
on, holds of its modules. -/
theorem meets_graph {trusted : Path → Prop} {P : Module → Prop}
    (hmodule : ∀ file, Meets trusted t ((l.discovery t).module file) (Returns fun m => m.file = file ∧ P m))
    (hwire : ∀ m dependencies, P m → P { m with dependencies := dependencies }) :
    Meets trusted t (l.graph t) (Returns fun g =>
      Discovery.Discovered (l.discovery t) l.entries g ∧ ∀ m ∈ g.modules, P m) := by
  unfold graph
  have hopening : Steady trusted t True (l.openingLines.forM Linking.say) :=
    Steady.forM fun line => Steady.say line
  refine Meets.bind hopening ?_ ?_
  · intro _ _
    exact Discovery.meets_build hmodule hwire
  · rintro e - g ⟨⟩

/-- What a graph that is found in some session meets. -/
theorem discovered_of_runIn {s s' : Session} {g : ModuleGraph} (h : (l.graph t).runIn s = (.ok g, s')) :
    Discovery.Discovered (l.discovery t) l.entries g := by
  have hmodule : ∀ file, Meets (fun _ => False) t ((l.discovery t).module file)
      (Returns fun m => m.file = file ∧ True) := by
    intro file
    refine (Discovery.meets_module_file (d := l.discovery t) file).mono ?_
    intro r hr m hm
    exact ⟨hr m hm, trivial⟩
  have hmeets := meets_graph hmodule fun _ _ h => h
  have hfits := fits_of_forall_not (fun _ h => h) t s.manifests
  exact ((hmeets s hfits).1 g (congrArg Prod.fst h)).1

/-- Every module of the graph of a link has at most one artifact in the bundles of the link, and it has
one if and only if the module is taken. -/
theorem count_artifacts {output : LinkOutput} (h : (l.link t).1 = .ok output) :
    ∃ g s, (l.graph t).runIn l.session = (.ok g, s) ∧
      Discovery.Discovered (l.discovery t) l.entries g ∧
      ∀ i m, g.modules[i]? = some m →
        output.occurrences m.file ≤ 1 ∧ (output.occurrences m.file = 1 ↔ g.IsTaken l.entries i) := by
  rcases link_cases h with ⟨g, s, parts, made, kept, hgraph, hlinked, -⟩
  have hdiscovered := discovered_of_runIn hgraph
  refine ⟨g, s, hgraph, hdiscovered, ?_⟩
  intro i m hm
  -- in the bundles, the file of the module is that of the artifact for its place alone
  have hplace : ∀ j ∈ modulesOf parts, (made j).record.file.same m.file = (j == i) := by
    intro j hj
    rcases hlinked.record hj with ⟨m', hm', -, hfile, -⟩
    rw [hfile, Bool.eq_iff_iff, Path.same_iff, beq_iff_eq]
    constructor
    · exact hdiscovered.distinct.eq_of_components hm' hm
    · rintro rfl
      rw [hm] at hm'
      cases hm'
      rfl
  have hcount : output.occurrences m.file = (modulesOf parts).count i := by
    unfold LinkOutput.occurrences
    rw [hlinked.artifacts, List.countP_map, List.count_eq_countP]
    refine List.countP_congr ?_
    intro j hj
    rw [Function.comp_apply, hplace j hj]
  have hnodup := nodup_partition hlinked.partitioned
  -- the modules of all bundles are different, so a place is counted once if it is among them
  rw [hcount, ← mem_partition_iff hlinked.partitioned]
  refine ⟨List.nodup_iff_count_le_one.mp hnodup i, ?_⟩
  constructor
  · intro hone
    exact List.count_pos_iff.mp (by omega)
  · intro hmem
    exact List.count_eq_one_of_mem hnodup hmem

/-- A main entry that requires two modules of its directory, and a directory with a plugin and a module
that it requires. -/
def ownDirectory : FileTree :=
  .ofTexts ["work"] [["work"], ["work", "ext"]] [
    (["work", "main.js"], "require(\"./a\");\n"),
    (["work", "a.js"], "require(\"./main\");\n"),
    (["work", "ext", "plugin.js"], "require(\"../a\");\nrequire(\"./b\");\n"),
    (["work", "ext", "b.js"], "exports.b = 1;\n")]

/-- A configuration for a main bundle and the bundle of a plugin. -/
def pluginConfig (plugin : String) : Config :=
  { Config.default with entries := [⟨"main.js"⟩, ⟨plugin⟩], bases := [⟨"."⟩], minify := false }

/-- A link to which the count applies. -/
theorem count_artifacts_of_ownDirectory : ∃ (l : Linker) (output : LinkOutput),
    (l.link ownDirectory).1 = .ok output ∧
      ∃ g s, (l.graph ownDirectory).runIn l.session = (.ok g, s) ∧
        Discovery.Discovered (l.discovery ownDirectory) l.entries g ∧
        ∀ i m, g.modules[i]? = some m →
          output.occurrences m.file ≤ 1 ∧ (output.occurrences m.file = 1 ↔ g.IsTaken l.entries i) := by
  have hcheck : ((ofConfig ownDirectory (pluginConfig "ext/plugin.js") Minifier.unchanged
      fun _ => false).toOption.any fun l => (l.link ownDirectory).1.toOption.any fun _ => true) = true := by
    decide +kernel
  rcases exists_of_any hcheck with ⟨l, -, hcheck⟩
  rcases exists_of_any hcheck with ⟨output, hlink, -⟩
  exact ⟨l, output, hlink, count_artifacts hlink⟩

/-- A main entry that requires a module of its directory, and a plugin in the same directory. -/
def sharedDirectory : FileTree :=
  .ofTexts ["work"] [["work"]] [
    (["work", "main.js"], "require(\"./a\");\n"),
    (["work", "a.js"], "exports.a = 1;\n"),
    (["work", "plugin.js"], "exports.p = 1;\n")]

/-- Not every module of the graph of a link is in a bundle: a plugin in the directory of the main entry
keeps out of the main bundle what the main entry requires. -/
theorem exists_module_in_no_bundle : ∃ (l : Linker) (output : LinkOutput) (g : ModuleGraph),
    ofConfig sharedDirectory (pluginConfig "plugin.js") Minifier.unchanged (fun _ => false) = .ok l ∧
      (l.link sharedDirectory).1 = .ok output ∧
      ((l.graph sharedDirectory).runIn l.session).1 = .ok g ∧
      ∃ m ∈ g.modules, output.occurrences m.file = 0 := by
  have hcheck : ((ofConfig sharedDirectory (pluginConfig "plugin.js") Minifier.unchanged
      fun _ => false).toOption.any fun l => (l.link sharedDirectory).1.toOption.any fun output =>
        ((l.graph sharedDirectory).runIn l.session).1.toOption.any fun g =>
          g.modules.any fun m => output.occurrences m.file == 0) = true := by
    decide +kernel
  rcases exists_of_any hcheck with ⟨l, hl, hcheck⟩
  rcases exists_of_any hcheck with ⟨output, hlink, hcheck⟩
  rcases exists_of_any hcheck with ⟨g, hgraph, hcheck⟩
  rcases List.any_eq_true.mp hcheck with ⟨m, hm, hcount⟩
  exact ⟨l, output, g, hl, hlink, hgraph, m, hm, beq_iff_eq.mp hcount⟩

end Linker

end Relink
