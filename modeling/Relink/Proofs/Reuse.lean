import Relink.Proofs.Head
import Relink.Proofs.Kept

/-!
# Code that is used again

After every link, the ids in the code of a module are those of this link, whether the code is new or comes
from the cache. The code is that of the text of the module at present, but it names the file as it was spelled
when the code was made.

* `ids_of_link` — the ids of specifiers are those of the artifacts of their files.
* `MadeAs` — what the code of an artifact is made of.
* `code_of_history` — the same after all changes and links, together with what the code is made of.
-/

namespace Relink

open Linking Relink.Partition

/-- The texts of some trees, and those with which a configuration overrides them. -/
def Config.textsIn (config : Config) (trees : List FileTree) : List String :=
  trees.flatMap FileTree.texts ++ config.overrides.values

/-- Every specifier of an artifact stands for the id of the one artifact of its file. -/
def LinkOutput.IdsFit (output : LinkOutput) (a : Artifact) : Prop :=
  ∀ s id, a.record.dependencyMap.get? s = some id → ∃ p, a.record.dependencyPaths.get? s = some p ∧
    ∃ b ∈ output.artifacts, b.record.id = id ∧
      ∀ b' ∈ output.artifacts, b'.record.file.components = p.components ↔ b' = b

namespace Linker

variable {l : Linker} {t : FileTree}

/-- The code of an artifact is what compiling its module gives, as the module is opened now, but for the file,
which is spelled as in another artifact. So it is the code of the module if the file is spelled alike in both,
and only if the name at its head is the same. -/
structure MadeAs (l : Linker) (t : FileTree) (first a : Artifact) (m : Module) : Prop where
  opened : ((l.discovery t).opened a.record.file).outcome = .ok m
  components : first.record.file.components = a.record.file.components
  code : compile l.minifier l.config.settings (m.spelled first.record.file) a.record.dependencyMap = .ok a.code
  of_spelled_alike : first.record.file = a.record.file →
    compile l.minifier l.config.settings m a.record.dependencyMap = .ok a.code
  only_if_named_alike : compile l.minifier l.config.settings m a.record.dependencyMap = .ok a.code →
    Step.headText (m.spelled first.record.file).basePath = Step.headText m.basePath

/-- The id that a specifier stands for is that of the artifact of its file. -/
theorem ids_of_link {output : LinkOutput} (hlink : (l.link t).1 = .ok output)
    (hordered : ∀ a ∈ output.artifacts, a.record.dependencyPaths.Ordered) {a : Artifact}
    (ha : a ∈ output.artifacts) : output.IdsFit a := by
  intro s id hid
  rcases link_cases hlink with ⟨g, s₁, parts, made, kept, hgraph, hlinked, -⟩
  have hdiscovered := discovered_of_runIn hgraph
  have hartifacts : output.artifacts = (modulesOf parts).map made := hlinked.artifacts
  have hpaths := hordered a ha
  rw [hartifacts] at ha
  rcases List.mem_map.mp ha with ⟨i, hi, rfl⟩
  rw [hlinked.get?_dependencyMap hdiscovered hi hpaths] at hid
  rcases Option.bind_eq_some_iff.mp hid with ⟨j, hj, hid⟩
  rcases Option.bind_eq_some_iff.mp hj with ⟨p, hp, hlookup⟩
  rcases ModuleGraph.exists_of_lookup hlookup with ⟨m, hm, hfile⟩
  -- only modules of the bundles have ids, so there is an artifact for the id
  have hmem : j ∈ modulesOf parts := mem_of_id hid
  rcases hlinked.record hmem with ⟨m', hm', hid', hfile', -⟩
  rw [hm] at hm'
  cases hm'
  refine ⟨p, hp, made j, ?_, ?_, ?_⟩
  · rw [hartifacts]
    exact List.mem_map_of_mem hmem
  · rw [hid] at hid'
    exact (Option.some.inj hid').symm
  · intro b hb
    rw [hartifacts] at hb
    rcases List.mem_map.mp hb with ⟨k, hk, rfl⟩
    rcases hlinked.record hk with ⟨m'', hm'', -, hfile'', -⟩
    constructor
    · intro heq
      rw [hfile''] at heq
      rw [hdiscovered.distinct.eq_of_components hm'' hm (heq.trans hfile.symm)]
    · intro heq
      rw [heq, hfile', hfile]

theorem mem_textsIn {config : Config} (hconfig : l.config = config) {trees : List FileTree} (ht : t ∈ trees) :
    ∀ s ∈ (l.discovery t).texts, s ∈ config.textsIn trees := by
  intro s hs
  have hs : s ∈ t.texts ++ l.config.overrides.values := hs
  unfold Config.textsIn
  rcases List.mem_append.mp hs with hs | hs
  · exact List.mem_append_left _ (List.mem_flatMap.mpr ⟨t, ht, hs⟩)
  · exact List.mem_append_right _ (hconfig ▸ hs)

/-- Code that was made in some tree, perhaps under another spelling of the file, is that of the module that
is opened now under that spelling, if the digests are the same. -/
theorem compile_of_codeOf {t' : FileTree} {p q : Path} (hpq : p.components = q.components) {a : Artifact}
    {m : Module} (hm : ((l.discovery t).opened p).outcome = .ok m) (hhash : m.hash = a.record.hash)
    (hcode : l.CodeOf t' q a)
    (h : ∀ d ∈ q.ancestors, t'.fileAt? (d.child Manifest.fileName) = t.fileAt? (d.child Manifest.fileName))
    {texts : List String} (hseparates : Digest.Separates texts) (ht : ∀ s ∈ (l.discovery t).texts, s ∈ texts)
    (ht' : ∀ s ∈ (l.discovery t').texts, s ∈ texts) :
    compile l.minifier l.config.settings (m.spelled q) a.record.dependencyMap = .ok a.code := by
  rcases hcode with ⟨m', hm', hhash', hcompile⟩
  rw [← compile_congr (opened_spelled hpq h hm hm' hseparates ht ht' (hhash.trans hhash'.symm))]
  exact hcompile

end Linker

namespace History

variable {change : FileTree → FileTree → Prop} {l₀ l : Linker} {t₀ t : FileTree} {past : List PastLink}

theorem codeOf (h : History change l₀ t₀ past l t) {t' : FileTree} {file : Path} {a : Artifact}
    (ha : l₀.CodeOf t' file a) : l.CodeOf t' file a := by
  rcases h.setup with ⟨cache, manifests, rfl⟩
  exact ha

/-- After all changes and links, the code of an artifact is made of the text of its module at present. It names
the file as it was spelled in the first of the last links in which it had this text under these ids. -/
theorem exists_madeAs {trusted : Path → Prop} (h : History change l₀ t₀ past l t) {config : Config} (hconfig : l₀.config = config)
    (hcache : l₀.cache.artifacts = Table.empty) (hmanifests : l₀.manifests = Table.empty)
    (hspares : Spares change trusted)
    (hseparates : Digest.Separates (config.textsIn (t :: treesOf past))) {output : LinkOutput}
    (hlink : (l.link t).1 = .ok output) {a : Artifact} (ha : a ∈ output.artifacts)
    (htrusted : ∀ d ∈ a.record.file.ancestors, trusted d) :
    ∃ first, (streak a.record.file a.sameCode ((t, .ok output) :: past)).getLast? = some first ∧
      ∃ m, l.MadeAs t first a m := by
  rcases h.kept_artifacts hcache hmanifests hspares hlink ha with ⟨hgoesBack, m, hsources⟩
  rcases hgoesBack.code htrusted with ⟨t', ht', first, hfirst, hcodeOf⟩
  have hfile := components_of_mem_streak (List.mem_of_getLast? hfirst)
  have hm := hsources.opened htrusted
  have hlater := h.link
  rw [hlink] at hlater
  -- the manifests above the file are those with which the code was made
  have hsame : ∀ d ∈ first.record.file.ancestors,
      t'.fileAt? (d.child Manifest.fileName) = t.fileAt? (d.child Manifest.fileName) :=
    fun d hd => (hlater.fileAt?_eq hspares ht' (hspares.ancestors hfile.symm htrusted d hd)).symm
  have hconfig : l.config = config := by
    rcases h.setup with ⟨cache, manifests, rfl⟩
    exact hconfig
  have hcode := Linker.compile_of_codeOf hfile.symm hm hsources.hash (h.codeOf hcodeOf) hsame hseparates
    (Linker.mem_textsIn hconfig List.mem_cons_self) (Linker.mem_textsIn hconfig ht')
  refine ⟨first, hfirst, m, hm, hfile, hcode, ?_, ?_⟩
  · intro halike
    rwa [halike, Discovery.spelled_self hm] at hcode
  · intro hcurrent
    exact headText_eq_of_compile rfl rfl rfl hcode hcurrent

/-- After all changes that leave manifests alone and all links, the ids in an artifact are those of the
artifacts of this link, and its code is made of the text of its module at present under these ids, with the
file as it was spelled when the code was made. A path that steps upwards can cease to lead to the manifests
above it. -/
theorem code_of_history {config : Config} {minifier : Minifier} {excluded : String → Bool}
    (hstart : Linker.ofConfig t₀ config minifier excluded = .ok l₀)
    (h : History FileTree.KeepsManifests l₀ t₀ past l t)
    (hseparates : Digest.Separates (config.textsIn (t :: treesOf past))) {output : LinkOutput}
    (hlink : (l.link t).1 = .ok output) :
    ∀ a ∈ output.artifacts, output.IdsFit a ∧
      (.up ∉ a.record.file.components →
        ∃ first, (streak a.record.file a.sameCode ((t, .ok output) :: past)).getLast? = some first ∧
          ∃ m, l.MadeAs t first a m) := by
  rcases Linker.ofConfig_eq_ok.mp hstart with ⟨-, -, -, -, policy, -, hl₀⟩
  have hcache : l₀.cache.artifacts = Table.empty := Linker.cache_of_ofConfig hstart
  have hmanifests : l₀.manifests = Table.empty := by
    rw [hl₀]
    rfl
  have hconfig : l₀.config = config := by
    rw [hl₀]
    rfl
  intro a ha
  refine ⟨Linker.ids_of_link hlink ?_ ha, ?_⟩
  · intro b hb
    exact (h.kept_artifacts hcache hmanifests spares_of_keepsManifests hlink hb).1.ordered
  · intro hup
    exact h.exists_madeAs hconfig hcache hmanifests spares_of_keepsManifests hseparates hlink ha
      fun d hd hmem => hup (Path.up_mem_of_mem_ancestors hd hmem)

/-- A script that requires a module of a package with two slashes in the specifier. -/
def twoSlashes : FileTree :=
  .ofTexts ["work"] [["work"], ["work", "src"], ["work", "src", "app"], ["work", "src", "app", "node_modules"],
      ["work", "src", "app", "node_modules", "x"]] [
    (["work", "src", "app", "a.js"], "require(\"x//y\");\n"),
    (["work", "src", "app", "node_modules", "x", "y.js"], "1;\n")]

/-- The same script with one slash. -/
def oneSlash : FileTree :=
  twoSlashes.put ["work", "src", "app", "a.js"] (.file "require(\"x/y\");\n".toUTF8)

theorem rewrites_oneSlash : FileTree.Rewrites twoSlashes oneSlash :=
  FileTree.rewrites_put (by rfl) (by decide) _

/-- A configuration for a script below a base. -/
def scriptConfig : Config :=
  { Config.default with entries := [⟨"src/app/a.js"⟩], bases := [⟨"src"⟩], minify := false }

theorem separates_oneSlash : Digest.Separates (scriptConfig.textsIn [oneSlash, twoSlashes]) :=
  Digest.separates_of_nodup (by decide +kernel)

/-- Two links between which a specifier loses a slash: the second one leaves code that compiling the module
does not give. -/
theorem exists_run_of_oneSlash : ∃ (l : Linker) (output : LinkOutput),
    Linker.ofConfig twoSlashes scriptConfig Minifier.unchanged (fun _ => false) = .ok l ∧
      ((l.link twoSlashes).2.1.link oneSlash).1 = .ok output ∧
      ∃ a ∈ output.artifacts, ∃ m,
        (((l.link twoSlashes).2.1.discovery oneSlash).opened a.record.file).outcome = .ok m ∧
        compile Minifier.unchanged scriptConfig.settings m a.record.dependencyMap ≠ .ok a.code := by
  have hcheck : ((Linker.ofConfig twoSlashes scriptConfig Minifier.unchanged
      fun _ => false).toOption.any fun l => ((l.link twoSlashes).2.1.link oneSlash).1.toOption.any fun output =>
        output.artifacts.any fun a =>
          (((l.link twoSlashes).2.1.discovery oneSlash).opened a.record.file).outcome.toOption.any fun m =>
            compile Minifier.unchanged scriptConfig.settings m a.record.dependencyMap != .ok a.code) = true := by
    decide +kernel
  rcases exists_of_any hcheck with ⟨l, hstart, hcheck⟩
  rcases exists_of_any hcheck with ⟨output, hlink, hcheck⟩
  rcases List.any_eq_true.mp hcheck with ⟨a, ha, hcheck⟩
  rcases exists_of_any hcheck with ⟨m, hm, hcheck⟩
  exact ⟨l, output, hstart, hlink, a, ha, m, hm, by simpa using hcheck⟩

/-- What is known of the artifacts when a specifier loses a slash between two links. -/
theorem code_of_oneSlash : ∃ (l₀ l : Linker) (past : List PastLink) (output : LinkOutput),
    Linker.ofConfig twoSlashes scriptConfig Minifier.unchanged (fun _ => false) = .ok l₀ ∧
      History FileTree.KeepsManifests l₀ twoSlashes past l oneSlash ∧
      (l.link oneSlash).1 = .ok output ∧ ∀ a ∈ output.artifacts, output.IdsFit a ∧
        (.up ∉ a.record.file.components →
          ∃ first, (streak a.record.file a.sameCode ((oneSlash, .ok output) :: past)).getLast? = some first ∧
            ∃ m, l.MadeAs oneSlash first a m) := by
  rcases exists_run_of_oneSlash with ⟨l₀, output, hstart, hlink, -⟩
  have hhistory := (History.start : History _ l₀ twoSlashes _ _ _).link.change rewrites_oneSlash.keepsManifests
  exact ⟨l₀, _, _, output, hstart, hhistory, hlink, code_of_history hstart hhistory separates_oneSlash hlink⟩

/-- The code of a module is not always that of its text at present: it can carry an earlier spelling of the
file, which the module no longer has. -/
theorem exists_stale_code : ∃ (l₀ l : Linker) (past : List PastLink) (output : LinkOutput),
    Linker.ofConfig twoSlashes scriptConfig Minifier.unchanged (fun _ => false) = .ok l₀ ∧
      History FileTree.KeepsManifests l₀ twoSlashes past l oneSlash ∧
      Digest.Separates (scriptConfig.textsIn (oneSlash :: treesOf past)) ∧ (l.link oneSlash).1 = .ok output ∧
      ∃ a ∈ output.artifacts, ∃ m, ((l.discovery oneSlash).opened a.record.file).outcome = .ok m ∧
        compile Minifier.unchanged scriptConfig.settings m a.record.dependencyMap ≠ .ok a.code := by
  rcases exists_run_of_oneSlash with ⟨l₀, output, hstart, hlink, hstale⟩
  have hhistory := (History.start : History _ l₀ twoSlashes _ _ _).link.change rewrites_oneSlash.keepsManifests
  exact ⟨l₀, _, _, output, hstart, hhistory, separates_oneSlash, hlink, hstale⟩

end History

end Relink
