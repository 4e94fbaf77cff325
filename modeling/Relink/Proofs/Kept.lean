import Relink.Proofs.History
import Relink.Proofs.Membership

/-!
# What a cache keeps

The cache of a linker has the artifacts of the last link that has succeeded. Every one of them goes back to a
link of that linker: its code was made in the first of the last links in which the file had the same text under
the same ids, and what it requires was found in the first of those in which it had the same text.

* `CodeOf`, `PathsOf` — the code of an artifact and what it requires, as they are made in a tree.
* `Sources` — where a link takes the code of an artifact from, and what it requires.
* `Kept` — the invariant on the artifacts.
* `History.kept` — it holds after all changes and links.
-/

namespace Relink

open Linking Relink.Partition

namespace Linker

/-! ## A link -/

/-- The code of an artifact is that of its module, if its file is spelled in a given way. -/
def CodeOf (l : Linker) (t : FileTree) (file : Path) (a : Artifact) : Prop :=
  ∃ m, ((l.discovery t).opened file).outcome = .ok m ∧ m.hash = a.record.hash ∧
    compile l.minifier l.config.settings m a.record.dependencyMap = .ok a.code

/-- An artifact requires what has been found for a module. -/
structure AsFound (m : Module) (r : ModuleRecord) : Prop where
  dependencyPaths : m.dependencyPaths = r.dependencyPaths
  externals : m.externals = r.externals
  shims : m.shims = r.shims

/-- An artifact requires what an analysis of its module finds, if its file is spelled in a given way. -/
def PathsOf (l : Linker) (t : FileTree) (file : Path) (a : Artifact) : Prop :=
  ∃ m m', ((l.discovery t).opened file).outcome = .ok m ∧ m.hash = a.record.hash ∧
    ((l.discovery t).analysed m).outcome = .ok m' ∧ AsFound m' a.record

/-- The code of an artifact is new, or the cache has had it under the same ids. -/
inductive CodeFrom (l : Linker) (m : Module) (a : Artifact) : Prop
  | compiled (hcompile : compile l.minifier l.config.settings m a.record.dependencyMap = .ok a.code)
      (hnew : ∀ a₀, l.cache.get? a.record.file = some a₀ → a.sameCode a₀ = false)
  | reused {a₀ : Artifact} (hcached : l.cache.get? a.record.file = some a₀) (hsame : a.sameCode a₀ = true)
      (hcode : a₀.code = a.code)

/-- What an artifact requires has been found anew, or the cache has had it. -/
inductive PathsFrom (l : Linker) (t : FileTree) (trusted : Path → Prop) (m : Module) (a : Artifact) : Prop
  | analysed {m' : Module} (hordered : a.record.dependencyPaths.Ordered)
      (houtcome : (∀ d, trusted d) → ((l.discovery t).analysed m).outcome = .ok m') (hfound : AsFound m' a.record)
      (hnew : ∀ a₀, l.cache.get? a.record.file = some a₀ → a.sameText a₀ = false)
  | recalled {a₀ : Artifact} (hcached : l.cache.get? a.record.file = some a₀) (hsame : a.sameText a₀ = true)
      (hpaths : a₀.record.dependencyPaths = a.record.dependencyPaths)
      (hexternals : a₀.record.externals = a.record.externals) (hshims : a₀.record.shims = a.record.shims)

/-- Where an artifact of a link is from: its file is opened, and the rest is new or from the cache. -/
structure Sources (l : Linker) (t : FileTree) (trusted : Path → Prop) (a : Artifact) (m : Module) : Prop where
  opened : (∀ d ∈ a.record.file.ancestors, trusted d) → ((l.discovery t).opened a.record.file).outcome = .ok m
  hash : m.hash = a.record.hash
  code : CodeFrom l m a
  paths : PathsFrom l t trusted m a

section Link

variable {l : Linker} {t : FileTree} {trusted : Path → Prop}

/-- The modules of the graph of a link are opened, and analysed or recalled. -/
theorem sourced_of_runIn {s s' : Session} {g : ModuleGraph}
    (h : (l.graph t).runIn s = (.ok g, s')) (hfits : Fits trusted t s.manifests) :
    ∀ m ∈ g.modules, Discovery.Sourced (l.discovery t) trusted m := by
  have hmodule : ∀ file, Meets trusted t ((l.discovery t).module file)
      (Returns fun m => m.file = file ∧ Discovery.Sourced (l.discovery t) trusted m) :=
    Discovery.meets_module_sourced (d := l.discovery t)
  have hmeets := meets_graph hmodule fun m dependencies h => h.with_dependencies dependencies
  exact ((hmeets s hfits).1 g (congrArg Prod.fst h)).2

/-- What is made of a module that is opened, and analysed or recalled. -/
theorem sources_of_made {g : ModuleGraph} {ids : Table Nat ModuleId} {i : Nat} {job : Job} {a : Artifact}
    (hplan : plan l.cache g ids i = some job) (hmade : IsMade l job a)
    (hsourced : Discovery.Sourced (l.discovery t) trusted job.module) : ∃ m, Sources l t trusted a m := by
  rcases recordOf_eq_ok hmade.1 with ⟨-, hfile, hhash, hmap, hpaths, hexternals, hshims⟩
  have hcode := code_cases hplan hmade
  rcases job with ⟨place, module, id, ids', reason⟩
  simp only at hfile hhash hmap hpaths hexternals hshims hcode hsourced
  rcases hsourced with ⟨m₀, m₁, dependencies, hfresh, hopened, horigin, rfl⟩
  have hresembles := horigin.resembles
  simp only at hfile hhash hmap hpaths hexternals hshims hcode hfresh hopened
  have hhash₀ : m₀.hash = a.record.hash := by rw [hhash, hresembles.hash]
  have hcompile : compile l.minifier l.config.settings { m₁ with dependencies := dependencies } ids' =
      compile l.minifier l.config.settings m₀ ids' :=
    compile_congr ((resembles_with_dependencies m₁ dependencies).toTwin.trans hresembles.toTwin) _ _ _
  rw [hcompile, ← hmap, ← hfile] at hcode
  rw [← hfile] at hfresh hopened
  refine ⟨m₀, hopened, hhash₀, ?_, ?_⟩
  · -- the code: a module that is recalled is compiled only if its ids are new
    rcases hcode with ⟨hcompile, hnot⟩ | ⟨hunchanged, a₀, ha₀, hids, hcode⟩
    · refine CodeFrom.compiled hcompile ?_
      intro a₀ ha₀
      -- an artifact of the same text is recalled, so the ids are others
      rw [Bool.eq_false_iff, ne_eq, Artifact.sameCode_iff]
      rintro ⟨hsame, hids⟩
      cases horigin with
      | analysed _ _ hnew _ _ =>
        rw [hfresh.file] at hnew
        exact hnew a₀ ha₀ (hsame.trans hhash₀.symm)
      | recalled _ _ => exact hnot rfl a₀ ha₀ hids
    · refine CodeFrom.reused ha₀ ?_ hcode
      rw [Artifact.sameCode_iff]
      refine ⟨?_, hids⟩
      cases horigin with
      | analysed _ hchanged _ _ _ =>
        rw [hchanged] at hunchanged
        cases hunchanged
      | @recalled a₁ ha₁ hsame =>
        rw [hfresh.file] at ha₁
        cases ha₀.symm.trans ha₁
        exact hsame.trans hhash₀
  · -- what it requires: a module is analysed only if its text is new
    cases horigin with
    | analysed hm _ hnew hpolicy houtcome =>
      refine PathsFrom.analysed ?_ houtcome ⟨hpaths.symm, hexternals.symm, hshims.symm⟩ ?_
      · rw [hpaths]
        exact hpolicy.ordered
      · intro a₀ ha₀
        rw [hfresh.file] at hnew
        rw [Bool.eq_false_iff, ne_eq, Artifact.sameText_iff, ← hhash₀]
        exact hnew a₀ ha₀
    | @recalled a₀ ha₀ hsame =>
      rw [hfresh.file] at ha₀
      exact PathsFrom.recalled ha₀ (Artifact.sameText_iff.mpr (hsame.trans hhash₀)) hpaths.symm hexternals.symm
        hshims.symm

/-- What is known of the artifacts of a link, and what it leaves in the cache. -/
theorem artifacts_of_link (hfits : Fits trusted t l.manifests) {output : LinkOutput}
    (hlink : (l.link t).1 = .ok output) :
    (∀ a ∈ output.artifacts, output.artifact? a.record.file = some a ∧ ∃ m, Sources l t trusted a m) ∧
    ∀ file, (l.link t).2.1.cache.get? file = output.artifact? file := by
  rcases link_cases hlink with ⟨g, s, parts, made, kept, hgraph, hlinked, hafter⟩
  have hartifacts : output.artifacts = (modulesOf parts).map made := hlinked.artifacts
  have hkept : ∀ a, a ∈ kept ↔ a ∈ output.artifacts := by
    intro a
    rw [hlinked.kept, hartifacts]
    constructor
    · rintro ⟨i, hi, rfl⟩
      exact List.mem_map_of_mem hi
    · intro ha
      rcases List.mem_map.mp ha with ⟨i, hi, rfl⟩
      exact ⟨i, hi, rfl⟩
  have hunique : ∀ a ∈ output.artifacts, ∀ b ∈ output.artifacts,
      b.record.file.components = a.record.file.components → b = a := by
    intro a ha b hb heq
    rw [hartifacts] at ha hb
    rcases List.mem_map.mp ha with ⟨i, hi, rfl⟩
    rcases List.mem_map.mp hb with ⟨j, hj, rfl⟩
    rw [hlinked.eq_of_components (discovered_of_runIn hgraph).distinct hj hi heq]
  constructor
  · intro a ha
    refine ⟨LinkOutput.artifact?_eq_some ha (hunique a ha), ?_⟩
    rw [hartifacts] at ha
    rcases List.mem_map.mp ha with ⟨i, hi, rfl⟩
    rcases hlinked.isMade i hi with ⟨job, hplan, hmade⟩
    refine sources_of_made hplan hmade ?_
    rcases plan_eq_some hplan with ⟨m, hm, rfl⟩
    exact sourced_of_runIn hgraph hfits m (List.mem_of_getElem? hm)
  · intro file
    rw [hafter]
    cases hfind : output.artifact? file with
    | some a =>
      have hmem : a ∈ output.artifacts := List.mem_of_find?_eq_some hfind
      have hfile : a.record.file.components = file.components := by simpa using List.find?_some hfind
      exact get?_replace_of_mem ((hkept a).mpr hmem) hfile fun b hb => hunique a hmem b ((hkept b).mp hb)
    | none =>
      -- whatever is in the cache is an artifact of the link
      rw [Option.eq_none_iff_forall_ne_some]
      intro a ha
      rcases get?_replace ha with ⟨hmem, hfile⟩
      exact List.find?_eq_none.mp hfind a ((hkept a).mp hmem) (decide_eq_true hfile)

end Link

end Linker

/-! ## The invariant -/

/-- An artifact goes back to the links in which it has been made: its code and what it requires are those of
its text in these, with the file as it was spelled there. -/
structure Kept (l : Linker) (trusted : Path → Prop) (past : List PastLink) (a : Artifact) : Prop where
  ordered : a.record.dependencyPaths.Ordered
  code : (∀ d ∈ a.record.file.ancestors, trusted d) → ∃ t ∈ treesOf past, ∃ first,
    (streak a.record.file a.sameCode past).getLast? = some first ∧ l.CodeOf t first.record.file a
  paths : (∀ d, trusted d) → ∃ t ∈ treesOf past, ∃ first,
    (streak a.record.file a.sameText past).getLast? = some first ∧ l.PathsOf t first.record.file a

section Step

variable {l₀ : Linker} {cache : Cache} {manifests : Table Path Manifest} {t : FileTree}
  {trusted : Path → Prop} {past : List PastLink} {change : FileTree → FileTree → Prop}

/-- What a link makes goes back to it, or to the links before. -/
theorem kept_of_sources (hspares : Spares change trusted)
    (hcache : ∀ file, cache.get? file = latest file past)
    (hkept : ∀ file a, cache.get? file = some a → a.record.file.components = file.components ∧ Kept l₀ trusted past a)
    {a : Artifact} {m : Module} (h : Linker.Sources (l₀.resume cache manifests) t trusted a m) {output : LinkOutput}
    (hfind : output.artifact? a.record.file = some a) : Kept l₀ trusted ((t, .ok output) :: past) a := by
  have htree : t ∈ treesOf ((t, .ok output) :: past) := List.mem_cons_self
  have hself : a.sameText a = true := Artifact.sameText_iff.mpr rfl
  have hself' : a.sameCode a = true := Artifact.sameCode_iff.mpr ⟨rfl, rfl⟩
  refine ⟨?_, ?_, ?_⟩
  · cases h.paths with
    | analysed hordered _ _ _ => exact hordered
    | recalled hcached _ hpaths _ _ =>
      rw [← hpaths]
      exact (hkept _ _ hcached).2.ordered
  · intro htrusted
    cases h.code with
    | compiled hcompile hnew =>
      have hfirst := getLast?_streak_of_new (t := t) hfind hself' fun a₀ ha₀ => hnew a₀ ((hcache _).trans ha₀)
      exact ⟨t, htree, a, hfirst, m, h.opened htrusted, h.hash, hcompile⟩
    | @reused a₀ hcached hsame hcode =>
      rcases hkept _ _ hcached with ⟨hfile, hkept₀⟩
      rcases Artifact.sameCode_iff.mp hsame with ⟨hhash, hids⟩
      obtain ⟨t', ht', first, hfirst, m', hm', hhash', hcompile⟩ := hkept₀.code (hspares.ancestors hfile.symm htrusted)
      have hkind : a₀.sameCode = a.sameCode := by
        funext b
        unfold Artifact.sameCode Artifact.sameText
        rw [hhash, hids]
      rw [hkind] at hfirst
      refine ⟨t', List.mem_cons_of_mem _ ht', first, getLast?_streak_of_old hfind hself' hfile hfirst, m', hm',
        hhash'.trans hhash, ?_⟩
      rw [← hids, ← hcode]
      exact hcompile
  · intro htrusted
    cases h.paths with
    | @analysed m' _ houtcome hfound hnew =>
      have hfirst := getLast?_streak_of_new (t := t) hfind hself fun a₀ ha₀ => hnew a₀ ((hcache _).trans ha₀)
      exact ⟨t, htree, a, hfirst, m, m', h.opened fun d _ => htrusted d, h.hash, houtcome htrusted, hfound⟩
    | @recalled a₀ hcached hsame hpaths hexternals hshims =>
      rcases hkept _ _ hcached with ⟨hfile, hkept₀⟩
      have hhash := Artifact.sameText_iff.mp hsame
      rcases hkept₀.paths htrusted with ⟨t', ht', first, hfirst, m', m'', hm', hhash', hm'', hfound⟩
      have hkind : a₀.sameText = a.sameText := by
        funext b
        unfold Artifact.sameText
        rw [hhash]
      rw [hkind] at hfirst
      exact ⟨t', List.mem_cons_of_mem _ ht', first, getLast?_streak_of_old hfind hself hfile hfirst, m', m'', hm',
        hhash'.trans hhash, hm'',
        hfound.dependencyPaths.trans hpaths, hfound.externals.trans hexternals, hfound.shims.trans hshims⟩

end Step

/-! ## Histories -/

namespace History

variable {change : FileTree → FileTree → Prop} {l₀ l : Linker} {t₀ t : FileTree} {past : List PastLink}
  {trusted : Path → Prop}

/-- The cache has the artifacts of the last link that has succeeded, and whatever is in it goes back to the
links. -/
theorem kept (h : History change l₀ t₀ past l t) (hcache : l₀.cache.artifacts = Table.empty)
    (hmanifests : l₀.manifests = Table.empty) (hspares : Spares change trusted) :
    (∀ file, l.cache.get? file = latest file past) ∧ ∀ file a, l.cache.get? file = some a →
      a.record.file.components = file.components ∧ Kept l₀ trusted past a := by
  induction h with
  | start =>
    have hnone : ∀ file, l₀.cache.get? file = none := by
      intro file
      unfold Cache.get?
      rw [hcache]
      rfl
    refine ⟨hnone, ?_⟩
    intro file a ha
    rw [hnone] at ha
    cases ha
  | change _ _ ih => exact ih
  | @link past l t h ih =>
    rcases h.setup with ⟨cache, manifests, rfl⟩
    have hfits := h.fits hmanifests hspares
    -- a link that succeeds replaces the cache by what it has made, and one that fails leaves it
    cases hlink : ((l₀.resume cache manifests).link t).1 with
    | ok output =>
      rcases Linker.artifacts_of_link hfits hlink with ⟨hartifacts, hafter⟩
      refine ⟨hafter, ?_⟩
      intro file a ha
      rw [hafter] at ha
      rcases hartifacts a (List.mem_of_find?_eq_some ha) with ⟨hfind, m, hsources⟩
      refine ⟨by simpa using List.find?_some ha, ?_⟩
      exact kept_of_sources hspares ih.1 ih.2 hsources hfind
    | error e =>
      obtain ⟨cache', hstate, hcase⟩ := Linker.link_snd (l := l₀.resume cache manifests) (t := t)
      rcases hcase with ⟨-, -, rfl⟩ | ⟨output, -, hok, -⟩
      · rw [hstate]
        refine ⟨ih.1, ?_⟩
        intro file a ha
        rcases ih.2 file a ha with ⟨hkey, hkept⟩
        refine ⟨hkey, hkept.ordered, ?_, ?_⟩
        · intro htrusted
          rcases hkept.code htrusted with ⟨t', ht', hrest⟩
          exact ⟨t', List.mem_cons_of_mem _ ht', hrest⟩
        · intro htrusted
          rcases hkept.paths htrusted with ⟨t', ht', hrest⟩
          exact ⟨t', List.mem_cons_of_mem _ ht', hrest⟩
      · rw [hlink] at hok
        cases hok

/-- What is in the bundles of the next link is made of a module that is opened now, and goes back to the links
and this one. -/
theorem kept_artifacts (h : History change l₀ t₀ past l t) (hcache : l₀.cache.artifacts = Table.empty)
    (hmanifests : l₀.manifests = Table.empty) (hspares : Spares change trusted) {output : LinkOutput}
    (hlink : (l.link t).1 = .ok output) {a : Artifact} (ha : a ∈ output.artifacts) :
    Kept l₀ trusted ((t, .ok output) :: past) a ∧ ∃ m, Linker.Sources l t trusted a m := by
  rcases h.setup with ⟨cache, manifests, rfl⟩
  rcases h.kept hcache hmanifests hspares with ⟨hlatest, hkept⟩
  rcases (Linker.artifacts_of_link (h.fits hmanifests hspares) hlink).1 a ha with ⟨hfind, m, hsources⟩
  exact ⟨kept_of_sources hspares hlatest hkept hsources hfind, m, hsources⟩

end History

end Relink
