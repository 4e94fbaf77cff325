import Relink.Proofs.Alongside
import Relink.Proofs.Kept

/-!
# Linking again

A link that follows another one compiles the modules whose text has changed, and those that depend on a module
whose id has changed. All others are taken from the cache.

* `Linker.compiled` — the files whose modules a link compiles.
* `Linker.Successive` — two links, one after the other.
* `alongside_parts` — the bundles of both have the artifacts of the same files.
* `compiled_again_iff` — when a module is compiled again.
* `compiles_only_needed` — what the second link compiles, and what it takes from the cache.
-/

namespace Relink

open Linking ModuleGraph Relink.Partition

/-! ## What a link compiles -/

namespace Linker

variable {l : Linker} {t : FileTree}

/-- The files whose modules a link compiles, in the order of the bundles. -/
def compiled (l : Linker) (t : FileTree) : List Path :=
  match ((l.graph t).runIn l.session).1 with
  | .error _ => []
  | .ok g =>
    match partition g l.config.plugin l.entries with
    | .error _ => []
    | .ok parts => ((l.jobs g parts).filter fun job => job.reason.isSome).map fun job => job.module.file

theorem compiled_eq {s : Session} {g : ModuleGraph} (hgraph : (l.graph t).runIn l.session = (.ok g, s))
    {parts : List Partition} (hparts : partition g l.config.plugin l.entries = .ok parts) :
    l.compiled t = ((l.jobs g parts).filter fun job => job.reason.isSome).map fun job => job.module.file := by
  unfold compiled
  rw [hgraph]
  simp only [hparts]

/-- There is new code for a module if and only if there is a reason to compile it. -/
theorem meets_codes {trusted : Path → Prop} (jobs : List Job) :
    Meets trusted t (l.make jobs) (Returns fun r => r.1.map Option.isSome = jobs.map fun job => job.reason.isSome) := by
  unfold make
  refine (Meets.mapM fun job _ => meets_codeOf job).returns_bind ?_
  intro codes hcodes
  have hsome : codes.map Option.isSome = jobs.map fun job => job.reason.isSome := by
    induction hcodes with
    | nil => rfl
    | @cons job code jobs codes hcode _ ih =>
      rw [List.map_cons, List.map_cons, ih]
      congr 1
      cases code with
      | none =>
        have hreason : job.reason = none := hcode
        rw [hreason]
        rfl
      | some code =>
        have hreason := Option.isSome_iff_ne_none.mpr hcode.1
        rw [hreason]
        rfl
  refine (Meets.mapM (P := fun _ _ => True) ?_).returns_bind ?_
  · rintro ⟨job, code⟩ -
    have hartifact : Steady trusted t True (l.artifactOf job code) := steady_artifactOf job code
    exact Meets.mono hartifact fun _ _ _ _ => trivial
  · intro made _
    exact Meets.returns_pure hsome

/-- The values of a list that a function is defined on, one by one. -/
theorem forall₂_filterMap {α β : Type} {f : α → Option β} {as : List α} (h : ∀ a ∈ as, ∃ b, f a = some b) :
    List.Forall₂ (fun a b => f a = some b) as (as.filterMap f) := by
  induction as with
  | nil => exact List.Forall₂.nil
  | cons a as ih =>
    obtain ⟨b, hb⟩ := h a List.mem_cons_self
    rw [List.filterMap_cons_some hb]
    constructor
    · exact hb
    · apply ih
      intro a' ha'
      exact h a' (List.mem_cons_of_mem _ ha')

/-- A link that has succeeded, with what it has found and made. -/
structure Finished (l : Linker) (t : FileTree) where
  session : Session
  graph : ModuleGraph
  parts : List Partition
  made : Nat → Artifact
  output : LinkOutput
  kept : List Artifact
  found : (l.graph t).runIn l.session = (.ok graph, session)
  linked : Linked l graph parts made output kept

theorem exists_finished {output : LinkOutput} (h : (l.link t).1 = .ok output) :
    ∃ r : Finished l t, r.output = output ∧ (l.link t).2.1.cache = l.cache.replace r.kept := by
  obtain ⟨g, s, parts, made, kept, hgraph, hlinked, hcache⟩ := link_cases h
  exact ⟨⟨s, g, parts, made, output, kept, hgraph, hlinked⟩, rfl, hcache⟩

namespace Finished

variable (r : Finished l t)

theorem discovered : Discovery.Discovered (l.discovery t) l.entries r.graph := discovered_of_runIn r.found

theorem mem_artifacts {a : Artifact} : a ∈ r.output.artifacts ↔ ∃ i ∈ modulesOf r.parts, r.made i = a := by
  have hartifacts : r.output.artifacts = (modulesOf r.parts).map r.made := r.linked.artifacts
  rw [hartifacts, List.mem_map]

/-- A file has one artifact. -/
theorem unique {a b : Artifact} (ha : a ∈ r.output.artifacts) (hb : b ∈ r.output.artifacts)
    (h : b.record.file.components = a.record.file.components) : b = a := by
  obtain ⟨i, hi, rfl⟩ := r.mem_artifacts.mp ha
  obtain ⟨j, hj, rfl⟩ := r.mem_artifacts.mp hb
  rw [r.linked.eq_of_components r.discovered.distinct hj hi h]

/-- The place of a module of the bundles, with what is made of it. -/
theorem job_at {i : Nat} (hi : i ∈ modulesOf r.parts) : ∃ m job, r.graph.modules[i]? = some m ∧
    plan l.cache r.graph (assignIds r.graph r.parts) i = some job ∧ job.module = m ∧
    job.reason = reasonFor l.cache m (r.made i).record.dependencyMap ∧ IsMade l job (r.made i) ∧
    (r.made i).record.file = m.file ∧ (r.made i).record.hash = m.hash ∧
    (r.made i).record.dependencyPaths = m.dependencyPaths := by
  obtain ⟨job, hplan, hmade⟩ := r.linked.isMade i hi
  obtain ⟨m, hm, rfl⟩ := plan_eq_some hplan
  obtain ⟨-, hfile, hhash, hmap, hpaths, -⟩ := recordOf_eq_ok hmade.1
  rw [hmap]
  exact ⟨m, _, hm, hplan, rfl, rfl, hmade, hfile, hhash, hpaths⟩

/-- The jobs of a link, in the order of the artifacts. -/
theorem forall₂_jobs : List.Forall₂ (fun i job => plan l.cache r.graph (assignIds r.graph r.parts) i = some job)
    (modulesOf r.parts) (l.jobs r.graph r.parts) := by
  apply forall₂_filterMap
  intro i hi
  obtain ⟨job, hplan, -⟩ := r.linked.isMade i hi
  exact ⟨job, hplan⟩

theorem files_of_jobs : (l.jobs r.graph r.parts).map (fun job => job.module.file) =
    r.output.artifacts.map fun a => a.record.file := by
  have hartifacts : r.output.artifacts = (modulesOf r.parts).map r.made := r.linked.artifacts
  rw [hartifacts, List.map_map]
  have hfile : ∀ {is jobs}, List.Forall₂ (fun i job => plan l.cache r.graph (assignIds r.graph r.parts) i = some job)
      is jobs → (∀ i ∈ is, i ∈ modulesOf r.parts) →
      jobs.map (fun job => job.module.file) = is.map ((fun a => a.record.file) ∘ r.made) := by
    intro is jobs h
    induction h with
    | nil =>
      intro _
      rfl
    | @cons i job is jobs hplan _ ih =>
      intro hmem
      obtain ⟨m, job', -, hplan', hmodule, -, -, hfile, -⟩ := r.job_at (hmem i List.mem_cons_self)
      cases hplan.symm.trans hplan'
      rw [List.map_cons, List.map_cons, ih fun j hj => hmem j (List.mem_cons_of_mem _ hj)]
      congr 1
      rw [hmodule, Function.comp_apply, hfile]
  exact hfile r.forall₂_jobs fun i hi => hi

/-- Only files of artifacts are compiled, each of them once. -/
theorem compiled_sublist : (l.compiled t).Sublist (r.output.artifacts.map fun a => a.record.file) := by
  rw [compiled_eq r.found r.linked.partitioned, ← r.files_of_jobs]
  exact List.filter_sublist.map _

/-- A module is compiled if and only if there is a reason for it. -/
theorem mem_compiled_iff {i : Nat} (hi : i ∈ modulesOf r.parts) {m : Module} (hm : r.graph.modules[i]? = some m) :
    (r.made i).record.file ∈ l.compiled t ↔ reasonFor l.cache m (r.made i).record.dependencyMap ≠ none := by
  obtain ⟨m', job, hm', hplan, hmodule, hreason, -, hfile, -⟩ := r.job_at hi
  rw [hm] at hm'
  cases hm'
  rw [compiled_eq r.found r.linked.partitioned, ← hreason, ← Option.isSome_iff_ne_none, List.mem_map]
  constructor
  · rintro ⟨job', hjob', heq⟩
    obtain ⟨hmem, hsome⟩ := List.mem_filter.mp hjob'
    obtain ⟨j, hj, hplan'⟩ := List.mem_filterMap.mp hmem
    -- the file has only one place
    obtain ⟨n, hn, hjob⟩ := plan_eq_some hplan'
    have hfiles : n.file.components = m.file.components := by
      rw [← hfile, ← heq, hjob]
    rw [r.discovered.distinct.eq_of_components hn hm hfiles, hplan] at hplan'
    cases hplan'
    exact hsome
  · intro hsome
    refine ⟨job, List.mem_filter.mpr ⟨List.mem_filterMap.mpr ⟨i, hi, hplan⟩, hsome⟩, ?_⟩
    rw [hmodule, hfile]

end Finished

/-- A link counts what it compiles, and takes the other artifacts from the cache. -/
theorem counts_of_link {output : LinkOutput} (h : (l.link t).1 = .ok output) :
    output.transformed = (l.compiled t).length ∧
      output.transformed + output.reused = output.artifacts.length := by
  obtain ⟨r, rfl, -⟩ := exists_finished h
  obtain ⟨g, s, parts, s₁, codes, table, s₂, bundles, s₃, hgraph, hparts, hmake, -, -, htransformed, hreused, -⟩ :=
    steps_of_link h
  have hfits := fits_of_forall_not (fun _ h => h) t s₁.manifests
  have hcodes := (meets_codes (l.jobs g parts) s₁ hfits).1 _ (congrArg Prod.fst hmake)
  -- there is one graph and one partition
  cases r.found.symm.trans hgraph
  cases r.linked.partitioned.symm.trans hparts
  have hlength : codes.length = r.output.artifacts.length := by
    have hjobs := congrArg List.length r.files_of_jobs
    have hsame := congrArg List.length hcodes
    simp only [List.length_map] at hjobs hsame
    rw [hsame, hjobs]
  constructor
  · have hcount := congrArg (List.countP id) hcodes
    rw [List.countP_map, List.countP_map] at hcount
    rw [htransformed, compiled_eq r.found r.linked.partitioned, List.length_map, ← List.countP_eq_length_filter]
    exact hcount
  · rw [htransformed, hreused, ← hlength, List.length_eq_countP_add_countP (p := Option.isSome)]
    congr 2
    funext code
    cases code <;> rfl

/-! ## The ids of files -/

namespace Finished

variable (r : Finished l t)

/-- The id of the artifact of a file. -/
def idOf (p : Path) : Option ModuleId := (r.graph.lookup p).bind (assignIds r.graph r.parts).get?

theorem idOf_eq_some {p : Path} {id : ModuleId} : r.idOf p = some id ↔
    ∃ a ∈ r.output.artifacts, a.record.file.components = p.components ∧ a.record.id = id := by
  unfold idOf
  rw [Option.bind_eq_some_iff]
  constructor
  · rintro ⟨i, hi, hid⟩
    obtain ⟨m, hm, hfile⟩ := exists_of_lookup hi
    have hmem : i ∈ modulesOf r.parts := mem_of_id hid
    obtain ⟨m', hm', hid', hfile', -⟩ := r.linked.record hmem
    rw [hm] at hm'
    cases hm'
    rw [hid] at hid'
    exact ⟨r.made i, r.mem_artifacts.mpr ⟨i, hmem, rfl⟩, hfile' ▸ hfile, (Option.some.inj hid').symm⟩
  · rintro ⟨a, ha, hfile, rfl⟩
    obtain ⟨i, hi, rfl⟩ := r.mem_artifacts.mp ha
    obtain ⟨m, hm, hid, hfile', -⟩ := r.linked.record hi
    rw [hfile'] at hfile
    exact ⟨i, r.discovered.distinct.lookup hm hfile, hid⟩

/-- The ids in an artifact are those of the files that it requires. -/
theorem dependencyMap_eq {i : Nat} (hi : i ∈ modulesOf r.parts) :
    (r.made i).record.dependencyMap = (r.made i).record.dependencyPaths.filterMap r.idOf := by
  obtain ⟨m, hm, -, -, hmap, hpaths, -⟩ := r.linked.record hi
  rw [hmap, hpaths, r.discovered.wired m (List.mem_of_getElem? hm), Table.filterMap_filterMap]
  rfl

end Finished

end Linker

/-! ## Two links -/

/-- The same specifiers stand for the same files, however these are spelled. -/
def SamePaths (paths paths' : Table String Path) : Prop :=
  List.Forall₂ (fun e e' => e.1 = e'.1 ∧ e.2.components = e'.2.components) paths.entries paths'.entries

theorem SamePaths.refl (paths : Table String Path) : SamePaths paths paths :=
  List.forall₂_same.mpr fun _ _ => ⟨rfl, rfl⟩

/-- An artifact is of another text than the earlier one of its file. -/
def LinkOutput.Edited (output : LinkOutput) (a' : Artifact) : Prop :=
  ∃ a ∈ output.artifacts, a.record.file.components = a'.record.file.components ∧ a.record.hash ≠ a'.record.hash

/-- An artifact requires a file that had another id. -/
def LinkOutput.Renumbered (output output' : LinkOutput) (a' : Artifact) : Prop :=
  ∃ p ∈ a'.record.dependencyPaths.values, ∃ b ∈ output.artifacts, ∃ b' ∈ output'.artifacts,
    b.record.file.components = p.components ∧ b'.record.file.components = p.components ∧ b.record.id ≠ b'.record.id

/-- Where the text of a file has changed, the same specifiers stand for the same files as before. -/
def LinkOutput.KeepsPaths (output output' : LinkOutput) : Prop :=
  ∀ a ∈ output.artifacts, ∀ a' ∈ output'.artifacts, a.record.file.components = a'.record.file.components →
    a.record.hash ≠ a'.record.hash → SamePaths a.record.dependencyPaths a'.record.dependencyPaths

namespace Linker

variable {l l' : Linker} {t t' : FileTree}

/-- Two links, one after the other: the second one finds in the cache what the first one has made. -/
structure Successive (r : Finished l t) (r' : Finished l' t') : Prop where
  cached : ∀ file, l'.cache.get? file = r.output.artifact? file
  config : l'.config = l.config
  entries : l'.entries = l.entries
  excludes : l'.excludes = l.excludes

theorem exists_successive {output output' : LinkOutput} (hlink : (l.link t).1 = .ok output)
    (hlink' : ((l.link t).2.1.link t').1 = .ok output') :
    ∃ (r : Finished l t) (r' : Finished (l.link t).2.1 t'), r.output = output ∧ r'.output = output' ∧
      Successive r r' := by
  obtain ⟨r, hr, -⟩ := exists_finished hlink
  obtain ⟨r', hr', -⟩ := exists_finished hlink'
  obtain ⟨cache, hstate, -⟩ := link_snd (l := l) (t := t)
  refine ⟨r, r', hr, hr', ?_, ?_, ?_, ?_⟩
  · intro file
    rw [hr]
    exact (artifacts_of_link (fits_of_forall_not (fun _ h => h) t l.manifests) hlink).2 file
  · rw [hstate]
    rfl
  · rw [hstate]
    rfl
  · rw [hstate]
    rfl

namespace Successive

variable {r : Finished l t} {r' : Finished l' t'}

/-- A module that is found again: its artifact is in the cache, and it is recalled if and only if its text is the
same. -/
theorem again (h : Successive r r') {i i' : Nat} (hi : i ∈ modulesOf r.parts) (hi' : i' ∈ modulesOf r'.parts)
    (halong : r.graph.Alongside r'.graph i i') : ∃ m', r'.graph.modules[i']? = some m' ∧
      l'.cache.get? m'.file = some (r.made i) ∧
      (r.made i).record.file.components = (r'.made i').record.file.components ∧
      (m'.changed = true ∧ (r.made i).record.hash ≠ (r'.made i').record.hash ∨
        m'.changed = false ∧ (r.made i).record.hash = (r'.made i').record.hash ∧
          (r.made i).record.dependencyPaths = (r'.made i').record.dependencyPaths) := by
  obtain ⟨m, m', hm, hm', hfiles⟩ := halong
  obtain ⟨n, -, hn, -, -, -, -, hfile, -⟩ := r.job_at hi
  obtain ⟨n', -, hn', -, -, -, -, hfile', hhash', hpaths'⟩ := r'.job_at hi'
  rw [hm] at hn
  rw [hm'] at hn'
  cases hn
  cases hn'
  have hcomponents : (r.made i).record.file.components = m'.file.components := by rw [hfile, hfiles]
  have hcached : l'.cache.get? m'.file = some (r.made i) := by
    have hmem : r.made i ∈ r.output.artifacts := r.mem_artifacts.mpr ⟨i, hi, rfl⟩
    have hfind := LinkOutput.artifact?_eq_some hmem fun b hb hfile => r.unique hmem hb hfile
    rw [h.cached, ← hfind]
    unfold LinkOutput.artifact?
    rw [hcomponents]
  refine ⟨m', hm', hcached, by rw [hcomponents, hfile'], ?_⟩
  -- the module is analysed or recalled, as its text tells
  obtain ⟨m₀, m₁, dependencies, hfresh, -, horigin, rfl⟩ :=
    sourced_of_runIn r'.found (fits_of_forall_not (fun _ h => h) t' l'.manifests) m' (List.mem_of_getElem? hm')
  have hfresh_file := hfresh.file
  simp only at hfresh_file hcached hhash' hpaths'
  rw [hhash', hpaths']
  cases horigin with
  | analysed hresembles hchanged hnew _ _ =>
    left
    constructor
    · exact hchanged
    · rw [hresembles.hash]
      rw [hfresh_file] at hnew
      exact hnew _ hcached
  | @recalled a ha hhash =>
    right
    rw [hfresh_file] at ha
    cases hcached.symm.trans ha
    exact ⟨rfl, hhash, rfl⟩

/-- In both links a module requires the same files. -/
theorem samePaths (h : Successive r r') (hkeeps : r.output.KeepsPaths r'.output) {i i' : Nat}
    (hi : i ∈ modulesOf r.parts) (hi' : i' ∈ modulesOf r'.parts) (halong : r.graph.Alongside r'.graph i i') :
    SamePaths (r.made i).record.dependencyPaths (r'.made i').record.dependencyPaths := by
  obtain ⟨m', -, -, hfiles, ⟨-, hedited⟩ | ⟨-, -, hpaths⟩⟩ := h.again hi hi' halong
  · apply hkeeps
    · exact r.mem_artifacts.mpr ⟨i, hi, rfl⟩
    · exact r'.mem_artifacts.mpr ⟨i', hi', rfl⟩
    · exact hfiles
    · exact hedited
  · rw [hpaths]
    exact SamePaths.refl _

/-- A file that a module requires has a place in both graphs or in neither. -/
theorem rel_lookup (h : Successive r r') {m m' : Module} (hm : m ∈ r.graph.modules) (hm' : m' ∈ r'.graph.modules)
    {p p' : Path} (hp : p ∈ m.dependencyPaths.values) (hp' : p' ∈ m'.dependencyPaths.values)
    (hpp : p.components = p'.components) :
    Option.Rel (r.graph.Alongside r'.graph) (r.graph.lookup p) (r'.graph.lookup p') := by
  -- only excluded files have none
  have hsome : ∀ {l : Linker} {t : FileTree} (r : Finished l t) {m : Module} {p : Path}, m ∈ r.graph.modules →
      p ∈ m.dependencyPaths.values →
      ((r.graph.lookup p).isSome = true ↔ (l.discovery t).isExcluded p = false) := by
    intro l t r m p hm hp
    constructor
    · intro hlookup
      obtain ⟨n, hn, hfile⟩ := contains_iff.mp hlookup
      rw [← Discovery.isExcluded_congr n.file p hfile]
      exact r.discovered.included n hn
    · intro hincluded
      rcases r.discovered.complete p (LedTo.next hm (r.discovered.ledTo m hm) hp) with hexcluded | hcontains
      · rw [hincluded] at hexcluded
        cases hexcluded
      · exact hcontains
  have hexcluded : (l'.discovery t').isExcluded p' = (l.discovery t).isExcluded p := by
    rw [← Discovery.isExcluded_congr p p' hpp]
    unfold Discovery.isExcluded
    show l'.excludes.any p.startsWith = l.excludes.any p.startsWith
    rw [h.excludes]
  have hboth : (r.graph.lookup p).isSome = true ↔ (r'.graph.lookup p').isSome = true := by
    rw [hsome r hm hp, hsome r' hm' hp', hexcluded]
  cases hi : r.graph.lookup p with
  | none =>
    cases hi' : r'.graph.lookup p' with
    | none => exact Option.Rel.none
    | some i' =>
      rw [hi, hi'] at hboth
      cases hboth.mpr rfl
  | some i =>
    cases hi' : r'.graph.lookup p' with
    | none =>
      rw [hi, hi'] at hboth
      cases hboth.mp rfl
    | some i' => exact Option.Rel.some (alongside_of_lookup hpp hi hi')

/-- Modules of the bundles lead to modules of the same files. -/
theorem successors (h : Successive r r') (hkeeps : r.output.KeepsPaths r'.output) {i i' : Nat}
    (hi : i ∈ modulesOf r.parts) (hi' : i' ∈ modulesOf r'.parts) (halong : r.graph.Alongside r'.graph i i') :
    List.Forall₂ (r.graph.Alongside r'.graph) (r.graph.successors i) (r'.graph.successors i') := by
  have hpaths := h.samePaths hkeeps hi hi' halong
  obtain ⟨m, m', hm, hm', -⟩ := halong
  obtain ⟨n, -, hn, -, -, -, -, -, -, hsame⟩ := r.job_at hi
  obtain ⟨n', -, hn', -, -, -, -, -, -, hsame'⟩ := r'.job_at hi'
  rw [hm] at hn
  rw [hm'] at hn'
  cases hn
  cases hn'
  rw [hsame, hsame'] at hpaths
  have hmem := List.mem_of_getElem? hm
  have hmem' := List.mem_of_getElem? hm'
  unfold ModuleGraph.successors
  simp only [hm, hm']
  rw [r.discovered.wired m hmem, r'.discovered.wired m' hmem', Table.values_filterMap, Table.values_filterMap]
  -- the files are required under the same specifiers, one by one
  have hvalues : List.Forall₂ (fun p p' => p ∈ m.dependencyPaths.values ∧ p' ∈ m'.dependencyPaths.values ∧
      p.components = p'.components) m.dependencyPaths.values m'.dependencyPaths.values := by
    rw [List.forall₂_iff_zip]
    constructor
    · unfold Table.values
      rw [List.length_map, List.length_map]
      exact hpaths.length_eq
    · intro p p' hzip
      obtain ⟨hp, hp'⟩ := List.of_mem_zip hzip
      refine ⟨hp, hp', ?_⟩
      have hall : List.Forall₂ (fun p p' : Path => p.components = p'.components) m.dependencyPaths.values
          m'.dependencyPaths.values := by
        unfold Table.values
        rw [List.forall₂_map_left_iff, List.forall₂_map_right_iff]
        exact hpaths.imp fun _ _ he => he.2
      exact List.forall₂_zip hall hzip
  refine List.rel_filterMap ?_ hvalues
  rintro p p' ⟨hp, hp', hpp⟩
  exact h.rel_lookup hmem hmem' hp hp' hpp

/-- The bundles of both links take modules of the same files. -/
theorem alongside_parts (h : Successive r r') (hkeeps : r.output.KeepsPaths r'.output) :
    List.Forall₂ (Partition.Alongside r.graph r'.graph) r.parts r'.parts := by
  have hparts' : partition r'.graph l.config.plugin l.entries = .ok r'.parts := by
    rw [← h.config, ← h.entries]
    exact r'.linked.partitioned
  apply alongside_partition r.discovered.distinct r'.discovered.distinct r.linked.partitioned hparts'
  intro i i' halong hi hi'
  exact h.successors hkeeps hi hi' halong

/-- A file has an id in both links or in neither. -/
theorem isSome_idOf (h : Successive r r') (hkeeps : r.output.KeepsPaths r'.output) (p : Path) :
    (r.idOf p).isSome = (r'.idOf p).isSome := by
  have hmodules := forall₂_modulesOf (h.alongside_parts hkeeps)
  rw [Bool.eq_iff_iff, Option.isSome_iff_exists, Option.isSome_iff_exists]
  constructor
  · rintro ⟨id, hid⟩
    obtain ⟨a, ha, hfile, -⟩ := r.idOf_eq_some.mp hid
    obtain ⟨i, hi, rfl⟩ := r.mem_artifacts.mp ha
    obtain ⟨i', hi', halong⟩ := exists_of_forall₂ hmodules hi
    obtain ⟨-, -, -, hfiles, -⟩ := h.again hi hi' halong
    exact ⟨_, r'.idOf_eq_some.mpr ⟨r'.made i', r'.mem_artifacts.mpr ⟨i', hi', rfl⟩, hfiles ▸ hfile, rfl⟩⟩
  · rintro ⟨id, hid⟩
    obtain ⟨a', ha', hfile, -⟩ := r'.idOf_eq_some.mp hid
    obtain ⟨i', hi', rfl⟩ := r'.mem_artifacts.mp ha'
    obtain ⟨i, hi, halong⟩ := exists_of_forall₂ hmodules.flip hi'
    obtain ⟨-, -, -, hfiles, -⟩ := h.again hi hi' halong
    exact ⟨_, r.idOf_eq_some.mpr ⟨r.made i, r.mem_artifacts.mpr ⟨i, hi, rfl⟩, hfiles ▸ hfile, rfl⟩⟩

/-- A file that an artifact requires has had another id if and only if it is found under different ids. -/
theorem renumbered_iff (h : Successive r r') (hkeeps : r.output.KeepsPaths r'.output) {a' : Artifact} :
    r.output.Renumbered r'.output a' ↔ ¬∀ p ∈ a'.record.dependencyPaths.values, r.idOf p = r'.idOf p := by
  constructor
  · rintro ⟨p, hp, b, hb, b', hb', hfile, hfile', hne⟩ hall
    have hid : r.idOf p = some b.record.id := r.idOf_eq_some.mpr ⟨b, hb, hfile, rfl⟩
    have hid' : r'.idOf p = some b'.record.id := r'.idOf_eq_some.mpr ⟨b', hb', hfile', rfl⟩
    rw [hall p hp, hid'] at hid
    exact hne (Option.some.inj hid).symm
  · intro hnot
    simp only [not_forall] at hnot
    obtain ⟨p, hp, hne⟩ := hnot
    have hsome := h.isSome_idOf hkeeps p
    cases hid : r.idOf p with
    | none =>
      rw [hid] at hsome hne
      exact absurd (Option.not_isSome_iff_eq_none.mp (by simp [← hsome])).symm hne
    | some id =>
      rw [hid] at hsome hne
      obtain ⟨id', hid'⟩ := Option.isSome_iff_exists.mp hsome.symm
      rw [hid'] at hne
      obtain ⟨b, hb, hfile, rfl⟩ := r.idOf_eq_some.mp hid
      obtain ⟨b', hb', hfile', rfl⟩ := r'.idOf_eq_some.mp hid'
      exact ⟨p, hp, b, hb, b', hb', hfile, hfile', fun heq => hne (congrArg some heq)⟩

theorem edited_iff (h : Successive r r') {i i' : Nat} (hi : i ∈ modulesOf r.parts) (hi' : i' ∈ modulesOf r'.parts)
    (halong : r.graph.Alongside r'.graph i i') :
    r.output.Edited (r'.made i') ↔ (r.made i).record.hash ≠ (r'.made i').record.hash := by
  obtain ⟨-, -, -, hfiles, -⟩ := h.again hi hi' halong
  have hmem : r.made i ∈ r.output.artifacts := r.mem_artifacts.mpr ⟨i, hi, rfl⟩
  constructor
  · rintro ⟨a, ha, hfile, hne⟩
    rw [← r.unique hmem ha (hfile.trans hfiles.symm)]
    exact hne
  · intro hne
    exact ⟨r.made i, hmem, hfiles, hne⟩

/-- A module is compiled again if and only if its text has changed, or it requires a file that had another id. -/
theorem compiled_again_iff (h : Successive r r') (hkeeps : r.output.KeepsPaths r'.output) {i i' : Nat}
    (hi : i ∈ modulesOf r.parts) (hi' : i' ∈ modulesOf r'.parts) (halong : r.graph.Alongside r'.graph i i') :
    (r'.made i').record.file ∈ l'.compiled t' ↔
      r.output.Edited (r'.made i') ∨ r.output.Renumbered r'.output (r'.made i') := by
  rw [h.edited_iff hi hi' halong, h.renumbered_iff hkeeps]
  obtain ⟨m', hm', hcached, -, ⟨hchanged, hedited⟩ | ⟨hchanged, hsame, hpaths⟩⟩ := h.again hi hi' halong
  · rw [r'.mem_compiled_iff hi' hm']
    constructor
    · intro _
      exact Or.inl hedited
    · intro _ hreason
      rw [(exists_of_reasonFor hreason).1] at hchanged
      cases hchanged
  · -- the ids of a module that is recalled are compared with those with which it was compiled
    have hids : (r.made i).record.dependencyMap = (r'.made i').record.dependencyMap ↔
        ∀ p ∈ (r'.made i').record.dependencyPaths.values, r.idOf p = r'.idOf p := by
      rw [r.dependencyMap_eq hi, r'.dependencyMap_eq hi', hpaths]
      exact Table.filterMap_eq_iff fun p _ => h.isSome_idOf hkeeps p
    rw [r'.mem_compiled_iff hi' hm', ← hids]
    constructor
    · intro hreason
      exact Or.inr fun heq => hreason (reasonFor_eq_none hchanged hcached heq)
    · rintro (hedited | hne) hreason
      · exact hedited hsame
      · obtain ⟨-, a, ha, heq⟩ := exists_of_reasonFor hreason
        cases hcached.symm.trans ha
        exact hne heq

/-- A file has the same id in both links if no text of a sparse bundle has changed. -/
theorem not_renumbered (h : Successive r r') (hkeeps : r.output.KeepsPaths r'.output)
    (hsparse : ∀ p ∈ r.parts, p.assembly = .sparse → ∀ a' ∈ r'.output.artifacts, ¬r.output.Edited a')
    (a' : Artifact) : ¬r.output.Renumbered r'.output a' := by
  have hparts := h.alongside_parts hkeeps
  have hmodules := forall₂_modulesOf hparts
  have hparts' : partition r'.graph l.config.plugin l.entries = .ok r'.parts := by
    rw [← h.config, ← h.entries]
    exact r'.linked.partitioned
  have hunique := biUnique_alongside r.discovered.distinct r'.discovered.distinct
  -- the keys are made of the same digests
  have hhash : ∀ p ∈ r.parts, p.assembly = .sparse → ∀ {i i'}, r.graph.Alongside r'.graph i i' → i ∈ p.modules →
      r.graph.hashAt i = r'.graph.hashAt i' := by
    intro p hp hassembly i i' halong hmem
    have hi : i ∈ modulesOf r.parts := mem_modulesOf.mpr ⟨p, hp, hmem⟩
    obtain ⟨j, hj, halong'⟩ := exists_of_forall₂ hmodules hi
    cases hunique.2 halong' halong
    have hsame : (r.made i).record.hash = (r'.made i').record.hash := by
      by_contra hne
      exact hsparse p hp hassembly _ (r'.mem_artifacts.mpr ⟨i', hj, rfl⟩) ((h.edited_iff hi hj halong).mpr hne)
    obtain ⟨m, -, hm, -, -, -, -, -, hdigest, -⟩ := r.job_at hi
    obtain ⟨m', -, hm', -, -, -, -, -, hdigest', -⟩ := r'.job_at hj
    unfold ModuleGraph.hashAt
    rw [hm, hm', Option.elim_some, Option.elim_some, ← hdigest, ← hdigest', hsame]
  rintro ⟨p, -, b, hb, b', hb', hfile, hfile', hne⟩
  obtain ⟨i, hi, rfl⟩ := r.mem_artifacts.mp hb
  obtain ⟨i', hi', rfl⟩ := r'.mem_artifacts.mp hb'
  obtain ⟨m, hm, hid, hown, -⟩ := r.linked.record hi
  obtain ⟨m', hm', hid', hown', -⟩ := r'.linked.record hi'
  have halong : r.graph.Alongside r'.graph i i' := by
    rw [hown] at hfile
    rw [hown'] at hfile'
    exact ⟨m, m', hm, hm', hfile.trans hfile'.symm⟩
  have hsame := get?_assignIds_alongside r.discovered.distinct r'.discovered.distinct hparts' hparts hhash halong hi
  rw [hid, hid'] at hsame
  exact hne (Option.some.inj hsame)

/-- The code of a module that is not compiled is that of its earlier artifact. -/
theorem code_of_not_compiled (h : Successive r r') {i i' : Nat} (hi : i ∈ modulesOf r.parts)
    (hi' : i' ∈ modulesOf r'.parts) (halong : r.graph.Alongside r'.graph i i')
    (hnot : (r'.made i').record.file ∉ l'.compiled t') : (r'.made i').code = (r.made i).code := by
  obtain ⟨m', hm', hcached, -⟩ := h.again hi hi' halong
  rw [r'.mem_compiled_iff hi' hm', not_not] at hnot
  obtain ⟨n', job, hn', -, hmodule, hreason, hmade, -⟩ := r'.job_at hi'
  rw [hm'] at hn'
  cases hn'
  have hcode := hmade.2
  unfold codeFor cachedCode at hcode
  rw [hreason, hnot] at hcode
  simp only [hmodule, hcached] at hcode
  exact (Except.ok.inj hcode).symm

end Successive

end Linker

/-- Two bundles have artifacts of the same files, in the same order. -/
def Bundle.Alongside (b b' : Bundle) : Prop :=
  List.Forall₂ (fun a a' => a.record.file.components = a'.record.file.components) b.artifacts b'.artifacts

namespace Linker

variable {l l' : Linker} {t t' : FileTree}

theorem Successive.alongside_bundles {r : Finished l t} {r' : Finished l' t'} (h : Successive r r')
    (hkeeps : r.output.KeepsPaths r'.output) :
    List.Forall₂ Bundle.Alongside r.output.bundles r'.output.bundles := by
  -- the artifacts of a bundle are those of its modules
  have hbundle : ∀ {p p' b b'}, p ∈ r.parts → p' ∈ r'.parts → Partition.Alongside r.graph r'.graph p p' →
      BundleFits l r.parts r.made p b → BundleFits l' r'.parts r'.made p' b' → b.Alongside b' := by
    intro p p' b b' hp hp' halong hb hb'
    have hfiles : ∀ {is is'}, List.Forall₂ (r.graph.Alongside r'.graph) is is' → (∀ i ∈ is, i ∈ modulesOf r.parts) →
        (∀ i ∈ is', i ∈ modulesOf r'.parts) →
        List.Forall₂ (fun a a' => a.record.file.components = a'.record.file.components) (is.map r.made)
          (is'.map r'.made) := by
      intro is is' his
      induction his with
      | nil =>
        intro _ _
        exact List.Forall₂.nil
      | cons hi _ ih =>
        intro hmem hmem'
        obtain ⟨-, -, -, hfile, -⟩ := h.again (hmem _ List.mem_cons_self) (hmem' _ List.mem_cons_self) hi
        constructor
        · exact hfile
        · apply ih
          · exact fun j hj => hmem j (List.mem_cons_of_mem _ hj)
          · exact fun j hj => hmem' j (List.mem_cons_of_mem _ hj)
    unfold Bundle.Alongside
    rw [hb.bundle, hb'.bundle]
    apply hfiles halong.modules
    · exact fun i hi => mem_modulesOf.mpr ⟨p, hp, hi⟩
    · exact fun i hi => mem_modulesOf.mpr ⟨p', hp', hi⟩
  have hall : ∀ {ps ps' bs bs'}, List.Forall₂ (Partition.Alongside r.graph r'.graph) ps ps' →
      List.Forall₂ (BundleFits l r.parts r.made) ps bs → List.Forall₂ (BundleFits l' r'.parts r'.made) ps' bs' →
      (∀ p ∈ ps, p ∈ r.parts) → (∀ p ∈ ps', p ∈ r'.parts) → List.Forall₂ Bundle.Alongside bs bs' := by
    intro ps ps' bs bs' hps
    induction hps generalizing bs bs' with
    | nil =>
      intro hbs hbs' _ _
      cases hbs
      cases hbs'
      exact List.Forall₂.nil
    | cons hp _ ih =>
      intro hbs hbs' hmem hmem'
      cases hbs with
      | cons hb hbs =>
        cases hbs' with
        | cons hb' hbs' =>
          constructor
          · exact hbundle (hmem _ List.mem_cons_self) (hmem' _ List.mem_cons_self) hp hb hb'
          · apply ih hbs hbs'
            · exact fun q hq => hmem q (List.mem_cons_of_mem _ hq)
            · exact fun q hq => hmem' q (List.mem_cons_of_mem _ hq)
  exact hall (h.alongside_parts hkeeps) r.linked.bundles r'.linked.bundles (fun _ hp => hp) fun _ hp => hp

end Linker

/-! ## What is needed -/

/-- What a link gives that follows another one: the bundles have artifacts of the same files. Only those are
compiled whose text has changed, or that require a file with another id; the code of the others is that of the
other link. In a single dense bundle only the changed ones are compiled, and without changes none is. -/
structure LinkOutput.CompilesOnlyNeeded (output : LinkOutput) (l' : Linker) (t' : FileTree) (output' : LinkOutput) :
    Prop where
  bundles : List.Forall₂ Bundle.Alongside output.bundles output'.bundles
  only : (l'.compiled t').Sublist (output'.artifacts.map fun a' => a'.record.file)
  needed : ∀ a' ∈ output'.artifacts,
    a'.record.file ∈ l'.compiled t' ↔ output.Edited a' ∨ output.Renumbered output' a'
  reused : ∀ a' ∈ output'.artifacts, a'.record.file ∉ l'.compiled t' →
    ∃ a ∈ output.artifacts, a.record.file.components = a'.record.file.components ∧ a'.code = a.code
  transformed : output'.transformed = (l'.compiled t').length
  total : output'.transformed + output'.reused = output'.artifacts.length
  dense : ∀ b, output.bundles = [b] → b.assembly = .dense →
    ∀ a' ∈ output'.artifacts, a'.record.file ∈ l'.compiled t' ↔ output.Edited a'
  unedited : (∀ a' ∈ output'.artifacts, ¬output.Edited a') → l'.compiled t' = []

namespace Linker

variable {l : Linker} {t t' : FileTree}

/-- After a link, the next one compiles the modules whose text has changed and those that require a file with
another id, and no others, if the specifiers in the changed texts stand for the same files as before. -/
theorem compiles_only_needed {output output' : LinkOutput} (hlink : (l.link t).1 = .ok output)
    (hlink' : ((l.link t).2.1.link t').1 = .ok output') (hkeeps : output.KeepsPaths output') :
    output.CompilesOnlyNeeded (l.link t).2.1 t' output' := by
  obtain ⟨htransformed, htotal⟩ := counts_of_link hlink'
  obtain ⟨r, r', rfl, rfl, h⟩ := exists_successive hlink hlink'
  have hmodules := forall₂_modulesOf (h.alongside_parts hkeeps)
  have hneeded : ∀ a' ∈ r'.output.artifacts, a'.record.file ∈ (l.link t).2.1.compiled t' ↔
      r.output.Edited a' ∨ r.output.Renumbered r'.output a' := by
    intro a' ha'
    obtain ⟨i', hi', rfl⟩ := r'.mem_artifacts.mp ha'
    obtain ⟨i, hi, halong⟩ := exists_of_forall₂ hmodules.flip hi'
    exact h.compiled_again_iff hkeeps hi hi' halong
  refine ⟨h.alongside_bundles hkeeps, r'.compiled_sublist, hneeded, ?_, htransformed, htotal, ?_, ?_⟩
  · intro a' ha' hnot
    obtain ⟨i', hi', rfl⟩ := r'.mem_artifacts.mp ha'
    obtain ⟨i, hi, halong⟩ := exists_of_forall₂ hmodules.flip hi'
    obtain ⟨-, -, -, hfile, -⟩ := h.again hi hi' halong
    exact ⟨r.made i, r.mem_artifacts.mpr ⟨i, hi, rfl⟩, hfile, h.code_of_not_compiled hi hi' halong hnot⟩
  · intro b hb hdense a' ha'
    -- there is no sparse bundle, so no id can have changed
    have hnone : ∀ p ∈ r.parts, p.assembly ≠ .sparse := by
      intro p hp hsparse
      obtain ⟨b', hb', hfits⟩ := exists_of_forall₂ r.linked.bundles hp
      rw [hb, List.mem_singleton] at hb'
      rw [← hb', hfits.bundle] at hdense
      cases hsparse.symm.trans hdense
    rw [hneeded a' ha']
    constructor
    · rintro (hedited | hrenumbered)
      · exact hedited
      · exact absurd hrenumbered
          (h.not_renumbered hkeeps (fun p hp hsparse => absurd hsparse (hnone p hp)) a')
    · intro hedited
      exact Or.inl hedited
  · intro hunedited
    apply List.eq_nil_iff_forall_not_mem.mpr
    intro file hfile
    obtain ⟨a', ha', rfl⟩ := List.mem_map.mp (r'.compiled_sublist.subset hfile)
    rcases (hneeded a' ha').mp hfile with hedited | hrenumbered
    · exact hunedited a' ha' hedited
    · exact h.not_renumbered hkeeps (fun _ _ _ => hunedited) a' hrenumbered

/-- A module that requires another one. -/
def pair : FileTree :=
  .ofTexts ["work"] [["work"]] [
    (["work", "main.js"], "require(\"./leaf\");\n"),
    (["work", "leaf.js"], "1;\n")]

/-- The same modules with another text of the second one. -/
def pairEdited : FileTree := pair.put ["work", "leaf.js"] (.file "2;\n".toUTF8)

/-- A configuration for one dense bundle. -/
def pairConfig : Config :=
  { Config.default with entries := [⟨"main.js"⟩], bases := [⟨"."⟩], minify := false }

/-- Two links between which a text changes: the second one compiles its module alone. -/
theorem compiles_only_needed_of_pair : ∃ (l : Linker) (output output' : LinkOutput),
    ofConfig pair pairConfig Minifier.unchanged (fun _ => false) = .ok l ∧
      (l.link pair).1 = .ok output ∧ ((l.link pair).2.1.link pairEdited).1 = .ok output' ∧
      output.KeepsPaths output' ∧ output.CompilesOnlyNeeded (l.link pair).2.1 pairEdited output' ∧
      output'.transformed = 1 ∧ output'.reused = 1 := by
  have hcheck : ((ofConfig pair pairConfig Minifier.unchanged fun _ => false).toOption.any fun l =>
      (l.link pair).1.toOption.any fun output =>
        ((l.link pair).2.1.link pairEdited).1.toOption.any fun output' =>
          (output.artifacts.all fun a => output'.artifacts.all fun a' =>
            a.record.file.components != a'.record.file.components ||
              a.record.dependencyPaths == a'.record.dependencyPaths) &&
          output'.transformed == 1 && output'.reused == 1) = true := by
    decide +kernel
  obtain ⟨l, hl, hcheck⟩ := exists_of_any hcheck
  obtain ⟨output, hlink, hcheck⟩ := exists_of_any hcheck
  obtain ⟨output', hlink', hcheck⟩ := exists_of_any hcheck
  simp only [Bool.and_eq_true, beq_iff_eq, List.all_eq_true, Bool.or_eq_true, bne_iff_ne] at hcheck
  obtain ⟨⟨hpaths, htransformed⟩, hreused⟩ := hcheck
  have hkeeps : output.KeepsPaths output' := by
    intro a ha a' ha' hfile _
    rcases hpaths a ha a' ha' with hne | heq
    · exact absurd hfile hne
    · rw [heq]
      exact SamePaths.refl _
  exact ⟨l, output, output', hl, hlink, hlink', hkeeps, compiles_only_needed hlink hlink' hkeeps, htransformed,
    hreused⟩

end Linker

end Relink
