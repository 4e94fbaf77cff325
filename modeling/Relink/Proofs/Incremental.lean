import Relink.Proofs.Alike
import Relink.Proofs.Failures
import Relink.Proofs.Plain
import Relink.Proofs.Reuse

/-!
# Incremental linking

As long as only contents of files change, a link gives the same with the cache as without it, if the files are
spelled as they were in the links before.

* `UpToDate` — what an analysis and a compilation would give now is what an artifact has.
* `Matches` — a module as it is found with the cache, and as it is found without it.
* `failures_resume` — the modules that cannot be compiled are the same with the cache and without it.
* `link_eq_cold` — what a link with the cache can give is what a link without it can give.
-/

namespace Relink

open Linking

/-- What a link gives, without how much of it is new. -/
def LinkOutput.result (output : LinkOutput) : Bool × List Bundle := (output.status, output.bundles)

/-! ## Modules -/

/-- Modules that only differ in whether they have changed and have been read. -/
structure Module.Agrees (m m' : Module) : Prop extends Module.Resembles m m' where
  dependencyPaths : m.dependencyPaths = m'.dependencyPaths
  dependencies : m.dependencies = m'.dependencies
  externals : m.externals = m'.externals
  shims : m.shims = m'.shims

theorem Module.Agrees.refl (m : Module) : m.Agrees m := ⟨Module.Resembles.refl m, rfl, rfl, rfl, rfl⟩

theorem Module.Agrees.plain_eq {m m' : Module} (h : m.Agrees m') : m.plain = m'.plain := by
  unfold Module.plain
  rw [h.file, h.base, h.basePath, h.canonical, h.hash, h.kind, h.source, h.dependencyPaths, h.dependencies,
    h.externals, h.shims]

namespace Linker

/-- If the content of its file is that with which an artifact was made, the artifact has what is made of the
file now. -/
def UpToDate (l : Linker) (t : FileTree) (file : Path) (a : Artifact) : Prop :=
  ∀ m, ((l.discovery t).opened file).outcome = .ok m → m.hash = a.record.hash →
    l.PathsOf t file a ∧ l.CodeOf t file a

/-- A module as it is found with a cache, and as it is found without it: the code in the cache is the code of
the module. -/
structure Matches (l : Linker) (cache : Cache) (m m' : Module) : Prop extends Module.Agrees m m' where
  code : m.changed = false → ∀ a, cache.get? m.file = some a →
    compile l.minifier l.config.settings m' a.record.dependencyMap = .ok a.code

variable {l : Linker} {cache : Cache} {manifests : Table Path Manifest} {t : FileTree}

theorem Matches.with_dependencies {m m' : Module} (h : l.Matches cache m m') {d d' : Table String Nat}
    (hd : d = d') : l.Matches cache { m with dependencies := d } { m' with dependencies := d' } where
  toResembles := ((resembles_with_dependencies m d).trans h.toResembles).trans (resembles_with_dependencies m' d').symm
  dependencyPaths := h.dependencyPaths
  dependencies := hd
  externals := h.externals
  shims := h.shims
  code := by
    intro hchanged a ha
    rw [compile_congr (resembles_with_dependencies m' d').toTwin]
    exact h.code hchanged a ha

/-- A file is found alike with the cache and without it, if what is in the cache is up to date. -/
theorem alike_module (hcold : l.cache.artifacts = Table.empty) {file : Path}
    (h : ∀ a, cache.get? file = some a → l.UpToDate t file a) :
    Alike t (l.Matches cache) (((l.resume cache manifests).discovery t).module file)
      ((l.discovery t).module file) := by
  have hopened : Steady (fun _ => True) t True ((l.discovery t).opened file) :=
    (Discovery.steady_opened (d := l.discovery t) file).mono fun _ _ _ => trivial
  have hanalysed : ∀ m, Steady (fun _ => True) t True ((l.discovery t).analysed m) :=
    fun m => (Discovery.steady_analysed (d := l.discovery t) m).mono fun _ _ => trivial
  have hnone : (l.discovery t).cache.get? file = none := by
    show l.cache.artifacts.get? file = none
    rw [hcold]
    simp
  unfold Discovery.module
  rw [hnone]
  refine hopened.alike_self.bind ?_
  rintro m _ ⟨rfl, hm⟩
  have hfresh : Discovery.Fresh file m :=
    (@Discovery.meets_opened (l.discovery t) (fun _ => True) file).outcome m hm
  have hresembles := (@Discovery.meets_analysed_resembles (l.discovery t) (fun _ => True) file m hfresh).outcome
  have hwarm : ((l.resume cache manifests).discovery t).cache.get? file = cache.get? file := rfl
  simp only [hwarm, Option.filter_none]
  cases hfilter : (cache.get? file).filter fun a => a.record.hash == m.hash with
  | none =>
    -- the module is analysed with the cache as without it
    refine (hanalysed m).alike_self.mono ?_
    rintro m' _ ⟨rfl, hm'⟩
    rcases hresembles m' hm' with ⟨-, hchanged, -⟩
    refine ⟨Module.Agrees.refl m', ?_⟩
    intro hnot
    rw [hchanged] at hnot
    cases hnot
  | some a =>
    -- the module is recalled, and what is recalled is what an analysis finds
    rcases Option.filter_eq_some_iff.mp hfilter with ⟨ha, hhash⟩
    have hhash : m.hash = a.record.hash := (beq_iff_eq.mp hhash).symm
    rcases h a ha m hm hhash with ⟨⟨m₁, m', hm₁, -, hm', hpaths, hexternals, hshims⟩, m₂, hm₂, -, hcode⟩
    cases hm.symm.trans hm₁
    cases hm.symm.trans hm₂
    rcases hresembles m' hm' with ⟨hsame, -, hdependencies⟩
    refine (Steady.pure _).alike (hanalysed m) ?_
    rw [hm']
    refine Agree.ok ⟨⟨(resembles_recalled m a.record).trans hsame.symm, hpaths.symm, hdependencies.symm,
      hexternals.symm, hshims.symm⟩, ?_⟩
    intro _ a' ha'
    have hfile : (Discovery.Module.recalled m a.record).file = file := hfresh.file
    rw [hfile] at ha'
    cases ha.symm.trans ha'
    rw [compile_congr hsame.toTwin]
    exact hcode

/-! ## Graphs -/

theorem plain_eq {g g' : ModuleGraph} (h : List.Forall₂ (l.Matches cache) g.modules g'.modules) :
    g.plain = g'.plain := by
  have hmodules : ∀ {ms ms' : List Module}, List.Forall₂ (l.Matches cache) ms ms' →
      ms.map Module.plain = ms'.map Module.plain := by
    intro ms ms' h
    induction h with
    | nil => rfl
    | cons hm _ ih => rw [List.map_cons, List.map_cons, hm.plain_eq, ih]
  exact congrArg ModuleGraph.mk (hmodules h)

end Linker

/-- The files that a search takes up when nothing is remembered. -/
def ModuleGraph.taken (d : Discovery) : (room : Nat) → ModuleGraph → List Path → List Path
  | 0, _, _ => []
  | room + 1, g, pending =>
    match upcoming d g pending with
    | [] => []
    | file :: others =>
      file :: match (d.module file).outcome with
        | .ok m => taken d room ⟨g.modules ++ [m]⟩ ((m.dependencyPaths.values.filter fun p => !g.contains p) ++ others)
        | .error _ => []

namespace Linker

variable {l : Linker} {cache : Cache} {manifests : Table Path Manifest} {t : FileTree}

/-- The files that a link takes up. -/
def taken (l : Linker) (t : FileTree) : List Path :=
  ModuleGraph.taken (l.discovery t) (ModuleGraph.limit (l.discovery t)) .empty l.entries

open ModuleGraph

/-- A search is alike with the cache and without it. -/
theorem alike_discover (hcold : l.cache.artifacts = Table.empty) (room : Nat) {g g' : ModuleGraph}
    {pending : List Path} (hg : List.Forall₂ (l.Matches cache) g.modules g'.modules)
    (h : ∀ file ∈ ModuleGraph.taken (l.discovery t) room g' pending, ∀ a, cache.get? file = some a → l.UpToDate t file a) :
    Alike t (fun g g' => List.Forall₂ (l.Matches cache) g.modules g'.modules)
      (discover ((l.resume cache manifests).discovery t) room g pending)
      (discover (l.discovery t) room g' pending) := by
  have hupcoming : ∀ {g g' : ModuleGraph}, g.contains = g'.contains → ∀ pending,
      upcoming ((l.resume cache manifests).discovery t) g pending = upcoming (l.discovery t) g' pending := by
    intro g g' hcontains pending
    unfold upcoming
    rw [hcontains]
    rfl
  induction room generalizing g g' pending with
  | zero =>
    have hcontains : g.contains = g'.contains := by rw [← contains_plain, plain_eq hg, contains_plain]
    unfold discover
    rw [hupcoming hcontains]
    split
    · exact Alike.pure hg
    · exact (Steady.fail _).alike (Steady.fail _) (Agree.error _)
  | succ room ih =>
    have hcontains : g.contains = g'.contains := by rw [← contains_plain, plain_eq hg, contains_plain]
    unfold discover
    rw [hupcoming hcontains]
    unfold ModuleGraph.taken at h
    cases hnext : upcoming (l.discovery t) g' pending with
    | nil => exact Alike.pure hg
    | cons file others =>
      rw [hnext] at h
      simp only at h
      have hmodule : Steady (fun _ => True) t True ((l.discovery t).module file) :=
        (Discovery.steady_module (d := l.discovery t) file).mono fun _ _ => trivial
      -- what is still to be taken up is told by the module as it is found without the cache
      refine ((alike_module hcold (h file List.mem_cons_self)).with_outcome hmodule).bind ?_
      rintro m m' ⟨hm, hm'⟩
      rw [hm'] at h
      simp only [hm.dependencyPaths, hcontains]
      refine ih (List.rel_append hg (List.Forall₂.cons hm List.Forall₂.nil)) ?_
      intro p hp
      exact h p (List.mem_cons_of_mem _ hp)

/-- What a module depends on is found alike. -/
theorem forall₂_wire {g g' : ModuleGraph} (h : List.Forall₂ (l.Matches cache) g.modules g'.modules) :
    List.Forall₂ (l.Matches cache) g.wire.modules g'.wire.modules := by
  have hlookup : g.lookup = g'.lookup := by rw [← lookup_plain, plain_eq h, lookup_plain]
  unfold wire
  rw [List.forall₂_map_left_iff, List.forall₂_map_right_iff]
  refine h.imp ?_
  intro m m' hm
  exact hm.with_dependencies (by rw [hm.dependencyPaths, hlookup])

/-- The graph of a link is alike with the cache and without it. -/
theorem alike_graph (hcold : l.cache.artifacts = Table.empty)
    (h : ∀ file ∈ l.taken t, ∀ a, cache.get? file = some a → l.UpToDate t file a) :
    Alike t (fun g g' => List.Forall₂ (l.Matches cache) g.modules g'.modules)
      ((l.resume cache manifests).graph t) (l.graph t) := by
  unfold graph
  refine (Alike.forM_say _ _).bind ?_
  intro _ _ _
  unfold build
  have hempty : List.Forall₂ (l.Matches cache) ModuleGraph.empty.modules ModuleGraph.empty.modules :=
    List.Forall₂.nil
  refine (alike_discover hcold (limit (l.discovery t)) hempty h).bind ?_
  intro g g' hg
  exact Alike.pure (forall₂_wire hg)

theorem partition_congr {g g' : ModuleGraph} (h : List.Forall₂ (l.Matches cache) g.modules g'.modules) :
    partition g l.config.plugin l.entries = partition g' l.config.plugin l.entries := by
  rw [← partition_plain, plain_eq h, partition_plain]

/-! ## Jobs -/

/-- What is to be done for a module with a cache, and without it: what is taken from the cache is what would be
compiled. -/
structure JobsMatch (l : Linker) (cache : Cache) (j j' : Job) : Prop where
  place : j.place = j'.place
  module : l.Matches cache j.module j'.module
  id : j.id = j'.id
  ids : j.ids = j'.ids
  cold : j'.reason ≠ none
  reused : j.reason = none → ∃ a, cache.get? j.module.file = some a ∧
    compile l.minifier l.config.settings j'.module j'.ids = .ok a.code

/-- Without an artifact in the cache, a module is compiled. -/
theorem reasonFor_ne_none {m : Module} {ids : Table String ModuleId} (h : cache.get? m.file = none) :
    reasonFor cache m ids ≠ none := by
  unfold reasonFor
  rw [h]
  split <;> simp

theorem rel_getElem? {α β : Type} {R : α → β → Prop} {as : List α} {bs : List β} (h : List.Forall₂ R as bs)
    (i : Nat) : Option.Rel R as[i]? bs[i]? := by
  induction h generalizing i with
  | nil => exact Option.Rel.none
  | cons hab _ ih =>
    cases i with
    | zero => exact Option.Rel.some hab
    | succ i => exact ih i

theorem rel_plan (hcold : l.cache.artifacts = Table.empty) {g g' : ModuleGraph}
    (hg : List.Forall₂ (l.Matches cache) g.modules g'.modules) (ids : Table Nat ModuleId) (i : Nat) :
    Option.Rel (l.JobsMatch cache) (plan cache g ids i) (plan l.cache g' ids i) := by
  unfold plan
  have hmodules := rel_getElem? hg i
  cases hm : g.modules[i]? with
  | none =>
    rw [hm] at hmodules
    cases hm' : g'.modules[i]? with
    | none => exact Option.Rel.none
    | some m' =>
      rw [hm'] at hmodules
      cases hmodules
  | some m =>
    rw [hm] at hmodules
    cases hm' : g'.modules[i]? with
    | none =>
      rw [hm'] at hmodules
      cases hmodules
    | some m' =>
      rw [hm'] at hmodules
      cases hmodules with
      | some hmatch =>
        simp only [Option.map_some]
        rw [hmatch.dependencies]
        refine Option.Rel.some ⟨rfl, hmatch, rfl, rfl, ?_, ?_⟩
        · refine reasonFor_ne_none ?_
          show l.cache.artifacts.get? _ = none
          rw [hcold]
          simp
        · intro hreason
          rcases exists_of_reasonFor hreason with ⟨hchanged, a, ha, hids⟩
          refine ⟨a, ha, ?_⟩
          rw [← hids]
          exact hmatch.code hchanged a ha

/-- What is to be done is the same with the cache and without it, up to where the code is from. -/
theorem forall₂_jobs (hcold : l.cache.artifacts = Table.empty) {g g' : ModuleGraph}
    (hg : List.Forall₂ (l.Matches cache) g.modules g'.modules) (parts : List Partition) :
    List.Forall₂ (l.JobsMatch cache) ((l.resume cache manifests).jobs g parts) (l.jobs g' parts) := by
  have hids : assignIds g parts = assignIds g' parts := by
    rw [← assignIds_plain, plain_eq hg, assignIds_plain]
  unfold jobs
  rw [hids]
  refine List.rel_filterMap (R := Eq) ?_ (List.forall₂_refl _)
  rintro i _ rfl
  exact rel_plan hcold hg (assignIds g' parts) i

theorem outcome_artifactOf (job : Job) (code : Option ModuleCode) : (l.artifactOf job code).outcome =
    (code.elim (l.cachedCode job.module.file) .ok).bind fun code =>
      (recordOf job).map fun record => (job.place, ⟨record, code⟩) := by
  unfold artifactOf reusedCode outcome
  cases code with
  | none =>
    simp only [Option.elim_none, runIn_bind, runIn_say, runIn_lift]
    cases l.cachedCode job.module.file with
    | error e => rfl
    | ok code => cases recordOf job <;> rfl
  | some code =>
    simp only [Option.elim_some, runIn_bind, runIn_pure, runIn_lift]
    cases recordOf job <;> rfl

/-- What is compiled without the cache is compiled with it, or it is in the cache. -/
def CodesMatch (warm : Linker) (j : Job) (c c' : Option ModuleCode) : Prop :=
  ∃ code, c' = some code ∧ (c = some code ∨ c = none ∧ warm.cachedCode j.module.file = .ok code)

theorem alike_codeOf {j j' : Job} (h : l.JobsMatch cache j j') :
    Alike t ((l.resume cache manifests).CodesMatch j) ((l.resume cache manifests).codeOf j) (l.codeOf j') := by
  refine (steady_codeOf j).alike (steady_codeOf j') ?_
  unfold outcome
  rw [runIn_codeOf, runIn_codeOf]
  cases hcold : j'.reason with
  | none => exact absurd hcold h.cold
  | some reason' =>
    cases hreason : j.reason with
    | none =>
      rcases h.reused hreason with ⟨a, ha, hcode⟩
      -- nothing is compiled with the cache, and the same code is compiled without it
      simp only [hcode]
      refine Agree.ok ⟨a.code, rfl, Or.inr ⟨rfl, ?_⟩⟩
      have hcached : (l.resume cache manifests).cache.get? j.module.file = some a := ha
      unfold cachedCode
      rw [hcached]
    | some reason =>
      have hcompile : compile l.minifier l.config.settings j.module j.ids =
          compile l.minifier l.config.settings j'.module j'.ids := by
        rw [compile_congr h.module.toTwin, h.ids]
      show Agree _ ((compile l.minifier l.config.settings j.module j.ids).map some) _
      rw [hcompile]
      cases compile l.minifier l.config.settings j'.module j'.ids with
      | error e => exact Agree.error e
      | ok code => exact Agree.ok ⟨code, rfl, Or.inl rfl⟩

theorem recordOf_congr {j j' : Job} (h : l.JobsMatch cache j j') : recordOf j = recordOf j' := by
  have hm := h.module
  unfold recordOf
  simp only [h.id, h.ids, hm.file, hm.base, hm.basePath, hm.canonical, hm.hash, hm.kind, hm.dependencyPaths,
    hm.externals, hm.shims]

theorem alike_artifactOf {j j' : Job} {c c' : Option ModuleCode} (h : l.JobsMatch cache j j')
    (hc : (l.resume cache manifests).CodesMatch j c c') :
    Alike t Eq ((l.resume cache manifests).artifactOf j c) (l.artifactOf j' c') := by
  rcases hc with ⟨code, rfl, hc⟩
  have hcode : c.elim ((l.resume cache manifests).cachedCode j.module.file) .ok = .ok code := by
    rcases hc with rfl | ⟨rfl, hcached⟩
    · rfl
    · exact hcached
  refine (steady_artifactOf j c).alike (steady_artifactOf j' (some code)) ?_
  rw [outcome_artifactOf, outcome_artifactOf, hcode, recordOf_congr h, h.place]
  exact (Agree.refl _).mono fun a b hab => hab.1

/-- The artifacts of a link are alike with the cache and without it. -/
theorem alike_make {jobs jobs' : List Job} (h : List.Forall₂ (l.JobsMatch cache) jobs jobs') :
    Alike t (fun r r' => r.2 = r'.2) ((l.resume cache manifests).make jobs) (l.make jobs') := by
  unfold make
  refine (Alike.mapM (Q := fun j _ c c' => (l.resume cache manifests).CodesMatch j c c') h
    fun j j' hj => alike_codeOf hj).bind ?_
  rintro codes codes' ⟨-, -, hcodes⟩
  refine (Alike.mapM (Q := fun _ _ a a' => a = a') hcodes fun e e' he => alike_artifactOf he.1 he.2).bind ?_
  rintro made made' ⟨hlength, hlength', hmade⟩
  refine Alike.pure ?_
  have heq : made = made' := by
    rw [← List.map_snd_zip (Nat.le_of_eq hlength), ← List.map_snd_zip (Nat.le_of_eq hlength')]
    rw [← List.forall₂_eq_eq_eq, List.forall₂_map_left_iff, List.forall₂_map_right_iff]
    exact hmade.imp fun _ _ he => he.2
  rw [heq]

theorem outcome_statusOf (g : ModuleGraph) :
    (l.statusOf g).outcome = .ok (if l.config.detectCycles then g.cycles.isEmpty else true) := by
  obtain ⟨log, hlog⟩ := runIn_statusOf (l := l) g ⟨Table.empty, []⟩
  unfold outcome
  rw [hlog]

/-- A link gives the same with the cache as without it. -/
theorem alike_run (hcold : l.cache.artifacts = Table.empty)
    (h : ∀ file ∈ l.taken t, ∀ a, cache.get? file = some a → l.UpToDate t file a) :
    Alike t (fun r r' => r.1.result = r'.1.result) ((l.resume cache manifests).run t) (l.run t) := by
  unfold run
  refine (alike_graph hcold h).bind ?_
  intro g g' hg
  have hplain := plain_eq hg
  refine ((Steady.say _).alike (R := fun _ _ => True) (Steady.say _) (Agree.ok trivial)).bind ?_
  intro _ _ _
  refine ((steady_statusOf g).alike (R := Eq) (steady_statusOf g') ?_).bind ?_
  · rw [outcome_statusOf, outcome_statusOf, ← ModuleGraph.cycles_plain, hplain, ModuleGraph.cycles_plain]
    exact Agree.ok rfl
  rintro status _ rfl
  refine (Alike.lift (R := Eq) (partition_congr hg ▸ (Agree.refl _).mono fun _ _ h => h.1)).bind ?_
  rintro parts _ rfl
  refine (alike_make (forall₂_jobs hcold hg parts)).bind ?_
  rintro ⟨codes, table⟩ ⟨codes', _⟩ rfl
  have hbundles : Steady (fun _ => True) t True (parts.mapM (l.bundleOf table)) :=
    Steady.mapM fun p => steady_bundleOf table p
  refine hbundles.alike_self.bind ?_
  rintro bundles _ ⟨rfl, -⟩
  refine (Alike.forM_say _ _).bind ?_
  intro _ _ _
  exact Alike.pure rfl

/-- A module cannot be compiled with the cache if and only if it cannot be compiled without it. -/
theorem failureOf_congr {j j' : Job} (h : l.JobsMatch cache j j') :
    (l.resume cache manifests).failureOf j = l.failureOf j' := by
  have hfits : FitsAll default ⟨Table.empty, []⟩ := fits_empty _ default
  have halike : Alike default _ ((l.resume cache manifests).codeOf j) (l.codeOf j') := alike_codeOf h
  have hagree := (halike _ _ hfits hfits).1
  rw [failureOf_eq (s := ⟨Table.empty, []⟩), failureOf_eq (s := ⟨Table.empty, []⟩)]
  rcases hrun : ((l.resume cache manifests).codeOf j).runIn ⟨Table.empty, []⟩ with ⟨r, s⟩
  rcases hrun' : (l.codeOf j').runIn ⟨Table.empty, []⟩ with ⟨r', s'⟩
  rw [hrun, hrun'] at hagree
  cases hagree <;> rfl

/-- The modules that cannot be compiled are the same with the cache and without it. -/
theorem failures_resume (hcold : l.cache.artifacts = Table.empty)
    (h : ∀ file ∈ l.taken t, ∀ a, cache.get? file = some a → l.UpToDate t file a)
    (hfits : FitsAll t (l.resume cache manifests).session) (hfits' : FitsAll t l.session) :
    (l.resume cache manifests).failures t = l.failures t := by
  have halike : Alike t _ ((l.resume cache manifests).graph t) (l.graph t) := alike_graph hcold h
  have hagree := (halike _ _ hfits hfits').1
  unfold failures
  rcases hrun : ((l.resume cache manifests).graph t).runIn (l.resume cache manifests).session with ⟨r, s⟩
  rcases hrun' : (l.graph t).runIn l.session with ⟨r', s'⟩
  rw [hrun, hrun'] at hagree
  cases hagree with
  | error e => rfl
  | @ok g g' hg =>
    have hpartition : partition g (l.resume cache manifests).config.plugin (l.resume cache manifests).entries =
        partition g' l.config.plugin l.entries :=
      partition_congr (l := l) hg
    simp only [hpartition]
    cases partition g' l.config.plugin l.entries with
    | error e => rfl
    | ok parts =>
      have hjobs : List.Forall₂ (l.JobsMatch cache) ((l.resume cache manifests).jobs g parts) (l.jobs g' parts) :=
        forall₂_jobs hcold hg parts
      rw [← List.forall₂_eq_eq_eq]
      refine List.rel_filterMap (R := l.JobsMatch cache) ?_ hjobs
      intro j j' hj
      rw [failureOf_congr hj]
      cases l.failureOf j' with
      | none => exact Option.Rel.none
      | some e => exact Option.Rel.some rfl

theorem result_of_link :
    (l.link t).1.map LinkOutput.result = ((l.run t).runIn l.session).1.map fun r => r.1.result := by
  unfold link
  rcases (l.run t).runIn l.session with ⟨_ | ⟨output, kept⟩, s⟩ <;> rfl

/-- What a link can give is the same with the cache and without it, also if modules are compiled in parallel. -/
theorem results_resume (hcold : l.cache.artifacts = Table.empty)
    (h : ∀ file ∈ l.taken t, ∀ a, cache.get? file = some a → l.UpToDate t file a)
    (hfits : FitsAll t (l.resume cache manifests).session) (hfits' : FitsAll t l.session) :
    ((l.resume cache manifests).results t).map (Except.map LinkOutput.result) =
      (l.results t).map (Except.map LinkOutput.result) := by
  have hlink : ((l.resume cache manifests).link t).1.map LinkOutput.result = (l.link t).1.map LinkOutput.result := by
    have halike : Alike t _ ((l.resume cache manifests).run t) (l.run t) := alike_run hcold h
    rw [result_of_link, result_of_link]
    exact (halike _ _ hfits hfits').1.map_eq fun _ _ h => h
  have hconfig : (l.resume cache manifests).config = l.config := rfl
  unfold results
  rw [failures_resume hcold h hfits hfits', hconfig]
  split
  · rfl
  · rw [List.map_singleton, List.map_singleton, hlink]

/-- If two links can give the same, so do those that compile one module after the other. -/
theorem link_of_results {l' : Linker} (h : (l.results t).map (Except.map LinkOutput.result) =
    (l'.results t).map (Except.map LinkOutput.result)) :
    (l.link t).1.map LinkOutput.result = (l'.link t).1.map LinkOutput.result := by
  have hhead := congrArg List.head? h
  rw [List.head?_map, List.head?_map, head?_results, head?_results] at hhead
  exact Option.some.inj hhead

/-- An analysis finds the same in a tree in which only contents are others. -/
theorem analysed_of_rewrites {t' : FileTree} (h : FileTree.Rewrites t' t) (m : Module) :
    (l.discovery t).analysed m = (l.discovery t').analysed m := by
  have hrequire : (l.discovery t).require = (l.discovery t').require := by
    funext file r specifier
    have hresolve : (l.discovery t).resolver.resolve specifier file = (l.discovery t').resolver.resolve specifier file :=
      Resolver.resolve_of_rewrites (l.resolver t') h specifier file
    unfold Discovery.require
    rw [hresolve]
    rfl
  unfold Discovery.analysed
  rw [hrequire]

/-- The files and directories that a configuration names are there after a change of contents, and no more is
looked up for a new linker. -/
theorem ofConfig_of_rewrites {t t' : FileTree} (h : FileTree.Rewrites t t') {config : Config} {minifier : Minifier}
    {excluded : String → Bool} (hstart : ofConfig t config minifier excluded = .ok l) :
    ofConfig t' config minifier excluded = .ok l := by
  rcases ofConfig_eq_ok.mp hstart with ⟨hentries, hbases, hfiles, hdirectories, policy, hpolicy, hl⟩
  rw [ofConfig_eq_ok]
  refine ⟨hentries, hbases, ?_, ?_, policy, hpolicy, ?_⟩
  · intro p hp
    rw [h.absolute, h.isFile]
    exact hfiles p hp
  · intro p hp
    rw [h.absolute, h.isDirectory]
    exact hdirectories p hp
  · rw [hl]
    unfold fresh
    rw [h.absolute]

/-- Without a cache, the code of an artifact is what compiling its module gives, as the module is opened now. -/
theorem compile_of_cold {t : FileTree} (hcache : l.cache.artifacts = Table.empty) (hmanifests : l.manifests = Table.empty)
    {output : LinkOutput} (hlink : (l.link t).1 = .ok output) {a : Artifact} (ha : a ∈ output.artifacts) {m : Module}
    (hm : ((l.discovery t).opened a.record.file).outcome = .ok m) :
    compile l.minifier l.config.settings m a.record.dependencyMap = .ok a.code := by
  have hfits : Fits (fun _ => True) t l.manifests := by
    rw [hmanifests]
    exact fits_empty _ t
  rcases (artifacts_of_link hfits hlink).1 a ha with ⟨-, m', hsources⟩
  rw [hsources.opened fun _ _ => trivial] at hm
  cases hm
  cases hsources.code with
  | compiled hcompile _ => exact hcompile
  | reused hcached _ _ =>
    unfold Cache.get? at hcached
    rw [hcache] at hcached
    cases hcached

end Linker

/-! ## Histories -/

/-- A file is spelled as it was in the first of the last links in which it had a text, and in the first of
those in which it had this text under the same ids. -/
structure SpelledAsBefore (past : List PastLink) (file : Path) (a : Artifact) : Prop where
  text : ∀ first, (streak file a.sameText past).getLast? = some first → first.record.file = file
  code : ∀ first, (streak file a.sameCode past).getLast? = some first → first.record.file = file

namespace History

open Linker

variable {l₀ l : Linker} {t₀ t : FileTree} {past : List PastLink}

/-- What is in the cache is up to date, if the files are spelled as they were. -/
theorem upToDate (h : History FileTree.Rewrites l₀ t₀ past l t) (hcache : l₀.cache.artifacts = Table.empty)
    (hmanifests : l₀.manifests = Table.empty)
    (hseparates : Digest.Separates (l₀.config.textsIn (t :: treesOf past))) {file : Path} {a : Artifact}
    (hspelled : ∀ m, ((l₀.discovery t).opened file).outcome = .ok m → m.hash = a.record.hash →
      SpelledAsBefore past file a)
    (ha : l.cache.get? file = some a) : l₀.UpToDate t file a := by
  rcases (h.kept hcache hmanifests spares_of_rewrites).2 file a ha with ⟨hkey, hkept⟩
  obtain ⟨t', ht', first, hfirst, hpaths⟩ := hkept.paths fun _ => trivial
  obtain ⟨t'', ht'', first', hfirst', hcode⟩ := hkept.code fun _ _ => trivial
  rw [streak_congr hkey] at hfirst hfirst'
  have hrewrites := (h.related FileTree.Rewrites.refl fun h h' => h.trans h').2
  intro m hm hhash
  have hbefore := hspelled m hm hhash
  rw [hbefore.text first hfirst] at hpaths
  rw [hbefore.code first' hfirst'] at hcode
  -- the module that was opened in an earlier link is the one that is opened now
  have hopened : ∀ t' ∈ treesOf past, ∀ m', ((l₀.discovery t').opened file).outcome = .ok m' →
      m'.hash = a.record.hash → m' = m := by
    intro t' ht' m' hm' hhash'
    exact (opened_unique (fun d _ => ((hrewrites t' ht').fileAt?_child d).symm) hm hm' hseparates
      (mem_textsIn rfl List.mem_cons_self) (mem_textsIn rfl (List.mem_cons_of_mem _ ht'))
      (hhash.trans hhash'.symm)).symm
  constructor
  · rcases hpaths with ⟨m', m'', hm', hhash', hm'', hfound⟩
    cases hopened t' ht' m' hm' hhash'
    refine ⟨m, m'', hm, hhash, ?_, hfound⟩
    rw [analysed_of_rewrites (hrewrites t' ht')]
    exact hm''
  · rcases hcode with ⟨m', hm', hhash', hcompile⟩
    cases hopened t'' ht'' m' hm' hhash'
    exact ⟨m, hm, hhash, hcompile⟩

/-- If a link gives the same as a link of a new linker, the code of every artifact is what compiling its module
gives now. -/
theorem compile_of_sameAsCold (h : History FileTree.Rewrites l₀ t₀ past l t)
    (hcache : l₀.cache.artifacts = Table.empty) (hmanifests : l₀.manifests = Table.empty)
    (hsame : (l.link t).1.map LinkOutput.result = (l₀.link t).1.map LinkOutput.result) {output : LinkOutput}
    (hlink : (l.link t).1 = .ok output) {a : Artifact} (ha : a ∈ output.artifacts) {m : Module}
    (hm : ((l.discovery t).opened a.record.file).outcome = .ok m) :
    compile l.minifier l.config.settings m a.record.dependencyMap = .ok a.code := by
  rw [hlink] at hsame
  cases hcold : (l₀.link t).1 with
  | error e =>
    rw [hcold] at hsame
    cases hsame
  | ok output' =>
    rw [hcold] at hsame
    have hbundles : output.bundles = output'.bundles := congrArg Prod.snd (Except.ok.inj hsame)
    have ha' : a ∈ output'.artifacts := by
      unfold LinkOutput.artifacts
      rw [← hbundles]
      exact ha
    rcases h.setup with ⟨cache, manifests, rfl⟩
    exact compile_of_cold hcache hmanifests hcold ha' hm

/-- If a link gives the same as a link of a new linker, the code of every artifact begins with the name that
the file has now. -/
theorem named_alike (h : History FileTree.Rewrites l₀ t₀ past l t) {config : Config} (hconfig : l₀.config = config)
    (hcache : l₀.cache.artifacts = Table.empty) (hmanifests : l₀.manifests = Table.empty)
    (hseparates : Digest.Separates (config.textsIn (t :: treesOf past)))
    (hsame : (l.link t).1.map LinkOutput.result = (l₀.link t).1.map LinkOutput.result) {output : LinkOutput}
    (hlink : (l.link t).1 = .ok output) {a : Artifact} (ha : a ∈ output.artifacts) :
    ∃ first, (streak a.record.file a.sameCode ((t, .ok output) :: past)).getLast? = some first ∧
      ∃ m, l.MadeAs t first a m ∧ Step.headText (m.spelled first.record.file).basePath = Step.headText m.basePath := by
  obtain ⟨first, hfirst, m, hmade⟩ := h.exists_madeAs hconfig hcache hmanifests spares_of_rewrites hseparates hlink ha
    fun _ _ => trivial
  have hcompile := h.compile_of_sameAsCold hcache hmanifests hsame hlink ha hmade.opened
  exact ⟨first, hfirst, m, hmade, hmade.only_if_named_alike hcompile⟩

/-- After all changes of contents and all links, a link can give the same as a link of a new linker, if the
files that it takes up are spelled as they were when what is in the cache was made; and only if the code of every
artifact begins with the name that the file has now. If the modules are not compiled in parallel, a link can
give only one thing. -/
theorem link_eq_cold {config : Config} {minifier : Minifier} {excluded : String → Bool}
    (hstart : Linker.ofConfig t₀ config minifier excluded = .ok l₀)
    (h : History FileTree.Rewrites l₀ t₀ past l t)
    (hseparates : Digest.Separates (config.textsIn (t :: treesOf past))) :
    ∃ new, Linker.ofConfig t config minifier excluded = .ok new ∧
      ((∀ file ∈ new.taken t, ∀ a m, latest file past = some a → ((new.discovery t).opened file).outcome = .ok m →
          m.hash = a.record.hash → SpelledAsBefore past file a) →
        (l.results t).map (Except.map LinkOutput.result) = (new.results t).map (Except.map LinkOutput.result) ∧
        (config.parallel = false →
          (l.link t).1.map LinkOutput.result = (new.link t).1.map LinkOutput.result)) ∧
      ((l.results t).map (Except.map LinkOutput.result) = (new.results t).map (Except.map LinkOutput.result) →
        ∀ output, .ok output ∈ l.results t → ∀ a ∈ output.artifacts,
          ∃ first, (streak a.record.file a.sameCode ((t, .ok output) :: past)).getLast? = some first ∧
            ∃ m, l.MadeAs t first a m ∧
              Step.headText (m.spelled first.record.file).basePath = Step.headText m.basePath) := by
  rcases ofConfig_eq_ok.mp hstart with ⟨-, -, -, -, policy, -, hl₀⟩
  have hrewrites : FileTree.Rewrites t₀ t := (h.related FileTree.Rewrites.refl fun h h' => h.trans h').1
  have hcache : l₀.cache.artifacts = Table.empty := cache_of_ofConfig hstart
  have hmanifests : l₀.manifests = Table.empty := by
    rw [hl₀]
    rfl
  have hconfig : l₀.config = config := by
    rw [hl₀]
    rfl
  refine ⟨l₀, ofConfig_of_rewrites hrewrites hstart, ?_, ?_⟩
  · intro hspelled
    have hvalid : ∀ file ∈ l₀.taken t, ∀ a, l.cache.get? file = some a → l₀.UpToDate t file a := by
      intro file hfile a ha
      have hlatest := ((h.kept hcache hmanifests spares_of_rewrites).1 file).symm.trans ha
      exact h.upToDate hcache hmanifests (hconfig ▸ hseparates) (fun m => hspelled file hfile a m hlatest) ha
    have hfits : FitsAll t l.session := h.fits hmanifests spares_of_rewrites
    have hfits₀ : FitsAll t l₀.session := by
      show Fits _ t l₀.manifests
      rw [hmanifests]
      exact fits_empty _ t
    rcases h.setup with ⟨cache, manifests, rfl⟩
    have hresults := results_resume hcache hvalid hfits hfits₀
    exact ⟨hresults, fun _ => link_of_results hresults⟩
  · intro hsame output houtput a ha
    exact h.named_alike hconfig hcache hmanifests hseparates (link_of_results hsame) (ok_mem_results.mp houtput) ha

/-- The script with two slashes, and another text of the module that it requires. -/
def otherText : FileTree :=
  twoSlashes.put ["work", "src", "app", "node_modules", "x", "y.js"] (.file "2;\n".toUTF8)

theorem rewrites_otherText : FileTree.Rewrites twoSlashes otherText :=
  FileTree.rewrites_put (by rfl) (by decide) _

theorem separates_otherText : Digest.Separates (scriptConfig.textsIn [otherText, twoSlashes]) :=
  Digest.separates_of_nodup (by decide +kernel)

/-- A link after the text of a module has changed. -/
theorem link_eq_cold_of_otherText : ∃ (l₀ l new : Linker) (past : List PastLink),
    Linker.ofConfig twoSlashes scriptConfig Minifier.unchanged (fun _ => false) = .ok l₀ ∧
      History FileTree.Rewrites l₀ twoSlashes past l otherText ∧
      Linker.ofConfig otherText scriptConfig Minifier.unchanged (fun _ => false) = .ok new ∧
      (l.results otherText).map (Except.map LinkOutput.result) =
        (new.results otherText).map (Except.map LinkOutput.result) ∧
      (l.link otherText).1.map LinkOutput.result = (new.link otherText).1.map LinkOutput.result := by
  have hcheck : ((Linker.ofConfig twoSlashes scriptConfig Minifier.unchanged fun _ => false).toOption.any fun l =>
      (Linker.ofConfig otherText scriptConfig Minifier.unchanged fun _ => false).toOption.any fun new =>
        (new.taken otherText).all fun file =>
          (latest file [(twoSlashes, (l.link twoSlashes).1)]).all fun a =>
            (streak file a.sameText [(twoSlashes, (l.link twoSlashes).1)]).getLast?.all (·.record.file == file) &&
            (streak file a.sameCode [(twoSlashes, (l.link twoSlashes).1)]).getLast?.all (·.record.file == file)) =
      true := by
    decide +kernel
  rcases exists_of_any hcheck with ⟨l₀, hstart, hcheck⟩
  rcases exists_of_any hcheck with ⟨new, hnew, hcheck⟩
  have hhistory := (History.start : History _ l₀ twoSlashes _ _ _).link.change rewrites_otherText
  rcases link_eq_cold hstart hhistory separates_otherText with ⟨new', hnew', hsame⟩
  cases hnew.symm.trans hnew'
  have hspelled := hsame.1 fun file hfile a m ha _ _ => by
    have hcase := List.all_eq_true.mp hcheck file hfile
    simp only [ha, Option.all_some, Bool.and_eq_true, Option.all_eq_true, beq_iff_eq] at hcase
    exact ⟨hcase.1, hcase.2⟩
  exact ⟨l₀, _, new, _, hstart, hhistory, hnew, hspelled.1, hspelled.2 rfl⟩

/-- A link with the cache does not always give what it gives without it: when a specifier loses a slash, the
code in the cache carries the earlier spelling of the file. -/
theorem exists_link_ne_cold : ∃ (l₀ l new : Linker) (past : List PastLink),
    Linker.ofConfig twoSlashes scriptConfig Minifier.unchanged (fun _ => false) = .ok l₀ ∧
      History FileTree.Rewrites l₀ twoSlashes past l oneSlash ∧
      Digest.Separates (scriptConfig.textsIn (oneSlash :: treesOf past)) ∧
      Linker.ofConfig oneSlash scriptConfig Minifier.unchanged (fun _ => false) = .ok new ∧
      (l.link oneSlash).1.map LinkOutput.result ≠ (new.link oneSlash).1.map LinkOutput.result := by
  rcases exists_run_of_oneSlash with ⟨l₀, output, hstart, hlink, a, ha, m, hm, hstale⟩
  rcases ofConfig_eq_ok.mp hstart with ⟨-, -, -, -, policy, -, hl₀⟩
  have hhistory := (History.start : History _ l₀ twoSlashes _ _ _).link.change rewrites_oneSlash
  refine ⟨l₀, _, l₀, _, hstart, hhistory, separates_oneSlash, ofConfig_of_rewrites rewrites_oneSlash hstart, ?_⟩
  intro hsame
  have hcompile := hhistory.compile_of_sameAsCold (cache_of_ofConfig hstart) (by rw [hl₀]; rfl) hsame hlink ha hm
  -- the links leave the minifier and the configuration as they are
  rcases hhistory.setup with ⟨cache, manifests, hl⟩
  rw [hl, hl₀] at hcompile
  exact hstale hcompile

end History

end Relink
