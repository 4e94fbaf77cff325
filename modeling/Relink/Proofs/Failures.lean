import Relink.Proofs.Linked

/-!
# How a link can fail

A link fails because of the files, manifests, specifiers and entries that it finds, or because the minifier
fails. The checks that guard against faults of the linker itself never do.

* `Fails` — a condition on the failures of a computation.
* `Failure.OfModule`, `Failure.OfLink` — the failures that what a link finds can cause.
* `fails_module`, `fails_discover` — how the modules of a link are discovered.
* `fails_run` — a link fails with one of these failures, or with one of the minifier.
* `link_of_failures` — of the modules that cannot be compiled, a link names the first one.
* `ok_mem_results`, `causes_of_mem_results` — what a link in parallel gives, and how it fails.
-/

namespace Relink

/-- A failure whose cause lies in the file of a module, or in what the module requires. -/
inductive Failure.OfModule : Failure → Prop
  | io (fault : FileFault) : OfModule (.io fault)
  | resolution (specifier : String) (importer : Path) (fault : ResolutionFault) :
      OfModule (.resolution specifier importer fault)
  | transform (file : Path) (fault : TransformFault) : OfModule (.transform file fault)
  | unsupported (file : Path) : OfModule (.unsupportedModule file)
  | manifest (file : Path) : OfModule (.configuration (.badManifest file))
  | outside (file : Path) : OfModule (.configuration (.outsideBases file))

/-- A failure whose cause lies in what a link finds. -/
inductive Failure.OfLink : Failure → Prop
  | module {e : Failure} (h : e.OfModule) : OfLink e
  | room : OfLink (.configuration .noRoom)
  | noEntry : OfLink (.configuration .noEntry)
  | excluded (entry : Path) : OfLink (.configuration (.excludedEntry entry))

namespace Linking

variable {α β : Type} {trusted : Path → Prop} {t : FileTree} {P : Failure → Prop}

/-- A condition on the failures of a computation. -/
def Fails (P : Failure → Prop) (r : Except Failure α) : Prop := ∀ e, r = .error e → P e

theorem Meets.fails_pure {a : α} : Meets trusted t (Pure.pure a) (Fails P) := by
  refine Meets.pure ?_
  rintro e ⟨⟩

theorem Meets.fails_say {line : LogLine} : Meets trusted t (Linking.say line) (Fails P) := by
  refine Meets.say ?_
  rintro e ⟨⟩

theorem Meets.fails_fail {e : Failure} (h : P e) : Meets trusted t (Linking.fail e : Linking α) (Fails P) := by
  refine Meets.fail ?_
  rintro e' ⟨⟩
  exact h

/-- A sequence fails as its parts do; the second part runs with what the first one returns. -/
theorem Meets.fails_bind_of {x : Linking α} {f : α → Linking β} {R : α → Prop}
    (hx : Meets trusted t x (Fails P)) (hreturns : Meets trusted t x (Returns R))
    (hf : ∀ a, R a → Meets trusted t (f a) (Fails P)) : Meets trusted t (x >>= f) (Fails P) := by
  refine (hx.and hreturns).bind ?_ ?_
  · intro a ha
    exact hf a (ha.2 a rfl)
  · rintro e ⟨he, -⟩ e' ⟨⟩
    exact he e rfl

theorem Meets.fails_bind {x : Linking α} {f : α → Linking β} (hx : Meets trusted t x (Fails P))
    (hf : ∀ a, Meets trusted t (f a) (Fails P)) : Meets trusted t (x >>= f) (Fails P) :=
  hx.fails_bind_of (hx.mono fun _ _ _ _ => trivial : Meets trusted t x (Returns fun _ => True)) fun a _ => hf a

theorem Meets.fails_foldlM {f : β → α → Linking β} {as : List α}
    (hf : ∀ b, ∀ a ∈ as, Meets trusted t (f b a) (Fails P)) (b : β) : Meets trusted t (as.foldlM f b) (Fails P) := by
  induction as generalizing b with
  | nil => exact Meets.fails_pure
  | cons a as ih =>
    rw [List.foldlM_cons]
    exact (hf b a List.mem_cons_self).fails_bind (ih fun b a ha => hf b a (List.mem_cons_of_mem _ ha))

theorem Meets.fails_mapM {f : α → Linking β} {as : List α} (hf : ∀ a ∈ as, Meets trusted t (f a) (Fails P)) :
    Meets trusted t (as.mapM f) (Fails P) := by
  induction as with
  | nil => exact Meets.fails_pure
  | cons a as ih =>
    rw [List.mapM_cons]
    refine (hf a List.mem_cons_self).fails_bind fun b => ?_
    exact (ih fun a ha => hf a (List.mem_cons_of_mem _ ha)).fails_bind fun bs => Meets.fails_pure

theorem Meets.fails_forM {f : α → Linking Unit} {as : List α} (hf : ∀ a, Meets trusted t (f a) (Fails P)) :
    Meets trusted t (as.forM f) (Fails P) := by
  induction as with
  | nil => exact Meets.fails_pure
  | cons a as ih =>
    show Meets trusted t (f a >>= fun _ => as.forM f) (Fails P)
    exact (hf a).fails_bind fun _ => ih

end Linking

open Linking

variable {trusted : Path → Prop}

/-! ## Files and packages -/

namespace Resolver

variable {r : Resolver}

theorem fails_readManifest (directory : Path) :
    Meets trusted r.tree (r.readManifest directory) (Fails Failure.OfModule) := by
  unfold readManifest
  simp only
  split
  · split
    · exact Meets.fails_fail (.io _)
    · split
      · exact Meets.fails_pure
      · exact Meets.fails_say.fails_bind fun _ => Meets.fails_fail (.manifest _)
  · exact Meets.fails_pure

theorem fails_manifestOf (directory : Path) :
    Meets trusted r.tree (r.manifestOf directory) (Fails Failure.OfModule) := by
  intro s hs
  refine ⟨?_, (steady_manifestOf trusted s hs).2⟩
  rw [runIn_manifestOf]
  cases s.manifests.get? directory with
  | some m =>
    rintro e ⟨⟩
  | none =>
    have hread := (fails_readManifest (r := r) directory s hs).1
    simp only [runIn_bind]
    rcases hrun : (r.readManifest directory).runIn s with ⟨_ | m, s'⟩
    · rw [hrun] at hread
      rintro e ⟨⟩
      exact hread _ rfl
    · rintro e ⟨⟩

theorem fails_entryFile (directory : Path) :
    Meets trusted r.tree (r.entryFile directory) (Fails Failure.OfModule) := by
  unfold entryFile
  refine (fails_manifestOf directory).fails_bind fun m => ?_
  simp only
  split <;> exact Meets.fails_pure

theorem fails_exportedFile (directory : Path) (name : String) :
    Meets trusted r.tree (r.exportedFile directory name) (Fails Failure.OfModule) := by
  unfold exportedFile
  exact (fails_manifestOf directory).fails_bind fun m => Meets.fails_pure

theorem fails_fileOrPackage (p : Path) :
    Meets trusted r.tree (r.fileOrPackage p) (Fails Failure.OfModule) := by
  unfold fileOrPackage
  split
  · exact Meets.fails_pure
  · split
    · exact fails_entryFile p
    · exact Meets.fails_pure

theorem fails_oneOf {t : FileTree} (specifier : String) (importer : Path) (extended package : Option Path) :
    Meets trusted t (oneOf specifier importer extended package) (Fails Failure.OfModule) := by
  unfold oneOf
  split
  · exact Meets.fails_fail (.resolution _ _ _)
  · exact Meets.fails_pure
  · exact Meets.fails_pure
  · exact Meets.fails_fail (.resolution _ _ _)

theorem fails_resolveRelative (specifier : String) (importer : Path) :
    Meets trusted r.tree (r.resolveRelative specifier importer) (Fails Failure.OfModule) := by
  unfold resolveRelative
  simp only
  split
  · exact Meets.fails_pure
  · split
    · exact (fails_entryFile _).fails_bind fun package => fails_oneOf specifier importer _ package
    · exact Meets.fails_pure.fails_bind fun package => fails_oneOf specifier importer _ package

theorem fails_firstSome {α : Type} {t : FileTree} {P : Failure → Prop} {xs : List (Linking (Option α))}
    (h : ∀ x ∈ xs, Meets trusted t x (Fails P)) : Meets trusted t (firstSome xs) (Fails P) := by
  induction xs with
  | nil => exact Meets.fails_pure
  | cons x xs ih =>
    unfold firstSome
    refine (h x List.mem_cons_self).fails_bind fun a => ?_
    split
    · exact Meets.fails_pure
    · exact ih fun x hx => h x (List.mem_cons_of_mem _ hx)

theorem fails_placesBelow (specifier : String) (importer base : Path) :
    ∀ x ∈ r.placesBelow specifier importer base, Meets trusted r.tree x (Fails Failure.OfModule) := by
  intro x hx
  unfold placesBelow at hx
  rcases List.mem_append.mp hx with hx | hx
  · rcases List.mem_cons.mp hx with rfl | hx
    · exact fails_fileOrPackage _
    · split at hx
      · simp only at hx
        split at hx
        · rw [List.mem_singleton.mp hx]
          exact fails_exportedFile _ _
        · simp at hx
      · simp at hx
  · rcases List.mem_map.mp hx with ⟨d, -, rfl⟩
    exact fails_fileOrPackage _

theorem fails_resolve (specifier : String) (importer : Path) :
    Meets trusted r.tree (r.resolve specifier importer) (Fails Failure.OfModule) := by
  unfold resolve
  split
  · exact fails_resolveRelative specifier importer
  · unfold resolveBare
    refine (fails_firstSome ?_).fails_bind fun file => ?_
    · intro x hx
      rcases List.mem_flatMap.mp hx with ⟨base, -, hx⟩
      exact fails_placesBelow specifier importer base x hx
    · split
      · exact Meets.fails_pure
      · exact Meets.fails_fail (.resolution _ _ _)

theorem fails_nameOf (base file : Path) (basePath : String) :
    Meets trusted r.tree (r.nameOf base file basePath) (Fails Failure.OfModule) := by
  unfold nameOf
  split
  · exact Meets.fails_pure
  · exact (fails_manifestOf _).fails_bind fun m => Meets.fails_pure

theorem fails_locate (file : Path) (isScript : Bool) :
    Meets trusted r.tree (r.locate file isScript) (Fails Failure.OfModule) := by
  unfold locate
  simp only
  split
  · exact Meets.fails_fail (.outside _)
  · split
    · exact Meets.fails_pure
    · split
      · exact Meets.fails_fail (.outside _)
      · split
        · exact (fails_nameOf _ _ _).fails_bind fun _ => Meets.fails_pure
        · exact Meets.fails_pure

end Resolver

/-! ## Modules -/

namespace Discovery

variable {d : Discovery}

theorem fails_sourceOf {t : FileTree} (file : Path) : Meets trusted t (d.sourceOf file) (Fails Failure.OfModule) := by
  unfold sourceOf
  simp only
  split
  · exact Meets.fails_say.fails_bind fun _ => Meets.fails_pure
  · split
    · exact Meets.fails_pure
    · exact Meets.fails_fail (.io _)

theorem fails_scriptOf {t : FileTree} (file : Path) (kind : ModuleKind) (l : BaseLocation) (source : String) :
    Meets trusted t (d.scriptOf file kind l source) (Fails Failure.OfModule) := by
  unfold scriptOf
  split
  · split
    · exact Meets.fails_fail (.transform _ _)
    · exact Meets.fails_pure
    · exact Meets.fails_say.fails_bind fun _ => Meets.fails_pure
  · exact Meets.fails_pure

theorem fails_opened (file : Path) : Meets trusted d.resolver.tree (d.opened file) (Fails Failure.OfModule) := by
  unfold opened
  split
  · exact Meets.fails_fail (.unsupported _)
  · refine (fails_sourceOf file).fails_bind fun source => ?_
    unfold moduleOf
    refine (Resolver.fails_locate file _).fails_bind fun l => ?_
    exact (fails_scriptOf file _ l source).fails_bind fun script => Meets.fails_pure

theorem summaryOf_eq_error {file : Path} {source : String} {e : Failure} (h : summaryOf file source = .error e) :
    e.OfModule := by
  unfold summaryOf at h
  split at h
  · cases h
  · cases h
    exact .transform _ _

theorem fails_require (file : Path) (r : Requirements) (specifier : String) :
    Meets trusted d.resolver.tree (d.require file r specifier) (Fails Failure.OfModule) := by
  unfold require
  split
  · exact Meets.fails_pure
  · exact Meets.fails_pure
  · exact (Resolver.fails_resolve specifier file).fails_bind fun p => Meets.fails_pure

theorem fails_analysed (m : Module) : Meets trusted d.resolver.tree (d.analysed m) (Fails Failure.OfModule) := by
  unfold analysed
  split
  · refine (Meets.lift fun e he => summaryOf_eq_error he).fails_bind fun summary => ?_
    exact (Meets.fails_foldlM (fun r s _ => fails_require m.file r s) _).fails_bind fun r => Meets.fails_pure
  · exact Meets.fails_pure

/-- A module fails because of its file, or because of what it requires. -/
theorem fails_module (file : Path) : Meets trusted d.resolver.tree (d.module file) (Fails Failure.OfModule) := by
  unfold module
  refine (fails_opened file).fails_bind fun m => ?_
  split
  · exact Meets.fails_pure
  · exact fails_analysed m

theorem fails_discover (room : Nat) (g : ModuleGraph) (pending : List Path) :
    Meets trusted d.resolver.tree (ModuleGraph.discover d room g pending) (Fails Failure.OfLink) := by
  induction room generalizing g pending with
  | zero =>
    unfold ModuleGraph.discover
    split
    · exact Meets.fails_pure
    · exact Meets.fails_fail .room
  | succ room ih =>
    unfold ModuleGraph.discover
    split
    · exact Meets.fails_pure
    · exact ((fails_module _).mono fun _ h e he => .module (h e he)).fails_bind fun m => ih _ _

theorem fails_build (entries : List Path) :
    Meets trusted d.resolver.tree (ModuleGraph.build d entries) (Fails Failure.OfLink) := by
  unfold ModuleGraph.build
  exact (fails_discover _ _ _).fails_bind fun g => Meets.fails_pure

end Discovery

/-! ## Bundles and code -/

theorem Partition.entryOf_eq_error {g : ModuleGraph} {entry : Path} {e : Failure} (h : entryOf g entry = .error e) :
    e.OfLink := by
  unfold entryOf at h
  split at h
  · cases h
  · cases h
    exact .excluded _

theorem Partition.plugins_eq_error {g : ModuleGraph} {claimed : List Nat} {paths : List Path} {e : Failure}
    (h : plugins g claimed paths = .error e) : e.OfLink := by
  induction paths generalizing claimed with
  | nil => cases h
  | cons path paths ih =>
    unfold plugins at h
    cases hentry : entryOf g path with
    | error e' =>
      rw [hentry] at h
      cases h
      exact entryOf_eq_error hentry
    | ok entry =>
      simp only [hentry, bind, Except.bind] at h
      split at h
      next hothers =>
        cases h
        exact ih hothers
      next => cases h

theorem partition_eq_error {g : ModuleGraph} {independent : Bool} {entries : List Path} {e : Failure}
    (h : partition g independent entries = .error e) : e.OfLink := by
  unfold partition at h
  split at h
  · cases h
    exact .noEntry
  next first others =>
    cases hentry : Partition.entryOf g first with
    | error e' =>
      rw [hentry] at h
      cases h
      exact Partition.entryOf_eq_error hentry
    | ok entry =>
      simp only [hentry, bind, Except.bind] at h
      split at h
      next hothers =>
        cases h
        exact Partition.plugins_eq_error hothers
      next => cases h

theorem Step.apply_eq_error {step : Step} {subject : Subject} {d : Document} {e : Failure}
    (h : step.apply subject d = .error e) : e.OfModule := by
  unfold apply at h
  -- a step either has a text to edit, or names the file that it cannot use
  cases step with
  | exportJson =>
    simp only at h
    split at h
    · split at h
      · cases h
      · cases h
        exact .transform _ _
    · cases h
      exact .transform _ _
  | exportText => cases h
  | wrap => cases h
  | dropStrict | callMarker | dropVoid | callExports | numberRequires =>
    simp only at h
    split at h
    · cases h
    · cases h
      exact .transform _ _

theorem transform_eq_error {kind : ModuleKind} {applyTransforms : Bool} {subject : Subject} {e : Failure}
    (h : transform kind applyTransforms subject = .error e) : e.OfModule := by
  have hsteps : ∀ (steps : List Step) (d : Document),
      steps.foldlM (fun d step => step.apply subject d) d = .error e → e.OfModule := by
    intro steps
    induction steps with
    | nil =>
      rintro d ⟨⟩
    | cons step steps ih =>
      intro d hd
      rw [List.foldlM_cons] at hd
      cases hstep : step.apply subject d with
      | error e' =>
        rw [hstep] at hd
        cases hd
        exact Step.apply_eq_error hstep
      | ok d' =>
        rw [hstep] at hd
        exact ih d' hd
  unfold transform at h
  cases hd : (pipeline kind applyTransforms).foldlM (fun d step => step.apply subject d) .empty with
  | error e' =>
    rw [hd] at h
    cases h
    exact hsteps _ _ hd
  | ok d =>
    rw [hd] at h
    cases h

theorem Module.summaryFor_eq_error {m : Module} {e : Failure} (h : m.summaryFor = .error e) : e.OfModule := by
  unfold summaryFor at h
  split at h
  · cases h
  · cases hsummary : Discovery.summaryOf m.file m.source with
    | error e' =>
      rw [hsummary] at h
      cases h
      exact Discovery.summaryOf_eq_error hsummary
    | ok summary =>
      rw [hsummary] at h
      cases h
  · cases h

/-- A module is not compiled because of its text, or because the minifier fails. -/
theorem compile_eq_error {minifier : Minifier} {settings : CodeSettings} {m : Module} {ids : Table String ModuleId}
    {e : Failure} (h : compile minifier settings m ids = .error e) :
    e.OfModule ∨ ∃ file text, minifier file text = .error e := by
  unfold compile at h
  cases hsummary : m.summaryFor with
  | error e' =>
    rw [hsummary] at h
    cases h
    exact Or.inl (Module.summaryFor_eq_error hsummary)
  | ok summary =>
    rw [hsummary] at h
    cases hcode : transform m.kind settings.applyTransforms ⟨m.file, m.basePath, m.source, summary, ids⟩ with
    | error e' =>
      simp only [hcode, bind, Except.bind] at h
      cases h
      exact Or.inl (transform_eq_error hcode)
    | ok code =>
      simp only [hcode, bind, Except.bind] at h
      split at h
      · cases hsmall : minifier m.file code.source with
        | error e' =>
          rw [hsmall] at h
          cases h
          exact Or.inr ⟨_, _, hsmall⟩
        | ok small =>
          rw [hsmall] at h
          cases h
      · cases h

/-! ## Links -/

namespace Partition

open ModuleGraph

variable {g : ModuleGraph}

theorem entry_mem_main {independent : Bool} {plugins : List Path} {first : Path} {entry : Nat}
    (h : g.lookup first = some entry) : entry ∈ (main g independent plugins entry).modules := by
  obtain ⟨m, hm, -⟩ := exists_of_lookup h
  exact mem_main_iff.mpr (Digraph.Reaches.root ⟨m, hm, Or.inl rfl⟩)

/-- The entry of a plugin is claimed, or in the bundle of a plugin. -/
theorem entry_mem_plugins {claimed : List Nat} {paths : List Path} {ps : List Partition}
    (h : plugins g claimed paths = .ok ps) {p : Partition} (hp : p ∈ ps) :
    p.entry ∈ claimed ∨ p.entry ∈ modulesOf ps := by
  induction paths generalizing claimed ps with
  | nil =>
    unfold plugins at h
    cases h
    cases hp
  | cons path paths ih =>
    obtain ⟨q, others, rfl, hentry, -, hmodules, hothers⟩ := plugins_cons h
    rw [modulesOf_cons, List.mem_append]
    rcases List.mem_cons.mp hp with rfl | hp
    · by_cases hclaimed : p.entry ∈ claimed
      · exact Or.inl hclaimed
      · -- an entry that is not claimed is reached from itself
        obtain ⟨m, hm, -⟩ := exists_of_lookup hentry
        refine Or.inr (Or.inl ?_)
        rw [hmodules, mem_reachable_unclaimed]
        exact Digraph.Reaches.root ⟨exists_getElem?.mp ⟨m, hm⟩, hclaimed⟩
    · rcases ih hothers hp with hclaimed | hmem
      · rcases List.mem_append.mp hclaimed with hclaimed | hq
        · exact Or.inl hclaimed
        · exact Or.inr (Or.inl hq)
      · exact Or.inr (Or.inr hmem)

end Partition

/-- The entry of a bundle is in one of the bundles, though it may be in an earlier one. -/
theorem entry_mem_partition {g : ModuleGraph} {independent : Bool} {entries : List Path} {parts : List Partition}
    (h : partition g independent entries = .ok parts) {p : Partition} (hp : p ∈ parts) :
    p.entry ∈ Partition.modulesOf parts := by
  obtain ⟨first, plugins, entry, rest, -, hentry, rfl, hrest⟩ := partition_cases h
  rw [Partition.modulesOf_cons, List.mem_append]
  rcases List.mem_cons.mp hp with rfl | hp
  · rw [Partition.main_entry]
    exact Or.inl (Partition.entry_mem_main hentry)
  · exact Partition.entry_mem_plugins hrest hp

namespace Linker

open Relink.Partition

variable {l : Linker} {t : FileTree} {g : ModuleGraph} {parts : List Partition}

/-- A failure that what a link finds can cause, or one of its minifier. -/
def Causes (l : Linker) (e : Failure) : Prop := e.OfLink ∨ ∃ file text, l.minifier file text = .error e

theorem fails_graph : Meets trusted t (l.graph t) (Fails Failure.OfLink) := by
  unfold graph
  refine (Meets.fails_forM fun line => Meets.fails_say).fails_bind fun _ => ?_
  exact Discovery.fails_build (d := l.discovery t) l.entries

theorem fails_statusOf {P : Failure → Prop} (g : ModuleGraph) : Meets trusted t (l.statusOf g) (Fails P) := by
  unfold statusOf
  split
  · unfold reportCycles
    exact (Meets.fails_forM fun cycle => Meets.fails_say).fails_bind fun _ => Meets.fails_pure
  · exact Meets.fails_pure

theorem fails_codeOf (job : Job) : Meets trusted t (l.codeOf job) (Fails l.Causes) := by
  unfold codeOf
  split
  · exact Meets.fails_pure
  · refine Meets.fails_say.fails_bind fun _ => ?_
    refine (Meets.lift ?_).fails_bind fun code => Meets.fails_pure
    intro e he
    rcases compile_eq_error he with hmodule | hminifier
    · exact Or.inl (.module hmodule)
    · exact Or.inr hminifier

/-- The artifact of a module of the bundles is always made: the module has an id, and if it is not compiled,
its code is in the cache. -/
theorem fails_artifactOf {P : Failure → Prop} {i : Nat} (hi : i ∈ modulesOf parts) {job : Job}
    (hplan : plan l.cache g (assignIds g parts) i = some job) {code : Option ModuleCode}
    (hcode : CodeFits l job code) : Meets trusted t (l.artifactOf job code) (Fails P) := by
  obtain ⟨m, -, rfl⟩ := plan_eq_some hplan
  obtain ⟨id, hid⟩ := exists_id (g := g) hi
  unfold artifactOf
  refine Meets.fails_bind ?_ fun code => ?_
  · cases code with
    | some code => exact Meets.fails_pure
    | none =>
      obtain ⟨-, a, ha, -⟩ := exists_of_reasonFor hcode
      unfold Option.elim reusedCode cachedCode
      simp only [ha]
      exact Meets.fails_say.fails_bind fun _ => Meets.fails_pure
  · unfold recordOf
    simp only [hid]
    exact Meets.fails_pure.fails_bind fun record => Meets.fails_pure

theorem fails_make : Meets trusted t (l.make (l.jobs g parts)) (Fails l.Causes) := by
  unfold make
  refine (Meets.fails_mapM fun job _ => fails_codeOf job).fails_bind_of
    (Meets.mapM fun job _ => meets_codeOf job) fun codes hcodes => ?_
  refine (Meets.fails_mapM ?_).fails_bind fun made => Meets.fails_pure
  rintro ⟨job, code⟩ hmem
  obtain ⟨i, hi, hplan⟩ := List.mem_filterMap.mp (List.of_mem_zip hmem).1
  exact fails_artifactOf hi hplan (List.forall₂_zip hcodes hmem)

theorem fails_bundleOf {P : Failure → Prop} {table : Table Nat Artifact} {p : Partition} {a : Artifact}
    (h : table.get? p.entry = some a) : Meets trusted t (l.bundleOf table p) (Fails P) := by
  unfold bundleOf
  simp only [h]
  exact Meets.fails_say.fails_bind fun _ => Meets.fails_pure

/-- A link fails because of what it finds, or because the minifier fails. -/
theorem fails_run : Meets trusted t (l.run t) (Fails l.Causes) := by
  unfold run
  refine (fails_graph.mono fun _ h e he => Or.inl (h e he)).fails_bind fun g => ?_
  refine Meets.fails_say.fails_bind fun _ => ?_
  refine (fails_statusOf g).fails_bind fun status => ?_
  refine (Meets.lift fun e he => Or.inl (partition_eq_error he)).fails_bind_of
    (Meets.lift (Q := Returns fun parts => partition g l.config.plugin l.entries = .ok parts) fun parts h => h)
    fun parts hparts => ?_
  refine fails_make.fails_bind_of (meets_make (l.jobs g parts)) ?_
  rintro ⟨codes, table⟩ ⟨pairs, hpairs, rfl⟩
  -- every entry has an artifact, as all modules of the bundles have one
  obtain ⟨made, -, hget, -⟩ := exists_made hparts hpairs
  refine (Meets.fails_mapM fun p hp => fails_bundleOf (hget _ (entry_mem_partition hparts hp))).fails_bind
    fun bundles => ?_
  exact (Meets.fails_forM fun line => Meets.fails_say).fails_bind fun _ => Meets.fails_pure

theorem link_eq_error {e : Failure} (h : (l.link t).1 = .error e) : l.Causes e := by
  have hfits : Fits (fun _ => False) t l.session.manifests := fits_of_forall_not (fun _ h => h) t _
  have hfails := (fails_run (l := l) (t := t) l.session hfits).1
  unfold link at h
  rcases hrun : (l.run t).runIn l.session with ⟨e' | output, s⟩
  · rw [hrun] at h hfails
    cases h
    exact hfails e rfl
  · rw [hrun] at h
    cases h

/-! ## Compiling in parallel -/

theorem runIn_codeOf (job : Job) (s : Session) : ((l.codeOf job).runIn s).1 = match job.reason with
    | none => .ok none
    | some _ => (compile l.minifier l.config.settings job.module job.ids).map some := by
  unfold codeOf
  cases job.reason with
  | none => rfl
  | some reason =>
    simp only [runIn_bind, runIn_say, runIn_lift]
    cases compile l.minifier l.config.settings job.module job.ids <;> rfl

/-- The code of a module is made if and only if the module can be compiled. -/
theorem failureOf_eq {job : Job} {s : Session} : l.failureOf job =
    match ((l.codeOf job).runIn s).1 with
    | .ok _ => none
    | .error e => some e := by
  rw [runIn_codeOf]
  unfold failureOf
  cases job.reason with
  | none => rfl
  | some reason => cases compile l.minifier l.config.settings job.module job.ids <;> rfl

/-- One after the other, the modules are compiled up to the first one that cannot be. -/
theorem runIn_mapM_codeOf {jobs : List Job} {e : Failure} {others : List Failure}
    (h : jobs.filterMap l.failureOf = e :: others) (s : Session) : ((jobs.mapM l.codeOf).runIn s).1 = .error e := by
  induction jobs generalizing s with
  | nil => cases h
  | cons job jobs ih =>
    rw [List.filterMap_cons, failureOf_eq (s := s)] at h
    rw [List.mapM_cons]
    rcases hrun : (l.codeOf job).runIn s with ⟨e' | code, s'⟩
    · rw [hrun] at h
      refine error_of_runIn_bind ?_
      rw [hrun, (List.cons.inj h).1]
    · rw [hrun] at h
      simp only [runIn_bind (l.codeOf job), hrun]
      exact error_of_runIn_bind (ih h s')

theorem runIn_statusOf (g : ModuleGraph) (s : Session) : ∃ log,
    (l.statusOf g).runIn s = (.ok (if l.config.detectCycles then g.cycles.isEmpty else true), { s with log := log }) := by
  unfold statusOf
  split
  · unfold reportCycles
    obtain ⟨log, hlog⟩ := runIn_forM_say (fun cycle => LogLine.warn ("Circular dependency: " ++
      " -> ".intercalate (cycle.map fun i => (g.modules[i]?).elim "" Module.name))) g.cycles s
    exact ⟨log, by simp only [runIn_bind, hlog, runIn_pure]⟩
  · exact ⟨s.log, rfl⟩

/-- The modules of a link some of which cannot be compiled. -/
theorem exists_of_failures {e : Failure} (h : e ∈ l.failures t) : ∃ g s parts,
    (l.graph t).runIn l.session = (.ok g, s) ∧ partition g l.config.plugin l.entries = .ok parts ∧
      l.failures t = (l.jobs g parts).filterMap l.failureOf := by
  unfold failures at h ⊢
  rcases hgraph : (l.graph t).runIn l.session with ⟨_ | g, s⟩
  · rw [hgraph] at h
    cases h
  · rw [hgraph] at h
    cases hparts : partition g l.config.plugin l.entries with
    | error e' =>
      simp only [hparts] at h
      cases h
    | ok parts => exact ⟨g, s, parts, rfl, hparts, by simp only [hparts]⟩

/-- If modules cannot be compiled, a link fails as compiling the first of them does. -/
theorem link_of_failures {e : Failure} {others : List Failure} (h : l.failures t = e :: others) :
    (l.link t).1 = .error e := by
  obtain ⟨g, s, parts, hgraph, hparts, hjobs⟩ := exists_of_failures (h ▸ List.mem_cons_self)
  have hcodes := runIn_mapM_codeOf (hjobs.symm.trans h)
  obtain ⟨log, hstatus⟩ := runIn_statusOf (l := l) g { s with log := .info ("📦 Discovered " ++ toString g.size ++
    " modules (" ++ toString g.changedCount ++ " changed)") :: s.log }
  have hrun : ((l.run t).runIn l.session).1 = .error e := by
    unfold run make
    simp only [runIn_bind (l.graph t), runIn_bind (say _), runIn_bind (l.statusOf g), runIn_bind (lift _), hgraph,
      runIn_say, hstatus, runIn_lift, hparts]
    exact error_of_runIn_bind (error_of_runIn_bind (hcodes _))
  unfold link
  rcases hlink : (l.run t).runIn l.session with ⟨r, s'⟩
  rw [hlink] at hrun
  cases hrun
  rfl

theorem results_of_sequential (h : l.config.parallel = false) : l.results t = [(l.link t).1] := by
  unfold results
  rw [h]
  rfl

/-- A link that compiles one module after the other gives the first of the results. -/
theorem head?_results : (l.results t).head? = some (l.link t).1 := by
  unfold results
  split
  case isTrue hparallel =>
    cases hfailures : l.failures t with
    | nil =>
      rw [hfailures] at hparallel
      simp at hparallel
    | cons e others => rw [link_of_failures hfailures, List.map_cons, List.head?_cons]
  case isFalse => rfl

/-- A link succeeds in parallel if and only if it succeeds, and in the same way. -/
theorem ok_mem_results {output : LinkOutput} : .ok output ∈ l.results t ↔ (l.link t).1 = .ok output := by
  unfold results
  split
  case isTrue hparallel =>
    cases hfailures : l.failures t with
    | nil =>
      rw [hfailures] at hparallel
      simp at hparallel
    | cons e others => simp [link_of_failures hfailures]
  case isFalse => rw [List.mem_singleton, eq_comm]

theorem failureOf_causes {job : Job} {e : Failure} (h : l.failureOf job = some e) : l.Causes e := by
  unfold failureOf at h
  split at h
  · cases h
  · split at h
    · cases h
    · cases h
      rcases compile_eq_error ‹_› with hmodule | hminifier
      · exact Or.inl (.module hmodule)
      · exact Or.inr hminifier

/-- Also in parallel a link fails because of what it finds, or because the minifier fails. -/
theorem causes_of_mem_results {e : Failure} (h : .error e ∈ l.results t) : l.Causes e := by
  unfold results at h
  split at h
  case isTrue =>
    obtain ⟨e', he, heq⟩ := List.mem_map.mp h
    cases heq
    obtain ⟨g, s, parts, -, -, hjobs⟩ := exists_of_failures he
    rw [hjobs] at he
    obtain ⟨job, -, hjob⟩ := List.mem_filterMap.mp he
    exact failureOf_causes hjob
  case isFalse => exact link_eq_error (List.mem_singleton.mp h).symm

end Linker

end Relink
