import Relink.Linker.Basic
import Relink.Proofs.Ids
import Relink.Proofs.Requirements

/-!
# What a link makes

A link that succeeds makes one artifact of every module of the bundles, from new code or from the cache.

* `IsMade` — the artifact of a module under the ids of a link.
* `Linked` — the bundles of a link consist of the artifacts that are made.
* `link_cases` — what a successful link gives, and the linker that it leaves.
-/

namespace Relink.Linker

open Linking Relink.Partition

variable {l : Linker} {t : FileTree}

/-! ## New linkers -/

/-- There is a linker for a configuration if its entries and bases exist, and its patterns can be read. -/
theorem ofConfig_eq_ok {config : Config} {minifier : Minifier} {excluded : String → Bool} :
    ofConfig t config minifier excluded = .ok l ↔
      config.entries ≠ [] ∧ config.bases ≠ [] ∧ (∀ p ∈ config.entries, t.isFile (t.absolute p) = true) ∧
      (∀ p ∈ config.bases, t.isDirectory (t.absolute p) = true) ∧
      ∃ policy, Policy.ofConfig config excluded = .ok policy ∧ l = fresh t config minifier policy := by
  have hfile : (config.entries.map t.absolute).find? (fun p => !t.isFile p) = none ↔
      ∀ p ∈ config.entries, t.isFile (t.absolute p) = true := by simp
  have hdirectory : (config.bases.map t.absolute).find? (fun p => !t.isDirectory p) = none ↔
      ∀ p ∈ config.bases, t.isDirectory (t.absolute p) = true := by simp
  rw [← hfile, ← hdirectory]
  unfold ofConfig
  by_cases hentries : config.entries = []
  · simp [hentries, throw, throwThe, MonadExceptOf.throw, bind, Except.bind]
  · by_cases hbases : config.bases = []
    · simp [hentries, hbases, throw, throwThe, MonadExceptOf.throw, bind, Except.bind]
    · simp only [List.isEmpty_iff, hentries, hbases, if_false, ne_eq, not_false_eq_true, true_and]
      cases (config.entries.map t.absolute).find? fun p => !t.isFile p with
      | some p => simp [throw, throwThe, MonadExceptOf.throw, bind, Except.bind]
      | none =>
        cases (config.bases.map t.absolute).find? fun p => !t.isDirectory p with
        | some p => simp [throw, throwThe, MonadExceptOf.throw, bind, Except.bind]
        | none =>
          cases Policy.ofConfig config excluded with
          | error e => simp [bind, Except.bind]
          | ok policy => simp [bind, Except.bind, pure, Except.pure, eq_comm]

theorem policy_of_ofConfig {config : Config} {minifier : Minifier} {excluded : String → Bool}
    (h : ofConfig t config minifier excluded = .ok l) : Policy.ofConfig l.config excluded = .ok l.policy := by
  rcases ofConfig_eq_ok.mp h with ⟨-, -, -, -, policy, hpolicy, rfl⟩
  exact hpolicy

theorem cache_of_ofConfig {config : Config} {minifier : Minifier} {excluded : String → Bool}
    (h : ofConfig t config minifier excluded = .ok l) : l.cache.artifacts = Table.empty := by
  rcases ofConfig_eq_ok.mp h with ⟨-, -, -, -, policy, -, rfl⟩
  rfl

/-! ## What is made of a module -/

/-- The code of a module: its new code, or that in the cache. -/
def codeFor (l : Linker) (job : Job) : Except Failure ModuleCode :=
  match job.reason with
  | none => l.cachedCode job.module.file
  | some _ => compile l.minifier l.config.settings job.module job.ids

/-- An artifact consists of the record and the code of a module. -/
def IsMade (l : Linker) (job : Job) (a : Artifact) : Prop :=
  recordOf job = .ok a.record ∧ l.codeFor job = .ok a.code

theorem IsMade.unique {job : Job} {a a' : Artifact} (h : IsMade l job a) (h' : IsMade l job a') : a = a' := by
  rcases a with ⟨record, code⟩
  rcases a' with ⟨record', code'⟩
  have hrecord := h.1.symm.trans h'.1
  have hcode := h.2.symm.trans h'.2
  cases hrecord
  cases hcode
  rfl

/-- What is known of a record: it is that of the module, with an id and the ids of the job. -/
theorem recordOf_eq_ok {job : Job} {r : ModuleRecord} (h : recordOf job = .ok r) :
    job.id = some r.id ∧ r.file = job.module.file ∧ r.hash = job.module.hash ∧ r.dependencyMap = job.ids ∧
      r.dependencyPaths = job.module.dependencyPaths ∧ r.externals = job.module.externals ∧
      r.shims = job.module.shims := by
  unfold recordOf at h
  simp only at h
  split at h
  · cases h
  next id hid =>
    cases h
    exact ⟨hid, rfl, rfl, rfl, rfl, rfl, rfl⟩

theorem plan_eq_some {g : ModuleGraph} {cache : Cache} {ids : Table Nat ModuleId} {i : Nat} {job : Job}
    (h : plan cache g ids i = some job) :
    ∃ m, g.modules[i]? = some m ∧ job = ⟨i, m, ids.get? i, m.dependencies.filterMap ids.get?,
      reasonFor cache m (m.dependencies.filterMap ids.get?)⟩ := by
  unfold plan at h
  rcases Option.map_eq_some_iff.mp h with ⟨m, hm, rfl⟩
  exact ⟨m, hm, rfl⟩

/-- If a module is not compiled, its artifact was made under the ids that it has now. -/
theorem exists_of_reasonFor {cache : Cache} {m : Module} {ids : Table String ModuleId} (h : reasonFor cache m ids = none) :
    m.changed = false ∧ ∃ a, cache.get? m.file = some a ∧ a.record.dependencyMap = ids := by
  unfold reasonFor at h
  split at h
  · cases h
  next hchanged =>
    cases hget : cache.get? m.file with
    | none =>
      rw [hget] at h
      cases h
    | some a =>
      rw [hget] at h
      exact ⟨by simpa using hchanged, a, rfl, by simpa using h⟩

/-- If a module is compiled, it has changed, or no artifact was made under the ids that it has now. -/
theorem reasonFor_eq_none {cache : Cache} {m : Module} {ids : Table String ModuleId} {a : Artifact}
    (hchanged : m.changed = false) (ha : cache.get? m.file = some a) (hids : a.record.dependencyMap = ids) :
    reasonFor cache m ids = none := by
  unfold reasonFor
  simp [hchanged, ha, hids]

/-- The code of a module is that of the module under the ids of the job, or that of an artifact in the cache
which was made under the same ids. If there is such an artifact, its code is taken. -/
theorem code_cases {g : ModuleGraph} {ids : Table Nat ModuleId} {i : Nat} {job : Job} {a : Artifact}
    (hplan : plan l.cache g ids i = some job) (h : IsMade l job a) :
    (compile l.minifier l.config.settings job.module job.ids = .ok a.code ∧
      (job.module.changed = false → ∀ a₀, l.cache.get? job.module.file = some a₀ →
        a₀.record.dependencyMap ≠ job.ids)) ∨
      job.module.changed = false ∧ ∃ a₀, l.cache.get? job.module.file = some a₀ ∧
        a₀.record.dependencyMap = job.ids ∧ a₀.code = a.code := by
  rcases plan_eq_some hplan with ⟨m, -, rfl⟩
  have hcode := h.2
  unfold codeFor cachedCode at hcode
  simp only at hcode
  -- without a reason to compile, the code is that in the cache
  split at hcode
  next hreason =>
    rcases exists_of_reasonFor hreason with ⟨hchanged, a₀, ha₀, hids⟩
    rw [ha₀] at hcode
    exact Or.inr ⟨hchanged, a₀, ha₀, hids, Except.ok.inj hcode⟩
  next reason hreason =>
    refine Or.inl ⟨hcode, ?_⟩
    intro hchanged a₀ ha₀ hids
    rw [reasonFor_eq_none hchanged ha₀ hids] at hreason
    cases hreason

/-! ## Jobs -/

section Jobs

variable {trusted : Path → Prop}

theorem steady_codeOf {sure : Prop} (job : Job) : Steady trusted t sure (l.codeOf job) := by
  unfold codeOf
  split
  · exact Steady.pure _
  · exact (Steady.say _).bind fun _ => (Steady.lift _).bind fun _ => Steady.pure _

/-- New code is that of the module, and there is none if the code is taken from the cache. -/
def CodeFits (l : Linker) (job : Job) : Option ModuleCode → Prop
  | none => job.reason = none
  | some code => job.reason ≠ none ∧ compile l.minifier l.config.settings job.module job.ids = .ok code

theorem meets_codeOf (job : Job) : Meets trusted t (l.codeOf job) (Returns (CodeFits l job)) := by
  unfold codeOf
  split
  next hreason => exact Meets.returns_pure hreason
  next reason hreason =>
    refine Meets.bind (Meets.say (Q := fun _ => True) trivial) ?_ ?_
    · intro _ _
      refine Meets.bind (Meets.lift (Q := fun r => r = compile l.minifier l.config.settings job.module job.ids)
        rfl) ?_ ?_
      · intro code hcode
        exact Meets.returns_pure ⟨by simp [hreason], hcode.symm⟩
      · rintro e - c ⟨⟩
    · rintro e - c ⟨⟩

theorem steady_artifactOf {sure : Prop} (job : Job) (code : Option ModuleCode) :
    Steady trusted t sure (l.artifactOf job code) := by
  unfold artifactOf
  refine Steady.bind ?_ fun _ => (Steady.lift _).bind fun _ => Steady.pure _
  cases code with
  | none => exact (Steady.say _).bind fun _ => Steady.lift _
  | some code => exact Steady.pure _

theorem meets_artifactOf {job : Job} {code : Option ModuleCode} (hcode : CodeFits l job code) :
    Meets trusted t (l.artifactOf job code) (Returns fun e => e.1 = job.place ∧ IsMade l job e.2) := by
  unfold artifactOf
  have hfirst : Meets trusted t (code.elim (l.reusedCode job) pure)
      (Returns fun c => l.codeFor job = .ok c) := by
    unfold codeFor
    cases code with
    | none =>
      have hreason : job.reason = none := hcode
      rw [hreason]
      unfold reusedCode
      refine Meets.bind (Meets.say (Q := fun _ => True) trivial) ?_ ?_
      · intro _ _
        exact Meets.lift fun c hc => hc
      · rintro e - c ⟨⟩
    | some code =>
      rcases hcode with ⟨hreason, hcompile⟩
      cases hr : job.reason with
      | none => exact absurd hr hreason
      | some reason => exact Meets.returns_pure hcompile
  refine hfirst.returns_bind ?_
  intro c hc
  refine Meets.bind (Meets.lift (Q := fun r => r = recordOf job) rfl) ?_ ?_
  · intro record hrecord
    exact Meets.returns_pure ⟨rfl, hrecord.symm, hc⟩
  · rintro e - a ⟨⟩

/-- The artifacts are made one by one, under the places of their modules. -/
theorem meets_make (jobs : List Job) :
    Meets trusted t (l.make jobs) (Returns fun r => ∃ made,
      List.Forall₂ (fun job e => e.1 = job.place ∧ IsMade l job e.2) jobs made ∧
        r.2 = Table.ofList made) := by
  unfold make
  refine (Meets.mapM fun job _ => meets_codeOf job).returns_bind ?_
  intro codes hcodes
  refine (Meets.mapM (P := fun e made => made.1 = e.1.place ∧ IsMade l e.1 made.2) ?_).returns_bind ?_
  · rintro ⟨job, code⟩ hmem
    exact meets_artifactOf (List.forall₂_zip hcodes hmem)
  · intro made hmade
    refine Meets.returns_pure ⟨made, ?_, rfl⟩
    have hjobs : (jobs.zip codes).map Prod.fst = jobs :=
      List.map_fst_zip (Nat.le_of_eq hcodes.length_eq)
    rw [← hjobs, List.forall₂_map_left_iff]
    exact hmade

end Jobs

/-! ## Bundles -/

/-- A bundle of a link consists of the artifacts of its modules. -/
structure BundleFits (l : Linker) (parts : List Partition) (made : Nat → Artifact) (p : Partition)
    (b : Bundle) : Prop where
  entry_mem : p.entry ∈ modulesOf parts
  bundle : b = ⟨(made p.entry).record, p.modules.map made, l.config.builtins, p.assembly, p.role,
    l.config.entryAlias⟩

/-- What a link has made: for each module of the bundles its artifact, and the bundles of these. -/
structure Linked (l : Linker) (g : ModuleGraph) (parts : List Partition) (made : Nat → Artifact)
    (output : LinkOutput) (kept : List Artifact) : Prop where
  partitioned : partition g l.config.plugin l.entries = .ok parts
  isMade : ∀ i ∈ modulesOf parts, ∃ job, plan l.cache g (assignIds g parts) i = some job ∧
    IsMade l job (made i)
  bundles : List.Forall₂ (BundleFits l parts made) parts output.bundles
  kept : ∀ a, a ∈ kept ↔ ∃ i ∈ modulesOf parts, a = made i

theorem meets_bundleOf {trusted : Path → Prop} {parts : List Partition} {table : Table Nat Artifact}
    {made : Nat → Artifact} (htable : ∀ i ∈ modulesOf parts, table.get? i = some (made i))
    (honly : ∀ i a, table.get? i = some a → i ∈ modulesOf parts) {p : Partition} (hp : p ∈ parts) :
    Meets trusted t (l.bundleOf table p) (Returns (BundleFits l parts made p)) := by
  unfold bundleOf
  cases hentry : table.get? p.entry with
  | none => exact Meets.returns_fail
  | some entry =>
    have hmem : p.entry ∈ modulesOf parts := honly _ _ hentry
    -- every module of the partition has an artifact, so none is left out
    have hmembers : p.modules.filterMap table.get? = p.modules.map made := by
      rw [← List.filterMap_eq_map]
      refine List.filterMap_congr ?_
      intro i hi
      exact htable i (mem_modulesOf.mpr ⟨p, hp, hi⟩)
    rw [htable _ hmem] at hentry
    cases hentry
    refine Meets.bind (Meets.say (Q := fun _ => True) trivial) ?_ ?_
    · intro _ _
      refine Meets.returns_pure ⟨hmem, ?_⟩
      rw [hmembers]
    · rintro e - b ⟨⟩

/-- The table of the artifacts of a link: there is one for each module of the bundles. -/
theorem exists_made {g : ModuleGraph} {parts : List Partition}
    (hparts : partition g l.config.plugin l.entries = .ok parts) {pairs : List (Nat × Artifact)}
    (h : List.Forall₂ (fun job e => e.1 = job.place ∧ IsMade l job e.2) (l.jobs g parts) pairs) :
    ∃ made : Nat → Artifact,
      (∀ i ∈ modulesOf parts, ∃ job, plan l.cache g (assignIds g parts) i = some job ∧ IsMade l job (made i)) ∧
      (∀ i ∈ modulesOf parts, (Table.ofList pairs).get? i = some (made i)) ∧
      (∀ e ∈ pairs, e.1 ∈ modulesOf parts ∧ e.2 = made e.1) := by
  -- every pair comes from the job for a module of the bundles
  have hpair : ∀ e ∈ pairs, ∃ i ∈ modulesOf parts, ∃ job,
      plan l.cache g (assignIds g parts) i = some job ∧ e.1 = i ∧ IsMade l job e.2 := by
    intro e he
    rcases exists_of_forall₂ h.flip he with ⟨job, hjob, hplace, hmade⟩
    rcases List.mem_filterMap.mp hjob with ⟨i, hi, hplan⟩
    rcases plan_eq_some hplan with ⟨m, -, rfl⟩
    exact ⟨i, hi, _, hplan, hplace, hmade⟩
  have hexists : ∀ i ∈ modulesOf parts, ∃ a, (Table.ofList pairs).get? i = some a ∧
      ∃ job, plan l.cache g (assignIds g parts) i = some job ∧ IsMade l job a := by
    intro i hi
    rcases ModuleGraph.exists_getElem?.mpr (lt_size_of_mem_partition hparts hi) with ⟨m, hm⟩
    obtain ⟨job, hplan⟩ : ∃ job, plan l.cache g (assignIds g parts) i = some job := by
      unfold plan
      rw [hm]
      exact ⟨_, rfl⟩
    have hjob := List.mem_filterMap.mpr ⟨i, hi, hplan⟩
    rcases exists_of_forall₂ h hjob with ⟨e, he, hplace, hmade⟩
    have hi' : e.1 = i := by
      rcases plan_eq_some hplan with ⟨m, -, rfl⟩
      exact hplace
    -- a place may be planned twice, but what is made for it is the same
    refine ⟨e.2, Table.get?_ofList_of_forall he ?_ ?_, job, hplan, hmade⟩
    · rw [hi']
      exact Std.ReflOrd.compare_self
    · intro e' he' hkey
      rcases hpair e' he' with ⟨i', -, job', hplan', hplace', hmade'⟩
      have hsame : i = i' := (Std.LawfulEqOrd.eq_of_compare hkey).trans hplace'
      rw [← hsame, hplan] at hplan'
      cases hplan'
      exact hmade'.unique hmade
  refine ⟨fun i => ((Table.ofList pairs).get? i).getD default, ?_, ?_, ?_⟩
  · intro i hi
    rcases hexists i hi with ⟨a, hget, job, hplan, hmade⟩
    refine ⟨job, hplan, ?_⟩
    simp only [hget, Option.getD_some]
    exact hmade
  · intro i hi
    rcases hexists i hi with ⟨a, hget, -⟩
    simp only [hget, Option.getD_some]
  · intro e he
    rcases hpair e he with ⟨i, hi, job, hplan, hplace, hmade⟩
    rcases hexists i hi with ⟨a, hget, job', hplan', hmade'⟩
    rw [hplan] at hplan'
    cases hplan'
    simp only [hplace, hget, Option.getD_some]
    exact ⟨hi, hmade.unique hmade'⟩

/-- The steps of a link that succeeds: a graph, its bundles, the code and the artifacts of their modules. -/
theorem steps_of_link {output : LinkOutput} (h : (l.link t).1 = .ok output) :
    ∃ g s parts s₁ codes table s₂ bundles s₃, (l.graph t).runIn l.session = (.ok g, s) ∧
      partition g l.config.plugin l.entries = .ok parts ∧
      (l.make (l.jobs g parts)).runIn s₁ = (.ok (codes, table), s₂) ∧
      (parts.mapM (l.bundleOf table)).runIn s₂ = (.ok bundles, s₃) ∧
      output.bundles = bundles ∧ output.transformed = codes.countP Option.isSome ∧
      output.reused = codes.countP Option.isNone ∧
      (l.link t).2.1.cache = l.cache.replace table.values := by
  have hrun : ∃ kept s, (l.run t).runIn l.session = (.ok (output, kept), s) ∧
      (l.link t).2.1.cache = l.cache.replace kept := by
    unfold link at h ⊢
    rcases hr : (l.run t).runIn l.session with ⟨_ | ⟨out, kept⟩, s⟩
    · rw [hr] at h
      cases h
    · rw [hr] at h
      cases h
      exact ⟨kept, s, rfl, rfl⟩
  rcases hrun with ⟨kept, s, hrun, hcache⟩
  -- the parts of the run, one after the other: all of them have succeeded
  unfold run at hrun
  rcases exists_of_runIn_bind hrun with ⟨g, s₁, hgraph, hrest⟩
  rcases exists_of_runIn_bind hrest with ⟨-, s₂, -, hrest⟩
  rcases exists_of_runIn_bind hrest with ⟨status, s₃, -, hrest⟩
  rcases exists_of_runIn_bind hrest with ⟨parts, s₄, hparts, hrest⟩
  rw [runIn_lift] at hparts
  rcases exists_of_runIn_bind hrest with ⟨⟨codes, table⟩, s₅, hmake, hrest⟩
  rcases exists_of_runIn_bind hrest with ⟨bundles, s₆, hbundles, hrest⟩
  rcases exists_of_runIn_bind hrest with ⟨-, s₇, -, hrest⟩
  cases hrest
  exact ⟨g, s₁, parts, s₄, codes, table, s₅, bundles, s₆, hgraph, congrArg Prod.fst hparts, hmake, hbundles,
    rfl, rfl, rfl, hcache⟩

/-- What a link gives that succeeds, and what it leaves in the cache. -/
theorem link_cases {output : LinkOutput} (h : (l.link t).1 = .ok output) :
    ∃ g s parts made kept, (l.graph t).runIn l.session = (.ok g, s) ∧
      Linked l g parts made output kept ∧ (l.link t).2.1.cache = l.cache.replace kept := by
  obtain ⟨g, s, parts, s₁, codes, table, s₂, bundles, s₃, hgraph, hparts, hmake, hbundles, houtput, -, -, hcache⟩ :=
    steps_of_link h
  have hall : ∀ s : Session, Fits (fun _ => False) t s.manifests :=
    fun s => fits_of_forall_not (fun _ h => h) t s.manifests
  have hpairs := (meets_make (l.jobs g parts) s₁ (hall s₁)).1 _ (congrArg Prod.fst hmake)
  rcases hpairs with ⟨pairs, hforall, rfl⟩
  rcases exists_made hparts hforall with ⟨made, hmade, hget, hkeys⟩
  have honly : ∀ i a, (Table.ofList pairs).get? i = some a → i ∈ modulesOf parts := by
    intro i a hia
    rcases Table.get?_ofList_eq_some hia with ⟨e, he, hkey, -⟩
    rw [Std.LawfulEqOrd.eq_of_compare hkey]
    exact (hkeys e he).1
  have hmapM : Meets (fun _ => False) t (parts.mapM (l.bundleOf (Table.ofList pairs)))
      (Returns (List.Forall₂ (BundleFits l parts made) parts)) :=
    Meets.mapM fun p hp => meets_bundleOf hget honly hp
  have hfits := (hmapM s₂ (hall s₂)).1 _ (congrArg Prod.fst hbundles)
  rw [← houtput] at hfits
  refine ⟨g, s, parts, made, _, hgraph, ⟨hparts, hmade, hfits, ?_⟩, hcache⟩
  intro a
  constructor
  · intro ha
    rcases List.mem_map.mp ha with ⟨e, he, rfl⟩
    have hmem := Table.mem_of_mem_ofList he
    exact ⟨e.1, (hkeys e hmem).1, (hkeys e hmem).2⟩
  · rintro ⟨i, hi, rfl⟩
    exact Table.mem_values_of_get?_eq_some (hget i hi)

/-- The artifacts of the bundles are those of the modules, in their order. -/
theorem Linked.artifacts {g : ModuleGraph} {parts : List Partition} {made : Nat → Artifact}
    {output : LinkOutput} {kept : List Artifact} (h : Linked l g parts made output kept) :
    output.bundles.flatMap Bundle.artifacts = (modulesOf parts).map made := by
  have hbundles : ∀ {ps bs}, List.Forall₂ (BundleFits l parts made) ps bs →
      bs.flatMap Bundle.artifacts = (modulesOf ps).map made := by
    intro ps bs hfits
    induction hfits with
    | nil => rfl
    | cons hb _ ih => rw [List.flatMap_cons, ih, hb.bundle, modulesOf_cons, List.map_append]
  exact hbundles h.bundles

/-- What is known of an artifact of a link: it is that of a module, with its id and those of the modules
that it requires. -/
theorem Linked.record {g : ModuleGraph} {parts : List Partition} {made : Nat → Artifact}
    {output : LinkOutput} {kept : List Artifact} (h : Linked l g parts made output kept) {i : Nat}
    (hi : i ∈ modulesOf parts) : ∃ m, g.modules[i]? = some m ∧
      (assignIds g parts).get? i = some (made i).record.id ∧ (made i).record.file = m.file ∧
      (made i).record.dependencyMap = m.dependencies.filterMap (assignIds g parts).get? ∧
      (made i).record.dependencyPaths = m.dependencyPaths ∧ (made i).record.externals = m.externals ∧
      (made i).record.shims = m.shims := by
  rcases h.isMade i hi with ⟨job, hplan, hrecord, -⟩
  rcases plan_eq_some hplan with ⟨m, hm, rfl⟩
  rcases recordOf_eq_ok hrecord with ⟨hid, hfile, -, hmap, hpaths, hexternals, hshims⟩
  exact ⟨m, hm, hid, hfile, hmap, hpaths, hexternals, hshims⟩

/-- No two modules have artifacts of one file. -/
theorem Linked.eq_of_components {g : ModuleGraph} {parts : List Partition} {made : Nat → Artifact}
    {output : LinkOutput} {kept : List Artifact} (h : Linked l g parts made output kept)
    (hdistinct : g.Distinct) {i j : Nat} (hi : i ∈ modulesOf parts) (hj : j ∈ modulesOf parts)
    (heq : (made i).record.file.components = (made j).record.file.components) : i = j := by
  rcases h.record hi with ⟨m, hm, -, hfile, -⟩
  rcases h.record hj with ⟨m', hm', -, hfile', -⟩
  rw [hfile, hfile'] at heq
  exact hdistinct.eq_of_components hm hm' heq

/-- The id that a specifier stands for is that of the module of the graph to which it leads. -/
theorem Linked.get?_dependencyMap {g : ModuleGraph} {parts : List Partition} {made : Nat → Artifact}
    {output : LinkOutput} {kept : List Artifact} (h : Linked l g parts made output kept)
    (hdiscovered : Discovery.Discovered (l.discovery t) l.entries g) {i : Nat} (hi : i ∈ modulesOf parts)
    (hordered : (made i).record.dependencyPaths.Ordered) (s : String) :
    (made i).record.dependencyMap.get? s =
      (((made i).record.dependencyPaths.get? s).bind g.lookup).bind (assignIds g parts).get? := by
  rcases h.record hi with ⟨m, hm, -, -, hmap, hpaths, -⟩
  rw [hpaths] at hordered ⊢
  rw [hmap, hdiscovered.wired m (List.mem_of_getElem? hm),
    Table.get?_filterMap (Table.ordered_filterMap hordered _), Table.get?_filterMap hordered]

/-! ## Steady links -/

section Steady

variable {trusted : Path → Prop}

theorem steady_graph : Steady trusted t (∀ d, trusted d) (l.graph t) := by
  unfold graph
  refine (Steady.forM fun line => Steady.say line).bind ?_
  intro _
  exact Discovery.steady_build (d := l.discovery t) l.entries

theorem steady_statusOf {sure : Prop} (g : ModuleGraph) : Steady trusted t sure (l.statusOf g) := by
  unfold statusOf
  split
  · unfold reportCycles
    exact (Steady.forM fun cycle => Steady.say _).bind fun _ => Steady.pure _
  · exact Steady.pure _

theorem steady_make {sure : Prop} (jobs : List Job) : Steady trusted t sure (l.make jobs) := by
  unfold make
  refine (Steady.mapM fun job => steady_codeOf job).bind ?_
  intro codes
  refine (Steady.mapM fun (e : Job × Option ModuleCode) => steady_artifactOf e.1 e.2).bind ?_
  intro made
  exact Steady.pure _

theorem steady_bundleOf {sure : Prop} (table : Table Nat Artifact) (p : Partition) :
    Steady trusted t sure (l.bundleOf table p) := by
  unfold bundleOf
  split
  · exact Steady.fail _
  · exact (Steady.say _).bind fun _ => Steady.pure _

/-- What a link gives does not depend on what is remembered. -/
theorem steady_run : Steady trusted t (∀ d, trusted d) (l.run t) := by
  unfold run
  refine steady_graph.bind fun g => ?_
  refine (Steady.say _).bind fun _ => ?_
  refine (steady_statusOf g).bind fun status => ?_
  refine (Steady.lift _).bind fun parts => ?_
  refine (steady_make _).bind fun made => ?_
  refine (Steady.mapM fun p => steady_bundleOf _ p).bind fun bundles => ?_
  exact (Steady.forM fun line => Steady.say line).bind fun _ => Steady.pure _

end Steady

end Relink.Linker
