import Relink.Proofs.Failures
import Relink.Proofs.Kept

/-!
# What a cache recalls

If the text of a file has not changed since a link, a cache with the artifact of this link gives back what the
module required then. That is what a search without a cache finds now, as long as what the record says still
holds: specifiers are classified, and files are found, as they were.

* `Discovery.Confirms` — what is said of a module holds.
* `exists_analysed_iff` — an analysis finds what is said of a module if and only if this holds.
* `Cache.Written` — the caches that links leave, whatever the linkers, and whatever the trees.
* `Cache.Written.foundIn` — what is in such a cache was found without a cache, in one of the links.
* `recalled_iff_confirms` — when a recalled module requires what a search without a cache finds.
* `exists_recalled_ne_found` — it does not always do so.
-/

namespace Relink

open Linking

variable {trusted : Path → Prop}

/-! ## What an analysis finds -/

/-- A set in order whose names meet a condition. -/
structure NameSet.Within (names : NameSet) (P : String → Prop) : Prop where
  ordered : names.table.Ordered
  mem : ∀ s, names.contains s = true → P s

theorem NameSet.within_empty (P : String → Prop) : NameSet.empty.Within P where
  ordered := Table.ordered_empty
  mem := by
    intro s h
    simp at h

theorem NameSet.Within.mono {names : NameSet} {P P' : String → Prop} (h : names.Within P)
    (hP : ∀ s, P s → P' s) : names.Within P' :=
  ⟨h.ordered, fun s hs => hP s (h.mem s hs)⟩

theorem NameSet.Within.insert {names : NameSet} {P : String → Prop} (h : names.Within P) {x : String} (hx : P x) :
    (names.insert x).Within P where
  ordered := Table.ordered_insert h.ordered x ()
  mem := by
    intro s hs
    rw [NameSet.contains_insert, Bool.or_eq_true] at hs
    rcases hs with heq | hold
    · exact beq_iff_eq.mp heq ▸ hx
    · exact h.mem s hold

/-- What a module requires. -/
def Module.requirements (m : Module) : Discovery.Requirements := ⟨m.dependencyPaths, m.externals, m.shims⟩

/-- What a record says that a module requires. -/
def ModuleRecord.requirements (r : ModuleRecord) : Discovery.Requirements := ⟨r.dependencyPaths, r.externals, r.shims⟩

namespace Discovery

variable {d : Discovery} {file : Path}

/-- The tables of what is required are in order. -/
structure Requirements.Tidy (r : Requirements) : Prop where
  paths : r.paths.Ordered
  externals : r.externals.table.Ordered
  shims : r.shims.table.Ordered

/-- A path under which a file is found, if the manifests that count are trusted. -/
def LeadsTo (d : Discovery) (trusted : Path → Prop) (file : Path) (s : String) (p : Path) : Prop :=
  (∀ q, trusted q) → (d.resolver.resolve s file).outcome = .ok p

/-- Only some specifiers have been taken up, and files where they are found. -/
structure OnlyTaken (d : Discovery) (trusted : Path → Prop) (file : Path) (done : List String)
    (r : Requirements) : Prop where
  paths : ∀ s p, r.paths.get? s = some p → s ∈ done ∧ d.LeadsTo trusted file s p
  externals : r.externals.Within (· ∈ done)
  shims : r.shims.Within (· ∈ done)

theorem onlyTaken_nothing : OnlyTaken d trusted file [] ⟨Table.empty, .empty, .empty⟩ where
  paths := by
    intro s p h
    simp at h
  externals := NameSet.within_empty _
  shims := NameSet.within_empty _

theorem OnlyTaken.mono {done done' : List String} {r : Requirements} (h : OnlyTaken d trusted file done r)
    (hsub : ∀ s ∈ done, s ∈ done') : OnlyTaken d trusted file done' r where
  paths := fun s p hs => ⟨hsub s (h.paths s p hs).1, (h.paths s p hs).2⟩
  externals := h.externals.mono hsub
  shims := h.shims.mono hsub

theorem OnlyTaken.path_insert {done : List String} {r : Requirements} (h : OnlyTaken d trusted file done r)
    {specifier : String} (hmem : specifier ∈ done) {p : Path} (hp : d.LeadsTo trusted file specifier p) :
    OnlyTaken d trusted file done { r with paths := r.paths.insert specifier p } where
  paths := by
    intro s q hget
    simp only [Table.get?_insert] at hget
    split at hget
    next heq =>
      rw [Std.LawfulEqOrd.eq_of_compare heq]
      cases hget
      exact ⟨hmem, hp⟩
    next => exact h.paths s q hget
  externals := h.externals
  shims := h.shims

theorem meets_require_only {done : List String} {r : Requirements} (h : OnlyTaken d trusted file done r)
    (specifier : String) : Meets trusted d.resolver.tree (d.require file r specifier)
      (Returns (OnlyTaken d trusted file (done ++ [specifier]))) := by
  have hmore : OnlyTaken d trusted file (done ++ [specifier]) r := h.mono fun s hs => List.mem_append_left _ hs
  have hmem : specifier ∈ done ++ [specifier] := by simp
  unfold require
  split
  · exact Meets.returns_pure ⟨hmore.paths, hmore.externals.insert hmem, hmore.shims⟩
  · exact Meets.returns_pure ⟨hmore.paths, hmore.externals, hmore.shims.insert hmem⟩
  · refine Meets.bind (Resolver.steady_resolve specifier file) ?_ ?_
    · intro p hp
      exact Meets.returns_pure (hmore.path_insert hmem fun htrusted => (hp htrusted).symm)
    · rintro e - r' ⟨⟩

/-- What an analysis finds is what the specifiers of a module stand for, and nothing else. -/
structure OnlyFound (d : Discovery) (trusted : Path → Prop) (m m' : Module) : Prop where
  paths : ∀ s p, m'.dependencyPaths.get? s = some p → m.Requires s ∧ d.LeadsTo trusted m.file s p
  externals : m'.externals.Within m.Requires
  shims : m'.shims.Within m.Requires

theorem meets_analysed_only {m : Module} (h : Fresh file m) :
    Meets trusted d.resolver.tree (d.analysed m) (Returns (OnlyFound d trusted m)) := by
  refine meets_analysed_of onlyTaken_nothing (fun done r specifier hr => meets_require_only hr specifier) ?_ ?_
  · intro summary r hjs hsummary hr
    -- the specifiers of the script are those of the module
    have hrequires : ∀ s ∈ summary.dependencies, m.Requires s := fun s hs => ⟨hjs, summary, hsummary, hs⟩
    refine ⟨?_, hr.externals.mono hrequires, hr.shims.mono hrequires⟩
    exact fun s p hs => ⟨hrequires s (hr.paths s p hs).1, (hr.paths s p hs).2⟩
  · intro _
    refine ⟨?_, ?_, ?_⟩
    · intro s p hs
      rw [h.paths] at hs
      simp at hs
    · rw [h.externals]
      exact NameSet.within_empty _
    · rw [h.shims]
      exact NameSet.within_empty _

/-! ## What a record says -/

/-- What is said of a module holds: its script can be read, only its specifiers are taken up, each of them as what
it is classified as, and it stands for the file that is found for it. -/
structure Confirms (d : Discovery) (m : Module) (r : Requirements) : Prop where
  readable : m.kind = .js → ∃ summary, summaryOf m.file m.source = .ok summary
  resolved : ∀ s, m.Requires s → d.policy.classify s = .internal →
    ∃ p, (d.resolver.resolve s m.file).outcome = .ok p
  paths : ∀ s p, r.paths.get? s = some p ↔
    m.Requires s ∧ d.policy.classify s = .internal ∧ (d.resolver.resolve s m.file).outcome = .ok p
  externals : ∀ s, r.externals.contains s = true ↔ m.Requires s ∧ d.policy.classify s = .external
  shims : ∀ s, r.shims.contains s = true ↔ m.Requires s ∧ d.policy.classify s = .shim

/-- Only one thing that can be said of a module holds. -/
theorem Confirms.unique {m : Module} {r r' : Requirements} (h : d.Confirms m r) (h' : d.Confirms m r') (hr : r.Tidy)
    (hr' : r'.Tidy) : r = r' := by
  rcases r with ⟨paths, externals, shims⟩
  rcases r' with ⟨paths', externals', shims'⟩
  have hpaths : paths = paths' := by
    refine Table.eq_of_get? hr.paths hr'.paths fun s => Option.ext fun p => ?_
    rw [h.paths s p, h'.paths s p]
  have hexternals : externals = externals' :=
    NameSet.eq_of_contains hr.externals hr'.externals fun s => (h.externals s).trans (h'.externals s).symm
  have hshims : shims = shims' :=
    NameSet.eq_of_contains hr.shims hr'.shims fun s => (h.shims s).trans (h'.shims s).symm
  rw [hpaths, hexternals, hshims]

theorem tidy_of_analysed {m m' : Module} (h : Fresh file m) {s : Session}
    (hm' : ((d.analysed m).runIn s).1 = .ok m') : m'.requirements.Tidy := by
  have hfits : Fits (fun _ => False) d.resolver.tree s.manifests := fits_of_forall_not (fun _ h => h) _ _
  have honly := (meets_analysed_only h s hfits).1 m' hm'
  exact ⟨((meets_analysed h s hfits).1 m' hm').2.ordered, honly.externals.ordered, honly.shims.ordered⟩

theorem readable_of_analysed {m m' : Module} (h : (d.analysed m).outcome = .ok m') (hjs : m.kind = .js) :
    ∃ summary, summaryOf m.file m.source = .ok summary := by
  cases hsummary : summaryOf m.file m.source with
  | ok summary => exact ⟨summary, rfl⟩
  | error e =>
    unfold analysed outcome at h
    rw [if_pos (by simpa using hjs), runIn_bind, hsummary] at h
    cases h

/-- A specifier of a module is taken up as what it is classified as. -/
theorem Analysed.taken_up {policy : Policy} {m : Module} (h : Analysed policy m) {s : String} (hs : m.Requires s) :
    (policy.classify s = .internal → ∃ p, m.dependencyPaths.get? s = some p) ∧
      (policy.classify s = .external → m.externals.contains s = true) ∧
      (policy.classify s = .shim → m.shims.contains s = true) := by
  rcases h.taken s hs with hpath | hexternal | hshim
  · obtain ⟨p, hp⟩ := Option.isSome_iff_exists.mp hpath
    simp [h.internal s p hp, hp]
  · simp [h.external s hexternal, hexternal]
  · simp [h.shim s hshim, hshim]

/-- What an analysis finds holds. -/
theorem confirms_of_analysed {m m' : Module} (h : Fresh file m) (hm' : (d.analysed m).outcome = .ok m') :
    d.Confirms m m'.requirements := by
  have honly : OnlyFound d (fun _ => True) m m' := (meets_analysed_only h).outcome m' hm'
  have hfits : Fits (fun _ => True) d.resolver.tree Table.empty := fits_empty _ _
  have hpolicy := ((meets_analysed h ⟨Table.empty, []⟩ hfits).1 m' hm').2
  have hresembles := ((meets_analysed_resembles h ⟨Table.empty, []⟩ hfits).1 m' hm').1
  have hrequires : ∀ s, m.Requires s → m'.Requires s := by
    intro s hs
    unfold Module.Requires at hs ⊢
    rwa [hresembles.kind, hresembles.file, hresembles.source]
  have hfound : ∀ s p, m'.dependencyPaths.get? s = some p → (d.resolver.resolve s m.file).outcome = .ok p :=
    fun s p hp => (honly.paths s p hp).2 fun _ => trivial
  refine ⟨readable_of_analysed hm', ?_, ?_, ?_, ?_⟩
  · intro s hs hclass
    obtain ⟨p, hp⟩ := (hpolicy.taken_up (hrequires s hs)).1 hclass
    exact ⟨p, hfound s p hp⟩
  · intro s p
    refine ⟨fun hp => ⟨(honly.paths s p hp).1, hpolicy.internal s p hp, hfound s p hp⟩, ?_⟩
    rintro ⟨hs, hclass, hp⟩
    obtain ⟨p', hp'⟩ := (hpolicy.taken_up (hrequires s hs)).1 hclass
    cases hp.symm.trans (hfound s p' hp')
    exact hp'
  · intro s
    refine ⟨fun hs => ⟨honly.externals.mem s hs, hpolicy.external s hs⟩, ?_⟩
    rintro ⟨hs, hclass⟩
    exact (hpolicy.taken_up (hrequires s hs)).2.1 hclass
  · intro s
    refine ⟨fun hs => ⟨honly.shims.mem s hs, hpolicy.shim s hs⟩, ?_⟩
    rintro ⟨hs, hclass⟩
    exact (hpolicy.taken_up (hrequires s hs)).2.2 hclass

/-- An analysis does not fail if the script can be read, and files are found for its specifiers. -/
theorem exists_analysed {m : Module} {r : Requirements} (h : d.Confirms m r) :
    ∃ m', (d.analysed m).outcome = .ok m' := by
  have hfails : Meets (fun _ => True) d.resolver.tree (d.analysed m) (Fails fun _ => False) := by
    unfold analysed
    split
    next hjs =>
      obtain ⟨summary, hsummary⟩ := h.readable (by simpa using hjs)
      rw [hsummary]
      have hrequires : ∀ s ∈ summary.dependencies, m.Requires s :=
        fun s hs => ⟨by simpa using hjs, summary, hsummary, hs⟩
      refine (Meets.fails_pure (a := summary)).fails_bind_of (R := fun s => s = summary) (Meets.returns_pure rfl) ?_
      rintro _ rfl
      refine (Meets.fails_foldlM ?_ _).fails_bind fun r => Meets.fails_pure
      intro r s hs
      unfold require
      split
      · exact Meets.fails_pure
      · exact Meets.fails_pure
      next hclass =>
        -- a file is found, whatever is remembered
        obtain ⟨p, hp⟩ := h.resolved s (hrequires s hs) hclass
        refine Meets.fails_bind (Meets.mono (Resolver.steady_resolve s m.file) ?_) fun p => Meets.fails_pure
        intro result hresult e he
        rw [he, hp] at hresult
        cases hresult fun _ => trivial
    next => exact Meets.fails_pure
  cases houtcome : (d.analysed m).outcome with
  | ok m' => exact ⟨m', rfl⟩
  | error e => exact (hfails.outcome e houtcome).elim

/-- An analysis finds what is said of a module if and only if this holds. -/
theorem exists_analysed_iff {m : Module} (h : Fresh file m) {r : Requirements} (hr : r.Tidy) :
    (∃ m', (d.analysed m).outcome = .ok m' ∧ m'.requirements = r) ↔ d.Confirms m r := by
  constructor
  · rintro ⟨m', hm', rfl⟩
    exact confirms_of_analysed h hm'
  · intro hconfirms
    obtain ⟨m', hm'⟩ := exists_analysed hconfirms
    exact ⟨m', hm', (confirms_of_analysed h hm').unique hconfirms (tidy_of_analysed h hm') hr⟩

/-! ## With and without a cache -/

/-- The search without a cache. -/
def cold (d : Discovery) : Discovery := { d with cache := Cache.empty d.cache.settings }

/-- What the module of a file requires, if the search gives one in a session. -/
def required (d : Discovery) (s : Session) (file : Path) : Option Requirements :=
  ((d.module file).runIn s).1.toOption.map Module.requirements

/-- Without a cache, a file is opened and analysed. -/
theorem module_cold (file : Path) : d.cold.module file = d.opened file >>= d.analysed := by
  have hnone : d.cold.cache.get? file = none := rfl
  unfold module
  simp only [hnone, Option.filter_none]
  rfl

/-- A module that is found with a cache is found without it in the same session, or is recalled. -/
theorem found_or_recalled {s : Session} {m : Module} (h : ((d.module file).runIn s).1 = .ok m) :
    ((d.cold.module file).runIn s).1 = .ok m ∨
      ∃ a, d.cache.get? file = some a ∧ m.hash = a.record.hash ∧ m.requirements = a.record.requirements := by
  rw [module_cold, runIn_bind]
  unfold module at h
  rw [runIn_bind] at h
  rcases hopened : (d.opened file).runIn s with ⟨e | m₀, s₁⟩
  · rw [hopened] at h
    cases h
  · rw [hopened] at h
    simp only at h ⊢
    cases hfilter : (d.cache.get? file).filter fun a => a.record.hash == m₀.hash with
    | none =>
      rw [hfilter] at h
      exact Or.inl h
    | some a =>
      rw [hfilter] at h
      obtain ⟨hcached, hhash⟩ := Option.filter_eq_some_iff.mp hfilter
      cases h
      exact Or.inr ⟨a, hcached, (beq_iff_eq.mp hhash).symm, rfl⟩

end Discovery

/-! ## Caches that links write -/

namespace Linker

variable {l : Linker} {t : FileTree}

/-- A link finds out what a file requires, if its text has a given digest: it does so without a cache, in a session
that is true of the tree if what the linker remembers is. -/
def Finds (l : Linker) (t : FileTree) (file : Path) (hash : String) (r : Discovery.Requirements) : Prop :=
  ∃ s m, (Fits (fun _ => True) t l.manifests → Fits (fun _ => True) t s.manifests) ∧
    (((l.discovery t).cold.module file).runIn s).1 = .ok m ∧ m.hash = hash ∧ m.requirements = r

/-- What a record says was found in one of some links, for the same file and a text of the same digest. -/
def FoundIn (past : List (Linker × FileTree)) (file : Path) (r : ModuleRecord) : Prop :=
  ∃ e ∈ past, ∃ file' : Path, file'.components = file.components ∧ e.1.Finds e.2 file' r.hash r.requirements

/-- What a link finds out is in order. -/
theorem Finds.tidy {file : Path} {hash : String} {r : Discovery.Requirements} (h : l.Finds t file hash r) :
    r.Tidy := by
  obtain ⟨s, m, -, hm, -, rfl⟩ := h
  have hfits : Fits (fun _ => False) t s.manifests := fits_of_forall_not (fun _ h => h) _ _
  have hfresh := (Discovery.meets_opened (d := l.discovery t) file s hfits).1
  rw [Discovery.module_cold, runIn_bind] at hm
  rcases hopened : ((l.discovery t).opened file).runIn s with ⟨e | m₀, s₁⟩
  · rw [hopened] at hm
    cases hm
  · rw [hopened] at hm hfresh
    exact Discovery.tidy_of_analysed (hfresh m₀ rfl) hm

/-- What the modules of a link require is found, or the cache has it. -/
theorem found_or_recalled_of_graph {g : ModuleGraph} {s : Session} (h : (l.graph t).runIn l.session = (.ok g, s)) :
    ∀ m ∈ g.modules, l.Finds t m.file m.hash m.requirements ∨
      ∃ a, l.cache.get? m.file = some a ∧ m.hash = a.record.hash ∧ m.requirements = a.record.requirements := by
  -- a session is true of the tree if the linker is
  have hmodule : ∀ file, Meets (fun _ => Fits (fun _ => True) t l.manifests) t ((l.discovery t).module file)
      (Returns fun m => m.file = file ∧ (l.Finds t m.file m.hash m.requirements ∨
        ∃ a, l.cache.get? m.file = some a ∧ m.hash = a.record.hash ∧ m.requirements = a.record.requirements)) := by
    intro file s hs
    obtain ⟨hfile, hfits⟩ := Discovery.meets_module_file (d := l.discovery t) file s hs
    refine ⟨fun m hm => ⟨hfile m hm, ?_⟩, hfits⟩
    rw [hfile m hm]
    rcases Discovery.found_or_recalled hm with hfound | hrecalled
    · exact Or.inl ⟨s, m, fun hl d manifest _ hget => hs d manifest hl hget, hfound, rfl, rfl⟩
    · exact Or.inr hrecalled
  have hstart : Fits (fun _ => Fits (fun _ => True) t l.manifests) t l.session.manifests :=
    fun d manifest hl hget => hl d manifest trivial hget
  have hgraph := (meets_graph hmodule fun _ _ h => h) l.session hstart
  exact (hgraph.1 g (congrArg Prod.fst h)).2

end Linker

/-- A cache that links leave behind, with the links, the last one first. Each of them is of a linker with the cache
that the one before has left, and in a tree of its own. -/
inductive Cache.Written : Cache → List (Linker × FileTree) → Prop
  | empty (settings : CodeSettings) : Written (Cache.empty settings) []
  | link {past : List (Linker × FileTree)} {l : Linker} {t : FileTree} {output : LinkOutput}
      (h : Written l.cache past) (hlink : (l.link t).1 = .ok output) : Written (l.link t).2.1.cache ((l, t) :: past)

open Linker in
/-- Whatever is in a cache was found in one of the links. -/
theorem Cache.Written.foundIn {past : List (Linker × FileTree)} {c : Cache} (h : c.Written past) {file : Path}
    {a : Artifact} (ha : c.get? file = some a) : FoundIn past file a.record := by
  induction h generalizing file a with
  | empty => cases ha
  | @link past l t output h hlink ih =>
    obtain ⟨g, s, parts, made, kept, hgraph, hlinked, hafter⟩ := link_cases hlink
    rw [hafter] at ha
    obtain ⟨hkept, hfile⟩ := get?_replace ha
    obtain ⟨i, hi, rfl⟩ := (hlinked.kept a).mp hkept
    obtain ⟨job, hplan, hrecord, -⟩ := hlinked.isMade i hi
    obtain ⟨m, hm, rfl⟩ := plan_eq_some hplan
    obtain ⟨-, hmodule, hhash, -, hpaths, hexternals, hshims⟩ := recordOf_eq_ok hrecord
    have hrequirements : (made i).record.requirements = m.requirements := by
      unfold ModuleRecord.requirements Module.requirements
      rw [hpaths, hexternals, hshims]
    rw [hmodule] at hfile
    rcases found_or_recalled_of_graph hgraph m (List.mem_of_getElem? hm) with hfound | ⟨a₀, ha₀, hhash₀, hsame⟩
    · refine ⟨(l, t), List.mem_cons_self, m.file, hfile, ?_⟩
      rw [hhash, hrequirements]
      exact hfound
    · -- what is recalled goes back to a link before
      obtain ⟨e, he, file₀, hfile₀, hfound⟩ := ih ha₀
      refine ⟨e, List.mem_cons_of_mem _ he, file₀, hfile₀.trans hfile, ?_⟩
      rw [hhash, hrequirements, hhash₀, hsame]
      exact hfound

/-! ## What is recalled, and what is found -/

namespace Discovery

variable {d : Discovery} {file : Path} {s : Session}

/-- In a session that is true of the tree, a file is opened as when nothing is remembered. -/
theorem runIn_opened (hs : Fits (fun _ => True) d.resolver.tree s.manifests) (file : Path) :
    ∃ s₁, (d.opened file).runIn s = ((d.opened file).outcome, s₁) ∧
      Fits (fun _ => True) d.resolver.tree s₁.manifests := by
  obtain ⟨hopened, hfits⟩ := steady_opened (d := d) file s hs
  exact ⟨((d.opened file).runIn s).2, Prod.ext (hopened fun _ _ => trivial) rfl, hfits⟩

/-- A file that cannot be opened gives no module, with a cache or without it. -/
theorem required_of_opened_eq_error (hs : Fits (fun _ => True) d.resolver.tree s.manifests) {e : Failure}
    (h : (d.opened file).outcome = .error e) : d.required s file = none ∧ d.cold.required s file = none := by
  obtain ⟨s₁, hopened, -⟩ := runIn_opened hs file
  rw [h] at hopened
  unfold required
  rw [module_cold]
  unfold module
  rw [runIn_bind, runIn_bind, hopened]
  exact ⟨rfl, rfl⟩

/-- A module whose text has the digest of an artifact in the cache requires what the artifact has. -/
theorem required_of_opened (hs : Fits (fun _ => True) d.resolver.tree s.manifests) {m : Module} {a : Artifact}
    (h : (d.opened file).outcome = .ok m) (ha : d.cache.get? file = some a) (hhash : a.record.hash = m.hash) :
    d.required s file = some a.record.requirements := by
  obtain ⟨s₁, hopened, -⟩ := runIn_opened hs file
  have hfilter : (d.cache.get? file).filter (fun a => a.record.hash == m.hash) = some a :=
    Option.filter_eq_some_iff.mpr ⟨ha, beq_iff_eq.mpr hhash⟩
  rw [h] at hopened
  unfold required module
  rw [runIn_bind, hopened]
  simp only [hfilter]
  rfl

/-- Without a cache, a module requires what an analysis finds. -/
theorem required_cold_of_opened (hs : Fits (fun _ => True) d.resolver.tree s.manifests) {m : Module}
    (h : (d.opened file).outcome = .ok m) :
    d.cold.required s file = (d.analysed m).outcome.toOption.map Module.requirements := by
  obtain ⟨s₁, hopened, hfits⟩ := runIn_opened hs file
  rw [h] at hopened
  have hanalysed := (steady_analysed (d := d) m s₁ hfits).1 fun _ => trivial
  unfold required
  rw [module_cold, runIn_bind, hopened]
  simp only [hanalysed]

end Discovery

open Discovery in
/-- If the text of a file has the digest that the cache has for it, what is recalled was found in one of the links
that have written the cache. It is what a search without a cache finds now, if and only if it holds now. A file that
cannot be opened gives no module in either case. -/
theorem recalled_iff_confirms {d : Discovery} {past : List (Linker × FileTree)} (hcache : d.cache.Written past)
    {file : Path} {a : Artifact} (ha : d.cache.get? file = some a) {source : String}
    (hsource : (d.sourceOf file).outcome = .ok source) (hhash : Digest.ofText source = a.record.hash) {s : Session}
    (hs : Fits (fun _ => True) d.resolver.tree s.manifests) :
    Linker.FoundIn past file a.record ∧
      (∀ m, (d.opened file).outcome = .ok m → d.required s file = some a.record.requirements) ∧
      (∀ e, (d.opened file).outcome = .error e → d.required s file = none ∧ d.cold.required s file = none) ∧
      (d.required s file = d.cold.required s file ↔
        ∀ m, (d.opened file).outcome = .ok m → d.Confirms m a.record.requirements) := by
  have hfound := hcache.foundIn ha
  have htidy : a.record.requirements.Tidy := by
    obtain ⟨e, -, file', -, hfinds⟩ := hfound
    exact hfinds.tidy
  have hhash_of_opened : ∀ m, (d.opened file).outcome = .ok m → a.record.hash = m.hash := by
    intro m hm
    obtain ⟨kind, source', -, hsource', -, hm'⟩ := exists_source hm
    cases hsource.symm.trans hsource'
    rw [← hhash, hm']
  have hrecalled : ∀ m, (d.opened file).outcome = .ok m → d.required s file = some a.record.requirements :=
    fun m hm => required_of_opened hs hm ha (hhash_of_opened m hm)
  refine ⟨hfound, hrecalled, fun e he => required_of_opened_eq_error hs he, ?_⟩
  cases hopened : (d.opened file).outcome with
  | error e =>
    obtain ⟨hwarm, hcold⟩ := required_of_opened_eq_error hs hopened
    rw [hwarm, hcold]
    refine ⟨?_, fun _ => rfl⟩
    rintro - m ⟨⟩
  | ok m =>
    have hfresh : Fresh file m := (meets_opened file ⟨Table.empty, []⟩ (fits_empty (fun _ => True) _)).1 m hopened
    rw [hrecalled m hopened, required_cold_of_opened hs hopened]
    constructor
    · rintro hsame _ ⟨⟩
      obtain ⟨m', hm', hrequirements⟩ := Option.map_eq_some_iff.mp hsame.symm
      refine (exists_analysed_iff hfresh htidy).mp ⟨m', ?_, hrequirements⟩
      cases houtcome : (d.analysed m).outcome with
      | error e =>
        rw [houtcome] at hm'
        cases hm'
      | ok m'' =>
        rw [houtcome] at hm'
        cases hm'
        rfl
    · intro hconfirms
      obtain ⟨m', hm', hrequirements⟩ := (exists_analysed_iff hfresh htidy).mpr (hconfirms m rfl)
      rw [hm', ← hrequirements]
      rfl

/-- A script that requires a file without saying of which kind this is, and a file of JSON. -/
def jsonOnly : FileTree :=
  .ofTexts ["work"] [["work"], ["work", "src"]] [
    (["work", "src", "main.js"], "require(\"./a\");\n"),
    (["work", "src", "a.json"], "1\n")]

/-- The same with a script of that name, which comes before a file of JSON. -/
def scriptBeside : FileTree :=
  jsonOnly.put ["work", "src", "a.js"] (.file "2;\n".toUTF8)

/-- A configuration for one script in a base. -/
def mainConfig : Config :=
  { Config.default with entries := [⟨"src/main.js"⟩], bases := [⟨"src"⟩], minify := false }

/-- The file of the script. -/
def mainFile : Path := ⟨"/work/src/main.js"⟩

/-- A cache that a link has written, and the text of a script that has not changed since. What is recalled is not
what is found now, as a file has been added. -/
theorem exists_run_of_scriptBeside : ∃ (l l' : Linker) (a : Artifact) (source : String),
    Linker.ofConfig jsonOnly mainConfig Minifier.unchanged (fun _ => false) = .ok l ∧
      l' = (l.link jsonOnly).2.1 ∧ l'.cache.Written [(l, jsonOnly)] ∧
      l'.cache.get? mainFile = some a ∧
      ((l'.discovery scriptBeside).sourceOf mainFile).outcome = .ok source ∧
      Digest.ofText source = a.record.hash ∧
      ((l'.discovery scriptBeside).required ⟨Table.empty, []⟩ mainFile).map (·.paths) ≠
        ((l'.discovery scriptBeside).cold.required ⟨Table.empty, []⟩ mainFile).map (·.paths) := by
  have hcheck : ((Linker.ofConfig jsonOnly mainConfig Minifier.unchanged fun _ => false).toOption.any fun l =>
      (l.link jsonOnly).1.toOption.isSome &&
        ((l.link jsonOnly).2.1.cache.get? mainFile).any fun a =>
          (((l.link jsonOnly).2.1.discovery scriptBeside).sourceOf mainFile).outcome.toOption.any fun source =>
            Digest.ofText source == a.record.hash &&
              (((l.link jsonOnly).2.1.discovery scriptBeside).required ⟨Table.empty, []⟩ mainFile).map (·.paths) !=
                (((l.link jsonOnly).2.1.discovery scriptBeside).cold.required ⟨Table.empty, []⟩ mainFile).map
                  (·.paths)) = true := by
    decide +kernel
  obtain ⟨l, hl, hcheck⟩ := exists_of_any hcheck
  obtain ⟨hok, hcheck⟩ := Bool.and_eq_true_iff.mp hcheck
  obtain ⟨a, ha, hcheck⟩ := (Option.any_eq_true _ _).mp hcheck
  obtain ⟨source, hsource, hcheck⟩ := exists_of_any hcheck
  obtain ⟨hhash, hne⟩ := Bool.and_eq_true_iff.mp hcheck
  refine ⟨l, _, a, source, hl, rfl, ?_, ha, hsource, beq_iff_eq.mp hhash, bne_iff_ne.mp hne⟩
  -- a new linker has an empty cache
  have hstart : l.cache.Written [] := by
    obtain ⟨-, -, -, -, policy, -, rfl⟩ := Linker.ofConfig_eq_ok.mp hl
    exact Cache.Written.empty mainConfig.settings
  cases hlink : (l.link jsonOnly).1 with
  | error e =>
    rw [hlink] at hok
    cases hok
  | ok output => exact hstart.link hlink

/-- A file that has been added comes to be meant, so what is recalled of the script does not hold any more. -/
theorem recalled_iff_confirms_of_scriptBeside : ∃ (l l' : Linker) (a : Artifact),
    Linker.ofConfig jsonOnly mainConfig Minifier.unchanged (fun _ => false) = .ok l ∧
      l' = (l.link jsonOnly).2.1 ∧ Linker.FoundIn [(l, jsonOnly)] mainFile a.record ∧
      ∃ m, ((l'.discovery scriptBeside).opened mainFile).outcome = .ok m ∧
        (l'.discovery scriptBeside).required ⟨Table.empty, []⟩ mainFile = some a.record.requirements ∧
        ¬(l'.discovery scriptBeside).Confirms m a.record.requirements := by
  obtain ⟨l, l', a, source, hl, hl', hwritten, ha, hsource, hhash, hne⟩ := exists_run_of_scriptBeside
  obtain ⟨hfound, hrecalled, -, hiff⟩ := recalled_iff_confirms (d := l'.discovery scriptBeside) hwritten ha hsource
    hhash (s := ⟨Table.empty, []⟩) (fits_empty _ _)
  have hnot : ¬∀ m, ((l'.discovery scriptBeside).opened mainFile).outcome = .ok m →
      (l'.discovery scriptBeside).Confirms m a.record.requirements :=
    fun hconfirms => hne (congrArg (Option.map (·.paths)) (hiff.mpr hconfirms))
  simp only [not_forall] at hnot
  obtain ⟨m, hm, hnot⟩ := hnot
  exact ⟨l, l', a, hl, hl', hfound, m, hm, hrecalled m hm, hnot⟩

/-- What is recalled is not always what a search without a cache finds: a file can have been added that comes before
the one that was found. -/
theorem exists_recalled_ne_found : ∃ (l l' : Linker) (a : Artifact) (source : String),
    Linker.ofConfig jsonOnly mainConfig Minifier.unchanged (fun _ => false) = .ok l ∧
      l' = (l.link jsonOnly).2.1 ∧ l'.cache.Written [(l, jsonOnly)] ∧
      l'.cache.get? mainFile = some a ∧
      ((l'.discovery scriptBeside).sourceOf mainFile).outcome = .ok source ∧
      Digest.ofText source = a.record.hash ∧
      (l'.discovery scriptBeside).required ⟨Table.empty, []⟩ mainFile ≠
        (l'.discovery scriptBeside).cold.required ⟨Table.empty, []⟩ mainFile := by
  obtain ⟨l, l', a, source, hl, hl', hwritten, ha, hsource, hhash, hne⟩ := exists_run_of_scriptBeside
  exact ⟨l, l', a, source, hl, hl', hwritten, ha, hsource, hhash, fun h => hne (congrArg (Option.map (·.paths)) h)⟩

end Relink
