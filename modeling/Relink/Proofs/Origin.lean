import Mathlib.Data.List.Dedup
import Relink.Proofs.Linked

/-!
# Where modules and their code come from

A module is made of the text of its file, with what an analysis finds or what is recalled from the cache.
Its code only depends on what it is made of.

* `Module.Resembles` — modules that are made of the same text in the same place.
* `compile_congr` — such modules have the same code.
* `opened_unique` — files whose texts have the same digest, in trees with the same manifests, give the same
  module.
* `Origin` — the ways in which a discovery comes to a module.
-/

namespace Relink

/-! ## Modules of the same text -/

/-- Modules of the same file and text, whose code is made of the same. -/
structure Module.Twin (m m' : Module) : Prop where
  file : m.file = m'.file
  basePath : m.basePath = m'.basePath
  kind : m.kind = m'.kind
  source : m.source = m'.source
  summary : m.summaryFor = m'.summaryFor

theorem Module.Twin.trans {m m' m'' : Module} (h : m.Twin m') (h' : m'.Twin m'') : m.Twin m'' :=
  ⟨h.file.trans h'.file, h.basePath.trans h'.basePath, h.kind.trans h'.kind, h.source.trans h'.source,
    h.summary.trans h'.summary⟩

/-- Modules of the same file and text, which may have been found to require different things. -/
structure Module.Resembles (m m' : Module) : Prop extends Module.Twin m m' where
  base : m.base = m'.base
  canonical : m.canonical = m'.canonical
  hash : m.hash = m'.hash

theorem Module.Resembles.refl (m : Module) : m.Resembles m := ⟨⟨rfl, rfl, rfl, rfl, rfl⟩, rfl, rfl, rfl⟩

theorem Module.Resembles.symm {m m' : Module} (h : m.Resembles m') : m'.Resembles m :=
  ⟨⟨h.file.symm, h.basePath.symm, h.kind.symm, h.source.symm, h.summary.symm⟩, h.base.symm, h.canonical.symm,
    h.hash.symm⟩

theorem Module.Resembles.trans {m m' m'' : Module} (h : m.Resembles m') (h' : m'.Resembles m'') :
    m.Resembles m'' :=
  ⟨h.toTwin.trans h'.toTwin, h.base.trans h'.base, h.canonical.trans h'.canonical, h.hash.trans h'.hash⟩

/-- The code of a module does not depend on what it requires, but on the ids that this is given. -/
theorem compile_congr {m m' : Module} (h : m.Twin m') (minifier : Minifier) (settings : CodeSettings)
    (ids : Table String ModuleId) : compile minifier settings m ids = compile minifier settings m' ids := by
  unfold compile
  rw [h.file, h.basePath, h.kind, h.source, h.summary]

theorem resembles_recalled (m : Module) (r : ModuleRecord) : (Discovery.Module.recalled m r).Resembles m :=
  ⟨⟨rfl, rfl, rfl, rfl, rfl⟩, rfl, rfl, rfl⟩

theorem resembles_with_dependencies (m : Module) (dependencies : Table String Nat) :
    Module.Resembles { m with dependencies := dependencies } m :=
  ⟨⟨rfl, rfl, rfl, rfl, rfl⟩, rfl, rfl, rfl⟩

/-- The module, if its file is spelled in another way. -/
def Module.spelled (m : Module) (file : Path) : Module :=
  { m with file := file, basePath := Path.slashed ((file.stripAncestor? m.base).getD file).text }

namespace Discovery

open Linking

variable {d : Discovery} {trusted : Path → Prop}

/-- An analysis adds to a module what it requires, and the summary that its code needs. -/
theorem meets_analysed_resembles {file : Path} {m : Module} (h : Fresh file m) :
    Meets trusted d.resolver.tree (d.analysed m) (Returns fun m' =>
      m'.Resembles m ∧ m'.changed = true ∧ m'.dependencies = m.dependencies) := by
  refine meets_analysed_of (I := fun _ _ => True) trivial ?_ ?_ ?_
  · intro _ r specifier _
    exact Meets.mono (steady_require m.file r specifier) fun _ _ _ _ => trivial
  · intro summary r hkind hsummary _
    refine ⟨⟨⟨rfl, rfl, rfl, rfl, ?_⟩, rfl, rfl, rfl⟩, h.changed, rfl⟩
    unfold Module.summaryFor
    rw [h.summary, hkind, hsummary]
    rfl
  · intro _
    exact ⟨Module.Resembles.refl m, h.changed, rfl⟩

/-! ## Texts -/

/-- The texts that can be the source of a file. -/
def texts (d : Discovery) : List String := d.resolver.tree.texts ++ d.overrides.values

theorem mem_texts_of_sourceOf {file : Path} {source : String} (h : (d.sourceOf file).outcome = .ok source) :
    source ∈ d.texts := by
  unfold sourceOf at h
  simp only at h
  -- the text is one with which the configuration overrides files, or that of a file
  split at h
  next name source' hfind =>
    have hsource : source' = source := by
      have hok : Except.ok source' = (Except.ok source : Except Failure String) := h
      exact Except.ok.inj hok
    rw [← hsource]
    exact List.mem_append_right _ (List.mem_map_of_mem (List.mem_of_find?_eq_some hfind))
  next =>
    split at h
    next source' hread =>
      rw [outcome_pure, Except.ok.injEq] at h
      rw [← h]
      exact List.mem_append_left _ (FileTree.mem_texts_of_read hread)
    next => cases h

/-- What is known of a module that is made of the text of a file. -/
theorem moduleOf_eq_ok {file : Path} {kind : ModuleKind} {source : String} {m : Module}
    (h : (d.moduleOf file kind source).outcome = .ok m) :
    ∃ l script, (d.resolver.locate file (kind == .js)).outcome = .ok l ∧
      (d.scriptOf file kind l source).outcome = .ok script ∧
      m = ⟨file, l.base, l.basePath, l.canonical, Digest.ofText source, true, kind, script, none,
        Table.empty, Table.empty, .empty, .empty⟩ := by
  unfold moduleOf at h
  have hlocate : Steady (fun _ => True) d.resolver.tree True (d.resolver.locate file (kind == .js)) :=
    (Resolver.steady_locate file _).mono fun _ _ _ => trivial
  rw [outcome_bind trivial hlocate fun l _ => (steady_scriptOf file kind l source).bind fun _ => Steady.pure _] at h
  cases hl : (d.resolver.locate file (kind == .js)).outcome with
  | error e =>
    rw [hl] at h
    cases h
  | ok l =>
    rw [hl] at h
    have hscript : Steady (fun _ => True) d.resolver.tree True (d.scriptOf file kind l source) :=
      steady_scriptOf file kind l source
    have h : (d.scriptOf file kind l source >>= fun script => pure _).outcome = .ok m := h
    rw [outcome_bind trivial hscript fun _ _ => Steady.pure _] at h
    cases hs : (d.scriptOf file kind l source).outcome with
    | error e =>
      rw [hs] at h
      cases h
    | ok script =>
      rw [hs] at h
      exact ⟨l, script, rfl, hs, (Except.ok.inj h).symm⟩

/-- The script of a module only depends on its text and on how it is written. -/
theorem scriptOf_congr {p q : Path} {kind : ModuleKind} {l l' : BaseLocation} {source s s' : String}
    (hl : l.modular = l'.modular) (hs : (d.scriptOf p kind l source).outcome = .ok s)
    (hs' : (d.scriptOf q kind l' source).outcome = .ok s') : s = s' := by
  unfold scriptOf at hs hs'
  rw [hl] at hs
  split at hs
  next hcond =>
    rw [if_pos hcond] at hs'
    cases hconvert : Script.CommonJs.convert source with
    | error refusal =>
      rw [hconvert] at hs
      cases hs
    | ok converted =>
      rw [hconvert] at hs hs'
      cases converted with
      | none =>
        cases hs
        cases hs'
        rfl
      | some script =>
        cases hs
        cases hs'
        rfl
  next hcond =>
    rw [if_neg hcond] at hs'
    cases hs
    cases hs'
    rfl

/-- A module is opened with the text of its file, whose digest it carries. -/
theorem exists_source {file : Path} {m : Module} (h : (d.opened file).outcome = .ok m) :
    ∃ kind source, ModuleKind.ofPath? file = some kind ∧ (d.sourceOf file).outcome = .ok source ∧
      (d.moduleOf file kind source).outcome = .ok m ∧ m.hash = Digest.ofText source := by
  unfold opened at h
  split at h
  · cases h
  next kind hkind =>
    have hsteady : Steady (fun _ => True) d.resolver.tree True (d.sourceOf file) := steady_sourceOf file
    rw [outcome_bind trivial hsteady fun source _ =>
      (steady_moduleOf file kind source).mono fun _ _ _ => trivial] at h
    cases hsource : (d.sourceOf file).outcome with
    | error e =>
      rw [hsource] at h
      cases h
    | ok source =>
      rw [hsource] at h
      have hmodule : (d.moduleOf file kind source).outcome = .ok m := h
      rcases moduleOf_eq_ok hmodule with ⟨l, script, -, -, rfl⟩
      exact ⟨kind, source, hkind, rfl, hmodule, rfl⟩

/-- A module is spelled as the file with which it is opened. -/
theorem spelled_self {file : Path} {m : Module} (h : (d.opened file).outcome = .ok m) : m.spelled file = m := by
  rcases exists_source h with ⟨kind, source, -, -, hmodule, -⟩
  rcases moduleOf_eq_ok hmodule with ⟨l, script, hl, -, rfl⟩
  rcases Resolver.locate_cases hl with ⟨⟨rest, hrest, hbasePath⟩, -⟩
  unfold Module.spelled
  simp only [hrest, hbasePath, Option.getD_some]

end Discovery

/-- Different ones of some texts have different digests. -/
def Digest.Separates (texts : List String) : Prop :=
  ∀ s ∈ texts, ∀ s' ∈ texts, Digest.ofText s = Digest.ofText s' → s = s'

theorem Digest.separates_of_nodup {texts : List String} (h : (texts.dedup.map Digest.ofText).Nodup) :
    Digest.Separates texts := by
  intro s hs s' hs' heq
  exact List.inj_on_of_nodup_map h (List.mem_dedup.mpr hs) (List.mem_dedup.mpr hs') heq

namespace Linker

open Linking Discovery

variable {l : Linker} {t t' : FileTree}

/-- A module is located alike in trees that have the same manifests above its file. -/
theorem moduleOf_congr {file : Path} (kind : ModuleKind) (source : String)
    (h : ∀ a ∈ file.ancestors, t'.fileAt? (a.child Manifest.fileName) = t.fileAt? (a.child Manifest.fileName)) :
    (l.discovery t').moduleOf file kind source = (l.discovery t).moduleOf file kind source := by
  have hlocate : ∀ isScript, (l.resolver t').locate file isScript = (l.resolver t).locate file isScript :=
    fun isScript => Resolver.locate_congr (l.resolver t) isScript h
  unfold moduleOf
  show Bind.bind ((l.resolver t').locate file (kind == .js)) _ = _
  rw [hlocate]
  rfl

/-- A file whose texts have the same digest gives the same text, and the same kind of module, in any two
trees and however it is spelled. -/
theorem source_unique {p q : Path} (hpq : p.components = q.components) {m m' : Module}
    (hm : ((l.discovery t).opened p).outcome = .ok m) (hm' : ((l.discovery t').opened q).outcome = .ok m')
    {texts : List String} (hseparates : Digest.Separates texts) (ht : ∀ s ∈ (l.discovery t).texts, s ∈ texts)
    (ht' : ∀ s ∈ (l.discovery t').texts, s ∈ texts) (hhash : m.hash = m'.hash) :
    ∃ kind source, ((l.discovery t).moduleOf p kind source).outcome = .ok m ∧
      ((l.discovery t').moduleOf q kind source).outcome = .ok m' := by
  rcases exists_source hm with ⟨kind, source, hkind, hsource, hmodule, hash⟩
  rcases exists_source hm' with ⟨kind', source', hkind', hsource', hmodule', hash'⟩
  -- the kind is told by the file name, and the text by the digest
  have hkinds : ModuleKind.ofPath? p = ModuleKind.ofPath? q := by
    unfold ModuleKind.ofPath? Path.extension
    rw [Path.fileName_congr hpq]
  rw [hkind, hkind', Option.some.injEq] at hkinds
  have hsources : source = source' := by
    apply hseparates
    · exact ht _ (mem_texts_of_sourceOf hsource)
    · exact ht' _ (mem_texts_of_sourceOf hsource')
    · rw [← hash, ← hash', hhash]
  subst hkinds hsources
  exact ⟨kind, source, hmodule, hmodule'⟩

/-- A file whose texts have the same digest gives the same module in trees with the same manifests. -/
theorem opened_unique {file : Path} {m m' : Module}
    (h : ∀ a ∈ file.ancestors, t'.fileAt? (a.child Manifest.fileName) = t.fileAt? (a.child Manifest.fileName))
    (hm : ((l.discovery t).opened file).outcome = .ok m)
    (hm' : ((l.discovery t').opened file).outcome = .ok m') {texts : List String}
    (hseparates : Digest.Separates texts) (ht : ∀ s ∈ (l.discovery t).texts, s ∈ texts)
    (ht' : ∀ s ∈ (l.discovery t').texts, s ∈ texts) (hhash : m.hash = m'.hash) : m = m' := by
  rcases source_unique rfl hm hm' hseparates ht ht' hhash with ⟨kind, source, hmodule, hmodule'⟩
  rw [moduleOf_congr kind source h, hmodule] at hmodule'
  exact Except.ok.inj hmodule'

/-- If the file is spelled in another way, the module only differs in how it is spelled. -/
theorem opened_spelled {p q : Path} (hpq : p.components = q.components) {m m' : Module}
    (h : ∀ a ∈ q.ancestors, t'.fileAt? (a.child Manifest.fileName) = t.fileAt? (a.child Manifest.fileName))
    (hm : ((l.discovery t).opened p).outcome = .ok m) (hm' : ((l.discovery t').opened q).outcome = .ok m')
    {texts : List String} (hseparates : Digest.Separates texts) (ht : ∀ s ∈ (l.discovery t).texts, s ∈ texts)
    (ht' : ∀ s ∈ (l.discovery t').texts, s ∈ texts) (hhash : m.hash = m'.hash) : m'.Twin (m.spelled q) := by
  rcases source_unique hpq hm hm' hseparates ht ht' hhash with ⟨kind, source, hmodule, hmodule'⟩
  rw [moduleOf_congr kind source h] at hmodule'
  rcases moduleOf_eq_ok hmodule with ⟨b, script, hb, hscript, rfl⟩
  rcases moduleOf_eq_ok hmodule' with ⟨b', script', hb', hscript', rfl⟩
  rcases Resolver.locate_spelled hpq hb hb' with ⟨hbase, hmodular⟩
  rcases Resolver.locate_cases hb' with ⟨⟨rest, hrest, hbasePath⟩, -⟩
  have hscripts := scriptOf_congr hmodular hscript hscript'
  subst hscripts
  refine ⟨rfl, ?_, rfl, rfl, rfl⟩
  show b'.basePath = Path.slashed ((q.stripAncestor? b.base).getD q).text
  rw [hbase, hrest, hbasePath]
  rfl

end Linker

/-! ## Ways to a module -/

namespace Discovery

open Linking

variable {d : Discovery} {trusted : Path → Prop}

/-- A module is opened, and analysed or recalled. If the manifests that count are trusted, it is opened and
analysed as when nothing is remembered. -/
inductive Origin (d : Discovery) (trusted : Path → Prop) (m₀ : Module) : Module → Prop
  | analysed {m : Module} (hm : m.Resembles m₀) (hchanged : m.changed = true)
      (hnew : ∀ a, d.cache.get? m₀.file = some a → a.record.hash ≠ m₀.hash)
      (hpolicy : Analysed d.policy m) (houtcome : (∀ p, trusted p) → (d.analysed m₀).outcome = .ok m) :
      Origin d trusted m₀ m
  | recalled {a : Artifact} (ha : d.cache.get? m₀.file = some a) (hhash : a.record.hash = m₀.hash) :
      Origin d trusted m₀ (Module.recalled m₀ a.record)

theorem Origin.resembles {m₀ m : Module} (h : Origin d trusted m₀ m) : m.Resembles m₀ := by
  cases h with
  | analysed hm _ _ _ _ => exact hm
  | @recalled a _ _ => exact resembles_recalled m₀ a.record

/-- A module of a discovery, up to the places of what it requires. -/
def Sourced (d : Discovery) (trusted : Path → Prop) (m : Module) : Prop :=
  ∃ m₀ m₁ dependencies, Fresh m.file m₀ ∧
    ((∀ a ∈ m.file.ancestors, trusted a) → (d.opened m.file).outcome = .ok m₀) ∧
    Origin d trusted m₀ m₁ ∧ m = { m₁ with dependencies := dependencies }

/-- Every module is opened, and analysed or recalled. -/
theorem meets_module_sourced (file : Path) :
    Meets trusted d.resolver.tree (d.module file) (Returns fun m => m.file = file ∧ Sourced d trusted m) := by
  have hopened : Meets trusted d.resolver.tree (d.opened file) (Returns fun m =>
      Fresh file m ∧ ((∀ a ∈ file.ancestors, trusted a) → (d.opened file).outcome = .ok m)) := by
    refine ((meets_opened file).and (steady_opened file)).mono ?_
    rintro r ⟨hfresh, hsteady⟩ m rfl
    exact ⟨hfresh m rfl, fun h => (hsteady h).symm⟩
  refine meets_module hopened ?_ ?_
  · -- analysed
    rintro m₀ ⟨hfresh, houtcome⟩ hnew
    refine (((meets_analysed_resembles hfresh).and (meets_analysed hfresh)).and (steady_analysed m₀)).mono ?_
    rintro r ⟨⟨hresembles, hanalysed⟩, hsteady⟩ m rfl
    rcases hresembles m rfl with ⟨hm, hchanged, -⟩
    rcases hanalysed m rfl with ⟨hfile, hpolicy⟩
    refine ⟨hfile, m₀, m, m.dependencies, ?_, ?_, ?_, rfl⟩
    · rw [hfile]
      exact hfresh
    · rw [hfile]
      exact houtcome
    · exact Origin.analysed hm hchanged (hfresh.file ▸ hnew) hpolicy fun h => (hsteady h).symm
  · -- recalled
    rintro m₀ a ⟨hfresh, houtcome⟩ ha hhash
    have hfile : (Module.recalled m₀ a.record).file = file := hfresh.file
    refine ⟨hfile, m₀, _, m₀.dependencies, ?_, ?_, Origin.recalled ?_ hhash, rfl⟩
    · rw [hfile]
      exact hfresh
    · rw [hfile]
      exact houtcome
    · rw [hfresh.file]
      exact ha

theorem Sourced.with_dependencies {m : Module} (h : Sourced d trusted m) (dependencies : Table String Nat) :
    Sourced d trusted { m with dependencies := dependencies } := by
  rcases h with ⟨m₀, m₁, _, hfresh, hopened, horigin, rfl⟩
  exact ⟨m₀, m₁, dependencies, hfresh, hopened, horigin, rfl⟩

end Discovery

end Relink
