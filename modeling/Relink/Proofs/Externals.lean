import Relink.Proofs.LoadOrder
import Relink.Proofs.Recall

/-!
# Tables of what a bundle does not contain

The table of a bundle says of a name whether it is left to the host or stands for an empty module. All bundles of a
link take a shim for a shim, but only a bundle that requires it says so: if the modules of the host can be required,
the table of any other bundle leaves a shim of that name to the host.

* `Bundle.get?_externals` — what the table of a bundle says of a name.
* `Discovery.Settled` — the externals and shims of a module are what it requires, as the policy classifies it.
* `tables_disagree_iff` — when the tables of two bundles of a link disagree about a name.
-/

namespace Relink

namespace Bundle

variable {b : Bundle} {name : String}

/-- A module of the bundle takes a name for an empty module. -/
def Shims (b : Bundle) (name : String) : Prop := ∃ a ∈ b.artifacts, a.record.shims.contains name = true

/-- A module of the bundle leaves a name to the host. -/
def Delegates (b : Bundle) (name : String) : Prop := ∃ a ∈ b.artifacts, a.record.externals.contains name = true

instance : Decidable (b.Shims name) :=
  inferInstanceAs (Decidable (∃ a ∈ b.artifacts, a.record.shims.contains name = true))

instance : Decidable (b.Delegates name) :=
  inferInstanceAs (Decidable (∃ a ∈ b.artifacts, a.record.externals.contains name = true))

/-- What the table of a bundle says of a name: what is left to the host counts first, then what is a shim, and the
modules of the host come last. -/
theorem get?_externals (b : Bundle) (name : String) : b.externals.get? name =
    if b.Delegates name then some true
    else if b.Shims name then some false
    else if b.builtins = true ∧ name ∈ hostModules then some true
    else none := by
  have hhost : (Table.ofList (if b.builtins then hostModules.map fun x => (x, true) else [])).get? name =
      if b.builtins = true ∧ name ∈ hostModules then some true else none := by
    cases b.builtins with
    | false => simp [Table.ofList]
    | true => simp [Table.get?_ofList_const]
  have hnames : ∀ (names : Artifact → NameSet) (v : Bool) (P : Prop) [Decidable P],
      (P ↔ ∃ a ∈ b.artifacts, (names a).contains name = true) → (Table.ofList (b.artifacts.flatMap fun a =>
        (names a).toList.map fun x => (x, v))).get? name = if P then some v else none := by
    intro names v P _ hP
    rw [← List.map_flatMap, Table.get?_ofList_const]
    simp only [List.mem_flatMap, NameSet.mem_toList_iff, hP]
  unfold externals
  rw [Table.get?_ofList_append, Table.get?_ofList_append, hhost, hnames (·.record.shims) false (b.Shims name) Iff.rfl,
    hnames (·.record.externals) true (b.Delegates name) Iff.rfl]
  by_cases hdelegates : b.Delegates name
  · rw [if_pos hdelegates, if_pos hdelegates, Option.some_or]
  rw [if_neg hdelegates, if_neg hdelegates, Option.none_or]
  by_cases hshims : b.Shims name
  · rw [if_pos hshims, if_pos hshims, Option.some_or]
  · rw [if_neg hshims, if_neg hshims, Option.none_or]

theorem get?_externals_eq_false : b.externals.get? name = some false ↔ b.Shims name ∧ ¬b.Delegates name := by
  rw [get?_externals]
  by_cases hdelegates : b.Delegates name
  · simp [hdelegates]
  · by_cases hshims : b.Shims name <;> simp [hdelegates, hshims]

theorem get?_externals_eq_true : b.externals.get? name = some true ↔
    b.Delegates name ∨ ¬b.Delegates name ∧ ¬b.Shims name ∧ b.builtins = true ∧ name ∈ hostModules := by
  rw [get?_externals]
  by_cases hdelegates : b.Delegates name
  · simp [hdelegates]
  · by_cases hshims : b.Shims name <;> simp [hdelegates, hshims]

end Bundle

/-! ## What modules leave to others -/

namespace Discovery

open Linking

variable {d : Discovery} {trusted : Path → Prop}

/-- The externals and shims of a module are what it requires, as the policy classifies it. -/
structure Settled (policy : Policy) (m : Module) : Prop where
  externals : ∀ s, m.externals.contains s = true ↔ m.Requires s ∧ policy.classify s = .external
  shims : ∀ s, m.shims.contains s = true ↔ m.Requires s ∧ policy.classify s = .shim

theorem Settled.with_dependencies {policy : Policy} {m : Module} (h : Settled policy m)
    (dependencies : Table String Nat) : Settled policy { m with dependencies := dependencies } :=
  ⟨h.externals, h.shims⟩

theorem meets_analysed_settled {file : Path} {m : Module} (h : Fresh file m) :
    Meets trusted d.resolver.tree (d.analysed m) (Returns fun m' => m'.file = file ∧ Settled d.policy m') := by
  refine Meets.mono (((meets_analysed h).and (meets_analysed_only h)).and (meets_analysed_resembles h)) ?_
  rintro r ⟨⟨hanalysed, honly⟩, hresembles⟩ m' rfl
  obtain ⟨hfile, hpolicy⟩ := hanalysed m' rfl
  have hfound := honly m' rfl
  have hrequires : ∀ s, m.Requires s → m'.Requires s := by
    intro s hs
    unfold Module.Requires at hs ⊢
    rwa [(hresembles m' rfl).1.kind, (hresembles m' rfl).1.file, (hresembles m' rfl).1.source]
  refine ⟨hfile, ⟨?_, ?_⟩⟩
  · intro s
    refine ⟨fun hs => ⟨hrequires s (hfound.externals.mem s hs), hpolicy.external s hs⟩, ?_⟩
    rintro ⟨hs, hclass⟩
    exact (hpolicy.taken_up hs).2.1 hclass
  · intro s
    refine ⟨fun hs => ⟨hrequires s (hfound.shims.mem s hs), hpolicy.shim s hs⟩, ?_⟩
    rintro ⟨hs, hclass⟩
    exact (hpolicy.taken_up hs).2.2 hclass

/-- Without a cache, the externals and shims of every module are settled. -/
theorem meets_module_settled (hcache : d.cache.artifacts = Table.empty) (file : Path) :
    Meets trusted d.resolver.tree (d.module file) (Returns fun m => m.file = file ∧ Settled d.policy m) := by
  refine meets_module (meets_opened file) ?_ ?_
  · intro m hm _
    exact meets_analysed_settled hm
  · intro m a _ hget _
    unfold Cache.get? at hget
    rw [hcache] at hget
    simp at hget

end Discovery

theorem Policy.classify_eq_shim {policy : Policy} {s : String} : policy.classify s = .shim ↔ policy.isShim s = true := by
  unfold classify
  split
  next h => simp [h]
  next h => split <;> simp [h]

theorem Policy.shims_of_ofConfig {config : Config} {excluded : String → Bool} {policy : Policy}
    (h : Policy.ofConfig config excluded = .ok policy) : policy.shims = config.shims := by
  unfold ofConfig at h
  split at h
  · cases h
    rfl
  · cases h

/-! ## The tables of a link -/

/-- A module of a bundle requires a name. -/
def ModuleGraph.RequiredIn (g : ModuleGraph) (b : Bundle) (name : String) : Prop :=
  ∃ a ∈ b.artifacts, ∃ m ∈ g.modules, m.file = a.record.file ∧ m.Requires name

namespace Linker

open Linking Relink.Partition

variable {l : Linker} {t : FileTree} {g : ModuleGraph} {parts : List Partition} {made : Nat → Artifact}
  {output : LinkOutput} {kept : List Artifact}

/-- What a bundle takes for empty modules are the shims that its modules require, and what it leaves to the host are
the externals. -/
theorem Linked.settled (h : Linked l g parts made output kept) (hdistinct : g.Distinct)
    (hsettled : ∀ m ∈ g.modules, Discovery.Settled l.policy m) {b : Bundle} (hb : b ∈ output.bundles) (name : String) :
    (b.Shims name ↔ g.RequiredIn b name ∧ l.policy.classify name = .shim) ∧
      (b.Delegates name ↔ g.RequiredIn b name ∧ l.policy.classify name = .external) := by
  obtain ⟨p, hp, hfits⟩ := exists_of_forall₂ h.bundles.flip hb
  -- each artifact of the bundle is that of one module
  have hrecord : ∀ a ∈ b.artifacts, ∃ m ∈ g.modules, m.file = a.record.file ∧ a.record.externals = m.externals ∧
      a.record.shims = m.shims := by
    intro a ha
    rw [hfits.bundle] at ha
    obtain ⟨i, hi, rfl⟩ := List.mem_map.mp ha
    obtain ⟨m, hm, -, hfile, -, -, hexternals, hshims⟩ := h.record (mem_modulesOf.mpr ⟨p, hp, hi⟩)
    exact ⟨m, List.mem_of_getElem? hm, hfile.symm, hexternals, hshims⟩
  have hunique : ∀ m ∈ g.modules, ∀ m' ∈ g.modules, m.file = m'.file → m = m' := by
    intro m hm m' hm' hfile
    obtain ⟨i, hi⟩ := List.getElem?_of_mem hm
    obtain ⟨j, hj⟩ := List.getElem?_of_mem hm'
    have hij := hdistinct.eq_of_components hi hj (congrArg Path.components hfile)
    rw [hij, hj] at hi
    exact (Option.some.inj hi).symm
  have htaken : ∀ (taken : ModuleRecord → NameSet) (names : Module → NameSet) (kind : DependencyKind),
      (∀ m ∈ g.modules, ∀ s, (names m).contains s = true ↔ m.Requires s ∧ l.policy.classify s = kind) →
      (∀ a ∈ b.artifacts, ∃ m ∈ g.modules, m.file = a.record.file ∧ taken a.record = names m) →
      ((∃ a ∈ b.artifacts, (taken a.record).contains name = true) ↔
        g.RequiredIn b name ∧ l.policy.classify name = kind) := by
    intro taken names kind hnames hartifacts
    constructor
    · rintro ⟨a, ha, hcontains⟩
      obtain ⟨m, hm, hfile, hsame⟩ := hartifacts a ha
      rw [hsame] at hcontains
      obtain ⟨hrequires, hclass⟩ := (hnames m hm name).mp hcontains
      exact ⟨⟨a, ha, m, hm, hfile, hrequires⟩, hclass⟩
    · rintro ⟨⟨a, ha, m, hm, hfile, hrequires⟩, hclass⟩
      obtain ⟨m', hm', hfile', hsame⟩ := hartifacts a ha
      refine ⟨a, ha, ?_⟩
      rw [hsame, ← hunique m hm m' hm' (hfile.trans hfile'.symm)]
      exact (hnames m hm name).mpr ⟨hrequires, hclass⟩
  constructor
  · refine htaken ModuleRecord.shims Module.shims .shim (fun m hm => (hsettled m hm).shims) ?_
    intro a ha
    obtain ⟨m, hm, hfile, -, hshims⟩ := hrecord a ha
    exact ⟨m, hm, hfile, hshims⟩
  · refine htaken ModuleRecord.externals Module.externals .external (fun m hm => (hsettled m hm).externals) ?_
    intro a ha
    obtain ⟨m, hm, hfile, hexternals, -⟩ := hrecord a ha
    exact ⟨m, hm, hfile, hexternals⟩

/-- In a link without a cache, the table of one bundle takes a name for an empty module and that of another one leaves
it to the host if and only if the name is a shim and a module of the host, the modules of the host can be required,
and the one bundle requires it and the other one does not. -/
theorem tables_disagree_iff {excluded : String → Bool} (hpolicy : Policy.ofConfig l.config excluded = .ok l.policy)
    (hcache : l.cache.artifacts = Table.empty) (h : (l.link t).1 = .ok output) :
    ∃ g s, (l.graph t).runIn l.session = (.ok g, s) ∧
      ∀ b ∈ output.bundles, ∀ b' ∈ output.bundles, ∀ name,
        (b.externals.get? name = some false ∧ b'.externals.get? name = some true) ↔
          l.config.builtins = true ∧ name ∈ hostModules ∧ name ∈ l.config.shims ∧
            g.RequiredIn b name ∧ ¬g.RequiredIn b' name := by
  obtain ⟨g, s, parts, made, kept, hgraph, hlinked, -⟩ := link_cases h
  have hfits := fits_of_forall_not (fun _ h => h) t l.session.manifests
  obtain ⟨hdiscovered, hsettled⟩ := (meets_graph
    (Discovery.meets_module_settled (d := l.discovery t) hcache)
    (fun m dependencies hm => hm.with_dependencies dependencies) l.session hfits).1 g (congrArg Prod.fst hgraph)
  refine ⟨g, s, hgraph, ?_⟩
  intro b hb b' hb' name
  obtain ⟨hshims, hdelegates⟩ := hlinked.settled hdiscovered.distinct hsettled hb name
  obtain ⟨hshims', hdelegates'⟩ := hlinked.settled hdiscovered.distinct hsettled hb' name
  have hbuiltins : b'.builtins = l.config.builtins := by
    obtain ⟨p, -, hfits⟩ := exists_of_forall₂ hlinked.bundles.flip hb'
    rw [hfits.bundle]
  have hshim : l.policy.classify name = .shim ↔ name ∈ l.config.shims := by
    rw [Policy.classify_eq_shim, Policy.isShim, Policy.shims_of_ofConfig hpolicy, List.contains_iff_mem]
  rw [Bundle.get?_externals_eq_false, Bundle.get?_externals_eq_true, hbuiltins, hshims, hdelegates, hshims',
    hdelegates', ← hshim]
  constructor
  · rintro ⟨⟨⟨hrequired, hclass⟩, -⟩, ⟨-, hexternal⟩ | ⟨-, hnot, hhost⟩⟩
    · rw [hclass] at hexternal
      cases hexternal
    · exact ⟨hhost.1, hhost.2, hclass, hrequired, fun hrequired' => hnot ⟨hrequired', hclass⟩⟩
  · rintro ⟨hflag, hhost, hclass, hrequired, hnot⟩
    have hne : l.policy.classify name ≠ .external := by
      rw [hclass]
      decide
    exact ⟨⟨⟨hrequired, hclass⟩, fun h => hne h.2⟩, Or.inr ⟨fun h => hne h.2, fun h => hnot h.1, hflag, hhost⟩⟩

/-- A configuration in which a module of the host is a shim. -/
def shimConfig : Config :=
  { pluginConfig "ext/plugin.js" with builtins := true, shims := ["fs"] }

/-- A main entry that requires a module of the host, and a plugin that requires another one. -/
def hostRequired : FileTree :=
  .ofTexts ["work"] [["work"], ["work", "ext"]] [
    (["work", "main.js"], "require(\"fs\");\n"),
    (["work", "ext", "plugin.js"], "require(\"path\");\n")]

/-- A link without a cache to the tables of which this applies. -/
theorem tables_disagree_of_hostRequired : ∃ (l : Linker) (output : LinkOutput),
    ofConfig hostRequired shimConfig Minifier.unchanged (fun _ => false) = .ok l ∧
      Policy.ofConfig l.config (fun _ => false) = .ok l.policy ∧ l.cache.artifacts = Table.empty ∧
      (l.link hostRequired).1 = .ok output ∧
      ∃ g s, (l.graph hostRequired).runIn l.session = (.ok g, s) ∧
        ∀ b ∈ output.bundles, ∀ b' ∈ output.bundles, ∀ name,
          (b.externals.get? name = some false ∧ b'.externals.get? name = some true) ↔
            l.config.builtins = true ∧ name ∈ hostModules ∧ name ∈ l.config.shims ∧
              g.RequiredIn b name ∧ ¬g.RequiredIn b' name := by
  have hcheck : ((ofConfig hostRequired shimConfig Minifier.unchanged
      fun _ => false).toOption.any fun l => (l.link hostRequired).1.toOption.any fun _ => true) = true := by
    decide +kernel
  obtain ⟨l, hl, hcheck⟩ := exists_of_any hcheck
  obtain ⟨output, hlink, -⟩ := exists_of_any hcheck
  have hpolicy := policy_of_ofConfig hl
  have hcache := cache_of_ofConfig hl
  exact ⟨l, output, hl, hpolicy, hcache, hlink, tables_disagree_iff hpolicy hcache hlink⟩

/-- The tables of one link need not agree: the main bundle takes a module of the host for a shim, and the table of the
plugin, which does not require it, leaves it to the host. -/
theorem exists_tables_disagree : ∃ (l : Linker) (output : LinkOutput),
    ofConfig hostRequired shimConfig Minifier.unchanged (fun _ => false) = .ok l ∧
      (l.link hostRequired).1 = .ok output ∧
      ∃ b ∈ output.bundles, ∃ b' ∈ output.bundles, ∃ name,
        b.externals.get? name = some false ∧ b'.externals.get? name = some true := by
  have hcheck : ((ofConfig hostRequired shimConfig Minifier.unchanged
      fun _ => false).toOption.any fun l => (l.link hostRequired).1.toOption.any fun output =>
        output.bundles.any fun b => output.bundles.any fun b' =>
          b.externals.get? "fs" == some false && b'.externals.get? "fs" == some true) = true := by
    decide +kernel
  obtain ⟨l, hl, hcheck⟩ := exists_of_any hcheck
  obtain ⟨output, hlink, hcheck⟩ := exists_of_any hcheck
  obtain ⟨b, hb, hcheck⟩ := List.any_eq_true.mp hcheck
  obtain ⟨b', hb', hcheck⟩ := List.any_eq_true.mp hcheck
  rw [Bool.and_eq_true] at hcheck
  exact ⟨l, output, hl, hlink, b, hb, b', hb', "fs", beq_iff_eq.mp hcheck.1, beq_iff_eq.mp hcheck.2⟩

end Linker

end Relink
