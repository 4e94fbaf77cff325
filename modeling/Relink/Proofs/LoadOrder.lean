import Relink.Proofs.Membership

/-!
# Requirements in the order of loading

The bundles of a link are loaded one after the other. What a module requires is there when its bundle is
loaded, unless the main bundle requires something in the directory of a plugin.

* `Serves` — a specifier of an artifact stands for something when a bundle is loaded.
* `serves_iff` — in a link without a cache, all specifiers are served but those by which the main bundle
  reaches into the directory of a plugin.
-/

namespace Relink.Linker

open Linking Relink.Partition

variable {l : Linker} {t : FileTree}

/-- A specifier of an artifact in a bundle stands for a module of a loaded bundle, for something that the
bundle does not contain, or for an excluded file. -/
def Serves (l : Linker) (loaded : List Bundle) (b : Bundle) (a : Artifact) (specifier : String) : Prop :=
  (∃ id, a.record.dependencyMap.get? specifier = some id ∧
    ∃ b' ∈ loaded, ∃ a' ∈ b'.artifacts, a'.record.id = id) ∨
  b.externals.contains specifier = true ∨
  ∃ p, a.record.dependencyPaths.get? specifier = some p ∧ l.excludes.any p.startsWith = true

/-- The main bundle reaches into the directory of a plugin: to a file that is neither excluded nor the
main entry. -/
def ReachesIntoPlugin (l : Linker) (p : Path) : Prop :=
  ∃ first plugins, l.entries = first :: plugins ∧ l.excludes.any p.startsWith = false ∧
    p.same first = false ∧ inPlugin plugins p = true

/-! ## What is not in a bundle -/

theorem contains_ofList_iff {α : Type} {es : List (String × α)} {s : String} :
    (Table.ofList es).contains s = true ↔ ∃ e ∈ es, e.1 = s := by
  rw [Table.contains_eq_isSome]
  constructor
  · intro h
    rcases Option.isSome_iff_exists.mp h with ⟨v, hv⟩
    rcases Table.get?_ofList_eq_some hv with ⟨e, he, hkey, -⟩
    exact ⟨e, he, (Std.LawfulEqOrd.eq_of_compare hkey).symm⟩
  · rintro ⟨e, he, rfl⟩
    exact Table.get?_ofList_isSome he Std.ReflOrd.compare_self

/-- The specifiers that are not in a bundle are those of the host and those of its modules. -/
theorem externals_contains_iff {b : Bundle} {s : String} :
    b.externals.contains s = true ↔ (b.builtins = true ∧ s ∈ hostModules) ∨
      ∃ a ∈ b.artifacts, a.record.shims.contains s = true ∨ a.record.externals.contains s = true := by
  unfold Bundle.externals
  rw [contains_ofList_iff]
  simp only [List.mem_append, List.mem_flatMap, List.mem_map]
  constructor
  · rintro ⟨e, (hhost | ⟨a, ha, name, hname, rfl⟩) | ⟨a, ha, name, hname, rfl⟩, rfl⟩
    · split at hhost
      next hbuiltins =>
        rcases List.mem_map.mp hhost with ⟨name, hname, rfl⟩
        exact Or.inl ⟨hbuiltins, hname⟩
      next => simp at hhost
    · exact Or.inr ⟨a, ha, Or.inl (NameSet.mem_toList_iff.mp hname)⟩
    · exact Or.inr ⟨a, ha, Or.inr (NameSet.mem_toList_iff.mp hname)⟩
  · rintro (⟨hbuiltins, hs⟩ | ⟨a, ha, hs | hs⟩)
    · refine ⟨(s, true), Or.inl (Or.inl ?_), rfl⟩
      rw [if_pos hbuiltins]
      exact List.mem_map_of_mem hs
    · exact ⟨(s, false), Or.inl (Or.inr ⟨a, ha, s, NameSet.mem_toList_iff.mpr hs, rfl⟩), rfl⟩
    · exact ⟨(s, true), Or.inr ⟨a, ha, s, NameSet.mem_toList_iff.mpr hs, rfl⟩, rfl⟩

theorem classify_of_isExternal {policy : Policy} {s : String} (h : policy.isExternal s = true) :
    policy.classify s ≠ .internal := by
  unfold Policy.classify
  rw [h]
  by_cases hshim : policy.isShim s = true
  · simp [hshim]
  · simp [hshim]

/-- The modules of the host are left to it if they can be required. -/
theorem classify_hostModule {excluded : String → Bool} {config : Config} {policy : Policy}
    (hpolicy : Policy.ofConfig config excluded = .ok policy) (hbuiltins : config.builtins = true) {s : String}
    (hs : s ∈ hostModules) : policy.classify s ≠ .internal := by
  apply classify_of_isExternal
  unfold Policy.ofConfig at hpolicy
  split at hpolicy
  next patterns _ =>
    cases hpolicy
    unfold Policy.isExternal
    simp [hbuiltins, hs]
  next => cases hpolicy

/-! ## Bundles in their order -/

theorem exists_append_of_forall₂ {α β : Type} {R : α → β → Prop} {as : List α} {front back : List β} {b : β}
    (h : List.Forall₂ R as (front ++ b :: back)) :
    ∃ front' a back', as = front' ++ a :: back' ∧ List.Forall₂ R front' front ∧ R a b := by
  induction front generalizing as with
  | nil =>
    cases h with
    | cons hab _ => exact ⟨[], _, _, rfl, List.Forall₂.nil, hab⟩
  | cons first front ih =>
    cases h with
    | cons hfirst hrest =>
      rcases ih hrest with ⟨front', a, back', rfl, hfront, hab⟩
      exact ⟨_ :: front', a, back', rfl, List.Forall₂.cons hfirst hfront, hab⟩

/-! ## What is served -/

section Served

variable {g : ModuleGraph} {parts : List Partition} {made : Nat → Artifact} {output : LinkOutput}
  {kept : List Artifact}

/-- No specifier of a file is left to the host or a shim in a bundle of analysed modules. -/
theorem not_externals_contains {excluded : String → Bool}
    (hpolicy : Policy.ofConfig l.config excluded = .ok l.policy)
    (hlinked : Linked l g parts made output kept)
    (hanalysed : ∀ m ∈ g.modules, Discovery.Analysed l.policy m) {p : Partition} {b : Bundle}
    (hp : p ∈ parts) (hb : BundleFits l parts made p b) {s : String} (hs : l.policy.classify s = .internal) :
    b.externals.contains s ≠ true := by
  intro hcontains
  -- it would be one of the host, or one that a module of the bundle has left to the host or a shim
  rcases externals_contains_iff.mp hcontains with ⟨hbuiltins, hhost⟩ | ⟨a, ha, htaken⟩
  · rw [hb.bundle] at hbuiltins
    exact classify_hostModule hpolicy hbuiltins hhost hs
  · rw [hb.bundle] at ha
    rcases List.mem_map.mp ha with ⟨i, hi, rfl⟩
    rcases hlinked.record (mem_modulesOf.mpr ⟨p, hp, hi⟩) with ⟨m, hm, -, -, -, -, hexternals, hshims⟩
    have hana := hanalysed m (List.mem_of_getElem? hm)
    rw [hexternals, hshims] at htaken
    rcases htaken with hshim | hexternal
    · rw [hana.shim s hshim] at hs
      cases hs
    · rw [hana.external s hexternal] at hs
      cases hs

/-- What a module requires of the graph is one of its successors. -/
theorem mem_successors (hdiscovered : Discovery.Discovered (l.discovery t) l.entries g) {i j : Nat}
    {m : Module} {s : String} {q : Path} (hm : g.modules[i]? = some m) (hordered : m.dependencyPaths.Ordered)
    (hs : m.dependencyPaths.get? s = some q) (hlookup : g.lookup q = some j) : j ∈ g.successors i := by
  unfold ModuleGraph.successors
  rw [hm]
  apply Table.mem_values_of_get?_eq_some (k := s)
  rw [hdiscovered.wired m (List.mem_of_getElem? hm), Table.get?_filterMap hordered, hs, Option.bind_some, hlookup]

/-- The modules whose ids belong to artifacts of some bundles are those of these bundles. -/
theorem loaded_iff (hlinked : Linked l g parts made output kept) {ps : List Partition} {bs : List Bundle}
    (hfits : List.Forall₂ (BundleFits l parts made) ps bs) (hps : ∀ p ∈ ps, p ∈ parts) {j : Nat} :
    (∃ id, (assignIds g parts).get? j = some id ∧ ∃ b ∈ bs, ∃ a ∈ b.artifacts, a.record.id = id) ↔
      j ∈ modulesOf ps := by
  constructor
  · rintro ⟨id, hid, b, hb, a, ha, rfl⟩
    rcases exists_of_forall₂ hfits.flip hb with ⟨p, hp, hfit⟩
    rw [hfit.bundle] at ha
    rcases List.mem_map.mp ha with ⟨i, hi, rfl⟩
    rcases hlinked.record (mem_modulesOf.mpr ⟨p, hps p hp, hi⟩) with ⟨m, -, hid', -⟩
    -- no other module has this id
    rw [assignIds_injective hlinked.partitioned hid hid']
    exact mem_modulesOf.mpr ⟨p, hp, hi⟩
  · intro hj
    rcases mem_modulesOf.mp hj with ⟨p, hp, hjp⟩
    rcases exists_of_forall₂ hfits hp with ⟨b, hb, hfit⟩
    rcases hlinked.record (mem_modulesOf.mpr ⟨p, hps p hp, hjp⟩) with ⟨m, -, hid, -⟩
    refine ⟨_, hid, b, hb, made j, ?_, rfl⟩
    rw [hfit.bundle]
    exact List.mem_map_of_mem hjp

end Served

/-! ## The order of loading -/

/-- Whether a file of the graph is not that of the main entry. -/
theorem lookup_ne_iff {g : ModuleGraph} (hdistinct : g.Distinct) {first q : Path} {j : Nat} {m : Module}
    (hm : g.modules[j]? = some m) (hfile : m.file.components = q.components) :
    g.lookup first ≠ some j ↔ q.same first = false := by
  rw [Ne, ← Bool.not_eq_true, Path.same_iff]
  refine not_congr ?_
  constructor
  · intro hlookup
    rcases ModuleGraph.exists_of_lookup hlookup with ⟨m₁, hm₁, hfile₁⟩
    rw [hm] at hm₁
    cases hm₁
    exact hfile.symm.trans hfile₁
  · intro heq
    exact hdistinct.lookup hm (hfile.trans heq)

/-- What it is to reach into the directory of a plugin, if the file is not excluded. -/
theorem reachesIntoPlugin_iff {first : Path} {plugins : List Path} (hentries : l.entries = first :: plugins)
    {q : Path} (hincluded : l.excludes.any q.startsWith = false) :
    l.ReachesIntoPlugin q ↔ q.same first = false ∧ inPlugin plugins q = true := by
  constructor
  · rintro ⟨first', plugins', hentries', -, hnot, hplugin⟩
    rw [hentries] at hentries'
    cases hentries'
    exact ⟨hnot, hplugin⟩
  · rintro ⟨hnot, hplugin⟩
    exact ⟨first, plugins, hentries, hincluded, hnot, hplugin⟩

section

variable {g : ModuleGraph} {made : Nat → Artifact} {output : LinkOutput} {kept : List Artifact}
  {front back : List Partition} {p : Partition} {loaded : List Bundle} {b : Bundle}

/-- A specifier of a file that is not excluded is served if the module of the file has been loaded. -/
theorem serves_iff_loaded {excluded : String → Bool}
    (hpolicy : Policy.ofConfig l.config excluded = .ok l.policy)
    (hlinked : Linked l g (front ++ p :: back) made output kept)
    (hdiscovered : Discovery.Discovered (l.discovery t) l.entries g)
    (hanalysed : ∀ m ∈ g.modules, Discovery.Analysed l.policy m)
    (hfront : List.Forall₂ (BundleFits l (front ++ p :: back) made) front loaded)
    (hb : BundleFits l (front ++ p :: back) made p b) {i : Nat} (hi : i ∈ p.modules) {m : Module}
    (hm : g.modules[i]? = some m) {s : String} {q : Path} (hs : m.dependencyPaths.get? s = some q)
    (hincluded : l.excludes.any q.startsWith = false) {j : Nat} (hlookup : g.lookup q = some j) :
    l.Serves (loaded ++ [b]) b (made i) s ↔ j ∈ modulesOf (front ++ [p]) := by
  have hp : p ∈ front ++ p :: back := by simp
  have hi' : i ∈ modulesOf (front ++ p :: back) := mem_modulesOf.mpr ⟨p, hp, hi⟩
  have hana := hanalysed m (List.mem_of_getElem? hm)
  have hpaths : (made i).record.dependencyPaths = m.dependencyPaths := by
    rcases hlinked.record hi' with ⟨m₁, hm₁, -, -, -, hpaths, -⟩
    rw [hm] at hm₁
    cases hm₁
    exact hpaths
  have hid : (made i).record.dependencyMap.get? s = (assignIds g (front ++ p :: back)).get? j := by
    rw [hlinked.get?_dependencyMap hdiscovered hi' (hpaths ▸ hana.ordered), hpaths, hs, Option.bind_some, hlookup,
      Option.bind_some]
  have hps : ∀ p' ∈ front ++ [p], p' ∈ front ++ p :: back := by
    intro p' hp'
    rcases List.mem_append.mp hp' with hp' | hp'
    · exact List.mem_append_left _ hp'
    · rw [List.mem_singleton.mp hp']
      exact hp
  rw [← loaded_iff hlinked (List.rel_append hfront (List.Forall₂.cons hb List.Forall₂.nil)) hps, ← hid]
  -- the specifier has an id, if anything, since it is neither left to the host nor excluded
  constructor
  · rintro (hloaded | hexternal | ⟨q', hq', hexcluded⟩)
    · exact hloaded
    · exact absurd hexternal (not_externals_contains hpolicy hlinked hanalysed hp hb (hana.internal s q hs))
    · rw [hpaths, hs] at hq'
      cases hq'
      rw [hincluded] at hexcluded
      cases hexcluded
  · exact Or.inl

/-- A specifier of a file is served, unless the main bundle reaches by it into the directory of a
plugin. -/
theorem serves_file_iff {excluded : String → Bool}
    (hpolicy : Policy.ofConfig l.config excluded = .ok l.policy)
    (hlinked : Linked l g (front ++ p :: back) made output kept)
    (hdiscovered : Discovery.Discovered (l.discovery t) l.entries g)
    (hanalysed : ∀ m ∈ g.modules, Discovery.Analysed l.policy m)
    (hfront : List.Forall₂ (BundleFits l (front ++ p :: back) made) front loaded)
    (hb : BundleFits l (front ++ p :: back) made p b) {i : Nat} (hi : i ∈ p.modules) {m : Module}
    (hm : g.modules[i]? = some m) {s : String} {q : Path} (hs : m.dependencyPaths.get? s = some q) :
    l.Serves (loaded ++ [b]) b (made i) s ↔ ¬(loaded = [] ∧ l.ReachesIntoPlugin q) := by
  have hmem := List.mem_of_getElem? hm
  cases hexcluded : l.excludes.any q.startsWith with
  | true =>
    constructor
    · rintro - ⟨-, first, plugins, -, hincluded, -⟩
      rw [hexcluded] at hincluded
      cases hincluded
    · intro _
      have hp : p ∈ front ++ p :: back := by simp
      rcases hlinked.record (mem_modulesOf.mpr ⟨p, hp, hi⟩) with ⟨m₁, hm₁, -, -, -, hpaths, -⟩
      rw [hm] at hm₁
      cases hm₁
      exact Or.inr (Or.inr ⟨q, by rw [hpaths, hs], hexcluded⟩)
  | false =>
    -- the file has become a module, which is loaded if its bundle is
    have hled := ModuleGraph.LedTo.next hmem (hdiscovered.ledTo m hmem) (Table.mem_values_of_get?_eq_some hs)
    have hcontains : g.contains q = true := by
      refine (hdiscovered.complete q hled).resolve_left ?_
      intro hexcluded'
      have hexcluded' : l.excludes.any q.startsWith = true := hexcluded'
      rw [hexcluded] at hexcluded'
      cases hexcluded'
    rcases Option.isSome_iff_exists.mp hcontains with ⟨j, hlookup⟩
    rcases ModuleGraph.exists_of_lookup hlookup with ⟨m', hm', hfile⟩
    have hsucc := mem_successors hdiscovered hm (hanalysed m hmem).ordered hs hlookup
    rcases partition_cases hlinked.partitioned with ⟨first, plugins, entry, rest, hentries, -⟩
    have hpartition := hlinked.partitioned
    rw [hentries] at hpartition
    have hnil : front = [] ↔ loaded = [] := by
      rw [← List.length_eq_zero_iff, ← List.length_eq_zero_iff, hfront.length_eq]
    rw [serves_iff_loaded hpolicy hlinked hdiscovered hanalysed hfront hb hi hm hs hexcluded hlookup,
      mem_loaded_iff hpartition hi hsucc hm', hnil, lookup_ne_iff hdiscovered.distinct hm' hfile,
      inPlugin_congr hfile, reachesIntoPlugin_iff hentries hexcluded]

end

/-- In a link without a cache, every specifier of a module is served when its bundle is loaded, but for
those by which the main bundle reaches into the directory of a plugin; those are not. -/
theorem serves_iff {excluded : String → Bool} (hpolicy : Policy.ofConfig l.config excluded = .ok l.policy)
    (hcache : l.cache.artifacts = Table.empty) {output : LinkOutput} (h : (l.link t).1 = .ok output) :
    ∃ g s, (l.graph t).runIn l.session = (.ok g, s) ∧
      ∀ front b back, output.bundles = front ++ b :: back → ∀ a ∈ b.artifacts,
        ∃ m ∈ g.modules, m.file = a.record.file ∧ ∀ specifier, m.Requires specifier →
          (l.Serves (front ++ [b]) b a specifier ↔
            ¬(front = [] ∧ ∃ p, a.record.dependencyPaths.get? specifier = some p ∧ l.ReachesIntoPlugin p)) := by
  rcases link_cases h with ⟨g, s, parts, made, kept, hgraph, hlinked, -⟩
  have hfits := fits_of_forall_not (fun _ h => h) t l.session.manifests
  obtain ⟨hdiscovered, hanalysed⟩ := (meets_graph
    (Discovery.meets_module_of_empty (d := l.discovery t) hcache)
    (fun m dependencies hm => hm.with_dependencies dependencies) l.session hfits).1 g (congrArg Prod.fst hgraph)
  refine ⟨g, s, hgraph, ?_⟩
  intro front b back hbundles a ha
  rcases exists_append_of_forall₂ (hbundles ▸ hlinked.bundles) with ⟨front', p, back', hparts, hfront, hb⟩
  have hp : p ∈ parts := by simp [hparts]
  rw [hb.bundle] at ha
  rcases List.mem_map.mp ha with ⟨i, hi, rfl⟩
  have hi' : i ∈ modulesOf parts := mem_modulesOf.mpr ⟨p, hp, hi⟩
  rcases hlinked.record hi' with ⟨m, hm, -, hfile, -, hpaths, hexternals, hshims⟩
  have hmem := List.mem_of_getElem? hm
  have hana := hanalysed m hmem
  refine ⟨m, hmem, hfile.symm, ?_⟩
  intro specifier hrequires
  rw [hpaths]
  cases hpath : m.dependencyPaths.get? specifier with
  | none =>
    -- the specifier is left to the host, or a shim
    have hcontains : b.externals.contains specifier = true := by
      refine externals_contains_iff.mpr (Or.inr ⟨made i, ?_, ?_⟩)
      · rw [hb.bundle]
        exact List.mem_map_of_mem hi
      · rw [hexternals, hshims]
        rcases hana.taken specifier hrequires with hp | he | hs
        · rw [hpath] at hp
          cases hp
        · exact Or.inr he
        · exact Or.inl hs
    constructor
    · rintro - ⟨-, q, ⟨⟩, -⟩
    · intro _
      exact Or.inr (Or.inl hcontains)
  | some q =>
    -- the specifier stands for a file
    subst hparts
    rw [serves_file_iff hpolicy hlinked hdiscovered hanalysed hfront hb hi hm hpath]
    simp

/-- A link to which the order of loading applies. -/
theorem serves_iff_of_ownDirectory : ∃ (l : Linker) (output : LinkOutput),
    ofConfig ownDirectory (pluginConfig "ext/plugin.js") Minifier.unchanged (fun _ => false) = .ok l ∧
      (l.link ownDirectory).1 = .ok output ∧
      ∃ g s, (l.graph ownDirectory).runIn l.session = (.ok g, s) ∧
        ∀ front b back, output.bundles = front ++ b :: back → ∀ a ∈ b.artifacts,
          ∃ m ∈ g.modules, m.file = a.record.file ∧ ∀ specifier, m.Requires specifier →
            (l.Serves (front ++ [b]) b a specifier ↔
              ¬(front = [] ∧ ∃ p, a.record.dependencyPaths.get? specifier = some p ∧ l.ReachesIntoPlugin p)) := by
  have hcheck : ((ofConfig ownDirectory (pluginConfig "ext/plugin.js") Minifier.unchanged
      fun _ => false).toOption.any fun l => (l.link ownDirectory).1.toOption.any fun _ => true) = true := by
    decide +kernel
  rcases exists_of_any hcheck with ⟨l, hl, hcheck⟩
  rcases exists_of_any hcheck with ⟨output, hlink, -⟩
  exact ⟨l, output, hl, hlink, serves_iff (policy_of_ofConfig hl) (cache_of_ofConfig hl) hlink⟩

/-- A main entry and a plugin that require the same module of the directory of the plugin. -/
def sharedTool : FileTree :=
  .ofTexts ["work"] [["work"], ["work", "ext"]] [
    (["work", "main.js"], "require(\"./ext/tool\");\n"),
    (["work", "ext", "tool.js"], "exports.a = 1;\n"),
    (["work", "ext", "plugin.js"], "require(\"./tool\");\n")]

/-- Not every specifier of a module is served when its bundle is loaded: what the main bundle requires of
the directory of a plugin is only there when the plugin is. -/
theorem exists_specifier_not_served : ∃ (l : Linker) (output : LinkOutput),
    ofConfig sharedTool (pluginConfig "ext/plugin.js") Minifier.unchanged (fun _ => false) = .ok l ∧
      (l.link sharedTool).1 = .ok output ∧
      ∃ g, ((l.graph sharedTool).runIn l.session).1 = .ok g ∧
        ∃ b back, output.bundles = b :: back ∧ ∃ a ∈ b.artifacts,
          ∃ m ∈ g.modules, m.file = a.record.file ∧ ∃ specifier, m.Requires specifier ∧
            ¬l.Serves [b] b a specifier := by
  have hcheck : ((ofConfig sharedTool (pluginConfig "ext/plugin.js") Minifier.unchanged
      fun _ => false).toOption.any fun l => (l.link sharedTool).1.toOption.any fun output =>
        ((l.graph sharedTool).runIn l.session).1.toOption.any fun g =>
          match output.bundles with
          | [] => false
          | b :: _ => b.artifacts.any fun a => g.modules.any fun m =>
            m.file == a.record.file && m.kind == .js
              && (Discovery.summaryOf m.file m.source).toOption.any (·.dependencies.contains "./ext/tool")
              && b.artifacts.all (fun a' =>
                a.record.dependencyMap.get? "./ext/tool" != some a'.record.id)
              && !b.externals.contains "./ext/tool" && l.excludes == []) = true := by
    decide +kernel
  rcases exists_of_any hcheck with ⟨l, hl, hcheck⟩
  rcases exists_of_any hcheck with ⟨output, hlink, hcheck⟩
  rcases exists_of_any hcheck with ⟨g, hgraph, hcheck⟩
  cases hbundles : output.bundles with
  | nil =>
    rw [hbundles] at hcheck
    cases hcheck
  | cons b back =>
    simp only [hbundles] at hcheck
    rcases List.any_eq_true.mp hcheck with ⟨a, ha, hcheck⟩
    rcases List.any_eq_true.mp hcheck with ⟨m, hm, hcheck⟩
    simp only [Bool.and_eq_true, beq_iff_eq, List.all_eq_true, bne_iff_ne, Bool.not_eq_true'] at hcheck
    rcases hcheck with ⟨⟨⟨⟨⟨hfile, hkind⟩, hsummary⟩, hids⟩, hexternal⟩, hexcludes⟩
    rcases exists_of_any hsummary with ⟨summary, hsummary, hdependency⟩
    refine ⟨l, output, hl, hlink, g, hgraph, b, back, hbundles, a, ha, m, hm, hfile, "./ext/tool",
      ⟨hkind, summary, hsummary, by simpa using hdependency⟩, ?_⟩
    rintro (⟨id, hid, b', hb', a', ha', heq⟩ | hcontains | ⟨p, -, hexcluded⟩)
    · rw [List.mem_singleton.mp hb'] at ha'
      exact hids a' ha' (by rw [hid, heq])
    · rw [hcontains] at hexternal
      cases hexternal
    · rw [hexcludes] at hexcluded
      cases hexcluded

end Relink.Linker
