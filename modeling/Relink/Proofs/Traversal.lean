import Relink.Proofs.Consistent
import Relink.Proofs.Requirements

/-!
# The order of discovery

The work list by which modules are discovered, and the one by which they are distributed over bundles, find
what a recursive search finds, in the same order: it goes into what a module requires, in the order of the
specifiers, before it goes on to the next file.

* `Traverses` — the recursive search for the modules of files.
* `Digraph.Walks` — the recursive search in a directed graph, which gives what `Digraph.visit` gives.
* `DepthFirst` — the modules of a graph are those that the entries need, in the order of the search.
* `depth_first` — every graph that is built is depth-first; in a link of one entry, places are ids.
-/

namespace Relink

namespace ModuleGraph

variable {g : ModuleGraph} {excluded : Path → Bool}

/-! ## The recursive search -/

/-- A search of some files, one after the other, that starts with the modules `seen` and ends with the modules
`after`. A file that is excluded, or the module of which has been found, is passed over. Of any other file the
module is found, then what the module requires is searched, and then the other files. -/
inductive Traverses (g : ModuleGraph) (excluded : Path → Bool) :
    (seen : List Module) → List Path → (after : List Module) → Prop
  | done {seen : List Module} : Traverses g excluded seen [] seen
  | pass {seen after : List Module} {p : Path} {ps : List Path}
      (hpass : excluded p = true ∨ contains ⟨seen⟩ p = true) (rest : Traverses g excluded seen ps after) :
      Traverses g excluded seen (p :: ps) after
  | enter {seen inner after : List Module} {m : Module} {ps : List Path}
      (hincluded : excluded m.file = false) (hnew : contains ⟨seen⟩ m.file = false) (hm : m ∈ g.modules)
      (below : Traverses g excluded (seen ++ [m]) m.dependencyPaths.values inner)
      (rest : Traverses g excluded inner ps after) : Traverses g excluded seen (m.file :: ps) after

theorem contains_mono {seen after : List Module} (h : seen ⊆ after) {p : Path}
    (hp : contains ⟨seen⟩ p = true) : contains ⟨after⟩ p = true := by
  rcases contains_iff.mp hp with ⟨m, hm, hfile⟩
  exact contains_iff.mpr ⟨m, h hm, hfile⟩

namespace Traverses

variable {seen after : List Module} {ps qs : List Path}

/-- A search only adds modules. -/
theorem isPrefix (h : Traverses g excluded seen ps after) : seen <+: after := by
  induction h with
  | done => exact List.prefix_rfl
  | pass _ _ ih => exact ih
  | enter _ _ _ _ _ ihbelow ihrest =>
    exact ((List.prefix_append _ _).trans ihbelow).trans ihrest

/-- The search of some files goes on with others. -/
theorem append {mid : List Module} (h : Traverses g excluded seen ps mid)
    (h' : Traverses g excluded mid qs after) : Traverses g excluded seen (ps ++ qs) after := by
  induction h with
  | done => exact h'
  | pass hpass _ ih => exact pass hpass (ih h')
  | enter hincluded hnew hm below _ _ ih => exact enter hincluded hnew hm below (ih h')

theorem exists_of_append (h : Traverses g excluded seen (ps ++ qs) after) :
    ∃ mid, Traverses g excluded seen ps mid ∧ Traverses g excluded mid qs after := by
  induction ps generalizing seen with
  | nil => exact ⟨seen, done, h⟩
  | cons p ps ih =>
    cases h with
    | pass hpass rest =>
      obtain ⟨mid, hps, hqs⟩ := ih rest
      exact ⟨mid, pass hpass hps, hqs⟩
    | enter hincluded hnew hm below rest =>
      obtain ⟨mid, hps, hqs⟩ := ih rest
      exact ⟨mid, enter hincluded hnew hm below hps, hqs⟩

/-- What has been found when a search starts may as well be left out. -/
theorem of_filter {old : List Module} (hold : old ⊆ seen)
    (h : Traverses g excluded seen (ps.filter fun p => !contains ⟨old⟩ p) after) :
    Traverses g excluded seen ps after := by
  induction ps generalizing seen with
  | nil => exact h
  | cons p ps ih =>
    by_cases hp : contains ⟨old⟩ p = true
    · rw [List.filter_cons_of_neg (by simp [hp])] at h
      exact pass (Or.inr (contains_mono hold hp)) (ih hold h)
    · rw [List.filter_cons_of_pos (by simpa using hp)] at h
      cases h with
      | pass hpass rest => exact pass hpass (ih hold rest)
      | enter hincluded hnew hm below rest =>
        have hsub := List.Subset.trans hold ((List.prefix_append _ _).trans below.isPrefix).subset
        exact enter hincluded hnew hm below (ih hsub rest)

/-- What is passed over may as well be left out. -/
theorem of_upcoming {d : Discovery} (h : Traverses g d.isExcluded seen (upcoming d ⟨seen⟩ ps) after) :
    Traverses g d.isExcluded seen ps after := by
  induction ps with
  | nil => exact h
  | cons p ps ih =>
    unfold upcoming at h ih
    by_cases hp : (contains ⟨seen⟩ p || d.isExcluded p) = true
    · simp only [List.dropWhile_cons, hp, if_true] at h
      exact pass ((Bool.or_eq_true_iff.mp hp).symm) (ih h)
    · simpa only [List.dropWhile_cons, hp, if_false, Bool.false_eq_true] using h

/-- A search has one outcome. -/
theorem unique (hdistinct : g.Distinct) {after' : List Module} (h : Traverses g excluded seen ps after)
    (h' : Traverses g excluded seen ps after') : after = after' := by
  induction h generalizing after' with
  | done => cases h' with
    | done => rfl
  | pass hpass _ ih =>
    cases h' with
    | pass _ rest => exact ih rest
    | enter hincluded hnew =>
      rcases hpass with hpass | hpass
      · rw [hincluded] at hpass
        cases hpass
      · rw [hnew] at hpass
        cases hpass
  | @enter seen inner after m ps hincluded hnew hm _ _ ihbelow ihrest =>
    generalize hfile : m.file = file at h'
    cases h' with
    | pass hpass =>
      rw [← hfile] at hpass
      rcases hpass with hpass | hpass
      · rw [hincluded] at hpass
        cases hpass
      · rw [hnew] at hpass
        cases hpass
    | @enter _ inner' _ m' _ _ _ hm' below' rest' =>
      -- the two searches enter modules of one file, and there is one such module
      have hsame : m = m' := by
        obtain ⟨i, hi⟩ := List.getElem?_of_mem hm
        obtain ⟨j, hj⟩ := List.getElem?_of_mem hm'
        have hij := hdistinct.eq_of_components hi hj (by rw [hfile])
        rw [hij, hj] at hi
        exact (Option.some.inj hi).symm
      subst hsame
      have hinner := ihbelow below'
      subst hinner
      exact ihrest rest'

/-- Wiring changes neither what modules require nor their order. -/
theorem wire (h : Traverses g excluded seen ps after) {g' : ModuleGraph} :
    let wired := List.map fun m : Module =>
      { m with dependencies := m.dependencyPaths.filterMap g'.lookup }
    Traverses ⟨wired g.modules⟩ excluded (wired seen) ps (wired after) := by
  intro wired
  have hcontains : ∀ seen p, contains ⟨wired seen⟩ p = contains ⟨seen⟩ p := by
    intro seen p
    unfold contains ModuleGraph.lookup
    rw [List.findIdx?_map]
    rfl
  induction h with
  | done => exact done
  | pass hpass _ ih =>
    refine pass ?_ ih
    rwa [hcontains]
  | @enter seen inner after m ps hincluded hnew hm _ _ ihbelow ihrest =>
    refine enter (m := { m with dependencies := m.dependencyPaths.filterMap g'.lookup }) hincluded ?_
      (List.mem_map_of_mem hm) ?_ ihrest
    · rwa [hcontains]
    · have happend : wired (seen ++ [m]) = wired seen ++ wired [m] := List.map_append
      rwa [happend] at ihbelow

end Traverses

end ModuleGraph

/-! ## The work list of discovery -/

namespace Discovery

open Linking ModuleGraph

variable {d : Discovery}

/-- The module of a file, in some session. -/
def Makes (d : Discovery) (m : Module) : Prop :=
  ∃ s s' made, (d.module m.file).runIn s = (.ok made, s') ∧ m = { made with dependencies := m.dependencies }

theorem Makes.with_dependencies {m : Module} (h : d.Makes m) (dependencies : Table String Nat) :
    d.Makes { m with dependencies := dependencies } := by
  obtain ⟨s, s', made, hmade, hm⟩ := h
  exact ⟨s, s', made, hmade, by rw [hm]⟩

theorem meets_makes {t : FileTree} (file : Path) :
    Meets (fun _ => False) t (d.module file) (Returns fun m => m.file = file ∧ d.Makes m) := by
  intro s hs
  refine ⟨?_, fits_of_forall_not (fun _ h => h) t _⟩
  intro m hm
  have hfile : m.file = file :=
    (meets_module_file (d := d) file s (fits_of_forall_not (fun _ h => h) _ _)).1 m hm
  refine ⟨hfile, s, ((d.module file).runIn s).2, m, ?_, rfl⟩
  rw [hfile]
  exact Prod.ext hm rfl

/-- The work list finds what the recursive search finds: the modules that a new one leads to come before the
other files. -/
theorem traverses_discover {room : Nat} {g g' : ModuleGraph} {pending : List Path} {s s' : Session}
    (h : (discover d room g pending).runIn s = (.ok g', s')) :
    Traverses g' d.isExcluded g.modules pending g'.modules := by
  induction room generalizing g pending s with
  | zero =>
    unfold discover at h
    split at h
    next hdone =>
      cases h
      refine Traverses.of_upcoming ?_
      rw [List.isEmpty_iff.mp hdone]
      exact Traverses.done
    next => cases h
  | succ room ih =>
    unfold discover at h
    split at h
    next hdone =>
      cases h
      refine Traverses.of_upcoming ?_
      rw [hdone]
      exact Traverses.done
    next file others hup =>
      obtain ⟨m, s₁, hm, hrest⟩ := exists_of_runIn_bind h
      have hfile : m.file = file :=
        (meets_module_file (d := d) file s (fits_of_forall_not (fun _ h => h) _ _)).1 m (congrArg Prod.fst hm)
      obtain ⟨hnew, hincluded⟩ := new_of_upcoming_eq_cons hup
      obtain ⟨inner, hbelow, hothers⟩ := (ih hrest).exists_of_append
      have hmem : m ∈ g'.modules :=
        (hbelow.isPrefix.trans hothers.isPrefix).subset (by simp)
      refine Traverses.of_upcoming ?_
      rw [hup]
      subst hfile
      exact Traverses.enter hincluded hnew hmem (hbelow.of_filter (List.subset_append_left _ _)) hothers

/-- The modules of a graph that is built are in the order of the recursive search. -/
theorem traverses_build {entries : List Path} {g : ModuleGraph} {s s' : Session}
    (h : (build d entries).runIn s = (.ok g, s')) : Traverses g d.isExcluded [] entries g.modules := by
  unfold build at h
  obtain ⟨g₀, s₁, hdiscover, hwire⟩ := exists_of_runIn_bind h
  cases hwire
  exact (traverses_discover hdiscover).wire

end Discovery

/-! ## The work list of bundles -/

namespace Digraph

variable {g : Digraph} {skip : Nat → Bool}

/-- A search of some nodes, one after the other, that starts with the nodes `seen` and ends with the nodes
`after`. -/
inductive Walks (g : Digraph) (skip : Nat → Bool) : (seen : List Nat) → List Nat → (after : List Nat) → Prop
  | done {seen : List Nat} : Walks g skip seen [] seen
  | pass {seen after : List Nat} {i : Nat} {rest : List Nat} (hseen : i ∈ seen)
      (hrest : Walks g skip seen rest after) : Walks g skip seen (i :: rest) after
  | enter {seen inner after : List Nat} {i : Nat} {rest : List Nat} (hopen : g.Open skip i) (hnew : i ∉ seen)
      (below : Walks g skip (seen ++ [i]) (g.successors i) inner) (hrest : Walks g skip inner rest after) :
      Walks g skip seen (i :: rest) after

/-- The work list goes through the first nodes as the recursive search does, and then on to the others. -/
theorem visit_of_walks {seen after pending : List Nat} (h : Walks g skip seen pending after) (others : List Nat) :
    g.visit skip seen.reverse (pending ++ others) = g.visit skip after.reverse others := by
  induction h generalizing others with
  | done => rfl
  | @pass seen after i rest hseen _ ih =>
    have hclosed : ¬(i < g.size ∧ seen.reverse.contains i = false ∧ skip i = false) := by
      rintro ⟨-, hnew, -⟩
      simp [hseen] at hnew
    rw [List.cons_append, visit_pass hclosed, ih]
  | @enter seen inner after i rest hopen hnew _ _ ihbelow ihrest =>
    have hopen' : i < g.size ∧ seen.reverse.contains i = false ∧ skip i = false :=
      ⟨hopen.1, by simpa using hnew, hopen.2⟩
    have hbelow := ihbelow (rest ++ others)
    rw [List.reverse_append] at hbelow
    rw [List.cons_append, visit_enter hopen']
    exact hbelow.trans (ihrest others)

theorem preorder_of_walks {root : Nat} {after : List Nat} (h : Walks g skip [] [root] after) :
    g.preorder skip root = after := by
  have hvisit := visit_of_walks h []
  rw [visit_nil] at hvisit
  simpa [preorder] using hvisit

end Digraph

namespace ModuleGraph

variable {g : ModuleGraph} {excluded : Path → Bool}

/-- Nothing is skipped. -/
abbrev skipNothing (_ : Nat) (_ : Module) : Bool := false

theorem open_skipNothing {i : Nat} :
    g.digraph.Open (fun i => (g.modules[i]?).elim true (skipNothing i)) i ↔ i < g.size := by
  rw [← exists_getElem?]
  unfold Digraph.Open
  constructor
  · rintro ⟨hi, -⟩
    exact exists_getElem?.mpr hi
  · rintro ⟨m, hm⟩
    exact ⟨exists_getElem?.mp ⟨m, hm⟩, by simp [hm]⟩

/-- In the order of discovery, a search for files is one for places: the modules that have been found are those
at the first places. -/
theorem Traverses.walks (hdistinct : g.Distinct) (hincluded : ∀ m ∈ g.modules, excluded m.file = false)
    (hexcluded : ∀ p q : Path, p.components = q.components → excluded p = excluded q)
    (hwired : ∀ m ∈ g.modules, m.dependencies = m.dependencyPaths.filterMap g.lookup)
    {seen after : List Module} {ps : List Path} (h : Traverses g excluded seen ps after)
    (hafter : after <+: g.modules) :
    g.digraph.Walks (fun i => (g.modules[i]?).elim true (skipNothing i))
      (List.range seen.length) (ps.filterMap g.lookup) (List.range after.length) := by
  induction h with
  | done => exact Digraph.Walks.done
  | @pass seen after p ps hpass hrest ih =>
    have hwalks := ih hafter
    rcases hpass with hpass | hpass
    · -- an excluded file has no module
      have hnone : g.lookup p = none := by
        refine Option.eq_none_iff_forall_ne_some.mpr fun i hi => ?_
        obtain ⟨m, hm, hfile⟩ := exists_of_lookup hi
        have hm := hincluded m (List.mem_of_getElem? hm)
        rw [hexcluded _ _ hfile, hpass] at hm
        cases hm
      rw [List.filterMap_cons_none hnone]
      exact hwalks
    · -- the module of the file is one of the first ones
      obtain ⟨m, hm, hfile⟩ := contains_iff.mp hpass
      obtain ⟨i, hi, rfl⟩ := List.getElem_of_mem hm
      have hget : g.modules[i]? = some seen[i] := by
        obtain ⟨t, ht⟩ := hrest.isPrefix.trans hafter
        rw [← ht, List.getElem?_append_left hi, List.getElem?_eq_getElem hi]
      have hlookup := hdistinct.lookup hget hfile
      rw [List.filterMap_cons_some hlookup]
      exact Digraph.Walks.pass (List.mem_range.mpr hi) hwalks
  | @enter seen inner after m ps _ hnew hm below rest ihbelow ihrest =>
    -- the module that is entered is at the next place
    have hinner := rest.isPrefix.trans hafter
    have hget : g.modules[seen.length]? = some m := by
      obtain ⟨t, ht⟩ := below.isPrefix.trans hinner
      rw [← ht]
      simp
    have hlookup := hdistinct.lookup hget (Eq.refl m.file.components)
    have hsuccessors : g.digraph.successors seen.length = m.dependencyPaths.values.filterMap g.lookup := by
      have hsucc : g.digraph.successors seen.length = m.dependencies.values := by
        unfold digraph successors
        simp only [hget]
      rw [hsucc, hwired m hm, Table.values_filterMap]
    have hbelow := ihbelow hinner
    rw [List.length_append, List.length_singleton, List.range_succ, ← hsuccessors] at hbelow
    rw [List.filterMap_cons_some hlookup]
    refine Digraph.Walks.enter (open_skipNothing.mpr (exists_getElem?.mp ⟨m, hget⟩)) ?_ hbelow (ihrest hafter)
    simp

/-- A module leads, in the order of the search, to the modules that are found from its file alone, and to these
only. -/
theorem Traverses.reachable (hdistinct : g.Distinct) (hincluded : ∀ m ∈ g.modules, excluded m.file = false)
    (hexcluded : ∀ p q : Path, p.components = q.components → excluded p = excluded q)
    (hwired : ∀ m ∈ g.modules, m.dependencies = m.dependencyPaths.filterMap g.lookup)
    {first : Path} {found : List Module} (h : Traverses g excluded [] [first] found)
    (hfound : found <+: g.modules) (hfirst : excluded first = false) :
    g.lookup first = some 0 ∧ 0 < found.length ∧ g.reachable skipNothing 0 = List.range found.length := by
  have hwalks := h.walks hdistinct hincluded hexcluded hwired hfound
  cases h with
  | pass hpass =>
    rcases hpass with hpass | hpass
    · rw [hfirst] at hpass
      cases hpass
    · cases hpass
  | @enter _ inner _ m _ _ _ hm below rest =>
    cases rest
    obtain ⟨t, ht⟩ := below.isPrefix.trans hfound
    have hget : g.modules[0]? = some m := by
      rw [← ht]
      rfl
    have hlookup := hdistinct.lookup hget (Eq.refl m.file.components)
    rw [List.filterMap_cons_some hlookup, List.filterMap_nil] at hwalks
    refine ⟨hlookup, ?_, Digraph.preorder_of_walks hwalks⟩
    have hle := below.isPrefix.length_le
    simp only [List.nil_append, List.length_singleton] at hle
    omega

end ModuleGraph

/-! ## Graphs in the order of the search -/

namespace Discovery

open Linking ModuleGraph

variable {d : Discovery}

/-- A set of files that contains the entries and what its modules require, unless it is excluded. -/
structure Closed (d : Discovery) (entries : List Path) (g : ModuleGraph) (S : Path → Prop) : Prop where
  congr : ∀ {p q : Path}, p.components = q.components → S p → S q
  entry : ∀ p ∈ entries, d.isExcluded p = false → S p
  next : ∀ m ∈ g.modules, S m.file → ∀ p ∈ m.dependencyPaths.values, d.isExcluded p = false → S p

/-- The modules of a graph are of different files, those of the least closed set, in the order of the recursive
search. They depend on those of the files that they require which are in the graph. What the first entry leads to
comes first. -/
structure DepthFirst (d : Discovery) (entries : List Path) (g : ModuleGraph) : Prop where
  made : ∀ m ∈ g.modules, d.Makes m
  distinct : g.Distinct
  included : ∀ m ∈ g.modules, d.isExcluded m.file = false
  closed : Closed d entries g fun p => g.contains p = true
  least : ∀ S, Closed d entries g S → ∀ m ∈ g.modules, S m.file
  order : ∀ found, Traverses g d.isExcluded [] entries found ↔ found = g.modules
  ordered : (∀ file a, d.cache.get? file = some a → a.record.dependencyPaths.Ordered) →
    ∀ m ∈ g.modules, m.dependencyPaths.Ordered
  wired : ∀ m ∈ g.modules, m.dependencies = m.dependencyPaths.filterMap g.lookup
  reachable : ∀ first rest, entries = first :: rest → d.isExcluded first = false →
    ∃ found, Traverses g d.isExcluded [] [first] found ∧ found <+: g.modules ∧ 0 < found.length ∧
      g.lookup first = some 0 ∧ g.reachable skipNothing 0 = List.range found.length

/-- What a module requires is in the order of the specifiers, unless the cache has it in another one. -/
theorem meets_module_ordered {t : FileTree} (hcache : ∀ file a, d.cache.get? file = some a →
    a.record.dependencyPaths.Ordered) (file : Path) :
    Meets (fun _ => False) t (d.module file) (Returns fun m => m.dependencyPaths.Ordered) := by
  have hall : ∀ s : Session, Fits (fun _ => False) d.resolver.tree s.manifests :=
    fun s => fits_of_forall_not (fun _ h => h) _ _
  have hmodule : Meets (fun _ => False) d.resolver.tree (d.module file)
      (Returns fun m => m.dependencyPaths.Ordered) := by
    refine meets_module (meets_opened file) ?_ ?_
    · intro m hm _
      exact (meets_analysed hm).mono fun r hr m' hm' => (hr m' hm').2.ordered
    · intro m a _ hget _
      exact hcache file a hget
  intro s hs
  exact ⟨(hmodule s (hall s)).1, fits_of_forall_not (fun _ h => h) t _⟩

theorem Discovered.closed {entries : List Path} {g : ModuleGraph} (h : Discovered d entries g) :
    Closed d entries g fun p => g.contains p = true where
  congr := by
    intro p q hpq hp
    obtain ⟨m, hm, hfile⟩ := contains_iff.mp hp
    exact contains_iff.mpr ⟨m, hm, hfile.trans hpq⟩
  entry := by
    intro p hp hincluded
    refine (h.complete p (LedTo.entry hp)).resolve_left ?_
    simp [hincluded]
  next := by
    intro m hm _ p hp hincluded
    refine (h.complete p (LedTo.next hm (h.ledTo m hm) hp)).resolve_left ?_
    simp [hincluded]

/-- A closed set has every file that the entries lead to and that is not excluded, if none of the modules on the
way is. -/
theorem Closed.of_ledTo {entries : List Path} {g : ModuleGraph} {S : Path → Prop} (h : Closed d entries g S)
    (hincluded : ∀ m ∈ g.modules, d.isExcluded m.file = false) {p : Path} (hp : LedTo g entries p)
    (hpincluded : d.isExcluded p = false) : S p := by
  induction hp with
  | entry hp => exact h.entry _ hp hpincluded
  | next hm _ hp ih => exact h.next _ hm (ih (hincluded _ hm)) _ hp hpincluded

theorem depthFirst_of_runIn {entries : List Path} {g : ModuleGraph} {s s' : Session}
    (h : (build d entries).runIn s = (.ok g, s')) : DepthFirst d entries g := by
  have hfits := fits_of_forall_not (fun _ h => h) d.resolver.tree s.manifests
  obtain ⟨hdiscovered, hmade⟩ := (meets_build (P := d.Makes) meets_makes
    (fun m dependencies hm => hm.with_dependencies dependencies) s hfits).1 g (congrArg Prod.fst h)
  have htraverses := traverses_build h
  refine ⟨hmade, hdiscovered.distinct, hdiscovered.included, hdiscovered.closed, ?_, ?_, ?_, hdiscovered.wired, ?_⟩
  · intro S hS m hm
    exact hS.of_ledTo hdiscovered.included (hdiscovered.ledTo m hm) (hdiscovered.included m hm)
  · intro found
    constructor
    · intro hfound
      exact hfound.unique hdiscovered.distinct htraverses
    · rintro rfl
      exact htraverses
  · intro hcache
    have hmodule : ∀ file, Meets (fun _ => False) d.resolver.tree (d.module file)
        (Returns fun m => m.file = file ∧ m.dependencyPaths.Ordered) :=
      fun file => ((meets_module_file file).and (meets_module_ordered hcache file)).mono
        fun r hr m hm => ⟨hr.1 m hm, hr.2 m hm⟩
    exact ((meets_build hmodule (fun m dependencies hm => hm) s hfits).1 g (congrArg Prod.fst h)).2
  · rintro first rest rfl hfirst
    have hsplit : Traverses g d.isExcluded [] ([first] ++ rest) g.modules := htraverses
    obtain ⟨found, hfound, hrest⟩ := hsplit.exists_of_append
    obtain ⟨hlookup, hpos, hreachable⟩ := hfound.reachable hdiscovered.distinct hdiscovered.included isExcluded_congr
      hdiscovered.wired hrest.isPrefix hfirst
    exact ⟨found, hfound, hrest.isPrefix, hpos, hlookup, hreachable⟩

end Discovery

namespace Linker

open Linking ModuleGraph Relink.Partition

variable {l : Linker} {t : FileTree}

/-- The ids of a link of one entry are the places of the modules in the order of discovery. -/
theorem ids_of_entry {e : Path} (hentries : l.entries = [e]) (hmain : l.config.plugin = false) {output : LinkOutput}
    (h : (l.link t).1 = .ok output) :
    ∃ (g : ModuleGraph) (s : Session) (b : Bundle), (l.graph t).runIn l.session = (.ok g, s) ∧
      output.bundles = [b] ∧ b.assembly = .dense ∧ b.artifacts.length = g.size ∧
      ∀ (i : Nat) (a : Artifact), b.artifacts[i]? = some a →
        a.record.id = .dense i ∧ ∃ m, g.modules[i]? = some m ∧ a.record.file = m.file := by
  obtain ⟨g, s, parts, made, kept, hgraph, hlinked, -⟩ := link_cases h
  have hpartition := hlinked.partitioned
  rw [hentries, hmain] at hpartition
  obtain ⟨first, plugins, entry, rest, hfirst, hlookup, hparts, hrest⟩ := partition_cases hpartition
  cases hfirst
  cases hrest
  subst hparts
  have hdepthFirst : Discovery.DepthFirst (l.discovery t) [e] g := by
    unfold graph at hgraph
    obtain ⟨-, s₁, -, hbuild⟩ := exists_of_runIn_bind hgraph
    rw [hentries] at hbuild
    exact Discovery.depthFirst_of_runIn hbuild
  -- the modules of the bundle are all modules, in the order of the graph
  have hmodules : (main g false [] entry).modules = List.range g.size := by
    obtain ⟨m, hm, hfile⟩ := exists_of_lookup hlookup
    have hincluded : (l.discovery t).isExcluded e = false := by
      rw [← Discovery.isExcluded_congr _ _ hfile]
      exact hdepthFirst.included m (List.mem_of_getElem? hm)
    obtain ⟨found, hfound, -, -, hlookup', hreachable⟩ := hdepthFirst.reachable e [] rfl hincluded
    rw [hlookup] at hlookup'
    cases hlookup'
    have hskip : (fun (i : Nat) (m : Module) => i != 0 && inPlugin [] m.file) = skipNothing := by
      funext i m
      simp [inPlugin]
    rw [modules_main, hskip, hreachable, (hdepthFirst.order found).mp hfound]
    rfl
  have hbundles := hlinked.bundles
  obtain ⟨b, bs, hb, hbs, houtput⟩ := List.forall₂_cons_left_iff.mp hbundles
  cases hbs
  have hbundle := hb.bundle
  rw [hmodules] at hbundle
  refine ⟨g, s, b, hgraph, houtput, by rw [hbundle]; rfl, by rw [hbundle]; simp, ?_⟩
  intro i a ha
  have hplace : (main g false [] entry).modules[i]? = some i ∧ a = made i := by
    rw [hbundle, List.getElem?_map, Option.map_eq_some_iff] at ha
    obtain ⟨j, hj, rfl⟩ := ha
    obtain ⟨hi, hij⟩ := List.getElem?_eq_some_iff.mp hj
    rw [List.getElem_range] at hij
    subst hij
    exact ⟨hmodules ▸ hj, rfl⟩
  obtain ⟨hi, rfl⟩ := hplace
  have hmem : i ∈ modulesOf [main g false [] entry] :=
    mem_modulesOf.mpr ⟨_, List.mem_cons_self, List.mem_of_getElem? hi⟩
  obtain ⟨m, hm, hid, hfile, -⟩ := hlinked.record hmem
  rw [dense_id hlinked.partitioned List.mem_cons_self rfl hi] at hid
  exact ⟨(Option.some.inj hid).symm, m, hm, hfile⟩

/-- Every graph that is built is in the order of the recursive search, and the ids of a link of one entry are the
places of the modules in this order. -/
theorem depth_first :
    (∀ (d : Discovery) (entries : List Path) (s s' : Session) (g : ModuleGraph),
      (build d entries).runIn s = (.ok g, s') → Discovery.DepthFirst d entries g) ∧
    ∀ (l : Linker) (t : FileTree) (e : Path) (output : LinkOutput), l.entries = [e] → l.config.plugin = false →
      (l.link t).1 = .ok output →
      ∃ (g : ModuleGraph) (s : Session) (b : Bundle), (l.graph t).runIn l.session = (.ok g, s) ∧
        output.bundles = [b] ∧ b.assembly = .dense ∧ b.artifacts.length = g.size ∧
        ∀ (i : Nat) (a : Artifact), b.artifacts[i]? = some a →
          a.record.id = .dense i ∧ ∃ m, g.modules[i]? = some m ∧ a.record.file = m.file := by
  constructor
  · intro d entries s s' g h
    exact Discovery.depthFirst_of_runIn h
  · intro l t e output hentries hmain h
    exact ids_of_entry hentries hmain h

/-- Two modules that require each other, and a module that both require, which is discovered between them. -/
def sharedModule : FileTree :=
  .ofTexts ["work"] [["work"]] [
    (["work", "main.js"], "require(\"./b\");\nrequire(\"./a\");\n"),
    (["work", "a.js"], "require(\"./shared\");\nrequire(\"./b\");\n"),
    (["work", "b.js"], "require(\"./a\");\nrequire(\"./shared\");\n"),
    (["work", "shared.js"], "exports.s = 1;\n")]

/-- A configuration of one entry. -/
def soloConfig : Config :=
  { Config.default with entries := [⟨"main.js"⟩], bases := [⟨"."⟩], minify := false }

/-- A graph and a link of one entry, in the order of the recursive search. -/
theorem depth_first_of_sharedModule : ∃ (l : Linker) (output : LinkOutput) (g : ModuleGraph) (s : Session),
    ofConfig sharedModule soloConfig Minifier.unchanged (fun _ => false) = .ok l ∧
      (build (l.discovery sharedModule) l.entries).runIn l.session = (.ok g, s) ∧
      g.modules.map Module.basePath = ["main.js", "a.js", "b.js", "shared.js"] ∧
      Discovery.DepthFirst (l.discovery sharedModule) l.entries g ∧ (l.link sharedModule).1 = .ok output ∧
      ∃ (g : ModuleGraph) (s : Session) (b : Bundle), (l.graph sharedModule).runIn l.session = (.ok g, s) ∧
        output.bundles = [b] ∧ b.assembly = .dense ∧ b.artifacts.length = g.size ∧
        ∀ (i : Nat) (a : Artifact), b.artifacts[i]? = some a →
          a.record.id = .dense i ∧ ∃ m, g.modules[i]? = some m ∧ a.record.file = m.file := by
  have hcheck : ((ofConfig sharedModule soloConfig Minifier.unchanged fun _ => false).toOption.any fun l =>
      (l.link sharedModule).1.toOption.any fun _ =>
        ((build (l.discovery sharedModule) l.entries).runIn l.session).1.toOption.any fun g =>
          l.entries.length == 1 && !l.config.plugin &&
            g.modules.map Module.basePath == ["main.js", "a.js", "b.js", "shared.js"]) = true := by
    decide +kernel
  obtain ⟨l, hl, hcheck⟩ := exists_of_any hcheck
  obtain ⟨output, hlink, hcheck⟩ := exists_of_any hcheck
  obtain ⟨g, hg, hcheck⟩ := exists_of_any hcheck
  simp only [Bool.and_eq_true, beq_iff_eq, Bool.not_eq_true'] at hcheck
  obtain ⟨⟨hentries, hmain⟩, hpaths⟩ := hcheck
  obtain ⟨e, he⟩ := List.length_eq_one_iff.mp hentries
  have hbuild : (build (l.discovery sharedModule) l.entries).runIn l.session =
      (.ok g, ((build (l.discovery sharedModule) l.entries).runIn l.session).2) := Prod.ext hg rfl
  exact ⟨l, output, g, _, hl, hbuild, hpaths, depth_first.1 _ _ _ _ g hbuild, hlink,
    depth_first.2 l sharedModule e output he hmain hlink⟩

end Linker

end Relink
