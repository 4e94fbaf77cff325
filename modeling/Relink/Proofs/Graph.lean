import Mathlib.Data.List.TakeWhile
import Relink.Graph
import Relink.Proofs.Digraph
import Relink.Proofs.Resolver

/-!
# What is discovered

The modules of a graph are of different files, none of them excluded, and what a module requires is a
module or excluded.

* `Explored` — the condition on the modules found so far and the files that are still to be taken up.
* `Discovered` — the condition on a finished graph.
* `meets_build` — every graph that is built is discovered.
-/

namespace Relink

namespace ModuleGraph

variable {g : ModuleGraph}

/-! ## Modules by their files -/

/-- The modules of a graph are of different files. -/
def Distinct (g : ModuleGraph) : Prop :=
  g.modules.Pairwise fun m m' => m.file.components ≠ m'.file.components

theorem exists_of_lookup {file : Path} {i : Nat} (h : g.lookup file = some i) :
    ∃ m, g.modules[i]? = some m ∧ m.file.components = file.components := by
  unfold lookup at h
  rcases List.findIdx?_eq_some_iff_getElem.mp h with ⟨hi, hsame, -⟩
  exact ⟨g.modules[i], List.getElem?_eq_getElem hi, Path.same_iff.mp hsame⟩

theorem contains_iff {file : Path} :
    g.contains file = true ↔ ∃ m ∈ g.modules, m.file.components = file.components := by
  unfold contains lookup
  rw [List.findIdx?_isSome, List.any_eq_true]
  simp only [Path.same_iff]

/-- Two places with modules of one file are the same. -/
theorem Distinct.eq_of_components (hd : g.Distinct) {i j : Nat} {m m' : Module}
    (hi : g.modules[i]? = some m) (hj : g.modules[j]? = some m')
    (h : m.file.components = m'.file.components) : i = j := by
  rcases List.getElem?_eq_some_iff.mp hi with ⟨hi', rfl⟩
  rcases List.getElem?_eq_some_iff.mp hj with ⟨hj', rfl⟩
  have hpair := List.pairwise_iff_getElem.mp hd
  -- of two places, the later one is of another file
  rcases Nat.lt_trichotomy i j with hlt | heq | hgt
  · exact absurd h (hpair i j hi' hj' hlt)
  · exact heq
  · exact absurd h.symm (hpair j i hj' hi' hgt)

/-- In a graph of modules of different files, a module is looked up by its file. -/
theorem Distinct.lookup (hd : g.Distinct) {i : Nat} {m : Module} {file : Path}
    (hi : g.modules[i]? = some m) (hfile : m.file.components = file.components) :
    g.lookup file = some i := by
  have hcontains : g.contains file = true :=
    contains_iff.mpr ⟨m, List.mem_of_getElem? hi, hfile⟩
  rcases Option.isSome_iff_exists.mp hcontains with ⟨j, hj⟩
  rcases exists_of_lookup hj with ⟨m', hm', hfile'⟩
  rw [hj, hd.eq_of_components hi hm' (hfile.trans hfile'.symm)]

/-! ## Ways between modules -/

/-- The entries lead to a file, through what modules require. -/
inductive LedTo (g : ModuleGraph) (entries : List Path) : Path → Prop
  | entry {p : Path} (h : p ∈ entries) : LedTo g entries p
  | next {m : Module} {p : Path} (hm : m ∈ g.modules) (h : LedTo g entries m.file)
      (hp : p ∈ m.dependencyPaths.values) : LedTo g entries p

theorem LedTo.mono {g' : ModuleGraph} (hsub : ∀ m ∈ g.modules, m ∈ g'.modules) {entries : List Path}
    {p : Path} (h : LedTo g entries p) : LedTo g' entries p := by
  induction h with
  | entry h => exact LedTo.entry h
  | next hm _ hp ih => exact LedTo.next (hsub _ hm) ih hp

end ModuleGraph

/-! ## The search -/

namespace Discovery

open ModuleGraph

variable {d : Discovery}

/-- Whether a file is excluded does not depend on how it is spelled. -/
theorem isExcluded_congr (p q : Path) (h : p.components = q.components) : d.isExcluded p = d.isExcluded q := by
  unfold isExcluded
  rw [funext (Path.startsWith_congr h)]

/-- What has been found so far: the modules are of different files that are not excluded, the entries
lead to them, and what the entries lead to is found, excluded, or still to be taken up. -/
structure Explored (d : Discovery) (entries : List Path) (g : ModuleGraph) (pending : List Path) :
    Prop where
  distinct : g.Distinct
  included : ∀ m ∈ g.modules, d.isExcluded m.file = false
  covered : ∀ p, LedTo g entries p → d.isExcluded p = true ∨ g.contains p = true ∨ p ∈ pending
  ledTo : ∀ m ∈ g.modules, LedTo g entries m.file
  pending_ledTo : ∀ p ∈ pending, LedTo g entries p

theorem explored_start (d : Discovery) (entries : List Path) : Explored d entries .empty entries where
  distinct := List.Pairwise.nil
  included := by simp [ModuleGraph.empty]
  covered := by
    intro p hp
    cases hp with
    | entry h => exact Or.inr (Or.inr h)
    | next hm => simp [ModuleGraph.empty] at hm
  ledTo := by simp [ModuleGraph.empty]
  pending_ledTo := fun p hp => LedTo.entry hp

theorem mem_pending_of_mem_upcoming {g : ModuleGraph} {pending : List Path} {p : Path}
    (h : p ∈ upcoming d g pending) : p ∈ pending :=
  (List.dropWhile_sublist _).subset h

/-- What is passed over has become a module already, or is excluded. -/
theorem mem_upcoming_or_passed {g : ModuleGraph} {pending : List Path} {p : Path} (h : p ∈ pending) :
    d.isExcluded p = true ∨ g.contains p = true ∨ p ∈ upcoming d g pending := by
  unfold upcoming
  rw [← List.takeWhile_append_dropWhile (p := fun p => g.contains p || d.isExcluded p) (l := pending)] at h
  rcases List.mem_append.mp h with hfront | hback
  · have hpassed := List.mem_takeWhile_imp hfront
    rcases Bool.or_eq_true_iff.mp hpassed with hc | he
    · exact Or.inr (Or.inl hc)
    · exact Or.inl he
  · exact Or.inr (Or.inr hback)

theorem new_of_upcoming_eq_cons {g : ModuleGraph} {pending : List Path} {file : Path} {others : List Path}
    (h : upcoming d g pending = file :: others) :
    g.contains file = false ∧ d.isExcluded file = false := by
  have hhead := List.head?_dropWhile_not (fun p => g.contains p || d.isExcluded p) pending
  unfold upcoming at h
  rw [h] at hhead
  simpa using hhead

namespace Explored

variable {entries pending : List Path} {g : ModuleGraph}

theorem contains_or_excluded (h : Explored d entries g pending) (hdone : upcoming d g pending = [])
    {p : Path} (hp : LedTo g entries p) : d.isExcluded p = true ∨ g.contains p = true := by
  rcases h.covered p hp with he | hc | hpending
  · exact Or.inl he
  · exact Or.inr hc
  · rcases mem_upcoming_or_passed (d := d) (g := g) hpending with he | hc | hup
    · exact Or.inl he
    · exact Or.inr hc
    · rw [hdone] at hup
      simp at hup

/-- What the entries lead to is left to the next step, if it has neither been found nor been excluded. -/
theorem passed_or_next (h : Explored d entries g pending) {file : Path} {others : List Path}
    (hup : upcoming d g pending = file :: others) {p : Path} (hp : LedTo g entries p) :
    d.isExcluded p = true ∨ g.contains p = true ∨ p ∈ file :: others := by
  rcases h.covered p hp with he | hc | hpending
  · exact Or.inl he
  · exact Or.inr (Or.inl hc)
  · rw [← hup]
    exact mem_upcoming_or_passed hpending

theorem contains_append {m : Module} {p : Path} (hp : g.contains p = true) :
    ModuleGraph.contains ⟨g.modules ++ [m]⟩ p = true := by
  rcases contains_iff.mp hp with ⟨m', hm', hfile⟩
  exact contains_iff.mpr ⟨m', List.mem_append_left _ hm', hfile⟩

/-- After a step, what the entries lead to is still found, excluded, or to be taken up. -/
theorem covered_step (h : Explored d entries g pending) {file : Path} {others : List Path}
    (hup : upcoming d g pending = file :: others) {m : Module} (hm : m.file = file) {p : Path}
    (hp : LedTo ⟨g.modules ++ [m]⟩ entries p) :
    d.isExcluded p = true ∨ ModuleGraph.contains ⟨g.modules ++ [m]⟩ p = true ∨
      p ∈ (m.dependencyPaths.values.filter fun p => !g.contains p) ++ others := by
  have hself : ModuleGraph.contains ⟨g.modules ++ [m]⟩ file = true :=
    contains_iff.mpr ⟨m, by simp, by rw [hm]⟩
  -- what is led to without the new module is found as before, or is the new file
  have hold : ∀ p, LedTo g entries p → d.isExcluded p = true
      ∨ ModuleGraph.contains ⟨g.modules ++ [m]⟩ p = true
      ∨ p ∈ (m.dependencyPaths.values.filter fun p => !g.contains p) ++ others := by
    intro p hp
    rcases h.passed_or_next hup hp with he | hc | hmem
    · exact Or.inl he
    · exact Or.inr (Or.inl (contains_append hc))
    · rcases List.mem_cons.mp hmem with rfl | hmem
      · exact Or.inr (Or.inl hself)
      · exact Or.inr (Or.inr (List.mem_append_right _ hmem))
  cases hp with
  | entry hentry => exact hold p (LedTo.entry hentry)
  | @next m' _ hm' hled hdep =>
    -- the last module on the way is an old one, or the new one
    rcases List.mem_append.mp hm' with hm' | hm'
    · exact hold p (LedTo.next hm' (h.ledTo m' hm') hdep)
    · -- what the new module requires is a module, or has become pending
      rw [List.mem_singleton.mp hm'] at hdep
      by_cases hc : g.contains p = true
      · exact Or.inr (Or.inl (contains_append hc))
      · refine Or.inr (Or.inr (List.mem_append_left _ (List.mem_filter.mpr ⟨hdep, ?_⟩)))
        simpa using hc

/-- A step of the search takes up the next file, and what its module requires. -/
theorem step (h : Explored d entries g pending) {file : Path} {others : List Path}
    (hup : upcoming d g pending = file :: others) {m : Module} (hm : m.file = file) :
    Explored d entries ⟨g.modules ++ [m]⟩
      ((m.dependencyPaths.values.filter fun p => !g.contains p) ++ others) := by
  rcases new_of_upcoming_eq_cons hup with ⟨hnew, hincluded⟩
  have hsub : ∀ m' ∈ g.modules, m' ∈ g.modules ++ [m] := fun m' hm' => List.mem_append_left _ hm'
  have hpending : ∀ p ∈ file :: others, LedTo ⟨g.modules ++ [m]⟩ entries p := by
    intro p hp
    rw [← hup] at hp
    exact (h.pending_ledTo p (mem_pending_of_mem_upcoming hp)).mono hsub
  have hled : LedTo ⟨g.modules ++ [m]⟩ entries m.file := by
    rw [hm]
    exact hpending file List.mem_cons_self
  refine ⟨?_, ?_, fun p hp => h.covered_step hup hm hp, ?_, ?_⟩
  · -- the new module is of a file of which there is none yet
    refine List.pairwise_append.mpr ⟨h.distinct, List.pairwise_singleton _ _, ?_⟩
    intro m' hm' m'' hm'' heq
    rw [List.mem_singleton.mp hm'', hm] at heq
    have hcontra := contains_iff.mpr ⟨m', hm', heq⟩
    rw [hnew] at hcontra
    cases hcontra
  · intro m' hm'
    rcases List.mem_append.mp hm' with hm' | hm'
    · exact h.included m' hm'
    · rw [List.mem_singleton.mp hm', hm]
      exact hincluded
  · intro m' hm'
    rcases List.mem_append.mp hm' with hm' | hm'
    · exact (h.ledTo m' hm').mono hsub
    · rw [List.mem_singleton.mp hm']
      exact hled
  · intro p hp
    -- what is pending is required by the new module, or was pending before
    rcases List.mem_append.mp hp with hp | hp
    · exact LedTo.next (by simp) hled (List.mem_filter.mp hp).1
    · exact hpending p (List.mem_cons_of_mem _ hp)

end Explored

/-- A search that returns has taken up everything, and what holds of each module that is made holds of
all modules that it has found. -/
theorem meets_discover {trusted : Path → Prop} {t : FileTree} {P : Module → Prop} {entries : List Path}
    (hmodule : ∀ file, Linking.Meets trusted t (d.module file) (Linking.Returns fun m => m.file = file ∧ P m))
    (room : Nat) {g : ModuleGraph} {pending : List Path} (hg : Explored d entries g pending)
    (hP : ∀ m ∈ g.modules, P m) :
    Linking.Meets trusted t (discover d room g pending) (Linking.Returns fun g' =>
      (∀ m ∈ g'.modules, P m) ∧ ∃ rest, Explored d entries g' rest ∧ upcoming d g' rest = []) := by
  -- the search keeps the modules explored, and makes room for one more file in every step
  induction room generalizing g pending with
  | zero =>
    unfold discover
    split
    next hdone =>
      exact Linking.Meets.returns_pure ⟨hP, pending, hg, List.isEmpty_iff.mp hdone⟩
    next => exact Linking.Meets.returns_fail
  | succ room ih =>
    unfold discover
    split
    next hdone => exact Linking.Meets.returns_pure ⟨hP, pending, hg, hdone⟩
    next file others hup =>
      refine (hmodule file).returns_bind ?_
      intro m hm
      rcases hm with ⟨hfile, hPm⟩
      refine ih (hg.step hup hfile) ?_
      intro m' hm'
      rcases List.mem_append.mp hm' with hm' | hm'
      · exact hP m' hm'
      · rw [List.mem_singleton.mp hm']
        exact hPm

/-! ## Finished graphs -/

/-- The modules of a graph are of different files that are not excluded, the entries lead to them, and
what the entries lead to is a module or excluded. What a module requires is found in the graph. -/
structure Discovered (d : Discovery) (entries : List Path) (g : ModuleGraph) : Prop where
  distinct : g.Distinct
  included : ∀ m ∈ g.modules, d.isExcluded m.file = false
  ledTo : ∀ m ∈ g.modules, LedTo g entries m.file
  complete : ∀ p, LedTo g entries p → d.isExcluded p = true ∨ g.contains p = true
  wired : ∀ m ∈ g.modules, m.dependencies = m.dependencyPaths.filterMap g.lookup

theorem lookup_wire (g : ModuleGraph) : g.wire.lookup = g.lookup := by
  funext file
  unfold ModuleGraph.lookup wire
  rw [List.findIdx?_map]
  rfl

theorem mem_wire {g : ModuleGraph} {m : Module} (h : m ∈ g.wire.modules) :
    ∃ m' ∈ g.modules, m = { m' with dependencies := m'.dependencyPaths.filterMap g.lookup } := by
  rcases List.mem_map.mp h with ⟨m', hm', rfl⟩
  exact ⟨m', hm', rfl⟩

theorem ledTo_wire {g : ModuleGraph} {entries : List Path} {p : Path} :
    LedTo g.wire entries p ↔ LedTo g entries p := by
  constructor
  · intro h
    induction h with
    | entry h => exact LedTo.entry h
    | next hm _ hp ih =>
      rcases mem_wire hm with ⟨m', hm', rfl⟩
      exact LedTo.next hm' ih hp
  · intro h
    induction h with
    | entry h => exact LedTo.entry h
    | @next m p hm _ hp ih =>
      -- wiring only adds to a module what it depends on, so the way stays
      have hmem := List.mem_map_of_mem
        (f := fun m : Module => { m with dependencies := m.dependencyPaths.filterMap g.lookup }) hm
      exact LedTo.next hmem ih hp

theorem Explored.discovered {g : ModuleGraph} {entries rest : List Path} (h : Explored d entries g rest)
    (hdone : upcoming d g rest = []) : Discovered d entries g.wire where
  distinct := by
    unfold Distinct wire
    exact List.Pairwise.map _ (fun _ _ h => h) h.distinct
  included := by
    intro m hm
    rcases mem_wire hm with ⟨m', hm', rfl⟩
    exact h.included m' hm'
  ledTo := by
    intro m hm
    rcases mem_wire hm with ⟨m', hm', rfl⟩
    exact ledTo_wire.mpr (h.ledTo m' hm')
  complete := by
    intro p hp
    have hcontains : g.wire.contains p = g.contains p := by
      unfold ModuleGraph.contains
      rw [lookup_wire]
    rw [hcontains]
    exact h.contains_or_excluded hdone (ledTo_wire.mp hp)
  wired := by
    intro m hm
    rcases mem_wire hm with ⟨m', hm', rfl⟩
    rw [lookup_wire]

/-- Every graph that is built is discovered, and what holds of each module that is made, whatever it
depends on, holds of its modules. -/
theorem meets_build {trusted : Path → Prop} {t : FileTree} {P : Module → Prop} {entries : List Path}
    (hmodule : ∀ file, Linking.Meets trusted t (d.module file) (Linking.Returns fun m => m.file = file ∧ P m))
    (hwire : ∀ m dependencies, P m → P { m with dependencies := dependencies }) :
    Linking.Meets trusted t (build d entries) (Linking.Returns fun g =>
      Discovered d entries g ∧ ∀ m ∈ g.modules, P m) := by
  unfold build
  refine (meets_discover hmodule (limit d) (explored_start d entries) ?_).returns_bind ?_
  · simp [ModuleGraph.empty]
  · rintro g ⟨hP, rest, hexplored, hdone⟩
    refine Linking.Meets.returns_pure ⟨hexplored.discovered hdone, ?_⟩
    intro m hm
    rcases mem_wire hm with ⟨m', hm', rfl⟩
    exact hwire m' _ (hP m' hm')

end Discovery

end Relink
