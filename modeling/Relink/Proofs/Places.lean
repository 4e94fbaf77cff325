import Relink.Proofs.Direct
import Relink.Proofs.Failures

/-!
# One module for a file

A search takes up every file once, as long as it reaches each by the only direct path to it. Paths with steps
upwards only arise from bare specifiers that have such steps and stand for files in the directories for
packages.

* `Resolver.meets_resolve` — a specifier stands for a file, by a direct path.
* `Discovery.Finds` — the paths that a search reaches.
* `Discovery.StaysDirect` — the conditions on the start of a search and on the specifiers that it meets.
* `build_of_staysDirect` — the search ends, and its modules are of different files.
* `exists_two_modules_of_one_file` — without the condition, two modules can be of one file.
-/

namespace Relink

open Linking

variable {trusted : Path → Prop}

/-! ## Where specifiers lead -/

namespace Resolver

variable {r : Resolver}

/-- A path that is found, if one is, leads directly to a file. -/
def FindsPlace (r : Resolver) (o : Option Path) : Prop := ∀ p, o = some p → r.tree.IsPlace p

theorem findsPlace_firstFile {ps : List Path} (h : ∀ p ∈ ps, p.IsDirect) : r.FindsPlace (r.firstFile ps) :=
  fun p hp => ⟨h p (List.mem_of_find?_eq_some hp), List.find?_some hp⟩

theorem isDirect_js {p : Path} (h : p.IsDirect) : (p.withSuffix ".js").IsDirect :=
  h.withSuffix (by decide) (by decide)

theorem isDirect_json {p : Path} (h : p.IsDirect) : (p.withSuffix ".json").IsDirect :=
  h.withSuffix (by decide) (by decide)

theorem isDirect_withExtensions {p : Path} (h : p.IsDirect) : ∀ q ∈ withExtensions p, q.IsDirect := by
  intro q hq
  unfold withExtensions at hq
  simp only [List.mem_cons, List.not_mem_nil, or_false] at hq
  rcases hq with rfl | rfl | rfl
  · exact h
  · exact isDirect_js h
  · exact isDirect_json h

theorem meets_entryFile {directory : Path} (h : directory.isAbsolute = true) :
    Meets trusted r.tree (r.entryFile directory) (Returns r.FindsPlace) := by
  unfold entryFile
  refine Meets.bind (steady_manifestOf trusted) ?_ ?_
  · intro m _
    have hdirect := Path.isDirect_normalize (Path.isAbsolute_join h ⟨r.entryName m⟩)
    simp only
    split
    next f hf =>
      refine Meets.returns_pure ?_
      rw [← hf]
      exact findsPlace_firstFile (isDirect_withExtensions hdirect)
    next =>
      refine Meets.returns_pure ?_
      split
      · refine findsPlace_firstFile fun p hp => ?_
        rw [List.mem_singleton.mp hp]
        exact hdirect.child (by decide)
      · rintro p ⟨⟩
  · rintro e - a ⟨⟩

theorem meets_exportedFile {directory : Path} (h : directory.isAbsolute = true) (name : String) :
    Meets trusted r.tree (r.exportedFile directory name) (Returns r.FindsPlace) := by
  unfold exportedFile
  refine Meets.bind (steady_manifestOf trusted) ?_ ?_
  · intro m _
    refine Meets.returns_pure (findsPlace_firstFile fun p hp => ?_)
    obtain ⟨⟨key, target⟩, -, hp⟩ := List.mem_flatMap.mp hp
    have hdirect := Path.isDirect_normalize (Path.isAbsolute_join h ⟨target⟩)
    simp only [List.mem_cons, List.not_mem_nil, or_false] at hp
    rcases hp with rfl | rfl
    · exact hdirect
    · exact isDirect_js hdirect
  · rintro e - a ⟨⟩

theorem meets_fileOrPackage {p : Path} (h : p.IsDirect) :
    Meets trusted r.tree (r.fileOrPackage p) (Returns r.FindsPlace) := by
  unfold fileOrPackage
  split
  next f hf =>
    refine Meets.returns_pure ?_
    rw [← hf]
    exact findsPlace_firstFile (isDirect_withExtensions h)
  next =>
    split
    · exact meets_entryFile h.isAbsolute
    · refine Meets.returns_pure ?_
      rintro p ⟨⟩

theorem meets_oneOf {specifier : String} {importer : Path} {extended package : Option Path}
    (hextended : r.FindsPlace extended) (hpackage : r.FindsPlace package) :
    Meets trusted r.tree (oneOf specifier importer extended package) (Returns r.tree.IsPlace) := by
  unfold oneOf
  split
  · exact Meets.returns_fail
  · exact Meets.returns_pure (hextended _ rfl)
  · exact Meets.returns_pure (hpackage _ rfl)
  · exact Meets.returns_fail

theorem meets_resolveRelative {importer : Path} (h : importer.IsDirect) (specifier : String) :
    Meets trusted r.tree (r.resolveRelative specifier importer) (Returns r.tree.IsPlace) := by
  have hparent : (importer.parent.getD ⟨"/"⟩).isAbsolute = true := by
    cases hp : importer.parent with
    | none => decide
    | some q => exact (h.parent hp).isAbsolute
  have hdirect := Path.isDirect_normalize (Path.isAbsolute_join hparent ⟨specifier⟩)
  have hextended : r.FindsPlace (r.firstFile
      [(((importer.parent.getD ⟨"/"⟩).child specifier).normalize).withSuffix ".js",
        (((importer.parent.getD ⟨"/"⟩).child specifier).normalize).withSuffix ".json"]) := by
    refine findsPlace_firstFile fun p hp => ?_
    simp only [List.mem_cons, List.not_mem_nil, or_false] at hp
    rcases hp with rfl | rfl
    · exact isDirect_js hdirect
    · exact isDirect_json hdirect
  unfold resolveRelative
  simp only
  split
  next hfile => exact Meets.returns_pure ⟨hdirect, hfile⟩
  next =>
    split
    · exact (meets_entryFile hdirect.isAbsolute).returns_bind fun package hpackage => meets_oneOf hextended hpackage
    · refine (Meets.returns_pure (P := r.FindsPlace) ?_).returns_bind fun package hpackage =>
        meets_oneOf hextended hpackage
      rintro p ⟨⟩

theorem meets_firstSome {t : FileTree} {xs : List (Linking (Option Path))} {P : Path → Prop}
    (h : ∀ x ∈ xs, Meets trusted t x (Returns fun o => ∀ p, o = some p → P p)) :
    Meets trusted t (firstSome xs) (Returns fun o => ∀ p, o = some p → P p) := by
  induction xs with
  | nil =>
    refine Meets.returns_pure ?_
    rintro p ⟨⟩
  | cons x xs ih =>
    unfold firstSome
    refine (h x List.mem_cons_self).returns_bind fun o ho => ?_
    split
    · exact Meets.returns_pure ho
    · exact ih fun x hx => h x (List.mem_cons_of_mem _ hx)

theorem isDirect_of_mem_ancestorsUpTo {n : Nat} {p d : Path} (h : p.IsDirect) (hd : d ∈ Path.ancestorsUpTo n p) :
    d.IsDirect := by
  induction n generalizing p with
  | zero => cases hd
  | succ n ih =>
    unfold Path.ancestorsUpTo at hd
    split at hd
    next q hq =>
      rcases List.mem_cons.mp hd with rfl | hd
      · exact h.parent hq
      · exact ih (h.parent hq) hd
    next => cases hd

theorem isDirect_of_mem_moduleDirectories {importer base d : Path} (h : importer.IsDirect)
    (hd : d ∈ moduleDirectories importer base) : d.IsDirect := by
  unfold moduleDirectories at hd
  split at hd
  · obtain ⟨a, ha, rfl⟩ := List.mem_map.mp hd
    have hmem := (List.takeWhile_sublist _).subset ha
    exact (isDirect_of_mem_ancestorsUpTo h hmem).child (by decide)
  · cases hd

theorem meets_placesBelow {specifier : String} {importer base : Path} (hbase : base.isAbsolute = true)
    (himporter : importer.IsDirect) (hspecifier : ".." ∉ Path.segments ⟨specifier⟩) :
    ∀ x ∈ r.placesBelow specifier importer base, Meets trusted r.tree x (Returns r.FindsPlace) := by
  intro x hx
  unfold placesBelow at hx
  rcases List.mem_append.mp hx with hx | hx
  · rcases List.mem_cons.mp hx with rfl | hx
    · exact meets_fileOrPackage (Path.isDirect_normalize (Path.isAbsolute_join hbase _))
    · split at hx
      · simp only at hx
        split at hx
        · rw [List.mem_singleton.mp hx]
          exact meets_exportedFile (Path.isAbsolute_join hbase _) _
        · cases hx
      · cases hx
  · -- below a directory for packages, the specifier is taken as it is written
    obtain ⟨d, hd, rfl⟩ := List.mem_map.mp hx
    exact meets_fileOrPackage ((isDirect_of_mem_moduleDirectories himporter hd).child hspecifier)

/-- A specifier stands for a file, by a direct path, unless it is a bare one with steps upwards. -/
theorem meets_resolve {specifier : String} {importer : Path} (hbases : ∀ b ∈ r.bases, b.isAbsolute = true)
    (himporter : importer.IsDirect) (hspecifier : isRelative specifier = true ∨ ".." ∉ Path.segments ⟨specifier⟩) :
    Meets trusted r.tree (r.resolve specifier importer) (Returns r.tree.IsPlace) := by
  unfold resolve
  split
  · exact meets_resolveRelative himporter specifier
  next hbare =>
    have hdown := hspecifier.resolve_left hbare
    unfold resolveBare
    refine (meets_firstSome (P := r.tree.IsPlace) ?_).returns_bind fun o ho => ?_
    · intro x hx
      obtain ⟨base, hbase, hx⟩ := List.mem_flatMap.mp hx
      exact meets_placesBelow (hbases base hbase) himporter hdown x hx
    · split
      · exact Meets.returns_pure (ho _ rfl)
      · exact Meets.returns_fail

end Resolver

/-! ## What a search reaches -/

namespace Discovery

open ModuleGraph

variable {d : Discovery} {entries : List Path}

/-- The paths that a search reaches: the entries, and what the modules that it makes require. -/
inductive Finds (d : Discovery) (entries : List Path) : Path → Prop
  | entry {p : Path} (h : p ∈ entries) : Finds d entries p
  | next {p q : Path} {m : Module} (h : Finds d entries p) (hm : (d.module p).outcome = .ok m)
      (hq : q ∈ m.dependencyPaths.values) : Finds d entries q

/-- A specifier that is looked up as a file is relative, or takes no step upwards. -/
def StepsDown (d : Discovery) (specifier : String) : Prop :=
  d.policy.classify specifier = .internal → isRelative specifier = true ∨ ".." ∉ Path.segments ⟨specifier⟩

/-- A search starts at files in normal form, the cache leads directly to files, and no bare specifier with steps
upwards is met. -/
structure StaysDirect (d : Discovery) (entries : List Path) : Prop where
  bases : ∀ b ∈ d.resolver.bases, b.isAbsolute = true
  starts : ∀ p ∈ entries, p.isAbsolute = true ∧ p.normalize = p ∧ d.resolver.tree.isFile p = true
  cache : ∀ file a, d.cache.get? file = some a → ∀ p ∈ a.record.dependencyPaths.values, d.resolver.tree.IsPlace p
  specifiers : ∀ p, d.Finds entries p → ∀ m, (d.opened p).outcome = .ok m → ∀ specifier, m.Requires specifier →
    d.StepsDown specifier

/-! ## Checking a search -/

/-- Whether the paths of some files, and what they require, stay among these files, without a step upwards in a
specifier. -/
def staysAmong (d : Discovery) (files : List Path) : Bool :=
  files.all fun p =>
    ((d.module p).outcome.toOption.all fun m => m.dependencyPaths.values.all files.contains) &&
      (d.opened p).outcome.toOption.all fun m =>
        (summaryOf m.file m.source).toOption.all fun summary => summary.dependencies.all fun specifier =>
          isRelative specifier || !(Path.segments ⟨specifier⟩).contains ".."

theorem mem_of_staysAmong {files : List Path} (h : staysAmong d files = true)
    (hentries : ∀ p ∈ entries, p ∈ files) {p : Path} (hp : d.Finds entries p) : p ∈ files := by
  induction hp with
  | entry hmem => exact hentries _ hmem
  | next _ hm hq ih =>
    have hfile := (Bool.and_eq_true_iff.mp (List.all_eq_true.mp h _ ih)).1
    rw [hm] at hfile
    simpa using List.all_eq_true.mp hfile _ hq

theorem stepsDown_of_staysAmong {files : List Path} (h : staysAmong d files = true) {p : Path}
    (hp : p ∈ files) {m : Module} (hm : (d.opened p).outcome = .ok m) {specifier : String}
    (hspecifier : m.Requires specifier) : d.StepsDown specifier := by
  have hfile := (Bool.and_eq_true_iff.mp (List.all_eq_true.mp h p hp)).2
  obtain ⟨-, summary, hsummary, hmem⟩ := hspecifier
  rw [hm] at hfile
  simp only [Except.toOption, Option.all_some, hsummary] at hfile
  intro _
  simpa using List.all_eq_true.mp hfile _ hmem

/-- A search without a cache stays direct if it stays among some files. -/
theorem staysDirect_of_staysAmong {files : List Path} (hbases : ∀ b ∈ d.resolver.bases, b.isAbsolute = true)
    (hstarts : ∀ p ∈ entries, p.isAbsolute = true ∧ p.normalize = p ∧ d.resolver.tree.isFile p = true)
    (hcache : d.cache.artifacts = Table.empty) (hentries : ∀ p ∈ entries, p ∈ files)
    (h : staysAmong d files = true) : d.StaysDirect entries where
  bases := hbases
  starts := hstarts
  cache := by
    intro file a ha
    rw [Cache.get?, hcache] at ha
    simp at ha
  specifiers := fun _ hp _ hm _ hspecifier => stepsDown_of_staysAmong h (mem_of_staysAmong h hentries hp) hm hspecifier

/-! ## Paths that are reached -/

/-- What a module requires is found by direct paths, if its specifiers step down. -/
theorem meets_analysed_places {m : Module} (hbases : ∀ b ∈ d.resolver.bases, b.isAbsolute = true)
    (hfile : m.file.IsDirect) (hempty : m.dependencyPaths = Table.empty)
    (hspecifiers : ∀ specifier, m.Requires specifier → d.StepsDown specifier) :
    Meets trusted d.resolver.tree (d.analysed m)
      (Returns fun m' => ∀ p ∈ m'.dependencyPaths.values, d.resolver.tree.IsPlace p) := by
  -- the paths so far are direct, if the specifiers so far step down
  refine meets_analysed_of (I := fun done r => (∀ specifier ∈ done, d.StepsDown specifier) →
    ∀ p ∈ r.paths.values, d.resolver.tree.IsPlace p) ?_ ?_ ?_ ?_
  · intro _ p hp
    cases hp
  · intro done r specifier hr
    have hfront : (∀ s ∈ done ++ [specifier], d.StepsDown s) → ∀ s ∈ done, d.StepsDown s :=
      fun h s hs => h s (List.mem_append_left _ hs)
    unfold require
    split
    · exact Meets.returns_pure fun h => hr (hfront h)
    · exact Meets.returns_pure fun h => hr (hfront h)
    next hinternal =>
      by_cases hdown : isRelative specifier = true ∨ ".." ∉ Path.segments ⟨specifier⟩
      · refine (Resolver.meets_resolve hbases hfile hdown).returns_bind fun q hq => ?_
        refine Meets.returns_pure fun h p hp => ?_
        rcases Table.mem_values_insert hp with rfl | hp
        · exact hq
        · exact hr (hfront h) p hp
      · refine Meets.bind (Resolver.steady_resolve specifier m.file) ?_ ?_
        · intro q _
          refine Meets.returns_pure fun h => ?_
          exact absurd (h specifier (by simp) hinternal) hdown
        · rintro e - r' ⟨⟩
  · intro summary r hjs hsummary hr
    exact hr fun specifier hspecifier => hspecifiers specifier ⟨hjs, summary, hsummary, hspecifier⟩
  · intro _
    rw [hempty]
    intro p hp
    cases hp

theorem meets_opened_outcome (file : Path) :
    Meets (fun _ => True) d.resolver.tree (d.opened file) (Returns fun m => (d.opened file).outcome = .ok m) := by
  refine Meets.mono (steady_opened file) ?_
  intro r hr m hm
  rw [← hr fun _ _ => trivial, hm]

theorem meets_module_outcome (file : Path) :
    Meets (fun _ => True) d.resolver.tree (d.module file) (Returns fun m => (d.module file).outcome = .ok m) := by
  refine Meets.mono (steady_module file) ?_
  intro r hr m hm
  rw [← hr fun _ => trivial, hm]

/-- A module that a search reaches requires files, by direct paths. -/
theorem meets_module_places (h : d.StaysDirect entries) {file : Path} (hfind : d.Finds entries file)
    (hfile : file.IsDirect) : Meets (fun _ => True) d.resolver.tree (d.module file)
      (Returns fun m => ∀ p ∈ m.dependencyPaths.values, d.resolver.tree.IsPlace p) := by
  refine meets_module (Q := fun m => Fresh file m ∧ (d.opened file).outcome = .ok m) ?_ ?_ ?_
  · refine ((meets_opened file).and (meets_opened_outcome file)).mono ?_
    rintro r ⟨hfresh, houtcome⟩ m hm
    exact ⟨hfresh m hm, houtcome m hm⟩
  · rintro m ⟨hfresh, houtcome⟩ -
    refine meets_analysed_places h.bases (hfresh.file ▸ hfile) hfresh.paths ?_
    exact h.specifiers file hfind m houtcome
  · rintro m a - ha -
    exact h.cache file a ha

/-- Every path that a search reaches leads directly to a file. -/
theorem StaysDirect.isPlace (h : d.StaysDirect entries) {p : Path} (hp : d.Finds entries p) :
    d.resolver.tree.IsPlace p := by
  induction hp with
  | entry hmem =>
    obtain ⟨habs, hnormal, hfile⟩ := h.starts _ hmem
    exact ⟨hnormal ▸ Path.isDirect_normalize habs, hfile⟩
  | next hfind hm hq ih =>
    exact (meets_module_places h hfind ih.toIsDirect).outcome _ hm _ hq

/-! ## What a graph consists of -/

/-- The modules of a graph are as the search makes them, whatever they depend on. -/
def IsMadeOf (d : Discovery) (m : Module) : Prop :=
  ∃ dependencies, (d.module m.file).outcome = .ok { m with dependencies := dependencies }

theorem finds_of_ledTo {g : ModuleGraph} (hg : ∀ m ∈ g.modules, d.IsMadeOf m) {p : Path} (h : LedTo g entries p) :
    d.Finds entries p := by
  induction h with
  | entry h => exact Finds.entry h
  | next hm _ hp ih =>
    obtain ⟨dependencies, houtcome⟩ := hg _ hm
    exact Finds.next ih houtcome hp

theorem meets_module_made (file : Path) : Meets (fun _ => True) d.resolver.tree (d.module file)
    (Returns fun m => m.file = file ∧ d.IsMadeOf m) := by
  refine ((meets_module_file file).and (meets_module_outcome file)).mono ?_
  rintro r ⟨hfile, houtcome⟩ m hm
  refine ⟨hfile m hm, m.dependencies, ?_⟩
  have hmade := houtcome m hm
  rw [← hfile m hm] at hmade
  exact hmade

/-- The modules that have been found and a file that has not are no more than the files. -/
theorem length_lt_of_explored (h : d.StaysDirect entries) {g : ModuleGraph} {pending : List Path}
    (hexplored : Explored d entries g pending) (hg : ∀ m ∈ g.modules, d.IsMadeOf m) {file : Path}
    {others : List Path} (hup : upcoming d g pending = file :: others) :
    g.modules.length < (d.resolver.tree.filesBelow []).length := by
  have hfile : file ∈ pending := mem_pending_of_mem_upcoming (d := d) (g := g) (hup ▸ List.mem_cons_self)
  have hplace : ∀ p ∈ file :: g.modules.map Module.file, d.resolver.tree.IsPlace p := by
    intro p hp
    rcases List.mem_cons.mp hp with rfl | hp
    · exact h.isPlace (finds_of_ledTo hg (hexplored.pending_ledTo p hfile))
    · obtain ⟨m, hm, rfl⟩ := List.mem_map.mp hp
      exact h.isPlace (finds_of_ledTo hg (hexplored.ledTo m hm))
  have hdistinct : (file :: g.modules.map Module.file).Pairwise fun p q => p.components ≠ q.components := by
    refine List.pairwise_cons.mpr ⟨?_, List.pairwise_map.mpr hexplored.distinct⟩
    intro p hp heq
    obtain ⟨m, hm, rfl⟩ := List.mem_map.mp hp
    have hcontains := contains_iff.mpr ⟨m, hm, heq.symm⟩
    rw [(new_of_upcoming_eq_cons hup).1] at hcontains
    cases hcontains
  have hlength := FileTree.length_le_of_isPlace hplace hdistinct
  rwa [List.length_cons, List.length_map] at hlength

/-- A search that has room for the files does not run out of it. -/
theorem fails_discover_places (h : d.StaysDirect entries) (room : Nat) {g : ModuleGraph} {pending : List Path}
    (hexplored : Explored d entries g pending) (hg : ∀ m ∈ g.modules, d.IsMadeOf m)
    (hroom : (d.resolver.tree.filesBelow []).length ≤ room + g.modules.length) :
    Meets (fun _ => True) d.resolver.tree (discover d room g pending)
      (Fails fun e => e ≠ .configuration .noRoom) := by
  induction room generalizing g pending with
  | zero =>
    unfold discover
    cases hup : upcoming d g pending with
    | nil => exact Meets.fails_pure
    | cons file others =>
      have hlength := length_lt_of_explored h hexplored hg hup
      omega
  | succ room ih =>
    unfold discover
    cases hup : upcoming d g pending with
    | nil => exact Meets.fails_pure
    | cons file others =>
      simp only
      have hmodule : Meets (fun _ => True) d.resolver.tree (d.module file)
          (Fails fun e => e ≠ .configuration .noRoom) := by
        refine (fails_module file).mono ?_
        rintro r hr e he rfl
        cases hr _ he
      refine hmodule.fails_bind_of (meets_module_made file) ?_
      rintro m ⟨hfile, hmade⟩
      refine ih (hexplored.step hup hfile) ?_ ?_
      · intro m' hm'
        rcases List.mem_append.mp hm' with hm' | hm'
        · exact hg m' hm'
        · rw [List.mem_singleton.mp hm']
          exact hmade
      · rw [List.length_append, List.length_singleton]
        omega

/-- A search that meets no bare specifier with steps upwards does not run out of room. Its modules are of different
files, whose paths stay different in normal form, so there are no more modules than files. -/
theorem build_of_staysDirect (h : d.StaysDirect entries) {s : Session}
    (hs : Fits (fun _ => True) d.resolver.tree s.manifests) :
    ((build d entries).runIn s).1 ≠ .error (.configuration .noRoom) ∧
      ∀ g, ((build d entries).runIn s).1 = .ok g →
        (∀ m ∈ g.modules, d.resolver.tree.isFile m.file = true) ∧
        (g.modules.Pairwise fun m m' => m.file.normalize ≠ m'.file.normalize) ∧
        g.modules.length ≤ (d.resolver.tree.filesBelow []).length := by
  constructor
  · intro hroom
    have hdiscover := fails_discover_places h (limit d) (explored_start d entries) (by simp [ModuleGraph.empty])
      (by simp [limit, ModuleGraph.empty])
    have hfails : Meets (fun _ => True) d.resolver.tree (build d entries)
        (Fails fun e => e ≠ .configuration .noRoom) := by
      unfold build
      exact hdiscover.fails_bind fun g => Meets.fails_pure
    exact (hfails s hs).1 _ hroom rfl
  · intro g hg
    have hbuild : Meets (fun _ => True) d.resolver.tree (build d entries)
        (Returns fun g => Discovered d entries g ∧ ∀ m ∈ g.modules, d.IsMadeOf m) :=
      meets_build meets_module_made fun m dependencies hm => hm
    obtain ⟨hdiscovered, hmade⟩ := (hbuild s hs).1 g hg
    have hplace : ∀ m ∈ g.modules, d.resolver.tree.IsPlace m.file :=
      fun m hm => h.isPlace (finds_of_ledTo hmade (hdiscovered.ledTo m hm))
    refine ⟨fun m hm => (hplace m hm).isFile, ?_, ?_⟩
    · refine hdiscovered.distinct.imp_of_mem ?_
      intro m m' hm hm' hne heq
      apply hne
      rw [← (hplace m hm).components_normalize, ← (hplace m' hm').components_normalize, heq]
    · have hplaces : ∀ p ∈ g.modules.map Module.file, d.resolver.tree.IsPlace p := by simpa using hplace
      have hlength := FileTree.length_le_of_isPlace hplaces (List.pairwise_map.mpr hdiscovered.distinct)
      rwa [List.length_map] at hlength

end Discovery

namespace Linker

open Discovery

/-- A script that requires another one and a package, which the other one requires too. -/
def packaged : FileTree :=
  .ofTexts ["work"]
    [["work"], ["work", "src"], ["work", "src", "app"], ["work", "src", "app", "node_modules"]] [
    (["work", "src", "app", "a.js"], "require(\"./b\");\nrequire(\"kit\");\n"),
    (["work", "src", "app", "b.js"], "require(\"kit\");\n"),
    (["work", "src", "app", "node_modules", "kit.js"], "1;\n")]

/-- The paths of the scripts. -/
def packagedFiles : List Path :=
  [⟨"/work/src/app/a.js"⟩, ⟨"/work/src/app/b.js"⟩, ⟨"/work/src/app/node_modules/kit.js"⟩]

/-- A configuration for one entry below a base. -/
def appConfig : Config :=
  { Config.default with entries := [⟨"src/app/a.js"⟩], bases := [⟨"src"⟩], minify := false }

/-- A search to which the bound applies, and which finds every file. -/
theorem build_of_packaged : ∃ (l : Linker) (g : ModuleGraph),
    ofConfig packaged appConfig Minifier.unchanged (fun _ => false) = .ok l ∧
      (l.discovery packaged).StaysDirect l.entries ∧
      (ModuleGraph.build (l.discovery packaged) l.entries).outcome = .ok g ∧ g.modules.length = 3 ∧
      (∀ m ∈ g.modules, packaged.isFile m.file = true) ∧
      (g.modules.Pairwise fun m m' => m.file.normalize ≠ m'.file.normalize) ∧
      g.modules.length ≤ (packaged.filesBelow []).length := by
  have hcheck : ((ofConfig packaged appConfig Minifier.unchanged fun _ => false).toOption.any fun l =>
      (l.bases.all Path.isAbsolute
        && (l.entries.all fun p => p.isAbsolute && p.normalize == p && packaged.isFile p)
        && l.entries.all packagedFiles.contains && staysAmong (l.discovery packaged) packagedFiles)
        && (ModuleGraph.build (l.discovery packaged) l.entries).outcome.toOption.any fun g =>
          g.modules.length == 3) = true := by
    decide +kernel
  obtain ⟨l, hl, hcheck⟩ := exists_of_any hcheck
  obtain ⟨hstart, hcheck⟩ := Bool.and_eq_true_iff.mp hcheck
  obtain ⟨g, hg, hlength⟩ := exists_of_any hcheck
  simp only [Bool.and_eq_true] at hstart
  obtain ⟨⟨⟨hbases, hentries⟩, hamong⟩, hstays⟩ := hstart
  have hdirect : (l.discovery packaged).StaysDirect l.entries := by
    refine staysDirect_of_staysAmong (List.all_eq_true.mp hbases) ?_ (cache_of_ofConfig hl) ?_ hstays
    · intro p hp
      have hfile := List.all_eq_true.mp hentries p hp
      simp only [Bool.and_eq_true, beq_iff_eq, and_assoc] at hfile
      exact hfile
    · intro p hp
      simpa using List.all_eq_true.mp hamong p hp
  have hbound := build_of_staysDirect hdirect (s := ⟨Table.empty, []⟩) (fits_empty _ _)
  exact ⟨l, g, hl, hdirect, hg, by simpa using hlength, hbound.2 g hg⟩

/-- A script that requires a file of its directory for packages in two ways, one of them through an empty
directory. -/
def detour : FileTree :=
  .ofTexts ["work"]
    [["work"], ["work", "src"], ["work", "src", "app"], ["work", "src", "app", "node_modules"],
      ["work", "src", "app", "node_modules", "x"]] [
    (["work", "src", "app", "a.js"], "require(\"x/../y\");\nrequire(\"y\");\n"),
    (["work", "src", "app", "node_modules", "y.js"], "1;\n")]

/-- Not every search finds one module for a file: a bare specifier with a step upwards leads to a second module of a
file, so there can be more modules than files. -/
theorem exists_two_modules_of_one_file : ∃ (l : Linker) (g : ModuleGraph),
    ofConfig detour appConfig Minifier.unchanged (fun _ => false) = .ok l ∧
      (∀ p ∈ l.entries, p.isAbsolute = true ∧ p.normalize = p ∧ detour.isFile p = true) ∧
      (ModuleGraph.build (l.discovery detour) l.entries).outcome = .ok g ∧
      (∃ m ∈ g.modules, ∃ m' ∈ g.modules, m.file ≠ m'.file ∧ m.file.normalize = m'.file.normalize) ∧
      (detour.filesBelow []).length < g.modules.length := by
  have hcheck : ((ofConfig detour appConfig Minifier.unchanged fun _ => false).toOption.any fun l =>
      (l.entries.all fun p => p.isAbsolute && p.normalize == p && detour.isFile p)
        && (ModuleGraph.build (l.discovery detour) l.entries).outcome.toOption.any fun g =>
          (g.modules.any fun m => g.modules.any fun m' => m.file != m'.file && m.file.normalize == m'.file.normalize)
            && decide ((detour.filesBelow []).length < g.modules.length)) = true := by
    decide +kernel
  obtain ⟨l, hl, hcheck⟩ := exists_of_any hcheck
  obtain ⟨hentries, hcheck⟩ := Bool.and_eq_true_iff.mp hcheck
  obtain ⟨g, hg, hcheck⟩ := exists_of_any hcheck
  obtain ⟨hmodules, hlength⟩ := Bool.and_eq_true_iff.mp hcheck
  refine ⟨l, g, hl, ?_, hg, ?_, of_decide_eq_true hlength⟩
  · intro p hp
    have hstart := List.all_eq_true.mp hentries p hp
    simpa [and_assoc] using hstart
  · obtain ⟨m, hm, hmodules⟩ := List.any_eq_true.mp hmodules
    obtain ⟨m', hm', hsame⟩ := List.any_eq_true.mp hmodules
    exact ⟨m, hm, m', hm', by simpa using hsame⟩

end Linker

end Relink
