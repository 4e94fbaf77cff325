import Relink.Proofs.Naming
import Relink.Proofs.Normal

/-!
# Entries of packages

The entry of a package is found from its directory, and it is recognised from the file. The first way tries the entry
that the manifest gives with what can be left out of it. The second way starts at the package to which the file
belongs, that of the nearest manifest below the first base above the file, and compares the file with fewer places.

* `Path.Below` — a path lies inside another one.
* `BelongsTo` — the package in a directory is that to which a file belongs.
* `entryFile_cases` — where the entry of a package is found.
* `isEntry_of_entryFile` — the entry that is found is recognised, unless it is the index of a directory inside.
* `canonical_of_entryFile` — the entry of an exported package is known by the name of the package.
-/

namespace Relink

/-! ## Paths inside a directory -/

namespace Path

variable {p q base : Path}

/-- A path lies inside another one. -/
structure Below (p q : Path) : Prop where
  startsWith : p.startsWith q = true
  not_same : p.same q = false

instance : Decidable (p.Below q) :=
  decidable_of_iff (p.startsWith q = true ∧ p.same q = false) ⟨fun h => ⟨h.1, h.2⟩, fun h => ⟨h.1, h.2⟩⟩

theorem below_iff : p.Below q ↔ ∃ c cs, p.components = q.components ++ c :: cs := by
  constructor
  · rintro ⟨hstarts, hsame⟩
    obtain ⟨cs, hcs⟩ := List.isPrefixOf_iff_prefix.mp hstarts
    cases cs with
    | nil =>
      rw [List.append_nil] at hcs
      rw [same_iff.mpr hcs.symm] at hsame
      cases hsame
    | cons c cs => exact ⟨c, cs, hcs.symm⟩
  · rintro ⟨c, cs, hcs⟩
    constructor
    · exact List.isPrefixOf_iff_prefix.mpr ⟨c :: cs, hcs.symm⟩
    · rw [Bool.eq_false_iff, Ne, same_iff, hcs]
      simp

theorem Below.congr {p' : Path} (h : p.Below q) (hp : p'.components = p.components) : p'.Below q := by
  rw [below_iff] at *
  rw [hp]
  exact h

theorem Below.trans (h : p.Below q) (hq : q.Below base) : p.Below base := by
  rw [below_iff] at *
  obtain ⟨c, cs, hp⟩ := h
  obtain ⟨d, ds, hq⟩ := hq
  exact ⟨d, ds ++ c :: cs, by rw [hp, hq, List.append_assoc, List.cons_append]⟩

theorem Below.components_ne_nil (h : p.Below q) : p.components ≠ [] := by
  obtain ⟨c, cs, hp⟩ := below_iff.mp h
  simp [hp]

/-- The path above one that lies inside a directory is that directory, or lies inside it too. -/
theorem Below.of_parent {a : Path} (h : p.Below q) (ha : p.parent = some a) : a.components = q.components ∨ a.Below q := by
  obtain ⟨c, cs, hp⟩ := below_iff.mp h
  obtain ⟨last, hlast, -⟩ := components_parent ha
  have hfront : a.components = q.components ++ (c :: cs).dropLast := by
    have hdrop := congrArg List.dropLast hlast
    rw [List.dropLast_concat, hp, List.dropLast_append_of_ne_nil (List.cons_ne_nil c cs)] at hdrop
    exact hdrop.symm
  cases hcs : (c :: cs).dropLast with
  | nil =>
    rw [hcs, List.append_nil] at hfront
    exact Or.inl hfront
  | cons c' cs' => exact Or.inr (below_iff.mpr ⟨c', cs', hcs ▸ hfront⟩)

/-- The directory that a path lies inside of is among the paths above it, and nearer ones lie inside of it too. -/
theorem Below.exists_ancestorsUpTo {n : Nat} (h : p.Below q) (hq : q.components ≠ []) (hn : p.components.length ≤ n) :
    ∃ front d back, ancestorsUpTo n p = front ++ d :: back ∧ d.components = q.components ∧ ∀ a ∈ front, a.Below q := by
  induction n generalizing p with
  | zero => exact absurd (List.length_eq_zero_iff.mp (Nat.le_zero.mp hn)) h.components_ne_nil
  | succ n ih =>
    cases hparent : p.parent with
    | none =>
      -- a path with at least two steps has one above it
      obtain ⟨c, cs, hp⟩ := below_iff.mp h
      have hshort := congrArg List.length (components_of_parent_eq_none hparent)
      have hlong := List.length_pos_of_ne_nil hq
      rw [hp, List.length_append, List.length_cons] at hshort
      split at hshort
      · rw [List.length_singleton] at hshort
        omega
      · rw [List.length_nil] at hshort
        omega
    | some a =>
      have hancestors : ancestorsUpTo (n + 1) p = a :: ancestorsUpTo n a := by
        rw [ancestorsUpTo, hparent]
      rcases h.of_parent hparent with ha | hbelow
      · exact ⟨[], a, ancestorsUpTo n a, hancestors, ha, by simp⟩
      · obtain ⟨last, hlast, -⟩ := components_parent hparent
        have hlength : a.components.length ≤ n := by
          have hlength := congrArg List.length hlast
          rw [List.length_append, List.length_singleton] at hlength
          omega
        obtain ⟨front, d, back, hfront, hd, hall⟩ := ih hbelow hlength
        refine ⟨a :: front, d, back, by rw [hancestors, hfront]; rfl, hd, ?_⟩
        intro b hb
        rcases List.mem_cons.mp hb with rfl | hb
        · exact hbelow
        · exact hall b hb

theorem Below.exists_ancestors (h : p.Below q) (hq : q.components ≠ []) :
    ∃ front d back, p.ancestors = front ++ d :: back ∧ d.components = q.components ∧ ∀ a ∈ front, a.Below q :=
  h.exists_ancestorsUpTo hq (length_components_le p)

/-! ## Endings -/

theorem fileName_of_segments {front : List String} {s : String} (h : p.segments = front ++ [s])
    (hidle : isIdle s = false) (hup : s ≠ "..") : p.fileName = some s := by
  have hlast : p.components.getLast? = some (.name s) := by
    rw [components_eq]
    unfold steps
    rw [h, List.filter_append, List.filter_cons_of_pos (by simp [hidle]), List.map_append, List.getLast?_append,
      List.getLast?_append]
    simp [componentOf, hup]
  unfold fileName
  rw [hlast]

/-- A path with the ending of a JSON file has no other extension. -/
theorem extension_withSuffix_json (p : Path) :
    (p.withSuffix ".json").extension = none ∨ (p.withSuffix ".json").extension = some "json" := by
  obtain ⟨front, last, -, hcut⟩ := @cut_append_of_not_mem [] p.text.toList ".json".toList (by decide)
  have hsegments : (p.withSuffix ".json").segments = front.map String.ofList ++ [String.ofList (last ++ ".json".toList)] := by
    unfold segments withSuffix
    rw [String.toList_append, hcut, List.map_append]
    rfl
  have hname : (p.withSuffix ".json").fileName = some (String.ofList (last ++ ".json".toList)) := by
    have hlong : ∀ short : String, short.toList.length < 5 → String.ofList (last ++ ".json".toList) ≠ short := by
      rintro short hshort rfl
      rw [String.toList_ofList, List.length_append] at hshort
      have hfive : ".json".toList.length = 5 := by decide
      omega
    apply fileName_of_segments hsegments
    · simp only [isIdle, Bool.or_eq_false_iff, beq_eq_false_iff_ne]
      exact ⟨hlong "" (by decide), hlong "." (by decide)⟩
    · exact hlong ".." (by decide)
  unfold extension
  rw [hname, Option.bind_some]
  unfold splitName
  have hback : (String.ofList (last ++ ".json".toList)).toList.reverse = ['n', 'o', 's', 'j', '.'] ++ last.reverse := by
    rw [String.toList_ofList, List.reverse_append]
    rfl
  simp only [hback]
  cases last.reverse with
  | nil => exact Or.inl rfl
  | cons c cs => exact Or.inr rfl

end Path

theorem ModuleKind.ofPath?_withSuffix_json (p : Path) : ModuleKind.ofPath? (p.withSuffix ".json") ≠ some .js := by
  unfold ModuleKind.ofPath?
  rcases Path.extension_withSuffix_json p with h | h <;> rw [h] <;> decide

/-! ## Packages of files -/

namespace Resolver

open Linking

variable {r : Resolver} {base directory file : Path} {m : Manifest} {name : String}

theorem plain_index : Path.Plain "index.js" := ⟨by decide, by decide⟩

/-- A file belongs to the package in a directory: it does not lie below the first base, the first of the others above
it is above the directory, and no manifest is nearer. -/
structure BelongsTo (r : Resolver) (base directory file : Path) : Prop where
  outside : ¬r.BelowFirst file
  first : r.bases.find? (fun b => file.startsWith b) = some base
  below : directory.Below base
  inside : file.Below directory
  nearest : ∀ d ∈ file.ancestors, d.Below directory → r.tree.isFile (d.child Manifest.fileName) = false

/-- The package to which a file belongs is the one that is found above it. -/
theorem BelongsTo.exists_package (h : r.BelongsTo base directory file)
    (hmanifest : r.tree.isFile (directory.child Manifest.fileName) = true) :
    ∃ d, r.packageOf base file = some d ∧ d.components = directory.components := by
  obtain ⟨front, d, back, hancestors, hd, hfront⟩ := h.inside.exists_ancestors h.below.components_ne_nil
  refine ⟨d, ?_, hd⟩
  have hbetween : ∀ a : Path, a.Below base → (!a.same base && a.startsWith base) = true := by
    rintro a ⟨hstarts, hsame⟩
    rw [hstarts, hsame]
    rfl
  have hpassed : ∀ a ∈ front, (!a.same base && a.startsWith base) = true :=
    fun a ha => hbetween a ((hfront a ha).trans h.below)
  have hnone : front.find? (fun a => r.tree.isFile (a.child Manifest.fileName)) = none := by
    rw [List.find?_eq_none]
    intro a ha
    have hmem : a ∈ file.ancestors := hancestors ▸ List.mem_append_left _ ha
    simp [h.nearest a hmem (hfront a ha)]
  have hfile : r.tree.isFile (d.child Manifest.fileName) = true := by
    rw [FileTree.isFile_eq] at *
    rw [FileTree.fileAt?_child_congr r.tree hd FileTree.plain_fileName]
    exact hmanifest
  unfold packageOf
  rw [hancestors, List.takeWhile_append_of_pos hpassed, List.takeWhile_cons, if_pos (hbetween d (h.below.congr hd)),
    List.find?_append, hnone, Option.none_or, List.find?_cons, hfile]

/-! ## The entry of a package -/

/-- Where the manifest of a package says that its entry is. -/
def entryPlace (r : Resolver) (directory : Path) (m : Manifest) : Path := (directory.join ⟨r.entryName m⟩).normalize

/-- The entry of a package is found where the manifest says that it is, or it is the index of a directory there. -/
theorem entryFile_cases (h : (r.entryFile directory).outcome = .ok (some file)) :
    ∃ m, r.tree.manifestAt? directory = some m ∧
      (file ∈ withExtensions (r.entryPlace directory m) ∨ file = (r.entryPlace directory m).child "index.js") := by
  have hmeets : Meets (fun _ => True) r.tree (r.entryFile directory) (Returns fun o => ∀ f, o = some f →
      ∃ m, r.tree.manifestAt? directory = some m ∧
        (f ∈ withExtensions (r.entryPlace directory m) ∨ f = (r.entryPlace directory m).child "index.js")) := by
    unfold entryFile
    refine Meets.bind (steady_manifestOf _) ?_ ?_
    · intro m hm
      have hmanifest : r.tree.manifestAt? directory = some m := by
        rw [← outcome_readManifest, ← outcome_manifestOf]
        exact (hm trivial).symm
      simp only
      split
      next f hf =>
        apply Meets.returns_pure
        rintro f' ⟨⟩
        exact ⟨m, hmanifest, Or.inl (List.mem_of_find?_eq_some hf)⟩
      next =>
        apply Meets.returns_pure
        split
        · intro f hf
          exact ⟨m, hmanifest, Or.inr (List.mem_singleton.mp (List.mem_of_find?_eq_some hf))⟩
        · rintro f ⟨⟩
    · rintro e - a ⟨⟩
  exact hmeets.outcome _ h file rfl

theorem entryName_mem (r : Resolver) (m : Manifest) :
    r.entryName m ∈ m.module.toList ++ m.main.toList ++ ["index.js"] := by
  unfold entryName
  split
  next h => simp [h]
  next h _ => simp [h]
  next => simp

/-- The entry that is found is recognised, also from another spelling of the directory. The index of a directory is
the exception: only that of the package itself is looked for. -/
theorem isEntry_of_entryFile {d : Path} (hd : d.components = directory.components) (hne : directory.components ≠ [])
    (hfile : file ∈ withExtensions (r.entryPlace directory m) ∨
      file = (r.entryPlace directory m).child "index.js" ∧ (r.entryPlace directory m).same directory = true)
    (hscript : ModuleKind.ofPath? file = some .js) : isEntry d m file = true := by
  have hplace : (d.child (r.entryName m)).normalize = r.entryPlace directory m :=
    Path.normalize_congr (Path.join_congr hd (hd ▸ hne) _)
  unfold isEntry
  rw [List.any_eq_true]
  rcases hfile with hfile | ⟨rfl, hsame⟩
  · refine ⟨r.entryName m, r.entryName_mem m, ?_⟩
    simp only [hplace, Bool.or_eq_true]
    simp only [withExtensions, List.mem_cons, List.not_mem_nil, or_false] at hfile
    rcases hfile with rfl | rfl | rfl
    · exact Or.inl (Path.same_iff.mpr rfl)
    · exact Or.inr (Path.same_iff.mpr rfl)
    · exact absurd hscript (ModuleKind.ofPath?_withSuffix_json _)
  · refine ⟨"index.js", by simp, ?_⟩
    simp only [Bool.or_eq_true]
    left
    rw [Path.same_iff]
    have hindex : (d.child "index.js").components = ((r.entryPlace directory m).child "index.js").components := by
      rw [Path.components_child _ plain_index, Path.components_child _ plain_index, Path.same_iff.mp hsame, hd]
    rw [Path.normalize_congr hindex]
    exact Path.components_normalize_child _ plain_index (by decide)

/-! ## The name of an entry -/

theorem outcome_nameOf_of_entryOf (h : r.EntryOf base file directory m) (hname : m.name = some name) (basePath : String) :
    (r.nameOf base file basePath).outcome = .ok (name, m.isModular) := by
  unfold nameOf
  simp only [h.package]
  rw [outcome_bind_manifestOf h.manifest fun m => Steady.pure _]
  simp only [h.entry, if_true, hname, Option.some_or, Option.getD_some]
  rfl

/-- A script outside the first base is located below the first base above it, under its name if that is exported. -/
theorem outcome_locate_of_nameOf (hout : ¬r.BelowFirst file)
    (hbase : r.bases.find? (fun b => file.startsWith b) = some base) {e : String × Bool}
    (hname : ∀ basePath, (r.nameOf base file basePath).outcome = .ok e) :
    ∃ basePath, (r.locate file true).outcome =
      .ok ⟨base, basePath, if r.exports.contains e.1 then some e.1 else none, e.2⟩ := by
  unfold locate
  cases hbases : r.bases with
  | nil => simp [hbases] at hbase
  | cons primary secondary =>
    have hnot : file.startsWith primary = false := by
      rw [Bool.eq_false_iff]
      exact fun hin => hout ⟨primary, by simp [hbases], hin⟩
    have hprimary : file.stripAncestor? primary = none := by
      rw [← Option.not_isSome_iff_eq_none, Path.isSome_stripAncestor?, hnot]
      exact Bool.false_ne_true
    rw [hbases, List.find?_cons, hnot] at hbase
    obtain ⟨rest, hrest⟩ : ∃ rest, file.stripAncestor? base = some rest := by
      rw [← Option.isSome_iff_exists, Path.isSome_stripAncestor?]
      exact List.find?_some hbase
    have hfound := findSome?_stripAncestor?.mpr ⟨hbase, hrest⟩
    have hsteady : Steady (fun _ => True) r.tree True (r.nameOf base file (Path.slashed rest.text)) :=
      (steady_nameOf base file _).mono fun _ _ _ => trivial
    simp only [hprimary, hfound, if_true]
    rw [outcome_bind trivial hsteady fun _ _ => Steady.pure _, hname]
    exact ⟨Path.slashed rest.text, rfl⟩

/-- The entry of a package outside the first base is known by the name of the package, if that is exported. The nearest
manifest below the first base above a file decides to which package it belongs. -/
theorem canonical_of_entryFile (hbelongs : r.BelongsTo base directory file)
    (hmanifest : r.tree.manifestAt? directory = some m) (hname : m.name = some name) (hexported : name ∈ r.exports)
    (hfound : (r.entryFile directory).outcome = .ok (some file)) (hscript : ModuleKind.ofPath? file = some .js)
    (hindex : file = (r.entryPlace directory m).child "index.js" → (r.entryPlace directory m).same directory = true) :
    ∃ l, (r.locate file true).outcome = .ok l ∧ l.canonical = some name := by
  have hfile : r.tree.isFile (directory.child Manifest.fileName) = true := by
    -- a directory without a manifest is a package without a name
    rw [FileTree.isFile_eq]
    unfold FileTree.manifestAt? at hmanifest
    split at hmanifest
    · rw [← Option.some.inj hmanifest] at hname
      cases hname
    next hbytes => simp [hbytes]
  obtain ⟨d, hpackage, hd⟩ := hbelongs.exists_package hfile
  obtain ⟨m', hm', hplace⟩ := entryFile_cases hfound
  cases Option.some.inj (hmanifest.symm.trans hm')
  have hentry : r.EntryOf base file d m := by
    refine ⟨hpackage, (FileTree.manifestAt?_congr r.tree hd).trans hmanifest, ?_⟩
    refine isEntry_of_entryFile (r := r) hd hbelongs.below.components_ne_nil ?_ hscript
    exact hplace.imp_right fun heq => ⟨heq, hindex heq⟩
  obtain ⟨basePath, hlocate⟩ :=
    outcome_locate_of_nameOf hbelongs.outside hbelongs.first (outcome_nameOf_of_entryOf hentry hname)
  refine ⟨_, hlocate, ?_⟩
  simp only
  rw [if_pos (List.contains_iff_mem.mpr hexported)]

/-- A package below a second base with more files in it, and the bases in which it is looked up. -/
def packaged (bases : List Path) (files : List (Location × String)) : Resolver where
  tree := .ofTexts ["work"]
    [["work"], ["work", "src"], ["work", "lib"], ["work", "lib", "pkg"], ["work", "lib", "pkg", "dist"]]
    ([(["work", "lib", "pkg", "package.json"], "\x7b\"name\": \"pkg\", \"main\": \"dist/main\"\x7d"),
      (["work", "lib", "pkg", "dist", "main.js"], "exports.i = 1;\n")] ++ files)
  bases := bases
  target := none
  exports := ["pkg"]

/-- An entry that is known by the name of its package. -/
theorem canonical_of_entryFile_packaged :
    ∃ (directory file : Path) (m : Manifest), let r := packaged [⟨"/work/src"⟩, ⟨"/work/lib"⟩] []
      r.BelongsTo ⟨"/work/lib"⟩ directory file ∧ r.tree.manifestAt? directory = some m ∧ m.name = some "pkg" ∧
        "pkg" ∈ r.exports ∧ (r.entryFile directory).outcome = .ok (some file) ∧
        ModuleKind.ofPath? file = some .js ∧
        (file = (r.entryPlace directory m).child "index.js" → (r.entryPlace directory m).same directory = true) ∧
        ∃ l, (r.locate file true).outcome = .ok l ∧ l.canonical = some "pkg" := by
  let r := packaged [⟨"/work/src"⟩, ⟨"/work/lib"⟩] []
  let directory : Path := ⟨"/work/lib/pkg"⟩
  let file : Path := ⟨"/work/lib/pkg/dist/main.js"⟩
  have hbelongs : r.BelongsTo ⟨"/work/lib"⟩ directory file := by
    refine ⟨?_, by decide +kernel, by decide +kernel, by decide +kernel, by decide +kernel⟩
    unfold BelowFirst
    decide +kernel
  have hcheck : ((r.tree.manifestAt? directory).any fun m => decide (m.name = some "pkg" ∧
      file ≠ (r.entryPlace directory m).child "index.js")) = true := by
    decide +kernel
  obtain ⟨m, hmanifest, hcheck⟩ := (Option.any_eq_true _ _).mp hcheck
  obtain ⟨hname, hindex⟩ := of_decide_eq_true hcheck
  have hfound : ((r.entryFile directory).outcome.toOption.any fun o => decide (o = some file)) = true := by
    decide +kernel
  obtain ⟨_, hfound, hfile⟩ := exists_of_any hfound
  rw [of_decide_eq_true hfile] at hfound
  have hexported : "pkg" ∈ r.exports := by decide
  have hscript : ModuleKind.ofPath? file = some .js := by decide +kernel
  exact ⟨directory, file, m, hbelongs, hmanifest, hname, hexported, hfound, hscript, fun heq => absurd heq hindex,
    canonical_of_entryFile hbelongs hmanifest hname hexported hfound hscript fun heq => absurd heq hindex⟩

/-- The package in a directory below a second base is exported, but its entry is not known by the name of the package. -/
structure Unnamed (r : Resolver) (directory file : Path) (m : Manifest) (name : String) (l : BaseLocation) : Prop where
  below : ∃ base ∈ r.bases.tail, directory.Below base
  outside : ¬r.BelowFirst directory
  manifest : r.tree.manifestAt? directory = some m
  named : m.name = some name
  exported : name ∈ r.exports
  found : (r.entryFile directory).outcome = .ok (some file)
  script : ModuleKind.ofPath? file = some .js
  inside : file.Below directory
  located : (r.locate file true).outcome = .ok l
  unnamed : l.canonical ≠ some name

theorem unnamed_of_checks (h : (∃ base ∈ r.bases.tail, directory.Below base) ∧
      (r.bases.head?.any fun first => directory.startsWith first) = false ∧
      (r.tree.manifestAt? directory).any (fun m => m.name == some name) = true ∧ name ∈ r.exports ∧
      (r.entryFile directory).outcome.toOption.any (fun o => o == some file) = true ∧
      ModuleKind.ofPath? file = some .js ∧ file.Below directory ∧
      (r.locate file true).outcome.toOption.any (fun l => l.canonical != some name) = true) :
    ∃ m l, r.Unnamed directory file m name l := by
  obtain ⟨hbelow, hout, hmanifest, hexported, hfound, hscript, hinside, hlocate⟩ := h
  obtain ⟨m, hmanifest, hname⟩ := (Option.any_eq_true _ _).mp hmanifest
  obtain ⟨_, hfound, hfile⟩ := exists_of_any hfound
  rw [beq_iff_eq.mp hfile] at hfound
  obtain ⟨l, hlocate, hcanonical⟩ := exists_of_any hlocate
  refine ⟨m, l, hbelow, ?_, hmanifest, beq_iff_eq.mp hname, hexported, hfound, hscript, hinside, hlocate,
    bne_iff_ne.mp hcanonical⟩
  rintro ⟨first, hfirst, hstarts⟩
  rw [Option.mem_def.mp hfirst] at hout
  simp [hstarts] at hout

/-- The entry of an exported package need not be known by its name: it belongs to another package if a manifest is
nearer, it is looked up below another base if one above it comes first, and below the first base it has no other name
than its path. -/
theorem exists_entry_unnamed :
    (∃ m l, (packaged [⟨"/work/src"⟩, ⟨"/work/lib"⟩] [(["work", "lib", "pkg", "dist", "package.json"], "\x7b\x7d")]).Unnamed
      ⟨"/work/lib/pkg"⟩ ⟨"/work/lib/pkg/dist/main.js"⟩ m "pkg" l) ∧
    (∃ m l, (packaged [⟨"/work/src"⟩, ⟨"/work/lib/pkg/dist"⟩, ⟨"/work/lib"⟩] []).Unnamed
      ⟨"/work/lib/pkg"⟩ ⟨"/work/lib/pkg/dist/main.js"⟩ m "pkg" l) ∧
    ∃ m l, (packaged [⟨"/work/lib/pkg/dist"⟩, ⟨"/work/lib"⟩] []).Unnamed
      ⟨"/work/lib/pkg"⟩ ⟨"/work/lib/pkg/dist/main.js"⟩ m "pkg" l := by
  refine ⟨unnamed_of_checks ?_, unnamed_of_checks ?_, unnamed_of_checks ?_⟩
  all_goals decide +kernel

end Resolver

end Relink
