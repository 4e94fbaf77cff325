import Relink.Proofs.PackageEntry

/-!
# Relative specifiers

A relative specifier stands for the file at its place. If there is none, two things can stand for it: that file with an
ending which the specifier leaves out, and the entry of the package in the directory there. One of them is taken; if
there are both, none is, however well the one fits.

* `FoundIn` — the first of some paths at which there is a file.
* `IsEntryOf`, `IsExtended` — the entry of a package, and the file with an ending.
* `outcome_entryFile` — the entry of a package is found where its manifest says that it is.
* `resolve_relative` — what a relative specifier stands for.
-/

namespace Relink

/-- The message of a failure shows a text. -/
def Failure.Shows (e : Failure) (text : String) : Prop := text.toList <:+: e.message.toList

namespace Resolver

open Linking

variable {r : Resolver} {directory importer : Path} {specifier : String} {m : Manifest}

/-! ## What can stand for a place -/

/-- A path is the first of some paths at which there is a file. -/
def FoundIn (t : FileTree) (ps : List Path) (f : Path) : Prop :=
  t.isFile f = true ∧ ∃ front back, ps = front ++ f :: back ∧ ∀ p ∈ front, t.isFile p = false

theorem firstFile_eq_some {ps : List Path} {f : Path} : r.firstFile ps = some f ↔ FoundIn r.tree ps f := by
  unfold firstFile FoundIn
  rw [List.find?_eq_some_iff_append]
  simp only [Bool.not_eq_true']

/-- The name that a manifest gives to the entry of its package: the entry that is written as a module if there is a
language level, else the other one; without both it is the index. -/
inductive EntryNamed (target : Option Target) (m : Manifest) : String → Prop where
  | module (name : String) : target.isSome → m.module = some name → EntryNamed target m name
  | main (name : String) : target = none ∨ m.module = none → m.main = some name → EntryNamed target m name
  | index : target = none ∨ m.module = none → m.main = none → EntryNamed target m "index.js"

theorem entryNamed_iff {name : String} : EntryNamed r.target m name ↔ r.entryName m = name := by
  constructor
  · intro h
    unfold entryName
    cases h with
    | module name htarget hmodule =>
      obtain ⟨level, hlevel⟩ := Option.isSome_iff_exists.mp htarget
      simp only [hlevel, hmodule]
    | main name hnone hmain => rcases hnone with hnone | hnone <;> simp [hnone, hmain]
    | index hnone hmain => rcases hnone with hnone | hnone <;> simp [hnone, hmain]
  · rintro rfl
    -- without a language level, or without the entry for it, the other entry counts
    have hother : (∀ level name, r.target = some level → m.module = some name → False) →
        r.target = none ∨ m.module = none := by
      intro hnot
      cases htarget : r.target with
      | none => exact Or.inl rfl
      | some level => exact Or.inr (Option.eq_none_iff_forall_ne_some.mpr fun name => hnot level name htarget)
    unfold entryName
    split
    next htarget hmodule => exact .module _ (by simp [htarget]) hmodule
    next hmain hnot => exact .main _ (hother hnot) hmain
    next hmain hnot => exact .index (hother hnot) hmain

/-- The paths at which the entry of a package can be, when `p` is where its manifest says that it is: as it is, with an
ending, or as the index of a directory there. -/
def entryPlaces (t : FileTree) (p : Path) : List Path :=
  [p, p.withSuffix ".js", p.withSuffix ".json"] ++ if t.isDirectory p then [p.child "index.js"] else []

/-- A file is the entry of the package in a directory. -/
def IsEntryOf (r : Resolver) (directory file : Path) : Prop :=
  r.tree.isDirectory directory = true ∧ ∃ m name, r.tree.manifestAt? directory = some m ∧ EntryNamed r.target m name ∧
    FoundIn r.tree (entryPlaces r.tree (directory.child name).normalize) file

/-- A file is the one at a path with an ending that was left out. -/
def IsExtended (t : FileTree) (p file : Path) : Prop := FoundIn t [p.withSuffix ".js", p.withSuffix ".json"] file

/-! ## The entry of a package -/

/-- The entry of a package is found where its manifest says that it is. -/
theorem outcome_entryFile (hm : r.tree.manifestAt? directory = some m) :
    (r.entryFile directory).outcome = .ok (r.firstFile (entryPlaces r.tree (r.entryPlace directory m))) := by
  unfold entryFile
  rw [outcome_bind_manifestOf hm]
  · -- the index is looked for when nothing else is found
    have hsplit : r.firstFile (entryPlaces r.tree (r.entryPlace directory m)) =
        (r.firstFile (withExtensions (r.entryPlace directory m))).or
          (if r.tree.isDirectory (r.entryPlace directory m) then
            r.firstFile [(r.entryPlace directory m).child "index.js"] else none) := by
      unfold firstFile entryPlaces
      rw [List.find?_append]
      split <;> rfl
    rw [hsplit]
    simp only
    unfold entryPlace
    split
    next f hf => rw [hf, outcome_pure, Option.some_or]
    next hnone => rw [hnone, outcome_pure, Option.none_or]
  · intro a
    simp only
    split <;> exact Steady.pure _

/-- What stands for a place as a package. -/
theorem exists_outcome_package (p : Path) (hm : (r.tree.manifestAt? p).isSome) : ∃ package : Option Path,
    (if r.tree.isDirectory p then r.entryFile p else pure none : Linking (Option Path)).outcome = .ok package ∧
      ∀ file, package = some file ↔ r.IsEntryOf p file := by
  obtain ⟨m, hm⟩ := Option.isSome_iff_exists.mp hm
  by_cases hdirectory : r.tree.isDirectory p = true
  · refine ⟨_, by rw [if_pos hdirectory, outcome_entryFile hm], ?_⟩
    intro file
    rw [firstFile_eq_some]
    unfold IsEntryOf
    constructor
    · intro hfile
      exact ⟨hdirectory, m, r.entryName m, hm, entryNamed_iff.mpr rfl, hfile⟩
    · rintro ⟨-, m', name, hm', hname, hfile⟩
      cases Option.some.inj (hm.symm.trans hm')
      cases entryNamed_iff.mp hname
      exact hfile
  · refine ⟨none, by rw [if_neg hdirectory, outcome_pure], ?_⟩
    intro file
    constructor
    · rintro ⟨⟩
    · rintro ⟨hyes, -⟩
      exact absurd hyes hdirectory

/-! ## What a relative specifier stands for -/

/-- The place to which a relative specifier leads from an importer. -/
def relativePlace (specifier : String) (importer : Path) : Path :=
  ((importer.parent.getD ⟨"/"⟩).child specifier).normalize

/-- The outcome of a relative specifier for which there is no file at its place. -/
theorem outcome_resolveRelative {package : Option Path}
    (hno : r.tree.isFile (relativePlace specifier importer) = false)
    (hpackage : (if r.tree.isDirectory (relativePlace specifier importer) then
      r.entryFile (relativePlace specifier importer) else pure none : Linking (Option Path)).outcome = .ok package) :
    (r.resolveRelative specifier importer).outcome =
      (oneOf specifier importer (r.firstFile [(relativePlace specifier importer).withSuffix ".js",
        (relativePlace specifier importer).withSuffix ".json"]) package).outcome := by
  have hsteady : Steady (fun _ => True) r.tree True (if r.tree.isDirectory (relativePlace specifier importer) then
      r.entryFile (relativePlace specifier importer) else pure none : Linking (Option Path)) := by
    split
    · exact (steady_entryFile _).mono fun _ _ => trivial
    · exact Steady.pure none
  have hunfold : r.resolveRelative specifier importer =
      (if r.tree.isDirectory (relativePlace specifier importer) then
        r.entryFile (relativePlace specifier importer) else pure none : Linking (Option Path)) >>=
      oneOf specifier importer (r.firstFile [(relativePlace specifier importer).withSuffix ".js",
        (relativePlace specifier importer).withSuffix ".json"]) := by
    unfold resolveRelative
    unfold relativePlace at hno ⊢
    simp only [hno, Bool.false_eq_true, if_false]
    split <;> rfl
  rw [hunfold, outcome_bind trivial hsteady fun a _ => steady_oneOf specifier importer _ a, hpackage]
  rfl

/-- Of an ending and a package, the one that there is stands for the specifier. -/
theorem outcome_oneOf (specifier : String) (importer : Path) (extended package : Option Path) :
    (∀ f e, (oneOf specifier importer extended package).outcome = .error (.resolution specifier importer (.ambiguous f e)) ↔
      extended = some f ∧ package = some e) ∧
    (∀ f, (oneOf specifier importer extended package).outcome = .ok f ↔
      extended = some f ∧ package = none ∨ package = some f ∧ extended = none) ∧
    ((oneOf specifier importer extended package).outcome = .error (.resolution specifier importer .noFile) ↔
      extended = none ∧ package = none) := by
  cases extended <;> cases package <;> simp [oneOf]

/-- The message on an ambiguous specifier shows both files. -/
theorem shows_ambiguous (specifier : String) (importer file package : Path) :
    (Failure.resolution specifier importer (.ambiguous file package)).Shows file.text ∧
      (Failure.resolution specifier importer (.ambiguous file package)).Shows package.text := by
  unfold Failure.Shows Failure.message ResolutionFault.message
  simp only [String.toList_append]
  constructor
  · exact ⟨"can't resolve '".toList ++ specifier.toList ++ "' from '".toList ++ importer.text.toList ++ "': ".toList ++
      "ambiguous, both ".toList, " and ".toList ++ package.text.toList ++ " exist".toList, by simp⟩
  · exact ⟨"can't resolve '".toList ++ specifier.toList ++ "' from '".toList ++ importer.text.toList ++ "': ".toList ++
      ("ambiguous, both ".toList ++ file.text.toList ++ " and ".toList), " exist".toList, by simp⟩

/-- The message on a specifier that stands for no file shows the specifier and the importer. -/
theorem shows_resolution (specifier : String) (importer : Path) (fault : ResolutionFault) :
    (Failure.resolution specifier importer fault).Shows specifier ∧
      (Failure.resolution specifier importer fault).Shows importer.text := by
  unfold Failure.Shows Failure.message
  simp only [String.toList_append]
  constructor
  · exact ⟨"can't resolve '".toList, "' from '".toList ++ importer.text.toList ++ "': ".toList ++ fault.message.toList,
      by simp⟩
  · exact ⟨"can't resolve '".toList ++ specifier.toList ++ "' from '".toList, "': ".toList ++ fault.message.toList,
      by simp⟩

/-- What goes wrong with an ending and a package shows the specifier, the importer, and both files if there are both. -/
theorem shows_oneOf {extended package : Option Path} {e : Failure}
    (h : (oneOf specifier importer extended package).outcome = .error e) : e.Shows specifier ∧ e.Shows importer.text ∧
      ∀ file entry, extended = some file → package = some entry → e.Shows file.text ∧ e.Shows entry.text := by
  cases extended with
  | none =>
    cases package with
    | none =>
      cases h
      have hshows := shows_resolution specifier importer .noFile
      exact ⟨hshows.1, hshows.2, by simp⟩
    | some entry => cases h
  | some file =>
    cases package with
    | none => cases h
    | some entry =>
      cases h
      have hshows := shows_resolution specifier importer (.ambiguous file entry)
      refine ⟨hshows.1, hshows.2, ?_⟩
      rintro _ _ ⟨⟩ ⟨⟩
      exact shows_ambiguous specifier importer file entry

/-- What a relative specifier stands for, as long as the manifest at its place is well-formed: the file there; or else
the one of the entry of the package there and the file with an ending that there is. With both it is ambiguous. -/
theorem resolve_relative (hrelative : isRelative specifier = true)
    (hmanifest : (r.tree.manifestAt? (relativePlace specifier importer)).isSome) {s : Session}
    (hs : Fits (fun _ => True) r.tree s.manifests) :
    let p := relativePlace specifier importer
    let answer := ((r.resolve specifier importer).runIn s).1
    (r.tree.isFile p = true → answer = .ok p) ∧
    (r.tree.isFile p = false →
      (∀ file package, answer = .error (.resolution specifier importer (.ambiguous file package)) ↔
        IsExtended r.tree p file ∧ r.IsEntryOf p package) ∧
      (∀ file, answer = .ok file ↔
        IsExtended r.tree p file ∧ (∀ package, ¬r.IsEntryOf p package) ∨
          r.IsEntryOf p file ∧ ∀ extended, ¬IsExtended r.tree p extended) ∧
      (answer = .error (.resolution specifier importer .noFile) ↔
        (∀ file, ¬IsExtended r.tree p file) ∧ ∀ package, ¬r.IsEntryOf p package)) ∧
    ∀ e, answer = .error e → e.Shows specifier ∧ e.Shows importer.text ∧
      ∀ file package, IsExtended r.tree p file → r.IsEntryOf p package → e.Shows file.text ∧ e.Shows package.text := by
  intro p answer
  have hanswer : answer = (r.resolveRelative specifier importer).outcome := by
    have hsteady := (@steady_resolve r (fun _ => True) specifier importer s hs).1 fun _ => trivial
    show ((r.resolve specifier importer).runIn s).1 = _
    rw [hsteady, resolve, if_pos hrelative]
  by_cases hfile : r.tree.isFile p = true
  · have hexact : answer = .ok p := by
      rw [hanswer]
      unfold resolveRelative
      unfold p relativePlace at hfile
      simp only [hfile, if_true]
      rfl
    refine ⟨fun _ => hexact, fun hno => absurd hfile (by simp [hno]), ?_⟩
    rintro e he
    rw [hexact] at he
    cases he
  · have hno : r.tree.isFile p = false := by simpa using hfile
    obtain ⟨package, hpackage, hentry⟩ := exists_outcome_package p hmanifest
    rw [outcome_resolveRelative hno hpackage] at hanswer
    have hextended : ∀ file, r.firstFile [p.withSuffix ".js", p.withSuffix ".json"] = some file ↔
        IsExtended r.tree p file := fun file => firstFile_eq_some
    refine ⟨fun hyes => absurd hyes hfile, fun _ => ?_, ?_⟩
    all_goals simp only [← hentry, ← hextended, ← Option.eq_none_iff_forall_ne_some] at *
    · rw [hanswer]
      exact outcome_oneOf specifier importer _ package
    · intro e he
      rw [hanswer] at he
      exact shows_oneOf he

/-- A script beside which there are a directory with a package and a file of one name. -/
def besidePackage : Resolver where
  tree := .ofTexts ["work"] [["work"], ["work", "src"], ["work", "src", "b"]]
    [(["work", "src", "b", "package.json"], "\x7b\"main\": \"x\", \"module\": \"m\"\x7d"),
      (["work", "src", "b", "m.js"], "exports.i = 1;\n"), (["work", "src", "b", "x.js"], "exports.i = 2;\n"),
      (["work", "src", "b.json"], "3\n")]
  bases := [⟨"/work/src"⟩]
  target := some .es2020
  exports := []

/-- A specifier for which there are a file and a package: the entry is the one that is written as a module. -/
theorem resolve_relative_besidePackage :
    isRelative "./b" = true ∧ (besidePackage.tree.manifestAt? (relativePlace "./b" ⟨"/work/src/a.js"⟩)).isSome ∧
      Fits (fun _ => True) besidePackage.tree Table.empty ∧
      besidePackage.tree.isFile (relativePlace "./b" ⟨"/work/src/a.js"⟩) = false ∧
      ((besidePackage.resolve "./b" ⟨"/work/src/a.js"⟩).runIn ⟨Table.empty, []⟩).1 =
        .error (.resolution "./b" ⟨"/work/src/a.js"⟩ (.ambiguous ⟨"/work/src/b.json"⟩ ⟨"/work/src/b/m.js"⟩)) := by
  let p := relativePlace "./b" ⟨"/work/src/a.js"⟩
  have hrelative : isRelative "./b" = true := by decide
  have hmanifest : (besidePackage.tree.manifestAt? p).isSome := by decide +kernel
  have hfits : Fits (fun _ => True) besidePackage.tree Table.empty := fits_empty _ _
  have hno : besidePackage.tree.isFile p = false := by decide +kernel
  have hextended : IsExtended besidePackage.tree p ⟨"/work/src/b.json"⟩ :=
    firstFile_eq_some.mp (by decide +kernel)
  have hcheck : ((besidePackage.tree.manifestAt? p).any fun m => decide (m.module = some "m")) = true := by
    decide +kernel
  obtain ⟨m, hm, hmodule⟩ := (Option.any_eq_true _ _).mp hcheck
  have hentry : besidePackage.IsEntryOf p ⟨"/work/src/b/m.js"⟩ :=
    ⟨by decide +kernel, m, "m", hm, .module _ rfl (of_decide_eq_true hmodule), firstFile_eq_some.mp (by decide +kernel)⟩
  refine ⟨hrelative, hmanifest, hfits, hno, ?_⟩
  exact (((resolve_relative hrelative hmanifest hfits).2.1 hno).1 _ _).mpr ⟨hextended, hentry⟩

end Resolver

end Relink
