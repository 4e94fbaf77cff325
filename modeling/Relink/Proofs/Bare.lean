import Relink.Proofs.Relative

/-!
# Bare specifiers

A bare specifier is looked up in the bases, one after the other: first below the base itself, then in the packages of
the directories above the importer that lie inside the base. It stands for the first of all these paths at which there
is a file.

* `filePlaces`, `offeredPlaces` — where the file for a path can be, and what a package offers under a name.
* `barePlaces` — where a bare specifier is looked up.
* `Searches` — what some computations find is the first file at some paths.
* `resolve_bare` — what a bare specifier stands for.
-/

namespace Relink

/-! ## The directories above an importer -/

namespace Path

variable {p q d : Path}

theorem below_of_mem_ancestorsUpTo {n : Nat} (h : d ∈ ancestorsUpTo n p) : p.Below d := by
  induction n generalizing p with
  | zero => cases h
  | succ n ih =>
    unfold ancestorsUpTo at h
    split at h
    next a ha =>
      obtain ⟨c, hc, -⟩ := components_parent ha
      have hbelow : p.Below a := below_iff.mpr ⟨c, [], hc⟩
      rcases List.mem_cons.mp h with rfl | h
      · exact hbelow
      · exact hbelow.trans (ih h)
    next => cases h

/-- A path lies inside of those above it. -/
theorem below_of_mem_ancestors (h : d ∈ p.ancestors) : p.Below d := below_of_mem_ancestorsUpTo h

/-- The paths above a path that stand in front of a directory are those inside the directory. -/
theorem Below.takeWhile_ancestorsUpTo (h : p.Below q) (n : Nat) :
    (ancestorsUpTo n p).takeWhile (fun d => !d.same q) = (ancestorsUpTo n p).filter fun d => d.Below q := by
  induction n generalizing p with
  | zero => rfl
  | succ n ih =>
    cases hparent : p.parent with
    | none =>
      rw [ancestorsUpTo, hparent]
      rfl
    | some a =>
      have hancestors : ancestorsUpTo (n + 1) p = a :: ancestorsUpTo n a := by
        rw [ancestorsUpTo, hparent]
      rw [hancestors]
      rcases h.of_parent hparent with ha | ha
      · have hsame : a.same q = true := same_iff.mpr ha
        have hnot : ¬a.Below q := fun hbelow => by
          rw [hbelow.not_same] at hsame
          cases hsame
        have hrest : (ancestorsUpTo n a).filter (fun d => d.Below q) = [] := by
          rw [List.filter_eq_nil_iff]
          intro d hd hbelow
          exact hnot ((below_of_mem_ancestorsUpTo hd).trans (of_decide_eq_true hbelow))
        rw [List.takeWhile_cons_of_neg (by simp [hsame]), List.filter_cons_of_neg (by simp [hnot]), hrest]
      · rw [List.takeWhile_cons_of_pos (by simp [ha.not_same]), List.filter_cons_of_pos (by simp [ha]), ih ha]

/-- The directories above a path that lie inside a base, the nearest first. -/
def directoriesInside (p base : Path) : List Path := p.ancestors.filter fun d => d.Below base

/-- There are none above a path that does not lie inside the base itself. -/
theorem directoriesInside_eq_nil {base : Path} (h : ¬p.Below base) : p.directoriesInside base = [] := by
  unfold directoriesInside
  rw [List.filter_eq_nil_iff]
  intro d hd hbelow
  exact h ((below_of_mem_ancestors hd).trans (of_decide_eq_true hbelow))

/-- All directories above a path that is the base: they lie outside, and the base is none of them. -/
def strayDirectories (p base : Path) : List Path := if p.same base then p.ancestors else []

theorem strayDirectories_eq_nil {base : Path} (h : p.same base = true → p.parent = none) :
    p.strayDirectories base = [] := by
  unfold strayDirectories
  split
  next hsame =>
    unfold ancestors
    rw [ancestorsUpTo, h hsame]
  next => rfl

end Path

namespace Resolver

open Linking

variable {r : Resolver} {specifier : String} {importer base : Path}

/-- The directories the packages of which are searched for an importer are those above it inside the base, and all
those above it if it is the base. -/
theorem moduleDirectories_eq (importer base : Path) : moduleDirectories importer base =
    (importer.directoriesInside base ++ importer.strayDirectories base).map fun d => d.child "node_modules" := by
  unfold moduleDirectories
  cases hstarts : importer.startsWith base with
  | false =>
    have hbelow : ¬importer.Below base := fun h => by
      rw [h.startsWith] at hstarts
      cases hstarts
    have hsame : ¬importer.same base = true := by
      intro h
      have hprefix : base.components <+: importer.components := Path.same_iff.mp h ▸ List.prefix_rfl
      rw [Path.startsWith, List.isPrefixOf_iff_prefix.mpr hprefix] at hstarts
      cases hstarts
    unfold Path.strayDirectories
    rw [Path.directoriesInside_eq_nil hbelow, if_neg hsame, if_neg Bool.false_ne_true]
    rfl
  | true =>
    rw [if_pos rfl]
    cases hsame : importer.same base with
    | false =>
      have hbelow : importer.Below base := ⟨hstarts, hsame⟩
      unfold Path.strayDirectories Path.directoriesInside Path.ancestors
      rw [hbelow.takeWhile_ancestorsUpTo, hsame, if_neg Bool.false_ne_true, List.append_nil]
    | true =>
      have hbelow : ¬importer.Below base := fun h => by
        rw [h.not_same] at hsame
        cases hsame
      -- the base is longer than what lies above it, so nothing ends the search
      have hall : ∀ d ∈ importer.ancestors, (!d.same base) = true := by
        intro d hd
        have hinside := Path.below_of_mem_ancestors hd
        rw [Bool.not_eq_true', Bool.eq_false_iff]
        intro hd
        have hboth : importer.same d = true := by
          rw [Path.same_iff] at *
          rw [hsame, hd]
        rw [hinside.not_same] at hboth
        cases hboth
      unfold Path.strayDirectories
      rw [Path.directoriesInside_eq_nil hbelow, if_pos hsame, List.nil_append, List.takeWhile_eq_self_iff.mpr hall]

/-! ## Places -/

/-- The paths at which the file for a path can be: as it is, with an ending, or as the entry of the package there. -/
def filePlaces (r : Resolver) (p : Path) : List Path :=
  withExtensions p ++ if r.tree.isDirectory p then
    (r.tree.manifestAt? p).elim [] fun m => entryPlaces r.tree (r.entryPlace p m) else []

/-- The paths at which a package has what its manifest offers under a name: each as it is, and with the ending of a
script. -/
def offeredPlaces (r : Resolver) (name : String) (directory : Path) : List Path :=
  if r.tree.isDirectory directory then
    (r.tree.manifestAt? directory).elim [] fun m =>
      let matching := m.exportEntries.filter fun (key, _) =>
        (directory.child key).normalize.same (directory.child name).normalize
      matching.flatMap fun (_, target) =>
        [(directory.child target).normalize, (directory.child target).normalize.withSuffix ".js"]
  else []

/-- The paths at which a bare specifier is looked up below a base itself: in the place of a file or package, and in what
its package offers. -/
def basePlaces (r : Resolver) (specifier : String) (base : Path) : List Path :=
  r.filePlaces (base.child specifier).normalize ++
    (splitSpecifier specifier).2.elim [] fun inner => r.offeredPlaces inner (base.child (splitSpecifier specifier).1)

/-- The paths at which a bare specifier is looked up in the packages of directories. -/
def modulePlaces (r : Resolver) (specifier : String) (ds : List Path) : List Path :=
  ds.flatMap fun d => r.filePlaces ((d.child "node_modules").child specifier)

/-- The paths at which a bare specifier of an importer is to be looked up. -/
def barePlaces (r : Resolver) (specifier : String) (importer : Path) : List Path :=
  r.bases.flatMap fun base =>
    r.basePlaces specifier base ++ r.modulePlaces specifier (importer.directoriesInside base)

/-- The paths at which it is looked up: also above a base that is the importer. -/
def searchedPlaces (r : Resolver) (specifier : String) (importer : Path) : List Path :=
  r.bases.flatMap fun base => r.basePlaces specifier base ++
    r.modulePlaces specifier (importer.directoriesInside base ++ importer.strayDirectories base)

/-- These are the same paths unless a base with something above it is the importer. -/
theorem searchedPlaces_eq (h : ∀ base ∈ r.bases, importer.same base = true → importer.parent = none) :
    r.searchedPlaces specifier importer = r.barePlaces specifier importer := by
  unfold searchedPlaces barePlaces
  refine List.flatMap_congr ?_
  intro base hbase
  rw [Path.strayDirectories_eq_nil (h base hbase), List.append_nil]

/-! ## Searches -/

/-- What some computations find, which run until there is something, is the first file at some paths. -/
inductive Searches (r : Resolver) : List (Linking (Option Path)) → List Path → Prop where
  | nil : Searches r [] []
  | cons {x : Linking (Option Path)} {xs : List (Linking (Option Path))} {here behind : List Path} :
    Steady (fun _ => True) r.tree True x → x.outcome = .ok (r.firstFile here) → Searches r xs behind →
      Searches r (x :: xs) (here ++ behind)

namespace Searches

variable {xs ys : List (Linking (Option Path))} {ps qs : List Path}

theorem one {x : Linking (Option Path)} (hsteady : Steady (fun _ => True) r.tree True x)
    (h : x.outcome = .ok (r.firstFile ps)) : Searches r [x] ps := by
  rw [← List.append_nil ps]
  exact .cons hsteady h .nil

theorem append (h : Searches r xs ps) (h' : Searches r ys qs) : Searches r (xs ++ ys) (ps ++ qs) := by
  induction h with
  | nil => exact h'
  | cons hsteady houtcome _ ih =>
    rw [List.cons_append, List.append_assoc]
    exact .cons hsteady houtcome ih

theorem flatMap {α : Type} {f : α → List (Linking (Option Path))} {g : α → List Path} {as : List α}
    (h : ∀ a ∈ as, Searches r (f a) (g a)) : Searches r (as.flatMap f) (as.flatMap g) := by
  induction as with
  | nil => exact .nil
  | cons a as ih =>
    obtain ⟨ha, has⟩ := List.forall_mem_cons.mp h
    exact ha.append (ih has)

theorem steady (h : Searches r xs ps) : ∀ x ∈ xs, Steady (fun _ => True) r.tree True x := by
  induction h with
  | nil => simp
  | cons hsteady _ _ ih => exact List.forall_mem_cons.mpr ⟨hsteady, ih⟩

theorem outcome (h : Searches r xs ps) : (firstSome xs).outcome = .ok (r.firstFile ps) := by
  induction h with
  | nil => rfl
  | @cons x xs here behind hsteady houtcome hrest ih =>
    have hsplit : r.firstFile (here ++ behind) = (r.firstFile here).or (r.firstFile behind) := List.find?_append
    rw [firstSome, outcome_bind trivial hsteady, houtcome, hsplit]
    · cases r.firstFile here with
      | none => exact ih
      | some f => rfl
    · intro a _
      split
      · exact Steady.pure _
      · exact steady_firstSome hrest.steady

end Searches

/-! ## What a bare specifier stands for -/

theorem outcome_fileOrPackage (hmanifests : ∀ d, (r.tree.manifestAt? d).isSome) (p : Path) :
    (r.fileOrPackage p).outcome = .ok (r.firstFile (r.filePlaces p)) := by
  obtain ⟨m, hm⟩ := Option.isSome_iff_exists.mp (hmanifests p)
  have hsplit : r.firstFile (r.filePlaces p) = (r.firstFile (withExtensions p)).or
      (r.firstFile (if r.tree.isDirectory p then entryPlaces r.tree (r.entryPlace p m) else [])) := by
    unfold filePlaces
    rw [hm]
    exact List.find?_append
  rw [hsplit]
  unfold fileOrPackage
  split
  next f hf => rw [hf, outcome_pure, Option.some_or]
  next hnone =>
    rw [hnone, Option.none_or]
    split
    · exact outcome_entryFile hm
    · rfl

theorem outcome_exportedFile {directory : Path} (hm : (r.tree.manifestAt? directory).isSome)
    (hdirectory : r.tree.isDirectory directory = true) (name : String) :
    (r.exportedFile directory name).outcome = .ok (r.firstFile (r.offeredPlaces name directory)) := by
  obtain ⟨m, hm⟩ := Option.isSome_iff_exists.mp hm
  unfold exportedFile offeredPlaces
  rw [outcome_bind_manifestOf hm fun _ => Steady.pure _, if_pos hdirectory, hm]
  rfl

/-- Below a base, a bare specifier is searched at its places. -/
theorem searches_placesBelow (hmanifests : ∀ d, (r.tree.manifestAt? d).isSome) (specifier : String)
    (importer base : Path) : Searches r (r.placesBelow specifier importer base) (r.basePlaces specifier base ++
      r.modulePlaces specifier (importer.directoriesInside base ++ importer.strayDirectories base)) := by
  have hfile : ∀ p, Searches r [r.fileOrPackage p] (r.filePlaces p) := fun p =>
    .one ((steady_fileOrPackage p).mono fun _ _ => trivial) (outcome_fileOrPackage hmanifests p)
  have hoffered : ∀ inner directory, Searches r
      (if r.tree.isDirectory directory then [r.exportedFile directory inner] else []) (r.offeredPlaces inner directory) := by
    intro inner directory
    split
    next hdirectory =>
      exact .one ((steady_exportedFile directory inner).mono fun _ _ => trivial)
        (outcome_exportedFile (hmanifests directory) hdirectory inner)
    next hno =>
      unfold offeredPlaces
      rw [if_neg hno]
      exact .nil
  unfold placesBelow basePlaces modulePlaces
  rw [moduleDirectories_eq, List.map_map, List.map_eq_flatMap]
  refine Searches.append (Searches.append (hfile _) ?_) (Searches.flatMap fun d _ => hfile _)
  obtain ⟨name, inner⟩ := splitSpecifier specifier
  cases inner with
  | none => exact .nil
  | some inner => exact hoffered inner _

/-- What a bare specifier stands for, as long as the manifests are well-formed: the first file at the paths at which it
is searched, and if there is none, the specifier is nowhere. The paths are those at which it is to be looked up, unless
the importer is a base itself; then the packages of the directories above that base are searched too. -/
theorem resolve_bare (hbare : isRelative specifier = false) (hmanifests : ∀ d, (r.tree.manifestAt? d).isSome)
    {s : Session} (hs : Fits (fun _ => True) r.tree s.manifests) :
    let answer := ((r.resolve specifier importer).runIn s).1
    (∀ file, answer = .ok file ↔ FoundIn r.tree (r.searchedPlaces specifier importer) file) ∧
    (∀ e, answer = .error e ↔ e = .resolution specifier importer .nowhere ∧
      ∀ p ∈ r.searchedPlaces specifier importer, r.tree.isFile p = false) ∧
    ((∀ base ∈ r.bases, importer.same base = true → importer.parent = none) →
      r.searchedPlaces specifier importer = r.barePlaces specifier importer) := by
  intro answer
  have hsearches : Searches r (r.bases.flatMap (r.placesBelow specifier importer))
      (r.searchedPlaces specifier importer) :=
    Searches.flatMap fun base _ => searches_placesBelow hmanifests specifier importer base
  have hanswer : answer = (r.firstFile (r.searchedPlaces specifier importer)).elim
      (.error (.resolution specifier importer .nowhere)) .ok := by
    have hsteady := (@steady_resolve r (fun _ => True) specifier importer s hs).1 fun _ => trivial
    show ((r.resolve specifier importer).runIn s).1 = _
    rw [hsteady, resolve, hbare, if_neg Bool.false_ne_true, resolveBare,
      outcome_bind trivial (steady_firstSome hsearches.steady), hsearches.outcome]
    · cases r.firstFile (r.searchedPlaces specifier importer) <;> rfl
    · intro found _
      split
      · exact Steady.pure _
      · exact Steady.fail _
  refine ⟨?_, ?_, searchedPlaces_eq⟩
  · intro file
    rw [hanswer, ← firstFile_eq_some]
    cases r.firstFile (r.searchedPlaces specifier importer) <;> simp
  · intro e
    have hnone : r.firstFile (r.searchedPlaces specifier importer) = none ↔
        ∀ p ∈ r.searchedPlaces specifier importer, r.tree.isFile p = false := by
      unfold firstFile
      simp only [List.find?_eq_none, Bool.not_eq_true]
    rw [hanswer, ← hnone]
    cases r.firstFile (r.searchedPlaces specifier importer) <;> simp [eq_comm]

/-- A package with an exports map in a base, and packages of that name in two directories above an importer. -/
def besideModules : Resolver where
  tree := .ofTexts ["work"]
    [["work"], ["work", "src"], ["work", "src", "pkg"], ["work", "src", "app"], ["work", "src", "app", "node_modules"],
      ["work", "src", "app", "node_modules", "pkg"], ["work", "src", "app", "node_modules", "pkg", "part"],
      ["work", "src", "node_modules"]]
    [(["work", "src", "pkg", "package.json"], "\x7b\"exports\": \x7b\"./part\": \"./gone\"\x7d\x7d"),
      (["work", "src", "app", "node_modules", "pkg", "part", "package.json"], "\x7b\"main\": \"m\"\x7d"),
      (["work", "src", "app", "node_modules", "pkg", "part", "m.js"], "exports.i = 1;\n")]
  bases := [⟨"/work/src"⟩]
  target := none
  exports := []

/-- What the package in the base offers is gone, so the package nearest above the importer is taken. -/
theorem resolve_bare_besideModules :
    isRelative "pkg/part" = false ∧ (∀ d, (besideModules.tree.manifestAt? d).isSome) ∧
      Fits (fun _ => True) besideModules.tree Table.empty ∧
      besideModules.searchedPlaces "pkg/part" ⟨"/work/src/app/lib/main.js"⟩ =
        besideModules.barePlaces "pkg/part" ⟨"/work/src/app/lib/main.js"⟩ ∧
      ((besideModules.resolve "pkg/part" ⟨"/work/src/app/lib/main.js"⟩).runIn ⟨Table.empty, []⟩).1 =
        .ok ⟨"/work/src/app/node_modules/pkg/part/m.js"⟩ := by
  have hbare : isRelative "pkg/part" = false := by decide
  have hmanifests : ∀ d, (besideModules.tree.manifestAt? d).isSome :=
    FileTree.isSome_manifestAt? (by decide +kernel)
  have hfits : Fits (fun _ => True) besideModules.tree Table.empty := fits_empty _ _
  obtain ⟨hfound, -, hplaces⟩ := @resolve_bare _ _ ⟨"/work/src/app/lib/main.js"⟩ hbare hmanifests ⟨Table.empty, []⟩ hfits
  refine ⟨hbare, hmanifests, hfits, hplaces (by decide +kernel), (hfound _).mpr ?_⟩
  exact firstFile_eq_some.mp (by decide +kernel)

/-- A base, and a package beside it. -/
def besideBase : Resolver where
  tree := .ofTexts ["work"] [["work"], ["work", "src"], ["work", "node_modules"]]
    [(["work", "node_modules", "x.js"], "exports.i = 1;\n")]
  bases := [⟨"/work/src"⟩]
  target := none
  exports := []

/-- For an importer that is a base, a package outside the base is taken, although the specifier is to be looked up at no
path with a file. -/
theorem found_outside_besideBase :
    isRelative "x" = false ∧ (∀ d, (besideBase.tree.manifestAt? d).isSome) ∧
      (∀ p ∈ besideBase.barePlaces "x" ⟨"/work/src"⟩, besideBase.tree.isFile p = false) ∧
      ((besideBase.resolve "x" ⟨"/work/src"⟩).runIn ⟨Table.empty, []⟩).1 = .ok ⟨"/work/node_modules/x.js"⟩ ∧
      ∀ base ∈ besideBase.bases, ¬Path.Below ⟨"/work/node_modules/x.js"⟩ base := by
  have hmanifests : ∀ d, (besideBase.tree.manifestAt? d).isSome := FileTree.isSome_manifestAt? (by decide +kernel)
  have hcheck : ((besideBase.resolve "x" ⟨"/work/src"⟩).outcome.toOption.any fun f =>
      f == ⟨"/work/node_modules/x.js"⟩) = true := by
    decide +kernel
  obtain ⟨file, hanswer, hfile⟩ := exists_of_any hcheck
  rw [beq_iff_eq.mp hfile] at hanswer
  exact ⟨by decide, hmanifests, by decide +kernel, hanswer, by decide +kernel⟩

end Resolver

end Relink
