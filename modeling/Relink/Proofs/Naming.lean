import Mathlib.Data.List.Pairwise
import Relink.Proofs.Consistent
import Relink.Proofs.Origin

/-!
# Names of modules

A module below the first base is known by its path without the ending of a script. A script below another base is
known by its path too, or as the entry of its package by the name of the package, if that name is exported. Nothing
keeps two modules from having one name; then a bundle finds the last of them under it.

* `KnownAs` — the name under which a file is known, from its path, its package and the exported names.
* `known_of_locate` — where a file is located, it is given this name.
* `aliases_identify_iff` — when the modules of a bundle are found under their names, and what these names are.
-/

namespace Relink

/-! ## Names from paths -/

namespace Path

/-- A name is a path with slashes without the ending of a script. -/
def NameOf (basePath name : String) : Prop :=
  basePath = name ++ ".js" ∨ basePath = name ∧ ∀ rest, basePath ≠ rest ++ ".js"

theorem slashed_eq_self {text : String} (h : '\\' ∉ text.toList) : slashed text = text := by
  have hmap : text.toList.map (fun c => if c == '\\' then '/' else c) = text.toList := by
    refine (List.map_congr_left fun c hc => ?_).trans (List.map_id _)
    have hne : c ≠ '\\' := fun heq => h (heq ▸ hc)
    simp [hne]
  rw [slashed, hmap, String.ofList_toList]

theorem backslash_not_mem_slashed (text : String) : '\\' ∉ (slashed text).toList := by
  unfold slashed
  rw [String.toList_ofList, List.mem_map]
  rintro ⟨c, -, hc⟩
  by_cases hback : c = '\\'
  · simp [hback] at hc
  · simp [hback] at hc

/-- The name of a path with slashes. -/
theorem canonicalName_eq_iff {basePath name : String} (h : '\\' ∉ basePath.toList) :
    canonicalName basePath = name ↔ NameOf basePath name := by
  unfold canonicalName NameOf
  simp only
  by_cases hsuffix : ['.', 'j', 's'].isSuffixOf basePath.toList = true
  · rw [if_pos hsuffix]
    obtain ⟨front, hfront⟩ := List.isSuffixOf_iff_suffix.mp hsuffix
    have hbase : basePath = String.ofList front ++ ".js" := by
      apply String.toList_inj.mp
      rw [String.toList_append, String.toList_ofList, ← hfront]
      rfl
    have htake : basePath.toList.take (basePath.toList.length - 3) = front := by
      rw [← hfront]
      simp
    have hslash : '\\' ∉ (String.ofList front).toList := by
      rw [String.toList_ofList]
      exact fun hmem => h (hfront ▸ List.mem_append_left _ hmem)
    rw [htake, slashed_eq_self hslash, hbase]
    constructor
    · rintro rfl
      exact Or.inl rfl
    · rintro (heq | ⟨-, hnot⟩)
      · exact (String.append_left_inj ".js").mp heq
      · exact absurd rfl (hnot _)
  · rw [if_neg hsuffix, slashed_eq_self h]
    have hnot : ∀ rest, basePath ≠ rest ++ ".js" := by
      rintro rest rfl
      refine hsuffix (List.isSuffixOf_iff_suffix.mpr ⟨rest.toList, ?_⟩)
      rw [String.toList_append]
      rfl
    constructor
    · rintro rfl
      exact Or.inr ⟨rfl, hnot⟩
    · rintro (heq | ⟨heq, -⟩)
      · exact absurd heq (hnot _)
      · exact heq

theorem NameOf.unique {basePath name name' : String} (hslash : '\\' ∉ basePath.toList) (h : NameOf basePath name)
    (h' : NameOf basePath name') : name = name' :=
  ((canonicalName_eq_iff hslash).mpr h).symm.trans ((canonicalName_eq_iff hslash).mpr h')

end Path

/-! ## Names of files -/

namespace Resolver

open Linking

variable {r : Resolver} {file base directory : Path} {basePath name : String} {m : Manifest}

/-- A file is the entry of its package, in a directory with a manifest. -/
structure EntryOf (r : Resolver) (base file directory : Path) (m : Manifest) : Prop where
  package : r.packageOf base file = some directory
  manifest : r.tree.manifestAt? directory = some m
  entry : isEntry directory m file = true

theorem EntryOf.unique {directory' : Path} {m' : Manifest} (h : r.EntryOf base file directory m)
    (h' : r.EntryOf base file directory' m') : directory = directory' ∧ m = m' := by
  have hdirectory : directory = directory' := Option.some.inj (h.package.symm.trans h'.package)
  subst hdirectory
  exact ⟨rfl, Option.some.inj (h.manifest.symm.trans h'.manifest)⟩

/-- The name of a package: that in its manifest, or that of its directory. -/
def PackageName (directory : Path) (m : Manifest) (basePath name : String) : Prop :=
  m.name.or directory.fileName = some name ∨ m.name.or directory.fileName = none ∧ Path.NameOf basePath name

theorem PackageName.unique {name' : String} (hslash : '\\' ∉ basePath.toList)
    (h : PackageName directory m basePath name) (h' : PackageName directory m basePath name') : name = name' := by
  rcases h with h | ⟨hnone, h⟩
  · rcases h' with h' | ⟨hnone, -⟩
    · exact Option.some.inj (h.symm.trans h')
    · rw [hnone] at h
      cases h
  · rcases h' with h' | ⟨-, h'⟩
    · rw [hnone] at h'
      cases h'
    · exact h.unique hslash h'

/-- A file lies below the first base. -/
def BelowFirst (r : Resolver) (file : Path) : Prop := ∃ first ∈ r.bases.head?, file.startsWith first = true

/-- The name under which a file is known in a bundle. -/
inductive KnownAs (r : Resolver) (file base : Path) (basePath : String) (isScript : Bool) (name : String) : Prop
  | primary (hbelow : r.BelowFirst file) (hname : Path.NameOf basePath name)
  | script (hout : ¬r.BelowFirst file) (hscript : isScript = true) (hentry : ∀ directory m, ¬r.EntryOf base file directory m)
      (hname : Path.NameOf basePath name) (hexported : name ∈ r.exports)
  | package (hout : ¬r.BelowFirst file) (hscript : isScript = true) (directory : Path) (m : Manifest)
      (hentry : r.EntryOf base file directory m) (hname : PackageName directory m basePath name)
      (hexported : name ∈ r.exports)

/-- The name of a script outside the first base. -/
theorem nameOf_eq_ok {e : String × Bool} (hslash : '\\' ∉ basePath.toList)
    (h : (r.nameOf base file basePath).outcome = .ok e) :
    (∃ directory m, r.EntryOf base file directory m ∧ PackageName directory m basePath e.1) ∨
      (∀ directory m, ¬r.EntryOf base file directory m) ∧ Path.NameOf basePath e.1 := by
  have hname : Path.NameOf basePath (Path.canonicalName basePath) := (Path.canonicalName_eq_iff hslash).mp rfl
  unfold nameOf at h
  split at h
  next hnone =>
    cases h
    refine Or.inr ⟨fun directory m hentry => ?_, hname⟩
    rw [hentry.package] at hnone
    cases hnone
  next directory hdirectory =>
    have hsteady : Steady (fun _ => True) r.tree True (r.manifestOf directory) :=
      (steady_manifestOf _).mono fun _ => trivial
    rw [outcome_bind trivial hsteady fun m _ => Steady.pure _, outcome_manifestOf] at h
    cases hm : (r.readManifest directory).outcome with
    | error err =>
      rw [hm] at h
      cases h
    | ok m =>
      rw [hm] at h
      have hmanifest := (outcome_readManifest m).mp hm
      have he := Except.ok.inj h
      rw [← he]
      cases hentry : isEntry directory m file with
      | true =>
        refine Or.inl ⟨directory, m, ⟨hdirectory, hmanifest, hentry⟩, ?_⟩
        unfold PackageName
        cases m.name.or directory.fileName with
        | some name => exact Or.inl rfl
        | none => exact Or.inr ⟨rfl, hname⟩
      | false =>
        refine Or.inr ⟨fun directory' m' hentry' => ?_, hname⟩
        cases Option.some.inj (hdirectory.symm.trans hentry'.package)
        cases Option.some.inj (hmanifest.symm.trans hentry'.manifest)
        rw [hentry'.entry] at hentry
        cases hentry

/-- What a file is called where it is located is the name under which it is known. -/
theorem known_of_locate {isScript : Bool} {l : BaseLocation} (h : (r.locate file isScript).outcome = .ok l) :
    l.canonical = some name ↔ r.KnownAs file l.base l.basePath isScript name := by
  unfold locate at h
  simp only at h
  split at h
  · cases h
  next primary secondary hbases =>
    have hprimary := Path.isSome_stripAncestor? file primary
    have hbelow : r.BelowFirst file ↔ file.startsWith primary = true := by
      unfold BelowFirst
      simp [hbases]
    split at h
    next rest hrest =>
      cases h
      rw [hrest] at hprimary
      simp only [Option.some.injEq, Path.canonicalName_eq_iff (Path.backslash_not_mem_slashed rest.text)]
      constructor
      · exact KnownAs.primary (hbelow.mpr hprimary.symm)
      · rintro (⟨-, hname⟩ | ⟨hout⟩ | ⟨hout⟩)
        · exact hname
        · exact absurd (hbelow.mpr hprimary.symm) hout
        · exact absurd (hbelow.mpr hprimary.symm) hout
    next hnone =>
      rw [hnone] at hprimary
      have hout : ¬r.BelowFirst file := by simp [hbelow, ← hprimary]
      split at h
      · cases h
      next base rest _ =>
        have hslash := Path.backslash_not_mem_slashed rest.text
        split at h
        next hscript =>
          have hsteady : Steady (fun _ => True) r.tree True (r.nameOf base file (Path.slashed rest.text)) :=
            (steady_nameOf base file _).mono fun _ _ _ => trivial
          rw [outcome_bind trivial hsteady fun _ _ => Steady.pure _] at h
          cases hnamed : (r.nameOf base file (Path.slashed rest.text)).outcome with
          | error e =>
            rw [hnamed] at h
            cases h
          | ok e =>
            rw [hnamed] at h
            cases h
            have hexports : (if r.exports.contains e.1 then some e.1 else none) = some name ↔ e.1 = name ∧ name ∈ r.exports := by
              split
              next hin =>
                simp only [Option.some.injEq, iff_self_and]
                rintro rfl
                exact List.contains_iff_mem.mp hin
              next hnot =>
                refine iff_of_false (by simp) ?_
                rintro ⟨rfl, hmem⟩
                exact hnot (List.contains_iff_mem.mpr hmem)
            rw [hexports]
            rcases nameOf_eq_ok hslash hnamed with ⟨directory, m, hentry, hname⟩ | ⟨hentry, hname⟩
            · constructor
              · rintro ⟨rfl, hexported⟩
                exact .package hout hscript directory m hentry hname hexported
              · rintro (⟨hin, -⟩ | ⟨-, -, hno, -⟩ | ⟨-, -, directory', m', hentry', hname', hexported⟩)
                · exact absurd hin hout
                · exact absurd hentry (hno directory m)
                · obtain ⟨rfl, rfl⟩ := hentry.unique hentry'
                  exact ⟨hname.unique hslash hname', hexported⟩
            · constructor
              · rintro ⟨rfl, hexported⟩
                exact .script hout hscript hentry hname hexported
              · rintro (⟨hin, -⟩ | ⟨-, -, -, hname', hexported⟩ | ⟨-, -, directory, m, hentry', -⟩)
                · exact absurd hin hout
                · exact ⟨hname.unique hslash hname', hexported⟩
                · exact absurd hentry' (hentry directory m)
        next hscript =>
          cases h
          refine iff_of_false (by simp) ?_
          rintro (⟨hin, -⟩ | ⟨-, hyes, -⟩ | ⟨-, hyes, -⟩)
          · exact hout hin
          · exact hscript hyes
          · exact hscript hyes

end Resolver

/-! ## Names of modules -/

/-- A module is called by the name under which its file is known. -/
def Module.IsNamed (r : Resolver) (m : Module) : Prop :=
  ∀ name, m.canonical = some name ↔ r.KnownAs m.file m.base m.basePath (m.kind == .js) name

theorem Module.IsNamed.of_resembles {r : Resolver} {m m' : Module} (h : m.IsNamed r) (hsame : m'.Resembles m) :
    m'.IsNamed r := by
  intro name
  rw [hsame.canonical, hsame.file, hsame.base, hsame.basePath, hsame.kind]
  exact h name

namespace Discovery

open Linking

variable {d : Discovery} {trusted : Path → Prop}

/-- A module is named when it is made, if what is remembered of the packages above it is true. -/
theorem meets_module_named (file : Path) : Meets trusted d.resolver.tree (d.module file) (Returns fun m =>
    m.file = file ∧ ((∀ a ∈ m.file.ancestors, trusted a) → m.IsNamed d.resolver)) := by
  have hopened : Meets trusted d.resolver.tree (d.opened file) (Returns fun m =>
      Fresh file m ∧ ((∀ a ∈ file.ancestors, trusted a) → m.IsNamed d.resolver)) := by
    refine Meets.mono ((meets_opened file).and (steady_opened file)) ?_
    rintro r ⟨hfresh, hsteady⟩ m rfl
    refine ⟨hfresh m rfl, fun htrusted name => ?_⟩
    obtain ⟨kind, source, hkind, -, hmodule, -⟩ := exists_source (hsteady htrusted).symm
    obtain ⟨l, script, hlocate, -, rfl⟩ := moduleOf_eq_ok hmodule
    exact Resolver.known_of_locate hlocate
  refine meets_module hopened ?_ ?_
  · rintro m ⟨hfresh, hnamed⟩ -
    refine Meets.mono (meets_analysed_resembles hfresh) ?_
    rintro r hr m' rfl
    have hsame := (hr m' rfl).1
    have hfile : m'.file = file := hsame.file.trans hfresh.file
    exact ⟨hfile, fun htrusted => (hnamed (hfile ▸ htrusted)).of_resembles hsame⟩
  · rintro m a ⟨hfresh, hnamed⟩ - -
    have hsame := resembles_recalled m a.record
    have hfile : (Module.recalled m a.record).file = file := hsame.file.trans hfresh.file
    exact ⟨hfile, fun htrusted => (hnamed (hfile ▸ htrusted)).of_resembles hsame⟩

end Discovery

/-! ## Aliases -/

namespace Bundle

variable {b : Bundle}

/-- The modules of a bundle are found under their names if and only if these are different. -/
theorem aliases_identify (hids : b.artifacts.Pairwise fun a a' => a.record.id ≠ a'.record.id) :
    (∀ a ∈ b.artifacts, ∀ name, a.record.canonical = some name → b.aliases.get? name = some a.record.id) ↔
      b.artifacts.Pairwise fun a a' => ∀ name, a.record.canonical = some name → a'.record.canonical ≠ some name := by
  constructor
  · intro hfound
    refine hids.imp_of_mem ?_
    intro a a' ha ha' hid name hname hname'
    have hsame := (hfound a ha name hname).symm.trans (hfound a' ha' name hname')
    exact hid (Option.some.inj hsame)
  · intro hnames a ha name hname
    have hsymm : Std.Symm fun a a' : Artifact => ∀ name, a.record.canonical = some name → a'.record.canonical ≠ some name :=
      ⟨fun a a' h name hname' hname => h name hname hname'⟩
    unfold aliases
    refine Table.get?_ofList_of_forall (e := (name, a.record.id)) ?_ Std.ReflOrd.compare_self ?_
    · exact List.mem_filterMap.mpr ⟨a, ha, by rw [hname]; rfl⟩
    · intro e he hkey
      obtain ⟨a', ha', hmap⟩ := List.mem_filterMap.mp he
      obtain ⟨name', hname', rfl⟩ := Option.map_eq_some_iff.mp hmap
      have heq : name = name' := Std.LawfulEqOrd.eq_of_compare hkey
      subst heq
      by_contra hne
      have hother : a' ≠ a := fun h => hne (congrArg (fun a : Artifact => a.record.id) h)
      exact hnames.forall ha' ha hother name hname' hname

end Bundle

namespace Linker

open Linking Relink.Partition

variable {l : Linker} {t : FileTree} {g : ModuleGraph} {parts : List Partition} {made : Nat → Artifact}
  {output : LinkOutput} {kept : List Artifact}

/-- An artifact is located where its module is. -/
theorem Linked.located (h : Linked l g parts made output kept) {a : Artifact} (ha : a ∈ output.artifacts) :
    ∃ m ∈ g.modules, a.record.file = m.file ∧ a.record.base = m.base ∧ a.record.basePath = m.basePath ∧
      a.record.canonical = m.canonical ∧ a.record.kind = m.kind := by
  unfold LinkOutput.artifacts at ha
  rw [h.artifacts] at ha
  obtain ⟨i, hi, rfl⟩ := List.mem_map.mp ha
  obtain ⟨job, hplan, hrecord, -⟩ := h.isMade i hi
  obtain ⟨m, hm, rfl⟩ := plan_eq_some hplan
  unfold recordOf at hrecord
  simp only at hrecord
  split at hrecord
  · cases hrecord
  · rw [← Except.ok.inj hrecord]
    exact ⟨m, List.mem_of_getElem? hm, rfl, rfl, rfl, rfl, rfl⟩

/-- What a linker remembers of the packages above a file is what their manifests say. -/
def Current (l : Linker) (t : FileTree) (file : Path) : Prop :=
  ∀ directory ∈ file.ancestors, ∀ m, l.manifests.get? directory = some m → t.manifestAt? directory = some m

/-- In every link, the modules of a bundle are found under their names if and only if no two of them have one name. A
module is known by its path below the first base, and elsewhere by the name that its package exports. -/
theorem aliases_identify_iff (h : (l.link t).1 = .ok output) :
    (∀ b ∈ output.bundles,
      (∀ a ∈ b.artifacts, ∀ name, a.record.canonical = some name → b.aliases.get? name = some a.record.id) ↔
        b.artifacts.Pairwise fun a a' => ∀ name, a.record.canonical = some name → a'.record.canonical ≠ some name) ∧
    ∀ a ∈ output.artifacts, l.Current t a.record.file → ∀ name, a.record.canonical = some name ↔
      (l.resolver t).KnownAs a.record.file a.record.base a.record.basePath (a.record.kind == .js) name := by
  obtain ⟨g, s, parts, made, kept, hgraph, hlinked, -⟩ := link_cases h
  have hdistinct := (discovered_of_runIn hgraph).distinct
  constructor
  · intro b hb
    have hids := (hlinked.consistent hdistinct).ids
    unfold LinkOutput.artifacts at hids
    exact Bundle.aliases_identify ((List.pairwise_flatMap.mp hids).1 b hb)
  · -- what is remembered is true of the directories of which it is true now
    let trusted : Path → Prop := fun d => ∀ m, l.manifests.get? d = some m → t.manifestAt? d = some m
    have hfits : Fits trusted t l.session.manifests := fun d m hd hm => hd m hm
    have hmodules := (@meets_graph l t trusted
      (fun m => (∀ a ∈ m.file.ancestors, trusted a) → m.IsNamed (l.resolver t))
      (Discovery.meets_module_named (d := l.discovery t))
      (fun m dependencies hm htrusted =>
        (hm htrusted).of_resembles (resembles_with_dependencies m dependencies)) l.session hfits).1 g
      (congrArg Prod.fst hgraph)
    intro a ha hcurrent name
    obtain ⟨m, hm, hfile, hbase, hbasePath, hcanonical, hkind⟩ := hlinked.located ha
    rw [hcanonical, hfile, hbase, hbasePath, hkind]
    exact hmodules.2 m hm (fun d hd => hcurrent d (hfile ▸ hd)) name

/-- A package below a second base with a module that its entry requires. -/
def exportingTree (module : String) : FileTree :=
  .ofTexts ["work"] [["work"], ["work", "src"], ["work", "lib"], ["work", "lib", "pkg"]] [
    (["work", "src", "main.js"], "require(\"pkg\");\n"),
    (["work", "lib", "pkg", "package.json"], "\x7b\"main\": \"main\"\x7d"),
    (["work", "lib", "pkg", "main.js"], "require(\"./" ++ module ++ "\");\n"),
    (["work", "lib", "pkg", module ++ ".js"], "exports.i = 1;\n")]

/-- A configuration with two bases in which names of a package are exported. -/
def exportingConfig : Config :=
  { Config.default with
    entries := [⟨"src/main.js"⟩], bases := [⟨"src"⟩, ⟨"lib"⟩], minify := false, exports := ["pkg", "pkg/util"] }

/-- A link whose modules have different names. -/
theorem aliases_identify_packaged : ∃ (l : Linker) (output : LinkOutput),
    ofConfig (exportingTree "util") exportingConfig .unchanged (fun _ => false) = .ok l ∧
      (l.link (exportingTree "util")).1 = .ok output ∧
      output.artifacts.map (fun a => a.record.canonical) = [some "main", some "pkg", some "pkg/util"] ∧
      (∀ b ∈ output.bundles, ∀ a ∈ b.artifacts, ∀ name, a.record.canonical = some name →
        b.aliases.get? name = some a.record.id) ∧
      ∀ a ∈ output.artifacts, ∀ name, a.record.canonical = some name ↔ (l.resolver (exportingTree "util")).KnownAs
        a.record.file a.record.base a.record.basePath (a.record.kind == .js) name := by
  have hcheck : ((ofConfig (exportingTree "util") exportingConfig .unchanged fun _ => false).toOption.any fun l =>
      (l.link (exportingTree "util")).1.toOption.any fun output =>
        decide (output.bundles.map (fun b => b.artifacts.map fun a => a.record.canonical) =
          [[some "main", some "pkg", some "pkg/util"]])) = true := by
    decide +kernel
  obtain ⟨l, hl, hcheck⟩ := exists_of_any hcheck
  obtain ⟨output, hlink, hcheck⟩ := exists_of_any hcheck
  have hnames := of_decide_eq_true hcheck
  obtain ⟨haliases, hknown⟩ := aliases_identify_iff hlink
  have hmanifests : l.manifests = Table.empty := by
    obtain ⟨-, -, -, -, policy, -, rfl⟩ := ofConfig_eq_ok.mp hl
    rfl
  have hcurrent : ∀ file, l.Current (exportingTree "util") file := by
    intro file directory hdirectory m hm
    rw [hmanifests, Table.get?_empty] at hm
    cases hm
  refine ⟨l, output, hl, hlink, ?_, ?_, fun a ha => hknown a ha (hcurrent a.record.file)⟩
  · unfold LinkOutput.artifacts
    rw [List.map_flatMap, List.flatMap_def, hnames]
    rfl
  · intro b hb
    have hlisted : (b.artifacts.map fun a => a.record.canonical) = [some "main", some "pkg", some "pkg/util"] := by
      have hmem := List.mem_map_of_mem (f := fun b => b.artifacts.map fun a => a.record.canonical) hb
      rw [hnames] at hmem
      exact List.mem_singleton.mp hmem
    refine (haliases b hb).mpr ?_
    have hdifferent : (b.artifacts.map fun a => a.record.canonical).Pairwise (· ≠ ·) := by
      rw [hlisted]
      decide
    refine (List.pairwise_map.mp hdifferent).imp fun hne name hname hname' => hne ?_
    exact hname.trans hname'.symm

/-- Modules of a link need not have different names: the index of a package has the name of the package, though another
module is its entry, and is found under this name in place of the entry. -/
theorem exists_same_name : ∃ (l : Linker) (output : LinkOutput),
    ofConfig (exportingTree "index") exportingConfig .unchanged (fun _ => false) = .ok l ∧
      (l.link (exportingTree "index")).1 = .ok output ∧
      ∃ b ∈ output.bundles, ∃ a ∈ b.artifacts, ∃ a' ∈ b.artifacts, a.record.basePath = "pkg/main.js" ∧
        a'.record.basePath = "pkg/index.js" ∧ a.record.canonical = some "pkg" ∧ a'.record.canonical = some "pkg" ∧
        a.record.id ≠ a'.record.id ∧ b.aliases.get? "pkg" = some a'.record.id := by
  have hcheck : ((ofConfig (exportingTree "index") exportingConfig .unchanged fun _ => false).toOption.any fun l =>
      (l.link (exportingTree "index")).1.toOption.any fun output => output.bundles.any fun b => b.artifacts.any fun a =>
        b.artifacts.any fun a' => decide (a.record.basePath = "pkg/main.js" ∧
        a'.record.basePath = "pkg/index.js" ∧ a.record.canonical = some "pkg" ∧ a'.record.canonical = some "pkg" ∧
        a.record.id ≠ a'.record.id ∧ b.aliases.get? "pkg" = some a'.record.id)) = true := by
    decide +kernel
  obtain ⟨l, hl, hcheck⟩ := exists_of_any hcheck
  obtain ⟨output, hlink, hcheck⟩ := exists_of_any hcheck
  obtain ⟨b, hb, hcheck⟩ := List.any_eq_true.mp hcheck
  obtain ⟨a, ha, hcheck⟩ := List.any_eq_true.mp hcheck
  obtain ⟨a', ha', hcheck⟩ := List.any_eq_true.mp hcheck
  exact ⟨l, output, hl, hlink, b, hb, a, ha, a', ha', of_decide_eq_true hcheck⟩

end Linker

end Relink
