import Mathlib.Data.List.Find
import Relink.Proofs.Linking
import Relink.Resolver

/-!
# Resolution and what is remembered

The resolver remembers the manifests that it reads. What it finds does not depend on what it remembers, as
long as that is true, and it only changes with the kinds of what stands at the paths, and with manifests.

* `steady_manifestOf` — a remembered manifest is as good as one that is read.
* `steady_resolve`, `steady_locate` — so is what is found with manifests.
* `resolve_of_rewrites`, `locate_congr` — the trees in which the same is found.
* `locate_cases`, `locate_spelled` — what is found of a file, however it is spelled.
-/

namespace Relink

/-! ## The paths above a path -/

namespace Path

theorem up_mem_of_mem_ancestorsUpTo {n : Nat} {p d : Path} (h : d ∈ ancestorsUpTo n p)
    (hup : .up ∈ d.components) : .up ∈ p.components := by
  induction n generalizing p with
  | zero => simp [ancestorsUpTo] at h
  | succ n ih =>
    unfold ancestorsUpTo at h
    split at h
    next q hq =>
      apply up_mem_of_parent hq
      rcases List.mem_cons.mp h with rfl | h
      · exact hup
      · exact ih h
    next => simp at h

/-- The paths above a path take no step upwards that it does not take. -/
theorem up_mem_of_mem_ancestors {p d : Path} (h : d ∈ p.ancestors) (hup : .up ∈ d.components) :
    .up ∈ p.components :=
  up_mem_of_mem_ancestorsUpTo h hup

theorem forall₂_ancestorsUpTo {n n' : Nat} {p q : Path} (h : p.components = q.components)
    (hn : p.components.length ≤ n) (hn' : p.components.length ≤ n') :
    List.Forall₂ (fun a b => a.components = b.components) (ancestorsUpTo n p) (ancestorsUpTo n' q) := by
  -- a path with another one above it takes a step
  have hsteps : ∀ {p a : Path}, p.parent = some a → a.components.length + 1 = p.components.length := by
    intro p a ha
    rcases components_parent ha with ⟨c, hc, -⟩
    rw [hc, List.length_append, List.length_singleton]
  -- the bounds may differ, since there is room for all paths above in both
  induction n generalizing n' p q with
  | zero =>
    cases n' with
    | zero => exact List.Forall₂.nil
    | succ n' =>
      unfold ancestorsUpTo
      cases hq : q.parent with
      | none => exact List.Forall₂.nil
      | some b =>
        have hlength := hsteps hq
        rw [← h] at hlength
        omega
  | succ n ih =>
    unfold ancestorsUpTo
    have hparent := parent_congr h
    cases hp : p.parent with
    | none =>
      rw [hp] at hparent
      cases hq : q.parent with
      | none =>
        cases n' with
        | zero => exact List.Forall₂.nil
        | succ n' =>
          simp only [hq]
          exact List.Forall₂.nil
      | some b =>
        rw [hq] at hparent
        cases hparent
    | some a =>
      rw [hp] at hparent
      cases hq : q.parent with
      | none =>
        rw [hq] at hparent
        cases hparent
      | some b =>
        rw [hq] at hparent
        cases hparent with
        | some hab =>
          have hlength := hsteps hp
          cases n' with
          | zero => omega
          | succ n' =>
            simp only [hq]
            exact List.Forall₂.cons hab (ih hab (by omega) (by omega))

/-- Above paths with the same steps there are paths with the same steps. -/
theorem forall₂_ancestors {p q : Path} (h : p.components = q.components) :
    List.Forall₂ (fun a b => a.components = b.components) p.ancestors q.ancestors :=
  forall₂_ancestorsUpTo h (length_components_le p) (h ▸ length_components_le q)

end Path

namespace Resolver

open Linking

/-! ## Manifests -/

section Manifests

variable {r : Resolver} {directory : Path}

/-- To read a manifest takes nothing from the session, and only adds to the log. -/
theorem runIn_readManifest (s : Session) :
    ∃ log, (r.readManifest directory).runIn s
      = ((r.readManifest directory).outcome, { s with log := log }) := by
  unfold readManifest outcome
  simp only
  split
  · split
    · exact ⟨s.log, rfl⟩
    · split
      · exact ⟨s.log, rfl⟩
      · exact ⟨_, rfl⟩
  · exact ⟨s.log, rfl⟩

theorem outcome_readManifest (m : Manifest) :
    (r.readManifest directory).outcome = .ok m ↔ r.tree.manifestAt? directory = some m := by
  unfold readManifest FileTree.manifestAt?
  simp only [FileTree.isFile_eq]
  cases hfile : r.tree.fileAt? (directory.child Manifest.fileName) with
  | none => simp
  | some bytes =>
    rw [FileTree.read_of_fileAt? hfile]
    cases htext : String.fromUTF8? bytes with
    | none => simp [htext]
    | some text =>
      cases hm : Manifest.ofText? text with
      | none =>
        simp only [Option.isSome_some, if_true, htext, Option.bind_some, hm]
        exact iff_of_false nofun nofun
      | some m' => simp [htext, hm]

theorem runIn_manifestOf (s : Session) :
    (r.manifestOf directory).runIn s = match s.manifests.get? directory with
      | some m => (.ok m, s)
      | none => (do
          let m ← r.readManifest directory
          Linking.remember directory m
          pure m : Linking Manifest).runIn s := by
  unfold manifestOf
  rw [runIn_bind]
  show Linking.runIn (match s.manifests.get? directory with
    | some m => pure m
    | none => _) s = _
  cases s.manifests.get? directory <;> rfl

theorem outcome_manifestOf : (r.manifestOf directory).outcome = (r.readManifest directory).outcome := by
  unfold outcome
  rw [runIn_manifestOf, Table.get?_empty]
  rcases @runIn_readManifest r directory ⟨Table.empty, []⟩ with ⟨log, hread⟩
  simp only [runIn_bind, hread]
  unfold outcome
  rcases (r.readManifest directory).runIn ⟨Table.empty, []⟩ with ⟨_ | m, s'⟩ <;> rfl

/-- A manifest that is remembered truly is as good as one that is read, and what is read is
remembered truly. -/
theorem steady_manifestOf (trusted : Path → Prop) :
    Steady trusted r.tree (trusted directory) (r.manifestOf directory) := by
  intro s hs
  rw [runIn_manifestOf, outcome_manifestOf]
  cases hget : s.manifests.get? directory with
  | some m =>
    -- what is remembered of a trusted directory is what reading gives
    refine ⟨?_, hs⟩
    intro htrusted
    exact ((outcome_readManifest m).mpr (hs directory m htrusted hget)).symm
  | none =>
    rcases @runIn_readManifest r directory s with ⟨log, hread⟩
    simp only [runIn_bind, hread]
    cases hout : (r.readManifest directory).outcome with
    | error e => exact ⟨fun _ => rfl, hs⟩
    | ok m =>
      refine ⟨fun _ => rfl, ?_⟩
      -- the manifest that has just been read is the only new one
      intro d m' hd hm'
      have hinsert : (s.manifests.insert directory m).get? d = some m' := hm'
      rw [Table.get?_insert] at hinsert
      split at hinsert
      next heq =>
        cases hinsert
        rw [FileTree.manifestAt?_congr _ (Path.compare_eq_eq_iff.mp heq)]
        exact (outcome_readManifest m).mp hout
      next => exact hs d m' hd hinsert

/-- What is done with a manifest is done with the one that the tree has. -/
theorem outcome_bind_manifestOf {α : Type} {m : Manifest} {f : Manifest → Linking α}
    (hm : r.tree.manifestAt? directory = some m) (hf : ∀ m, Steady (fun _ => True) r.tree True (f m)) :
    (r.manifestOf directory >>= f).outcome = (f m).outcome := by
  have hsteady : Steady (fun _ => True) r.tree True (r.manifestOf directory) :=
    (steady_manifestOf _).mono fun _ => trivial
  rw [outcome_bind trivial hsteady fun m _ => hf m, outcome_manifestOf, (outcome_readManifest m).mpr hm]
  rfl

end Manifests

/-! ## What is found -/

section Steady

variable {r : Resolver} {trusted : Path → Prop}

theorem steady_entryFile (directory : Path) :
    Steady trusted r.tree (∀ d, trusted d) (r.entryFile directory) := by
  unfold entryFile
  refine ((steady_manifestOf trusted).mono fun h => h directory).bind ?_
  intro m
  simp only
  split
  · exact Steady.pure _
  · exact Steady.pure _

theorem steady_exportedFile (directory : Path) (name : String) :
    Steady trusted r.tree (∀ d, trusted d) (r.exportedFile directory name) := by
  unfold exportedFile
  refine ((steady_manifestOf trusted).mono fun h => h directory).bind ?_
  intro m
  exact Steady.pure _

theorem steady_fileOrPackage (p : Path) :
    Steady trusted r.tree (∀ d, trusted d) (r.fileOrPackage p) := by
  unfold fileOrPackage
  split
  · exact Steady.pure _
  · split
    · exact steady_entryFile p
    · exact Steady.pure _

theorem steady_oneOf {t : FileTree} {sure : Prop} (specifier : String) (importer : Path)
    (extended package : Option Path) :
    Steady trusted t sure (oneOf specifier importer extended package) := by
  unfold oneOf
  split
  · exact Steady.fail _
  · exact Steady.pure _
  · exact Steady.pure _
  · exact Steady.fail _

theorem steady_resolveRelative (specifier : String) (importer : Path) :
    Steady trusted r.tree (∀ d, trusted d) (r.resolveRelative specifier importer) := by
  unfold resolveRelative
  simp only
  split
  · exact Steady.pure _
  · split
    · exact (steady_entryFile _).bind fun package => steady_oneOf specifier importer _ package
    · exact (Steady.pure none).bind fun package => steady_oneOf specifier importer _ package

theorem steady_firstSome {α : Type} {t : FileTree} {sure : Prop} {xs : List (Linking (Option α))}
    (h : ∀ x ∈ xs, Steady trusted t sure x) : Steady trusted t sure (firstSome xs) := by
  induction xs with
  | nil => exact Steady.pure none
  | cons x xs ih =>
    unfold firstSome
    refine (h x List.mem_cons_self).bind ?_
    intro a
    split
    · exact Steady.pure _
    · exact ih fun x hx => h x (List.mem_cons_of_mem _ hx)

theorem steady_placesBelow (specifier : String) (importer base : Path) :
    ∀ x ∈ r.placesBelow specifier importer base, Steady trusted r.tree (∀ d, trusted d) x := by
  intro x hx
  unfold placesBelow at hx
  -- first below the base itself, then in the directories for packages
  rcases List.mem_append.mp hx with hx | hx
  · rcases List.mem_cons.mp hx with rfl | hx
    · exact steady_fileOrPackage _
    · split at hx
      · simp only at hx
        split at hx
        · rw [List.mem_singleton.mp hx]
          exact steady_exportedFile _ _
        · simp at hx
      · simp at hx
  · rcases List.mem_map.mp hx with ⟨d, -, rfl⟩
    exact steady_fileOrPackage _

theorem steady_resolveBare (specifier : String) (importer : Path) :
    Steady trusted r.tree (∀ d, trusted d) (r.resolveBare specifier importer) := by
  unfold resolveBare
  refine Steady.bind ?_ ?_
  · apply steady_firstSome
    intro x hx
    rcases List.mem_flatMap.mp hx with ⟨base, -, hx⟩
    exact steady_placesBelow specifier importer base x hx
  · intro file
    split
    · exact Steady.pure _
    · exact Steady.fail _

/-- The file that a specifier stands for does not depend on what is remembered. -/
theorem steady_resolve (specifier : String) (importer : Path) :
    Steady trusted r.tree (∀ d, trusted d) (r.resolve specifier importer) := by
  unfold resolve
  split
  · exact steady_resolveRelative specifier importer
  · exact steady_resolveBare specifier importer

theorem mem_ancestors_of_packageOf {base file directory : Path}
    (h : r.packageOf base file = some directory) : directory ∈ file.ancestors :=
  (List.takeWhile_sublist _).subset (List.mem_of_find?_eq_some h)

theorem steady_nameOf (base file : Path) (basePath : String) :
    Steady trusted r.tree (∀ d ∈ file.ancestors, trusted d) (r.nameOf base file basePath) := by
  unfold nameOf
  split
  · exact Steady.pure _
  next directory hdirectory =>
    have hmem := mem_ancestors_of_packageOf hdirectory
    refine ((steady_manifestOf trusted).mono fun h => h directory hmem).bind ?_
    intro m
    exact Steady.pure _

/-- Where a file is relative to the bases only depends on manifests above it. -/
theorem steady_locate (file : Path) (isScript : Bool) :
    Steady trusted r.tree (∀ d ∈ file.ancestors, trusted d) (r.locate file isScript) := by
  unfold locate
  simp only
  split
  · exact Steady.fail _
  · split
    · exact Steady.pure _
    · split
      · exact Steady.fail _
      next base rest _ =>
        split
        · exact (steady_nameOf base file _).bind fun _ => Steady.pure _
        · exact Steady.pure _

end Steady

/-! ## Other trees -/

section Trees

variable (r : Resolver) {t : FileTree}

/-- A manifest is read alike in trees that have the same file for it. -/
theorem manifestOf_congr {directory : Path}
    (h : t.fileAt? (directory.child Manifest.fileName) = r.tree.fileAt? (directory.child Manifest.fileName)) :
    { r with tree := t }.manifestOf directory = r.manifestOf directory := by
  have hread : { r with tree := t }.readManifest directory = r.readManifest directory := by
    unfold readManifest
    simp only [FileTree.isFile_eq, h]
    cases hfile : r.tree.fileAt? (directory.child Manifest.fileName) with
    | none => rfl
    | some bytes => rw [FileTree.read_of_fileAt? hfile, FileTree.read_of_fileAt? (h.trans hfile)]
  unfold manifestOf
  rw [hread]

/-- A file is located alike in trees that have the same manifests above it. -/
theorem locate_congr {file : Path} (isScript : Bool)
    (h : ∀ d ∈ file.ancestors,
      t.fileAt? (d.child Manifest.fileName) = r.tree.fileAt? (d.child Manifest.fileName)) :
    { r with tree := t }.locate file isScript = r.locate file isScript := by
  have hpackage : ∀ base, { r with tree := t }.packageOf base file = r.packageOf base file := by
    intro base
    unfold packageOf
    apply List.find?_congr
    intro d hd
    have hmem : d ∈ file.ancestors := (List.takeWhile_sublist _).subset hd
    simp only [FileTree.isFile_eq, h d hmem]
  have hname : ∀ base basePath, { r with tree := t }.nameOf base file basePath = r.nameOf base file basePath := by
    intro base basePath
    unfold nameOf
    rw [hpackage]
    cases hdirectory : r.packageOf base file with
    | none => rfl
    | some directory =>
      simp only
      rw [manifestOf_congr r (h directory (mem_ancestors_of_packageOf hdirectory))]
  unfold locate
  simp only [hname]

variable (h : FileTree.Rewrites r.tree t)
include h

theorem manifestOf_of_rewrites (directory : Path) :
    { r with tree := t }.manifestOf directory = r.manifestOf directory :=
  manifestOf_congr r (h.fileAt?_child directory)

theorem firstFile_of_rewrites (ps : List Path) : { r with tree := t }.firstFile ps = r.firstFile ps := by
  unfold firstFile
  congr 1
  funext p
  exact h.isFile p

theorem entryFile_of_rewrites (directory : Path) :
    { r with tree := t }.entryFile directory = r.entryFile directory := by
  unfold entryFile
  simp only [manifestOf_of_rewrites r h, firstFile_of_rewrites r h, h.isDirectory]
  rfl

theorem fileOrPackage_of_rewrites (p : Path) :
    { r with tree := t }.fileOrPackage p = r.fileOrPackage p := by
  unfold fileOrPackage
  simp only [firstFile_of_rewrites r h, entryFile_of_rewrites r h, h.isDirectory]

theorem exportedFile_of_rewrites (directory : Path) (name : String) :
    { r with tree := t }.exportedFile directory name = r.exportedFile directory name := by
  unfold exportedFile
  simp only [manifestOf_of_rewrites r h, firstFile_of_rewrites r h]

/-- A specifier stands for the same file when only contents of files have changed. -/
theorem resolve_of_rewrites (specifier : String) (importer : Path) :
    { r with tree := t }.resolve specifier importer = r.resolve specifier importer := by
  unfold resolve resolveRelative resolveBare placesBelow
  simp only [firstFile_of_rewrites r h, entryFile_of_rewrites r h, fileOrPackage_of_rewrites r h,
    exportedFile_of_rewrites r h, h.isFile, h.isDirectory]

end Trees

/-! ## Other spellings -/

section Spellings

open Relink.Path

variable {r : Resolver} {p q : Path}

/-- The same value is found in lists that match one by one, if it is looked for alike. -/
theorem rel_find? {α β : Type} {R : α → β → Prop} {f : α → Bool} {g : β → Bool} {as : List α} {bs : List β}
    (h : List.Forall₂ R as bs) (hfg : ∀ a b, R a b → f a = g b) :
    Option.Rel R (as.find? f) (bs.find? g) := by
  induction h with
  | nil => exact Option.Rel.none
  | @cons a b _ _ hab _ ih =>
    rw [List.find?_cons, List.find?_cons, hfg a b hab]
    cases g b with
    | true => exact Option.Rel.some hab
    | false => exact ih

theorem rel_takeWhile {α β : Type} {R : α → β → Prop} {f : α → Bool} {g : β → Bool} {as : List α}
    {bs : List β} (h : List.Forall₂ R as bs) (hfg : ∀ a b, R a b → f a = g b) :
    List.Forall₂ R (as.takeWhile f) (bs.takeWhile g) := by
  induction h with
  | nil => exact List.Forall₂.nil
  | @cons a b _ _ hab _ ih =>
    rw [List.takeWhile_cons, List.takeWhile_cons, hfg a b hab]
    cases g b with
    | true => exact List.Forall₂.cons hab ih
    | false => exact List.Forall₂.nil

/-- Paths with the same steps lie in the same package. -/
theorem packageOf_congr (h : p.components = q.components) (base : Path) :
    Option.Rel (fun a b => a.components = b.components) (r.packageOf base p) (r.packageOf base q) := by
  unfold packageOf
  refine rel_find? (rel_takeWhile (forall₂_ancestors h) ?_) ?_
  · intro a b hab
    unfold Path.same
    rw [hab, startsWith_congr hab]
  · intro a b hab
    rw [FileTree.isFile_eq, FileTree.isFile_eq,
      FileTree.fileAt?_child_congr r.tree hab FileTree.plain_fileName]

/-- The manifest of a package decides how its scripts are written. -/
theorem modular_of_nameOf {base file : Path} {basePath : String} {e : String × Bool}
    (h : (r.nameOf base file basePath).outcome = .ok e) :
    some e.2 = (r.packageOf base file).elim (some false) fun directory =>
      (r.tree.manifestAt? directory).map Manifest.isModular := by
  unfold nameOf at h
  split at h
  next hnone =>
    rw [hnone, ← Except.ok.inj h]
    rfl
  next directory hdirectory =>
    have hsteady : Steady (fun _ => True) r.tree True (r.manifestOf directory) :=
      (steady_manifestOf _).mono fun _ => trivial
    rw [outcome_bind trivial hsteady fun m _ => Steady.pure _, outcome_manifestOf] at h
    cases hm : (r.readManifest directory).outcome with
    | error err =>
      rw [hm] at h
      cases h
    | ok m =>
      rw [hm] at h
      rw [hdirectory, Option.elim_some, (outcome_readManifest m).mp hm, ← Except.ok.inj h]
      rfl

/-- Scripts of one file are written alike, however the file is spelled. -/
theorem modular_congr (h : p.components = q.components) {base : Path} {s s' : String}
    {e e' : String × Bool} (he : (r.nameOf base p s).outcome = .ok e)
    (he' : (r.nameOf base q s').outcome = .ok e') : e.2 = e'.2 := by
  have hmodular := modular_of_nameOf he
  have hmodular' := modular_of_nameOf he'
  have hpackage := packageOf_congr (r := r) h base
  have heq : some e.2 = some e'.2 := by
    rw [hmodular, hmodular']
    cases hp : r.packageOf base p with
    | none =>
      cases hq : r.packageOf base q with
      | none => rfl
      | some b =>
        rw [hp, hq] at hpackage
        cases hpackage
    | some a =>
      cases hq : r.packageOf base q with
      | none =>
        rw [hp, hq] at hpackage
        cases hpackage
      | some b =>
        rw [hp, hq] at hpackage
        cases hpackage with
        | some hab => rw [Option.elim_some, Option.elim_some, FileTree.manifestAt?_congr _ hab]
  exact Option.some.inj heq

/-- The first base from which a file can be seen is the first one above it. -/
theorem findSome?_stripAncestor? {file base rest : Path} {bases : List Path} :
    (bases.findSome? fun base => (file.stripAncestor? base).map fun rest => (base, rest)) = some (base, rest) ↔
      bases.find? (fun base => file.startsWith base) = some base ∧ file.stripAncestor? base = some rest := by
  induction bases with
  | nil => simp
  | cons b bs ih =>
    rw [List.findSome?_cons, List.find?_cons, ← isSome_stripAncestor?]
    cases hb : file.stripAncestor? b with
    | none => exact ih
    | some rest' =>
      simp only [Option.map_some, Option.isSome_some, Option.some.injEq, Prod.mk.injEq]
      constructor
      · rintro ⟨rfl, rfl⟩
        exact ⟨rfl, hb⟩
      · rintro ⟨rfl, hrest⟩
        rw [hb] at hrest
        exact ⟨rfl, Option.some.inj hrest⟩

/-- What a location says about a file: where it is as seen from its base, which is the first one that is
above it, and for a script outside the first base, how its package says that it is written. -/
theorem locate_cases {file : Path} {isScript : Bool} {l : BaseLocation}
    (h : (r.locate file isScript).outcome = .ok l) :
    (∃ rest, file.stripAncestor? l.base = some rest ∧ l.basePath = Path.slashed rest.text) ∧
    ∃ primary secondary, r.bases = primary :: secondary ∧
      (file.startsWith primary = true ∧ l.base = primary ∧ l.modular = true ∨
      file.startsWith primary = false ∧
        secondary.find? (fun base => file.startsWith base) = some l.base ∧
        (isScript = false ∧ l.modular = false ∨
        isScript = true ∧ ∃ basePath e, (r.nameOf l.base file basePath).outcome = .ok e ∧ l.modular = e.2)) := by
  unfold locate at h
  simp only at h
  split at h
  · cases h
  next primary secondary hbases =>
    have hprimary := isSome_stripAncestor? file primary
    -- the first base comes first, and there a package is not looked for
    split at h
    next rest hrest =>
      cases h
      rw [hrest] at hprimary
      exact ⟨⟨rest, hrest, rfl⟩, primary, secondary, hbases, Or.inl ⟨hprimary.symm, rfl, rfl⟩⟩
    next hnone =>
      rw [hnone] at hprimary
      split at h
      · cases h
      next base rest hfound =>
        rcases findSome?_stripAncestor?.mp hfound with ⟨hfind, hrest⟩
        split at h
        next hscript =>
          have hsteady : Steady (fun _ => True) r.tree True (r.nameOf base file (Path.slashed rest.text)) :=
            (steady_nameOf base file _).mono fun _ _ _ => trivial
          rw [outcome_bind trivial hsteady fun _ _ => Steady.pure _] at h
          cases hname : (r.nameOf base file (Path.slashed rest.text)).outcome with
          | error e =>
            rw [hname] at h
            cases h
          | ok e =>
            rw [hname] at h
            cases h
            exact ⟨⟨rest, hrest, rfl⟩, primary, secondary, hbases,
              Or.inr ⟨hprimary.symm, hfind, Or.inr ⟨hscript, _, e, hname, rfl⟩⟩⟩
        next hscript =>
          cases h
          exact ⟨⟨rest, hrest, rfl⟩, primary, secondary, hbases,
            Or.inr ⟨hprimary.symm, hfind, Or.inl ⟨by simpa using hscript, rfl⟩⟩⟩

/-- A file has the same base and is written alike, however it is spelled. -/
theorem locate_spelled (h : p.components = q.components) {isScript : Bool} {l l' : BaseLocation}
    (hl : (r.locate p isScript).outcome = .ok l) (hl' : (r.locate q isScript).outcome = .ok l') :
    l.base = l'.base ∧ l.modular = l'.modular := by
  have hstarts : p.startsWith = q.startsWith := funext (startsWith_congr h)
  rcases locate_cases hl with ⟨-, primary, secondary, hbases, hcase⟩
  rcases locate_cases hl' with ⟨-, primary', secondary', hbases', hcase'⟩
  rw [hbases] at hbases'
  cases hbases'
  rw [← hstarts] at hcase'
  -- whether a base is above a file is told by its steps, so both are below the same one
  rcases hcase with ⟨hin, hbase, hmodular⟩ | ⟨hout, hfind, hscript⟩
  · rcases hcase' with ⟨-, hbase', hmodular'⟩ | ⟨hout', -⟩
    · exact ⟨hbase.trans hbase'.symm, hmodular.trans hmodular'.symm⟩
    · rw [hin] at hout'
      cases hout'
  · rcases hcase' with ⟨hin', -⟩ | ⟨-, hfind', hscript'⟩
    · rw [hout] at hin'
      cases hin'
    · have hbase : l.base = l'.base := Option.some.inj (hfind.symm.trans hfind')
      refine ⟨hbase, ?_⟩
      rcases hscript with ⟨hno, hmodular⟩ | ⟨hyes, _, e, hname, hmodular⟩
      · rcases hscript' with ⟨-, hmodular'⟩ | ⟨hyes', -⟩
        · exact hmodular.trans hmodular'.symm
        · rw [hno] at hyes'
          cases hyes'
      · rcases hscript' with ⟨hno', -⟩ | ⟨-, _, e', hname', hmodular'⟩
        · rw [hyes] at hno'
          cases hno'
        · rw [hmodular, hmodular']
          rw [← hbase] at hname'
          exact modular_congr h hname hname'

end Spellings

end Resolver

end Relink
