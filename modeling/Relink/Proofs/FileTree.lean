import Relink.FileTree
import Relink.Manifest
import Relink.Proofs.Path
import Relink.Proofs.Table

/-!
# Changes of a tree

What stands at a path follows from its steps, and from the locations on its way.

* `fileAt?_child_congr` — a file below a directory does not depend on how the directory is written.
* `Rewrites` — a change of the contents of files, which leaves the manifests of packages alone.
* `KeepsManifests` — any change that leaves the manifests of packages alone.
* `manifestAt?` — the manifest of a package as a tree has it.
* `isSome_manifestAt?` — when all manifests of a tree are well-formed.
-/

namespace Relink

/-- Whether an entry is a file. -/
def FileEntry.isFile : FileEntry → Bool
  | .directory => false
  | .file _ => true

namespace FileTree

theorem plain_fileName : Path.Plain Manifest.fileName where
  slash_not_mem := by decide
  isIdle := by decide

theorem fileName_ne_up : Manifest.fileName ≠ ".." := by decide

/-- The bytes of the file at a path. -/
def fileAt? (t : FileTree) (p : Path) : Option ByteArray :=
  match t.find p with
  | .ok (.file bytes) => some bytes
  | _ => none

theorem isFile_eq (t : FileTree) (p : Path) : t.isFile p = (t.fileAt? p).isSome := by
  unfold isFile fileAt?
  cases t.find p with
  | error fault => rfl
  | ok e => cases e <;> rfl

theorem isFile_eq_find (t : FileTree) (p : Path) :
    t.isFile p = (((t.find p).map FileEntry.isFile).toOption == some true) := by
  unfold isFile
  cases t.find p with
  | error fault => rfl
  | ok e => cases e <;> rfl

theorem isDirectory_eq_find (t : FileTree) (p : Path) :
    t.isDirectory p = (((t.find p).map FileEntry.isFile).toOption == some false) := by
  unfold isDirectory
  cases t.find p with
  | error fault => rfl
  | ok e => cases e <;> rfl

/-- A file that can be read has its bytes at the path. -/
theorem fileAt?_of_read {t : FileTree} {p : Path} {text : String} (h : t.read p = .ok text) :
    ∃ bytes, t.fileAt? p = some bytes ∧ String.fromUTF8? bytes = some text := by
  unfold read at h
  unfold fileAt?
  cases hfind : t.find p with
  | error fault => simp [hfind] at h
  | ok e =>
    cases e with
    | directory => simp [hfind] at h
    | file bytes =>
      simp only [hfind] at h
      cases htext : String.fromUTF8? bytes with
      | none => simp [htext] at h
      | some text' =>
        simp only [htext, Except.ok.injEq] at h
        exact ⟨bytes, rfl, by rw [htext, h]⟩

theorem read_of_fileAt? {t : FileTree} {p : Path} {bytes : ByteArray} (h : t.fileAt? p = some bytes) :
    t.read p = match String.fromUTF8? bytes with
      | some text => .ok text
      | none => .error .noText := by
  unfold fileAt? at h
  unfold read
  cases hfind : t.find p with
  | error fault => simp [hfind] at h
  | ok e =>
    cases e with
    | directory => simp [hfind] at h
    | file bytes' =>
      simp only [hfind, Option.some.injEq] at h
      exact h ▸ rfl

/-- The file at a path stands at the location to which the path leads. -/
theorem exists_walk_of_fileAt? {t : FileTree} {p : Path} {bytes : ByteArray} (h : t.fileAt? p = some bytes) :
    ∃ l, t.walk (t.origin p) p.segments = .ok l ∧ t.at? l = some (.file bytes) := by
  unfold fileAt? find at h
  split at h
  next b hfind =>
    cases h
    split at hfind
    · cases hfind
    · cases hwalk : t.walk (t.origin p) p.segments with
      | error fault => simp [hwalk, bind, Except.bind] at hfind
      | ok l =>
        simp only [hwalk, bind, Except.bind] at hfind
        cases hat : t.at? l with
        | none => simp [hat] at hfind
        | some e =>
          simp only [hat, Except.ok.injEq] at hfind
          exact ⟨l, rfl, hfind ▸ hat⟩
  next => cases h

/-- The tree with some directories and files with texts. -/
def ofTexts (home : Location) (directories : List Location) (files : List (Location × String)) : FileTree :=
  ⟨Table.ofList (directories.map (fun l => (l, .directory))
    ++ files.map fun f => (f.1, .file f.2.toUTF8)), home⟩

/-! ## Walks -/

@[simp] theorem walk_nil (t : FileTree) (l : Location) : t.walk l [] = .ok l := rfl

theorem walk_cons (t : FileTree) (l : Location) (s : String) (rest : List String) : t.walk l (s :: rest) =
    match t.at? l with
    | none => .error .missing
    | some (.file _) => .error .noDirectory
    | some .directory =>
      if Path.isIdle s then t.walk l rest
      else if s == ".." then t.walk l.dropLast rest
      else match t.at? (l ++ [s]) with
        | none => .error .missing
        | some _ => t.walk (l ++ [s]) rest := rfl

theorem walk_of_at?_eq_none {t : FileTree} {l : Location} (h : t.at? l = none) {segments : List String}
    (hne : segments ≠ []) : t.walk l segments = .error .missing := by
  cases segments with
  | nil => exact absurd rfl hne
  | cons s rest => simp [walk_cons, h]

theorem walk_of_at?_eq_file {t : FileTree} {l : Location} {bytes : ByteArray}
    (h : t.at? l = some (.file bytes)) {segments : List String} (hne : segments ≠ []) :
    t.walk l segments = .error .noDirectory := by
  cases segments with
  | nil => exact absurd rfl hne
  | cons s rest => simp [walk_cons, h]

theorem walk_append (t : FileTree) (l : Location) (front back : List String) :
    t.walk l (front ++ back) = (t.walk l front).bind fun l' => t.walk l' back := by
  induction front generalizing l with
  | nil => rfl
  | cons s rest ih =>
    rw [List.cons_append, walk_cons, walk_cons]
    cases t.at? l with
    | none => rfl
    | some e =>
      cases e with
      | file bytes => rfl
      | directory =>
        simp only
        split
        · exact ih l
        · split
          · exact ih _
          · split
            · rfl
            · exact ih _

/-- What says nothing may be left out in front of a segment that says something. -/
theorem walk_filter (t : FileTree) (l : Location) (front : List String) (name : String) :
    t.walk l (front ++ [name]) = t.walk l ((front.filter fun s => !Path.isIdle s) ++ [name]) := by
  induction front generalizing l with
  | nil => rfl
  | cons s rest ih =>
    -- an idle segment asks for a directory, and so does the next one
    by_cases hs : Path.isIdle s = true
    · rw [List.filter_cons_of_neg (by simp [hs]), ← ih l, List.cons_append, walk_cons]
      cases hat : t.at? l with
      | none => rw [walk_of_at?_eq_none hat (by simp)]
      | some e =>
        cases e with
        | file bytes => rw [walk_of_at?_eq_file hat (by simp)]
        | directory => simp [hs]
    · rw [List.filter_cons_of_pos (by simp [hs]), List.cons_append, List.cons_append, walk_cons, walk_cons]
      cases t.at? l with
      | none => rfl
      | some e =>
        cases e with
        | file bytes => rfl
        | directory => simp only [ih]

/-- A walk that ends with a name ends at a location with that name. -/
theorem getLast?_of_walk {t : FileTree} {l l' : Location} {front : List String} {name : String}
    (hname : Path.isIdle name = false) (hup : name ≠ "..") (h : t.walk l (front ++ [name]) = .ok l') :
    l'.getLast? = some name := by
  rw [walk_append] at h
  cases hfront : t.walk l front with
  | error fault => simp [hfront, Except.bind] at h
  | ok m =>
    rw [hfront] at h
    simp only [Except.bind, walk_cons, walk_nil, hname, Bool.false_eq_true, if_false, beq_iff_eq, hup] at h
    split at h
    · cases h
    · cases h
    · split at h
      · cases h
      · cases h
        simp

theorem walk_idle {t : FileTree} {l l' : Location} {segments : List String}
    (hidle : ∀ s ∈ segments, Path.isIdle s = true) (h : t.walk l segments = .ok l') : l' = l := by
  induction segments with
  | nil =>
    cases h
    rfl
  | cons s rest ih =>
    rw [walk_cons] at h
    split at h
    · cases h
    · cases h
    · rw [if_pos (hidle s List.mem_cons_self)] at h
      exact ih (fun s hs => hidle s (List.mem_cons_of_mem _ hs)) h

/-- A path with a file name leads to a location with that name. -/
theorem getLast?_of_fileName {t : FileTree} {l l' : Location} {p : Path} {name : String}
    (hname : p.fileName = some name) (h : t.walk l p.segments = .ok l') : l'.getLast? = some name := by
  rcases Path.exists_segments_of_fileName hname with ⟨front, back, hsegments, hback, hidle, hup⟩
  -- what stands behind the name leads no further
  rw [hsegments, List.append_cons, walk_append] at h
  cases hfront : t.walk l (front ++ [name]) with
  | error fault =>
    rw [hfront] at h
    cases h
  | ok m =>
    rw [hfront] at h
    rw [walk_idle hback h]
    exact getLast?_of_walk hidle hup hfront

theorem text_child_ne_empty (p : Path) {name : String} (h : Path.Plain name) : (p.child name).text ≠ "" := by
  intro hempty
  have hlist : (p.child name).text.toList = _ := Path.toList_join p h.isAbsolute
  rw [hempty] at hlist
  have hname := h.toList_ne_nil
  -- the text ends with the name, which is not empty
  split at hlist
  · exact hname hlist.symm
  next hne =>
    split at hlist
    · exact hname (List.append_eq_nil_iff.mp hlist.symm).2
    · simp at hlist

/-- What stands below a directory does not depend on how the path of the directory is written. -/
theorem find_child_congr (t : FileTree) {p q : Path} (hpq : p.components = q.components) {name : String}
    (hname : Path.Plain name) : t.find (p.child name) = t.find (q.child name) := by
  rcases Path.exists_segments_child p hname with ⟨front, hp, hpf⟩
  rcases Path.exists_segments_child q hname with ⟨front', hq, hqf⟩
  have horigin : t.origin (p.child name) = t.origin (q.child name) := by
    unfold origin
    rw [Path.isAbsolute_child p hname, Path.isAbsolute_child q hname, Path.isAbsolute_congr hpq]
  have hwalk : t.walk (t.origin (p.child name)) (p.child name).segments
      = t.walk (t.origin (q.child name)) (q.child name).segments := by
    rw [hp, hq, horigin, walk_filter, hpf, walk_filter t _ front', hqf, Path.steps_congr hpq]
  unfold find
  simp only [beq_iff_eq, text_child_ne_empty p hname, text_child_ne_empty q hname, if_false, hwalk]

theorem fileAt?_child_congr (t : FileTree) {p q : Path} (hpq : p.components = q.components) {name : String}
    (hname : Path.Plain name) : t.fileAt? (p.child name) = t.fileAt? (q.child name) := by
  unfold fileAt?
  rw [find_child_congr t hpq hname]

/-! ## Manifests -/

/-- The manifest of the package in a directory, which is empty if there is no file for it. -/
def manifestAt? (t : FileTree) (directory : Path) : Option Manifest :=
  match t.fileAt? (directory.child Manifest.fileName) with
  | none => some .empty
  | some bytes => (String.fromUTF8? bytes).bind Manifest.ofText?

theorem manifestAt?_congr (t : FileTree) {p q : Path} (hpq : p.components = q.components) :
    t.manifestAt? p = t.manifestAt? q := by
  unfold manifestAt?
  rw [fileAt?_child_congr t hpq plain_fileName]

/-- The manifest that a file writes; a directory with the name of one says as little as none. -/
def manifestOf? : FileEntry → Option Manifest
  | .directory => some .empty
  | .file bytes => (String.fromUTF8? bytes).bind Manifest.ofText?

/-- The manifests of a tree are well-formed if what has the name of one is. -/
theorem isSome_manifestAt? {t : FileTree}
    (h : ∀ e ∈ t.entries.entries, e.1.getLast? = some Manifest.fileName → (manifestOf? e.2).isSome) (directory : Path) :
    (t.manifestAt? directory).isSome := by
  unfold manifestAt?
  split
  next => rfl
  next bytes hbytes =>
    obtain ⟨l, hwalk, hat⟩ := exists_walk_of_fileAt? hbytes
    have hname : (directory.child Manifest.fileName).fileName = some Manifest.fileName :=
      Path.fileName_child directory plain_fileName fileName_ne_up
    have hlast := getLast?_of_fileName hname hwalk
    unfold at? at hat
    split at hat
    next => cases hat
    next =>
      obtain ⟨e, he, hkey, hentry⟩ := Table.exists_of_get?_eq_some hat
      have hl : l = e.1 := Std.LawfulEqCmp.eq_of_compare hkey
      have hmanifest := h e he (hl ▸ hlast)
      rw [hentry] at hmanifest
      exact hmanifest

/-- A change that leaves the manifests of packages alone. A path with a step upwards is no path of a
manifest: it leads nowhere when the directory that it leaves is removed. -/
def KeepsManifests (t t' : FileTree) : Prop :=
  ∀ p : Path, .up ∉ p.components → p.fileName = some Manifest.fileName → t'.fileAt? p = t.fileAt? p

theorem KeepsManifests.refl (t : FileTree) : KeepsManifests t t := fun _ _ _ => rfl

theorem KeepsManifests.trans {t t' t'' : FileTree} (h : KeepsManifests t t') (h' : KeepsManifests t' t'') :
    KeepsManifests t t'' := by
  intro p hup hname
  rw [h' p hup hname, h p hup hname]

theorem KeepsManifests.fileAt?_child {t t' : FileTree} (h : KeepsManifests t t') {directory : Path}
    (hup : .up ∉ directory.components) :
    t'.fileAt? (directory.child Manifest.fileName) = t.fileAt? (directory.child Manifest.fileName) := by
  apply h
  · rw [Path.components_child _ plain_fileName]
    intro hmem
    rcases List.mem_append.mp hmem with hmem | hmem
    · exact hup hmem
    · simp [Path.componentOf, fileName_ne_up] at hmem
  · exact Path.fileName_child _ plain_fileName fileName_ne_up

theorem KeepsManifests.manifestAt? {t t' : FileTree} (h : KeepsManifests t t') {directory : Path}
    (hup : .up ∉ directory.components) : t'.manifestAt? directory = t.manifestAt? directory := by
  unfold FileTree.manifestAt?
  rw [h.fileAt?_child hup]

/-! ## Rewritten files -/

/-- A change of the contents of files: no file or directory comes or goes, and the manifests of packages
stay as they are. -/
structure Rewrites (t t' : FileTree) : Prop where
  home : t'.home = t.home
  kind : ∀ l, (t'.at? l).map FileEntry.isFile = (t.at? l).map FileEntry.isFile
  manifest : ∀ l, l.getLast? = some Manifest.fileName → t'.at? l = t.at? l

namespace Rewrites

theorem refl (t : FileTree) : Rewrites t t where
  home := rfl
  kind := fun _ => rfl
  manifest := fun _ _ => rfl

theorem trans {t t' t'' : FileTree} (h : Rewrites t t') (h' : Rewrites t' t'') : Rewrites t t'' where
  home := h'.home.trans h.home
  kind := fun l => (h'.kind l).trans (h.kind l)
  manifest := fun l hl => (h'.manifest l hl).trans (h.manifest l hl)

variable {t t' : FileTree}

theorem absolute (h : Rewrites t t') : t'.absolute = t.absolute := by
  funext p
  unfold FileTree.absolute
  rw [h.home]

theorem walk (h : Rewrites t t') (l : Location) (segments : List String) :
    t'.walk l segments = t.walk l segments := by
  induction segments generalizing l with
  | nil => rfl
  | cons s rest ih =>
    have hl := h.kind l
    have hs := h.kind (l ++ [s])
    rw [FileTree.walk_cons, FileTree.walk_cons]
    -- a step looks at what stands at two locations, and only at its kind
    cases hat : t.at? l with
    | none =>
      rw [hat] at hl
      rw [Option.map_eq_none_iff.mp hl]
    | some e =>
      rw [hat] at hl
      rcases Option.map_eq_some_iff.mp hl with ⟨e', hat', hkind⟩
      rw [hat']
      cases e with
      | file bytes => cases e' <;> first | rfl | cases hkind
      | directory =>
        cases e' with
        | file bytes => cases hkind
        | directory =>
          simp only [ih]
          cases hnext : t.at? (l ++ [s]) with
          | none =>
            rw [hnext] at hs
            rw [Option.map_eq_none_iff.mp hs]
          | some e =>
            rw [hnext] at hs
            rcases Option.map_eq_some_iff.mp hs with ⟨e', hnext', -⟩
            rw [hnext']

theorem origin (h : Rewrites t t') (p : Path) : t'.origin p = t.origin p := by
  unfold FileTree.origin
  rw [h.home]

/-- The same paths lead to files, and the same to directories. -/
theorem find (h : Rewrites t t') (p : Path) :
    (t'.find p).map FileEntry.isFile = (t.find p).map FileEntry.isFile := by
  unfold FileTree.find
  split
  · rfl
  · rw [h.walk, h.origin]
    cases t.walk (t.origin p) p.segments with
    | error fault => rfl
    | ok l =>
      have hl := h.kind l
      simp only [bind, Except.bind]
      cases hat : t.at? l with
      | none =>
        rw [hat] at hl
        rw [Option.map_eq_none_iff.mp hl]
      | some e =>
        rw [hat] at hl
        rcases Option.map_eq_some_iff.mp hl with ⟨e', hat', hkind⟩
        rw [hat']
        simp [Except.map, hkind]

theorem isFile (h : Rewrites t t') (p : Path) : t'.isFile p = t.isFile p := by
  rw [isFile_eq_find, isFile_eq_find, h.find]

theorem isDirectory (h : Rewrites t t') (p : Path) : t'.isDirectory p = t.isDirectory p := by
  rw [isDirectory_eq_find, isDirectory_eq_find, h.find]

/-- The manifest of a package is found as before. -/
theorem find_manifest (h : Rewrites t t') {p : Path} (hname : p.fileName = some Manifest.fileName) :
    t'.find p = t.find p := by
  unfold FileTree.find
  split
  · rfl
  · rw [h.walk, h.origin]
    cases hwalk : t.walk (t.origin p) p.segments with
    | error fault => rfl
    | ok l => simp only [bind, Except.bind, h.manifest l (getLast?_of_fileName hname hwalk)]

theorem keepsManifests (h : Rewrites t t') : KeepsManifests t t' := by
  intro p _ hname
  unfold FileTree.fileAt?
  rw [h.find_manifest hname]

theorem fileAt?_child (h : Rewrites t t') (directory : Path) :
    t'.fileAt? (directory.child Manifest.fileName) = t.fileAt? (directory.child Manifest.fileName) := by
  unfold FileTree.fileAt?
  rw [h.find_manifest (Path.fileName_child directory plain_fileName fileName_ne_up)]

theorem manifestAt? (h : Rewrites t t') (directory : Path) :
    t'.manifestAt? directory = t.manifestAt? directory := by
  unfold FileTree.manifestAt?
  rw [h.fileAt?_child]

end Rewrites

/-- What has been put at a location is found there only. -/
theorem at?_put (t : FileTree) {l : Location} (h : l ≠ []) (e : FileEntry) (m : Location) :
    (t.put l e).at? m = if m = l then some e else t.at? m := by
  unfold at? put
  cases m with
  | nil => simp [h.symm]
  | cons s rest =>
    simp only [List.isEmpty_cons, Bool.false_eq_true, if_false, Table.get?_insert, Std.LawfulEqOrd.compare_eq_iff_eq]

/-- A file that is no manifest can be rewritten. -/
theorem rewrites_put {t : FileTree} {l : Location} (h : (t.at? l).map FileEntry.isFile = some true)
    (hname : l.getLast? ≠ some Manifest.fileName) (new : ByteArray) : Rewrites t (t.put l (.file new)) := by
  have hne : l ≠ [] := by
    rintro rfl
    cases h
  have hput := at?_put t hne (.file new)
  refine ⟨rfl, ?_, ?_⟩
  · -- at the location of the file there is still a file
    intro l'
    rw [hput]
    split
    next heq =>
      rw [heq, h]
      rfl
    next => rfl
  · intro l' hl'
    rw [hput, if_neg]
    rintro rfl
    exact hname hl'

/-! ## Texts -/

/-- The texts of the files of a tree. -/
def texts (t : FileTree) : List String :=
  t.entries.values.filterMap fun
    | .file bytes => String.fromUTF8? bytes
    | .directory => none

theorem mem_values_of_at? {t : FileTree} {l : Location} {bytes : ByteArray}
    (h : t.at? l = some (.file bytes)) : .file bytes ∈ t.entries.values := by
  unfold at? at h
  split at h
  · cases h
  · exact Table.mem_values_of_get?_eq_some h

/-- What can be read in a tree is the text of one of its files. -/
theorem mem_texts_of_read {t : FileTree} {p : Path} {text : String} (h : t.read p = .ok text) :
    text ∈ t.texts := by
  rcases fileAt?_of_read h with ⟨bytes, hfile, htext⟩
  obtain ⟨l, -, hat⟩ := exists_walk_of_fileAt? hfile
  exact List.mem_filterMap.mpr ⟨_, mem_values_of_at? hat, htext⟩

end FileTree

end Relink
