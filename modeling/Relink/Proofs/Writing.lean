import Relink.Proofs.FileTree

/-!
# Writing files

A text that has been written stands at its path, and nothing is lost by it but what stood in the same place.

* `place` — the location to which a path leads.
* `Extends` — a change that takes no directory and no file away, and writes only to some locations.
* `Stands` — a text stands in the file at a path.
* `stands_of_write`, `Stands.extends` — what has been written stands there until something is written in its place.
* `place_child_inj` — files of different names below one directory are in different places.
-/

namespace Relink.FileTree

variable {t t' t'' : FileTree} {p q : Path} {l m : Location} {text : String} {changed : Location → Prop}

/-! ## Places -/

/-- The location to which a path leads. -/
def place (t : FileTree) (p : Path) : Except FileFault Location :=
  if p.text == "" then .error .missing else t.walk (t.origin p) p.segments

theorem fileAt?_of_place {bytes : ByteArray} (hp : t.place p = .ok l) (h : t.at? l = some (.file bytes)) :
    t.fileAt? p = some bytes := by
  unfold place at hp
  unfold fileAt? find
  split at hp
  · cases hp
  next hne => simp [hne, hp, h, bind, Except.bind]

theorem fromUTF8?_toUTF8 (text : String) : String.fromUTF8? text.toUTF8 = some text := by
  have hvalid : text.toUTF8.IsValidUTF8 := text.isValidUTF8
  unfold String.fromUTF8?
  rw [dif_pos hvalid]
  rfl

/-- A text stands in the file at a path. -/
structure Stands (t : FileTree) (p : Path) (l : Location) (text : String) : Prop where
  place : t.place p = .ok l
  file : t.at? l = some (.file text.toUTF8)

theorem Stands.read (h : t.Stands p l text) : t.read p = .ok text := by
  rw [read_of_fileAt? (fileAt?_of_place h.place h.file), fromUTF8?_toUTF8]

/-- The place of a file below a directory is that of the directory and the name. -/
theorem place_child {name : String} (hname : Path.Plain name) (hup : name ≠ "..") (h : t.place (p.child name) = .ok l) :
    ∃ d, t.walk (t.origin p) p.steps = .ok d ∧ l = d ++ [name] := by
  obtain ⟨front, hsegments, hfront⟩ := Path.exists_segments_child p hname
  have horigin : t.origin (p.child name) = t.origin p := by
    unfold origin
    rw [Path.isAbsolute_child p hname]
  unfold place at h
  rw [if_neg (by simpa using text_child_ne_empty p hname), hsegments, horigin, walk_filter, hfront, walk_append] at h
  cases hwalk : t.walk (t.origin p) p.steps with
  | error fault =>
    rw [hwalk] at h
    cases h
  | ok d =>
    rw [hwalk] at h
    refine ⟨d, rfl, ?_⟩
    simp only [Except.bind, walk_cons, walk_nil, hname.isIdle, Bool.false_eq_true, if_false, beq_iff_eq, hup] at h
    split at h
    · cases h
    · cases h
    · split at h
      · cases h
      · exact (Except.ok.inj h).symm

/-- Below one directory, files of different names are in different places. -/
theorem place_child_inj {a b : String} (ha : Path.Plain a) (hb : Path.Plain b) (haup : a ≠ "..") (hbup : b ≠ "..")
    (hp : t.place (p.child a) = .ok l) (hq : t.place (p.child b) = .ok l) : a = b := by
  obtain ⟨d, hd, rfl⟩ := place_child ha haup hp
  obtain ⟨d', hd', hl⟩ := place_child hb hbup hq
  exact List.singleton_inj.mp (List.append_inj_right' hl rfl)

/-! ## Changes that take nothing away -/

/-- No directory and no file is taken away, and files are only changed at some locations. -/
structure Extends (t t' : FileTree) (changed : Location → Prop) : Prop where
  home : t'.home = t.home
  directory : ∀ l, t.at? l = some .directory → t'.at? l = some .directory
  file : ∀ l bytes, t.at? l = some (.file bytes) → ∃ bytes', t'.at? l = some (.file bytes') ∧ (¬changed l → bytes' = bytes)

namespace Extends

theorem refl (t : FileTree) (changed : Location → Prop) : Extends t t changed where
  home := rfl
  directory := fun _ h => h
  file := fun _ bytes h => ⟨bytes, h, fun _ => rfl⟩

theorem trans (h : Extends t t' changed) (h' : Extends t' t'' changed) : Extends t t'' changed where
  home := h'.home.trans h.home
  directory := fun l hl => h'.directory l (h.directory l hl)
  file := by
    intro l bytes hl
    obtain ⟨bytes', hl', hsame⟩ := h.file l bytes hl
    obtain ⟨bytes'', hl'', hsame'⟩ := h'.file l bytes' hl'
    exact ⟨bytes'', hl'', fun hnot => (hsame' hnot).trans (hsame hnot)⟩

theorem mono {changed' : Location → Prop} (h : Extends t t' changed) (hsub : ∀ l, changed l → changed' l) :
    Extends t t' changed' where
  home := h.home
  directory := h.directory
  file := by
    intro l bytes hl
    obtain ⟨bytes', hl', hsame⟩ := h.file l bytes hl
    exact ⟨bytes', hl', fun hnot => hsame fun hc => hnot (hsub l hc)⟩

theorem origin (h : Extends t t' changed) (p : Path) : t'.origin p = t.origin p := by
  unfold FileTree.origin
  rw [h.home]

theorem exists_at? (h : Extends t t' changed) {e : FileEntry} (hl : t.at? l = some e) : ∃ e', t'.at? l = some e' := by
  cases e with
  | directory => exact ⟨_, h.directory l hl⟩
  | file bytes =>
    obtain ⟨bytes', hl', -⟩ := h.file l bytes hl
    exact ⟨_, hl'⟩

/-- A walk leads to where it has led. -/
theorem walk (h : Extends t t' changed) {segments : List String} (hwalk : t.walk l segments = .ok m) :
    t'.walk l segments = .ok m := by
  induction segments generalizing l with
  | nil => exact hwalk
  | cons s rest ih =>
    rw [FileTree.walk_cons] at hwalk ⊢
    cases hl : t.at? l with
    | none => simp [hl] at hwalk
    | some e =>
      cases e with
      | file bytes => simp [hl] at hwalk
      | directory =>
        simp only [hl, h.directory l hl] at hwalk ⊢
        split at hwalk
        next hidle => exact (if_pos hidle).trans (ih hwalk)
        next hidle =>
          rw [if_neg hidle]
          split at hwalk
          next hup => exact (if_pos hup).trans (ih hwalk)
          next hup =>
            rw [if_neg hup]
            split at hwalk
            · cases hwalk
            next e hnext =>
              obtain ⟨e', hnext'⟩ := h.exists_at? hnext
              rw [hnext']
              exact ih hwalk

theorem place (h : Extends t t' changed) (hp : t.place p = .ok l) : t'.place p = .ok l := by
  unfold FileTree.place at hp ⊢
  split at hp
  · cases hp
  next hne =>
    rw [if_neg hne, h.origin]
    exact h.walk hp

end Extends

/-- A text stands where it stood, unless something is written there. -/
theorem Stands.extends (h : t.Stands p l text) (ht : Extends t t' changed) (hl : ¬changed l) : t'.Stands p l text where
  place := ht.place h.place
  file := by
    obtain ⟨bytes, hbytes, hsame⟩ := ht.file l _ h.file
    rw [hbytes, hsame hl]

/-! ## Writing -/

/-- A new directory takes nothing away. -/
theorem extends_put_directory (h : l ≠ []) (hnew : t.at? l = none) : Extends t (t.put l .directory) changed where
  home := rfl
  directory := by
    intro m hm
    rw [at?_put t h, hm]
    split <;> rfl
  file := by
    intro m bytes hm
    have hne : m ≠ l := by
      rintro rfl
      rw [hnew] at hm
      cases hm
    exact ⟨bytes, by rw [at?_put t h, if_neg hne, hm], fun _ => rfl⟩

/-- A file takes nothing away but what is in its place, if that is no directory. -/
theorem extends_put_file (h : l ≠ []) (hfile : t.at? l ≠ some .directory) (bytes : ByteArray) :
    Extends t (t.put l (.file bytes)) (· = l) where
  home := rfl
  directory := by
    intro m hm
    have hne : m ≠ l := by
      rintro rfl
      exact hfile hm
    rw [at?_put t h, if_neg hne, hm]
  file := by
    intro m bytes' hm
    by_cases hml : m = l
    · exact ⟨bytes, by rw [at?_put t h, if_pos hml], fun hnot => absurd hml hnot⟩
    · exact ⟨bytes', by rw [at?_put t h, if_neg hml, hm], fun _ => rfl⟩

theorem target_eq_ok {segments : List String} {last : String} (h : t.target segments p = .ok (l, last)) :
    ∃ front, segments = front ++ [last] ∧ t.walk (t.origin p) front = .ok l ∧ t.at? l = some .directory := by
  unfold target at h
  split at h
  · cases h
  next last' front hsegments =>
    cases hwalk : t.walk (t.origin p) front.reverse with
    | error fault =>
      rw [hwalk] at h
      cases h
    | ok d =>
      rw [hwalk] at h
      simp only [bind, Except.bind] at h
      split at h
      next hd =>
        cases h
        refine ⟨front.reverse, ?_, hwalk, hd⟩
        rw [← List.reverse_reverse segments, hsegments, List.reverse_cons]
      · cases h
      · cases h

theorem extends_makeDirectory (h : t.makeDirectory p = .ok t') : Extends t t' changed := by
  unfold makeDirectory at h
  split at h
  · cases h
  next segments _ =>
    cases htarget : t.target _ p with
    | error fault =>
      rw [htarget] at h
      cases h
    | ok r =>
      obtain ⟨d, last⟩ := r
      rw [htarget] at h
      simp only [bind, Except.bind] at h
      split at h
      · cases h
      next hfree =>
        cases h
        simp only [Bool.or_eq_true, not_or, Bool.not_eq_true, Option.isSome_eq_false_iff, Option.isNone_iff_eq_none]
          at hfree
        exact extends_put_directory (by simp) hfree.2

/-- A directory is made, or is there already. -/
theorem extends_settle (h : (match t.makeDirectory p with
    | .ok t => .ok t
    | .error fault => if t.isDirectory p then .ok t else .error fault : Except FileFault FileTree) = .ok t') :
    Extends t t' changed := by
  split at h
  next made hmade =>
    cases h
    exact extends_makeDirectory hmade
  next =>
    split at h
    · cases h
      exact Extends.refl t changed
    · cases h

theorem extends_makeDirectoriesUpTo {depth : Nat} (h : makeDirectoriesUpTo depth t p = .ok t') :
    Extends t t' changed := by
  induction depth generalizing t t' p with
  | zero => cases h
  | succ depth ih =>
    rw [makeDirectoriesUpTo] at h
    split at h
    · cases h
      exact Extends.refl t changed
    · simp only at h
      split at h
      · -- the directory above is missing, and is made first
        split at h
        · split at h
          next hparent => exact (ih hparent).trans (extends_settle h)
          · cases h
        · cases h
      · exact extends_settle h

/-- What has been written stands at its path, and nothing else is changed. -/
theorem stands_of_write (h : t.write p text = .ok t') : ∃ l, t'.Stands p l text ∧ Extends t t' (· = l) := by
  unfold write at h
  obtain ⟨made, hmade, hbytes⟩ : ∃ made, (∀ changed, Extends t made changed) ∧
      made.writeBytes p text.toUTF8 = .ok t' := by
    split at h
    next parent _ =>
      split at h
      · exact ⟨t, Extends.refl t, h⟩
      · cases hdirectories : t.makeDirectories parent with
        | error fault =>
          rw [hdirectories] at h
          cases h
        | ok made =>
          rw [hdirectories] at h
          exact ⟨made, fun _ => extends_makeDirectoriesUpTo hdirectories, h⟩
    · exact ⟨t, Extends.refl t, h⟩
  unfold writeBytes at hbytes
  split at hbytes
  · cases hbytes
  · cases hbytes
  next d last htarget =>
    split at hbytes
    · cases hbytes
    next hturn =>
      obtain ⟨front, hsegments, hwalk, hd⟩ := target_eq_ok htarget
      have hput : made.at? (d ++ [last]) ≠ some .directory ∧ made.put (d ++ [last]) (.file text.toUTF8) = t' := by
        split at hbytes
        · cases hbytes
        next hfile => exact ⟨hfile, Except.ok.inj hbytes⟩
      obtain ⟨hfile, rfl⟩ := hput
      have hext := extends_put_file (by simp) hfile text.toUTF8
      have hat : (made.put (d ++ [last]) (.file text.toUTF8)).at? (d ++ [last]) = some (.file text.toUTF8) := by
        rw [at?_put made (by simp), if_pos rfl]
      simp only [isTurn, Bool.or_eq_true, not_or, Bool.not_eq_true] at hturn
      refine ⟨d ++ [last], ⟨?_, hat⟩, (hmade _).trans hext⟩
      have hne : p.text ≠ "" := by
        intro hempty
        have hlast : p.segments = [""] := by
          unfold Path.segments
          rw [hempty]
          rfl
        rw [hlast] at hsegments
        have hlast := congrArg List.getLast? hsegments
        rw [List.getLast?_concat] at hlast
        cases hlast
        simp [Path.isIdle] at hturn
      unfold place
      rw [if_neg (by simpa using hne), hext.origin, hsegments, walk_append, hext.walk hwalk]
      simp only [Except.bind, walk_cons, walk_nil, hext.directory d hd, hturn.1, hturn.2, Bool.false_eq_true, if_false, hat]

end Relink.FileTree
