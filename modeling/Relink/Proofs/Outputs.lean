import Relink.Command.Run
import Relink.Proofs.History
import Relink.Proofs.Linked
import Relink.Proofs.Writing

/-!
# The files of a link

Every bundle is written into a file that has the name of its entry without the ending, and its map into one beside it.

* `Deposits` — some files have been written into a directory: what stands in each of them has been written under its
  name.
* `FilesOf` — what is written for the scripts of some bundles, under which names.
* `ends_writeAll`, `ends_linkAndWrite` — the files that are there when all bundles have been written.
-/

namespace Relink

/-! ## Names of files -/

namespace Path

theorem mem_of_mem_stem {name : String} {c : Char} (h : c ∈ (splitName name).1.toList) : c ∈ name.toList := by
  unfold splitName at h
  simp only at h
  split at h
  · exact h
  · exact h
  next front hdrop =>
    simp only [String.toList_ofList, List.mem_reverse] at h
    have hmem := List.mem_of_mem_drop (hdrop ▸ List.mem_cons_of_mem _ h)
    exact List.mem_reverse.mp hmem

/-- The name of a file without its ending has no slash in it. -/
theorem slash_not_mem_stem {p : Path} {s : String} (h : p.stem = some s) : '/' ∉ s.toList := by
  obtain ⟨name, hname, rfl⟩ := Option.map_eq_some_iff.mp h
  obtain ⟨front, back, hsegments, -⟩ := exists_segments_of_fileName hname
  have hslash : '/' ∉ name.toList := slash_not_mem_of_mem_segments (p := p) (by simp [hsegments])
  exact fun hmem => hslash (mem_of_mem_stem hmem)

theorem stem_congr {p q : Path} (h : p.components = q.components) : p.stem = q.stem := by
  unfold stem
  rw [fileName_congr h]

end Path

namespace Command

/-- What stands behind the name of a bundle in the name of a file. -/
def ending (minified : Bool) : String := if minified then ".min.js" else ".js"

/-- The name of the file with a script. -/
def scriptName (b : Bundle) (minified : Bool) : String := bundleName b ++ ending minified

/-- The scripts that are written for a bundle: plain, and minified. -/
def variants (minify : Bool) : List Bool := if minify then [false, true] else [false]

/-- A name for a file in a directory. -/
structure FileName (name : String) : Prop extends Path.Plain name where
  ne_up : name ≠ ".."

theorem fileName_append {name suffix : String} (hname : '/' ∉ name.toList) (hsuffix : '/' ∉ suffix.toList)
    (hlength : 3 ≤ suffix.toList.length) : FileName (name ++ suffix) := by
  have hlong : 3 ≤ (name ++ suffix).toList.length := by
    rw [String.toList_append, List.length_append]
    omega
  have hne : ∀ short : String, short.toList.length < 3 → name ++ suffix ≠ short := by
    rintro short hshort rfl
    omega
  refine ⟨⟨?_, ?_⟩, hne ".." (by decide)⟩
  · rw [String.toList_append, List.mem_append]
    exact fun h => h.elim hname hsuffix
  · simp [Path.isIdle, hne "" (by decide), hne "." (by decide)]

theorem fileName_scriptName (b : Bundle) (minified : Bool) : FileName (scriptName b minified) := by
  have hname : '/' ∉ (bundleName b).toList := by
    unfold bundleName
    cases hstem : b.entry.file.stem with
    | none => decide
    | some s => exact Path.slash_not_mem_stem hstem
  cases minified with
  | false => exact fileName_append hname (by decide) (by decide)
  | true => exact fileName_append hname (by decide) (by decide)

theorem fileName_map {name : String} (h : FileName name) : FileName (name ++ ".map") :=
  fileName_append h.slash_not_mem (by decide) (by decide)

/-! ## Files below a directory -/

variable {t t' t'' : FileTree} {outdir : Path} {files files' : String → String → Prop}

/-- Files have been written into a directory. What stands in each of them has been written under its name, and nothing
else has been changed. -/
structure Deposits (outdir : Path) (t t' : FileTree) (files : String → String → Prop) : Prop where
  name : ∀ name text, files name text → FileName name
  stands : ∀ name text, files name text → ∃ text' l, files name text' ∧ t'.Stands (outdir.child name) l text'
  kept : t.Extends t' fun l => ∃ name text, files name text ∧ t'.place (outdir.child name) = .ok l

theorem deposits_nothing (outdir : Path) (t : FileTree) : Deposits outdir t t fun _ _ => False where
  name := fun _ _ h => h.elim
  stands := fun _ _ h => h.elim
  kept := .refl t _

/-- What is written later takes the place of files of the same name only. -/
theorem Deposits.trans (h : Deposits outdir t t' files) (h' : Deposits outdir t' t'' files') :
    Deposits outdir t t'' fun name text => files name text ∨ files' name text where
  name := fun name text hfile => hfile.elim (h.name name text) (h'.name name text)
  stands := by
    have hlater : ∀ name text, files' name text →
        ∃ text' l, (files name text' ∨ files' name text') ∧ t''.Stands (outdir.child name) l text' := by
      intro name text hfile
      obtain ⟨text', l, hfile', hstands⟩ := h'.stands name text hfile
      exact ⟨text', l, Or.inr hfile', hstands⟩
    rintro name text (hfile | hfile)
    · by_cases hagain : ∃ text', files' name text'
      · exact hlater name _ hagain.choose_spec
      · obtain ⟨text', l, hfile', hstands⟩ := h.stands name text hfile
        refine ⟨text', l, Or.inl hfile', hstands.extends h'.kept ?_⟩
        -- in the same place there would be a file of the same name
        rintro ⟨other, text'', hother, hplace⟩
        have hname := h.name name text hfile
        have hname' := h'.name other text'' hother
        have hsame := FileTree.place_child_inj hname.toPlain hname'.toPlain hname.ne_up hname'.ne_up
          (h'.kept.place hstands.place) hplace
        exact hagain ⟨text'', hsame ▸ hother⟩
    · exact hlater name text hfile
  kept := by
    refine (h.kept.mono ?_).trans (h'.kept.mono ?_)
    · rintro l ⟨name, text, hfile, hplace⟩
      exact ⟨name, text, Or.inl hfile, h'.kept.place hplace⟩
    · rintro l ⟨name, text, hfile, hplace⟩
      exact ⟨name, text, Or.inr hfile, hplace⟩

theorem Deposits.congr (h : Deposits outdir t t' files) (hfiles : ∀ name text, files name text ↔ files' name text) :
    Deposits outdir t t' files' := by
  have hsame : files = files' := by
    funext name text
    exact propext (hfiles name text)
  exact hsame ▸ h

theorem deposits_write {name text : String} (hname : FileName name) (h : t.write (outdir.child name) text = .ok t') :
    Deposits outdir t t' fun name' text' => name' = name ∧ text' = text := by
  obtain ⟨l, hstands, hextends⟩ := FileTree.stands_of_write h
  refine ⟨?_, ?_, hextends.mono ?_⟩
  · rintro name' text' ⟨rfl, -⟩
    exact hname
  · rintro name' text' ⟨rfl, rfl⟩
    exact ⟨text', l, ⟨rfl, rfl⟩, hstands⟩
  · rintro l' rfl
    exact ⟨name, text, ⟨rfl, rfl⟩, hstands.place⟩

/-- What is written for a script: the script, and its map beside it. -/
def filesOf (name : String) (a : Assembled) : List (String × String) :=
  (name, a.fullSource (name ++ ".map")) :: (a.map.map fun m => (name ++ ".map", m.toJson.canonical.render)).toList

theorem withSuffix_child {name : String} (h : FileName name) (suffix : String) :
    (outdir.child name).withSuffix suffix = outdir.child (name ++ suffix) := by
  have habsolute : Path.isAbsolute ⟨name ++ suffix⟩ = false := by
    have hname := h.toPlain.isAbsolute
    unfold Path.isAbsolute at hname ⊢
    rw [String.toList_append, List.head?_append_of_ne_nil _ h.toPlain.toList_ne_nil]
    exact hname
  unfold Path.withSuffix Path.child Path.join
  rw [h.toPlain.isAbsolute, habsolute]
  simp only [Bool.false_eq_true, if_false]
  split <;> simp [String.append_assoc]

theorem deposits_assembled {name : String} {a : Assembled} (hname : FileName name)
    (h : a.write t (outdir.child name) = .ok t') :
    Deposits outdir t t' fun name' text => (name', text) ∈ filesOf name a := by
  have hmap := fileName_map hname
  have hmapName : (outdir.child (name ++ ".map")).fileName = some (name ++ ".map") :=
    Path.fileName_child outdir hmap.toPlain hmap.ne_up
  unfold Assembled.write at h
  simp only [withSuffix_child hname, hmapName, Option.getD_some] at h
  split at h
  · cases h
  next t₁ hscript =>
    have hdeposits := deposits_write hname hscript
    unfold filesOf
    cases hm : a.map with
    | none =>
      rw [hm] at h
      cases h
      exact hdeposits.congr (by simp)
    | some m =>
      rw [hm] at h
      simp only at h
      split at h
      · cases h
      next hwritten =>
        cases h
        exact (hdeposits.trans (deposits_write hmap hwritten)).congr (by simp)

/-! ## Computations that end well -/

section Ends

variable {α β : Type} {w w' : Workspace}

/-- What a computation gives, and the workspace that it leaves behind. -/
def outcomeOf (x : Working α) (w : Workspace) : Except Failure α × Workspace := StateT.run (ExceptT.run x) w

/-- A computation ends with a value. -/
def Ends (x : Working α) (w : Workspace) (a : α) (w' : Workspace) : Prop := outcomeOf x w = (.ok a, w')

theorem outcomeOf_bind (x : Working α) (f : α → Working β) (w : Workspace) :
    outcomeOf (x >>= f) w = match outcomeOf x w with
      | (.ok a, v) => outcomeOf (f a) v
      | (.error e, v) => (.error e, v) := by
  unfold outcomeOf
  change (StateT.run (ExceptT.run x >>= ExceptT.bindCont f) w : Except Failure β × Workspace) = _
  rw [StateT.run_bind]
  change (match (StateT.run (ExceptT.run x) w : Except Failure α × Workspace) with | (r, v) => _) = _
  rcases (StateT.run (ExceptT.run x) w : Except Failure α × Workspace) with ⟨_ | a, v⟩ <;> rfl

theorem ends_bind {x : Working α} {f : α → Working β} {b : β} :
    Ends (x >>= f) w b w' ↔ ∃ a v, Ends x w a v ∧ Ends (f a) v b w' := by
  unfold Ends
  rw [outcomeOf_bind]
  rcases outcomeOf x w with ⟨_ | a, v⟩ <;> simp

theorem ends_pure {a b : α} : Ends (pure a) w b w' ↔ b = a ∧ w' = w := by
  have hpure : outcomeOf (pure a) w = (.ok a, w) := rfl
  unfold Ends
  simp [hpure, eq_comm]

theorem ends_lift {r : Except Failure α} {a : α} : Ends (lift r) w a w' ↔ r = .ok a ∧ w' = w := by
  have hlift : outcomeOf (lift r) w = (r, w) := by cases r <;> rfl
  unfold Ends
  simp [hlift, eq_comm]

theorem ends_get {v : Workspace} : Ends (get : Working Workspace) w v w' ↔ v = w ∧ w' = w := by
  have hget : outcomeOf (get : Working Workspace) w = (.ok w, w) := rfl
  unfold Ends
  simp [hget, eq_comm]

theorem ends_say {lines : List LogLine} {u : Unit} (h : Ends (say lines) w u w') : w'.tree = w.tree := by
  cases h
  rfl

theorem ends_change {r : Except Failure FileTree} {u : Unit} (h : Ends (change r) w u w') : r = .ok w'.tree := by
  cases r with
  | error e => cases h
  | ok t =>
    cases h
    rfl

end Ends

/-! ## Scripts -/

variable {minify : Bool} {scripts scripts' : List (Bundle × Bool)} {w w' : Workspace}

/-- The scripts that are written for some bundles. -/
def scriptsOf (minify : Bool) (bundles : List Bundle) : List (Bundle × Bool) :=
  bundles.flatMap fun b => (variants minify).map fun m => (b, m)

/-- The path of the file with a script. -/
def scriptPath (outdir : Path) (s : Bundle × Bool) : Path := outdir.child (scriptName s.1 s.2)

/-- What is written for some scripts. -/
def FilesOf (scripts : List (Bundle × Bool)) (name text : String) : Prop :=
  ∃ s ∈ scripts, ∃ a, s.1.assemble s.2 = .ok a ∧ (name, text) ∈ filesOf (scriptName s.1 s.2) a

/-- Scripts have been assembled and written into a directory. -/
structure Writes (outdir : Path) (scripts : List (Bundle × Bool)) (t t' : FileTree) : Prop where
  assembled : ∀ s ∈ scripts, ∃ a, s.1.assemble s.2 = .ok a
  deposits : Deposits outdir t t' (FilesOf scripts)

theorem writes_nil (outdir : Path) (t : FileTree) : Writes outdir [] t t where
  assembled := List.forall_mem_nil _
  deposits := (deposits_nothing outdir t).congr (by simp [FilesOf])

theorem Writes.append (h : Writes outdir scripts t t') (h' : Writes outdir scripts' t' t'') :
    Writes outdir (scripts ++ scripts') t t'' where
  assembled := List.forall_mem_append.mpr ⟨h.assembled, h'.assembled⟩
  deposits := by
    refine (h.deposits.trans h'.deposits).congr fun name text => ?_
    unfold FilesOf
    simp only [List.mem_append, or_and_right, exists_or]

/-- Writes a script of a bundle. -/
def writeScript (outdir : Path) (s : Bundle × Bool) : Working Path := do
  let a ← lift (s.1.assemble s.2)
  change (a.write (← get).tree (scriptPath outdir s))
  return scriptPath outdir s

theorem ends_writeScript {s : Bundle × Bool} {p : Path} (h : Ends (writeScript outdir s) w p w') :
    p = scriptPath outdir s ∧ Writes outdir [s] w.tree w'.tree := by
  unfold writeScript at h
  obtain ⟨a, v, hassemble, h₁⟩ := ends_bind.mp h
  obtain ⟨ha, rfl⟩ := ends_lift.mp hassemble
  obtain ⟨w₁, v₁, hget, h₂⟩ := ends_bind.mp h₁
  obtain ⟨rfl, rfl⟩ := ends_get.mp hget
  obtain ⟨u, v₂, hchange, h₃⟩ := ends_bind.mp h₂
  obtain ⟨rfl, rfl⟩ := ends_pure.mp h₃
  have hdeposits := deposits_assembled (fileName_scriptName s.1 s.2) (ends_change hchange)
  refine ⟨rfl, List.forall_mem_singleton.mpr ⟨a, ha⟩, hdeposits.congr fun name text => ?_⟩
  unfold FilesOf
  simp [ha]

/-- A computation that writes scripts, made for one member of a list after the other. -/
theorem ends_mapM {α β : Type} {f : α → Working β} {g : α → β} {made : α → List (Bundle × Bool)}
    (hstep : ∀ a w b w', Ends (f a) w b w' → b = g a ∧ Writes outdir (made a) w.tree w'.tree) {as : List α}
    {bs : List β} (h : Ends (as.mapM f) w bs w') :
    bs = as.map g ∧ Writes outdir (as.flatMap made) w.tree w'.tree := by
  induction as generalizing w bs with
  | nil =>
    obtain ⟨rfl, rfl⟩ := ends_pure.mp h
    exact ⟨rfl, writes_nil outdir _⟩
  | cons a as ih =>
    rw [List.mapM_cons] at h
    obtain ⟨b, v, hfirst, h₁⟩ := ends_bind.mp h
    obtain ⟨bs', v', hrest, h₂⟩ := ends_bind.mp h₁
    obtain ⟨rfl, rfl⟩ := ends_pure.mp h₂
    obtain ⟨rfl, hwrites⟩ := hstep a w b v hfirst
    obtain ⟨rfl, hwrites'⟩ := ih hrest
    exact ⟨rfl, hwrites.append hwrites'⟩

theorem writeBundle_eq (outdir : Path) (minify : Bool) (b : Bundle) :
    writeBundle outdir minify b = (variants minify).mapM fun m => writeScript outdir (b, m) := by
  have hmapM : ∀ minify, ((variants minify).mapM fun m => writeScript outdir (b, m)) = (do
      let plain ← writeScript outdir (b, false)
      if minify then return [plain, ← writeScript outdir (b, true)] else return [plain]) := by
    intro minify
    cases minify <;> simp [variants]
  rw [hmapM]
  rfl

theorem ends_writeBundle {b : Bundle} {ps : List Path} (h : Ends (writeBundle outdir minify b) w ps w') :
    ps = (scriptsOf minify [b]).map (scriptPath outdir) ∧ Writes outdir (scriptsOf minify [b]) w.tree w'.tree := by
  rw [writeBundle_eq] at h
  obtain ⟨rfl, hwrites⟩ := ends_mapM (fun _ _ _ _ => ends_writeScript) h
  simpa [scriptsOf, ← List.map_eq_flatMap] using hwrites

/-- A loop that collects what is made of the members of a list. -/
theorem forIn_append {α β : Type} (f : α → Working (List β)) (as : List α) (init : List β) :
    (forIn as init fun a bs => do
      let made ← f a
      pure (ForInStep.yield (bs ++ made))) = (do
      let made ← as.mapM f
      pure (init ++ made.flatten)) := by
  induction as generalizing init with
  | nil => simp
  | cons a as ih =>
    simp only [List.forIn_cons, List.mapM_cons, bind_assoc, pure_bind, ih, List.flatten_cons, List.append_assoc]

/-! ## Links -/

/-- The result of a link with the cache in its file. -/
def linkOutput (minifier : Minifier) (config : Config) (t : FileTree) : Except Failure LinkOutput := do
  let l ← Linker.ofConfig t config minifier fun _ => false
  ((l.loadCache t).1.link t).1

variable {minifier : Minifier} {config : Config} {written : List Path}

/-- Writes the bundles of a link, and then the cache. -/
def writeAll (outdir : Path) (minify : Bool) (bundles : List Bundle) (l : Linker) : Working (List Path) := do
  let written ← forIn bundles [] fun b written => do
    let made ← writeBundle outdir minify b
    pure (ForInStep.yield (written ++ made))
  let (t, lines) ← lift (l.storeCache (← get).tree)
  change (.ok t)
  say lines
  return written

theorem ends_writeAll {bundles : List Bundle} {l : Linker} (h : Ends (writeAll outdir minify bundles l) w written w') :
    written = (scriptsOf minify bundles).map (scriptPath outdir) ∧
      ∃ t lines, Writes outdir (scriptsOf minify bundles) w.tree t ∧ l.storeCache t = .ok (w'.tree, lines) := by
  unfold writeAll at h
  rw [forIn_append] at h
  obtain ⟨made, v, hloop, h₁⟩ := ends_bind.mp h
  obtain ⟨pss, v₁, hmade, h₂⟩ := ends_bind.mp hloop
  obtain ⟨rfl, rfl⟩ := ends_pure.mp h₂
  obtain ⟨rfl, hwrites⟩ := ends_mapM (fun _ _ _ _ => ends_writeBundle) hmade
  obtain ⟨v₂, v₃, hget, h₃⟩ := ends_bind.mp h₁
  obtain ⟨rfl, rfl⟩ := ends_get.mp hget
  obtain ⟨⟨t, stored⟩, v₄, hlift, h₄⟩ := ends_bind.mp h₃
  obtain ⟨hstore, rfl⟩ := ends_lift.mp hlift
  obtain ⟨u, v₅, hchange, h₅⟩ := ends_bind.mp h₄
  obtain ⟨u', v₆, hsay, h₆⟩ := ends_bind.mp h₅
  obtain ⟨rfl, rfl⟩ := ends_pure.mp h₆
  have htree : t = w'.tree := (Except.ok.inj (ends_change hchange)).trans (ends_say hsay).symm
  have hscripts : bundles.flatMap (fun b => scriptsOf minify [b]) = scriptsOf minify bundles := by
    simp [scriptsOf]
  refine ⟨?_, v₄.tree, stored, hscripts ▸ hwrites, htree ▸ hstore⟩
  rw [← hscripts, List.map_flatMap, List.flatMap_def, List.nil_append]

/-- The files of a link are written, and then its cache. -/
theorem ends_linkAndWrite (h : Ends (linkAndWrite minifier config outdir) w written w') :
    ∃ output, linkOutput minifier config w.tree = .ok output ∧
      written = (scriptsOf config.minify output.bundles).map (scriptPath outdir) ∧
      ∃ t, Writes outdir (scriptsOf config.minify output.bundles) w.tree t ∧
        ∃ l : Linker, ∃ lines, l.config = config ∧ l.storeCache t = .ok (w'.tree, lines) := by
  unfold linkAndWrite at h
  obtain ⟨w₁, v₁, hget, h₁⟩ := ends_bind.mp h
  obtain ⟨rfl, rfl⟩ := ends_get.mp hget
  obtain ⟨l, v₂, hlinker, h₂⟩ := ends_bind.mp h₁
  obtain ⟨hl, rfl⟩ := ends_lift.mp hlinker
  rcases hload : l.loadCache v₂.tree with ⟨l₁, loaded⟩
  rw [hload] at h₂
  obtain ⟨u₃, v₃, hsay, h₃⟩ := ends_bind.mp h₂
  rcases hlink : l₁.link v₂.tree with ⟨result, l₂, lines⟩
  rw [hlink] at h₃
  obtain ⟨u₄, v₄, hsay', h₄⟩ := ends_bind.mp h₃
  obtain ⟨output, v₅, hresult, h₅⟩ := ends_bind.mp h₄
  obtain ⟨rfl, rfl⟩ := ends_lift.mp hresult
  -- what is said changes no file
  obtain ⟨v₆, htree, h₆⟩ : ∃ v₆ : Workspace, v₆.tree = v₂.tree ∧
      Ends (writeAll outdir config.minify output.bundles l₂) v₆ written w' := by
    have htree := (ends_say hsay').trans (ends_say hsay)
    by_cases hstatus : output.status = true
    · simp only [hstatus] at h₅
      exact ⟨v₅, htree, h₅⟩
    · simp only [hstatus] at h₅
      obtain ⟨u, v₆, hwarn, h₆⟩ := ends_bind.mp h₅
      exact ⟨v₆, (ends_say hwarn).trans htree, h₆⟩
  obtain ⟨rfl, t, stored, hwrites, hstore⟩ := ends_writeAll h₆
  have hconfig : l₂.config = config := by
    obtain ⟨-, -, -, -, policy, -, rfl⟩ := Linker.ofConfig_eq_ok.mp hl
    have hload₁ : _ = l₁ := (Linker.fst_loadCache _ _).symm.trans (congrArg Prod.fst hload)
    obtain ⟨cache, hlink₂, -⟩ := Linker.link_snd (l := l₁) (t := v₂.tree)
    rw [hlink] at hlink₂
    exact (congrArg Linker.config hlink₂).trans (congrArg Linker.config hload₁).symm
  have houtput : linkOutput minifier config v₂.tree = .ok output := by
    unfold linkOutput
    rw [hl]
    simp only [bind, Except.bind, hload, hlink]
  exact ⟨output, houtput, rfl, t, htree ▸ hwrites, l₂, stored, hconfig, hstore⟩

end Command

end Relink
