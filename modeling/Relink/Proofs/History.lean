import Relink.Proofs.Origin

/-!
# Histories of a linker

A linker is made, the tree changes, and the linker links, again and again. What it has made of a module is
kept in its cache.

* `History` — a linker and a tree after some changes and links, with the trees and results of the links.
* `latest`, `streak` — the artifacts that a file has had lately.
* `Spares` — the manifests that a kind of change leaves alone.
* `History.setup` — only the cache and the remembered manifests of a linker change.
* `History.fits` — what is remembered stays true as long as the changes do not touch it.
-/

namespace Relink

open Linking

/-- The result of a link, and the tree in which it was. -/
abbrev PastLink := FileTree × Except Failure LinkOutput

/-- The artifacts of the bundles of a link. -/
def LinkOutput.artifacts (output : LinkOutput) : List Artifact := output.bundles.flatMap Bundle.artifacts

/-- The artifact of a file in the bundles of a link. -/
def LinkOutput.artifact? (output : LinkOutput) (file : Path) : Option Artifact :=
  output.artifacts.find? fun a => a.record.file.components = file.components

/-- A linker and a tree after changes of a given kind and links, with the links, the last one first. Which of the
possible failures a link in parallel has met makes no difference to the linker behind it. -/
inductive History (change : FileTree → FileTree → Prop) (l₀ : Linker) (t₀ : FileTree) :
    List PastLink → Linker → FileTree → Prop
  | start : History change l₀ t₀ [] l₀ t₀
  | change {past : List PastLink} {l : Linker} {t t' : FileTree} (h : History change l₀ t₀ past l t)
      (ht : change t t') : History change l₀ t₀ past l t'
  | link {past : List PastLink} {l : Linker} {t : FileTree} (h : History change l₀ t₀ past l t) :
      History change l₀ t₀ ((t, (l.link t).1) :: past) (l.link t).2.1 t

/-- A kind of change leaves alone the manifests in some directories, however these are spelled. -/
structure Spares (change : FileTree → FileTree → Prop) (trusted : Path → Prop) : Prop where
  fileAt? : ∀ {t t' : FileTree} {d : Path}, change t t' → trusted d →
    t'.fileAt? (d.child Manifest.fileName) = t.fileAt? (d.child Manifest.fileName)
  congr : ∀ {p q : Path}, p.components = q.components → trusted p → trusted q

theorem spares_of_keepsManifests : Spares FileTree.KeepsManifests fun d => .up ∉ d.components where
  fileAt? := fun h hd => h.fileAt?_child hd
  congr := fun h hp => h ▸ hp

theorem spares_of_rewrites : Spares FileTree.Rewrites fun _ => True where
  fileAt? := fun h _ => h.fileAt?_child _
  congr := fun _ _ => trivial

/-- If the directories above a file are trusted, they are so for every spelling of the file. -/
theorem Spares.ancestors {change : FileTree → FileTree → Prop} {trusted : Path → Prop}
    (h : Spares change trusted) {p q : Path} (hpq : p.components = q.components)
    (hp : ∀ d ∈ p.ancestors, trusted d) : ∀ d ∈ q.ancestors, trusted d := by
  intro d hd
  rcases exists_of_forall₂ (Path.forall₂_ancestors hpq.symm) hd with ⟨d', hd', heq⟩
  exact h.congr heq.symm (hp d' hd')

/-- The trees of some links. -/
def treesOf (past : List PastLink) : List FileTree := past.map Prod.fst

/-- The artifact of a file in the last link that has succeeded. -/
def latest (file : Path) : List PastLink → Option Artifact
  | [] => none
  | (_, .error _) :: past => latest file past
  | (_, .ok output) :: _ => output.artifact? file

/-- The artifacts of a file in the last links that have succeeded, as far back as they are all of one kind. The
latest one comes first. -/
def streak (file : Path) (kind : Artifact → Bool) : List PastLink → List Artifact
  | [] => []
  | (_, .error _) :: past => streak file kind past
  | (_, .ok output) :: past =>
    match output.artifact? file with
    | none => []
    | some a => if kind a then a :: streak file kind past else []

/-- An artifact of the same text. -/
def Artifact.sameText (a a' : Artifact) : Bool := a'.record.hash == a.record.hash

/-- An artifact of the same text, made under the same ids. -/
def Artifact.sameCode (a a' : Artifact) : Bool :=
  a.sameText a' && a'.record.dependencyMap == a.record.dependencyMap

theorem Artifact.sameText_iff {a a' : Artifact} : a.sameText a' = true ↔ a'.record.hash = a.record.hash := by
  unfold sameText
  exact beq_iff_eq

theorem Artifact.sameCode_iff {a a' : Artifact} : a.sameCode a' = true ↔
    a'.record.hash = a.record.hash ∧ a'.record.dependencyMap = a.record.dependencyMap := by
  unfold sameCode
  rw [Bool.and_eq_true, sameText_iff, beq_iff_eq]

section Streak

variable {t : FileTree} {past : List PastLink} {file : Path} {kind : Artifact → Bool} {output : LinkOutput}
  {a : Artifact}

/-- The artifact of a file is the only one that the file has. -/
theorem LinkOutput.artifact?_eq_some (ha : a ∈ output.artifacts)
    (hunique : ∀ b ∈ output.artifacts, b.record.file.components = a.record.file.components → b = a) :
    output.artifact? a.record.file = some a := by
  unfold artifact?
  cases hfind : output.artifacts.find? fun b => b.record.file.components = a.record.file.components with
  | none =>
    rw [List.find?_eq_none] at hfind
    exact absurd (decide_eq_true rfl) (hfind a ha)
  | some b =>
    have hcomponents := List.find?_some hfind
    rw [hunique b (List.mem_of_find?_eq_some hfind) (by simpa using hcomponents)]

/-- A streak is empty if the latest artifact is not of the kind. -/
theorem streak_eq_nil (h : ∀ a₀, latest file past = some a₀ → kind a₀ = false) : streak file kind past = [] := by
  fun_induction streak file kind past with
  | case1 => rfl
  | case2 t e past ih => exact ih h
  | case3 => rfl
  | case4 t output past a hfind hkind => exact absurd (h a hfind) (by simp [hkind])
  | case5 => rfl

/-- A streak begins where it began before, or with the link. -/
theorem getLast?_streak_cons (hfind : output.artifact? file = some a) (hkind : kind a = true) :
    (streak file kind ((t, .ok output) :: past)).getLast? = some ((streak file kind past).getLast?.getD a) := by
  have hcons : streak file kind ((t, .ok output) :: past) = a :: streak file kind past := by
    rw [streak]
    simp only [hfind, hkind, if_true]
  rw [hcons, List.getLast?_cons]

/-- A streak does not depend on how the file is spelled. -/
theorem streak_congr {file' : Path} (hfile : file.components = file'.components) :
    streak file kind past = streak file' kind past := by
  have hfind : ∀ output : LinkOutput, output.artifact? file = output.artifact? file' := by
    intro output
    unfold LinkOutput.artifact?
    rw [hfile]
  induction past with
  | nil => rfl
  | cons e past ih =>
    rcases e with ⟨t, _ | output⟩
    · exact ih
    · rw [streak, streak, hfind, ih]

/-- A streak begins with a link if the latest artifact before it is not of the kind. -/
theorem getLast?_streak_of_new (hfind : output.artifact? file = some a) (hkind : kind a = true)
    (hnew : ∀ a₀, latest file past = some a₀ → kind a₀ = false) :
    (streak file kind ((t, .ok output) :: past)).getLast? = some a := by
  rw [getLast?_streak_cons hfind hkind, streak_eq_nil hnew]
  rfl

/-- A streak that has begun before a link goes on with it. -/
theorem getLast?_streak_of_old {file' : Path} {first : Artifact} (hfind : output.artifact? file = some a)
    (hkind : kind a = true) (hfile : file'.components = file.components)
    (hfirst : (streak file' kind past).getLast? = some first) :
    (streak file kind ((t, .ok output) :: past)).getLast? = some first := by
  rw [getLast?_streak_cons hfind hkind, ← streak_congr hfile, hfirst]
  rfl

theorem components_of_mem_streak (ha : a ∈ streak file kind past) :
    a.record.file.components = file.components := by
  fun_induction streak file kind past with
  | case1 => cases ha
  | case2 t e past ih => exact ih ha
  | case3 => cases ha
  | case4 t output past b hfind hkind ih =>
    rcases List.mem_cons.mp ha with rfl | ha
    · simpa using List.find?_some hfind
    · exact ih ha
  | case5 => cases ha

end Streak

namespace Linker

variable {l : Linker} {t : FileTree}

/-- A linker with another cache and other remembered manifests. -/
def resume (l : Linker) (cache : Cache) (manifests : Table Path Manifest) : Linker :=
  { l with cache := cache, manifests := manifests }

/-- Only the cache of a linker changes when it is loaded. -/
theorem fst_loadCache (l : Linker) (t : FileTree) : (l.loadCache t).1 = l.resume (l.loadCache t).1.cache l.manifests := by
  unfold loadCache
  split <;> rfl

/-- A link changes the cache and the remembered manifests, and the cache only if it succeeds. -/
theorem link_snd : ∃ cache, (l.link t).2.1 = l.resume cache ((l.run t).runIn l.session).2.manifests ∧
    ((∃ e, (l.link t).1 = .error e ∧ cache = l.cache) ∨
      ∃ output kept, (l.link t).1 = .ok output ∧ cache = l.cache.replace kept) := by
  unfold link
  rcases (l.run t).runIn l.session with ⟨e | ⟨output, kept⟩, s⟩
  · exact ⟨l.cache, rfl, Or.inl ⟨e, rfl, rfl⟩⟩
  · exact ⟨l.cache.replace kept, rfl, Or.inr ⟨output, kept, rfl, rfl⟩⟩

/-- The artifacts of a cache stand under their files, and are those from which it was made. -/
theorem get?_replace {cache : Cache} {kept : List Artifact} {file : Path} {a : Artifact}
    (h : (cache.replace kept).get? file = some a) :
    a ∈ kept ∧ a.record.file.components = file.components := by
  rcases Table.get?_ofList_eq_some h with ⟨e, he, hkey, rfl⟩
  rcases List.mem_map.mp he with ⟨a, ha, rfl⟩
  exact ⟨ha, (Path.compare_eq_eq_iff.mp hkey).symm⟩

/-- An artifact that is the only one of its file is in the cache that is made of it and others. -/
theorem get?_replace_of_mem {cache : Cache} {kept : List Artifact} {file : Path} {a : Artifact} (ha : a ∈ kept)
    (hfile : a.record.file.components = file.components)
    (hunique : ∀ b ∈ kept, b.record.file.components = a.record.file.components → b = a) :
    (cache.replace kept).get? file = some a := by
  refine Table.get?_ofList_of_forall (List.mem_map_of_mem ha) (Path.compare_eq_eq_iff.mpr hfile.symm) ?_
  intro e he hkey
  rcases List.mem_map.mp he with ⟨b, hb, rfl⟩
  exact hunique b hb ((Path.compare_eq_eq_iff.mp hkey).symm.trans hfile.symm)

end Linker

namespace History

variable {change : FileTree → FileTree → Prop} {l₀ l : Linker} {t₀ t : FileTree} {past : List PastLink}

/-- Only the cache and the remembered manifests of a linker change. -/
theorem setup (h : History change l₀ t₀ past l t) : ∃ cache manifests, l = l₀.resume cache manifests := by
  induction h with
  | start => exact ⟨l₀.cache, l₀.manifests, rfl⟩
  | change _ _ ih => exact ih
  | @link past l t _ ih =>
    rcases ih with ⟨cache, manifests, rfl⟩
    obtain ⟨cache', hlink, -⟩ := Linker.link_snd (l := l₀.resume cache manifests) (t := t)
    exact ⟨cache', _, hlink⟩

/-- The trees of the links are related to the tree at present, if every change keeps the relation. -/
theorem related {R : FileTree → FileTree → Prop} (h : History change l₀ t₀ past l t) (hrefl : ∀ t, R t t)
    (hchange : ∀ {t t' t''}, R t t' → change t' t'' → R t t'') : R t₀ t ∧ ∀ t' ∈ treesOf past, R t' t := by
  induction h with
  | start => exact ⟨hrefl t₀, by simp [treesOf]⟩
  | change _ ht ih => exact ⟨hchange ih.1 ht, fun t' ht' => hchange (ih.2 t' ht') ht⟩
  | link _ ih =>
    refine ⟨ih.1, ?_⟩
    intro t' ht'
    rcases List.mem_cons.mp ht' with rfl | ht'
    · exact hrefl _
    · exact ih.2 t' ht'

/-- The manifests in trusted directories are at present what they were in the links. -/
theorem fileAt?_eq {trusted : Path → Prop} (h : History change l₀ t₀ past l t)
    (hspares : Spares change trusted) {t' : FileTree} (ht' : t' ∈ treesOf past) {d : Path} (hd : trusted d) :
    t.fileAt? (d.child Manifest.fileName) = t'.fileAt? (d.child Manifest.fileName) := by
  refine (h.related (R := fun t t' => ∀ d, trusted d →
    t'.fileAt? (d.child Manifest.fileName) = t.fileAt? (d.child Manifest.fileName)) ?_ ?_).2 t' ht' d hd
  · intro _ _ _
    rfl
  · intro _ _ _ hR hchange d hd
    rw [hspares.fileAt? hchange hd, hR d hd]

/-- What is remembered fits the tree at present, if the changes leave the trusted manifests alone. -/
theorem fits {trusted : Path → Prop} (h : History change l₀ t₀ past l t)
    (hstart : l₀.manifests = Table.empty) (hspares : Spares change trusted) :
    Fits trusted t l.manifests := by
  induction h with
  | start =>
    rw [hstart]
    exact fits_empty trusted t₀
  | change _ ht ih =>
    intro d m hd hm
    unfold FileTree.manifestAt?
    rw [hspares.fileAt? ht hd]
    exact ih d m hd hm
  | @link past l t _ ih =>
    obtain ⟨cache, hlink, -⟩ := Linker.link_snd (l := l) (t := t)
    rw [hlink]
    exact (Linker.steady_run l.session ih).2

end History

end Relink
