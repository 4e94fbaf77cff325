import Mathlib.Data.List.Nodup
import Mathlib.Data.List.Perm.Subperm
import Relink.Proofs.FileTree

/-!
# Direct paths

An absolute path without steps upwards is the only direct path to the place that it leads to, but for segments
that say nothing.

* `Path.IsDirect` — a path that leads from the root downwards.
* `isDirect_normalize` — a path in normal form is direct.
* `FileTree.IsPlace` — a direct path to a file.
* `length_le_of_isPlace` — there are no more direct paths than files.
-/

namespace Relink

namespace Path

/-! ## Segments of combined paths -/

theorem up_mem_components_iff {p : Path} : .up ∈ p.components ↔ ".." ∈ p.segments := by
  rw [components_eq, List.mem_append]
  constructor
  · rintro (hfront | hsteps)
    · -- a path starts with the root or a dot, if with anything
      split at hfront
      · cases List.mem_singleton.mp hfront
      · split at hfront
        · cases List.mem_singleton.mp hfront
        · cases hfront
    · obtain ⟨s, hs, hup⟩ := List.mem_map.mp hsteps
      have heq : s = ".." := by
        unfold componentOf at hup
        split at hup
        next h => simpa using h
        next => cases hup
      exact heq ▸ (List.mem_filter.mp hs).1
  · intro h
    exact Or.inr (List.mem_map.mpr ⟨"..", List.mem_filter.mpr ⟨h, by decide⟩, by decide⟩)

theorem segments_append_slash (a b : String) :
    Path.segments ⟨a ++ "/" ++ b⟩ = Path.segments ⟨a⟩ ++ Path.segments ⟨b⟩ := by
  unfold Path.segments
  simp only [String.toList_append]
  have hslash : "/".toList = ['/'] := by decide
  rw [hslash, List.append_assoc, List.singleton_append, cut_append_slash, List.map_append]

theorem isAbsolute_append {p : Path} (h : p.isAbsolute = true) (text : String) :
    Path.isAbsolute ⟨p.text ++ text⟩ = true := by
  unfold isAbsolute at h ⊢
  simp only [String.toList_append]
  cases htext : p.text.toList with
  | nil => simp [htext] at h
  | cons c cs => simpa [htext] using h

theorem isAbsolute_join {p : Path} (h : p.isAbsolute = true) (q : Path) : (p.join q).isAbsolute = true := by
  unfold join
  split
  next hq => exact hq
  next =>
    split
    · exact isAbsolute_append h _
    · rw [String.append_assoc]
      exact isAbsolute_append h _

/-- A segment of a path that is seen from another one is a segment of one of them. -/
theorem mem_segments_join {p q : Path} {s : String} (h : s ∈ (p.join q).segments) :
    s ∈ p.segments ∨ s ∈ q.segments := by
  cases hq : q.isAbsolute with
  | true =>
    unfold join at h
    rw [if_pos hq] at h
    exact Or.inr h
  | false =>
    obtain ⟨front, hsegments, -, hbegins, -⟩ := exists_segments_join p hq
    rw [hsegments] at h
    rcases List.mem_append.mp h with hfront | hsegment
    · exact Or.inl (hbegins.subset hfront)
    · exact Or.inr hsegment

theorem cut_append_of_not_mem {acc as bs : List Char} (h : '/' ∉ bs) :
    ∃ front last, cut acc as = front ++ [last] ∧ cut acc (as ++ bs) = front ++ [last ++ bs] := by
  induction as generalizing acc with
  | nil => exact ⟨[], acc.reverse, by simp, by rw [List.nil_append, cut_of_not_mem h]; rfl⟩
  | cons a as ih =>
    by_cases ha : a = '/'
    · subst ha
      obtain ⟨front, last, hcut, hcut'⟩ := @ih []
      exact ⟨acc.reverse :: front, last, by simp [hcut], by simp [hcut']⟩
    · obtain ⟨front, last, hcut, hcut'⟩ := @ih (a :: acc)
      exact ⟨front, last, by rw [cut_cons ha, hcut], by rw [List.cons_append, cut_cons ha, hcut']⟩

/-! ## Paths from the root downwards -/

/-- A path that leads from the root downwards. -/
structure IsDirect (p : Path) : Prop where
  isAbsolute : p.isAbsolute = true
  no_up : .up ∉ p.components

theorem IsDirect.withSuffix {p : Path} (h : p.IsDirect) {suffix : String} (hslash : '/' ∉ suffix.toList)
    (hlong : 2 < suffix.length) : (p.withSuffix suffix).IsDirect := by
  refine ⟨isAbsolute_append h.isAbsolute suffix, ?_⟩
  intro hup
  rw [up_mem_components_iff] at hup
  obtain ⟨front, last, hcut, hcut'⟩ := @cut_append_of_not_mem [] p.text.toList suffix.toList hslash
  unfold Path.segments Path.withSuffix at hup
  simp only [String.toList_append, hcut', List.map_append, List.mem_append] at hup
  rcases hup with hup | hup
  · refine h.no_up (up_mem_components_iff.mpr ?_)
    unfold Path.segments
    rw [hcut, List.map_append]
    exact List.mem_append_left _ hup
  · -- the suffix alone is longer than two dots
    have hlength : 2 = (last ++ suffix.toList).length := by
      rw [← String.length_ofList, ← List.mem_singleton.mp hup]
      decide
    rw [List.length_append, String.length_toList] at hlength
    omega

theorem IsDirect.child {p : Path} (h : p.IsDirect) {name : String} (hname : ".." ∉ Path.segments ⟨name⟩) :
    (p.child name).IsDirect := by
  refine ⟨isAbsolute_join h.isAbsolute _, ?_⟩
  intro hup
  rcases mem_segments_join (up_mem_components_iff.mp hup) with hp | hname'
  · exact h.no_up (up_mem_components_iff.mpr hp)
  · exact hname hname'

theorem IsDirect.parent {p q : Path} (h : p.IsDirect) (hq : p.parent = some q) : q.IsDirect := by
  obtain ⟨c, hc, hroot⟩ := components_parent hq
  refine ⟨?_, fun hup => h.no_up (up_mem_of_parent hq hup)⟩
  have hmem := isAbsolute_iff_root_mem.mp h.isAbsolute
  rw [hc, List.mem_append, List.mem_singleton] at hmem
  exact isAbsolute_iff_root_mem.mpr (hmem.resolve_right fun heq => hroot heq.symm)

/-! ## Normal form -/

/-- The steps of an absolute path in normal form are names of the path. -/
theorem mem_foldl_step {back cs : List Component} {c : Component} (h : c ∈ cs.foldl (step true) back) :
    c ∈ back ∨ c ∈ cs ∧ ∃ s, c = .name s := by
  induction cs generalizing back with
  | nil => exact Or.inl h
  | cons d cs ih =>
    rw [List.foldl_cons] at h
    rcases ih h with hstep | ⟨hmem, hname⟩
    · cases d with
      | root => exact Or.inl hstep
      | here => exact Or.inl hstep
      | up =>
        cases back with
        | nil => cases hstep
        | cons b back => exact Or.inl (List.mem_cons_of_mem _ hstep)
      | name s =>
        rcases List.mem_cons.mp hstep with rfl | hback
        · exact Or.inr ⟨List.mem_cons_self, s, rfl⟩
        · exact Or.inl hback
    · exact Or.inr ⟨List.mem_cons_of_mem _ hmem, hname⟩

/-- Names are steps that stay. -/
theorem foldl_step_of_names {absolute : Bool} {back : List Component} (ss : List String) :
    (ss.map Component.name).foldl (step absolute) back = (ss.map Component.name).reverse ++ back := by
  induction ss generalizing back with
  | nil => rfl
  | cons s ss ih =>
    rw [List.map_cons, List.foldl_cons, step, ih, List.reverse_cons, List.append_assoc]
    rfl

/-- The names among the steps of a path are segments. -/
theorem mem_segments_of_name {p : Path} {s : String} (h : .name s ∈ p.components) :
    '/' ∉ s.toList ∧ isIdle s = false ∧ componentOf s = .name s := by
  rw [components_eq, List.mem_append] at h
  rcases h with hfront | hsteps
  · split at hfront
    · cases List.mem_singleton.mp hfront
    · split at hfront
      · cases List.mem_singleton.mp hfront
      · cases hfront
  · obtain ⟨s', hs', hname⟩ := List.mem_map.mp hsteps
    obtain ⟨hmem, hidle⟩ := List.mem_filter.mp hs'
    have heq : s' = s := by
      unfold componentOf at hname
      split at hname
      · cases hname
      · exact Component.name.inj hname
    subst heq
    exact ⟨slash_not_mem_of_mem_segments hmem, by simpa using hidle, hname⟩

/-- The steps of a path that is made of names. -/
theorem components_of_names {ss : List String}
    (h : ∀ s ∈ ss, '/' ∉ s.toList ∧ isIdle s = false ∧ componentOf s = .name s) :
    Path.components ⟨"/" ++ "/".intercalate ss⟩ = .root :: ss.map .name := by
  have habs : Path.isAbsolute ⟨"/" ++ "/".intercalate ss⟩ = true :=
    isAbsolute_append (show Path.isAbsolute ⟨"/"⟩ = true by decide) _
  have hsegments : Path.segments ⟨"/" ++ "/".intercalate ss⟩ = "" :: Path.segments ⟨"/".intercalate ss⟩ := by
    have htext := segments_append_slash "" ("/".intercalate ss)
    rw [String.empty_append] at htext
    exact htext
  have hsteps : Path.steps ⟨"/" ++ "/".intercalate ss⟩ = ss := by
    unfold steps
    rw [hsegments, List.filter_cons_of_neg (by decide)]
    cases ss with
    | nil => decide
    | cons s ss =>
      rw [segments_intercalate (List.cons_ne_nil s ss) fun s hs => (h s hs).1]
      exact List.filter_eq_self.mpr fun s hs => by simp [(h s hs).2.1]
  rw [components_eq, habs, hsteps, if_pos rfl, List.singleton_append]
  congr 1
  exact List.map_congr_left fun s hs => (h s hs).2.2

/-- An absolute path in normal form consists of the steps that are left. -/
theorem components_normalize {p : Path} (h : p.isAbsolute = true) :
    p.normalize.components = .root :: p.normalSteps := by
  have hnames : ∀ c ∈ p.normalSteps, ∃ s, c = .name s ∧ '/' ∉ s.toList ∧ isIdle s = false ∧
      componentOf s = .name s := by
    intro c hc
    unfold normalSteps at hc
    rw [h, List.mem_reverse] at hc
    rcases mem_foldl_step hc with hnil | ⟨hmem, s, rfl⟩
    · cases hnil
    · exact ⟨s, rfl, mem_segments_of_name hmem⟩
  obtain ⟨ss, hss⟩ : ∃ ss : List String, p.normalSteps = ss.map .name := by
    refine ⟨p.normalSteps.map Component.text, ?_⟩
    rw [List.map_map]
    refine (List.map_id _).symm.trans (List.map_congr_left ?_)
    intro c hc
    obtain ⟨s, rfl, -⟩ := hnames c hc
    rfl
  rw [hss] at hnames ⊢
  have htext : Component.text ∘ Component.name = id := rfl
  unfold normalize
  simp only [h, if_true, hss, List.map_map, htext, List.map_id]
  refine components_of_names fun s hs => ?_
  obtain ⟨s', hs', hplain⟩ := hnames (.name s) (List.mem_map_of_mem hs)
  cases hs'
  exact hplain

theorem isDirect_normalize {p : Path} (h : p.isAbsolute = true) : p.normalize.IsDirect := by
  have hcomponents := components_normalize h
  refine ⟨isAbsolute_iff_root_mem.mpr (hcomponents ▸ List.mem_cons_self), ?_⟩
  rw [hcomponents, List.mem_cons, not_or]
  refine ⟨nofun, ?_⟩
  intro hup
  unfold normalSteps at hup
  rw [h, List.mem_reverse] at hup
  rcases mem_foldl_step hup with hnil | ⟨-, s, hs⟩
  · cases hnil
  · cases hs

/-- A direct path has the steps that it has in normal form. -/
theorem IsDirect.components_normalize {p : Path} (h : p.IsDirect) : p.normalize.components = p.components := by
  have hnames : ∃ ss : List String, p.components = .root :: ss.map .name := by
    refine ⟨p.steps, ?_⟩
    rw [components_eq, h.isAbsolute, if_pos rfl, List.singleton_append]
    congr 1
    refine List.map_congr_left fun s hs => ?_
    unfold componentOf
    rw [if_neg]
    intro heq
    exact h.no_up (up_mem_components_iff.mpr (by simpa [beq_iff_eq.mp heq] using (List.mem_filter.mp hs).1))
  obtain ⟨ss, hss⟩ := hnames
  rw [Path.components_normalize h.isAbsolute]
  unfold normalSteps
  rw [h.isAbsolute, hss, List.foldl_cons]
  simp only [step]
  rw [foldl_step_of_names, List.append_nil, List.reverse_reverse]

end Path

/-! ## Files -/

namespace FileTree

open Relink.Path

variable {t : FileTree}

/-- Without steps upwards, a walk goes on by the names of its segments. -/
theorem walk_eq_of_not_mem {l l' : Location} {segments : List String} (h : t.walk l segments = .ok l')
    (hup : ".." ∉ segments) : l' = l ++ segments.filter fun s => !isIdle s := by
  induction segments generalizing l with
  | nil =>
    cases h
    simp
  | cons s segments ih =>
    rw [List.mem_cons, not_or] at hup
    have hs : (s == "..") = false := by simpa using fun heq => hup.1 heq.symm
    rw [walk_cons] at h
    split at h
    · cases h
    · cases h
    · by_cases hidle : isIdle s = true
      · rw [if_pos hidle] at h
        rw [List.filter_cons_of_neg (by simpa using hidle)]
        exact ih h hup.2
      · rw [if_neg hidle, hs, if_neg (by simp)] at h
        split at h
        · cases h
        · rw [List.filter_cons_of_pos (by simpa using hidle), List.append_cons]
          exact ih h hup.2

/-- A direct path to a file. -/
structure IsPlace (t : FileTree) (p : Path) : Prop extends p.IsDirect where
  isFile : t.isFile p = true

/-- A direct path leads to the file at the location of its names. -/
theorem IsPlace.mem_filesBelow {p : Path} (h : t.IsPlace p) : p.steps ∈ (t.filesBelow []).map Prod.fst := by
  have hup : ".." ∉ p.segments := fun hmem => h.no_up (up_mem_components_iff.mpr hmem)
  have hfile := h.isFile
  unfold FileTree.isFile at hfile
  split at hfile
  next bytes hfind =>
    unfold find at hfind
    split at hfind
    · cases hfind
    · cases hwalk : t.walk (t.origin p) p.segments with
      | error fault => simp [hwalk, bind, Except.bind] at hfind
      | ok l =>
        have hl : l = p.steps := by
          have hfrom := walk_eq_of_not_mem hwalk hup
          unfold origin at hfrom
          rwa [h.isAbsolute, if_pos rfl, List.nil_append] at hfrom
        simp only [hwalk, bind, Except.bind] at hfind
        cases hat : t.at? l with
        | none => simp [hat] at hfind
        | some e =>
          simp only [hat, Except.ok.injEq] at hfind
          subst hfind
          -- the root is a directory, so the file stands among the entries
          unfold at? at hat
          split at hat
          · cases hat
          · obtain ⟨⟨k, e⟩, he, hkey, rfl⟩ := Table.exists_of_get?_eq_some hat
            have hk : l = k := Std.LawfulEqOrd.eq_of_compare hkey
            refine List.mem_map.mpr ⟨(k, bytes), ?_, hk.symm.trans hl⟩
            exact List.mem_filterMap.mpr ⟨_, he, by simp⟩
  next => cases hfile

/-- There are no more direct paths to different files than files. -/
theorem length_le_of_isPlace {ps : List Path} (hplace : ∀ p ∈ ps, t.IsPlace p)
    (hdistinct : ps.Pairwise fun p q => p.components ≠ q.components) : ps.length ≤ (t.filesBelow []).length := by
  have hnodup : (ps.map Path.steps).Nodup := by
    rw [List.nodup_iff_pairwise_ne, List.pairwise_map]
    refine hdistinct.imp_of_mem ?_
    intro p q hp hq hne heq
    apply hne
    rw [components_eq, components_eq, (hplace p hp).isAbsolute, (hplace q hq).isAbsolute, heq]
    rfl
  have hsubset : ps.map Path.steps ⊆ (t.filesBelow []).map Prod.fst := by
    intro l hl
    obtain ⟨p, hp, rfl⟩ := List.mem_map.mp hl
    exact (hplace p hp).mem_filesBelow
  have hlength := (hnodup.subperm hsubset).length_le
  rwa [List.length_map, List.length_map] at hlength

end FileTree

end Relink
