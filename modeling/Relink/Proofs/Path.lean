import Mathlib.Data.List.Basic
import Relink.Path.Basic

/-!
# Paths that denote one place

Two texts can denote one path: empty segments and single dots say nothing. Everything that is kept under
paths is kept under their steps.

* `compare_eq_eq_iff` — the order of paths takes two paths for one if they have the same steps.
* `components_child`, `components_parent` — the steps of the paths below and above another one.
* `isSome_stripAncestor?` — from which paths a path can be seen.
-/

namespace Relink.Path

/-! ## The order of paths -/

/-- The text by which two names are compared. -/
def Component.label : Component → String
  | .name s => s
  | _ => ""

theorem Component.compare_eq_then (a b : Component) :
    a.compare b = (Ord.compare a.rank b.rank).then (Ord.compare a.label b.label) := by
  cases a <;> cases b <;> rfl

instance : Std.TransCmp Component.compare := by
  have h : Component.compare = compareLex (compareOn Component.rank) (compareOn Component.label) := by
    funext a b
    exact Component.compare_eq_then a b
  rw [h]
  infer_instance

instance : Std.LawfulEqCmp Component.compare where
  eq_of_compare := by
    intro a b h
    have hthen := Component.compare_eq_then a b
    rw [h] at hthen
    rcases Ordering.then_eq_eq.mp hthen.symm with ⟨hrank, hlabel⟩
    have hrank := Std.LawfulEqOrd.eq_of_compare hrank
    have hlabel := Std.LawfulEqOrd.eq_of_compare hlabel
    cases a <;> cases b <;>
      first | rfl | exact congrArg Component.name hlabel | simp [Component.rank] at hrank

theorem compareComponents_eq (as bs : List Component) :
    compareComponents as bs = List.compareLex Component.compare as bs := by
  induction as generalizing bs with
  | nil => cases bs <;> rfl
  | cons a as ih =>
    cases bs with
    | nil => rfl
    | cons b bs =>
      rw [List.compareLex_cons_cons, compareComponents, ih]
      cases a.compare b <;> rfl

theorem compare_eq (p q : Path) :
    Ord.compare p q = List.compareLex Component.compare p.components q.components :=
  compareComponents_eq p.components q.components

instance : Std.TransOrd Path where
  eq_swap := by
    intro p q
    rw [compare_eq, compare_eq]
    exact Std.OrientedCmp.eq_swap
  isLE_trans := by
    intro p q r hpq hqr
    rw [compare_eq] at *
    exact Std.TransCmp.isLE_trans hpq hqr

/-- Paths are the same to their order if they have the same steps. -/
theorem compare_eq_eq_iff {p q : Path} : Ord.compare p q = .eq ↔ p.components = q.components := by
  rw [compare_eq]
  exact Std.LawfulEqCmp.compare_eq_iff_eq

@[simp] theorem same_iff {p q : Path} : p.same q = true ↔ p.components = q.components := by
  unfold same
  exact beq_iff_eq

/-! ## Segments -/

@[simp] theorem cut_nil (acc : List Char) : cut acc [] = [acc.reverse] := rfl

@[simp] theorem cut_slash (acc cs : List Char) : cut acc ('/' :: cs) = acc.reverse :: cut [] cs := rfl

theorem cut_cons {c : Char} (hc : c ≠ '/') (acc cs : List Char) : cut acc (c :: cs) = cut (c :: acc) cs := by
  rw [cut]
  exact hc

/-- A text is cut at each of its slashes. -/
theorem cut_append_slash (acc as bs : List Char) :
    cut acc (as ++ '/' :: bs) = cut acc as ++ cut [] bs := by
  induction as generalizing acc with
  | nil => simp
  | cons a as ih =>
    by_cases ha : a = '/'
    · subst ha
      simp [ih]
    · simp [cut_cons ha, ih]

theorem cut_of_not_mem {acc as : List Char} (h : '/' ∉ as) : cut acc as = [acc.reverse ++ as] := by
  induction as generalizing acc with
  | nil => simp
  | cons a as ih =>
    simp only [List.mem_cons, not_or] at h
    rw [cut_cons (Ne.symm h.1), ih h.2]
    simp

theorem slash_not_mem_of_mem_cut {acc as seg : List Char} (hacc : '/' ∉ acc) (h : seg ∈ cut acc as) :
    '/' ∉ seg := by
  induction as generalizing acc with
  | nil =>
    simp only [cut_nil, List.mem_singleton] at h
    subst h
    simpa using hacc
  | cons a as ih =>
    by_cases ha : a = '/'
    · subst ha
      simp only [cut_slash, List.mem_cons] at h
      rcases h with rfl | h
      · simpa using hacc
      · exact ih (by simp) h
    · rw [cut_cons ha] at h
      exact ih (by simp [Ne.symm ha, hacc]) h

theorem cut_ne_nil (acc as : List Char) : cut acc as ≠ [] := by
  induction as generalizing acc with
  | nil => simp
  | cons a as ih =>
    by_cases ha : a = '/'
    · subst ha
      simp
    · rw [cut_cons ha]
      exact ih _

/-- A text without slashes that is not idle, as the segments of a path are. -/
structure Plain (name : String) : Prop where
  slash_not_mem : '/' ∉ name.toList
  isIdle : isIdle name = false

theorem Plain.segments {name : String} (h : Plain name) : Path.segments ⟨name⟩ = [name] := by
  unfold Path.segments
  rw [cut_of_not_mem h.slash_not_mem]
  simp

theorem Plain.toList_ne_nil {name : String} (h : Plain name) : name.toList ≠ [] := by
  intro hnil
  have hidle := h.isIdle
  have hempty : name = "" := String.toList_eq_nil_iff.mp hnil
  rw [hempty] at hidle
  simp [Path.isIdle] at hidle

theorem Plain.isAbsolute {name : String} (h : Plain name) : Path.isAbsolute ⟨name⟩ = false := by
  unfold Path.isAbsolute
  cases hc : name.toList with
  | nil => rfl
  | cons c cs =>
    have hne : c ≠ '/' := by
      intro hslash
      exact h.slash_not_mem (by rw [hc, hslash]; exact List.mem_cons_self)
    simpa using hne

/-- The segments of a path that say something. -/
def steps (p : Path) : List String := p.segments.filter fun s => !isIdle s

theorem componentOf_injective {s s' : String} (h : componentOf s = componentOf s') : s = s' := by
  unfold componentOf at h
  by_cases hs : s = ".." <;> by_cases hs' : s' = ".." <;> simp_all

theorem root_not_mem_map (ss : List String) : Component.root ∉ ss.map componentOf := by
  intro h
  rcases List.mem_map.mp h with ⟨s, -, hs⟩
  unfold componentOf at hs
  split at hs <;> cases hs

theorem here_not_mem_map (ss : List String) : Component.here ∉ ss.map componentOf := by
  intro h
  rcases List.mem_map.mp h with ⟨s, -, hs⟩
  unfold componentOf at hs
  split at hs <;> cases hs

theorem components_eq (p : Path) :
    p.components = (if p.isAbsolute then [.root] else if p.segments.head? == some "." then [.here] else [])
      ++ p.steps.map componentOf := rfl

/-- The steps of a path decide where it starts. -/
theorem isAbsolute_iff_root_mem {p : Path} : p.isAbsolute = true ↔ .root ∈ p.components := by
  rw [components_eq]
  constructor
  · intro h
    simp [h]
  · intro h
    rcases List.mem_append.mp h with hfront | hsteps
    · -- only the front of the steps can be the root
      by_contra habs
      rw [if_neg habs] at hfront
      split at hfront <;> simp at hfront
    · exact absurd hsteps (root_not_mem_map _)

theorem isAbsolute_congr {p q : Path} (h : p.components = q.components) : p.isAbsolute = q.isAbsolute := by
  rw [Bool.eq_iff_iff, isAbsolute_iff_root_mem, isAbsolute_iff_root_mem, h]

theorem filter_components (p : Path) :
    (p.components.filter fun c => c != .root && c != .here) = p.steps.map componentOf := by
  rw [components_eq, List.filter_append]
  have hfront : ((if p.isAbsolute then [Component.root]
      else if p.segments.head? == some "." then [.here] else []).filter
        fun c => c != .root && c != .here) = [] := by
    split
    · rfl
    · split <;> rfl
  rw [hfront, List.nil_append, List.filter_eq_self]
  intro c hc
  have hroot : c ≠ .root := fun he => root_not_mem_map _ (he ▸ hc)
  have hhere : c ≠ .here := fun he => here_not_mem_map _ (he ▸ hc)
  simp [hroot, hhere]

/-- Paths with the same steps say the same in their segments. -/
theorem steps_congr {p q : Path} (h : p.components = q.components) : p.steps = q.steps := by
  have hmap : p.steps.map componentOf = q.steps.map componentOf := by
    rw [← filter_components, ← filter_components, h]
  exact (List.map_injective_iff.mpr fun _ _ => componentOf_injective) hmap

/-! ## Paths below and above a path -/

theorem toList_join (p : Path) {q : Path} (h : q.isAbsolute = false) :
    (p.join q).text.toList =
      if p.text = "" then q.text.toList
      else if p.text.toList.getLast? = some '/' then p.text.toList ++ q.text.toList
      else p.text.toList ++ '/' :: q.text.toList := by
  unfold join
  rw [h]
  by_cases hempty : p.text = ""
  · simp [hempty]
  · by_cases hslash : p.text.toList.getLast? = some '/'
    · simp [hempty, hslash]
    · simp [hempty, hslash]

/-- The segments of a path as seen from another one, up to what says nothing. -/
theorem exists_segments_join (p : Path) {q : Path} (h : q.isAbsolute = false) :
    ∃ front, (p.join q).segments = front ++ q.segments ∧ (front.filter fun s => !isIdle s) = p.steps ∧
      front <+: p.segments ∧ (front = [] ∧ p.text = "" ∨ front.head? = p.segments.head?) := by
  unfold steps segments
  rw [toList_join p h]
  split
  next hempty =>
    refine ⟨[], rfl, ?_, List.nil_prefix, Or.inl ⟨rfl, hempty⟩⟩
    rw [hempty]
    rfl
  next hne =>
    split
    next hslash =>
      -- the slash at the end opens an empty segment, in whose place the other path comes
      rcases List.getLast?_eq_some_iff.mp hslash with ⟨as, has⟩
      refine ⟨(cut [] as).map String.ofList, ?_, ?_, ?_, Or.inr ?_⟩
      · rw [has, List.append_assoc, List.singleton_append, cut_append_slash, List.map_append]
      · rw [has, cut_append_slash, List.map_append, List.filter_append]
        simp [isIdle]
      · rw [has, cut_append_slash, List.map_append]
        exact List.prefix_append _ _
      · rw [has, cut_append_slash, List.map_append, List.head?_append]
        cases hcut : cut [] as with
        | nil => exact absurd hcut (cut_ne_nil [] as)
        | cons seg rest => rfl
    next =>
      refine ⟨(cut [] p.text.toList).map String.ofList, ?_, rfl, List.prefix_rfl, Or.inr rfl⟩
      rw [cut_append_slash, List.map_append]

theorem isAbsolute_join_of_relative (p : Path) {q : Path} (h : q.isAbsolute = false) :
    (p.join q).isAbsolute = p.isAbsolute := by
  unfold isAbsolute at *
  rw [toList_join p h]
  split
  next hempty =>
    rw [h, hempty]
    rfl
  next hempty =>
    have hne : p.text.toList ≠ [] := fun hnil => hempty (String.toList_eq_nil_iff.mp hnil)
    rcases List.exists_cons_of_ne_nil hne with ⟨c, cs, hcs⟩
    split <;> simp [hcs]

/-- The steps of a path as seen from another one come behind the steps of that one. -/
theorem components_join {p q : Path} (hp : p.text ≠ "") (hq : q.isAbsolute = false) :
    (p.join q).components = p.components ++ q.steps.map componentOf := by
  obtain ⟨front, hsegments, hfront, -, hhead⟩ := exists_segments_join p hq
  have hsteps : (p.join q).steps = p.steps ++ q.steps := by
    unfold steps at *
    rw [hsegments, List.filter_append, hfront]
  have hsame : (p.join q).segments.head? = p.segments.head? := by
    rcases hhead with ⟨-, hempty⟩ | hsame
    · exact absurd hempty hp
    · rw [hsegments, List.head?_append, hsame]
      cases hseg : p.segments with
      | nil => exact absurd (List.map_eq_nil_iff.mp hseg) (cut_ne_nil [] _)
      | cons s rest => rfl
  rw [components_eq, components_eq p, isAbsolute_join_of_relative p hq, hsame, hsteps, List.map_append,
    List.append_assoc]

/-- The segments of a path below another one, up to what says nothing. -/
theorem exists_segments_child (p : Path) {name : String} (h : Plain name) :
    ∃ front, (p.child name).segments = front ++ [name] ∧ (front.filter fun s => !isIdle s) = p.steps := by
  obtain ⟨front, hsegments, hfront, -⟩ := exists_segments_join p h.isAbsolute
  exact ⟨front, hsegments.trans (by rw [h.segments]), hfront⟩

theorem isAbsolute_child (p : Path) {name : String} (h : Plain name) :
    (p.child name).isAbsolute = p.isAbsolute :=
  isAbsolute_join_of_relative p h.isAbsolute

/-- The steps of a path below another one are those of that path and one more. -/
theorem components_child (p : Path) {name : String} (h : Plain name) :
    (p.child name).components = p.components ++ [componentOf name] := by
  have hsteps : Path.steps ⟨name⟩ = [name] := by
    unfold steps
    rw [h.segments]
    simp [h.isIdle]
  by_cases hempty : p.text = ""
  · -- the path is empty, and the name is no dot at the front
    have hp : p = ⟨""⟩ := congrArg Path.mk hempty
    have hchild : p.child name = ⟨name⟩ := by
      rw [hp]
      unfold child join
      simp [h.isAbsolute]
    have hname : name ≠ "." := by
      intro he
      have hidle := h.isIdle
      rw [he] at hidle
      simp [isIdle] at hidle
    rw [hchild, components_eq, h.isAbsolute, h.segments, hsteps, hp]
    simp only [Bool.false_eq_true, if_false, List.head?_cons, beq_iff_eq, Option.some.injEq, hname]
    rfl
  · have hjoin := components_join hempty h.isAbsolute
    rw [hsteps] at hjoin
    exact hjoin

/-- The file name of a path below another one. -/
theorem fileName_child (p : Path) {name : String} (h : Plain name) (hup : name ≠ "..") :
    (p.child name).fileName = some name := by
  unfold fileName
  rw [components_child p h, List.getLast?_append]
  simp [componentOf, hup]

/-! ## The path above a path -/

theorem slash_not_mem_of_mem_segments {p : Path} {s : String} (h : s ∈ p.segments) : '/' ∉ s.toList := by
  rcases List.mem_map.mp h with ⟨seg, hseg, rfl⟩
  rw [String.toList_ofList]
  exact slash_not_mem_of_mem_cut (by simp) hseg

/-- The segments between slashes are those of which the text is made. -/
theorem cut_intercalate {segs : List (List Char)} (hne : segs ≠ []) (hslash : ∀ s ∈ segs, '/' ∉ s) :
    cut [] (List.intercalate ['/'] segs) = segs := by
  induction segs with
  | nil => exact absurd rfl hne
  | cons s rest ih =>
    have hs := hslash s List.mem_cons_self
    cases rest with
    | nil => rw [List.intercalate_singleton, cut_of_not_mem hs, List.reverse_nil, List.nil_append]
    | cons s' rest =>
      rw [List.intercalate_cons_cons, List.append_assoc, List.singleton_append, cut_append_slash,
        cut_of_not_mem hs, ih (by simp) fun x hx => hslash x (List.mem_cons_of_mem _ hx)]
      rfl

theorem segments_intercalate {segs : List String} (hne : segs ≠ []) (hslash : ∀ s ∈ segs, '/' ∉ s.toList) :
    Path.segments ⟨"/".intercalate segs⟩ = segs := by
  have hslash' : ∀ x ∈ segs.map String.toList, '/' ∉ x := by
    intro x hx
    rcases List.mem_map.mp hx with ⟨s, hs, rfl⟩
    exact hslash s hs
  unfold Path.segments
  rw [String.toList_intercalate]
  show (cut [] (List.intercalate ['/'] (segs.map String.toList))).map String.ofList = segs
  rw [cut_intercalate (by simpa using hne) hslash', List.map_map]
  simp [Function.comp_def]

/-- What is left of reversed segments is an end of them, without what says nothing. -/
theorem dropIdleEnd_suffix (segs : List String) : dropIdleEnd segs <:+ segs := by
  induction segs with
  | nil => exact List.suffix_rfl
  | cons s rest ih =>
    cases rest with
    | nil =>
      unfold dropIdleEnd
      split
      · exact List.nil_suffix
      · exact List.suffix_rfl
    | cons s' rest =>
      rw [dropIdleEnd]
      · split
        · exact ih.trans (List.suffix_cons s _)
        · exact List.suffix_rfl
      · simp

theorem filter_dropIdleEnd (segs : List String) :
    ((dropIdleEnd segs).filter fun s => !isIdle s) = segs.filter fun s => !isIdle s := by
  induction segs with
  | nil => rfl
  | cons s rest ih =>
    cases rest with
    | nil =>
      unfold dropIdleEnd
      split
      next h => simp [isIdle, beq_iff_eq.mp h]
      next => rfl
    | cons s' rest =>
      rw [dropIdleEnd]
      · split
        next h =>
          rw [ih]
          simp [h]
        next => rfl
      · simp

/-- What is left ends where something is said, or at the dot at the front. -/
theorem dropIdleEnd_cases (segs : List String) :
    (dropIdleEnd segs = [] ∧ segs.getLast? ≠ some ".") ∨ dropIdleEnd segs = ["."] ∨
      ∃ s rest, dropIdleEnd segs = s :: rest ∧ isIdle s = false := by
  induction segs with
  | nil => exact Or.inl ⟨rfl, by simp⟩
  | cons s rest ih =>
    cases rest with
    | nil =>
      unfold dropIdleEnd
      by_cases hempty : s = ""
      · exact Or.inl ⟨by simp [hempty], by simp [hempty]⟩
      · by_cases hdot : s = "."
        · exact Or.inr (Or.inl (by simp [hdot]))
        · exact Or.inr (Or.inr ⟨s, [], by simp [hempty], by simp [isIdle, hempty, hdot]⟩)
    | cons s' rest =>
      rw [dropIdleEnd]
      · split
        next =>
          rw [List.getLast?_cons_cons]
          exact ih
        next h => exact Or.inr (Or.inr ⟨s, _, rfl, by simpa using h⟩)
      · simp

theorem exists_cut_eq_cons (acc as : List Char) : ∃ seg rest, cut acc as = (acc.reverse ++ seg) :: rest := by
  induction as generalizing acc with
  | nil => exact ⟨[], [], by simp⟩
  | cons a as ih =>
    by_cases ha : a = '/'
    · subst ha
      exact ⟨[], _, by rw [cut_slash, List.append_nil]⟩
    · rcases ih (a :: acc) with ⟨seg, rest, hcut⟩
      refine ⟨a :: seg, rest, ?_⟩
      rw [cut_cons ha, hcut]
      simp

/-- An absolute path starts with an empty segment, and has another one. -/
theorem isAbsolute_iff_segments {p : Path} :
    p.isAbsolute = true ↔ ∃ s rest, p.segments = "" :: s :: rest := by
  unfold isAbsolute segments
  cases htext : p.text.toList with
  | nil => simp
  | cons c cs =>
    by_cases hc : c = '/'
    · subst hc
      rcases exists_cut_eq_cons [] cs with ⟨seg, rest, hcut⟩
      simp only [cut_slash, hcut, List.map_cons]
      simp
    · rcases exists_cut_eq_cons [c] cs with ⟨seg, rest, hcut⟩
      rw [cut_cons hc]
      simp [hcut, hc, String.ofList_eq_empty_iff]

theorem head?_segments_eq_empty {p : Path} (h : p.segments.head? = some "") (habs : p.isAbsolute = false) :
    p.segments = [""] := by
  rcases List.head?_eq_some_iff.mp h with ⟨rest, hrest⟩
  cases rest with
  | nil => exact hrest
  | cons s rest =>
    have hcontra := isAbsolute_iff_segments.mpr ⟨s, rest, hrest⟩
    rw [habs] at hcontra
    cases hcontra

/-- The steps of a path that is made of segments. -/
theorem components_ofSegments {absolute : Bool} {segs : List String} (hslash : ∀ s ∈ segs, '/' ∉ s.toList)
    (habs : absolute = true → segs = [] ∨ segs.head? = some "" ∧ ∃ s ∈ segs, s ≠ "")
    (hrel : absolute = false → segs.head? ≠ some "") :
    (ofSegments absolute segs).components =
      (if absolute then [.root] else if segs.head? == some "." then [.here] else [])
        ++ componentsOf segs := by
  cases absolute with
  | true =>
    rcases habs rfl with rfl | ⟨hhead, s, hs, hne⟩
    · decide
    · have hall : (segs.all (· == "")) = false := by
        rw [List.all_eq_false]
        exact ⟨s, hs, by simpa using hne⟩
      rcases List.head?_eq_some_iff.mp hhead with ⟨rest, rfl⟩
      have hsegments := segments_intercalate (List.cons_ne_nil "" rest) hslash
      unfold ofSegments
      rw [hall, Bool.and_false, if_neg (by simp)]
      cases rest with
      | nil => simp [hne] at hs
      | cons s' rest =>
        unfold components
        rw [hsegments, isAbsolute_iff_segments.mpr ⟨s', rest, hsegments⟩]
  | false =>
    unfold ofSegments
    rw [Bool.false_and, if_neg (by simp)]
    cases segs with
    | nil => decide
    | cons s rest =>
      have hsegments := segments_intercalate (List.cons_ne_nil s rest) hslash
      have hnot : Path.isAbsolute ⟨"/".intercalate (s :: rest)⟩ = false := by
        rw [Bool.eq_false_iff]
        intro h
        rcases isAbsolute_iff_segments.mp h with ⟨s', rest', heq⟩
        rw [hsegments] at heq
        cases heq
        exact hrel rfl rfl
      unfold components
      rw [hsegments, hnot]

theorem componentsOf_eq_steps (p : Path) : componentsOf p.segments = p.steps.map componentOf := rfl

theorem componentsOf_reverse_dropIdleEnd (segs : List String) :
    componentsOf (dropIdleEnd segs).reverse = componentsOf segs.reverse := by
  unfold componentsOf
  rw [List.filter_reverse, List.filter_reverse, filter_dropIdleEnd]

/-- A path has none above it if it takes no steps, but perhaps starts at the root. -/
theorem components_of_parent_eq_none {p : Path} (h : p.parent = none) :
    p.components = if p.isAbsolute then [.root] else [] := by
  unfold parent at h
  split at h
  next hdrop =>
    have hsteps : componentsOf p.segments = [] := by
      have hsame := componentsOf_reverse_dropIdleEnd p.segments.reverse
      rw [hdrop, List.reverse_reverse] at hsame
      exact hsame.symm
    have hhead : p.segments.head? ≠ some "." := by
      rcases dropIdleEnd_cases p.segments.reverse with ⟨-, hlast⟩ | hdot | ⟨s, rest, hcons, -⟩
      · rwa [List.getLast?_reverse] at hlast
      · rw [hdrop] at hdot
        cases hdot
      · rw [hdrop] at hcons
        cases hcons
    unfold components
    rw [hsteps, List.append_nil]
    simp [hhead]
  next => cases h

theorem getLast?_eq_of_suffix {α : Type} {front back : List α} (h : back <:+ front) (hne : back ≠ []) :
    back.getLast? = front.getLast? := by
  rcases h with ⟨rest, rfl⟩
  rw [List.getLast?_append_of_ne_nil _ hne]

/-- The last step that is left says something, or is the dot at the front. -/
theorem first_of_dropIdleEnd {segs rest : List String} {first : String}
    (h : dropIdleEnd segs = first :: rest) : isIdle first = false ∨ first = "." ∧ rest = [] := by
  rcases dropIdleEnd_cases segs with ⟨hnil, -⟩ | hdot | ⟨s, rest', hcons, hs⟩
  · rw [h] at hnil
    cases hnil
  · rw [h] at hdot
    cases hdot
    exact Or.inr ⟨rfl, rfl⟩
  · rw [h] at hcons
    cases hcons
    exact Or.inl hs

/-- Without the last step, a path starts as before, unless nothing is left. -/
theorem getLast?_of_dropIdleEnd {segs rest : List String} {first : String}
    (h : dropIdleEnd segs = first :: rest) (hne : dropIdleEnd rest ≠ []) :
    (dropIdleEnd rest).getLast? = segs.getLast? := by
  have hfirst : first :: rest <:+ segs := h ▸ dropIdleEnd_suffix segs
  have hrest : dropIdleEnd rest <:+ segs :=
    ((dropIdleEnd_suffix rest).trans (List.suffix_cons first rest)).trans hfirst
  exact getLast?_eq_of_suffix hrest hne

theorem dot_of_dropIdleEnd {segs rest : List String} {first : String}
    (h : dropIdleEnd segs = first :: rest) (hfirst : isIdle first = false) :
    ((dropIdleEnd rest).getLast? == some ".") = (segs.getLast? == some ".") := by
  by_cases hnil : dropIdleEnd rest = []
  · have hsuffix : first :: rest <:+ segs := h ▸ dropIdleEnd_suffix segs
    rw [← getLast?_eq_of_suffix hsuffix (by simp), hnil]
    cases rest with
    | nil =>
      have hdot : first ≠ "." := by
        rintro rfl
        cases hfirst
      simp [hdot]
    | cons s rest =>
      rcases dropIdleEnd_cases (s :: rest) with ⟨-, hlast⟩ | hdot | ⟨s', rest', hcons, -⟩
      · rw [List.getLast?_cons_cons]
        simpa using hlast
      · rw [hnil] at hdot
        cases hdot
      · rw [hnil] at hcons
        cases hcons
  · rw [getLast?_of_dropIdleEnd h hnil]

/-- What is left of an absolute path without its last step starts at the root, if anything is left. -/
theorem rest_of_isAbsolute {p : Path} {first : String} {rest : List String}
    (h : dropIdleEnd p.segments.reverse = first :: rest) (habs : p.isAbsolute = true) :
    (dropIdleEnd rest).reverse = [] ∨
      (dropIdleEnd rest).reverse.head? = some "" ∧ ∃ s ∈ (dropIdleEnd rest).reverse, s ≠ "" := by
  rcases isAbsolute_iff_segments.mp habs with ⟨s, back, hsegments⟩
  have hstart : dropIdleEnd rest ≠ [] → (dropIdleEnd rest).getLast? = some "" := by
    intro hne
    rw [getLast?_of_dropIdleEnd h hne, List.getLast?_reverse, hsegments]
    rfl
  rcases dropIdleEnd_cases rest with ⟨hnil, -⟩ | hdot | ⟨s', rest', hcons, hs'⟩
  · exact Or.inl (by rw [hnil]; rfl)
  · -- a dot at the front would be the first segment, which is empty
    have hempty := hstart (by simp [hdot])
    rw [hdot] at hempty
    simp at hempty
  · refine Or.inr ⟨?_, s', ?_, ?_⟩
    · rw [List.head?_reverse]
      exact hstart (by simp [hcons])
    · rw [List.mem_reverse, hcons]
      exact List.mem_cons_self
    · rintro rfl
      cases hs'

/-- What is left of a relative path without its last step does not start at the root. -/
theorem rest_of_not_isAbsolute {p : Path} {first : String} {rest : List String}
    (h : dropIdleEnd p.segments.reverse = first :: rest) (habs : p.isAbsolute = false) :
    (dropIdleEnd rest).reverse.head? ≠ some "" := by
  intro hempty
  have hne : dropIdleEnd rest ≠ [] := by
    intro hnil
    rw [hnil] at hempty
    cases hempty
  rw [List.head?_reverse, getLast?_of_dropIdleEnd h hne, List.getLast?_reverse] at hempty
  -- so the path is empty, and nothing is left of it
  rw [head?_segments_eq_empty hempty habs] at h
  cases h

/-- The path above a path takes the same steps but the last. -/
theorem components_parent {p q : Path} (h : p.parent = some q) :
    ∃ c, p.components = q.components ++ [c] ∧ c ≠ .root := by
  unfold parent at h
  split at h
  next => cases h
  next first rest hdrop =>
    cases h
    have hsuffix : first :: rest <:+ p.segments.reverse := hdrop ▸ dropIdleEnd_suffix _
    have hlast : p.segments.reverse.getLast? = p.segments.head? := List.getLast?_reverse
    have hsteps : componentsOf p.segments = componentsOf rest.reverse ++ componentsOf [first] := by
      have hsame := componentsOf_reverse_dropIdleEnd p.segments.reverse
      rw [hdrop, List.reverse_reverse, List.reverse_cons] at hsame
      rw [← hsame]
      unfold componentsOf
      rw [List.filter_append, List.map_append]
    rcases first_of_dropIdleEnd hdrop with hfirst | ⟨rfl, rfl⟩
    · -- the last step says something, so the path above starts as the path does
      have hslash : ∀ s ∈ (dropIdleEnd rest).reverse, '/' ∉ s.toList := by
        intro s hs
        have hrest := (dropIdleEnd_suffix rest).subset (List.mem_reverse.mp hs)
        have hmem := hsuffix.subset (List.mem_cons_of_mem _ hrest)
        exact slash_not_mem_of_mem_segments (List.mem_reverse.mp hmem)
      refine ⟨componentOf first, ?_, ?_⟩
      · rw [components_ofSegments hslash (rest_of_isAbsolute hdrop) (rest_of_not_isAbsolute hdrop),
          componentsOf_reverse_dropIdleEnd, List.head?_reverse, dot_of_dropIdleEnd hdrop hfirst, hlast]
        unfold components
        rw [hsteps, List.append_assoc]
        simp [componentsOf, hfirst]
      · unfold componentOf
        split <;> simp
    · -- the dot at the front is the only step
      have hhead : p.segments.head? = some "." := by
        rw [← hlast, ← getLast?_eq_of_suffix hsuffix (by simp)]
        rfl
      have habs : p.isAbsolute = false := by
        rw [Bool.eq_false_iff]
        intro habs
        rcases isAbsolute_iff_segments.mp habs with ⟨s, back, hsegments⟩
        rw [hsegments] at hhead
        simp at hhead
      refine ⟨.here, ?_, by simp⟩
      unfold components
      rw [hsteps, hhead, habs]
      decide

/-- Paths with the same steps have paths with the same steps above them. -/
theorem parent_congr {p q : Path} (h : p.components = q.components) :
    Option.Rel (fun a b => a.components = b.components) p.parent q.parent := by
  have hnone : ∀ {p q : Path} {a : Path}, p.components = q.components → p.parent = some a → q.parent ≠ none := by
    intro p q a h ha hq
    rcases components_parent ha with ⟨c, hc, hroot⟩
    rw [h, components_of_parent_eq_none hq] at hc
    split at hc
    · -- the last step would be the root
      have hlast := congrArg List.getLast? hc
      rw [List.getLast?_concat] at hlast
      exact hroot (Option.some.inj hlast).symm
    · -- there would be no step at all
      have hlength := congrArg List.length hc
      simp at hlength
  cases hp : p.parent with
  | none =>
    cases hq : q.parent with
    | none => exact Option.Rel.none
    | some b => exact absurd hp (hnone h.symm hq)
  | some a =>
    cases hq : q.parent with
    | none => exact absurd hq (hnone h hp)
    | some b =>
      rcases components_parent hp with ⟨c, hc, -⟩
      rcases components_parent hq with ⟨c', hc', -⟩
      rw [hc, hc'] at h
      exact Option.Rel.some (List.append_inj_left' h rfl)

/-- The path above a path takes no step upwards that the path does not take. -/
theorem up_mem_of_parent {p q : Path} (h : p.parent = some q) (hup : .up ∈ q.components) :
    .up ∈ p.components := by
  rcases components_parent h with ⟨c, hc, -⟩
  rw [hc]
  exact List.mem_append_left _ hup

theorem length_components_le (p : Path) : p.components.length ≤ p.segments.length + 1 := by
  have hsteps : p.steps.length ≤ p.segments.length := List.length_filter_le _ _
  rw [components_eq, List.length_append, List.length_map]
  split
  · rw [List.length_singleton]
    omega
  · split
    · rw [List.length_singleton]
      omega
    · rw [List.length_nil]
      omega

/-! ## Paths below an ancestor -/

theorem startsWith_congr {p q : Path} (h : p.components = q.components) (base : Path) :
    p.startsWith base = q.startsWith base := by
  unfold startsWith
  rw [h]

theorem isSome_stripSegments {cs : List Component} {segs : List String} (h : cs <+: componentsOf segs) :
    (stripSegments cs segs).isSome = true := by
  induction segs generalizing cs with
  | nil =>
    have hnil : cs = [] := List.prefix_nil.mp h
    rw [hnil]
    rfl
  | cons s rest ih =>
    unfold componentsOf at h
    unfold stripSegments
    split
    next hs =>
      -- what says nothing is skipped on both sides
      refine ih ?_
      rwa [List.filter_cons_of_neg (by simp [hs])] at h
    next hs =>
      cases cs with
      | nil => rfl
      | cons c cs =>
        rw [List.filter_cons_of_pos (by simpa using hs), List.map_cons, List.cons_prefix_cons] at h
        simp only [h.1, beq_self_eq_true, if_true]
        exact ih h.2

/-- A path can be seen from an ancestor if it starts with its steps. -/
theorem isSome_stripAncestor? (p base : Path) : (p.stripAncestor? base).isSome = p.startsWith base := by
  unfold stripAncestor?
  split
  next h =>
    rw [Option.isSome_map, h]
    refine isSome_stripSegments ?_
    rw [componentsOf_eq_steps, ← filter_components]
    exact (List.isPrefixOf_iff_prefix.mp h).filter _
  next h => simpa using h

theorem fileName_congr {p q : Path} (h : p.components = q.components) : p.fileName = q.fileName := by
  unfold fileName
  rw [h]

/-- The file name of a path is the last of its segments that says something. -/
theorem exists_segments_of_fileName {p : Path} {name : String} (h : p.fileName = some name) :
    ∃ front back, p.segments = front ++ name :: back ∧ (∀ s ∈ back, isIdle s = true) ∧
      isIdle name = false ∧ name ≠ ".." := by
  unfold fileName at h
  split at h
  next s hlast =>
    cases h
    -- the last step is not the front, which is no name
    have hsteps : (p.steps.map componentOf).getLast? = some (.name name) := by
      cases hnil : p.steps.map componentOf with
      | nil =>
        rw [components_eq, hnil, List.append_nil] at hlast
        split at hlast
        · cases hlast
        · split at hlast <;> cases hlast
      | cons c cs =>
        rw [components_eq, List.getLast?_append_of_ne_nil _ (by simp [hnil]), hnil] at hlast
        exact hlast
    rw [List.getLast?_map] at hsteps
    rcases Option.map_eq_some_iff.mp hsteps with ⟨s, hs, hname⟩
    have hup : s ≠ ".." ∧ s = name := by
      unfold componentOf at hname
      split at hname
      · cases hname
      next hne =>
        cases hname
        exact ⟨by simpa using hne, rfl⟩
    rcases hup with ⟨hne, rfl⟩
    unfold steps at hs
    -- the last of the segments that say something is the first one from behind
    rw [← List.head?_reverse, ← List.filter_reverse, List.head?_filter] at hs
    rcases List.find?_eq_some_iff_append.mp hs with ⟨hidle, back, front, hsplit, hback⟩
    refine ⟨front.reverse, back.reverse, ?_, ?_, by simpa using hidle, hne⟩
    · rw [← List.reverse_reverse p.segments, hsplit]
      simp
    · intro x hx
      simpa using hback x (List.mem_reverse.mp hx)
  next => cases h

end Relink.Path
