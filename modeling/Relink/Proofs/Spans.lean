import Mathlib.Data.List.Forall2
import Relink.Proofs.Scanning
import Relink.Script.Program

/-!
# The spans of a syntax tree

A parser gives every node a span of the text that it reads: both ends stand between characters, and the span lies
in the stretch that the parser has read. Strings and returned values of different parts of a node stand one behind
the other.

* `Node.Fits` — what holds of the span of a node and of those below it.
* `fits_mk` — a node fits if its own span does, and its parts do.
* `Node.marks`, `Node.Sequential` — the strings and returned values of trees, and trees in the order of their marks.
* `fits_targets`, `fits_bindings` — turning expressions into patterns keeps the spans.
-/

namespace Relink.Script

open Place Node

/-- A text that is read. -/
structure Source where
  chars : List Char

variable {text : Source}

/-- The offset of a place of a text. -/
def Cut (text : Source) (o : Nat) : Prop := ∃ p, Leads (first text.chars) p ∧ p.offset = o

/-! ## Nodes -/

namespace Node

/-- A tree ends in front of an offset. -/
def EndsBefore (hi : Nat) (n : Node) : Prop := ∀ m ∈ n.preorder, m.span.stop < hi

/-- Trees end in front of an offset. -/
def EndBefore (hi : Nat) (ns : List Node) : Prop := ∀ n ∈ ns, n.EndsBefore hi

/-- A tree lies in the span of its root. -/
structure Encloses (n : Node) : Prop where
  ordered : n.span.start ≤ n.span.stop
  within : ∀ m ∈ n.preorder, n.span.start ≤ m.span.start ∧ m.span.stop ≤ n.span.stop

end Node

namespace Kind

/-- A node of a kind writes the names of bindings on one line. -/
def OneLine : Kind → Prop
  | .identifier x | .binding x | .shorthandDefault x | .function (some x) | .class (some x) => '\n' ∉ x.toList
  | .importDeclaration bs _ => ∀ b ∈ bs, '\n' ∉ b.local_.toList
  | .exportNamed bs none => ∀ b ∈ bs, '\n' ∉ b.local_.toList
  | _ => True

/-- What holds of the span and the parts of a node of a kind. The spans of strings and of what is exported are in
order; those of gaps, say, are not. -/
def Shape (s : Span) (ps : List Node) : Kind → Prop
  | .string _ => s.start < s.stop ∧ ps = []
  | .directive _ => ∃ value span, ps = [.mk (.string value) span []]
  | .unary _ => s.start < s.stop
  | .call => EndBefore s.stop ps
  | .return => ps.length ≤ 1 ∧ ∀ p ∈ ps, p.Encloses
  | .exportNamed .. | .exportDefault => ∀ p ∈ ps, p.span.start ≤ p.span.stop
  | _ => True

end Kind

namespace Node

/-- The marks of a node itself: its span if it is a string, and the value that it returns. -/
def ownMarks : Node → List Span
  | mk (.string _) s _ => [s]
  | mk .return _ ps => ps.map span
  | _ => []

/-- The strings of a tree, and the values that its functions return. -/
def marks (n : Node) : List Span := n.preorder.flatMap ownMarks

/-- The marks of a tree stand in front of those of another one. -/
def Precedes (m n : Node) : Prop := ∀ s ∈ m.marks, ∀ t ∈ n.marks, s.stop ≤ t.start

/-- The marks of some trees stand in front of those of others. -/
def AllPrecede (ms ns : List Node) : Prop := ∀ m ∈ ms, ∀ n ∈ ns, m.Precedes n

/-- The marks of trees stand in the order of the trees. -/
def Sequential (ns : List Node) : Prop := ns.Pairwise Precedes

/-- What holds of one node. -/
structure Within (text : Source) (lo hi : Nat) (n : Node) : Prop where
  start : Cut text n.span.start
  stop : Cut text n.span.stop
  lower : lo ≤ n.span.start
  upper : n.span.stop ≤ hi
  shape : n.kind.Shape n.span n.parts
  oneLine : n.kind.OneLine
  sequential : Sequential n.parts

/-- The spans of a node and of all nodes below it lie between two offsets. -/
def Fits (text : Source) (lo hi : Nat) (n : Node) : Prop := ∀ m ∈ n.preorder, m.Within text lo hi

/-- The spans of several trees lie between two offsets. -/
def FitsAll (text : Source) (lo hi : Nat) (ns : List Node) : Prop := ∀ n ∈ ns, n.Fits text lo hi

theorem mem_preorderAll {m : Node} {ns : List Node} : m ∈ preorderAll ns ↔ ∃ n ∈ ns, m ∈ n.preorder := by
  induction ns with
  | nil => simp [preorderAll]
  | cons n ns ih => simp [preorderAll, ih]

theorem self_mem_preorder (n : Node) : n ∈ n.preorder := by
  rw [preorder_eq]
  exact List.mem_cons_self

/-- What is below a part of a tree is below the tree. -/
theorem preorder_subset :
    (∀ n : Node, ∀ m ∈ n.preorder, m.preorder ⊆ n.preorder) ∧
    ∀ ns : List Node, ∀ m ∈ preorderAll ns, m.preorder ⊆ preorderAll ns := by
  apply preorder.mutual_induct
  · intro k s ps ih m hm
    rw [preorder] at hm ⊢
    rcases List.mem_cons.mp hm with rfl | hm
    · exact List.Subset.refl _
    · exact List.subset_cons_of_subset _ (ih m hm)
  · intro m hm
    cases hm
  · intro n ns ihn ihns m hm
    rw [preorderAll] at hm ⊢
    rcases List.mem_append.mp hm with hm | hm
    · exact List.subset_append_of_subset_left _ (ihn m hm)
    · exact List.subset_append_of_subset_right _ (ihns m hm)

theorem mem_preorder_of_mem_parts {m n p : Node} (hm : m ∈ n.preorder) (hp : p ∈ m.parts) : p ∈ n.preorder := by
  refine preorder_subset.1 n m hm ?_
  rw [preorder_eq m]
  exact List.mem_cons_of_mem _ (mem_preorderAll.mpr ⟨p, hp, self_mem_preorder p⟩)

variable {lo hi lo' hi' : Nat} {m n : Node} {ms ns ps : List Node} {k : Kind} {s : Span}

theorem Within.mono (h : n.Within text lo hi) (hlo : lo' ≤ lo) (hhi : hi ≤ hi') : n.Within text lo' hi' :=
  ⟨h.start, h.stop, Nat.le_trans hlo h.lower, Nat.le_trans h.upper hhi, h.shape, h.oneLine, h.sequential⟩

theorem Fits.mono (h : n.Fits text lo hi) (hlo : lo' ≤ lo) (hhi : hi ≤ hi') : n.Fits text lo' hi' :=
  fun m hm => (h m hm).mono hlo hhi

theorem FitsAll.mono (h : FitsAll text lo hi ns) (hlo : lo' ≤ lo) (hhi : hi ≤ hi') : FitsAll text lo' hi' ns :=
  fun n hn => (h n hn).mono hlo hhi

grind_pattern Fits.mono => n.Fits text lo hi, n.Fits text lo' hi'
grind_pattern FitsAll.mono => FitsAll text lo hi ns, FitsAll text lo' hi' ns

theorem fits_iff : n.Fits text lo hi ↔ n.Within text lo hi ∧ FitsAll text lo hi n.parts := by
  unfold Fits FitsAll Fits
  rw [preorder_eq]
  simp only [List.mem_cons, mem_preorderAll]
  constructor
  · intro h
    exact ⟨h n (Or.inl rfl), fun m hm m' hm' => h m' (Or.inr ⟨m, hm, hm'⟩)⟩
  · rintro ⟨hself, hparts⟩ m (rfl | ⟨p, hp, hm⟩)
    · exact hself
    · exact hparts p hp m hm

@[grind =]
theorem fits_mk : (mk k s ps).Fits text lo hi ↔ Cut text s.start ∧ Cut text s.stop ∧ lo ≤ s.start ∧ s.stop ≤ hi ∧
    k.Shape s ps ∧ k.OneLine ∧ Sequential ps ∧ FitsAll text lo hi ps := by
  rw [fits_iff]
  constructor
  · rintro ⟨⟨hstart, hstop, hlower, hupper, hshape, honeLine, hsequential⟩, hparts⟩
    exact ⟨hstart, hstop, hlower, hupper, hshape, honeLine, hsequential, hparts⟩
  · rintro ⟨hstart, hstop, hlower, hupper, hshape, honeLine, hsequential, hparts⟩
    exact ⟨⟨hstart, hstop, hlower, hupper, hshape, honeLine, hsequential⟩, hparts⟩

@[simp, grind .]
theorem fitsAll_nil : FitsAll text lo hi [] := by simp [FitsAll]

@[simp, grind =]
theorem fitsAll_cons : FitsAll text lo hi (n :: ns) ↔ n.Fits text lo hi ∧ FitsAll text lo hi ns := by
  simp [FitsAll]

@[simp, grind =]
theorem fitsAll_append : FitsAll text lo hi (ms ++ ns) ↔ FitsAll text lo hi ms ∧ FitsAll text lo hi ns := by
  simp [FitsAll, or_imp, forall_and]

theorem Fits.part {p : Node} (h : n.Fits text lo hi) (hp : p ∈ n.parts) : p.Fits text lo hi := (fits_iff.mp h).2 p hp

theorem Fits.of_mem_preorder {m : Node} (h : n.Fits text lo hi) (hm : m ∈ n.preorder) : m.Fits text lo hi :=
  fun m' hm' => h m' (preorder_subset.1 n m hm hm')

theorem Fits.within (h : n.Fits text lo hi) : n.Within text lo hi := (fits_iff.mp h).1

theorem Fits.cut_start (h : n.Fits text lo hi) : Cut text n.span.start := h.within.start

theorem Fits.cut_stop (h : n.Fits text lo hi) : Cut text n.span.stop := h.within.stop

theorem Fits.le_start (h : n.Fits text lo hi) : lo ≤ n.span.start := h.within.lower

theorem Fits.stop_le (h : n.Fits text lo hi) : n.span.stop ≤ hi := h.within.upper

grind_pattern Fits.cut_start => n.Fits text lo hi
grind_pattern Fits.cut_stop => n.Fits text lo hi
grind_pattern Fits.le_start => n.Fits text lo hi
grind_pattern Fits.stop_le => n.Fits text lo hi

theorem Fits.encloses (h : n.Fits text lo hi) (hspan : n.span = ⟨lo, hi⟩) (hle : lo ≤ hi) : n.Encloses := by
  constructor <;> rw [hspan]
  · exact hle
  · exact fun m hm => ⟨(h m hm).lower, (h m hm).upper⟩

grind_pattern Fits.encloses => n.Fits text lo hi, n.Encloses

@[grind =]
theorem endsBefore_mk : (mk k s ps).EndsBefore hi ↔ s.stop < hi ∧ EndBefore hi ps := by
  have hall : (∀ m ∈ preorderAll ps, m.span.stop < hi) ↔ EndBefore hi ps := by
    simp only [mem_preorderAll, EndBefore, EndsBefore]
    exact ⟨fun h n hn m hm => h m ⟨n, hn, hm⟩, fun h m ⟨n, hn, hm⟩ => h n hn m hm⟩
  rw [EndsBefore, preorder, List.forall_mem_cons, hall]
  exact Iff.rfl

@[grind .]
theorem endBefore_nil : EndBefore hi [] := fun _ hn => nomatch hn

@[grind =]
theorem endBefore_cons : EndBefore hi (n :: ns) ↔ n.EndsBefore hi ∧ EndBefore hi ns := by
  simp [EndBefore]

theorem EndBefore.mono (h : EndBefore hi ns) (hhi : hi ≤ hi') : EndBefore hi' ns :=
  fun n hn m hm => Nat.lt_of_lt_of_le (h n hn m hm) hhi

theorem Fits.endsBefore (h : n.Fits text lo hi) (hhi : hi < hi') : n.EndsBefore hi' :=
  fun m hm => Nat.lt_of_le_of_lt (h m hm).upper hhi

theorem FitsAll.endBefore (h : FitsAll text lo hi ns) (hhi : hi < hi') : EndBefore hi' ns :=
  fun n hn => (h n hn).endsBefore hhi

grind_pattern EndBefore.mono => EndBefore hi ns, EndBefore hi' ns
grind_pattern Fits.endsBefore => n.Fits text lo hi, n.EndsBefore hi'
grind_pattern FitsAll.endBefore => FitsAll text lo hi ns, EndBefore hi' ns

attribute [grind =] Kind.Shape.eq_def Kind.OneLine.eq_def

/-! ## Marks -/

theorem marks_mk : (mk k s ps).marks = ownMarks (mk k s ps) ++ ps.flatMap marks := by
  have hall : ∀ ns : List Node, (preorderAll ns).flatMap ownMarks = ns.flatMap marks := by
    intro ns
    induction ns with
    | nil => rfl
    | cons n ns ih => simp [preorderAll, marks, ih]
  rw [marks, preorder, List.flatMap_cons, hall]

/-- The marks of a tree lie where the tree does. -/
theorem Fits.of_mem_marks (h : n.Fits text lo hi) {t : Span} (ht : t ∈ n.marks) : lo ≤ t.start ∧ t.stop ≤ hi := by
  obtain ⟨m, hm, ht⟩ := List.mem_flatMap.mp ht
  unfold ownMarks at ht
  split at ht
  next =>
    rw [List.mem_singleton.mp ht]
    exact ⟨(h _ hm).lower, (h _ hm).upper⟩
  next =>
    obtain ⟨p, hp, rfl⟩ := List.mem_map.mp ht
    have hp := h p (mem_preorder_of_mem_parts hm hp)
    exact ⟨hp.lower, hp.upper⟩
  next => cases ht

/-- The marks of trees that lie one behind the other do so too. -/
theorem allPrecede_of_fitsAll (hms : FitsAll text lo hi ms) (hns : FitsAll text lo' hi' ns) (hle : hi ≤ lo') :
    AllPrecede ms ns := by
  intro m hm n hn s hs t ht
  have hs := ((hms m hm).of_mem_marks hs).2
  have ht := ((hns n hn).of_mem_marks ht).1
  omega

theorem allPrecede_of_fits (hm : m.Fits text lo hi) (hns : FitsAll text lo' hi' ns) (hle : hi ≤ lo') :
    AllPrecede [m] ns := by
  exact allPrecede_of_fitsAll (fitsAll_cons.mpr ⟨hm, fitsAll_nil⟩) hns hle

theorem allPrecede_singleton_of_fitsAll (hms : FitsAll text lo hi ms) (hn : n.Fits text lo' hi') (hle : hi ≤ lo') :
    AllPrecede ms [n] := by
  exact allPrecede_of_fitsAll hms (fitsAll_cons.mpr ⟨hn, fitsAll_nil⟩) hle

theorem allPrecede_singleton_of_fits (hm : m.Fits text lo hi) (hn : n.Fits text lo' hi') (hle : hi ≤ lo') :
    AllPrecede [m] [n] := by
  exact allPrecede_of_fits hm (fitsAll_cons.mpr ⟨hn, fitsAll_nil⟩) hle

grind_pattern allPrecede_of_fitsAll => FitsAll text lo hi ms, FitsAll text lo' hi' ns, AllPrecede ms ns
grind_pattern allPrecede_of_fits => m.Fits text lo hi, FitsAll text lo' hi' ns, AllPrecede [m] ns
grind_pattern allPrecede_singleton_of_fitsAll => FitsAll text lo hi ms, n.Fits text lo' hi', AllPrecede ms [n]
grind_pattern allPrecede_singleton_of_fits => m.Fits text lo hi, n.Fits text lo' hi', AllPrecede [m] [n]

@[grind .]
theorem allPrecede_nil : AllPrecede ms [] := fun _ _ _ hn => nomatch hn

@[grind =]
theorem allPrecede_cons : AllPrecede ms (n :: ns) ↔ AllPrecede ms [n] ∧ AllPrecede ms ns := by
  simp [AllPrecede, forall_and]

@[grind =]
theorem allPrecede_append : AllPrecede ms (ns ++ ps) ↔ AllPrecede ms ns ∧ AllPrecede ms ps := by
  simp [AllPrecede, or_imp, forall_and]

@[grind .]
theorem nil_allPrecede : AllPrecede [] ns := fun _ hm => nomatch hm

@[grind =]
theorem cons_allPrecede : AllPrecede (m :: ms) ns ↔ AllPrecede [m] ns ∧ AllPrecede ms ns := by
  simp [AllPrecede]

@[grind =]
theorem append_allPrecede : AllPrecede (ms ++ ns) ps ↔ AllPrecede ms ps ∧ AllPrecede ns ps := by
  simp [AllPrecede, or_imp, forall_and]

@[grind .]
theorem sequential_nil : Sequential [] := List.Pairwise.nil

@[grind =]
theorem sequential_cons : Sequential (n :: ns) ↔ AllPrecede [n] ns ∧ Sequential ns := by
  simp [Sequential, AllPrecede]

@[grind =]
theorem sequential_append : Sequential (ms ++ ns) ↔ Sequential ms ∧ Sequential ns ∧ AllPrecede ms ns := by
  simp [Sequential, AllPrecede, List.pairwise_append]

/-- The marks of a tree are among those of another one. -/
def Narrows (m n : Node) : Prop := m.marks ⊆ n.marks

@[grind .]
theorem Narrows.refl (n : Node) : n.Narrows n := List.Subset.refl _

theorem AllPrecede.narrow {m' n' : Node} (h : AllPrecede [m] [n]) (hm : m'.Narrows m) (hn : n'.Narrows n) :
    AllPrecede [m'] [n'] := by
  simp only [AllPrecede, List.mem_singleton, forall_eq] at h ⊢
  exact fun s hs t ht => h s (hm hs) t (hn ht)

theorem exists_narrowed (h : List.Forall₂ Narrows ms ns) (hm : m ∈ ms) : ∃ n ∈ ns, m.Narrows n := by
  induction h with
  | nil => cases hm
  | @cons m₀ n₀ ms ns hhead _ ih =>
    rcases List.mem_cons.mp hm with rfl | hm
    · exact ⟨n₀, List.mem_cons_self, hhead⟩
    · obtain ⟨n, hn, hnarrow⟩ := ih hm
      exact ⟨n, List.mem_cons_of_mem _ hn, hnarrow⟩

/-- Trees with fewer marks stand in the same order. -/
theorem Sequential.narrow (h : Sequential ns) (hms : List.Forall₂ Narrows ms ns) : Sequential ms := by
  induction hms with
  | nil => exact .nil
  | @cons m n ms ns hm hms ih =>
    obtain ⟨hn, hns⟩ := List.pairwise_cons.mp h
    refine List.pairwise_cons.mpr ⟨?_, ih hns⟩
    intro m' hm' s hs t ht
    obtain ⟨n', hn', hnarrow⟩ := exists_narrowed hms hm'
    exact hn n' hn' s (hm hs) t (hnarrow ht)

theorem narrows_mk {k' : Kind} {s' : Span} (hown : ownMarks (mk k s ms) = []) (hms : List.Forall₂ Narrows ms ns) :
    (mk k s ms).Narrows (mk k' s' ns) := by
  intro t ht
  rw [marks_mk, hown, List.nil_append] at ht
  obtain ⟨m, hm, ht⟩ := List.mem_flatMap.mp ht
  obtain ⟨n, hn, hnarrow⟩ := exists_narrowed hms hm
  rw [marks_mk]
  exact List.mem_append_right _ (List.mem_flatMap.mpr ⟨n, hn, hnarrow ht⟩)

attribute [grind =] ownMarks
attribute [grind .] List.Forall₂.nil List.Forall₂.cons

@[grind .]
theorem forall₂_narrows_refl (ns : List Node) : List.Forall₂ Narrows ns ns := List.forall₂_same.mpr fun n _ => .refl n

/-! ## Patterns -/

theorem marks_leaf (hown : ownMarks (mk k s []) = []) : (mk k s []).marks = [] := by
  rw [marks_mk, hown, List.flatMap_nil, List.append_nil]

theorem narrows_leaf (hown : ownMarks (mk k s []) = []) : (mk k s []).Narrows n := by
  rw [Narrows, marks_leaf hown]
  exact List.nil_subset _

/-- Trees stand in front of a node that is no mark if they stand in front of its parts. -/
@[grind .]
theorem allPrecede_mk (hown : ownMarks (mk k s ps) = []) (h : AllPrecede ms ps) : AllPrecede ms [mk k s ps] := by
  intro m hm n hn t ht u hu
  rw [List.mem_singleton.mp hn, marks_mk, hown, List.nil_append] at hu
  obtain ⟨p, hp, hu⟩ := List.mem_flatMap.mp hu
  exact h m hm p hp t ht u hu

@[grind .]
theorem mk_allPrecede (hown : ownMarks (mk k s ps) = []) (h : AllPrecede ps ns) : AllPrecede [mk k s ps] ns := by
  intro m hm n hn t ht u hu
  rw [List.mem_singleton.mp hm, marks_mk, hown, List.nil_append] at ht
  obtain ⟨p, hp, ht⟩ := List.mem_flatMap.mp ht
  exact h p hp n hn t ht u hu

/-- A name with a default has the marks of its default, also as a pattern. -/
theorem narrows_shorthand (hown : ownMarks (mk k s []) = []) (x : String) :
    (mk .patternProperty s [mk .defaulted s (mk k s [] :: ps)]).Narrows (mk (.shorthandDefault x) s ps) := by
  rw [Narrows, marks_mk, List.flatMap_singleton, marks_mk, List.flatMap_cons, marks_leaf hown, marks_mk]
  exact List.Subset.refl _

theorem narrows_targets :
    (∀ n : Node, ∀ t, n.asTarget = some t → t.Narrows n) ∧
    (∀ (trailing : Bool) (ns : List Node), ∀ ts, asTargetList trailing ns = some ts → List.Forall₂ Narrows ts ns) ∧
    ∀ n : Node, ∀ t, n.asTargetElement = some t → t.Narrows n := by
  apply asTarget.mutual_induct
  all_goals intros
  all_goals grind [asTarget, asTargetElement, asTargetList, Option.map_eq_some_iff, narrows_mk, narrows_leaf, narrows_shorthand]

theorem narrows_bindings :
    (∀ n : Node, ∀ t, n.asBinding = some t → t.Narrows n) ∧
    (∀ (ofObject trailing : Bool) (ns : List Node), ∀ ts, asBindingList ofObject trailing ns = some ts →
      List.Forall₂ Narrows ts ns) ∧
    ∀ n : Node, ∀ t, n.asBindingElement = some t → t.Narrows n := by
  apply asBinding.mutual_induct
  all_goals intros
  all_goals grind [asBinding, asBindingElement, asBindingList, Option.map_eq_some_iff, narrows_mk, narrows_leaf, narrows_shorthand]

section Ordered

variable {t : Node} {ts : List Node} {ofObject trailing : Bool}

@[grind →]
theorem sequential_of_asTargetList (h : asTargetList trailing ns = some ts) (hns : Sequential ns) : Sequential ts :=
  hns.narrow (narrows_targets.2.1 trailing ns ts h)

@[grind →]
theorem sequential_of_asBindingList (h : asBindingList ofObject trailing ns = some ts) (hns : Sequential ns) :
    Sequential ts :=
  hns.narrow (narrows_bindings.2.1 ofObject trailing ns ts h)

@[grind →]
theorem allPrecede_of_asTargetElement (h : n.asTargetElement = some t) (hm : AllPrecede [m] [n]) : AllPrecede [m] [t] :=
  hm.narrow (.refl m) (narrows_targets.2.2 n t h)

@[grind →]
theorem allPrecede_of_asBindingElement (h : n.asBindingElement = some t) (hm : AllPrecede [m] [n]) :
    AllPrecede [m] [t] :=
  hm.narrow (.refl m) (narrows_bindings.2.2 n t h)

@[grind →]
theorem allPrecede_of_asBinding (h : m.asBinding = some t) (hm : AllPrecede [m] [n]) : AllPrecede [t] [n] :=
  hm.narrow (narrows_bindings.1 m t h) (.refl n)

end Ordered

/-- A pattern that an expression stands for fits where the expression does. -/
theorem fits_targets :
    (∀ n : Node, ∀ t, n.Fits text lo hi → n.asTarget = some t → t.Fits text lo hi) ∧
    (∀ (trailing : Bool) (ns : List Node), ∀ ts, FitsAll text lo hi ns → asTargetList trailing ns = some ts →
      FitsAll text lo hi ts) ∧
    ∀ n : Node, ∀ t, n.Fits text lo hi → n.asTargetElement = some t → t.Fits text lo hi := by
  apply asTarget.mutual_induct
  all_goals intros
  all_goals grind [asTarget, asTargetElement, asTargetList, Option.map_eq_some_iff]

@[grind →]
theorem fits_of_asTarget {t : Node} (h : n.asTarget = some t) (hn : n.Fits text lo hi) : t.Fits text lo hi :=
  fits_targets.1 n t hn h

/-- A declaration that an expression stands for fits where the expression does. -/
theorem fits_bindings :
    (∀ n : Node, ∀ t, n.Fits text lo hi → n.asBinding = some t → t.Fits text lo hi) ∧
    (∀ (ofObject trailing : Bool) (ns : List Node), ∀ ts, FitsAll text lo hi ns →
      asBindingList ofObject trailing ns = some ts → FitsAll text lo hi ts) ∧
    ∀ n : Node, ∀ t, n.Fits text lo hi → n.asBindingElement = some t → t.Fits text lo hi := by
  apply asBinding.mutual_induct
  all_goals intros
  all_goals grind [asBinding, asBindingElement, asBindingList, Option.map_eq_some_iff]

@[grind →]
theorem fitsAll_of_asBindingList {ofObject trailing : Bool} (h : asBindingList ofObject trailing ms = some ns)
    (hms : FitsAll text lo hi ms) : FitsAll text lo hi ns :=
  fits_bindings.2.1 ofObject trailing ms ns hms h

end Node

end Relink.Script
