import Relink.Proofs.Preamble
import Relink.Proofs.Weaving

/-!
# What the steps replace in a script

* `Node.string_or_inside` — a string stands in front of a returned value, behind it, or in it.
* `Summary.regions` — what is replaced of the statements that compilers write.
* `owned_ofProgram`, `nested_ofProgram` — these spans have no character in common, and each string of a call of
  `require` lies in one of them or has no character in common with it.
* `transform_replaces` — the edits that are applied to a script.
-/

namespace Relink

open Place Script Script.CommonJs

variable {text : Source}

namespace Script

namespace Node

variable {lo hi : Nat} {n : Node} {ns : List Node}

/-! ## Strings and returned values -/

theorem mem_marks_of_string {v : String} {s : Span} {ps : List Node} (h : mk (.string v) s ps ∈ n.preorder) :
    s ∈ n.marks :=
  List.mem_flatMap.mpr ⟨_, h, List.mem_singleton_self s⟩

theorem mem_marks_of_return {s : Span} {ps : List Node} {value : Node} (h : mk .return s ps ∈ n.preorder)
    (hvalue : value ∈ ps) : value.span ∈ n.marks :=
  List.mem_flatMap.mpr ⟨_, h, List.mem_map_of_mem hvalue⟩

/-- A string stands in front of a returned value, behind it, or in it. -/
theorem string_or_inside {v : String} {s s' : Span} {ps values : List Node} {value : Node} (hvalue : value ∈ values) :
    (∀ n : Node, n.Fits text lo hi → mk (.string v) s ps ∈ n.preorder → mk .return s' values ∈ n.preorder →
      s.Apart value.span ∨ s.inside value.span) ∧
    ∀ ns : List Node, FitsAll text lo hi ns → Sequential ns → mk (.string v) s ps ∈ preorderAll ns →
      mk .return s' values ∈ preorderAll ns → s.Apart value.span ∨ s.inside value.span := by
  apply preorder.mutual_induct
  · intro k span parts ih hfits hstring hreturn
    obtain ⟨-, -, -, -, hshape, -, hsequential, hparts⟩ := fits_mk.mp hfits
    rw [preorder] at hstring hreturn
    rcases List.mem_cons.mp hstring with hself | hbelow
    · -- a string has no parts
      cases hself
      rcases List.mem_cons.mp hreturn with hreturn | hreturn
      · cases hreturn
      · rw [hshape.2] at hreturn
        cases hreturn
    rcases List.mem_cons.mp hreturn with hself | hreturn
    · -- the string is below the value
      cases hself
      obtain ⟨hlength, hencloses⟩ := hshape
      obtain ⟨p, hp, hbelow⟩ := mem_preorderAll.mp hbelow
      obtain rfl : p = value := by
        cases values with
        | nil => cases hp
        | cons q qs =>
          obtain rfl : qs = [] := List.length_eq_zero_iff.mp (by simpa using hlength)
          rw [List.mem_singleton.mp hp, List.mem_singleton.mp hvalue]
      exact Or.inr (Span.inside_iff.mpr ((hencloses p hp).within _ hbelow))
    · exact ih hparts hsequential hbelow hreturn
  · intro _ _ hstring
    cases hstring
  · intro n ns ihn ihns hfits hsequential hstring hreturn
    obtain ⟨hn, hns⟩ := fitsAll_cons.mp hfits
    obtain ⟨hbefore, hsequential⟩ := sequential_cons.mp hsequential
    rw [preorderAll] at hstring hreturn
    rcases List.mem_append.mp hstring with hstring | hstring <;> rcases List.mem_append.mp hreturn with hreturn | hreturn
    · exact ihn hn hstring hreturn
    · obtain ⟨m, hm, hreturn⟩ := mem_preorderAll.mp hreturn
      exact Or.inl (Or.inl (hbefore n (by simp) m hm s (mem_marks_of_string hstring) _ (mem_marks_of_return hreturn hvalue)))
    · obtain ⟨m, hm, hstring⟩ := mem_preorderAll.mp hstring
      exact Or.inl (Or.inr (hbefore n (by simp) m hm _ (mem_marks_of_return hreturn hvalue) s (mem_marks_of_string hstring)))
    · exact ihns hns hsequential hstring hreturn

/-! ## Calls of `require` -/

theorem exists_of_requireCall? {call : RequireCall} (h : n.requireCall? = some call) : ∃ s callee v ps,
    n = mk .call s [callee, mk (.string v) call.span ps] := by
  unfold requireCall? at h
  split at h
  next s callee v span ps =>
    split at h
    · cases h
      exact ⟨s, callee, v, ps, rfl⟩
    · cases h
  next => cases h

theorem string_mem_of_requireCall? {call : RequireCall} {m : Node} (hm : m ∈ n.preorder)
    (h : m.requireCall? = some call) : ∃ v ps, mk (.string v) call.span ps ∈ n.preorder := by
  obtain ⟨s, callee, v, ps, rfl⟩ := exists_of_requireCall? h
  exact ⟨v, ps, mem_preorder_of_mem_parts hm (by simp)⟩

theorem span_mem_marks {call : RequireCall} (h : call ∈ n.preorder.filterMap requireCall?) : call.span ∈ n.marks := by
  obtain ⟨m, hm, hcall⟩ := List.mem_filterMap.mp h
  obtain ⟨v, ps, hstring⟩ := string_mem_of_requireCall? hm hcall
  exact mem_marks_of_string hstring

theorem lt_of_requireCall? {call : RequireCall} {m : Node} (hfits : n.Fits text lo hi) (hm : m ∈ n.preorder)
    (h : m.requireCall? = some call) : call.span.start < call.span.stop := by
  obtain ⟨v, ps, hstring⟩ := string_mem_of_requireCall? hm h
  exact (hfits _ hstring).shape.1

/-- The strings of the calls of `require` have no character in common. -/
theorem requireCalls_apart :
    (∀ n : Node, n.Fits text lo hi → (n.preorder.filterMap requireCall?).Pairwise fun a b => a.span.Apart b.span) ∧
    ∀ ns : List Node, FitsAll text lo hi ns → Sequential ns →
      ((preorderAll ns).filterMap requireCall?).Pairwise fun a b => a.span.Apart b.span := by
  apply preorder.mutual_induct
  · intro k span parts ih hfits
    obtain ⟨-, -, -, -, -, -, hsequential, hparts⟩ := fits_mk.mp hfits
    have hrest := ih hparts hsequential
    rw [preorder, List.filterMap_cons]
    cases hcall : requireCall? (mk k span parts) with
    | none => exact hrest
    | some call =>
      refine List.pairwise_cons.mpr ⟨?_, hrest⟩
      obtain ⟨s, callee, v, ps, hnode⟩ := exists_of_requireCall? hcall
      cases hnode
      obtain ⟨-, hstring⟩ : callee.Fits text lo hi ∧ (mk (.string v) call.span ps).Fits text lo hi := by simpa using hparts
      have hps : ps = [] := hstring.within.shape.2
      subst hps
      obtain ⟨hbefore, -⟩ := sequential_cons.mp hsequential
      -- other calls stand in the callee
      intro other hother
      have hother : other ∈ callee.preorder.filterMap requireCall? := by
        simpa [preorderAll, preorder, requireCall?] using hother
      exact Or.inr (hbefore callee (by simp) _ List.mem_cons_self _ (span_mem_marks hother) _
        (mem_marks_of_string (self_mem_preorder _)))
  · intro _ _
    exact .nil
  · intro n ns ihn ihns hfits hsequential
    obtain ⟨hn, hns⟩ := fitsAll_cons.mp hfits
    obtain ⟨hbefore, hsequential⟩ := sequential_cons.mp hsequential
    rw [preorderAll, List.filterMap_append]
    refine List.pairwise_append.mpr ⟨ihn hn, ihns hns hsequential, ?_⟩
    intro a ha b hb
    obtain ⟨m, hm, hb⟩ := List.mem_filterMap.mp hb
    obtain ⟨p, hp, hm⟩ := mem_preorderAll.mp hm
    exact Or.inl (hbefore n (by simp) p hp _ (span_mem_marks ha) _
      (span_mem_marks (List.mem_filterMap.mpr ⟨m, hm, hb⟩)))

/-! ## Getter exports -/

theorem exists_return_of_getterValue? {value : Node} (h : n.getterValue? = some value) :
    ∃ s, mk .return s [value] ∈ n.preorder := by
  unfold getterValue? at h
  split at h
  next name role s name' s' ps body =>
    split at h
    next s'' value' hbody =>
      cases h
      have hreturn : mk .return s'' [value] ∈ statements body.parts := by simp [hbody]
      have hreturn : mk .return s'' [value] ∈ body.parts := (List.mem_filter.mp hreturn).1
      refine ⟨s'', mem_preorder_of_mem_parts (m := body) ?_ hreturn⟩
      refine mem_preorder_of_mem_parts (m := mk (.function name') s' [ps, body]) ?_ (by simp)
      exact mem_preorder_of_mem_parts (m := mk (.property (some "get") role) s [mk (.function name') s' [ps, body]])
        (by simp [preorder]) (by simp)
    next => cases h
  next => cases h

theorem exists_of_getterExport? {name value : Span} (h : n.getterExport? = some (name, value)) :
    ∃ s callee target v ps object returned s', n = mk .call s [callee, target, mk (.string v) name ps, object] ∧
      returned.span = value ∧ mk .return s' [returned] ∈ object.preorder := by
  unfold getterExport? at h
  split at h
  next s object target v name' ps trailing s' properties =>
    split at h
    · obtain ⟨returned, hreturned, heq⟩ := Option.map_eq_some_iff.mp h
      cases heq
      obtain ⟨property, hproperty, hvalue⟩ := List.exists_of_findSome?_eq_some hreturned
      obtain ⟨s'', hreturn⟩ := exists_return_of_getterValue? hvalue
      refine ⟨_, _, _, _, _, _, returned, s'', rfl, rfl, ?_⟩
      refine preorder_subset.1 _ property ?_ hreturn
      exact mem_preorder_of_mem_parts (m := mk (.object trailing) s' properties) (by simp [preorder]) hproperty
    · cases h
  next => cases h

/-- The name of a getter export stands in front of the value, and something stands behind the value. -/
theorem ordered_of_getterExport? {name value : Span} (hfits : n.Fits text lo hi)
    (h : n.getterExport? = some (name, value)) : lo ≤ name.start ∧ name.start < name.stop ∧ name.stop ≤ value.start ∧
      value.start ≤ value.stop ∧ value.stop < hi := by
  obtain ⟨s, callee, target, v, ps, object, returned, s', rfl, rfl, hreturn⟩ := exists_of_getterExport? h
  obtain ⟨-, -, -, hstop, hshape, -, hsequential, hparts⟩ := fits_mk.mp hfits
  obtain ⟨-, -, hname, hobject, -⟩ : callee.Fits text lo hi ∧ target.Fits text lo hi ∧
      (mk (.string v) name ps).Fits text lo hi ∧ object.Fits text lo hi ∧ True := by simpa using hparts
  obtain ⟨-, hsequential⟩ := sequential_cons.mp hsequential
  obtain ⟨-, hsequential⟩ := sequential_cons.mp hsequential
  obtain ⟨hbefore, -⟩ := sequential_cons.mp hsequential
  have hvalue := mem_marks_of_return hreturn (List.mem_singleton_self returned)
  have hencloses : returned.Encloses := (hobject _ hreturn).shape.2 _ (List.mem_singleton_self returned)
  refine ⟨hname.le_start, hname.within.shape.1, ?_, hencloses.ordered, ?_⟩
  · exact hbefore _ (List.mem_singleton_self _) object (List.mem_singleton_self _) name
      (mem_marks_of_string (self_mem_preorder _)) _ hvalue
  · -- behind the object the call has a parenthesis
    have hlt := hshape object (by simp) _ (mem_preorder_of_mem_parts hreturn (List.mem_singleton_self returned))
    exact Nat.lt_of_lt_of_le hlt hstop

/-! ## Spans that a statement holds -/

/-- A span that is not empty and lies in a tree; strings of calls of `require` in the tree lie in it or have no
character in common with it. -/
structure Holds (n : Node) (r : Span) : Prop where
  solid : r.start < r.stop
  within : r.inside n.span
  laminar : ∀ call ∈ n.preorder.filterMap requireCall?, call.span.inside r ∨ call.span.Apart r

theorem inside_of_mem_marks (hfits : n.Fits text lo hi) {s : Span} (hs : s ∈ n.marks) : s.inside ⟨lo, hi⟩ :=
  Span.inside_iff.mpr (hfits.of_mem_marks hs)

/-- A statement holds its span if there is anything in it. -/
theorem holds_span (hn : Standing text n) {m : Node} (hm : m ∈ n.preorder) (hlt : m.span.start < m.span.stop) :
    n.Holds n.span where
  solid := Nat.lt_of_le_of_lt (hn.fits m hm).lower (Nat.lt_of_lt_of_le hlt (hn.fits m hm).upper)
  within := by simp [Span.inside]
  laminar call hcall := Or.inl (inside_of_mem_marks hn.fits (span_mem_marks hcall))

theorem holds_of_directive {v : String} {s : Span} {ps : List Node} (hn : Standing text (mk (.directive v) s ps)) :
    (mk (.directive v) s ps).Holds s := by
  obtain ⟨value, span, rfl⟩ := hn.fits.within.shape
  have hmem : mk (.string value) span [] ∈ (mk (.directive v) s [mk (.string value) span []]).preorder := by
    simp [preorder, preorderAll]
  exact holds_span hn hmem (hn.fits _ hmem).shape.1

theorem holds_of_isMarker {s : Span} {e : Node} (hn : Standing text (mk .expressionStatement s [e])) (h : e.isMarker) :
    (mk .expressionStatement s [e]).Holds s := by
  obtain ⟨span, callee, target, stringSpan, parts, value, rfl⟩ := isMarker_iff.mp h
  have hmem : mk (.string "__esModule") stringSpan parts ∈ (mk .expressionStatement s
      [mk .call span [callee, target, mk (.string "__esModule") stringSpan parts, value]]).preorder := by
    simp [preorder, preorderAll]
  exact holds_span hn hmem (hn.fits _ hmem).shape.1

theorem Assigns.mem_preorder {ops : List Punct} {value e : Node} (h : Assigns ops value e) : value ∈ e.preorder := by
  induction h with
  | value e =>
    exact self_mem_preorder e
  | assign op span target e value ops _ _ ih =>
    exact preorder_subset.1 _ e (mem_preorder_of_mem_parts (self_mem_preorder _) (by simp)) ih

theorem holds_of_isVoidChain {s : Span} {e : Node} (hn : Standing text (mk .expressionStatement s [e]))
    (h : e.isVoidChain) : (mk .expressionStatement s [e]).Holds s := by
  obtain ⟨ops, span, operands, hassigns⟩ := isVoidChain_iff.mp h
  have hmem : mk (.unary .void) span operands ∈ (mk .expressionStatement s [e]).preorder := by
    rw [preorder]
    exact List.mem_cons_of_mem _ (mem_preorderAll.mpr ⟨e, List.mem_singleton_self e, hassigns.mem_preorder⟩)
  exact holds_span hn hmem (hn.fits _ hmem).shape

/-- The value of a getter export stands in it, and a string of a call of `require` stands in front of the value, behind
it, or in it. -/
theorem string_or_inside_of_getterExport? {name value : Span} (hfits : n.Fits text lo hi)
    (h : n.getterExport? = some (name, value)) : ∀ call ∈ n.preorder.filterMap requireCall?,
      call.span.Apart value ∨ call.span.inside value := by
  intro call hcall
  obtain ⟨s, callee, target, w, qs, object, returned, s', rfl, rfl, hreturn⟩ := exists_of_getterExport? h
  obtain ⟨m, hm, hcall⟩ := List.mem_filterMap.mp hcall
  obtain ⟨v, ps, hstring⟩ := string_mem_of_requireCall? hm hcall
  have hobject : object ∈ (mk .call s [callee, target, mk (.string w) name qs, object]).preorder :=
    mem_preorder_of_mem_parts (self_mem_preorder _) (by simp)
  exact (string_or_inside (List.mem_singleton_self returned)).1 _ hfits hstring (preorder_subset.1 _ object hobject hreturn)

/-- A statement holds what stands in front of the value of a getter export and what stands behind it. -/
theorem holds_of_getterExport? {s name value : Span} {e : Node} (hn : Standing text (mk .expressionStatement s [e]))
    (h : e.getterExport? = some (name, value)) :
    (mk .expressionStatement s [e]).Holds ⟨s.start, value.start⟩ ∧
      (mk .expressionStatement s [e]).Holds ⟨value.stop, s.stop⟩ ∧
      Span.Apart ⟨s.start, value.start⟩ ⟨value.stop, s.stop⟩ := by
  have hfits : e.Fits text s.start s.stop := hn.fits.part (by simp)
  obtain ⟨hname, hsolid, hvalue, hordered, hbehind⟩ := ordered_of_getterExport? hfits h
  have hcalls : ∀ call ∈ (mk .expressionStatement s [e]).preorder.filterMap requireCall?,
      s.start ≤ call.span.start ∧ call.span.stop ≤ s.stop ∧ (call.span.Apart value ∨ call.span.inside value) := by
    intro call hcall
    have hinside := hn.fits.of_mem_marks (span_mem_marks hcall)
    refine ⟨hinside.1, hinside.2, string_or_inside_of_getterExport? hfits h call ?_⟩
    simpa [preorder, preorderAll, requireCall?] using hcall
  have hsolidCalls : ∀ call ∈ (mk .expressionStatement s [e]).preorder.filterMap requireCall?,
      call.span.start < call.span.stop := by
    intro call hcall
    obtain ⟨m, hm, hcall⟩ := List.mem_filterMap.mp hcall
    exact lt_of_requireCall? hn.fits hm hcall
  refine ⟨⟨by dsimp only; omega, Span.inside_iff.mpr ⟨Nat.le_refl _, by dsimp only [span_mk]; omega⟩, ?_⟩,
    ⟨hbehind, Span.inside_iff.mpr ⟨by dsimp only [span_mk]; omega, Nat.le_refl _⟩, ?_⟩, Or.inl hordered⟩
  · intro call hcall
    obtain ⟨hstart, hstop, hcases⟩ := hcalls call hcall
    have hlt := hsolidCalls call hcall
    rw [Span.inside_iff] at hcases ⊢
    unfold Span.Apart at hcases ⊢
    dsimp only
    omega
  · intro call hcall
    obtain ⟨hstart, hstop, hcases⟩ := hcalls call hcall
    have hlt := hsolidCalls call hcall
    rw [Span.inside_iff] at hcases ⊢
    unfold Span.Apart at hcases ⊢
    dsimp only
    omega

end Node

/-! ## Spans of a summary -/

theorem Lined.apart {ns : List Node} (h : Lined text ns) {m n : Node} (hm : m ∈ ns) (hn : n ∈ ns) (hne : m ≠ n) :
    m.span.Apart n.span := by
  have : Std.Symm fun a b : Node => a.span.Apart b.span := ⟨fun _ _ => Span.Apart.symm⟩
  exact List.Pairwise.forall (R := fun a b : Node => a.span.Apart b.span) (h.ascending.imp Or.inl) hm hn hne

theorem Lined.fitsAll {ns : List Node} (h : Lined text ns) : Node.FitsAll text 0 (byteLength text.chars) ns :=
  fun n hn => (h.standing n hn).fits.mono (Nat.zero_le _) (h.standing n hn).fits.cut_stop.le_byteLength

theorem Lined.sequential {ns : List Node} (h : Lined text ns) : Node.Sequential ns := by
  refine h.ascending.imp_of_mem ?_
  intro m n hm hn hle s hs t ht
  have hs := ((h.standing m hm).fits.of_mem_marks hs).2
  have ht := ((h.standing n hn).fits.of_mem_marks ht).1
  omega

namespace GetterExport

/-- What stands in front of the value of a getter export. -/
def before (e : GetterExport) : Span := ⟨e.statement.start, e.value.start⟩

/-- What stands behind the value of a getter export. -/
def behind (e : GetterExport) : Span := ⟨e.value.stop, e.statement.stop⟩

end GetterExport

/-- Spans that are held by statements, and have no character in common. -/
structure Owned (ns : List Node) (rs : List Span) : Prop where
  owned : ∀ r ∈ rs, ∃ n ∈ ns, n.Holds r
  apart : rs.Pairwise Span.Apart

namespace Owned

variable {ms ns : List Node} {rs rs' : List Span}

theorem perm (h : Owned ns rs) (hrs : rs.Perm rs') : Owned ns rs' :=
  ⟨fun r hr => h.owned r (hrs.mem_iff.mpr hr), hrs.pairwise h.apart Span.Apart.symm⟩

/-- Spans of statements that are apart are apart. -/
theorem append (h : Owned ms rs) (h' : Owned ns rs') (hapart : ∀ m ∈ ms, ∀ n ∈ ns, m.span.Apart n.span) :
    Owned (ms ++ ns) (rs ++ rs') where
  owned r hr := by
    rcases List.mem_append.mp hr with hr | hr
    · obtain ⟨m, hm, hr⟩ := h.owned r hr
      exact ⟨m, List.mem_append_left _ hm, hr⟩
    · obtain ⟨n, hn, hr⟩ := h'.owned r hr
      exact ⟨n, List.mem_append_right _ hn, hr⟩
  apart := by
    refine List.pairwise_append.mpr ⟨h.apart, h'.apart, ?_⟩
    intro r hr r' hr'
    obtain ⟨m, hm, hr⟩ := h.owned r hr
    obtain ⟨n, hn, hr'⟩ := h'.owned r' hr'
    exact (hapart m hm n hn).mono hr.within hr'.within

theorem singleton {n : Node} {r : Span} (h : n.Holds r) : Owned [n] [r] :=
  ⟨fun _ hr => ⟨n, List.mem_singleton_self n, List.mem_singleton.mp hr ▸ h⟩, List.pairwise_singleton _ _⟩

theorem nil : Owned ns [] where
  owned _ hr := nomatch hr
  apart := List.Pairwise.nil

end Owned

namespace Summary

/-- What is replaced of the statements that compilers write. -/
def regions (s : Summary) : List Span :=
  s.useStrict ++ s.marker.toList ++ s.voidChain.toList ++ s.getterExports.flatMap fun e => [e.before, e.behind]

/-- A directive of strictness. -/
def isStrict (n : Node) : Bool := n.kind == .directive "use strict"

/-- Taking up a statement adds spans that it holds. -/
theorem exists_regions_addStatement (s : Summary) {n : Node} (hn : Standing text n) :
    ∃ rs, (s.addStatement n).regions.Perm (s.regions ++ rs) ∧ Owned [n] rs ∧ (isStrict n → rs = []) := by
  unfold addStatement
  split
  next span e =>
    split
    next hmarker =>
      obtain ⟨hnone, hmarker⟩ := (Bool.and_eq_true _ _).mp hmarker
      refine ⟨[span], ?_, .singleton (Node.holds_of_isMarker hn hmarker), by simp [isStrict]⟩
      simp only [regions, Option.isNone_iff_eq_none.mp hnone, Option.toList_some, Option.toList_none, List.append_nil,
        List.append_assoc]
      rw [← List.append_assoc s.voidChain.toList]
      exact List.Perm.append_left _ List.perm_append_comm
    split
    next hvoid =>
      obtain ⟨hnone, hvoid⟩ := (Bool.and_eq_true _ _).mp hvoid
      refine ⟨[span], ?_, .singleton (Node.holds_of_isVoidChain hn hvoid), by simp [isStrict]⟩
      simp only [regions, Option.isNone_iff_eq_none.mp hnone, Option.toList_some, Option.toList_none, List.append_nil,
        List.append_assoc]
      exact List.Perm.append_left _ (List.Perm.append_left _ List.perm_append_comm)
    split
    next name value hexport =>
      obtain ⟨hbefore, hbehind, hapart⟩ := Node.holds_of_getterExport? hn hexport
      refine ⟨[⟨span.start, value.start⟩, ⟨value.stop, span.stop⟩], ?_, ⟨?_, ?_⟩, by simp [isStrict]⟩
      · simp [regions, GetterExport.before, GetterExport.behind]
      · simp [hbefore, hbehind]
      · simpa using hapart
    next => exact ⟨[], by simp, .nil, fun _ => rfl⟩
  next => exact ⟨[], by simp, .nil, fun _ => rfl⟩

/-- Taking up statements adds spans that they hold, if these are not already held. -/
theorem owned_foldl {ns : List Node} (h : Lined text ns) {ms : List Node} {s : Summary} (hs : Owned ms s.regions)
    (hapart : ∀ m ∈ ms, ∀ n ∈ ns, isStrict n = false → m.span.Apart n.span) :
    Owned (ms ++ ns) (ns.foldl addStatement s).regions := by
  induction ns generalizing ms s with
  | nil => simpa using hs
  | cons n ns ih =>
    obtain ⟨hn, hbehind, hns⟩ := lined_cons.mp h
    obtain ⟨rs, hperm, hrs, hstrict⟩ := exists_regions_addStatement s hn
    rw [List.foldl_cons, List.append_cons]
    refine ih hns ?_ ?_
    · refine Owned.perm ?_ hperm.symm
      cases hkind : isStrict n with
      | true =>
        rw [hstrict hkind, List.append_nil]
        exact ⟨fun r hr => (hs.owned r hr).imp fun m hm => ⟨List.mem_append_left _ hm.1, hm.2⟩, hs.apart⟩
      | false => exact hs.append hrs fun m hm n' hn' => List.mem_singleton.mp hn' ▸ hapart m hm n List.mem_cons_self hkind
    · intro m hm n' hn' hkind
      rcases List.mem_append.mp hm with hm | hm
      · exact hapart m hm n' (List.mem_cons_of_mem _ hn') hkind
      · rw [List.mem_singleton.mp hm]
        exact Or.inl (hbehind n' hn')

/-- The spans that are replaced of the statements that compilers write are held by statements. -/
theorem owned_ofProgram {program : Program} (h : Lined text program.body) :
    Owned program.body (ofProgram program).regions := by
  have hdirectives : Owned (program.body.filter isStrict) ((program.body.filter isStrict).map Node.span) := by
    constructor
    · intro r hr
      obtain ⟨n, hn, rfl⟩ := List.mem_map.mp hr
      refine ⟨n, hn, ?_⟩
      obtain ⟨hn, hstrict⟩ := List.mem_filter.mp hn
      obtain ⟨k, s, ps⟩ := n
      obtain rfl : k = .directive "use strict" := by simpa [isStrict] using hstrict
      exact Node.holds_of_directive (h.standing _ hn)
    · refine List.pairwise_map.mpr ((h.ascending.sublist List.filter_sublist).imp ?_)
      exact fun hle => Or.inl hle
  have hstart : Owned (program.body.filter isStrict) (Summary.regions
      { useStrict := program.body.filterMap fun n => if n.kind == .directive "use strict" then some n.span else none
        requires := (Node.preorderAll program.body).filterMap Node.requireCall?
        marker := none
        voidChain := none
        getterExports := [] }) := by
    have huse : (program.body.filterMap fun n => if n.kind == .directive "use strict" then some n.span else none) =
        (program.body.filter isStrict).map Node.span := by
      rw [← List.filterMap_eq_map, List.filterMap_filter]
      rfl
    rw [regions, huse]
    simpa using hdirectives
  have hall := owned_foldl h hstart ?_
  · refine ⟨fun r hr => ?_, hall.apart⟩
    obtain ⟨n, hn, hr⟩ := hall.owned r hr
    refine ⟨n, ?_, hr⟩
    rcases List.mem_append.mp hn with hn | hn
    · exact List.mem_of_mem_filter hn
    · exact hn
  · intro m hm n hn hkind
    obtain ⟨hm, hstrict⟩ := List.mem_filter.mp hm
    refine h.apart hm hn ?_
    rintro rfl
    rw [hkind] at hstrict
    cases hstrict

/-- A string of a call of `require` lies in a replaced span or has no character in common with it. -/
theorem nested_ofProgram {program : Program} (h : Lined text program.body) {call : RequireCall}
    (hcall : call ∈ (ofProgram program).requires) {r : Span} (hr : r ∈ (ofProgram program).regions) :
    call.span.inside r ∨ call.span.Apart r := by
  obtain ⟨n, hn, hholds⟩ := (owned_ofProgram h).owned r hr
  rw [requires_ofProgram] at hcall
  obtain ⟨m, hm, hcall⟩ := List.mem_filterMap.mp hcall
  obtain ⟨top, htop, hm⟩ := Node.mem_preorderAll.mp hm
  have hcall : call ∈ top.preorder.filterMap Node.requireCall? := List.mem_filterMap.mpr ⟨m, hm, hcall⟩
  by_cases hsame : top = n
  · exact hholds.laminar call (hsame ▸ hcall)
  · have hinside := Node.inside_of_mem_marks (h.standing top htop).fits (Node.span_mem_marks hcall)
    exact Or.inr ((h.apart htop hn hsame).mono hinside hholds.within)

/-- The strings of the calls of `require` have no character in common. -/
theorem requires_apart {program : Program} (h : Lined text program.body) :
    (ofProgram program).requires.Pairwise fun a b => a.span.Apart b.span :=
  requires_ofProgram program ▸ Node.requireCalls_apart.2 program.body h.fitsAll h.sequential

theorem lt_of_mem_requires {program : Program} (h : Lined text program.body) {call : RequireCall}
    (hcall : call ∈ (ofProgram program).requires) : call.span.start < call.span.stop := by
  rw [requires_ofProgram] at hcall
  obtain ⟨m, hm, hcall⟩ := List.mem_filterMap.mp hcall
  obtain ⟨top, htop, hm⟩ := Node.mem_preorderAll.mp hm
  exact Node.lt_of_requireCall? (h.standing top htop).fits hm hcall

end Summary

end Script

/-! ## Edits of a script -/

namespace Step

/-- The steps that undo the work of a compiler. -/
def compilerSteps : List Step := [.dropStrict, .callMarker, .dropVoid, .callExports]

/-- The edits of the steps that undo the work of a compiler, if these are taken. -/
def compilerEdits (source : List Char) (ids : Table String ModuleId) (s : Summary) (applyTransforms : Bool) : List Edit :=
  if applyTransforms then compilerSteps.flatMap (scriptEdits source ids s) else []

/-- The edit that gives a call of `require` its id; none if the specifier has no id. -/
def numbering? (source : List Char) (ids : Table String ModuleId) (call : RequireCall) : Option Edit :=
  (ids.get? call.specifier).map fun id =>
    Edit.replace source call.span (id.literal ++ " /* " ++ commentSafe call.specifier ++ " */")

variable {source : List Char} {ids : Table String ModuleId} {s : Summary} {call : RequireCall}

theorem span_of_numbering? {e : Edit} (h : numbering? source ids call = some e) : e.span = call.span := by
  obtain ⟨id, -, rfl⟩ := Option.map_eq_some_iff.mp h
  rfl

theorem map_span_compilerEdits : (compilerEdits source ids s true).map Edit.span = s.regions := by
  simp [compilerEdits, compilerSteps, scriptEdits, Summary.regions, Edit.replace, Edit.span, GetterExport.before,
    GetterExport.behind, Function.comp_def, List.map_flatMap]

/-- The edit of a call lies outside of those of the compiler's statements if its string does. -/
theorem outside_compilerEdits {e : Edit} (h : numbering? source ids call = some e) (applyTransforms : Bool) :
    e.outside (compilerEdits source ids s applyTransforms) = !(applyTransforms && s.regions.any call.span.inside) := by
  rw [Edit.outside, span_of_numbering? h]
  cases applyTransforms with
  | true =>
    rw [← @map_span_compilerEdits source ids, List.any_map]
    rfl
  | false => rfl

/-- The edits of a script are nested. -/
theorem nested {program : Program} (h : Lined text program.body) (applyTransforms : Bool) :
    Nested (compilerEdits source ids (.ofProgram program) applyTransforms)
      ((Summary.ofProgram program).requires.filterMap (numbering? source ids)) := by
  have hregions : ∀ e ∈ compilerEdits source ids (.ofProgram program) applyTransforms,
      e.span ∈ (Summary.ofProgram program).regions := by
    intro e he
    cases applyTransforms with
    | true => exact map_span_compilerEdits ▸ List.mem_map_of_mem he
    | false => cases he
  constructor
  · intro e he
    rcases List.mem_append.mp he with he | he
    · obtain ⟨n, -, hholds⟩ := (Summary.owned_ofProgram h).owned _ (hregions e he)
      exact hholds.solid
    · obtain ⟨call, hcall, he⟩ := List.mem_filterMap.mp he
      have hlt := Summary.lt_of_mem_requires h hcall
      rw [← span_of_numbering? he] at hlt
      exact hlt
  · cases applyTransforms with
    | true => exact List.pairwise_map.mp (map_span_compilerEdits ▸ (Summary.owned_ofProgram h).apart)
    | false => exact .nil
  · refine List.pairwise_filterMap.mpr ((Summary.requires_apart h).imp ?_)
    intro a b hab e he e' he'
    rw [span_of_numbering? he, span_of_numbering? he']
    exact hab
  · intro e he r hr
    obtain ⟨call, hcall, he⟩ := List.mem_filterMap.mp he
    rw [span_of_numbering? he]
    exact Summary.nested_ofProgram h hcall (hregions r hr)

/-- A step on a script. -/
def OnScript (step : Step) : Prop := step ∈ compilerSteps ++ [.numberRequires]

/-- Steps on a script add their edits. -/
theorem foldlM_onScript {subject : Subject} (hsummary : subject.summary = some s) {steps : List Step}
    (hsteps : ∀ step ∈ steps, step.OnScript) (d : Document) :
    steps.foldlM (fun d step => step.apply subject d) d =
      .ok { d with edits := d.edits ++ steps.flatMap (scriptEdits subject.source.toList subject.ids s) } := by
  induction steps generalizing d with
  | nil => simp [pure, Except.pure]
  | cons step steps ih =>
    obtain ⟨hstep, hsteps⟩ := List.forall_mem_cons.mp hsteps
    have happly : step.apply subject d = .ok (d.edit (step.scriptEdits subject.source.toList subject.ids s)) := by
      simp only [OnScript, compilerSteps, List.cons_append, List.nil_append, List.mem_cons, List.not_mem_nil, or_false]
        at hstep
      rcases hstep with rfl | rfl | rfl | rfl | rfl <;> simp [apply, hsummary]
    rw [List.foldlM_cons, happly]
    simp only [bind, Except.bind]
    rw [ih hsteps, Document.edit, List.flatMap_cons, List.append_assoc]

end Step

/-- The edits of a script. -/
def Step.edits (subject : Subject) (s : Summary) (applyTransforms : Bool) : List Edit :=
  Step.compilerEdits subject.source.toList subject.ids s applyTransforms ++
    s.requires.filterMap (Step.numbering? subject.source.toList subject.ids)

theorem Step.keeps_edits {subject : Subject} {s : Summary} (h : s.Placed ⟨subject.source.toList⟩)
    (applyTransforms : Bool) : ∀ e ∈ Step.edits subject s applyTransforms, e.Keeps ⟨subject.source.toList⟩ := by
  intro e he
  rcases List.mem_append.mp he with he | he
  · cases applyTransforms with
    | true =>
      obtain ⟨step, -, he⟩ := List.mem_flatMap.mp he
      exact keeps_scriptEdits h subject.ids step e he
    | false => cases he
  · exact keeps_scriptEdits h subject.ids .numberRequires e he

/-- The code of a script is its source with its edits, between a head and a tail. -/
theorem exists_transform_js {subject : Subject} {s : Summary} (hsummary : subject.summary = some s)
    (applyTransforms : Bool) : ∃ code, transform .js applyTransforms subject = .ok code ∧
      code.source = Step.headText subject.basePath ++ applyEdits subject.source (Step.edits subject s applyTransforms) ++
        Step.tailText subject.source.toList ∧
      code.map = (SourceMap.lineMap subject.basePath subject.source
        (newlines (Step.headText subject.basePath).toList)).render := by
  have hsteps : ∀ step ∈ (if applyTransforms then Step.compilerSteps else []) ++ [Step.numberRequires],
      step.OnScript := by
    intro step hstep
    cases applyTransforms with
    | true => exact hstep
    | false => exact List.mem_append_right _ hstep
  have hpipeline : pipeline .js applyTransforms =
      ((if applyTransforms then Step.compilerSteps else []) ++ [.numberRequires]) ++ [.wrap] := by
    cases applyTransforms <;> rfl
  have hedits : ((if applyTransforms then Step.compilerSteps else []) ++ [Step.numberRequires]).flatMap
      (Step.scriptEdits subject.source.toList subject.ids s) = Step.edits subject s applyTransforms := by
    cases applyTransforms <;> simp [Step.edits, Step.compilerEdits, Step.scriptEdits] <;> rfl
  unfold transform
  rw [hpipeline, List.foldlM_append, Step.foldlM_onScript hsummary hsteps, hedits]
  exact ⟨_, rfl, rfl, rfl⟩

/-- The code of a script is its source with the edits of the compiler's statements, and with those of the calls of
`require` outside of them, between a head and a tail. -/
theorem exists_replaced {subject : Subject} {s : Summary} (hparse : Summary.parse? subject.source = some s)
    (hsummary : subject.summary = some s) (applyTransforms : Bool) :
    ∃ code replaced, transform .js applyTransforms subject = .ok code ∧
      code.source.toList = (Step.headText subject.basePath).toList ++
        (weave subject.source.toList 0 replaced ++ (Step.tailText subject.source.toList).toList) ∧
      code.map = (SourceMap.lineMap subject.basePath subject.source
        (newlines (Step.headText subject.basePath).toList)).render ∧
      (∀ e ∈ replaced, e.Keeps ⟨subject.source.toList⟩) ∧ replaced.Pairwise (fun a b => a.stop ≤ b.start) ∧
      replaced.Perm (Step.compilerEdits subject.source.toList subject.ids s applyTransforms ++
        (s.requires.filterMap (Step.numbering? subject.source.toList subject.ids)).filter
          (Edit.outside (Step.compilerEdits subject.source.toList subject.ids s applyTransforms))) := by
  have hplaced := Summary.placed_of_parse? hparse
  obtain ⟨program, hprogram, rfl⟩ := Option.map_eq_some_iff.mp hparse
  have hlined : Lined ⟨subject.source.toList⟩ program.body := Program.lined_of_parse? hprogram
  have hkeeps := Step.keeps_edits hplaced applyTransforms
  have hsorted : ∀ e ∈ sortEdits (Step.edits subject (.ofProgram program) applyTransforms),
      e.Keeps ⟨subject.source.toList⟩ := fun e he => hkeeps e ((List.mergeSort_perm _ _).mem_iff.mp he)
  obtain ⟨code, hcode, hsource, hmap⟩ := exists_transform_js hsummary applyTransforms
  refine ⟨code, applied 0 (sortEdits (Step.edits subject (.ofProgram program) applyTransforms)), hcode, ?_, hmap, ?_, ?_,
    (Step.nested hlined applyTransforms).perm_applied⟩
  · rw [hsource, String.append_assoc, String.toList_append, String.toList_append, applyEdits_eq_weave_applied hkeeps]
  · exact fun e he => hsorted e (mem_of_mem_applied he)
  · exact (applied_ascending fun e he => (hsorted e he).ordered).1

/-- The code of a script whose edits stand one behind the other is its source with all of them. -/
theorem exists_woven {subject : Subject} {s : Summary} (hparse : Summary.parse? subject.source = some s)
    (hsummary : subject.summary = some s) (applyTransforms : Bool)
    (hascending : (Step.edits subject s applyTransforms).Pairwise fun a b => a.stop ≤ b.start) :
    ∃ code, transform .js applyTransforms subject = .ok code ∧
      code.source.toList = (Step.headText subject.basePath).toList ++
        (weave subject.source.toList 0 (Step.edits subject s applyTransforms) ++
          (Step.tailText subject.source.toList).toList) := by
  have hkeeps := Step.keeps_edits (Summary.placed_of_parse? hparse) applyTransforms
  obtain ⟨code, hcode, hsource, -⟩ := exists_transform_js hsummary applyTransforms
  have hweave := @applyEdits_eq_weave ⟨subject.source.toList⟩ _ hkeeps hascending
  rw [String.ofList_toList] at hweave
  refine ⟨code, hcode, ?_⟩
  rw [hsource, String.append_assoc, String.toList_append, String.toList_append, hweave]

/-- The code of a script is its source with these replacements: directives of strictness, the marker and the void chain
as wholes, what stands in front of the value of a getter export and what stands behind it, and the strings of calls of
`require` that have an id and lie in none of the others. -/
theorem transform_replaces {subject : Subject} {s : Summary} (hparse : Summary.parse? subject.source = some s)
    (hsummary : subject.summary = some s) : ∃ code replaced, transform .js true subject = .ok code ∧
      code.source.toList = (Step.headText subject.basePath).toList ++
        (weave subject.source.toList 0 replaced ++ (Step.tailText subject.source.toList).toList) ∧
      (∀ e ∈ replaced, e.Keeps ⟨subject.source.toList⟩) ∧ replaced.Pairwise (fun a b => a.stop ≤ b.start) ∧
      replaced.Perm (
        s.useStrict.map (fun span => Edit.replace subject.source.toList span "") ++
        s.marker.toList.map (fun span => Edit.replace subject.source.toList span "__esModule();") ++
        s.voidChain.toList.map (fun span => Edit.replace subject.source.toList span "") ++
        s.getterExports.flatMap (fun e => [
          Edit.replace subject.source.toList e.before
            ("__esExport(" ++ String.ofList (e.name.extract subject.source.toList) ++ ", "),
          Edit.replace subject.source.toList e.behind ");"]) ++
        (s.requires.filter fun call => !s.regions.any call.span.inside).filterMap
          (Step.numbering? subject.source.toList subject.ids)) := by
  obtain ⟨code, replaced, hcode, hsource, -, hkeeps, hascending, hperm⟩ := exists_replaced hparse hsummary true
  refine ⟨code, replaced, hcode, hsource, hkeeps, hascending, hperm.trans (List.Perm.of_eq ?_)⟩
  have houtside : (s.requires.filterMap (Step.numbering? subject.source.toList subject.ids)).filter
      (Edit.outside (Step.compilerEdits subject.source.toList subject.ids s true)) =
      (s.requires.filter fun call => !s.regions.any call.span.inside).filterMap
        (Step.numbering? subject.source.toList subject.ids) := by
    rw [List.filter_filterMap, List.filterMap_filter]
    refine List.filterMap_congr fun call _ => ?_
    cases hedit : Step.numbering? subject.source.toList subject.ids call with
    | none => simp
    | some e => rw [Option.filter_some, Step.outside_compilerEdits hedit, Bool.true_and]
  rw [houtside]
  simp [Step.compilerEdits, Step.compilerSteps, Step.scriptEdits, GetterExport.before, GetterExport.behind]

/-- A script with a getter export, and with calls of `require` in front of its value and in it. -/
def getterText : String :=
  "Object.defineProperty(exports, \"a\", \x7b b: require(\"./b\"), get: function () \x7b return require(\"./c\"); \x7d \x7d);\n"

/-- The script, with ids for both of its specifiers. -/
def getterSubject (s : Summary) : Subject :=
  ⟨⟨"/main.js"⟩, "main.js", getterText, some s, ⟨[("./b", .dense 0), ("./c", .dense 1)]⟩⟩

/-- The call in front of the value is replaced with what stands there, the one in the value gets its id. -/
theorem transform_replaces_getterText : ∃ s code replaced, Summary.parse? getterText = some s ∧
    transform .js true (getterSubject s) = .ok code ∧
      code.source.toList = (Step.headText "main.js").toList ++
        (weave getterText.toList 0 replaced ++ (Step.tailText getterText.toList).toList) ∧
      replaced.Perm [⟨0, 83, "__esExport(\"a\", "⟩, ⟨97, 104, ");"⟩, ⟨91, 96, "1 /* ./c */"⟩] := by
  have hcheck : ∃ cs, getterText.toList = cs ∧ ((Program.parse? .script cs).any fun program : Program =>
      let s := Summary.ofProgram program
      decide (s.useStrict.map (fun span => Edit.replace cs span "") ++
        s.marker.toList.map (fun span => Edit.replace cs span "__esModule();") ++
        s.voidChain.toList.map (fun span => Edit.replace cs span "") ++
        s.getterExports.flatMap (fun e => [
          Edit.replace cs e.before ("__esExport(" ++ String.ofList (e.name.extract cs) ++ ", "),
          Edit.replace cs e.behind ");"]) ++
        (s.requires.filter fun call => !s.regions.any call.span.inside).filterMap
          (Step.numbering? cs (getterSubject s).ids) =
        [⟨0, 83, "__esExport(\"a\", "⟩, ⟨97, 104, ");"⟩, ⟨91, 96, "1 /* ./c */"⟩])) = true :=
    ⟨_, String.toList_ofList, by decide +kernel⟩
  obtain ⟨program, hs, -, hedits⟩ := Summary.exists_of_check hcheck
  obtain ⟨code, replaced, hcode, hsource, -, -, hperm⟩ := @transform_replaces (getterSubject (.ofProgram program)) _ hs rfl
  exact ⟨_, code, replaced, hs, hcode, hsource, hperm.trans (List.Perm.of_eq (of_decide_eq_true hedits))⟩

end Relink
