import Mathlib.Data.List.Pairwise
import Mathlib.Data.List.Nodup
import Relink.Proofs.Documents
import Relink.Proofs.Imports

/-!
# Which edits are applied, and what they do to the lines of a text

* `applied` — the edits that are applied: one that starts inside a replaced span is dropped.
* `applyEdits_eq_weave_applied` — the text of all other places is kept.
* `perm_applied` — where spans are nested, exactly the edits inside replaced spans are dropped.
* `newlines_weaveTo` — the lines of an edited text, counted edit by edit.
* `weave_eq_weaveTo` — an edited text, taken apart at a place between the edits.
-/

namespace Relink

/-! ## Spans -/

namespace Span

/-- Two spans have no character in common. -/
def Apart (a b : Span) : Prop := a.stop ≤ b.start ∨ b.stop ≤ a.start

/-- Whether a span lies inside another one. -/
def inside (a b : Span) : Bool := b.start ≤ a.start && a.stop ≤ b.stop

theorem inside_iff {a b : Span} : a.inside b ↔ b.start ≤ a.start ∧ a.stop ≤ b.stop := by
  simp [inside]

theorem Apart.symm {a b : Span} (h : a.Apart b) : b.Apart a := Or.symm h

instance : Std.Symm Apart := ⟨fun _ _ => Apart.symm⟩

/-- Parts of spans that are apart are apart. -/
theorem Apart.mono {a b a' b' : Span} (h : a.Apart b) (ha : a'.inside a) (hb : b'.inside b) : a'.Apart b' := by
  rw [inside_iff] at ha hb
  unfold Apart at h ⊢
  omega

end Span

/-- The span that an edit replaces. -/
def Edit.span (e : Edit) : Span := ⟨e.start, e.stop⟩

/-! ## Edits that are applied -/

open Place Script Script.CommonJs

variable {text : Source}

/-- The edits that are applied to a text from an offset on; those that start in front of it are dropped. -/
def applied : Nat → List Edit → List Edit
  | _, [] => []
  | cursor, e :: es => if e.start < cursor then applied cursor es else e :: applied e.stop es

theorem mem_of_mem_applied {e : Edit} {cursor : Nat} {es : List Edit} (h : e ∈ applied cursor es) : e ∈ es := by
  fun_induction applied cursor es with
  | case1 => exact h
  | case2 _ _ _ _ ih => exact List.mem_cons_of_mem _ (ih h)
  | case3 _ e' _ _ ih =>
    rcases List.mem_cons.mp h with rfl | h
    · exact List.mem_cons_self
    · exact List.mem_cons_of_mem _ (ih h)

/-- The applied edits stand one behind the other. -/
theorem applied_ascending {cursor : Nat} {es : List Edit} (hes : ∀ e ∈ es, e.start ≤ e.stop) :
    (applied cursor es).Pairwise (fun a b => a.stop ≤ b.start) ∧ ∀ e ∈ applied cursor es, cursor ≤ e.start := by
  fun_induction applied cursor es with
  | case1 => simp
  | case2 _ _ _ _ ih => exact ih (List.forall_mem_cons.mp hes).2
  | case3 cursor e es hle ih =>
    obtain ⟨he, hes⟩ := List.forall_mem_cons.mp hes
    obtain ⟨hascending, hbehind⟩ := ih hes
    refine ⟨List.pairwise_cons.mpr ⟨hbehind, hascending⟩, ?_⟩
    intro e' he'
    rcases List.mem_cons.mp he' with rfl | he'
    · omega
    · have hstop := hbehind e' he'
      omega

/-- Of two edits that overlap, the second one is dropped. -/
example : applied 0 [⟨1, 3, "x"⟩, ⟨2, 5, "y"⟩, ⟨3, 4, "z"⟩] = [⟨1, 3, "x"⟩, ⟨3, 4, "z"⟩] := by decide

/-- Edits that are dropped do nothing. -/
theorem splice_applied (cursor : Nat) (rest : List Char) (es : List Edit) :
    splice cursor rest (applied cursor es) = splice cursor rest es := by
  fun_induction applied cursor es generalizing rest with
  | case1 => rfl
  | case2 cursor e es hlt ih => rw [ih, splice, if_pos hlt]
  | case3 cursor e es hle ih => rw [splice, splice, if_neg hle, if_neg hle, ih]

/-- The edited text is the text with the applied edits; it is kept everywhere else. -/
theorem applyEdits_eq_weave_applied {source : String} {es : List Edit} (hes : ∀ e ∈ es, e.Keeps ⟨source.toList⟩) :
    (applyEdits source es).toList = weave source.toList 0 (applied 0 (sortEdits es)) := by
  have hsorted : ∀ e ∈ sortEdits es, e.Keeps ⟨source.toList⟩ :=
    fun e he => hes e ((List.mergeSort_perm _ _).mem_iff.mp he)
  obtain ⟨hascending, hbehind⟩ := @applied_ascending 0 _ fun e he => (hsorted e he).ordered
  unfold applyEdits
  rw [String.toList_ofList, ← splice_applied]
  exact @splice_eq_weave ⟨source.toList⟩ _ (fun e he => hsorted e (mem_of_mem_applied he)) hascending _ (Leads.refl _)
    hbehind

/-- Edits with a property are the applied ones, if they stand one behind the other and each of the others starts
inside a span that one of them has replaced. -/
theorem applied_eq_filter {α : Type} (edit : α → Edit) (p : α → Bool) {as : List α} {cursor : Nat}
    (hordered : ∀ a ∈ as, (edit a).start ≤ (edit a).stop)
    (hascending : (as.filter p).Pairwise fun a b => (edit a).stop ≤ (edit b).start)
    (hcursor : ∀ a ∈ as.filter p, cursor ≤ (edit a).start)
    (hdropped : ∀ front a back, as = front ++ a :: back → p a = false →
      (edit a).start < cursor ∨ ∃ b ∈ front, p b = true ∧ (edit a).start < (edit b).stop) :
    applied cursor (as.map edit) = (as.filter p).map edit := by
  induction as generalizing cursor with
  | nil => rfl
  | cons a as ih =>
    obtain ⟨ha, hordered⟩ := List.forall_mem_cons.mp hordered
    rw [List.map_cons, applied]
    cases hp : p a with
    | true =>
      rw [List.filter_cons_of_pos hp] at hascending hcursor ⊢
      obtain ⟨hbehind, hascending⟩ := List.pairwise_cons.mp hascending
      have hle := hcursor a List.mem_cons_self
      rw [if_neg (by omega), List.map_cons]
      congr 1
      refine ih hordered hascending hbehind ?_
      rintro front b back rfl hb
      rcases hdropped (a :: front) b back rfl hb with hlt | ⟨r, hr, hpr, hlt⟩
      · left
        omega
      · rcases List.mem_cons.mp hr with rfl | hr
        · exact Or.inl hlt
        · exact Or.inr ⟨r, hr, hpr, hlt⟩
    | false =>
      have hnot : ¬p a = true := by simp [hp]
      rw [List.filter_cons_of_neg hnot] at hascending hcursor ⊢
      have hlt : (edit a).start < cursor := by
        rcases hdropped [] a as rfl hp with hlt | ⟨r, hr, -⟩
        · exact hlt
        · cases hr
      rw [if_pos hlt]
      refine ih hordered hascending hcursor ?_
      rintro front b back rfl hb
      rcases hdropped (a :: front) b back rfl hb with hlt | ⟨r, hr, hpr, hlt⟩
      · exact Or.inl hlt
      · rcases List.mem_cons.mp hr with rfl | hr
        · exact absurd hpr hnot
        · exact Or.inr ⟨r, hr, hpr, hlt⟩

/-- Of two elements in a row without repetitions, the first one stands in front of the second one. -/
theorem mem_of_pair_sublist {α : Type} {a b : α} {front back : List α} (h : [a, b].Sublist (front ++ b :: back))
    (hnodup : (front ++ b :: back).Nodup) (hne : a ≠ b) : a ∈ front := by
  obtain ⟨l, r, hlr, hl, hr⟩ := List.sublist_append_iff.mp h
  cases l with
  | nil =>
    rw [List.nil_append] at hlr
    subst hlr
    cases hr with
    | cons _ hr =>
      have hb : b ∈ back := hr.subset (by simp)
      have hfront := (List.nodup_append.mp hnodup).2.1
      exact absurd hb (List.nodup_cons.mp hfront).1
    | cons_cons _ hr => exact absurd rfl hne
  | cons x l =>
    obtain ⟨rfl, -⟩ := List.cons.inj hlr
    exact hl.subset List.mem_cons_self

/-! ## Nested edits -/

/-- Some edits have no character in common; others have none in common with each other, and each of them lies inside
one of the former or has no character in common with any of them. -/
structure Nested (regions others : List Edit) : Prop where
  solid : ∀ e ∈ regions ++ others, e.start < e.stop
  regionsApart : regions.Pairwise fun a b => a.span.Apart b.span
  othersApart : others.Pairwise fun a b => a.span.Apart b.span
  nested : ∀ e ∈ others, ∀ r ∈ regions, e.span.inside r.span ∨ e.span.Apart r.span

/-- Whether an edit lies outside of others. -/
def Edit.outside (regions : List Edit) (e : Edit) : Bool := !regions.any fun r => e.span.inside r.span

/-- Edits of two kinds, each with a mark that says whether it is of the first kind: so it is told from an equal edit
of the other kind. -/
abbrev Marked := Bool × Edit

def mark (regions others : List Edit) : List Marked := regions.map (Prod.mk true) ++ others.map (Prod.mk false)

/-- The order of edits. -/
def Marked.startsFirst (a b : Marked) : Bool := a.2.start ≤ b.2.start

/-- Whether an edit is to be applied. -/
def Marked.stays (regions : List Edit) (a : Marked) : Bool := a.1 || a.2.outside regions

theorem map_mark (regions others : List Edit) : (mark regions others).map Prod.snd = regions ++ others := by
  simp [mark, Function.comp_def]

theorem filter_stays_mark (regions others : List Edit) : (mark regions others).filter (Marked.stays regions) =
    mark regions (others.filter (Edit.outside regions)) := by
  have htrue : (regions.map (Prod.mk true)).filter (Marked.stays regions) = regions.map (Prod.mk true) := by
    rw [List.filter_eq_self]
    intro a ha
    obtain ⟨e, -, rfl⟩ := List.mem_map.mp ha
    rfl
  rw [mark, List.filter_append, htrue, List.filter_map, mark]
  rfl

theorem startsFirst_trans (a b c : Marked) (hab : a.startsFirst b) (hbc : b.startsFirst c) : a.startsFirst c :=
  decide_eq_true (Nat.le_trans (of_decide_eq_true hab) (of_decide_eq_true hbc))

theorem startsFirst_total (a b : Marked) : a.startsFirst b || b.startsFirst a := by
  simpa [Marked.startsFirst] using Nat.le_total a.2.start b.2.start

/-- Edits in their order, with their marks. -/
def sortMarked (as : List Marked) : List Marked := as.mergeSort Marked.startsFirst

theorem sortMarked_perm (as : List Marked) : (sortMarked as).Perm as := List.mergeSort_perm _ _

theorem sortEdits_map (as : List Marked) : sortEdits (as.map Prod.snd) = (sortMarked as).map Prod.snd :=
  (List.map_mergeSort (f := Prod.snd) (r := Marked.startsFirst) fun _ _ _ _ => rfl).symm

namespace Nested

variable {regions others : List Edit}

theorem solid_of_mem_mark (h : Nested regions others) {a : Marked} (ha : a ∈ mark regions others) :
    a.2.start < a.2.stop :=
  h.solid a.2 (map_mark regions others ▸ List.mem_map_of_mem ha)

/-- Edits that are to be applied have no character in common. -/
theorem apart (h : Nested regions others) :
    (mark regions (others.filter (Edit.outside regions))).Pairwise fun a b => a.2.span.Apart b.2.span := by
  rw [mark, List.pairwise_append, List.pairwise_map, List.pairwise_map]
  refine ⟨h.regionsApart, h.othersApart.sublist List.filter_sublist, ?_⟩
  intro a ha b hb
  obtain ⟨r, hr, rfl⟩ := List.mem_map.mp ha
  obtain ⟨e, he, rfl⟩ := List.mem_map.mp hb
  obtain ⟨he, hout⟩ := List.mem_filter.mp he
  rcases h.nested e he r hr with hinside | hapart
  · have hany : regions.any (fun r => e.span.inside r.span) = true := List.any_eq_true.mpr ⟨r, hr, hinside⟩
    simp [Edit.outside, hany] at hout
  · exact hapart.symm

/-- In their order, edits that are to be applied stand one behind the other. -/
theorem ascending (h : Nested regions others) :
    ((sortMarked (mark regions others)).filter (Marked.stays regions)).Pairwise fun a b => a.2.stop ≤ b.2.start := by
  have hperm := sortMarked_perm (mark regions others)
  have hapart : ((sortMarked (mark regions others)).filter (Marked.stays regions)).Pairwise fun a b =>
      a.2.span.Apart b.2.span :=
    (hperm.filter _).symm.pairwise (filter_stays_mark regions others ▸ h.apart) Span.Apart.symm
  have hstarts : ((sortMarked (mark regions others)).filter (Marked.stays regions)).Pairwise fun a b =>
      a.startsFirst b = true :=
    (List.pairwise_mergeSort startsFirst_trans startsFirst_total _).sublist List.filter_sublist
  refine (hapart.and hstarts).imp_of_mem ?_
  intro a b ha hb hab
  have ha := h.solid_of_mem_mark (hperm.mem_iff.mp (List.mem_of_mem_filter ha))
  have hb := h.solid_of_mem_mark (hperm.mem_iff.mp (List.mem_of_mem_filter hb))
  have hstart : a.2.start ≤ b.2.start := of_decide_eq_true hab.2
  rcases hab.1 with hab | hba
  · exact hab
  · have hba : b.2.stop ≤ a.2.start := hba
    omega

theorem nodup (h : Nested regions others) : (mark regions others).Nodup := by
  have hsplit : ∀ es : List Edit, (∀ e ∈ es, e.start < e.stop) → es.Pairwise (fun a b => a.span.Apart b.span) →
      es.Nodup := by
    intro es hsolid hapart
    refine hapart.imp_of_mem ?_
    rintro a b ha - hab rfl
    have ha := hsolid a ha
    have hab : a.stop ≤ a.start := hab.elim id id
    omega
  obtain ⟨hsolidRegions, hsolidOthers⟩ := List.forall_mem_append.mp h.solid
  refine List.nodup_append.mpr ⟨?_, ?_, ?_⟩
  · exact (hsplit regions hsolidRegions h.regionsApart).map (Prod.mk_right_injective true)
  · exact (hsplit others hsolidOthers h.othersApart).map (Prod.mk_right_injective false)
  · rintro a ha b hb rfl
    obtain ⟨r, -, rfl⟩ := List.mem_map.mp ha
    obtain ⟨e, -, he⟩ := List.mem_map.mp hb
    cases he

/-- An edit that is not to be applied starts inside a span that an edit in front of it replaces. -/
theorem exists_region (h : Nested regions others) {front back : List Marked} {a : Marked}
    (hsplit : sortMarked (mark regions others) = front ++ a :: back) (ha : a.stays regions = false) :
    ∃ b ∈ front, b.stays regions = true ∧ a.2.start < b.2.stop := by
  have hperm := sortMarked_perm (mark regions others)
  obtain ⟨kind, e⟩ := a
  obtain ⟨rfl, hout⟩ : kind = false ∧ e.outside regions = false := by simpa [Marked.stays] using ha
  obtain ⟨r, hr, hinside⟩ : ∃ r ∈ regions, e.span.inside r.span := by simpa [Edit.outside] using hout
  rw [Span.inside_iff] at hinside
  have he : (false, e) ∈ sortMarked (mark regions others) := by simp [hsplit]
  have he : e ∈ others := by simpa [mark] using hperm.mem_iff.mp he
  -- with equal starts, the order of the list decides
  have hpair : [(true, r), (false, e)].Sublist (sortMarked (mark regions others)) := by
    refine List.pair_sublist_mergeSort startsFirst_trans startsFirst_total (decide_eq_true hinside.1) ?_
    exact List.Sublist.append (List.singleton_sublist.mpr (List.mem_map_of_mem hr))
      (List.singleton_sublist.mpr (List.mem_map_of_mem he))
  have hnodup := hperm.nodup_iff.mpr h.nodup
  rw [hsplit] at hpair hnodup
  refine ⟨(true, r), mem_of_pair_sublist hpair hnodup (by simp), rfl, ?_⟩
  have hlt := h.solid e (List.mem_append_right _ he)
  exact Nat.lt_of_lt_of_le hlt hinside.2

/-- Exactly the edits that lie inside replaced spans are dropped. -/
theorem perm_applied (h : Nested regions others) :
    (applied 0 (sortEdits (regions ++ others))).Perm (regions ++ others.filter (Edit.outside regions)) := by
  have hperm := sortMarked_perm (mark regions others)
  have happlied : applied 0 ((sortMarked (mark regions others)).map Prod.snd) =
      ((sortMarked (mark regions others)).filter (Marked.stays regions)).map Prod.snd := by
    refine applied_eq_filter Prod.snd _ ?_ h.ascending (fun _ _ => Nat.zero_le _) ?_
    · exact fun a ha => Nat.le_of_lt (h.solid_of_mem_mark (hperm.mem_iff.mp ha))
    · exact fun front a back hsplit ha => Or.inr (h.exists_region hsplit ha)
  rw [← map_mark, sortEdits_map, happlied, ← map_mark, ← filter_stays_mark]
  exact (hperm.filter _).map Prod.snd

end Nested

/-! ## Lines -/

theorem Script.Cut.le_byteLength {o : Nat} (h : Cut text o) : o ≤ byteLength text.chars := by
  obtain ⟨p, ⟨front, htext, hoffset⟩, rfl⟩ := h
  have htext : text.chars = front ++ p.rest := htext
  have hoffset : p.offset = 0 + byteLength front := hoffset
  rw [hoffset, htext, byteLength_append]
  omega

/-- A stretch of a text, taken apart at a place of it. -/
theorem extract_append {a b c : Nat} (ha : Cut text a) (hb : Cut text b) (hc : Cut text c) (hab : a ≤ b) (hbc : b ≤ c) :
    Span.extract ⟨a, c⟩ text.chars = Span.extract ⟨a, b⟩ text.chars ++ Span.extract ⟨b, c⟩ text.chars := by
  obtain ⟨p, hp, rfl⟩ := ha
  obtain ⟨q, hq, rfl⟩ := hb
  obtain ⟨r, hr, rfl⟩ := hc
  obtain ⟨front, hfront, hfront'⟩ := hp.of_offset_le hq hab
  obtain ⟨back, hback, hback'⟩ := hq.of_offset_le hr hbc
  rw [extract_of_leads hp hfront hfront', extract_of_leads hq hback hback']
  refine extract_of_leads hp ?_ ?_
  · rw [hfront, hback, List.append_assoc]
  · rw [hback', hfront', byteLength_append, Nat.add_assoc]

/-- The new text of an edit has as many lines as what it replaces. -/
def Edit.IsEven (source : List Char) (e : Edit) : Prop := newlines e.text.toList = newlines (e.span.extract source)

/-- An edit keeps the number of lines if and only if its text has no more lines than what it replaces. -/
theorem isEven_replace {source : List Char} {span : Span} {new : String} :
    (Edit.replace source span new).IsEven source ↔ newlines new.toList ≤ newlines (span.extract source) := by
  obtain ⟨start, stop⟩ := span
  unfold Edit.IsEven Edit.span Edit.replace
  simp only [String.toList_append, String.toList_ofList, newlines_append, newlines_replicate]
  omega

/-- An edited text has the lines of the text, if each edit keeps their number, and more lines otherwise. -/
theorem newlines_weaveTo {es : List Edit} (hes : ∀ e ∈ es, e.Keeps text)
    (hascending : es.Pairwise fun a b => a.stop ≤ b.start) {a b : Nat} (ha : Cut text a) (hb : Cut text b) (hab : a ≤ b)
    (hbehind : ∀ e ∈ es, a ≤ e.start) (hbefore : ∀ e ∈ es, e.stop ≤ b) :
    newlines (Span.extract ⟨a, b⟩ text.chars) ≤ newlines (weaveTo text.chars b a es) ∧
      (newlines (weaveTo text.chars b a es) = newlines (Span.extract ⟨a, b⟩ text.chars) ↔
        ∀ e ∈ es, e.IsEven text.chars) := by
  induction es generalizing a with
  | nil => simp [weaveTo]
  | cons e es ih =>
    obtain ⟨he, hes⟩ := List.forall_mem_cons.mp hes
    obtain ⟨hafter, hascending⟩ := List.pairwise_cons.mp hascending
    obtain ⟨hstart, -⟩ := List.forall_mem_cons.mp hbehind
    obtain ⟨hstop, hbefore⟩ := List.forall_mem_cons.mp hbefore
    obtain ⟨hle, hiff⟩ := ih hes hascending he.stop hstop hafter hbefore
    have hlines : newlines (e.span.extract text.chars) ≤ newlines e.text.toList := he.lines
    rw [extract_append ha he.start hb hstart (he.ordered.trans hstop), extract_append he.start he.stop hb he.ordered hstop,
      List.forall_mem_cons, ← hiff, weaveTo]
    simp only [newlines_append]
    unfold Edit.IsEven
    change newlines (Span.extract ⟨e.start, e.stop⟩ text.chars) ≤ _ at hlines
    change _ ∧ (_ ↔ newlines e.text.toList = newlines (Span.extract ⟨e.start, e.stop⟩ text.chars) ∧ _)
    constructor
    · omega
    · constructor
      · intro htotal
        omega
      · rintro ⟨heven, hrest⟩
        omega

theorem weave_eq_weaveTo_byteLength (source : List Char) (cursor : Nat) (es : List Edit) :
    weave source cursor es = weaveTo source (byteLength source) cursor es := by
  induction es generalizing cursor with
  | nil => rfl
  | cons e es ih => rw [weave, weaveTo, ih]

/-- An edited text, taken apart at a place that no edit replaces. -/
theorem weave_eq_weaveTo {es es' : List Edit} (hes : ∀ e ∈ es ++ es', e.Keeps text)
    (hascending : (es ++ es').Pairwise fun a b => a.stop ≤ b.start) {a b : Nat} (ha : Cut text a) (hb : Cut text b)
    (hab : a ≤ b) (hbehind : ∀ e ∈ es, a ≤ e.start) (hbefore : ∀ e ∈ es, e.stop ≤ b) (hafter : ∀ e ∈ es', b ≤ e.start) :
    weave text.chars a (es ++ es') = weaveTo text.chars b a es ++ weave text.chars b es' := by
  induction es generalizing a with
  | nil =>
    rw [List.nil_append, weaveTo]
    cases es' with
    | nil =>
      have hend : Cut text (byteLength text.chars) := Step.cut_byteLength
      exact extract_append ha hb hend hab hb.le_byteLength
    | cons e es' =>
      obtain ⟨he, -⟩ := List.forall_mem_cons.mp hes
      obtain ⟨hle, -⟩ := List.forall_mem_cons.mp hafter
      rw [weave, weave, extract_append ha hb he.start hab hle, List.append_assoc]
  | cons e es ih =>
    rw [List.cons_append] at hes hascending
    obtain ⟨he, hes⟩ := List.forall_mem_cons.mp hes
    obtain ⟨hnext, hascending⟩ := List.pairwise_cons.mp hascending
    obtain ⟨hstop, hbefore⟩ := List.forall_mem_cons.mp hbefore
    rw [List.cons_append, weave, weaveTo, ih hes hascending he.stop hstop
      (fun e' he' => hnext e' (List.mem_append_left _ he')) hbefore, List.append_assoc, List.append_assoc]

/-! ## Characters -/

section Characters

variable {front back : List Char} {c : Char}

theorem leads_front (h : text.chars = front ++ c :: back) : Leads (first text.chars) ⟨byteLength front, c :: back⟩ :=
  ⟨front, h, (Nat.zero_add _).symm⟩

theorem leads_behind (h : text.chars = front ++ c :: back) :
    Leads (first text.chars) ⟨byteLength front + c.utf8Size, back⟩ :=
  (leads_front h).trans ((Leads.refl _).cons rfl)

/-- Behind a place of a text, the next place is the one behind a character. -/
theorem Script.Cut.le_of_lt {o : Nat} (h : Cut text o) (htext : text.chars = front ++ c :: back)
    (hlt : byteLength front < o) : byteLength front + c.utf8Size ≤ o := by
  obtain ⟨p, hp, rfl⟩ := h
  obtain ⟨passed, hrest, hoffset⟩ := (leads_front htext).of_offset_le hp (Nat.le_of_lt hlt)
  have hrest : c :: back = passed ++ p.rest := hrest
  have hoffset : p.offset = byteLength front + byteLength passed := hoffset
  cases passed with
  | nil =>
    rw [hoffset] at hlt
    exact absurd hlt (Nat.lt_irrefl _)
  | cons d passed =>
    obtain ⟨rfl, -⟩ := List.cons.inj hrest
    rw [hoffset, byteLength]
    omega

/-- Edits that stand one behind the other, and none of which replaces a character, are those that end in front of it
and then those that start behind it. -/
theorem filter_append_filter_not {es : List Edit} {o : Nat} (hordered : ∀ e ∈ es, e.start ≤ e.stop)
    (hascending : es.Pairwise fun a b => a.stop ≤ b.start) (hspares : ∀ e ∈ es, e.stop ≤ o ∨ o < e.start) :
    es = es.filter (·.stop ≤ o) ++ es.filter fun e => !decide (e.stop ≤ o) := by
  induction es with
  | nil => rfl
  | cons e es ih =>
    obtain ⟨he, hordered⟩ := List.forall_mem_cons.mp hordered
    obtain ⟨hafter, hascending⟩ := List.pairwise_cons.mp hascending
    obtain ⟨hspare, hspares⟩ := List.forall_mem_cons.mp hspares
    by_cases hstop : e.stop ≤ o
    · rw [List.filter_cons_of_pos (by simpa using hstop), List.filter_cons_of_neg (by simpa using hstop), List.cons_append,
        ← ih hordered hascending hspares]
    · have hlater : ∀ e' ∈ es, ¬e'.stop ≤ o := by
        intro e' he'
        have hstart := hafter e' he'
        have hle := hordered e' he'
        omega
      have hnone : es.filter (·.stop ≤ o) = [] := by
        rw [List.filter_eq_nil_iff]
        exact fun e' he' => by simpa using hlater e' he'
      have hall : es.filter (fun e => !decide (e.stop ≤ o)) = es := by
        rw [List.filter_eq_self]
        exact fun e' he' => by simpa using hlater e' he'
      rw [List.filter_cons_of_neg (by simpa using hstop), List.filter_cons_of_pos (by simpa using hstop), hnone, hall,
        List.nil_append]

/-- What is printed in front of an offset of a text: its front, with the edits that end there. -/
def printedBefore (source : List Char) (es : List Edit) (o : Nat) : List Char :=
  weaveTo source o 0 (es.filter (·.stop ≤ o))

/-- A character that no edit replaces is printed. -/
theorem exists_printed {es : List Edit} (hes : ∀ e ∈ es, e.Keeps text)
    (hascending : es.Pairwise fun a b => a.stop ≤ b.start) (htext : text.chars = front ++ c :: back)
    (hspares : ∀ e ∈ es, e.stop ≤ byteLength front ∨ byteLength front < e.start) :
    ∃ after, weave text.chars 0 es = printedBefore text.chars es (byteLength front) ++ c :: after := by
  have hfront : Cut text (byteLength front) := ⟨_, leads_front htext, rfl⟩
  have hbehind : Cut text (byteLength front + c.utf8Size) := ⟨_, leads_behind htext, rfl⟩
  have hordered : ∀ e ∈ es, e.start ≤ e.stop := fun e he => (hes e he).ordered
  have hsplit := filter_append_filter_not hordered hascending hspares
  generalize hbefore : es.filter (·.stop ≤ byteLength front) = before at hsplit
  generalize hafter : es.filter (fun e => !decide (e.stop ≤ byteLength front)) = after at hsplit
  have hlater : ∀ e ∈ after, byteLength front + c.utf8Size ≤ e.start := by
    intro e he
    rw [← hafter] at he
    obtain ⟨he, hstop⟩ := List.mem_filter.mp he
    have hstop : ¬e.stop ≤ byteLength front := by simpa using hstop
    exact (hes e he).start.le_of_lt htext ((hspares e he).resolve_left hstop)
  have hearlier : ∀ e ∈ before, e.stop ≤ byteLength front := by
    intro e he
    rw [← hbefore] at he
    exact of_decide_eq_true (List.mem_filter.mp he).2
  rw [hsplit] at hes hascending
  have hfirst := weave_eq_weaveTo hes hascending Step.cut_zero hfront (Nat.zero_le _) (fun _ _ => Nat.zero_le _) hearlier
    fun e he => Nat.le_trans (Nat.le_add_right _ _) (hlater e he)
  have hsecond := @weave_eq_weaveTo text [] after (fun e he => hes e (List.mem_append_right _ he))
    (List.pairwise_append.mp hascending).2.1 _ _ hfront hbehind (Nat.le_add_right _ _) (by simp) (by simp) hlater
  have hchar : Span.extract ⟨byteLength front, byteLength front + c.utf8Size⟩ text.chars = [c] :=
    extract_of_leads (leads_front htext) (q := ⟨byteLength front + c.utf8Size, back⟩) rfl (by simp [byteLength])
  rw [List.nil_append, weaveTo, hchar] at hsecond
  refine ⟨weave text.chars (byteLength front + c.utf8Size) after, ?_⟩
  rw [printedBefore, hbefore, hsplit, hfirst, hsecond]
  rfl

end Characters

/-! ## Texts that keep their lines -/

/-- A printed text has the lines of what stands before the source, of the source and of what stands behind it, and
each character of the source that no edit replaces stands on its line, counted behind the lines in front of the
source. -/
structure KeepsLines (head source tail : List Char) (es : List Edit) (printed : List Char) : Prop where
  total : newlines printed = newlines head + newlines source + newlines tail
  kept : ∀ front c back, source = front ++ c :: back →
    (∀ e ∈ es, e.stop ≤ byteLength front ∨ byteLength front < e.start) →
    ∃ after, printed = head ++ printedBefore source es (byteLength front) ++ c :: after ∧
      newlines (head ++ printedBefore source es (byteLength front)) = newlines head + newlines front

/-- A text keeps its lines if and only if each edit does. -/
theorem keepsLines_iff {head tail : List Char} {es : List Edit} (hes : ∀ e ∈ es, e.Keeps text)
    (hascending : es.Pairwise fun a b => a.stop ≤ b.start) :
    KeepsLines head text.chars tail es (head ++ (weave text.chars 0 es ++ tail)) ↔ ∀ e ∈ es, e.IsEven text.chars := by
  have hwhole : Span.extract ⟨0, byteLength text.chars⟩ text.chars = text.chars :=
    extract_of_leads (Leads.refl (first text.chars)) (q := ⟨byteLength text.chars, []⟩) (List.append_nil _).symm
      (by simp [first])
  have htotal := (newlines_weaveTo hes hascending Step.cut_zero Step.cut_byteLength (Nat.zero_le _)
    (fun _ _ => Nat.zero_le _) fun e he => (hes e he).stop.le_byteLength).2
  rw [← weave_eq_weaveTo_byteLength, hwhole] at htotal
  constructor
  · intro h
    have hlines := h.total
    simp only [newlines_append] at hlines
    exact htotal.mp (by omega)
  · intro heven
    constructor
    · have hlines := htotal.mpr heven
      simp only [newlines_append]
      omega
    · intro front c back htext hspares
      obtain ⟨after, hprinted⟩ := exists_printed hes hascending htext hspares
      have hfront : Cut text (byteLength front) := ⟨_, leads_front htext, rfl⟩
      have hbefore := (@newlines_weaveTo text (es.filter (·.stop ≤ byteLength front))
        (fun e he => hes e (List.mem_of_mem_filter he)) (hascending.sublist List.filter_sublist) _ _ Step.cut_zero hfront
        (Nat.zero_le _) (fun _ _ => Nat.zero_le _) fun e he => of_decide_eq_true (List.mem_filter.mp he).2).2.mpr
        fun e he => heven e (List.mem_of_mem_filter he)
      have hextract : Span.extract ⟨0, byteLength front⟩ text.chars = front :=
        extract_of_leads (Leads.refl (first text.chars)) (q := ⟨byteLength front, c :: back⟩) htext (by simp [first])
      refine ⟨after ++ tail, ?_, ?_⟩
      · rw [hprinted]
        simp
      · rw [newlines_append, printedBefore, hbefore, hextract]

end Relink
