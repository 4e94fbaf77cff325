import Relink.Proofs.Weaving

/-!
# What edits make of a text

* `edited` — a text with edits, character by character.
* `greedy` — the edits that are kept: each of them starts where those before it have ended, or behind that.
* `Edit.InOrder` — edits in the order of their starts; those that start together keep their order.
* `applyEdits_eq_edited` — applying edits gives the text with those that are kept. Edits that are apart are all kept, and
  their order does not matter.
-/

namespace Relink

open Place Script

variable {text : Source}

/-! ## Edited texts -/

namespace Edit

/-- Whether an edit takes away the character at an offset. -/
def removes (o : Nat) (e : Edit) : Bool := e.start ≤ o && o < e.stop

/-- What edits put in front of the character at an offset. -/
def textsAt (o : Nat) (es : List Edit) : List Char := (es.filter (·.start == o)).flatMap (·.text.toList)

theorem textsAt_eq_nil {o : Nat} {es : List Edit} (h : ∀ e ∈ es, e.start ≠ o) : textsAt o es = [] := by
  have hnone : es.filter (·.start == o) = [] := List.filter_eq_nil_iff.mpr fun e he => by simpa using h e he
  rw [textsAt, hnone, List.flatMap_nil]

theorem textsAt_cons_self (e : Edit) (es : List Edit) : textsAt e.start (e :: es) = e.text.toList ++ textsAt e.start es := by
  simp [textsAt]

theorem textsAt_cons_of_ne {o : Nat} {e : Edit} (h : e.start ≠ o) (es : List Edit) : textsAt o (e :: es) = textsAt o es := by
  simp [textsAt, h]

end Edit

/-- A text with edits, from an offset on: in front of each character stands what edits put there, and the character
itself stays, once, unless an edit takes it away. -/
def edited (es : List Edit) : Nat → List Char → List Char
  | o, [] => Edit.textsAt o es
  | o, c :: cs =>
    Edit.textsAt o es ++ ((if es.any (·.removes o) then [] else [c]) ++ edited es (o + c.utf8Size) cs)

/-- A stretch of a text in which no edit starts or has started is kept. -/
theorem edited_append {es : List Edit} {o : Nat} (front rest : List Char) (h : ∀ e ∈ es, o + byteLength front ≤ e.start) :
    edited es o (front ++ rest) = front ++ edited es (o + byteLength front) rest := by
  induction front generalizing o with
  | nil => rfl
  | cons c cs ih =>
    have hpos := Char.utf8Size_pos c
    have hsize : o + byteLength (c :: cs) = o + c.utf8Size + byteLength cs := by
      rw [byteLength]
      omega
    rw [hsize] at h ⊢
    have hnone : Edit.textsAt o es = [] := Edit.textsAt_eq_nil fun e he => by have := h e he; omega
    have hstays : es.any (·.removes o) = false := by
      rw [List.any_eq_false]
      intro e he
      have hstart := h e he
      simp only [Edit.removes, Bool.and_eq_true, decide_eq_true_eq]
      omega
    rw [List.cons_append, edited, hnone, hstays, ih h]
    rfl

/-- Behind its span, an edit does nothing. -/
theorem edited_cons_of_lt {e : Edit} {o : Nat} (hstart : e.start < o) (hstop : e.stop ≤ o) (es : List Edit)
    (cs : List Char) : edited (e :: es) o cs = edited es o cs := by
  induction cs generalizing o with
  | nil => exact Edit.textsAt_cons_of_ne (Nat.ne_of_lt hstart) es
  | cons c cs ih =>
    have hremoves : e.removes o = false := by
      rw [Edit.removes, Bool.and_eq_false_iff]
      exact Or.inr (decide_eq_false (Nat.not_lt.mpr hstop))
    rw [edited, edited, Edit.textsAt_cons_of_ne (Nat.ne_of_lt hstart), List.any_cons, hremoves, Bool.false_or,
      ih (by omega) (by omega)]

/-- The rest of a stretch that an edit takes away. -/
theorem edited_removed {e : Edit} {es : List Edit} {o : Nat} (hstart : e.start < o) (removed rest : List Char)
    (hstop : e.stop = o + byteLength removed) (hes : ∀ e' ∈ es, e.stop ≤ e'.start) :
    edited (e :: es) o (removed ++ rest) = edited es e.stop rest := by
  induction removed generalizing o with
  | nil =>
    obtain rfl : e.stop = o := hstop
    exact edited_cons_of_lt hstart (Nat.le_refl _) es rest
  | cons c cs ih =>
    have hpos := Char.utf8Size_pos c
    rw [byteLength] at hstop
    have hnone : Edit.textsAt o (e :: es) = [] := by
      refine Edit.textsAt_eq_nil (List.forall_mem_cons.mpr ⟨Nat.ne_of_lt hstart, fun e' he' => ?_⟩)
      have hafter := hes e' he'
      omega
    have hremoves : e.removes o = true := by
      rw [Edit.removes, Bool.and_eq_true, decide_eq_true_eq, decide_eq_true_eq]
      omega
    rw [List.cons_append, edited, hnone, List.any_cons, hremoves, Bool.true_or, if_pos rfl, List.nil_append,
      List.nil_append, ih (by omega) (by omega)]

/-- Where an edit starts, its text stands in place of its span. -/
theorem edited_cons {e : Edit} {es : List Edit} (replaced rest : List Char) (hstop : e.stop = e.start + byteLength replaced)
    (hes : ∀ e' ∈ es, e.stop ≤ e'.start) :
    edited (e :: es) e.start (replaced ++ rest) = e.text.toList ++ edited es e.stop rest := by
  cases replaced with
  | nil =>
    -- an insertion, maybe in front of others at the same place
    have hplace : e.stop = e.start := hstop
    rw [List.nil_append, hplace]
    cases rest with
    | nil => exact Edit.textsAt_cons_self e es
    | cons c cs =>
      have hpos := Char.utf8Size_pos c
      have hremoves : e.removes e.start = false := by simp [Edit.removes, hplace]
      rw [edited, edited, Edit.textsAt_cons_self, List.any_cons, hremoves, Bool.false_or,
        edited_cons_of_lt (by omega) (by omega), List.append_assoc]
  | cons c cs =>
    have hpos := Char.utf8Size_pos c
    rw [byteLength] at hstop
    have hnone : Edit.textsAt e.start es = [] := Edit.textsAt_eq_nil fun e' he' => by have := hes e' he'; omega
    have hremoves : e.removes e.start = true := by
      rw [Edit.removes, Bool.and_eq_true, decide_eq_true_eq, decide_eq_true_eq]
      omega
    rw [List.cons_append, edited, Edit.textsAt_cons_self, hnone, List.any_cons, hremoves, Bool.true_or, if_pos rfl,
      List.append_nil, List.nil_append, edited_removed (by omega) cs rest (by omega) hes]

/-- Edits that stand one behind the other, applied from a place of the text on. -/
theorem splice_eq_edited {es : List Edit} (hes : ∀ e ∈ es, e.span.Placed text)
    (hascending : es.Pairwise fun a b => a.stop ≤ b.start) {p : Place} (hp : Leads (first text.chars) p)
    (hbehind : ∀ e ∈ es, p.offset ≤ e.start) : splice p.offset p.rest es = edited es p.offset p.rest := by
  induction es generalizing p with
  | nil =>
    have hnone := @edited_append [] p.offset p.rest [] (by simp)
    rw [List.append_nil] at hnone
    rw [splice, hnone, edited, Edit.textsAt_eq_nil (by simp), List.append_nil]
  | cons e es ih =>
    obtain ⟨he, hes⟩ := List.forall_mem_cons.mp hes
    obtain ⟨hafter, hascending⟩ := List.pairwise_cons.mp hascending
    have hle := hbehind e List.mem_cons_self
    have hordered : e.start ≤ e.stop := he.ordered
    obtain ⟨front, replaced, r, hr, hstop, hrest, hstart, hstop', -, -⟩ := exists_cut_twice hordered he.start he.stop hp hle
    have hlater := ih hes hascending hr fun e' he' => hstop ▸ hafter e' he'
    have hfront : ∀ e' ∈ e :: es, p.offset + byteLength front ≤ e'.start := by
      refine List.forall_mem_cons.mpr ⟨Nat.le_of_eq hstart.symm, fun e' he' => ?_⟩
      have hbefore := hafter e' he'
      omega
    have htake : takeBytes (e.start - p.offset) p.rest = front := by
      rw [hrest, show e.start - p.offset = byteLength front by omega, takeBytes_append]
    have hdrop : dropBytes (e.stop - p.offset) p.rest = r.rest := by
      have hlength : e.stop - p.offset = byteLength (front ++ replaced) := by
        rw [byteLength_append]
        omega
      rw [hrest, hlength, ← List.append_assoc, dropBytes_append]
    calc splice p.offset p.rest (e :: es)
        = front ++ e.text.toList ++ splice e.stop r.rest es := by rw [splice, if_neg (by omega), htake, hdrop]
      _ = front ++ (e.text.toList ++ edited es e.stop r.rest) := by rw [← hstop, hlater, List.append_assoc]
      _ = front ++ edited (e :: es) e.start (replaced ++ r.rest) := by rw [edited_cons replaced r.rest hstop' hafter]
      _ = edited (e :: es) p.offset p.rest := by rw [hrest, edited_append front _ hfront, hstart]

/-! ## Edits that are kept -/

/-- The edits that are kept when they are taken up in their order: an edit is kept if it starts at the end of each that
has been kept before it, or behind that end. -/
def greedy (es : List Edit) : List Edit :=
  es.foldl (fun kept e => if kept.all (·.stop ≤ e.start) then kept ++ [e] else kept) []

/-- An insertion in front of a replaced span is kept, and one inside of it is dropped. -/
example : greedy [⟨1, 1, "x"⟩, ⟨1, 3, "y"⟩, ⟨2, 2, "z"⟩] = [⟨1, 1, "x"⟩, ⟨1, 3, "y"⟩] := by decide

theorem foldl_eq_applied {es kept : List Edit} {cursor : Nat} (hes : ∀ e ∈ es, e.start ≤ e.stop)
    (hcursor : ∀ o, (∀ k ∈ kept, k.stop ≤ o) ↔ cursor ≤ o) :
    es.foldl (fun kept e => if kept.all (·.stop ≤ e.start) then kept ++ [e] else kept) kept =
      kept ++ applied cursor es := by
  induction es generalizing kept cursor with
  | nil => rw [List.foldl_nil, applied, List.append_nil]
  | cons e es ih =>
    obtain ⟨he, hes⟩ := List.forall_mem_cons.mp hes
    have hkept : kept.all (·.stop ≤ e.start) = true ↔ cursor ≤ e.start := by simpa using hcursor e.start
    rw [List.foldl_cons, applied]
    by_cases hlt : e.start < cursor
    · rw [if_pos hlt, if_neg (fun h => Nat.not_le.mpr hlt (hkept.mp h)), ih hes hcursor]
    · rw [if_neg hlt, if_pos (hkept.mpr (Nat.not_lt.mp hlt))]
      have hnext : ∀ o, (∀ k ∈ kept ++ [e], k.stop ≤ o) ↔ e.stop ≤ o := by
        intro o
        rw [List.forall_mem_append, hcursor o]
        simp only [List.mem_singleton, forall_eq]
        omega
      rw [ih hes hnext, List.append_assoc, List.singleton_append]

/-- The edits that are kept are those that are applied. -/
theorem greedy_eq_applied {es : List Edit} (hes : ∀ e ∈ es, e.start ≤ e.stop) : greedy es = applied 0 es :=
  foldl_eq_applied hes (by simp)

/-- Edits that stand one behind the other are all kept. -/
theorem applied_eq_self {es : List Edit} {cursor : Nat} (hascending : es.Pairwise fun a b => a.stop ≤ b.start)
    (hcursor : ∀ e ∈ es, cursor ≤ e.start) : applied cursor es = es := by
  induction es generalizing cursor with
  | nil => rfl
  | cons e es ih =>
    obtain ⟨hafter, hascending⟩ := List.pairwise_cons.mp hascending
    have hle := hcursor e List.mem_cons_self
    rw [applied, if_neg (Nat.not_lt.mpr hle), ih hascending hafter]

/-! ## The order of edits -/

namespace Edit

/-- Edits in the order of their starts; those that start together keep their order. -/
structure InOrder (es ordered : List Edit) : Prop where
  perm : ordered.Perm es
  starts : ordered.Pairwise fun a b => a.start ≤ b.start
  ties : ∀ o, ordered.filter (·.start = o) = es.filter (·.start = o)

/-- One of two edits ends in front of the other or where it starts, and they do not start together. -/
def Distinct (a b : Edit) : Prop := a.span.Apart b.span ∧ a.start ≠ b.start

theorem Distinct.symm {a b : Edit} (h : a.Distinct b) : b.Distinct a := ⟨h.1.symm, h.2.symm⟩

instance : Std.Symm Distinct := ⟨fun _ _ => Distinct.symm⟩

end Edit

theorem inOrder_sortEdits (es : List Edit) : Edit.InOrder es (sortEdits es) := by
  have htrans : ∀ a b c : Edit, decide (a.start ≤ b.start) = true → decide (b.start ≤ c.start) = true →
      decide (a.start ≤ c.start) = true := by
    intro a b c hab hbc
    exact decide_eq_true (Nat.le_trans (of_decide_eq_true hab) (of_decide_eq_true hbc))
  have htotal : ∀ a b : Edit, (decide (a.start ≤ b.start) || decide (b.start ≤ a.start)) = true := by
    intro a b
    simpa using Nat.le_total a.start b.start
  have hperm : (sortEdits es).Perm es := List.mergeSort_perm _ _
  refine ⟨hperm, (List.pairwise_mergeSort htrans htotal es).imp of_decide_eq_true, fun o => ?_⟩
  -- edits that start together are a sublist that is in order already
  have htogether : (es.filter (·.start = o)).Pairwise fun a b => decide (a.start ≤ b.start) = true := by
    refine List.pairwise_of_forall_mem_list fun a ha b hb => decide_eq_true ?_
    have ha : a.start = o := of_decide_eq_true (List.mem_filter.mp ha).2
    have hb : b.start = o := of_decide_eq_true (List.mem_filter.mp hb).2
    omega
  have hsublist := (List.sublist_mergeSort htrans htotal htogether List.filter_sublist).filter (·.start = o)
  rw [List.filter_filter] at hsublist
  simp only [Bool.and_self] at hsublist
  exact (hsublist.eq_of_length (hperm.filter _).length_eq.symm).symm

/-- Edits that are apart stand one behind the other when they are in order. -/
theorem ascending_of_distinct {es ordered : List Edit} (hordered : ∀ e ∈ es, e.start ≤ e.stop)
    (h : Edit.InOrder es ordered) (hdistinct : es.Pairwise Edit.Distinct) :
    ordered.Pairwise fun a b => a.stop ≤ b.start := by
  refine ((h.perm.symm.pairwise hdistinct Edit.Distinct.symm).and h.starts).imp_of_mem ?_
  rintro a b ha hb ⟨⟨hapart, hne⟩, hstarts⟩
  rcases hapart with hab | hba
  · exact hab
  · have hb := hordered b (h.perm.mem_iff.mp hb)
    have hba : b.stop ≤ a.start := hba
    omega

/-- Edits that are apart have only one order. -/
theorem sortEdits_eq_of_perm {es others : List Edit} (hperm : others.Perm es) (hdistinct : es.Pairwise Edit.Distinct) :
    sortEdits others = sortEdits es := by
  have hes := inOrder_sortEdits es
  have hothers := inOrder_sortEdits others
  refine List.Perm.eq_of_pairwise ?_ hothers.starts hes.starts ((hothers.perm.trans hperm).trans hes.perm.symm)
  intro a b ha hb hab hba
  by_contra hne
  have ha := hperm.mem_iff.mp (hothers.perm.mem_iff.mp ha)
  have hb := hes.perm.mem_iff.mp hb
  exact (hdistinct.forall ha hb hne).2 (Nat.le_antisymm hab hba)

/-- Applying edits to a text gives the text with the edits that are kept when they are taken up in order. Edits that are
apart and do not start together are all kept, and give the same text in any order. -/
theorem applyEdits_eq_edited {source : String} {es : List Edit} (hes : ∀ e ∈ es, e.span.Placed ⟨source.toList⟩) :
    ∃ ordered, Edit.InOrder es ordered ∧ (applyEdits source es).toList = edited (greedy ordered) 0 source.toList ∧
      (es.Pairwise Edit.Distinct →
        (greedy ordered).Perm es ∧ ∀ others, others.Perm es → applyEdits source others = applyEdits source es) := by
  have hinOrder := inOrder_sortEdits es
  have hplaced : ∀ e ∈ sortEdits es, e.span.Placed ⟨source.toList⟩ := fun e he => hes e (hinOrder.perm.mem_iff.mp he)
  have hordered : ∀ e ∈ sortEdits es, e.start ≤ e.stop := fun e he => (hplaced e he).ordered
  have hgreedy := greedy_eq_applied hordered
  refine ⟨sortEdits es, hinOrder, ?_, fun hdistinct => ⟨?_, fun others hperm => ?_⟩⟩
  · obtain ⟨hascending, hbehind⟩ := @applied_ascending 0 _ hordered
    have hkept : ∀ e ∈ applied 0 (sortEdits es), e.span.Placed ⟨source.toList⟩ :=
      fun e he => hplaced e (mem_of_mem_applied he)
    unfold applyEdits
    rw [String.toList_ofList, hgreedy, ← splice_applied]
    exact splice_eq_edited hkept hascending (Leads.refl (first source.toList)) hbehind
  · have hascending := ascending_of_distinct (fun e he => (hes e he).ordered) hinOrder hdistinct
    rw [hgreedy, applied_eq_self hascending fun _ _ => Nat.zero_le _]
    exact hinOrder.perm
  · rw [applyEdits, applyEdits, sortEdits_eq_of_perm hperm hdistinct]

/-- An offset stands between characters if the characters up to it have as many bytes. -/
theorem Script.cut_of_takeBytes {o : Nat} (h : byteLength (takeBytes o text.chars) = o) : Cut text o :=
  ⟨⟨o, dropBytes o text.chars⟩, ⟨takeBytes o text.chars, (takeBytes_append_dropBytes o text.chars).symm,
    by rw [h]; exact (Nat.zero_add o).symm⟩, rfl⟩

/-- Edits of a text in which a character has two bytes: an insertion, and two spans that touch. -/
def touchingEdits : List Edit := [⟨3, 4, "c"⟩, ⟨0, 0, "x"⟩, ⟨1, 3, "y"⟩]

theorem applyEdits_eq_edited_touching : (∀ e ∈ touchingEdits, e.span.Placed ⟨"añb".toList⟩) ∧
    touchingEdits.Pairwise Edit.Distinct ∧ ∃ ordered, Edit.InOrder touchingEdits ordered ∧
      (applyEdits "añb" touchingEdits).toList = edited (greedy ordered) 0 "añb".toList ∧
      (greedy ordered).Perm touchingEdits ∧
      ∀ others, others.Perm touchingEdits → applyEdits "añb" others = applyEdits "añb" touchingEdits := by
  have hcuts : ∀ e ∈ touchingEdits, e.start ≤ e.stop ∧ byteLength (takeBytes e.start "añb".toList) = e.start ∧
      byteLength (takeBytes e.stop "añb".toList) = e.stop := by
    decide
  have hplaced : ∀ e ∈ touchingEdits, e.span.Placed ⟨"añb".toList⟩ := by
    intro e he
    obtain ⟨hordered, hstart, hstop⟩ := hcuts e he
    exact ⟨hordered, cut_of_takeBytes hstart, cut_of_takeBytes hstop⟩
  have hdistinct : touchingEdits.Pairwise Edit.Distinct := by
    unfold touchingEdits Edit.Distinct Span.Apart Edit.span
    decide
  obtain ⟨ordered, hinOrder, hedited, hapart⟩ := applyEdits_eq_edited hplaced
  obtain ⟨hkept, hsame⟩ := hapart hdistinct
  exact ⟨hplaced, hdistinct, ordered, hinOrder, hedited, hkept, hsame⟩

end Relink
