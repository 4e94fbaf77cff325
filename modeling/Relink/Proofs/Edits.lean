import Mathlib.Data.List.Basic
import Relink.Proofs.Spans
import Relink.Text.Edit

/-!
# Edits of a text

* `Place.Leads.of_offset_le` — of two places of a text, the one with the smaller offset leads to the other one.
* `Edit.Keeps` — an edit between two places of a text that takes away no line.
* `newlines_applyEdits` — such edits keep the lines of a text, also those that are dropped.
-/

namespace Relink

/-! ## Bytes -/

theorem takeBytes_append (front back : List Char) : takeBytes (byteLength front) (front ++ back) = front := by
  induction front with
  | nil => cases back <;> rfl
  | cons c cs ih =>
    obtain ⟨n, hn⟩ := Nat.exists_eq_succ_of_ne_zero (Nat.ne_of_gt (Char.utf8Size_pos c))
    have hlength : byteLength (c :: cs) = n + byteLength cs + 1 := by
      rw [byteLength, hn]
      omega
    have hrest : n + byteLength cs + 1 - c.utf8Size = byteLength cs := by omega
    rw [hlength, List.cons_append, takeBytes, hrest, ih]

theorem dropBytes_append (front back : List Char) : dropBytes (byteLength front) (front ++ back) = back := by
  have hsplit := takeBytes_append_dropBytes (byteLength front) (front ++ back)
  rw [takeBytes_append] at hsplit
  exact List.append_cancel_left hsplit

theorem byteLength_toList (text : String) : byteLength text.toList = text.utf8ByteSize := by
  have hchars : ∀ cs : List Char, byteLength cs = (String.ofList cs).utf8ByteSize := by
    intro cs
    induction cs with
    | nil => rfl
    | cons c cs ih =>
      rw [byteLength, ih, String.ofList_cons, String.utf8ByteSize_append, String.utf8ByteSize_singleton]
  rw [hchars, String.ofList_toList]

theorem takeBytes_of_le {cs : List Char} {n : Nat} (h : byteLength cs ≤ n) : takeBytes n cs = cs := by
  induction cs generalizing n with
  | nil => cases n <;> rfl
  | cons c cs ih =>
    rw [byteLength] at h
    have hpos := Char.utf8Size_pos c
    obtain ⟨m, rfl⟩ := Nat.exists_eq_succ_of_ne_zero (show n ≠ 0 by omega)
    rw [takeBytes, ih (by omega)]

theorem eq_nil_of_byteLength {cs : List Char} (h : byteLength cs = 0) : cs = [] := by
  cases cs with
  | nil => rfl
  | cons c cs =>
    have hpos := Char.utf8Size_pos c
    rw [byteLength] at h
    omega

namespace Place

/-- Of two places of a text, the one with the smaller offset leads to the other one. -/
theorem Leads.of_offset_le {o p q : Place} (hp : Leads o p) (hq : Leads o q) (h : p.offset ≤ q.offset) : Leads p q := by
  obtain ⟨front, hrest, hoffset⟩ := hp
  obtain ⟨front', hrest', hoffset'⟩ := hq
  have hprefix : front <+: o.rest := ⟨p.rest, hrest.symm⟩
  have hprefix' : front' <+: o.rest := ⟨q.rest, hrest'.symm⟩
  have hfront : front <+: front' := by
    rcases List.prefix_or_prefix_of_prefix hprefix hprefix' with hfront | ⟨more, hmore⟩
    · exact hfront
    · -- a shorter text has fewer bytes, so the two are the same
      have hlength := congrArg byteLength hmore
      rw [byteLength_append] at hlength
      have hmore' : more = [] := eq_nil_of_byteLength (by omega)
      rw [hmore', List.append_nil] at hmore
      exact hmore ▸ List.prefix_rfl
  obtain ⟨passed, rfl⟩ := hfront
  refine ⟨passed, ?_, ?_⟩
  · rw [hrest', List.append_assoc] at hrest
    exact (List.append_cancel_left hrest).symm
  · rw [hoffset', hoffset, byteLength_append, Nat.add_assoc]

end Place

/-! ## Lines -/

open Place Script

/-- An edit between two places of a text, whose new text has as many lines as what it replaces. -/
structure Edit.Keeps (text : Source) (e : Edit) : Prop where
  ordered : e.start ≤ e.stop
  start : Cut text e.start
  stop : Cut text e.stop
  lines : newlines (Span.extract ⟨e.start, e.stop⟩ text.chars) ≤ newlines e.text.toList

variable {text : Source}

theorem newlines_eq_zero {cs : List Char} (h : '\n' ∉ cs) : newlines cs = 0 := by
  induction cs with
  | nil => rfl
  | cons c cs ih =>
    obtain ⟨hc, hcs⟩ := List.ne_and_not_mem_of_not_mem_cons h
    rw [newlines, ih hcs, if_neg (Ne.symm hc)]

theorem not_mem_toDigits (n : Nat) : '\n' ∉ Nat.toDigits 10 n := by
  intro hmem
  have hdigit := Nat.isDigit_of_mem_toDigits (by decide) (by decide) hmem
  cases hdigit

theorem newlines_replicate (n : Nat) : newlines (List.replicate n '\n') = n := by
  induction n with
  | zero => rfl
  | succ n ih =>
    rw [List.replicate_succ, newlines, ih]
    simp [Nat.add_comm]

theorem keeps_replace {span : Span} (hordered : span.start ≤ span.stop) (hstart : Cut text span.start)
    (hstop : Cut text span.stop) (new : String) : (Edit.replace text.chars span new).Keeps text where
  ordered := hordered
  start := hstart
  stop := hstop
  lines := by
    obtain ⟨start, stop⟩ := span
    unfold Edit.replace
    simp only [String.toList_append, String.toList_ofList, newlines_append, newlines_replicate]
    omega

theorem keeps_insert {offset : Nat} (h : Cut text offset) (new : String) : (Edit.insert offset new).Keeps text where
  ordered := Nat.le_refl _
  start := h
  stop := h
  lines := by
    simp [Edit.insert, Span.extract, takeBytes, newlines]

theorem extract_of_leads {p q : Place} (hp : Leads (first text.chars) p) {passed : List Char}
    (hrest : p.rest = passed ++ q.rest) (hoffset : q.offset = p.offset + byteLength passed) :
    Span.extract ⟨p.offset, q.offset⟩ text.chars = passed := by
  obtain ⟨front, htext, hfront⟩ := hp
  have htext : text.chars = front ++ p.rest := htext
  have hfront : p.offset = byteLength front := by simpa [first] using hfront
  have hlength : q.offset - p.offset = byteLength passed := by omega
  unfold Span.extract
  simp only [hlength]
  rw [hfront, htext, dropBytes_append, hrest, takeBytes_append]

/-- What stands behind a place of a text, cut at two offsets. -/
theorem exists_cut_twice {a b : Nat} (hab : a ≤ b) (ha : Cut text a) (hb : Cut text b) {p : Place}
    (hp : Leads (first text.chars) p) (hle : p.offset ≤ a) : ∃ front replaced r, Leads (first text.chars) r ∧
      r.offset = b ∧ p.rest = front ++ (replaced ++ r.rest) ∧ a = p.offset + byteLength front ∧
      b = a + byteLength replaced ∧ Span.extract ⟨p.offset, a⟩ text.chars = front ∧
      Span.extract ⟨a, b⟩ text.chars = replaced := by
  obtain ⟨q, hq, hstart⟩ := ha
  obtain ⟨r, hr, hstop⟩ := hb
  have hpq : Leads p q := hp.of_offset_le hq (by omega)
  have hqr : Leads q r := hq.of_offset_le hr (hstart ▸ hstop ▸ hab)
  obtain ⟨front, hfront, hfront'⟩ := hpq
  obtain ⟨replaced, hreplaced, hreplaced'⟩ := hqr
  refine ⟨front, replaced, r, hr, hstop, hreplaced ▸ hfront, hstart ▸ hfront', by omega, ?_, ?_⟩
  · rw [← hstart, extract_of_leads hp hfront hfront']
  · rw [← hstart, ← hstop, extract_of_leads hq hreplaced hreplaced']

/-- From a place of a text on, an edit leaves what stands in front of it, and takes away what it replaces. -/
theorem Edit.Keeps.exists_place {e : Edit} (he : e.Keeps text) {p : Place} (hp : Leads (first text.chars) p)
    (hle : p.offset ≤ e.start) : ∃ r, Leads (first text.chars) r ∧ r.offset = e.stop ∧
      takeBytes (e.start - p.offset) p.rest = Span.extract ⟨p.offset, e.start⟩ text.chars ∧
      dropBytes (e.stop - p.offset) p.rest = r.rest ∧
      p.rest = Span.extract ⟨p.offset, e.start⟩ text.chars ++ (Span.extract ⟨e.start, e.stop⟩ text.chars ++ r.rest) := by
  obtain ⟨front, replaced, r, hr, hstop, hrest, hfront, hreplaced, hextract, hextract'⟩ :=
    exists_cut_twice he.ordered he.start he.stop hp hle
  refine ⟨r, hr, hstop, ?_, ?_, ?_⟩
  · have hlength : e.start - p.offset = byteLength front := by omega
    rw [hlength, hextract, hrest, takeBytes_append]
  · have hlength : e.stop - p.offset = byteLength (front ++ replaced) := by
      rw [byteLength_append]
      omega
    rw [hlength, hrest, ← List.append_assoc, dropBytes_append]
  · rw [hextract, hextract', hrest]

/-- From a place of a text on, edits keep its lines. -/
theorem newlines_splice {es : List Edit} (hes : ∀ e ∈ es, e.Keeps text) {p : Place} (hp : Leads (first text.chars) p) :
    newlines p.rest ≤ newlines (splice p.offset p.rest es) := by
  induction es generalizing p with
  | nil => exact Nat.le_refl _
  | cons e es ih =>
    obtain ⟨he, hes⟩ := List.forall_mem_cons.mp hes
    rw [splice]
    split
    · exact ih hes hp
    next hlt =>
      obtain ⟨r, hr, hstop, htake, hdrop, hrest⟩ := he.exists_place hp (by omega)
      have hlines := he.lines
      have hlater := ih hes hr
      rw [htake, hdrop, hrest, ← hstop]
      rw [← hstop] at hlines
      simp only [newlines_append]
      omega

/-- Edits keep the lines of a text. -/
theorem newlines_applyEdits {source : String} {es : List Edit} (hes : ∀ e ∈ es, e.Keeps ⟨source.toList⟩) :
    newlines source.toList ≤ newlines (applyEdits source es).toList := by
  unfold applyEdits
  rw [String.toList_ofList]
  have hsorted : ∀ e ∈ sortEdits es, e.Keeps ⟨source.toList⟩ :=
    fun e he => hes e ((List.mergeSort_perm _ _).mem_iff.mp he)
  exact newlines_splice hsorted (Leads.refl (first source.toList))

end Relink
