import Relink.Script.Scan

/-!
# How far a scanner comes

Every scanner goes forward over characters of the text: the place at which it stops is reached from the one at
which it started, and the offsets count the bytes between them.

* `Place.Leads` — a place is reached from another one over some characters.
* `leads_skipGap`, `leads_scanName`, `leads_scanString`, `leads_scanTemplate`, `leads_scanRegex` — the scanners.
* `exists_gap`, `leads_scanLexeme` — the gap in front of a token, and the token.
* `Reads` — the ways in which a token is read.
-/

namespace Relink

namespace Place

/-- A place is reached from another one over some characters. -/
def Leads (p q : Place) : Prop := ∃ passed, p.rest = passed ++ q.rest ∧ q.offset = p.offset + byteLength passed

namespace Leads

variable {p q r : Place}

theorem refl (p : Place) : Leads p p := ⟨[], rfl, rfl⟩

theorem trans (h : Leads p q) (h' : Leads q r) : Leads p r := by
  obtain ⟨front, hrest, hoffset⟩ := h
  obtain ⟨back, hrest', hoffset'⟩ := h'
  refine ⟨front ++ back, ?_, ?_⟩
  · rw [hrest, hrest', List.append_assoc]
  · rw [hoffset', hoffset, byteLength_append, Nat.add_assoc]

theorem offset_le (h : Leads p q) : p.offset ≤ q.offset := by
  obtain ⟨passed, -, hoffset⟩ := h
  omega

/-- The characters at the front are passed. -/
theorem across (passed : List Char) {o n : Nat} {cs : List Char} (hn : byteLength passed = n)
    (h : Leads ⟨o + n, cs⟩ q) : Leads ⟨o, passed ++ cs⟩ q := by
  subst hn
  exact trans ⟨passed, rfl, rfl⟩ h

/-- The character at the front is passed. -/
theorem cons {c : Char} {o o' : Nat} {cs : List Char} (h : Leads ⟨o', cs⟩ q) (ho : o' = o + c.utf8Size) :
    Leads ⟨o, c :: cs⟩ q := by
  subst ho
  exact across [c] rfl h

end Leads

/-- A token that starts at a place is read in one way only: at a slash and at a closing brace the grammar may ask for
something else. -/
def Firm (p : Place) : Prop := ∃ c ∈ p.rest.head?, c ≠ '/' ∧ c ≠ '\x7d'

theorem leads_skip (n : Nat) (p : Place) : Leads p (p.skip n) :=
  ⟨p.rest.take n, by rw [rest_skip, List.take_append_drop], offset_skip n p⟩

theorem lt_skip {n : Nat} {p : Place} (hn : 0 < n) (hp : p.rest ≠ []) : p.offset < (p.skip n).offset := by
  obtain ⟨c, cs, hrest⟩ := List.exists_cons_of_ne_nil hp
  obtain ⟨m, rfl⟩ := Nat.exists_eq_succ_of_ne_zero (Nat.ne_of_gt hn)
  have hpos := Char.utf8Size_pos c
  rw [offset_skip, hrest, List.take_succ_cons, byteLength]
  omega

end Place

open Place Unicode

/-! ## Characters of one byte -/

theorem utf8Size_of_lt {c : Char} (h : c.toNat < 128) : c.utf8Size = 1 :=
  Char.utf8Size_eq_one_iff.mpr (by
    rw [UInt32.le_iff_toNat_le]
    exact Nat.le_of_lt_succ h)

theorem utf8Size_of_isDigit {c : Char} (h : isDigit c = true) : c.utf8Size = 1 := by
  simp only [isDigit, Bool.and_eq_true, decide_eq_true_eq] at h
  refine utf8Size_of_lt ?_
  have hle : c.toNat ≤ ('9' : Char).toNat := h.2
  exact Nat.lt_of_le_of_lt hle (by decide)

theorem utf8Size_of_isHexDigit {c : Char} (h : isHexDigit c = true) : c.utf8Size = 1 := by
  simp only [isHexDigit, Bool.or_eq_true, Bool.and_eq_true, decide_eq_true_eq] at h
  rcases h with (h | h) | h
  · exact utf8Size_of_isDigit h
  · have hle : c.toNat ≤ ('f' : Char).toNat := h.2
    exact utf8Size_of_lt (Nat.lt_of_le_of_lt hle (by decide))
  · have hle : c.toNat ≤ ('F' : Char).toNat := h.2
    exact utf8Size_of_lt (Nat.lt_of_le_of_lt hle (by decide))

namespace Script

theorem utf8Size_of_isOctalDigit {c : Char} (h : isOctalDigit c = true) : c.utf8Size = 1 := by
  simp only [isOctalDigit, Bool.and_eq_true, decide_eq_true_eq] at h
  have hle : c.toNat ≤ ('7' : Char).toNat := h.2
  exact utf8Size_of_lt (Nat.lt_of_le_of_lt hle (by decide))

theorem utf8Size_of_hex4? {a b c d : Char} {v : Nat} (h : hex4? a b c d = some v) :
    byteLength [a, b, c, d] = 4 := by
  unfold hex4? at h
  split at h
  next hdigits =>
    simp only [Bool.and_eq_true] at hdigits
    obtain ⟨⟨⟨ha, hb⟩, hc⟩, hd⟩ := hdigits
    simp [byteLength, utf8Size_of_isHexDigit ha, utf8Size_of_isHexDigit hb, utf8Size_of_isHexDigit hc,
      utf8Size_of_isHexDigit hd]
  next => cases h

/-! ## Scanners -/

/-- The gap in front of a token ends behind its blanks and comments. -/
theorem leads_skipGap (script : Bool) (state : InGap) (nl : Bool) (cs : List Span) (o : Nat) (text : List Char) :
    Leads ⟨o, text⟩ (skipGap script state nl cs o text).place := by
  fun_induction skipGap script state nl cs o text
  all_goals first
    | exact Leads.refl _
    | (rename_i ih; exact ih.cons rfl)
    | (rename_i ih; exact ih.across ['/', '/'] rfl)
    | (rename_i ih; exact ih.across ['/', '*'] rfl)
    | (rename_i ih; exact ih.across ['*', '/'] rfl)
    | (rename_i ih; exact ih.across ['<', '!', '-', '-'] rfl)
    | (rename_i ih; exact ih.across ['-', '-', '>'] rfl)

/-- A name ends behind its characters and escapes. -/
theorem leads_scanName (state : InName) (acc : List Char) (escaped : Bool) (o : Nat) (text : List Char) {s : NameScan}
    (h : scanName state acc escaped o text = some s) : Leads ⟨o, text⟩ s.place := by
  fun_induction scanName state acc escaped o text with
  | case1 =>
    cases h
    exact Leads.refl _
  | case4 _ _ _ _ _ _ _ hdigit _ ih => exact (ih h).cons (by rw [utf8Size_of_isHexDigit hdigit])
  | case5 _ _ _ _ _ c _ _ hclose _ _ _ ih =>
    simp only [Bool.and_eq_true, beq_iff_eq] at hclose
    obtain ⟨rfl, -⟩ := hclose
    exact (ih h).cons rfl
  | case9 _ _ _ _ ih => exact (ih h).across ['\\', 'u', '\x7b'] rfl
  | case10 _ _ _ a b c d _ _ _ hhex _ _ _ ih =>
    exact Leads.across ['\\', 'u'] rfl ((ih h).across [a, b, c, d] (utf8Size_of_hex4? hhex))
  | case15 _ _ _ _ _ _ _ _ _ ih => exact (ih h).cons rfl
  | case16 =>
    cases h
    exact Leads.refl _
  | case2 | case3 | case6 | case7 | case8 | case11 | case12 | case13 | case14 => cases h

/-- The characters of a name end no line. -/
theorem ne_of_fitsName {acc : List Char} {c : Char} (h : fitsName acc c = true) : c ≠ '\n' := by
  rintro rfl
  unfold fitsName at h
  split at h <;> exact absurd h (by decide)

theorem not_mem_scanName {state : InName} {acc : List Char} {escaped : Bool} {o : Nat} {text : List Char} {s : NameScan}
    (h : scanName state acc escaped o text = some s) (hacc : '\n' ∉ acc) : '\n' ∉ s.reversed := by
  have hcons : ∀ {acc : List Char} {c : Char}, fitsName acc c = true → '\n' ∉ acc → '\n' ∉ c :: acc :=
    fun hc hacc => List.not_mem_cons_of_ne_of_not_mem (ne_of_fitsName hc).symm hacc
  fun_induction scanName state acc escaped o text with
  | case1 | case16 =>
    cases h
    exact hacc
  | case4 _ _ _ _ _ _ _ _ _ ih => exact ih h hacc
  | case5 _ _ _ _ _ _ _ _ _ _ _ hfits ih => exact ih h (hcons hfits hacc)
  | case9 _ _ _ _ ih => exact ih h hacc
  | case10 _ _ _ _ _ _ _ _ _ _ _ _ _ hfits ih => exact ih h (hcons hfits hacc)
  | case15 _ _ _ _ _ _ _ _ hfits ih => exact ih h (hcons hfits hacc)
  | case2 | case3 | case6 | case7 | case8 | case11 | case12 | case13 | case14 => cases h

/-- A name is not empty. -/
theorem lt_scanName {state : InName} {acc : List Char} {escaped : Bool} {o : Nat} {text : List Char} {s : NameScan}
    (h : scanName state acc escaped o text = some s)
    (hfront : ∃ c ∈ text.head?, c = '\\' ∨ fitsName acc c = true) : o < s.place.offset := by
  have hfar : ∀ {state acc escaped o' cs}, scanName state acc escaped o' cs = some s → o < o' → o < s.place.offset :=
    fun h hlt => Nat.lt_of_lt_of_le hlt (leads_scanName _ _ _ _ _ h).offset_le
  obtain ⟨c, hc, hfits⟩ := hfront
  fun_induction scanName state acc escaped o text with
  | case4 | case5 | case9 | case10 => exact hfar h (by omega)
  | case15 _ _ _ d => exact hfar h (Nat.lt_add_of_pos_right (Char.utf8Size_pos d))
  | case16 _ _ _ _ _ _ _ hslash hstop =>
    obtain rfl := Option.some.inj hc
    rcases hfits with rfl | hfits
    · exact absurd rfl hslash
    · exact absurd hfits hstop
  | case1 => cases hc
  | case2 | case3 | case6 | case7 | case8 | case11 | case12 | case13 | case14 => cases h

/-- A string literal ends behind its closing quote. -/
theorem leads_scanString {quote : Char} (hquote : quote.utf8Size = 1) (state : InString) (acc : List Piece) (o : Nat)
    (text : List Char) {s : List Piece × Place} (h : scanString quote state acc o text = some s) :
    Leads ⟨o, text⟩ s.2 := by
  fun_induction scanString quote state acc o text with
  | case3 _ _ _ _ _ _ hdigit _ ih => exact (ih h).cons (by rw [utf8Size_of_isHexDigit hdigit])
  | case4 _ _ _ _ c _ _ hclose ih =>
    simp only [Bool.and_eq_true, beq_iff_eq] at hclose
    obtain ⟨rfl, -⟩ := hclose
    exact (ih h).cons rfl
  | case7 _ _ _ ih => exact (ih h).across ['\\', '\r', '\n'] rfl
  | case8 _ _ a b _ hdigits ih =>
    simp only [Bool.and_eq_true] at hdigits
    refine (ih h).across ['\\', 'x', a, b] ?_
    simp only [byteLength, utf8Size_of_isHexDigit hdigits.1, utf8Size_of_isHexDigit hdigits.2]
    rfl
  | case11 _ _ _ ih => exact (ih h).across ['\\', 'u', '\x7b'] rfl
  | case12 _ _ a b c d _ _ _ hhex ih =>
    exact Leads.across ['\\', 'u'] rfl ((ih h).across [a, b, c, d] (utf8Size_of_hex4? hhex))
  | case15 _ _ a _ _ _ _ _ _ _ _ ih => exact Leads.across ['\\'] rfl ((ih h).cons rfl)
  | case18 _ _ a _ _ _ ha b _ _ _ _ _ ih =>
    refine (ih h).across ['\\', a] ?_
    simp only [byteLength, utf8Size_of_isOctalDigit ha]
    rfl
  | case19 _ _ a _ _ _ ha b c _ hb hc _ _ _ _ ih =>
    simp only [Bool.and_eq_true] at hc
    refine (ih h).across ['\\', a, b, c] ?_
    simp only [byteLength, utf8Size_of_isOctalDigit ha, utf8Size_of_isOctalDigit hb, utf8Size_of_isOctalDigit hc.1]
    rfl
  | case20 _ _ a _ _ _ ha b c _ hb _ _ _ _ _ ih =>
    refine (ih h).across ['\\', a, b] ?_
    simp only [byteLength, utf8Size_of_isOctalDigit ha, utf8Size_of_isOctalDigit hb]
    rfl
  | case21 _ _ a _ _ _ ha b c _ _ _ _ _ _ ih =>
    refine (ih h).across ['\\', a] ?_
    simp only [byteLength, utf8Size_of_isOctalDigit ha]
    rfl
  | case22 _ _ a _ _ _ _ _ _ _ _ _ ih => exact Leads.across ['\\'] rfl ((ih h).cons rfl)
  | case23 _ _ _ _ _ hclose =>
    cases h
    rw [beq_iff_eq.mp hclose]
    exact (Leads.refl _).cons (by rw [hquote])
  | case25 _ _ _ _ _ _ _ ih => exact (ih h).cons rfl
  | _ => cases h

/-- A piece of a template ends behind its mark. -/
theorem leads_scanTemplate (well : Bool) (o : Nat) (text : List Char) {s : Lexeme × Place}
    (h : scanTemplate well o text = some s) : Leads ⟨o, text⟩ s.2 := by
  fun_induction scanTemplate well o text with
  | case1 => cases h
  | case2 _ _ _ _ ih => exact Leads.across ['\\'] rfl ((ih h).cons rfl)
  | case3 =>
    cases h
    exact (Leads.refl _).across ['\x60'] rfl
  | case4 =>
    cases h
    exact (Leads.refl _).across ['$', '\x7b'] rfl
  | case5 _ _ _ _ _ _ _ ih => exact (ih h).cons rfl

theorem leads_scanRegexBody (inClass : Bool) (o : Nat) (text : List Char) {p : Place}
    (h : scanRegexBody inClass o text = some p) : Leads ⟨o, text⟩ p := by
  fun_induction scanRegexBody inClass o text with
  | case3 _ _ _ _ _ ih => exact Leads.across ['\\'] rfl ((ih h).cons rfl)
  | case5 _ _ _ _ _ _ hclose =>
    cases h
    simp only [Bool.and_eq_true, beq_iff_eq] at hclose
    rw [hclose.1]
    exact (Leads.refl _).across ['/'] rfl
  | case6 _ _ _ _ _ _ _ ih => exact (ih h).cons rfl
  | _ => cases h

theorem leads_scanRegexFlags (seen : List Char) (o : Nat) (text : List Char) {p : Place}
    (h : scanRegexFlags seen o text = some p) : Leads ⟨o, text⟩ p := by
  fun_induction scanRegexFlags seen o text with
  | case1 =>
    cases h
    exact Leads.refl _
  | case2 _ _ c _ _ hflag ih =>
    simp only [Bool.and_eq_true, List.contains_iff_mem, List.mem_cons, List.not_mem_nil, or_false] at hflag
    refine (ih h).cons ?_
    rcases hflag.1 with rfl | rfl | rfl | rfl | rfl | rfl | rfl | rfl <;> rfl
  | case3 => cases h
  | case4 =>
    cases h
    exact Leads.refl _

/-- A regular expression ends behind its flags. -/
theorem leads_scanRegex {p q : Place} (h : scanRegex p = some q) : Leads p q := by
  unfold scanRegex at h
  split at h
  next r hr => exact (leads_scanRegexBody _ _ _ hr).trans (leads_scanRegexFlags _ _ _ h)
  next => cases h

/-! ## Tokens -/

/-- A token ends behind its characters. -/
theorem leads_scanLexeme (p : Place) : Leads p (scanLexeme p).2 := by
  obtain ⟨o, text⟩ := p
  cases text with
  | nil => exact Leads.refl _
  | cons c cs =>
    have hone : ∀ {q : Place}, c.utf8Size = 1 → Leads ⟨o + 1, cs⟩ q → Leads ⟨o, c :: cs⟩ q :=
      fun hc h => h.cons (by rw [hc])
    unfold scanLexeme
    dsimp only
    split
    next hquote =>
      simp only [Bool.or_eq_true, beq_iff_eq] at hquote
      have hc : c.utf8Size = 1 := by rcases hquote with rfl | rfl <;> rfl
      split
      next pieces q hs => exact hone hc (leads_scanString hc _ _ _ _ hs)
      next => exact Leads.refl _
    next =>
    split
    next htemplate =>
      rw [beq_iff_eq] at htemplate
      subst htemplate
      cases hs : scanTemplate true (o + 1) cs with
      | none => exact Leads.refl _
      | some s => exact hone rfl (leads_scanTemplate _ _ _ hs)
    next =>
    split
    next =>
      split
      · exact leads_skip _ _
      · exact Leads.refl _
    next =>
    split
    next hmark =>
      rw [beq_iff_eq] at hmark
      subst hmark
      split
      next s hs =>
        split
        · exact Leads.refl _
        · exact hone rfl (leads_scanName _ _ _ _ _ hs)
      next => exact Leads.refl _
    next =>
    split
    next =>
      split
      next s hs => exact leads_scanName _ _ _ _ _ hs
      next => exact Leads.refl _
    next =>
      split
      · exact leads_skip _ _
      · exact Leads.refl _

theorem exists_template {well : Bool} {o : Nat} {text : List Char} {s : Lexeme × Place}
    (h : scanTemplate well o text = some s) : ∃ last well', s.1 = .template last well' := by
  fun_induction scanTemplate well o text with
  | case1 => cases h
  | case2 _ _ _ _ ih => exact ih h
  | case3 | case4 =>
    cases h
    exact ⟨_, _, rfl⟩
  | case5 _ _ _ _ _ _ _ ih => exact ih h

/-- What a token at a place is read as, and where it ends. -/
inductive Reads (p : Place) : Lexeme × Place → Prop where
  | stop (hrest : p.rest = []) : Reads p (.stop, p)
  | string {quote : Char} {cs : List Char} {pieces : List Piece} {q : Place} (hrest : p.rest = quote :: cs)
      (hquote : quote = '\x22' ∨ quote = '\x27')
      (hscan : scanString quote .plain [] (p.offset + 1) cs = some (pieces, q)) :
      Reads p (.string (valueOf (joinHalves pieces.reverse)) (isWhole (joinHalves pieces.reverse)), q)
  | template {cs : List Char} {r : Lexeme × Place} (hrest : p.rest = '\x60' :: cs)
      (hscan : scanTemplate true (p.offset + 1) cs = some r) : Reads p r
  | number {n : Nat} (hscan : scanNumber p.rest = some n) : Reads p (.number, p.skip n)
  | privateName {cs : List Char} {s : NameScan} (hrest : p.rest = '#' :: cs)
      (hscan : scanName .plain [] false (p.offset + 1) cs = some s) : Reads p (.privateName s.reversed.reverse, s.place)
  | word {c : Char} {cs : List Char} {s : NameScan} (hrest : p.rest = c :: cs) (hfront : c = '\\' ∨ fitsName [] c = true)
      (hscan : scanName .plain [] false p.offset p.rest = some s) :
      Reads p (.word (Word.ofChars s.reversed.reverse) s.reversed.reverse s.escaped, s.place)
  | punct {m : Punct} {n : Nat} (hscan : Punct.ofChars p.rest = some (m, n)) : Reads p (.punct m, p.skip n)
  | mistake : Reads p (.mistake, p)

theorem reads_scanLexeme (p : Place) : Reads p (scanLexeme p) := by
  obtain ⟨o, text⟩ := p
  unfold scanLexeme
  split
  next hrest => exact .stop hrest
  next c cs hrest =>
    split
    next hquote =>
      split
      next pieces q hscan => exact .string hrest (by simpa using hquote) hscan
      next => exact .mistake
    split
    next hmark =>
      rw [beq_iff_eq] at hmark
      subst hmark
      cases hscan : scanTemplate true (o + 1) cs with
      | none => exact .mistake
      | some r => exact .template hrest hscan
    split
    next =>
      split
      next n hscan => exact .number hscan
      next => exact .mistake
    split
    next hmark =>
      rw [beq_iff_eq] at hmark
      subst hmark
      split
      next s hscan =>
        split
        next => exact .mistake
        next => exact .privateName hrest hscan
      next => exact .mistake
    split
    next hfront =>
      split
      next s hscan =>
        have hfront : c = '\\' ∨ fitsName [] c = true := by simpa [fitsName, or_comm] using hfront
        exact .word hrest hfront hscan
      next => exact .mistake
    next =>
      split
      next m n hscan => exact .punct hscan
      next => exact .mistake

theorem pos_of_ofChars {cs : List Char} {p : Punct} {n : Nat} (h : Punct.ofChars cs = some (p, n)) : 0 < n ∧ cs ≠ [] := by
  unfold Punct.ofChars at h
  split at h <;> first
    | (cases h; done)
    | (cases h; exact ⟨by decide, List.cons_ne_nil _ _⟩)
    | (split at h <;> cases h <;> exact ⟨by decide, List.cons_ne_nil _ _⟩)

/-- A punctuator stands at the front of the text. -/
theorem ofChars_of_scanLexeme {p : Place} {q : Punct} (h : (scanLexeme p).1 = .punct q) :
    ∃ n, Punct.ofChars p.rest = some (q, n) ∧ (scanLexeme p).2 = p.skip n := by
  have hreads := reads_scanLexeme p
  generalize scanLexeme p = r at h hreads ⊢
  cases hreads with
  | punct hscan =>
    cases h
    exact ⟨_, hscan, rfl⟩
  | template _ hscan =>
    obtain ⟨last, well, htemplate⟩ := exists_template hscan
    cases htemplate.symm.trans h
  | _ => cases h

/-- A punctuator is not empty. -/
theorem lt_of_punct {p : Place} {q : Punct} (h : (scanLexeme p).1 = .punct q) : p.offset < (scanLexeme p).2.offset := by
  obtain ⟨n, hpunct, hplace⟩ := ofChars_of_scanLexeme h
  obtain ⟨hn, hrest⟩ := pos_of_ofChars hpunct
  rw [hplace]
  exact lt_skip hn hrest

/-- A string is not empty. -/
theorem lt_of_string {p : Place} {value : List Char} {whole : Bool} (h : (scanLexeme p).1 = .string value whole) :
    p.offset < (scanLexeme p).2.offset := by
  have hreads := reads_scanLexeme p
  generalize scanLexeme p = r at h hreads ⊢
  cases hreads with
  | string _ hquote hscan =>
    have hone : ∀ quote : Char, quote = '\x22' ∨ quote = '\x27' → quote.utf8Size = 1 := by
      rintro quote (rfl | rfl) <;> rfl
    exact (leads_scanString (hone _ hquote) _ _ _ _ hscan).offset_le
  | template _ hscan =>
    obtain ⟨last, well, htemplate⟩ := exists_template hscan
    cases htemplate.symm.trans h
  | _ => cases h

/-- A word is not empty, and ends no line. -/
theorem lt_of_word {p : Place} {w : Word} {text : List Char} {escaped : Bool}
    (h : (scanLexeme p).1 = .word w text escaped) : p.offset < (scanLexeme p).2.offset ∧ '\n' ∉ text := by
  have hreads := reads_scanLexeme p
  generalize scanLexeme p = r at h hreads ⊢
  cases hreads with
  | word hrest hfront hscan =>
    cases h
    refine ⟨lt_scanName hscan ⟨_, by rw [hrest]; rfl, hfront⟩, ?_⟩
    rw [List.mem_reverse]
    exact not_mem_scanName hscan List.not_mem_nil
  | template _ hscan =>
    obtain ⟨last, well, htemplate⟩ := exists_template hscan
    cases htemplate.symm.trans h
  | _ => cases h

theorem ofChars_eq_slash {cs : List Char} {n : Nat} (h : Punct.ofChars cs = some (.slash, n)) :
    n = 1 ∧ cs = '/' :: cs.drop 1 := by
  unfold Punct.ofChars at h
  split at h <;> first | (cases h; exact ⟨rfl, rfl⟩) | cases h | (split at h <;> cases h)

theorem ofChars_eq_slashAssign {cs : List Char} {n : Nat} (h : Punct.ofChars cs = some (.slashAssign, n)) :
    n = 2 ∧ cs = '/' :: '=' :: cs.drop 2 := by
  unfold Punct.ofChars at h
  split at h <;> first | (cases h; exact ⟨rfl, rfl⟩) | cases h | (split at h <;> cases h)

theorem ofChars_eq_rbrace {cs : List Char} {n : Nat} (h : Punct.ofChars cs = some (.rbrace, n)) :
    cs.head? = some '\x7d' := by
  unfold Punct.ofChars at h
  split at h <;> first | rfl | cases h | (split at h <;> cases h)

/-- A slash that is read as an operator stands in front of what follows. -/
theorem rest_of_slash {p : Place} (h : (scanLexeme p).1 = .punct .slash) : p.rest = '/' :: (scanLexeme p).2.rest := by
  obtain ⟨n, hpunct, hplace⟩ := ofChars_of_scanLexeme h
  obtain ⟨rfl, hrest⟩ := ofChars_eq_slash hpunct
  rw [hplace, rest_skip]
  exact hrest

theorem rest_of_slashAssign {p : Place} (h : (scanLexeme p).1 = .punct .slashAssign) :
    p.rest = '/' :: '=' :: (scanLexeme p).2.rest := by
  obtain ⟨n, hpunct, hplace⟩ := ofChars_of_scanLexeme h
  obtain ⟨rfl, hrest⟩ := ofChars_eq_slashAssign hpunct
  rw [hplace, rest_skip]
  exact hrest

/-- A closing brace stands at the front of the text. -/
theorem head?_of_rbrace {p : Place} (h : (scanLexeme p).1 = .punct .rbrace) : p.rest.head? = some '\x7d' := by
  obtain ⟨n, hpunct, -⟩ := ofChars_of_scanLexeme h
  exact ofChars_eq_rbrace hpunct

/-- Behind an open comment there is no text. -/
theorem rest_eq_nil_of_open (script : Bool) (state : InGap) (nl : Bool) (cs : List Span) (o : Nat) (text : List Char)
    (h : (skipGap script state nl cs o text).closed = false) : (skipGap script state nl cs o text).place.rest = [] := by
  fun_induction skipGap script state nl cs o text
  all_goals first
    | rfl
    | cases h
    | (rename_i ih; exact ih h)

/-- A token is what is read behind the gap in front of it, or a mistake in an open comment. -/
theorem exists_gap (script lineStart : Bool) (p : Place) : ∃ q, Leads p q ∧
    (scanToken script lineStart p).token.span = ⟨q.offset, (scanToken script lineStart p).after.offset⟩ ∧
    (((scanToken script lineStart p).token.lexeme, (scanToken script lineStart p).after) = scanLexeme q ∨
      ((scanToken script lineStart p).token.lexeme, (scanToken script lineStart p).after) = (.mistake, q) ∧ q.rest = []) := by
  refine ⟨_, leads_skipGap script .blank lineStart [] p.offset p.rest, ?_⟩
  unfold scanToken
  dsimp only
  split
  · exact ⟨rfl, Or.inl rfl⟩
  next hopen =>
    refine ⟨rfl, Or.inr ⟨rfl, ?_⟩⟩
    exact rest_eq_nil_of_open script .blank lineStart [] p.offset p.rest (Bool.not_eq_true _ ▸ hopen)

end Script

end Relink
