import Mathlib.Data.List.Infix
import Relink.Proofs.Scanning

/-!
# The comments of a text

A comment is written behind two slashes to the end of its line, or between marks up to the first one that closes it. A
script has comments behind marks of HTML, too.

* `Unclosed`, `ClosesAt` — texts in which nothing closes a comment, and where a comment is closed.
* `IsComment`, `IsFound` — texts that are one whole comment, and texts of the comments that are found in a script.
* `skipGap_comment` — a comment with the end of its line is skipped.
* `commented_skipGap` — the comments that are found in a gap stand in the text.
-/

namespace Relink

/-! ## Closing marks -/

/-- Nothing in a text closes a comment. -/
def Unclosed (cs : List Char) : Prop := ¬['*', '/'] <:+: cs

/-- The first mark of a text that closes a comment stands at a place. -/
def ClosesAt (n : Nat) (cs : List Char) : Prop := ['*', '/'] <+: cs.drop n ∧ ∀ k < n, ¬['*', '/'] <+: cs.drop k

theorem prefix_close_iff {c : Char} {cs : List Char} : ['*', '/'] <+: c :: cs ↔ c = '*' ∧ cs.head? = some '/' := by
  rw [List.cons_prefix_cons, eq_comm]
  cases cs with
  | nil => simp
  | cons d ds => simp [List.cons_prefix_cons, eq_comm]

theorem unclosed_nil : Unclosed [] := by simp [Unclosed]

theorem unclosed_cons {c : Char} {cs : List Char} :
    Unclosed (c :: cs) ↔ ¬(c = '*' ∧ cs.head? = some '/') ∧ Unclosed cs := by
  rw [Unclosed, Unclosed, List.infix_cons_iff, prefix_close_iff, not_or]

/-- A closing mark at the end of a text is its first one if nothing in front of it closes a comment. -/
theorem closesAt_length_iff {inner after : List Char} :
    ClosesAt inner.length (inner ++ '*' :: '/' :: after) ↔ Unclosed inner := by
  unfold ClosesAt
  rw [List.drop_left]
  simp only [show ['*', '/'] <+: '*' :: '/' :: after from ⟨after, rfl⟩, true_and]
  induction inner with
  | nil => simp [unclosed_nil]
  | cons c cs ih =>
    have hhead : (cs ++ '*' :: '/' :: after).head? = some '/' ↔ cs.head? = some '/' := by
      cases cs with
      | nil => simp
      | cons d ds => rfl
    rw [unclosed_cons, ← ih, ← hhead, List.length_cons]
    constructor
    · intro h
      exact ⟨fun hclose => h 0 (Nat.succ_pos _) (prefix_close_iff.mpr hclose), fun k hk => h (k + 1) (Nat.succ_lt_succ hk)⟩
    · rintro ⟨hfirst, hlater⟩ k hk
      cases k with
      | zero => exact fun hclose => hfirst (prefix_close_iff.mp hclose)
      | succ k => exact hlater k (Nat.lt_of_succ_lt_succ hk)

namespace Script

open Place

/-! ## Forms of comments -/

/-- No line ends in a text. -/
def OneLine (cs : List Char) : Prop := ∀ c ∈ cs, isLineEnd c = false

/-- A text is one whole comment. -/
inductive IsComment : List Char → Prop where
  | line {body : List Char} (h : OneLine body) : IsComment ('/' :: '/' :: body)
  | block {body : List Char} (h : Unclosed body) : IsComment ('/' :: '*' :: (body ++ ['*', '/']))

/-- A text can start a comment that ends with its line. -/
def StartsLine (cs : List Char) : Prop := cs ∈ [['/', '/'], ['<', '!', '-', '-'], ['-', '-', '>']]

/-- A text is a comment as it stands in a script. -/
inductive IsFound : List Char → Prop where
  | line {mark body : List Char} (hmark : StartsLine mark) (hbody : OneLine body) : IsFound (mark ++ body)
  | block {body : List Char} (h : Unclosed body) : IsFound ('/' :: '*' :: (body ++ ['*', '/']))

/-- A comment behind marks of HTML has one line; all others are whole comments, and start as such. -/
theorem IsFound.comment_or_oneLine {t : List Char} (h : IsFound t) :
    (IsComment t ∧ (['/', '/'] <+: t ∨ ['/', '*'] <+: t)) ∨ (OneLine t ∧ ¬['/', '/'] <+: t ∧ ¬['/', '*'] <+: t) := by
  cases h with
  | @line mark body hmark hbody =>
    have hline : ∀ {mark : List Char}, OneLine mark → OneLine (mark ++ body) :=
      fun hmark => List.forall_mem_append.mpr ⟨hmark, hbody⟩
    unfold StartsLine at hmark
    simp only [List.mem_cons, List.not_mem_nil, or_false] at hmark
    rcases hmark with rfl | rfl | rfl
    · exact Or.inl ⟨.line hbody, Or.inl ⟨body, rfl⟩⟩
    · exact Or.inr ⟨hline (by simp [OneLine, isLineEnd]), by simp, by simp⟩
    · exact Or.inr ⟨hline (by simp [OneLine, isLineEnd]), by simp, by simp⟩
  | @block body hbody => exact Or.inl ⟨.block hbody, Or.inr ⟨body ++ ['*', '/'], rfl⟩⟩

/-! ## Comments that are skipped -/

theorem skipGap_oneLine {body : List Char} (h : OneLine body) (script : Bool) (start : Nat) (nl : Bool) (spans : List Span)
    (o : Nat) (rest : List Char) : skipGap script (.lineComment start) nl spans o (body ++ rest) =
      skipGap script (.lineComment start) nl spans (o + byteLength body) rest := by
  induction body generalizing o with
  | nil => rfl
  | cons c cs ih =>
    obtain ⟨hc, hcs⟩ := List.forall_mem_cons.mp h
    have hstep : skipGap script (.lineComment start) nl spans o (c :: (cs ++ rest)) =
        skipGap script (.lineComment start) nl spans (o + c.utf8Size) (cs ++ rest) := by
      rw [skipGap, hc]
      rfl
    rw [List.cons_append, hstep, ih hcs, byteLength, Nat.add_assoc]

theorem skipGap_unclosed {body : List Char} (h : Unclosed body) (script : Bool) (start : Nat) (spans : List Span) (o : Nat)
    (rest : List Char) : skipGap script (.blockComment start) true spans o (body ++ '*' :: '/' :: rest) =
      skipGap script .blank true (⟨start, o + byteLength body + 2⟩ :: spans) (o + byteLength body + 2) rest := by
  induction body generalizing o with
  | nil => rfl
  | cons c cs ih =>
    obtain ⟨hfirst, hcs⟩ := unclosed_cons.mp h
    have hopen : ∀ after, c = '*' → cs ++ '*' :: '/' :: rest = '/' :: after → False := by
      rintro after rfl heq
      refine hfirst ⟨rfl, ?_⟩
      cases cs with
      | nil => simp at heq
      | cons d ds => simpa using (List.cons.inj heq).1
    have hstep : skipGap script (.blockComment start) true spans o (c :: (cs ++ '*' :: '/' :: rest)) =
        skipGap script (.blockComment start) true spans (o + c.utf8Size) (cs ++ '*' :: '/' :: rest) := by
      rw [skipGap, Bool.true_or]
      exact hopen
    rw [List.cons_append, hstep, ih hcs, byteLength, Nat.add_assoc o]

/-- Behind the start of a line, a comment with the end of its line is skipped. -/
theorem skipGap_comment {t : List Char} (h : IsComment t) (spans : List Span) (o : Nat) (rest : List Char) : ∃ span,
    skipGap true .blank true spans o (t ++ '\n' :: rest) =
      skipGap true .blank true (span :: spans) (o + byteLength (t ++ ['\n'])) rest := by
  cases h with
  | @line body hbody =>
    refine ⟨⟨o, o + 2 + byteLength body⟩, ?_⟩
    have hopen : skipGap true .blank true spans o ('/' :: '/' :: (body ++ '\n' :: rest)) =
        skipGap true (.lineComment o) true spans (o + 2) (body ++ '\n' :: rest) := by
      rw [skipGap]
    have hend : skipGap true (.lineComment o) true spans (o + 2 + byteLength body) ('\n' :: rest) =
        skipGap true .blank true (⟨o, o + 2 + byteLength body⟩ :: spans) (o + 2 + byteLength body + 1) rest := by
      rw [skipGap]
      rfl
    have hsize : o + byteLength ('/' :: '/' :: body ++ ['\n']) = o + 2 + byteLength body + 1 := by
      rw [byteLength_append, byteLength, byteLength]
      have hslash : '/'.utf8Size = 1 := rfl
      have hnewline : byteLength ['\n'] = 1 := rfl
      omega
    rw [List.cons_append, List.cons_append, hopen, skipGap_oneLine hbody, hend, hsize]
  | @block body hbody =>
    refine ⟨⟨o, o + 2 + byteLength body + 2⟩, ?_⟩
    have hopen : skipGap true .blank true spans o ('/' :: '*' :: (body ++ '*' :: '/' :: '\n' :: rest)) =
        skipGap true (.blockComment o) true spans (o + 2) (body ++ '*' :: '/' :: '\n' :: rest) := by
      rw [skipGap]
    have hend : ∀ spans o, skipGap true .blank true spans o ('\n' :: rest) =
        skipGap true .blank true spans (o + 1) rest := by
      intro spans o
      rw [skipGap]
      · rfl
      all_goals simp
    have hsize : o + byteLength ('/' :: '*' :: (body ++ ['*', '/']) ++ ['\n']) = o + 2 + byteLength body + 2 + 1 := by
      rw [byteLength_append, byteLength, byteLength, byteLength_append]
      have hslash : '/'.utf8Size = 1 := rfl
      have hstar : '*'.utf8Size = 1 := rfl
      have hclose : byteLength ['*', '/'] = 2 := rfl
      have hnewline : byteLength ['\n'] = 1 := rfl
      omega
    simp only [List.cons_append, List.append_assoc, List.nil_append] at hsize ⊢
    rw [hopen, skipGap_unclosed hbody, hend, hsize]

/-- The comments that have been found before make no difference. -/
theorem skipGap_append (script : Bool) (state : InGap) (nl : Bool) (spans more : List Span) (o : Nat) (text : List Char) :
    skipGap script state nl (spans ++ more) o text =
      { skipGap script state nl spans o text with
        comments := (skipGap script state nl spans o text).comments ++ more } := by
  fun_induction skipGap script state nl spans o text <;> simp_all [skipGap]

/-! ## Comments that are found -/

variable {text : List Char}

/-- A span of a text is a comment. -/
def Commented (text : List Char) (span : Span) : Prop := ∃ t rest, Leads (first text) ⟨span.start, t ++ rest⟩ ∧
  span.stop = span.start + byteLength t ∧ IsFound t

/-- What has been passed of the text when the reader of a gap is in a state. -/
def Reached (text : List Char) : InGap → Nat → List Char → Prop
  | .blank, o, rest => Leads (first text) ⟨o, rest⟩
  | .lineComment start, o, rest => ∃ mark body, Leads (first text) ⟨start, mark ++ body ++ rest⟩ ∧
      o = start + byteLength (mark ++ body) ∧ StartsLine mark ∧ OneLine body
  | .blockComment start, o, rest => ∃ body, Leads (first text) ⟨start, '/' :: '*' :: (body ++ rest)⟩ ∧
      o = start + 2 + byteLength body ∧ ∀ k < body.length, ¬['*', '/'] <+: (body ++ rest).drop k

theorem leads_across {start o : Nat} {passed rest : List Char} (h : Leads (first text) ⟨start, passed ++ rest⟩)
    (ho : o = start + byteLength passed) : Leads (first text) ⟨o, rest⟩ :=
  h.trans ⟨passed, rfl, ho⟩

/-- A comment that ends with its line. -/
theorem commented_line {start o : Nat} {rest : List Char} (h : Reached text (.lineComment start) o rest) :
    Commented text ⟨start, o⟩ ∧ Leads (first text) ⟨o, rest⟩ := by
  obtain ⟨mark, body, hplace, ho, hmark, hbody⟩ := h
  exact ⟨⟨mark ++ body, rest, hplace, ho, .line hmark hbody⟩, leads_across hplace ho⟩

/-- A comment that is closed. -/
theorem commented_block {start o : Nat} {rest : List Char} (h : Reached text (.blockComment start) o ('*' :: '/' :: rest)) :
    Commented text ⟨start, o + 2⟩ ∧ Leads (first text) ⟨o + 2, rest⟩ := by
  obtain ⟨body, hplace, ho, hopen⟩ := h
  have hunclosed : Unclosed body := closesAt_length_iff.mp ⟨by rw [List.drop_left]; exact ⟨rest, rfl⟩, hopen⟩
  have hslash : '/'.utf8Size = 1 := rfl
  have hstar : '*'.utf8Size = 1 := rfl
  have hclose : byteLength ['*', '/'] = 2 := rfl
  have hsize : o + 2 = start + byteLength ('/' :: '*' :: (body ++ ['*', '/'])) := by
    rw [byteLength, byteLength, byteLength_append]
    omega
  have hwhole : '/' :: '*' :: (body ++ '*' :: '/' :: rest) = '/' :: '*' :: (body ++ ['*', '/']) ++ rest := by simp
  rw [hwhole] at hplace
  exact ⟨⟨_, rest, hplace, hsize, .block hunclosed⟩, leads_across hplace hsize⟩

/-- The comments of a gap in a text are comments of the text. -/
theorem commented_skipGap {script : Bool} {state : InGap} {nl : Bool} {spans : List Span} {o : Nat} {rest : List Char}
    (h : Reached text state o rest) (hspans : ∀ span ∈ spans, Commented text span) :
    ∀ span ∈ (skipGap script state nl spans o rest).comments, Commented text span := by
  have hopens : ∀ (mark : List Char) {o n : Nat} {rest : List Char}, StartsLine mark → byteLength mark = n →
      Leads (first text) ⟨o, mark ++ rest⟩ → Reached text (.lineComment o) (o + n) rest := by
    rintro mark o n rest hmark rfl hplace
    exact ⟨mark, [], by rwa [List.append_nil], by rw [List.append_nil], hmark, by simp [OneLine]⟩
  have hpass : ∀ {o : Nat} {c : Char} {rest : List Char}, Leads (first text) ⟨o, c :: rest⟩ →
      Leads (first text) ⟨o + c.utf8Size, rest⟩ := fun {o c rest} hplace => @leads_across text o _ [c] rest hplace rfl
  fun_induction skipGap script state nl spans o rest with
  | case1 | case3 | case11 | case13 | case16 => exact hspans
  | case2 nl spans o start => exact List.forall_mem_cons.mpr ⟨(commented_line h).1, hspans⟩
  | case4 nl spans o start c rest hend ih =>
    obtain ⟨hcomment, hplace⟩ := commented_line h
    exact ih (hpass hplace) (List.forall_mem_cons.mpr ⟨hcomment, hspans⟩)
  | case5 nl spans o start c rest hend ih =>
    obtain ⟨mark, body, hplace, ho, hmark, hbody⟩ := h
    refine ih ⟨mark, body ++ [c], by simpa using hplace, ?_, hmark, ?_⟩ hspans
    · rw [← List.append_assoc, byteLength_append, ho, Nat.add_assoc]
      rfl
    · exact List.forall_mem_append.mpr ⟨hbody, by simpa using hend⟩
  | case6 nl spans o start rest ih =>
    obtain ⟨hcomment, hplace⟩ := commented_block h
    exact ih hplace (List.forall_mem_cons.mpr ⟨hcomment, hspans⟩)
  | case7 nl spans o start c rest hopen ih =>
    obtain ⟨body, hplace, ho, hbefore⟩ := h
    refine ih ⟨body ++ [c], by simpa using hplace, ?_, ?_⟩ hspans
    · rw [byteLength_append, ho, Nat.add_assoc]
      rfl
    · intro k hk
      rw [List.append_assoc, List.singleton_append]
      rcases Nat.lt_succ_iff_lt_or_eq.mp (by simpa using hk) with hlt | rfl
      · exact hbefore k hlt
      · rw [List.drop_left, prefix_close_iff]
        rintro ⟨rfl, hhead⟩
        obtain ⟨after, rfl⟩ := List.head?_eq_some_iff.mp hhead
        exact hopen after rfl rfl
  | case8 nl spans o rest ih => exact ih (hopens ['/', '/'] (by simp [StartsLine]) rfl h) hspans
  | case9 nl spans o rest ih => exact ih ⟨[], h, rfl, by simp⟩ hspans
  | case10 nl spans o rest hscript ih => exact ih (hopens ['<', '!', '-', '-'] (by simp [StartsLine]) rfl h) hspans
  | case12 nl spans o rest hscript ih => exact ih (hopens ['-', '-', '>'] (by simp [StartsLine]) rfl h) hspans
  | case14 nl spans o c rest _ _ _ _ hend ih => exact ih (hpass h) hspans
  | case15 nl spans o c rest _ _ _ _ hend hblank ih => exact ih (hpass h) hspans

/-- The comments in front of a token of a text are comments of the text. -/
theorem commented_scanToken {p : Place} (hp : Leads (first text) p) (script lineStart : Bool) :
    ∀ span ∈ (scanToken script lineStart p).comments, Commented text span := by
  have hgap := @commented_skipGap text script .blank lineStart [] p.offset p.rest hp (by simp)
  unfold scanToken
  dsimp only
  split
  · exact hgap
  · exact hgap

end Script

end Relink
