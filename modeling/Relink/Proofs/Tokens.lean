import Relink.Proofs.Json
import Relink.Proofs.Scanning
import Relink.Script.CommonJs

/-!
# The tokens of a call

The text of a call of `require` is read as that call, whatever stands behind it.

* `Ahead` — the tokens of a script from a place on.
* `scanLexeme_name`, `scanLexeme_quoted` — a name and a quoted text are read as one token.
* `ahead_requireText`, `scanLexeme_moduleText` — the tokens of a call, and of a constant for the required module.
-/

namespace Relink.Script

open Unicode

/-! ## Tokens behind a place -/

/-- The tokens of a script from a place on. -/
def Ahead : Place → List Lexeme → Prop
  | _, [] => True
  | p, l :: ls => (scanToken true false p).token.lexeme = l ∧ Ahead (scanToken true false p).after ls

/-- A character that is no part of a gap. -/
def startsToken (c : Char) : Bool := !isLineEnd c && !isBlank c && c != '/' && c != '<' && c != '-'

theorem skipGap_of_startsToken {c : Char} (hc : startsToken c = true) (nl : Bool) (spans : List Span) (o : Nat)
    (cs : List Char) : skipGap true .blank nl spans o (c :: cs) = ⟨⟨o, c :: cs⟩, nl, spans, true⟩ := by
  simp only [startsToken, Bool.and_eq_true, Bool.not_eq_true', bne_iff_ne] at hc
  obtain ⟨⟨⟨⟨hline, hblank⟩, hslash⟩, hless⟩, hminus⟩ := hc
  rw [skipGap]
  · simp [hline, hblank]
  all_goals simp [hslash, hless, hminus]

theorem ahead_cons {c : Char} {cs : List Char} {o : Nat} {l : Lexeme} {ls : List Lexeme} {q : Place}
    (hc : startsToken c = true) (hl : scanLexeme ⟨o, c :: cs⟩ = (l, q)) (hq : Ahead q ls) :
    Ahead ⟨o, c :: cs⟩ (l :: ls) := by
  unfold Ahead scanToken
  simp [skipGap_of_startsToken hc, hl, hq]

theorem ahead_blank {c : Char} {cs : List Char} {o : Nat} {l : Lexeme} {ls : List Lexeme} {q : Place}
    (hc : startsToken c = true) (hl : scanLexeme ⟨o + 1, c :: cs⟩ = (l, q)) (hq : Ahead q ls) :
    Ahead ⟨o, ' ' :: c :: cs⟩ (l :: ls) := by
  have hgap : skipGap true .blank false [] o (' ' :: c :: cs) = ⟨⟨o + 1, c :: cs⟩, false, [], true⟩ := by
    rw [skipGap]
    · exact skipGap_of_startsToken hc false [] (o + 1) cs
    all_goals simp
  unfold Ahead scanToken
  simp [hgap, hl, hq]

/-! ## Names -/

/-- What follows a name does not continue it. -/
def EndsName (rest : List Char) : Prop := ∀ c ∈ rest.head?, isNamePart c = false ∧ c ≠ '\\'

theorem ne_of_isNamePart {c : Char} (h : isNamePart c = true) : c ≠ '\\' := by
  rintro rfl
  exact absurd h (by decide)

theorem scanName_cons {acc cs : List Char} {c : Char} (hc : fitsName acc c = true) (hslash : c ≠ '\\') (escaped : Bool)
    (o : Nat) : scanName .plain acc escaped o (c :: cs) = scanName .plain (c :: acc) escaped (o + c.utf8Size) cs := by
  rw [scanName]
  · simp [hslash, hc]
  all_goals simp [hslash]

theorem scanName_append {acc cs rest : List Char} (hacc : acc ≠ []) (hcs : ∀ c ∈ cs, isNamePart c = true)
    (hrest : EndsName rest) (escaped : Bool) (o : Nat) :
    scanName .plain acc escaped o (cs ++ rest) = some ⟨cs.reverse ++ acc, escaped, ⟨o + byteLength cs, rest⟩⟩ := by
  have hfits : ∀ {acc : List Char} {c : Char}, acc ≠ [] → fitsName acc c = isNamePart c := by
    intro acc c hacc
    cases acc with
    | nil => exact absurd rfl hacc
    | cons a acc => rfl
  induction cs generalizing acc o with
  | nil =>
    cases rest with
    | nil => simp [scanName, byteLength]
    | cons c rest =>
      obtain ⟨hpart, hslash⟩ := hrest c rfl
      rw [List.nil_append, scanName]
      · simp [hslash, hfits hacc, hpart, byteLength]
      all_goals simp [hslash]
  | cons c cs ih =>
    obtain ⟨hc, hcs⟩ := List.forall_mem_cons.mp hcs
    rw [List.cons_append, scanName_cons ((hfits hacc).trans hc) (ne_of_isNamePart hc),
      ih (List.cons_ne_nil c acc) hcs]
    simp [byteLength, Nat.add_assoc]

/-- A name is read as one word. -/
theorem scanLexeme_name {c : Char} {cs rest : List Char} (hstart : isNameStart c = true) (hdigit : isDigit c = false)
    (hcs : ∀ d ∈ cs, isNamePart d = true) (hrest : EndsName rest) (o : Nat) :
    scanLexeme ⟨o, c :: (cs ++ rest)⟩ =
      (.word (Word.ofChars (c :: cs)) (c :: cs) false, ⟨o + c.utf8Size + byteLength cs, rest⟩) := by
  have hne : ∀ d, isNameStart d = false → c ≠ d := by
    rintro d hd rfl
    rw [hd] at hstart
    cases hstart
  have hscan : scanName .plain [] false o (c :: (cs ++ rest)) =
      some ⟨cs.reverse ++ [c], false, ⟨o + c.utf8Size + byteLength cs, rest⟩⟩ := by
    have hfits : fitsName [] c = true := hstart
    rw [scanName_cons hfits (hne '\\' (by decide)), scanName_append (List.cons_ne_nil c []) hcs hrest]
  unfold scanLexeme
  simp [hne '\x22' (by decide), hne '\x27' (by decide), hne '\x60' (by decide), hne '.' (by decide),
    hne '#' (by decide), hdigit, hstart, hscan]

/-! ## Quoted texts -/

theorem valueOf_map_char (cs : List Char) : valueOf (cs.map .char) = cs ∧ isWhole (cs.map .char) = true := by
  have hwhole : isWhole (cs.map .char) = true := by simp [isWhole, Piece.char?]
  refine ⟨?_, hwhole⟩
  unfold valueOf
  simp [hwhole, List.flatMap_map]

/-- A character between quotes is read back. -/
theorem scanString_quoteChar (c : Char) (acc : List Piece) (o : Nat) (rest : List Char) : ∃ o',
    scanString '\x22' .plain acc o (quoteChar c ++ rest) = scanString '\x22' .plain (.char c :: acc) o' rest := by
  rcases Json.quoteChar_cases c with ⟨e, hmem, hquote⟩ | ⟨a, b, hhex, hquote⟩ | ⟨⟨hquot, hslash, hcontrol⟩, hquote⟩
  · refine ⟨o + 1 + e.utf8Size, ?_⟩
    rw [hquote]
    simp only [List.mem_cons, Prod.mk.injEq, List.not_mem_nil, or_false] at hmem
    rcases hmem with ⟨rfl, rfl⟩ | ⟨rfl, rfl⟩ | ⟨rfl, rfl⟩ | ⟨rfl, rfl⟩ | ⟨rfl, rfl⟩ | ⟨rfl, rfl⟩ | ⟨rfl, rfl⟩ <;>
      rw [List.cons_append, List.singleton_append, scanString.eq_def] <;> rfl
  · refine ⟨o + 6, ?_⟩
    rw [hquote, List.cons_append, scanString.eq_def]
    simp [hhex, Json.ofUnit_toNat]
  · refine ⟨o + c.utf8Size, ?_⟩
    have hline : ∀ d, d < ' ' → c ≠ d := by
      rintro d hd rfl
      exact hcontrol hd
    rw [hquote, List.singleton_append, scanString]
    · simp [hquot, hline '\n' (by decide), hline '\r' (by decide)]
    all_goals simp [hslash]

theorem scanString_flatMap (cs : List Char) (acc : List Piece) (o : Nat) (rest : List Char) : ∃ o',
    scanString '\x22' .plain acc o (cs.flatMap quoteChar ++ '\x22' :: rest) =
      some ((cs.map .char).reverse ++ acc, ⟨o', rest⟩) := by
  induction cs generalizing acc o with
  | nil => exact ⟨o + 1, by simp [scanString]⟩
  | cons c cs ih =>
    obtain ⟨o₁, h₁⟩ := scanString_quoteChar c acc o (cs.flatMap quoteChar ++ '\x22' :: rest)
    obtain ⟨o₂, h₂⟩ := ih (.char c :: acc) o₁
    refine ⟨o₂, ?_⟩
    rw [List.flatMap_cons, List.append_assoc, h₁, h₂]
    simp

/-- A text between quotes is read as one string. -/
theorem scanLexeme_quoted (text : String) (o : Nat) (rest : List Char) : ∃ o',
    scanLexeme ⟨o, (quoted text).toList ++ rest⟩ = (.string text.toList true, ⟨o', rest⟩) := by
  obtain ⟨o', h⟩ := scanString_flatMap text.toList [] (o + 1) rest
  refine ⟨o', ?_⟩
  rw [Json.toList_quoted]
  unfold scanLexeme
  simp only [List.cons_append, List.append_assoc, List.nil_append]
  simp [h, Json.joinHalves_map_char, valueOf_map_char]

/-! ## Marks -/

/-- A character with which no name, number or text starts. -/
def startsMark (c : Char) : Bool :=
  !isNameStart c && !isDigit c && c != '\x22' && c != '\x27' && c != '\x60' && c != '.' && c != '#' && c != '\\'

theorem scanLexeme_mark {c : Char} {cs : List Char} {p : Punct} {n o : Nat} (hc : startsMark c = true)
    (hp : Punct.ofChars (c :: cs) = some (p, n)) : scanLexeme ⟨o, c :: cs⟩ = (.punct p, Place.skip n ⟨o, c :: cs⟩) := by
  simp only [startsMark, Bool.and_eq_true, Bool.not_eq_true', bne_iff_ne] at hc
  unfold scanLexeme
  simp [hc, hp]

/-! ## Calls -/

namespace CommonJs

/-- The tokens of a call of `require`, and the semicolon behind it. -/
def callLexemes (specifier : String) : List Lexeme :=
  [.word .plain "require".toList false, .punct .lparen, .string specifier.toList true, .punct .rparen, .punct .semi]

theorem toList_requireText (specifier : String) :
    (requireText specifier).toList = 'r' :: ("equire".toList ++ '(' :: ((quoted specifier).toList ++ [')'])) := by
  unfold requireText
  simp only [String.toList_append, List.append_assoc]
  rfl

/-- The text of a call is read as a call. -/
theorem scanLexeme_requireText (specifier : String) (o : Nat) (rest : List Char) : ∃ q,
    scanLexeme ⟨o, (requireText specifier).toList ++ ';' :: rest⟩ = (.word .plain "require".toList false, q) ∧
      Ahead q (callLexemes specifier).tail := by
  have hends : EndsName ('(' :: ((quoted specifier).toList ++ ')' :: ';' :: rest)) := by
    rintro c ⟨⟩
    decide
  obtain ⟨o', hstring⟩ := scanLexeme_quoted specifier (o + 8) (')' :: ';' :: rest)
  refine ⟨⟨o + 7, '(' :: ((quoted specifier).toList ++ ')' :: ';' :: rest)⟩, ?_, ?_⟩
  · rw [toList_requireText]
    simp only [List.cons_append, List.append_assoc, List.nil_append]
    exact scanLexeme_name (by decide) (by decide) (List.all_eq_true.mp rfl) hends o
  · refine ahead_cons (by decide) (scanLexeme_mark (n := 1) (by decide) rfl) ?_
    rw [Json.toList_quoted, List.cons_append] at hstring ⊢
    refine ahead_cons (by decide) hstring ?_
    refine ahead_cons (by decide) (scanLexeme_mark (n := 1) (by decide) rfl) ?_
    exact ahead_cons (by decide) (scanLexeme_mark (n := 1) (by decide) rfl) trivial

theorem ahead_requireText (specifier : String) (o : Nat) (rest : List Char) :
    Ahead ⟨o, ' ' :: ((requireText specifier).toList ++ ';' :: rest)⟩ (callLexemes specifier) := by
  obtain ⟨q, hl, hq⟩ := scanLexeme_requireText specifier (o + 1) rest
  rw [toList_requireText, List.cons_append] at hl ⊢
  exact ahead_blank (by decide) hl hq

theorem isNamePart_of_isDigit {c : Char} (h : isDigit c = true) : isNamePart c = true := by
  have hbasic : isBasic c = true := by
    simp only [isDigit, Bool.and_eq_true, decide_eq_true_eq] at h
    have hle : c.toNat ≤ ('9' : Char).toNat := h.2
    exact decide_eq_true (Nat.lt_of_le_of_lt hle (by decide))
  simp [isNamePart, isIdContinue, hbasic, h]

theorem toList_moduleName (n : Nat) : (moduleName n).toList = '_' :: ("_import_".toList ++ Nat.toDigits 10 n) := by
  have hdigits : (toString n).toList = Nat.toDigits 10 n := String.toList_ofList
  unfold moduleName
  rw [String.toList_append, hdigits]
  rfl

/-- The name of the constant for a required module is read as a name. -/
theorem scanLexeme_moduleName (n o : Nat) {rest : List Char} (hrest : EndsName rest) : ∃ q,
    scanLexeme ⟨o, (moduleName n).toList ++ rest⟩ = (.word .plain (moduleName n).toList false, q) ∧ q.rest = rest := by
  have hfront : ∀ c ∈ "_import_".toList, isNamePart c = true := List.all_eq_true.mp rfl
  have hparts : ∀ c ∈ "_import_".toList ++ Nat.toDigits 10 n, isNamePart c = true := by
    intro c hc
    rcases List.mem_append.mp hc with hc | hc
    · exact hfront c hc
    · exact isNamePart_of_isDigit (Json.isDigit_of_mem_toDigits hc)
  rw [toList_moduleName]
  exact ⟨_, scanLexeme_name (by decide) (by decide) hparts hrest o, rfl⟩

/-- The text of a constant for a required module is read as a declaration with a call. -/
theorem scanLexeme_moduleText (n : Nat) (specifier : String) (o : Nat) (rest : List Char) : ∃ q,
    scanLexeme ⟨o, (moduleText n specifier).toList ++ rest⟩ = (.word .kConst "const".toList false, q) ∧
      Ahead q (.word .plain (moduleName n).toList false :: .punct .assign :: callLexemes specifier) := by
  have htext : (moduleText n specifier).toList ++ rest = 'c' :: ("onst".toList ++
      ' ' :: ((moduleName n).toList ++ ' ' :: '=' :: ' ' :: ((requireText specifier).toList ++ ';' :: rest))) := by
    unfold moduleText
    simp only [String.toList_append, List.append_assoc]
    rfl
  have hends : ∀ cs, EndsName (' ' :: cs) := by
    rintro cs c ⟨⟩
    decide
  obtain ⟨q, hname, hrest⟩ := scanLexeme_moduleName n (o + 6)
    (hends ('=' :: ' ' :: ((requireText specifier).toList ++ ';' :: rest)))
  obtain ⟨o', rest'⟩ := q
  obtain rfl : rest' = _ := hrest
  refine ⟨⟨o + 5, ' ' :: ((moduleName n).toList ++ ' ' :: '=' :: ' ' :: ((requireText specifier).toList ++ ';' :: rest))⟩,
    ?_, ?_⟩
  · rw [htext]
    exact scanLexeme_name (by decide) (by decide) (List.all_eq_true.mp rfl) (hends _) o
  · rw [toList_moduleName, List.cons_append] at hname ⊢
    refine ahead_blank (by decide) hname ?_
    refine ahead_blank (by decide) (scanLexeme_mark (n := 1) (by decide) rfl) ?_
    exact ahead_requireText specifier _ rest

end CommonJs

end Relink.Script
