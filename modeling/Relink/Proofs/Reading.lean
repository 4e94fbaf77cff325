import Mathlib
import Relink.Proofs.Comments
import Relink.Proofs.Spans

/-!
# What a parser reads

A parser goes forward over the tokens of a text. What it reads starts at the token at which it stood, ends at the
last token that it has passed, and everything below it lies between.

* `Cursor.Sound` — a cursor stands in a text: its token is where the text has it.
* `Cursor.To` — a cursor stands behind another one.
* `Parsed` — a node reaches from the token of one cursor to the last token before another one.
* `Listed`, `Gathered` — nodes stand one after the other between two cursors.
* `pattern_spec`, `functionBody_spec`, `object_spec`, `classRest_spec` — what the rules for patterns, functions, objects
  and classes read, if the other rules parse nodes.
-/

set_option mvcgen.warning false

namespace Relink.Script

open Std.Do
open Place Script.Parser

variable {text : Source}

/-! ## Cursors -/

/-- Marks, strings and words have a spelling. -/
def Lexeme.isSolid : Lexeme → Bool
  | .punct _ | .string .. | .word .. => true
  | _ => false

/-- A cursor stands in a text: the last token ends at a place of it, the current token starts behind that place, and
the place behind the token is reached from its start. What it has passed as comments are comments of the text. -/
structure Cursor.Sound (text : Source) (c : Cursor) : Prop where
  exists_places : ∃ p q, Leads (first text.chars) p ∧ p.offset = c.lastStop ∧ Leads p q ∧
    q.offset = c.token.span.start ∧ Leads q c.after ∧ c.token.span.stop = c.after.offset ∧
    (c.token.lexeme = .punct .slash → q.rest = '/' :: c.after.rest) ∧
    (c.token.lexeme = .punct .slashAssign → q.rest = '/' :: '=' :: c.after.rest) ∧
    (q.Firm → (c.token.lexeme, c.after) = scanLexeme q)
  solid : c.token.lexeme.isSolid → c.token.span.start < c.token.span.stop
  oneLine : ∀ w name escaped, c.token.lexeme = .word w name escaped → '\n' ∉ name
  comments : ∀ span ∈ c.comments, Commented text.chars span

theorem lt_of_isSolid {p : Place} (h : (scanLexeme p).1.isSolid) : p.offset < (scanLexeme p).2.offset := by
  cases hlexeme : (scanLexeme p).1 with
  | punct q => exact lt_of_punct hlexeme
  | string value whole => exact lt_of_string hlexeme
  | word w text escaped => exact (lt_of_word hlexeme).1
  | _ =>
    rw [hlexeme] at h
    cases h

namespace Cursor.Sound

variable {c : Cursor}

theorem cut_start (h : c.Sound text) : Cut text c.token.span.start := by
  obtain ⟨p, q, hp, -, hq, hstart, -⟩ := h.exists_places
  exact ⟨q, hp.trans hq, hstart⟩

theorem cut_last (h : c.Sound text) : Cut text c.lastStop := by
  obtain ⟨p, q, hp, hlast, -⟩ := h.exists_places
  exact ⟨p, hp, hlast⟩

theorem last_le (h : c.Sound text) : c.lastStop ≤ c.token.span.start := by
  obtain ⟨p, q, -, hlast, hq, hstart, -⟩ := h.exists_places
  rw [← hlast, ← hstart]
  exact hq.offset_le

theorem start_le (h : c.Sound text) : c.token.span.start ≤ c.token.span.stop := by
  obtain ⟨p, q, -, -, -, hstart, hafter, hstop, -⟩ := h.exists_places
  rw [← hstart, hstop]
  exact hafter.offset_le

theorem lt_of_punct (h : c.Sound text) {p : Punct} (hc : c.token.lexeme = .punct p) :
    c.token.span.start < c.token.span.stop := h.solid (by rw [hc]; rfl)

theorem lt_of_string (h : c.Sound text) {value : List Char} {whole : Bool} (hc : c.token.lexeme = .string value whole) :
    c.token.span.start < c.token.span.stop := h.solid (by rw [hc]; rfl)

theorem lt_of_word (h : c.Sound text) {w : Word} {name : List Char} {escaped : Bool}
    (hc : c.token.lexeme = .word w name escaped) : c.token.span.start < c.token.span.stop := h.solid (by rw [hc]; rfl)

/-- A token that is read at a place of the text stands in it; the token before it has ended there or earlier. -/
theorem of_scanToken {p₀ p : Place} (hp₀ : Leads (first text.chars) p₀) (hp : Leads p₀ p) (script lineStart : Bool)
    {comments : List Span} (hcomments : ∀ span ∈ comments, Commented text.chars span) : Sound text
      ⟨(scanToken script lineStart p).token, (scanToken script lineStart p).after, p₀.offset, comments⟩ := by
  obtain ⟨q, hq, hspan, hread⟩ := exists_gap script lineStart p
  rcases hread with hread | hread
  · obtain ⟨hlexeme, hafter⟩ := Prod.ext_iff.mp hread
    simp only at hlexeme hafter
    refine ⟨⟨p₀, q, hp₀, rfl, hp.trans hq, by simp [hspan], hafter ▸ leads_scanLexeme q, by simp [hspan], ?_, ?_,
      fun _ => hread⟩, ?_, ?_, hcomments⟩
    · intro hslash
      rw [hafter]
      exact rest_of_slash (hlexeme.symm.trans hslash)
    · intro hslash
      rw [hafter]
      exact rest_of_slashAssign (hlexeme.symm.trans hslash)
    · rw [hspan, hafter, hlexeme]
      exact lt_of_isSolid
    · intro w name escaped hword
      exact (Script.lt_of_word (hlexeme.symm.trans hword)).2
  · obtain ⟨hread, hnil⟩ := hread
    obtain ⟨hlexeme, hafter⟩ := Prod.ext_iff.mp hread
    simp only at hlexeme hafter
    refine ⟨⟨p₀, q, hp₀, rfl, hp.trans hq, by simp [hspan], hafter ▸ Leads.refl _, by simp [hspan], ?_, ?_, ?_⟩, ?_, ?_, hcomments⟩
    · intro hslash
      rw [hlexeme] at hslash
      cases hslash
    · intro hslash
      rw [hlexeme] at hslash
      cases hslash
    · rintro ⟨ch, hch, -⟩
      rw [hnil] at hch
      cases hch
    · intro hsolid
      rw [hlexeme] at hsolid
      cases hsolid
    · intro w name escaped hword
      rw [hlexeme] at hword
      cases hword

/-- A token that is read once more, from its start on: a slash or a closing brace. -/
theorem rescan (h : c.Sound text) (lexeme : Lexeme) (hlexeme : lexeme = .regex ∨ ∃ last well, lexeme = .template last well)
    (hmark : c.token.lexeme = .punct .slash ∨ c.token.lexeme = .punct .slashAssign ∨ c.token.lexeme = .punct .rbrace)
    {r : Place}
    (hr : ∀ q : Place, q.offset = c.token.span.start → Leads q c.after →
      (c.token.lexeme = .punct .slash → q.rest = '/' :: c.after.rest) →
      (c.token.lexeme = .punct .slashAssign → q.rest = '/' :: '=' :: c.after.rest) → Leads q r) :
    Sound text ⟨⟨lexeme, ⟨c.token.span.start, r.offset⟩, c.token.lineBefore⟩, r, c.lastStop, c.comments⟩ := by
  obtain ⟨p, q, hp, hlast, hq, hstart, hafter, -, hrest, hrest', hread⟩ := h.exists_places
  have hloose : ¬q.Firm := by
    rintro ⟨ch, hch, hne, hne'⟩
    rcases hmark with hmark | hmark | hmark
    · rw [hrest hmark] at hch
      exact hne (Option.some.inj hch).symm
    · rw [hrest' hmark] at hch
      exact hne (Option.some.inj hch).symm
    · have hlexeme := congrArg Prod.fst (hread ⟨ch, hch, hne, hne'⟩)
      rw [head?_of_rbrace (hlexeme.symm.trans hmark)] at hch
      exact hne' (Option.some.inj hch).symm
  have hne : lexeme.isSolid = false := by rcases hlexeme with rfl | ⟨last, well, rfl⟩ <;> rfl
  have hnot : ∀ {l : Lexeme}, l.isSolid = true → lexeme ≠ l := by
    rintro l hl rfl
    rw [hne] at hl
    cases hl
  exact ⟨⟨p, q, hp, hlast, hq, hstart, hr q hstart hafter hrest hrest', rfl, fun h => absurd h (hnot rfl),
    fun h => absurd h (hnot rfl), fun h => absurd h hloose⟩, fun h => absurd rfl (hnot h),
    fun _ _ _ h => absurd h (hnot rfl), h.comments⟩

end Cursor.Sound

grind_pattern Cursor.Sound.cut_start => c.Sound text
grind_pattern Cursor.Sound.cut_last => c.Sound text
grind_pattern Cursor.Sound.last_le => c.Sound text
grind_pattern Cursor.Sound.start_le => c.Sound text
grind_pattern Cursor.Sound.lt_of_punct => c.Sound text, Lexeme.punct p
grind_pattern Cursor.Sound.lt_of_string => c.Sound text, Lexeme.string value whole
grind_pattern Cursor.Sound.lt_of_word => c.Sound text, Lexeme.word w name escaped
grind_pattern Cursor.Sound.oneLine => c.Sound text, Lexeme.word w name escaped

/-- A cursor stands behind another one. -/
@[grind cases]
structure Cursor.To (c c' : Cursor) : Prop where
  start : c.token.span.start ≤ c'.token.span.start
  last : c.lastStop ≤ c'.lastStop

attribute [grind .] Cursor.To.mk

/-! ## Steps over tokens -/

section Steps

variable {c : Cursor}

@[spec]
theorem failure_spec {α : Type} {Q : α → Std.Do.Assertion (.arg Context (.arg Cursor (.except PUnit .pure)))} :
    ⦃fun _ _ => ⌜True⌝⦄ (failure : Parser α) ⦃PostCond.mayThrow Q⦄ := by
  intro context cursor _
  exact trivial

@[spec]
theorem discard_spec {α : Type} {p : Parser α} {Q : PostCond PUnit (.arg Context (.arg Cursor (.except PUnit .pure)))} :
    ⦃wp⟦p⟧ (fun _ => Q.1 ⟨⟩, Q.2)⦄ (discard p : Parser PUnit) ⦃Q⦄ :=
  Spec.map (f := fun _ => PUnit.unit)

@[spec]
theorem current_spec : ⦃fun _ c' => ⌜c' = c⌝⦄ current
    ⦃⇓? t _ c' => ⌜c' = c ∧ t = c.token⌝⦄ := by
  mvcgen [current]
  grind

@[spec]
theorem advance_spec : ⦃fun _ c' => ⌜c' = c ∧ c.Sound text⌝⦄ advance
    ⦃⇓? _ _ c' => ⌜c'.Sound text ∧ c.To c' ∧ c'.lastStop = c.token.span.stop⌝⦄ := by
  mvcgen [advance]
  rename_i context cursor h _
  obtain ⟨rfl, hc⟩ := h
  obtain ⟨p, q, hp, -, hq, hstart, hafter, hstop, -⟩ := hc.exists_places
  have hplace := (hp.trans hq).trans hafter
  have hsound := Cursor.Sound.of_scanToken hplace (Leads.refl _) context.script false
    (List.forall_mem_append.mpr ⟨commented_scanToken hplace context.script false, hc.comments⟩)
  rw [← hstop] at hsound
  refine ⟨hsound, ⟨?_, ?_⟩, rfl⟩
  · exact Nat.le_trans hc.start_le hsound.last_le
  · exact Nat.le_trans hc.last_le hc.start_le

@[spec]
theorem upcoming_spec : ⦃fun _ c' => ⌜c' = c⌝⦄ upcoming ⦃⇓? _ _ c' => ⌜c' = c⌝⦄ := by
  mvcgen [upcoming]

@[spec]
theorem afterUpcoming_spec : ⦃fun _ c' => ⌜c' = c⌝⦄ afterUpcoming
    ⦃⇓? _ _ c' => ⌜c' = c⌝⦄ := by
  mvcgen [afterUpcoming]

@[spec]
theorem here_spec : ⦃fun _ c' => ⌜c' = c⌝⦄ here
    ⦃⇓? start _ c' => ⌜c' = c ∧ start = c.token.span.start⌝⦄ := by
  mvcgen [here] with grind

@[spec]
theorem node_spec {start : Nat} {k : Kind} {ps : List Node} : ⦃fun _ c' => ⌜c' = c⌝⦄ node start k ps
    ⦃⇓? n _ c' => ⌜c' = c ∧ n = .mk k ⟨start, c.lastStop⟩ ps⌝⦄ := by
  mvcgen [node] with grind

@[spec]
theorem atPunct_spec {p : Punct} : ⦃fun _ c' => ⌜c' = c⌝⦄ atPunct p
    ⦃⇓? b _ c' => ⌜c' = c ∧ b = c.token.isPunct p⌝⦄ := by
  mvcgen [atPunct] with grind

@[spec]
theorem atWord_spec {w : Word} : ⦃fun _ c' => ⌜c' = c⌝⦄ atWord w
    ⦃⇓? b _ c' => ⌜c' = c ∧ b = c.token.isWord w⌝⦄ := by
  mvcgen [atWord] with grind

@[spec]
theorem eatPunct_spec {p : Punct} : ⦃fun _ c' => ⌜c' = c ∧ c.Sound text⌝⦄ eatPunct p
    ⦃⇓? b _ c' => ⌜c'.Sound text ∧ c.To c' ∧ (b = true → c'.lastStop = c.token.span.stop ∧
      c.token.span.start < c'.lastStop) ∧ (b = false → c' = c)⌝⦄ := by
  mvcgen [eatPunct] with grind [Token.isPunct]

@[spec]
theorem eatWord_spec {w : Word} : ⦃fun _ c' => ⌜c' = c ∧ c.Sound text⌝⦄ eatWord w
    ⦃⇓? b _ c' => ⌜c'.Sound text ∧ c.To c' ∧ (b = true → c'.lastStop = c.token.span.stop) ∧ (b = false → c' = c)⌝⦄ := by
  mvcgen [eatWord] with grind

@[spec]
theorem expectPunct_spec {p : Punct} : ⦃fun _ c' => ⌜c' = c ∧ c.Sound text⌝⦄ expectPunct p
    ⦃⇓? _ _ c' => ⌜c'.Sound text ∧ c.To c' ∧ c'.lastStop = c.token.span.stop ∧ c.token.span.start < c'.lastStop⌝⦄ := by
  mvcgen [expectPunct] with grind

@[spec]
theorem expectWord_spec {w : Word} : ⦃fun _ c' => ⌜c' = c ∧ c.Sound text⌝⦄ expectWord w
    ⦃⇓? _ _ c' => ⌜c'.Sound text ∧ c.To c' ∧ c'.lastStop = c.token.span.stop⌝⦄ := by
  mvcgen [expectWord] with grind

@[spec]
theorem variableName_spec : ⦃fun _ c' => ⌜c' = c ∧ c.Sound text⌝⦄ variableName
    ⦃⇓? name _ c' => ⌜c'.Sound text ∧ c.To c' ∧ c'.lastStop = c.token.span.stop ∧ '\n' ∉ name.toList⌝⦄ := by
  mvcgen [variableName] with grind [String.toList_ofList]

@[spec]
theorem anyName_spec : ⦃fun _ c' => ⌜c' = c ∧ c.Sound text⌝⦄ anyName
    ⦃⇓? name _ c' => ⌜c'.Sound text ∧ c.To c' ∧ c'.lastStop = c.token.span.stop ∧ '\n' ∉ name.toList⌝⦄ := by
  mvcgen [anyName] with grind [String.toList_ofList]

@[spec]
theorem stringValue_spec : ⦃fun _ c' => ⌜c' = c ∧ c.Sound text⌝⦄ stringValue
    ⦃⇓? _ _ c' => ⌜c'.Sound text ∧ c.To c' ∧ c'.lastStop = c.token.span.stop⌝⦄ := by
  mvcgen [stringValue] with grind

@[spec]
theorem mayEnd_spec : ⦃fun _ c' => ⌜c' = c⌝⦄ mayEnd ⦃⇓? _ _ c' => ⌜c' = c⌝⦄ := by
  mvcgen [mayEnd] with grind

@[spec]
theorem endStatement_spec : ⦃fun _ c' => ⌜c' = c ∧ c.Sound text⌝⦄ endStatement ⦃⇓? _ _ c' => ⌜c'.Sound text ∧ c.To c'⌝⦄ := by
  mvcgen [endStatement] with grind

end Steps

/-! ## What is parsed -/

attribute [grind =] Node.span_mk Node.kind_mk Node.parts_mk

/-- A node reaches from the token of a cursor to the last token before another one, and is not empty. -/
@[grind cases]
structure Parsed (text : Source) (c : Cursor) (n : Node) (c' : Cursor) : Prop where
  ahead : c.To c'
  moved : c.token.span.start ≤ c'.lastStop
  span : n.span = ⟨c.token.span.start, c'.lastStop⟩
  fits : n.Fits text c.token.span.start c'.lastStop

attribute [grind .] Parsed.mk

/-- Some nodes lie between the token of a cursor and the last token before another one. -/
@[grind cases]
structure Listed (text : Source) (c : Cursor) (ns : List Node) (c' : Cursor) : Prop where
  ahead : c.To c'
  fits : Node.FitsAll text c.token.span.start c'.lastStop ns
  sequential : Node.Sequential ns

attribute [grind .] Listed.mk

/-- A node that began at an offset ends at the last token before a cursor, and its parts lie between `lo` and
that token. -/
@[grind cases]
structure Closed (text : Source) (lo start : Nat) (c : Cursor) (n : Node) (c' : Cursor) : Prop where
  ahead : c.To c'
  moved : c.token.span.start ≤ c'.lastStop
  span : n.span = ⟨start, c'.lastStop⟩
  kind : ∃ name : Option String, (n.kind = .function name ∨ n.kind = .class name) ∧ ∀ x ∈ name, '\n' ∉ x.toList
  parts : Node.FitsAll text lo c'.lastStop n.parts
  sequential : Node.Sequential n.parts

attribute [grind .] Closed.mk

theorem Closed.fits {lo start lo' hi : Nat} {c c' : Cursor} {n : Node} (h : Closed text lo start c n c')
    (hc' : c'.Sound text) (hstart : Cut text start) (hlo : lo' ≤ start) (hlo' : lo' ≤ lo) (hhi : c'.lastStop ≤ hi) :
    n.Fits text lo' hi := by
  refine Node.fits_iff.mpr ⟨?_, h.parts.mono hlo' hhi⟩
  obtain ⟨name, hkind, hname⟩ := h.kind
  have hspan := h.span
  constructor
  case start => exact hspan ▸ hstart
  case stop => exact hspan ▸ hc'.cut_last
  case lower => exact hspan ▸ hlo
  case upper => exact hspan ▸ hhi
  case shape => rcases hkind with hkind | hkind <;> rw [hkind] <;> trivial
  case oneLine =>
    cases name with
    | none => rcases hkind with hkind | hkind <;> rw [hkind] <;> trivial
    | some x => rcases hkind with hkind | hkind <;> rw [hkind] <;> exact hname x rfl
  case sequential => exact h.sequential

theorem Closed.fits_self {lo start : Nat} {c c' : Cursor} {n : Node} (h : Closed text lo start c n c')
    (hc' : c'.Sound text) (hstart : Cut text start) (hlo : lo ≤ start) : n.Fits text lo c'.lastStop :=
  h.fits hc' hstart hlo (Nat.le_refl lo) (Nat.le_refl _)

grind_pattern Closed.fits => Closed text lo start c n c', n.Fits text lo' hi
grind_pattern Closed.fits_self => Closed text lo start c n c'

/-- Some nodes have been read between one cursor and another one, over at least one token. -/
@[grind cases]
structure Gathered (text : Source) (c : Cursor) (ns : List Node) (c' : Cursor) : Prop where
  sound : c.Sound text
  ahead : c.To c'
  moved : c.token.span.start ≤ c'.lastStop
  fits : Node.FitsAll text c.token.span.start c'.lastStop ns
  sequential : Node.Sequential ns

attribute [grind .] Gathered.mk

section Lists

variable {item : Parser Node}

theorem many_spec
    (hitem : ∀ c, ⦃fun _ c' => ⌜c' = c ∧ c.Sound text⌝⦄ item ⦃⇓? n _ c' => ⌜c'.Sound text ∧ Listed text c [n] c'⌝⦄)
    (limit : Nat) (stop : Token → Bool) (c : Cursor) : ⦃fun _ c' => ⌜c' = c ∧ c.Sound text⌝⦄ many limit stop item
    ⦃⇓? ns _ c' => ⌜c'.Sound text ∧ Listed text c ns c'⌝⦄ := by
  induction limit generalizing c with
  | zero => mvcgen [many]
  | succ limit ih =>
    rw [many]
    mvcgen [hitem, ih] with grind

theorem commaList_spec
    (hitem : ∀ c, ⦃fun _ c' => ⌜c' = c ∧ c.Sound text⌝⦄ item ⦃⇓? n _ c' => ⌜c'.Sound text ∧ Listed text c [n] c'⌝⦄)
    (limit : Nat) (close : Punct) (c : Cursor) : ⦃fun _ c' => ⌜c' = c ∧ c.Sound text⌝⦄ commaList limit close item
    ⦃⇓? r _ c' => ⌜c'.Sound text ∧ Listed text c r.1 c' ∧ c.token.span.start < c'.lastStop ∧
      Node.EndBefore c'.lastStop r.1⌝⦄ := by
  induction limit generalizing c with
  | zero => mvcgen [commaList]
  | succ limit ih =>
    rw [commaList]
    mvcgen [hitem, ih] with grind

end Lists

namespace Grammar

variable {g : Grammar}
  (hg : ∀ goal c, ⦃fun _ c' => ⌜c' = c ∧ c.Sound text⌝⦄ g.parse goal ⦃⇓? n _ c' => ⌜c'.Sound text ∧ Parsed text c n c'⌝⦄)

include hg

/-! ## Patterns -/

theorem element_spec (c : Cursor) : ⦃fun _ c' => ⌜c' = c ∧ c.Sound text⌝⦄ element g
    ⦃⇓? n _ c' => ⌜c'.Sound text ∧ Parsed text c n c'⌝⦄ := by
  mvcgen [element, hg, withIn] with grind

theorem arrayElement_spec (c : Cursor) : ⦃fun _ c' => ⌜c' = c ∧ c.Sound text⌝⦄ arrayElement g
    ⦃⇓? n _ c' => ⌜c'.Sound text ∧ Listed text c [n] c'⌝⦄ := by
  have helement := element_spec hg
  mvcgen [arrayElement, hg, helement] with grind

theorem propertyKey_spec (inClass : Bool) (c : Cursor) :
    ⦃fun _ c' => ⌜c' = c ∧ c.Sound text⌝⦄ propertyKey g inClass
    ⦃⇓? k _ c' => ⌜c'.Sound text ∧ Listed text c k.parts c' ∧ c.token.span.start ≤ c'.lastStop ∧
      ∀ name, k.name = some name → '\n' ∉ name.toList⌝⦄ := by
  mvcgen [propertyKey, hg, withIn] with grind [String.toList_ofList]

theorem patternProperty_spec (c : Cursor) :
    ⦃fun _ c' => ⌜c' = c ∧ c.Sound text⌝⦄ patternProperty g ⦃⇓? n _ c' => ⌜c'.Sound text ∧ Listed text c [n] c'⌝⦄ := by
  have helement := element_spec hg
  have hkey := propertyKey_spec hg
  mvcgen [patternProperty, hg, helement, hkey, withIn] with grind

theorem pattern_spec (c : Cursor) : ⦃fun _ c' => ⌜c' = c ∧ c.Sound text⌝⦄ pattern g
    ⦃⇓? n _ c' => ⌜c'.Sound text ∧ Parsed text c n c'⌝⦄ := by
  have helements := commaList_spec (arrayElement_spec hg)
  have hproperties := commaList_spec (patternProperty_spec hg)
  mvcgen [pattern, helements, hproperties] with grind

/-! ## Functions -/

theorem parameter_spec (c : Cursor) : ⦃fun _ c' => ⌜c' = c ∧ c.Sound text⌝⦄ parameter g
    ⦃⇓? n _ c' => ⌜c'.Sound text ∧ Listed text c [n] c'⌝⦄ := by
  have helement := element_spec hg
  mvcgen [parameter, hg, helement] with grind

theorem parameters_spec (c : Cursor) : ⦃fun _ c' => ⌜c' = c ∧ c.Sound text⌝⦄ parameters g
    ⦃⇓? n _ c' => ⌜c'.Sound text ∧ Parsed text c n c'⌝⦄ := by
  have hlist := commaList_spec (parameter_spec hg)
  mvcgen [parameters, hlist] with grind

theorem statementsToBrace_spec (c : Cursor) : ⦃fun _ c' => ⌜c' = c ∧ c.Sound text⌝⦄ statementsToBrace g
    ⦃⇓? ns _ c' => ⌜c'.Sound text ∧ Listed text c ns c' ∧ c.token.span.start ≤ c'.lastStop⌝⦄ := by
  have hitem : ∀ c, ⦃fun _ c' => ⌜c' = c ∧ c.Sound text⌝⦄ withIn (g.parse (.statement false))
      ⦃⇓? n _ c' => ⌜c'.Sound text ∧ Listed text c [n] c'⌝⦄ := by
    intro c
    mvcgen [withIn, hg] with grind
  have hlist := many_spec hitem
  mvcgen [statementsToBrace, hlist] with grind

omit hg in
@[grind =]
theorem fitsAll_markDirectives {lo hi : Nat} (ns : List Node) :
    Node.FitsAll text lo hi (markDirectives ns) ↔ Node.FitsAll text lo hi ns := by
  fun_induction markDirectives ns with
  | case1 s v t rest ih =>
    rw [Node.fitsAll_cons, Node.fitsAll_cons, ih, Node.fits_mk, Node.fits_mk]
    simp [Kind.Shape, Kind.OneLine]
  | case2 => rfl

omit hg in
/-- A directive has the marks of the statement that it was. -/
theorem narrows_markDirectives (ns : List Node) : List.Forall₂ Node.Narrows (markDirectives ns) ns := by
  fun_induction markDirectives ns with
  | case1 s v t rest ih => exact .cons (Node.narrows_mk rfl (Node.forall₂_narrows_refl _)) ih
  | case2 rest _ => exact Node.forall₂_narrows_refl rest

omit hg in
@[grind →]
theorem sequential_markDirectives {ns : List Node} (h : Node.Sequential ns) : Node.Sequential (markDirectives ns) :=
  h.narrow (narrows_markDirectives ns)

theorem functionBody_spec (c : Cursor) : ⦃fun _ c' => ⌜c' = c ∧ c.Sound text⌝⦄ functionBody g
    ⦃⇓? n _ c' => ⌜c'.Sound text ∧ Parsed text c n c'⌝⦄ := by
  have hlist := statementsToBrace_spec hg
  mvcgen [functionBody, hlist] with grind

theorem functionRest_spec (start : Nat) (name : Option String) (async generator : Bool) (c : Cursor) :
    ⦃fun _ c' => ⌜c' = c ∧ c.Sound text ∧ ∀ x ∈ name, '\n' ∉ x.toList⌝⦄ functionRest g start name async generator
    ⦃⇓? n _ c' => ⌜c'.Sound text ∧ Closed text c.token.span.start start c n c'⌝⦄ := by
  have hparameters := parameters_spec hg
  have hbody := functionBody_spec hg
  mvcgen [functionRest, insideFunction, hparameters, hbody] with grind

theorem functionExpression_spec (start : Nat) (async : Bool) (c : Cursor) :
    ⦃fun _ c' => ⌜c' = c ∧ c.Sound text⌝⦄ functionExpression g start async
    ⦃⇓? n _ c' => ⌜c'.Sound text ∧ Closed text c.token.span.start start c n c'⌝⦄ := by
  have hrest := functionRest_spec hg
  generalize hQ : Closed text c.token.span.start start c = Q
  mvcgen [functionExpression, insideFunction, hrest] with (subst hQ; grind)

theorem functionDeclaration_spec (start : Nat) (async plainOnly mayBeNameless : Bool) (c : Cursor) :
    ⦃fun _ c' => ⌜c' = c ∧ c.Sound text⌝⦄ functionDeclaration g start async plainOnly mayBeNameless
    ⦃⇓? n _ c' => ⌜c'.Sound text ∧ Closed text c.token.span.start start c n c'⌝⦄ := by
  have hrest := functionRest_spec hg
  generalize hQ : Closed text c.token.span.start start c = Q
  mvcgen [functionDeclaration, hrest] with (subst hQ; grind)

/-! ## Objects and classes -/

omit hg in
@[spec]
theorem modifiers_spec (c : Cursor) : ⦃fun _ c' => ⌜c' = c ∧ c.Sound text⌝⦄ modifiers
    ⦃⇓? _ _ c' => ⌜c'.Sound text ∧ c.To c'⌝⦄ := by
  mvcgen [modifiers] with grind

theorem property_spec (c : Cursor) : ⦃fun _ c' => ⌜c' = c ∧ c.Sound text⌝⦄ property g
    ⦃⇓? n _ c' => ⌜c'.Sound text ∧ Listed text c [n] c'⌝⦄ := by
  have hkey := propertyKey_spec hg
  have hrest := functionRest_spec hg
  mvcgen [property, hg, withIn, hkey, hrest] with grind

theorem object_spec (c : Cursor) : ⦃fun _ c' => ⌜c' = c ∧ c.Sound text⌝⦄ object g
    ⦃⇓? n _ c' => ⌜c'.Sound text ∧ Parsed text c n c'⌝⦄ := by
  have hlist := commaList_spec (property_spec hg)
  mvcgen [object, hlist] with grind

theorem decorators_spec (c : Cursor) : ⦃fun _ c' => ⌜c' = c ∧ c.Sound text⌝⦄ decorators g
    ⦃⇓? ns _ c' => ⌜c'.Sound text ∧ Listed text c ns c'⌝⦄ := by
  unfold decorators
  refine many_spec ?_ _ _ c
  intro c
  mvcgen [hg] with grind

theorem classMember_spec (c : Cursor) : ⦃fun _ c' => ⌜c' = c ∧ c.Sound text⌝⦄ classMember g
    ⦃⇓? n _ c' => ⌜c'.Sound text ∧ Listed text c [n] c'⌝⦄ := by
  have hdecorators := decorators_spec hg
  have hstatements := statementsToBrace_spec hg
  have hkey := propertyKey_spec hg
  have hrest := functionRest_spec hg
  mvcgen [classMember, hg, hdecorators, hstatements, hkey, hrest] with (clear hdecorators hstatements hkey hrest hg; grind)

theorem classRest_spec (lo start : Nat) (ds : List Node) (c : Cursor) :
    ⦃fun _ c' => ⌜c' = c ∧ c.Sound text ∧ lo ≤ c.token.span.start ∧ Node.FitsAll text lo c.lastStop ds ∧ Node.Sequential ds⌝⦄
    classRest g start ds ⦃⇓? n _ c' => ⌜c'.Sound text ∧ Closed text lo start c n c'⌝⦄ := by
  have hlist := many_spec (classMember_spec hg)
  mvcgen [classRest, hg, hlist] with grind

end Grammar

end Relink.Script
