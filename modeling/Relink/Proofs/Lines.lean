import Mathlib.Data.List.Induction
import Mathlib.Data.Prod.Lex
import Mathlib.Order.Monotone.Basic
import Relink.Failure
import Relink.Proofs.Weaving

/-!
# The line and the column of an offset

An offset of a text is reported by the line in which it lies and the column in it, and a failure there shows the line.
Lines are counted by the newlines in front of an offset, and a line is shown as far as the next newline, so the two
have to agree on what a line is: the last one may be empty, and a carriage return is part of a line unless a newline
follows.

* `lt_advanceOver` — line and column grow with each character.
* `IsLine`, `Shown` — the lines of a text, and what is shown of a line.
* `advanceOver_split`, `lineAt_split` — an offset lies behind the lines in front of it, and the next one is shown.
* `Located`, `places_in_order` — lines and columns are in the order of the offsets, and lead back to them.
-/

namespace Relink

open Place Script

/-! ## Walking over characters -/

theorem advanceOver_append (front back : List Char) (line column : Nat) : advanceOver (front ++ back) line column =
    advanceOver back (advanceOver front line column).1 (advanceOver front line column).2 := by
  induction front generalizing line column with
  | nil => rfl
  | cons c cs ih =>
    simp only [List.cons_append, advanceOver]
    split
    · exact ih _ _
    · exact ih _ _

theorem fst_advanceOver (cs : List Char) (line column : Nat) :
    (advanceOver cs line column).1 = line + newlines cs := by
  induction cs generalizing line column with
  | nil => rfl
  | cons c cs ih =>
    rw [advanceOver, newlines]
    split
    · rw [ih, Nat.add_assoc]
    · rw [ih, Nat.zero_add]

theorem advanceOver_of_not_mem {cs : List Char} (h : '\n' ∉ cs) (line column : Nat) :
    advanceOver cs line column = (line, column + cs.length) := by
  induction cs generalizing column with
  | nil => rfl
  | cons c cs ih =>
    obtain ⟨hc, hcs⟩ := List.ne_and_not_mem_of_not_mem_cons h
    rw [advanceOver, if_neg (Ne.symm hc), ih hcs, List.length_cons, Nat.add_assoc, Nat.add_comm 1]

/-- Behind one character, the line is a later one or the column is. -/
theorem lt_advanceOver_singleton (c : Char) (line column : Nat) :
    toLex (line, column) < toLex (advanceOver [c] line column) := by
  rw [advanceOver, Prod.Lex.toLex_lt_toLex]
  split
  · exact Or.inl (Nat.lt_succ_self line)
  · exact Or.inr ⟨rfl, Nat.lt_succ_self column⟩

/-- Line and column grow with each character. -/
theorem lt_advanceOver {cs : List Char} (h : cs ≠ []) (line column : Nat) :
    toLex (line, column) < toLex (advanceOver cs line column) := by
  induction cs generalizing line column with
  | nil => exact absurd rfl h
  | cons c cs ih =>
    have hstep := lt_advanceOver_singleton c line column
    by_cases hcs : cs = []
    · rwa [hcs]
    · have hrun := ih hcs (advanceOver [c] line column).1 (advanceOver [c] line column).2
      rw [← advanceOver_append [c] cs] at hrun
      exact hstep.trans hrun

/-! ## Lines -/

/-- A text is made of whole lines, each with its newline. -/
def WholeLines (cs : List Char) : Prop := cs = [] ∨ ['\n'] <:+ cs

/-- A line that stands in front of a text ends there, with a newline or with the text itself. -/
def EndsLine (back : List Char) : Prop := back = [] ∨ ['\n'] <+: back

/-- A text is taken apart at the line with a number, counted from one. -/
structure IsLine (text : List Char) (number : Nat) (front line back : List Char) : Prop where
  text_eq : text = front ++ (line ++ back)
  number_eq : number = newlines front + 1
  starts : WholeLines front
  single : '\n' ∉ line
  ends : EndsLine back

/-- What is shown of a line is the line without its ending, which is a newline, with a carriage return in front of it if
there is one. The last line has no ending. -/
inductive Shown : (line back shown : List Char) → Prop where
  | last {line : List Char} : Shown line [] line
  | newline {line behind : List Char} (h : ¬['\r'] <:+ line) : Shown line ('\n' :: behind) line
  | carriageReturn {shown behind : List Char} : Shown (shown ++ ['\r']) ('\n' :: behind) shown

/-- A text ends in the middle of a line, or at its beginning. -/
theorem exists_lastLine (cs : List Char) :
    ∃ front begun, cs = front ++ begun ∧ WholeLines front ∧ '\n' ∉ begun := by
  induction cs using List.reverseRecOn with
  | nil => exact ⟨[], [], rfl, Or.inl rfl, List.not_mem_nil⟩
  | append_singleton cs c ih =>
    by_cases hc : c = '\n'
    · exact ⟨cs ++ [c], [], (List.append_nil _).symm, Or.inr ⟨cs, by rw [hc]⟩, List.not_mem_nil⟩
    · obtain ⟨front, begun, rfl, hfront, hbegun⟩ := ih
      refine ⟨front, begun ++ [c], List.append_assoc .., hfront, ?_⟩
      rw [List.mem_append, List.mem_singleton]
      exact not_or.mpr ⟨hbegun, Ne.symm hc⟩

/-- A text begins with the rest of a line, up to a newline or to its end. -/
theorem exists_firstLine (cs : List Char) :
    ∃ ending back, cs = ending ++ back ∧ '\n' ∉ ending ∧ EndsLine back := by
  induction cs with
  | nil => exact ⟨[], [], rfl, List.not_mem_nil, Or.inl rfl⟩
  | cons c cs ih =>
    by_cases hc : c = '\n'
    · exact ⟨[], c :: cs, rfl, List.not_mem_nil, Or.inr ⟨cs, by rw [hc]; rfl⟩⟩
    · obtain ⟨ending, back, rfl, hending, hback⟩ := ih
      exact ⟨c :: ending, back, rfl, List.not_mem_cons_of_ne_of_not_mem (Ne.symm hc) hending, hback⟩

/-- Behind the lines in front of it, an offset is in the next line, behind the part of it that has begun. -/
theorem advanceOver_split {front begun : List Char} (hfront : WholeLines front) (hbegun : '\n' ∉ begun) :
    advanceOver (front ++ begun) 1 1 = (newlines front + 1, begun.length + 1) := by
  have hcolumn : (advanceOver front 1 1).2 = 1 := by
    rcases hfront with rfl | ⟨before, rfl⟩
    · rfl
    · rw [advanceOver_append]
      rfl
  rw [advanceOver_append, fst_advanceOver, hcolumn, advanceOver_of_not_mem hbegun, Nat.add_comm, Nat.add_comm 1]

/-- Behind some whole lines, the line with their number is the first one. -/
theorem lineAt_split {front : List Char} (hfront : WholeLines front) (rest : List Char) :
    lineAt (newlines front) (front ++ rest) = lineAt 0 rest := by
  rcases hfront with rfl | ⟨before, rfl⟩
  · rfl
  · have hbefore : lineAt (newlines before + 1) (before ++ '\n' :: rest) = lineAt 0 rest := by
      induction before with
      | nil => rfl
      | cons c cs ih =>
        rw [newlines, List.cons_append]
        by_cases hc : c = '\n'
        · rw [if_pos hc, Nat.add_comm 1, ← ih, lineAt, if_pos hc]
        · rw [if_neg hc, Nat.zero_add, ← ih, lineAt, if_neg hc]
    rwa [newlines_append, List.append_assoc]

/-- Behind a newline at the end of a text, a line is empty. -/
theorem lineAt_newlines {cs : List Char} (h : ['\n'] <:+ cs) : lineAt (newlines cs) cs = [] := by
  have hempty := lineAt_split (Or.inr h) []
  rwa [List.append_nil] at hempty

theorem dropReturn_of_not_suffix {line : List Char} (h : ¬['\r'] <:+ line) : dropReturn line = line := by
  unfold dropReturn
  split
  next rest hreverse =>
    refine absurd ⟨rest.reverse, ?_⟩ h
    rw [← List.reverse_cons, ← hreverse, List.reverse_reverse]
  next => rfl

theorem dropReturn_append (shown : List Char) : dropReturn (shown ++ ['\r']) = shown := by
  unfold dropReturn
  rw [List.reverse_append]
  exact List.reverse_reverse shown

/-- The first line of a text is shown without its ending. -/
theorem shown_lineAt_zero {line back : List Char} (hline : '\n' ∉ line) (hback : EndsLine back) :
    Shown line back (lineAt 0 (line ++ back)) := by
  have hall : ∀ c ∈ line, decide (c ≠ '\n') = true := fun c hc => decide_eq_true (ne_of_mem_of_not_mem hc hline)
  have htake : (line ++ back).takeWhile (· ≠ '\n') = line := by
    rw [List.takeWhile_append_of_pos hall]
    rcases hback with rfl | ⟨behind, rfl⟩
    · exact List.append_nil line
    · exact List.append_nil line
  rw [lineAt, htake]
  rcases hback with rfl | ⟨behind, rfl⟩
  · rw [List.append_nil, if_neg (Nat.lt_irrefl _)]
    exact .last
  · rw [if_pos (by simp)]
    by_cases hreturn : ['\r'] <:+ line
    · obtain ⟨shown, rfl⟩ := hreturn
      rw [dropReturn_append]
      exact .carriageReturn
    · rw [dropReturn_of_not_suffix hreturn]
      exact .newline hreturn

/-! ## Offsets -/

/-- An offset between two characters cuts a text in two. -/
theorem exists_split_of_cut {cs : List Char} {n : Nat} (h : Cut ⟨cs⟩ n) :
    ∃ before after, cs = before ++ after ∧ n = byteLength before ∧ takeBytes n cs = before := by
  obtain ⟨p, ⟨before, htext, hoffset⟩, rfl⟩ := h
  have htext : cs = before ++ p.rest := htext
  have hoffset : p.offset = 0 + byteLength before := hoffset
  rw [Nat.zero_add] at hoffset
  exact ⟨before, p.rest, htext, hoffset, by rw [hoffset, htext, takeBytes_append]⟩

/-- The line and column of an offset between two characters. -/
theorem exists_isLine (cs : List Char) {n : Nat} (h : Cut ⟨cs⟩ n) : ∃ front begun ending back,
    IsLine cs (newlines front + 1) front (begun ++ ending) back ∧ n = byteLength (front ++ begun) ∧
      advanceOver (takeBytes n cs) 1 1 = (newlines front + 1, begun.length + 1) := by
  obtain ⟨before, after, rfl, hoffset, htake⟩ := exists_split_of_cut h
  obtain ⟨front, begun, rfl, hfront, hbegun⟩ := exists_lastLine before
  obtain ⟨ending, back, rfl, hending, hback⟩ := exists_firstLine after
  refine ⟨front, begun, ending, back, ⟨?_, rfl, hfront, ?_, hback⟩, hoffset, ?_⟩
  · simp only [List.append_assoc]
  · rw [List.mem_append]
    exact not_or.mpr ⟨hbegun, hending⟩
  · rw [htake, advanceOver_split hfront hbegun]

section Locate

variable {source : String} {offset : Nat}

theorem locate_of_le (h : source.utf8ByteSize ≤ offset) :
    locate source offset = locate source source.utf8ByteSize := by
  rw [← byteLength_toList] at h ⊢
  rw [locate, locate, takeBytes_of_le h, takeBytes_of_le (Nat.le_refl _)]

theorem fst_locate_of_le (h : source.utf8ByteSize ≤ offset) :
    (locate source offset).1 = newlines source.toList + 1 := by
  rw [locate, takeBytes_of_le (byteLength_toList source ▸ h), fst_advanceOver, Nat.add_comm]

/-- The place of an offset comes before that of a later one. -/
theorem locate_lt {m n : Nat} (hm : Cut ⟨source.toList⟩ m) (hn : Cut ⟨source.toList⟩ n) (h : m < n) :
    toLex (locate source m) < toLex (locate source n) := by
  obtain ⟨front, passed, r, -, -, hrest, hfront, hpassed, -, -⟩ :=
    exists_cut_twice (Nat.le_of_lt h) hm hn (Leads.refl (first source.toList)) (Nat.zero_le m)
  have hrest : source.toList = front ++ (passed ++ r.rest) := hrest
  have hfront : m = 0 + byteLength front := hfront
  have hne : passed ≠ [] := by
    rintro rfl
    rw [byteLength] at hpassed
    omega
  have hsum : n = byteLength (front ++ passed) := by
    rw [byteLength_append]
    omega
  have hlater := lt_advanceOver hne (advanceOver front 1 1).1 (advanceOver front 1 1).2
  rw [← advanceOver_append] at hlater
  have htake : takeBytes m source.toList = front := by
    rw [hfront, Nat.zero_add, hrest, takeBytes_append]
  have htake' : takeBytes n source.toList = front ++ passed := by
    rw [hsum, hrest, ← List.append_assoc, takeBytes_append]
  rwa [locate, locate, htake, htake']

/-- The line and the column that are reported for an offset lead back to it, and a failure at the offset shows the text
of the line. An offset behind the end stands for the end. -/
structure Located (source : String) (offset : Nat) (front line back : List Char) (snippet : String) : Prop where
  isLine : IsLine source.toList (locate source offset).1 front line back
  column_pos : 1 ≤ (locate source offset).2
  column_le : (locate source offset).2 ≤ line.length + 1
  offset_eq : min offset source.utf8ByteSize = byteLength (front ++ line.take ((locate source offset).2 - 1))
  shown : Shown line back snippet.toList
  shown_behind : ['\n'] <:+ source.toList → source.utf8ByteSize ≤ offset → snippet = ""
  failure : ∀ file text, Failure.minifyAt file source offset text =
    .minify file (locate source offset).1 (locate source offset).2 text
      (some ⟨some file, some (locate source offset), some snippet⟩)

theorem Located.of_isLine {front begun ending back : List Char}
    (hline : IsLine source.toList (newlines front + 1) front (begun ++ ending) back)
    (hoffset : min offset source.utf8ByteSize = byteLength (front ++ begun))
    (hplace : locate source offset = (newlines front + 1, begun.length + 1)) :
    Located source offset front (begun ++ ending) back (String.ofList (lineAt (newlines front) source.toList)) where
  isLine := by rwa [hplace]
  column_pos := by
    rw [hplace]
    exact Nat.le_add_left 1 _
  column_le := by
    rw [hplace, List.length_append]
    omega
  offset_eq := by rw [hplace, hoffset, Nat.add_sub_cancel, List.take_left]
  shown := by
    rw [String.toList_ofList, hline.text_eq, lineAt_split hline.starts]
    exact shown_lineAt_zero hline.single hline.ends
  shown_behind := by
    intro hnewline hle
    have hlines : newlines front + 1 = newlines source.toList + 1 := by rw [← fst_locate_of_le hle, hplace]
    rw [Nat.succ.inj hlines, lineAt_newlines hnewline]
  failure := by
    intro file text
    rw [Failure.minifyAt, hplace]
    rfl

theorem exists_located (h : Cut ⟨source.toList⟩ offset ∨ source.utf8ByteSize ≤ offset) :
    ∃ front line back snippet, Located source offset front line back snippet := by
  -- an offset behind the end stands for the end, where the last character ends
  have hbound : Cut ⟨source.toList⟩ (min offset source.utf8ByteSize) ∧
      locate source offset = locate source (min offset source.utf8ByteSize) := by
    rcases h with hcut | hle
    · have hle : offset ≤ source.utf8ByteSize := byteLength_toList source ▸ hcut.le_byteLength
      rw [Nat.min_eq_left hle]
      exact ⟨hcut, rfl⟩
    · rw [Nat.min_eq_right hle]
      exact ⟨byteLength_toList source ▸ Step.cut_byteLength, locate_of_le hle⟩
  obtain ⟨hcut, hlocate⟩ := hbound
  obtain ⟨front, begun, ending, back, hline, hoffset, hadvance⟩ := exists_isLine source.toList hcut
  exact ⟨front, begun ++ ending, back, _, .of_isLine hline hoffset (hlocate.trans hadvance)⟩

end Locate

/-- Lines and columns are in the order of the offsets between the characters of a text, so they tell these apart; behind
the end they stay. They are those of the line in which the offset lies, and that line is shown. -/
theorem places_in_order (source : String) :
    StrictMonoOn (fun offset => toLex (locate source offset)) {offset | Cut ⟨source.toList⟩ offset} ∧
      Set.InjOn (locate source) {offset | Cut ⟨source.toList⟩ offset} ∧
      (∀ offset, source.utf8ByteSize ≤ offset → locate source offset = locate source source.utf8ByteSize) ∧
      ∀ offset, Cut ⟨source.toList⟩ offset ∨ source.utf8ByteSize ≤ offset →
        ∃ front line back snippet, Located source offset front line back snippet := by
  have hmono : StrictMonoOn (fun offset => toLex (locate source offset)) {offset | Cut ⟨source.toList⟩ offset} :=
    fun m hm n hn h => locate_lt hm hn h
  refine ⟨hmono, ?_, fun offset => locate_of_le, fun offset => exists_located⟩
  intro m hm n hn h
  exact hmono.injOn hm hn (congrArg toLex h)

/-- A line with a character of two bytes that ends with a carriage return and a newline, and one that ends with a
newline. -/
def returnText : String := "é\r\nb\n"

/-- The place in front of the first newline, and that behind the last one. -/
theorem places_in_order_of_returnText : Cut ⟨returnText.toList⟩ 3 ∧ Cut ⟨returnText.toList⟩ 6 ∧
    returnText.utf8ByteSize ≤ 7 ∧ locate returnText 3 = (1, 3) ∧ locate returnText 6 = (3, 1) ∧
    toLex (locate returnText 3) < toLex (locate returnText 6) ∧ locate returnText 7 = locate returnText 6 ∧
    (∃ front line back, Located returnText 3 front line back "é") ∧
    ∃ front line back, Located returnText 7 front line back "" := by
  obtain ⟨hmono, -, hbehind, hlocated⟩ := places_in_order returnText
  have hfirst : Cut ⟨returnText.toList⟩ 3 := ⟨⟨3, ['\n', 'b', '\n']⟩, ⟨['é', '\r'], by decide, by decide⟩, rfl⟩
  have hlast : Cut ⟨returnText.toList⟩ 6 := ⟨⟨6, []⟩, ⟨returnText.toList, by decide, by decide⟩, rfl⟩
  have hsize : returnText.utf8ByteSize = 6 := by decide
  have hle : returnText.utf8ByteSize ≤ 7 := by omega
  refine ⟨hfirst, hlast, hle, by decide, by decide, hmono hfirst hlast (by decide), ?_, ?_, ?_⟩
  · rw [hbehind 7 hle, hsize]
  · obtain ⟨front, line, back, snippet, h⟩ := hlocated 3 (Or.inl hfirst)
    have hfailure : Failure.minifyAt ⟨"a.js"⟩ returnText 3 "" =
        .minify ⟨"a.js"⟩ 1 3 "" (some ⟨some ⟨"a.js"⟩, some (1, 3), some "é"⟩) := by decide
    have hsame := (h.failure ⟨"a.js"⟩ "").symm.trans hfailure
    simp only [Failure.minify.injEq, Option.some.injEq, Excerpt.mk.injEq] at hsame
    obtain ⟨-, -, -, -, -, -, hsnippet⟩ := hsame
    exact ⟨front, line, back, hsnippet ▸ h⟩
  · obtain ⟨front, line, back, snippet, h⟩ := hlocated 7 (Or.inr hle)
    have hempty : snippet = "" := h.shown_behind ⟨"é\r\nb".toList, by decide⟩ hle
    exact ⟨front, line, back, hempty ▸ h⟩

end Relink
