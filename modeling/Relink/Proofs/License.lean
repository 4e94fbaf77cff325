import Relink.License
import Relink.Proofs.Edits
import Relink.Proofs.Statements

/-!
# What stands above a script

The retained comments of a script stand above its code, each on a line of its own. Comments behind marks of HTML are put
between the marks of a block.

* `retained`, `toList_header` — the comments that are retained.
* `isComment_commentText_iff` — such a comment is one whole comment, unless it is put between marks that it closes.
* `header_silent_iff` — then there is no token above the code, and nothing of the code is hidden.
-/

namespace Relink

open Place Script Script.Program

namespace Script

/-- A text in front of code, at the start of a line, leaves the first token of the code as it is. -/
def Silent (front : List Char) : Prop := ∀ code,
  (scanToken true true ⟨0, front ++ code⟩).token = (scanToken true true ⟨byteLength front, code⟩).token ∧
  (scanToken true true ⟨0, front ++ code⟩).after = (scanToken true true ⟨byteLength front, code⟩).after

/-- Whole comments, each on a line of its own, are skipped. -/
theorem skipGap_lines {ts : List (List Char)} (h : ∀ t ∈ ts, IsComment t) (spans : List Span) (o : Nat) (rest : List Char) :
    ∃ more, skipGap true .blank true spans o (ts.flatMap (· ++ ['\n']) ++ rest) =
      skipGap true .blank true (more ++ spans) (o + byteLength (ts.flatMap (· ++ ['\n']))) rest := by
  induction ts generalizing spans o with
  | nil => exact ⟨[], rfl⟩
  | cons t ts ih =>
    obtain ⟨ht, hts⟩ := List.forall_mem_cons.mp h
    obtain ⟨span, hspan⟩ := skipGap_comment ht spans o (ts.flatMap (· ++ ['\n']) ++ rest)
    obtain ⟨more, hmore⟩ := ih hts (span :: spans) (o + byteLength (t ++ ['\n']))
    refine ⟨more ++ [span], ?_⟩
    rw [List.flatMap_cons, List.append_assoc, List.append_assoc, List.singleton_append, hspan, hmore, Nat.add_assoc,
      ← byteLength_append, List.append_assoc more, List.singleton_append]

theorem silent_lines {ts : List (List Char)} (h : ∀ t ∈ ts, IsComment t) : Silent (ts.flatMap (· ++ ['\n'])) := by
  intro code
  obtain ⟨more, hmore⟩ := skipGap_lines h [] 0 code
  rw [Nat.zero_add, List.append_nil, ← List.nil_append more, skipGap_append] at hmore
  unfold scanToken
  simp only [hmore]
  split <;> exact ⟨rfl, rfl⟩

/-- Behind a text that is skipped there is no token when there is no code. -/
theorem Silent.stop {front : List Char} (h : Silent front) : (scanToken true true (first front)).token.lexeme = .stop := by
  have hnone := congrArg Token.lexeme (h []).1
  rwa [List.append_nil] at hnone

end Script

namespace License

/-- The texts of the retained comments of a script. -/
def retained (program : Program) (source : List Char) : List String :=
  (program.comments.map (commentText source)).filter fun text => rights.search (body text)

theorem toList_header (program : Program) (source : List Char) :
    (header program source).toList = ((retained program source).map String.toList).flatMap (· ++ ['\n']) := by
  unfold header retained
  induction program.comments with
  | nil => rfl
  | cons span spans ih =>
    rw [List.filterMap_cons, List.map_cons]
    by_cases hrights : rights.search (body (commentText source span)) = true
    · simp only [hrights, if_true, List.filter_cons_of_pos, String.join_cons, String.toList_append, ih, List.map_cons,
        List.flatMap_cons]
      rfl
    · simpa [hrights] using ih

/-- Whether a comment is put between the marks of a block. -/
def wraps (source : List Char) (span : Span) : Bool :=
  !(startsWith "//" (String.ofList (span.extract source)) || startsWith "/*" (String.ofList (span.extract source))) &&
    (Span.mk (span.start - 2) span.start).extract source != ['/', '/']

theorem isComment_wrapped_iff {t : List Char} : IsComment ('/' :: '*' :: (t ++ ['*', '/'])) ↔ Unclosed t := by
  refine ⟨fun h => ?_, .block⟩
  generalize hwhole : '/' :: '*' :: (t ++ ['*', '/']) = whole at h
  cases h with
  | line h => simp at hwhole
  | block h =>
    simp only [List.cons.injEq, true_and] at hwhole
    rwa [List.append_cancel_right hwhole]

/-- A comment of a script is retained as one whole comment, unless it is put between marks that it closes itself. -/
theorem isComment_commentText_iff {source : List Char} {span : Span} (h : Commented source span) :
    IsComment (commentText source span).toList ↔ (wraps source span = true → Unclosed (span.extract source)) := by
  obtain ⟨t, rest, hplace, hstop, hfound⟩ := h
  have htext : span.extract source = t :=
    @extract_of_leads ⟨source⟩ ⟨span.start, t ++ rest⟩ ⟨span.stop, rest⟩ hplace t rfl hstop
  have hown : (startsWith "//" (String.ofList t) || startsWith "/*" (String.ofList t)) = true ↔
      ['/', '/'] <+: t ∨ ['/', '*'] <+: t := by
    simp only [startsWith, String.toList_ofList, Bool.or_eq_true, List.isPrefixOf_iff_prefix]
    rfl
  unfold commentText wraps
  simp only [htext]
  rcases hfound.comment_or_oneLine with ⟨hcomment, hmark⟩ | ⟨hline, hmarks⟩
  · -- the comment has the marks of the language
    simpa [hown.mpr hmark] using hcomment
  · rw [Bool.eq_false_iff.mpr (fun h => (hown.mp h).elim hmarks.1 hmarks.2)]
    by_cases hslashes : (Span.mk (span.start - 2) span.start).extract source = ['/', '/']
    · simpa [hslashes] using IsComment.line hline
    · simpa [hslashes] using isComment_wrapped_iff

/-- The retained comments of a script stand above its code, each on a line of its own. All of them are whole comments if
and only if none that is put between the marks of a block has a mark in it that closes one. Then there is no token
above the code, and the code is read as if nothing stood above it. -/
theorem header_silent_iff {source : String} {program : Program} (h : Program.parse? .script source.toList = some program) :
    (header program source.toList).toList = ((retained program source.toList).map String.toList).flatMap (· ++ ['\n']) ∧
    ((∀ t ∈ retained program source.toList, IsComment t.toList) ↔
      ∀ span ∈ program.comments, rights.search (body (commentText source.toList span)) = true →
        wraps source.toList span = true → Unclosed (span.extract source.toList)) ∧
    ((∀ t ∈ retained program source.toList, IsComment t.toList) →
      (scanToken true true (first (header program source.toList).toList)).token.lexeme = .stop ∧
      Silent (header program source.toList).toList) := by
  have hcomments := (@found_of_parse? ⟨source.toList⟩ _ _ h).2
  refine ⟨toList_header program source.toList, ?_, fun hwhole => ?_⟩
  · unfold retained
    simp only [List.mem_filter, List.mem_map, and_imp, forall_exists_index, forall_apply_eq_imp_iff₂]
    refine forall₂_congr fun span hspan => imp_congr_right fun _ => ?_
    exact isComment_commentText_iff (hcomments span hspan)
  · have hsilent := silent_lines (List.forall_mem_map.mpr hwhole)
    rw [← toList_header] at hsilent
    exact ⟨hsilent.stop, hsilent⟩

/-- A script with a retained comment of the language, one behind a mark of HTML, and one that is not retained. -/
def licensedText : String := "/*!*/debugger//a\n--> (c)\n"

/-- Both are put above the code as whole comments. -/
theorem header_silent_of_licensedText : ∃ program, Program.parse? .script licensedText.toList = some program ∧
    (header program licensedText.toList).toList = "/*!*/\n/*--> (c)*/\n".toList ∧
    (∀ t ∈ retained program licensedText.toList, IsComment t.toList) ∧
    (scanToken true true (first (header program licensedText.toList).toList)).token.lexeme = .stop ∧
    Silent (header program licensedText.toList).toList := by
  have hparse : (Program.parse? .script licensedText.toList).map Program.comments =
      some [⟨0, 5⟩, ⟨13, 16⟩, ⟨17, 24⟩] := by rfl
  have htexts : [⟨0, 5⟩, ⟨13, 16⟩, ⟨17, 24⟩].map (commentText licensedText.toList) = ["/*!*/", "//a", "/*--> (c)*/"] := by
    rfl
  have hfirst : rights.search (body "/*!*/") = true := by rfl
  have hsecond : rights.search (body "//a") = false := by rfl
  have hthird : rights.search (body "/*--> (c)*/") = true := by rfl
  have hunclosed : ∀ span ∈ [⟨0, 5⟩, ⟨13, 16⟩, ⟨17, 24⟩], wraps licensedText.toList span = true →
      Unclosed (span.extract licensedText.toList) := by
    unfold Unclosed
    decide
  obtain ⟨program, hprogram, hcomments⟩ := Option.map_eq_some_iff.mp hparse
  obtain ⟨hheader, hiff, hsilent⟩ := header_silent_iff hprogram
  have hwhole := hiff.mpr fun span hspan _ => hunclosed span (hcomments ▸ hspan)
  refine ⟨program, hprogram, ?_, hwhole, hsilent hwhole⟩
  rw [hheader, retained, hcomments, htexts]
  simp [hfirst, hsecond, hthird]

/-- A script with a comment behind a mark of HTML in which a mark closes a comment. -/
def closingText : String := "<!-- (c) */ x\n"

/-- The comment is put above the code, and a token with it. -/
theorem exists_token_above : ∃ program, Program.parse? .script closingText.toList = some program ∧
    header program closingText.toList = "/*<!-- (c) */ x*/\n" ∧
    (scanToken true true (first (header program closingText.toList).toList)).token.lexeme = .word .plain ['x'] false := by
  have hparse : (Program.parse? .script closingText.toList).map Program.comments = some [⟨0, 13⟩] := by rfl
  have htext : commentText closingText.toList ⟨0, 13⟩ = "/*<!-- (c) */ x*/" := by rfl
  have hrights : rights.search (body "/*<!-- (c) */ x*/") = true := by rfl
  obtain ⟨program, hprogram, hcomments⟩ := Option.map_eq_some_iff.mp hparse
  have hheader : header program closingText.toList = "/*<!-- (c) */ x*/\n" := by
    unfold header
    rw [hcomments]
    simp [htext, hrights]
  refine ⟨program, hprogram, hheader, ?_⟩
  rw [hheader]
  rfl

end License

end Relink
