import Relink.Proofs.Getters
import Relink.Proofs.Mentions

/-!
# The lines of the code of a module

* `convert_keepsLines` — a converted module keeps its lines.
* `transform_keepsLines_iff` — the code of a script keeps its lines if and only if no call of `require` gets more lines
  than its string has.
-/

namespace Relink

open Place

variable {text : Script.Source}

/-! ## Texts of one line -/

theorem not_mem_quoted (text : String) : '\n' ∉ (quoted text).toList := by
  have hchar : ∀ c, '\n' ∉ quoteChar c := by
    intro c
    rcases Json.quoteChar_cases c with ⟨e, hmem, hquote⟩ | ⟨a, b, hhex, hquote⟩ | ⟨⟨-, -, hcontrol⟩, hquote⟩
    · have hletter : ∀ p ∈ [('\x22', '\x22'), ('\\', '\\'), ('\n', 'n'), ('\r', 'r'), ('\t', 't'), ('\x08', 'b'),
          ('\x0c', 'f')], p.2 ≠ '\n' := by
        decide
      simp [hquote, (hletter _ hmem).symm]
    · obtain ⟨ha, hb⟩ : Unicode.isHexDigit a ∧ Unicode.isHexDigit b := by
        unfold hex4? at hhex
        split at hhex
        next hdigits =>
          simp only [Bool.and_eq_true] at hdigits
          exact ⟨hdigits.1.2, hdigits.2⟩
        next => cases hhex
      have hne : ∀ d, Unicode.isHexDigit d → '\n' ≠ d := by
        rintro d hd rfl
        exact absurd hd (by decide)
      simp [hquote, hne a ha, hne b hb]
    · rw [hquote, List.mem_singleton]
      rintro rfl
      exact hcontrol (by decide)
  rw [Json.toList_quoted]
  simp [hchar]

theorem not_mem_intercalate {separator : String} {ts : List String} (hseparator : '\n' ∉ separator.toList)
    (hts : ∀ t ∈ ts, '\n' ∉ t.toList) : '\n' ∉ (separator.intercalate ts).toList := by
  induction ts with
  | nil => simp
  | cons t ts ih =>
    obtain ⟨ht, hts⟩ := List.forall_mem_cons.mp hts
    cases ts with
    | nil => simpa using ht
    | cons t' ts =>
      have hrest := ih hts
      rw [String.intercalate_cons_cons, String.toList_append, String.toList_append]
      simp only [List.mem_append, ht, hseparator, hrest, or_false, not_false_eq_true]

theorem not_mem_join {ts : List String} (hts : ∀ t ∈ ts, '\n' ∉ t.toList) : '\n' ∉ (String.join ts).toList := by
  induction ts with
  | nil => simp
  | cons t ts ih =>
    obtain ⟨ht, hts⟩ := List.forall_mem_cons.mp hts
    have hrest := ih hts
    rw [String.join_cons, String.toList_append]
    simp only [List.mem_append, ht, hrest, or_false, not_false_eq_true]

namespace Script.CommonJs

theorem not_mem_of_isPlainName {name : String} (h : isPlainName name) : '\n' ∉ name.toList := by
  intro hmem
  unfold isPlainName at h
  split at h
  next => cases h
  next c cs hname =>
    rw [hname] at hmem
    obtain ⟨hc, hcs⟩ := (Bool.and_eq_true _ _).mp h
    rcases List.mem_cons.mp hmem with rfl | hmem
    · exact absurd hc (by decide)
    · exact absurd (List.all_eq_true.mp hcs _ hmem) (by decide)

theorem not_mem_memberText {object : String} (h : '\n' ∉ object.toList) (name : String) :
    '\n' ∉ (memberText object name).toList := by
  unfold memberText
  split
  next hname => simp [h, not_mem_of_isPlainName hname]
  next => simp [h, not_mem_quoted]

theorem not_mem_moduleName (number : Nat) : '\n' ∉ (moduleName number).toList := by
  unfold moduleName
  simp [not_mem_toDigits]

theorem not_mem_moduleText (number : Nat) (source : String) : '\n' ∉ (moduleText number source).toList := by
  unfold moduleText requireText
  simp [not_mem_moduleName, not_mem_quoted]

theorem not_mem_bindingText {module : String} (h : '\n' ∉ module.toList) {b : ImportBinding}
    (hb : '\n' ∉ b.local_.toList) : '\n' ∉ (bindingText module b).toList := by
  unfold bindingText
  split
  next => simp [hb, defaultText, h]
  next => simp [hb, h]
  next name _ => simp [hb, not_mem_memberText h name]

theorem not_mem_getterText (name : String) {value : String} (h : '\n' ∉ value.toList) :
    '\n' ∉ (getterText name value).toList := by
  unfold getterText
  simp [not_mem_quoted, h]

/-- A definition has one line if the names of bindings in it do. -/
theorem not_mem_definition {d : Definition} (h : ∀ getters, d = .table getters → ∀ g ∈ getters, '\n' ∉ g.2.toList) :
    '\n' ∉ d.text.toList := by
  cases d with
  | marker => decide
  | table getters =>
    unfold Definition.text
    simp only [String.toList_append, List.mem_append, not_or]
    refine ⟨⟨by simp, not_mem_intercalate (by decide) ?_⟩, by simp⟩
    intro t ht
    obtain ⟨⟨name, value⟩, hg, rfl⟩ := List.mem_map.mp ht
    exact not_mem_getterText name (h getters rfl _ hg)
  | getter name number member =>
    have hvalue : '\n' ∉ (member.elim (moduleName number) (memberText (moduleName number))).toList := by
      cases member with
      | none => exact not_mem_moduleName number
      | some member => exact not_mem_memberText (not_mem_moduleName number) member
    unfold Definition.text defineText
    simp [not_mem_quoted, hvalue]
  | copy number =>
    unfold Definition.text copyText
    simp only [String.toList_append, List.mem_append, not_mem_moduleName, or_false]
    decide
  | assignment => decide

/-- What becomes of a statement has one line. -/
theorem not_mem_emission {n : Node} (h : n.kind.OneLine) (number : Nat) :
    ∀ e ∈ emissions number n, '\n' ∉ e.text.toList := by
  have htext : ∀ e : Emission, '\n' ∉ e.front.toList → (∀ d ∈ e.definitions, ∀ getters, d ≠ .table getters) →
      '\n' ∉ e.text.toList := by
    intro e hfront hdefinitions
    have hjoin : '\n' ∉ (String.join (e.definitions.map Definition.text)).toList := by
      refine not_mem_join ?_
      intro t ht
      obtain ⟨d, hd, rfl⟩ := List.mem_map.mp ht
      exact not_mem_definition fun getters heq => absurd heq (hdefinitions d hd getters)
    rw [Emission.text, String.toList_append, List.mem_append, not_or]
    exact ⟨hfront, hjoin⟩
  unfold emissions
  split <;> intro e he
  next from_ span ps => 
    rw [List.mem_singleton.mp he]
    refine htext _ ?_ (by simp)
    simp [requireText, not_mem_quoted]
  next bindings from_ span ps hne =>
    rw [List.mem_singleton.mp he]
    refine htext _ ?_ (by simp)
    have hlocals : '\n' ∉ (", ".intercalate (bindings.map (bindingText (moduleName number)))).toList := by
      refine not_mem_intercalate (by decide) ?_
      intro t ht
      obtain ⟨b, hb, rfl⟩ := List.mem_map.mp ht
      exact not_mem_bindingText (not_mem_moduleName number) (h b hb)
    simp only [String.toList_append, List.mem_append, not_mem_moduleText, hlocals]
    simp
  next =>
    rw [List.mem_singleton.mp he]
    exact htext _ (by simp) (by simp)
  next bindings from_ span =>
    rw [List.mem_singleton.mp he]
    exact htext _ (not_mem_moduleText number from_) (by simp)
  next =>
    rw [List.mem_singleton.mp he]
    exact htext _ (by simp) (by simp)
  next span value ps =>
    simp only at he
    split at he <;> simp at he <;> rcases he with rfl | rfl <;> exact htext _ (by simp) (by simp)
  next exported from_ span ps =>
    rw [List.mem_singleton.mp he]
    refine htext _ (not_mem_moduleText number from_) ?_
    cases exported <;> simp
  next => cases he

theorem exists_of_mem_emissionsFrom {number : Nat} {ns : List Node} {e : Emission} (h : e ∈ emissionsFrom number ns) :
    ∃ n ∈ ns, ∃ number', e ∈ emissions number' n := by
  induction ns generalizing number with
  | nil => cases h
  | cons n ns ih =>
    rcases List.mem_append.mp h with h | h
    · exact ⟨n, List.mem_cons_self, number, h⟩
    · obtain ⟨m, hm, h⟩ := ih h
      exact ⟨m, List.mem_cons_of_mem _ hm, h⟩

/-- The bindings that a statement exports are written on one line. -/
theorem not_mem_ownExports {n : Node} (h : ∀ m ∈ n.preorder, m.kind.OneLine) :
    ∀ e ∈ ownExports n, '\n' ∉ e.2.toList :=
  fun e he => (mentions_of_ownExports e he).not_mem h

theorem isEven_of_oneLine {source : List Char} {span : Span} {new : String} (h : '\n' ∉ new.toList) :
    (Edit.replace source span new).IsEven source := by
  rw [isEven_replace, newlines_eq_zero h]
  exact Nat.zero_le _

/-- A converted module has the lines of the source, and what is kept of the source stays on its line. -/
theorem convert_keepsLines {source converted : String} (h : convert source = .ok (some converted)) :
    ∃ program, Program.parse? .module source.toList = some program ∧
      newlines converted.toList = newlines source.toList ∧
      newlines (prologueText (program.body.flatMap ownExports)).toList = 0 ∧
      KeepsLines (prologueText (program.body.flatMap ownExports)).toList source.toList []
        ((emissionsFrom 0 program.body).map (Emission.edit source.toList)) converted.toList := by
  obtain ⟨program, hprogram, hconverted⟩ := convert_eq_ok h
  have hlined : Lined ⟨source.toList⟩ program.body := Program.lined_of_parse? hprogram
  have honeLine : ∀ n ∈ program.body, ∀ m ∈ n.preorder, m.kind.OneLine :=
    fun n hn m hm => ((hlined.standing n hn).fits m hm).oneLine
  have hprologue : newlines (prologueText (program.body.flatMap ownExports)).toList = 0 := by
    refine newlines_eq_zero ?_
    have hjoin : '\n' ∉ (String.join ((prologue (program.body.flatMap ownExports)).map Definition.text)).toList := by
      refine not_mem_join ?_
      intro t ht
      obtain ⟨d, hd, rfl⟩ := List.mem_map.mp ht
      refine not_mem_definition ?_
      rintro getters rfl e he
      obtain ⟨-, rfl⟩ : _ ∧ getters = program.body.flatMap ownExports := by simpa [prologue] using hd
      obtain ⟨n, hn, he⟩ := List.mem_flatMap.mp he
      exact not_mem_ownExports (honeLine n hn) e he
    rw [prologueText_eq, String.toList_append, List.mem_append, not_or]
    exact ⟨hjoin, by decide⟩
  have heven : ∀ e ∈ (emissionsFrom 0 program.body).map (Emission.edit source.toList), e.IsEven source.toList := by
    intro e he
    obtain ⟨m, hm, rfl⟩ := List.mem_map.mp he
    obtain ⟨n, hn, number, hm⟩ := exists_of_mem_emissionsFrom hm
    exact isEven_of_oneLine (not_mem_emission (honeLine n hn n (Node.self_mem_preorder n)) number m hm)
  obtain ⟨hkeeps, hascending⟩ := @keeps_emissionsFrom ⟨source.toList⟩ _ hprogram
  have hlines := (@keepsLines_iff ⟨source.toList⟩ (prologueText (program.body.flatMap ownExports)).toList [] _ hkeeps
    hascending).mpr heven
  rw [List.append_nil, ← hconverted] at hlines
  refine ⟨program, hprogram, ?_, hprologue, hlines⟩
  have htotal := hlines.total
  rw [hprologue] at htotal
  simpa [newlines] using htotal

/-- A module whose imports and exports take up several lines, or share one. -/
def linedText : String :=
  "import \x7b\n  a,\n  b as c\n\x7d from \"./d\"; export default\n  function () \x7b \x7d\nexport const e = a, f =\n  c;\n"

/-- The module is converted, and its text has seven lines as before. -/
theorem convert_keepsLines_linedText : ∃ converted program, convert linedText = .ok (some converted) ∧
    Program.parse? .module linedText.toList = some program ∧ newlines converted.toList = 7 ∧
      KeepsLines (prologueText (program.body.flatMap ownExports)).toList linedText.toList []
        ((emissionsFrom 0 program.body).map (Emission.edit linedText.toList)) converted.toList := by
  obtain ⟨converted, program, hconvert, hprogram, hseven⟩ :=
    @exists_converted_of_check linedText (fun cs _ => newlines cs = 7) _ ⟨_, String.toList_ofList, by decide +kernel⟩
  obtain ⟨program', hprogram', htotal, -, hlines⟩ := convert_keepsLines hconvert
  obtain rfl : program = program' := Option.some_inj.mp (hprogram.symm.trans hprogram')
  exact ⟨converted, program, hconvert, hprogram, htotal.trans hseven, hlines⟩

end Script.CommonJs

/-! ## Scripts -/

section Replacing

variable {old new : List Char}

/-- Replacing a text of one line by one keeps the number of lines. -/
theorem newlines_replaceFrom (hold : '\n' ∉ old) (hne : old ≠ []) (hnew : '\n' ∉ new) {skip : Nat} {cs : List Char}
    (hskip : '\n' ∉ cs.take skip) : newlines (replaceFrom old new skip cs) = newlines cs := by
  fun_induction replaceFrom old new skip cs with
  | case1 => rfl
  | case2 skip c cs ih =>
    rw [List.take_succ_cons] at hskip
    obtain ⟨hc, hcs⟩ := List.ne_and_not_mem_of_not_mem_cons hskip
    rw [ih hcs, newlines, if_neg (Ne.symm hc), Nat.zero_add]
  | case3 c cs hprefix ih =>
    obtain ⟨rest, hrest⟩ := List.isPrefixOf_iff_prefix.mp hprefix
    cases old with
    | nil => exact absurd rfl hne
    | cons d old =>
      obtain ⟨rfl, rfl⟩ := List.cons.inj hrest
      obtain ⟨hd, hold'⟩ := List.ne_and_not_mem_of_not_mem_cons hold
      rw [newlines_append, newlines_eq_zero hnew, ih (by simpa using hold'), newlines, if_neg (Ne.symm hd)]
  | case4 c cs _ ih => rw [newlines, newlines, ih (by simp)]

theorem newlines_commentSafe (text : String) : newlines (Step.commentSafe text).toList = newlines text.toList := by
  unfold Step.commentSafe replaceAll
  rw [String.toList_ofList]
  exact newlines_replaceFrom (by decide) (by decide) (by decide) (by simp)

/-- A comment does not end where a specifier has the end of a comment. -/
example : Step.commentSafe "a*/b" = "a*\\/b" := by rfl

end Replacing

namespace Script

/-- What stands between quotes in a getter export stands in front of its value. -/
structure GetterExport.Named (text : Source) (e : GetterExport) : Prop where
  name : e.name.Placed text
  before : e.before.Placed text
  within : e.name.inside e.before

theorem Node.placed_name {n : Node} {lo hi : Nat} {name value : Span} (hfits : n.Fits text lo hi)
    (h : n.getterExport? = some (name, value)) : name.Placed text := by
  obtain ⟨s, callee, target, v, ps, object, returned, s', rfl, -, -⟩ := exists_of_getterExport? h
  have hname : (mk (.string v) name ps).Fits text lo hi := hfits.part (by simp)
  exact ⟨Nat.le_of_lt hname.within.shape.1, hname.cut_start, hname.cut_stop⟩

theorem GetterExport.Found.named {e : GetterExport} {n x : Node} (h : e.Found n x) (hn : Standing text n) :
    e.Named text := by
  obtain ⟨hstart, -, hvalue, -⟩ := h.ordered hn
  obtain ⟨rfl, hx⟩ := h
  have hfits : x.Fits text e.statement.start e.statement.stop := hn.fits.part (List.mem_singleton_self x)
  obtain ⟨value, hspan, hvalueFits⟩ := Node.fits_of_getterExport? hx hfits
  rw [← hspan] at hvalue
  have hbefore : e.before = ⟨e.statement.start, value.span.start⟩ := by rw [hspan, GetterExport.before]
  refine ⟨Node.placed_name hfits hx, ?_, ?_⟩
  · rw [hbefore]
    exact ⟨hvalueFits.le_start, hn.fits.cut_start, hvalueFits.cut_start⟩
  · rw [hbefore]
    exact Span.inside_iff.mpr ⟨hstart, hvalue⟩

theorem Summary.named_of_parse? {source : String} {s : Summary} (h : parse? source = some s) :
    ∀ e ∈ s.getterExports, e.Named ⟨source.toList⟩ := by
  obtain ⟨program, hprogram, rfl⟩ := Option.map_eq_some_iff.mp h
  have hlined : Lined ⟨source.toList⟩ program.body := Program.lined_of_parse? hprogram
  intro e he
  obtain ⟨n, hn, x, hfound⟩ := exists_found program e he
  exact hfound.named (hlined.standing n hn)

end Script

open Script

theorem newlines_extract_le {a b : Span} (ha : a.Placed text) (hb : b.Placed text) (h : a.inside b) :
    newlines (a.extract text.chars) ≤ newlines (b.extract text.chars) := by
  obtain ⟨hstart, hstop⟩ := Span.inside_iff.mp h
  have hfront := extract_append hb.start ha.start hb.stop hstart (ha.ordered.trans hstop)
  have hback := extract_append ha.start ha.stop hb.stop ha.ordered hstop
  change newlines (Span.extract ⟨a.start, a.stop⟩ text.chars) ≤ newlines (Span.extract ⟨b.start, b.stop⟩ text.chars)
  rw [hfront, hback]
  simp only [newlines_append]
  omega

namespace Step

variable {ids : Table String ModuleId} {s : Summary}

/-- The steps that undo the work of a compiler keep the number of lines. -/
theorem isEven_compilerEdits (hnamed : ∀ e ∈ s.getterExports, e.Named text) (applyTransforms : Bool) :
    ∀ e ∈ compilerEdits text.chars ids s applyTransforms, e.IsEven text.chars := by
  have hline : ∀ {span : Span} {new : String}, '\n' ∉ new.toList → (Edit.replace text.chars span new).IsEven text.chars :=
    CommonJs.isEven_of_oneLine
  intro e he
  cases applyTransforms with
  | false => cases he
  | true =>
    obtain ⟨step, hstep, he⟩ := List.mem_flatMap.mp he
    simp only [compilerSteps, List.mem_cons, List.not_mem_nil, or_false] at hstep
    rcases hstep with rfl | rfl | rfl | rfl
    · obtain ⟨span, -, rfl⟩ := List.mem_map.mp he
      exact hline (by decide)
    · obtain ⟨span, -, rfl⟩ := List.mem_map.mp he
      exact hline (by decide)
    · obtain ⟨span, -, rfl⟩ := List.mem_map.mp he
      exact hline (by decide)
    · obtain ⟨getter, hgetter, he⟩ := List.mem_flatMap.mp he
      obtain ⟨hname, hbefore, hinside⟩ := hnamed getter hgetter
      simp only [List.mem_cons, List.not_mem_nil, or_false] at he
      rcases he with rfl | rfl
      · -- the lines of the name are among those that are replaced
        have hle := newlines_extract_le hname hbefore hinside
        have hopen : newlines "__esExport(".toList = 0 := by decide
        have hcomma : newlines ", ".toList = 0 := by decide
        rw [isEven_replace]
        simp only [String.toList_append, String.toList_ofList, newlines_append, hopen, hcomma]
        unfold GetterExport.before at hle
        omega
      · exact hline (by decide)

/-- The edit of a call keeps the number of lines if and only if the id and the specifier have no more lines than the
string in the text. -/
theorem isEven_numbering {call : RequireCall} {id : ModuleId} :
    (Edit.replace text.chars call.span (id.literal ++ " /* " ++ commentSafe call.specifier ++ " */")).IsEven text.chars ↔
      newlines id.literal.toList + newlines call.specifier.toList ≤ newlines (call.span.extract text.chars) := by
  have hopen : newlines " /* ".toList = 0 := by decide
  have hclose : newlines " */".toList = 0 := by decide
  rw [isEven_replace]
  simp only [String.toList_append, newlines_append, hopen, hclose, newlines_commentSafe, Nat.add_zero]

end Step

/-- The code of a script has the lines of its head, of the source and of its tail, and what is kept of the source stays
on its line, if and only if each id that is written with its specifier has no more lines than the string that it
replaces. -/
theorem transform_keepsLines_iff {subject : Subject} {s : Summary} (hparse : Summary.parse? subject.source = some s)
    (hsummary : subject.summary = some s) (applyTransforms : Bool) :
    ∃ code replaced, transform .js applyTransforms subject = .ok code ∧
      code.map = (SourceMap.lineMap subject.basePath subject.source
        (newlines (Step.headText subject.basePath).toList)).render ∧
      replaced.Perm (Step.compilerEdits subject.source.toList subject.ids s applyTransforms ++
        (s.requires.filterMap (Step.numbering? subject.source.toList subject.ids)).filter
          (Edit.outside (Step.compilerEdits subject.source.toList subject.ids s applyTransforms))) ∧
      (KeepsLines (Step.headText subject.basePath).toList subject.source.toList
          (Step.tailText subject.source.toList).toList replaced code.source.toList ↔
        ∀ call ∈ s.requires, (applyTransforms = true → ¬s.regions.any call.span.inside) →
          ∀ id, subject.ids.get? call.specifier = some id →
            newlines id.literal.toList + newlines call.specifier.toList ≤
              newlines (call.span.extract subject.source.toList)) := by
  obtain ⟨code, replaced, hcode, hsource, hmap, hkeeps, hascending, hperm⟩ :=
    exists_replaced hparse hsummary applyTransforms
  refine ⟨code, replaced, hcode, hmap, hperm, ?_⟩
  have hnamed := Summary.named_of_parse? hparse
  rw [hsource]
  refine (keepsLines_iff hkeeps hascending).trans ?_
  have hcompiler := @Step.isEven_compilerEdits ⟨subject.source.toList⟩ subject.ids s hnamed applyTransforms
  constructor
  · intro heven call hcall houtside id hid
    have hedit : Step.numbering? subject.source.toList subject.ids call = some (Edit.replace subject.source.toList call.span
        (id.literal ++ " /* " ++ Step.commentSafe call.specifier ++ " */")) := by
      rw [Step.numbering?, hid, Option.map_some]
    refine (@Step.isEven_numbering ⟨subject.source.toList⟩ call id).mp (heven _ (hperm.mem_iff.mpr ?_))
    refine List.mem_append_right _ (List.mem_filter.mpr ⟨List.mem_filterMap.mpr ⟨call, hcall, hedit⟩, ?_⟩)
    rw [Step.outside_compilerEdits hedit]
    cases applyTransforms with
    | true => simpa using houtside rfl
    | false => rfl
  · intro hcalls e he
    rcases List.mem_append.mp (hperm.mem_iff.mp he) with he | he
    · exact hcompiler e he
    · obtain ⟨he, houtside⟩ := List.mem_filter.mp he
      obtain ⟨call, hcall, hedit⟩ := List.mem_filterMap.mp he
      rw [Step.outside_compilerEdits hedit] at houtside
      obtain ⟨id, hid, rfl⟩ := Option.map_eq_some_iff.mp hedit
      refine (@Step.isEven_numbering ⟨subject.source.toList⟩ call id).mpr (hcalls call hcall ?_ id hid)
      rintro rfl
      simpa using houtside

/-- A script with a getter export keeps its lines. -/
theorem transform_keepsLines_getterText : ∃ s code replaced, Summary.parse? getterText = some s ∧
    transform .js true (getterSubject s) = .ok code ∧
      KeepsLines (Step.headText "main.js").toList getterText.toList (Step.tailText getterText.toList).toList replaced
        code.source.toList := by
  have hcheck : ∃ cs, getterText.toList = cs ∧ ((Program.parse? .script cs).any fun program : Program =>
      let s := Summary.ofProgram program
      s.requires.all fun call => ((getterSubject s).ids.get? call.specifier).all fun id => decide (
        newlines id.literal.toList + newlines call.specifier.toList ≤ newlines (call.span.extract cs))) = true :=
    ⟨_, String.toList_ofList, by decide +kernel⟩
  obtain ⟨program, hs, -, hcheck⟩ := Summary.exists_of_check hcheck
  rw [List.all_eq_true] at hcheck
  obtain ⟨code, replaced, hcode, -, -, hlines⟩ :=
    @transform_keepsLines_iff (getterSubject (.ofProgram program)) _ hs rfl true
  refine ⟨_, code, replaced, hs, hcode, hlines.mpr ?_⟩
  intro call hcall _ id hid
  have hcall := hcheck call hcall
  rw [hid, Option.all_some, decide_eq_true_eq] at hcall
  exact hcall

/-- A script that requires a module with a line break in its name, which is an escape in the text. -/
def escapedText : String := "require(\"./a\\n\");\nx;\n"

/-- The comment behind the id has the line break itself, so the code has a line more than its parts. -/
theorem exists_line_added : ∃ s code, Summary.parse? escapedText = some s ∧
    transform .js true ⟨⟨"/main.js"⟩, "main.js", escapedText, some s, ⟨[("./a\n", .dense 0)]⟩⟩ = .ok code ∧
      newlines code.source.toList = newlines (Step.headText "main.js").toList + newlines escapedText.toList +
        newlines (Step.tailText escapedText.toList).toList + 1 := by
  have hcheck : ∃ cs, escapedText.toList = cs ∧ ((Program.parse? .script cs).any fun program : Program =>
      let s := Summary.ofProgram program
      let es := Step.compilerEdits cs ⟨[("./a\n", .dense 0)]⟩ s true ++
        s.requires.filterMap (Step.numbering? cs ⟨[("./a\n", .dense 0)]⟩)
      decide (es.Pairwise (fun a b => a.stop ≤ b.start) ∧ newlines (CommonJs.weave cs 0 es) = newlines cs + 1)) = true :=
    ⟨_, String.toList_ofList, by decide +kernel⟩
  obtain ⟨program, hs, -, hcheck⟩ := Summary.exists_of_check hcheck
  obtain ⟨hascending, hlines⟩ := of_decide_eq_true hcheck
  obtain ⟨code, hcode, hsource⟩ := @exists_woven ⟨⟨"/main.js"⟩, "main.js", escapedText, some (.ofProgram program),
    ⟨[("./a\n", .dense 0)]⟩⟩ _ hs rfl true hascending
  refine ⟨_, code, hs, hcode, ?_⟩
  rw [hsource, newlines_append, newlines_append, Step.edits, hlines]
  dsimp only
  omega

end Relink
