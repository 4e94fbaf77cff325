import Relink.Proofs.Closing

/-!
# Scripts in functions

The code of a script has the script in the body of a function. What may only stand at the front of a script is a mistake
there: the mark in front of the name of an interpreter.

* `Spells` — the tokens of a text, wherever it stands.
* `statement_brokenFunction` — a function with a mistake at the front of its body is no statement.
* `unreadable_of_interpreter` — the code of a script that names an interpreter is no script.
* `exists_unreadable` — there is such a script.
-/

namespace Relink

open Place Script Script.CommonJs Unicode

namespace Script

/-! ## Texts and their tokens -/

/-- A text is read as some tokens, wherever it stands. -/
def Spells (cs : List Char) (ls : List Lexeme) : Prop := ∀ o, Ahead ⟨o, cs⟩ ls

theorem Spells.blank {cs : List Char} {ls : List Lexeme} (h : Spells cs ls) : Spells (' ' :: cs) ls := by
  intro o
  cases ls with
  | nil => trivial
  | cons l ls =>
    have hgap : skipGap true .blank false [] o (' ' :: cs) = skipGap true .blank false [] (o + 1) cs := by
      rw [skipGap]
      · rfl
      all_goals simp
    have h := h (o + 1)
    unfold Ahead scanToken at h ⊢
    rwa [hgap]

theorem Spells.name {c : Char} {cs rest : List Char} {ls : List Lexeme} (h : Spells rest ls) (hc : startsToken c = true)
    (hstart : isNameStart c = true) (hdigit : isDigit c = false) (hcs : cs.all isNamePart = true) (hrest : EndsName rest) :
    Spells (c :: (cs ++ rest)) (.word (Word.ofChars (c :: cs)) (c :: cs) false :: ls) :=
  fun o => ahead_cons hc (scanLexeme_name hstart hdigit (List.all_eq_true.mp hcs) hrest o) (h _)

theorem Spells.mark {c : Char} {cs : List Char} {p : Punct} {ls : List Lexeme} (h : Spells cs ls)
    (hc : startsToken c = true) (hmark : startsMark c = true) (hp : Punct.ofChars (c :: cs) = some (p, 1)) :
    Spells (c :: cs) (.punct p :: ls) :=
  fun _ => ahead_cons hc (scanLexeme_mark hmark hp) (h _)

/-- Behind the end of a line, the mark of an interpreter is no token. -/
theorem spells_interpreter (cs : List Char) : Spells ('\n' :: '#' :: '!' :: cs) [.mistake] := by
  intro o
  have hgap : skipGap true .blank false [] o ('\n' :: '#' :: '!' :: cs) = ⟨⟨o + 1, '#' :: '!' :: cs⟩, true, [], true⟩ := by
    rw [skipGap]
    · exact skipGap_of_startsToken (by decide) true [] (o + 1) ('!' :: cs)
    all_goals simp
  have hname : scanName .plain [] false (o + 2) ('!' :: cs) = some ⟨[], false, ⟨o + 2, '!' :: cs⟩⟩ := by
    rw [scanName]
    · rfl
    all_goals simp
  unfold Ahead scanToken
  simp [hgap, scanLexeme, hname, show isDigit '#' = false by decide, Ahead]

/-- The tokens of parameters that are names. -/
def parameterLexemes : List (List Char) → List Lexeme
  | [] => [.punct .rparen]
  | [x] => [.word .plain x false, .punct .rparen]
  | x :: xs => .word .plain x false :: .punct .comma :: parameterLexemes xs

/-- A plain name, which may be a parameter. -/
def isParameter : List Char → Bool
  | [] => false
  | c :: cs => startsToken c && isNameStart c && !isDigit c && cs.all isNamePart && Word.ofChars (c :: cs) == .plain

/-- The text of parameters that are names. -/
def parameterText : List (List Char) → List Char
  | [] => [')']
  | [x] => x ++ [')']
  | x :: xs => x ++ ',' :: ' ' :: parameterText xs

theorem endsName_cons {d : Char} {cs : List Char} (h : isNamePart d = false) (hslash : d ≠ '\\') : EndsName (d :: cs) := by
  rintro c ⟨⟩
  exact ⟨h, hslash⟩

theorem Spells.parameter {x rest : List Char} {ls : List Lexeme} (h : Spells rest ls) (hx : isParameter x = true)
    (hrest : EndsName rest) : Spells (x ++ rest) (.word .plain x false :: ls) := by
  match x with
  | c :: cs =>
    simp only [isParameter, Bool.and_eq_true, Bool.not_eq_true', beq_iff_eq] at hx
    obtain ⟨⟨⟨⟨hc, hstart⟩, hdigit⟩, hcs⟩, hword⟩ := hx
    exact hword ▸ h.name hc hstart hdigit hcs hrest

theorem spells_parameterText {names : List (List Char)} {cs : List Char} {ls : List Lexeme} (h : Spells cs ls)
    (hnames : ∀ x ∈ names, isParameter x = true) : Spells (parameterText names ++ cs) (parameterLexemes names ++ ls) := by
  have hclose : Spells (')' :: cs) (.punct .rparen :: ls) := h.mark (by decide) (by decide) rfl
  induction names with
  | nil => exact hclose
  | cons x names ih =>
    obtain ⟨hx, hnames⟩ := List.forall_mem_cons.mp hnames
    cases names with
    | nil =>
      rw [parameterText, List.append_assoc]
      exact hclose.parameter hx (endsName_cons (by decide) (by decide))
    | cons y names =>
      rw [parameterText, List.append_assoc]
      · have hcomma : Spells (',' :: ' ' :: (parameterText (y :: names) ++ cs)) (.punct .comma :: _) :=
          (ih hnames).blank.mark (by decide) (by decide) rfl
        exact hcomma.parameter hx (endsName_cons (by decide) (by decide))
      all_goals simp

/-- The tokens of a function that takes parameters, up to a mistake at the front of its body. -/
def brokenFunction (name : List Char) (parameters : List (List Char)) : List Lexeme :=
  .word .kFunction "function".toList false :: .word .plain name false :: .punct .lparen ::
    (parameterLexemes parameters ++ [.punct .lbrace, .mistake])

/-! ## Parsers -/

namespace Parser

variable {α : Type} {context : Context} {c : Cursor}

@[simp] theorem exec_expectWord (w : Word) : (expectWord w).exec context c =
    if c.token.isWord w then some ((), c.next context.script) else none := by
  unfold expectWord eatWord
  simp only [exec_bind, exec_atWord, Option.bind_some, exec_ite]
  split <;> rfl

@[simp] theorem exec_insideFunction (async generator : Bool) (p : Parser α) : (insideFunction async generator p).exec context c =
    p.exec { context with allowIn := true, yields := generator, awaits := async, returns := true } c := (rfl)

end Parser

namespace Grammar

open Script.Parser

variable {context : Context} {c c' : Cursor}

/-- No expression starts at a mistake. -/
theorem assignment_mistake {g : Grammar} (hc : c.token.lexeme = .mistake) : (assignment g).exec context c = none := by
  simp [assignment, assignmentFrom, operation, unary, unaryOp?, leftHand, primary, hc, Token.isPunct, Token.isWord]

theorem statement_mistake {depth : Nat} {single : Bool} (hc : c.token.lexeme = .mistake) :
    ((upTo depth).parse (.statement single)).exec context c = none := by
  rw [← Option.not_isSome_iff_eq_none, Option.isSome_iff_exists]
  rintro ⟨r, h⟩
  obtain ⟨d, h⟩ := exists_of_parse h
  simp only [rule, statement, exec_bind, exec_here, exec_current, Option.bind_some, hc, expressionStatement,
    Option.bind_eq_some_iff] at h
  obtain ⟨r₁, h, -⟩ := h
  obtain ⟨d, h⟩ := exists_of_parse h
  simp only [rule, expression, exec_bind, exec_here, Option.bind_some, Option.bind_eq_some_iff] at h
  obtain ⟨r₂, h, -⟩ := h
  obtain ⟨d, h⟩ := exists_of_parse h
  rw [rule, assignment_mistake hc] at h
  cases h

theorem exists_parameterLexemes (x : List Char) (names : List (List Char)) :
    ∃ ls, parameterLexemes (x :: names) = .word .plain x false :: ls := by
  cases names <;> exact ⟨_, rfl⟩

theorem parameter_name {depth : Nat} {x : List Char} {l : Lexeme} {ls : List Lexeme} {r : Node × Cursor}
    (hscript : context.script = true) (hc : c.At (.word .plain x false :: l :: ls)) (hl : l ≠ .punct .assign)
    (h : (parameter (upTo depth)).exec context c = some r) : r.2.At (l :: ls) := by
  have hnext := hc.next
  simp only [parameter, element, exec_bind, exec_here, Option.bind_some, exec_eatPunct, exec_ite, Token.isPunct] at h
  simp [hc.lexeme] at h
  rw [Option.bind_eq_some_iff] at h
  obtain ⟨⟨target, c₁⟩, hparse, h⟩ := h
  obtain ⟨d, hparse⟩ := exists_of_parse hparse
  simp [rule, pattern, Token.isPunct, hc.lexeme, variableName_plain hc.lexeme, hscript] at hparse
  obtain ⟨rfl, rfl⟩ := hparse
  simp [hnext.lexeme, hl] at h
  rw [← h]
  exact hnext

theorem commaList_names {depth limit : Nat} {names : List (List Char)} {ls : List Lexeme}
    {r : (List Node × Bool) × Cursor} (hscript : context.script = true) (hc : c.At (parameterLexemes names ++ ls))
    (h : (commaList limit .rparen (parameter (upTo depth))).exec context c = some r) : r.2.At ls := by
  induction limit generalizing names c r with
  | zero => cases h
  | succ limit ih =>
    rw [commaList] at h
    simp only [exec_bind, exec_eatPunct, Token.isPunct] at h
    cases names with
    | nil =>
      simp [hc.lexeme, hscript] at h
      exact h ▸ hc.next
    | cons x names =>
      cases names with
      | nil =>
        simp [hc.lexeme] at h
        rw [Option.bind_eq_some_iff] at h
        obtain ⟨r₁, hparameter, h⟩ := h
        have hclose := parameter_name hscript hc (by simp) hparameter
        simp [Token.isPunct, hclose.lexeme, hscript] at h
        exact h ▸ hclose.next
      | cons y names =>
        simp [hc.lexeme] at h
        rw [Option.bind_eq_some_iff] at h
        obtain ⟨r₁, hparameter, h⟩ := h
        have hcomma := parameter_name hscript hc (by simp) hparameter
        have hnext : (r₁.2.next true).At (parameterLexemes (y :: names) ++ ls) := hcomma.next
        obtain ⟨more, hmore⟩ := exists_parameterLexemes y names
        have hfirst : (r₁.2.next true).token.lexeme = .word .plain y false := by
          rw [hmore] at hnext
          exact hnext.lexeme
        simp only [Token.isPunct, hcomma.lexeme, hscript, hfirst, beq_self_eq_true, if_true, Option.bind_some,
          reduceCtorEq, beq_iff_eq, if_false, Bool.false_eq_true, Option.map_eq_some_iff] at h
        obtain ⟨r₂, hrest, rfl⟩ := h
        have hend := ih hnext hrest
        exact hend

theorem parameters_names {depth : Nat} {names : List (List Char)} {ls : List Lexeme} {r : Node × Cursor}
    (hscript : context.script = true) (hc : c.At (.punct .lparen :: (parameterLexemes names ++ ls)))
    (h : (parameters (upTo depth)).exec context c = some r) : r.2.At ls := by
  simp only [parameters, exec_bind, exec_here, Option.bind_some, exec_expectPunct, Token.isPunct, hc.lexeme,
    beq_self_eq_true, if_true, exec_node, hscript, Option.bind_eq_some_iff] at h
  obtain ⟨r₁, hnames, h⟩ := h
  have hend := commaList_names hscript hc.next hnames
  cases h
  exact hend

theorem functionBody_mistake {depth : Nat} (hscript : context.script = true) (hc : c.At [.punct .lbrace, .mistake]) :
    (functionBody (upTo depth)).exec context c = none := by
  have hfirst := hc.next.lexeme
  have hmany : ∀ limit, (many limit (·.isPunct .rbrace) (withIn ((upTo depth).parse (.statement false)))).exec context
      (c.next true) = none := by
    intro limit
    cases limit with
    | zero => rfl
    | succ limit => simp [many, Token.isPunct, hfirst, statement_mistake hfirst]
  have hstatements : (statementsToBrace (upTo depth)).exec context (c.next true) = none := by
    rw [statementsToBrace, exec_bind, hmany, Option.bind_none]
  simp [functionBody, Token.isPunct, hc.lexeme, hscript, hstatements]

theorem functionRest_mistake {depth start : Nat} {name : Option String} {names : List (List Char)}
    (hscript : context.script = true)
    (hc : c.At (.punct .lparen :: (parameterLexemes names ++ [.punct .lbrace, .mistake]))) :
    (functionRest (upTo depth) start name false false).exec context c = none := by
  have hinner : { context with allowIn := true, yields := false, awaits := false, returns := true : Context }.script = true :=
    hscript
  rw [functionRest, exec_insideFunction, exec_bind]
  cases hparameters : (parameters (upTo depth)).exec
      { context with allowIn := true, yields := false, awaits := false, returns := true } c with
  | none => rfl
  | some r =>
    have hbody := parameters_names hinner hc hparameters
    rw [Option.bind_some, exec_bind, functionBody_mistake hinner hbody, Option.bind_none]

/-- A function with a mistake at the front of its body is no statement. -/
theorem statement_brokenFunction {depth : Nat} {name : List Char} {names : List (List Char)}
    (hscript : context.script = true) (hc : c.At (brokenFunction name names)) :
    ((upTo depth).parse (.statement false)).exec context c = none := by
  have hname := hc.next
  have hopen := hname.next
  have hdeclaration : ∀ d start, (functionDeclaration (upTo d) start false false false).exec context c = none := by
    intro d start
    simp [functionDeclaration, hc.lexeme, Token.isWord, Token.isPunct, hscript, hname.lexeme,
      variableName_plain hname.lexeme, functionRest_mistake hscript hopen]
  cases depth with
  | zero => rfl
  | succ d =>
    have hrule : ((upTo (d + 1)).parse (.statement false)).exec context c =
        (functionDeclaration (upTo d) c.token.span.start false false false).exec context c := by
      simp [upTo, rule, statement, hc.lexeme]
    rw [hrule, hdeclaration]

end Grammar

namespace Program

variable {text : Source}

/-- A text that starts with a gap is read from the token behind it. -/
theorem at_start {c : Char} {cs rest : List Char} {o : Nat} {nl : Bool} {spans : List Span} {ls : List Lexeme}
    (hskip : skipInterpreter cs = ⟨0, cs⟩)
    (hgap : skipGap true .blank true [] 0 cs = ⟨⟨o, c :: rest⟩, nl, spans, true⟩) (hc : startsToken c = true)
    (h : Spells (c :: rest) ls) : (start .script cs).At ls := by
  cases ls with
  | nil => trivial
  | cons l ls =>
    have hahead := h o
    unfold Ahead scanToken at hahead
    simp only [skipGap_of_startsToken hc, if_true] at hahead
    simpa [start, scanToken, hskip, hgap, Cursor.At] using hahead

/-- No script starts with a function with a mistake at the front of its body. -/
theorem parse?_brokenFunction {cs : List Char} {name : List Char} {names : List (List Char)}
    (hat : (start .script cs).At (brokenFunction name names)) : parse? .script cs = none := by
  have hstatement : ∀ depth,
      ((Grammar.upTo depth).parse (.statement false)).exec (context .script) (start .script cs) = none :=
    fun depth => @Grammar.statement_brokenFunction (context .script) _ depth _ _ rfl hat
  have hnone : ∀ depth limit, (Parser.many limit (·.lexeme == .stop) ((Grammar.upTo depth).parse (.statement false))).exec
      (context .script) (start .script cs) = none := by
    intro depth limit
    cases limit with
    | zero => rfl
    | succ limit => simp [Parser.many, hat.lexeme, hstatement]
  rw [← Option.not_isSome_iff_eq_none, Option.isSome_iff_exists]
  rintro ⟨program, h⟩
  obtain ⟨xs, last, hrun, -⟩ := exists_run_of_parse? h
  cases (hnone _ _).symm.trans hrun

/-- The statements of a program stand behind the name of an interpreter. -/
theorem interpreter_le {mode : Mode} {program : Program} (h : parse? mode text.chars = some program) :
    ∀ n ∈ program.body, (skipInterpreter text.chars).offset ≤ n.span.start := by
  obtain ⟨xs, last, hrun, rfl⟩ := exists_run_of_parse? h
  have hspec := Grammar.many_statement_spec (g := Grammar.upTo (depthBound text.chars.length)) (@Grammar.upTo_spec text _)
    (Grammar.upTo (depthBound text.chars.length)).limit (·.lexeme == .stop) (start mode text.chars)
  obtain ⟨-, -, hbehind⟩ := Parser.of_run hspec ⟨rfl, sound_start mode text⟩ hrun
  obtain ⟨q, hq, hspan, -⟩ := exists_gap (mode == .script) true (skipInterpreter text.chars)
  have hfirst : (start mode text.chars).token.span.start = q.offset := congrArg Span.start hspan
  intro n hn
  obtain ⟨m, hm, hsame, -⟩ := Grammar.exists_of_mem_markDirectives hn
  have hle := hbehind m hm
  rw [hfirst, hsame] at hle
  exact hq.offset_le.trans hle

end Program

end Script

/-! ## Scripts that name an interpreter -/

/-- The edits of a script lie in its statements. -/
theorem Step.exists_inside {subject : Subject} {program : Program} (h : Lined ⟨subject.source.toList⟩ program.body)
    {applyTransforms : Bool} {e : Edit} (he : e ∈ Step.edits subject (.ofProgram program) applyTransforms) :
    ∃ n ∈ program.body, e.span.inside n.span := by
  rcases List.mem_append.mp he with he | he
  · cases applyTransforms with
    | true =>
      have hregion : e.span ∈ (Summary.ofProgram program).regions := map_span_compilerEdits ▸ List.mem_map_of_mem he
      obtain ⟨n, hn, hholds⟩ := (Summary.owned_ofProgram h).owned _ hregion
      exact ⟨n, hn, hholds.within⟩
    | false => cases he
  · obtain ⟨call, hcall, he⟩ := List.mem_filterMap.mp he
    rw [Summary.requires_ofProgram] at hcall
    obtain ⟨m, hm, hcall⟩ := List.mem_filterMap.mp hcall
    obtain ⟨n, hn, hm⟩ := Node.mem_preorderAll.mp hm
    refine ⟨n, hn, span_of_numbering? he ▸ Node.inside_of_mem_marks (h.standing n hn).fits ?_⟩
    exact Node.span_mem_marks (List.mem_filterMap.mpr ⟨m, hm, hcall⟩)

/-- The parameters of the function of a module. -/
def functionParameters : List (List Char) :=
  ["require".toList, "module".toList, "exports".toList, "__esModule".toList, "__esExport".toList]

/-- The text of the function of a module, with a text in its body. -/
def functionText (body : List Char) : List Char :=
  'f' :: ("unction".toList ++ ' ' :: '_' :: '(' :: (parameterText functionParameters ++ ' ' :: '\x7b' :: '\n' :: body))

/-- The head of a module is a comment and the front of its function. -/
theorem headText_append (basePath : String) (body : List Char) : (Step.headText basePath).toList ++ body =
    '/' :: '*' :: (inComment basePath ++ '*' :: '/' :: '\n' :: functionText body) := by
  simp [Step.headText, inComment]
  rfl

theorem spells_functionText (cs : List Char) :
    Spells (functionText ('#' :: '!' :: cs)) (brokenFunction ['_'] functionParameters) := by
  have hbody : Spells (' ' :: '\x7b' :: '\n' :: '#' :: '!' :: cs) [.punct .lbrace, .mistake] :=
    ((spells_interpreter cs).mark (by decide) (by decide) rfl).blank
  have hparameters := @spells_parameterText functionParameters _ _ hbody (by decide)
  have hname := (hparameters.mark (c := '(') (by decide) (by decide) rfl).parameter (x := ['_']) (by decide)
    (endsName_cons (by decide) (by decide))
  exact hname.blank.name (by decide) (by decide) (by decide) (by decide) (endsName_cons (by decide) (by decide))

/-- Behind the head of a function, the mark of an interpreter is a mistake. -/
theorem parse?_behind_head (basePath : String) (cs : List Char) :
    Program.parse? .script ((Step.headText basePath).toList ++ '#' :: '!' :: cs) = none := by
  obtain ⟨o, spans, hgap⟩ : ∃ o spans,
      skipGap true .blank true [] 0 ((Step.headText basePath).toList ++ '#' :: '!' :: cs) =
        ⟨⟨o, functionText ('#' :: '!' :: cs)⟩, true, spans, true⟩ := by
    rw [headText_append, skipGap, skipGap_unclosed (unclosed_inComment basePath), skipGap]
    · exact ⟨_, _, skipGap_of_startsToken (by decide) true _ _ _⟩
    all_goals simp
  have hskip : Program.skipInterpreter ((Step.headText basePath).toList ++ '#' :: '!' :: cs) =
      ⟨0, (Step.headText basePath).toList ++ '#' :: '!' :: cs⟩ := by
    rw [headText_append]
    rfl
  exact Program.parse?_brokenFunction (Program.at_start hskip hgap (by decide) (spells_functionText cs))

/-- The code of a script that names an interpreter is no script, whatever its name, its ids and the steps are. -/
theorem unreadable_of_interpreter {subject : Subject} {s : Summary} (hparse : Summary.parse? subject.source = some s)
    (hsummary : subject.summary = some s) {cs : List Char} (hsource : subject.source.toList = '#' :: '!' :: cs)
    (applyTransforms : Bool) : ∃ code, transform .js applyTransforms subject = .ok code ∧
      Program.parse? .script code.source.toList = none := by
  obtain ⟨code, replaced, hcode, htext, -, hkeeps, hascending, hperm⟩ := exists_replaced hparse hsummary applyTransforms
  obtain ⟨program, hprogram, rfl⟩ := Option.map_eq_some_iff.mp hparse
  have hlined : Lined ⟨subject.source.toList⟩ program.body := Program.lined_of_parse? hprogram
  -- every edit stands behind the mark
  have hbehind : ∀ e ∈ replaced, 2 ≤ e.start := by
    intro e he
    have hedit : e ∈ Step.edits subject (.ofProgram program) applyTransforms := by
      rcases List.mem_append.mp (hperm.mem_iff.mp he) with he | he
      · exact List.mem_append_left _ he
      · exact List.mem_append_right _ (List.mem_of_mem_filter he)
    obtain ⟨n, hn, hinside⟩ := Step.exists_inside hlined hedit
    have hle := @Program.interpreter_le ⟨subject.source.toList⟩ _ _ hprogram n hn
    have hstart : n.span.start ≤ e.start := (Span.inside_iff.mp hinside).1
    have hmark : 2 ≤ (Program.skipInterpreter subject.source.toList).offset := by
      rw [hsource]
      exact Nat.le_add_right ..
    exact hmark.trans (hle.trans hstart)
  have hcut : Cut ⟨subject.source.toList⟩ 2 := ⟨⟨2, cs⟩, hsource ▸ Leads.across ['#', '!'] rfl ⟨[], rfl, rfl⟩, rfl⟩
  have hweave := @weave_eq_weaveTo ⟨subject.source.toList⟩ [] replaced hkeeps hascending 0 2 Step.cut_zero hcut
    (Nat.zero_le _) (by simp) (by simp) hbehind
  have hmark : Span.extract ⟨0, 2⟩ subject.source.toList = ['#', '!'] := by
    rw [hsource]
    exact takeBytes_append ['#', '!'] cs
  rw [List.nil_append, weaveTo, hmark] at hweave
  refine ⟨code, hcode, ?_⟩
  rw [htext, hweave, List.append_assoc]
  exact parse?_behind_head ..

/-- A script that names an interpreter. -/
def interpretedText : String := "#!/usr/bin/env node\nx;\n"

/-- The script as a module. -/
def interpretedSubject (s : Summary) : Subject := ⟨⟨"/main.js"⟩, "main.js", interpretedText, some s, ⟨[]⟩⟩

/-- A script that names an interpreter cannot be read inside a function. -/
theorem exists_unreadable : ∃ s code, Summary.parse? interpretedText = some s ∧
    transform .js true (interpretedSubject s) = .ok code ∧ Program.parse? .script code.source.toList = none := by
  have hcheck : ∃ cs, interpretedText.toList = cs ∧ ((Program.parse? .script cs).any fun _ =>
      decide (cs.take 2 = ['#', '!'])) = true :=
    ⟨_, String.toList_ofList, by decide +kernel⟩
  obtain ⟨program, hs, -, hmark⟩ := Summary.exists_of_check hcheck
  have hsource : interpretedText.toList = '#' :: '!' :: interpretedText.toList.drop 2 := by
    rw [← List.take_append_drop 2 interpretedText.toList, of_decide_eq_true hmark]
    rfl
  obtain ⟨code, hcode, hnone⟩ :=
    @unreadable_of_interpreter (interpretedSubject (.ofProgram program)) _ hs rfl _ hsource true
  exact ⟨_, code, hs, hcode, hnone⟩

end Relink
