import Relink.Proofs.Edits
import Relink.Proofs.Statements
import Relink.Proofs.Tokens
import Relink.Script.Summary

/-!
# Calls in statements

What a parser does at a cursor is computed from the tokens at which the cursor stands.

* `Parser.exec` — the run of a parser; its equations for the steps over tokens.
* `Cursor.At` — a cursor stands at some tokens.
* `assignment_call` — at the tokens of a call of `require`, an expression is that call.
* `calls_of_statement` — so is a statement that starts with these tokens, or declares a constant for the call.
-/

namespace Relink.Script

/-- The cursor behind the current token. -/
def Cursor.next (script : Bool) (c : Cursor) : Cursor :=
  let s := scanToken script false c.after
  ⟨s.token, s.after, c.token.span.stop, s.comments ++ c.comments⟩

namespace Parser

/-! ## Runs -/

variable {α β : Type} {context : Context} {c : Cursor}

/-- What a parser gives at a cursor. Its equations are proofs in parentheses, so that they rewrite terms: a proof by
unfolding would leave it to the kernel to run the parser. -/
def exec (p : Parser α) (context : Context) (c : Cursor) : Option (α × Cursor) := p.run context c

@[simp] theorem exec_pure (a : α) : (pure a : Parser α).exec context c = some (a, c) := (rfl)

@[simp] theorem exec_failure : (failure : Parser α).exec context c = none := (rfl)

@[simp] theorem exec_bind (p : Parser α) (f : α → Parser β) :
    (p >>= f).exec context c = (p.exec context c).bind fun r => (f r.1).exec context r.2 := (rfl)

@[simp] theorem exec_map (p : Parser α) (f : α → β) :
    (f <$> p).exec context c = (p.exec context c).map fun r => (f r.1, r.2) := by
  have hmap : (f <$> p).exec context c = (p.exec context c).bind fun r => some (f r.1, r.2) := (rfl)
  rw [hmap, Option.map_eq_bind]
  rfl

@[simp] theorem exec_ite (b : Prop) [Decidable b] (p q : Parser α) :
    (if b then p else q).exec context c = if b then p.exec context c else q.exec context c := by
  split <;> rfl

@[simp] theorem exec_read : (read : Parser Context).exec context c = some (context, c) := (rfl)

@[simp] theorem exec_withIn (p : Parser α) :
    (withIn p).exec context c = p.exec { context with allowIn := true } c := (rfl)

@[simp] theorem exec_current : current.exec context c = some (c.token, c) := (rfl)

@[simp] theorem exec_advance : advance.exec context c = some ((), c.next context.script) := (rfl)

@[simp] theorem exec_upcoming : upcoming.exec context c = some ((c.next context.script).token, c) := (rfl)

@[simp] theorem exec_here : here.exec context c = some (c.token.span.start, c) := (rfl)

@[simp] theorem exec_node (start : Nat) (k : Kind) (ps : List Node) :
    (node start k ps).exec context c = some (.mk k ⟨start, c.lastStop⟩ ps, c) := (rfl)

@[simp] theorem exec_atPunct (p : Punct) : (atPunct p).exec context c = some (c.token.isPunct p, c) := (rfl)

@[simp] theorem exec_atWord (w : Word) : (atWord w).exec context c = some (c.token.isWord w, c) := (rfl)

@[simp] theorem exec_eatPunct (p : Punct) : (eatPunct p).exec context c =
    if c.token.isPunct p then some (true, c.next context.script) else some (false, c) := by
  unfold eatPunct
  simp only [exec_bind, exec_atPunct, Option.bind_some]
  split <;> rfl

@[simp] theorem exec_expectPunct (p : Punct) : (expectPunct p).exec context c =
    if c.token.isPunct p then some ((), c.next context.script) else none := by
  unfold expectPunct
  simp only [exec_bind, exec_eatPunct]
  split <;> rfl

end Parser

/-! ## Tokens at a cursor -/

namespace Cursor

/-- A cursor stands at a token, and some others are behind it. -/
def At (c : Cursor) : List Lexeme → Prop
  | [] => True
  | l :: ls => c.token.lexeme = l ∧ Ahead c.after ls

variable {c : Cursor} {l : Lexeme} {ls : List Lexeme}

theorem At.lexeme (h : c.At (l :: ls)) : c.token.lexeme = l := h.1

theorem At.next (h : c.At (l :: ls)) : (c.next true).At ls := by
  cases ls with
  | nil => trivial
  | cons l ls => exact h.2

/-- An expression ends in front of a token. -/
def Ends (c : Cursor) : Prop := c.token.lexeme = .punct .rparen ∨ c.token.lexeme = .punct .semi

end Cursor

namespace Grammar

open Script.Parser CommonJs

variable {g : Grammar} {context : Context} {c c' : Cursor} {e n : Node}

/-! ## Ends of expressions -/

theorem chain_of_ends {calls : Bool} {limit : Nat} (hc : c.Ends)
    (h : (chain g calls limit false e).exec context c = some (n, c')) : n = e ∧ c' = c := by
  cases limit with
  | zero => cases h
  | succ limit =>
    rcases hc with hc | hc <;>
    · simp [chain, hc, closeChain] at h
      exact ⟨h.1.symm, h.2.symm⟩

theorem operationRest_of_ends {above limit : Nat} (hc : c.Ends)
    (h : (operationRest g above limit e).exec context c = some (n, c')) : n = e ∧ c' = c := by
  cases limit with
  | zero => cases h
  | succ limit =>
    rcases hc with hc | hc <;>
    · simp [operationRest, hc, binaryOp?, Punct.precedence] at h
      exact ⟨h.1.symm, h.2.symm⟩

theorem sequenceRest_of_ends {limit : Nat} {es : List Node} (hc : c.Ends)
    (h : (sequenceRest g limit).exec context c = some (es, c')) : es = [] ∧ c' = c := by
  cases limit with
  | zero => cases h
  | succ limit =>
    rcases hc with hc | hc <;>
    · simp [sequenceRest, Token.isPunct, hc] at h
      exact ⟨h.1, h.2.symm⟩

theorem postfixed_of_ends (hc : c.Ends) : (postfixed e).exec context c = some (e, c) := by
  rcases hc with hc | hc <;> simp [postfixed, Token.isPunct, hc]

/-- A token with which an operand starts that has no operator in front: a string, or a name. -/
def IsOperand (l : Lexeme) : Prop := (∃ value whole, l = .string value whole) ∨ ∃ text, l = .word .plain text false

/-- An expression that ends behind its first operand is this operand. -/
theorem leftHand_of_assignmentFrom (hc : IsOperand c.token.lexeme)
    (hends : ∀ e c₁, (leftHand g none).exec context c = some (e, c₁) → c₁.Ends)
    (h : (assignmentFrom g none).exec context c = some (n, c')) : (leftHand g none).exec context c = some (n, c') := by
  have hoperation : (operation g 0 none).exec context c =
      ((leftHand g none).exec context c).bind fun r =>
        ((postfixed r.1).exec context r.2).bind fun r => (operationRest g 0 g.limit r.1).exec context r.2 := by
    rcases hc with ⟨value, whole, hc⟩ | ⟨text, hc⟩ <;>
      simp [operation, unary, unaryOp?, hc, Token.isPunct, Token.isWord, Option.bind_assoc]
  rw [assignmentFrom, exec_bind, hoperation] at h
  simp only [Option.bind_eq_some_iff] at h
  obtain ⟨⟨l, c₃⟩, ⟨⟨e, c₁⟩, hfirst, ⟨e₂, c₂⟩, hpostfixed, hrest⟩, h⟩ := h
  have hends₁ := hends e c₁ hfirst
  rw [postfixed_of_ends hends₁, Option.some.injEq, Prod.mk.injEq] at hpostfixed
  obtain ⟨rfl, rfl⟩ := hpostfixed
  obtain ⟨rfl, rfl⟩ := operationRest_of_ends hends₁ hrest
  rcases hends₁ with hlast | hlast
  · simp [hlast, Punct.isAssignment] at h
    rw [hfirst, h.1, h.2]
  · simp [hlast, Punct.isAssignment] at h
    rw [hfirst, h.1, h.2]

/-! ## Calls -/

theorem variableName_plain {text : List Char} (hc : c.token.lexeme = .word .plain text false) :
    variableName.exec context c = some (String.ofList text, c.next context.script) := by
  simp [variableName, Token.isVariable, Word.isReserved, hc]

/-- In front of a closing parenthesis, a string is an expression. -/
theorem assignment_string {value : List Char} {whole : Bool} {ls : List Lexeme} (hscript : context.script = true)
    (hc : c.At (.string value whole :: .punct .rparen :: ls))
    (h : (assignment g).exec context c = some (n, c')) :
    (∃ span, n = .mk (.string (String.ofList value)) span []) ∧ c'.At (.punct .rparen :: ls) := by
  have hnext := hc.next
  have hfrom : (assignment g).exec context c = (assignmentFrom g none).exec context c := by
    simp [assignment, hc.lexeme]
  have hends : ∀ e c₁, (leftHand g none).exec context c = some (e, c₁) →
      (∃ span, e = .mk (.string (String.ofList value)) span []) ∧ c₁ = c.next true := by
    intro e c₁ hfirst
    simp only [leftHand, primary, exec_bind, exec_here, exec_current, Option.bind_some, hc.lexeme, exec_advance,
      exec_node, hscript] at hfirst
    obtain ⟨rfl, rfl⟩ := chain_of_ends (.inl hnext.lexeme) hfirst
    exact ⟨⟨_, rfl⟩, rfl⟩
  rw [hfrom] at h
  have hfirst := leftHand_of_assignmentFrom (.inl ⟨value, whole, hc.lexeme⟩) (fun e c₁ he => ?_) h
  · obtain ⟨hn, rfl⟩ := hends n c' hfirst
    exact ⟨hn, hnext⟩
  · obtain ⟨-, rfl⟩ := hends e c₁ he
    exact .inl hnext.lexeme

/-- A call of `require` with a string. -/
def IsCall (specifier : String) (n : Node) : Prop := ∃ span calleeSpan stringSpan,
  n = .mk .call span [.mk (.identifier "require") calleeSpan [], .mk (.string specifier) stringSpan []]

theorem exists_of_parse {depth : Nat} {goal : Goal} {r : Node × Cursor}
    (h : ((upTo depth).parse goal).exec context c = some r) :
    ∃ d, (rule (upTo d) goal).exec context c = some r := by
  cases depth with
  | zero => cases h
  | succ d => exact ⟨d, h⟩

theorem arguments_string {depth : Nat} {specifier : String} {ls : List Lexeme} {r : (List Node × Bool) × Cursor}
    (hscript : context.script = true) (hc : c.At (.string specifier.toList true :: .punct .rparen :: ls))
    (h : (arguments (upTo depth)).exec context c = some r) :
    (∃ span, r.1.1 = [.mk (.string specifier) span []]) ∧ r.2.At ls := by
  unfold arguments at h
  generalize (upTo depth).limit = limit at h
  cases limit with
  | zero => cases h
  | succ limit =>
    simp only [commaList, argument, exec_bind, exec_ite, exec_eatPunct, exec_here, exec_withIn, Token.isPunct] at h
    simp [hc.lexeme] at h
    rw [Option.bind_eq_some_iff] at h
    obtain ⟨⟨e, c₁⟩, hparse, h⟩ := h
    obtain ⟨d, hparse⟩ := exists_of_parse hparse
    have hinner : { context with allowIn := true : Context }.script = true := hscript
    obtain ⟨⟨span, rfl⟩, hc₁⟩ := assignment_string hinner hc hparse
    simp [hc₁.lexeme, hscript, Token.isPunct] at h
    subst h
    exact ⟨⟨span, rfl⟩, hc₁.next⟩

theorem chain_call {depth limit : Nat} {specifier : String} {span : Span} (hscript : context.script = true)
    (hc : c.At (callLexemes specifier).tail)
    (h : (chain (upTo depth) true limit false (.mk (.identifier "require") span [])).exec context c = some (n, c')) :
    IsCall specifier n ∧ c'.At [.punct .semi] := by
  cases limit with
  | zero => cases h
  | succ limit =>
    simp only [chain, exec_bind, exec_current, Option.bind_some, hc.lexeme, if_true, exec_advance, hscript, exec_node,
      Option.bind_eq_some_iff] at h
    obtain ⟨r, harguments, h⟩ := h
    obtain ⟨⟨stringSpan, hr⟩, hsemi⟩ := arguments_string hscript hc.next harguments
    rw [hr] at h
    obtain ⟨rfl, rfl⟩ := chain_of_ends (.inr hsemi.lexeme) h
    exact ⟨⟨_, _, stringSpan, rfl⟩, hsemi⟩

/-- At the tokens of a call, an expression is that call. -/
theorem assignment_call {depth : Nat} {specifier : String} (hscript : context.script = true)
    (hc : c.At (callLexemes specifier)) (h : (assignment (upTo depth)).exec context c = some (n, c')) :
    IsCall specifier n ∧ c'.At [.punct .semi] := by
  have hname := hc.next
  have hfrom : (assignment (upTo depth)).exec context c = (assignmentFrom (upTo depth) none).exec context c := by
    simp [assignment, hc.lexeme, hscript, hname.lexeme, Token.isArrow, Token.isPunct]
  have hcall : ∀ e c₁, (leftHand (upTo depth) none).exec context c = some (e, c₁) →
      IsCall specifier e ∧ c₁.At [.punct .semi] := by
    intro e c₁ hfirst
    simp only [leftHand, primary, exec_bind, exec_here, exec_current, Option.bind_some, hc.lexeme,
      variableName_plain hc.lexeme, exec_node, hscript] at hfirst
    exact chain_call hscript hname hfirst
  rw [hfrom] at h
  have hfirst := leftHand_of_assignmentFrom (.inr ⟨_, hc.lexeme⟩) (fun e c₁ he => .inr (hcall e c₁ he).2.lexeme) h
  exact hcall n c' hfirst

/-! ## Statements -/

theorem endStatement_semi (hc : c.token.lexeme = .punct .semi) :
    endStatement.exec context c = some ((), c.next context.script) := by
  have hend : mayEnd.exec context c = some (true, c) := by simp [mayEnd, hc, Token.isPunct]
  have hdiscard : (discard (eatPunct .semi)).exec context c = ((eatPunct .semi).exec context c).map fun r => ((), r.2) :=
    exec_map (eatPunct .semi) fun _ => ()
  simp [endStatement, hend, hdiscard, hc, Token.isPunct]

theorem statement_call {depth : Nat} {specifier : String} (hscript : context.script = true)
    (hc : c.At (callLexemes specifier)) (h : (statement (upTo depth) false).exec context c = some (n, c')) :
    ∃ span e, n = .mk .expressionStatement span [e] ∧ IsCall specifier e := by
  simp only [statement, exec_bind, exec_here, exec_current, Option.bind_some, hc.lexeme, expressionStatement,
    Option.bind_eq_some_iff] at h
  obtain ⟨⟨e, c₁⟩, hparse, h⟩ := h
  obtain ⟨d, hparse⟩ := exists_of_parse hparse
  simp only [rule, expression, exec_bind, exec_here, Option.bind_some, Option.bind_eq_some_iff] at hparse
  obtain ⟨⟨e₁, c₂⟩, hfirst, ⟨es, c₃⟩, hrest, hparse⟩ := hparse
  obtain ⟨d₁, hfirst⟩ := exists_of_parse hfirst
  obtain ⟨hcall, hsemi⟩ := assignment_call hscript hc hfirst
  obtain ⟨rfl, rfl⟩ := sequenceRest_of_ends (.inr hsemi.lexeme) hrest
  simp at hparse
  obtain ⟨rfl, rfl⟩ := hparse
  obtain ⟨span, calleeSpan, stringSpan, rfl⟩ := hcall
  simp [endStatement_semi hsemi.lexeme] at h
  exact ⟨_, _, h.1.symm, _, _, _, rfl⟩

theorem declarator_call {depth : Nat} {name : List Char} {specifier : String} (hscript : context.script = true)
    (hc : c.At (.word .plain name false :: .punct .assign :: callLexemes specifier))
    (h : (declarator (upTo depth) .const false).exec context c = some (n, c')) :
    ∃ span target e, n = .mk .declarator span [target, e] ∧ IsCall specifier e ∧ c'.At [.punct .semi] := by
  have hassign := hc.next
  simp only [declarator, exec_bind, exec_here, Option.bind_some, Option.bind_eq_some_iff] at h
  obtain ⟨⟨target, c₁⟩, hpattern, h⟩ := h
  obtain ⟨d, hpattern⟩ := exists_of_parse hpattern
  simp [rule, pattern, Token.isPunct, hc.lexeme, variableName_plain hc.lexeme, hscript] at hpattern
  obtain ⟨rfl, rfl⟩ := hpattern
  simp [Token.isPunct, hassign.lexeme, hscript] at h
  rw [Option.bind_eq_some_iff] at h
  obtain ⟨⟨e, c₂⟩, hparse, h⟩ := h
  obtain ⟨d', hparse⟩ := exists_of_parse hparse
  obtain ⟨hcall, hsemi⟩ := assignment_call hscript hassign.next hparse
  cases h
  exact ⟨_, _, e, rfl, hcall, hsemi⟩

theorem statement_declaration {depth : Nat} {name : List Char} {specifier : String} (hscript : context.script = true)
    (hc : c.At (.word .kConst "const".toList false :: .word .plain name false :: .punct .assign :: callLexemes specifier))
    (h : (statement (upTo depth) false).exec context c = some (n, c')) :
    ∃ span declaratorSpan target e, n = .mk (.variableList .const) span [.mk .declarator declaratorSpan [target, e]] ∧
      IsCall specifier e := by
  have hname := hc.next
  have hassign := hname.next
  have hcall := hassign.next
  have hconst : (VariableKind.const == VariableKind.awaitUsing) = false := rfl
  simp only [statement, exec_bind, exec_here, exec_current, Option.bind_some, hc.lexeme, Bool.false_eq_true, if_false,
    variableStatement, variableList, hconst, exec_advance, hscript, Option.bind_eq_some_iff] at h
  obtain ⟨⟨list, c₁⟩, ⟨⟨ds, c₂⟩, hdeclarators, hlist⟩, h⟩ := h
  generalize (upTo depth).limit = limit at hdeclarators
  cases limit with
  | zero => cases hdeclarators
  | succ limit =>
    simp only [declarators, exec_bind, Option.bind_eq_some_iff] at hdeclarators
    obtain ⟨⟨declared, c₃⟩, hdeclarator, hdeclarators⟩ := hdeclarators
    obtain ⟨declaratorSpan, target, e, rfl, hcall, hsemi⟩ := declarator_call hscript hname hdeclarator
    simp [Token.isPunct, hsemi.lexeme] at hdeclarators
    obtain ⟨rfl, rfl⟩ := hdeclarators
    simp at hlist
    obtain ⟨rfl, rfl⟩ := hlist
    simp [endStatement_semi hsemi.lexeme] at h
    exact ⟨_, declaratorSpan, target, e, h.1.symm, hcall⟩

end Grammar

/-! ## Programs -/

/-- A call of `require` with a text stands in a tree. -/
def Node.Calls (specifier : String) (n : Node) : Prop :=
  ∃ m ∈ n.preorder, ∃ call, m.requireCall? = some call ∧ call.specifier = specifier

variable {specifier : String} {text : Source} {n : Node}

theorem Grammar.IsCall.calls (h : Grammar.IsCall specifier n) (hne : specifier ≠ "") : n.Calls specifier := by
  obtain ⟨span, calleeSpan, stringSpan, rfl⟩ := h
  refine ⟨.mk .call span [.mk (.identifier "require") calleeSpan [], .mk (.string specifier) stringSpan []], ?_,
    ⟨specifier, stringSpan⟩, ?_, rfl⟩
  · rw [Node.preorder]
    exact List.mem_cons_self
  · simp [Node.requireCall?, Node.isIdentifier, hne]

theorem Node.calls_iff : n.Calls specifier ↔
    (∃ call, n.requireCall? = some call ∧ call.specifier = specifier) ∨ ∃ m ∈ n.parts, m.Calls specifier := by
  unfold Calls
  rw [preorder_eq]
  simp only [List.mem_cons, mem_preorderAll]
  constructor
  · rintro ⟨m, rfl | ⟨p, hp, hm⟩, hcall⟩
    · exact Or.inl hcall
    · exact Or.inr ⟨p, hp, m, hm, hcall⟩
  · rintro (hcall | ⟨p, hp, m, hm, hcall⟩)
    · exact ⟨n, Or.inl rfl, hcall⟩
    · exact ⟨m, Or.inr ⟨p, hp, hm⟩, hcall⟩

theorem Node.Calls.of_part {m : Node} (h : m.Calls specifier) (hm : m ∈ n.parts) : n.Calls specifier :=
  calls_iff.mpr (Or.inr ⟨m, hm, h⟩)

/-- The text that is written for a module that is required: a call as a statement, or a constant for it. -/
def CommonJs.IsRequirement (specifier : String) (cs : List Char) : Prop :=
  cs = (requireText specifier).toList ++ [';'] ∨ ∃ number, cs = (moduleText number specifier).toList

/-- A statement that starts with a call of `require`, or with a constant for it, calls it. -/
theorem Grammar.calls_of_statement {depth : Nat} {context : Context} {c c' : Cursor} (hne : specifier ≠ "")
    (hscript : context.script = true) (hsound : c.Sound text) {front written back : List Char}
    (htext : text.chars = front ++ (written ++ back)) (hwritten : CommonJs.IsRequirement specifier written)
    (hstart : c.token.span.start = byteLength front)
    (h : (statement (upTo depth) false).exec context c = some (n, c')) : n.Calls specifier := by
  obtain ⟨p, q, hp, -, hq, hoffset, -, -, -, -, hread⟩ := hsound.exists_places
  have hrest : q.rest = written ++ back := by
    obtain ⟨passed, hpassed, hlength⟩ := hp.trans hq
    have hlength : byteLength front = byteLength passed := by
      rw [← hstart, ← hoffset, hlength]
      exact Nat.zero_add _
    have hpassed : front ++ (written ++ back) = passed ++ q.rest := htext ▸ hpassed
    have hdrop := dropBytes_append front (written ++ back)
    rw [hpassed, hlength, dropBytes_append] at hdrop
    exact hdrop
  obtain ⟨o, rest⟩ := q
  obtain rfl : rest = _ := hrest
  rcases hwritten with rfl | ⟨number, rfl⟩
  · obtain ⟨r, hl, hr⟩ := CommonJs.scanLexeme_requireText specifier o back
    rw [List.append_assoc, List.singleton_append] at hread
    have hfirm : Place.Firm ⟨o, (CommonJs.requireText specifier).toList ++ ';' :: back⟩ := by
      rw [CommonJs.toList_requireText]
      exact ⟨'r', rfl, by decide, by decide⟩
    obtain ⟨hlexeme, rfl⟩ := Prod.mk.inj ((hread hfirm).trans hl)
    obtain ⟨span, e, rfl, hcall⟩ := statement_call hscript ⟨hlexeme, hr⟩ h
    exact (hcall.calls hne).of_part List.mem_cons_self
  · obtain ⟨r, hl, hr⟩ := CommonJs.scanLexeme_moduleText number specifier o back
    have hfirm : Place.Firm ⟨o, (CommonJs.moduleText number specifier).toList ++ back⟩ := by
      refine ⟨'c', ?_, by decide, by decide⟩
      unfold CommonJs.moduleText
      simp only [String.toList_append, List.append_assoc]
      rfl
    obtain ⟨hlexeme, rfl⟩ := Prod.mk.inj ((hread hfirm).trans hl)
    obtain ⟨span, declaratorSpan, target, e, rfl, hcall⟩ := statement_declaration hscript ⟨hlexeme, hr⟩ h
    exact ((hcall.calls hne).of_part (n := .mk .declarator declaratorSpan [target, e]) (by simp)).of_part
      List.mem_cons_self

/-- Each statement of a text is read at a cursor that stands in it. -/
theorem Grammar.exists_of_many {depth limit : Nat} {stop : Token → Bool} {context : Context} {c c' : Cursor}
    {ns : List Node} (hsound : c.Sound text)
    (h : (Parser.many limit stop ((upTo depth).parse (.statement false))).exec context c = some (ns, c')) :
    ∀ n ∈ ns, ∃ c₁ c₂, c₁.Sound text ∧ c₁.token.span.start = n.span.start ∧
      ((upTo depth).parse (.statement false)).exec context c₁ = some (n, c₂) := by
  induction limit generalizing c ns with
  | zero => cases h
  | succ limit ih =>
    simp only [Parser.many, Parser.exec_bind, Parser.exec_current, Option.bind_some, Parser.exec_ite,
      Parser.exec_pure] at h
    split at h
    · cases h
      simp
    · simp only [Option.bind_eq_some_iff] at h
      obtain ⟨⟨m, c₁⟩, hm, ⟨ms, c₂⟩, hms, h⟩ := h
      cases h
      obtain ⟨hsound₁, hparsed⟩ := Parser.of_run (upTo_spec depth (.statement false) c) ⟨rfl, hsound⟩ hm
      intro n hn
      rcases List.mem_cons.mp hn with rfl | hn
      · exact ⟨c, c₁, hsound, by rw [hparsed.span], hm⟩
      · exact ih hsound₁ hms n hn

/-- Directives call what they call as statements, which is nothing. -/
theorem Grammar.exists_of_mem_markDirectives {ns : List Node} (h : n ∈ markDirectives ns) :
    ∃ m ∈ ns, m.span = n.span ∧ ∀ specifier, m.Calls specifier → n.Calls specifier := by
  fun_induction markDirectives ns with
  | case1 s v t rest ih =>
    rcases List.mem_cons.mp h with rfl | h
    · refine ⟨_, List.mem_cons_self, rfl, fun specifier hcalls => ?_⟩
      rcases Node.calls_iff.mp hcalls with ⟨call, hcall, -⟩ | ⟨p, hp, hcalls⟩
      · cases hcall
      · exact hcalls.of_part hp
    · obtain ⟨m, hm, hsame⟩ := ih h
      exact ⟨m, List.mem_cons_of_mem _ hm, hsame⟩
  | case2 => exact ⟨n, h, rfl, fun _ => id⟩

/-- A statement of a script that starts with a call of `require`, or with a constant for it, calls it. -/
theorem Program.calls_of_start {program : Program} (hne : specifier ≠ "") {front written back : List Char}
    (h : parse? .script (front ++ (written ++ back)) = some program)
    (hwritten : CommonJs.IsRequirement specifier written) (hn : n ∈ program.body)
    (hstart : n.span.start = byteLength front) : n.Calls specifier := by
  obtain ⟨xs, last, hrun, rfl⟩ := exists_run_of_parse? h
  have hsound := sound_start .script ⟨front ++ (written ++ back)⟩
  obtain ⟨m, hm, hspan, hcalls⟩ := Grammar.exists_of_mem_markDirectives hn
  obtain ⟨c₁, c₂, hsound₁, hstart₁, hparse⟩ := Grammar.exists_of_many hsound hrun m hm
  obtain ⟨d, hparse⟩ := Grammar.exists_of_parse hparse
  refine hcalls specifier (Grammar.calls_of_statement hne rfl hsound₁ rfl hwritten ?_ hparse)
  rw [hstart₁, hspan, hstart]

end Relink.Script
