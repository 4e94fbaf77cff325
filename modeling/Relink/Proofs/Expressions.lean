import Mathlib
import Relink.Proofs.Reading

/-!
# What the rules for expressions read

Every rule for expressions parses a node, where the rules that it refers to do.
-/

set_option mvcgen.warning false

namespace Relink.Script.Grammar

open Std.Do
open Place Script.Parser

variable {text : Source} {g : Grammar}
  (hg : ∀ goal c, ⦃fun _ c' => ⌜c' = c ∧ c.Sound text⌝⦄ g.parse goal ⦃⇓? n _ c' => ⌜c'.Sound text ∧ Parsed text c n c'⌝⦄)

include hg

/-! ## Templates and regular expressions -/

omit hg in
theorem rescanRegex_spec (c : Cursor) :
    ⦃fun _ c' => ⌜c' = c ∧ c.Sound text ∧ (c.token.lexeme = .punct .slash ∨ c.token.lexeme = .punct .slashAssign)⌝⦄
    rescanRegex ⦃⇓? _ _ c' => ⌜c'.Sound text ∧ c.To c'⌝⦄ := by
  mvcgen [rescanRegex]
  rename_i context cursor h start body p hregex
  obtain ⟨rfl, hc, hslash⟩ := h
  refine ⟨hc.rescan .regex (.inl rfl) (hslash.imp_right Or.inl) ?_, ⟨Nat.le_refl _, Nat.le_refl _⟩⟩
  -- the body starts behind the slash, with the sign that was read with it
  rintro ⟨o, rest⟩ ho - hrest hrest'
  refine Leads.trans ?_ (leads_scanRegex hregex)
  subst ho
  rcases hslash with hslash | hslash
  · obtain rfl := hrest hslash
    have hbody : body = cursor.after.rest := by simp [body, Token.isPunct, hslash]
    rw [hbody]
    exact (Leads.refl _).across ['/'] rfl
  · obtain rfl := hrest' hslash
    have hbody : body = '=' :: cursor.after.rest := by simp [body, Token.isPunct, hslash]
    rw [hbody]
    exact (Leads.refl _).across ['/'] rfl

omit hg in
theorem rescanTemplate_spec (c : Cursor) : ⦃fun _ c' => ⌜c' = c ∧ c.Sound text⌝⦄ rescanTemplate
    ⦃⇓? _ _ c' => ⌜c'.Sound text ∧ c.To c'⌝⦄ := by
  mvcgen [rescanTemplate]
  rename_i context cursor h _ hbrace lexeme p htemplate
  obtain ⟨rfl, hc⟩ := h
  obtain ⟨last, well, hlexeme⟩ := exists_template htemplate
  simp only at hlexeme
  have hmark : cursor.token.lexeme = .punct .rbrace := beq_iff_eq.mp hbrace
  refine ⟨hc.rescan lexeme (.inr ⟨last, well, hlexeme⟩) (.inr (.inr hmark)) ?_, ⟨Nat.le_refl _, Nat.le_refl _⟩⟩
  intro q _ hafter _ _
  exact hafter.trans (leads_scanTemplate _ _ _ htemplate)

theorem templateParts_spec (tagged : Bool) (limit : Nat) (c : Cursor) :
    ⦃fun _ c' => ⌜c' = c ∧ c.Sound text⌝⦄ templateParts g tagged limit
    ⦃⇓? ns _ c' => ⌜c'.Sound text ∧ Listed text c ns c' ∧ c.token.span.start ≤ c'.lastStop⌝⦄ := by
  have hrescan := @rescanTemplate_spec text
  induction limit generalizing c with
  | zero => mvcgen [templateParts]
  | succ limit ih =>
    rw [templateParts]
    mvcgen [hg, withIn, hrescan, ih] with grind

theorem template_spec (tagged : Bool) (c : Cursor) : ⦃fun _ c' => ⌜c' = c ∧ c.Sound text⌝⦄ template g tagged
    ⦃⇓? n _ c' => ⌜c'.Sound text ∧ Parsed text c n c'⌝⦄ := by
  have hparts := templateParts_spec hg
  mvcgen [template, hparts] with grind

/-! ## Primaries -/

theorem arrayItem_spec (c : Cursor) : ⦃fun _ c' => ⌜c' = c ∧ c.Sound text⌝⦄ arrayItem g
    ⦃⇓? n _ c' => ⌜c'.Sound text ∧ Listed text c [n] c'⌝⦄ := by
  mvcgen [arrayItem, hg, withIn] with grind

theorem argument_spec (c : Cursor) : ⦃fun _ c' => ⌜c' = c ∧ c.Sound text⌝⦄ argument g
    ⦃⇓? n _ c' => ⌜c'.Sound text ∧ Listed text c [n] c'⌝⦄ := by
  mvcgen [argument, hg, withIn] with grind

theorem arguments_spec (c : Cursor) : ⦃fun _ c' => ⌜c' = c ∧ c.Sound text⌝⦄ arguments g
    ⦃⇓? r _ c' => ⌜c'.Sound text ∧ Listed text c r.1 c' ∧ c.token.span.start < c'.lastStop ∧
      Node.EndBefore c'.lastStop r.1⌝⦄ :=
  commaList_spec (argument_spec hg) _ _ c

theorem parenItem_spec (c : Cursor) : ⦃fun _ c' => ⌜c' = c ∧ c.Sound text⌝⦄ parenItem g
    ⦃⇓? n _ c' => ⌜c'.Sound text ∧ Listed text c [n] c'⌝⦄ := by
  mvcgen [parenItem, hg, withIn] with grind

omit hg in
theorem fits_sequenceOf {lo hi : Nat} {ns : List Node} {e : Node} (h : Node.FitsAll text lo hi ns)
    (hsequential : Node.Sequential ns) (he : sequenceOf ns = some e) : e.Fits text lo hi := by
  unfold sequenceOf at he
  split at he
  next => cases he
  next =>
    cases he
    exact Node.fitsAll_cons.mp h |>.1
  next n ns hns =>
    cases he
    obtain ⟨hn, hns⟩ := Node.fitsAll_cons.mp h
    have hlast : (ns.getLastD n).Fits text lo hi := by
      rw [List.getLastD_eq_getLast?]
      cases hlast : ns.getLast? with
      | none => exact hn
      | some m => exact hns m (List.mem_of_getLast? hlast)
    exact Node.fits_mk.mpr ⟨hn.cut_start, hlast.cut_stop, hn.le_start, hlast.stop_le, trivial, trivial, hsequential, h⟩

omit hg in
theorem parenthesised_spec (c₀ : Cursor) (start : Nat) (items : List Node) (trailing : Bool) (c : Cursor) :
    ⦃fun _ c' => ⌜c' = c ∧ c.Sound text ∧ start = c₀.token.span.start ∧ Gathered text c₀ items c⌝⦄
    parenthesised start items trailing ⦃⇓? n _ c' => ⌜c'.Sound text ∧ Parsed text c₀ n c'⌝⦄ := by
  have hsequence := @fits_sequenceOf text
  mvcgen [parenthesised] with grind

theorem importExpression_spec (c : Cursor) : ⦃fun _ c' => ⌜c' = c ∧ c.Sound text⌝⦄ importExpression g
    ⦃⇓? n _ c' => ⌜c'.Sound text ∧ Parsed text c n c'⌝⦄ := by
  have hitem : ∀ c, ⦃fun _ c' => ⌜c' = c ∧ c.Sound text⌝⦄ withIn (g.parse .assignment)
      ⦃⇓? n _ c' => ⌜c'.Sound text ∧ Listed text c [n] c'⌝⦄ := by
    intro c
    mvcgen [withIn, hg] with grind
  have hlist := commaList_spec hitem
  mvcgen [importExpression, hlist] with grind

theorem newExpression_spec (c : Cursor) : ⦃fun _ c' => ⌜c' = c ∧ c.Sound text⌝⦄ newExpression g
    ⦃⇓? n _ c' => ⌜c'.Sound text ∧ Parsed text c n c'⌝⦄ := by
  have harguments := arguments_spec hg
  mvcgen [newExpression, hg, harguments] with grind

theorem primary_spec (c : Cursor) : ⦃fun _ c' => ⌜c' = c ∧ c.Sound text⌝⦄ primary g
    ⦃⇓? n _ c' => ⌜c'.Sound text ∧ Parsed text c n c'⌝⦄ := by
  have htemplate := template_spec hg
  have hregex := @rescanRegex_spec text
  have hitems := commaList_spec (arrayItem_spec hg)
  have hobject := object_spec hg
  have hparens := commaList_spec (parenItem_spec hg)
  have hparenthesised := @parenthesised_spec text c
  have hdecorators := decorators_spec hg
  have hclass := classRest_spec hg c.token.span.start
  have hfunction := functionExpression_spec hg
  have hnew := newExpression_spec hg
  have himport := importExpression_spec hg
  generalize hQ : Parsed text c = Q
  mvcgen [primary, htemplate, hregex, hitems, hobject, hparens, hparenthesised, hdecorators, hclass, hfunction, hnew, himport] with
    (subst hQ; clear htemplate hregex hitems hobject hparens hparenthesised hdecorators hclass hfunction hnew himport hg; grind)

/-! ## Member accesses and calls -/

omit hg in
theorem memberOf_spec (c₀ : Cursor) (start : Nat) (e : Node) (c : Cursor) :
    ⦃fun _ c' => ⌜c' = c ∧ c.Sound text ∧ start = c₀.token.span.start ∧ Gathered text c₀ [e] c⌝⦄
    memberOf start e ⦃⇓? n _ c' => ⌜c'.Sound text ∧ Parsed text c₀ n c'⌝⦄ := by
  mvcgen [memberOf] with grind

omit hg in
theorem closeChain_spec (c₀ : Cursor) (optional : Bool) (e : Node) (c : Cursor) :
    ⦃fun _ c' => ⌜c' = c ∧ c.Sound text ∧ c₀.Sound text ∧ Parsed text c₀ e c⌝⦄
    closeChain optional e ⦃⇓? n _ c' => ⌜c'.Sound text ∧ Parsed text c₀ n c'⌝⦄ := by
  mvcgen [closeChain] with grind

theorem chain_spec (c₀ : Cursor) (calls : Bool) (limit : Nat) (optional : Bool) (e : Node) (c : Cursor) :
    ⦃fun _ c' => ⌜c' = c ∧ c.Sound text ∧ c₀.Sound text ∧ Parsed text c₀ e c⌝⦄
    chain g calls limit optional e ⦃⇓? n _ c' => ⌜c'.Sound text ∧ Parsed text c₀ n c'⌝⦄ := by
  have htemplate := template_spec hg
  have harguments := arguments_spec hg
  have hmember := @memberOf_spec text c₀
  have hclose := @closeChain_spec text c₀
  induction limit generalizing optional e c with
  | zero => mvcgen [chain]
  | succ limit ih =>
    rw [chain]
    generalize hQ : Parsed text c₀ = Q at hmember hclose ih ⊢
    mvcgen [withIn, hg, htemplate, harguments, hmember, hclose, ih] with
      (subst hQ; clear htemplate harguments hmember hclose ih hg; grind)

theorem leftHand_spec (c : Cursor) : ⦃fun _ c' => ⌜c' = c ∧ c.Sound text⌝⦄ leftHand g none
    ⦃⇓? n _ c' => ⌜c'.Sound text ∧ Parsed text c n c'⌝⦄ := by
  have hprimary := primary_spec hg
  have hchain := chain_spec hg c
  generalize hQ : Parsed text c = Q at hchain ⊢
  mvcgen [leftHand, hprimary, hchain] with (subst hQ; grind)

theorem leftHand_some_spec (c₀ : Cursor) (e : Node) (c : Cursor) :
    ⦃fun _ c' => ⌜c' = c ∧ c.Sound text ∧ c₀.Sound text ∧ Parsed text c₀ e c⌝⦄ leftHand g (some e)
    ⦃⇓? n _ c' => ⌜c'.Sound text ∧ Parsed text c₀ n c'⌝⦄ := by
  have hchain := chain_spec hg c₀
  mvcgen [leftHand, hchain] with grind

theorem callee_spec (c : Cursor) : ⦃fun _ c' => ⌜c' = c ∧ c.Sound text⌝⦄ callee g
    ⦃⇓? n _ c' => ⌜c'.Sound text ∧ Parsed text c n c'⌝⦄ := by
  have hprimary := primary_spec hg
  have hchain := chain_spec hg c
  generalize hQ : Parsed text c = Q at hchain ⊢
  mvcgen [callee, hprimary, hchain] with (subst hQ; grind)

/-! ## Operators -/

omit hg in
theorem postfixed_spec (c₀ : Cursor) (e : Node) (c : Cursor) :
    ⦃fun _ c' => ⌜c' = c ∧ c.Sound text ∧ c₀.Sound text ∧ Parsed text c₀ e c⌝⦄ postfixed e
    ⦃⇓? n _ c' => ⌜c'.Sound text ∧ Parsed text c₀ n c'⌝⦄ := by
  mvcgen [postfixed] with grind

omit hg in
/-- An operator in front of an operand is a mark or a word. -/
theorem lt_of_unaryOp {c : Cursor} {op : UnaryOp} (hc : c.Sound text) (h : unaryOp? c.token = some op) :
    c.token.span.start < c.token.span.stop := by
  refine hc.solid ?_
  unfold unaryOp? at h
  split at h
  case h_8 => cases h
  all_goals
    next hlexeme =>
      rw [hlexeme]
      rfl

theorem unary_spec (c : Cursor) : ⦃fun _ c' => ⌜c' = c ∧ c.Sound text⌝⦄ unary g
    ⦃⇓? n _ c' => ⌜c'.Sound text ∧ Parsed text c n c'⌝⦄ := by
  have hleft := leftHand_spec hg
  have hpostfixed := @postfixed_spec text c
  generalize hQ : Parsed text c = Q at hpostfixed ⊢
  mvcgen [unary, hg, hleft, hpostfixed] with (subst hQ; grind [lt_of_unaryOp])

omit hg in
theorem operationNode_spec (c₀ : Cursor) (op : Option Punct) (l r : Node) (c : Cursor) :
    ⦃fun _ c' => ⌜c' = c ∧ c.Sound text ∧ l.span.start = c₀.token.span.start ∧ Gathered text c₀ [l, r] c⌝⦄
    operationNode op l r ⦃⇓? n _ c' => ⌜c'.Sound text ∧ Parsed text c₀ n c'⌝⦄ := by
  mvcgen [operationNode] with grind

theorem operationRest_spec (c₀ : Cursor) (above limit : Nat) (l : Node) (c : Cursor) :
    ⦃fun _ c' => ⌜c' = c ∧ c.Sound text ∧ c₀.Sound text ∧ Parsed text c₀ l c⌝⦄ operationRest g above limit l
    ⦃⇓? n _ c' => ⌜c'.Sound text ∧ Parsed text c₀ n c'⌝⦄ := by
  have hnode := @operationNode_spec text c₀
  induction limit generalizing l c with
  | zero => mvcgen [operationRest]
  | succ limit ih =>
    rw [operationRest]
    generalize hQ : Parsed text c₀ = Q at hnode ih ⊢
    mvcgen [hg, hnode, ih] with (subst hQ; clear hnode ih hg; grind)

theorem privateIn_spec (above : Nat) (name : List Char) (c : Cursor) : ⦃fun _ c' => ⌜c' = c ∧ c.Sound text⌝⦄
    privateIn g above name ⦃⇓? n _ c' => ⌜c'.Sound text ∧ Parsed text c n c'⌝⦄ := by
  mvcgen [privateIn, hg] with grind

theorem operation_spec (above : Nat) (c : Cursor) : ⦃fun _ c' => ⌜c' = c ∧ c.Sound text⌝⦄ operation g above none
    ⦃⇓? n _ c' => ⌜c'.Sound text ∧ Parsed text c n c'⌝⦄ := by
  have hprivate := privateIn_spec hg
  have hunary := unary_spec hg
  have hrest := operationRest_spec hg c
  generalize hQ : Parsed text c = Q at hrest ⊢
  mvcgen [operation, hprivate, hunary, hrest] with (subst hQ; grind)

theorem operation_some_spec (c₀ : Cursor) (above : Nat) (e : Node) (c : Cursor) :
    ⦃fun _ c' => ⌜c' = c ∧ c.Sound text ∧ c₀.Sound text ∧ Parsed text c₀ e c⌝⦄ operation g above (some e)
    ⦃⇓? n _ c' => ⌜c'.Sound text ∧ Parsed text c₀ n c'⌝⦄ := by
  have hleft := leftHand_some_spec hg c₀
  have hpostfixed := @postfixed_spec text c₀
  have hrest := operationRest_spec hg c₀
  generalize hQ : Parsed text c₀ = Q at hleft hpostfixed hrest ⊢
  mvcgen [operation, hleft, hpostfixed, hrest] with (subst hQ; grind)

/-! ## Arrow functions -/

theorem arrowBody_spec (c₀ : Cursor) (start : Nat) (async : Bool) (ps : Node) (c : Cursor) :
    ⦃fun _ c' => ⌜c' = c ∧ c.Sound text ∧ start = c₀.token.span.start ∧ Gathered text c₀ [ps] c⌝⦄
    arrowBody g start async ps ⦃⇓? n _ c' => ⌜c'.Sound text ∧ Parsed text c₀ n c'⌝⦄ := by
  have hbody := functionBody_spec hg
  mvcgen [arrowBody, insideFunction, hg, hbody] with grind

theorem arrowOf_spec (c₀ : Cursor) (start : Nat) (async trailing : Bool) (items : List Node) (c : Cursor) :
    ⦃fun _ c' => ⌜c' = c ∧ c.Sound text ∧ start = c₀.token.span.start ∧ Gathered text c₀ items c⌝⦄
    arrowOf g start async trailing items ⦃⇓? n _ c' => ⌜c'.Sound text ∧ Parsed text c₀ n c'⌝⦄ := by
  have hbody := arrowBody_spec hg c₀
  generalize hQ : Parsed text c₀ = Q at hbody ⊢
  mvcgen [arrowOf, hbody] with (subst hQ; grind)

theorem arrowOfName_spec (c₀ : Cursor) (start : Nat) (async : Bool) (c : Cursor) :
    ⦃fun _ c' => ⌜c' = c ∧ c.Sound text ∧ start = c₀.token.span.start ∧ c₀.Sound text ∧ c₀.To c⌝⦄
    arrowOfName g start async ⦃⇓? n _ c' => ⌜c'.Sound text ∧ Parsed text c₀ n c'⌝⦄ := by
  have hbody := arrowBody_spec hg c₀
  generalize hQ : Parsed text c₀ = Q at hbody ⊢
  mvcgen [arrowOfName, hbody] with (subst hQ; grind)

/-! ## Assignments -/

theorem assignmentFrom_spec (c : Cursor) : ⦃fun _ c' => ⌜c' = c ∧ c.Sound text⌝⦄ assignmentFrom g none
    ⦃⇓? n _ c' => ⌜c'.Sound text ∧ Parsed text c n c'⌝⦄ := by
  have hoperation := operation_spec hg
  generalize hQ : Parsed text c = Q
  mvcgen [assignmentFrom, withIn, hg, hoperation] with (subst hQ; grind)

theorem assignmentFrom_some_spec (c₀ : Cursor) (e : Node) (c : Cursor) :
    ⦃fun _ c' => ⌜c' = c ∧ c.Sound text ∧ c₀.Sound text ∧ Parsed text c₀ e c⌝⦄ assignmentFrom g (some e)
    ⦃⇓? n _ c' => ⌜c'.Sound text ∧ Parsed text c₀ n c'⌝⦄ := by
  have hoperation := operation_some_spec hg c₀
  generalize hQ : Parsed text c₀ = Q at hoperation ⊢
  mvcgen [assignmentFrom, withIn, hg, hoperation] with (subst hQ; grind)

theorem yieldExpression_spec (c : Cursor) : ⦃fun _ c' => ⌜c' = c ∧ c.Sound text⌝⦄ yieldExpression g
    ⦃⇓? n _ c' => ⌜c'.Sound text ∧ Parsed text c n c'⌝⦄ := by
  mvcgen [yieldExpression, hg] with grind

theorem asyncExpression_spec (c : Cursor) : ⦃fun _ c' => ⌜c' = c ∧ c.Sound text⌝⦄ asyncExpression g
    ⦃⇓? n _ c' => ⌜c'.Sound text ∧ Parsed text c n c'⌝⦄ := by
  have hname := arrowOfName_spec hg c
  have hof := arrowOf_spec hg c
  have harguments := arguments_spec hg
  have hfrom := assignmentFrom_spec hg
  have hsome := assignmentFrom_some_spec hg c
  generalize hQ : Parsed text c = Q at hname hof hsome ⊢
  mvcgen [asyncExpression, hname, hof, harguments, hfrom, hsome] with
    (subst hQ; clear hname hof harguments hfrom hsome hg; grind)

theorem assignment_spec (c : Cursor) : ⦃fun _ c' => ⌜c' = c ∧ c.Sound text⌝⦄ assignment g
    ⦃⇓? n _ c' => ⌜c'.Sound text ∧ Parsed text c n c'⌝⦄ := by
  have hparens := commaList_spec (parenItem_spec hg)
  have hparenthesised := @parenthesised_spec text c
  have hname := arrowOfName_spec hg c
  have hof := arrowOf_spec hg c
  have hyield := yieldExpression_spec hg
  have hasync := asyncExpression_spec hg
  have hfrom := assignmentFrom_spec hg
  have hsome := assignmentFrom_some_spec hg c
  generalize hQ : Parsed text c = Q at hparenthesised hname hof hsome ⊢
  mvcgen [assignment, hparens, hparenthesised, hname, hof, hyield, hasync, hfrom, hsome] with
    (subst hQ; clear hparens hparenthesised hname hof hyield hasync hfrom hsome hg; grind)

theorem sequenceRest_spec (limit : Nat) (c : Cursor) : ⦃fun _ c' => ⌜c' = c ∧ c.Sound text⌝⦄ sequenceRest g limit
    ⦃⇓? ns _ c' => ⌜c'.Sound text ∧ Listed text c ns c' ∧ (ns = [] → c' = c)⌝⦄ := by
  induction limit generalizing c with
  | zero => mvcgen [sequenceRest]
  | succ limit ih =>
    rw [sequenceRest]
    mvcgen [hg, ih] with grind

theorem expression_spec (c : Cursor) : ⦃fun _ c' => ⌜c' = c ∧ c.Sound text⌝⦄ expression g
    ⦃⇓? n _ c' => ⌜c'.Sound text ∧ Parsed text c n c'⌝⦄ := by
  have hrest := sequenceRest_spec hg
  mvcgen [expression, hg, hrest] with grind

end Relink.Script.Grammar
