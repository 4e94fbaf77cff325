import Mathlib
import Relink.Proofs.Expressions

/-!
# What the rules for statements read

Every rule of the grammar parses a node. A program is then a list of statements that stand in the text one after the
other.
-/

set_option mvcgen.warning false

namespace Relink.Script

open Std.Do
open Place Script.Parser

namespace Grammar

variable {text : Source} {g : Grammar}
  (hg : ∀ goal c, ⦃fun _ c' => ⌜c' = c ∧ c.Sound text⌝⦄ g.parse goal ⦃⇓? n _ c' => ⌜c'.Sound text ∧ Parsed text c n c'⌝⦄)

include hg

/-! ## Declarations of variables -/

theorem declarator_spec (kind : VariableKind) (mayLackValue : Bool) (c : Cursor) :
    ⦃fun _ c' => ⌜c' = c ∧ c.Sound text⌝⦄ declarator g kind mayLackValue
    ⦃⇓? n _ c' => ⌜c'.Sound text ∧ Parsed text c n c'⌝⦄ := by
  mvcgen [declarator, hg] with grind

theorem declarators_spec (kind : VariableKind) (mayLackValue : Bool) (limit : Nat) (c : Cursor) :
    ⦃fun _ c' => ⌜c' = c ∧ c.Sound text⌝⦄ declarators g kind mayLackValue limit
    ⦃⇓? ns _ c' => ⌜c'.Sound text ∧ Listed text c ns c' ∧ c.token.span.start ≤ c'.lastStop⌝⦄ := by
  have hdeclarator := declarator_spec hg
  induction limit generalizing c with
  | zero => mvcgen [declarators]
  | succ limit ih =>
    rw [declarators]
    mvcgen [hdeclarator, ih] with grind

omit hg in
@[spec]
theorem atAwaitUsing_spec (c : Cursor) : ⦃fun _ c' => ⌜c' = c⌝⦄ atAwaitUsing ⦃⇓? _ _ c' => ⌜c' = c⌝⦄ := by
  mvcgen [atAwaitUsing] with grind

theorem variableList_spec (kind : VariableKind) (mayLackValue : Bool) (c : Cursor) :
    ⦃fun _ c' => ⌜c' = c ∧ c.Sound text⌝⦄ variableList g kind mayLackValue
    ⦃⇓? n _ c' => ⌜c'.Sound text ∧ Parsed text c n c' ∧ n.kind = .variableList kind⌝⦄ := by
  have hdeclarators := declarators_spec hg
  mvcgen [variableList, hdeclarators] with grind

theorem variableStatement_spec (kind : VariableKind) (c : Cursor) :
    ⦃fun _ c' => ⌜c' = c ∧ c.Sound text⌝⦄ variableStatement g kind
    ⦃⇓? n _ c' => ⌜c'.Sound text ∧ Parsed text c n c'⌝⦄ := by
  have hlist := variableList_spec hg
  mvcgen [variableStatement, hlist] with grind

/-! ## Plain statements -/

theorem expressionStatement_spec (c : Cursor) : ⦃fun _ c' => ⌜c' = c ∧ c.Sound text⌝⦄ expressionStatement g
    ⦃⇓? n _ c' => ⌜c'.Sound text ∧ Parsed text c n c'⌝⦄ := by
  mvcgen [expressionStatement, hg] with grind

theorem block_spec (c : Cursor) : ⦃fun _ c' => ⌜c' = c ∧ c.Sound text⌝⦄ block g
    ⦃⇓? n _ c' => ⌜c'.Sound text ∧ Parsed text c n c'⌝⦄ := by
  have hstatements := statementsToBrace_spec hg
  mvcgen [block, hstatements] with grind

theorem condition_spec (c : Cursor) : ⦃fun _ c' => ⌜c' = c ∧ c.Sound text⌝⦄ condition g
    ⦃⇓? n _ c' => ⌜c'.Sound text ∧ Listed text c [n] c' ∧ c.token.span.start ≤ c'.lastStop⌝⦄ := by
  mvcgen [condition, withIn, hg] with grind

theorem ifStatement_spec (c : Cursor) : ⦃fun _ c' => ⌜c' = c ∧ c.Sound text⌝⦄ ifStatement g
    ⦃⇓? n _ c' => ⌜c'.Sound text ∧ Parsed text c n c'⌝⦄ := by
  have hcondition := condition_spec hg
  mvcgen [ifStatement, hg, hcondition] with grind

theorem doStatement_spec (c : Cursor) : ⦃fun _ c' => ⌜c' = c ∧ c.Sound text⌝⦄ doStatement g
    ⦃⇓? n _ c' => ⌜c'.Sound text ∧ Parsed text c n c'⌝⦄ := by
  have hcondition := condition_spec hg
  mvcgen [doStatement, hg, hcondition] with grind

theorem headed_spec (kind : Kind) (hkind : kind = .loop ∨ kind = .with) (c : Cursor) :
    ⦃fun _ c' => ⌜c' = c ∧ c.Sound text⌝⦄ headed g kind ⦃⇓? n _ c' => ⌜c'.Sound text ∧ Parsed text c n c'⌝⦄ := by
  have hcondition := condition_spec hg
  mvcgen [headed, hg, hcondition] with grind

omit hg in
theorem jumpStatement_spec (c : Cursor) : ⦃fun _ c' => ⌜c' = c ∧ c.Sound text⌝⦄ jumpStatement
    ⦃⇓? n _ c' => ⌜c'.Sound text ∧ Parsed text c n c'⌝⦄ := by
  mvcgen [jumpStatement] with grind

theorem returnStatement_spec (c : Cursor) : ⦃fun _ c' => ⌜c' = c ∧ c.Sound text⌝⦄ returnStatement g
    ⦃⇓? n _ c' => ⌜c'.Sound text ∧ Parsed text c n c'⌝⦄ := by
  mvcgen [returnStatement, withIn, hg] with grind

theorem throwStatement_spec (c : Cursor) : ⦃fun _ c' => ⌜c' = c ∧ c.Sound text⌝⦄ throwStatement g
    ⦃⇓? n _ c' => ⌜c'.Sound text ∧ Parsed text c n c'⌝⦄ := by
  mvcgen [throwStatement, withIn, hg] with grind

theorem switchCase_spec (c : Cursor) : ⦃fun _ c' => ⌜c' = c ∧ c.Sound text⌝⦄ switchCase g
    ⦃⇓? n _ c' => ⌜c'.Sound text ∧ Listed text c [n] c'⌝⦄ := by
  have hitem : ∀ c, ⦃fun _ c' => ⌜c' = c ∧ c.Sound text⌝⦄ g.parse (.statement false)
      ⦃⇓? n _ c' => ⌜c'.Sound text ∧ Listed text c [n] c'⌝⦄ := by
    intro c
    mvcgen [hg] with grind
  have hlist := many_spec hitem
  mvcgen [switchCase, withIn, hg, hlist] with grind

theorem switchStatement_spec (c : Cursor) : ⦃fun _ c' => ⌜c' = c ∧ c.Sound text⌝⦄ switchStatement g
    ⦃⇓? n _ c' => ⌜c'.Sound text ∧ Parsed text c n c'⌝⦄ := by
  have hcondition := condition_spec hg
  have hlist := many_spec (switchCase_spec hg)
  mvcgen [switchStatement, hcondition, hlist] with grind

theorem tryStatement_spec (c : Cursor) : ⦃fun _ c' => ⌜c' = c ∧ c.Sound text⌝⦄ tryStatement g
    ⦃⇓? n _ c' => ⌜c'.Sound text ∧ Parsed text c n c'⌝⦄ := by
  have hblock := block_spec hg
  mvcgen [tryStatement, hg, hblock] with (clear hblock hg; grind)

/-! ## Loops with a head -/

theorem countingLoop_spec (c₀ : Cursor) (start : Nat) (init : List Node) (c : Cursor) :
    ⦃fun _ c' => ⌜c' = c ∧ c.Sound text ∧ start = c₀.token.span.start ∧ Gathered text c₀ init c⌝⦄
    countingLoop g start init ⦃⇓? n _ c' => ⌜c'.Sound text ∧ Parsed text c₀ n c'⌝⦄ := by
  mvcgen [countingLoop, hg] with grind

theorem iteratingLoop_spec (c₀ : Cursor) (start : Nat) (async : Bool) (target : Node) (c : Cursor) :
    ⦃fun _ c' => ⌜c' = c ∧ c.Sound text ∧ start = c₀.token.span.start ∧ Gathered text c₀ [target] c⌝⦄
    iteratingLoop g start async target ⦃⇓? n _ c' => ⌜c'.Sound text ∧ Parsed text c₀ n c'⌝⦄ := by
  mvcgen [iteratingLoop, hg] with grind

omit hg in
@[spec]
theorem loopDeclaration_spec (c : Cursor) : ⦃fun _ c' => ⌜c' = c⌝⦄ loopDeclaration? ⦃⇓? _ _ c' => ⌜c' = c⌝⦄ := by
  mvcgen [loopDeclaration?] with grind

theorem forStatement_spec (c : Cursor) : ⦃fun _ c' => ⌜c' = c ∧ c.Sound text⌝⦄ forStatement g
    ⦃⇓? n _ c' => ⌜c'.Sound text ∧ Parsed text c n c'⌝⦄ := by
  have hcounting := countingLoop_spec hg c
  have hiterating := iteratingLoop_spec hg c
  have hvariables := variableList_spec hg
  generalize hQ : Parsed text c = Q at hcounting hiterating ⊢
  mvcgen [forStatement, withoutIn, hg, hcounting, hiterating, hvariables] with
    (subst hQ; clear hcounting hiterating hvariables hg; grind)

/-! ## Imports and exports -/

omit hg in
@[spec]
theorem exportName_spec (c : Cursor) : ⦃fun _ c' => ⌜c' = c ∧ c.Sound text⌝⦄ exportName
    ⦃⇓? r _ c' => ⌜c'.Sound text ∧ c.To c' ∧ c'.lastStop = c.token.span.stop ∧ (r.2 = false → '\n' ∉ r.1.toList) ∧
      ∀ w name escaped, c.token.lexeme = .word w name escaped → r.2 = false⌝⦄ := by
  mvcgen [exportName] with grind

omit hg in
@[spec]
theorem importAttributes_spec (c : Cursor) : ⦃fun _ c' => ⌜c' = c ∧ c.Sound text⌝⦄ importAttributes g
    ⦃⇓? _ _ c' => ⌜c'.Sound text ∧ c.To c'⌝⦄ := by
  have hlist := @commaList_spec text
  mvcgen [importAttributes, hlist] with (clear hlist; grind)

omit hg in
@[spec]
theorem importSpecifier_spec (c : Cursor) : ⦃fun _ c' => ⌜c' = c ∧ c.Sound text⌝⦄ importSpecifier
    ⦃⇓? b _ c' => ⌜c'.Sound text ∧ c.To c' ∧ '\n' ∉ b.local_.toList⌝⦄ := by
  mvcgen [importSpecifier] with grind

omit hg in
theorem importSpecifiers_spec (limit : Nat) (c : Cursor) : ⦃fun _ c' => ⌜c' = c ∧ c.Sound text⌝⦄ importSpecifiers limit
    ⦃⇓? bs _ c' => ⌜c'.Sound text ∧ c.To c' ∧ ∀ b ∈ bs, '\n' ∉ b.local_.toList⌝⦄ := by
  induction limit generalizing c with
  | zero => mvcgen [importSpecifiers]
  | succ limit ih =>
    rw [importSpecifiers]
    mvcgen [ih] with grind

omit hg in
theorem importTail_spec (c : Cursor) : ⦃fun _ c' => ⌜c' = c ∧ c.Sound text⌝⦄ importTail g
    ⦃⇓? bs _ c' => ⌜c'.Sound text ∧ c.To c' ∧ ∀ b ∈ bs, '\n' ∉ b.local_.toList⌝⦄ := by
  have hspecifiers := @importSpecifiers_spec text
  generalize hQ : c.To = Q
  mvcgen [importTail, hspecifiers] with (subst hQ; grind)

omit hg in
@[spec]
theorem importClause_spec (c : Cursor) : ⦃fun _ c' => ⌜c' = c ∧ c.Sound text⌝⦄ importClause g
    ⦃⇓? bs _ c' => ⌜c'.Sound text ∧ c.To c' ∧ ∀ b ∈ bs, '\n' ∉ b.local_.toList⌝⦄ := by
  have htail := @importTail_spec text g
  generalize hQ : c.To = Q
  mvcgen [importClause, htail] with (subst hQ; grind)

omit hg in
theorem importDeclaration_spec (c : Cursor) : ⦃fun _ c' => ⌜c' = c ∧ c.Sound text⌝⦄ importDeclaration g
    ⦃⇓? n _ c' => ⌜c'.Sound text ∧ Parsed text c n c'⌝⦄ := by
  mvcgen [importDeclaration] with grind

omit hg in
@[spec]
theorem exportSpecifier_spec (c : Cursor) : ⦃fun _ c' => ⌜c' = c ∧ c.Sound text⌝⦄ exportSpecifier
    ⦃⇓? b _ c' => ⌜c'.Sound text ∧ c.To c' ∧ (b.2 = true → '\n' ∉ b.1.local_.toList)⌝⦄ := by
  mvcgen [exportSpecifier] with grind

omit hg in
@[spec]
theorem exportSpecifiers_spec (limit : Nat) (c : Cursor) : ⦃fun _ c' => ⌜c' = c ∧ c.Sound text⌝⦄ exportSpecifiers limit
    ⦃⇓? bs _ c' => ⌜c'.Sound text ∧ c.To c' ∧ ∀ b ∈ bs, b.2 = true → '\n' ∉ b.1.local_.toList⌝⦄ := by
  induction limit generalizing c with
  | zero => mvcgen [exportSpecifiers]
  | succ limit ih =>
    rw [exportSpecifiers]
    mvcgen [ih] with grind

theorem defaultExport_spec (c₀ : Cursor) (start : Nat) (ds : List Node) (c : Cursor) :
    ⦃fun _ c' => ⌜c' = c ∧ c.Sound text ∧ start = c₀.token.span.start ∧ Gathered text c₀ ds c⌝⦄
    defaultExport g start ds ⦃⇓? n _ c' => ⌜c'.Sound text ∧ Parsed text c₀ n c'⌝⦄ := by
  have hfunction := functionDeclaration_spec hg
  have hdecorators := decorators_spec hg
  have hclass := classRest_spec hg c₀.token.span.start
  mvcgen [defaultExport, withIn, hg, hfunction, hdecorators, hclass] with
    (clear hfunction hdecorators hclass hg; grind)

omit hg in
theorem exported_spec (c₀ : Cursor) (start : Nat) (d : Node) (c : Cursor) :
    ⦃fun _ c' => ⌜c' = c ∧ c.Sound text ∧ start = c₀.token.span.start ∧ Gathered text c₀ [d] c ∧
      d.span.start ≤ d.span.stop⌝⦄
    exportDeclaration.exported start d ⦃⇓? n _ c' => ⌜c'.Sound text ∧ Parsed text c₀ n c'⌝⦄ := by
  mvcgen [exportDeclaration.exported] with grind

theorem exportDeclaration_spec (c₀ : Cursor) (start : Nat) (ds : List Node) (c : Cursor) :
    ⦃fun _ c' => ⌜c' = c ∧ c.Sound text ∧ start = c₀.token.span.start ∧ c₀.Sound text ∧ c₀.To c ∧
      Node.FitsAll text c₀.token.span.start c.lastStop ds ∧ Node.Sequential ds⌝⦄
    exportDeclaration g start ds ⦃⇓? n _ c' => ⌜c'.Sound text ∧ Parsed text c₀ n c'⌝⦄ := by
  have hfunction := functionDeclaration_spec hg
  have hdecorators := decorators_spec hg
  have hclass := classRest_spec hg c₀.token.span.start
  have hdefault := defaultExport_spec hg c₀
  have hvariables := variableStatement_spec hg
  have hexported := @exported_spec text c₀
  generalize hQ : Parsed text c₀ = Q at hdefault hexported ⊢
  mvcgen [exportDeclaration, hfunction, hdecorators, hclass, hdefault, hvariables, hexported] with
    (subst hQ; clear hfunction hdecorators hclass hdefault hvariables hexported hg; grind)

/-! ## All statements -/

theorem letStatement_spec (single : Bool) (c : Cursor) : ⦃fun _ c' => ⌜c' = c ∧ c.Sound text⌝⦄ letStatement g single
    ⦃⇓? n _ c' => ⌜c'.Sound text ∧ Parsed text c n c'⌝⦄ := by
  have hexpression := expressionStatement_spec hg
  have hvariables := variableStatement_spec hg
  generalize hQ : Parsed text c = Q
  mvcgen [letStatement, hexpression, hvariables] with (subst hQ; grind)

theorem statement_spec (single : Bool) (c : Cursor) : ⦃fun _ c' => ⌜c' = c ∧ c.Sound text⌝⦄ statement g single
    ⦃⇓? n _ c' => ⌜c'.Sound text ∧ Parsed text c n c'⌝⦄ := by
  have hblock := block_spec hg
  have hdecorators := decorators_spec hg
  have hexport := exportDeclaration_spec hg c
  have hclass := classRest_spec hg c.token.span.start
  have hif := ifStatement_spec hg
  have hdo := doStatement_spec hg
  have hloop := headed_spec hg .loop (.inl rfl)
  have hwith := headed_spec hg .with (.inr rfl)
  have hfor := forStatement_spec hg
  have hjump := @jumpStatement_spec text
  have hreturn := returnStatement_spec hg
  have hthrow := throwStatement_spec hg
  have hswitch := switchStatement_spec hg
  have htry := tryStatement_spec hg
  have hvariables := variableStatement_spec hg
  have hlet := letStatement_spec hg
  have hexpression := expressionStatement_spec hg
  have hfunction := functionDeclaration_spec hg
  have himport := @importDeclaration_spec text g
  generalize hQ : Parsed text c = Q at hexport ⊢
  mvcgen [statement, hblock, hdecorators, hexport, hclass, hif, hdo, hloop, hwith, hfor, hjump, hreturn, hthrow, hswitch,
    htry, hvariables, hlet, hexpression, hfunction, himport] with
    (subst hQ; clear hblock hdecorators hexport hclass hif hdo hloop hwith hfor hjump hreturn hthrow hswitch htry
      hvariables hlet hexpression hfunction himport hg; grind)

omit hg in
/-- Every rule of the grammar parses a node, however deep the rules may be nested. -/
theorem upTo_spec (depth : Nat) (goal : Goal) (c : Cursor) :
    ⦃fun _ c' => ⌜c' = c ∧ c.Sound text⌝⦄ (upTo depth).parse goal
    ⦃⇓? n _ c' => ⌜c'.Sound text ∧ Parsed text c n c'⌝⦄ := by
  induction depth generalizing goal c with
  | zero =>
    unfold upTo
    mvcgen
  | succ depth ih =>
    cases goal with
    | statement single => exact statement_spec ih single c
    | expression => exact expression_spec ih c
    | assignment => exact assignment_spec ih c
    | operation above => exact operation_spec ih above c
    | unary => exact unary_spec ih c
    | leftHand => exact leftHand_spec ih c
    | callee => exact callee_spec ih c
    | pattern => exact pattern_spec ih c

end Grammar

/-! ## Programs -/

/-- A statement that stands in a text: its span is in order, and holds those of its parts. -/
structure Standing (text : Source) (n : Node) : Prop where
  ordered : n.span.start ≤ n.span.stop
  fits : n.Fits text n.span.start n.span.stop

/-- Statements that stand in a text one after the other. -/
structure Lined (text : Source) (ns : List Node) : Prop where
  standing : ∀ n ∈ ns, Standing text n
  ascending : ns.Pairwise fun a b => a.span.stop ≤ b.span.start

theorem Parsed.standing {c c' : Cursor} {n : Node} (h : Parsed text c n c') : Standing text n := by
  constructor <;> rw [h.span]
  · exact h.moved
  · exact h.fits

@[grind .]
theorem lined_nil : Lined text [] := ⟨by simp, .nil⟩

@[grind =]
theorem lined_cons {n : Node} {ns : List Node} : Lined text (n :: ns) ↔
    Standing text n ∧ (∀ m ∈ ns, n.span.stop ≤ m.span.start) ∧ Lined text ns := by
  constructor
  · rintro ⟨hstanding, hascending⟩
    obtain ⟨hn, hns⟩ := List.pairwise_cons.mp hascending
    exact ⟨hstanding n (by simp), hn, fun m hm => hstanding m (by simp [hm]), hns⟩
  · rintro ⟨hn, hbefore, hstanding, hascending⟩
    exact ⟨by simpa [hn] using hstanding, List.pairwise_cons.mpr ⟨hbefore, hascending⟩⟩

namespace Parser

/-- What a triple says of a run. -/
theorem of_run {α : Type} {p : Parser α} {P : Cursor → Prop} {Q : α → Cursor → Prop}
    (h : ⦃fun _ c => ⌜P c⌝⦄ p ⦃⇓? a _ c => ⌜Q a c⌝⦄) {context : Context} {c c' : Cursor} {a : α} (hc : P c)
    (hrun : p.run context c = some (a, c')) : Q a c' := by
  have hwp := h context c hc
  have hrun' : (p.run context).run c = some (a, c') := hrun
  simp only [wp, PredTrans.apply_pushArg, PredTrans.apply_Functor_map, hrun'] at hwp
  exact hwp

end Parser

namespace Grammar

/-- The statements of a text stand in it one after the other. -/
theorem many_statement_spec {g : Grammar}
    (hg : ∀ goal c, ⦃fun _ c' => ⌜c' = c ∧ c.Sound text⌝⦄ g.parse goal
      ⦃⇓? n _ c' => ⌜c'.Sound text ∧ Parsed text c n c'⌝⦄)
    (limit : Nat) (stop : Token → Bool) (c : Cursor) :
    ⦃fun _ c' => ⌜c' = c ∧ c.Sound text⌝⦄ many limit stop (g.parse (.statement false))
    ⦃⇓? ns _ c' => ⌜c'.Sound text ∧ Lined text ns ∧ ∀ n ∈ ns, c.token.span.start ≤ n.span.start⌝⦄ := by
  induction limit generalizing c with
  | zero => mvcgen [many]
  | succ limit ih =>
    rw [many]
    mvcgen [hg, ih] with grind [Parsed.standing]

/-- Directives stand where they stood as statements. -/
theorem lined_markDirectives {ns : List Node} (h : Lined text ns) : Lined text (markDirectives ns) := by
  have hspans : ∀ ns : List Node, (markDirectives ns).map Node.span = ns.map Node.span := by
    intro ns
    fun_induction markDirectives ns with
    | case1 s v t rest ih => simp [ih]
    | case2 => rfl
  fun_induction markDirectives ns with
  | case1 s v t rest ih =>
    obtain ⟨⟨hordered, hfits⟩, hbefore, hrest⟩ := lined_cons.mp h
    refine lined_cons.mpr ⟨⟨hordered, ?_⟩, ?_, ih hrest⟩
    · rw [Node.span_mk, Node.fits_mk] at hfits ⊢
      simpa [Kind.Shape, Kind.OneLine] using hfits
    · intro m hm
      have hspan : m.span ∈ rest.map Node.span := hspans rest ▸ List.mem_map_of_mem hm
      obtain ⟨m', hm', hspan⟩ := List.mem_map.mp hspan
      rw [← hspan]
      exact hbefore m' hm'
  | case2 => exact h

end Grammar

namespace Program

theorem leads_skipInterpreter (cs : List Char) : Leads (first cs) (skipInterpreter cs) := by
  unfold skipInterpreter
  split
  next rest =>
    have hline := List.prefix_iff_eq_append.mp (List.takeWhile_prefix (l := rest) fun c => !isLineEnd c)
    exact Leads.across ['#', '!'] rfl ⟨_, hline.symm, rfl⟩
  next => exact Leads.refl _

/-- What may be written between the statements of a program. -/
def context (mode : Mode) : Context := ⟨mode == .script, true, false, !(mode == .script), false⟩

/-- The cursor in front of the first statement of a text. -/
def start (mode : Mode) (cs : List Char) : Cursor :=
  let first := scanToken (mode == .script) true (skipInterpreter cs)
  ⟨first.token, first.after, 0, first.comments⟩

theorem sound_start (mode : Mode) (text : Source) : (start mode text.chars).Sound text :=
  Cursor.Sound.of_scanToken (Leads.refl _) (leads_skipInterpreter text.chars) _ true
    (commented_scanToken (leads_skipInterpreter text.chars) _ true)

/-- A program is read statement by statement from the front of its text. -/
theorem exists_run_of_parse? {mode : Mode} {cs : List Char} {program : Program} (h : parse? mode cs = some program) :
    ∃ xs last, (statements (Grammar.upTo (depthBound cs.length))).run (context mode) (start mode cs) = some (xs, last) ∧
      program = ⟨Grammar.markDirectives xs, last.comments.reverse⟩ := by
  unfold parse? at h
  extract_lets script first context cursor grammar at h
  split at h
  next xs last hrun =>
    split at h
    next => cases h
    next =>
    split at h
    next => exact ⟨xs, last, hrun, (Option.some.inj h).symm⟩
    next => cases h
  next => cases h

/-- The statements of a program stand in its text one after the other, and its comments are comments of the text. -/
theorem found_of_parse? {mode : Mode} {program : Program} (h : parse? mode text.chars = some program) :
    Lined text program.body ∧ ∀ span ∈ program.comments, Commented text.chars span := by
  obtain ⟨xs, last, hrun, rfl⟩ := exists_run_of_parse? h
  have hspec := Grammar.many_statement_spec (g := Grammar.upTo (depthBound text.chars.length)) (@Grammar.upTo_spec text _)
    (Grammar.upTo (depthBound text.chars.length)).limit (·.lexeme == .stop) (start mode text.chars)
  obtain ⟨hlast, hlined, -⟩ := Parser.of_run hspec ⟨rfl, sound_start mode text⟩ hrun
  exact ⟨Grammar.lined_markDirectives hlined, fun span hspan => hlast.comments span (List.mem_reverse.mp hspan)⟩

theorem lined_of_parse? {mode : Mode} {program : Program} (h : parse? mode text.chars = some program) :
    Lined text program.body :=
  (found_of_parse? h).1

end Program

end Relink.Script
