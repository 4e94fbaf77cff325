import Relink.Script.Summary
import Relink.Transform.Step

/-!
# The preamble of a compiled script

A compiler puts two statements in front of a script: one says that a compiler wrote it, the other one sets its exports.
The first statement that looks like the one or the other is taken for it, and more statements look like them than those
that a compiler writes.

* `ComesFirst` — the first statement of a body whose expression has a property.
* `marker_iff` — the statement that is taken for the marker, and when it defines `__esModule`.
* `voidChain_iff` — the statement that is taken for the void chain, and when it only sets exports.
-/

namespace Relink.Script

/-! ## The first statement of a kind -/

/-- The expression of a statement has a property, and no expression of a statement in front of it has this property. -/
def ComesFirst (p : Node → Prop) (body : List Node) (span : Span) (e : Node) : Prop :=
  ∃ front back, body = front ++ .mk .expressionStatement span [e] :: back ∧ p e ∧
    ∀ span' e', .mk .expressionStatement span' [e'] ∈ front → ¬p e'

/-- The expressions of a body that are statements. -/
def expressions (body : List Node) : List Node :=
  body.filterMap fun
    | .mk .expressionStatement _ [e] => some e
    | _ => none

theorem ComesFirst.prop {p : Node → Prop} {body : List Node} {span : Span} {e : Node} (h : ComesFirst p body span e) :
    p e := by
  obtain ⟨-, -, -, he, -⟩ := h
  exact he

theorem ComesFirst.mem_expressions {p : Node → Prop} {body : List Node} {span : Span} {e : Node}
    (h : ComesFirst p body span e) : e ∈ expressions body := by
  obtain ⟨front, back, rfl, -, -⟩ := h
  exact List.mem_filterMap.mpr ⟨_, List.mem_append_right _ List.mem_cons_self, rfl⟩

/-- The span of a statement whose expression has a property. -/
def spanOf? (p : Node → Bool) : Node → Option Span
  | .mk .expressionStatement span [e] => if p e then some span else none
  | _ => none

section First

variable {p : Node → Bool} {body : List Node} {n : Node} {span : Span}

theorem spanOf?_eq_some_iff : spanOf? p n = some span ↔ ∃ e, n = .mk .expressionStatement span [e] ∧ p e := by
  fun_cases spanOf? p n with
  | case1 span' e he =>
    constructor
    · rintro ⟨⟩
      exact ⟨e, rfl, he⟩
    · rintro ⟨_, ⟨⟩, -⟩
      rfl
  | case2 span' e he => simp [he]
  | case3 n hn =>
    simp only [false_iff, not_exists, not_and, reduceCtorEq]
    intro e he
    exact absurd he (hn span e)

theorem findSome?_spanOf?_iff : body.findSome? (spanOf? p) = some span ↔ ∃ e, ComesFirst (p ·) body span e := by
  rw [List.findSome?_eq_some_iff]
  constructor
  · rintro ⟨front, n, back, hbody, hn, hfront⟩
    obtain ⟨e, rfl, he⟩ := spanOf?_eq_some_iff.mp hn
    refine ⟨e, front, back, hbody, he, ?_⟩
    intro span' e' hmem he'
    have hsome : spanOf? p (.mk .expressionStatement span' [e']) = some span' :=
      spanOf?_eq_some_iff.mpr ⟨e', rfl, he'⟩
    rw [hfront _ hmem] at hsome
    cases hsome
  · rintro ⟨e, front, back, hbody, he, hfront⟩
    refine ⟨front, _, back, hbody, spanOf?_eq_some_iff.mpr ⟨e, rfl, he⟩, ?_⟩
    intro n hn
    rw [Option.eq_none_iff_forall_ne_some]
    intro span' hsome
    obtain ⟨e', rfl, he'⟩ := spanOf?_eq_some_iff.mp hsome
    exact hfront span' e' hn he'

end First

/-- If the first expression with a property has a stronger one, it is the first one with that too. -/
theorem comesFirst_iff {p : Node → Bool} {q : Node → Prop} {body : List Node} (hpq : ∀ e, q e → p e)
    (hq : ∀ span e, ComesFirst (p ·) body span e → q e) (span : Span) (e : Node) :
    ComesFirst (p ·) body span e ↔ ComesFirst q body span e := by
  constructor
  · rintro ⟨front, back, hbody, he, hfront⟩
    exact ⟨front, back, hbody, hq span e ⟨front, back, hbody, he, hfront⟩,
      fun span' e' hmem he' => hfront span' e' hmem (hpq e' he')⟩
  · rintro ⟨front, back, hbody, he, hfront⟩
    refine ⟨front, back, hbody, hpq e he, ?_⟩
    intro span' e' hmem he'
    -- The first such expression of the front is the first one of the body.
    have hsome : (front.findSome? (spanOf? p)).isSome := by
      rw [List.findSome?_isSome_iff]
      exact ⟨_, hmem, by rw [spanOf?_eq_some_iff.mpr ⟨e', rfl, he'⟩]; rfl⟩
    obtain ⟨span₁, hfirst⟩ := Option.isSome_iff_exists.mp hsome
    obtain ⟨e₁, front₁, back₁, hfront₁, he₁, hless⟩ := findSome?_spanOf?_iff.mp hfirst
    have hbody₁ : body = front₁ ++ .mk .expressionStatement span₁ [e₁] ::
        (back₁ ++ .mk .expressionStatement span [e] :: back) := by
      rw [hbody, hfront₁, List.append_assoc, List.cons_append]
    refine hfront span₁ e₁ ?_ (hq span₁ e₁ ⟨front₁, _, hbody₁, he₁, hless⟩)
    rw [hfront₁]
    exact List.mem_append_right _ List.mem_cons_self

/-! ## Looks -/

namespace Node

/-- A call with three arguments whose second one is the string `__esModule`: the look of the marker. -/
def LooksMarked (e : Node) : Prop := ∃ span callee target stringSpan parts value,
  e = .mk .call span [callee, target, .mk (.string "__esModule") stringSpan parts, value]

/-- A call `Object.defineProperty(exports, "__esModule", …)`. -/
def DefinesMarker (e : Node) : Prop :=
  ∃ span calleeSpan objectSpan objectParts targetSpan targetParts stringSpan stringParts value,
    e = .mk .call span [.mk (.member "defineProperty") calleeSpan [.mk (.identifier "Object") objectSpan objectParts],
      .mk (.identifier "exports") targetSpan targetParts, .mk (.string "__esModule") stringSpan stringParts, value]

theorem isMarker_iff {e : Node} : e.isMarker ↔ e.LooksMarked := by
  fun_cases isMarker e with
  | case1 span callee target value stringSpan parts e =>
    simp [LooksMarked]
  | case2 e he =>
    simp only [Bool.false_eq_true, false_iff]
    rintro ⟨span, callee, target, stringSpan, parts, value, rfl⟩
    exact he _ _ _ _ _ _ _ rfl

/-- Whether an expression defines `__esModule`. -/
def definesMarker : Node → Bool
  | .mk .call _ [.mk (.member method) _ [object], target, .mk (.string name) _ _, _] =>
    method == "defineProperty" && object.isIdentifier "Object" && target.isIdentifier "exports" && name == "__esModule"
  | _ => false

theorem isIdentifier_iff {name : String} {e : Node} :
    e.isIdentifier name ↔ ∃ span parts, e = .mk (.identifier name) span parts := by
  obtain ⟨k, span, parts⟩ := e
  simp [isIdentifier]

theorem definesMarker_iff {e : Node} : e.definesMarker ↔ e.DefinesMarker := by
  fun_cases definesMarker e with
  | case1 span method calleeSpan object target name stringSpan stringParts value =>
    simp only [Bool.and_eq_true, beq_iff_eq, isIdentifier_iff]
    constructor
    · rintro ⟨⟨⟨rfl, objectSpan, objectParts, rfl⟩, targetSpan, targetParts, rfl⟩, rfl⟩
      exact ⟨_, _, _, _, _, _, _, _, _, rfl⟩
    · rintro ⟨_, _, _, _, _, _, _, _, _, ⟨⟩⟩
      exact ⟨⟨⟨rfl, _, _, rfl⟩, _, _, rfl⟩, rfl⟩
  | case2 e he =>
    simp only [Bool.false_eq_true, false_iff]
    rintro ⟨_, _, _, _, _, _, _, _, _, rfl⟩
    exact he _ _ _ _ _ _ _ _ _ rfl

instance : DecidablePred DefinesMarker := fun _ => decidable_of_iff _ definesMarker_iff

theorem DefinesMarker.looksMarked {e : Node} (h : e.DefinesMarker) : e.LooksMarked := by
  obtain ⟨span, calleeSpan, objectSpan, objectParts, targetSpan, targetParts, stringSpan, stringParts, value, rfl⟩ := h
  exact ⟨_, _, _, _, _, _, rfl⟩

/-- A member of `exports`, possibly in parentheses. -/
inductive IsExport : Node → Prop
  | member (name : String) (span objectSpan : Span) (parts : List Node) :
    IsExport (.mk (.member name) span [.mk (.identifier "exports") objectSpan parts])
  | paren (span : Span) (e : Node) : IsExport e → IsExport (.mk .paren span [e])

/-- Assignments to members of `exports`, one in the other, with their operators and the value at the end. -/
inductive Assigns : List Punct → Node → Node → Prop
  | value (e : Node) : Assigns [] e e
  | assign (op : Punct) (span : Span) (target e value : Node) (ops : List Punct) :
    target.IsExport → Assigns ops value e → Assigns (op :: ops) value (.mk (.assign op) span [target, e])

/-- Any number of assignments to exports, with any operators, and the operator `void` before anything: the look of the
void chain. -/
def LooksVoid (e : Node) : Prop := ∃ ops span operands, Assigns ops (.mk (.unary .void) span operands) e

/-- A literal value. -/
def IsLiteral (e : Node) : Prop := e.kind = .literal ∨ ∃ value, e.kind = .string value

/-- `exports.a = exports.b = void 0`: one or more exports are set to `void` before a literal. -/
def SetsExports (e : Node) : Prop := ∃ ops span operand, Assigns ops (.mk (.unary .void) span [operand]) e ∧
  ops ≠ [] ∧ (∀ op ∈ ops, op = .assign) ∧ operand.IsLiteral

theorem SetsExports.looksVoid {e : Node} (h : e.SetsExports) : e.LooksVoid := by
  obtain ⟨ops, span, operand, hassigns, -⟩ := h
  exact ⟨ops, span, [operand], hassigns⟩

theorem isExportsMember_iff {e : Node} : e.isExportsMember ↔ e.IsExport := by
  fun_induction isExportsMember e with
  | case1 name span object =>
    obtain ⟨k, objectSpan, parts⟩ := object
    rw [isIdentifier, kind_mk, beq_iff_eq]
    constructor
    · rintro rfl
      exact .member _ _ _ _
    · rintro ⟨⟩
      rfl
  | case2 span e ih =>
    rw [ih]
    constructor
    · exact .paren span e
    · rintro (_ | ⟨_, _, he⟩)
      exact he
  | case3 e hmember hparen =>
    simp only [Bool.false_eq_true, false_iff]
    rintro (_ | _)
    · exact hmember _ _ _ rfl
    · exact hparen _ _ rfl

theorem isVoidChain_iff {e : Node} : e.isVoidChain ↔ e.LooksVoid := by
  fun_induction isVoidChain e with
  | case1 op span target value ih =>
    rw [Bool.and_eq_true, isExportsMember_iff, ih]
    constructor
    · rintro ⟨htarget, ops, voidSpan, operands, hvalue⟩
      exact ⟨op :: ops, voidSpan, operands, .assign op span target value _ ops htarget hvalue⟩
    · rintro ⟨_, voidSpan, operands, _ | ⟨_, _, _, _, _, ops, htarget, hvalue⟩⟩
      exact ⟨htarget, ops, voidSpan, operands, hvalue⟩
  | case2 op span operands =>
    rw [beq_iff_eq]
    constructor
    · rintro rfl
      exact ⟨[], span, operands, .value _⟩
    · rintro ⟨_, _, _, _ | _⟩
      rfl
  | case3 e hassign hvoid =>
    simp only [Bool.false_eq_true, false_iff]
    rintro ⟨_, _, _, _ | _⟩
    · exact hvoid _ _ _ rfl
    · exact hassign _ _ _ _ rfl

/-- What is taken for the void chain is never taken for the marker. -/
theorem isVoidChain_of_isMarker {e : Node} (h : e.isMarker) : e.isVoidChain = false := by
  obtain ⟨span, callee, target, stringSpan, parts, value, rfl⟩ := isMarker_iff.mp h
  rfl

/-- The assignments of an expression and the value at their end are known from it. -/
theorem Assigns.eq {ops ops' : List Punct} {span span' : Span} {operands operands' : List Node} {e : Node}
    (h : Assigns ops (.mk (.unary .void) span operands) e) (h' : Assigns ops' (.mk (.unary .void) span' operands') e) :
    ops = ops' ∧ operands = operands' := by
  generalize hv : Node.mk (.unary .void) span operands = v at h
  generalize hv' : Node.mk (.unary .void) span' operands' = v' at h'
  induction h generalizing ops' with
  | value e =>
    subst hv
    cases h'
    cases hv'
    exact ⟨rfl, rfl⟩
  | assign op s target e v ops htarget hvalue ih =>
    cases h' with
    | value => cases hv'
    | assign _ _ _ _ _ ops' _ hvalue' =>
      obtain ⟨rfl, rfl⟩ := ih hv hvalue'
      exact ⟨rfl, rfl⟩

end Node

/-! ## Summaries -/

namespace Summary

theorem marker_addStatement (s : Summary) (n : Node) :
    (s.addStatement n).marker = s.marker.or (spanOf? Node.isMarker n) := by
  unfold addStatement
  split
  next span e =>
    rw [spanOf?]
    cases hs : s.marker <;> cases he : e.isMarker <;> simp <;> grind
  next hn =>
    rw [spanOf?]
    · exact (Option.or_none).symm
    · exact hn

theorem voidChain_addStatement (s : Summary) (n : Node) :
    (s.addStatement n).voidChain = s.voidChain.or (spanOf? Node.isVoidChain n) := by
  unfold addStatement
  split
  next span e =>
    rw [spanOf?]
    split
    next hmarker =>
      rw [Bool.and_eq_true] at hmarker
      rw [Node.isVoidChain_of_isMarker hmarker.2]
      exact (Option.or_none).symm
    next => cases hs : s.voidChain <;> cases he : e.isVoidChain <;> simp <;> grind
  next hn =>
    rw [spanOf?]
    · exact (Option.or_none).symm
    · exact hn

theorem marker_foldl (body : List Node) (s : Summary) :
    (body.foldl addStatement s).marker = s.marker.or (body.findSome? (spanOf? Node.isMarker)) := by
  induction body generalizing s with
  | nil => exact (Option.or_none).symm
  | cons n body ih =>
    rw [List.foldl_cons, ih, marker_addStatement, Option.or_assoc, List.findSome?_cons]
    cases spanOf? Node.isMarker n <;> rfl

theorem voidChain_foldl (body : List Node) (s : Summary) :
    (body.foldl addStatement s).voidChain = s.voidChain.or (body.findSome? (spanOf? Node.isVoidChain)) := by
  induction body generalizing s with
  | nil => exact (Option.or_none).symm
  | cons n body ih =>
    rw [List.foldl_cons, ih, voidChain_addStatement, Option.or_assoc, List.findSome?_cons]
    cases spanOf? Node.isVoidChain n <;> rfl

theorem marker_ofProgram (program : Program) :
    (ofProgram program).marker = program.body.findSome? (spanOf? Node.isMarker) := by
  rw [ofProgram, marker_foldl, Option.none_or]

theorem voidChain_ofProgram (program : Program) :
    (ofProgram program).voidChain = program.body.findSome? (spanOf? Node.isVoidChain) := by
  rw [ofProgram, voidChain_foldl, Option.none_or]

/-- A script for which something can be checked once the characters of its text are known. -/
theorem exists_of_check {source : String} {p : List Char → Program → Bool}
    (h : ∃ cs, source.toList = cs ∧ (Program.parse? .script cs).any (p cs) = true) :
    ∃ program, parse? source = some (ofProgram program) ∧ Program.parse? .script source.toList = some program ∧
      p source.toList program = true := by
  obtain ⟨program, hprogram, hp⟩ := Program.exists_of_check h
  exact ⟨program, Option.map_eq_some_iff.mpr ⟨program, hprogram, rfl⟩, hprogram, hp⟩

/-- The marker is the first statement that looks like one. It is the first one that defines `__esModule` if the first
one that looks like it does so, and only then. -/
theorem marker_iff {source : String} {s : Summary} (h : parse? source = some s) :
    ∃ program, Program.parse? .script source.toList = some program ∧
      (∀ span, s.marker = some span ↔ ∃ e, ComesFirst Node.LooksMarked program.body span e) ∧
      ((∀ span e, ComesFirst Node.LooksMarked program.body span e ↔ ComesFirst Node.DefinesMarker program.body span e) ↔
        ∀ span e, ComesFirst Node.LooksMarked program.body span e → e.DefinesMarker) := by
  obtain ⟨program, hprogram, rfl⟩ := Option.map_eq_some_iff.mp h
  have hlooks : (fun e : Node => e.isMarker = true) = Node.LooksMarked := funext fun e => propext Node.isMarker_iff
  refine ⟨program, hprogram, ?_, ?_, ?_⟩
  · intro span
    rw [marker_ofProgram, findSome?_spanOf?_iff, hlooks]
  · intro hsame span e he
    obtain ⟨-, -, -, hdefines, -⟩ := (hsame span e).mp he
    exact hdefines
  · intro hfirst span e
    rw [← hlooks] at hfirst ⊢
    exact comesFirst_iff (fun e he => Node.isMarker_iff.mpr he.looksMarked) hfirst span e

/-- A module as a compiler writes it. -/
def compiled : String :=
  "\"use strict\";\nObject.defineProperty(exports, \"__esModule\", \x7b value: true \x7d);\nexports.b = exports.a = void 0;\n"

/-- In a module as a compiler writes it, the marker is the first definition of `__esModule`. -/
theorem marker_of_compiled : ∃ s program, parse? compiled = some s ∧
    Program.parse? .script compiled.toList = some program ∧
      ∀ span, s.marker = some span ↔ ∃ e, ComesFirst Node.DefinesMarker program.body span e := by
  have hcheck : ∃ cs, compiled.toList = cs ∧ ((Program.parse? .script cs).any fun program =>
      (expressions program.body).all fun e => !e.isMarker || e.definesMarker) = true :=
    ⟨_, String.toList_ofList, by decide +kernel⟩
  obtain ⟨program, hs, hprogram, hcheck⟩ := exists_of_check hcheck
  rw [List.all_eq_true] at hcheck
  obtain ⟨program', hprogram', hmarker, hiff⟩ := marker_iff hs
  obtain rfl : program = program' := Option.some_inj.mp (hprogram.symm.trans hprogram')
  have hsame := hiff.mpr fun span e he => by
    have hdefines := hcheck e he.mem_expressions
    rw [Node.isMarker_iff.mpr he.prop, Bool.not_true, Bool.false_or] at hdefines
    exact Node.definesMarker_iff.mp hdefines
  refine ⟨_, program, hs, hprogram, ?_⟩
  intro span
  rw [hmarker]
  exact exists_congr fun e => hsame span e

/-- A call that looks like the marker. -/
def markedCall : String := "f(a, \"__esModule\", 1);\n"

/-- A call of another function is taken for the marker, and the call of the loader takes its place. -/
theorem exists_call_marked : ∃ s program, parse? markedCall = some s ∧
    Program.parse? .script markedCall.toList = some program ∧
      (∀ e ∈ expressions program.body, ¬e.DefinesMarker) ∧ s.marker.isSome ∧
      applyEdits markedCall (Step.callMarker.scriptEdits markedCall.toList ⟨[]⟩ s) = "__esModule();\n" := by
  have hcheck : ∃ cs, markedCall.toList = cs ∧ ((Program.parse? .script cs).any fun program : Program =>
      decide ((∀ e ∈ expressions program.body, ¬e.DefinesMarker) ∧ (ofProgram program).marker.isSome ∧
        applyEdits markedCall (Step.callMarker.scriptEdits cs ⟨[]⟩ (ofProgram program)) = "__esModule();\n")) = true :=
    ⟨_, String.toList_ofList, by decide +kernel⟩
  obtain ⟨program, hs, hprogram, hcheck⟩ := exists_of_check hcheck
  exact ⟨_, program, hs, hprogram, of_decide_eq_true hcheck⟩

/-- The void chain is the first statement that looks like one. It is the first one that sets exports if the first one
that looks like it has one assignment at least, only plain ones, and a literal behind `void`, and only then. -/
theorem voidChain_iff {source : String} {s : Summary} (h : parse? source = some s) :
    ∃ program, Program.parse? .script source.toList = some program ∧
      (∀ span, s.voidChain = some span ↔ ∃ e, ComesFirst Node.LooksVoid program.body span e) ∧
      ((∀ span e, ComesFirst Node.LooksVoid program.body span e ↔ ComesFirst Node.SetsExports program.body span e) ↔
        ∀ span e ops voidSpan operands, ComesFirst Node.LooksVoid program.body span e →
          Node.Assigns ops (.mk (.unary .void) voidSpan operands) e →
          ops ≠ [] ∧ (∀ op ∈ ops, op = .assign) ∧ ∃ operand, operands = [operand] ∧ operand.IsLiteral) := by
  obtain ⟨program, hprogram, rfl⟩ := Option.map_eq_some_iff.mp h
  have hlooks : (fun e : Node => e.isVoidChain = true) = Node.LooksVoid := funext fun e => propext Node.isVoidChain_iff
  refine ⟨program, hprogram, ?_, ?_, ?_⟩
  · intro span
    rw [voidChain_ofProgram, findSome?_spanOf?_iff, hlooks]
  · intro hsame span e ops voidSpan operands he hassigns
    obtain ⟨-, -, -, ⟨ops', span', operand, hassigns', hops, hplain, hliteral⟩, -⟩ := (hsame span e).mp he
    obtain ⟨rfl, rfl⟩ := hassigns.eq hassigns'
    exact ⟨hops, hplain, operand, rfl, hliteral⟩
  · intro hfirst span e
    rw [← hlooks] at hfirst ⊢
    refine comesFirst_iff (fun e he => Node.isVoidChain_iff.mpr he.looksVoid) ?_ span e
    intro span e he
    have hlook := he
    obtain ⟨-, -, -, hvoid, -⟩ := hlook
    obtain ⟨ops, voidSpan, operands, hassigns⟩ := Node.isVoidChain_iff.mp hvoid
    obtain ⟨hops, hplain, operand, rfl, hliteral⟩ := hfirst span e ops voidSpan operands he hassigns
    exact ⟨ops, voidSpan, operand, hassigns, hops, hplain, hliteral⟩

/-- In a module as a compiler writes it, the void chain is the first statement that sets exports. -/
theorem voidChain_of_compiled : ∃ s program, parse? compiled = some s ∧
    Program.parse? .script compiled.toList = some program ∧
      ∀ span, s.voidChain = some span ↔ ∃ e, ComesFirst Node.SetsExports program.body span e := by
  have hcheck : ∃ cs, compiled.toList = cs ∧ ((Program.parse? .script cs).any fun program =>
      (expressions program.body).all fun e => !e.isVoidChain || (e.kind == .assign .assign &&
        e.parts[1]?.any fun v => v.kind == .assign .assign &&
          v.parts[1]?.any fun w => w.kind == .unary .void && w.parts.map Node.kind == [.literal])) = true :=
    ⟨_, String.toList_ofList, by decide +kernel⟩
  obtain ⟨program, hs, hprogram, hcheck⟩ := exists_of_check hcheck
  rw [List.all_eq_true] at hcheck
  obtain ⟨program', hprogram', hvoid, hiff⟩ := voidChain_iff hs
  obtain rfl : program = program' := Option.some_inj.mp (hprogram.symm.trans hprogram')
  have hsame := hiff.mpr fun span e ops voidSpan operands he hassigns => by
    have hshape := hcheck e he.mem_expressions
    rw [Node.isVoidChain_iff.mpr he.prop, Bool.not_true, Bool.false_or] at hshape
    obtain _ | ⟨_, _, _, _, _, _, -, _ | ⟨_, _, _, _, _, _, -, _ | _⟩⟩ := hassigns
    · simp at hshape
    · simp at hshape
    · obtain ⟨rfl, rfl, operand, rfl, hliteral⟩ : _ = Punct.assign ∧ _ = Punct.assign ∧
          ∃ operand, operands = [operand] ∧ operand.kind = .literal := by
        simpa using hshape
      exact ⟨List.cons_ne_nil _ _, by simp, operand, rfl, .inl hliteral⟩
    · simp at hshape
  refine ⟨_, program, hs, hprogram, ?_⟩
  intro span
  rw [hvoid]
  exact exists_congr fun e => hsame span e

/-- A call whose result is dropped. -/
def voidCall : String := "void f();\n"

/-- A call whose result is dropped is taken for the void chain, and vanishes. -/
theorem exists_call_dropped : ∃ s program, parse? voidCall = some s ∧
    Program.parse? .script voidCall.toList = some program ∧
      (∀ e ∈ expressions program.body, ¬e.SetsExports ∧ e.any fun n => n.kind == .call) ∧ s.voidChain.isSome ∧
      applyEdits voidCall (Step.dropVoid.scriptEdits voidCall.toList ⟨[]⟩ s) = "\n" := by
  have hcheck : ∃ cs, voidCall.toList = cs ∧ ((Program.parse? .script cs).any fun program : Program =>
      decide ((∀ e ∈ expressions program.body, e.kind = .unary .void ∧ e.any fun n => n.kind == .call) ∧
        (ofProgram program).voidChain.isSome ∧
        applyEdits voidCall (Step.dropVoid.scriptEdits cs ⟨[]⟩ (ofProgram program)) = "\n")) = true :=
    ⟨_, String.toList_ofList, by decide +kernel⟩
  obtain ⟨program, hs, hprogram, hcheck⟩ := exists_of_check hcheck
  obtain ⟨hshape, hvoid⟩ := of_decide_eq_true hcheck
  refine ⟨_, program, hs, hprogram, ?_, hvoid⟩
  intro e he
  obtain ⟨hkind, hcall⟩ := hshape e he
  refine ⟨?_, hcall⟩
  rintro ⟨ops, span, operand, _ | _, hops, -⟩
  · exact hops rfl
  · cases hkind

end Summary

end Relink.Script
