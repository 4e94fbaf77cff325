import Relink.Proofs.Exports
import Relink.Proofs.Imports

/-!
# The bindings of a converted module

The text in the place of an import or export requires a module, declares constants and defines properties of
`exports`. The constants are numbered for the required modules, and have the names of the program for what is imported.

* `Piece` — what is written in the place of a statement; `map_pieceEdit` — the text of a converted module in pieces.
* `Constant` — what is declared; `declaredFrom` — the constants of a module.
* `perm_explicit_iff` — the properties that are defined are the explicit exports.
* `count_eq_one_iff` — every imported name is declared once.
* `bindings_iff` — when both hold of a converted module.
-/

namespace Relink.Script.CommonJs

/-! ## Constants -/

/-- What is read of a required module: the whole of it, what it has under a name, or what it has as its default, which
is the whole of it when it is no ES module. -/
inductive Access where
  | whole
  | member (name : String)
  | fallback
  deriving DecidableEq, Repr

def Access.ofImported : Imported → Access
  | .default => .fallback
  | .whole => .whole
  | .named name => .member name

/-- The expression that reads it from the constant for the module. -/
def Access.text (module : String) : Access → String
  | .whole => module
  | .member name => memberText module name
  | .fallback => defaultText module

/-- A constant in the text of a converted module. -/
inductive Constant where
  /-- The required module of a number. -/
  | module (number : Nat) (source : String)
  /-- A name for what is read of the required module of a number. -/
  | imported (name : String) (number : Nat) (access : Access)
  deriving DecidableEq, Repr

namespace Constant

def name : Constant → String
  | .module number _ => moduleName number
  | .imported name _ _ => name

/-- The declarator of a constant. -/
def text : Constant → String
  | .module number source => moduleName number ++ " = " ++ requireText source
  | .imported name number access => name ++ " = " ++ access.text (moduleName number)

end Constant

/-! ## Pieces of the text -/

/-- What is written in the place of a statement. -/
inductive Piece where
  | call (source : String)
  | constants (cs : List Constant)
  | blank
  | definition (d : Definition)
  | semicolon
  deriving DecidableEq, Repr

def Piece.text : Piece → String
  | .call source => requireText source ++ ";"
  | .constants cs => "const " ++ ", ".intercalate (cs.map Constant.text) ++ ";"
  | .blank => " "
  | .definition d => d.text
  | .semicolon => ";"

/-- The constants that are declared in a piece. -/
def Piece.declared : Piece → List Constant
  | .constants cs => cs
  | _ => []

/-- The definitions in a piece. -/
def Piece.defined : Piece → List Definition
  | .definition d => [d]
  | _ => []

/-- The constants for the names that an import declares. -/
def importConstants (number : Nat) (bindings : List ImportBinding) : List Constant :=
  bindings.map fun b => .imported b.local_ number (.ofImported b.imported)

/-- The parts of a statement that are replaced, behind a number of constants, and what is written in their place. -/
def pieces (number : Nat) : Node → List (Span × List Piece)
  | .mk (.importDeclaration [] source) span _ => [(span, [.call source])]
  | .mk (.importDeclaration bindings source) span _ =>
    [(span, [.constants [.module number source], .blank, .constants (importConstants number bindings)])]
  | .mk (.exportNamed _ _) span (declaration :: _) => [(⟨span.start, declaration.span.start⟩, [])]
  | .mk (.exportNamed bindings (some source)) span [] =>
    [(span, .constants [.module number source] ::
      bindings.map fun b => .definition (.getter b.exported number (some b.local_)))]
  | .mk (.exportNamed _ none) span [] => [(span, [])]
  | .mk .exportDefault span (value :: _) =>
    let before : Span := ⟨span.start, value.span.start⟩
    match value.kind with
    | .function (some _) | .class (some _) => [(before, [])]
    | .function none | .class none => [(before, [.definition .assignment]), (⟨span.stop, span.stop⟩, [.semicolon])]
    | _ => [(before, [.definition .assignment])]
  | .mk (.exportAll exported source) span _ =>
    [(span, [.constants [.module number source],
      .definition (exported.elim (.copy number) fun name => .getter name number none)])]
  | _ => []

/-- The replaced parts of statements, behind a number of constants. -/
def piecesFrom : Nat → List Node → List (Span × List Piece)
  | _, [] => []
  | number, n :: ns => pieces number n ++ piecesFrom (number + constants n) ns

/-- The edit that writes pieces. -/
def pieceEdit (source : List Char) (r : Span × List Piece) : Edit :=
  Edit.replace source r.1 (String.join (r.2.map Piece.text))

theorem text_module (number : Nat) (source : String) :
    (Piece.constants [.module number source]).text = moduleText number source := by
  simp only [Piece.text, List.map_cons, List.map_nil, Constant.text, moduleText, String.intercalate_singleton,
    String.append_assoc]

theorem text_importConstants (number : Nat) (bindings : List ImportBinding) :
    (importConstants number bindings).map Constant.text = bindings.map (bindingText (moduleName number)) := by
  unfold importConstants
  rw [List.map_map]
  refine List.map_congr_left ?_
  intro b _
  obtain ⟨imported, name⟩ := b
  cases imported <;> rfl

theorem text_definitions {α : Type} (f : α → Definition) (as : List α) :
    (as.map fun a => Piece.definition (f a)).map Piece.text = (as.map f).map Definition.text := by
  simp only [List.map_map, Function.comp_def, Piece.text]

/-- What becomes of a statement is its pieces. -/
theorem map_pieceEdit (source : List Char) (number : Nat) (n : Node) :
    (pieces number n).map (pieceEdit source) = (emissions number n).map (Emission.edit source) := by
  obtain ⟨kind, span, parts⟩ := n
  cases kind with
  | importDeclaration bindings from_ =>
    cases bindings with
    | nil => simp [pieces, emissions, pieceEdit, Emission.edit, Emission.text, Piece.text]
    | cons b bindings =>
      have hconstants := text_importConstants number (b :: bindings)
      simp only [pieces, emissions, pieceEdit, Emission.edit, Emission.text, List.map_cons, List.map_nil, String.join_cons,
        String.join_nil, String.append_empty, text_module]
      rw [List.map_cons] at hconstants
      rw [Piece.text, Piece.text, hconstants]
      rfl
  | exportNamed bindings from_ =>
    cases parts with
    | cons declaration ps => simp [pieces, emissions, pieceEdit, Emission.edit, Emission.text]
    | nil =>
      cases from_ with
      | none => simp [pieces, emissions, pieceEdit, Emission.edit, Emission.text]
      | some from_ =>
        simp only [pieces, emissions, pieceEdit, Emission.edit, Emission.text, List.map_cons, List.map_nil, String.join_cons,
          text_module, text_definitions]
  | exportDefault =>
    cases parts with
    | nil => rfl
    | cons value ps =>
      obtain ⟨kind, valueSpan, valueParts⟩ := value
      cases kind with
      | function name => cases name <;> simp [pieces, emissions, pieceEdit, Emission.edit, Emission.text, Piece.text]
      | «class» name => cases name <;> simp [pieces, emissions, pieceEdit, Emission.edit, Emission.text, Piece.text]
      | _ => simp [pieces, emissions, pieceEdit, Emission.edit, Emission.text, Piece.text]
  | exportAll exported from_ =>
    simp only [pieces, emissions, pieceEdit, Emission.edit, Emission.text, List.map_cons, List.map_nil, String.join_cons,
      text_module]
    rfl
  | _ => rfl

theorem map_pieceEdit_piecesFrom (source : List Char) (number : Nat) (ns : List Node) :
    (piecesFrom number ns).map (pieceEdit source) = (emissionsFrom number ns).map (Emission.edit source) := by
  induction ns generalizing number with
  | nil => rfl
  | cons n ns ih => rw [piecesFrom, emissionsFrom, List.map_append, List.map_append, map_pieceEdit, ih]

/-- The definitions in the pieces of a statement are those in what becomes of it. -/
theorem flatMap_defined (number : Nat) (n : Node) : ((pieces number n).flatMap fun r => r.2.flatMap Piece.defined) =
    (emissions number n).flatMap Emission.definitions := by
  obtain ⟨kind, span, parts⟩ := n
  cases kind with
  | importDeclaration bindings from_ => cases bindings <;> rfl
  | exportNamed bindings from_ =>
    cases parts with
    | cons declaration ps => rfl
    | nil =>
      cases from_ with
      | none => rfl
      | some from_ => simp [pieces, emissions, Piece.defined, List.flatMap_map, ← List.map_eq_flatMap]
  | exportDefault =>
    cases parts with
    | nil => rfl
    | cons value ps =>
      obtain ⟨kind, valueSpan, valueParts⟩ := value
      cases kind with
      | function name => cases name <;> rfl
      | «class» name => cases name <;> rfl
      | _ => rfl
  | _ => rfl

theorem flatMap_defined_piecesFrom (number : Nat) (ns : List Node) :
    ((piecesFrom number ns).flatMap fun r => r.2.flatMap Piece.defined) =
      (emissionsFrom number ns).flatMap Emission.definitions := by
  induction ns generalizing number with
  | nil => rfl
  | cons n ns ih => rw [piecesFrom, emissionsFrom, List.flatMap_append, List.flatMap_append, flatMap_defined, ih]

/-! ## What is declared -/

/-- The constants that are declared in the place of a statement. -/
def declared (number : Nat) (n : Node) : List Constant := (pieces number n).flatMap fun r => r.2.flatMap Piece.declared

/-- The constants that are declared in the place of statements. -/
def declaredFrom (number : Nat) (ns : List Node) : List Constant :=
  (piecesFrom number ns).flatMap fun r => r.2.flatMap Piece.declared

theorem declaredFrom_cons (number : Nat) (n : Node) (ns : List Node) :
    declaredFrom number (n :: ns) = declared number n ++ declaredFrom (number + constants n) ns := by
  unfold declaredFrom declared
  rw [piecesFrom, List.flatMap_append]

/-- The names that an import declares. -/
def importedNames : Node → List String
  | .mk (.importDeclaration bindings _) _ _ => bindings.map ImportBinding.local_
  | _ => []

theorem moduleName_injective : Function.Injective moduleName := by
  intro m n h
  have hdigits := congrArg String.toList h
  rw [toList_moduleName, toList_moduleName, List.cons.injEq, List.append_right_inj] at hdigits
  have hvalue := congrArg (fun cs => Nat.ofDigitChars 10 cs 0) hdigits.2
  simpa only [Nat.ofDigitChars_toDigits (b := 10) (by decide) (by decide)] using hvalue

/-- The names of the constants in the place of a statement: that of its required module, and those that it imports. -/
theorem names_declared (number : Nat) (n : Node) : (declared number n).map Constant.name =
    (List.range' number (constants n)).map moduleName ++ importedNames n := by
  obtain ⟨kind, span, parts⟩ := n
  cases kind with
  | importDeclaration bindings from_ =>
    cases bindings with
    | nil => rfl
    | cons b bindings =>
      simp [declared, pieces, Piece.declared, constants, importedNames, importConstants, Constant.name,
        Function.comp_def]
  | exportNamed bindings from_ =>
    cases parts with
    | cons declaration ps => cases from_ <;> rfl
    | nil =>
      cases from_ with
      | none => rfl
      | some from_ => simp [declared, pieces, Piece.declared, constants, importedNames, Constant.name, List.flatMap_map]
  | exportDefault =>
    cases parts with
    | nil => rfl
    | cons value ps =>
      obtain ⟨kind, valueSpan, valueParts⟩ := value
      cases kind with
      | function name => cases name <;> rfl
      | «class» name => cases name <;> rfl
      | _ => rfl
  | _ => rfl

/-- The names of all constants: the numbered ones for the required modules, and those that are imported. -/
theorem names_declaredFrom (number : Nat) (ns : List Node) : ((declaredFrom number ns).map Constant.name).Perm
    ((List.range' number (constantsOf ns)).map moduleName ++ ns.flatMap importedNames) := by
  induction ns generalizing number with
  | nil => exact .nil
  | cons n ns ih =>
    have hrange : List.range' number (constantsOf (n :: ns)) =
        List.range' number (constants n) ++ List.range' (number + constants n) (constantsOf ns) := by
      unfold constantsOf
      rw [List.map_cons, List.sum_cons, List.range'_append_1]
    rw [declaredFrom_cons, List.map_append, names_declared, hrange, List.map_append, List.flatMap_cons, List.append_assoc,
      List.append_assoc]
    -- the numbered names of the later statements stand behind the imported ones of the first
    refine ((ih (number + constants n)).append_left _).trans ?_ |>.append_left _
    rw [← List.append_assoc, ← List.append_assoc]
    exact List.perm_append_comm.append_right _

/-- Every imported name is declared once if and only if no name is imported twice, and none is that of a constant for
a required module. -/
theorem count_eq_one_iff (ns : List Node) :
    (∀ x ∈ ns.flatMap importedNames, ((declaredFrom 0 ns).map Constant.name).count x = 1) ↔
      (ns.flatMap importedNames).Nodup ∧ ∀ x ∈ ns.flatMap importedNames, ∀ k < constantsOf ns, x ≠ moduleName k := by
  have hperm := names_declaredFrom 0 ns
  have hcount : ∀ x, ((declaredFrom 0 ns).map Constant.name).count x =
      ((List.range' 0 (constantsOf ns)).map moduleName).count x + (ns.flatMap importedNames).count x := by
    intro x
    rw [hperm.count_eq, List.count_append]
  have hnumbered : ∀ x, ((List.range' 0 (constantsOf ns)).map moduleName).count x = 0 ↔
      ∀ k < constantsOf ns, x ≠ moduleName k := by
    intro x
    rw [List.count_eq_zero]
    simp only [List.mem_map, List.mem_range'_1, Nat.zero_le, true_and, Nat.zero_add, not_exists, not_and]
    exact forall₂_congr fun k _ => ⟨fun hne heq => hne heq.symm, fun hne heq => hne heq.symm⟩
  constructor
  · intro hone
    have hsplit : ∀ x ∈ ns.flatMap importedNames, (ns.flatMap importedNames).count x = 1 ∧
        ((List.range' 0 (constantsOf ns)).map moduleName).count x = 0 := by
      intro x hx
      have hsum := hone x hx
      have hpos := List.count_pos_iff.mpr hx
      rw [hcount] at hsum
      omega
    refine ⟨List.nodup_iff_count_eq_one.mpr fun x hx => (hsplit x hx).1, ?_⟩
    intro x hx
    exact (hnumbered x).mp (hsplit x hx).2
  · rintro ⟨hnodup, hfresh⟩ x hx
    rw [hcount, (hnumbered x).mpr (hfresh x hx), List.count_eq_one_of_mem hnodup hx]

/-! ## What is defined -/

/-- The properties that the text of a converted module defines one by one are the mark and the explicit exports, with
what they read, if and only if no binding of the module is exported as `__proto__`. -/
theorem perm_explicit_iff (body : List Node) :
    ((definitions body).flatMap Definition.properties).Perm (("__esModule", .mark) :: explicitFrom 0 body) ↔
      "__proto__" ∉ (body.flatMap ownExports).map Prod.fst := by
  have hperm := explicitFrom_perm 0 body
  rw [properties_definitions, List.perm_cons, hperm.congr_right, List.perm_append_right_iff]
  constructor
  · intro h hproto
    -- the table is shorter than the list of the bindings
    have hlength := h.length_eq
    rw [List.length_map, List.length_map, List.length_filter_eq_length_iff] at hlength
    obtain ⟨g, hg, hname⟩ := List.mem_map.mp hproto
    exact absurd hname (of_decide_eq_true (hlength g hg))
  · intro hproto
    have hall : ∀ g ∈ body.flatMap ownExports, decide (g.1 ≠ "__proto__") = true := by
      intro g hg
      rw [decide_eq_true_eq]
      rintro hname
      exact hproto (hname ▸ List.mem_map_of_mem hg)
    rw [List.filter_eq_self.mpr hall]

/-! ## Converted modules -/

theorem piecesFrom_append (number : Nat) (ns ns' : List Node) :
    piecesFrom number (ns ++ ns') = piecesFrom number ns ++ piecesFrom (number + constantsOf ns) ns' := by
  induction ns generalizing number with
  | nil => rfl
  | cons n ns ih =>
    rw [List.cons_append, piecesFrom, piecesFrom, ih, List.append_assoc, constantsOf, constantsOf, List.map_cons,
      List.sum_cons, Nat.add_assoc]

/-- In the place of an import that declares names, there are the constant for its required module, which has the number
of those in front of it, and a constant for each name, which reads this module. -/
theorem piecesFrom_import {n : Node} {bindings : List ImportBinding} {source : String}
    (hn : n.kind = .importDeclaration bindings source) (hne : bindings ≠ []) (front back : List Node) :
    piecesFrom 0 (front ++ n :: back) = piecesFrom 0 front ++
      (n.span, [.constants [.module (constantsOf front) source], .blank,
        .constants (importConstants (constantsOf front) bindings)]) :: piecesFrom (constantsOf front + 1) back := by
  obtain ⟨kind, span, parts⟩ := n
  cases hn
  cases bindings with
  | nil => exact absurd rfl hne
  | cons b bindings =>
    rw [piecesFrom_append, piecesFrom, Nat.zero_add]
    rfl

/-- The bindings of a converted module: its text is that of its pieces; in the place of an import there are the constant
for its required module, and one for each name that it imports, which reads this module. And the properties that the
text defines one by one are the mark and the explicit exports, each of which reads what it is to read, while every
imported name is declared once, if and only if no binding of the module is exported as `__proto__`, no name is imported
twice, and none is imported under the name of a constant for a required module. -/
theorem bindings_iff {source converted : String} (h : convert source = .ok (some converted)) :
    ∃ program, Program.parse? .module source.toList = some program ∧
      converted.toList = (prologueText (program.body.flatMap ownExports)).toList ++
        weave source.toList 0 ((piecesFrom 0 program.body).map (pieceEdit source.toList)) ∧
      definitions program.body = prologue (program.body.flatMap ownExports) ++
        (piecesFrom 0 program.body).flatMap (fun r => r.2.flatMap Piece.defined) ∧
      (∀ front n back bindings from_, program.body = front ++ n :: back → n.kind = .importDeclaration bindings from_ →
        bindings ≠ [] → piecesFrom 0 program.body = piecesFrom 0 front ++
          (n.span, [.constants [.module (constantsOf front) from_], .blank,
            .constants (importConstants (constantsOf front) bindings)]) :: piecesFrom (constantsOf front + 1) back) ∧
      ((explicitFrom 0 program.body).map Prod.fst).Nodup ∧
      (((definitions program.body).flatMap Definition.properties).Perm
            (("__esModule", .mark) :: explicitFrom 0 program.body) ∧
          (∀ x ∈ program.body.flatMap importedNames, ((declaredFrom 0 program.body).map Constant.name).count x = 1) ↔
        "__proto__" ∉ (program.body.flatMap ownExports).map Prod.fst ∧
          (program.body.flatMap importedNames).Nodup ∧
          ∀ x ∈ program.body.flatMap importedNames, ∀ k < constantsOf program.body, x ≠ moduleName k) := by
  obtain ⟨program, hprogram, htext⟩ := convert_eq_ok h
  refine ⟨program, hprogram, ?_, ?_, ?_, nodup_explicitFrom hprogram 0, ?_⟩
  · rw [map_pieceEdit_piecesFrom]
    exact htext
  · rw [flatMap_defined_piecesFrom]
    rfl
  · intro front n back bindings from_ hbody hn hne
    rw [hbody]
    exact piecesFrom_import hn hne front back
  · rw [perm_explicit_iff, count_eq_one_iff]

/-- A module with imports and exports of all kinds. -/
def allForms : String :=
  "import d, \x7b a as b, \"x-y\" as c \x7d from \"./a\";\nimport * as e from \"./b\";\nexport \x7b b as \"q r\" \x7d;\nexport const v = 1;\nexport \x7b u \x7d from \"./c\";\nexport * from \"./e\";\n"

set_option maxRecDepth 2000 in
/-- A converted module the bindings of which are complete. -/
theorem bindings_of_allForms : ∃ (converted : String) (program : Program),
    convert allForms = .ok (some converted) ∧ Program.parse? .module allForms.toList = some program ∧
      ((definitions program.body).flatMap Definition.properties).Perm
        (("__esModule", .mark) :: explicitFrom 0 program.body) ∧
      (explicitFrom 0 program.body).lookup "q r" = some (.own "b") ∧
      program.body.flatMap importedNames = ["d", "b", "c", "e"] ∧
      ∀ x ∈ program.body.flatMap importedNames, ((declaredFrom 0 program.body).map Constant.name).count x = 1 := by
  obtain ⟨converted, program, hconvert, hprogram, ⟨hproto, hnodup, hfresh⟩, hlookup, hnames⟩ :=
    @exists_converted_of_check allForms (fun _ program =>
      ("__proto__" ∉ (program.body.flatMap ownExports).map Prod.fst ∧
        (program.body.flatMap importedNames).Nodup ∧
        ∀ x ∈ program.body.flatMap importedNames, ∀ k < constantsOf program.body, x ≠ moduleName k) ∧
      (explicitFrom 0 program.body).lookup "q r" = some (.own "b") ∧
      program.body.flatMap importedNames = ["d", "b", "c", "e"]) _
      ⟨_, String.toList_ofList, by decide +kernel⟩
  obtain ⟨program', hprogram', -, -, -, -, hiff⟩ := bindings_iff hconvert
  obtain rfl : program = program' := Option.some_inj.mp (hprogram.symm.trans hprogram')
  obtain ⟨hperm, hone⟩ := hiff.mpr ⟨hproto, hnodup, hfresh⟩
  exact ⟨converted, program, hconvert, hprogram, hperm, hlookup, hnames, hone⟩

/-- A module that imports under the name of a constant. -/
def numberedImport : String := "import \x7b a as __import_0 \x7d from \"d\";\n"

/-- A name can be declared twice: for the required module, and for what is imported. -/
theorem exists_declared_twice : ∃ (converted : String) (program : Program),
    convert numberedImport = .ok (some converted) ∧ Program.parse? .module numberedImport.toList = some program ∧
      "__import_0" ∈ program.body.flatMap importedNames ∧
      ((declaredFrom 0 program.body).map Constant.name).count "__import_0" = 2 := by
  exact @exists_converted_of_check numberedImport (fun _ program =>
    "__import_0" ∈ program.body.flatMap importedNames ∧
      ((declaredFrom 0 program.body).map Constant.name).count "__import_0" = 2) _
    ⟨_, String.toList_ofList, by decide +kernel⟩

end Relink.Script.CommonJs
