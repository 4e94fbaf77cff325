import Relink.Proofs.Bindings
import Relink.Proofs.Mentions

/-!
# The names that a conversion introduces

The constants for the required modules of a converted module are numbered from zero. Nothing looks at the names that
the module has itself, so a module that writes a numbered name can meet it again as that of a constant.

* `introduced` — the names of the constants for the required modules, as they stand in the text.
* `introduced_eq` — these are the numbered names, in order.
* `fresh_iff` — when the module mentions none of them, and what then holds of the constants.
-/

namespace Relink.Script.CommonJs

/-- The name that a constant introduces: that of a required module is not one of the program. -/
def Constant.introduced? : Constant → Option String
  | .module number _ => some (moduleName number)
  | .imported .. => none

/-- The names that the text of a converted module introduces for required modules. -/
def introduced (ns : List Node) : List String := (declaredFrom 0 ns).filterMap Constant.introduced?

theorem filterMap_introduced_importConstants (number : Nat) (bindings : List ImportBinding) :
    (importConstants number bindings).filterMap Constant.introduced? = [] := by
  refine List.filterMap_eq_nil_iff.mpr ?_
  intro c hc
  obtain ⟨b, -, rfl⟩ := List.mem_map.mp hc
  rfl

/-- A statement introduces the numbered names of the modules that it requires as constants. -/
theorem filterMap_introduced_declared (number : Nat) (n : Node) :
    (declared number n).filterMap Constant.introduced? = (List.range' number (constants n)).map moduleName := by
  obtain ⟨kind, span, parts⟩ := n
  cases kind with
  | importDeclaration bindings from_ =>
    cases bindings with
    | nil => rfl
    | cons b bindings =>
      have himported := filterMap_introduced_importConstants number (b :: bindings)
      simp only [declared, pieces, constants, Piece.declared, List.flatMap_cons, List.flatMap_nil, List.append_nil,
        List.nil_append, List.filterMap_append, himported]
      rfl
  | exportNamed bindings from_ =>
    cases parts with
    | cons declaration ps => cases from_ <;> rfl
    | nil =>
      cases from_ with
      | none => rfl
      | some from_ => simp [declared, pieces, Piece.declared, constants, Constant.introduced?, List.flatMap_map]
  | exportDefault =>
    cases parts with
    | nil => rfl
    | cons value ps =>
      obtain ⟨kind, valueSpan, valueParts⟩ := value
      cases kind with
      | function name => cases name <;> rfl
      | «class» name => cases name <;> rfl
      | _ => rfl
  | _ => rfl

theorem filterMap_introduced_declaredFrom (number : Nat) (ns : List Node) :
    (declaredFrom number ns).filterMap Constant.introduced? =
      (List.range' number (constantsOf ns)).map moduleName := by
  induction ns generalizing number with
  | nil => rfl
  | cons n ns ih =>
    have hrange : List.range' number (constantsOf (n :: ns)) =
        List.range' number (constants n) ++ List.range' (number + constants n) (constantsOf ns) := by
      unfold constantsOf
      rw [List.map_cons, List.sum_cons, List.range'_append_1]
    rw [declaredFrom_cons, List.filterMap_append, filterMap_introduced_declared, ih, hrange, List.map_append]

/-- The introduced names are the numbered ones, from zero on. -/
theorem introduced_eq (ns : List Node) : introduced ns = (List.range (constantsOf ns)).map moduleName := by
  rw [introduced, filterMap_introduced_declaredFrom, List.range_eq_range']

theorem mem_introduced {ns : List Node} {x : String} : x ∈ introduced ns ↔ ∃ k < constantsOf ns, moduleName k = x := by
  rw [introduced_eq, List.mem_map]
  simp only [List.mem_range]

theorem nodup_introduced (ns : List Node) : (introduced ns).Nodup := by
  rw [introduced_eq]
  exact List.nodup_range.map moduleName_injective

/-- An import mentions the names that it declares. -/
theorem mentions_of_importedNames {n : Node} : ∀ x ∈ importedNames n, n.Mentions x := by
  intro x hx
  obtain ⟨kind, span, parts⟩ := n
  cases kind with
  | importDeclaration bindings from_ => exact Node.mentions_of_mem_names hx
  | _ => cases hx

/-- A name that is introduced, and that the module does not mention, is declared by one constant alone. -/
theorem count_introduced {ns : List Node} {x : String} (hx : x ∈ introduced ns) (hfresh : ∀ n ∈ ns, ¬n.Mentions x) :
    ((declaredFrom 0 ns).map Constant.name).count x = 1 := by
  have himported : x ∉ ns.flatMap importedNames := by
    intro hmem
    obtain ⟨n, hn, hmem⟩ := List.mem_flatMap.mp hmem
    exact hfresh n hn (mentions_of_importedNames x hmem)
  have hnumbered : (List.range' 0 (constantsOf ns)).map moduleName = introduced ns := by
    rw [introduced_eq, List.range_eq_range']
  rw [(names_declaredFrom 0 ns).count_eq, List.count_append, hnumbered, List.count_eq_zero_of_not_mem himported,
    List.count_eq_one_of_mem (nodup_introduced ns) hx]

/-- The names that a converted module declares for its required modules are the numbered ones, in order and each once;
its text is that of its pieces, the constants of which these are. None of them is declared or read in the source if and
only if the module does not write the numbers of its own required modules. They are then declared by no other constant,
and no getter of the prologue reads one in the place of a binding of the module. -/
theorem fresh_iff {source converted : String} (h : convert source = .ok (some converted)) :
    ∃ program, Program.parse? .module source.toList = some program ∧
      converted.toList = (prologueText (program.body.flatMap ownExports)).toList ++
        weave source.toList 0 ((piecesFrom 0 program.body).map (pieceEdit source.toList)) ∧
      introduced program.body = (List.range (constantsOf program.body)).map moduleName ∧
      (introduced program.body).Nodup ∧
      ((∀ x ∈ introduced program.body, ¬program.Mentions x) ↔
        ∀ k < constantsOf program.body, ¬program.Mentions (moduleName k)) ∧
      ((∀ x ∈ introduced program.body, ¬program.Mentions x) → ∀ x ∈ introduced program.body,
        ((declaredFrom 0 program.body).map Constant.name).count x = 1 ∧
          x ∉ (program.body.flatMap ownExports).map Prod.snd) := by
  obtain ⟨program, hprogram, htext⟩ := convert_eq_ok h
  refine ⟨program, hprogram, ?_, introduced_eq _, nodup_introduced _, ?_, ?_⟩
  · rw [map_pieceEdit_piecesFrom]
    exact htext
  · simp only [mem_introduced, forall_exists_index, and_imp, forall_apply_eq_imp_iff₂]
  · intro hfresh x hx
    have hstatements : ∀ n ∈ program.body, ¬n.Mentions x := fun n hn hmention => hfresh x hx ⟨n, hn, hmention⟩
    refine ⟨count_introduced hx hstatements, ?_⟩
    intro hexport
    obtain ⟨e, he, rfl⟩ := List.mem_map.mp hexport
    obtain ⟨n, hn, he⟩ := List.mem_flatMap.mp he
    exact hstatements n hn (mentions_of_ownExports e he)

/-- A module that requires two modules as constants, and writes the number of a third, and a property and a label with
the name of the first. -/
def numberedProperty : String :=
  "import \x7b a \x7d from \"d\";\nexport * from \"e\";\n__import_1: f(__import_2, a.__import_0);\n"

set_option maxRecDepth 2000 in
/-- The constants of the module have names that it does not mention. -/
theorem fresh_of_numberedProperty : ∃ (converted : String) (program : Program),
    convert numberedProperty = .ok (some converted) ∧ Program.parse? .module numberedProperty.toList = some program ∧
      introduced program.body = ["__import_0", "__import_1"] ∧ program.Mentions "__import_2" ∧
      (∀ x ∈ introduced program.body, ¬program.Mentions x) ∧
      ∀ x ∈ introduced program.body, ((declaredFrom 0 program.body).map Constant.name).count x = 1 := by
  obtain ⟨converted, program, hconvert, hprogram, hnames, hmention, hnumbers⟩ :=
    @exists_converted_of_check numberedProperty (fun _ program =>
      introduced program.body = ["__import_0", "__import_1"] ∧ program.Mentions "__import_2" ∧
        ∀ k < constantsOf program.body, ¬program.Mentions (moduleName k)) _
      ⟨_, String.toList_ofList, by decide +kernel⟩
  obtain ⟨program', hprogram', -, -, -, hiff, honce⟩ := fresh_iff hconvert
  obtain rfl : program = program' := Option.some_inj.mp (hprogram.symm.trans hprogram')
  have hfresh := hiff.mpr hnumbers
  exact ⟨converted, program, hconvert, hprogram, hnames, hmention, hfresh, fun x hx => (honce hfresh x hx).1⟩

/-- A module that declares a variable with the name of a constant. -/
def numberedVariable : String := "import \x7b a \x7d from \"d\";\nvar __import_0 = a;\n"

/-- The name of a constant can be one that the module declares itself. -/
theorem exists_introduced_mentioned : ∃ (converted : String) (program : Program),
    convert numberedVariable = .ok (some converted) ∧ Program.parse? .module numberedVariable.toList = some program ∧
      ∃ x ∈ introduced program.body, program.Mentions x := by
  exact @exists_converted_of_check numberedVariable (fun _ program => ∃ x ∈ introduced program.body, program.Mentions x) _
    ⟨_, String.toList_ofList, by decide +kernel⟩

end Relink.Script.CommonJs
