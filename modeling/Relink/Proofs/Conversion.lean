import Relink.Proofs.Edits
import Relink.Proofs.Statements
import Relink.Script.CommonJs

/-!
# The text of a converted module

* `Definition` — what a part of the text of a converted module does to `exports`.
* `emissions` — what becomes of a statement, and which definitions are in it.
* `applyEdits_eq_weave` — edits that stand one behind the other are all applied, and the rest of the text is kept.
* `convert_eq_ok` — the text of a converted module: the prologue, and what becomes of the statements in their order.
-/

namespace Relink.Script.CommonJs

open Place

/-! ## Definitions -/

/-- What a property of `exports` reads. -/
inductive Reading where
  /-- The mark of an ES module. -/
  | mark
  /-- A binding of the module. -/
  | own (name : String)
  /-- What the required module of a number has under a name, or the whole of it. -/
  | required (number : Nat) (name : Option String)
  /-- The value of the expression that is exported by default. -/
  | result
  deriving DecidableEq, Repr

/-- What a part of the text of a converted module does to `exports`. -/
inductive Definition where
  /-- The mark of an ES module. -/
  | marker
  /-- A table of getters for bindings of the module. -/
  | table (getters : List (String × String))
  /-- A getter for what the required module of a number has under a name, or for the whole of it. -/
  | getter (name : String) (number : Nat) (member : Option String)
  /-- A loop that copies the names of the required module of a number. -/
  | copy (number : Nat)
  /-- An assignment to the default. -/
  | assignment
  deriving DecidableEq, Repr

/-- The text of a definition. -/
def Definition.text : Definition → String
  | .marker => markerText
  | .table getters =>
    " Object.defineProperties(exports, \x7b "
      ++ ", ".intercalate (getters.map fun (name, value) => getterText name value) ++ " \x7d);"
  | .getter name number member =>
    defineText name (member.elim (moduleName number) (memberText (moduleName number)))
  | .copy number => copyText (moduleName number)
  | .assignment => "exports.default = "

/-- The definitions in front of the text of a module with the given exports of its own. -/
def prologue (exports : List (String × String)) : List Definition :=
  .marker :: if exports.isEmpty then [] else [.table exports]

theorem prologueText_eq (exports : List (String × String)) :
    prologueText exports = String.join ((prologue exports).map Definition.text) ++ " " := by
  cases exports with
  | nil =>
    simp only [prologueText, prologue, List.isEmpty_nil, ↓reduceIte, List.map_cons, List.map_nil, String.join_cons,
      String.join_nil, String.append_empty]
    rfl
  | cons e exports =>
    simp only [prologueText, prologue, List.isEmpty_cons, Bool.false_eq_true, ↓reduceIte, List.map_cons, List.map_nil,
      String.join_cons, String.join_nil, String.append_empty]
    rfl

/-! ## Statements -/

/-- A part of the source that is replaced: by a text, and by definitions behind it. -/
structure Emission where
  span : Span
  front : String
  definitions : List Definition

/-- The text that a part of the source becomes. -/
def Emission.text (e : Emission) : String := e.front ++ String.join (e.definitions.map Definition.text)

def Emission.edit (source : List Char) (e : Emission) : Edit := Edit.replace source e.span e.text

/-- How many required modules a statement gives a constant. -/
def constants : Node → Nat
  | .mk (.importDeclaration [] _) _ _ => 0
  | .mk (.importDeclaration _ _) _ _ => 1
  | .mk (.exportNamed _ (some _)) _ [] => 1
  | .mk (.exportAll _ _) _ _ => 1
  | _ => 0

/-- The names under which a statement exports bindings of the module, with these bindings. -/
def ownExports : Node → List (String × String)
  | .mk (.exportNamed _ _) _ (declaration :: _) =>
    match declaredNames declaration with
    | .ok names => names.map fun x => (x, x)
    | .error _ => []
  | .mk (.exportNamed bindings none) _ [] => bindings.map fun b => (b.exported, b.local_)
  | .mk .exportDefault _ (value :: _) =>
    match value.kind with
    | .function (some x) | .class (some x) => [("default", x)]
    | _ => []
  | _ => []

/-- What becomes of a statement, behind a number of constants. -/
def emissions (number : Nat) : Node → List Emission
  | .mk (.importDeclaration [] from_) span _ => [⟨span, requireText from_ ++ ";", []⟩]
  | .mk (.importDeclaration bindings from_) span _ =>
    let locals := bindings.map (bindingText (moduleName number))
    [⟨span, moduleText number from_ ++ (" const " ++ ", ".intercalate locals ++ ";"), []⟩]
  | .mk (.exportNamed _ _) span (declaration :: _) => [⟨⟨span.start, declaration.span.start⟩, "", []⟩]
  | .mk (.exportNamed bindings (some from_)) span [] =>
    [⟨span, moduleText number from_, bindings.map fun b => .getter b.exported number (some b.local_)⟩]
  | .mk (.exportNamed _ none) span [] => [⟨span, "", []⟩]
  | .mk .exportDefault span (value :: _) =>
    let before : Span := ⟨span.start, value.span.start⟩
    match value.kind with
    | .function (some _) | .class (some _) => [⟨before, "", []⟩]
    | .function none | .class none => [⟨before, "", [.assignment]⟩, ⟨⟨span.stop, span.stop⟩, ";", []⟩]
    | _ => [⟨before, "", [.assignment]⟩]
  | .mk (.exportAll exported from_) span _ =>
    [⟨span, moduleText number from_, [exported.elim (.copy number) fun name => .getter name number none]⟩]
  | _ => []

/-- What becomes of statements, behind a number of constants. -/
def emissionsFrom : Nat → List Node → List Emission
  | _, [] => []
  | number, n :: ns => emissions number n ++ emissionsFrom (number + constants n) ns

theorem insert_eq_replace (source : List Char) (offset : Nat) (text : String) :
    Edit.insert offset text = Edit.replace source ⟨offset, offset⟩ text := by
  simp [Edit.insert, Edit.replace, Span.extract, takeBytes, newlines]

/-- Rewriting a statement adds what becomes of it. -/
theorem statement_eq_ok {source : List Char} {p : Progress} {n : Node} {q : Option Progress}
    (h : statement source p n = .ok q) :
    q.getD p = ⟨p.edits ++ (emissions p.imports n).map (Emission.edit source), p.exports ++ ownExports n,
      p.imports + constants n⟩ := by
  have hjoin : ∀ text : String, String.join [text] = text := fun text => by
    rw [String.join_cons, String.join_nil, String.append_empty]
  -- the text of a part without definitions is that in front of them
  have hplain : ∀ span text, Edit.replace source span text = Emission.edit source ⟨span, text, []⟩ := fun span text => by
    rw [Emission.edit, Emission.text, List.map_nil, String.join_nil, String.append_empty]
  have hassignment : ∀ span, Edit.replace source span "exports.default = " =
      Emission.edit source ⟨span, "", [.assignment]⟩ := fun span => by
    show _ = Edit.replace source span ("" ++ String.join [Definition.assignment.text])
    rw [hjoin, String.empty_append]
    rfl
  unfold statement at h
  split at h
  next from_ span ps =>
    cases h
    simp [Progress.replace, emissions, ownExports, constants, hplain]
  next bindings from_ span ps hne =>
    cases h
    cases bindings with
    | nil => exact absurd rfl hne
    | cons b bindings => simp [Progress.require, Progress.replace, emissions, ownExports, constants, hplain]
  next bs m span declaration ps =>
    cases hnames : declaredNames declaration with
    | error refusal =>
      rw [hnames] at h
      cases h
    | ok names =>
      rw [hnames] at h
      cases h
      simp [Progress.replace, emissions, ownExports, constants, hplain, hnames]
  next bindings from_ span =>
    cases h
    simp only [Option.getD_some, Progress.require, Progress.replace, emissions, ownExports, constants, List.append_nil,
      List.map_cons, List.map_nil, Emission.edit, Emission.text, List.map_map]
    rfl
  next bindings span =>
    cases h
    simp [Progress.replace, emissions, ownExports, constants, hplain]
  next span value ps =>
    obtain ⟨kind, valueSpan, valueParts⟩ := value
    simp only [Node.kind_mk] at h
    split at h
    next x =>
      cases h
      simp [Progress.replace, emissions, ownExports, constants, hplain]
    next x =>
      cases h
      simp [Progress.replace, emissions, ownExports, constants, hplain]
    next =>
      cases h
      simp [Progress.replace, emissions, ownExports, constants, hassignment, hplain _ ";", insert_eq_replace source]
    next =>
      cases h
      simp [Progress.replace, emissions, ownExports, constants, hassignment, hplain _ ";", insert_eq_replace source]
    next =>
      cases h
      simp [Progress.replace, emissions, ownExports, constants, hassignment]
  next exported from_ span ps =>
    cases h
    cases exported with
    | none =>
      simp only [Option.getD_some, Progress.require, Progress.replace, emissions, ownExports, constants, List.append_nil,
        List.map_cons, List.map_nil, Emission.edit, Emission.text, Option.elim_none, hjoin]
      rfl
    | some name =>
      simp only [Option.getD_some, Progress.require, Progress.replace, emissions, ownExports, constants, List.append_nil,
        List.map_cons, List.map_nil, Emission.edit, Emission.text, Option.elim_some, hjoin]
      rfl
  next =>
    cases h
    simp [emissions, ownExports, constants]

/-- Rewriting statements adds what becomes of them. -/
theorem statements_eq_ok {source : List Char} {p q : Progress} {found found' : Bool} {ns : List Node}
    (h : statements source p found ns = .ok (q, found')) :
    q.edits = p.edits ++ (emissionsFrom p.imports ns).map (Emission.edit source) ∧
      q.exports = p.exports ++ ns.flatMap ownExports := by
  induction ns generalizing p found with
  | nil =>
    cases h
    simp [emissionsFrom]
  | cons n ns ih =>
    rw [statements] at h
    cases hn : statement source p n with
    | error refusal =>
      rw [hn] at h
      cases h
    | ok r =>
      rw [hn] at h
      have hstep := statement_eq_ok hn
      have hrest : ∃ found₁, statements source (r.getD p) found₁ ns = .ok (q, found') := by
        cases r with
        | none => exact ⟨found, h⟩
        | some r => exact ⟨true, h⟩
      obtain ⟨found₁, hrest⟩ := hrest
      obtain ⟨hedits, hexports⟩ := ih hrest
      rw [hstep] at hedits hexports
      simp only at hedits hexports
      constructor
      · rw [hedits, emissionsFrom, List.map_append, List.append_assoc]
      · rw [hexports, List.flatMap_cons, List.append_assoc]

/-! ## The text -/

variable {text : Source}

/-- What becomes of a statement is put between its start and its end, one part behind the other. -/
theorem emissions_within {n : Node} (h : Standing text n) (number : Nat) :
    (∀ e ∈ emissions number n, n.span.start ≤ e.span.start ∧ e.span.start ≤ e.span.stop ∧ e.span.stop ≤ n.span.stop ∧
      Cut text e.span.start ∧ Cut text e.span.stop) ∧
    (emissions number n).Pairwise fun a b => a.span.stop ≤ b.span.start := by
  obtain ⟨kind, span, parts⟩ := n
  have hstart : Cut text span.start := h.fits.cut_start
  have hstop : Cut text span.stop := h.fits.cut_stop
  have hordered : span.start ≤ span.stop := h.ordered
  -- a part in front of what is exported
  have hpart : ∀ value ∈ parts, (∃ bs m, kind = .exportNamed bs m) ∨ kind = .exportDefault →
      span.start ≤ value.span.start ∧ value.span.start ≤ span.stop ∧ Cut text value.span.start := by
    intro value hvalue hkind
    have hfits := h.fits.part hvalue
    have hshape : kind.Shape span parts := h.fits.within.shape
    have hle : value.span.start ≤ value.span.stop := by
      rcases hkind with ⟨bs, m, rfl⟩ | rfl <;> exact hshape value hvalue
    exact ⟨hfits.le_start, hle.trans hfits.stop_le, hfits.cut_start⟩
  unfold emissions
  split
  next heq =>
    cases heq
    simp [hstart, hstop, hordered]
  next heq =>
    cases heq
    simp [hstart, hstop, hordered]
  next bs m span declaration ps heq =>
    cases heq
    obtain ⟨hle, hge, hcut⟩ := hpart declaration List.mem_cons_self (Or.inl ⟨bs, m, rfl⟩)
    simp [hstart, hle, hge, hcut]
  next heq =>
    cases heq
    simp [hstart, hstop, hordered]
  next heq =>
    cases heq
    simp [hstart, hstop, hordered]
  next span value ps heq =>
    cases heq
    obtain ⟨hle, hge, hcut⟩ := hpart value List.mem_cons_self (Or.inr rfl)
    simp only
    split <;> simp [hstart, hstop, hordered, hle, hge, hcut]
  next heq =>
    cases heq
    simp [hstart, hstop, hordered]
  next => simp

/-- What becomes of statements is put one part behind the other. -/
theorem emissionsFrom_ascending {ns : List Node} (h : Lined text ns) (number : Nat) :
    (∀ e ∈ emissionsFrom number ns, ∃ n ∈ ns, n.span.start ≤ e.span.start ∧ e.span.start ≤ e.span.stop ∧
      e.span.stop ≤ n.span.stop ∧ Cut text e.span.start ∧ Cut text e.span.stop) ∧
    (emissionsFrom number ns).Pairwise fun a b => a.span.stop ≤ b.span.start := by
  induction ns generalizing number with
  | nil => simp [emissionsFrom]
  | cons n ns ih =>
    obtain ⟨hn, hbefore, hns⟩ := lined_cons.mp h
    obtain ⟨hwithin, hascending⟩ := emissions_within hn number
    obtain ⟨hrest, hrestAscending⟩ := ih hns (number + constants n)
    rw [emissionsFrom]
    constructor
    · intro e he
      rcases List.mem_append.mp he with he | he
      · exact ⟨n, List.mem_cons_self, hwithin e he⟩
      · obtain ⟨m, hm, hspan⟩ := hrest e he
        exact ⟨m, List.mem_cons_of_mem _ hm, hspan⟩
    · refine List.pairwise_append.mpr ⟨hascending, hrestAscending, ?_⟩
      intro a ha b hb
      obtain ⟨m, hm, hstart, -⟩ := hrest b hb
      exact ((hwithin a ha).2.2.1.trans (hbefore m hm)).trans hstart

/-- The text from an offset on, with edits that stand one behind the other. -/
def weave (source : List Char) : Nat → List Edit → List Char
  | cursor, [] => Span.extract ⟨cursor, byteLength source⟩ source
  | cursor, e :: es => Span.extract ⟨cursor, e.start⟩ source ++ (e.text.toList ++ weave source e.stop es)

theorem splice_eq_weave {es : List Edit} (hes : ∀ e ∈ es, e.Keeps text)
    (hascending : es.Pairwise fun a b => a.stop ≤ b.start) {p : Place} (hp : Leads (first text.chars) p)
    (hbehind : ∀ e ∈ es, p.offset ≤ e.start) : splice p.offset p.rest es = weave text.chars p.offset es := by
  induction es generalizing p with
  | nil =>
    obtain ⟨front, htext, hoffset⟩ := hp
    have htext : text.chars = front ++ p.rest := htext
    have hlength : byteLength text.chars = p.offset + byteLength p.rest := by
      rw [htext, byteLength_append, hoffset]
      simp [first]
    have hextract := extract_of_leads (p := p) (q := ⟨byteLength text.chars, []⟩) ⟨front, htext, hoffset⟩
      (List.append_nil p.rest).symm hlength
    rw [splice, weave]
    exact hextract.symm
  | cons e es ih =>
    obtain ⟨he, hes⟩ := List.forall_mem_cons.mp hes
    obtain ⟨hafter, hascending⟩ := List.pairwise_cons.mp hascending
    have hle := hbehind e List.mem_cons_self
    obtain ⟨r, hr, hstop, htake, hdrop, -⟩ := he.exists_place hp hle
    have hlater := ih hes hascending hr fun e' he' => hstop ▸ hafter e' he'
    rw [splice, if_neg (by omega), weave, htake, hdrop, ← hstop, hlater, List.append_assoc]

/-- Edits that stand one behind the other are all applied. -/
theorem applyEdits_eq_weave {es : List Edit} (hes : ∀ e ∈ es, e.Keeps text)
    (hascending : es.Pairwise fun a b => a.stop ≤ b.start) :
    (applyEdits (String.ofList text.chars) es).toList = weave text.chars 0 es := by
  have hsorted : sortEdits es = es := by
    refine List.mergeSort_of_pairwise (hascending.imp_of_mem ?_)
    intro a b ha hb hab
    exact decide_eq_true ((hes a ha).ordered.trans hab)
  unfold applyEdits
  rw [hsorted, String.toList_ofList, String.toList_ofList]
  exact splice_eq_weave hes hascending (Leads.refl (first text.chars)) fun _ _ => Nat.zero_le _

/-- The edits of a converted module: the prologue is put in front, and the rest is what becomes of the statements. -/
theorem exists_of_convert {source converted : String} (h : convert source = .ok (some converted)) :
    ∃ program, Program.parse? .module source.toList = some program ∧
      converted = applyEdits source (Edit.insert 0 (prologueText (program.body.flatMap ownExports)) ::
        (emissionsFrom 0 program.body).map (Emission.edit source.toList)) := by
  unfold convert at h
  cases hprogram : Program.parse? .module source.toList with
  | none =>
    rw [hprogram] at h
    cases h
  | some program =>
    simp only [hprogram] at h
    cases hstatements : statements source.toList ⟨[], [], 0⟩ false program.body with
    | error refusal =>
      rw [hstatements] at h
      cases h
    | ok r =>
      obtain ⟨p, found⟩ := r
      obtain ⟨hedits, hexports⟩ := statements_eq_ok hstatements
      rw [List.nil_append] at hedits hexports
      rw [hstatements] at h
      cases found with
      | false => cases h
      | true =>
        cases h
        exact ⟨program, rfl, by rw [hedits, hexports]⟩

/-- What becomes of the statements of a module keeps its lines, one part behind the other. -/
theorem keeps_emissionsFrom {program : Program} (h : Program.parse? .module text.chars = some program) :
    (∀ e ∈ (emissionsFrom 0 program.body).map (Emission.edit text.chars), e.Keeps text) ∧
      ((emissionsFrom 0 program.body).map (Emission.edit text.chars)).Pairwise fun a b => a.stop ≤ b.start := by
  obtain ⟨hspans, hascending⟩ := emissionsFrom_ascending (Program.lined_of_parse? h) 0
  refine ⟨?_, List.pairwise_map.mpr hascending⟩
  intro e he
  obtain ⟨m, hm, rfl⟩ := List.mem_map.mp he
  obtain ⟨n, -, -, hordered, -, hstart, hstop⟩ := hspans m hm
  exact keeps_replace hordered hstart hstop _

/-- The text of a converted module: the definitions of the prologue, and what becomes of the statements in their
order, with the rest of the source between. -/
theorem convert_eq_ok {source converted : String} (h : convert source = .ok (some converted)) :
    ∃ program, Program.parse? .module source.toList = some program ∧
      converted.toList = (prologueText (program.body.flatMap ownExports)).toList ++
        weave source.toList 0 ((emissionsFrom 0 program.body).map (Emission.edit source.toList)) := by
  obtain ⟨program, hprogram, rfl⟩ := exists_of_convert h
  refine ⟨program, hprogram, ?_⟩
  obtain ⟨hkeeps, hascending⟩ := @keeps_emissionsFrom ⟨source.toList⟩ _ hprogram
  have hprologue : ∀ prologue, (Edit.insert 0 prologue).Keeps ⟨source.toList⟩ :=
    fun prologue => keeps_insert ⟨first source.toList, Leads.refl _, rfl⟩ prologue
  have hweave := @applyEdits_eq_weave ⟨source.toList⟩ _
    (List.forall_mem_cons.mpr ⟨hprologue (prologueText (program.body.flatMap ownExports)), hkeeps⟩)
    (List.pairwise_cons.mpr ⟨fun _ _ => Nat.zero_le _, hascending⟩)
  rw [String.ofList_toList] at hweave
  rw [hweave, weave]
  simp [Edit.insert, Span.extract, takeBytes]

/-- A module is converted if its statements are, and one of them is an import or export. -/
theorem exists_converted_of_statements {source : String} {program : Program}
    (hprogram : Program.parse? .module source.toList = some program)
    (h : (statements source.toList ⟨[], [], 0⟩ false program.body).toOption.any Prod.snd = true) :
    ∃ converted, convert source = .ok (some converted) := by
  obtain ⟨⟨p, found⟩, hstatements, rfl⟩ := (Option.any_eq_true _ _).mp h
  cases hresult : statements source.toList ⟨[], [], 0⟩ false program.body with
  | error refusal =>
    rw [hresult] at hstatements
    cases hstatements
  | ok r =>
    rw [hresult] at hstatements
    cases hstatements
    simp only [convert, hprogram, hresult]
    exact ⟨_, rfl⟩

/-- A module with an import or export is converted, and its syntax tree has what is checked of it. -/
theorem exists_converted_of_check {source : String} {P : List Char → Program → Prop} [∀ cs, DecidablePred (P cs)]
    (h : ∃ cs, source.toList = cs ∧ ((Program.parse? .module cs).any fun program =>
      decide (P cs program) && (statements cs ⟨[], [], 0⟩ false program.body).toOption.any Prod.snd) = true) :
    ∃ converted program, convert source = .ok (some converted) ∧
      Program.parse? .module source.toList = some program ∧ P source.toList program := by
  obtain ⟨program, hprogram, hcheck⟩ := Program.exists_of_check h
  obtain ⟨hP, hfound⟩ := Bool.and_eq_true_iff.mp hcheck
  obtain ⟨converted, hconvert⟩ := exists_converted_of_statements hprogram hfound
  exact ⟨converted, program, hconvert, hprogram, of_decide_eq_true hP⟩

end Relink.Script.CommonJs
