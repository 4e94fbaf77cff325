import Relink.Proofs.Bindings

/-!
# Reading a required module

An export reads a required module through a constant, which is read once when the module is loaded, or through a getter
for the module itself, which is read every time. And what is imported as the default of a module without the mark of ES
modules is the whole of it.

* `Access.value` — what an expression for a required module reads, on objects that are given by their properties.
* `outcome` — what an export of a converted module gives.
* `outcome_of_importsAndExports`, `outcome_of_exportsFrom` — what an imported name gives that is exported, and an export
  from a required module.
* `outcomes_eq_iff` — when they are alike.
-/

namespace Relink.Script.CommonJs

/-! ## Objects -/

/-- Values, with those that count as true, and what they have under a name: nothing when reading it fails. -/
structure Objects (V : Type) where
  truthy : V → Bool
  property : V → String → Option V

/-- A value has the mark of ES modules. -/
def Objects.Marked {V : Type} (os : Objects V) (m : V) : Prop :=
  os.truthy m = true ∧ ∃ mark, os.property m "__esModule" = some mark ∧ os.truthy mark = true

/-- A value has no mark of ES modules. -/
def Objects.Unmarked {V : Type} (os : Objects V) (m : V) : Prop :=
  os.truthy m = false ∨ ∃ mark, os.property m "__esModule" = some mark ∧ os.truthy mark = false

/-- The text for a property can be read: behind a dot, the name of the property must be one of the language. -/
def isReadable (name : String) : Bool :=
  !isPlainName name || match name.toList with
    | [] => false
    | c :: cs => isNameStart c && cs.all isNamePart

/-- What an expression for a required module reads. -/
def Access.value {V : Type} (os : Objects V) (m : V) : Access → Option V
  | .whole => some m
  | .member name => if isReadable name then os.property m name else none
  | .fallback =>
    if os.truthy m then
      (os.property m "__esModule").bind fun mark => if os.truthy mark then os.property m "default" else some m
    else some m

/-- What is imported under a name. -/
def importedAs (name : String) : Imported := if name = "default" then .default else .named name

section

variable {V : Type} {os : Objects V} {m : V}

@[simp] theorem value_whole : Access.whole.value os m = some m := rfl

theorem isReadable_default : isReadable "default" = true := by decide

/-- The default of an ES module is what it has under that name. -/
theorem value_fallback_of_marked (h : os.Marked m) : Access.fallback.value os m = (Access.member "default").value os m := by
  obtain ⟨htruthy, mark, hmark, hset⟩ := h
  simp [Access.value, htruthy, hmark, hset, isReadable_default]

/-- The default of any other module is the whole of it. -/
theorem value_fallback_of_unmarked (h : os.Unmarked m) : Access.fallback.value os m = some m := by
  rcases h with htruthy | ⟨mark, hmark, hset⟩
  · simp [Access.value, htruthy]
  · simp [Access.value, hmark, hset]

theorem ofImported_importedAs {name : String} (h : name ≠ "default") :
    Access.ofImported (importedAs name) = .member name := by
  rw [importedAs, if_neg h]
  rfl

end

/-! ## Exports -/

/-- Modules that are required: what each of them is, the names that a loop over its properties sees, and the objects while
the requiring module is loaded and when its exports are read. -/
structure World (V : Type) where
  required : String → V
  keys : String → List String
  loading : Objects V
  later : Objects V

/-- The names that the text around a module declares, and those that the written definitions use. -/
def outerNames : List String := ["require", "module", "exports", "__esModule", "__esExport", "Object"]

/-- The source of the required module of a number. -/
def sourceOf? (cs : List Constant) (number : Nat) : Option String :=
  cs.findSome? fun
    | .module k source => if k = number then some source else none
    | .imported _ _ _ => none

/-- What an expression for the required module of a number reads. -/
def requiredValue {V : Type} (w : World V) (os : Objects V) (cs : List Constant) (number : Nat) (access : Access) :
    Option V :=
  (sourceOf? cs number).bind fun source => access.value os (w.required source)

/-- What a constant holds. -/
def Constant.value {V : Type} (w : World V) (cs : List Constant) : Constant → Option V
  | .module number _ => requiredValue w w.loading cs number .whole
  | .imported _ number access => requiredValue w w.loading cs number access

/-- Constants that can be declared side by side: no two have one name, and none has a name that is needed otherwise. -/
def Declarable (cs : List Constant) : Prop := (cs.map Constant.name).Nodup ∧ ∀ c ∈ cs, c.name ∉ outerNames

instance (cs : List Constant) : Decidable (Declarable cs) := inferInstanceAs (Decidable (_ ∧ _))

/-- What an export gives when it is read. -/
inductive Outcome (V : Type) where
  /-- What is read of a required module. -/
  | value (v : V)
  /-- Something of the module's own. -/
  | own
  /-- There is no such export. -/
  | missing
  /-- Loading the module fails, or reading the export. -/
  | fails
  deriving DecidableEq, Repr

/-- What is read of a required module, if reading it does not fail. -/
def Outcome.ofValue {V : Type} : Option V → Outcome V
  | some v => .value v
  | none => .fails

/-- What a property of `exports` gives when it is read. -/
def Reading.outcome {V : Type} (w : World V) (cs : List Constant) : Reading → Outcome V
  | .mark | .result => .own
  | .own x => (cs.find? fun c => c.name = x).elim .own fun c => .ofValue (c.value w cs)
  | .required number name => .ofValue (requiredValue w w.later cs number (name.elim .whole .member))

/-- What an export of a converted module gives. First the module is loaded: its constants are declared and read, and its
definitions are run. -/
def outcome {V : Type} (w : World V) (body : List Node) (name : String) : Outcome V :=
  let cs := declaredFrom 0 body
  if Declarable cs ∧ ∀ c ∈ cs, (c.value w cs).isSome = true then
    match run (fun number => (sourceOf? cs number).elim [] w.keys) (definitions body) with
    | none => .fails
    | some es => (es.lookup name).elim .missing (Reading.outcome w cs)
  else .fails

/-! ## The two ways to export what another module has -/

/-- Statements that import what a module has under a name, and export it. -/
def importsAndExports (name local_ exported source : String) : List Node → Bool
  | [.mk (.importDeclaration bindings from_) _ [], .mk (.exportNamed exports none) _ []] =>
    bindings = [⟨importedAs name, local_⟩] && from_ = source && exports = [⟨local_, exported⟩]
  | _ => false

/-- A statement that exports what a module has under a name. -/
def exportsFrom (name exported source : String) : List Node → Bool
  | [.mk (.exportNamed exports (some from_)) _ []] => exports = [⟨name, exported⟩] && from_ = source
  | _ => false

section

variable {V : Type} {name local_ exported source : String} {body : List Node}

theorem eq_of_importsAndExports (h : importsAndExports name local_ exported source body = true) : ∃ s s',
    body = [.mk (.importDeclaration [⟨importedAs name, local_⟩] source) s [],
      .mk (.exportNamed [⟨local_, exported⟩] none) s' []] := by
  unfold importsAndExports at h
  split at h
  next bindings from_ s exports s' =>
    simp only [Bool.and_eq_true, decide_eq_true_eq] at h
    obtain ⟨⟨rfl, rfl⟩, rfl⟩ := h
    exact ⟨s, s', rfl⟩
  next => cases h

theorem eq_of_exportsFrom (h : exportsFrom name exported source body = true) :
    ∃ s, body = [.mk (.exportNamed [⟨name, exported⟩] (some source)) s []] := by
  unfold exportsFrom at h
  split at h
  next exports from_ s =>
    simp only [Bool.and_eq_true, decide_eq_true_eq] at h
    obtain ⟨rfl, rfl⟩ := h
    exact ⟨s, rfl⟩
  next => cases h

theorem moduleName_notMem_outerNames (number : Nat) : moduleName number ∉ outerNames := by
  intro hmem
  have hfront : ∀ x ∈ outerNames, "__import_".toList.isPrefixOf x.toList = false := by decide
  have htext : (moduleName number).toList = "__import_".toList ++ (toString number).toList := String.toList_append
  have hprefix := hfront _ hmem
  rw [htext, List.isPrefixOf_iff_prefix.mpr (List.prefix_append _ _)] at hprefix
  cases hprefix

/-- A property that is defined behind the mark. -/
theorem define_behind_mark (r : Reading) : Properties.define [("__esModule", .mark)] exported r =
    if exported = "__esModule" then none else some [("__esModule", .mark), (exported, r)] := by
  unfold Properties.define
  rw [List.lookup_cons, List.lookup_nil]
  by_cases hmark : exported = "__esModule"
  · simp [hmark]
  · simp [beq_eq_false_iff_ne.mpr hmark, hmark]

theorem lookup_behind_mark (h : exported ≠ "__esModule") (es : Properties) :
    List.lookup exported (("__esModule", .mark) :: es) = es.lookup exported := by
  rw [List.lookup_cons, beq_eq_false_iff_ne.mpr h]

theorem run_pair (keys : Nat → List String) (d : Definition) :
    run keys [.marker, d] = d.run keys [("__esModule", .mark)] :=
  Option.bind_fun_some _

/-- The property of a binding of the module. -/
theorem run_table (keys : Nat → List String) : run keys [.marker, .table [(exported, local_)]] =
    if exported = "__esModule" then none
    else if exported = "__proto__" then some [("__esModule", .mark)]
    else some [("__esModule", .mark), (exported, .own local_)] := by
  rw [run_pair]
  by_cases hproto : exported = "__proto__"
  · simp [Definition.run, hproto]
  · have hdefine := @define_behind_mark exported (.own local_)
    rw [if_neg hproto, ← hdefine]
    simp [Definition.run, hproto]

/-- The property of what the required module has under a name. -/
theorem run_getter (keys : Nat → List String) (member : Option String) : run keys [.marker, .getter exported 0 member] =
    if exported = "__esModule" then none else some [("__esModule", .mark), (exported, .required 0 member)] := by
  rw [run_pair, ← define_behind_mark]
  rfl

/-- An imported name that is exported gives what has been read when the module was loaded. -/
theorem outcome_of_importsAndExports (w : World V) (h : importsAndExports name local_ exported source body = true)
    (houter : local_ ∉ outerNames) (hnumber : local_ ≠ moduleName 0) : outcome w body exported =
      match (Access.ofImported (importedAs name)).value w.loading (w.required source) with
      | none => .fails
      | some v => if exported = "__esModule" then .fails else if exported = "__proto__" then .missing else .value v := by
  obtain ⟨s, s', rfl⟩ := eq_of_importsAndExports h
  have hdeclared : declaredFrom 0 [.mk (.importDeclaration [⟨importedAs name, local_⟩] source) s [],
      .mk (.exportNamed [⟨local_, exported⟩] none) s' []] =
      [.module 0 source, .imported local_ 0 (.ofImported (importedAs name))] := rfl
  have hdefinitions : definitions [.mk (.importDeclaration [⟨importedAs name, local_⟩] source) s [],
      .mk (.exportNamed [⟨local_, exported⟩] none) s' []] = [.marker, .table [(exported, local_)]] := rfl
  have hdeclarable : Declarable [.module 0 source, .imported local_ 0 (.ofImported (importedAs name))] := by
    have h0 := moduleName_notMem_outerNames 0
    simp [Declarable, Constant.name, houter, Ne.symm hnumber, h0]
  have hproto : "__proto__" ≠ "__esModule" := by decide
  simp only [outcome, hdeclared, hdefinitions, hdeclarable, run_table, true_and]
  cases hvalue : (Access.ofImported (importedAs name)).value w.loading (w.required source) with
  | none => simp [Constant.value, requiredValue, sourceOf?, hvalue]
  | some v =>
    have hread : Reading.outcome w [.module 0 source, .imported local_ 0 (.ofImported (importedAs name))] (.own local_) =
        .value v := by
      simp [Reading.outcome, Constant.name, Ne.symm hnumber, Constant.value, requiredValue, sourceOf?, hvalue,
        Outcome.ofValue]
    have hloaded : ∀ c ∈ [Constant.module 0 source, .imported local_ 0 (.ofImported (importedAs name))],
        (c.value w [.module 0 source, .imported local_ 0 (.ofImported (importedAs name))]).isSome = true := by
      simp [Constant.value, requiredValue, sourceOf?, hvalue]
    rw [if_pos hloaded]
    by_cases hmark : exported = "__esModule"
    · simp [hmark]
    rw [if_neg hmark]
    by_cases hname : exported = "__proto__"
    · simp [hname, lookup_behind_mark hproto]
    · simp [hmark, hname, lookup_behind_mark hmark, hread]

/-- An export from a required module gives what this has under the name when the export is read. -/
theorem outcome_of_exportsFrom (w : World V) (h : exportsFrom name exported source body = true) :
    outcome w body exported = if exported = "__esModule" then .fails
      else .ofValue ((Access.member name).value w.later (w.required source)) := by
  obtain ⟨s, rfl⟩ := eq_of_exportsFrom h
  have hdeclared : declaredFrom 0 [.mk (.exportNamed [⟨name, exported⟩] (some source)) s []] =
      [.module 0 source] := rfl
  have hdefinitions : definitions [.mk (.exportNamed [⟨name, exported⟩] (some source)) s []] =
      [.marker, .getter exported 0 (some name)] := rfl
  have hdeclarable : Declarable [.module 0 source] := by
    simp [Declarable, Constant.name, moduleName_notMem_outerNames 0]
  have hread : Reading.outcome w [.module 0 source] (.required 0 (some name)) =
      .ofValue ((Access.member name).value w.later (w.required source)) := by
    simp [Reading.outcome, requiredValue, sourceOf?]
  have hloaded : ∀ c ∈ [Constant.module 0 source], (c.value w [.module 0 source]).isSome = true := by
    simp [Constant.value, requiredValue, sourceOf?]
  simp only [outcome, hdeclared, hdefinitions, hdeclarable, run_getter, true_and]
  rw [if_pos hloaded]
  by_cases hmark : exported = "__esModule"
  · simp [hmark]
  · simp [hmark, lookup_behind_mark hmark, hread]

theorem converts_of_importsAndExports {text : String} {program : Program}
    (hprogram : Program.parse? .module text.toList = some program)
    (h : importsAndExports name local_ exported source program.body = true) :
    ∃ converted, convert text = .ok (some converted) := by
  obtain ⟨s, s', hbody⟩ := eq_of_importsAndExports h
  simp only [convert, hprogram, hbody]
  exact ⟨_, rfl⟩

theorem converts_of_exportsFrom {text : String} {program : Program}
    (hprogram : Program.parse? .module text.toList = some program)
    (h : exportsFrom name exported source program.body = true) : ∃ converted, convert text = .ok (some converted) := by
  obtain ⟨s, hbody⟩ := eq_of_exportsFrom h
  simp only [convert, hprogram, hbody]
  exact ⟨_, rfl⟩

/-- The text of a converted module in pieces. -/
theorem exists_pieces {text converted : String} {program : Program} (h : convert text = .ok (some converted))
    (hprogram : Program.parse? .module text.toList = some program) :
    converted.toList = (prologueText (program.body.flatMap ownExports)).toList ++
      weave text.toList 0 ((piecesFrom 0 program.body).map (pieceEdit text.toList)) := by
  obtain ⟨program', hprogram', htext⟩ := convert_eq_ok h
  cases hprogram.symm.trans hprogram'
  rw [map_pieceEdit_piecesFrom]
  exact htext

/-- What a module has under a name is imported and exported under another, or exported from there. Both texts are
converted: the first reads the module when it is loaded, the second when the export is read. So the exports are alike if
and only if both readings are, or none of the texts can be loaded; a binding that is exported as `__proto__` is lost.
When the properties of the module do not change, the readings are alike for every name but the default, and for the
default of an ES module; the default of any other module has to be the whole of it. -/
theorem outcomes_eq_iff (w : World V) {first second : String} {p p' : Program}
    (hp : Program.parse? .module first.toList = some p) (hp' : Program.parse? .module second.toList = some p')
    (hfirst : importsAndExports name local_ exported source p.body = true)
    (hsecond : exportsFrom name exported source p'.body = true)
    (houter : local_ ∉ outerNames) (hnumber : local_ ≠ moduleName 0) :
    ∃ c c' : String, convert first = .ok (some c) ∧ convert second = .ok (some c') ∧
      (∃ s s', c.toList = (prologueText [(exported, local_)]).toList ++ weave first.toList 0
        ([(s, [.constants [.module 0 source], .blank,
          .constants [.imported local_ 0 (.ofImported (importedAs name))]]), (s', [])].map (pieceEdit first.toList))) ∧
      (∃ s, c'.toList = (prologueText []).toList ++ weave second.toList 0
        ([(s, [.constants [.module 0 source], .definition (.getter exported 0 (some name))])].map
          (pieceEdit second.toList))) ∧
      (outcome w p.body exported = outcome w p'.body exported ↔ exported = "__esModule" ∨
        (Access.ofImported (importedAs name)).value w.loading (w.required source) =
            (Access.member name).value w.later (w.required source) ∧
          (exported = "__proto__" → (Access.member name).value w.later (w.required source) = none)) ∧
      (w.later = w.loading → exported ≠ "__proto__" → name ≠ "default" ∨ w.loading.Marked (w.required source) →
        outcome w p.body exported = outcome w p'.body exported) ∧
      (w.later = w.loading → exported ≠ "__proto__" → exported ≠ "__esModule" → name = "default" →
        w.loading.Unmarked (w.required source) → (outcome w p.body exported = outcome w p'.body exported ↔
          w.loading.property (w.required source) "default" = some (w.required source))) := by
  obtain ⟨c, hc⟩ := converts_of_importsAndExports hp hfirst
  obtain ⟨c', hc'⟩ := converts_of_exportsFrom hp' hsecond
  have hiff : outcome w p.body exported = outcome w p'.body exported ↔ exported = "__esModule" ∨
      (Access.ofImported (importedAs name)).value w.loading (w.required source) =
          (Access.member name).value w.later (w.required source) ∧
        (exported = "__proto__" → (Access.member name).value w.later (w.required source) = none) := by
    rw [outcome_of_importsAndExports w hfirst houter hnumber, outcome_of_exportsFrom w hsecond]
    by_cases hmark : exported = "__esModule"
    · simp only [hmark, if_true, true_or, iff_true]
      split <;> rfl
    cases hread : (Access.ofImported (importedAs name)).value w.loading (w.required source) with
    | none =>
      cases (Access.member name).value w.later (w.required source) <;> simp [hmark, Outcome.ofValue]
    | some v =>
      by_cases hproto : exported = "__proto__"
      · have hne : "__proto__" ≠ "__esModule" := by decide
        cases (Access.member name).value w.later (w.required source) <;> simp [hproto, hne, Outcome.ofValue]
      · cases (Access.member name).value w.later (w.required source) <;> simp [hmark, hproto, Outcome.ofValue]
  refine ⟨c, c', hc, hc', ?_, ?_, hiff, ?_, ?_⟩
  · obtain ⟨s, s', hbody⟩ := eq_of_importsAndExports hfirst
    have htext := exists_pieces hc hp
    rw [hbody] at htext
    exact ⟨s, s', htext⟩
  · obtain ⟨s, hbody⟩ := eq_of_exportsFrom hsecond
    have htext := exists_pieces hc' hp'
    rw [hbody] at htext
    exact ⟨s, htext⟩
  · intro hlater hproto hname
    refine hiff.mpr (Or.inr ⟨?_, fun h => absurd h hproto⟩)
    rw [hlater]
    by_cases hdefault : name = "default"
    · rw [hdefault]
      exact value_fallback_of_marked (hname.resolve_left (not_not_intro hdefault))
    · rw [ofImported_importedAs hdefault]
  · intro hlater hproto hmark hdefault hunmarked
    have hwhole : (Access.ofImported (importedAs name)).value w.loading (w.required source) =
        some (w.required source) := by
      rw [hdefault]
      exact value_fallback_of_unmarked hunmarked
    rw [hiff, hlater, hwhole, hdefault]
    simp [hproto, hmark, Access.value, isReadable_default, eq_comm]

end

/-- A module that imports the default of another and exports it. -/
def importThenExport : String := "import x from \"d\";\nexport \x7b x as y \x7d;\n"

/-- A module that exports the default of another. -/
def exportFromThere : String := "export \x7b default as y \x7d from \"d\";\n"

/-- Every module is an object with a default, and has the mark of ES modules or not. -/
def defaultObjects (marked : Bool) : Objects String where
  truthy v := v ≠ "undefined"
  property v name :=
    if v = "undefined" then none
    else if name = "default" then some "its default"
    else if name = "__esModule" ∧ marked = true then some "true"
    else some "undefined"

def defaultWorld (marked : Bool) : World String :=
  ⟨id, fun _ => ["default"], defaultObjects marked, defaultObjects marked⟩

theorem exists_programs : ∃ p p' : Program, Program.parse? .module importThenExport.toList = some p ∧
    Program.parse? .module exportFromThere.toList = some p' ∧
    importsAndExports "default" "x" "y" "d" p.body = true ∧ exportsFrom "default" "y" "d" p'.body = true := by
  have hfirst : ∃ cs, importThenExport.toList = cs ∧
      (Program.parse? .module cs).any (fun p => importsAndExports "default" "x" "y" "d" p.body) = true :=
    ⟨_, String.toList_ofList, by decide +kernel⟩
  have hsecond : ∃ cs, exportFromThere.toList = cs ∧
      (Program.parse? .module cs).any (fun p => exportsFrom "default" "y" "d" p.body) = true :=
    ⟨_, String.toList_ofList, by decide +kernel⟩
  obtain ⟨p, hp, hbody⟩ := Program.exists_of_check hfirst
  obtain ⟨p', hp', hbody'⟩ := Program.exists_of_check hsecond
  exact ⟨p, p', hp, hp', hbody, hbody'⟩

/-- The two ways give the default of an ES module. -/
theorem outcomes_of_default : ∃ p p' : Program, Program.parse? .module importThenExport.toList = some p ∧
    Program.parse? .module exportFromThere.toList = some p' ∧
    outcome (defaultWorld true) p.body "y" = outcome (defaultWorld true) p'.body "y" ∧
    outcome (defaultWorld true) p'.body "y" = .value "its default" := by
  obtain ⟨p, p', hp, hp', hbody, hbody'⟩ := exists_programs
  have hmarked : (defaultWorld true).loading.Marked ((defaultWorld true).required "d") :=
    ⟨by decide, "true", by decide, by decide⟩
  obtain ⟨c, c', -, -, -, -, -, halike, -⟩ := outcomes_eq_iff (defaultWorld true) hp hp' hbody hbody' (by decide)
    (by decide)
  refine ⟨p, p', hp, hp', halike rfl (by decide) (Or.inr hmarked), ?_⟩
  rw [outcome_of_exportsFrom (defaultWorld true) hbody']
  decide

/-- The default of a module without the mark of ES modules is the whole of it when it is imported, and what it has under
that name when it is exported from there. -/
theorem exists_outcomes_ne : ∃ (c c' : String) (p p' : Program), convert importThenExport = .ok (some c) ∧
    convert exportFromThere = .ok (some c') ∧ Program.parse? .module importThenExport.toList = some p ∧
    Program.parse? .module exportFromThere.toList = some p' ∧
    outcome (defaultWorld false) p.body "y" = .value "d" ∧
    outcome (defaultWorld false) p'.body "y" = .value "its default" := by
  obtain ⟨p, p', hp, hp', hbody, hbody'⟩ := exists_programs
  obtain ⟨c, hc⟩ := converts_of_importsAndExports hp hbody
  obtain ⟨c', hc'⟩ := converts_of_exportsFrom hp' hbody'
  refine ⟨c, c', p, p', hc, hc', hp, hp', ?_, ?_⟩
  · rw [outcome_of_importsAndExports (defaultWorld false) hbody (by decide) (by decide)]
    decide
  · rw [outcome_of_exportsFrom (defaultWorld false) hbody']
    decide

end Relink.Script.CommonJs
