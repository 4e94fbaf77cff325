import Relink.Proofs.Calls
import Relink.Proofs.Conversion
import Relink.Proofs.Origin

/-!
# Imports of modules

What a script requires is what it calls `require` with. An import is no such call: it is one only in a text that has
been converted, where the call is written in its place.

* `exists_requirement` — where a conversion writes the call for an import.
* `meets_analysed_takes` — an analysis takes up what a script calls `require` with, and nothing else.
* `imports_kept_iff` — the imports of a file are kept if and only if they are calls in its script.
-/

namespace Relink

namespace Script

/-! ## Imports in programs -/

/-- The module that a statement imports from, or from which it takes an export. -/
def Node.source? : Node → Option String
  | mk (.importDeclaration _ source) _ _ => some source
  | mk (.exportNamed _ source) _ [] => source
  | mk (.exportAll _ source) _ _ => some source
  | _ => none

/-- The modules that the statements of a program import from. -/
def Program.imports (program : Program) : List String := (Node.preorderAll program.body).filterMap Node.source?

/-- A program calls `require` with a text. -/
def Program.Calls (program : Program) (specifier : String) : Prop := ∃ n ∈ program.body, n.Calls specifier

namespace Summary

theorem requires_ofProgram (program : Program) :
    (ofProgram program).requires = (Node.preorderAll program.body).filterMap Node.requireCall? := by
  have hstep : ∀ summary n, (addStatement summary n).requires = summary.requires := by
    intro summary n
    unfold addStatement
    split
    · split
      · rfl
      · split
        · rfl
        · split <;> rfl
    · rfl
  have hfold : ∀ (ns : List Node) summary, (ns.foldl addStatement summary).requires = summary.requires := by
    intro ns
    induction ns with
    | nil => exact fun _ => rfl
    | cons n ns ih => exact fun summary => (ih _).trans (hstep summary n)
  exact hfold _ _

theorem mem_dependencies {summary : Summary} {specifier : String} :
    specifier ∈ summary.dependencies ↔ ∃ call ∈ summary.requires, call.specifier = specifier := by
  have hfold : ∀ (calls : List RequireCall) (deps : List String),
      specifier ∈ calls.foldl (fun deps call => if deps.contains call.specifier then deps else deps ++ [call.specifier])
        deps ↔ specifier ∈ deps ∨ ∃ call ∈ calls, call.specifier = specifier := by
    intro calls
    induction calls with
    | nil => simp
    | cons call calls ih =>
      intro deps
      rw [List.foldl_cons, ih]
      split
      next hin =>
        have hin : call.specifier ∈ deps := by simpa using hin
        simp only [List.mem_cons, exists_eq_or_imp]
        constructor
        · rintro (h | h)
          · exact Or.inl h
          · exact Or.inr (Or.inr h)
        · rintro (h | rfl | h)
          · exact Or.inl h
          · exact Or.inl hin
          · exact Or.inr h
      next => simp [or_assoc, eq_comm]
  have h := hfold summary.requires []
  simpa [dependencies] using h

/-- The specifiers of a summary are those that the program calls `require` with. -/
theorem mem_dependencies_ofProgram {program : Program} {specifier : String} :
    specifier ∈ (ofProgram program).dependencies ↔ program.Calls specifier := by
  rw [mem_dependencies, requires_ofProgram]
  unfold Program.Calls Node.Calls
  simp only [List.mem_filterMap, Node.mem_preorderAll]
  constructor
  · rintro ⟨call, ⟨m, ⟨n, hn, hm⟩, hcall⟩, hspecifier⟩
    exact ⟨n, hn, m, hm, call, hcall, hspecifier⟩
  · rintro ⟨n, hn, m, hm, call, hcall, hspecifier⟩
    exact ⟨call, ⟨m, ⟨n, hn, hm⟩, hcall⟩, hspecifier⟩

end Summary

namespace CommonJs

/-! ## Places of imports in a converted text -/

/-- The text between two offsets, with edits that stand there one behind the other. -/
def weaveTo (source : List Char) (stop : Nat) : Nat → List Edit → List Char
  | cursor, [] => Span.extract ⟨cursor, stop⟩ source
  | cursor, e :: es => Span.extract ⟨cursor, e.start⟩ source ++ (e.text.toList ++ weaveTo source stop e.stop es)

theorem weave_append (source : List Char) (cursor : Nat) (es es' : List Edit) (e : Edit) :
    weave source cursor (es ++ e :: es') =
      weaveTo source e.start cursor es ++ (e.text.toList ++ weave source e.stop es') := by
  induction es generalizing cursor with
  | nil => rfl
  | cons e' es ih => rw [List.cons_append, weave, weaveTo, ih, List.append_assoc, List.append_assoc]

/-- The number of constants that some statements give to required modules. -/
def constantsOf (ns : List Node) : Nat := (ns.map constants).sum

theorem emissionsFrom_append (number : Nat) (ns ns' : List Node) :
    emissionsFrom number (ns ++ ns') = emissionsFrom number ns ++ emissionsFrom (number + constantsOf ns) ns' := by
  induction ns generalizing number with
  | nil => rfl
  | cons n ns ih =>
    have hcount : number + constantsOf (n :: ns) = number + constants n + constantsOf ns := by
      simp [constantsOf, Nat.add_assoc]
    rw [List.cons_append, emissionsFrom, emissionsFrom, ih, List.append_assoc, hcount]

/-- The text of a converted module in front of what becomes of a statement that stands behind some others. -/
def frontOf (source : String) (program : Program) (before : List Node) (n : Node) : List Char :=
  (prologueText (program.body.flatMap ownExports)).toList ++
    weaveTo source.toList n.span.start 0 ((emissionsFrom 0 before).map (Emission.edit source.toList))

/-- An import becomes one text, which starts with the call. -/
theorem emissions_of_source? {n : Node} {specifier : String} (h : n.source? = some specifier) (number : Nat) :
    ∃ e written more, emissions number n = [e] ∧ e.span = n.span ∧ e.text.toList = written ++ more ∧
      IsRequirement specifier written := by
  obtain ⟨kind, span, parts⟩ := n
  unfold Node.source? at h
  split at h
  next bindings source _ _ heq =>
    cases heq
    cases h
    cases bindings with
    | nil =>
      refine ⟨_, (requireText specifier).toList ++ [';'], [], rfl, rfl, ?_, Or.inl rfl⟩
      simp [Emission.text]
    | cons b bindings =>
      let constants := " const " ++ ", ".intercalate ((b :: bindings).map (bindingText (moduleName number))) ++ ";"
      refine ⟨_, (moduleText number specifier).toList, constants.toList, rfl, rfl, ?_, Or.inr ⟨number, rfl⟩⟩
      rw [← String.toList_append, Emission.text, List.map_nil, String.join_nil, String.append_empty]
  next bindings source _ heq =>
    cases heq
    cases h
    exact ⟨_, (moduleText number specifier).toList, _, rfl, rfl, String.toList_append, Or.inr ⟨number, rfl⟩⟩
  next exported source _ _ heq =>
    cases heq
    cases h
    exact ⟨_, (moduleText number specifier).toList, _, rfl, rfl, String.toList_append, Or.inr ⟨number, rfl⟩⟩
  next => cases h

/-- In the place of an import, a conversion writes the call. -/
theorem exists_requirement {source converted : String} (h : convert source = .ok (some converted)) :
    ∃ program, Program.parse? .module source.toList = some program ∧
      ∀ before n after specifier, program.body = before ++ n :: after → n.source? = some specifier →
        ∃ written back, converted.toList = frontOf source program before n ++ (written ++ back) ∧
          IsRequirement specifier written := by
  obtain ⟨program, hprogram, htext⟩ := convert_eq_ok h
  refine ⟨program, hprogram, fun before n after specifier hbody hsource => ?_⟩
  obtain ⟨e, written, more, hemissions, hspan, hwritten, hrequirement⟩ :=
    emissions_of_source? hsource (0 + constantsOf before)
  have hstart : (Emission.edit source.toList e).start = n.span.start := by
    rw [← hspan]
    rfl
  -- the new text of an edit has lines behind it that the old one had
  have hedit : (Emission.edit source.toList e).text.toList = written ++ (more ++ List.replicate
      (newlines (e.span.extract source.toList) - newlines e.text.toList) '\n') := by
    simp [Emission.edit, Edit.replace, hwritten]
  have hsplit : emissionsFrom 0 program.body =
      emissionsFrom 0 before ++ e :: emissionsFrom (0 + constantsOf before + constants n) after := by
    rw [hbody, emissionsFrom_append, emissionsFrom, hemissions]
    rfl
  rw [hsplit, List.map_append, List.map_cons, weave_append, hstart, hedit, ← List.append_assoc, List.append_assoc written]
    at htext
  exact ⟨written, _, htext, hrequirement⟩

theorem source?_of_statement {source : List Char} {p : Progress} {n : Node} (h : statement source p n = .ok none) :
    n.source? = none := by
  obtain ⟨kind, span, parts⟩ := n
  unfold Node.source?
  split
  next bindings _ _ _ heq =>
    cases heq
    cases bindings <;> cases h
  next bindings source _ heq =>
    cases heq
    cases source with
    | none => rfl
    | some source => cases h
  next heq =>
    cases heq
    cases h
  next => rfl

/-- A text is left as it is if it is no module, or no statement of it is an import. -/
theorem source?_of_convert {source : String} (h : convert source = .ok none) {program : Program}
    (hprogram : Program.parse? .module source.toList = some program) : ∀ n ∈ program.body, n.source? = none := by
  -- every statement that is rewritten is found
  have hfound : ∀ {ns : List Node} {p q : Progress} {found found' : Bool},
      statements source.toList p found ns = .ok (q, found') → found' = false →
        found = false ∧ ∀ n ∈ ns, n.source? = none := by
    intro ns
    induction ns with
    | nil =>
      intro p q found found' hrun hnot
      cases hrun
      exact ⟨hnot, by simp⟩
    | cons n ns ih =>
      intro p q found found' hrun hnot
      rw [statements] at hrun
      cases hn : statement source.toList p n with
      | error refusal =>
        rw [hn] at hrun
        cases hrun
      | ok r =>
        rw [hn] at hrun
        cases r with
        | some r => cases (ih hrun hnot).1
        | none =>
          obtain ⟨hfirst, hrest⟩ := ih hrun hnot
          exact ⟨hfirst, List.forall_mem_cons.mpr ⟨source?_of_statement hn, hrest⟩⟩
  unfold convert at h
  simp only [hprogram] at h
  cases hrun : statements source.toList ⟨[], [], 0⟩ false program.body with
  | error refusal =>
    rw [hrun] at h
    cases h
  | ok r =>
    obtain ⟨p, found⟩ := r
    rw [hrun] at h
    cases found with
    | true => cases h
    | false => exact (hfound hrun rfl).2

end CommonJs

end Script

/-! ## What is taken up -/

/-- A specifier is taken up: as a file, as something that is left to the host, or as a shim. -/
def Discovery.Requirements.Takes (r : Discovery.Requirements) (specifier : String) : Prop :=
  (r.paths.get? specifier).isSome = true ∨ r.externals.contains specifier = true ∨ r.shims.contains specifier = true

/-- A module takes up a specifier. -/
def Module.Takes (m : Module) (specifier : String) : Prop :=
  Discovery.Requirements.Takes ⟨m.dependencyPaths, m.externals, m.shims⟩ specifier

/-- Every module that a text imports from is taken up. -/
def Module.KeepsImports (m : Module) (source : String) : Prop :=
  ∀ text, Script.Program.parse? .script source.toList = some text →
    ∀ specifier ∈ text.imports, specifier ≠ "" → m.Takes specifier

namespace Discovery

open Linking Script

variable {d : Discovery} {trusted : Path → Prop}

/-- Taking up a specifier takes up no other one. -/
theorem meets_require_takes {file : Path} {r : Requirements} {done : List String} (h : ∀ s, r.Takes s ↔ s ∈ done)
    (specifier : String) : Meets trusted d.resolver.tree (d.require file r specifier)
      (Returns fun r' => ∀ s, r'.Takes s ↔ s ∈ done ++ [specifier]) := by
  have hmem : ∀ s, s ∈ done ++ [specifier] ↔ s = specifier ∨ r.Takes s := by
    intro s
    rw [List.mem_append, List.mem_singleton, or_comm, h s]
  simp only [hmem]
  unfold require
  split
  · refine Meets.returns_pure fun s => ?_
    simp only [Requirements.Takes, NameSet.contains_insert, Bool.or_eq_true, beq_iff_eq]
    grind
  · refine Meets.returns_pure fun s => ?_
    simp only [Requirements.Takes, NameSet.contains_insert, Bool.or_eq_true, beq_iff_eq]
    grind
  · refine Meets.bind (Resolver.steady_resolve specifier file) ?_ ?_
    · intro p _
      refine Meets.returns_pure fun s => ?_
      have hget : ((r.paths.insert specifier p).get? s).isSome = true ↔ s = specifier ∨ (r.paths.get? s).isSome = true := by
        rw [Table.get?_insert]
        split
        next heq => exact iff_of_true rfl (Or.inl (Std.LawfulEqOrd.eq_of_compare heq))
        next hne =>
          refine (or_iff_right ?_).symm
          rintro rfl
          exact hne Std.ReflOrd.compare_self
      simp only [Requirements.Takes, hget]
      grind
    · rintro e - r' ⟨⟩

/-- An analysis takes up what a script calls `require` with, and nothing else. -/
theorem meets_analysed_takes {m : Module} (hkind : m.kind = .js) :
    Meets trusted d.resolver.tree (d.analysed m) (Returns fun m' => m'.source = m.source ∧
      ∃ script, Program.parse? .script m.source.toList = some script ∧
        ∀ specifier, m'.Takes specifier ↔ script.Calls specifier) := by
  refine meets_analysed_of (I := fun done r => ∀ s, r.Takes s ↔ s ∈ done) ?_ ?_ ?_ ?_
  · intro s
    simp [Requirements.Takes]
  · exact fun done r specifier hr => meets_require_takes hr specifier
  · intro summary r _ hsummary hr
    refine ⟨rfl, ?_⟩
    unfold summaryOf Summary.parse? at hsummary
    cases hparse : Program.parse? .script m.source.toList with
    | none =>
      rw [hparse] at hsummary
      cases hsummary
    | some script =>
      rw [hparse] at hsummary
      cases hsummary
      exact ⟨script, rfl, fun specifier => (hr specifier).trans Summary.mem_dependencies_ofProgram⟩
  · exact fun hother => absurd hkind hother

/-! ## Files -/

/-- Where a file is, as it is found with the manifests that are remembered. -/
def Locates (d : Discovery) (s : Session) (file : Path) (l : BaseLocation) : Prop :=
  ∃ s₁ s₂, s₁.manifests = s.manifests ∧ (d.resolver.locate file true).runIn s₁ = (.ok l, s₂)

theorem exists_runIn_of_outcome {α : Type} {x : Linking α} {a : α} (h : x.outcome = .ok a) :
    ∃ s, x.runIn ⟨Table.empty, []⟩ = (.ok a, s) := ⟨_, Prod.ext h rfl⟩

theorem runIn_sourceOf (file : Path) (s : Session) : ((d.sourceOf file).runIn s).1 = (d.sourceOf file).outcome ∧
    ((d.sourceOf file).runIn s).2.manifests = s.manifests := by
  unfold outcome sourceOf
  simp only
  split
  · exact ⟨rfl, rfl⟩
  · split
    · exact ⟨rfl, rfl⟩
    · exact ⟨rfl, rfl⟩

/-- What the script of a file is: its text, or what this is converted to. -/
inductive Scripted (d : Discovery) (l : BaseLocation) (source : String) : String → Prop
  | kept (h : d.transpile = true → l.modular = true → CommonJs.convert source = .ok none) : Scripted d l source source
  | converted {script : String} (htarget : d.transpile = true) (hmodular : l.modular = true)
      (h : CommonJs.convert source = .ok (some script)) : Scripted d l source script

theorem scripted_of_runIn {file : Path} {l : BaseLocation} {source script : String} {s s' : Session}
    (h : (d.scriptOf file .js l source).runIn s = (.ok script, s')) : Scripted d l source script := by
  unfold scriptOf at h
  split at h
  next hcond =>
    simp only [Bool.and_eq_true] at hcond
    cases hconvert : CommonJs.convert source with
    | error refusal =>
      rw [hconvert] at h
      cases h
    | ok converted =>
      rw [hconvert] at h
      cases converted with
      | none =>
        cases h
        exact .kept fun _ _ => hconvert
      | some script =>
        cases h
        exact .converted hcond.1.1 hcond.1.2 hconvert
  next hcond =>
    cases h
    refine .kept fun htarget hmodular => absurd ?_ hcond
    simp [htarget, hmodular]

/-- How a script is opened. -/
theorem opened_cases {file : Path} {m : Module} {s s' : Session} (hkind : ModuleKind.ofPath? file = some .js)
    (h : (d.opened file).runIn s = (.ok m, s')) : ∃ source l, (d.sourceOf file).outcome = .ok source ∧
      d.Locates s file l ∧ Scripted d l source m.source ∧ m.kind = .js := by
  unfold opened at h
  simp only [hkind] at h
  obtain ⟨source, s₁, hsource, h⟩ := exists_of_runIn_bind h
  obtain ⟨houtcome, hmanifests⟩ := runIn_sourceOf (d := d) file s
  rw [hsource] at houtcome hmanifests
  unfold moduleOf at h
  obtain ⟨l, s₂, hlocate, h⟩ := exists_of_runIn_bind h
  obtain ⟨script, s₃, hscript, h⟩ := exists_of_runIn_bind h
  cases h
  exact ⟨source, l, houtcome.symm, ⟨s₁, s₂, hmanifests, hlocate⟩, scripted_of_runIn hscript, rfl⟩

/-- A file of which nothing is recalled requires what its script calls `require` with. An import of the file is kept
if and only if the script calls it. The script is the text of the file, if this is no module or imports nothing as one;
otherwise it has a call in the place of each import, and an import is kept if a statement of the script starts there. -/
theorem imports_kept_iff {file : Path} {m : Module} {s s' : Session} (hkind : ModuleKind.ofPath? file = some .js)
    (hnew : d.cache.get? file = none) (hrun : (d.module file).runIn s = (.ok m, s')) :
    ∃ source l script, (d.sourceOf file).outcome = .ok source ∧ d.Locates s file l ∧
      Program.parse? .script m.source.toList = some script ∧
      (∀ specifier, m.Takes specifier ↔ script.Calls specifier) ∧
      (m.KeepsImports source ↔ ∀ text, Program.parse? .script source.toList = some text →
        ∀ specifier ∈ text.imports, specifier ≠ "" → script.Calls specifier) ∧
      (d.transpile = true → l.modular = true →
        (CommonJs.convert source = .ok none ∧ m.source = source ∧
          ∀ program, Program.parse? .module source.toList = some program → ∀ n ∈ program.body, n.source? = none) ∨
        CommonJs.convert source = .ok (some m.source) ∧
          ∃ program, Program.parse? .module source.toList = some program ∧
            ∀ before n after specifier, program.body = before ++ n :: after → n.source? = some specifier →
              ∃ written back, m.source.toList = CommonJs.frontOf source program before n ++ (written ++ back) ∧
                CommonJs.IsRequirement specifier written ∧
                (specifier ≠ "" → ∀ x ∈ script.body,
                  x.span.start = byteLength (CommonJs.frontOf source program before n) → m.Takes specifier)) := by
  unfold module at hrun
  obtain ⟨m₀, s₁, hopened, hrun⟩ := exists_of_runIn_bind hrun
  obtain ⟨source, l, hsource, hlocates, hscripted, hjs⟩ := opened_cases hkind hopened
  simp only [hnew, Option.filter_none] at hrun
  have hanalysed := (@meets_analysed_takes d (fun _ => False) m₀ hjs s₁
    (fits_of_forall_not (fun _ => id) _ _)).1 m (congrArg Prod.fst hrun)
  obtain ⟨hsame, script, hscript, htakes⟩ := hanalysed
  rw [← hsame] at hscript hscripted
  refine ⟨source, l, script, hsource, hlocates, hscript, htakes, ?_, fun htarget hmodular => ?_⟩
  · unfold Module.KeepsImports
    simp only [htakes]
  · generalize hm : m.source = converted at hscripted hscript ⊢
    cases hscripted with
    | kept h =>
      have hconvert := h htarget hmodular
      exact Or.inl ⟨hconvert, rfl, fun program => CommonJs.source?_of_convert hconvert⟩
    | converted _ _ hconvert =>
      obtain ⟨program, hprogram, hwrites⟩ := CommonJs.exists_requirement hconvert
      refine Or.inr ⟨hconvert, program, hprogram, fun before n after specifier hbody hn => ?_⟩
      obtain ⟨written, back, htext, hwritten⟩ := hwrites before n after specifier hbody hn
      refine ⟨written, back, htext, hwritten, fun hne x hx hstart => ?_⟩
      rw [htext] at hscript
      exact (htakes specifier).mpr ⟨x, hx, Program.calls_of_start hne hscript hwritten hx hstart⟩

/-- A script whose specifiers can be required one by one is analysed. -/
theorem exists_analysed_of_required {m : Module} {summary : Summary} {r : Requirements} (hkind : m.kind = .js)
    (h : Summary.parse? m.source = some summary)
    (hr : (summary.dependencies.foldlM (d.require m.file) ⟨Table.empty, .empty, .empty⟩).outcome = .ok r) :
    ∃ m', (d.analysed m).outcome = .ok m' := by
  have hsummary : summaryOf m.file m.source = .ok summary := by
    unfold summaryOf
    rw [h]
  unfold analysed
  rw [if_pos (beq_iff_eq.mpr hkind), hsummary]
  exact ⟨_, (outcome_bind_pure ..).trans (congrArg _ hr)⟩

/-- The parts of the outcome of a script of which nothing is recalled. -/
theorem outcome_module {file : Path} (hkind : ModuleKind.ofPath? file = some .js) (hnew : d.cache.get? file = none) :
    (d.module file).outcome = (d.sourceOf file).outcome.bind fun source =>
      (d.resolver.locate file true).outcome.bind fun l => (d.scriptOf file .js l source).outcome.bind fun script =>
        (d.analysed ⟨file, l.base, l.basePath, l.canonical, Digest.ofText source, true, .js, script, none,
          Table.empty, Table.empty, .empty, .empty⟩).outcome := by
  have hsource : Steady (fun _ => True) d.resolver.tree True (d.sourceOf file) := steady_sourceOf file
  have hlocate : Steady (fun _ => True) d.resolver.tree True (d.resolver.locate file true) :=
    (Resolver.steady_locate file true).mono fun _ _ _ => trivial
  have hscript (l : BaseLocation) (source : String) :
      Steady (fun _ => True) d.resolver.tree True (d.scriptOf file .js l source) := steady_scriptOf file .js l source
  have hanalysed (m : Module) : Steady (fun _ => True) d.resolver.tree True (d.analysed m) :=
    (steady_analysed m).mono fun _ _ => trivial
  have hmodule : d.module file = (d.sourceOf file >>= fun source => d.resolver.locate file true >>= fun l =>
      d.scriptOf file .js l source >>= fun script =>
        d.analysed ⟨file, l.base, l.basePath, l.canonical, Digest.ofText source, true, .js, script, none,
          Table.empty, Table.empty, .empty, .empty⟩) := by
    unfold module opened moduleOf
    simp [hkind, hnew]
  rw [hmodule, outcome_bind trivial hsource fun source _ => hlocate.bind fun l => (hscript l source).bind fun _ => hanalysed _]
  refine congrArg _ (funext fun source => ?_)
  rw [outcome_bind trivial hlocate fun l _ => (hscript l source).bind fun _ => hanalysed _]
  exact congrArg _ (funext fun l => outcome_bind trivial (hscript l source) fun _ _ => hanalysed _)

/-- A discovery for a target, in which a script with a text has a module beside it. -/
def importing (text : String) : Discovery where
  resolver := {
    tree := .ofTexts ["work"] [["work"], ["work", "src"]] [
      (["work", "src", "main.js"], text), (["work", "src", "a.js"], "exports.a = 1;\n")]
    bases := [⟨"/work/src"⟩], target := some .es2017, exports := [] }
  policy := ⟨[], [], [], fun _ => false⟩
  cache := .empty Config.default.settings
  excludes := []
  overrides := Table.empty
  transpile := true

/-- The file of the script. -/
def importingFile : Path := ⟨"/work/src/main.js"⟩

/-- A text that imports the module. -/
def importText : String := "import a from \"./a\";\na;\n"

/-- What the text is converted to. -/
def importScript : String :=
  "Object.defineProperty(exports, \"__esModule\", \x7b value: true \x7d); const __import_0 = require(\"./a\"); " ++
    "const a = __import_0 && __import_0.__esModule ? __import_0.default : __import_0;\na;\n"

open CommonJs in
set_option maxRecDepth 4000 in
theorem convert_importText : convert importText = .ok (some importScript) := by
  obtain ⟨converted, ⟨body, comments⟩, hconvert, hprogram, hkinds, hspans, hfront, hlines, hback⟩ :=
    @exists_converted_of_check importText (fun cs program =>
      program.body.map Node.kind = [.importDeclaration [⟨.default, "a"⟩] "./a", .expressionStatement] ∧
        program.body.map Node.span = [⟨0, 20⟩, ⟨21, 23⟩] ∧ Span.extract ⟨0, 0⟩ cs = [] ∧
        newlines (Span.extract ⟨0, 20⟩ cs) = 0 ∧ Span.extract ⟨20, byteLength cs⟩ cs = ['\n', 'a', ';', '\n']) _
      ⟨_, String.toList_ofList, by decide +kernel⟩
  obtain ⟨_, hprogram', htext⟩ := convert_eq_ok hconvert
  cases hprogram.symm.trans hprogram'
  obtain ⟨⟨_, span, parts⟩, _, rfl, rfl, htail⟩ := List.map_eq_cons_iff.mp hkinds
  obtain ⟨⟨_, span', parts'⟩, _, rfl, rfl, hnil⟩ := List.map_eq_cons_iff.mp htail
  cases List.map_eq_nil_iff.mp hnil
  obtain ⟨rfl, rfl⟩ : span = ⟨0, 20⟩ ∧ span' = ⟨21, 23⟩ := by simpa [Node.span] using hspans
  have hown : ([.mk (.importDeclaration [⟨.default, "a"⟩] "./a") ⟨0, 20⟩ parts,
      .mk .expressionStatement ⟨21, 23⟩ parts'] : List Node).flatMap ownExports = [] := rfl
  have hedits : (emissionsFrom 0 [.mk (.importDeclaration [⟨.default, "a"⟩] "./a") ⟨0, 20⟩ parts,
      .mk .expressionStatement ⟨21, 23⟩ parts']).map (Emission.edit importText.toList) =
        [⟨0, 20, moduleText 0 "./a" ++ (" const " ++ bindingText (moduleName 0) ⟨.default, "a"⟩ ++ ";")⟩] := by
    show [Emission.edit importText.toList ⟨_, _, _⟩] = _
    simp [Emission.edit, Edit.replace, Emission.text, hlines]
  have hend : ['\n', 'a', ';', '\n'] = "\na;\n".toList := by decide
  rw [hown, hedits, weave, weave, hfront, hback, List.nil_append, hend, ← String.toList_append,
    ← String.toList_append] at htext
  -- the texts are compared as they are, not by their characters
  rw [hconvert, String.toList_inj.mp htext]
  rfl

/-- The import stands behind the prologue when the text is converted. -/
theorem exists_importText : ∃ program, Program.parse? .module importText.toList = some program ∧
    ∃ n after, program.body = n :: after ∧ n.source? = some "./a" ∧
      byteLength (CommonJs.frontOf importText program [] n) = 63 := by
  have hcheck : ∃ cs, importText.toList = cs ∧ ((Program.parse? .module cs).any fun program : Program =>
      program.body.head?.any fun n => decide (n.source? = some "./a" ∧
        byteLength (CommonJs.frontOf importText program [] n) = 63)) = true :=
    ⟨_, String.toList_ofList, by decide +kernel⟩
  obtain ⟨program, hprogram, hcheck⟩ := Program.exists_of_check hcheck
  obtain ⟨n, hhead, hn⟩ := (Option.any_eq_true _ _).mp hcheck
  obtain ⟨after, hbody⟩ := List.head?_eq_some_iff.mp hhead
  exact ⟨program, hprogram, n, after, hbody, of_decide_eq_true hn⟩

/-- A statement of the script starts behind the prologue, and all that the script requires is the module. -/
theorem exists_importScript : ∃ script, Program.parse? .script importScript.toList = some script ∧
    (Summary.ofProgram script).dependencies = ["./a"] ∧ ∃ x ∈ script.body, x.span.start = 63 := by
  have hcheck : ∃ cs, importScript.toList = cs ∧ ((Program.parse? .script cs).any fun script : Program =>
      decide ((Summary.ofProgram script).dependencies = ["./a"] ∧ ∃ x ∈ script.body, x.span.start = 63)) = true :=
    ⟨_, (String.toList_append ..).trans (congrArg₂ _ String.toList_ofList String.toList_ofList), by decide +kernel⟩
  obtain ⟨script, hscript, hcheck⟩ := Program.exists_of_check hcheck
  exact ⟨script, hscript, of_decide_eq_true hcheck⟩

/-- The import of the text is kept: a statement of the script starts where the call is written. -/
theorem import_kept_of_importText : ∃ (m : Module) (s : Session),
    ((importing importText).module importingFile).runIn ⟨Table.empty, []⟩ = (.ok m, s) ∧
      CommonJs.convert importText = .ok (some m.source) ∧ m.Takes "./a" := by
  have hkind : ModuleKind.ofPath? importingFile = some .js := by decide +kernel
  have hnew : (importing importText).cache.get? importingFile = none := rfl
  have hsource : ((importing importText).sourceOf importingFile).outcome = .ok importText := by decide +kernel
  -- the run, in which the conversion is replaced by the text that it gives
  have hlocate : ((importing importText).resolver.locate importingFile true).outcome.toOption.any (·.modular) = true := by
    decide +kernel
  have hrequire : ((importing importText).require importingFile ⟨Table.empty, .empty, .empty⟩ "./a").outcome.toOption.any
      (fun _ => true) = true := by
    decide +kernel
  obtain ⟨program, hprogram, n, after, hbody, hn, hfront⟩ := exists_importText
  obtain ⟨script, hscript, hdependencies, x, hx, hstart⟩ := exists_importScript
  obtain ⟨l, hl, hmodular⟩ := exists_of_any hlocate
  obtain ⟨r, hr, -⟩ := exists_of_any hrequire
  obtain ⟨m, hm⟩ : ∃ m, ((importing importText).analysed ⟨importingFile, l.base, l.basePath, l.canonical,
      Digest.ofText importText, true, .js, importScript, none, Table.empty, Table.empty, .empty, .empty⟩).outcome = .ok m := by
    have hsummary : Summary.parse? importScript = some (Summary.ofProgram script) :=
      Option.map_eq_some_iff.mpr ⟨script, hscript, rfl⟩
    have hrequired : ((Summary.ofProgram script).dependencies.foldlM ((importing importText).require importingFile)
        ⟨Table.empty, .empty, .empty⟩).outcome = .ok r := by
      rw [hdependencies, List.foldlM_cons]
      exact (outcome_bind_pure ..).trans (congrArg _ hr)
    exact @exists_analysed_of_required _ ⟨importingFile, l.base, l.basePath, l.canonical, Digest.ofText importText, true, .js,
      importScript, none, Table.empty, Table.empty, .empty, .empty⟩ _ r rfl hsummary hrequired
  have hconverted : ((importing importText).scriptOf importingFile .js l importText).outcome = .ok importScript := by
    unfold scriptOf
    simp only [hmodular, convert_importText]
    rfl
  have hmodule := outcome_module hkind hnew
  rw [hsource, Except.bind, hl, Except.bind, hconverted, Except.bind, hm] at hmodule
  obtain ⟨s, hrun⟩ := exists_runIn_of_outcome hmodule
  refine ⟨m, s, hrun, ?_⟩
  obtain ⟨source, l', script', hsource', ⟨s₁, s₂, hs₁, hl'⟩, hscript', -, -, hcases⟩ := imports_kept_iff hkind hnew hrun
  cases hsource.symm.trans hsource'
  have hsteady : Steady (fun _ => True) (importing importText).resolver.tree True
      ((importing importText).resolver.locate importingFile true) :=
    (Resolver.steady_locate importingFile true).mono fun _ _ _ => trivial
  have hsame := (hsteady s₁ (hs₁ ▸ fits_empty _ _)).1 trivial
  rw [hl', hl] at hsame
  cases hsame
  rcases hcases rfl hmodular with ⟨hnone, -, -⟩ | ⟨hconvert, program', hprogram', hkeeps⟩
  · rw [convert_importText] at hnone
    cases hnone
  refine ⟨hconvert, ?_⟩
  have hscripted : m.source = importScript :=
    Option.some.inj (Except.ok.inj (hconvert.symm.trans convert_importText))
  rw [hscripted] at hscript'
  obtain rfl : program = program' := Option.some_inj.mp (hprogram.symm.trans hprogram')
  obtain rfl : script = script' := Option.some_inj.mp (hscript.symm.trans hscript')
  -- the second statement of the script, behind the definition of the prologue, is the call
  obtain ⟨-, -, -, -, htakes⟩ := hkeeps [] n after "./a" hbody hn
  exact htakes (by decide) x hx (hstart.trans hfront.symm)

/-- A text that imports the module and declares a name that modules reserve. -/
def reservedText : String := "import a from \"./a\";\nvar await = a;\n"

/-- An import can be lost: a text with a name that modules reserve is no module, so it is not converted, and as a script
it is read without a complaint. -/
theorem exists_lost_import : ∃ (m : Module) (l : BaseLocation) (s : Session),
    ((importing reservedText).module importingFile).runIn ⟨Table.empty, []⟩ = (.ok m, s) ∧
      ((importing reservedText).sourceOf importingFile).outcome = .ok reservedText ∧
      (importing reservedText).Locates ⟨Table.empty, []⟩ importingFile l ∧ l.modular = true ∧
      ¬m.KeepsImports reservedText := by
  have hmodule : ((importing reservedText).module importingFile).outcome.toOption.any (fun m =>
      (m.dependencyPaths.get? "./a").isNone && !m.externals.contains "./a" && !m.shims.contains "./a") = true := by
    decide +kernel
  have hsource : ((importing reservedText).sourceOf importingFile).outcome = .ok reservedText := by decide +kernel
  have hlocate : ((importing reservedText).resolver.locate importingFile true).outcome.toOption.any (·.modular) = true := by
    decide +kernel
  have himports : (Program.parse? .script reservedText.toList).any (·.imports.contains "./a") = true := by
    decide +kernel
  obtain ⟨m, hm, hnone⟩ := exists_of_any hmodule
  obtain ⟨l, hl, hmodular⟩ := exists_of_any hlocate
  obtain ⟨text, htext, hmem⟩ := (Option.any_eq_true _ _).mp himports
  obtain ⟨s, hm⟩ := exists_runIn_of_outcome hm
  obtain ⟨s', hl⟩ := exists_runIn_of_outcome hl
  refine ⟨m, l, s, hm, hsource, ⟨⟨Table.empty, []⟩, s', rfl, hl⟩, hmodular, fun hkeeps => ?_⟩
  have htakes := hkeeps text htext "./a" (List.contains_iff_mem.mp hmem) (by decide)
  simp only [Bool.and_eq_true, Bool.not_eq_true', Option.isNone_iff_eq_none] at hnone
  simp [Module.Takes, Requirements.Takes, hnone] at htakes

end Discovery

end Relink
