import Relink.Proofs.Conversion

/-!
# Running the definitions of a converted module

The definitions in the text of a converted module are run in their order. A property that is defined stays as it is,
and to define it once more is an error. The loop of an `export *` leaves out the names that are defined by then.

* `Definition.run` — what a definition does to the properties of `exports`.
* `run_eq_some_iff` — no property is defined twice if no two definitions are of one name, and no copied name is
  defined later.
* `explicit_exports_iff` — when all explicit exports are there.
-/

namespace Relink.Script.CommonJs

/-! ## Properties -/

/-- The properties of `exports` with what they read. -/
abbrev Properties := List (String × Reading)

namespace Properties

/-- Defines a property, which must not be there. -/
def define (es : Properties) (name : String) (r : Reading) : Option Properties :=
  if (es.lookup name).isSome then none else some (es ++ [(name, r)])

/-- Copies a name of a required module, unless it is that of the default or there is such a property. -/
def copyName (number : Nat) (es : Properties) (name : String) : Properties :=
  if name = "default" then es else (es.define name (.required number (some name))).getD es

end Properties

namespace Definition

/-- What a definition does to the properties of `exports`, when the required modules have the given names. In an
object literal, a property `__proto__` is no property. -/
def run (keys : Nat → List String) (es : Properties) : Definition → Option Properties
  | .marker => es.define "__esModule" .mark
  | .table getters => (getters.filter fun g => g.1 ≠ "__proto__").foldlM (fun es g => es.define g.1 (.own g.2)) es
  | .getter name number member => es.define name (.required number member)
  | .copy number => some ((keys number).foldl (Properties.copyName number) es)
  | .assignment => es.define "default" .result

/-- The properties that a definition is about. -/
def properties : Definition → Properties
  | .marker => [("__esModule", .mark)]
  | .table getters => (getters.filter fun g => g.1 ≠ "__proto__").map fun g => (g.1, .own g.2)
  | .getter name number member => [(name, .required number member)]
  | .copy _ => []
  | .assignment => [("default", .result)]

/-- A loop copies a name that a later definition is about. -/
def Hides (keys : Nat → List String) (d d' : Definition) : Prop :=
  ∃ number, d = .copy number ∧ ∃ name ∈ keys number, name ≠ "default" ∧ name ∈ d'.properties.map Prod.fst

instance (keys : Nat → List String) (d d' : Definition) : Decidable (d.Hides keys d') :=
  match d with
  | .copy number =>
    decidable_of_iff (∃ name ∈ keys number, name ≠ "default" ∧ name ∈ d'.properties.map Prod.fst)
      ⟨fun h => ⟨number, rfl, h⟩, fun ⟨_, hnumber, h⟩ => Definition.copy.inj hnumber ▸ h⟩
  | .marker | .table _ | .getter _ _ _ | .assignment => isFalse fun ⟨_, hcopy, _⟩ => nomatch hcopy

end Definition

/-- Runs definitions in their order. -/
def run (keys : Nat → List String) (ds : List Definition) : Option Properties :=
  ds.foldlM (Definition.run keys) []

/-! ## Steps -/

variable {keys : Nat → List String}

namespace Properties

variable {es es' : Properties} {name : String} {r : Reading}

theorem define_eq_some : es.define name r = some es' ↔ es.lookup name = none ∧ es' = es ++ [(name, r)] := by
  unfold define
  cases es.lookup name with
  | none => simp only [Option.isSome_none, Bool.false_eq_true, if_false, Option.some.injEq, true_and, eq_comm]
  | some r' => simp only [Option.isSome_some, if_true, reduceCtorEq, false_and]

/-- Properties that are there stay as they are. -/
theorem lookup_append_of_some {ps : Properties} (h : es.lookup name = some r) : (es ++ ps).lookup name = some r := by
  rw [List.lookup_append, h, Option.some_or]

theorem lookup_append_of_none {ps : Properties} (h : es.lookup name = none) : (es ++ ps).lookup name = ps.lookup name := by
  rw [List.lookup_append, h, Option.none_or]

theorem lookup_concat (h : es.lookup name = none) : (es ++ [(name, r)]).lookup name = some r := by
  rw [lookup_append_of_none h, List.lookup_cons_self]

/-- Several properties are defined if none of them is there, and no two are of one name. -/
theorem foldlM_define {ps : Properties} : ps.foldlM (fun es p => es.define p.1 p.2) es = some es' ↔
    (ps.map Prod.fst).Nodup ∧ (∀ p ∈ ps, es.lookup p.1 = none) ∧ es' = es ++ ps := by
  induction ps generalizing es with
  | nil =>
    constructor
    · rintro ⟨⟩
      simp
    · rintro ⟨-, -, rfl⟩
      simp
  | cons p ps ih =>
    rw [List.foldlM_cons, Option.bind_eq_bind, Option.bind_eq_some_iff]
    constructor
    · rintro ⟨es₁, hdefine, hfold⟩
      obtain ⟨hfresh, rfl⟩ := define_eq_some.mp hdefine
      obtain ⟨hnodup, hrest, rfl⟩ := ih.mp hfold
      refine ⟨List.nodup_cons.mpr ⟨?_, hnodup⟩, ?_, by simp⟩
      · intro hmem
        obtain ⟨q, hq, hname⟩ := List.mem_map.mp hmem
        have hlookup := hrest q hq
        rw [hname, lookup_concat hfresh] at hlookup
        cases hlookup
      · intro q hq
        rcases List.mem_cons.mp hq with rfl | hq
        · exact hfresh
        · have hlookup := hrest q hq
          rw [List.lookup_append, Option.or_eq_none_iff] at hlookup
          exact hlookup.1
    · rintro ⟨hnodup, hfresh, rfl⟩
      obtain ⟨hp, hnodup⟩ := List.nodup_cons.mp hnodup
      obtain ⟨hfirst, hrest⟩ := List.forall_mem_cons.mp hfresh
      refine ⟨_, define_eq_some.mpr ⟨hfirst, rfl⟩, ih.mpr ⟨hnodup, ?_, by simp⟩⟩
      intro q hq
      have hne : (q.1 == p.1) = false := by
        rw [beq_eq_false_iff_ne]
        rintro heq
        exact hp (heq ▸ List.mem_map_of_mem hq)
      rw [lookup_append_of_none (hrest q hq), List.lookup_cons, hne, List.lookup_nil]

/-- A loop leaves what is there, and copies the other names but that of the default. -/
theorem foldl_copyName (number : Nat) (names : List String) (es : Properties) :
    ∃ ps : Properties, names.foldl (copyName number) es = es ++ ps ∧
      (∀ p ∈ ps, p.1 ∈ names ∧ p.1 ≠ "default" ∧ p.2 = .required number (some p.1)) ∧
      ∀ name ∈ names, name ≠ "default" → (es ++ ps).lookup name ≠ none := by
  induction names generalizing es with
  | nil => exact ⟨[], by simp⟩
  | cons name names ih =>
    rw [List.foldl_cons]
    by_cases hdefault : name = "default"
    · have hstep : copyName number es name = es := by
        rw [copyName, if_pos hdefault]
      obtain ⟨ps, hps, hcopied, hall⟩ := ih es
      refine ⟨ps, by rw [hstep, hps], ?_, ?_⟩
      · intro p hp
        exact ⟨List.mem_cons_of_mem _ (hcopied p hp).1, (hcopied p hp).2⟩
      · intro name' hname' hne
        rcases List.mem_cons.mp hname' with rfl | hname'
        · exact absurd hdefault hne
        · exact hall name' hname' hne
    cases hlookup : es.lookup name with
    | some r =>
      have hstep : copyName number es name = es := by
        rw [copyName, if_neg hdefault, define, hlookup, Option.isSome_some, if_pos rfl, Option.getD_none]
      obtain ⟨ps, hps, hcopied, hall⟩ := ih es
      refine ⟨ps, by rw [hstep, hps], ?_, ?_⟩
      · intro p hp
        exact ⟨List.mem_cons_of_mem _ (hcopied p hp).1, (hcopied p hp).2⟩
      · intro name' hname' hne
        rcases List.mem_cons.mp hname' with rfl | hname'
        · rw [lookup_append_of_some hlookup]
          exact Option.some_ne_none _
        · exact hall name' hname' hne
    | none =>
      have hstep : copyName number es name = es ++ [(name, .required number (some name))] := by
        rw [copyName, if_neg hdefault, define_eq_some.mpr ⟨hlookup, rfl⟩, Option.getD_some]
      obtain ⟨ps, hps, hcopied, hall⟩ := ih (es ++ [(name, .required number (some name))])
      rw [List.append_assoc] at hps hall
      refine ⟨[(name, .required number (some name))] ++ ps, by rw [hstep, hps], ?_, ?_⟩
      · intro p hp
        rcases List.mem_append.mp hp with hp | hp
        · cases List.mem_singleton.mp hp
          exact ⟨List.mem_cons_self, hdefault, rfl⟩
        · exact ⟨List.mem_cons_of_mem _ (hcopied p hp).1, (hcopied p hp).2⟩
      · intro name' hname' hne
        rcases List.mem_cons.mp hname' with rfl | hname'
        · rw [← List.append_assoc, lookup_append_of_some (lookup_concat hlookup)]
          exact Option.some_ne_none _
        · exact hall name' hname' hne

end Properties

namespace Definition

variable {d : Definition} {es es' : Properties}

/-- All definitions but loops define the properties that they are about. -/
theorem run_eq (d : Definition) (es : Properties) : d.run keys es =
    match d with
    | .copy number => some ((keys number).foldl (Properties.copyName number) es)
    | d => d.properties.foldlM (fun es p => es.define p.1 p.2) es := by
  cases d with
  | copy number => rfl
  | table getters => simp only [run, properties, List.foldlM_map]
  | marker | assignment | getter => simp [run, properties]

/-- What a definition does that succeeds. -/
structure Adds (keys : Nat → List String) (d : Definition) (es es' : Properties) : Prop where
  kept : ∀ name r, es.lookup name = some r → es'.lookup name = some r
  defined : ∀ p ∈ d.properties, es'.lookup p.1 = some p.2
  copied : ∀ number, d = .copy number → ∀ name ∈ keys number, name ≠ "default" → es'.lookup name ≠ none
  only : ∀ name, es.lookup name = none → es'.lookup name ≠ none →
    name ∈ d.properties.map Prod.fst ∨ ∃ number, d = .copy number ∧ name ∈ keys number ∧ name ≠ "default"
  own : ∀ name x, es'.lookup name = some (.own x) → es.lookup name = some (.own x) ∨ (name, .own x) ∈ d.properties

theorem lookup_of_mem {ps : Properties} (h : (ps.map Prod.fst).Nodup) {p : String × Reading} (hp : p ∈ ps) :
    ps.lookup p.1 = some p.2 := by
  induction ps with
  | nil => cases hp
  | cons q ps ih =>
    obtain ⟨hq, hps⟩ := List.nodup_cons.mp h
    rcases List.mem_cons.mp hp with rfl | hp
    · exact List.lookup_cons_self
    · have hne : (p.1 == q.1) = false := by
        rw [beq_eq_false_iff_ne]
        rintro heq
        exact hq (heq ▸ List.mem_map_of_mem hp)
      rw [List.lookup_cons, hne]
      exact ih hps hp

theorem mem_of_lookup {ps : Properties} {name : String} {r : Reading} (h : ps.lookup name = some r) : (name, r) ∈ ps := by
  obtain ⟨front, back, rfl, -⟩ := List.lookup_eq_some_iff.mp h
  simp

/-- A definition succeeds if none of the properties that it is about is there, and no two are of one name. -/
theorem exists_run_iff : (∃ es', d.run keys es = some es') ↔
    (d.properties.map Prod.fst).Nodup ∧ ∀ p ∈ d.properties, es.lookup p.1 = none := by
  rw [run_eq]
  split
  · simp [properties]
  · constructor
    · rintro ⟨es', h⟩
      obtain ⟨hnodup, hfresh, -⟩ := Properties.foldlM_define.mp h
      exact ⟨hnodup, hfresh⟩
    · rintro ⟨hnodup, hfresh⟩
      exact ⟨_, Properties.foldlM_define.mpr ⟨hnodup, hfresh, rfl⟩⟩

/-- What a definition does that succeeds. -/
theorem adds_of_run (h : d.run keys es = some es') : d.Adds keys es es' := by
  rw [run_eq] at h
  split at h
  next number =>
    cases h
    obtain ⟨ps, hps, hcopied, hall⟩ := Properties.foldl_copyName number (keys number) es
    rw [hps]
    refine ⟨fun name r hlookup => Properties.lookup_append_of_some hlookup, by simp [properties], ?_, ?_, ?_⟩
    · rintro number' ⟨⟩
      exact hall
    · intro name hnone hsome
      rw [Properties.lookup_append_of_none hnone] at hsome
      obtain ⟨r, hr⟩ := Option.ne_none_iff_exists'.mp hsome
      obtain ⟨hname, hdefault, -⟩ := hcopied _ (mem_of_lookup hr)
      exact Or.inr ⟨number, rfl, hname, hdefault⟩
    · intro name x hx
      cases hlookup : es.lookup name with
      | some r =>
        rw [Properties.lookup_append_of_some hlookup] at hx
        exact Or.inl hx
      | none =>
        rw [Properties.lookup_append_of_none hlookup] at hx
        obtain ⟨-, -, hreading⟩ := hcopied _ (mem_of_lookup hx)
        cases hreading
  next hcopy =>
    obtain ⟨hnodup, hfresh, rfl⟩ := Properties.foldlM_define.mp h
    refine ⟨fun name r hlookup => Properties.lookup_append_of_some hlookup, ?_, ?_, ?_, ?_⟩
    · intro p hp
      rw [Properties.lookup_append_of_none (hfresh p hp)]
      exact lookup_of_mem hnodup hp
    · rintro number rfl
      exact absurd rfl (hcopy number)
    · intro name hnone hsome
      rw [Properties.lookup_append_of_none hnone] at hsome
      obtain ⟨r, hr⟩ := Option.ne_none_iff_exists'.mp hsome
      exact Or.inl (List.mem_map_of_mem (mem_of_lookup hr))
    · intro name x hx
      cases hlookup : es.lookup name with
      | some r =>
        rw [Properties.lookup_append_of_some hlookup] at hx
        exact Or.inl hx
      | none =>
        rw [Properties.lookup_append_of_none hlookup] at hx
        exact Or.inr (mem_of_lookup hx)

end Definition

/-! ## Runs -/

section Runs

open Definition

variable {ds : List Definition} {es es' : Properties}

/-- Definitions succeed if no two are about one name, none of their names is there, and no copied name is defined
later. -/
theorem exists_foldlM_iff : (∃ es', ds.foldlM (Definition.run keys) es = some es') ↔
    ((ds.flatMap properties).map Prod.fst).Nodup ∧ (∀ p ∈ ds.flatMap properties, es.lookup p.1 = none) ∧
      ds.Pairwise fun d d' => ¬d.Hides keys d' := by
  induction ds generalizing es with
  | nil => simp
  | cons d ds ih =>
    have hsplit : (∃ es', (d :: ds).foldlM (Definition.run keys) es = some es') ↔
        ∃ es₁, d.run keys es = some es₁ ∧ ∃ es', ds.foldlM (Definition.run keys) es₁ = some es' := by
      simp only [List.foldlM_cons, Option.bind_eq_bind, Option.bind_eq_some_iff]
      exact ⟨fun ⟨es', es₁, hd, hds⟩ => ⟨es₁, hd, es', hds⟩, fun ⟨es₁, hd, es', hds⟩ => ⟨es', es₁, hd, hds⟩⟩
    rw [hsplit, List.flatMap_cons, List.map_append, List.nodup_append', List.pairwise_cons]
    constructor
    · rintro ⟨es₁, hd, hds⟩
      obtain ⟨hnodup, hfresh⟩ := exists_run_iff.mp ⟨es₁, hd⟩
      obtain ⟨hrestNodup, hrestFresh, hrestHides⟩ := ih.mp hds
      have hadds := adds_of_run hd
      refine ⟨⟨hnodup, hrestNodup, ?_⟩, ?_, ?_, hrestHides⟩
      · rintro name hname hname'
        obtain ⟨p, hp, rfl⟩ := List.mem_map.mp hname
        obtain ⟨q, hq, hqp⟩ := List.mem_map.mp hname'
        have hnone := hrestFresh q hq
        rw [hqp, hadds.defined p hp] at hnone
        cases hnone
      · intro p hp
        rcases List.mem_append.mp hp with hp | hp
        · exact hfresh p hp
        · cases hlookup : es.lookup p.1 with
          | none => rfl
          | some r =>
            have hnone := hrestFresh p hp
            rw [hadds.kept _ r hlookup] at hnone
            cases hnone
      · rintro d' hd' ⟨number, hcopy, name, hname, hdefault, hmem⟩
        obtain ⟨p, hp, rfl⟩ := List.mem_map.mp hmem
        exact hadds.copied number hcopy _ hname hdefault (hrestFresh p (List.mem_flatMap.mpr ⟨d', hd', hp⟩))
    · rintro ⟨⟨hnodup, hrestNodup, hdisjoint⟩, hfresh, hhides, hrestHides⟩
      obtain ⟨es₁, hd⟩ := exists_run_iff.mpr ⟨hnodup, fun p hp => hfresh p (List.mem_append_left _ hp)⟩
      have hadds := adds_of_run hd
      refine ⟨es₁, hd, ih.mpr ⟨hrestNodup, ?_, hrestHides⟩⟩
      intro p hp
      -- what is there is older, or defined or copied by the first definition
      by_contra hsome
      rcases hadds.only p.1 (hfresh p (List.mem_append_right _ hp)) hsome with hmem | ⟨number, hcopy, hname, hdefault⟩
      · exact hdisjoint hmem (List.mem_map_of_mem hp)
      · obtain ⟨d', hd', hp⟩ := List.mem_flatMap.mp hp
        exact hhides d' hd' ⟨number, hcopy, p.1, hname, hdefault, List.mem_map_of_mem hp⟩

/-- What definitions do that succeed. -/
theorem lookup_of_foldlM (h : ds.foldlM (Definition.run keys) es = some es') :
    (∀ name r, es.lookup name = some r → es'.lookup name = some r) ∧
    (∀ p ∈ ds.flatMap properties, es'.lookup p.1 = some p.2) ∧
    ∀ name x, es'.lookup name = some (.own x) → es.lookup name = some (.own x) ∨ (name, .own x) ∈ ds.flatMap properties := by
  induction ds generalizing es with
  | nil =>
    cases h
    simp
  | cons d ds ih =>
    rw [List.foldlM_cons, Option.bind_eq_bind, Option.bind_eq_some_iff] at h
    obtain ⟨es₁, hd, hds⟩ := h
    have hadds := adds_of_run hd
    obtain ⟨hkept, hdefined, hown⟩ := ih hds
    refine ⟨fun name r hr => hkept _ _ (hadds.kept _ _ hr), ?_, ?_⟩
    · intro p hp
      rcases List.mem_append.mp hp with hp | hp
      · exact hkept _ _ (hadds.defined p hp)
      · exact hdefined p hp
    · intro name x hx
      rcases hown name x hx with hx | hx
      · rcases hadds.own name x hx with hx | hx
        · exact Or.inl hx
        · exact Or.inr (List.mem_append_left _ hx)
      · exact Or.inr (List.mem_append_right _ hx)

/-- No property is defined twice if and only if no two definitions are about one name, and no copied name is defined
later. -/
theorem run_eq_some_iff : (∃ es, run keys ds = some es) ↔
    ((ds.flatMap properties).map Prod.fst).Nodup ∧ ds.Pairwise fun d d' => ¬d.Hides keys d' := by
  unfold run
  rw [exists_foldlM_iff]
  simp

end Runs

/-! ## Explicit exports -/

/-- The names that a statement exports explicitly, and what they are to read, behind a number of constants. -/
def explicitExports (number : Nat) : Node → Properties
  | .mk (.exportNamed _ _) _ (declaration :: _) =>
    match declaredNames declaration with
    | .ok names => names.map fun x => (x, .own x)
    | .error _ => []
  | .mk (.exportNamed bindings (some _)) _ [] => bindings.map fun b => (b.exported, .required number (some b.local_))
  | .mk (.exportNamed bindings none) _ [] => bindings.map fun b => (b.exported, .own b.local_)
  | .mk .exportDefault _ (value :: _) =>
    match value.kind with
    | .function (some x) | .class (some x) => [("default", .own x)]
    | _ => [("default", .result)]
  | .mk (.exportAll (some name) _) _ _ => [(name, .required number none)]
  | _ => []

/-- The names that statements export explicitly, behind a number of constants. -/
def explicitFrom : Nat → List Node → Properties
  | _, [] => []
  | number, n :: ns => explicitExports number n ++ explicitFrom (number + constants n) ns

/-- The definitions in the text of a converted module in their order. -/
def definitions (body : List Node) : List Definition :=
  prologue (body.flatMap ownExports) ++ (emissionsFrom 0 body).flatMap Emission.definitions

/-- An explicit export of a statement is one of the module's own bindings, or one of the definitions in its place is
about it. -/
theorem explicitExports_eq (number : Nat) (n : Node) : explicitExports number n =
    (ownExports n).map (fun g => (g.1, .own g.2)) ++
      ((emissions number n).flatMap Emission.definitions).flatMap Definition.properties := by
  obtain ⟨kind, span, parts⟩ := n
  cases kind with
  | importDeclaration bindings from_ => cases bindings <;> simp [explicitExports, ownExports, emissions]
  | exportNamed bindings from_ =>
    cases parts with
    | cons declaration ps =>
      cases hnames : declaredNames declaration <;> simp [explicitExports, ownExports, emissions, hnames]
    | nil =>
      cases from_ with
      | none => simp [explicitExports, ownExports, emissions]
      | some from_ =>
        simp [explicitExports, ownExports, emissions, List.map_eq_flatMap, List.flatMap_assoc, Definition.properties]
  | exportDefault =>
    cases parts with
    | nil => rfl
    | cons value ps =>
      obtain ⟨kind, valueSpan, valueParts⟩ := value
      cases kind with
      | function name => cases name <;> rfl
      | «class» name => cases name <;> rfl
      | _ => rfl
  | exportAll exported from_ =>
    cases exported <;> simp [explicitExports, ownExports, emissions, Definition.properties]
  | _ => rfl

/-- The explicit exports of statements are the module's own bindings, and what the definitions in their place are
about. -/
theorem explicitFrom_perm (number : Nat) (ns : List Node) : (explicitFrom number ns).Perm
    ((ns.flatMap ownExports).map (fun g => (g.1, .own g.2)) ++
      ((emissionsFrom number ns).flatMap Emission.definitions).flatMap Definition.properties) := by
  induction ns generalizing number with
  | nil => exact .nil
  | cons n ns ih =>
    rw [explicitFrom, explicitExports_eq, emissionsFrom, List.flatMap_cons]
    simp only [List.flatMap_append, List.map_append]
    refine ((ih (number + constants n)).append_left _).trans ?_
    -- the bindings of the later statements come before the definitions of the first one
    simp only [List.append_assoc]
    refine List.Perm.append_left _ ?_
    rw [← List.append_assoc, ← List.append_assoc]
    exact List.perm_append_comm.append_right _

theorem exportedBy_of_declaredNames {declaration : Node} {names : List String} (h : declaredNames declaration = .ok names)
    (bs : List ExportBinding) (m : Option String) (span : Span) (ps : List Node) :
    Program.exportedBy (.mk (.exportNamed bs m) span (declaration :: ps)) = names := by
  obtain ⟨kind, declared, ds⟩ := declaration
  cases kind with
  | variableList k =>
    simp only [declaredNames] at h
    cases hnames : ds.mapM declaredName? with
    | none =>
      rw [hnames] at h
      cases h
    | some names' =>
      rw [hnames] at h
      cases h
      rw [Program.exportedBy]
      -- every declarator declares one name
      induction ds generalizing names with
      | nil =>
        cases hnames
        rfl
      | cons d ds ih =>
        rw [List.mapM_cons, Option.bind_eq_bind, Option.bind_eq_some_iff] at hnames
        obtain ⟨x, hx, hrest⟩ := hnames
        rw [Option.bind_eq_bind, Option.bind_eq_some_iff] at hrest
        obtain ⟨xs, hxs, heq⟩ := hrest
        cases heq
        rw [List.flatMap_cons, ih hxs]
        unfold declaredName? at hx
        split at hx
        next hparts =>
          cases hx
          rw [hparts]
          simp [Node.boundNames]
        next => cases hx
  | function name => exact Except.ok.inj h
  | «class» name => exact Except.ok.inj h
  | _ => exact Except.ok.inj h

theorem names_sublist (number : Nat) (n : Node) : ((explicitExports number n).map Prod.fst).Sublist (Program.exportedBy n) := by
  obtain ⟨kind, span, parts⟩ := n
  cases kind with
  | exportNamed bindings from_ =>
    cases parts with
    | cons declaration ps =>
      cases hnames : declaredNames declaration with
      | error refusal => simp [explicitExports, hnames]
      | ok names => simp [explicitExports, hnames, exportedBy_of_declaredNames hnames, Function.comp_def]
    | nil => cases from_ <;> simp [explicitExports, Program.exportedBy, Function.comp_def]
  | exportDefault =>
    cases parts with
    | nil => exact List.nil_sublist _
    | cons value ps =>
      obtain ⟨kind, valueSpan, valueParts⟩ := value
      cases kind with
      | function name => cases name <;> exact List.Sublist.refl _
      | «class» name => cases name <;> exact List.Sublist.refl _
      | _ => exact List.Sublist.refl _
  | exportAll exported from_ => cases exported <;> exact List.Sublist.refl _
  | _ => exact List.nil_sublist _

/-- No name is exported twice. -/
theorem nodup_explicitFrom {mode : Mode} {cs : List Char} {program : Program} (h : Program.parse? mode cs = some program)
    (number : Nat) : ((explicitFrom number program.body).map Prod.fst).Nodup := by
  have hsublist : ∀ (ns : List Node) (number : Nat),
      ((explicitFrom number ns).map Prod.fst).Sublist (ns.flatMap Program.exportedBy) := by
    intro ns
    induction ns with
    | nil => exact fun _ => List.Sublist.refl _
    | cons n ns ih =>
      intro number
      rw [explicitFrom, List.map_append, List.flatMap_cons]
      exact (names_sublist number n).append (ih _)
  have hdistinct : ∀ xs : List String, Program.distinct xs = true → xs.Nodup := by
    intro xs hxs
    induction xs with
    | nil => exact List.nodup_nil
    | cons x xs ih =>
      rw [Program.distinct, Bool.and_eq_true] at hxs
      exact List.nodup_cons.mpr ⟨by simpa using hxs.1, ih hxs.2⟩
  have hdirectives : ∀ ns : List Node, (Grammar.markDirectives ns).flatMap Program.exportedBy =
      ns.flatMap Program.exportedBy := by
    intro ns
    fun_induction Grammar.markDirectives ns with
    | case1 s v t rest ih =>
      rw [List.flatMap_cons, List.flatMap_cons, ih]
      rfl
    | case2 => rfl
  refine List.Nodup.sublist (hsublist program.body number) ?_
  unfold Program.parse? at h
  extract_lets script first context cursor grammar at h
  split at h
  next xs last hrun =>
    split at h
    · cases h
    · split at h
      next hnames =>
        cases h
        rw [hdirectives]
        exact hdistinct _ hnames
      next => cases h
  next => cases h

/-! ## Explicit exports and copies -/

/-- The definitions in the place of a statement are about no bindings of the module. -/
theorem ne_own_of_mem_emissions {number : Nat} {n : Node} {d : Definition}
    (hd : d ∈ (emissions number n).flatMap Emission.definitions) {p : String × Reading} (hp : p ∈ d.properties) (x : String) :
    p.2 ≠ .own x := by
  have hkind : d = .assignment ∨ (∃ k, d = .copy k) ∨ ∃ name k member, d = .getter name k member := by
    unfold emissions at hd
    split at hd
    next => simp at hd
    next => simp at hd
    next => simp at hd
    next =>
      simp only [List.flatMap_cons, List.flatMap_nil, List.append_nil, List.mem_map] at hd
      obtain ⟨b, -, rfl⟩ := hd
      exact Or.inr (Or.inr ⟨_, _, _, rfl⟩)
    next => simp at hd
    next =>
      simp only at hd
      split at hd <;> simp_all
    next exported from_ span ps =>
      cases exported with
      | none => exact Or.inr (Or.inl ⟨number, by simpa using hd⟩)
      | some name => exact Or.inr (Or.inr ⟨name, number, none, by simpa using hd⟩)
    next => simp at hd
  rcases hkind with rfl | ⟨k, rfl⟩ | ⟨name, k, member, rfl⟩ <;> simp_all [Definition.properties]

theorem ne_own_of_mem {number : Nat} {ns : List Node} {p : String × Reading}
    (hp : p ∈ ((emissionsFrom number ns).flatMap Emission.definitions).flatMap Definition.properties) (x : String) :
    p.2 ≠ .own x := by
  induction ns generalizing number with
  | nil => simp [emissionsFrom] at hp
  | cons n ns ih =>
    rw [emissionsFrom, List.flatMap_append, List.flatMap_append] at hp
    rcases List.mem_append.mp hp with hp | hp
    · obtain ⟨d, hd, hp⟩ := List.mem_flatMap.mp hp
      exact ne_own_of_mem_emissions hd hp x
    · exact ih hp

/-- What the definitions of a converted module are about: the mark, the bindings in the table, and the rest. -/
theorem properties_definitions (body : List Node) : (definitions body).flatMap Definition.properties =
    ("__esModule", .mark) :: (((body.flatMap ownExports).filter fun g => g.1 ≠ "__proto__").map (fun g => (g.1, .own g.2)) ++
      ((emissionsFrom 0 body).flatMap Emission.definitions).flatMap Definition.properties) := by
  unfold definitions prologue
  cases body.flatMap ownExports with
  | nil => simp [Definition.properties]
  | cons g own => simp [Definition.properties]

/-- Only the mark can be defined twice. -/
theorem nodup_definitions {mode : Mode} {cs : List Char} {program : Program} (h : Program.parse? mode cs = some program) :
    (((definitions program.body).flatMap Definition.properties).map Prod.fst).Nodup ↔
      "__esModule" ∉ (explicitFrom 0 program.body).map Prod.fst := by
  have hperm := (explicitFrom_perm 0 program.body).map Prod.fst
  have hnodup := hperm.nodup_iff.mp (nodup_explicitFrom h 0)
  rw [hperm.mem_iff, properties_definitions]
  rw [List.map_append, List.map_map] at hnodup ⊢
  rw [List.map_cons, List.map_append, List.map_map, List.nodup_cons]
  have hsublist : (((program.body.flatMap ownExports).filter fun g => g.1 ≠ "__proto__").map
      (Prod.fst ∘ fun g => (g.1, Reading.own g.2))).Sublist
      ((program.body.flatMap ownExports).map (Prod.fst ∘ fun g => (g.1, Reading.own g.2))) :=
    List.filter_sublist.map _
  have hrest := hnodup.sublist (hsublist.append (List.Sublist.refl _))
  simp only [hrest, and_true, not_iff_not, List.mem_append]
  refine or_congr ?_ Iff.rfl
  simp only [List.mem_map, List.mem_filter, Function.comp_apply, decide_eq_true_eq]
  constructor
  · rintro ⟨g, ⟨hg, -⟩, hname⟩
    exact ⟨g, hg, hname⟩
  · rintro ⟨g, hg, hname⟩
    exact ⟨g, ⟨hg, by rw [hname]; decide⟩, hname⟩

/-- When a module is converted, no definition in its text is about a property that is there, and all explicit exports
read what they are to read, if and only if no export has the name of the mark of ES modules, no binding of the module
is exported as `__proto__`, and no name that a loop copies is exported from a required module behind that loop. -/
theorem explicit_exports_iff {source converted : String} (h : convert source = .ok (some converted)) :
    ∃ program, Program.parse? .module source.toList = some program ∧
      converted.toList = (prologueText (program.body.flatMap ownExports)).toList ++
        weave source.toList 0 ((emissionsFrom 0 program.body).map (Emission.edit source.toList)) ∧
      ∀ keys : Nat → List String,
        (∃ es, run keys (definitions program.body) = some es ∧
          ∀ e ∈ explicitFrom 0 program.body, es.lookup e.1 = some e.2) ↔
        "__esModule" ∉ (explicitFrom 0 program.body).map Prod.fst ∧
          "__proto__" ∉ (program.body.flatMap ownExports).map Prod.fst ∧
          (definitions program.body).Pairwise fun d d' => ¬d.Hides keys d' := by
  obtain ⟨program, hprogram, htext⟩ := convert_eq_ok h
  refine ⟨program, hprogram, htext, ?_⟩
  intro keys
  have hperm := explicitFrom_perm 0 program.body
  have hproperties := properties_definitions program.body
  constructor
  · rintro ⟨es, hrun, hexplicit⟩
    obtain ⟨hnodup, hhides⟩ := run_eq_some_iff.mp ⟨es, hrun⟩
    refine ⟨(nodup_definitions hprogram).mp hnodup, ?_, hhides⟩
    intro hproto
    obtain ⟨g, hg, hname⟩ := List.mem_map.mp hproto
    have hmem : (g.1, Reading.own g.2) ∈ explicitFrom 0 program.body :=
      hperm.mem_iff.mpr (List.mem_append_left _ (List.mem_map.mpr ⟨g, hg, rfl⟩))
    -- what reads a binding of the module is in the table, where `__proto__` is no property
    rcases (lookup_of_foldlM hrun).2.2 _ _ (hexplicit _ hmem) with hnone | hdefined
    · cases hnone
    · rw [hproperties] at hdefined
      rcases List.mem_cons.mp hdefined with hmark | hdefined
      · cases congrArg Prod.snd hmark
      rcases List.mem_append.mp hdefined with htable | hrest
      · obtain ⟨g', hg', heq⟩ := List.mem_map.mp htable
        have hname' := (List.mem_filter.mp hg').2
        rw [congrArg Prod.fst heq, hname] at hname'
        simp at hname'
      · exact ne_own_of_mem hrest g.2 rfl
  · rintro ⟨hmark, hproto, hhides⟩
    obtain ⟨es, hrun⟩ := run_eq_some_iff.mpr ⟨(nodup_definitions hprogram).mpr hmark, hhides⟩
    refine ⟨es, hrun, ?_⟩
    intro e he
    refine (lookup_of_foldlM hrun).2.1 e ?_
    rw [hproperties]
    refine List.mem_cons_of_mem _ ?_
    rcases List.mem_append.mp (hperm.mem_iff.mp he) with he | he
    · obtain ⟨g, hg, rfl⟩ := List.mem_map.mp he
      refine List.mem_append_left _ (List.mem_map.mpr ⟨g, List.mem_filter.mpr ⟨hg, ?_⟩, rfl⟩)
      rw [decide_eq_true_eq]
      rintro hname
      exact hproto (hname ▸ List.mem_map_of_mem hg)
    · exact List.mem_append_right _ he

/-- A module that copies names, and exports a binding and what another module has. -/
def mixedExports : String :=
  "export * from \"./b\";\nexport { x } from \"./a\";\nexport const y = 1;\nexport default y;\n"

/-- The explicit exports of a module win over the names that it copies: one of its own bindings is among these, and is
defined before the loop. -/
theorem explicit_exports_of_mixedExports : ∃ (converted : String) (program : Program),
    convert mixedExports = .ok (some converted) ∧ Program.parse? .module mixedExports.toList = some program ∧
      ∃ es, run (fun _ => ["y", "z", "default"]) (definitions program.body) = some es ∧
        (∀ e ∈ explicitFrom 0 program.body, es.lookup e.1 = some e.2) ∧
        es.lookup "y" = some (.own "y") ∧ es.lookup "z" = some (.required 0 (some "z")) := by
  obtain ⟨converted, program, hconvert, hprogram, hconditions, hlookup⟩ :=
    @exists_converted_of_check mixedExports (fun _ program =>
      ("__esModule" ∉ (explicitFrom 0 program.body).map Prod.fst ∧
        "__proto__" ∉ (program.body.flatMap ownExports).map Prod.fst ∧
        (definitions program.body).Pairwise fun d d' => ¬d.Hides (fun _ => ["y", "z", "default"]) d') ∧
      (run (fun _ => ["y", "z", "default"]) (definitions program.body)).any fun es =>
        es.lookup "y" == some (.own "y") && es.lookup "z" == some (.required 0 (some "z"))) _
      ⟨_, String.toList_ofList, by decide +kernel⟩
  obtain ⟨program', hprogram', -, hiff⟩ := explicit_exports_iff hconvert
  obtain rfl : program = program' := Option.some_inj.mp (hprogram.symm.trans hprogram')
  obtain ⟨es, hrun, hexplicit⟩ := (hiff _).mpr hconditions
  rw [hrun, Option.any_some, Bool.and_eq_true] at hlookup
  exact ⟨converted, program, hconvert, hprogram, es, hrun, hexplicit, beq_iff_eq.mp hlookup.1, beq_iff_eq.mp hlookup.2⟩

/-- A module that copies names, and behind this exports what another module has. -/
def copyFirst : String := "export * from \"./b\";\nexport { x } from \"./a\";\n"

/-- An explicit export does not win over a name that is copied in front of it: to define it is an error. -/
theorem exists_defined_twice : ∃ (converted : String) (program : Program) (keys : Nat → List String),
    convert copyFirst = .ok (some converted) ∧ Program.parse? .module copyFirst.toList = some program ∧
      run keys (definitions program.body) = none := by
  obtain ⟨converted, program, hconvert, hprogram, hrun⟩ :=
    @exists_converted_of_check copyFirst (fun _ program => run (fun _ => ["x"]) (definitions program.body) = none) _
      ⟨_, String.toList_ofList, by decide +kernel⟩
  exact ⟨converted, program, _, hconvert, hprogram, hrun⟩

end Relink.Script.CommonJs
