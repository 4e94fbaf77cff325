import Relink.Proofs.Graph

/-!
# What modules require

Each specifier of a script is taken up once: as a file, as something that is left to the host, or as a
shim, as the policy classifies it.

* `Module.Requires` — the specifiers of a module.
* `Analysed` — every specifier of a module is taken up, as what the policy takes it for.
* `meets_analysed_of` — what holds of the specifiers that are taken up, one by one, holds of an analysed module.
* `meets_module` — what holds of modules that are made anew and of those that are recalled.
-/

namespace Relink

/-- A specifier that stands in the script of a module. -/
def Module.Requires (m : Module) (specifier : String) : Prop :=
  m.kind = .js ∧
    ∃ summary, Discovery.summaryOf m.file m.source = .ok summary ∧ specifier ∈ summary.dependencies

namespace Discovery

open Linking

variable {d : Discovery} {trusted : Path → Prop}

/-! ## Opened modules -/

/-- A module of a file of which it is not known what it requires. -/
structure Fresh (file : Path) (m : Module) : Prop where
  kind : ModuleKind.ofPath? file = some m.kind
  file : m.file = file
  changed : m.changed = true
  summary : m.summary = none
  paths : m.dependencyPaths = Table.empty
  externals : m.externals = .empty
  shims : m.shims = .empty

theorem steady_sourceOf {t : FileTree} {sure : Prop} (file : Path) :
    Steady trusted t sure (d.sourceOf file) := by
  unfold sourceOf
  simp only
  split
  · exact (Steady.say _).bind fun _ => Steady.pure _
  · split
    · exact Steady.pure _
    · exact Steady.fail _

theorem steady_scriptOf {t : FileTree} {sure : Prop} (file : Path) (kind : ModuleKind) (l : BaseLocation)
    (source : String) : Steady trusted t sure (d.scriptOf file kind l source) := by
  unfold scriptOf
  split
  · split
    · exact Steady.fail _
    · exact Steady.pure _
    · exact (Steady.say _).bind fun _ => Steady.pure _
  · exact Steady.pure _

theorem steady_moduleOf (file : Path) (kind : ModuleKind) (source : String) :
    Steady trusted d.resolver.tree (∀ a ∈ file.ancestors, trusted a) (d.moduleOf file kind source) := by
  unfold moduleOf
  refine (Resolver.steady_locate file _).bind ?_
  intro l
  refine (steady_scriptOf file kind l source).bind ?_
  intro script
  exact Steady.pure _

/-- The module of a file does not depend on what is remembered. -/
theorem steady_opened (file : Path) :
    Steady trusted d.resolver.tree (∀ a ∈ file.ancestors, trusted a) (d.opened file) := by
  unfold opened
  split
  · exact Steady.fail _
  · exact (steady_sourceOf file).bind fun source => steady_moduleOf file _ source

theorem meets_opened (file : Path) :
    Meets trusted d.resolver.tree (d.opened file) (Returns (Fresh file)) := by
  unfold opened
  split
  · exact Meets.returns_fail
  next kind hkind =>
    refine Meets.bind (steady_sourceOf file : Steady trusted _ True _) ?_ ?_
    · intro source _
      unfold moduleOf
      refine Meets.bind (Resolver.steady_locate file _) ?_ ?_
      · intro l _
        refine Meets.bind (steady_scriptOf file kind l source : Steady trusted _ True _) ?_ ?_
        · intro script _
          exact Meets.returns_pure ⟨hkind, rfl, rfl, rfl, rfl, rfl, rfl⟩
        · rintro e - m ⟨⟩
      · rintro e - m ⟨⟩
    · rintro e - m ⟨⟩

/-! ## Specifiers -/

/-- What has been taken up is what the policy takes it for, and all of some specifiers have been. -/
structure TakenUp (policy : Policy) (done : List String) (r : Requirements) : Prop where
  ordered : r.paths.Ordered
  internal : ∀ s p, r.paths.get? s = some p → policy.classify s = .internal
  external : ∀ s, r.externals.contains s = true → policy.classify s = .external
  shim : ∀ s, r.shims.contains s = true → policy.classify s = .shim
  done : ∀ s ∈ done, (r.paths.get? s).isSome = true ∨ r.externals.contains s = true ∨ r.shims.contains s = true

theorem takenUp_nothing (policy : Policy) : TakenUp policy [] ⟨Table.empty, .empty, .empty⟩ where
  ordered := Table.ordered_empty
  internal := by
    intro s p h
    simp at h
  external := by
    intro s h
    simp at h
  shim := by
    intro s h
    simp at h
  done := by simp

theorem TakenUp.external_insert {policy : Policy} {done : List String} {r : Requirements}
    (h : TakenUp policy done r) {specifier : String} (hs : policy.classify specifier = .external) :
    TakenUp policy (done ++ [specifier]) { r with externals := r.externals.insert specifier } where
  ordered := h.ordered
  internal := h.internal
  external := by
    intro s hmem
    rw [NameSet.contains_insert, Bool.or_eq_true] at hmem
    rcases hmem with heq | hold
    · rw [beq_iff_eq.mp heq, hs]
    · exact h.external s hold
  shim := h.shim
  done := by
    intro s hmem
    simp only [NameSet.contains_insert, Bool.or_eq_true]
    rcases List.mem_append.mp hmem with hmem | hmem
    · rcases h.done s hmem with hp | he | hsh
      · exact Or.inl hp
      · exact Or.inr (Or.inl (Or.inr he))
      · exact Or.inr (Or.inr hsh)
    · exact Or.inr (Or.inl (Or.inl (by simpa using hmem)))

theorem TakenUp.shim_insert {policy : Policy} {done : List String} {r : Requirements}
    (h : TakenUp policy done r) {specifier : String} (hs : policy.classify specifier = .shim) :
    TakenUp policy (done ++ [specifier]) { r with shims := r.shims.insert specifier } where
  ordered := h.ordered
  internal := h.internal
  external := h.external
  shim := by
    intro s hmem
    rw [NameSet.contains_insert, Bool.or_eq_true] at hmem
    rcases hmem with heq | hold
    · rw [beq_iff_eq.mp heq, hs]
    · exact h.shim s hold
  done := by
    intro s hmem
    simp only [NameSet.contains_insert, Bool.or_eq_true]
    rcases List.mem_append.mp hmem with hmem | hmem
    · rcases h.done s hmem with hp | he | hsh
      · exact Or.inl hp
      · exact Or.inr (Or.inl he)
      · exact Or.inr (Or.inr (Or.inr hsh))
    · exact Or.inr (Or.inr (Or.inl (by simpa using hmem)))

theorem TakenUp.path_insert {policy : Policy} {done : List String} {r : Requirements}
    (h : TakenUp policy done r) {specifier : String} (hs : policy.classify specifier = .internal) (p : Path) :
    TakenUp policy (done ++ [specifier]) { r with paths := r.paths.insert specifier p } where
  ordered := Table.ordered_insert h.ordered specifier p
  internal := by
    intro s q hget
    simp only [Table.get?_insert] at hget
    split at hget
    next heq => rw [Std.LawfulEqOrd.eq_of_compare heq, hs]
    next => exact h.internal s q hget
  external := h.external
  shim := h.shim
  done := by
    intro s hmem
    simp only [Table.get?_insert]
    rcases List.mem_append.mp hmem with hmem | hmem
    · rcases h.done s hmem with hp | he | hsh
      · refine Or.inl ?_
        split
        · rfl
        · exact hp
      · exact Or.inr (Or.inl he)
      · exact Or.inr (Or.inr hsh)
    · rw [List.mem_singleton.mp hmem, if_pos Std.ReflOrd.compare_self]
      exact Or.inl rfl

theorem steady_require (file : Path) (r : Requirements) (specifier : String) :
    Steady trusted d.resolver.tree (∀ a, trusted a) (d.require file r specifier) := by
  unfold require
  split
  · exact Steady.pure _
  · exact Steady.pure _
  · exact (Resolver.steady_resolve specifier file).bind fun p => Steady.pure _

theorem meets_require {file : Path} {r : Requirements} {done : List String} (h : TakenUp d.policy done r)
    (specifier : String) :
    Meets trusted d.resolver.tree (d.require file r specifier)
      (Returns (TakenUp d.policy (done ++ [specifier]))) := by
  unfold require
  split
  next hs => exact Meets.returns_pure (h.external_insert hs)
  next hs => exact Meets.returns_pure (h.shim_insert hs)
  next hs =>
    refine Meets.bind (Resolver.steady_resolve specifier file) ?_ ?_
    · intro p _
      exact Meets.returns_pure (h.path_insert hs p)
    · rintro e - r' ⟨⟩

/-! ## Analysed modules -/

/-- Every specifier of a module is taken up, as what the policy takes it for. -/
structure Analysed (policy : Policy) (m : Module) : Prop where
  ordered : m.dependencyPaths.Ordered
  internal : ∀ s p, m.dependencyPaths.get? s = some p → policy.classify s = .internal
  external : ∀ s, m.externals.contains s = true → policy.classify s = .external
  shim : ∀ s, m.shims.contains s = true → policy.classify s = .shim
  taken : ∀ s, m.Requires s →
    (m.dependencyPaths.get? s).isSome = true ∨ m.externals.contains s = true ∨ m.shims.contains s = true

theorem Analysed.with_dependencies {policy : Policy} {m : Module} (h : Analysed policy m)
    (dependencies : Table String Nat) : Analysed policy { m with dependencies := dependencies } :=
  ⟨h.ordered, h.internal, h.external, h.shim, h.taken⟩

theorem steady_analysed (m : Module) :
    Steady trusted d.resolver.tree (∀ a, trusted a) (d.analysed m) := by
  unfold analysed
  split
  · refine (Steady.lift _).bind ?_
    intro summary
    refine (Steady.foldlM (steady_require m.file) _).bind ?_
    intro r
    exact Steady.pure _
  · exact Steady.pure _

/-- An analysis takes up the specifiers of a script one by one, and leaves other modules as they are. -/
theorem meets_analysed_of {m : Module} {I : List String → Requirements → Prop} {P : Module → Prop}
    (hstart : I [] ⟨Table.empty, .empty, .empty⟩)
    (hrequire : ∀ done r specifier, I done r →
      Meets trusted d.resolver.tree (d.require m.file r specifier) (Returns (I (done ++ [specifier]))))
    (hscript : ∀ summary r, m.kind = .js → summaryOf m.file m.source = .ok summary → I summary.dependencies r →
      P { m with
        summary := some summary, dependencyPaths := r.paths, externals := r.externals, shims := r.shims })
    (hother : m.kind ≠ .js → P m) : Meets trusted d.resolver.tree (d.analysed m) (Returns P) := by
  unfold analysed
  split
  next hjs =>
    refine Meets.bind (Meets.lift (Q := fun r => r = summaryOf m.file m.source) rfl) ?_ ?_
    · intro summary hsummary
      refine (Meets.foldlM hstart hrequire).returns_bind fun r hr => ?_
      exact Meets.returns_pure (hscript summary r (by simpa using hjs) hsummary.symm hr)
    · rintro e - m' ⟨⟩
  next hjs => exact Meets.returns_pure (hother (by simpa using hjs))

/-- An analysis takes up every specifier of a module. -/
theorem meets_analysed {file : Path} {m : Module} (h : Fresh file m) :
    Meets trusted d.resolver.tree (d.analysed m)
      (Returns fun m' => m'.file = file ∧ Analysed d.policy m') := by
  refine meets_analysed_of (takenUp_nothing d.policy) (fun done r specifier hr => meets_require hr specifier) ?_ ?_
  · intro summary r hjs hsummary hr
    refine ⟨h.file, hr.ordered, hr.internal, hr.external, hr.shim, ?_⟩
    -- the specifiers of the script are those that have been taken up
    rintro s ⟨-, summary', hsummary', hs⟩
    cases hsummary.symm.trans hsummary'
    exact hr.done s hs
  · intro hjs
    refine ⟨h.file, ?_, ?_, ?_, ?_, ?_⟩
    · rw [h.paths]
      exact Table.ordered_empty
    · intro s p hget
      rw [h.paths] at hget
      simp at hget
    · intro s hmem
      rw [h.externals] at hmem
      exact (takenUp_nothing d.policy).external s hmem
    · intro s hmem
      rw [h.shims] at hmem
      exact (takenUp_nothing d.policy).shim s hmem
    · -- what is no script requires nothing
      rintro s ⟨hkind, -⟩
      exact absurd hkind hjs

/-! ## Modules -/

/-- A module is made anew, or recalled from the cache if its content has not changed. -/
theorem meets_module {t : FileTree} {file : Path} {Q R : Module → Prop}
    (hopened : Meets trusted t (d.opened file) (Returns Q))
    (hanalysed : ∀ m, Q m → (∀ a, d.cache.get? file = some a → a.record.hash ≠ m.hash) →
      Meets trusted t (d.analysed m) (Returns R))
    (hrecalled : ∀ m a, Q m → d.cache.get? file = some a → a.record.hash = m.hash →
      R (Module.recalled m a.record)) :
    Meets trusted t (d.module file) (Returns R) := by
  unfold module
  refine hopened.returns_bind ?_
  intro m hm
  -- the cache has an artifact of the content that the file has now, or it has none
  split
  next a ha =>
    rw [Option.filter_eq_some_iff] at ha
    exact Meets.returns_pure (hrecalled m a hm ha.1 (by simpa using ha.2))
  next hnone =>
    refine hanalysed m hm ?_
    intro a ha hhash
    simp [ha, hhash] at hnone

/-- The module of a file is a module of that file. -/
theorem meets_module_file (file : Path) :
    Meets trusted d.resolver.tree (d.module file) (Returns fun m => m.file = file) := by
  refine meets_module (meets_opened file) ?_ ?_
  · intro m hm _
    exact (meets_analysed hm).mono fun r hr m' hm' => (hr m' hm').1
  · intro m a hm _ _
    exact hm.file

/-- Without a cache, every module is analysed. -/
theorem meets_module_of_empty (hcache : d.cache.artifacts = Table.empty) (file : Path) :
    Meets trusted d.resolver.tree (d.module file)
      (Returns fun m => m.file = file ∧ Analysed d.policy m) := by
  refine meets_module (meets_opened file) ?_ ?_
  · intro m hm _
    exact meets_analysed hm
  · intro m a _ hget _
    unfold Cache.get? at hget
    rw [hcache] at hget
    simp at hget

/-! ## Steady discovery -/

/-- The module of a file, with what it requires, does not depend on what is remembered. -/
theorem steady_module (file : Path) : Steady trusted d.resolver.tree (∀ a, trusted a) (d.module file) := by
  unfold module
  refine ((steady_opened file).mono fun h a _ => h a).bind ?_
  intro m
  split
  · exact Steady.pure _
  · exact steady_analysed m

theorem steady_discover (room : Nat) (g : ModuleGraph) (pending : List Path) :
    Steady trusted d.resolver.tree (∀ a, trusted a) (ModuleGraph.discover d room g pending) := by
  induction room generalizing g pending with
  | zero =>
    unfold ModuleGraph.discover
    split
    · exact Steady.pure _
    · exact Steady.fail _
  | succ room ih =>
    unfold ModuleGraph.discover
    split
    · exact Steady.pure _
    · exact (steady_module _).bind fun m => ih _ _

theorem steady_build (entries : List Path) :
    Steady trusted d.resolver.tree (∀ a, trusted a) (ModuleGraph.build d entries) := by
  unfold ModuleGraph.build
  exact (steady_discover _ _ _).bind fun g => Steady.pure _

end Discovery

end Relink
