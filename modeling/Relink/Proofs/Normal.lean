import Relink.Proofs.Direct

/-!
# Normal form

The normal form of a path, absolute or relative, follows from its steps. No step of it says nothing, and only the
first step of a relative path leads upwards.

* `join_congr`, `normalize_congr` — paths with the same steps are joined alike and have the same normal form.
* `IsNormal` — what is left of the steps of a path.
* `components_normalize_eq` — a path in normal form consists of what is left.
* `components_normalize_child` — what lies directly below a path in normal form is in normal form too.
-/

namespace Relink

namespace Path

variable {p q : Path}

/-! ## Spellings -/

theorem components_of_text_eq_empty (h : p.text = "") : p.components = [] := by
  have hp : p = ⟨""⟩ := congrArg Path.mk h
  rw [hp]
  decide

/-- A path as seen from another one depends on the steps of that one only. -/
theorem join_congr (h : p.components = q.components) (hne : p.components ≠ []) (path : Path) :
    (p.join path).components = (q.join path).components := by
  cases hpath : path.isAbsolute with
  | true =>
    unfold join
    rw [if_pos hpath, if_pos hpath]
  | false =>
    have hp : p.text ≠ "" := fun hempty => hne (components_of_text_eq_empty hempty)
    have hq : q.text ≠ "" := fun hempty => hne (h.trans (components_of_text_eq_empty hempty))
    rw [components_join hp hpath, components_join hq hpath, h]

theorem normalize_congr (h : p.components = q.components) : p.normalize = q.normalize := by
  unfold normalize normalSteps
  rw [h, isAbsolute_congr h]

/-! ## Steps in normal form -/

/-- A step that a segment of a path stands for. -/
structure IsStep (c : Component) : Prop where
  slash_not_mem : '/' ∉ c.text.toList
  isIdle : isIdle c.text = false
  componentOf : componentOf c.text = c

/-- Steps in normal form: names, in a relative path perhaps behind one step upwards. -/
structure IsNormal (absolute : Bool) (cs : List Component) : Prop where
  isStep : ∀ c ∈ cs, IsStep c
  names : ∃ ss : List String, cs = ss.map .name ∨ absolute = false ∧ cs = .up :: ss.map .name

theorem isStep_up : IsStep .up := ⟨by decide, by decide, by decide⟩

/-- A path takes steps behind its root or the dot at its front. -/
theorem isStep_of_mem {c : Component} (h : c ∈ p.components) : c = .root ∨ c = .here ∨ IsStep c := by
  cases c with
  | root => exact Or.inl rfl
  | here => exact Or.inr (Or.inl rfl)
  | up => exact Or.inr (Or.inr isStep_up)
  | name s =>
    obtain ⟨hslash, hidle, hs⟩ := mem_segments_of_name h
    exact Or.inr (Or.inr ⟨hslash, hidle, hs⟩)

theorem IsNormal.nil (absolute : Bool) : IsNormal absolute [] := ⟨by simp, [], Or.inl rfl⟩

/-- A name goes behind steps in normal form. -/
theorem IsNormal.concat {absolute : Bool} {cs : List Component} {s : String} (h : IsNormal absolute cs)
    (hs : IsStep (.name s)) : IsNormal absolute (cs ++ [.name s]) := by
  obtain ⟨hsteps, ss, hss⟩ := h
  constructor
  · intro c hc
    rcases List.mem_append.mp hc with hc | hc
    · exact hsteps c hc
    · exact List.mem_singleton.mp hc ▸ hs
  · refine ⟨ss ++ [s], ?_⟩
    rw [List.map_append]
    rcases hss with rfl | ⟨hrelative, rfl⟩
    · exact Or.inl rfl
    · exact Or.inr ⟨hrelative, rfl⟩

/-- The last of some steps in normal form can be left, be it a name or the only step upwards. -/
theorem IsNormal.dropLast {absolute : Bool} {cs : List Component} (h : IsNormal absolute cs) :
    IsNormal absolute cs.dropLast := by
  obtain ⟨hsteps, ss, hss⟩ := h
  refine ⟨fun c hc => hsteps c (List.dropLast_subset _ hc), ?_⟩
  rcases hss with rfl | ⟨hrelative, rfl⟩
  · exact ⟨ss.dropLast, Or.inl List.map_dropLast.symm⟩
  · cases ss with
    | nil => exact ⟨[], Or.inl rfl⟩
    | cons s ss => exact ⟨(s :: ss).dropLast, Or.inr ⟨hrelative, by simp [List.map_dropLast]⟩⟩

/-- Steps in normal form stay so when one more step is taken. -/
theorem isNormal_step {absolute : Bool} {back : List Component} {c : Component}
    (h : IsNormal absolute back.reverse) (hc : c = .root ∨ c = .here ∨ IsStep c) :
    IsNormal absolute (step absolute back c).reverse := by
  cases c with
  | root => exact h
  | here => exact h
  | up =>
    cases back with
    | nil =>
      cases absolute with
      | true => exact .nil true
      | false => exact ⟨by simp [step, isStep_up], [], Or.inr ⟨rfl, rfl⟩⟩
    | cons b back => simpa [step] using h.dropLast
  | name s =>
    have hs : IsStep (.name s) := by simpa using hc
    simpa [step] using h.concat hs

/-- What is left of a path is in normal form. -/
theorem isNormal_normalSteps (p : Path) : IsNormal p.isAbsolute p.normalSteps := by
  have hfold : ∀ {cs back : List Component}, IsNormal p.isAbsolute back.reverse →
      (∀ c ∈ cs, c = .root ∨ c = .here ∨ IsStep c) →
      IsNormal p.isAbsolute (cs.foldl (step p.isAbsolute) back).reverse := by
    intro cs
    induction cs with
    | nil => exact fun h _ => h
    | cons c cs ih =>
      intro back h hcs
      apply ih
      · exact isNormal_step h (hcs c List.mem_cons_self)
      · exact fun c hc => hcs c (List.mem_cons_of_mem _ hc)
  exact hfold (.nil _) fun c hc => isStep_of_mem hc

/-- Steps in normal form are taken as they are. -/
theorem IsNormal.foldl_step {absolute : Bool} {cs : List Component} (h : IsNormal absolute cs) :
    (cs.foldl (step absolute) []).reverse = cs := by
  obtain ⟨-, ss, rfl | ⟨rfl, rfl⟩⟩ := h
  · rw [foldl_step_of_names, List.append_nil, List.reverse_reverse]
  · rw [List.foldl_cons]
    simp only [step]
    rw [foldl_step_of_names, List.reverse_append, List.reverse_reverse]
    rfl

/-! ## Paths in normal form -/

/-- A relative path that is made of steps in normal form consists of them. -/
theorem IsNormal.components_intercalate {cs : List Component} (h : IsNormal false cs) :
    Path.components ⟨"/".intercalate (cs.map Component.text)⟩ = cs := by
  cases hcs : cs with
  | nil => decide
  | cons c rest =>
    rw [← hcs]
    have hsegments : Path.segments ⟨"/".intercalate (cs.map Component.text)⟩ = cs.map Component.text := by
      apply segments_intercalate
      · simp [hcs]
      · intro s hs
        obtain ⟨c, hc, rfl⟩ := List.mem_map.mp hs
        exact (h.isStep c hc).slash_not_mem
    have hsteps : Path.steps ⟨"/".intercalate (cs.map Component.text)⟩ = cs.map Component.text := by
      unfold steps
      rw [hsegments]
      apply List.filter_eq_self.mpr
      intro s hs
      obtain ⟨c, hc, rfl⟩ := List.mem_map.mp hs
      simp [(h.isStep c hc).isIdle]
    -- the first segment says something, so it is neither empty nor a dot
    have hidle := (h.isStep c (hcs ▸ List.mem_cons_self)).isIdle
    have hrelative : Path.isAbsolute ⟨"/".intercalate (cs.map Component.text)⟩ = false := by
      rw [Bool.eq_false_iff]
      intro habsolute
      obtain ⟨s, rest', hempty⟩ := isAbsolute_iff_segments.mp habsolute
      rw [hsegments, hcs, List.map_cons, List.cons.injEq] at hempty
      rw [hempty.1] at hidle
      exact absurd hidle (by decide)
    have hdot : c.text ≠ "." := by
      intro hdot
      rw [hdot] at hidle
      exact absurd hidle (by decide)
    have hcomponents : (cs.map Component.text).map Path.componentOf = cs := by
      rw [List.map_map]
      exact (List.map_congr_left fun c hc => (h.isStep c hc).componentOf).trans (List.map_id _)
    rw [components_eq, hrelative, hsteps, hsegments, hcomponents, hcs]
    simp [hdot]

/-- A path in normal form consists of the steps that are left. -/
theorem components_normalize_eq (p : Path) :
    p.normalize.components = (if p.isAbsolute then [.root] else []) ++ p.normalSteps := by
  cases h : p.isAbsolute with
  | true => exact components_normalize h
  | false =>
    have hnormal := isNormal_normalSteps p
    rw [h] at hnormal
    unfold normalize
    rw [h]
    exact hnormal.components_intercalate

theorem isAbsolute_normalize (p : Path) : p.normalize.isAbsolute = p.isAbsolute := by
  rw [Bool.eq_iff_iff, isAbsolute_iff_root_mem, components_normalize_eq, List.mem_append]
  constructor
  · rintro (hfront | hstep)
    · by_contra habsolute
      rw [if_neg habsolute] at hfront
      cases hfront
    · exact absurd ((isNormal_normalSteps p).isStep _ hstep).isIdle (by decide)
  · intro h
    exact Or.inl (by simp [h])

/-- A name below a path in normal form is the last step of a path in normal form. -/
theorem components_normalize_child (p : Path) {name : String} (h : Plain name) (hup : name ≠ "..") :
    (p.normalize.child name).normalize.components = (p.normalize.child name).components := by
  have hname : Path.componentOf name = .name name := by simp [Path.componentOf, hup]
  have hnormal : IsNormal p.isAbsolute (p.normalSteps ++ [.name name]) :=
    (isNormal_normalSteps p).concat ⟨h.slash_not_mem, h.isIdle, hname⟩
  have habsolute : (p.normalize.child name).isAbsolute = p.isAbsolute :=
    (isAbsolute_child _ h).trans (isAbsolute_normalize p)
  have hcomponents : (p.normalize.child name).components =
      (if p.isAbsolute then [.root] else []) ++ (p.normalSteps ++ [.name name]) := by
    rw [components_child _ h, components_normalize_eq, hname, List.append_assoc]
  have hsteps : (p.normalize.child name).normalSteps = p.normalSteps ++ [.name name] := by
    unfold normalSteps
    rw [habsolute, hcomponents, List.foldl_append]
    -- the root is no step
    have hroot : (if p.isAbsolute then [Component.root] else []).foldl (step p.isAbsolute) [] = [] := by
      cases p.isAbsolute <;> rfl
    rw [hroot]
    exact hnormal.foldl_step
  rw [components_normalize_eq, habsolute, hsteps, hcomponents]

end Path

end Relink
