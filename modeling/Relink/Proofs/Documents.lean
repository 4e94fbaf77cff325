import Relink.Proofs.Edits
import Relink.Proofs.Head
import Relink.Proofs.Statements
import Relink.Transform.Step

/-!
# The edits of a document

Every edit of a step stands between two places of the source and takes away no line.

* `Summary.Placed` — the spans of a summary stand in its text.
* `transform_eq_ok` — the code of a module is its source with such edits, between a head and a tail.
-/

namespace Relink

open Place Script

/-- A span that stands in a text. -/
structure Span.Placed (text : Source) (span : Span) : Prop where
  ordered : span.start ≤ span.stop
  start : Cut text span.start
  stop : Cut text span.stop

variable {text : Source}

namespace Script

/-! ## Nodes -/

theorem Standing.placed {n : Node} (h : Standing text n) : n.span.Placed text :=
  ⟨h.ordered, h.fits.cut_start, h.fits.cut_stop⟩

namespace Node

variable {lo hi : Nat}

theorem placed_of_requireCall? {n : Node} {call : RequireCall} (h : n.requireCall? = some call) (hn : n.Fits text lo hi) :
    call.span.Placed text := by
  unfold requireCall? at h
  split at h
  next s callee value span ps =>
    split at h
    · cases h
      have hwithin := (hn.part (p := .mk (.string value) span ps) (by simp)).within
      exact ⟨Nat.le_of_lt hwithin.shape.1, hwithin.start, hwithin.stop⟩
    · cases h
  next => cases h

theorem fits_of_getterValue? {n value : Node} (h : n.getterValue? = some value) (hn : n.Fits text lo hi) :
    value.Fits text lo hi := by
  unfold getterValue? at h
  split at h
  next name role s name' s' ps body =>
    split at h
    next s'' value' hbody =>
      cases h
      have hreturn : Node.mk .return s'' [value] ∈ statements body.parts := by simp [hbody]
      have hreturn : Node.mk .return s'' [value] ∈ body.parts := (List.mem_filter.mp hreturn).1
      have hfunction : (Node.mk (.function name') s' [ps, body]).Fits text lo hi := hn.part (by simp)
      have hbody : body.Fits text lo hi := hfunction.part (by simp)
      exact (hbody.part hreturn).part (by simp)
    next => cases h
  next => cases h

theorem fits_of_getterExport? {n : Node} {name span : Span} (h : n.getterExport? = some (name, span))
    (hn : n.Fits text lo hi) : ∃ value : Node, value.span = span ∧ value.Fits text lo hi := by
  unfold getterExport? at h
  split at h
  next s object target value name' ps trailing s' properties =>
    split at h
    · obtain ⟨value, hvalue, heq⟩ := Option.map_eq_some_iff.mp h
      cases heq
      obtain ⟨property, hproperty, hvalue⟩ := List.exists_of_findSome?_eq_some hvalue
      have hobject : (Node.mk (.object trailing) s' properties).Fits text lo hi := hn.part (by simp)
      exact ⟨value, rfl, fits_of_getterValue? hvalue (hobject.part hproperty)⟩
    · cases h
  next => cases h

end Node

/-! ## Summaries -/

/-- The spans of a summary stand in its text. -/
structure Summary.Placed (text : Source) (s : Summary) : Prop where
  useStrict : ∀ span ∈ s.useStrict, span.Placed text
  requires : ∀ call ∈ s.requires, call.span.Placed text
  marker : ∀ span ∈ s.marker, span.Placed text
  voidChain : ∀ span ∈ s.voidChain, span.Placed text
  getterExports : ∀ e ∈ s.getterExports,
    Span.Placed text ⟨e.statement.start, e.value.start⟩ ∧ Span.Placed text ⟨e.value.stop, e.statement.stop⟩

namespace Summary

theorem placed_addStatement {s : Summary} (hs : s.Placed text) {n : Node} (hn : Standing text n) :
    (s.addStatement n).Placed text := by
  unfold addStatement
  split
  next span e =>
    have he : e.Fits text span.start span.stop := hn.fits.part (by simp)
    have hspan : span.Placed text := hn.placed
    split
    · exact ⟨hs.useStrict, hs.requires, by simpa using hspan, hs.voidChain, hs.getterExports⟩
    split
    · exact ⟨hs.useStrict, hs.requires, hs.marker, by simpa using hspan, hs.getterExports⟩
    split
    next name value hexport =>
      obtain ⟨node, rfl, hnode⟩ := Node.fits_of_getterExport? hexport he
      refine ⟨hs.useStrict, hs.requires, hs.marker, hs.voidChain, ?_⟩
      intro e he
      rcases List.mem_append.mp he with he | he
      · exact hs.getterExports e he
      · cases List.mem_singleton.mp he
        exact ⟨⟨hnode.le_start, hspan.start, hnode.cut_start⟩, ⟨hnode.stop_le, hnode.cut_stop, hspan.stop⟩⟩
    next => exact hs
  next => exact hs

theorem placed_ofProgram {program : Program} (h : Lined text program.body) : (ofProgram program).Placed text := by
  unfold ofProgram
  refine List.foldlRecOn program.body addStatement (motive := fun s => s.Placed text) ?_ ?_
  · refine ⟨?_, ?_, by simp, by simp, by simp⟩
    · intro span hspan
      obtain ⟨n, hn, hspan⟩ := List.mem_filterMap.mp hspan
      split at hspan
      · cases hspan
        exact (h.standing n hn).placed
      · cases hspan
    · intro call hcall
      obtain ⟨n, hn, hcall⟩ := List.mem_filterMap.mp hcall
      obtain ⟨top, htop, hn⟩ := Node.mem_preorderAll.mp hn
      exact Node.placed_of_requireCall? hcall ((h.standing top htop).fits.of_mem_preorder hn)
  · intro s hs n hn
    exact placed_addStatement hs (h.standing n hn)

/-- The spans of the summary of a text stand in it. -/
theorem placed_of_parse? {source : String} {s : Summary} (h : parse? source = some s) : s.Placed ⟨source.toList⟩ := by
  unfold parse? at h
  obtain ⟨program, hprogram, rfl⟩ := Option.map_eq_some_iff.mp h
  exact placed_ofProgram (@Program.lined_of_parse? ⟨source.toList⟩ _ _ hprogram)

end Summary

end Script

/-! ## Steps -/

namespace Step

theorem keeps_scriptEdits {s : Summary} (h : s.Placed text) (ids : Table String ModuleId) (step : Step) :
    ∀ e ∈ step.scriptEdits text.chars ids s, e.Keeps text := by
  have hreplace : ∀ {span : Span}, span.Placed text → ∀ new, (Edit.replace text.chars span new).Keeps text :=
    fun h new => keeps_replace h.ordered h.start h.stop new
  intro e he
  cases step with
  | dropStrict =>
    obtain ⟨span, hspan, rfl⟩ := List.mem_map.mp he
    exact hreplace (h.useStrict span hspan) _
  | callMarker =>
    obtain ⟨span, hspan, rfl⟩ := List.mem_map.mp he
    exact hreplace (h.marker span (by simpa using hspan)) _
  | dropVoid =>
    obtain ⟨span, hspan, rfl⟩ := List.mem_map.mp he
    exact hreplace (h.voidChain span (by simpa using hspan)) _
  | callExports =>
    obtain ⟨getter, hgetter, he⟩ := List.mem_flatMap.mp he
    obtain ⟨hbefore, hbehind⟩ := h.getterExports getter hgetter
    simp only [List.mem_cons, List.not_mem_nil, or_false] at he
    rcases he with rfl | rfl
    · exact hreplace hbefore _
    · exact hreplace hbehind _
  | numberRequires =>
    obtain ⟨call, hcall, he⟩ := List.mem_filterMap.mp he
    obtain ⟨id, -, rfl⟩ := Option.map_eq_some_iff.mp he
    exact hreplace (h.requires call hcall) _
  | exportJson | exportText | wrap => cases he

theorem byteLength_reverse (cs : List Char) : byteLength cs.reverse = byteLength cs := by
  induction cs with
  | nil => rfl
  | cons c cs ih =>
    rw [List.reverse_cons, byteLength_append, ih]
    simp only [byteLength]
    omega

theorem cut_zero : Cut text 0 := ⟨first text.chars, Leads.refl _, rfl⟩

theorem cut_byteLength : Cut text (byteLength text.chars) :=
  ⟨⟨byteLength text.chars, []⟩, ⟨text.chars, (List.append_nil _).symm, (Nat.zero_add _).symm⟩, rfl⟩

theorem cut_trimmedLength : Cut text (trimmedLength text.chars) := by
  have hsuffix : (text.chars.reverse.dropWhile Unicode.isBlankChar) <:+ text.chars.reverse := List.dropWhile_suffix _
  obtain ⟨blanks, hblanks⟩ := hsuffix
  have htext : text.chars = (text.chars.reverse.dropWhile Unicode.isBlankChar).reverse ++ blanks.reverse := by
    rw [← List.reverse_append, hblanks, List.reverse_reverse]
  refine ⟨⟨trimmedLength text.chars, blanks.reverse⟩, ⟨_, htext, ?_⟩, rfl⟩
  rw [byteLength_reverse]
  exact (Nat.zero_add _).symm

/-- A step adds edits that take away no line. -/
theorem keeps_apply {step : Step} {subject : Subject} {d d' : Document}
    (hsummary : ∀ s ∈ subject.summary, s.Placed ⟨subject.source.toList⟩)
    (hd : ∀ e ∈ d.edits, e.Keeps ⟨subject.source.toList⟩) (h : step.apply subject d = .ok d') :
    ∀ e ∈ d'.edits, e.Keeps ⟨subject.source.toList⟩ := by
  have hedit : ∀ es : List Edit, (∀ e ∈ es, e.Keeps ⟨subject.source.toList⟩) →
      ∀ e ∈ (d.edit es).edits, e.Keeps ⟨subject.source.toList⟩ := by
    intro es hes e he
    rcases List.mem_append.mp he with he | he
    · exact hd e he
    · exact hes e he
  cases step with
  | exportJson =>
    have hedits := hedit [Edit.insert 0 "module.exports = ", Edit.insert (trimmedLength subject.source.toList) ";"] (by
      simp only [List.mem_cons, List.not_mem_nil, or_false, forall_eq_or_imp, forall_eq]
      exact ⟨keeps_insert cut_zero _, keeps_insert (show Cut ⟨subject.source.toList⟩ _ from cut_trimmedLength) _⟩)
    simp only [apply] at h
    split at h
    · split at h
      · cases h
        exact hedits
      · cases h
    · cases h
  | exportText =>
    cases h
    refine hedit _ ?_
    simp only [List.mem_singleton, forall_eq]
    exact @keeps_replace ⟨subject.source.toList⟩ _ (Nat.zero_le _) cut_zero cut_byteLength _
  | wrap =>
    cases h
    exact hd
  | dropStrict | callMarker | dropVoid | callExports | numberRequires =>
    simp only [apply] at h
    split at h
    next s hs =>
      cases h
      exact hedit _ (keeps_scriptEdits (hsummary s hs) subject.ids _)
    next => cases h

end Step

/-- The code of a module is its source with edits that take away no line, between a head and a tail; its map leads
from the lines behind the head to those of the source. -/
theorem transform_eq_ok {kind : ModuleKind} {applyTransforms : Bool} {subject : Subject} {code : MappedCode}
    (hsummary : ∀ s ∈ subject.summary, s.Placed ⟨subject.source.toList⟩)
    (h : transform kind applyTransforms subject = .ok code) :
    ∃ edits : List Edit, (∀ e ∈ edits, e.Keeps ⟨subject.source.toList⟩) ∧
      code.source = Step.headText subject.basePath ++
        (applyEdits subject.source edits ++ Step.tailText subject.source.toList) ∧
      code.map = (SourceMap.lineMap subject.basePath subject.source
        (newlines (Step.headText subject.basePath).toList)).render := by
  obtain ⟨steps, hpipeline, hsteps⟩ := Step.exists_pipeline kind applyTransforms
  have hkeeps : ∀ (steps : List Step) (d d' : Document), (∀ e ∈ d.edits, e.Keeps ⟨subject.source.toList⟩) →
      steps.foldlM (fun d step => step.apply subject d) d = .ok d' → ∀ e ∈ d'.edits, e.Keeps ⟨subject.source.toList⟩ := by
    intro steps
    induction steps with
    | nil =>
      rintro d d' hd ⟨⟩
      exact hd
    | cons step steps ih =>
      intro d d' hd hfold
      rw [List.foldlM_cons] at hfold
      cases hstep : step.apply subject d with
      | error failure =>
        rw [hstep] at hfold
        cases hfold
      | ok d₁ =>
        rw [hstep] at hfold
        exact ih d₁ d' (Step.keeps_apply hsummary hd hstep) hfold
  unfold transform at h
  rw [hpipeline, List.foldlM_append] at h
  cases hd : steps.foldlM (fun d step => step.apply subject d) .empty with
  | error failure =>
    rw [hd] at h
    cases h
  | ok d =>
    rw [hd] at h
    cases h
    exact ⟨d.edits, hkeeps steps _ d (by simp [Document.empty]) hd, String.append_assoc, rfl⟩

end Relink
