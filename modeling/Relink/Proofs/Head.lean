import Mathlib.Data.List.Basic
import Relink.Linker.Compile

/-!
# The head of code

The code of a module begins with a comment that names the file of the module as seen from its base. The rest
of the text does not depend on that name.

* `exists_body` — the code of a text under two names only differs in the head.
* `headText_eq_of_compile` — modules of one text have the same code only if the heads are the same.
-/

namespace Relink

/-- Subjects of the same text and ids, under two names. -/
structure Subject.Alias (s s' : Subject) : Prop where
  source : s.source = s'.source
  summary : s.summary = s'.summary
  ids : s.ids = s'.ids

namespace Step

variable {s s' : Subject} {d e e' : Document}

/-- No step but the last one looks at the name. -/
theorem apply_congr {step : Step} (h : s.Alias s') (hstep : step ≠ .wrap) (he : step.apply s d = .ok e)
    (he' : step.apply s' d = .ok e') : e = e' := by
  rcases h with ⟨hsource, hsummary, hids⟩
  unfold apply at he he'
  rw [← hsource, ← hsummary, ← hids] at he'
  cases step with
  | wrap => exact absurd rfl hstep
  | exportText => exact (Except.ok.inj he).symm.trans (Except.ok.inj he')
  | exportJson =>
    cases hparse : Json.parse? s.source with
    | none =>
      rw [hparse] at he
      cases he
    | some v =>
      simp only [hparse] at he he'
      split at he
      next husable =>
        rw [if_pos husable] at he'
        exact (Except.ok.inj he).symm.trans (Except.ok.inj he')
      next => cases he
  | dropStrict | callMarker | dropVoid | callExports | numberRequires =>
    -- the steps that edit a script share a branch, which reads the summary
    cases hs : s.summary with
    | none =>
      rw [hs] at he
      cases he
    | some summary =>
      rw [hs] at he he'
      exact (Except.ok.inj he).symm.trans (Except.ok.inj he')

theorem foldlM_apply_congr {steps : List Step} (h : s.Alias s') (hsteps : .wrap ∉ steps)
    (he : steps.foldlM (fun d step => step.apply s d) d = .ok e)
    (he' : steps.foldlM (fun d step => step.apply s' d) d = .ok e') : e = e' := by
  induction steps generalizing d with
  | nil =>
    cases he
    cases he'
    rfl
  | cons step steps ih =>
    rw [List.foldlM_cons] at he he'
    rcases List.ne_and_not_mem_of_not_mem_cons hsteps with ⟨hstep, hsteps⟩
    cases hd : step.apply s d with
    | error failure =>
      rw [hd] at he
      cases he
    | ok d₁ =>
      cases hd' : step.apply s' d with
      | error failure =>
        rw [hd'] at he'
        cases he'
      | ok d₂ =>
        rw [hd] at he
        rw [hd', ← apply_congr h (Ne.symm hstep) hd hd'] at he'
        exact ih hsteps he he'

/-- The last step of every pipeline makes a function of the module. -/
theorem exists_pipeline (kind : ModuleKind) (applyTransforms : Bool) :
    ∃ steps, pipeline kind applyTransforms = steps ++ [.wrap] ∧ .wrap ∉ steps := by
  cases kind with
  | js =>
    cases applyTransforms with
    | false => exact ⟨[.numberRequires], rfl, by decide⟩
    | true => exact ⟨[.dropStrict, .callMarker, .dropVoid, .callExports, .numberRequires], rfl, by decide⟩
  | json => exact ⟨[.exportJson], rfl, by decide⟩
  | css => exact ⟨[.exportText], rfl, by decide⟩
  | json5 => exact ⟨[.exportText], rfl, by decide⟩
  | yaml => exact ⟨[.exportText], rfl, by decide⟩

end Step

/-- The code of a text begins with the name of the file; the rest is the same under every name. -/
theorem exists_body {kind : ModuleKind} {applyTransforms : Bool} {s s' : Subject} (h : s.Alias s')
    {c c' : MappedCode} (hc : transform kind applyTransforms s = .ok c)
    (hc' : transform kind applyTransforms s' = .ok c') :
    ∃ body, c.source = Step.headText s.basePath ++ body ∧ c'.source = Step.headText s'.basePath ++ body := by
  rcases Step.exists_pipeline kind applyTransforms with ⟨steps, hpipeline, hsteps⟩
  unfold transform at hc hc'
  rw [hpipeline, List.foldlM_append] at hc hc'
  cases hd : steps.foldlM (fun d step => step.apply s d) .empty with
  | error failure =>
    rw [hd] at hc
    cases hc
  | ok d =>
    cases hd' : steps.foldlM (fun d step => step.apply s' d) .empty with
    | error failure =>
      rw [hd'] at hc'
      cases hc'
    | ok d' =>
      cases Step.foldlM_apply_congr h hsteps hd hd'
      rw [hd] at hc
      rw [hd'] at hc'
      cases hc
      cases hc'
      refine ⟨applyEdits s.source d.edits ++ Step.tailText s.source.toList, ?_, ?_⟩
      · exact String.append_assoc
      · rw [h.source]
        exact String.append_assoc

/-- The summary of a text does not depend on the file. -/
theorem Module.summaryFor_eq {m m' : Module} (hkind : m.kind = m'.kind) (hsource : m.source = m'.source)
    (hsummary : m.summary = m'.summary) {s s' : Option Script.Summary} (hs : m.summaryFor = .ok s)
    (hs' : m'.summaryFor = .ok s') : s = s' := by
  unfold Module.summaryFor Discovery.summaryOf at hs hs'
  rw [← hkind, ← hsource, ← hsummary] at hs'
  cases hknown : m.summary with
  | some known =>
    rw [hknown] at hs hs'
    exact (Except.ok.inj hs).symm.trans (Except.ok.inj hs')
  | none =>
    rw [hknown] at hs hs'
    generalize m.kind = kind at hs hs'
    cases kind with
    | js =>
      cases hparse : Script.Summary.parse? m.source with
      | none =>
        rw [hparse] at hs
        cases hs
      | some summary =>
        rw [hparse] at hs hs'
        exact (Except.ok.inj hs).symm.trans (Except.ok.inj hs')
    | json | css | json5 | yaml => exact (Except.ok.inj hs).symm.trans (Except.ok.inj hs')

/-- The code of a module is that into which it is transformed. -/
theorem transform_of_compile {minifier : Minifier} {settings : CodeSettings} {ids : Table String ModuleId} {m : Module}
    {c : ModuleCode} (hc : compile minifier settings m ids = .ok c) : ∃ summary code, m.summaryFor = .ok summary ∧
      transform m.kind settings.applyTransforms ⟨m.file, m.basePath, m.source, summary, ids⟩ = .ok code ∧
      c.source = code.source ∧ c.map = some code.map := by
  unfold compile at hc
  cases hs : m.summaryFor with
  | error failure =>
    rw [hs] at hc
    cases hc
  | ok summary =>
    rw [hs] at hc
    cases hcode : transform m.kind settings.applyTransforms ⟨m.file, m.basePath, m.source, summary, ids⟩ with
    | error failure =>
      simp [hcode, bind, Except.bind] at hc
    | ok code =>
      refine ⟨summary, code, rfl, hcode, ?_⟩
      simp only [hcode, bind, Except.bind] at hc
      split at hc
      · cases hsmall : minifier m.file code.source with
        | error failure =>
          rw [hsmall] at hc
          cases hc
        | ok small =>
          rw [hsmall] at hc
          cases hc
          exact ⟨rfl, rfl⟩
      · cases hc
        exact ⟨rfl, rfl⟩

/-- Modules of one text have the same code only if it begins with the same name. -/
theorem headText_eq_of_compile {minifier : Minifier} {settings : CodeSettings} {ids : Table String ModuleId}
    {m m' : Module} (hkind : m.kind = m'.kind) (hsource : m.source = m'.source) (hsummary : m.summary = m'.summary)
    {c : ModuleCode} (hc : compile minifier settings m ids = .ok c)
    (hc' : compile minifier settings m' ids = .ok c) : Step.headText m.basePath = Step.headText m'.basePath := by
  rcases transform_of_compile hc with ⟨summary, code, hs, hcode, hfirst, -⟩
  rcases transform_of_compile hc' with ⟨summary', code', hs', hcode', hsecond, -⟩
  rw [← hkind] at hcode'
  have halias : Subject.Alias ⟨m.file, m.basePath, m.source, summary, ids⟩
      ⟨m'.file, m'.basePath, m'.source, summary', ids⟩ :=
    ⟨hsource, Module.summaryFor_eq hkind hsource hsummary hs hs', rfl⟩
  rcases exists_body halias hcode hcode' with ⟨body, hbody, hbody'⟩
  have happend : Step.headText m.basePath ++ body = Step.headText m'.basePath ++ body := by
    rw [← hbody, ← hbody', ← hfirst, ← hsecond]
  exact (String.append_left_inj body).mp happend

end Relink
