import Relink.Proofs.Regions

/-!
# Getter exports as calls

In the place of a getter export, the code of a script has a call of the loader. Its text is put together from the name as
it is written and the text of the value.

* `GetterExport.Found` — the statement of a getter export, and its expression.
* `apart_value` — nothing that a compiler has written is replaced in the value of a getter export.
* `getterExports_called` — the call, in whose value only strings of calls of `require` are replaced.
* `exists_three_arguments` — it can have three arguments.
-/

namespace Relink

open Script Script.CommonJs

/-! ## Statements of getter exports -/

namespace Script

/-- A getter export is what a summary has of a statement: `x` is the expression of the statement. -/
structure GetterExport.Found (e : GetterExport) (n x : Node) : Prop where
  statement : n = .mk .expressionStatement e.statement [x]
  expression : x.getterExport? = some (e.name, e.value)

namespace GetterExport.Found

variable {text : Source} {e e' : GetterExport} {n x x' : Node}

/-- A statement is found to be one getter export. -/
theorem unique (h : e.Found n x) (h' : e'.Found n x') : e = e' := by
  obtain ⟨statement, name, value⟩ := e
  obtain ⟨statement', name', value'⟩ := e'
  obtain ⟨rfl, hx⟩ := h
  obtain ⟨hstatement, hx'⟩ := h'
  injection hstatement with _ hspan hparts
  cases hspan
  cases hparts
  cases hx.symm.trans hx'
  rfl

/-- The name stands in front of the value, and the statement goes on behind the value. -/
theorem ordered (h : e.Found n x) (hn : Standing text n) : e.statement.start ≤ e.name.start ∧
    e.name.start < e.name.stop ∧ e.name.stop ≤ e.value.start ∧ e.value.start ≤ e.value.stop ∧
      e.value.stop < e.statement.stop := by
  obtain ⟨rfl, hx⟩ := h
  exact Node.ordered_of_getterExport? (hn.fits.part (List.mem_singleton_self x)) hx

end GetterExport.Found

namespace Summary

/-- Taking up a statement adds no getter export but the one that it is. -/
theorem mem_getterExports_addStatement {s : Summary} {n : Node} {e : GetterExport}
    (h : e ∈ (s.addStatement n).getterExports) : e ∈ s.getterExports ∨ ∃ x, e.Found n x := by
  unfold addStatement at h
  split at h
  next span x =>
    split at h
    next => exact Or.inl h
    split at h
    next => exact Or.inl h
    split at h
    next name value hexport =>
      rcases List.mem_append.mp h with h | h
      · exact Or.inl h
      · rw [List.mem_singleton.mp h]
        exact Or.inr ⟨x, rfl, hexport⟩
    next => exact Or.inl h
  next => exact Or.inl h

/-- Every getter export of a program is one of its statements. -/
theorem exists_found (program : Program) :
    ∀ e ∈ (ofProgram program).getterExports, ∃ n ∈ program.body, ∃ x, e.Found n x := by
  unfold ofProgram
  refine List.foldlRecOn program.body addStatement
    (motive := fun s => ∀ e ∈ s.getterExports, ∃ n ∈ program.body, ∃ x, e.Found n x) ?_ ?_
  · intro e he
    cases he
  · intro s hs n hn e he
    rcases mem_getterExports_addStatement he with he | he
    · exact hs e he
    · exact ⟨n, hn, he⟩

theorem useStrict_ofProgram (program : Program) : (ofProgram program).useStrict =
    program.body.filterMap fun n => if n.kind == .directive "use strict" then some n.span else none := by
  have hstep : ∀ summary n, (addStatement summary n).useStrict = summary.useStrict := by
    intro summary n
    unfold addStatement
    split
    · repeat' split
      all_goals rfl
    · rfl
  unfold ofProgram
  refine List.foldlRecOn program.body addStatement (motive := fun s => s.useStrict =
    program.body.filterMap fun n => if n.kind == .directive "use strict" then some n.span else none) ?_ ?_
  · rfl
  · exact fun s hs n _ => (hstep s n).trans hs

/-- A statement is replaced as a whole if it is a directive of strictness, the marker or the void chain. -/
theorem exists_of_mem_wholes {program : Program} {r : Span} (h : r ∈ (ofProgram program).useStrict ++
    (ofProgram program).marker.toList ++ (ofProgram program).voidChain.toList) : ∃ n ∈ program.body, n.span = r := by
  have hfirst : ∀ {p : Node → Bool}, r ∈ (program.body.findSome? (spanOf? p)).toList → ∃ n ∈ program.body, n.span = r := by
    intro p hr
    obtain ⟨n, hn, hspan⟩ := List.exists_of_findSome?_eq_some (Option.mem_toList.mp hr)
    obtain ⟨e, rfl, -⟩ := spanOf?_eq_some_iff.mp hspan
    exact ⟨_, hn, rfl⟩
  rw [marker_ofProgram, voidChain_ofProgram, useStrict_ofProgram] at h
  rcases List.mem_append.mp h with h | h
  · rcases List.mem_append.mp h with h | h
    · obtain ⟨n, hn, hspan⟩ := List.mem_filterMap.mp h
      split at hspan
      next => exact ⟨n, hn, Option.some.inj hspan⟩
      next => cases hspan
    · exact hfirst h
  · exact hfirst h

/-- What is replaced of the statements that compilers write has no character in common with the value of a getter
export. -/
theorem apart_value {text : Source} {program : Program} (h : Lined text program.body) {e : GetterExport}
    (he : e ∈ (ofProgram program).getterExports) : ∀ r ∈ (ofProgram program).regions, r.Apart e.value := by
  intro r hr
  obtain ⟨n, hn, x, hfound⟩ := exists_found program e he
  obtain ⟨hname, hsolid, hvalue, hordered, hbehind⟩ := hfound.ordered (h.standing n hn)
  have hspan : n.span = e.statement := by rw [hfound.statement, Node.span_mk]
  have hwithin : e.value.inside e.statement := Span.inside_iff.mpr ⟨by omega, by omega⟩
  -- a statement that is another one lies apart from the whole of this one
  have hother : ∀ m ∈ program.body, m ≠ n → r.inside m.span → r.Apart e.value := by
    intro m hm hne hinside
    exact (h.apart hm hn hne).mono hinside (hspan ▸ hwithin)
  rcases List.mem_append.mp hr with hwhole | hgetter
  · obtain ⟨m, hm, rfl⟩ := exists_of_mem_wholes hwhole
    by_cases hsame : m = n
    · -- then what stands in front of the value would be replaced twice
      have hapart := (List.pairwise_append.mp (owned_ofProgram h).apart).2.2 _ hwhole e.before
        (List.mem_flatMap.mpr ⟨e, he, by simp⟩)
      rw [hsame, hspan] at hapart
      unfold Span.Apart GetterExport.before at hapart
      dsimp only at hapart
      omega
    · exact hother m hm hsame (Span.inside_iff.mpr ⟨Nat.le_refl _, Nat.le_refl _⟩)
  · obtain ⟨e', he', hr⟩ := List.mem_flatMap.mp hgetter
    obtain ⟨m, hm, x', hfound'⟩ := exists_found program e' he'
    obtain ⟨hname', hsolid', hvalue', hordered', hbehind'⟩ := hfound'.ordered (h.standing m hm)
    simp only [List.mem_cons, List.not_mem_nil, or_false] at hr
    by_cases hsame : m = n
    · subst hsame
      obtain rfl := hfound'.unique hfound
      rcases hr with rfl | rfl
      · exact Or.inl (Nat.le_refl _)
      · exact Or.inr (Nat.le_refl _)
    · refine hother m hm hsame ?_
      rw [hfound'.statement, Node.span_mk, Span.inside_iff]
      rcases hr with rfl | rfl
      · exact ⟨Nat.le_refl _, show e'.value.start ≤ e'.statement.stop by omega⟩
      · exact ⟨show e'.statement.start ≤ e'.value.stop by omega, Nat.le_refl _⟩

end Summary

end Script

/-! ## Calls of the loader -/

/-- What is written for a getter export, with some edits of the value. -/
def Script.GetterExport.called (source : List Char) (e : GetterExport) (inner : List Edit) : List Char :=
  (Edit.replace source e.before ("__esExport(" ++ String.ofList (e.name.extract source) ++ ", ")).text.toList ++
    (weaveTo source e.value.stop e.value.start inner ++ (Edit.replace source e.behind ");").text.toList)

/-- Of edits that stand one behind the other, those between two of them are the ones with a span between theirs. -/
theorem exists_between {es : List Edit} (hascending : es.Pairwise fun a b => a.stop ≤ b.start)
    (hsolid : ∀ e ∈ es, e.start < e.stop) {a b : Edit} (ha : a ∈ es) (hb : b ∈ es) (hab : a.stop ≤ b.start) :
    ∃ first inner last, es = first ++ a :: (inner ++ b :: last) ∧
      ∀ e, e ∈ inner ↔ e ∈ es ∧ a.stop ≤ e.start ∧ e.stop ≤ b.start := by
  have hasolid := hsolid a ha
  have hbsolid := hsolid b hb
  obtain ⟨first, rest, rfl⟩ := List.append_of_mem ha
  obtain ⟨-, hrest, hfirst⟩ := List.pairwise_append.mp hascending
  obtain ⟨hafter, hrest⟩ := List.pairwise_cons.mp hrest
  have hbehind : b ∈ rest := by
    rcases List.mem_append.mp hb with hb | hb
    · have hle := hfirst b hb a List.mem_cons_self
      omega
    · rcases List.mem_cons.mp hb with rfl | hb
      · omega
      · exact hb
  obtain ⟨inner, last, rfl⟩ := List.append_of_mem hbehind
  obtain ⟨-, hlast, hinner⟩ := List.pairwise_append.mp hrest
  obtain ⟨hlast, -⟩ := List.pairwise_cons.mp hlast
  refine ⟨first, inner, last, rfl, fun e => ⟨fun he => ?_, fun ⟨he, hstart, hstop⟩ => ?_⟩⟩
  · exact ⟨by simp [he], hafter e (List.mem_append_left _ he), hinner e he b List.mem_cons_self⟩
  · have hlt := hsolid e he
    simp only [List.mem_append, List.mem_cons] at he
    rcases he with he | rfl | he | rfl | he
    · have hle := hfirst e he a List.mem_cons_self
      omega
    · omega
    · exact he
    · omega
    · have hle := hlast e he
      omega

/-- Of the edits of a script that are applied, those in the value of a getter export are the ones of the calls of
`require` in it. -/
theorem mem_replaced_iff {source : List Char} {ids : Table String ModuleId} {program : Program}
    (h : Lined ⟨source⟩ program.body) {e : GetterExport} (he : e ∈ (Summary.ofProgram program).getterExports)
    {replaced : List Edit} (hperm : replaced.Perm (Step.compilerEdits source ids (.ofProgram program) true ++
      ((Summary.ofProgram program).requires.filterMap (Step.numbering? source ids)).filter
        (Edit.outside (Step.compilerEdits source ids (.ofProgram program) true)))) (edit : Edit) :
    edit ∈ replaced ∧ edit.span.inside e.value ↔ ∃ call ∈ (Summary.ofProgram program).requires,
      call.span.inside e.value ∧ Step.numbering? source ids call = some edit := by
  have hapart := Summary.apart_value h he
  rw [hperm.mem_iff, List.mem_append, List.mem_filter]
  constructor
  · rintro ⟨hedit | ⟨hedit, -⟩, hinside⟩
    · -- an edit of a compiler's statement lies apart from the value
      have hregion : edit.span ∈ (Summary.ofProgram program).regions :=
        Step.map_span_compilerEdits ▸ List.mem_map_of_mem hedit
      have hsolid := (Step.nested h true).solid edit (List.mem_append_left _ hedit)
      have hapart := hapart _ hregion
      rw [Span.inside_iff] at hinside
      unfold Span.Apart Edit.span at hapart
      unfold Edit.span at hinside
      dsimp only at hapart hinside
      omega
    · obtain ⟨call, hcall, hedit⟩ := List.mem_filterMap.mp hedit
      exact ⟨call, hcall, Step.span_of_numbering? hedit ▸ hinside, hedit⟩
  · rintro ⟨call, hcall, hinside, hedit⟩
    refine ⟨Or.inr ⟨List.mem_filterMap.mpr ⟨call, hcall, hedit⟩, ?_⟩, (Step.span_of_numbering? hedit).symm ▸ hinside⟩
    rw [Step.outside_compilerEdits hedit, Bool.true_and, Bool.not_eq_true', List.any_eq_false]
    intro r hr hcovered
    have hlt := Summary.lt_of_mem_requires h hcall
    have hapart := hapart r hr
    rw [Span.inside_iff] at hinside hcovered
    unfold Span.Apart at hapart
    omega

/-- In the place of each getter export of a script, the code has a call of the loader with the name as it is written and
the text of the value. In the value nothing is replaced but the strings of calls of `require` that have an id. -/
theorem getterExports_called {subject : Subject} {s : Summary} (hparse : Summary.parse? subject.source = some s)
    (hsummary : subject.summary = some s) : ∃ program code, Program.parse? .script subject.source.toList = some program ∧
      transform .js true subject = .ok code ∧ ∀ e ∈ s.getterExports, (∃ n ∈ program.body, ∃ x, e.Found n x) ∧
        ∃ front inner back, code.source.toList = front ++ (e.called subject.source.toList inner ++ back) ∧
          ∀ edit, edit ∈ inner ↔ ∃ call ∈ s.requires, call.span.inside e.value ∧
            Step.numbering? subject.source.toList subject.ids call = some edit := by
  obtain ⟨code, replaced, hcode, hsource, -, -, hascending, hperm⟩ := exists_replaced hparse hsummary true
  obtain ⟨program, hprogram, rfl⟩ := Option.map_eq_some_iff.mp hparse
  have hlined : Lined ⟨subject.source.toList⟩ program.body := Program.lined_of_parse? hprogram
  refine ⟨program, code, hprogram, hcode, fun e he => ⟨Summary.exists_found program e he, ?_⟩⟩
  obtain ⟨n, hn, x, hfound⟩ := Summary.exists_found program e he
  obtain ⟨-, -, -, hordered, -⟩ := hfound.ordered (hlined.standing n hn)
  have hsolid : ∀ edit ∈ replaced, edit.start < edit.stop := by
    intro edit hedit
    have hnested := @Step.nested _ subject.source.toList subject.ids program hlined true
    rcases List.mem_append.mp (hperm.mem_iff.mp hedit) with hedit | hedit
    · exact hnested.solid edit (List.mem_append_left _ hedit)
    · exact hnested.solid edit (List.mem_append_right _ (List.mem_of_mem_filter hedit))
  have hmem : ∀ edit ∈ Step.scriptEdits subject.source.toList subject.ids (.ofProgram program) .callExports,
      edit ∈ replaced := fun edit hedit =>
    hperm.mem_iff.mpr (List.mem_append_left _ (List.mem_flatMap.mpr ⟨.callExports, by simp [Step.compilerSteps], hedit⟩))
  obtain ⟨first, inner, last, rfl, hinner⟩ := exists_between hascending hsolid
    (hmem (Edit.replace subject.source.toList e.before
      ("__esExport(" ++ String.ofList (e.name.extract subject.source.toList) ++ ", "))
        (List.mem_flatMap.mpr ⟨e, he, List.mem_cons_self⟩))
    (hmem (Edit.replace subject.source.toList e.behind ");")
      (List.mem_flatMap.mpr ⟨e, he, List.mem_cons_of_mem _ (List.mem_singleton_self _)⟩)) hordered
  refine ⟨(Step.headText subject.basePath).toList ++ weaveTo subject.source.toList e.statement.start 0 first, inner,
    weave subject.source.toList e.statement.stop last ++ (Step.tailText subject.source.toList).toList, ?_, fun edit => ?_⟩
  · rw [hsource, weave_append, weave_append, GetterExport.called]
    simp only [List.append_assoc]
    rfl
  · rw [hinner edit, ← mem_replaced_iff hlined he hperm edit, Span.inside_iff]
    rfl

/-- The numbers of arguments of the calls of a name in a tree. -/
def Script.Node.argumentCounts (name : String) (n : Node) : List Nat :=
  n.preorder.filterMap fun
    | .mk .call _ (callee :: arguments) => if callee.isIdentifier name then some arguments.length else none
    | _ => none

/-- A script with a getter export that returns the last of several values. -/
def sequenceText : String := "Object.defineProperty(exports, \"x\", \x7b get: function () \x7b return a, b; \x7d \x7d);\n"

/-- The script as a module. -/
def sequenceSubject (s : Summary) : Subject := ⟨⟨"/main.js"⟩, "main.js", sequenceText, some s, ⟨[]⟩⟩

/-- The call for a getter export can have three arguments. -/
theorem exists_three_arguments : ∃ s code program, Summary.parse? sequenceText = some s ∧ s.getterExports.length = 1 ∧
    transform .js true (sequenceSubject s) = .ok code ∧ Program.parse? .script code.source.toList = some program ∧
    program.body.flatMap (Node.argumentCounts "__esExport") = [3] := by
  have hcheck : ∃ cs, sequenceText.toList = cs ∧ ((Program.parse? .script cs).any fun program : Program =>
      let s := Summary.ofProgram program
      let es := Step.compilerEdits cs ⟨[]⟩ s true ++ s.requires.filterMap (Step.numbering? cs ⟨[]⟩)
      decide (s.getterExports.length = 1 ∧ es.Pairwise fun a b => a.stop ≤ b.start) &&
        (Program.parse? .script ((Step.headText "main.js").toList ++
          (weave cs 0 es ++ (Step.tailText cs).toList))).any fun program : Program =>
            decide (program.body.flatMap (Node.argumentCounts "__esExport") = [3])) = true :=
    ⟨_, String.toList_ofList, by decide +kernel⟩
  obtain ⟨script, hs, -, hcheck⟩ := Summary.exists_of_check hcheck
  rw [Bool.and_eq_true, decide_eq_true_eq] at hcheck
  obtain ⟨⟨hlength, hascending⟩, hcheck⟩ := hcheck
  obtain ⟨code, hcode, hsource⟩ := @exists_woven (sequenceSubject (.ofProgram script)) _ hs rfl true hascending
  obtain ⟨program, hprogram, hcounts⟩ := (Option.any_eq_true _ _).mp hcheck
  exact ⟨_, code, program, hs, hlength, hcode, (congrArg (Program.parse? .script) hsource).trans hprogram,
    of_decide_eq_true hcounts⟩

end Relink
