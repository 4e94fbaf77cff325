import Relink.Proofs.Comments
import Relink.Proofs.Regions

/-!
# Comments that are written

The head of a module names its file in a comment, and behind each id that takes the place of a specifier stands a comment
with the specifier. Neither name can end the comment that it stands in.

* `unclosed_inComment` — what stands between the marks of such a comment does not close it.
* `comments_closed` — the first closing mark in the code behind an opening one is the one that is written with it.
-/

namespace Relink

open Script Script.CommonJs

/-! ## Safe texts -/

/-- Replacing a text by one that starts like it does not change the first character. -/
theorem head?_replaceFrom {c : Char} {old new : List Char} (cs : List Char) :
    (replaceFrom (c :: old) (c :: new) 0 cs).head? = cs.head? := by
  cases cs with
  | nil => rfl
  | cons d cs =>
    rw [replaceFrom]
    split
    next hstart => simp [(List.cons_prefix_cons.mp (List.isPrefixOf_iff_prefix.mp hstart)).1]
    next => rfl

/-- No closing mark is left, and none comes from what stands around one that is replaced. -/
theorem unclosed_replaceFrom (skip : Nat) (cs : List Char) :
    Unclosed (replaceFrom ['*', '/'] ['*', '\\', '/'] skip cs) := by
  fun_induction replaceFrom ['*', '/'] ['*', '\\', '/'] skip cs with
  | case1 => exact unclosed_nil
  | case2 skip c cs ih => exact ih
  | case3 c cs _ ih => simpa [unclosed_cons] using ih
  | case4 c cs hstart ih =>
    rw [List.isPrefixOf_iff_prefix, prefix_close_iff] at hstart
    rw [unclosed_cons, head?_replaceFrom]
    exact ⟨hstart, ih⟩

theorem Unclosed.concat {cs : List Char} (h : Unclosed cs) {c : Char} (hc : c ≠ '/') : Unclosed (cs ++ [c]) := by
  intro hinfix
  rcases List.infix_concat_iff.mp hinfix with hsuffix | hinfix
  · obtain ⟨front, hfront⟩ := hsuffix
    have hlast : (front ++ ['*'] ++ ['/']).getLast? = (cs ++ [c]).getLast? := by rw [← hfront, List.append_assoc]; rfl
    rw [List.getLast?_concat, List.getLast?_concat, Option.some.injEq] at hlast
    exact hc hlast.symm
  · exact h hinfix

/-- What stands between the marks of a comment with a text. -/
def inComment (text : String) : List Char := ' ' :: ((Step.commentSafe text).toList ++ [' '])

theorem unclosed_inComment (text : String) : Unclosed (inComment text) := by
  have hsafe : Unclosed (Step.commentSafe text).toList := by
    unfold Step.commentSafe replaceAll
    rw [String.toList_ofList]
    exact unclosed_replaceFrom 0 _
  exact unclosed_cons.mpr ⟨fun h => absurd h.1 (by decide), hsafe.concat (by decide)⟩

/-! ## Comments in code -/

/-- A text starts with a comment that has `inner` between its marks: the first closing mark behind the one that opens it
stands behind `inner`. -/
def StartsWithComment (inner cs : List Char) : Prop := ∃ after,
  cs = '/' :: '*' :: (inner ++ '*' :: '/' :: after) ∧ ClosesAt inner.length (inner ++ '*' :: '/' :: after)

theorem startsWithComment_inComment (text : String) (after : List Char) :
    StartsWithComment (inComment text) ('/' :: '*' :: (inComment text ++ '*' :: '/' :: after)) :=
  ⟨after, rfl, closesAt_length_iff.mpr (unclosed_inComment text)⟩

theorem toList_headText_append (basePath : String) (rest : List Char) : ∃ after,
    (Step.headText basePath).toList ++ rest = '/' :: '*' :: (inComment basePath ++ '*' :: '/' :: after) := by
  refine ⟨("\nfunction _(require, module, exports, __esModule, __esExport) \x7b\n".toList ++ rest), ?_⟩
  simp [Step.headText, inComment]

/-- The edit of a call of `require` writes the id and a comment with the specifier, whatever text follows it. -/
theorem exists_comment_of_numbering? {source : List Char} {ids : Table String ModuleId} {call : RequireCall} {e : Edit}
    (h : Step.numbering? source ids call = some e) (after : List Char) :
    ∃ id comment, ids.get? call.specifier = some id ∧ e.text.toList ++ after = id.literal.toList ++ ' ' :: comment ∧
      StartsWithComment (inComment call.specifier) comment := by
  obtain ⟨id, hid, rfl⟩ := Option.map_eq_some_iff.mp h
  obtain ⟨pad, hpad⟩ : ∃ pad, (Edit.replace source call.span
      (id.literal ++ " /* " ++ Step.commentSafe call.specifier ++ " */")).text =
        id.literal ++ " /* " ++ Step.commentSafe call.specifier ++ " */" ++ String.ofList pad := ⟨_, rfl⟩
  refine ⟨id, _, hid, ?_, startsWithComment_inComment call.specifier (pad ++ after)⟩
  rw [hpad]
  simp [inComment]

/-- The code of every module starts with a comment that has the name of its file. The edits that give ids to the calls of
`require` write the id and a comment with the specifier; they do so in the code of a script at each call that has an id
and lies in no statement of a compiler. The first closing mark behind the one that opens such a comment is the one that
is written with it. -/
theorem comments_closed (subject : Subject) (applyTransforms : Bool) :
    (∀ kind code, transform kind applyTransforms subject = .ok code →
      StartsWithComment (inComment subject.basePath) code.source.toList) ∧
    (∀ s, ∀ e ∈ Step.numberRequires.scriptEdits subject.source.toList subject.ids s, ∀ after,
      ∃ call ∈ s.requires, ∃ id comment, e.span = call.span ∧ subject.ids.get? call.specifier = some id ∧
        e.text.toList ++ after = id.literal.toList ++ ' ' :: comment ∧
          StartsWithComment (inComment call.specifier) comment) ∧
    ∀ s, Summary.parse? subject.source = some s → subject.summary = some s → ∃ code,
      transform .js applyTransforms subject = .ok code ∧ ∀ call ∈ s.requires,
        (applyTransforms = true → ¬s.regions.any call.span.inside) → ∀ id, subject.ids.get? call.specifier = some id →
          ∃ before comment, code.source.toList = (Step.headText subject.basePath).toList ++
            (weaveTo subject.source.toList call.span.start 0 before ++ (id.literal.toList ++ ' ' :: comment)) ∧
              StartsWithComment (inComment call.specifier) comment := by
  refine ⟨fun kind code h => ?_, fun s e he after => ?_, fun s hparse hsummary => ?_⟩
  · obtain ⟨body, hbody, -⟩ := exists_body ⟨rfl, rfl, rfl⟩ h h
    obtain ⟨after, hafter⟩ := toList_headText_append subject.basePath body.toList
    rw [hbody, String.toList_append, hafter]
    exact startsWithComment_inComment subject.basePath after
  · obtain ⟨call, hcall, hedit⟩ := List.mem_filterMap.mp he
    obtain ⟨id, comment, hwritten⟩ := exists_comment_of_numbering? hedit after
    exact ⟨call, hcall, id, comment, Step.span_of_numbering? hedit, hwritten⟩
  · obtain ⟨code, replaced, hcode, hsource, -, -, -, hperm⟩ := exists_replaced hparse hsummary applyTransforms
    refine ⟨code, hcode, fun call hcall houtside id hid => ?_⟩
    obtain ⟨e, hedit⟩ : ∃ e, Step.numbering? subject.source.toList subject.ids call = some e :=
      ⟨_, by rw [Step.numbering?, hid, Option.map_some]⟩
    -- the edit of the call is one of those that are applied
    have hkept : e.outside (Step.compilerEdits subject.source.toList subject.ids s applyTransforms) = true := by
      rw [Step.outside_compilerEdits hedit]
      cases applyTransforms with
      | true => simpa using houtside rfl
      | false => rfl
    have hmem := hperm.mem_iff.mpr (List.mem_append_right _
      (List.mem_filter.mpr ⟨List.mem_filterMap.mpr ⟨call, hcall, hedit⟩, hkept⟩))
    obtain ⟨before, behind, rfl⟩ := List.append_of_mem hmem
    obtain ⟨id', comment, hid', htext, hcomment⟩ := exists_comment_of_numbering? hedit
      (weave subject.source.toList e.stop behind ++ (Step.tailText subject.source.toList).toList)
    obtain rfl : id = id' := Option.some.inj (hid.symm.trans hid')
    refine ⟨before, comment, ?_, hcomment⟩
    have hstart : e.start = call.span.start := congrArg Span.start (Step.span_of_numbering? hedit)
    rw [hsource, weave_append, hstart, ← htext, List.append_assoc, List.append_assoc]

/-- A script that requires a module with a closing mark in its name. -/
def starredText : String := "require(\"./*/c\");"

/-- The script, in a file with a closing mark in its name. -/
def starredSubject (s : Summary) : Subject := ⟨⟨"/a*/b.js"⟩, "a*/b.js", starredText, some s, ⟨[("./*/c", .dense 0)]⟩⟩

/-- Neither of the marks closes a comment. -/
theorem comments_closed_of_starredNames : ∃ s code, Summary.parse? starredText = some s ∧
    transform .js true (starredSubject s) = .ok code ∧ StartsWithComment " a*\\/b.js ".toList code.source.toList ∧
      ∃ front comment, code.source.toList = front ++ ("0".toList ++ ' ' :: comment) ∧
        StartsWithComment " ./*\\/c ".toList comment := by
  have hcheck : ∃ cs, starredText.toList = cs ∧ ((Program.parse? .script cs).any fun program : Program =>
      let s := Summary.ofProgram program
      decide (s.requires.map RequireCall.specifier = ["./*/c"] ∧ s.regions = [])) = true :=
    ⟨_, String.toList_ofList, by decide +kernel⟩
  obtain ⟨program, hs, -, hcheck⟩ := Summary.exists_of_check hcheck
  obtain ⟨hspecifiers, hregions⟩ := of_decide_eq_true hcheck
  obtain ⟨call, hcall, hspecifier⟩ := List.mem_map.mp (hspecifiers ▸ List.mem_singleton_self "./*/c")
  obtain ⟨hhead, -, hscript⟩ := comments_closed (starredSubject (.ofProgram program)) true
  obtain ⟨code, hcode, hrequires⟩ := hscript _ hs rfl
  have hid : (starredSubject (.ofProgram program)).ids.get? call.specifier = some (.dense 0) := by
    rw [hspecifier]
    rfl
  have hname : inComment (starredSubject (.ofProgram program)).basePath = " a*\\/b.js ".toList := by
    rw [show (starredSubject (.ofProgram program)).basePath = "a*/b.js" from rfl]
    rfl
  have hcomment : inComment call.specifier = " ./*\\/c ".toList := by
    rw [hspecifier]
    rfl
  obtain ⟨before, comment, hsource, hwritten⟩ := hrequires call hcall (by simp [hregions]) _ hid
  exact ⟨_, code, hs, hcode, hname ▸ hhead .js code hcode, _, comment, hsource.trans (List.append_assoc ..).symm,
    hcomment ▸ hwritten⟩

end Relink
