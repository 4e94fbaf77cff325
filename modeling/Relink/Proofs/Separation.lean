import Relink.Proofs.Bindings
import Relink.Proofs.Weaving

/-!
# The statements of a converted module

The statements of a module that are no imports and exports keep their texts and their order in the text of the
converted module. What separates them is what is written for the statements between them, and for a list of exports
nothing is written at all.

* `writtenFrom` — the text of statements: the gaps between them, and what is written for each.
* `written_of_isOwnList` — for a list of exports only the ends of its lines are written.
* `exists_written_of_source?` — what is written for an import or a re-export ends with a semicolon.
* `kept_texts` — the text of a converted module, statement by statement.
* `exists_merged` — two statements around a list of exports can become one.
-/

namespace Relink.Script.CommonJs

open Place

variable {text : Source}

/-- A statement that conversion leaves alone, and that is no directive. -/
def isKept (n : Node) : Bool :=
  match n.kind with
  | .importDeclaration _ _ | .exportNamed _ _ | .exportDefault | .exportAll _ _ | .directive _ => false
  | _ => true

/-- A list of exports of the module's own bindings. -/
def isOwnList : Node → Bool
  | .mk (.exportNamed _ none) _ [] => true
  | _ => false

/-- The texts of the statements that are kept. -/
def keptTexts (source : List Char) (ns : List Node) : List (List Char) :=
  (ns.filter isKept).map fun n => n.span.extract source

/-- The texts of statements. -/
def statementTexts (source : List Char) (ns : List Node) : List (List Char) := ns.map fun n => n.span.extract source

/-! ## What is written for statements -/

/-- What is written for a statement, behind a number of constants. -/
def written (source : List Char) (number : Nat) (n : Node) : List Char :=
  weaveTo source n.span.stop n.span.start ((emissions number n).map (Emission.edit source))

/-- What is written for statements from an offset on, behind a number of constants, with the gaps between them. -/
def writtenFrom (source : List Char) : Nat → Nat → List Node → List Char
  | _, cursor, [] => Span.extract ⟨cursor, byteLength source⟩ source
  | number, cursor, n :: ns =>
    Span.extract ⟨cursor, n.span.start⟩ source ++
      (written source number n ++ writtenFrom source (number + constants n) n.span.stop ns)

/-- The text in front of edits is left alone. -/
theorem weaveTo_eq_append {a b c : Nat} {es : List Edit} (hes : ∀ e ∈ es, e.Keeps text) (ha : Cut text a)
    (hb : Cut text b) (hc : Cut text c) (hab : a ≤ b) (hbc : b ≤ c) (hbehind : ∀ e ∈ es, b ≤ e.start) :
    weaveTo text.chars c a es = Span.extract ⟨a, b⟩ text.chars ++ weaveTo text.chars c b es := by
  cases es with
  | nil => exact extract_append ha hb hc hab hbc
  | cons e es =>
    obtain ⟨hle, -⟩ := List.forall_mem_cons.mp hbehind
    obtain ⟨he, -⟩ := List.forall_mem_cons.mp hes
    rw [weaveTo, weaveTo, extract_append ha hb he.start hab hle, List.append_assoc]

/-- A text with what becomes of the statements in it, statement by statement. -/
theorem weave_eq_writtenFrom {ns : List Node} (h : Lined text ns) {number cursor : Nat} (hcursor : Cut text cursor)
    (hbehind : ∀ n ∈ ns, cursor ≤ n.span.start) :
    weave text.chars cursor ((emissionsFrom number ns).map (Emission.edit text.chars)) =
      writtenFrom text.chars number cursor ns := by
  induction ns generalizing number cursor with
  | nil => rfl
  | cons n ns ih =>
    obtain ⟨hn, hbefore, hns⟩ := lined_cons.mp h
    obtain ⟨hle, -⟩ := List.forall_mem_cons.mp hbehind
    have hstart : Cut text n.span.start := hn.fits.cut_start
    have hstop : Cut text n.span.stop := hn.fits.cut_stop
    obtain ⟨hwithin, -⟩ := emissions_within hn number
    obtain ⟨hall, hascending⟩ := emissionsFrom_ascending h number
    have hkeeps : ∀ e ∈ (emissionsFrom number (n :: ns)).map (Emission.edit text.chars), e.Keeps text := by
      intro e he
      obtain ⟨m, hm, rfl⟩ := List.mem_map.mp he
      obtain ⟨n', -, -, hordered, -, hcut, hcut'⟩ := hall m hm
      exact keeps_replace hordered hcut hcut' _
    have hedits : ((emissionsFrom number (n :: ns)).map (Emission.edit text.chars)).Pairwise
        fun a b => a.stop ≤ b.start := List.pairwise_map.mpr hascending
    rw [emissionsFrom, List.map_append] at hkeeps hedits ⊢
    have hfirst : ∀ e ∈ (emissions number n).map (Emission.edit text.chars), n.span.start ≤ e.start ∧ e.stop ≤ n.span.stop := by
      intro e he
      obtain ⟨m, hm, rfl⟩ := List.mem_map.mp he
      obtain ⟨hfrom, -, hto, -⟩ := hwithin m hm
      exact ⟨hfrom, hto⟩
    have hrest : ∀ e ∈ (emissionsFrom (number + constants n) ns).map (Emission.edit text.chars), n.span.stop ≤ e.start := by
      intro e he
      obtain ⟨m, hm, rfl⟩ := List.mem_map.mp he
      obtain ⟨n', hn', hfrom, -⟩ := (emissionsFrom_ascending hns (number + constants n)).1 m hm
      exact (hbefore n' hn').trans hfrom
    rw [weave_eq_weaveTo hkeeps hedits hcursor hstop (hle.trans hn.ordered) (fun e he => hle.trans (hfirst e he).1)
      (fun e he => (hfirst e he).2) hrest, ih hns hstop hbefore, writtenFrom, written,
      weaveTo_eq_append (fun e he => hkeeps e (List.mem_append_left _ he)) hcursor hstart hstop hle hn.ordered
        fun e he => (hfirst e he).1, List.append_assoc]

theorem extract_self (source : List Char) (o : Nat) : Span.extract ⟨o, o⟩ source = [] := by
  simp [Span.extract, takeBytes]

/-- A statement that is kept is written as it is. -/
theorem written_of_isKept {n : Node} (h : isKept n = true) (source : List Char) (number : Nat) :
    written source number n = n.span.extract source := by
  obtain ⟨kind, span, parts⟩ := n
  cases kind <;> first | rfl | cases h

/-- For a list of exports nothing is written but the ends of its lines. -/
theorem written_of_isOwnList {n : Node} (h : isOwnList n = true) (source : List Char) (number : Nat) :
    written source number n = List.replicate (newlines (n.span.extract source)) '\n' := by
  unfold isOwnList at h
  split at h
  next bindings span =>
    simp [written, emissions, weaveTo, Emission.edit, Emission.text, Edit.replace, extract_self, newlines]
  next => cases h

/-- A text that ends with a semicolon. -/
def EndsStatement (t : String) : Prop := ∃ front, t.toList = front ++ [';']

theorem endsStatement_append (t : String) {t' : String} (h : EndsStatement t') : EndsStatement (t ++ t') := by
  obtain ⟨front, hfront⟩ := h
  exact ⟨t.toList ++ front, by rw [String.toList_append, hfront, List.append_assoc]⟩

theorem endsStatement_append_join {t : String} (h : EndsStatement t) {ts : List String} (hts : ∀ t' ∈ ts, EndsStatement t') :
    EndsStatement (t ++ String.join ts) := by
  induction ts generalizing t with
  | nil => rwa [String.join_nil, String.append_empty]
  | cons t' ts ih =>
    obtain ⟨ht', hts⟩ := List.forall_mem_cons.mp hts
    rw [String.join_cons, ← String.append_assoc]
    exact ih (endsStatement_append t ht') hts

theorem endsStatement_defineText (name value : String) : EndsStatement (defineText name value) :=
  endsStatement_append _ ⟨[' ', '\x7d', ')'], rfl⟩

theorem endsStatement_copyText (module : String) : EndsStatement (copyText module) :=
  endsStatement_append _ ⟨"[name] \x7d); \x7d)".toList, by decide⟩

theorem endsStatement_moduleText (number : Nat) (source : String) : EndsStatement (moduleText number source) :=
  endsStatement_append _ ⟨[], rfl⟩

/-- An import, or an export of what another module has, becomes one text, which ends with a semicolon. -/
theorem exists_endsStatement {n : Node} {from_ : String} (h : n.source? = some from_) (number : Nat) :
    ∃ e, emissions number n = [e] ∧ e.span = n.span ∧ EndsStatement e.text := by
  obtain ⟨kind, span, parts⟩ := n
  unfold Node.source? at h
  split at h
  next bindings source _ _ heq =>
    cases heq
    cases h
    cases bindings with
    | nil =>
      have hcall : EndsStatement (requireText from_ ++ ";") := endsStatement_append _ ⟨[], rfl⟩
      exact ⟨_, rfl, rfl, endsStatement_append_join hcall (by simp)⟩
    | cons b bindings =>
      have hconstants : EndsStatement (moduleText number from_ ++
          (" const " ++ ", ".intercalate ((b :: bindings).map (bindingText (moduleName number))) ++ ";")) :=
        endsStatement_append _ (endsStatement_append _ ⟨[], rfl⟩)
      exact ⟨_, rfl, rfl, endsStatement_append_join hconstants (by simp)⟩
  next bindings source _ heq =>
    cases heq
    cases h
    refine ⟨_, rfl, rfl, endsStatement_append_join (endsStatement_moduleText number from_) ?_⟩
    intro t ht
    obtain ⟨d, hd, rfl⟩ := List.mem_map.mp ht
    obtain ⟨b, -, rfl⟩ := List.mem_map.mp hd
    exact endsStatement_defineText _ _
  next exported source _ _ heq =>
    cases heq
    cases h
    refine ⟨_, rfl, rfl, endsStatement_append_join (endsStatement_moduleText number from_) ?_⟩
    intro t ht
    obtain ⟨d, hd, rfl⟩ := List.mem_map.mp ht
    obtain rfl := List.mem_singleton.mp hd
    cases exported with
    | none => exact endsStatement_copyText _
    | some name => exact endsStatement_defineText _ _
  next => cases h

/-- What is written for an import, or for an export of what another module has, ends with a semicolon and the ends of
lines. -/
theorem exists_written_of_source? {n : Node} {from_ : String} (h : n.source? = some from_) (source : List Char)
    (number : Nat) : ∃ front count, written source number n = front ++ ';' :: List.replicate count '\n' := by
  obtain ⟨e, hemissions, hspan, front, hfront⟩ := exists_endsStatement h number
  refine ⟨front, newlines (e.span.extract source) - newlines e.text.toList, ?_⟩
  simp [written, hemissions, weaveTo, Emission.edit, Edit.replace, hspan, extract_self, hfront]

/-! ## Kept statements -/

/-- Texts with a gap in front of the first, and one behind each. -/
def interleave : List Char → List (List Char × List Char) → List Char
  | gap, [] => gap
  | gap, (t, next) :: rest => gap ++ (t ++ interleave next rest)

theorem append_interleave (front gap : List Char) (rest : List (List Char × List Char)) :
    front ++ interleave gap rest = interleave (front ++ gap) rest := by
  cases rest with
  | nil => rfl
  | cons r rest => rw [interleave, interleave, List.append_assoc]

/-- The kept statements are written as they are, in their order. -/
theorem exists_interleave (source : List Char) (number cursor : Nat) (ns : List Node) : ∃ gap rest,
    writtenFrom source number cursor ns = interleave gap rest ∧ rest.map Prod.fst = keptTexts source ns := by
  induction ns generalizing number cursor with
  | nil => exact ⟨_, [], rfl, rfl⟩
  | cons n ns ih =>
    obtain ⟨gap, rest, hwritten, hkept⟩ := ih (number + constants n) n.span.stop
    rw [writtenFrom, hwritten]
    cases hn : isKept n with
    | true =>
      rw [written_of_isKept hn]
      refine ⟨_, (n.span.extract source, gap) :: rest, rfl, ?_⟩
      rw [List.map_cons, hkept, keptTexts, keptTexts, List.filter_cons_of_pos hn, List.map_cons]
    | false =>
      refine ⟨_, rest, (append_interleave _ _ _).symm ▸ append_interleave _ _ _, ?_⟩
      rw [hkept, keptTexts, keptTexts, List.filter_cons_of_neg (by simp [hn])]

/-- The text of a converted module, statement by statement. -/
theorem convert_eq_writtenFrom {source converted : String} (h : convert source = .ok (some converted)) :
    ∃ program, Program.parse? .module source.toList = some program ∧
      converted.toList = (prologueText (program.body.flatMap ownExports)).toList ++
        writtenFrom source.toList 0 0 program.body := by
  obtain ⟨program, hprogram, htext⟩ := convert_eq_ok h
  have hlined : Lined ⟨source.toList⟩ program.body := Program.lined_of_parse? hprogram
  rw [@weave_eq_writtenFrom ⟨source.toList⟩ _ hlined 0 0 Step.cut_zero fun _ _ => Nat.zero_le _] at htext
  exact ⟨program, hprogram, htext⟩

/-- The text of a converted module, statement by statement: behind the prologue, the kept statements have their texts
and their order, though not always as statements of their own when the text is read again. What is written for an
import, or for an export of what another module has, ends with a semicolon; for a list of the module's own exports
nothing is written but the ends of its lines. -/
theorem kept_texts {source converted : String} (h : convert source = .ok (some converted)) :
    ∃ program, Program.parse? .module source.toList = some program ∧
      converted.toList = (prologueText (program.body.flatMap ownExports)).toList ++
        writtenFrom source.toList 0 0 program.body ∧
      (∃ gap rest, converted.toList = interleave gap rest ∧ rest.map Prod.fst = keptTexts source.toList program.body) ∧
      (∀ n ∈ program.body, ∀ number, isOwnList n = true →
        written source.toList number n = List.replicate (newlines (n.span.extract source.toList)) '\n') ∧
      ∀ n ∈ program.body, ∀ number from_, n.source? = some from_ →
        ∃ front count, written source.toList number n = front ++ ';' :: List.replicate count '\n' := by
  obtain ⟨program, hprogram, htext⟩ := convert_eq_writtenFrom h
  obtain ⟨gap, rest, hwritten, hkept⟩ := exists_interleave source.toList 0 0 program.body
  refine ⟨program, hprogram, htext, ?_, ?_, ?_⟩
  · rw [hwritten, append_interleave] at htext
    exact ⟨_, rest, htext, hkept⟩
  · exact fun n _ number hn => written_of_isOwnList hn source.toList number
  · exact fun n _ number from_ hn => exists_written_of_source? hn source.toList number

/-- A module with a list of exports between two statements. -/
def listBetween : String := "var a = f\nexport \x7b a \x7d;\n(b);\n"

/-- Two statements can become one: nothing is written between them, and the second continues the first. -/
theorem exists_merged : ∃ (converted : String) (program program' : Program),
    convert listBetween = .ok (some converted) ∧ Program.parse? .module listBetween.toList = some program ∧
      Program.parse? .script converted.toList = some program' ∧
      ¬(keptTexts listBetween.toList program.body).Sublist (statementTexts converted.toList program'.body) := by
  obtain ⟨converted, program, hconvert, hprogram, hmerged⟩ :=
    @exists_converted_of_check listBetween (fun cs program =>
      let converted := (prologueText (program.body.flatMap ownExports)).toList ++ writtenFrom cs 0 0 program.body
      (Program.parse? .script converted).any fun program' =>
        !(keptTexts cs program.body).isSublist (statementTexts converted program'.body)) _
      ⟨_, String.toList_ofList, by decide +kernel⟩
  obtain ⟨program₁, hprogram₁, htext⟩ := convert_eq_writtenFrom hconvert
  obtain rfl : program = program₁ := Option.some_inj.mp (hprogram.symm.trans hprogram₁)
  simp only [← htext] at hmerged
  obtain ⟨program', hprogram', hmerged⟩ := (Option.any_eq_true _ _).mp hmerged
  rw [Bool.not_eq_true', ← Bool.not_eq_true, List.isSublist_iff_sublist] at hmerged
  exact ⟨converted, program, program', hconvert, hprogram, hprogram', hmerged⟩

end Relink.Script.CommonJs
