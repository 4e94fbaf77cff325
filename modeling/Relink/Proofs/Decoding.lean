import Relink.Module.Artifact
import Relink.Proofs.Json
import Relink.Proofs.Table

/-!
# What is written as JSON is taken out again

A decoder takes out of a value what has been written into it, also when the fields of all objects have been put in
the order of their names, as reading does.

* `Codes` — a value writes something that a decoder takes out again.
* `fields?_canonical` — the fields of an object are found under their names.
* `codes_list`, `codes_table`, `codes_names` — lists, tables and sets of what is taken out again.
-/

namespace Relink

namespace Json

open Unicode

/-! ## Lists of values -/

theorem readableItems_iff {xs : List Json} : ReadableItems xs ↔ ∀ x ∈ xs, x.Readable := by
  induction xs with
  | nil => simp [ReadableItems]
  | cons x xs ih => simp [ReadableItems, ih]

theorem readableFields_iff {fs : List (String × Json)} : ReadableFields fs ↔ ∀ f ∈ fs, f.2.Readable := by
  induction fs with
  | nil => simp [ReadableFields]
  | cons f fs ih => simp [ReadableFields, ih]

theorem usableItems_iff {depth : Nat} {xs : List Json} :
    usableItems depth xs = true ↔ ∀ x ∈ xs, x.usable depth = true := by
  induction xs with
  | nil => simp [usableItems]
  | cons x xs ih => simp [usableItems, ih]

theorem usableFields_iff {depth : Nat} {fs : List (String × Json)} :
    usableFields depth fs = true ↔ ∀ f ∈ fs, f.2.usable depth = true := by
  induction fs with
  | nil => simp [usableFields]
  | cons f fs ih => simp [usableFields, ih]

theorem canonicalItems_eq (xs : List Json) : canonicalItems xs = xs.map canonical := by
  induction xs with
  | nil => rfl
  | cons x xs ih => rw [canonicalItems, ih, List.map_cons]

theorem canonicalFields_eq (fs : List (String × Json)) : canonicalFields fs = fs.map fun f => (f.1, f.2.canonical) := by
  induction fs with
  | nil => rfl
  | cons f fs ih => rw [canonicalFields, ih, List.map_cons]

/-! ## Natural numbers -/

theorem ne_zero_of_head? {n : Nat} (h : n ≠ 0) : (Nat.toDigits 10 n).head? ≠ some '0' := by
  induction n using Nat.strongRecOn with
  | ind n ih =>
    rw [Nat.toDigits_eq_if (by decide)]
    split
    next hlt =>
      have hdigits : ∀ d : Fin 10, d.val ≠ 0 → ([Nat.digitChar d.val] : List Char).head? ≠ some '0' := by decide
      exact hdigits ⟨n, hlt⟩ h
    next hge =>
      rw [List.head?_append_of_ne_nil _ Nat.toDigits_ne_nil]
      exact ih (n / 10) (by omega) (by omega)

theorem decimalValue_toDigits (n : Nat) : decimalValue (Nat.toDigits 10 n) = n := by
  have hvalue : ∀ (cs : List Char) (init : Nat),
      cs.foldl (fun n c => n * 10 + (c.toNat - 48)) init = Nat.ofDigitChars 10 cs init := by
    intro cs
    induction cs with
    | nil => exact fun _ => rfl
    | cons c cs ih =>
      intro init
      rw [List.foldl_cons, ih, Nat.ofDigitChars_cons, Nat.mul_comm]
      rfl
  exact (hvalue _ 0).trans (Nat.ofDigitChars_toDigits (by decide) (by decide))

/-- The digits of a number are read back. -/
theorem readNumber_toDigits (n : Nat) {rest : List Char} (hrest : Follows rest) :
    readNumber (Nat.toDigits 10 n ++ rest) = some (⟨false, n, 0, true⟩, rest) := by
  have hrestDigit : ∀ c ∈ rest.head?, isDigit c = false := by
    intro c hc
    rcases hrest c hc with rfl | rfl | rfl <;> rfl
  have htake : (Nat.toDigits 10 n ++ rest).takeWhile isDigit = Nat.toDigits 10 n := by
    rw [List.takeWhile_append_of_pos fun c hc => isDigit_of_mem_toDigits hc]
    cases rest with
    | nil => simp
    | cons c cs => simp [hrestDigit c rfl]
  have hdrop : (Nat.toDigits 10 n ++ rest).dropWhile isDigit = rest := by
    rw [List.dropWhile_append_of_pos fun c hc => isDigit_of_mem_toDigits hc]
    cases rest with
    | nil => rfl
    | cons c cs => simp [hrestDigit c rfl]
  have hsign : ∀ r, Nat.toDigits 10 n ++ rest ≠ '-' :: r := by
    intro r heq
    obtain ⟨c, cs, hdigits⟩ := List.exists_cons_of_ne_nil (Nat.toDigits_ne_nil (n := n) (b := 10))
    have hc := isDigit_of_mem_toDigits (hdigits ▸ List.mem_cons_self : c ∈ Nat.toDigits 10 n)
    rw [hdigits] at heq
    cases heq
    cases hc
  have hzero : ((Nat.toDigits 10 n).isEmpty ||
      ((Nat.toDigits 10 n).length > 1 && (Nat.toDigits 10 n).head? == some '0')) = false := by
    rw [List.isEmpty_eq_false_iff.mpr Nat.toDigits_ne_nil, Bool.false_or]
    by_cases hn : n = 0
    · subst hn
      rfl
    · simp [ne_zero_of_head? hn]
  unfold readNumber
  split
  next negative cs hfirst =>
    split at hfirst
    next r heq => exact absurd heq (hsign r)
    next =>
      cases hfirst
      simp only [htake, hdrop, hzero, Bool.false_eq_true, if_false]
      cases rest with
      | nil => simp [decimalValue_toDigits]
      | cons c cs => rcases hrest c rfl with rfl | rfl | rfl <;> simp [decimalValue_toDigits]

theorem readable_ofNat {n : Nat} (h : n < UInt64.size) : (ofNat n).Readable := by
  have htext : (Number.mk false n 0 true).text.toList = Nat.toDigits 10 n := by
    have hinteger : (Number.mk false n 0 true).isInteger = true := by simp [Number.isInteger, h]
    simp [Number.text, hinteger]
  constructor
  · obtain ⟨c, cs, hdigits⟩ := List.exists_cons_of_ne_nil (Nat.toDigits_ne_nil (n := n) (b := 10))
    rw [htext, hdigits]
    exact ⟨c, rfl, Or.inl (isDigit_of_mem_toDigits (hdigits ▸ List.mem_cons_self : c ∈ Nat.toDigits 10 n))⟩
  · intro rest hrest
    rw [htext]
    exact readNumber_toDigits n hrest

/-! ## What is taken out again -/

/-- A value can be read, and taken in at some depth. -/
structure Sound (v : Json) (depth : Nat) : Prop where
  readable : v.Readable
  usable : v.usable depth = true

/-- A value writes something: it is sound, and a decoder takes it out again. -/
structure Codes {α : Type} (d : Decoder α) (depth : Nat) (v : Json) (a : α) : Prop extends Sound v depth where
  decoded : d v.canonical = some a

variable {α : Type} {d : Decoder α} {depth : Nat}

theorem codes_string (depth : Nat) (text : String) : Codes Decoder.string depth (.string text) text :=
  ⟨⟨trivial, rfl⟩, rfl⟩

theorem codes_bool (depth : Nat) (b : Bool) : Codes Decoder.bool depth (.bool b) b := ⟨⟨trivial, rfl⟩, rfl⟩

theorem overflows_ofNat {n : Nat} (h : n < UInt64.size) : (Number.mk false n 0 true).overflows = false := by
  have hdigits : digitCount n < 300 := by
    unfold digitCount
    have hle : (Nat.toDigits 10 n).length ≤ 20 := by
      rw [Nat.length_toDigits_le_iff (by decide) (by decide)]
      exact Nat.lt_of_lt_of_le h (by decide)
    omega
  unfold Number.overflows
  split
  · rfl
  · simp only
    rw [if_neg (by omega), if_pos (by omega)]

theorem word_ofNat {n : Nat} (h : n < UInt64.size) : Decoder.word (ofNat n) = some n := by
  simp [ofNat, Decoder.word, Number.word?, h]

theorem codes_word (depth : Nat) {n : Nat} (h : n < UInt64.size) : Codes Decoder.word depth (ofNat n) n where
  readable := readable_ofNat h
  usable := by simp [ofNat, usable, overflows_ofNat h]
  decoded := word_ofNat h

/-- A list of what is taken out again. -/
theorem codes_list {f : α → Json} {xs : List α} (h : ∀ x ∈ xs, Codes d depth (f x) x) :
    Codes (Decoder.list d) (depth + 1) (.array (xs.map f)) xs where
  readable := by
    refine readableItems_iff.mpr ?_
    simpa using fun x hx => (h x hx).readable
  usable := by
    have hitems : usableItems depth (xs.map f) = true := usableItems_iff.mpr (by simpa using fun x hx => (h x hx).usable)
    simp [usable, hitems]
  decoded := by
    rw [canonical, canonicalItems_eq, List.map_map, Decoder.list]
    induction xs with
    | nil => rfl
    | cons x xs ih =>
      obtain ⟨hx, hxs⟩ := List.forall_mem_cons.mp h
      rw [List.map_cons, List.mapM_cons, Function.comp_apply, hx.decoded, ih hxs]
      rfl

/-- The fields of an object in the order of their names. -/
def sorted (fs : List (String × Json)) : Table String Json := Table.ofList (canonicalFields fs)

theorem canonical_object (fs : List (String × Json)) : canonical (.object fs) = .object (sorted fs).entries := rfl

theorem lookup_sorted {fs : List (String × Json)} (h : (fs.map Prod.fst).Nodup) (name : String) :
    (sorted fs).entries.lookup name = (fs.lookup name).map canonical := by
  have hkeys : ((canonicalFields fs).map Prod.fst).Nodup := by
    rw [canonicalFields_eq, List.map_map]
    exact h
  rw [← Table.get?_eq_lookup, sorted, Table.get?_ofList_of_nodup hkeys, canonicalFields_eq]
  clear h hkeys
  induction fs with
  | nil => rfl
  | cons f fs ih =>
    rw [List.map_cons, List.lookup_cons, List.lookup_cons, ih]
    split <;> rfl

theorem sound_object {fs : List (String × Json)} (h : ∀ f ∈ fs, f.2.Sound depth) : (object fs).Sound (depth + 1) where
  readable := readableFields_iff.mpr fun f hf => (h f hf).readable
  usable := by simp [usable, usableFields_iff.mpr fun f hf => (h f hf).usable]

theorem sound_optionalField (name : String) (text : Option String) : ∀ f ∈ optionalField name text, f.2.Sound depth := by
  cases text with
  | none => simp [optionalField]
  | some text => simpa [optionalField] using (codes_string depth text).toSound

/-- A table of what is taken out again. -/
theorem codes_table {f : α → Json} {t : Table String α} (hordered : t.Ordered)
    (h : ∀ v ∈ t.values, Codes d depth (f v) v) : Codes (Decoder.table d) (depth + 1) (ofTable f t) t where
  toSound := by
    refine sound_object fun field hfield => ?_
    obtain ⟨e, he, rfl⟩ := List.mem_map.mp hfield
    exact (h e.2 (List.mem_map_of_mem he)).toSound
  decoded := by
    -- the fields stand in the order of their names already
    have hsorted : (sorted (t.map f).entries).entries = t.entries.map fun e => (e.1, (f e.2).canonical) := by
      have hfields : (Table.mk (canonicalFields (t.map f).entries)).Ordered := by
        rw [canonicalFields_eq]
        exact List.pairwise_map.mpr (List.pairwise_map.mpr hordered)
      rw [sorted, Table.ofList_entries hfields, canonicalFields_eq, Table.map, List.map_map]
      rfl
    have hentries : ∀ es : List (String × α), (∀ e ∈ es, Codes d depth (f e.2) e.2) →
        (es.map fun e => (e.1, (f e.2).canonical)).mapM (fun e => (d e.2).map fun v => (e.1, v)) = some es := by
      intro es hes
      induction es with
      | nil => rfl
      | cons e es ih =>
        obtain ⟨he, hes⟩ := List.forall_mem_cons.mp hes
        rw [List.map_cons, List.mapM_cons, he.decoded, ih hes]
        rfl
    rw [ofTable, canonical_object, hsorted, Decoder.table, hentries t.entries fun e he => h e.2 (List.mem_map_of_mem he),
      Option.map_some, Table.ofList_entries hordered]

/-- A set of names is taken out again. -/
theorem codes_names {s : NameSet} (hordered : s.table.Ordered) : Codes Decoder.names (depth + 1) (ofNames s) s where
  toSound := (codes_list fun x _ => codes_string depth x).toSound
  decoded := by
    have hcodes : Codes (Decoder.list Decoder.string) 1 (.array (s.toList.map .string)) s.toList :=
      codes_list fun x _ => codes_string 0 x
    have hlist := hcodes.decoded
    have hentries : s.toList.map (fun x => (x, ())) = s.table.entries := by
      simp [NameSet.toList, Table.keys, Function.comp_def]
    rw [Decoder.names, ofNames, hlist, Option.map_some, Option.some.injEq]
    have hsame := NameSet.table_ofList s.toList
    rw [hentries, Table.ofList_entries hordered] at hsame
    exact congrArg NameSet.mk hsame

/-! ## Records -/

theorem namesDistinct_iff {xs : List String} : namesDistinct xs = true ↔ xs.Nodup := by
  induction xs with
  | nil => simp [namesDistinct]
  | cons x xs ih => simp [namesDistinct, ih]

/-- The fields of an object are found under their names. -/
theorem fields?_canonical (names : List String) {fs : List (String × Json)} (h : (fs.map Prod.fst).Nodup) :
    ∃ fields, fields? names (canonical (.object fs)) = some fields ∧
      ∀ name ∈ names, fields.values.lookup name = (fs.lookup name).map canonical := by
  have hkeys : ((sorted fs).entries.filter fun f => names.contains f.1).map Prod.fst |>.Nodup :=
    (List.filter_sublist.map _).nodup (Table.ordered_ofList _).nodup_keys
  refine ⟨⟨(sorted fs).entries.filter fun f => names.contains f.1⟩, ?_, ?_⟩
  · rw [canonical_object, fields?, if_pos (namesDistinct_iff.mpr hkeys)]
  · intro name hname
    rw [← lookup_sorted h]
    simp only
    induction (sorted fs).entries with
    | nil => rfl
    | cons f es ih =>
      rw [List.filter_cons, List.lookup_cons]
      by_cases hf : name = f.1
      · subst hf
        rw [if_pos (List.contains_iff_mem.mpr hname), List.lookup_cons]
        simp
      · rw [beq_eq_false_iff_ne.mpr hf]
        split
        · rw [List.lookup_cons, beq_eq_false_iff_ne.mpr hf]
          exact ih
        · exact ih

section Fields

variable {fs : List (String × Json)} {fields : Fields} {name : String} {v : Json} {a : α}

theorem required_eq (hlookup : fields.values.lookup name = (fs.lookup name).map canonical)
    (hfield : fs.lookup name = some v) (h : Codes d depth v a) : fields.required name d = some a := by
  rw [Fields.required, hlookup, hfield, Option.map_some, Option.bind_some, h.decoded]

theorem withDefault_eq (hlookup : fields.values.lookup name = (fs.lookup name).map canonical)
    (hfield : fs.lookup name = some v) (h : Codes d depth v a) (default : α) :
    fields.withDefault name d default = some a := by
  rw [Fields.withDefault, hlookup, hfield]
  exact h.decoded

/-- A text that is left out when it is missing is missing again. -/
theorem optional_eq {text : Option String} (hlookup : fields.values.lookup name = (fs.lookup name).map canonical)
    (hfield : fs.lookup name = text.map string) : fields.optional name Decoder.string = some text := by
  rw [Fields.optional, Fields.withDefault, hlookup, hfield]
  cases text <;> rfl

end Fields

end Json

end Relink
