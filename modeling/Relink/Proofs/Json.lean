import Mathlib.Data.List.Basic
import Relink.Json.Read

/-!
# JSON values are read back

* `readString_quoted` — a text between quotes is read back.
* `parse?_render` — so is a value whose numbers are, unless something in it is broken.
-/

namespace Relink.Json

open Unicode

/-! ## Strings -/

theorem ofUnit_toNat (c : Char) : Piece.ofUnit c.toNat = .char c := by
  have hvalid : c.toNat.isValidChar := c.valid
  have hchar : Char.ofNatAux c.toNat hvalid = c := Char.ext (UInt32.toNat_inj.mp rfl)
  unfold Piece.ofUnit charOf?
  rw [dif_pos hvalid, hchar]

/-- A character stands between quotes behind a backslash, with its code point, or as it is. -/
theorem quoteChar_cases (c : Char) :
    (∃ e, (c, e) ∈ [('\x22', '\x22'), ('\\', '\\'), ('\n', 'n'), ('\r', 'r'), ('\t', 't'), ('\x08', 'b'),
      ('\x0c', 'f')] ∧ quoteChar c = ['\\', e]) ∨
    (∃ a b, hex4? '0' '0' a b = some c.toNat ∧ quoteChar c = ['\\', 'u', '0', '0', a, b]) ∨
    (c ≠ '\x22' ∧ c ≠ '\\' ∧ ¬c < ' ') ∧ quoteChar c = [c] := by
  by_cases hshort : c ∈ ['\x22', '\\', '\n', '\r', '\t', '\x08', '\x0c']
  · left
    simp only [List.mem_cons, List.not_mem_nil, or_false] at hshort
    rcases hshort with rfl | rfl | rfl | rfl | rfl | rfl | rfl <;> exact ⟨_, by simp, rfl⟩
  · simp only [List.mem_cons, List.not_mem_nil, or_false, not_or] at hshort
    right
    by_cases hcontrol : c < ' '
    · have hall : ∀ n : Fin 32, hex4? '0' '0' (hexDigit (n / 16)) (hexDigit (n % 16)) = some n.val := by decide
      have hlt : c.toNat < 32 := hcontrol
      exact Or.inl ⟨_, _, hall ⟨c.toNat, hlt⟩, by simp [quoteChar, *]⟩
    · exact Or.inr ⟨⟨hshort.1, hshort.2.1, hcontrol⟩, by simp [quoteChar, *]⟩

/-- A character between quotes is read back. -/
theorem readPieces_quoteChar (c : Char) (acc : List Piece) (rest : List Char) :
    readPieces acc (quoteChar c ++ rest) = readPieces (.char c :: acc) rest := by
  rcases quoteChar_cases c with ⟨e, hmem, hquote⟩ | ⟨a, b, hhex, hquote⟩ | ⟨⟨hquot, hslash, hcontrol⟩, hquote⟩
  · rw [hquote]
    simp only [List.mem_cons, Prod.mk.injEq, List.not_mem_nil, or_false] at hmem
    rcases hmem with ⟨rfl, rfl⟩ | ⟨rfl, rfl⟩ | ⟨rfl, rfl⟩ | ⟨rfl, rfl⟩ | ⟨rfl, rfl⟩ | ⟨rfl, rfl⟩ | ⟨rfl, rfl⟩ <;> rfl
  · rw [hquote]
    simp only [List.cons_append, List.nil_append, readPieces, hhex, ofUnit_toNat]
  · rw [hquote, List.singleton_append, readPieces]
    · simp [*]
    all_goals simp_all

theorem readPieces_flatMap (cs : List Char) (acc : List Piece) (rest : List Char) :
    readPieces acc (cs.flatMap quoteChar ++ '\x22' :: rest) = some (acc.reverse ++ cs.map .char, rest) := by
  induction cs generalizing acc with
  | nil => simp [readPieces]
  | cons c cs ih =>
    rw [List.flatMap_cons, List.append_assoc, readPieces_quoteChar, ih]
    simp

theorem joinHalves_map_char (cs : List Char) : joinHalves (cs.map .char) = cs.map .char := by
  induction cs with
  | nil => rfl
  | cons c cs ih =>
    unfold joinHalves at ih ⊢
    rw [List.map_cons, List.foldr_cons, ih]
    rfl

theorem mapM_char?_map_char (cs : List Char) : (cs.map Piece.char).mapM Piece.char? = some cs := by
  induction cs with
  | nil => rfl
  | cons c cs ih =>
    rw [List.map_cons, List.mapM_cons, ih]
    rfl

/-- A text between quotes is read back. -/
theorem readString_quoted (text : String) (rest : List Char) :
    readString (text.toList.flatMap quoteChar ++ '\x22' :: rest) = some (some text, rest) := by
  unfold readString
  rw [readPieces_flatMap]
  simp only [List.reverse_nil, List.nil_append, Option.map_some, joinHalves_map_char, mapM_char?_map_char,
    String.ofList_toList]

/-! ## Values -/

/-- What may follow a value. -/
def Follows (rest : List Char) : Prop := ∀ c ∈ rest.head?, c = ',' ∨ c = ']' ∨ c = '\x7d'

theorem isDigit_of_mem_toDigits {n : Nat} {c : Char} (h : c ∈ Nat.toDigits 10 n) : isDigit c = true := by
  have hdigit := Nat.isDigit_of_mem_toDigits (by decide) (by decide) h
  simpa [Char.isDigit, isDigit, Char.le_def] using hdigit

/-- A number is read back from its text. -/
structure Number.Readable (n : Number) : Prop where
  head : ∃ c ∈ n.text.toList.head?, isDigit c = true ∨ c = '-'
  read : ∀ rest, Follows rest → readNumber (n.text.toList ++ rest) = some (n, rest)

mutual

/-- Nothing in a value is broken, and its numbers are read back from their texts. -/
def Readable : Json → Prop
  | .number n => n.Readable
  | .broken => False
  | .array xs => ReadableItems xs
  | .object fs => ReadableFields fs
  | _ => True

def ReadableItems : List Json → Prop
  | [] => True
  | x :: xs => Readable x ∧ ReadableItems xs

def ReadableFields : List (String × Json) → Prop
  | [] => True
  | (_, v) :: fs => Readable v ∧ ReadableFields fs

end

theorem toList_quoted (text : String) :
    (quoted text).toList = '\x22' :: (text.toList.flatMap quoteChar ++ ['\x22']) := by
  unfold quoted
  rw [String.toList_ofList]

theorem ne_of_sign {c d : Char} (h : isDigit c = true ∨ c = '-') (hd : isDigit d = false) (hd' : d ≠ '-') : c ≠ d := by
  rintro rfl
  rcases h with h | h
  · rw [h] at hd
    cases hd
  · exact hd' h

theorem isBlank_of_sign {c : Char} (h : isDigit c = true ∨ c = '-') : isBlank c = false := by
  unfold isBlank
  simp only [Bool.or_eq_false_iff, beq_eq_false_iff_ne]
  refine ⟨⟨⟨?_, ?_⟩, ?_⟩, ?_⟩ <;> exact ne_of_sign h (by decide) (by decide)

/-- The first character of a value is no blank, and does not end a list. -/
theorem exists_head {v : Json} (h : v.Readable) :
    ∃ c cs, v.render.toList = c :: cs ∧ isBlank c = false ∧ c ≠ ']' := by
  cases v with
  | null => exact ⟨_, _, rfl, rfl, by decide⟩
  | bool b => cases b <;> exact ⟨_, _, rfl, rfl, by decide⟩
  | number n =>
    obtain ⟨c, hc, hsign⟩ := Number.Readable.head h
    obtain ⟨cs, hcs⟩ := List.head?_eq_some_iff.mp hc
    exact ⟨c, cs, hcs, isBlank_of_sign hsign, ne_of_sign hsign (by decide) (by decide)⟩
  | string s => exact ⟨_, _, toList_quoted s, rfl, by decide⟩
  | broken => cases h
  | array xs => exact ⟨'[', _, by rw [render, String.toList_append, String.toList_append]; rfl, rfl, by decide⟩
  | object fs => exact ⟨'\x7b', _, by rw [render, String.toList_append, String.toList_append]; rfl, rfl, by decide⟩

theorem skipBlanks_cons {c : Char} (h : isBlank c = false) (cs : List Char) : skipBlanks (c :: cs) = c :: cs := by
  simp [skipBlanks, h]

theorem readItems_cons {limit : Nat} {text more rest : List Char} {x : Json} {xs : List Json}
    (hx : readValue limit (text ++ ',' :: more) = some (x, ',' :: more)) (hxs : readItems limit more = some (xs, rest)) :
    readItems (limit + 1) (text ++ ',' :: more) = some (x :: xs, rest) := by
  rw [readItems, hx]
  simp [skipBlanks_cons, isBlank, hxs]

theorem readItems_last {limit : Nat} {text rest : List Char} {x : Json}
    (hx : readValue limit (text ++ ']' :: rest) = some (x, ']' :: rest)) :
    readItems (limit + 1) (text ++ ']' :: rest) = some ([x], rest) := by
  rw [readItems, hx]
  simp [skipBlanks_cons, isBlank]

theorem readFields_cons {limit : Nat} {text more rest : List Char} {k : String} {v : Json}
    {fs : List (String × Json)} (hv : readValue limit (text ++ ',' :: more) = some (v, ',' :: more))
    (hfs : readFields limit more = some (fs, true, rest)) :
    readFields (limit + 1) ((quoted k).toList ++ ':' :: (text ++ ',' :: more)) = some ((k, v) :: fs, true, rest) := by
  rw [readFields, toList_quoted, List.cons_append, skipBlanks_cons (by rfl)]
  simp [readString_quoted, skipBlanks_cons, isBlank, hv, hfs]

theorem readFields_last {limit : Nat} {text rest : List Char} {k : String} {v : Json}
    (hv : readValue limit (text ++ '\x7d' :: rest) = some (v, '\x7d' :: rest)) :
    readFields (limit + 1) ((quoted k).toList ++ ':' :: (text ++ '\x7d' :: rest)) = some ([(k, v)], true, rest) := by
  rw [readFields, toList_quoted, List.cons_append, skipBlanks_cons (by rfl)]
  simp [readString_quoted, skipBlanks_cons, isBlank, hv]

theorem readValue_array {limit : Nat} {c : Char} {cs rest : List Char} {xs : List Json} (hblank : isBlank c = false)
    (hend : c ≠ ']') (hxs : readItems limit (c :: cs) = some (xs, rest)) :
    readValue (limit + 1) ('[' :: c :: cs) = some (.array xs, rest) := by
  rw [readValue, skipBlanks_cons (by rfl)]
  simp only [skipBlanks_cons hblank]
  split
  next hc => 
    cases hc
    exact absurd rfl hend
  next => simp [hxs]

theorem readValue_object {limit : Nat} {cs rest : List Char} {fs : List (String × Json)}
    (hfs : readFields limit ('\x22' :: cs) = some (fs, true, rest)) :
    readValue (limit + 1) ('\x7b' :: '\x22' :: cs) = some (.object fs, rest) := by
  rw [readValue, skipBlanks_cons (by rfl)]
  simp [skipBlanks_cons, isBlank, hfs]

theorem readValue_number {limit : Nat} {n : Number} (h : n.Readable) {rest : List Char} (hrest : Follows rest) :
    readValue (limit + 1) (n.text.toList ++ rest) = some (.number n, rest) := by
  obtain ⟨c, hc, hsign⟩ := h.head
  obtain ⟨cs, hcs⟩ := List.head?_eq_some_iff.mp hc
  have hread := h.read rest hrest
  rw [hcs, List.cons_append] at hread ⊢
  rw [readValue, skipBlanks_cons (isBlank_of_sign hsign)]
  split
  case h_7 => simp [hread]
  all_goals
    next heq =>
      obtain ⟨rfl, -⟩ := List.cons.inj heq
      exact absurd rfl (ne_of_sign hsign (by decide) (by decide))

theorem length_pos {v : Json} (h : v.Readable) : 0 < v.render.toList.length := by
  obtain ⟨c, cs, hv, -⟩ := exists_head h
  rw [hv]
  exact Nat.succ_pos _

theorem toList_renderItems_cons (x : Json) {xs : List Json} (h : xs ≠ []) :
    (renderItems (x :: xs)).toList = x.render.toList ++ ',' :: (renderItems xs).toList := by
  rw [renderItems, String.toList_append, String.toList_append, List.append_assoc]
  · rfl
  · exact h

theorem toList_renderFields_singleton (k : String) (v : Json) :
    (renderFields [(k, v)]).toList = (quoted k).toList ++ ':' :: v.render.toList := by
  rw [renderFields, String.toList_append, String.toList_append, List.append_assoc]
  rfl

theorem toList_renderFields_cons (k : String) (v : Json) {fs : List (String × Json)} (h : fs ≠ []) :
    (renderFields ((k, v) :: fs)).toList =
      (quoted k).toList ++ ':' :: (v.render.toList ++ ',' :: (renderFields fs).toList) := by
  rw [renderFields, String.toList_append, String.toList_append, String.toList_append, String.toList_append]
  · simp
  · exact h

/-- The items of an array start with no blank, and with no end of the array. -/
theorem exists_head_items {x : Json} (xs : List Json) (h : x.Readable) :
    ∃ c cs, (renderItems (x :: xs)).toList = c :: cs ∧ isBlank c = false ∧ c ≠ ']' := by
  obtain ⟨c, cs, hx, hblank, hend⟩ := exists_head h
  cases xs with
  | nil => exact ⟨c, cs, hx, hblank, hend⟩
  | cons y ys => exact ⟨c, _, by rw [toList_renderItems_cons x (by simp), hx, List.cons_append], hblank, hend⟩

/-- The fields of an object start with a quote. -/
theorem exists_head_fields (f : String × Json) (fs : List (String × Json)) :
    ∃ cs, (renderFields (f :: fs)).toList = '\x22' :: cs := by
  cases fs with
  | nil => exact ⟨_, by rw [toList_renderFields_singleton, toList_quoted, List.cons_append]⟩
  | cons f' fs => exact ⟨_, by rw [toList_renderFields_cons _ _ (by simp), toList_quoted, List.cons_append]⟩

/-- A value, the fields of an object and the items of an array are read back, whatever follows. -/
theorem readValue_render :
    (∀ v : Json, v.Readable → ∀ limit rest, v.render.toList.length ≤ limit → Follows rest →
      readValue limit (v.render.toList ++ rest) = some (v, rest)) ∧
    (∀ fs : List (String × Json), ReadableFields fs → fs ≠ [] → ∀ limit rest, (renderFields fs).toList.length < limit →
      readFields limit ((renderFields fs).toList ++ '\x7d' :: rest) = some (fs, true, rest)) ∧
    ∀ xs : List Json, ReadableItems xs → xs ≠ [] → ∀ limit rest, (renderItems xs).toList.length < limit →
      readItems limit ((renderItems xs).toList ++ ']' :: rest) = some (xs, rest) := by
  apply render.mutual_induct
  -- values, from null to objects
  case case1 =>
    intro h limit rest hlimit _
    obtain ⟨limit, rfl⟩ := Nat.exists_eq_add_of_lt (Nat.lt_of_lt_of_le (length_pos h) hlimit)
    rfl
  case case2 =>
    intro h limit rest hlimit _
    obtain ⟨limit, rfl⟩ := Nat.exists_eq_add_of_lt (Nat.lt_of_lt_of_le (length_pos h) hlimit)
    rfl
  case case3 =>
    intro b hb h limit rest hlimit _
    obtain rfl : b = false := by simpa using hb
    obtain ⟨limit, rfl⟩ := Nat.exists_eq_add_of_lt (Nat.lt_of_lt_of_le (length_pos h) hlimit)
    rfl
  case case4 =>
    intro n hn limit rest hlimit hrest
    obtain ⟨limit, rfl⟩ := Nat.exists_eq_add_of_lt (Nat.lt_of_lt_of_le (length_pos hn) hlimit)
    exact readValue_number hn hrest
  case case5 =>
    intro s h limit rest hlimit _
    obtain ⟨limit, rfl⟩ := Nat.exists_eq_add_of_lt (Nat.lt_of_lt_of_le (length_pos h) hlimit)
    rw [render, toList_quoted, List.cons_append, readValue, skipBlanks_cons (by rfl)]
    simp [readString_quoted]
  case case6 =>
    rintro ⟨⟩
  case case7 =>
    intro xs ih hxs limit rest hlimit _
    obtain ⟨limit, rfl⟩ := Nat.exists_eq_add_of_lt (Nat.lt_of_lt_of_le (length_pos (show (Json.array xs).Readable from hxs)) hlimit)
    have htext : (Json.array xs).render.toList ++ rest = '[' :: ((renderItems xs).toList ++ ']' :: rest) := by
      rw [render, String.toList_append, String.toList_append, List.append_assoc, List.append_assoc]
      rfl
    rw [htext]
    cases xs with
    | nil => rfl
    | cons x xs =>
      have hlength : (renderItems (x :: xs)).toList.length < 0 + limit := by
        simp [render] at hlimit
        omega
      have hitems := ih hxs (by simp) (0 + limit) rest hlength
      obtain ⟨c, cs, hcs, hblank, hend⟩ := exists_head_items xs hxs.1
      rw [hcs, List.cons_append] at hitems ⊢
      exact readValue_array hblank hend hitems
  case case8 =>
    intro fs ih hfs limit rest hlimit _
    obtain ⟨limit, rfl⟩ := Nat.exists_eq_add_of_lt (Nat.lt_of_lt_of_le (length_pos (show (Json.object fs).Readable from hfs)) hlimit)
    have htext : (Json.object fs).render.toList ++ rest = '\x7b' :: ((renderFields fs).toList ++ '\x7d' :: rest) := by
      rw [render, String.toList_append, String.toList_append, List.append_assoc, List.append_assoc]
      rfl
    rw [htext]
    cases fs with
    | nil => rfl
    | cons f fs =>
      have hlength : (renderFields (f :: fs)).toList.length < 0 + limit := by
        simp [render] at hlimit
        omega
      have hfields := ih hfs (by simp) (0 + limit) rest hlength
      obtain ⟨cs, hcs⟩ := exists_head_fields f fs
      rw [hcs, List.cons_append] at hfields ⊢
      exact readValue_object hfields
  -- the items of an array: none, the last one, one with others behind it
  case case9 =>
    intro _ hnil
    exact absurd rfl hnil
  case case10 =>
    intro x ih hx _ limit rest hlimit
    obtain ⟨limit, rfl⟩ : ∃ l, limit = l + 1 := ⟨limit - 1, by omega⟩
    exact readItems_last (ih hx.1 limit _ (Nat.lt_succ_iff.mp hlimit) (by simp [Follows]))
  case case11 =>
    intro x xs hne ihx ihxs hxs _ limit rest hlimit
    have hx := length_pos hxs.1
    rw [toList_renderItems_cons x hne] at hlimit ⊢
    rw [List.length_append, List.length_cons] at hlimit
    obtain ⟨limit, rfl⟩ : ∃ l, limit = l + 1 := ⟨limit - 1, by omega⟩
    rw [List.append_assoc, List.cons_append]
    exact readItems_cons (ihx hxs.1 limit _ (by omega) (by simp [Follows])) (ihxs hxs.2 hne limit rest (by omega))
  -- the fields of an object, likewise
  case case12 =>
    intro _ hnil
    exact absurd rfl hnil
  case case13 =>
    intro k v ih hv _ limit rest hlimit
    rw [toList_renderFields_singleton] at hlimit ⊢
    rw [List.length_append, List.length_cons] at hlimit
    obtain ⟨limit, rfl⟩ : ∃ l, limit = l + 1 := ⟨limit - 1, by omega⟩
    rw [List.append_assoc, List.cons_append]
    exact readFields_last (ih hv.1 limit _ (by omega) (by simp [Follows]))
  case case14 =>
    intro k v fs hne ihv ihfs hfs _ limit rest hlimit
    rw [toList_renderFields_cons k v hne] at hlimit ⊢
    rw [List.length_append, List.length_cons, List.length_append, List.length_cons] at hlimit
    obtain ⟨limit, rfl⟩ : ∃ l, limit = l + 1 := ⟨limit - 1, by omega⟩
    rw [List.append_assoc, List.cons_append, List.append_assoc, List.cons_append]
    exact readFields_cons (ihv hfs.1 limit _ (by omega) (by simp [Follows])) (ihfs hfs.2 hne limit rest (by omega))

/-- A value is read back from its text. -/
theorem parse?_render {v : Json} (h : v.Readable) : parse? v.render = some v := by
  have hread := readValue_render.1 v h (2 * v.render.toList.length + 2) [] (by omega) (by simp [Follows])
  rw [List.append_nil] at hread
  simp [parse?, hread, skipBlanks]

end Relink.Json
