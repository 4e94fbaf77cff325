import Mathlib.Data.List.Basic
import Mathlib.Data.List.Destutter
import Mathlib.Tactic.Ring
import Relink.SourceMap.Mappings

/-!
# Mappings are read back

* `decodeNumbers_flatMap` — the integers that are written one behind the other are read back.
* `readMappings_writeMappings` — so are tokens in the order of their positions, but for repetitions of a token.
* `proper_of_readMappings` — tokens that are read can be written.
-/

namespace Relink.SourceMap

/-! ## Numbers -/

theorem charDigits_digitChar {digit : Nat} (h : digit < 64) : charDigits (digitChar digit) = [digit] := by
  have hall : ∀ d : Fin 64, charDigits (digitChar d) = [d.val] := by decide +kernel
  exact hall ⟨digit, h⟩

theorem lt_of_mem_naturalDigits {n digit : Nat} (h : digit ∈ naturalDigits n) : digit < 64 := by
  fun_induction naturalDigits n with
  | case1 n hn =>
    rw [List.mem_singleton] at h
    omega
  | case2 n hn ih =>
    rcases List.mem_cons.mp h with rfl | h
    · omega
    · exact ih h

/-- A natural number is read back where its digits stop at one that is not marked. -/
theorem decodeDigits_naturalDigits {n shift sum : Nat} {rest : List Nat} (hshift : shift < 64)
    (hn : n * 2 ^ shift < 2 ^ 64) : decodeDigits sum shift (naturalDigits n ++ rest) =
      (decodeDigits 0 0 rest).map fun ns => signedOf (sum + n * 2 ^ shift) :: ns := by
  fun_induction naturalDigits n generalizing shift sum with
  | case1 n hsmall =>
    rw [List.singleton_append, decodeDigits, if_neg (Nat.not_le.mpr hshift)]
    simp only
    rw [if_neg (Nat.not_le.mpr hsmall), Nat.mod_eq_of_lt hsmall]
    rfl
  | case2 n hlarge ih =>
    have hdigit : (n % 32 + 32) % 32 = n % 32 := by omega
    have hpow : 2 ^ (shift + 5) = 32 * 2 ^ shift := by rw [pow_add]; ring
    have hsplit : n * 2 ^ shift = n % 32 * 2 ^ shift + n / 32 * 2 ^ (shift + 5) := by
      rw [hpow]
      calc n * 2 ^ shift = (n % 32 + 32 * (n / 32)) * 2 ^ shift := by rw [Nat.mod_add_div]
        _ = n % 32 * 2 ^ shift + n / 32 * (32 * 2 ^ shift) := by ring
    have hrest : n / 32 * 2 ^ (shift + 5) < 2 ^ 64 := by omega
    have hshift' : shift + 5 < 64 := by
      have hone : 1 ≤ n / 32 := by omega
      have hle : 2 ^ (shift + 5) ≤ n / 32 * 2 ^ (shift + 5) := Nat.le_mul_of_pos_left _ hone
      exact (Nat.pow_lt_pow_iff_right (by decide : 1 < 2)).mp (Nat.lt_of_le_of_lt hle hrest)
    rw [List.cons_append, decodeDigits, if_neg (Nat.not_le.mpr hshift)]
    simp only
    rw [if_pos (by omega : n % 32 + 32 ≥ 32), hdigit, ih hshift' hrest, hsplit, Nat.add_assoc]
    rfl

theorem signedOf_signLast {n : Int} (h : n.natAbs < 2 ^ 62) : signedOf (signLast n) = n := by
  have hsmall : signLast n < 2 ^ 63 := by
    unfold signLast
    split <;> omega
  have hbmod : Int.bmod (signLast n) UInt64.size = signLast n := by
    have hlarge : ¬(signLast n : Int) % UInt64.size ≥ (UInt64.size + 1) / 2 := by
      simp only [UInt64.size]
      omega
    rw [Int.bmod_eq_emod, if_neg hlarge]
    simp only [UInt64.size]
    omega
  unfold signedOf
  simp only [hbmod, beq_iff_eq]
  unfold signLast
  -- the lowest bit is set for negative numbers only
  by_cases hn : n < 0
  · rw [if_pos hn, if_neg (by omega)]
    omega
  · rw [if_neg hn, if_pos (by omega)]
    omega

/-- The integers that are written one behind the other are read back. -/
theorem decodeNumbers_flatMap {ns : List Int} (h : ∀ n ∈ ns, n.natAbs < 2 ^ 62) :
    decodeNumbers (ns.flatMap encodeNumber) = some ns := by
  have hdigits : (ns.flatMap encodeNumber).flatMap charDigits = ns.flatMap fun n => naturalDigits (signLast n) := by
    rw [List.flatMap_assoc]
    refine List.flatMap_congr fun n _ => ?_
    unfold encodeNumber
    rw [List.flatMap_map, List.flatMap_congr fun d hd => charDigits_digitChar (lt_of_mem_naturalDigits hd)]
    exact List.flatMap_singleton' _
  unfold decodeNumbers
  rw [hdigits]
  clear hdigits
  induction ns with
  | nil => rfl
  | cons n ns ih =>
    obtain ⟨hn, hns⟩ := List.forall_mem_cons.mp h
    have hsmall : signLast n * 2 ^ 0 < 2 ^ 64 := by
      unfold signLast
      split <;> omega
    rw [List.flatMap_cons, decodeDigits_naturalDigits (by decide) hsmall, ih hns]
    simp [signedOf_signLast hn]

/-- No character of a number divides tokens or lines. -/
theorem ne_of_mem_encodeNumber {n : Int} {c : Char} (h : c ∈ encodeNumber n) : c ≠ ',' ∧ c ≠ ';' := by
  obtain ⟨digit, hdigit, rfl⟩ := List.mem_map.mp h
  have hall : ∀ d : Fin 64, digitChar d ≠ ',' ∧ digitChar d ≠ ';' := by decide +kernel
  exact hall ⟨digit, lt_of_mem_naturalDigits hdigit⟩

theorem encodeNumber_ne_nil (n : Int) : encodeNumber n ≠ [] := by
  unfold encodeNumber
  rw [naturalDigits]
  split <;> simp

/-! ## Tokens -/

/-- Numbers of a map have 32 bits. -/
structure Running.Small (r : Running) : Prop where
  column : r.column < 2 ^ 32
  source : r.source < 2 ^ 32
  sourceLine : r.sourceLine < 2 ^ 32
  sourceColumn : r.sourceColumn < 2 ^ 32
  name : r.name < 2 ^ 32

/-- A token of a map: it has a source, and its numbers have 32 bits. -/
structure Token.Proper (sizes : Sizes) (t : Token) : Prop where
  column : t.column < 2 ^ 32
  source : ∃ s < sizes.sources, t.source = some s ∧ s < 2 ^ 32
  sourceLine : t.sourceLine < 2 ^ 32
  sourceColumn : t.sourceColumn < 2 ^ 32
  name : ∀ n, t.name = some n → n < sizes.names ∧ n < 2 ^ 32

theorem wordStep_sub {last current : Nat} (h : current < 2 ^ 32) : wordStep last ((current : Int) - last) = current := by
  have hsum : (last : Int) + (current - last) = current := by ring
  have hmod : Int.emod current UInt32.size = current := Int.emod_eq_of_lt (by omega) (by simp only [UInt32.size]; omega)
  unfold wordStep
  rw [hsum, hmod, Int.toNat_natCast]

variable {sizes : Sizes} {r : Running} {t : Token} {ts : List Token}

/-- The numbers of a token behind the values `r`, and the values behind it. -/
theorem exists_steps (hr : r.Small) (ht : t.Proper sizes) : ∃ ns : List Int, ∃ r' : Running,
    writeToken r t = (ns.flatMap encodeNumber, r') ∧ ns ≠ [] ∧ (∀ n ∈ ns, n.natAbs < 2 ^ 62) ∧
      readSegment sizes { r with line := t.line } ns = some (t, r') ∧ r'.Small ∧ r'.line = t.line := by
  obtain ⟨line, column, source, sourceLine, sourceColumn, name⟩ := t
  obtain ⟨hcolumn, ⟨s, hs, rfl, hs'⟩, hsourceLine, hsourceColumn, hname⟩ := ht
  obtain ⟨rcolumn, rsource, rsourceLine, rsourceColumn, rname⟩ := hr
  simp only at hcolumn hsourceLine hsourceColumn hname
  cases name with
  | none =>
    refine ⟨[column - r.column, s - r.source, sourceLine - r.sourceLine, sourceColumn - r.sourceColumn],
      ⟨line, column, s, sourceLine, sourceColumn, r.name⟩, ?_, by simp, ?_, ?_, ?_, rfl⟩
    · simp [writeToken, writeSource, writeName, encodeStep]
    · simp only [List.mem_cons, List.not_mem_nil, or_false]
      omega
    · simp [readSegment, wordStep_sub hcolumn, wordStep_sub hs', wordStep_sub hsourceLine, wordStep_sub hsourceColumn, hs]
    · constructor <;> assumption
  | some n =>
    obtain ⟨hn, hn'⟩ := hname n rfl
    refine ⟨[column - r.column, s - r.source, sourceLine - r.sourceLine, sourceColumn - r.sourceColumn, n - r.name],
      ⟨line, column, s, sourceLine, sourceColumn, n⟩, ?_, by simp, ?_, ?_, ?_, rfl⟩
    · simp [writeToken, writeSource, writeName, encodeStep]
    · simp only [List.mem_cons, List.not_mem_nil, or_false]
      omega
    · simp [readSegment, wordStep_sub hcolumn, wordStep_sub hs', wordStep_sub hsourceLine,
        wordStep_sub hsourceColumn, wordStep_sub hn', hs, hn]
    · constructor <;> assumption

/-! ## Lines -/

theorem cutAt_eq_of_not_mem {c : Char} {cs : List Char} (h : c ∉ cs) (acc : List Char) :
    cutAt c acc cs = [acc.reverse ++ cs] := by
  induction cs generalizing acc with
  | nil => simp [cutAt]
  | cons x xs ih =>
    simp only [List.mem_cons, not_or] at h
    rw [cutAt, if_neg (Ne.symm h.1), ih h.2]
    simp

/-- A text is cut at the last of some characters. -/
theorem cutAt_append_cons (c : Char) (front back acc : List Char) :
    cutAt c acc (front ++ c :: back) = cutAt c acc front ++ cutAt c [] back := by
  induction front generalizing acc with
  | nil => simp [cutAt]
  | cons x xs ih =>
    rw [List.cons_append, cutAt, cutAt]
    split
    · rw [ih, List.cons_append]
    · exact ih _

theorem readSegments_append {front back : List (List Char)} {r' : Running}
    (h : readSegments sizes r front = some (ts, r')) :
    readSegments sizes r (front ++ back) = (readSegments sizes r' back).map fun (us, r'') => (ts ++ us, r'') := by
  induction front generalizing r ts with
  | nil =>
    cases h
    simp
  | cons segment segments ih =>
    cases segment with
    | nil =>
      rw [List.cons_append, readSegments]
      exact ih h
    | cons c cs =>
      rw [readSegments] at h
      · simp only [Option.bind_eq_bind, Option.bind_eq_some_iff, Option.some.injEq, Prod.mk.injEq, Prod.exists] at h
        obtain ⟨ns, hns, t, r₁, hread, us, r₂, hsegments, rfl, rfl⟩ := h
        rw [List.cons_append, readSegments]
        · simp [hns, hread, ih hsegments, Option.map_eq_bind, Option.bind_assoc]
        · simp
      · simp

theorem readSegments_singleton {segment : List Char} {ns : List Int} {r' : Running} (hsegment : segment ≠ [])
    (hns : decodeNumbers segment = some ns) (hread : readSegment sizes r ns = some (t, r')) :
    readSegments sizes r [segment] = some ([t], r') := by
  rw [readSegments]
  · simp [hns, hread, readSegments]
  · exact hsegment

/-- A line starts at the first column. -/
theorem readLines_column (r : Running) (column : Nat) (lines : List (List Char)) :
    readLines sizes { r with column := column } lines = readLines sizes r lines := by
  cases lines <;> rfl

/-- Some numbers give a text in which nothing divides tokens or lines. -/
theorem divides_flatMap {ns : List Int} (h : ns ≠ []) :
    ',' ∉ ns.flatMap encodeNumber ∧ ';' ∉ ns.flatMap encodeNumber ∧ ns.flatMap encodeNumber ≠ [] := by
  refine ⟨?_, ?_, ?_⟩
  · intro hmem
    obtain ⟨n, -, hn⟩ := List.mem_flatMap.mp hmem
    exact (ne_of_mem_encodeNumber hn).1 rfl
  · intro hmem
    obtain ⟨n, -, hn⟩ := List.mem_flatMap.mp hmem
    exact (ne_of_mem_encodeNumber hn).2 rfl
  · intro hnil
    obtain ⟨n, hn⟩ := List.exists_mem_of_ne_nil ns h
    exact encodeNumber_ne_nil n (List.flatMap_eq_nil_iff.mp hnil n hn)

/-- Empty lines are counted. -/
theorem readLines_replicate (r : Running) (k : Nat) (cs : List Char) :
    readLines sizes r (cutAt ';' [] (List.replicate k ';' ++ cs)) =
      readLines sizes { r with line := r.line + k } (cutAt ';' [] cs) := by
  induction k generalizing r with
  | zero => rfl
  | succ k ih =>
    have hcut : cutAt ';' [] (List.replicate (k + 1) ';' ++ cs) = [] :: cutAt ';' [] (List.replicate k ';' ++ cs) := rfl
    have hempty : readSegments sizes { r with column := 0 } (cutAt ',' [] []) = some ([], { r with column := 0 }) := rfl
    rw [hcut, readLines, hempty]
    simp only [Option.bind_eq_bind, Option.bind_some, List.nil_append, Option.bind_fun_some]
    have hline : r.line + 1 + k = r.line + (k + 1) := by omega
    rw [readLines_column { r with line := r.line + 1 }, ih]
    simp only [hline]

/-- Behind the text of a line that is read, the text of later tokens is read. -/
theorem readLines_writeTokens {start : Running} {front : List Char} {us : List Token} {previous : Option Token}
    (hfront : readSegments sizes { start with column := 0 } (cutAt ',' [] front) = some (us, r))
    (hline : start.line = r.line) (hcut : ';' ∉ front) (hprevious : previous.isSome = !front.isEmpty) (hr : r.Small)
    (hts : ∀ t ∈ ts, t.Proper sizes) (hlines : (r.line :: ts.map Token.line).Pairwise (· ≤ ·))
    (hdistinct : (previous.toList ++ ts).IsChain (· ≠ ·)) :
    readLines sizes start (cutAt ';' [] (front ++ writeTokens r previous ts)) = some (us ++ ts) := by
  induction ts generalizing start front us previous r with
  | nil =>
    rw [writeTokens, List.append_nil, cutAt_eq_of_not_mem hcut]
    simp [readLines, hfront]
  | cons t ts ih =>
    obtain ⟨ht, hts⟩ := List.forall_mem_cons.mp hts
    obtain ⟨hnew, hdistinct⟩ : previous ≠ some t ∧ ((some t).toList ++ ts).IsChain (· ≠ ·) := by
      cases previous with
      | none => exact ⟨by simp, hdistinct⟩
      | some p =>
        obtain ⟨hp, hts⟩ := List.isChain_cons_cons.mp hdistinct
        exact ⟨by simpa using hp, hts⟩
    rw [List.map_cons, List.pairwise_cons] at hlines
    obtain ⟨hle, hlines⟩ := hlines
    have hle : r.line ≤ t.line := hle _ List.mem_cons_self
    rw [writeTokens, if_neg (by simpa using hnew)]
    by_cases hsame : t.line = r.line
    · -- the line goes on
      obtain ⟨ns, r', hwrite, hns, hsmall, hread, hr', hline'⟩ := exists_steps hr ht
      obtain ⟨hcomma, hsemicolon, htext⟩ := divides_flatMap hns
      have hstep : readSegment sizes r ns = some (t, r') := by rwa [hsame] at hread
      have hsegment := readSegments_singleton htext (decodeNumbers_flatMap hsmall) hstep
      have hwritten : (some t).isSome = !(ns.flatMap encodeNumber).isEmpty := by
        rw [List.isEmpty_eq_false_iff.mpr htext]
        rfl
      have hlines' : (r'.line :: ts.map Token.line).Pairwise (· ≤ ·) := by rwa [hline']
      have hstart : start.line = r'.line := hline.trans (hsame.symm.trans hline'.symm)
      rw [if_pos (by simpa using hsame), hwrite]
      simp only
      cases front with
      | nil =>
        obtain ⟨rfl, rfl⟩ : us = [] ∧ r = { start with column := 0 } := by
          simpa [cutAt, readSegments, eq_comm] using hfront
        have hnone : previous = none := by simpa using hprevious
        subst hnone
        have hread' : readSegments sizes { start with column := 0 } (cutAt ',' [] (ns.flatMap encodeNumber)) =
            some ([t], r') := by
          rw [cutAt_eq_of_not_mem hcomma]
          exact hsegment
        have hrec := ih hread' hstart hsemicolon hwritten hr' hts hlines' hdistinct
        simpa using hrec
      | cons c cs =>
        have hsome : previous.isSome = true := hprevious
        have hread' : readSegments sizes { start with column := 0 }
            (cutAt ',' [] (c :: cs ++ ',' :: ns.flatMap encodeNumber)) = some (us ++ [t], r') := by
          rw [cutAt_append_cons, readSegments_append hfront, cutAt_eq_of_not_mem hcomma, List.reverse_nil, List.nil_append,
            hsegment]
          rfl
        have hcut' : ';' ∉ c :: cs ++ ',' :: ns.flatMap encodeNumber := by
          simp only [List.mem_append, not_or]
          exact ⟨hcut, by simpa using hsemicolon⟩
        have hrec := ih hread' hstart hcut' (by simp) hr' hts hlines' hdistinct
        simpa [hsome] using hrec
    · -- a new line starts, maybe behind empty ones
      have hr₀ : Running.Small { r with column := 0 } := ⟨by simp, hr.source, hr.sourceLine, hr.sourceColumn, hr.name⟩
      obtain ⟨ns, r', hwrite, hns, hsmall, hread, hr', hline'⟩ := exists_steps hr₀ ht
      obtain ⟨hcomma, hsemicolon, htext⟩ := divides_flatMap hns
      obtain ⟨k, hk⟩ : ∃ k, t.line - r.line = k + 1 := ⟨t.line - r.line - 1, by omega⟩
      have hwritten : (some t).isSome = !(ns.flatMap encodeNumber).isEmpty := by
        rw [List.isEmpty_eq_false_iff.mpr htext]
        rfl
      have hread' : readSegments sizes { r with line := t.line, column := 0 } (cutAt ',' [] (ns.flatMap encodeNumber)) =
          some ([t], r') := by
        rw [cutAt_eq_of_not_mem hcomma]
        exact readSegments_singleton htext (decodeNumbers_flatMap hsmall) hread
      have hrec : readLines sizes { r with line := t.line }
          (cutAt ';' [] (ns.flatMap encodeNumber ++ writeTokens r' (some t) ts)) = some ([t] ++ ts) :=
        ih hread' hline'.symm hsemicolon hwritten hr' hts (by rwa [hline']) hdistinct
      have hsum : start.line + 1 + k = t.line := by omega
      rw [if_neg (by simpa using hsame), hwrite, hk, List.replicate_succ]
      simp only [List.cons_append, List.append_assoc]
      rw [cutAt_append_cons, cutAt_eq_of_not_mem hcut, List.reverse_nil, List.nil_append, List.singleton_append, readLines,
        hfront]
      simp only [Option.bind_eq_bind, Option.bind_some]
      rw [readLines_replicate]
      simp only [hsum]
      rw [hrec]
      simp

/-! ## Repeated tokens -/

/-- Behind a token its repetitions are left out. -/
theorem writeTokens_destutter' (p : Token) (ts : List Token) : ∃ us, ts.destutter' (· ≠ ·) p = p :: us ∧
    ∀ r, writeTokens r (some p) us = writeTokens r (some p) ts := by
  induction ts generalizing p with
  | nil => exact ⟨[], rfl, fun r => rfl⟩
  | cons t ts ih =>
    by_cases hsame : p = t
    · subst hsame
      obtain ⟨us, hus, hwritten⟩ := ih p
      refine ⟨us, by rw [List.destutter'_cons_neg ts (not_not.mpr rfl), hus], fun r => ?_⟩
      rw [hwritten, writeTokens, if_pos (beq_self_eq_true _)]
    · obtain ⟨us, hus, hwritten⟩ := ih t
      refine ⟨t :: us, by rw [List.destutter'_cons_pos ts hsame, hus], fun r => ?_⟩
      simp only [writeTokens, hwritten]

/-- Tokens are written without repetitions. -/
theorem writeMappings_destutter (ts : List Token) : writeMappings (ts.destutter (· ≠ ·)) = writeMappings ts := by
  cases ts with
  | nil => rfl
  | cons t ts =>
    obtain ⟨us, hus, hwritten⟩ := writeTokens_destutter' t ts
    unfold writeMappings
    rw [List.destutter_cons', hus]
    simp only [writeTokens, hwritten]

/-- Tokens in the order of their positions are read back without repetitions. -/
theorem readMappings_writeMappings (hts : ∀ t ∈ ts, t.Proper sizes) (hlines : ts.Pairwise fun a b => a.line ≤ b.line) :
    readMappings sizes (writeMappings ts) = some (ts.destutter (· ≠ ·)) := by
  have hsmall : Running.start.Small := by constructor <;> decide
  have hsublist := List.destutter_sublist (· ≠ ·) ts
  have hread : readLines sizes .start (cutAt ';' [] ([] ++ writeTokens .start none (ts.destutter (· ≠ ·)))) =
      some ([] ++ ts.destutter (· ≠ ·)) :=
    readLines_writeTokens rfl rfl (by simp) rfl hsmall (fun t ht => hts t (hsublist.mem ht))
      (List.pairwise_cons.mpr ⟨fun _ _ => Nat.zero_le _, List.pairwise_map.mpr (hlines.sublist hsublist)⟩)
      (List.isChain_destutter (· ≠ ·) ts)
  rw [← writeMappings_destutter]
  unfold readMappings writeMappings
  rw [String.toList_ofList]
  exact hread

/-! ## Tokens that are read -/

theorem wordStep_lt (last : Nat) (step : Int) : wordStep last step < 2 ^ 32 := by
  have hlt := Int.emod_lt_of_pos ((last : Int) + step) (show (0 : Int) < UInt32.size by decide)
  have hnonneg := Int.emod_nonneg ((last : Int) + step) (show (UInt32.size : Int) ≠ 0 by decide)
  have hsize : (UInt32.size : Int) = 2 ^ 32 := rfl
  unfold wordStep
  change ((last + step) % (UInt32.size : Int)).toNat < 2 ^ 32
  omega

/-- Tokens that are read have 32 bit numbers, and known sources and names if they have any. -/
theorem proper_of_readSegment {ns : List Int} {r' : Running} (hr : r.Small) (h : readSegment sizes r ns = some (t, r')) :
    r'.Small ∧ (t.source.isSome → t.Proper sizes) := by
  unfold readSegment at h
  split at h
  next c =>
    cases h
    exact ⟨⟨wordStep_lt _ _, hr.source, hr.sourceLine, hr.sourceColumn, hr.name⟩, by simp⟩
  next c s l k rest =>
    by_cases hsource : wordStep r.source s ≥ sizes.sources
    · simp [hsource] at h
    simp only [hsource, if_false] at h
    have hlt : wordStep r.source s < sizes.sources := Nat.not_le.mp hsource
    split at h
    next =>
      cases h
      exact ⟨⟨wordStep_lt _ _, wordStep_lt _ _, wordStep_lt _ _, wordStep_lt _ _, hr.name⟩, fun _ =>
        ⟨wordStep_lt _ _, ⟨_, hlt, rfl, wordStep_lt _ _⟩, wordStep_lt _ _, wordStep_lt _ _, by simp⟩⟩
    next n =>
      split at h
      · cases h
      next hname =>
        cases h
        refine ⟨⟨wordStep_lt _ _, wordStep_lt _ _, wordStep_lt _ _, wordStep_lt _ _, wordStep_lt _ _⟩, fun _ =>
          ⟨wordStep_lt _ _, ⟨_, hlt, rfl, wordStep_lt _ _⟩, wordStep_lt _ _, wordStep_lt _ _, ?_⟩⟩
        rintro _ ⟨⟩
        exact ⟨Nat.not_le.mp hname, wordStep_lt _ _⟩
    next => cases h
  next => cases h

theorem proper_of_readSegments {segments : List (List Char)} {r' : Running} (hr : r.Small)
    (h : readSegments sizes r segments = some (ts, r')) : r'.Small ∧ ∀ t ∈ ts, t.source.isSome → t.Proper sizes := by
  induction segments generalizing r ts with
  | nil =>
    cases h
    exact ⟨hr, by simp⟩
  | cons segment segments ih =>
    cases segment with
    | nil => exact ih hr h
    | cons c cs =>
      simp only [readSegments, Option.bind_eq_bind, Option.bind_eq_some_iff, Option.some.injEq, Prod.mk.injEq,
        Prod.exists] at h
      obtain ⟨ns, -, t, r₁, hread, us, r₂, hsegments, rfl, rfl⟩ := h
      obtain ⟨hr₁, ht⟩ := proper_of_readSegment hr hread
      obtain ⟨hr₂, hus⟩ := ih hr₁ hsegments
      exact ⟨hr₂, List.forall_mem_cons.mpr ⟨ht, hus⟩⟩

theorem proper_of_readLines {lines : List (List Char)} (hr : r.Small) (h : readLines sizes r lines = some ts) :
    ∀ t ∈ ts, t.source.isSome → t.Proper sizes := by
  induction lines generalizing r ts with
  | nil =>
    cases h
    simp
  | cons line lines ih =>
    simp only [readLines, Option.bind_eq_bind, Option.bind_eq_some_iff, Option.some.injEq, Prod.exists] at h
    obtain ⟨us, next, hread, others, hothers, rfl⟩ := h
    have hr₀ : Running.Small { r with column := 0 } := ⟨by simp, hr.source, hr.sourceLine, hr.sourceColumn, hr.name⟩
    obtain ⟨hnext, hus⟩ := proper_of_readSegments hr₀ hread
    have hnext' : Running.Small { next with line := r.line + 1 } :=
      ⟨hnext.column, hnext.source, hnext.sourceLine, hnext.sourceColumn, hnext.name⟩
    exact List.forall_mem_append.mpr ⟨hus, ih hnext' hothers⟩

/-- Tokens that are read, and have a source, are tokens of a map. -/
theorem proper_of_readMappings {text : String} (h : readMappings sizes text = some ts) :
    ∀ t ∈ ts, t.source.isSome → t.Proper sizes := by
  have hsmall : Running.start.Small := by constructor <;> decide
  exact proper_of_readLines hsmall h

end Relink.SourceMap
