import Mathlib.Data.List.Nodup
import Relink.Proofs.SourceMap
import Relink.SourceMap.Stitch

/-!
# Stitching the maps of lines

* `SourceMap.pointings` — what the tokens of a map say, with the texts of their sources and names.
* `SourceMap.Shows` — the tokens of a map show the last texts that have been added under the names of their sources.
* `Stitcher.Holds.addText` — a map of lines adds one token for each line of its source.
* `Stitcher.Holds.read?_finish` — the finished map is read back with the tokens that have been added.
-/

namespace Relink.SourceMap

/-- What a token says: a position in generated code, and the position in a source to which it leads. -/
structure Pointing where
  line : Nat
  column : Nat
  source : Option String
  sourceLine : Nat
  sourceColumn : Nat
  name : Option String
  deriving DecidableEq, Repr

/-- What a token says when the sources and names have the given texts. -/
def Token.pointing (sources names : List String) (t : Token) : Pointing :=
  ⟨t.line, t.column, t.source.bind (sources[·]?), t.sourceLine, t.sourceColumn, t.name.bind (names[·]?)⟩

/-- What the tokens of a map say. -/
def pointings (m : SourceMap) : List Pointing := m.tokens.map (Token.pointing m.sources m.names)

/-- What is said of a source of which each line stands as many lines further down. -/
def linePointings (source : String) (lines offset : Nat) : List Pointing :=
  (List.range (lines + 1)).map fun i => ⟨offset + i, 0, some source, i, 0, none⟩

/-- The text of the source to which a token leads. -/
def textOf (m : SourceMap) (t : Token) : Option String := t.source.bind fun i => (m.contents[i]?).join

/-- The last of some texts under a name. -/
def lastText (texts : List (String × String)) (name : String) : Option String := texts.reverse.lookup name

/-- Each token of a map leads to a source that shows the last of some texts under its name. -/
def Shows (m : SourceMap) (texts : List (String × String)) : Prop :=
  ∀ t ∈ m.tokens, ∃ name, (t.pointing m.sources m.names).source = some name ∧ m.textOf t = lastText texts name

theorem lastText_concat (texts : List (String × String)) (name text name' : String) :
    lastText (texts ++ [(name, text)]) name' = if name' = name then some text else lastText texts name' := by
  unfold lastText
  rw [List.reverse_append, List.reverse_singleton, List.singleton_append, List.lookup_cons]
  by_cases h : name' = name
  · rw [if_pos h, beq_iff_eq.mpr h]
  · rw [if_neg h, beq_eq_false_iff_ne.mpr h]

/-- A source has the same text when a map is read back. -/
theorem join_contents_readBack (m : SourceMap) (tokens : List Token) (i : Nat) :
    ((m.readBack tokens).contents[i]?).join = (m.contents[i]?).join := by
  unfold readBack
  by_cases hany : m.contents.any Option.isSome = true
  · rw [if_pos hany]
  · rw [if_neg hany]
    -- no source has a text
    cases hi : m.contents[i]? with
    | none => rfl
    | some content =>
      cases content with
      | none => rfl
      | some text => exact absurd (List.any_eq_true.mpr ⟨some text, List.mem_of_getElem? hi, rfl⟩) hany

/-- A map shows the same texts when it is read back. -/
theorem textOf_readBack (m : SourceMap) (tokens : List Token) (t : Token) : (m.readBack tokens).textOf t = m.textOf t := by
  simp only [textOf, join_contents_readBack]

/-- A name that stands for one text only shows it. -/
theorem lastText_of_mem {texts : List (String × String)} {name text : String} (hmem : (name, text) ∈ texts)
    (honly : ∀ text', (name, text') ∈ texts → text' = text) : lastText texts name = some text := by
  unfold lastText
  cases hlookup : texts.reverse.lookup name with
  | none =>
    have hkey := List.lookup_eq_none_iff.mp hlookup (name, text) (List.mem_reverse.mpr hmem)
    simp at hkey
  | some text' =>
    obtain ⟨front, back, htexts, -⟩ := List.lookup_eq_some_iff.mp hlookup
    have hmem' : (name, text') ∈ texts := by
      rw [← List.mem_reverse, htexts]
      simp
    rw [honly text' hmem']

/-! ## Sources -/

theorem intern_eq (xs : List String) (x : String) : intern xs x = (xs.idxOf x, if x ∈ xs then xs else xs ++ [x]) := by
  unfold intern
  by_cases hmem : x ∈ xs
  · have hsome : xs.findIdx? (· == x) = some (xs.idxOf x) :=
      List.findIdx?_eq_some_of_exists ⟨x, hmem, beq_self_eq_true x⟩
    rw [hsome, if_pos hmem]
  · have hnone : xs.findIdx? (· == x) = none := by
      simpa [List.findIdx?_eq_none_iff] using fun y hy (heq : y = x) => hmem (heq ▸ hy)
    rw [hnone, if_neg hmem, List.idxOf_of_notMem hmem]

theorem intern_spec (xs : List String) (x : String) : ∃ i ys, intern xs x = (i, ys) ∧ xs <+: ys ∧ ys[i]? = some x ∧
    ys.length ≤ xs.length + 1 ∧ intern ys x = (i, ys) := by
  by_cases hmem : x ∈ xs
  · have hintern : intern xs x = (xs.idxOf x, xs) := by rw [intern_eq, if_pos hmem]
    exact ⟨xs.idxOf x, xs, hintern, List.prefix_rfl, List.getElem?_idxOf hmem, Nat.le_succ _, hintern⟩
  · have hintern : intern xs x = (xs.length, xs ++ [x]) := by rw [intern_eq, if_neg hmem, List.idxOf_of_notMem hmem]
    have hagain : intern (xs ++ [x]) x = (xs.length, xs ++ [x]) := by
      rw [intern_eq, if_pos (by simp), List.idxOf_append_of_notMem hmem, List.idxOf_cons_self, Nat.add_zero]
    exact ⟨xs.length, xs ++ [x], hintern, List.prefix_append _ _, by simp, by simp, hagain⟩

namespace Stitcher

/-- Each source of a map has the last of the texts that have been added under its name. -/
structure Keeps (s : Stitcher) (texts : List (String × String)) : Prop where
  nodup : s.sources.Nodup
  contents : s.contents = s.sources.map (lastText texts)

/-- What has been added to a map: tokens that lead to sources, without names. -/
structure Holds (s : Stitcher) (ps : List Pointing) (texts : List (String × String)) : Prop extends Keeps s texts where
  file : s.file = none
  names : s.names = []
  source : ∀ t ∈ s.tokens, ∃ i < s.sources.length, t.source = some i
  name : ∀ t ∈ s.tokens, t.name = none
  pointings : s.tokens.reverse.map (Token.pointing s.sources []) = ps

theorem holds_start : (start none).Holds [] [] :=
  ⟨⟨by simp [start], rfl⟩, rfl, rfl, by simp [start], by simp [start], rfl⟩

/-- Further sources change nothing. -/
theorem pointing_of_prefix {xs ys : List String} (h : xs <+: ys) {t : Token} (ht : ∃ i < xs.length, t.source = some i) :
    t.pointing ys [] = t.pointing xs [] := by
  obtain ⟨i, hi, hsource⟩ := ht
  obtain ⟨zs, rfl⟩ := h
  simp [Token.pointing, hsource, List.getElem?_append_left hi]

/-- Adding a source that is known. -/
theorem addTokens {s : Stitcher} {r : String} {i : Nat} (hi : intern s.sources r = (i, s.sources)) (f : Token → Token)
    (ts : List Token) : ts.foldl (fun s t => s.addToken (f t) (some r) none) s =
      { s with tokens := (ts.map fun t => { f t with source := some i, name := none }).reverse ++ s.tokens } := by
  induction ts generalizing s with
  | nil => rfl
  | cons t ts ih =>
    have hstep : s.addToken (f t) (some r) none =
        { s with tokens := { f t with source := some i, name := none } :: s.tokens } := by
      simp [addToken, hi]
    rw [List.foldl_cons, hstep]
    refine (ih (s := { s with tokens := { f t with source := some i, name := none } :: s.tokens }) hi).trans ?_
    simp

/-- The text of a source is the last one under its name. -/
theorem Keeps.addSource {s : Stitcher} {texts : List (String × String)} (h : s.Keeps texts) (r text : String) :
    (s.addSource r (some text)).Keeps (texts ++ [(r, text)]) := by
  have hlength : s.contents.length = s.sources.length := by rw [h.contents, List.length_map]
  have hothers : ∀ name, name ≠ r → lastText (texts ++ [(r, text)]) name = lastText texts name :=
    fun name hname => by rw [lastText_concat, if_neg hname]
  cases hfind : s.sources.findIdx? (· == r) with
  | some i =>
    -- the source is there, and its text is replaced
    obtain ⟨hi, hr, -⟩ := List.findIdx?_eq_some_iff_getElem.mp hfind
    have hadd : s.addSource r (some text) = { s with contents := s.contents.set i (some text) } := by
      simp [Stitcher.addSource, intern, hfind, hlength]
    rw [hadd]
    refine ⟨h.nodup, List.ext_getElem? fun j => ?_⟩
    simp only [h.contents, List.getElem?_set, List.length_map, List.getElem?_map]
    by_cases hj : i = j
    · subst hj
      rw [if_pos rfl, if_pos hi, List.getElem?_eq_getElem hi, beq_iff_eq.mp hr, Option.map_some, lastText_concat,
        if_pos rfl]
    · rw [if_neg hj]
      refine Option.map_congr fun name hname => (hothers name ?_).symm
      rintro rfl
      obtain ⟨hj', hname⟩ := List.getElem?_eq_some_iff.mp hname
      exact hj ((List.Nodup.getElem_inj_iff h.nodup).mp ((beq_iff_eq.mp hr).trans hname.symm))
  | none =>
    have hnew : r ∉ s.sources := by
      intro hmem
      have hnot := List.findIdx?_eq_none_iff.mp hfind r hmem
      simp at hnot
    have hadd : s.addSource r (some text) =
        { s with sources := s.sources ++ [r], contents := s.contents ++ [some text] } := by
      simp [Stitcher.addSource, intern, hfind, ← hlength]
    rw [hadd]
    constructor
    · apply List.nodup_append.mpr
      refine ⟨h.nodup, List.nodup_singleton r, ?_⟩
      intro name hname last hlast heq
      rw [heq, List.mem_singleton.mp hlast] at hname
      exact hnew hname
    · simp only [h.contents, List.map_append, List.map_singleton, lastText_concat texts r text r]
      congr 1
      exact List.map_congr_left fun name hname => (hothers name fun heq => hnew (heq ▸ hname)).symm

/-- A source is added, or its text is replaced. -/
theorem addSource_spec (s : Stitcher) (r : String) (content : Option String) : ∃ i ys contents,
    s.addSource r content = { s with sources := ys, contents := contents } ∧ s.sources <+: ys ∧ ys[i]? = some r ∧
      ys.length ≤ s.sources.length + 1 ∧ intern ys r = (i, ys) := by
  obtain ⟨i, ys, hintern, hspec⟩ := intern_spec s.sources r
  exact ⟨i, ys, (s.addSource r content).contents, by simp only [addSource, hintern], hspec⟩

/-- A map of lines is read back. -/
theorem read?_lineMap (name source : String) (offset : Nat) (hsize : newlines source.toList < 2 ^ 32) :
    read? (lineMap name source offset).render = some (lineMap name source offset) := by
  have hread := (read?_render_of_before (m := lineMap name source offset) ?_ ?_).1
  · rw [hread]
    rfl
  · intro t ht
    obtain ⟨i, hi, rfl⟩ := List.mem_map.mp ht
    have hi : i < newlines source.toList + 1 := List.mem_range.mp hi
    exact ⟨by simp, ⟨0, by simp [lineMap], rfl, by simp⟩, by simp only; omega, by simp, by simp⟩
  · refine List.pairwise_map.mpr (List.pairwise_lt_range.imp fun {i j} hij => Or.inl ?_)
    exact Nat.add_lt_add_left hij _

/-- The tokens of a map of lines are added behind its source. -/
theorem addMap_lineMap (s : Stitcher) (name source rename : String) (offset lines : Nat) : ∃ i ys contents,
    s.addSource rename (some source) = { s with sources := ys, contents := contents } ∧ s.sources <+: ys ∧
      ys[i]? = some rename ∧ ys.length ≤ s.sources.length + 1 ∧
      s.addMap (lineMap name source offset) lines (some rename) =
        { s with
          sources := ys, contents := contents
          tokens := ((List.range (newlines source.toList + 1)).map fun k =>
            ⟨offset + k + lines, 0, some i, k, 0, none⟩).reverse ++ s.tokens } := by
  obtain ⟨i, ys, contents, hadd, hbefore, hi, hlength, hintern⟩ := addSource_spec s rename (some source)
  refine ⟨i, ys, contents, hadd, hbefore, hi, hlength, ?_⟩
  have htokens := addTokens (s := { s with sources := ys, contents := contents }) hintern
    (fun t => { t with line := t.line + lines }) (lineMap name source offset).tokens
  have hfirst : (lineMap name source offset).sources.zipIdx = [(name, 0)] := rfl
  have hsource : s.addSource ((some rename).getD name) (((lineMap name source offset).contents[0]?).getD none) =
      { s with sources := ys, contents := contents } := hadd
  unfold addMap
  simp only [hfirst, List.foldl_cons, List.foldl_nil, hsource]
  simp only [lineMap, List.foldl_map, List.map_map, Function.comp_def] at htokens ⊢
  -- every token of the map leads to its source
  exact htokens

/-- A map of lines adds one token for each line of its source. -/
theorem Holds.addText {s : Stitcher} {ps : List Pointing} {texts : List (String × String)} (h : s.Holds ps texts)
    (name source rename : String) (offset lines : Nat) (hsize : newlines source.toList < 2 ^ 32) : ∃ s' : Stitcher,
      s.addText (lineMap name source offset).render lines (some rename) = .ok s' ∧
      s'.sources.length ≤ s.sources.length + 1 ∧
      s'.Holds (ps ++ linePointings rename (newlines source.toList) (lines + offset)) (texts ++ [(rename, source)]) := by
  obtain ⟨i, ys, contents, hadd, hbefore, hi, hlength, hmap⟩ := addMap_lineMap s name source rename offset lines
  have hlt : i < ys.length := (List.getElem?_eq_some_iff.mp hi).1
  refine ⟨s.addMap (lineMap name source offset) lines (some rename), ?_, ?_, ?_⟩
  · unfold Stitcher.addText
    rw [read?_lineMap name source offset hsize]
  · rw [hmap]
    exact hlength
  · have hkeeps := h.toKeeps.addSource rename source
    rw [hadd] at hkeeps
    rw [hmap]
    refine ⟨⟨hkeeps.nodup, hkeeps.contents⟩, h.file, h.names, ?_, ?_, ?_⟩
    · intro t ht
      rcases List.mem_append.mp ht with ht | ht
      · obtain ⟨k, -, rfl⟩ := List.mem_map.mp (List.mem_reverse.mp ht)
        exact ⟨i, hlt, rfl⟩
      · obtain ⟨j, hj, hsource⟩ := h.source t ht
        exact ⟨j, Nat.lt_of_lt_of_le hj hbefore.length_le, hsource⟩
    · intro t ht
      rcases List.mem_append.mp ht with ht | ht
      · obtain ⟨k, -, rfl⟩ := List.mem_map.mp (List.mem_reverse.mp ht)
        rfl
      · exact h.name t ht
    · have hold : s.tokens.reverse.map (Token.pointing ys []) = ps := by
        rw [← h.pointings]
        exact List.map_congr_left fun t ht => pointing_of_prefix hbefore (h.source t (List.mem_reverse.mp ht))
      simp only [List.reverse_append, List.reverse_reverse, List.map_append, hold, List.map_map, linePointings]
      refine congrArg (ps ++ ·) (List.map_congr_left fun k _ => ?_)
      simp [Token.pointing, hi]
      omega

/-- The map that has been built is read back with what has been added, if no two tokens share a line. -/
theorem Holds.read?_finish {s : Stitcher} {ps : List Pointing} {texts : List (String × String)} (h : s.Holds ps texts)
    (hsources : s.sources.length ≤ 2 ^ 32)
    (hcolumn : ∀ p ∈ ps, p.column < 2 ^ 32 ∧ p.sourceLine < 2 ^ 32 ∧ p.sourceColumn < 2 ^ 32)
    (hlines : ps.Pairwise fun p q => p.line < q.line) :
    ∃ m, read? s.finish.toJson.canonical.render = some m ∧ m.pointings = ps ∧ m.Shows texts := by
  have hascending : s.tokens.reverse.Pairwise Token.Before := by
    have hmap := h.pointings ▸ hlines
    exact (List.pairwise_map.mp hmap).imp fun hab => Or.inl hab
  have hsorted : s.finish.tokens = s.tokens.reverse := sortTokens_eq_self (hascending.imp Token.Before.notAfter)
  have hnames : s.finish.names = [] := h.names
  have hread := (read?_render_of_before (m := s.finish) ?_ (hsorted ▸ hascending)).2
  · refine ⟨_, hread, ?_, ?_⟩
    · simp only [readBack, hsorted]
      rw [hnames]
      exact h.pointings
    · intro t ht
      have ht : t ∈ s.tokens.reverse := hsorted ▸ ht
      obtain ⟨i, hi, hsource⟩ := h.source t (List.mem_reverse.mp ht)
      have hname : s.sources[i]? = some s.sources[i] := List.getElem?_eq_getElem hi
      refine ⟨s.sources[i], ?_, ?_⟩
      · simp only [Token.pointing, hsource, Option.bind_some]
        exact hname
      · rw [textOf_readBack]
        have hcontent : s.contents[i]? = some (lastText texts s.sources[i]) := by
          rw [h.contents, List.getElem?_map, hname, Option.map_some]
        unfold textOf
        rw [hsource, Option.bind_some]
        exact congrArg Option.join hcontent
  · intro t ht
    rw [hsorted] at ht
    obtain ⟨i, hi, hsource⟩ := h.source t (List.mem_reverse.mp ht)
    have hp : t.pointing s.sources [] ∈ ps := h.pointings ▸ List.mem_map_of_mem ht
    obtain ⟨hcolumn, hsourceLine, hsourceColumn⟩ := hcolumn _ hp
    refine ⟨hcolumn, ⟨i, hi, hsource, by omega⟩, hsourceLine, hsourceColumn, ?_⟩
    intro n hn
    rw [h.name t (List.mem_reverse.mp ht)] at hn
    cases hn

end Stitcher

end Relink.SourceMap
