import Mathlib.Data.List.Perm.Subperm
import Relink.Proofs.Stitching

/-!
# Shifting a map

A map for code that stands some lines further down is made by adding its tokens, line by line, to a new map, and by
writing that. The names get their numbers anew, in the order of their first use.

* `exists_mappings_of_read?` — what is known of the tokens of a map that is read.
* `Sound.shift_eq` — what a shifted map is, when its sources have names of their own and all tokens lead to them.
* `Sound.reread_shift`, `Sound.shift_reread` — what is read back of it, and that shifting that once more gives what
  shifting the map by the sum gives.
* `offsetMap_offsetMap` — the same for texts.
-/

namespace Relink.SourceMap

/-! ## Maps that are read -/

theorem Token.notAfter_trans (a b c : Token) (hab : a.notAfter b = true) (hbc : b.notAfter c = true) :
    a.notAfter c = true := by
  rw [notAfter_iff] at *
  omega

theorem Token.notAfter_total (a b : Token) : (a.notAfter b || b.notAfter a) = true := by
  rw [Bool.or_eq_true, notAfter_iff, notAfter_iff]
  omega

/-- The tokens of a map that is read are those of its mappings, in the order of their positions. -/
theorem exists_mappings_of_read? {text : String} {m : SourceMap} (h : read? text = some m) : ∃ mappings tokens,
    readMappings ⟨m.sources.length, m.names.length⟩ mappings = some tokens ∧ m.tokens = sortTokens tokens := by
  unfold read? at h
  simp only [Option.bind_eq_bind, Option.bind_eq_some_iff] at h
  obtain ⟨body, -, v, -, h⟩ := h
  unfold ofJson? at h
  split at h
  next fs =>
    simp only [Option.bind_eq_bind, Option.bind_none, Option.bind_eq_some_iff, Option.ite_none_left_eq_some] at h
    obtain ⟨fields, -, -, -, -, file, -, sources, -, root, -, contents, -, -, -, names, -, -, -, mappings, -, -, -, tokens,
      htokens, h⟩ := h
    cases h
    refine ⟨mappings.getD "", tokens, ?_, rfl⟩
    -- the root of the sources does not change their number
    cases root with
    | none => exact htokens
    | some r => by_cases hroot : r = "" <;> simpa [hroot] using htokens
  next => cases h

/-! ## Names in the order of their first use -/

/-- Names, with the name of a token if it is new. -/
def learn (names : List String) : Option String → List String
  | some x => (intern names x).2
  | none => names

theorem learn_some (names : List String) (x : String) :
    learn names (some x) = if x ∈ names then names else names ++ [x] := by
  rw [learn, intern_eq]

theorem prefix_learn (names : List String) (x : Option String) : names <+: learn names x := by
  cases x with
  | none => exact List.prefix_rfl
  | some x =>
    rw [learn_some]
    split
    · exact List.prefix_rfl
    · exact List.prefix_append _ _

theorem mem_learn (names : List String) (x : String) : x ∈ learn names (some x) := by
  rw [learn_some]
  split
  · assumption
  · simp

theorem idxOf_learn (names : List String) (x : String) : (learn names (some x)).idxOf x = names.idxOf x := by
  rw [learn_some]
  split
  next => rfl
  next hnew => rw [List.idxOf_append_of_notMem hnew, List.idxOf_cons_self, List.idxOf_of_notMem hnew]; rfl

theorem learn_learn (names : List String) (x : Option String) : learn (learn names x) x = learn names x := by
  cases x with
  | none => rfl
  | some x => rw [learn_some (learn names (some x)), if_pos (mem_learn names x)]

theorem prefix_foldl_learn (names : List String) (xs : List (Option String)) : names <+: xs.foldl learn names := by
  induction xs generalizing names with
  | nil => exact List.prefix_rfl
  | cons x xs ih => exact (prefix_learn names x).trans (ih _)

theorem mem_foldl_learn {names : List String} {xs : List (Option String)} {y : String} (h : some y ∈ xs) :
    y ∈ xs.foldl learn names := by
  induction xs generalizing names with
  | nil => cases h
  | cons x xs ih =>
    rcases List.mem_cons.mp h with rfl | h
    · exact (prefix_foldl_learn _ xs).mem (mem_learn names y)
    · exact ih h

theorem of_mem_foldl_learn {names : List String} {xs : List (Option String)} {y : String} (h : y ∈ xs.foldl learn names) :
    y ∈ names ∨ some y ∈ xs := by
  induction xs generalizing names with
  | nil => exact Or.inl h
  | cons x xs ih =>
    rcases ih h with h | h
    · cases x with
      | none => exact Or.inl h
      | some x =>
        rw [learn_some] at h
        split at h
        · exact Or.inl h
        · rcases List.mem_append.mp h with h | h
          · exact Or.inl h
          · exact Or.inr (List.mem_singleton.mp h ▸ List.mem_cons_self)
    · exact Or.inr (List.mem_cons_of_mem _ h)

theorem nodup_foldl_learn {names : List String} (h : names.Nodup) (xs : List (Option String)) :
    (xs.foldl learn names).Nodup := by
  induction xs generalizing names with
  | nil => exact h
  | cons x xs ih =>
    refine ih ?_
    cases x with
    | none => exact h
    | some x =>
      rw [learn_some]
      split
      · exact h
      next hnew => exact List.nodup_append_comm.mp (List.nodup_cons.mpr ⟨hnew, h⟩)

/-- A step that does nothing when it is taken again is the same without repetitions. -/
theorem foldl_destutter' {α β : Type} [DecidableEq β] {f : α → β → α} (h : ∀ a b, f (f a b) b = f a b) (a : α) (b : β)
    (bs : List β) : (bs.destutter' (· ≠ ·) b).foldl f a = (b :: bs).foldl f a := by
  induction bs generalizing a b with
  | nil => rfl
  | cons c bs ih =>
    by_cases hsame : b = c
    · subst hsame
      rw [List.destutter'_cons_neg bs (not_not.mpr rfl), ih]
      simp only [List.foldl_cons, h]
    · rw [List.destutter'_cons_pos bs hsame, List.foldl_cons, ih]
      rfl

theorem foldl_destutter {α β : Type} [DecidableEq β] {f : α → β → α} (h : ∀ a b, f (f a b) b = f a b) (a : α)
    (bs : List β) : (bs.destutter (· ≠ ·)).foldl f a = bs.foldl f a := by
  cases bs with
  | nil => rfl
  | cons b bs => exact foldl_destutter' h a b bs

/-- Repetitions are the same in the image of a list under a function that is injective on it. -/
theorem map_destutter_of_inj {α β : Type} [DecidableEq α] [DecidableEq β] {f : α → β} {as : List α}
    (h : ∀ a ∈ as, ∀ b ∈ as, f a = f b → a = b) :
    (as.destutter (· ≠ ·)).map f = (as.map f).destutter (· ≠ ·) :=
  List.map_destutter fun a ha b hb => not_congr ⟨congrArg f, h a ha b hb⟩

/-! ## Shifting -/

/-- The text of the name of a token. -/
def Token.nameIn (names : List String) (t : Token) : Option String := t.name.bind (names[·]?)

/-- A token some lines further down, whose name has the number that it has among other names. -/
def Token.moved (lines : Nat) (names others : List String) (t : Token) : Token :=
  { t with line := t.line + lines, name := (t.nameIn names).map others.idxOf }

/-- The names of the tokens of a map in the order of their first use. -/
def usedNames (m : SourceMap) : List String := (m.tokens.map (Token.nameIn m.names)).foldl learn []

/-- The texts of the sources of a map as far as they are known. -/
def knownContents (m : SourceMap) : List (Option String) :=
  m.sources.zipIdx.map fun p => (m.contents[p.2]?).join

/-- The sources of a map have names of their own, and its tokens are in order and lead to them. -/
structure Sound (m : SourceMap) : Prop where
  nodup : m.sources.Nodup
  proper : ∀ t ∈ m.tokens, t.Proper ⟨m.sources.length, m.names.length⟩
  inOrder : m.tokens.Pairwise fun a b => a.notAfter b

namespace Stitcher

/-- Sources that are new are added in their order. -/
theorem foldl_addSource {s : Stitcher} {ps : List (String × Option String)} (hnodup : (s.sources ++ ps.map Prod.fst).Nodup)
    (hlength : s.contents.length = s.sources.length) : ps.foldl (fun s p => s.addSource p.1 p.2) s =
      { s with sources := s.sources ++ ps.map Prod.fst, contents := s.contents ++ ps.map Prod.snd } := by
  induction ps generalizing s with
  | nil => simp
  | cons p ps ih =>
    have hnew : p.1 ∉ s.sources := fun h => (List.nodup_append.mp hnodup).2.2 _ h _ List.mem_cons_self rfl
    have hadd : s.addSource p.1 p.2 = { s with sources := s.sources ++ [p.1], contents := s.contents ++ [p.2] } := by
      simp [addSource, intern_eq, hnew, List.idxOf_of_notMem, ← hlength]
    rw [List.foldl_cons, hadd, ih]
    · simp
    · simpa using hnodup
    · simp [hlength]

/-- A token is added with the source that it has. -/
theorem addToken_eq {s : Stitcher} (hnodup : s.sources.Nodup) {t : Token}
    (ht : ∃ i < s.sources.length, t.source = some i) (name : Option String) :
    s.addToken t (t.source.bind (s.sources[·]?)) name =
      { s with
        names := learn s.names name
        tokens := { t with name := name.map (learn s.names name).idxOf } :: s.tokens } := by
  obtain ⟨line, column, source, sourceLine, sourceColumn, number⟩ := t
  obtain ⟨i, hi, rfl⟩ := ht
  have hsource : intern s.sources s.sources[i] = (i, s.sources) := by
    rw [intern_eq, if_pos (List.getElem_mem hi), hnodup.idxOf_getElem i hi]
  cases name with
  | none => simp [addToken, List.getElem?_eq_getElem hi, hsource, learn]
  | some x =>
    have hname : intern s.names x = ((learn s.names (some x)).idxOf x, learn s.names (some x)) := by
      rw [idxOf_learn, learn_some, intern_eq]
    simp [addToken, List.getElem?_eq_getElem hi, hsource, hname]

/-- Tokens are added with the sources that they have, and with the numbers of the names that are used. -/
theorem foldl_addToken {s : Stitcher} {sources : List String} (hs : s.sources = sources) (hnodup : sources.Nodup)
    {ts : List Token} (names : List String) (lines : Nat) (hts : ∀ t ∈ ts, ∃ i < sources.length, t.source = some i) :
    ts.foldl (fun s t => s.addToken { t with line := t.line + lines } (t.source.bind (sources[·]?)) (t.nameIn names)) s =
      { s with
        names := (ts.map (Token.nameIn names)).foldl learn s.names
        tokens := (ts.map (Token.moved lines names ((ts.map (Token.nameIn names)).foldl learn s.names))).reverse ++
          s.tokens } := by
  induction ts generalizing s with
  | nil => rfl
  | cons t ts ih =>
    obtain ⟨ht, hts⟩ := List.forall_mem_cons.mp hts
    subst hs
    rw [List.foldl_cons, addToken_eq (t := { t with line := t.line + lines }) hnodup ht, ih (by rfl) hts]
    -- the number of a name stays the same when others are learnt
    have hname : (t.nameIn names).map (learn s.names (t.nameIn names)).idxOf =
        (t.nameIn names).map ((ts.map (Token.nameIn names)).foldl learn (learn s.names (t.nameIn names))).idxOf := by
      refine Option.map_congr fun x hx => ?_
      rw [hx]
      exact (prefix_foldl_learn _ _).idxOf_eq_of_mem (mem_learn _ x)
    simp only [List.map_cons, List.foldl_cons, List.reverse_cons, List.append_assoc, List.singleton_append, Token.moved, hname]

end Stitcher

variable {m : SourceMap} {lines : Nat}

/-- Tokens keep their order when they are moved. -/
theorem Sound.moved_inOrder (h : m.Sound) (lines : Nat) (others : List String) :
    (m.tokens.map (Token.moved lines m.names others)).Pairwise fun a b => a.notAfter b := by
  refine List.pairwise_map.mpr (h.inOrder.imp fun {a b} hab => ?_)
  rw [Token.notAfter_iff] at hab ⊢
  simpa [Token.moved] using hab

/-- The sources of a map are added with their texts. -/
theorem Sound.foldl_addSource (h : m.Sound) :
    m.sources.zipIdx.foldl (fun s (source, i) => s.addSource source ((m.contents[i]?).getD none))
      (Stitcher.start m.file) = ⟨m.file, m.sources, m.knownContents, [], []⟩ := by
  have hnames : (m.sources.zipIdx.map fun p => (p.1, (m.contents[p.2]?).getD none)).map Prod.fst = m.sources := by
    rw [List.map_map]
    exact List.zipIdx_map_fst ..
  have hadded := @Stitcher.foldl_addSource (Stitcher.start m.file)
    (m.sources.zipIdx.map fun p => (p.1, (m.contents[p.2]?).getD none)) (by rw [hnames]; exact h.nodup) rfl
  have hcontents : (m.sources.zipIdx.map fun p => (p.1, (m.contents[p.2]?).getD none)).map Prod.snd = m.knownContents := by
    rw [List.map_map]
    refine List.map_congr_left fun p _ => ?_
    change (m.contents[p.2]?).getD none = (m.contents[p.2]?).join
    cases m.contents[p.2]? <;> rfl
  rw [List.foldl_map, hnames, hcontents] at hadded
  exact hadded

/-- A shifted map has the sources of the map with their texts, the names that are used, and the tokens further down. -/
theorem Sound.shift_eq (h : m.Sound) (lines : Nat) : m.shift lines =
    ⟨m.file, m.sources, m.knownContents, m.usedNames, m.tokens.map (Token.moved lines m.names m.usedNames)⟩ := by
  have hsource : ∀ t ∈ m.tokens, ∃ i < m.sources.length, t.source = some i := by
    intro t ht
    obtain ⟨i, hi, hsource, -⟩ := (h.proper t ht).source
    exact ⟨i, hi, hsource⟩
  have htokens := Stitcher.foldl_addToken (s := ⟨m.file, m.sources, m.knownContents, [], []⟩) rfl h.nodup m.names lines hsource
  unfold shift Stitcher.addMap
  simp only [Option.getD_none, Option.none_or, h.foldl_addSource]
  rw [show (fun (s : Stitcher) (t : Token) => s.addToken { t with line := t.line + lines }
    (t.source.bind fun i => m.sources[i]?) (t.name.bind fun i => m.names[i]?)) = fun s t =>
      s.addToken { t with line := t.line + lines } (t.source.bind (m.sources[·]?)) (t.nameIn m.names) from rfl, htokens]
  simp [Stitcher.finish, sortTokens_eq_self (h.moved_inOrder lines _), usedNames]

/-! ## Tokens further down -/

namespace Token

variable {names used : List String} {t u : Token}

/-- A token keeps the text of its name. -/
theorem nameIn_moved (h : ∀ x ∈ t.nameIn names, x ∈ used) : (t.moved lines names used).nameIn used = t.nameIn names := by
  unfold moved
  cases hx : t.nameIn names with
  | none => rfl
  | some x => exact List.getElem?_idxOf (h x hx)

theorem moved_moved (h : ∀ x ∈ t.nameIn names, x ∈ used) (a b : Nat) :
    (t.moved a names used).moved b used used = t.moved (a + b) names used := by
  rw [moved, nameIn_moved h]
  simp [moved, Nat.add_assoc]

theorem moved_inj (a b : Nat) : t.moved a names used = u.moved a names used ↔ t.moved b names used = u.moved b names used := by
  simp [moved]

end Token

/-- What is said of a position some lines further down. -/
def Pointing.down (lines : Nat) (p : Pointing) : Pointing := { p with line := p.line + lines }

theorem Token.pointing_moved {names used sources : List String} {t : Token} (h : ∀ x ∈ t.nameIn names, x ∈ used) :
    (t.moved lines names used).pointing sources used = (t.pointing sources names).down lines := by
  have hname : (t.moved lines names used).nameIn used = t.nameIn names := nameIn_moved h
  unfold nameIn at hname
  simp only [pointing, Pointing.down, hname]
  rfl

/-- Tokens of a map say the same only if they are the same, if names occur once. -/
theorem Sound.pointing_inj (h : m.Sound) (hnames : m.names.Nodup) {t u : Token} (ht : t ∈ m.tokens) (hu : u ∈ m.tokens)
    (heq : t.pointing m.sources m.names = u.pointing m.sources m.names) : t = u := by
  obtain ⟨line, column, source, sourceLine, sourceColumn, name⟩ := t
  obtain ⟨line', column', source', sourceLine', sourceColumn', name'⟩ := u
  obtain ⟨-, ⟨i, hi, rfl, -⟩, -, -, hname⟩ := h.proper _ ht
  obtain ⟨-, ⟨j, hj, rfl, -⟩, -, -, hname'⟩ := h.proper _ hu
  simp only [Token.pointing, Option.bind_some, Pointing.mk.injEq] at heq
  obtain ⟨rfl, rfl, hsource, rfl, rfl, heq⟩ := heq
  obtain rfl : i = j := (List.getElem?_inj hi h.nodup).mp hsource
  cases name with
  | none =>
    cases name' with
    | none => rfl
    | some n' => simp [List.getElem?_eq_getElem (hname' n' rfl).1] at heq
  | some n =>
    have hn := (hname n rfl).1
    cases name' with
    | none => simp [List.getElem?_eq_getElem hn] at heq
    | some n' => rw [(List.getElem?_inj hn hnames).mp heq]

/-! ## Used names -/

theorem mem_usedNames {t : Token} (ht : t ∈ m.tokens) : ∀ x ∈ t.nameIn m.names, x ∈ m.usedNames :=
  fun _ hx => mem_foldl_learn (List.mem_map.mpr ⟨t, ht, hx⟩)

theorem nodup_usedNames (m : SourceMap) : m.usedNames.Nodup := nodup_foldl_learn List.nodup_nil _

/-- The numbers of names have 32 bits, so no more names than these are used. -/
theorem Sound.length_usedNames_le (h : m.Sound) : m.usedNames.length ≤ 2 ^ 32 := by
  have hsubset : m.usedNames ⊆ m.names.take (2 ^ 32) := by
    intro x hx
    rcases of_mem_foldl_learn hx with hx | hx
    · cases hx
    obtain ⟨t, ht, hname⟩ := List.mem_map.mp hx
    obtain ⟨n, hn, hx⟩ := Option.bind_eq_some_iff.mp hname
    obtain ⟨-, hlt⟩ := (h.proper t ht).name n hn
    rw [← List.getElem?_take_of_lt hlt] at hx
    exact List.mem_of_getElem? hx
  calc m.usedNames.length ≤ (m.names.take (2 ^ 32)).length := ((nodup_usedNames m).subperm hsubset).length_le
    _ ≤ 2 ^ 32 := List.length_take_le _ _

theorem Sound.shift (h : m.Sound) (lines : Nat) : (m.shift lines).Sound := by
  rw [h.shift_eq]
  refine ⟨h.nodup, fun t' ht' => ?_, h.moved_inOrder lines _⟩
  obtain ⟨t, ht, rfl⟩ := List.mem_map.mp ht'
  obtain ⟨hcolumn, hsource, hsourceLine, hsourceColumn, -⟩ := h.proper t ht
  refine ⟨hcolumn, hsource, hsourceLine, hsourceColumn, fun n hn => ?_⟩
  obtain ⟨x, hx, rfl⟩ := Option.map_eq_some_iff.mp hn
  have hlt := List.idxOf_lt_length_of_mem (mem_usedNames ht x hx)
  exact ⟨hlt, Nat.lt_of_lt_of_le hlt h.length_usedNames_le⟩

/-! ## Reading back -/

/-- The map that is read back from the text of a map. -/
def reread (m : SourceMap) : SourceMap := m.readBack (m.tokens.destutter (· ≠ ·))

theorem Sound.read?_render (h : m.Sound) : read? m.render = some m.reread :=
  (SourceMap.read?_render h.proper h.inOrder).1

theorem Sound.reread (h : m.Sound) : m.reread.Sound := by
  have hsublist := List.destutter_sublist (· ≠ ·) m.tokens
  exact ⟨h.nodup, fun t ht => h.proper t (hsublist.mem ht), h.inOrder.sublist hsublist⟩

theorem join_knownContents {i : Nat} (hi : i < m.sources.length) :
    (m.knownContents[i]?).join = (m.contents[i]?).join := by
  simp [knownContents, List.getElem?_zipIdx, List.getElem?_eq_getElem hi]

/-- What is read back of a shifted map. -/
theorem Sound.reread_shift (h : m.Sound) (lines : Nat) : (m.shift lines).reread =
    ⟨m.file, m.sources, if m.knownContents.any Option.isSome then m.knownContents else [], m.usedNames,
      (m.tokens.map (Token.moved lines m.names m.usedNames)).destutter (· ≠ ·)⟩ := by
  rw [SourceMap.reread, h.shift_eq]
  rfl

/-- The sources have the texts that they have in the map. -/
theorem Sound.contents_reread (h : m.Sound) (lines : Nat) {i : Nat} (hi : i < m.sources.length) :
    (((m.shift lines).reread.contents)[i]?).join = (m.contents[i]?).join := by
  rw [SourceMap.reread, join_contents_readBack, h.shift_eq]
  exact join_knownContents hi

theorem Sound.knownContents_reread (h : m.Sound) (lines : Nat) : (m.shift lines).reread.knownContents = m.knownContents := by
  have hsources : (m.shift lines).reread.sources = m.sources := by rw [h.reread_shift]
  unfold knownContents
  rw [hsources]
  refine List.map_congr_left fun p hp => h.contents_reread lines ?_
  simpa using List.snd_lt_of_mem_zipIdx hp

/-- No name is new when a shifted map is read back. -/
theorem Sound.usedNames_reread (h : m.Sound) (lines : Nat) : (m.shift lines).reread.usedNames = m.usedNames := by
  rw [h.reread_shift, usedNames, List.foldl_map,
    foldl_destutter (f := fun names t => learn names (Token.nameIn m.usedNames t)) fun _ _ => learn_learn _ _, List.foldl_map]
  conv_rhs => rw [usedNames, List.foldl_map]
  refine List.foldl_ext _ _ _ fun names t ht => ?_
  rw [Token.nameIn_moved (mem_usedNames ht)]

/-- A map is shifted twice as by the sum, but for repetitions of a token. -/
theorem Sound.shift_reread (h : m.Sound) (a b : Nat) : (m.shift a).reread.shift b =
    { m.shift (a + b) with tokens := (m.shift (a + b)).tokens.destutter (· ≠ ·) } := by
  have htokens : ((m.tokens.map (Token.moved a m.names m.usedNames)).destutter (· ≠ ·)).map
      (Token.moved b m.usedNames m.usedNames) = (m.tokens.map (Token.moved (a + b) m.names m.usedNames)).destutter (· ≠ ·) := by
    have hmoved : ∀ t ∈ m.tokens, (Token.moved a m.names m.usedNames t).moved b m.usedNames m.usedNames =
        t.moved (a + b) m.names m.usedNames := fun t ht => Token.moved_moved (mem_usedNames ht) a b
    rw [map_destutter_of_inj, List.map_map]
    · exact congrArg (List.destutter (· ≠ ·)) (List.map_congr_left hmoved)
    · intro t' ht' u' hu' heq
      obtain ⟨t, ht, rfl⟩ := List.mem_map.mp ht'
      obtain ⟨u, hu, rfl⟩ := List.mem_map.mp hu'
      rw [hmoved t ht, hmoved u hu] at heq
      exact (Token.moved_inj a (a + b)).mpr heq
  rw [(h.shift a).reread.shift_eq, h.knownContents_reread, h.usedNames_reread, h.reread_shift, h.shift_eq (a + b)]
  simp only [htokens]

theorem render_destutter (m : SourceMap) : { m with tokens := m.tokens.destutter (· ≠ ·) }.render = m.render := by
  unfold SourceMap.render toJson
  simp only [writeMappings_destutter]

/-- What a shifted map says, read back. -/
theorem Sound.pointings_reread (h : m.Sound) (lines : Nat) :
    (m.shift lines).reread.pointings = (m.pointings.map (Pointing.down lines)).destutter (· ≠ ·) := by
  have hsaid : ∀ t ∈ m.tokens, (t.moved lines m.names m.usedNames).pointing m.sources m.usedNames =
      (t.pointing m.sources m.names).down lines := fun t ht => Token.pointing_moved (mem_usedNames ht)
  have hshifted := h.shift lines
  rw [h.shift_eq] at hshifted
  calc (m.shift lines).reread.pointings
      = ((m.tokens.map (Token.moved lines m.names m.usedNames)).destutter (· ≠ ·)).map
          (Token.pointing m.sources m.usedNames) := by rw [pointings, h.reread_shift]
    _ = ((m.tokens.map (Token.moved lines m.names m.usedNames)).map (Token.pointing m.sources m.usedNames)).destutter
          (· ≠ ·) := map_destutter_of_inj fun t ht u hu => hshifted.pointing_inj (nodup_usedNames m) ht hu
    _ = (m.pointings.map (Pointing.down lines)).destutter (· ≠ ·) := by
      rw [List.map_map, pointings, List.map_map]
      exact congrArg (List.destutter (· ≠ ·)) (List.map_congr_left hsaid)

/-- The maps that are read are sound if their sources have names of their own and all tokens have a source. -/
theorem sound_of_read? {text : String} (h : read? text = some m) (hsource : ∀ t ∈ m.tokens, t.source.isSome)
    (hnodup : m.sources.Nodup) : m.Sound := by
  obtain ⟨mappings, tokens, htokens, hsorted⟩ := exists_mappings_of_read? h
  refine ⟨hnodup, fun t ht => ?_, ?_⟩
  · refine proper_of_readMappings htokens t ?_ (hsource t ht)
    rw [hsorted] at ht
    exact (List.mergeSort_perm _ _).mem_iff.mp ht
  · rw [hsorted]
    exact List.pairwise_mergeSort Token.notAfter_trans Token.notAfter_total tokens

/-- Shifting a map twice gives the same text as shifting it by the sum. -/
theorem offsetMap_offsetMap {text : String} (h : read? text = some m) (hsource : ∀ t ∈ m.tokens, t.source.isSome)
    (hnodup : m.sources.Nodup) (a b : Nat) : ∃ shifted m', offsetMap text a = .ok shifted ∧
      offsetMap shifted b = offsetMap text (a + b) ∧ read? shifted = some m' ∧ m'.file = m.file ∧ m'.sources = m.sources ∧
      (∀ i < m.sources.length, (m'.contents[i]?).join = (m.contents[i]?).join) ∧
      m'.pointings = (m.pointings.map (Pointing.down a)).destutter (· ≠ ·) := by
  have hsound := sound_of_read? h hsource hnodup
  have hread := (hsound.shift a).read?_render
  refine ⟨(m.shift a).render, (m.shift a).reread, ?_, ?_, hread, ?_, ?_, fun i hi => hsound.contents_reread a hi,
    hsound.pointings_reread a⟩
  · rw [offsetMap, h]
  · rw [offsetMap, hread, offsetMap, h]
    simp only [hsound.shift_reread, render_destutter]
  · rw [hsound.reread_shift]
  · rw [hsound.reread_shift]

/-- A map with a source that is not used, and with a name that occurs twice. -/
def sharedNames : SourceMap :=
  ⟨some "a.min.js", ["a.js", "b.js"], [none, some "n();"], ["n", "n"],
    [⟨0, 1, some 1, 0, 0, some 0⟩, ⟨0, 1, some 1, 0, 0, some 1⟩, ⟨1, 0, some 1, 0, 1, none⟩]⟩

/-- The tokens with the two names say the same, so only one of them is left. -/
theorem offsetMap_offsetMap_sharedNames : read? sharedNames.render = some sharedNames ∧
    (∀ t ∈ sharedNames.tokens, t.source.isSome) ∧ sharedNames.sources.Nodup ∧
    ∃ shifted m', offsetMap sharedNames.render 2 = .ok shifted ∧
      offsetMap shifted 3 = offsetMap sharedNames.render 5 ∧ read? shifted = some m' ∧
      m'.file = some "a.min.js" ∧ m'.sources = ["a.js", "b.js"] ∧ (m'.contents[1]?).join = some "n();" ∧
      m'.pointings = [⟨2, 1, some "b.js", 0, 0, some "n"⟩, ⟨3, 0, some "b.js", 0, 1, none⟩] := by
  have hnodup : sharedNames.sources.Nodup := by decide
  have hsource : ∀ t ∈ sharedNames.tokens, t.source.isSome := by decide
  have hread : read? sharedNames.render = some sharedNames := by
    have hproper : ∀ t ∈ sharedNames.tokens, t.Proper ⟨2, 2⟩ := by
      simp only [sharedNames, List.mem_cons, List.not_mem_nil, or_false, forall_eq_or_imp, forall_eq]
      refine ⟨?_, ?_, ?_⟩ <;>
        exact ⟨by decide, ⟨1, by decide, rfl, by decide⟩, by decide, by decide, by simp⟩
    have hsound : sharedNames.Sound := ⟨hnodup, hproper, by decide⟩
    rw [hsound.read?_render]
    rfl
  obtain ⟨shifted, m', hshifted, htwice, hread', hfile, hsources, hcontents, hpointings⟩ :=
    offsetMap_offsetMap hread hsource hnodup 2 3
  exact ⟨hread, hsource, hnodup, shifted, m', hshifted, htwice, hread', hfile, hsources, hcontents 1 (by decide),
    hpointings.trans (by decide)⟩

end Relink.SourceMap
