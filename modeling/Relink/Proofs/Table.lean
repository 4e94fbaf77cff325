import Mathlib.Data.List.Induction
import Mathlib.Data.List.Sort
import Relink.Table

/-!
# Laws of tables

What is found under a key after an insertion, in a table made of a list, and in a table of which some
entries have been left out.

* `get?_insert` — an insertion changes what is found under its own key only.
* `get?_ofList_eq_some` — what a table made of a list holds comes from the list.
* `filterMap_eq_iff` — when two tables are the same of which the same entries have been left out.
* `Ordered` — the keys ascend; every table that is built by insertions is ordered.
* `eq_of_get?` — ordered tables are the same if the same is found in them.
-/

namespace Relink.Table

variable {κ α β : Type}

/-! ## Tables of which entries are left out -/

theorem values_filterMap (t : Table κ α) (f : α → Option β) : (t.filterMap f).values = t.values.filterMap f := by
  unfold values filterMap
  rw [List.map_filterMap, List.filterMap_map]
  congr 1
  funext e
  simp

theorem filterMap_filterMap {γ : Type} (t : Table κ α) (f : α → Option β) (f' : β → Option γ) :
    (t.filterMap f).filterMap f' = t.filterMap fun v => (f v).bind f' := by
  unfold filterMap
  rw [List.filterMap_filterMap]
  congr 2
  funext e
  rw [Option.bind_map, Option.map_bind]
  rfl

/-- If the same entries are left out, the tables are the same if and only if all values are. -/
theorem filterMap_eq_iff {t : Table κ α} {f f' : α → Option β}
    (h : ∀ v ∈ t.values, (f v).isSome = (f' v).isSome) :
    t.filterMap f = t.filterMap f' ↔ ∀ v ∈ t.values, f v = f' v := by
  rcases t with ⟨es⟩
  unfold filterMap values at *
  simp only [mk.injEq] at *
  induction es with
  | nil => simp
  | cons e es ih =>
    have hrest := ih fun v hv => h v (List.mem_cons_of_mem _ hv)
    have hfirst := h e.2 List.mem_cons_self
    rw [List.map_cons, List.forall_mem_cons, ← hrest]
    -- the first entry is left out of both tables, or it is the first one of both
    cases hf : f e.2 with
    | none =>
      have hf' : f' e.2 = none := by simpa [hf] using hfirst.symm
      simp [hf, hf']
    | some v =>
      rw [hf] at hfirst
      obtain ⟨v', hf'⟩ := Option.isSome_iff_exists.mp hfirst.symm
      simp [hf, hf']

variable [Ord κ]

/-! ## Looking up -/

/-- What is found under a key is one of the entries. -/
theorem exists_of_get?_eq_some {t : Table κ α} {k : κ} {v : α} (h : t.get? k = some v) :
    ∃ e ∈ t.entries, compare k e.1 = .eq ∧ e.2 = v := by
  unfold get? at h
  rcases Option.map_eq_some_iff.mp h with ⟨e, hfind, hv⟩
  have hkey := List.find?_some hfind
  exact ⟨e, List.mem_of_find?_eq_some hfind, by simpa using hkey, hv⟩

theorem mem_values_of_get?_eq_some {t : Table κ α} {k : κ} {v : α} (h : t.get? k = some v) :
    v ∈ t.values := by
  rcases exists_of_get?_eq_some h with ⟨e, he, -, rfl⟩
  exact List.mem_map_of_mem he

@[simp] theorem get?_empty (k : κ) : (empty : Table κ α).get? k = none := rfl

/-- The keys that have values are those of the entries. -/
theorem get?_isSome_iff {t : Table κ α} {k : κ} :
    (t.get? k).isSome ↔ ∃ e ∈ t.entries, compare k e.1 = .eq := by
  unfold get?
  simp [List.find?_isSome]

theorem contains_eq_isSome (t : Table κ α) (k : κ) : t.contains k = (t.get? k).isSome := by
  rw [Bool.eq_iff_iff, get?_isSome_iff]
  unfold contains
  simp [List.any_eq_true]

section Insert

variable [Std.TransOrd κ]

/-- Equal keys have the same value. -/
theorem get?_congr (t : Table κ α) {j k : κ} (h : compare j k = .eq) : t.get? j = t.get? k := by
  unfold get?
  congr 2
  funext e
  rw [Std.TransCmp.congr_left h]

theorem find?_insertEntry (j k : κ) (v : α) (es : List (κ × α)) :
    ((insertEntry k v es).find? fun e => compare j e.1 == .eq)
      = if compare j k = .eq then some (k, v) else es.find? fun e => compare j e.1 == .eq := by
  induction es with
  | nil =>
    by_cases hjk : compare j k = .eq
    · simp [insertEntry, hjk]
    · simp [insertEntry, hjk]
  | cons e es ih =>
    rcases e with ⟨k', v'⟩
    unfold insertEntry
    cases hkk : compare k k' with
    | lt =>
      by_cases hjk : compare j k = .eq
      · simp [hjk]
      · simp [hjk, List.find?_cons]
    | eq =>
      have hcongr : compare j k = compare j k' := Std.TransCmp.congr_right hkk
      by_cases hjk : compare j k = .eq
      · simp [hjk]
      · have hjk' : ¬compare j k' = .eq := by rwa [← hcongr]
        simp [hjk, hjk']
    | gt =>
      by_cases hjk : compare j k = .eq
      · -- the key that is looked for stands behind the first entry
        have hjk' : compare j k' = .gt := by rw [Std.TransCmp.congr_left hjk, hkk]
        simp only [List.find?_cons, hjk', ih, hjk]
        rfl
      · simp only [List.find?_cons, ih, hjk, if_false]

/-- An insertion changes what is found under its own key only. -/
theorem get?_insert (t : Table κ α) (j k : κ) (v : α) :
    (t.insert k v).get? j = if compare j k = .eq then some v else t.get? j := by
  have hfind := find?_insertEntry j k v t.entries
  unfold get? insert
  by_cases hjk : compare j k = .eq
  · simp only [hjk, if_true] at hfind ⊢
    rw [hfind]
    rfl
  · simp only [hjk, if_false] at hfind ⊢
    rw [hfind]

end Insert

theorem mem_insertEntry {k : κ} {v : α} {es : List (κ × α)} {e : κ × α} (h : e ∈ insertEntry k v es) :
    e = (k, v) ∨ e ∈ es := by
  induction es with
  | nil => exact Or.inl (by simpa [insertEntry] using h)
  | cons first es ih =>
    rcases first with ⟨k', v'⟩
    unfold insertEntry at h
    cases hkk : compare k k' with
    | lt =>
      rw [hkk] at h
      simpa using h
    | eq =>
      rw [hkk] at h
      rcases List.mem_cons.mp h with he | he
      · exact Or.inl he
      · exact Or.inr (List.mem_cons_of_mem _ he)
    | gt =>
      rw [hkk] at h
      rcases List.mem_cons.mp h with he | he
      · exact Or.inr (he ▸ List.mem_cons_self)
      · rcases ih he with hnew | hold
        · exact Or.inl hnew
        · exact Or.inr (List.mem_cons_of_mem _ hold)

theorem mem_values_insert {t : Table κ α} {k : κ} {v w : α} (h : w ∈ (t.insert k v).values) :
    w = v ∨ w ∈ t.values := by
  rcases List.mem_map.mp h with ⟨e, he, rfl⟩
  rcases mem_insertEntry he with rfl | he
  · exact Or.inl rfl
  · exact Or.inr (List.mem_map_of_mem he)

/-! ## Tables of lists -/

theorem ofList_concat (es : List (κ × α)) (e : κ × α) :
    ofList (es ++ [e]) = (ofList es).insert e.1 e.2 := by
  unfold ofList
  rw [List.foldl_append]
  rfl

/-- The entries of a table made of a list are those of the list. -/
theorem mem_of_mem_ofList {es : List (κ × α)} {e : κ × α} (h : e ∈ (ofList es).entries) : e ∈ es := by
  induction es using List.reverseRecOn with
  | nil => simp [ofList, empty] at h
  | append_singleton es last ih =>
    rw [ofList_concat] at h
    rcases mem_insertEntry h with rfl | hold
    · exact List.mem_append_right _ List.mem_cons_self
    · exact List.mem_append_left _ (ih hold)

section OfList

variable [Std.TransOrd κ]

/-- What a table made of a list holds under a key is in the list under that key. -/
theorem get?_ofList_eq_some {es : List (κ × α)} {k : κ} {v : α} (h : (ofList es).get? k = some v) :
    ∃ e ∈ es, compare k e.1 = .eq ∧ e.2 = v := by
  -- a later entry of the list takes the place of an earlier one, so the induction is from behind
  induction es using List.reverseRecOn with
  | nil => simp [ofList] at h
  | append_singleton es e ih =>
    rw [ofList_concat, get?_insert] at h
    by_cases hke : compare k e.1 = .eq
    · rw [if_pos hke] at h
      exact ⟨e, by simp, hke, Option.some.inj h⟩
    · rw [if_neg hke] at h
      rcases ih h with ⟨e', he', hrest⟩
      exact ⟨e', by simp [he'], hrest⟩

/-- Every key of a list has a value in the table made of it. -/
theorem get?_ofList_isSome {es : List (κ × α)} {k : κ} {e : κ × α} (he : e ∈ es)
    (hk : compare k e.1 = .eq) : ((ofList es).get? k).isSome := by
  induction es using List.reverseRecOn with
  | nil => simp at he
  | append_singleton es last ih =>
    rw [ofList_concat, get?_insert]
    by_cases hlast : compare k last.1 = .eq
    · rw [if_pos hlast]
      rfl
    · rw [if_neg hlast]
      rcases List.mem_append.mp he with hes | hes
      · exact ih hes
      · rw [List.mem_singleton.mp hes] at hk
        exact absurd hk hlast

/-- Under keys that all stand for one value, a table made of a list holds that value. -/
theorem get?_ofList_of_forall {es : List (κ × α)} {k : κ} {v : α} {e : κ × α} (he : e ∈ es)
    (hk : compare k e.1 = .eq) (hall : ∀ e' ∈ es, compare k e'.1 = .eq → e'.2 = v) :
    (ofList es).get? k = some v := by
  rcases Option.isSome_iff_exists.mp (get?_ofList_isSome he hk) with ⟨w, hw⟩
  rcases get?_ofList_eq_some hw with ⟨e', he', hk', rfl⟩
  rw [hw, hall e' he' hk']

/-- Of two lists that a table is made of, the second one decides. -/
theorem get?_ofList_append (es fs : List (κ × α)) (k : κ) :
    (ofList (es ++ fs)).get? k = ((ofList fs).get? k).or ((ofList es).get? k) := by
  induction fs using List.reverseRecOn with
  | nil => simp [ofList]
  | append_singleton fs e ih =>
    rw [← List.append_assoc, ofList_concat, ofList_concat, get?_insert, get?_insert, ih]
    split <;> simp

/-- In a table that is made of names with one value, they have that value. -/
theorem get?_ofList_const (names : List String) (v : α) (name : String) :
    (ofList (names.map fun x => (x, v))).get? name = if name ∈ names then some v else none := by
  induction names using List.reverseRecOn with
  | nil => simp [ofList]
  | append_singleton names x ih =>
    rw [List.map_append, List.map_singleton, ofList_concat, get?_insert, ih]
    simp only [Std.LawfulEqOrd.compare_eq_iff_eq, List.mem_append, List.mem_singleton]
    by_cases hx : name = x
    · simp [hx]
    · simp [hx]

end OfList

/-! ## Ordered tables -/

/-- The keys of a table ascend, so that each of them has one entry. -/
def Ordered (t : Table κ α) : Prop := t.entries.Pairwise fun a b => compare a.1 b.1 = .lt

theorem ordered_empty : (empty : Table κ α).Ordered := List.Pairwise.nil

theorem ordered_filterMap {t : Table κ α} (h : t.Ordered) (f : α → Option β) : (t.filterMap f).Ordered := by
  unfold Ordered filterMap
  refine List.Pairwise.filterMap _ ?_ h
  intro a b hab a' ha' b' hb'
  simp only [Option.map_eq_some_iff] at ha' hb'
  rcases ha' with ⟨_, -, rfl⟩
  rcases hb' with ⟨_, -, rfl⟩
  exact hab

variable [Std.TransOrd κ]

theorem ordered_insert {t : Table κ α} (h : t.Ordered) (k : κ) (v : α) : (t.insert k v).Ordered := by
  rcases t with ⟨es⟩
  unfold Ordered insert at *
  simp only at h ⊢
  induction es with
  | nil => simp [insertEntry]
  | cons e es ih =>
    rcases e with ⟨k', v'⟩
    rcases List.pairwise_cons.mp h with ⟨hfirst, hrest⟩
    unfold insertEntry
    cases hkk : compare k k' with
    | lt =>
      -- the new key is below the first one, and so below all of them
      refine List.pairwise_cons.mpr ⟨?_, h⟩
      intro e he
      rcases List.mem_cons.mp he with rfl | he
      · exact hkk
      · exact Std.TransCmp.lt_trans hkk (hfirst e he)
    | eq =>
      refine List.pairwise_cons.mpr ⟨?_, hrest⟩
      intro e he
      exact Std.TransCmp.lt_of_eq_of_lt hkk (hfirst e he)
    | gt =>
      -- the new key goes somewhere behind the first one
      refine List.pairwise_cons.mpr ⟨?_, ih hrest⟩
      intro e he
      rcases mem_insertEntry he with rfl | he
      · exact Std.OrientedCmp.lt_of_gt hkk
      · exact hfirst e he

theorem ordered_ofList (es : List (κ × α)) : (ofList es).Ordered := by
  induction es using List.reverseRecOn with
  | nil => exact ordered_empty
  | append_singleton es e ih =>
    rw [ofList_concat]
    exact ordered_insert ih _ _

/-- An entry whose key is above all others goes to the end. -/
theorem insertEntry_of_forall_lt {es : List (κ × α)} {k : κ} (v : α)
    (h : ∀ e ∈ es, compare e.1 k = .lt) : insertEntry k v es = es ++ [(k, v)] := by
  induction es with
  | nil => rfl
  | cons e es ih =>
    obtain ⟨hfirst, hrest⟩ := List.forall_mem_cons.mp h
    have hgt : compare k e.1 = .gt := Std.OrientedCmp.gt_of_lt hfirst
    simp only [insertEntry, hgt, ih hrest, List.cons_append]

/-- An ordered table is made of its entries. -/
theorem ofList_entries {t : Table κ α} (h : t.Ordered) : ofList t.entries = t := by
  have hlist : ∀ es : List (κ × α), (es.Pairwise fun a b => compare a.1 b.1 = .lt) → ofList es = ⟨es⟩ := by
    intro es hes
    induction es using List.reverseRecOn with
    | nil => rfl
    | append_singleton es e ih =>
      obtain ⟨hfront, -, hlast⟩ := List.pairwise_append.mp hes
      rw [ofList_concat, ih hfront]
      exact congrArg Table.mk (insertEntry_of_forall_lt e.2 fun e' he' => hlast e' he' e (by simp))
  exact hlist t.entries h

/-- The names in a table are different. -/
theorem Ordered.nodup_keys {t : Table κ α} (h : t.Ordered) : t.keys.Nodup := by
  unfold keys List.Nodup
  rw [List.pairwise_map]
  refine h.imp ?_
  rintro a b hab heq
  rw [heq, Std.ReflOrd.compare_self] at hab
  cases hab

/-- In an ordered table, an entry is what is found under its key. -/
theorem get?_eq_some_of_mem {t : Table κ α} (h : t.Ordered) {e : κ × α} (he : e ∈ t.entries) :
    t.get? e.1 = some e.2 := by
  rcases t with ⟨es⟩
  unfold Ordered at h
  unfold get?
  simp only at h he ⊢
  induction es with
  | nil => simp at he
  | cons first es ih =>
    rcases List.pairwise_cons.mp h with ⟨hfirst, hrest⟩
    rcases List.mem_cons.mp he with rfl | he
    · simp [Std.ReflOrd.compare_self]
    · -- the entry is above the first one, which the search passes over
      have hgt : compare e.1 first.1 = .gt := Std.OrientedCmp.gt_of_lt (hfirst e he)
      have hskip : (compare e.1 first.1 == .eq) = false := by rw [hgt]; rfl
      rw [List.find?_cons, hskip]
      exact ih hrest he

/-- What is found in an ordered table of which some entries have been left out. -/
theorem get?_filterMap {t : Table κ α} (h : t.Ordered) (f : α → Option β) (k : κ) :
    (t.filterMap f).get? k = (t.get? k).bind f := by
  cases hk : t.get? k with
  | none =>
    have hnot : ¬((t.filterMap f).get? k).isSome := by
      rw [get?_isSome_iff]
      rintro ⟨e, he, hke⟩
      rcases List.mem_filterMap.mp he with ⟨e', he', hmap⟩
      rcases Option.map_eq_some_iff.mp hmap with ⟨w, -, rfl⟩
      have hsome : (t.get? k).isSome := get?_isSome_iff.mpr ⟨e', he', hke⟩
      rw [hk] at hsome
      simp at hsome
    rw [Option.not_isSome_iff_eq_none.mp hnot]
    rfl
  | some v =>
    rcases exists_of_get?_eq_some hk with ⟨e, he, hke, rfl⟩
    -- the entry under the key has been kept, or it is the one that has been left out
    cases hf : f e.2 with
    | some w =>
      have hmem : (e.1, w) ∈ (t.filterMap f).entries :=
        List.mem_filterMap.mpr ⟨e, he, by simp [hf]⟩
      rw [get?_congr _ hke]
      simpa [hf] using get?_eq_some_of_mem (ordered_filterMap h f) hmem
    | none =>
      have hnot : ¬((t.filterMap f).get? k).isSome := by
        rw [get?_isSome_iff]
        rintro ⟨e₂, he₂, hke₂⟩
        rcases List.mem_filterMap.mp he₂ with ⟨e', he', hmap⟩
        rcases Option.map_eq_some_iff.mp hmap with ⟨w, hw, rfl⟩
        -- both entries stand under `k`, so they are one and the same
        have hsame : e'.2 = e.2 := by
          have h1 := get?_eq_some_of_mem h he'
          rw [← get?_congr t hke₂, hk] at h1
          exact (Option.some.inj h1).symm
        rw [hsame, hf] at hw
        simp at hw
      rw [Option.not_isSome_iff_eq_none.mp hnot]
      simp [hf]

/-- Ordered tables in which the same is found are the same. -/
theorem eq_of_get? [Std.LawfulEqOrd κ] {t t' : Table κ α} (h : t.Ordered) (h' : t'.Ordered)
    (hget : ∀ k, t.get? k = t'.get? k) : t = t' := by
  have hmem : ∀ {t t' : Table κ α}, t.Ordered → t'.Ordered → (∀ k, t.get? k = t'.get? k) →
      ∀ e ∈ t.entries, e ∈ t'.entries := by
    intro t t' h h' hget e he
    have hfound := get?_eq_some_of_mem h he
    rw [hget] at hfound
    rcases exists_of_get?_eq_some hfound with ⟨e', he', hkey, hvalue⟩
    have hsame : e = e' := Prod.ext (Std.LawfulEqOrd.eq_of_compare hkey) hvalue.symm
    exact hsame ▸ he'
  -- both lists are in order, and a list in order is determined by what is in it
  have hirrefl : Std.Irrefl fun a b : κ × α => compare a.1 b.1 = .lt := by
    refine ⟨fun a hlt => ?_⟩
    rw [Std.ReflOrd.compare_self] at hlt
    cases hlt
  have hantisymm : Std.Antisymm fun a b : κ × α => compare a.1 b.1 = .lt := by
    refine ⟨fun a b hab hba => ?_⟩
    rw [Std.OrientedCmp.gt_of_lt hab] at hba
    cases hba
  have hentries : t.entries = t'.entries := by
    refine List.Pairwise.eq_of_mem_iff h h' fun e => ⟨hmem h h' hget e, hmem h' h (fun k => (hget k).symm) e⟩
  cases t
  cases t'
  exact congrArg Table.mk hentries

/-! ## Tables of texts -/

theorem get?_eq_lookup (t : Table String α) (name : String) : t.get? name = t.entries.lookup name := by
  obtain ⟨es⟩ := t
  unfold get?
  induction es with
  | nil => rfl
  | cons e es ih =>
    rw [List.find?_cons, List.lookup_cons]
    by_cases hname : name = e.1
    · rw [hname, beq_self_eq_true, Std.ReflOrd.compare_self]
      rfl
    · have hne : (compare name e.1 == .eq) = false := by
        rw [beq_eq_false_iff_ne]
        exact fun h => hname (Std.LawfulEqOrd.eq_of_compare h)
      rw [hne, beq_eq_false_iff_ne.mpr hname]
      exact ih

/-- In a table that is made of entries under different names, these are found. -/
theorem get?_ofList_of_nodup {es : List (String × α)} (h : (es.map Prod.fst).Nodup) (name : String) :
    (ofList es).get? name = es.lookup name := by
  induction es using List.reverseRecOn with
  | nil => rfl
  | append_singleton es e ih =>
    rw [List.map_append, List.nodup_append'] at h
    rw [ofList_concat, get?_insert, ih h.1, List.lookup_append, List.lookup_cons, List.lookup_nil]
    by_cases hname : name = e.1
    · -- the name is that of the last entry only
      have hnone : es.lookup name = none := by
        rw [List.lookup_eq_none_iff]
        intro e' he'
        rw [bne_iff_ne]
        rintro rfl
        exact h.2.2 (List.mem_map_of_mem he') (by simp [hname])
      rw [hnone, hname, if_pos Std.ReflOrd.compare_self, beq_self_eq_true]
      rfl
    · rw [if_neg fun h => hname (Std.LawfulEqOrd.eq_of_compare h), beq_eq_false_iff_ne.mpr hname, Option.or_none]

end Relink.Table

namespace Relink.NameSet

/-- Sets in order that contain the same names are the same. -/
theorem eq_of_contains {s s' : NameSet} (h : s.table.Ordered) (h' : s'.table.Ordered)
    (hcontains : ∀ x, s.contains x = true ↔ s'.contains x = true) : s = s' := by
  have htable : s.table = s'.table := by
    refine Table.eq_of_get? h h' fun x => ?_
    have hx := hcontains x
    unfold contains at hx
    rw [Table.contains_eq_isSome, Table.contains_eq_isSome, ← Bool.eq_iff_iff] at hx
    cases hs : s.table.get? x with
    | none =>
      rw [hs] at hx
      exact (Option.isNone_iff_eq_none.mp (by simpa using hx.symm)).symm
    | some u =>
      rw [hs] at hx
      rcases Option.isSome_iff_exists.mp hx.symm with ⟨u', hu'⟩
      exact hu'.symm
  cases s
  cases s'
  exact congrArg NameSet.mk htable

theorem table_ofList (xs : List String) : (ofList xs).table = Table.ofList (xs.map fun x => (x, ())) := by
  induction xs using List.reverseRecOn with
  | nil => rfl
  | append_singleton xs x ih =>
    rw [ofList, List.foldl_append, List.map_append, List.map_singleton, Table.ofList_concat, ← ih]
    rfl

theorem ordered_ofList (xs : List String) : (ofList xs).table.Ordered := by
  rw [table_ofList]
  exact Table.ordered_ofList _

@[simp] theorem contains_empty (x : String) : NameSet.empty.contains x = false := rfl

theorem contains_insert (s : NameSet) (x y : String) :
    (s.insert x).contains y = (y == x || s.contains y) := by
  unfold contains insert
  rw [Table.contains_eq_isSome, Table.contains_eq_isSome, Table.get?_insert]
  by_cases hxy : y = x
  · simp [hxy]
  · have hne : ¬compare y x = .eq := fun h => hxy (Std.LawfulEqOrd.eq_of_compare h)
    simp [hxy, hne]

/-- The names of a set are those that it contains. -/
theorem mem_toList_iff {s : NameSet} {x : String} : x ∈ s.toList ↔ s.contains x = true := by
  unfold contains toList Table.keys
  rw [Table.contains_eq_isSome, Table.get?_isSome_iff]
  constructor
  · intro h
    rcases List.mem_map.mp h with ⟨e, he, rfl⟩
    exact ⟨e, he, Std.ReflOrd.compare_self⟩
  · rintro ⟨e, he, hx⟩
    rw [Std.LawfulEqOrd.eq_of_compare hx]
    exact List.mem_map_of_mem he

end Relink.NameSet
