import Mathlib.Data.List.Nodup
import Std.Data.String.ToNat
import Relink.Linker.Ids
import Relink.Proofs.Partition
import Relink.Proofs.Table

/-!
# Ids tell modules apart

Every module of a link has one id, and no two modules have the same.

* `freshKey_not_mem` — there is always a key that is not used yet.
* `exists_id`, `mem_of_id` — the modules that have an id are those of the bundles.
* `assignIds_injective` — modules of one id are the same.
-/

namespace Relink

/-! ## Keys -/

theorem nodup_numberedKeys (hash : String) (used : List String) : (numberedKeys hash used).Nodup := by
  unfold numberedKeys
  -- the keys have the same front and different numbers
  refine List.Nodup.map ?_ List.nodup_range
  intro i j hij
  have hnumber := (String.append_right_inj _).mp hij
  have hrepr : Nat.repr (i + 1) = Nat.repr (j + 1) := hnumber
  have hsucc := Nat.repr_injective hrepr
  omega

/-- There are more numbered keys than used ones, so they are not all used. -/
theorem exists_numberedKey_not_mem (hash : String) (used : List String) : ∃ key ∈ numberedKeys hash used, key ∉ used := by
  by_contra hall
  push Not at hall
  have hlength := (nodup_numberedKeys hash used).length_le_of_subset hall
  have hnumber : (numberedKeys hash used).length = used.length + 1 := by simp [numberedKeys]
  omega

/-- There is a key that is not used yet. -/
theorem freshKey_not_mem (hash : String) (used : List String) : freshKey hash used ∉ used := by
  unfold freshKey
  cases hfind : (keyFronts hash.toList ++ numberedKeys hash used).find? fun key => !used.contains key with
  | some key =>
    have hkey := List.find?_some hfind
    simpa using hkey
  | none =>
    obtain ⟨key, hkey, hunused⟩ := exists_numberedKey_not_mem hash used
    have hused := List.find?_eq_none.mp hfind key (List.mem_append_right _ hkey)
    simp [hunused] at hused

/-! ## Sparse bundles -/

variable {g : ModuleGraph}

theorem assignSparse_fst (used : List String) (places : List Nat) :
    (assignSparse g used places).1.map Prod.fst = places := by
  induction places generalizing used with
  | nil => rfl
  | cons i rest ih =>
    rw [assignSparse, List.map_cons, ih]

/-- The keys of a bundle are none of the used ones, and are used afterwards. -/
theorem assignSparse_keys {used : List String} {places : List Nat} :
    (∀ key ∈ used, key ∈ (assignSparse g used places).2) ∧
    ∀ id ∈ (assignSparse g used places).1.map Prod.snd,
      ∃ key, id = .sparse key ∧ key ∉ used ∧ key ∈ (assignSparse g used places).2 := by
  induction places generalizing used with
  | nil =>
    refine ⟨fun key hkey => hkey, ?_⟩
    intro id hid
    simp [assignSparse] at hid
  | cons i rest ih =>
    rcases @ih (freshKey (g.hashAt i) used :: used) with ⟨hkeep, hkeys⟩
    rw [assignSparse]
    refine ⟨fun key hkey => hkeep key (List.mem_cons_of_mem _ hkey), ?_⟩
    intro id hid
    -- the first key is fresh, and the later ones are so against more used keys
    rcases List.mem_cons.mp hid with rfl | hid
    · exact ⟨_, rfl, freshKey_not_mem _ _, hkeep _ List.mem_cons_self⟩
    · rcases hkeys id hid with ⟨key, rfl, hunused, hafter⟩
      exact ⟨key, rfl, fun hused => hunused (List.mem_cons_of_mem _ hused), hafter⟩

theorem nodup_assignSparse (used : List String) (places : List Nat) :
    ((assignSparse g used places).1.map Prod.snd).Nodup := by
  induction places generalizing used with
  | nil => exact List.nodup_nil
  | cons i rest ih =>
    rw [assignSparse, List.map_cons, List.nodup_cons]
    refine ⟨?_, ih _⟩
    intro hmem
    rcases assignSparse_keys.2 _ hmem with ⟨key, hkey, hunused, -⟩
    cases hkey
    exact hunused List.mem_cons_self

/-! ## All bundles -/

open Relink.Partition

theorem assignFrom_fst (used : List String) (ps : List Partition) :
    (assignFrom g used ps).map Prod.fst = modulesOf ps := by
  induction ps generalizing used with
  | nil => rfl
  | cons p ps ih =>
    rw [assignFrom, modulesOf_cons]
    split
    · rw [List.map_append, ih, List.map_map]
      congr 1
      exact List.zipIdx_map_fst 0 p.modules
    · rw [List.map_append, ih, assignSparse_fst]

/-- The ids of sparse bundles are keys that are not used before. -/
theorem assignFrom_sparse {used : List String} {ps : List Partition} (h : ∀ p ∈ ps, p.assembly = .sparse) :
    ((assignFrom g used ps).map Prod.snd).Nodup ∧
    ∀ id ∈ (assignFrom g used ps).map Prod.snd, ∃ key, id = .sparse key ∧ key ∉ used := by
  induction ps generalizing used with
  | nil => exact ⟨List.nodup_nil, by simp [assignFrom]⟩
  | cons p ps ih =>
    obtain ⟨hnodup, hkeys⟩ := @ih (assignSparse g used p.modules).2
      fun q hq => h q (List.mem_cons_of_mem _ hq)
    have hown := @assignSparse_keys g used p.modules
    rw [assignFrom, h p List.mem_cons_self]
    simp only [List.map_append]
    refine ⟨List.nodup_append.mpr ⟨nodup_assignSparse _ _, hnodup, ?_⟩, ?_⟩
    · -- the keys of the first bundle are used when those of the others are made
      intro id hid id' hid' heq
      rcases hown.2 id hid with ⟨key, rfl, -, hafter⟩
      rcases hkeys id' hid' with ⟨key', hkey', hunused⟩
      rw [hkey'] at heq
      cases heq
      exact hunused hafter
    · intro id hid
      rcases List.mem_append.mp hid with hid | hid
      · rcases hown.2 id hid with ⟨key, rfl, hunused, -⟩
        exact ⟨key, rfl, hunused⟩
      · rcases hkeys id hid with ⟨key, rfl, hunused⟩
        exact ⟨key, rfl, fun hused => hunused (hown.1 key hused)⟩

/-- The ids of a dense bundle are the places in it. -/
theorem nodup_dense (places : List Nat) :
    ((places.zipIdx.map fun (i, place) => (i, ModuleId.dense place)).map Prod.snd).Nodup := by
  rw [List.map_map]
  have hplaces : (places.zipIdx.map Prod.snd).Nodup := by
    rw [List.zipIdx_map_snd]
    exact List.nodup_range'
  have hcomp : (Prod.snd ∘ fun e : Nat × Nat => (e.1, ModuleId.dense e.2)) = ModuleId.dense ∘ Prod.snd := rfl
  rw [hcomp, ← List.map_map]
  refine List.Nodup.map ?_ hplaces
  intro a b hab
  exact ModuleId.dense.inj hab

theorem nodup_assignFrom {main : Partition} {rest : List Partition} (h : ∀ p ∈ rest, p.assembly = .sparse) :
    ((assignFrom g [] (main :: rest)).map Prod.snd).Nodup := by
  cases hmain : main.assembly with
  | sparse =>
    refine (assignFrom_sparse ?_).1
    intro p hp
    rcases List.mem_cons.mp hp with rfl | hp
    · exact hmain
    · exact h p hp
  | dense =>
    rcases @assignFrom_sparse g [] rest h with ⟨hnodup, hkeys⟩
    rw [assignFrom, hmain]
    simp only [List.map_append]
    refine List.nodup_append.mpr ⟨nodup_dense _, hnodup, ?_⟩
    -- a place in the dense bundle is no key
    intro id hid id' hid' heq
    rcases hkeys id' hid' with ⟨key, rfl, -⟩
    rw [List.map_map] at hid
    rcases List.mem_map.mp hid with ⟨e, -, he⟩
    rw [heq] at he
    cases he

/-! ## The table of ids -/

variable {independent : Bool} {entries : List Path} {parts : List Partition}

theorem sparse_of_plugins {claimed : List Nat} {paths : List Path} {ps : List Partition}
    (h : plugins g claimed paths = .ok ps) : ∀ p ∈ ps, p.assembly = .sparse := by
  induction paths generalizing claimed ps with
  | nil =>
    unfold plugins at h
    cases h
    simp
  | cons path paths ih =>
    rcases plugins_cons h with ⟨p, others, rfl, -, hsparse, -, hothers⟩
    intro q hq
    rcases List.mem_cons.mp hq with rfl | hq
    · exact hsparse
    · exact ih hothers q hq

theorem get?_assignIds {i : Nat} {id : ModuleId} (h : (assignIds g parts).get? i = some id) :
    (i, id) ∈ assignFrom g [] parts := by
  rcases Table.get?_ofList_eq_some h with ⟨e, he, hkey, rfl⟩
  rw [Std.LawfulEqOrd.eq_of_compare hkey]
  exact he

/-- The id that is assigned to a module is the one that it has. -/
theorem get?_assignIds_of_mem (h : partition g independent entries = .ok parts) {i : Nat} {id : ModuleId}
    (hi : (i, id) ∈ assignFrom g [] parts) : (assignIds g parts).get? i = some id := by
  have hnodup := nodup_partition h
  rw [← assignFrom_fst (g := g) []] at hnodup
  apply Table.get?_ofList_of_forall hi Std.ReflOrd.compare_self
  intro e he hkey
  -- every module is assigned one id
  have hplace : i = e.1 := Std.LawfulEqOrd.eq_of_compare hkey
  rw [List.inj_on_of_nodup_map hnodup he hi hplace.symm]

/-- Every module of the bundles has an id. -/
theorem exists_id {i : Nat} (h : i ∈ modulesOf parts) : ∃ id, (assignIds g parts).get? i = some id := by
  rw [← assignFrom_fst (g := g) [] parts] at h
  rcases List.mem_map.mp h with ⟨e, he, rfl⟩
  exact Option.isSome_iff_exists.mp (Table.get?_ofList_isSome he Std.ReflOrd.compare_self)

/-- Only modules of the bundles have an id. -/
theorem mem_of_id {i : Nat} {id : ModuleId} (h : (assignIds g parts).get? i = some id) :
    i ∈ modulesOf parts := by
  rw [← assignFrom_fst (g := g) [] parts]
  exact List.mem_map_of_mem (get?_assignIds h)

/-- Modules of one id are the same. -/
theorem assignIds_injective (h : partition g independent entries = .ok parts) {i j : Nat} {id : ModuleId}
    (hi : (assignIds g parts).get? i = some id) (hj : (assignIds g parts).get? j = some id) : i = j := by
  rcases partition_cases h with ⟨first, plugins, entry, rest, -, -, rfl, hrest⟩
  have hnodup := @nodup_assignFrom g (Partition.main g independent plugins entry) rest
    (sparse_of_plugins hrest)
  have heq := List.inj_on_of_nodup_map hnodup (get?_assignIds hi) (get?_assignIds hj) rfl
  exact congrArg Prod.fst heq

end Relink
