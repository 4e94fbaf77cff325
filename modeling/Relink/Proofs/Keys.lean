import Mathlib.Data.List.Flatten
import Mathlib.Order.Bounds.Defs
import Relink.Proofs.Linked
import Relink.Proofs.Membership

/-!
# The keys of sparse bundles

The modules of sparse bundles get their keys one after the other. Each key is as short a front of the digest as no
earlier module of the link holds; a digest the fronts of which are all held gets the least number that makes a new key.
So a key only differs from the front of ten characters if an earlier module holds that one.

* `IsKey` — the key for a digest, while some keys are held.
* `isKey_freshKey` — it is the key that is chosen.
* `mem_assignSparse_snd` — the keys that are held behind a bundle are those of before and those of its modules.
* `sparse_keys` — the keys of a link.
-/

namespace Relink

/-! ## The key for a digest -/

/-- The front of a digest. -/
def keyFront (hash : String) (n : Nat) : String := String.ofList (hash.toList.take n)

/-- A digest with a number behind it. -/
def numberedKey (hash : String) (n : Nat) : String := hash ++ "-" ++ toString n

/-- The key for a digest while some keys are held: the shortest front of at least ten characters that is not held, or, if
all of these fronts are held, the digest with the least number that makes a key which is not held. -/
inductive IsKey (hash : String) (held : String → Prop) : String → Prop
  | front {n : Nat}
      (h : IsLeast {n | min keyLength hash.length ≤ n ∧ n ≤ hash.length ∧ ¬held (keyFront hash n)} n) :
      IsKey hash held (keyFront hash n)
  | numbered {n : Nat}
      (hfronts : ∀ k, min keyLength hash.length ≤ k → k ≤ hash.length → held (keyFront hash k))
      (h : IsLeast {n | 1 ≤ n ∧ ¬held (numberedKey hash n)} n) : IsKey hash held (numberedKey hash n)

variable {hash key : String} {held : String → Prop} {used : List String}

theorem IsKey.not_held (h : IsKey hash held key) : ¬held key := by
  cases h with
  | front h => exact h.1.2.2
  | numbered _ h => exact h.1.2

/-- Only a key that is held keeps the front of ten characters from being the key. -/
theorem IsKey.eq_front_iff (h : IsKey hash held key) :
    key = keyFront hash keyLength ↔ ¬held (keyFront hash keyLength) := by
  have hleast : keyFront hash keyLength = keyFront hash (min keyLength hash.length) := by
    unfold keyFront
    rw [List.take_eq_take_min, String.length_toList]
  constructor
  · rintro rfl
    exact h.not_held
  · intro hfree
    rw [hleast] at hfree ⊢
    cases h with
    | front h =>
      -- no front that can be a key is shorter
      have hle := h.2 ⟨le_rfl, min_le_right _ _, hfree⟩
      rw [le_antisymm hle h.1.1]
    | numbered hfronts _ => exact absurd (hfronts _ le_rfl (min_le_right _ _)) hfree

/-- The first of some numbered texts that is not used is the one with the least number. -/
theorem find?_map_range_eq_some {f : Nat → String} {m : Nat} :
    (((List.range m).map f).find? fun key => !used.contains key) = some key ↔
      ∃ i < m, IsLeast {i | f i ∉ used} i ∧ f i = key := by
  rw [List.find?_map, Option.map_eq_some_iff]
  refine exists_congr fun i => ?_
  rw [List.find?_range_eq_some]
  simp only [Function.comp_apply, Bool.not_eq_true', List.contains_eq_mem, decide_eq_false_iff_not, List.mem_range,
    Bool.not_not, decide_eq_true_eq]
  constructor
  · rintro ⟨⟨hfree, hi, hbelow⟩, hkey⟩
    exact ⟨hi, ⟨hfree, fun j hj => not_lt.mp fun hlt => hj (hbelow j hlt)⟩, hkey⟩
  · rintro ⟨hi, ⟨hfree, hleast⟩, hkey⟩
    exact ⟨⟨hfree, hi, fun j hlt => by_contra fun hj => absurd (hleast hj) (not_le.mpr hlt)⟩, hkey⟩

/-- The key that is chosen is the one for the digest. -/
theorem isKey_freshKey (hash : String) (used : List String) : IsKey hash (· ∈ used) (freshKey hash used) := by
  have hlength : hash.toList.length = hash.length := String.length_toList
  unfold freshKey
  rw [List.find?_append]
  cases hfront : (keyFronts hash.toList).find? fun key => !used.contains key with
  | some key =>
    unfold keyFronts at hfront
    obtain ⟨i, hi, ⟨hfree, hleast⟩, rfl⟩ := find?_map_range_eq_some.mp hfront
    rw [hlength] at *
    refine .front ⟨⟨Nat.le_add_right _ i, by omega, hfree⟩, ?_⟩
    rintro n ⟨hn, -, hunused⟩
    -- the fronts are counted from the shortest one that can be a key
    obtain ⟨j, rfl⟩ := Nat.exists_eq_add_of_le hn
    exact Nat.add_le_add_left (hleast hunused) _
  | none =>
    have hfronts : ∀ k, min keyLength hash.length ≤ k → k ≤ hash.length → keyFront hash k ∈ used := by
      intro k hmin hmax
      obtain ⟨j, rfl⟩ := Nat.exists_eq_add_of_le hmin
      have hmem : keyFront hash (min keyLength hash.length + j) ∈ keyFronts hash.toList := by
        unfold keyFronts
        rw [hlength]
        exact List.mem_map.mpr ⟨j, List.mem_range.mpr (by omega), rfl⟩
      simpa using List.find?_eq_none.mp hfront _ hmem
    rw [Option.none_or]
    cases hnumber : (numberedKeys hash used).find? fun key => !used.contains key with
    | some key =>
      unfold numberedKeys at hnumber
      obtain ⟨i, -, ⟨hfree, hleast⟩, rfl⟩ := find?_map_range_eq_some.mp hnumber
      refine .numbered hfronts ⟨⟨Nat.le_add_left 1 i, hfree⟩, ?_⟩
      rintro n ⟨hn, hunused⟩
      -- the numbers start at one
      obtain ⟨j, rfl⟩ := Nat.exists_eq_add_of_le' hn
      exact Nat.add_le_add_right (hleast hunused) 1
    | none =>
      obtain ⟨key, hkey, hunused⟩ := exists_numberedKey_not_mem hash used
      have hused := List.find?_eq_none.mp hnumber key hkey
      simp [hunused] at hused

example : freshKey "0123456789ab" ["0123456789ab", "0123456789a", "0123456789"] = "0123456789ab-1" := by rfl

/-! ## The keys of a bundle -/

variable {g : ModuleGraph}

theorem assignSparse_append (used : List String) (front back : List Nat) :
    assignSparse g used (front ++ back) =
      ((assignSparse g used front).1 ++ (assignSparse g (assignSparse g used front).2 back).1,
        (assignSparse g (assignSparse g used front).2 back).2) := by
  induction front generalizing used with
  | nil => rfl
  | cons i front ih => rw [List.cons_append, assignSparse, ih, assignSparse, List.cons_append]

/-- The keys that are held behind a bundle are those that are held in front of it, and those of its modules. -/
theorem mem_assignSparse_snd {places : List Nat} :
    key ∈ (assignSparse g used places).2 ↔
      key ∈ used ∨ ModuleId.sparse key ∈ (assignSparse g used places).1.map Prod.snd := by
  induction places generalizing used with
  | nil => simp [assignSparse]
  | cons i places ih =>
    rw [assignSparse, ih, List.mem_cons, List.map_cons, List.mem_cons, ModuleId.sparse.injEq]
    tauto

/-- The modules of the sparse bundles, in the order in which they get their keys. -/
def Partition.sparseModules (ps : List Partition) : List Nat := modulesOf (ps.filter fun p => p.assembly = .sparse)

/-- The ids of the modules of sparse bundles are those that they get one after the other. -/
theorem assignSparse_sublist (used : List String) (ps : List Partition) :
    (assignSparse g used (Partition.sparseModules ps)).1.Sublist (assignFrom g used ps) := by
  induction ps generalizing used with
  | nil => exact List.Sublist.refl []
  | cons p ps ih =>
    unfold Partition.sparseModules at ih ⊢
    rw [assignFrom]
    cases hassembly : p.assembly with
    | dense =>
      rw [List.filter_cons_of_neg (by simp [hassembly])]
      exact (ih used).trans (List.sublist_append_right _ _)
    | sparse =>
      rw [List.filter_cons_of_pos (by simp [hassembly]), Partition.modulesOf_cons, assignSparse_append]
      exact (List.Sublist.refl _).append (ih _)

/-! ## The keys of a link -/

/-- The artifacts of the sparse bundles of a link, in order. -/
def LinkOutput.sparseArtifacts (output : LinkOutput) : List Artifact :=
  (output.bundles.filter fun b => b.assembly = .sparse).flatMap Bundle.artifacts

namespace Linker

open Linking Relink.Partition

variable {l : Linker} {t : FileTree} {parts : List Partition} {made : Nat → Artifact} {output : LinkOutput}
  {kept : List Artifact}

theorem Linked.sparseArtifacts (h : Linked l g parts made output kept) :
    output.sparseArtifacts = (sparseModules parts).map made := by
  have hbundles : ∀ {ps bs}, List.Forall₂ (BundleFits l parts made) ps bs →
      (bs.filter fun b => b.assembly = .sparse).flatMap Bundle.artifacts = (sparseModules ps).map made := by
    intro ps bs hfits
    induction hfits with
    | nil => rfl
    | @cons p b ps bs hb _ ih =>
      unfold sparseModules at ih ⊢
      have hassembly : b.assembly = p.assembly := by rw [hb.bundle]
      by_cases hsparse : p.assembly = .sparse
      · rw [List.filter_cons_of_pos (by simp [hassembly, hsparse]), List.filter_cons_of_pos (by simp [hsparse]),
          List.flatMap_cons, ih, hb.bundle, modulesOf_cons, List.map_append]
      · rw [List.filter_cons_of_neg (by simp [hassembly, hsparse]), List.filter_cons_of_neg (by simp [hsparse]), ih]
  exact hbundles h.bundles

/-- The artifact of a module has the id that is assigned to it. -/
theorem Linked.id_of_mem (h : Linked l g parts made output kept) {i : Nat} {id : ModuleId}
    (hid : (i, id) ∈ assignFrom g [] parts) : (made i).record.id = id := by
  have hi : i ∈ modulesOf parts := by
    rw [← assignFrom_fst (g := g) []]
    exact List.mem_map_of_mem hid
  obtain ⟨m, -, hown, -⟩ := h.record hi
  rw [get?_assignIds_of_mem h.partitioned hid] at hown
  exact (Option.some.inj hown).symm

theorem Linked.hash_eq (h : Linked l g parts made output kept) {i : Nat} (hi : i ∈ modulesOf parts) :
    (made i).record.hash = g.hashAt i := by
  obtain ⟨job, hplan, hrecord, -⟩ := h.isMade i hi
  obtain ⟨m, hm, rfl⟩ := plan_eq_some hplan
  obtain ⟨-, -, hhash, -⟩ := recordOf_eq_ok hrecord
  unfold ModuleGraph.hashAt
  rw [hhash, hm]
  rfl

/-- The id of a module of a sparse bundle is the key for its digest, while the earlier ones hold theirs. -/
theorem Linked.isKey (h : Linked l g parts made output kept) {front back : List Artifact} {a : Artifact}
    (hsplit : output.sparseArtifacts = front ++ a :: back) :
    ∃ key, a.record.id = .sparse key ∧ IsKey a.record.hash (fun k => ∃ b ∈ front, b.record.id = .sparse k) key := by
  rw [h.sparseArtifacts] at hsplit
  obtain ⟨places, others, hplaces, rfl, hothers⟩ := List.map_eq_append_iff.mp hsplit
  obtain ⟨i, others, rfl, rfl, -⟩ := List.map_eq_cons_iff.mp hothers
  have hsublist := assignSparse_sublist (g := g) [] parts
  rw [hplaces, assignSparse_append, assignSparse] at hsublist
  have hid := h.id_of_mem (hsublist.subset (List.mem_append_right _ List.mem_cons_self))
  have hfront : ∀ e ∈ (assignSparse g [] places).1, (made e.1).record.id = e.2 :=
    fun e he => h.id_of_mem (hsublist.subset (List.mem_append_left _ he))
  have hmade : places.map made = (assignSparse g [] places).1.map fun e => made e.1 := by
    conv_lhs => rw [← assignSparse_fst (g := g) [] places]
    rw [List.map_map]
    rfl
  -- the keys that are used are those of the earlier modules
  have hheld : (· ∈ (assignSparse g [] places).2) = fun k => ∃ b ∈ places.map made, b.record.id = .sparse k := by
    funext k
    rw [mem_assignSparse_snd, hmade]
    simp only [List.not_mem_nil, false_or, List.mem_map, exists_exists_and_eq_and, eq_iff_iff]
    refine exists_congr fun e => and_congr_right fun he => ?_
    rw [hfront e he]
  have hi : i ∈ modulesOf parts := by
    have hmem : i ∈ sparseModules parts := hplaces ▸ List.mem_append_right _ List.mem_cons_self
    obtain ⟨p, hp, hip⟩ := mem_modulesOf.mp hmem
    exact mem_modulesOf.mpr ⟨p, List.mem_of_mem_filter hp, hip⟩
  refine ⟨_, hid, ?_⟩
  rw [h.hash_eq hi, ← hheld]
  exact isKey_freshKey _ _

/-- The key that is chosen for a digest is not used and is the one for it, whatever keys are used; behind a bundle the
keys of its modules are used as well, and no others. In a link, the id of a module of a sparse bundle is the key for its
digest, while the earlier modules of sparse bundles hold theirs; so it is the front of ten characters of the digest if
and only if none of them holds that one. -/
theorem sparse_keys :
    (∀ (hash : String) (used : List String), freshKey hash used ∉ used ∧ IsKey hash (· ∈ used) (freshKey hash used)) ∧
    (∀ (g : ModuleGraph) (used : List String) (places : List Nat) (key : String),
      key ∈ (assignSparse g used places).2 ↔
        key ∈ used ∨ ModuleId.sparse key ∈ (assignSparse g used places).1.map Prod.snd) ∧
    ∀ (l : Linker) (t : FileTree) (output : LinkOutput), (l.link t).1 = .ok output →
      ∀ (front back : List Artifact) (a : Artifact), output.sparseArtifacts = front ++ a :: back →
        ∃ key, a.record.id = .sparse key ∧
          IsKey a.record.hash (fun k => ∃ b ∈ front, b.record.id = .sparse k) key ∧
          (key = keyFront a.record.hash keyLength ↔
            ∀ b ∈ front, b.record.id ≠ .sparse (keyFront a.record.hash keyLength)) := by
  refine ⟨fun hash used => ⟨freshKey_not_mem hash used, isKey_freshKey hash used⟩,
    fun g used places key => mem_assignSparse_snd, ?_⟩
  intro l t output hlink front back a hsplit
  obtain ⟨g, s, parts, made, kept, -, hlinked, -⟩ := link_cases hlink
  obtain ⟨key, hid, hkey⟩ := hlinked.isKey hsplit
  refine ⟨key, hid, hkey, hkey.eq_front_iff.trans ?_⟩
  simp only [not_exists, not_and, ne_eq]

/-- A plugin that requires two scripts with the same text. -/
def sameTexts : FileTree :=
  .ofTexts ["work"] [["work"], ["work", "ext"]] [
    (["work", "main.js"], "exports.m = 1;\n"),
    (["work", "ext", "plugin.js"], "require(\"./a\");\nrequire(\"./b\");\n"),
    (["work", "ext", "a.js"], "exports.i = 1;\n"),
    (["work", "ext", "b.js"], "exports.i = 1;\n")]

/-- Behind a plugin, the first of two modules holds the front of ten characters of the digest of the second one. -/
def holdsFront : List Artifact → Bool
  | [_, first, second] => first.record.id == .sparse (keyFront second.record.hash keyLength)
  | _ => false

/-- The key of the second of two scripts with the same text is not the front of ten characters, which the first one
holds. -/
theorem sparse_keys_of_sameTexts : ∃ (l : Linker) (output : LinkOutput) (front back : List Artifact) (a : Artifact),
    ofConfig sameTexts (pluginConfig "ext/plugin.js") Minifier.unchanged (fun _ => false) = .ok l ∧
      (l.link sameTexts).1 = .ok output ∧ output.sparseArtifacts = front ++ a :: back ∧
      (∃ b ∈ front, b.record.id = .sparse (keyFront a.record.hash keyLength)) ∧
      ∃ key, a.record.id = .sparse key ∧
        IsKey a.record.hash (fun k => ∃ b ∈ front, b.record.id = .sparse k) key ∧
        key ≠ keyFront a.record.hash keyLength := by
  have hcheck : ((ofConfig sameTexts (pluginConfig "ext/plugin.js") Minifier.unchanged
      fun _ => false).toOption.any fun l => (l.link sameTexts).1.toOption.any fun output =>
        holdsFront output.sparseArtifacts) = true := by
    decide +kernel
  obtain ⟨l, hl, hcheck⟩ := exists_of_any hcheck
  obtain ⟨output, hlink, hcheck⟩ := exists_of_any hcheck
  unfold holdsFront at hcheck
  split at hcheck
  next plugin first second hartifacts =>
    have hheld : ∃ b ∈ [plugin, first], b.record.id = .sparse (keyFront second.record.hash keyLength) :=
      ⟨first, by simp, beq_iff_eq.mp hcheck⟩
    obtain ⟨key, hid, hkey, hfront⟩ := sparse_keys.2.2 l sameTexts output hlink [plugin, first] [] second hartifacts
    refine ⟨l, output, [plugin, first], [], second, hl, hlink, hartifacts, hheld, key, hid, hkey, ?_⟩
    intro heq
    obtain ⟨b, hb, hbid⟩ := hheld
    exact hfront.mp heq b hb hbid
  next => cases hcheck

end Linker

end Relink
