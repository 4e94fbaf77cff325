import Mathlib.Data.List.Sort
import Mathlib.Data.String.Basic
import Relink.Proofs.Digraph
import Relink.Proofs.Graph

/-!
# The order of a bundle

The work list by which the modules of a bundle are found visits what the recursive search visits, in the same
order: it goes into what a module depends on, in the order of the bytes of the specifiers, before it goes on to the
next module.

* `bytes_lt_iff` — the order of texts is that of their bytes.
* `Descends` — the recursive search for the modules that some modules lead to.
* `visit_of_descends`, `exists_descends` — the work list does what this search does, which always comes to an end.
* `reachable_is_pruned_preorder` — the modules that a module leads to, and their order.
-/

namespace Relink

/-! ## The order of bytes -/

/-- The bytes of a text. -/
def bytes (text : String) : List UInt8 := text.toUTF8.data.toList

theorem bytes_eq (text : String) : bytes text = text.toList.flatMap String.utf8EncodeChar := by
  have hencode := String.toByteArray_ofList (l := text.toList)
  rw [String.ofList_toList] at hencode
  unfold bytes String.toUTF8
  rw [hencode]
  unfold List.utf8Encode
  simp

/-- The bytes of a character differ from those of a greater one before they end. -/
theorem utf8EncodeChar_append_lt {c d : Char} (h : c < d) (front back : List UInt8) :
    String.utf8EncodeChar c ++ front < String.utf8EncodeChar d ++ back := by
  have hval : c.val.toNat < d.val.toNat := h
  have hd : d.val.toNat < 1114112 := by
    rcases d.valid with h | h <;> omega
  simp only [String.utf8EncodeChar]
  generalize c.val.toNat = m at hval
  generalize d.val.toNat = n at hval hd
  have hdigits : ∀ k < 1114112, k / 64 / 64 = k / 4096 ∧ k / 4096 / 64 = k / 262144 ∧ k / 262144 % 8 = k / 262144 := by
    omega
  have hm := hdigits m (by omega)
  have hn := hdigits n hd
  have htail : ∀ k, (k % 64 + 128) % 2 ^ 8 = k % 64 + 128 := by omega
  have hhead : ∀ k, (k % 8 + 240) % 2 ^ 8 = k % 8 + 240 := by omega
  split_ifs <;>
    simp only [List.cons_append, List.nil_append, List.cons_lt_cons_iff, UInt8.lt_iff_toNat_lt, ← UInt8.toNat_inj,
      UInt8.toNat_ofNat', htail, hhead] <;>
    omega

theorem flatMap_utf8EncodeChar_lt {cs ds : List Char} (h : cs < ds) :
    cs.flatMap String.utf8EncodeChar < ds.flatMap String.utf8EncodeChar := by
  induction cs generalizing ds with
  | nil =>
    cases ds with
    | nil => cases h
    | cons d ds =>
      obtain ⟨b, bs, hd⟩ := List.exists_cons_of_ne_nil (String.utf8EncodeChar_ne_nil (c := d))
      simp [List.flatMap_cons, hd]
  | cons c cs ih =>
    cases ds with
    | nil => cases h
    | cons d ds =>
      rw [List.flatMap_cons, List.flatMap_cons]
      rcases List.cons_lt_cons_iff.mp h with hlt | ⟨rfl, hlt⟩
      · exact utf8EncodeChar_append_lt hlt _ _
      · exact List.append_left_lt (ih hlt)

/-- The order of texts is that of their bytes. -/
theorem bytes_lt_iff {s t : String} : bytes s < bytes t ↔ s < t := by
  have hlt : ∀ {s t : String}, s < t → bytes s < bytes t := by
    intro s t h
    rw [bytes_eq, bytes_eq]
    exact flatMap_utf8EncodeChar_lt (String.lt_iff_toList_lt.mp h)
  constructor
  · intro h
    rcases lt_trichotomy s t with hst | rfl | hts
    · exact hst
    · exact absurd h (List.lt_irrefl _)
    · exact absurd h (List.lt_asymm (hlt hts))
  · exact hlt

namespace Module

/-- The dependencies of a module in the order of the bytes of their specifiers. -/
structure Orders (m : Module) (order : List (String × Nat)) : Prop where
  perm : order.Perm m.dependencies.entries
  ascending : order.Pairwise fun a b => bytes a.1 < bytes b.1

/-- There is one such order of an ordered table. -/
theorem orders_iff {m : Module} (hm : m.dependencies.Ordered) {order : List (String × Nat)} :
    Orders m order ↔ order = m.dependencies.entries := by
  have hascending : m.dependencies.entries.Pairwise fun a b => bytes a.1 < bytes b.1 :=
    hm.imp fun h => bytes_lt_iff.mpr (compare_lt_iff_lt.mp h)
  constructor
  · rintro ⟨hperm, horder⟩
    refine hperm.eq_of_pairwise ?_ horder hascending
    intro a b _ _ hab hba
    exact absurd hab (List.lt_asymm hba)
  · rintro rfl
    exact ⟨.refl _, hascending⟩

end Module

namespace ModuleGraph

variable {g : ModuleGraph} {skip : Nat → Module → Bool}

/-! ## The recursive search -/

/-- There is a module at a place, and it is not skipped. -/
def Enters (g : ModuleGraph) (skip : Nat → Module → Bool) (i : Nat) : Prop :=
  ∃ m, g.modules[i]? = some m ∧ skip i m = false

/-- A search of some modules, one after the other, that starts with the modules `seen` and ends with the modules
`after`. A module that is skipped, or has been found, is passed over. Any other one is found, then what it depends on
is searched, and then the other modules. -/
inductive Descends (g : ModuleGraph) (skip : Nat → Module → Bool) :
    (seen : List Nat) → List Nat → (after : List Nat) → Prop
  | done {seen : List Nat} : Descends g skip seen [] seen
  | pass {seen after : List Nat} {i : Nat} {others : List Nat} (hpass : i ∈ seen ∨ ¬g.Enters skip i)
      (rest : Descends g skip seen others after) : Descends g skip seen (i :: others) after
  | enter {seen inner after : List Nat} {i : Nat} {others : List Nat} {m : Module} {order : List (String × Nat)}
      (hm : g.modules[i]? = some m) (hskip : skip i m = false) (hnew : i ∉ seen) (horder : m.Orders order)
      (below : Descends g skip (seen ++ [i]) (order.map Prod.snd) inner) (rest : Descends g skip inner others after) :
      Descends g skip seen (i :: others) after

theorem Descends.exists_of_append {seen after is js : List Nat} (h : Descends g skip seen (is ++ js) after) :
    ∃ mid, Descends g skip seen is mid ∧ Descends g skip mid js after := by
  induction is generalizing seen with
  | nil => exact ⟨seen, done, h⟩
  | cons i is ih =>
    cases h with
    | pass hpass rest =>
      obtain ⟨mid, his, hjs⟩ := ih rest
      exact ⟨mid, pass hpass his, hjs⟩
    | enter hm hskip hnew horder below rest =>
      obtain ⟨mid, his, hjs⟩ := ih rest
      exact ⟨mid, enter hm hskip hnew horder below his, hjs⟩

/-! ## The work list -/

/-- What the work list does not enter. -/
abbrev passesOver (g : ModuleGraph) (skip : Nat → Module → Bool) (i : Nat) : Bool := (g.modules[i]?).elim true (skip i)

theorem open_iff_enters {i : Nat} : g.digraph.Open (g.passesOver skip) i ↔ g.Enters skip i := by
  unfold Digraph.Open Enters passesOver
  constructor
  · rintro ⟨hi, hskip⟩
    have hget : g.modules[i]? = some g.modules[i] := List.getElem?_eq_getElem hi
    rw [hget] at hskip
    exact ⟨_, hget, hskip⟩
  · rintro ⟨m, hm, hskip⟩
    refine ⟨(List.getElem?_eq_some_iff.mp hm).1, ?_⟩
    rw [hm]
    exact hskip

theorem successors_of_getElem? {i : Nat} {m : Module} (hm : g.modules[i]? = some m) :
    g.digraph.successors i = m.dependencies.entries.map Prod.snd := by
  unfold digraph successors
  simp only [hm]
  rfl

section

variable (hg : ∀ m ∈ g.modules, m.dependencies.Ordered)

include hg

/-- The work list goes through the first modules as the recursive search does, and then on to the others. -/
theorem visit_of_descends {seen pending after : List Nat} (h : Descends g skip seen pending after) (others : List Nat) :
    g.digraph.visit (g.passesOver skip) seen.reverse (pending ++ others) =
      g.digraph.visit (g.passesOver skip) after.reverse others := by
  induction h generalizing others with
  | done => rfl
  | @pass seen after i pending hpass _ ih =>
    have hclosed : ¬(i < g.digraph.size ∧ seen.reverse.contains i = false ∧ g.passesOver skip i = false) := by
      rintro ⟨hi, hnew, hopen⟩
      rcases hpass with hseen | hskip
      · simp [hseen] at hnew
      · exact hskip (open_iff_enters.mp ⟨hi, hopen⟩)
    rw [List.cons_append, Digraph.visit_pass hclosed, ih]
  | @enter seen inner after i pending m order hm hskip hnew horder _ _ ihbelow ihrest =>
    obtain ⟨hi, hopen⟩ := open_iff_enters.mpr ⟨m, hm, hskip⟩
    have hopen' : i < g.digraph.size ∧ seen.reverse.contains i = false ∧ g.passesOver skip i = false :=
      ⟨hi, by simpa using hnew, hopen⟩
    -- the dependencies of the module come before what was pending
    have hbelow := ihbelow (pending ++ others)
    rw [List.reverse_append, (Module.orders_iff (hg m (List.mem_of_getElem? hm))).mp horder,
      ← successors_of_getElem? hm] at hbelow
    rw [List.cons_append, Digraph.visit_enter hopen']
    exact hbelow.trans (ihrest others)

/-- The recursive search comes to an end. -/
theorem exists_descends (seen pending : List Nat) : ∃ after, Descends g skip seen.reverse pending after := by
  induction seen, pending using Digraph.visit_induction g.digraph (g.passesOver skip) with
  | done seen => exact ⟨_, .done⟩
  | enter seen i others hopen ih =>
    obtain ⟨m, hm, hskip⟩ := open_iff_enters.mp ⟨hopen.1, hopen.2.2⟩
    obtain ⟨after, hafter⟩ := ih
    rw [List.reverse_cons, successors_of_getElem? hm] at hafter
    obtain ⟨inner, hbelow, hrest⟩ := hafter.exists_of_append
    have horder := (Module.orders_iff (hg m (List.mem_of_getElem? hm))).mpr rfl
    exact ⟨after, .enter hm hskip (by simpa using hopen.2.1) horder hbelow hrest⟩
  | pass seen i others hclosed ih =>
    obtain ⟨after, hafter⟩ := ih
    refine ⟨after, .pass ?_ hafter⟩
    by_contra hpass
    simp only [not_or, not_not, List.mem_reverse] at hpass
    obtain ⟨hi, hopen⟩ := open_iff_enters.mpr hpass.2
    exact hclosed ⟨hi, by simpa using hpass.1, hopen⟩

/-- The modules that a module leads to are found in the order of the recursive search, and in no other order. -/
theorem descends_iff {root : Nat} {found : List Nat} : Descends g skip [] [root] found ↔ found = g.reachable skip root := by
  have hfound : ∀ {found}, Descends g skip [] [root] found → found = g.reachable skip root := by
    intro found h
    have hvisit := visit_of_descends hg h []
    rw [Digraph.visit_nil] at hvisit
    simpa [reachable, Digraph.preorder] using hvisit.symm
  constructor
  · exact hfound
  · rintro rfl
    obtain ⟨after, hafter⟩ : ∃ after, Descends g skip [] [root] after := exists_descends hg [] [root]
    exact hfound hafter ▸ hafter

/-- The modules that a module leads to are found once each: those to which a way leads over modules that are not
skipped, in the order of the recursive search. -/
theorem reachable_is_pruned_preorder (skip : Nat → Module → Bool) (root : Nat) :
    (g.reachable skip root).Nodup ∧
      (∀ i, i ∈ g.reachable skip root ↔ g.digraph.Reaches (g.Enters skip) root i) ∧
      (¬g.Enters skip root → g.reachable skip root = []) ∧
      ∀ found, Descends g skip [] [root] found ↔ found = g.reachable skip root := by
  have hreaches : ∀ i, i ∈ g.reachable skip root ↔ g.digraph.Reaches (g.Enters skip) root i := by
    intro i
    have hmem : i ∈ g.reachable skip root ↔ _ := Digraph.mem_preorder
    constructor
    · intro hi
      exact (hmem.mp hi).mono fun _ => open_iff_enters.mp
    · intro hi
      exact hmem.mpr (hi.mono fun _ => open_iff_enters.mpr)
  refine ⟨Digraph.nodup_preorder root, hreaches, ?_, fun found => descends_iff hg⟩
  intro hroot
  refine List.eq_nil_iff_forall_not_mem.mpr fun i hi => ?_
  exact hroot ((hreaches i).mp hi).enters_root

end

/-- In a graph that is wired, the dependencies of a module are in the order of what it requires. -/
theorem ordered_of_mem_wire (hpaths : ∀ m ∈ g.modules, m.dependencyPaths.Ordered) {m : Module}
    (hm : m ∈ g.wire.modules) : m.dependencies.Ordered := by
  obtain ⟨unwired, hunwired, rfl⟩ := List.mem_map.mp hm
  exact Table.ordered_filterMap (hpaths unwired hunwired) g.lookup

/-- A module with a file that requires some files. -/
def requiring (file : String) (required : List (String × String)) : Module :=
  let paths := Table.ofList (required.map fun r => (r.1, Path.mk r.2))
  { (default : Module) with file := Path.mk file, dependencyPaths := paths }

/-- A graph with circles, a module that is reached in several ways, one that requires itself, and specifiers of which
the bytes are in another order than their units of two bytes. -/
def crossing : ModuleGraph :=
  ⟨[requiring "/main.js" [("./\uff41", "/a.js"), ("./😀", "/b.js"), ("./z", "/c.js")],
    requiring "/a.js" [("./b", "/b.js"), ("./c", "/c.js"), ("./d", "/d.js")],
    requiring "/b.js" [("./b", "/b.js"), ("./main", "/main.js")],
    requiring "/c.js" [("./d", "/d.js"), ("./main", "/main.js")],
    requiring "/d.js" [("./e", "/e.js")],
    requiring "/e.js" []]⟩

/-- The modules of such a graph, without one of them. -/
theorem reachable_of_crossing : (∀ m ∈ crossing.wire.modules, m.dependencies.Ordered) ∧
    crossing.wire.reachable (fun i _ => i == 4) 0 = [0, 3, 1, 2] ∧
      Descends crossing.wire (fun i _ => i == 4) [] [0] [0, 3, 1, 2] ∧
      ¬crossing.wire.digraph.Reaches (crossing.wire.Enters fun i _ => i == 4) 0 5 := by
  have hordered : ∀ m ∈ crossing.wire.modules, m.dependencies.Ordered := by
    intro m hm
    refine ordered_of_mem_wire (fun m hm => ?_) hm
    simp only [crossing, List.mem_cons, List.not_mem_nil, or_false] at hm
    rcases hm with rfl | rfl | rfl | rfl | rfl | rfl <;> exact Table.ordered_ofList _
  have hfound : crossing.wire.reachable (fun i _ => i == 4) 0 = [0, 3, 1, 2] := by decide +kernel
  obtain ⟨-, hreaches, -, hdescends⟩ := reachable_is_pruned_preorder hordered (fun i _ => i == 4) 0
  refine ⟨hordered, hfound, (hdescends _).mpr hfound.symm, ?_⟩
  rw [← hreaches, hfound]
  decide

end ModuleGraph

end Relink
