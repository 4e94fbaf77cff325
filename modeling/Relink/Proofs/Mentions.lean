import Relink.Proofs.Conversion

/-!
# The names in a program

* `Kind.names` — the names of bindings that a node writes.
* `Program.Mentions` — a name is declared or read somewhere in a program.
* `mentions_of_ownExports` — a module mentions the bindings that it exports.
-/

namespace Relink.Script

/-- The names of bindings that a node of a kind writes: those that it declares, and those that it reads. The names of
properties and labels are none, nor are those that another module has for what is exported from there. -/
def Kind.names : Kind → List String
  | .identifier x | .binding x | .shorthandDefault x => [x]
  | .function name | .class name => name.toList
  | .importDeclaration bindings _ => bindings.map ImportBinding.local_
  | .exportNamed bindings none => bindings.map ExportBinding.local_
  | _ => []

/-- The names of a node are written on one line. -/
theorem Kind.OneLine.not_mem_names {k : Kind} (h : k.OneLine) : ∀ x ∈ k.names, '\n' ∉ x.toList := by
  intro x hx
  unfold names at hx
  split at hx
  next y =>
    rw [List.mem_singleton.mp hx]
    exact h
  next y =>
    rw [List.mem_singleton.mp hx]
    exact h
  next y =>
    rw [List.mem_singleton.mp hx]
    exact h
  next name =>
    obtain rfl : name = some x := by simpa using hx
    exact h
  next name =>
    obtain rfl : name = some x := by simpa using hx
    exact h
  next =>
    obtain ⟨b, hb, rfl⟩ := List.mem_map.mp hx
    exact h b hb
  next =>
    obtain ⟨b, hb, rfl⟩ := List.mem_map.mp hx
    exact h b hb
  next => cases hx

namespace Node

/-- A name is declared or read somewhere in a tree. -/
def Mentions (n : Node) (x : String) : Prop := ∃ m ∈ n.preorder, x ∈ m.kind.names

instance (n : Node) (x : String) : Decidable (n.Mentions x) :=
  inferInstanceAs (Decidable (∃ m ∈ n.preorder, x ∈ m.kind.names))

variable {n p : Node} {x : String}

theorem mentions_of_mem_names (h : x ∈ n.kind.names) : n.Mentions x := ⟨n, self_mem_preorder n, h⟩

theorem Mentions.of_part (h : p.Mentions x) (hp : p ∈ n.parts) : n.Mentions x := by
  obtain ⟨m, hm, hx⟩ := h
  have hpart := mem_preorder_of_mem_parts (self_mem_preorder n) hp
  exact ⟨m, preorder_subset.1 n p hpart hm, hx⟩

/-- The names in a tree of nodes of one line are written on one line. -/
theorem Mentions.not_mem (h : n.Mentions x) (hlines : ∀ m ∈ n.preorder, m.kind.OneLine) : '\n' ∉ x.toList := by
  obtain ⟨m, hm, hx⟩ := h
  exact (hlines m hm).not_mem_names x hx

end Node

/-- A name is declared or read somewhere in a program. -/
def Program.Mentions (program : Program) (x : String) : Prop := ∃ n ∈ program.body, n.Mentions x

instance (program : Program) (x : String) : Decidable (program.Mentions x) :=
  inferInstanceAs (Decidable (∃ n ∈ program.body, n.Mentions x))

namespace CommonJs

theorem exists_of_mapM {α β : Type} {f : α → Option β} {as : List α} {bs : List β} (h : as.mapM f = some bs) {b : β}
    (hb : b ∈ bs) : ∃ a ∈ as, f a = some b := by
  induction as generalizing bs with
  | nil =>
    cases h
    cases hb
  | cons a as ih =>
    rw [List.mapM_cons] at h
    cases ha : f a with
    | none => simp [ha] at h
    | some b' =>
      cases has : as.mapM f with
      | none => simp [ha, has] at h
      | some bs' =>
        obtain rfl : b' :: bs' = bs := by simpa [ha, has] using h
        rcases List.mem_cons.mp hb with rfl | hb
        · exact ⟨a, List.mem_cons_self, ha⟩
        · obtain ⟨a', ha', hb⟩ := ih has hb
          exact ⟨a', List.mem_cons_of_mem _ ha', hb⟩

theorem mentions_of_declaredName {d : Node} {x : String} (h : declaredName? d = some x) : d.Mentions x := by
  unfold declaredName? at h
  split at h
  next s ps rest hparts =>
    cases h
    have hbinding : (Node.mk (.binding x) s ps).Mentions x := Node.mentions_of_mem_names (List.mem_singleton.mpr rfl)
    exact hbinding.of_part (by rw [hparts]; exact List.mem_cons_self)
  next => cases h

/-- A declaration mentions the names that it declares. -/
theorem mentions_of_declaredNames {n : Node} {names : List String} (h : declaredNames n = .ok names) :
    ∀ x ∈ names, n.Mentions x := by
  intro x hx
  unfold declaredNames at h
  split at h
  next variety s ds =>
    split at h
    next xs hxs =>
      cases h
      obtain ⟨d, hd, hdx⟩ := exists_of_mapM hxs hx
      exact (mentions_of_declaredName hdx).of_part hd
    next => cases h
  next =>
    cases h
    exact Node.mentions_of_mem_names hx
  next =>
    cases h
    exact Node.mentions_of_mem_names hx
  next =>
    cases h
    cases hx

/-- A statement mentions the bindings that it exports. -/
theorem mentions_of_ownExports {n : Node} : ∀ e ∈ ownExports n, n.Mentions e.2 := by
  intro e he
  unfold ownExports at he
  split at he
  next bs m span declaration ps =>
    split at he
    next names hnames =>
      obtain ⟨x, hx, rfl⟩ := List.mem_map.mp he
      exact (mentions_of_declaredNames hnames x hx).of_part List.mem_cons_self
    next => cases he
  next bs span =>
    obtain ⟨b, hb, rfl⟩ := List.mem_map.mp he
    exact Node.mentions_of_mem_names (List.mem_map_of_mem hb)
  next span value ps =>
    have hvalue : ∀ x, x ∈ value.kind.names → (Node.mk .exportDefault span (value :: ps)).Mentions x :=
      fun x hx => (Node.mentions_of_mem_names hx).of_part List.mem_cons_self
    split at he
    next x hkind =>
      rw [List.mem_singleton.mp he]
      exact hvalue x (by rw [hkind]; exact List.mem_singleton.mpr rfl)
    next x hkind =>
      rw [List.mem_singleton.mp he]
      exact hvalue x (by rw [hkind]; exact List.mem_singleton.mpr rfl)
    next => cases he
  next => cases he

end CommonJs

end Relink.Script
