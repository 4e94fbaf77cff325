import Relink.Proofs.Failures
import Relink.Proofs.Kept

/-!
# The bundles of a link fit together

The artifacts of a link are of different files and have different ids, in a dense bundle the ids are the places,
and the entry of each bundle has an artifact. So what the linker checks for its own sake always holds.

* `Failure.Internal` — the failures of these checks.
* `dense_id` — the id of a module in a dense bundle is its place.
* `assemble_eq_error` — a bundle of a link is only not assembled if the map of a module cannot be read.
* `link_consistent` — the artifacts, ids and entries of a link, and no failure of a check.
-/

namespace Relink

open Linking Relink.Partition

/-- The failures of the checks of what the linker itself has made. -/
inductive Failure.Internal : Failure → Prop
  | missingCode (file : Path) : Internal (.cacheFormat (.missingCode file))
  | missingId (basePath : String) : Internal (.configuration (.missingId basePath))
  | unlinkedEntry : Internal (.configuration .unlinkedEntry)
  | unorderedId (basePath : String) (id : ModuleId) : Internal (.configuration (.unorderedId basePath id))

theorem Failure.OfLink.not_internal {e : Failure} (h : e.OfLink) : ¬e.Internal := by
  intro hinternal
  cases hinternal with
  | missingCode file =>
    cases h with
    | module h => cases h
  | missingId basePath =>
    cases h with
    | module h => cases h
  | unlinkedEntry =>
    cases h with
    | module h => cases h
  | unorderedId basePath id =>
    cases h with
    | module h => cases h

/-! ## Ids and places -/

variable {g : ModuleGraph} {independent : Bool} {entries : List Path} {parts : List Partition}

/-- Only the first bundle can be dense, so the ids of a dense bundle are its places. -/
theorem dense_id (h : partition g independent entries = .ok parts) {p : Partition} (hp : p ∈ parts)
    (hdense : p.assembly = .dense) {place i : Nat} (hi : p.modules[place]? = some i) :
    (assignIds g parts).get? i = some (.dense place) := by
  apply get?_assignIds_of_mem h
  obtain ⟨first, plugins, entry, rest, -, -, rfl, hrest⟩ := partition_cases h
  have hmain : p = main g independent plugins entry := by
    rcases List.mem_cons.mp hp with rfl | hp
    · rfl
    · rw [sparse_of_plugins hrest p hp] at hdense
      cases hdense
  rw [← hmain, assignFrom, hdense]
  refine List.mem_append_left _ (List.mem_map.mpr ⟨(i, place), ?_, rfl⟩)
  exact List.mk_mem_zipIdx_iff_getElem?.mpr hi

/-! ## Assembly -/

namespace Bundle

variable {b : Bundle} {minified : Bool}

/-- In a dense bundle, the ids of the artifacts are their places. -/
def InOrder (b : Bundle) : Prop :=
  b.assembly = .dense → ∀ (place : Nat) (a : Artifact), b.artifacts[place]? = some a → a.record.id = .dense place

theorem addModule_eq_error {d : Draft} {a : Artifact} {place : Nat}
    (hid : b.assembly = .dense → a.record.id = .dense place) {e : Failure}
    (h : b.addModule minified d a place = .error e) : e = .configuration .badMap := by
  have hcheck : (b.assembly == .dense && a.record.id != .dense place) = false := by
    by_cases hdense : b.assembly = .dense
    · simp [hid hdense]
    · simp [hdense]
  unfold addModule at h
  rw [hcheck] at h
  cases hmap : addMap d.map a d.lines with
  | ok map =>
    rw [hmap] at h
    cases h
  | error e' =>
    rw [hmap] at h
    cases h
    -- only the text of a map can be wrong
    unfold addMap at hmap
    split at hmap
    next stitcher text _ _ =>
      unfold SourceMap.Stitcher.addText at hmap
      split at hmap
      · cases hmap
      · cases hmap
        rfl
    next => cases hmap

/-- A bundle in order is only not assembled if the map of a module cannot be read. -/
theorem assemble_eq_error (horder : b.InOrder) {e : Failure} (h : b.assemble minified = .error e) :
    e = .configuration .badMap := by
  have hmodules : ∀ (as : List (Artifact × Nat)) (d : Draft),
      (∀ a ∈ as, b.assembly = .dense → a.1.record.id = .dense a.2) →
      as.foldlM (fun d a => b.addModule minified d a.1 a.2) d = .error e → e = .configuration .badMap := by
    intro as
    induction as with
    | nil =>
      rintro d - ⟨⟩
    | cons a as ih =>
      intro d hids hd
      rw [List.foldlM_cons] at hd
      cases hadd : b.addModule minified d a.1 a.2 with
      | error e' =>
        rw [hadd] at hd
        cases hd
        exact addModule_eq_error (hids a List.mem_cons_self) hadd
      | ok d' =>
        rw [hadd] at hd
        exact ih d' (fun a' ha' => hids a' (List.mem_cons_of_mem _ ha')) hd
  have hids : ∀ a ∈ b.artifacts.zipIdx, b.assembly = .dense → a.1.record.id = .dense a.2 :=
    fun a ha hdense => horder hdense a.2 a.1 (List.mem_zipIdx_iff_getElem?.mp ha)
  unfold assemble at h
  simp only at h
  generalize hstart :
    (⟨b.frontText, newlines b.frontText.toList, if minified then none else some (.start none)⟩ : Draft) = start at h
  cases hfold : b.artifacts.zipIdx.foldlM (fun d a => b.addModule minified d a.1 a.2) start with
  | error e' =>
    rw [hfold] at h
    cases h
    exact hmodules _ _ hids hfold
  | ok d =>
    rw [hfold] at h
    cases h

end Bundle

/-! ## Links -/

/-- The artifacts of a link are of different files and have different ids. In its bundles, the ids of a dense
bundle are the places, the entry has an artifact, and no artifact is found out of order. -/
structure LinkOutput.Consistent (output : LinkOutput) : Prop where
  files : output.artifacts.Pairwise fun a b => a.record.file.components ≠ b.record.file.components
  ids : output.artifacts.Pairwise fun a b => a.record.id ≠ b.record.id
  inOrder : ∀ b ∈ output.bundles, b.InOrder
  entry : ∀ b ∈ output.bundles, ∃ a ∈ output.artifacts, b.entry = a.record
  assembled : ∀ b ∈ output.bundles, ∀ minified basePath id,
    b.assemble minified ≠ .error (.configuration (.unorderedId basePath id))

namespace Linker

variable {l : Linker} {t : FileTree}

theorem Linked.inOrder {made : Nat → Artifact} {output : LinkOutput} {kept : List Artifact}
    (h : Linked l g parts made output kept) {b : Bundle} (hb : b ∈ output.bundles) : b.InOrder := by
  obtain ⟨p, hp, hfits⟩ := exists_of_forall₂ h.bundles.flip hb
  intro hdense place a ha
  rw [hfits.bundle] at hdense ha
  simp only [List.getElem?_map, Option.map_eq_some_iff] at ha
  obtain ⟨i, hi, rfl⟩ := ha
  have hmem : i ∈ modulesOf parts := mem_modulesOf.mpr ⟨p, hp, List.mem_of_getElem? hi⟩
  obtain ⟨m, -, hid, -⟩ := h.record hmem
  rw [dense_id h.partitioned hp hdense hi] at hid
  exact (Option.some.inj hid).symm

/-- What differs for the artifacts of different modules differs for any two artifacts of the bundles. -/
theorem Linked.pairwise {made : Nat → Artifact} {output : LinkOutput} {kept : List Artifact}
    (h : Linked l g parts made output kept) {R : Artifact → Artifact → Prop}
    (hR : ∀ i ∈ modulesOf parts, ∀ j ∈ modulesOf parts, i ≠ j → R (made i) (made j)) :
    output.artifacts.Pairwise R := by
  unfold LinkOutput.artifacts
  rw [h.artifacts, List.pairwise_map]
  exact (nodup_partition h.partitioned).imp_of_mem fun hi hj hij => hR _ hi _ hj hij

theorem Linked.consistent {made : Nat → Artifact} {output : LinkOutput} {kept : List Artifact}
    (h : Linked l g parts made output kept) (hdistinct : g.Distinct) : output.Consistent where
  files := by
    refine h.pairwise fun i hi j hj hij heq => ?_
    exact hij (h.eq_of_components hdistinct hi hj heq)
  ids := by
    refine h.pairwise fun i hi j hj hij heq => ?_
    obtain ⟨-, -, hid, -⟩ := h.record hi
    obtain ⟨-, -, hid', -⟩ := h.record hj
    rw [heq] at hid
    exact hij (assignIds_injective h.partitioned hid hid')
  inOrder := fun b hb => h.inOrder hb
  entry := by
    intro b hb
    obtain ⟨p, -, hfits⟩ := exists_of_forall₂ h.bundles.flip hb
    refine ⟨made p.entry, ?_, by rw [hfits.bundle]⟩
    unfold LinkOutput.artifacts
    rw [h.artifacts]
    exact List.mem_map_of_mem hfits.entry_mem
  assembled := by
    intro b hb minified basePath id herror
    cases Bundle.assemble_eq_error (h.inOrder hb) herror

/-- The artifacts, ids and entries of every link that succeeds fit together, and no link fails at a check of what
the linker itself has made: such a failure could only be one of the minifier. -/
theorem link_consistent (l : Linker) (t : FileTree) :
    (∀ output, (l.link t).1 = .ok output → output.Consistent) ∧
      ∀ e, (l.link t).1 = .error e → e.Internal → ∃ file text, l.minifier file text = .error e := by
  constructor
  · intro output h
    obtain ⟨g, s, parts, made, kept, hgraph, hlinked, -⟩ := link_cases h
    exact hlinked.consistent (discovered_of_runIn hgraph).distinct
  · intro e h hinternal
    rcases link_eq_error h with hlink | hminifier
    · exact absurd hinternal hlink.not_internal
    · exact hminifier

/-- A link with a dense bundle and that of a plugin, which fit together. -/
theorem link_consistent_of_ownDirectory : ∃ (l : Linker) (output : LinkOutput),
    ofConfig ownDirectory (pluginConfig "ext/plugin.js") Minifier.unchanged (fun _ => false) = .ok l ∧
      (l.link ownDirectory).1 = .ok output ∧ output.bundles.map Bundle.assembly = [.dense, .sparse] ∧
      output.Consistent := by
  have hcheck : ((ofConfig ownDirectory (pluginConfig "ext/plugin.js") Minifier.unchanged
      fun _ => false).toOption.any fun l => (l.link ownDirectory).1.toOption.any fun output =>
        output.bundles.map Bundle.assembly == [.dense, .sparse]) = true := by
    decide +kernel
  obtain ⟨l, hl, hcheck⟩ := exists_of_any hcheck
  obtain ⟨output, hlink, hassembly⟩ := exists_of_any hcheck
  exact ⟨l, output, hl, hlink, beq_iff_eq.mp hassembly, (link_consistent l ownDirectory).1 output hlink⟩

end Linker

end Relink
