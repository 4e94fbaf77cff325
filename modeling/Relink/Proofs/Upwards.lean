import Mathlib.Data.Set.List
import Relink.Proofs.Normal

/-!
# Steps upwards in normal form

The steps upwards of a relative path that leave the place where it starts cannot be carried out before that place is
known. Its normal form keeps one of them: the next one leaves it, as it would leave a name. So a path stands for the
same place as its normal form only as long as it leaves the place where it starts at most once.

* `ascent` — the number of steps upwards that leave the place where a path starts.
* `foldl_step_append` — from a place, these steps leave as many of the components that lead there.
* `foldl_step_relative` — in the normal form of a relative path, they cancel out in pairs.
* `normalize_join_iff` — where a path and its normal form lead to the same place.
-/

namespace Relink.Path

/-! ## Steps upwards -/

/-- The number of the steps upwards that find no name to leave, behind so many names. -/
def ascentFrom : Nat → List Component → Nat
  | _, [] => 0
  | 0, .up :: cs => ascentFrom 0 cs + 1
  | depth + 1, .up :: cs => ascentFrom depth cs
  | depth, .name _ :: cs => ascentFrom (depth + 1) cs
  | depth, .root :: cs => ascentFrom depth cs
  | depth, .here :: cs => ascentFrom depth cs

/-- The number of the steps upwards that leave the place where a path starts. -/
def ascent (p : Path) : Nat := ascentFrom 0 p.components

/-- Behind some components, steps lead to where they lead by themselves, once those are left that the steps upwards
leave. -/
theorem foldl_step_append (cs front back : List Component) :
    cs.foldl (step true) (front ++ back) =
      cs.foldl (step true) front ++ back.drop (ascentFrom front.length cs) := by
  induction cs generalizing front back with
  | nil => rfl
  | cons c cs ih =>
    rw [List.foldl_cons, List.foldl_cons]
    cases c with
    | root => exact ih front back
    | here => exact ih front back
    | name s => exact ih (.name s :: front) back
    | up =>
      cases front with
      | cons f front => exact ih front back
      | nil =>
        -- the step upwards leaves one of the components at the back, if there is one
        have hback : step true back .up = back.drop 1 := by cases back <;> rfl
        have hdrop := ih [] (back.drop 1)
        rw [List.drop_drop, Nat.add_comm] at hdrop
        rw [List.nil_append, hback]
        exact hdrop

/-- The steps that are left of a relative path are those that are left of it from the root, in front of them a step
upwards if an odd number of them leave the place where it starts. -/
theorem foldl_step_relative (cs front : List Component) (n : Nat) :
    cs.foldl (step false) (front ++ List.replicate (n % 2) .up) =
      cs.foldl (step true) front ++ List.replicate ((n + ascentFrom front.length cs) % 2) .up := by
  induction cs generalizing front n with
  | nil => rfl
  | cons c cs ih =>
    rw [List.foldl_cons, List.foldl_cons]
    cases c with
    | root => exact ih front n
    | here => exact ih front n
    | name s => exact ih (.name s :: front) n
    | up =>
      cases front with
      | cons f front => exact ih front n
      | nil =>
        -- a step upwards is kept behind none, and leaves one that has been kept
        have hstep : step false (List.replicate (n % 2) .up) .up = List.replicate ((n + 1) % 2) .up := by
          rcases Nat.mod_two_eq_zero_or_one n with hn | hn
          · rw [hn, Nat.add_mod, hn]
            rfl
          · rw [hn, Nat.add_mod, hn]
            rfl
        have hrest := ih [] (n + 1)
        rw [Nat.add_assoc, Nat.add_comm 1] at hrest
        rw [List.nil_append, hstep]
        exact hrest

/-- Steps upwards lead nowhere from the root. -/
theorem foldl_step_up (n : Nat) : (List.replicate n Component.up).foldl (step true) [] = [] := by
  induction n with
  | zero => rfl
  | succ n ih => exact ih

theorem ascentFrom_names (depth : Nat) (ss : List String) : ascentFrom depth (ss.map .name) = 0 := by
  induction ss generalizing depth with
  | nil => rw [List.map_nil, ascentFrom]
  | cons s ss ih =>
    rw [List.map_cons, ascentFrom]
    exact ih (depth + 1)

/-- Steps upwards in front of names all leave the place where they start. -/
theorem ascentFrom_up (n : Nat) (ss : List String) :
    ascentFrom 0 (List.replicate n .up ++ ss.map .name) = n := by
  induction n with
  | zero => exact ascentFrom_names 0 ss
  | succ n ih =>
    rw [List.replicate_succ, List.cons_append, ascentFrom, ih]

/-! ## Normal forms -/

variable {d p q : Path}

/-- The front of the components of a path takes no step. -/
theorem foldl_step_components (p : Path) (absolute : Bool) (back : List Component) :
    p.components.foldl (step absolute) back = (p.steps.map componentOf).foldl (step absolute) back := by
  rw [components_eq, List.foldl_append]
  split
  · rfl
  · split <;> rfl

theorem ascent_eq (p : Path) : p.ascent = ascentFrom 0 (p.steps.map componentOf) := by
  unfold ascent
  rw [components_eq]
  split
  · rfl
  · split <;> rfl

/-- Paths have the same normal form if the same steps are left of them. -/
theorem normalize_eq_iff (h : p.isAbsolute = q.isAbsolute) :
    p.normalize = q.normalize ↔ p.normalSteps = q.normalSteps := by
  constructor
  · intro heq
    have hcomponents := congrArg components heq
    rw [components_normalize_eq, components_normalize_eq, h] at hcomponents
    exact List.append_cancel_left hcomponents
  · intro heq
    unfold normalize
    rw [heq, h]

theorem normalSteps_normalize (p : Path) : p.normalize.normalSteps = p.normalSteps := by
  have hfront : ∀ absolute back, (if p.isAbsolute then [Component.root] else []).foldl (step absolute) back = back := by
    intro absolute back
    split <;> rfl
  unfold normalSteps
  rw [isAbsolute_normalize, components_normalize_eq, List.foldl_append, hfront]
  exact (isNormal_normalSteps p).foldl_step

/-- The steps that are left of a relative path: names, in front of them one step upwards if an odd number of steps
upwards leave the place where it starts. -/
theorem normalSteps_relative (hp : p.isAbsolute = false) :
    ∃ ss : List String, (p.steps.map componentOf).foldl (step true) [] = (ss.map Component.name).reverse ∧
      p.normalSteps = List.replicate (p.ascent % 2) .up ++ ss.map .name := by
  obtain ⟨ss, hss⟩ : ((p.steps.map componentOf).foldl (step true) []).reverse ∈ Set.range (List.map Component.name) := by
    rw [Set.range_list_map]
    intro c hc
    rcases mem_foldl_step (List.mem_reverse.mp hc) with hnil | ⟨-, s, hs⟩
    · cases hnil
    · exact ⟨s, hs.symm⟩
  have hleft := foldl_step_relative (p.steps.map componentOf) [] 0
  refine ⟨ss, by rw [hss, List.reverse_reverse], ?_⟩
  unfold normalSteps
  rw [hp, foldl_step_components]
  simp only [Nat.zero_mod, List.replicate_zero, List.append_nil, List.length_nil, Nat.zero_add] at hleft
  rw [hleft, ← ascent_eq, List.reverse_append, List.reverse_replicate, hss]

/-- Of the steps upwards that leave the place where a relative path starts, its normal form keeps one if their number is
odd, and none if it is even. -/
theorem ascent_normalize (hp : p.isAbsolute = false) : p.normalize.ascent = p.ascent % 2 := by
  obtain ⟨ss, -, hleft⟩ := normalSteps_relative hp
  unfold ascent
  rw [components_normalize_eq, hp, if_neg Bool.false_ne_true, List.nil_append, hleft]
  exact ascentFrom_up _ ss

/-- From the root, a relative path and its normal form lead to the same place. -/
theorem foldl_step_normalize (hp : p.isAbsolute = false) :
    (p.normalize.steps.map componentOf).foldl (step true) [] = (p.steps.map componentOf).foldl (step true) [] := by
  obtain ⟨ss, hnames, hleft⟩ := normalSteps_relative hp
  rw [← foldl_step_components, components_normalize_eq, hp, if_neg Bool.false_ne_true, List.nil_append, hleft, hnames,
    List.foldl_append, foldl_step_up, foldl_step_of_names, List.append_nil]

/-! ## Joined paths -/

/-- The steps that are left of a relative path as seen from a directory: those that are left of it from the root, behind
those of the directory without the last ones, which its steps upwards leave. -/
theorem normalSteps_join (hd : d.isAbsolute = true) (hp : p.isAbsolute = false) :
    (d.join p).normalSteps.reverse =
      (p.steps.map componentOf).foldl (step true) [] ++ d.normalSteps.reverse.drop p.ascent := by
  have hempty : d.text ≠ "" := by
    intro hempty
    have hroot := isAbsolute_iff_root_mem.mp hd
    rw [components_of_text_eq_empty hempty] at hroot
    cases hroot
  have hback : d.normalSteps.reverse = d.components.foldl (step true) [] := by
    unfold normalSteps
    rw [hd, List.reverse_reverse]
  rw [hback, ascent_eq]
  unfold normalSteps
  rw [isAbsolute_join_of_relative d hp, hd, components_join hempty hp, List.foldl_append, List.reverse_reverse]
  exact foldl_step_append _ [] _

theorem normalSteps_join_normalize (hd : d.isAbsolute = true) (hp : p.isAbsolute = false) :
    (d.normalize.join p.normalize).normalSteps.reverse =
      (p.steps.map componentOf).foldl (step true) [] ++ d.normalSteps.reverse.drop (p.ascent % 2) := by
  rw [normalSteps_join ((isAbsolute_normalize d).trans hd) ((isAbsolute_normalize p).trans hp), foldl_step_normalize hp,
    ascent_normalize hp, normalSteps_normalize]

/-- A path and its normal form lead to the same place from a directory if and only if the path is absolute, leaves the
place where it starts at most once, or leaves the root in any case. -/
theorem normalize_join_eq_iff (hd : d.isAbsolute = true) (p : Path) :
    (d.join p).normalize = (d.normalize.join p.normalize).normalize ↔
      p.isAbsolute = true ∨ p.ascent ≤ 1 ∨ d.normalSteps.length ≤ p.ascent % 2 := by
  cases hp : p.isAbsolute with
  | true =>
    have hnormal : p.normalize.isAbsolute = true := (isAbsolute_normalize p).trans hp
    have hjoin : d.join p = p := if_pos hp
    have hjoin' : d.normalize.join p.normalize = p.normalize := if_pos hnormal
    rw [hjoin, hjoin', normalize_eq_iff (hp.trans hnormal.symm), normalSteps_normalize]
    simp
  | false =>
    have habsolute : (d.join p).isAbsolute = (d.normalize.join p.normalize).isAbsolute := by
      rw [isAbsolute_join_of_relative d hp, isAbsolute_join_of_relative _ ((isAbsolute_normalize p).trans hp),
        isAbsolute_normalize]
    rw [normalize_eq_iff habsolute, ← List.reverse_inj, normalSteps_join hd hp, normalSteps_join_normalize hd hp,
      List.append_cancel_left_eq]
    constructor
    · intro hdrop
      -- what is left of the directory has the same length
      have hlength := congrArg List.length hdrop
      rw [List.length_drop, List.length_drop, List.length_reverse] at hlength
      omega
    · rintro (habs | honce | hroot)
      · cases habs
      · rw [Nat.mod_eq_of_lt (by omega)]
      · rw [List.drop_eq_nil_of_le (by rw [List.length_reverse]; omega),
          List.drop_eq_nil_of_le (by rw [List.length_reverse]; omega)]

/-- Where a path and its normal form lead to the same place: from every directory if and only if the path is absolute or
leaves the place where it starts at most once, and from a directory near the root also when both leave the root. -/
theorem normalize_join_iff (p : Path) :
    ((∀ d : Path, d.isAbsolute = true → (d.join p).normalize = (d.normalize.join p.normalize).normalize) ↔
      p.isAbsolute = true ∨ p.ascent ≤ 1) ∧
    ∀ d : Path, d.isAbsolute = true → ((d.join p).normalize = (d.normalize.join p.normalize).normalize ↔
      p.isAbsolute = true ∨ p.ascent ≤ 1 ∨ d.normalSteps.length ≤ p.ascent % 2) := by
  refine ⟨⟨?_, ?_⟩, fun d hd => normalize_join_eq_iff hd p⟩
  · intro h
    -- two names are more than one step upwards leaves
    have hdeep := (normalize_join_eq_iff (d := ⟨"/a/b"⟩) (by decide) p).mp (h ⟨"/a/b"⟩ (by decide))
    have hlength : (normalSteps ⟨"/a/b"⟩).length = 2 := by decide
    rw [hlength] at hdeep
    rcases hdeep with hp | honce | hroot
    · exact Or.inl hp
    · exact Or.inr honce
    · omega
  · intro h d hd
    refine (normalize_join_eq_iff hd p).mpr ?_
    rcases h with hp | honce
    · exact Or.inl hp
    · exact Or.inr (Or.inl honce)

/-- A path that leaves the place where it starts once. -/
theorem normalize_join_of_oneUp :
    Path.isAbsolute ⟨"/work/./src/"⟩ = true ∧ ascent ⟨"a/../../lib//b.js"⟩ = 1 ∧
      (Path.join ⟨"/work/./src/"⟩ ⟨"a/../../lib//b.js"⟩).normalize =
        ((Path.normalize ⟨"/work/./src/"⟩).join (Path.normalize ⟨"a/../../lib//b.js"⟩)).normalize ∧
      (Path.join ⟨"/work/./src/"⟩ ⟨"a/../../lib//b.js"⟩).normalize = ⟨"/work/lib/b.js"⟩ := by
  have hascent : ascent ⟨"a/../../lib//b.js"⟩ = 1 := by decide
  refine ⟨by decide, hascent, ?_, by decide⟩
  exact ((normalize_join_iff ⟨"a/../../lib//b.js"⟩).2 ⟨"/work/./src/"⟩ (by decide)).mpr (Or.inr (Or.inl hascent.le))

/-- The normal form of a path can lead to another place: of two steps upwards nothing is left. -/
theorem exists_place_lost : ∃ d p : Path, d.isAbsolute = true ∧ p = ⟨"../.."⟩ ∧ p.normalize = ⟨""⟩ ∧
    (d.join p).normalize = ⟨"/"⟩ ∧ (d.normalize.join p.normalize).normalize = ⟨"/a/b"⟩ :=
  ⟨⟨"/a/b"⟩, ⟨"../.."⟩, by decide, rfl, by decide, by decide, by decide⟩

end Relink.Path
