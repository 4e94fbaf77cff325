import Relink.Proofs.Linking

/-!
# Computations side by side

Two computations are alike if they fail alike or give values that are related, in whatever sessions they run,
as long as these fit the tree.

* `Agree` — results that are the same failure, or values that are related.
* `Alike` — computations whose results agree.
* `Steady.alike` — computations that do not depend on what is remembered are alike if their outcomes agree.
-/

namespace Relink.Linking

variable {α β γ δ : Type}

/-- Both results are the same failure, or values that are related. -/
inductive Agree (R : α → β → Prop) : Except Failure α → Except Failure β → Prop
  | error (e : Failure) : Agree R (.error e) (.error e)
  | ok {a : α} {b : β} (h : R a b) : Agree R (.ok a) (.ok b)

theorem Agree.refl (r : Except Failure α) : Agree (fun a b => a = b ∧ r = .ok a) r r := by
  cases r with
  | error e => exact Agree.error e
  | ok a => exact Agree.ok ⟨rfl, rfl⟩

theorem Agree.mono {R R' : α → β → Prop} {r : Except Failure α} {r' : Except Failure β} (h : Agree R r r')
    (hR : ∀ a b, R a b → R' a b) : Agree R' r r' := by
  cases h with
  | error e => exact Agree.error e
  | ok hab => exact Agree.ok (hR _ _ hab)

/-- Results that agree are the same if what is looked at in related values is the same. -/
theorem Agree.map_eq {R : α → β → Prop} {r : Except Failure α} {r' : Except Failure β} (h : Agree R r r')
    {f : α → γ} {f' : β → γ} (hf : ∀ a b, R a b → f a = f' b) : r.map f = r'.map f' := by
  cases h with
  | error e => rfl
  | ok hab => exact congrArg Except.ok (hf _ _ hab)

/-- What is remembered is true of a tree. -/
abbrev FitsAll (t : FileTree) (s : Session) : Prop := Fits (fun _ => True) t s.manifests

/-- In sessions that fit, the results of two computations agree, and the sessions behind them fit. -/
def Alike (t : FileTree) (R : α → β → Prop) (x : Linking α) (y : Linking β) : Prop :=
  ∀ s s', FitsAll t s → FitsAll t s' →
    Agree R (x.runIn s).1 (y.runIn s').1 ∧ FitsAll t (x.runIn s).2 ∧ FitsAll t (y.runIn s').2

variable {t : FileTree} {R : α → β → Prop}

theorem Alike.mono {R' : α → β → Prop} {x : Linking α} {y : Linking β} (h : Alike t R x y)
    (hR : ∀ a b, R a b → R' a b) : Alike t R' x y := by
  intro s s' hs hs'
  rcases h s s' hs hs' with ⟨hagree, hfits⟩
  exact ⟨hagree.mono hR, hfits⟩

theorem Alike.pure {a : α} {b : β} (h : R a b) : Alike t R (pure a) (pure b) :=
  fun _ _ hs hs' => ⟨Agree.ok h, hs, hs'⟩

theorem Alike.lift {r : Except Failure α} {r' : Except Failure β} (h : Agree R r r') :
    Alike t R (lift r) (lift r') := by
  intro s s' hs hs'
  rw [runIn_lift, runIn_lift]
  exact ⟨h, hs, hs'⟩

/-- Sequences are alike if their first parts are, and their second parts are for related values. -/
theorem Alike.bind {S : γ → δ → Prop} {x : Linking α} {y : Linking β} {f : α → Linking γ} {g : β → Linking δ}
    (hxy : Alike t R x y) (hfg : ∀ a b, R a b → Alike t S (f a) (g b)) : Alike t S (x >>= f) (y >>= g) := by
  intro s s' hs hs'
  rcases hxy s s' hs hs' with ⟨hagree, hfits, hfits'⟩
  rw [runIn_bind, runIn_bind]
  rcases hx : x.runIn s with ⟨r, s₁⟩
  rcases hy : y.runIn s' with ⟨r', s₁'⟩
  rw [hx, hy] at hagree
  rw [hx] at hfits
  rw [hy] at hfits'
  -- both first parts have failed alike, or both second parts run with related values
  cases hagree with
  | error e => exact ⟨Agree.error e, hfits, hfits'⟩
  | ok hab => exact hfg _ _ hab s₁ s₁' hfits hfits'

/-- Computations that do not depend on what is remembered are alike if their outcomes agree. -/
theorem Steady.alike {x : Linking α} {y : Linking β} (hx : Steady (fun _ => True) t True x)
    (hy : Steady (fun _ => True) t True y) (h : Agree R x.outcome y.outcome) : Alike t R x y := by
  intro s s' hs hs'
  rcases hx s hs with ⟨hr, hfits⟩
  rcases hy s' hs' with ⟨hr', hfits'⟩
  rw [hr trivial, hr' trivial]
  exact ⟨h, hfits, hfits'⟩

theorem Steady.alike_self {x : Linking α} (hx : Steady (fun _ => True) t True x) :
    Alike t (fun a b => a = b ∧ x.outcome = .ok a) x x :=
  hx.alike hx (Agree.refl _)

/-- The value of a computation that does not depend on what is remembered is its outcome. -/
theorem Alike.with_outcome {x : Linking α} {y : Linking β} (h : Alike t R x y)
    (hy : Steady (fun _ => True) t True y) : Alike t (fun a b => R a b ∧ y.outcome = .ok b) x y := by
  intro s s' hs hs'
  rcases h s s' hs hs' with ⟨hagree, hfits⟩
  have hr' := (hy s' hs').1 trivial
  refine ⟨?_, hfits⟩
  -- the second result is the outcome in every session
  rw [hr'] at hagree ⊢
  generalize (x.runIn s).1 = r at hagree ⊢
  generalize y.outcome = r' at hagree ⊢
  cases hagree with
  | error e => exact Agree.error e
  | ok hab => exact Agree.ok ⟨hab, rfl⟩

/-- What is said is not looked at. -/
theorem Alike.forM_say (lines lines' : List LogLine) :
    Alike t (fun _ _ => True) (lines.forM say) (lines'.forM say) := by
  intro s s' hs hs'
  rcases runIn_forM_say id lines s with ⟨log, hlog⟩
  rcases runIn_forM_say id lines' s' with ⟨log', hlog'⟩
  have hrun : (lines.forM say).runIn s = (.ok (), { s with log := log }) := hlog
  have hrun' : (lines'.forM say).runIn s' = (.ok (), { s' with log := log' }) := hlog'
  rw [hrun, hrun']
  exact ⟨Agree.ok trivial, hs, hs'⟩

/-- The values that are made of lists, one by one, are related if they are made of related values. -/
theorem Alike.mapM {S : α → β → Prop} {Q : α → β → γ → δ → Prop} {f : α → Linking γ} {g : β → Linking δ}
    {as : List α} {bs : List β} (h : List.Forall₂ S as bs) (hfg : ∀ a b, S a b → Alike t (Q a b) (f a) (g b)) :
    Alike t (fun cs ds => cs.length = as.length ∧ ds.length = bs.length ∧
      List.Forall₂ (fun p q => S p.1 q.1 ∧ Q p.1 q.1 p.2 q.2) (as.zip cs) (bs.zip ds))
      (as.mapM f) (bs.mapM g) := by
  induction h with
  | nil => exact Alike.pure ⟨rfl, rfl, List.Forall₂.nil⟩
  | @cons a b as bs hab _ ih =>
    rw [List.mapM_cons, List.mapM_cons]
    refine (hfg a b hab).bind ?_
    intro c d hcd
    refine ih.bind ?_
    rintro cs ds ⟨hcs, hds, hrest⟩
    refine Alike.pure ⟨?_, ?_, List.Forall₂.cons ⟨hab, hcd⟩ hrest⟩
    · rw [List.length_cons, List.length_cons, hcs]
    · rw [List.length_cons, List.length_cons, hds]

end Relink.Linking
