import Relink.Proofs.FileTree
import Relink.Session

/-!
# Computations of a linker

What a computation gives can depend on the manifests that are remembered. They are only relied on where
they fit a tree: there they say what reading the tree would say.

* `Meets` — a condition on the result of a computation in a session that fits.
* `Steady` — in a session that fits, a computation gives what it gives when nothing is remembered.
* `outcome_bind` — the outcomes of steady computations are composed like the computations.
-/

namespace Relink.Linking

variable {α β : Type}

/-! ## Runs -/

@[simp] theorem runIn_pure (a : α) (s : Session) : (pure a : Linking α).runIn s = (.ok a, s) := rfl

@[simp] theorem runIn_fail (e : Failure) (s : Session) : (fail e : Linking α).runIn s = (.error e, s) := rfl

@[simp] theorem runIn_say (line : LogLine) (s : Session) :
    (say line).runIn s = (.ok (), { s with log := line :: s.log }) := rfl

@[simp] theorem runIn_lift (r : Except Failure α) (s : Session) : (lift r).runIn s = (r, s) := by
  cases r <;> rfl

theorem runIn_bind (x : Linking α) (f : α → Linking β) (s : Session) :
    (x >>= f).runIn s = match x.runIn s with
      | (.ok a, s') => (f a).runIn s'
      | (.error e, s') => (.error e, s') := by
  unfold runIn
  simp only [ExceptT.run_bind, StateT.run_bind]
  rcases (StateT.run (ExceptT.run x) s) with ⟨r, s'⟩
  cases r <;> rfl

/-- A sequence fails as its first part does. -/
theorem error_of_runIn_bind {x : Linking α} {f : α → Linking β} {s : Session} {e : Failure}
    (h : (x.runIn s).1 = .error e) : ((x >>= f).runIn s).1 = .error e := by
  rw [runIn_bind]
  rcases hx : x.runIn s with ⟨r, s'⟩
  rw [hx] at h
  cases h
  rfl

/-- To say something never fails, and only adds to the log. -/
theorem runIn_forM_say (f : α → LogLine) (as : List α) (s : Session) :
    ∃ log, (as.forM fun a => say (f a)).runIn s = (.ok (), { s with log := log }) := by
  induction as generalizing s with
  | nil => exact ⟨s.log, rfl⟩
  | cons a as ih =>
    obtain ⟨log, hlog⟩ := ih { s with log := f a :: s.log }
    refine ⟨log, ?_⟩
    show (say (f a) >>= fun _ => as.forM fun a => say (f a)).runIn s = _
    rw [runIn_bind, runIn_say]
    exact hlog

/-- A value that a check finds in a result. -/
theorem exists_of_any {r : Except Failure α} {p : α → Bool} (h : r.toOption.any p = true) :
    ∃ a, r = .ok a ∧ p a = true := by
  cases r with
  | error e => simp [Except.toOption] at h
  | ok a => exact ⟨a, rfl, by simpa [Except.toOption] using h⟩

/-- A sequence that succeeds has two parts that succeed. -/
theorem exists_of_runIn_bind {x : Linking α} {f : α → Linking β} {s s' : Session} {b : β}
    (h : (x >>= f).runIn s = (.ok b, s')) :
    ∃ a s₁, x.runIn s = (.ok a, s₁) ∧ (f a).runIn s₁ = (.ok b, s') := by
  rw [runIn_bind] at h
  rcases hx : x.runIn s with ⟨r, s₁⟩
  rw [hx] at h
  cases r with
  | error e => cases h
  | ok a => exact ⟨a, s₁, rfl, h⟩

/-! ## Conditions on results -/

/-- Of two lists whose values match one by one, each value of the first has a match in the second. -/
theorem exists_of_forall₂ {R : α → β → Prop} {as : List α} {bs : List β} (h : List.Forall₂ R as bs) {a : α}
    (ha : a ∈ as) : ∃ b ∈ bs, R a b := by
  induction h with
  | nil => simp at ha
  | cons hab _ ih =>
    rcases List.mem_cons.mp ha with rfl | ha
    · exact ⟨_, List.mem_cons_self, hab⟩
    · rcases ih ha with ⟨b, hb, hR⟩
      exact ⟨b, List.mem_cons_of_mem _ hb, hR⟩

/-- The remembered manifests are those of a tree, for the trusted directories. -/
def Fits (trusted : Path → Prop) (t : FileTree) (manifests : Table Path Manifest) : Prop :=
  ∀ directory m, trusted directory → manifests.get? directory = some m → t.manifestAt? directory = some m

theorem fits_empty (trusted : Path → Prop) (t : FileTree) : Fits trusted t Table.empty := by
  intro directory m _ h
  simp at h

/-- Without trusted directories, everything fits. -/
theorem fits_of_forall_not {trusted : Path → Prop} (h : ∀ d, ¬trusted d) (t : FileTree)
    (manifests : Table Path Manifest) : Fits trusted t manifests :=
  fun directory _ hd _ => absurd hd (h directory)

/-- In a session that fits, the result of a computation meets a condition, and the session behind it
fits. -/
def Meets (trusted : Path → Prop) (t : FileTree) (x : Linking α) (Q : Except Failure α → Prop) : Prop :=
  ∀ s, Fits trusted t s.manifests → Q (x.runIn s).1 ∧ Fits trusted t (x.runIn s).2.manifests

/-- A condition on the values that are returned. -/
def Returns (P : α → Prop) (r : Except Failure α) : Prop := ∀ a, r = .ok a → P a

section Meets

variable {trusted : Path → Prop} {t : FileTree}

theorem Meets.mono {x : Linking α} {Q Q' : Except Failure α → Prop} (h : Meets trusted t x Q)
    (hQ : ∀ r, Q r → Q' r) : Meets trusted t x Q' :=
  fun s hs => ⟨hQ _ (h s hs).1, (h s hs).2⟩

theorem Meets.pure {a : α} {Q : Except Failure α → Prop} (h : Q (.ok a)) : Meets trusted t (pure a) Q :=
  fun _ hs => ⟨h, hs⟩

theorem Meets.fail {e : Failure} {Q : Except Failure α → Prop} (h : Q (.error e)) :
    Meets trusted t (fail e) Q :=
  fun _ hs => ⟨h, hs⟩

theorem Meets.say {line : LogLine} {Q : Except Failure Unit → Prop} (h : Q (.ok ())) :
    Meets trusted t (say line) Q :=
  fun _ hs => ⟨h, hs⟩

theorem Meets.lift {r : Except Failure α} {Q : Except Failure α → Prop} (h : Q r) :
    Meets trusted t (lift r) Q := by
  intro s hs
  rw [runIn_lift]
  exact ⟨h, hs⟩

/-- The second part of a sequence runs with a value that the first part returns. -/
theorem Meets.bind {x : Linking α} {f : α → Linking β} {P : Except Failure α → Prop}
    {Q : Except Failure β → Prop} (hx : Meets trusted t x P)
    (hf : ∀ a, P (.ok a) → Meets trusted t (f a) Q) (herror : ∀ e, P (.error e) → Q (.error e)) :
    Meets trusted t (x >>= f) Q := by
  intro s hs
  rcases hx s hs with ⟨hP, hfits⟩
  rw [runIn_bind]
  rcases hrun : x.runIn s with ⟨r, s'⟩
  rw [hrun] at hP hfits
  cases r with
  | error e => exact ⟨herror e hP, hfits⟩
  | ok a => exact hf a hP s' hfits

/-- Two conditions are met at once. -/
theorem Meets.and {x : Linking α} {Q Q' : Except Failure α → Prop} (h : Meets trusted t x Q)
    (h' : Meets trusted t x Q') : Meets trusted t x fun r => Q r ∧ Q' r :=
  fun s hs => ⟨⟨(h s hs).1, (h' s hs).1⟩, (h s hs).2⟩

theorem Meets.returns_bind {x : Linking α} {f : α → Linking β} {P : α → Prop} {Q : β → Prop}
    (hx : Meets trusted t x (Returns P)) (hf : ∀ a, P a → Meets trusted t (f a) (Returns Q)) :
    Meets trusted t (x >>= f) (Returns Q) := by
  refine hx.bind ?_ ?_
  · intro a ha
    exact hf a (ha a rfl)
  · intro e _ b hb
    cases hb

theorem Meets.returns_pure {a : α} {P : α → Prop} (h : P a) :
    Meets trusted t (Pure.pure a) (Returns P) := by
  refine Meets.pure ?_
  rintro b ⟨⟩
  exact h

theorem Meets.returns_fail {e : Failure} {P : α → Prop} :
    Meets trusted t (Linking.fail e) (Returns P) := by
  refine Meets.fail ?_
  intro a ha
  cases ha

/-- What holds of a part of a list and is kept by the step for the next value holds of the list. -/
theorem Meets.foldlM {f : β → α → Linking β} {I : List α → β → Prop} {front as : List α} {b : β}
    (hb : I front b)
    (hf : ∀ front b a, I front b → Meets trusted t (f b a) (Returns (I (front ++ [a])))) :
    Meets trusted t (as.foldlM f b) (Returns (I (front ++ as))) := by
  induction as generalizing front b with
  | nil =>
    rw [List.append_nil]
    exact Meets.returns_pure hb
  | cons a as ih =>
    rw [List.foldlM_cons, List.append_cons]
    -- the step for the first value puts it behind those that are done
    refine (hf front b a hb).returns_bind ?_
    intro b' hb'
    exact ih hb'

/-- What holds of every value of a list holds of the values that are made of them, one by one. -/
theorem Meets.mapM {f : α → Linking β} {P : α → β → Prop} {as : List α}
    (hf : ∀ a ∈ as, Meets trusted t (f a) (Returns (P a))) :
    Meets trusted t (as.mapM f) (Returns (List.Forall₂ P as)) := by
  induction as with
  | nil => exact Meets.returns_pure List.Forall₂.nil
  | cons a as ih =>
    rw [List.mapM_cons]
    refine (hf a List.mem_cons_self).returns_bind ?_
    intro b hb
    refine (ih fun a ha => hf a (List.mem_cons_of_mem _ ha)).returns_bind ?_
    intro bs hbs
    exact Meets.returns_pure (List.Forall₂.cons hb hbs)

end Meets

/-! ## Steady computations -/

/-- The outcome of a computation when nothing is remembered. -/
def outcome (x : Linking α) : Except Failure α := (x.runIn ⟨Table.empty, []⟩).1

/-- What holds of the results in all sessions that fit holds of the outcome. -/
theorem Meets.outcome {trusted : Path → Prop} {t : FileTree} {x : Linking α} {Q : Except Failure α → Prop}
    (h : Meets trusted t x Q) : Q x.outcome :=
  (h ⟨Table.empty, []⟩ (fits_empty trusted t)).1

@[simp] theorem outcome_pure (a : α) : (pure a : Linking α).outcome = .ok a := rfl

@[simp] theorem outcome_fail (e : Failure) : (fail e : Linking α).outcome = .error e := rfl

theorem outcome_bind_pure (x : Linking α) (f : α → β) : (x >>= fun a => pure (f a)).outcome = x.outcome.map f := by
  unfold outcome
  rw [runIn_bind]
  rcases x.runIn ⟨Table.empty, []⟩ with ⟨r, s⟩
  cases r <;> rfl

@[simp] theorem outcome_lift (r : Except Failure α) : (lift r).outcome = r := by
  unfold outcome
  rw [runIn_lift]

/-- A session that fits stays so, and if the directories that count are trusted, a computation gives in
it what it gives when nothing is remembered. -/
def Steady (trusted : Path → Prop) (t : FileTree) (sure : Prop) (x : Linking α) : Prop :=
  Meets trusted t x fun r => sure → r = x.outcome

section Steady

variable {trusted : Path → Prop} {t : FileTree} {sure : Prop}

theorem Steady.mono {x : Linking α} {sure' : Prop} (h : Steady trusted t sure x) (hs : sure' → sure) :
    Steady trusted t sure' x :=
  Meets.mono h fun _ hr hsure => hr (hs hsure)

theorem Steady.pure (a : α) : Steady trusted t sure (pure a : Linking α) := Meets.pure fun _ => rfl

theorem Steady.fail (e : Failure) : Steady trusted t sure (fail e : Linking α) := Meets.fail fun _ => rfl

theorem Steady.say (line : LogLine) : Steady trusted t sure (say line) := Meets.say fun _ => rfl

theorem Steady.lift (r : Except Failure α) : Steady trusted t sure (lift r) :=
  Meets.lift fun _ => (outcome_lift r).symm

/-- The outcome of a sequence is made of the outcomes of its parts. -/
theorem outcome_bind {x : Linking α} {f : α → Linking β} (hsure : sure)
    (hx : Steady trusted t sure x) (hf : ∀ a, x.outcome = .ok a → Steady trusted t sure (f a)) :
    (x >>= f).outcome = x.outcome.bind fun a => (f a).outcome := by
  -- nothing is remembered at first, and what the first part leaves fits
  have hfits := (hx ⟨Table.empty, []⟩ (fits_empty trusted t)).2
  unfold outcome at *
  rw [runIn_bind]
  rcases hrun : x.runIn ⟨Table.empty, []⟩ with ⟨r, s'⟩
  rw [hrun] at hfits hf
  cases r with
  | error e => rfl
  | ok a => exact (hf a rfl s' hfits).1 hsure

theorem Steady.bind {x : Linking α} {f : α → Linking β} (hx : Steady trusted t sure x)
    (hf : ∀ a, Steady trusted t sure (f a)) : Steady trusted t sure (x >>= f) := by
  refine Meets.bind hx ?_ ?_
  · intro a ha
    -- the second part runs with the outcome of the first one
    refine Meets.mono (hf a) ?_
    intro r hr hsure
    rw [outcome_bind hsure hx fun a _ => hf a, ← ha hsure]
    exact hr hsure
  · intro e he hsure
    rw [outcome_bind hsure hx fun a _ => hf a, ← he hsure]
    rfl

theorem Steady.foldlM {f : β → α → Linking β} {as : List α} (hf : ∀ b a, Steady trusted t sure (f b a))
    (b : β) : Steady trusted t sure (as.foldlM f b) := by
  induction as generalizing b with
  | nil => exact Steady.pure b
  | cons a as ih =>
    rw [List.foldlM_cons]
    exact (hf b a).bind ih

theorem Steady.mapM {f : α → Linking β} {as : List α} (hf : ∀ a, Steady trusted t sure (f a)) :
    Steady trusted t sure (as.mapM f) := by
  induction as with
  | nil => exact Steady.pure []
  | cons a as ih =>
    rw [List.mapM_cons]
    exact (hf a).bind fun b => ih.bind fun bs => Steady.pure (b :: bs)

theorem Steady.forM {f : α → Linking Unit} {as : List α} (hf : ∀ a, Steady trusted t sure (f a)) :
    Steady trusted t sure (as.forM f) := by
  induction as with
  | nil => exact Steady.pure ()
  | cons a as ih =>
    show Steady trusted t sure (f a >>= fun _ => as.forM f)
    exact (hf a).bind fun _ => ih

end Steady

end Relink.Linking
