import Relink.Proofs.Resolver

/-!
# A resolver that is asked many times

A resolver keeps the manifests that it reads, for all that it is asked later, also when it fails. Nobody can
tell: each answer is the one that a resolver gives which has not been asked anything before.

* `Resolver.Request`, `Resolver.Answer` — what can be asked, and what is answered.
* `Resolver.answers` — the answers to some requests, one after the other.
* `meets_answer`, `answers_of_fits` — what one request and what a whole run keeps.
* `answers_eq_outcomes` — the answers are those of new resolvers.
-/

namespace Relink.Resolver

open Linking

/-- What a resolver can be asked. -/
inductive Request where
  /-- The file that a specifier stands for in an importer. -/
  | file (specifier : String) (importer : Path)
  /-- The entry of the package in a directory. -/
  | entry (directory : Path)
  /-- The manifest of the package in a directory. -/
  | manifest (directory : Path)
  /-- Where a file is relative to the bases. -/
  | location (file : Path) (isScript : Bool)

/-- What a resolver answers if it does not fail. -/
inductive Answer where
  | file (p : Path)
  | entry (p : Option Path)
  | manifest (m : Manifest)
  | location (l : BaseLocation)

/-- The answer to a request. -/
def answer (r : Resolver) : Request → Linking Answer
  | .file specifier importer => return .file (← r.resolve specifier importer)
  | .entry directory => return .entry (← r.entryFile directory)
  | .manifest directory => return .manifest (← r.manifestOf directory)
  | .location file isScript => return .location (← r.locate file isScript)

/-- The answers to some requests, one after the other, and the session behind them. A request that fails
does not end the session. -/
def answers (r : Resolver) : List Request → Session → List (Except Failure Answer) × Session
  | [], s => ([], s)
  | request :: requests, s =>
    let (first, s') := (r.answer request).runIn s
    let (rest, s'') := r.answers requests s'
    (first :: rest, s'')

variable {r : Resolver}

/-- All that is remembered is what the directories say. -/
abbrev Truthful (r : Resolver) (s : Session) : Prop := Fits (fun _ => True) r.tree s.manifests

/-- A request is answered as if nothing were remembered, and adds nothing untrue. -/
theorem meets_answer (request : Request) :
    Meets (fun _ => True) r.tree (r.answer request) (· = (r.answer request).outcome) := by
  have hsteady : Steady (fun _ => True) r.tree True (r.answer request) := by
    cases request with
    | file specifier importer =>
      apply Steady.bind
      · exact (steady_resolve specifier importer).mono fun _ _ => trivial
      · exact fun p => Steady.pure _
    | entry directory =>
      apply Steady.bind
      · exact (steady_entryFile directory).mono fun _ _ => trivial
      · exact fun p => Steady.pure _
    | manifest directory =>
      apply Steady.bind
      · exact (steady_manifestOf _).mono fun _ => trivial
      · exact fun m => Steady.pure _
    | location file isScript =>
      apply Steady.bind
      · exact (steady_locate file isScript).mono fun _ _ _ => trivial
      · exact fun l => Steady.pure _
  intro s hs
  obtain ⟨hanswer, hs'⟩ := hsteady s hs
  exact ⟨hanswer trivial, hs'⟩

/-- From a truthful session on, every request is answered as if nothing were remembered, and the session
stays truthful. -/
theorem answers_of_fits (requests : List Request) (s : Session) (hs : r.Truthful s) :
    (r.answers requests s).1 = requests.map (fun request => (r.answer request).outcome) ∧
      r.Truthful (r.answers requests s).2 := by
  -- the session behind one request is the one that the next request finds
  induction requests generalizing s with
  | nil =>
    constructor
    · rfl
    · exact hs
  | cons request requests ih =>
    obtain ⟨hfirst, hs'⟩ := meets_answer request s hs
    obtain ⟨hrest, hs''⟩ := ih ((r.answer request).runIn s).2 hs'
    constructor
    · rw [List.map_cons, ← hfirst, ← hrest]
      rfl
    · exact hs''

/-- However often a resolver has been asked, it answers each request as a new one does. -/
theorem answers_eq_outcomes (r : Resolver) (requests : List Request) (log : List LogLine) :
    (r.answers requests ⟨Table.empty, log⟩).1
      = requests.map fun request => (r.answer request).outcome := by
  have hs : r.Truthful ⟨Table.empty, log⟩ := fits_empty _ r.tree
  exact (answers_of_fits requests _ hs).1

end Relink.Resolver
