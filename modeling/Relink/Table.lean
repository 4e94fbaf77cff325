/-!
# Tables

A table holds values under keys, in the order of the keys. Two tables that hold the same values under
the same keys are equal.

* `insert` — the value under a key is replaced.
* `get?` — the value under a key.
* `NameSet` — a set of names in order, as a table without values.
-/

namespace Relink

/-- Values under keys, in the order of the keys. -/
structure Table (κ α : Type) where
  entries : List (κ × α)
  deriving DecidableEq, Repr

namespace Table

variable {κ α β : Type}

instance : Inhabited (Table κ α) := ⟨⟨[]⟩⟩

/-- The table without entries. -/
def empty : Table κ α := ⟨[]⟩

/-- Puts an entry into an ordered list, in place of one with the same key. -/
def insertEntry [Ord κ] (k : κ) (v : α) : List (κ × α) → List (κ × α)
  | [] => [(k, v)]
  | (k', v') :: es =>
    match compare k k' with
    | .lt => (k, v) :: (k', v') :: es
    | .eq => (k, v) :: es
    | .gt => (k', v') :: insertEntry k v es

/-- Puts a value under a key. -/
def insert [Ord κ] (t : Table κ α) (k : κ) (v : α) : Table κ α :=
  ⟨insertEntry k v t.entries⟩

/-- The value under a key. -/
def get? [Ord κ] (t : Table κ α) (k : κ) : Option α :=
  (t.entries.find? fun e => compare k e.1 == .eq).map Prod.snd

/-- Whether a key has a value. -/
def contains [Ord κ] (t : Table κ α) (k : κ) : Bool :=
  t.entries.any fun e => compare k e.1 == .eq

/-- The table of a list of entries; of several with one key the last one counts. -/
def ofList [Ord κ] (es : List (κ × α)) : Table κ α :=
  es.foldl (fun t e => t.insert e.1 e.2) empty

def keys (t : Table κ α) : List κ := t.entries.map Prod.fst

def values (t : Table κ α) : List α := t.entries.map Prod.snd

def size (t : Table κ α) : Nat := t.entries.length

/-- The same keys with other values. -/
def map (f : α → β) (t : Table κ α) : Table κ β :=
  ⟨t.entries.map fun e => (e.1, f e.2)⟩

/-- The entries whose values `f` keeps, with what it makes of them. -/
def filterMap (f : α → Option β) (t : Table κ α) : Table κ β :=
  ⟨t.entries.filterMap fun e => (f e.2).map fun v => (e.1, v)⟩

end Table

/-- A set of names in their order. -/
structure NameSet where
  table : Table String Unit
  deriving DecidableEq, Repr, Inhabited

namespace NameSet

def empty : NameSet := ⟨Table.empty⟩

def insert (s : NameSet) (x : String) : NameSet := ⟨s.table.insert x ()⟩

def contains (s : NameSet) (x : String) : Bool := s.table.contains x

def toList (s : NameSet) : List String := s.table.keys

def ofList (xs : List String) : NameSet := xs.foldl insert empty

end NameSet

end Relink
