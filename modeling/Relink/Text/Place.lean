/-!
# Places in a text

Offsets in a text count the bytes of its encoding, so a place is an offset together with the
characters that follow it. A span is a pair of offsets.

Main statements: walking forward over characters adds their bytes to the offset and drops them from
what follows (`Place.offset_skip`, `Place.rest_skip`).
-/

namespace Relink

/-- A stretch of a text, from the byte offset `start` to the byte offset `stop`. -/
structure Span where
  start : Nat
  stop : Nat
  deriving DecidableEq, Repr, Inhabited

/-- The number of bytes that encode a list of characters. -/
def byteLength : List Char → Nat
  | [] => 0
  | c :: cs => c.utf8Size + byteLength cs

@[simp] theorem byteLength_append (a b : List Char) :
    byteLength (a ++ b) = byteLength a + byteLength b := by
  induction a with
  | nil => simp [byteLength]
  | cons c cs ih => simp [byteLength, ih, Nat.add_assoc]

/-- The characters up to the byte offset `n`. -/
def takeBytes : Nat → List Char → List Char
  | 0, _ => []
  | _, [] => []
  | n + 1, c :: cs => c :: takeBytes (n + 1 - c.utf8Size) cs

/-- The characters from the byte offset `n` on. -/
def dropBytes : Nat → List Char → List Char
  | 0, cs => cs
  | _, [] => []
  | n + 1, _c :: cs => dropBytes (n + 1 - _c.utf8Size) cs

theorem takeBytes_append_dropBytes (n : Nat) (cs : List Char) :
    takeBytes n cs ++ dropBytes n cs = cs := by
  induction cs generalizing n with
  | nil => cases n <;> rfl
  | cons c cs ih =>
    cases n with
    | zero => rfl
    | succ n => simp [takeBytes, dropBytes, ih]

/-- The characters of the stretch `span`. -/
def Span.extract (span : Span) (cs : List Char) : List Char :=
  takeBytes (span.stop - span.start) (dropBytes span.start cs)

/-- A place in a text: its byte offset and the characters behind it. -/
structure Place where
  offset : Nat
  rest : List Char
  deriving DecidableEq, Repr, Inhabited

namespace Place

/-- The place before the first character. -/
def first (cs : List Char) : Place := ⟨0, cs⟩

/-- The place `count` characters further on. -/
def skip : Nat → Place → Place
  | 0, p => p
  | _ + 1, ⟨at_, []⟩ => ⟨at_, []⟩
  | n + 1, ⟨at_, c :: cs⟩ => skip n ⟨at_ + c.utf8Size, cs⟩

theorem rest_skip (n : Nat) (p : Place) : (p.skip n).rest = p.rest.drop n := by
  induction n generalizing p with
  | zero => rfl
  | succ n ih =>
    obtain ⟨o, cs⟩ := p
    cases cs with
    | nil => simp [skip]
    | cons c cs => simp [skip, ih]

theorem offset_skip (n : Nat) (p : Place) :
    (p.skip n).offset = p.offset + byteLength (p.rest.take n) := by
  induction n generalizing p with
  | zero => simp [skip, byteLength]
  | succ n ih =>
    obtain ⟨o, cs⟩ := p
    cases cs with
    | nil => simp [skip, byteLength]
    | cons c cs => simp [skip, ih, byteLength, Nat.add_assoc]

end Place

end Relink
