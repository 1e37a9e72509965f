/-
Texts: sequences of characters, read by offset.

An offset counts characters (Unicode scalar values), never bytes, and `size` is
the offset just past the last one.  `t[i]?` looks without obligation, for
neighbours that may not exist; `Text.read` is the read that the caller
promises to be inside the text, and breaks off with `Fault.pastEnd` otherwise:

* `Text.read_of_lt` — inside the text a read is the character there;
* `Text.read_eq_error_iff` — a read breaks off at or past the end, and only
  there.
-/
import BracketMatching.Fault

namespace BracketMatching

/-- A text, as the array of its characters. -/
abbrev Text := Array Char

namespace Text

/-- The characters of a string, in order. -/
def ofString (s : String) : Text := s.toList.toArray

/-- The text as a string again. -/
def asString (t : Text) : String := String.ofList t.toList

/-- The characters at offsets `first`, …, `stop - 1`, counted from `first`. -/
def slice (t : Text) (first stop : Nat) : Text := t.extract first stop

/-- The character at `offset`, which has to lie inside the text. -/
def read (t : Text) (offset : Nat) : Except Fault Char :=
  if h : offset < t.size then .ok t[offset] else .error (.pastEnd offset)

theorem read_of_lt {t : Text} {i : Nat} (h : i < t.size) : t.read i = .ok t[i] :=
  dif_pos h

theorem read_eq_ok_iff {t : Text} {i : Nat} {c : Char} :
    t.read i = .ok c ↔ t[i]? = some c := by
  by_cases h : i < t.size <;> simp [read, h]

theorem read_eq_error_iff {t : Text} {i : Nat} {f : Fault} :
    t.read i = .error f ↔ t.size ≤ i ∧ f = .pastEnd i := by
  by_cases h : i < t.size
  · simp [read, h, Nat.not_le.mpr h]
  · simp [read, h, Nat.not_lt.mp h, eq_comm]

end Text

end BracketMatching
