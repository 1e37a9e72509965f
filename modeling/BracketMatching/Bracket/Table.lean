/-
Bracket tables: the brackets that a search recognises.

A table is built from two sequences of characters, the openers and the closers,
taken pair by pair.  It is refused for the first of these reasons that applies:
the counts differ; there is no bracket; reading the openers and then the closers,
some character is one that the lexing rules react to, or has been listed before.

* `BracketTable.ofChars` — the table, or the reason for refusing it;
* `firstFault_eq_none_iff` — no character is at fault exactly if all are
  different and none is reactive;
* `BracketTable.lookup` — the bracket of a character and where its partner lies.

Design note: what the checks establish travels with the table as proof fields,
so that a search never has to ask again whether its brackets are usable.
-/
import BracketMatching.Bracket.Basic
import BracketMatching.Lexing.Glyph
import BracketMatching.Text.Quoted

namespace BracketMatching

/-- Why a list of brackets was refused. -/
inductive TableError
  /-- No brackets were listed. -/
  | empty
  /-- Openers and closers differ in number. -/
  | countMismatch (openers closers : Nat)
  /-- The character was listed before, as an opener or a closer. -/
  | repeated (c : Char)
  /-- The lexing rules react to the character. -/
  | reserved (c : Char)
  deriving DecidableEq, Repr

/-- The reason in words. -/
def TableError.message : TableError → String
  | .empty => "bracket table is empty"
  | .countMismatch openers closers =>
    s!"{openers} opening brackets but {closers} closing brackets"
  | .repeated c => s!"bracket character {quoted c} appears more than once"
  | .reserved c => s!"{quoted c} drives lexical state and cannot be used as a bracket"

/-- The characters of a list of brackets: the openers, then the closers. -/
def bracketChars (brackets : List Bracket) : List Char :=
  brackets.map Bracket.opener ++ brackets.map Bracket.closer

/-- A list of brackets that a search can use. -/
structure BracketTable where
  /-- The brackets, in the order in which they were listed. -/
  brackets : List Bracket
  brackets_ne_nil : brackets ≠ []
  /-- No character serves twice. -/
  nodup : (bracketChars brackets).Nodup
  /-- No character means anything to the lexing rules. -/
  plain : ∀ c ∈ bracketChars brackets, Glyph.ofChar c = .plain
  deriving DecidableEq

/-! ### Validation -/

/-- The fault of the first character that is reactive or was seen before. -/
def firstFault (seen : List Char) : List Char → Option TableError
  | [] => none
  | c :: rest =>
    if Glyph.ofChar c ≠ .plain then some (.reserved c)
    else if c ∈ seen then some (.repeated c)
    else firstFault (c :: seen) rest

theorem firstFault_eq_none_iff {seen cs : List Char} :
    firstFault seen cs = none ↔
      cs.Nodup ∧ ∀ c ∈ cs, Glyph.ofChar c = .plain ∧ c ∉ seen := by
  induction cs generalizing seen with
  | nil => simp [firstFault]
  | cons c rest ih =>
    unfold firstFault
    split
    · simp_all
    · split
      · simp_all
      · rw [ih]
        simp only [List.nodup_cons, List.mem_cons, forall_eq_or_imp, not_or]
        grind

private theorem map_opener_zipWith {openers closers : List Char}
    (h : openers.length = closers.length) :
    (openers.zipWith Bracket.mk closers).map Bracket.opener = openers := by
  induction openers generalizing closers with
  | nil => simp
  | cons o os ih =>
    cases closers with
    | nil => simp at h
    | cons c cs => simp [ih (Nat.succ.inj h)]

private theorem map_closer_zipWith {openers closers : List Char}
    (h : openers.length = closers.length) :
    (openers.zipWith Bracket.mk closers).map Bracket.closer = closers := by
  induction openers generalizing closers with
  | nil => simpa [eq_comm] using h
  | cons o os ih =>
    cases closers with
    | nil => simp at h
    | cons c cs => simp [ih (Nat.succ.inj h)]

/-- The brackets paired from two sequences of one length list their characters
in the order of the sequences. -/
theorem bracketChars_zipWith {openers closers : List Char}
    (h : openers.length = closers.length) :
    bracketChars (openers.zipWith Bracket.mk closers) = openers ++ closers := by
  rw [bracketChars, map_opener_zipWith h, map_closer_zipWith h]

namespace BracketTable

/-- The table that pairs the openers with the closers in order, or the reason
for refusing it. -/
def ofChars (openers closers : List Char) : Except TableError BracketTable :=
  if hlen : openers.length = closers.length then
    if hne : openers = [] then .error .empty
    else
      match h : firstFault [] (openers ++ closers) with
      | some fault => .error fault
      | none =>
        .ok {
          brackets := openers.zipWith Bracket.mk closers
          brackets_ne_nil := by
            have hne' : closers ≠ [] :=
              fun h => hne (List.eq_nil_of_length_eq_zero (by rw [hlen, h]; rfl))
            simp [List.zipWith_eq_nil_iff, hne, hne']
          nodup := by
            rw [bracketChars_zipWith hlen]
            exact (firstFault_eq_none_iff.mp h).1
          plain := by
            rw [bracketChars_zipWith hlen]
            exact fun c hc => ((firstFault_eq_none_iff.mp h).2 c hc).1 }
  else .error (.countMismatch openers.length closers.length)

/-- The table listed by two strings, opener by opener and closer by closer. -/
def ofStrings (openers closers : String) : Except TableError BracketTable :=
  ofChars openers.toList closers.toList

/-- The brackets of the standard table: angle, round, square and curly ones. -/
def standardBrackets : List Bracket :=
  [⟨'<', '>'⟩, ⟨'(', ')'⟩, ⟨'[', ']'⟩, ⟨'\x7b', '\x7d'⟩]

private theorem firstFault_standardBrackets :
    firstFault [] (bracketChars standardBrackets) = none := by
  decide

/-- The table used where none is given. -/
def standard : BracketTable where
  brackets := standardBrackets
  brackets_ne_nil := List.cons_ne_nil _ _
  nodup := (firstFault_eq_none_iff.mp firstFault_standardBrackets).1
  plain := fun c hc => ((firstFault_eq_none_iff.mp firstFault_standardBrackets).2 c hc).1

/-! ### Lookup -/

/-- The number of brackets. -/
def size (table : BracketTable) : Nat := table.brackets.length

/-- Whether the table lists no bracket; it always lists one. -/
def isEmpty (table : BracketTable) : Bool := table.brackets.isEmpty

theorem isEmpty_eq_false (table : BracketTable) : table.isEmpty = false := by
  simpa [isEmpty] using table.brackets_ne_nil

/-- The bracket that `c` belongs to, and on which side of `c` its partner lies. -/
def lookup (table : BracketTable) (c : Char) : Option (Direction × Bracket) :=
  match table.brackets.find? (fun b => b.opener == c) with
  | some b => some (.forward, b)
  | none => (table.brackets.find? (fun b => b.closer == c)).map (Direction.backward, ·)

end BracketTable

end BracketMatching
