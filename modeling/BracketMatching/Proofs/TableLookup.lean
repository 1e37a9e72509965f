/-
Looking characters up: a table is an index of its brackets, from both sides.

A look-up goes through the openers first and then through the closers, and takes the first
bracket that fits.  Since no character is listed twice, on one side or on both, the order
does not matter: what is found is the one bracket that has the character, and the side on
which it has it.

* `BracketTable.lookup_eq_forward_iff`, `BracketTable.lookup_eq_backward_iff`,
  `BracketTable.lookup_eq_none_iff` — when a look-up says what;
* `BracketTable.lookup_indexes` — **a look-up inverts the table**: these three, with what
  they rest on and what comes of them.
-/
import BracketMatching.Proofs.Safety

namespace BracketMatching

namespace BracketTable

variable {table : BracketTable} {b b' : Bracket} {c : Char}

theorem lookup_eq_forward_iff :
    table.lookup c = some (.forward, b) ↔ b ∈ table.brackets ∧ b.opener = c := by
  constructor
  · intro h
    obtain ⟨hb, ⟨-, hc⟩ | ⟨hd, -⟩⟩ := mem_of_lookup h
    · exact ⟨hb, hc.symm⟩
    · exact nomatch hd
  · rintro ⟨hb, rfl⟩
    exact lookup_opener hb

theorem lookup_eq_backward_iff :
    table.lookup c = some (.backward, b) ↔ b ∈ table.brackets ∧ b.closer = c := by
  constructor
  · intro h
    obtain ⟨hb, ⟨hd, -⟩ | ⟨-, hc⟩⟩ := mem_of_lookup h
    · exact nomatch hd
    · exact ⟨hb, hc.symm⟩
  · rintro ⟨hb, rfl⟩
    exact lookup_closer hb

theorem lookup_eq_none_iff :
    table.lookup c = none ↔ ∀ b ∈ table.brackets, b.opener ≠ c ∧ b.closer ≠ c := by
  constructor
  · intro hnone b hb
    constructor
    · rintro rfl
      exact nomatch hnone.symm.trans (lookup_opener hb)
    · rintro rfl
      exact nomatch hnone.symm.trans (lookup_closer hb)
  · intro h
    rcases hl : table.lookup c with _ | ⟨d, b⟩
    · rfl
    · -- A bracket that is found has the character on one of its sides.
      obtain ⟨hb, ⟨-, hc⟩ | ⟨-, hc⟩⟩ := mem_of_lookup hl
      · exact absurd hc.symm (h b hb).1
      · exact absurd hc.symm (h b hb).2

theorem lookup_eq_none_of_reactive (hc : c ∈ Glyph.reactive) : table.lookup c = none := by
  refine lookup_eq_none_iff.mpr fun b hb => ⟨?_, ?_⟩
  · rintro rfl
    exact Glyph.ofChar_eq_plain_iff.mp (usable_of_mem hb).opener_plain hc
  · rintro rfl
    exact Glyph.ofChar_eq_plain_iff.mp (usable_of_mem hb).closer_plain hc

/-- **A look-up is an index of the table.**  It answers with a bracket and the side away from
which the character stands in it, or finds that no bracket has the character.  There are
never two answers to choose from; from each character of a bracket the look-up leads back to
that bracket, in opposite directions; and no character of the lexical rules has an answer. -/
theorem lookup_indexes (table : BracketTable) (c : Char) :
    ((∀ b, table.lookup c = some (.forward, b) ↔ b ∈ table.brackets ∧ b.opener = c) ∧
      (∀ b, table.lookup c = some (.backward, b) ↔ b ∈ table.brackets ∧ b.closer = c) ∧
      (table.lookup c = none ↔ ∀ b ∈ table.brackets, b.opener ≠ c ∧ b.closer ≠ c)) ∧
    (∀ b ∈ table.brackets, ∀ b' ∈ table.brackets,
      (b.opener = c → b'.opener = c → b = b') ∧ (b.closer = c → b'.closer = c → b = b') ∧
        ¬ (b.opener = c ∧ b'.closer = c)) ∧
    (∀ b ∈ table.brackets, table.lookup b.opener = some (.forward, b) ∧
      table.lookup b.closer = some (.backward, b)) ∧
    (c ∈ Glyph.reactive → table.lookup c = none) := by
  refine ⟨⟨fun b => lookup_eq_forward_iff, fun b => lookup_eq_backward_iff, lookup_eq_none_iff⟩,
    fun b hb b' hb' => ⟨?_, ?_, ?_⟩, fun b hb => ⟨lookup_opener hb, lookup_closer hb⟩,
    lookup_eq_none_of_reactive⟩
  · exact fun h h' => eq_of_opener_eq hb' hb (h.trans h'.symm)
  · exact fun h h' => eq_of_closer_eq hb' hb (h.trans h'.symm)
  · exact fun ⟨h, h'⟩ => opener_ne_closer hb hb' (h.trans h'.symm)

example : standard.lookup ']' = some (.backward, ⟨'[', ']'⟩) := by decide

end BracketTable

end BracketMatching
