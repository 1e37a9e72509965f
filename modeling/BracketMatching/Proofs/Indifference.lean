/-
Indifference: what a search does not look at.

A text that is changed without a change to what is read of it is a transcript of the
text that it was, and has the same matches.  There are two such changes here:

* lines put before the text (`BracketTable.matchBefore_append`): a forward search takes the
  line of its opener to begin in code, and so finds the same closer behind any other lines,
  even if they leave a comment or a verbatim string open;
* other characters in the text (`BracketTable.matchBefore_congr`), as long as the lexing
  rules react to neither the old ones nor the new ones, and none of them belongs to the
  bracket that is sought (`Bracket.Heeds`).  All other brackets of a table are such
  characters, balanced or not.

Design note: backward, earlier lines do matter, since the windows of a backward scan reach
up to them.
-/
import BracketMatching.Proofs.TranscribedSearch

namespace BracketMatching

theorem Match.map_id (found : Match) : found.map id = found := rfl

namespace Bracket

/-- The characters that a search for the partner of `b` looks at: those that the lexing
rules react to, and the two of `b`. -/
def Heeds (b : Bracket) (c : Char) : Prop := c ∈ Glyph.reactive ∨ b.has c = true

instance decidableHeeds (b : Bracket) (c : Char) : Decidable (b.Heeds c) :=
  inferInstanceAs (Decidable (c ∈ Glyph.reactive ∨ b.has c = true))

theorem not_heeds_iff {b : Bracket} {c : Char} :
    ¬ b.Heeds c ↔ Glyph.ofChar c = .plain ∧ b.has c = false := by
  rw [Heeds, not_or, Glyph.ofChar_eq_plain_iff, Bool.not_eq_true]

end Bracket

namespace Text

variable {b : Bracket} {t t' lines : Text} {i : Nat}

/-! ### Lines before a text -/

/-- A text behind whole lines is a transcript of itself. -/
theorem transcript_append (b : Bracket) (t : Text) (hlines : lines.IsLineStart lines.size) :
    Transcript b t (lines ++ t) (lines.size + ·) none where
  isLineStart := by
    obtain hzero | ⟨j, hj, hfeed⟩ := hlines
    · exact .inl hzero
    · refine .inr ⟨j, hj, ?_⟩
      rw [Array.getElem?_append_left (by omega), hfeed]
  strictMono := by
    intro i j hij
    exact Nat.add_lt_add_left hij lines.size
  writes := by
    intro i _
    refine .alike (.of_getElem?_eq ?_) rfl
    rw [Array.getElem?_append_right (Nat.le_add_right _ i), Nat.add_sub_cancel_left]

/-! ### Other characters -/

/-- The texts are equally long, and where their characters differ, a search for the partner
of `b` heeds neither of the two. -/
structure SameFor (t : Text) (b : Bracket) (t' : Text) : Prop where
  size_eq : t'.size = t.size
  unheeded : ∀ (i : Nat) (c c' : Char), t[i]? = some c → t'[i]? = some c' → c' ≠ c →
    ¬ b.Heeds c ∧ ¬ b.Heeds c'

/-- Offset by offset, the characters are equal, or neither is heeded. -/
theorem sameFor_iff : t.SameFor b t' ↔ t'.size = t.size ∧
    ∀ i < t.size, t'[i]? = t[i]? ∨
      (t[i]?.all fun c => ¬ b.Heeds c) = true ∧ (t'[i]?.all fun c => ¬ b.Heeds c) = true := by
  constructor
  · rintro ⟨hsize, hun⟩
    refine ⟨hsize, fun i hi => or_iff_not_imp_left.mpr fun hne => ?_⟩
    have hc : t[i]? = some t[i] := Array.getElem?_eq_getElem hi
    have hc' : t'[i]? = some t'[i] := Array.getElem?_eq_getElem (hsize ▸ hi)
    rw [hc, hc', Option.some_inj] at hne
    obtain ⟨hold, hnew⟩ := hun i _ _ hc hc' hne
    rw [hc, hc']
    exact ⟨decide_eq_true hold, decide_eq_true hnew⟩
  · rintro ⟨hsize, hun⟩
    refine ⟨hsize, fun i c c' hc hc' hne => ?_⟩
    rcases hun i (lt_size_of_getElem? hc) with hsame | ⟨hold, hnew⟩
    · rw [hc, hc', Option.some_inj] at hsame
      exact absurd hsame hne
    · rw [hc] at hold
      rw [hc'] at hnew
      exact ⟨of_decide_eq_true hold, of_decide_eq_true hnew⟩

instance decidableSameFor (t : Text) (b : Bracket) (t' : Text) : Decidable (t.SameFor b t') :=
  decidable_of_iff' _ sameFor_iff

theorem SameFor.alike (h : t.SameFor b t') (i : Nat) : t.Alike b i t' i := by
  by_cases hi : i < t.size
  · have hi' : i < t'.size := h.size_eq ▸ hi
    have hc : t[i]? = some t[i] := Array.getElem?_eq_getElem hi
    have hc' : t'[i]? = some t'[i] := Array.getElem?_eq_getElem hi'
    by_cases hsame : t'[i] = t[i]
    · exact .of_getElem?_eq (by rw [hc, hc', hsame])
    · obtain ⟨hold, hnew⟩ := h.unheeded i _ _ hc hc' hsame
      obtain ⟨hglyph, hhas⟩ := Bracket.not_heeds_iff.mp hold
      obtain ⟨hglyph', hhas'⟩ := Bracket.not_heeds_iff.mp hnew
      constructor
      · rw [glyph?_of_getElem? hc, glyph?_of_getElem? hc', hglyph, hglyph']
      · rw [sides_of_getElem? hc, sides_of_getElem? hc', Bracket.side?_eq_none.mpr hhas,
          Bracket.side?_eq_none.mpr hhas']
  · have hsize : t.size ≤ i := Nat.le_of_not_lt hi
    refine .of_getElem?_eq ?_
    rw [Array.getElem?_eq_none hsize, Array.getElem?_eq_none (h.size_eq ▸ hsize)]

theorem SameFor.transcript (h : t.SameFor b t') : Transcript b t t' id none where
  isLineStart := .inl rfl
  strictMono := strictMono_id
  writes i _ := .alike (h.alike i) rfl

end Text

namespace BracketTable

variable {table : BracketTable} {t t' lines : Text} {b b' : Bracket} {c : Char} {i : Nat}

/-- **A forward search never depends on earlier lines.**  Behind other lines, the match of
an opener is what it was, and where it came to be. -/
theorem matchBefore_append (hb : b ∈ table.brackets) (ho : t[i]? = some b.opener)
    (hlines : lines.IsLineStart lines.size) :
    ∃ r, Yields (table.matchBefore t (i + 1)) r ∧
      Yields (table.matchBefore (lines ++ t) (lines.size + (i + 1)))
        (r.map (Match.map (lines.size + ·))) := by
  obtain ⟨r, hr⟩ := (ensures_matchBefore table t (i + 1)).exists_yields
  refine ⟨r, hr, ?_⟩
  exact matchBefore_opener_pos (Text.transcript_append b t hlines) hb ho
    (fun _ => .of_unbroken fun _ => rfl) hr

/-- A line on which a verbatim string begins, and does not end. -/
def openStringLine : Text := .ofString "@\"(\n"

theorem matchBefore_append_openStringLine :
    (callText[1]? = some '(' ∧ openStringLine.IsLineStart openStringLine.size ∧
      Yields (standard.matchBefore callText 2) (some ⟨⟨1, 1⟩, ⟨21, 1⟩⟩)) ∧
    Yields (standard.matchBefore (openStringLine ++ callText) 6)
      (some ⟨⟨5, 1⟩, ⟨25, 1⟩⟩) := by
  have hyps : callText[1]? = some '(' ∧ openStringLine.IsLineStart openStringLine.size ∧
      Yields (standard.matchBefore callText 2) (some ⟨⟨1, 1⟩, ⟨21, 1⟩⟩) := by decide +kernel
  obtain ⟨ho, hlines, hr⟩ := id hyps
  have hb : ⟨'(', ')'⟩ ∈ standard.brackets := by decide
  obtain ⟨r, hr', hbehind⟩ := matchBefore_append hb ho hlines
  obtain rfl := hr.unique hr'
  exact ⟨hyps, hbehind⟩

/-- A search for one bracket of a table does not look at the others. -/
theorem not_heeds_of_ne (hb : b ∈ table.brackets) (hb' : b' ∈ table.brackets) (hne : b' ≠ b) :
    ¬ b.Heeds b'.opener ∧ ¬ b.Heeds b'.closer := by
  have hu := usable_of_mem hb'
  rw [Bracket.not_heeds_iff, Bracket.not_heeds_iff, ← Bool.not_eq_true, ← Bool.not_eq_true,
    Bracket.has_iff, Bracket.has_iff, not_or, not_or]
  exact ⟨⟨hu.opener_plain, fun h => hne (eq_of_opener_eq hb hb' h), opener_ne_closer hb' hb⟩,
    hu.closer_plain, (opener_ne_closer hb hb').symm, fun h => hne (eq_of_closer_eq hb hb' h)⟩

/-- **Only the bracket that is sought and the lexical characters matter.**  In a text of
other characters, the match is the same; and the other brackets of the table are among the
characters that may be others. -/
theorem matchBefore_congr (hb : b ∈ table.brackets) (hget : t[i]? = some c)
    (hc : b.has c = true) (h : t.SameFor b t') :
    (∃ r, Yields (table.matchBefore t (i + 1)) r ∧ Yields (table.matchBefore t' (i + 1)) r) ∧
      ∀ b' ∈ table.brackets, b' ≠ b → ¬ b.Heeds b'.opener ∧ ¬ b.Heeds b'.closer := by
  refine ⟨?_, fun b' hb' hne => not_heeds_of_ne hb hb' hne⟩
  obtain ⟨r, hr⟩ := (ensures_matchBefore table t (i + 1)).exists_yields
  refine ⟨r, hr, ?_⟩
  have hmap : r.map (Match.map id) = r := by
    cases r with
    | none => rfl
    | some found => exact congrArg some found.map_id
  rcases Bracket.has_iff.mp hc with rfl | rfl
  · have hr' := matchBefore_opener_pos h.transcript hb hget
      (fun _ => .of_unbroken fun _ => rfl) hr
    rwa [hmap] at hr'
  · cases i with
    | zero =>
      obtain rfl := hr.unique (yields_matchBefore_closer_zero hb hget)
      exact yields_matchBefore_closer_zero hb
        (((h.alike 0).closer_iff (usable_of_mem hb)).mpr hget)
    | succ l =>
      have hr' := matchBefore_closer_pos h.transcript hb rfl (Text.upTo_none _) hget
        (fun _ _ _ => .of_unbroken fun _ => rfl) hr
      rwa [hmap] at hr'

/-- A call with brackets of other kinds in it. -/
def nestedCallText : Text := .ofString "f([a, \x7b\"(\"\x7d],\n'(')"

/-- The same call with other letters, and with the brackets of other kinds torn apart. -/
def tornNestingText : Text := .ofString "g(]<x[\x7d\"(\"\x7b>;\n'(')"

theorem matchBefore_congr_nestedCallText :
    (nestedCallText[17]? = some ')' ∧ nestedCallText.SameFor ⟨'(', ')'⟩ tornNestingText ∧
      Yields (standard.matchBefore nestedCallText 18) (some ⟨⟨1, 1⟩, ⟨17, 1⟩⟩)) ∧
    Yields (standard.matchBefore tornNestingText 18) (some ⟨⟨1, 1⟩, ⟨17, 1⟩⟩) := by
  have hyps : nestedCallText[17]? = some ')' ∧ nestedCallText.SameFor ⟨'(', ')'⟩ tornNestingText ∧
      Yields (standard.matchBefore nestedCallText 18) (some ⟨⟨1, 1⟩, ⟨17, 1⟩⟩) := by
    decide +kernel
  obtain ⟨hc, hsame, hr⟩ := id hyps
  have hb : ⟨'(', ')'⟩ ∈ standard.brackets := by decide
  obtain ⟨⟨r, hr', htorn⟩, -⟩ := matchBefore_congr hb hc (by decide) hsame
  obtain rfl := hr.unique hr'
  exact ⟨hyps, htorn⟩

end BracketTable

end BracketMatching
