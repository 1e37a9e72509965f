/-
Line endings: a search does not care how lines end, unless an escape stands at the end of
a line.

`Text.toCRLF` ends each line with a carriage return and a line feed.  The lexing rules are
indifferent to that, since the carriage return breaks what the line feed behind it would
break.  But a backslash escapes one character, which is the line feed of the text, and
only the carriage return of the other one.

* `Text.crlfOffset` — where a character comes to stand;
* `Text.transcript_toCRLF` — the new text is a transcript of the old one;
* `Text.EscapesFeed`, `BracketTable.KeepsFeeds` — the escapes that get in the way, and that
  a search meets none of them;
* `BracketTable.keepsFeeds_of_forall` — for one, where no line ends with a backslash;
* `BracketTable.matchBefore_toCRLF` — **then the search finds the same brackets**;
* `BracketTable.not_forall_matchBefore_toCRLF` — which fails where a string is continued on
  the next line.

Design note: only full readings are asked not to meet such an escape, and only as far as
they get.  A forward scan ends at the closer that it finds, with the literal that it starts
in, and at once in a comment; a window ends at the closer that the search began at, or where
its reading stops.  Where a glance decides, escapes do not matter.
-/
import BracketMatching.Proofs.TranscribedSearch

namespace BracketMatching

/-- What a character becomes if lines end with a carriage return and a line feed. -/
def crlfChars (c : Char) : List Char :=
  if c = '\n' then ['\r', '\n'] else [c]

namespace Text

variable {t : Text} {start i : Nat} {c : Char}

/-- The text with a carriage return before each line feed. -/
def toCRLF (t : Text) : Text := (t.toList.flatMap crlfChars).toArray

/-- Where the character at an offset comes to stand: behind what stood before it, and a
carriage return for each line feed among that. -/
def crlfOffset (t : Text) (offset : Nat) : Nat :=
  offset + (t.toList.take offset).count '\n'

/-! ### The places of characters -/

theorem crlfOffset_succ_of_lineFeed (h : t[i]? = some '\n') :
    t.crlfOffset (i + 1) = t.crlfOffset i + 1 + 1 := by
  rw [← Array.getElem?_toList] at h
  rw [crlfOffset, crlfOffset, List.take_add_one, h]
  simp
  omega

theorem crlfOffset_succ_of_ne (h : t[i]? ≠ some '\n') :
    t.crlfOffset (i + 1) = t.crlfOffset i + 1 := by
  rw [← Array.getElem?_toList] at h
  rw [crlfOffset, crlfOffset, List.take_add_one]
  rcases hc : t.toList[i]? with _ | c
  · simp
    omega
  · have hne : c ≠ '\n' := fun heq => h (heq ▸ hc)
    simp [hne]
    omega

theorem crlfOffset_strictMono (t : Text) : StrictMono t.crlfOffset := by
  refine strictMono_nat_of_lt_succ fun i => ?_
  by_cases h : t[i]? = some '\n'
  · rw [crlfOffset_succ_of_lineFeed h]
    omega
  · rw [crlfOffset_succ_of_ne h]
    omega

/-! ### The characters at the places -/

theorem length_flatMap_crlfChars (cs : List Char) :
    (cs.flatMap crlfChars).length = cs.length + cs.count '\n' := by
  induction cs with
  | nil => rfl
  | cons c cs ih =>
    rw [List.flatMap_cons, List.length_append, ih, List.length_cons, List.count_cons, crlfChars]
    by_cases hc : c = '\n' <;> simp [hc] <;> omega

theorem size_toCRLF (t : Text) : t.toCRLF.size = t.crlfOffset t.size := by
  rw [toCRLF, List.size_toArray, length_flatMap_crlfChars, crlfOffset, Array.length_toList,
    ← Array.length_toList, List.take_length]

/-- From the place of an offset on, the characters are those that the rest becomes. -/
theorem getElem?_toCRLF (hi : i ≤ t.size) (j : Nat) :
    t.toCRLF[t.crlfOffset i + j]? = ((t.toList.drop i).flatMap crlfChars)[j]? := by
  have hlen : ((t.toList.take i).flatMap crlfChars).length = t.crlfOffset i := by
    rw [length_flatMap_crlfChars, List.length_take, Array.length_toList, Nat.min_eq_left hi,
      crlfOffset]
  have hsplit : t.toList.flatMap crlfChars =
      (t.toList.take i).flatMap crlfChars ++ (t.toList.drop i).flatMap crlfChars := by
    rw [← List.flatMap_append, List.take_append_drop]
  rw [toCRLF, List.getElem?_toArray, hsplit,
    List.getElem?_append_right (hlen.le.trans (Nat.le_add_right _ _)), hlen,
    Nat.add_sub_cancel_left]

/-- The rest of the text from a character on. -/
theorem drop_toList (h : t[i]? = some c) : t.toList.drop i = c :: t.toList.drop (i + 1) := by
  obtain ⟨hlt, rfl⟩ := Array.getElem?_eq_some_iff.mp h
  exact List.drop_eq_getElem_cons hlt

theorem getElem?_toCRLF_of_lineFeed (h : t[i]? = some '\n') :
    t.toCRLF[t.crlfOffset i]? = some '\r' ∧ t.toCRLF[t.crlfOffset i + 1]? = some '\n' := by
  have hle : i ≤ t.size := (lt_size_of_getElem? h).le
  have hfirst := getElem?_toCRLF hle 0
  have hsecond := getElem?_toCRLF hle 1
  rw [drop_toList h, List.flatMap_cons] at hfirst hsecond
  exact ⟨hfirst, hsecond⟩

theorem getElem?_toCRLF_of_ne (h : t[i]? ≠ some '\n') : t.toCRLF[t.crlfOffset i]? = t[i]? := by
  rcases hc : t[i]? with _ | c
  · rw [Array.getElem?_eq_none_iff] at hc ⊢
    rw [size_toCRLF]
    exact t.crlfOffset_strictMono.monotone hc
  · have hne : c ≠ '\n' := fun heq => h (heq ▸ hc)
    have hfirst := getElem?_toCRLF (lt_size_of_getElem? hc).le 0
    rwa [drop_toList hc, List.flatMap_cons, crlfChars, if_neg hne] at hfirst

/-- Before the place of the next character stands the same character. -/
theorem exists_getElem?_toCRLF (h : t[i]? = some c) :
    ∃ n, t.crlfOffset (i + 1) = n + 1 ∧ t.toCRLF[n]? = some c := by
  by_cases hfeed : t[i]? = some '\n'
  · obtain rfl : '\n' = c := Option.some.inj (hfeed.symm.trans h)
    exact ⟨_, crlfOffset_succ_of_lineFeed h, (getElem?_toCRLF_of_lineFeed h).2⟩
  · exact ⟨_, crlfOffset_succ_of_ne hfeed, (getElem?_toCRLF_of_ne hfeed).trans h⟩

/-- **The new text is a transcript of the old one**, for any bracket. -/
theorem transcript_toCRLF (b : Bracket) (t : Text) :
    Transcript b t t.toCRLF t.crlfOffset none where
  isLineStart := .inl rfl
  strictMono := t.crlfOffset_strictMono
  writes i _ := by
    by_cases h : t[i]? = some '\n'
    · obtain ⟨hreturn, hfeed⟩ := getElem?_toCRLF_of_lineFeed h
      exact .returned h hreturn hfeed (crlfOffset_succ_of_lineFeed h)
    · exact .alike (.of_getElem?_eq (getElem?_toCRLF_of_ne h)) (crlfOffset_succ_of_ne h)

/-! ### Escapes at the end of a line -/

/-- The run that starts as code at `start` consumes the line feed behind `i` in an escape. -/
def EscapesFeed (t : Text) (start i : Nat) : Prop :=
  ∃ ctx, t.Visits start i ctx ∧ ctx.escapes = true ∧ t[i]? = some '\\' ∧ t[i + 1]? = some '\n'

instance decidableEscapesFeed (t : Text) (start i : Nat) : Decidable (t.EscapesFeed start i) :=
  decidable_of_iff
    (∃ ctx ∈ t.contextAt i .code start,
      ctx.escapes = true ∧ t[i]? = some '\\' ∧ t[i + 1]? = some '\n')
    (by simp only [Option.mem_def, contextAt_eq_some_iff, EscapesFeed, Visits])

theorem keepsEscapes_of_not_escapesFeed {pos : Nat → Nat} {reads : Nat → Prop}
    (h : ∀ i, reads i → ¬ t.EscapesFeed start i) : KeepsEscapes t pos reads start .code :=
  fun i ctx hv hread hesc hback hfeed => absurd ⟨ctx, hv, hesc, hback, hfeed⟩ (h i hread)

end Text

namespace BracketTable

variable {table : BracketTable} {t : Text} {b : Bracket} {c : Char} {i : Nat} {r : Option Match}

/-- What the search for a match, which finds `r`, reads in full escapes no line feed: as far
as the scan gets from an opener on, before the closer, and as far as the readings of the
windows of a closer get. -/
structure KeepsFeeds (table : BracketTable) (t : Text) (caret : Nat) (r : Option Match) :
    Prop where
  forward : ∀ b ∈ table.brackets, ∀ o, caret = o + 1 → t[o]? = some b.opener →
    t.glanceForward b (o + 1) = .ok .undecided →
    ∀ i, t.ScanGetsTo (o + 1) i → (∀ m, r = some m → i < m.closing.offset) →
      ¬ t.EscapesFeed (t.lineStart (o + 1)) i
  backward : ∀ b ∈ table.brackets, ∀ last, caret = last + 2 → t[last + 1]? = some b.closer →
    t.glanceBackward b last = .ok .undecided →
    ∀ n, t.ReadsWindow b last n →
      ∀ i, i ≤ last → t.WindowGetsTo (t.windowStart 0 (t.lineStart (last + 1)) n) i →
        ¬ t.EscapesFeed (t.windowStart 0 (t.lineStart (last + 1)) n) i

theorem KeepsFeeds.scanKeepsEscapes {pos : Nat → Nat} (h : KeepsFeeds table t (i + 1) r)
    (hb : b ∈ table.brackets) (ho : t[i]? = some b.opener)
    (hglance : t.glanceForward b (i + 1) = .ok .undecided) :
    t.ScanKeepsEscapes pos (r.map fun m => m.closing.offset) (i + 1) := by
  refine Text.keepsEscapes_of_not_escapesFeed fun j hj => ?_
  refine h.forward b hb i rfl ho hglance j hj.1 fun m hm => hj.2 _ ?_
  rw [hm, Option.map_some]

theorem KeepsFeeds.windowKeepsEscapes {pos : Nat → Nat} {last : Nat}
    (h : KeepsFeeds table t (last + 2) r) (hb : b ∈ table.brackets)
    (hc : t[last + 1]? = some b.closer) (hglance : t.glanceBackward b last = .ok .undecided)
    (n : Nat) (hn : t.ReadsWindow b last n) :
    t.WindowKeepsEscapes pos last (t.windowStart 0 (t.lineStart (last + 1)) n) :=
  Text.keepsEscapes_of_not_escapesFeed fun j hj =>
    h.backward b hb last rfl hc hglance n hn j hj.1 hj.2

/-- No search is in danger in a text where no line ends with a backslash. -/
theorem keepsFeeds_of_forall (h : ∀ i, t[i]? = some '\\' → t[i + 1]? ≠ some '\n') (caret : Nat) :
    KeepsFeeds table t caret r where
  forward _ _ _ _ _ _ _ _ _ := fun ⟨_, _, _, hback, hfeed⟩ => h _ hback hfeed
  backward _ _ _ _ _ _ _ _ _ _ _ := fun ⟨_, _, _, hback, hfeed⟩ => h _ hback hfeed

/-- At a character that is no bracket there is no match. -/
theorem yields_matchBefore_of_lookup_eq_none (hget : t[i]? = some c) (hl : table.lookup c = none) :
    Yields (table.matchBefore t (i + 1)) none := by
  refine yields_matchBefore_of_partnerOf (r := none) (Text.lt_size_of_getElem? hget) ?_
  rw [partnerOf, Text.read_eq_ok_iff.mpr hget]
  simp only [bind, Except.bind, hl]
  exact .quiet none

theorem yields_matchBefore_of_size_le (h : t.size ≤ i) :
    Yields (table.matchBefore t (i + 1)) none := by
  rw [matchBefore, matchAt, if_neg (Nat.not_lt.mpr h)]
  exact ⟨_, rfl⟩

/-- **A search does not care how lines end**, as long as no escape stands in its way. -/
theorem matchBefore_toCRLF (table : BracketTable) (t : Text) (caret : Nat) :
    ∃ r, Yields (table.matchBefore t caret) r ∧
      (KeepsFeeds table t caret r →
        Yields (table.matchBefore t.toCRLF (t.crlfOffset caret))
          (r.map (Match.map t.crlfOffset))) := by
  obtain ⟨r, hr⟩ := (ensures_matchBefore table t caret).exists_yields
  refine ⟨r, hr, fun hkeeps => ?_⟩
  cases caret with
  | zero =>
    obtain rfl := hr.unique ⟨_, rfl⟩
    exact ⟨_, rfl⟩
  | succ i =>
    by_cases hlt : i < t.size
    · have hget : t[i]? = some t[i] := Array.getElem?_eq_getElem hlt
      rcases hl : table.lookup t[i] with _ | ⟨d, b⟩
      · obtain rfl := hr.unique (yields_matchBefore_of_lookup_eq_none hget hl)
        obtain ⟨n, hn, hget'⟩ := Text.exists_getElem?_toCRLF hget
        rw [hn]
        exact yields_matchBefore_of_lookup_eq_none hget' hl
      · obtain ⟨hb, ⟨rfl, hc⟩ | ⟨rfl, hc⟩⟩ := mem_of_lookup hl
        · have ho : t[i]? = some b.opener := hc ▸ hget
          exact matchBefore_opener_pos (t.transcript_toCRLF b) hb ho
            (hkeeps.scanKeepsEscapes hb ho) hr
        · have hcloser : t[i]? = some b.closer := hc ▸ hget
          cases i with
          | zero =>
            obtain rfl := hr.unique (yields_matchBefore_closer_zero hb hcloser)
            have hne := Text.ne_lineFeed_of_plain hcloser (usable_of_mem hb).closer_plain
            rw [Text.crlfOffset_succ_of_ne hne]
            exact yields_matchBefore_closer_zero hb
              ((Text.getElem?_toCRLF_of_ne hne).trans hcloser)
          | succ l =>
            exact matchBefore_closer_pos (t.transcript_toCRLF b) hb rfl (Text.upTo_none _) hcloser
              (hkeeps.windowKeepsEscapes hb hcloser) hr
    · have hsize : t.size ≤ i := Nat.le_of_not_lt hlt
      obtain rfl := hr.unique (yields_matchBefore_of_size_le hsize)
      have hne : t[i]? ≠ some '\n' := fun hfeed => hlt (Text.lt_size_of_getElem? hfeed)
      have hsize' := (t.transcript_toCRLF ⟨'(', ')'⟩).size_le_pos (Text.upTo_none i) hsize
      rw [Text.crlfOffset_succ_of_ne hne]
      exact yields_matchBefore_of_size_le hsize'

/-- A call with a verbatim string, in which no backslash escapes, on two lines. -/
def verbatimCallText : Text := .ofString "(@\"\\\n\" /*\n*/)"

/-- An opener in a string, and another string that is continued on the next line. -/
def quotedOpenerText : Text := .ofString "\"(\" \"\\\n\""

theorem matchBefore_toCRLF_verbatimCallText :
    (verbatimCallText.glanceForward ⟨'(', ')'⟩ 1 = .ok .undecided ∧
      KeepsFeeds standard verbatimCallText 1 (some ⟨⟨0, 1⟩, ⟨12, 1⟩⟩)) ∧
    Yields (standard.matchBefore verbatimCallText.toCRLF 1) (some ⟨⟨0, 1⟩, ⟨14, 1⟩⟩) ∧
    (quotedOpenerText.EscapesFeed 0 5 ∧ KeepsFeeds standard quotedOpenerText 2 none) ∧
    Yields (standard.matchBefore quotedOpenerText.toCRLF 2) none := by
  have hkeeps : KeepsFeeds standard verbatimCallText 1 (some ⟨⟨0, 1⟩, ⟨12, 1⟩⟩) := by
    have hescapes : ∀ i < 13, ¬ verbatimCallText.EscapesFeed 0 i := by decide +kernel
    refine ⟨fun b _ o ho _ _ i _ hi => ?_, fun b _ last hlast => by omega⟩
    obtain rfl : o = 0 := by omega
    exact hescapes i ((hi _ rfl).trans (by decide))
  have hkeeps' : KeepsFeeds standard quotedOpenerText 2 none := by
    have hescapes : ∀ i < 3, ¬ quotedOpenerText.EscapesFeed 0 i := by decide +kernel
    have hsite : quotedOpenerText.siteAt (quotedOpenerText.lineStart 2) 2 =
        .ok (.literal ⟨true, false, false, false, false⟩) := by decide +kernel
    have hopener : quotedOpenerText[1]? = some '(' := by decide +kernel
    have hb : ⟨'(', ')'⟩ ∈ standard.brackets := by decide
    refine ⟨fun b _ o ho _ _ i hgets _ => ?_, fun b hb' last hlast hc => ?_⟩
    · -- Behind the string of the opener, the scan has ended.
      obtain rfl : o = 1 := by omega
      obtain ⟨site, region, ctx, hsite', hregion, hstay⟩ := hgets
      obtain rfl := Except.ok.inj (hsite.symm.trans hsite')
      obtain ⟨rfl, -⟩ := Prod.mk.inj (Option.some.inj hregion)
      refine hescapes i (Nat.lt_of_not_le fun hi => ?_)
      exact absurd ((hstay rfl).mono (le_refl 2) hi) (by decide +kernel)
    · obtain rfl : last = 0 := by omega
      exact absurd (Option.some.inj (hopener.symm.trans hc)) (opener_ne_closer hb hb')
  obtain ⟨r, hr, hcrlf⟩ := matchBefore_toCRLF standard verbatimCallText 1
  obtain rfl : r = some ⟨⟨0, 1⟩, ⟨12, 1⟩⟩ := hr.unique (by decide +kernel)
  obtain ⟨r', hr', hcrlf'⟩ := matchBefore_toCRLF standard quotedOpenerText 2
  obtain rfl : r' = none := hr'.unique (by decide +kernel)
  exact ⟨⟨by decide +kernel, hkeeps⟩, hcrlf hkeeps, ⟨by decide +kernel, hkeeps'⟩, hcrlf' hkeeps'⟩

/-- A string that is continued on the next line, where a closer stands in it. -/
def continuedStringText : Text := .ofString "(\"\\\n)\")"

/-- Line endings do matter behind a backslash in a string. -/
theorem not_forall_matchBefore_toCRLF :
    ¬ ∀ (table : BracketTable) (t : Text) (caret : Nat), '\r' ∉ t → caret ≤ t.size →
      ∃ r, Yields (table.matchBefore t caret) r ∧
        Yields (table.matchBefore t.toCRLF (t.crlfOffset caret))
          (r.map (Match.map t.crlfOffset)) := by
  intro h
  obtain ⟨r, hr, hcrlf⟩ := h standard continuedStringText 1 (by decide +kernel) (by decide +kernel)
  obtain rfl : r = some ⟨⟨0, 1⟩, ⟨6, 1⟩⟩ := hr.unique (by decide +kernel)
  exact absurd hcrlf (by decide +kernel)

end BracketTable

end BracketMatching
