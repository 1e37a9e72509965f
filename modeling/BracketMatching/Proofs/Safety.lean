/-
Safety: no reading of a text breaks off, and a match is what it claims to be.

Every reader answers in `Except Fault`, and there are two ways to break off: to read
past the end, and to lower a depth of zero.  In a search none of them happens, whatever
the text, the bracket and the offset (`BracketTable.matchBefore_safe`); and the match of
the bracket before a caret is made of an opener and a closer of one bracket of the table,
in this order and inside the text (`Match.FitsBefore`).

The glances and scans can be called by themselves, too.  They do not break off either,
with one exception: the backward scan adds to the offset that it is given before it looks
whether the text reaches that far, and so takes the last word of the machine for the
offset before the text (`Text.exists_openerBefore_eq_pastEnd`).

* `Ensures` — a reading succeeds, with an answer that satisfies a postcondition;
* `Text.Locates` — an offset that was found lies in a range, and holds a character;
* `Text.ensures_glanceForwardFrom`, `Text.ensures_glanceBelow`, `Text.ensures_siteFrom`,
  `Text.ensures_closerFrom`, `Text.ensures_readWindowFrom`, `Text.ensures_openerWidening`
  — one for each loop: it reads under its own guard, closes a bracket only while one is
  open, and locates the character that it looks for.

Design note: nothing is asked of the two characters of a bracket here.  They may be equal
and they may be marks; a loop never gets lost over that.
-/
import BracketMatching.Proofs.Search
import BracketMatching.Proofs.WindowReading

namespace BracketMatching

/-- The reading does not break off, and its answer satisfies `post`. -/
def Ensures {α : Type} (answer : Except Fault α) (post : α → Prop) : Prop :=
  ∃ a, answer = .ok a ∧ post a

namespace Ensures

variable {α β : Type} {answer : Except Fault α} {post post' : α → Prop}

theorem ok {a : α} (h : post a) : Ensures (.ok a) post :=
  ⟨a, rfl, h⟩

theorem exists_eq_ok (h : Ensures answer post) : ∃ a, answer = .ok a := by
  obtain ⟨a, ha, -⟩ := h
  exact ⟨a, ha⟩

theorem of_eq_ok {a : α} (h : Ensures answer post) (ha : answer = .ok a) : post a := by
  obtain ⟨a', ha', hpost⟩ := h
  exact Except.ok.inj (ha'.symm.trans ha) ▸ hpost

/-- A search that does not break off yields a result. -/
theorem exists_yields {search : Except Fault (Traced α)} {post : Traced α → Prop}
    (h : Ensures search post) : ∃ r, Yields search r := by
  obtain ⟨found, hfound, -⟩ := h
  exact ⟨found.result, found.events, hfound⟩

theorem of_yields {search : Except Fault (Traced α)} {r : α}
    (h : Ensures search fun found => post found.result) (hr : Yields search r) : post r := by
  obtain ⟨events, hfound⟩ := hr
  exact h.of_eq_ok hfound

/-- What is done with the answer of a reading that does not break off. -/
theorem bind {f : α → Except Fault β} {goal : β → Prop} (h : Ensures answer post)
    (hf : ∀ a, post a → Ensures (f a) goal) : Ensures (answer >>= f) goal := by
  obtain ⟨a, rfl, ha⟩ := h
  exact hf a ha

theorem imp (h : Ensures answer post) (himp : ∀ a, post a → post' a) : Ensures answer post' := by
  obtain ⟨a, ha, hpost⟩ := h
  exact ⟨a, ha, himp a hpost⟩

/-- A reading that goes on only if a look at something comes out negative. -/
theorem of_look {look : Except Fault Bool} {a : α} (hlook : Ensures look fun _ => True)
    (ha : post a) (hrest : Ensures answer post) :
    Ensures (do if ← look then return a else answer) post := by
  refine hlook.bind fun seen _ => ?_
  cases seen with
  | true => exact .ok ha
  | false => exact hrest

end Ensures

/-- Where a bracket is open, one can be closed. -/
theorem ensures_lower {depth : Nat} (h : 0 < depth) :
    Ensures (lower depth) fun left => left + 1 = depth := by
  obtain ⟨left, rfl⟩ := Nat.exists_eq_succ_of_ne_zero (Nat.ne_of_gt h)
  exact .ok rfl

/-- The offset that a glance hits. -/
def Glance.offset? : Glance → Option Nat
  | .hit offset => some offset
  | .absent | .undecided => none

/-- The offset of the opener that a window shows. -/
def Verdict.offset? : Verdict → Option Nat
  | .opener offset => some offset
  | .noOpener | .outOfContext | .falseStart => none

namespace Text

variable {t : Text} {b : Bracket} {region : Region} {ctx : Context} {c : Char}
  {depth pending i n offset w last round start lo hi : Nat} {stack : List Nat}

/-- The offset, if one was found, lies from `lo` on and before `hi`, and holds `c`. -/
def Locates (t : Text) (c : Char) (lo hi : Nat) (found : Option Nat) : Prop :=
  ∀ k, found = some k → lo ≤ k ∧ k < hi ∧ t[k]? = some c

theorem locates_none : t.Locates c lo hi none :=
  nofun

theorem locates_some (hlo : lo ≤ i) (hhi : i < hi) (h : t[i]? = some c) :
    t.Locates c lo hi (some i) := by
  rintro k ⟨⟩
  exact ⟨hlo, hhi, h⟩

theorem Locates.mono {found : Option Nat} {lo' hi' : Nat} (h : t.Locates c lo hi found)
    (hlo : lo' ≤ lo) (hhi : hi ≤ hi') : t.Locates c lo' hi' found := by
  intro k hk
  obtain ⟨h1, h2, h3⟩ := h k hk
  exact ⟨hlo.trans h1, h2.trans_le hhi, h3⟩

/-! ### Single reads -/

theorem ensures_read (h : i < t.size) : Ensures (t.read i) fun c => t[i]? = some c :=
  ⟨t[i], read_of_lt h, Array.getElem?_eq_getElem h⟩

theorem ensures_step (h : i < t.size) : Ensures (t.step ctx i) fun _ => True :=
  ⟨_, step_of_lt h, trivial⟩

theorem ensures_marksAt (h : i < t.size) : Ensures (t.marksAt i) fun _ => True :=
  (ensures_read h).bind fun _ _ => .ok trivial

theorem ensures_marksWithin (h : i + n ≤ t.size) : Ensures (t.marksWithin i n) fun _ => True := by
  induction n generalizing i with
  | zero => exact .ok trivial
  | succ n ih => exact .of_look (ensures_marksAt (by omega)) trivial (ih (by omega))

theorem ensures_marksAround (h : i < t.size) : Ensures (t.marksAround i) fun _ => True := by
  cases i with
  | zero => exact ensures_marksAt h
  | succ i => exact .of_look (ensures_marksAt h) trivial (ensures_marksAt (Nat.lt_of_succ_lt h))

/-! ### Glances -/

theorem ensures_glanceForwardFrom (hd : 0 < depth) :
    Ensures (t.glanceForwardFrom b depth i) fun glance =>
      t.Locates b.closer i t.size glance.offset? := by
  fun_induction t.glanceForwardFrom b depth i with
  | case1 depth i hlt ihopen ihclose ihpass =>
    have hnext : ∀ glance : Glance, t.Locates b.closer (i + 1) t.size glance.offset? →
        t.Locates b.closer i t.size glance.offset? := fun _ h => h.mono (Nat.le_succ i) (le_refl _)
    refine (ensures_read hlt).bind fun c hc => ?_
    by_cases hopen : c = b.opener
    · rw [if_pos hopen]
      exact (ihopen (Nat.succ_pos depth)).imp hnext
    · rw [if_neg hopen]
      by_cases hclose : c = b.closer
      · rw [if_pos hclose]
        refine (ensures_lower hd).bind fun left _ => ?_
        by_cases hzero : left = 0
        · rw [if_pos hzero]
          exact .ok (locates_some (le_refl i) hlt (hclose ▸ hc))
        · rw [if_neg hzero]
          exact (ihclose left (Nat.pos_of_ne_zero hzero)).imp hnext
      · rw [if_neg hclose]
        exact .of_look (ensures_marksAt hlt) locates_none ((ihpass hd).imp hnext)
  | case2 depth i hge => exact .ok locates_none

theorem ensures_glanceBelow (hn : n ≤ t.size) (hp : 0 < pending) :
    Ensures (t.glanceBelow b pending n) fun glance => t.Locates b.opener 0 n glance.offset? := by
  induction n generalizing pending with
  | zero => exact .ok locates_none
  | succ i ih =>
    have hnext : ∀ glance : Glance, t.Locates b.opener 0 i glance.offset? →
        t.Locates b.opener 0 (i + 1) glance.offset? := fun _ h => h.mono (le_refl 0) (Nat.le_succ i)
    have hi : i ≤ t.size := Nat.le_of_succ_le hn
    rw [glanceBelow]
    refine (ensures_read hn).bind fun c hc => ?_
    by_cases hclose : c = b.closer
    · rw [if_pos hclose]
      exact (ih hi (Nat.succ_pos pending)).imp hnext
    · rw [if_neg hclose]
      by_cases hopen : c = b.opener
      · rw [if_pos hopen]
        refine (ensures_lower hp).bind fun left _ => ?_
        by_cases hzero : left = 0
        · rw [if_pos hzero]
          exact .ok (locates_some (Nat.zero_le i) (Nat.lt_succ_self i) (hopen ▸ hc))
        · rw [if_neg hzero]
          exact (ih hi (Nat.pos_of_ne_zero hzero)).imp hnext
      · rw [if_neg hopen]
        by_cases hfeed : c = '\n'
        · have hstart := t.lineStart_le_self i
          rw [if_pos hfeed]
          exact .of_look (ensures_marksWithin (by omega)) locates_none ((ih hi hp).imp hnext)
        · rw [if_neg hfeed]
          exact .of_look (ensures_marksAround hn) locates_none ((ih hi hp).imp hnext)

theorem ensures_glanceForward :
    Ensures (t.glanceForward b start) fun glance =>
      t.Locates b.closer start t.size glance.offset? :=
  ensures_glanceForwardFrom Nat.one_pos

theorem ensures_glanceBackward :
    Ensures (t.glanceBackward b last) fun glance =>
      t.Locates b.opener 0 (last + 1) glance.offset? := by
  rw [glanceBackward]
  split
  · next hlast => exact ensures_glanceBelow hlast Nat.one_pos
  · exact .ok locates_none

/-! ### Scans -/

theorem ensures_siteFrom (ho : offset ≤ t.size) :
    Ensures (t.siteFrom offset ctx i) fun _ => True := by
  fun_induction t.siteFrom offset ctx i with
  | case1 ctx i hlt hstray => exact .ok trivial
  | case2 ctx i hlt hstray ih => exact (ensures_step (by omega)).bind fun s _ => ih s
  | case3 ctx i hge => exact .ok trivial

theorem ensures_closerFrom (hd : 0 < depth) :
    Ensures (t.closerFrom b region depth ctx i) fun found =>
      t.Locates b.closer i t.size found := by
  fun_induction t.closerFrom b region depth ctx i with
  | case1 depth ctx i hlt ihopen ihclose ihstep =>
    have hnext : ∀ found, t.Locates b.closer (i + 1) t.size found →
        t.Locates b.closer i t.size found := fun _ h => h.mono (Nat.le_succ i) (le_refl _)
    refine (ensures_read hlt).bind fun c hc => ?_
    by_cases hcount : (b.has c && region.admits ctx) = true
    · rw [if_pos hcount]
      by_cases hopen : c = b.opener
      · rw [if_pos hopen]
        exact (ihopen (Nat.succ_pos depth)).imp hnext
      · have hclose : c = b.closer :=
          (Bracket.has_iff.mp (Bool.and_eq_true_iff.mp hcount).1).resolve_left hopen
        rw [if_neg hopen]
        refine (ensures_lower hd).bind fun left _ => ?_
        by_cases hzero : left = 0
        · rw [if_pos hzero]
          exact .ok (locates_some (le_refl i) hlt (hclose ▸ hc))
        · rw [if_neg hzero]
          exact (ihclose left (Nat.pos_of_ne_zero hzero)).imp hnext
    · rw [if_neg hcount]
      refine (ensures_step hlt).bind fun s _ => ?_
      by_cases hleft : region = .literal ∧ s.next.inLiteral = false
      · rw [if_pos hleft]
        exact .ok locates_none
      · rw [if_neg hleft]
        exact (ihstep s hd).imp fun _ h => h.mono (Nat.le_add_right i _) (le_refl _)
  | case2 depth ctx i hge => exact .ok locates_none

/-- The stack holds openers that the window has passed. -/
theorem ensures_readWindowFrom (hlast : last < t.size)
    (hstack : ∀ k ∈ stack, k ≤ last ∧ t[k]? = some b.opener) :
    Ensures (t.readWindowFrom b region w last stack ctx i) fun verdict =>
      t.Locates b.opener 0 (last + 1) verdict.offset? := by
  fun_induction t.readWindowFrom b region w last stack ctx i with
  | case1 stack ctx i hi ihcount ihstep =>
    refine (ensures_read (hi.trans_lt hlast)).bind fun c hc => ?_
    by_cases hcount : (b.has c && region.admits ctx) = true
    · rw [if_pos hcount]
      refine ihcount c fun k hk => ?_
      split at hk
      · next hopen =>
        rcases List.mem_cons.mp hk with rfl | hk
        · exact ⟨hi, hopen ▸ hc⟩
        · exact hstack k hk
      · exact hstack k (List.mem_of_mem_tail hk)
    · rw [if_neg hcount]
      by_cases hstray : (ctx.isCode && t.closesBlockAt i) = true
      · rw [if_pos hstray]
        refine .ok ?_
        split <;> exact locates_none
      · rw [if_neg hstray]
        refine (ensures_step (hi.trans_lt hlast)).bind fun s _ => ?_
        split
        · exact .ok locates_none
        · refine ihstep s fun k hk => hstack k ?_
          split at hk
          · exact absurd hk List.not_mem_nil
          · exact hk
  | case2 stack ctx i hi hout => exact .ok locates_none
  | case3 ctx i hi hout offset rest =>
    obtain ⟨hle, hget⟩ := hstack offset List.mem_cons_self
    exact .ok (locates_some (Nat.zero_le _) (Nat.lt_succ_of_le hle) hget)
  | case4 ctx i hi hout => exact .ok locates_none

theorem ensures_readWindow (hlast : last < t.size) :
    Ensures (t.readWindow b region w last) fun verdict =>
      t.Locates b.opener 0 (last + 1) verdict.offset? :=
  ensures_readWindowFrom hlast fun _ hk => absurd hk List.not_mem_nil

/-- The windows are all read, up to the one that decides. -/
theorem ensures_openerWidening (hlast : last < t.size) :
    Ensures (t.openerWidening b last round w) fun found =>
      t.Locates b.opener 0 (last + 1) found.result := by
  induction w using Nat.strong_induction_on generalizing round with
  | _ w ih =>
  rw [openerWidening.eq_def]
  refine (ensures_readWindow hlast).bind fun verdict hverdict => ?_
  have hwider : Ensures
      (if h : w = 0 then return .quiet none
        else do
          let wider := t.widerStart round w
          return (← t.openerWidening b last (round + 1) wider).after (.widened wider last))
      fun found : Traced (Option Nat) => t.Locates b.opener 0 (last + 1) found.result := by
    split
    · exact .ok locates_none
    · next hw => exact (ih _ (t.widerStart_lt round hw)).bind fun found hfound => .ok hfound
  cases verdict with
  | opener k => exact .ok hverdict
  | outOfContext => exact .ok locates_none
  | noOpener => exact hwider
  | falseStart => exact hwider

theorem ensures_closerAfter :
    Ensures (t.closerAfter b start) fun found => t.Locates b.closer start t.size found.result := by
  rw [closerAfter]
  split
  · next hlt =>
    refine (ensures_siteFrom hlt.le).bind fun site _ => ?_
    split
    · exact (ensures_closerFrom Nat.one_pos).bind fun found hfound => .ok hfound
    · exact .ok locates_none
  · exact .ok locates_none

/-- The one scan that does not look first whether it starts inside the text is right from
any word but the last. -/
theorem ensures_openerBefore (hnext : last < t.size ∨ last + 1 < UInt64.size) :
    Ensures (t.openerBefore b last) fun found =>
      t.Locates b.opener 0 (last + 1) found.result := by
  by_cases hlt : last + 1 < t.size
  · have hlast : last < t.size := Nat.lt_of_succ_lt hlt
    obtain ⟨site, hsite⟩ : ∃ site, t.siteAt (t.lineStart (last + 1)) (last + 1) = .ok site :=
      (ensures_siteFrom hlt.le).exists_eq_ok
    rw [openerBefore_of_siteAt hlt hsite]
    split
    · exact ensures_openerWidening hlast
    · refine (ensures_readWindow hlast).bind fun verdict hverdict => ?_
      cases verdict with
      | opener k => exact .ok hverdict
      | noOpener => exact .ok locates_none
      | outOfContext => exact .ok locates_none
      | falseStart => exact .ok locates_none
    · exact .ok locates_none
  · rw [openerBefore_of_size_le (Nat.le_of_not_lt hlt) hnext]
    exact .ok locates_none

/-! ### Readings past the end -/

/-- A reading from the beginning that is to go on behind the text breaks off at its end,
unless a stray end of a block comment stops it before. -/
theorem readWindowFrom_pastEnd (hb : b.Usable) (hlast : t.size < last)
    (hstray : t.NoStrayEnd 0 0 t.size) (h : t.Visits 0 i ctx) (hi : i ≤ t.size + 1) :
    ∃ j, t.readWindowFrom b .code 0 last stack ctx i = .error (.pastEnd j) := by
  induction hn : t.size + 1 - i using Nat.strong_induction_on generalizing i ctx stack with
  | _ n ih =>
  have hil : i ≤ last := hi.trans hlast
  by_cases hlt : i < t.size
  · have hget : t[i]? = some t[i] := Array.getElem?_eq_getElem hlt
    rcases hcount : b.has t[i] && Region.code.admits ctx with _ | _
    · obtain ⟨s, hs⟩ : ∃ s, t.step ctx i = .ok s := ⟨_, step_of_lt hlt⟩
      have hpos := s.consumed_pos
      have hle := consumed_le_two hs
      have hopen : (ctx.isCode && t.closesBlockAt i) = false := by
        rcases hc : ctx.isCode with _ | _
        · rfl
        · rw [hstray i i.zero_le hlt ⟨ctx, h, hc⟩, Bool.and_false]
      rw [readWindowFrom_of_step hil hget hcount hopen hs, bne_self_eq_false, Bool.and_false,
        if_neg Bool.false_ne_true]
      exact ih _ (by omega) (h.step hs) (by omega) rfl
    · have hplain := hb.plain_of_has (Bool.and_eq_true_iff.mp hcount).1
      rw [readWindowFrom_of_bracket hil hget hcount]
      exact ih _ (by omega) (h.step (step_of_plain hget hplain)) (by omega) rfl
  · have hread := read_eq_error_iff.mpr ⟨Nat.le_of_not_lt hlt, rfl⟩
    refine ⟨i, ?_⟩
    rw [readWindowFrom.eq_def, if_pos hil, hread]
    rfl

/-- **From the last word of the machine the backward scan reads past the end**: it takes
the word to be just before the beginning of the text. -/
theorem exists_openerBefore_eq_pastEnd (hb : b.Usable) (hpos : 0 < t.size)
    (hsize : t.size + 1 < UInt64.size) (hstray : t.NoStrayEnd 0 0 t.size) :
    ∃ j, t.openerBefore b (UInt64.size - 1) = .error (.pastEnd j) := by
  have hlast : t.size < UInt64.size - 1 := by omega
  have hnext : t.nextOffset (UInt64.size - 1) = 0 := if_neg (Nat.not_lt.mpr hlast.le)
  have hline : t.lineStart 0 = 0 := Nat.le_zero.mp (t.lineStart_le_self 0)
  have hsite : t.siteAt 0 0 = .ok .code :=
    siteAt_of_visitsCode (t.visitsCode_self 0) fun _ _ h => absurd h (Nat.not_lt_zero _)
  obtain ⟨j, hj⟩ : ∃ j, t.readWindow b .code 0 (UInt64.size - 1) = .error (.pastEnd j) :=
    readWindowFrom_pastEnd hb hlast hstray .here (Nat.zero_le _)
  have hwidening : t.openerWidening b (UInt64.size - 1) 0 0 = .error (.pastEnd j) := by
    rw [openerWidening.eq_def, hj]
    rfl
  refine ⟨j, ?_⟩
  simp only [openerBefore, hnext, if_pos hpos, hline, hsite]
  exact hwidening

/-! ### Searches -/

theorem ensures_partnerAfter :
    Ensures (t.partnerAfter b start) fun found => t.Locates b.closer start t.size found.result := by
  refine ensures_glanceForward.bind fun glance hglance => ?_
  cases glance with
  | hit k => exact .ok hglance
  | absent => exact .ok locates_none
  | undecided => exact ensures_closerAfter.bind fun found hfound => .ok hfound

theorem ensures_partnerBefore :
    Ensures (t.partnerBefore b last) fun found =>
      t.Locates b.opener 0 (last + 1) found.result := by
  by_cases hlast : last < t.size
  · refine ensures_glanceBackward.bind fun glance hglance => ?_
    cases glance with
    | hit k => exact .ok hglance
    | absent => exact .ok locates_none
    | undecided =>
      exact (ensures_openerBefore (.inl hlast)).bind fun found hfound => .ok hfound
  · rw [partnerBefore, glanceBackward, if_neg hlast]
    exact .ok locates_none

end Text

/-- What the match of the bracket before a caret looks like. -/
structure Match.FitsBefore (found : Match) (table : BracketTable) (t : Text) (caret : Nat) :
    Prop where
  opening_length : found.opening.length = 1
  closing_length : found.closing.length = 1
  lt : found.opening.offset < found.closing.offset
  lt_size : found.closing.offset < t.size
  /-- The two characters are those of one bracket. -/
  exists_bracket : ∃ b ∈ table.brackets,
    t[found.opening.offset]? = some b.opener ∧ t[found.closing.offset]? = some b.closer
  /-- An opener before the caret is the one that opens the match. -/
  of_opener : ∀ b ∈ table.brackets, ∀ i, caret = i + 1 → t[i]? = some b.opener →
    found.opening.offset = i
  /-- A closer before the caret is the one that closes it. -/
  of_closer : ∀ b ∈ table.brackets, ∀ i, caret = i + 1 → t[i]? = some b.closer →
    found.closing.offset = i

namespace BracketTable

variable {table : BracketTable} {t : Text} {b : Bracket} {i : Nat}

theorem opener_ne_closer {b b' : Bracket} (hb : b ∈ table.brackets) (hb' : b' ∈ table.brackets) :
    b.opener ≠ b'.closer :=
  (List.nodup_append.mp table.nodup).2.2 _ (List.mem_map_of_mem hb) _ (List.mem_map_of_mem hb')

theorem fitsBefore_opener {k : Nat} (hb : b ∈ table.brackets) (ho : t[i]? = some b.opener)
    (hk : t.Locates b.closer (i + 1) t.size (some k)) :
    (Match.ofOffsets i k).FitsBefore table t (i + 1) := by
  obtain ⟨hik, hlt, hk⟩ := hk k rfl
  rw [Match.ofOffsets_of_lt hik]
  refine ⟨rfl, rfl, hik, hlt, ⟨b, hb, ho, hk⟩, ?_, ?_⟩
  · rintro b' - j hj -
    exact Nat.succ.inj hj
  · rintro b' hb' j hj hcloser
    obtain rfl := Nat.succ.inj hj
    exact absurd (Option.some.inj (ho.symm.trans hcloser)) (opener_ne_closer hb hb')

theorem fitsBefore_closer {k : Nat} (hb : b ∈ table.brackets) (hc : t[i]? = some b.closer)
    (hk : t.Locates b.opener 0 i (some k)) :
    (Match.ofOffsets i k).FitsBefore table t (i + 1) := by
  obtain ⟨-, hki, hk⟩ := hk k rfl
  rw [Match.ofOffsets_of_gt hki]
  refine ⟨rfl, rfl, hki, Text.lt_size_of_getElem? hc, ⟨b, hb, hk, hc⟩, ?_, ?_⟩
  · rintro b' hb' j hj hopener
    obtain rfl := Nat.succ.inj hj
    exact absurd (Option.some.inj (hopener.symm.trans hc)) (opener_ne_closer hb' hb)
  · rintro b' - j hj -
    exact Nat.succ.inj hj

theorem ensures_partnerOf (hi : i < t.size) :
    Ensures (table.partnerOf t i) fun found =>
      ∀ k, found.result = some k → (Match.ofOffsets i k).FitsBefore table t (i + 1) := by
  refine (Text.ensures_read hi).bind fun c hc => ?_
  rcases hl : table.lookup c with _ | ⟨d, b⟩
  · exact .ok nofun
  · obtain ⟨hb, ⟨rfl, rfl⟩ | ⟨rfl, rfl⟩⟩ := mem_of_lookup hl
    · exact Text.ensures_partnerAfter.imp fun found hfound k hk =>
        fitsBefore_opener hb hc (hk ▸ hfound)
    · cases i with
      | zero => exact .ok nofun
      | succ last =>
        exact Text.ensures_partnerBefore.imp fun found hfound k hk =>
          fitsBefore_closer hb hc (hk ▸ hfound)

theorem ensures_matchBefore (table : BracketTable) (t : Text) (caret : Nat) :
    Ensures (table.matchBefore t caret) fun found =>
      ∀ m, found.result = some m → m.FitsBefore table t caret := by
  cases caret with
  | zero =>
    refine .ok ?_
    rintro m ⟨⟩
  | succ i =>
    suffices hat : Ensures (table.matchAt t i) fun found =>
        ∀ m, found.result = some m → m.FitsBefore table t (i + 1) from
      hat.bind fun found hfound => .ok hfound
    rw [matchAt]
    split
    · next hi =>
      refine (ensures_partnerOf hi).bind fun found hfound => .ok fun m hm => ?_
      obtain ⟨k, hk, rfl⟩ := Option.map_eq_some_iff.mp hm
      exact hfound k hk
    · refine .ok ?_
      rintro m ⟨⟩

/-- **Searching is safe**, for every text and at every offset: a search has a result, and
a match that it finds is one.  Neither the glances nor the scans break off, for any two
characters as a bracket, but for the backward scan from the last word of all. -/
theorem matchBefore_safe (table : BracketTable) (t : Text) (caret : Nat) :
    (∃ r, Yields (table.matchBefore t caret) r ∧
      ∀ m, r = some m → m.FitsBefore table t caret) ∧
    ∀ (b : Bracket) (start : Nat),
      (∃ glance, t.glanceForward b start = .ok glance) ∧
      (∃ glance, t.glanceBackward b start = .ok glance) ∧
      (∃ found, t.closerAfter b start = .ok found) ∧
      (start + 1 < UInt64.size → ∃ found, t.openerBefore b start = .ok found) := by
  constructor
  · obtain ⟨found, h, hfits⟩ := ensures_matchBefore table t caret
    exact ⟨found.result, ⟨found.events, h⟩, hfits⟩
  · intro b start
    exact ⟨Text.ensures_glanceForward.exists_eq_ok, Text.ensures_glanceBackward.exists_eq_ok,
      Text.ensures_closerAfter.exists_eq_ok,
      fun hnext => (Text.ensures_openerBefore (.inr hnext)).exists_eq_ok⟩

/-- A text of one character. -/
def letterText : Text := .ofString "a"

/-- From the last word, the backward scan is not safe. -/
theorem not_forall_openerBefore_eq_ok :
    ¬ ∀ (t : Text) (b : Bracket) (start : Nat), start < UInt64.size →
      ∃ found, t.openerBefore b start = .ok found := by
  intro h
  have hb : (⟨'(', ')'⟩ : Bracket).Usable := by constructor <;> decide
  obtain ⟨found, hfound⟩ := h letterText ⟨'(', ')'⟩ (UInt64.size - 1) (by decide)
  obtain ⟨j, hj⟩ := Text.exists_openerBefore_eq_pastEnd (t := letterText) hb (by decide +kernel)
    (by decide +kernel) (by decide +kernel)
  exact nomatch hfound.symm.trans hj

end BracketTable

end BracketMatching
