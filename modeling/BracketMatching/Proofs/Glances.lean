/-
What a glance says, in either direction.

A glance reads no contexts, so what it says is about all brackets of the text,
whatever they stand in.  If it is decided, it has met no mark on its way, and it
is right about those brackets:

* `Text.glancesForward` — a glance to the right finds the first closer, behind
  unmarked text;
* `Text.glancesBackward` — a glance to the left finds the last opener, before
  unmarked text, and has checked the whole lines above the one it started on;
* `Text.glanceForward_eq_hit_iff`, `Text.glanceBackward_eq_hit_iff` — which brackets a
  glance hits.

The first two are stated for a glance that has come to some offset with some brackets
open, and for the height that it waits for.
-/
import BracketMatching.Proofs.CodeRun

namespace BracketMatching

/-- A decided glance, with the partner if there is one. -/
def Glance.decided : Option Nat → Glance
  | some offset => .hit offset
  | none => .absent

theorem Glance.decided_injective : Function.Injective Glance.decided := by
  intro r r' h
  cases r <;> cases r' <;> simp_all [Glance.decided]

theorem Glance.decided_ne_undecided (r : Option Nat) : Glance.decided r ≠ .undecided := by
  cases r <;> exact nofun

namespace Text

variable {t : Text} {b : Bracket} {i j depth pending n : Nat} {c : Char} {level : Int}
  {answer : Except Fault Glance}

/-! ### Forward -/

theorem glanceForwardFrom_of_opener (h : t[i]? = some b.opener) :
    t.glanceForwardFrom b depth i = t.glanceForwardFrom b (depth + 1) (i + 1) := by
  rw [glanceForwardFrom, if_pos (lt_size_of_getElem? h), read_eq_ok_iff.mpr h]
  simp only [bind, Except.bind, ↓reduceIte]

theorem glanceForwardFrom_of_closer (hb : b.Usable) (h : t[i]? = some b.closer) :
    t.glanceForwardFrom b (depth + 1) i =
      if depth = 0 then .ok (.hit i) else t.glanceForwardFrom b depth (i + 1) := by
  rw [glanceForwardFrom, if_pos (lt_size_of_getElem? h), read_eq_ok_iff.mpr h]
  simp only [bind, Except.bind, ↓reduceIte, hb.opener_ne_closer.symm, lower_succ]
  rfl

theorem glanceForwardFrom_of_other (h : t[i]? = some c) (hc : b.has c = false) {m : Bool}
    (hm : t.marksAt i = .ok m) :
    t.glanceForwardFrom b depth i =
      if m then .ok .undecided else t.glanceForwardFrom b depth (i + 1) := by
  rw [Bool.eq_false_iff, ne_eq, Bracket.has_iff, not_or] at hc
  rw [glanceForwardFrom, if_pos (lt_size_of_getElem? h), read_eq_ok_iff.mpr h]
  simp only [bind, Except.bind, ↓reduceIte, hc, hm]
  rfl

theorem glanceForwardFrom_of_size_le (h : t.size ≤ i) :
    t.glanceForwardFrom b depth i = .ok .absent := by
  rw [glanceForwardFrom, if_neg (Nat.not_lt.mpr h)]

/-- A forward glance from `i` that waits for a closer at `level` is undecided, if
there is a mark before that, or right about the brackets of the text, with no mark
before the closer that it finds, or in the rest of the text if it finds none. -/
def GlancesForward (t : Text) (b : Bracket) (level : Int) (i : Nat)
    (answer : Except Fault Glance) : Prop :=
  (answer = .ok .undecided ∧
    ∀ k, (t.sides b).FirstCloser level i (some k) → ¬ t.Unmarked i k) ∨
  ∃ r, answer = .ok (.decided r) ∧
    (t.sides b).FirstCloser level i r ∧ t.Unmarked i (r.getD t.size)

theorem glancesForward_undecided (hs : t.sides b i = none) (hm : t.marksAt i = .ok true) :
    t.GlancesForward b level i (.ok .undecided) := by
  refine .inl ⟨rfl, fun k hfirst hum => ?_⟩
  obtain ⟨⟨hik, hk, -⟩, -⟩ := hfirst
  have hne : i ≠ k := by
    rintro rfl
    exact nomatch hs.symm.trans hk
  exact nomatch hm.symm.trans (hum i (le_refl i) (by omega))

theorem GlancesForward.cons (h : t.GlancesForward b level (i + 1) answer)
    (hm : t.marksAt i = .ok false)
    (hs : t.sides b i = some .backward → (t.sides b).height i ≠ level) :
    t.GlancesForward b level i answer := by
  refine h.imp (fun ⟨hu, hmark⟩ => ⟨hu, fun k hk hum => ?_⟩)
    fun ⟨r, hr, hfirst, hum⟩ => ⟨r, hr, hfirst.of_succ hs, hum.cons hm⟩
  exact hmark k (hk.succ hs) (hum.mono (Nat.le_succ i) (le_refl k))

theorem glancesForward_of_size_le (h : t.size ≤ i) :
    t.GlancesForward b level i (.ok .absent) := by
  refine .inr ⟨none, rfl, fun k hk hs => ?_, fun k h1 h2 => ?_⟩
  · rw [sides_of_size_le (h.trans hk)] at hs
    exact nomatch hs
  · exact absurd h2 (Nat.not_lt.mpr (h.trans h1))

theorem glancesForward_hit (hs : t.sides b i = some .backward)
    (hl : (t.sides b).height i = level) : t.GlancesForward b level i (.ok (.hit i)) :=
  .inr ⟨some i, rfl, .here hs hl, fun _ h1 h2 => absurd h1 (Nat.not_le.mpr h2)⟩

/-- **The forward glance** waits for the level that its depth stands for. -/
theorem glancesForward (hb : b.Usable) (hl : (t.sides b).height i = level + depth) :
    t.GlancesForward b level i (t.glanceForwardFrom b (depth + 1) i) := by
  induction hn : t.size - i generalizing depth i with
  | zero =>
    have hi : t.size ≤ i := by omega
    rw [glanceForwardFrom_of_size_le hi]
    exact glancesForward_of_size_le hi
  | succ n ih =>
    have hlt : i < t.size := by omega
    have hget : t[i]? = some t[i] := Array.getElem?_eq_getElem hlt
    have hside := sides_of_getElem? (b := b) hget
    rcases hs : b.side? t[i] with _ | _ | _
    · have hc := Bracket.side?_eq_none.mp hs
      have hm := marksAt_of_getElem? hget
      rw [glanceForwardFrom_of_other hget hc hm]
      rw [hs] at hside
      split
      · next hmark =>
        rw [hmark] at hm
        exact glancesForward_undecided hside hm
      · next hmark =>
        rw [Bool.not_eq_true] at hmark
        rw [hmark] at hm
        have hup := Sides.height_succ_of_none hside
        exact (ih (by omega) (by omega)).cons hm fun h => by rw [hside] at h; exact nomatch h
    · have hc := Bracket.side?_eq_forward.mp hs
      have hm := marksAt_of_has hb hget (Bracket.has_iff.mpr (.inl hc))
      rw [glanceForwardFrom_of_opener (hc ▸ hget)]
      rw [hs] at hside
      have hup := Sides.height_succ_of_forward hside
      exact (ih (by omega) (by omega)).cons hm fun h => by rw [hside] at h; exact nomatch h
    · have hc := (Bracket.side?_eq_backward hb.opener_ne_closer).mp hs
      have hm := marksAt_of_has hb hget (Bracket.has_iff.mpr (.inr hc))
      rw [glanceForwardFrom_of_closer hb (hc ▸ hget)]
      rw [hs] at hside
      have hdown := Sides.height_succ_of_backward hside
      rcases depth with _ | depth
      · exact glancesForward_hit hside (by omega)
      · exact (ih (by omega) (by omega)).cons hm fun _ => by omega

/-- The forward glance from `i` on is right about the brackets of the text. -/
theorem glanceForward_right (hb : b.Usable) (i : Nat) :
    t.GlancesForward b ((t.sides b).height i) i (t.glanceForward b i) :=
  glancesForward hb (Int.add_zero _).symm

/-- A forward glance hits the first closer of all, provided that no mark comes before it. -/
theorem glanceForward_eq_hit_iff (hb : b.Usable) {k : Nat} :
    t.glanceForward b i = .ok (.hit k) ↔
      (t.sides b).FirstCloser ((t.sides b).height i) i (some k) ∧ t.Unmarked i k := by
  obtain ⟨hu, hmark⟩ | ⟨r, hr, hfirst, hm⟩ := glanceForward_right (t := t) hb i
  · rw [hu]
    exact iff_of_false nofun fun ⟨hfirst, hm⟩ => hmark k hfirst hm
  · rw [hr]
    constructor
    · intro h
      obtain rfl : r = some k := Glance.decided_injective (Except.ok.inj h)
      exact ⟨hfirst, hm⟩
    · rintro ⟨hfirst', -⟩
      rw [hfirst.unique hfirst']
      rfl

/-! ### Backward -/

theorem glanceBelow_of_closer (h : t[i]? = some b.closer) :
    t.glanceBelow b pending (i + 1) = t.glanceBelow b (pending + 1) i := by
  rw [glanceBelow, read_eq_ok_iff.mpr h]
  simp only [bind, Except.bind, ↓reduceIte]

theorem glanceBelow_of_opener (hb : b.Usable) (h : t[i]? = some b.opener) :
    t.glanceBelow b (pending + 1) (i + 1) =
      if pending = 0 then .ok (.hit i) else t.glanceBelow b pending i := by
  rw [glanceBelow, read_eq_ok_iff.mpr h]
  simp only [bind, Except.bind, ↓reduceIte, hb.opener_ne_closer, lower_succ]
  rfl

theorem glanceBelow_of_lineFeed (h : t[i]? = some '\n') (hc : b.has '\n' = false) {m : Bool}
    (hm : t.marksWithin (t.lineStart i) (i - t.lineStart i) = .ok m) :
    t.glanceBelow b pending (i + 1) = if m then .ok .undecided else t.glanceBelow b pending i := by
  rw [Bool.eq_false_iff, ne_eq, Bracket.has_iff, not_or] at hc
  rw [glanceBelow, read_eq_ok_iff.mpr h]
  simp only [bind, Except.bind, ↓reduceIte, hc, hm]
  rfl

theorem glanceBelow_of_other (h : t[i]? = some c) (hc : b.has c = false) (hn : c ≠ '\n')
    {m : Bool} (hm : t.marksAround i = .ok m) :
    t.glanceBelow b pending (i + 1) = if m then .ok .undecided else t.glanceBelow b pending i := by
  rw [Bool.eq_false_iff, ne_eq, Bracket.has_iff, not_or] at hc
  rw [glanceBelow, read_eq_ok_iff.mpr h]
  simp only [bind, Except.bind, ↓reduceIte, hc, hn, hm]
  rfl

theorem exists_marksAt (h : i < t.size) : ∃ m, t.marksAt i = .ok m :=
  ⟨_, marksAt_of_getElem? (Array.getElem?_eq_getElem h)⟩

/-- A look around is a look at the offset and the one before. -/
theorem exists_marksAround (h : i < t.size) :
    ∃ m, t.marksAround i = .ok m ∧ (m = false → t.marksAt i = .ok false) ∧
      (m = true → ∃ j, j ≤ i ∧ i ≤ j + 1 ∧ t.marksAt j = .ok true) := by
  cases i with
  | zero =>
    obtain ⟨m, hm⟩ := exists_marksAt h
    exact ⟨m, hm, fun hf => hf ▸ hm, fun ht => ⟨0, le_refl 0, Nat.zero_le 1, ht ▸ hm⟩⟩
  | succ i =>
    obtain ⟨m, hm⟩ := exists_marksAt h
    obtain ⟨m', hm'⟩ := exists_marksAt (t := t) (i := i) (by omega)
    cases m with
    | false =>
      refine ⟨m', ?_, fun _ => hm, fun ht => ⟨i, Nat.le_succ i, le_refl _, ht ▸ hm'⟩⟩
      rw [marksAround, hm]
      exact hm'
    | true =>
      refine ⟨true, ?_, (nomatch ·), fun _ => ⟨i + 1, le_refl _, Nat.le_succ _, hm⟩⟩
      rw [marksAround, hm]
      rfl

theorem exists_marksWithin (n : Nat) (h : i + n ≤ t.size) :
    ∃ m, t.marksWithin i n = .ok m ∧ (m = false ↔ t.Unmarked i (i + n)) := by
  induction n generalizing i with
  | zero =>
    have hnone : t.Unmarked i (i + 0) := fun j h1 h2 => absurd h2 (Nat.not_lt.mpr h1)
    exact ⟨false, rfl, fun _ => hnone, fun _ => rfl⟩
  | succ n ih =>
    obtain ⟨m, hm⟩ := exists_marksAt (t := t) (i := i) (by omega)
    cases m with
    | false =>
      have hlen : i + (n + 1) = i + 1 + n := by omega
      obtain ⟨m', hm', hum⟩ := ih (i := i + 1) (by omega)
      refine ⟨m', ?_, ?_⟩
      · rw [marksWithin, hm]
        exact hm'
      · rw [hum, hlen]
        exact ⟨fun h => h.cons hm, fun h => h.mono (Nat.le_succ i) (le_refl _)⟩
    | true =>
      refine ⟨true, ?_, (nomatch ·), fun hum => ?_⟩
      · rw [marksWithin, hm]
        rfl
      · exact nomatch hm.symm.trans (hum i (le_refl i) (by omega))

/-- Every line that ends between `lo` and `hi` is free of marks. -/
def CleanLines (t : Text) (lo hi : Nat) : Prop :=
  ∀ m, lo ≤ m → m < hi → t[m]? = some '\n' → t.Unmarked (t.lineStart m) m

/-- A backward glance below `n` that waits for an opener with `level` behind it is
undecided, if there is a mark behind that or on the lines above, or right about the
brackets of the text, with no mark behind the opener that it finds or, if it finds
none, at all, and with none on the lines above. -/
def GlancesBackward (t : Text) (b : Bracket) (level : Int) (n : Nat)
    (answer : Except Fault Glance) : Prop :=
  (answer = .ok .undecided ∧ ∀ q, (t.sides b).LastOpener level 0 n (some q) →
    t.Unmarked (q + 1) n → ¬ t.CleanLines (q + 1) n) ∨
  ∃ r, answer = .ok (.decided r) ∧
    (t.sides b).LastOpener level 0 n r ∧
    t.Unmarked ((r.map (· + 1)).getD 0) n ∧ t.CleanLines ((r.map (· + 1)).getD 0) n

theorem glancesBackward_undecided_line (hs : t.sides b n = none) (hn : t[n]? = some '\n')
    (hm : ¬ t.Unmarked (t.lineStart n) n) :
    t.GlancesBackward b level (n + 1) (.ok .undecided) := by
  refine .inl ⟨rfl, fun q hlast _ hclean => ?_⟩
  obtain ⟨⟨-, hqn, hq, -⟩, -⟩ := hlast
  have hne : q ≠ n := by
    rintro rfl
    exact nomatch hs.symm.trans hq
  exact hm (hclean n (by omega) (Nat.lt_succ_self n) hn)

theorem glancesBackward_undecided (hb : b.Usable) (hs : t.sides b n = none) (hjn : j ≤ n)
    (hnj : n ≤ j + 1) (hm : t.marksAt j = .ok true) :
    t.GlancesBackward b level (n + 1) (.ok .undecided) := by
  refine .inl ⟨rfl, fun q hlast hum _ => ?_⟩
  obtain ⟨⟨-, hqn, hq, -⟩, -⟩ := hlast
  have hne : q ≠ n := by
    rintro rfl
    exact nomatch hs.symm.trans hq
  have hqj : q ≠ j := by
    rintro rfl
    exact nomatch hm.symm.trans
      (marksAt_of_has hb (sides_eq_forward.mp hq) (Bracket.has_iff.mpr (.inl rfl)))
  exact nomatch hm.symm.trans (hum j (by omega) (by omega))

theorem Unmarked.concat (h : t.Unmarked i j) (hj : t.marksAt j = .ok false) :
    t.Unmarked i (j + 1) := by
  intro m him hmj
  rcases Nat.lt_succ_iff_lt_or_eq.mp hmj with hlt | rfl
  · exact h m him hlt
  · exact hj

theorem GlancesBackward.concat (h : t.GlancesBackward b level n answer)
    (hm : t.marksAt n = .ok false)
    (hline : t[n]? = some '\n' → t.Unmarked (t.lineStart n) n)
    (hs : t.sides b n = some .forward → (t.sides b).height (n + 1) ≠ level) :
    t.GlancesBackward b level (n + 1) answer := by
  refine h.imp (fun ⟨hu, hmark⟩ => ⟨hu, fun q hq hum hclean => ?_⟩)
    fun ⟨r, hr, hlast, hum, hclean⟩ =>
      ⟨r, hr, hlast.of_succ hs, hum.concat hm, fun m h1 h2 hfeed => ?_⟩
  · exact hmark q (hq.pred hs) (hum.mono (le_refl _) (Nat.le_succ n))
      fun m h1 h2 => hclean m h1 (Nat.lt_succ_of_lt h2)
  · rcases Nat.lt_succ_iff_lt_or_eq.mp h2 with hlt | rfl
    · exact hclean m h1 hlt hfeed
    · exact hline hfeed

theorem glancesBackward_hit (hs : t.sides b n = some .forward)
    (hl : (t.sides b).height (n + 1) = level) : t.GlancesBackward b level (n + 1) (.ok (.hit n)) :=
  .inr ⟨some n, rfl, .here n.zero_le hs hl, fun _ h1 h2 => absurd h1 (Nat.not_le.mpr h2),
    fun _ h1 h2 => absurd h1 (Nat.not_le.mpr h2)⟩

/-- **The backward glance** waits for the level that its pending closers stand for. -/
theorem glancesBackward (hb : b.Usable) (hn : n ≤ t.size)
    (hl : (t.sides b).height n = level + pending) :
    t.GlancesBackward b level n (t.glanceBelow b (pending + 1) n) := by
  induction n generalizing pending with
  | zero =>
    exact .inr ⟨none, rfl, .empty (Nat.le_refl 0), fun _ _ h2 => absurd h2 (Nat.not_lt_zero _),
      fun _ _ h2 => absurd h2 (Nat.not_lt_zero _)⟩
  | succ i ih =>
    have hlt : i < t.size := hn
    have hget : t[i]? = some t[i] := Array.getElem?_eq_getElem hlt
    have hside := sides_of_getElem? (b := b) hget
    have hfeed : b.has t[i] = true → t[i]? ≠ some '\n' :=
      fun hhas => ne_lineFeed_of_plain hget (hb.plain_of_has hhas)
    rcases hs : b.side? t[i] with _ | _ | _
    · have hc := Bracket.side?_eq_none.mp hs
      rw [hs] at hside
      have hup := Sides.height_succ_of_none hside
      have hno : t.sides b i = some .forward → (t.sides b).height (i + 1) ≠ level := by
        intro h
        rw [hside] at h
        exact nomatch h
      by_cases hn : t[i] = '\n'
      · -- At a line feed the glance looks over the line that it is about to enter.
        rw [hn] at hget hc
        have hstart : t.lineStart i ≤ i := t.lineStart_le_self i
        have hlen : t.lineStart i + (i - t.lineStart i) = i := by omega
        obtain ⟨m, hm, hum⟩ := exists_marksWithin (t := t) (i := t.lineStart i)
          (i - t.lineStart i) (by omega)
        rw [hlen] at hum
        rw [glanceBelow_of_lineFeed hget hc hm]
        cases m with
        | true => exact glancesBackward_undecided_line hside hget fun h => nomatch hum.mpr h
        | false =>
          have hmark : t.marksAt i = .ok false := marksAt_of_getElem? hget
          exact (ih (by omega) (by omega)).concat hmark (fun _ => hum.mp rfl) hno
      · -- A mark that is seen here may begin one character further left, but not at an opener.
        obtain ⟨m, hm, hum, hmark⟩ := exists_marksAround hlt
        rw [glanceBelow_of_other hget hc hn hm]
        cases m with
        | true =>
          obtain ⟨j, hji, hij, hj⟩ := hmark rfl
          exact glancesBackward_undecided hb hside hji hij hj
        | false =>
          refine (ih (by omega) (by omega)).concat (hum rfl) (fun heq => ?_) hno
          exact absurd (Option.some.inj (hget.symm.trans heq)) hn
    · have hc := Bracket.side?_eq_forward.mp hs
      have hhas := Bracket.has_iff.mpr (.inl hc)
      have hm := marksAt_of_has hb hget hhas
      rw [glanceBelow_of_opener hb (hc ▸ hget)]
      rw [hs] at hside
      have hup := Sides.height_succ_of_forward hside
      rcases pending with _ | pending
      · exact glancesBackward_hit hside (by omega)
      · exact (ih (by omega) (by omega)).concat hm (fun heq => absurd heq (hfeed hhas))
          fun _ => by omega
    · have hc := (Bracket.side?_eq_backward hb.opener_ne_closer).mp hs
      have hhas := Bracket.has_iff.mpr (.inr hc)
      have hm := marksAt_of_has hb hget hhas
      rw [glanceBelow_of_closer (hc ▸ hget)]
      rw [hs] at hside
      have hdown := Sides.height_succ_of_backward hside
      refine (ih (by omega) (by omega)).concat hm (fun heq => absurd heq (hfeed hhas)) fun h => ?_
      rw [hside] at h
      exact nomatch h

/-- The backward glance from `last` on is right about the brackets of the text. -/
theorem glanceBackward_right {last : Nat} (hb : b.Usable) (hlast : last < t.size) :
    t.GlancesBackward b ((t.sides b).height (last + 1)) (last + 1) (t.glanceBackward b last) := by
  rw [glanceBackward, if_pos hlast]
  exact glancesBackward hb hlast (Int.add_zero _).symm

/-- A backward glance hits the last opener of all, provided that no mark comes behind it
and none stands on the lines that end behind it. -/
theorem glanceBackward_eq_hit_iff {last q : Nat} (hb : b.Usable) (hlast : last < t.size) :
    t.glanceBackward b last = .ok (.hit q) ↔
      (t.sides b).LastOpener ((t.sides b).height (last + 1)) 0 (last + 1) (some q) ∧
        t.Unmarked (q + 1) (last + 1) ∧ t.CleanLines (q + 1) (last + 1) := by
  obtain ⟨hu, hmark⟩ | ⟨r, hr, hopener, hm⟩ := glanceBackward_right hb hlast
  · rw [hu]
    exact iff_of_false nofun fun ⟨hopener, hm, hclean⟩ => hmark q hopener hm hclean
  · rw [hr]
    constructor
    · intro h
      obtain rfl : r = some q := Glance.decided_injective (Except.ok.inj h)
      exact ⟨hopener, hm⟩
    · rintro ⟨hopener', -⟩
      rw [hopener.unique hopener']
      rfl

end Text

end BracketMatching
