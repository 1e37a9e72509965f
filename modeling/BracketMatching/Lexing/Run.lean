/-
Runs: reading a text step by step.

A run starts in some context at some offset and moves by what each step
consumes; it *visits* the offsets at which its steps begin, each in one context,
and the offset at which it stops.

* `Text.step` — one step of a run at an offset of the text;
* `Text.tokens` — the steps of a run up to the end of the text, which are its
  visits inside the text (`Text.mem_tokens_iff`);
* `Text.Reaches` — the relation "the run comes from here to there", closed under
  composition (`Text.Reaches.trans`);
* `Text.Visits` — the runs that start as code, which the statements about
  searches are made of;
* `Text.Reaches.linear` — of two visits of one run, one lies ahead of the other;
* `Text.Visits.context_unique` — a run comes to an offset in one context only.

Design note: the relations read off the steps and nothing else: they know of no
brackets, windows or early ends, and so can serve as the yardstick for the
scans that do.
-/
import BracketMatching.Lexing.Context
import BracketMatching.Text.Basic

namespace BracketMatching

namespace Text

/-- The glyph at `offset`, if the text reaches that far. -/
def glyph? (t : Text) (offset : Nat) : Option Glyph := t[offset]?.map Glyph.ofChar

/-- The glyph just before `offset`, if there is one. -/
def glyphBefore? (t : Text) : (offset : Nat) → Option Glyph
  | 0 => none
  | i + 1 => t.glyph? i

/-- One step from the context `ctx` at an offset inside the text. -/
def stepAt (t : Text) (ctx : Context) (offset : Nat) (h : offset < t.size) : Step :=
  ctx.step (t.glyphBefore? offset) (Glyph.ofChar t[offset]) (t.glyph? (offset + 1))

/-- One step from the context `ctx` at `offset`, which has to lie inside the
text. -/
def step (t : Text) (ctx : Context) (offset : Nat) : Except Fault Step :=
  if h : offset < t.size then .ok (t.stepAt ctx offset h) else .error (.pastEnd offset)

theorem step_of_lt {t : Text} {ctx : Context} {i : Nat} (h : i < t.size) :
    t.step ctx i = .ok (t.stepAt ctx i h) :=
  dif_pos h

theorem step_eq_ok_iff {t : Text} {ctx : Context} {i : Nat} {s : Step} :
    t.step ctx i = .ok s ↔ ∃ h : i < t.size, t.stepAt ctx i h = s := by
  by_cases h : i < t.size <;> simp [step, h]

/-- One step of a run: the offset and the context in which it began, and what
came of it. -/
structure Token where
  offset : Nat
  context : Context
  step : Step
  deriving DecidableEq, Repr

/-- The steps of the run from `ctx` at `start`, up to the end of the text. -/
def tokens (t : Text) (ctx : Context) (start : Nat) : List Token :=
  if h : start < t.size then
    let s := t.stepAt ctx start h
    ⟨start, ctx, s⟩ :: t.tokens s.next (start + s.consumed)
  else []
  termination_by t.size - start
  decreasing_by
    have := (t.stepAt ctx start h).consumed_pos
    omega

/-! ### What a run visits -/

/-- The run that is in context `ctx` at `i` comes, by some steps or none, to `j`
in context `ctx'`. -/
inductive Reaches (t : Text) (i : Nat) (ctx : Context) : (j : Nat) → (ctx' : Context) → Prop
  | here : Reaches t i ctx i ctx
  | step {j : Nat} {ctx' : Context} {s : Step} :
      Reaches t i ctx j ctx' → t.step ctx' j = .ok s →
        Reaches t i ctx (j + s.consumed) s.next

/-- The run that starts as code at `start` comes to `offset` in context `ctx`. -/
def Visits (t : Text) (start offset : Nat) (ctx : Context) : Prop :=
  t.Reaches start .code offset ctx

namespace Reaches

variable {t : Text} {i j k : Nat} {c c' c'' : Context}

/-- A run never moves back. -/
theorem le (h : t.Reaches i c j c') : i ≤ j := by
  induction h with
  | here => exact Nat.le_refl _
  | step _ _ ih => exact Nat.le_add_right_of_le ih

theorem trans (h : t.Reaches i c j c') (h' : t.Reaches j c' k c'') : t.Reaches i c k c'' := by
  induction h' with
  | here => exact h
  | step _ hs ih => exact ih.step hs

/-- A run that moves at all begins with the step at its start. -/
theorem eq_or_head (h : t.Reaches i c j c') :
    (j = i ∧ c' = c) ∨
      ∃ s, t.step c i = .ok s ∧ t.Reaches (i + s.consumed) s.next j c' := by
  induction h with
  | here => exact .inl ⟨rfl, rfl⟩
  | @step k _ s _ hs ih =>
    rcases ih with ⟨rfl, rfl⟩ | ⟨s', hs', hr⟩
    · exact .inr ⟨s, hs, .here⟩
    · exact .inr ⟨s', hs', hr.step hs⟩

/-- Of two visits of one run, one lies ahead of the other. -/
theorem linear (h : t.Reaches i c j c') (h' : t.Reaches i c k c'') :
    t.Reaches j c' k c'' ∨ t.Reaches k c'' j c' := by
  induction h with
  | here => exact .inl h'
  | @step j c' s _ hs ih =>
    rcases ih with hjk | hkj
    · rcases hjk.eq_or_head with ⟨rfl, rfl⟩ | ⟨s', hs', hr⟩
      · exact .inr (Reaches.here.step hs)
      · obtain rfl : s = s' := Except.ok.inj (hs.symm.trans hs')
        exact .inl hr
    · exact .inr (hkj.step hs)

/-- A run comes to an offset in one context only. -/
theorem context_unique (h : t.Reaches i c j c') (h' : t.Reaches i c j c'') : c' = c'' := by
  -- A run from an offset back to itself has taken no step.
  have still : ∀ {a b : Context}, t.Reaches j a j b → b = a := by
    intro a b hab
    rcases hab.eq_or_head with ⟨_, rfl⟩ | ⟨s, _, hr⟩
    · rfl
    · have := hr.le
      have := s.consumed_pos
      omega
  rcases h.linear h' with hr | hr
  · exact (still hr).symm
  · exact still hr

end Reaches

/-- The tokens of a run are its visits inside the text. -/
theorem mem_tokens_iff {t : Text} {ctx : Context} {start : Nat} {k : Token} :
    k ∈ t.tokens ctx start ↔
      t.Reaches start ctx k.offset k.context ∧ t.step k.context k.offset = .ok k.step := by
  fun_induction t.tokens ctx start with
  | case1 ctx start h s ih =>
    rw [List.mem_cons, ih]
    have hs : t.step ctx start = .ok s := step_of_lt h
    constructor
    · rintro (rfl | ⟨hr, hk⟩)
      · exact ⟨.here, hs⟩
      · exact ⟨(Reaches.here.step hs).trans hr, hk⟩
    · rintro ⟨hr, hk⟩
      rcases hr.eq_or_head with ⟨ho, hc⟩ | ⟨s', hs', hr'⟩
      · left
        cases k
        simp_all
      · right
        obtain rfl : s = s' := Except.ok.inj (hs.symm.trans hs')
        exact ⟨hr', hk⟩
  | case2 ctx start h =>
    -- The run is past the end of the text, where no step begins.
    simp only [List.not_mem_nil, false_iff, not_and]
    intro hr hk
    have := hr.le
    obtain ⟨hlt, _⟩ := step_eq_ok_iff.mp hk
    omega

theorem Visits.context_unique {t : Text} {start offset : Nat} {c c' : Context}
    (h : t.Visits start offset c) (h' : t.Visits start offset c') : c = c' :=
  Reaches.context_unique h h'

end Text

end BracketMatching
