/-
Literals: what the reading of a window says of a closer in a literal.

Reading is from left to right, and the scan wants the openers of the closer's own
literal only.  So the reading forgets its stack whenever a literal opens:

* `Text.LiteralStack` — what is on the stack, while the run is in a literal: the openers
  that it has visited since that literal opened;
* `Text.readsLiteral` — the reading finds the last opener in literals that waits for the
  closer, if the run stays in a literal from there on, and nothing otherwise.
-/
import BracketMatching.Proofs.Regions
import BracketMatching.Proofs.WindowReading

namespace BracketMatching

namespace Text

variable {t : Text} {b : Bracket} {ctx : Context} {start w last i lo : Nat} {stack : List Nat}
  {c : Char} {s : Step}

/-- At `i` the run from `start` is in a literal that opened just before `lo`, and the
openers on the stack are those of this literal. -/
structure LiteralStack (t : Text) (b : Bracket) (start lo i : Nat) (stack : List Nat) : Prop where
  le : lo ≤ i
  opened : ∃ p ctx s, t.Visits start p ctx ∧ ctx.inLiteral = false ∧
    t.step ctx p = .ok s ∧ p + s.consumed = lo
  stays : t.StaysInLiteral start lo i
  stacked : (t.regionSides b .literal start).Stacked lo i stack

namespace LiteralStack

/-- A literal opens with an empty stack. -/
theorem opening (h : t.Visits start i ctx) (hctx : ctx.inLiteral = false)
    (hs : t.step ctx i = .ok s) (hnext : s.next.inLiteral = true) :
    t.LiteralStack b start (i + s.consumed) (i + s.consumed) [] :=
  ⟨le_refl _, ⟨i, ctx, s, h, hctx, hs, rfl⟩, .single (h.step hs) hnext, .nil _ _⟩

theorem step {stack' : List Nat} (h : t.LiteralStack b start lo i stack)
    (hv : t.Visits start i ctx) (hs : t.step ctx i = .ok s) (hnext : s.next.inLiteral = true)
    (hstack : (t.regionSides b .literal start).Stacked lo (i + s.consumed) stack') :
    t.LiteralStack b start lo (i + s.consumed) stack' :=
  ⟨h.le.trans (Nat.le_add_right i _), h.opened, h.stays.step hv hs hnext, hstack⟩

/-- A bracket in the literal goes on the stack, or takes one off. -/
theorem bracket (h : t.LiteralStack b start lo i stack) (hb : b.Usable)
    (hv : t.Visits start i ctx) (hget : t[i]? = some c)
    (hcount : (b.has c && Region.literal.admits ctx) = true) :
    t.LiteralStack b start lo (i + 1) (if c = b.opener then i :: stack else stack.tail) := by
  obtain ⟨hhas, hadmits⟩ := Bool.and_eq_true_iff.mp hcount
  have hstep : t.step ctx i = .ok (.one ctx) := step_of_plain hget (hb.plain_of_has hhas)
  have hside := regionSides_of_counted hv hget hcount
  refine h.step hv hstep hadmits ?_
  rcases Bracket.has_iff.mp hhas with hc | hc
  · rw [if_pos hc]
    exact h.stacked.push h.le (hside.trans (Bracket.side?_eq_forward.mpr hc))
  · rw [if_neg (hc ▸ hb.opener_ne_closer.symm)]
    exact h.stacked.pop (hside.trans ((Bracket.side?_eq_backward hb.opener_ne_closer).mpr hc))

/-- The top of the stack is the last opener in literals, if there is no end of a literal
behind it. -/
theorem head?_eq_some_iff (h : t.LiteralStack b start lo i stack) {q : Nat} :
    stack.head? = some q ↔
      (t.regionSides b .literal start).LastOpener ((t.regionSides b .literal start).height i) 0 i
        (some q) ∧ t.StaysInLiteral start q i := by
  have htop := h.stacked.head
  constructor
  · intro hq
    rw [hq] at htop
    exact ⟨htop.of_le lo.zero_le, h.stays.mono htop.1.1 (le_refl i)⟩
  · rintro ⟨hlast, hstays⟩
    have hlo : lo ≤ q := by
      by_contra hlt
      -- An opener of an earlier literal has the opening of this one behind it.
      obtain ⟨p, c, s, hp, hc, hs, rfl⟩ := h.opened
      obtain ⟨c', hq, -⟩ := (regionSides_eq_some.mp hlast.1.2.2.1).1
      have hqp := (Reaches.le_or_le_of_step hp hs hq).resolve_right hlt
      have hpi : p ≤ i := (Nat.le_add_right p _).trans h.le
      exact nomatch hc.symm.trans (hstays p c hqp hpi hp)
    exact htop.unique (hlast.of_ge lo.zero_le hlo)

end LiteralStack

/-- The reading of a window finds the last opener that waits for the closer in literals,
provided that the run stays in a literal from there on. -/
def ReadsLiteral (t : Text) (b : Bracket) (w last : Nat) (answer : Except Fault Verdict) : Prop :=
  ∃ r, answer = .ok (.ofOpener r) ∧ ∀ q, r = some q ↔
    (t.regionSides b .literal w).LastOpener ((t.regionSides b .literal w).height (last + 1)) 0
      (last + 1) (some q) ∧ t.StaysInLiteral w q (last + 1)

theorem readsLiteralFrom (hb : b.Usable) (hlast : last < t.size)
    (hgo : ∀ j, j ≤ last → ¬ t.StopsAt w j) (hk : t.VisitsIn .literal w (last + 1))
    (h : t.Visits w i ctx) (hi : i ≤ last + 1)
    (hstack : ctx.inLiteral = true → ∃ lo, t.LiteralStack b w lo i stack) :
    t.ReadsLiteral b w last (t.readWindowFrom b .literal w last stack ctx i) := by
  obtain ⟨kctx, hkv, hklit⟩ := id hk
  induction hn : last + 1 - i using Nat.strong_induction_on generalizing i ctx stack with
  | _ n ih =>
  rcases Nat.lt_succ_iff_lt_or_eq.mp (Nat.lt_succ_of_le hi) with hlt | rfl
  · have hil : i ≤ last := Nat.le_of_lt_succ hlt
    have hget : t[i]? = some t[i] := Array.getElem?_eq_getElem (hil.trans_lt hlast)
    obtain ⟨s, hs⟩ : ∃ s, t.step ctx i = .ok s := ⟨_, step_of_lt (hil.trans_lt hlast)⟩
    -- The run visits the closer, and so does not step over it.
    have hnext : i + s.consumed ≤ last + 1 :=
      (Reaches.le_or_le_of_step h hs hkv).resolve_left (Nat.not_le.mpr hlt)
    have hpos := s.consumed_pos
    rcases hcount : b.has t[i] && Region.literal.admits ctx with _ | _
    · obtain ⟨hstray, hcut⟩ := not_or.mp (mt (stopsAt_iff h hget).mpr (hgo i hil))
      rw [readWindowFrom_of_step hil hget hcount (Bool.not_eq_true _ ▸ hstray) hs, if_neg hcut]
      refine ih _ (by omega) (h.step hs) hnext (fun hin => ?_) rfl
      rcases hctx : ctx.inLiteral with _ | _
      · rw [if_pos ⟨rfl, hin, rfl⟩]
        exact ⟨_, .opening h hctx hs hin⟩
      · obtain ⟨lo, hlo⟩ := hstack hctx
        rw [if_neg fun hopens => nomatch hopens.2.2]
        exact ⟨lo, hlo.step h hs hin (hlo.stacked.skip (Nat.le_add_right i _)
          fun _ => regionSides_of_step h hget hcount hs)⟩
    · obtain ⟨hhas, hadmits⟩ := Bool.and_eq_true_iff.mp hcount
      have hvisit : t.Visits w (i + 1) ctx :=
        h.step (step_of_plain hget (hb.plain_of_has hhas))
      obtain ⟨lo, hlo⟩ := hstack hadmits
      rw [readWindowFrom_of_bracket hil hget hcount]
      exact ih _ (by omega) hvisit hlt (fun _ => ⟨lo, hlo.bracket hb h hget hcount⟩) rfl
  · obtain rfl := h.context_unique hkv
    obtain ⟨lo, hlo⟩ := hstack hklit
    have hin : (decide (last + 1 < last + 1) || !Region.literal.admits ctx) = false := by
      rw [hklit, decide_eq_false (Nat.lt_irrefl _)]
      rfl
    rw [readWindowFrom_past (Nat.lt_succ_self last), hin, if_neg Bool.false_ne_true]
    exact ⟨stack.head?, rfl, fun q => hlo.head?_eq_some_iff⟩

/-- **The reading of a window for a literal** finds an opener of that literal, or none. -/
theorem readsLiteral (hb : b.Usable) (hlast : last < t.size)
    (hgo : ∀ j, j ≤ last → ¬ t.StopsAt w j) (hk : t.VisitsIn .literal w (last + 1)) :
    t.ReadsLiteral b w last (t.readWindow b .literal w last) := by
  obtain ⟨ctx, hv, -⟩ := id hk
  exact readsLiteralFrom hb hlast hgo hk .here hv.le nofun

end Text

end BracketMatching
