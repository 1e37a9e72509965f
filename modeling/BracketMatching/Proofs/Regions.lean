/-
Regions: what a run visits in the region of a scan.

A scan counts the brackets of the region that it starts in, be it code or literals:

* `Text.VisitsIn` — the run from `start` comes to an offset in the region;
* `Text.regionSides` — the brackets that such a run visits in the region, which in code
  are those of `Text.codeSides`;
* `Text.StaysInLiteral` — the run is in a literal wherever it comes to between two
  offsets, so that a scan that ends with its literal does not end there.

Design note: the step behind a closing quote begins in code, so that two literals never
touch: a run that stays in a literal stays in one and the same.
-/
import BracketMatching.Proofs.CodeRun
import BracketMatching.Scan.Region

namespace BracketMatching

/-- Where a region is visited, a scan starts in that region. -/
theorem Site.region?_ofContext {region : Region} {ctx : Context} (h : ctx.Sole)
    (hctx : region.admits ctx = true) : (ofContext ctx).region? = some (region, ctx) := by
  cases region with
  | code =>
    obtain rfl := h.eq_code hctx
    rfl
  | literal =>
    have hin : ctx.inLiteral = true := hctx
    have hout := h.not_comment hin
    rw [Context.inComment, Bool.or_eq_false_iff] at hout
    rw [ofContext, hout.1, hout.2, hin]
    rfl

namespace Text

variable {t : Text} {b : Bracket} {region : Region} {ctx : Context} {start i j lo : Nat}
  {c : Char} {s : Step}

/-! ### Visits in a region -/

/-- The run that starts as code at `start` visits `offset` in the region. -/
def VisitsIn (t : Text) (region : Region) (start offset : Nat) : Prop :=
  ∃ ctx, t.Visits start offset ctx ∧ region.admits ctx = true

instance decidableVisitsIn (t : Text) (region : Region) (start i : Nat) :
    Decidable (t.VisitsIn region start i) :=
  decidable_of_iff (∃ ctx ∈ t.contextAt i .code start, region.admits ctx = true)
    (by simp only [Option.mem_def, contextAt_eq_some_iff, VisitsIn, Visits])

/-- The brackets of `b` that the run from `start` visits in the region. -/
def regionSides (t : Text) (b : Bracket) (region : Region) (start : Nat) : Sides :=
  fun i => if t.VisitsIn region start i then t.sides b i else none

theorem regionSides_code (t : Text) (b : Bracket) (start : Nat) :
    t.regionSides b .code start = t.codeSides b start := by
  funext i
  have hiff : t.VisitsIn .code start i ↔ t.VisitsCode start i := Iff.rfl
  simp only [regionSides, codeSides, hiff]

theorem regionSides_eq_some {d : Direction} :
    t.regionSides b region start i = some d ↔ t.VisitsIn region start i ∧ t.sides b i = some d := by
  rw [regionSides]
  split <;> simp_all

/-- A character that is no bracket, or is not visited in the region, does not count, and
neither does anything else that its step consumes. -/
theorem regionSides_of_step (h : t.Visits start i ctx) (hget : t[i]? = some c)
    (hc : (b.has c && region.admits ctx) = false) (hs : t.step ctx i = .ok s) (hij : i ≤ j)
    (hj : j < i + s.consumed) : t.regionSides b region start j = none := by
  rw [Option.eq_none_iff_forall_ne_some]
  intro d hd
  obtain ⟨⟨c', hv, hadmits⟩, hd⟩ := regionSides_eq_some.mp hd
  have hji := (Reaches.le_or_le_of_step h hs hv).resolve_right (Nat.not_le.mpr hj)
  obtain rfl : j = i := Nat.le_antisymm hji hij
  rw [h.context_unique hv, hadmits, Bool.and_true] at hc
  rw [sides_of_getElem? hget, Bracket.side?_eq_none.mpr hc] at hd
  exact nomatch hd

theorem regionSides_of_counted (h : t.Visits start i ctx) (hget : t[i]? = some c)
    (hc : (b.has c && region.admits ctx) = true) :
    t.regionSides b region start i = b.side? c := by
  rw [regionSides, if_pos ⟨ctx, h, (Bool.and_eq_true_iff.mp hc).2⟩, sides_of_getElem? hget]

/-! ### Staying in a literal -/

/-- At all offsets from `lo` to `hi` that the run from `start` visits, it is in a literal. -/
def StaysInLiteral (t : Text) (start lo hi : Nat) : Prop :=
  ∀ i ctx, lo ≤ i → i ≤ hi → t.Visits start i ctx → ctx.inLiteral = true

instance decidableStaysInLiteral (t : Text) (start lo hi : Nat) :
    Decidable (t.StaysInLiteral start lo hi) :=
  decidable_of_iff
    (∀ i, i ≤ hi → lo ≤ i → ∀ ctx ∈ t.contextAt i .code start, ctx.inLiteral = true) (by
      simp only [Option.mem_def, contextAt_eq_some_iff]
      exact ⟨fun h i ctx h1 h2 => h i h2 h1 ctx, fun h i h1 h2 ctx => h i ctx h2 h1⟩)

namespace StaysInLiteral

variable {hi : Nat}

theorem mono {lo' hi' : Nat} (h : t.StaysInLiteral start lo hi) (hlo : lo ≤ lo')
    (hhi : hi' ≤ hi) : t.StaysInLiteral start lo' hi' :=
  fun i ctx h1 h2 => h i ctx (hlo.trans h1) (h2.trans hhi)

theorem single (hv : t.Visits start i ctx) (hctx : ctx.inLiteral = true) :
    t.StaysInLiteral start i i := by
  intro m c h1 h2 hm
  obtain rfl : m = i := Nat.le_antisymm h2 h1
  rwa [hm.context_unique hv]

/-- A step that ends in a literal prolongs the stay. -/
theorem step (h : t.StaysInLiteral start lo i) (hv : t.Visits start i ctx)
    (hs : t.step ctx i = .ok s) (hnext : s.next.inLiteral = true) :
    t.StaysInLiteral start lo (i + s.consumed) := by
  intro m c h1 h2 hm
  rcases Reaches.le_or_le_of_step hv hs hm with hmi | hmi
  · exact h m c h1 hmi hm
  · obtain rfl : m = i + s.consumed := Nat.le_antisymm h2 hmi
    rwa [hm.context_unique (hv.step hs)]

/-- A step that begins in a literal adds to a stay behind it. -/
theorem cons (h : t.StaysInLiteral start (i + s.consumed) hi) (hv : t.Visits start i ctx)
    (hs : t.step ctx i = .ok s) (hctx : ctx.inLiteral = true) : t.StaysInLiteral start i hi := by
  intro m c h1 h2 hm
  rcases Reaches.le_or_le_of_step hv hs hm with hmi | hmi
  · obtain rfl : m = i := Nat.le_antisymm hmi h1
    rwa [hm.context_unique hv]
  · exact h m c hmi h2 hm

end StaysInLiteral

end Text

end BracketMatching
