/-
The style of what a spotlight shows.

A highlight is painted when a search finds it, and is shown for as long as looks repeat.  A
change of style in the meantime repaints nothing.  So what is shown is in the style that was
in force at the last search, which need not be the one in force now.

* `Spotlight.styleInForce` — the style that a host has chosen last;
* `Spotlight.Look.Fresh` — a look that has to search, since it does not repeat the last one;
* `Spotlight.styleAtSearch` — the style that was in force at the last fresh look;
* `Spotlight.Paints` — the invariant: a spotlight has the one style, and shows the other;
* `Spotlight.style_of_after` — **every highlight is in the style of its search**, and in the
  style in force unless another one was chosen since (`Spotlight.KeepsStyle`);
* `Spotlight.not_forall_style_eq` — which may happen.
-/
import BracketMatching.Proofs.SpotlightHistory

namespace BracketMatching

namespace Spotlight

variable {table : BracketTable} {spotlight next : Spotlight} {t : Text} {caret version : Nat}
  {calls : List Call} {given : Option Highlight} {painted : Highlight} {style : Style}

/-! ### Styles of a history -/

/-- The style in force after the calls: the one that was chosen last. -/
def styleInForce : List Call → Style
  | [] => .matchedBrackets
  | .look _ :: earlier => styleInForce earlier
  | .restyle style :: _ => style
  | .forget :: earlier => styleInForce earlier

/-- The look does not repeat, in place and version, the last one that is not forgotten. -/
def Look.Fresh (look : Look) (earlier : List Call) : Prop :=
  (lastLook earlier).map Look.glimpse ≠ some look.glimpse

instance decidableFresh (look : Look) (earlier : List Call) : Decidable (look.Fresh earlier) :=
  inferInstanceAs (Decidable (_ ≠ _))

/-- The style that was in force at the last fresh look, unless that is forgotten. -/
def styleAtSearch : List Call → Option Style
  | [] => none
  | .look look :: earlier =>
    if look.Fresh earlier then some (styleInForce earlier) else styleAtSearch earlier
  | .restyle _ :: earlier => styleAtSearch earlier
  | .forget :: _ => none

/-- No style was chosen since the last fresh look. -/
def KeepsStyle : List Call → Prop
  | [] => True
  | .look look :: earlier => look.Fresh earlier ∨ KeepsStyle earlier
  | .restyle _ :: _ => False
  | .forget :: _ => True

/-- Where no other style was chosen since, the style of the search is still in force. -/
theorem KeepsStyle.styleAtSearch_eq (h : KeepsStyle calls) (hs : styleAtSearch calls = some style) :
    style = styleInForce calls := by
  induction calls with
  | nil => exact nomatch hs
  | cons call earlier ih =>
    cases call with
    | look look =>
      by_cases hfresh : look.Fresh earlier
      · rw [styleAtSearch, if_pos hfresh] at hs
        exact (Option.some.inj hs).symm
      · rw [styleAtSearch, if_neg hfresh] at hs
        exact ih (h.resolve_left hfresh) hs
    | restyle _ => exact h.elim
    | forget => exact nomatch hs

/-! ### What is shown in which style -/

/-- A look that repeats the last one changes nothing. -/
theorem refresh_of_seen (hseen : spotlight.seen = some ⟨caret, version⟩) (t : Text) :
    spotlight.refresh t caret version = .ok spotlight := by
  rw [refresh, if_pos hseen]
  rfl

/-- The spotlight has the style in force, and shows what it does in that of the last
search. -/
structure Paints (calls : List Call) (spotlight : Spotlight) : Prop where
  style_eq : spotlight.style = styleInForce calls
  shown_style : ∀ painted, spotlight.shown = some painted →
    styleAtSearch calls = some painted.style

theorem Paints.look (h : Paints calls spotlight) (hmemory : Remembers table calls spotlight)
    (hnext : spotlight.refresh t caret version = .ok next) :
    Paints (.look ⟨t, ⟨caret, version⟩, given⟩ :: calls) next := by
  by_cases hfresh : Look.Fresh ⟨t, ⟨caret, version⟩, given⟩ calls
  · obtain ⟨hseen, -⟩ | ⟨r, -, rfl⟩ := refresh_cases hnext
    · exact absurd (hmemory.seen_eq.symm.trans hseen) hfresh
    · refine ⟨h.style_eq, fun painted hshown => ?_⟩
      -- The new highlight is painted in the style that the spotlight has now.
      obtain ⟨found, -, rfl⟩ := Option.map_eq_some_iff.mp hshown
      rw [styleAtSearch, if_pos hfresh, ← h.style_eq]
      rfl
  · have hseen : spotlight.seen = some ⟨caret, version⟩ :=
      hmemory.seen_eq.trans (not_not.mp hfresh)
    obtain rfl : spotlight = next := Except.ok.inj ((refresh_of_seen hseen t).symm.trans hnext)
    refine ⟨h.style_eq, fun painted hshown => ?_⟩
    rw [styleAtSearch, if_neg hfresh]
    exact h.shown_style painted hshown

theorem After.paints (h : After table calls spotlight) : Paints calls spotlight := by
  induction h with
  | new => exact ⟨rfl, nofun⟩
  | look h hnext ih => exact ih.look h.remembers hnext
  | restyle _ ih => exact ⟨rfl, ih.shown_style⟩
  | forget _ ih => exact ⟨ih.style_eq, nofun⟩

/-- **A highlight is in the style of its search.**  After any calls, a spotlight has the style
in force, and answers any further look.  If the latest call was a look, it shows what it gave
for that; and what it shows is in the style that was in force at the last look that searched,
which is the style in force as long as none was chosen since. -/
theorem style_of_after (h : After table calls spotlight) :
    spotlight.style = styleInForce calls ∧
      (∀ t caret version, ∃ next, spotlight.refresh t caret version = .ok next) ∧
      (∀ look earlier, calls = .look look :: earlier → look.given = spotlight.shown) ∧
      ∀ painted, spotlight.shown = some painted →
        styleAtSearch calls = some painted.style ∧
          (KeepsStyle calls → painted.style = spotlight.style) := by
  obtain ⟨hstyle, hshown⟩ := h.paints
  refine ⟨hstyle, spotlight.exists_refresh, ?_,
    fun painted hpainted => ⟨hshown painted hpainted, fun hkeep => ?_⟩⟩
  · rintro look earlier rfl
    exact h.remembers.shown_eq.symm
  · rw [hstyle]
    exact hkeep.styleAtSearch_eq (hshown painted hpainted)

/-- A look, and another one that repeats it in a new style. -/
def restyledCallHistory : List Call :=
  [.look ⟨typedCallText, ⟨1, 1⟩, some typedCallHighlight⟩, .restyle 7,
    .look ⟨typedCallText, ⟨1, 1⟩, some typedCallHighlight⟩]

theorem after_restyledCallHistory :
    After .standard restyledCallHistory
      ⟨.standard, 7, some ⟨1, 1⟩, some typedCallHighlight⟩ := by
  have hfirst : (ofTable .standard).refresh typedCallText 1 1 =
      .ok ⟨.standard, .matchedBrackets, some ⟨1, 1⟩, some typedCallHighlight⟩ := by decide +kernel
  have hrestyled : After .standard
      [.restyle 7, .look ⟨typedCallText, ⟨1, 1⟩, some typedCallHighlight⟩]
      ⟨.standard, 7, some ⟨1, 1⟩, some typedCallHighlight⟩ := .restyle (.look .new hfirst)
  exact .look hrestyled (refresh_of_seen rfl typedCallText)

/-- A third look, at a new version, searches again and paints in the new style. -/
theorem style_of_after_restyledCallHistory :
    ∃ look spotlight, After .standard (.look look :: restyledCallHistory) spotlight ∧
      KeepsStyle (.look look :: restyledCallHistory) ∧
      spotlight.shown = some { typedCallHighlight with style := 7 } ∧
      look.given = spotlight.shown ∧
      (∀ painted, spotlight.shown = some painted → painted.style = spotlight.style) ∧
      styleAtSearch restyledCallHistory = some .matchedBrackets := by
  have hnext : (Spotlight.mk .standard 7 (some ⟨1, 1⟩) (some typedCallHighlight)).refresh
      typedCallText 1 2 =
        .ok ⟨.standard, 7, some ⟨1, 2⟩, some { typedCallHighlight with style := 7 }⟩ := by
    decide +kernel
  have hafter := After.look after_restyledCallHistory hnext
  have hkeep : KeepsStyle
      (.look ⟨typedCallText, ⟨1, 2⟩, some { typedCallHighlight with style := 7 }⟩ ::
        restyledCallHistory) := by
    left
    decide
  obtain ⟨-, -, hgiven, hshown⟩ := style_of_after hafter
  obtain ⟨-, -, -, hearlier⟩ := style_of_after after_restyledCallHistory
  exact ⟨_, _, hafter, hkeep, rfl, hgiven _ _ rfl, fun painted h => (hshown painted h).2 hkeep,
    (hearlier _ rfl).1⟩

/-- A highlight that is shown again may be in a style that is in force no longer. -/
theorem not_forall_style_eq :
    ¬ ∀ (table : BracketTable) (calls : List Call) (spotlight : Spotlight),
      After table calls spotlight →
        (∀ look earlier painted, calls = .look look :: earlier → look.given = some painted →
          painted.style = spotlight.style) ∧
        ∀ painted, spotlight.shown = some painted → painted.style = spotlight.style := by
  intro h
  obtain ⟨hlook, -⟩ := h _ _ _ after_restyledCallHistory
  have hstyle : Style.matchedBrackets = 7 := hlook _ _ typedCallHighlight rfl rfl
  exact absurd hstyle (by decide)

end Spotlight

end BracketMatching
