/-
What a spotlight shows, after whatever a host has asked of it.

A spotlight answers a repeated look from what it remembers, and the text that it saw then
is gone.  It is never wrong for that, as long as the host keeps its promise of a new
version for a new text (`Spotlight.KeepsVersions`):

* `Spotlight.After` — the calls of a host, each look with what was given for it, and the
  spotlight that they lead to;
* `Spotlight.refresh_cases` — what one look does: nothing, if it repeats the last one, and
  a search otherwise;
* `Spotlight.Remembers` — the invariant: a spotlight shows and has seen what it did at the
  last look that it was not told to forget;
* `Spotlight.looks_right_of_after` — **every look is given what a search finds** in the
  text that was passed with it.

Design note: the promise is about looks that follow each other.  A version may come back
with another text after the spotlight was told to forget, or has looked elsewhere.
-/
import BracketMatching.Proofs.Safety
import BracketMatching.Spotlight

namespace BracketMatching

/-- What is painted, without its style. -/
def Highlight.extents (painted : Highlight) : Extent × Extent := (painted.opening, painted.closing)

/-- The characters of both brackets. -/
def Match.extents (found : Match) : Extent × Extent := (found.opening.extent, found.closing.extent)

@[simp] theorem Match.extents_highlight (found : Match) (style : Style) :
    (found.highlight style).extents = found.extents := rfl

namespace Spotlight

/-! ### Histories -/

/-- A look of the host at a text, and the highlight that it was given. -/
structure Look where
  text : Text
  glimpse : Glimpse
  given : Option Highlight

/-- What a host asks of a spotlight. -/
inductive Call
  | look (look : Look)
  | restyle (style : Style)
  | forget

/-- The calls of a host to a new spotlight, the latest one first, have led to this one. -/
inductive After (table : BracketTable) : List Call → Spotlight → Prop
  | new : After table [] (.ofTable table)
  | look {calls : List Call} {spotlight next : Spotlight} {t : Text} {caret version : Nat}
      (h : After table calls spotlight) (hnext : spotlight.refresh t caret version = .ok next) :
      After table (.look ⟨t, ⟨caret, version⟩, next.shown⟩ :: calls) next
  | restyle {calls : List Call} {spotlight : Spotlight} {style : Style}
      (h : After table calls spotlight) :
      After table (.restyle style :: calls) (spotlight.withStyle style)
  | forget {calls : List Call} {spotlight : Spotlight} (h : After table calls spotlight) :
      After table (.forget :: calls) spotlight.forget

/-- The latest look, unless the spotlight was told to forget it. -/
def lastLook : List Call → Option Look
  | [] => none
  | .look look :: _ => some look
  | .restyle _ :: earlier => lastLook earlier
  | .forget :: _ => none

/-- A look that repeats the one before it, in place and version, is at the same text. -/
def KeepsVersions : List Call → Prop
  | [] => True
  | .look look :: earlier =>
    (∀ last, lastLook earlier = some last → last.glimpse = look.glimpse → last.text = look.text) ∧
      KeepsVersions earlier
  | .restyle _ :: earlier => KeepsVersions earlier
  | .forget :: earlier => KeepsVersions earlier

/-- What was given for a look is what a search finds there. -/
def Look.Right (table : BracketTable) (look : Look) : Prop :=
  ∃ r, Yields (table.matchBefore look.text look.glimpse.caret) r ∧
    look.given.map Highlight.extents = r.map Match.extents

/-! ### One look -/

variable {table : BracketTable} {spotlight next : Spotlight} {t : Text} {caret version : Nat}
  {calls : List Call}

/-- A look is answered, be it from memory or by a search. -/
theorem exists_refresh (spotlight : Spotlight) (t : Text) (caret version : Nat) :
    ∃ next, spotlight.refresh t caret version = .ok next := by
  rw [refresh]
  by_cases hseen : spotlight.seen = some ⟨caret, version⟩
  · exact ⟨spotlight, by rw [if_pos hseen]; rfl⟩
  · obtain ⟨found, hfound, -⟩ :=
      BracketTable.ensures_matchBefore spotlight.table t caret
    rw [if_neg hseen, hfound]
    exact ⟨_, rfl⟩

/-- What one look does. -/
theorem refresh_cases (h : spotlight.refresh t caret version = .ok next) :
    (spotlight.seen = some ⟨caret, version⟩ ∧ next = spotlight) ∨
      ∃ r, Yields (spotlight.table.matchBefore t caret) r ∧
        next = { spotlight with
          seen := some ⟨caret, version⟩
          shown := r.map (·.highlight spotlight.style) } := by
  rw [refresh] at h
  by_cases hseen : spotlight.seen = some ⟨caret, version⟩
  · rw [if_pos hseen] at h
    exact .inl ⟨hseen, (Except.ok.inj h).symm⟩
  · obtain ⟨found, hfound, -⟩ :=
      BracketTable.ensures_matchBefore spotlight.table t caret
    rw [if_neg hseen, hfound] at h
    exact .inr ⟨found.result, ⟨found.events, hfound⟩, (Except.ok.inj h).symm⟩

/-! ### All looks -/

/-- The spotlight has in mind what it saw and showed at the last look. -/
structure Remembers (table : BracketTable) (calls : List Call) (spotlight : Spotlight) : Prop where
  table_eq : spotlight.table = table
  seen_eq : spotlight.seen = (lastLook calls).map Look.glimpse
  shown_eq : spotlight.shown = (lastLook calls).bind Look.given

theorem Remembers.look (h : Remembers table calls spotlight)
    (hnext : spotlight.refresh t caret version = .ok next) :
    Remembers table (.look ⟨t, ⟨caret, version⟩, next.shown⟩ :: calls) next := by
  obtain ⟨hseen, rfl⟩ | ⟨r, -, rfl⟩ := refresh_cases hnext
  · exact ⟨h.table_eq, hseen, rfl⟩
  · exact ⟨h.table_eq, rfl, rfl⟩

theorem After.remembers (h : After table calls spotlight) : Remembers table calls spotlight := by
  induction h with
  | new => exact ⟨rfl, rfl, rfl⟩
  | look _ hnext ih => exact ih.look hnext
  | restyle _ ih => exact ⟨ih.table_eq, ih.seen_eq, ih.shown_eq⟩
  | forget _ ih => exact ⟨ih.table_eq, rfl, rfl⟩

/-- A look is right if the last one was, and is of the same text wherever it repeats that. -/
theorem Remembers.right_look (h : Remembers table calls spotlight)
    (hlast : ∀ last, lastLook calls = some last → last.Right table)
    (hkeep : ∀ last, lastLook calls = some last → last.glimpse = ⟨caret, version⟩ → last.text = t)
    (hnext : spotlight.refresh t caret version = .ok next) :
    Look.Right table ⟨t, ⟨caret, version⟩, next.shown⟩ := by
  obtain ⟨hseen, rfl⟩ | ⟨r, hr, rfl⟩ := refresh_cases hnext
  · obtain ⟨last, hcall, hglimpse⟩ := Option.map_eq_some_iff.mp (h.seen_eq.symm.trans hseen)
    obtain ⟨r, hr, hgiven⟩ := hlast last hcall
    rw [hkeep last hcall hglimpse, hglimpse] at hr
    refine ⟨r, hr, ?_⟩
    rw [h.shown_eq, hcall]
    exact hgiven
  · rw [h.table_eq] at hr
    refine ⟨r, hr, ?_⟩
    simp [Function.comp_def]

theorem mem_of_lastLook {last : Look} (h : lastLook calls = some last) : .look last ∈ calls := by
  fun_induction lastLook calls with
  | case1 => exact nomatch h
  | case2 look _ =>
    obtain rfl := Option.some.inj h
    exact List.mem_cons_self
  | case3 style earlier ih => exact List.mem_cons_of_mem _ (ih h)
  | case4 => exact nomatch h

theorem After.right (h : After table calls spotlight) (hkeep : KeepsVersions calls) :
    ∀ look, .look look ∈ calls → look.Right table := by
  induction h with
  | new => exact nofun
  | @look calls spotlight next t caret version h hnext ih =>
    obtain ⟨hrepeat, hearlier⟩ := hkeep
    have hright := ih hearlier
    intro look hlook
    rcases List.mem_cons.mp hlook with heq | hlook
    · obtain rfl := Call.look.inj heq
      exact h.remembers.right_look (fun last hlast => hright last (mem_of_lastLook hlast))
        hrepeat hnext
    · exact hright look hlook
  | restyle _ ih =>
    intro look hlook
    exact ih hkeep look ((List.mem_cons.mp hlook).resolve_left nofun)
  | forget _ ih =>
    intro look hlook
    exact ih hkeep look ((List.mem_cons.mp hlook).resolve_left nofun)

/-- **What a spotlight remembers is never seen to be old.**  After any calls that keep
versions, each look was given what a search finds in its text, what is shown is what was
given for the last look, unless that is forgotten, and the next look is answered, too. -/
theorem looks_right_of_after (h : After table calls spotlight) (hkeep : KeepsVersions calls) :
    (∀ look, .look look ∈ calls → look.Right table) ∧
      spotlight.shown = (lastLook calls).bind Look.given ∧
      ∀ t caret version, ∃ next, spotlight.refresh t caret version = .ok next :=
  ⟨h.right hkeep, h.remembers.shown_eq, spotlight.exists_refresh⟩

/-- A call, and the same call after its last character was typed over. -/
def typedCallText : Text := .ofString "(x)"

def brokenCallText : Text := .ofString "(xy"

/-- The highlight of the call. -/
def typedCallHighlight : Highlight := ⟨⟨0, 1⟩, ⟨2, 3⟩, .matchedBrackets⟩

/-- A look, another one that repeats it in a new style, and one that comes back to place and
version, at a new text, after all was forgotten. -/
def typedCallHistory : List Call :=
  [.look ⟨brokenCallText, ⟨1, 1⟩, none⟩, .forget,
    .look ⟨typedCallText, ⟨1, 1⟩, some typedCallHighlight⟩, .restyle 7,
    .look ⟨typedCallText, ⟨1, 1⟩, some typedCallHighlight⟩]

theorem looks_right_of_after_typedCallHistory :
    ∃ spotlight, After .standard typedCallHistory spotlight ∧ KeepsVersions typedCallHistory ∧
      (∀ look, .look look ∈ typedCallHistory → look.Right .standard) ∧ spotlight.shown = none := by
  have hfirst : (ofTable .standard).refresh typedCallText 1 1 =
      .ok ⟨.standard, .matchedBrackets, some ⟨1, 1⟩, some typedCallHighlight⟩ := by decide +kernel
  have hagain : (Spotlight.mk .standard 7 (some ⟨1, 1⟩) (some typedCallHighlight)).refresh
      typedCallText 1 1 = .ok ⟨.standard, 7, some ⟨1, 1⟩, some typedCallHighlight⟩ := by
    decide +kernel
  have hlast : (Spotlight.mk .standard 7 none none).refresh brokenCallText 1 1 =
      .ok ⟨.standard, 7, some ⟨1, 1⟩, none⟩ := by decide +kernel
  have hrestyled : After .standard
      [.restyle 7, .look ⟨typedCallText, ⟨1, 1⟩, some typedCallHighlight⟩]
      ⟨.standard, 7, some ⟨1, 1⟩, some typedCallHighlight⟩ := .restyle (.look .new hfirst)
  have hafter : After .standard typedCallHistory ⟨.standard, 7, some ⟨1, 1⟩, none⟩ :=
    .look (.forget (.look hrestyled hagain)) hlast
  have hkeep : KeepsVersions typedCallHistory := by
    refine ⟨nofun, ⟨?_, ⟨nofun, trivial⟩⟩⟩
    rintro last ⟨⟩ -
    rfl
  obtain ⟨hright, hshown, -⟩ := looks_right_of_after hafter hkeep
  exact ⟨_, hafter, hkeep, hright, hshown⟩

end Spotlight

end BracketMatching
