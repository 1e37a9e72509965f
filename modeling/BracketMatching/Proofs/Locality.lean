/-
Locality: what a search finds does not depend on what comes after it.

A backward search reads nothing behind its closer, and a forward scan nothing behind the
closer that it finds.  So a text that goes on otherwise from there has the same match
(`BracketTable.matchBefore_of_agreesBelow`).

* `Text.AgreesBelow` — two texts have the same beginning;
* `Text.AgreesBelow.partnerBefore` — backward, any text with the same beginning will do;
* `Text.yields_partnerAfter_iff` — in code, the forward search finds what its scan finds;
* `Text.AgreesBelow.partnerAfter` — forward, if the opener is code, so will any text that
  has the closer, too.

Design note: the forward glance may well read on behind the closer that the scan finds.  In
a literal an escape hides a bracket from the scan, but not from the glance, and a mark
further on then decides which of the two has the last word.  In code this cannot happen.
-/
import BracketMatching.Proofs.GlanceAgreement
import BracketMatching.Proofs.TranscribedSearch

namespace BracketMatching

namespace Text

variable {t t' : Text} {b : Bracket} {i k l n start : Nat} {r : Option Nat}

/-- The first `n` characters of the two texts are the same. -/
def AgreesBelow (t t' : Text) (n : Nat) : Prop :=
  ∀ i, i < n → t'[i]? = t[i]?

instance decidableAgreesBelow (t t' : Text) (n : Nat) : Decidable (t.AgreesBelow t' n) :=
  inferInstanceAs (Decidable (∀ i, i < n → t'[i]? = t[i]?))

namespace AgreesBelow

variable (h : t.AgreesBelow t' (k + 1))
include h

/-- Texts that agree are transcripts of each other, in place. -/
theorem transcript : Transcript b t t' id (some k) :=
  .of_agree fun i hi => h i (Nat.lt_succ_of_le (upTo_some.mp hi))

/-- **A backward search reads nothing behind its closer.** -/
theorem partnerBefore (hb : b.Usable) (hk : k = l + 1) (hlt : k < t.size)
    (hr : Yields (t.partnerBefore b l) r) : Yields (t'.partnerBefore b l) r := by
  subst hk
  have hr' := h.transcript.partnerBefore_pos hb rfl (upTo_some.mpr (le_refl _)) rfl hlt
    (fun _ _ _ => .of_unbroken fun _ => rfl) hr
  rwa [Option.map_id] at hr'

end AgreesBelow

/-- Forward, scan and search find the same in code. -/
theorem yields_partnerAfter_iff (hlt : start < t.size)
    (hsite : t.siteAt (t.lineStart start) start = .ok .code) :
    Yields (t.partnerAfter b start) r ↔ Yields (t.closerAfter b start) r := by
  suffices hboth : ∃ r', Yields (t.partnerAfter b start) r' ∧ Yields (t.closerAfter b start) r' by
    obtain ⟨r', hsearch, hscan⟩ := hboth
    exact ⟨fun h => h.unique hsearch ▸ hscan, fun h => h.unique hscan ▸ hsearch⟩
  obtain ⟨glance, hglance⟩ : ∃ glance, t.glanceForward b start = .ok glance :=
    ensures_glanceForward.exists_eq_ok
  rcases glance.eq_undecided_or_decided with rfl | ⟨r', rfl⟩
  · obtain ⟨r', hscan⟩ : ∃ r', Yields (t.closerAfter b start) r' :=
      ensures_closerAfter.exists_yields
    exact ⟨r', partnerAfter_of_undecided hglance hscan, hscan⟩
  · exact ⟨r', partnerAfter_of_decided hglance,
      yields_closerAfter_of_region hlt hsite rfl (closerFrom_of_glanceForwardFrom hglance)⟩

/-- **A forward search in code reads nothing behind the closer that it finds.** -/
theorem AgreesBelow.partnerAfter (h : t.AgreesBelow t' (k + 1)) (hb : b.Usable)
    (hg : t.glyphBefore? start = some .plain)
    (hsite : t.siteAt (t.lineStart start) start = .ok .code)
    (hr : Yields (t.partnerAfter b start) (some k)) :
    Yields (t'.partnerAfter b start) (some k) := by
  obtain ⟨hle, hlt, -⟩ := ensures_partnerAfter.of_yields hr k rfl
  have hstart : start < t.size := hle.trans_lt hlt
  have hup : UpTo (some k) start := upTo_some.mpr hle
  have hstart' : start < t'.size := h.transcript.pos_lt_size (b := b) hup hstart
  have hsite' : t'.siteAt (t'.lineStart start) start = .ok .code :=
    h.transcript.siteAt_pos (b := b) hup hstart.le hsite
  rw [yields_partnerAfter_iff hstart hsite] at hr
  rw [yields_partnerAfter_iff hstart' hsite']
  exact closerAfter_pos h.transcript hb hg (.of_unbroken fun _ => rfl) hr

end Text

namespace BracketTable

variable {table : BracketTable} {t : Text} {b : Bracket} {i : Nat}

/-- **Text after a match never influences it.**  The match of a closer depends on nothing
behind the closer; and the match of an opener that is code, seen from the start of its
line, on nothing behind the closer that is found. -/
theorem matchBefore_of_agreesBelow (hb : b ∈ table.brackets) :
    (t[i]? = some b.closer → ∀ t' : Text, t.AgreesBelow t' (i + 1) →
      ∃ r, Yields (table.matchBefore t (i + 1)) r ∧ Yields (table.matchBefore t' (i + 1)) r) ∧
    (t[i]? = some b.opener → t.siteAt (t.lineStart (i + 1)) (i + 1) = .ok .code →
      ∀ m, Yields (table.matchBefore t (i + 1)) (some m) →
        ∀ t' : Text, t.AgreesBelow t' (m.closing.offset + 1) →
          Yields (table.matchBefore t' (i + 1)) (some m)) := by
  have hu := usable_of_mem hb
  constructor
  · intro hc t' hagree
    have hc' : t'[i]? = some b.closer := (hagree i (Nat.lt_succ_self i)).trans hc
    cases i with
    | zero =>
      exact ⟨none, yields_matchBefore_closer_zero hb hc, yields_matchBefore_closer_zero hb hc'⟩
    | succ l =>
      obtain ⟨r, hr⟩ : ∃ r, Yields (t.partnerBefore b l) r :=
        Text.ensures_partnerBefore.exists_yields
      have hr' := hagree.partnerBefore hu rfl (Text.lt_size_of_getElem? hc) hr
      exact ⟨_, yields_matchBefore_closer hb hc hr, yields_matchBefore_closer hb hc' hr'⟩
  · intro ho hsite m hm t' hagree
    obtain ⟨r, hr⟩ : ∃ r, Yields (t.partnerAfter b (i + 1)) r :=
      Text.ensures_partnerAfter.exists_yields
    obtain ⟨k, rfl, rfl⟩ := Option.map_eq_some_iff.mp
      ((yields_matchBefore_opener hb ho hr).unique hm)
    obtain ⟨hik, -, -⟩ := Text.ensures_partnerAfter.of_yields hr k rfl
    rw [Match.ofOffsets_of_lt hik] at hagree
    have ho' : t'[i]? = some b.opener := (hagree i (by simp only; omega)).trans ho
    have hg : t.glyphBefore? (i + 1) = some .plain :=
      (Text.glyph?_of_getElem? ho).trans (congrArg some hu.opener_plain)
    exact yields_matchBefore_opener hb ho' (hagree.partnerAfter hu hg hsite hr)

/-- A call, and what may follow it. -/
def notedCallText : Text := .ofString "f(\"(\", x) // )"

def tornCallText : Text := .ofString "f(\"(\", x)*/ \"("

theorem matchBefore_of_agreesBelow_notedCallText :
    (notedCallText[8]? = some ')' ∧ notedCallText[1]? = some '(' ∧
      notedCallText.siteAt (notedCallText.lineStart 2) 2 = .ok .code ∧
      Yields (standard.matchBefore notedCallText 2) (some ⟨⟨1, 1⟩, ⟨8, 1⟩⟩) ∧
      notedCallText.AgreesBelow tornCallText 9) ∧
    (∃ r, Yields (standard.matchBefore notedCallText 9) r ∧
      Yields (standard.matchBefore tornCallText 9) r) ∧
    Yields (standard.matchBefore tornCallText 2) (some ⟨⟨1, 1⟩, ⟨8, 1⟩⟩) := by
  have hyps : notedCallText[8]? = some ')' ∧ notedCallText[1]? = some '(' ∧
      notedCallText.siteAt (notedCallText.lineStart 2) 2 = .ok .code ∧
      Yields (standard.matchBefore notedCallText 2) (some ⟨⟨1, 1⟩, ⟨8, 1⟩⟩) ∧
      notedCallText.AgreesBelow tornCallText 9 := by decide +kernel
  obtain ⟨hc, ho, hsite, hm, hagree⟩ := id hyps
  have hb : ⟨'(', ')'⟩ ∈ standard.brackets := by decide
  exact ⟨hyps, (matchBefore_of_agreesBelow hb).1 hc _ hagree,
    (matchBefore_of_agreesBelow hb).2 ho hsite _ hm _ hagree⟩

end BracketTable

end BracketMatching
