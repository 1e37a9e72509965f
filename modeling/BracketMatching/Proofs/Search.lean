/-
Searches: from the character before the caret to the scans.

A search looks the character up, runs the scans of one direction, and puts the
two offsets in order.  This file peels that off, so that the theorems on
searches are statements about `Text.partnerAfter` and `Text.partnerBefore`:

* `Yields` — a search succeeds with a given result, whatever its trace;
* `BracketTable.lookup_opener`, `BracketTable.lookup_closer` — each character of
  a table is looked up as what it was listed as;
* `BracketTable.yields_matchBefore_opener`,
  `BracketTable.yields_matchBefore_closer` — the match at a bracket is the one
  with the partner that the scans of its direction find.
-/
import BracketMatching.Match
import Mathlib.Data.List.Nodup

namespace BracketMatching

/-- The search does not break off, and `result` is what it finds. -/
def Yields {α : Type} (search : Except Fault (Traced α)) (result : α) : Prop :=
  ∃ events, search = .ok ⟨result, events⟩

instance decidableYields {α : Type} [DecidableEq α] (search : Except Fault (Traced α))
    (result : α) : Decidable (Yields search result) :=
  match search with
  | .ok x => decidable_of_iff (x.result = result)
      ⟨fun h => ⟨x.events, h ▸ rfl⟩, fun ⟨_, h⟩ => congrArg Traced.result (Except.ok.inj h)⟩
  | .error _ => isFalse fun ⟨_, h⟩ => nomatch h

namespace Yields

variable {α β : Type} {search : Except Fault (Traced α)} {a a' : α}

theorem quiet (a : α) : Yields (.ok (.quiet a)) a :=
  ⟨[], rfl⟩

theorem unique (h : Yields search a) (h' : Yields search a') : a = a' := by
  obtain ⟨events, h⟩ := h
  obtain ⟨events', h'⟩ := h'
  exact congrArg Traced.result (Except.ok.inj (h.symm.trans h'))

/-- What is done with the outcome of a search that does not break off. -/
theorem bind (h : Yields search a) {f : Traced α → Except Fault (Traced β)} {c : β}
    (hf : ∀ x : Traced α, x.result = a → Yields (f x) c) : Yields (search >>= f) c := by
  obtain ⟨events, rfl⟩ := h
  exact hf _ rfl

theorem after (h : Yields search a) (event : Event) :
    Yields (do return (← search).after event) a :=
  h.bind fun x hx => ⟨event :: x.events, by rw [← hx]; rfl⟩

theorem map (h : Yields search a) (f : α → β) : Yields (do return (← search).map f) (f a) :=
  h.bind fun x hx => ⟨x.events, by rw [← hx]; rfl⟩

theorem of_after {event : Event} (h : Yields (do return (← search).after event) a) :
    Yields search a := by
  obtain ⟨events, h⟩ := h
  cases search with
  | error f => exact nomatch h
  | ok x => exact ⟨x.events, congrArg Except.ok (congrArg (Traced.mk · x.events)
      (congrArg Traced.result (Except.ok.inj h)))⟩

theorem of_map {f : α → β} {c : β} (h : Yields (do return (← search).map f) c) :
    ∃ a, Yields search a ∧ f a = c := by
  obtain ⟨events, h⟩ := h
  cases search with
  | error f => exact nomatch h
  | ok x => exact ⟨x.result, ⟨x.events, rfl⟩, congrArg Traced.result (Except.ok.inj h)⟩

end Yields

theorem Match.ofOffsets_of_lt {i j : Nat} (h : i < j) :
    ofOffsets i j = ⟨⟨i, 1⟩, ⟨j, 1⟩⟩ := by
  rw [ofOffsets, Nat.min_eq_left (Nat.le_of_lt h), Nat.max_eq_right (Nat.le_of_lt h)]

theorem Match.ofOffsets_of_gt {i j : Nat} (h : j < i) :
    ofOffsets i j = ⟨⟨j, 1⟩, ⟨i, 1⟩⟩ := by
  rw [ofOffsets, Nat.min_eq_right (Nat.le_of_lt h), Nat.max_eq_left (Nat.le_of_lt h)]

namespace BracketTable

variable {table : BracketTable} {b b' : Bracket} {t : Text} {i : Nat} {r : Option Nat}

theorem lookup_opener (hb : b ∈ table.brackets) :
    table.lookup b.opener = some (.forward, b) := by
  have hnodup := (List.nodup_append.mp table.nodup).1
  rcases hf : table.brackets.find? (fun x => x.opener == b.opener) with _ | x
  · exact absurd (List.find?_eq_none.mp hf b hb) (by simp)
  · have hx : x.opener = b.opener := by simpa using List.find?_some hf
    rw [lookup, hf, List.inj_on_of_nodup_map hnodup (List.mem_of_find?_eq_some hf) hb hx]

theorem lookup_closer (hb : b ∈ table.brackets) :
    table.lookup b.closer = some (.backward, b) := by
  obtain ⟨-, hnodup, hdisj⟩ := List.nodup_append.mp table.nodup
  have hopen : table.brackets.find? (fun x => x.opener == b.closer) = none := by
    refine List.find?_eq_none.mpr fun x hx heq => ?_
    exact hdisj _ (List.mem_map_of_mem hx) _ (List.mem_map_of_mem hb) (by simpa using heq)
  rcases hf : table.brackets.find? (fun x => x.closer == b.closer) with _ | x
  · exact absurd (List.find?_eq_none.mp hf b hb) (by simp)
  · have hx : x.closer = b.closer := by simpa using List.find?_some hf
    rw [lookup, hopen, hf, List.inj_on_of_nodup_map hnodup (List.mem_of_find?_eq_some hf) hb hx]
    rfl

theorem eq_of_opener_eq (hb : b ∈ table.brackets) (hb' : b' ∈ table.brackets)
    (h : b'.opener = b.opener) : b' = b := by
  have hl := lookup_opener hb'
  rw [h, lookup_opener hb] at hl
  exact (Prod.mk.inj (Option.some.inj hl)).2.symm

theorem eq_of_closer_eq (hb : b ∈ table.brackets) (hb' : b' ∈ table.brackets)
    (h : b'.closer = b.closer) : b' = b := by
  have hl := lookup_closer hb'
  rw [h, lookup_closer hb] at hl
  exact (Prod.mk.inj (Option.some.inj hl)).2.symm

/-- What is looked up is listed, and the direction says as what. -/
theorem mem_of_lookup {c : Char} {d : Direction} (h : table.lookup c = some (d, b)) :
    b ∈ table.brackets ∧ (d = .forward ∧ c = b.opener ∨ d = .backward ∧ c = b.closer) := by
  unfold lookup at h
  split at h
  · next x hx =>
    obtain ⟨rfl, rfl⟩ := Prod.mk.inj (Option.some.inj h)
    exact ⟨List.mem_of_find?_eq_some hx,
      .inl ⟨rfl, Eq.symm (by simpa using List.find?_some hx)⟩⟩
  · obtain ⟨x, hx, heq⟩ := Option.map_eq_some_iff.mp h
    obtain ⟨rfl, rfl⟩ := Prod.mk.inj heq
    exact ⟨List.mem_of_find?_eq_some hx,
      .inr ⟨rfl, Eq.symm (by simpa using List.find?_some hx)⟩⟩

theorem yields_matchBefore_of_partnerOf (hi : i < t.size) (h : Yields (table.partnerOf t i) r) :
    Yields (table.matchBefore t (i + 1)) (r.map (Match.ofOffsets i)) := by
  have hat : Yields (table.matchAt t i) (r.map (Match.ofOffsets i)) := by
    rw [matchAt, if_pos hi]
    exact h.map _
  exact hat.after _

theorem yields_matchBefore_opener (hb : b ∈ table.brackets) (ho : t[i]? = some b.opener)
    (h : Yields (t.partnerAfter b (i + 1)) r) :
    Yields (table.matchBefore t (i + 1)) (r.map (Match.ofOffsets i)) := by
  obtain ⟨hi, -⟩ := Array.getElem?_eq_some_iff.mp ho
  refine yields_matchBefore_of_partnerOf hi ?_
  have hread : table.partnerOf t i = t.partnerAfter b (i + 1) := by
    rw [partnerOf, Text.read_eq_ok_iff.mpr ho]
    simp only [Bind.bind, Except.bind, lookup_opener hb]
  rwa [hread]

theorem yields_matchBefore_closer (hb : b ∈ table.brackets) (hc : t[i + 1]? = some b.closer)
    (h : Yields (t.partnerBefore b i) r) :
    Yields (table.matchBefore t (i + 2)) (r.map (Match.ofOffsets (i + 1))) := by
  obtain ⟨hi, -⟩ := Array.getElem?_eq_some_iff.mp hc
  refine yields_matchBefore_of_partnerOf hi ?_
  have hread : table.partnerOf t (i + 1) = t.partnerBefore b i := by
    rw [partnerOf, Text.read_eq_ok_iff.mpr hc]
    simp only [Bind.bind, Except.bind, lookup_closer hb]
  rwa [hread]

/-- Before the first character there is nothing to pair a closer with. -/
theorem yields_matchBefore_closer_zero (hb : b ∈ table.brackets) (hc : t[0]? = some b.closer) :
    Yields (table.matchBefore t 1) none := by
  obtain ⟨hi, -⟩ := Array.getElem?_eq_some_iff.mp hc
  refine yields_matchBefore_of_partnerOf (r := none) hi ?_
  have hread : table.partnerOf t 0 = .ok (.quiet none) := by
    rw [partnerOf, Text.read_eq_ok_iff.mpr hc]
    simp only [Bind.bind, Except.bind, lookup_closer hb]
    rfl
  rw [hread]
  exact .quiet none

/-- Where a match comes from: the bracket before the caret is listed, and its partner
is what the scans of its direction find. -/
theorem exists_of_matchBefore {caret : Nat} {m : Match}
    (h : Yields (table.matchBefore t caret) (some m)) :
    ∃ i j b, caret = i + 1 ∧ b ∈ table.brackets ∧ m = Match.ofOffsets i j ∧
      (t[i]? = some b.opener ∧ Yields (t.partnerAfter b (i + 1)) (some j) ∨
        ∃ last, i = last + 1 ∧ t[i]? = some b.closer ∧
          Yields (t.partnerBefore b last) (some j)) := by
  cases caret with
  | zero =>
    obtain ⟨events, h⟩ := h
    exact nomatch congrArg Traced.result (Except.ok.inj h)
  | succ i =>
    have hat : Yields (table.matchAt t i) (some m) := h.of_after
    rw [matchAt] at hat
    by_cases hi : i < t.size
    · rw [if_pos hi] at hat
      obtain ⟨r, hr, hm⟩ := hat.of_map
      obtain ⟨j, rfl, rfl⟩ := Option.map_eq_some_iff.mp hm
      have hget : t[i]? = some t[i] := Array.getElem?_eq_getElem hi
      rw [partnerOf, Text.read_eq_ok_iff.mpr hget] at hr
      simp only [Bind.bind, Except.bind] at hr
      rcases hl : table.lookup t[i] with _ | ⟨d, b⟩
      · rw [hl] at hr
        exact nomatch hr.unique (.quiet none)
      · rw [hl] at hr
        obtain ⟨hb, ⟨rfl, hc⟩ | ⟨rfl, hc⟩⟩ := mem_of_lookup hl
        · exact ⟨i, j, b, rfl, hb, rfl, .inl ⟨hc ▸ hget, hr⟩⟩
        · cases i with
          | zero => exact nomatch hr.unique (.quiet none)
          | succ last => exact ⟨last + 1, j, b, rfl, hb, rfl, .inr ⟨last, rfl, hc ▸ hget, hr⟩⟩
    · rw [if_neg hi] at hat
      exact nomatch hat.unique (.quiet none)

end BracketTable

end BracketMatching
