/-
Table faults: which lists of brackets are refused, and for what.

The checks are made in a fixed order, and the list is read once, with a memory of the
characters seen so far.  Said without an order and without a memory, a character is at fault
if it is reactive or stands further to the front as well, and a list of equally many openers
and closers is refused for the first of its characters that is at fault.

* `AtFault` — a character of a list is at fault;
* `firstFault_eq_some_iff` — what the reading finds is the fault of the first one;
* `BracketTable.ofStrings_eq_iff` — **what becomes of two strings**: each of the four
  refusals, and the table, with exactly when it comes;
* `BracketTable.exists_ofStrings_eq` — every table is accepted, so that what holds of all
  tables holds of the accepted ones and of no others.
-/
import BracketMatching.Bracket.Table
import Mathlib.Data.Nat.Find
import Mathlib.Order.Bounds.Basic

namespace BracketMatching

/-- The character at `i` is reactive, or stands at an earlier place as well. -/
def AtFault (cs : List Char) (i : Nat) : Prop :=
  ∃ c, cs[i]? = some c ∧ (c ∈ Glyph.reactive ∨ ∃ j, j < i ∧ cs[j]? = some c)

instance decidableAtFault (cs : List Char) (i : Nat) : Decidable (AtFault cs i) :=
  match h : cs[i]? with
  | none => .isFalse fun ⟨_, hc, _⟩ => nomatch h.symm.trans hc
  | some c => decidable_of_iff (c ∈ Glyph.reactive ∨ ∃ j, j < i ∧ cs[j]? = some c)
      ⟨fun hc => ⟨c, h, hc⟩, fun ⟨_, hd, hc⟩ => Option.some.inj (hd.symm.trans h) ▸ hc⟩

/-- What a character at fault is refused for: being reactive comes first. -/
def faultOf (c : Char) : TableError :=
  if c ∈ Glyph.reactive then .reserved c else .repeated c

/-- The first character at fault is `c`. -/
def FirstAtFault (cs : List Char) (c : Char) : Prop :=
  ∃ i, IsLeast {i | AtFault cs i} i ∧ cs[i]? = some c

variable {cs rest seen : List Char} {c : Char} {fault : TableError} {i : Nat}

/-! ### The reading -/

theorem firstFault_cons_of_fault (h : c ∈ Glyph.reactive ∨ c ∈ seen) :
    firstFault seen (c :: rest) = some (faultOf c) := by
  by_cases hr : c ∈ Glyph.reactive
  · simp [firstFault, faultOf, Glyph.ofChar_eq_plain_iff, hr]
  · simp [firstFault, faultOf, Glyph.ofChar_eq_plain_iff, hr, h.resolve_left hr]

theorem firstFault_cons_of_not (h : ¬ (c ∈ Glyph.reactive ∨ c ∈ seen)) :
    firstFault seen (c :: rest) = firstFault (c :: seen) rest := by
  obtain ⟨hr, hs⟩ := not_or.mp h
  simp [firstFault, Glyph.ofChar_eq_plain_iff, hr, hs]

/-- What was seen are the characters further to the front. -/
theorem atFault_append_cons :
    AtFault (seen.reverse ++ c :: rest) seen.length ↔ c ∈ Glyph.reactive ∨ c ∈ seen := by
  have hget : (seen.reverse ++ c :: rest)[seen.length]? = some c := by simp
  have hseen : (∃ j, j < seen.length ∧ (seen.reverse ++ c :: rest)[j]? = some c) ↔ c ∈ seen := by
    rw [← List.mem_reverse, List.mem_iff_getElem?]
    constructor
    · rintro ⟨j, hj, h⟩
      rw [List.getElem?_append_left (by simpa using hj)] at h
      exact ⟨j, h⟩
    · rintro ⟨j, h⟩
      obtain ⟨hj, -⟩ := List.getElem?_eq_some_iff.mp h
      exact ⟨j, by simpa using hj, by rw [List.getElem?_append_left hj, h]⟩
  rw [AtFault, hget]
  simp [hseen]

/-- A reading that has seen the beginning of a list finds the fault of the first of the
other characters that is at fault. -/
theorem firstFault_eq_some_iff_of_seen :
    firstFault seen rest = some fault ↔
      ∃ i, IsLeast {i | seen.length ≤ i ∧ AtFault (seen.reverse ++ rest) i} i ∧
        ∃ c, (seen.reverse ++ rest)[i]? = some c ∧ fault = faultOf c := by
  induction rest generalizing seen with
  | nil =>
    refine iff_of_false nofun ?_
    rintro ⟨i, ⟨⟨hi, -⟩, -⟩, c, hc, -⟩
    rw [List.append_nil, List.getElem?_eq_none (by simpa using hi)] at hc
    exact nomatch hc
  | cons d rest ih =>
    have hfault : AtFault (seen.reverse ++ d :: rest) seen.length ↔
        d ∈ Glyph.reactive ∨ d ∈ seen := atFault_append_cons
    by_cases hd : d ∈ Glyph.reactive ∨ d ∈ seen
    · -- The character that is read is at fault, so it is the first one.
      have hget : (seen.reverse ++ d :: rest)[seen.length]? = some d := by simp
      have hleast : IsLeast {i | seen.length ≤ i ∧ AtFault (seen.reverse ++ d :: rest) i}
          seen.length := ⟨⟨le_refl _, hfault.mpr hd⟩, fun i hi => hi.1⟩
      rw [firstFault_cons_of_fault hd]
      constructor
      · rintro ⟨⟩
        exact ⟨_, hleast, d, hget, rfl⟩
      · rintro ⟨i, hi, c, hc, rfl⟩
        obtain rfl := hi.unique hleast
        obtain rfl := Option.some.inj (hget.symm.trans hc)
        rfl
    · -- It is not, and is seen from now on.
      have hlist : seen.reverse ++ d :: rest = (d :: seen).reverse ++ rest := by simp
      have hset : {i | seen.length ≤ i ∧ AtFault (seen.reverse ++ d :: rest) i} =
          {i | (d :: seen).length ≤ i ∧ AtFault (seen.reverse ++ d :: rest) i} := by
        ext i
        refine ⟨fun ⟨hi, h⟩ => ⟨?_, h⟩, fun ⟨hi, h⟩ => ⟨Nat.le_of_succ_le hi, h⟩⟩
        rcases hi.eq_or_lt with rfl | hlt
        · exact absurd (hfault.mp h) hd
        · exact hlt
      rw [firstFault_cons_of_not hd, ih, hset, hlist]

/-- What the reading of a whole list finds is the fault of the first character at fault. -/
theorem firstFault_eq_some_iff :
    firstFault [] cs = some fault ↔ ∃ c, FirstAtFault cs c ∧ fault = faultOf c := by
  rw [firstFault_eq_some_iff_of_seen]
  simp only [List.length_nil, Nat.zero_le, true_and, List.reverse_nil, List.nil_append,
    FirstAtFault]
  exact ⟨fun ⟨i, hi, c, hc, hf⟩ => ⟨c, ⟨i, hi, hc⟩, hf⟩,
    fun ⟨c, ⟨i, hi, hc⟩, hf⟩ => ⟨i, hi, c, hc, hf⟩⟩

theorem exists_firstAtFault (h : AtFault cs i) : ∃ c, FirstAtFault cs c := by
  have hex : ∃ i, AtFault cs i := ⟨i, h⟩
  obtain ⟨c, hc, -⟩ := Nat.find_spec hex
  exact ⟨c, Nat.find hex, ⟨Nat.find_spec hex, fun _ => Nat.find_min' hex⟩, hc⟩

theorem firstFault_eq_none_iff_forall :
    firstFault [] cs = none ↔ ∀ i, ¬ AtFault cs i := by
  constructor
  · intro hnone i hi
    obtain ⟨c, hc⟩ := exists_firstAtFault hi
    exact nomatch hnone.symm.trans (firstFault_eq_some_iff.mpr ⟨c, hc, rfl⟩)
  · intro h
    rw [Option.eq_none_iff_forall_ne_some]
    intro fault hfault
    obtain ⟨c, ⟨i, hi, -⟩, -⟩ := firstFault_eq_some_iff.mp hfault
    exact h i hi.1

theorem FirstAtFault.unique {d : Char} (hc : FirstAtFault cs c) (hd : FirstAtFault cs d) :
    c = d := by
  obtain ⟨i, hi, hc⟩ := hc
  obtain ⟨j, hj, hd⟩ := hd
  obtain rfl := hi.unique hj
  exact Option.some.inj (hc.symm.trans hd)

theorem not_firstAtFault (h : ∀ i, ¬ AtFault cs i) : ¬ FirstAtFault cs c :=
  fun ⟨i, hi, _⟩ => h i hi.1

theorem not_firstAtFault_nil : ¬ FirstAtFault [] c :=
  not_firstAtFault (by simp [AtFault])

theorem reserved_eq_faultOf_iff {d : Char} :
    TableError.reserved c = faultOf d ↔ c = d ∧ c ∈ Glyph.reactive := by
  unfold faultOf
  split <;> grind

theorem repeated_eq_faultOf_iff {d : Char} :
    TableError.repeated c = faultOf d ↔ c = d ∧ c ∉ Glyph.reactive := by
  unfold faultOf
  split <;> grind

namespace BracketTable

variable {openers closers : List Char} {table table' : BracketTable}

/-! ### The checks, in their order -/

theorem ofChars_of_fault (hlen : openers.length = closers.length) (hne : openers ≠ [])
    (h : firstFault [] (openers ++ closers) = some fault) :
    ofChars openers closers = .error fault := by
  rw [ofChars, dif_pos hlen, dif_neg hne]
  split
  · next fault' h' => exact congrArg _ (Option.some.inj (h'.symm.trans h))
  · next h' => exact nomatch h'.symm.trans h

theorem exists_ofChars_eq_ok (hlen : openers.length = closers.length) (hne : openers ≠ [])
    (h : firstFault [] (openers ++ closers) = none) :
    ∃ table, ofChars openers closers = .ok table ∧
      table.brackets = openers.zipWith Bracket.mk closers := by
  rw [ofChars, dif_pos hlen, dif_neg hne]
  split
  · next fault' h' => exact nomatch h'.symm.trans h
  · exact ⟨_, rfl, rfl⟩

/-- **What becomes of two lists**: one of four things, and no more than one. -/
theorem ofChars_cases (openers closers : List Char) :
    (openers.length ≠ closers.length ∧
      ofChars openers closers = .error (.countMismatch openers.length closers.length)) ∨
    (openers = [] ∧ closers = [] ∧ ofChars openers closers = .error .empty) ∨
    (openers.length = closers.length ∧ ∃ c, FirstAtFault (openers ++ closers) c ∧
      ofChars openers closers = .error (faultOf c)) ∨
    (openers.length = closers.length ∧ openers ≠ [] ∧
      (∀ i, ¬ AtFault (openers ++ closers) i) ∧
      ∃ table, ofChars openers closers = .ok table ∧
        table.brackets = openers.zipWith Bracket.mk closers) := by
  by_cases hlen : openers.length = closers.length
  · right
    by_cases hne : openers = []
    · subst hne
      obtain rfl := List.eq_nil_of_length_eq_zero hlen.symm
      exact .inl ⟨rfl, rfl, rfl⟩
    · right
      rcases h : firstFault [] (openers ++ closers) with _ | fault
      · exact .inr ⟨hlen, hne, firstFault_eq_none_iff_forall.mp h, exists_ofChars_eq_ok hlen hne h⟩
      · obtain ⟨c, hc, rfl⟩ := firstFault_eq_some_iff.mp h
        exact .inl ⟨hlen, c, hc, ofChars_of_fault hlen hne h⟩
  · exact .inl ⟨hlen, dif_neg hlen⟩

theorem ofChars_eq_countMismatch_iff {m n : Nat} :
    ofChars openers closers = .error (.countMismatch m n) ↔
      openers.length ≠ closers.length ∧ m = openers.length ∧ n = closers.length := by
  rcases ofChars_cases openers closers with
    ⟨hlen, h⟩ | ⟨rfl, rfl, h⟩ | ⟨hlen, c, -, h⟩ | ⟨hlen, -, -, table, h, -⟩
  · rw [h]
    simp [hlen, eq_comm]
  · simp [h]
  · rw [h, faultOf]
    split <;> simp [hlen]
  · simp [h, hlen]

theorem ofChars_eq_empty_iff :
    ofChars openers closers = .error .empty ↔ openers = [] ∧ closers = [] := by
  rcases ofChars_cases openers closers with
    ⟨hlen, h⟩ | ⟨rfl, rfl, h⟩ | ⟨-, c, hc, h⟩ | ⟨-, hne, -, table, h, -⟩
  · rw [h]
    refine iff_of_false nofun ?_
    rintro ⟨rfl, rfl⟩
    exact hlen rfl
  · simp [h]
  · rw [h]
    refine iff_of_false (by unfold faultOf; split <;> simp) ?_
    rintro ⟨rfl, rfl⟩
    exact not_firstAtFault_nil hc
  · simp [h, hne]

/-- A fault of a character is that of the first one at fault. -/
theorem ofChars_eq_fault_iff (hcount : ∀ m n, fault ≠ .countMismatch m n)
    (hempty : fault ≠ .empty) :
    ofChars openers closers = .error fault ↔
      openers.length = closers.length ∧
        ∃ c, FirstAtFault (openers ++ closers) c ∧ fault = faultOf c := by
  rcases ofChars_cases openers closers with
    ⟨hlen, h⟩ | ⟨rfl, rfl, h⟩ | ⟨hlen, c, hc, h⟩ | ⟨hlen, -, hnone, table, h, -⟩
  · rw [h]
    exact iff_of_false (fun heq => hcount _ _ (Except.error.inj heq).symm) fun hc => hlen hc.1
  · rw [h]
    refine iff_of_false (fun heq => hempty (Except.error.inj heq).symm) ?_
    rintro ⟨-, c, hc, -⟩
    exact not_firstAtFault_nil hc
  · rw [h, Except.error.injEq]
    constructor
    · rintro rfl
      exact ⟨hlen, c, hc, rfl⟩
    · rintro ⟨-, d, hd, rfl⟩
      rw [hc.unique hd]
  · rw [h]
    refine iff_of_false nofun ?_
    rintro ⟨-, c, hc, -⟩
    exact not_firstAtFault hnone hc

theorem exists_ofChars_eq_ok_iff :
    (∃ table, ofChars openers closers = .ok table ∧
        table.brackets = openers.zipWith Bracket.mk closers) ↔
      openers.length = closers.length ∧ openers ≠ [] ∧ ∀ i, ¬ AtFault (openers ++ closers) i := by
  rcases ofChars_cases openers closers with
    ⟨hlen, h⟩ | ⟨rfl, rfl, h⟩ | ⟨-, c, ⟨i, hi, -⟩, h⟩ | ⟨hlen, hne, hnone, table, h, htable⟩
  · simp [h, hlen]
  · simp [h]
  · rw [h]
    exact iff_of_false (fun ⟨_, h, _⟩ => nomatch h) fun ⟨_, _, hnone⟩ => hnone i hi.1
  · exact iff_of_true ⟨table, h, htable⟩ ⟨hlen, hne, hnone⟩

/-! ### Two strings -/

/-- **What becomes of two strings.**  They are refused for their counts exactly if these
differ, for being empty exactly if both are, and otherwise for the first character at fault,
as a reserved one if it is that and else as a repeated one; without any of this they are a
table, which pairs them in order. -/
theorem ofStrings_eq_iff (openers closers : String) :
    (∀ m n, ofStrings openers closers = .error (.countMismatch m n) ↔
      openers.length ≠ closers.length ∧ m = openers.length ∧ n = closers.length) ∧
    (ofStrings openers closers = .error .empty ↔ openers = "" ∧ closers = "") ∧
    (∀ c, ofStrings openers closers = .error (.reserved c) ↔
      openers.length = closers.length ∧
        FirstAtFault (openers.toList ++ closers.toList) c ∧ c ∈ Glyph.reactive) ∧
    (∀ c, ofStrings openers closers = .error (.repeated c) ↔
      openers.length = closers.length ∧
        FirstAtFault (openers.toList ++ closers.toList) c ∧ c ∉ Glyph.reactive) ∧
    ((∃ table, ofStrings openers closers = .ok table ∧
        table.brackets = openers.toList.zipWith Bracket.mk closers.toList) ↔
      openers.length = closers.length ∧ openers ≠ "" ∧
        ∀ i, ¬ AtFault (openers.toList ++ closers.toList) i) := by
  simp only [ofStrings, ← String.length_toList, ← String.toList_eq_nil_iff, ne_eq]
  refine ⟨fun m n => ofChars_eq_countMismatch_iff, ofChars_eq_empty_iff, fun c => ?_, fun c => ?_,
    exists_ofChars_eq_ok_iff⟩
  · refine (ofChars_eq_fault_iff (by simp) (by simp)).trans ?_
    simp [reserved_eq_faultOf_iff]
  · refine (ofChars_eq_fault_iff (by simp) (by simp)).trans ?_
    simp [repeated_eq_faultOf_iff]

example : ofStrings "(\"(" ")])" = .error (.reserved '"') := by decide +kernel

example : ofStrings "([(" ")]/" = .error (.repeated '(') := by decide +kernel

/-- Tables with the same brackets are equal, since their other fields are proofs. -/
theorem eq_of_brackets_eq (h : table.brackets = table'.brackets) : table = table' := by
  cases table
  cases table'
  simpa using h

/-- Every table is accepted. -/
theorem exists_ofStrings_eq (table : BracketTable) :
    ∃ openers closers, ofStrings openers closers = .ok table := by
  refine ⟨String.ofList (table.brackets.map Bracket.opener),
    String.ofList (table.brackets.map Bracket.closer), ?_⟩
  rw [ofStrings, String.toList_ofList, String.toList_ofList]
  have hnone : firstFault [] (bracketChars table.brackets) = none :=
    firstFault_eq_none_iff.mpr ⟨table.nodup, fun c hc => ⟨table.plain c hc, List.not_mem_nil⟩⟩
  obtain ⟨table', h, hbrackets⟩ := exists_ofChars_eq_ok (by simp)
    (by simpa using table.brackets_ne_nil) hnone
  have hsame : table'.brackets = table.brackets := by
    rw [hbrackets, List.zipWith_map]
    simp [List.zipWith_self]
  rw [h, eq_of_brackets_eq hsame]

end BracketTable

end BracketMatching
