/-
Faults: the two ways in which reading a text could break off.

Every reader of a text below answers in `Except Fault`, so that "this search is
safe" is a statement about its answer and not a matter of trust.  The two
causes are:

* `Fault.pastEnd` — a character at or past the end of the text was asked for;
* `Fault.noneOpen` — a count of open brackets was lowered below zero.

Answers are compared in proofs about closed inputs, hence the decidable
equality of `Except` at the end.
-/
namespace BracketMatching

/-- What broke a reading of a text off. -/
inductive Fault
  /-- The character at `offset` was read, and the text ends before it. -/
  | pastEnd (offset : Nat)
  /-- A bracket was closed while the count of open ones was zero. -/
  | noneOpen
  deriving DecidableEq, Repr

/-- Answers are equal if both succeed with the same value or both break off for
the same reason. -/
instance decidableEqAnswer {ε α : Type} [DecidableEq ε] [DecidableEq α] :
    DecidableEq (Except ε α)
  | .ok a, .ok b => decidable_of_iff (a = b) ⟨congrArg _, Except.ok.inj⟩
  | .error e, .error f => decidable_of_iff (e = f) ⟨congrArg _, Except.error.inj⟩
  | .ok _, .error _ => isFalse (fun h => nomatch h)
  | .error _, .ok _ => isFalse (fun h => nomatch h)

end BracketMatching
