/-
Depth: the number of brackets open at a point of a scan.

A scan starts at depth one, for the bracket whose partner it looks for, and has
found the partner when a lowering reaches zero.
-/
import BracketMatching.Fault

namespace BracketMatching

/-- One bracket fewer is open; that none was is a fault. -/
def lower : (depth : Nat) → Except Fault Nat
  | 0 => .error .noneOpen
  | depth + 1 => .ok depth

@[simp] theorem lower_succ (depth : Nat) : lower (depth + 1) = .ok depth := rfl

end BracketMatching
