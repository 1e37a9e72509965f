/-
Traces: what a search did on the way to its answer.

A search that can be traced answers with a `Traced` value, its result together
with the events in the order in which they happened.  A result says what was
found; the events say which scans were run, how far the windows of a backward
scan were widened, and why a scan gave up.
-/
import BracketMatching.Lexing.Site

namespace BracketMatching

/-- A noteworthy moment of a search.  `start` is the offset that a scan starts
at: just after an opener, or just before a closer. -/
inductive Event
  /-- The search for the partner of the bracket before `caret` began. -/
  | search (caret : Nat)
  /-- The forward glance could not decide. -/
  | forwardUndecided (start : Nat)
  /-- The backward glance could not decide. -/
  | backwardUndecided (start : Nat)
  /-- The opener stands in a comment. -/
  | forwardInComment (start : Nat) (site : Site)
  /-- The closer stands in a comment. -/
  | backwardInComment (start : Nat) (site : Site)
  /-- A window was too narrow; the next one starts at `windowStart`. -/
  | widened (windowStart start : Nat)
  /-- Read from the start of the window, the closer is not code. -/
  | outOfContext (windowStart start : Nat)
  deriving DecidableEq, Repr

/-- The event in words. -/
def Event.message : Event → String
  | .search _ => "search"
  | .forwardUndecided _ => "quick forward scan inconclusive, running full scan"
  | .backwardUndecided _ => "quick backward scan inconclusive, running full scan"
  | .forwardInComment .. => "forward scan starts in a comment"
  | .backwardInComment .. => "backward scan starts in a comment"
  | .widened .. => "widening backward replay window"
  | .outOfContext .. => "closer is not code, or a stray block comment end precedes it"

/-- A result with the events that led to it, first things first. -/
structure Traced (α : Type) where
  result : α
  events : List Event := []
  deriving DecidableEq, Repr

namespace Traced

variable {α β : Type}

/-- A result that nothing noteworthy led to. -/
def quiet (result : α) : Traced α where
  result := result

/-- The same result, with an event before all others. -/
def after (traced : Traced α) (event : Event) : Traced α :=
  { traced with events := event :: traced.events }

/-- The events of `traced`, with its result changed by `f`. -/
def map (f : α → β) (traced : Traced α) : Traced β where
  result := f traced.result
  events := traced.events

end Traced

end BracketMatching
