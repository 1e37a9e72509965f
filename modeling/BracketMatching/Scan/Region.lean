/-
Regions: which brackets a scan counts.

A scan that starts in code counts the brackets in code; one that starts in a
literal counts those in literals and ends with its own.  From a comment no scan
starts.
-/
import BracketMatching.Lexing.Site

namespace BracketMatching

/-- The part of a text whose brackets a scan counts. -/
inductive Region
  | code
  | literal
  deriving DecidableEq, Repr

/-- Whether a bracket in context `ctx` counts. -/
def Region.admits : Region → Context → Bool
  | .code, ctx => ctx.isCode
  | .literal, ctx => ctx.inLiteral

/-- The region of a scan that starts at a site, with the context that it starts
in; none in a comment. -/
def Site.region? : Site → Option (Region × Context)
  | .code => some (.code, .code)
  | .literal ctx => some (.literal, ctx)
  | .lineComment | .blockComment => none

end BracketMatching
