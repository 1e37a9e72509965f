/-
Contexts: what a position of a text is inside of, and how one character
changes that.

The rules are those of the C family:

* a string `"…"`, where a backslash escapes the next character;
* a verbatim string, opened by a quote after `@`, where only a doubled quote is
  an escape;
* a character literal `'…'`, with the escapes of a string;
* a line comment and a block comment, which does not nest.

A line break ends line comments, character literals and strings, but neither
verbatim strings nor block comments; an escaped line break ends nothing, since
the escape consumes it.

`Context.step` is one move of a reading: the context after the glyph read, and
how many characters the move consumed — two for comment markers, escapes and
doubled quotes, one otherwise.

Design notes: the five flags are independent, and the rules are stated flag by
flag, so a step is defined for all thirty-two contexts, including those that no
reading from code arrives at (a string and a comment at once, say).  A step
consumes at least one character by its type, which is what makes readings end.
-/
import BracketMatching.Lexing.Glyph

namespace BracketMatching

/-- What a position lies inside of. -/
structure Context where
  /-- In a string, verbatim or not. -/
  string : Bool := false
  /-- In a character literal. -/
  char : Bool := false
  /-- In a verbatim string. -/
  verbatim : Bool := false
  /-- In a line comment. -/
  lineComment : Bool := false
  /-- In a block comment. -/
  blockComment : Bool := false
  deriving DecidableEq, Repr

/-- One move of a reading. -/
structure Step where
  /-- The context after the characters consumed. -/
  next : Context
  /-- How many characters the move consumed. -/
  consumed : Nat
  consumed_pos : 0 < consumed := by decide
  deriving DecidableEq, Repr

namespace Step

/-- The move that consumes one character and arrives in `next`. -/
def one (next : Context) : Step where
  next := next
  consumed := 1

/-- The move that consumes two characters and arrives in `next`. -/
def two (next : Context) : Step where
  next := next
  consumed := 2

end Step

namespace Context

/-- Outside of every literal and comment. -/
def code : Context := {}

/-- Inside a string or a character literal. -/
def inLiteral (ctx : Context) : Bool := ctx.string || ctx.char

/-- Inside a line comment or a block comment. -/
def inComment (ctx : Context) : Bool := ctx.lineComment || ctx.blockComment

/-- Outside of literals and comments, where brackets are real syntax. -/
def isCode (ctx : Context) : Bool := !(ctx.inLiteral || ctx.inComment)

/-- Inside a literal in which a backslash escapes. -/
def escapes (ctx : Context) : Bool := (ctx.string && !ctx.verbatim) || ctx.char

/-- The context behind a line break: only verbatim strings and block comments
survive it. -/
def brokenLine (ctx : Context) : Context :=
  { ctx with
    string := ctx.string && ctx.verbatim
    char := false
    lineComment := false }

/-- The move at a quote, given the glyphs around it. -/
def stepQuote (ctx : Context) (before after : Option Glyph) : Step :=
  if ctx.char || ctx.inComment then .one ctx
  else if ctx.verbatim then
    -- A doubled quote stands for one quote inside the string.
    if after = some .quote then .two ctx
    else .one { ctx with string := false, verbatim := false }
  else if ctx.string then .one { ctx with string := false }
  else .one { ctx with string := true, verbatim := before = some .atSign }

/-- The move at a slash, given the glyph after it. -/
def stepSlash (ctx : Context) (after : Option Glyph) : Step :=
  if ctx.isCode then
    match after with
    | some .slash => .two { ctx with lineComment := true }
    | some .star => .two { ctx with blockComment := true }
    | _ => .one ctx
  else .one ctx

/-- The move at the glyph `here`, between the glyphs `before` and `after`, if
the text has such. -/
def step (ctx : Context) (before : Option Glyph) (here : Glyph) (after : Option Glyph) : Step :=
  match here with
  | .lineFeed | .carriageReturn => .one ctx.brokenLine
  | .slash => ctx.stepSlash after
  | .star =>
    if ctx.blockComment ∧ after = some .slash then .two { ctx with blockComment := false }
    else .one ctx
  | .quote => ctx.stepQuote before after
  | .apostrophe =>
    if ctx.string || ctx.inComment then .one ctx else .one { ctx with char := !ctx.char }
  | .backslash => if ctx.escapes then .two ctx else .one ctx
  | .atSign | .plain => .one ctx

/-! ### Small laws -/

/-- A character without a meaning changes nothing. -/
@[simp] theorem step_plain (ctx : Context) (before after : Option Glyph) :
    ctx.step before .plain after = .one ctx := rfl

/-- A move consumes one or two characters. -/
theorem consumed_step_le (ctx : Context) (before : Option Glyph) (here : Glyph)
    (after : Option Glyph) : (ctx.step before here after).consumed ≤ 2 := by
  unfold step stepSlash stepQuote
  split <;> (repeat' split) <;> simp [Step.one, Step.two]

end Context

end BracketMatching
