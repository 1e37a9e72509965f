/-
Glyphs: what a character means to the lexing rules.

Eight characters drive the rules; to every other one they are indifferent, and
all of those share the glyph `plain`.  What is decided from glyphs alone is
therefore decided alike on texts that differ only in plain characters.

* `Glyph.ofChar_eq_plain_iff` — the plain characters are exactly the ones that
  are not among the eight;
* `Glyph.startsMark` — a quote or a comment marker starts here: `"`, `'`, or the
  first half of one of the pairs slash-slash, slash-star and star-slash.
-/
namespace BracketMatching

/-- The role of a character in the lexing rules. -/
inductive Glyph
  /-- `"`, which opens and closes strings. -/
  | quote
  /-- `'`, which opens and closes character literals. -/
  | apostrophe
  /-- `\`, which escapes in literals. -/
  | backslash
  /-- `/`, a half of the comment markers. -/
  | slash
  /-- `*`, the other half of the block comment markers. -/
  | star
  /-- `@`, which makes the string after it verbatim. -/
  | atSign
  /-- The line feed, which starts a line. -/
  | lineFeed
  /-- The carriage return, which breaks a line but starts none. -/
  | carriageReturn
  /-- Any other character. -/
  | plain
  deriving DecidableEq, Repr

namespace Glyph

/-- The role of `c`. -/
def ofChar : Char → Glyph
  | '"' => quote
  | '\'' => apostrophe
  | '\\' => backslash
  | '/' => slash
  | '*' => star
  | '@' => atSign
  | '\n' => lineFeed
  | '\r' => carriageReturn
  | _ => plain

/-- A line feed or a carriage return: what ends line comments and cuts off
literals that do not span lines. -/
def isLineBreak : Glyph → Bool
  | lineFeed | carriageReturn => true
  | _ => false

/-- Whether a quote or a comment marker starts at a glyph, given the next one. -/
def startsMark : Glyph → Option Glyph → Bool
  | quote, _ | apostrophe, _ => true
  | slash, some slash | slash, some star | star, some slash => true
  | _, _ => false

/-- The characters that the lexing rules react to. -/
def reactive : List Char := ['"', '\'', '\\', '/', '*', '@', '\n', '\r']

theorem ofChar_eq_plain_iff {c : Char} : ofChar c = plain ↔ c ∉ reactive := by
  unfold ofChar reactive
  split <;> simp_all

end Glyph

end BracketMatching
