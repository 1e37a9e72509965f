/-
Quoted characters: how a character is named inside a message.

The character stands between apostrophes.  The six controls and signs that
have a one-letter spelling are written with it after a backslash
(`shortEscape`), a character that could not be seen or would be drawn onto the
quote is written by its code point in lower-case hexadecimal, and every other
character stands for itself.  A double quote needs no escape between apostrophes.
-/
import BracketMatching.Unicode.GraphemeExtend
import BracketMatching.Unicode.Unprintable

namespace BracketMatching

/-- The letter that spells `c` after a backslash, if it has one. -/
def shortEscape : Char → Option Char
  | '\x00' => some '0'
  | '\t' => some 't'
  | '\r' => some 'r'
  | '\n' => some 'n'
  | '\'' => some '\''
  | '\\' => some '\\'
  | _ => none

/-- The code point of `c` between braces, after a backslash and `u`. -/
def codePointEscape (c : Char) : List Char :=
  '\\' :: 'u' :: '\x7b' :: (Nat.toDigits 16 c.toNat ++ ['\x7d'])

/-- The spelling of `c` between the apostrophes. -/
def spelled (c : Char) : List Char :=
  match shortEscape c with
  | some letter => ['\\', letter]
  | none =>
    if Unicode.isCombining c || Unicode.isUnprintable c then codePointEscape c else [c]

/-- The character between apostrophes, as messages show it. -/
def quoted (c : Char) : String := String.ofList ('\'' :: (spelled c ++ ['\'']))

end BracketMatching
