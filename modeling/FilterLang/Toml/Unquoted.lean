import FilterLang.Toml.Number
import FilterLang.Toml.Text

/-!
# TOML values without quotes

Booleans, numbers and moments stand without quotes. Such a value reaches as far as one word follows
another on its line, so that a date and a time with a space between them are one value. Whether it
is a number or a moment shows in what follows the digits at its start. A base mark alone is a
misspelled integer.
-/

namespace FilterLang

namespace Toml

/-- The characters other than white space that end a word. -/
def wordEnds : List Char := ['=', ',', '[', ']', '\x7b', '\x7d', '#', '\r', '\n']

/-- Whether a character may stand in a word. -/
def isWordChar (c : Char) : Bool := !isSpace c && !wordEnds.contains c

/-- Whether a text starts with a word that goes on with the value before it. A word with a point or
a quote at its start does not. -/
def continuesValue : List Char → Bool
  | [] => false
  | c :: _ => isWordChar c && c != '.' && c != '"' && c != '\''

/-- Splits a text after the words that it starts with. -/
def splitWords : List Char → List Char × List Char
  | [] => ([], [])
  | c :: rest =>
    if isWordChar c || (isSpace c && continuesValue (skipSpace rest)) then
      let (words, rest) := splitWords rest
      (c :: words, rest)
    else ([], c :: rest)

/-- Whether a character stands in floats alone. -/
def isFloatMark (c : Char) : Bool := c == '.' || isPowerMark c

/-- The decimal number that a text has the shape of, after its sign. It starts with a digit. -/
def readNumber? (negative : Bool) (text : List Char) : Option Toml :=
  let rest := text.dropWhile Char.isDigit
  if rest.contains ' ' then none
  else if rest.any isFloatMark then (readDecimal? negative text).map .float
  else if rest.isEmpty || rest.head? == some '_' then readInteger? negative text
  else none

/-- The boolean, number or moment that a text consists of. -/
def unquoted? : List Char → Option Toml
  | ['t', 'r', 'u', 'e'] => some (.boolean true)
  | ['f', 'a', 'l', 's', 'e'] => some (.boolean false)
  | ['0', 'x'] => some (.misspelled "0x")
  | ['0', 'o'] => some (.misspelled "0o")
  | ['0', 'b'] => some (.misspelled "0b")
  | '0' :: 'x' :: rest => readBased? 16 rest
  | '0' :: 'o' :: rest => readBased? 8 rest
  | '0' :: 'b' :: rest => readBased? 2 rest
  | text =>
    match splitSign text with
    | (negative, ['i', 'n', 'f']) => some (.float (.infinity negative))
    | (_, ['n', 'a', 'n']) => some (.float .notANumber)
    | (negative, number) =>
      match number.takeWhile Char.isDigit, number.dropWhile Char.isDigit with
      | [], _ => none
      | _, '-' :: _ => (Moment.read? text).map .moment
      | _, ':' :: _ => (Moment.read? text).map .moment
      | _, _ => readNumber? negative number

/-- Reads a boolean, a number or a moment. -/
def readUnquoted? (text : List Char) : Option (Toml × List Char) :=
  let (words, rest) := splitWords text
  (unquoted? words).map fun value => (value, rest)

end Toml

end FilterLang
