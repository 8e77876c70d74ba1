import FilterLang.Text.Extender
import FilterLang.Text.Invisible

/-!
# Quoted text

A text in a message stands in double quotes. Inside them quotes, backslashes, the usual control
characters and NUL are written with a backslash and a letter, and every other character that would
not show on its own is written by its code point in hexadecimal.
-/

namespace FilterLang

namespace Quoted

/-- The letter that stands for a character after a backslash. -/
def letter? : Char → Option Char
  | '"' => some '"'
  | '\\' => some '\\'
  | '\n' => some 'n'
  | '\r' => some 'r'
  | '\t' => some 't'
  | '\x00' => some '0'
  | _ => none

/-- A character as it is written inside quotes. -/
def encodeChar (c : Char) : List Char :=
  match letter? c with
  | some letter => ['\\', letter]
  | none =>
    if isExtender c || isInvisible c then
      "\\u\x7b".toList ++ Nat.toDigits 16 c.toNat ++ ['\x7d']
    else
      [c]

/-- A text as it is written inside quotes. -/
def encode (text : List Char) : List Char := text.flatMap encodeChar

end Quoted

/-- A text in quotes. -/
def quoted (text : String) : String := String.ofList ('"' :: (Quoted.encode text.toList ++ ['"']))

end FilterLang
