import FilterLang.Json.Value
import FilterLang.Number.Style

/-!
# Writing JSON

`Json.compact` writes a value without white space. `Json.pretty` writes every item and member on a
line of its own, two spaces deeper than what encloses it; empty arrays and objects stay on one line.
-/

namespace FilterLang

namespace Json

/-- Numbers are written positionally from `10 ^ -5` up to below `10 ^ 16`, whole ones with `.0`, and
with a signed power of ten elsewhere. -/
def numberStyle : NumberStyle where
  positional := some (-5, 15)
  pointZero := true
  tie := .even
  notANumber := "null"

/-- The letter that stands for a character after a backslash. -/
def escapeLetter? : Char → Option Char
  | '"' => some '"'
  | '\\' => some '\\'
  | '\x08' => some 'b'
  | '\x0c' => some 'f'
  | '\n' => some 'n'
  | '\r' => some 'r'
  | '\t' => some 't'
  | _ => none

/-- The hexadecimal digit of a number below sixteen. -/
def hexDigit (n : Nat) : Char := if n < 10 then Char.ofNat (48 + n) else Char.ofNat (87 + n)

/-- A character as it is written inside a string. -/
def stringChar (c : Char) : List Char :=
  match escapeLetter? c with
  | some letter => ['\\', letter]
  | none =>
    if c.toNat < 0x20 then
      ['\\', 'u', '0', '0', hexDigit (c.toNat / 16), hexDigit (c.toNat % 16)]
    else
      [c]

/-- The characters of a string, in quotes. -/
def stringChars (text : String) : List Char := '"' :: (text.toList.flatMap stringChar ++ ['"'])

/-- The characters of an integer. -/
def intChars (value : Int64) : List Char :=
  match value.toInt with
  | .ofNat n => Nat.toDigits 10 n
  | .negSucc n => '-' :: Nat.toDigits 10 (n + 1)

mutual

/-- The characters of a value, without white space. -/
def chars : Json → List Char
  | .null => ['n', 'u', 'l', 'l']
  | .bool true => ['t', 'r', 'u', 'e']
  | .bool false => ['f', 'a', 'l', 's', 'e']
  | .int value => intChars value
  | .float value => (numberStyle.render value.value).toList
  | .string value => stringChars value
  | .array [] => ['[', ']']
  | .array (item :: rest) => '[' :: (chars item ++ moreItems rest)
  | .object [] => ['\x7b', '\x7d']
  | .object ((name, value) :: rest) =>
    '\x7b' :: (stringChars name ++ ':' :: (chars value ++ moreMembers rest))
termination_by structural value => value

/-- The remaining items of an array, each after a comma, and its end. -/
def moreItems : List Json → List Char
  | [] => [']']
  | item :: rest => ',' :: (chars item ++ moreItems rest)
termination_by structural items => items

/-- The remaining members of an object, each after a comma, and its end. -/
def moreMembers : List (String × Json) → List Char
  | [] => ['\x7d']
  | (name, value) :: rest =>
    ',' :: (stringChars name ++ ':' :: (chars value ++ moreMembers rest))
termination_by structural members => members

end

/-- The text of a value, without white space. -/
def compact (value : Json) : String := String.ofList (chars value)

/-- A line break and the indentation of a depth. -/
def lineBreak (depth : Nat) : List Char := '\n' :: List.replicate (2 * depth) ' '

mutual

/-- The characters of a value whose first line starts at a depth. -/
def prettyChars (depth : Nat) : Json → List Char
  | .array (item :: rest) =>
    '[' :: (lineBreak (depth + 1) ++ prettyChars (depth + 1) item ++ morePrettyItems depth rest)
  | .object ((name, value) :: rest) =>
    '\x7b' :: (lineBreak (depth + 1) ++ stringChars name ++ ':' :: ' ' ::
      (prettyChars (depth + 1) value ++ morePrettyMembers depth rest))
  | .array [] => ['[', ']']
  | .object [] => ['\x7b', '\x7d']
  | .null => chars .null
  | .bool value => chars (.bool value)
  | .int value => chars (.int value)
  | .float value => chars (.float value)
  | .string value => chars (.string value)
termination_by structural value => value

/-- The remaining items of an array at a depth, each on a line of its own, and its end. -/
def morePrettyItems (depth : Nat) : List Json → List Char
  | [] => lineBreak depth ++ [']']
  | item :: rest =>
    ',' :: (lineBreak (depth + 1) ++ prettyChars (depth + 1) item ++ morePrettyItems depth rest)
termination_by structural items => items

/-- The remaining members of an object at a depth, each on a line of its own, and its end. -/
def morePrettyMembers (depth : Nat) : List (String × Json) → List Char
  | [] => lineBreak depth ++ ['\x7d']
  | (name, value) :: rest =>
    ',' :: (lineBreak (depth + 1) ++ stringChars name ++ ':' :: ' ' ::
      (prettyChars (depth + 1) value ++ morePrettyMembers depth rest))
termination_by structural members => members

end

/-- The text of a value over several lines. -/
def pretty (value : Json) : String := String.ofList (prettyChars 0 value)

end Json

end FilterLang
