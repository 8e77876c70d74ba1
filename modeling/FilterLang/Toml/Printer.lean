import FilterLang.Number.Style
import FilterLang.Toml.Value

/-!
# Writing TOML

A value is written on one line where its strings allow it, with tables inline and their entries in
the order of the keys. A string stands in the plainest quotes that it needs no escapes in.
-/

namespace FilterLang

namespace Toml

/-- Floats are written positionally, whole ones with `.0`. -/
def numberStyle : NumberStyle where
  positional := none
  pointZero := true
  tie := .up
  notANumber := "nan"

/-- Whether a character can only be written as an escape. -/
def needsCode (c : Char) : Bool :=
  (c.toNat < 0x20 && c != '\t' && c != '\n') || c.toNat == 0x7F

/-- The length of the longest run of a character. -/
def longestRun (c : Char) (text : List Char) : Nat :=
  (text.foldl (fun (run, longest) other =>
    let run := if other = c then run + 1 else 0
    (run, max run longest)) (0, 0)).2

/-- A natural in four hexadecimal digits. -/
def hexCode (n : Nat) : List Char :=
  let digits := (Nat.toDigits 16 n).map Char.toUpper
  List.replicate (4 - digits.length) '0' ++ digits

/-- A character in a basic string. A quote is escaped when `room` more may not stand unescaped. -/
def basicChar (multiline : Bool) (room : Nat) (c : Char) : List Char :=
  match c with
  | '"' => if room = 0 then ['\\', '"'] else ['"']
  | '\\' => ['\\', '\\']
  | '\x08' => ['\\', 'b']
  | '\t' => ['\\', 't']
  | '\n' => if multiline then ['\n'] else ['\\', 'n']
  | '\x0c' => ['\\', 'f']
  | '\r' => ['\\', 'r']
  | c => if needsCode c then '\\' :: 'u' :: hexCode c.toNat else [c]

/-- The characters of a basic string without its quotes. On several lines two quotes may stand
together, and after an escape two more. -/
def basicBody (multiline : Bool) (room : Nat) : List Char → List Char
  | [] => []
  | c :: rest =>
    let full := if multiline then 2 else 0
    let left := if c = '"' ∧ room ≠ 0 then room - 1 else full
    basicChar multiline room c ++ basicBody multiline left rest

/-- The characters of a string in its quotes. -/
def stringChars (text : List Char) : List Char :=
  let coded := text.any needsCode
  let broken := text.contains '\n'
  let escaped := text.contains '\\'
  let doubles := longestRun '"' text
  let singles := longestRun '\'' text
  let lineBreak := if broken then ['\n'] else []
  let doubleQuotes := ['"', '"', '"']
  let singleQuotes := ['\'', '\'', '\'']
  if !coded && !escaped && doubles == 0 && !broken then
    '"' :: (basicBody false 0 text ++ ['"'])
  else if !coded && singles == 0 && !broken then
    '\'' :: (text ++ ['\''])
  else if !coded && !escaped && doubles ≤ 2 then
    doubleQuotes ++ lineBreak ++ basicBody true 2 text ++ doubleQuotes
  else if !coded && singles ≤ 2 then
    singleQuotes ++ lineBreak ++ text ++ singleQuotes
  else if broken then
    doubleQuotes ++ lineBreak ++ basicBody true 2 text ++ doubleQuotes
  else
    '"' :: (basicBody false 0 text ++ ['"'])

/-- The characters of a key. -/
def keyChars (key : List Char) : List Char :=
  if !key.isEmpty && key.all fun c => c.isAlphanum || c == '_' || c == '-' then key
  else if !key.any (fun c => needsCode c || c == '\n' || c == '\\' || c == '"') then
    '"' :: (basicBody false 0 key ++ ['"'])
  else if !key.any (fun c => needsCode c || c == '\n' || c == '\'') then '\'' :: (key ++ ['\''])
  else '"' :: (basicBody false 0 key ++ ['"'])

/-- Texts with a comma and a space between them. -/
def commaSeparated (texts : List (List Char)) : List Char := [',', ' '].intercalate texts

mutual

/-- The characters of a value. -/
def chars : Toml → List Char
  | .string value => stringChars value.toList
  | .integer value => (toString value).toList
  | .misspelled text => text.toList
  | .float value => (numberStyle.render value.nearest).toList
  | .boolean true => ['t', 'r', 'u', 'e']
  | .boolean false => ['f', 'a', 'l', 's', 'e']
  | .moment value => value.text.toList
  | .array items => '[' :: (commaSeparated (itemTexts items) ++ [']'])
  | .table [] => ['\x7b', '\x7d']
  | .table (entry :: rest) =>
    '\x7b' :: ' ' :: (commaSeparated (entryText entry :: entryTexts rest) ++ [' ', '\x7d'])
termination_by structural value => value

/-- The characters of each value of a list. -/
def itemTexts : List Toml → List (List Char)
  | [] => []
  | item :: rest => chars item :: itemTexts rest
termination_by structural items => items

/-- The characters of an entry. -/
def entryText : String × Toml → List Char
  | (key, value) => keyChars key.toList ++ ' ' :: '=' :: ' ' :: chars value
termination_by structural entry => entry

/-- The characters of each entry of a list. -/
def entryTexts : List (String × Toml) → List (List Char)
  | [] => []
  | entry :: rest => entryText entry :: entryTexts rest
termination_by structural entries => entries

end

/-- The text of a value. -/
def text (value : Toml) : String := String.ofList (chars value)

end Toml

end FilterLang
