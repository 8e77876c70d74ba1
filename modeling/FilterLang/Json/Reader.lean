import FilterLang.Json.Number

/-!
# Reading JSON

A reader takes a prefix of the text and gives back its value and the rest. Arrays and objects may
nest 127 levels deep. A string may hold any character but quotes, backslashes and control characters
as it stands, and escapes of every Unicode character; half a surrogate pair is no character.
-/

namespace FilterLang

namespace Json

/-- Whether a character may stand between the parts of a JSON text. -/
def isSpace (c : Char) : Bool := c == ' ' || c == '\n' || c == '\r' || c == '\t'

/-- A text without the white space at its start. -/
def skipSpace (text : List Char) : List Char := text.dropWhile isSpace

/-- The character that a letter stands for after a backslash. -/
def unescape? : Char → Option Char
  | '"' => some '"'
  | '\\' => some '\\'
  | '/' => some '/'
  | 'b' => some '\x08'
  | 'f' => some '\x0c'
  | 'n' => some '\n'
  | 'r' => some '\r'
  | 't' => some '\t'
  | _ => none

/-- Reads the first character of a string that has not ended. -/
def readStringChar? : List Char → Option (Char × List Char)
  | '\\' :: 'u' :: a :: b :: c :: d :: rest => do
    let unit ← Digit.hexadecimal? [a, b, c, d]
    if unit < 0xD800 ∨ 0xE000 ≤ unit then
      some (Char.ofNat unit, rest)
    else if unit < 0xDC00 then
      match rest with
      | '\\' :: 'u' :: a :: b :: c :: d :: rest =>
        let low ← Digit.hexadecimal? [a, b, c, d]
        if 0xDC00 ≤ low ∧ low < 0xE000 then
          some (Char.ofNat (0x10000 + (unit - 0xD800) * 0x400 + (low - 0xDC00)), rest)
        else
          none
      | _ => none
    else
      none
  | '\\' :: letter :: rest => (unescape? letter).map fun c => (c, rest)
  | c :: rest => if c = '\\' ∨ c = '"' ∨ c.toNat < 0x20 then none else some (c, rest)
  | [] => none

/-- Reads the characters of a string up to the quote that ends it. -/
def readStringBody? (fuel : Nat) (text : List Char) : Option (List Char × List Char) :=
  match fuel, text with
  | _, '"' :: rest => some ([], rest)
  | 0, _ => none
  | fuel + 1, text => do
    let (c, rest) ← readStringChar? text
    let (cs, rest) ← readStringBody? fuel rest
    some (c :: cs, rest)

/-- Reads a string. -/
def readString? : List Char → Option (String × List Char)
  | '"' :: rest => (readStringBody? rest.length rest).map fun (cs, rest) => (String.ofList cs, rest)
  | _ => none

/-- The number of levels that arrays and objects may nest. -/
def depthLimit : Nat := 127

mutual

/-- Reads a value that stands at the start of the text and nests at most `depth` levels. -/
def readValue? (fuel depth : Nat) (text : List Char) : Option (Json × List Char) :=
  match fuel with
  | 0 => none
  | fuel + 1 =>
    match text with
    | 'n' :: 'u' :: 'l' :: 'l' :: rest => some (.null, rest)
    | 't' :: 'r' :: 'u' :: 'e' :: rest => some (.bool true, rest)
    | 'f' :: 'a' :: 'l' :: 's' :: 'e' :: rest => some (.bool false, rest)
    | '"' :: rest => (readString? ('"' :: rest)).map fun (value, rest) => (.string value, rest)
    | '[' :: rest =>
      match depth with
      | 0 => none
      | depth + 1 =>
        match skipSpace rest with
        | ']' :: rest => some (.array [], rest)
        | rest => (readItems? fuel depth rest).map fun (items, rest) => (.array items, rest)
    | '\x7b' :: rest =>
      match depth with
      | 0 => none
      | depth + 1 =>
        match skipSpace rest with
        | '\x7d' :: rest => some (.object [], rest)
        | rest => (readMembers? fuel depth rest).map fun (members, rest) => (.object members, rest)
    | text => readNumber? text

/-- Reads items with commas between them, up to the bracket that ends the array. -/
def readItems? (fuel depth : Nat) (text : List Char) : Option (List Json × List Char) :=
  match fuel with
  | 0 => none
  | fuel + 1 => do
    let (item, rest) ← readValue? fuel depth (skipSpace text)
    match skipSpace rest with
    | ']' :: rest => some ([item], rest)
    | ',' :: rest => (readItems? fuel depth rest).map fun (items, rest) => (item :: items, rest)
    | _ => none

/-- Reads members with commas between them, up to the brace that ends the object. -/
def readMembers? (fuel depth : Nat) (text : List Char) :
    Option (List (String × Json) × List Char) :=
  match fuel with
  | 0 => none
  | fuel + 1 => do
    let (name, rest) ← readString? (skipSpace text)
    match skipSpace rest with
    | ':' :: rest =>
      let (value, rest) ← readValue? fuel depth (skipSpace rest)
      match skipSpace rest with
      | '\x7d' :: rest => some ([(name, value)], rest)
      | ',' :: rest =>
        (readMembers? fuel depth rest).map fun (members, rest) => ((name, value) :: members, rest)
      | _ => none
    | _ => none

end

/-- Reads the value that a text consists of, apart from white space around it. -/
def readChars? (text : List Char) : Option Json :=
  match readValue? (2 * text.length + 1) depthLimit (skipSpace text) with
  | some (value, rest) => if (skipSpace rest).isEmpty then some value else none
  | none => none

/-- Reads the value that a text consists of. -/
def read? (text : String) : Option Json := readChars? text.toList

end Json

end FilterLang
