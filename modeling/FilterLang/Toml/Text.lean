import FilterLang.Text.Digit

/-!
# TOML strings

A string stands in quotes, basic or literal, on one line or on several. Basic strings have escapes.
A string on several lines starts after the line break that follows its opening quotes, and ends at
the last of its closing quotes, of which up to two belong to it.
-/

namespace FilterLang

namespace Toml

/-- Whether a character may stand between the parts of a line. -/
def isSpace (c : Char) : Bool := c == ' ' || c == '\t'

/-- A text without the white space at its start. -/
def skipSpace (text : List Char) : List Char := text.dropWhile isSpace

/-- Whether a character has no place in a line. -/
def isControl (c : Char) : Bool := (c.toNat < 0x20 && c != '\t') || c.toNat == 0x7F

/-- Reads a line break. -/
def readLineBreak? : List Char → Option (List Char)
  | '\n' :: rest => some rest
  | '\r' :: '\n' :: rest => some rest
  | _ => none

/-- Skips white space and line breaks, at most `fuel` of these. -/
def skipLines (fuel : Nat) (text : List Char) : List Char :=
  match fuel, readLineBreak? (skipSpace text) with
  | fuel + 1, some rest => skipLines fuel rest
  | _, _ => skipSpace text

/-- Reads the code point of a character in a given number of hexadecimal digits. -/
def readCodePoint? (count : Nat) (text : List Char) : Option (Char × List Char) := do
  let digits := text.take count
  if digits.length = count then
    let code ← Digit.hexadecimal? digits
    if code.isValidChar then some (Char.ofNat code, text.drop count) else none
  else none

/-- Reads an escape after its backslash. -/
def readEscape? : List Char → Option (Char × List Char)
  | 'b' :: rest => some ('\x08', rest)
  | 't' :: rest => some ('\t', rest)
  | 'n' :: rest => some ('\n', rest)
  | 'f' :: rest => some ('\x0c', rest)
  | 'r' :: rest => some ('\r', rest)
  | 'e' :: rest => some ('\x1b', rest)
  | '"' :: rest => some ('"', rest)
  | '\\' :: rest => some ('\\', rest)
  | 'x' :: rest => readCodePoint? 2 rest
  | 'u' :: rest => readCodePoint? 4 rest
  | 'U' :: rest => readCodePoint? 8 rest
  | _ => none

/-- Reads a basic string on one line, after its opening quote. -/
def readBasic? (fuel : Nat) (text : List Char) : Option (List Char × List Char) :=
  match fuel, text with
  | _, '"' :: rest => some ([], rest)
  | fuel + 1, '\\' :: rest => do
    let (c, rest) ← readEscape? rest
    let (cs, rest) ← readBasic? fuel rest
    some (c :: cs, rest)
  | fuel + 1, c :: rest => do
    if isControl c then none
    else
      let (cs, rest) ← readBasic? fuel rest
      some (c :: cs, rest)
  | _, _ => none

/-- Reads a literal string on one line, after its opening quote. -/
def readLiteral? (text : List Char) : Option (List Char × List Char) :=
  let isPlain := fun c => c != '\'' && !isControl c
  match text.dropWhile isPlain with
  | '\'' :: rest => some (text.takeWhile isPlain, rest)
  | _ => none

/-- Reads a string on several lines, after its opening quotes and the line break there. -/
def readLines? (quote : Char) (fuel : Nat) (text : List Char) : Option (List Char × List Char) :=
  match fuel with
  | 0 => none
  | fuel + 1 =>
    let quotes := (text.takeWhile (· == quote)).length
    if 3 ≤ quotes then
      if quotes ≤ 5 then some (List.replicate (quotes - 3) quote, text.drop quotes) else none
    else
      match text with
      | [] => none
      | c :: rest =>
        if c = '\\' ∧ quote = '"' then
          match readLineBreak? (skipSpace rest) with
          | some next => readLines? quote fuel (skipLines next.length next)
          | none => do
            let (escaped, rest) ← readEscape? rest
            let (cs, rest) ← readLines? quote fuel rest
            some (escaped :: cs, rest)
        else if isControl c && (readLineBreak? text).isNone then none
        else do
          let (cs, rest) ← readLines? quote fuel rest
          some (c :: cs, rest)

/-- Reads a string on several lines, after its opening quotes. -/
def readMultiline? (quote : Char) (text : List Char) : Option (List Char × List Char) :=
  let body := (readLineBreak? text).getD text
  readLines? quote (body.length + 1) body

/-- Reads a string on one line, as keys are written. -/
def readLineString? : List Char → Option (String × List Char)
  | '"' :: rest => (readBasic? rest.length rest).map fun (cs, rest) => (String.ofList cs, rest)
  | '\'' :: rest => (readLiteral? rest).map fun (cs, rest) => (String.ofList cs, rest)
  | _ => none

/-- Reads a string. -/
def readString? : List Char → Option (String × List Char)
  | '"' :: '"' :: '"' :: rest =>
    (readMultiline? '"' rest).map fun (cs, rest) => (String.ofList cs, rest)
  | '\'' :: '\'' :: '\'' :: rest =>
    (readMultiline? '\'' rest).map fun (cs, rest) => (String.ofList cs, rest)
  | text => readLineString? text

end Toml

end FilterLang
