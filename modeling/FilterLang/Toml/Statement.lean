import FilterLang.Toml.Text
import FilterLang.Toml.Unquoted

/-!
# TOML statements

A document is a list of statements: bindings of keys, and headers that name the table to which the
bindings after them belong. A key may be a path of at most eighty keys with dots between them, all
on one line. Arrays and inline tables may extend over several lines, and nest eighty levels deep.

Reading statements does not decide whether they agree with each other.
-/

namespace FilterLang

namespace Toml

/-- A path of keys. -/
abbrev Path := List String

/-- A value as it is written. -/
inductive Literal where
  | atom (value : Toml)
  | array (items : List Literal)
  | table (bindings : List (Path × Literal))

/-- A statement of a document. -/
inductive Statement where
  /-- Binds a path in the current table. -/
  | binding (path : Path) (value : Literal)
  /-- Makes a table the current one. -/
  | header (path : Path)
  /-- Makes a new table at the end of an array the current one. -/
  | arrayHeader (path : Path)

/-- A text without the comment at its start. -/
def skipComment : List Char → List Char
  | '#' :: rest => rest.dropWhile fun c => !isControl c
  | text => text

/-- Skips white space, comments and line breaks, at most `fuel` of these. -/
def skipGaps (fuel : Nat) (text : List Char) : List Char :=
  let rest := skipComment (skipSpace text)
  match fuel, readLineBreak? rest with
  | fuel + 1, some next => skipGaps fuel next
  | _, _ => rest

/-- A text without the white space, comments and line breaks at its start. -/
def skipGap (text : List Char) : List Char := skipGaps text.length text

/-- Reads the end of a line, with white space and a comment before it. -/
def readLineEnd? (text : List Char) : Option (List Char) :=
  match skipComment (skipSpace text) with
  | [] => some []
  | rest => readLineBreak? rest

/-- Whether a character may stand in a key without quotes. -/
def isKeyChar (c : Char) : Bool := c.isAlphanum || c == '_' || c == '-'

/-- Reads one key. -/
def readKey? (text : List Char) : Option (String × List Char) :=
  match text.takeWhile isKeyChar with
  | [] => readLineString? text
  | cs => some (String.ofList cs, text.dropWhile isKeyChar)

/-- The number of keys that a path may have. -/
def pathLimit : Nat := 80

/-- Reads a path of at most `limit` keys, with white space after it. -/
def readKeys? (limit : Nat) (text : List Char) : Option (Path × List Char) :=
  match limit with
  | 0 => none
  | limit + 1 => do
    let (key, rest) ← readKey? text
    match skipSpace rest with
    | '.' :: rest =>
      let (path, rest) ← readKeys? limit (skipSpace rest)
      some (key :: path, rest)
    | rest => some ([key], rest)

/-- Reads a path, with white space after it. -/
def readPath? (text : List Char) : Option (Path × List Char) := readKeys? pathLimit text

/-- The number of levels that arrays and inline tables may nest. -/
def depthLimit : Nat := 80

mutual

/-- Reads a value that nests at most `depth` levels. -/
def readValue? (fuel depth : Nat) (text : List Char) : Option (Literal × List Char) :=
  match fuel with
  | 0 => none
  | fuel + 1 =>
    match text with
    | '"' :: rest =>
      (readString? ('"' :: rest)).map fun (value, rest) => (.atom (.string value), rest)
    | '\'' :: rest =>
      (readString? ('\'' :: rest)).map fun (value, rest) => (.atom (.string value), rest)
    | '[' :: rest =>
      match depth with
      | 0 => none
      | depth + 1 =>
        (readItems? fuel depth (skipGap rest)).map fun (items, rest) => (.array items, rest)
    | '\x7b' :: rest =>
      match depth with
      | 0 => none
      | depth + 1 =>
        (readBindings? fuel depth (skipGap rest)).map fun (bindings, rest) =>
          (.table bindings, rest)
    | text => (readUnquoted? text).map fun (value, rest) => (.atom value, rest)

/-- Reads the items of an array, with commas between them and perhaps after the last, and the
bracket that ends it. -/
def readItems? (fuel depth : Nat) (text : List Char) : Option (List Literal × List Char) :=
  match fuel, text with
  | 0, _ => none
  | _, ']' :: rest => some ([], rest)
  | fuel + 1, text => do
    let (item, rest) ← readValue? fuel depth text
    match skipGap rest with
    | ']' :: rest => some ([item], rest)
    | ',' :: rest =>
      let (items, rest) ← readItems? fuel depth (skipGap rest)
      some (item :: items, rest)
    | _ => none

/-- Reads the bindings of an inline table, with commas between them and perhaps after the last, and
the brace that ends it. -/
def readBindings? (fuel depth : Nat) (text : List Char) :
    Option (List (Path × Literal) × List Char) :=
  match fuel, text with
  | 0, _ => none
  | _, '\x7d' :: rest => some ([], rest)
  | fuel + 1, text => do
    let (path, value, rest) ← readBinding? skipGap fuel depth text
    match skipGap rest with
    | '\x7d' :: rest => some ([(path, value)], rest)
    | ',' :: rest =>
      let (bindings, rest) ← readBindings? fuel depth (skipGap rest)
      some ((path, value) :: bindings, rest)
    | _ => none

/-- Reads a path, an equals sign and a value. What `skip` skips may stand around the sign: white
space, and in an inline table comments and line breaks too. -/
def readBinding? (skip : List Char → List Char) (fuel depth : Nat) (text : List Char) :
    Option (Path × Literal × List Char) :=
  match fuel with
  | 0 => none
  | fuel + 1 => do
    let (path, rest) ← readPath? text
    match skip rest with
    | '=' :: rest =>
      let (value, rest) ← readValue? fuel depth (skip rest)
      some (path, value, rest)
    | _ => none

end

/-- Reads a statement, without the end of its line. -/
def readStatement? (text : List Char) : Option (Statement × List Char) :=
  match text with
  | '[' :: '[' :: rest => do
    let (path, rest) ← readPath? (skipSpace rest)
    match rest with
    | ']' :: ']' :: rest => some (.arrayHeader path, rest)
    | _ => none
  | '[' :: rest => do
    let (path, rest) ← readPath? (skipSpace rest)
    match rest with
    | ']' :: rest => some (.header path, rest)
    | _ => none
  | text => do
    let (path, value, rest) ← readBinding? skipSpace (3 * text.length + 3) depthLimit text
    some (.binding path value, rest)

/-- Reads statements, each on lines of its own. -/
def readStatements? (fuel : Nat) (text : List Char) : Option (List Statement) :=
  match fuel, skipGap text with
  | _, [] => some []
  | 0, _ => none
  | fuel + 1, text => do
    let (statement, rest) ← readStatement? text
    let rest ← readLineEnd? rest
    let statements ← readStatements? fuel rest
    some (statement :: statements)

/-- The statements of a document. A byte order mark may stand at its start. -/
def statements? (text : String) : Option (List Statement) :=
  match text.toList with
  | '\ufeff' :: rest => readStatements? rest.length rest
  | text => readStatements? text.length text

end Toml

end FilterLang
