import FilterLang.Json.Reader
import FilterLang.Number.Shortest

/-!
# The grammar of JSON

`Json.Spells text value` says that a text is written by the grammar of JSON and stands for a value.
Nothing is said here of how texts are written or read. White space may stand around every part, a
character of a string may be written in several ways, and arrays and objects may nest to any depth.
A number of nothing but digits stands for an integer of 64 bits, and no wider one has a value here.
A number with a fraction or a power of ten stands for the double that it rounds to.
-/

namespace FilterLang

/-- Induction over a JSON value, from the values directly inside it. -/
@[induction_eliminator]
theorem Json.induction {motive : Json → Prop}
    (null : motive .null)
    (bool : ∀ value, motive (.bool value))
    (int : ∀ value, motive (.int value))
    (float : ∀ value, motive (.float value))
    (string : ∀ value, motive (.string value))
    (array : ∀ items : List Json, (∀ item ∈ items, motive item) → motive (.array items))
    (object : ∀ members : List (String × Json), (∀ member ∈ members, motive member.2) →
      motive (.object members))
    (value : Json) : motive value := by
  apply @Json.rec motive (fun items => ∀ item ∈ items, motive item)
    (fun members => ∀ member ∈ members, motive member.2) (fun member => motive member.2)
  · exact null
  · exact bool
  · exact int
  · exact float
  · exact string
  · exact array
  · exact object
  · simp
  · intro item rest first others
    exact List.forall_mem_cons.mpr ⟨first, others⟩
  · simp
  · intro member rest first others
    exact List.forall_mem_cons.mpr ⟨first, others⟩
  · intro name value holds
    exact holds

namespace Json

/-- White space, or nothing. -/
def Space (text : List Char) : Prop := ∀ c ∈ text, isSpace c = true

section Strings

/-- A text stands for a character inside a string. -/
inductive SpellsChar : List Char → Char → Prop
  /-- A character stands for itself, if it is neither a quote nor a backslash nor a control
  character. -/
  | plain {c : Char} (noQuote : c ≠ '"') (noBackslash : c ≠ '\\') (noControl : 0x20 ≤ c.toNat) :
      SpellsChar [c] c
  /-- A letter after a backslash. -/
  | letter {letter c : Char} (stands : unescape? letter = some c) : SpellsChar ['\\', letter] c
  /-- A character of the basic plane by its number. -/
  | code {digits : List Char} {c : Char} (four : digits.length = 4)
      (stands : Digit.hexadecimal? digits = some c.toNat) : SpellsChar ('\\' :: 'u' :: digits) c
  /-- Another character by a pair of surrogates. -/
  | pair {first second : List Char} {high low : Nat} {c : Char} (firstFour : first.length = 4)
      (secondFour : second.length = 4) (isHigh : Digit.hexadecimal? first = some (0xD800 + high))
      (highFits : high < 0x400) (isLow : Digit.hexadecimal? second = some (0xDC00 + low))
      (lowFits : low < 0x400) (stands : c.toNat = 0x10000 + high * 0x400 + low) :
      SpellsChar ('\\' :: 'u' :: (first ++ '\\' :: 'u' :: second)) c

/-- A text stands for the characters of a string, one after the other. -/
inductive SpellsChars : List Char → List Char → Prop
  | nil : SpellsChars [] []
  | cons {text rest : List Char} {c : Char} {cs : List Char} (first : SpellsChar text c)
      (others : SpellsChars rest cs) : SpellsChars (text ++ rest) (c :: cs)

/-- A text stands for a string. -/
def SpellsString (text : List Char) (value : String) : Prop :=
  ∃ inside, text = '"' :: (inside ++ ['"']) ∧ SpellsChars inside value.toList

end Strings

section Numbers

/-- One digit or more. -/
def IsDigits (text : List Char) : Prop := text ≠ [] ∧ ∀ c ∈ text, c.isDigit = true

/-- The digits before the point. They start with a zero only if it is the only one. -/
def IsWhole (text : List Char) : Prop :=
  IsDigits text ∧ (text.head? = some '0' → text.length = 1)

/-- A minus, or nothing. -/
def sign (negative : Bool) : List Char := if negative then ['-'] else []

/-- A text is nothing, or a point and the given digits. -/
inductive IsFraction : List Char → List Char → Prop
  | absent : IsFraction [] []
  | present {digits : List Char} (areDigits : IsDigits digits) : IsFraction ('.' :: digits) digits

/-- A text is nothing, or a power of ten. -/
inductive IsPower : List Char → Int → Prop
  | absent : IsPower [] 0
  | unsigned {e : Char} {digits : List Char} (isE : e = 'e' ∨ e = 'E')
      (areDigits : IsDigits digits) : IsPower (e :: digits) (Digit.decimal digits)
  | plus {e : Char} {digits : List Char} (isE : e = 'e' ∨ e = 'E')
      (areDigits : IsDigits digits) : IsPower (e :: '+' :: digits) (Digit.decimal digits)
  | minus {e : Char} {digits : List Char} (isE : e = 'e' ∨ e = 'E')
      (areDigits : IsDigits digits) : IsPower (e :: '-' :: digits) (-(Digit.decimal digits : Int))

/-- A text without a sign stands for a decimal that has a fraction or a power of ten. -/
inductive SpellsDecimal : List Char → Decimal → Prop
  | parts {whole fraction places power : List Char} {exponent : Int} (isWhole : IsWhole whole)
      (isFraction : IsFraction fraction places) (isPower : IsPower power exponent)
      (notWhole : fraction ++ power ≠ []) :
      SpellsDecimal (whole ++ (fraction ++ power))
        ⟨Digit.decimal (whole ++ places), exponent - places.length⟩

end Numbers

mutual

/-- A text stands for a value. -/
inductive Spells : List Char → Json → Prop
  | null : Spells ['n', 'u', 'l', 'l'] .null
  | yes : Spells ['t', 'r', 'u', 'e'] (.bool true)
  | no : Spells ['f', 'a', 'l', 's', 'e'] (.bool false)
  | int {negative : Bool} {digits : List Char} {value : Int64} (isWhole : IsWhole digits)
      (stands : value.toInt = if negative then -(Digit.decimal digits : Int)
        else Digit.decimal digits) :
      Spells (sign negative ++ digits) (.int value)
  | float {text : List Char} {decimal : Decimal} {value : FiniteNumber}
      (spelled : SpellsDecimal text decimal) (rounds : value.value.roundsTo decimal = true) :
      Spells (sign value.value.isNegative ++ text) (.float value)
  | string {text : List Char} {value : String} (spelled : SpellsString text value) :
      Spells text (.string value)
  | emptyArray {gap : List Char} (space : Space gap) : Spells ('[' :: (gap ++ [']'])) (.array [])
  | array {text : List Char} {items : List Json} (spelled : SpellsItems text items) :
      Spells ('[' :: (text ++ [']'])) (.array items)
  | emptyObject {gap : List Char} (space : Space gap) :
      Spells ('\x7b' :: (gap ++ ['\x7d'])) (.object [])
  | object {text : List Char} {members : List (String × Json)}
      (spelled : SpellsMembers text members) :
      Spells ('\x7b' :: (text ++ ['\x7d'])) (.object members)

/-- A text stands for a value and may have white space around it. -/
inductive SpellsElement : List Char → Json → Prop
  | spaced {front text back : List Char} {value : Json} (before : Space front)
      (spelled : Spells text value) (after : Space back) :
      SpellsElement (front ++ (text ++ back)) value

/-- A text stands for the items of an array, of which there is one at least. -/
inductive SpellsItems : List Char → List Json → Prop
  | last {text : List Char} {item : Json} (spelled : SpellsElement text item) :
      SpellsItems text [item]
  | more {text rest : List Char} {item : Json} {items : List Json}
      (spelled : SpellsElement text item) (others : SpellsItems rest items) :
      SpellsItems (text ++ ',' :: rest) (item :: items)

/-- A text stands for the members of an object, of which there is one at least. -/
inductive SpellsMembers : List Char → List (String × Json) → Prop
  | last {front label back text : List Char} {name : String} {value : Json} (before : Space front)
      (named : SpellsString label name) (after : Space back)
      (spelled : SpellsElement text value) :
      SpellsMembers (front ++ (label ++ (back ++ ':' :: text))) [(name, value)]
  | more {front label back text rest : List Char} {name : String} {value : Json}
      {members : List (String × Json)} (before : Space front) (named : SpellsString label name)
      (after : Space back) (spelled : SpellsElement text value)
      (others : SpellsMembers rest members) :
      SpellsMembers (front ++ (label ++ (back ++ ':' :: (text ++ ',' :: rest))))
        ((name, value) :: members)

end

end Json

end FilterLang
