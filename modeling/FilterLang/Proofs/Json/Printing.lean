import FilterLang.Proofs.Json.RoundTrip
import FilterLang.Proofs.Json.WrittenNumber

/-!
# Values are written by the grammar

Every value is written, on one line or on several, as a text that stands for it by the grammar of
JSON, however deep it nests and whatever numbers are in it. Line breaks are white space around the
items and members; on one line there is none, not even in strings, where they are escaped.
-/

namespace FilterLang

namespace Json

section Strings

theorem spellsChar_stringChar (c : Char) : SpellsChar (stringChar c) c := by
  rw [stringChar]
  cases escaped : escapeLetter? c with
  | some letter =>
      unfold escapeLetter? at escaped
      split at escaped <;> cases escaped <;> exact .letter rfl
  | none =>
      by_cases control : c.toNat < 0x20
      · rw [if_pos control]
        exact .code rfl (hexadecimal?_control control)
      · rw [if_neg control]
        refine .plain ?_ ?_ (by omega)
        · rintro rfl
          cases escaped
        · rintro rfl
          cases escaped

theorem spellsChars_flatMap (cs : List Char) : SpellsChars (cs.flatMap stringChar) cs := by
  induction cs with
  | nil => exact .nil
  | cons c cs ih => exact .cons (spellsChar_stringChar c) ih

theorem spellsString_stringChars (text : String) : SpellsString (stringChars text) text :=
  ⟨_, rfl, spellsChars_flatMap text.toList⟩

end Strings

section Layouts

variable {write : Json → List Char} {front back gap : List Char}

/-- A layout writes white space before the items and after the last of them. It gives the items of
an array up to the bracket behind them. -/
theorem exists_spellsItems {tail : List Json → List Char} (before : Space front)
    (after : Space back) (tailNil : tail [] = back ++ [']'])
    (tailCons : ∀ item items, tail (item :: items) = ',' :: (front ++ (write item ++ tail items)))
    {item : Json} {items : List Json}
    (each : ∀ member ∈ item :: items, Spells (write member) member) :
    ∃ text, front ++ (write item ++ tail items) = text ++ [']'] ∧
      SpellsItems text (item :: items) := by
  induction items generalizing item with
  | nil =>
      refine ⟨front ++ (write item ++ back), ?_, .last ?_⟩
      · rw [tailNil, List.append_assoc, List.append_assoc]
      · exact .spaced before (each item List.mem_cons_self) after
  | cons next items ih =>
      rw [List.forall_mem_cons] at each
      rcases ih each.2 with ⟨text, written, spelled⟩
      have first : SpellsElement (front ++ (write item ++ [])) item :=
        .spaced before each.1 (by simp [Space])
      refine ⟨front ++ (write item ++ []) ++ ',' :: text, ?_, .more first spelled⟩
      rw [tailCons, written]
      simp

/-- The members of an object, up to the brace behind them. -/
theorem exists_spellsMembers {tail : List (String × Json) → List Char} (before : Space front)
    (between : Space gap) (after : Space back) (tailNil : tail [] = back ++ ['\x7d'])
    (tailCons : ∀ name value members, tail ((name, value) :: members) =
      ',' :: (front ++ (stringChars name ++ ':' :: (gap ++ (write value ++ tail members)))))
    {name : String} {value : Json} {members : List (String × Json)}
    (each : ∀ member ∈ (name, value) :: members, Spells (write member.2) member.2) :
    ∃ text, front ++ (stringChars name ++ ':' :: (gap ++ (write value ++ tail members))) =
        text ++ ['\x7d'] ∧ SpellsMembers text ((name, value) :: members) := by
  have noSpace : Space [] := by simp [Space]
  induction members generalizing name value with
  | nil =>
      have only : SpellsElement (gap ++ (write value ++ back)) value :=
        .spaced between (each (name, value) List.mem_cons_self) after
      refine ⟨front ++ (stringChars name ++ ([] ++ ':' :: (gap ++ (write value ++ back)))), ?_,
        .last before (spellsString_stringChars name) noSpace only⟩
      rw [tailNil]
      simp
  | cons next members ih =>
      rcases next with ⟨nextName, next⟩
      rw [List.forall_mem_cons] at each
      rcases ih each.2 with ⟨text, written, spelled⟩
      have first : SpellsElement (gap ++ (write value ++ [])) value :=
        .spaced between each.1 noSpace
      let rest := gap ++ (write value ++ []) ++ ',' :: text
      refine ⟨front ++ (stringChars name ++ ([] ++ ':' :: rest)), ?_,
        .more before (spellsString_stringChars name) noSpace first spelled⟩
      rw [tailCons, written]
      simp [rest]

end Layouts

/-- A value on one line is written by the grammar. -/
theorem spells_chars (value : Json) : Spells (chars value) value := by
  have noSpace : Space [] := by simp [Space]
  induction value with
  | null => exact .null
  | bool value =>
      cases value with
      | true => exact .yes
      | false => exact .no
  | int value => exact spells_intChars value
  | float value => exact spells_float value
  | string value => exact .string (spellsString_stringChars value)
  | array items ih =>
      cases items with
      | nil => exact .emptyArray noSpace
      | cons item items =>
          have parts := @exists_spellsItems chars [] [] moreItems noSpace noSpace rfl
            (fun _ _ => rfl) item items ih
          rcases parts with ⟨text, written, spelled⟩
          have line : chars (.array (item :: items)) = '[' :: (text ++ [']']) :=
            congrArg (List.cons '[') written
          rw [line]
          exact .array spelled
  | object members ih =>
      cases members with
      | nil => exact .emptyObject noSpace
      | cons member members =>
          rcases member with ⟨name, value⟩
          have parts := @exists_spellsMembers chars [] [] [] moreMembers noSpace noSpace noSpace
            rfl (fun _ _ _ => rfl) name value members ih
          rcases parts with ⟨text, written, spelled⟩
          have line : chars (.object ((name, value) :: members)) =
              '\x7b' :: (text ++ ['\x7d']) :=
            congrArg (List.cons '\x7b') written
          rw [line]
          exact .object spelled

theorem space_lineBreak (depth : Nat) : Space (lineBreak depth) := by
  intro c present
  rcases List.mem_cons.mp present with rfl | blank
  · rfl
  · rw [List.eq_of_mem_replicate blank]
    rfl

/-- A value over several lines is written by the grammar, whatever depth it starts at. -/
theorem spells_prettyChars (depth : Nat) (value : Json) :
    Spells (prettyChars depth value) value := by
  have noSpace : Space [] := by simp [Space]
  have oneSpace : Space [' '] := by simp [Space, isSpace]
  induction value generalizing depth with
  | null => exact spells_chars .null
  | bool value => exact spells_chars (.bool value)
  | int value => exact spells_chars (.int value)
  | float value => exact spells_chars (.float value)
  | string value => exact spells_chars (.string value)
  | array items ih =>
      cases items with
      | nil => exact .emptyArray noSpace
      | cons item items =>
          have parts := @exists_spellsItems (prettyChars (depth + 1)) (lineBreak (depth + 1))
            (lineBreak depth) (morePrettyItems depth) (space_lineBreak _) (space_lineBreak _) rfl
            (fun _ _ => by rw [morePrettyItems, List.append_assoc]) item items
            (fun member present => ih member present (depth + 1))
          rcases parts with ⟨text, written, spelled⟩
          have lines : prettyChars depth (.array (item :: items)) = '[' :: (text ++ [']']) := by
            rw [prettyChars, List.append_assoc, written]
          rw [lines]
          exact .array spelled
  | object members ih =>
      cases members with
      | nil => exact .emptyObject noSpace
      | cons member members =>
          rcases member with ⟨name, value⟩
          have parts := @exists_spellsMembers (prettyChars (depth + 1)) (lineBreak (depth + 1))
            (lineBreak depth) [' '] (morePrettyMembers depth) (space_lineBreak _) oneSpace
            (space_lineBreak _) rfl
            (fun _ _ _ => by rw [morePrettyMembers, List.append_assoc]; rfl) name value members
            (fun member present => ih member present (depth + 1))
          rcases parts with ⟨text, written, spelled⟩
          have lines : prettyChars depth (.object ((name, value) :: members)) =
              '\x7b' :: (text ++ ['\x7d']) := by
            rw [prettyChars, List.append_assoc]
            exact congrArg (List.cons '\x7b') written
          rw [lines]
          exact .object spelled

section Lines

/-- A text that stays on its line. -/
def OneLine (text : List Char) : Prop := '\n' ∉ text

theorem OneLine.append {first second : List Char} (one : OneLine first) (other : OneLine second) :
    OneLine (first ++ second) := by
  simpa [OneLine] using And.intro one other

theorem OneLine.cons {c : Char} {text : List Char} (noBreak : c ≠ '\n') (one : OneLine text) :
    OneLine (c :: text) := by
  simpa [OneLine] using And.intro noBreak.symm one

theorem oneLine_nil : OneLine [] := by simp [OneLine]

theorem hexDigit_ne_newline {n : Nat} (digit : n < 16) : hexDigit n ≠ '\n' := by
  decide +revert

theorem oneLine_stringChar (c : Char) : OneLine (stringChar c) := by
  rw [stringChar]
  cases escaped : escapeLetter? c with
  | some letter =>
      unfold escapeLetter? at escaped
      split at escaped <;> cases escaped <;> simp [OneLine]
  | none =>
      by_cases control : c.toNat < 0x20
      · rw [if_pos control]
        have high := hexDigit_ne_newline (n := c.toNat / 16) (by omega)
        have low := hexDigit_ne_newline (n := c.toNat % 16) (by omega)
        simp [OneLine, high.symm, low.symm]
      · rw [if_neg control]
        rw [OneLine, List.mem_singleton]
        rintro rfl
        cases escaped

theorem oneLine_stringChars (text : String) : OneLine (stringChars text) := by
  refine .cons (by decide) (.append ?_ (by simp [OneLine]))
  intro present
  rcases List.mem_flatMap.mp present with ⟨c, _, inside⟩
  exact oneLine_stringChar c inside

theorem oneLine_of_isDigit {digits : List Char} (areDigits : ∀ c ∈ digits, c.isDigit = true) :
    OneLine digits := by
  intro present
  cases areDigits '\n' present

theorem oneLine_of_isPower {text : List Char} {exponent : Int} (power : IsPower text exponent) :
    OneLine text := by
  cases power with
  | absent => exact oneLine_nil
  | unsigned isE areDigits =>
      exact .cons (by rcases isE with rfl | rfl <;> decide) (oneLine_of_isDigit areDigits.2)
  | plus isE areDigits =>
      exact .cons (by rcases isE with rfl | rfl <;> decide)
        (.cons (by decide) (oneLine_of_isDigit areDigits.2))
  | minus isE areDigits =>
      exact .cons (by rcases isE with rfl | rfl <;> decide)
        (.cons (by decide) (oneLine_of_isDigit areDigits.2))

theorem oneLine_of_isFraction {text places : List Char} (fraction : IsFraction text places) :
    OneLine text := by
  cases fraction with
  | absent => exact oneLine_nil
  | present areDigits => exact .cons (by decide) (oneLine_of_isDigit areDigits.2)

theorem oneLine_of_spellsDecimal {text : List Char} {decimal : Decimal}
    (spelled : SpellsDecimal text decimal) : OneLine text := by
  cases spelled with
  | parts isWhole isFraction isPower _ =>
      exact .append (oneLine_of_isDigit isWhole.1.2)
        (.append (oneLine_of_isFraction isFraction) (oneLine_of_isPower isPower))

theorem oneLine_sign (negative : Bool) : OneLine (sign negative) := by
  cases negative with
  | true => exact .cons (by decide) oneLine_nil
  | false => exact oneLine_nil

theorem oneLine_intChars (value : Int64) : OneLine (intChars value) := by
  rw [intChars]
  cases value.toInt with
  | ofNat n => exact oneLine_of_isDigit isDigit_toDigits
  | negSucc n => exact .cons (by decide) (oneLine_of_isDigit isDigit_toDigits)

theorem oneLine_moreItems {items : List Json} (each : ∀ item ∈ items, OneLine (chars item)) :
    OneLine (moreItems items) := by
  induction items with
  | nil => exact .cons (by decide) oneLine_nil
  | cons item items ih =>
      rw [List.forall_mem_cons] at each
      exact .cons (by decide) (.append each.1 (ih each.2))

theorem oneLine_moreMembers {members : List (String × Json)}
    (each : ∀ member ∈ members, OneLine (chars member.2)) : OneLine (moreMembers members) := by
  induction members with
  | nil => exact .cons (by decide) oneLine_nil
  | cons member members ih =>
      rw [List.forall_mem_cons] at each
      exact .cons (by decide)
        (.append (oneLine_stringChars _) (.cons (by decide) (.append each.1 (ih each.2))))

/-- Without white space a value stays on one line. -/
theorem oneLine_chars (value : Json) : OneLine (chars value) := by
  induction value with
  | null => simp [OneLine, chars]
  | bool value => cases value <;> simp [OneLine, chars]
  | int value => exact oneLine_intChars value
  | float value =>
      rcases exists_render value.finite with ⟨text, decimal, written, spelled, _⟩
      rw [chars, written]
      exact .append (oneLine_sign _) (oneLine_of_spellsDecimal spelled)
  | string value => exact oneLine_stringChars value
  | array items ih =>
      cases items with
      | nil => simp [OneLine, chars]
      | cons item items =>
          rw [List.forall_mem_cons] at ih
          exact .cons (by decide) (.append ih.1 (oneLine_moreItems ih.2))
  | object members ih =>
      cases members with
      | nil => simp [OneLine, chars]
      | cons member members =>
          rw [List.forall_mem_cons] at ih
          exact .cons (by decide) (.append (oneLine_stringChars _)
            (.cons (by decide) (.append ih.1 (oneLine_moreMembers ih.2))))

end Lines

end Json

end FilterLang
