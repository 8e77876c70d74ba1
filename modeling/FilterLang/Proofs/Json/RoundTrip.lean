import FilterLang.Json.Reader
import FilterLang.Proofs.Json.Number
import FilterLang.Text.Blank

/-!
# JSON that is written and read back

The compact text of a value is read back as that value if the value nests at most as deep as the
reader goes, and refused if it nests deeper. Floats other than zero are left out: their decimals are
rounded twice when they are read.

Every reader is followed by an arbitrary rest of the text. The fuel that a value takes is at most
the number of its characters, since each item and member comes with a separator of its own.
-/

namespace FilterLang

namespace Json

variable {rest : List Char}

section Strings

theorem hexadecimal?_control {n : Nat} (control : n < 0x20) :
    Digit.hexadecimal? ['0', '0', hexDigit (n / 16), hexDigit (n % 16)] = some n := by
  interval_cases n <;> rfl

/-- A character that needs no escape stands for itself. -/
theorem readStringChar?_plain {c : Char} (noBackslash : c ≠ '\\') (noQuote : c ≠ '"')
    (noControl : ¬ c.toNat < 0x20) : readStringChar? (c :: rest) = some (c, rest) := by
  simp [readStringChar?, noBackslash, noQuote, noControl]

/-- A character is read back from the way it is written. -/
theorem readStringChar?_stringChar (c : Char) (rest : List Char) :
    readStringChar? (stringChar c ++ rest) = some (c, rest) := by
  rw [stringChar]
  cases escaped : escapeLetter? c with
  | some letter =>
      unfold escapeLetter? at escaped
      split at escaped <;> cases escaped <;> rfl
  | none =>
      by_cases control : c.toNat < 0x20
      · have code := hexadecimal?_control control
        have low : c.toNat < 0xD800 := by omega
        simp [control, readStringChar?, code, low]
      · have noBackslash : c ≠ '\\' := by
          rintro rfl
          cases escaped
        have noQuote : c ≠ '"' := by
          rintro rfl
          cases escaped
        simpa [control] using readStringChar?_plain noBackslash noQuote control

theorem exists_cons_stringChar (c : Char) :
    ∃ first others, stringChar c = first :: others ∧ first ≠ '"' := by
  rw [stringChar]
  cases escaped : escapeLetter? c with
  | some letter => exact ⟨_, _, rfl, by decide⟩
  | none =>
      by_cases control : c.toNat < 0x20
      · exact ⟨'\\', _, if_pos control, by decide⟩
      · refine ⟨c, [], if_neg control, ?_⟩
        rintro rfl
        cases escaped

theorem readStringBody?_flatMap (cs : List Char) {fuel : Nat} (enough : cs.length ≤ fuel) :
    readStringBody? fuel (cs.flatMap stringChar ++ '"' :: rest) = some (cs, rest) := by
  induction cs generalizing fuel with
  | nil => cases fuel <;> rfl
  | cons c cs ih =>
      cases fuel with
      | zero => simp at enough
      | succ fuel =>
          have body := @ih fuel (by simpa using enough)
          have read := readStringChar?_stringChar c (cs.flatMap stringChar ++ '"' :: rest)
          rcases exists_cons_stringChar c with ⟨first, others, written, noQuote⟩
          rw [written] at read
          simp only [List.flatMap_cons, written, List.cons_append, List.append_assoc] at read ⊢
          simp [readStringBody?, noQuote, read, body]

theorem length_le_flatMap (cs : List Char) : cs.length ≤ (cs.flatMap stringChar).length := by
  induction cs with
  | nil => simp
  | cons c cs ih =>
      rcases exists_cons_stringChar c with ⟨first, others, written, _⟩
      simp only [List.flatMap_cons, written, List.length_cons, List.length_append]
      omega

/-- A string is read back from its characters. -/
theorem readString?_stringChars (text : String) (rest : List Char) :
    readString? (stringChars text ++ rest) = some (text, rest) := by
  have enough : text.toList.length ≤
      (text.toList.flatMap stringChar ++ '"' :: rest).length := by
    rw [List.length_append]
    exact (length_le_flatMap _).trans (Nat.le_add_right _ _)
  have body := @readStringBody?_flatMap rest text.toList _ enough
  simp only [stringChars, List.cons_append, List.append_assoc, List.nil_append, readString?, body]
  simp

end Strings

section Levels

mutual

/-- How deep arrays and objects nest in a value. -/
def levels : Json → Nat
  | .array items => itemLevels items + 1
  | .object members => memberLevels members + 1
  | _ => 0
termination_by structural value => value

/-- How deep arrays and objects nest in the items of an array. -/
def itemLevels : List Json → Nat
  | [] => 0
  | item :: rest => max (levels item) (itemLevels rest)
termination_by structural items => items

/-- How deep arrays and objects nest in the members of an object. -/
def memberLevels : List (String × Json) → Nat
  | [] => 0
  | (_, value) :: rest => max (levels value) (memberLevels rest)
termination_by structural members => members

end

end Levels

/-- Every number in a value is an integer of 64 bits, or zero. -/
inductive Whole : Json → Prop
  | null : Whole .null
  | bool (value : Bool) : Whole (.bool value)
  | int (value : Int64) : Whole (.int value)
  | zero : Whole (.float .zero)
  | string (value : String) : Whole (.string value)
  | array {items : List Json} (whole : ∀ item ∈ items, Whole item) : Whole (.array items)
  | object {members : List (String × Json)} (whole : ∀ member ∈ members, Whole member.2) :
      Whole (.object members)

section Starts

/-- A character starts a value. -/
def StartsValue (c : Char) : Prop :=
  c.isDigit = true ∨ c ∈ ['n', 't', 'f', '"', '[', '\x7b', '-']

theorem StartsValue.not_blank {c : Char} (starts : StartsValue c) : isBlank c = false := by
  rcases starts with digit | other
  · rw [Char.isDigit_iff_toNat] at digit
    simp only [Char.reduceToNat] at digit
    simp only [isBlank, CodeRanges.contains, blankRanges, List.any_cons, List.any_nil,
      Bool.or_false, Bool.or_eq_false_iff, Bool.and_eq_false_imp, decide_eq_true_eq,
      decide_eq_false_iff_not, Nat.not_le]
    omega
  · simp only [List.mem_cons, List.not_mem_nil, or_false] at other
    rcases other with rfl | rfl | rfl | rfl | rfl | rfl | rfl <;> decide

/-- The white space of JSON is blank. -/
theorem not_space_of_not_blank {c : Char} (notBlank : isBlank c = false) : isSpace c = false := by
  by_contra space
  simp only [isSpace, Bool.not_eq_false, Bool.or_eq_true, beq_iff_eq] at space
  rcases space with ((rfl | rfl) | rfl) | rfl <;> cases notBlank

theorem StartsValue.not_space {c : Char} (starts : StartsValue c) : isSpace c = false :=
  not_space_of_not_blank starts.not_blank

theorem StartsValue.ne_bracket {c : Char} (starts : StartsValue c) : c ≠ ']' := by
  rintro rfl
  rcases starts with digit | other
  · cases digit
  · simp at other

theorem exists_cons_intChars (value : Int64) :
    ∃ first others, intChars value = first :: others ∧ (first.isDigit = true ∨ first = '-') := by
  rw [intChars]
  cases value.toInt with
  | ofNat n =>
      rcases List.exists_cons_of_ne_nil (toDigits_ne_nil (n := n)) with ⟨c, others, first⟩
      refine ⟨c, others, first, .inl (isDigit_toDigits (n := n) c ?_)⟩
      simp [first]
  | negSucc n => exact ⟨'-', _, rfl, .inr rfl⟩

/-- A value starts with a character of its own. -/
theorem Whole.exists_cons_chars {value : Json} (whole : value.Whole) :
    ∃ first others, chars value = first :: others ∧ StartsValue first := by
  cases whole with
  | null => exact ⟨'n', _, rfl, .inr (by simp)⟩
  | bool value =>
      cases value with
      | true => exact ⟨'t', _, rfl, .inr (by simp)⟩
      | false => exact ⟨'f', _, rfl, .inr (by simp)⟩
  | int value =>
      rcases exists_cons_intChars value with ⟨first, others, written, digit | minus⟩
      · exact ⟨first, others, written, .inl digit⟩
      · exact ⟨first, others, written, .inr (by simp [minus])⟩
  | zero => exact ⟨'0', ['.', '0'], render_zero, .inl rfl⟩
  | string value => exact ⟨'"', _, rfl, .inr (by simp)⟩
  | @array items _ =>
      cases items with
      | nil => exact ⟨'[', _, rfl, .inr (by simp)⟩
      | cons item rest => exact ⟨'[', _, rfl, .inr (by simp)⟩
  | @object members _ =>
      cases members with
      | nil => exact ⟨'\x7b', _, rfl, .inr (by simp)⟩
      | cons member rest => exact ⟨'\x7b', _, rfl, .inr (by simp)⟩

theorem skipSpace_of_head {c : Char} (notSpace : isSpace c = false) :
    skipSpace (c :: rest) = c :: rest := by
  simp [skipSpace, notSpace]

theorem Whole.skipSpace_chars {value : Json} (whole : value.Whole) :
    skipSpace (chars value ++ rest) = chars value ++ rest := by
  rcases whole.exists_cons_chars with ⟨first, others, written, starts⟩
  rw [written, List.cons_append, skipSpace_of_head starts.not_space]

end Starts

section Values

/-- A value is read back from its characters, by a reader that goes deep enough. -/
def ReadBack (value : Json) : Prop :=
  ∀ (fuel depth : Nat) (rest : List Char), (chars value).length ≤ fuel → EndsNumber rest →
    readValue? fuel depth (chars value ++ rest) =
      if value.levels ≤ depth then some (value, rest) else none

theorem readBack_null : ReadBack .null := by
  intro fuel depth rest enough _
  cases fuel with
  | zero => simp [chars] at enough
  | succ fuel => rfl

theorem readBack_bool (value : Bool) : ReadBack (.bool value) := by
  intro fuel depth rest enough _
  cases fuel with
  | zero => cases value <;> simp [chars] at enough
  | succ fuel => cases value <;> rfl

theorem readBack_string (value : String) : ReadBack (.string value) := by
  intro fuel depth rest enough _
  cases fuel with
  | zero => simp [chars, stringChars] at enough
  | succ fuel =>
      simpa [chars, stringChars, readValue?, levels] using readString?_stringChars value rest

theorem readValue?_number {fuel depth : Nat} {c : Char}
    (other : c ∉ ['n', 't', 'f', '"', '[', '\x7b']) :
    readValue? (fuel + 1) depth (c :: rest) = readNumber? (c :: rest) := by
  simp only [List.mem_cons, List.not_mem_nil, or_false, not_or] at other
  rcases other with ⟨noNull, noTrue, noFalse, noQuote, noBracket, noBrace⟩
  simp [readValue?, noNull, noTrue, noFalse, noQuote, noBracket, noBrace]

/-- What the reader of numbers reads back is read back as a value. -/
theorem readBack_number {value : Json} {first : Char} {others : List Char}
    (written : chars value = first :: others) (isNumber : first.isDigit = true ∨ first = '-')
    (flat : value.levels = 0)
    (read : ∀ rest, EndsNumber rest → readNumber? (chars value ++ rest) = some (value, rest)) :
    ReadBack value := by
  intro fuel depth rest enough ends
  have other : first ∉ ['n', 't', 'f', '"', '[', '\x7b'] := by
    simp only [List.mem_cons, List.not_mem_nil, or_false]
    rintro (rfl | rfl | rfl | rfl | rfl | rfl) <;> simp at isNumber
  have readNumber := read rest ends
  cases fuel with
  | zero => simp [written] at enough
  | succ fuel =>
      rw [written, List.cons_append] at readNumber ⊢
      rw [readValue?_number other, readNumber, flat, if_pos (Nat.zero_le depth)]

theorem readBack_int (value : Int64) : ReadBack (.int value) := by
  rcases exists_cons_intChars value with ⟨first, others, written, isNumber⟩
  exact readBack_number written isNumber rfl fun _ ends => readNumber?_intChars value ends

theorem readBack_zero : ReadBack (.float .zero) :=
  readBack_number render_zero (.inl rfl) rfl fun _ ends => readNumber?_zero ends

/-- A character comes after a value in an array or object. -/
def Separates (c : Char) : Prop := c ∈ [',', ']', '\x7d']

theorem Separates.endsNumber {c : Char} (separates : Separates c) : EndsNumber (c :: rest) := by
  intro first same
  cases same
  simp only [Separates, List.mem_cons, List.not_mem_nil, or_false] at separates
  rcases separates with rfl | rfl | rfl <;> simp

theorem Separates.skipSpace {c : Char} (separates : Separates c) :
    skipSpace (c :: rest) = c :: rest := by
  apply skipSpace_of_head
  simp only [Separates, List.mem_cons, List.not_mem_nil, or_false] at separates
  rcases separates with rfl | rfl | rfl <;> rfl

/-- The first item is read, and the reader goes on behind it. -/
theorem readItems?_first {item : Json} {fuel depth : Nat} {c : Char} {others : List Char}
    (whole : item.Whole) (readBack : ReadBack item) (enough : (chars item).length ≤ fuel)
    (separates : Separates c) :
    readItems? (fuel + 1) depth (chars item ++ c :: others) =
      if item.levels ≤ depth then
        match c :: others with
        | ']' :: rest => some ([item], rest)
        | ',' :: rest => (readItems? fuel depth rest).map fun (items, rest) => (item :: items, rest)
        | _ => none
      else none := by
  have read := readBack fuel depth (c :: others) enough separates.endsNumber
  simp only [readItems?, whole.skipSpace_chars, read]
  by_cases fits : item.levels ≤ depth
  · have stop := @Separates.skipSpace others c separates
    simp only [Separates, List.mem_cons, List.not_mem_nil, or_false] at separates
    rcases separates with rfl | rfl | rfl <;> simp [fits, stop]
  · simp [fits]

theorem readItems?_chars {item : Json} {items : List Json} {fuel depth : Nat}
    (whole : ∀ member ∈ item :: items, Whole member)
    (each : ∀ member ∈ item :: items, ReadBack member)
    (enough : (chars item ++ moreItems items).length ≤ fuel) :
    readItems? fuel depth (chars item ++ (moreItems items ++ rest)) =
      if itemLevels (item :: items) ≤ depth then some (item :: items, rest) else none := by
  induction items generalizing item fuel with
  | nil =>
      cases fuel with
      | zero => simp [moreItems] at enough
      | succ fuel =>
          simp only [moreItems, List.length_append, List.length_cons] at enough
          rw [List.forall_mem_cons] at whole each
          have first := @readItems?_first item fuel depth ']' rest whole.1 each.1 (by omega)
            (by simp [Separates])
          rw [moreItems, List.singleton_append, first]
          simp [itemLevels]
  | cons next items ih =>
      cases fuel with
      | zero => simp [moreItems] at enough
      | succ fuel =>
          simp only [moreItems, List.length_append, List.length_cons] at enough
          rw [List.forall_mem_cons] at whole each
          have first := @readItems?_first item fuel depth ','
            (chars next ++ (moreItems items ++ rest)) whole.1 each.1 (by omega)
            (by simp [Separates])
          have others := @ih next fuel whole.2 each.2 (by rw [List.length_append]; omega)
          simp only [moreItems, List.cons_append, List.append_assoc, first, others]
          by_cases fits : item.levels ≤ depth
          · by_cases fitOthers : itemLevels (next :: items) ≤ depth
            · simp [fits, fitOthers, itemLevels.eq_2 item]
            · simp [fits, fitOthers, itemLevels.eq_2 item]
          · simp [fits, itemLevels.eq_2 item]

theorem readValue?_array {fuel depth : Nat} {first : Char} {others : List Char}
    (notSpace : isSpace first = false) (noBracket : first ≠ ']') :
    readValue? (fuel + 1) (depth + 1) ('[' :: first :: others) =
      (readItems? fuel depth (first :: others)).map fun (items, rest) => (.array items, rest) := by
  simp [readValue?, skipSpace_of_head notSpace, noBracket]

theorem readBack_array {items : List Json} (whole : ∀ item ∈ items, Whole item)
    (each : ∀ item ∈ items, ReadBack item) : ReadBack (.array items) := by
  intro fuel depth rest enough ends
  cases fuel with
  | zero => cases items <;> simp [chars] at enough
  | succ fuel =>
      cases depth with
      | zero => cases items <;> simp [chars, readValue?, levels]
      | succ depth =>
          cases items with
          | nil =>
              have close : skipSpace (']' :: rest) = ']' :: rest := skipSpace_of_head rfl
              simp [chars, readValue?, levels, itemLevels, close]
          | cons item items =>
              have read := @readItems?_chars rest item items fuel depth whole each
                (by simpa [chars] using enough)
              rcases (whole item List.mem_cons_self).exists_cons_chars with
                ⟨first, others, written, starts⟩
              rw [written, List.cons_append] at read
              have bracket : chars (.array (item :: items)) ++ rest =
                  '[' :: first :: (others ++ (moreItems items ++ rest)) := by
                simp [chars, written]
              rw [bracket, readValue?_array starts.not_space starts.ne_bracket, read]
              by_cases fits : itemLevels (item :: items) ≤ depth
              · simp [fits, levels]
              · simp [fits, levels]

theorem readValue?_object {fuel depth : Nat} {others : List Char} :
    readValue? (fuel + 1) (depth + 1) ('\x7b' :: '"' :: others) =
      (readMembers? fuel depth ('"' :: others)).map fun (members, rest) =>
        (.object members, rest) := by
  have start : skipSpace ('"' :: others) = '"' :: others := skipSpace_of_head rfl
  simp [readValue?, start]

theorem skipSpace_stringChars (text : String) :
    skipSpace (stringChars text ++ rest) = stringChars text ++ rest := by
  rw [stringChars, List.cons_append, skipSpace_of_head rfl]

/-- The first member is read, and the reader goes on behind it. -/
theorem readMembers?_first {name : String} {value : Json} {fuel depth : Nat} {c : Char}
    {others : List Char} (whole : value.Whole) (readBack : ReadBack value)
    (enough : (chars value).length ≤ fuel) (separates : Separates c) :
    readMembers? (fuel + 1) depth (stringChars name ++ ':' :: (chars value ++ c :: others)) =
      if value.levels ≤ depth then
        match c :: others with
        | '\x7d' :: rest => some ([(name, value)], rest)
        | ',' :: rest =>
          (readMembers? fuel depth rest).map fun (members, rest) => ((name, value) :: members, rest)
        | _ => none
      else none := by
  have read := readBack fuel depth (c :: others) enough separates.endsNumber
  have colon : skipSpace (':' :: (chars value ++ c :: others)) =
      ':' :: (chars value ++ c :: others) := skipSpace_of_head rfl
  simp only [readMembers?, skipSpace_stringChars, readString?_stringChars, Option.bind_eq_bind,
    Option.bind_some, colon, whole.skipSpace_chars, read]
  by_cases fits : value.levels ≤ depth
  · have stop := @Separates.skipSpace others c separates
    simp only [Separates, List.mem_cons, List.not_mem_nil, or_false] at separates
    rcases separates with rfl | rfl | rfl <;> simp [fits, stop]
  · simp [fits]

theorem readMembers?_chars {name : String} {value : Json} {members : List (String × Json)}
    {fuel depth : Nat} (whole : ∀ member ∈ (name, value) :: members, Whole member.2)
    (each : ∀ member ∈ (name, value) :: members, ReadBack member.2)
    (enough : (stringChars name ++ ':' :: (chars value ++ moreMembers members)).length ≤ fuel) :
    readMembers? fuel depth
        (stringChars name ++ ':' :: (chars value ++ (moreMembers members ++ rest))) =
      if memberLevels ((name, value) :: members) ≤ depth then some ((name, value) :: members, rest)
      else none := by
  induction members generalizing name value fuel with
  | nil =>
      cases fuel with
      | zero => simp [moreMembers] at enough
      | succ fuel =>
          simp only [List.length_append, List.length_cons] at enough
          rw [List.forall_mem_cons] at whole each
          have first := @readMembers?_first name value fuel depth '\x7d' rest whole.1 each.1
            (by omega) (by simp [Separates])
          rw [moreMembers, List.singleton_append, first]
          simp [memberLevels]
  | cons next members ih =>
      rcases next with ⟨nextName, next⟩
      cases fuel with
      | zero => simp [moreMembers] at enough
      | succ fuel =>
          simp only [moreMembers, List.length_append, List.length_cons] at enough
          rw [List.forall_mem_cons] at whole each
          have first := @readMembers?_first name value fuel depth ','
            (stringChars nextName ++ ':' :: (chars next ++ (moreMembers members ++ rest)))
            whole.1 each.1 (by omega) (by simp [Separates])
          have others := @ih nextName next fuel whole.2 each.2
            (by simp only [List.length_append, List.length_cons]; omega)
          simp only [moreMembers, List.cons_append, List.append_assoc, first, others]
          by_cases fits : value.levels ≤ depth
          · by_cases fitOthers : memberLevels ((nextName, next) :: members) ≤ depth
            · simp [fits, fitOthers, memberLevels.eq_2 name]
            · simp [fits, fitOthers, memberLevels.eq_2 name]
          · simp [fits, memberLevels.eq_2 name]

theorem readBack_object {members : List (String × Json)}
    (whole : ∀ member ∈ members, Whole member.2) (each : ∀ member ∈ members, ReadBack member.2) :
    ReadBack (.object members) := by
  intro fuel depth rest enough ends
  cases fuel with
  | zero => cases members <;> simp [chars] at enough
  | succ fuel =>
      cases depth with
      | zero => cases members <;> simp [chars, readValue?, levels]
      | succ depth =>
          cases members with
          | nil =>
              have close : skipSpace ('\x7d' :: rest) = '\x7d' :: rest := skipSpace_of_head rfl
              simp [chars, readValue?, levels, memberLevels, close]
          | cons member members =>
              rcases member with ⟨name, value⟩
              have read := @readMembers?_chars rest name value members fuel depth whole each
                (by simpa [chars] using enough)
              have brace : chars (.object ((name, value) :: members)) ++ rest =
                  '\x7b' :: (stringChars name ++ ':' ::
                    (chars value ++ (moreMembers members ++ rest))) := by
                simp [chars]
              rw [brace]
              rw [stringChars, List.cons_append] at read ⊢
              rw [readValue?_object, read]
              by_cases fits : memberLevels ((name, value) :: members) ≤ depth
              · simp [fits, levels]
              · simp [fits, levels]

/-- Every value is read back from its characters, by a reader that goes deep enough. -/
theorem Whole.readBack {value : Json} (whole : value.Whole) : ReadBack value := by
  induction whole with
  | null => exact readBack_null
  | bool value => exact readBack_bool value
  | int value => exact readBack_int value
  | zero => exact readBack_zero
  | string value => exact readBack_string value
  | array whole ih => exact readBack_array whole ih
  | object whole ih => exact readBack_object whole ih

end Values

/-- The compact text of a value is read back if the value nests at most as deep as the reader
goes, and else refused. -/
theorem read?_compact {value : Json} (whole : value.Whole) :
    read? value.compact = if value.levels ≤ depthLimit then some value else none := by
  have read := whole.readBack (2 * (chars value).length + 1) depthLimit [] (by omega)
    (by simp [EndsNumber])
  have start := @Whole.skipSpace_chars [] _ whole
  rw [List.append_nil] at read start
  rw [read?, compact, String.toList_ofList, readChars?, start, read]
  by_cases fits : value.levels ≤ depthLimit
  · simp [fits, skipSpace]
  · simp [fits]

end Json

end FilterLang
