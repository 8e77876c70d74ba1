import FilterLang.Dataset.Declaration
import FilterLang.Proofs.Filter.Text

/-!
# Dates that are written and read back

The numbers of a date are padded with zeros, which do not change what their digits stand for, and a
hyphen ends each of the first two. A year of more than four digits always comes with a sign, and
only a year without a sign is cut off after four digits. So the text of every date of the calendar
is read back as that date (`read?_chars`).

Other texts are read as dates too, but they consist of digits, blanks and signs
(`legible_of_read?`). This excludes every time of day.
-/

namespace FilterLang

namespace Date

section Numbers

variable {width n : Nat}

theorem isDigit_padded : ∀ c ∈ padded width n, c.isDigit = true := by
  intro c present
  rcases List.mem_append.mp present with zero | digit
  · rw [List.eq_of_mem_replicate zero]
    rfl
  · exact Json.isDigit_toDigits c digit

theorem exists_cons_padded :
    ∃ first others, padded width n = first :: others ∧ first.isDigit = true := by
  have nonempty : padded width n ≠ [] := by simp [padded]
  rcases List.exists_cons_of_ne_nil nonempty with ⟨first, others, written⟩
  have present : first ∈ padded width n := by
    rw [written]
    exact List.mem_cons_self
  exact ⟨first, others, written, isDigit_padded first present⟩

theorem length_padded (positive : 0 < width) (fits : n < 10 ^ width) :
    (padded width n).length = width := by
  have short := (Nat.length_toDigits_le_iff (b := 10) (by decide) positive).mpr fits
  simp only [padded, List.length_append, List.length_replicate]
  omega

theorem decimal_padded : Digit.decimal (padded width n) = n := by
  rw [padded, Json.decimal_append_of_zeros]
  exact Json.decimal_toDigits

/-- Digits are read up to the first character that is none, if there are not too many. -/
theorem readNumber?_append {digits rest : List Char} (areDigits : ∀ c ∈ digits, c.isDigit = true)
    (nonempty : digits ≠ []) (fits : digits.length ≤ width)
    (ends : ∀ c ∈ rest.head?, c.isDigit = false) :
    readNumber? width (digits ++ rest) = some (Digit.decimal digits, rest) := by
  have endsSoon : ∀ c ∈ (rest.take (width - digits.length)).head?, c.isDigit = false := by
    intro c first
    rw [List.head?_take] at first
    split at first
    · cases first
    · exact ends c first
  have taken : ((digits ++ rest).take width).takeWhile Char.isDigit = digits := by
    rw [List.take_append, List.take_of_length_le fits]
    exact (Json.takeWhile_digits areDigits endsSoon).1
  simp [readNumber?, taken, nonempty]

theorem readNumber?_padded {rest : List Char} {limit : Nat} (fits : (padded width n).length ≤ limit)
    (ends : ∀ c ∈ rest.head?, c.isDigit = false) :
    readNumber? limit (padded width n ++ rest) = some (n, rest) := by
  have nonempty : padded width n ≠ [] := by simp [padded]
  rw [readNumber?_append isDigit_padded nonempty fits ends, decimal_padded]

theorem skipBlank_padded (rest : List Char) :
    skipBlank (padded width n ++ rest) = padded width n ++ rest := by
  rcases @exists_cons_padded width n with ⟨first, others, written, digit⟩
  have notBlank : isBlank first = false := Json.StartsValue.not_blank (.inl digit)
  rw [written, List.cons_append, skipBlank, List.dropWhile_cons_of_neg (by simp [notBlank])]

end Numbers

theorem readYear?_yearText (year : Int) (rest : List Char) :
    readYear? (yearText year ++ '-' :: rest) = some (year, '-' :: rest) := by
  have ends : ∀ c ∈ ('-' :: rest).head?, c.isDigit = false := by
    rintro c ⟨⟩
    rfl
  have signed : readNumber? (padded 4 year.natAbs ++ '-' :: rest).length
      (padded 4 year.natAbs ++ '-' :: rest) = some (year.natAbs, '-' :: rest) :=
    readNumber?_padded (by simp) ends
  rw [yearText]
  split
  · next negative =>
    have sign : skipBlank ('-' :: (padded 4 year.natAbs ++ '-' :: rest)) =
        '-' :: (padded 4 year.natAbs ++ '-' :: rest) := rfl
    have value : -(year.natAbs : Int) = year := by omega
    rw [List.cons_append, readYear?, sign]
    simp only [signed, Option.map_some, value]
  · split
    · next nonnegative large =>
      have sign : skipBlank ('+' :: (padded 4 year.natAbs ++ '-' :: rest)) =
          '+' :: (padded 4 year.natAbs ++ '-' :: rest) := rfl
      have value : (year.natAbs : Int) = year := by omega
      rw [List.cons_append, readYear?, sign]
      simp only [signed, Option.map_some, value]
    · next nonnegative small =>
      have value : (year.natAbs : Int) = year := by omega
      have fits : (padded 4 year.natAbs).length ≤ 4 := by
        rw [length_padded (by decide) (by omega)]
      rcases @exists_cons_padded 4 year.natAbs with ⟨first, others, written, digit⟩
      have read := readNumber?_padded fits ends
      have noSign : first ≠ '-' ∧ first ≠ '+' := by
        constructor <;> rintro rfl <;> cases digit
      rw [readYear?, skipBlank_padded]
      rw [written, List.cons_append] at read ⊢
      simp [noSign, read, value]

theorem monthLength_le (year : Int) (month : Nat) : Calendar.monthLength year month ≤ 31 := by
  unfold Calendar.monthLength
  split
  case h_12 => split <;> decide
  all_goals decide

theorem month_le_of_monthLength {year : Int} {month : Nat}
    (long : 0 < Calendar.monthLength year month) : month ≤ 12 := by
  unfold Calendar.monthLength at long
  split at long
  case h_13 => exact absurd long (by decide)
  all_goals decide

theorem bounds_of_exists_day {year : Int} {month day : Nat}
    (exists_day : Calendar.hasDay year month day = true) : month < 10 ^ 2 ∧ day < 10 ^ 2 := by
  simp only [Calendar.hasDay, Bool.and_eq_true, decide_eq_true_eq] at exists_day
  rcases exists_day with ⟨⟨_, positive⟩, short⟩
  have atMost := monthLength_le year month
  have isMonth := month_le_of_monthLength (positive.trans short)
  omega

theorem read?_chars (date : Date) : read? date.chars = some date := by
  rcases date with ⟨year, month, day, exists_day⟩
  rcases bounds_of_exists_day exists_day with ⟨monthFits, dayFits⟩
  have readMonth : readNumber? 2 (padded 2 month ++ '-' :: padded 2 day) =
      some (month, '-' :: padded 2 day) := by
    apply readNumber?_padded (length_padded (by decide) monthFits).le
    rintro c ⟨⟩
    rfl
  have readDay : readNumber? 2 (padded 2 day ++ []) = some (day, []) := by
    apply readNumber?_padded (length_padded (by decide) dayFits).le
    rintro c ⟨⟩
  have skipDay : skipBlank (padded 2 day ++ []) = padded 2 day ++ [] := skipBlank_padded []
  rw [List.append_nil] at readDay skipDay
  simp only [read?, chars, readYear?_yearText, skipBlank_padded, readMonth, skipDay, readDay,
    ofYearMonthDay?, exists_day, dite_true]

section Legible

variable {text rest : List Char}

/-- A character that may stand in the text of a date. -/
def IsDateChar (c : Char) : Prop := c.isDigit = true ∨ isBlank c = true ∨ c = '-' ∨ c = '+'

/-- A text of characters that may stand in the text of a date. -/
def Legible (text : List Char) : Prop := ∀ c ∈ text, IsDateChar c

theorem Legible.cons {c : Char} (first : IsDateChar c) (others : Legible rest) :
    Legible (c :: rest) :=
  List.forall_mem_cons.mpr ⟨first, others⟩

theorem Legible.append (first : Legible text) (second : Legible rest) : Legible (text ++ rest) :=
  List.forall_mem_append.mpr ⟨first, second⟩

theorem Legible.of_skipBlank (legible : Legible (skipBlank text)) : Legible text := by
  rw [← @List.takeWhile_append_dropWhile _ isBlank text]
  exact .append (fun c blank => .inr (.inl (List.mem_takeWhile_imp blank))) legible

theorem Legible.of_readNumber? {width n : Nat} (read : readNumber? width text = some (n, rest))
    (legible : Legible rest) : Legible text := by
  rw [readNumber?] at read
  split at read
  · cases read
  · cases read
    have start : (text.take width).takeWhile Char.isDigit <+: text :=
      (List.takeWhile_prefix _).trans (List.take_prefix _ _)
    rw [← List.prefix_iff_eq_append.mp start]
    exact .append (fun c digit => .inl (List.mem_takeWhile_imp digit)) legible

theorem Legible.of_readYear? {year : Int} (read : readYear? text = some (year, rest))
    (legible : Legible rest) : Legible text := by
  apply Legible.of_skipBlank
  rw [readYear?] at read
  split at read
  all_goals
    rcases Option.map_eq_some_iff.mp read with ⟨⟨n, _⟩, number, ⟨⟩⟩
  case h_1 start =>
    rw [start]
    exact .cons (.inr (.inr (.inl rfl))) (.of_readNumber? number legible)
  case h_2 start =>
    rw [start]
    exact .cons (.inr (.inr (.inr rfl))) (.of_readNumber? number legible)
  case h_3 => exact .of_readNumber? number legible

theorem legible_of_read? {date : Date} (read : read? text = some date) : Legible text := by
  have hyphen : IsDateChar '-' := .inr (.inr (.inl rfl))
  simp only [read?] at read
  split at read
  case h_2 => cases read
  case h_1 readYear =>
    split at read
    case h_2 => cases read
    case h_1 readMonth =>
      split at read
      case h_2 => cases read
      case h_1 readDay =>
        have afterMonth := Legible.of_skipBlank (.of_readNumber? readDay (by simp [Legible]))
        have afterYear := Legible.of_skipBlank (.of_readNumber? readMonth (.cons hyphen afterMonth))
        exact .of_readYear? readYear (.cons hyphen afterYear)

end Legible

end Date

theorem FieldType.accepts_text_of_date (date : Date) : FieldType.date.accepts (.text date.text) := by
  simp [accepts, Date.text, Date.read?_chars]

/-- A field takes a scalar without complaint exactly if its type accepts it. -/
theorem Dataset.typeComplaints_eq_nil {dataset : Dataset} {field : String} {declaration : Field}
    {value : Scalar} (declared : dataset.field? field = some declaration) :
    dataset.typeComplaints field (.scalar value) = [] ↔ declaration.type.accepts value := by
  by_cases accepted : declaration.type.accepts value = true <;>
    simp [typeComplaints, declared, Node.scalar?, accepted]

/-- A date is written as the text that it is shown as, and this text is what a reader of the filter
gets. It is the text of no other date, and fields of dates take it as they take the date. -/
theorem Scalar.date_readsBack (date : Date) :
    (Scalar.date date).toJson = .string (Scalar.date date).display ∧
    Node.parse? (Node.scalar (.date date)).text =
      some (.scalar (.text (Scalar.date date).display)) ∧
    Date.read? (Scalar.date date).display.toList = some date ∧
    ∀ (dataset : Dataset) (field : String) (declaration : Field),
      dataset.field? field = some declaration → declaration.type = .date →
        dataset.typeComplaints field (.scalar (.date date)) = [] ∧
        dataset.typeComplaints field (.scalar (.text (Scalar.date date).display)) = [] := by
  refine ⟨rfl, ?_, ?_, ?_⟩
  · have shallow : (Json.string date.text).levels ≤ 127 := Nat.zero_le 127
    have read := @Node.parse?_compact (.string date.text) (.string _) (by simp)
    rwa [if_pos shallow] at read
  · simp [display, Date.text, Date.read?_chars]
  · intro dataset field declaration declared isDate
    simp only [Dataset.typeComplaints_eq_nil declared, isDate]
    exact ⟨rfl, FieldType.accepts_text_of_date date⟩

/-- The leap day of a year that is written with six digits. -/
def leapDay : Date := ⟨262140, 2, 29, by decide⟩

/-- People, who are born on a day. -/
def people : Dataset := .declare "person" [("born", ⟨.date, none, .none⟩)] none []

theorem Scalar.date_readsBack_leapDay :
    (Scalar.date leapDay).display = "+262140-02-29" ∧
      Date.read? "+262140-02-29".toList = some leapDay ∧
      people.field? "born" = some ⟨.date, none, .none⟩ ∧
      people.typeComplaints "born" (.scalar (.date leapDay)) = [] ∧
      people.typeComplaints "born" (.scalar (.text "+262140-02-29")) = [] := by
  have shown : (Scalar.date leapDay).display = "+262140-02-29" := by decide
  have declared : people.field? "born" = some ⟨.date, none, .none⟩ := rfl
  rcases Scalar.date_readsBack leapDay with ⟨_, _, read, accepted⟩
  rw [shown] at read accepted
  exact ⟨shown, read, declared, accepted people "born" _ declared rfl⟩

end FilterLang
