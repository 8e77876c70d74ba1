import FilterLang.Json.Number
import FilterLang.Json.Printer
import Mathlib.Data.List.Basic
import Mathlib.Data.List.TakeWhile
import Mathlib.Tactic.IntervalCases

/-!
# Numbers that are written and read back

Every integer is read back from its digits, wherever what follows does not continue the number. Of
the other numbers only zero is considered here.
-/

namespace FilterLang

theorem zero_ne_signedZero : (0 : BitVec 64) ≠ BitVec.twoPow 64 63 := by
  decide

/-- The float zero. -/
def FiniteNumber.zero : FiniteNumber := ⟨⟨0⟩, rfl, zero_ne_signedZero⟩

namespace Json

section Digits

variable {n : Nat}

theorem value_digitChar (digit : n < 10) : Digit.value n.digitChar = n := by
  interval_cases n <;> rfl

theorem absorbDigits_append {significand absorbed : Nat} {front back : List Char}
    (complete : absorbDigits significand front = (absorbed, 0)) :
    absorbDigits significand (front ++ back) = absorbDigits absorbed back := by
  induction front generalizing significand with
  | nil =>
      cases complete
      rfl
  | cons digit rest ih =>
      rw [List.cons_append, absorbDigits]
      rw [absorbDigits] at complete
      split at complete
      · next fits =>
        rw [if_pos fits]
        exact ih complete
      · cases complete

/-- The digits of a natural that fits 64 bits are all absorbed. -/
theorem absorbDigits_toDigits (fits : n < UInt64.size) :
    absorbDigits 0 (Nat.toDigits 10 n) = (n, 0) := by
  induction n using Nat.strongRecOn with
  | ind n ih =>
      by_cases small : n < 10
      · rw [Nat.toDigits_of_lt_base small]
        simp [absorbDigits, value_digitChar small, fits]
      · have lead := ih (n / 10) (by omega) (by omega)
        rw [Nat.toDigits_of_base_le (by decide) (by omega), absorbDigits_append lead]
        have last : Digit.value (n % 10).digitChar = n % 10 := value_digitChar (by omega)
        have whole : n / 10 * 10 + n % 10 = n := by omega
        simp [absorbDigits, last, whole, fits]

theorem isDigit_toDigits : ∀ c ∈ Nat.toDigits 10 n, c.isDigit = true := by
  intro c present
  exact Nat.isDigit_of_mem_toDigits (by decide) (by decide) present

theorem toDigits_ne_nil : Nat.toDigits 10 n ≠ [] := by
  exact List.ne_nil_of_length_pos Nat.length_toDigits_pos

theorem decimal_toDigits : Digit.decimal (Nat.toDigits 10 n) = n :=
  Nat.ofDigitChars_ten_toDigits

theorem decimal_append_of_zeros (count : Nat) (digits : List Char) :
    Digit.decimal (List.replicate count '0' ++ digits) = Digit.decimal digits := by
  induction count with
  | zero => rfl
  | succ count ih => exact ih

/-- Only zero is written with a zero in front. -/
theorem eq_zero_of_head?_toDigits (zero : (Nat.toDigits 10 n).head? = some '0') : n = 0 := by
  induction n using Nat.strongRecOn with
  | ind n ih =>
      by_cases small : n < 10
      · rw [Nat.toDigits_of_lt_base small] at zero
        interval_cases n <;> first | rfl | cases zero
      · rw [Nat.toDigits_of_base_le (by decide) (by omega), List.head?_append_of_ne_nil _
          toDigits_ne_nil] at zero
        have lead := ih (n / 10) (by omega) zero
        omega

end Digits

/-- A text does not continue a number. -/
def EndsNumber (text : List Char) : Prop :=
  ∀ c ∈ text.head?, c.isDigit = false ∧ c ≠ '.' ∧ c ≠ 'e' ∧ c ≠ 'E'

variable {negative : Bool} {digits rest : List Char}

theorem readFraction?_of_ends (ends : EndsNumber rest) : readFraction? rest = some (none, rest) := by
  cases rest with
  | nil => rfl
  | cons c rest =>
      have noPoint : c ≠ '.' := (ends c rfl).2.1
      simp [readFraction?, noPoint]

theorem readPower?_of_ends (ends : EndsNumber rest) : readPower? rest = some (none, rest) := by
  cases rest with
  | nil => rfl
  | cons c rest =>
      have noPower := (ends c rfl).2.2
      simp [readPower?, noPower]

theorem takeWhile_digits (areDigits : ∀ c ∈ digits, c.isDigit = true)
    (ends : ∀ c ∈ rest.head?, c.isDigit = false) :
    (digits ++ rest).takeWhile Char.isDigit = digits ∧
      (digits ++ rest).dropWhile Char.isDigit = rest := by
  rw [List.takeWhile_append_of_pos areDigits, List.dropWhile_append_of_pos areDigits]
  cases rest with
  | nil => simp
  | cons c rest =>
      have noDigit := ends c rfl
      simp [noDigit]

/-- A number of nothing but digits is a whole number. -/
theorem readUnsigned?_whole (areDigits : ∀ c ∈ digits, c.isDigit = true) (nonempty : digits ≠ [])
    (noZero : digits.head? = some '0' → digits.length = 1) (ends : EndsNumber rest) :
    readUnsigned? negative (digits ++ rest) =
      (wholeNumber? negative digits).map fun value => (value, rest) := by
  have parts := takeWhile_digits areDigits fun c first => (ends c first).1
  have admitted : (digits.isEmpty || (digits.head? == some '0' && digits.length ≠ 1)) = false := by
    simpa [nonempty] using noZero
  simp only [readUnsigned?, parts, admitted, readFraction?_of_ends ends, Option.bind_eq_bind,
    Option.bind_some, readPower?_of_ends ends]
  cases wholeNumber? negative digits <;> rfl

theorem readUnsigned?_toDigits (negative : Bool) (n : Nat) (ends : EndsNumber rest) :
    readUnsigned? negative (Nat.toDigits 10 n ++ rest) =
      (wholeNumber? negative (Nat.toDigits 10 n)).map fun value => (value, rest) := by
  apply readUnsigned?_whole isDigit_toDigits toDigits_ne_nil _ ends
  intro zero
  rw [eq_zero_of_head?_toDigits zero]
  rfl

theorem readNumber?_of_digit {c : Char} (digit : c.isDigit = true) :
    readNumber? (c :: rest) = readUnsigned? false (c :: rest) := by
  have noSign : c ≠ '-' := by
    rintro rfl
    cases digit
  simp [readNumber?, noSign]

theorem wholeNumber?_natural {n : Nat} (fits : n < 2 ^ 63) :
    wholeNumber? false (Nat.toDigits 10 n) = some (.int (Int64.ofInt n)) := by
  have absorbed : absorbDigits 0 (Nat.toDigits 10 n) = (n, 0) :=
    absorbDigits_toDigits (fits.trans (by decide))
  rw [wholeNumber?, absorbed]
  simp [show n < Nat.pow 2 63 from fits]

theorem wholeNumber?_negative {n : Nat} (positive : 0 < n) (fits : n ≤ 2 ^ 63) :
    wholeNumber? true (Nat.toDigits 10 n) = some (.int (Int64.ofInt (-(n : Int)))) := by
  have absorbed : absorbDigits 0 (Nat.toDigits 10 n) = (n, 0) :=
    absorbDigits_toDigits (fits.trans_lt (by decide))
  rw [wholeNumber?, absorbed]
  simp [positive, show n ≤ Nat.pow 2 63 from fits]

theorem readNumber?_natural {n : Nat} (fits : n < 2 ^ 63) (ends : EndsNumber rest) :
    readNumber? (Nat.toDigits 10 n ++ rest) = some (.int (Int64.ofInt n), rest) := by
  have read := readUnsigned?_toDigits false n ends
  rcases List.exists_cons_of_ne_nil (toDigits_ne_nil (n := n)) with ⟨c, others, first⟩
  have digit : c.isDigit = true := by
    apply isDigit_toDigits (n := n)
    rw [first]
    exact List.mem_cons_self
  rw [wholeNumber?_natural fits, first] at read
  rw [first]
  exact (readNumber?_of_digit digit).trans read

theorem readNumber?_negative {n : Nat} (positive : 0 < n) (fits : n ≤ 2 ^ 63)
    (ends : EndsNumber rest) :
    readNumber? ('-' :: (Nat.toDigits 10 n ++ rest)) =
      some (.int (Int64.ofInt (-(n : Int))), rest) := by
  rw [readNumber?, readUnsigned?_toDigits true n ends, wholeNumber?_negative positive fits]
  rfl

/-- An integer is read back from its characters. -/
theorem readNumber?_intChars (value : Int64) (ends : EndsNumber rest) :
    readNumber? (intChars value ++ rest) = some (.int value, rest) := by
  have least := value.le_toInt
  have greatest := value.toInt_lt
  have same := value.ofInt_toInt
  rw [intChars]
  cases integer : value.toInt with
  | ofNat n =>
      rw [integer, Int.ofNat_eq_natCast] at greatest same
      have read := readNumber?_natural (n := n) (by omega) ends
      simp only [read, same]
  | negSucc n =>
      rw [integer, Int.negSucc_eq] at least same
      have read := readNumber?_negative (n := n + 1) (by omega) (by omega) ends
      simp only [List.cons_append, read, Nat.cast_add, Nat.cast_one, same]

theorem render_zero : (numberStyle.render FiniteNumber.zero.value).toList = ['0', '.', '0'] := by
  decide +kernel

theorem scaledNumber?_zero : scaledNumber? false ['0'] ['0'] 0 = some (.float .zero) := by
  have tenth : Binary64.divPowerOfTen ⟨0⟩ 1 = ⟨0⟩ := by
    rw [Binary64.divPowerOfTen, if_pos (by decide)]
    decide +kernel
  have scaled : scaledNumber? false ['0'] ['0'] 0 =
      (some ((Binary64.nearest false 0 1).divPowerOfTen 1)).bind (signedFloat? false) := rfl
  have nothing : Binary64.nearest false 0 1 = ⟨0⟩ := by
    decide +kernel
  rw [scaled, nothing, tenth]
  rfl

/-- Zero is read back as a float. -/
theorem readNumber?_zero (ends : EndsNumber rest) :
    readNumber? ((numberStyle.render FiniteNumber.zero.value).toList ++ rest) =
      some (.float .zero, rest) := by
  have fraction := @takeWhile_digits ['0'] rest (by simp) fun c first => (ends c first).1
  have readsFraction : readFraction? ('.' :: '0' :: rest) = some (some ['0'], rest) := by
    rw [List.singleton_append] at fraction
    simp only [readFraction?, fraction]
  rw [render_zero]
  simp only [List.cons_append, List.nil_append]
  rw [readNumber?_of_digit rfl]
  have whole : ('0' :: '.' :: '0' :: rest).takeWhile Char.isDigit = ['0'] := rfl
  have after : ('0' :: '.' :: '0' :: rest).dropWhile Char.isDigit = '.' :: '0' :: rest := rfl
  simp only [readUnsigned?, whole, after, readsFraction, Option.bind_eq_bind, Option.bind_some,
    readPower?_of_ends ends, Option.getD_some, Option.getD_none, scaledNumber?_zero]
  rfl

end Json

end FilterLang
