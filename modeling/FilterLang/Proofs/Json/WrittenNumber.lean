import FilterLang.Proofs.Json.Grammar
import FilterLang.Proofs.Json.Number
import FilterLang.Proofs.Number.Nearest
import FilterLang.Proofs.Number.Shortest

/-!
# Numbers are written by the grammar

An integer is written with its digits. A float is written as its shortest decimal, positionally or
with a power of ten; in positional notation zeros may come with the digits, which do not change the
value of the decimal, and a zero in front stands alone before the point.
-/

namespace FilterLang

namespace Json

section Digits

variable {n : Nat}

theorem decimal_append_replicate (digits : List Char) (count : Nat) :
    Digit.decimal (digits ++ List.replicate count '0') = Digit.decimal digits * 10 ^ count := by
  have zeros : ∀ start, Nat.ofDigitChars 10 (List.replicate count '0') start = 10 ^ count * start :=
    fun _ => Nat.ofDigitChars_replicate_zero
  calc Digit.decimal (digits ++ List.replicate count '0')
    _ = Nat.ofDigitChars 10 (List.replicate count '0') (Nat.ofDigitChars 10 digits 0) :=
        Nat.ofDigitChars_append 0
    _ = Digit.decimal digits * 10 ^ count := (zeros _).trans (Nat.mul_comm _ _)

theorem isDigits_toDigits : IsDigits (Nat.toDigits 10 n) := ⟨toDigits_ne_nil, isDigit_toDigits⟩

theorem isWhole_toDigits : IsWhole (Nat.toDigits 10 n) := by
  refine ⟨isDigits_toDigits, ?_⟩
  intro zero
  rw [eq_zero_of_head?_toDigits zero]
  rfl

theorem isDigit_replicate (count : Nat) : ∀ c ∈ List.replicate count '0', c.isDigit = true := by
  intro c present
  rw [List.eq_of_mem_replicate present]
  rfl

/-- An integer is written as its sign and digits. -/
theorem spells_intChars (value : Int64) : Spells (intChars value) (.int value) := by
  rw [intChars]
  cases integer : value.toInt with
  | ofNat n =>
      have stands : value.toInt = if false then -(Digit.decimal (Nat.toDigits 10 n) : Int)
          else Digit.decimal (Nat.toDigits 10 n) := by
        rw [decimal_toDigits]
        exact integer
      exact .int isWhole_toDigits stands
  | negSucc n =>
      have stands : value.toInt = if true then -(Digit.decimal (Nat.toDigits 10 (n + 1)) : Int)
          else Digit.decimal (Nat.toDigits 10 (n + 1)) := by
        rw [decimal_toDigits]
        exact integer
      exact .int isWhole_toDigits stands

end Digits

section Decimals

variable {decimal : Decimal}

/-- A whole decimal: its digits, the zeros of its exponent, and one more after the point. -/
theorem spellsDecimal_whole (whole : 0 ≤ decimal.exponent) :
    SpellsDecimal (numberStyle.positionalText decimal).toList
      (decimal.shift (decimal.exponent.toNat + 1)) := by
  rcases decimal with ⟨n, exponent⟩
  have trailing : ∃ zeros, zeros = (if n = 0 then 0 else exponent.toNat) ∧ (n = 0 → zeros = 0) ∧
      n * 10 ^ zeros = n * 10 ^ exponent.toNat := by
    by_cases zero : n = 0
    · exact ⟨0, by simp [zero], by simp, by simp [zero]⟩
    · exact ⟨exponent.toNat, by simp [zero], by simp [zero], rfl⟩
  rcases trailing with ⟨zeros, isZeros, short, same⟩
  have text : (numberStyle.positionalText ⟨n, exponent⟩).toList =
      (Nat.toDigits 10 n ++ List.replicate zeros '0') ++ (['.', '0'] ++ []) := by
    simp [NumberStyle.positionalText, numberStyle, whole, isZeros, decimalDigits]
  have isWhole : IsWhole (Nat.toDigits 10 n ++ List.replicate zeros '0') := by
    refine ⟨⟨by simp, ?_⟩, ?_⟩
    · intro c present
      rcases List.mem_append.mp present with digit | zero
      · exact isDigit_toDigits c digit
      · exact isDigit_replicate zeros c zero
    · intro zero
      rw [List.head?_append_of_ne_nil _ toDigits_ne_nil] at zero
      rw [eq_zero_of_head?_toDigits zero, short (eq_zero_of_head?_toDigits zero)]
      rfl
  have digits : Digit.decimal (Nat.toDigits 10 n ++ List.replicate zeros '0' ++ ['0']) =
      n * 10 ^ (exponent.toNat + 1) := by
    rw [show ['0'] = List.replicate 1 '0' from rfl, decimal_append_replicate,
      decimal_append_replicate, decimal_toDigits, same, Nat.mul_assoc, ← Nat.pow_add]
  have isFraction : IsFraction ['.', '0'] ['0'] := .present ⟨by simp, by simp⟩
  have lastPlace : 0 - (1 : Nat) = exponent - (exponent.toNat + 1 : Nat) := by
    simp only at whole
    omega
  have parts := SpellsDecimal.parts isWhole isFraction .absent (by simp)
  rw [digits, List.length_singleton, lastPlace] at parts
  rw [text]
  exact parts

/-- A decimal with places: zeros in front leave one digit before the point at least. -/
theorem spellsDecimal_places (fractional : decimal.exponent < 0) :
    SpellsDecimal (numberStyle.positionalText decimal).toList decimal := by
  rcases decimal with ⟨n, exponent⟩
  rcases Int.exists_eq_neg_ofNat fractional.le with ⟨places, rfl⟩
  have positive : 0 < places := by
    simp only at fractional
    omega
  have toNat : (- -(places : Int)).toNat = places := by omega
  have notWhole : ¬0 ≤ -(places : Int) := by omega
  let digits := Nat.toDigits 10 n
  let padded := List.replicate (places + 1 - digits.length) '0' ++ digits
  have length : padded.length = places + 1 - digits.length + digits.length := by
    simp [padded]
  have text : (numberStyle.positionalText ⟨n, -places⟩).toList =
      padded.take (padded.length - places) ++
        ('.' :: padded.drop (padded.length - places) ++ []) := by
    simp only [NumberStyle.positionalText, notWhole, if_false, toNat, String.toList_append,
      String.toList_ofList, List.append_assoc, List.append_nil]
    rfl
  have areDigits : ∀ c ∈ padded, c.isDigit = true := by
    intro c present
    rcases List.mem_append.mp present with zero | digit
    · exact isDigit_replicate _ c zero
    · exact isDigit_toDigits c digit
  have isWhole : IsWhole (padded.take (padded.length - places)) := by
    refine ⟨⟨?_, fun c present => areDigits c (List.mem_of_mem_take present)⟩, ?_⟩
    · apply List.ne_nil_of_length_pos
      rw [List.length_take]
      omega
    · intro zero
      rw [List.length_take]
      by_cases long : places < digits.length
      · have noZeros : places + 1 - digits.length = 0 := by omega
        have same : padded = digits := by simp [padded, noZeros]
        rw [List.head?_take, if_neg (by omega), same] at zero
        have isZero : digits = ['0'] := by
          simp only [digits]
          rw [eq_zero_of_head?_toDigits zero]
          rfl
        rw [isZero, List.length_singleton] at long
        omega
      · omega
  have isFraction : IsFraction ('.' :: padded.drop (padded.length - places))
      (padded.drop (padded.length - places)) := by
    refine .present ⟨?_, fun c present => areDigits c (List.mem_of_mem_drop present)⟩
    apply List.ne_nil_of_length_pos
    rw [List.length_drop]
    omega
  have lastPlace : 0 - ((padded.length - (padded.length - places) : Nat) : Int) = -places := by
    omega
  have parts := SpellsDecimal.parts isWhole isFraction .absent (by simp)
  rw [List.take_append_drop, decimal_append_of_zeros, decimal_toDigits, List.length_drop,
    lastPlace] at parts
  rw [text]
  exact parts

theorem isPower_signed (leading : Int) :
    IsPower ('e' :: (if leading < 0 then '-' else '+') :: Nat.toDigits 10 leading.natAbs)
      leading := by
  split
  · next negative =>
    have power := IsPower.minus (.inl rfl) (@isDigits_toDigits leading.natAbs)
    rw [decimal_toDigits, show -(leading.natAbs : Int) = leading by omega] at power
    exact power
  · next nonnegative =>
    have power := IsPower.plus (.inl rfl) (@isDigits_toDigits leading.natAbs)
    rw [decimal_toDigits, show (leading.natAbs : Int) = leading by omega] at power
    exact power

theorem toList_power (leading : Int) :
    ((if leading < 0 then "e-" else "e+") ++ toString leading.natAbs).toList =
      'e' :: (if leading < 0 then '-' else '+') :: Nat.toDigits 10 leading.natAbs := by
  split
  · simp
  · simp

theorem isFraction_others {first : Char} {rest : List Char}
    (areDigits : ∀ c ∈ first :: rest, c.isDigit = true) :
    IsFraction (if rest = [] then [] else '.' :: rest) rest := by
  split
  · next none =>
    rw [none]
    exact .absent
  · next some => exact .present ⟨some, (List.forall_mem_cons.mp areDigits).2⟩

/-- A decimal as one digit, the others after a point, and a power of ten. -/
theorem spellsDecimal_scientific (decimal : Decimal) :
    SpellsDecimal (NumberStyle.scientificText decimal).toList decimal := by
  rcases decimal with ⟨n, exponent⟩
  rcases List.exists_cons_of_ne_nil (@toDigits_ne_nil n) with ⟨first, rest, digits⟩
  have areDigits : ∀ c ∈ first :: rest, c.isDigit = true := digits ▸ isDigit_toDigits
  generalize isLeading : exponent + ((first :: rest).length : Int) - 1 = leading
  have text : (NumberStyle.scientificText ⟨n, exponent⟩).toList =
      [first] ++ ((if rest = [] then [] else '.' :: rest) ++
        'e' :: (if leading < 0 then '-' else '+') :: Nat.toDigits 10 leading.natAbs) := by
    simp only [NumberStyle.scientificText, decimalDigits, digits, isLeading]
    rw [String.append_assoc, String.toList_append, toList_power]
    cases rest with
    | nil => simp
    | cons second others => simp
  have isWhole : IsWhole [first] := ⟨⟨by simp, by simpa using areDigits first⟩, fun _ => rfl⟩
  have whole : Digit.decimal ([first] ++ rest) = n := by
    rw [List.singleton_append, ← digits, decimal_toDigits]
  have lastPlace : leading - rest.length = exponent := by
    rw [← isLeading, List.length_cons]
    omega
  have parts := SpellsDecimal.parts isWhole (isFraction_others areDigits) (isPower_signed leading)
    (by simp)
  rw [whole, lastPlace] at parts
  rw [text]
  exact parts

end Decimals

section Floats

variable {x : Binary64}

/-- In either notation, what is written rounds to the double if the decimal does. -/
theorem exists_spellsDecimal {decimal : Decimal} (rounds : x.roundsTo decimal = true)
    (isPositional : Bool) :
    ∃ spelled, x.roundsTo spelled = true ∧
      SpellsDecimal (if isPositional then numberStyle.positionalText decimal
        else NumberStyle.scientificText decimal).toList spelled := by
  cases isPositional with
  | false => exact ⟨decimal, rounds, spellsDecimal_scientific decimal⟩
  | true =>
      by_cases whole : 0 ≤ decimal.exponent
      · exact ⟨_, (x.roundsTo_shift decimal _).trans rounds, spellsDecimal_whole whole⟩
      · exact ⟨decimal, rounds, spellsDecimal_places (by omega)⟩

/-- A finite double is written as its sign and a decimal that rounds to it. -/
theorem exists_render (finite : x.isFinite = true) :
    ∃ text decimal, (numberStyle.render x).toList = sign x.isNegative ++ text ∧
      SpellsDecimal text decimal ∧ x.roundsTo decimal = true := by
  have exponent : x.exponentField ≠ 2047 := by simpa [Binary64.isFinite] using finite
  have notNaN : x.isNaN = false := Binary64.isNaN_of_finite finite
  have notInfinite : x.isInfinite = false := by simp [Binary64.isInfinite, exponent]
  have rounds := x.roundsTo_shortest numberStyle.tie
  rw [NumberStyle.render, notNaN, notInfinite, if_neg Bool.false_ne_true,
    if_neg Bool.false_ne_true]
  generalize x.shortest numberStyle.tie = decimal at rounds
  extract_lets _ _ isPositional
  rcases exists_spellsDecimal rounds isPositional with ⟨spelled, roundsTo, spells⟩
  refine ⟨_, spelled, ?_, spells, roundsTo⟩
  rw [String.toList_append]
  cases x.isNegative with
  | false => rfl
  | true => rfl

theorem spells_float (value : FiniteNumber) : Spells (chars (.float value)) (.float value) := by
  rcases exists_render value.finite with ⟨text, decimal, written, spelled, rounds⟩
  rw [chars, written]
  exact .float spelled rounds

end Floats

end Json

end FilterLang
