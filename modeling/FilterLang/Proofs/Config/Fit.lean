import FilterLang.Proofs.Calendar.Reading
import FilterLang.Proofs.Config.Registry
import FilterLang.Proofs.Dataset.Limits

/-!
# How far limits fit their field

An accepted configuration has no field whose least number is above the greatest. This is less than
that the least is at most the greatest: a bound that is no number compares with nothing, so that it
is accepted and excludes no value. The admitted values of a field are not held against its type at
all. The field takes those that suit the type, and refuses the others although it lists them.
-/

namespace FilterLang

namespace Binary64

/-- Order by value: nothing compares with a NaN and the two zeros are equal. -/
def le (x y : Binary64) : Bool :=
  !x.isNaN && !y.isNaN && decide (x.units ≤ y.units)

variable {x y : Binary64}

theorem lt_of_isNaN (noNumber : x.isNaN = true ∨ y.isNaN = true) : x.lt y = false := by
  rcases noNumber with left | right
  · simp [lt, left]
  · simp [lt, right]

theorem le_iff_of_lt_eq_false (ordered : y.lt x = false) :
    x.le y = true ↔ x.isNaN = false ∧ y.isNaN = false := by
  constructor
  · intro le
    simp only [Binary64.le, Bool.and_eq_true, Bool.not_eq_true'] at le
    exact le.1
  · rintro ⟨left, right⟩
    simpa [lt, Binary64.le, left, right] using ordered

end Binary64

namespace Limits

variable {limits : Limits} {bound : Binary64} {value : Scalar}

theorem not_belowMinimum_of_isNaN (isMinimum : limits.min = some bound)
    (noNumber : bound.isNaN = true) (reported : Binary64) :
    .belowMinimum reported ∉ limits.violations value := by
  rw [mem_violations]
  rintro ⟨number, _, isReported, below⟩
  cases isMinimum.symm.trans isReported
  rw [Binary64.lt_of_isNaN (.inr noNumber)] at below
  cases below

theorem not_aboveMaximum_of_isNaN (isMaximum : limits.max = some bound)
    (noNumber : bound.isNaN = true) (reported : Binary64) :
    .aboveMaximum reported ∉ limits.violations value := by
  rw [mem_violations]
  rintro ⟨number, _, isReported, above⟩
  cases isMaximum.symm.trans isReported
  rw [Binary64.lt_of_isNaN (.inl noNumber)] at above
  cases above

/-- The bounds are in order as far as they are numbers. A bound that is none excludes nothing. -/
structure Ordered (limits : Limits) : Prop where
  /-- The least number is at most the greatest exactly if both are numbers. -/
  le_iff : ∀ min max, limits.min = some min → limits.max = some max →
    (min.le max = true ↔ min.isNaN = false ∧ max.isNaN = false)
  /-- No value is below a minimum that is no number. -/
  voidMinimum : ∀ min, limits.min = some min → min.isNaN = true →
    ∀ value reported, .belowMinimum reported ∉ limits.violations value
  /-- No value is above a maximum that is no number. -/
  voidMaximum : ∀ max, limits.max = some max → max.isNaN = true →
    ∀ value reported, .aboveMaximum reported ∉ limits.violations value

theorem ordered_of_lt_eq_false (ordered : ∀ min max, limits.min = some min →
    limits.max = some max → max.lt min = false) : limits.Ordered where
  le_iff _ _ isMinimum isMaximum :=
    Binary64.le_iff_of_lt_eq_false (ordered _ _ isMinimum isMaximum)
  voidMinimum _ isMinimum noNumber _ := not_belowMinimum_of_isNaN isMinimum noNumber
  voidMaximum _ isMaximum noNumber _ := not_aboveMaximum_of_isNaN isMaximum noNumber

theorem sameValue_self (value : Scalar) : sameValue value value = true := by
  rw [sameValue]
  split <;> simp_all

theorem not_unlisted_of_mem (listed : value ∈ limits.oneOf) (admitted : List Scalar) :
    .unlisted admitted ∉ limits.violations value := by
  rw [mem_violations]
  rintro ⟨rfl, _, differ⟩
  have differs := differ value listed
  rw [sameValue_self] at differs
  cases differs

end Limits

section Moment

variable {moment : Moment}

theorem Date.not_isDateChar : ¬IsDateChar ':' ∧ ¬IsDateChar 'Z' := by
  unfold IsDateChar
  decide

theorem Moment.time_eq_none (legible : Date.Legible moment.text.toList) : moment.time = none := by
  cases timed : moment.time with
  | none => rfl
  | some time =>
      have colon : ':' ∈ moment.text.toList := by simp [text, timed, timeChars]
      exact absurd (legible _ colon) Date.not_isDateChar.1

theorem Moment.offset_eq_none (legible : Date.Legible moment.text.toList) :
    moment.offset = none := by
  cases shifted : moment.offset with
  | none => rfl
  | some offset =>
      cases offset with
      | universal =>
          have letter : 'Z' ∈ moment.text.toList := by simp [text, shifted, offsetChars]
          exact absurd (legible _ letter) Date.not_isDateChar.2
      | minutes east =>
          have colon : ':' ∈ moment.text.toList := by simp [text, shifted, offsetChars]
          exact absurd (legible _ colon) Date.not_isDateChar.1

/-- The text of a moment is read as a date exactly if the moment is this date. -/
theorem Moment.read?_text {date : Date} :
    Date.read? moment.text.toList = some date ↔ moment = ⟨some date, none, none⟩ := by
  constructor
  · intro read
    have legible := Date.legible_of_read? read
    rcases moment with ⟨day, time, offset⟩
    cases (Moment.time_eq_none legible : time = none)
    cases (Moment.offset_eq_none legible : offset = none)
    cases day with
    | none => cases read
    | some day =>
        simp only [text, Option.isSome_none, Bool.and_false, Bool.false_eq_true, if_false,
          List.append_nil, String.toList_ofList, Date.read?_chars, Option.some.injEq] at read
        rw [read]
  · rintro rfl
    simp [text, Date.read?_chars]

end Moment

namespace Config

/-- When a value suits the type of a field. A float may be written as an integer, and a date as a
text that reads as a date, or as a date without a time. -/
inductive Suits : Toml → FieldType → Prop
  | any (value : Toml) : Suits value .any
  | boolean (value : Bool) : Suits (.boolean value) .bool
  | integer (value : Int) {type : FieldType} (numeric : type ∈ [.int, .float, .number]) :
      Suits (.integer value) type
  | float (value : WrittenFloat) {type : FieldType} (fractional : type ∈ [.float, .number]) :
      Suits (.float value) type
  | string (value : String) : Suits (.string value) .text
  | moment (value : Moment) : Suits (.moment value) .text
  | date {value : String} {date : Date} (reads : Date.read? value.toList = some date) :
      Suits (.string value) .date
  | day (date : Date) : Suits (.moment ⟨some date, none, none⟩) .date

theorem accepts_iff_suits {type : FieldType} {value : Toml} {scalar : Scalar}
    (stands : StandsFor value scalar) : type.accepts scalar = true ↔ Suits value type := by
  constructor
  · intro accepted
    cases stands with
    | string text =>
        cases type with
        | any => exact .any _
        | text => exact .string text
        | date =>
            rcases Option.isSome_iff_exists.mp accepted with ⟨date, reads⟩
            exact .date reads
        | _ => cases accepted
    | moment moment =>
        cases type with
        | any => exact .any _
        | text => exact .moment moment
        | date =>
            rcases Option.isSome_iff_exists.mp accepted with ⟨date, reads⟩
            cases Moment.read?_text.mp reads
            exact .day date
        | _ => cases accepted
    | integer value =>
        cases type with
        | any => exact .any _
        | int | float | number => exact .integer value (by decide)
        | _ => cases accepted
    | float used finite same =>
        cases type with
        | any => exact .any _
        | float | number => exact .float _ (by decide)
        | _ => cases accepted
    | boolean value =>
        cases type with
        | any => exact .any _
        | bool => exact .boolean value
        | _ => cases accepted
  · intro suits
    cases suits with
    | any => cases stands <;> rfl
    | boolean | string | moment =>
        cases stands
        rfl
    | integer value numeric =>
        cases stands
        simp only [List.mem_cons, List.not_mem_nil, or_false] at numeric
        rcases numeric with rfl | rfl | rfl <;> rfl
    | float value fractional =>
        cases stands
        simp only [List.mem_cons, List.not_mem_nil, or_false] at fractional
        rcases fractional with rfl | rfl <;> rfl
    | date reads =>
        cases stands
        exact Option.isSome_iff_exists.mpr ⟨_, reads⟩
    | day date =>
        cases stands
        exact Option.isSome_iff_exists.mpr ⟨date, Moment.read?_text.mpr rfl⟩

variable {config : Config} {registry : Registry} {name fieldName : String}
  {dataset : DatasetConfig} {field : FieldConfig}

theorem exists_compiled (accepted : config.compile = .ok registry)
    (defined : config.datasets.find? name = some dataset)
    (declared : dataset.fields.find? fieldName = some field) :
    ∃ registered compiled, registry.find? name = some registered ∧
      registered.field? fieldName = some compiled ∧
      field.Coherent fieldName ∧ field.Describes compiled := by
  have compiles := (compile_eq_ok.mp accepted).1.lookup name
  rw [← Table.find?, defined] at compiles
  rcases exists_of_rel compiles with ⟨registered, registers, succeeds⟩
  have coherent := (exists_compileDataset_eq_ok.mp ⟨registered, succeeds⟩).fields
  have described := (describes_dataset succeeds).fields fieldName
  rw [declared] at described
  rcases exists_of_rel described with ⟨compiled, compiles, describes⟩
  exact ⟨registered, compiled, registers, compiles,
    coherent _ (Table.find?_eq_some.mp declared), describes⟩

/-- The bounds of a field of an accepted configuration are in order as far as they are numbers. The
values that the field admits pass its list, but they pass its type only if they suit it. -/
theorem compile_limits_fit (accepted : config.compile = .ok registry)
    (defined : config.datasets.find? name = some dataset)
    (declared : dataset.fields.find? fieldName = some field) :
    ∃ registered compiled, registry.find? name = some registered ∧
      registered.field? fieldName = some compiled ∧ field.Describes compiled ∧
      compiled.limits.Ordered ∧
      (∀ scalar ∈ compiled.limits.oneOf, ∀ admitted,
        .unlisted admitted ∉ compiled.limits.violations scalar) ∧
      List.Forall₂ (fun value scalar => StandsFor value scalar ∧
        (registered.typeComplaints fieldName (.scalar scalar) = [] ↔ Suits value compiled.type))
        field.oneOf compiled.limits.oneOf := by
  rcases exists_compiled accepted defined declared with
    ⟨registered, compiled, registers, compiles, coherent, describes⟩
  refine ⟨registered, compiled, registers, compiles, describes, ?_, ?_, ?_⟩
  · apply Limits.ordered_of_lt_eq_false
    rw [describes.min, describes.max]
    exact coherent.ordered
  · intro scalar listed
    exact Limits.not_unlisted_of_mem listed
  · apply describes.oneOf.imp
    intro value scalar stands
    rw [Dataset.typeComplaints_eq_nil compiles]
    exact ⟨stands, accepts_iff_suits stands⟩

/-- A double that is no number. -/
def noNumber : Binary64 := ⟨0x7ff8000000000000⟩

/-- A rating from no number up to five, which may be one or a text. -/
def rating : FieldConfig :=
  ⟨"float", none, [.integer 1, .string "good"], some noNumber, some (.ofInt 5), none, none⟩

/-- Films with such a rating. -/
def ratedFilms : DatasetConfig :=
  { foreigns := [], operators := none, fields := .ofList [("rating", rating)] }

/-- Such films are accepted. No number is below their least rating, and a text that they list as a
rating is refused. -/
theorem compile_limits_fit_ratedFilms :
    noNumber.le (.ofInt 5) = false ∧
    ∃ registry registered compiled,
      compile ⟨none, .ofList [("film", ratedFilms)]⟩ = .ok registry ∧
      registry.find? "film" = some registered ∧
      registered.field? "rating" = some compiled ∧
      (∀ value reported, .belowMinimum reported ∉ compiled.limits.violations value) ∧
      .text "good" ∈ compiled.limits.oneOf ∧
      registered.typeComplaints "rating" (.scalar (.text "good")) ≠ [] := by
  have succeeded : (compile ⟨none, .ofList [("film", ratedFilms)]⟩).isOk = true := by
    decide +kernel
  cases accepted : compile ⟨none, .ofList [("film", ratedFilms)]⟩ with
  | error error => simp [accepted, Except.isOk, Except.toBool] at succeeded
  | ok registry =>
      have defined : (Table.ofList [("film", ratedFilms)]).find? "film" = some ratedFilms := rfl
      have declared : ratedFilms.fields.find? "rating" = some rating := rfl
      rcases compile_limits_fit accepted defined declared with
        ⟨registered, ⟨type, operators, limits⟩, registers, compiles, describes, ordered, _, oneOf⟩
      have isFloat : some .float = some type := FieldType.ofName?_eq_some.mpr describes.type
      cases isFloat
      simp only [rating, List.forall₂_cons_left_iff] at oneOf
      rcases oneOf with ⟨_, _, _, ⟨_, _, ⟨stands, passes⟩, _, rfl⟩, listed⟩
      cases stands
      refine ⟨by decide +kernel, registry, registered, _, rfl, registers, compiles,
        ordered.voidMinimum noNumber describes.min (by decide), by simp [listed], ?_⟩
      rw [ne_eq, passes]
      intro suits
      cases suits

end Config

end FilterLang
