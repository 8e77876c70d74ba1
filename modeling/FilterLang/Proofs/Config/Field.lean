import FilterLang.Config.Compile
import FilterLang.Proofs.Filter.Traversal
import FilterLang.Proofs.Number.FiniteNumber

/-!
# Compiled fields

A field compiles exactly if its definition is coherent: it has a name that can stand for a field, a
known type, known operators, bounds that fit the type and do not exclude each other, and a list of
scalars. The compiled field has that type, and the operators and limits of the definition.
-/

namespace FilterLang

theorem Operator.ofName?_eq_some {name : String} {op : Operator} :
    Operator.ofName? name = some op ↔ op.name = name := by
  constructor
  · intro found
    simpa using List.find?_some found
  · rintro rfl
    exact ofName?_name op

theorem FieldType.ofName?_eq_some {name : String} {type : FieldType} :
    FieldType.ofName? name = some type ↔ type.name = name := by
  constructor
  · intro found
    simpa using List.find?_some found
  · rintro rfl
    cases type <;> decide

theorem FieldType.isNumeric_iff {type : FieldType} :
    type.isNumeric = true ↔ type.name ∈ ["int", "float", "number"] := by
  cases type <;> decide

theorem FieldType.eq_text_iff {type : FieldType} : type = .text ↔ type.name = "text" := by
  cases type <;> decide

namespace Config

/-- A value that a field can be compared with. -/
inductive IsScalar : Toml → Prop
  | string (value : String) : IsScalar (.string value)
  | integer (value : Int) : IsScalar (.integer value)
  | float {written : WrittenFloat} {double : Binary64} (used : written.value? = some double)
      (finite : double.isFinite = true) : IsScalar (.float written)
  | boolean (value : Bool) : IsScalar (.boolean value)
  | moment (value : Moment) : IsScalar (.moment value)

/-- What a value stands for. Integers wrap around to 64 bits, finite floats keep their value, and a
date or time is the text of it. -/
inductive StandsFor : Toml → Scalar → Prop
  | string (value : String) : StandsFor (.string value) (.text value)
  | integer (value : Int) : StandsFor (.integer value) (.int (Int64.ofInt value))
  | float {written : WrittenFloat} {double : Binary64} {number : FiniteNumber}
      (used : written.value? = some double) (finite : double.isFinite = true)
      (same : number.value.units = double.units) : StandsFor (.float written) (.float number)
  | boolean (value : Bool) : StandsFor (.boolean value) (.bool value)
  | moment (value : Moment) : StandsFor (.moment value) (.text value.text)

theorem scalar?_eq_some {value : Toml} {scalar : Scalar} :
    scalar? value = some scalar ↔ StandsFor value scalar := by
  constructor
  · intro isScalar
    cases value with
    | float written =>
        simp only [scalar?, Option.map_eq_some_iff, Option.bind_eq_some_iff] at isScalar
        rcases isScalar with ⟨number, ⟨double, used, isNumber⟩, rfl⟩
        rcases FiniteNumber.ofBinary64?_eq_some.mp isNumber with ⟨finite, same⟩
        exact .float used finite same
    | misspelled text => cases isScalar
    | array items => cases isScalar
    | table entries => cases isScalar
    | string value =>
        cases isScalar
        exact .string value
    | integer value =>
        cases isScalar
        exact .integer value
    | boolean value =>
        cases isScalar
        exact .boolean value
    | moment value =>
        cases isScalar
        exact .moment value
  · intro stands
    cases stands with
    | float used finite same =>
        rw [scalar?, used, Option.bind_some, FiniteNumber.ofBinary64?_eq_some.mpr ⟨finite, same⟩]
        rfl
    | string value => rfl
    | integer value => rfl
    | boolean value => rfl
    | moment value => rfl

theorem exists_standsFor {value : Toml} : (∃ scalar, StandsFor value scalar) ↔ IsScalar value := by
  constructor
  · rintro ⟨scalar, stands⟩
    cases stands with
    | string value => exact .string value
    | integer value => exact .integer value
    | float used finite _ => exact .float used finite
    | boolean value => exact .boolean value
    | moment value => exact .moment value
  · intro isScalar
    cases isScalar with
    | string value => exact ⟨_, .string value⟩
    | integer value => exact ⟨_, .integer value⟩
    | @float written double used finite =>
        rcases FiniteNumber.exists_ofBinary64? finite with ⟨number, _, same⟩
        exact ⟨_, .float used finite same⟩
    | boolean value => exact ⟨_, .boolean value⟩
    | moment value => exact ⟨_, .moment value⟩

end Config

/-- A definition that makes sense for a field with this name. -/
structure FieldConfig.Coherent (name : String) (field : FieldConfig) : Prop where
  /-- The field has a name. -/
  named : name ≠ ""
  /-- The name spells no operator. -/
  noOperator : ∀ op : Operator, op.name ≠ name
  /-- The type is known. -/
  typed : ∃ type : FieldType, type.name = field.type
  /-- The operators are in the vocabulary. -/
  operators : ∀ names, field.operators = some names →
    ∀ spelling ∈ names, ∃ op : Operator, op.name = spelling
  /-- Only numbers have numeric bounds. -/
  numericBounds : field.min.isSome ∨ field.max.isSome → field.type ∈ ["int", "float", "number"]
  /-- Only text has bounds on its length. -/
  lengthBounds : field.minLength.isSome ∨ field.maxLength.isSome → field.type = "text"
  /-- The least number is not above the greatest. -/
  ordered : ∀ min max, field.min = some min → field.max = some max → max.lt min = false
  /-- The least length is not above the greatest. -/
  lengthsOrdered : ∀ least most, field.minLength = some least → field.maxLength = some most →
    least ≤ most
  /-- The admitted values are scalars. -/
  scalars : ∀ value ∈ field.oneOf, Config.IsScalar value

/-- A definition says what a field is. -/
structure FieldConfig.Describes (config : FieldConfig) (field : Field) : Prop where
  /-- The field has the type. -/
  type : field.type.name = config.type
  /-- The field has the operators, or admits all if none are given. -/
  operators : field.operators.map (·.map Operator.name) = config.operators
  /-- The field has the least number. -/
  min : field.limits.min = config.min
  /-- The field has the greatest number. -/
  max : field.limits.max = config.max
  /-- The field has the least length. -/
  minLength : field.limits.minLength = config.minLength
  /-- The field has the greatest length. -/
  maxLength : field.limits.maxLength = config.maxLength
  /-- The field has the scalars that the admitted values stand for. -/
  oneOf : List.Forall₂ Config.StandsFor config.oneOf field.limits.oneOf

namespace Config

variable {dataset name : String}

section Operators

variable {names : List String}

theorem operators_eq_ok {operators : List Operator} :
    Config.operators dataset names = .ok operators ↔ operators.map Operator.name = names := by
  rw [@eq_comm _ (operators.map _), ← List.forall₂_eq_eq_eq, List.forall₂_map_right_iff]
  apply mapM_eq_ok_iff_forall₂
  intro spelling op
  rw [@eq_comm _ spelling, ← Operator.ofName?_eq_some]
  cases Operator.ofName? spelling <;> simp

theorem operators?_eq_ok {names : Option (List String)} {operators : Option (List Operator)} :
    operators? dataset names = .ok operators ↔ operators.map (·.map Operator.name) = names := by
  cases names with
  | none => cases operators <;> simp [operators?]
  | some names => cases operators <;> simp [operators?, map_eq_ok, operators_eq_ok]

/-- Names in the vocabulary are the names of operators. -/
theorem exists_operators? {names : Option (List String)} :
    (∃ operators : Option (List Operator), operators.map (·.map Operator.name) = names) ↔
      ∀ given, names = some given → ∀ spelling ∈ given, ∃ op : Operator, op.name = spelling := by
  constructor
  · rintro ⟨operators, rfl⟩ given named spelling present
    rcases Option.map_eq_some_iff.mp named with ⟨list, _, rfl⟩
    rcases List.mem_map.mp present with ⟨op, _, same⟩
    exact ⟨op, same⟩
  · intro known
    cases names with
    | none => exact ⟨none, rfl⟩
    | some given =>
        rcases exists_forall₂ (known given rfl) with ⟨list, related⟩
        refine ⟨some list, congrArg some ?_⟩
        rw [← List.forall₂_eq_eq_eq, List.forall₂_map_left_iff]
        exact related.flip

end Operators

section Limits

variable {type : FieldType} {config : FieldConfig}

theorem scalars_eq_ok {values : List Toml} {scalars : List Scalar} :
    Config.scalars values = .ok scalars ↔ List.Forall₂ StandsFor values scalars := by
  apply mapM_eq_ok_iff_forall₂
  intro value scalar
  rw [← scalar?_eq_some]
  cases scalar? value <;> simp

theorem exists_scalars {values : List Toml} :
    (∃ scalars, List.Forall₂ StandsFor values scalars) ↔ ∀ value ∈ values, IsScalar value := by
  simp only [← exists_standsFor]
  constructor
  · rintro ⟨scalars, stand⟩ value present
    rcases exists_result stand present with ⟨scalar, _, stands⟩
    exact ⟨scalar, stands⟩
  · intro stand
    exact exists_forall₂ stand

theorem checkBounds_eq_ok :
    checkBounds type config = .ok () ↔
      (config.min.isSome ∨ config.max.isSome → type.isNumeric = true) ∧
      (config.minLength.isSome ∨ config.maxLength.isSome → type = .text) ∧
      ∀ min max, config.min = some min → config.max = some max → max.lt min = false := by
  rw [checkBounds]
  split
  · simp_all
  · split
    · simp_all
    · split <;> simp_all

theorem checkLengths_eq_ok :
    checkLengths config = .ok () ↔
      ∀ least most, config.minLength = some least → config.maxLength = some most →
        least ≤ most := by
  rw [checkLengths]
  split <;> simp_all

theorem limits_eq_ok {limits : Limits} :
    Config.limits type config = .ok limits ↔
      checkBounds type config = .ok () ∧ checkLengths config = .ok () ∧
      ∃ scalars, List.Forall₂ StandsFor config.oneOf scalars ∧
        ⟨config.min, config.max, config.minLength, config.maxLength, scalars⟩ = limits := by
  rw [Config.limits, bind_unit_eq_ok, bind_unit_eq_ok]
  simp only [bind_eq_ok, scalars_eq_ok, Except.ok.injEq]

end Limits

section Field

variable {config : FieldConfig} {field : Field}

theorem checkFieldName_eq_ok :
    checkFieldName dataset name = .ok () ↔ name ≠ "" ∧ ∀ op : Operator, op.name ≠ name := by
  have free : (Operator.ofName? name).isSome = true ↔ ∃ op : Operator, op.name = name := by
    simp only [Option.isSome_iff_exists, Operator.ofName?_eq_some]
  rw [checkFieldName]
  split
  · simp_all
  · split <;> simp_all

theorem compileField_eq_ok_iff_exists :
    compileField dataset name config = .ok field ↔
      checkFieldName dataset name = .ok () ∧
      ∃ type, FieldType.ofName? config.type = some type ∧
        ∃ operators, operators? dataset config.operators = .ok operators ∧
          ∃ limits, Config.limits type config = .ok limits ∧ ⟨type, operators, limits⟩ = field := by
  rw [compileField, bind_unit_eq_ok]
  cases FieldType.ofName? config.type with
  | none => simp
  | some type => simp [bind_eq_ok, mapError_eq_ok]

/-- A field compiles exactly if its definition is coherent, to a field that this describes. -/
theorem compileField_eq_ok :
    compileField dataset name config = .ok field ↔
      config.Coherent name ∧ config.Describes field := by
  simp only [compileField_eq_ok_iff_exists, checkFieldName_eq_ok, FieldType.ofName?_eq_some,
    operators?_eq_ok, limits_eq_ok, checkBounds_eq_ok, checkLengths_eq_ok, FieldType.isNumeric_iff,
    FieldType.eq_text_iff]
  constructor
  · rintro ⟨⟨named, noOperator⟩, type, typed, operators, known, limits,
      ⟨⟨numericBounds, lengthBounds, ordered⟩, lengthsOrdered, scalars, stand, rfl⟩, rfl⟩
    rw [typed] at numericBounds lengthBounds
    constructor
    · exact ⟨named, noOperator, ⟨type, typed⟩, exists_operators?.mp ⟨operators, known⟩,
        numericBounds, lengthBounds, ordered, lengthsOrdered, exists_scalars.mp ⟨scalars, stand⟩⟩
    · exact ⟨typed, known, rfl, rfl, rfl, rfl, stand⟩
  · rintro ⟨coherent, describes⟩
    rcases field with ⟨type, operators, ⟨min, max, minLength, maxLength, scalars⟩⟩
    rcases describes with ⟨typed, known, rfl, rfl, rfl, rfl, stand⟩
    refine ⟨⟨coherent.named, coherent.noOperator⟩, type, typed, operators, known, _,
      ⟨⟨?_, ?_, coherent.ordered⟩, coherent.lengthsOrdered, scalars, stand, rfl⟩, rfl⟩
    · intro bounded
      exact typed ▸ coherent.numericBounds bounded
    · intro bounded
      exact typed.trans (coherent.lengthBounds bounded)

theorem exists_describes (coherent : config.Coherent name) :
    ∃ field, config.Describes field := by
  rcases coherent.typed with ⟨type, typed⟩
  rcases exists_operators?.mpr coherent.operators with ⟨operators, known⟩
  rcases exists_scalars.mpr coherent.scalars with ⟨scalars, stand⟩
  exact ⟨⟨type, operators, ⟨config.min, config.max, config.minLength, config.maxLength, scalars⟩⟩,
    typed, known, rfl, rfl, rfl, rfl, stand⟩

theorem exists_compileField_eq_ok :
    (∃ field, compileField dataset name config = .ok field) ↔ config.Coherent name := by
  simp only [compileField_eq_ok]
  constructor
  · rintro ⟨_, coherent, _⟩
    exact coherent
  · intro coherent
    rcases exists_describes coherent with ⟨field, describes⟩
    exact ⟨field, coherent, describes⟩

end Field

end Config

end FilterLang
