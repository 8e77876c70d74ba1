import FilterLang.Normal.Clause
import FilterLang.Proofs.Filter.Equality

/-!
# The pass over conjunctions

How a mapping is read depends on its keys and on the key that encloses it: `Reading.Reads` lists the
outcomes of that decision, and `Node.ExpandsConjunction` the ways in which the pass succeeds on a
mapping. The pass makes proper trees of proper trees. No other file opens it.
-/

namespace FilterLang

namespace Key

/-- The category of the operator that a key is. -/
def category? (key : Key) : Option Operator.Category := key.operator?.map Operator.category

@[simp]
theorem category?_operator (op : Operator) : (operator op).category? = some op.category := rfl

@[simp]
theorem category?_field (name : String) : (field name).category? = none := rfl

theorem category?_eq_some {key : Key} {category : Operator.Category} :
    key.category? = some category ↔ ∃ op, key = .operator op ∧ op.category = category := by
  cases key <;> simp

theorem isOperator_of_category? {key : Key} {category : Operator.Category}
    (categorized : key.category? = some category) : key.isOperator = true := by
  rcases category?_eq_some.mp categorized with ⟨op, rfl, _⟩
  rfl

theorem isOperator_eq_false {key : Key} :
    key.isOperator = false ↔ ∃ name, key = .field name := by
  cases key <;> simp [isOperator]

end Key

namespace Reading

/-- When keys are read in a way under an enclosing key. -/
inductive Reads (enclosing : Option Key) : List Key → Reading → Prop
  /-- There is nothing to read. -/
  | empty : Reads enclosing [] .whole
  /-- Logical or structural keys need no enclosing key. -/
  | uniform {category : Operator.Category} {keys : List Key} (other : category ≠ .comparison)
      (nonempty : keys ≠ []) (uniform : ∀ key ∈ keys, key.category? = some category) :
      Reads enclosing keys .whole
  /-- A comparison stands alone where no field encloses it. -/
  | alone {op : Operator} (comparison : op.category = .comparison)
      (noField : ∀ name, enclosing ≠ some (.field name)) :
      Reads enclosing [.operator op] .whole
  /-- Comparisons belong to the field that encloses them. -/
  | underField {name : String} {keys : List Key} (enclosed : enclosing = some (.field name))
      (nonempty : keys ≠ []) (uniform : ∀ key ∈ keys, key.category? = some .comparison) :
      Reads enclosing keys (.comparisons (.field name))
  /-- Several comparisons belong to the operator that encloses them. -/
  | underOperator {op : Operator} {keys : List Key} (enclosed : enclosing = some (.operator op))
      (several : 2 ≤ keys.length) (uniform : ∀ key ∈ keys, key.category? = some .comparison) :
      Reads enclosing keys (.comparisons (.operator op))
  /-- Fields are clauses of their own. -/
  | fields {keys : List Key} (nonempty : keys ≠ [])
      (fields : ∀ key ∈ keys, key.isOperator = false) : Reads enclosing keys .fields

theorem uniform_iff {category : Operator.Category} {keys : List Key} :
    uniform category keys = true ↔ ∀ key ∈ keys, key.category? = some category := by
  simp [uniform, Key.category?]

theorem Reads.of_comparisons {enclosing : Option Key} {keys : List Key} {key : Key}
    (reads : Reads enclosing keys (.comparisons key)) :
    enclosing = some key ∧ keys ≠ [] ∧ ∀ key ∈ keys, key.category? = some .comparison := by
  cases reads with
  | underField enclosed nonempty uniform => exact ⟨enclosed, nonempty, uniform⟩
  | underOperator enclosed several uniform =>
      refine ⟨enclosed, ?_, uniform⟩
      rintro rfl
      simp at several

theorem Reads.of_fields {enclosing : Option Key} {keys : List Key}
    (reads : Reads enclosing keys .fields) :
    keys ≠ [] ∧ ∀ key ∈ keys, ∃ name, key = .field name := by
  cases reads with
  | fields nonempty fields =>
      refine ⟨nonempty, ?_⟩
      intro key present
      exact Key.isOperator_eq_false.mp (fields key present)

/-- Comparisons under a field belong to it. -/
theorem Reads.of_mem_comparison {name : String} {keys : List Key} {reading : Reading}
    (reads : Reads (some (.field name)) keys reading) {key : Key} (present : key ∈ keys)
    (comparison : key.category? = some .comparison) : reading = .comparisons (.field name) := by
  cases reads with
  | empty => simp at present
  | uniform other _ uniform =>
      rw [uniform key present, Option.some.injEq] at comparison
      exact absurd comparison other
  | alone _ noField => exact absurd rfl (noField name)
  | underField enclosed _ _ =>
      cases enclosed
      rfl
  | underOperator enclosed _ _ => cases enclosed
  | fields _ fields =>
      rcases Key.category?_eq_some.mp comparison with ⟨op, same, _⟩
      subst same
      simpa [Key.isOperator] using fields _ present

theorem ofComparisons_eq_ok {enclosing : Option Key} {op : Operator} {rest : List Key}
    {reading : Reading} (uniform : ∀ key ∈ .operator op :: rest, key.category? = some .comparison) :
    ofComparisons enclosing (.operator op :: rest) = .ok reading ↔
      Reads enclosing (.operator op :: rest) reading := by
  have comparison : op.category = .comparison := by
    simpa using uniform _ List.mem_cons_self
  constructor
  · intro read
    rcases enclosing with _ | ⟨enclosingOp | name⟩
    · cases rest with
      | nil =>
          cases read
          exact .alone comparison (by simp)
      | cons second others => simp [ofComparisons] at read
    · cases rest with
      | nil =>
          cases read
          exact .alone comparison (by simp)
      | cons second others =>
          cases read
          exact .underOperator rfl (by simp) uniform
    · cases read
      exact .underField rfl (by simp) uniform
  · intro reads
    cases reads with
    | uniform other nonempty same =>
        have category := same _ List.mem_cons_self
        rw [uniform _ List.mem_cons_self, Option.some.injEq] at category
        exact absurd category.symm other
    | alone comparison noField =>
        rcases enclosing with _ | ⟨enclosingOp | name⟩
        · rfl
        · rfl
        · exact absurd rfl (noField name)
    | underField enclosed => simp [enclosed, ofComparisons]
    | underOperator enclosed several =>
        cases rest with
        | nil => simp at several
        | cons second others => simp [enclosed, ofComparisons]
    | fields nonempty fields => simpa [Key.isOperator] using fields _ List.mem_cons_self

/-- A mapping that starts with an operator is read only if all keys are of its category. -/
theorem Reads.category?_eq {enclosing : Option Key} {op : Operator} {rest : List Key}
    {reading : Reading} (reads : Reads enclosing (.operator op :: rest) reading) :
    ∀ key ∈ .operator op :: rest, key.category? = some op.category := by
  cases reads with
  | uniform _ _ same =>
      rw [← same _ List.mem_cons_self] at same
      exact same
  | alone => simp
  | underField _ _ same =>
      rw [← same _ List.mem_cons_self] at same
      exact same
  | underOperator _ _ same =>
      rw [← same _ List.mem_cons_self] at same
      exact same
  | fields _ fields => simpa [Key.isOperator] using fields _ List.mem_cons_self

/-- A mapping that starts with a field is read only if all keys are fields. -/
theorem Reads.of_field {enclosing : Option Key} {name : String} {rest : List Key}
    {reading : Reading} (reads : Reads enclosing (.field name :: rest) reading) :
    reading = .fields ∧ ∀ key ∈ .field name :: rest, key.isOperator = false := by
  cases reads with
  | uniform _ _ same => simpa using same _ List.mem_cons_self
  | underField _ _ same => simpa using same _ List.mem_cons_self
  | underOperator _ _ same => simpa using same _ List.mem_cons_self
  | fields _ fields => exact ⟨rfl, fields⟩

theorem ofKeys_operator_eq_ok {enclosing : Option Key} {op : Operator} {rest : List Key}
    {reading : Reading} :
    ofKeys enclosing (.operator op :: rest) = .ok reading ↔
      Reads enclosing (.operator op :: rest) reading := by
  by_cases same : uniform op.category (.operator op :: rest) = true
  · have allSame := uniform_iff.mp same
    by_cases comparison : op.category = .comparison
    · have step : ofKeys enclosing (.operator op :: rest) =
          ofComparisons enclosing (.operator op :: rest) := by
        simp [ofKeys, comparison ▸ same, comparison]
      rw [step]
      exact ofComparisons_eq_ok (comparison ▸ allSame)
    · have step : ofKeys enclosing (.operator op :: rest) = .ok .whole := by
        simp [ofKeys, same, comparison]
      rw [step]
      constructor
      · intro read
        cases read
        exact .uniform comparison (by simp) allSame
      · intro reads
        cases reads with
        | uniform => rfl
        | alone => rfl
        | underField _ _ others =>
            exact absurd (by simpa using others _ List.mem_cons_self) comparison
        | underOperator _ _ others =>
            exact absurd (by simpa using others _ List.mem_cons_self) comparison
        | fields _ fields => simpa [Key.isOperator] using fields _ List.mem_cons_self
  · have step : ofKeys enclosing (.operator op :: rest) = mixed (.operator op :: rest) := by
      simp [ofKeys, same]
    constructor
    · intro read
      simp [step, mixed] at read
    · intro reads
      exact absurd (uniform_iff.mpr reads.category?_eq) same

theorem ofKeys_field_eq_ok {enclosing : Option Key} {name : String} {rest : List Key}
    {reading : Reading} :
    ofKeys enclosing (.field name :: rest) = .ok reading ↔
      Reads enclosing (.field name :: rest) reading := by
  have mixes : (Key.field name :: rest).any Key.isOperator = false ↔
      ∀ key ∈ .field name :: rest, key.isOperator = false := by
    simp only [List.any_eq_false, Bool.not_eq_true]
  cases pure : (Key.field name :: rest).any Key.isOperator with
  | false =>
      have step : ofKeys enclosing (.field name :: rest) = .ok .fields := by
        simp only [ofKeys, pure]
        rfl
      rw [step]
      constructor
      · intro read
        cases read
        exact .fields (by simp) (mixes.mp pure)
      · intro reads
        rw [reads.of_field.1]
  | true =>
      have step : ofKeys enclosing (.field name :: rest) = mixed (.field name :: rest) := by
        simp only [ofKeys, pure, if_true]
      constructor
      · intro read
        simp [step, mixed] at read
      · intro reads
        rw [mixes.mpr reads.of_field.2] at pure
        cases pure

/-- The decision on how to read a mapping, as its possible outcomes. -/
theorem ofKeys_eq_ok {enclosing : Option Key} {keys : List Key} {reading : Reading} :
    ofKeys enclosing keys = .ok reading ↔ Reads enclosing keys reading := by
  rcases keys with _ | ⟨op | name, rest⟩
  · constructor
    · intro read
      cases read
      exact .empty
    · intro reads
      cases reads <;> first | rfl | contradiction
  · exact ofKeys_operator_eq_ok
  · exact ofKeys_field_eq_ok

end Reading

namespace Node

/-- The clause of a comparison under an enclosing key. -/
def comparisonClause (enclosing : Key) (comparison : Key × Node) : Except Fault Node :=
  (expandConjunction (some comparison.1) comparison.2).map fun operand =>
    entry enclosing (entry comparison.1 operand)

/-- The clause of a field. -/
def fieldClause (field : Key × Node) : Except Fault Node :=
  (expandConjunction (some field.1) field.2).map fun expanded =>
    if field.2.isMapping then expanded else entry field.1 expanded

theorem expandedEntries_eq_traverse (entries : Entries) :
    expandedEntries entries = Entries.traverse (expandConjunction none) entries := by
  induction entries with
  | nil => rfl
  | cons entry rest ih =>
      rcases entry with ⟨key, value⟩
      rw [expandedEntries, ih]
      simp only [Entries.traverse, List.mapM_cons]
      cases expandConjunction none value <;> rfl

theorem comparisonClauses_eq_mapM (enclosing : Key) (entries : Entries) :
    comparisonClauses enclosing entries = entries.mapM (comparisonClause enclosing) := by
  induction entries with
  | nil => rfl
  | cons entry rest ih =>
      rcases entry with ⟨key, value⟩
      rw [comparisonClauses, ih, List.mapM_cons, comparisonClause]
      cases expandConjunction (some key) value <;> rfl

theorem fieldClauses_eq_mapM (entries : Entries) :
    fieldClauses entries = entries.mapM fieldClause := by
  induction entries with
  | nil => rfl
  | cons entry rest ih =>
      rcases entry with ⟨key, value⟩
      rw [fieldClauses, ih, List.mapM_cons, fieldClause]
      cases expandConjunction (some key) value <;> rfl

theorem expandedElements_eq_mapM (elements : Elements) :
    expandedElements elements = elements.mapM (expandConjunction none) := by
  induction elements with
  | nil => rfl
  | cons element rest ih =>
      rw [expandedElements, ih, List.mapM_cons]
      rfl

@[simp]
theorem expandConjunction_sequence (enclosing : Option Key) (items : List Node) :
    expandConjunction enclosing (.sequence items) = .error (.rawSequence .impliedConjunction) := rfl

theorem expandConjunction_multiset (enclosing : Option Key) (elements : Elements) :
    expandConjunction enclosing (.multiset elements) =
      (Elements.traverse (expandConjunction none) elements).map .multiset := by
  rw [expandConjunction, expandedElements_eq_mapM, Elements.traverse]
  cases elements.mapM (expandConjunction none) <;> rfl

theorem expandConjunction_whole {enclosing : Option Key} {entries : Entries}
    (read : Reading.ofKeys enclosing (Entries.keys entries) = .ok .whole) :
    expandConjunction enclosing (.mapping entries) =
      (Entries.traverse (expandConjunction none) entries).map .mapping := by
  rw [expandConjunction, read, expandedEntries_eq_traverse]
  exact bind_ok_eq_map

theorem expandConjunction_comparisons {enclosing : Option Key} {key : Key} {entries : Entries}
    (read : Reading.ofKeys enclosing (Entries.keys entries) = .ok (.comparisons key)) :
    expandConjunction enclosing (.mapping entries) =
      (entries.mapM (comparisonClause key)).map conjunction := by
  rw [expandConjunction, read, ← comparisonClauses_eq_mapM]
  exact bind_ok_eq_map

theorem expandConjunction_fields {enclosing : Option Key} {entries : Entries}
    (read : Reading.ofKeys enclosing (Entries.keys entries) = .ok .fields) :
    expandConjunction enclosing (.mapping entries) =
      (entries.mapM fieldClause).map conjunction := by
  rw [expandConjunction, read, fieldClauses_eq_mapM]
  exact bind_ok_eq_map

theorem expandConjunction_multiset_eq_ok {enclosing : Option Key} {elements : Elements}
    {result : Node} :
    expandConjunction enclosing (.multiset elements) = .ok result ↔
      ∃ values, List.Forall₂ (fun element value => expandConjunction none element = .ok value)
        elements values ∧ result = .multiset (Elements.ofList values) := by
  rw [expandConjunction_multiset, Elements.map_traverse_eq_ok]

/-- A clause stands for a comparison under an enclosing key. -/
def IsComparisonClause (enclosing : Key) (comparison : Key × Node) (clause : Node) : Prop :=
  ∃ operand, expandConjunction (some comparison.1) comparison.2 = .ok operand ∧
    clause = entry enclosing (entry comparison.1 operand)

/-- A clause stands for a field: either its value is a mapping that says what becomes of the field,
or the field holds the expanded value. -/
inductive IsFieldClause (field : Key × Node) : Node → Prop
  | mapping {entries : Entries} {clause : Node} (value : field.2 = .mapping entries)
      (expanded : expandConjunction (some field.1) field.2 = .ok clause) :
      IsFieldClause field clause
  | other {value : Node} (notMapping : field.2.isMapping = false)
      (expanded : expandConjunction (some field.1) field.2 = .ok value) :
      IsFieldClause field (entry field.1 value)

theorem comparisonClause_eq_ok {enclosing : Key} {comparison : Key × Node} {clause : Node} :
    comparisonClause enclosing comparison = .ok clause ↔
      IsComparisonClause enclosing comparison clause := by
  rw [comparisonClause, map_eq_ok, IsComparisonClause]
  simp only [eq_comm]

theorem fieldClause_eq_ok {field : Key × Node} {clause : Node} :
    fieldClause field = .ok clause ↔ IsFieldClause field clause := by
  rw [fieldClause, map_eq_ok]
  constructor
  · rintro ⟨value, expanded, rfl⟩
    cases isMapping : field.2.isMapping with
    | true =>
        rcases field with ⟨key, node⟩
        cases node <;> simp [Node.isMapping] at isMapping
        exact .mapping rfl expanded
    | false => exact .other isMapping expanded
  · intro isClause
    cases isClause with
    | mapping value expanded => exact ⟨_, expanded, by simp [value, Node.isMapping]⟩
    | other notMapping expanded => exact ⟨_, expanded, by simp [notMapping]⟩

/-- What the third pass makes of a mapping, by the way in which it is read. -/
inductive ExpandsConjunction (enclosing : Option Key) (entries : Entries) : Node → Prop
  | whole {results : Entries} (reads : Reading.Reads enclosing (Entries.keys entries) .whole)
      (expanded : List.Forall₂
        (Entries.Corresponds fun value result => expandConjunction none value = .ok result)
        entries results) :
      ExpandsConjunction enclosing entries (.mapping results)
  | comparisons {key : Key} {clauses : List Node}
      (reads : Reading.Reads enclosing (Entries.keys entries) (.comparisons key))
      (expanded : List.Forall₂ (IsComparisonClause key) entries clauses) :
      ExpandsConjunction enclosing entries (conjunction clauses)
  | fields {clauses : List Node} (reads : Reading.Reads enclosing (Entries.keys entries) .fields)
      (expanded : List.Forall₂ IsFieldClause entries clauses) :
      ExpandsConjunction enclosing entries (conjunction clauses)

theorem expandConjunction_mapping_eq_ok {enclosing : Option Key} {entries : Entries}
    {result : Node} :
    expandConjunction enclosing (.mapping entries) = .ok result ↔
      ExpandsConjunction enclosing entries result := by
  have clausesOf : ∀ {relation : Key × Node → Node → Prop} {f : Key × Node → Except Fault Node}
      {clauses : List Node}, (∀ {entry clause}, f entry = .ok clause ↔ relation entry clause) →
      (entries.mapM f = .ok clauses ↔ List.Forall₂ relation entries clauses) := by
    intro relation f clauses same
    simp only [mapM_eq_ok, same]
  constructor
  · intro expanded
    cases read : Reading.ofKeys enclosing (Entries.keys entries) with
    | error fault =>
        rw [expandConjunction, read] at expanded
        cases expanded
    | ok reading =>
        have reads := Reading.ofKeys_eq_ok.mp read
        cases reading with
        | whole =>
            rw [expandConjunction_whole read, Entries.map_traverse_eq_ok] at expanded
            rcases expanded with ⟨results, related, rfl⟩
            exact .whole reads related
        | comparisons key =>
            rw [expandConjunction_comparisons read, map_eq_ok] at expanded
            rcases expanded with ⟨clauses, related, rfl⟩
            exact .comparisons reads ((clausesOf comparisonClause_eq_ok).mp related)
        | fields =>
            rw [expandConjunction_fields read, map_eq_ok] at expanded
            rcases expanded with ⟨clauses, related, rfl⟩
            exact .fields reads ((clausesOf fieldClause_eq_ok).mp related)
  · intro expands
    cases expands with
    | whole reads expanded =>
        rw [expandConjunction_whole (Reading.ofKeys_eq_ok.mpr reads), Entries.map_traverse_eq_ok]
        exact ⟨_, expanded, rfl⟩
    | comparisons reads expanded =>
        rw [expandConjunction_comparisons (Reading.ofKeys_eq_ok.mpr reads), map_eq_ok]
        exact ⟨_, (clausesOf comparisonClause_eq_ok).mpr expanded, rfl⟩
    | fields reads expanded =>
        rw [expandConjunction_fields (Reading.ofKeys_eq_ok.mpr reads), map_eq_ok]
        exact ⟨_, (clausesOf fieldClause_eq_ok).mpr expanded, rfl⟩

/-- A property of all clauses and of their explicit conjunction is one of their conjunction. -/
theorem conjunction_of {property : Node → Prop} {clauses : List Node}
    (each : ∀ clause ∈ clauses, property clause) (and : property (Node.and clauses)) :
    property (conjunction clauses) := by
  rcases clauses with _ | ⟨clause, _ | ⟨second, rest⟩⟩
  · exact and
  · exact each clause (List.mem_singleton_self clause)
  · exact and

theorem map_conjunction_singleton (f : Key × Node → Except Fault Node) (entry : Key × Node) :
    ([entry].mapM f).map conjunction = f entry := by
  rw [List.mapM_cons, List.mapM_nil]
  cases f entry <;> rfl

theorem conjunction_proper {clauses : List Node} (proper : ∀ clause ∈ clauses, clause.Proper) :
    (conjunction clauses).Proper :=
  conjunction_of proper (proper_and proper)

theorem expandConjunction_proper {enclosing : Option Key} {node result : Node}
    (proper : node.Proper) (expanded : expandConjunction enclosing node = .ok result) :
    result.Proper := by
  induction node generalizing enclosing result with
  | scalar value =>
      cases expanded
      exact proper
  | mapping entries ih =>
      rw [proper_mapping] at proper
      rcases proper with ⟨distinct, proper⟩
      cases expandConjunction_mapping_eq_ok.mp expanded with
      | whole _ values =>
          rw [proper_mapping, Entries.keys_eq_of_forall₂ values]
          refine ⟨distinct, ?_⟩
          intro entry present
          rcases exists_source values present with ⟨source, among, _, expandedValue⟩
          exact ih source among (proper source among) expandedValue
      | comparisons _ clauses =>
          apply conjunction_proper
          intro clause present
          rcases exists_source clauses present with ⟨source, among, operand, expandedOperand, rfl⟩
          simpa using ih source among (proper source among) expandedOperand
      | fields _ clauses =>
          apply conjunction_proper
          intro clause present
          rcases exists_source clauses present with ⟨source, among, isClause⟩
          cases isClause with
          | mapping _ expandedValue => exact ih source among (proper source among) expandedValue
          | other _ expandedValue =>
              simpa using ih source among (proper source among) expandedValue
  | multiset elements ih =>
      rw [proper_multiset] at proper
      rcases expandConjunction_multiset_eq_ok.mp expanded with ⟨values, related, rfl⟩
      apply Elements.proper_ofList
      intro value present
      rcases exists_source related present with ⟨source, among, expandedElement⟩
      exact ih source among (proper.2 source among) expandedElement
  | sequence items => simp at expanded

end Node

end FilterLang
