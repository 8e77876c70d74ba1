import FilterLang.Proofs.Normal.Form

/-!
# The grammar of the pass over conjunctions

Whether the pass over conjunctions accepts a tree depends on the tree and on the kind of key that
encloses it. `Node.Expandable` is the grammar of the trees that it accepts, said without the pass:
several comparisons need a key above them, and every other mapping only keys that go together. A
fault comes from a tree inside the one that is refused, and says of it what is there
(`Fault.Concerns`).
-/

namespace FilterLang

/-- What encloses a tree, as far as the reading of comparisons depends on it. -/
inductive Enclosure where
  | nothing
  | field
  | operator
  deriving DecidableEq

/-- What encloses a tree below a key. -/
def Enclosure.ofKey : Option Key → Enclosure
  | none => .nothing
  | some (.field _) => .field
  | some (.operator _) => .operator

namespace Reading

variable {enclosing : Option Key} {keys : List Key} {fault : Fault}

/-- The key that encloses the value of an entry, in a mapping that is read in a given way. -/
def above : Reading → Key → Option Key
  | .whole, _ => none
  | .comparisons _, key => some key
  | .fields, key => some key

/-- No way to read a mapping: it has a field and an operator, or operators of two categories. -/
def Mixed (keys : List Key) : Prop :=
  (¬∀ key ∈ keys, key.isOperator = false) ∧
    ∀ category, ¬∀ key ∈ keys, key.category? = some category

theorem ofComparisons_eq_error (uniform : ∀ key ∈ keys, key.category? = some .comparison)
    (nonempty : keys ≠ []) (fails : ofComparisons enclosing keys = .error fault) :
    fault = .missingField (keys.map Key.name) ∧ 2 ≤ keys.length ∧
      ∀ key ∈ keys, key.category? = some .comparison := by
  rcases keys with _ | ⟨first, _ | ⟨second, rest⟩⟩
  · contradiction
  · rcases enclosing with _ | ⟨op | name⟩ <;> cases fails
  · rcases enclosing with _ | ⟨op | name⟩
    · cases fails
      exact ⟨rfl, by simp, uniform⟩
    · cases fails
    · cases fails

/-- Keys are not read where they do not go together, or where several comparisons lack a key above
them. -/
theorem ofKeys_eq_error (fails : ofKeys enclosing keys = .error fault) :
    (fault = .mixedKeys (keys.map Key.name) ∧ Mixed keys) ∨
      (fault = .missingField (keys.map Key.name) ∧ 2 ≤ keys.length ∧
        ∀ key ∈ keys, key.category? = some .comparison) := by
  rcases keys with _ | ⟨op | name, rest⟩
  · cases fails
  · rw [ofKeys] at fails
    by_cases same : uniform op.category (.operator op :: rest) = true
    · simp only [same, Bool.not_true, Bool.false_eq_true, if_false] at fails
      split at fails
      · next comparison =>
        rw [comparison, uniform_iff] at same
        exact .inr (ofComparisons_eq_error same (by simp) fails)
      · cases fails
    · simp only [same, Bool.not_false, if_true] at fails
      cases fails
      refine .inl ⟨rfl, ?_, ?_⟩
      · intro fields
        simpa [Key.isOperator] using fields _ List.mem_cons_self
      · intro category uniform
        have first := uniform _ List.mem_cons_self
        rw [Key.category?_operator, Option.some.injEq] at first
        rw [← first] at uniform
        exact same (uniform_iff.mpr uniform)
  · rw [ofKeys] at fails
    split at fails
    · next mixes =>
      cases fails
      refine .inl ⟨rfl, ?_, ?_⟩
      · intro fields
        rcases List.any_eq_true.mp mixes with ⟨key, present, isOperator⟩
        simp [fields key present] at isOperator
      · intro category uniform
        simpa using uniform _ List.mem_cons_self
    · cases fails

end Reading

/-- What a fault of the pass over conjunctions says of the tree that it comes from. -/
inductive Fault.Concerns : Fault → Node → Prop
  | rawSequence (items : List Node) :
      Concerns (.rawSequence .impliedConjunction) (.sequence items)
  | mixedKeys {entries : Entries} (mixed : Reading.Mixed (Entries.keys entries)) :
      Concerns (.mixedKeys (Entries.keyNames entries)) (.mapping entries)
  | missingField {entries : Entries} (several : 2 ≤ entries.length)
      (comparisons : ∀ key ∈ Entries.keys entries, key.category? = some .comparison) :
      Concerns (.missingField (Entries.keyNames entries)) (.mapping entries)

namespace Node

variable {enclosing : Option Key} {entries : Entries} {node : Node} {fault : Fault}

/-- The trees that the pass over conjunctions accepts below an enclosure. -/
inductive Expandable : Enclosure → Node → Prop
  | scalar {enclosure : Enclosure} (value : Scalar) : Expandable enclosure (.scalar value)
  /-- Every element of a multiset is a tree by itself. -/
  | multiset {enclosure : Enclosure} {elements : Elements}
      (each : ∀ element ∈ elements, Expandable .nothing element) :
      Expandable enclosure (.multiset elements)
  | empty {enclosure : Enclosure} : Expandable enclosure (.mapping [])
  /-- Only logical or only structural keys, each with a tree by itself. -/
  | uniform {enclosure : Enclosure} {category : Operator.Category} {entries : Entries}
      (other : category ≠ .comparison)
      (uniform : ∀ key ∈ Entries.keys entries, key.category? = some category)
      (values : ∀ entry ∈ entries, Expandable .nothing entry.2) :
      Expandable enclosure (.mapping entries)
  /-- One comparison below a field. -/
  | underField {op : Operator} {operand : Node} (comparison : op.category = .comparison)
      (expandable : Expandable .operator operand) :
      Expandable .field (entry (.operator op) operand)
  /-- One comparison that is not directly below a field. -/
  | alone {enclosure : Enclosure} {op : Operator} {operand : Node} (noField : enclosure ≠ .field)
      (comparison : op.category = .comparison) (expandable : Expandable .nothing operand) :
      Expandable enclosure (entry (.operator op) operand)
  /-- Several comparisons below a field or an operator. -/
  | comparisons {enclosure : Enclosure} {entries : Entries} (enclosed : enclosure ≠ .nothing)
      (several : 2 ≤ entries.length)
      (comparisons : ∀ key ∈ Entries.keys entries, key.category? = some .comparison)
      (operands : ∀ entry ∈ entries, Expandable .operator entry.2) :
      Expandable enclosure (.mapping entries)
  /-- Only fields. A value that is no mapping is read alike below every key. -/
  | fields {enclosure : Enclosure} {entries : Entries}
      (fields : ∀ key ∈ Entries.keys entries, key.isOperator = false)
      (values : ∀ entry ∈ entries, Expandable .field entry.2) :
      Expandable enclosure (.mapping entries)

theorem expandable_multiset {enclosure : Enclosure} {elements : Elements} :
    Expandable enclosure (.multiset elements) ↔
      ∀ element ∈ elements, Expandable .nothing element := by
  constructor
  · intro expandable
    cases expandable with
    | multiset each => exact each
  · exact .multiset

theorem not_expandable_sequence {enclosure : Enclosure} {items : List Node} :
    ¬Expandable enclosure (.sequence items) := by
  intro expandable
  cases expandable

section Entries

theorem keys_length : (Entries.keys entries).length = entries.length := List.length_map _

theorem ofKey_above_comparison {key : Key} {category : Operator.Category} {enclosingKey : Key}
    (categorized : key.category? = some category) :
    Enclosure.ofKey ((Reading.comparisons enclosingKey).above key) = .operator := by
  rcases Key.category?_eq_some.mp categorized with ⟨op, rfl, _⟩
  rfl

theorem ofKey_above_field {key : Key} (field : key.isOperator = false) :
    Enclosure.ofKey (Reading.fields.above key) = .field := by
  rcases Key.isOperator_eq_false.mp field with ⟨name, rfl⟩
  rfl

theorem enclosing_of_field (enclosed : Enclosure.ofKey enclosing = .field) :
    ∃ name, enclosing = some (.field name) := by
  rcases enclosing with _ | ⟨op | name⟩
  · cases enclosed
  · cases enclosed
  · exact ⟨name, rfl⟩

theorem exists_reads_comparisons (enclosed : Enclosure.ofKey enclosing ≠ .nothing)
    (several : 2 ≤ entries.length)
    (comparisons : ∀ key ∈ Entries.keys entries, key.category? = some .comparison) :
    ∃ key, Reading.Reads enclosing (Entries.keys entries) (.comparisons key) := by
  rw [← keys_length] at several
  rcases enclosing with _ | ⟨op | name⟩
  · exact absurd rfl enclosed
  · exact ⟨_, .underOperator rfl several comparisons⟩
  · refine ⟨_, .underField rfl ?_ comparisons⟩
    intro empty
    simp [empty] at several

/-- A mapping of the grammar is read in some way, which asks of each value what the grammar asks. -/
theorem Expandable.exists_reads (expandable : Expandable (.ofKey enclosing) (.mapping entries)) :
    ∃ reading, Reading.Reads enclosing (Entries.keys entries) reading ∧
      ∀ entry ∈ entries, Expandable (.ofKey (reading.above entry.1)) entry.2 := by
  generalize below : Enclosure.ofKey enclosing = enclosure at expandable
  generalize isMapping : Node.mapping entries = node at expandable
  cases expandable with
  | scalar => cases isMapping
  | multiset => cases isMapping
  | empty =>
      cases isMapping
      exact ⟨.whole, .empty, by simp⟩
  | uniform other uniform values =>
      cases isMapping
      rcases eq_or_ne entries [] with rfl | nonempty
      · exact ⟨.whole, .empty, by simp⟩
      · exact ⟨.whole, .uniform other (Entries.keys_ne_nil.mpr nonempty) uniform, values⟩
  | underField comparison operand =>
      cases isMapping
      rcases enclosing_of_field below with ⟨name, enclosed⟩
      refine ⟨_, .underField enclosed (by simp [Entries.keys]) ?_, ?_⟩
      · simp [Entries.keys, comparison]
      · simpa [Reading.above, Enclosure.ofKey] using operand
  | alone noField comparison operand =>
      cases isMapping
      refine ⟨_, .alone comparison ?_, ?_⟩
      · rintro name rfl
        exact noField below.symm
      · simpa [Reading.above, Enclosure.ofKey] using operand
  | comparisons enclosed several comparisons operands =>
      cases isMapping
      rw [← below] at enclosed
      rcases exists_reads_comparisons enclosed several comparisons with ⟨key, reads⟩
      refine ⟨_, reads, ?_⟩
      intro entry present
      rw [ofKey_above_comparison (comparisons _ (List.mem_map_of_mem present))]
      exact operands entry present
  | fields fields values =>
      cases isMapping
      rcases eq_or_ne entries [] with rfl | nonempty
      · exact ⟨.whole, .empty, by simp⟩
      · refine ⟨_, .fields (Entries.keys_ne_nil.mpr nonempty) fields, ?_⟩
        intro entry present
        rw [ofKey_above_field (fields _ (List.mem_map_of_mem present))]
        exact values entry present

/-- Comparisons that are read as comparisons are a mapping of the grammar: a single one only below a
field. -/
theorem expandable_comparisons {key : Key}
    (reads : Reading.Reads enclosing (Entries.keys entries) (.comparisons key))
    (operands : ∀ entry ∈ entries, Expandable .operator entry.2) :
    Expandable (.ofKey enclosing) (.mapping entries) := by
  rcases reads.of_comparisons with ⟨enclosed, nonempty, comparisons⟩
  rcases entries with _ | ⟨⟨first, operand⟩, _ | ⟨second, rest⟩⟩
  · simp [Entries.keys] at nonempty
  · rcases Key.category?_eq_some.mp (comparisons first List.mem_cons_self) with
      ⟨op, rfl, comparison⟩
    have single := operands _ List.mem_cons_self
    cases reads with
    | underField => exact enclosed ▸ .underField comparison single
    | underOperator _ several => simp [Entries.keys] at several
  · apply Expandable.comparisons _ (by simp) comparisons operands
    rw [enclosed]
    cases key <;> simp [Enclosure.ofKey]

theorem expandable_of_reads {reading : Reading}
    (reads : Reading.Reads enclosing (Entries.keys entries) reading)
    (values : ∀ entry ∈ entries, Expandable (.ofKey (reading.above entry.1)) entry.2) :
    Expandable (.ofKey enclosing) (.mapping entries) := by
  cases reading with
  | whole =>
      generalize same : Entries.keys entries = keys at reads
      cases reads with
      | empty =>
          rw [List.map_eq_nil_iff.mp same]
          exact .empty
      | uniform other _ uniform =>
          subst same
          exact .uniform other uniform values
      | alone comparison noField =>
          rcases List.map_eq_singleton_iff.mp same with ⟨⟨key, operand⟩, rfl, rfl⟩
          apply Expandable.alone _ comparison (values _ List.mem_cons_self)
          intro enclosed
          rcases enclosing_of_field enclosed with ⟨name, rfl⟩
          exact noField name rfl
  | comparisons key =>
      apply expandable_comparisons reads
      intro entry present
      have comparison := reads.of_comparisons.2.2 _ (List.mem_map_of_mem present)
      rw [← @ofKey_above_comparison _ _ key comparison]
      exact values entry present
  | fields =>
      have fields : ∀ key ∈ Entries.keys entries, key.isOperator = false := by
        intro key present
        exact Key.isOperator_eq_false.mpr (reads.of_fields.2 key present)
      apply Expandable.fields fields
      intro entry present
      rw [← ofKey_above_field (fields _ (List.mem_map_of_mem present))]
      exact values entry present

theorem expandable_mapping :
    Expandable (.ofKey enclosing) (.mapping entries) ↔
      ∃ reading, Reading.Reads enclosing (Entries.keys entries) reading ∧
        ∀ entry ∈ entries, Expandable (.ofKey (reading.above entry.1)) entry.2 := by
  constructor
  · exact Expandable.exists_reads
  · rintro ⟨reading, reads, values⟩
    exact expandable_of_reads reads values

end Entries

section Pass

/-- However a mapping is read, the pass expands every value below the key that encloses it, and puts
the results together. -/
theorem exists_expandConjunction_eq {reading : Reading}
    (read : Reading.ofKeys enclosing (Entries.keys entries) = .ok reading) :
    ∃ (α : Type) (part : Key × Node → Node → α) (join : List α → Node),
      expandConjunction enclosing (.mapping entries) =
        (entries.mapM fun entry =>
          (expandConjunction (reading.above entry.1) entry.2).map (part entry)).map join := by
  cases reading with
  | whole => exact ⟨_, fun entry => Prod.mk entry.1, .mapping, expandConjunction_whole read⟩
  | comparisons key =>
      exact ⟨_, fun comparison operand => entry key (entry comparison.1 operand), conjunction,
        expandConjunction_comparisons read⟩
  | fields =>
      exact ⟨_, fun field expanded => if field.2.isMapping then expanded else entry field.1 expanded,
        conjunction, expandConjunction_fields read⟩

theorem exists_expandConjunction_iff_values {reading : Reading}
    (read : Reading.ofKeys enclosing (Entries.keys entries) = .ok reading) :
    (∃ result, expandConjunction enclosing (.mapping entries) = .ok result) ↔
      ∀ entry ∈ entries, ∃ result,
        expandConjunction (reading.above entry.1) entry.2 = .ok result := by
  rcases exists_expandConjunction_eq read with ⟨α, part, join, expands⟩
  rw [expands, exists_map_eq_ok, exists_mapM_eq_ok]
  simp only [exists_map_eq_ok]

theorem exists_expandConjunction_mapping_eq_ok :
    (∃ result, expandConjunction enclosing (.mapping entries) = .ok result) ↔
      ∃ reading, Reading.Reads enclosing (Entries.keys entries) reading ∧
        ∀ entry ∈ entries, ∃ result,
          expandConjunction (reading.above entry.1) entry.2 = .ok result := by
  constructor
  · rintro ⟨result, expanded⟩
    cases read : Reading.ofKeys enclosing (Entries.keys entries) with
    | error fault =>
        rw [expandConjunction, read] at expanded
        cases expanded
    | ok reading =>
        exact ⟨reading, Reading.ofKeys_eq_ok.mp read,
          (exists_expandConjunction_iff_values read).mp ⟨result, expanded⟩⟩
  · rintro ⟨reading, reads, each⟩
    exact (exists_expandConjunction_iff_values (Reading.ofKeys_eq_ok.mpr reads)).mpr each

/-- The pass succeeds on exactly the trees of the grammar. -/
theorem exists_expandConjunction_eq_ok :
    (∃ result, expandConjunction enclosing node = .ok result) ↔
      Expandable (.ofKey enclosing) node := by
  induction node generalizing enclosing with
  | scalar value => exact ⟨fun _ => .scalar value, fun _ => ⟨_, rfl⟩⟩
  | mapping entries ih =>
      rw [exists_expandConjunction_mapping_eq_ok, expandable_mapping]
      apply exists_congr
      intro reading
      apply and_congr_right
      intro _
      apply forall₂_congr
      intro entry present
      exact ih entry present
  | multiset elements ih =>
      rw [expandConjunction_multiset, exists_map_eq_ok, Elements.exists_traverse_eq_ok,
        expandable_multiset]
      apply forall₂_congr
      intro element present
      exact ih element present
  | sequence items => simp [not_expandable_sequence]

theorem expandConjunction_mapping_eq_error
    (fails : expandConjunction enclosing (.mapping entries) = .error fault) :
    fault.Concerns (.mapping entries) ∨
      ∃ entry ∈ entries, ∃ key, expandConjunction key entry.2 = .error fault := by
  have names : (Entries.keys entries).map Key.name = Entries.keyNames entries := by
    simp [Entries.keys, Entries.keyNames]
  cases read : Reading.ofKeys enclosing (Entries.keys entries) with
  | error reason =>
      rw [expandConjunction, read] at fails
      cases fails
      rcases Reading.ofKeys_eq_error read with ⟨rfl, mixed⟩ | ⟨rfl, several, comparisons⟩
      · exact .inl (names ▸ .mixedKeys mixed)
      · rw [keys_length] at several
        exact .inl (names ▸ .missingField several comparisons)
  | ok reading =>
      rcases exists_expandConjunction_eq read with ⟨α, part, join, expands⟩
      rw [expands, map_eq_error] at fails
      rcases exists_of_mapM_eq_error fails with ⟨entry, present, valueFails⟩
      exact .inr ⟨entry, present, _, map_eq_error.mp valueFails⟩

/-- A fault comes from a tree that it describes. -/
theorem exists_concerned (fails : expandConjunction enclosing node = .error fault) :
    ∃ inner, Within inner node ∧ fault.Concerns inner := by
  induction node generalizing enclosing with
  | scalar value => cases fails
  | mapping entries ih =>
      rcases expandConjunction_mapping_eq_error fails with concerned | ⟨entry, present, key, fails⟩
      · exact ⟨_, .here, concerned⟩
      · rcases ih entry present fails with ⟨inner, inside, concerned⟩
        exact ⟨inner, .entry present inside, concerned⟩
  | multiset elements ih =>
      rw [expandConjunction_multiset, map_eq_error] at fails
      rcases Elements.exists_of_traverse_eq_error fails with ⟨element, present, fails⟩
      rcases ih element present fails with ⟨inner, inside, concerned⟩
      exact ⟨inner, .element present inside, concerned⟩
  | sequence items =>
      cases fails
      exact ⟨_, .here, .rawSequence items⟩

end Pass

/-- The pass over conjunctions by itself succeeds on exactly the trees of the grammar. A fault of it
is found in the tree: a sequence, a mapping with the given keys that do not go together, or a mapping
of two or more comparisons with the given keys. -/
theorem normalizeWith_impliedConjunction (node : Node) :
    ((∃ result, normalizeWith [.impliedConjunction] node = .ok result) ↔
      Expandable .nothing node) ∧
    (∀ pass, normalizeWith [.impliedConjunction] node = .error (.rawSequence pass) →
      ∃ items, Within (.sequence items) node) ∧
    (∀ names, normalizeWith [.impliedConjunction] node = .error (.mixedKeys names) →
      ∃ entries, Within (.mapping entries) node ∧ Entries.keyNames entries = names ∧
        Reading.Mixed (Entries.keys entries)) ∧
    ∀ names, normalizeWith [.impliedConjunction] node = .error (.missingField names) →
      ∃ entries, Within (.mapping entries) node ∧ Entries.keyNames entries = names ∧
        2 ≤ entries.length ∧ ∀ key ∈ Entries.keys entries, key.category? = some .comparison := by
  simp only [normalizeWith_singleton, Pass.apply]
  refine ⟨exists_expandConjunction_eq_ok, ?_, ?_, ?_⟩
  · intro pass fails
    rcases exists_concerned fails with ⟨inner, inside, concerned⟩
    cases concerned with
    | rawSequence items => exact ⟨items, inside⟩
  · intro names fails
    rcases exists_concerned fails with ⟨inner, inside, concerned⟩
    cases concerned with
    | mixedKeys mixed => exact ⟨_, inside, rfl, mixed⟩
  · intro names fails
    rcases exists_concerned fails with ⟨inner, inside, concerned⟩
    cases concerned with
    | missingField several comparisons => exact ⟨_, inside, rfl, several, comparisons⟩

/-- A range that has lost its field, beside one that has it. -/
def strayComparisons : Node :=
  .and [entry (.field "year") (.mapping
      [(.operator .gte, .scalar (.int 2001)), (.operator .lte, .scalar (.int 2005))]),
    .mapping [(.operator .lt, .scalar (.int 2005)), (.operator .gt, .scalar (.int 2001))]]

/-- The fault names the two comparisons that no field encloses. -/
theorem normalizeWith_impliedConjunction_strayComparisons :
    normalizeWith [.impliedConjunction] strayComparisons = .error (.missingField ["lt", "gt"]) ∧
      ¬Expandable .nothing strayComparisons ∧
      ∃ entries, Within (.mapping entries) strayComparisons ∧
        Entries.keyNames entries = ["lt", "gt"] := by
  have fails : normalizeWith [.impliedConjunction] strayComparisons =
      .error (.missingField ["lt", "gt"]) := rfl
  rcases normalizeWith_impliedConjunction strayComparisons with ⟨accepted, _, _, missing⟩
  rcases missing _ fails with ⟨entries, inside, names, _⟩
  refine ⟨fails, ?_, entries, inside, names⟩
  intro expandable
  rcases accepted.mpr expandable with ⟨result, succeeds⟩
  rw [fails] at succeeds
  cases succeeds

end Node

end FilterLang
